import BugReport.Proofs.Expression.Words
import BugReport.Proofs.Number.Integers
import BugReport.Proofs.Report.TableLines
import Mathlib.Algebra.BigOperators.Group.List.Basic
import Mathlib.Algebra.Order.Ring.Int
import Mathlib.Data.List.Infix

/-! # The totals of a table

A total goes over the rows that have a line in the table. Integers are added exactly as long as the sums on the way stay
below `2 ^ 53`, and the sum is written with its digits. A column adds to its total as often as the request names it, so
the total of a column that is named more than once is a multiple of its sum.
-/

namespace BugReport

open Binary64

/-! ## Sums -/

/-- The sums on the way over some integers are below `2 ^ 53`. -/
def PartialSumsFit (xs : List Int) : Prop :=
  ∀ part, part <+: xs → part.sum.natAbs < twoPow 53

instance (xs : List Int) : Decidable (PartialSumsFit xs) :=
  decidable_of_iff (∀ part ∈ xs.inits, part.sum.natAbs < twoPow 53)
    (forall_congr' fun part => imp_congr_left (List.mem_inits part xs))

section

variable {xs : List Int} {i : Int}

theorem PartialSumsFit.sum_lt (h : PartialSumsFit xs) : xs.sum.natAbs < twoPow 53 :=
  h xs List.prefix_rfl

theorem PartialSumsFit.of_append {more : List Int} (h : PartialSumsFit (xs ++ more)) : PartialSumsFit xs :=
  fun part hpart => h part (hpart.trans (List.prefix_append xs more))

/-- An integer is the difference of two sums. -/
theorem PartialSumsFit.natAbs_lt (h : PartialSumsFit xs) (hi : i ∈ xs) : i.natAbs < twoPow 54 := by
  obtain ⟨front, back, rfl⟩ := List.append_of_mem hi
  have hfront := h front (List.prefix_append _ _)
  have hnext := h (front ++ [i]) ⟨back, by simp⟩
  have hbound : twoPow 54 = twoPow 53 + twoPow 53 := rfl
  rw [List.sum_append, List.sum_singleton] at hnext
  omega

theorem PartialSumsFit.log2_le (h : PartialSumsFit xs) (hi : i ∈ xs) : i.natAbs.log2 ≤ 1000 :=
  log2_le_of_lt (h.natAbs_lt hi) (by decide)

/-- Integers that are added one by one come to their sum. -/
theorem foldl_add_ofInteger (hexact : ∀ i ∈ xs, IsExact i.natAbs) (h : PartialSumsFit xs) :
    (xs.map ofInteger).foldl add zero = ofInteger xs.sum := by
  induction xs using List.reverseRecOn with
  | nil => rfl
  | append_singleton xs i ih =>
      have hi : i ∈ xs ++ [i] := List.mem_append_right _ (List.mem_singleton_self i)
      have hsum := h.sum_lt
      rw [List.sum_append, List.sum_singleton] at hsum ⊢
      rw [List.map_append, List.map_singleton, List.foldl_concat,
        ih (fun j hj => hexact j (List.mem_append_left _ hj)) h.of_append]
      exact add_ofInteger h.of_append.sum_lt (hexact i hi) (h.log2_le hi) hsum

theorem sum_flatMap_replicate (xs : List Int) (times : Nat) :
    (xs.flatMap (List.replicate times)).sum = times * xs.sum := by
  induction xs with
  | nil => simp
  | cons i xs ih => simp [ih, Int.mul_add]

end

/-! ## Texts -/

theorem isBlank_of_mem_toString {i : Int} {c : Char} (h : c ∈ (toString i).toList) : Text.isBlank c = false := by
  rw [toList_toString_int] at h
  split at h
  · rcases List.mem_cons.mp h with rfl | hdigit
    · decide
    · exact isBlank_of_isDigit (isDigit_of_mem_toDigits hdigit)
  · exact isBlank_of_isDigit (isDigit_of_mem_toDigits h)

theorem numberOf?_toString {i : Int} (h : i.natAbs < twoPow 54) :
    Formatter.numberOf? (toString i) = some (ofInteger i) := by
  have htrimmed : Text.trimmed (toString i) = toString i := by
    rw [Text.trimmed, Text.trim_of_no_blank fun c hc => isBlank_of_mem_toString hc, String.ofList_toList]
  have hne : ¬ (toString i == "") = true := by
    intro heq
    have hnil : (toString i).toList = [] := congrArg String.toList (eq_of_beq heq)
    rw [toList_toString_int] at hnil
    split at hnil
    · cases hnil
    · exact Nat.toDigits_ne_nil hnil
  simp only [Formatter.numberOf?, htrimmed, if_neg hne]
  exact read?_of_lt h

namespace Renderer

variable {r : Renderer}

/-- A sum below the bound is written with its digits, also when it is zero. -/
theorem writeTotal_ofInteger {i : Int} (h : i.natAbs < twoPow 53) : r.writeTotal (ofInteger i) = toString i := by
  have hread := numberOf?_toString (Nat.lt_trans h (show twoPow 53 < twoPow 54 by decide))
  rw [writeTotal, isZero_ofInteger h]
  by_cases hi : i = 0
  · subst hi
    rfl
  · simp only [hi, decide_false, Bool.false_eq_true, if_false, plainText_ofInteger h, Formatter.write, hread,
      Formatter.writeNumber, isZero_ofInteger h, isIntegral_ofInteger h, if_true, fixedText_ofInteger h]

/-! ## Totals of integers -/

variable {rows : List Row} {columns totalled : List String} {column : String} {cells : List Int}

/-- What rows add to a total whose cells are integers. -/
theorem map_addend (hcells : rows.map (valueOf · column) = cells.map toString)
    (hsmall : ∀ i ∈ cells, i.natAbs < twoPow 54) : rows.map (addend · column) = cells.map ofInteger := by
  have haddend : (addend · column) = (fun text => (read? text).getD zero) ∘ (valueOf · column) := rfl
  rw [haddend, ← List.map_map, hcells, List.map_map]
  refine List.map_congr_left fun i hi => ?_
  rw [Function.comp_apply, read?_of_lt (hsmall i hi), Option.getD_some]

/-- A column adds to its total as often as it is named. -/
theorem sum_of_integers (hcolumn : column ∈ columns) (hcells : rows.map (valueOf · column) = cells.map toString)
    (hexact : ∀ i ∈ cells, IsExact i.natAbs)
    (hfit : PartialSumsFit (cells.flatMap (List.replicate (columns.count column)))) :
    sum columns column rows = ofInteger (columns.count column * cells.sum) := by
  have htimes : columns.count column ≠ 0 := Nat.ne_of_gt (List.count_pos_iff.mpr hcolumn)
  have hmem {i : Int} : i ∈ cells.flatMap (List.replicate (columns.count column)) ↔ i ∈ cells := by
    simp [List.mem_flatMap, List.mem_replicate, htimes]
  have hadded : sum columns column rows =
      ((rows.map (addend · column)).flatMap (List.replicate (columns.count column))).foldl add zero := by
    rw [List.foldl_flatMap, List.foldl_map]
    rfl
  have hmap : (cells.map ofInteger).flatMap (List.replicate (columns.count column)) =
      (cells.flatMap (List.replicate (columns.count column))).map ofInteger := by
    rw [List.flatMap_map, List.map_flatMap]
    simp only [List.map_replicate]
  rw [hadded, map_addend hcells fun i hi => hfit.natAbs_lt (hmem.mpr hi), hmap,
    foldl_add_ofInteger (fun i hi => hexact i (hmem.mp hi)) hfit, sum_flatMap_replicate]

theorem totals_render (r : Renderer) (rows : List Row) : (r.render rows).1.totals =
    r.totalColumns?.map fun totalled => r.query.columns.map fun column =>
      if column ∈ totalled then r.writeTotal (sum totalled column (rows.take r.rowLimit)) else "" := by
  refine Option.map_congr fun totalled htotalled => List.map_congr_left fun column _ => ?_
  rw [(r.covers_progress rows).sums totalled htotalled column]
  by_cases hcolumn : column ∈ totalled
  · rw [if_pos hcolumn, if_pos hcolumn]
  · rw [if_neg hcolumn, if_neg hcolumn]

/-- The total under a column that the request names, over the rows that have a line: the sum of its integers as often
as the column is named. So it is the sum itself exactly if the column is named once, or the sum is zero. -/
theorem total_is_sum_iff (r : Renderer) (rows : List Row) (htotal : r.totalColumns? = some totalled)
    (hcolumn : column ∈ totalled)
    (hcells : (rows.take r.rowLimit).map (valueOf · column) = cells.map toString)
    (hexact : ∀ i ∈ cells, IsExact i.natAbs)
    (hfit : PartialSumsFit (cells.flatMap (List.replicate (totalled.count column)))) :
    ∃ totals : List String, (r.render rows).1.totals = some totals ∧ totals.length = r.query.columns.length ∧
      ∀ place : Nat, r.query.columns[place]? = some column →
        totals[place]? = some (toString (totalled.count column * cells.sum)) ∧
        (totals[place]? = some (toString cells.sum) ↔ totalled.count column = 1 ∨ cells.sum = 0) := by
  have hbound := hfit.sum_lt
  rw [sum_flatMap_replicate] at hbound
  refine ⟨_, by rw [totals_render, htotal, Option.map_some], List.length_map _, fun place hplace => ?_⟩
  rw [List.getElem?_map, hplace, Option.map_some, if_pos hcolumn,
    sum_of_integers hcolumn hcells hexact hfit, writeTotal_ofInteger hbound]
  refine ⟨rfl, ?_⟩
  rw [Option.some.injEq, toString_inj, mul_left_eq_self₀, Nat.cast_eq_one]

/-- The second of two totals, over the two rows of three that have a line. -/
theorem total_is_sum_of_lines :
    ∃ (r : Renderer) (rows : List Row) (totals : List String), r.rowLimit = 2 ∧ rows.length = 3 ∧
      r.totalColumns? = some ["id", "votes"] ∧ (rows.take r.rowLimit).map (valueOf · "votes") = ["5", "-12"] ∧
      (r.render rows).1.totals = some totals ∧ totals[1]? = some "-7" := by
  let store := (Store.empty.applyLines ["columns=id,votes", "total=id,votes", "maxrows=2"]).1
  let r : Renderer := { store, settings := {}, query := (compile store 0).query, now := 0 }
  let rows : List Row :=
    [[("id", .integer 1), ("votes", .integer 5)], [("id", .integer 2), ("votes", .integer (-12))],
      [("id", .integer 3), ("votes", .integer 40)]]
  have htotal : r.totalColumns? = some ["id", "votes"] := by decide +kernel
  have hcells : (rows.take r.rowLimit).map (valueOf · "votes") = ([5, -12] : List Int).map toString := by
    decide +kernel
  obtain ⟨totals, htotals, -, hplaces⟩ := total_is_sum_iff r rows htotal (by decide) hcells
    (by
      intro i hi
      exact .of_lt ((by decide : ∀ i ∈ ([5, -12] : List Int), i.natAbs < twoPow 53) i hi))
    (by decide)
  exact ⟨r, rows, totals, by decide +kernel, rfl, htotal, hcells, htotals,
    (hplaces 1 (by decide +kernel)).2.mpr (.inl rfl)⟩

/-- Neither total is the sum of its integers, whose partial sums are below the bound: the first column is named twice,
and the second holds an integer that is rounded when it is read. -/
theorem totals_miss_sums :
    let store := (Store.empty.applyLines ["columns=votes,cf_size", "total=votes,votes,cf_size"]).1
    let r : Renderer := { store, settings := {}, query := (compile store 0).query, now := 0 }
    let rows : List Row := [[("votes", .integer 3), ("cf_size", .integer (-9007199254740991))],
      [("votes", .integer 8), ("cf_size", .integer 18014398509481981)]]
    PartialSumsFit [3, 8] ∧ PartialSumsFit [-9007199254740991, 18014398509481981] ∧
      (r.render rows).1.totals = some ["22", "9007199254740989"] ∧
      ([3, 8] : List Int).sum = 11 ∧ ([-9007199254740991, 18014398509481981] : List Int).sum = 9007199254740990 := by
  decide +kernel

end Renderer

end BugReport
