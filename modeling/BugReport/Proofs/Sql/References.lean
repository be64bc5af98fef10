import BugReport.Proofs.Text.Replaced
import BugReport.Sql.Piece
import Mathlib.Data.List.Induction

/-! # References to tables in a text

A table is referred to where its name stands, as a whole name, behind a word or sign that a table can follow.
This is said of any text, whatever wrote it. Writing a prefix in front of each reference is undone by
taking all occurrences of the prefix away, as long as the text does not hold what the prefix starts with.
-/

namespace BugReport.Sql

def Table.all : List Table :=
  [.attachments, .bugs, .bugsActivity, .bugsAliases, .cc, .components, .dependencies, .fielddefs, .flags,
    .flagtypes, .keyworddefs, .keywords, .longdescs, .products, .profiles]

theorem Table.mem_all (t : Table) : t ∈ Table.all := by
  cases t <;> decide

/-- What stands in front of tables: the words of a source and of a join, and the sign of a cross join. -/
def tableMarks : List String :=
  ["FROM ", "JOIN ", ", "]

/-- The characters of names, also of qualified ones. -/
def isNameChar (c : Char) : Bool :=
  c.isAlphanum || c == '_' || c == '.'

def endsWithMark (front : List Char) : Bool :=
  tableMarks.any fun mark => mark.toList.isSuffixOf front

/-- Whether a text starts with the name of a table and with no longer name. -/
def startsWithTable (back : List Char) : Bool :=
  Table.all.any fun t => t.name.toList.isPrefixOf back &&
    (back.drop t.name.toList.length).head?.all fun c => ! isNameChar c

/-- Whether a table is referred to by its bare name between a text and the text behind it. -/
def isReference (front back : List Char) : Bool :=
  endsWithMark front && startsWithTable back

/-- Writes a prefix in front of every reference, in the text behind a given one. -/
def prefixFrom (pre : List Char) : List Char → List Char → List Char
  | _, [] => []
  | front, c :: cs =>
    (if isReference front (c :: cs) then pre else []) ++ c :: prefixFrom pre (front ++ [c]) cs

/-- Writes a prefix in front of every reference to a table. -/
def prefixReferences (pre s : String) : String :=
  String.ofList (prefixFrom pre.toList [] s.toList)

example : prefixReferences "bz." "SELECT cc.who FROM bugs AS bugs, cc" =
    "SELECT cc.who FROM bz.bugs AS bugs, bz.cc" := by
  decide

/-! ## Prefixes come and go -/

section

variable {pre front a rest : List Char}

/-- Without a reference in it a part of a text stays as it is. -/
theorem prefixFrom_append (h : ∀ u v, a = u ++ v → v ≠ [] → isReference (front ++ u) (v ++ rest) = false) :
    prefixFrom pre front (a ++ rest) = a ++ prefixFrom pre (front ++ a) rest := by
  induction a generalizing front with
  | nil => rw [List.nil_append, List.nil_append, List.append_nil]
  | cons c a ih =>
      have hfirst : isReference front (c :: (a ++ rest)) = false := by
        simpa using h [] (c :: a) rfl (List.cons_ne_nil c a)
      have hquiet (u v : List Char) (hsplit : a = u ++ v) (hv : v ≠ []) :
          isReference (front ++ [c] ++ u) (v ++ rest) = false := by
        simpa using h (c :: u) v (by rw [hsplit, List.cons_append]) hv
      have hrest := ih hquiet
      rw [List.cons_append, prefixFrom, hfirst, hrest, List.append_assoc, List.singleton_append]
      rfl

/-- A text is cut by its references into parts, between which the prefix is written. -/
theorem exists_parts_prefixFrom (pre front rest : List Char) :
    ∃ parts, parts ≠ [] ∧ parts.flatten = rest ∧ prefixFrom pre front rest = pre.intercalate parts := by
  induction rest generalizing front with
  | nil => exact ⟨[[]], List.cons_ne_nil _ _, rfl, rfl⟩
  | cons c rest ih =>
      obtain ⟨parts, hne, hflatten, hparts⟩ := ih (front ++ [c])
      obtain ⟨part, parts, rfl⟩ := List.exists_cons_of_ne_nil hne
      have hcons : pre.intercalate ((c :: part) :: parts) = c :: pre.intercalate (part :: parts) := by
        cases parts with
        | nil => simp
        | cons next parts => simp [List.intercalate_cons_cons]
      rw [prefixFrom, hparts]
      split
      · refine ⟨[] :: (c :: part) :: parts, List.cons_ne_nil _ _, by simpa using hflatten, ?_⟩
        rw [List.intercalate_cons_cons, hcons, List.nil_append]
      · exact ⟨(c :: part) :: parts, List.cons_ne_nil _ _, by simpa using hflatten, by rw [hcons]; rfl⟩

theorem length_le_prefixFrom (pre front rest : List Char) :
    rest.length ≤ (prefixFrom pre front rest).length := by
  induction rest generalizing front with
  | nil => exact Nat.zero_le _
  | cons c rest ih =>
      have hrest := ih (front ++ [c])
      rw [prefixFrom, List.length_append, List.length_cons, List.length_cons]
      omega

/-- A prefix that changes nothing at a place is not written there. -/
theorem isReference_of_prefixFrom_cons (hpre : pre ≠ []) {c : Char} {cs : List Char}
    (h : prefixFrom pre front (c :: cs) = c :: cs) :
    isReference front (c :: cs) = false ∧ prefixFrom pre (front ++ [c]) cs = cs := by
  rw [prefixFrom] at h
  split at h
  · have hlength := congrArg List.length h
    have hrest := length_le_prefixFrom pre (front ++ [c]) cs
    have hpre := List.length_pos_iff.mpr hpre
    simp only [List.length_append, List.length_cons] at hlength
    omega
  · next href => exact ⟨by simpa using href, (List.cons.inj h).2⟩

/-- A text that no prefix is written into has no reference. -/
theorem isReference_of_prefixFrom_eq (hpre : pre ≠ []) {back : List Char}
    (h : prefixFrom pre front (a ++ back) = a ++ back) (hback : back ≠ []) :
    isReference (front ++ a) back = false := by
  induction a generalizing front with
  | nil =>
      obtain ⟨c, cs, rfl⟩ := List.exists_cons_of_ne_nil hback
      rw [List.append_nil]
      exact (isReference_of_prefixFrom_cons hpre h).1
  | cons c a ih =>
      have hrest := ih (isReference_of_prefixFrom_cons hpre h).2
      rwa [List.append_assoc, List.singleton_append] at hrest

end

/-- A name with a point behind it occurs at the end of a part only if the name occurs in the part. -/
theorem clearOf_name {name part : List Char} (hname : '.' ∉ name) (habsent : ¬ name <:+: part) :
    Text.ClearOf (name ++ ['.']) part := by
  rintro ⟨before, after, hfound⟩
  rw [List.dropLast_concat] at hfound
  rcases List.append_eq_append_iff.mp hfound with ⟨more, hpart, -⟩ | ⟨more, hbefore, hrest⟩
  · refine habsent ⟨before, '.' :: more, ?_⟩
    rw [hpart]
    simp
  · cases more using List.reverseRecOn with
    | nil => exact habsent ⟨before, ['.'], by simpa using hbefore⟩
    | append_singleton more last =>
        -- The point would belong to the name.
        have hlast : '.' = last := by
          have hend := congrArg List.getLast? hbefore
          simpa using hend
        exact hname (by rw [hrest, ← hlast]; simp)

/-- A prefix that ends in a point is taken away again. -/
theorem replaced_prefixReferences {name s : String} (hname : '.' ∉ name.toList)
    (habsent : ¬ name.toList <:+: s.toList) :
    Text.replaced (name ++ ".") "" (prefixReferences (name ++ ".") s) = s := by
  have hpoint : (name ++ ".").toList = name.toList ++ ['.'] := String.toList_append
  obtain ⟨parts, hne, hflatten, hparts⟩ := exists_parts_prefixFrom (name ++ ".").toList [] s.toList
  have hclear : ∀ part ∈ parts, Text.ClearOf (name ++ ".").toList part := by
    intro part hpart
    have hinfix : part <:+: s.toList := hflatten ▸ List.infix_of_mem_flatten hpart
    rw [hpoint]
    exact clearOf_name hname fun hfound => habsent (hfound.trans hinfix)
  apply String.toList_injective
  rw [Text.toList_replaced (by rw [hpoint]; simp) hne hclear (by rw [prefixReferences, String.toList_ofList, hparts])]
  exact (Text.nil_intercalate parts).trans hflatten

end BugReport.Sql
