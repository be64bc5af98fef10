import BugReport.Proofs.Filter.Clean
import BugReport.Proofs.Text.PercentEncoding

/-! # Literals and the texts they stand for

The escapes of a literal are read after its plus signs have become blanks, so a plus sign is itself written as an
escape. Every safe text can be written as a literal and is decoded back. A literal is refused exactly if it stands for
no text, or for one with a character outside the safe class.
-/

namespace BugReport.Filter

open Text (hexDigits percentEncoded)

variable {raw text : String}

/-- Whether a literal stands for a text: with blanks for its plus signs, its escapes are those of the text's bytes. -/
def StandsFor (raw text : String) : Prop :=
  Text.Unescapes (Text.utf8 (Text.spaced raw.toList)) (Text.utf8 text.toList)

/-- Whether a literal cannot be bound: its bytes are no text, or a text that leaves the safe class. -/
def Unusable (raw : String) : Prop :=
  (¬ ∃ text, StandsFor raw text) ∨ ∃ text, StandsFor raw text ∧ ∃ c ∈ text.toList, isSafeChar c = false

theorem plainText?_eq_some_iff : plainText? raw = some text ↔ StandsFor raw text := by
  rw [plainText?, Text.percentDecode?_eq_some_iff, Text.toList_substitute_plus, StandsFor]

theorem StandsFor.unique {other : String} (h : StandsFor raw text) (hother : StandsFor raw other) : other = text := by
  rw [← plainText?_eq_some_iff] at h hother
  exact Option.some.inj (hother.symm.trans h)

theorem isSafe_eq_false_iff : isSafe text = false ↔ ∃ c ∈ text.toList, isSafeChar c = false := by
  rw [isSafe, List.all_eq_false]
  simp only [Bool.not_eq_true]

theorem decode_of_standsFor (h : StandsFor raw text) (hsafe : isSafe text = true) : decode raw = (text, []) :=
  decode_of_isSafe (plainText?_eq_some_iff.mpr h) hsafe

theorem standsFor_percentEncoded {digits : List Char} (hdigits : digits ∈ hexDigits) (plus : Bool) (s : String) :
    StandsFor (percentEncoded digits plus s) s :=
  .percentEncoded hdigits plus s

/-- Literals are refused exactly if they cannot be bound. -/
theorem refused_iff_unusable (raw : String) :
    (∃ d, decode raw = ("INVALID_FIELD_VALUE", [d]) ∧ d.kind = .validationRejected) ↔ Unusable raw := by
  constructor
  · rintro ⟨d, hd, -⟩
    by_cases htext : ∃ text, StandsFor raw text
    · obtain ⟨text, htext⟩ := htext
      refine .inr ⟨text, htext, ?_⟩
      rw [← isSafe_eq_false_iff, Bool.eq_false_iff]
      intro hsafe
      rw [decode_of_standsFor htext hsafe] at hd
      cases hd
    · exact .inl htext
  · intro hunusable
    apply decode_of_refused
    intro text htext
    rw [plainText?_eq_some_iff] at htext
    rcases hunusable with hnone | ⟨other, hother, hleaves⟩
    · exact absurd ⟨text, htext⟩ hnone
    · rw [isSafe_eq_false_iff, hother.unique htext]
      exact hleaves

/-- Decoding undoes encoding in the safe class, and what it yields is in that class: the text that a literal stands
for, or a fixed word with a diagnostic. -/
theorem decode_undoes_encoding :
    (∀ digits ∈ hexDigits, ∀ (plus : Bool) (s : String), isSafe s = true →
      decode (percentEncoded digits plus s) = (s, [])) ∧
    ∀ raw : String, isSafe (decode raw).1 = true ∧
      ((∃ d, decode raw = ("INVALID_FIELD_VALUE", [d]) ∧ d.kind = .validationRejected) ↔ Unusable raw) ∧
      (∀ text, StandsFor raw text → isSafe text = true → decode raw = (text, [])) :=
  ⟨fun _ hdigits plus s hsafe => decode_of_standsFor (standsFor_percentEncoded hdigits plus s) hsafe,
    fun raw => ⟨isSafe_decode raw, refused_iff_unusable raw, fun _ => decode_of_standsFor⟩⟩

/-- A plus sign, a wide blank and a blank are written and decoded, and a percent sign without digits stays. -/
theorem decode_undoes_encoding_of_blanks :
    isSafe "1+2\u3000x y" = true ∧ decode "%31%2B%32%E3%80%80%78+%79" = ("1+2\u3000x y", []) ∧
      StandsFor "5%+" "5% " ∧ isSafe "5% " = true ∧ decode "5%+" = ("5% ", []) := by
  have hsafe : isSafe "1+2\u3000x y" = true := by decide
  have hencoded : "%31%2B%32%E3%80%80%78+%79" =
      percentEncoded "0123456789ABCDEF".toList true "1+2\u3000x y" := by decide
  have hdigits : "0123456789ABCDEF".toList ∈ hexDigits := List.mem_cons_self
  have hpercent : StandsFor "5%+" "5% " := by
    apply Text.Unescapes.keep
    · rintro ⟨high, low, rest, heq, -⟩
      exact absurd (List.cons.inj heq).1 (by decide)
    · apply Text.Unescapes.keep
      · rintro ⟨high, low, rest, heq, -⟩
        cases heq
      · exact .blank .nil
  have hpercentSafe : isSafe "5% " = true := by decide
  refine ⟨hsafe, ?_, hpercent, hpercentSafe, (decode_undoes_encoding.2 "5%+").2.2 "5% " hpercent hpercentSafe⟩
  rw [hencoded]
  exact decode_undoes_encoding.1 _ hdigits true _ hsafe

end BugReport.Filter
