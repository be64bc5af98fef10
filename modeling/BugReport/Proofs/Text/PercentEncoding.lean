import BugReport.Proofs.Text.Percent
import BugReport.Text.Split

/-! # Percent encoding

Decoding takes the escapes of a text one after the other and keeps what begins none. So the bytes of a text are
decoded from the escapes of each of them, and a text is decoded exactly if the bytes behind its escapes are one.
-/

namespace BugReport.Text

variable {b high low h l : UInt8} {bytes decoded rest : List UInt8}

/-! ## Decoding -/

/-- Whether bytes start with an escape. -/
def StartsEscape (bytes : List UInt8) : Prop :=
  ∃ high low rest, bytes = 37 :: high :: low :: rest ∧ (hexValue? high).isSome ∧ (hexValue? low).isSome

/-- What escapes stand for: `%` and two hexadecimal digits for one byte, and anything else for itself. -/
inductive Unescapes : List UInt8 → List UInt8 → Prop where
  | nil : Unescapes [] []
  | escape {high low h l : UInt8} {rest decoded : List UInt8} (hhigh : hexValue? high = some h)
      (hlow : hexValue? low = some l) (hrest : Unescapes rest decoded) :
      Unescapes (37 :: high :: low :: rest) ((16 * h + l) :: decoded)
  | keep {b : UInt8} {rest decoded : List UInt8} (hb : ¬ StartsEscape (b :: rest)) (hrest : Unescapes rest decoded) :
      Unescapes (b :: rest) (b :: decoded)

theorem percentDecodeBytes_escape (hhigh : hexValue? high = some h) (hlow : hexValue? low = some l)
    (rest : List UInt8) :
    percentDecodeBytes (37 :: high :: low :: rest) = (16 * h + l) :: percentDecodeBytes rest := by
  rw [percentDecodeBytes, hhigh, hlow]

theorem percentDecodeBytes_keep (hb : ¬ StartsEscape (b :: rest)) :
    percentDecodeBytes (b :: rest) = b :: percentDecodeBytes rest := by
  rw [percentDecodeBytes.eq_def]
  split
  next heq => cases heq
  next high low rest heq =>
      obtain ⟨rfl, rfl⟩ := List.cons.inj heq
      split
      next hhigh hlow => exact absurd ⟨high, low, rest, rfl, by simp [hhigh], by simp [hlow]⟩ hb
      · rfl
  next heq =>
      obtain ⟨rfl, rfl⟩ := List.cons.inj heq
      rfl

theorem unescapes_percentDecodeBytes (bytes : List UInt8) : Unescapes bytes (percentDecodeBytes bytes) := by
  match bytes with
  | [] =>
      rw [percentDecodeBytes]
      exact .nil
  | b :: rest =>
      by_cases hb : StartsEscape (b :: rest)
      · obtain ⟨high, low, rest, heq, hhigh, hlow⟩ := hb
        obtain ⟨rfl, rfl⟩ := List.cons.inj heq
        obtain ⟨h, hhigh⟩ := Option.isSome_iff_exists.mp hhigh
        obtain ⟨l, hlow⟩ := Option.isSome_iff_exists.mp hlow
        rw [percentDecodeBytes_escape hhigh hlow]
        exact .escape hhigh hlow (unescapes_percentDecodeBytes rest)
      · rw [percentDecodeBytes_keep hb]
        exact .keep hb (unescapes_percentDecodeBytes rest)
termination_by bytes.length

/-- Decoding finds what the escapes stand for. -/
theorem unescapes_iff : Unescapes bytes decoded ↔ percentDecodeBytes bytes = decoded := by
  constructor
  · intro hdecoded
    induction hdecoded with
    | nil => rw [percentDecodeBytes]
    | escape hhigh hlow _ ih => rw [percentDecodeBytes_escape hhigh hlow, ih]
    | keep hb _ ih => rw [percentDecodeBytes_keep hb, ih]
  · rintro rfl
    exact unescapes_percentDecodeBytes bytes

/-- A text is decoded if the bytes that its escapes stand for are the bytes of a text. -/
theorem percentDecode?_eq_some_iff {s t : String} :
    percentDecode? s = some t ↔ Unescapes (utf8 s.toList) (utf8 t.toList) := by
  rw [unescapes_iff, ← toList_toUTF8, ← toList_toUTF8, percentDecode?, fromUTF8?_eq_some_iff]
  constructor
  · intro h
    rw [← h, toList_toByteArray]
  · intro h
    rw [h, toByteArray_toList]

/-! ## Encoding -/

/-- The digits of escapes in upper case and in lower case. -/
def hexDigits : List (List Char) :=
  ["0123456789ABCDEF".toList, "0123456789abcdef".toList]

/-- The escape of a byte. -/
def escaped (digits : List Char) (b : UInt8) : List Char :=
  ['%', digits.getD (b.toNat / 16) '0', digits.getD (b.toNat % 16) '0']

/-- Writes a text with an escape for every byte, or with plus signs for its blanks. -/
def percentEncoded (digits : List Char) (plus : Bool) (s : String) : String :=
  String.ofList (s.toList.flatMap fun c =>
    if plus && c == ' ' then ['+'] else (String.utf8EncodeChar c).flatMap (escaped digits))

/-- Reads plus signs as blanks. -/
def spaced (cs : List Char) : List Char :=
  cs.map fun c => if c = '+' then ' ' else c

theorem toList_substitute_plus (s : String) : (substitute '+' " " s).toList = spaced s.toList := by
  rw [substitute, String.toList_ofList, spaced, List.map_eq_flatMap]
  apply List.flatMap_congr
  intro c _
  by_cases hc : c = '+'
  · simp [hc]
  · simp [hc]

theorem spaced_append (front back : List Char) : spaced (front ++ back) = spaced front ++ spaced back :=
  List.map_append

theorem utf8_append (front back : List Char) : utf8 (front ++ back) = utf8 front ++ utf8 back :=
  List.flatMap_append

/-- A digit is written with one byte, of which its value is read. -/
theorem hexValue?_digit {digits : List Char} (hdigits : digits ∈ hexDigits) {n : Nat} (hn : n < 16) :
    (utf8 (spaced [digits.getD n '0'])).map hexValue? = [some (UInt8.ofNat n)] := by
  have hall : ∀ digits ∈ hexDigits, ∀ n < 16,
      (utf8 (spaced [digits.getD n '0'])).map hexValue? = [some (UInt8.ofNat n)] := by decide
  exact hall digits hdigits n hn

theorem sixteenths (b : UInt8) : 16 * UInt8.ofNat (b.toNat / 16) + UInt8.ofNat (b.toNat % 16) = b := by
  have hb := b.toNat_lt
  apply UInt8.toNat_inj.mp
  simp only [UInt8.toNat_add, UInt8.toNat_mul, UInt8.toNat_ofNat', UInt8.reduceToNat]
  omega

namespace Unescapes

/-- An escape stands for its byte. -/
theorem escaped {digits : List Char} (hdigits : digits ∈ hexDigits) (b : UInt8) (hrest : Unescapes rest decoded) :
    Unescapes (utf8 (spaced (escaped digits b)) ++ rest) (b :: decoded) := by
  have hb := b.toNat_lt
  obtain ⟨high, hhigh, hhighValue⟩ :=
    List.map_eq_singleton_iff.mp (hexValue?_digit hdigits (n := b.toNat / 16) (by omega))
  obtain ⟨low, hlow, hlowValue⟩ :=
    List.map_eq_singleton_iff.mp (hexValue?_digit hdigits (n := b.toNat % 16) (by omega))
  have hbytes : utf8 (spaced (Text.escaped digits b)) = [37, high, low] := by
    have hparts : Text.escaped digits b =
        ['%'] ++ [digits.getD (b.toNat / 16) '0'] ++ [digits.getD (b.toNat % 16) '0'] := rfl
    rw [hparts, spaced_append, spaced_append, utf8_append, utf8_append, hhigh, hlow]
    rfl
  rw [hbytes, ← sixteenths b]
  exact escape hhighValue hlowValue hrest

theorem escaped_flatMap {digits : List Char} (hdigits : digits ∈ hexDigits) (hrest : Unescapes rest decoded)
    (bytes : List UInt8) :
    Unescapes (utf8 (spaced (bytes.flatMap (Text.escaped digits))) ++ rest) (bytes ++ decoded) := by
  induction bytes with
  | nil => exact hrest
  | cons b bytes ih =>
      rw [List.flatMap_cons, spaced_append, utf8_append, List.append_assoc]
      exact escaped hdigits b ih

theorem blank (hrest : Unescapes rest decoded) : Unescapes (32 :: rest) (32 :: decoded) := by
  apply keep _ hrest
  rintro ⟨high, low, rest, heq, -⟩
  exact absurd (List.cons.inj heq).1 (by decide)

/-- What is encoded stands for the bytes of the text. -/
theorem percentEncoded {digits : List Char} (hdigits : digits ∈ hexDigits) (plus : Bool) (s : String) :
    Unescapes (utf8 (spaced (percentEncoded digits plus s).toList)) (utf8 s.toList) := by
  rw [Text.percentEncoded, String.toList_ofList]
  induction s.toList with
  | nil => exact nil
  | cons c cs ih =>
      rw [List.flatMap_cons, spaced_append, utf8_append]
      split
      next hplus =>
          obtain rfl : c = ' ' := eq_of_beq (Bool.and_eq_true_iff.mp hplus).2
          exact blank ih
      · exact escaped_flatMap hdigits ih (String.utf8EncodeChar c)

end Unescapes

end BugReport.Text
