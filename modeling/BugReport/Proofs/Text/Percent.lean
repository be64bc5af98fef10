import BugReport.Text.Percent
import Mathlib.Data.List.Basic

/-! # Texts without percent signs

A byte with the value of a percent sign stands for that sign and for nothing else, also between the bytes of
other characters. So a text without percent signs decodes to itself.
-/

namespace BugReport.Text

/-! ## The bytes of a text -/

theorem toList_loop (bytes : ByteArray) (i : Nat) (before : List UInt8) :
    ByteArray.toList.loop bytes i before = before.reverse ++ bytes.data.toList.drop i := by
  rw [ByteArray.toList.loop]
  split
  next hi =>
      have hsize : i < bytes.data.toList.length := hi
      have hget : bytes.get! i = bytes.data.toList[i] := getElem!_pos bytes.data i hi
      rw [toList_loop bytes (i + 1), List.drop_eq_getElem_cons hsize, hget]
      simp
  next hi =>
      have hsize : bytes.data.toList.length ≤ i := Nat.le_of_not_lt hi
      rw [List.drop_eq_nil_of_le hsize, List.append_nil]
termination_by bytes.size - i

theorem toList_eq_data (bytes : ByteArray) : bytes.toList = bytes.data.toList := by
  rw [ByteArray.toList, toList_loop]
  rfl

theorem toByteArray_toList (bytes : ByteArray) : bytes.toList.toByteArray = bytes := by
  apply ByteArray.ext
  rw [List.data_toByteArray, toList_eq_data]

/-- The bytes of characters. -/
def utf8 (cs : List Char) : List UInt8 :=
  cs.flatMap String.utf8EncodeChar

theorem toList_toUTF8 (s : String) : s.toUTF8.toList = utf8 s.toList := by
  have hencoded : s.toUTF8 = s.toList.utf8Encode := (String.utf8Encode_toList).symm
  rw [hencoded, toList_eq_data, List.utf8Encode, List.toList_data_toByteArray, utf8]

theorem toList_toByteArray (bytes : List UInt8) : bytes.toByteArray.toList = bytes := by
  rw [toList_eq_data, List.toList_data_toByteArray]

theorem fromUTF8?_eq_some_iff {bytes : ByteArray} {s : String} :
    String.fromUTF8? bytes = some s ↔ bytes = s.toUTF8 := by
  rw [String.fromUTF8?]
  constructor
  · intro h
    split at h
    · cases h
      rfl
    · cases h
  · rintro rfl
    have hvalid : s.toUTF8.IsValidUTF8 := s.isValidUTF8
    simp only [hvalid, ↓reduceDIte]
    rfl

/-! ## Percent signs -/

/-- Bytes without percent signs stay as they are. -/
theorem percentDecodeBytes_of_not_mem {bytes : List UInt8} (h : 37 ∉ bytes) :
    percentDecodeBytes bytes = bytes := by
  induction bytes with
  | nil => rw [percentDecodeBytes]
  | cons b bytes ih =>
      have hb : b ≠ 37 := fun heq => h (heq ▸ List.mem_cons_self)
      rw [percentDecodeBytes, ih fun hmem => h (List.mem_cons_of_mem b hmem)]
      rintro high low rest rfl
      exact absurd rfl hb

/-- The bytes of longer characters are above the range of ASCII. -/
theorem percent_ne_ofNat (n k low : Nat) (hk : 0 < k) (hlow : 128 ≤ low) (hsum : low + k ≤ 256) :
    (37 : UInt8) ≠ UInt8.ofNat (n % k + low) := by
  intro heq
  have hrest := Nat.mod_lt n hk
  have hnat : 37 = (n % k + low) % 256 := congrArg UInt8.toNat heq
  omega

/-- Only the percent sign is written with a byte of its value. -/
theorem eq_percent_of_mem {c : Char} (h : 37 ∈ String.utf8EncodeChar c) : c = '%' := by
  have hlead (n k low : Nat) (hk : 0 < k) (hlow : 128 ≤ low) (hsum : low + k ≤ 256) :
      37 = UInt8.ofNat (n % k + low) → c = '%' :=
    fun heq => absurd heq (percent_ne_ofNat n k low hk hlow hsum)
  have hrest (n : Nat) : 37 = UInt8.ofNat (n % 64 + 128) → c = '%' :=
    hlead n 64 128 (by decide) (by decide) (by decide)
  simp only [String.utf8EncodeChar] at h
  split at h
  · have hbyte : 37 = c.val.toNat % 256 := congrArg UInt8.toNat (List.mem_singleton.mp h)
    have hvalue : c.val.toNat = 37 := by omega
    exact Char.ext (UInt32.toNat_inj.mp hvalue)
  · split at h
    · rcases List.mem_pair.mp h with hfirst | hsecond
      · exact hlead _ 32 192 (by decide) (by decide) (by decide) hfirst
      · exact hrest _ hsecond
    · split at h
      · simp only [List.mem_cons, List.not_mem_nil, or_false] at h
        rcases h with hfirst | hsecond | hthird
        · exact hlead _ 16 224 (by decide) (by decide) (by decide) hfirst
        · exact hrest _ hsecond
        · exact hrest _ hthird
      · simp only [List.mem_cons, List.not_mem_nil, or_false] at h
        rcases h with hfirst | hsecond | hthird | hfourth
        · exact hlead _ 8 240 (by decide) (by decide) (by decide) hfirst
        · exact hrest _ hsecond
        · exact hrest _ hthird
        · exact hrest _ hfourth

theorem percentDecode?_of_not_mem {s : String} (h : '%' ∉ s.toList) :
    percentDecode? s = some s := by
  have hbytes : 37 ∉ s.toUTF8.toList := by
    rw [toList_toUTF8, utf8, List.mem_flatMap]
    rintro ⟨c, hc, hmem⟩
    exact h (eq_percent_of_mem hmem ▸ hc)
  rw [percentDecode?, percentDecodeBytes_of_not_mem hbytes, toByteArray_toList, fromUTF8?_eq_some_iff]

end BugReport.Text
