/-!
# Percent decoding

A percent sign followed by two hexadecimal digits stands for one byte; every other byte, and every
other percent sign, stands for itself. The decoded bytes are a text only if they are valid UTF-8.
-/

namespace BugReport.Text

/-- The value of a hexadecimal digit, in either case. -/
def hexValue? (b : UInt8) : Option UInt8 :=
  if 48 ≤ b && b ≤ 57 then some (b - 48)
  else if 65 ≤ b && b ≤ 70 then some (b - 55)
  else if 97 ≤ b && b ≤ 102 then some (b - 87)
  else none

/-- Replaces every `%XX` by the byte it stands for. -/
def percentDecodeBytes : List UInt8 → List UInt8
  | [] => []
  | 37 :: high :: low :: rest =>
    match hexValue? high, hexValue? low with
    | some h, some l => (16 * h + l) :: percentDecodeBytes rest
    | _, _ => 37 :: percentDecodeBytes (high :: low :: rest)
  | b :: rest => b :: percentDecodeBytes rest
termination_by bytes => bytes.length

/-- The text that a percent-encoded text stands for, if its bytes are valid UTF-8. -/
def percentDecode? (s : String) : Option String :=
  String.fromUTF8? (percentDecodeBytes s.toUTF8.toList).toByteArray

end BugReport.Text
