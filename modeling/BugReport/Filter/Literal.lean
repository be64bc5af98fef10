import BugReport.Diagnostic
import BugReport.Parameter.Policy
import BugReport.Text.Percent
import BugReport.Text.Split

/-!
# Literals of filter values

The texts that filters compare with are percent-encoded and write blanks as plus signs. A decoded text
is bound to the statement only if all its characters are in the safe class; otherwise a fixed word
takes its place.
-/

namespace BugReport.Filter

open Text (isBlank)

/-- The word that takes the place of a literal which cannot be used. -/
def invalidValue : String := "INVALID_FIELD_VALUE"

/-- Whether a character may stand in a bound literal. -/
def isSafeChar (c : Char) : Bool :=
  isWordChar c || isBlank c || [',', '@', '.', '*', '/', '%', '!', '(', ')', '+', '-'].contains c

/-- The pattern by which messages quote the safe class. -/
def safePattern : String := "^[A-Za-z0-9_,@.\\s*/%!()+-]*$"

/-- Whether a text may be bound. -/
def isSafe (s : String) : Bool :=
  s.toList.all isSafeChar

/-- Decodes a literal, or says why it cannot be used. -/
def decode? (raw : String) : Except Diagnostic String :=
  match Text.percentDecode? (Text.substitute '+' " " raw) with
  | none => .error (.invalidEncoding raw)
  | some decoded => if isSafe decoded then .ok decoded else .error (.unsafeLiteral decoded safePattern)

/-- The text to bind for a literal, with the diagnostic if it is not the decoded one. -/
def decode (raw : String) : String × List Diagnostic :=
  match decode? raw with
  | .ok decoded => (decoded, [])
  | .error d => (invalidValue, [d])

end BugReport.Filter
