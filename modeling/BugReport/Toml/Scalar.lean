import BugReport.Calendar.Date
import BugReport.Number.Decimal
import BugReport.Text.Digits
import BugReport.Text.Split

/-!
# TOML scalars

Reading strings, numbers and moments of TOML 1.0. A reader takes a list of characters and answers with
what it read and the characters that are left, or with nothing if the text is malformed.
-/

namespace BugReport.Toml

open Text (digitsValue)

abbrev Reader (α : Type) := List Char → Option (α × List Char)

/-- A blank inside of a line. -/
def isSpace (c : Char) : Bool :=
  c == ' ' || c == '\t'

/-- A character that may stand in comments and strings: a tab, or no control character. -/
def isPrintable (c : Char) : Bool :=
  c == '\t' || (32 ≤ c.toNat && c.toNat != 127)

/-- Drops the blanks inside of a line. -/
def dropSpaces (cs : List Char) : List Char :=
  cs.dropWhile isSpace

/-- Takes the end of a line, if it comes next. -/
def newline? : List Char → Option (List Char)
  | '\n' :: cs => some cs
  | '\r' :: '\n' :: cs => some cs
  | _ => none

/-! ## Strings -/

/-- The character with a code in hexadecimal digits. -/
def ofCode? (ds : List Char) : Option Char :=
  let digit (c : Char) : Option Nat :=
    if c.isDigit then some (c.toNat - 48)
    else if 'a' ≤ c && c ≤ 'f' then some (c.toNat - 87)
    else if 'A' ≤ c && c ≤ 'F' then some (c.toNat - 55)
    else none
  let value := ds.foldlM (fun n c => (digit c).map (16 * n + ·)) 0
  value.bind fun n => if n.isValidChar then some (Char.ofNat n) else none

/-- Reads the rest of an escape after the backslash. -/
def escape? : Reader Char
  | 'b' :: cs => some ('\x08', cs)
  | 't' :: cs => some ('\t', cs)
  | 'n' :: cs => some ('\n', cs)
  | 'f' :: cs => some ('\x0c', cs)
  | 'r' :: cs => some ('\r', cs)
  | '"' :: cs => some ('"', cs)
  | '\\' :: cs => some ('\\', cs)
  | 'u' :: a :: b :: c :: d :: cs => (ofCode? [a, b, c, d]).map (·, cs)
  | 'U' :: a :: b :: c :: d :: e :: f :: g :: h :: cs =>
    (ofCode? [a, b, c, d, e, f, g, h]).map (·, cs)
  | _ => none

/-- The number of quotes at the start of a text. -/
def quotesAt (quote : Char) (cs : List Char) : Nat :=
  (cs.takeWhile (· == quote)).length

/-- Reads a string after its opening quote. Strings in double quotes have escapes, strings in single
quotes have none. The first argument bounds the length. -/
def lineString? (escapes : Bool) (quote : Char) : Nat → Reader (List Char)
  | 0, _ => none
  | _, [] => none
  | n + 1, c :: cs =>
    if c == quote then some ([], cs)
    else if escapes && c == '\\' then do
      let (e, cs) ← escape? cs
      let (s, cs) ← lineString? escapes quote n cs
      some (e :: s, cs)
    else if isPrintable c then do
      let (s, cs) ← lineString? escapes quote n cs
      some (c :: s, cs)
    else none

/-- Drops blanks and ends of lines. The first argument bounds the length. -/
def dropLines : Nat → List Char → List Char
  | 0, cs => cs
  | n + 1, cs =>
    match newline? cs with
    | some cs => dropLines n cs
    | none =>
      match cs with
      | c :: rest => if isSpace c then dropLines n rest else cs
      | [] => []

/-- Drops a line continuation after its backslash: blanks, the end of the line, and all blanks and
ends of lines after it. -/
def continuation? (cs : List Char) : Option (List Char) :=
  (newline? (dropSpaces cs)).map fun rest => dropLines rest.length rest

/-- Reads a string of several lines after its opening quotes. Up to two quotes may stand before the
closing ones. The first argument bounds the length. -/
def blockString? (escapes : Bool) (quote : Char) : Nat → Reader (List Char)
  | 0, _ => none
  | n + 1, cs =>
    let quotes := quotesAt quote cs
    if 3 ≤ quotes then
      let kept := min (quotes - 3) 2
      some (List.replicate kept quote, cs.drop (kept + 3))
    else match newline? cs with
      | some rest => do
        let (s, rest) ← blockString? escapes quote n rest
        some ('\n' :: s, rest)
      | none =>
        match cs with
        | [] => none
        | c :: rest =>
          if escapes && c == '\\' then
            match continuation? rest with
            | some rest => blockString? escapes quote n rest
            | none => do
              let (e, rest) ← escape? rest
              let (s, rest) ← blockString? escapes quote n rest
              some (e :: s, rest)
          else if isPrintable c then do
            let (s, rest) ← blockString? escapes quote n rest
            some (c :: s, rest)
          else none

/-- Reads a string of one line. -/
def quotedString? : Reader String
  | '"' :: cs => (lineString? true '"' (cs.length + 1) cs).map fun (s, cs) => (String.ofList s, cs)
  | '\'' :: cs => (lineString? false '\'' (cs.length + 1) cs).map fun (s, cs) => (String.ofList s, cs)
  | _ => none

/-- Reads a string. Of one that spans lines, an end of line right after the opening quotes is left
out. -/
def string? (cs : List Char) : Option (String × List Char) :=
  let block (quote : Char) (cs : List Char) :=
    let cs := (newline? cs).getD cs
    (blockString? (quote == '"') quote (cs.length + 1) cs).map fun (s, cs) => (String.ofList s, cs)
  match cs with
  | '"' :: '"' :: '"' :: cs => block '"' cs
  | '\'' :: '\'' :: '\'' :: cs => block '\'' cs
  | cs => quotedString? cs

/-! ## Numbers -/

/-- Takes a row of digits with single underscores between them. -/
def digitRow? (isDigit : Char → Bool) : Nat → Reader (List Char)
  | 0, _ => none
  | _, [] => none
  | n + 1, c :: cs =>
    if isDigit c then
      let next := match cs with
        | '_' :: d :: _ => if isDigit d then cs.drop 1 else cs
        | _ => cs
      match digitRow? isDigit n next with
      | some (ds, rest) => some (c :: ds, rest)
      | none => some ([c], cs)
    else none

/-- Takes a row of decimal digits. -/
def decimalRow? (cs : List Char) : Option (List Char × List Char) :=
  digitRow? Char.isDigit (cs.length + 1) cs

def takeSign : List Char → Bool × List Char
  | '-' :: cs => (true, cs)
  | '+' :: cs => (false, cs)
  | cs => (false, cs)

/-- Takes an unsigned decimal integer. Only zero itself starts with a zero. -/
def wholeRow? : Reader (List Char)
  | '0' :: cs => some (['0'], cs)
  | cs => decimalRow? cs

/-- Whether an integer fits 64 bits with a sign. -/
def fits (i : Int) : Bool :=
  -9223372036854775808 ≤ i && i ≤ 9223372036854775807

/-- Reads an integer in a base of two, eight or sixteen, after its mark. -/
def basedInteger? (base : Nat) (isDigit : Char → Bool) (cs : List Char) :
    Option (Int × List Char) := do
  let (ds, cs) ← digitRow? isDigit (cs.length + 1) cs
  let digit (c : Char) : Nat :=
    if c.isDigit then c.toNat - 48 else c.toLower.toNat - 87
  let n : Int := (ds.foldl (fun n c => base * n + digit c) 0 : Nat)
  if fits n then some (n, cs) else none

/-- Whether a character is a hexadecimal digit. -/
def isHexDigit (c : Char) : Bool :=
  c.isDigit || ('a' ≤ c && c ≤ 'f') || ('A' ≤ c && c ≤ 'F')

def integer? (cs : List Char) : Option (Int × List Char) :=
  match cs with
  | '0' :: 'x' :: cs => basedInteger? 16 isHexDigit cs
  | '0' :: 'o' :: cs => basedInteger? 8 (fun c => '0' ≤ c && c ≤ '7') cs
  | '0' :: 'b' :: cs => basedInteger? 2 (fun c => c == '0' || c == '1') cs
  | cs => do
    let (negative, cs) := takeSign cs
    let (ds, cs) ← wholeRow? cs
    let i := Binary64.signed negative (digitsValue ds)
    if fits i then some (i, cs) else none

/-- Reads an exponent, if one comes next. -/
def exponent? : Reader Int
  | c :: cs =>
    if c == 'e' || c == 'E' then do
      let (negative, cs) := takeSign cs
      let (ds, cs) ← decimalRow? cs
      some (Binary64.signed negative (digitsValue ds), cs)
    else none
  | [] => none

/-- Reads a number that is infinite or none at all, after its sign. -/
def specialFloat? (negative : Bool) : Reader Binary64
  | 'i' :: 'n' :: 'f' :: cs => some (.infinite negative, cs)
  | 'n' :: 'a' :: 'n' :: cs => some (.nan, cs)
  | _ => none

/-- Reads a number with a fraction or an exponent. One that rounds to positive infinity is
malformed. -/
def float? (cs : List Char) : Option (Binary64 × List Char) :=
  let (negative, cs) := takeSign cs
  let finite : Option (Binary64 × List Char) := do
    let (whole, rest) ← wholeRow? cs
    let (fraction, afterFraction) ← match rest with
      | '.' :: r => decimalRow? r
      | _ => some ([], rest)
    let (e, left) ← match exponent? afterFraction with
      | some x => some x
      | none => if fraction.isEmpty then none else some (0, afterFraction)
    let x := Binary64.ofDecimal negative (digitsValue (whole ++ fraction)) (e - fraction.length)
    if x == .infinite false then none else some (x, left)
  finite <|> specialFloat? negative cs

/-! ## Moments -/

/-- Takes a fixed count of digits whose value lies between bounds. -/
def fixedDigits? (count low high : Nat) (cs : List Char) : Option (Nat × List Char) :=
  let ds := cs.take count
  let n := digitsValue ds
  if ds.length == count && ds.all Char.isDigit && low ≤ n && n ≤ high then some (n, cs.drop count)
  else none

def date? (cs : List Char) : Option (List Char) := do
  let (year, cs) ← fixedDigits? 4 0 9999 cs
  let cs ← Text.takeChar? '-' cs
  let (month, cs) ← fixedDigits? 2 1 12 cs
  let cs ← Text.takeChar? '-' cs
  let (_, cs) ← fixedDigits? 2 1 (Calendar.daysInMonth year month) cs
  some cs

/-- Takes a time of day. -/
def time? (cs : List Char) : Option (List Char) := do
  let (_, cs) ← fixedDigits? 2 0 23 cs
  let cs ← Text.takeChar? ':' cs
  let (_, cs) ← fixedDigits? 2 0 59 cs
  let cs ← Text.takeChar? ':' cs
  let (_, cs) ← fixedDigits? 2 0 60 cs
  match cs with
  | '.' :: d :: rest => if d.isDigit then some (rest.dropWhile Char.isDigit) else some cs
  | _ => some cs

/-- Takes an offset from universal time, if one comes next. -/
def offset (cs : List Char) : List Char :=
  let hours (cs : List Char) : Option (List Char) := do
    let (_, cs) ← fixedDigits? 2 0 23 cs
    let cs ← Text.takeChar? ':' cs
    let (_, cs) ← fixedDigits? 2 0 59 cs
    some cs
  match cs with
  | 'Z' :: rest => rest
  | 'z' :: rest => rest
  | '+' :: rest => (hours rest).getD cs
  | '-' :: rest => (hours rest).getD cs
  | _ => cs

/-- Takes a date, a time, or a date with a time. -/
def moment? (cs : List Char) : Option (List Char) :=
  match date? cs with
  | some rest =>
    let after : Option (List Char) := match rest with
      | c :: r => if c == 'T' || c == 't' || c == ' ' then time? r else none
      | [] => none
    match after with
    | some r => some (offset r)
    | none => some rest
  | none => time? cs

end BugReport.Toml
