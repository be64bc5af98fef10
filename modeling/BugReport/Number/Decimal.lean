import BugReport.Number.Binary64
import BugReport.Text.Digits

/-!
# Decimal text of binary floating point

Reading decimal text as the nearest number, and writing numbers in three layouts: with the fewest
digits that read back and no exponent, with the fewest digits in the layout of JSON, and with a fixed
count of decimal places.
-/

namespace BugReport.Binary64

open Text (digitsValue)

/-! ## Reading -/

/-- The number nearest to `± digits * 10 ^ scale`. Scales far outside the range of the format are
answered without building the power. -/
def ofDecimal (negative : Bool) (digits : Nat) (scale : Int) : Binary64 :=
  let size : Int := (Nat.toDigits 10 digits).length + scale
  if digits == 0 || size < -400 then .finite negative 0 minExponent
  else if size > 400 then .infinite negative
  else ofRatio negative (digits * tenPow scale.toNat) (tenPow (-scale).toNat)

/-- Reads the exponent part of a decimal: nothing, or `e` with a signed row of digits. -/
def readExponent? : List Char → Option Int
  | [] => some 0
  | e :: cs =>
    if e == 'e' || e == 'E' then
      let (negative, ds) := match cs with
        | '-' :: ds => (true, ds)
        | '+' :: ds => (false, ds)
        | ds => (false, ds)
      if ds.isEmpty || ! ds.all Char.isDigit then none
      else some (signed negative (digitsValue ds))
    else none

/-- Reads a decimal without its sign: digits, at most one point, and an exponent. At least one digit
stands before the exponent. -/
def readUnsigned? (negative : Bool) (cs : List Char) : Option Binary64 :=
  let whole := cs.takeWhile Char.isDigit
  let rest := cs.dropWhile Char.isDigit
  let (fraction, rest) := match rest with
    | '.' :: r => (r.takeWhile Char.isDigit, r.dropWhile Char.isDigit)
    | r => ([], r)
  if whole.isEmpty && fraction.isEmpty then none
  else (readExponent? rest).map fun e =>
    ofDecimal negative (digitsValue (whole ++ fraction)) (e - fraction.length)

/-- Reads a decimal: an optional sign before digits, or before `inf`, `infinity` or `nan` in either
case. The whole text has to be the number. -/
def read? (s : String) : Option Binary64 :=
  let (negative, cs) := match s.toList with
    | '-' :: cs => (true, cs)
    | '+' :: cs => (false, cs)
    | cs => (false, cs)
  let word := String.ofList (cs.map Char.toLower)
  if word == "inf" || word == "infinity" then some (.infinite negative)
  else if word == "nan" then some .nan
  else readUnsigned? negative cs

/-! ## Fewest digits -/

/-- The half-open question behind the fewest digits: whether the positive decimal `d * 10 ^ k` is
read back as the number with mantissa `m` and exponent `e`. The numbers that read back form an
interval around `m * 2 ^ e` that holds its ends exactly when the mantissa is even; below a power of
two it is half as wide. -/
def readsBack (m : Nat) (e : Int) (d : Nat) (k : Int) : Bool :=
  -- all in quarters of the unit `2 ^ e`, over a common denominator
  let low := if m == twoPow 52 && e > minExponent then 4 * m - 1 else 4 * m - 2
  let high := 4 * m + 2
  let scale (n : Nat) := n * twoPow e.toNat * tenPow (-k).toNat
  let x := 4 * d * tenPow k.toNat * twoPow (-e).toNat
  if m % 2 == 0 then scale low ≤ x && x ≤ scale high else scale low < x && x < scale high

/-- The better of the two decimals with step `10 ^ k` around `m * 2 ^ e` that read back, as a
multiple of the step: the nearer one, or if they are equally near, the one that a half goes to. -/
def nearestOnGrid? (tie : Tie) (m : Nat) (e : Int) (k : Int) : Option Nat :=
  let num := m * twoPow e.toNat * tenPow (-k).toNat
  let den := twoPow (-e).toNat * tenPow k.toNat
  let d := num / den
  match readsBack m e d k, readsBack m e (d + 1) k with
  | true, true => some (divNearest tie num den)
  | true, false => some d
  | false, true => some (d + 1)
  | false, false => none

/-- The first of the steps `10 ^ k`, `10 ^ (k - 1)`, ... with a decimal that reads back. -/
def firstOnGrids (tie : Tie) (m : Nat) (e : Int) : Nat → Int → Nat × Int
  | 0, k => (m * twoPow e.toNat, k)
  | n + 1, k =>
    match nearestOnGrid? tie m e k with
    | some d => if d == 0 then firstOnGrids tie m e n (k - 1) else (d, k)
    | none => firstOnGrids tie m e n (k - 1)

/-- Drops zeros from the end of a row of digits. -/
def dropZeros (ds : List Char) : List Char :=
  (ds.reverse.dropWhile (· == '0')).reverse

/-- The fewest digits that read back as `m * 2 ^ e`, not zero, and the power of ten of the place
after the last of them. Of several, these are the nearest; seventeen digits are always enough. -/
def shortest (tie : Tie) (m : Nat) (e : Int) : List Char × Int :=
  let (num, den) := ratio m e
  -- a power of ten that is certainly above the number
  let top : Int :=
    if den ≤ num then (Nat.toDigits 10 (num / den)).length else 1 - (Nat.toDigits 10 (den / num)).length + 1
  let (d, k) := firstOnGrids tie m e 20 top
  let ds := Nat.toDigits 10 d
  let kept := dropZeros ds
  (kept, k + (ds.length - kept.length : Nat))

/-! ## Layouts -/

def zeros (n : Nat) : List Char :=
  List.replicate n '0'

/-- Digits times a power of ten, written with a point only if it has to be and without exponent. -/
def positional (ds : List Char) (k : Int) : List Char :=
  let point := (ds.length : Int) + k
  if 0 ≤ k then ds ++ zeros k.toNat
  else if 0 < point then ds.take point.toNat ++ '.' :: ds.drop point.toNat
  else '0' :: '.' :: zeros (-point).toNat ++ ds

def signText (negative : Bool) : String :=
  if negative then "-" else ""

/-- The fewest digits that read back, never with an exponent and with a point only before a
fraction. Of two that are equally near, the one farther from zero is written. -/
def plainText : Binary64 → String
  | .nan => "NaN"
  | .infinite a => signText a ++ "inf"
  | .finite a m e =>
    if m == 0 then signText a ++ "0"
    else
      let (ds, k) := shortest .up m e
      signText a ++ String.ofList (positional ds k)

/-- The fewest digits that read back, in the layout of JSON: with a fraction, `.0` if need be, for
magnitudes from `1e-5` up to `1e16`, and with a signed exponent outside. Of two that are equally near,
the one with an even last digit is written. Numbers that are not finite have no such text. -/
def jsonText? : Binary64 → Option String
  | .nan => none
  | .infinite _ => none
  | .finite a m e =>
    if m == 0 then some (signText a ++ "0.0")
    else
      let (ds, k) := shortest .even m e
      let point := (ds.length : Int) + k
      let body :=
        if -5 < point && point ≤ 16 then
          if 0 ≤ k then positional ds k ++ ['.', '0'] else positional ds k
        else
          let exponent := point - 1
          let mantissa := match ds with
            | d :: c :: cs => d :: '.' :: c :: cs
            | ds => ds
          let sign := if exponent < 0 then '-' else '+'
          mantissa ++ 'e' :: sign :: Nat.toDigits 10 exponent.natAbs
      some (signText a ++ String.ofList body)

/-- The exact value rounded to a count of decimal places, a half going to the even digit. -/
def fixedText (places : Nat) : Binary64 → String
  | .nan => "NaN"
  | .infinite a => signText a ++ "inf"
  | .finite a m e =>
    let (num, den) := ratio m e
    let n := divNearest .even (num * tenPow places) den
    let whole := Nat.toDigits 10 (n / tenPow places)
    let fraction := Nat.toDigits 10 (n % tenPow places)
    let body :=
      if places == 0 then whole
      else whole ++ '.' :: zeros (places - fraction.length) ++ fraction
    signText a ++ String.ofList body

end BugReport.Binary64
