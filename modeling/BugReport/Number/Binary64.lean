/-!
# Binary floating point

The numbers of the IEEE 754 binary64 format, held as a sign, a mantissa and a binary exponent, and
the operations on them that reports need: rounding a quotient, adding, scaling by ten, rounding to an
integer. Every operation computes its exact result first and rounds it once, to the nearest number
with ties to an even mantissa.
-/

namespace BugReport

/-- A binary64 number. A finite one is `± mantissa * 2 ^ exponent`; the operations of this file keep
the mantissa below `2 ^ 53`, the exponent between `-1074` and `971`, and the mantissa at least
`2 ^ 52` unless the exponent is `-1074`, so that each number has one form. -/
inductive Binary64 where
  | nan
  | infinite (negative : Bool)
  | finite (negative : Bool) (mantissa : Nat) (exponent : Int)
  deriving DecidableEq, Repr, Inhabited

namespace Binary64

/-- The least exponent of a number. -/
def minExponent : Int := -1074

/-- The greatest exponent of a number. -/
def maxExponent : Int := 971

/-- The positive zero. -/
def zero : Binary64 := .finite false 0 minExponent

def twoPow (n : Nat) : Nat := Nat.pow 2 n

def tenPow (n : Nat) : Nat := Nat.pow 10 n

/-- Where a half goes that lies in the middle between two integers. -/
inductive Tie where
  /-- To the even neighbour. -/
  | even
  /-- To the greater neighbour. -/
  | up
  deriving DecidableEq, Repr

/-- Whether a half above an integer goes up. -/
def Tie.goesUp (tie : Tie) (n : Nat) : Bool :=
  match tie with
  | .even => n % 2 == 1
  | .up => true

def divNearest (tie : Tie) (num den : Nat) : Nat :=
  let q := num / den
  let r := num % den
  if 2 * r > den || (2 * r == den && tie.goesUp q) then q + 1 else q

/-- The exponent at which `num / den`, not zero, has a mantissa of 53 binary digits. -/
def normalExponent (num den : Nat) : Int :=
  let e : Int := (Nat.log2 num : Int) - Nat.log2 den
  let reached := if 0 ≤ e then den * twoPow e.toNat ≤ num else den ≤ num * twoPow (-e).toNat
  if reached then e - 52 else e - 53

/-- The number nearest to `± num / den`, where `den` is not zero. -/
def ofRatio (negative : Bool) (num den : Nat) : Binary64 :=
  if num == 0 then .finite negative 0 minExponent
  else
    let e := max (normalExponent num den) minExponent
    let m := divNearest .even (num * twoPow (-e).toNat) (den * twoPow e.toNat)
    let (m, e) := if m == twoPow 53 then (twoPow 52, e + 1) else (m, e)
    if e > maxExponent then .infinite negative else .finite negative m e

/-- Whether a number is a zero, of either sign. -/
def isZero : Binary64 → Bool
  | .finite _ m _ => m == 0
  | _ => false

/-- The absolute value of `m * 2 ^ e` as a quotient of integers. -/
def ratio (m : Nat) (e : Int) : Nat × Nat :=
  (m * twoPow e.toNat, twoPow (-e).toNat)

def signed (negative : Bool) (m : Nat) : Int :=
  if negative then -(m : Int) else m

/-- The rounded sum. -/
def add : Binary64 → Binary64 → Binary64
  | .nan, _ => .nan
  | _, .nan => .nan
  | .infinite a, .infinite b => if a == b then .infinite a else .nan
  | .infinite a, .finite .. => .infinite a
  | .finite .., .infinite b => .infinite b
  | .finite a m e, .finite b n f =>
    let g := min e f
    let sum := signed a (m * twoPow (e - g).toNat) + signed b (n * twoPow (f - g).toNat)
    if sum == 0 then .finite (a && b) 0 minExponent
    else
      let (num, den) := ratio sum.natAbs g
      ofRatio (sum < 0) num den

/-- Whether a number is finite and has no fraction. -/
def isIntegral : Binary64 → Bool
  | .finite _ m e => m % twoPow (-e).toNat == 0
  | _ => false

/-- The rounded product with ten. -/
def timesTen : Binary64 → Binary64
  | .finite a m e => let (num, den) := ratio m e; ofRatio a (10 * num) den
  | x => x

/-- The rounded quotient by ten. -/
def overTen : Binary64 → Binary64
  | .finite a m e => let (num, den) := ratio m e; ofRatio a num (10 * den)
  | x => x

/-- The nearest integer, a half going away from zero. -/
def roundHalfAway : Binary64 → Binary64
  | .finite a m e => let (num, den) := ratio m e; ofRatio a ((2 * num + den) / (2 * den)) 1
  | x => x

end Binary64

end BugReport
