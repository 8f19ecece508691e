/-
# DesignTokens.Number.Binary64 -- double-precision values, exactly

A `Binary64` is a finite value `± mantissa · 2 ^ exponent`, an infinity, or not a number.  Every
finite value the operations build is in one form: the mantissa has 53 bits, or fewer with the
least exponent -1074, so two finite values other than the zeros are equal just when they are the
same triple.

Nothing here rounds twice.  A value is built from an exact quotient by one rounding to nearest,
ties to even (`ofRatio`), and is compared with an integer, tested for being one and rounded to
decimal places in exact arithmetic on mantissa and exponent.
-/

namespace DesignTokens

set_option autoImplicit false

inductive Binary64 where
  | finite (negative : Bool) (mantissa : Nat) (exponent : Int)
  | infinite (negative : Bool)
  | nan
  deriving DecidableEq, Repr

namespace Binary64

/-- The quotient as an integer, to nearest; a tie goes to the even neighbour. -/
def roundDiv (num den : Nat) : Nat :=
  let q := num / den
  let r := num % den
  if 2 * r < den then q
  else if den < 2 * r then q + 1
  else if q % 2 = 0 then q else q + 1

def minExponent : Int := -1074

def maxExponent : Int := 971

/-- The power of two with an exponent that is not negative; 1 for any other. -/
def twoTo (exp : Int) : Nat :=
  Nat.pow 2 exp.toNat

/-- The power of ten with an exponent that is not negative; 1 for any other. -/
def tenTo (exp : Int) : Nat :=
  Nat.pow 10 exp.toNat

def zero (negative : Bool) : Binary64 :=
  .finite negative 0 minExponent

/-- The exponent at which the quotient `num / den` has 53 bits, or the least exponent. -/
def exponentOf (num den : Nat) : Int :=
  let guess := (num.log2 : Int) - den.log2 - 52
  let low := num * twoTo (-guess) < den * twoTo guess * twoTo 52
  max minExponent (if low then guess - 1 else guess)

def pack (negative : Bool) (mantissa : Nat) (exponent : Int) : Binary64 :=
  if maxExponent < exponent then .infinite negative else .finite negative mantissa exponent

/-- The value nearest to `num / den`; a quotient beyond the largest finite value is infinite. -/
def ofRatio (negative : Bool) (num den : Nat) : Binary64 :=
  if num = 0 then zero negative
  else
    let e := exponentOf num den
    let m := roundDiv (num * twoTo (-e)) (den * twoTo e)
    if m = twoTo 53 then pack negative (twoTo 52) (e + 1) else pack negative m e

/-- The value nearest to `digits · 10 ^ exp`.  Powers of ten so large or so small that the result
cannot be finite or cannot be other than zero are not computed. -/
def ofDecimal (negative : Bool) (digits : Nat) (exp : Int) : Binary64 :=
  if digits = 0 then zero negative
  else if 400 < exp then .infinite negative
  else if exp + digits.log2 < -400 then zero negative
  else ofRatio negative (digits * tenTo exp) (tenTo (-exp))

/-- The value nearest to an integer, unless the integer lies beyond every finite value. -/
def ofInt? (n : Int) : Option Binary64 :=
  match ofRatio (n < 0) n.natAbs 1 with
  | .infinite _ => none
  | x => some x

def signed (negative : Bool) (n : Nat) : Int :=
  if negative then -n else n

/-- The value as an integer, if it is a whole number. -/
def toInt? : Binary64 → Option Int
  | .finite negative m e =>
      if 0 ≤ e then some (signed negative (m * twoTo e))
      else if m % twoTo (-e) = 0 then some (signed negative (m / twoTo (-e)))
      else none
  | _ => none

/-- The place of the value relative to an integer; a value that is not a number has none. -/
def compareInt? : Binary64 → Int → Option Ordering
  | .finite negative m e, n =>
      some (compare (signed negative (m * twoTo e)) (n * twoTo (-e)))
  | .infinite negative, _ => some (if negative then .lt else .gt)
  | .nan, _ => none

def between (low high : Int) (x : Binary64) : Bool :=
  (x.compareInt? low == some .gt || x.compareInt? low == some .eq) &&
    (x.compareInt? high == some .lt || x.compareInt? high == some .eq)

def isZero : Binary64 → Bool
  | .finite _ 0 _ => true
  | _ => false

/-- Equality of values: the two zeros are equal, and what is not a number equals nothing. -/
def same (x y : Binary64) : Bool :=
  match x, y with
  | .nan, _ => false
  | x, y => x == y || (x.isZero && y.isZero)

/-- The value at the given number of decimal places that is nearest, ties to even, read back as a
double.  Infinities and what is not a number stay. -/
def roundPlaces (places : Nat) : Binary64 → Binary64
  | .finite negative m e =>
      ofDecimal negative (roundDiv (m * twoTo e * tenTo places) (twoTo (-e))) (-places)
  | x => x

example : ofInt? 9007199254740993 = ofInt? 9007199254740992 := by decide +kernel
example : ofDecimal false 17976931348623159 292 = .infinite false := by decide +kernel

end Binary64

end DesignTokens
