/-
# DesignTokens.Number.Shortest -- the fewest digits that identify a double

The reals that round to a finite value form an interval; its ends belong to it exactly when the
mantissa is even.  `shortest` looks for a decimal in that interval on ever finer grids: the first
grid that has one wins, and of two the nearer, with a tie going to the even digit.

`render` lays the digits out: positionally while the leading digit stands at 10^-4 to 10^15, with
`.0` after a whole number, and otherwise with a signed exponent of at least two digits.  The names
of the values that are no finite number depend on where the text appears (`SpecialNames`).
-/
import DesignTokens.Number.Binary64

namespace DesignTokens

set_option autoImplicit false

namespace Binary64

/-- A decimal `digits · 10 ^ exp`. -/
structure Decimal where
  digits : Nat
  exp : Int
  deriving DecidableEq, Repr

/-- Compares `a · 10 ^ i` with `n · 2 ^ j`. -/
def compareScaled (a : Nat) (i : Int) (n : Nat) (j : Int) : Ordering :=
  compare (a * tenTo i * twoTo (-j)) (n * twoTo j * tenTo (-i))

/-- Whether a decimal lies among the reals that round to `m · 2 ^ q`.  Below a power of two the
neighbour is half as far away as above it. -/
def readsBack (m : Nat) (q : Int) (d : Decimal) : Bool :=
  let low := if m = twoTo 52 ∧ minExponent < q then 4 * m - 1 else 4 * m - 2
  let even := m % 2 == 0
  let atLow := compareScaled d.digits d.exp low (q - 2)
  let atHigh := compareScaled d.digits d.exp (4 * m + 2) (q - 2)
  (atLow == .gt || (even && atLow == .eq)) && (atHigh == .lt || (even && atHigh == .eq))

/-- The least `k` with `m · 2 ^ q < 10 ^ k`, for `m ≠ 0`. -/
def decimalScale (m : Nat) (q : Int) : Int :=
  let start := ((m.log2 : Int) + q) * 1233 / 4096 - 1
  let below (k : Int) := compareScaled 1 k m q == .gt
  (([0, 1, 2, 3].map fun (i : Int) => start + i).find? below).getD (start + 4)

/-- The decimal on the grid `10 ^ exp` that reads back, if one of the value's two neighbours on
that grid does; of two the nearer. -/
def onGrid? (m : Nat) (q : Int) (exp : Int) : Option Decimal :=
  let num := m * twoTo q * tenTo (-exp)
  let den := twoTo (-q) * tenTo exp
  let low : Decimal := ⟨num / den, exp⟩
  let high : Decimal := ⟨num / den + 1, exp⟩
  match readsBack m q low, readsBack m q high with
  | true, true => some ⟨roundDiv num den, exp⟩
  | true, false => some low
  | false, true => some high
  | false, false => none

/-- The exact value as a decimal. -/
def exactDecimal (m : Nat) (q : Int) : Decimal :=
  if 0 ≤ q then ⟨m * twoTo q, 0⟩ else ⟨m * Nat.pow 5 (-q).toNat, q⟩

def Decimal.stripZeros : Nat → Decimal → Decimal
  | 0, d => d
  | fuel + 1, d =>
      if d.digits ≠ 0 ∧ d.digits % 10 = 0 then stripZeros fuel ⟨d.digits / 10, d.exp + 1⟩ else d

/-- The shortest decimal that reads back as `m · 2 ^ q`, for `m ≠ 0`, without trailing zeros.
Seventeen digits identify every double, so the exact value at the end is never reached. -/
def shortest (m : Nat) (q : Int) : Decimal :=
  let scale := decimalScale m q
  let found := (List.range 17).findSome? fun (n : Nat) => onGrid? m q (scale - (n + 1))
  (found.getD (exactDecimal m q)).stripZeros 20

/-- How the values that are no finite number are spelled. -/
structure SpecialNames where
  nan : String
  infinity : String

def zeros (n : Nat) : String :=
  String.ofList (List.replicate n '0')

/-- The digits laid out in positional notation, `point` places before the decimal point. -/
def positional (digits : String) (point : Int) : String :=
  if point ≤ 0 then "0." ++ zeros (-point).toNat ++ digits
  else if digits.length ≤ point.toNat then digits ++ zeros (point.toNat - digits.length) ++ ".0"
  else
    String.ofList (digits.toList.take point.toNat) ++ "." ++
      String.ofList (digits.toList.drop point.toNat)

def exponentText (e : Int) : String :=
  let digits := toString e.natAbs
  (if e < 0 then "e-" else "e+") ++ (if digits.length < 2 then "0" ++ digits else digits)

def scientific (digits : String) (e : Int) : String :=
  let rest := String.ofList (digits.toList.drop 1)
  String.ofList (digits.toList.take 1) ++ (if rest.isEmpty then "" else "." ++ rest) ++ exponentText e

def Decimal.render (d : Decimal) : String :=
  let digits := toString d.digits
  let point : Int := d.exp + digits.length
  if -4 ≤ point - 1 ∧ point - 1 < 16 then positional digits point else scientific digits (point - 1)

def minus (negative : Bool) (text : String) : String :=
  if negative then "-" ++ text else text

def render (names : SpecialNames) : Binary64 → String
  | .finite negative 0 _ => minus negative "0.0"
  | .finite negative m q => minus negative (shortest m q).render
  | .infinite negative => minus negative names.infinity
  | .nan => names.nan

example : (ofDecimal false 298023223876953125 (-25)).render ⟨"", ""⟩ = "2.9802322387695312e-08" := by
  decide +kernel
example : (ofDecimal false 1 16).render ⟨"", ""⟩ = "1e+16" := by decide +kernel

end Binary64

end DesignTokens
