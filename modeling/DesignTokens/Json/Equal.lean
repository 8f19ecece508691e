/-
# DesignTokens.Json.Equal -- when two values are the same value

A number equals every number of the same value, an integer or a double, and the truth values count
as 0 and 1.  Objects are equal when they have the same keys with equal values, in any order.

What is not a number, compared as it is, equals nothing (`equal`).  As an item or a member it is the
same as what is not a number in its place on the other side (`same`).
-/
import DesignTokens.Json.Basic

namespace DesignTokens

set_option autoImplicit false

namespace Json

def ofTruth (b : Bool) : Int :=
  if b then 1 else 0

/-- The numeric reading of numbers and truth values. -/
def numeric? : Json → Option (Int ⊕ Binary64)
  | .bool b => some (.inl (ofTruth b))
  | .int n => some (.inl n)
  | .float x => some (.inr x)
  | _ => none

def sameNumber : Int ⊕ Binary64 → Int ⊕ Binary64 → Bool
  | .inl m, .inl n => m == n
  | .inl m, .inr y => y.compareInt? m == some .eq
  | .inr x, .inl n => x.compareInt? n == some .eq
  | .inr .nan, .inr .nan => true
  | .inr x, .inr y => x.same y

def sameScalar (a b : Json) : Bool :=
  match a.numeric?, b.numeric? with
  | some x, some y => sameNumber x y
  | _, _ => false

mutual

/-- Whether two parts of larger values are the same. -/
def same : Json → Json → Bool
  | .null, .null => true
  | .str s, .str t => s == t
  | .arr xs, .arr ys => sameItems xs ys
  | .obj xs, .obj ys => xs.length == ys.length && sameMembers xs ys
  | a, b => sameScalar a b

def sameItems : List Json → List Json → Bool
  | [], [] => true
  | x :: xs, y :: ys => same x y && sameItems xs ys
  | _, _ => false

/-- Every member on the left has the same member on the right. -/
def sameMembers : List (String × Json) → Members → Bool
  | [], _ => true
  | (key, value) :: rest, others =>
      (match others.get? key with
       | some other => same value other
       | none => false) && sameMembers rest others

end

/-- Whether two values are equal. -/
def equal (a b : Json) : Bool :=
  match a, b with
  | .float .nan, .float .nan => false
  | _, _ => same a b

theorem equal_nan : equal (.float .nan) (.float .nan) = false := rfl

theorem equal_obj (xs ys : Members) : equal (.obj xs) (.obj ys) = same (.obj xs) (.obj ys) := rfl

end Json

end DesignTokens
