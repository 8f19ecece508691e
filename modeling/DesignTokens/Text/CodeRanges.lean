/-
# DesignTokens.Text.CodeRanges -- sets of characters as closed ranges of code points

A property of characters is a list of closed ranges, ascending and apart.  `contains` answers
membership, and `offset?` says how far into its range a character lies, which is what a run of
consecutive digits needs.
-/

namespace DesignTokens.Text

set_option autoImplicit false

/-- Closed ranges of code points. -/
structure CodeRanges where
  ranges : List (Nat × Nat)

namespace CodeRanges

def contains (s : CodeRanges) (c : Char) : Bool :=
  s.ranges.any fun r => r.1 ≤ c.toNat && c.toNat ≤ r.2

/-- The distance of `c` from the start of the range that holds it. -/
def offset? (s : CodeRanges) (c : Char) : Option Nat :=
  (s.ranges.find? fun r => r.1 ≤ c.toNat && c.toNat ≤ r.2).map fun r => c.toNat - r.1

theorem contains_iff (s : CodeRanges) (c : Char) :
    s.contains c = true ↔ ∃ r ∈ s.ranges, r.1 ≤ c.toNat ∧ c.toNat ≤ r.2 := by
  simp [contains]

theorem isSome_offset? (s : CodeRanges) (c : Char) :
    (s.offset? c).isSome = s.contains c := by
  rw [Bool.eq_iff_iff]
  simp [offset?, contains]

end CodeRanges

end DesignTokens.Text
