/-
# DesignTokens.Path -- key chains and display paths

A node of a document is addressed by the chain of keys that leads to it from the root.  Diagnostics
show a chain as a display path, the keys joined by dots behind `$`.  Two targets overlap when one
chain is the beginning of the other.
-/

namespace DesignTokens

set_option autoImplicit false

/-- The keys that lead from the root to a node. -/
abbrev KeyChain := List String

namespace Path

def root : String := "$"

/-- The display path of a chain; empty keys leave no trace in it. -/
def join (keys : KeyChain) : String :=
  ".".intercalate (root :: keys.filter (· != ""))

/-- The pieces of a text between dots. -/
def pieces : List Char → List (List Char)
  | [] => [[]]
  | c :: rest =>
      if c = '.' then [] :: pieces rest
      else
        match pieces rest with
        | piece :: more => (c :: piece) :: more
        | [] => [[c]]

/-- The chain that a display path shows; the root sign in front is optional. -/
def split (path : String) : KeyChain :=
  match (pieces path.toList).map String.ofList with
  | first :: rest => if first = root then rest else first :: rest
  | [] => []

/-- Whether one chain is the beginning of the other. -/
def overlap : KeyChain → KeyChain → Bool
  | [], _ => true
  | _, [] => true
  | a :: as, b :: bs => a == b && overlap as bs

/-- Whether one of the chains that two display paths show is the beginning of the other. -/
def shownOverlap (first second : String) : Bool :=
  overlap (split first) (split second)

theorem overlap_comm (a b : KeyChain) : overlap a b = overlap b a := by
  induction a generalizing b with
  | nil => cases b <;> rfl
  | cons x a ih =>
      cases b with
      | nil => rfl
      | cons y b =>
          have : (x == y) = (y == x) := by
            rw [Bool.eq_iff_iff, beq_iff_eq, beq_iff_eq]
            exact eq_comm
          rw [overlap, overlap, ih b, this]

theorem overlap_iff (a b : KeyChain) : overlap a b = true ↔ a <+: b ∨ b <+: a := by
  induction a generalizing b with
  | nil => simp [overlap]
  | cons x a ih =>
      cases b with
      | nil => simp [overlap]
      | cons y b =>
          simp only [overlap, Bool.and_eq_true, beq_iff_eq, ih b, List.cons_prefix_cons]
          grind

end Path

end DesignTokens
