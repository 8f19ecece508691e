/-
# DesignTokens.Proofs.Path -- which chains a display path shows as they are

A display path joins the keys of a chain with dots and leaves empty keys out, so a chain can be read off
its path exactly if none of its keys is empty or has a dot in it (`IsPlain`, `split_join_eq_iff`).  What
the keys are otherwise does not matter: the root sign stands in front of every path and only the first
piece is taken for it, so `$` may be a key as well.

The paths of plain chains therefore overlap as the chains themselves do (`shownOverlap_join_iff`).
-/
import DesignTokens.Path

namespace DesignTokens

set_option autoImplicit false

namespace Path

/-! ## Pieces -/

theorem pieces_eq_splitOn (s : List Char) : pieces s = s.splitOn '.' := by
  induction s with
  | nil => rfl
  | cons c rest ih =>
      rw [List.splitOn_cons_eq_if_modifyHead, ← ih, pieces]
      by_cases point : c = '.'
      · rw [if_pos point, if_pos (beq_iff_eq.2 point)]
      · rw [if_neg point, if_neg (mt beq_iff_eq.1 point)]
        cases split : pieces rest with
        | nil =>
            rw [ih] at split
            exact absurd split (List.splitOn_ne_nil _ _)
        | cons piece more => rfl

/-- No piece has a dot in it. -/
theorem not_mem_of_mem_pieces {s piece : List Char} (mem : piece ∈ pieces s) : '.' ∉ piece := by
  induction s generalizing piece with
  | nil =>
      rw [List.mem_singleton.1 mem]
      exact List.not_mem_nil
  | cons c rest ih =>
      rw [pieces] at mem
      split at mem
      · rcases List.mem_cons.1 mem with rfl | later
        · exact List.not_mem_nil
        · exact ih later
      · rename_i noPoint
        cases split : pieces rest with
        | nil =>
            rw [pieces_eq_splitOn] at split
            exact absurd split (List.splitOn_ne_nil _ _)
        | cons first more =>
            rw [split] at mem ih
            rcases List.mem_cons.1 mem with rfl | later
            · rw [List.mem_cons, not_or]
              exact ⟨Ne.symm noPoint, ih List.mem_cons_self⟩
            · exact ih (List.mem_cons_of_mem _ later)

/-! ## The round trip -/

/-- Keys without dots are read off the path, those that are empty aside. -/
theorem split_join_of_undotted {keys : KeyChain} (undotted : ∀ key ∈ keys, '.' ∉ key.toList) :
    split (join keys) = keys.filter (· != "") := by
  have shown : ∀ piece ∈ (root :: keys.filter (· != "")).map String.toList, '.' ∉ piece := by
    intro piece mem
    obtain ⟨key, isShown, rfl⟩ := List.mem_map.1 mem
    rcases List.mem_cons.1 isShown with rfl | inKeys
    · decide
    · exact undotted key (List.mem_filter.1 inKeys).1
  have parts : pieces (join keys).toList = (root :: keys.filter (· != "")).map String.toList := by
    rw [pieces_eq_splitOn, join, String.toList_intercalate]
    exact List.splitOn_intercalate '.' shown (by simp)
  rw [split, parts, List.map_map]
  simp [Function.comp_def]

theorem undotted_of_mem_split {path key : String} (mem : key ∈ split path) : '.' ∉ key.toList := by
  have inPieces : key ∈ (pieces path.toList).map String.ofList := by
    unfold split at mem
    split at mem
    · rename_i first rest parts
      rw [parts]
      split at mem
      · exact List.mem_cons_of_mem _ mem
      · exact mem
    · cases mem
  obtain ⟨piece, isPiece, rfl⟩ := List.mem_map.1 inPieces
  rw [String.toList_ofList]
  exact not_mem_of_mem_pieces isPiece

/-- The keys of the chain are not empty and have no dot in them. -/
def IsPlain (keys : KeyChain) : Prop :=
  ∀ key ∈ keys, key ≠ "" ∧ '.' ∉ key.toList

instance (keys : KeyChain) : Decidable (IsPlain keys) :=
  inferInstanceAs (Decidable (∀ key ∈ keys, key ≠ "" ∧ '.' ∉ key.toList))

/-- **A path shows the plain chains as they are**, and no others. -/
theorem split_join_eq_iff (keys : KeyChain) : split (join keys) = keys ↔ IsPlain keys := by
  constructor
  · intro same
    have undotted : ∀ key ∈ keys, '.' ∉ key.toList := by
      intro key mem
      rw [← same] at mem
      exact undotted_of_mem_split mem
    rw [split_join_of_undotted undotted, List.filter_eq_self] at same
    exact fun key mem => ⟨bne_iff_ne.1 (same key mem), undotted key mem⟩
  · intro plain
    rw [split_join_of_undotted fun key mem => (plain key mem).2, List.filter_eq_self]
    exact fun key mem => bne_iff_ne.2 (plain key mem).1

/-- The paths of plain chains overlap as the chains do. -/
theorem shownOverlap_join_iff {a b : KeyChain} (plain : IsPlain a) (plain' : IsPlain b) :
    shownOverlap (join a) (join b) = true ↔ a <+: b ∨ b <+: a := by
  rw [shownOverlap, (split_join_eq_iff a).2 plain, (split_join_eq_iff b).2 plain', overlap_iff]

end Path

end DesignTokens
