/-
# DesignTokens.Proofs.Text.Blank -- what trimming leaves and what it takes

A trimmed text starts with the first character that is no blank (`head?_trim`), and what trimming takes
from the end is blanks alone (`exists_dropBlanks_eq`).  A run of characters is cut off whole if what
follows does not go on with it (`span_append`).  No blank is a digit, so blanks behind a number end it.
-/
import DesignTokens.Text.Blank
import DesignTokens.Text.DecimalDigit
import Mathlib.Data.List.TakeWhile

namespace DesignTokens

set_option autoImplicit false

namespace Text

/-- A run of characters with a property ends where the property does. -/
theorem span_append {p : Char → Bool} {run : List Char} (all : ∀ c ∈ run, p c = true) (rest : List Char)
    (stops : ∀ c ∈ rest.head?, p c = false) :
    (run ++ rest).takeWhile p = run ∧ (run ++ rest).dropWhile p = rest := by
  rw [List.takeWhile_append_of_pos all, List.dropWhile_append_of_pos all]
  cases rest with
  | nil => simp
  | cons c rest => simp [stops c rfl]

theorem head?_trim {s : List Char} {c : Char} (first : s.head? = some c) (notBlank : isBlank c = false) :
    (trim s).head? = some c := by
  cases s with
  | nil => cases first
  | cons c' rest =>
      cases first
      have front : dropBlanks (c :: rest) = c :: rest :=
        List.dropWhile_cons_of_neg (by simp [notBlank])
      rw [trim, front, List.reverse_cons, dropBlanks, List.dropWhile_append]
      split <;> simp [notBlank]

theorem trim_append_of_blank {s tail : List Char} (nonempty : s ≠ [])
    (noBlank : ∀ c ∈ s, isBlank c = false) (blank : ∀ c ∈ tail, isBlank c = true) :
    trim (s ++ tail) = s := by
  have front : dropBlanks (s ++ tail) = s ++ tail := by
    cases s with
    | nil => exact absurd rfl nonempty
    | cons c s => exact List.dropWhile_cons_of_neg (by simp [noBlank c List.mem_cons_self])
  have back : dropBlanks (tail.reverse ++ s.reverse) = dropBlanks s.reverse :=
    List.dropWhile_append_of_pos fun c mem => blank c (List.mem_reverse.1 mem)
  have kept : dropBlanks s.reverse = s.reverse := by
    rw [dropBlanks, List.dropWhile_eq_self_iff]
    intro some_
    rw [noBlank _ (List.mem_reverse.1 (List.getElem_mem some_))]
    decide
  rw [trim, front, List.reverse_append, back, kept, List.reverse_reverse]

/-- Without the blanks in front a text is what trimming leaves of it, and blanks. -/
theorem exists_dropBlanks_eq (s : List Char) :
    ∃ tail, dropBlanks s = trim s ++ tail ∧ ∀ c ∈ tail, isBlank c = true := by
  refine ⟨((dropBlanks s).reverse.takeWhile isBlank).reverse, ?_, fun c mem => ?_⟩
  · have parts : (dropBlanks s).reverse.takeWhile isBlank ++ dropBlanks (dropBlanks s).reverse
        = (dropBlanks s).reverse := List.takeWhile_append_dropWhile
    rw [trim, ← List.reverse_append, parts, List.reverse_reverse]
  · exact List.mem_takeWhile_imp (List.mem_reverse.1 mem)

/-! ## Blanks among other characters -/

/-- Of two properties whose ranges lie apart no character has both. -/
theorem CodeRanges.not_contains_of_apart {a b : CodeRanges}
    (apart : ∀ r ∈ a.ranges, ∀ r' ∈ b.ranges, r.2 < r'.1 ∨ r'.2 < r.1) {c : Char}
    (contains : a.contains c = true) : b.contains c = false := by
  obtain ⟨r, mem, low, high⟩ := (a.contains_iff c).1 contains
  rw [← Bool.not_eq_true, contains_iff]
  rintro ⟨r', mem', low', high'⟩
  rcases apart r mem r' mem' with before | behind
  · omega
  · omega

theorem not_isDigit_of_isBlank {c : Char} (blank : isBlank c = true) : isDigit c = false :=
  CodeRanges.not_contains_of_apart (by decide +kernel) blank

end Text

end DesignTokens
