/-
# DesignTokens.Text.Lines -- lines of a text

Text may end its lines with a line feed, a carriage return or both.  `unifyEnds` makes each of them
one line feed.  `firstLine` takes a line off a text in which line feeds end the lines; the last line
needs no end.
-/

namespace DesignTokens.Text

set_option autoImplicit false

/-- The text with every line end as one line feed. -/
def unifyEnds : List Char → List Char
  | '\r' :: '\n' :: rest => '\n' :: unifyEnds rest
  | '\r' :: rest => '\n' :: unifyEnds rest
  | c :: rest => c :: unifyEnds rest
  | [] => []

/-- The first line without its end, and the text after it. -/
def firstLine (s : List Char) : List Char × List Char :=
  (s.takeWhile (· != '\n'), (s.dropWhile (· != '\n')).drop 1)

theorem unifyEnds_of_not_mem {s : List Char} (h : '\r' ∉ s) : unifyEnds s = s := by
  induction s with
  | nil => rfl
  | cons c s ih =>
      simp only [List.mem_cons, not_or] at h
      have tail := ih h.2
      unfold unifyEnds
      split <;> simp_all

end DesignTokens.Text
