/-
# DesignTokens.Text.Infix -- a text inside another
-/

namespace DesignTokens.Text

set_option autoImplicit false

/-- Whether a text occurs in another, in one piece. -/
def occursIn (part : List Char) : List Char → Bool
  | [] => part.isEmpty
  | c :: rest => part.isPrefixOf (c :: rest) || occursIn part rest

theorem occursIn_iff (part s : List Char) : occursIn part s = true ↔ part <:+: s := by
  induction s with
  | nil => simp [occursIn]
  | cons c s ih => simp [occursIn, ih, List.infix_cons_iff]

end DesignTokens.Text
