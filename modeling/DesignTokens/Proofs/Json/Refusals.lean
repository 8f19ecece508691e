/-
# DesignTokens.Proofs.Json.Refusals -- where a text is refused

A reader only takes characters off the front of its text.  So what remains behind a value is an end of
the text, and the place that a refusal names is one too; and an integer with too many digits stands in
the text with all of them (`Refusal.Within`).  Each reading step keeps to this (`StaysWithin`), and an
end of an end is an end, so the whole reader does (`readDocument_within`).
-/
import DesignTokens.Json.Reader
import Mathlib.Data.List.TakeWhile

namespace DesignTokens

set_option autoImplicit false

namespace Json

variable {α : Type}

/-! ## Staying within a text -/

/-- A refusal is about a text: its place is an end of the text, or the digits that are too many stand
in it. -/
def Refusal.Within (text : List Char) : Refusal → Prop
  | .syntaxAt _ rest => rest <:+ text
  | .tooManyDigits n => Numeral.maxDigits < n ∧
      ∃ digits, digits <:+: text ∧ digits.length = n ∧ ∀ c ∈ digits, isAsciiDigit c = true

/-- A reading step stays within a text: it leaves an end of it, or its refusal is about it. -/
def StaysWithin (text : List Char) : Reading α → Prop
  | .ok (_, rest) => rest <:+ text
  | .error refusal => refusal.Within text

theorem Refusal.Within.mono {refusal : Refusal} {text whole : List Char} (within : refusal.Within text)
    (part : text <:+ whole) : refusal.Within whole := by
  cases refusal with
  | syntaxAt cause rest => exact List.IsSuffix.trans within part
  | tooManyDigits n =>
      obtain ⟨many, digits, stand, count, ascii⟩ := within
      exact ⟨many, digits, stand.trans part.isInfix, count, ascii⟩

theorem skipSpace_suffix (s : List Char) : skipSpace s <:+ s :=
  List.dropWhile_suffix _

/-- What stands behind the first character that is no space. -/
theorem suffix_of_skipSpace {s after : List Char} {c : Char} (skipped : skipSpace s = c :: after) :
    after <:+ s :=
  (List.suffix_cons c after).trans (skipped ▸ skipSpace_suffix s)

section Steps

variable {text whole : List Char}

theorem StaysWithin.mono {reading : Reading α} (within : StaysWithin text reading) (part : text <:+ whole) :
    StaysWithin whole reading := by
  cases reading with
  | ok pair => exact List.IsSuffix.trans within part
  | error refusal => exact Refusal.Within.mono within part

theorem StaysWithin.rest {reading : Reading α} (within : StaysWithin text reading) {value : α}
    {rest : List Char} (read : reading = .ok (value, rest)) : rest <:+ text := by
  subst read
  exact within

/-- What stands behind a value and the first character after it. -/
theorem StaysWithin.behind {reading : Reading α} (within : StaysWithin text reading) {value : α}
    {rest after : List Char} {c : Char} (read : reading = .ok (value, rest))
    (skipped : skipSpace rest = c :: after) : after <:+ text :=
  (suffix_of_skipSpace skipped).trans (within.rest read)

theorem StaysWithin.error {reading : Reading α} (within : StaysWithin text reading) {refusal : Refusal}
    (refused : reading = .error refusal) : refusal.Within text := by
  subst refused
  exact within

theorem staysWithin_refuse (cause : SyntaxCause) {rest : List Char} (part : rest <:+ text) :
    StaysWithin text (refuse cause rest : Reading α) :=
  part

end Steps

/-! ## Strings -/

theorem staysWithin_consCode {text : List Char} {code : Nat} {reading : Reading (List Nat)} :
    StaysWithin text (consCode code reading) ↔ StaysWithin text reading := by
  cases reading <;> rfl

theorem readCodes_within (opening : List Char) {s : List Char} (part : s <:+ opening) :
    StaysWithin opening (readCodes opening s) := by
  have behind {c : Char} {rest : List Char} (part : c :: rest <:+ opening) : rest <:+ opening :=
    (List.suffix_cons c rest).trans part
  fun_induction readCodes opening s with
  | case1 | case3 => exact staysWithin_refuse _ List.suffix_rfl
  | case2 rest => exact behind part
  | case4 a b c d e rest code known ih =>
      exact staysWithin_consCode.2 (ih ((List.drop_suffix 6 _).trans part))
  | case5 | case6 => exact staysWithin_refuse _ (behind part)
  | case7 letter rest _ _ c known ih => exact staysWithin_consCode.2 (ih (behind (behind part)))
  | case8 | case9 => exact staysWithin_refuse _ part
  | case10 c rest _ _ _ _ _ _ ih => exact staysWithin_consCode.2 (ih (behind part))

theorem readString_within (halves : Halves) (rest : List Char) :
    StaysWithin ('"' :: rest) (readString halves rest) := by
  have codes := readCodes_within ('"' :: rest) (List.suffix_cons _ rest)
  unfold readString
  split
  · rename_i read
    rw [read] at codes
    exact codes
  · rename_i read
    rw [read] at codes
    exact codes

/-! ## Numbers and words -/

theorem readWhole_eq {s whole after : List Char} (read : readWhole s = some (whole, after)) :
    whole ++ after = s ∧ ∀ c ∈ whole, isAsciiDigit c = true := by
  unfold readWhole at read
  split at read
  · cases read
    exact ⟨rfl, by simp [isAsciiDigit]⟩
  · split at read
    · rename_i digit
      cases read
      refine ⟨by simp, fun c mem => ?_⟩
      rcases List.mem_cons.1 mem with rfl | mem
      · exact digit
      · exact List.mem_takeWhile_imp mem
    · cases read
  · cases read

theorem readFraction_suffix (s : List Char) : ((readFraction s).getD ([], s)).2 <:+ s := by
  unfold readFraction
  split
  · split
    · exact List.suffix_rfl
    · exact (List.dropWhile_suffix _).trans (List.suffix_cons _ _)
  · exact List.suffix_rfl

theorem readExponent_suffix {s after : List Char} {exponent : Int}
    (read : readExponent s = some (exponent, after)) : after <:+ s := by
  unfold readExponent at read
  split at read
  · rename_i mark rest
    split at read
    · dsimp only at read
      split at read
      case h_1 | h_2 =>
        split at read <;> cases read
        exact (List.dropWhile_suffix _).trans (List.drop_suffix 2 (mark :: _ :: _))
      case h_3 =>
        split at read <;> cases read
        exact (List.dropWhile_suffix _).trans (List.suffix_cons mark rest)
    · cases read
  · cases read

theorem splitMinus_suffix (s : List Char) : (Numeral.splitMinus s).2 <:+ s := by
  unfold Numeral.splitMinus
  split
  · exact List.suffix_cons _ _
  · exact List.suffix_rfl

theorem readNumber_within (s : List Char) : StaysWithin s (readNumber s) := by
  have unsigned := splitMinus_suffix s
  simp only [readNumber]
  split
  · exact staysWithin_refuse _ List.suffix_rfl
  · rename_i whole afterWhole read
    obtain ⟨parts, ascii⟩ := readWhole_eq read
    have afterWholePart : afterWhole <:+ s := List.IsSuffix.trans ⟨whole, parts⟩ unsigned
    have afterFraction := (readFraction_suffix afterWhole).trans afterWholePart
    split
    · rename_i exponent after readExp
      exact (readExponent_suffix readExp).trans afterFraction
    · split
      · split
        · rename_i many
          have stands : whole <:+: (Numeral.splitMinus s).2 := ⟨[], afterWhole, by simpa using parts⟩
          exact ⟨many, whole, stands.trans unsigned.isInfix, rfl, ascii⟩
        · exact afterFraction
      · exact afterFraction

theorem dropWord?_suffix {word s rest : List Char} (dropped : dropWord? word s = some rest) :
    rest <:+ s := by
  fun_induction dropWord? word s with
  | case1 s =>
      cases dropped
      exact List.suffix_rfl
  | case3 word c s ih => exact (ih dropped).trans (List.suffix_cons c s)
  | case2 | case4 => cases dropped

theorem readScalar_within (s : List Char) : StaysWithin s (readScalar s) := by
  unfold readScalar
  split
  · rename_i r found
    obtain ⟨p, -, word⟩ := List.exists_of_findSome?_eq_some found
    obtain ⟨rest, dropped, rfl⟩ := Option.map_eq_some_iff.1 word
    exact dropWord?_suffix dropped
  · exact readNumber_within s

/-! ## Values -/

/-- What the three readers do with some fuel. -/
structure ReadersWithin (halves : Halves) (fuel : Nat) : Prop where
  value : ∀ s, StaysWithin s (readValue halves fuel s)
  items : ∀ s, StaysWithin s (readItems halves fuel s)
  members : ∀ s, StaysWithin s (readMembers halves fuel s)

section Readers

variable {halves : Halves} {fuel : Nat} (within : ReadersWithin halves fuel) (s : List Char)

include within

/-- A value behind an opening bracket or brace is closed there, or goes on with a first part. -/
theorem readValue_within : StaysWithin s (readValue halves (fuel + 1) s) := by
  unfold readValue
  split
  · rename_i rest
    have name := readString_within halves rest
    split
    · rename_i read
      exact name.rest read
    · rename_i read
      exact name.error read
  · rename_i rest
    split
    · rename_i after skipped
      exact (suffix_of_skipSpace skipped).trans (List.suffix_cons '[' rest)
    · have inner := (within.items (skipSpace rest)).mono
        ((skipSpace_suffix rest).trans (List.suffix_cons '[' rest))
      split
      · rename_i read
        exact inner.rest read
      · rename_i read
        exact inner.error read
  · rename_i rest
    split
    · rename_i after skipped
      exact (suffix_of_skipSpace skipped).trans (List.suffix_cons '\x7b' rest)
    · have inner := (within.members (skipSpace rest)).mono
        ((skipSpace_suffix rest).trans (List.suffix_cons '\x7b' rest))
      split
      · rename_i read
        exact inner.rest read
      · rename_i read
        exact inner.error read
  · exact readScalar_within s

theorem readItems_within : StaysWithin s (readItems halves (fuel + 1) s) := by
  have first := within.value s
  unfold readItems
  split
  · rename_i read
    exact first.error read
  · rename_i item rest read
    split
    · rename_i after skipped
      exact first.behind read skipped
    · rename_i more skipped
      have others := (within.items (skipSpace more)).mono
        ((skipSpace_suffix more).trans (first.behind read skipped))
      split
      · rename_i read
        exact others.rest read
      · rename_i read
        exact others.error read
    · exact staysWithin_refuse _ ((skipSpace_suffix rest).trans (first.rest read))

/-- What follows a name. -/
theorem readMembers_within : StaysWithin s (readMembers halves (fuel + 1) s) := by
  unfold readMembers
  split
  · rename_i rest
    have name := readString_within halves rest
    split
    · rename_i read
      exact name.error read
    · rename_i key afterKey readName
      split
      · rename_i beforeValue skipped
        have value := (within.value (skipSpace beforeValue)).mono
          ((skipSpace_suffix beforeValue).trans (name.behind readName skipped))
        split
        · rename_i read
          exact value.error read
        · rename_i v afterValue read
          split
          · rename_i after skipped
            exact value.behind read skipped
          · rename_i more skipped
            have others := (within.members (skipSpace more)).mono
              ((skipSpace_suffix more).trans (value.behind read skipped))
            split
            · rename_i read
              exact others.rest read
            · rename_i read
              exact others.error read
          · exact staysWithin_refuse _ ((skipSpace_suffix afterValue).trans (value.rest read))
      · exact staysWithin_refuse _ ((skipSpace_suffix afterKey).trans (name.rest readName))
  · exact staysWithin_refuse _ List.suffix_rfl

end Readers

/-- The three readers call one another with less fuel, so one induction carries all of them. -/
theorem readers_within (halves : Halves) (fuel : Nat) : ReadersWithin halves fuel := by
  induction fuel with
  | zero =>
      have refused {α : Type} (cause : SyntaxCause) (s : List Char) :
          StaysWithin s (refuse cause s : Reading α) := staysWithin_refuse cause List.suffix_rfl
      exact ⟨refused _, refused _, refused _⟩
  | succ fuel ih => exact ⟨readValue_within ih, readItems_within ih, readMembers_within ih⟩

/-- **A text is refused for what stands in it.** -/
theorem readDocument_within {text : List Char} {refusal : Refusal}
    (refused : readDocument text = .error refusal) : refusal.Within text := by
  have value := ((readers_within (halvesOf text) (2 * text.length + 1)).value (skipSpace text)).mono
    (skipSpace_suffix text)
  unfold readDocument at refused
  split at refused
  · cases refused
    exact List.suffix_rfl
  · split at refused
    · rename_i e read
      cases refused
      exact value.error read
    · rename_i v rest read
      split at refused
      · cases refused
      · cases refused
        exact (skipSpace_suffix rest).trans (value.rest read)

end Json

end DesignTokens
