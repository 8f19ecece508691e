/-
# DesignTokens.Proofs.Inference -- the looks of a text exclude one another

A text is asked four questions, one after the other, until one of them tells its type: does it look like a
colour, a dimension, a duration or a number?  Here each question stands alone (`Look.guess?`), beside the
language of the texts that pass it (`Look.Fits`).

The languages are apart.  A colour starts with a number sign or a letter and no number does
(`IsNumber.looksLikeColour_append`); and what starts with a number has one unit, or none, behind it
(`quantity_unique`), while no unit is one of both a dimension and a duration (`Look.eq_of_mem_units`).  So
at most one question has an answer, and asking them in another order gives the same one
(`Look.tests_exclusive`).
-/
import DesignTokens.Proofs.Spelling

namespace DesignTokens

set_option autoImplicit false

open Text Spelling

namespace TokenType

/-- What a text may look like. -/
inductive Look where
  | colour
  | dimension
  | duration
  | number
  deriving DecidableEq, Repr

namespace Look

/-- The type of a text that looks like this. -/
def guess? (text : List Char) : Look → Option TokenType
  | colour => if looksLikeColour text then some .color else none
  | dimension => (dimension? text).map fun _ => .dimension
  | duration => if isDuration text then some .duration else none
  | number => (number? text).map fun x => ofRange (x.between 0 1)

/-- The looks in the order in which a text is tested for them. -/
def all : List Look := [colour, dimension, duration, number]

theorem mem_all (look : Look) : look ∈ all := by
  cases look <;> decide

theorem inferText?_eq_findSome? (text : List Char) : inferText? text = all.findSome? (guess? text) := by
  unfold inferText?
  split
  · rename_i isColour
    simp [all, guess?, isColour]
  · rename_i noColour
    split
    · rename_i isDimension
      obtain ⟨quantity, reads⟩ := Option.isSome_iff_exists.1 isDimension
      simp [all, guess?, noColour, reads]
    · rename_i noDimension
      have unread : dimension? text = none := by simpa using noDimension
      split
      · rename_i isDuration
        simp [all, guess?, noColour, unread, isDuration]
      · rename_i noDuration
        cases reads : number? text with
        | none => simp [all, guess?, noColour, unread, noDuration, reads]
        | some x => simp [all, guess?, noColour, unread, noDuration, reads]

/-! ## The languages -/

/-- What may follow the number of a text that looks like this.  A colour starts with none. -/
def units : Look → List String
  | colour => []
  | dimension => dimensionUnits
  | duration => durationUnits
  | number => [""]

/-- The texts that look like this: a number sign and anything, the head of a colour function and anything, or
a number, a unit and the end of the text. -/
inductive Fits : Look → List Char → Prop
  | hash (rest : List Char) : Fits colour ('#' :: rest)
  | function {head : String} {text : List Char} (known : head ∈ ["rgb(", "rgba(", "hsl(", "hsla("])
      (starts : head.toList <+: text.map foldLetter) : Fits colour text
  | quantity {look : Look} {number end_ : List Char} {unit : String} (isNumber : IsNumber number)
      (known : unit ∈ look.units) (atEnd : isEnd end_ = true) :
      Fits look (number ++ (unit.toList ++ end_))

theorem isUnit_of_mem_units {look : Look} {unit : String} (known : unit ∈ look.units) : IsUnit unit := by
  refine isUnit_of_mem unit ?_
  cases look with
  | colour => cases known
  | dimension => exact List.mem_append_left _ (List.mem_append_left _ known)
  | duration => exact List.mem_append_left _ (List.mem_append_right _ known)
  | number => exact List.mem_append_right _ known

/-- No unit is one of two looks. -/
theorem eq_of_mem_units {look look' : Look} {unit : String} (known : unit ∈ look.units)
    (known' : unit ∈ look'.units) : look = look' := by
  have apart : ∀ look ∈ all, ∀ look' ∈ all, ∀ unit ∈ look.units, unit ∈ look'.units → look = look' := by
    decide
  exact apart look (mem_all look) look' (mem_all look') unit known known'

theorem fits_colour_iff (text : List Char) : Fits colour text ↔ looksLikeColour text = true := by
  have looks_iff : looksLikeColour text = true ↔ text.head? = some '#' ∨
      ∃ head ∈ ["rgb(", "rgba(", "hsl(", "hsla("], head.toList <+: text.map foldLetter := by
    rw [looksLikeColour, Bool.or_eq_true, beq_iff_eq, isColourFunction, isSome_afterHead?_iff]
  rw [looks_iff]
  constructor
  · intro fits
    cases fits with
    | hash rest => exact .inl rfl
    | function known starts => exact .inr ⟨_, known, starts⟩
    | quantity isNumber known atEnd => cases known
  · rintro (sign | ⟨head, known, starts⟩)
    · obtain ⟨rest, rfl⟩ := List.head?_eq_some_iff.1 sign
      exact .hash rest
    · exact .function known starts

/-- A text of another look is a quantity, and no colour. -/
theorem Fits.exists_quantity {look : Look} {text : List Char} (fits : Fits look text)
    (noColour : look ≠ colour) :
    looksLikeColour text = false ∧ ∃ number unit end_, IsNumber number ∧ unit ∈ look.units ∧
      isEnd end_ = true ∧ text = number ++ (unit.toList ++ end_) := by
  cases fits with
  | hash => exact absurd rfl noColour
  | function => exact absurd rfl noColour
  | quantity isNumber known atEnd =>
      exact ⟨isNumber.looksLikeColour_append _, _, _, _, isNumber, known, atEnd, rfl⟩

/-- **The languages are apart**: a text has one look at most. -/
theorem Fits.unique {look look' : Look} {text : List Char} (fits : Fits look text)
    (fits' : Fits look' text) : look = look' := by
  -- A colour and a quantity start differently, and of two quantities the units are compared.
  by_cases isColour : look = colour <;> by_cases isColour' : look' = colour
  · rw [isColour, isColour']
  · obtain ⟨noColour, -⟩ := fits'.exists_quantity isColour'
    rw [isColour, fits_colour_iff, noColour] at fits
    cases fits
  · obtain ⟨noColour, -⟩ := fits.exists_quantity isColour
    rw [isColour', fits_colour_iff, noColour] at fits'
    cases fits'
  · obtain ⟨-, number, unit, end_, isNumber, known, atEnd, spelled⟩ := fits.exists_quantity isColour
    obtain ⟨-, number', unit', end_', isNumber', known', atEnd', spelled'⟩ :=
      fits'.exists_quantity isColour'
    obtain ⟨-, rfl⟩ := quantity_unique isNumber isNumber' (isUnit_of_mem_units known)
      (isUnit_of_mem_units known') atEnd atEnd' (spelled.symm.trans spelled')
    exact eq_of_mem_units known known'

/-! ## The tests -/

theorem fits_iff_of_ne_colour {look : Look} (noColour : look ≠ colour) (text : List Char) :
    Fits look text ↔ (quantity? look.units text).isSome = true := by
  have areUnits : ∀ unit ∈ look.units, IsUnit unit := fun unit => isUnit_of_mem_units
  rw [Option.isSome_iff_exists]
  constructor
  · intro fits
    obtain ⟨-, number, unit, end_, isNumber, known, atEnd, spelled⟩ := fits.exists_quantity noColour
    exact ⟨(number, unit), (quantity?_eq_some_iff areUnits).2 ⟨isNumber, known, end_, atEnd, spelled⟩⟩
  · rintro ⟨⟨number, unit⟩, reads⟩
    obtain ⟨isNumber, known, end_, atEnd, rfl⟩ := (quantity?_eq_some_iff areUnits).1 reads
    exact .quantity isNumber known atEnd

/-- **A test succeeds on the texts of its language.** -/
theorem isSome_guess?_iff (look : Look) (text : List Char) :
    (look.guess? text).isSome = true ↔ Fits look text := by
  cases look with
  | colour => rw [guess?, Option.isSome_ite, fits_colour_iff]
  | dimension => rw [guess?, Option.isSome_map, dimension?, fits_iff_of_ne_colour (by decide), units]
  | duration => rw [guess?, Option.isSome_ite, isDuration, fits_iff_of_ne_colour (by decide), units]
  | number => rw [guess?, Option.isSome_map, isSome_number?_eq, fits_iff_of_ne_colour (by decide), units]

/-- If one of the tests succeeds, every order in which it is made finds what it tells. -/
theorem findSome?_guess? {text : List Char} {look : Look} {t : TokenType}
    (guessed : look.guess? text = some t) {order : List Look} (made : look ∈ order) :
    order.findSome? (guess? text) = some t := by
  cases found : order.findSome? (guess? text) with
  | none =>
      rw [List.findSome?_eq_none_iff] at found
      rw [found look made] at guessed
      cases guessed
  | some t' =>
      obtain ⟨look', -, guessed'⟩ := List.exists_of_findSome?_eq_some found
      have fits : Fits look text := (isSome_guess?_iff look text).1 (by rw [guessed]; rfl)
      have fits' : Fits look' text := (isSome_guess?_iff look' text).1 (by rw [guessed']; rfl)
      rw [← guessed', ← guessed, fits.unique fits']

/-- Two orders that leave no test out find the same. -/
theorem findSome?_guess?_congr {order order' : List Look} (complete : ∀ look, look ∈ order)
    (complete' : ∀ look, look ∈ order') (text : List Char) :
    order.findSome? (guess? text) = order'.findSome? (guess? text) := by
  cases found : order'.findSome? (guess? text) with
  | none =>
      rw [List.findSome?_eq_none_iff] at found ⊢
      exact fun look _ => found look (complete' look)
  | some t =>
      obtain ⟨look, -, guessed⟩ := List.exists_of_findSome?_eq_some found
      exact findSome?_guess? guessed (complete look)

/-- **The looks exclude one another.**  Of a text without the blanks at its ends, each test succeeds exactly
if the text is of its language, at most one of them succeeds, and whichever order they are made in, with
none left out, they tell the same type. -/
theorem tests_exclusive (s : String) :
    (∀ look : Look, (look.guess? (trim s.toList)).isSome = true ↔ Fits look (trim s.toList)) ∧
      (∀ look look' : Look, (look.guess? (trim s.toList)).isSome = true →
        (look'.guess? (trim s.toList)).isSome = true → look = look') ∧
      ∀ order : List Look, (∀ look, look ∈ order) →
        order.findSome? (guess? (trim s.toList)) = infer? (.str s) := by
  refine ⟨fun look => isSome_guess?_iff look _, fun look look' succeeds succeeds' => ?_,
    fun order complete => ?_⟩
  · have fits : Fits look (trim s.toList) := (isSome_guess?_iff look _).1 succeeds
    exact fits.unique ((isSome_guess?_iff look' _).1 succeeds')
  · rw [infer?, inferText?_eq_findSome?]
    exact findSome?_guess?_congr complete mem_all _

end Look

end TokenType

namespace Example

/-- One and a half milliseconds, in digits of two scripts, with blanks around. -/
def paddedPause : String := "\t1.५ms "

/-- Tested the other way round, the padded text is a duration as well. -/
theorem paddedPause_in_reverse :
    (∀ look : TokenType.Look, look ∈ TokenType.Look.all.reverse) ∧
      TokenType.Look.all.reverse.findSome? (TokenType.Look.guess? (trim paddedPause.toList)) =
        some .duration := by
  have complete (look : TokenType.Look) : look ∈ TokenType.Look.all.reverse :=
    List.mem_reverse.2 look.mem_all
  have suggests : TokenType.infer? (.str paddedPause) = some .duration := by decide +kernel
  obtain ⟨-, -, anyOrder⟩ := TokenType.Look.tests_exclusive paddedPause
  exact ⟨complete, (anyOrder _ complete).trans suggests⟩

end Example

end DesignTokens
