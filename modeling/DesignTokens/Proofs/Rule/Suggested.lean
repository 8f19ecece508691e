/-
# DesignTokens.Proofs.Rule.Suggested -- whether a suggested type accepts its value

A value suggests a type by its looks, and the rule of a type judges the value as it is written.  The
two differ on texts.  A number sign in front makes a colour of any text, also of one that is no hex
colour.  A number spelled as text suggests a number or an opacity, but only a JSON number is one.  And
blanks at the ends of a text are left out of the guess, while a duration must not have any
(`TokenType.Misspelled`).  Whatever else suggests a type is accepted by it (`accepts_iff_of_infer?`):
numbers always, and every text taken for a dimension, blanks or not.
-/
import DesignTokens.Inference
import DesignTokens.Proofs.Rule.Kinds
import DesignTokens.Proofs.Spelling

namespace DesignTokens

set_option autoImplicit false

open Text

namespace Spelling

/-- A reference suggests no type: nothing that does starts with a brace. -/
theorem inferText?_of_isReference {s : List Char} (reference : isReference s = true) :
    TokenType.inferText? (trim s) = none := by
  have first : s.head? = some '\x7b' := by
    unfold isReference at reference
    split at reference
    · rfl
    · cases reference
  have trimmedFirst : (trim s).head? = some '\x7b' := head?_trim first (by decide)
  have noHead : afterHead? ["rgb(", "rgba(", "hsl(", "hsla("] (trim s) = none :=
    afterHead?_eq_none trimmedFirst (by decide)
  have noNumber : splitNumber? (trim s) = none :=
    splitNumber?_eq_none trimmedFirst (by decide) (by decide +kernel)
  simp [TokenType.inferText?, TokenType.looksLikeColour, trimmedFirst, isColourFunction, noHead,
    dimension?, isDuration, quantity?, number?, noNumber]

end Spelling

namespace TokenType

/-- A text that suggests a type is not written as a value of that type. -/
def Misspelled (text : List Char) : TokenType → Prop
  | .color => text.head? = some '#' ∧ Spelling.isHexColour text = false
  | .duration => Spelling.isDuration text = false
  | .number | .opacity => True
  | _ => False

theorem isAlias_of_infer? {value : Json} {t : TokenType} (suggested : infer? value = some t) :
    value.isAlias = false := by
  cases value with
  | str s =>
      rw [Json.isAlias, Bool.eq_false_iff]
      intro reference
      rw [infer?, Spelling.inferText?_of_isReference reference] at suggested
      cases suggested
  | _ => rfl

/-- A number is accepted by the type that it suggests. -/
theorem accepts_ofRange {value : Json} (isNumber : value.isNumber = true) :
    (ofRange (value.between 0 1)).Accepts value := by
  have noAlias : value.isAlias = false := by
    cases value with
    | int | float => rfl
    | _ => cases isNumber
  intro path d mem
  cases inUnit : value.between 0 1 with
  | true => simp [inUnit, ofRange, check, Rule.opacity, Rule.unlessAlias, noAlias, isNumber] at mem
  | false => simp [inUnit, ofRange, check, Rule.number, Rule.unlessAlias, noAlias, isNumber] at mem

section Text

variable {s : String} (noAlias : (Json.str s).isAlias = false)

include noAlias

theorem accepts_color_iff :
    color.Accepts (.str s) ↔ ¬ (s.toList.head? = some '#' ∧ Spelling.isHexColour s.toList = false) := by
  have judged : color.check (.str s) "" = Rule.colourText s "" := by
    simp [check, Rule.colour, Rule.unlessAlias, noAlias]
  rw [accepts_iff _ _ "", judged, Rule.colourText]
  split
  · rename_i wrong
    refine iff_of_false (fun fine => ?_) fun right => right (by simpa using wrong)
    cases fine _ (List.mem_singleton_self _)
  · rename_i right
    exact iff_of_true nofun (by simpa using right)

theorem accepts_duration_iff : duration.Accepts (.str s) ↔ Spelling.isDuration s.toList = true := by
  rw [accepts_iff _ _ "", check, Rule.duration, Rule.unlessAlias, noAlias, if_neg (by decide)]
  split
  · rename_i right
    exact iff_of_true nofun right
  · rename_i wrong
    refine iff_of_false (fun fine => ?_) wrong
    cases fine _ (List.mem_singleton_self _)

theorem not_accepts_ofRange (inUnit : Bool) : ¬ (ofRange inUnit).Accepts (.str s) := by
  intro accepts
  cases inUnit with
  | true =>
      have judged : (ofRange true).check (.str s) "" =
          [.error "OPACITY_001" "" "Opacity value must be numeric"
            (some "Use a number between 0 and 1")] := by
        simp [ofRange, check, Rule.opacity, Rule.unlessAlias, noAlias, Json.isNumber]
      cases accepts "" _ (judged ▸ List.mem_singleton_self _)
  | false =>
      have judged : (ofRange false).check (.str s) "" =
          [.error "NUMBER_001" "" "Number value must be numeric" (some "Use a JSON number, e.g. 1.5")] := by
        simp [ofRange, check, Rule.number, Rule.unlessAlias, noAlias, Json.isNumber]
      cases accepts "" _ (judged ▸ List.mem_singleton_self _)

/-- An unusual dimension is only warned of. -/
theorem accepts_dimension (loose : Spelling.isLooseDimension s.toList = true) :
    dimension.Accepts (.str s) := by
  have judged : dimension.check (.str s) "" = (Rule.Measure.ofLabel "dimension").text s "" := by
    simp [check, Rule.measure, Rule.unlessAlias, noAlias, Rule.Measure.check]
  rw [accepts_iff _ _ "", judged, Rule.Measure.text, loose]
  intro d mem
  split at mem
  · cases mem
  · rw [if_pos rfl, List.mem_singleton] at mem
    rw [mem]
    rfl

end Text

/-- A text is accepted by the type that it suggests unless it is misspelled. -/
theorem accepts_str_iff {s : String} {t : TokenType} (suggested : infer? (.str s) = some t) :
    t.Accepts (.str s) ↔ ¬ Misspelled s.toList t := by
  have noAlias := isAlias_of_infer? suggested
  rw [infer?, inferText?] at suggested
  split at suggested
  · cases suggested
    exact accepts_color_iff noAlias
  · split at suggested
    · rename_i isDimension
      cases suggested
      exact iff_of_true (accepts_dimension noAlias (Spelling.isLooseDimension_of_trim isDimension)) id
    · split at suggested
      · cases suggested
        rw [accepts_duration_iff noAlias, Misspelled, Bool.not_eq_false]
      · obtain ⟨x, -, rfl⟩ := Option.map_eq_some_iff.1 suggested
        refine iff_of_false (not_accepts_ofRange noAlias _) fun right => right ?_
        unfold ofRange
        split <;> exact trivial

/-- **A value is accepted by the type that it suggests, unless it is a misspelled text.** -/
theorem accepts_iff_of_infer? {value : Json} {t : TokenType} (suggested : infer? value = some t) :
    t.Accepts value ↔ ∀ s, value = .str s → ¬ Misspelled s.toList t := by
  cases value with
  | str s => simpa using accepts_str_iff suggested
  | int n =>
      cases suggested
      exact iff_of_true (accepts_ofRange rfl) nofun
  | float x =>
      cases suggested
      have inRange : (ofRange ((Json.float x).between 0 1)).Accepts (.float x) := accepts_ofRange rfl
      exact iff_of_true inRange nofun
  | _ => cases suggested

end TokenType

end DesignTokens
