/-
# DesignTokens.Proofs.Rule.Dimension -- the readings of a dimension text agree

A text is looked at for a dimension in three places.  The rule for dimensions takes it as it stands,
and only warns of one in the loose form; the guess of a type and the structured form leave the blanks
at its ends out.  What the rule has nothing to say about has a structured form; a text has one exactly
if it suggests a dimension; and then the rule has nothing to say about that form and at most warns of
the text (`Dimension.readings_agree`).
-/
import DesignTokens.Proofs.Normal.Clean
import DesignTokens.Proofs.Rule.Suggested

namespace DesignTokens

set_option autoImplicit false

open Text

namespace Spelling

/-- No dimension looks like a colour. -/
theorem looksLikeColour_of_dimension? {s : List Char} (reads : (dimension? s).isSome = true) :
    TokenType.looksLikeColour s = false := by
  obtain ⟨⟨number, unit⟩, reads⟩ := Option.isSome_iff_exists.1 reads
  obtain ⟨isNumber, -, end_, -, rfl⟩ := dimension?_eq_some_iff.1 reads
  exact isNumber.looksLikeColour_append _

end Spelling

namespace Dimension

/-- A structured dimension: a number with a standard unit. -/
inductive IsStructured : Json → Prop
  | mk {value : Json} {unit : String} (isNumber : value.isNumber = true)
      (known : unit ∈ Spelling.dimensionUnits) :
      IsStructured (.obj [("value", value), ("unit", .str unit)])

/-- A text has a structured form exactly if it is a dimension without the blanks at its ends. -/
theorem ofText?_cases (s : List Char) :
    (Spelling.dimension? (trim s) = none ∧ ofText? s = none) ∨
      ((Spelling.dimension? (trim s)).isSome = true ∧
        ∃ ms, ofText? s = some ms ∧ IsStructured (.obj ms)) := by
  unfold ofText?
  cases reads : Spelling.dimension? (trim s) with
  | none => exact .inl ⟨rfl, rfl⟩
  | some quantity =>
      obtain ⟨number, unit⟩ := quantity
      obtain ⟨isNumber, known, -⟩ := Spelling.dimension?_eq_some_iff.1 reads
      obtain ⟨x, hasValue⟩ := Spelling.exists_readDecimal? isNumber
      refine .inr ⟨rfl, [("value", ofDouble x), ("unit", .str unit)], by simp [hasValue], ?_⟩
      exact .mk (isNumber_ofDouble x) known

end Dimension

section Text

variable {s : String} (noAlias : (Json.str s).isAlias = false)

include noAlias

theorem TokenType.check_dimension (path : String) :
    dimension.check (.str s) path = (Rule.Measure.ofLabel "dimension").text s path := by
  simp [check, Rule.measure, Rule.unlessAlias, noAlias, Rule.Measure.check]

/-- **The readings of a dimension agree.**  A text that the rule for dimensions has nothing to say about
has a structured form.  A text has one exactly if it suggests a dimension.  The rule has nothing to say
about a structured form that comes of a text, and at most warns of the text. -/
theorem Dimension.readings_agree :
    (∀ path, TokenType.dimension.check (.str s) path = [] → IsStructured (ofValue (.str s))) ∧
    ((ofValue (.str s)).isObject = true ↔ TokenType.infer? (.str s) = some .dimension) ∧
    ((ofValue (.str s)).isObject = true →
      (∀ path, TokenType.dimension.check (ofValue (.str s)) path = []) ∧
      ∀ path, TokenType.dimension.check (.str s) path = [] ∨
        TokenType.dimension.check (.str s) path =
          [.warning "DIMENSION_003" path "Unusual dimension format" (some Rule.Measure.unitsHint)]) := by
  rcases ofText?_cases s.toList with ⟨unread, noForm⟩ | ⟨read, ms, form, structured⟩
  case inl =>
    have kept : ofValue (.str s) = .str s := by simp [ofValue, noForm]
    refine ⟨fun path nothing => ?_, ?_, ?_⟩
    · -- The rule says nothing only of a dimension, and trimming would not have hidden it.
      rw [TokenType.check_dimension noAlias, Rule.Measure.text] at nothing
      split at nothing
      · rename_i isDimension
        obtain ⟨⟨number, unit⟩, reads⟩ := Option.isSome_iff_exists.1 isDimension
        rw [Spelling.dimension?_trim reads] at unread
        cases unread
      · split at nothing <;> cases nothing
    · rw [kept]
      refine iff_of_false (by simp [Json.isObject]) fun suggested => ?_
      rw [TokenType.infer?, TokenType.inferText?, unread] at suggested
      split at suggested
      · cases suggested
      · simp at suggested
        split at suggested
        · cases suggested
        · obtain ⟨x, -, range⟩ := Option.map_eq_some_iff.1 suggested
          unfold TokenType.ofRange at range
          split at range <;> cases range
    · rw [kept]
      intro isObject
      cases isObject
  case inr =>
    have becomes : ofValue (.str s) = .obj ms := by simp [ofValue, form]
    have noColour := Spelling.looksLikeColour_of_dimension? read
    rw [becomes]
    refine ⟨fun _ _ => structured, iff_of_true rfl ?_, fun _ => ⟨fun path => ?_, fun path => ?_⟩⟩
    · simp [TokenType.infer?, TokenType.inferText?, noColour, read]
    · exact Rule.measure_ofText? form "dimension" path
    · rw [TokenType.check_dimension noAlias, Rule.Measure.text, Spelling.isLooseDimension_of_trim read]
      split
      · exact .inl rfl
      · exact .inr rfl

end Text

namespace Example

/-- One and a half, in digits of two scripts, with blanks around. -/
def paddedSize : String := " 1.५rem\n"

/-- The padded text suggests a dimension and has a structured form, and the rule warns of it. -/
theorem paddedSize_agrees :
    (Json.str paddedSize).isAlias = false ∧ TokenType.infer? (.str paddedSize) = some .dimension ∧
      (∀ path, TokenType.dimension.check (Dimension.ofValue (.str paddedSize)) path = []) ∧
      TokenType.dimension.check (.str paddedSize) "$.gap" =
        [.warning "DIMENSION_003" "$.gap" "Unusual dimension format" (some Rule.Measure.unitsHint)] := by
  have noAlias : (Json.str paddedSize).isAlias = false := by decide
  have isObject : (Dimension.ofValue (.str paddedSize)).isObject = true := by decide +kernel
  obtain ⟨-, suggests, finds⟩ := Dimension.readings_agree noAlias
  obtain ⟨formPasses, atMost⟩ := finds isObject
  refine ⟨noAlias, suggests.1 isObject, formPasses, (atMost "$.gap").resolve_left fun nothing => ?_⟩
  -- The text starts with a blank, so it is no dimension as it stands.
  have found : (TokenType.dimension.check (.str paddedSize) "$.gap").isEmpty = false := by decide +kernel
  rw [nothing] at found
  cases found

end Example

end DesignTokens
