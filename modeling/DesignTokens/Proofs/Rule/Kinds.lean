/-
# DesignTokens.Proofs.Rule.Kinds -- what a rule finds does not depend on the place

A rule is handed the place of the value that it judges, and uses it to say where something is wrong.
Which of its findings it makes, and how severe they are, is a matter of the value alone: wherever the
value stands, the findings are alike (`TokenType.alike_check`).  So a type accepts a value or it does
not (`TokenType.Accepts`), a value passes as one of the type or it does not (`TokenType.Passes`), and one
place decides (`accepts_iff`, `passes_iff`).

The identifiers of these findings are their own (`valueRules`): none of them is used for what a check
finds in the document around the values.
-/
import DesignTokens.Rule.Composite

namespace DesignTokens

set_option autoImplicit false

namespace Rule

/-- The identifiers under which the rules for values report. -/
def valueRules : List String :=
  ["COLOR_001", "COLOR_002", "COLOR_003", "COLOR_004",
    "DIMENSION_001", "DIMENSION_002", "DIMENSION_003", "DIMENSION_004", "DIMENSION_005",
    "DIMENSION_006",
    "FONT_WEIGHT_001", "FONT_WEIGHT_002", "FONT_WEIGHT_003", "FONT_WEIGHT_004", "FONT_WEIGHT_005",
    "FONT_WEIGHT_006", "FONT_WEIGHT_007",
    "NUMBER_001", "OPACITY_001", "OPACITY_002", "FONT_FAMILY_001",
    "DURATION_001", "DURATION_002", "DURATION_003", "CUBIC_BEZIER_001",
    "TEXT_CASE_001", "TEXT_DECORATION_001",
    "STROKE_STYLE_001", "STROKE_STYLE_002", "STROKE_STYLE_003",
    "TYPOGRAPHY_001", "TYPOGRAPHY_002", "SHADOW_001", "SHADOW_002",
    "GRADIENT_001", "GRADIENT_002", "GRADIENT_003", "GRADIENT_004", "GRADIENT_005",
    "BORDER_001", "BORDER_002", "TRANSITION_001", "TRANSITION_002", "TRANSITION_003"]

/-- A finding without its place and its texts: which rule made it, and how severe it is. -/
def kind (d : Diagnostic) : Option String × Severity :=
  (d.ruleId, d.severity)

/-- Findings of the rules for values that differ in places and texts only. -/
structure Alike (found found' : List Diagnostic) : Prop where
  kinds : found.map kind = found'.map kind
  named : ∀ d ∈ found, ∃ id ∈ valueRules, d.ruleId = some id

namespace Alike

theorem nil : Alike [] [] := ⟨rfl, nofun⟩

theorem single {d d' : Diagnostic} {id : String} (name : d.ruleId = some id)
    (known : id ∈ valueRules) (same : kind d = kind d') : Alike [d] [d'] := by
  refine ⟨congrArg (fun k => [k]) same, fun e mem => ?_⟩
  rw [List.mem_singleton.1 mem]
  exact ⟨id, known, name⟩

theorem append {a a' b b' : List Diagnostic} (first : Alike a a') (second : Alike b b') :
    Alike (a ++ b) (a' ++ b') := by
  refine ⟨?_, fun d mem => ?_⟩
  · rw [List.map_append, List.map_append, first.kinds, second.kinds]
  · rcases List.mem_append.1 mem with inA | inB
    · exact first.named d inA
    · exact second.named d inB

/-- Findings that are alike are errors alike. -/
theorem noErrors_iff {found found' : List Diagnostic} (alike : Alike found found') :
    (∀ d ∈ found, d.isError = false) ↔ ∀ d ∈ found', d.isError = false := by
  have kinds (found : List Diagnostic) :
      (∀ d ∈ found, d.isError = false) ↔ ∀ k ∈ found.map kind, (k.2 == .error) = false := by
    simp [kind, Diagnostic.isError]
  rw [kinds, kinds, alike.kinds]

theorem unlessAlias (value : Json) {found found' : List Diagnostic} (alike : Alike found found') :
    Alike (Rule.unlessAlias value found) (Rule.unlessAlias value found') := by
  unfold Rule.unlessAlias
  split
  · exact nil
  · exact alike

end Alike

variable (value : Json) (path path' : String)

/-! ## Values of one part -/

theorem alike_colour : Alike (colour value path) (colour value path') := by
  refine .unlessAlias value ?_
  cases value with
  | obj ms =>
      show Alike (colourObject ms path) (colourObject ms path')
      unfold colourObject
      split
      · split
        · exact .nil
        · exact .single rfl (by decide) rfl
      · exact .single rfl (by decide) rfl
  | str s =>
      show Alike (colourText s path) (colourText s path')
      unfold colourText
      split
      · exact .single rfl (by decide) rfl
      · exact .nil
  | _ => exact .single rfl (by decide) rfl

theorem alike_measureCheck (r : Measure)
    (known : ∀ number ∈ ["_001", "_002", "_003", "_004", "_005", "_006"],
      r.family ++ number ∈ valueRules) :
    Alike (r.check value path) (r.check value path') := by
  cases value with
  | obj ms =>
      show Alike (r.object ms path) (r.object ms path')
      unfold Measure.object
      split
      · refine .append ?_ ?_
        · split
          · exact .nil
          · exact .single rfl (known _ (by decide)) rfl
        · split
          · exact .nil
          · exact .single rfl (known _ (by decide)) rfl
      · exact .single rfl (known _ (by decide)) rfl
  | str s =>
      show Alike (r.text s path) (r.text s path')
      unfold Measure.text
      split
      · exact .nil
      · split
        · exact .single rfl (known _ (by decide)) rfl
        · exact .single rfl (known _ (by decide)) rfl
  | _ =>
      unfold Measure.check
      dsimp only
      split
      · exact .nil
      · exact .single rfl (known _ (by decide)) rfl

theorem alike_measure (label : String) :
    Alike (measure label value path) (measure label value path') := by
  have known : ∀ number ∈ ["_001", "_002", "_003", "_004", "_005", "_006"],
      "DIMENSION" ++ number ∈ valueRules := by decide
  exact .unlessAlias value (alike_measureCheck value path path' (Measure.ofLabel label) known)

theorem alike_lineHeight : Alike (lineHeight value path) (lineHeight value path') :=
  .unlessAlias value (alike_measureCheck value path path' _ (by decide))

theorem alike_fontWeightNumber :
    Alike (fontWeightNumber value path) (fontWeightNumber value path') := by
  unfold fontWeightNumber
  split
  · exact .nil
  · exact .single rfl (by decide) rfl

theorem alike_fontWeight : Alike (fontWeight value path) (fontWeight value path') := by
  refine .unlessAlias value ?_
  cases value with
  | int n => exact alike_fontWeightNumber _ path path'
  | float x => exact alike_fontWeightNumber _ path path'
  | str s =>
      dsimp only
      split
      · exact .nil
      · split
        · exact alike_fontWeightNumber _ path path'
        · exact alike_measureCheck _ path path' _ (by decide)
  | _ => exact alike_measureCheck _ path path' _ (by decide)

theorem alike_number : Alike (number value path) (number value path') := by
  refine .unlessAlias value ?_
  split
  · exact .nil
  · exact .single rfl (by decide) rfl

theorem alike_opacity : Alike (opacity value path) (opacity value path') := by
  refine .unlessAlias value ?_
  split
  · exact .single rfl (by decide) rfl
  · split
    · exact .nil
    · exact .single rfl (by decide) rfl

theorem alike_fontFamily : Alike (fontFamily value path) (fontFamily value path') := by
  refine .unlessAlias value ?_
  split
  · exact .nil
  · exact .single rfl (by decide) rfl

theorem alike_duration : Alike (duration value path) (duration value path') := by
  refine .unlessAlias value ?_
  cases value with
  | int n => exact .nil
  | float x => exact .nil
  | str s =>
      dsimp only
      split
      · exact .nil
      · exact .single rfl (by decide) rfl
  | obj ms =>
      dsimp only
      split
      · exact .nil
      · exact .single rfl (by decide) rfl
  | _ => exact .single rfl (by decide) rfl

theorem alike_keywordsCheck (k : Keywords) (known : k.family ++ "_001" ∈ valueRules) :
    Alike (k.check value path) (k.check value path') := by
  unfold Keywords.check
  split
  · exact .nil
  · exact .single rfl known rfl

theorem alike_textCase : Alike (textCase value path) (textCase value path') :=
  .unlessAlias value (alike_keywordsCheck value path path' _ (by decide))

theorem alike_textDecoration : Alike (textDecoration value path) (textDecoration value path') :=
  .unlessAlias value (alike_keywordsCheck value path path' _ (by decide))

theorem alike_strokeStyle : Alike (strokeStyle value path) (strokeStyle value path') := by
  refine .unlessAlias value ?_
  cases value with
  | obj ms =>
      refine .append ?_ ?_
      · split
        · exact .nil
        · exact .single rfl (by decide) rfl
      · split
        · exact .nil
        · exact .single rfl (by decide) rfl
  | _ => exact alike_keywordsCheck _ path path' _ (by decide)

mutual

theorem alike_cubicBezier (path path' : String) (value : Json) :
    Alike (cubicBezier path value) (cubicBezier path' value) := by
  have noCurve (value : Json) : Alike (badCurve value path) (badCurve value path') :=
    .single rfl (by decide) rfl
  cases value with
  | obj ms =>
      rw [cubicBezier, cubicBezier]
      rcases alike_cubicBezierMember path path' ms with
        ⟨none_, none'⟩ | ⟨found, found', some_, some', alike⟩
      · rw [none_, none']
        exact noCurve _
      · rw [some_, some']
        exact alike
  | _ =>
      refine .unlessAlias _ ?_
      split
      · exact .nil
      · exact noCurve _

theorem alike_cubicBezierMember (path path' : String) (ms : List (String × Json)) :
    (cubicBezierMember path ms = none ∧ cubicBezierMember path' ms = none) ∨
      ∃ found found', cubicBezierMember path ms = some found ∧
        cubicBezierMember path' ms = some found' ∧ Alike found found' := by
  cases ms with
  | nil => exact .inl ⟨rfl, rfl⟩
  | cons m rest =>
      obtain ⟨key, value⟩ := m
      rw [cubicBezierMember, cubicBezierMember]
      split
      · exact .inr ⟨_, _, rfl, rfl, alike_cubicBezier _ _ value⟩
      · exact alike_cubicBezierMember path path' rest

end

/-! ## Composite values -/

theorem alike_notAnObject (s : Shape) (known : s.family ++ "_001" ∈ valueRules) :
    Alike (s.notAnObject path) (s.notAnObject path') :=
  .single rfl known rfl

theorem alike_object (s : Shape) (known : s.family ++ "_002" ∈ valueRules) (ms : Members)
    {parts parts' : List Diagnostic} (alike : Alike parts parts') :
    Alike (s.object ms path parts) (s.object ms path' parts') := by
  unfold Shape.object
  split
  · exact alike
  · exact .single rfl known rfl

theorem alike_property (ms : Members) (name : String) {rule : Json → String → List Diagnostic}
    (alike : ∀ value path path', Alike (rule value path) (rule value path')) :
    Alike (property ms path name rule) (property ms path' name rule) := by
  unfold property
  split
  · exact alike _ _ _
  · exact .nil

theorem alike_typography : Alike (typography value path) (typography value path') := by
  refine .unlessAlias value ?_
  cases value with
  | obj ms =>
      refine alike_object path path' _ (by decide) ms (.append (.append (.append ?_ ?_) ?_) ?_)
      · exact alike_property path path' ms _ fun v p p' => alike_measure v p p' _
      · exact alike_property path path' ms _ fun v p p' => alike_measure v p p' _
      · exact alike_property path path' ms _ alike_textCase
      · exact alike_property path path' ms _ alike_textDecoration
  | _ => exact alike_notAnObject path path' _ (by decide)

mutual

theorem alike_shadow (path path' : String) (value : Json) :
    Alike (shadow path value) (shadow path' value) := by
  cases value with
  | arr layers => exact alike_shadowLayers path path' 0 layers
  | obj ms =>
      exact alike_object path path' _ (by decide) ms (alike_property path path' ms _ alike_colour)
  | _ => exact .unlessAlias _ (alike_notAnObject path path' _ (by decide))

theorem alike_shadowLayers (path path' : String) (index : Nat) (layers : List Json) :
    Alike (shadowLayers path index layers) (shadowLayers path' index layers) := by
  cases layers with
  | nil => exact .nil
  | cons layer layers =>
      exact .append (alike_shadow _ _ layer) (alike_shadowLayers path path' (index + 1) layers)

end

theorem alike_gradientStop : Alike (gradientStop value path) (gradientStop value path') := by
  have incomplete (stop : Json) (message : String) :
      Alike [(Diagnostic.error "GRADIENT_004" path message).withActual stop]
        [(Diagnostic.error "GRADIENT_004" path' message).withActual stop] :=
    .single rfl (by decide) rfl
  refine .unlessAlias value ?_
  cases value with
  | obj ms =>
      dsimp only
      split
      · split
        · exact .nil
        · exact .single rfl (by decide) rfl
      · exact incomplete _ _
  | _ => exact incomplete _ _

theorem alike_gradientStops (value : Json) (path other : String) :
    Alike (gradientStops value path) (gradientStops value other) := by
  have all (stops : List (Json × Nat)) :
      Alike (stops.map fun stop => gradientStop stop.1 s!"{path}[{stop.2}]").flatten
        (stops.map fun stop => gradientStop stop.1 s!"{other}[{stop.2}]").flatten := by
    induction stops with
    | nil => exact .nil
    | cons stop stops ih => exact .append (alike_gradientStop stop.1 _ _) ih
  unfold gradientStops
  split
  · exact all _
  · exact .single rfl (by decide) rfl

theorem alike_gradient : Alike (gradient value path) (gradient value path') := by
  refine .unlessAlias value ?_
  cases value with
  | arr items => exact alike_gradientStops _ path path'
  | obj ms =>
      refine alike_object path path' _ (by decide) ms ?_
      exact alike_property path path' ms _ alike_gradientStops
  | _ => exact alike_notAnObject path path' _ (by decide)

theorem alike_border : Alike (border value path) (border value path') := by
  refine .unlessAlias value ?_
  cases value with
  | obj ms => exact alike_object path path' _ (by decide) ms .nil
  | _ => exact alike_notAnObject path path' _ (by decide)

theorem alike_timing : Alike (timing value path) (timing value path') := by
  unfold timing
  split
  · exact .nil
  · exact .single rfl (by decide) rfl

theorem alike_transition : Alike (transition value path) (transition value path') := by
  refine .unlessAlias value ?_
  cases value with
  | obj ms =>
      exact alike_object path path' _ (by decide) ms (alike_property path path' ms _ alike_timing)
  | _ => exact alike_notAnObject path path' _ (by decide)

end Rule

namespace TokenType

open Rule

/-- **The rule of a type makes the same findings wherever a value stands.** -/
theorem alike_check (t : TokenType) (value : Json) (path path' : String) :
    Alike (t.check value path) (t.check value path') := by
  cases t with
  | color => exact alike_colour value path path'
  | dimension | fontSize | letterSpacing | paragraphSpacing | borderRadius =>
      exact alike_measure value path path' _
  | number => exact alike_number value path path'
  | opacity => exact alike_opacity value path path'
  | fontFamily => exact alike_fontFamily value path path'
  | fontWeight => exact alike_fontWeight value path path'
  | lineHeight => exact alike_lineHeight value path path'
  | duration => exact alike_duration value path path'
  | textCase => exact alike_textCase value path path'
  | textDecoration => exact alike_textDecoration value path path'
  | typography => exact alike_typography value path path'
  | shadow => exact alike_shadow path path' value
  | gradient => exact alike_gradient value path path'
  | border => exact alike_border value path path'
  | strokeStyle => exact alike_strokeStyle value path path'
  | transition => exact alike_transition value path path'
  | cubicBezier => exact alike_cubicBezier path path' value

/-- A type accepts a value if its rule finds no error there, wherever the value stands. -/
def Accepts (t : TokenType) (value : Json) : Prop :=
  ∀ path, ∀ d ∈ t.check value path, d.isError = false

/-- One place decides for all. -/
theorem accepts_iff (t : TokenType) (value : Json) (path : String) :
    t.Accepts value ↔ ∀ d ∈ t.check value path, d.isError = false :=
  ⟨fun accepts => accepts path, fun fine path' => (t.alike_check value path path').noErrors_iff.1 fine⟩

/-- The rule of a type finds nothing in a value, not even something to warn of. -/
def Passes (t : TokenType) (value : Json) : Prop :=
  ∀ path, t.check value path = []

theorem passes_iff (t : TokenType) (value : Json) (path : String) :
    t.Passes value ↔ t.check value path = [] := by
  refine ⟨fun passes => passes path, fun nothing path' => ?_⟩
  have sameKinds := (t.alike_check value path path').kinds
  rw [nothing] at sameKinds
  exact List.map_eq_nil_iff.1 sameKinds.symm

/-- A rule for values reports under one of their identifiers. -/
theorem ruleId_of_mem_check {t : TokenType} {value : Json} {path : String} {d : Diagnostic}
    (mem : d ∈ t.check value path) : ∃ id ∈ valueRules, d.ruleId = some id :=
  (t.alike_check value path path).named d mem

end TokenType

end DesignTokens
