/-
# DesignTokens.Proofs.Rule.Shadow -- what passes as a shadow

A shadow is an object with a colour, two offsets and a blur whose colour passes as one (`Members.IsShadow`).
The value of a shadow token is meant to be a layer, that is a reference or a shadow, or a list of layers
(`Json.IsShadowValue`).

The rule judges an item of a list as it judges the whole value, lists included.  So lists within lists are
taken apart to any depth, and what has to be in order are the layers that are left (`Json.layers`,
`shadow_eq_nil_iff`).  An empty list in a list leaves none, and nothing is asked of it: what passes and is
not meant to is a list with a list among its items, and nothing else (`shadow_passes_iff`).
-/
import DesignTokens.Proofs.Rule.Kinds

namespace DesignTokens

set_option autoImplicit false

/-! ## Layers -/

/-- A shadow: the required properties are there, and the colour passes. -/
structure Members.IsShadow (ms : Members) : Prop where
  complete : ∀ name ∈ ["color", "offsetX", "offsetY", "blur"], ms.has name = true
  colour : ∀ value, ms.get? "color" = some value → TokenType.color.Passes value

namespace Json

inductive IsLayer : Json → Prop where
  | reference {value : Json} (isAlias : value.isAlias = true) : IsLayer value
  | shadow {ms : Members} (isShadow : ms.IsShadow) : IsLayer (.obj ms)

/-- What the value of a shadow token is meant to be. -/
inductive IsShadowValue : Json → Prop where
  | single {value : Json} (isLayer : value.IsLayer) : IsShadowValue value
  | list {layers : List Json} (areLayers : ∀ layer ∈ layers, layer.IsLayer) : IsShadowValue (.arr layers)

theorem isLayer_obj_iff {ms : Members} : (Json.obj ms).IsLayer ↔ ms.IsShadow := by
  constructor
  · rintro (isAlias | isShadow)
    · cases isAlias
    · exact isShadow
  · exact .shadow

theorem isLayer_iff_isAlias {value : Json} (noObject : value.isObject = false) :
    value.IsLayer ↔ value.isAlias = true := by
  constructor
  · rintro (isAlias | isShadow)
    · exact isAlias
    · cases noObject
  · exact .reference

def isList : Json → Bool
  | .arr _ => true
  | _ => false

theorem isList_eq_false_of_isLayer {value : Json} (isLayer : value.IsLayer) : value.isList = false := by
  cases value with
  | arr items => cases (isLayer_iff_isAlias rfl).1 isLayer
  | _ => rfl

/-- A list with a list among its items. -/
def isNested : Json → Bool
  | .arr items => items.any isList
  | _ => false

mutual

/-- The layers of a value: those of its items if it is a list, else the value alone. -/
def layers : Json → List Json
  | .arr items => layersOf items
  | value => [value]

def layersOf : List Json → List Json
  | [] => []
  | item :: items => item.layers ++ layersOf items

end

theorem layers_of_isList_eq_false {value : Json} (noList : value.isList = false) : value.layers = [value] := by
  cases value with
  | arr items => cases noList
  | _ => rfl

/-- Items that are no lists are layers as they are. -/
theorem layersOf_eq_self {items : List Json} (noList : ∀ item ∈ items, item.isList = false) :
    layersOf items = items := by
  induction items with
  | nil => rfl
  | cons item items ih =>
      obtain ⟨first, rest⟩ := List.forall_mem_cons.1 noList
      rw [layersOf, layers_of_isList_eq_false first, ih rest]
      rfl

theorem isNested_arr_eq_false_iff {items : List Json} :
    (Json.arr items).isNested = false ↔ ∀ item ∈ items, item.isList = false := by
  simp [isNested]

/-- The values that are meant are those that are made of layers and are not nested. -/
theorem isShadowValue_iff (value : Json) :
    value.IsShadowValue ↔ (∀ layer ∈ value.layers, layer.IsLayer) ∧ value.isNested = false := by
  have alone (noList : value.isList = false) :
      (∀ layer ∈ value.layers, layer.IsLayer) ↔ value.IsLayer := by
    rw [layers_of_isList_eq_false noList, List.forall_mem_singleton]
  constructor
  · rintro (isLayer | areLayers)
    · have noList := isList_eq_false_of_isLayer isLayer
      refine ⟨(alone noList).2 isLayer, ?_⟩
      cases value with
      | arr items => cases noList
      | _ => rfl
    · have noList := fun item mem => isList_eq_false_of_isLayer (areLayers item mem)
      rw [layers, layersOf_eq_self noList]
      exact ⟨areLayers, isNested_arr_eq_false_iff.2 noList⟩
  · rintro ⟨areLayers, flat⟩
    cases value with
    | arr items =>
        rw [layers, layersOf_eq_self (isNested_arr_eq_false_iff.1 flat)] at areLayers
        exact .list areLayers
    | _ => exact .single ((alone rfl).1 areLayers)

end Json

/-! ## The rule -/

namespace Rule

theorem unlessAlias_eq_nil_iff {value : Json} {found : List Diagnostic} (some_ : found ≠ []) :
    unlessAlias value found = [] ↔ value.isAlias = true := by
  unfold unlessAlias
  split
  · rename_i isAlias
    exact iff_of_true rfl isAlias
  · rename_i noAlias
    exact iff_of_false some_ noAlias

theorem Shape.object_eq_nil_iff (s : Shape) (ms : Members) (path : String) (parts : List Diagnostic) :
    s.object ms path parts = [] ↔ (∀ name ∈ s.required, ms.has name = true) ∧ parts = [] := by
  have complete : s.missing ms = [] ↔ ∀ name ∈ s.required, ms.has name = true := by
    simp [Shape.missing, List.filter_eq_nil_iff]
  unfold Shape.object
  rw [← complete]
  split
  · rename_i none_
    exact (and_iff_right (List.isEmpty_iff.1 none_)).symm
  · rename_i some_
    exact iff_of_false (List.cons_ne_nil _ _) fun both => some_ (List.isEmpty_iff.2 both.1)

theorem shadow_obj_eq_nil_iff (path : String) (ms : Members) : shadow path (.obj ms) = [] ↔ ms.IsShadow := by
  have colour : property ms path "color" Rule.colour = [] ↔
      ∀ value, ms.get? "color" = some value → TokenType.color.Passes value := by
    unfold property
    cases ms.get? "color" with
    | none => simp
    | some value =>
        have same : (∀ value', some value = some value' → TokenType.color.Passes value') ↔
            TokenType.color.Passes value := by simp
        exact (TokenType.color.passes_iff value _).symm.trans same.symm
  rw [shadow, Shape.object_eq_nil_iff, colour]
  exact ⟨fun ⟨complete, passes⟩ => ⟨complete, passes⟩, fun isShadow => ⟨isShadow.complete, isShadow.colour⟩⟩

mutual

theorem shadow_eq_nil_iff (path : String) (value : Json) :
    shadow path value = [] ↔ ∀ layer ∈ value.layers, layer.IsLayer := by
  cases value with
  | arr items => exact shadowLayers_eq_nil_iff path 0 items
  | obj ms =>
      rw [Json.layers_of_isList_eq_false rfl, List.forall_mem_singleton, Json.isLayer_obj_iff]
      exact shadow_obj_eq_nil_iff path ms
  | _ =>
      rw [Json.layers_of_isList_eq_false rfl, List.forall_mem_singleton, Json.isLayer_iff_isAlias rfl]
      exact unlessAlias_eq_nil_iff (List.cons_ne_nil _ _)

theorem shadowLayers_eq_nil_iff (path : String) (index : Nat) (items : List Json) :
    shadowLayers path index items = [] ↔ ∀ layer ∈ Json.layersOf items, layer.IsLayer := by
  cases items with
  | nil => exact iff_of_true rfl nofun
  | cons item items =>
      rw [shadowLayers, Json.layersOf, List.append_eq_nil_iff, List.forall_mem_append]
      exact and_congr (shadow_eq_nil_iff _ item) (shadowLayers_eq_nil_iff path (index + 1) items)

end

end Rule

namespace TokenType

/-- **A value passes as a shadow if its layers are in order, however deep they stand in lists.**  It is
what it is meant to be unless it has a list among its items. -/
theorem shadow_passes_iff (value : Json) (path : String) :
    (TokenType.shadow.check value path = [] ↔ ∀ layer ∈ value.layers, layer.IsLayer) ∧
      (value.IsShadowValue ↔ TokenType.shadow.check value path = [] ∧ value.isNested = false) := by
  have passes : TokenType.shadow.check value path = [] ↔ ∀ layer ∈ value.layers, layer.IsLayer :=
    Rule.shadow_eq_nil_iff path value
  refine ⟨passes, ?_⟩
  rw [passes]
  exact value.isShadowValue_iff

namespace Example

/-- An empty list in a list passes, and is neither a reference nor a shadow. -/
theorem nestedList_passes :
    TokenType.shadow.check (.arr [.arr []]) "$.g.t.$value" = [] ∧
      ¬ (Json.arr [.arr []]).IsShadowValue := by
  refine ⟨rfl, fun meant => ?_⟩
  cases ((Json.arr [.arr []]).isShadowValue_iff.1 meant).2

end Example

end TokenType

end DesignTokens
