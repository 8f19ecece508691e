/-
# DesignTokens.Proofs.Validation.Conformance -- when a document is valid

A document is valid if a check finds no error in it.  What that asks of a document can be said
without the check (`Json.Conforms`): its root entries have the right form, and every node that a
chain of keys leads to, down from a token group and through groups alone, is in order
(`Json.InOrder`).  The two agree on every document (`isValid_iff_conforms`).

The type under which a value is judged belongs to the chain and not to the walk: it is the token's
own, or the nearest known one named above it.  A token with an unknown tag is not judged, and one
without any type is only told what its type could be.
-/
import DesignTokens.Proofs.Rule.Kinds
import DesignTokens.Proofs.Validation.Findings

namespace DesignTokens

set_option autoImplicit false

/-- What is asked of a node below a token group: it is an object; without children it has a value;
and its value, if it has one, is accepted by the type it is known to have. -/
def Json.InOrder (handed : Option TokenType) : Json → Prop
  | .obj ms =>
      (Members.childKeys ms = [] → Members.hasValue ms = true) ∧
        (Members.hasValue ms = true → ∀ t, Members.typeOr ms handed = some t →
          t.Accepts (Members.tokenValue ms))
  | _ => False

/-- What is asked of the members of a document. -/
structure Members.Conform (document : Members) : Prop where
  schema : ∀ value, document.get? Key.schema = some value → value.isString = true
  brand : ∀ value, document.get? Key.brand = some value → value.isObject = true
  entries : ∀ name value, document.get? name = some value → Key.isMeta name = false →
    name ≠ Key.brand → value.isObject = true
  nodes : ∀ (name : String) (group : Members) (below : KeyChain) (node : Json),
    document.get? name = some (.obj group) → isTokenGroup name (.obj group) = true →
      group.Leads below node → node.InOrder ((Json.obj document).handedDown none (name :: below))

/-- What is asked of a document. -/
def Json.Conforms : Json → Prop
  | .obj ms => Members.Conform ms
  | _ => False

namespace Validation

/-! ## Nodes -/

/-- A check finds no error at an object exactly if the object is in order. -/
theorem isError_foundAt_obj_iff (keys : KeyChain) (handed : Option TokenType) (ms : Members) :
    (∀ d ∈ foundAt keys handed (.obj ms), d.isError = false) ↔ (Json.obj ms).InOrder handed := by
  rw [foundAt, Json.InOrder]
  cases value : ms.valueKey? with
  | some key =>
      have hasValue : ms.hasValue = true := by rw [Members.hasValue, value]; rfl
      have isToken : ms.isToken = true := by rw [Members.isToken, hasValue, Bool.true_or]
      rw [if_pos isToken, isError_checkToken_iff value]
      simp only [hasValue, implies_true, true_and, forall_const]
      exact forall₂_congr fun t _ => (t.accepts_iff _ _).symm
  | none =>
      have noValue : ms.hasValue = false := by rw [Members.hasValue, value]; rfl
      cases children : ms.childKeys with
      | nil =>
          have isToken : ms.isToken = true := by rw [Members.isToken, children]; simp
          rw [if_pos isToken, checkToken, value]
          refine iff_of_false (fun fine => ?_) fun inOrder => ?_
          · cases fine (missingValue ms (Path.join keys)) (List.mem_singleton_self _)
          · rw [noValue] at inOrder
            cases inOrder.1 rfl
      | cons key rest =>
          have isGroup : ms.isToken = false := by rw [Members.isToken, noValue, children]; rfl
          rw [if_neg (by simp [isGroup])]
          refine iff_of_true (isError_checkGroupTag _ _) ⟨fun childless => ?_, fun hasValue => ?_⟩
          · cases childless
          · rw [noValue] at hasValue
            cases hasValue

/-- A check finds no error at a node exactly if the node is in order. -/
theorem isError_foundAt_iff (keys : KeyChain) (handed : Option TokenType) (node : Json) :
    (∀ d ∈ foundAt keys handed node, d.isError = false) ↔ node.InOrder handed := by
  cases node with
  | obj ms => exact isError_foundAt_obj_iff keys handed ms
  | _ =>
      refine iff_of_false (fun fine => ?_) id
      cases fine _ (List.mem_singleton_self _)

/-! ## The root -/

theorem isError_checkReserved (key : String) : ∀ d ∈ checkReserved key, d.isError = false := by
  unfold checkReserved
  split
  · intro d mem
    rw [List.mem_singleton.1 mem]
    rfl
  · nofun

theorem isError_checkSchema_iff (v : Validator) (document : Members) :
    (∀ d ∈ checkSchema v document, d.isError = false) ↔
      ∀ value, document.get? Key.schema = some value → value.isString = true := by
  unfold checkSchema
  cases document.get? Key.schema with
  | none =>
      refine iff_of_true (fun d mem => ?_) nofun
      dsimp only at mem
      split at mem
      · rw [List.mem_singleton.1 mem]
        rfl
      · cases mem
  | some value =>
      cases value with
      | str s =>
          refine iff_of_true nofun fun value same => ?_
          cases same
          rfl
      | _ =>
          refine iff_of_false (fun fine => ?_) fun isString => ?_
          · cases fine _ (List.mem_singleton_self _)
          · cases isString _ rfl

/-- At the root only a schema that is no text is an error. -/
theorem isError_checkRoot_iff (v : Validator) (document : Members) :
    (∀ d ∈ checkRoot v document, d.isError = false) ↔
      ∀ value, document.get? Key.schema = some value → value.isString = true := by
  rw [← isError_checkSchema_iff v]
  refine ⟨fun fine d mem => fine d ?_, fun fine d mem => ?_⟩
  · exact List.mem_append_left _ (List.mem_append_left _ mem)
  · rcases List.mem_append.1 mem with first | tag
    · rcases List.mem_append.1 first with inSchema | reserved
      · exact fine d inSchema
      · obtain ⟨key, -, inKey⟩ := List.mem_flatMap.1 reserved
        exact isError_checkReserved key d inKey
    · split at tag
      · exact isError_checkTag _ _ d tag
      · cases tag

theorem isError_checkBrand_iff (brand : Json) :
    (∀ d ∈ checkBrand brand, d.isError = false) ↔ brand.isObject = true := by
  cases brand with
  | obj ms =>
      refine iff_of_true (fun d mem => ?_) rfl
      obtain ⟨field, -, rfl⟩ := List.mem_map.1 mem
      rfl
  | _ =>
      refine iff_of_false (fun fine => ?_) nofun
      cases fine _ (List.mem_singleton_self _)

/-- A root entry is in order if it is an object and every node below it is in order. -/
theorem isError_checkEntry_iff {document : Members} (keyed : (Json.obj document).isKeyed = true)
    {name : String} {value : Json} (found : document.get? name = some value) :
    (∀ d ∈ checkEntry name document.groupType? value, d.isError = false) ↔
      ∃ group : Members, value = .obj group ∧ ∀ below node, group.Leads below node →
        node.InOrder ((Json.obj document).handedDown none (name :: below)) := by
  cases value with
  | obj group =>
      simp only [mem_checkEntry_iff found (Members.isKeyed_of_get? keyed found), Json.obj.injEq,
        exists_eq_left']
      constructor
      · intro fine below node leads
        exact (isError_foundAt_iff _ _ node).1 fun d mem => fine d (.inr ⟨below, node, leads, mem⟩)
      · rintro inOrder d (tag | ⟨below, node, leads, mem⟩)
        · exact isError_checkGroupTag _ _ d tag
        · exact (isError_foundAt_iff _ _ node).2 (inOrder below node leads) d mem
  | _ =>
      refine iff_of_false (fun fine => ?_) nofun
      cases fine _ (List.mem_singleton_self _)

end Validation

/-! ## Documents -/

open Validation

theorem Findings.isValid_ofDiagnostics (found : List Diagnostic) (clusters : List Cluster) :
    (ofDiagnostics found clusters).isValid = true ↔ ∀ d ∈ found, d.isError = false := by
  rw [isValid, ofDiagnostics, List.isEmpty_iff, List.filter_eq_nil_iff]
  simp only [Bool.not_eq_true]

/-- A check finds no error in the members of a document exactly if they conform. -/
theorem Validation.isError_checkDocument_iff (v : Validator) {document : Members}
    (keyed : (Json.obj document).isKeyed = true) :
    (∀ d ∈ checkDocument v document, d.isError = false) ↔ document.Conform := by
  simp only [mem_checkDocument_iff v keyed]
  constructor
  · intro fine
    have entry (name : String) (value : Json) (found : document.get? name = some value)
        (notMeta : Key.isMeta name = false) (notBrand : name ≠ Key.brand) :=
      (isError_checkEntry_iff keyed found).1 fun d mem =>
        fine d (.inr (.inr ⟨name, value, ⟨found, notMeta, notBrand⟩, mem⟩))
    refine ⟨?schema, ?brand, ?entries, ?nodes⟩
    case schema => exact (isError_checkRoot_iff v document).1 fun d mem => fine d (.inl mem)
    case brand =>
      intro value found
      exact (isError_checkBrand_iff value).1 fun d mem => fine d (.inr (.inl ⟨value, found, mem⟩))
    case entries =>
      intro name value found notMeta notBrand
      obtain ⟨group, rfl, -⟩ := entry name value found notMeta notBrand
      rfl
    case nodes =>
      intro name group below node found isGroup leads
      obtain ⟨notMeta, notBrand, -⟩ := (isTokenGroup_iff _ _).1 isGroup
      obtain ⟨group', same, inOrder⟩ := entry name _ found notMeta notBrand
      cases same
      exact inOrder below node leads
  · rintro conform d (atRoot | ⟨brand, found, mem⟩ | ⟨name, value, ⟨found, notMeta, notBrand⟩, mem⟩)
    · exact (isError_checkRoot_iff v document).2 conform.schema d atRoot
    · exact (isError_checkBrand_iff brand).2 (conform.brand brand found) d mem
    · refine (isError_checkEntry_iff keyed found).2 ?_ d mem
      have isObject := conform.entries name value found notMeta notBrand
      cases value with
      | obj group =>
          refine ⟨group, rfl, fun below node leads => ?_⟩
          have isGroup := (isTokenGroup_iff _ _).2 ⟨notMeta, notBrand, isObject⟩
          exact conform.nodes name group below node found isGroup leads
      | _ => cases isObject

/-- **A document is valid exactly if it conforms.** -/
theorem isValid_iff_conforms (v : Validator) {document : Json} (keyed : document.isKeyed = true) :
    (v.validate document).isValid = true ↔ document.Conforms := by
  cases document with
  | obj ms =>
      rw [Validator.validate, Findings.isValid_ofDiagnostics]
      exact isError_checkDocument_iff v keyed
  | _ =>
      refine iff_of_false (fun valid => ?_) id
      cases valid

namespace Example

def lenient : Validator := ⟨false, ""⟩

/-- A token below a group whose tag is unknown, in a group of dimensions. -/
def gap (value : Json) : Json :=
  .obj [("sizes", .obj [("$type", .str "dimension"),
    ("gaps", .obj [("$type", .str "gap"), ("small", .obj [("$value", value)])])])]

/-- The token is judged as a dimension, by the nearest known type. -/
theorem gap_conforms_as_dimension :
    (gap (.str "4px")).isKeyed = true ∧ (gap (.int 4)).isKeyed = true ∧
      (gap (.str "4px")).Conforms ∧ ¬ (gap (.int 4)).Conforms := by
  have keyed (value : Json) (bare : value.isKeyed = true) : (gap value).isKeyed = true := by
    simp [gap, Json.isKeyed, keyedMembers, bare]
  refine ⟨keyed _ rfl, keyed _ rfl, ?_, ?_⟩
  · exact (isValid_iff_conforms lenient (keyed _ rfl)).1 rfl
  · rw [← isValid_iff_conforms lenient (keyed _ rfl)]
    decide

end Example

end DesignTokens
