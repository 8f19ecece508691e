/-
# DesignTokens.Proofs.Fix.Validity -- whether a document with its types put in is valid

A token without a type is not judged, and one that has been given its type is.  Apart from these
tokens nothing changes for a check: the nodes stay where they are, under the types that were handed
to them.  So a document with types put in is valid exactly if it was valid before and each type
accepts the value it was put on (`Substitution.TypesBelow.conform_iff`).

For a single fix made for a valid document that comes to little.  A type that the token named in the
older spelling was checked before.  A type suggested by the value is accepted unless the value is a
text that is not written as the type asks (`typing_keeps_valid_iff`).
-/
import DesignTokens.Proofs.Fix.Rounds
import DesignTokens.Proofs.Fix.Typings
import DesignTokens.Proofs.Rule.Suggested
import DesignTokens.Proofs.Validation.Conformance

namespace DesignTokens

set_option autoImplicit false

/-! ## Nodes -/

/-- A group is in order whatever it holds. -/
theorem Json.inOrder_of_isGroup {ms : Members} (isGroup : ms.isToken = false) (handed : Option TokenType) :
    (Json.obj ms).InOrder handed := by
  rw [Members.isToken, Bool.or_eq_false_iff] at isGroup
  refine ⟨fun childless => ?_, fun hasValue => ?_⟩
  · rw [childless] at isGroup
    exact absurd isGroup.2 (by decide)
  · rw [isGroup.1] at hasValue
    cases hasValue

namespace UntypedToken.Lacks

variable {u : UntypedToken} {handed : Option TokenType}

/-- As long as it lacks a type, a token is judged by the one it names in the older spelling. -/
theorem typeOr_eq (lacks : u.Lacks handed) :
    u.token.typeOr handed = (u.token.get? Key.legacyType).bind TokenType.ofTag? := by
  have untyped := lacks.untyped
  rw [Members.has, Option.isSome_eq_false_iff, Option.isNone_iff_eq_none] at untyped
  rw [Members.typeOr, untyped, Option.none_or, lacks.unhanded]
  cases u.token.get? Key.legacyType <;> rfl

/-- Such a type is the one that the token can be given. -/
theorem type_of_typeOr (lacks : u.Lacks handed) {t : TokenType}
    (resolved : u.token.typeOr handed = some t) : t = u.type := by
  rw [lacks.typeOr_eq] at resolved
  have told := lacks.told
  rw [UntypedToken.type?, resolved] at told
  exact Option.some.inj told

/-- A token with its type put on is judged by it. -/
theorem inOrder_typed_iff (lacks : u.Lacks handed) :
    (Json.obj u.typed).InOrder handed ↔
      (Json.obj u.token).InOrder handed ∧ u.type.Accepts u.token.tokenValue := by
  rw [Json.InOrder, Json.InOrder]
  simp only [u.hasValue_typed, u.typeOr_typed, u.tokenValue_typed, lacks.hasValue, implies_true, true_and,
    forall_const, Option.some.injEq, forall_eq']
  refine ⟨fun accepts => ⟨fun t resolved => ?_, accepts⟩, fun both => both.2⟩
  rw [lacks.type_of_typeOr resolved]
  exact accepts

end UntypedToken.Lacks

namespace Substitution

variable {σ : Substitution}

/-- If a node is given its type, the type accepts its value. -/
def AcceptedAt (σ : Substitution) (handed : Option TokenType) (node : Json) : Prop :=
  ∀ u : UntypedToken, u.Lacks handed → node = .obj u.token → σ [] ≠ .none →
    u.type.Accepts u.token.tokenValue

/-- A node is in order afterwards if it was before and the type it is given, if any, accepts its value. -/
theorem TypesNode.inOrder_iff {handed : Option TokenType} {node node' : Json}
    (becomes : TypesNode σ handed node node') (keyed : node.isKeyed = true) :
    node'.InOrder handed ↔ node.InOrder handed ∧ σ.AcceptedAt handed node := by
  cases becomes with
  | kept _ nothing => exact (and_iff_left fun u _ _ some_ => absurd (congrFun nothing []) some_).symm
  | @typed u lacks some_ =>
      rw [lacks.inOrder_typed_iff]
      refine and_congr_right fun _ => ⟨fun accepts u' lacks' same _ => ?_, fun accepts => ?_⟩
      · have sameToken := Json.obj.inj same
        rwa [← sameToken, ← lacks.type_eq lacks' sameToken]
      · exact accepts u lacks rfl some_
  | @below group isGroup types =>
      have isGroup' := (types.isToken_eq ((isKeyed_obj_iff group).1 keyed).1).trans isGroup
      refine iff_of_true (Json.inOrder_of_isGroup isGroup' handed)
        ⟨Json.inOrder_of_isGroup isGroup handed, fun u lacks same _ => ?_⟩
      cases same
      rw [lacks.isToken] at isGroup
      cases isGroup

/-! ## Documents -/

/-- What is asked of an entry as a whole is asked of it still. -/
theorem isObject_substitute (σ : Substitution) (value : Json) :
    (value.substitute σ).isObject = value.isObject := by
  cases value <;> rfl

/-- A node below a token group is in order afterwards as `TypesNode.inOrder_iff` says. -/
theorem TypesBelow.inOrder_iff {document : Members} (types : σ.TypesBelow document)
    (keyed : (Json.obj document).isKeyed = true) {name : String} {group : Members}
    (found : document.get? name = some (.obj group)) {below : KeyChain} {node : Json}
    (leads : group.Leads below node) {handed : Option TokenType}
    (handedOn : (Json.obj document).handedDown .none (name :: below) = handed) :
    ∃ node', (substituteIn (σ.below name) group).Leads below node' ∧
      (node'.InOrder ((Json.obj (substituteIn σ document)).handedDown .none (name :: below)) ↔
        node.InOrder handed ∧ (σ.under (name :: below)).AcceptedAt handed node) := by
  subst handedOn
  obtain ⟨group', found', rfl⟩ := types.paired.get? found
  have groupKeyed := Members.isKeyed_of_get? keyed found
  obtain ⟨node', leads', becomes, handed⟩ := (types.below found).exists_leads leads groupKeyed
  refine ⟨node', leads', ?_⟩
  rw [Json.handedDown_cons found', Json.handedDown_cons found, Option.or_none, Option.or_none,
    types.groupType?_eq]
  show node'.InOrder ((Json.obj (substituteIn (σ.below name) group)).handedDown _ below) ↔ _
  rw [handed]
  exact becomes.inOrder_iff (Json.isKeyed_of_at? groupKeyed leads.at?)

/-- **A document with types put in conforms if it did before and each type accepts its value.** -/
theorem TypesBelow.conform_iff {document : Members} (types : σ.TypesBelow document)
    (keyed : (Json.obj document).isKeyed = true) :
    (substituteIn σ document).Conform ↔ document.Conform ∧
      ∀ (name : String) (group : Members) (below : KeyChain) (u : UntypedToken),
        document.get? name = some (.obj group) → isTokenGroup name (.obj group) = true →
          u.Stands group document.groupType? below → σ (name :: below) ≠ .none →
            u.type.Accepts u.token.tokenValue := by
  have sameSchema : (substituteIn σ document).get? Key.schema = document.get? Key.schema :=
    types.get?_eq fun _ => rfl
  have sameBrand : (substituteIn σ document).get? Key.brand = document.get? Key.brand :=
    types.get?_eq fun _ => rfl
  obtain ⟨distinct, -⟩ := (isKeyed_obj_iff document).1 keyed
  constructor
  · intro conform
    have after {name : String} {group : Members} {below : KeyChain} {node : Json}
        (found : document.get? name = some (.obj group))
        (isGroup : isTokenGroup name (.obj group) = true) (leads : group.Leads below node)
        {handed : Option TokenType}
        (handedOn : (Json.obj document).handedDown .none (name :: below) = handed) :
        node.InOrder handed ∧ (σ.under (name :: below)).AcceptedAt handed node := by
      obtain ⟨node', leads', inOrder⟩ := types.inOrder_iff keyed found leads handedOn
      obtain ⟨group', found', rfl⟩ := types.paired.get? found
      exact inOrder.1 (conform.nodes name _ below node' found' isGroup leads')
    refine ⟨⟨?schema, ?brand, ?entries, ?nodes⟩, ?accepts⟩
    case schema => exact fun value found => conform.schema value (sameSchema.trans found)
    case brand => exact fun value found => conform.brand value (sameBrand.trans found)
    case entries =>
      intro name value found notMeta notBrand
      obtain ⟨value', found', rfl⟩ := types.paired.get? found
      rw [← isObject_substitute (σ.below name) value]
      exact conform.entries name _ found' notMeta notBrand
    case nodes =>
      exact fun name group below node found isGroup leads =>
        (after found isGroup leads rfl).1
    case accepts =>
      intro name group below u found isGroup stands some_
      have handedOn : (Json.obj document).handedDown .none (name :: below) = _ :=
        (Json.handedDown_cons found .none below).trans (by rw [Option.or_none])
      refine (after found isGroup stands.leads handedOn).2 u stands.toLacks rfl ?_
      rwa [Substitution.under, List.append_nil]
  · rintro ⟨conform, accepts⟩
    refine ⟨?schema, ?brand, ?entries, ?nodes⟩
    case schema => exact fun value found => conform.schema value (sameSchema.symm.trans found)
    case brand => exact fun value found => conform.brand value (sameBrand.symm.trans found)
    case entries =>
      intro name value' found' notMeta notBrand
      obtain ⟨value, found, rfl⟩ := types.paired.exists_get?_left distinct found'
      rw [isObject_substitute]
      exact conform.entries name _ found notMeta notBrand
    case nodes =>
      intro name value' below node' found' isGroup leads'
      obtain ⟨value, found, same⟩ := types.paired.exists_get?_left distinct found'
      cases value with
      | obj group =>
          cases same
          have groupKeyed := Members.isKeyed_of_get? keyed found
          obtain ⟨node, leads⟩ := Types.exists_leads_before leads' (types.below found) groupKeyed rfl
          obtain ⟨node'', leads'', inOrder⟩ := types.inOrder_iff keyed found leads rfl
          cases leads'.at?.symm.trans leads''.at?
          refine inOrder.2 ⟨conform.nodes name group below node found isGroup leads,
            fun u lacks same some_ => ?_⟩
          subst same
          rw [Json.handedDown_cons found, Option.or_none] at lacks
          rw [Substitution.under, List.append_nil] at some_
          exact accepts name group below u found isGroup ⟨lacks, leads⟩ some_
      | _ => cases same

end Substitution

/-! ## A single fix -/

/-- The type that a token can be given accepts its value, if the token was in order without it, unless
the type is suggested by a text that is not written as the type asks. -/
theorem UntypedToken.Lacks.accepts_iff {u : UntypedToken} {handed : Option TokenType}
    (lacks : u.Lacks handed) (inOrder : (Json.obj u.token).InOrder handed) :
    u.type.Accepts u.token.tokenValue ↔
      (u.token.get? Key.legacyType).bind TokenType.ofTag? = some u.type ∨
        ∀ s, u.token.tokenValue = .str s → ¬ TokenType.Misspelled s.toList u.type := by
  cases named : (u.token.get? Key.legacyType).bind TokenType.ofTag? with
  | some t =>
      have resolved := lacks.typeOr_eq.trans named
      obtain rfl := lacks.type_of_typeOr resolved
      exact iff_of_true (inOrder.2 lacks.hasValue _ resolved) (.inl rfl)
  | none =>
      have suggested := lacks.told
      rw [UntypedToken.type?, named, Option.none_or] at suggested
      rw [TokenType.accepts_iff_of_infer? suggested]
      simp

/-- **What giving a token its type does to the validity of a document.**  An add-type fix applied alone
gives its token the type, and the document is valid afterwards exactly if it was before and the type
accepts the value.  For a valid document that is so unless the type was suggested by a text that is not
written as the type asks. -/
theorem typing_keeps_valid_iff (v : Validator) {document : Members}
    (keyed : (Json.obj document).isKeyed = true) {f : Fix} (mem : f ∈ Fix.collect (.obj document))
    (typing : f.type = .addType) :
    ∃ u ∈ untypedTokens document, ∃ index patched, f = u.toFix index ∧
      (applyApproved (.obj document) [{ f with approved := true }]).2 = .ok patched ∧
      patched.at? u.keys = some (.obj (u.token.put Key.type (.str u.type.name))) ∧
      ((v.validate patched).isValid = true ↔
        (v.validate (.obj document)).isValid = true ∧ u.type.Accepts u.token.tokenValue) ∧
      ((v.validate (.obj document)).isValid = true →
        ((v.validate patched).isValid = true ↔
          (u.token.get? Key.legacyType).bind TokenType.ofTag? = some u.type ∨
            ∀ s, u.token.tokenValue = .str s → ¬ TokenType.Misspelled s.toList u.type)) := by
  obtain ⟨u, inUntyped, index, rfl⟩ := Fix.exists_untyped_of_mem_collect mem typing
  obtain ⟨name, group, below, found, isGroup, keysEq, stands⟩ := mem_untypedTokens inUntyped keyed
  have target := Fix.target_toFix_untyped keysEq index true
  have collected : ∀ f ∈ [{ u.toFix index with approved := true }], f ∈ Fix.offers (.obj document) := by
    intro f single
    rw [List.mem_singleton.1 single]
    exact List.mem_map_of_mem mem
  obtain ⟨σ, types, entries, result, resultKeyed⟩ := Fixer.exists_typesBelow keyed collected (by simp; rfl)
  have atToken : σ (name :: below) ≠ none := (entries _).2 ⟨_, List.mem_singleton_self _, target⟩
  have valid_iff (ms : Members) (msKeyed : (Json.obj ms).isKeyed = true) :
      (v.validate (.obj ms)).isValid = true ↔ ms.Conform := by
    rw [Validator.validate, Findings.isValid_ofDiagnostics]
    exact Validation.isError_checkDocument_iff v msKeyed
  have accepted : (v.validate (.obj (substituteIn σ document))).isValid = true ↔
      (v.validate (.obj document)).isValid = true ∧ u.type.Accepts u.token.tokenValue := by
    rw [valid_iff _ resultKeyed, valid_iff _ keyed, types.conform_iff keyed]
    refine and_congr_right fun _ => ⟨fun accepts => ?_, fun accepts => ?_⟩
    · exact accepts name group below u found isGroup stands atToken
    · intro name' group' below' u' found' _ stands' some_
      obtain ⟨f, single, target'⟩ := (entries _).1 some_
      rw [List.mem_singleton.1 single, target] at target'
      cases target'
      cases found.symm.trans found'
      have sameToken := Json.obj.inj (Option.some.inj (stands.leads.at?.symm.trans stands'.leads.at?))
      rwa [← sameToken, ← stands.toLacks.type_eq stands'.toLacks sameToken]
  refine ⟨u, inUntyped, index, _, rfl, result, ?_, accepted, fun valid => ?_⟩
  · rw [keysEq]
    exact types.at?_typed keyed found stands atToken
  · rw [accepted, and_iff_right valid]
    have inOrder := ((valid_iff _ keyed).1 valid).nodes name group below _ found isGroup stands.leads
    rw [Json.handedDown_cons found, Option.or_none] at inOrder
    exact stands.toLacks.accepts_iff inOrder

namespace Example

/-- A number that is spelled as text. -/
def spelledRatio : Members :=
  [("numbers", .obj [("ratio", .obj [("$value", .str "1.5")])])]

/-- The same token as a number, and with the type that it suggests. -/
def taggedRatio : Json :=
  .obj [("numbers", .obj [("ratio", .obj [("$value", .str "1.5"), ("$type", .str "number")])])]

/-- A width in pixels. -/
def untypedWidth : Members :=
  [("sizes", .obj [("gap", .obj [("$value", .str "4px")])])]

/-- The width is a dimension as it is written. -/
theorem untypedWidth_stays_valid :
    (Json.obj untypedWidth).isKeyed = true ∧ (lenient.validate (.obj untypedWidth)).isValid = true ∧
      ∃ f ∈ Fix.collect (.obj untypedWidth), f.type = .addType ∧ ∃ patched,
        (applyApproved (.obj untypedWidth) [{ f with approved := true }]).2 = .ok patched ∧
          (lenient.validate patched).isValid = true := by
  have keyed : (Json.obj untypedWidth).isKeyed = true := by decide
  have valid : (lenient.validate (.obj untypedWidth)).isValid = true := rfl
  obtain ⟨f, only⟩ : ∃ f, Fix.collect (.obj untypedWidth) = [f] := ⟨_, rfl⟩
  have mem : f ∈ Fix.collect (.obj untypedWidth) := only ▸ List.mem_singleton_self f
  have typing : f.type = .addType := by
    cases only
    rfl
  obtain ⟨u, inUntyped, index, patched, -, result, -, -, keepsValid⟩ :=
    typing_keeps_valid_iff lenient keyed mem typing
  obtain rfl : u = ⟨["sizes", "gap"], [("$value", .str "4px")], .dimension⟩ :=
    List.mem_singleton.1 inUntyped
  refine ⟨keyed, valid, f, mem, typing, patched, result, (keepsValid valid).2 (.inr fun s _ => id)⟩

/-- **A number spelled as text suggests the type of a number, which does not accept it**: the document
is valid, and giving the token the type it suggests makes it invalid. -/
theorem spelledRatio_turns_invalid :
    (lenient.validate (.obj spelledRatio)).isValid = true ∧
      (Fix.collect (.obj spelledRatio)).map Fix.type = [.addType] ∧
      (applyApproved (.obj spelledRatio) (Fix.offers (.obj spelledRatio))).2 = .ok taggedRatio ∧
      (lenient.validate taggedRatio).isValid = false :=
  ⟨rfl, rfl, rfl, rfl⟩

end Example

end DesignTokens
