/-
# DesignTokens.Proofs.Normal.Chains -- a chain of keys through the conversion

The conversion goes down a document as it rewrites it, and a wrapper gives way to its child on the
way.  So a node that a chain of keys leads to stands somewhere else afterwards, and has been told
something by the objects above it.  Both can be read off the document as it was.  `Json.collapse` is
the chain without the keys of the wrappers on it, and `Json.passed` is what the conversion knows when
it gets to the end of the chain: the type that the groups hand down, and the tag of the wrappers that
have just given way to the node.

`exists_token_of_leads` ties the two to the conversion.  Below a group without a value, the structured
form of a token stands at its collapsed chain, under what is passed to it.  A group with a value is
taken for a token itself, and keeps nothing below (`at?_collapse_of_hasValue`).
-/
import DesignTokens.Proofs.Normal.Basic
import DesignTokens.Proofs.Validation.Visits

namespace DesignTokens

set_option autoImplicit false

/-! ## Where a chain leads -/

/-- The chain that leads to a node once the wrappers on the way have given way to their children. -/
def Json.collapse : Json → KeyChain → KeyChain
  | .obj ms, key :: rest =>
      let below := ((Members.get? ms key).map fun child => child.collapse rest).getD rest
      if (Members.unwrap? ms).isSome then below else key :: below
  | _, chain => chain

@[simp] theorem Json.collapse_nil (node : Json) : node.collapse [] = [] := by
  cases node <;> rfl

theorem Json.collapse_wrapper {ms inner : Members} {key : String} {child : Json}
    (wrapper : ms.unwrap? = some inner) (found : ms.get? key = some child) (rest : KeyChain) :
    (Json.obj ms).collapse (key :: rest) = child.collapse rest := by
  simp [Json.collapse, wrapper, found]

theorem Json.collapse_group {ms : Members} {key : String} {child : Json}
    (noWrapper : ms.unwrap? = none) (found : ms.get? key = some child) (rest : KeyChain) :
    (Json.obj ms).collapse (key :: rest) = key :: child.collapse rest := by
  simp [Json.collapse, noWrapper, found]

/-- What a wrapper gives way to is collapsed as the wrapped group is. -/
theorem collapse_unwraps {ms inner group : Members} {key : String}
    (u : Members.Unwraps ms key (.obj group) inner) {chain : KeyChain} {node : Json}
    (leads : group.Leads chain node) :
    (Json.obj inner).collapse chain = (Json.obj group).collapse chain := by
  have sameWrapper : inner.unwrap?.isSome = group.unwrap?.isSome := u.unwrap?_isSome_eq
  cases leads with
  | here notMeta found | under notMeta found =>
      have sameChild : inner.get? _ = group.get? _ := u.get?_eq notMeta
      rw [Json.collapse, Json.collapse, sameWrapper, sameChild]

/-- The only child of a wrapper is what any chain into the wrapper starts with. -/
theorem Members.Unwraps.key_eq {ms inner : Members} {key k : String} {child node : Json}
    (u : Members.Unwraps ms key child inner) (notMeta : Key.isMeta k = false)
    (found : ms.get? k = some node) : k = key ∧ node = child := by
  have mem : (k, node) ∈ ms.children :=
    List.mem_filter.2 ⟨Members.mem_of_get? found, by simp [notMeta]⟩
  rw [u.only, List.mem_singleton] at mem
  cases mem
  exact ⟨rfl, rfl⟩

theorem noValue_of_isGroup {ms : Members} (isGroup : ms.isToken = false) : ms.hasValue = false := by
  rw [Members.isToken, Bool.or_eq_false_iff] at isGroup
  exact isGroup.1

/-- A token keeps no children, so no chain leads below it any more. -/
theorem at?_collapse_of_hasValue {group : Members} {chain : KeyChain} {node : Json}
    (leads : group.Leads chain node) (hasValue : group.hasValue = true)
    {parentType : Option String} {out : Json}
    (converted : (Json.obj group).normalize parentType = .ok out) :
    out.at? ((Json.obj group).collapse chain) = none := by
  have noWrapper := Members.unwrap?_of_hasValue hasValue
  rw [normalize_token noWrapper hasValue] at converted
  obtain ⟨members, made, rfl⟩ := Fault.map_eq_ok_iff.1 converted
  obtain ⟨_, _, -, rfl⟩ := (Normal.token_eq_ok_iff group parentType members).1 made
  cases leads with
  | here notMeta found | under notMeta found =>
      rw [Json.collapse_group noWrapper found, Json.at?_cons, Option.bind_eq_none_iff]
      intro child found'
      have isMeta := Normal.isMeta_of_mem_assemble Normal.isExtra_of_mem_filter
        (Members.mem_of_get? found')
      rw [notMeta] at isMeta
      cases isMeta

/-! ## What is passed along a chain -/

/-- What the conversion knows at a node besides the node itself. -/
structure Passed where
  /-- The tag of the wrappers that have just given way to the node, the innermost one that has any. -/
  tag : Option Json
  /-- The type that the groups above hand down. -/
  handed : Option TokenType

/-- What an object passes on to its children. -/
def Passed.on (p : Passed) (ms : Members) : Passed :=
  let tag := (ms.get? Key.type).or p.tag
  if ms.unwrap?.isSome then ⟨tag, p.handed⟩
  else ⟨none, (tag.bind TokenType.ofTag?).or p.handed⟩

/-- What is passed to the end of a chain of keys. -/
def Json.passed : Json → Passed → KeyChain → Passed
  | .obj ms, p, key :: rest =>
      match Members.get? ms key with
      | some child => child.passed (p.on ms) rest
      | none => p.on ms
  | _, p, _ => p

@[simp] theorem Json.passed_nil (node : Json) (p : Passed) : node.passed p [] = p := by
  cases node <;> rfl

theorem Json.passed_cons {ms : Members} {key : String} {child : Json}
    (found : ms.get? key = some child) (p : Passed) (rest : KeyChain) :
    (Json.obj ms).passed p (key :: rest) = child.passed (p.on ms) rest := by
  simp [Json.passed, found]

theorem Passed.on_wrapper {ms inner : Members} (wrapper : ms.unwrap? = some inner) (p : Passed) :
    p.on ms = ⟨(ms.get? Key.type).or p.tag, p.handed⟩ := by
  simp [Passed.on, wrapper]

theorem Passed.on_group {ms : Members} (noWrapper : ms.unwrap? = none) (p : Passed) :
    p.on ms = ⟨none, (((ms.get? Key.type).or p.tag).bind TokenType.ofTag?).or p.handed⟩ := by
  simp [Passed.on, noWrapper]

/-- Without a tag from outside, a group hands down what a check hands down. -/
theorem Passed.on_group_none {ms : Members} (noWrapper : ms.unwrap? = none) (handed : Option TokenType) :
    Passed.on ⟨none, handed⟩ ms = ⟨none, ms.groupType?.or handed⟩ := by
  rw [Passed.on_group noWrapper, Option.or_none]
  rfl

/-- The conversion hands the types of groups down by their names. -/
theorem groupTypeName_map (ms : Members) (handed : Option TokenType) :
    groupTypeName ms (handed.map TokenType.name) = (ms.groupType?.or handed).map TokenType.name := by
  rw [groupTypeName]
  cases ms.groupType? <;> rfl

/-! ## What the conversion makes of a chain -/

namespace Members

/-- The members are those of the token as far as its type goes, with a tag put where it has none. -/
structure TaggedBy (merged token : Members) (tag : Option Json) : Prop where
  value : merged.tokenValue = token.tokenValue
  type : merged.get? Key.type = (token.get? Key.type).or tag
  legacy : merged.get? Key.legacyType = token.get? Key.legacyType

theorem TaggedBy.refl (token : Members) : token.TaggedBy token none :=
  ⟨rfl, Option.or_none.symm, rfl⟩

/-- A wrapper puts its tag on a token that it gives way to. -/
theorem Unwraps.taggedBy {ms token inner : Members} {key : String}
    (u : Unwraps ms key (.obj token) inner) : inner.TaggedBy token (ms.get? Key.type) :=
  ⟨u.tokenValue_eq, u.get?_type_eq, u.get?_eq (by decide)⟩

end Members

/-- What a wrapper gives way to passes on what the wrapped group passes on under the wrapper's tag. -/
theorem passed_unwraps {ms inner group : Members} {key : String}
    (u : Members.Unwraps ms key (.obj group) inner) {chain : KeyChain} {node : Json}
    (leads : group.Leads chain node) (handed : Option TokenType) :
    (Json.obj inner).passed ⟨none, handed⟩ chain =
      (Json.obj group).passed ⟨ms.get? Key.type, handed⟩ chain := by
  have sameOn : Passed.on ⟨none, handed⟩ inner = Passed.on ⟨ms.get? Key.type, handed⟩ group := by
    have sameWrapper : inner.unwrap?.isSome = group.unwrap?.isSome := u.unwrap?_isSome_eq
    have tag : inner.get? Key.type = (group.get? Key.type).or (ms.get? Key.type) := u.get?_type_eq
    rw [Passed.on, Passed.on, sameWrapper, tag, Option.or_none]
  cases leads with
  | here notMeta found | under notMeta found =>
      have sameChild : inner.get? _ = group.get? _ := u.get?_eq notMeta
      rw [Json.passed_cons found, Json.passed_cons (sameChild.trans found), sameOn]

/-- **Where a token ends up, and as what.**  At the end of its collapsed chain stands the structured
form of the token under what is passed to it.  The induction goes by the chain and not by the tree,
because a wrapper gives way to an object that is no part of it. -/
theorem exists_token_of_leads {group token : Members} {chain : KeyChain}
    (leads : group.Leads chain (.obj token)) (hasValue : token.hasValue = true)
    (noValue : group.hasValue = false) {handed : Option TokenType} {out : Json}
    (converted : (Json.obj group).normalize (handed.map TokenType.name) = .ok out) :
    ∃ merged image : Members,
      merged.TaggedBy token ((Json.obj group).passed ⟨none, handed⟩ chain).tag ∧
        Normal.token merged (((Json.obj group).passed ⟨none, handed⟩ chain).handed.map
          TokenType.name) = .ok image ∧
        out.at? ((Json.obj group).collapse chain) = some (.obj image) := by
  induction chain generalizing group handed out with
  | nil => cases leads
  | cons key rest ih =>
      cases wrapper : group.unwrap? with
      | some inner =>
          obtain ⟨only, child, u⟩ := Members.unwraps_of_unwrap? wrapper
          rw [normalize_wrapper wrapper] at converted
          cases leads with
          | here notMeta found =>
              obtain ⟨rfl, rfl⟩ := u.key_eq notMeta found
              have stays : inner.hasValue = true := u.hasValue_eq.trans hasValue
              rw [normalize_token (Members.unwrap?_of_hasValue stays) stays] at converted
              obtain ⟨image, made, rfl⟩ := Fault.map_eq_ok_iff.1 converted
              rw [Json.passed_cons found, Json.passed_nil, Passed.on_wrapper wrapper,
                Json.collapse_wrapper wrapper found, Json.collapse_nil]
              refine ⟨inner, image, ?_, made, Json.at?_nil _⟩
              rw [Option.or_none]
              exact u.taggedBy
          | under notMeta found isGroup more =>
              obtain ⟨rfl, rfl⟩ := u.key_eq notMeta found
              have located := ih (more.congr fun k notMeta => u.get?_eq notMeta)
                (u.hasValue_eq.trans (noValue_of_isGroup isGroup)) converted
              rw [passed_unwraps u more, collapse_unwraps u more] at located
              rwa [Json.passed_cons found, Passed.on_wrapper wrapper, Option.or_none,
                Json.collapse_wrapper wrapper found]
      | none =>
          rw [normalize_group wrapper noValue] at converted
          obtain ⟨members, made, rfl⟩ := Fault.map_eq_ok_iff.1 converted
          have paired := (normalizeMembers_eq_ok_iff _ group members).1 made
          rw [groupTypeName_map] at paired
          have on := Passed.on_group_none wrapper handed
          cases leads with
          | here notMeta found =>
              obtain ⟨child', found', childMade⟩ := paired.get? found
              rw [normalizeMember_obj notMeta,
                normalize_token (Members.unwrap?_of_hasValue hasValue) hasValue] at childMade
              obtain ⟨image, imageMade, rfl⟩ := Fault.map_eq_ok_iff.1 childMade
              rw [Json.passed_cons found, Json.passed_nil, on, Json.collapse_group wrapper found,
                Json.collapse_nil, Json.at?_cons, found']
              exact ⟨token, image, .refl token, imageMade, Json.at?_nil _⟩
          | under notMeta found isGroup more =>
              obtain ⟨child', found', childMade⟩ := paired.get? found
              rw [normalizeMember_obj notMeta] at childMade
              rw [Json.passed_cons found, on, Json.collapse_group wrapper found, Json.at?_cons, found']
              exact ih more (noValue_of_isGroup isGroup) childMade

end DesignTokens
