/-
# DesignTokens.Proofs.Normal.NormalForm -- what structured form leaves nothing of

After the conversion nothing is left of what it is there to remove, wherever one looks below a token
group: no default child alone in its group, no older spelling beside a value, no value without a
type that suggests one, and no bare value among the members of a group (`Members.IsNormal`).  Every
object that is reached through children and list elements is of that form (`reached_isNormal`).

Three walks ask for less each, and find nothing: a check of the document has no older key and no
missing type to report, and takes only null and lists for what should have been a token; the
collection of fixes has no type to add (`normalizeDocument_settles`).

A type handed down is never the empty name, which a token leaves out; this is all that the induction
needs to know of it.
-/
import DesignTokens.Proofs.Fix.Collect
import DesignTokens.Proofs.Normal.FixedPoint
import DesignTokens.Proofs.Normal.Keyed
import DesignTokens.Proofs.Validation.Findings

namespace DesignTokens

set_option autoImplicit false

/-! ## What is reached -/

/-- A node is reached from another through children and list elements. -/
inductive Json.Reaches : Json → Json → Prop
  | refl (node : Json) : Reaches node node
  | item {items : List Json} {item node : Json} :
      item ∈ items → Reaches item node → Reaches (.arr items) node
  | child {ms : Members} {key : String} {child node : Json} :
      (key, child) ∈ ms → Key.isMeta key = false → Reaches child node → Reaches (.obj ms) node

theorem Json.Reaches.trans {a b c : Json} (first : a.Reaches b) (second : b.Reaches c) :
    a.Reaches c := by
  induction first with
  | refl => exact second
  | item mem _ ih => exact .item mem (ih second)
  | child mem notMeta _ ih => exact .child mem notMeta (ih second)

/-- What a chain of keys leads to stands among the members of an object that is reached. -/
theorem Members.Leads.exists_reached {group : Members} {chain : KeyChain} {node : Json}
    (leads : group.Leads chain node) :
    ∃ (parent : Members) (key : String), (Json.obj group).Reaches (.obj parent) ∧
      (key, node) ∈ parent ∧ Key.isMeta key = false := by
  induction leads with
  | here notMeta found => exact ⟨_, _, .refl _, mem_of_get? found, notMeta⟩
  | under notMeta found _ _ ih =>
      obtain ⟨parent, key, reached, mem, notMetaEnd⟩ := ih
      exact ⟨parent, key, .child (mem_of_get? found) notMeta reached, mem, notMetaEnd⟩

theorem Members.Leads.reaches {group : Members} {chain : KeyChain} {node : Json}
    (leads : group.Leads chain node) : (Json.obj group).Reaches node := by
  obtain ⟨parent, key, reached, mem, notMeta⟩ := leads.exists_reached
  exact reached.trans (.child mem notMeta (.refl node))

/-! ## One object -/

/-- An object without anything to convert. -/
structure Members.IsNormal (ms : Members) : Prop where
  noWrapper : ms.unwrap? = none
  onlyMeta : ms.hasValue = true → ∀ m ∈ ms, Key.isMeta m.1 = true
  typed : ms.hasValue = true → ms.has Key.type = true ∨ TokenType.infer? ms.tokenValue = none
  noBare : ∀ m ∈ ms, Key.isMeta m.1 = false → m.2.isBare = false

/-- Beside a value there is no key but those that start with a dollar sign. -/
theorem Members.IsNormal.get?_eq_none {ms : Members} (normal : ms.IsNormal)
    (hasValue : ms.hasValue = true) {key : String} (notMeta : Key.isMeta key = false) :
    ms.get? key = none := by
  rw [get?_eq_none_iff]
  intro mem
  obtain ⟨value, inMs⟩ := exists_of_mem_keys mem
  have isMeta := normal.onlyMeta hasValue _ inMs
  rw [notMeta] at isMeta
  cases isMeta

/-! ## Tokens -/

namespace Normal

/-- A token is never given the empty name for a type, unless it is handed down. -/
theorem typeOf_ne_empty (ms : Members) {parentType : Option String} (given : parentType ≠ some "") :
    typeOf ms parentType ≠ some "" := by
  have inferred : (TokenType.infer? ms.tokenValue).map TokenType.name ≠ some "" := by
    intro empty
    obtain ⟨t, -, named⟩ := Option.map_eq_some_iff.1 empty
    have nonempty := t.name_isEmpty
    rw [named] at nonempty
    cases nonempty
  have either {tagged : Option String} (own : tagged ≠ some "") :
      tagged.or ((TokenType.infer? ms.tokenValue).map TokenType.name) ≠ some "" := by
    cases tagged with
    | none => exact inferred
    | some name => exact own
  rw [typeOf]
  cases first : firstGiven? ms Key.type Key.legacyType with
  | none => exact either given
  | some tag =>
      have isGiven := (firstGiven?_eq_some first).2
      refine either ?_
      cases tag with
      | str name =>
          intro empty
          rw [Option.some.inj empty] at isGiven
          cases isGiven
      | _ => exact (Option.some_ne_none "").symm

/-- **A token in structured form has nothing to convert.** -/
theorem isNormal_token {ms out : Members} {parentType : Option String}
    (given : parentType ≠ some "") (converted : token ms parentType = .ok out) : out.IsNormal := by
  have hasValue := hasValue_token converted
  obtain ⟨value, type, valueConverted, rfl⟩ := (token_eq_ok_iff ms parentType out).1 converted
  have allExtra := @isExtra_of_mem_filter ms
  have allMeta : ∀ m ∈ assemble value type (firstGiven? ms Key.description Key.legacyDescription)
      (ms.filter fun m => isExtra m.1), Key.isMeta m.1 = true :=
    fun _ mem => isMeta_of_mem_assemble allExtra mem
  refine ⟨Members.unwrap?_of_hasValue hasValue, fun _ => allMeta, fun _ => ?_, fun m mem notMeta => ?_⟩
  · rw [Members.has, get?_type_assemble allExtra, (tokenValue_assemble allExtra).2]
    rcases (convert_spec valueConverted).2 with ⟨rfl, rfl⟩ | ⟨name, rfl, named⟩
    · cases resolved : typeOf ms parentType with
      | none => exact .inr (infer?_of_typeOf resolved)
      | some name =>
          have nonempty : name ≠ "" := by
            rintro rfl
            exact typeOf_ne_empty ms given resolved
          exact .inl (by simp [Option.filter, nonempty])
    · exact .inl (by simp [Option.filter, named])
  · rw [allMeta m mem] at notMeta
    cases notMeta

end Normal

/-! ## Trees -/

theorem groupTypeName_ne_empty (ms : Members) {parentType : Option String}
    (given : parentType ≠ some "") : groupTypeName ms parentType ≠ some "" := by
  rw [groupTypeName]
  cases ms.groupType? with
  | none => exact given
  | some t =>
      intro empty
      have nonempty := t.name_isEmpty
      rw [Option.some.inj empty] at nonempty
      cases nonempty

/-- **Every object that is reached in a converted tree has nothing to convert.** -/
theorem reached_isNormal {parentType : Option String} {node out : Json}
    (given : parentType ≠ some "") (converted : node.normalize parentType = .ok out) {ms : Members}
    (reached : out.Reaches (.obj ms)) : ms.IsNormal := by
  induction parentType, node using normalize_induction generalizing out with
  | list parentType items ih =>
      rw [Json.normalize] at converted
      obtain ⟨items', made, done⟩ := Fault.bind_eq_ok_iff.1 converted
      cases done
      cases reached with
      | item mem more =>
          obtain ⟨item, inItems, itemMade⟩ :=
            exists_left_of_forall₂ ((normalizeItems_eq_ok_iff parentType items items').1 made) mem
          exact ih item inItems given itemMade more
  | wrapper parentType ms inner wrapper ih =>
      rw [normalize_wrapper wrapper] at converted
      exact ih given converted reached
  | token parentType ms noWrapper hasValue =>
      rw [normalize_token noWrapper hasValue] at converted
      obtain ⟨token, made, rfl⟩ := Fault.map_eq_ok_iff.1 converted
      have normal := Normal.isNormal_token given made
      cases reached with
      | refl => exact normal
      | child mem notMeta _ =>
          have isMeta := normal.onlyMeta (Normal.hasValue_token made) _ mem
          rw [notMeta] at isMeta
          cases isMeta
  | group parentType ms noWrapper noValue ih =>
      rw [normalize_group noWrapper noValue] at converted
      obtain ⟨group, made, rfl⟩ := Fault.map_eq_ok_iff.1 converted
      have paired := (normalizeMembers_eq_ok_iff _ ms group).1 made
      have exists_child (key : String) (child : Json) (mem : (key, child) ∈ group)
          (notMeta : Key.isMeta key = false) :
          ∃ node, (key, node) ∈ ms ∧
            node.asNode.normalize (groupTypeName ms parentType) = .ok child := by
        obtain ⟨node, inMs, childMade⟩ := paired.exists_left mem
        dsimp only at inMs childMade
        rw [normalizeMember, notMeta] at childMade
        exact ⟨node, inMs, childMade⟩
      cases reached with
      | refl =>
          have stillNoValue := (Members.hasValue_congr paired.keys_eq).trans noValue
          refine ⟨Members.unwrap?_eq_none_congr paired.keys_eq noWrapper, fun hasValue => ?_,
            fun hasValue => ?_, fun m mem notMeta => ?_⟩
          · rw [stillNoValue] at hasValue
            cases hasValue
          · rw [stillNoValue] at hasValue
            cases hasValue
          · obtain ⟨node, -, childMade⟩ := exists_child m.1 m.2 mem notMeta
            exact isBare_normalize childMade (isBare_asNode node)
      | @child _ key child _ mem notMeta more =>
          obtain ⟨node, inMs, childMade⟩ := exists_child key child mem notMeta
          exact ih (key, node) inMs notMeta (groupTypeName_ne_empty ms given) childMade more
  | scalar parentType value noList noObject =>
      rw [normalize_scalar noList noObject parentType] at converted
      cases converted
      cases reached with
      | refl => exact absurd rfl (noObject _)
      | item => exact absurd rfl (noList _)
      | child => exact absurd rfl (noObject _)

/-! ## Documents -/

/-- Every object that is reached from a token group of a converted document has nothing to
convert. -/
theorem reached_isNormal_of_entry {document out : Members}
    (converted : normalizeDocument (.obj document) = .ok (.obj out)) {name : String} {group : Members}
    (found : out.get? name = some (.obj group)) (isGroup : isTokenGroup name (.obj group) = true)
    {ms : Members} (reached : (Json.obj group).Reaches (.obj ms)) : ms.IsNormal := by
  obtain ⟨entries, same, paired⟩ := (normalizeDocument_obj_eq_ok_iff document _).1 converted
  cases same
  obtain ⟨value, inDocument, entryMade⟩ := paired.exists_left (Members.mem_of_get? found)
  dsimp only at inDocument entryMade
  unfold Normal.entry at entryMade
  split at entryMade
  · exact reached_isNormal (groupTypeName_ne_empty document (by nofun)) entryMade reached
  · rename_i noGroup
    cases entryMade
    exact absurd isGroup noGroup

/-- A token group of a converted document leads to objects, null and lists only. -/
theorem isBare_of_leads {document out : Members}
    (converted : normalizeDocument (.obj document) = .ok (.obj out)) {name : String} {group : Members}
    (found : out.get? name = some (.obj group)) (isGroup : isTokenGroup name (.obj group) = true)
    {below : KeyChain} {node : Json} (leads : group.Leads below node) : node.isBare = false := by
  obtain ⟨parent, key, reached, inParent, notMeta⟩ := leads.exists_reached
  exact (reached_isNormal_of_entry converted found isGroup reached).noBare _ inParent notMeta

/-- A document in which nothing is left to convert. -/
structure Json.IsSettled (document : Json) : Prop where
  /-- A check reports no older value key, no older type key and no type that could be told. -/
  noLegacy : ∀ v : Validator, ∀ d ∈ (v.validate document).diagnostics,
    ∀ id ∈ ["TOKEN_003", "TOKEN_004", "TOKEN_005"], d.ruleId ≠ some id
  /-- A check comes to objects, null and lists only. -/
  noBare : ∀ (name : String) (group : Members) (below : KeyChain) (node : Json),
    document.at? [name] = some (.obj group) → isTokenGroup name (.obj group) = true →
      group.Leads below node → node.isBare = false
  /-- Only null and lists are reported for being no objects. -/
  noScalar : ∀ v : Validator, ∀ d ∈ (v.validate document).diagnostics, d.ruleId = some "TOKEN_001" →
    ∃ keys node, document.at? keys = some node ∧ d.path = Path.join keys ∧
      (node = .null ∨ ∃ items, node = .arr items)
  noAddType : ∀ f ∈ Fix.collect document, f.type ≠ .addType
  /-- No default child without a value beside it is the only child of its group. -/
  noLoneDefault : ∀ (name : String) (group ms : Members),
    document.at? [name] = some (.obj group) → isTokenGroup name (.obj group) = true →
      (Json.obj group).Reaches (.obj ms) →
        ¬ ∃ key, ms.childKeys = [key] ∧ Key.isDefault key = true ∧ ms.hasValue = false

theorem Validator.mem_diagnostics_validate_iff (v : Validator) (ms : Members) (d : Diagnostic) :
    d ∈ (v.validate (.obj ms)).diagnostics ↔ d ∈ Validation.checkDocument v ms := by
  rw [validate, Findings.diagnostics, Findings.ofDiagnostics, List.mem_append, List.mem_filter,
    List.mem_filter]
  cases d.isError <;> simp

/-- What a normal object is reported for: the missing value at most. -/
theorem Members.IsNormal.isOther {ms : Members} (normal : ms.IsNormal) {path : String}
    {handed : Option TokenType} {d : Diagnostic} (finding : Validation.TokenFinding ms path handed d) :
    d.ruleId = some "TOKEN_002" ∨ Validation.IsOther d := by
  cases finding with
  | noValue => exact .inl rfl
  | oldValue _ legacy =>
      have hasValue : ms.hasValue = true := by rw [hasValue_eq, legacy, Bool.or_true]
      rw [has, normal.get?_eq_none hasValue (by decide)] at legacy
      cases legacy
  | oldType hasValue _ legacy =>
      rw [normal.get?_eq_none hasValue (by decide)] at legacy
      cases legacy
  | noType hasValue untyped _ _ inferred =>
      rcases normal.typed hasValue with tagged | none_
      · rw [has, untyped] at tagged
        cases tagged
      · rw [inferred] at none_
        cases none_
  | other isOther => exact .inr isOther

/-- A finding about the form of a token in a converted document is a missing value, or that null or
a list stands where a token should. -/
theorem finding_of_normalizeDocument (v : Validator) {document out : Members}
    (keyed : (Json.obj document).isKeyed = true)
    (converted : normalizeDocument (.obj document) = .ok (.obj out)) {d : Diagnostic}
    (mem : d ∈ Validation.checkDocument v out) {id : String} (name : d.ruleId = some id)
    (rule : id ∈ Validation.tokenRules) :
    id = "TOKEN_002" ∨
      id = "TOKEN_001" ∧ ∃ keys node, (Json.obj out).at? keys = some node ∧
        d.path = Path.join keys ∧ (node = .null ∨ ∃ items, node = .arr items) := by
  have outKeyed := isKeyed_normalizeDocument keyed converted
  obtain ⟨entry, group, below, node, found, isGroup, leads, atNode⟩ :=
    Validation.exists_foundAt_of_tokenRule v outKeyed mem name rule
  have normal {ms : Members} (reached : (Json.obj group).Reaches (.obj ms)) : ms.IsNormal :=
    reached_isNormal_of_entry converted found isGroup reached
  have notBare : node.isBare = false := isBare_of_leads converted found isGroup leads
  have atEnd : (Json.obj out).at? (entry :: below) = some node := by
    rw [Json.at?_cons, found]
    exact leads.at?
  have noObject (isFound : d = Validation.notAToken node (Path.join (entry :: below)))
      (shape : node = .null ∨ ∃ items, node = .arr items) :
      id = "TOKEN_001" ∧ ∃ keys node, (Json.obj out).at? keys = some node ∧
        d.path = Path.join keys ∧ (node = .null ∨ ∃ items, node = .arr items) := by
    subst isFound
    exact ⟨(Option.some.inj name).symm, _, node, atEnd, rfl, shape⟩
  cases node with
  | obj ms =>
      rcases (normal leads.reaches).isOther (Validation.tokenFinding_of_mem_foundAt atNode) with
        missing | isOther
      · exact .inl (Option.some.inj (name.symm.trans missing))
      · exact absurd name (isOther id rule)
  | null => exact .inr (noObject (List.mem_singleton.1 atNode) (.inl rfl))
  | arr items => exact .inr (noObject (List.mem_singleton.1 atNode) (.inr ⟨items, rfl⟩))
  | _ => cases notBare

/-- A converted document has no token that could be given a type. -/
theorem untypedTokens_of_normalizeDocument {document out : Members}
    (keyed : (Json.obj document).isKeyed = true)
    (converted : normalizeDocument (.obj document) = .ok (.obj out)) : untypedTokens out = [] := by
  refine List.eq_nil_iff_forall_not_mem.2 fun u mem => ?_
  obtain ⟨name, group, below, found, isGroup, -, stands⟩ :=
    mem_untypedTokens mem (isKeyed_normalizeDocument keyed converted)
  have normal := reached_isNormal_of_entry converted found isGroup stands.leads.reaches
  have told := stands.told
  have noLegacy : u.token.get? Key.legacyType = none :=
    normal.get?_eq_none stands.hasValue (by decide)
  rcases normal.typed stands.hasValue with tagged | none_
  · rw [stands.untyped] at tagged
    cases tagged
  · rw [UntypedToken.type?, noLegacy, none_] at told
    cases told

theorem Fix.type_of_mem_ofMembers {document : Members} (typed : untypedTokens document = [])
    {f : Fix} (mem : f ∈ Fix.ofMembers document) : f.type = .flatten := by
  rw [Fix.ofMembers, typed] at mem
  obtain ⟨⟨c, index⟩, -, rfl⟩ := List.mem_map.1 mem
  rfl

/-- What is no object is refused as a whole, and nothing in it is looked at. -/
theorem Json.isSettled_of_isObject_eq_false {value : Json} (noObject : value.isObject = false) :
    value.IsSettled := by
  have diagnostics (v : Validator) (d : Diagnostic) (mem : d ∈ (v.validate value).diagnostics) :
      d.ruleId = some "ROOT_001" := by
    cases value with
    | obj ms => cases noObject
    | _ =>
        rw [List.mem_singleton.1 mem]
        rfl
  have noEntry (name : String) (group : Members) : value.at? [name] ≠ some (.obj group) := by
    cases value with
    | obj ms => cases noObject
    | _ => exact (Option.some_ne_none _).symm
  refine ⟨fun v d mem id old name => ?_, fun name group below node found => ?_,
    fun v d mem name => ?_, fun f mem => ?_, fun name group ms found => ?_⟩
  · rw [diagnostics v d mem] at name
    rw [← Option.some.inj name] at old
    exact absurd old (by decide)
  · exact absurd found (noEntry name group)
  · rw [diagnostics v d mem] at name
    exact absurd name (by decide)
  · cases value with
    | obj ms => cases noObject
    | _ => cases mem
  · exact absurd found (noEntry name group)

/-- **Nothing is left to convert in a converted document.** -/
theorem normalizeDocument_settles {document out : Json} (keyed : document.isKeyed = true)
    (converted : normalizeDocument document = .ok out) : out.IsSettled := by
  cases document with
  | obj ms =>
      obtain ⟨entries, rfl, -⟩ := (normalizeDocument_obj_eq_ok_iff ms out).1 converted
      have getGroup {name : String} {group : Members}
          (found : (Json.obj entries).at? [name] = some (.obj group)) :
          entries.get? name = some (.obj group) := by
        simpa [Json.at?_cons] using found
      refine ⟨fun v d mem id old name => ?legacy,
        fun name group below node found isGroup leads => ?bare, fun v d mem name => ?scalar,
        fun f mem addType => ?addType, fun name group inner found isGroup reached lone => ?lone⟩
      case legacy =>
        rw [v.mem_diagnostics_validate_iff] at mem
        have rule : id ∈ Validation.tokenRules := List.mem_of_mem_drop (i := 2) old
        rcases finding_of_normalizeDocument v keyed converted mem name rule with
          rfl | ⟨rfl, -⟩ <;> exact absurd old (by decide)
      case bare => exact isBare_of_leads converted (getGroup found) isGroup leads
      case scalar =>
        rw [v.mem_diagnostics_validate_iff] at mem
        rcases finding_of_normalizeDocument v keyed converted mem name (by decide) with
          other | ⟨-, place⟩
        · exact absurd other (by decide)
        · exact place
      case addType =>
        rw [Fix.type_of_mem_ofMembers (untypedTokens_of_normalizeDocument keyed converted) mem]
          at addType
        cases addType
      case lone =>
        have normal := reached_isNormal_of_entry converted (getGroup found) isGroup reached
        have wrapper := (Members.unwrap?_isSome_iff inner).2 lone
        rw [normal.noWrapper] at wrapper
        cases wrapper
  | _ =>
      cases converted
      exact Json.isSettled_of_isObject_eq_false rfl

namespace Example

/-- Once the wrapper is gone and the sizes are tokens, nothing is left to convert. -/
theorem structuredSizes_settled :
    (Json.obj [("sizes", .obj wrappedSizes)]).isKeyed = true ∧
      normalizeDocument (.obj [("sizes", .obj wrappedSizes)]) =
        .ok (.obj [("sizes", .obj structuredSizes)]) ∧
      (Json.obj [("sizes", .obj structuredSizes)]).IsSettled :=
  ⟨by decide, normalize_wrappedSizes, normalizeDocument_settles (by decide) normalize_wrappedSizes⟩

end Example

end DesignTokens
