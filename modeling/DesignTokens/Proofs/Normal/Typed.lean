/-
# DesignTokens.Proofs.Normal.Typed -- the structured form of a document with its types put in

The fixes give a token the type that it names in the older spelling, if that is a known one, or else
the type that its value suggests.  The conversion gives a token whatever it names in the older
spelling, known or not.  Where the two come to the same type, it makes no difference to the structured
form whether the types are put in first (`Substitution.TypesBelow.normalizeDocument_eq`): a token is
converted to the same token, in its place or in that of the wrappers around it, and around it nothing
changes.
-/
import DesignTokens.Proofs.Fix.Typings
import DesignTokens.Proofs.Normal.Keyed
import DesignTokens.Proofs.Normal.Types

namespace DesignTokens

set_option autoImplicit false

/-! ## What the conversion of a token depends on -/

namespace Normal

theorem token_congr {a b : Members} {parentType : Option String} (value : a.tokenValue = b.tokenValue)
    (type : typeOf a parentType = typeOf b parentType)
    (description : firstGiven? a Key.description Key.legacyDescription =
      firstGiven? b Key.description Key.legacyDescription)
    (extras : a.filter (fun m => isExtra m.1) = b.filter fun m => isExtra m.1) :
    token a parentType = token b parentType := by
  rw [token, token, value, type, description, extras]

/-- A tag that is an object is none, whatever it holds. -/
theorem typeOf_congr {a b : Members} (value : a.tokenValue = b.tokenValue)
    (tag : a.get? Key.type = b.get? Key.type)
    (older : a.get? Key.legacyType = b.get? Key.legacyType ∨ ∃ x y : Members,
      a.get? Key.legacyType = some (.obj x) ∧ b.get? Key.legacyType = some (.obj y) ∧
        x.isEmpty = y.isEmpty) (parentType : Option String) : typeOf a parentType = typeOf b parentType := by
  rw [typeOf, typeOf, firstGiven?, firstGiven?, value, tag]
  rcases older with same | ⟨x, y, before, after, sameEmpty⟩
  · rw [same]
  · rw [before, after, Option.filter_some, Option.filter_some, Json.isGiven, Json.isGiven, sameEmpty]
    cases (b.get? Key.type).filter Json.isGiven with
    | some tag => rfl
    | none => cases y.isEmpty <;> rfl

theorem firstGiven?_congr {a b : Members} {key legacy : String} (current : a.get? key = b.get? key)
    (older : a.get? legacy = b.get? legacy) : firstGiven? a key legacy = firstGiven? b key legacy := by
  rw [firstGiven?, firstGiven?, current, older]

end Normal

namespace UntypedToken

variable {u : UntypedToken} {handed : Option TokenType}

/-- A token with its type is converted as the token without it, if that is given the same type.  The
metadata of a wrapper may be joined on. -/
theorem Lacks.token_typed_join (lacks : u.Lacks handed) (extra : Members) {parentType : Option String}
    (given : Normal.typeOf (u.token.join extra) parentType = some u.type.name) :
    Normal.token (u.typed.join extra) parentType = Normal.token (u.token.join extra) parentType := by
  have same {key : String} (ne : key ≠ Key.type) :
      (u.typed.join extra).get? key = (u.token.join extra).get? key := by
    rw [Members.get?_join_eq_or, Members.get?_join_eq_or, u.get?_typed_of_ne ne]
  refine Normal.token_congr ?value ?type ?description ?extras
  case value =>
    rw [Members.tokenValue_eq, Members.tokenValue_eq, same (by decide), same (by decide)]
  case type =>
    rw [given, Normal.typeOf, Normal.firstGiven?, Members.get?_join_eq_or, u.get?_type_typed,
      Option.some_or, u.type.filter_isGiven]
    rfl
  case description => exact Normal.firstGiven?_congr (same (by decide)) (same (by decide))
  case extras =>
    have noExtra : Normal.isExtra Key.type = false := by decide
    rw [Members.filter_join, Members.filter_join, lacks.typed_eq, List.filter_append,
      List.filter_singleton, noExtra]
    exact congrArg (Members.join · _) (List.append_nil _)

/-- It becomes the same token, in its place or in that of the wrappers around it. -/
theorem Lacks.normalize_typed_join (lacks : u.Lacks handed) (extra : Members)
    {parentType : Option String}
    (given : Normal.typeOf (u.token.join extra) parentType = some u.type.name) :
    (Json.obj (u.typed.join extra)).normalize parentType =
      (Json.obj (u.token.join extra)).normalize parentType := by
  have stays := Members.hasValue_join lacks.hasValue extra
  have stays' := Members.hasValue_join (u.hasValue_typed.trans lacks.hasValue) extra
  rw [normalize_token (Members.unwrap?_of_hasValue stays) stays,
    normalize_token (Members.unwrap?_of_hasValue stays') stays', lacks.token_typed_join extra given]

end UntypedToken

/-- The conversion of a token reads a child of this name: a value or a description in the older
spelling, where there is none in the current one. -/
def Members.ReadsChild (ms : Members) (key : String) : Prop :=
  (key = Key.legacyValue ∧ ms.has Key.value = false) ∨
    (key = Key.legacyDescription ∧ (ms.get? Key.description).filter Json.isGiven = none)

namespace Substitution

variable {σ : Substitution} {ms : Members} {inherited : Option TokenType}

/-- Every entry gives a token below a group the type that the conversion gives it. -/
def TypesAlike (σ : Substitution) (ms : Members) (inherited : Option TokenType) : Prop :=
  ∀ chain new, σ chain = some new → ∃ u : UntypedToken, u.Stands ms inherited chain ∧
    new = u.inPlace chain ∧
      u.token.typeGiven ((Json.obj ms).passed ⟨.none, inherited⟩ chain) = some u.type.name

theorem TypesAlike.types (alike : σ.TypesAlike ms inherited) : σ.Types ms inherited := by
  intro chain new entry
  obtain ⟨u, stands, inPlace, -⟩ := alike chain new entry
  exact ⟨u, stands, inPlace⟩

/-- A member that is given its type is given it by the conversion too. -/
theorem TypesAlike.typeGiven (alike : σ.TypesAlike ms inherited) {key : String} (some_ : σ [key] ≠ .none)
    {u : UntypedToken} {handed : Option TokenType} (lacks : u.Lacks handed)
    (found : ms.get? key = some (.obj u.token)) :
    u.token.typeGiven (Passed.on ⟨.none, inherited⟩ ms) = some u.type.name := by
  obtain ⟨new, entry⟩ := Option.ne_none_iff_exists'.1 some_
  obtain ⟨u', stands, -, given⟩ := alike [key] new entry
  have atKey := stands.leads.at?
  rw [Json.at?_cons, found, Option.bind_some, Json.at?_nil] at atKey
  have sameToken := Json.obj.inj (Option.some.inj atKey)
  rw [Json.passed_cons found, Json.passed_nil] at given
  rw [lacks.type_eq stands.toLacks sameToken, sameToken]
  exact given

/-! ## Groups and wrappers -/

theorem TypesAlike.below (alike : σ.TypesAlike ms inherited) (noWrapper : ms.unwrap? = .none)
    {key : String} {group : Members} (found : ms.get? key = some (.obj group))
    (isGroup : group.isToken = false) : (σ.below key).TypesAlike group (ms.groupType?.or inherited) := by
  intro chain new entry
  obtain ⟨u, stands, rfl, given⟩ := alike (key :: chain) new entry
  obtain ⟨standsBelow, sameInPlace⟩ := stands.below found isGroup
  rw [Json.passed_cons found, Passed.on_group_none noWrapper] at given
  exact ⟨u, standsBelow, sameInPlace, given⟩

/-- Where no type is handed down through a wrapper, none is handed down through what it gives way to. -/
theorem handedDown_unwraps {inner group : Members} {key : String}
    (u : Members.Unwraps ms key (.obj group) inner) {chain : KeyChain} {node : Json}
    (leads : group.Leads chain node)
    (unhanded : (Json.obj group).handedDown (ms.groupType?.or inherited) chain = .none) :
    (Json.obj inner).handedDown inherited chain = .none := by
  obtain ⟨k, rest, child, rfl, found⟩ := leads.exists_member
  have sameChild : inner.get? k = group.get? k := by
    cases leads with
    | here notMeta | under notMeta => exact u.get?_eq notMeta
  rw [Json.handedDown_cons found, Json.handedDown_eq_or, Option.or_eq_none_iff, Option.or_eq_none_iff,
    Option.or_eq_none_iff] at unhanded
  obtain ⟨below, noType, noTypeAbove, noneInherited⟩ := unhanded
  have noTypeInside : inner.groupType? = .none := by
    have tag : inner.get? Key.type = (group.get? Key.type).or (ms.get? Key.type) := u.get?_type_eq
    rw [Members.groupType?] at noType noTypeAbove ⊢
    rw [tag]
    cases own : group.get? Key.type with
    | some tag =>
        rw [own] at noType
        exact noType
    | none => exact noTypeAbove
  rw [Json.handedDown_cons (sameChild.trans found), Json.handedDown_eq_or, below, noTypeInside,
    noneInherited]
  rfl

theorem TypesAlike.unwrap (alike : σ.TypesAlike ms inherited) {inner group : Members} {key : String}
    (wrapper : ms.unwrap? = some inner) (u : Members.Unwraps ms key (.obj group) inner)
    (found : ms.get? key = some (.obj group)) (isGroup : group.isToken = false) :
    (σ.below key).TypesAlike inner inherited := by
  intro chain new entry
  obtain ⟨v, stands, rfl, given⟩ := alike (key :: chain) new entry
  obtain ⟨standsBelow, sameInPlace⟩ := stands.below found isGroup
  have leads : inner.Leads chain _ := standsBelow.leads.congr fun k notMeta => u.get?_eq notMeta
  have unhanded := handedDown_unwraps u standsBelow.leads standsBelow.unhanded
  refine ⟨v, ⟨⟨stands.hasValue, stands.untyped, unhanded, stands.told⟩, leads⟩, sameInPlace, ?_⟩
  rw [Json.passed_cons found, Passed.on_wrapper wrapper, Option.or_none] at given
  rw [passed_unwraps u standsBelow.leads]
  exact given

theorem Types.below_of_isMeta (types : σ.Types ms inherited) {key : String} (isMeta : Key.isMeta key = true) :
    σ.below key = none := by
  funext rest
  by_contra some_
  obtain ⟨new, entry⟩ := Option.ne_none_iff_exists'.1 some_
  obtain ⟨u, stands, -⟩ := types (key :: rest) new entry
  cases stands.leads with
  | here notMeta | under notMeta =>
      rw [isMeta] at notMeta
      cases notMeta

/-- Metadata that is joined on stays as it is. -/
theorem substituteIn_join {extra : Members} (kept : ∀ m ∈ extra, σ.below m.1 = none)
    (sameKeys : (substituteIn σ ms).keys = ms.keys) :
    substituteIn σ (ms.join extra) = (substituteIn σ ms).join extra := by
  induction extra generalizing ms with
  | nil => rfl
  | cons m extra ih =>
      obtain ⟨keptHere, keptLater⟩ := List.forall_mem_cons.1 kept
      have appended : substituteIn σ (ms ++ [m]) = substituteIn σ ms ++ [m] := by
        rw [substituteIn_eq_flatMap, substituteIn_eq_flatMap, List.flatMap_append, List.flatMap_singleton,
          placed_of_below_none keptHere]
      have step : substituteIn σ (ms.putNew m.1 m.2) = (substituteIn σ ms).putNew m.1 m.2 := by
        rw [Members.putNew_eq, Members.putNew_eq, Members.has_congr sameKeys]
        split
        · rfl
        · exact appended
      have stepKeys : (substituteIn σ (ms.putNew m.1 m.2)).keys = (ms.putNew m.1 m.2).keys := by
        rw [step, Members.putNew_eq, Members.putNew_eq, Members.has_congr sameKeys]
        split
        · exact sameKeys
        · rw [Members.keys_append, Members.keys_append, sameKeys]
      show substituteIn σ ((ms.putNew m.1 m.2).join extra) = ((substituteIn σ ms).putNew m.1 m.2).join extra
      rw [ih keptLater stepKeys, step]

/-! ## Trees -/

/-- A member of a group is converted to the same, whether types are put in at it and below it or not. -/
theorem TypesMember.normalizeMember_eq {handed : Option TokenType} {key : String} {value value' : Json}
    (member : σ.TypesMember handed key value value')
    (typed : ∀ u : UntypedToken, value = .obj u.token → u.Lacks handed → σ [key] ≠ .none →
      u.token.typeGiven ⟨.none, handed⟩ = some u.type.name)
    (below : ∀ group : Members, value = .obj group → group.isToken = false →
      Key.isMeta key = false → (Json.obj (substituteIn (σ.below key) group)).normalize
        (handed.map TokenType.name) = (Json.obj group).normalize (handed.map TokenType.name)) :
    normalizeMember (handed.map TokenType.name) key value' =
      normalizeMember (handed.map TokenType.name) key value := by
  cases isMeta : Key.isMeta key with
  | true => rw [member.metadata isMeta]
  | false =>
      obtain ⟨-, node⟩ := member
      cases node with
      | kept => rfl
      | @typed u lacks some_ =>
          rw [normalizeMember_obj isMeta, normalizeMember_obj isMeta]
          refine lacks.normalize_typed_join [] ?_
          rw [← typed u rfl lacks some_]
          exact Members.TaggedBy.typeOf_eq (p := ⟨.none, handed⟩) (.refl u.token)
      | @below group isGroup =>
          rw [normalizeMember_obj isMeta, normalizeMember_obj isMeta]
          exact below group rfl isGroup isMeta

/-- With the types put in a wrapper gives way to what is converted to the same, or to what it gave way to
before, with types put in. -/
theorem TypesAlike.exists_unwrap? {handed : Option TokenType} (alike : σ.TypesAlike ms handed)
    (keyed : (Json.obj ms).isKeyed = true) {inner : Members} (wrapper : ms.unwrap? = some inner) :
    ∃ inner', (substituteIn σ ms).unwrap? = some inner' ∧
      ((Json.obj inner').normalize (handed.map TokenType.name) =
          (Json.obj inner).normalize (handed.map TokenType.name) ∨
        ∃ τ : Substitution, inner.hasValue = false ∧ τ.TypesAlike inner handed ∧
          inner' = substituteIn τ inner) := by
  obtain ⟨distinct, parts⟩ := (isKeyed_obj_iff ms).1 keyed
  have paired := alike.types.paired distinct
  obtain ⟨key, child, u⟩ := Members.unwraps_of_unwrap? wrapper
  have found := Members.get?_of_mem distinct u.mem_child.1
  obtain ⟨inner', wrapper'⟩ : ∃ inner', (substituteIn σ ms).unwrap? = some inner' := by
    rw [← Option.isSome_iff_exists, Members.unwrap?_isSome_congr paired.keys_eq, wrapper]
    rfl
  obtain ⟨key', child', u'⟩ := Members.unwraps_of_unwrap? wrapper'
  obtain ⟨value, mem, member⟩ := paired.exists_left u'.mem_child.1
  obtain ⟨rfl, rfl⟩ := u.key_eq u'.mem_child.2 (Members.get?_of_mem distinct mem)
  have sameMetadata : (substituteIn σ ms).metadata = ms.metadata :=
    paired.filter_eq Key.isMeta fun _ _ _ isMeta member => member.metadata isMeta
  have inner_eq := u.inner_eq
  have inner'_eq := u'.inner_eq
  rw [sameMetadata] at inner'_eq
  refine ⟨inner', wrapper', ?_⟩
  obtain ⟨-, node⟩ := member
  dsimp only at node
  cases node with
  | kept =>
      rw [inner_eq, inner'_eq]
      exact .inl rfl
  | @typed v lacks some_ =>
      have given := alike.typeGiven some_ lacks found
      rw [Passed.on_wrapper wrapper, Option.or_none] at given
      have told := Members.TaggedBy.typeOf_eq (p := ⟨_, handed⟩) u.taggedBy
      rw [inner_eq] at told
      rw [inner_eq, inner'_eq]
      exact .inl (lacks.normalize_typed_join _ (told.trans given))
  | @below group isGroup types =>
      refine .inr ⟨σ.below key', u.hasValue_eq.trans (noValue_of_isGroup isGroup),
        alike.unwrap wrapper u found isGroup, ?_⟩
      have groupDistinct := ((isKeyed_obj_iff group).1 (Members.isKeyed_of_get? keyed found)).1
      rw [inner_eq, inner'_eq]
      exact (substituteIn_join (fun m mem => types.below_of_isMeta (Members.mem_metadata mem).2)
        (types.paired groupDistinct).keys_eq).symm

/-- **Types that the conversion would give anyway make no difference to it.**  The induction is along
the conversion of the document without them. -/
theorem normalize_substitute (node : Json) (keyed : node.isKeyed = true) {σ : Substitution}
    {handed : Option TokenType}
    (alike : ∀ ms : Members, node = .obj ms → ms.hasValue = false ∧ σ.TypesAlike ms handed) :
    (node.substitute σ).normalize (handed.map TokenType.name) =
      node.normalize (handed.map TokenType.name) := by
  generalize same : handed.map TokenType.name = parentType
  induction parentType, node using normalize_induction generalizing σ handed with
  | list => rfl
  | token parentType ms noWrapper hasValue =>
      rw [(alike ms rfl).1] at hasValue
      cases hasValue
  | wrapper parentType ms inner wrapper ih =>
      subst same
      obtain ⟨-, alike⟩ := alike ms rfl
      obtain ⟨key, child, u⟩ := Members.unwraps_of_unwrap? wrapper
      obtain ⟨inner', wrapper', same | ⟨τ, noValue, below, rfl⟩⟩ :=
        alike.exists_unwrap? keyed wrapper
      · rw [Json.substitute, normalize_wrapper wrapper', normalize_wrapper wrapper, same]
      · rw [Json.substitute, normalize_wrapper wrapper', normalize_wrapper wrapper]
        refine ih (u.isKeyed keyed) (fun inner' same => ?_) rfl
        cases same
        exact ⟨noValue, below⟩
  | group parentType ms noWrapper noValue ih =>
      subst same
      obtain ⟨-, alike⟩ := alike ms rfl
      obtain ⟨distinct, parts⟩ := (isKeyed_obj_iff ms).1 keyed
      have types := alike.types
      have sameKeys := (types.paired distinct).keys_eq
      have sameType : groupTypeName (substituteIn σ ms) (handed.map TokenType.name) =
          (ms.groupType?.or handed).map TokenType.name := by
        rw [groupTypeName_map, types.groupType?_eq distinct]
      rw [groupTypeName_map] at ih
      have members : normalizeMembers ((ms.groupType?.or handed).map TokenType.name) (substituteIn σ ms) =
          normalizeMembers ((ms.groupType?.or handed).map TokenType.name) ms := by
        refine walk_congr (normalizeMembers_cons _) (paired_of_placed fun m mem => ?_)
        obtain ⟨key, value⟩ := m
        obtain ⟨value', placed, member⟩ := types.exists_placed distinct mem
        have found := Members.get?_of_mem distinct mem
        refine ⟨value', placed, member.normalizeMember_eq (fun u same lacks some_ => ?_)
          fun group same isGroup notMeta => ?_⟩
        · subst same
          rw [← Passed.on_group_none noWrapper]
          exact alike.typeGiven some_ lacks found
        · subst same
          refine ih (key, .obj group) mem notMeta (parts _ mem) (fun group' same => ?_) rfl
          cases same
          exact ⟨noValue_of_isGroup isGroup, alike.below noWrapper found isGroup⟩
      rw [Json.substitute, normalize_group (Members.unwrap?_eq_none_congr sameKeys noWrapper)
        ((Members.hasValue_congr sameKeys).trans noValue), normalize_group noWrapper noValue, sameType,
        groupTypeName_map, members]
  | scalar parentType value _ noObject =>
      cases value with
      | obj ms => exact absurd rfl (noObject ms)
      | _ => rfl

/-! ## Entries with a value -/

/-- Where nothing is put in, a node stays as it is. -/
theorem TypesNode.eq_of_none {handed : Option TokenType} {node node' : Json}
    (becomes : TypesNode none handed node node') : node' = node := by
  cases becomes with
  | kept => rfl
  | typed _ some_ => exact absurd rfl some_
  | @below group => exact congrArg Json.obj (substituteIn_none group)

/-- Only objects change, and none of them was or becomes empty. -/
theorem TypesNode.eq_or_objects {handed : Option TokenType} {node node' : Json}
    (becomes : TypesNode σ handed node node') (keyed : node.isKeyed = true) :
    node' = node ∨ ∃ a b : Members, node = .obj a ∧ node' = .obj b ∧ a.isEmpty = b.isEmpty := by
  cases becomes with
  | kept => exact .inl rfl
  | @typed u lacks =>
      refine .inr ⟨_, _, rfl, rfl, ?_⟩
      have hasValue := lacks.hasValue
      rw [lacks.typed_eq]
      cases token : u.token with
      | nil =>
          rw [token] at hasValue
          cases hasValue
      | cons => rfl
  | @below group isGroup types =>
      have sameKeys := (types.paired ((isKeyed_obj_iff group).1 keyed).1).keys_eq
      exact .inr ⟨_, _, rfl, rfl, (Members.isEmpty_congr sameKeys).symm⟩

/-- A root entry with a value is converted as a token.  It keeps nothing of its children but a value and
a description in the older spelling. -/
theorem Types.token_eq (types : σ.Types ms inherited) (keyed : (Json.obj ms).isKeyed = true)
    (apart : ∀ key, ms.ReadsChild key → σ.below key = none) (parentType : Option String) :
    Normal.token (substituteIn σ ms) parentType = Normal.token ms parentType := by
  obtain ⟨distinct, parts⟩ := (isKeyed_obj_iff ms).1 keyed
  have paired := types.paired distinct
  have sameMeta {key : String} (isMeta : Key.isMeta key = true) :
      (substituteIn σ ms).get? key = ms.get? key :=
    paired.get?_eq fun _ _ member => member.metadata isMeta
  have unread {key : String} (reads : ms.ReadsChild key) : (substituteIn σ ms).get? key = ms.get? key := by
    refine paired.get?_eq fun value value' member => ?_
    have becomes := member.node
    rw [apart key reads] at becomes
    exact becomes.eq_of_none
  have sameValue : (substituteIn σ ms).tokenValue = ms.tokenValue := by
    rw [Members.tokenValue_eq, Members.tokenValue_eq, sameMeta (by decide)]
    cases found : ms.get? Key.value with
    | some value => rw [Option.some_or, Option.some_or]
    | none => rw [unread (.inl ⟨rfl, by rw [Members.has, found]; rfl⟩)]
  refine Normal.token_congr sameValue ?type ?description ?extras
  case type =>
    refine Normal.typeOf_congr sameValue (sameMeta (by decide)) ?_ parentType
    cases found : ms.get? Key.legacyType with
    | none =>
        rw [Members.get?_eq_none_iff, ← paired.keys_eq, ← Members.get?_eq_none_iff] at found
        exact .inl found
    | some tag =>
        obtain ⟨tag', found', member⟩ := paired.get? found
        rw [found']
        refine (member.node.eq_or_objects (Members.isKeyed_of_get? keyed found)).imp (congrArg some) ?_
        rintro ⟨x, y, rfl, rfl, sameEmpty⟩
        exact ⟨y, x, rfl, rfl, sameEmpty.symm⟩
  case description =>
    rw [Normal.firstGiven?, Normal.firstGiven?, sameMeta (by decide)]
    cases found : (ms.get? Key.description).filter Json.isGiven with
    | some text => rw [Option.some_or, Option.some_or]
    | none => rw [unread (.inr ⟨rfl, found⟩)]
  case extras =>
    exact paired.filter_eq Normal.isExtra fun _ _ _ isExtra member =>
      member.metadata (Normal.isMeta_of_isExtra isExtra)

end Substitution

/-! ## Documents -/

/-- It makes no difference to the conversion of a root entry whether a token in it has its type: in a
group the token is given the same type, and in what is taken for a token it is not read. -/
structure UntypedToken.Alike (u : UntypedToken) (entry : Members) (inherited : Option TokenType)
    (below : KeyChain) : Prop where
  typeGiven : entry.hasValue = false →
    u.token.typeGiven ((Json.obj entry).passed ⟨none, inherited⟩ below) = some u.type.name
  unread : entry.hasValue = true → ∀ key rest, below = key :: rest → ¬ entry.ReadsChild key

namespace Substitution

variable {σ : Substitution} {entry : Members} {inherited : Option TokenType}

/-- A root entry is converted to the same with types put in below it. -/
theorem Types.normalize_eq (types : σ.Types entry inherited) (keyed : (Json.obj entry).isKeyed = true)
    (alike : ∀ below u, UntypedToken.Stands u entry inherited below → σ below ≠ .none →
      u.Alike entry inherited below) :
    (Json.obj (substituteIn σ entry)).normalize (inherited.map TokenType.name) =
      (Json.obj entry).normalize (inherited.map TokenType.name) := by
  have typesAlike : entry.hasValue = false → σ.TypesAlike entry inherited := by
    intro noValue below new atChain
    obtain ⟨u, stands, inPlace⟩ := types below new atChain
    have some_ : σ below ≠ .none := Option.ne_none_iff_exists'.2 ⟨new, atChain⟩
    exact ⟨u, stands, inPlace, (alike below u stands some_).typeGiven noValue⟩
  cases hasValue : entry.hasValue with
  | false =>
      refine normalize_substitute (.obj entry) keyed fun ms same => ?_
      cases same
      exact ⟨hasValue, typesAlike hasValue⟩
  | true =>
      have sameKeys := (types.paired ((isKeyed_obj_iff entry).1 keyed).1).keys_eq
      have stays : (substituteIn σ entry).hasValue = true :=
        (Members.hasValue_congr sameKeys).trans hasValue
      rw [normalize_token (Members.unwrap?_of_hasValue stays) stays,
        normalize_token (Members.unwrap?_of_hasValue hasValue) hasValue,
        types.token_eq keyed fun key reads => ?_]
      funext rest
      by_contra some_
      obtain ⟨new, atChain⟩ := Option.ne_none_iff_exists'.1 some_
      obtain ⟨u, stands, -⟩ := types (key :: rest) new atChain
      exact (alike _ u stands some_).unread hasValue key rest rfl reads

/-- **A document is converted to the same with types put in**, where the conversion would give the same
types. -/
theorem TypesBelow.normalizeDocument_eq {document : Members} (types : σ.TypesBelow document)
    (keyed : (Json.obj document).isKeyed = true)
    (alike : ∀ name entry below u, document.get? name = some (.obj entry) →
      UntypedToken.Stands u entry document.groupType? below → σ (name :: below) ≠ .none →
        u.Alike entry document.groupType? below) :
    normalizeDocument (.obj (substituteIn σ document)) = normalizeDocument (.obj document) := by
  have rootType (ms : Members) : groupTypeName ms .none = ms.groupType?.map TokenType.name :=
    Option.or_none
  have entries : Normal.entries (document.groupType?.map TokenType.name) (substituteIn σ document) =
      Normal.entries (document.groupType?.map TokenType.name) document := by
    refine walk_congr (Normal.entries.eq_2 _) (paired_of_placed fun m mem => ?_)
    obtain ⟨name, value⟩ := m
    have found := Members.get?_of_mem ((isKeyed_obj_iff document).1 keyed).1 mem
    refine ⟨_, placed_of_none (types.kept name), ?_⟩
    dsimp only
    cases isGroup : isTokenGroup name value with
    | false => rw [types.below_eq_none found isGroup, Json.substitute_none]
    | true =>
        obtain ⟨entry, rfl⟩ := exists_members_of_isTokenGroup isGroup
        have stays : isTokenGroup name (.obj (substituteIn (σ.below name) entry)) = true := isGroup
        rw [Normal.entry, Normal.entry, if_pos isGroup, Json.substitute, if_pos stays]
        exact (types.below found).normalize_eq (Members.isKeyed_of_get? keyed found)
          fun below u stands some_ => alike name entry below u found stands some_
  rw [normalizeDocument, normalizeDocument, rootType, rootType, types.groupType?_eq, entries]

end Substitution

end DesignTokens
