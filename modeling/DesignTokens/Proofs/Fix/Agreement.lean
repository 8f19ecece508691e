/-
# DesignTokens.Proofs.Fix.Agreement -- where the fixes and the conversion agree on types

The fixes and the conversion each choose a type for a token that lacks one, and they do not read the
older spelling alike.  A fix passes over a `type` that is no known one and goes by the value; the
conversion takes it as it is.  So a document is converted to the same with all its missing types put in
first, unless a token that is given a type this way names an unknown one in the older spelling
(`typings_agree`).

The two see the same tokens only where the conversion leaves them in sight (`UntypedToken.InSight`).
What stands in a root entry with a value is not converted, and a wrapper puts its own tag on the token
that it gives way to.
-/
import DesignTokens.Proofs.Normal.Keyed
import DesignTokens.Proofs.Normal.Typed

namespace DesignTokens

set_option autoImplicit false

/-! ## The type of a token in sight -/

/-- A type in the older spelling is a known one, if it is given at all. -/
def Members.KnownLegacy (token : Members) : Prop :=
  ∀ name, token.get? Key.legacyType = some (.str name) → name.isEmpty = false →
    ∃ t : TokenType, name = t.name

/-- No known type is passed on, neither by a group nor by a wrapper. -/
structure Passed.Typeless (p : Passed) : Prop where
  tag : p.tag.bind TokenType.ofTag? = none
  handed : p.handed = none

theorem Passed.Typeless.on {p : Passed} (typeless : p.Typeless) {ms : Members}
    (noType : ms.groupType? = none) : (p.on ms).Typeless := by
  have noTag : ((ms.get? Key.type).or p.tag).bind TokenType.ofTag? = none := by
    rw [Members.groupType?] at noType
    cases own : ms.get? Key.type with
    | some tag => rwa [own] at noType
    | none => exact typeless.tag
  cases wrapper : ms.unwrap? with
  | some inner =>
      rw [Passed.on_wrapper wrapper]
      exact ⟨noTag, typeless.handed⟩
  | none =>
      rw [Passed.on_group wrapper, noTag, Option.none_or]
      exact ⟨rfl, typeless.handed⟩

/-- What a check hands no type down to is passed no known type by the conversion. -/
theorem Passed.Typeless.passed {node end_ : Json} {chain : KeyChain} (leads : node.at? chain = some end_)
    (unhanded : node.handedDown none chain = none) {p : Passed} (typeless : p.Typeless) :
    (node.passed p chain).Typeless := by
  induction chain generalizing node p with
  | nil =>
      rw [Json.passed_nil]
      exact typeless
  | cons key rest ih =>
      cases node with
      | obj ms =>
          rw [Json.at?_cons] at leads
          obtain ⟨child, found, onward⟩ := Option.bind_eq_some_iff.1 leads
          rw [Json.handedDown_cons found, Json.handedDown_eq_or, Option.or_none,
            Option.or_eq_none_iff] at unhanded
          rw [Json.passed_cons found]
          exact ih onward unhanded.1 (typeless.on unhanded.2)
      | _ => cases leads

/-- Where nothing is passed to a token but what does not count, it is given the type of the fix exactly
if the older spelling names no unknown one. -/
theorem UntypedToken.Lacks.typeGiven_iff {u : UntypedToken} {handed : Option TokenType}
    (lacks : u.Lacks handed) {p : Passed} (typeless : p.Typeless)
    (untagged : p.tag.filter Json.isGiven = none) :
    u.token.typeGiven p = some u.type.name ↔ u.token.KnownLegacy := by
  have untyped := lacks.untyped
  have told := lacks.told
  rw [Members.has, Option.isSome_eq_false_iff, Option.isNone_iff_eq_none] at untyped
  rw [Members.typeGiven, untyped, Option.none_or, untagged, Option.none_or, typeless.handed]
  rw [UntypedToken.type?] at told
  by_cases named : ∃ name, u.token.get? Key.legacyType = some (.str name) ∧ name.isEmpty = false
  · obtain ⟨name, legacy, given⟩ := named
    have tag : (some (Json.str name)).filter Json.isGiven = some (.str name) := by
      rw [Option.filter_some, Json.isGiven, given]
      rfl
    rw [legacy, tag, Option.map_none, Option.some_or]
    constructor
    · intro same name' found _
      cases legacy.symm.trans found
      exact ⟨u.type, Option.some.inj same⟩
    · intro known
      obtain ⟨t, rfl⟩ := known name legacy given
      rw [legacy, Option.bind_some, TokenType.ofTag?_name, Option.some_or] at told
      rw [Option.some.inj told]
  -- What is no given text leaves both to the value.
  · have noType : (u.token.get? Key.legacyType).bind TokenType.ofTag? = none := by
      refine Option.eq_none_iff_forall_ne_some.2 fun t typed => ?_
      obtain ⟨tag, found, isType⟩ := Option.bind_eq_some_iff.1 typed
      rw [TokenType.eq_of_ofTag? isType] at found
      exact named ⟨t.name, found, t.name_isEmpty⟩
    rw [noType, Option.none_or] at told
    refine iff_of_true ?_ fun name found given => absurd ⟨name, found, given⟩ named
    rw [told]
    cases tag : (u.token.get? Key.legacyType).filter Json.isGiven with
    | none => rfl
    | some value =>
        obtain ⟨found, given⟩ := Option.filter_eq_some_iff.1 tag
        cases value with
        | str name => exact absurd ⟨name, found, by simpa [Json.isGiven] using given⟩ named
        | _ => rfl

/-! ## Types after the conversion -/

namespace Substitution

/-- Putting types in does not change what is a wrapper. -/
theorem Types.collapse_eq {ms : Members} {chain : KeyChain} {node : Json} (leads : ms.Leads chain node)
    {σ : Substitution} {inherited : Option TokenType} (types : σ.Types ms inherited)
    (keyed : (Json.obj ms).isKeyed = true) :
    (Json.obj (substituteIn σ ms)).collapse chain = (Json.obj ms).collapse chain := by
  induction leads generalizing σ inherited with
  | @here ms key node notMeta found =>
      have paired := types.paired ((isKeyed_obj_iff ms).1 keyed).1
      obtain ⟨node', found', -⟩ := paired.get? found
      rw [Json.collapse, Json.collapse, Members.unwrap?_isSome_congr paired.keys_eq, found, found']
      simp
  | @under ms group key rest node notMeta found isGroup onward ih =>
      have paired := types.paired ((isKeyed_obj_iff ms).1 keyed).1
      obtain ⟨group', found', member⟩ := paired.get? found
      obtain ⟨typesBelow, rfl⟩ := member.node.of_isGroup isGroup
      have below := ih typesBelow (Members.isKeyed_of_get? keyed found)
      rw [Json.collapse, Json.collapse, Members.unwrap?_isSome_congr paired.keys_eq, found, found',
        Option.map_some, Option.map_some, below]

end Substitution

/-- Equal documents carry the same types. -/
theorem Json.CarriesType.of_same {a b : Json} {chain : KeyChain} {t : TokenType}
    (carries : b.CarriesType chain t) (keyed : a.isKeyed = true) (equal : same a b = true) :
    a.CarriesType chain t := by
  obtain ⟨image, leads, tag⟩ := carries
  obtain ⟨node, leads', sameNode⟩ := same_at? keyed equal leads
  obtain ⟨image', rfl⟩ := isObject_of_same sameNode
  have distinct := ((isKeyed_obj_iff image').1 (isKeyed_of_at? keyed leads')).1
  obtain ⟨value, found, sameTag⟩ := get?_of_same distinct sameNode tag
  refine ⟨image', leads', ?_⟩
  cases value with
  | str name =>
      rw [same, beq_iff_eq] at sameTag
      rw [found, sameTag]
  | _ => simp [same, sameScalar, numeric?] at sameTag

/-- In a document the type that a token below a root entry is given is the one that it carries. -/
theorem carriesType_iff_of_entry {document : Members} {out : Json}
    (converted : normalizeDocument (.obj document) = .ok out) {name : String} {entry token : Members}
    {below : KeyChain} (found : document.get? name = some (.obj entry))
    (isGroup : isTokenGroup name (.obj entry) = true) (leads : entry.Leads below (.obj token))
    (hasValue : token.hasValue = true) (noValue : entry.hasValue = false) (t : TokenType) :
    out.CarriesType (name :: (Json.obj entry).collapse below) t ↔
      token.typeGiven ((Json.obj entry).passed ⟨none, document.groupType?⟩ below) = some t.name := by
  obtain ⟨entries, rfl, paired⟩ := (normalizeDocument_obj_eq_ok_iff document out).1 converted
  obtain ⟨entry', found', made⟩ := paired.get? found
  rw [Normal.entry, if_pos isGroup, groupTypeName, Option.or_none] at made
  rw [← carriesType_iff_of_leads leads hasValue noValue made t, Json.CarriesType, Json.CarriesType,
    Json.at?_cons, found', Option.bind_some]

/-- After the conversion a token that was given its type carries it where it would stand without it. -/
theorem Substitution.TypesBelow.carriesType {σ : Substitution} {document : Members}
    (types : σ.TypesBelow document) (keyed : (Json.obj document).isKeyed = true) {name : String}
    {entry : Members} {below : KeyChain} (found : document.get? name = some (.obj entry))
    (isGroup : isTokenGroup name (.obj entry) = true) {u : UntypedToken}
    (stands : u.Stands entry document.groupType? below) (some_ : σ (name :: below) ≠ .none)
    (noValue : entry.hasValue = false) {out : Json}
    (converted : normalizeDocument (.obj (substituteIn σ document)) = .ok out) :
    out.CarriesType (name :: (Json.obj entry).collapse below) u.type := by
  have entryKeyed := Members.isKeyed_of_get? keyed found
  have typesBelow := types.below found
  have sameKeys := (typesBelow.paired ((isKeyed_obj_iff entry).1 entryKeyed).1).keys_eq
  obtain ⟨entry', found', same⟩ := types.paired.get? found
  rw [same] at found'
  rw [← typesBelow.collapse_eq stands.leads entryKeyed]
  refine (carriesType_iff_of_entry converted found' isGroup (types.leads_typed keyed found stands some_)
    (u.hasValue_typed.trans stands.hasValue) ((Members.hasValue_congr sameKeys).trans noValue) u.type).2 ?_
  exact Members.typeGiven_of_ownTag u.get?_type_typed _

/-! ## Documents -/

namespace UntypedToken

/-- The conversion gets to the token: its root entry is no token itself. -/
def Reached (u : UntypedToken) (document : Members) : Prop :=
  ∃ (name : String) (entry : Members) (below : KeyChain), u.keys = name :: below ∧
    document.get? name = some (.obj entry) ∧ entry.hasValue = false

/-- What the conversion makes of the token, and of what is around it, is a matter of its type alone.  No
wrapper puts a tag on it, and a root entry with a value is not converted by what is in it. -/
structure InSight (u : UntypedToken) (document : Members) : Prop where
  untagged : ∀ (name : String) (entry : Members) (below : KeyChain), u.keys = name :: below →
    document.get? name = some (.obj entry) → entry.hasValue = false →
      ((Json.obj entry).passed ⟨none, document.groupType?⟩ below).tag.filter Json.isGiven = none
  unread : ∀ (name : String) (entry : Members) (key : String) (rest : KeyChain),
    u.keys = name :: key :: rest → document.get? name = some (.obj entry) → entry.hasValue = true →
      ¬ entry.ReadsChild key

variable {u : UntypedToken} {document : Members}

/-- A token in sight is given the type of the fix exactly if it names no unknown one. -/
theorem InSight.typeGiven_iff (inSight : u.InSight document) {name : String} {entry : Members}
    {below : KeyChain} (keysEq : u.keys = name :: below) (found : document.get? name = some (.obj entry))
    (stands : u.Stands entry document.groupType? below) (noValue : entry.hasValue = false) :
    u.token.typeGiven ((Json.obj entry).passed ⟨none, document.groupType?⟩ below) = some u.type.name ↔
      u.token.KnownLegacy := by
  have unhanded := stands.unhanded
  rw [Json.handedDown_eq_or, Option.or_eq_none_iff] at unhanded
  have typeless : (Passed.mk none document.groupType?).Typeless := ⟨rfl, unhanded.2⟩
  exact stands.typeGiven_iff (typeless.passed stands.leads.at? unhanded.1)
    (inSight.untagged name entry below keysEq found noValue)

/-- Such a token may as well have its type. -/
theorem InSight.alike (inSight : u.InSight document)
    (known : u.Reached document → u.token.KnownLegacy) {name : String} {entry : Members}
    {below : KeyChain} (keysEq : u.keys = name :: below) (found : document.get? name = some (.obj entry))
    (stands : u.Stands entry document.groupType? below) :
    u.Alike entry document.groupType? below where
  typeGiven noValue :=
    (inSight.typeGiven_iff keysEq found stands noValue).2 (known ⟨name, entry, below, keysEq, found, noValue⟩)
  unread hasValue key rest same := by
    subst same
    exact inSight.unread name entry key rest keysEq found hasValue

end UntypedToken

namespace Fix

/-- The typings that a document offers are for the tokens that lack a type. -/
theorem exists_typing_iff {document : Members} (keyed : (Json.obj document).isKeyed = true)
    {chain : KeyChain} :
    (∃ f ∈ offers (.obj document), f.type = .addType ∧ f.target = chain) ↔
      ∃ u ∈ untypedTokens document, u.keys = chain := by
  have target_eq {u : UntypedToken} (mem : u ∈ untypedTokens document) (index : Nat) :
      target { u.toFix index with approved := true } = u.keys := by
    obtain ⟨name, entry, below, -, -, keysEq, -⟩ := mem_untypedTokens mem keyed
    rw [target_toFix_untyped keysEq, keysEq]
  constructor
  · rintro ⟨f, offered, typing, rfl⟩
    obtain ⟨g, collected, rfl⟩ := mem_approve_all offered
    obtain ⟨u, mem, index, rfl⟩ := exists_untyped_of_mem_collect collected typing
    exact ⟨u, mem, (target_eq mem index).symm⟩
  · rintro ⟨u, mem, rfl⟩
    obtain ⟨index, atIndex⟩ := List.mem_iff_getElem?.1 mem
    have inList : (u, index) ∈ (untypedTokens document).zipIdx :=
      List.mk_mem_zipIdx_iff_getElem?.2 atIndex
    have collected : u.toFix index ∈ collect (.obj document) :=
      List.mem_append_left _ (List.mem_map.2 ⟨_, inList, rfl⟩)
    exact ⟨_, List.mem_map_of_mem collected, rfl, target_eq mem index⟩

end Fix

/-- **Where the fixes and the conversion agree on types.**  All types that a document lacks are put in, in
any order.  The document is then converted to the same as without them, if the tokens that got their
types are in sight and name no unknown type in the older spelling where the conversion gets to them.
And where the two conversions come to equal documents, no token in sight that the conversion gets to
names one. -/
theorem typings_agree {document : Members} (keyed : (Json.obj document).isKeyed = true) {fixes : List Fix}
    (all : ∀ f, f ∈ fixes ↔ f ∈ Fix.offers (.obj document) ∧ f.type = .addType) :
    ∃ typed, (applyApproved (.obj document) fixes).2 = .ok typed ∧
      (∀ u ∈ untypedTokens document, typed.at? u.keys = some (.obj u.typed)) ∧
      ((∀ u ∈ untypedTokens document,
          u.InSight document ∧ (u.Reached document → u.token.KnownLegacy)) →
        normalizeDocument typed = normalizeDocument (.obj document)) ∧
      ∀ out out', normalizeDocument (.obj document) = .ok out → normalizeDocument typed = .ok out' →
        out.equal out' = true →
          ∀ u ∈ untypedTokens document, u.InSight document → u.Reached document → u.token.KnownLegacy := by
  obtain ⟨σ, types, entries, result, -⟩ := Fixer.exists_typesBelow keyed (fun f mem => ((all f).1 mem).1)
    fun f mem => ((all f).1 mem).2
  have entry_iff (chain : KeyChain) : σ chain ≠ none ↔ ∃ u ∈ untypedTokens document, u.keys = chain := by
    rw [entries, ← Fix.exists_typing_iff keyed]
    simp only [all, and_assoc]
  refine ⟨_, result, fun u mem => ?typed, fun known => ?same,
    fun out out' converted converted' equal u mem inSight => ?known⟩
  case typed =>
    obtain ⟨name, entry, below, found, -, keysEq, stands⟩ := mem_untypedTokens mem keyed
    rw [keysEq]
    exact types.at?_typed keyed found stands ((entry_iff _).2 ⟨u, mem, keysEq⟩)
  case same =>
    refine types.normalizeDocument_eq keyed fun name entry below u found stands some_ => ?_
    obtain ⟨v, mem, keysEq⟩ := (entry_iff _).1 some_
    obtain ⟨name', entry', below', found', -, keysEq', stands'⟩ := mem_untypedTokens mem keyed
    cases keysEq.symm.trans keysEq'
    cases found.symm.trans found'
    have sameToken := Json.obj.inj (Option.some.inj (stands'.leads.at?.symm.trans stands.leads.at?))
    have sameType := stands'.toLacks.type_eq stands.toLacks sameToken
    have alike := (known v mem).1.alike (known v mem).2 keysEq found stands'
    refine ⟨?_, alike.unread⟩
    rw [← sameToken, ← sameType]
    exact alike.typeGiven
  case known =>
    rintro ⟨name, entry, below, keysEq, found, noValue⟩
    obtain ⟨name', entry', below', found', isGroup, keysEq', stands⟩ := mem_untypedTokens mem keyed
    cases keysEq.symm.trans keysEq'
    cases found.symm.trans found'
    have some_ := (entry_iff _).2 ⟨u, mem, keysEq⟩
    have carries := types.carriesType keyed found isGroup stands some_ noValue converted'
    obtain ⟨members, rfl, -⟩ := (normalizeDocument_obj_eq_ok_iff _ _).1 converted'
    rw [Fix.equal_obj_right] at equal
    rw [← inSight.typeGiven_iff keysEq found stands noValue,
      ← carriesType_iff_of_entry converted found isGroup stands.leads stands.hasValue noValue u.type]
    exact carries.of_same (isKeyed_normalizeDocument keyed converted) equal

namespace Example

/-- A width whose type is named in the older spelling. -/
def titleSize : Members :=
  [("text", .obj [("title", .obj [("value", .str "4px"), ("type", .str "fontSize")])])]

/-- A number that is called a size. -/
def gapSize : Members :=
  [("gap", .obj [("$value", .int 4), ("type", .str "size")])]

/-- The number with the type that its value suggests. -/
def numberedGap : Members :=
  [("gap", .obj [("$value", .int 4), ("type", .str "size"), ("$type", .str "number")])]

/-- The type of the title is put in, and makes no difference to the conversion. -/
theorem titleSize_agrees :
    (Json.obj titleSize).isKeyed = true ∧
      (∀ f, f ∈ Fix.offers (.obj titleSize) ↔ f ∈ Fix.offers (.obj titleSize) ∧ f.type = .addType) ∧
      ∃ typed, (applyApproved (.obj titleSize) (Fix.offers (.obj titleSize))).2 = .ok typed ∧
        normalizeDocument typed = normalizeDocument (.obj titleSize) := by
  have keyed : (Json.obj titleSize).isKeyed = true := by decide
  have typings : (Fix.offers (.obj titleSize)).map Fix.type = [.addType] := rfl
  have all (f : Fix) :
      f ∈ Fix.offers (.obj titleSize) ↔ f ∈ Fix.offers (.obj titleSize) ∧ f.type = .addType := by
    refine ⟨fun mem => ⟨mem, ?_⟩, And.left⟩
    have type := List.mem_map_of_mem (f := Fix.type) mem
    rw [typings] at type
    exact List.mem_singleton.1 type
  obtain ⟨typed, result, -, same, -⟩ := typings_agree keyed all
  refine ⟨keyed, all, typed, result, same fun u mem => ?_⟩
  obtain rfl : u = ⟨["text", "title"], [("value", .str "4px"), ("type", .str "fontSize")], .fontSize⟩ :=
    List.mem_singleton.1 mem
  refine ⟨⟨fun name entry below keysEq found _ => ?_, fun name entry key rest keysEq found hasValue => ?_⟩,
    fun _ name found _ => ?_⟩
  · cases keysEq
    cases found
    rfl
  · cases keysEq
    cases found
    cases hasValue
  · cases found
    exact ⟨.fontSize, rfl⟩

theorem normalize_gapSize :
    normalizeDocument (.obj [("sizes", .obj gapSize)]) =
      .ok (.obj [("sizes", .obj [("gap", .obj [("$value", .int 4), ("$type", .str "size")])])]) := by
  have members : normalizeMembers none gapSize =
      .ok [("gap", .obj [("$value", .int 4), ("$type", .str "size")])] :=
    (normalizeMembers_eq_ok_iff _ _ _).2 (.cons ⟨rfl, normalize_token rfl rfl _⟩ .nil)
  refine (normalizeDocument_obj_eq_ok_iff _ _).2 ⟨_, rfl, .cons ⟨rfl, ?_⟩ .nil⟩
  calc (Json.obj gapSize).normalize none
      = (normalizeMembers none gapSize).map .obj := normalize_group rfl rfl none
    _ = .ok (.obj [("gap", .obj [("$value", .int 4), ("$type", .str "size")])]) := by rw [members]; rfl

theorem normalize_numberedGap :
    normalizeDocument (.obj [("sizes", .obj numberedGap)]) =
      .ok (.obj [("sizes", .obj [("gap", .obj [("$value", .int 4), ("$type", .str "number")])])]) := by
  have members : normalizeMembers none numberedGap =
      .ok [("gap", .obj [("$value", .int 4), ("$type", .str "number")])] :=
    (normalizeMembers_eq_ok_iff _ _ _).2 (.cons ⟨rfl, normalize_token rfl rfl _⟩ .nil)
  refine (normalizeDocument_obj_eq_ok_iff _ _).2 ⟨_, rfl, .cons ⟨rfl, ?_⟩ .nil⟩
  calc (Json.obj numberedGap).normalize none
      = (normalizeMembers none numberedGap).map .obj := normalize_group rfl rfl none
    _ = .ok (.obj [("gap", .obj [("$value", .int 4), ("$type", .str "number")])]) := by rw [members]; rfl

/-- **The two do not agree on an unknown type**: with the type that its value suggests the token is
converted to a number, and without it to a size, which is no type. -/
theorem gapSize_disagrees :
    (Fix.offers (.obj [("sizes", .obj gapSize)])).map Fix.type = [.addType] ∧
      (applyApproved (.obj [("sizes", .obj gapSize)]) (Fix.offers (.obj [("sizes", .obj gapSize)]))).2 =
        .ok (.obj [("sizes", .obj numberedGap)]) ∧
      ∃ out out', normalizeDocument (.obj [("sizes", .obj gapSize)]) = .ok out ∧
        normalizeDocument (.obj [("sizes", .obj numberedGap)]) = .ok out' ∧ out.equal out' = false :=
  ⟨rfl, rfl, _, _, normalize_gapSize, normalize_numberedGap, rfl⟩

end Example

end DesignTokens
