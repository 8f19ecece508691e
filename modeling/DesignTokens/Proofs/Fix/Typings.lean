/-
# DesignTokens.Proofs.Fix.Typings -- documents with types put in

A batch of fixes that give tokens their types is a substitution of a simple kind
(`Substitution.Types`).  Each entry stands at a token that lacks its type and puts the same token
there, with its tag at the end.  So nothing moves and nothing is renamed: member for member, a value
is kept, a token is given its type, or types are put in below a group (`Types.paired`).

No tag is put on anything that others stand below.  Every node is still led to by its chain, and is
handed the type that it was handed before (`Types.exists_leads`).
-/
import DesignTokens.Proofs.Fix.Batch

namespace DesignTokens

set_option autoImplicit false

namespace UntypedToken

/-- The token with the type it can be given. -/
def typed (u : UntypedToken) : Members :=
  u.token.put Key.type (.str u.type.name)

/-- What is put in the place of the token at the end of a chain. -/
def inPlace (u : UntypedToken) (chain : KeyChain) : Members :=
  [(chain.getLastD "", .obj u.typed)]

theorem inPlace_cons (u : UntypedToken) (key : String) {chain : KeyChain} (more : chain ≠ []) :
    u.inPlace (key :: chain) = u.inPlace chain := by
  cases chain with
  | nil => exact absurd rfl more
  | cons k chain => rfl

theorem get?_type_typed (u : UntypedToken) : u.typed.get? Key.type = some (.str u.type.name) :=
  Members.get?_put_self _ _ _

theorem get?_typed_of_ne (u : UntypedToken) {key : String} (ne : key ≠ Key.type) :
    u.typed.get? key = u.token.get? key :=
  Members.get?_put_of_ne _ _ ne

theorem hasValue_typed (u : UntypedToken) : u.typed.hasValue = u.token.hasValue := by
  rw [Members.hasValue_eq, Members.hasValue_eq, Members.has, Members.has, Members.has, Members.has,
    u.get?_typed_of_ne (by decide), u.get?_typed_of_ne (by decide)]

theorem tokenValue_typed (u : UntypedToken) : u.typed.tokenValue = u.token.tokenValue := by
  rw [Members.tokenValue_eq, Members.tokenValue_eq, u.get?_typed_of_ne (by decide),
    u.get?_typed_of_ne (by decide)]

theorem Lacks.isToken {u : UntypedToken} {handed : Option TokenType} (lacks : u.Lacks handed) :
    u.token.isToken = true := by
  rw [Members.isToken, lacks.hasValue, Bool.true_or]

theorem Lacks.isToken_typed {u : UntypedToken} {handed : Option TokenType} (lacks : u.Lacks handed) :
    u.typed.isToken = true := by
  rw [Members.isToken, u.hasValue_typed, lacks.hasValue, Bool.true_or]

/-- A token with its type is the token without it, with one member more. -/
theorem Lacks.typed_eq {u : UntypedToken} {handed : Option TokenType} (lacks : u.Lacks handed) :
    u.typed = u.token ++ [(Key.type, .str u.type.name)] :=
  Members.put_of_has_eq_false lacks.untyped _

/-- The same token is given the same type. -/
theorem Lacks.type_eq {u u' : UntypedToken} {handed handed' : Option TokenType} (lacks : u.Lacks handed)
    (lacks' : u'.Lacks handed') (same : u.token = u'.token) : u.type = u'.type := by
  have told := lacks.told
  rw [same, lacks'.told] at told
  exact (Option.some.inj told).symm

/-- What is given its type has it, whatever is handed to it. -/
theorem typeOr_typed (u : UntypedToken) (otherwise : Option TokenType) :
    u.typed.typeOr otherwise = some u.type := by
  rw [Members.typeOr, u.get?_type_typed, Option.some_or]
  exact TokenType.ofTag?_name u.type

/-- A token that stands below a group stands below what the group stands in. -/
theorem Stands.below {u : UntypedToken} {ms group : Members} {inherited : Option TokenType} {key : String}
    {chain : KeyChain} (stands : u.Stands ms inherited (key :: chain))
    (found : ms.get? key = some (.obj group)) (isGroup : group.isToken = false) :
    u.Stands group (ms.groupType?.or inherited) chain ∧ u.inPlace (key :: chain) = u.inPlace chain := by
  have lacks := stands.toLacks
  cases stands.leads with
  | here _ found' =>
      cases found.symm.trans found'
      rw [lacks.isToken] at isGroup
      cases isGroup
  | under _ found' _ onward =>
      cases found.symm.trans found'
      rw [Json.handedDown_cons found] at lacks
      obtain ⟨k, rest, -, rfl, -⟩ := onward.exists_member
      exact ⟨⟨lacks, onward⟩, u.inPlace_cons key (by simp)⟩

end UntypedToken

namespace Substitution

/-- Every entry gives a token below a group its type. -/
def Types (σ : Substitution) (ms : Members) (inherited : Option TokenType) : Prop :=
  ∀ chain new, σ chain = some new → ∃ u : UntypedToken, u.Stands ms inherited chain ∧ new = u.inPlace chain

/-- What becomes of a node that types are put in at or below. -/
inductive TypesNode (σ : Substitution) (handed : Option TokenType) : Json → Json → Prop
  | kept (node : Json) : σ = none → TypesNode σ handed node node
  | typed {u : UntypedToken} : u.Lacks handed → σ [] ≠ .none →
      TypesNode σ handed (.obj u.token) (.obj u.typed)
  | below {group : Members} : group.isToken = false → σ.Types group handed →
      TypesNode σ handed (.obj group) (.obj (substituteIn σ group))

/-- What becomes of a member of a group.  Metadata is not entered. -/
structure TypesMember (σ : Substitution) (handed : Option TokenType) (key : String)
    (value value' : Json) : Prop where
  metadata : Key.isMeta key = true → value' = value
  node : TypesNode (σ.below key) handed value value'

variable {σ : Substitution} {ms : Members} {inherited : Option TokenType}

theorem Types.below (types : σ.Types ms inherited) {key : String} {group : Members}
    (found : ms.get? key = some (.obj group)) (isGroup : group.isToken = false) :
    (σ.below key).Types group (ms.groupType?.or inherited) := by
  intro chain new entry
  obtain ⟨u, stands, rfl⟩ := types (key :: chain) new entry
  obtain ⟨standsBelow, sameInPlace⟩ := stands.below found isGroup
  exact ⟨u, standsBelow, sameInPlace⟩

/-- A member stays a member, with a value that types are put in at or below. -/
theorem Types.exists_placed (types : σ.Types ms inherited) (distinct : ms.keys.Nodup) {m : String × Json}
    (mem : m ∈ ms) :
    ∃ value', σ.placed m = [(m.1, value')] ∧ σ.TypesMember (ms.groupType?.or inherited) m.1 m.2 value' := by
  have found := Members.get?_of_mem distinct mem
  cases here : σ [m.1] with
  | some new =>
      obtain ⟨u, stands, rfl⟩ := types [m.1] new here
      have lacks := stands.toLacks
      rw [Json.handedDown_singleton] at lacks
      cases stands.leads with
      | here notMeta found' =>
          rw [Option.some.inj (found.symm.trans found')]
          refine ⟨_, placed_of_some here, fun isMeta => ?_, .typed lacks (by simp [Substitution.below, here])⟩
          rw [notMeta] at isMeta
          cases isMeta
      | under _ _ _ onward => cases onward
  | none =>
      by_cases nothing : σ.below m.1 = none
      · exact ⟨m.2, placed_of_below_none nothing, fun _ => rfl, .kept _ nothing⟩
      · obtain ⟨rest, some_⟩ := Function.ne_iff.1 nothing
        obtain ⟨new, entry⟩ := Option.ne_none_iff_exists'.1 some_
        obtain ⟨u, stands, -⟩ := types (m.1 :: rest) new entry
        cases stands.leads with
        | here => cases here.symm.trans entry
        | @under _ group _ _ _ notMeta found' isGroup _ =>
            have isObject := Option.some.inj (found.symm.trans found')
            rw [isObject]
            refine ⟨_, (placed_of_none here).trans (by rw [isObject]; rfl), fun isMeta => ?_,
              .below isGroup (types.below found' isGroup)⟩
            rw [notMeta] at isMeta
            cases isMeta

/-- Where each member stays a member, the replacement goes member by member. -/
theorem paired_of_placed {R : String → Json → Json → Prop} {ms : Members}
    (placed : ∀ m ∈ ms, ∃ value', σ.placed m = [(m.1, value')] ∧ R m.1 m.2 value') :
    ms.Paired R (substituteIn σ ms) := by
  induction ms with
  | nil => exact .nil
  | cons m rest ih =>
      obtain ⟨⟨value', here, related⟩, later⟩ := List.forall_mem_cons.1 placed
      rw [substituteIn_cons, here]
      exact .cons ⟨rfl, related⟩ (ih later)

/-- **Types are put in member by member.** -/
theorem Types.paired (types : σ.Types ms inherited) (distinct : ms.keys.Nodup) :
    ms.Paired (σ.TypesMember (ms.groupType?.or inherited)) (substituteIn σ ms) :=
  paired_of_placed fun _ mem => types.exists_placed distinct mem

/-- Groups keep their tags. -/
theorem Types.get?_type_eq (types : σ.Types ms inherited) (distinct : ms.keys.Nodup) :
    (substituteIn σ ms).get? Key.type = ms.get? Key.type :=
  (types.paired distinct).get?_eq fun _ _ member => member.metadata (by decide)

theorem Types.groupType?_eq (types : σ.Types ms inherited) (distinct : ms.keys.Nodup) :
    (substituteIn σ ms).groupType? = ms.groupType? := by
  rw [Members.groupType?, Members.groupType?, types.get?_type_eq distinct]

theorem Types.isToken_eq (types : σ.Types ms inherited) (distinct : ms.keys.Nodup) :
    (substituteIn σ ms).isToken = ms.isToken :=
  Members.isToken_congr fun key => by rw [(types.paired distinct).keys_eq]

/-- A group stays a group, whether types are put in below it or not. -/
theorem TypesNode.of_isGroup {handed : Option TokenType} {group : Members} {node' : Json}
    (node : TypesNode σ handed (.obj group) node') (isGroup : group.isToken = false) :
    σ.Types group handed ∧ node' = .obj (substituteIn σ group) := by
  generalize same : Json.obj group = value at node
  cases node with
  | kept _ nothing =>
      subst nothing
      refine ⟨nofun, ?_⟩
      rw [← same]
      exact (Json.substitute_none (.obj group)).symm
  | typed lacks =>
      cases same
      rw [lacks.isToken] at isGroup
      cases isGroup
  | below _ types =>
      cases same
      exact ⟨types, rfl⟩

/-- **Every node is still led to by its chain**, under the type that it was handed before. -/
theorem Types.exists_leads {chain : KeyChain} {node : Json} (leads : ms.Leads chain node)
    {σ : Substitution} {inherited : Option TokenType} (types : σ.Types ms inherited)
    (keyed : (Json.obj ms).isKeyed = true) :
    ∃ node', (substituteIn σ ms).Leads chain node' ∧
      TypesNode (σ.under chain) ((Json.obj ms).handedDown inherited chain) node node' ∧
      (Json.obj (substituteIn σ ms)).handedDown inherited chain =
        (Json.obj ms).handedDown inherited chain := by
  induction leads generalizing σ inherited with
  | @here ms key node notMeta found =>
      have distinct := ((isKeyed_obj_iff ms).1 keyed).1
      obtain ⟨node', found', member⟩ := (types.paired distinct).get? found
      rw [Json.handedDown_singleton, Json.handedDown_singleton, types.groupType?_eq distinct]
      exact ⟨node', .here notMeta found', member.node, rfl⟩
  | @under ms group key rest node notMeta found isGroup onward ih =>
      obtain ⟨distinct, -⟩ := (isKeyed_obj_iff ms).1 keyed
      have groupKeyed := Members.isKeyed_of_get? keyed found
      obtain ⟨group', found', member⟩ := (types.paired distinct).get? found
      obtain ⟨typesBelow, rfl⟩ := member.node.of_isGroup isGroup
      obtain ⟨node', leads', becomes, handed⟩ := ih typesBelow groupKeyed
      have isGroup' := (typesBelow.isToken_eq ((isKeyed_obj_iff group).1 groupKeyed).1).trans isGroup
      rw [Json.handedDown_cons found, Json.handedDown_cons found', types.groupType?_eq distinct]
      exact ⟨node', .under notMeta found' isGroup' leads', becomes, handed⟩

/-- A token that is given its type has become the token with its type. -/
theorem TypesNode.eq_typed {handed : Option TokenType} {u : UntypedToken} {node' : Json}
    (becomes : TypesNode σ handed (.obj u.token) node') (lacks : u.Lacks handed) (some_ : σ [] ≠ .none) :
    node' = .obj u.typed := by
  generalize same : Json.obj u.token = node at becomes
  cases becomes with
  | kept _ nothing => exact absurd (congrFun nothing []) some_
  | @typed u' lacks' =>
      have sameToken := Json.obj.inj same
      rw [UntypedToken.typed, UntypedToken.typed, sameToken, lacks.type_eq lacks' sameToken]
  | below isGroup =>
      cases same
      rw [lacks.isToken] at isGroup
      cases isGroup

theorem TypesNode.exists_group {handed : Option TokenType} {node : Json} {group' : Members}
    (becomes : TypesNode σ handed node (.obj group')) (isGroup : group'.isToken = false) :
    ∃ group : Members, node = .obj group ∧ group.isToken = false ∧ σ.Types group handed ∧
      group' = substituteIn σ group := by
  generalize same : Json.obj group' = value at becomes
  cases becomes with
  | kept _ nothing =>
      subst nothing
      exact ⟨group', same.symm, isGroup, nofun, (substituteIn_none group').symm⟩
  | typed lacks =>
      cases same
      rw [lacks.isToken_typed] at isGroup
      cases isGroup
  | @below group isGroupBefore types =>
      cases same
      exact ⟨group, rfl, isGroupBefore, types, rfl⟩

/-- A chain that leads down afterwards led down before. -/
theorem Types.exists_leads_before {ms' : Members} {chain : KeyChain} {node' : Json}
    (leads : ms'.Leads chain node') {σ : Substitution} {ms : Members} {inherited : Option TokenType}
    (types : σ.Types ms inherited) (keyed : (Json.obj ms).isKeyed = true)
    (result : ms' = substituteIn σ ms) : ∃ node, ms.Leads chain node := by
  induction leads generalizing σ ms inherited with
  | here notMeta found' =>
      subst result
      obtain ⟨distinct, -⟩ := (isKeyed_obj_iff ms).1 keyed
      obtain ⟨value, found, -⟩ := (types.paired distinct).exists_get?_left distinct found'
      exact ⟨value, .here notMeta found⟩
  | under notMeta found' isGroup' _ ih =>
      subst result
      obtain ⟨distinct, -⟩ := (isKeyed_obj_iff ms).1 keyed
      obtain ⟨value, found, member⟩ := (types.paired distinct).exists_get?_left distinct found'
      obtain ⟨group, rfl, isGroup, typesBelow, same⟩ := member.node.exists_group isGroup'
      obtain ⟨node, leads⟩ := ih typesBelow (Members.isKeyed_of_get? keyed found) same
      exact ⟨node, .under notMeta found isGroup leads⟩

/-! ## Documents -/

/-- Every entry gives a token below a token group its type. -/
def TypesBelow (σ : Substitution) (document : Members) : Prop :=
  ∀ chain new, σ chain = some new → ∃ (name : String) (group : Members) (below : KeyChain)
    (u : UntypedToken), chain = name :: below ∧ document.get? name = some (.obj group) ∧
      isTokenGroup name (.obj group) = true ∧ u.Stands group document.groupType? below ∧
        new = u.inPlace below

variable {document : Members}

/-- No entry of a document is replaced itself. -/
theorem TypesBelow.kept (types : σ.TypesBelow document) (name : String) : σ [name] = .none := by
  by_contra some_
  obtain ⟨new, entry⟩ := Option.ne_none_iff_exists'.1 some_
  obtain ⟨name', group, below, u, same, -, -, stands, -⟩ := types [name] new entry
  cases same
  nomatch stands.leads

theorem TypesBelow.below (types : σ.TypesBelow document) {name : String} {group : Members}
    (found : document.get? name = some (.obj group)) :
    (σ.below name).Types group document.groupType? := by
  intro chain new entry
  obtain ⟨name', group', below, u, same, found', -, stands, rfl⟩ := types (name :: chain) new entry
  cases same
  cases found.symm.trans found'
  exact ⟨u, stands, rfl⟩

/-- Nothing is put in but in token groups. -/
theorem TypesBelow.below_eq_none (types : σ.TypesBelow document) {name : String} {value : Json}
    (found : document.get? name = some value) (noGroup : isTokenGroup name value = false) :
    σ.below name = none := by
  funext below
  by_contra some_
  obtain ⟨new, entry⟩ := Option.ne_none_iff_exists'.1 some_
  obtain ⟨name', group, below', u, same, found', isGroup, -⟩ := types (name :: below) new entry
  cases same
  cases found.symm.trans found'
  rw [noGroup] at isGroup
  cases isGroup

/-- In a document types are put in entry by entry. -/
theorem TypesBelow.paired (types : σ.TypesBelow document) :
    document.Paired (fun name value value' => value' = value.substitute (σ.below name))
      (substituteIn σ document) :=
  paired_of_placed fun m _ => ⟨_, placed_of_none (types.kept m.1), rfl⟩

theorem TypesBelow.get?_eq (types : σ.TypesBelow document) {name : String}
    (noGroup : ∀ value, isTokenGroup name value = false) :
    (substituteIn σ document).get? name = document.get? name := by
  cases found : document.get? name with
  | none =>
      rw [Members.get?_eq_none_iff] at found ⊢
      rwa [types.paired.keys_eq]
  | some value =>
      obtain ⟨value', found', rfl⟩ := types.paired.get? found
      rw [found', types.below_eq_none found (noGroup value)]
      exact congrArg some (Json.substitute_none value)

theorem TypesBelow.groupType?_eq (types : σ.TypesBelow document) :
    (substituteIn σ document).groupType? = document.groupType? := by
  rw [Members.groupType?, Members.groupType?, types.get?_eq fun _ => rfl]

/-- The chain of a token that is given its type leads to the token with its type. -/
theorem TypesBelow.leads_typed (types : σ.TypesBelow document)
    (keyed : (Json.obj document).isKeyed = true) {name : String} {group : Members}
    (found : document.get? name = some (.obj group)) {below : KeyChain} {u : UntypedToken}
    (stands : u.Stands group document.groupType? below) (some_ : σ (name :: below) ≠ .none) :
    Members.Leads (substituteIn (σ.below name) group) below (.obj u.typed) := by
  obtain ⟨node', leads', becomes, -⟩ :=
    (types.below found).exists_leads stands.leads (Members.isKeyed_of_get? keyed found)
  have replaced : (σ.below name).under below [] ≠ .none := by
    rwa [Substitution.under, List.append_nil]
  rwa [becomes.eq_typed stands.toLacks replaced] at leads'

/-- At the end of its chain a token is found with its type. -/
theorem TypesBelow.at?_typed (types : σ.TypesBelow document) (keyed : (Json.obj document).isKeyed = true)
    {name : String} {group : Members} (found : document.get? name = some (.obj group)) {below : KeyChain}
    {u : UntypedToken} (stands : u.Stands group document.groupType? below)
    (some_ : σ (name :: below) ≠ .none) :
    (Json.obj (substituteIn σ document)).at? (name :: below) = some (.obj u.typed) := by
  obtain ⟨group', found', rfl⟩ := types.paired.get? found
  rw [Json.at?_cons, found', Option.bind_some]
  exact (types.leads_typed keyed found stands some_).at?

end Substitution

/-! ## Batches of typings -/

namespace Fix

theorem exists_untyped_of_mem_collect {document : Members} {f : Fix} (mem : f ∈ collect (.obj document))
    (typing : f.type = .addType) : ∃ u ∈ untypedTokens document, ∃ index, f = u.toFix index := by
  rcases List.mem_append.1 mem with typings | flattenings
  · obtain ⟨⟨u, index⟩, inList, rfl⟩ := List.mem_map.1 typings
    exact ⟨u, List.fst_mem_of_mem_zipIdx inList, index, rfl⟩
  · obtain ⟨_, -, rfl⟩ := List.mem_map.1 flattenings
    cases typing

/-- Two typings overlap only at the same token. -/
theorem Offered.target_eq_of_overlaps {document : Members} (keyed : (Json.obj document).isKeyed = true)
    {e f : Fix} (offered : e.Offered document) (offered' : f.Offered document)
    (typing : e.type = .addType) (typing' : f.type = .addType) (overlap : e.overlaps f = true) :
    e.target = f.target := by
  rcases (Path.overlap_iff _ _).1 overlap with ⟨rest, inside⟩ | ⟨rest, inside⟩
  · by_cases strict : rest = []
    · rw [← inside, strict, List.append_nil]
    · have flattens := (offered.types_of_inside keyed offered' inside.symm strict).1
      rw [typing] at flattens
      cases flattens
  · by_cases strict : rest = []
    · rw [← inside, strict, List.append_nil]
    · have flattens := (offered'.types_of_inside keyed offered inside.symm strict).1
      rw [typing'] at flattens
      cases flattens

end Fix

namespace Fixer

variable {document : Members} {s : Fixer}

/-- Applied typings put types in. -/
theorem Batch.typesBelow (batch : s.Batch document) (keyed : (Json.obj document).isKeyed = true)
    (typings : ∀ f ∈ s.applied, f.type = .addType) : (Fix.plan s.applied).TypesBelow document := by
  intro chain new entry
  obtain ⟨f, applied, rfl, rfl⟩ := Fix.plan_eq_some entry
  have isTyping := typings f applied
  cases batch.offered f applied with
  | @addType u mem index approved =>
      obtain ⟨name, group, below, found, isGroup, keysEq, stands⟩ := mem_untypedTokens mem keyed
      have target := Fix.target_toFix_untyped keysEq index approved
      obtain ⟨key, rest, -, rfl, -⟩ := stands.leads.exists_member
      refine ⟨name, group, _, u, target, found, isGroup, stands, ?_⟩
      rw [← u.inPlace_cons name (by simp), ← target]
      rfl
  | flatten => cases isTyping

/-- Of a run of typings each one is applied, or another one at its token is. -/
theorem Batch.exists_applied_of_typing {fixes : List Fix} (batch : s.Batch document)
    (keyed : (Json.obj document).isKeyed = true) (offered : ∀ f ∈ fixes, f.Offered document)
    (typings : ∀ f ∈ fixes, f.type = .addType) (before : ∀ f ∈ s.applied, f.type = .addType) :
    ∀ f ∈ fixes, ∃ e ∈ (s.run fixes).1.applied, e.target = f.target := by
  induction fixes generalizing s with
  | nil => nofun
  | cons g rest ih =>
      obtain ⟨offeredFirst, offeredLater⟩ := List.forall_mem_cons.1 offered
      obtain ⟨typing, typingsLater⟩ := List.forall_mem_cons.1 typings
      rw [run_cons, List.forall_mem_cons]
      cases batch.call keyed offeredFirst with
      | @overlapping done applied overlap call =>
          rw [call]
          refine ⟨⟨done, applied_subset_run s rest applied, ?_⟩,
            ih batch offeredLater typingsLater before⟩
          exact (batch.offered done applied).target_eq_of_overlaps keyed offeredFirst
            (before done applied) typing overlap
      | contending _ _ contend =>
          have flattens := contend.2.1
          rw [typing] at flattens
          cases flattens
      | @applied next _ _ call applied_eq nextBatch =>
          rw [call]
          refine ⟨⟨g, applied_subset_run next rest ?_, rfl⟩,
            ih nextBatch offeredLater typingsLater fun f mem => ?_⟩
          · rw [applied_eq]
            exact List.mem_append_right _ (List.mem_singleton_self g)
          · rw [applied_eq] at mem
            rcases List.mem_append.1 mem with earlier | last
            · exact before f earlier
            · rwa [List.mem_singleton.1 last]

/-- **A batch of typings puts the types in** at the tokens that they address, and nothing else. -/
theorem exists_typesBelow {fixes : List Fix} (keyed : (Json.obj document).isKeyed = true)
    (collected : ∀ f ∈ fixes, f ∈ Fix.offers (.obj document))
    (typings : ∀ f ∈ fixes, f.type = .addType) :
    ∃ σ : Substitution, σ.TypesBelow document ∧
      (∀ chain, σ chain ≠ none ↔ ∃ f ∈ fixes, f.target = chain) ∧
      (applyApproved (.obj document) fixes).2 = .ok (.obj (substituteIn σ document)) ∧
      (Json.obj (substituteIn σ document)).isKeyed = true := by
  obtain ⟨batch, result⟩ := batch_run keyed collected
  have resultKeyed := batch.keyed
  rw [batch.document_obj] at result resultKeyed
  have applied := (batch_ofDocument keyed).exists_applied_of_typing keyed
    (fun f mem => (Fix.offered_of_mem_offers (collected f mem)).1) typings nofun
  refine ⟨_, batch.typesBelow keyed fun f mem => typings f (mem_of_mem_applied_run mem), fun chain => ?_,
    result, resultKeyed⟩
  constructor
  · intro some_
    obtain ⟨new, entry⟩ := Option.ne_none_iff_exists'.1 some_
    obtain ⟨e, mem, target, -⟩ := Fix.plan_eq_some entry
    exact ⟨e, mem_of_mem_applied_run mem, target⟩
  · rintro ⟨f, mem, rfl⟩
    obtain ⟨e, inApplied, target⟩ := applied f mem
    rw [← target, batch.apart.plan_target inApplied]
    exact Option.some_ne_none _

end Fixer

end DesignTokens
