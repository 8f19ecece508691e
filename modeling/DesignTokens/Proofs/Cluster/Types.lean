/-
# DesignTokens.Proofs.Cluster.Types -- the types of a cluster's tokens in its flat replacement

A flat replacement lists the leaves of a cluster, and each leaf stood at a chain of keys.
`leafChainsBelow` lists these chains in the same order, so that a chain and its entry are found side
by side (`flatten_ends`).  A chain that leads to a token of the cluster starts with that of a leaf:
the leaf is the token itself, or a group with a type tag that holds it and is moved as a whole
(`Members.Leads.exists_leafChain`).

A leaf is given a type from what is known inside the cluster.  A token without a tag takes the
nearest known type there, and without any the one that its value suggests
(`Leaf.typeOr_typed_of_untagged`).  The type that the groups around the cluster hand down comes last.
-/
import DesignTokens.Proofs.Cluster.Flat
import DesignTokens.Proofs.Validation.Types

namespace DesignTokens

set_option autoImplicit false

/-! ## Chains to the leaves -/

mutual

/-- The chains of keys that lead from a node to its leaves. -/
def Json.leafChains : Json → List KeyChain
  | .obj ms => if Members.isLeaf ms then [[]] else leafChainsBelow ms
  | _ => [[]]

/-- The chains of keys that lead from an object with these members to the leaves below it. -/
def leafChainsBelow : List (String × Json) → List KeyChain
  | [] => []
  | (key, child) :: rest =>
      (if Key.isMeta key then [] else child.leafChains.map (key :: ·)) ++ leafChainsBelow rest

end

theorem mem_leafChainsBelow_iff (ms : Members) (chain : KeyChain) :
    chain ∈ leafChainsBelow ms ↔
      ∃ m ∈ ms, Key.isMeta m.1 = false ∧ ∃ rest ∈ m.2.leafChains, chain = m.1 :: rest := by
  induction ms with
  | nil => simp [leafChainsBelow]
  | cons m ms ih =>
      obtain ⟨key, child⟩ := m
      rw [leafChainsBelow, List.mem_append, ih, List.exists_mem_cons_iff]
      refine or_congr_left ?_
      cases Key.isMeta key <;> simp [eq_comm]

/-- A group is a leaf only for its type tag. -/
theorem Members.has_type_of_isLeaf {ms : Members} (isLeaf : ms.isLeaf = true)
    (isGroup : ms.isToken = false) : ms.has Key.type = true := by
  rw [isToken, Bool.or_eq_false_iff] at isGroup
  rwa [Members.isLeaf, isGroup.1, isGroup.2, Bool.false_or, Bool.or_false] at isLeaf

/-- **Every token of a cluster is a leaf or stands in one.** -/
theorem Members.Leads.exists_leafChain {ms token : Members} {chain : KeyChain}
    (leads : ms.Leads chain (.obj token)) (hasValue : token.hasValue = true) :
    ∃ front back, chain = front ++ back ∧ front ∈ leafChainsBelow ms ∧
      ∃ leaf : Members, (Json.obj ms).at? front = some (.obj leaf) := by
  generalize same : Json.obj token = node at leads
  induction leads with
  | @here ms key node notMeta found =>
      subst same
      have isLeaf : token.isLeaf = true := by rw [Members.isLeaf, hasValue, Bool.true_or, Bool.true_or]
      refine ⟨[key], [], rfl, ?_, token, by simp [Json.at?_cons, found]⟩
      exact (mem_leafChainsBelow_iff ms _).2
        ⟨_, mem_of_get? found, notMeta, [], by simp [Json.leafChains, isLeaf], rfl⟩
  | @under ms group key rest node notMeta found isGroup more ih =>
      cases isLeaf : group.isLeaf with
      | true =>
          refine ⟨[key], rest, rfl, ?_, group, by simp [Json.at?_cons, found]⟩
          exact (mem_leafChainsBelow_iff ms _).2
            ⟨_, mem_of_get? found, notMeta, [], by simp [Json.leafChains, isLeaf], rfl⟩
      | false =>
          obtain ⟨front, back, rfl, inGroup, leaf, atFront⟩ := ih same
          refine ⟨key :: front, back, rfl, ?_, leaf, by simpa [Json.at?_cons, found] using atFront⟩
          exact (mem_leafChainsBelow_iff ms _).2
            ⟨_, mem_of_get? found, notMeta, front, by simpa [Json.leafChains, isLeaf] using inGroup, rfl⟩

/-! ## Leaves and their entries -/

/-- An object at the end of a chain is this leaf, with the type that the chain hands down to it. -/
def Leaf.Ends (leaf : Leaf) (inherited : Option TokenType) (node : Json) (chain : KeyChain) : Prop :=
  ∀ ms : Members, node.at? chain = some (.obj ms) →
    ms.isLeaf = true ∧ leaf.token = Leaf.typed (node.handedDown inherited chain) ms

theorem Leaf.ends_cons {leaf : Leaf} {inherited : Option TokenType} {ms : Members} {key : String}
    {child : Json} (found : ms.get? key = some child) {rest : KeyChain} :
    leaf.Ends inherited (.obj ms) (key :: rest) ↔
      leaf.Ends (ms.groupType?.or inherited) child rest := by
  simp only [Leaf.Ends, Json.at?_cons, found, Option.bind_some, Json.handedDown_cons found]

mutual

theorem leavesOf_ends (stem : String) (inherited : Option TokenType) (key : String) (node : Json)
    (keyed : node.isKeyed = true) :
    List.Forall₂ (fun chain leaf => Leaf.Ends leaf inherited node chain) node.leafChains
      (leavesOf stem inherited key node) := by
  have here (leaf : Leaf) (ends : leaf.Ends inherited node []) :
      List.Forall₂ (fun chain leaf => Leaf.Ends leaf inherited node chain) [[]] [leaf] :=
    .cons ends .nil
  cases node with
  | obj ms =>
      rw [Json.leafChains, leavesOf_obj]
      by_cases isLeaf : Members.isLeaf ms = true
      · rw [if_pos isLeaf, if_pos isLeaf]
        refine here _ fun ms' same => ?_
        rw [Json.at?_nil] at same
        cases same
        exact ⟨isLeaf, by rw [Json.handedDown_nil]⟩
      · rw [if_neg isLeaf, if_neg isLeaf]
        obtain ⟨distinct, parts⟩ := (isKeyed_obj_iff ms).1 keyed
        refine (leavesIn_ends _ _ ms parts).imp ?_
        rintro chain leaf ⟨m, inMs, -, rest, rfl, ends⟩
        exact (Leaf.ends_cons (Members.get?_of_mem distinct inMs)).2 ends
  | _ => exact here _ nofun

theorem leavesIn_ends (stem : String) (inherited : Option TokenType) (ms : List (String × Json))
    (keyed : ∀ m ∈ ms, m.2.isKeyed = true) :
    List.Forall₂ (fun chain leaf => ∃ m ∈ ms, Key.isMeta m.1 = false ∧
        ∃ rest, chain = m.1 :: rest ∧ Leaf.Ends leaf inherited m.2 rest)
      (leafChainsBelow ms) (leavesIn stem inherited ms) := by
  cases ms with
  | nil => exact .nil
  | cons m rest =>
      obtain ⟨key, child⟩ := m
      rw [leafChainsBelow, leavesIn]
      refine List.rel_append ?_ ?_
      · by_cases isMeta : Key.isMeta key = true
        · rw [if_pos isMeta, if_pos isMeta]
          exact .nil
        · rw [if_neg isMeta, if_neg isMeta, List.forall₂_map_left_iff]
          refine (leavesOf_ends stem inherited key child (keyed _ List.mem_cons_self)).imp ?_
          intro chain leaf ends
          exact ⟨_, List.mem_cons_self, by simpa using isMeta, chain, rfl, ends⟩
      · refine (leavesIn_ends stem inherited rest
          fun m mem => keyed m (List.mem_cons_of_mem _ mem)).imp ?_
        rintro chain leaf ⟨m, inRest, found⟩
        exact ⟨m, List.mem_cons_of_mem _ inRest, found⟩

end

/-- What is related item by item stays so when one side is replaced by what is made of it. -/
theorem forall₂_of_map_eq {α β γ δ : Type} {R : α → β → Prop} {f : β → δ} {g : γ → δ} {a : List α}
    {b : List β} {c : List γ} (related : List.Forall₂ R a b) (same : c.map g = b.map f) :
    List.Forall₂ (fun x z => ∃ y, R x y ∧ g z = f y) a c := by
  induction related generalizing c with
  | nil =>
      rw [List.map_nil, List.map_eq_nil_iff] at same
      rw [same]
      exact .nil
  | cons first _ ih =>
      obtain ⟨z, c, rfl, sameFirst, sameRest⟩ := List.map_eq_cons_iff.1 same
      exact .cons ⟨_, first, sameFirst⟩ (ih sameRest)

/-- Each item on the left of a pairing has its partner beside it. -/
theorem exists_mem_zip_of_forall₂ {α β : Type} {R : α → β → Prop} {a : List α} {b : List β}
    (related : List.Forall₂ R a b) {x : α} (mem : x ∈ a) : ∃ y, (x, y) ∈ a.zip b ∧ R x y := by
  induction related with
  | nil => cases mem
  | @cons x' y _ _ first _ ih =>
      rw [List.zip_cons_cons]
      rcases List.mem_cons.1 mem with rfl | inRest
      · exact ⟨y, List.mem_cons_self, first⟩
      · obtain ⟨y', inZip, related'⟩ := ih inRest
        exact ⟨y', List.mem_cons_of_mem _ inZip, related'⟩

/-- **Chains and entries of a flat replacement go side by side.** -/
theorem flatten_ends (name : String) {node : Members} (keyed : (Json.obj node).isKeyed = true) :
    List.Forall₂ (fun chain (entry : String × Json) =>
        ∃ leaf : Leaf, leaf.Ends none (.obj node) chain ∧ entry.2 = .obj leaf.token)
      (leafChainsBelow node) (flatten name node).entries := by
  obtain ⟨distinct, parts⟩ := (isKeyed_obj_iff node).1 keyed
  have ends : List.Forall₂ (fun chain leaf => Leaf.Ends leaf none (.obj node) chain)
      (leafChainsBelow node) (leavesIn name node.groupType? node) := by
    refine (leavesIn_ends name node.groupType? node parts).imp ?_
    rintro chain leaf ⟨m, inNode, -, rest, rfl, ends⟩
    rw [Leaf.ends_cons (Members.get?_of_mem distinct inNode), Option.or_none]
    exact ends
  exact forall₂_of_map_eq ends (flatten_holds name node).tokens

/-! ## Types -/

namespace Leaf

theorem get?_withType_type (ms : Members) (t : Option TokenType) :
    (withType ms t).get? Key.type = (t.map fun t => .str t.name).or (ms.get? Key.type) := by
  cases t with
  | none => rfl
  | some t => exact Members.get?_put_self ms Key.type _

theorem get?_typed_of_ne (inherited : Option TokenType) (ms : Members) {key : String}
    (ne : key ≠ Key.type) : (typed inherited ms).get? key = ms.get? key := by
  unfold typed
  split
  · rfl
  · dsimp only
    cases (ms.declaredType?.or inherited).or _ with
    | none => rfl
    | some t => exact Members.get?_put_of_ne ms _ ne

theorem tokenValue_typed (inherited : Option TokenType) (ms : Members) :
    (typed inherited ms).tokenValue = ms.tokenValue := by
  rw [Members.tokenValue_eq, Members.tokenValue_eq, get?_typed_of_ne inherited ms (by decide),
    get?_typed_of_ne inherited ms (by decide)]

theorem typed_of_has (inherited : Option TokenType) {ms : Members} (tagged : ms.has Key.type = true) :
    typed inherited ms = ms :=
  if_pos tagged

/-- A token with a tag of its own has the type that the tag names, wherever it stands. -/
theorem typeOr_typed_of_tag {ms : Members} {tag : Json} {t : TokenType}
    (own : (ms.get? Key.type).or (ms.get? Key.legacyType) = some tag)
    (named : TokenType.ofTag? tag = some t) (inherited outside : Option TokenType) :
    (typed inherited ms).typeOr outside = some t := by
  cases current : ms.get? Key.type with
  | some tag' =>
      rw [current, Option.some_or] at own
      cases own
      rw [typed_of_has inherited (by rw [Members.has, current]; rfl), Members.typeOr, current]
      exact named
  | none =>
      rw [current, Option.none_or] at own
      have declared : ms.declaredType? = some t := by
        rw [Members.declaredType?, current, own]
        exact named
      have filled : typed inherited ms = withType ms (some t) := by
        rw [typed, if_neg (by rw [Members.has, current]; decide), declared]
        rfl
      rw [filled, Members.typeOr, get?_withType_type]
      exact t.ofTag?_name

/-- A token without a tag has the nearest known type in the cluster, else the one its value suggests,
else the one from outside. -/
theorem typeOr_typed_of_untagged {ms : Members}
    (untagged : (ms.get? Key.type).or (ms.get? Key.legacyType) = none) (hasValue : ms.hasValue = true)
    (inherited outside : Option TokenType) :
    (typed inherited ms).typeOr outside =
      (inherited.or (TokenType.infer? ms.tokenValue)).or outside := by
  obtain ⟨current, legacy⟩ := Option.or_eq_none_iff.1 untagged
  have declared : ms.declaredType? = none := by
    rw [Members.declaredType?, current, legacy]
    rfl
  have filled : typed inherited ms = withType ms (inherited.or (TokenType.infer? ms.tokenValue)) := by
    rw [typed, if_neg (by rw [Members.has, current]; decide), declared, hasValue, Option.none_or]
    rfl
  have oldTag : (typed inherited ms).get? Key.legacyType = none := by
    rw [get?_typed_of_ne inherited ms (by decide), legacy]
  rw [Members.typeOr, oldTag, Option.or_none, filled, get?_withType_type, current, Option.or_none]
  cases inherited.or (TokenType.infer? ms.tokenValue) with
  | none => rfl
  | some t => exact t.ofTag?_name

end Leaf

end DesignTokens
