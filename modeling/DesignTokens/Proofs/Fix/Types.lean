/-
# DesignTokens.Proofs.Fix.Types -- the types of tokens after a flattening

Flattening a cluster moves its tokens up, next to what stood beside the cluster.  What the groups
around the cluster hand down reaches them there as before (`Json.handedDown_withParent`), but the
groups inside it are gone, and what they said about types must have been written onto the leaves.

A token that names its type keeps it.  For the others `Cluster.KeepsType` says exactly when the type
that a check resolves is still the same (`Fix.keepsType_iff_of_flatten`).  A leaf without a known type
inside the cluster is given the one that its value suggests, and then no longer takes the type from
above the cluster.  A group with a tag is moved as it is, and if nothing known is named in it, what it
holds takes the type from above the cluster instead of that from inside.
-/
import DesignTokens.Proofs.Cluster.Types
import DesignTokens.Proofs.Fix.Batch

namespace DesignTokens

set_option autoImplicit false

/-! ## Members in the place of one -/

namespace Members

/-- New members are found by their keys, if none but the replaced one was in use. -/
theorem get?_splice_of_mem {ms new : Members} {name key : String} {value : Json}
    (inMs : name ∈ ms.keys) (found : new.get? key = some value) (unused : key ≠ name → key ∉ ms.keys) :
    (ms.splice name new).get? key = some value := by
  induction ms with
  | nil => cases inMs
  | cons m rest ih =>
      rw [splice_cons, get?_append]
      by_cases here : m.1 = name
      · rw [if_pos here, found, Option.some_or]
      · have ne : key ≠ m.1 := by
          rintro rfl
          exact unused here List.mem_cons_self
        rw [keys_cons, List.mem_cons] at inMs
        rw [if_neg here, get?_cons, if_neg ne]
        refine ih (inMs.resolve_left (Ne.symm here)) fun other inRest => ?_
        exact unused other (List.mem_cons_of_mem _ inRest)

/-- Every other key leads where it led before. -/
theorem get?_splice_of_not_mem {ms new : Members} {name key : String} (ne : key ≠ name)
    (notNew : key ∉ new.keys) : (ms.splice name new).get? key = ms.get? key := by
  induction ms with
  | nil => rfl
  | cons m rest ih =>
      rw [splice_cons, get?_append, ih, get?_cons]
      by_cases here : m.1 = name
      · have absent : new.get? key = none := (get?_eq_none_iff new key).2 notNew
        rw [if_pos here, absent, Option.none_or, if_neg (here ▸ ne)]
      · rw [if_neg here, get?_cons]
        split <;> rfl

end Members

/-! ## Members in the place of a parent's -/

namespace Json

variable {value : Json} {above : KeyChain} {parent : Members}

theorem at?_withParent (around : value.at? above = some (.obj parent)) (name : String)
    (new : Members) : (value.withParent (above ++ [name]) new).at? above = some (.obj new) := by
  induction above generalizing value with
  | nil =>
      rw [at?_nil] at around
      cases around
      rfl
  | cons key above ih =>
      cases value with
      | obj ms =>
          rw [at?_cons] at around
          obtain ⟨child, found, onward⟩ := Option.bind_eq_some_iff.1 around
          rw [List.cons_append, withParent_cons found (by simp), at?_cons, Members.get?_put_self]
          exact ih onward
      | _ => cases around

/-- The groups above hand down what they did. -/
theorem handedDown_withParent (around : value.at? above = some (.obj parent)) (name : String)
    (new : Members) (plain : ∀ key ∈ above, Key.isMeta key = false) (inherited : Option TokenType) :
    (value.withParent (above ++ [name]) new).handedDown inherited above =
      value.handedDown inherited above := by
  induction above generalizing value inherited with
  | nil => rw [handedDown_nil, handedDown_nil]
  | cons key above ih =>
      cases value with
      | obj ms =>
          rw [at?_cons] at around
          obtain ⟨child, found, onward⟩ := Option.bind_eq_some_iff.1 around
          have notType : Key.type ≠ key := by
            rintro rfl
            exact absurd (plain _ List.mem_cons_self) (by decide)
          rw [List.cons_append, withParent_cons found (by simp),
            handedDown_cons (Members.get?_put_self _ _ _), handedDown_cons found, Members.groupType?,
            Members.get?_put_of_ne _ _ notType]
          exact ih onward (fun k mem => plain k (List.mem_cons_of_mem _ mem)) _
      | _ => cases around

end Json

/-! ## One fix alone -/

/-- A new fixer puts the members of a fix in the place of its node. -/
theorem Fix.Fits.apply_alone {document : Members} {f : Fix} {above : KeyChain} {name : String}
    {parent : Members} {node : Json} (fits : f.Fits document above name parent node)
    (keyed : (Json.obj document).isKeyed = true) :
    (Fixer.ofDocument (.obj document)).apply f =
      (⟨(Json.obj document).withParent f.target (parent.splice name f.inPlace), [f]⟩, .applied) := by
  have distinct := ((isKeyed_obj_iff parent).1 (Json.isKeyed_of_at? keyed fits.around)).1
  have free : f.taken name parent = [] := by
    refine List.filter_eq_nil_iff.2 fun key mem inUse => ?_
    rw [Bool.and_eq_true, bne_iff_ne] at inUse
    exact fits.unused key mem inUse.1 ((Members.has_iff_mem_keys _ _).1 inUse.2)
  have inParent : (Json.obj document).parent? f.target = some parent := by
    rw [fits.target, Json.parent?_concat_iff]
    exact ⟨fits.around, (Members.has_iff_mem_keys _ _).2 (Members.mem_keys_of_get? fits.found)⟩
  have last : f.target.getLast? = some name := by rw [fits.target, List.getLast?_concat]
  have call := Fixer.apply_of_parent? (s := .ofDocument (.obj document)) (f := f) nofun inParent last
  rw [fits.patch_found parent distinct fits.found, free] at call
  exact call

/-- A fix that is given to a document alone does what it does in a new fixer. -/
theorem Fix.Fits.applyApproved_alone {document : Members} {f : Fix} {above : KeyChain} {name : String}
    {parent : Members} {node : Json} (fits : f.Fits document above name parent node)
    (keyed : (Json.obj document).isKeyed = true) (approved : f.approved = true) :
    (applyApproved (.obj document) [f]).2 =
      .ok ((Json.obj document).withParent f.target (parent.splice name f.inPlace)) := by
  have single : ∀ fault, .failed fault ∉ ((Fixer.ofDocument (.obj document)).run [f]).2 := by
    intro fault mem
    rw [Fixer.run_cons, fits.apply_alone keyed] at mem
    cases List.mem_singleton.1 mem
  rw [Fixer.applyApproved_eq (by simpa using approved) single, Fixer.run_cons, fits.apply_alone keyed]
  rfl

/-! ## Tokens of a cluster -/

/-- Where a chain into a cluster goes once the cluster is flat: it passes a leaf, which stands under a
flat name, and goes on from there. -/
structure Cluster.Move (c : Cluster) (below : KeyChain) where
  front : KeyChain
  back : KeyChain
  leaf : Members
  key : String
  placed : Members
  split : below = front ++ back
  atFront : (Json.obj c.node).at? front = some (.obj leaf)
  beside : (front, key, .obj placed) ∈ (leafChainsBelow c.node).zip c.flattened

namespace Cluster

variable {c : Cluster} {below : KeyChain}

/-- The chain from the members around the cluster to where a token has moved. -/
def Move.chain (m : c.Move below) : KeyChain :=
  m.key :: m.back

/-- When a token keeps the type that it had under the type handed to the cluster. -/
inductive KeepsType (m : c.Move below) (handed : Option TokenType) (token : Members) (t : TokenType) :
    Prop where
  /-- The token names its type. -/
  | tagged : ((token.get? Key.type).or (token.get? Key.legacyType)).isSome = true →
      KeepsType m handed token t
  /-- A token that is a leaf is given its type inside the cluster, or none that would hide it. -/
  | leaf : m.back = [] → ((Json.obj c.node).handedDown none m.front).isSome = true ∨
      TokenType.infer? token.tokenValue = none ∨ TokenType.infer? token.tokenValue = some t →
        KeepsType m handed token t
  /-- A token in a leaf gets its type there or from above the cluster. -/
  | inLeaf : m.back ≠ [] → ((Json.obj m.leaf).handedDown none m.back).isSome = true ∨ handed = some t →
      KeepsType m handed token t

theorem nonempty_move (keyed : (Json.obj c.node).isKeyed = true) {token : Members}
    (leads : c.node.Leads below (.obj token)) (hasValue : token.hasValue = true) :
    Nonempty (c.Move below) := by
  obtain ⟨front, back, split, inChains, leaf, atFront⟩ := leads.exists_leafChain hasValue
  obtain ⟨⟨key, value⟩, beside, ends⟩ :=
    exists_mem_zip_of_forall₂ (flatten_ends c.name keyed) inChains
  obtain ⟨placed, -, rfl⟩ := ends
  exact ⟨⟨front, back, leaf, key, placed.token, split, atFront, beside⟩⟩

/-- A leaf under its flat name has the type that the cluster hands down to it written on. -/
theorem Move.placed_eq (m : c.Move below) (keyed : (Json.obj c.node).isKeyed = true) :
    m.leaf.isLeaf = true ∧
      m.placed = Leaf.typed ((Json.obj c.node).handedDown none m.front) m.leaf := by
  obtain ⟨leaf, ends, same⟩ := (List.forall₂_iff_zip.1 (flatten_ends c.name keyed)).2 m.beside
  rw [Json.obj.inj same]
  exact ends m.leaf m.atFront

theorem Move.front_ne_nil (m : c.Move below) : m.front ≠ [] := by
  have inChains := (List.of_mem_zip m.beside).1
  obtain ⟨entry, -, -, rest, -, split⟩ := (mem_leafChainsBelow_iff c.node m.front).1 inChains
  rw [split]
  exact List.cons_ne_nil _ _

/-- A type suggested in between is in the way only of a type from outside. -/
theorem or_or_eq_some_iff {inside suggested outside : Option TokenType} {t : TokenType}
    (resolved : inside.or outside = some t) :
    (inside.or suggested).or outside = some t ↔
      inside.isSome = true ∨ suggested = none ∨ suggested = some t := by
  cases inside <;> cases suggested <;> simp_all

/-- With what was known in between gone, a type from the front or from outside is left. -/
theorem or_eq_some_iff_of_or_or {front between outside : Option TokenType} {t : TokenType}
    (resolved : front.or (between.or outside) = some t) :
    front.or outside = some t ↔ front.isSome = true ∨ outside = some t := by
  cases front <;> simp_all

/-- A leaf that is a token. -/
theorem Move.typeOr_leaf_iff (m : c.Move below) (isWhole : m.back = []) {token : Members}
    (hasValue : token.hasValue = true) {handed : Option TokenType} {t : TokenType}
    (resolved : token.typeOr (((Json.obj c.node).handedDown none m.front).or handed) = some t) :
    (Leaf.typed ((Json.obj c.node).handedDown none m.front) token).typeOr handed = some t ↔
      KeepsType m handed token t := by
  cases own : (token.get? Key.type).or (token.get? Key.legacyType) with
  | some tag =>
      rw [Members.typeOr_of_tag own] at resolved
      exact iff_of_true (Leaf.typeOr_typed_of_tag own resolved _ _) (.tagged (by rw [own]; rfl))
  | none =>
      rw [Members.typeOr_of_untagged own] at resolved
      rw [Leaf.typeOr_typed_of_untagged own hasValue, or_or_eq_some_iff resolved]
      refine ⟨.leaf isWhole, fun keeps => ?_⟩
      cases keeps with
      | tagged isTagged =>
          rw [own] at isTagged
          cases isTagged
      | leaf _ kept => exact kept
      | inLeaf more => exact absurd isWhole more

/-- A leaf that is a group with a token in it. -/
theorem Move.typeOr_inLeaf_iff (m : c.Move below) (more : m.back ≠ []) {token : Members}
    {handed inside : Option TokenType} {t : TokenType}
    (resolved : token.typeOr (((Json.obj m.leaf).handedDown none m.back).or (inside.or handed)) =
      some t) :
    token.typeOr (((Json.obj m.leaf).handedDown none m.back).or handed) = some t ↔
      KeepsType m handed token t := by
  cases own : (token.get? Key.type).or (token.get? Key.legacyType) with
  | some tag =>
      rw [Members.typeOr_of_tag own] at resolved ⊢
      exact iff_of_true resolved (.tagged (by rw [own]; rfl))
  | none =>
      rw [Members.typeOr_of_untagged own] at resolved ⊢
      rw [or_eq_some_iff_of_or_or resolved]
      refine ⟨.inLeaf more, fun keeps => ?_⟩
      cases keeps with
      | tagged isTagged =>
          rw [own] at isTagged
          cases isTagged
      | leaf isWhole => exact absurd isWhole more
      | inLeaf _ kept => exact kept

/-- **The moved token and its type**, before it is put anywhere: under its flat name, and with the type
handed to the cluster handed to it there. -/
theorem Move.typeOr_iff (m : c.Move below) (keyed : (Json.obj c.node).isKeyed = true) {token : Members}
    (leads : c.node.Leads below (.obj token)) (hasValue : token.hasValue = true)
    {handed : Option TokenType} {t : TokenType}
    (resolved : token.typeOr ((Json.obj c.node).handedDown handed below) = some t) :
    ∃ moved : Members, (Json.obj m.placed).at? m.back = some (.obj moved) ∧
      moved.tokenValue = token.tokenValue ∧
        (moved.typeOr ((Json.obj m.placed).handedDown handed m.back) = some t ↔
          KeepsType m handed token t) := by
  obtain ⟨isLeaf, placed⟩ := m.placed_eq keyed
  by_cases isWhole : m.back = []
  · have split : below = m.front := m.split.trans (by rw [isWhole, List.append_nil])
    have same : m.leaf = token := by
      have atEnd := leads.at?
      rw [split, m.atFront] at atEnd
      exact Json.obj.inj (Option.some.inj atEnd)
    rw [split, Json.handedDown_eq_or] at resolved
    rw [placed, same, isWhole, Json.at?_nil, Json.handedDown_nil]
    exact ⟨_, rfl, Leaf.tokenValue_typed _ token, m.typeOr_leaf_iff isWhole hasValue resolved⟩
  · rw [m.split] at leads resolved
    obtain ⟨group, atFront, isGroup, onward⟩ := leads.exists_group m.front_ne_nil isWhole
    cases m.atFront.symm.trans atFront
    rw [Json.handedDown_append m.atFront, Json.handedDown_eq_or, Json.handedDown_eq_or _ handed]
      at resolved
    rw [placed, Leaf.typed_of_has _ (Members.has_type_of_isLeaf isLeaf isGroup),
      Json.handedDown_eq_or]
    exact ⟨token, onward.at?, rfl, m.typeOr_inLeaf_iff isWhole resolved⟩

end Cluster

/-! ## Flattened documents -/

theorem Members.Leads.isMeta_eq_false {ms : Members} {chain : KeyChain} {node : Json}
    (leads : ms.Leads chain node) : ∀ key ∈ chain, Key.isMeta key = false := by
  induction leads with
  | here notMeta =>
      intro key mem
      rwa [List.mem_singleton.1 mem]
  | under notMeta _ _ _ ih =>
      intro key mem
      rcases List.mem_cons.1 mem with rfl | inRest
      · exact notMeta
      · exact ih key inRest

/-- Joining keys on does not make metadata of a name. -/
theorem FlatName.Extends.isMeta_eq_false {name key : String} (extended : FlatName.Extends name key)
    (notMeta : Key.isMeta name = false) : Key.isMeta key = false := by
  rcases extended with rfl | ⟨rest, rfl⟩
  · exact notMeta
  · unfold Key.isMeta at notMeta ⊢
    rw [String.toList_append, String.toList_append]
    cases chars : name.toList with
    | nil => rfl
    | cons c rest =>
        rw [chars] at notMeta
        exact notMeta

/-- The document with a cluster flattened. -/
def Cluster.patched (c : Cluster) (document : Members) : Json :=
  (Json.obj document).withParent c.keys (c.siblings.splice c.name c.flattened)

/-- **Whether a token in a flattened document has the type it had.** -/
theorem Cluster.Move.typeOr_patched_iff {document : Members} (keyed : (Json.obj document).isKeyed = true)
    {c : Cluster} (mem : c ∈ clusters document)
    (unused : ∀ key ∈ c.flattened.keys, key ≠ c.name → key ∉ c.siblings.keys) {below : KeyChain}
    (m : c.Move below) {token : Members} (leads : c.node.Leads below (.obj token))
    (hasValue : token.hasValue = true) {t : TokenType}
    (resolved : token.typeOr ((Json.obj document).handedDown none (c.keys ++ below)) = some t) :
    ∃ moved : Members,
      (c.patched document).at? (c.group :: c.above ++ m.chain) = some (.obj moved) ∧
        moved.tokenValue = token.tokenValue ∧
          (moved.typeOr ((c.patched document).handedDown none (c.group :: c.above ++ m.chain)) =
              some t ↔
            KeepsType m ((Json.obj document).handedDown none c.keys) token t) := by
  obtain ⟨group, found, isGroup, stands⟩ := mem_clusters mem keyed
  have around : (Json.obj document).at? (c.group :: c.above) = some (.obj c.siblings) := by
    rw [Json.at?_cons, found]
    exact stands.around
  have atNode : (Json.obj document).at? c.keys = some (.obj c.node) := by
    rw [Cluster.keys, Json.at?_concat around, stands.found]
  have nodeKeyed := Json.isKeyed_of_at? keyed atNode
  have belowGroup := stands.leads.isMeta_eq_false
  have notMetaName : Key.isMeta c.name = false := belowGroup c.name (by simp)
  have plain : ∀ key ∈ c.group :: c.above, Key.isMeta key = false := by
    intro key inChain
    rcases List.mem_cons.1 inChain with rfl | inAbove
    · exact ((isTokenGroup_iff _ _).1 isGroup).1
    · exact belowGroup key (List.mem_append_left _ inAbove)
  have holds := flatten_holds c.name c.node
  have inFlat : (m.key, .obj m.placed) ∈ c.flattened := (List.of_mem_zip m.beside).2
  have foundFlat : c.flattened.get? m.key = some (.obj m.placed) :=
    Members.get?_of_mem holds.distinct inFlat
  have foundNew : (c.siblings.splice c.name c.flattened).get? m.key = some (.obj m.placed) :=
    Members.get?_splice_of_mem (Members.mem_keys_of_get? stands.found) foundFlat
      (unused m.key (Members.mem_keys_of_mem inFlat))
  have notFlat : Key.type ∉ c.flattened.keys := fun isFlat =>
    absurd ((holds.named _ isFlat).isMeta_eq_false notMetaName) (by decide)
  have notName : Key.type ≠ c.name := by
    intro same
    rw [← same] at notMetaName
    exact absurd notMetaName (by decide)
  have sameType : (c.siblings.splice c.name c.flattened).groupType? = c.siblings.groupType? := by
    rw [Members.groupType?, Members.get?_splice_of_not_mem notName notFlat]
    rfl
  have handed : (Json.obj document).handedDown none c.keys =
      c.siblings.groupType?.or ((Json.obj document).handedDown none (c.group :: c.above)) := by
    rw [Cluster.keys, Json.handedDown_append around, Json.handedDown_singleton]
  have atParent := Json.at?_withParent around c.name (c.siblings.splice c.name c.flattened)
  have handedThere : (c.patched document).handedDown none (c.group :: c.above ++ m.chain) =
      (Json.obj m.placed).handedDown ((Json.obj document).handedDown none c.keys) m.back := by
    rw [Cluster.patched, Cluster.keys, Json.handedDown_append atParent,
      Json.handedDown_withParent around c.name _ plain, Cluster.Move.chain,
      Json.handedDown_cons foundNew, sameType, ← handed, Cluster.keys]
  have atThere : (c.patched document).at? (c.group :: c.above ++ m.chain) =
      (Json.obj m.placed).at? m.back := by
    rw [Cluster.patched, Cluster.keys, Json.at?_append, atParent, Option.bind_some, Cluster.Move.chain,
      Json.at?_cons, foundNew, Option.bind_some]
  rw [Json.handedDown_append atNode] at resolved
  rw [handedThere, atThere]
  exact m.typeOr_iff nodeKeyed leads hasValue resolved

namespace Fix

theorem exists_cluster_of_mem_collect {document : Members} {f : Fix} (mem : f ∈ collect (.obj document))
    (flattens : f.type = .flatten) :
    ∃ c ∈ clusters document, ∃ index, c.isFixable = true ∧ f = c.toFix index := by
  rcases List.mem_append.1 mem with typing | flattening
  · obtain ⟨⟨u, index⟩, -, rfl⟩ := List.mem_map.1 typing
    cases flattens
  · obtain ⟨⟨c, index⟩, inList, rfl⟩ := List.mem_map.1 flattening
    obtain ⟨inClusters, fixable⟩ := List.mem_filter.1 (List.fst_mem_of_mem_zipIdx inList)
    exact ⟨c, inClusters, _, fixable, rfl⟩

/-- What a flatten fix makes of the document it was collected from. -/
theorem applyApproved_toFix {document : Members} (keyed : (Json.obj document).isKeyed = true)
    {c : Cluster} (mem : c ∈ clusters document) (fixable : c.isFixable = true) (index : Nat) :
    (applyApproved (.obj document) [{ c.toFix index with approved := true }]).2 =
        .ok (c.patched document) ∧
      ∀ key ∈ c.flattened.keys, key ≠ c.name → key ∉ c.siblings.keys := by
  have offered : Offered document { c.toFix index with approved := true } :=
    .flatten mem fixable index true
  obtain ⟨above, name, parent, node, fits⟩ := offered.fits keyed
  obtain ⟨group, found, -, stands⟩ := mem_clusters mem keyed
  have target := target_toFix_cluster c index true
  have inPlace : inPlace { c.toFix index with approved := true } = c.flattened :=
    inPlace_of_flatten rfl rfl
  have split : above ++ [name] = c.group :: c.above ++ [c.name] := fits.target.symm.trans target
  obtain ⟨rfl, sameName⟩ := List.append_inj' split rfl
  cases sameName
  have around := fits.around
  rw [Json.at?_cons, found] at around
  cases around.symm.trans stands.around
  refine ⟨?_, inPlace ▸ fits.unused⟩
  rw [fits.applyApproved_alone keyed rfl, inPlace, target]
  rfl

/-- **When a flattening keeps the types of its tokens.**  Applied alone, the fix makes the flattened
document; there each token of the cluster has moved to a place below a flat name with its value, and a
check resolves the type that it resolved before exactly if `KeepsType` says so. -/
theorem keepsType_iff_of_flatten {document : Members} (keyed : (Json.obj document).isKeyed = true)
    {f : Fix} (mem : f ∈ collect (.obj document)) (flattens : f.type = .flatten) :
    ∃ c ∈ clusters document, ∃ index, f = c.toFix index ∧
      (applyApproved (.obj document) [{ f with approved := true }]).2 = .ok (c.patched document) ∧
      ∀ (below : KeyChain) (token : Members) (t : TokenType),
        c.node.Leads below (.obj token) → token.hasValue = true →
          token.typeOr ((Json.obj document).handedDown none (c.keys ++ below)) = some t →
            Nonempty (c.Move below) ∧ ∀ m : c.Move below, ∃ moved : Members,
              (c.patched document).at? (c.group :: c.above ++ m.chain) = some (.obj moved) ∧
                moved.tokenValue = token.tokenValue ∧
                  (moved.typeOr ((c.patched document).handedDown none
                      (c.group :: c.above ++ m.chain)) = some t ↔
                    Cluster.KeepsType m ((Json.obj document).handedDown none c.keys) token t) := by
  obtain ⟨c, inClusters, index, fixable, rfl⟩ := exists_cluster_of_mem_collect mem flattens
  obtain ⟨result, unused⟩ := applyApproved_toFix keyed inClusters fixable index
  refine ⟨c, inClusters, index, rfl, result, fun below token t leads hasValue resolved => ?_⟩
  obtain ⟨group, found, -, stands⟩ := mem_clusters inClusters keyed
  have nodeKeyed : (Json.obj c.node).isKeyed = true := by
    have siblingsKeyed := Json.isKeyed_of_at? (Members.isKeyed_of_get? keyed found) stands.around
    exact Members.isKeyed_of_get? siblingsKeyed stands.found
  exact ⟨Cluster.nonempty_move nodeKeyed leads hasValue, fun m =>
    m.typeOr_patched_iff keyed inClusters unused leads hasValue resolved⟩

end Fix

namespace Example

/-- A cluster that names the type of its token, in a group that names another. -/
def namedSizes : Members :=
  [("text", .obj [("$type", .str "dimension"),
    ("body", .obj [("$type", .str "fontSize"), ("small", .obj [("$value", .str "12px")])])])]

/-- The same token, with its type named above the cluster. -/
def fontSizes : Members :=
  [("text", .obj [("$type", .str "fontSize"),
    ("body", .obj [("small", .obj [("$value", .str "12px")])])])]

def flatFontSizes : Members :=
  [("text", .obj [("$type", .str "fontSize"),
    ("body-small", .obj [("$value", .str "12px"), ("$type", .str "dimension")])])]

/-- The type that the cluster names goes with the token. -/
theorem namedSizes_keep_type :
    (Json.obj namedSizes).isKeyed = true ∧
      ∃ f ∈ Fix.collect (.obj namedSizes), f.type = .flatten ∧ ∃ patched,
        (applyApproved (.obj namedSizes) [{ f with approved := true }]).2 = .ok patched ∧
          ∃ place moved, patched.at? place = some (.obj moved) ∧
            Members.tokenValue moved = .str "12px" ∧
              Members.typeOr moved (patched.handedDown none place) = some .fontSize := by
  have keyed : (Json.obj namedSizes).isKeyed = true := by decide
  obtain ⟨f, only⟩ : ∃ f, Fix.collect (.obj namedSizes) = [f] := ⟨_, rfl⟩
  have mem : f ∈ Fix.collect (.obj namedSizes) := only ▸ List.mem_singleton_self f
  have flattens : f.type = .flatten := by
    cases only
    rfl
  obtain ⟨c, inClusters, index, -, result, tokens⟩ := Fix.keepsType_iff_of_flatten keyed mem flattens
  obtain rfl : c = ⟨"text", [], "body", [("$type", .str "fontSize"),
      ("small", .obj [("$value", .str "12px")])], _⟩ := List.mem_singleton.1 inClusters
  obtain ⟨⟨m⟩, moves⟩ := tokens ["small"] _ .fontSize (.here (by decide) rfl) (by decide) rfl
  obtain ⟨whole, inside⟩ : m.back = [] ∧ m.front = ["small"] := by
    rcases List.append_eq_singleton_iff.1 m.split.symm with ⟨none_, -⟩ | ⟨all, none_⟩
    · exact absurd none_ m.front_ne_nil
    · exact ⟨none_, all⟩
  obtain ⟨moved, atPlace, value, keeps⟩ := moves m
  refine ⟨keyed, f, mem, flattens, _, result, _, moved, atPlace, value, keeps.2 (.leaf whole (.inl ?_))⟩
  rw [inside]
  rfl

/-- **The type of the value goes before the one above the cluster**: the token is a font size before,
and a dimension afterwards. -/
theorem fontSizes_change_type :
    (Fix.collect (.obj fontSizes)).map Fix.type = [.flatten] ∧
      Members.typeOr [("$value", .str "12px")]
        ((Json.obj fontSizes).handedDown none ["text", "body", "small"]) = some .fontSize ∧
      (applyApproved (.obj fontSizes) (Fix.offers (.obj fontSizes))).2 = .ok (.obj flatFontSizes) ∧
      (Json.obj flatFontSizes).at? ["text", "body-small"] =
        some (.obj [("$value", .str "12px"), ("$type", .str "dimension")]) ∧
      Members.typeOr [("$value", .str "12px"), ("$type", .str "dimension")]
        ((Json.obj flatFontSizes).handedDown none ["text", "body-small"]) = some .dimension :=
  ⟨rfl, rfl, rfl, rfl, rfl⟩

end Example

end DesignTokens
