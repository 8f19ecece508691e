/-
# DesignTokens.Proofs.Fix.Fits -- what an offered fix does

A document offers fixes of two kinds, and `Fix.Fits` says once what both have in common.  A fix is
made for a node of the document.  Where it finds that node it puts its members in the node's place,
unless one of their names, the node's own aside, is in use there; where it finds another node it is
skipped.  Its names are not in use in the document it is offered for, and it does not find its node
again in what it put there.  Everything about runs of offered fixes follows from this.

Of two offered fixes only a flattening can stand above another, and only above a typing
(`Fix.Offered.types_of_inside`): clusters do not lie inside one another, and tokens hold no tokens.
-/
import DesignTokens.Proofs.Cluster.Flat
import DesignTokens.Proofs.Fix.Apply
import DesignTokens.Proofs.Fix.Collect
import DesignTokens.Proofs.Json.Substitution

namespace DesignTokens

set_option autoImplicit false

namespace Fix

/-- All fixes that a document offers, approved, in the order in which they are collected. -/
def offers (document : Json) : List Fix :=
  approve none true (collect document)

/-- A fix that a document offers, approved or not. -/
inductive Offered (document : Members) : Fix → Prop where
  | addType {u : UntypedToken} (mem : u ∈ untypedTokens document) (index : Nat) (approved : Bool) :
      Offered document { u.toFix index with approved := approved }
  | flatten {c : Cluster} (mem : c ∈ clusters document) (fixable : c.isFixable = true) (index : Nat)
      (approved : Bool) : Offered document { c.toFix index with approved := approved }

theorem offered_of_mem_collect {document : Members} {f : Fix} (mem : f ∈ collect (.obj document)) :
    f.Offered document := by
  rcases List.mem_append.1 mem with typing | flattening
  · obtain ⟨⟨u, index⟩, inList, rfl⟩ := List.mem_map.1 typing
    exact .addType (List.fst_mem_of_mem_zipIdx inList) index false
  · obtain ⟨⟨c, index⟩, inList, rfl⟩ := List.mem_map.1 flattening
    obtain ⟨inClusters, fixable⟩ := List.mem_filter.1 (List.fst_mem_of_mem_zipIdx inList)
    exact .flatten inClusters fixable _ false

theorem Offered.approve {document : Members} {f : Fix} (offered : f.Offered document) (value : Bool) :
    Offered document { f with approved := value } := by
  cases offered with
  | addType mem index => exact .addType mem index value
  | flatten mem fixable index => exact .flatten mem fixable index value

theorem mem_approve_all {fixes : List Fix} {f : Fix} (mem : f ∈ approve none true fixes) :
    ∃ g ∈ fixes, f = { g with approved := true } := by
  obtain ⟨g, inFixes, rfl⟩ := List.mem_map.1 mem
  exact ⟨g, inFixes, rfl⟩

theorem offered_of_mem_offers {document : Members} {f : Fix} (mem : f ∈ offers (.obj document)) :
    f.Offered document ∧ f.approved = true := by
  obtain ⟨g, collected, rfl⟩ := mem_approve_all mem
  exact ⟨(offered_of_mem_collect collected).approve true, rfl⟩

/-- The members that a fix puts in the place of its node. -/
def inPlace (f : Fix) : Members :=
  match f.type, f.after with
  | .flatten, .obj flat => flat
  | _, after => [(f.target.getLastD "", after)]

/-- The names of a fix that are in use among members, that of its node aside. -/
def taken (f : Fix) (name : String) (around : Members) : List String :=
  f.inPlace.keys.filter fun key => key != name && around.has key

/-- A fix is made for a node of a document, at a name among the members of a parent. -/
structure Fits (document : Members) (f : Fix) (above : KeyChain) (name : String) (parent : Members)
    (node : Json) : Prop where
  target : f.target = above ++ [name]
  around : (Json.obj document).at? above = some (.obj parent)
  found : parent.get? name = some node
  distinct : f.inPlace.keys.Nodup
  keyed : ∀ m ∈ f.inPlace, m.2.isKeyed = true
  unused : ∀ key ∈ f.inPlace.keys, key ≠ name → key ∉ parent.keys
  moves : ∀ value, f.inPlace.get? name = some value → value.same node = false
  patch_found : ∀ beside : Members, beside.keys.Nodup → beside.get? name = some node →
    f.patch beside name =
      if (f.taken name beside).isEmpty then .applied (beside.splice name f.inPlace)
      else .skipped (.wouldOverwrite (f.taken name beside))
  patch_changed : ∀ (beside : Members) (value : Json), beside.get? name = some value →
    value.same node = false → ∃ reason, f.patch beside name = .skipped reason

theorem Fits.parent_eq {document : Members} {f : Fix} {above : KeyChain} {name : String}
    {parent : Members} {node : Json} (fits : f.Fits document above name parent node) :
    f.target.dropLast = above := by
  rw [fits.target, List.dropLast_concat]

theorem Fits.at?_target {document : Members} {f : Fix} {above : KeyChain} {name : String}
    {parent : Members} {node : Json} (fits : f.Fits document above name parent node) :
    (Json.obj document).at? f.target = some node := by
  rw [fits.target, Json.at?_concat fits.around, fits.found]

theorem equal_obj_right (value : Json) (ms : Members) : value.equal (.obj ms) = value.same (.obj ms) := by
  cases value with
  | float x => cases x <;> rfl
  | _ => rfl

/-! ## Giving a token its type -/

section Typing

variable {f : Fix} {beside token after : Members} {name : String} {tag : Json}

theorem inPlace_of_addType (type : f.type = .addType) {above : KeyChain} (target : f.target = above ++ [name]) :
    f.inPlace = [(name, f.after)] := by
  rw [inPlace, type, target]
  simp

/-- Only a flattening brings names besides that of its node. -/
theorem Fits.flattens {document parent : Members} {above : KeyChain} {node : Json}
    (fits : f.Fits document above name parent node) {key : String} (mem : key ∈ f.inPlace.keys)
    (ne : key ≠ name) : f.type = .flatten := by
  cases type : f.type with
  | flatten => rfl
  | addType =>
      rw [inPlace_of_addType type fits.target] at mem
      exact absurd (List.mem_singleton.1 mem) ne

theorem patch_addType (type : f.type = .addType) (before : f.before = .obj token)
    (replacement : f.after = .obj after) (tagged : after.get? Key.type = some tag)
    (found : beside.get? name = some (.obj token)) (tokenKeyed : (Json.obj token).isKeyed = true) :
    f.patch beside name = .applied (beside.put name (.obj (token.put Key.type tag))) := by
  have unchanged : (Json.obj token).equal f.before = true := by
    rw [before, equal_obj_right]
    exact Json.same_self _ tokenKeyed
  simp [patch, type, addType, found, unchanged, replacement, tagged]

theorem patch_addType_changed (type : f.type = .addType) (before : f.before = .obj token)
    {value : Json} (found : beside.get? name = some value) (changed : value.same (.obj token) = false) :
    f.patch beside name = .skipped .tokenChanged := by
  simp [patch, type, addType, found, before, equal_obj_right, changed]

/-- A token with a type is not the token without it: it has one member more. -/
theorem same_typed_eq_false (untyped : token.has Key.type = false) (tag : Json) :
    (Json.obj (token.put Key.type tag)).same (.obj token) = false := by
  rw [Bool.eq_false_iff]
  intro equal
  have sameLength := ((Json.same_obj_iff _ _).1 equal).1
  rw [Members.put_of_has_eq_false untyped, List.length_append, List.length_singleton] at sameLength
  omega

/-- A fix that gives an untyped token its type fits. -/
theorem fits_addType {document parent : Members} {above : KeyChain} (type : f.type = .addType)
    (target : f.target = above ++ [name]) (before : f.before = .obj token)
    (replacement : f.after = .obj (token.put Key.type tag)) (untyped : token.has Key.type = false)
    (tagKeyed : tag.isKeyed = true) (keyed : (Json.obj document).isKeyed = true)
    (around : (Json.obj document).at? above = some (.obj parent))
    (found : parent.get? name = some (.obj token)) :
    Fits document f above name parent (.obj token) := by
  have inPlace := inPlace_of_addType type target
  have tokenKeyed := Members.isKeyed_of_get? (Json.isKeyed_of_at? keyed around) found
  have typedKeyed := Members.isKeyed_put tokenKeyed Key.type tagKeyed
  refine
    { target := target
      around := around
      found := found
      distinct := ?distinct
      keyed := ?keyed
      unused := ?unused
      moves := ?moves
      patch_found := ?patch_found
      patch_changed := fun beside value foundOther changed =>
        ⟨_, patch_addType_changed type before foundOther changed⟩ }
  case distinct =>
    rw [inPlace]
    exact List.nodup_singleton name
  case keyed =>
    rw [inPlace, replacement]
    simpa using typedKeyed
  case unused =>
    rw [inPlace]
    intro key mem ne
    exact absurd (List.mem_singleton.1 mem) ne
  case moves =>
    intro value inNew
    rw [inPlace, Members.get?_cons, if_pos rfl] at inNew
    cases inNew
    rw [replacement]
    exact same_typed_eq_false untyped tag
  case patch_found =>
    intro beside distinct foundBeside
    have free : f.taken name beside = [] := by simp [taken, inPlace]
    rw [free, inPlace, replacement,
      patch_addType type before replacement (Members.get?_put_self _ _ _) foundBeside tokenKeyed,
      Members.put_eq_splice distinct (Members.mem_keys_of_get? foundBeside)]
    rfl

end Typing

/-! ## Flattening a cluster -/

section Flattening

variable {f : Fix} {beside node flat : Members} {name : String}

theorem inPlace_of_flatten (type : f.type = .flatten) (replacement : f.after = .obj flat) :
    f.inPlace = flat := by
  rw [inPlace, type, replacement]

theorem patch_flatten (type : f.type = .flatten) (before : f.before = .obj [(name, .obj node)])
    (replacement : f.after = .obj flat) (found : beside.get? name = some (.obj node))
    (nodeKeyed : (Json.obj node).isKeyed = true) :
    f.patch beside name =
      if (f.taken name beside).isEmpty then .applied (beside.splice name flat)
      else .skipped (.wouldOverwrite (f.taken name beside)) := by
  have unchanged : (Json.obj node).equal (.obj node) = true := by
    rw [equal_obj_right]
    exact Json.same_self _ nodeKeyed
  have given : Members.get? [(name, Json.obj node)] name = some (.obj node) := by
    rw [Members.get?_cons, if_pos rfl]
  simp [patch, type, flattenIn, found, before, given, unchanged, replacement, taken,
    inPlace_of_flatten type replacement]

theorem patch_flatten_changed (type : f.type = .flatten) (before : f.before = .obj [(name, .obj node)])
    {value : Json} (found : beside.get? name = some value) (changed : value.same (.obj node) = false) :
    f.patch beside name = .skipped .structureChanged := by
  have given : Members.get? [(name, Json.obj node)] name = some (.obj node) := by
    rw [Members.get?_cons, if_pos rfl]
  simp [patch, type, flattenIn, found, before, given, equal_obj_right, changed]

/-- A fix that flattens a cluster whose flat names are not in use fits. -/
theorem fits_flatten {document parent : Members} {above : KeyChain} (type : f.type = .flatten)
    (target : f.target = above ++ [name]) (before : f.before = .obj [(name, .obj node)])
    (replacement : f.after = .obj (flatten name node).entries) (isCluster : node.kind = .nestedTokens)
    (unused : ∀ key ∈ (flatten name node).entries.keys, key ≠ name → key ∉ parent.keys)
    (keyed : (Json.obj document).isKeyed = true)
    (around : (Json.obj document).at? above = some (.obj parent))
    (found : parent.get? name = some (.obj node)) :
    Fits document f above name parent (.obj node) := by
  have inPlace := inPlace_of_flatten type replacement
  have nodeKeyed := Members.isKeyed_of_get? (Json.isKeyed_of_at? keyed around) found
  refine
    { target := target
      around := around
      found := found
      distinct := inPlace ▸ (flatten_holds name node).distinct
      keyed := ?keyed
      unused := inPlace ▸ unused
      moves := ?moves
      patch_found := ?patch_found
      patch_changed := fun beside value foundOther changed =>
        ⟨_, patch_flatten_changed type before foundOther changed⟩ }
  case keyed =>
    rw [inPlace]
    intro m mem
    obtain ⟨leaf, inNode, placed⟩ := exists_leaf_of_mem_flatten mem
    exact isKeyed_of_placed placed (leafBelow_of_mem node nodeKeyed inNode).keyed
  case moves =>
    intro value inNew
    rw [inPlace] at inNew
    exact same_flat_eq_false nodeKeyed isCluster (Members.mem_of_get? inNew)
  case patch_found =>
    intro beside _ foundBeside
    rw [inPlace]
    exact patch_flatten type before replacement foundBeside nodeKeyed

end Flattening

/-! ## Offered fixes -/

theorem target_of_keys {f : Fix} (more : f.keys ≠ []) : f.target = f.keys := by
  rw [target, if_neg]
  simpa using more

theorem target_toFix_untyped {u : UntypedToken} {entry : String} {below : KeyChain}
    (keysEq : u.keys = entry :: below) (index : Nat) (approved : Bool) :
    target { u.toFix index with approved := approved } = entry :: below := by
  have more : u.keys ≠ [] := by simp [keysEq]
  exact (target_of_keys more).trans keysEq

theorem target_toFix_cluster (c : Cluster) (index : Nat) (approved : Bool) :
    target { c.toFix index with approved := approved } = c.group :: (c.above ++ [c.name]) := by
  have more : c.keys ≠ [] := by simp [Cluster.keys]
  exact target_of_keys more

/-- Every offered fix fits. -/
theorem Offered.fits {document : Members} (keyed : (Json.obj document).isKeyed = true) {f : Fix}
    (offered : f.Offered document) : ∃ above name parent node, Fits document f above name parent node := by
  cases offered with
  | @addType u mem index approved =>
      obtain ⟨entry, group, below, found, -, keysEq, stands⟩ := mem_untypedTokens mem keyed
      obtain ⟨above, name, parent, rfl, around, foundToken, -, -⟩ := stands.leads.exists_parent
      have target := target_toFix_untyped keysEq index approved
      refine ⟨entry :: above, name, parent, .obj u.token,
        fits_addType rfl target rfl rfl stands.untyped rfl keyed ?_ foundToken⟩
      rw [Json.at?_cons, found]
      exact around
  | @flatten c mem fixable index approved =>
      obtain ⟨group, found, -, stands⟩ := mem_clusters mem keyed
      have target := target_toFix_cluster c index approved
      refine ⟨c.group :: c.above, c.name, c.siblings, .obj c.node,
        fits_flatten rfl target rfl rfl stands.isCluster ?_ keyed ?_ stands.found⟩
      · intro key mem ne inUse
        have clash : key ∈ c.clashes :=
          List.mem_filter.2 ⟨mem, by simp [ne, (Members.has_iff_mem_keys _ _).2 inUse]⟩
        rw [List.isEmpty_iff.1 fixable] at clash
        cases clash
      · rw [Json.at?_cons, found]
        exact stands.around

/-- Where an offered fix leads from a token group, and what it was made for there. -/
structure Place (document : Members) (f : Fix) (entry : String) (group : Members) (below : KeyChain)
    (node : Members) : Prop where
  found : document.get? entry = some (.obj group)
  target : f.target = entry :: below
  leads : group.Leads below (.obj node)
  token : f.type = .addType → node.isToken = true
  cluster : f.type = .flatten → node.kind = .nestedTokens
  plain : f.type = .flatten → ∀ front inner, front <+: below → front ≠ [] → front ≠ below →
    (Json.obj group).at? front = some (.obj inner) → Members.kind inner = .group

theorem Offered.exists_place {document : Members} (keyed : (Json.obj document).isKeyed = true) {f : Fix}
    (offered : f.Offered document) : ∃ entry group below node, Place document f entry group below node := by
  cases offered with
  | @addType u mem index approved =>
      obtain ⟨entry, group, below, found, -, keysEq, stands⟩ := mem_untypedTokens mem keyed
      have notFlatten : FixType.addType ≠ .flatten := by decide
      refine ⟨entry, group, below, u.token, ?_⟩
      exact
        { found := found
          target := target_toFix_untyped keysEq index approved
          leads := stands.leads
          token := fun _ => by rw [Members.isToken, stands.hasValue, Bool.true_or]
          cluster := fun flattens => absurd flattens notFlatten
          plain := fun flattens => absurd flattens notFlatten }
  | @flatten c mem fixable index approved =>
      obtain ⟨group, found, -, stands⟩ := mem_clusters mem keyed
      have notAddType : FixType.flatten ≠ .addType := by decide
      refine ⟨c.group, group, c.above ++ [c.name], c.node, ?_⟩
      refine
        { found := found
          target := target_toFix_cluster c index approved
          leads := stands.leads
          token := fun types => absurd types notAddType
          cluster := fun _ => stands.isCluster
          plain := fun _ front inner isPrefix more strict leads => ?_ }
      rcases List.prefix_concat_iff.1 isPrefix with whole | isPrefix
      · exact absurd whole strict
      · exact stands.plain front inner isPrefix more leads

/-- **What stands above what.**  If the node of one offered fix lies inside that of another, the
inner fix types a token and the outer one flattens a cluster. -/
theorem Offered.types_of_inside {document : Members} (keyed : (Json.obj document).isKeyed = true)
    {outer inner : Fix} (outerOffered : outer.Offered document) (innerOffered : inner.Offered document)
    {rest : KeyChain} (inside : inner.target = outer.target ++ rest) (strict : rest ≠ []) :
    outer.type = .flatten ∧ inner.type = .addType := by
  obtain ⟨entry, group, below, node, outerPlace⟩ := outerOffered.exists_place keyed
  obtain ⟨entry', group', below', node', innerPlace⟩ := innerOffered.exists_place keyed
  rw [outerPlace.target, innerPlace.target, List.cons_append, List.cons.injEq] at inside
  obtain ⟨rfl, rfl⟩ := inside
  cases outerPlace.found.symm.trans innerPlace.found
  have down : below ≠ [] := by
    obtain ⟨above, name, -, rfl, -⟩ := outerPlace.leads.exists_parent
    simp
  obtain ⟨passed, leadsPassed, isGroup, -⟩ := innerPlace.leads.exists_group down strict
  cases outerPlace.leads.at?.symm.trans leadsPassed
  have outerFlattens : outer.type = .flatten := by
    cases type : outer.type with
    | flatten => rfl
    | addType => exact absurd (outerPlace.token type) (by rw [isGroup]; decide)
  refine ⟨outerFlattens, ?_⟩
  cases type : inner.type with
  | addType => rfl
  | flatten =>
      have isPlain := innerPlace.plain type below node (List.prefix_append _ _) down
        (by simpa using strict) leadsPassed
      rw [outerPlace.cluster outerFlattens] at isPlain
      cases isPlain

/-- If two offered fixes overlap, the second one stands above the first or at the same node, unless
it types a token of a cluster that the first one flattens. -/
theorem Offered.isPrefix_or_types {document : Members} (keyed : (Json.obj document).isKeyed = true)
    {e f : Fix} (offered : e.Offered document) (offered' : f.Offered document)
    (overlap : e.overlaps f = true) :
    f.target <+: e.target ∨ e.type = .flatten ∧ f.type = .addType := by
  rcases (Path.overlap_iff _ _).1 overlap with ⟨rest, inside⟩ | isPrefix
  · by_cases strict : rest = []
    · rw [strict, List.append_nil] at inside
      rw [inside]
      exact .inl (List.prefix_refl _)
    · exact .inr (offered.types_of_inside keyed offered' inside.symm strict)
  · exact .inl isPrefix

end Fix

end DesignTokens
