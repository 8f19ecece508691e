/-
# DesignTokens.Proofs.Fix.Collect -- what the fixes of a document find there

A fix is collected on a walk down from a token group and used later by its chain of keys.  This
module ties the two: the chain of a collected fix leads to the token or cluster it was made for
(`UntypedToken.Stands`, `Cluster.Stands`), and what the fix does there, whatever stands beside it,
is said once for both kinds (`Fix.Fits`).  A fix that finds its node puts its members in the place
of the node, unless one of their names is taken; a fix that finds another node leaves it; and no fix
finds its node again in what it put there (`moves`).
-/
import DesignTokens.Fix.Collect
import DesignTokens.Fix.Selection
import DesignTokens.Proofs.Json.Keyed
import DesignTokens.Proofs.Node
import DesignTokens.Proofs.Validation.Types

namespace DesignTokens

set_option autoImplicit false

/-! ## Ways down -/

namespace Members.Leads

variable {ms : Members} {chain front back : KeyChain} {node : Json}

theorem exists_member (leads : ms.Leads chain node) :
    ∃ key rest value, chain = key :: rest ∧ ms.get? key = some value := by
  cases leads with
  | here _ found | under _ found => exact ⟨_, _, _, rfl, found⟩

/-- The members among which a chain ends. -/
theorem exists_parent (leads : ms.Leads chain node) :
    ∃ above name parent, chain = above ++ [name] ∧ (Json.obj ms).at? above = some (.obj parent) ∧
      Members.get? parent name = some node ∧ Key.isMeta name = false ∧
      (above ≠ [] → Members.isToken parent = false) := by
  induction leads with
  | @here ms key node notMeta found =>
      exact ⟨[], key, ms, rfl, Json.at?_nil _, found, notMeta, fun more => absurd rfl more⟩
  | @under ms group key rest node notMeta found isGroup _ ih =>
      obtain ⟨above, name, parent, rfl, around, foundNode, notMetaName, parentIsGroup⟩ := ih
      refine ⟨key :: above, name, parent, rfl, ?_, foundNode, notMetaName, fun _ => ?_⟩
      · rw [Json.at?_cons, found]
        exact around
      · cases above with
        | nil =>
            rw [Json.at?_nil] at around
            cases around
            exact isGroup
        | cons => exact parentIsGroup (by simp)

/-- What a chain passes on its way is a group. -/
theorem exists_group (leads : ms.Leads (front ++ back) node) (down : front ≠ []) (more : back ≠ []) :
    ∃ group, (Json.obj ms).at? front = some (.obj group) ∧ Members.isToken group = false ∧
      Members.Leads group back node := by
  induction front generalizing ms with
  | nil => exact absurd rfl down
  | cons key front ih =>
      rw [List.cons_append] at leads
      generalize same : front ++ back = rest at leads
      cases leads with
      | here => exact absurd (List.append_eq_nil_iff.1 same).2 more
      | @under _ group _ _ _ notMeta found isGroup onward =>
          subst same
          rw [Json.at?_cons, found, Option.bind_some]
          cases front with
          | nil => exact ⟨group, Json.at?_nil _, isGroup, onward⟩
          | cons => exact ih onward (by simp)

end Members.Leads

/-- What a walk finds at the children of a group, which leaves out the metadata. -/
theorem mem_flatMap_child_iff {α : Type} (find : String × Json → List α) (ms : Members) (x : α) :
    (x ∈ ms.flatMap fun m => if Key.isMeta m.1 then [] else find m) ↔
      ∃ m ∈ ms, Key.isMeta m.1 = false ∧ x ∈ find m := by
  rw [List.mem_flatMap]
  refine exists_congr fun m => and_congr_right fun _ => ?_
  cases Key.isMeta m.1 <;> simp

/-! ## Tokens without a tag -/

/-- A token with a value lacks a type under what is handed to it, and can be given one. -/
structure UntypedToken.Lacks (u : UntypedToken) (handed : Option TokenType) : Prop where
  hasValue : u.token.hasValue = true
  untyped : u.token.has Key.type = false
  unhanded : handed = none
  told : UntypedToken.type? u.token = some u.type

/-- Such a token stands below a group. -/
structure UntypedToken.Stands (u : UntypedToken) (ms : Members) (inherited : Option TokenType)
    (below : KeyChain) : Prop extends u.Lacks ((Json.obj ms).handedDown inherited below) where
  leads : ms.Leads below (.obj u.token)

theorem untypedIn_eq_flatMap (keys : KeyChain) (inherited : Option TokenType) (ms : Members) :
    untypedIn keys inherited ms =
      ms.flatMap fun m => if Key.isMeta m.1 then [] else untypedAt (keys ++ [m.1]) inherited m.2 := by
  induction ms with
  | nil => rfl
  | cons m rest ih => rw [untypedIn, ih, List.flatMap_cons]

theorem mem_untypedIn_iff (keys : KeyChain) (inherited : Option TokenType) (ms : Members)
    (u : UntypedToken) :
    u ∈ untypedIn keys inherited ms ↔
      ∃ m ∈ ms, Key.isMeta m.1 = false ∧ u ∈ untypedAt (keys ++ [m.1]) inherited m.2 := by
  rw [untypedIn_eq_flatMap]
  exact mem_flatMap_child_iff _ ms u

theorem UntypedToken.of?_eq_some {keys : KeyChain} {inherited : Option TokenType} {ms : Members}
    {u : UntypedToken} (made : UntypedToken.of? keys inherited ms = some u) :
    u.keys = keys ∧ u.token = ms ∧ ms.has Key.type = false ∧ inherited = none ∧
      UntypedToken.type? ms = some u.type := by
  unfold UntypedToken.of? at made
  split at made
  · cases made
  · rename_i open_
    obtain ⟨t, told, rfl⟩ := Option.map_eq_some_iff.1 made
    exact ⟨rfl, rfl, by simp_all, by simp_all, told⟩

theorem untypedIn_stands (ms : Members) (keyed : (Json.obj ms).isKeyed = true) (keys : KeyChain)
    (inherited : Option TokenType) {u : UntypedToken}
    (mem : u ∈ untypedIn keys (ms.groupType?.or inherited) ms) :
    ∃ below, u.keys = keys ++ below ∧ u.Stands ms inherited below := by
  induction ms using Members.nested_induction generalizing keys inherited with
  | step ms ih =>
      obtain ⟨⟨key, node⟩, inMs, notMeta, inNode⟩ := (mem_untypedIn_iff keys _ ms u).1 mem
      have found := Members.get?_of_mem ((isKeyed_obj_iff ms).1 keyed).1 inMs
      cases node with
      | obj inner =>
          rw [untypedAt] at inNode
          split at inNode
          · rename_i hasValue
            obtain ⟨keysEq, rfl, untyped, unhanded, told⟩ :=
              UntypedToken.of?_eq_some (Option.mem_toList.1 inNode)
            refine ⟨[key], keysEq, ⟨hasValue, untyped, ?_, told⟩, .here notMeta found⟩
            rwa [Json.handedDown_singleton]
          · rename_i noValue
            obtain ⟨below, keysEq, stands⟩ :=
              ih key inner inMs (Members.isKeyed_of_get? keyed found) _ _ inNode
            obtain ⟨m, inInner, notMetaBelow, -⟩ := (mem_untypedIn_iff _ _ _ _).1 inNode
            have isGroup := Members.isGroup_of_mem (by simpa using noValue) inInner notMetaBelow
            refine ⟨key :: below, ?_, ?_, .under notMeta found isGroup stands.leads⟩
            · rw [keysEq, List.append_assoc]
              rfl
            · rw [Json.handedDown_cons found]
              exact stands.toLacks
      | _ => cases inNode

theorem mem_untypedTokens {document : Members} {u : UntypedToken} (mem : u ∈ untypedTokens document)
    (keyed : (Json.obj document).isKeyed = true) :
    ∃ name group below, document.get? name = some (.obj group) ∧
      isTokenGroup name (.obj group) = true ∧ u.keys = name :: below ∧
        u.Stands group document.groupType? below := by
  obtain ⟨⟨name, value⟩, inDocument, inEntry⟩ := List.mem_flatMap.1 mem
  have found := Members.get?_of_mem ((isKeyed_obj_iff document).1 keyed).1 inDocument
  cases value with
  | obj group =>
      dsimp only [untypedOfEntry] at inEntry
      split at inEntry
      · rename_i isGroup
        obtain ⟨below, keysEq, stands⟩ :=
          untypedIn_stands group (Members.isKeyed_of_get? keyed found) _ _ inEntry
        exact ⟨name, group, below, found, isGroup, keysEq, stands⟩
      · cases inEntry
  | _ => cases inEntry

/-! ## Clusters -/

/-- A cluster stands below a group, at a chain that leads through plain groups to the members around
it. -/
structure Cluster.Stands (c : Cluster) (ms : Members) (above : KeyChain) : Prop where
  around : (Json.obj ms).at? above = some (.obj c.siblings)
  found : c.siblings.get? c.name = some (.obj c.node)
  isCluster : c.node.kind = .nestedTokens
  leads : ms.Leads (above ++ [c.name]) (.obj c.node)
  plain : ∀ front group, front <+: above → front ≠ [] → (Json.obj ms).at? front = some (.obj group) →
    Members.kind group = .group

theorem clustersIn_eq_flatMap (group : String) (above : KeyChain) (siblings ms : Members) :
    clustersIn group above siblings ms =
      ms.flatMap fun m => if Key.isMeta m.1 then [] else clustersAt group above siblings m.1 m.2 := by
  induction ms with
  | nil => rfl
  | cons m rest ih => rw [clustersIn, ih, List.flatMap_cons]

theorem mem_clustersIn_iff (group : String) (above : KeyChain) (siblings ms : Members) (c : Cluster) :
    c ∈ clustersIn group above siblings ms ↔
      ∃ m ∈ ms, Key.isMeta m.1 = false ∧ c ∈ clustersAt group above siblings m.1 m.2 := by
  rw [clustersIn_eq_flatMap]
  exact mem_flatMap_child_iff _ ms c

/-- One step further up: a cluster below a plain group stands below what the group stands in. -/
theorem Cluster.Stands.up {c : Cluster} {inner ms : Members} {above : KeyChain} {key : String}
    (stands : c.Stands inner above) (notMeta : Key.isMeta key = false)
    (found : ms.get? key = some (.obj inner)) (isPlain : inner.kind = .group) :
    c.Stands ms (key :: above) := by
  have isGroup : inner.isToken = false := Members.isToken_of_kind (by rw [isPlain]; decide)
  refine ⟨?_, stands.found, stands.isCluster, .under notMeta found isGroup stands.leads, ?_⟩
  · rw [Json.at?_cons, found]
    exact stands.around
  · intro front group isPrefix more leads
    cases front with
    | nil => exact absurd rfl more
    | cons k front =>
        obtain ⟨rfl, belowPrefix⟩ := List.cons_prefix_cons.1 isPrefix
        rw [Json.at?_cons, found, Option.bind_some] at leads
        cases front with
        | nil =>
            rw [Json.at?_nil] at leads
            cases leads
            exact isPlain
        | cons => exact stands.plain _ _ belowPrefix (by simp) leads

theorem clustersIn_stands (ms : Members) (keyed : (Json.obj ms).isKeyed = true) (group : String)
    (above : KeyChain) {c : Cluster} (mem : c ∈ clustersIn group above ms ms) :
    ∃ below, c.group = group ∧ c.above = above ++ below ∧ c.Stands ms below := by
  induction ms using Members.nested_induction generalizing above with
  | step ms ih =>
      obtain ⟨⟨key, node⟩, inMs, notMeta, inNode⟩ := (mem_clustersIn_iff _ _ _ _ c).1 mem
      have found := Members.get?_of_mem ((isKeyed_obj_iff ms).1 keyed).1 inMs
      cases node with
      | obj inner =>
          rw [clustersAt] at inNode
          split at inNode
          · cases inNode
          · rename_i isCluster
            obtain rfl := List.mem_singleton.1 inNode
            refine ⟨[], rfl, (List.append_nil _).symm, Json.at?_nil _, found, isCluster,
              .here notMeta found, fun front _ isPrefix more => ?_⟩
            exact absurd (List.prefix_nil.1 isPrefix) more
          · rename_i isPlain
            obtain ⟨below, sameGroup, aboveEq, stands⟩ :=
              ih key inner inMs (Members.isKeyed_of_get? keyed found) _ inNode
            refine ⟨key :: below, sameGroup, ?_, stands.up notMeta found isPlain⟩
            rw [aboveEq, List.append_assoc]
            rfl
      | _ => cases inNode

theorem mem_clusters {document : Members} {c : Cluster} (mem : c ∈ clusters document)
    (keyed : (Json.obj document).isKeyed = true) :
    ∃ group, document.get? c.group = some (.obj group) ∧ isTokenGroup c.group (.obj group) = true ∧
      c.Stands group c.above := by
  obtain ⟨⟨name, value⟩, inDocument, inEntry⟩ := List.mem_flatMap.1 mem
  have found := Members.get?_of_mem ((isKeyed_obj_iff document).1 keyed).1 inDocument
  cases value with
  | obj group =>
      dsimp only [clustersOfEntry] at inEntry
      split at inEntry
      · rename_i isGroup
        obtain ⟨below, rfl, aboveEq, stands⟩ :=
          clustersIn_stands group (Members.isKeyed_of_get? keyed found) _ _ inEntry
        rw [List.nil_append] at aboveEq
        rw [← aboveEq] at stands
        exact ⟨group, found, isGroup, stands⟩
      · cases inEntry
  | _ => cases inEntry

end DesignTokens
