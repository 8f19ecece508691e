/-
# DesignTokens.Proofs.Cluster.Flat -- a flat token is not the cluster it came from

A default child takes the name of its cluster, so after flattening something may stand where the
cluster stood.  It is never equal to the cluster (`same_flat_eq_false`).  A token that was changed
when it was placed is a token by its keys, which the cluster is not; and one that was not changed
lies less deep than the cluster, of which it is a part, while equal values are equally deep.
-/
import DesignTokens.Proofs.Cluster.Leaves
import DesignTokens.Proofs.Json.Equal
import DesignTokens.Proofs.Node

namespace DesignTokens

set_option autoImplicit false

theorem mem_leavesBelow_iff (ms : Members) (leaf : Json) :
    leaf ∈ leavesBelow ms ↔ ∃ m ∈ ms, Key.isMeta m.1 = false ∧ leaf ∈ m.2.leaves := by
  induction ms with
  | nil => simp [leavesBelow]
  | cons m ms ih =>
      obtain ⟨key, child⟩ := m
      rw [leavesBelow, List.mem_append, ih, List.exists_mem_cons_iff]
      refine or_congr_left ?_
      cases Key.isMeta key <;> simp

/-- A leaf of a cluster: it has each key once if the cluster does, it lies deeper, and if it is an
object it is one that is not taken apart. -/
structure LeafBelow (ms : Members) (leaf : Json) : Prop where
  keyed : leaf.isKeyed = true
  deeper : leaf.depth < (Json.obj ms).depth
  whole : ∀ inner, leaf = .obj inner → Members.isLeaf inner = true

theorem leafBelow_of_mem (ms : Members) (keyed : (Json.obj ms).isKeyed = true) {leaf : Json}
    (mem : leaf ∈ leavesBelow ms) : LeafBelow ms leaf := by
  induction ms using Members.nested_induction with
  | step ms ih =>
      obtain ⟨⟨key, child⟩, inMs, -, inChild⟩ := (mem_leavesBelow_iff ms leaf).1 mem
      have childKeyed : child.isKeyed = true := ((isKeyed_obj_iff ms).1 keyed).2 _ inMs
      have deeper : child.depth < (Json.obj ms).depth := Nat.lt_succ_of_le (Json.depth_le_of_mem inMs)
      cases child with
      | obj inner =>
          rw [Json.leaves] at inChild
          split at inChild
          · rename_i isLeaf
            obtain rfl := List.mem_singleton.1 inChild
            exact ⟨childKeyed, deeper, fun _ same => Json.obj.inj same ▸ isLeaf⟩
          · have below := ih key inner inMs childKeyed inChild
            exact ⟨below.keyed, Nat.lt_trans below.deeper deeper, below.whole⟩
      | _ =>
          obtain rfl := List.mem_singleton.1 inChild
          exact ⟨childKeyed, deeper, nofun⟩

theorem isKeyed_of_placed {leaf token : Json} (placed : Placed leaf token)
    (keyed : leaf.isKeyed = true) : token.isKeyed = true := by
  cases placed with
  | kept => exact keyed
  | typed ms t untyped =>
      rw [← Members.put_of_has_eq_false untyped]
      exact Members.isKeyed_put keyed _ rfl
  | wrapped => simpa [isKeyed_obj_iff] using keyed
  | wrappedTyped _ t =>
      have tagKeyed : (Json.str t.name).isKeyed = true := rfl
      simp [isKeyed_obj_iff, Key.value, Key.type, keyed, tagKeyed]

theorem flatten_holds (name : String) (node : Members) :
    Flattening.Holds name (leavesIn name node.groupType? node) (flatten name node) :=
  Flattening.holds_ofLeaves (leavesIn_stem (.inl rfl) node.groupType? node)

theorem placed_flatten (name : String) (node : Members) :
    List.Forall₂ Placed (leavesBelow node) ((flatten name node).entries.map Prod.snd) := by
  rw [(flatten_holds name node).tokens]
  exact leavesIn_placed name node.groupType? node

/-- What stands in a flat replacement was placed from a leaf of the cluster. -/
theorem exists_leaf_of_mem_flatten {name : String} {node : Members} {m : String × Json}
    (mem : m ∈ (flatten name node).entries) : ∃ leaf ∈ leavesBelow node, Placed leaf m.2 :=
  exists_left_of_forall₂ (placed_flatten name node) (List.mem_map_of_mem mem)

/-- A placed token that was changed is a token by its keys. -/
theorem isToken_of_placed {leaf : Json} {token : Members} (placed : Placed leaf (.obj token))
    (whole : ∀ inner, leaf = .obj inner → Members.isLeaf inner = true) :
    leaf = .obj token ∨ token.isToken = true := by
  cases placed with
  | kept => exact .inl rfl
  | typed ms t untyped =>
      have isToken : ms.isToken = true := by
        have isLeaf := whole ms rfl
        rwa [Members.isLeaf, untyped, Bool.or_false] at isLeaf
      refine .inr ?_
      rw [Members.isToken_append_type, isToken]
  | wrapped | wrappedTyped => exact .inr rfl

/-- **A flat token is never the cluster it came from.** -/
theorem same_flat_eq_false {name : String} {node : Members} (keyed : (Json.obj node).isKeyed = true)
    (isCluster : node.kind = .nestedTokens) {m : String × Json}
    (mem : m ∈ (flatten name node).entries) : m.2.same (.obj node) = false := by
  obtain ⟨leaf, inNode, placed⟩ := exists_leaf_of_mem_flatten mem
  have below := leafBelow_of_mem node keyed inNode
  rw [Bool.eq_false_iff]
  intro equal
  have tokenKeyed := isKeyed_of_placed placed below.keyed
  obtain ⟨token, isToken⟩ := Json.isObject_of_same equal
  rw [isToken] at equal placed tokenKeyed
  have notToken : Members.isToken token = false := by
    rw [Members.isToken_congr (Json.mem_keys_iff_of_same ((isKeyed_obj_iff _).1 tokenKeyed).1 equal)]
    exact Members.isToken_of_kind (by rw [isCluster]; decide)
  rcases isToken_of_placed placed below.whole with same | isToken
  · have deep := Json.depth_le_of_same tokenKeyed equal
    have shallow := below.deeper
    rw [same] at shallow
    exact absurd shallow (Nat.not_lt.2 deep)
  · rw [notToken] at isToken
    cases isToken

end DesignTokens
