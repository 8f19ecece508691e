/-
# DesignTokens.Proofs.Json.Equal -- what equal values have in common

Equality of values looks past the order of members and past the spelling of numbers, so equal values
need not be the same.  But a value equals itself (`same_self`), and equal objects have the same keys
with equal values, hence equal values lead to equal nodes by every chain of keys (`same_at?`) and are
equally deep (`depth_le_of_same`).  A fix can therefore tell its target from what took its place.
-/
import DesignTokens.Json.Equal
import DesignTokens.Proofs.Json.Keyed
import Mathlib.Data.List.Perm.Subperm

namespace DesignTokens

set_option autoImplicit false

namespace Json

theorem sameNumber_self (x : Int ⊕ Binary64) : sameNumber x x = true := by
  rcases x with n | x
  · exact beq_self_eq_true n
  · cases x with
    | nan => rfl
    | finite | infinite => simp [sameNumber, Binary64.same]

theorem sameMembers_iff (xs ys : Members) :
    sameMembers xs ys = true ↔ ∀ m ∈ xs, ∃ other, ys.get? m.1 = some other ∧ same m.2 other = true := by
  induction xs with
  | nil => simp [sameMembers]
  | cons m xs ih =>
      obtain ⟨key, value⟩ := m
      rw [sameMembers, Bool.and_eq_true, ih, List.forall_mem_cons]
      cases ys.get? key <;> simp

theorem same_obj_iff (xs ys : Members) :
    same (.obj xs) (.obj ys) = true ↔
      xs.length = ys.length ∧
        ∀ m ∈ xs, ∃ other, ys.get? m.1 = some other ∧ same m.2 other = true := by
  rw [same, Bool.and_eq_true, beq_iff_eq, sameMembers_iff]

theorem sameItems_self {items : List Json} (self : ∀ item ∈ items, same item item = true) :
    sameItems items items = true := by
  induction items with
  | nil => rfl
  | cons item items ih =>
      rw [List.forall_mem_cons] at self
      rw [sameItems, self.1, ih self.2]
      rfl

mutual

theorem same_self (value : Json) (keyed : value.isKeyed = true) : same value value = true := by
  cases value with
  | null => rfl
  | str s => simp [same]
  | bool | int | float => simpa [same, sameScalar, numeric?] using sameNumber_self _
  | arr items => exact sameItems_self (same_self_items items ((keyedItems_iff items).1 keyed))
  | obj ms =>
      obtain ⟨distinct, membersKeyed⟩ := (isKeyed_obj_iff ms).1 keyed
      rw [same_obj_iff]
      refine ⟨rfl, fun m mem => ⟨m.2, Members.get?_of_mem distinct mem, ?_⟩⟩
      exact same_self_members ms membersKeyed m mem

theorem same_self_items (items : List Json) (keyed : ∀ item ∈ items, item.isKeyed = true) :
    ∀ item ∈ items, same item item = true := by
  cases items with
  | nil => nofun
  | cons item items =>
      rw [List.forall_mem_cons] at keyed ⊢
      exact ⟨same_self item keyed.1, same_self_items items keyed.2⟩

theorem same_self_members (ms : List (String × Json)) (keyed : ∀ m ∈ ms, m.2.isKeyed = true) :
    ∀ m ∈ ms, same m.2 m.2 = true := by
  cases ms with
  | nil => nofun
  | cons m ms =>
      obtain ⟨key, value⟩ := m
      rw [List.forall_mem_cons] at keyed ⊢
      exact ⟨same_self value keyed.1, same_self_members ms keyed.2⟩

end

theorem isObject_of_same {value : Json} {ys : Members} (equal : same value (.obj ys) = true) :
    ∃ xs, value = .obj xs := by
  cases value with
  | obj xs => exact ⟨xs, rfl⟩
  | _ => simp [same, sameScalar, numeric?] at equal

section Objects

variable {xs ys : Members}

theorem keys_perm_of_same (distinct : xs.keys.Nodup) (equal : same (.obj xs) (.obj ys) = true) :
    xs.keys.Perm ys.keys := by
  obtain ⟨sameLength, matched⟩ := (same_obj_iff xs ys).1 equal
  have subset : xs.keys ⊆ ys.keys := by
    intro key mem
    obtain ⟨value, inXs⟩ := Members.exists_of_mem_keys mem
    obtain ⟨other, found, -⟩ := matched _ inXs
    exact Members.mem_keys_of_get? found
  refine (List.subperm_of_subset distinct subset).perm_of_length_le ?_
  simp [Members.keys, sameLength]

/-- Each member on the right has its equal on the left: there are as many keys on both sides, and
those on the left differ. -/
theorem get?_of_same (distinct : xs.keys.Nodup) (equal : same (.obj xs) (.obj ys) = true)
    {key : String} {other : Json} (found : ys.get? key = some other) :
    ∃ value, xs.get? key = some value ∧ same value other = true := by
  have inXs : key ∈ xs.keys :=
    (keys_perm_of_same distinct equal).mem_iff.2 (Members.mem_keys_of_get? found)
  obtain ⟨value, mem⟩ := Members.exists_of_mem_keys inXs
  obtain ⟨other', found', equalValues⟩ := ((same_obj_iff xs ys).1 equal).2 _ mem
  cases found.symm.trans found'
  exact ⟨value, Members.get?_of_mem distinct mem, equalValues⟩

theorem mem_keys_iff_of_same (distinct : xs.keys.Nodup) (equal : same (.obj xs) (.obj ys) = true)
    (key : String) : key ∈ xs.keys ↔ key ∈ ys.keys :=
  (keys_perm_of_same distinct equal).mem_iff

end Objects

/-- A chain that leads somewhere in the right one of two equal values leads to an equal node in the
left one. -/
theorem same_at? {a b node : Json} {chain : KeyChain} (keyed : a.isKeyed = true)
    (equal : same a b = true) (leads : b.at? chain = some node) :
    ∃ node', a.at? chain = some node' ∧ same node' node = true := by
  induction chain generalizing a b with
  | nil =>
      rw [at?_nil] at leads
      cases leads
      exact ⟨a, at?_nil a, equal⟩
  | cons key rest ih =>
      cases b with
      | obj ys =>
          obtain ⟨xs, rfl⟩ := isObject_of_same equal
          rw [at?_cons] at leads
          obtain ⟨other, found, onward⟩ := Option.bind_eq_some_iff.1 leads
          have distinct := ((isKeyed_obj_iff xs).1 keyed).1
          obtain ⟨value, found', equalValues⟩ := get?_of_same distinct equal found
          obtain ⟨node', onward', equalNodes⟩ :=
            ih (Members.isKeyed_of_get? keyed found') equalValues onward
          refine ⟨node', ?_, equalNodes⟩
          rw [at?_cons, found']
          exact onward'
      | _ => cases leads

/-! ## Depth -/

mutual

/-- How many objects stand inside one another, lists aside. -/
def depth : Json → Nat
  | .obj ms => depthBelow ms + 1
  | _ => 0

def depthBelow : List (String × Json) → Nat
  | [] => 0
  | (_, value) :: rest => max value.depth (depthBelow rest)

end

theorem depth_le_of_mem {ms : Members} {m : String × Json} (mem : m ∈ ms) :
    m.2.depth ≤ depthBelow ms := by
  induction ms with
  | nil => cases mem
  | cons m' ms ih =>
      obtain ⟨key, value⟩ := m'
      rw [depthBelow]
      rcases List.mem_cons.1 mem with rfl | inRest
      · exact Nat.le_max_left _ _
      · exact Nat.le_trans (ih inRest) (Nat.le_max_right _ _)

mutual

theorem depth_le_of_same {a b : Json} (keyed : a.isKeyed = true) (equal : same a b = true) :
    b.depth ≤ a.depth := by
  cases b with
  | obj ys =>
      obtain ⟨xs, rfl⟩ := isObject_of_same equal
      obtain ⟨distinct, membersKeyed⟩ := (isKeyed_obj_iff xs).1 keyed
      have distinct' : (Members.keys ys).Nodup := (keys_perm_of_same distinct equal).nodup_iff.1 distinct
      have matched : ∀ m ∈ ys, ∃ value, (m.1, value) ∈ xs ∧ same value m.2 = true := by
        intro m mem
        obtain ⟨value, found, equalValues⟩ :=
          get?_of_same distinct equal (Members.get?_of_mem distinct' mem)
        exact ⟨value, Members.mem_of_get? found, equalValues⟩
      exact Nat.succ_le_succ (depthBelow_le_of_same membersKeyed ys matched)
  | _ => exact Nat.zero_le _

theorem depthBelow_le_of_same {xs : Members} (keyed : ∀ m ∈ xs, m.2.isKeyed = true)
    (ys : List (String × Json))
    (matched : ∀ m ∈ ys, ∃ value, (m.1, value) ∈ xs ∧ same value m.2 = true) :
    depthBelow ys ≤ depthBelow xs := by
  cases ys with
  | nil => exact Nat.zero_le _
  | cons m ys =>
      obtain ⟨key, other⟩ := m
      rw [List.forall_mem_cons] at matched
      obtain ⟨⟨value, mem, equal⟩, later⟩ := matched
      refine Nat.max_le.2 ⟨?_, depthBelow_le_of_same keyed ys later⟩
      exact Nat.le_trans (depth_le_of_same (keyed _ mem) equal) (depth_le_of_mem mem)

end

end Json

end DesignTokens
