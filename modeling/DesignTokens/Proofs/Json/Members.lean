/-
# DesignTokens.Proofs.Json.Members -- looking members up

What a key leads to in members that were put together (`get?_append`), and in members that were made
out of others key by key.  `Paired R` relates two sequences with the same keys in the same order,
whose values are related by `R` at each key; a walk that maps the members of a group is of this kind.
-/
import DesignTokens.Json.Basic
import Mathlib.Data.List.Forall2

namespace DesignTokens

set_option autoImplicit false

namespace Members

theorem keys_append (a b : Members) : keys (a ++ b) = keys a ++ keys b :=
  List.map_append

theorem get?_cons (key : String) (value : Json) (rest : Members) (k : String) :
    get? ((key, value) :: rest) k = if k = key then some value else rest.get? k := by
  by_cases h : k = key
  · subst h; simp [get?]
  · have h' : (k == key) = false := by simpa using h
    simp [get?, List.lookup_cons, h', h]

theorem get?_append (a b : Members) (key : String) :
    get? (a ++ b) key = (a.get? key).or (b.get? key) :=
  List.lookup_append

theorem get?_eq_none_iff (ms : Members) (key : String) : ms.get? key = none ↔ key ∉ ms.keys := by
  rw [← has_iff_mem_keys, has, Bool.not_eq_true, Option.isSome_eq_false_iff, Option.isNone_iff_eq_none]

/-- Members that are picked by their keys are found where they were. -/
theorem get?_filter (p : String → Bool) (ms : Members) {key : String} (picked : p key = true) :
    get? (ms.filter fun m => p m.1) key = ms.get? key := by
  induction ms with
  | nil => rfl
  | cons m rest ih =>
      obtain ⟨k, v⟩ := m
      rw [get?_cons, List.filter_cons]
      split
      · rw [get?_cons, ih]
      · rename_i dropped
        rw [ih, if_neg]
        rintro rfl
        exact dropped picked

theorem mem_of_get? {ms : Members} {key : String} {value : Json} (found : ms.get? key = some value) :
    (key, value) ∈ ms := by
  obtain ⟨front, back, rfl, -⟩ := List.lookup_eq_some_iff.1 found
  simp

theorem has_congr {a b : Members} (same : a.keys = b.keys) (key : String) : a.has key = b.has key := by
  rw [Bool.eq_iff_iff, has_iff_mem_keys, has_iff_mem_keys, same]

theorem isEmpty_congr {a b : Members} (same : a.keys = b.keys) : a.isEmpty = b.isEmpty := by
  have sameMap : (a.map Prod.fst).isEmpty = (b.map Prod.fst).isEmpty := congrArg List.isEmpty same
  rwa [List.isEmpty_map, List.isEmpty_map] at sameMap

theorem put_of_has_eq_false {ms : Members} {key : String} (absent : ms.has key = false)
    (value : Json) : ms.put key value = ms ++ [(key, value)] := by
  apply put_of_not_mem
  rw [← has_iff_mem_keys, absent]
  decide

theorem putNew_eq (ms : Members) (key : String) (value : Json) :
    ms.putNew key value = if ms.has key then ms else ms ++ [(key, value)] := by
  unfold putNew
  split
  · rfl
  · rename_i absent
    exact put_of_has_eq_false (by simpa using absent) value

end Members

/-- Induction over the objects that stand as members in one another. -/
theorem Members.nested_induction {P : Members → Prop}
    (step : ∀ ms : Members, (∀ key inner, (key, Json.obj inner) ∈ ms → P inner) → P ms)
    (ms : Members) : P ms := by
  refine step ms fun key inner mem => ?_
  have smaller : sizeOf inner < sizeOf ms := by
    have below := List.sizeOf_lt_of_mem mem
    simp at below
    omega
  exact Members.nested_induction step inner
termination_by sizeOf ms

/-- Each item on the right of a pairing has its partner on the left. -/
theorem exists_left_of_forall₂ {α β : Type} {R : α → β → Prop} {a : List α} {b : List β}
    (paired : List.Forall₂ R a b) {y : β} (mem : y ∈ b) : ∃ x ∈ a, R x y := by
  induction paired with
  | nil => cases mem
  | @cons x y' _ _ related _ ih =>
      rcases List.mem_cons.1 mem with rfl | inRest
      · exact ⟨x, List.mem_cons_self, related⟩
      · obtain ⟨x', inRest', related'⟩ := ih inRest
        exact ⟨x', List.mem_cons_of_mem _ inRest', related'⟩

namespace Members

/-! ## Members made key by key -/

/-- The same keys in the same order, with values related at each key. -/
def Paired (R : String → Json → Json → Prop) (a b : Members) : Prop :=
  List.Forall₂ (fun m m' => m'.1 = m.1 ∧ R m.1 m.2 m'.2) a b

variable {R : String → Json → Json → Prop} {a b : Members}

theorem Paired.keys_eq (paired : Paired R a b) : b.keys = a.keys := by
  induction paired with
  | nil => rfl
  | cons first _ ih => rw [keys_cons, keys_cons, first.1, ih]

/-- What a key leads to on the left is related to what it leads to on the right. -/
theorem Paired.get? (paired : Paired R a b) {key : String} {value : Json}
    (found : a.get? key = some value) : ∃ value', b.get? key = some value' ∧ R key value value' := by
  induction paired with
  | nil => simp [Members.get?] at found
  | @cons m m' rest rest' first _ ih =>
      obtain ⟨k, v⟩ := m
      obtain ⟨k', v'⟩ := m'
      obtain ⟨same, related⟩ := first
      dsimp only at same related
      subst same
      rw [get?_cons] at found ⊢
      by_cases here : key = k'
      · subst here
        rw [if_pos rfl] at found ⊢
        cases found
        exact ⟨v', rfl, related⟩
      · rw [if_neg here] at found ⊢
        exact ih found

/-- Where the pairing keeps the value of a key, looking the key up gives the same on both sides. -/
theorem Paired.get?_eq (paired : Paired R a b) {key : String}
    (kept : ∀ value value', R key value value' → value' = value) : b.get? key = a.get? key := by
  cases found : a.get? key with
  | none =>
      rw [get?_eq_none_iff] at found ⊢
      rwa [paired.keys_eq]
  | some value =>
      obtain ⟨value', found', related⟩ := paired.get? found
      rw [found', kept value value' related]

theorem Paired.exists_left (paired : Paired R a b) {m' : String × Json} (mem : m' ∈ b) :
    ∃ value, (m'.1, value) ∈ a ∧ R m'.1 value m'.2 := by
  obtain ⟨⟨key, value⟩, inA, same, related⟩ := exists_left_of_forall₂ paired mem
  dsimp only at same related
  subst same
  exact ⟨value, inA, related⟩

/-- Where the pairing keeps the values of some keys, their members are the same on both sides. -/
theorem Paired.filter_eq (paired : Paired R a b) (p : String → Bool)
    (kept : ∀ key value value', p key = true → R key value value' → value' = value) :
    (b.filter fun m => p m.1) = a.filter fun m => p m.1 := by
  induction paired with
  | nil => rfl
  | @cons m m' _ _ first _ ih =>
      obtain ⟨key, value⟩ := m
      obtain ⟨key', value'⟩ := m'
      obtain ⟨same, related⟩ := first
      dsimp only at same related
      subst same
      rw [List.filter_cons, List.filter_cons, ih]
      split
      · rename_i picked
        rw [kept _ _ _ picked related]
      · rfl

/-- What is related to itself wherever it is on the right of a pairing is paired with itself. -/
theorem Paired.right_self {S : String → Json → Json → Prop} (paired : Paired R a b)
    (self : ∀ key value value', (key, value) ∈ a → R key value value' → S key value' value') :
    Paired S b b := by
  refine List.forall₂_same.2 fun m' mem => ⟨rfl, ?_⟩
  obtain ⟨value, inA, related⟩ := paired.exists_left mem
  exact self _ _ _ inA related

end Members

end DesignTokens
