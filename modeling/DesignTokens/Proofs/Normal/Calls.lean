/-
# DesignTokens.Proofs.Normal.Calls -- the conversion comes to an end

The conversion of a tree goes on with other trees: the items of a list, what a wrapper gives way to, the
children of a group, and for a bare child the token that it stands for (`Normal.calls`).  The second and the
last of these are made on the way.  They are no parts of the tree, and the token is larger than the child.

Still all that the conversion goes on with weighs less together than the tree itself
(`Normal.sum_weight_calls_lt`): metadata counts but is not entered, so what a wrapper joins on to its child
weighs there what it weighed before, and the token of a bare child weighs what the child does
(`weight_asNode`).  Hence every chain of calls ends, and there are at most as many calls as the tree is heavy
(`Normal.exists_makes`).

A single call, with the calls it makes left open, is `Normal.round`.  No function but the conversion agrees
with its own rounds (`Normal.eq_normalize_of_round`).
-/
import DesignTokens.Proofs.Normal.Basic
import Mathlib.Algebra.Order.BigOperators.Group.List
import Mathlib.Algebra.Order.Ring.Nat

namespace DesignTokens

set_option autoImplicit false

namespace Normal

/-! ## One call -/

/-- The trees that the conversion of a tree goes on with, in turn, each with the type that is handed to it.
If one of them comes to a fault, those behind it are not reached. -/
def calls (parentType : Option String) : Json → List (Option String × Json)
  | .arr items => items.map fun item => (parentType, item)
  | .obj ms =>
      match Members.unwrap? ms with
      | some inner => [(parentType, .obj inner)]
      | none =>
          if Members.hasValue ms then []
          else (Members.children ms).map fun m => (groupTypeName ms parentType, m.2.asNode)
  | _ => []

/-- A member of a group, with `again` for the conversion of a tree. -/
def roundMember (again : Option String → Json → Except Fault Json) (parentType : Option String)
    (m : String × Json) : Except Fault (String × Json) :=
  if Key.isMeta m.1 then .ok m else do return (m.1, ← again parentType m.2.asNode)

/-- One call of the conversion, with `again` for the calls that it makes. -/
def round (again : Option String → Json → Except Fault Json) (parentType : Option String) :
    Json → Except Fault Json
  | .arr items => do return .arr (← items.mapM (again parentType))
  | .obj ms =>
      match Members.unwrap? ms with
      | some inner => again parentType (.obj inner)
      | none =>
          if Members.hasValue ms then do return .obj (← token ms parentType)
          else do return .obj (← List.mapM (roundMember again (groupTypeName ms parentType)) ms)
  | value => .ok value

section Shape

variable {ms : Members} (parentType : Option String)

theorem calls_wrapper {inner : Members} (wrapper : ms.unwrap? = some inner) :
    calls parentType (.obj ms) = [(parentType, .obj inner)] := by
  rw [calls, wrapper]

theorem calls_token (noWrapper : ms.unwrap? = none) (isToken : ms.hasValue = true) :
    calls parentType (.obj ms) = [] := by
  rw [calls, noWrapper]
  exact if_pos isToken

theorem calls_group (noWrapper : ms.unwrap? = none) (isGroup : ms.hasValue = false) :
    calls parentType (.obj ms) =
      ms.children.map fun m => (groupTypeName ms parentType, m.2.asNode) := by
  rw [calls, noWrapper]
  exact if_neg (by simp [isGroup])

variable (again : Option String → Json → Except Fault Json)

theorem round_wrapper {inner : Members} (wrapper : ms.unwrap? = some inner) :
    round again parentType (.obj ms) = again parentType (.obj inner) := by
  rw [round, wrapper]

theorem round_token (noWrapper : ms.unwrap? = none) (isToken : ms.hasValue = true) :
    round again parentType (.obj ms) = (token ms parentType).map Json.obj := by
  rw [round, noWrapper]
  exact if_pos isToken

theorem round_group (noWrapper : ms.unwrap? = none) (isGroup : ms.hasValue = false) :
    round again parentType (.obj ms) =
      (List.mapM (roundMember again (groupTypeName ms parentType)) ms).map Json.obj := by
  rw [round, noWrapper]
  exact if_neg (by simp [isGroup])

end Shape

/-! ## What a call depends on -/

theorem mapM_congr {α β : Type} {f g : α → Except Fault β} {xs : List α} (agree : ∀ x ∈ xs, f x = g x) :
    xs.mapM f = xs.mapM g := by
  induction xs with
  | nil => rfl
  | cons x xs ih =>
      obtain ⟨first, rest⟩ := List.forall_mem_cons.1 agree
      rw [List.mapM_cons, List.mapM_cons, first, ih rest]

/-- A call depends on no more than what the calls it makes come to. -/
theorem round_congr {again again' : Option String → Json → Except Fault Json} {parentType : Option String}
    {node : Json} (agree : ∀ call ∈ calls parentType node, again call.1 call.2 = again' call.1 call.2) :
    round again parentType node = round again' parentType node := by
  cases node with
  | arr items =>
      have items_ : ∀ item ∈ items, again parentType item = again' parentType item := fun item mem =>
        agree (parentType, item) (List.mem_map.2 ⟨item, mem, rfl⟩)
      rw [round, round, mapM_congr items_]
  | obj ms =>
      cases wrapper : Members.unwrap? ms with
      | some inner =>
          rw [round_wrapper _ _ wrapper, round_wrapper _ _ wrapper]
          rw [calls_wrapper _ wrapper] at agree
          exact agree _ (List.mem_singleton_self _)
      | none =>
          cases hasValue : Members.hasValue ms with
          | true => rw [round_token _ _ wrapper hasValue, round_token _ _ wrapper hasValue]
          | false =>
              rw [round_group _ _ wrapper hasValue, round_group _ _ wrapper hasValue]
              rw [calls_group _ wrapper hasValue] at agree
              refine congrArg (Except.map Json.obj) (mapM_congr fun m mem => ?_)
              unfold roundMember
              split
              · rfl
              · rename_i notMeta
                have isChild : m ∈ Members.children ms := List.mem_filter.2 ⟨mem, by simpa using notMeta⟩
                rw [agree (_, m.2.asNode) (List.mem_map.2 ⟨m, isChild, rfl⟩)]
  | _ => rfl

/-! ## The conversion is made of such calls -/

theorem normalizeItems_eq_mapM (parentType : Option String) (items : List Json) :
    normalizeItems parentType items = items.mapM (Json.normalize parentType) := by
  induction items with
  | nil => rw [normalizeItems]; rfl
  | cons item items ih => rw [normalizeItems, List.mapM_cons, ih]

theorem normalizeMembers_eq_mapM (parentType : Option String) (ms : Members) :
    normalizeMembers parentType ms = List.mapM (roundMember Json.normalize parentType) ms := by
  induction ms with
  | nil => rw [normalizeMembers]; rfl
  | cons m ms ih =>
      obtain ⟨key, child⟩ := m
      rw [normalizeMembers_cons, List.mapM_cons, ih, roundMember, normalizeMember]
      split
      · rfl
      · cases child.asNode.normalize parentType <;> rfl

theorem normalize_eq_round (parentType : Option String) (node : Json) :
    node.normalize parentType = round Json.normalize parentType node := by
  cases node with
  | arr items => rw [Json.normalize, round, normalizeItems_eq_mapM]
  | obj ms =>
      cases wrapper : Members.unwrap? ms with
      | some inner => rw [normalize_wrapper wrapper, round_wrapper _ _ wrapper]
      | none =>
          cases hasValue : Members.hasValue ms with
          | true => rw [normalize_token wrapper hasValue, round_token _ _ wrapper hasValue]
          | false =>
              rw [normalize_group wrapper hasValue, round_group _ _ wrapper hasValue,
                normalizeMembers_eq_mapM]
  | _ => exact normalize_scalar (by simp) (by simp) parentType

/-! ## What calls weigh -/

/-- A bare value weighs what the token does that it stands for. -/
theorem weight_asNode (child : Json) : child.asNode.weight = child.weight := by
  unfold Json.asNode
  split
  · rename_i bare
    cases child with
    | null | arr | obj => cases bare
    | _ => simp [Json.weight, weightMembers, Key.value, Key.isMeta]
  · rfl

theorem sum_weight_le_weightItems (items : List Json) : (items.map Json.weight).sum ≤ weightItems items := by
  induction items with
  | nil => exact Nat.le_refl 0
  | cons item items ih =>
      rw [List.map_cons, List.sum_cons, weightItems]
      omega

theorem sum_weight_le_weightMembers (ms : Members) :
    (ms.children.map fun m => m.2.weight).sum ≤ weightMembers ms := by
  induction ms with
  | nil => exact Nat.le_refl 0
  | cons m ms ih =>
      obtain ⟨key, child⟩ := m
      unfold Members.children at ih ⊢
      cases isMeta : Key.isMeta key with
      | true =>
          rw [List.filter_cons_of_neg (by simp [isMeta]), weightMembers]
          omega
      | false =>
          rw [List.filter_cons_of_pos (by simp [isMeta]), List.map_cons, List.sum_cons, weightMembers, isMeta,
            if_neg (by decide)]
          dsimp only
          omega

/-- **What a call goes on with weighs less together than what it is made on.** -/
theorem sum_weight_calls_lt (parentType : Option String) (node : Json) :
    ((calls parentType node).map fun call => call.2.weight).sum < node.weight := by
  cases node with
  | arr items =>
      have sum := sum_weight_le_weightItems items
      rw [calls, List.map_map, Json.weight]
      show (items.map Json.weight).sum < 1 + weightItems items
      omega
  | obj ms =>
      cases wrapper : Members.unwrap? ms with
      | some inner =>
          rw [calls_wrapper _ wrapper]
          simpa using weight_unwrap? wrapper
      | none =>
          cases hasValue : Members.hasValue ms with
          | true =>
              rw [calls_token _ wrapper hasValue, Json.weight]
              exact Nat.lt_add_right _ Nat.one_pos
          | false =>
              have sum := sum_weight_le_weightMembers ms
              rw [calls_group _ wrapper hasValue, List.map_map, Json.weight]
              simp only [Function.comp_def, weight_asNode]
              omega
  | _ => exact Nat.two_pos

theorem weight_lt_of_mem_calls {parentType : Option String} {node : Json} {call : Option String × Json}
    (mem : call ∈ calls parentType node) : call.2.weight < node.weight :=
  Nat.lt_of_le_of_lt (List.le_sum_of_mem (List.mem_map.2 ⟨call, mem, rfl⟩)) (sum_weight_calls_lt parentType node)

/-! ## All calls -/

/-- The conversion of a tree makes so many calls, its own and those that follow from it. -/
inductive Makes : Option String → Json → Nat → Prop where
  | call {parentType : Option String} {node : Json} {counts : List Nat}
      (each : List.Forall₂ (fun call n => Makes call.1 call.2 n) (calls parentType node) counts) :
      Makes parentType node (1 + counts.sum)

/-- Counts that are bounded one by one are bounded in sum. -/
theorem exists_counts {α : Type} {R : α → Nat → Prop} {bound : α → Nat} {xs : List α}
    (each : ∀ x ∈ xs, ∃ n ≤ bound x, R x n) :
    ∃ counts, List.Forall₂ R xs counts ∧ counts.sum ≤ (xs.map bound).sum := by
  induction xs with
  | nil => exact ⟨[], .nil, Nat.le_refl 0⟩
  | cons x xs ih =>
      obtain ⟨⟨n, low, holds⟩, rest⟩ := List.forall_mem_cons.1 each
      obtain ⟨counts, all, sum⟩ := ih rest
      refine ⟨n :: counts, .cons holds all, ?_⟩
      rw [List.sum_cons, List.map_cons, List.sum_cons]
      omega

/-- There are at most as many calls as the tree is heavy. -/
theorem exists_makes (parentType : Option String) (node : Json) :
    ∃ n ≤ node.weight, Makes parentType node n := by
  have each : ∀ call ∈ calls parentType node, ∃ n ≤ call.2.weight, Makes call.1 call.2 n :=
    fun call mem => exists_makes call.1 call.2
  obtain ⟨counts, all, sum⟩ := exists_counts each
  have light := sum_weight_calls_lt parentType node
  exact ⟨1 + counts.sum, by omega, .call all⟩
termination_by node.weight
decreasing_by exact weight_lt_of_mem_calls mem

/-- A function that agrees with its own rounds is the conversion. -/
theorem eq_normalize_of_round {f : Option String → Json → Except Fault Json}
    (rounds : ∀ parentType node, f parentType node = round f parentType node) (parentType : Option String)
    (node : Json) : f parentType node = node.normalize parentType := by
  rw [rounds, normalize_eq_round]
  exact round_congr fun call mem => eq_normalize_of_round rounds call.1 call.2
termination_by node.weight
decreasing_by exact weight_lt_of_mem_calls mem

end Normal

/-- **The recursion of the conversion is well-founded.**  Every call is made on something lighter, a call
depends on no others, a tree takes at most as many calls as it is heavy, and no function but the conversion
agrees with its own rounds. -/
theorem normalize_calls_end :
    (∀ parentType node, ∀ call ∈ Normal.calls parentType node, call.2.weight < node.weight) ∧
      (∀ again again' parentType node,
        (∀ call ∈ Normal.calls parentType node, again call.1 call.2 = again' call.1 call.2) →
          Normal.round again parentType node = Normal.round again' parentType node) ∧
      (∀ parentType node, ∃ n ≤ node.weight, Normal.Makes parentType node n) ∧
      ∀ f : Option String → Json → Except Fault Json,
        (∀ parentType node, f parentType node = Normal.round f parentType node) ↔
          ∀ parentType node, f parentType node = node.normalize parentType := by
  refine ⟨fun _ _ _ => Normal.weight_lt_of_mem_calls, fun _ _ _ _ => Normal.round_congr,
    Normal.exists_makes, fun f => ⟨Normal.eq_normalize_of_round, fun same => ?_⟩⟩
  obtain rfl : f = Json.normalize := funext fun parentType => funext (same parentType)
  exact Normal.normalize_eq_round

namespace Example

/-- A wrapper in a wrapper around a bare value, with metadata at each level. -/
def twiceWrapped : Members :=
  [("$type", .str "dimension"), ("DEFAULT", .obj [("$description", .str "gap"), ("base", .str "4px")])]

def onceWrapped : Members :=
  [("$description", .str "gap"), ("base", .str "4px"), ("$type", .str "dimension")]

/-- What the outer wrapper gives way to is no part of it, and lighter. -/
theorem onceWrapped_lighter :
    (none, Json.obj onceWrapped) ∈ Normal.calls none (.obj twiceWrapped) ∧
      (Json.obj onceWrapped).weight < (Json.obj twiceWrapped).weight := by
  have called : (none, Json.obj onceWrapped) ∈ Normal.calls none (.obj twiceWrapped) :=
    List.mem_singleton_self _
  exact ⟨called, normalize_calls_end.1 none (.obj twiceWrapped) _ called⟩

/-- There is one call for each wrapper and one for the token. -/
example : Normal.Makes none (.obj twiceWrapped) 3 := by
  have token : Normal.Makes none (.obj [("$value", .str "4px"), ("$description", .str "gap"),
      ("$type", .str "dimension")]) (1 + [].sum) := .call .nil
  have inner : Normal.Makes none (.obj onceWrapped) (1 + [1 + [].sum].sum) := .call (.cons token .nil)
  have outer : Normal.Makes none (.obj twiceWrapped) (1 + [1 + [1 + [].sum].sum].sum) :=
    .call (.cons inner .nil)
  exact outer

end Example

end DesignTokens
