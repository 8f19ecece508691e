/-
# DesignTokens.Proofs.Fix.Work -- what is left to be done

Work is counted in groups first and in tokens without a type second (`Work`).  Giving a token its type
takes it off the second count and leaves the first alone.  A flattening may add any number of tokens
without a type, since it makes tokens of bare values, but it takes a group off the first count: the
cluster goes, and its leaves hold no group that it did not hold (`groups_flatten_le`).

So each offered fix puts less work in the place of its node than the node held
(`Fix.Offered.exists_lesser`), and where nodes are replaced by less work, the whole holds less
(`Substitution.LessensBelow.none_or_work_lt`).  It does not matter what else changes: a group whose
new members make a token of it holds less work for that.
-/
import DesignTokens.Proofs.Fix.Batch
import Mathlib.Algebra.Order.BigOperators.Group.List
import Mathlib.Algebra.Order.Monoid.Prod
import Mathlib.Algebra.Order.Ring.Nat
import Mathlib.Data.Prod.Lex

namespace DesignTokens

set_option autoImplicit false

/-- Groups, and tokens without a type; one group outweighs any number of tokens. -/
abbrev Work := ℕ ×ₗ ℕ

namespace Work

def groups (w : Work) : ℕ :=
  (ofLex w).1

@[simp] theorem groups_add (v w : Work) : groups (v + w) = groups v + groups w := rfl

theorem lt_of_groups_lt {v w : Work} (less : groups v < groups w) : v < w :=
  Prod.Lex.lt_iff.2 (.inl less)

/-- A group by itself. -/
def group : Work :=
  toLex (1, 0)

/-- A token by itself. -/
def token (typed : Bool) : Work :=
  toLex (0, if typed then 0 else 1)

@[simp] theorem groups_group : groups group = 1 := rfl

@[simp] theorem groups_token (typed : Bool) : groups (token typed) = 0 := rfl

end Work

mutual

/-- The work at a member of a group. -/
def Json.work : Json → Work
  | .obj ms => if Members.hasValue ms then .token (Members.has ms Key.type) else .group + workIn ms
  | _ => 0

/-- The work among the members of a group.  Metadata holds none. -/
def workIn : List (String × Json) → Work
  | [] => 0
  | (key, node) :: rest => (if Key.isMeta key then 0 else node.work) + workIn rest

end

/-- The work below an entry of a document, which is walked as a group whether it carries a value or
not. -/
def Json.workBelow : Json → Work
  | .obj ms => workIn ms
  | _ => 0

def Members.work (document : Members) : Work :=
  (document.map fun entry => entry.2.workBelow).sum

theorem Json.work_of_group {ms : Members} (noValue : ms.hasValue = false) :
    (Json.obj ms).work = .group + workIn ms := by
  rw [Json.work, noValue]
  rfl

theorem Json.work_of_token {ms : Members} (hasValue : ms.hasValue = true) :
    (Json.obj ms).work = .token (ms.has Key.type) := by
  rw [Json.work, hasValue]
  rfl

/-- A token holds less than any group. -/
theorem Json.work_obj_le (ms : Members) : (Json.obj ms).work ≤ .group + workIn ms := by
  cases hasValue : ms.hasValue with
  | false => exact (Json.work_of_group hasValue).le
  | true =>
      rw [Json.work_of_token hasValue]
      refine (Work.lt_of_groups_lt ?_).le
      rw [Work.groups_token, Work.groups_add, Work.groups_group]
      omega

/-- What a member counts for. -/
def memberWork (m : String × Json) : Work :=
  if Key.isMeta m.1 then 0 else m.2.work

theorem memberWork_of_notMeta {key : String} (notMeta : Key.isMeta key = false) (node : Json) :
    memberWork (key, node) = node.work := by
  simp [memberWork, notMeta]

theorem workIn_cons (m : String × Json) (rest : Members) :
    workIn (m :: rest) = memberWork m + workIn rest := rfl

theorem workIn_singleton (m : String × Json) : workIn [m] = memberWork m :=
  add_zero _

theorem workIn_append (a b : Members) : workIn (a ++ b) = workIn a + workIn b := by
  induction a with
  | nil => exact (zero_add _).symm
  | cons m rest ih => rw [List.cons_append, workIn_cons, workIn_cons, ih, add_assoc]

theorem workIn_eq_sum (ms : Members) : workIn ms = (ms.map memberWork).sum := by
  induction ms with
  | nil => rfl
  | cons m rest ih => rw [workIn_cons, ih, List.map_cons, List.sum_cons]

theorem workIn_flatMap (ms : Members) (f : String × Json → Members) :
    workIn (ms.flatMap f) = (ms.map fun m => workIn (f m)).sum := by
  induction ms with
  | nil => rfl
  | cons m rest ih => rw [List.flatMap_cons, workIn_append, ih, List.map_cons, List.sum_cons]

/-! ## What a fix puts in the place of its node -/

section Groups

open Work

theorem groups_workIn_le (ms : Members) :
    groups (workIn ms) ≤ ((ms.map Prod.snd).map fun node => groups node.work).sum := by
  induction ms with
  | nil => exact Nat.le_refl 0
  | cons m rest ih =>
      rw [workIn_cons, groups_add, List.map_cons, List.map_cons, List.sum_cons]
      refine Nat.add_le_add ?_ ih
      unfold memberWork
      split
      · exact Nat.zero_le _
      · exact Nat.le_refl _

/-- A token that was placed holds no more groups than the leaf it was made of. -/
theorem groups_le_of_placed {leaf token : Json} (placed : Placed leaf token) :
    groups token.work ≤ groups leaf.work := by
  cases placed with
  | kept => exact Nat.le_refl _
  | typed ms t untyped =>
      have same := ms.hasValue_append_type (.str t.name)
      have tag : workIn [(Key.type, Json.str t.name)] = 0 := rfl
      cases hasValue : ms.hasValue with
      | false =>
          rw [Json.work_of_group hasValue, Json.work_of_group (same.trans hasValue), workIn_append, tag,
            add_zero]
      | true =>
          rw [Json.work_of_token (same.trans hasValue)]
          exact Nat.zero_le _
  | wrapped | wrappedTyped => exact Nat.zero_le _

mutual

theorem groups_leaves_le (node : Json) :
    (node.leaves.map fun leaf => groups leaf.work).sum ≤ groups node.work := by
  cases node with
  | obj ms =>
      rw [Json.leaves]
      by_cases isLeaf : Members.isLeaf ms = true
      · rw [if_pos isLeaf]
        simp
      · have noValue : Members.hasValue ms = false := by
          rw [Members.isLeaf] at isLeaf
          simp_all
        rw [if_neg isLeaf, Json.work_of_group noValue, groups_add]
        exact Nat.le_add_left_of_le (groups_leavesBelow_le ms)
  | _ => exact Nat.le_refl 0

theorem groups_leavesBelow_le (ms : List (String × Json)) :
    ((leavesBelow ms).map fun leaf => groups leaf.work).sum ≤ groups (workIn ms) := by
  cases ms with
  | nil => exact Nat.le_refl 0
  | cons m rest =>
      obtain ⟨key, node⟩ := m
      rw [leavesBelow, List.map_append, List.sum_append, workIn, groups_add]
      refine Nat.add_le_add ?_ (groups_leavesBelow_le rest)
      by_cases isMeta : Key.isMeta key = true
      · rw [if_pos isMeta]
        exact Nat.zero_le _
      · rw [if_neg isMeta, if_neg isMeta]
        exact groups_leaves_le node

end

/-- The flat replacement of a cluster holds no groups that were not inside it. -/
theorem groups_flatten_le (name : String) (node : Members) :
    groups (workIn (flatten name node).entries) ≤ groups (workIn node) := by
  have leafByLeaf : List.Forall₂ (· ≤ ·)
      (((flatten name node).entries.map Prod.snd).map fun token => groups token.work)
      ((leavesBelow node).map fun leaf => groups leaf.work) := by
    rw [List.forall₂_map_left_iff, List.forall₂_map_right_iff]
    exact (placed_flatten name node).flip.imp fun _ _ placed => groups_le_of_placed placed
  calc groups (workIn (flatten name node).entries)
      ≤ (((flatten name node).entries.map Prod.snd).map fun token => groups token.work).sum :=
        groups_workIn_le _
    _ ≤ ((leavesBelow node).map fun leaf => groups leaf.work).sum := leafByLeaf.sum_le_sum
    _ ≤ groups (workIn node) := groups_leavesBelow_le node

end Groups

theorem workIn_flatten_lt (name : String) {node : Members} (isCluster : node.kind = .nestedTokens) :
    workIn (flatten name node).entries < (Json.obj node).work := by
  have isGroup : node.isToken = false := Members.isToken_of_kind (by rw [isCluster]; decide)
  rw [Members.isToken, Bool.or_eq_false_iff] at isGroup
  rw [Json.work_of_group isGroup.1]
  refine Work.lt_of_groups_lt ?_
  have flat := groups_flatten_le name node
  rw [Work.groups_add, Work.groups_group]
  omega

theorem workIn_typed_lt (name : String) {token : Members} (hasValue : token.hasValue = true)
    (untyped : token.has Key.type = false) (tag : Json) :
    workIn [(name, .obj (token.put Key.type tag))] < (Json.obj token).work := by
  have typed : (token ++ [(Key.type, tag)]).has Key.type = true := by
    rw [Members.has_iff_mem_keys, Members.keys_append]
    simp
  have noWork : (Json.obj (token.put Key.type tag)).work = 0 := by
    rw [Members.put_of_has_eq_false untyped,
      Json.work_of_token ((token.hasValue_append_type tag).trans hasValue), typed]
    rfl
  have nothing : workIn [(name, .obj (token.put Key.type tag))] = 0 := by
    rw [workIn_singleton, memberWork, noWork, ite_self]
  rw [nothing, Json.work_of_token hasValue, untyped]
  exact Prod.Lex.lt_iff.2 (.inr ⟨rfl, Nat.zero_lt_one⟩)

/-- **An offered fix brings less work** than the node holds to which a way leads from a token group. -/
theorem Fix.Offered.exists_lesser {document : Members} (keyed : (Json.obj document).isKeyed = true)
    {f : Fix} (offered : f.Offered document) :
    ∃ entry group below node, f.target = entry :: below ∧ document.get? entry = some (.obj group) ∧
      Members.Leads group below node ∧ workIn f.inPlace < node.work := by
  cases offered with
  | @addType u mem index approved =>
      obtain ⟨entry, group, below, found, -, keysEq, stands⟩ := mem_untypedTokens mem keyed
      have target := Fix.target_toFix_untyped keysEq index approved
      refine ⟨entry, group, below, _, target, found, stands.leads, ?_⟩
      exact workIn_typed_lt _ stands.hasValue stands.untyped _
  | @flatten c mem fixable index approved =>
      obtain ⟨group, found, -, stands⟩ := mem_clusters mem keyed
      have target := Fix.target_toFix_cluster c index approved
      refine ⟨c.group, group, _, _, target, found, stands.leads, ?_⟩
      exact workIn_flatten_lt c.name stands.isCluster

/-! ## What a substitution leaves -/

namespace Substitution

/-- Every entry replaces a node below a group by less work. -/
def Lessens (σ : Substitution) (ms : Members) : Prop :=
  ∀ chain new, σ chain = some new → ∃ node, ms.Leads chain node ∧ workIn new < node.work

theorem Lessens.below {σ : Substitution} {ms group : Members} (lessens : σ.Lessens ms) {key : String}
    (kept : σ [key] = .none) (found : ms.get? key = some (.obj group)) :
    (σ.below key).Lessens group := by
  intro chain new entry
  obtain ⟨node, leads, less⟩ := lessens (key :: chain) new entry
  cases leads with
  | here => exact absurd (kept.symm.trans entry) nofun
  | under _ found' _ onward =>
      cases found.symm.trans found'
      exact ⟨node, onward, less⟩

variable {σ : Substitution} {ms : Members}

/-- At a member nothing is replaced, or what comes of it holds less. -/
theorem Lessens.none_or_lt (lessens : σ.Lessens ms) (distinct : ms.keys.Nodup) {m : String × Json}
    (mem : m ∈ ms)
    (deeper : ∀ group, m.2 = .obj group → (σ.below m.1).Lessens group →
      σ.below m.1 = none ∨ workIn (substituteIn (σ.below m.1) group) < workIn group) :
    σ.below m.1 = none ∨ workIn (σ.placed m) < memberWork m := by
  have found := Members.get?_of_mem distinct mem
  cases here : σ [m.1] with
  | some new =>
      obtain ⟨node, leads, less⟩ := lessens [m.1] new here
      rw [placed_of_some here]
      cases leads with
      | here notMeta found' =>
          cases found.symm.trans found'
          exact .inr (less.trans_eq (memberWork_of_notMeta notMeta _).symm)
      | under _ _ _ onward => nomatch onward
  | none =>
      by_cases nothing : σ.below m.1 = none
      · exact .inl nothing
      · obtain ⟨rest, some_⟩ := Function.ne_iff.1 nothing
        obtain ⟨new, entry⟩ := Option.ne_none_iff_exists'.1 some_
        obtain ⟨node, leads, less⟩ := lessens (m.1 :: rest) new entry
        cases leads with
        | here => exact absurd (here.symm.trans entry) nofun
        | @under _ group _ _ _ notMeta found' isGroup _ =>
            have isObject := Option.some.inj (found.symm.trans found')
            have less := (deeper group isObject (lessens.below here found')).resolve_left nothing
            rw [Members.isToken, Bool.or_eq_false_iff] at isGroup
            right
            calc workIn (σ.placed m)
                = (Json.obj (substituteIn (σ.below m.1) group)).work := by
                  rw [placed_of_none here, isObject, workIn_singleton, memberWork_of_notMeta notMeta]
                  rfl
              _ ≤ .group + workIn (substituteIn (σ.below m.1) group) := Json.work_obj_le _
              _ < .group + workIn group := by gcongr
              _ = memberWork m := by
                  rw [← Json.work_of_group isGroup.1, ← isObject]
                  exact (memberWork_of_notMeta notMeta m.2).symm

/-- If at each of some members nothing is replaced or what comes of it counts for less, and nothing is
replaced elsewhere, then nothing is replaced at all or the sum is less. -/
theorem none_or_sum_lt {f g : String × Json → Work}
    (inside : ∀ chain new, σ chain = some new → ∃ m ∈ ms, ∃ rest, chain = m.1 :: rest)
    (unchanged : ∀ m ∈ ms, σ.below m.1 = none → f m = g m)
    (atMember : ∀ m ∈ ms, σ.below m.1 = none ∨ f m < g m) :
    σ = none ∨ (ms.map f).sum < (ms.map g).sum := by
  have atMost : ∀ m ∈ ms, f m ≤ g m := by
    intro m mem
    rcases atMember m mem with nothing | less
    · exact (unchanged m mem nothing).le
    · exact less.le
  by_cases lesser : ∃ m ∈ ms, f m < g m
  · exact .inr (List.sum_lt_sum _ _ atMost lesser)
  · left
    funext chain
    by_contra some_
    obtain ⟨new, entry⟩ := Option.ne_none_iff_exists'.1 some_
    obtain ⟨m, mem, rest, rfl⟩ := inside chain new entry
    rcases atMember m mem with nothing | less
    · exact some_ (congrFun nothing rest)
    · exact lesser ⟨m, mem, less⟩

/-- **Replacing nodes below a group by less work** leaves less work, if any node is replaced. -/
theorem Lessens.none_or_workIn_lt (ms : Members) (keyed : (Json.obj ms).isKeyed = true)
    {σ : Substitution} (lessens : σ.Lessens ms) : σ = none ∨ workIn (substituteIn σ ms) < workIn ms := by
  induction ms using Members.nested_induction generalizing σ with
  | step ms ih =>
      obtain ⟨distinct, membersKeyed⟩ := (isKeyed_obj_iff ms).1 keyed
      rw [substituteIn_eq_flatMap, workIn_flatMap, workIn_eq_sum ms]
      refine none_or_sum_lt ?inside ?unchanged ?atMember
      case inside =>
        intro chain new entry
        obtain ⟨node, leads, -⟩ := lessens chain new entry
        obtain ⟨key, rest, value, rfl, found⟩ := leads.exists_member
        exact ⟨_, Members.mem_of_get? found, rest, rfl⟩
      case unchanged =>
        intro m _ nothing
        rw [placed_of_below_none nothing, workIn_singleton]
      case atMember =>
        intro m mem
        refine lessens.none_or_lt distinct mem fun group isObject below => ?_
        have inMs : (m.1, Json.obj group) ∈ ms := isObject ▸ mem
        exact ih m.1 group inMs (membersKeyed _ inMs) below

/-- Every entry replaces a node below an entry of a document by less work. -/
def LessensBelow (σ : Substitution) (document : Members) : Prop :=
  ∀ chain new, σ chain = some new → ∃ entry group below node, chain = entry :: below ∧
    document.get? entry = some (.obj group) ∧ Members.Leads group below node ∧ workIn new < node.work

/-- The entries of a document stay where they are. -/
theorem LessensBelow.kept (lessens : σ.LessensBelow ms) (key : String) : σ [key] = .none := by
  by_contra some_
  obtain ⟨new, replaced⟩ := Option.ne_none_iff_exists'.1 some_
  obtain ⟨entry, group, below, node, same, -, leads, -⟩ := lessens [key] new replaced
  cases same
  nomatch leads

theorem LessensBelow.none_or_work_lt (keyed : (Json.obj ms).isKeyed = true)
    (lessens : σ.LessensBelow ms) :
    σ = none ∨ Members.work (substituteIn σ ms) < Members.work ms := by
  obtain ⟨distinct, membersKeyed⟩ := (isKeyed_obj_iff ms).1 keyed
  have entries : substituteIn σ ms = ms.map fun m => (m.1, m.2.substitute (σ.below m.1)) := by
    rw [substituteIn_eq_flatMap, List.map_eq_flatMap]
    exact congrArg (ms.flatMap ·) (funext fun m => placed_of_none (lessens.kept m.1))
  rw [entries, Members.work, Members.work, List.map_map]
  refine none_or_sum_lt ?inside ?unchanged ?atMember
  case inside =>
    intro chain new replaced
    obtain ⟨entry, group, below, node, rfl, found, -⟩ := lessens chain new replaced
    exact ⟨_, Members.mem_of_get? found, below, rfl⟩
  case unchanged =>
    intro m _ nothing
    rw [Function.comp_apply, nothing, Json.substitute_none]
  case atMember =>
    intro m mem
    by_cases nothing : σ.below m.1 = none
    · exact .inl nothing
    · obtain ⟨rest, some_⟩ := Function.ne_iff.1 nothing
      obtain ⟨new, replaced⟩ := Option.ne_none_iff_exists'.1 some_
      obtain ⟨entry, group, below, node, same, found, -⟩ := lessens (m.1 :: rest) new replaced
      cases same
      have isObject := Option.some.inj ((Members.get?_of_mem distinct mem).symm.trans found)
      have groupKeyed : (Json.obj group).isKeyed = true := isObject ▸ membersKeyed m mem
      have lessensGroup : (σ.below m.1).Lessens group := by
        intro chain new replaced
        obtain ⟨entry', group', below', node', same, found', leads, less⟩ := lessens _ new replaced
        cases same
        cases found.symm.trans found'
        exact ⟨node', leads, less⟩
      rw [Function.comp_apply, isObject]
      exact lessensGroup.none_or_workIn_lt group groupKeyed

end Substitution

/-- **Applied fixes leave less work.** -/
theorem Fixer.Batch.work_lt {document : Members} {s : Fixer} (batch : s.Batch document)
    (keyed : (Json.obj document).isKeyed = true) (applied : s.applied ≠ []) :
    Members.work (substituteIn (Fix.plan s.applied) document) < Members.work document := by
  have lessens : (Fix.plan s.applied).LessensBelow document := by
    intro chain new entry
    obtain ⟨f, mem, rfl, rfl⟩ := Fix.plan_eq_some entry
    exact (batch.offered f mem).exists_lesser keyed
  obtain ⟨f, mem⟩ := List.exists_mem_of_ne_nil _ applied
  refine (lessens.none_or_work_lt keyed).resolve_left fun nothing => ?_
  have entry := batch.apart.plan_target mem
  rw [nothing] at entry
  cases entry

end DesignTokens
