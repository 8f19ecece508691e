/-
# DesignTokens.Proofs.Json.Reordered -- values that differ in the order of members alone

A value is reordered if the members of objects in it, at any depth, may have changed places, and
nothing else has (`Json.Reordered`).  Lists keep their order.  So the members of an object, with their
values reordered, are a permutation of those of the other (`Members.Reordered`).

Whatever reads an object by its keys finds a reordered value under each (`Members.Reordered.find`),
provided that each key is there once; and a walk over the members that makes the same of reordered
values, order aside, makes the same of reordered members (`Members.Reordered.flatMap_perm`).
-/
import DesignTokens.Proofs.Json.Keyed
import DesignTokens.Proofs.Node
import Mathlib.Data.List.Perm.Basic

namespace DesignTokens

set_option autoImplicit false

/-! ## Paired lists -/

theorem isEmpty_eq_of_forall₂ {α β : Type} {R : α → β → Prop} {xs : List α} {ys : List β}
    (paired : List.Forall₂ R xs ys) : xs.isEmpty = ys.isEmpty := by
  cases paired <;> rfl

theorem map_eq_of_forall₂ {α β : Type} {R : α → α → Prop} {xs ys : List α}
    (paired : List.Forall₂ R xs ys) {f : α → β} (each : ∀ x y, R x y → f x = f y) :
    xs.map f = ys.map f := by
  induction paired with
  | nil => rfl
  | cons first _ ih => rw [List.map_cons, List.map_cons, each _ _ first, ih]

theorem all_eq_of_forall₂ {α : Type} {R : α → α → Prop} {xs ys : List α} (paired : List.Forall₂ R xs ys)
    {p : α → Bool} (each : ∀ x y, R x y → p x = p y) : xs.all p = ys.all p := by
  simpa using congrArg (List.all · id) (map_eq_of_forall₂ paired each)

/-- What is made of the items of one list can be made of the items they are paired with. -/
theorem exists_forall₂ {α β : Type} {R : α → α → Prop} {N : α → β → Prop} {S : β → β → Prop}
    {xs ys : List α} {out : List β} (paired : List.Forall₂ R xs ys) (made : List.Forall₂ N xs out)
    (each : ∀ x ∈ xs, ∀ y x', R x y → N x x' → ∃ y', N y y' ∧ S x' y') :
    ∃ out', List.Forall₂ N ys out' ∧ List.Forall₂ S out out' := by
  induction paired generalizing out with
  | nil =>
      cases made
      exact ⟨[], .nil, .nil⟩
  | cons first _ ih =>
      cases made with
      | cons firstMade restMade =>
          rw [List.forall_mem_cons] at each
          obtain ⟨y', made', same⟩ := each.1 _ _ first firstMade
          obtain ⟨out', restMade', rest⟩ := ih restMade each.2
          exact ⟨y' :: out', .cons made' restMade', .cons same rest⟩

/-! ## What may be missing -/

theorem rel_or {α β : Type} {R : α → β → Prop} {a c : Option α} {b d : Option β}
    (first : Option.Rel R a b) (second : Option.Rel R c d) : Option.Rel R (a.or c) (b.or d) := by
  cases first with
  | none => exact second
  | some related => exact .some related

theorem rel_bind {α β γ δ : Type} {R : α → β → Prop} {S : γ → δ → Prop} {a : Option α} {b : Option β}
    (found : Option.Rel R a b) {f : α → Option γ} {g : β → Option δ}
    (each : ∀ x y, R x y → Option.Rel S (f x) (g y)) : Option.Rel S (a.bind f) (b.bind g) := by
  cases found with
  | none => exact .none
  | some related => exact each _ _ related

/-! ## Values -/

mutual

/-- The values differ at most in the order of the members of objects. -/
def Json.Reordered : Json → Json → Prop
  | .arr xs, .arr ys => reorderedItems xs ys
  | .obj xs, .obj ys => ∃ zs, reorderedMembers xs zs ∧ zs.Perm ys
  | x, y => x = y

def reorderedItems : List Json → List Json → Prop
  | [], [] => True
  | x :: xs, y :: ys => x.Reordered y ∧ reorderedItems xs ys
  | _, _ => False

/-- The same keys in the same order. -/
def reorderedMembers : List (String × Json) → Members → Prop
  | [], [] => True
  | (key, x) :: xs, (key', y) :: ys => key' = key ∧ x.Reordered y ∧ reorderedMembers xs ys
  | _, _ => False

end

theorem reorderedItems_iff (xs ys : List Json) :
    reorderedItems xs ys ↔ List.Forall₂ Json.Reordered xs ys := by
  induction xs generalizing ys with
  | nil => cases ys <;> simp [reorderedItems]
  | cons x xs ih => cases ys <;> simp [reorderedItems, ih]

theorem reorderedMembers_iff (xs ys : Members) :
    reorderedMembers xs ys ↔ xs.Paired (fun _ => Json.Reordered) ys := by
  induction xs generalizing ys with
  | nil => cases ys <;> simp [reorderedMembers, Members.Paired]
  | cons x xs ih =>
      unfold Members.Paired at ih ⊢
      cases ys with
      | nil => simp [reorderedMembers]
      | cons y ys => simp [reorderedMembers, ih, and_assoc]

/-- The members, their values reordered, are a permutation of the others. -/
def Members.Reordered (xs ys : Members) : Prop :=
  ∃ zs, xs.Paired (fun _ => Json.Reordered) zs ∧ zs.Perm ys

theorem reordered_arr_iff (xs ys : List Json) :
    (Json.arr xs).Reordered (.arr ys) ↔ List.Forall₂ Json.Reordered xs ys := by
  rw [Json.Reordered, reorderedItems_iff]

theorem reordered_obj_iff (xs ys : Members) : (Json.obj xs).Reordered (.obj ys) ↔ xs.Reordered ys := by
  simp only [Json.Reordered, reorderedMembers_iff]
  rfl

namespace Json

/-- How two values can be reordered. -/
inductive Reordered.Cases : Json → Json → Prop where
  | scalar (value : Json) (noList : ∀ items, value ≠ .arr items) (noObject : ∀ ms, value ≠ .obj ms) :
      Cases value value
  | arr {xs ys : List Json} (items : List.Forall₂ Json.Reordered xs ys) : Cases (.arr xs) (.arr ys)
  | obj {xs ys : Members} (members : xs.Reordered ys) : Cases (.obj xs) (.obj ys)

theorem Reordered.cases {a b : Json} (same : a.Reordered b) : Reordered.Cases a b := by
  cases a with
  | arr xs =>
      cases b with
      | arr ys => exact .arr ((reordered_arr_iff xs ys).1 same)
      | _ => cases same
  | obj xs =>
      cases b with
      | obj ys => exact .obj ((reordered_obj_iff xs ys).1 same)
      | _ => cases same
  | _ =>
      rw [Json.Reordered] at same
      · subst same
        exact .scalar _ (by simp) (by simp)
      all_goals simp

/-- What is read off scalars alone is the same for reordered values. -/
theorem Reordered.congr_scalar {α : Type} {a b : Json} (same : a.Reordered b) (f : Json → α)
    (arr : ∀ xs ys, f (.arr xs) = f (.arr ys)) (obj : ∀ xs ys, f (.obj xs) = f (.obj ys)) :
    f a = f b := by
  cases same.cases with
  | scalar => rfl
  | arr => exact arr _ _
  | obj => exact obj _ _

end Json

mutual

theorem Json.Reordered.refl (value : Json) : value.Reordered value := by
  cases value with
  | arr items => exact reorderedItems_refl items
  | obj ms => exact ⟨ms, reorderedMembers_refl ms, .refl ms⟩
  | _ => rfl

theorem reorderedItems_refl (items : List Json) : reorderedItems items items := by
  cases items with
  | nil => trivial
  | cons item items => exact ⟨.refl item, reorderedItems_refl items⟩

theorem reorderedMembers_refl (ms : List (String × Json)) : reorderedMembers ms ms := by
  cases ms with
  | nil => trivial
  | cons m ms =>
      obtain ⟨key, value⟩ := m
      exact ⟨rfl, .refl value, reorderedMembers_refl ms⟩

end

mutual

theorem Json.Reordered.symm {a b : Json} (same : a.Reordered b) : b.Reordered a := by
  cases a with
  | arr xs =>
      cases b with
      | arr ys => exact reorderedItems_symm xs same
      | _ => cases same
  | obj xs =>
      cases b with
      | obj ys =>
          obtain ⟨zs, paired, perm⟩ := same
          have back := (reorderedMembers_iff zs xs).1 (reorderedMembers_symm xs paired)
          obtain ⟨ws, pairedBack, permBack⟩ := List.perm_comp_forall₂ perm.symm back
          exact ⟨ws, (reorderedMembers_iff ys ws).2 pairedBack, permBack⟩
      | _ => cases same
  | _ =>
      rw [Json.Reordered] at same
      · subst same
        exact .refl _
      all_goals simp

theorem reorderedItems_symm (xs : List Json) {ys : List Json} (same : reorderedItems xs ys) :
    reorderedItems ys xs := by
  cases xs with
  | nil =>
      cases ys with
      | nil => trivial
      | cons => cases same
  | cons x xs =>
      cases ys with
      | nil => cases same
      | cons y ys => exact ⟨same.1.symm, reorderedItems_symm xs same.2⟩

theorem reorderedMembers_symm (xs : List (String × Json)) {ys : Members}
    (same : reorderedMembers xs ys) : reorderedMembers ys xs := by
  cases xs with
  | nil =>
      cases ys with
      | nil => trivial
      | cons => cases same
  | cons x xs =>
      cases ys with
      | nil => cases same
      | cons y ys => exact ⟨same.1.symm, same.2.1.symm, reorderedMembers_symm xs same.2.2⟩

end

mutual

theorem Json.Reordered.isKeyed {a b : Json} (same : a.Reordered b) (keyed : a.isKeyed = true) :
    b.isKeyed = true := by
  cases a with
  | arr xs =>
      cases b with
      | arr ys => exact (keyedItems_iff ys).2 (keyed_of_reorderedItems xs same ((keyedItems_iff xs).1 keyed))
      | _ => cases same
  | obj xs =>
      cases b with
      | obj ys =>
          obtain ⟨zs, paired, perm⟩ := same
          obtain ⟨distinct, keyedValues⟩ := (isKeyed_obj_iff xs).1 keyed
          have sameKeys := ((reorderedMembers_iff xs zs).1 paired).keys_eq
          rw [← sameKeys] at distinct
          refine (isKeyed_obj_iff ys).2 ⟨(perm.map Prod.fst).nodup distinct, fun m mem => ?_⟩
          exact keyed_of_reorderedMembers xs paired keyedValues m (perm.mem_iff.2 mem)
      | _ => cases same
  | _ =>
      rw [Json.Reordered] at same
      · subst same
        exact keyed
      all_goals simp

theorem keyed_of_reorderedItems (xs : List Json) {ys : List Json} (same : reorderedItems xs ys)
    (keyed : ∀ x ∈ xs, x.isKeyed = true) : ∀ y ∈ ys, y.isKeyed = true := by
  cases xs with
  | nil =>
      cases ys with
      | nil => exact List.forall_mem_nil _
      | cons => cases same
  | cons x xs =>
      cases ys with
      | nil => cases same
      | cons y ys =>
          rw [List.forall_mem_cons] at keyed ⊢
          exact ⟨same.1.isKeyed keyed.1, keyed_of_reorderedItems xs same.2 keyed.2⟩

theorem keyed_of_reorderedMembers (xs : List (String × Json)) {ys : Members}
    (same : reorderedMembers xs ys) (keyed : ∀ m ∈ xs, m.2.isKeyed = true) :
    ∀ m ∈ ys, m.2.isKeyed = true := by
  cases xs with
  | nil =>
      cases ys with
      | nil => exact List.forall_mem_nil _
      | cons => cases same
  | cons x xs =>
      cases ys with
      | nil => cases same
      | cons y ys =>
          rw [List.forall_mem_cons] at keyed ⊢
          exact ⟨same.2.1.isKeyed keyed.1, keyed_of_reorderedMembers xs same.2.2 keyed.2⟩

end

/-! ## Members -/

namespace Members

/-- With each key once, a permutation of the members leads where they lead. -/
theorem get?_perm {xs ys : Members} (perm : xs.Perm ys) (distinct : xs.keys.Nodup) (key : String) :
    ys.get? key = xs.get? key := by
  have distinct' : ys.keys.Nodup := (perm.map Prod.fst).nodup distinct
  ext value
  constructor
  · intro found
    exact get?_of_mem distinct (perm.mem_iff.2 (mem_of_get? found))
  · intro found
    exact get?_of_mem distinct' (perm.mem_iff.1 (mem_of_get? found))

namespace Reordered

variable {xs ys xs' ys' : Members}

theorem of_perm (perm : xs.Perm ys) : xs.Reordered ys :=
  ⟨xs, List.forall₂_same.2 fun m _ => ⟨rfl, .refl m.2⟩, perm⟩

theorem refl (ms : Members) : ms.Reordered ms :=
  of_perm (.refl ms)

theorem symm (same : xs.Reordered ys) : ys.Reordered xs :=
  (reordered_obj_iff ys xs).1 ((reordered_obj_iff xs ys).2 same).symm

theorem single (key : String) {x y : Json} (same : x.Reordered y) :
    Members.Reordered [(key, x)] [(key, y)] :=
  ⟨[(key, y)], .cons ⟨rfl, same⟩ .nil, .refl _⟩

theorem append (same : xs.Reordered ys) (same' : xs'.Reordered ys') :
    Members.Reordered (xs ++ xs') (ys ++ ys') := by
  obtain ⟨zs, paired, perm⟩ := same
  obtain ⟨zs', paired', perm'⟩ := same'
  exact ⟨zs ++ zs', List.rel_append paired paired', perm.append perm'⟩

/-- Members that are picked by their keys. -/
theorem filter (same : xs.Reordered ys) (p : String → Bool) :
    Members.Reordered (xs.filter fun m => p m.1) (ys.filter fun m => p m.1) := by
  obtain ⟨zs, paired, perm⟩ := same
  refine ⟨zs.filter fun m => p m.1, ?_, perm.filter _⟩
  refine List.rel_filter (fun m m' related => ?_) paired
  dsimp only
  rw [related.1]

theorem keys_perm (same : xs.Reordered ys) : xs.keys.Perm ys.keys := by
  obtain ⟨zs, paired, perm⟩ := same
  rw [← paired.keys_eq]
  exact perm.map Prod.fst

theorem mem_keys_iff (same : xs.Reordered ys) (key : String) : key ∈ xs.keys ↔ key ∈ ys.keys :=
  same.keys_perm.mem_iff

theorem has_eq (same : xs.Reordered ys) (key : String) : xs.has key = ys.has key := by
  rw [Bool.eq_iff_iff, has_iff_mem_keys, has_iff_mem_keys, same.mem_keys_iff]

theorem isEmpty_eq (same : xs.Reordered ys) : xs.isEmpty = ys.isEmpty := by
  obtain ⟨zs, paired, perm⟩ := same
  rw [isEmpty_eq_of_forall₂ paired, perm.isEmpty_eq]

/-- A key leads to reordered values, or nowhere on both sides. -/
inductive Found (xs ys : Members) (key : String) : Prop where
  | none (absent : xs.get? key = .none) (absent' : ys.get? key = .none)
  | some {x y : Json} (found : xs.get? key = .some x) (found' : ys.get? key = .some y)
      (same : x.Reordered y)

theorem find (same : xs.Reordered ys) (distinct : xs.keys.Nodup) (key : String) : Found xs ys key := by
  obtain ⟨zs, paired, perm⟩ := same
  have distinct' : zs.keys.Nodup := paired.keys_eq ▸ distinct
  have samePlace := get?_perm perm distinct' key
  cases found : Members.get? xs key with
  | none =>
      refine .none found ?_
      rw [get?_eq_none_iff] at found
      rwa [samePlace, get?_eq_none_iff, paired.keys_eq]
  | some x =>
      obtain ⟨y, found', related⟩ := paired.get? found
      exact .some found (samePlace.trans found') related

theorem get?_rel (same : xs.Reordered ys) (distinct : xs.keys.Nodup) (key : String) :
    Option.Rel Json.Reordered (xs.get? key) (ys.get? key) := by
  cases same.find distinct key with
  | none absent absent' =>
      rw [absent, absent']
      exact .none
  | some found found' related =>
      rw [found, found']
      exact .some related

theorem getD (same : xs.Reordered ys) (distinct : xs.keys.Nodup) (key : String) :
    ((xs.get? key).getD .null).Reordered ((ys.get? key).getD .null) := by
  cases same.find distinct key with
  | none absent absent' =>
      rw [absent, absent']
      exact .refl _
  | some found found' related =>
      rw [found, found']
      exact related

/-- Two walks that find the same at reordered values, in whatever order, find the same at reordered
members. -/
theorem flatMap_perm {α : Type} (same : xs.Reordered ys) {f g : String × Json → List α}
    (each : ∀ key x y, (key, x) ∈ xs → x.Reordered y → (f (key, x)).Perm (g (key, y))) :
    (xs.flatMap f).Perm (ys.flatMap g) := by
  obtain ⟨zs, paired, perm⟩ := same
  refine List.Perm.trans ?_ (perm.flatMap_right g)
  clear perm
  induction paired with
  | nil => exact .nil
  | @cons m m' rest rest' first _ ih =>
      obtain ⟨key, x⟩ := m
      obtain ⟨key', y⟩ := m'
      obtain ⟨rfl, related⟩ := first
      rw [List.flatMap_cons, List.flatMap_cons]
      refine (each _ x y List.mem_cons_self related).append (ih fun key x y mem => ?_)
      exact each key x y (List.mem_cons_of_mem _ mem)

/-- What is made of members key by key can be made of reordered members. -/
theorem exists_paired {N : String → Json → Json → Prop} (same : xs.Reordered ys) {out : Members}
    (made : xs.Paired N out)
    (each : ∀ key x y x', (key, x) ∈ xs → x.Reordered y → N key x x' →
      ∃ y', N key y y' ∧ x'.Reordered y') :
    ∃ out', ys.Paired N out' ∧ out.Reordered out' := by
  obtain ⟨zs, paired, perm⟩ := same
  obtain ⟨zs', made', paired'⟩ : ∃ zs', zs.Paired N zs' ∧ out.Paired (fun _ => Json.Reordered) zs' := by
    refine exists_forall₂ paired made ?_
    rintro ⟨key, x⟩ mem ⟨_, y⟩ ⟨_, x'⟩ ⟨rfl, related⟩ ⟨rfl, madeOne⟩
    obtain ⟨y', madeOther, related'⟩ := each _ x y x' mem related madeOne
    exact ⟨(_, y'), ⟨rfl, madeOther⟩, rfl, related'⟩
  obtain ⟨out', madeOut, permOut⟩ := List.perm_comp_forall₂ perm.symm made'
  exact ⟨out', madeOut, zs', paired', permOut.symm⟩

theorem eq_single {key : String} {x : Json} (same : Members.Reordered [(key, x)] ys) :
    ∃ y, ys = [(key, y)] ∧ x.Reordered y := by
  obtain ⟨zs, paired, perm⟩ := same
  cases paired with
  | @cons _ m _ _ first rest =>
      cases rest
      obtain ⟨key', y⟩ := m
      obtain ⟨rfl, related⟩ := first
      exact ⟨y, perm.symm.eq_singleton, related⟩

/-! ### What an object is -/

theorem valueKey?_eq (same : xs.Reordered ys) : xs.valueKey? = ys.valueKey? := by
  rw [valueKey?, valueKey?, same.has_eq, same.has_eq]

theorem hasValue_eq (same : xs.Reordered ys) : xs.hasValue = ys.hasValue := by
  rw [hasValue, hasValue, same.valueKey?_eq]

theorem tokenValue (same : xs.Reordered ys) (distinct : xs.keys.Nodup) :
    xs.tokenValue.Reordered ys.tokenValue := by
  rw [Members.tokenValue, Members.tokenValue, same.valueKey?_eq]
  cases ys.valueKey? with
  | none => exact .refl _
  | some key => exact same.getD distinct key

theorem children (same : xs.Reordered ys) : xs.children.Reordered ys.children :=
  same.filter fun key => !Key.isMeta key

theorem isToken_eq (same : xs.Reordered ys) : xs.isToken = ys.isToken :=
  isToken_congr same.mem_keys_iff

theorem looksLikeToken_eq {x y : Json} (same : x.Reordered y) : x.looksLikeToken = y.looksLikeToken := by
  cases same.cases with
  | scalar => rfl
  | arr => rfl
  | obj members =>
      rw [Json.looksLikeToken, Json.looksLikeToken, members.hasValue_eq, members.has_eq]

theorem kind_eq (same : xs.Reordered ys) : xs.kind = ys.kind := by
  have looks : xs.children.any (·.2.looksLikeToken) = ys.children.any (·.2.looksLikeToken) := by
    obtain ⟨zs, paired, perm⟩ := same.children
    rw [← perm.any_eq]
    have sameLooks := map_eq_of_forall₂ paired (f := fun m => m.2.looksLikeToken)
      fun _ _ related => looksLikeToken_eq related.2
    simpa using congrArg (List.any · id) sameLooks
  rw [kind, kind, same.isToken_eq, looks]

theorem groupType?_eq (same : xs.Reordered ys) (distinct : xs.keys.Nodup) :
    xs.groupType? = ys.groupType? := by
  rw [groupType?, groupType?]
  cases same.find distinct Key.type with
  | none absent absent' => rw [absent, absent']
  | some found found' tag =>
      rw [found, found']
      exact tag.congr_scalar TokenType.ofTag? (fun _ _ => rfl) fun _ _ => rfl

end Reordered

end Members

theorem Json.Reordered.isGiven_eq {a b : Json} (same : a.Reordered b) : a.isGiven = b.isGiven := by
  cases same.cases with
  | scalar => rfl
  | arr items => exact congrArg not (isEmpty_eq_of_forall₂ items)
  | obj members => exact congrArg not members.isEmpty_eq

end DesignTokens
