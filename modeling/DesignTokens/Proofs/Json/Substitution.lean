/-
# DesignTokens.Proofs.Json.Substitution -- replacing nodes all at once

A substitution says for some chains of keys what members are to take the place of the node there, and
`Json.substitute` carries all of it out in one walk.  It is the plain description of what a sequence
of single replacements comes to: replacing one more node, at a chain that overlaps none of those
before, is the substitution with one more entry (`withParent_substitute`).  No order is left in it.

A substitution is fresh if the new members bring no name that stands beside the node they replace.
Then every node apart from the replaced ones is still found by its chain (`at?_substitute`), and a
replaced one gives way to what is meant for it (`at?_substitute_replaced`).
-/
import DesignTokens.Fix.Apply
import DesignTokens.Proofs.Json.Keyed

namespace DesignTokens

set_option autoImplicit false

/-- What members are to take the place of the nodes at some chains of keys. -/
abbrev Substitution := KeyChain → Option Members

namespace Substitution

def none : Substitution := fun _ => .none

/-- The part of a substitution below a key. -/
def below (σ : Substitution) (key : String) : Substitution := fun rest => σ (key :: rest)

/-- The part of a substitution below a chain. -/
def under (σ : Substitution) (chain : KeyChain) : Substitution := fun rest => σ (chain ++ rest)

/-- One more entry. -/
def insert (σ : Substitution) (chain : KeyChain) (new : Members) : Substitution :=
  fun c => if c = chain then some new else σ c

/-- Nothing is replaced at a chain, above it or below it. -/
def Clear (σ : Substitution) (chain : KeyChain) : Prop :=
  ∀ c, Path.overlap c chain = true → σ c = .none

theorem under_cons (σ : Substitution) (key : String) (rest : KeyChain) :
    σ.under (key :: rest) = (σ.below key).under rest := rfl

theorem Clear.below {σ : Substitution} {key : String} {rest : KeyChain}
    (clear : σ.Clear (key :: rest)) : (σ.below key).Clear rest := by
  intro c overlap
  exact clear (key :: c) (by simpa [Path.overlap] using overlap)

theorem Clear.of_prefix {σ : Substitution} {chain front : KeyChain} (clear : σ.Clear chain)
    (isPrefix : front <+: chain) : σ front = .none :=
  clear front ((Path.overlap_iff _ _).2 (.inl isPrefix))

theorem Clear.under_eq {σ : Substitution} {chain : KeyChain} (clear : σ.Clear chain) :
    σ.under chain = none := by
  funext rest
  exact clear _ ((Path.overlap_iff _ _).2 (.inr (List.prefix_append chain rest)))

theorem insert_self (σ : Substitution) (chain : KeyChain) (new : Members) :
    σ.insert chain new chain = some new :=
  if_pos rfl

theorem insert_of_ne (σ : Substitution) {chain c : KeyChain} (new : Members) (ne : c ≠ chain) :
    σ.insert chain new c = σ c :=
  if_neg ne

theorem below_insert (σ : Substitution) (key : String) (rest : KeyChain) (new : Members) :
    (σ.insert (key :: rest) new).below key = (σ.below key).insert rest new := by
  funext c
  by_cases same : c = rest
  · simp [below, insert, same]
  · simp [below, insert, same]

theorem below_insert_of_ne (σ : Substitution) {key k : String} (rest : KeyChain) (new : Members)
    (ne : k ≠ key) : (σ.insert (key :: rest) new).below k = σ.below k := by
  funext c
  simp [below, insert, ne]

end Substitution

mutual

/-- The value with all replacements made. -/
def Json.substitute (σ : Substitution) : Json → Json
  | .obj ms => .obj (substituteIn σ ms)
  | value => value

def substituteIn (σ : Substitution) : List (String × Json) → Members
  | [] => []
  | (key, child) :: rest =>
      (σ [key]).getD [(key, child.substitute (σ.below key))] ++ substituteIn σ rest

end

namespace Substitution

/-- What a substitution makes of one member. -/
def placed (σ : Substitution) (m : String × Json) : Members :=
  (σ [m.1]).getD [(m.1, m.2.substitute (σ.below m.1))]

variable {σ : Substitution}

theorem placed_of_none {m : String × Json} (kept : σ [m.1] = .none) :
    σ.placed m = [(m.1, m.2.substitute (σ.below m.1))] := by
  rw [placed, kept]
  rfl

theorem placed_of_some {m : String × Json} {new : Members} (replaced : σ [m.1] = some new) :
    σ.placed m = new := by
  rw [placed, replaced]
  rfl

end Substitution

theorem substituteIn_cons (σ : Substitution) (m : String × Json) (rest : Members) :
    substituteIn σ (m :: rest) = σ.placed m ++ substituteIn σ rest := rfl

theorem substituteIn_eq_flatMap (σ : Substitution) (ms : Members) :
    substituteIn σ ms = ms.flatMap σ.placed := by
  induction ms with
  | nil => rfl
  | cons m rest ih => rw [substituteIn_cons, ih, List.flatMap_cons]

mutual

theorem Json.substitute_none (value : Json) : value.substitute .none = value := by
  cases value with
  | obj ms => exact congrArg Json.obj (substituteIn_none ms)
  | _ => rfl

theorem substituteIn_none (ms : List (String × Json)) : substituteIn .none ms = ms := by
  cases ms with
  | nil => rfl
  | cons m rest =>
      obtain ⟨key, child⟩ := m
      show (key, child.substitute .none) :: substituteIn .none rest = _
      rw [Json.substitute_none child, substituteIn_none rest]

end

/-- A member stays as it is if nothing at it or below it is replaced. -/
theorem Substitution.placed_of_below_none {σ : Substitution} {m : String × Json}
    (nothing : σ.below m.1 = none) : σ.placed m = [m] := by
  have kept : σ [m.1] = .none := congrFun nothing []
  rw [placed_of_none kept, nothing, Json.substitute_none]

theorem mem_keys_substituteIn_iff (σ : Substitution) (ms : Members) (key : String) :
    key ∈ (substituteIn σ ms).keys ↔ ∃ m ∈ ms, key ∈ (σ.placed m).keys := by
  rw [substituteIn_eq_flatMap, Members.keys, List.map_flatMap, List.mem_flatMap]
  rfl

/-! ## Finding nodes again -/

/-- No replacement in a value brings a name that stands beside the node it replaces. -/
def Substitution.Fresh (σ : Substitution) (value : Json) : Prop :=
  ∀ (above : KeyChain) (key : String) (ms new : Members), value.at? above = some (.obj ms) →
    key ∈ ms.keys → σ (above ++ [key]) = some new → ∀ k ∈ new.keys, k ≠ key → k ∉ ms.keys

section Lookup

variable {σ : Substitution} {ms : Members}

theorem Substitution.Fresh.below (fresh : σ.Fresh (.obj ms)) {key : String} {child : Json}
    (found : ms.get? key = some child) : (σ.below key).Fresh child := by
  intro above k members new leads
  refine fresh (key :: above) k members new ?_
  rw [Json.at?_cons, found]
  exact leads

theorem Substitution.Fresh.under {value : Json} (fresh : σ.Fresh value) {above : KeyChain}
    {node : Json} (leads : value.at? above = some node) : (σ.under above).Fresh node := by
  intro front key members new onward
  rw [Substitution.under, ← List.append_assoc]
  refine fresh (above ++ front) key members new ?_
  rw [Json.at?_append, leads]
  exact onward

/-- The names that come of a member are its own and such as stand nowhere beside it. -/
theorem Substitution.Fresh.eq_of_mem_placed (fresh : σ.Fresh (.obj ms)) {m : String × Json}
    (mem : m ∈ ms) {key : String} (placed : key ∈ (σ.placed m).keys) (inMs : key ∈ ms.keys) :
    key = m.1 := by
  cases entry : σ [m.1] with
  | none =>
      rw [placed_of_none entry] at placed
      exact List.mem_singleton.1 placed
  | some new =>
      rw [placed_of_some entry] at placed
      by_contra ne
      exact fresh [] m.1 ms new (Json.at?_nil _) (Members.mem_keys_of_mem mem) entry key placed ne inMs

/-- The names of the members that are left, apart from a given one. -/
theorem Substitution.Fresh.not_mem_keys (fresh : σ.Fresh (.obj ms)) {rest : Members}
    (sub : rest ⊆ ms) {key : String} (inMs : key ∈ ms.keys) (absent : key ∉ rest.keys) :
    key ∉ (substituteIn σ rest).keys := by
  intro mem
  obtain ⟨m, inRest, placed⟩ := (mem_keys_substituteIn_iff σ rest key).1 mem
  obtain rfl := fresh.eq_of_mem_placed (sub inRest) placed inMs
  exact absent (Members.mem_keys_of_mem inRest)

theorem get?_substituteIn (fresh : σ.Fresh (.obj ms)) (distinct : ms.keys.Nodup) {key : String}
    {child : Json} (found : ms.get? key = some child) :
    (substituteIn σ ms).get? key = (σ.placed (key, child)).get? key := by
  have inMs : key ∈ ms.keys := Members.mem_keys_of_get? found
  suffices ∀ rest : Members, rest ⊆ ms → rest.keys.Nodup → rest.get? key = some child →
      (substituteIn σ rest).get? key = (σ.placed (key, child)).get? key from
    this ms (List.Subset.refl ms) distinct found
  intro rest
  induction rest with
  | nil => nofun
  | cons m rest ih =>
      intro sub distinct found
      obtain ⟨k, v⟩ := m
      rw [Members.keys_cons, List.nodup_cons] at distinct
      rw [substituteIn_cons, Members.get?_append]
      rw [List.cons_subset] at sub
      rw [Members.get?_cons] at found
      split at found
      · rename_i here
        cases found
        subst here
        have later : (substituteIn σ rest).get? key = none :=
          (Members.get?_eq_none_iff _ _).2 (fresh.not_mem_keys sub.2 inMs distinct.1)
        rw [later, Option.or_none]
      · rename_i elsewhere
        have first : (σ.placed (k, v)).get? key = none := by
          rw [Members.get?_eq_none_iff]
          exact fun placed => elsewhere (fresh.eq_of_mem_placed sub.1 placed inMs)
        rw [first, Option.none_or]
        exact ih sub.2 distinct.2 found

end Lookup

/-- A node is still found by its chain if nothing on the way to it is replaced. -/
theorem at?_substitute {σ : Substitution} {value node : Json} {chain : KeyChain}
    (fresh : σ.Fresh value) (keyed : value.isKeyed = true) (leads : value.at? chain = some node)
    (kept : ∀ front, front <+: chain → front ≠ [] → σ front = none) :
    (value.substitute σ).at? chain = some (node.substitute (σ.under chain)) := by
  induction chain generalizing σ value with
  | nil =>
      rw [Json.at?_nil] at leads ⊢
      cases leads
      rfl
  | cons key rest ih =>
      cases value with
      | obj ms =>
          rw [Json.at?_cons] at leads
          obtain ⟨child, found, onward⟩ := Option.bind_eq_some_iff.1 leads
          have here : σ [key] = none := kept [key] (by simp) (by simp)
          have stays : (substituteIn σ ms).get? key = some (child.substitute (σ.below key)) := by
            rw [get?_substituteIn fresh ((isKeyed_obj_iff ms).1 keyed).1 found,
              Substitution.placed_of_none here, Members.get?_cons]
            exact if_pos rfl
          rw [Json.substitute, Json.at?_cons, stays, Substitution.under_cons]
          refine ih (fresh.below found) (Members.isKeyed_of_get? keyed found) onward ?_
          intro front isPrefix _
          exact kept (key :: front) (List.cons_prefix_cons.2 ⟨rfl, isPrefix⟩) (by simp)
      | _ => cases leads

section Targets

variable {σ : Substitution} {value node : Json} {above : KeyChain} {name : String} {parent : Members}

/-- Where nothing on the way is replaced, a replaced node gives way to the member of its name among
the new ones, if there is one. -/
theorem at?_substitute_replaced (fresh : σ.Fresh value) (keyed : value.isKeyed = true)
    (around : value.at? above = some (.obj parent)) (found : parent.get? name = some node)
    (kept : ∀ front, front <+: above → front ≠ [] → σ front = none) {new : Members}
    (replaced : σ (above ++ [name]) = some new) :
    (value.substitute σ).at? (above ++ [name]) = new.get? name := by
  have parentKeyed := Json.isKeyed_of_at? keyed around
  rw [Json.at?_concat (at?_substitute fresh keyed around kept),
    get?_substituteIn (fresh.under around) ((isKeyed_obj_iff parent).1 parentKeyed).1 found]
  exact congrArg (Members.get? · name) (Substitution.placed_of_some replaced)

end Targets

/-! ## One more replacement -/

namespace Members

theorem splice_cons (m : String × Json) (ms : Members) (key : String) (new : Members) :
    splice (m :: ms) key new = (if m.1 = key then new else [m]) ++ ms.splice key new := by
  simp [splice]

theorem splice_append (a b : Members) (key : String) (new : Members) :
    (a ++ b).splice key new = a.splice key new ++ b.splice key new :=
  List.flatMap_append

theorem splice_of_not_mem {ms : Members} {key : String} (absent : key ∉ ms.keys) (new : Members) :
    ms.splice key new = ms := by
  induction ms with
  | nil => rfl
  | cons m rest ih =>
      rw [keys_cons, List.mem_cons, not_or] at absent
      rw [splice_cons, if_neg (Ne.symm absent.1), ih absent.2]
      rfl

theorem splice_singleton (key : String) (value : Json) (new : Members) :
    splice [(key, value)] key new = new := by
  simp [splice]

/-- Setting a member that is there replaces it by one. -/
theorem put_eq_splice {ms : Members} {key : String} (distinct : ms.keys.Nodup) (mem : key ∈ ms.keys)
    (value : Json) : ms.put key value = ms.splice key [(key, value)] := by
  induction ms with
  | nil => cases mem
  | cons m rest ih =>
      obtain ⟨k, v⟩ := m
      rw [keys_cons, List.nodup_cons] at distinct
      rw [put, splice_cons]
      by_cases here : k = key
      · subst here
        rw [if_pos rfl, if_pos rfl, splice_of_not_mem distinct.1]
        rfl
      · have inRest : key ∈ keys rest := (List.mem_cons.1 mem).resolve_left (Ne.symm here)
        rw [if_neg here, if_neg here, ih distinct.2 inRest]
        rfl

end Members

/-- Two substitutions that differ at one key only: what the one makes of the members becomes what
the other makes of them by a change at that key. -/
theorem splice_substituteIn {σ τ : Substitution} {ms : Members} (fresh : σ.Fresh (.obj ms))
    (distinct : ms.keys.Nodup) {key : String} {child : Json} (found : ms.get? key = some child)
    (kept : σ [key] = none) (elsewhere : ∀ m : String × Json, m.1 ≠ key → τ.placed m = σ.placed m) :
    (substituteIn σ ms).splice key (τ.placed (key, child)) = substituteIn τ ms := by
  have inMs : key ∈ ms.keys := Members.mem_keys_of_get? found
  suffices ∀ rest : Members, rest ⊆ ms → rest.keys.Nodup →
      (∀ value, Members.get? rest key = some value → value = child) →
      (substituteIn σ rest).splice key (τ.placed (key, child)) = substituteIn τ rest from
    this ms (List.Subset.refl ms) distinct fun _ same => Option.some.inj (same.symm.trans found)
  intro rest
  induction rest with
  | nil => exact fun _ _ _ => rfl
  | cons m rest ih =>
      intro sub distinct found
      obtain ⟨k, v⟩ := m
      rw [Members.keys_cons, List.nodup_cons] at distinct
      rw [List.cons_subset] at sub
      rw [substituteIn_cons, substituteIn_cons, Members.splice_append]
      by_cases here : k = key
      · subst here
        have same : v = child := found v (by rw [Members.get?_cons]; exact if_pos rfl)
        have absent : ∀ value, Members.get? rest k = some value → value = child :=
          fun value more => absurd (Members.mem_keys_of_get? more) distinct.1
        rw [ih sub.2 distinct.2 absent, Substitution.placed_of_none kept, Members.splice_singleton, same]
      · have first : key ∉ (σ.placed (k, v)).keys :=
          fun placed => here (fresh.eq_of_mem_placed sub.1 placed inMs).symm
        have later : ∀ value, Members.get? rest key = some value → value = child := by
          intro value more
          refine found value ?_
          rwa [Members.get?_cons, if_neg (Ne.symm here)]
        rw [ih sub.2 distinct.2 later, Members.splice_of_not_mem first, elsewhere _ here]

theorem Json.withParent_cons {ms : Members} {key : String} {child : Json}
    (found : ms.get? key = some child) {rest : KeyChain} (more : rest ≠ []) (new : Members) :
    (Json.obj ms).withParent (key :: rest) new = .obj (ms.put key (child.withParent rest new)) := by
  cases rest with
  | nil => exact absurd rfl more
  | cons k rest => simp [Json.withParent, found]

/-- **Replacing one more node** where nothing is replaced at it, above it or below it, is the
substitution with one more entry. -/
theorem withParent_substitute {σ : Substitution} {value node : Json} {above : KeyChain}
    {name : String} {parent : Members} (fresh : σ.Fresh value) (keyed : value.isKeyed = true)
    (resultKeyed : (value.substitute σ).isKeyed = true)
    (around : value.at? above = some (.obj parent)) (found : parent.get? name = some node)
    (clear : σ.Clear (above ++ [name])) (new : Members) :
    (value.substitute σ).withParent (above ++ [name])
        ((substituteIn (σ.under above) parent).splice name new) =
      value.substitute (σ.insert (above ++ [name]) new) := by
  induction above generalizing σ value with
  | nil =>
      rw [Json.at?_nil] at around
      cases around
      have distinct := ((isKeyed_obj_iff parent).1 keyed).1
      have kept : σ [name] = none := clear.of_prefix (List.prefix_refl _)
      have elsewhere : ∀ m : String × Json, m.1 ≠ name →
          (σ.insert [name] new).placed m = σ.placed m := by
        intro m ne
        rw [Substitution.placed, Substitution.placed, Substitution.below_insert_of_ne _ _ _ ne,
          Substitution.insert_of_ne _ _ (by simpa using ne)]
      have step := splice_substituteIn fresh distinct found kept elsewhere
      rw [Substitution.placed_of_some (Substitution.insert_self σ [name] new)] at step
      exact congrArg Json.obj step
  | cons key above ih =>
      cases value with
      | obj ms =>
          rw [Json.at?_cons] at around
          obtain ⟨child, foundChild, onward⟩ := Option.bind_eq_some_iff.1 around
          have distinct := ((isKeyed_obj_iff ms).1 keyed).1
          have distinctResult := ((isKeyed_obj_iff _).1 resultKeyed).1
          have kept : σ [key] = none := clear.of_prefix (by simp)
          have more : above ++ [name] ≠ [] := by simp
          have stays : (substituteIn σ ms).get? key = some (child.substitute (σ.below key)) := by
            rw [get?_substituteIn fresh distinct foundChild, Substitution.placed_of_none kept,
              Members.get?_cons]
            exact if_pos rfl
          have deeper := ih (fresh.below foundChild) (Members.isKeyed_of_get? keyed foundChild)
            (Members.isKeyed_of_get? resultKeyed stays) onward clear.below
          have elsewhere : ∀ m : String × Json, m.1 ≠ key →
              (σ.insert (key :: (above ++ [name])) new).placed m = σ.placed m := by
            intro m ne
            rw [Substitution.placed, Substitution.placed, Substitution.below_insert_of_ne _ _ _ ne,
              Substitution.insert_of_ne _ _ (by simp [ne])]
          have step := splice_substituteIn fresh distinct foundChild kept elsewhere
          have keptAfter : (σ.insert (key :: (above ++ [name])) new) [key] = none := by
            rwa [Substitution.insert_of_ne _ _ (by simp)]
          rw [Substitution.placed_of_none keptAfter, Substitution.below_insert] at step
          rw [List.cons_append, Json.substitute, Json.withParent_cons stays more,
            Substitution.under_cons, deeper,
            Members.put_eq_splice distinctResult (Members.mem_keys_of_get? stays)]
          exact congrArg Json.obj step
      | _ => cases around

end DesignTokens
