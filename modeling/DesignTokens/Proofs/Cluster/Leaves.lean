/-
# DesignTokens.Proofs.Cluster.Leaves -- flattening loses no leaf

What a cluster is worth is what stands at its ends: the bare values below it and the objects below it
that read as tokens (`leavesBelow`).  Its flat replacement holds them one by one in document order,
each as it was but for a type (`Placed`), and each under a name of its own (`flatten_leaves`).

The names are where a leaf could be lost, since an entry placed under a taken name displaces the one
that has it.  Many leaves may ask for one name: default children for the bare stem, a key with a
hyphen for the name of a leaf in a subgroup, a number behind one name for another leaf's key.  But a
leaf only gets a name that is free (`FlatName.free_not_mem`).
-/
import DesignTokens.Proofs.Cluster.Names
import DesignTokens.Proofs.Json.Members

namespace DesignTokens

set_option autoImplicit false

/-! ## Names -/

namespace FlatName

/-- The name of a cluster, perhaps with keys and numbers joined on. -/
def Extends (name key : String) : Prop :=
  key = name ∨ ∃ rest, key = name ++ "-" ++ rest

theorem Extends.hyphenated {name stem : String} (stemExtends : Extends name stem) (key : String) :
    Extends name (Leaf.hyphenated stem key) := by
  rcases stemExtends with rfl | ⟨rest, rfl⟩
  · exact .inr ⟨key, rfl⟩
  · refine .inr ⟨rest ++ "-" ++ key, ?_⟩
    simp only [Leaf.hyphenated, String.append_assoc]

theorem Extends.subStem {name stem : String} (stemExtends : Extends name stem) (key : String) :
    Extends name (subStem stem key) := by
  unfold DesignTokens.subStem
  split
  · exact stemExtends
  · exact stemExtends.hyphenated key

theorem Extends.wanted {name stem : String} (stemExtends : Extends name stem) (taken : List String)
    (key : String) : Extends name (wanted taken stem key) := by
  unfold FlatName.wanted
  split
  · exact stemExtends
  · exact stemExtends.hyphenated key

theorem Extends.free {name wanted : String} (wantedExtends : Extends name wanted)
    (taken : List String) : Extends name (free taken wanted) := by
  obtain ⟨k, ends, -⟩ := free_eq_candidate taken wanted
  rw [ends]
  cases k with
  | zero => exact wantedExtends
  | succ k => exact wantedExtends.hyphenated (toString (k + 2))

end FlatName

/-! ## Giving the names out -/

namespace Flattening

/-- A flat replacement of a cluster holds the tokens of the leaves placed so far, in order. -/
structure Holds (name : String) (placed : List Leaf) (f : Flattening) : Prop where
  tokens : f.entries.map Prod.snd = placed.map fun leaf => .obj leaf.token
  distinct : f.entries.keys.Nodup
  named : ∀ key ∈ f.entries.keys, FlatName.Extends name key

/-- The key under which a leaf is placed. -/
def nextKey (f : Flattening) (leaf : Leaf) : String :=
  FlatName.free f.entries.keys (FlatName.wanted f.entries.keys leaf.stem leaf.key)

theorem nextKey_not_mem (f : Flattening) (leaf : Leaf) : f.nextKey leaf ∉ f.entries.keys :=
  FlatName.free_not_mem _ _

theorem entries_add (f : Flattening) (leaf : Leaf) :
    (f.add leaf).entries = f.entries ++ [(f.nextKey leaf, .obj leaf.token)] :=
  rfl

/-- Placing a leaf sets a member and displaces none. -/
theorem entries_add_eq_put (f : Flattening) (leaf : Leaf) :
    (f.add leaf).entries = f.entries.put (f.nextKey leaf) (.obj leaf.token) := by
  rw [entries_add, Members.put_of_not_mem _ (f.nextKey_not_mem leaf)]

variable {name : String} {placed : List Leaf} {f : Flattening}

theorem Holds.add (holds : Holds name placed f) {leaf : Leaf}
    (stemExtends : FlatName.Extends name leaf.stem) : Holds name (placed ++ [leaf]) (f.add leaf) := by
  have keys : (f.add leaf).entries.keys = f.entries.keys ++ [f.nextKey leaf] := by
    rw [entries_add, Members.keys_append]
    rfl
  refine ⟨?tokens, ?distinct, ?named⟩
  case tokens =>
    rw [entries_add, List.map_append, List.map_append, holds.tokens]
    rfl
  case distinct =>
    rw [keys, ← List.concat_eq_append]
    exact holds.distinct.concat (f.nextKey_not_mem leaf)
  case named =>
    intro key mem
    rw [keys, List.mem_append, List.mem_singleton] at mem
    rcases mem with before | rfl
    · exact holds.named key before
    · exact (stemExtends.wanted _ _).free _

theorem Holds.foldl_add {leaves : List Leaf} (holds : Holds name placed f)
    (stemsExtend : ∀ leaf ∈ leaves, FlatName.Extends name leaf.stem) :
    Holds name (placed ++ leaves) (leaves.foldl Flattening.add f) := by
  induction leaves generalizing placed f with
  | nil => simpa using holds
  | cons leaf leaves ih =>
      have step := holds.add (stemsExtend leaf List.mem_cons_self)
      have rest := ih step fun later mem => stemsExtend later (List.mem_cons_of_mem _ mem)
      rwa [List.append_assoc] at rest

theorem holds_ofLeaves {leaves : List Leaf}
    (stemsExtend : ∀ leaf ∈ leaves, FlatName.Extends name leaf.stem) :
    Holds name leaves (ofLeaves leaves) := by
  have start : Holds name [] empty := ⟨rfl, List.nodup_nil, nofun⟩
  exact start.foldl_add stemsExtend

end Flattening

/-! ## Leaves -/

/-- An object that is not taken apart: it has a value or a type, or no children. -/
def Members.isLeaf (ms : Members) : Bool :=
  ms.hasValue || ms.has Key.type || ms.childKeys.isEmpty

mutual

/-- The leaves at a node. -/
def Json.leaves : Json → List Json
  | .obj ms => if Members.isLeaf ms then [.obj ms] else leavesBelow ms
  | value => [value]

/-- The leaves below an object with these members, in document order.  Metadata has none. -/
def leavesBelow : List (String × Json) → List Json
  | [] => []
  | (key, child) :: rest => (if Key.isMeta key then [] else child.leaves) ++ leavesBelow rest

end

/-- What becomes of a leaf: an object stays as it is, but one without a type may have one behind its
members; any other value becomes the value of a token that has at most a type besides. -/
inductive Placed : Json → Json → Prop where
  | kept (ms : Members) : Placed (.obj ms) (.obj ms)
  | typed (ms : Members) (t : TokenType) (untyped : ms.has Key.type = false) :
      Placed (.obj ms) (.obj (ms ++ [(Key.type, .str t.name)]))
  | wrapped (value : Json) (bare : value.isObject = false) : Placed value (.obj [(Key.value, value)])
  | wrappedTyped (value : Json) (t : TokenType) (bare : value.isObject = false) :
      Placed value (.obj [(Key.value, value), (Key.type, .str t.name)])

theorem Leaf.placed_typed (inherited : Option TokenType) (ms : Members) :
    Placed (.obj ms) (.obj (Leaf.typed inherited ms)) := by
  unfold Leaf.typed
  cases hasType : ms.has Key.type with
  | true => exact .kept ms
  | false =>
      show Placed _ (.obj (Leaf.withType ms ((ms.declaredType?.or inherited).or _)))
      cases (ms.declaredType?.or inherited).or _ with
      | none => exact .kept ms
      | some t =>
          rw [Leaf.withType, Members.put_of_has_eq_false hasType]
          exact .typed ms t hasType

theorem Leaf.placed_wrapped (inherited : Option TokenType) {value : Json}
    (bare : value.isObject = false) : Placed value (.obj (Leaf.wrapped inherited value)) := by
  unfold Leaf.wrapped
  cases inherited.or (TokenType.infer? value) with
  | none => exact .wrapped value bare
  | some t => exact .wrappedTyped value t bare

theorem leavesOf_obj (stem : String) (inherited : Option TokenType) (key : String) (ms : Members) :
    leavesOf stem inherited key (.obj ms) =
      if ms.isLeaf then [⟨stem, key, Leaf.typed inherited ms⟩]
      else leavesIn (subStem stem key) (ms.groupType?.or inherited) ms :=
  rfl

mutual

theorem leavesOf_placed (stem : String) (inherited : Option TokenType) (key : String) (node : Json) :
    List.Forall₂ Placed node.leaves
      ((leavesOf stem inherited key node).map fun leaf => .obj leaf.token) := by
  cases node with
  | obj ms =>
      rw [Json.leaves, leavesOf_obj]
      by_cases isLeaf : Members.isLeaf ms = true
      · rw [if_pos isLeaf, if_pos isLeaf]
        exact .cons (Leaf.placed_typed inherited ms) .nil
      · rw [if_neg isLeaf, if_neg isLeaf]
        exact leavesIn_placed _ _ ms
  | _ => exact .cons (Leaf.placed_wrapped inherited rfl) .nil

theorem leavesIn_placed (stem : String) (inherited : Option TokenType) (ms : List (String × Json)) :
    List.Forall₂ Placed (leavesBelow ms)
      ((leavesIn stem inherited ms).map fun leaf => .obj leaf.token) := by
  cases ms with
  | nil => exact .nil
  | cons m rest =>
      obtain ⟨key, child⟩ := m
      rw [leavesBelow, leavesIn, List.map_append]
      refine List.rel_append ?_ (leavesIn_placed stem inherited rest)
      by_cases isMeta : Key.isMeta key = true
      · rw [if_pos isMeta, if_pos isMeta]
        exact .nil
      · rw [if_neg isMeta, if_neg isMeta]
        exact leavesOf_placed stem inherited key child

end

mutual

theorem leavesOf_stem {name stem : String} (stemExtends : FlatName.Extends name stem)
    (inherited : Option TokenType) (key : String) (node : Json) :
    ∀ leaf ∈ leavesOf stem inherited key node, FlatName.Extends name leaf.stem := by
  have single (token : Members) : ∀ leaf ∈ [Leaf.mk stem key token], FlatName.Extends name leaf.stem := by
    intro leaf mem
    rw [List.mem_singleton.1 mem]
    exact stemExtends
  cases node with
  | obj ms =>
      rw [leavesOf]
      split
      · exact single _
      · exact leavesIn_stem (stemExtends.subStem key) _ ms
  | _ => exact single _

theorem leavesIn_stem {name stem : String} (stemExtends : FlatName.Extends name stem)
    (inherited : Option TokenType) (ms : List (String × Json)) :
    ∀ leaf ∈ leavesIn stem inherited ms, FlatName.Extends name leaf.stem := by
  cases ms with
  | nil => nofun
  | cons m rest =>
      obtain ⟨key, child⟩ := m
      intro leaf mem
      rw [leavesIn, List.mem_append] at mem
      rcases mem with here | later
      · split at here
        · cases here
        · exact leavesOf_stem stemExtends inherited key child leaf here
      · exact leavesIn_stem stemExtends inherited rest leaf later

end

/-- **Flattening loses no leaf.**  There is one entry for each leaf, in document order, and the
keys of the entries differ. -/
theorem flatten_leaves (name : String) (node : Members) :
    List.Forall₂ Placed (leavesBelow node) ((flatten name node).entries.map Prod.snd) ∧
      (flatten name node).entries.keys.Nodup ∧
      ∀ key ∈ (flatten name node).entries.keys, FlatName.Extends name key := by
  have stemsExtend := leavesIn_stem (.inl rfl : FlatName.Extends name name) node.groupType? node
  have holds := Flattening.holds_ofLeaves stemsExtend
  refine ⟨?_, holds.distinct, holds.named⟩
  unfold flatten
  rw [holds.tokens]
  exact leavesIn_placed name node.groupType? node

namespace Example

def typed : Json := .obj [("$type", .str "color")]

/-- Both default children ask for the bare name, and two leaves for the same hyphenated one. -/
example :
    (flatten "brand" [("DEFAULT", typed), ("base", typed), ("on", .obj [("dark", typed)]),
      ("on-dark", typed)]).entries =
      [("brand", typed), ("brand-base", typed), ("brand-on-dark", typed), ("brand-on-dark-2", typed)] :=
  rfl

end Example

end DesignTokens
