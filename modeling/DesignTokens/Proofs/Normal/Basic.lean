/-
# DesignTokens.Proofs.Normal.Basic -- what the conversion does to one object

The conversion treats an object as a wrapper, a token or a group, and this module says of each what
comes out, so that no later proof has to open the recursion.

* A wrapper gives way to its child with the wrapper's metadata behind it (`Members.Unwraps`):
  the children and the value are those of the child (`children_eq`, `tokenValue_eq`).
* A token becomes the four parts of `Normal.assemble` (`token_eq_ok_iff`).
* The members of a group keep their keys, and each is converted on its own
  (`normalizeMembers_eq_ok_iff`); a bare value is converted as the token it stands for
  (`Json.asNode`).

Whether an object is a wrapper or a token depends on its keys only (`unwrap?_isSome_congr`,
`hasValue_congr`), and a group keeps its keys, so what it is does not change.
-/
import DesignTokens.Normal.Document
import DesignTokens.Proofs.Node

namespace DesignTokens

set_option autoImplicit false

theorem Fault.bind_eq_ok_iff {α β : Type} {x : Except Fault α} {f : α → Except Fault β} {b : β} :
    x >>= f = .ok b ↔ ∃ a, x = .ok a ∧ f a = .ok b := by
  cases x with
  | error fault => simp [bind, Except.bind]
  | ok a => simp [bind, Except.bind]

theorem Fault.bind_eq_error_iff {α β : Type} {x : Except Fault α} {f : α → Except Fault β}
    {fault : Fault} :
    x >>= f = .error fault ↔ x = .error fault ∨ ∃ a, x = .ok a ∧ f a = .error fault := by
  cases x with
  | error fault' => simp [bind, Except.bind]
  | ok a => simp [bind, Except.bind]

theorem Fault.map_eq_ok_iff {α β : Type} {x : Except Fault α} {f : α → β} {b : β} :
    x.map f = .ok b ↔ ∃ a, x = .ok a ∧ f a = b := by
  cases x with
  | error fault => simp [Except.map]
  | ok a => simp [Except.map]

theorem Fault.map_eq_error_iff {α β : Type} {x : Except Fault α} {f : α → β} {fault : Fault} :
    x.map f = .error fault ↔ x = .error fault := by
  cases x with
  | error fault' => simp [Except.map]
  | ok a => simp [Except.map]

theorem Fault.bind_pure_eq_error_iff {α β : Type} {x : Except Fault α} {f : α → β} {fault : Fault} :
    x >>= (fun a => pure (f a)) = .error fault ↔ x = .error fault := by
  cases x with
  | error fault' => simp [bind, Except.bind]
  | ok a => simp [bind, Except.bind, pure, Except.pure]

/-! ## What an object is, by its keys -/

namespace Members

/-- An object is a wrapper if a default child is its only child and it has no value. -/
theorem unwrap?_isSome_iff (ms : Members) :
    ms.unwrap?.isSome = true ↔
      ∃ key, ms.childKeys = [key] ∧ Key.isDefault key = true ∧ ms.hasValue = false := by
  unfold unwrap? childKeys
  split
  · rename_i key child single
    rw [single]
    by_cases h : (Key.isDefault key && !ms.hasValue) = true
    · rw [if_pos h]
      simpa [keys] using h
    · rw [if_neg h]
      simpa [keys] using h
  · rename_i noSingle
    constructor
    · intro h
      simp at h
    · rintro ⟨key, single, -⟩
      obtain ⟨m, only, rfl⟩ := List.map_eq_singleton_iff.1 single
      exact absurd only (noSingle m.1 m.2)

theorem unwrap?_isSome_congr {a b : Members} (same : a.keys = b.keys) :
    a.unwrap?.isSome = b.unwrap?.isSome := by
  rw [Bool.eq_iff_iff, unwrap?_isSome_iff, unwrap?_isSome_iff, childKeys_congr same, hasValue_congr same]

theorem unwrap?_eq_none_congr {a b : Members} (same : a.keys = b.keys) (noWrapper : b.unwrap? = none) :
    a.unwrap? = none := by
  have none_ := unwrap?_isSome_congr same
  rwa [noWrapper, Option.isSome_none, Option.isSome_eq_false_iff, Option.isNone_iff_eq_none] at none_

/-- What carries a value is no wrapper. -/
theorem unwrap?_of_hasValue {ms : Members} (hasValue : ms.hasValue = true) : ms.unwrap? = none := by
  rw [← Option.isNone_iff_eq_none, ← Option.isSome_eq_false_iff, Bool.eq_false_iff]
  intro wrapper
  obtain ⟨_, _, _, noValue⟩ := (unwrap?_isSome_iff ms).1 wrapper
  rw [hasValue] at noValue
  exact absurd noValue (by decide)

/-! ## Joining metadata on -/

/-- Joining members on only adds some of them at the end. -/
theorem join_eq_append (ms extra : Members) :
    ∃ added, ms.join extra = ms ++ added ∧ added.Sublist extra := by
  induction extra generalizing ms with
  | nil => exact ⟨[], by simp [join], .slnil⟩
  | cons m extra ih =>
      obtain ⟨added, joined, sub⟩ := ih (ms.putNew m.1 m.2)
      have step : ms.join (m :: extra) = (ms.putNew m.1 m.2).join extra := rfl
      rw [step, joined, putNew_eq]
      split
      · exact ⟨added, rfl, sub.cons m⟩
      · exact ⟨m :: added, by simp, sub.cons_cons m⟩

theorem mem_metadata {ms : Members} {m : String × Json} (mem : m ∈ ms.metadata) :
    m ∈ ms ∧ Key.isMeta m.1 = true :=
  List.mem_filter.1 mem

theorem mem_children {ms : Members} {m : String × Json} (mem : m ∈ ms.children) :
    m ∈ ms ∧ Key.isMeta m.1 = false := by
  have := List.mem_filter.1 mem
  simpa using this

variable {ms extra : Members}

theorem children_join (allMeta : ∀ m ∈ extra, Key.isMeta m.1 = true) :
    (ms.join extra).children = ms.children := by
  obtain ⟨added, joined, sub⟩ := join_eq_append ms extra
  have none_ : added.filter (fun m => !Key.isMeta m.1) = [] := by
    rw [List.filter_eq_nil_iff]
    intro m mem
    simp [allMeta m (sub.subset mem)]
  rw [joined, children, children, List.filter_append, none_, List.append_nil]

/-- Joining members on adds what was not there. -/
theorem get?_join_eq_or (ms extra : Members) (key : String) :
    (ms.join extra).get? key = (ms.get? key).or (extra.get? key) := by
  induction extra generalizing ms with
  | nil => simp [join, Members.get?]
  | cons m extra ih =>
      obtain ⟨k, v⟩ := m
      rw [show ms.join ((k, v) :: extra) = (ms.putNew k v).join extra from rfl, ih, putNew_eq,
        get?_cons]
      cases present : ms.has k with
      | true =>
          obtain ⟨value, found⟩ := Option.isSome_iff_exists.1 present
          rw [if_pos rfl]
          split
          · rename_i same
            rw [same, found, Option.some_or, Option.some_or]
          · rfl
      | false =>
          rw [if_neg (by decide), get?_append, get?_cons, Option.or_assoc]
          congr 1
          split
          · rfl
          · rw [show get? ([] : Members) key = none from rfl, Option.none_or]

/-- What has a value has one whatever is joined on. -/
theorem hasValue_join (hasValue : ms.hasValue = true) (extra : Members) :
    (ms.join extra).hasValue = true := by
  rw [hasValue_eq, has, has] at hasValue ⊢
  rw [get?_join_eq_or, get?_join_eq_or, Option.isSome_or, Option.isSome_or]
  revert hasValue
  cases (ms.get? Key.value).isSome <;> simp +contextual

theorem get?_metadata (ms : Members) {key : String} (isMeta : Key.isMeta key = true) :
    ms.metadata.get? key = ms.get? key :=
  get?_filter Key.isMeta ms isMeta

/-- Picking members by their keys goes before or after joining members on. -/
theorem filter_join (p : String → Bool) (ms extra : Members) :
    ((ms.join extra).filter fun m => p m.1) =
      Members.join (ms.filter fun m => p m.1) (extra.filter fun m => p m.1) := by
  induction extra generalizing ms with
  | nil => rfl
  | cons m extra ih =>
      obtain ⟨key, value⟩ := m
      rw [show ms.join ((key, value) :: extra) = (ms.putNew key value).join extra from rfl, ih,
        List.filter_cons]
      cases picked : p key with
      | true =>
          have step : (ms.putNew key value).filter (fun m => p m.1) =
              Members.putNew (ms.filter fun m => p m.1) key value := by
            rw [putNew_eq, putNew_eq, has, has, get?_filter p ms picked]
            split
            · rfl
            · rw [List.filter_append, List.filter_singleton, picked]
              rfl
          rw [step, if_pos rfl]
          rfl
      | false =>
          have step : (ms.putNew key value).filter (fun m => p m.1) = ms.filter fun m => p m.1 := by
            rw [putNew_eq]
            split
            · rfl
            · rw [List.filter_append, List.filter_singleton, picked]
              exact List.append_nil _
          rw [step, if_neg (by decide)]

/-- A key that is not joined on leads where it led before. -/
theorem get?_join {key : String} (absent : key ∉ extra.keys) :
    (ms.join extra).get? key = ms.get? key := by
  have notAdded : extra.get? key = none := (get?_eq_none_iff extra key).2 absent
  rw [get?_join_eq_or, notAdded, Option.or_none]

theorem not_mem_keys_metadata {key : String} (notMeta : Key.isMeta key = false) :
    key ∉ ms.metadata.keys := by
  intro mem
  obtain ⟨m, inMetadata, rfl⟩ := List.mem_map.1 mem
  rw [(mem_metadata inMetadata).2] at notMeta
  exact absurd notMeta (by decide)

/-- A wrapper's metadata holds no value. -/
theorem value_not_mem_keys_metadata (noValue : ms.hasValue = false) :
    Key.value ∉ ms.metadata.keys := by
  rw [hasValue_eq, Bool.or_eq_false_iff] at noValue
  intro mem
  have inAll : Key.value ∈ ms.keys := (List.filter_sublist.map _).subset mem
  rw [(has_iff_mem_keys ms Key.value).2 inAll] at noValue
  exact absurd noValue.1 (by decide)

/-- `inner` is what a wrapper gives way to: its only child, with its metadata joined on. -/
structure Unwraps (ms : Members) (key : String) (child : Json) (inner : Members) : Prop where
  only : ms.children = [(key, child)]
  noValue : ms.hasValue = false
  inner_eq : inner = (ofValue child).join ms.metadata

theorem unwraps_of_unwrap? {inner : Members} (wrapper : ms.unwrap? = some inner) :
    ∃ key child, Unwraps ms key child inner := by
  unfold unwrap? at wrapper
  split at wrapper
  · rename_i key child single
    split at wrapper
    · rename_i h
      cases wrapper
      rw [Bool.and_eq_true, Bool.not_eq_true'] at h
      exact ⟨key, child, single, h.2, rfl⟩
    · cases wrapper
  · cases wrapper

namespace Unwraps

variable {key : String} {child : Json} {inner : Members}

theorem children_eq (u : Unwraps ms key child inner) : inner.children = (ofValue child).children := by
  rw [u.inner_eq, children_join fun _ mem => (mem_metadata mem).2]

theorem get?_eq (u : Unwraps ms key child inner) {k : String} (notMeta : Key.isMeta k = false) :
    inner.get? k = (ofValue child).get? k := by
  rw [u.inner_eq, get?_join (not_mem_keys_metadata notMeta)]

theorem get?_value_eq (u : Unwraps ms key child inner) :
    inner.get? Key.value = (ofValue child).get? Key.value := by
  rw [u.inner_eq, get?_join (value_not_mem_keys_metadata u.noValue)]

/-- A wrapper's tag becomes that of its child, unless the child has one. -/
theorem get?_type_eq (u : Unwraps ms key child inner) :
    inner.get? Key.type = ((ofValue child).get? Key.type).or (ms.get? Key.type) := by
  rw [u.inner_eq, get?_join_eq_or, get?_metadata ms (by decide)]

theorem hasValue_eq (u : Unwraps ms key child inner) : inner.hasValue = (ofValue child).hasValue := by
  rw [Members.hasValue_eq, Members.hasValue_eq, has, has, has, has, u.get?_value_eq,
    u.get?_eq (by decide)]

theorem tokenValue_eq (u : Unwraps ms key child inner) :
    inner.tokenValue = (ofValue child).tokenValue := by
  rw [Members.tokenValue_eq, Members.tokenValue_eq, u.get?_value_eq, u.get?_eq (by decide)]

theorem unwrap?_isSome_eq (u : Unwraps ms key child inner) :
    inner.unwrap?.isSome = (ofValue child).unwrap?.isSome := by
  rw [Bool.eq_iff_iff, unwrap?_isSome_iff, unwrap?_isSome_iff, childKeys, childKeys, u.children_eq,
    u.hasValue_eq]

/-- Nothing comes in but what was in the child or in the metadata. -/
theorem mem (u : Unwraps ms key child inner) {m : String × Json} (mem : m ∈ inner) :
    m ∈ ofValue child ∨ m ∈ ms ∧ Key.isMeta m.1 = true := by
  obtain ⟨added, joined, sub⟩ := join_eq_append (ofValue child) ms.metadata
  rw [u.inner_eq, joined, List.mem_append] at mem
  exact mem.imp_right fun inAdded => mem_metadata (sub.subset inAdded)

theorem mem_child (u : Unwraps ms key child inner) : (key, child) ∈ ms ∧ Key.isMeta key = false :=
  mem_children (m := (key, child)) (by rw [u.only]; exact List.mem_singleton_self _)

end Unwraps

end Members

/-! ## Tokens -/

theorem TokenType.name_isEmpty (t : TokenType) : t.name.isEmpty = false := by
  cases t <;> decide

namespace Normal

/-- The members are the structured form of a text: that of a colour or of a dimension. -/
def Structures (s : String) (ms : Members) : Prop :=
  Colour.ofHex? s.toList = .ok (some ms) ∨ Colour.ofFunction? s.toList = .ok (some ms) ∨
    Dimension.ofText? s.toList = some ms

theorem not_isEmpty_of_isDimensional {name : String} (dimensional : isDimensional name = true) :
    name.isEmpty = false := by
  rw [Bool.eq_false_iff]
  intro isEmpty
  rw [String.isEmpty_iff.1 isEmpty] at dimensional
  exact absurd dimensional (by decide)

/-- A text stays as it is, type and all, or becomes an object with a type. -/
theorem convertDimension_cases {s : String} {type type' : Option String} {value' : Json}
    (converted : convertDimension s type = (value', type')) :
    (value' = .str s ∧ type' = type) ∨
      ∃ ms name, Structures s ms ∧ value' = .obj ms ∧ type' = some name ∧ name.isEmpty = false := by
  unfold convertDimension at converted
  split at converted
  · rename_i dimensional
    split at converted
    · rename_i ms read
      cases converted
      refine .inr ⟨ms, _, .inr (.inr read), rfl, rfl, ?_⟩
      cases type with
      | none => decide
      | some name => exact not_isEmpty_of_isDimensional (by simpa using dimensional)
    · cases converted
      exact .inl ⟨rfl, rfl⟩
  · cases converted
    exact .inl ⟨rfl, rfl⟩

/-- What a text becomes, and with which type.  The last case is a text with a number sign in front
that is no hex colour: it stays, and is called a colour. -/
theorem convertText_cases {s : String} {type type' : Option String} {value' : Json}
    (converted : convertText s type = .ok (value', type')) :
    (value' = .str s ∧ type' = type) ∨
      (∃ ms name, Structures s ms ∧ value' = .obj ms ∧ type' = some name ∧ name.isEmpty = false) ∨
      (value' = .str s ∧ type' = some TokenType.color.name ∧
        convertText s (some TokenType.color.name) = .ok (.str s, some TokenType.color.name)) := by
  unfold convertText at converted
  dsimp only at converted
  split at converted
  · split at converted
    · rename_i hashed
      obtain ⟨read, spelled, done⟩ := Fault.bind_eq_ok_iff.1 converted
      cases read with
      | some ms =>
          cases done
          exact .inr (.inl ⟨ms, _, .inl spelled, rfl, rfl, by decide⟩)
      | none =>
          cases done
          refine .inr (.inr ⟨rfl, rfl, ?_⟩)
          simp [convertText, hashed, spelled, bind, Except.bind, pure, Except.pure]
    · obtain ⟨read, spelled, done⟩ := Fault.bind_eq_ok_iff.1 converted
      cases read with
      | some ms =>
          cases done
          exact .inr (.inl ⟨ms, _, .inr (.inl spelled), rfl, rfl, by decide⟩)
      | none => exact (convertDimension_cases (Except.ok.inj done)).imp_right .inl
  · exact (convertDimension_cases (Except.ok.inj converted)).imp_right .inl

/-- The members of a token in structured form. -/
def assemble (value : Json) (type : Option String) (description : Option Json) (extras : Members) :
    Members :=
  [(Key.value, value)] ++ optional Key.type ((type.filter fun t => !t.isEmpty).map .str) ++
    optional Key.description description ++ extras

theorem token_eq_ok_iff (ms : Members) (parentType : Option String) (out : Members) :
    token ms parentType = .ok out ↔
      ∃ value type, convert ms.tokenValue (typeOf ms parentType) = .ok (value, type) ∧
        out = assemble value type (firstGiven? ms Key.description Key.legacyDescription)
          (ms.filter fun m => isExtra m.1) := by
  unfold token
  rw [Fault.bind_eq_ok_iff]
  constructor
  · rintro ⟨⟨value, type⟩, converted, done⟩
    cases done
    exact ⟨value, type, converted, rfl⟩
  · rintro ⟨value, type, converted, rfl⟩
    exact ⟨(value, type), converted, rfl⟩

/-- A token without a type has a value that suggests none. -/
theorem infer?_of_typeOf {ms : Members} {parentType : Option String}
    (untyped : typeOf ms parentType = none) : TokenType.infer? ms.tokenValue = none :=
  Option.map_eq_none_iff.1 (Option.or_eq_none_iff.1 untyped).2

section Assemble

variable {value : Json} {type : Option String} {description : Option Json} {extras : Members}

theorem get?_optional (key : String) (given : Option Json) (k : String) :
    (optional key given).get? k = if k = key then given else none := by
  cases given with
  | none => simp [optional, Members.get?]
  | some v => rw [optional, Members.get?_cons]; rfl

theorem get?_extras (allExtra : ∀ m ∈ extras, isExtra m.1 = true) {key : String}
    (notExtra : isExtra key = false) : extras.get? key = none := by
  rw [Members.get?_eq_none_iff]
  intro mem
  obtain ⟨m, inExtras, rfl⟩ := List.mem_map.1 mem
  rw [allExtra m inExtras] at notExtra
  exact absurd notExtra (by decide)

theorem get?_assemble (allExtra : ∀ m ∈ extras, isExtra m.1 = true) {key : String}
    (notExtra : isExtra key = false) :
    (assemble value type description extras).get? key =
      if key = Key.value then some value
      else if key = Key.type then (type.filter fun t => !t.isEmpty).map .str
      else if key = Key.description then description
      else none := by
  unfold assemble
  rw [Members.get?_append, Members.get?_append, Members.get?_append, get?_optional, get?_optional,
    get?_extras allExtra notExtra, Members.get?_cons]
  by_cases isValue : key = Key.value
  · simp [isValue]
  · by_cases isType : key = Key.type
    · subst isType
      have : ¬ Key.type = Key.description := by decide
      simp [isValue, this, Members.get?]
    · simp [isValue, isType, Members.get?]

theorem get?_type_assemble (allExtra : ∀ m ∈ extras, isExtra m.1 = true) :
    (assemble value type description extras).get? Key.type =
      (type.filter fun t => !t.isEmpty).map .str := by
  rw [get?_assemble allExtra (by decide)]
  simp [Key.type, Key.value]

theorem fst_of_mem_optional {key : String} {given : Option Json} {m : String × Json}
    (mem : m ∈ optional key given) : m.1 = key := by
  cases given with
  | none => cases mem
  | some v => rw [List.mem_singleton.1 mem]

theorem isMeta_of_isExtra {key : String} (extra : isExtra key = true) : Key.isMeta key = true := by
  rw [isExtra, Bool.and_eq_true, Bool.and_eq_true, Bool.and_eq_true] at extra
  exact extra.1.1.1

theorem isMeta_of_mem_assemble (allExtra : ∀ m ∈ extras, isExtra m.1 = true) {m : String × Json}
    (mem : m ∈ assemble value type description extras) : Key.isMeta m.1 = true := by
  simp only [assemble, List.mem_append, List.mem_singleton] at mem
  rcases mem with ((rfl | isType) | isDescription) | isExtra_
  · show Key.isMeta Key.value = true
    decide
  · rw [fst_of_mem_optional isType]; decide
  · rw [fst_of_mem_optional isDescription]; decide
  · exact isMeta_of_isExtra (allExtra m isExtra_)

theorem filter_isExtra_assemble (allExtra : ∀ m ∈ extras, isExtra m.1 = true) :
    ((assemble value type description extras).filter fun m => isExtra m.1) = extras := by
  have dropped (key : String) (given : Option Json) (notExtra : isExtra key = false) :
      (optional key given).filter (fun m => isExtra m.1) = [] := by
    rw [List.filter_eq_nil_iff]
    intro m mem
    rw [fst_of_mem_optional mem, notExtra]
    decide
  have kept : extras.filter (fun m => isExtra m.1) = extras := List.filter_eq_self.2 allExtra
  have noValue := dropped Key.value (some value) (by decide)
  rw [optional] at noValue
  rw [assemble, List.filter_append, List.filter_append, List.filter_append, noValue,
    dropped Key.type _ (by decide), dropped Key.description _ (by decide), kept]
  rfl

theorem tokenValue_assemble (allExtra : ∀ m ∈ extras, isExtra m.1 = true) :
    (assemble value type description extras).hasValue = true ∧
      (assemble value type description extras).tokenValue = value := by
  have found : (assemble value type description extras).get? Key.value = some value := by
    rw [get?_assemble allExtra rfl]; rfl
  have has : (assemble value type description extras).has Key.value = true := by
    rw [Members.has, found]; rfl
  constructor
  · rw [Members.hasValue_eq, has]; rfl
  · rw [Members.tokenValue, Members.valueKey?, if_pos has]
    simp [found]

end Assemble

theorem isExtra_of_mem_filter {ms : Members} :
    ∀ m ∈ ms.filter fun m => isExtra m.1, isExtra m.1 = true :=
  fun _ mem => (List.mem_filter.1 mem).2

/-- A token stays a token. -/
theorem hasValue_token {ms out : Members} {parentType : Option String}
    (converted : token ms parentType = .ok out) : out.hasValue = true := by
  obtain ⟨value, type, -, rfl⟩ := (token_eq_ok_iff ms parentType out).1 converted
  exact (tokenValue_assemble isExtra_of_mem_filter).1

end Normal

/-! ## Groups -/

/-- What a member of a group is converted as: a bare value stands for a token. -/
def Json.asNode (child : Json) : Json :=
  if child.isBare then .obj [(Key.value, child)] else child

/-- A member of a group in structured form. -/
def normalizeMember (parentType : Option String) (key : String) (child : Json) : Except Fault Json :=
  if Key.isMeta key then .ok child else child.asNode.normalize parentType

theorem normalizeMember_obj {key : String} (notMeta : Key.isMeta key = false)
    (parentType : Option String) (ms : Members) :
    normalizeMember parentType key (.obj ms) = (Json.obj ms).normalize parentType := by
  rw [normalizeMember, notMeta]
  rfl

theorem normalizeMembers_cons (parentType : Option String) (key : String) (child : Json)
    (rest : Members) :
    normalizeMembers parentType ((key, child) :: rest) = do
      let first ← normalizeMember parentType key child
      let others ← normalizeMembers parentType rest
      return (key, first) :: others := by
  rw [normalizeMembers, normalizeMember, Json.asNode]
  split
  · rfl
  · split <;> rfl

/-- A walk that converts members one after the other pairs them with what they become. -/
theorem eq_ok_iff_paired {f : String → Json → Except Fault Json} {walk : Members → Except Fault Members}
    (nil : walk [] = .ok [])
    (cons : ∀ key value rest, walk ((key, value) :: rest) = do
      let first ← f key value
      let others ← walk rest
      return (key, first) :: others) (ms out : Members) :
    walk ms = .ok out ↔ Members.Paired (fun key value value' => f key value = .ok value') ms out := by
  induction ms generalizing out with
  | nil =>
      rw [nil]
      constructor
      · intro done
        cases done
        exact .nil
      · intro paired
        cases paired
        rfl
  | cons m ms ih =>
      obtain ⟨key, value⟩ := m
      rw [cons, Fault.bind_eq_ok_iff]
      constructor
      · rintro ⟨first, converted, more⟩
        obtain ⟨others, rest, done⟩ := Fault.bind_eq_ok_iff.1 more
        cases done
        exact .cons ⟨rfl, converted⟩ ((ih others).1 rest)
      · intro paired
        cases paired with
        | @cons _ m' _ others first rest =>
            obtain ⟨key', first'⟩ := m'
            obtain ⟨rfl, converted⟩ := first
            exact ⟨first', converted, Fault.bind_eq_ok_iff.2 ⟨others, (ih others).2 rest, rfl⟩⟩

/-- A walk that converts members one after the other makes the same of members that it converts to the
same. -/
theorem walk_congr {f : String → Json → Except Fault Json} {walk : Members → Except Fault Members}
    (cons : ∀ key value rest, walk ((key, value) :: rest) = do
      let first ← f key value
      let others ← walk rest
      return (key, first) :: others) {ms ms' : Members}
    (paired : ms.Paired (fun key value value' => f key value' = f key value) ms') :
    walk ms' = walk ms := by
  induction paired with
  | nil => rfl
  | @cons m m' _ _ first _ ih =>
      obtain ⟨key, value⟩ := m
      obtain ⟨key', value'⟩ := m'
      obtain ⟨same, converted⟩ := first
      dsimp only at same converted
      subst same
      rw [cons, cons, converted, ih]

theorem normalizeMembers_eq_ok_iff (parentType : Option String) (ms out : Members) :
    normalizeMembers parentType ms = .ok out ↔
      Members.Paired (fun key child child' => normalizeMember parentType key child = .ok child')
        ms out :=
  eq_ok_iff_paired (normalizeMembers.eq_1 parentType) (normalizeMembers_cons parentType) ms out

theorem entries_eq_ok_iff (rootType : Option String) (ms out : Members) :
    Normal.entries rootType ms = .ok out ↔
      Members.Paired (fun name value value' => Normal.entry rootType name value = .ok value') ms out :=
  eq_ok_iff_paired (Normal.entries.eq_1 rootType) (Normal.entries.eq_2 rootType) ms out

theorem normalizeItems_eq_ok_iff (parentType : Option String) (items out : List Json) :
    normalizeItems parentType items = .ok out ↔
      List.Forall₂ (fun item item' => item.normalize parentType = .ok item') items out := by
  induction items generalizing out with
  | nil =>
      rw [normalizeItems]
      constructor
      · intro done
        cases done
        exact .nil
      · intro paired
        cases paired
        rfl
  | cons item items ih =>
      rw [normalizeItems, Fault.bind_eq_ok_iff]
      constructor
      · rintro ⟨first, converted, more⟩
        obtain ⟨others, rest, done⟩ := Fault.bind_eq_ok_iff.1 more
        cases done
        exact .cons converted ((ih others).1 rest)
      · intro paired
        cases paired with
        | @cons _ first _ others converted rest =>
            exact ⟨first, converted, Fault.bind_eq_ok_iff.2 ⟨others, (ih others).2 rest, rfl⟩⟩

/-! ## Trees -/

/-- An object stays an object. -/
theorem isObject_normalize {ms : Members} {parentType : Option String} {out : Json}
    (converted : (Json.obj ms).normalize parentType = .ok out) : out.isObject = true := by
  cases wrapper : ms.unwrap? with
  | some inner =>
      rw [normalize_wrapper wrapper] at converted
      exact isObject_normalize converted
  | none =>
      cases hasValue : ms.hasValue with
      | true =>
          rw [normalize_token wrapper hasValue] at converted
          obtain ⟨token, -, rfl⟩ := Fault.map_eq_ok_iff.1 converted
          rfl
      | false =>
          rw [normalize_group wrapper hasValue] at converted
          obtain ⟨group, -, rfl⟩ := Fault.map_eq_ok_iff.1 converted
          rfl
termination_by (Json.obj ms).weight
decreasing_by exact weight_unwrap? wrapper

theorem normalize_scalar {value : Json} (noList : ∀ items, value ≠ .arr items)
    (noObject : ∀ ms, value ≠ .obj ms) (parentType : Option String) :
    value.normalize parentType = .ok value := by
  rw [Json.normalize]
  · intro items same
    exact noList items same
  · intro ms same
    exact noObject ms same

/-- The conversion makes no bare value. -/
theorem isBare_normalize {node out : Json} {parentType : Option String}
    (converted : node.normalize parentType = .ok out) (notBare : node.isBare = false) :
    out.isBare = false := by
  cases node with
  | arr items =>
      rw [Json.normalize, Fault.bind_eq_ok_iff] at converted
      obtain ⟨items', -, done⟩ := converted
      cases done
      rfl
  | obj ms =>
      have isObject := isObject_normalize converted
      cases out <;> simp_all [Json.isObject, Json.isBare]
  | null =>
      have same : Json.null.normalize parentType = .ok .null := normalize_scalar (by simp) (by simp) _
      rw [same] at converted
      cases converted
      rfl
  | _ => cases notBare

theorem isBare_asNode (child : Json) : child.asNode.isBare = false := by
  rw [Json.asNode]
  split
  · rfl
  · rename_i notBare
    simpa using notBare

theorem asNode_of_not_isBare {child : Json} (notBare : child.isBare = false) : child.asNode = child := by
  rw [Json.asNode, if_neg (by simp [notBare])]

/-- Induction along the conversion: to a list from its items, to a wrapper from what it gives way
to, to a group from what its children are converted as.  Metadata is not entered. -/
theorem normalize_induction {motive : Option String → Json → Prop}
    (list : ∀ parentType items, (∀ item ∈ items, motive parentType item) →
      motive parentType (.arr items))
    (wrapper : ∀ parentType ms inner, Members.unwrap? ms = some inner →
      motive parentType (.obj inner) → motive parentType (.obj ms))
    (token : ∀ parentType ms, Members.unwrap? ms = none → Members.hasValue ms = true →
      motive parentType (.obj ms))
    (group : ∀ parentType ms, Members.unwrap? ms = none → Members.hasValue ms = false →
      (∀ m ∈ ms, Key.isMeta m.1 = false → motive (groupTypeName ms parentType) m.2.asNode) →
      motive parentType (.obj ms))
    (scalar : ∀ parentType value, (∀ items, value ≠ .arr items) → (∀ ms, value ≠ .obj ms) →
      motive parentType value)
    (parentType : Option String) (node : Json) : motive parentType node := by
  refine Json.normalize.induct motive
    (fun parentType ms => ∀ m ∈ ms, Key.isMeta m.1 = false → motive parentType m.2.asNode)
    (fun parentType items => ∀ item ∈ items, motive parentType item)
    list wrapper token (fun parentType ms noWrapper noValue => ?group)
    (fun parentType value noList noObject => ?scalar) nofun ?member nofun ?item parentType node
  case group => exact group parentType ms noWrapper (by simpa using noValue)
  case scalar =>
    exact scalar parentType value (fun items same => noList items same)
      fun ms same => noObject ms same
  case member =>
    intro parentType key child rest bare notBare more m mem notMeta
    rcases List.mem_cons.1 mem with rfl | inRest
    · rw [Json.asNode]
      split
      · rename_i isBare
        exact bare (by simp [notMeta]) isBare
      · exact notBare (by simp [notMeta])
    · exact more m inRest notMeta
  case item =>
    intro parentType item items first more x mem
    rcases List.mem_cons.1 mem with rfl | inRest
    · exact first
    · exact more x inRest

/-- A document keeps its keys, and each entry is converted on its own. -/
theorem normalizeDocument_obj_eq_ok_iff (ms : Members) (out : Json) :
    normalizeDocument (.obj ms) = .ok out ↔
      ∃ entries : Members, out = .obj entries ∧
        Members.Paired (fun name value value' =>
          Normal.entry (groupTypeName ms none) name value = .ok value') ms entries := by
  rw [normalizeDocument, Fault.bind_eq_ok_iff]
  simp only [entries_eq_ok_iff]
  constructor
  · rintro ⟨entries, paired, done⟩
    cases done
    exact ⟨entries, rfl, paired⟩
  · rintro ⟨entries, rfl, paired⟩
    exact ⟨entries, paired, rfl⟩

namespace Example

/-- A bare value and a token in the older spelling. -/
def sizes : Members :=
  [("small", .str "4px"),
    ("default", .obj [("value", .str "2rem"), ("type", .null), ("description", .str "root")])]

/-- The sizes in a wrapper that names their type. -/
def wrappedSizes : Members :=
  [("$type", .str "dimension"), ("base", .obj sizes)]

def structuredSizes : Members :=
  [("small", .obj [("$value", .obj [("value", .int 4), ("unit", .str "px")]),
      ("$type", .str "dimension")]),
    ("default", .obj [("$value", .obj [("value", .int 2), ("unit", .str "rem")]),
      ("$type", .str "dimension"), ("$description", .str "root")]),
    ("$type", .str "dimension")]

theorem normalize_wrappedSizes :
    normalizeDocument (.obj [("sizes", .obj wrappedSizes)]) =
      .ok (.obj [("sizes", .obj structuredSizes)]) := by
  have members : normalizeMembers (some "dimension") (sizes ++ [("$type", .str "dimension")]) =
      .ok structuredSizes := by
    refine (normalizeMembers_eq_ok_iff _ _ _).2
      (.cons ⟨rfl, ?_⟩ (.cons ⟨rfl, ?_⟩ (.cons ⟨rfl, rfl⟩ .nil)))
    · exact normalize_token rfl rfl _
    · exact normalize_token rfl rfl _
  have entry : Normal.entry none "sizes" (.obj wrappedSizes) = .ok (.obj structuredSizes) :=
    calc (Json.obj wrappedSizes).normalize none
        = (Json.obj (sizes ++ [("$type", .str "dimension")])).normalize none :=
          normalize_wrapper rfl none
      _ = (normalizeMembers (some "dimension") (sizes ++ [("$type", .str "dimension")])).map .obj :=
          normalize_group rfl rfl none
      _ = .ok (.obj structuredSizes) := by rw [members]; rfl
  have entries : Normal.entries none [("sizes", .obj wrappedSizes)] =
      .ok [("sizes", .obj structuredSizes)] :=
    (entries_eq_ok_iff _ _ _).2 (.cons ⟨rfl, entry⟩ .nil)
  show (do return Json.obj (← Normal.entries none _)) = _
  rw [entries]
  rfl

end Example

end DesignTokens
