/-
# DesignTokens.Proofs.Node -- what an object is, by its keys

Whether an object is a token or a group depends on its keys only, in any order: it is a group if it
has a child and no value (`isGroup_iff`).
-/
import DesignTokens.Node
import DesignTokens.Proofs.Json.Members

namespace DesignTokens

set_option autoImplicit false

namespace Members

theorem childKeys_eq (ms : Members) : ms.childKeys = ms.keys.filter fun key => !Key.isMeta key := by
  simp only [childKeys, children, keys, List.filter_map]
  rfl

theorem hasValue_eq (ms : Members) : ms.hasValue = (ms.has Key.value || ms.has Key.legacyValue) := by
  unfold hasValue valueKey?
  cases ms.has Key.value <;> cases ms.has Key.legacyValue <;> rfl

theorem tokenValue_eq (ms : Members) :
    ms.tokenValue = ((ms.get? Key.value).or (ms.get? Key.legacyValue)).getD .null := by
  unfold tokenValue valueKey? has
  cases current : ms.get? Key.value <;> cases legacy : ms.get? Key.legacyValue <;> simp [current, legacy]

theorem hasValue_congr {a b : Members} (same : a.keys = b.keys) : a.hasValue = b.hasValue := by
  rw [hasValue_eq, hasValue_eq, has_congr same, has_congr same]

theorem childKeys_congr {a b : Members} (same : a.keys = b.keys) : a.childKeys = b.childKeys := by
  rw [childKeys_eq, childKeys_eq, same]

theorem hasValue_eq_false_iff (ms : Members) :
    ms.hasValue = false ↔ Key.value ∉ ms.keys ∧ Key.legacyValue ∉ ms.keys := by
  rw [hasValue_eq, Bool.or_eq_false_iff, ← has_iff_mem_keys, ← has_iff_mem_keys]
  simp

theorem childKeys_ne_nil_iff (ms : Members) :
    ms.childKeys ≠ [] ↔ ∃ key ∈ ms.keys, Key.isMeta key = false := by
  rw [childKeys_eq, Ne, List.filter_eq_nil_iff]
  simp

theorem isGroup_iff (ms : Members) :
    ms.isToken = false ↔
      (Key.value ∉ ms.keys ∧ Key.legacyValue ∉ ms.keys) ∧ ∃ key ∈ ms.keys, Key.isMeta key = false := by
  rw [isToken, Bool.or_eq_false_iff, hasValue_eq_false_iff, List.isEmpty_eq_false_iff,
    childKeys_ne_nil_iff]

theorem isToken_congr {a b : Members} (same : ∀ key, key ∈ a.keys ↔ key ∈ b.keys) :
    a.isToken = b.isToken := by
  rw [Bool.eq_iff_iff, ← not_iff_not, Bool.not_eq_true, Bool.not_eq_true, isGroup_iff, isGroup_iff]
  simp only [same]

theorem hasValue_append_type (ms : Members) (tag : Json) :
    (ms ++ [(Key.type, tag)]).hasValue = ms.hasValue := by
  have notValue : Key.value ≠ Key.type := by decide
  have notLegacy : Key.legacyValue ≠ Key.type := by decide
  rw [Bool.eq_iff_iff, ← not_iff_not, Bool.not_eq_true, Bool.not_eq_true, hasValue_eq_false_iff,
    hasValue_eq_false_iff, keys_append]
  simp [notValue, notLegacy]

/-- A type tag does not make a group of a token, nor a token of a group. -/
theorem isToken_append_type (ms : Members) (tag : Json) :
    (ms ++ [(Key.type, tag)]).isToken = ms.isToken := by
  have isMeta : Key.isMeta Key.type = true := by decide
  rw [isToken, isToken, hasValue_append_type, childKeys_eq, childKeys_eq, keys_append,
    List.filter_append]
  simp [isMeta]

theorem isGroup_of_mem {ms : Members} (noValue : ms.hasValue = false) {m : String × Json}
    (mem : m ∈ ms) (notMeta : Key.isMeta m.1 = false) : ms.isToken = false := by
  have child : m ∈ ms.children := List.mem_filter.2 ⟨mem, by simp [notMeta]⟩
  rw [isToken, noValue, Bool.false_or, List.isEmpty_eq_false_iff]
  exact List.ne_nil_of_mem (List.mem_map_of_mem child)

/-- A group is a cluster as soon as one of its children looks like a token. -/
theorem looksLikeToken_eq_false {ms : Members} (isPlain : ms.kind = .group) {m : String × Json}
    (mem : m ∈ ms) (notMeta : Key.isMeta m.1 = false) : m.2.looksLikeToken = false := by
  unfold kind at isPlain
  split at isPlain
  · cases isPlain
  · split at isPlain
    · cases isPlain
    · rename_i noneLooks
      rw [Bool.not_eq_true, List.any_eq_false] at noneLooks
      simpa using noneLooks m (List.mem_filter.2 ⟨mem, by simp [notMeta]⟩)

theorem isToken_of_kind {ms : Members} (kind : ms.kind ≠ .token) : ms.isToken = false := by
  unfold Members.kind at kind
  split at kind
  · exact absurd rfl kind
  · rename_i noToken
    simpa using noToken

end Members

theorem Json.looksLikeToken_of_hasValue {node : Json} (hasValue : node.hasValue = true) :
    node.looksLikeToken = true := by
  cases node with
  | obj ms =>
      rw [Json.hasValue] at hasValue
      rw [looksLikeToken, hasValue, Bool.true_or]
  | _ => cases hasValue

theorem isTokenGroup_iff (name : String) (value : Json) :
    isTokenGroup name value = true ↔
      Key.isMeta name = false ∧ name ≠ Key.brand ∧ value.isObject = true := by
  simp [isTokenGroup, and_assoc]

theorem exists_members_of_isTokenGroup {name : String} {value : Json}
    (isGroup : isTokenGroup name value = true) : ∃ ms : Members, value = .obj ms := by
  have isObject := ((isTokenGroup_iff name value).1 isGroup).2.2
  cases value with
  | obj ms => exact ⟨ms, rfl⟩
  | _ => cases isObject

end DesignTokens
