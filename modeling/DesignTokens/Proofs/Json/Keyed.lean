/-
# DesignTokens.Proofs.Json.Keyed -- objects with each key once

The type of JSON values lets an object carry a key twice, but no value that is read does: the first
place and the last value of the key are kept (`isKeyed_of_read`).  What looks a node up by its keys
and what walks over the members meet the same nodes only in such values, so this is the premise of
whatever compares the two.
-/
import DesignTokens.Json.Reader
import DesignTokens.Proofs.Validation.Visits
import Mathlib.Data.List.Nodup

namespace DesignTokens

set_option autoImplicit false

mutual

/-- Whether every object in a value has each key once. -/
def Json.isKeyed : Json → Bool
  | .arr items => keyedItems items
  | .obj ms => decide (Members.keys ms).Nodup && keyedMembers ms
  | _ => true

def keyedItems : List Json → Bool
  | [] => true
  | item :: items => item.isKeyed && keyedItems items

def keyedMembers : List (String × Json) → Bool
  | [] => true
  | (_, value) :: rest => value.isKeyed && keyedMembers rest

end

theorem keyedItems_iff (items : List Json) :
    keyedItems items = true ↔ ∀ item ∈ items, item.isKeyed = true := by
  induction items with
  | nil => simp [keyedItems]
  | cons item items ih => simp [keyedItems, ih]

theorem keyedMembers_iff (ms : Members) :
    keyedMembers ms = true ↔ ∀ m ∈ ms, m.2.isKeyed = true := by
  induction ms with
  | nil => simp [keyedMembers]
  | cons m ms ih =>
      obtain ⟨key, value⟩ := m
      simp [keyedMembers, ih]

theorem isKeyed_obj_iff (ms : Members) :
    (Json.obj ms).isKeyed = true ↔ ms.keys.Nodup ∧ ∀ m ∈ ms, m.2.isKeyed = true := by
  simp [Json.isKeyed, keyedMembers_iff]

namespace Members

variable {ms : Members} {key : String} {value : Json}

theorem mem_keys_of_mem {m : String × Json} (mem : m ∈ ms) : m.1 ∈ ms.keys :=
  List.mem_map_of_mem mem

theorem exists_of_mem_keys (mem : key ∈ ms.keys) : ∃ value, (key, value) ∈ ms := by
  obtain ⟨⟨k, value⟩, inMs, rfl⟩ := List.mem_map.1 mem
  exact ⟨value, inMs⟩

theorem mem_keys_of_get? (found : ms.get? key = some value) : key ∈ ms.keys :=
  mem_keys_of_mem (mem_of_get? found)

/-- With each key once, a walk over the members and a lookup find the same. -/
theorem get?_of_mem (distinct : ms.keys.Nodup) (mem : (key, value) ∈ ms) : ms.get? key = some value := by
  induction ms with
  | nil => cases mem
  | cons m rest ih =>
      rw [keys_cons, List.nodup_cons] at distinct
      rw [get?_cons]
      rcases List.mem_cons.1 mem with rfl | inRest
      · exact if_pos rfl
      · rw [if_neg, ih distinct.2 inRest]
        rintro rfl
        have inKeys := mem_keys_of_mem inRest
        exact distinct.1 inKeys

/-- What a key leads to on the right of a pairing comes of what it leads to on the left. -/
theorem Paired.exists_get?_left {R : String → Json → Json → Prop} {ms' : Members} (paired : Paired R ms ms')
    (distinct : ms.keys.Nodup) {value' : Json} (found' : ms'.get? key = some value') :
    ∃ value, ms.get? key = some value ∧ R key value value' := by
  obtain ⟨value, inMs, related⟩ := paired.exists_left (mem_of_get? found')
  exact ⟨value, get?_of_mem distinct inMs, related⟩

theorem isKeyed_of_get? (keyed : (Json.obj ms).isKeyed = true) (found : ms.get? key = some value) :
    value.isKeyed = true :=
  ((isKeyed_obj_iff ms).1 keyed).2 _ (mem_of_get? found)

theorem nodup_keys_put (distinct : ms.keys.Nodup) (key : String) (value : Json) :
    (ms.put key value).keys.Nodup := by
  by_cases mem : key ∈ ms.keys
  · rwa [keys_put_of_mem value mem]
  · rw [put_of_not_mem value mem, keys_append, keys_cons, keys_nil, ← List.concat_eq_append]
    exact distinct.concat mem

theorem mem_of_mem_put {m : String × Json} (mem : m ∈ ms.put key value) : m = (key, value) ∨ m ∈ ms := by
  induction ms with
  | nil => exact .inl (List.mem_singleton.1 mem)
  | cons p rest ih =>
      obtain ⟨k, v⟩ := p
      rw [put] at mem
      split at mem
      · rcases List.mem_cons.1 mem with rfl | inRest
        · exact .inl rfl
        · exact .inr (List.mem_cons_of_mem _ inRest)
      · rcases List.mem_cons.1 mem with rfl | inRest
        · exact .inr List.mem_cons_self
        · exact (ih inRest).imp_right (List.mem_cons_of_mem _)

theorem isKeyed_put (keyed : (Json.obj ms).isKeyed = true) (key : String)
    (valueKeyed : value.isKeyed = true) : (Json.obj (ms.put key value)).isKeyed = true := by
  rw [isKeyed_obj_iff] at keyed ⊢
  refine ⟨nodup_keys_put keyed.1 key value, fun m mem => ?_⟩
  rcases mem_of_mem_put mem with rfl | inMs
  · exact valueKeyed
  · exact keyed.2 m inMs

/-- Members set one after the other have each key once. -/
theorem isKeyed_ofPairs {pairs : List (String × Json)} (keyed : ∀ p ∈ pairs, p.2.isKeyed = true) :
    (Json.obj (ofPairs pairs)).isKeyed = true := by
  have foldl : ∀ ms : Members, (Json.obj ms).isKeyed = true →
      (Json.obj (pairs.foldl (fun ms p => Members.put ms p.1 p.2) ms)).isKeyed = true := by
    induction pairs with
    | nil => exact fun _ start => start
    | cons p pairs ih =>
        intro ms start
        rw [List.foldl_cons]
        exact ih (fun q mem => keyed q (List.mem_cons_of_mem _ mem)) _
          (isKeyed_put start p.1 (keyed p List.mem_cons_self))
  exact foldl [] rfl

/-- Members with each key once are the members that their sequence makes. -/
theorem ofPairs_eq_self {ms : Members} (distinct : ms.keys.Nodup) : ofPairs ms = ms := by
  suffices grown : ∀ done : Members, (keys (done ++ ms)).Nodup →
      ms.foldl (fun ms p => ms.put p.1 p.2) done = done ++ ms from grown [] distinct
  clear distinct
  induction ms with
  | nil => simp
  | cons p ms ih =>
      intro done distinct
      have new : p.1 ∉ done.keys := by
        rw [keys_append, List.nodup_append] at distinct
        intro mem
        exact distinct.2.2 _ mem _ (by simp) rfl
      rw [List.foldl_cons, put_of_not_mem _ new, ih _ (by simpa using distinct)]
      simp

end Members

theorem Json.isKeyed_of_at? {value node : Json} {chain : KeyChain} (keyed : value.isKeyed = true)
    (leads : value.at? chain = some node) : node.isKeyed = true := by
  induction chain generalizing value with
  | nil =>
      rw [Json.at?_nil] at leads
      cases leads
      exact keyed
  | cons key rest ih =>
      cases value with
      | obj ms =>
          rw [Json.at?_cons] at leads
          obtain ⟨child, found, onward⟩ := Option.bind_eq_some_iff.1 leads
          exact ih (Members.isKeyed_of_get? keyed found) onward
      | _ => cases leads

/-! ## What is read -/

namespace Json

theorem isKeyed_of_mem_literals : ∀ p ∈ literals, p.2.isKeyed = true := by
  decide

theorem isKeyed_of_readScalar {s rest : List Char} {value : Json}
    (reads : readScalar s = .ok (value, rest)) : value.isKeyed = true := by
  unfold readScalar at reads
  split at reads
  · rename_i r found
    cases reads
    obtain ⟨p, mem, word⟩ := List.exists_of_findSome?_eq_some found
    obtain ⟨_, _, same⟩ := Option.map_eq_some_iff.1 word
    cases same
    exact isKeyed_of_mem_literals p mem
  · unfold readNumber at reads
    grind [refuse, Json.isKeyed]

/-- The three readers call one another with less fuel, so one induction carries all of them. -/
theorem isKeyed_of_readers (halves : Halves) (fuel : Nat) :
    (∀ s value rest, readValue halves fuel s = .ok (value, rest) → value.isKeyed = true) ∧
    (∀ s items rest, readItems halves fuel s = .ok (items, rest) →
      ∀ item ∈ items, item.isKeyed = true) ∧
    (∀ s pairs rest, readMembers halves fuel s = .ok (pairs, rest) →
      ∀ p ∈ pairs, p.2.isKeyed = true) := by
  induction fuel with
  | zero => exact ⟨nofun, nofun, nofun⟩
  | succ fuel ih =>
      obtain ⟨values, items, members⟩ := ih
      refine ⟨fun s value rest reads => ?value, fun s items rest reads => ?items,
        fun s pairs rest reads => ?members⟩
      case value =>
        unfold readValue at reads
        split at reads
        · split at reads <;> cases reads
          rfl
        · split at reads
          · cases reads
            rfl
          · split at reads <;> cases reads
            rename_i read
            exact (keyedItems_iff _).2 (items _ _ _ read)
        · split at reads
          · cases reads
            rfl
          · split at reads <;> cases reads
            rename_i read
            exact Members.isKeyed_ofPairs (members _ _ _ read)
        · exact isKeyed_of_readScalar reads
      case items =>
        unfold readItems at reads
        split at reads
        · cases reads
        · rename_i item after read
          have first := values _ _ _ read
          split at reads
          · cases reads
            simpa using first
          · split at reads <;> cases reads
            rename_i more
            simpa [first] using items _ _ _ more
          · cases reads
      case members =>
        unfold readMembers at reads
        split at reads
        · split at reads
          · cases reads
          · split at reads
            · split at reads
              · cases reads
              · rename_i value after read
                have first := values _ _ _ read
                split at reads
                · cases reads
                  simpa using first
                · split at reads <;> cases reads
                  rename_i more
                  simpa [first] using members _ _ _ more
                · cases reads
            · cases reads
        · cases reads

/-- **A value that was read has each key of an object once.** -/
theorem isKeyed_of_read {text : String} {value : Json} (reads : read text = .ok value) :
    value.isKeyed = true := by
  unfold read readDocument at reads
  split at reads
  · cases reads
  · split at reads
    · cases reads
    · rename_i read
      split at reads <;> cases reads
      exact (isKeyed_of_readers _ _).1 _ _ _ read

end Json

end DesignTokens
