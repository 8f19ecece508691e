/-
# DesignTokens.Proofs.Normal.Keyed -- structured form has each key once

The conversion joins members, filters them and puts new ones in front, and none of this lets an
object carry a key twice that did not before: a converted document can be looked up key by key as
the document could (`isKeyed_normalizeDocument`).

The steps follow the conversion.  Joining metadata on sets only keys that are absent
(`isKeyed_join`), a structured colour or dimension has four fixed keys at most
(`isKeyed_of_structures`), the four parts of a token have different keys (`isKeyed_token`), and a
group keeps its keys.
-/
import DesignTokens.Proofs.Json.Keyed
import DesignTokens.Proofs.Normal.Basic
import DesignTokens.Proofs.Normal.Colour

namespace DesignTokens

set_option autoImplicit false

/-! ## Wrappers -/

namespace Members

theorem isKeyed_putNew {ms : Members} (keyed : (Json.obj ms).isKeyed = true) (key : String)
    {value : Json} (valueKeyed : value.isKeyed = true) :
    (Json.obj (ms.putNew key value)).isKeyed = true := by
  unfold putNew
  split
  · exact keyed
  · exact isKeyed_put keyed key valueKeyed

theorem isKeyed_join {ms extra : Members} (keyed : (Json.obj ms).isKeyed = true)
    (extraKeyed : ∀ m ∈ extra, m.2.isKeyed = true) : (Json.obj (ms.join extra)).isKeyed = true := by
  induction extra generalizing ms with
  | nil => exact keyed
  | cons m extra ih =>
      exact ih (isKeyed_putNew keyed m.1 (extraKeyed m List.mem_cons_self))
        fun x mem => extraKeyed x (List.mem_cons_of_mem _ mem)

theorem isKeyed_ofValue {value : Json} (keyed : value.isKeyed = true) :
    (Json.obj (ofValue value)).isKeyed = true := by
  cases value with
  | obj ms => exact keyed
  | _ => simpa [ofValue, isKeyed_obj_iff] using keyed

theorem Unwraps.isKeyed {ms inner : Members} {key : String} {child : Json}
    (u : Unwraps ms key child inner) (keyed : (Json.obj ms).isKeyed = true) :
    (Json.obj inner).isKeyed = true := by
  have parts := ((isKeyed_obj_iff ms).1 keyed).2
  rw [u.inner_eq]
  exact isKeyed_join (isKeyed_ofValue (parts _ u.mem_child.1)) fun m mem => parts m (mem_metadata mem).1

end Members

theorem Json.isKeyed_asNode {child : Json} (keyed : child.isKeyed = true) :
    child.asNode.isKeyed = true := by
  rw [Json.asNode]
  split
  · simpa [isKeyed_obj_iff] using keyed
  · exact keyed

/-! ## Values -/

namespace Colour

theorem isKeyed_object (red green blue : Nat) (hex : List Char) (alpha : Option Binary64) :
    (Json.obj (object red green blue hex (alpha.map .float))).isKeyed = true := by
  have channels : keyedItems [channel red, channel green, channel blue] = true := rfl
  cases alpha with
  | none => simp [object, Json.isKeyed, keyedMembers, channels]
  | some a => simp [object, Json.isKeyed, keyedMembers, channels]

theorem isKeyed_of_ofHex? {s : List Char} {ms : Members} (reads : ofHex? s = .ok (some ms)) :
    (Json.obj ms).isKeyed = true := by
  obtain ⟨red, green, blue, hex, alpha, rfl, -⟩ := exists_object_of_ofHex? reads
  exact isKeyed_object red green blue hex alpha

theorem isKeyed_of_ofFunction? {s : List Char} {ms : Members}
    (reads : ofFunction? s = .ok (some ms)) : (Json.obj ms).isKeyed = true := by
  obtain ⟨_, alpha, -, -, -, rfl⟩ := exists_object_of_ofFunction? reads
  exact isKeyed_object _ _ _ _ alpha

end Colour

theorem Dimension.isKeyed_of_ofText? {s : List Char} {ms : Members}
    (reads : Dimension.ofText? s = some ms) : (Json.obj ms).isKeyed = true := by
  unfold Dimension.ofText? at reads
  split at reads
  · obtain ⟨x, -, rfl⟩ := Option.map_eq_some_iff.1 reads
    have number : (Dimension.ofDouble x).isKeyed = true := by
      unfold Dimension.ofDouble
      split <;> rfl
    simp [Json.isKeyed, keyedMembers, number]
  · cases reads

namespace Normal

theorem isKeyed_of_structures {s : String} {ms : Members} (structures : Structures s ms) :
    (Json.obj ms).isKeyed = true := by
  rcases structures with hex | function | dimension
  · exact Colour.isKeyed_of_ofHex? hex
  · exact Colour.isKeyed_of_ofFunction? function
  · exact Dimension.isKeyed_of_ofText? dimension

theorem isKeyed_convert {value value' : Json} {type type' : Option String}
    (converted : convert value type = .ok (value', type')) (keyed : value.isKeyed = true) :
    value'.isKeyed = true := by
  cases value with
  | str s =>
      rcases convertText_cases converted with ⟨rfl, -⟩ | ⟨ms, name, reads, rfl, -⟩ | ⟨rfl, -⟩
      · exact keyed
      · exact isKeyed_of_structures reads
      · exact keyed
  | _ =>
      cases converted
      exact keyed

/-! ## Tokens -/

theorem isKeyed_tokenValue {ms : Members} (keyed : (Json.obj ms).isKeyed = true) :
    ms.tokenValue.isKeyed = true := by
  rw [Members.tokenValue_eq]
  cases found : (ms.get? Key.value).or (ms.get? Key.legacyValue) with
  | none => rfl
  | some value =>
      rcases Option.or_eq_some_iff.1 found with current | ⟨-, legacy⟩
      · exact Members.isKeyed_of_get? keyed current
      · exact Members.isKeyed_of_get? keyed legacy

theorem keys_optional (key : String) (given : Option Json) :
    (optional key given).keys = if given.isSome then [key] else [] := by
  cases given <;> rfl

/-- The parts of a token in structured form have different keys. -/
theorem isKeyed_assemble {value : Json} {type : Option String} {description : Option Json}
    {extras : Members} (valueKeyed : value.isKeyed = true)
    (descriptionKeyed : ∀ text, description = some text → text.isKeyed = true)
    (extrasKeyed : (Json.obj extras).isKeyed = true) (allExtra : ∀ m ∈ extras, isExtra m.1 = true) :
    (Json.obj (assemble value type description extras)).isKeyed = true := by
  obtain ⟨distinct, parts⟩ := (isKeyed_obj_iff extras).1 extrasKeyed
  have apart (key : String) (notExtra : isExtra key = false) : key ∉ extras.keys :=
    (Members.get?_eq_none_iff extras key).1 (get?_extras allExtra notExtra)
  have ne : Key.value ≠ Key.type ∧ Key.value ≠ Key.description ∧ Key.type ≠ Key.description := by
    decide
  rw [isKeyed_obj_iff]
  constructor
  · rw [assemble, Members.keys_append, Members.keys_append, Members.keys_append, keys_optional,
      keys_optional]
    have noValue := apart Key.value (by decide)
    have noType := apart Key.type (by decide)
    have noDescription := apart Key.description (by decide)
    cases (type.filter fun t => !t.isEmpty).map Json.str <;> cases description <;>
      simp [distinct, ne, noValue, noType, noDescription]
  · intro m mem
    simp only [assemble, List.mem_append, List.mem_singleton] at mem
    rcases mem with ((rfl | isType) | isDescription) | isExtra_
    · exact valueKeyed
    · cases given : (type.filter fun t => !t.isEmpty) with
      | none =>
          rw [given] at isType
          cases isType
      | some name =>
          rw [given] at isType
          rw [List.mem_singleton.1 isType]
          rfl
    · cases description with
      | none => cases isDescription
      | some text =>
          rw [List.mem_singleton.1 isDescription]
          exact descriptionKeyed text rfl
    · exact parts m isExtra_

theorem isKeyed_token {ms out : Members} {parentType : Option String}
    (keyed : (Json.obj ms).isKeyed = true) (converted : token ms parentType = .ok out) :
    (Json.obj out).isKeyed = true := by
  obtain ⟨value, type, valueConverted, rfl⟩ := (token_eq_ok_iff ms parentType out).1 converted
  obtain ⟨distinct, parts⟩ := (isKeyed_obj_iff ms).1 keyed
  refine isKeyed_assemble (isKeyed_convert valueConverted (isKeyed_tokenValue keyed))
    (fun text first => ?_) ((isKeyed_obj_iff _).2 ⟨?_, fun m mem => ?_⟩) isExtra_of_mem_filter
  · unfold firstGiven? at first
    rcases Option.or_eq_some_iff.1 first with found | ⟨-, found⟩
    · exact Members.isKeyed_of_get? keyed (Option.filter_eq_some_iff.1 found).1
    · exact Members.isKeyed_of_get? keyed (Option.filter_eq_some_iff.1 found).1
  · exact distinct.sublist (List.filter_sublist.map _)
  · exact parts m (List.mem_filter.1 mem).1

end Normal

/-! ## Trees and documents -/

theorem isKeyed_paired {R : String → Json → Json → Prop} {ms out : Members}
    (paired : Members.Paired R ms out) (keyed : (Json.obj ms).isKeyed = true)
    (kept : ∀ key value value', (key, value) ∈ ms → R key value value' → value'.isKeyed = true) :
    (Json.obj out).isKeyed = true := by
  rw [isKeyed_obj_iff, paired.keys_eq]
  refine ⟨((isKeyed_obj_iff ms).1 keyed).1, fun m mem => ?_⟩
  obtain ⟨value, inMs, related⟩ := paired.exists_left mem
  exact kept _ _ _ inMs related

theorem isKeyed_normalize {parentType : Option String} {node out : Json}
    (keyed : node.isKeyed = true) (converted : node.normalize parentType = .ok out) :
    out.isKeyed = true := by
  induction parentType, node using normalize_induction generalizing out with
  | list parentType items ih =>
      rw [Json.normalize] at converted
      obtain ⟨items', made, done⟩ := Fault.bind_eq_ok_iff.1 converted
      cases done
      refine (keyedItems_iff items').2 fun item' mem => ?_
      obtain ⟨item, inItems, itemMade⟩ :=
        exists_left_of_forall₂ ((normalizeItems_eq_ok_iff parentType items items').1 made) mem
      exact ih item inItems ((keyedItems_iff items).1 keyed item inItems) itemMade
  | wrapper parentType ms inner wrapper ih =>
      obtain ⟨key, child, u⟩ := Members.unwraps_of_unwrap? wrapper
      rw [normalize_wrapper wrapper] at converted
      exact ih (u.isKeyed keyed) converted
  | token parentType ms noWrapper hasValue =>
      rw [normalize_token noWrapper hasValue] at converted
      obtain ⟨token, made, rfl⟩ := Fault.map_eq_ok_iff.1 converted
      exact Normal.isKeyed_token keyed made
  | group parentType ms noWrapper noValue ih =>
      rw [normalize_group noWrapper noValue] at converted
      obtain ⟨group, made, rfl⟩ := Fault.map_eq_ok_iff.1 converted
      refine isKeyed_paired ((normalizeMembers_eq_ok_iff _ ms group).1 made) keyed ?_
      intro key child child' mem childMade
      have childKeyed := ((isKeyed_obj_iff ms).1 keyed).2 (key, child) mem
      unfold normalizeMember at childMade
      cases isMeta : Key.isMeta key with
      | true =>
          rw [if_pos isMeta] at childMade
          cases childMade
          exact childKeyed
      | false =>
          rw [if_neg (by simp [isMeta])] at childMade
          exact ih (key, child) mem isMeta (Json.isKeyed_asNode childKeyed) childMade
  | scalar parentType value noList noObject =>
      rw [normalize_scalar noList noObject parentType] at converted
      cases converted
      exact keyed

/-- **A converted document has each key of an object once**, as the document has. -/
theorem isKeyed_normalizeDocument {document out : Json} (keyed : document.isKeyed = true)
    (converted : normalizeDocument document = .ok out) : out.isKeyed = true := by
  cases document with
  | obj ms =>
      obtain ⟨entries, rfl, paired⟩ := (normalizeDocument_obj_eq_ok_iff ms out).1 converted
      refine isKeyed_paired paired keyed ?_
      intro name value value' mem entryMade
      have valueKeyed := ((isKeyed_obj_iff ms).1 keyed).2 (name, value) mem
      unfold Normal.entry at entryMade
      split at entryMade
      · exact isKeyed_normalize valueKeyed entryMade
      · cases entryMade
        exact valueKeyed
  | _ =>
      cases converted
      exact keyed

end DesignTokens
