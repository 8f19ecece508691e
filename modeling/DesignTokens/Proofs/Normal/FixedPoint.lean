/-
# DesignTokens.Proofs.Normal.FixedPoint -- structured form is final

A document in structured form is converted to itself (`normalizeDocument_idem`), whatever mixture of
groups, lists, wrappers, older keys and bare values it was made from.

The argument follows the recursion of the conversion.  A token is rebuilt from the same four parts,
because its value is either structured or a text that its type leaves alone (`convert_spec`), and
because the type found the second time is the one written the first time (`typeOf_assemble`).  A
group keeps its keys, hence it is neither wrapper nor token, and it hands down the same type.  A
wrapper is gone.

The type is where the premise comes in.  A tag that is no text hides the type handed down from
above, and is left out; the second time nothing hides it.  `Json.wellTagged` rules such tags out,
and unwrapping keeps it (`wellTagged_unwraps`), since a wrapper's metadata is that of a tree which
meets it.
-/
import DesignTokens.Proofs.Normal.Basic

namespace DesignTokens

set_option autoImplicit false

/-! ## Tags that are texts -/

/-- A type tag is a text, or null where there is none. -/
def Json.isTag : Json → Bool
  | .null => true
  | .str _ => true
  | _ => false

/-- Whether a member is no tag, or one that is a text or null.  The older key holds a tag only
beside a value. -/
def tagFits (besideValue : Bool) (key : String) (value : Json) : Bool :=
  if key == Key.type || (besideValue && key == Key.legacyType) then value.isTag else true

mutual

/-- Whether every tag in a tree is a text or null. -/
def Json.wellTagged : Json → Bool
  | .arr items => wellTaggedItems items
  | .obj ms => wellTaggedMembers (Members.hasValue ms) ms
  | _ => true

def wellTaggedItems : List Json → Bool
  | [] => true
  | item :: items => item.wellTagged && wellTaggedItems items

def wellTaggedMembers (besideValue : Bool) : List (String × Json) → Bool
  | [] => true
  | (key, value) :: rest =>
      tagFits besideValue key value && value.wellTagged && wellTaggedMembers besideValue rest

end

theorem wellTaggedItems_iff (items : List Json) :
    wellTaggedItems items = true ↔ ∀ item ∈ items, item.wellTagged = true := by
  induction items with
  | nil => simp [wellTaggedItems]
  | cons item items ih => simp [wellTaggedItems, ih]

theorem wellTaggedMembers_iff (besideValue : Bool) (ms : Members) :
    wellTaggedMembers besideValue ms = true ↔
      ∀ m ∈ ms, tagFits besideValue m.1 m.2 = true ∧ m.2.wellTagged = true := by
  induction ms with
  | nil => simp [wellTaggedMembers]
  | cons m ms ih =>
      obtain ⟨key, value⟩ := m
      simp [wellTaggedMembers, ih]

theorem wellTagged_obj_iff (ms : Members) :
    (Json.obj ms).wellTagged = true ↔
      ∀ m ∈ ms, tagFits ms.hasValue m.1 m.2 = true ∧ m.2.wellTagged = true := by
  rw [Json.wellTagged, wellTaggedMembers_iff]

/-- A bare value is well tagged as the token it stands for. -/
theorem wellTagged_asNode {child : Json} (tagged : child.wellTagged = true) :
    child.asNode.wellTagged = true := by
  rw [Json.asNode]
  split
  · rw [wellTagged_obj_iff]
    intro m mem
    cases List.mem_singleton.1 mem
    exact ⟨by simp [tagFits, Key.value, Key.type, Key.legacyType], tagged⟩
  · exact tagged

theorem wellTagged_ofValue {child : Json} (tagged : child.wellTagged = true) :
    ∀ m ∈ Members.ofValue child,
      tagFits (Members.ofValue child).hasValue m.1 m.2 = true ∧ m.2.wellTagged = true := by
  cases child with
  | obj ms => exact (wellTagged_obj_iff ms).1 tagged
  | _ =>
      intro m mem
      cases List.mem_singleton.1 mem
      exact ⟨by simp [tagFits, Key.value, Key.type, Key.legacyType], tagged⟩

/-- A tag that fits beside no value fits beside one, if it stands under metadata. -/
theorem tagFits_of_isMeta {key : String} {value : Json} (isMeta : Key.isMeta key = true)
    {besideValue : Bool} (fits : tagFits besideValue key value = true) (besideOther : Bool) :
    tagFits besideOther key value = true := by
  have notLegacy : (key == Key.legacyType) = false := by
    rw [beq_eq_false_iff_ne]
    rintro rfl
    exact absurd isMeta (by decide)
  simpa [tagFits, notLegacy] using fits

theorem wellTagged_unwraps {ms inner : Members} {key : String} {child : Json}
    (u : Members.Unwraps ms key child inner) (tagged : (Json.obj ms).wellTagged = true) :
    (Json.obj inner).wellTagged = true := by
  rw [wellTagged_obj_iff] at tagged ⊢
  have childTagged := wellTagged_ofValue (tagged _ u.mem_child.1).2
  intro m mem
  rcases u.mem mem with inChild | ⟨inMs, isMeta⟩
  · rw [u.hasValue_eq]
    exact childTagged m inChild
  · exact ⟨tagFits_of_isMeta isMeta (tagged m inMs).1 _, (tagged m inMs).2⟩

/-! ## Tokens -/

namespace Normal

/-- Converting again changes nothing, and a type that is none or empty has not been touched. -/
theorem convert_spec {value value' : Json} {type type' : Option String}
    (converted : convert value type = .ok (value', type')) :
    convert value' type' = .ok (value', type') ∧
      ((value' = value ∧ type' = type) ∨ ∃ name, type' = some name ∧ name.isEmpty = false) := by
  cases value with
  | str s =>
      rcases convertText_cases converted with
        ⟨rfl, rfl⟩ | ⟨ms, name, -, rfl, rfl, given⟩ | ⟨rfl, rfl, again⟩
      · exact ⟨converted, .inl ⟨rfl, rfl⟩⟩
      · exact ⟨rfl, .inr ⟨name, rfl, given⟩⟩
      · exact ⟨again, .inr ⟨_, rfl, by decide⟩⟩
  | _ =>
      cases converted
      exact ⟨rfl, .inl ⟨rfl, rfl⟩⟩

theorem firstGiven?_eq_some {ms : Members} {key legacy : String} {value : Json}
    (first : firstGiven? ms key legacy = some value) :
    (ms.get? key = some value ∨ ms.get? legacy = some value) ∧ value.isGiven = true := by
  unfold firstGiven? at first
  rcases Option.or_eq_some_iff.1 first with found | ⟨-, found⟩
  · obtain ⟨found, given⟩ := Option.filter_eq_some_iff.1 found
    exact ⟨.inl found, given⟩
  · obtain ⟨found, given⟩ := Option.filter_eq_some_iff.1 found
    exact ⟨.inr found, given⟩

/-- Where the older key is absent and the current one is given if it is there, it is what is read. -/
theorem firstGiven?_of_get? {ms : Members} {key legacy : String} {value : Option Json}
    (found : ms.get? key = value) (given : ∀ v, value = some v → v.isGiven = true)
    (absent : ms.get? legacy = none) : firstGiven? ms key legacy = value := by
  unfold firstGiven?
  rw [found, absent, Option.filter_none, Option.or_none]
  cases value with
  | none => rfl
  | some v => rw [Option.filter_some, if_pos (given v rfl)]

/-- A well-tagged token either has a tag of its own, or takes the type handed down or suggested. -/
theorem typeOf_cases {ms : Members} (tagged : (Json.obj ms).wellTagged = true)
    (hasValue : ms.hasValue = true) (parentType : Option String) :
    (∃ name, typeOf ms parentType = some name ∧ name.isEmpty = false) ∨
      typeOf ms parentType =
        parentType.or ((TokenType.infer? ms.tokenValue).map TokenType.name) := by
  rw [wellTagged_obj_iff, hasValue] at tagged
  unfold typeOf
  cases own : firstGiven? ms Key.type Key.legacyType with
  | none => exact .inr rfl
  | some tag =>
      left
      obtain ⟨found, given⟩ := firstGiven?_eq_some own
      have isTag : tag.isTag = true := by
        rcases found with found | found
        · simpa [tagFits] using (tagged _ (Members.mem_of_get? found)).1
        · simpa [tagFits] using (tagged _ (Members.mem_of_get? found)).1
      cases tag with
      | str name => exact ⟨name, rfl, by simpa [Json.isGiven] using given⟩
      | null => cases given
      | _ => cases isTag

variable {value : Json} {type : Option String} {description : Option Json} {extras : Members}

/-- The tag of a token in structured form is the type it was given. -/
theorem typeOf_assemble (allExtra : ∀ m ∈ extras, isExtra m.1 = true) (parentType : Option String) :
    typeOf (assemble value type description extras) parentType =
      (type.filter fun t => !t.isEmpty).or
        (parentType.or ((TokenType.infer? value).map TokenType.name)) := by
  have current : (assemble value type description extras).get? Key.type =
      (type.filter fun t => !t.isEmpty).map .str := get?_type_assemble allExtra
  have legacy : (assemble value type description extras).get? Key.legacyType = none := by
    rw [get?_assemble allExtra (by decide)]
    simp [Key.legacyType, Key.value, Key.type, Key.description]
  have given : ∀ v, (type.filter fun t => !t.isEmpty).map Json.str = some v → v.isGiven = true := by
    intro v found
    obtain ⟨name, kept, rfl⟩ := Option.map_eq_some_iff.1 found
    exact (Option.filter_eq_some_iff.1 kept).2
  rw [typeOf, firstGiven?_of_get? current given legacy, (tokenValue_assemble allExtra).2]
  cases type.filter fun t => !t.isEmpty with
  | none => rfl
  | some name => rfl

/-- **A token in structured form is its own structured form.** -/
theorem token_fixed {ms out : Members} {parentType : Option String}
    (tagged : (Json.obj ms).wellTagged = true) (hasValue : ms.hasValue = true)
    (converted : token ms parentType = .ok out) : token out parentType = .ok out := by
  obtain ⟨value, type, valueConverted, rfl⟩ := (token_eq_ok_iff ms parentType out).1 converted
  have allExtra := @isExtra_of_mem_filter ms
  obtain ⟨again, kept⟩ := convert_spec valueConverted
  have sameType : typeOf (assemble value type
      (firstGiven? ms Key.description Key.legacyDescription) (ms.filter fun m => isExtra m.1))
        parentType = type := by
    rw [typeOf_assemble allExtra]
    rcases kept with ⟨rfl, rfl⟩ | ⟨name, rfl, given⟩
    · rcases typeOf_cases tagged hasValue parentType with ⟨name, own, given⟩ | handed
      · rw [own]
        simp [given]
      · rw [← handed]
        cases typeOf ms parentType with
        | none => rfl
        | some name => by_cases empty : name.isEmpty = true <;> simp [Option.filter, empty]
    · simp [given]
  have sameDescription : firstGiven? (assemble value type
      (firstGiven? ms Key.description Key.legacyDescription) (ms.filter fun m => isExtra m.1))
        Key.description Key.legacyDescription =
      firstGiven? ms Key.description Key.legacyDescription := by
    refine firstGiven?_of_get? ?_ (fun v first => (firstGiven?_eq_some first).2) ?_
    · rw [get?_assemble allExtra (by decide)]
      simp [Key.description, Key.value, Key.type]
    · rw [get?_assemble allExtra (by decide)]
      simp [Key.legacyDescription, Key.value, Key.type, Key.description]
  refine (token_eq_ok_iff _ _ _).2 ⟨value, type, ?_, ?_⟩
  · rw [(tokenValue_assemble allExtra).2, sameType, again]
  · rw [sameDescription, filter_isExtra_assemble allExtra]

end Normal

/-! ## Trees -/

theorem groupTypeName_congr {a b : Members} (same : a.get? Key.type = b.get? Key.type)
    (parentType : Option String) : groupTypeName a parentType = groupTypeName b parentType := by
  rw [groupTypeName, groupTypeName, Members.groupType?, Members.groupType?, same]

theorem normalizeMember_type {parentType : Option String} {tag tag' : Json}
    (made : normalizeMember parentType Key.type tag = .ok tag') : tag' = tag := by
  rw [normalizeMember, if_pos (by decide)] at made
  cases made
  rfl

/-- A member of a group is converted to itself once what it is converted as has become final. -/
theorem normalizeMember_fixed {parentType : Option String} {key : String} {child first : Json}
    (final : Key.isMeta key = false → first.normalize parentType = .ok first)
    (made : normalizeMember parentType key child = .ok first) :
    normalizeMember parentType key first = .ok first := by
  unfold normalizeMember at made ⊢
  cases isMeta : Key.isMeta key with
  | true => rfl
  | false =>
      rw [isMeta] at made
      rw [asNode_of_not_isBare (isBare_normalize made (isBare_asNode child))]
      exact final isMeta

/-- **Structured form is a fixed point**, under the type that was handed down. -/
theorem normalize_fixed {parentType : Option String} {node out : Json}
    (tagged : node.wellTagged = true) (converted : node.normalize parentType = .ok out) :
    out.normalize parentType = .ok out := by
  induction parentType, node using normalize_induction generalizing out with
  | list parentType items ih =>
      rw [Json.normalize] at converted
      obtain ⟨items', made, done⟩ := Fault.bind_eq_ok_iff.1 converted
      cases done
      have final : normalizeItems parentType items' = .ok items' := by
        refine (normalizeItems_eq_ok_iff parentType items' items').2 (List.forall₂_same.2 ?_)
        intro item' mem
        obtain ⟨item, inItems, itemMade⟩ :=
          exists_left_of_forall₂ ((normalizeItems_eq_ok_iff parentType items items').1 made) mem
        exact ih item inItems ((wellTaggedItems_iff items).1 tagged item inItems) itemMade
      rw [Json.normalize, final]
      rfl
  | wrapper parentType ms inner wrapper ih =>
      obtain ⟨key, child, u⟩ := Members.unwraps_of_unwrap? wrapper
      rw [normalize_wrapper wrapper] at converted
      exact ih (wellTagged_unwraps u tagged) converted
  | token parentType ms noWrapper hasValue =>
      rw [normalize_token noWrapper hasValue] at converted
      obtain ⟨token, made, rfl⟩ := Fault.map_eq_ok_iff.1 converted
      have stays := Normal.hasValue_token made
      rw [normalize_token (Members.unwrap?_of_hasValue stays) stays,
        Normal.token_fixed tagged hasValue made]
      rfl
  | group parentType ms noWrapper noValue ih =>
      rw [normalize_group noWrapper noValue] at converted
      obtain ⟨group, made, rfl⟩ := Fault.map_eq_ok_iff.1 converted
      have paired := (normalizeMembers_eq_ok_iff _ ms group).1 made
      have final : normalizeMembers (groupTypeName ms parentType) group = .ok group := by
        refine (normalizeMembers_eq_ok_iff _ group group).2 (paired.right_self ?_)
        intro key child first mem firstMade
        refine normalizeMember_fixed (fun notMeta => ?_) firstMade
        rw [normalizeMember, notMeta] at firstMade
        have childTagged := ((wellTagged_obj_iff ms).1 tagged (key, child) mem).2
        exact ih (key, child) mem notMeta (wellTagged_asNode childTagged) firstMade
      rw [normalize_group (Members.unwrap?_eq_none_congr paired.keys_eq noWrapper)
          ((Members.hasValue_congr paired.keys_eq).trans noValue),
        groupTypeName_congr (paired.get?_eq fun _ _ => normalizeMember_type), final]
      rfl
  | scalar parentType value noList noObject =>
      have same := normalize_scalar noList noObject parentType
      rw [same] at converted
      cases converted
      exact same

/-! ## Documents -/

/-- **Converting a converted document gives that document**, key order included: whatever it was
made from, as long as its type tags were texts or null. -/
theorem normalizeDocument_idem {document normal : Json} (tagged : document.wellTagged = true)
    (converted : normalizeDocument document = .ok normal) :
    normalizeDocument normal = .ok normal := by
  cases document with
  | obj ms =>
      obtain ⟨out, made, done⟩ := Fault.bind_eq_ok_iff.1 converted
      cases done
      have paired := (entries_eq_ok_iff _ ms out).1 made
      have sameType : groupTypeName out none = groupTypeName ms none := by
        refine groupTypeName_congr (paired.get?_eq fun tag tag' entry => ?_) none
        cases entry
        rfl
      have final : Normal.entries (groupTypeName ms none) out = .ok out := by
        refine (entries_eq_ok_iff _ out out).2 (paired.right_self ?_)
        intro name value value' mem entry
        unfold Normal.entry at entry ⊢
        split at entry
        · rename_i isGroup
          have valueTagged := ((wellTagged_obj_iff ms).1 tagged (name, value) mem).2
          split
          · exact normalize_fixed valueTagged entry
          · rfl
        · rename_i noGroup
          cases entry
          rw [if_neg noGroup]
      show (do return Json.obj (← Normal.entries (groupTypeName out none) out)) = _
      rw [sameType, final]
      rfl
  | _ =>
      cases converted
      rfl

namespace Example

/-- The wrapper is gone after one conversion, and the next one finds nothing to do. -/
theorem wrappedSizes_settle :
    (Json.obj [("sizes", .obj wrappedSizes)]).wellTagged = true ∧
      normalizeDocument (.obj [("sizes", .obj wrappedSizes)]) =
        .ok (.obj [("sizes", .obj structuredSizes)]) ∧
      normalizeDocument (.obj [("sizes", .obj structuredSizes)]) =
        .ok (.obj [("sizes", .obj structuredSizes)]) :=
  ⟨by decide, normalize_wrappedSizes, normalizeDocument_idem (by decide) normalize_wrappedSizes⟩

end Example

end DesignTokens
