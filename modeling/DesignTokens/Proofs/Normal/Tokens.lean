/-
# DesignTokens.Proofs.Normal.Tokens -- no token below a group is lost

Every token that a check visits has its image in the converted document.  The image stands at the
same chain of keys without the keys of the wrappers on it (`Json.collapse`), and carries the token's
value as it was or in structured form (`Json.Becomes`).  No two tokens share an image
(`collapse_injective`).

The premise is that the root entry is a group.  A check walks the children of every root entry, but
the conversion takes an entry with a value for a token, and a token keeps no children.  So a visited
token has its image exactly if its root entry carries no value (`image_iff_of_visits`).
-/
import DesignTokens.Proofs.Normal.Chains

namespace DesignTokens

set_option autoImplicit false

/-! ## Images -/

/-- A value as it was, or a text in structured form. -/
def Json.Becomes (value value' : Json) : Prop :=
  value' = value ∨ ∃ s ms, value = .str s ∧ value' = .obj ms ∧ Normal.Structures s ms

/-- `token` stands for `value` at the end of a chain: an object whose value is that value or its
structured form. -/
def Json.HasImage (out : Json) (chain : KeyChain) (value : Json) : Prop :=
  ∃ image value', out.at? chain = some (.obj image) ∧ Members.get? image Key.value = some value' ∧
    value.Becomes value'

theorem Normal.becomes_of_convert {value value' : Json} {type type' : Option String}
    (converted : Normal.convert value type = .ok (value', type')) : value.Becomes value' := by
  cases value with
  | str s =>
      rcases convertText_cases converted with ⟨rfl, -⟩ | ⟨ms, name, reads, rfl, -⟩ | ⟨rfl, -⟩
      · exact .inl rfl
      · exact .inr ⟨s, ms, rfl, rfl, reads⟩
      · exact .inl rfl
  | _ =>
      cases converted
      exact .inl rfl

/-- A token below a group has its image in the converted group. -/
theorem hasImage_of_leads {group token : Members} {chain : KeyChain}
    (leads : group.Leads chain (.obj token)) (hasValue : token.hasValue = true)
    (noValue : group.hasValue = false) {handed : Option TokenType} {out : Json}
    (converted : (Json.obj group).normalize (handed.map TokenType.name) = .ok out) :
    out.HasImage ((Json.obj group).collapse chain) token.tokenValue := by
  obtain ⟨merged, image, tagged, made, atChain⟩ :=
    exists_token_of_leads leads hasValue noValue converted
  obtain ⟨value, type, valueConverted, rfl⟩ := (Normal.token_eq_ok_iff _ _ _).1 made
  rw [← tagged.value]
  refine ⟨_, value, atChain, ?_, Normal.becomes_of_convert valueConverted⟩
  rw [Normal.get?_assemble Normal.isExtra_of_mem_filter (by decide), if_pos rfl]

theorem not_hasImage_of_hasValue {group : Members} {chain : KeyChain} {node value : Json}
    (leads : group.Leads chain node) (hasValue : group.hasValue = true)
    {parentType : Option String} {out : Json}
    (converted : (Json.obj group).normalize parentType = .ok out) :
    ¬ out.HasImage ((Json.obj group).collapse chain) value := by
  rintro ⟨image, value', atChain, -⟩
  rw [at?_collapse_of_hasValue leads hasValue converted] at atChain
  cases atChain

theorem collapse_cons_cancel {group : Members} {key key' : String} {child child' : Json}
    {rest rest' : KeyChain} (notMeta : Key.isMeta key = false) (found : group.get? key = some child)
    (notMeta' : Key.isMeta key' = false) (found' : group.get? key' = some child')
    (same : (Json.obj group).collapse (key :: rest) = (Json.obj group).collapse (key' :: rest')) :
    key = key' ∧ child.collapse rest = child'.collapse rest' := by
  cases wrapper : group.unwrap? with
  | some inner =>
      obtain ⟨only, inside, u⟩ := Members.unwraps_of_unwrap? wrapper
      rw [Json.collapse_wrapper wrapper found, Json.collapse_wrapper wrapper found'] at same
      exact ⟨(u.key_eq notMeta found).1.trans (u.key_eq notMeta' found').1.symm, same⟩
  | none =>
      rw [Json.collapse_group wrapper found, Json.collapse_group wrapper found'] at same
      exact List.cons.inj same

/-- **Chains to different tokens are collapsed to different chains.**  Only the one key below a
wrapper is dropped, and below a token no chain goes on. -/
theorem collapse_injective {group token token' : Members} {chain chain' : KeyChain}
    (leads : group.Leads chain (.obj token)) (hasValue : token.hasValue = true)
    (leads' : group.Leads chain' (.obj token')) (hasValue' : token'.hasValue = true)
    (same : (Json.obj group).collapse chain = (Json.obj group).collapse chain') :
    chain = chain' := by
  induction chain generalizing group chain' with
  | nil => cases leads
  | cons key rest ih =>
      cases leads with
      | here notMeta found =>
          cases leads' with
          | here notMeta' found' =>
              rw [(collapse_cons_cancel notMeta found notMeta' found' same).1]
          | under notMeta' found' isGroup' =>
              obtain ⟨rfl, -⟩ := collapse_cons_cancel notMeta found notMeta' found' same
              cases found.symm.trans found'
              exact absurd (noValue_of_isGroup isGroup') (by simp [hasValue])
      | under notMeta found isGroup more =>
          cases leads' with
          | here notMeta' found' =>
              obtain ⟨rfl, -⟩ := collapse_cons_cancel notMeta found notMeta' found' same
              cases found.symm.trans found'
              exact absurd (noValue_of_isGroup isGroup) (by simp [hasValue'])
          | under notMeta' found' isGroup' more' =>
              obtain ⟨rfl, sameBelow⟩ := collapse_cons_cancel notMeta found notMeta' found' same
              cases found.symm.trans found'
              rw [ih more more' sameBelow]

/-! ## Documents -/

theorem hasImage_entry_iff {ms : Members} {name : String} {entry : Json}
    (found : ms.get? name = some entry) (chain : KeyChain) (value : Json) :
    (Json.obj ms).HasImage (name :: chain) value ↔ entry.HasImage chain value := by
  unfold Json.HasImage
  rw [Json.at?_cons, found, Option.bind_some]

/-- **A visited token has its image in the converted document exactly if its root entry carries no
value**, and no two tokens have one image. -/
theorem image_iff_of_visits {document out : Json}
    (converted : normalizeDocument document = .ok out) :
    (∀ name group below token, Visits document name group below token →
      (out.HasImage (name :: (Json.obj group).collapse below) token.tokenValue ↔
        group.hasValue = false)) ∧
    (∀ name group below token name' group' below' token',
      Visits document name group below token → Visits document name' group' below' token' →
      name :: (Json.obj group).collapse below = name' :: (Json.obj group').collapse below' →
      name :: below = name' :: below') := by
  constructor
  · intro name group below token visits
    cases document with
    | obj ms =>
        obtain ⟨entries, made, done⟩ := Fault.bind_eq_ok_iff.1 converted
        cases done
        obtain ⟨entry, found, entryMade⟩ := ((entries_eq_ok_iff _ ms entries).1 made).get? visits.get?
        rw [Normal.entry, if_pos visits.isGroup] at entryMade
        rw [hasImage_entry_iff found]
        constructor
        · intro image
          rw [Bool.eq_false_iff]
          intro hasValue
          exact not_hasImage_of_hasValue visits.leads hasValue entryMade image
        · intro noValue
          rw [groupTypeName, Option.or_none] at entryMade
          exact hasImage_of_leads visits.leads visits.hasValue noValue entryMade
    | _ => cases visits.entry
  · intro name group below token name' group' below' token' visits visits' same
    obtain ⟨rfl, sameBelow⟩ := List.cons.inj same
    cases visits.entry.symm.trans visits'.entry
    rw [collapse_injective visits.leads visits.hasValue visits'.leads visits'.hasValue sameBelow]

namespace Example

/-- The token under the wrapper's child stands one level higher, with its dimension spelled out. -/
theorem wrappedSizes_image :
    Visits (.obj [("sizes", .obj wrappedSizes)]) "sizes" wrappedSizes ["base", "default"]
        [("value", .str "2rem"), ("type", .null), ("description", .str "root")] ∧
      (Json.obj wrappedSizes).collapse ["base", "default"] = ["default"] ∧
      (Json.obj [("sizes", .obj structuredSizes)]).HasImage ["sizes", "default"] (.str "2rem") := by
  have visits : Visits (.obj [("sizes", .obj wrappedSizes)]) "sizes" wrappedSizes ["base", "default"]
      [("value", .str "2rem"), ("type", .null), ("description", .str "root")] :=
    ⟨rfl, by decide, .under (by decide) rfl (by decide) (.here (by decide) rfl), by decide⟩
  exact ⟨visits, rfl, ((image_iff_of_visits normalize_wrappedSizes).1 _ _ _ _ visits).2 (by decide)⟩

/-- A root entry with a value, and a token beside the value. -/
def valuedEntry : Members :=
  [("$value", .int 1), ("accent", .obj [("$value", .int 2)])]

/-- **The conversion drops the token**: a check visits it, but it has no image. -/
theorem valuedEntry_loses_token :
    Visits (.obj [("colors", .obj valuedEntry)]) "colors" valuedEntry ["accent"] [("$value", .int 2)] ∧
      normalizeDocument (.obj [("colors", .obj valuedEntry)]) =
        .ok (.obj [("colors", .obj [("$value", .int 1), ("$type", .str "opacity")])]) ∧
      (Json.obj [("colors", .obj [("$value", .int 1), ("$type", .str "opacity")])]).at?
        ("colors" :: (Json.obj valuedEntry).collapse ["accent"]) = none := by
  have entry : Normal.entry none "colors" (.obj valuedEntry) =
      .ok (.obj [("$value", .int 1), ("$type", .str "opacity")]) :=
    normalize_token rfl rfl none
  have entries : Normal.entries none [("colors", .obj valuedEntry)] =
      .ok [("colors", .obj [("$value", .int 1), ("$type", .str "opacity")])] :=
    (entries_eq_ok_iff _ _ _).2 (.cons ⟨rfl, entry⟩ .nil)
  refine ⟨⟨rfl, by decide, .here (by decide) rfl, by decide⟩, ?_, rfl⟩
  show (do return Json.obj (← Normal.entries none _)) = _
  rw [entries]
  rfl

end Example

end DesignTokens
