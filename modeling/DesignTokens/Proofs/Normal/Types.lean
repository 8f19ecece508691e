/-
# DesignTokens.Proofs.Normal.Types -- the type a token has after the conversion

A check resolves the type of a token along its chain of keys: its own tag, else the nearest known
type named above it, else what its value suggests.  The conversion resolves it from what is passed to
the token (`Json.passed`), the type that the groups above hand down and the tag of the wrappers that
have just given way.  That tag becomes the token's own if it has none, so a wrapper does more than
hand a type down.  It tags the token even where its tag is unknown, it goes before an older tag of the
token, and it is hidden by an unknown tag of the group it wraps.

A type that is told outlives the conversion of the value (`Normal.type_of_convert`).  So a visited
token keeps the type that a check resolves exactly if its root entry carries no value and what is
passed to it gives that type (`carriesType_iff_of_visits`), as it does wherever no wrapper on the way
is tagged (`Json.Untagged.passed_eq`).
-/
import DesignTokens.Proofs.Normal.Chains
import DesignTokens.Proofs.Text.Blank
import DesignTokens.Proofs.Validation.Types

namespace DesignTokens

set_option autoImplicit false

/-! ## Values -/

namespace Spelling

/-- What `rgb?` reads starts as a colour function does. -/
theorem isColourFunction_of_rgb? {s : List Char} {arguments : RgbArguments}
    (reads : rgb? s = some arguments) : isColourFunction s = true := by
  unfold rgb? at reads
  obtain ⟨rest, head, -⟩ := Option.bind_eq_some_iff.1 reads
  rw [isColourFunction]
  unfold afterHead? at head ⊢
  rw [show ["rgb(", "rgba(", "hsl(", "hsla("] = ["rgb(", "rgba("] ++ ["hsl(", "hsla("] from rfl,
    List.findSome?_append, head]
  rfl

end Spelling

namespace Normal

theorem type_of_convertDimension {s : String} {name : String} {value' : Json} {type' : Option String}
    (converted : convertDimension s (some name) = (value', type')) : type' = some name := by
  unfold convertDimension at converted
  split at converted
  · split at converted <;> cases converted <;> rfl
  · cases converted
    rfl

/-- A type that is told stays as it is, whatever becomes of the value. -/
theorem type_of_convert {value value' : Json} {name : String} {type' : Option String}
    (converted : convert value (some name) = .ok (value', type')) : type' = some name := by
  cases value with
  | str s =>
      rw [convert, convertText] at converted
      split at converted
      · rename_i isColour
        have colour : name = TokenType.color.name := by simpa using isColour
        rw [← colour] at converted
        split at converted
        · obtain ⟨read, -, done⟩ := Fault.bind_eq_ok_iff.1 converted
          cases read <;> cases done <;> rfl
        · obtain ⟨read, -, done⟩ := Fault.bind_eq_ok_iff.1 converted
          cases read with
          | some ms =>
              cases done
              rfl
          | none => exact type_of_convertDimension (Except.ok.inj done)
      · exact type_of_convertDimension (Except.ok.inj converted)
  | _ =>
      cases converted
      rfl

/-- A value that suggests no type is not taken for a colour or a dimension either. -/
theorem type_of_convert_none {value value' : Json} {type' : Option String}
    (unknown : TokenType.infer? value = none)
    (converted : convert value none = .ok (value', type')) : type' = none := by
  cases value with
  | str s =>
      rw [TokenType.infer?, TokenType.inferText?] at unknown
      split at unknown
      · cases unknown
      · rename_i noColour
        split at unknown
        · cases unknown
        · rename_i noDimension
          rw [TokenType.looksLikeColour, Bool.or_eq_true, not_or, beq_iff_eq] at noColour
          have noHash : s.toList.head? ≠ some '#' :=
            fun hash => noColour.1 (Text.head?_trim hash (by decide))
          have noFunction : Spelling.rgb? (Text.trim s.toList) = none :=
            Option.eq_none_iff_forall_ne_some.2 fun _ reads =>
              noColour.2 (Spelling.isColourFunction_of_rgb? reads)
          have noText : Dimension.ofText? s.toList = none := by
            rw [Option.isSome_iff_ne_none, not_not] at noDimension
            rw [Dimension.ofText?, noDimension]
          rw [convert, convertText] at converted
          simp only [Option.all_none, if_true, if_neg noHash, Colour.ofFunction?, noFunction,
            convertDimension, noText] at converted
          cases converted
          rfl
  | _ =>
      cases converted
      rfl

end Normal

/-! ## The type of an image -/

/-- The type that the conversion gives to a token, known or not. -/
def Members.typeGiven (token : Members) (p : Passed) : Option String :=
  let tag := (((token.get? Key.type).or p.tag).filter Json.isGiven).or
    ((token.get? Key.legacyType).filter Json.isGiven)
  let told :=
    match tag with
    | some (.str name) => some name
    | some _ => none
    | none => p.handed.map TokenType.name
  told.or ((TokenType.infer? token.tokenValue).map TokenType.name)

theorem Members.TaggedBy.typeOf_eq {merged token : Members} {p : Passed}
    (tagged : merged.TaggedBy token p.tag) :
    Normal.typeOf merged (p.handed.map TokenType.name) = token.typeGiven p := by
  rw [Normal.typeOf, Normal.firstGiven?, tagged.type, tagged.legacy, tagged.value]
  rfl

/-- A chain leads to an object with the tag of a type. -/
def Json.CarriesType (out : Json) (chain : KeyChain) (t : TokenType) : Prop :=
  ∃ image, out.at? chain = some (.obj image) ∧ Members.get? image Key.type = some (.str t.name)

/-- The tag of a token in structured form is the type it was given. -/
theorem Normal.get?_type_token {ms out : Members} {parentType : Option String}
    (converted : Normal.token ms parentType = .ok out) :
    out.get? Key.type =
      ((Normal.typeOf ms parentType).filter fun name => !name.isEmpty).map .str := by
  obtain ⟨value, type, valueConverted, rfl⟩ := (Normal.token_eq_ok_iff ms parentType out).1 converted
  have sameType : type = Normal.typeOf ms parentType := by
    cases given : Normal.typeOf ms parentType with
    | some name =>
        rw [given] at valueConverted
        exact Normal.type_of_convert valueConverted
    | none =>
        have unknown := Normal.infer?_of_typeOf given
        rw [given] at valueConverted
        exact Normal.type_of_convert_none unknown valueConverted
  rw [Normal.get?_type_assemble Normal.isExtra_of_mem_filter, sameType]

/-- The image of a token carries a type exactly if the token is given it. -/
theorem carriesType_iff_of_leads {group token : Members} {chain : KeyChain}
    (leads : group.Leads chain (.obj token)) (hasValue : token.hasValue = true)
    (noValue : group.hasValue = false) {handed : Option TokenType} {out : Json}
    (converted : (Json.obj group).normalize (handed.map TokenType.name) = .ok out) (t : TokenType) :
    out.CarriesType ((Json.obj group).collapse chain) t ↔
      token.typeGiven ((Json.obj group).passed ⟨none, handed⟩ chain) = some t.name := by
  obtain ⟨merged, image, tagged, made, atChain⟩ :=
    exists_token_of_leads leads hasValue noValue converted
  have tag := Normal.get?_type_token made
  rw [tagged.typeOf_eq] at tag
  have carries : out.CarriesType ((Json.obj group).collapse chain) t ↔
      image.get? Key.type = some (.str t.name) := by
    rw [Json.CarriesType, atChain]
    simp
  rw [carries, tag, Option.map_eq_some_iff]
  constructor
  · rintro ⟨name, kept, same⟩
    cases same
    exact (Option.filter_eq_some_iff.1 kept).1
  · intro given
    exact ⟨t.name, by rw [given]; simp [Option.filter, t.name_isEmpty], rfl⟩

/-! ## Wrappers without a tag -/

/-- No wrapper on a chain is tagged, the object it starts from included. -/
def Json.Untagged (node : Json) (chain : KeyChain) : Prop :=
  ∀ front ms, front <+: chain → front ≠ chain → node.at? front = some (.obj ms) →
    (Members.unwrap? ms).isSome = true → Members.has ms Key.type = false

/-- Where no wrapper is tagged, a node is passed the type that a check hands down, and no tag. -/
theorem Json.Untagged.passed_eq {node end_ : Json} {chain : KeyChain} (untagged : node.Untagged chain)
    (leads : node.at? chain = some end_) (handed : Option TokenType) :
    node.passed ⟨none, handed⟩ chain = ⟨none, node.handedDown handed chain⟩ := by
  induction chain generalizing node handed with
  | nil => rw [passed_nil, handedDown_nil]
  | cons key rest ih =>
      cases node with
      | obj ms =>
          rw [at?_cons] at leads
          obtain ⟨child, found, onward⟩ := Option.bind_eq_some_iff.1 leads
          have below : child.Untagged rest := by
            intro front inner isPrefix shorter atFront wrapper
            refine untagged (key :: front) inner (List.cons_prefix_cons.2 ⟨rfl, isPrefix⟩)
              (by simpa using shorter) ?_ wrapper
            rw [at?_cons, found]
            exact atFront
          have on : Passed.on ⟨none, handed⟩ ms = ⟨none, (Members.groupType? ms).or handed⟩ := by
            cases wrapper : Members.unwrap? ms with
            | none =>
                exact Passed.on_group_none wrapper handed
            | some inner =>
                have noTag := untagged [] ms List.nil_prefix (by simp) (at?_nil _) (by simp [wrapper])
                rw [Members.has, Option.isSome_eq_false_iff, Option.isNone_iff_eq_none] at noTag
                rw [Passed.on_wrapper wrapper, Members.groupType?, noTag]
                rfl
          rw [passed_cons found, handedDown_cons found, on]
          exact ih below onward _
      | _ => cases leads

/-- The name of a type counts as given. -/
theorem TokenType.filter_isGiven (t : TokenType) :
    (some (Json.str t.name)).filter Json.isGiven = some (.str t.name) := by
  rw [Option.filter_some, Json.isGiven, t.name_isEmpty]
  rfl

/-- A token is given the type that a check resolves if it has a tag of its own, or if no tag is put
on it. -/
theorem Members.typeGiven_of_typeOr {token : Members} {p : Passed} {t : TokenType}
    (resolved : token.typeOr (p.handed.or (TokenType.infer? token.tokenValue)) = some t)
    (untagged : p.tag = none) : token.typeGiven p = some t.name := by
  unfold typeOr at resolved
  unfold typeGiven
  rw [untagged, Option.or_none]
  cases own : token.get? Key.type with
  | some tag =>
      rw [own] at resolved
      cases TokenType.eq_of_ofTag? resolved
      rw [t.filter_isGiven]
      rfl
  | none =>
      cases legacy : token.get? Key.legacyType with
      | some tag =>
          rw [own, legacy] at resolved
          cases TokenType.eq_of_ofTag? resolved
          rw [Option.filter_none, Option.none_or, t.filter_isGiven]
          rfl
      | none =>
          rw [own, legacy] at resolved
          dsimp only [Option.none_or] at resolved
          rw [Option.filter_none, Option.none_or, ← Option.map_some, ← resolved]
          cases p.handed <;> rfl

theorem Members.typeGiven_of_ownTag {token : Members} {t : TokenType}
    (own : token.get? Key.type = some (.str t.name)) (p : Passed) :
    token.typeGiven p = some t.name := by
  unfold typeGiven
  rw [own, Option.some_or, t.filter_isGiven]
  rfl

/-! ## Documents -/

/-- **A visited token carries a type after the conversion exactly if its root entry carries no value
and the type is the one it is given.**  That is the type a check resolves for it, if the token has a
tag of its own or no wrapper on its way is tagged. -/
theorem carriesType_iff_of_visits {document out : Json} (converted : normalizeDocument document = .ok out)
    {name : String} {group token : Members} {below : KeyChain}
    (visits : Visits document name group below token) :
    (∀ t, out.CarriesType (name :: (Json.obj group).collapse below) t ↔
      group.hasValue = false ∧
        token.typeGiven ((Json.obj group).passed ⟨none, document.handedDown none [name]⟩ below) =
          some t.name) ∧
    ∀ t, token.typeOr ((document.handedDown none (name :: below)).or
        (TokenType.infer? token.tokenValue)) = some t →
      group.hasValue = false → token.has Key.type = true ∨ (Json.obj group).Untagged below →
        out.CarriesType (name :: (Json.obj group).collapse below) t := by
  cases document with
  | obj ms =>
      obtain ⟨entries, rfl, paired⟩ := (normalizeDocument_obj_eq_ok_iff ms out).1 converted
      obtain ⟨entry, found, entryMade⟩ := paired.get? visits.get?
      rw [Normal.entry, if_pos visits.isGroup, groupTypeName, Option.or_none] at entryMade
      rw [Json.handedDown_singleton, Option.or_none]
      have exactly (t : TokenType) :
          (Json.obj entries).CarriesType (name :: (Json.obj group).collapse below) t ↔
            group.hasValue = false ∧ token.typeGiven ((Json.obj group).passed
              ⟨none, Members.groupType? ms⟩ below) = some t.name := by
        rw [Json.CarriesType, Json.at?_cons, found, Option.bind_some]
        cases hasValue : group.hasValue with
        | true =>
            rw [at?_collapse_of_hasValue visits.leads hasValue entryMade]
            simp
        | false =>
            rw [← carriesType_iff_of_leads visits.leads visits.hasValue hasValue entryMade t]
            simp [Json.CarriesType]
      refine ⟨exactly, fun t resolved noValue kept => (exactly t).2 ⟨noValue, ?_⟩⟩
      rcases kept with own | untagged
      · obtain ⟨tag, ownTag⟩ := Option.isSome_iff_exists.1 own
        rw [Members.typeOr, ownTag, Option.some_or] at resolved
        rw [TokenType.eq_of_ofTag? resolved] at ownTag
        exact Members.typeGiven_of_ownTag ownTag _
      · refine Members.typeGiven_of_typeOr ?_ ?_
        · rw [untagged.passed_eq visits.leads.at?]
          rwa [Json.handedDown_cons visits.get?, Option.or_none] at resolved
        · rw [untagged.passed_eq visits.leads.at?]
  | _ => cases visits.entry

namespace Example

/-- A token in the older spelling, in a wrapper that names its type. -/
def typedBase : Members :=
  [("$type", .str "dimension"), ("base", .obj [("gap", .obj [("value", .str "4px")])])]

/-- A token in a wrapper with a tag outside the vocabulary. -/
def oddDefault : Members :=
  [("gap", .obj [("$type", .str "size"), ("DEFAULT", .obj [("$value", .int 4)])])]

/-- What the wrapper gives way to. -/
def unwrappedBase : Members :=
  [("gap", .obj [("value", .str "4px")]), ("$type", .str "dimension")]

def structuredBase : Members :=
  [("gap", .obj [("$value", .obj [("value", .int 4), ("unit", .str "px")]),
      ("$type", .str "dimension")]),
    ("$type", .str "dimension")]

def structuredOdd : Members :=
  [("gap", .obj [("$value", .int 4), ("$type", .str "size")])]

theorem normalize_typedBase :
    normalizeDocument (.obj [("spacing", .obj typedBase)]) =
      .ok (.obj [("spacing", .obj structuredBase)]) := by
  have members : normalizeMembers (some "dimension") unwrappedBase = .ok structuredBase :=
    (normalizeMembers_eq_ok_iff _ _ _).2
      (.cons ⟨rfl, normalize_token rfl rfl _⟩ (.cons ⟨rfl, rfl⟩ .nil))
  refine (normalizeDocument_obj_eq_ok_iff _ _).2 ⟨_, rfl, .cons ⟨rfl, ?_⟩ .nil⟩
  calc (Json.obj typedBase).normalize none
      = (Json.obj unwrappedBase).normalize none := normalize_wrapper rfl none
    _ = (normalizeMembers (some "dimension") unwrappedBase).map .obj := normalize_group rfl rfl none
    _ = .ok (.obj structuredBase) := by rw [members]; rfl

theorem normalize_oddDefault :
    normalizeDocument (.obj [("sizes", .obj oddDefault)]) =
      .ok (.obj [("sizes", .obj structuredOdd)]) := by
  have gap : normalizeMember none "gap"
      (.obj [("$type", .str "size"), ("DEFAULT", .obj [("$value", .int 4)])]) =
        .ok (.obj [("$value", .int 4), ("$type", .str "size")]) :=
    (normalize_wrapper rfl none).trans (normalize_token rfl rfl none)
  have members : normalizeMembers none oddDefault = .ok structuredOdd :=
    (normalizeMembers_eq_ok_iff _ _ _).2 (.cons ⟨rfl, gap⟩ .nil)
  refine (normalizeDocument_obj_eq_ok_iff _ _).2 ⟨_, rfl, .cons ⟨rfl, ?_⟩ .nil⟩
  calc (Json.obj oddDefault).normalize none
      = (normalizeMembers none oddDefault).map .obj := normalize_group rfl rfl none
    _ = .ok (.obj structuredOdd) := by rw [members]; rfl

/-- The token has the type of the wrapper, which is the one a check resolves. -/
theorem typedBase_carries_dimension :
    Visits (.obj [("spacing", .obj typedBase)]) "spacing" typedBase ["base", "gap"]
        [("value", .str "4px")] ∧
      (Json.obj [("spacing", .obj typedBase)]).handedDown none ["spacing", "base", "gap"] =
        some .dimension ∧
      (Json.obj [("spacing", .obj structuredBase)]).CarriesType ["spacing", "gap"] .dimension := by
  have visits : Visits (.obj [("spacing", .obj typedBase)]) "spacing" typedBase ["base", "gap"]
      [("value", .str "4px")] :=
    ⟨rfl, by decide, .under (by decide) rfl (by decide) (.here (by decide) rfl), by decide⟩
  refine ⟨visits, rfl, ?_⟩
  exact ((carriesType_iff_of_visits normalize_typedBase visits).1 .dimension).2 ⟨by decide, rfl⟩

/-- **The token is given the odd tag of its wrapper**, where a check takes the type of its value. -/
theorem oddDefault_retypes_token :
    Visits (.obj [("sizes", .obj oddDefault)]) "sizes" oddDefault ["gap", "DEFAULT"]
        [("$value", .int 4)] ∧
      Members.typeOr [("$value", .int 4)]
        (((Json.obj [("sizes", .obj oddDefault)]).handedDown none ["sizes", "gap", "DEFAULT"]).or
          (TokenType.infer? (.int 4))) = some .number ∧
      normalizeDocument (.obj [("sizes", .obj oddDefault)]) =
        .ok (.obj [("sizes", .obj structuredOdd)]) ∧
      "sizes" :: (Json.obj oddDefault).collapse ["gap", "DEFAULT"] = ["sizes", "gap"] ∧
      ¬ (Json.obj [("sizes", .obj structuredOdd)]).CarriesType ["sizes", "gap"] .number := by
  refine ⟨⟨rfl, by decide, ?_, by decide⟩, rfl, normalize_oddDefault, rfl, ?_⟩
  · exact .under (by decide) rfl (by decide) (.here (by decide) rfl)
  · rintro ⟨image, atChain, tag⟩
    cases atChain
    exact absurd (Option.some.inj tag) (by simp [TokenType.name])

end Example

end DesignTokens
