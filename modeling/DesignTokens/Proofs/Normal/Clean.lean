/-
# DesignTokens.Proofs.Normal.Clean -- clean documents stay clean

A document in which a check finds nothing has a structured form in which it finds nothing either,
whatever the check asks for (`isClean_normalizeDocument`).

Three things carry it.  What a type passes, it passes in structured form (`Normal.passes_convert`):
a colour becomes an object with channels, and a dimension one with a standard unit.  A clean token is
given the type that it is checked under (`Normal.typeOf_of_isCleanToken`), so it is clean afterwards.
And a token group either keeps its children, which are such tokens, or is a token itself to the
conversion, or a wrapper: then it keeps nothing but metadata, and the tag that it gets is a known one
(`isCleanGroup_of_token`).
-/
import DesignTokens.Proofs.Normal.FixedPoint
import DesignTokens.Proofs.Normal.Keyed
import DesignTokens.Proofs.Normal.Types
import DesignTokens.Proofs.Spelling
import DesignTokens.Proofs.Validation.Clean

namespace DesignTokens

set_option autoImplicit false

/-! ## Values -/

theorem Rule.colour_object (red green blue : Nat) (hex : List Char) (alpha : Option Binary64) :
    TokenType.color.Passes (.obj (Colour.object red green blue hex (alpha.map .float))) := by
  intro path
  cases alpha <;> rfl

/-- The unit of a dimension is a standard one. -/
theorem Dimension.isNumber_ofDouble (x : Binary64) : (ofDouble x).isNumber = true := by
  unfold ofDouble
  split <;> rfl

/-- A dimension in structured form has a number and a standard unit. -/
theorem Rule.measure_ofText? {s : List Char} {ms : Members} (reads : Dimension.ofText? s = some ms)
    (label path : String) : Rule.measure label (.obj ms) path = [] := by
  unfold Dimension.ofText? at reads
  split at reads
  · rename_i number unit quantity
    obtain ⟨x, -, rfl⟩ := Option.map_eq_some_iff.1 reads
    have standard : Rule.Measure.isStandardUnit (.str unit) = true :=
      List.contains_iff_mem.2 (Spelling.dimension?_eq_some_iff.1 quantity).2.1
    have found : Members.get? [("value", Dimension.ofDouble x), ("unit", .str unit)] "value" =
        some (Dimension.ofDouble x) := rfl
    have foundUnit : Members.get? [("value", Dimension.ofDouble x), ("unit", .str unit)] "unit" =
        some (.str unit) := rfl
    simp [Rule.measure, Rule.unlessAlias, Json.isAlias, Rule.Measure.check, Rule.Measure.object,
      found, foundUnit, Dimension.isNumber_ofDouble x, standard]
  · cases reads

namespace Normal

/-- A type whose texts may be dimensions passes a dimension in structured form. -/
theorem passes_dimension {t : TokenType} (dimensional : isDimensional t.name = true) {s : List Char}
    {ms : Members} (reads : Dimension.ofText? s = some ms) : t.Passes (.obj ms) := by
  intro path
  cases t with
  | dimension | fontSize | letterSpacing | paragraphSpacing | borderRadius =>
      exact Rule.measure_ofText? reads _ path
  | _ => exact absurd dimensional (by decide)

theorem passes_convertDimension {t : TokenType} {s : String} {value' : Json} {type' : Option String}
    (converted : convertDimension s (some t.name) = (value', type')) (passes : t.Passes (.str s)) :
    t.Passes value' := by
  unfold convertDimension at converted
  split at converted
  · rename_i dimensional
    split at converted
    · rename_i ms reads
      cases converted
      exact passes_dimension (by simpa using dimensional) reads
    · cases converted
      exact passes
  · cases converted
    exact passes

/-- **What a type passes, it passes in structured form.** -/
theorem passes_convert {t : TokenType} {value value' : Json} {type' : Option String}
    (converted : convert value (some t.name) = .ok (value', type')) (passes : t.Passes value) :
    t.Passes value' := by
  cases value with
  | str s =>
      rw [convert, convertText] at converted
      split at converted
      · rename_i isColour
        have colour : t.name = TokenType.color.name := by simpa using isColour
        have isColor : t = .color := by
          have named := TokenType.ofName?_name t
          rw [colour, TokenType.ofName?_name] at named
          exact (Option.some.inj named).symm
        split at converted
        · obtain ⟨read, reads, done⟩ := Fault.bind_eq_ok_iff.1 converted
          cases read with
          | some ms =>
              cases done
              obtain ⟨red, green, blue, hex, alpha, rfl, -⟩ := Colour.exists_object_of_ofHex? reads
              rw [isColor]
              exact Rule.colour_object red green blue hex alpha
          | none =>
              cases done
              exact passes
        · obtain ⟨read, reads, done⟩ := Fault.bind_eq_ok_iff.1 converted
          cases read with
          | some ms =>
              cases done
              obtain ⟨_, alpha, -, -, -, rfl⟩ := Colour.exists_object_of_ofFunction? reads
              rw [isColor]
              exact Rule.colour_object _ _ _ _ alpha
          | none => exact passes_convertDimension (Except.ok.inj done) passes
      · exact passes_convertDimension (Except.ok.inj converted) passes
  | _ =>
      cases converted
      exact passes

/-- A value that suggests no type stays as it is. -/
theorem convert_none {value value' : Json} {type' : Option String}
    (unknown : TokenType.infer? value = none) (converted : convert value none = .ok (value', type')) :
    value' = value ∧ type' = none := by
  have noType := type_of_convert_none unknown converted
  rcases (convert_spec converted).2 with ⟨same, -⟩ | ⟨name, given, -⟩
  · exact ⟨same, noType⟩
  · rw [noType] at given
    cases given

/-! ## Tokens -/

/-- A clean token is given the type under which it is checked. -/
theorem typeOf_of_isCleanToken {token : Members} {handed : Option TokenType}
    (clean : token.IsCleanToken handed) :
    typeOf token (handed.map TokenType.name) = (token.typeOr handed).map TokenType.name := by
  unfold typeOf firstGiven? Members.typeOr
  cases own : token.get? Key.type with
  | some tag =>
      obtain ⟨t, rfl⟩ := clean.known tag own
      rw [t.filter_isGiven, Option.some_or]
      show some t.name = (TokenType.ofTag? (.str t.name)).map TokenType.name
      rw [TokenType.ofTag?_name]
      rfl
  | none =>
      rw [clean.current own]
      cases handed with
      | some t => rfl
      | none => simp [clean.typed own rfl]

/-- A clean token without a type has none handed to it either, and none to be told. -/
theorem untyped_of_isCleanToken {token : Members} {handed : Option TokenType}
    (clean : token.IsCleanToken handed) (untyped : token.typeOr handed = none) :
    handed = none ∧ TokenType.infer? token.tokenValue = none := by
  unfold Members.typeOr at untyped
  cases own : token.get? Key.type with
  | some tag =>
      obtain ⟨t, rfl⟩ := clean.known tag own
      rw [own, Option.some_or] at untyped
      exact absurd ((TokenType.ofTag?_name t).symm.trans untyped) nofun
  | none =>
      rw [own, clean.current own] at untyped
      exact ⟨untyped, clean.typed own untyped⟩

/-- **A clean token is clean in structured form.** -/
theorem isCleanToken_token {token out : Members} {handed : Option TokenType}
    (clean : token.IsCleanToken handed)
    (made : Normal.token token (handed.map TokenType.name) = .ok out) : out.IsCleanToken handed := by
  obtain ⟨value, type, converted, rfl⟩ := (token_eq_ok_iff _ _ _).1 made
  rw [typeOf_of_isCleanToken clean] at converted
  generalize outEq : assemble value type (firstGiven? token Key.description Key.legacyDescription)
    (token.filter fun m => isExtra m.1) = out
  have hasValue : out.has Key.value = true := by
    rw [Members.has, ← outEq, get?_assemble isExtra_of_mem_filter (by decide)]
    rfl
  have outValue : out.tokenValue = value := by
    rw [← outEq]
    exact (tokenValue_assemble isExtra_of_mem_filter).2
  have noLegacy : out.get? Key.legacyType = none := by
    rw [← outEq, get?_assemble isExtra_of_mem_filter (by decide)]
    rfl
  have tag : out.get? Key.type = (type.filter fun t => !t.isEmpty).map .str := by
    rw [← outEq]
    exact get?_type_assemble isExtra_of_mem_filter
  cases resolved : token.typeOr handed with
  | some t =>
      rw [resolved] at converted
      obtain rfl := type_of_convert converted
      have tagged : out.get? Key.type = some (.str t.name) := by
        rw [tag]
        simp [Option.filter, t.name_isEmpty]
      refine ⟨hasValue, ?known, fun _ => noLegacy, ?typed, ?passes⟩
      case known =>
        intro tag' found'
        rw [tagged] at found'
        exact ⟨t, (Option.some.inj found').symm⟩
      case typed =>
        intro untagged
        rw [tagged] at untagged
        cases untagged
      case passes =>
        intro t' resolved'
        rw [Members.typeOr, tagged, Option.some_or] at resolved'
        cases (TokenType.ofTag?_name t).symm.trans resolved'
        rw [outValue]
        exact passes_convert converted (clean.passes t resolved)
  | none =>
      rw [resolved] at converted
      obtain ⟨rfl, unknown⟩ := untyped_of_isCleanToken clean resolved
      obtain ⟨rfl, rfl⟩ := convert_none unknown converted
      have untagged : out.get? Key.type = none := tag
      refine ⟨hasValue, ?known, fun _ => noLegacy, fun _ _ => ?typed, ?passes⟩
      case known =>
        intro tag' found'
        rw [untagged] at found'
        cases found'
      case typed =>
        rw [outValue]
        exact unknown
      case passes =>
        intro t resolved'
        rw [Members.typeOr, untagged, noLegacy] at resolved'
        cases resolved'

/-! ## Token groups -/

/-- The type that a token is given is known if its tag is, and if it has no older one in its place. -/
theorem typeOf_known {ms : Members} (known : ms.TagKnown)
    (noLegacy : ms.get? Key.type = none → ∀ name, ms.get? Key.legacyType ≠ some (.str name))
    {handed : Option TokenType} {name : String}
    (given : typeOf ms (handed.map TokenType.name) = some name) : ∃ t : TokenType, name = t.name := by
  have inferred : (TokenType.infer? ms.tokenValue).map TokenType.name = some name →
      ∃ t : TokenType, name = t.name := by
    intro suggests
    obtain ⟨t, -, rfl⟩ := Option.map_eq_some_iff.1 suggests
    exact ⟨t, rfl⟩
  unfold typeOf firstGiven? at given
  cases own : ms.get? Key.type with
  | some tag =>
      obtain ⟨t, rfl⟩ := known tag own
      rw [own, t.filter_isGiven] at given
      exact ⟨t, (Option.some.inj given).symm⟩
  | none =>
      rw [own, Option.filter_none, Option.none_or] at given
      cases legacy : (ms.get? Key.legacyType).filter Json.isGiven with
      | none =>
          rw [legacy] at given
          rcases Option.or_eq_some_iff.1 given with handedOn | ⟨-, suggests⟩
          · obtain ⟨t, -, rfl⟩ := Option.map_eq_some_iff.1 handedOn
            exact ⟨t, rfl⟩
          · exact inferred suggests
      | some tag =>
          rw [legacy] at given
          have found := (Option.filter_eq_some_iff.1 legacy).1
          cases tag with
          | str s => exact absurd found (noLegacy own s)
          | _ => exact inferred given

/-- What the conversion takes for a token keeps nothing but metadata, and is a clean group as long as
its tag is known. -/
theorem isCleanGroup_of_token {ms out : Members} {rootType : Option TokenType} (known : ms.TagKnown)
    (noLegacy : ms.get? Key.type = none → ∀ name, ms.get? Key.legacyType ≠ some (.str name))
    (made : Normal.token ms (rootType.map TokenType.name) = .ok out) : out.IsCleanGroup rootType := by
  constructor
  · intro tag found
    rw [get?_type_token made] at found
    obtain ⟨name, given, rfl⟩ := Option.map_eq_some_iff.1 found
    obtain ⟨t, rfl⟩ := typeOf_known known noLegacy (Option.filter_eq_some_iff.1 given).1
    exact ⟨t, rfl⟩
  · intro m mem notMeta
    obtain ⟨_, _, -, rfl⟩ := (token_eq_ok_iff _ _ _).1 made
    rw [isMeta_of_mem_assemble isExtra_of_mem_filter mem] at notMeta
    cases notMeta

end Normal

/-- **A clean token group is clean in structured form.** -/
theorem isCleanGroup_normalize {group : Members} {rootType : Option TokenType} {out : Json}
    (clean : group.IsCleanGroup rootType)
    (converted : (Json.obj group).normalize (rootType.map TokenType.name) = .ok out) :
    ∃ group', out = .obj group' ∧ Members.IsCleanGroup group' rootType := by
  cases wrapper : group.unwrap? with
  | some inner =>
      obtain ⟨key, child, u⟩ := Members.unwraps_of_unwrap? wrapper
      obtain ⟨token, rfl, cleanToken⟩ := clean.tokens _ u.mem_child.1 u.mem_child.2
      have tag : inner.get? Key.type = (Members.get? token Key.type).or (group.get? Key.type) :=
        u.get?_type_eq
      have hasValue : inner.hasValue = true := u.hasValue_eq.trans cleanToken.hasValue
      rw [normalize_wrapper wrapper,
        normalize_token (Members.unwrap?_of_hasValue hasValue) hasValue] at converted
      obtain ⟨members, made, rfl⟩ := Fault.map_eq_ok_iff.1 converted
      refine ⟨members, rfl, Normal.isCleanGroup_of_token ?_ ?_ made⟩
      · intro tag' found
        rw [tag] at found
        rcases Option.or_eq_some_iff.1 found with own | ⟨-, ofWrapper⟩
        · exact cleanToken.known tag' own
        · exact clean.known tag' ofWrapper
      · intro untagged name legacy
        rw [tag] at untagged
        have sameLegacy : inner.get? Key.legacyType = Members.get? token Key.legacyType :=
          u.get?_eq (by decide)
        rw [sameLegacy, cleanToken.current (Option.or_eq_none_iff.1 untagged).1] at legacy
        cases legacy
  | none =>
      cases hasValue : group.hasValue with
      | true =>
          rw [normalize_token wrapper hasValue] at converted
          obtain ⟨members, made, rfl⟩ := Fault.map_eq_ok_iff.1 converted
          refine ⟨members, rfl, Normal.isCleanGroup_of_token clean.known (fun _ name legacy => ?_) made⟩
          have notMeta : Key.isMeta Key.legacyType = false := by decide
          obtain ⟨_, isObject, -⟩ := clean.tokens _ (Members.mem_of_get? legacy) notMeta
          cases isObject
      | false =>
          rw [normalize_group wrapper hasValue, groupTypeName_map] at converted
          obtain ⟨members, made, rfl⟩ := Fault.map_eq_ok_iff.1 converted
          have paired := (normalizeMembers_eq_ok_iff _ group members).1 made
          have sameTag : Members.get? members Key.type = group.get? Key.type := by
            refine paired.get?_eq fun value value' kept => ?_
            cases kept
            rfl
          refine ⟨members, rfl, ?known, ?tokens⟩
          case known =>
            intro tag found
            exact clean.known tag (sameTag ▸ found)
          case tokens =>
            intro m mem notMeta
            obtain ⟨child, inGroup, childMade⟩ := paired.exists_left mem
            obtain ⟨token, same, cleanToken⟩ := clean.tokens _ inGroup notMeta
            obtain rfl : child = .obj token := same
            rw [normalizeMember_obj notMeta, normalize_token
              (Members.unwrap?_of_hasValue cleanToken.hasValue) cleanToken.hasValue] at childMade
            obtain ⟨image, imageMade, same'⟩ := Fault.map_eq_ok_iff.1 childMade
            have sameType : Members.groupType? members = group.groupType? := by
              rw [Members.groupType?, Members.groupType?, sameTag]
            rw [sameType]
            exact ⟨image, same'.symm, Normal.isCleanToken_token cleanToken imageMade⟩

/-! ## Documents -/

/-- The root of a document is checked for its keys, its schema and its tag. -/
theorem Validation.checkRoot_congr (v : Validator) {a b : Members} (keys : a.keys = b.keys)
    (schema : a.get? Key.schema = b.get? Key.schema) (tag : a.get? Key.type = b.get? Key.type) :
    checkRoot v a = checkRoot v b := by
  rw [checkRoot, checkRoot, checkSchema, checkSchema, keys, schema, tag]

/-- **A clean document is clean in structured form**, whatever the check asks for. -/
theorem isClean_normalizeDocument (v : Validator) {document out : Json}
    (clean : (v.validate document).isClean = true) (converted : normalizeDocument document = .ok out) :
    (v.validate out).isClean = true := by
  obtain ⟨ms, rfl, cleanMembers⟩ := (isClean_validate_iff v document).1 clean
  obtain ⟨entries, rfl, paired⟩ := (normalizeDocument_obj_eq_ok_iff ms out).1 converted
  have kept {key : String} (noGroup : ∀ value, isTokenGroup key value = false) :
      entries.get? key = Members.get? ms key := by
    refine paired.get?_eq fun value value' same => ?_
    rw [Normal.entry, if_neg (by simp [noGroup value])] at same
    exact (Except.ok.inj same).symm
  have sameTag : entries.get? Key.type = Members.get? ms Key.type := kept fun _ => rfl
  refine (isClean_validate_iff v _).2 ⟨entries, rfl, ?root, ?brand, ?groups⟩
  case root =>
    rw [Validation.checkRoot_congr v paired.keys_eq (kept fun _ => rfl) sameTag]
    exact cleanMembers.root
  case brand =>
    intro brand found
    exact cleanMembers.brand brand ((kept fun _ => rfl).symm.trans found)
  case groups =>
    intro m mem notMeta notBrand
    obtain ⟨value, inMs, made⟩ := paired.exists_left mem
    obtain ⟨group, same, cleanGroup⟩ := cleanMembers.groups _ inMs notMeta notBrand
    obtain rfl : value = .obj group := same
    have isGroup := (isTokenGroup_iff m.1 (.obj group)).2 ⟨notMeta, notBrand, rfl⟩
    rw [Normal.entry, if_pos isGroup, groupTypeName, Option.or_none] at made
    have sameType : entries.groupType? = Members.groupType? ms := by
      rw [Members.groupType?, Members.groupType?, sameTag]
    rw [sameType]
    exact isCleanGroup_normalize cleanGroup made

namespace Example

/-- A group of dimensions with one of them spelled as text. -/
def plainSizes : Members :=
  [("$type", .str "dimension"), ("gap", .obj [("$value", .str "4px")])]

def plainSizesStructured : Members :=
  [("$type", .str "dimension"),
    ("gap", .obj [("$value", .obj [("value", .int 4), ("unit", .str "px")]),
      ("$type", .str "dimension")])]

theorem normalize_plainSizes :
    normalizeDocument (.obj [("sizes", .obj plainSizes)]) =
      .ok (.obj [("sizes", .obj plainSizesStructured)]) := by
  have members : normalizeMembers (some "dimension") plainSizes = .ok plainSizesStructured :=
    (normalizeMembers_eq_ok_iff _ _ _).2
      (.cons ⟨rfl, rfl⟩ (.cons ⟨rfl, normalize_token rfl rfl _⟩ .nil))
  refine (normalizeDocument_obj_eq_ok_iff _ _).2 ⟨_, rfl, .cons ⟨rfl, ?_⟩ .nil⟩
  calc (Json.obj plainSizes).normalize none
      = (normalizeMembers (some "dimension") plainSizes).map .obj := normalize_group rfl rfl none
    _ = .ok (.obj plainSizesStructured) := by rw [members]; rfl

/-- The sizes are clean, as text and in structured form. -/
theorem plainSizes_stay_clean :
    (Validator.validate ⟨false, ""⟩ (.obj [("sizes", .obj plainSizes)])).isClean = true ∧
      normalizeDocument (.obj [("sizes", .obj plainSizes)]) =
        .ok (.obj [("sizes", .obj plainSizesStructured)]) ∧
      (Validator.validate ⟨false, ""⟩ (.obj [("sizes", .obj plainSizesStructured)])).isClean = true :=
  have clean : (Validator.validate ⟨false, ""⟩ (.obj [("sizes", .obj plainSizes)])).isClean = true :=
    rfl
  ⟨clean, normalize_plainSizes, isClean_normalizeDocument _ clean normalize_plainSizes⟩

end Example

end DesignTokens
