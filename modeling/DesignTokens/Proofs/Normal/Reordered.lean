/-
# DesignTokens.Proofs.Normal.Reordered -- the order of members means nothing

The conversion takes members as they come, and what it makes of each does not depend on those before
it: a token is put together from what its keys lead to, a wrapper is told by its only child, and a
group keeps its keys.  So of reordered values it makes reordered values (`normalize_reordered`), or it
gives up on both.  A reordered document is the same document, then, for a check and for the conversion
(`order_irrelevant`).

The one step where members meet is a wrapper's metadata being joined on.  What is joined on depends on
the keys that are there, not on their places (`Members.join_eq_append_filter`).
-/
import DesignTokens.Proofs.Validation.Reordered

namespace DesignTokens

set_option autoImplicit false

variable {xs ys : Members}

/-! ## Tokens -/

namespace Normal

theorem firstGiven?_rel (same : xs.Reordered ys) (distinct : xs.keys.Nodup) (key legacy : String) :
    Option.Rel Json.Reordered (firstGiven? xs key legacy) (firstGiven? ys key legacy) := by
  have given (k : String) : Option.Rel Json.Reordered ((xs.get? k).filter Json.isGiven)
      ((ys.get? k).filter Json.isGiven) := by
    rw [← Option.bind_guard, ← Option.bind_guard]
    refine rel_bind (same.get?_rel distinct k) fun x y related => ?_
    rw [Option.guard, Option.guard, related.isGiven_eq]
    split
    · exact .some related
    · exact .none
  exact rel_or (given key) (given legacy)

theorem typeOf_eq (same : xs.Reordered ys) (distinct : xs.keys.Nodup) (parentType : Option String) :
    typeOf xs parentType = typeOf ys parentType := by
  have tag := firstGiven?_rel same distinct Key.type Key.legacyType
  have inferred := (same.tokenValue distinct).congr_scalar TokenType.infer? (fun _ _ => rfl)
    fun _ _ => rfl
  rw [typeOf, typeOf, inferred]
  generalize firstGiven? xs Key.type Key.legacyType = x at tag ⊢
  generalize firstGiven? ys Key.type Key.legacyType = y at tag ⊢
  cases tag with
  | none => rfl
  | some related => cases related.cases <;> rfl

/-- A text is the same text, and nothing else is converted. -/
theorem convert_reordered {x y x' : Json} (same : x.Reordered y) {type type' : Option String}
    (converted : convert x type = .ok (x', type')) :
    ∃ y', convert y type = .ok (y', type') ∧ x'.Reordered y' := by
  cases same.cases with
  | scalar => exact ⟨x', converted, .refl _⟩
  | arr | obj =>
      cases converted
      exact ⟨_, rfl, same⟩

theorem optional_reordered (key : String) {a b : Option Json} (same : Option.Rel Json.Reordered a b) :
    Members.Reordered (optional key a) (optional key b) := by
  cases same with
  | none => exact .refl _
  | some related => exact .single key related

theorem token_reordered (same : xs.Reordered ys) (distinct : xs.keys.Nodup) {parentType : Option String}
    {out : Members} (converted : token xs parentType = .ok out) :
    ∃ out', token ys parentType = .ok out' ∧ out.Reordered out' := by
  obtain ⟨value, type, valueConverted, rfl⟩ := (token_eq_ok_iff xs parentType out).1 converted
  rw [typeOf_eq same distinct] at valueConverted
  obtain ⟨value', converted', related⟩ := convert_reordered (same.tokenValue distinct) valueConverted
  refine ⟨_, (token_eq_ok_iff ys parentType _).2 ⟨value', type, converted', rfl⟩, ?_⟩
  refine .append (.append (.append (.single _ related) (.refl _)) ?_) (same.filter isExtra)
  exact optional_reordered _ (firstGiven?_rel same distinct _ _)

end Normal

/-! ## Wrappers -/

namespace Members

/-- Joining members on adds those whose keys are not there. -/
theorem join_eq_append_filter (ms : Members) {extra : Members} (distinct : extra.keys.Nodup) :
    ms.join extra = ms ++ extra.filter fun m => !ms.has m.1 := by
  induction extra generalizing ms with
  | nil => simp [join]
  | cons m extra ih =>
      obtain ⟨key, value⟩ := m
      rw [keys_cons, List.nodup_cons] at distinct
      have step : ms.join ((key, value) :: extra) = (ms.putNew key value).join extra := rfl
      rw [step, ih _ distinct.2, putNew_eq, List.filter_cons]
      cases present : ms.has key with
      | true => rfl
      | false =>
          have others : (extra.filter fun m => !has (ms ++ [(key, value)]) m.1) =
              extra.filter fun m => !ms.has m.1 := by
            refine List.filter_congr fun m mem => ?_
            have ne : m.1 ≠ key := by
              rintro rfl
              have inKeys := mem_keys_of_mem mem
              exact distinct.1 inKeys
            rw [has, has, get?_append, get?_cons, if_neg ne]
            simp [get?]
          rw [if_neg (by decide), others]
          simp

theorem Reordered.join {extra extra' : Members} (same : xs.Reordered ys)
    (sameExtra : extra.Reordered extra') (distinct : extra.keys.Nodup) :
    (xs.join extra).Reordered (ys.join extra') := by
  rw [join_eq_append_filter xs distinct,
    join_eq_append_filter ys (sameExtra.keys_perm.nodup distinct)]
  have sameHas (key : String) := same.has_eq key
  simp only [sameHas]
  exact same.append (sameExtra.filter fun key => !ys.has key)

theorem ofValue_reordered {x y : Json} (same : x.Reordered y) : (ofValue x).Reordered (ofValue y) := by
  cases same.cases with
  | scalar => exact .refl _
  | arr => exact .single _ same
  | obj members => exact members

/-- A wrapper stays one, and gives way to the same. -/
theorem Reordered.exists_unwrap? (same : xs.Reordered ys) (distinct : xs.keys.Nodup) {inner : Members}
    (wrapper : xs.unwrap? = some inner) : ∃ inner', ys.unwrap? = some inner' ∧ inner.Reordered inner' := by
  unfold unwrap? at wrapper
  split at wrapper
  · rename_i key child single
    split at wrapper
    · rename_i isWrapper
      cases wrapper
      have children := same.children
      rw [single] at children
      obtain ⟨child', single', related⟩ := children.eq_single
      refine ⟨(ofValue child').join ys.metadata, ?_, ?_⟩
      · rw [unwrap?, single', ← same.hasValue_eq]
        exact if_pos isWrapper
      · have metadataDistinct : xs.metadata.keys.Nodup := (List.filter_sublist.map Prod.fst).nodup distinct
        exact (ofValue_reordered related).join (same.filter Key.isMeta) metadataDistinct
    · cases wrapper
  · cases wrapper

theorem Reordered.unwrap?_eq_none (same : xs.Reordered ys) (distinct : xs.keys.Nodup)
    (noWrapper : xs.unwrap? = none) : ys.unwrap? = none := by
  cases wrapper : ys.unwrap? with
  | none => rfl
  | some inner =>
      obtain ⟨_, wrapper', -⟩ := same.symm.exists_unwrap? (same.keys_perm.nodup distinct) wrapper
      rw [noWrapper] at wrapper'
      cases wrapper'

end Members

/-! ## Trees -/

theorem groupTypeName_eq (same : xs.Reordered ys) (distinct : xs.keys.Nodup)
    (parentType : Option String) : groupTypeName xs parentType = groupTypeName ys parentType := by
  rw [groupTypeName, groupTypeName, same.groupType?_eq distinct]

theorem Json.Reordered.asNode {x y : Json} (same : x.Reordered y) : x.asNode.Reordered y.asNode := by
  cases same.cases with
  | scalar => exact .refl _
  | arr | obj => exact same

/-- A member of a group, which is kept if it is metadata and else converted as a node. -/
theorem normalizeMember_reordered {parentType : Option String} {key : String} {x y x' : Json}
    (same : x.Reordered y) (converted : normalizeMember parentType key x = .ok x')
    (node : Key.isMeta key = false → ∀ out, x.asNode.normalize parentType = .ok out →
      ∃ out', y.asNode.normalize parentType = .ok out' ∧ out.Reordered out') :
    ∃ y', normalizeMember parentType key y = .ok y' ∧ x'.Reordered y' := by
  rw [normalizeMember] at converted ⊢
  split at converted
  · rename_i isMeta
    cases converted
    exact ⟨y, if_pos isMeta, same⟩
  · rename_i notMeta
    rw [if_neg notMeta]
    exact node (by simpa using notMeta) x' converted

/-- **What is made of reordered values is reordered.** -/
theorem normalize_reordered {a b out : Json} (same : a.Reordered b) (keyed : a.isKeyed = true)
    {parentType : Option String} (converted : a.normalize parentType = .ok out) :
    ∃ out', b.normalize parentType = .ok out' ∧ out.Reordered out' := by
  induction parentType, a using normalize_induction generalizing b out with
  | list parentType items ih =>
      cases same.cases with
      | scalar => exact ⟨out, converted, .refl _⟩
      | @arr _ ys paired =>
          rw [Json.normalize, Fault.bind_eq_ok_iff] at converted
          obtain ⟨items', made, done⟩ := converted
          cases done
          rw [normalizeItems_eq_ok_iff] at made
          have itemsKeyed := (keyedItems_iff items).1 keyed
          obtain ⟨ys', made', paired'⟩ := exists_forall₂ paired made
            fun x mem _ _ related madeOne => ih x mem related (itemsKeyed x mem) madeOne
          refine ⟨.arr ys', ?_, (reordered_arr_iff _ _).2 paired'⟩
          rw [Json.normalize, (normalizeItems_eq_ok_iff parentType ys ys').2 made']
          rfl
  | wrapper parentType ms inner wrapper ih =>
      cases same.cases with
      | scalar => exact ⟨out, converted, .refl _⟩
      | obj members =>
          have distinct := ((isKeyed_obj_iff ms).1 keyed).1
          obtain ⟨inner', wrapper', related⟩ := members.exists_unwrap? distinct wrapper
          obtain ⟨key, child, unwraps⟩ := Members.unwraps_of_unwrap? wrapper
          rw [normalize_wrapper wrapper] at converted
          rw [normalize_wrapper wrapper']
          exact ih ((reordered_obj_iff _ _).2 related) (unwraps.isKeyed keyed) converted
  | token parentType ms noWrapper hasValue =>
      cases same.cases with
      | scalar => exact ⟨out, converted, .refl _⟩
      | @obj _ ys members =>
          have distinct := ((isKeyed_obj_iff ms).1 keyed).1
          have hasValue' : Members.hasValue ys = true := members.hasValue_eq ▸ hasValue
          rw [normalize_token noWrapper hasValue, Fault.map_eq_ok_iff] at converted
          obtain ⟨token, made, rfl⟩ := converted
          obtain ⟨token', made', related⟩ := Normal.token_reordered members distinct made
          refine ⟨.obj token', ?_, (reordered_obj_iff _ _).2 related⟩
          rw [normalize_token (Members.unwrap?_of_hasValue hasValue') hasValue', made']
          rfl
  | group parentType ms noWrapper noValue ih =>
      cases same.cases with
      | scalar => exact ⟨out, converted, .refl _⟩
      | @obj _ ys members =>
          obtain ⟨distinct, valuesKeyed⟩ := (isKeyed_obj_iff ms).1 keyed
          have noValue' : Members.hasValue ys = false := members.hasValue_eq ▸ noValue
          rw [normalize_group noWrapper noValue, Fault.map_eq_ok_iff] at converted
          obtain ⟨group, made, rfl⟩ := converted
          rw [normalizeMembers_eq_ok_iff] at made
          obtain ⟨group', made', related⟩ := members.exists_paired made
            fun key x y x' mem related madeOne =>
              normalizeMember_reordered related madeOne fun notMeta out converted =>
                ih (key, x) mem notMeta related.asNode (Json.isKeyed_asNode (valuesKeyed _ mem)) converted
          rw [groupTypeName_eq members distinct] at made'
          refine ⟨.obj group', ?_, (reordered_obj_iff _ _).2 related⟩
          rw [normalize_group (members.unwrap?_eq_none distinct noWrapper) noValue',
            (normalizeMembers_eq_ok_iff _ _ _).2 made']
          rfl
  | scalar parentType value noList noObject =>
      cases same.cases with
      | scalar => exact ⟨out, converted, .refl _⟩
      | arr => exact absurd rfl (noList _)
      | obj => exact absurd rfl (noObject _)

theorem entry_reordered {rootType : Option String} {name : String} {x y x' : Json}
    (same : x.Reordered y) (keyed : x.isKeyed = true)
    (converted : Normal.entry rootType name x = .ok x') :
    ∃ y', Normal.entry rootType name y = .ok y' ∧ x'.Reordered y' := by
  have sameGroup := same.congr_scalar (isTokenGroup name) (fun _ _ => rfl) fun _ _ => rfl
  rw [Normal.entry] at converted ⊢
  rw [← sameGroup]
  split at converted
  · rename_i isGroup
    rw [if_pos isGroup]
    exact normalize_reordered same keyed converted
  · rename_i noGroup
    cases converted
    exact ⟨y, if_neg noGroup, same⟩

/-- A document, entry by entry. -/
theorem normalizeDocument_reordered {a b out : Json} (same : a.Reordered b) (keyed : a.isKeyed = true)
    (converted : normalizeDocument a = .ok out) :
    ∃ out', normalizeDocument b = .ok out' ∧ out.Reordered out' := by
  cases same.cases with
  | scalar => exact ⟨out, converted, .refl _⟩
  | arr =>
      cases converted
      exact ⟨_, rfl, same⟩
  | @obj xs ys members =>
      obtain ⟨distinct, valuesKeyed⟩ := (isKeyed_obj_iff xs).1 keyed
      obtain ⟨entries, rfl, made⟩ := (normalizeDocument_obj_eq_ok_iff xs out).1 converted
      obtain ⟨entries', made', related⟩ := members.exists_paired made
        fun name x y x' mem related madeOne => entry_reordered related (valuesKeyed _ mem) madeOne
      rw [groupTypeName_eq members distinct] at made'
      exact ⟨.obj entries', (normalizeDocument_obj_eq_ok_iff ys _).2 ⟨entries', rfl, made'⟩,
        (reordered_obj_iff _ _).2 related⟩

/-- **The order of members means nothing.**  In reordered documents a check makes the same findings,
down to the places and the severities, and finds the same clusters, so it finds both of them valid, or
clean, or neither; and the conversion makes reordered documents of them, or gives up on both. -/
theorem order_irrelevant (v : Validator) {a b : Json} (same : a.Reordered b) (keyed : a.isKeyed = true) :
    (v.validate a).Agree (v.validate b) ∧
      ((∃ out out', normalizeDocument a = .ok out ∧ normalizeDocument b = .ok out' ∧
          out.Reordered out') ∨
        ∃ fault fault', normalizeDocument a = .error fault ∧ normalizeDocument b = .error fault') := by
  refine ⟨v.validate_agree same keyed, ?_⟩
  cases converted : normalizeDocument a with
  | ok out =>
      obtain ⟨out', converted', related⟩ := normalizeDocument_reordered same keyed converted
      exact .inl ⟨out, out', rfl, converted', related⟩
  | error fault =>
      cases converted' : normalizeDocument b with
      | ok out' =>
          obtain ⟨out, done, -⟩ := normalizeDocument_reordered same.symm (same.isKeyed keyed) converted'
          rw [converted] at done
          cases done
      | error fault' => exact .inr ⟨fault, fault', rfl, rfl⟩

namespace Example

/-- The older token of `sizes`, with its description in front. -/
def turnedDefault : Members :=
  [("description", .str "root"), ("value", .str "2rem"), ("type", .null)]

/-- The wrapped sizes with the members of each object in another order. -/
def turnedSizes : Members :=
  [("base", .obj [("default", .obj turnedDefault), ("small", .str "4px")]),
    ("$type", .str "dimension")]

theorem reordered_turnedSizes :
    (Json.obj [("sizes", .obj wrappedSizes)]).Reordered (.obj [("sizes", .obj turnedSizes)]) := by
  have inDefault : Members.Reordered
      ([("value", .str "2rem"), ("type", .null)] ++ [("description", .str "root")]) turnedDefault :=
    .of_perm List.perm_append_comm
  have inBase : Members.Reordered sizes
      [("default", .obj turnedDefault), ("small", .str "4px")] :=
    ⟨[("small", .str "4px"), ("default", .obj turnedDefault)],
      .cons ⟨rfl, .refl _⟩ (.cons ⟨rfl, (reordered_obj_iff _ _).2 inDefault⟩ .nil), .swap _ _ _⟩
  have inSizes : Members.Reordered wrappedSizes turnedSizes :=
    ⟨[("$type", .str "dimension"),
        ("base", .obj [("default", .obj turnedDefault), ("small", .str "4px")])],
      .cons ⟨rfl, .refl _⟩ (.cons ⟨rfl, (reordered_obj_iff _ _).2 inBase⟩ .nil), .swap _ _ _⟩
  exact (reordered_obj_iff _ _).2 (.single _ ((reordered_obj_iff _ _).2 inSizes))

/-- A bare value is no token and a token is spelled in the older way, in either order; and the structured
form of the one is a reordering of the structured form of the other. -/
theorem turnedSizes_agree :
    (Json.obj [("sizes", .obj wrappedSizes)]).isKeyed = true ∧
      (Json.obj [("sizes", .obj wrappedSizes)]).Reordered (.obj [("sizes", .obj turnedSizes)]) ∧
      (lenient.validate (.obj [("sizes", .obj turnedSizes)])).diagnostics.map Diagnostic.verdict =
        [(some "TOKEN_001", "$.sizes.base.small", .error),
          (some "TOKEN_003", "$.sizes.base.default", .warning),
          (some "TOKEN_004", "$.sizes.base.default", .warning),
          (some "TYPE_001", "$.sizes.base.default.type", .warning)] ∧
      (lenient.validate (.obj [("sizes", .obj wrappedSizes)])).Agree
        (lenient.validate (.obj [("sizes", .obj turnedSizes)])) ∧
      ∃ out, normalizeDocument (.obj [("sizes", .obj turnedSizes)]) = .ok out ∧
        (Json.obj [("sizes", .obj structuredSizes)]).Reordered out := by
  have keyed : (Json.obj [("sizes", .obj wrappedSizes)]).isKeyed = true := by decide
  obtain ⟨agree, conversion⟩ := order_irrelevant lenient reordered_turnedSizes keyed
  refine ⟨keyed, reordered_turnedSizes, by decide, agree, ?_⟩
  rcases conversion with ⟨out, out', converted, converted', related⟩ | ⟨_, _, gaveUp, -⟩
  · rw [normalize_wrappedSizes] at converted
    cases converted
    exact ⟨out', converted', related⟩
  · rw [normalize_wrappedSizes] at gaveUp
    cases gaveUp

end Example

end DesignTokens
