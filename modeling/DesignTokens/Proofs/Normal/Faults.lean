/-
# DesignTokens.Proofs.Normal.Faults -- when the conversion gives up

The conversion of a document has one way to fail.  A token that is given the type of a colour may
have a text for its value that looks like one and cannot be read (`Colour.Unreadable`).  Nothing else
is ever refused: not a tree of any shape, nor a tag or a dimension of any spelling.

`Json.Converts` follows the conversion to the tokens that it makes, through lists, groups and the
wrappers that give way.  A document has a structured form exactly if none of these tokens is
unreadable, and a fault is always the fault of one of them (`normalizeDocument_isOk_iff`).
-/
import DesignTokens.Proofs.Normal.Colour

namespace DesignTokens

set_option autoImplicit false

/-! ## Tokens -/

/-- A token that is taken for a colour, with a text that cannot be read as one. -/
structure Members.Unreadable (token : Members) (parentType : Option String) (fault : Fault) : Prop where
  isColour : Normal.typeOf token parentType = some TokenType.color.name
  spells : ∃ s, token.tokenValue = .str s ∧ Colour.Unreadable s.toList fault

namespace Normal

/-- A text gives up if it may be a colour, and cannot be read as one. -/
theorem convertText_eq_error_iff (s : String) (type : Option String) (fault : Fault) :
    convertText s type = .error fault ↔
      type.all (· == TokenType.color.name) = true ∧ Colour.Unreadable s.toList fault := by
  unfold convertText
  dsimp only
  split
  · rename_i mayBe
    split
    · rename_i hash
      constructor
      · intro failed
        rcases Fault.bind_eq_error_iff.1 failed with atRead | ⟨read, -, done⟩
        · exact ⟨mayBe, ((Colour.ofHex?_eq_error_iff _ _).1 atRead).2⟩
        · cases read <;> cases done
      · rintro ⟨-, unreadable⟩
        exact Fault.bind_eq_error_iff.2 (.inl ((Colour.ofHex?_eq_error_iff _ _).2 ⟨hash, unreadable⟩))
    · rename_i noHash
      constructor
      · intro failed
        rcases Fault.bind_eq_error_iff.1 failed with atRead | ⟨read, -, done⟩
        · exact ⟨mayBe, ((Colour.ofFunction?_eq_error_iff _ _).1 atRead).2⟩
        · cases read <;> cases done
      · rintro ⟨-, unreadable⟩
        exact Fault.bind_eq_error_iff.2
          (.inl ((Colour.ofFunction?_eq_error_iff _ _).2 ⟨noHash, unreadable⟩))
  · rename_i isOther
    simp [isOther, pure, Except.pure]

theorem convert_eq_error_iff (value : Json) (type : Option String) (fault : Fault) :
    convert value type = .error fault ↔
      type.all (· == TokenType.color.name) = true ∧
        ∃ s, value = .str s ∧ Colour.Unreadable s.toList fault := by
  cases value with
  | str s =>
      rw [convert, convertText_eq_error_iff]
      simp
  | _ => simp [convert]

/-- **A token gives up exactly if it is unreadable.**  Its type is told, because a text that looks
like a colour suggests one. -/
theorem token_eq_error_iff (ms : Members) (parentType : Option String) (fault : Fault) :
    token ms parentType = .error fault ↔ ms.Unreadable parentType fault := by
  have convertFails : token ms parentType = .error fault ↔
      convert ms.tokenValue (typeOf ms parentType) = .error fault := by
    unfold token
    rw [Fault.bind_eq_error_iff, or_iff_left]
    rintro ⟨_, -, done⟩
    cases done
  rw [convertFails, convert_eq_error_iff]
  constructor
  · rintro ⟨mayBe, s, isText, unreadable⟩
    refine ⟨?_, s, isText, unreadable⟩
    cases given : typeOf ms parentType with
    | some type => simpa [given] using mayBe
    | none =>
        have unknown := infer?_of_typeOf given
        rw [isText, Colour.infer?_of_unreadable unreadable] at unknown
        cases unknown
  · rintro ⟨isColour, spells⟩
    exact ⟨by simp [isColour], spells⟩

end Normal

/-! ## Trees -/

/-- The conversion of a node, under a type that is handed to it, makes a token under a type. -/
inductive Json.ConvertsBelow : Option String → Json → Option String → Members → Prop
  | token {parentType : Option String} {ms : Members} (noWrapper : ms.unwrap? = none)
      (hasValue : ms.hasValue = true) : ConvertsBelow parentType (.obj ms) parentType ms
  | wrapper {parentType type : Option String} {ms inner token : Members}
      (wrapper : ms.unwrap? = some inner) (below : ConvertsBelow parentType (.obj inner) type token) :
      ConvertsBelow parentType (.obj ms) type token
  | member {parentType type : Option String} {ms token : Members} {key : String} {child : Json}
      (noWrapper : ms.unwrap? = none) (noValue : ms.hasValue = false) (mem : (key, child) ∈ ms)
      (notMeta : Key.isMeta key = false)
      (below : ConvertsBelow (groupTypeName ms parentType) child.asNode type token) :
      ConvertsBelow parentType (.obj ms) type token
  | item {parentType type : Option String} {items : List Json} {item : Json} {token : Members}
      (mem : item ∈ items) (below : ConvertsBelow parentType item type token) :
      ConvertsBelow parentType (.arr items) type token

/-- A walk along a list gives up exactly if some step does, and then with the fault of a step. -/
theorem Fault.walk_eq_error {α β γ : Type} {f : α → Except Fault β} {g : α → β → γ}
    {walk : List α → Except Fault (List γ)} (nil : walk [] = .ok [])
    (cons : ∀ a rest, walk (a :: rest) = do
      let first ← f a
      let others ← walk rest
      return g a first :: others) (as : List α) :
    (∀ fault, walk as = .error fault → ∃ a ∈ as, f a = .error fault) ∧
      ∀ a ∈ as, ∀ fault, f a = .error fault → ∃ fault', walk as = .error fault' := by
  induction as with
  | nil =>
      rw [nil]
      exact ⟨nofun, nofun⟩
  | cons a rest ih =>
      rw [cons]
      constructor
      · intro fault failed
        rcases Fault.bind_eq_error_iff.1 failed with atFirst | ⟨first, -, more⟩
        · exact ⟨a, List.mem_cons_self, atFirst⟩
        · obtain ⟨b, mem, failedThere⟩ := ih.1 fault (Fault.bind_pure_eq_error_iff.1 more)
          exact ⟨b, List.mem_cons_of_mem a mem, failedThere⟩
      · intro b mem fault failed
        cases first : f a with
        | error fault' => exact ⟨fault', rfl⟩
        | ok value =>
            rcases List.mem_cons.1 mem with rfl | inRest
            · rw [first] at failed
              cases failed
            · obtain ⟨fault', others⟩ := ih.2 b inRest fault failed
              exact ⟨fault', by rw [others]; rfl⟩

theorem normalizeItems_eq_error (parentType : Option String) (items : List Json) :
    (∀ fault, normalizeItems parentType items = .error fault →
        ∃ item ∈ items, item.normalize parentType = .error fault) ∧
      ∀ item ∈ items, ∀ fault, item.normalize parentType = .error fault →
        ∃ fault', normalizeItems parentType items = .error fault' :=
  Fault.walk_eq_error (g := fun _ first => first) (normalizeItems.eq_1 parentType)
    (normalizeItems.eq_2 parentType) items

theorem normalizeMembers_eq_error (parentType : Option String) (ms : Members) :
    (∀ fault, normalizeMembers parentType ms = .error fault →
        ∃ m ∈ ms, normalizeMember parentType m.1 m.2 = .error fault) ∧
      ∀ m ∈ ms, ∀ fault, normalizeMember parentType m.1 m.2 = .error fault →
        ∃ fault', normalizeMembers parentType ms = .error fault' :=
  Fault.walk_eq_error (normalizeMembers.eq_1 parentType)
    (fun m rest => normalizeMembers_cons parentType m.1 m.2 rest) ms

theorem entries_eq_error (rootType : Option String) (ms : Members) :
    (∀ fault, Normal.entries rootType ms = .error fault →
        ∃ m ∈ ms, Normal.entry rootType m.1 m.2 = .error fault) ∧
      ∀ m ∈ ms, ∀ fault, Normal.entry rootType m.1 m.2 = .error fault →
        ∃ fault', Normal.entries rootType ms = .error fault' :=
  Fault.walk_eq_error (Normal.entries.eq_1 rootType)
    (fun m rest => Normal.entries.eq_2 rootType m.1 m.2 rest) ms

/-- The fault of a tree is the fault of a token in it. -/
theorem exists_unreadable_of_normalize {parentType : Option String} {node : Json} {fault : Fault}
    (failed : node.normalize parentType = .error fault) :
    ∃ type token, Json.ConvertsBelow parentType node type token ∧
      Members.Unreadable token type fault := by
  induction parentType, node using normalize_induction with
  | list parentType items ih =>
      rw [Json.normalize] at failed
      have inItems := Fault.bind_pure_eq_error_iff.1 failed
      obtain ⟨item, mem, itemFailed⟩ := (normalizeItems_eq_error parentType items).1 fault inItems
      obtain ⟨type, token, below, unreadable⟩ := ih item mem itemFailed
      exact ⟨type, token, .item mem below, unreadable⟩
  | wrapper parentType ms inner wrapper ih =>
      rw [normalize_wrapper wrapper] at failed
      obtain ⟨type, token, below, unreadable⟩ := ih failed
      exact ⟨type, token, .wrapper wrapper below, unreadable⟩
  | token parentType ms noWrapper hasValue =>
      rw [normalize_token noWrapper hasValue, Fault.map_eq_error_iff,
        Normal.token_eq_error_iff] at failed
      exact ⟨parentType, ms, .token noWrapper hasValue, failed⟩
  | group parentType ms noWrapper noValue ih =>
      rw [normalize_group noWrapper noValue, Fault.map_eq_error_iff] at failed
      obtain ⟨m, mem, memberFailed⟩ := (normalizeMembers_eq_error _ ms).1 fault failed
      cases isMeta : Key.isMeta m.1 with
      | true =>
          rw [normalizeMember, if_pos isMeta] at memberFailed
          cases memberFailed
      | false =>
          rw [normalizeMember, if_neg (by simp [isMeta])] at memberFailed
          obtain ⟨type, token, below, unreadable⟩ := ih m mem isMeta memberFailed
          exact ⟨type, token, .member noWrapper noValue mem isMeta below, unreadable⟩
  | scalar parentType value noList noObject =>
      rw [normalize_scalar noList noObject] at failed
      cases failed

/-- A token that is unreadable makes the whole tree give up. -/
theorem normalize_eq_error_of_unreadable {parentType type : Option String} {node : Json}
    {token : Members} (below : Json.ConvertsBelow parentType node type token) {fault : Fault}
    (unreadable : token.Unreadable type fault) :
    ∃ fault', node.normalize parentType = .error fault' := by
  induction below with
  | token noWrapper hasValue =>
      refine ⟨fault, ?_⟩
      rw [normalize_token noWrapper hasValue, (Normal.token_eq_error_iff _ _ _).2 unreadable]
      rfl
  | wrapper wrapper _ ih =>
      rw [normalize_wrapper wrapper]
      exact ih unreadable
  | @member parentType _ ms _ key child noWrapper noValue mem notMeta _ ih =>
      obtain ⟨fault', childFailed⟩ := ih unreadable
      have memberFailed : normalizeMember (groupTypeName ms parentType) key child = .error fault' := by
        rw [normalizeMember, if_neg (by simp [notMeta]), childFailed]
      obtain ⟨fault'', failed⟩ := (normalizeMembers_eq_error _ ms).2 _ mem fault' memberFailed
      refine ⟨fault'', ?_⟩
      rw [normalize_group noWrapper noValue, failed]
      rfl
  | item mem _ ih =>
      obtain ⟨fault', itemFailed⟩ := ih unreadable
      obtain ⟨fault'', failed⟩ := (normalizeItems_eq_error _ _).2 _ mem fault' itemFailed
      refine ⟨fault'', ?_⟩
      rw [Json.normalize, failed]
      rfl

/-! ## Documents -/

/-- The conversion of a document makes a token under a type. -/
def Json.Converts (document : Json) (type : Option String) (token : Members) : Prop :=
  ∃ (ms : Members) (m : String × Json), document = .obj ms ∧ m ∈ ms ∧
    isTokenGroup m.1 m.2 = true ∧ Json.ConvertsBelow (groupTypeName ms none) m.2 type token

/-- **A document has a structured form exactly if none of its tokens is unreadable.**  Otherwise the
conversion gives up with the fault of a token that is. -/
theorem normalizeDocument_isOk_iff (document : Json) :
    ((∃ out, normalizeDocument document = .ok out) ↔
      ∀ type token fault, document.Converts type token → ¬ Members.Unreadable token type fault) ∧
    ∀ fault, normalizeDocument document = .error fault →
      ∃ type token, document.Converts type token ∧ Members.Unreadable token type fault := by
  have failing (fault : Fault) (failed : normalizeDocument document = .error fault) :
      ∃ type token, document.Converts type token ∧ Members.Unreadable token type fault := by
    cases document with
    | obj ms =>
        have inEntries := Fault.bind_pure_eq_error_iff.1 failed
        obtain ⟨m, mem, entryFailed⟩ := (entries_eq_error _ ms).1 fault inEntries
        rw [Normal.entry] at entryFailed
        split at entryFailed
        · rename_i isGroup
          obtain ⟨type, token, below, unreadable⟩ := exists_unreadable_of_normalize entryFailed
          exact ⟨type, token, ⟨ms, m, rfl, mem, isGroup, below⟩, unreadable⟩
        · cases entryFailed
    | _ => cases failed
  refine ⟨⟨?_, ?_⟩, failing⟩
  · rintro ⟨out, converted⟩ type token fault ⟨ms, m, rfl, mem, isGroup, below⟩ unreadable
    obtain ⟨fault', nodeFailed⟩ := normalize_eq_error_of_unreadable below unreadable
    have entryFailed : Normal.entry (groupTypeName ms none) m.1 m.2 = .error fault' := by
      rw [Normal.entry, if_pos isGroup, nodeFailed]
    obtain ⟨fault'', failed⟩ := (entries_eq_error _ ms).2 m mem fault' entryFailed
    rw [normalizeDocument, failed] at converted
    cases converted
  · intro readable
    cases converted : normalizeDocument document with
    | ok out => exact ⟨out, rfl⟩
    | error fault =>
        obtain ⟨type, token, converts, unreadable⟩ := failing fault converted
        exact absurd unreadable (readable type token fault converts)

namespace Example

/-- A colour of three digits, with a line feed behind it. -/
def brokenAccent : Members :=
  [("accent", .obj [("$value", .str "#fff\n")])]

/-- **The conversion gives up on a colour whose text ends in a line feed.** -/
theorem brokenAccent_gives_up :
    normalizeDocument (.obj [("colors", .obj brokenAccent)]) = .error (.notAnInteger 16 "") := by
  have accent : Normal.token [("$value", .str "#fff\n")] none = .error (.notAnInteger 16 "") :=
    (Normal.token_eq_error_iff _ _ _).2
      ⟨rfl, _, rfl, .shortHex (by decide) (by decide) (by decide)⟩
  have member : normalizeMember none "accent" (.obj [("$value", .str "#fff\n")]) =
      .error (.notAnInteger 16 "") := by
    rw [normalizeMember_obj (by decide), normalize_token rfl rfl, accent]
    rfl
  have members : normalizeMembers none brokenAccent = .error (.notAnInteger 16 "") := by
    rw [brokenAccent, normalizeMembers_cons, member]
    rfl
  have entry : Normal.entry none "colors" (.obj brokenAccent) = .error (.notAnInteger 16 "") := by
    show (Json.obj brokenAccent).normalize none = _
    rw [normalize_group rfl rfl]
    exact Fault.map_eq_error_iff.2 members
  have entries : Normal.entries none [("colors", .obj brokenAccent)] =
      .error (.notAnInteger 16 "") := by
    rw [Normal.entries, entry]
    rfl
  show (do return Json.obj (← Normal.entries none _)) = _
  rw [entries]
  rfl

end Example

end DesignTokens
