/-
# DesignTokens.Proofs.Validation.Findings -- where the findings of a check come from

A check walks a document top down and passes the type in effect along.  Each of its findings is made
at one node, and `foundAt` lists what a check has to say about a node apart from what is below it.
This module takes the walk out of the check: what is found below a group is what is found at the
ends of the chains of keys that lead down from it, under the type that each of them hands down
(`mem_checkMembers_iff`), and a document adds what its root holds (`mem_checkDocument_iff`).

What is said about type tags is never an error, so a node is in order or not by its form and its
value alone (`isError_checkToken_iff`).  A finding about the form of a token is made at a node that
a chain leads to (`exists_foundAt_of_tokenRule`), and `TokenFinding` says what it takes there.
-/
import DesignTokens.Proofs.Json.Keyed
import DesignTokens.Proofs.Node
import DesignTokens.Proofs.Rule.Kinds
import DesignTokens.Proofs.Validation.Types

namespace DesignTokens

set_option autoImplicit false

namespace Validation

/-! ## One node -/

/-- What a check finds at a node itself. -/
def foundAt (keys : KeyChain) (handed : Option TokenType) : Json → List Diagnostic
  | .obj ms =>
      if Members.isToken ms then checkToken ms (Path.join keys) handed
      else checkGroupTag ms (Path.join keys)
  | value => [notAToken value (Path.join keys)]

theorem mem_checkMembers_iff_exists_member (keys : KeyChain) (inherited : Option TokenType)
    (ms : Members) (d : Diagnostic) :
    d ∈ checkMembers keys inherited ms ↔
      ∃ m ∈ ms, Key.isMeta m.1 = false ∧ d ∈ checkNode (keys ++ [m.1]) inherited m.2 := by
  induction ms with
  | nil => simp [checkMembers]
  | cons m ms ih =>
      obtain ⟨key, node⟩ := m
      rw [checkMembers, List.mem_append, ih, List.exists_mem_cons_iff]
      refine or_congr_left ?_
      cases Key.isMeta key <;> simp

/-- A check of a node finds something at the node, or goes on below it if it is a group. -/
theorem mem_checkNode_iff (keys : KeyChain) (inherited : Option TokenType) (node : Json)
    (d : Diagnostic) :
    d ∈ checkNode keys inherited node ↔
      d ∈ foundAt keys inherited node ∨
        ∃ group, node = .obj group ∧ Members.isToken group = false ∧
          d ∈ checkMembers keys ((Members.groupType? group).or inherited) group := by
  cases node with
  | obj ms =>
      rw [checkNode, foundAt]
      cases isToken : Members.isToken ms with
      | true => simp [isToken]
      | false =>
          rw [if_neg (by decide), if_neg (by decide), List.mem_append]
          refine or_congr_right ⟨fun below => ⟨ms, rfl, isToken, below⟩, ?_⟩
          rintro ⟨group, same, -, below⟩
          cases same
          exact below
  | _ => simp [checkNode, foundAt]

/-! ## Below a group -/

/-- **What a check finds below a group** is what it finds at the ends of the chains that lead down. -/
theorem mem_checkMembers_iff (ms : Members) (keyed : (Json.obj ms).isKeyed = true) (keys : KeyChain)
    (inherited : Option TokenType) (d : Diagnostic) :
    d ∈ checkMembers keys (ms.groupType?.or inherited) ms ↔
      ∃ chain node, ms.Leads chain node ∧
        d ∈ foundAt (keys ++ chain) ((Json.obj ms).handedDown inherited chain) node := by
  constructor
  · intro found
    induction ms using Members.nested_induction generalizing keys inherited with
    | step ms ih =>
        obtain ⟨⟨key, node⟩, inMs, notMeta, inNode⟩ :=
          (mem_checkMembers_iff_exists_member _ _ _ d).1 found
        have child := Members.get?_of_mem ((isKeyed_obj_iff ms).1 keyed).1 inMs
        rcases (mem_checkNode_iff _ _ _ d).1 inNode with here | ⟨group, rfl, isGroup, below⟩
        · refine ⟨[key], node, .here notMeta child, ?_⟩
          rwa [Json.handedDown_singleton]
        · obtain ⟨chain, end_, leads, atEnd⟩ :=
            ih key group inMs (Members.isKeyed_of_get? keyed child) _ _ below
          refine ⟨key :: chain, end_, .under notMeta child isGroup leads, ?_⟩
          rwa [Json.handedDown_cons child, List.append_cons]
  · rintro ⟨chain, node, leads, atEnd⟩
    clear keyed
    induction leads generalizing keys inherited with
    | @here ms key node notMeta child =>
        rw [Json.handedDown_singleton] at atEnd
        refine (mem_checkMembers_iff_exists_member _ _ _ d).2
          ⟨(key, node), Members.mem_of_get? child, notMeta, ?_⟩
        exact (mem_checkNode_iff _ _ _ d).2 (.inl atEnd)
    | @under ms group key rest node notMeta child isGroup _ ih =>
        rw [Json.handedDown_cons child, List.append_cons] at atEnd
        refine (mem_checkMembers_iff_exists_member _ _ _ d).2
          ⟨(key, .obj group), Members.mem_of_get? child, notMeta, ?_⟩
        exact (mem_checkNode_iff _ _ _ d).2 (.inr ⟨group, rfl, isGroup, ih _ _ atEnd⟩)

/-! ## Documents -/

/-- A root entry that is neither metadata nor the brand block. -/
structure IsEntry (document : Members) (name : String) (value : Json) : Prop where
  found : document.get? name = some value
  notMeta : Key.isMeta name = false
  notBrand : name ≠ Key.brand

/-- **What a check finds in a document** is what it finds at the root, in the brand block, and in
the root entries. -/
theorem mem_checkDocument_iff (v : Validator) {document : Members}
    (keyed : (Json.obj document).isKeyed = true) (d : Diagnostic) :
    d ∈ checkDocument v document ↔
      d ∈ checkRoot v document ∨
        (∃ brand, document.get? Key.brand = some brand ∧ d ∈ checkBrand brand) ∨
          ∃ name value, IsEntry document name value ∧
            d ∈ checkEntry name document.groupType? value := by
  rw [checkDocument, List.mem_append, List.mem_append, or_assoc]
  refine or_congr_right (or_congr ?_ ?_)
  · cases document.get? Key.brand <;> simp
  · rw [List.mem_flatMap]
    constructor
    · rintro ⟨⟨name, value⟩, inDocument, inEntry⟩
      split at inEntry
      · cases inEntry
      · rename_i isEntry
        simp only [Bool.or_eq_true, beq_iff_eq, not_or, Bool.not_eq_true] at isEntry
        have found := Members.get?_of_mem ((isKeyed_obj_iff document).1 keyed).1 inDocument
        exact ⟨name, value, ⟨found, isEntry.1, isEntry.2⟩, inEntry⟩
    · rintro ⟨name, value, ⟨found, notMeta, notBrand⟩, inEntry⟩
      refine ⟨(name, value), Members.mem_of_get? found, ?_⟩
      rw [if_neg (by simp [notMeta, notBrand])]
      exact inEntry

/-- A token group is checked for its own tag and, down the chains, for what it holds.  What is handed
down to the end of a chain is counted from the root of the document. -/
theorem mem_checkEntry_iff {document group : Members} {name : String}
    (found : document.get? name = some (.obj group)) (keyed : (Json.obj group).isKeyed = true)
    (d : Diagnostic) :
    d ∈ checkEntry name document.groupType? (.obj group) ↔
      d ∈ checkGroupTag group (Path.join [name]) ∨
        ∃ below node, group.Leads below node ∧
          d ∈ foundAt (name :: below) ((Json.obj document).handedDown none (name :: below)) node := by
  rw [checkEntry, List.mem_append, mem_checkMembers_iff group keyed]
  simp only [Json.handedDown_cons found, Option.or_none, List.cons_append, List.nil_append]

/-! ## Warnings only -/

theorem isError_checkTag (tag : Json) (path : String) :
    ∀ d ∈ checkTag tag path, d.isError = false := by
  unfold checkTag
  split
  · nofun
  · intro d mem
    rw [List.mem_singleton.1 mem]
    rfl

theorem isError_checkGroupTag (ms : Members) (path : String) :
    ∀ d ∈ checkGroupTag ms path, d.isError = false := by
  unfold checkGroupTag
  split
  · exact isError_checkTag _ _
  · nofun

theorem isError_checkType (ms : Members) (path : String) (handed : Option TokenType) :
    ∀ d ∈ checkType ms path handed, d.isError = false := by
  unfold checkType
  split
  · intro d mem
    rcases List.mem_append.1 mem with legacy | tag
    · split at legacy
      · rw [List.mem_singleton.1 legacy]
        rfl
      · cases legacy
    · exact isError_checkTag _ _ d tag
  · nofun
  · split
    · intro d mem
      rw [List.mem_singleton.1 mem]
      rfl
    · nofun

/-- What a check finds in a token with a value is in order if the rule of its type finds no error. -/
theorem isError_checkToken_iff {ms : Members} {key : String} (value : ms.valueKey? = some key)
    (path : String) (handed : Option TokenType) :
    (∀ d ∈ checkToken ms path handed, d.isError = false) ↔
      ∀ t, ms.typeOr handed = some t →
        ∀ d ∈ t.check ms.tokenValue (path ++ "." ++ key), d.isError = false := by
  have legacy : ∀ d ∈ (if key == Key.legacyValue then [legacyValue ms.tokenValue path] else []),
      d.isError = false := by
    intro d mem
    split at mem
    · rw [List.mem_singleton.1 mem]
      rfl
    · cases mem
  unfold checkToken
  rw [value]
  dsimp only
  rw [checkValue, checkedType?_eq]
  constructor
  · intro fine t named d mem
    rw [named] at fine
    exact fine d (List.mem_append_right _ mem)
  · intro fine d mem
    rcases List.mem_append.1 mem with about | inValue
    · rcases List.mem_append.1 about with old | type
      · exact legacy d old
      · exact isError_checkType ms path handed d type
    · cases named : ms.typeOr handed with
      | none =>
          rw [named] at inValue
          cases inValue
      | some t =>
          rw [named] at inValue
          exact fine t named d inValue

/-! ## Findings about the form of a token -/

/-- The identifiers of the findings about the form of a token. -/
def tokenRules : List String :=
  ["TOKEN_001", "TOKEN_002", "TOKEN_003", "TOKEN_004", "TOKEN_005"]

/-- A finding that is not about the form of a token. -/
def IsOther (d : Diagnostic) : Prop :=
  ∀ id ∈ tokenRules, d.ruleId ≠ some id

theorem isOther_of_ruleId {d : Diagnostic} (id : String) (name : d.ruleId = some id)
    (isOther : id ∉ tokenRules) : IsOther d := by
  rintro other mem same
  rw [name] at same
  cases same
  exact isOther mem

theorem isOther_checkTag (tag : Json) (path : String) : ∀ d ∈ checkTag tag path, IsOther d := by
  unfold checkTag
  split
  · nofun
  · intro d mem
    rw [List.mem_singleton.1 mem]
    exact isOther_of_ruleId "TYPE_001" rfl (by decide)

theorem isOther_checkGroupTag (ms : Members) (path : String) :
    ∀ d ∈ checkGroupTag ms path, IsOther d := by
  unfold checkGroupTag
  split
  · exact isOther_checkTag _ _
  · nofun

theorem isOther_checkValue (ms : Members) (path : String) (handed : Option TokenType) :
    ∀ d ∈ checkValue ms path handed, IsOther d := by
  have apart : ∀ id ∈ Rule.valueRules, id ∉ tokenRules := by decide
  unfold checkValue
  split
  · intro d mem
    obtain ⟨id, known, name⟩ := TokenType.ruleId_of_mem_check mem
    exact isOther_of_ruleId id name (apart id known)
  · nofun

theorem isOther_checkRoot (v : Validator) (document : Members) :
    ∀ d ∈ checkRoot v document, IsOther d := by
  intro d mem
  rcases List.mem_append.1 mem with first | tag
  · rcases List.mem_append.1 first with inSchema | reserved
    · unfold checkSchema at inSchema
      split at inSchema
      · split at inSchema
        · rw [List.mem_singleton.1 inSchema]
          exact isOther_of_ruleId "ROOT_002" rfl (by decide)
        · cases inSchema
      · cases inSchema
      · rw [List.mem_singleton.1 inSchema]
        exact isOther_of_ruleId "ROOT_003" rfl (by decide)
    · obtain ⟨key, -, inKey⟩ := List.mem_flatMap.1 reserved
      unfold checkReserved at inKey
      split at inKey
      · rw [List.mem_singleton.1 inKey]
        exact isOther_of_ruleId "ROOT_004" rfl (by decide)
      · cases inKey
  · split at tag
    · exact isOther_checkTag _ _ d tag
    · cases tag

theorem isOther_checkBrand (brand : Json) : ∀ d ∈ checkBrand brand, IsOther d := by
  intro d mem
  cases brand with
  | obj ms =>
      obtain ⟨field, -, rfl⟩ := List.mem_map.1 mem
      exact isOther_of_ruleId "BRAND_002" rfl (by decide)
  | _ =>
      rw [List.mem_singleton.1 mem]
      exact isOther_of_ruleId "BRAND_001" rfl (by decide)

/-- What the findings about a token's form say of the token. -/
inductive TokenFinding (ms : Members) (path : String) (handed : Option TokenType) :
    Diagnostic → Prop
  | noValue : ms.hasValue = false → TokenFinding ms path handed (missingValue ms path)
  | oldValue : ms.has Key.value = false → ms.has Key.legacyValue = true →
      TokenFinding ms path handed (legacyValue ms.tokenValue path)
  | oldType {tag : Json} : ms.hasValue = true → ms.get? Key.type = none →
      ms.get? Key.legacyType = some tag → TokenFinding ms path handed (legacyType tag path)
  | noType {t : TokenType} : ms.hasValue = true → ms.get? Key.type = none →
      ms.get? Key.legacyType = none → handed = none → TokenType.infer? ms.tokenValue = some t →
        TokenFinding ms path handed (missingType t path)
  | other {d : Diagnostic} : IsOther d → TokenFinding ms path handed d

theorem tokenFinding_of_mem_checkType {ms : Members} {path : String} {handed : Option TokenType}
    (hasValue : ms.hasValue = true) {d : Diagnostic} (mem : d ∈ checkType ms path handed) :
    TokenFinding ms path handed d := by
  have notLegacy : (Key.type == Key.legacyType) = false := by decide
  unfold checkType ownTag? at mem
  cases current : ms.get? Key.type with
  | some tag =>
      simp only [current, notLegacy, Bool.false_eq_true, if_false, List.nil_append] at mem
      exact .other (isOther_checkTag _ _ d mem)
  | none =>
      cases legacy : ms.get? Key.legacyType with
      | some tag =>
          simp only [current, legacy, Option.map_some, beq_self_eq_true, if_true] at mem
          rcases List.mem_append.1 mem with old | unknown
          · rw [List.mem_singleton.1 old]
            exact .oldType hasValue current legacy
          · exact .other (isOther_checkTag _ _ d unknown)
      | none =>
          simp only [current, legacy, Option.map_none] at mem
          split at mem
          · rename_i absent
            cases absent
          · cases mem
          · split at mem
            · rename_i t inferred
              rw [List.mem_singleton.1 mem]
              exact .noType hasValue current legacy rfl inferred
            · cases mem

theorem tokenFinding_of_mem_checkToken {ms : Members} {path : String} {handed : Option TokenType}
    {d : Diagnostic} (mem : d ∈ checkToken ms path handed) : TokenFinding ms path handed d := by
  unfold checkToken Members.valueKey? at mem
  cases current : ms.has Key.value with
  | true =>
      have hasValue : ms.hasValue = true := by rw [Members.hasValue_eq, current, Bool.true_or]
      have notLegacy : (Key.value == Key.legacyValue) = false := by decide
      simp only [current, if_true, notLegacy, Bool.false_eq_true, if_false, List.nil_append] at mem
      rcases List.mem_append.1 mem with type | value
      · exact tokenFinding_of_mem_checkType hasValue type
      · exact .other (isOther_checkValue _ _ _ d value)
  | false =>
      cases legacy : ms.has Key.legacyValue with
      | true =>
          have hasValue : ms.hasValue = true := by rw [Members.hasValue_eq, legacy, Bool.or_true]
          simp only [current, legacy, Bool.false_eq_true, if_false, if_true, beq_self_eq_true] at mem
          rcases List.mem_append.1 mem with about | value
          · rcases List.mem_append.1 about with old | type
            · rw [List.mem_singleton.1 old]
              exact .oldValue current legacy
            · exact tokenFinding_of_mem_checkType hasValue type
          · exact .other (isOther_checkValue _ _ _ d value)
      | false =>
          simp only [current, legacy, Bool.false_eq_true, if_false] at mem
          rw [List.mem_singleton.1 mem]
          exact .noValue (by rw [Members.hasValue_eq, current, legacy]; rfl)

/-- What is found at an object is about the form of a token, or about something else. -/
theorem tokenFinding_of_mem_foundAt {ms : Members} {keys : KeyChain} {handed : Option TokenType}
    {d : Diagnostic} (mem : d ∈ foundAt keys handed (.obj ms)) :
    TokenFinding ms (Path.join keys) handed d := by
  cases isToken : ms.isToken with
  | true =>
      rw [foundAt, if_pos isToken] at mem
      exact tokenFinding_of_mem_checkToken mem
  | false =>
      rw [foundAt, if_neg (Bool.eq_false_iff.1 isToken)] at mem
      exact .other (isOther_checkGroupTag _ _ d mem)

/-- **A finding about the form of a token is made at a node below a token group.** -/
theorem exists_foundAt_of_tokenRule (v : Validator) {document : Members}
    (keyed : (Json.obj document).isKeyed = true) {d : Diagnostic} (mem : d ∈ checkDocument v document)
    {id : String} (name : d.ruleId = some id) (rule : id ∈ tokenRules) :
    ∃ (entry : String) (group : Members) (below : KeyChain) (node : Json),
      document.get? entry = some (.obj group) ∧ isTokenGroup entry (.obj group) = true ∧
        group.Leads below node ∧
          d ∈ foundAt (entry :: below) ((Json.obj document).handedDown none (entry :: below)) node := by
  have about : ¬ IsOther d := fun isOther => isOther id rule name
  rcases (mem_checkDocument_iff v keyed d).1 mem with
    atRoot | ⟨brand, -, inBrand⟩ | ⟨entry, value, ⟨found, notMeta, notBrand⟩, inEntry⟩
  · exact absurd (isOther_checkRoot v document d atRoot) about
  · exact absurd (isOther_checkBrand brand d inBrand) about
  · cases value with
    | obj group =>
        have groupKeyed := Members.isKeyed_of_get? keyed found
        rcases (mem_checkEntry_iff found groupKeyed d).1 inEntry with tag | ⟨below, node, leads, atNode⟩
        · exact absurd (isOther_checkGroupTag _ _ d tag) about
        · have isGroup := (isTokenGroup_iff entry (.obj group)).2 ⟨notMeta, notBrand, rfl⟩
          exact ⟨entry, group, below, node, found, isGroup, leads, atNode⟩
    | _ =>
        rw [List.mem_singleton.1 inEntry] at about
        exact absurd (isOther_of_ruleId "GROUP_001" rfl (by decide)) about

end Validation

end DesignTokens
