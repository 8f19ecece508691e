/-
# DesignTokens.Proofs.Validation.Clean -- the shape of a clean document

A document is clean if a check finds nothing in it: no error, no warning and no nested cluster.  That
leaves little room for its shape.  It is flat, as any valid document without nested clusters is
(`Validation.hasValue_of_fine`): the root entries hold tokens and nothing else
(`checkNode_eq_nil_iff`).  So a document is clean exactly if its root, its brand block and each of
these tokens is (`isClean_validate_iff`).

A clean token is judged by its type, wherever it stands (`TokenType.Passes`), and has a type if one
can be told (`Members.IsCleanToken`).
-/
import DesignTokens.Proofs.Validation.Findings
import DesignTokens.Proofs.Validation.Flat

namespace DesignTokens

set_option autoImplicit false

namespace Members

/-- A tag, if there is one, names a type. -/
def TagKnown (ms : Members) : Prop :=
  ∀ tag, ms.get? Key.type = some tag → ∃ t : TokenType, tag = .str t.name

/-- A token that a check has nothing to say about, under the type that is handed to it. -/
structure IsCleanToken (token : Members) (handed : Option TokenType) : Prop where
  value : token.has Key.value = true
  known : token.TagKnown
  current : token.get? Key.type = none → token.get? Key.legacyType = none
  typed : token.get? Key.type = none → handed = none → TokenType.infer? token.tokenValue = none
  passes : ∀ t, token.typeOr handed = some t → t.Passes token.tokenValue

/-- A token group that a check has nothing to say about, under the type of the root. -/
structure IsCleanGroup (group : Members) (rootType : Option TokenType) : Prop where
  known : group.TagKnown
  tokens : ∀ m ∈ group, Key.isMeta m.1 = false →
    ∃ token, m.2 = .obj token ∧ IsCleanToken token (group.groupType?.or rootType)

end Members

namespace Validation

/-! ## Tokens -/

theorem checkTag_eq_nil_iff (tag : Json) (path : String) :
    checkTag tag path = [] ↔ ∃ t : TokenType, tag = .str t.name := by
  unfold checkTag
  split
  · rename_i t named
    exact iff_of_true rfl ⟨t, TokenType.eq_of_ofTag? named⟩
  · rename_i unknown
    refine iff_of_false (List.cons_ne_nil _ _) ?_
    rintro ⟨t, rfl⟩
    rw [TokenType.ofTag?_name] at unknown
    cases unknown

theorem checkGroupTag_eq_nil_iff (ms : Members) (path : String) :
    checkGroupTag ms path = [] ↔ ms.TagKnown := by
  rw [checkGroupTag, Members.TagKnown]
  cases ms.get? Key.type with
  | none => simp
  | some tag => simpa using checkTag_eq_nil_iff tag _

/-- A check has nothing to say about the type of a token if its tag is known, or if it has none, of
whatever spelling, and needs none. -/
theorem checkType_eq_nil_iff (ms : Members) (path : String) (handed : Option TokenType) :
    checkType ms path handed = [] ↔
      ms.TagKnown ∧ (ms.get? Key.type = none → ms.get? Key.legacyType = none) ∧
        (ms.get? Key.type = none → handed = none → TokenType.infer? ms.tokenValue = none) := by
  unfold checkType ownTag? Members.TagKnown
  have notLegacy : (Key.type == Key.legacyType) = false := by decide
  cases current : ms.get? Key.type with
  | some tag =>
      simpa [notLegacy] using checkTag_eq_nil_iff tag _
  | none =>
      cases legacy : ms.get? Key.legacyType with
      | some tag => simp
      | none =>
          cases handed with
          | some t => simp
          | none => cases TokenType.infer? ms.tokenValue <;> simp

/-- **A check has nothing to say about a token exactly if the token is clean.** -/
theorem checkToken_eq_nil_iff (ms : Members) (path : String) (handed : Option TokenType) :
    checkToken ms path handed = [] ↔ ms.IsCleanToken handed := by
  have key : checkToken ms path handed = [] ↔
      ms.has Key.value = true ∧ checkType ms path handed = [] ∧
        checkValue ms (path ++ "." ++ Key.value) handed = [] := by
    have notLegacy : (Key.value == Key.legacyValue) = false := by decide
    unfold checkToken Members.valueKey?
    cases current : ms.has Key.value with
    | true => simp [notLegacy]
    | false => cases legacy : ms.has Key.legacyValue <;> simp
  have value : checkValue ms (path ++ "." ++ Key.value) handed = [] ↔
      ∀ t, ms.typeOr handed = some t → t.Passes ms.tokenValue := by
    rw [checkValue, checkedType?_eq]
    cases ms.typeOr handed with
    | none => simp
    | some t => simpa using (t.passes_iff _ _).symm
  rw [key, value, checkType_eq_nil_iff]
  constructor
  · rintro ⟨hasValue, ⟨known, current, typed⟩, passes⟩
    exact ⟨hasValue, known, current, typed, passes⟩
  · rintro ⟨hasValue, known, current, typed, passes⟩
    exact ⟨hasValue, ⟨known, current, typed⟩, passes⟩

end Validation

theorem Members.IsCleanToken.hasValue {token : Members} {handed : Option TokenType}
    (clean : token.IsCleanToken handed) : token.hasValue = true := by
  rw [Members.hasValue_eq, clean.value, Bool.true_or]

theorem Members.IsCleanToken.kind_eq {token : Members} {handed : Option TokenType}
    (clean : token.IsCleanToken handed) : token.kind = .token := by
  rw [kind, isToken, clean.hasValue]
  rfl

namespace Validation

/-! ## Groups -/

theorem checkMembers_eq_nil_iff (keys : KeyChain) (inherited : Option TokenType) (ms : Members) :
    checkMembers keys inherited ms = [] ↔
      ∀ m ∈ ms, Key.isMeta m.1 = false → checkNode (keys ++ [m.1]) inherited m.2 = [] := by
  simp only [List.eq_nil_iff_forall_not_mem, mem_checkMembers_iff_exists_member]
  constructor
  · intro nothing m mem notMeta d found
    exact nothing d ⟨m, mem, notMeta, found⟩
  · rintro nothing d ⟨m, mem, notMeta, found⟩
    exact nothing m mem notMeta d found

/-- **A check and the search for clusters have nothing to say about a member of a group exactly if it
is a clean token.** -/
theorem checkNode_eq_nil_iff (keys : KeyChain) (handed : Option TokenType) (group : String)
    (above : KeyChain) (siblings : Members) (name : String) (node : Json) :
    checkNode keys handed node = [] ∧ clustersAt group above siblings name node = [] ↔
      ∃ token, node = .obj token ∧ Members.IsCleanToken token handed := by
  constructor
  · rintro ⟨nothing, noCluster⟩
    cases node with
    | obj ms =>
        have fine : ∀ d ∈ checkNode keys handed (.obj ms), d.isError = false := by simp [nothing]
        have hasValue := hasValue_of_fine fine noCluster
        rw [Json.hasValue] at hasValue
        rw [checkNode, if_pos (by simp [Members.isToken, hasValue]), checkToken_eq_nil_iff] at nothing
        exact ⟨ms, rfl, nothing⟩
    | _ => cases nothing
  · rintro ⟨token, rfl, clean⟩
    have isToken : Members.isToken token = true := by rw [Members.isToken, clean.hasValue, Bool.true_or]
    constructor
    · rw [checkNode, if_pos isToken, checkToken_eq_nil_iff]
      exact clean
    · rw [clustersAt, clean.kind_eq]

/-- **A root entry is clean exactly if it holds clean tokens alone.** -/
theorem checkEntry_eq_nil_iff {name : String} (notMeta : Key.isMeta name = false)
    (notBrand : name ≠ Key.brand) (rootType : Option TokenType) (value : Json) :
    checkEntry name rootType value = [] ∧ clustersOfEntry name value = [] ↔
      ∃ group, value = .obj group ∧ Members.IsCleanGroup group rootType := by
  cases value with
  | obj ms =>
      have isGroup : isTokenGroup name (.obj ms) = true :=
        (isTokenGroup_iff _ _).2 ⟨notMeta, notBrand, rfl⟩
      rw [checkEntry, clustersOfEntry, if_pos isGroup, List.append_eq_nil_iff,
        checkGroupTag_eq_nil_iff, checkMembers_eq_nil_iff, clustersIn_eq_nil_iff, and_assoc]
      constructor
      · rintro ⟨known, nothing, noCluster⟩
        exact ⟨ms, rfl, known, fun m mem childNotMeta =>
          (checkNode_eq_nil_iff _ _ name [] ms m.1 m.2).1
            ⟨nothing m mem childNotMeta, noCluster m mem childNotMeta⟩⟩
      · rintro ⟨group, same, known, tokens⟩
        cases same
        have clean (m : String × Json) (mem : m ∈ ms) (childNotMeta : Key.isMeta m.1 = false) :=
          (checkNode_eq_nil_iff ([name] ++ [m.1]) _ name [] ms m.1 m.2).2 (tokens m mem childNotMeta)
        exact ⟨known, fun m mem childNotMeta => (clean m mem childNotMeta).1,
          fun m mem childNotMeta => (clean m mem childNotMeta).2⟩
  | _ =>
      refine iff_of_false ?_ ?_
      · rintro ⟨nothing, -⟩
        cases nothing
      · rintro ⟨_, same, -⟩
        cases same

end Validation

/-! ## Documents -/

open Validation

/-- The members of a document that a check has nothing to say about. -/
structure Members.IsClean (v : Validator) (document : Members) : Prop where
  root : checkRoot v document = []
  brand : ∀ brand, document.get? Key.brand = some brand → checkBrand brand = []
  groups : ∀ m ∈ document, Key.isMeta m.1 = false → m.1 ≠ Key.brand →
    ∃ group, m.2 = .obj group ∧ IsCleanGroup group document.groupType?

theorem Findings.isClean_ofDiagnostics (found : List Diagnostic) (clusters : List Cluster) :
    (ofDiagnostics found clusters).isClean = true ↔ found = [] ∧ clusters = [] := by
  rw [isClean, ofDiagnostics, Bool.and_eq_true, Bool.and_eq_true, List.isEmpty_iff, List.isEmpty_iff,
    List.isEmpty_iff]
  refine and_congr_left fun _ => ⟨?_, ?_⟩
  · rintro ⟨noErrors, noWarnings⟩
    rw [List.eq_nil_iff_forall_not_mem]
    intro d mem
    cases isError : d.isError with
    | true => simpa [isError] using (List.filter_eq_nil_iff.1 noErrors) d mem
    | false => simpa [isError] using (List.filter_eq_nil_iff.1 noWarnings) d mem
  · rintro rfl
    exact ⟨rfl, rfl⟩

/-- **A document is clean exactly if its root, its brand block and its token groups are.** -/
theorem isClean_validate_iff (v : Validator) (document : Json) :
    (v.validate document).isClean = true ↔ ∃ ms, document = .obj ms ∧ Members.IsClean v ms := by
  cases document with
  | obj ms =>
      rw [Validator.validate, Findings.isClean_ofDiagnostics, checkDocument, clusters,
        List.append_eq_nil_iff, List.append_eq_nil_iff, List.flatMap_eq_nil_iff,
        List.flatMap_eq_nil_iff]
      have brand : ((Members.get? ms Key.brand).map checkBrand).getD [] = [] ↔
          ∀ brand, Members.get? ms Key.brand = some brand → checkBrand brand = [] := by
        cases Members.get? ms Key.brand <;> simp
      rw [brand]
      constructor
      · rintro ⟨⟨⟨root, brand⟩, entries⟩, noClusters⟩
        refine ⟨ms, rfl, root, brand, fun m mem notMeta notBrand => ?_⟩
        have nothing := entries m mem
        rw [if_neg (by simp [notMeta, notBrand])] at nothing
        exact (checkEntry_eq_nil_iff notMeta notBrand _ m.2).1 ⟨nothing, noClusters m mem⟩
      · rintro ⟨ms', same, clean⟩
        cases same
        have entry (m : String × Json) (mem : m ∈ ms) (notMeta : Key.isMeta m.1 = false)
            (notBrand : m.1 ≠ Key.brand) :=
          (checkEntry_eq_nil_iff notMeta notBrand _ m.2).2 (clean.groups m mem notMeta notBrand)
        refine ⟨⟨⟨clean.root, clean.brand⟩, fun m mem => ?_⟩, fun m mem => ?_⟩
        · split
          · rfl
          · rename_i isEntry
            simp only [Bool.or_eq_true, beq_iff_eq, not_or, Bool.not_eq_true] at isEntry
            exact (entry m mem isEntry.1 isEntry.2).1
        · cases isGroup : isTokenGroup m.1 m.2 with
          | true =>
              obtain ⟨notMeta, notBrand, -⟩ := (isTokenGroup_iff _ _).1 isGroup
              exact (entry m mem notMeta notBrand).2
          | false => exact clustersOfEntry_of_isTokenGroup_eq_false isGroup
  | _ =>
      refine iff_of_false ?_ ?_
      · intro clean
        cases clean
      · rintro ⟨_, same, -⟩
        cases same

end DesignTokens
