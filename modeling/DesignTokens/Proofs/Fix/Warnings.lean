/-
# DesignTokens.Proofs.Fix.Warnings -- what a check warns of and what a fix types

A check and the collection of fixes walk a document each in its own way, and each hands the types of
the groups down by itself.  This module compares the two.  Every token that a fix can give its type
is one that the check warns of, and `UntypedToken.warning` is the warning: the token names its type in
the older spelling, or it names none and its value suggests one.

`Announces` says of the findings of a check and the tokens of a collection that the warnings of the
tokens are among the findings, in order, and that nothing else is found of the second kind.  It holds
at every node and is put together along the walk (`announces_checkMembers`), so it holds of documents
(`announces_checkDocument`).  No object needs to have each key once: neither walk looks a child up.
-/
import DesignTokens.Proofs.Validation.Clean

namespace DesignTokens

set_option autoImplicit false

open Validation

/-- A finding that a token names no type where its value suggests one. -/
def Diagnostic.isMissingType (d : Diagnostic) : Bool :=
  d.ruleId == some "TOKEN_005"

namespace UntypedToken

/-- The type of the token is the one that its value suggests: it has no tag of either spelling. -/
def isInferred (u : UntypedToken) : Bool :=
  !u.token.has Key.legacyType

/-- What a check has to say about a token that can be given a type. -/
def warning (u : UntypedToken) : Diagnostic :=
  match u.token.get? Key.legacyType with
  | some tag => legacyType tag (Path.join u.keys)
  | none => missingType u.type (Path.join u.keys)

theorem warning_of_isInferred {u : UntypedToken} (inferred : u.isInferred = true) :
    u.warning = missingType u.type (Path.join u.keys) := by
  have none : u.token.get? Key.legacyType = .none := by
    simpa [isInferred, Members.has] using inferred
  rw [warning, none]

theorem warning_of_not_isInferred {u : UntypedToken} (named : u.isInferred = false) :
    ∃ tag, u.warning = legacyType tag (Path.join u.keys) := by
  obtain ⟨tag, legacy⟩ : ∃ tag, u.token.get? Key.legacyType = some tag := by
    rw [← Option.isSome_iff_exists]
    simpa [isInferred, Members.has] using named
  exact ⟨tag, by rw [warning, legacy]⟩

theorem isMissingType_warning (u : UntypedToken) : u.warning.isMissingType = u.isInferred := by
  cases inferred : u.isInferred with
  | true =>
      rw [warning_of_isInferred inferred]
      rfl
  | false =>
      obtain ⟨tag, named⟩ := warning_of_not_isInferred inferred
      rw [named]
      rfl

theorem isError_warning (u : UntypedToken) : u.warning.isError = false := by
  unfold warning
  split <;> rfl

end UntypedToken

/-! ## Findings and tokens -/

/-- The warnings of tokens are among findings, in order, and no others say that a type is missing. -/
structure Announces (found : List Diagnostic) (tokens : List UntypedToken) : Prop where
  inOrder : (tokens.map UntypedToken.warning).Sublist found
  exact : found.filter Diagnostic.isMissingType =
    (tokens.map UntypedToken.warning).filter Diagnostic.isMissingType

namespace Announces

theorem nil {found : List Diagnostic} (silent : ∀ d ∈ found, d.isMissingType = false) :
    Announces found [] := by
  refine ⟨List.nil_sublist _, List.filter_eq_nil_iff.2 fun d mem => ?_⟩
  rw [silent d mem]
  decide

theorem append {found found' : List Diagnostic} {tokens tokens' : List UntypedToken}
    (first : Announces found tokens) (second : Announces found' tokens') :
    Announces (found ++ found') (tokens ++ tokens') := by
  refine ⟨?inOrder, ?exact⟩
  case inOrder =>
    rw [List.map_append]
    exact first.inOrder.append second.inOrder
  case exact =>
    rw [List.map_append, List.filter_append, List.filter_append, first.exact, second.exact]

theorem append_left {found found' : List Diagnostic} {tokens : List UntypedToken}
    (silent : ∀ d ∈ found, d.isMissingType = false) (second : Announces found' tokens) :
    Announces (found ++ found') tokens :=
  (nil silent).append second

theorem append_right {found found' : List Diagnostic} {tokens : List UntypedToken}
    (first : Announces found tokens) (silent : ∀ d ∈ found', d.isMissingType = false) :
    Announces (found ++ found') tokens := by
  have both := first.append (nil silent)
  rwa [List.append_nil] at both

theorem flatMap {α : Type} {items : List α} {find : α → List Diagnostic}
    {collect : α → List UntypedToken} (each : ∀ x ∈ items, Announces (find x) (collect x)) :
    Announces (items.flatMap find) (items.flatMap collect) := by
  induction items with
  | nil => exact nil (List.forall_mem_nil _)
  | cons x items ih =>
      rw [List.forall_mem_cons] at each
      rw [List.flatMap_cons, List.flatMap_cons]
      exact each.1.append (ih each.2)

variable {found : List Diagnostic} {tokens : List UntypedToken}

/-- The findings that a type is missing, and nothing but warnings among them. -/
theorem filter_eq (announces : Announces found tokens) :
    found.filter Diagnostic.isMissingType =
      (tokens.filter UntypedToken.isInferred).map UntypedToken.warning := by
  rw [announces.exact, List.filter_map]
  congr 2
  funext u
  exact u.isMissingType_warning

theorem mem_of_mem (announces : Announces found tokens) {u : UntypedToken} (mem : u ∈ tokens) :
    u.warning ∈ found :=
  announces.inOrder.subset (List.mem_map_of_mem mem)

theorem eq_nil (announces : Announces [] tokens) : tokens = [] :=
  List.map_eq_nil_iff.1 (List.sublist_nil.1 announces.inOrder)

end Announces

namespace Validation

theorem isMissingType_of_isOther {d : Diagnostic} (isOther : IsOther d) : d.isMissingType = false := by
  have notMissing := isOther "TOKEN_005" (by decide)
  simpa [Diagnostic.isMissingType] using notMissing

/-! ## One token -/

/-- What is found about the type of a token, and whether it can be given one. -/
theorem announces_checkType (ms : Members) (keys : KeyChain) (handed : Option TokenType) :
    Announces (checkType ms (Path.join keys) handed) (UntypedToken.of? keys handed ms).toList := by
  have tagSilent (tag : Json) (path : String) : ∀ d ∈ checkTag tag path, d.isMissingType = false :=
    fun d mem => isMissingType_of_isOther (isOther_checkTag tag path d mem)
  unfold checkType ownTag? UntypedToken.of? UntypedToken.type? Members.has
  cases current : ms.get? Key.type with
  | some tag =>
      have notLegacy : (Key.type == Key.legacyType) = false := by decide
      simpa [notLegacy] using Announces.nil (tagSilent tag _)
  | none =>
      cases legacy : ms.get? Key.legacyType with
      | some tag =>
          have silent : ∀ d ∈ legacyType tag (Path.join keys) ::
              checkTag tag (Path.join keys ++ "." ++ Key.legacyType), d.isMissingType = false :=
            List.forall_mem_cons.2 ⟨rfl, tagSilent tag _⟩
          cases handed with
          | some t => simpa using Announces.nil silent
          | none =>
              cases told : (TokenType.ofTag? tag).or (TokenType.infer? ms.tokenValue) with
              | none => simpa [told] using Announces.nil silent
              | some t =>
                  have warning : UntypedToken.warning ⟨keys, ms, t⟩ =
                      legacyType tag (Path.join keys) := by
                    rw [UntypedToken.warning, legacy]
                  have first : Announces [legacyType tag (Path.join keys)] [⟨keys, ms, t⟩] :=
                    ⟨by rw [List.map_singleton, warning], by rw [List.map_singleton, warning]⟩
                  simpa [told] using first.append_right (tagSilent tag _)
      | none =>
          cases handed with
          | some t => simpa using Announces.nil (List.forall_mem_nil _)
          | none =>
              cases inferred : TokenType.infer? ms.tokenValue with
              | none => simpa [inferred] using Announces.nil (List.forall_mem_nil _)
              | some t =>
                  have warning : UntypedToken.warning ⟨keys, ms, t⟩ = missingType t (Path.join keys) := by
                    rw [UntypedToken.warning, legacy]
                  have only : Announces [missingType t (Path.join keys)] [⟨keys, ms, t⟩] :=
                    ⟨by rw [List.map_singleton, warning], by rw [List.map_singleton, warning]⟩
                  simpa [inferred] using only

theorem announces_checkToken {ms : Members} (hasValue : ms.hasValue = true) (keys : KeyChain)
    (handed : Option TokenType) :
    Announces (checkToken ms (Path.join keys) handed) (UntypedToken.of? keys handed ms).toList := by
  obtain ⟨key, value⟩ : ∃ key, ms.valueKey? = some key := Option.isSome_iff_exists.1 hasValue
  have oldSilent : ∀ d ∈ (if key == Key.legacyValue then
      [legacyValue ms.tokenValue (Path.join keys)] else []), d.isMissingType = false := by
    intro d mem
    split at mem
    · rw [List.mem_singleton.1 mem]
      rfl
    · cases mem
  have valueSilent := fun d mem =>
    isMissingType_of_isOther (isOther_checkValue ms (Path.join keys ++ "." ++ key) handed d mem)
  unfold checkToken
  rw [value]
  exact ((announces_checkType ms keys handed).append_left oldSilent).append_right valueSilent

/-! ## The two walks -/

/-- In an object without children there is nothing to walk to. -/
theorem untypedIn_eq_nil {ms : Members} (noValue : ms.hasValue = false) (isToken : ms.isToken = true)
    (keys : KeyChain) (inherited : Option TokenType) : untypedIn keys inherited ms = [] := by
  refine List.eq_nil_iff_forall_not_mem.2 fun u mem => ?_
  obtain ⟨m, inMs, notMeta, -⟩ := (mem_untypedIn_iff keys inherited ms u).1 mem
  rw [Members.isGroup_of_mem noValue inMs notMeta] at isToken
  cases isToken

theorem isMissingType_checkGroupTag (ms : Members) (path : String) :
    ∀ d ∈ checkGroupTag ms path, d.isMissingType = false :=
  fun d mem => isMissingType_of_isOther (isOther_checkGroupTag ms path d mem)

mutual

theorem announces_checkNode (keys : KeyChain) (inherited : Option TokenType) (node : Json) :
    Announces (checkNode keys inherited node) (untypedAt keys inherited node) := by
  cases node with
  | obj ms =>
      rw [checkNode, untypedAt]
      cases hasValue : Members.hasValue ms with
      | true =>
          have isToken : Members.isToken ms = true := by rw [Members.isToken, hasValue, Bool.true_or]
          rw [if_pos isToken, if_pos rfl]
          exact announces_checkToken hasValue keys inherited
      | false =>
          cases isToken : Members.isToken ms with
          | true =>
              have noKey : Members.valueKey? ms = none := by
                simpa [Members.hasValue] using hasValue
              rw [if_pos rfl, if_neg (by decide), untypedIn_eq_nil hasValue isToken, checkToken, noKey]
              exact .nil (List.forall_mem_singleton.2 rfl)
          | false =>
              rw [if_neg (by decide), if_neg (by decide)]
              exact (announces_checkMembers keys _ ms).append_left (isMissingType_checkGroupTag ms _)
  | _ => exact .nil (List.forall_mem_singleton.2 rfl)

theorem announces_checkMembers (keys : KeyChain) (inherited : Option TokenType)
    (ms : List (String × Json)) :
    Announces (checkMembers keys inherited ms) (untypedIn keys inherited ms) := by
  cases ms with
  | nil => exact .nil (List.forall_mem_nil _)
  | cons m rest =>
      obtain ⟨name, node⟩ := m
      rw [checkMembers, untypedIn]
      refine .append ?_ (announces_checkMembers keys inherited rest)
      cases Key.isMeta name with
      | true => exact .nil (List.forall_mem_nil _)
      | false => exact announces_checkNode (keys ++ [name]) inherited node

end

/-! ## Documents -/

theorem announces_checkEntry (name : String) (rootType : Option TokenType) (value : Json)
    (notMeta : Key.isMeta name = false) (notBrand : name ≠ Key.brand) :
    Announces (checkEntry name rootType value) (untypedOfEntry rootType name value) := by
  cases value with
  | obj ms =>
      have isGroup := (isTokenGroup_iff name (.obj ms)).2 ⟨notMeta, notBrand, rfl⟩
      rw [checkEntry, untypedOfEntry, if_pos isGroup]
      exact (announces_checkMembers [name] _ ms).append_left (isMissingType_checkGroupTag ms _)
  | _ => exact .nil (List.forall_mem_singleton.2 rfl)

/-- Nothing is collected from a root entry that is metadata or the brand block. -/
theorem untypedOfEntry_eq_nil {name : String} {value : Json}
    (noGroup : isTokenGroup name value = false) (rootType : Option TokenType) :
    untypedOfEntry rootType name value = [] := by
  unfold untypedOfEntry
  split
  · rw [if_neg (by simp [noGroup])]
  · rfl

/-- **A check announces the tokens that can be given a type.** -/
theorem announces_checkDocument (v : Validator) (document : Members) :
    Announces (checkDocument v document) (untypedTokens document) := by
  have atRoot := fun d mem => isMissingType_of_isOther (isOther_checkRoot v document d mem)
  have inBrand : ∀ d ∈ ((document.get? Key.brand).map checkBrand).getD [], d.isMissingType = false := by
    cases document.get? Key.brand with
    | none => exact List.forall_mem_nil _
    | some brand => exact fun d mem => isMissingType_of_isOther (isOther_checkBrand brand d mem)
  have aboutRoot := List.forall_mem_append.2 ⟨atRoot, inBrand⟩
  refine .append_left aboutRoot (.flatMap fun entry _ => ?_)
  obtain ⟨name, value⟩ := entry
  cases notEntry : Key.isMeta name || name == Key.brand with
  | true =>
      have noGroup : isTokenGroup name value = false := by
        rw [Bool.eq_false_iff]
        intro isGroup
        obtain ⟨notMeta, notBrand, -⟩ := (isTokenGroup_iff name value).1 isGroup
        simp [notMeta, notBrand] at notEntry
      rw [untypedOfEntry_eq_nil noGroup]
      exact .nil (List.forall_mem_nil _)
  | false =>
      rw [Bool.or_eq_false_iff, beq_eq_false_iff_ne] at notEntry
      exact announces_checkEntry name document.groupType? value notEntry.1 notEntry.2

end Validation

/-- What a check says of the types that are missing, token by token. -/
theorem Validator.filter_warnings (v : Validator) (document : Members) :
    (v.validate (.obj document)).warnings.filter Diagnostic.isMissingType =
      ((untypedTokens document).filter UntypedToken.isInferred).map UntypedToken.warning := by
  have announces := announces_checkDocument v document
  rw [validate, Findings.ofDiagnostics, List.filter_comm, announces.filter_eq, List.filter_eq_self]
  intro d mem
  obtain ⟨u, -, rfl⟩ := List.mem_map.1 mem
  rw [u.isError_warning]
  rfl

/-- Each token that can be given a type is warned of. -/
theorem Validator.warning_mem_warnings (v : Validator) {document : Members} {u : UntypedToken}
    (mem : u ∈ untypedTokens document) : u.warning ∈ (v.validate (.obj document)).warnings := by
  have announces := announces_checkDocument v document
  refine List.mem_filter.2 ⟨announces.mem_of_mem mem, ?_⟩
  rw [u.isError_warning]
  rfl

/-! ## Fixes -/

namespace Fix

/-- A fix that gives a token the type that its value suggests. -/
def isInferred (f : Fix) : Bool :=
  f.type == .addType && (f.before.at? [Key.legacyType]).isNone

theorem isInferred_toFix (u : UntypedToken) (index : Nat) : (u.toFix index).isInferred = u.isInferred := by
  have before : (u.toFix index).before.at? [Key.legacyType] = u.token.get? Key.legacyType := by
    simp [UntypedToken.toFix, Json.at?_cons]
  rw [isInferred, before, UntypedToken.isInferred, Members.has, Option.not_isSome]
  rfl

theorem at?_type_after_toFix (u : UntypedToken) (index : Nat) :
    (u.toFix index).after.at? [Key.type] = some (.str u.type.name) := by
  rw [UntypedToken.toFix, Json.at?_cons, Members.get?_put_self]
  exact Json.at?_nil _

/-- The tokens whose fixes give them the types that their values suggest, in order. -/
theorem filter_isInferred (document : Members) {α : Type} (read : Fix → α) (readToken : UntypedToken → α)
    (same : ∀ u index, read (u.toFix index) = readToken u) :
    ((collect (.obj document)).filter isInferred).map read =
      ((untypedTokens document).filter UntypedToken.isInferred).map readToken := by
  have flattenings : ((((clusters document).filter Cluster.isFixable).zipIdx.map fun c =>
      c.1.toFix ((untypedTokens document).length + c.2)).filter isInferred) = [] := by
    refine List.filter_eq_nil_iff.2 fun f mem => ?_
    obtain ⟨c, -, rfl⟩ := List.mem_map.1 mem
    exact Bool.false_ne_true
  have isInferred_eq : isInferred ∘ (fun u : UntypedToken × Nat => u.1.toFix u.2) =
      UntypedToken.isInferred ∘ Prod.fst :=
    funext fun u => isInferred_toFix u.1 u.2
  have read_eq : read ∘ (fun u : UntypedToken × Nat => u.1.toFix u.2) = readToken ∘ Prod.fst :=
    funext fun u => same u.1 u.2
  calc ((collect (.obj document)).filter isInferred).map read
      = (((untypedTokens document).zipIdx.map fun u => u.1.toFix u.2).filter isInferred).map read := by
        rw [collect, ofMembers, List.filter_append, flattenings, List.append_nil]
    _ = ((untypedTokens document).zipIdx.filter (UntypedToken.isInferred ∘ Prod.fst)).map
          (readToken ∘ Prod.fst) := by
        rw [List.filter_map, List.map_map, isInferred_eq, read_eq]
    _ = (((untypedTokens document).zipIdx.map Prod.fst).filter UntypedToken.isInferred).map
          readToken := by
        rw [List.filter_map, List.map_map]
    _ = ((untypedTokens document).filter UntypedToken.isInferred).map readToken := by
        rw [List.zipIdx_map_fst]

/-- **What a check warns of and what a fix types.**  The warnings of missing types name, in order, the
tokens and the types of the fixes for tokens without a tag of either spelling.  Each of these warnings
says its type throughout.  Every other fix of the kind is for a token that is warned of for its older
spelling.  So a clean document offers no fix. -/
theorem typings_match_warnings (v : Validator) (document : Json) :
    ((v.validate document).warnings.filter fun d => d.ruleId == some "TOKEN_005").map
        (fun d => (d.path, d.suggestedFix.bind fun suggested => suggested.at? [Key.type])) =
      ((collect document).filter fun f =>
          f.type == .addType && (f.before.at? [Key.legacyType]).isNone).map
        (fun f => (f.path, f.after.at? [Key.type])) ∧
    (∀ d ∈ (v.validate document).warnings, d.ruleId = some "TOKEN_005" →
      ∃ t, d = missingType t d.path) ∧
    (∀ f ∈ collect document, f.type = .addType → (f.before.at? [Key.legacyType]).isSome = true →
      ∃ d ∈ (v.validate document).warnings, d.ruleId = some "TOKEN_004" ∧ d.path = f.path) ∧
    ((v.validate document).isClean = true → collect document = []) := by
  cases document with
  | obj ms =>
      refine ⟨?inferred, ?said, ?named, ?clean⟩
      case inferred =>
        show ((v.validate (.obj ms)).warnings.filter Diagnostic.isMissingType).map _ =
          ((collect (.obj ms)).filter isInferred).map _
        rw [v.filter_warnings, List.map_map]
        refine Eq.trans ?_ (filter_isInferred ms (fun f => (f.path, f.after.at? [Key.type]))
          (fun u => (Path.join u.keys, some (.str u.type.name)))
          fun u index => Prod.ext rfl (at?_type_after_toFix u index)).symm
        refine List.map_congr_left fun u mem => ?_
        rw [Function.comp_apply, UntypedToken.warning_of_isInferred (List.mem_filter.1 mem).2]
        rfl
      case said =>
        intro d mem rule
        have missing : d ∈ (v.validate (.obj ms)).warnings.filter Diagnostic.isMissingType :=
          List.mem_filter.2 ⟨mem, by rw [Diagnostic.isMissingType, rule]; rfl⟩
        rw [v.filter_warnings] at missing
        obtain ⟨u, inferred, rfl⟩ := List.mem_map.1 missing
        rw [UntypedToken.warning_of_isInferred (List.mem_filter.1 inferred).2]
        exact ⟨u.type, rfl⟩
      case named =>
        intro f mem typing legacy
        rcases List.mem_append.1 mem with inTypings | inFlattenings
        · obtain ⟨⟨u, index⟩, inList, rfl⟩ := List.mem_map.1 inTypings
          have untyped := List.fst_mem_of_mem_zipIdx inList
          have notInferred : u.isInferred = false := by
            rw [← isInferred_toFix u index, isInferred, Option.isNone_eq_false_iff.2 legacy,
              Bool.and_false]
          obtain ⟨tag, spelled⟩ := UntypedToken.warning_of_not_isInferred notInferred
          refine ⟨u.warning, v.warning_mem_warnings untyped, ?_⟩
          rw [spelled]
          exact ⟨rfl, rfl⟩
        · obtain ⟨c, -, rfl⟩ := List.mem_map.1 inFlattenings
          cases typing
      case clean =>
        intro isClean
        obtain ⟨nothing, noCluster⟩ := (Findings.isClean_ofDiagnostics _ _).1 isClean
        have announces := announces_checkDocument v ms
        rw [nothing] at announces
        rw [collect, ofMembers, announces.eq_nil, noCluster]
        rfl
  | _ =>
      refine ⟨rfl, fun d mem _ => ?_, List.forall_mem_nil _, fun isClean => ?_⟩
      · cases mem
      · cases isClean

end Fix

namespace Example

/-- A size without a tag, one with its tag in the older spelling, and one in a group that names its
type. -/
def mixedSizes : Json :=
  .obj [("$schema", .str "https://example.com/schema"),
    ("sizes", .obj [("gap", .obj [("$value", .str "4px")]),
      ("inset", .obj [("$value", .str "8px"), ("type", .str "dimension")])]),
    ("weights", .obj [("$type", .str "fontWeight"), ("bold", .obj [("$value", .int 700)])])]

/-- The sizes with their tags. -/
def taggedSizes : Json :=
  .obj [("$schema", .str "https://example.com/schema"),
    ("sizes", .obj [("gap", .obj [("$value", .str "4px"), ("$type", .str "dimension")])])]

theorem mixedSizes_match :
    ((Validator.mk true "").validate mixedSizes).warnings.map Diagnostic.ruleId =
        [some "TOKEN_005", some "TOKEN_004"] ∧
      ((Fix.collect mixedSizes).filter fun f =>
          f.type == .addType && (f.before.at? [Key.legacyType]).isNone).map
        (fun f => (f.path, f.after.at? [Key.type])) =
          [("$.sizes.gap", some (.str "dimension"))] ∧
      (∃ d ∈ ((Validator.mk true "").validate mixedSizes).warnings,
        d.ruleId = some "TOKEN_004" ∧ d.path = "$.sizes.inset") ∧
      ((Validator.mk true "").validate taggedSizes).isClean = true ∧
      Fix.collect taggedSizes = [] := by
  obtain ⟨inferred, -, named, -⟩ := Fix.typings_match_warnings ⟨true, ""⟩ mixedSizes
  have clean := (Fix.typings_match_warnings ⟨true, ""⟩ taggedSizes).2.2.2
  refine ⟨by decide +kernel, inferred.symm.trans rfl, ?_, by decide +kernel, clean (by decide +kernel)⟩
  obtain ⟨f, second⟩ : ∃ f, (Fix.collect mixedSizes)[1]? = some f := ⟨_, rfl⟩
  have found := named f (List.mem_of_getElem? second)
  cases second
  exact found rfl rfl

end Example

end DesignTokens
