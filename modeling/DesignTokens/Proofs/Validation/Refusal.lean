/-
# DesignTokens.Proofs.Validation.Refusal -- typed tokens whose values are refused

A token that names its type and carries a value which that type refuses is not in order, whatever is
handed to it (`not_inOrder_of_refused`), so it makes the document invalid wherever the keys lead to it
from a root entry through groups.  A root entry itself is walked as a group, whatever it carries: its
value is metadata to the walk, and what a check finds stays the same if the value is another one
(`checkDocument_put_value`).  A refused value escapes in a root entry, and nowhere else
(`refused_found_unless_entry`).
-/
import DesignTokens.Proofs.Validation.Conformance

namespace DesignTokens

set_option autoImplicit false

/-- A token names its type and carries a value that the type refuses. -/
def Members.Refused (token : Members) (t : TokenType) : Prop :=
  token.get? Key.type = some (.str t.name) ∧
    ∃ value, token.get? Key.value = some value ∧ ¬ t.Accepts value

namespace Members

theorem Refused.hasValue {token : Members} {t : TokenType} (refused : token.Refused t) :
    token.hasValue = true := by
  obtain ⟨-, value, found, -⟩ := refused
  simp [hasValue_eq, has, found]

theorem Refused.tokenValue {token : Members} {t : TokenType} (refused : token.Refused t) :
    ¬ t.Accepts token.tokenValue := by
  obtain ⟨-, value, found, refuses⟩ := refused
  simpa [tokenValue_eq, found] using refuses

/-- A token with a tag of its own is judged by it, whatever is handed down. -/
theorem Refused.typeOr {token : Members} {t : TokenType} (refused : token.Refused t)
    (handed : Option TokenType) : token.typeOr handed = some t := by
  have own : (token.get? Key.type).or (token.get? Key.legacyType) = some (.str t.name) := by
    rw [refused.1, Option.some_or]
  rw [typeOr_of_tag own, TokenType.ofTag?_name]

/-- Setting a member changes nothing for a walk to which the old and the new member are the same. -/
theorem flatMap_put {α : Type} (f : String × Json → List α) {ms : Members} {key : String}
    {old new : Json} (found : ms.get? key = some old) (same : f (key, new) = f (key, old)) :
    (ms.put key new).flatMap f = ms.flatMap f := by
  induction ms with
  | nil => cases found
  | cons m ms ih =>
      obtain ⟨k, v⟩ := m
      rw [get?_cons] at found
      rw [put]
      by_cases here : k = key
      · subst here
        rw [if_pos rfl] at found
        cases found
        rw [if_pos rfl, List.flatMap_cons, List.flatMap_cons, same]
      · rw [if_neg (Ne.symm here)] at found
        rw [if_neg here, List.flatMap_cons, List.flatMap_cons, ih found]

end Members

namespace Validation

/-- A refused token is not in order, whatever is handed to it. -/
theorem not_inOrder_of_refused {token : Members} {t : TokenType} (refused : token.Refused t)
    (handed : Option TokenType) : ¬ (Json.obj token).InOrder handed := by
  rintro ⟨-, accepted⟩
  exact refused.tokenValue (accepted refused.hasValue t (refused.typeOr handed))

/-! ## Root entries -/

/-- Metadata is passed over. -/
theorem checkMembers_put_of_isMeta (keys : KeyChain) (inherited : Option TokenType) (ms : Members)
    {key : String} (isMeta : Key.isMeta key = true) (value : Json) :
    checkMembers keys inherited (ms.put key value) = checkMembers keys inherited ms := by
  induction ms with
  | nil => simp [Members.put, checkMembers, isMeta]
  | cons m ms ih =>
      obtain ⟨k, v⟩ := m
      rw [Members.put]
      split
      · rename_i here
        subst here
        simp [checkMembers, isMeta]
      · rw [checkMembers, checkMembers, ih]

/-- A root entry is checked for what it holds, not for a value of its own. -/
theorem checkEntry_put_value (name : String) (rootType : Option TokenType) (entry : Members)
    (value : Json) :
    checkEntry name rootType (.obj (entry.put Key.value value)) =
      checkEntry name rootType (.obj entry) := by
  have sameType : (entry.put Key.value value).get? Key.type = entry.get? Key.type :=
    Members.get?_put_of_ne entry value (by decide)
  rw [checkEntry, checkEntry, checkGroupTag, checkGroupTag, Members.groupType?, Members.groupType?,
    sameType, checkMembers_put_of_isMeta _ _ _ (by decide)]

/-- At the root, a token group is looked at for its key alone. -/
theorem checkRoot_put (v : Validator) {document : Members} {name : String}
    (present : name ∈ document.keys) (notMeta : Key.isMeta name = false) (value : Json) :
    checkRoot v (document.put name value) = checkRoot v document := by
  have apart (key : String) (isMeta : Key.isMeta key = true) :
      (document.put name value).get? key = document.get? key := by
    refine Members.get?_put_of_ne document value ?_
    rintro rfl
    rw [isMeta] at notMeta
    cases notMeta
  rw [checkRoot, checkRoot, checkSchema, checkSchema, Members.keys_put_of_mem value present,
    apart Key.schema (by decide), apart Key.type (by decide)]

theorem checkDocument_put_value (v : Validator) {document entry : Members} {name : String}
    (found : document.get? name = some (.obj entry))
    (isGroup : isTokenGroup name (.obj entry) = true) (value : Json) :
    checkDocument v (document.put name (.obj (entry.put Key.value value))) =
      checkDocument v document := by
  obtain ⟨notMeta, notBrand, -⟩ := (isTokenGroup_iff _ _).1 isGroup
  have sameRoot := checkRoot_put v (Members.mem_keys_of_get? found) notMeta
    (.obj (entry.put Key.value value))
  have sameBrand := Members.get?_put_of_ne document (.obj (entry.put Key.value value))
    (Ne.symm notBrand)
  have sameType : (document.put name (.obj (entry.put Key.value value))).groupType? =
      document.groupType? := by
    rw [Members.groupType?, Members.groupType?, Members.get?_put_of_ne]
    rintro rfl
    cases notMeta
  rw [checkDocument, checkDocument, sameRoot, sameBrand, sameType, Members.flatMap_put _ found]
  simp only [checkEntry_put_value]

end Validation

open Validation

/-- **A refused value is found in every token but a root entry.**  It makes a document invalid in
every token that the keys lead to from a root entry through groups.  In a root entry itself no value
is looked at: a check has the same errors and warnings whatever value stands there. -/
theorem refused_found_unless_entry (v : Validator) {document entry : Members} {name : String}
    (keyed : (Json.obj document).isKeyed = true) (found : document.get? name = some (.obj entry))
    (isGroup : isTokenGroup name (.obj entry) = true) :
    (∀ (below : KeyChain) (token : Members) (t : TokenType), entry.Leads below (.obj token) →
      token.Refused t → (v.validate (.obj document)).isValid = false) ∧
    ∀ value, (v.validate (.obj (document.put name (.obj (entry.put Key.value value))))).diagnostics =
      (v.validate (.obj document)).diagnostics := by
  constructor
  · intro below token t leads refused
    rw [Bool.eq_false_iff, Ne, isValid_iff_conforms v keyed]
    intro conforms
    exact not_inOrder_of_refused refused _ (conforms.nodes name entry below _ found isGroup leads)
  · intro value
    rw [Validator.validate, Validator.validate, checkDocument_put_value v found isGroup]
    rfl

namespace Example

def badRatio : Members :=
  [("$value", .str "wide"), ("$type", .str "number")]

/-- A root entry with a bad value, and below it a token with a bad value in a plain group. -/
def screens : Members :=
  badRatio ++ [("ratios", .obj [("cinema", .obj badRatio)])]

theorem refused_badRatio : badRatio.Refused .number := by
  refine ⟨rfl, .str "wide", rfl, fun accepts => ?_⟩
  cases accepts "" _ (List.mem_singleton_self _)

/-- The token below makes the document invalid; the value of the entry goes unnoticed. -/
theorem screens_invalid :
    (Json.obj [("screens", .obj screens)]).isKeyed = true ∧
      isTokenGroup "screens" (.obj screens) = true ∧
      screens.Leads ["ratios", "cinema"] (.obj badRatio) ∧
      (lenient.validate (.obj [("screens", .obj screens)])).isValid = false ∧
      (lenient.validate (.obj [("screens", .obj (screens.put Key.value (.int 2)))])).diagnostics =
        (lenient.validate (.obj [("screens", .obj screens)])).diagnostics := by
  have keyed : (Json.obj [("screens", .obj screens)]).isKeyed = true := by decide
  have isGroup : isTokenGroup "screens" (.obj screens) = true := by decide
  have leads : screens.Leads ["ratios", "cinema"] (.obj badRatio) :=
    .under (by decide) rfl (by decide) (.here (by decide) rfl)
  obtain ⟨below, atEntry⟩ := refused_found_unless_entry lenient keyed rfl isGroup
  exact ⟨keyed, isGroup, leads, below _ badRatio _ leads refused_badRatio, atEntry (.int 2)⟩

/-- **A root entry with a bad value is valid.** -/
theorem badRatio_escapes_as_entry :
    isTokenGroup "ratio" (.obj badRatio) = true ∧ badRatio.Refused .number ∧
      (lenient.validate (.obj [("ratio", .obj badRatio)])).isValid = true :=
  ⟨by decide, refused_badRatio, by decide⟩

end Example

end DesignTokens
