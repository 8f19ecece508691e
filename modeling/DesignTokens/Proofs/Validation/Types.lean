/-
# DesignTokens.Proofs.Validation.Types -- the type that reaches a token

A group hands the type it names down to what is below it, and a group that names no known type hands
on what it was given.  `Json.handedDown` follows that from any node along a chain of keys: what
arrives at the end is the nearest known type among the objects passed, the first one included, else
the type from outside (`handedDown_eq_or`).  A token asks for it only if it carries no tag of its
own (`Members.typeOr`).
-/
import DesignTokens.Proofs.Validation.Visits

namespace DesignTokens

set_option autoImplicit false

/-- The type that is handed to the end of a chain of keys. -/
def Json.handedDown : Json → Option TokenType → KeyChain → Option TokenType
  | .obj ms, inherited, key :: rest =>
      let handed := (Members.groupType? ms).or inherited
      match Members.get? ms key with
      | some child => child.handedDown handed rest
      | none => handed
  | _, inherited, _ => inherited

/-- The type of a token: the one that its own tag names, the current spelling before the older one,
or what it falls back on without a tag.  A tag outside the vocabulary leaves it without a type. -/
def Members.typeOr (ms : Members) (otherwise : Option TokenType) : Option TokenType :=
  match (ms.get? Key.type).or (ms.get? Key.legacyType) with
  | some tag => TokenType.ofTag? tag
  | none => otherwise

/-! ## Tags -/

theorem TokenType.ofTag?_name (t : TokenType) : ofTag? (.str t.name) = some t :=
  ofName?_name t

theorem TokenType.eq_of_ofTag? {tag : Json} {t : TokenType} (named : ofTag? tag = some t) :
    tag = .str t.name := by
  cases tag with
  | str name => rw [name_of_ofName? named]
  | _ => cases named

/-- A token with a tag of its own needs nothing from where it stands. -/
theorem Members.typeOr_of_tag {token : Members} {tag : Json}
    (own : (token.get? Key.type).or (token.get? Key.legacyType) = some tag)
    (otherwise : Option TokenType) : token.typeOr otherwise = TokenType.ofTag? tag := by
  rw [typeOr, own]

theorem Members.typeOr_of_untagged {token : Members}
    (own : (token.get? Key.type).or (token.get? Key.legacyType) = none) (otherwise : Option TokenType) :
    token.typeOr otherwise = otherwise := by
  rw [typeOr, own]

/-- A check resolves the type of a token by its tag and the type handed down. -/
theorem Validation.checkedType?_eq (ms : Members) (handed : Option TokenType) :
    checkedType? ms handed = ms.typeOr handed := by
  unfold checkedType? ownTag? Members.typeOr
  cases ms.get? Key.type with
  | some tag => rfl
  | none => cases ms.get? Key.legacyType <;> rfl

/-! ## Types handed down -/

@[simp] theorem Json.handedDown_nil (node : Json) (inherited : Option TokenType) :
    node.handedDown inherited [] = inherited := by
  cases node <;> rfl

theorem Json.handedDown_cons {ms : Members} {key : String} {child : Json}
    (found : ms.get? key = some child) (inherited : Option TokenType) (rest : KeyChain) :
    (Json.obj ms).handedDown inherited (key :: rest) =
      child.handedDown (ms.groupType?.or inherited) rest := by
  simp [Json.handedDown, found]

/-- At the end of one key stands a child of the node, whatever it is. -/
theorem Json.handedDown_singleton (ms : Members) (inherited : Option TokenType) (key : String) :
    (Json.obj ms).handedDown inherited [key] = ms.groupType?.or inherited := by
  rw [Json.handedDown]
  cases Members.get? ms key with
  | none => rfl
  | some child => exact handedDown_nil child _

/-- A chain hands down in two steps what it hands down in one. -/
theorem Json.handedDown_append {node middle : Json} {front : KeyChain}
    (leads : node.at? front = some middle) (inherited : Option TokenType) (back : KeyChain) :
    node.handedDown inherited (front ++ back) =
      middle.handedDown (node.handedDown inherited front) back := by
  induction front generalizing node inherited with
  | nil =>
      rw [Json.at?_nil] at leads
      cases leads
      rw [List.nil_append, handedDown_nil]
  | cons key front ih =>
      cases node with
      | obj ms =>
          rw [Json.at?_cons] at leads
          obtain ⟨child, found, onward⟩ := Option.bind_eq_some_iff.1 leads
          rw [List.cons_append, handedDown_cons found, handedDown_cons found, ih onward]
      | _ => cases leads

/-- What comes from outside arrives only if no known type is named on the way. -/
theorem Json.handedDown_eq_or (node : Json) (inherited : Option TokenType) (chain : KeyChain) :
    node.handedDown inherited chain = (node.handedDown none chain).or inherited := by
  induction chain generalizing node inherited with
  | nil => rw [handedDown_nil, handedDown_nil, Option.none_or]
  | cons key rest ih =>
      cases node with
      | obj ms =>
          rw [handedDown, handedDown, Option.or_none]
          cases Members.get? ms key with
          | none => rfl
          | some child =>
              dsimp only
              rw [ih child ((Members.groupType? ms).or inherited), ih child (Members.groupType? ms),
                Option.or_assoc]
      | _ => exact (Option.none_or).symm

end DesignTokens
