/-
# DesignTokens.Normal.Document -- the structured form of a document

`normalize` converts a tree in one pass.  Older keys get their current names, a group that holds
nothing but a default child gives way to that child, bare values become tokens, and every token has
its type and its value in structured form where these can be told.

A wrapper is replaced by its child with the wrapper's metadata joined on (`unwrap?`), and the result
is converted again.  It is no part of the wrapper, so the recursion goes by `Json.weight`, which
counts every member but leaves out what stands under metadata: joining metadata on costs no more
than it did on the wrapper, and the wrapped child is counted there too (`weight_unwrap?`).  What the
conversion does to an object is one of three things (`normalize_wrapper`, `normalize_token`,
`normalize_group`).
-/
import DesignTokens.Inference
import DesignTokens.Log
import DesignTokens.Node
import DesignTokens.Normal.Colour
import DesignTokens.Normal.Dimension

namespace DesignTokens

set_option autoImplicit false

/-! ## Tokens -/

namespace Normal

/-- The types whose texts are dimensions. -/
def isDimensional (type : String) : Bool :=
  [TokenType.dimension, .fontSize, .letterSpacing, .paragraphSpacing, .borderRadius].any
    fun t => t.name == type

/-- A dimension in structured form, where the type allows one. -/
def convertDimension (s : String) (type : Option String) : Json × Option String :=
  if type.all isDimensional then
    match Dimension.ofText? s.toList with
    | some ms => (.obj ms, some (type.getD TokenType.dimension.name))
    | none => (.str s, type)
  else (.str s, type)

/-- A text in structured form, where its type is or may be that of a colour or a dimension, and the
type it then has.  Whatever starts with a number sign is taken for a colour. -/
def convertText (s : String) (type : Option String) : Except Fault (Json × Option String) :=
  let colourName := TokenType.color.name
  if type.all (· == colourName) then do
    if s.toList.head? = some '#' then
      match ← Colour.ofHex? s.toList with
      | some ms => return (.obj ms, some colourName)
      | none => return (.str s, some colourName)
    else
      match ← Colour.ofFunction? s.toList with
      | some ms => return (.obj ms, some colourName)
      | none => return convertDimension s type
  else return convertDimension s type

def convert (value : Json) (type : Option String) : Except Fault (Json × Option String) :=
  match value with
  | .str s => convertText s type
  | _ => .ok (value, type)

/-- The first of two members that is given. -/
def firstGiven? (ms : Members) (key legacy : String) : Option Json :=
  ((ms.get? key).filter Json.isGiven).or ((ms.get? legacy).filter Json.isGiven)

/-- The type a token is given: a tag of its own, known or not, else the one handed down,
else the one its value suggests.  A tag that is no string counts as none. -/
def typeOf (ms : Members) (parentType : Option String) : Option String :=
  let tagged :=
    match firstGiven? ms Key.type Key.legacyType with
    | some (.str tag) => some tag
    | some _ => none
    | none => parentType
  tagged.or ((TokenType.infer? ms.tokenValue).map TokenType.name)

/-- Metadata of a token that keeps its key. -/
def isExtra (key : String) : Bool :=
  Key.isMeta key && key != Key.value && key != Key.type && key != Key.description

/-- A member that is left out when it would be empty. -/
def optional (key : String) : Option Json → Members
  | some value => [(key, value)]
  | none => []

/-- A token in structured form. -/
def token (ms : Members) (parentType : Option String) : Except Fault Members := do
  let (value, type) ← convert ms.tokenValue (typeOf ms parentType)
  return [(Key.value, value)] ++
    optional Key.type ((type.filter fun t => !t.isEmpty).map .str) ++
    optional Key.description (firstGiven? ms Key.description Key.legacyDescription) ++
    ms.filter fun m => isExtra m.1

end Normal

/-! ## Wrappers -/

namespace Members

def metadata (ms : Members) : Members :=
  ms.filter fun m => Key.isMeta m.1

/-- Adds the members whose keys are not there yet. -/
def join (ms extra : Members) : Members :=
  extra.foldl (fun acc m => acc.putNew m.1 m.2) ms

/-- A value as the members of a token. -/
def ofValue : Json → Members
  | .obj ms => ms
  | value => [(Key.value, value)]

/-- The child of a group that holds only a default child, with the group's metadata joined on.  A
token is no wrapper. -/
def unwrap? (ms : Members) : Option Members :=
  match ms.children with
  | [(key, child)] =>
      if Key.isDefault key && !ms.hasValue then some ((ofValue child).join ms.metadata) else none
  | _ => none

end Members

/-! ## The measure of the recursion -/

mutual

/-- The size of a tree, with metadata counted but not entered. -/
def Json.weight : Json → Nat
  | .arr items => 1 + weightItems items
  | .obj ms => 1 + weightMembers ms
  | _ => 2

def weightItems : List Json → Nat
  | [] => 0
  | item :: items => 1 + item.weight + weightItems items

def weightMembers : List (String × Json) → Nat
  | [] => 0
  | (key, value) :: rest => 1 + (if Key.isMeta key then 0 else value.weight) + weightMembers rest

end

theorem weightMembers_append (a b : Members) :
    weightMembers (a ++ b) = weightMembers a + weightMembers b := by
  induction a with
  | nil => simp [weightMembers]
  | cons m a ih => obtain ⟨k, v⟩ := m; simp [weightMembers, ih]; omega

theorem weightMembers_putNew_le (ms : Members) {key : String} (value : Json)
    (isMeta : Key.isMeta key = true) :
    weightMembers (ms.putNew key value) ≤ weightMembers ms + 1 := by
  unfold Members.putNew
  split
  · omega
  · rename_i h
    have : key ∉ ms.keys := fun mem => h ((Members.has_iff_mem_keys ms key).2 mem)
    rw [Members.put_of_not_mem value this, weightMembers_append]
    simp [weightMembers, isMeta]

theorem weightMembers_join_le (ms extra : Members) (allMeta : ∀ m ∈ extra, Key.isMeta m.1 = true) :
    weightMembers (ms.join extra) ≤ weightMembers ms + extra.length := by
  induction extra generalizing ms with
  | nil => simp [Members.join]
  | cons m extra ih =>
      have first := weightMembers_putNew_le ms m.2 (allMeta m (by simp))
      have rest := ih (ms.putNew m.1 m.2) fun x hx => allMeta x (by simp [hx])
      simp only [Members.join, List.foldl_cons, List.length_cons] at rest ⊢
      omega

/-- Metadata counts one each, and the children count in full. -/
theorem weightMembers_eq (ms : Members) :
    weightMembers ms = ms.metadata.length + weightMembers ms.children := by
  induction ms with
  | nil => rfl
  | cons m ms ih =>
      obtain ⟨k, v⟩ := m
      simp only [Members.metadata, Members.children] at ih ⊢
      cases h : Key.isMeta k <;> simp [weightMembers, h, ih] <;> omega

theorem weightMembers_ofValue_lt (child : Json) :
    weightMembers (Members.ofValue child) < 1 + child.weight := by
  cases child <;> simp [Members.ofValue, weightMembers, Json.weight, Key.value, Key.isMeta]
  all_goals omega

/-- Unwrapping makes a tree lighter. -/
theorem weight_unwrap? {ms inner : Members} (h : ms.unwrap? = some inner) :
    (Json.obj inner).weight < (Json.obj ms).weight := by
  unfold Members.unwrap? at h
  split at h
  · rename_i key child single
    split at h
    · cases h
      have notMeta : Key.isMeta key = false := by
        have : (key, child) ∈ ms.children := by simp [single]
        simpa [Members.children] using (List.mem_filter.1 this).2
      have joined := weightMembers_join_le (Members.ofValue child) ms.metadata
        fun m hm => by simpa [Members.metadata] using (List.mem_filter.1 hm).2
      have own := weightMembers_eq ms
      have light := weightMembers_ofValue_lt child
      rw [single] at own
      simp only [weightMembers, notMeta] at own
      simp only [Json.weight]
      simp at own
      omega
    · simp at h
  · simp at h

/-! ## Trees -/

/-- The type that a group hands down: its own, if it is a known one, else the one handed to it. -/
def groupTypeName (ms : Members) (parentType : Option String) : Option String :=
  (ms.groupType?.map TokenType.name).or parentType

/-- A value that stands where a token is expected: neither null nor a list nor an object. -/
def Json.isBare : Json → Bool
  | .null => false
  | .arr _ => false
  | .obj _ => false
  | _ => true

theorem weight_wrapped_lt {key : String} {child : Json} (rest : Members)
    (notMeta : ¬ Key.isMeta key = true) (bare : child.isBare = true) :
    (Json.obj [(Key.value, child)]).weight < weightMembers ((key, child) :: rest) := by
  have : Json.weight (.obj [(Key.value, child)]) = 2 := by
    simp [Json.weight, weightMembers, Key.value, Key.isMeta]
  have : child.weight = 2 := by cases child <;> simp_all [Json.isBare, Json.weight]
  simp only [weightMembers, if_neg notMeta]
  omega

mutual

/-- A tree in structured form, under a group that hands down a type. -/
def Json.normalize (parentType : Option String) : Json → Except Fault Json
  | .arr items => do return .arr (← normalizeItems parentType items)
  | .obj ms =>
      match _ : Members.unwrap? ms with
      | some inner => Json.normalize parentType (.obj inner)
      | none =>
          if Members.hasValue ms then do return .obj (← Normal.token ms parentType)
          else do return .obj (← normalizeMembers (groupTypeName ms parentType) ms)
  | value => .ok value
termination_by node => node.weight
decreasing_by
  · simp [Json.weight]
  · exact weight_unwrap? ‹_›
  · simp [Json.weight]

def normalizeItems (parentType : Option String) : List Json → Except Fault (List Json)
  | [] => .ok []
  | item :: items => do
      let first ← Json.normalize parentType item
      let rest ← normalizeItems parentType items
      return first :: rest
termination_by items => weightItems items
decreasing_by
  · simp only [weightItems]; omega
  · simp only [weightItems]; omega

/-- The members of a group: metadata stays, and a bare value becomes a token. -/
def normalizeMembers (parentType : Option String) :
    List (String × Json) → Except Fault Members
  | [] => .ok []
  | (key, child) :: rest => do
      let first ←
        (if _ : Key.isMeta key then .ok child
         else if _ : child.isBare then Json.normalize parentType (.obj [(Key.value, child)])
         else Json.normalize parentType child : Except Fault Json)
      let others ← normalizeMembers parentType rest
      return (key, first) :: others
termination_by ms => weightMembers ms
decreasing_by
  · exact weight_wrapped_lt rest ‹_› ‹_›
  · rename_i notMeta _; simp only [weightMembers, if_neg notMeta]; omega
  · simp only [weightMembers]; omega

end

theorem normalize_wrapper {ms inner : Members} (wrapper : ms.unwrap? = some inner)
    (parentType : Option String) :
    (Json.obj ms).normalize parentType = (Json.obj inner).normalize parentType := by
  rw [Json.normalize]
  split <;> simp_all

theorem normalize_token {ms : Members} (noWrapper : ms.unwrap? = none)
    (isToken : ms.hasValue = true) (parentType : Option String) :
    (Json.obj ms).normalize parentType = (Normal.token ms parentType).map Json.obj := by
  rw [Json.normalize]
  split
  · simp_all
  · rw [if_pos isToken]; rfl

theorem normalize_group {ms : Members} (noWrapper : ms.unwrap? = none)
    (isGroup : ms.hasValue = false) (parentType : Option String) :
    (Json.obj ms).normalize parentType =
      (normalizeMembers (groupTypeName ms parentType) ms).map Json.obj := by
  rw [Json.normalize]
  split
  · simp_all
  · rw [if_neg (by simp [isGroup])]; rfl

/-! ## Documents -/

namespace Normal

/-- A root entry: a token group in structured form, anything else as it is. -/
def entry (rootType : Option String) (name : String) (value : Json) : Except Fault Json :=
  if isTokenGroup name value then value.normalize rootType else .ok value

def entries (rootType : Option String) : Members → Except Fault Members
  | [] => .ok []
  | (name, value) :: rest => do
      let first ← entry rootType name value
      let others ← entries rootType rest
      return (name, first) :: others

end Normal

/-- A document in structured form.  Root metadata and the brand block stay, and so does what is no
object. -/
def normalizeDocument (document : Json) : Except Fault Json :=
  match document with
  | .obj ms => do return .obj (← Normal.entries (groupTypeName ms none) ms)
  | _ => .ok document

/-- What the conversion has to say once it is done. -/
def normalizeLog : Json → Log
  | .obj ms =>
      [Log.debug s!"Normalized {(ms.filter fun e => isTokenGroup e.1 e.2).length} token group(s)"]
  | _ => []

end DesignTokens
