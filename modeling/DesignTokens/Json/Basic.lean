/-
# DesignTokens.Json.Basic -- JSON values with ordered members

A document is a tree of JSON values.  Integers are exact and apart from doubles, and the members of
an object keep their order.  Objects read from a text have each key once (`Members.put` keeps it
so); the type does not ask for it, because a walk over a tree never needs it.
-/
import DesignTokens.Number.Binary64

namespace DesignTokens

set_option autoImplicit false

inductive Json where
  | null
  | bool (b : Bool)
  | int (n : Int)
  | float (x : Binary64)
  | str (s : String)
  | arr (items : List Json)
  | obj (members : List (String × Json))
  deriving Inhabited

/-- The members of an object, in document order. -/
abbrev Members := List (String × Json)

namespace Members

def keys (ms : Members) : List String :=
  ms.map (·.1)

def get? (ms : Members) (key : String) : Option Json :=
  ms.lookup key

def has (ms : Members) (key : String) : Bool :=
  (ms.get? key).isSome

/-- Sets a member: a key that is present keeps its place, a new one goes to the end. -/
def put : Members → String → Json → Members
  | [], key, value => [(key, value)]
  | (k, v) :: rest, key, value =>
      if k = key then (key, value) :: rest else (k, v) :: put rest key value

/-- Sets a member unless the key is present. -/
def putNew (ms : Members) (key : String) (value : Json) : Members :=
  if ms.has key then ms else ms.put key value

/-- Members from a sequence in which a key may come twice: its first place, its last value. -/
def ofPairs (pairs : List (String × Json)) : Members :=
  pairs.foldl (fun ms p => ms.put p.1 p.2) []

@[simp] theorem keys_nil : keys [] = [] := rfl

@[simp] theorem keys_cons (p : String × Json) (ms : Members) : keys (p :: ms) = p.1 :: keys ms := rfl

theorem has_iff_mem_keys (ms : Members) (key : String) : ms.has key = true ↔ key ∈ ms.keys := by
  induction ms with
  | nil => simp [has, get?, keys]
  | cons p ms ih =>
      obtain ⟨k, v⟩ := p
      by_cases h : key = k
      · subst h; simp [has, get?, keys]
      · have h' : (key == k) = false := by simpa using h
        simp only [has, get?, List.lookup_cons, h', keys_cons, List.mem_cons, h, false_or] at ih ⊢
        exact ih

theorem get?_put_self (ms : Members) (key : String) (value : Json) :
    (ms.put key value).get? key = some value := by
  induction ms with
  | nil => simp [put, get?]
  | cons p ms ih =>
      obtain ⟨k, v⟩ := p
      by_cases h : k = key
      · subst h; simp [put, get?]
      · have h' : (key == k) = false := by simpa using fun e => h e.symm
        simp only [put, if_neg h, get?, List.lookup_cons, h'] at ih ⊢
        exact ih

theorem get?_put_of_ne (ms : Members) {key other : String} (value : Json) (ne : other ≠ key) :
    (ms.put key value).get? other = ms.get? other := by
  induction ms with
  | nil => simp [put, get?, ne]
  | cons p ms ih =>
      obtain ⟨k, v⟩ := p
      by_cases h : k = key
      · subst h
        have : (other == k) = false := by simpa using ne
        simp [put, get?, List.lookup_cons, this]
      · simp only [put, if_neg h, get?, List.lookup_cons] at ih ⊢
        cases other == k
        · exact ih
        · rfl

theorem keys_put_of_mem {ms : Members} {key : String} (value : Json) (h : key ∈ ms.keys) :
    (ms.put key value).keys = ms.keys := by
  induction ms with
  | nil => simp at h
  | cons p ms ih =>
      obtain ⟨k, v⟩ := p
      by_cases e : k = key
      · subst e; simp [put]
      · have : key ∈ keys ms := by simpa [Ne.symm e] using h
        simp [put, e, ih this]

theorem put_of_not_mem {ms : Members} {key : String} (value : Json) (h : key ∉ ms.keys) :
    ms.put key value = ms ++ [(key, value)] := by
  induction ms with
  | nil => rfl
  | cons p ms ih =>
      obtain ⟨k, v⟩ := p
      simp only [keys_cons, List.mem_cons, not_or] at h
      simp [put, Ne.symm h.1, ih h.2]

end Members

namespace Json

def isObject : Json → Bool
  | .obj _ => true
  | _ => false

/-- A JSON number; truth values are not numbers. -/
def isNumber : Json → Bool
  | .int _ => true
  | .float _ => true
  | _ => false

def isString : Json → Bool
  | .str _ => true
  | _ => false

/-- Whether a value counts as given: null, false, zero and what is empty do not. -/
def isGiven : Json → Bool
  | .null => false
  | .bool b => b
  | .int n => n != 0
  | .float x => !x.isZero
  | .str s => !s.isEmpty
  | .arr items => !items.isEmpty
  | .obj members => !members.isEmpty

/-- Null stands for an absent value. -/
def nonNull? : Json → Option Json
  | .null => none
  | value => some value

/-- Whether a number lies between two integers, both included; other values do not. -/
def between (low high : Int) : Json → Bool
  | .int n => low ≤ n && n ≤ high
  | .float x => x.between low high
  | _ => false

end Json

end DesignTokens
