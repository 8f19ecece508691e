/-
# DesignTokens.Proofs.Json.RoundTrip -- a written value is read back

What the writer puts down is put together from the texts of smaller values: brackets around items,
commas and gaps between them.  `Spells` says that a text is read as a value whatever follows it, as long
as that does not carry a number on, and one lemma for each way to put texts together says that the whole
spells what its parts do.  The layout only decides about the gaps, so every indent is as good as another
(`spells_writeAt`).

The reader is given fuel.  One step more than a text has characters is enough: what stands in brackets
is shorter by the opening bracket, and an item is shorter than its list by what follows it.

Numbers with a fraction are left out (`isExact`): what comes back for them is a question of rounding.
-/
import DesignTokens.Proofs.Json.Keyed
import DesignTokens.Proofs.Json.Scalars

namespace DesignTokens

set_option autoImplicit false

/-! ## Values without rounding -/

mutual

/-- Whether every number in a value is an integer with no more digits than an integer may have. -/
def Json.isExact : Json → Bool
  | .int n => (Nat.toDigits 10 n.natAbs).length ≤ Numeral.maxDigits
  | .float _ => false
  | .arr items => exactItems items
  | .obj ms => exactMembers ms
  | _ => true

def exactItems : List Json → Bool
  | [] => true
  | item :: items => item.isExact && exactItems items

def exactMembers : List (String × Json) → Bool
  | [] => true
  | (_, value) :: rest => value.isExact && exactMembers rest

end

namespace Json

/-! ## Texts that are read as a value -/

/-- What the writer puts between the parts of a value. -/
def IsGap (gap : List Char) : Prop :=
  ∀ c ∈ gap, c = ' ' ∨ c = '\n'

/-- How the text of a value, an item or a member starts: neither with a gap, nor as what closes a list
does, nor with the mark that a document must not start with. -/
def Starts (text : List Char) : Prop :=
  ∃ c rest, text = c :: rest ∧ isSpace c = false ∧ c ≠ ']' ∧ c ≠ '\x7d' ∧ c ≠ '\uFEFF'

/-- A text that spells a value, whatever comes behind it and whatever stands for lone halves. -/
structure Spells (text : List Char) (value : Json) : Prop where
  starts : Starts text
  lines : '\r' ∉ text
  read : ∀ {halves : Halves} {fuel : Nat} {rest : List Char}, text.length < fuel → EndsNumber rest →
    readValue halves fuel (text ++ rest) = .ok (value, rest)

/-- A text that spells items up to the bracket that closes them. -/
structure SpellsItems (text : List Char) (items : List Json) : Prop where
  starts : Starts text
  lines : '\r' ∉ text
  read : ∀ {halves : Halves} {fuel : Nat} {rest : List Char}, text.length < fuel →
    readItems halves fuel (text ++ rest) = .ok (items, rest)

/-- A text that spells members up to the brace that closes them. -/
structure SpellsMembers (text : List Char) (members : List (String × Json)) : Prop where
  starts : Starts text
  lines : '\r' ∉ text
  read : ∀ {halves : Halves} {fuel : Nat} {rest : List Char}, text.length < fuel →
    readMembers halves fuel (text ++ rest) = .ok (members, rest)

theorem Starts.append {text : List Char} (starts : Starts text) (more : List Char) :
    Starts (text ++ more) := by
  obtain ⟨c, rest, rfl, apart⟩ := starts
  exact ⟨c, rest ++ more, rfl, apart⟩

/-! ## Gaps -/

section Gap

variable {gap : List Char} (blank : IsGap gap)

include blank

theorem IsGap.lines : '\r' ∉ gap := by
  intro mem
  rcases blank _ mem with same | same <;> cases same

theorem IsGap.skipSpace_append (rest : List Char) (stops : ∀ c ∈ rest.head?, isSpace c = false) :
    skipSpace (gap ++ rest) = rest := by
  refine (Text.span_append (fun c mem => ?_) rest stops).2
  rcases blank c mem with rfl | rfl <;> rfl

theorem IsGap.skipSpace_starts {text : List Char} (starts : Starts text) (rest : List Char) :
    skipSpace (gap ++ (text ++ rest)) = text ++ rest := by
  obtain ⟨c, text, rfl, solid, -⟩ := starts
  exact blank.skipSpace_append _ (by simpa using solid)

/-- Behind a value stands a gap, and then what closes or goes on. -/
theorem IsGap.endsNumber {rest : List Char} (ends : EndsNumber rest) : EndsNumber (gap ++ rest) := by
  cases gap with
  | nil => exact ends
  | cons c gap => rcases blank c (.head _) with rfl | rfl <;> exact endsNumber_cons.2 (by decide)

end Gap

theorem isGap_lineStart (style : Style) (level : Nat) : IsGap (lineStart style level) := by
  intro c mem
  unfold lineStart at mem
  split at mem
  · cases mem
  · rcases List.mem_cons.1 mem with rfl | mem
    · exact .inr rfl
    · exact .inl (List.eq_of_mem_replicate mem)

theorem exists_separator_eq (style : Style) (level : Nat) :
    ∃ gap, separator style level = ',' :: gap ∧ IsGap gap := by
  unfold separator
  split
  · exact ⟨[' '], rfl, by simp [IsGap]⟩
  · exact ⟨_, rfl, isGap_lineStart style level⟩

/-! ## Scalars -/

theorem readValue_scalar {halves : Halves} {fuel : Nat} {c : Char} {rest : List Char} (noQuote : c ≠ '"') (noList : c ≠ '[')
    (noObject : c ≠ '\x7b') : readValue halves (fuel + 1) (c :: rest) = readScalar (c :: rest) := by
  simp only [readValue]
  split
  case h_1 same => exact absurd (List.cons.inj same).1 noQuote
  case h_2 same => exact absurd (List.cons.inj same).1 noList
  case h_3 same => exact absurd (List.cons.inj same).1 noObject
  case h_4 => rfl

/-- A word is read before a number is looked for. -/
theorem spells_null : Spells "null".toList .null where
  starts := ⟨'n', _, rfl, by decide⟩
  lines := by decide
  read := by
    rintro halves (- | fuel) rest enough -
    · cases enough
    · exact readValue_scalar (by decide) (by decide) (by decide)

theorem spells_bool (b : Bool) : Spells (if b then "true" else "false").toList (.bool b) where
  starts := by
    cases b
    · exact ⟨'f', _, rfl, by decide⟩
    · exact ⟨'t', _, rfl, by decide⟩
  lines := by cases b <;> decide
  read := by
    rintro halves (- | fuel) rest enough -
    · cases enough
    · cases b <;> exact readValue_scalar (by decide) (by decide) (by decide)

theorem spells_str (s : String) : Spells (writeString none s) (.str s) where
  starts := ⟨'"', _, rfl, by decide⟩
  lines := by
    simp [writeString, return_not_mem_escapeChar]
  read := by
    rintro halves (- | fuel) rest enough -
    · cases enough
    · have whole := readString_escaped halves s rest
      simp [writeString, readValue, whole]

theorem readLiteral?_writeInt (n : Int) (rest : List Char) : readLiteral? (writeInt n ++ rest) = none := by
  obtain ⟨c, digits, written, ascii, -⟩ := exists_toDigits_eq n.natAbs
  have noLetter (letter : Char) (other : isAsciiDigit letter = false) : ¬ letter = c := by
    rintro rfl
    rw [ascii] at other
    cases other
  unfold writeInt
  split
  all_goals simp [written, readLiteral?, literals, dropWord?, noLetter 'n' rfl, noLetter 't' rfl,
    noLetter 'f' rfl, noLetter 'N' rfl, noLetter 'I' rfl, noLetter '-' rfl]

/-- The characters of an integer are digits, and perhaps a minus sign. -/
theorem minus_or_digit_of_mem_writeInt {n : Int} {c : Char} (mem : c ∈ writeInt n) :
    c = '-' ∨ isAsciiDigit c = true := by
  unfold writeInt at mem
  split at mem
  · exact (List.mem_cons.1 mem).imp_right isAsciiDigit_of_mem_toDigits
  · exact .inr (isAsciiDigit_of_mem_toDigits mem)

theorem ne_of_mem_writeInt {n : Int} {c d : Char} (mem : c ∈ writeInt n) (noMinus : d ≠ '-')
    (noDigit : isAsciiDigit d = false) : c ≠ d := by
  rintro rfl
  rcases minus_or_digit_of_mem_writeInt mem with same | digit
  · exact noMinus same
  · rw [digit] at noDigit
    cases noDigit

theorem starts_writeInt (n : Int) : Starts (writeInt n) := by
  obtain ⟨c, rest, written⟩ : ∃ c rest, writeInt n = c :: rest := by
    apply List.exists_cons_of_ne_nil
    unfold writeInt
    split
    · simp
    · exact Nat.toDigits_ne_nil
  have apart {d : Char} := ne_of_mem_writeInt (d := d) (written ▸ List.mem_cons_self : c ∈ writeInt n)
  refine ⟨c, rest, written, ?_, apart (by decide) rfl, apart (by decide) rfl, apart (by decide) rfl⟩
  simp [isSpace, apart (d := ' ') (by decide) rfl, apart (d := '\t') (by decide) rfl,
    apart (d := '\n') (by decide) rfl, apart (d := '\r') (by decide) rfl]

/-- An integer is read as a number. -/
theorem readValue_writeInt (halves : Halves) (fuel : Nat) (n : Int) (rest : List Char) :
    readValue halves (fuel + 1) (writeInt n ++ rest) = readNumber (writeInt n ++ rest) := by
  have noWord := readLiteral?_writeInt n rest
  obtain ⟨c, digits, written, -⟩ := starts_writeInt n
  have apart {d : Char} := ne_of_mem_writeInt (d := d) (written ▸ List.mem_cons_self : c ∈ writeInt n)
  rw [written, List.cons_append] at noWord ⊢
  rw [readValue_scalar (apart (by decide) rfl) (apart (by decide) rfl) (apart (by decide) rfl), readScalar,
    noWord]

theorem spells_int {n : Int} (short : (Nat.toDigits 10 n.natAbs).length ≤ Numeral.maxDigits) :
    Spells (writeInt n) (.int n) where
  starts := starts_writeInt n
  lines := fun mem => ne_of_mem_writeInt mem (by decide) rfl rfl
  read := by
    rintro halves (- | fuel) rest enough ends
    · cases enough
    · rw [readValue_writeInt, readNumber_writeInt n ends, if_neg (Nat.not_lt.2 short)]

/-! ## Lists -/

section Items

variable {text gap : List Char} {item : Json} {items : List Json}

theorem spells_arr_nil : Spells ['[', ']'] (.arr []) where
  starts := ⟨'[', _, rfl, by decide⟩
  lines := by decide
  read := by
    rintro halves (- | fuel) rest enough -
    · cases enough
    · rfl

theorem Spells.last_item (spells : Spells text item) (blank : IsGap gap) :
    SpellsItems (text ++ gap ++ [']']) [item] where
  starts := by simpa using spells.starts.append (gap ++ [']'])
  lines := by simp [spells.lines, blank.lines]
  read := by
    rintro halves (- | fuel) rest enough
    · cases enough
    · have short : text.length < fuel := by simp at enough; omega
      have ends : EndsNumber (gap ++ ']' :: rest) := blank.endsNumber (endsNumber_cons.2 (by decide))
      have skip := blank.skipSpace_append (']' :: rest) (by simp [isSpace])
      simp [readItems, spells.read short ends, skip]

theorem Spells.cons_item (spells : Spells text item) (blank : IsGap gap) {more : List Char}
    (others : SpellsItems more items) : SpellsItems (text ++ ',' :: gap ++ more) (item :: items) where
  starts := by simpa using spells.starts.append (',' :: gap ++ more)
  lines := by simp [spells.lines, blank.lines, others.lines]
  read := by
    rintro halves (- | fuel) rest enough
    · cases enough
    · have short : text.length < fuel ∧ more.length < fuel := by simp at enough; omega
      have ends : EndsNumber (',' :: (gap ++ (more ++ rest))) := endsNumber_cons.2 (by decide)
      have comma : skipSpace (',' :: (gap ++ (more ++ rest))) = ',' :: (gap ++ (more ++ rest)) := rfl
      have skip := blank.skipSpace_starts others.starts rest
      simp [readItems, spells.read short.1 ends, comma, skip, others.read short.2]

theorem SpellsItems.arr (spells : SpellsItems text items) (blank : IsGap gap) :
    Spells ('[' :: gap ++ text) (.arr items) where
  starts := ⟨'[', _, rfl, by decide⟩
  lines := by simp [blank.lines, spells.lines]
  read := by
    rintro halves (- | fuel) rest enough -
    · cases enough
    · have short : text.length < fuel := by simp at enough; omega
      have skip := blank.skipSpace_starts spells.starts rest
      simp only [List.cons_append, List.append_assoc, readValue, skip]
      split
      case h_1 closed =>
        obtain ⟨c, text, rfl, -, notClosed, -⟩ := spells.starts
        exact absurd (List.cons.inj closed).1 notClosed
      case h_2 => rw [spells.read short]

end Items

/-! ## Objects -/

section Members

variable {text gap : List Char} {value : Json} {members : List (String × Json)} (key : String)

theorem spells_obj_nil : Spells ['\x7b', '\x7d'] (.obj []) where
  starts := ⟨'\x7b', _, rfl, by decide⟩
  lines := by decide
  read := by
    rintro halves (- | fuel) rest enough -
    · cases enough
    · rfl

/-- The text of a member, up to its value. -/
def nameText (key : String) : List Char :=
  writeString none key ++ [':', ' ']

theorem starts_nameText (more : List Char) : Starts (nameText key ++ more) :=
  ⟨'"', _, rfl, by decide⟩

theorem return_not_mem_nameText : '\r' ∉ nameText key := by
  simpa [nameText] using (spells_str key).lines

/-- The text of a member is read as its name, a colon and its value. -/
theorem Spells.exists_name (spells : Spells text value) (halves : Halves) {fuel : Nat}
    {rest : List Char} (short : text.length < fuel) (ends : EndsNumber rest) :
    ∃ name afterName, nameText key ++ (text ++ rest) = '"' :: name ∧
      readString halves name = .ok (key, afterName) ∧
      ∃ beforeValue, skipSpace afterName = ':' :: beforeValue ∧
        readValue halves fuel (skipSpace beforeValue) = .ok (value, rest) := by
  have space : IsGap [' '] := by simp [IsGap]
  have skip : skipSpace (' ' :: (text ++ rest)) = text ++ rest := space.skipSpace_starts spells.starts rest
  refine ⟨key.toList.flatMap (escapeChar none) ++ '"' :: ':' :: ' ' :: (text ++ rest), _, ?_,
    readString_escaped halves key _, _, rfl, ?_⟩
  · simp [nameText, writeString]
  · rw [skip, spells.read short ends]

theorem Spells.last_member (spells : Spells text value) (blank : IsGap gap) :
    SpellsMembers (nameText key ++ text ++ gap ++ ['\x7d']) [(key, value)] where
  starts := by simpa using starts_nameText key (text ++ (gap ++ ['\x7d']))
  lines := by simp [return_not_mem_nameText, spells.lines, blank.lines]
  read := by
    rintro halves (- | fuel) rest enough
    · cases enough
    · have short : text.length < fuel := by simp at enough; omega
      have ends : EndsNumber (gap ++ '\x7d' :: rest) := blank.endsNumber (endsNumber_cons.2 (by decide))
      have skip := blank.skipSpace_append ('\x7d' :: rest) (by simp [isSpace])
      obtain ⟨name, afterName, starts, nameRead, beforeValue, colon, valueRead⟩ :=
        spells.exists_name key halves short ends
      simp [starts, readMembers, nameRead, colon, valueRead, skip]

theorem Spells.cons_member (spells : Spells text value) (blank : IsGap gap) {more : List Char}
    (others : SpellsMembers more members) :
    SpellsMembers (nameText key ++ text ++ ',' :: gap ++ more) ((key, value) :: members) where
  starts := by simpa using starts_nameText key (text ++ ',' :: (gap ++ more))
  lines := by simp [return_not_mem_nameText, spells.lines, blank.lines, others.lines]
  read := by
    rintro halves (- | fuel) rest enough
    · cases enough
    · have short : text.length < fuel ∧ more.length < fuel := by simp at enough; omega
      have ends : EndsNumber (',' :: (gap ++ (more ++ rest))) := endsNumber_cons.2 (by decide)
      have comma : skipSpace (',' :: (gap ++ (more ++ rest))) = ',' :: (gap ++ (more ++ rest)) := rfl
      have skip := blank.skipSpace_starts others.starts rest
      obtain ⟨name, afterName, starts, nameRead, beforeValue, colon, valueRead⟩ :=
        spells.exists_name key halves short.1 ends
      simp [starts, readMembers, nameRead, colon, valueRead, comma, skip, others.read short.2]

theorem SpellsMembers.obj (spells : SpellsMembers text members) (blank : IsGap gap)
    (distinct : (Members.keys members).Nodup) : Spells ('\x7b' :: gap ++ text) (.obj members) where
  starts := ⟨'\x7b', _, rfl, by decide⟩
  lines := by simp [blank.lines, spells.lines]
  read := by
    rintro halves (- | fuel) rest enough -
    · cases enough
    · have short : text.length < fuel := by simp at enough; omega
      have skip := blank.skipSpace_starts spells.starts rest
      simp only [List.cons_append, List.append_assoc, readValue, skip]
      split
      case h_1 closed =>
        obtain ⟨c, text, rfl, -, -, notClosed, -⟩ := spells.starts
        exact absurd (List.cons.inj closed).1 notClosed
      case h_2 => simp [spells.read short, Members.ofPairs_eq_self distinct]

end Members

/-! ## The writer -/

section Writer

variable {style : Style}

mutual

/-- **A written value is spelled**, whatever the layout. -/
theorem spells_writeAt (unicode : style.ascii = none) (level : Nat) :
    (value : Json) → value.isKeyed = true → value.isExact = true → Spells (writeAt style level value) value
  | .null, _, _ => by simpa [writeAt] using spells_null
  | .bool b, _, _ => by simpa only [writeAt] using spells_bool b
  | .int n, _, small => by
      rw [writeAt]
      exact spells_int (by simpa [isExact] using small)
  | .float _, _, small => by cases small
  | .str s, _, _ => by
      rw [writeAt, unicode]
      exact spells_str s
  | .arr [], _, _ => by
      rw [writeAt]
      exact spells_arr_nil
  | .arr (item :: items), keyed, small => by
      simp only [isKeyed, keyedItems, isExact, exactItems, Bool.and_eq_true] at keyed small
      have first := spells_writeAt unicode (level + 1) item keyed.1 small.1
      have whole :=
        spells_writeItems unicode (level + 1) first (isGap_lineStart style level) items keyed.2 small.2
      simpa [writeAt] using whole.arr (isGap_lineStart style (level + 1))
  | .obj [], _, _ => by
      rw [writeAt]
      exact spells_obj_nil
  | .obj ((key, value) :: members), keyed, small => by
      simp only [isKeyed, keyedMembers, isExact, exactMembers, Bool.and_eq_true, decide_eq_true_eq]
        at keyed small
      have first := spells_writeAt unicode (level + 1) value keyed.2.1 small.1
      have whole := spells_writeMembers unicode (level + 1) key first (isGap_lineStart style level) members
        keyed.2.2 small.2
      simpa [writeAt, nameText, unicode] using whole.obj (isGap_lineStart style (level + 1)) keyed.1

/-- Items behind a first one are spelled with it, up to their bracket. -/
theorem spells_writeItems (unicode : style.ascii = none) (level : Nat) {text close : List Char}
    {item : Json} (first : Spells text item) (blank : IsGap close) :
    (items : List Json) → keyedItems items = true → exactItems items = true →
    SpellsItems (text ++ writeItems style level items ++ close ++ [']']) (item :: items)
  | [], _, _ => by simpa [writeItems] using first.last_item blank
  | next :: items, keyed, small => by
      simp only [keyedItems, exactItems, Bool.and_eq_true] at keyed small
      obtain ⟨gap, sep, blankGap⟩ := exists_separator_eq style level
      have second := spells_writeAt unicode level next keyed.1 small.1
      have others := spells_writeItems unicode level second blank items keyed.2 small.2
      simpa [writeItems, sep] using first.cons_item blankGap others

/-- Members behind a first one are spelled with it, up to their brace. -/
theorem spells_writeMembers (unicode : style.ascii = none) (level : Nat) {text close : List Char}
    (key : String) {value : Json} (first : Spells text value) (blank : IsGap close) :
    (members : List (String × Json)) → keyedMembers members = true → exactMembers members = true →
    SpellsMembers (nameText key ++ text ++ writeMembers style level members ++ close ++ ['\x7d'])
      ((key, value) :: members)
  | [], _, _ => by simpa [writeMembers] using first.last_member key blank
  | (name, next) :: members, keyed, small => by
      simp only [keyedMembers, exactMembers, Bool.and_eq_true] at keyed small
      obtain ⟨gap, sep, blankGap⟩ := exists_separator_eq style level
      have second := spells_writeAt unicode level next keyed.1 small.1
      have others := spells_writeMembers unicode level name second blank members keyed.2 small.2
      simpa [writeMembers, sep, nameText, unicode] using first.cons_member key blankGap others

end

end Writer

/-! ## Documents -/

/-- A text that spells a value is the text of a document, with a gap behind it or none. -/
theorem Spells.readDocument_eq {text gap : List Char} {value : Json} (spells : Spells text value)
    (blank : IsGap gap) : readDocument (text ++ gap) = .ok value := by
  have noGap : IsGap [] := by simp [IsGap]
  have start := noGap.skipSpace_starts spells.starts gap
  have finish := blank.skipSpace_append [] (by simp)
  have ends : EndsNumber (gap ++ []) := blank.endsNumber endsNumber_nil
  simp only [List.nil_append, List.append_nil] at start finish ends
  have enough : text.length < 2 * (text ++ gap).length + 1 := by simp; omega
  rw [readDocument, if_neg, start, spells.read enough ends]
  · simp [finish]
  · obtain ⟨c, text, rfl, -, -, -, noMark⟩ := spells.starts
    simpa using noMark

/-- An integer with too many digits is refused, alone as it stands. -/
theorem readDocument_writeInt_of_long {n : Int}
    (long : Numeral.maxDigits < (Nat.toDigits 10 n.natAbs).length) :
    readDocument (writeInt n) = .error (.tooManyDigits (Nat.toDigits 10 n.natAbs).length) := by
  have start := (show IsGap [] by simp [IsGap]).skipSpace_starts (starts_writeInt n) []
  have refused := readNumber_writeInt n endsNumber_nil
  have value := readValue_writeInt (halvesOf (writeInt n)) (2 * (writeInt n).length) n []
  simp only [List.nil_append, List.append_nil, if_pos long] at start refused value
  rw [readDocument, if_neg, start, value, refused]
  obtain ⟨c, rest, written, -, -, -, noMark⟩ := starts_writeInt n
  simpa [written] using noMark

end Json

end DesignTokens
