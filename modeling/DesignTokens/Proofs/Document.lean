/-
# DesignTokens.Proofs.Document -- documents written and loaded

What is written is loaded again as it was (`dump_then_load`).  The text of a document spells it whatever
the indent, and reading a file changes nothing in it: its bytes are those of the text, and the only
characters that reading changes are carriage returns, which no written text holds.

Loading has two ways to fail that it announces: the file cannot be opened, or its text is no JSON, at a
place in that text (`Announced`).  It has three more that go past those who expect the two
(`Unannounced`): a null character in the path, bytes that are not UTF-8, and an integer of too many
digits.  `load_faults` tells when they come, and what becomes of a command then.
-/
import DesignTokens.Command.Run
import DesignTokens.Proofs.Json.Refusals
import DesignTokens.Proofs.Json.RoundTrip
import DesignTokens.Proofs.Plan

namespace DesignTokens

set_option autoImplicit false

namespace Json

/-- A value is written with every indent if it is a string, and else with those that can be had. -/
theorem writeIndented_eq_ok_iff {widest : Int} {ascii : Option Halves} {indent : Int} {value : Json}
    {text : String} : value.writeIndented widest ascii indent = .ok text ↔
      (value.isString = true ∨ indentError? widest indent = none) ∧
        text = value.write ⟨some indent, ascii⟩ := by
  cases value with
  | str s =>
      simp only [writeIndented, isString, true_or, true_and, write, writeAt, Except.ok.injEq]
      exact eq_comm
  | _ =>
      cases error : indentError? widest indent with
      | some e => simp [writeIndented, isString, error]
      | none =>
          simp only [writeIndented, isString, error, Bool.false_eq_true, false_or, true_and, Except.ok.injEq]
          exact eq_comm

theorem indentError?_eq_none_iff {widest indent : Int} : indentError? widest indent = none ↔
    -indentBound ≤ indent ∧ indent < indentBound ∧ indent < widest := by
  simp only [indentError?, Bool.or_eq_true, decide_eq_true_eq]
  split
  · simp
    omega
  · split
    · simp
      omega
    · simp
      omega

end Json

namespace Document

variable {path : FilePath} {opened : Except FileProblem ByteArray} {d : Json}

/-! ## What is written is loaded -/

theorem dump_eq_ok_iff {settings : Settings} {indent : Int} {t : String} :
    dump settings (some indent) d = .ok t ↔
      (d.isString = true ∨ Json.indentError? settings.host.widest indent = none) ∧
        t = d.write ⟨some indent, none⟩ ++ "\n" := by
  simp only [dump, text]
  cases result : d.writeIndented settings.host.widest none indent with
  | error e =>
      have refused :
          ¬ (d.isString = true ∨ Json.indentError? settings.host.widest indent = none) := by
        intro possible
        have written : d.writeIndented settings.host.widest none indent = .ok _ :=
          Json.writeIndented_eq_ok_iff.2 ⟨possible, rfl⟩
        rw [result] at written
        cases written
      simp [Except.map, Except.mapError, refused]
  | ok whole =>
      obtain ⟨possible, rfl⟩ := Json.writeIndented_eq_ok_iff.1 result
      simp only [Except.map, Except.mapError, Except.ok.injEq, possible, true_and]
      exact eq_comm

/-- A file with the bytes of a text is loaded as what the text spells. -/
theorem load_toUTF8 (noNull : '\x00' ∉ path.toText.toList) (text : String) :
    load path (.ok text.toUTF8) = ofText path text := by
  simp only [load, List.contains_iff_mem, noNull, if_false, ofBytes, Text.Utf8.decode_toUTF8]

/-- A file that holds a text in which a value is spelled is loaded as this value. -/
theorem load_of_spells {text : List Char} (spells : Json.Spells text d)
    (noNull : '\x00' ∉ path.toText.toList) :
    load path (.ok (String.ofList (text ++ ['\n'])).toUTF8) = .ok d := by
  have gap : Json.IsGap ['\n'] := by simp [Json.IsGap]
  have lines : '\r' ∉ text ++ ['\n'] := by simp [spells.lines]
  rw [load_toUTF8 noNull, ofText, String.toList_ofList, Text.unifyEnds_of_not_mem lines, Json.read,
    String.toList_ofList, spells.readDocument_eq gap]
  rfl

/-- **What is written is loaded again**, and it can be written with every indent that a line may have.  Every
value without fractions can be: objects keep the order of their members, and a value that is read has each
key once (`Json.isKeyed_of_read`).  A file that was written holds what is loaded unless it is the null
device.  What stands for lone halves makes no difference, as long as there is none in the text. -/
theorem dump_then_load (settings : Settings) (indent : Int) (keyed : d.isKeyed = true)
    (exact_ : d.isExact = true) :
    ((∃ t, dump settings (some indent) d = .ok t) ↔
      d.isString = true ∨ -Json.indentBound ≤ indent ∧ indent < Json.indentBound ∧
        indent < settings.host.widest) ∧
    ∀ t, dump settings (some indent) d = .ok t → ∀ path : FilePath,
      ('\x00' ∉ path.toText.toList → load path (.ok t.toUTF8) = .ok d) ∧
      ∀ halves folder after, Writing.perform ⟨path, t, halves⟩ folder = (none, after) →
        Folder.isNullDevice path = false → load path (after.read path) = .ok d := by
  refine ⟨?_, fun t written path => ?_⟩
  · simp only [dump_eq_ok_iff, Json.indentError?_eq_none_iff]
    exact ⟨fun ⟨t, possible, _⟩ => possible, fun possible => ⟨_, possible, rfl⟩⟩
  · obtain ⟨-, rfl⟩ := dump_eq_ok_iff.1 written
    have spells : Json.Spells (Json.writeAt ⟨some indent, none⟩ 0 d) d :=
      Json.spells_writeAt rfl 0 d keyed exact_
    have loads (noNull : '\x00' ∉ path.toText.toList) :
        load path (.ok (d.write ⟨some indent, none⟩ ++ "\n").toUTF8) = .ok d := by
      have whole : d.write ⟨some indent, none⟩ ++ "\n" =
          String.ofList (Json.writeAt ⟨some indent, none⟩ 0 d ++ ['\n']) := by
        rw [Json.write, String.ofList_append]
      rw [whole]
      exact load_of_spells spells noNull
    refine ⟨loads, fun halves folder after wrote notNull => ?_⟩
    obtain ⟨opens, -, wrote⟩ := Writing.wrote_of_perform wrote
    rw [wrote.holds notNull]
    exact loads opens.noNull

end Document

namespace Example

/-- Every kind of value without fractions, texts that are escaped, and texts that look as if they were. -/
def gnarled : Json :=
  .obj [("\x00\x1b\"\\/\r\n", .arr [.arr [], .obj [], .null, .bool true, .bool false, .int (-7), .int 0]),
    ("", .obj [("\\u0041", .int 1000000000000000000000000000000),
      ("\uFEFF\u2028 é😀", .str "a\rb\r\nc\x08\x0c\t\x7f")])]

/-- It is written with lines at the margin, and with an indent of three. -/
theorem gnarled_loads_back : gnarled.isKeyed = true ∧ gnarled.isExact = true ∧
    ∀ indent ∈ [-1, 3], ∃ t, Document.dump plainSettings (some indent) gnarled = .ok t ∧
      Document.load ⟨"", ["tokens.json"]⟩ (.ok t.toUTF8) = .ok gnarled := by
  have keyed : gnarled.isKeyed = true := by decide
  have small : gnarled.isExact = true := by decide +kernel
  have noNull : '\x00' ∉ (FilePath.mk "" ["tokens.json"]).toText.toList := by decide +kernel
  refine ⟨keyed, small, fun indent mem => ?_⟩
  have inBounds : -Json.indentBound ≤ indent ∧ indent < Json.indentBound ∧
      indent < plainSettings.host.widest := by
    have bounds : -Json.indentBound ≤ -1 ∧ 3 < Json.indentBound ∧ 3 < plainSettings.host.widest := by decide
    simp only [List.mem_cons, List.not_mem_nil, or_false] at mem
    omega
  obtain ⟨isWritten, loads⟩ := Document.dump_then_load plainSettings indent keyed small
  obtain ⟨t, written⟩ := isWritten.2 (.inr inBounds)
  exact ⟨t, written, (loads t written _).1 noNull⟩

/-- Nothing is written with an indent of two to the power of 63, not even an empty object. -/
theorem empty_not_written : (Json.obj []).isKeyed = true ∧ (Json.obj []).isExact = true ∧
    Document.dump plainSettings (some 9223372036854775808) (.obj []) = .error (.badIndent .outOfRange) :=
  ⟨rfl, rfl, rfl⟩

end Example

namespace Document

variable {path : FilePath} {opened : Except FileProblem ByteArray}

/-! ## What is not loaded -/

/-- The two ways to fail that loading announces: the file cannot be opened, or its text is no JSON from a
place on, told by line and column.  Either way the fault names the file. -/
inductive Announced (path : FilePath) (opened : Except FileProblem ByteArray) : Fault → Prop
  | closed {problem : FileProblem} : opened = .error problem →
      Announced path opened (.unloadable path.toText problem.reason)
  | badText {text : String} {before rest : List Char} {line column : Nat} {cause : Json.SyntaxCause} :
      opened = .ok text.toUTF8 → Text.unifyEnds text.toList = before ++ rest → line = before.count '\n' + 1 →
      column = (before.reverse.takeWhile (· != '\n')).length + 1 →
      Announced path opened (.unloadable path.toText
        s!"invalid JSON at line {line}, column {column}: {cause.message}")

/-- The ways to fail that are not announced: a null character in the path, bytes that are those of no text,
and a text with a run of more digits than an integer may have. -/
inductive Unannounced (path : FilePath) (opened : Except FileProblem ByteArray) : Fault → Prop
  | nullInPath : '\x00' ∈ path.toText.toList → Unannounced path opened .nullInPath
  | noText {bytes : ByteArray} {defect : Text.Utf8.Defect} : opened = .ok bytes →
      (∀ text : String, text.toUTF8 ≠ bytes) → Unannounced path opened (.badEncoding defect)
  | longRun {text : String} {digits : List Char} : opened = .ok text.toUTF8 →
      digits <:+: Text.unifyEnds text.toList → (∀ c ∈ digits, Json.isAsciiDigit c = true) →
      Numeral.maxDigits < digits.length → Unannounced path opened (.tooManyDigits digits.length)

/-- A text that is refused is refused at a place in it, or for digits that stand in it. -/
theorem ofText_error {text : String} {fault : Fault} (holds : opened = .ok text.toUTF8)
    (refused : ofText path text = .error fault) :
    Announced path opened fault ∨ Unannounced path opened fault := by
  rw [ofText, Json.read, String.toList_ofList] at refused
  cases read : Json.readDocument (Text.unifyEnds text.toList) with
  | ok value =>
      rw [read] at refused
      cases refused
  | error refusal =>
      have within := Json.readDocument_within read
      rw [read] at refused
      cases refusal with
      | tooManyDigits n =>
          cases refused
          obtain ⟨long, digits, stand, rfl, ascii⟩ := within
          exact .inr (.longRun holds stand ascii long)
      | syntaxAt cause rest =>
          cases refused
          obtain ⟨before, whole⟩ := within
          refine .inl (.badText holds whole.symm ?_ ?_)
          · simp [Json.locate, ← whole]
          · simp [Json.locate, ← whole]

theorem load_of_null (null : '\x00' ∈ path.toText.toList) : load path opened = .error .nullInPath := by
  simp [load, null]

theorem load_of_noText {bytes : ByteArray} (noNull : '\x00' ∉ path.toText.toList)
    (noText : ∀ text : String, text.toUTF8 ≠ bytes) :
    load path (.ok bytes) = .error (.badEncoding (Text.Utf8.defect bytes)) := by
  have invalid : ¬ bytes.IsValidUTF8 := fun valid => noText (String.fromUTF8 bytes valid) rfl
  simp [load, noNull, ofBytes, Text.Utf8.decode, String.fromUTF8?, invalid]

/-- An integer of too many digits is not loaded, even alone in its file. -/
theorem load_of_long_integer {n : Int} (noNull : '\x00' ∉ path.toText.toList)
    (long : Numeral.maxDigits < (Nat.toDigits 10 n.natAbs).length) :
    load path (.ok (String.ofList (Json.writeInt n)).toUTF8) =
      .error (.tooManyDigits (Nat.toDigits 10 n.natAbs).length) := by
  have noReturn : '\r' ∉ Json.writeInt n := fun mem => Json.ne_of_mem_writeInt mem (by decide) rfl rfl
  rw [load_toUTF8 noNull, ofText, String.toList_ofList, Text.unifyEnds_of_not_mem noReturn, Json.read,
    String.toList_ofList, Json.readDocument_writeInt_of_long long]
  rfl

theorem announced_or_unannounced {fault : Fault} (failed : load path opened = .error fault) :
    Announced path opened fault ∨ Unannounced path opened fault := by
  by_cases null : '\x00' ∈ path.toText.toList
  · cases (load_of_null null).symm.trans failed
    exact .inr (.nullInPath null)
  · cases opened with
    | error problem =>
        have closed : load path (.error problem) = .error (.unloadable path.toText problem.reason) := by
          simp [load, null]
        cases closed.symm.trans failed
        exact .inl (.closed rfl)
    | ok bytes =>
        by_cases valid : ∃ text : String, text.toUTF8 = bytes
        · obtain ⟨text, rfl⟩ := valid
          exact ofText_error rfl ((load_toUTF8 null text).symm.trans failed)
        · have noText := not_exists.1 valid
          cases (load_of_noText null noText).symm.trans failed
          exact .inr (.noText rfl noText)

/-- What a command comes to whose document is not loaded: it tells the user if that is announced, and ends
with code one; with any other fault it ends in this fault.  It leaves the folder alone. -/
def endOfCommand (folder : Folder) : Fault → Performed ExitCode
  | .unloadable name reason => ⟨[.failure s!"Failed to load {name}: {reason}"], .ok 1, folder⟩
  | other => ⟨[], .error other, folder⟩

theorem perform_of_load_error {settings : Settings} {least : Log.Level} {c : Command} {answers : List Char}
    {folder : Folder} {fault : Fault} (failed : load c.file (folder.read c.file) = .error fault) :
    c.perform settings least answers folder = endOfCommand folder fault := by
  rw [Command.perform, failed]
  cases fault <;> rfl

/-- The reader's verdict on digits is passed on as it is. -/
theorem ofText_eq_tooManyDigits_iff {text : String} {n : Nat} :
    ofText path text = .error (.tooManyDigits n) ↔
      Json.readDocument (Text.unifyEnds text.toList) = .error (.tooManyDigits n) := by
  rw [ofText, Json.read, String.toList_ofList]
  cases read : Json.readDocument (Text.unifyEnds text.toList) with
  | ok value => exact iff_of_false nofun nofun
  | error refusal =>
      cases refusal with
      | tooManyDigits m => simp [Except.mapError, Json.Refusal.toError]
      | syntaxAt cause rest => exact iff_of_false nofun nofun

/-- Loading gives a value or fails as it announces exactly if the path holds no null character and a file
that can be opened holds a text on whose digits the reader does not give up. -/
theorem loads_or_announces_iff :
    ((∃ d, load path opened = .ok d) ∨
        ∃ fault, load path opened = .error fault ∧ Announced path opened fault) ↔
      '\x00' ∉ path.toText.toList ∧ ∀ bytes, opened = .ok bytes → ∃ text : String, text.toUTF8 = bytes ∧
        ∀ n, Json.readDocument (Text.unifyEnds text.toList) ≠ .error (.tooManyDigits n) := by
  constructor
  · intro asClaimed
    -- Any other fault than the announced ones rules both sides out.
    have notOther {fault : Fault} (failed : load path opened = .error fault) :
        Announced path opened fault := by
      rcases asClaimed with ⟨d, loads⟩ | ⟨fault', failed', announced⟩
      · cases loads.symm.trans failed
      · cases failed'.symm.trans failed
        exact announced
    have noNull : '\x00' ∉ path.toText.toList := by
      intro null
      cases notOther (load_of_null null)
    refine ⟨noNull, ?_⟩
    rintro bytes rfl
    by_cases valid : ∃ text : String, text.toUTF8 = bytes
    · obtain ⟨text, rfl⟩ := valid
      refine ⟨text, rfl, fun n tooMany => ?_⟩
      cases notOther ((load_toUTF8 noNull text).trans (ofText_eq_tooManyDigits_iff.2 tooMany))
    · cases notOther (load_of_noText noNull (not_exists.1 valid))
  · rintro ⟨noNull, texts⟩
    cases result : load path opened with
    | ok d => exact .inl ⟨d, rfl⟩
    | error fault =>
        rcases announced_or_unannounced result with announced | unannounced
        · exact .inr ⟨fault, rfl, announced⟩
        · cases unannounced with
          | nullInPath null => exact absurd null noNull
          | noText holds noText =>
              obtain ⟨text, same, -⟩ := texts _ holds
              exact absurd same (noText text)
          | longRun holds =>
              obtain ⟨text, same, fine⟩ := texts _ holds
              rw [holds, ← same, load_toUTF8 noNull] at result
              exact absurd (ofText_eq_tooManyDigits_iff.1 result) (fine _)

/-- **What loading may end with**, for every path and whatever comes of opening it: a value, a fault that is
announced, or one that is not, for a path, bytes or digits as they are.  What is announced ends a command
with a message; what is not ends it as it is. -/
theorem load_faults (path : FilePath) (opened : Except FileProblem ByteArray) :
    (((∃ d, load path opened = .ok d) ∨
        ∃ fault, load path opened = .error fault ∧ Announced path opened fault) ↔
      '\x00' ∉ path.toText.toList ∧ ∀ bytes, opened = .ok bytes → ∃ text : String, text.toUTF8 = bytes ∧
        ∀ n, Json.readDocument (Text.unifyEnds text.toList) ≠ .error (.tooManyDigits n)) ∧
    (∀ fault, load path opened = .error fault →
      Announced path opened fault ∨ Unannounced path opened fault) ∧
    (∀ n : Int, Numeral.maxDigits < (Nat.toDigits 10 n.natAbs).length → '\x00' ∉ path.toText.toList →
      opened = .ok (String.ofList (Json.writeInt n)).toUTF8 →
      load path opened = .error (.tooManyDigits (Nat.toDigits 10 n.natAbs).length)) ∧
    ∀ settings least answers folder (c : Command) fault, c.file = path → folder.read path = opened →
      load path opened = .error fault →
      c.perform settings least answers folder = endOfCommand folder fault := by
  refine ⟨loads_or_announces_iff, fun fault => announced_or_unannounced, ?_, ?_⟩
  · rintro n long noNull rfl
    exact load_of_long_integer noNull long
  · rintro settings least answers folder c fault rfl rfl
    exact perform_of_load_error

end Document

namespace Example

/-- A folder with a document of one byte, which starts no character. -/
def loneByte : Folder := ⟨[(["tokens.json"], ⟨#[0xFF]⟩)], []⟩

/-- The document is not loaded, and no command says so: each ends in the fault. -/
theorem loneByte_unannounced :
    Document.load ⟨"", ["tokens.json"]⟩ (loneByte.read ⟨"", ["tokens.json"]⟩) =
        .error (.badEncoding ⟨0xFF, 0, 1, .badStart⟩) ∧
      ∀ settings least answers action output,
        (Command.mk ⟨"", ["tokens.json"]⟩ output action).perform settings least answers loneByte =
          ⟨[], .error (.badEncoding ⟨0xFF, 0, 1, .badStart⟩), loneByte⟩ := by
  have fails : Document.load ⟨"", ["tokens.json"]⟩ (loneByte.read ⟨"", ["tokens.json"]⟩) =
      .error (.badEncoding ⟨0xFF, 0, 1, .badStart⟩) := by
    have opens : loneByte.read ⟨"", ["tokens.json"]⟩ = .ok ⟨#[0xFF]⟩ := by decide +kernel
    have noNull : '\x00' ∉ (FilePath.mk "" ["tokens.json"]).toText.toList := by decide +kernel
    have invalid : ¬ ByteArray.IsValidUTF8 ⟨#[0xFF]⟩ := by decide +kernel
    have defect : Text.Utf8.defect ⟨#[0xFF]⟩ = ⟨0xFF, 0, 1, .badStart⟩ := by decide +kernel
    rw [opens, Document.load_of_noText noNull, defect]
    intro text same
    exact invalid (same ▸ text.isValidUTF8)
  exact ⟨fails, fun settings least answers action output =>
    Document.perform_of_load_error (c := ⟨⟨"", ["tokens.json"]⟩, output, action⟩) fails⟩

end Example

end DesignTokens
