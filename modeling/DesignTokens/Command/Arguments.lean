/-
# DesignTokens.Command.Arguments -- the command line

A command line names a command; the words after it are its options and a file.  A word that starts
with a dash is an option, unless it is a lone dash, looks like a negative number or holds a blank
and begins no option's name.  Long names may be shortened as long as one option is meant, a value
may be joined to a long name by an equals sign, and one-letter options may stand behind one dash.
Two dashes end the options.

`Word.ofText` tells what a single word is, `Given.ofWords` puts the words of a command together, and
`Command.parse` reads a whole command line.  Words that find no use are refused last, all at once.
-/
import DesignTokens.Folder.FilePath
import DesignTokens.Text.DecimalDigit
import DesignTokens.Text.Quoted

namespace DesignTokens

set_option autoImplicit false

/-! ## Commands and their options -/

inductive Verb where
  | validate
  | fix
  | autofix
  deriving DecidableEq, Repr

inductive Switch where
  | help
  | format
  | output
  | errorsOnly
  | yes
  | dryRun
  deriving DecidableEq, Repr

namespace Switch

def spellings : Switch → List String
  | help => ["-h", "--help"]
  | format => ["--format"]
  | output => ["--output"]
  | errorsOnly => ["--errors-only"]
  | yes => ["-y", "--yes"]
  | dryRun => ["--dry-run"]

/-- How messages name an option. -/
def name (s : Switch) : String :=
  "/".intercalate s.spellings

/-- Only long options take a value. -/
def takesValue : Switch → Bool
  | format => true
  | output => true
  | _ => false

/-- The values that an option can have, if not any. -/
def choices? : Switch → Option (List String)
  | format => some ["console", "json"]
  | _ => none

end Switch

namespace Verb

def all : List Verb := [validate, fix, autofix]

def name : Verb → String
  | validate => "validate"
  | fix => "fix"
  | autofix => "autofix"

def ofName? (name : String) : Option Verb :=
  all.find? fun v => v.name == name

def switches : Verb → List Switch
  | validate => [.help, .format, .output, .errorsOnly]
  | fix => [.help, .output, .yes, .dryRun]
  | autofix => [.help, .output]

end Verb

/-! ## What can be wrong -/

inductive UsageError where
  | ambiguous (word : String) (candidates : List String)
  | missingValue (switch : Switch)
  | unusedValue (switch : Switch) (value : String)
  | badChoice (what value : String) (choices : List String)
  | missingCommand
  | unrecognized (words : List String)
  deriving DecidableEq, Repr

namespace UsageError

def message : UsageError → String
  | ambiguous word candidates =>
      s!"ambiguous option: {word} could match " ++ ", ".intercalate candidates
  | missingValue switch => s!"argument {switch.name}: expected one argument"
  | unusedValue switch value =>
      s!"argument {switch.name}: ignored explicit argument {Text.quoted value}"
  | badChoice what value choices =>
      s!"argument {what}: invalid choice: {Text.quoted value} (choose from " ++
        ", ".intercalate (choices.map Text.quoted) ++ ")"
  | missingCommand => "the following arguments are required: command"
  | unrecognized words => "unrecognized arguments: " ++ " ".intercalate words

end UsageError

/-- Why a command line is not carried out: help is asked for, or something is wrong, with the
command that found it. -/
inductive Rejection where
  | help
  | usage (verb : Option Verb) (error : UsageError)
  deriving DecidableEq, Repr

namespace Rejection

def programName : String := "dtcg-lint"

def speaker : Option Verb → String
  | some verb => programName ++ " " ++ verb.name
  | none => programName

def message : Rejection → String
  | help => ""
  | usage verb error => speaker verb ++ ": error: " ++ error.message

/-- Asking for help is no failure. -/
def exitCode : Rejection → Nat
  | help => 0
  | usage _ _ => 2

end Rejection

/-! ## Words -/

inductive Word where
  | plain (text : String)
  /-- The two dashes that end the options. -/
  | divider
  /-- An option, with the text that its word carries behind the spelling. -/
  | switch (switch : Switch) (spelling : String) (attached : Option (List Char))
  | unknown (text : String)
  deriving DecidableEq, Repr

namespace Word

/-- A text up to its first equals sign, and the value behind the sign if there is one. -/
def splitJoined (text : List Char) : List Char × Option (List Char) :=
  match text.dropWhile (· != '=') with
  | _ :: value => (text.takeWhile (· != '='), some value)
  | [] => (text, none)

/-- Every spelling of some options, with its option. -/
def spelled (switches : List Switch) : List (String × Switch) :=
  switches.flatMap fun s => s.spellings.map fun spelling => (spelling, s)

/-- The options that a shortened word can mean. -/
def candidates (switches : List Switch) (text : List Char) :
    List (String × Switch × Option (List Char)) :=
  if text.take 2 = ['-', '-'] then
    let (start, attached) := splitJoined text
    (spelled switches).filterMap fun (spelling, s) =>
      if start.isPrefixOf spelling.toList then some (spelling, s, attached) else none
  else
    (spelled switches).filterMap fun (spelling, s) =>
      if spelling.toList = text.take 2 then some (spelling, s, some (text.drop 2))
      else if text.isPrefixOf spelling.toList then some (spelling, s, none)
      else none

/-- Digits, and perhaps a point with digits behind it, after a minus sign.  A line feed at the end
does not count. -/
def looksNegative : List Char → Bool
  | '-' :: number =>
      let number := if number.getLast? = some '\n' then number.dropLast else number
      match number.dropWhile Text.isDigit with
      | [] => !number.isEmpty
      | '.' :: fraction => !fraction.isEmpty && fraction.all Text.isDigit
      | _ => false
  | _ => false

/-- What a word is that starts with a dash and spells no option in full. -/
def ofShortened (switches : List Switch) (text : String) : Except UsageError Word :=
  match candidates switches text.toList with
  | [(spelling, s, attached)] => .ok (.switch s spelling attached)
  | [] =>
      if looksNegative text.toList || text.toList.contains ' ' then .ok (.plain text)
      else .ok (.unknown text)
  | several => .error (.ambiguous text (several.map (·.1)))

def ofText (switches : List Switch) (text : String) : Except UsageError Word :=
  match text.toList with
  | ['-'] => .ok (.plain text)
  | '-' :: _ =>
      match (spelled switches).lookup text, splitJoined text.toList with
      | some s, _ => .ok (.switch s text none)
      | none, (name, some attached) =>
          match (spelled switches).lookup (String.ofList name) with
          | some s => .ok (.switch s (String.ofList name) (some attached))
          | none => ofShortened switches text
      | none, (_, none) => ofShortened switches text
  | _ => .ok (.plain text)

/-- The words of a command line; behind the divider every word is plain. -/
def ofTexts (switches : List Switch) : List String → Except UsageError (List Word)
  | [] => .ok []
  | text :: rest =>
      if text = "--" then .ok (.divider :: rest.map .plain)
      else do return (← ofText switches text) :: (← ofTexts switches rest)

def text : Word → String
  | plain text => text
  | divider => "--"
  | switch _ spelling _ => spelling
  | unknown text => text

end Word

/-! ## Putting words together -/

/-- What the words of a command give. -/
structure Given where
  file : Option String
  flags : List Switch
  values : List (Switch × String)
  extras : List String
  deriving DecidableEq, Repr

namespace Given

def nothing : Given := ⟨none, [], [], []⟩

/-- The options that letters name behind an option that takes no value: each letter is an option of
its own.  What starts with no such letter is refused, for the option before it. -/
def letters (switches : List Switch) (s : Switch) : List Char → Except UsageError (List Switch)
  | [] => .error (.unusedValue s "")
  | c :: rest =>
      match (Word.spelled switches).lookup (String.ofList ['-', c]), rest with
      | none, _ => .error (.unusedValue s (String.ofList (c :: rest)))
      | some next, [] => .ok [s, next]
      | some next, _ => (letters switches next rest).map (s :: ·)

/-- The options that a word names which spells one without a value, given what is attached. -/
def flagsOf (switches : List Switch) (s : Switch) (spelling : String) :
    Option (List Char) → Except UsageError (List Switch)
  | none => .ok [s]
  | some attached =>
      if spelling.toList.take 2 = ['-', '-'] then
        .error (.unusedValue s (String.ofList attached))
      else letters switches s attached

def addFlags (g : Given) (flags : List Switch) : Given :=
  { g with flags := g.flags ++ flags }

def addExtra (g : Given) (text : String) : Given :=
  { g with extras := g.extras ++ [text] }

/-- Sets an option's value, if the option can have it. -/
def setValue (g : Given) (s : Switch) (value : String) : Except UsageError Given :=
  match s.choices? with
  | some choices =>
      if choices.contains value then .ok { g with values := g.values ++ [(s, value)] }
      else .error (.badChoice s.name value choices)
  | none => .ok { g with values := g.values ++ [(s, value)] }

/-- What stands for no value when it is joined to an option; it takes back an earlier value. -/
def noValue : String := "--"

/-- Sets an option's value to the text joined to the option. -/
def setJoined (g : Given) (s : Switch) (value : String) : Except UsageError Given :=
  if value = noValue then .ok { g with values := g.values ++ [(s, "")] } else g.setValue s value

/-- The last value given to an option. -/
def value? (g : Given) (s : Switch) : Option String :=
  g.values.reverse.lookup s

/-- What the words of a command give, on top of what was given.  The file is the first plain word,
and a divider beside it belongs to it; other plain words find no use. -/
def ofWords (verb : Verb) (fileKnown : Bool) (g : Given) : List Word → Except Rejection Given
  | [] => .ok g
  | .switch s spelling attached :: rest =>
      if s.takesValue then
        match attached with
        | some value =>
          match g.setJoined s (String.ofList value) with
          | .ok g' => ofWords verb fileKnown g' rest
          | .error e => .error (.usage (some verb) e)
        | none =>
          match rest with
          | .plain value :: more =>
            match g.setValue s value with
            | .ok g' => ofWords verb fileKnown g' more
            | .error e => .error (.usage (some verb) e)
          | _ => .error (.usage (some verb) (.missingValue s))
      else
        match flagsOf verb.switches s spelling attached with
        | .error e => .error (.usage (some verb) e)
        | .ok flags =>
            if flags.contains .help then .error .help
            else ofWords verb fileKnown (g.addFlags flags) rest
  | .unknown text :: rest => ofWords verb fileKnown (g.addExtra text) rest
  | .plain text :: rest =>
      if fileKnown then ofWords verb true (g.addExtra text) rest
      else
        match rest with
        | .divider :: more => ofWords verb true { g with file := some text } more
        | others => ofWords verb true { g with file := some text } others
  | .divider :: rest =>
      if fileKnown then ofWords verb true (g.addExtra "--") rest
      else
        match rest with
        | .plain text :: more => ofWords verb true { g with file := some text } more
        | others => ofWords verb true g others

end Given

/-! ## Commands -/

/-- What is done with a document. -/
inductive Action where
  | validate (asJson showWarnings : Bool)
  | fix (approveAll dryRun : Bool)
  | autofix
  deriving DecidableEq, Repr

structure Command where
  file : FilePath
  output : Option FilePath
  action : Action
  deriving DecidableEq, Repr

namespace Command

/-- The file that is used when none is named. -/
def defaultFile : String := "tokens.json"

def actionOf (g : Given) : Verb → Action
  | .validate => .validate (g.value? .format == some "json") (!g.flags.contains .errorsOnly)
  | .fix => .fix (g.flags.contains .yes) (g.flags.contains .dryRun)
  | .autofix => .autofix

/-- The command that was given; an empty name for the output counts as none. -/
def ofGiven (verb : Verb) (g : Given) : Command where
  file := .ofText (g.file.getD defaultFile)
  output := ((g.value? .output).filter (· != "")).map .ofText
  action := actionOf g verb

/-- A command with the words after it; `extras` are the words before it that found no use. -/
def ofVerb (verb : Verb) (extras words : List String) : Except Rejection Command :=
  match Word.ofTexts verb.switches words with
  | .error e => .error (.usage (some verb) e)
  | .ok parts =>
    match Given.ofWords verb false .nothing parts with
    | .error rejection => .error rejection
    | .ok g =>
      match extras ++ g.extras with
      | [] => .ok (ofGiven verb g)
      | unused => .error (.usage none (.unrecognized unused))

def badVerb (text : String) : Rejection :=
  .usage none (.badChoice "command" text (Verb.all.map Verb.name))

/-- A command line, behind some words that found no use. -/
def parseAfter (extras : List String) : List String → Except Rejection Command
  | [] => .error (.usage none .missingCommand)
  | "--" :: [] => .error (.usage none .missingCommand)
  | "--" :: _ => .error (badVerb "--")
  | text :: rest =>
      match Word.ofText [.help] text with
      | .error e => .error (.usage none e)
      | .ok (.unknown _) => parseAfter (extras ++ [text]) rest
      | .ok (.switch s spelling attached) =>
          match Given.flagsOf [.help] s spelling attached with
          | .error e => .error (.usage none e)
          | .ok _ => .error .help
      | .ok _ =>
          match Verb.ofName? text with
          | some verb => ofVerb verb extras rest
          | none => .error (badVerb text)

def parse (words : List String) : Except Rejection Command :=
  parseAfter [] words

end Command

end DesignTokens
