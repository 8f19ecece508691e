/-
# DesignTokens.Log.Registry -- named loggers

A logger comes into being with the first request for its name, and is set up once: the first request
that succeeds gives it a level and its one handler, and every later request finds it as it is.  A
request for a level that does not exist sets nothing up.

Dots in a name tell what stands above it (`above`).  A logger whose level stands for none goes by
the nearest logger above it that was asked for, which may go by one above it in turn (`levelOf`).
What a logger shows is worked out when it is looked at, and once more only after a logger was set up
(`enabled`, `look`).
-/
import DesignTokens.Settings

namespace DesignTokens

set_option autoImplicit false

structure Logger where
  level : Log.Level
  handlers : Nat
  deriving DecidableEq, Repr

/-- A logger that was not set up. -/
def Logger.idle : Logger := ⟨.notset, 0⟩

structure Loggers where
  /-- The loggers that were asked for, by name; the first of a name counts. -/
  known : List (String × Logger)
  /-- The levels that loggers were seen to show since one was last set up. -/
  seen : List (String × List Log.Level)

namespace Loggers

def empty : Loggers := ⟨[], []⟩

def find (loggers : Loggers) (name : String) : Logger :=
  (loggers.known.lookup name).getD Logger.idle

def isKnown (loggers : Loggers) (name : String) : Bool :=
  (loggers.known.lookup name).isSome

def isSetUp (loggers : Loggers) (name : String) : Bool :=
  (loggers.find name).handlers != 0

/-! ## Requests -/

/-- The level that a request asks for: its own unless that is empty, else that of the settings. -/
def wantedLevel (settings : Settings) (level : Option String) : Except Fault Log.Level :=
  match level.filter (· != "") with
  | some name => Log.Level.named (Text.upper name)
  | none => Log.Level.named settings.levelName

/-- Makes a name known. -/
def know (loggers : Loggers) (name : String) : Loggers :=
  { loggers with known := (name, loggers.find name) :: loggers.known }

/-- Gives a logger its level and its handler. -/
def setUp (loggers : Loggers) (name : String) (level : Log.Level) : Loggers where
  known := (name, ⟨level, (loggers.find name).handlers + 1⟩) :: loggers.known
  seen := []

/-- A request for a logger: the loggers after it, and the fault of one that failed. -/
def request (loggers : Loggers) (settings : Settings) (name : String) (level : Option String) :
    Loggers × Option Fault :=
  if loggers.isSetUp name then (loggers, none)
  else
    match wantedLevel settings level with
    | .ok wanted => (loggers.setUp name wanted, none)
    | .error fault => (loggers.know name, some fault)

/-! ## What stands above a name -/

/-- The names above a name, the nearest first; all of them are spelled backwards.  A name ends
before a dot, and the letter before that dot is not looked at again: of several dots in a row,
every second one counts. -/
def above (name : List Char) : List (List Char) :=
  match _split : name.dropWhile (· != '.') with
  | [] => []
  | _ :: rest => rest :: above (rest.drop 1)
termination_by name.length
decreasing_by
  have shorter := (List.dropWhile_sublist (l := name) (· != '.')).length_le
  rw [_split] at shorter
  simp at shorter ⊢
  omega

theorem length_lt_of_mem_above {name upper : List Char} (h : upper ∈ above name) :
    upper.length < name.length := by
  fun_induction above name with
  | case1 => simp at h
  | case2 name dot rest split ih =>
      have shorter := (List.dropWhile_sublist (l := name) (· != '.')).length_le
      rw [split] at shorter
      simp only [List.length_cons] at shorter
      rcases List.mem_cons.mp h with rfl | further
      · omega
      · have := ih further
        simp at this
        omega

def forwards (name : List Char) : String :=
  String.ofList name.reverse

/-- The level that the logger with a name, spelled backwards, goes by. -/
def levelOf (loggers : Loggers) (name : List Char) : Log.Level :=
  match (loggers.find (forwards name)).level with
  | .notset =>
      match _found : (above name).find? fun upper => loggers.isKnown (forwards upper) with
      | some upper => levelOf loggers upper
      | none => Log.Level.orDefault .notset
  | level => level
termination_by name.length
decreasing_by exact length_lt_of_mem_above (List.mem_of_find?_eq_some _found)

/-! ## What loggers show -/

/-- The levels at which entries are made. -/
def entryLevels : List Log.Level := [.debug, .info, .warning, .error, .critical]

/-- The levels at which a logger shows entries. -/
def enabled (loggers : Loggers) (name : String) : List Log.Level :=
  (loggers.seen.lookup name).getD
    (entryLevels.filter fun level => (loggers.levelOf name.toList.reverse).rank ≤ level.rank)

/-- Looks at what a logger shows. -/
def look (loggers : Loggers) (name : String) : Loggers :=
  { loggers with seen := (name, loggers.enabled name) :: loggers.seen }

end Loggers

end DesignTokens
