/-
# DesignTokens.Log -- what the library has to say while it works

Operations that report on their work return their entries, oldest first, beside the result; nothing
is written here.  A reader of the log chooses the least level to be shown.  To make an entry never
fails: what handles entries is taken to cope with every message.
-/

namespace DesignTokens

set_option autoImplicit false

namespace Log

inductive Level where
  | notset
  | debug
  | info
  | warning
  | error
  | critical
  deriving DecidableEq, Repr

namespace Level

/-- The place of a level; a higher one is more severe. -/
def rank : Level → Nat
  | notset => 0
  | debug => 10
  | info => 20
  | warning => 30
  | error => 40
  | critical => 50

def name : Level → String
  | notset => "NOTSET"
  | debug => "DEBUG"
  | info => "INFO"
  | warning => "WARNING"
  | error => "ERROR"
  | critical => "CRITICAL"

/-- The names of levels; two levels have a second name. -/
def names : List (String × Level) :=
  [("CRITICAL", critical), ("FATAL", critical), ("ERROR", error), ("WARN", warning),
    ("WARNING", warning), ("INFO", info), ("DEBUG", debug), ("NOTSET", notset)]

def ofName? (s : String) : Option Level :=
  names.lookup s

/-- A level that stands for none gives way to the default. -/
def orDefault : Level → Level
  | notset => warning
  | level => level

theorem ofName?_name (l : Level) : ofName? l.name = some l := by
  cases l <;> rfl

end Level

structure Entry where
  level : Level
  message : String
  deriving DecidableEq, Repr

def debug (message : String) : Entry :=
  ⟨.debug, message⟩

def info (message : String) : Entry :=
  ⟨.info, message⟩

def warning (message : String) : Entry :=
  ⟨.warning, message⟩

end Log

/-- Entries, oldest first. -/
abbrev Log := List Log.Entry

/-- The entries as lines, from a least level on. -/
def Log.text (least : Log.Level) (log : Log) : String :=
  String.join ((log.filter fun e => least.rank ≤ e.level.rank).map fun e => e.message ++ "\n")

end DesignTokens
