/-
# DesignTokens.Proofs.Log.Requests -- a logger is set up once

While a program runs, the level of the settings may be set and unset, and loggers are asked for by name, with
levels that exist and levels that do not (`Loggers.Process.run`).  What a request does is one of three things
(`request_cases`): nothing to a logger that is set up, whatever it asks for; else it gives the logger its level
and its handler; or, where the level does not exist, it fails and leaves the logger as it was.

So a name has one moment that counts, the first request for it that succeeds (`Process.FirstGranted`).  Before
it the logger is as if it had never been asked for, and from then on it has the level of that request and one
handler (`find_run`, `find_of_requests`).  The logger above all others is not asked for by a name and has no
place among these.
-/
import DesignTokens.Log.Registry
import Mathlib.Data.List.Induction

namespace DesignTokens

set_option autoImplicit false

namespace Loggers

/-! ## One request -/

/-- The name of the level that a request asks for, in capitals: its own if it gives one that is not empty, else
that of the settings, else that of the information level. -/
def askedLevel (settings : Settings) (level : Option String) : String :=
  Text.upper ((level.filter (· != "")).getD (settings.logLevel.getD "INFO"))

theorem wantedLevel_eq (settings : Settings) (level : Option String) :
    wantedLevel settings level = Log.Level.named (askedLevel settings level) := by
  unfold wantedLevel askedLevel
  split
  · rename_i name given
    rw [given, Option.getD_some]
  · rename_i none_
    rw [none_, Option.getD_none]
    rfl

variable (loggers : Loggers) (settings : Settings) (name : String) (level : Option String)

/-- What a request can do. -/
theorem request_cases :
    (loggers.isSetUp name = true ∧ loggers.request settings name level = (loggers, none)) ∨
      (loggers.isSetUp name = false ∧ ∃ wanted, Log.Level.ofName? (askedLevel settings level) = some wanted ∧
        loggers.request settings name level = (loggers.setUp name wanted, none)) ∨
      (loggers.isSetUp name = false ∧ Log.Level.ofName? (askedLevel settings level) = none ∧
        loggers.request settings name level =
          (loggers.know name, some (.unknownLevel (askedLevel settings level)))) := by
  unfold request
  rw [wantedLevel_eq, Log.Level.named]
  cases isSetUp : loggers.isSetUp name with
  | true => exact .inl ⟨rfl, rfl⟩
  | false =>
      cases Log.Level.ofName? (askedLevel settings level) with
      | some wanted => exact .inr (.inl ⟨rfl, wanted, rfl, rfl⟩)
      | none => exact .inr (.inr ⟨rfl, rfl, rfl⟩)

/-! ## What becomes of a logger -/

theorem find_cons_self (known : List (String × Logger)) (seen : List (String × List Log.Level)) (logger : Logger) :
    find ⟨(name, logger) :: known, seen⟩ name = logger := by
  simp [find]

theorem find_cons_of_ne (known : List (String × Logger)) (seen : List (String × List Log.Level)) (logger : Logger)
    {other : String} (ne : other ≠ name) :
    find ⟨(name, logger) :: known, seen⟩ other = find ⟨known, seen⟩ other := by
  have differ : (other == name) = false := by simpa using ne
  simp [find, List.lookup_cons, differ]

/-- A name that is made known stands for the logger it stood for. -/
theorem find_know (other : String) : (loggers.know name).find other = loggers.find other := by
  by_cases same : other = name
  · subst same
    exact find_cons_self other _ _ _
  · exact find_cons_of_ne name _ _ _ same

theorem find_setUp_self (wanted : Log.Level) :
    (loggers.setUp name wanted).find name = ⟨wanted, (loggers.find name).handlers + 1⟩ :=
  find_cons_self name _ _ _

/-- A request is a matter of one name. -/
theorem find_request_of_ne {other : String} (ne : other ≠ name) :
    (loggers.request settings name level).1.find other = loggers.find other := by
  rcases loggers.request_cases settings name level with ⟨_, done⟩ | ⟨_, wanted, _, done⟩ | ⟨_, _, done⟩
  · rw [done]
  · rw [done]
    exact find_cons_of_ne name _ _ _ ne
  · rw [done]
    exact loggers.find_know name other

theorem isSetUp_of_find {loggers : Loggers} {name : String} {wanted : Log.Level}
    (found : loggers.find name = ⟨wanted, 1⟩) : loggers.isSetUp name = true := by
  rw [isSetUp, found]
  rfl

theorem find_of_isKnown_eq_false {loggers : Loggers} {name : String} (fresh : loggers.isKnown name = false) :
    loggers.find name = Logger.idle := by
  unfold isKnown at fresh
  rw [Option.isSome_eq_false_iff, Option.isNone_iff_eq_none] at fresh
  rw [find, fresh, Option.getD_none]

/-! ## A running program -/

/-- The level of the settings is set or unset, or a logger is asked for. -/
inductive Event where
  | setLevel (text : Option String)
  | request (name : String) (level : Option String)

/-- The settings that hold now, and the loggers. -/
structure Process where
  settings : Settings
  loggers : Loggers

namespace Process

/-- What an event leaves behind, and the fault of a request that failed. -/
def step (p : Process) : Event → Process × Option Fault
  | .setLevel text => ({ p with settings := { p.settings with logLevel := text } }, none)
  | .request name level =>
      let (loggers, fault) := p.loggers.request p.settings name level
      ({ p with loggers }, fault)

def run (p : Process) (events : List Event) : Process :=
  events.foldl (fun p event => (p.step event).1) p

/-- A request for the name has succeeded. -/
def Granted (p : Process) (name : String) (events : List Event) : Prop :=
  ∃ before level after, events = before ++ .request name level :: after ∧
    ((p.run before).step (.request name level)).2 = none

/-- The first request for the name that succeeded asked for a level. -/
def FirstGranted (p : Process) (name : String) (events : List Event) (wanted : Log.Level) : Prop :=
  ∃ before level after, events = before ++ .request name level :: after ∧
    ¬ p.Granted name before ∧ ((p.run before).step (.request name level)).2 = none ∧
    Log.Level.ofName? (askedLevel (p.run before).settings level) = some wanted

variable {p : Process} {name : String} {events : List Event}

theorem run_snoc (event : Event) : p.run (events ++ [event]) = ((p.run events).step event).1 := by
  rw [run, List.foldl_append]
  rfl

/-- One more event grants what was granted before it and what it grants itself. -/
theorem granted_snoc_iff (event : Event) :
    p.Granted name (events ++ [event]) ↔ p.Granted name events ∨
      ∃ level, event = .request name level ∧ ((p.run events).step event).2 = none := by
  constructor
  · rintro ⟨before, level, after, split_, granted⟩
    rcases List.eq_nil_or_concat after with rfl | ⟨after, last, rfl⟩
    · obtain ⟨rfl, last⟩ := List.append_inj' split_ rfl
      obtain rfl := List.singleton_inj.1 last
      exact .inr ⟨level, rfl, granted⟩
    · rw [List.concat_eq_append, ← List.cons_append, ← List.append_assoc] at split_
      obtain ⟨rfl, -⟩ := List.append_inj' split_ rfl
      exact .inl ⟨before, level, after, rfl, granted⟩
  · rintro (⟨before, level, after, rfl, granted⟩ | ⟨level, rfl, granted⟩)
    · exact ⟨before, level, after ++ [event], by rw [List.append_assoc, List.cons_append], granted⟩
    · exact ⟨events, level, [], rfl, granted⟩

theorem FirstGranted.snoc {wanted : Log.Level} (first : p.FirstGranted name events wanted) (event : Event) :
    p.FirstGranted name (events ++ [event]) wanted := by
  obtain ⟨before, level, after, rfl, facts⟩ := first
  exact ⟨before, level, after ++ [event], by rw [List.append_assoc, List.cons_append], facts⟩

theorem FirstGranted.granted {wanted : Log.Level} (first : p.FirstGranted name events wanted) :
    p.Granted name events := by
  obtain ⟨before, level, after, split_, _, granted, _⟩ := first
  exact ⟨before, level, after, split_, granted⟩

/-- Only a request for its name does anything to a logger. -/
theorem find_step_of_ne {event : Event} (other : ∀ level, event ≠ .request name level) :
    ((p.step event).1.loggers.find name) = p.loggers.find name := by
  cases event with
  | setLevel text => rfl
  | request asked level =>
      have ne : name ≠ asked := fun same => other level (by rw [same])
      exact p.loggers.find_request_of_ne p.settings asked level ne

/-- A logger with a handler stays as it is, and every request for it succeeds. -/
theorem step_of_isSetUp (isSetUp : p.loggers.isSetUp name = true) (level : Option String) :
    p.step (.request name level) = (p, none) := by
  rcases p.loggers.request_cases p.settings name level with ⟨_, done⟩ | ⟨not_, _⟩ | ⟨not_, _⟩
  · rw [step, done]
  · rw [isSetUp] at not_
    cases not_
  · rw [isSetUp] at not_
    cases not_

/-- A request for a logger without a handler sets it up, or fails and leaves it as it was. -/
theorem step_of_idle (idle : p.loggers.find name = Logger.idle) (level : Option String) :
    (∃ wanted, Log.Level.ofName? (askedLevel p.settings level) = some wanted ∧
        (p.step (.request name level)).2 = none ∧
        (p.step (.request name level)).1.loggers.find name = ⟨wanted, 1⟩) ∨
      (Log.Level.ofName? (askedLevel p.settings level) = none ∧
        (p.step (.request name level)).2 = some (.unknownLevel (askedLevel p.settings level)) ∧
        (p.step (.request name level)).1.loggers.find name = Logger.idle) := by
  rcases p.loggers.request_cases p.settings name level with
    ⟨isSetUp, _⟩ | ⟨_, wanted, exists_, done⟩ | ⟨_, missing, done⟩
  · rw [Loggers.isSetUp, idle] at isSetUp
    cases isSetUp
  · refine .inl ⟨wanted, exists_, ?_⟩
    rw [step, done]
    refine ⟨rfl, ?_⟩
    show (p.loggers.setUp name wanted).find name = _
    rw [find_setUp_self, idle]
    rfl
  · refine .inr ⟨missing, ?_⟩
    rw [step, done]
    refine ⟨rfl, ?_⟩
    show (p.loggers.know name).find name = _
    rw [find_know, idle]

/-- **A logger is what the first request that succeeded made of it**, and nothing before that. -/
theorem find_run (fresh : p.loggers.isKnown name = false) (events : List Event) :
    (¬ p.Granted name events ∧ (p.run events).loggers.find name = Logger.idle) ∨
      ∃ wanted, p.FirstGranted name events wanted ∧ (p.run events).loggers.find name = ⟨wanted, 1⟩ := by
  -- from one event to the next: a name that has been granted keeps its logger, one that has not may get it
  induction events using List.reverseRecOn with
  | nil =>
      refine .inl ⟨?_, find_of_isKnown_eq_false fresh⟩
      rintro ⟨before, level, after, split_, _⟩
      exact List.append_ne_nil_of_right_ne_nil _ (List.cons_ne_nil _ _) split_.symm
  | append_singleton events event ih =>
      rw [run_snoc]
      rcases ih with ⟨notYet, idle⟩ | ⟨wanted, first, found⟩
      · by_cases asks : ∃ level, event = .request name level
        · obtain ⟨level, rfl⟩ := asks
          rcases step_of_idle idle level with ⟨wanted, exists_, granted, found⟩ | ⟨_, failed, found⟩
          · exact .inr ⟨wanted, ⟨events, level, [], rfl, notYet, granted, exists_⟩, found⟩
          · refine .inl ⟨fun granted => ?_, found⟩
            rcases (granted_snoc_iff _).1 granted with before | ⟨_, _, now⟩
            · exact notYet before
            · rw [failed] at now
              cases now
        · refine .inl ⟨fun granted => ?_, ?_⟩
          · rcases (granted_snoc_iff _).1 granted with before | ⟨level, same, _⟩
            · exact notYet before
            · exact asks ⟨level, same⟩
          · rw [find_step_of_ne fun level same => asks ⟨level, same⟩, idle]
      · refine .inr ⟨wanted, first.snoc event, ?_⟩
        by_cases asks : ∃ level, event = .request name level
        · obtain ⟨level, rfl⟩ := asks
          rw [step_of_isSetUp (isSetUp_of_find found), found]
        · rw [find_step_of_ne fun level same => asks ⟨level, same⟩, found]

/-- **A logger is set up once.**  Until a request for it succeeds, a logger has neither level nor handler, and
a request succeeds exactly if the level that it asks for exists; it names the level otherwise.  From then on
the logger has the level that this first request asked for and one handler, and every request succeeds. -/
theorem find_of_requests (p : Process) (name : String) (fresh : p.loggers.isKnown name = false)
    (events : List Event) :
    (¬ p.Granted name events →
      (p.run events).loggers.find name = Logger.idle ∧
        ∀ level,
          let asked := askedLevel (p.run events).settings level
          let (after, fault) := (p.run events).step (.request name level)
          (∃ wanted, Log.Level.ofName? asked = some wanted ∧ fault = none) ∨
            (Log.Level.ofName? asked = none ∧ fault = some (.unknownLevel asked) ∧
              after.loggers.find name = Logger.idle)) ∧
      (p.Granted name events →
        (∃ wanted, p.FirstGranted name events wanted ∧ (p.run events).loggers.find name = ⟨wanted, 1⟩) ∧
          ∀ level, ((p.run events).step (.request name level)).2 = none) := by
  rcases find_run fresh events with ⟨notYet, idle⟩ | ⟨wanted, first, found⟩
  · refine ⟨fun _ => ⟨idle, fun level => ?_⟩, fun granted => absurd granted notYet⟩
    rcases step_of_idle idle level with ⟨wanted, exists_, granted, _⟩ | failed
    · exact .inl ⟨wanted, exists_, granted⟩
    · exact .inr failed
  · refine ⟨fun notYet => absurd first.granted notYet, fun _ => ⟨⟨wanted, first, found⟩, fun level => ?_⟩⟩
    rw [step_of_isSetUp (isSetUp_of_find found)]

namespace Example

/-- A request in vain, one that succeeds, and one in vain again but for a logger that is there. -/
def retries : List Event :=
  [.setLevel (some "loud"), .request "app" none, .request "app" (some "debug"), .setLevel (some "error"),
    .request "app" (some "bogus")]

/-- No setting is made, and no logger was asked for. -/
def start : Process := ⟨.unset ⟨id, 0⟩, .empty⟩

theorem retries_set_up :
    start.loggers.isKnown "app" = false ∧
      (start.step (.request "app" (some "bogus"))).2 = some (.unknownLevel "BOGUS") ∧
      start.Granted "app" retries ∧
      (start.run retries).loggers.find "app" = ⟨.debug, 1⟩ ∧
      ∀ level, ((start.run retries).step (.request "app" level)).2 = none := by
  have granted : start.Granted "app" retries :=
    ⟨[.setLevel (some "loud"), .request "app" none], some "debug", _, rfl, by decide +kernel⟩
  exact ⟨rfl, by decide +kernel, granted, by decide +kernel,
    ((find_of_requests _ "app" rfl retries).2 granted).2⟩

end Example

end Process

end Loggers

end DesignTokens
