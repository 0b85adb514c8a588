import Clia.Log.AsyncLogger
import Mathlib.Data.List.Induction

/-!
# The logger manager and the log macros

`log.h`, `log/log.cc`: a log macro evaluates its `LOGGER` expression up to three times, once for the
null test, once for the level and once for the event. In between other threads may set the default
logger and register loggers. The default is set only while it is null, so it changes once at most.

In `Program` the calls of the manager come one after another. In `Threads` they overlap, in
sequentially consistent memory: `set_default` and `register_logger` hold the lock, `default_logger()`
and `logger(name)` read without it, and an evaluation that meets a call that writes what it reads is a
data race. A run without one is a run of `Program`.

## Main results

* `LoggerManger.registry_history`: what the manager answers, as a function of the calls so far.
* `LoggerManger.run_program`: a run of `Threads` is one of `Program`, with each call at its end.
* `LoggerManger.macro_consistent`: short of a data race, a macro never takes the level of a null
  logger, and the event goes to the logger whose level was compared, in every interleaving in which no
  name is registered while a macro for this name is under way.
-/

namespace Clia.Log

open LabelledRun

variable {Key L : Type} [DecidableEq Key]

/-- `default_logger_` and `loggers_`. A logger may be registered as a null pointer. -/
structure LoggerManger (Key L : Type) where
  defaultLogger : Option L
  loggers : List (Key × Option L)
  deriving DecidableEq, Repr

namespace LoggerManger

def new : LoggerManger Key L := ⟨none, []⟩

def setDefault (m : LoggerManger Key L) (logger : Option L) : LoggerManger Key L :=
  if m.defaultLogger.isNone then { m with defaultLogger := logger } else m

/-- `loggers_[name] = logger`. -/
def registerLogger (m : LoggerManger Key L) (name : Key) (logger : Option L) :
    LoggerManger Key L :=
  { m with loggers := (name, logger) :: m.loggers.filter fun entry => entry.1 ≠ name }

def logger (m : LoggerManger Key L) (name : Key) : Option L :=
  match m.loggers.lookup name with
  | some logger => logger
  | none => m.defaultLogger

/-! ### The log macros -/

/-- Where a log macro is. `compared` is the logger whose level was taken. -/
inductive MacroPc (L : Type) where
  | test
  | compare
  | construct (compared : L)
  | logged (compared : L) (given : Option L)
  | skipped
  deriving DecidableEq, Repr

/-- A log macro with the default logger, or with the one of a name. -/
structure LogMacro (Key L : Type) where
  source : Option Key
  level : Level
  pc : MacroPc L
  deriving DecidableEq, Repr

/-- The macro evaluates its logger again. -/
def LogMacro.underWay (call : LogMacro Key L) : Bool :=
  match call.pc with
  | .test | .compare | .construct _ => true
  | _ => false

/-- The manager, and the macros that were begun. The calls of the manager come one after another. -/
structure Program (Key L : Type) where
  manager : LoggerManger Key L
  macros : List (LogMacro Key L)
  deriving DecidableEq, Repr

inductive Use (Key L : Type) where
  | setDefault (logger : Option L)
  | registerLogger (name : Key) (logger : Option L)
  | begin (source : Option Key) (level : Level)
  /-- the next evaluation of `LOGGER` in the `i`-th macro -/
  | eval (i : Nat)
  deriving DecidableEq, Repr

/-- `LOGGER`. -/
def value (m : LoggerManger Key L) : Option Key → Option L
  | none => m.defaultLogger
  | some name => m.logger name

/-- `levelOf` is `Logger::level`. -/
def evaluate (levelOf : L → Level) (m : LoggerManger Key L) (call : LogMacro Key L) :
    Except Fault (MacroPc L) :=
  match call.pc with
  | .test => .ok (if (m.value call.source).isSome then .compare else .skipped)
  | .compare =>
    match m.value call.source with
    | none => .error .nullDereference
    | some logger =>
      .ok (if (levelOf logger).toNat ≤ call.level.toNat then .construct logger else .skipped)
  | .construct compared => .ok (.logged compared (m.value call.source))
  | _ => .error .disabled

def step (levelOf : L → Level) (p : Program Key L) : Use Key L → Except Fault (Program Key L)
  | .setDefault logger => .ok { p with manager := p.manager.setDefault logger }
  | .registerLogger name logger => .ok { p with manager := p.manager.registerLogger name logger }
  | .begin source level => .ok { p with macros := p.macros ++ [⟨source, level, .test⟩] }
  | .eval i =>
    match p.macros[i]? with
    | none => .error .disabled
    | some call => do
      let pc ← p.manager.evaluate levelOf call
      return { p with macros := p.macros.set i { call with pc := pc } }

def start : Program Key L := ⟨new, []⟩

/-! ### What the manager answers -/

/-- The first default that is no null pointer. -/
def firstDefault (uses : List (Use Key L)) : Option L :=
  uses.findSome? fun
    | .setDefault logger => logger
    | _ => none

/-- The last registration of a name. -/
def lastRegistration (name : Key) (uses : List (Use Key L)) : Option (Option L) :=
  uses.reverse.findSome? fun
    | .registerLogger other logger => if other = name then some logger else none
    | _ => none

theorem lookup_filter {loggers : List (Key × Option L)} {name other : Key} (differ : name ≠ other) :
    (loggers.filter fun entry => entry.1 ≠ other).lookup name = loggers.lookup name := by
  induction loggers with
  | nil => rfl
  | cons entry loggers ih =>
    by_cases gone : entry.1 = other
    · have unequal : (name == entry.1) = false := by simpa [gone] using differ
      rw [List.filter_cons_of_neg (by simpa using gone), ih, List.lookup_cons, unequal]
    · rw [List.filter_cons_of_pos (by simpa using gone), List.lookup_cons, List.lookup_cons, ih]

theorem lookup_registerLogger (m : LoggerManger Key L) (name other : Key) (logger : Option L) :
    (m.registerLogger other logger).loggers.lookup name =
      if other = name then some logger else m.loggers.lookup name := by
  by_cases same : other = name
  · simp [registerLogger, same]
  · have unequal : (name == other) = false := by simpa using Ne.symm same
    rw [if_neg same, registerLogger, List.lookup_cons, unequal, lookup_filter (Ne.symm same)]

section

variable {levelOf : L → Level} {p q : Program Key L}

/-- A macro changes nothing in the manager. -/
theorem eval_manager {i : Nat} (taken : step levelOf p (.eval i) = .ok q) :
    q.manager = p.manager := by
  simp only [step] at taken
  split at taken
  next => cases taken
  next =>
    obtain ⟨pc, _, same⟩ := Checked.bind_ok_iff.mp taken
    cases same
    rfl

/-- **The registry**: after every sequence of calls the default logger is the first one set that is
no null pointer, and a name gives its last registration, a null pointer if that was one; a name that
was never registered gives the default logger. -/
theorem registry_history {uses : List (Use Key L)} (ran : run (step levelOf) start uses = .ok p) :
    p.manager.defaultLogger = firstDefault uses ∧
      ∀ name, p.manager.logger name = (lastRegistration name uses).getD (firstDefault uses) := by
  -- The entries are those of the last registrations; the induction is from the last call back.
  have entries : p.manager.defaultLogger = firstDefault uses ∧
      ∀ name, p.manager.loggers.lookup name = lastRegistration name uses := by
    induction uses using List.reverseRecOn generalizing p with
    | nil =>
      cases ran
      exact ⟨rfl, fun _ => rfl⟩
    | append_singleton uses last ih =>
      obtain ⟨mid, ran, final⟩ := run_append_inv ran
      obtain ⟨after, taken, stop⟩ := run_cons_inv final
      cases stop
      obtain ⟨default, registered⟩ := ih ran
      simp only [firstDefault, lastRegistration] at default registered
      simp only [firstDefault, lastRegistration, List.findSome?_append, List.reverse_append,
        List.reverse_singleton, List.singleton_append, List.findSome?_cons, List.findSome?_nil,
        ← default, ← registered]
      cases last with
      | setDefault logger =>
        cases taken
        simp only [setDefault]
        cases set : mid.manager.defaultLogger with
        | none => cases logger <;> exact ⟨rfl, fun _ => rfl⟩
        | some first => exact ⟨by simp [set], fun _ => rfl⟩
      | registerLogger other logger =>
        cases taken
        refine ⟨by simp [registerLogger], ?_⟩
        intro name
        rw [lookup_registerLogger]
        by_cases same : other = name
        · simp [same]
        · simp [same]
      | begin source level =>
        cases taken
        exact ⟨by simp, fun _ => rfl⟩
      | eval i =>
        rw [eval_manager taken]
        exact ⟨by simp, fun _ => rfl⟩
  refine ⟨entries.1, ?_⟩
  intro name
  rw [logger, entries.2 name, ← entries.1]
  cases lastRegistration name uses <;> rfl

/-! ### A macro and the other threads -/

/-- A name is registered only while no macro for it is under way. -/
def Calm (p : Program Key L) : Use Key L → Prop
  | .registerLogger name _ =>
    ∀ call ∈ p.macros, call.source = some name → call.underWay = false
  | _ => True

instance (p : Program Key L) : (use : Use Key L) → Decidable (Calm p use)
  | .registerLogger _ _ => inferInstanceAs (Decidable (∀ call ∈ p.macros, _ → _))
  | .setDefault _ | .begin _ _ | .eval _ => isTrue trivial

/-- Past the null test the expression is a logger, past the level it is the one compared. -/
def Steady (levelOf : L → Level) (m : LoggerManger Key L) (call : LogMacro Key L) : Prop :=
  match call.pc with
  | .test | .skipped => True
  | .compare => ∃ logger, m.value call.source = some logger
  | .construct compared =>
    m.value call.source = some compared ∧ (levelOf compared).toNat ≤ call.level.toNat
  | .logged compared given =>
    given = some compared ∧ (levelOf compared).toNat ≤ call.level.toNat

/-- Steadiness is about the value of the expression, and only while the macro is under way. -/
theorem Steady.of_value {m m' : LoggerManger Key L} {call : LogMacro Key L}
    (steady : Steady levelOf m call)
    (same : call.underWay = true → ∀ logger, m.value call.source = some logger →
      m'.value call.source = some logger) : Steady levelOf m' call := by
  unfold Steady at steady ⊢
  unfold LogMacro.underWay at same
  cases here : call.pc with
  | test => trivial
  | skipped => trivial
  | compare =>
    rw [here] at steady same
    obtain ⟨logger, there⟩ := steady
    exact ⟨logger, same rfl logger there⟩
  | construct compared =>
    rw [here] at steady same
    exact ⟨same rfl compared steady.1, steady.2⟩
  | logged compared given =>
    rw [here] at steady
    exact steady

/-- A default that is set stays. -/
theorem value_setDefault {m : LoggerManger Key L} {source : Option Key} {given : L}
    (set : m.value source = some given) (logger : Option L) :
    (m.setDefault logger).value source = some given := by
  unfold setDefault
  split
  next unset =>
    rw [Option.isNone_iff_eq_none] at unset
    cases source with
    | none => simp [value, unset] at set
    | some name =>
      simp only [value, LoggerManger.logger] at set ⊢
      cases entry : m.loggers.lookup name with
      | none => simp [entry, unset] at set
      | some registered => simpa [entry] using set
  next => exact set

theorem steady_evaluate {m : LoggerManger Key L} {call : LogMacro Key L} {pc : MacroPc L}
    (steady : Steady levelOf m call) (ok : m.evaluate levelOf call = .ok pc) :
    Steady levelOf m { call with pc := pc } := by
  unfold evaluate at ok
  unfold Steady at steady
  cases here : call.pc with
  | test =>
    simp only [here] at ok
    cases ok
    cases there : m.value call.source with
    | none => trivial
    | some logger => exact ⟨logger, there⟩
  | compare =>
    simp only [here] at ok
    cases there : m.value call.source with
    | none => simp [there] at ok
    | some logger =>
      simp only [there, Except.ok.injEq] at ok
      subst ok
      by_cases enabled : (levelOf logger).toNat ≤ call.level.toNat
      · rw [if_pos enabled]
        exact ⟨there, enabled⟩
      · rw [if_neg enabled]
        trivial
  | construct compared =>
    simp only [here] at ok steady
    cases ok
    exact steady
  | logged compared given =>
    simp only [here] at ok
    cases ok
  | skipped =>
    simp only [here] at ok
    cases ok

/-- Step lemma. -/
theorem steady_step {use : Use Key L}
    (steady : ∀ call ∈ p.macros, Steady levelOf p.manager call) (calm : Calm p use)
    (taken : step levelOf p use = .ok q) : ∀ call ∈ q.macros, Steady levelOf q.manager call := by
  cases use with
  | setDefault logger =>
    cases taken
    intro call member
    exact (steady call member).of_value fun _ given there => value_setDefault there logger
  | registerLogger name logger =>
    cases taken
    intro call member
    apply (steady call member).of_value
    intro underWay given there
    -- The macro is for another name, or for the default.
    have other : call.source ≠ some name := by
      intro same
      have finished := calm call member same
      rw [underWay] at finished
      cases finished
    cases source : call.source with
    | none =>
      rw [source] at there
      exact there
    | some key =>
      have differ : ¬name = key := fun same => other (by rw [source, same])
      rw [source] at there
      have same : (p.manager.registerLogger name logger).defaultLogger =
        p.manager.defaultLogger := rfl
      simpa only [value, LoggerManger.logger, lookup_registerLogger, if_neg differ, same] using there
  | begin source level =>
    cases taken
    intro call member
    rcases List.mem_append.mp member with among | last
    · exact steady call among
    · rw [List.mem_singleton.mp last]
      trivial
  | eval i =>
    simp only [step] at taken
    split at taken
    next => cases taken
    next call found =>
      obtain ⟨pc, ok, same⟩ := Checked.bind_ok_iff.mp taken
      cases same
      intro other member
      rcases List.mem_or_eq_of_mem_set member with old | rfl
      · exact steady other old
      · exact steady_evaluate (steady call (List.mem_of_getElem? found)) ok

/-- Only labels that are no step fail. -/
theorem steady_fails {use : Use Key L} {fault : Fault}
    (steady : ∀ call ∈ p.macros, Steady levelOf p.manager call)
    (failed : step levelOf p use = .error fault) : fault = .disabled := by
  cases use with
  | eval i =>
    simp only [step] at failed
    split at failed
    next => cases failed; rfl
    next call found =>
      have steady := steady call (List.mem_of_getElem? found)
      unfold Steady at steady
      unfold evaluate at failed
      cases here : call.pc with
      | compare =>
        simp only [here] at steady failed
        obtain ⟨logger, there⟩ := steady
        simp only [there] at failed
        cases failed
      | test => simp only [here] at failed; cases failed
      | construct compared => simp only [here] at failed; cases failed
      | logged compared given => simp only [here] at failed; cases failed; rfl
      | skipped => simp only [here] at failed; cases failed; rfl
  | _ => cases failed

end

/-! ### Calls that overlap -/

/-- A call that takes the lock. -/
inductive Write (Key L : Type) where
  | setDefault (logger : Option L)
  | registerLogger (name : Key) (logger : Option L)
  deriving DecidableEq, Repr

def Write.use : Write Key L → Use Key L
  | .setDefault logger => .setDefault logger
  | .registerLogger name logger => .registerLogger name logger

/-- The evaluation of `LOGGER` reads what the call writes. `operator[]` counts as a write to all of
`loggers_`; `set_default` stores in place of a null pointer only, and `logger(name)` reads the default
for a name without an entry. -/
def conflicts (m : LoggerManger Key L) (source : Option Key) : Write Key L → Bool
  | .registerLogger _ _ => source.isSome
  | .setDefault _ =>
    m.defaultLogger.isNone && source.all fun name => (m.loggers.lookup name).isNone

/-- `evaluating` are the macros inside `default_logger()` or `logger(name)`, `writing` is the call that
has the lock. -/
structure Threads (Key L : Type) where
  program : Program Key L
  evaluating : List Nat
  writing : Option (Write Key L)
  deriving DecidableEq, Repr

inductive Action (Key L : Type) where
  | begin (source : Option Key) (level : Level)
  /-- the `i`-th macro begins to evaluate `LOGGER` -/
  | enter (i : Nat)
  /-- and has its value -/
  | leave (i : Nat)
  | lock (write : Write Key L)
  | unlock
  deriving DecidableEq, Repr

namespace Threads

def start : Threads Key L := ⟨LoggerManger.start, [], none⟩

def step (levelOf : L → Level) (s : Threads Key L) : Action Key L → Except Fault (Threads Key L)
  | .begin source level => do
    let program ← LoggerManger.step levelOf s.program (.begin source level)
    return { s with program := program }
  | .enter i =>
    match s.program.macros[i]? with
    | none => .error .disabled
    | some call =>
      if call.underWay = false ∨ i ∈ s.evaluating then .error .disabled
      -- The evaluation does not take the lock.
      else if s.writing.any (s.program.manager.conflicts call.source) then .error .dataRace
      else .ok { s with evaluating := i :: s.evaluating }
  | .leave i =>
    if i ∈ s.evaluating then do
      let program ← LoggerManger.step levelOf s.program (.eval i)
      return { s with program := program, evaluating := s.evaluating.erase i }
    else .error .disabled
  | .lock write =>
    if s.writing.isSome then .error .disabled
    else if s.evaluating.any fun i => s.program.macros[i]?.any fun call =>
        s.program.manager.conflicts call.source write then .error .dataRace
    else .ok { s with writing := some write }
  | .unlock =>
    match s.writing with
    | none => .error .disabled
    | some write => do
      let program ← LoggerManger.step levelOf s.program write.use
      return { s with program := program, writing := none }

/-- The call that an action completes. -/
def completes (s : Threads Key L) : Action Key L → Option (Use Key L)
  | .begin source level => some (.begin source level)
  | .leave i => some (.eval i)
  | .unlock => s.writing.map Write.use
  | _ => none

end Threads

section

variable {levelOf : L → Level} {s t : Threads Key L}

/-- A write that does not conflict with an evaluation leaves its value, so it does not matter when
between `enter` and `leave` the value is read. -/
theorem value_of_unconflicting {p q : Program Key L} {source : Option Key} {write : Write Key L}
    (apart : p.manager.conflicts source write = false)
    (taken : step levelOf p write.use = .ok q) : q.manager.value source = p.manager.value source := by
  cases write with
  | registerLogger name logger =>
    cases taken
    cases source with
    | none => rfl
    | some name => cases apart
  | setDefault logger =>
    cases taken
    simp only [setDefault]
    split
    next unset =>
      cases source with
      | none => simp [conflicts, unset] at apart
      | some name =>
        cases entry : p.manager.loggers.lookup name with
        | none => simp [conflicts, unset, entry] at apart
        | some registered => simp [value, LoggerManger.logger, entry]
    next => rfl

/-- What an action does to the program: nothing, or the call that it completes. -/
theorem program_step {action : Action Key L} (taken : s.step levelOf action = .ok t) :
    (s.completes action = none ∧ t.program = s.program) ∨
      ∃ use, s.completes action = some use ∧ step levelOf s.program use = .ok t.program := by
  cases action with
  | begin source level =>
    obtain ⟨program, moved, same⟩ := Checked.bind_ok_iff.mp taken
    cases same
    exact Or.inr ⟨_, rfl, moved⟩
  | enter i =>
    simp only [Threads.step] at taken
    split at taken
    next => cases taken
    next =>
      split at taken
      next => cases taken
      next =>
        split at taken
        next => cases taken
        next =>
          cases taken
          exact Or.inl ⟨rfl, rfl⟩
  | leave i =>
    simp only [Threads.step] at taken
    split at taken
    next =>
      obtain ⟨program, moved, same⟩ := Checked.bind_ok_iff.mp taken
      cases same
      exact Or.inr ⟨_, rfl, moved⟩
    next => cases taken
  | lock write =>
    simp only [Threads.step] at taken
    split at taken
    next => cases taken
    next =>
      split at taken
      next => cases taken
      next =>
        cases taken
        exact Or.inl ⟨rfl, rfl⟩
  | unlock =>
    simp only [Threads.step] at taken
    split at taken
    next => cases taken
    next write locked =>
      obtain ⟨program, moved, same⟩ := Checked.bind_ok_iff.mp taken
      cases same
      exact Or.inr ⟨write.use, by simp [Threads.completes, locked], moved⟩

/-- An action fails if it is no step, if it races, or if the call that it completes fails. -/
theorem action_fails {action : Action Key L} {fault : Fault}
    (failed : s.step levelOf action = .error fault) :
    fault = .disabled ∨ fault = .dataRace ∨
      ∃ use, step levelOf s.program use = .error fault := by
  -- An action that completes a call fails as the call does.
  have completed : ∀ {use : Use Key L} {after : Program Key L → Threads Key L},
      (step levelOf s.program use >>= fun program => .ok (after program)) = .error fault →
      step levelOf s.program use = .error fault := by
    intro use after failed
    cases moved : step levelOf s.program use with
    | error f =>
      rw [moved] at failed
      cases failed
      rfl
    | ok program =>
      rw [moved] at failed
      cases failed
  cases action with
  | begin source level => exact Or.inr (Or.inr ⟨_, completed failed⟩)
  | enter i =>
    simp only [Threads.step] at failed
    split at failed
    next =>
      cases failed
      exact Or.inl rfl
    next =>
      split at failed
      next =>
        cases failed
        exact Or.inl rfl
      next =>
        split at failed
        next =>
          cases failed
          exact Or.inr (Or.inl rfl)
        next => cases failed
  | leave i =>
    simp only [Threads.step] at failed
    split at failed
    next => exact Or.inr (Or.inr ⟨_, completed failed⟩)
    next =>
      cases failed
      exact Or.inl rfl
  | lock write =>
    simp only [Threads.step] at failed
    split at failed
    next =>
      cases failed
      exact Or.inl rfl
    next =>
      split at failed
      next =>
        cases failed
        exact Or.inr (Or.inl rfl)
      next => cases failed
  | unlock =>
    simp only [Threads.step] at failed
    split at failed
    next =>
      cases failed
      exact Or.inl rfl
    next => exact Or.inr (Or.inr ⟨_, completed failed⟩)

/-- Refinement: without a data race the program is as if the calls had come one after another, each
at its end. -/
theorem run_program {actions : List (Action Key L)}
    (ran : run (Threads.step levelOf) Threads.start actions = .ok t) :
    run (step levelOf) start ((trail (Threads.step levelOf) Threads.start actions).filterMap
      fun taken => taken.1.completes taken.2) = .ok t.program := by
  have preserved : ∀ (s : Threads Key L) action t done,
      run (step levelOf) start (done.filterMap fun taken => taken.1.completes taken.2) =
        .ok s.program →
      s.step levelOf action = .ok t →
      run (step levelOf) start ((done ++ [(s, action)]).filterMap
        fun taken => taken.1.completes taken.2) = .ok t.program := by
    intro s action t done before taken
    rw [List.filterMap_append]
    rcases program_step taken with ⟨none, same⟩ | ⟨use, completed, moved⟩
    · -- The history of calls is the same.
      simpa [none, same] using before
    · rw [run_append, before, Checked.ok_bind]
      simp [completed, run, moved]
  have initial : run (step levelOf) (start : Program Key L) ([].filterMap
      fun taken : Threads Key L × Action Key L => taken.1.completes taken.2) =
        .ok Threads.start.program := rfl
  exact run_trail preserved initial ran

/-- No call that registers a name ends while a macro for it is under way. -/
def Threads.Calm (s : Threads Key L) (action : Action Key L) : Prop :=
  ∀ use ∈ s.completes action, LoggerManger.Calm s.program use

instance (s : Threads Key L) (action : Action Key L) : Decidable (s.Calm action) :=
  inferInstanceAs (Decidable (∀ use ∈ s.completes action, _))

/-- **Consistent macros**: in every interleaving of log macros with `set_default` and
`register_logger` in which no name is registered while a macro for it is under way, nothing fails but
an evaluation that meets a call that writes what it reads; and every event is constructed with the
logger whose level was compared, which is not above the level of the macro. -/
theorem macro_consistent {actions : List (Action Key L)}
    (calm : Along (Threads.step levelOf) Threads.Calm Threads.start actions) :
    (∀ fault, run (Threads.step levelOf) Threads.start actions = .error fault →
      fault = .disabled ∨ fault = .dataRace) ∧
    ∀ s, run (Threads.step levelOf) Threads.start actions = .ok s →
      ∀ call ∈ s.program.macros, ∀ compared given, call.pc = .logged compared given →
        given = some compared ∧ (levelOf compared).toNat ≤ call.level.toNat := by
  have preserved : ∀ (s : Threads Key L) action t,
      (∀ call ∈ s.program.macros, Steady levelOf s.program.manager call) → s.Calm action →
      s.step levelOf action = .ok t →
      ∀ call ∈ t.program.macros, Steady levelOf t.program.manager call := by
    intro s action t steady calm taken
    -- A value changes only where a call is completed.
    rcases program_step taken with ⟨_, same⟩ | ⟨use, completed, moved⟩
    · rw [same]
      exact steady
    · exact steady_step steady (calm use completed) moved
  have initial : ∀ call ∈ (Threads.start : Threads Key L).program.macros,
      Steady levelOf Threads.start.program.manager call := by
    intro call member
    cases member
  constructor
  · intro fault failed
    have faults : ∀ (s : Threads Key L) action fault,
        (∀ call ∈ s.program.macros, Steady levelOf s.program.manager call) → s.Calm action →
        s.step levelOf action = .error fault → fault = .disabled ∨ fault = .dataRace := by
      intro s action fault steady _ failed
      rcases action_fails failed with disabled | race | ⟨use, failed⟩
      · exact Or.inl disabled
      · exact Or.inr race
      · exact Or.inl (steady_fails steady failed)
    exact run_fault_along preserved faults initial calm failed
  · intro s ran call member compared given here
    have steady := run_invariant_along preserved initial calm ran call member
    simpa only [Steady, here] using steady

end

/-- The default logger is set while a macro is past its null test for a name. -/
def sampleUses : List (Use Nat Level) :=
  [.registerLogger 1 (some .kWarn), .begin (some 1) .kError, .begin none .kInfo, .eval 0,
    .setDefault (some .kDebug), .eval 1, .eval 0, .setDefault none, .eval 1, .eval 0, .eval 1]

theorem sampleUses_history : ∃ p, run (step id) start sampleUses = .ok p ∧
    p.manager.defaultLogger = some .kDebug ∧ p.manager.logger 1 = some .kWarn ∧
    p.manager.logger 2 = some .kDebug := by
  have ran : run (step id) start sampleUses = .ok
      ⟨⟨some .kDebug, [(1, some .kWarn)]⟩, [⟨some 1, .kError, .logged .kWarn (some .kWarn)⟩,
        ⟨none, .kInfo, .logged .kDebug (some .kDebug)⟩]⟩ := by decide +kernel
  obtain ⟨default, names⟩ := registry_history ran
  exact ⟨_, ran, default, names 1, names 2⟩

/-- A name is registered while a macro evaluates the default logger, and the default is set while
another one evaluates the name. -/
def sampleActions : List (Action Nat Level) :=
  [.lock (.setDefault (some .kDebug)), .unlock, .begin none .kInfo, .enter 0,
    .lock (.registerLogger 1 (some .kWarn)), .leave 0, .unlock, .begin (some 1) .kError, .enter 1,
    .lock (.setDefault none), .enter 0, .leave 1, .unlock, .leave 0, .enter 1, .leave 1, .enter 0,
    .enter 1, .leave 1, .leave 0]

theorem sampleActions_consistent :
    (run (Threads.step id) Threads.start sampleActions).toOption.map
        (fun s => s.program.macros.map LogMacro.pc) =
      some [.logged .kDebug (some .kDebug), .logged .kWarn (some .kWarn)] ∧
    ∀ s, run (Threads.step id) Threads.start sampleActions = .ok s →
      ∀ call ∈ s.program.macros, ∀ compared given, call.pc = .logged compared given →
        given = some compared ∧ compared.toNat ≤ call.level.toNat :=
  ⟨by decide +kernel, (macro_consistent (by decide +kernel)).2⟩

/-- A name is registered while a macro looks up another one. -/
example : run (Threads.step id) Threads.start
    [.lock (.registerLogger 1 (some Level.kWarn)), .unlock, .begin (some 1) .kError, .enter 0,
      .lock (.registerLogger 2 (some Level.kInfo))] = .error .dataRace := by
  rfl

end LoggerManger

end Clia.Log
