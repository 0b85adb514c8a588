import Clia.Container.CircularBuffer
import Clia.Library.LabelledRun

/-!
# The bounded blocking queue

`container/bounded_blocking_queue.h`. Any number of threads call `put` and `take`. What a call does
between locking `mutex_` and releasing it, by the end of its scope or by a wait, is one step; the
`notify_one` of `put` comes after its scope and is a step of its own. A waiting thread goes on when
it is notified, or for no reason at all.

## Main result

`BoundedBlockingQueue.bounded_fifo_iff`: `take` waits while the buffer is full, as `put` does, where
it should wait while the buffer is empty. So the queue is a bounded FIFO in exactly the runs in which
every `take` finds the buffer neither empty nor full.
-/

namespace Clia.Container

open LabelledRun

/-- Where a thread is. -/
inductive QueuePc (Tp : Type) where
  | outside
  /-- about to test `full()` in `put`, before it holds the mutex -/
  | putting (val : Tp)
  /-- in `not_full_.wait` -/
  | putWaiting (val : Tp)
  /-- `put` has released the mutex -/
  | notifying
  /-- about to test `full()` in `take` -/
  | taking
  /-- in `not_empty_.wait` -/
  | takeWaiting
  deriving DecidableEq, Repr

namespace QueuePc

variable {Tp : Type}

/-- A wait returns to the test of its loop. -/
def awake : QueuePc Tp → QueuePc Tp
  | .putWaiting val => .putting val
  | .takeWaiting => .taking
  | pc => pc

def Waits : QueuePc Tp → Prop
  | .putWaiting _ | .takeWaiting => True
  | _ => False

/-- The thread is in no call, or waits. -/
def Rests (pc : QueuePc Tp) : Prop := pc = .outside ∨ pc.Waits

end QueuePc

/-- `notEmpty` and `notFull` are the threads that wait on the two condition variables. `puts` and
`takes` record the values in the order of the mutex. -/
structure BoundedBlockingQueue (Tp T : Type) where
  buffer : CircularBuffer Tp
  notEmpty : List T
  notFull : List T
  threads : T → QueuePc Tp
  puts : List Tp
  takes : List Tp

namespace BoundedBlockingQueue

variable {Tp T : Type}

def new [Inhabited Tp] (capacity : Nat) : BoundedBlockingQueue Tp T :=
  ⟨CircularBuffer.new capacity, [], [], fun _ => .outside, [], []⟩

inductive Label (Tp T : Type) where
  | callPut (thread : T) (val : Tp)
  | callTake (thread : T)
  /-- the thread gets the mutex; `woken` is whom the `notify_one` of `take` wakes -/
  | lock (thread : T) (woken : Option T)
  /-- the `notify_one` of `put` -/
  | notify (thread : T) (woken : Option T)
  /-- a wait returns on its own -/
  | wake (thread : T)
  deriving DecidableEq, Repr

variable [DecidableEq T]

def goto (s : BoundedBlockingQueue Tp T) (thread : T) (pc : QueuePc Tp) :
    BoundedBlockingQueue Tp T :=
  { s with threads := Function.update s.threads thread pc }

def awaken (s : BoundedBlockingQueue Tp T) (thread : T) : BoundedBlockingQueue Tp T :=
  s.goto thread (s.threads thread).awake

/-- `notify_one`: one of those who wait, if any does. -/
def notifyOne (waiters : List T) (woken : Option T) : Except Fault (List T) :=
  match woken with
  | some thread => do
    Checked.require (thread ∈ waiters) Fault.disabled
    return waiters.erase thread
  | none => do
    Checked.require (waiters = []) Fault.disabled
    return []

/-- The critical section of `put`. -/
def put (s : BoundedBlockingQueue Tp T) (thread : T) (val : Tp) :
    Except Fault (BoundedBlockingQueue Tp T) :=
  if s.buffer.full then
    .ok ({ s with notFull := s.notFull ++ [thread] }.goto thread (.putWaiting val))
  else do
    let buffer ← s.buffer.pushBack val
    return { s with buffer := buffer, puts := s.puts ++ [val] }.goto thread .notifying

/-- The critical section of `take`. -/
def take (s : BoundedBlockingQueue Tp T) (thread : T) (woken : Option T) :
    Except Fault (BoundedBlockingQueue Tp T) :=
  if s.buffer.full then
    .ok ({ s with notEmpty := s.notEmpty ++ [thread] }.goto thread .takeWaiting)
  else do
    let val ← s.buffer.front
    let buffer ← s.buffer.popFront
    let notFull ← notifyOne s.notFull woken
    let s := { s with buffer := buffer, notFull := notFull, takes := s.takes ++ [val] }
    return (woken.elim s s.awaken).goto thread .outside

def step (s : BoundedBlockingQueue Tp T) :
    Label Tp T → Except Fault (BoundedBlockingQueue Tp T)
  | .callPut thread val =>
    match s.threads thread with
    | .outside => .ok (s.goto thread (.putting val))
    | _ => .error .disabled
  | .callTake thread =>
    match s.threads thread with
    | .outside => .ok (s.goto thread .taking)
    | _ => .error .disabled
  | .lock thread woken =>
    match s.threads thread with
    | .putting val => s.put thread val
    | .taking => s.take thread woken
    | _ => .error .disabled
  | .notify thread woken =>
    match s.threads thread with
    | .notifying => do
      let notEmpty ← notifyOne s.notEmpty woken
      let s := { s with notEmpty := notEmpty }
      return (woken.elim s s.awaken).goto thread .outside
    | _ => .error .disabled
  | .wake thread => do
    Checked.require (thread ∈ s.notEmpty ∨ thread ∈ s.notFull) Fault.disabled
    return { s with
      notEmpty := s.notEmpty.erase thread
      notFull := s.notFull.erase thread }.awaken thread

/-! ### What the queue is for -/

/-- Producers and consumers wait, and nobody else is in a call. -/
def Deadlocked (s : BoundedBlockingQueue Tp T) : Prop :=
  (∃ thread, s.threads thread = .takeWaiting) ∧ (∃ thread val, s.threads thread = .putWaiting val) ∧
    ∀ thread, (s.threads thread).Rests

/-- A step of a bounded FIFO: no assertion of the buffer fails, the values taken are the first ones
put, who waits has a reason to, and not all wait. -/
def BoundedFifo (s : BoundedBlockingQueue Tp T) (l : Label Tp T) : Prop :=
  match s.step l with
  | .ok t => t.takes <+: t.puts ∧ ¬t.Deadlocked ∧
    (∀ thread, s.threads thread = .taking → t.threads thread = .takeWaiting →
      s.buffer.empty = true) ∧
    ∀ thread val, s.threads thread = .putting val → t.threads thread = .putWaiting val →
      s.buffer.full = true
  | .error f => f = .disabled

/-- A `take` finds the buffer neither empty nor full. -/
def TakesBetween (s : BoundedBlockingQueue Tp T) : Label Tp T → Prop
  | .lock thread _ => s.threads thread = .taking →
    s.buffer.empty = false ∧ s.buffer.full = false
  | _ => True

instance [DecidableEq Tp] (s : BoundedBlockingQueue Tp T) (l : Label Tp T) :
    Decidable (s.TakesBetween l) := by
  unfold TakesBetween
  split <;> infer_instance

/-! ### Threads -/

/-- Whoever waits in `t` has waited in `s`. -/
def Calm (s t : BoundedBlockingQueue Tp T) : Prop :=
  ∀ thread, (t.threads thread).Waits → t.threads thread = s.threads thread

variable {s t u : BoundedBlockingQueue Tp T} {thread : T} {pc : QueuePc Tp}

omit [DecidableEq T] in
theorem Calm.trans (first : Calm s t) (second : Calm t u) : Calm s u := by
  intro thread waits
  have same := second thread waits
  rw [same] at waits
  exact same.trans (first thread waits)

theorem calm_goto (busy : ¬pc.Waits) : Calm s (s.goto thread pc) := by
  intro other waits
  by_cases own : other = thread
  · subst own
    simp only [goto, Function.update_self] at waits
    exact absurd waits busy
  · exact Function.update_of_ne own _ _

theorem calm_awaken (s : BoundedBlockingQueue Tp T) (thread : T) : Calm s (s.awaken thread) := by
  apply calm_goto
  cases s.threads thread <;> simp [QueuePc.awake, QueuePc.Waits]

omit [DecidableEq T] in
theorem calm_of_threads (same : t.threads = s.threads) : Calm s t := by
  intro thread _
  rw [same]

theorem calm_woken (s : BoundedBlockingQueue Tp T) (woken : Option T) :
    Calm s (woken.elim s s.awaken) := by
  cases woken with
  | none => exact calm_of_threads rfl
  | some other => exact calm_awaken s other

/-! ### The invariant -/

/-- As long as every `take` finds the buffer between empty and full, none of them waits. -/
structure Inv (s : BoundedBlockingQueue Tp T) : Prop where
  ring : s.buffer.Inv
  content : s.puts = s.takes ++ s.buffer.contents
  served : ∀ thread, s.threads thread ≠ .takeWaiting

omit [DecidableEq T] in
theorem Inv.calm (inv : Inv s) (calm : Calm s t) (ring : t.buffer.Inv)
    (content : t.puts = t.takes ++ t.buffer.contents) : Inv t := by
  refine ⟨ring, content, ?_⟩
  intro thread waiting
  have same := calm thread (by simp [waiting, QueuePc.Waits])
  exact inv.served thread (same.symm.trans waiting)

/-! ### Steps -/

/-- A step that is taken, keeps the invariant, and makes nobody wait but a `put` on a full buffer; or
no step at all. -/
def Proceeds (s : BoundedBlockingQueue Tp T) (result : Except Fault (BoundedBlockingQueue Tp T)) :
    Prop :=
  (∃ t, result = .ok t ∧ Inv t ∧ (s.buffer.full = true ∨ Calm s t)) ∨ result = .error .disabled

omit [DecidableEq T] in
theorem Proceeds.calm (inv : Inv s) (calm : Calm s t) (buffer : t.buffer = s.buffer)
    (puts : t.puts = s.puts) (takes : t.takes = s.takes) : Proceeds s (.ok t) := by
  refine .inl ⟨t, rfl, inv.calm calm ?_ ?_, .inr calm⟩
  · rw [buffer]
    exact inv.ring
  · rw [buffer, puts, takes]
    exact inv.content

theorem woken_shared (s : BoundedBlockingQueue Tp T) (woken : Option T) :
    (woken.elim s s.awaken).buffer = s.buffer ∧ (woken.elim s s.awaken).puts = s.puts ∧
      (woken.elim s s.awaken).takes = s.takes := by
  cases woken <;> exact ⟨rfl, rfl, rfl⟩

theorem notifyOne_cases (waiters : List T) (woken : Option T) :
    (∃ left, notifyOne waiters woken = .ok left) ∨
      notifyOne waiters woken = .error .disabled := by
  cases woken with
  | none =>
    by_cases nobody : waiters = []
    · exact .inl ⟨[], by simp only [notifyOne, Checked.require_pos _ nobody]; rfl⟩
    · exact .inr (by simp only [notifyOne, Checked.require_neg _ nobody]; rfl)
  | some thread =>
    by_cases waits : thread ∈ waiters
    · exact .inl ⟨waiters.erase thread, by simp only [notifyOne, Checked.require_pos _ waits]; rfl⟩
    · exact .inr (by simp only [notifyOne, Checked.require_neg _ waits]; rfl)

theorem put_proceeds (inv : Inv s) (thread : T) (val : Tp) : Proceeds s (s.put thread val) := by
  by_cases full : s.buffer.full = true
  · rw [put, if_pos full]
    refine .inl ⟨_, rfl, ⟨inv.ring, inv.content, ?_⟩, .inl full⟩
    intro other waiting
    by_cases own : other = thread
    · subst own
      simp [goto] at waiting
    · simp only [goto, Function.update_of_ne own] at waiting
      exact inv.served other waiting
  · rw [Bool.not_eq_true] at full
    obtain ⟨after, pushed, ring, contents⟩ := CircularBuffer.pushBack_spec inv.ring full val
    simp only [put, full, Bool.false_eq_true, if_false, pushed, Checked.ok_bind,
      Checked.pure_eq_ok]
    have calm : Calm s ({ s with buffer := after, puts := s.puts ++ [val] }.goto thread
        .notifying) := calm_goto (s := s) (by simp [QueuePc.Waits])
    refine .inl ⟨_, rfl, inv.calm calm ring ?_, .inr calm⟩
    simp only [goto, contents, inv.content, List.append_assoc]

theorem take_proceeds (inv : Inv s) (filled : s.buffer.empty = false)
    (room : s.buffer.full = false) (thread : T) (woken : Option T) :
    Proceeds s (s.take thread woken) := by
  obtain ⟨val, after, first, popped, ring, contents⟩ :=
    CircularBuffer.popFront_spec inv.ring filled
  simp only [take, room, Bool.false_eq_true, if_false, first, popped, Checked.ok_bind,
    Checked.pure_eq_ok]
  rcases notifyOne_cases s.notFull woken with ⟨left, notified⟩ | nobody
  · rw [notified, Checked.ok_bind]
    generalize taken_eq : { s with
      buffer := after, notFull := left, takes := s.takes ++ [val] } = taken
    have calm : Calm s ((woken.elim taken taken.awaken).goto thread .outside) := by
      have same : Calm s taken := calm_of_threads (by rw [← taken_eq])
      exact (same.trans (calm_woken taken woken)).trans (calm_goto (by simp [QueuePc.Waits]))
    obtain ⟨buffer, puts, takes⟩ := woken_shared taken woken
    have moved : taken.buffer = after ∧ taken.puts = s.puts ∧ taken.takes = s.takes ++ [val] := by
      rw [← taken_eq]
      exact ⟨rfl, rfl, rfl⟩
    obtain ⟨buffer', puts', takes'⟩ := moved
    refine .inl ⟨_, rfl, inv.calm calm ?_ ?_, .inr calm⟩
    · simp only [goto, buffer, buffer']
      exact ring
    · simp only [goto, buffer, puts, takes, buffer', puts', takes', inv.content, contents,
        List.append_assoc, List.singleton_append]
  · rw [nobody]
    exact .inr rfl

theorem step_proceeds (inv : Inv s) {l : Label Tp T} (between : s.TakesBetween l) :
    Proceeds s (s.step l) := by
  cases l with
  | callPut thread val =>
    simp only [step]
    split
    · exact Proceeds.calm inv (calm_goto (by simp [QueuePc.Waits])) rfl rfl rfl
    · exact .inr rfl
  | callTake thread =>
    simp only [step]
    split
    · exact Proceeds.calm inv (calm_goto (by simp [QueuePc.Waits])) rfl rfl rfl
    · exact .inr rfl
  | lock thread woken =>
    simp only [step]
    split
    next val _ => exact put_proceeds inv thread val
    next here =>
      obtain ⟨filled, room⟩ := between here
      exact take_proceeds inv filled room thread woken
    next => exact .inr rfl
  | notify thread woken =>
    simp only [step]
    split
    · rcases notifyOne_cases s.notEmpty woken with ⟨left, notified⟩ | nobody
      · rw [notified, Checked.ok_bind]
        generalize told_eq : { s with notEmpty := left } = told
        have same : Calm s told := calm_of_threads (by rw [← told_eq])
        have busy : ¬(QueuePc.outside : QueuePc Tp).Waits := by simp [QueuePc.Waits]
        have calm : Calm s ((woken.elim told told.awaken).goto thread .outside) :=
          (same.trans (calm_woken told woken)).trans (calm_goto busy)
        obtain ⟨buffer, puts, takes⟩ := woken_shared told woken
        apply Proceeds.calm inv calm
        · exact buffer.trans (by rw [← told_eq])
        · exact puts.trans (by rw [← told_eq])
        · exact takes.trans (by rw [← told_eq])
      · rw [nobody]
        exact .inr rfl
    · exact .inr rfl
  | wake thread =>
    by_cases waits : thread ∈ s.notEmpty ∨ thread ∈ s.notFull
    · simp only [step, Checked.require_pos _ waits, Checked.ok_bind, Checked.pure_eq_ok]
      have same : Calm s { s with
          notEmpty := s.notEmpty.erase thread
          notFull := s.notFull.erase thread } := calm_of_threads rfl
      exact Proceeds.calm inv (same.trans (calm_awaken _ thread)) rfl rfl rfl
    · simp only [step, Checked.require_neg _ waits]
      exact .inr rfl

/-! ### Runs -/

theorem Inv.boundedFifo (inv : Inv s) {l : Label Tp T} (between : s.TakesBetween l) :
    s.BoundedFifo l := by
  unfold BoundedFifo
  rcases step_proceeds inv between with ⟨t, taken, inv', waits⟩ | disabled
  · rw [taken]
    refine ⟨⟨t.buffer.contents, inv'.content.symm⟩, ?_, ?_, ?_⟩
    · rintro ⟨⟨thread, waiting⟩, _⟩
      exact inv'.served thread waiting
    · intro thread _ waiting
      exact absurd waiting (inv'.served thread)
    · intro thread val here waiting
      rcases waits with full | calm
      · exact full
      · -- Whoever waits after a calm step has waited before it.
        have same := calm thread (by simp [waiting, QueuePc.Waits])
        rw [waiting, here] at same
        cases same
  · rw [disabled]

/-- A `take` of an empty buffer fails an assertion, a `take` of a full one waits. -/
theorem Inv.takesBetween (inv : Inv s) {l : Label Tp T} (fifo : s.BoundedFifo l) :
    s.TakesBetween l := by
  cases l with
  | lock thread woken =>
    intro here
    cases empty : s.buffer.empty with
    | true =>
      have room := inv.ring.not_full_of_empty empty
      simp [BoundedFifo, step, here, take, room, CircularBuffer.front_empty empty] at fifo
    | false =>
      cases full : s.buffer.full with
      | false => exact ⟨rfl, rfl⟩
      | true =>
        simp only [BoundedFifo, step, here, take, full, if_true] at fifo
        have waits := fifo.2.2.1 thread here (by simp [goto])
        simp [empty] at waits
  | _ => trivial

/-- **Bounded FIFO**: the queue keeps its order and its bounds, and nobody waits without a reason, in
exactly the runs in which no `take` finds the buffer empty or full. -/
theorem bounded_fifo_iff [Inhabited Tp] {capacity : Nat} (positive : 0 < capacity)
    (labels : List (Label Tp T)) :
    Along step BoundedFifo (new capacity : BoundedBlockingQueue Tp T) labels ↔
      Along step TakesBetween (new capacity : BoundedBlockingQueue Tp T) labels := by
  have initial : Inv (new capacity : BoundedBlockingQueue Tp T) :=
    ⟨CircularBuffer.inv_new positive, by simp [new], by simp [new]⟩
  have agree : ∀ (s : BoundedBlockingQueue Tp T) (l : Label Tp T), Inv s →
      (s.BoundedFifo l ↔ s.TakesBetween l) := by
    intro s l inv
    constructor
    · exact inv.takesBetween
    · exact inv.boundedFifo
  refine along_iff Inv ?_ agree initial labels
  intro s l t inv fifo taken
  rcases step_proceeds inv ((agree s l inv).mp fifo) with ⟨u, taken', inv', _⟩ | disabled
  · rw [taken] at taken'
    cases taken'
    exact inv'
  · rw [taken] at disabled
    cases disabled

/-- Two values pass through a buffer of three cells, which is never empty at a `take`. -/
def threeCells : List (Label Nat Nat) :=
  [.callPut 0 5, .lock 0 none, .notify 0 none, .callPut 0 6, .lock 0 none, .callTake 1,
    .lock 1 none, .notify 0 none]

theorem threeCells_fifo : Along step BoundedFifo (new 3) threeCells := by
  apply (bounded_fifo_iff (by decide) threeCells).mpr
  decide

/-- One cell is filled, and the next `put` waits; so does the `take` that should make room. -/
def oneCell : List (Label Nat Nat) :=
  [.callPut 0 5, .lock 0 none, .notify 0 none, .callPut 0 6, .lock 0 none, .callTake 1,
    .lock 1 none]

/-- A `take` before the first `put` fails the assertion of `front`; after it, a `take` and a `put`
wait for each other. -/
theorem take_waits_while_full :
    ¬Along step BoundedFifo (new 1 : BoundedBlockingQueue Nat Nat) [.callTake 1, .lock 1 none] ∧
      ∃ s, run step (new 1) oneCell = .ok s ∧ s.Deadlocked := by
  constructor
  · intro fifo
    have called : step (new 1 : BoundedBlockingQueue Nat Nat) (.callTake 1) = .ok _ := rfl
    have late := (along_cons_ok called).mp fifo
    have fails := late.2.1
    simp [BoundedFifo, step, take, new, goto, CircularBuffer.new, CircularBuffer.full,
      CircularBuffer.capacity, CircularBuffer.front, CircularBuffer.empty, cassert,
      Checked.require] at fails
  · refine ⟨_, rfl, ⟨1, rfl⟩, ⟨0, 6, rfl⟩, ?_⟩
    intro thread
    rcases thread with _ | _ | other
    · exact .inr trivial
    · exact .inr trivial
    · exact .inl rfl

end BoundedBlockingQueue

end Clia.Container
