import Clia.Container.FixedBuffer
import Clia.Library.LabelledRun

/-!
# The asynchronous logger

`log/async_logger.cc`. Any number of threads call `log`; one thread runs `sync_thread`. The
critical sections of `lck_` are single steps. Everything between them that another thread can
observe or disturb (the filter of `log`, the two halves of the loop condition, the wait) is a
step of its own, and so are the stages of `sync_thread` outside the lock, since the destructor
may come at any of them.

The capacity of the buffers is a parameter; the source has `kBufferSize`.
-/

namespace Clia.Log

open Container LabelledRun

inductive Level where
  | kTrace
  | kDebug
  | kInfo
  | kWarn
  | kError
  | kFatal
  deriving DecidableEq, Repr

def Level.toNat : Level → Nat
  | .kTrace => 0
  | .kDebug => 1
  | .kInfo => 2
  | .kWarn => 3
  | .kError => 4
  | .kFatal => 5

def kBufferSize : Nat := 4 * 1024 * 1024

/-- The most buffers a batch may have before all but the first two are dropped. -/
def kMaxBatch : Nat := 25

abbrev Message := List UInt8

/-- A `std::unique_ptr` to a buffer. -/
abbrev BufferPtr (Nm : Nat) := Option (FixedBuffer UInt8 Nm)

def deref {Nm : Nat} : BufferPtr Nm → Except Fault (FixedBuffer UInt8 Nm)
  | some b => .ok b
  | none => .error .nullDereference

/-- `new Buffer`. What fresh memory holds is never read. -/
def newBuffer (Nm : Nat) : BufferPtr Nm := some (FixedBuffer.new Nm fun _ => 0)

/-- The calls of the appender. A drop notice is an `append`, too; its text has the time and the
number of buffers. -/
inductive AppenderCall where
  | append (chunk : List UInt8)
  | notice (text : String) (discarded : Nat)
  | flush
  deriving DecidableEq, Repr

/-- The text of a drop notice. -/
def noticeText (time : String) (discarded : Nat) : String :=
  s!"Dropped log messages at {time}, {discarded} larger buffers\n"

/-- Where `sync_thread` is. -/
inductive Pc where
  /-- about to load `running_` in the loop condition -/
  | testRunning
  /-- `running_` was false: about to read the size of `current_buffer_` -/
  | testSize
  /-- at the head of the loop body -/
  | lock
  /-- in `cond_.wait_for` -/
  | waiting
  /-- the batch has been taken -/
  | drop
  /-- in the loop over the batch -/
  | write (k : Nat)
  | recycle
  | flush
  /-- behind the loop -/
  | exitFlush
  | done
  deriving DecidableEq, Repr

/-- `inFlight` are the messages of the `log` calls that have passed the filter and not yet
taken the lock. `accepted` records the messages in lock order. -/
structure AsyncLogger (Nm : Nat) where
  level : Level
  currentBuffer : BufferPtr Nm
  nextBuffer : BufferPtr Nm
  buffers : List (BufferPtr Nm)
  running : Bool
  inFlight : List Message
  pc : Pc
  newBuffer1 : BufferPtr Nm
  newBuffer2 : BufferPtr Nm
  writeBuffers : List (BufferPtr Nm)
  output : List AppenderCall
  accepted : List Message

inductive Label where
  /-- a thread enters `log` -/
  | log (level : Level) (message : Option Message)
  /-- the call with the `i`-th message in flight takes the lock -/
  | commit (i : Nat)
  /-- `~AsyncLogger` up to the join -/
  | stop
  /-- the next step of `sync_thread`; `time` is what the clock shows -/
  | sync (time : String)
  deriving DecidableEq, Repr

namespace AsyncLogger

variable {Nm : Nat}

/-- The constructor, and the first lines of `sync_thread`. -/
def new (Nm : Nat) (level : Level) : AsyncLogger Nm where
  level := level
  currentBuffer := newBuffer Nm
  nextBuffer := newBuffer Nm
  buffers := []
  running := true
  inFlight := []
  pc := .testRunning
  newBuffer1 := newBuffer Nm
  newBuffer2 := newBuffer Nm
  writeBuffers := []
  output := []
  accepted := []

/-! ### `log` -/

/-- The filter of `log`: the message is let through. -/
def admits (s : AsyncLogger Nm) (level : Level) (message : Option Message) : Option Message :=
  match message with
  | none => none
  | some message =>
    -- `running_` is read here, outside the lock.
    if level.toNat < s.level.toNat ∨ message.length = 0 ∨ message.length > Nm ∨
      s.running = false then none else some message

/-- The critical section of `log`. -/
def commit (s : AsyncLogger Nm) (message : Message) : Except Fault (AsyncLogger Nm) := do
  let current ← deref s.currentBuffer
  -- The test is strict: a buffer is never filled to its last byte.
  if toSizeT current.avail > message.length then
    let current ← current.append message
    return { s with currentBuffer := some current, accepted := s.accepted ++ [message] }
  else
    -- The spare buffer takes over; without one, a new buffer is allocated.
    let fresh ← deref (if s.nextBuffer.isSome then s.nextBuffer else newBuffer Nm)
    let fresh ← fresh.append message
    return { s with
      buffers := s.buffers ++ [s.currentBuffer]
      nextBuffer := none
      currentBuffer := some fresh
      accepted := s.accepted ++ [message] }

/-! ### `sync_thread` -/

/-- The rest of the critical section of `sync_thread`, behind the wait. -/
def swap (s : AsyncLogger Nm) : AsyncLogger Nm :=
  { s with
    pc := .drop
    buffers := s.writeBuffers
    writeBuffers := s.buffers ++ [s.currentBuffer]
    currentBuffer := s.newBuffer1
    newBuffer1 := none
    nextBuffer := if s.nextBuffer.isNone then s.newBuffer2 else s.nextBuffer
    newBuffer2 := if s.nextBuffer.isNone then none else s.newBuffer2 }

/-- The head of the loop body: the assertions, and the lock. -/
def enter (s : AsyncLogger Nm) : Except Fault (AsyncLogger Nm) := do
  cassert (s.newBuffer1.any (fun b => b.size == 0) = true) .spareOneEmpty
  cassert (s.newBuffer2.any (fun b => b.size == 0) = true) .spareTwoEmpty
  cassert (s.writeBuffers = []) .batchEmpty
  -- The wait is skipped if buffers are queued already.
  return if s.buffers = [] then { s with pc := .waiting } else s.swap

/-- The overflow branch. -/
def dropRest (s : AsyncLogger Nm) (time : String) : Except Fault (AsyncLogger Nm) := do
  cassert (s.writeBuffers ≠ []) .batchNonempty
  if s.writeBuffers.length > kMaxBatch then
    let discarded := s.writeBuffers.length - 2
    return { s with
      pc := .write 0
      output := s.output ++ [.notice (noticeText time discarded) discarded]
      writeBuffers := s.writeBuffers.take 2 }
  else
    return { s with pc := .write 0 }

/-- One round of the loop over the batch. -/
def writeOne (s : AsyncLogger Nm) (k : Nat) : Except Fault (AsyncLogger Nm) :=
  match s.writeBuffers[k]? with
  | none => .ok { s with pc := .recycle }
  | some ptr => do
    let buffer ← deref ptr
    -- An empty buffer makes no call.
    if buffer.size ≤ 0 then return { s with pc := .write (k + 1) }
    else
      return { s with pc := .write (k + 1), output := s.output ++ [.append buffer.contents] }

/-- Refill one of the two spare buffers from the back of the batch. -/
def refill (spare : BufferPtr Nm) (writeBuffers : List (BufferPtr Nm)) :
    Except Fault (BufferPtr Nm × List (BufferPtr Nm)) :=
  match spare with
  | some b => .ok (some b, writeBuffers)
  | none => do
    cassert (writeBuffers ≠ []) .batchNonempty
    -- `std::move(write_buffers.back())`, then `pop_back()`.
    let back ← deref (writeBuffers.getLast?.getD none)
    return (some back.reset, writeBuffers.dropLast)

def recycle (s : AsyncLogger Nm) : Except Fault (AsyncLogger Nm) := do
  let (newBuffer1, writeBuffers) ← refill s.newBuffer1 s.writeBuffers
  let (newBuffer2, _) ← refill s.newBuffer2 writeBuffers
  return { s with
    pc := .flush
    newBuffer1 := newBuffer1
    newBuffer2 := newBuffer2
    -- `write_buffers.clear()`
    writeBuffers := [] }

def syncThread (s : AsyncLogger Nm) (time : String) : Except Fault (AsyncLogger Nm) :=
  match s.pc with
  | .testRunning => .ok { s with pc := if s.running then .lock else .testSize }
  | .testSize => do
    let current ← deref s.currentBuffer
    return { s with pc := if current.size ≠ 0 then .lock else .exitFlush }
  | .lock => s.enter
  -- A wake-up, a time-out and a spurious one all go on with the swap.
  | .waiting => .ok s.swap
  | .drop => s.dropRest time
  | .write k => s.writeOne k
  | .recycle => s.recycle
  | .flush => .ok { s with pc := .testRunning, output := s.output ++ [.flush] }
  | .exitFlush => .ok { s with pc := .done, output := s.output ++ [.flush] }
  | .done => .error .disabled

def step (s : AsyncLogger Nm) : Label → Except Fault (AsyncLogger Nm)
  | .log level message =>
    match s.admits level message with
    | some message => .ok { s with inFlight := s.inFlight ++ [message] }
    | none => .ok s
  | .commit i =>
    match s.inFlight[i]? with
    | some message => { s with inFlight := s.inFlight.eraseIdx i }.commit message
    | none => .error .disabled
  | .stop => .ok { s with running := false }
  | .sync time => s.syncThread time

/-! ### What `sync_thread` leaves to the other threads -/

theorem syncThread_shared {s t : AsyncLogger Nm} {time : String}
    (taken : s.syncThread time = .ok t) : t.running = s.running ∧ t.inFlight = s.inFlight := by
  unfold syncThread at taken
  split at taken
  next => cases taken; exact ⟨rfl, rfl⟩
  next =>
    obtain ⟨_, _, taken⟩ := Checked.bind_ok_iff.mp taken
    cases taken
    exact ⟨rfl, rfl⟩
  next =>
    obtain ⟨_, _, taken⟩ := Checked.bind_ok_iff.mp taken
    obtain ⟨_, _, taken⟩ := Checked.bind_ok_iff.mp taken
    obtain ⟨_, _, taken⟩ := Checked.bind_ok_iff.mp taken
    cases taken
    split <;> exact ⟨rfl, rfl⟩
  next => cases taken; exact ⟨rfl, rfl⟩
  next =>
    obtain ⟨_, _, taken⟩ := Checked.bind_ok_iff.mp taken
    split at taken <;> cases taken <;> exact ⟨rfl, rfl⟩
  next =>
    unfold writeOne at taken
    split at taken
    next => cases taken; exact ⟨rfl, rfl⟩
    next =>
      obtain ⟨_, _, taken⟩ := Checked.bind_ok_iff.mp taken
      split at taken <;> cases taken <;> exact ⟨rfl, rfl⟩
  next =>
    obtain ⟨_, _, taken⟩ := Checked.bind_ok_iff.mp taken
    obtain ⟨_, _, taken⟩ := Checked.bind_ok_iff.mp taken
    cases taken
    exact ⟨rfl, rfl⟩
  next => cases taken; exact ⟨rfl, rfl⟩
  next => cases taken; exact ⟨rfl, rfl⟩
  next => cases taken

/-! ### Messages in flight -/

theorem commit_inFlight {s t : AsyncLogger Nm} {message : Message}
    (taken : s.commit message = .ok t) : t.inFlight = s.inFlight := by
  obtain ⟨current, _, taken⟩ := Checked.bind_ok_iff.mp taken
  split at taken
  · obtain ⟨_, _, taken⟩ := Checked.bind_ok_iff.mp taken
    cases taken
    rfl
  · obtain ⟨_, _, taken⟩ := Checked.bind_ok_iff.mp taken
    obtain ⟨_, _, taken⟩ := Checked.bind_ok_iff.mp taken
    cases taken
    rfl

/-- A message comes into flight by the filter and leaves with the lock. -/
theorem step_inFlight {s t : AsyncLogger Nm} {label : Label} (taken : s.step label = .ok t) :
    (∃ level message m, label = .log level message ∧ s.admits level message = some m ∧
        t.inFlight = s.inFlight ++ [m]) ∨
      (∃ i, t.inFlight = s.inFlight.eraseIdx i) ∨ t.inFlight = s.inFlight := by
  cases label with
  | log level message =>
    simp only [step] at taken
    split at taken
    next m admitted =>
      cases taken
      exact Or.inl ⟨level, message, m, rfl, admitted, rfl⟩
    next =>
      cases taken
      exact Or.inr (Or.inr rfl)
  | commit i =>
    simp only [step] at taken
    split at taken
    next m found => exact Or.inr (Or.inl ⟨i, commit_inFlight taken⟩)
    next => cases taken
  | stop =>
    cases taken
    exact Or.inr (Or.inr rfl)
  | sync time => exact Or.inr (Or.inr (syncThread_shared taken).2)

end AsyncLogger

end Clia.Log
