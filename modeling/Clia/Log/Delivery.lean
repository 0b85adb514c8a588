import Clia.Log.AsyncLogger
import Mathlib.Data.List.Forall2
import Mathlib.Data.List.Flatten

/-!
# What the logger delivers

The abstract logger keeps messages, not bytes: buffers are lists of messages, a batch is a list
of buffers, and what a batch makes the appender do is a function of the batch. `Represents` ties
the pointers of the model to such a ledger, and every step of the threads is a step of the
ledger: a message enters the current buffer, a full buffer is queued, the queue becomes a batch,
the batch is written.
-/

namespace Clia.Log

open Container LabelledRun

/-! ### The ledger -/

/-- A batch as `sync_thread` takes it, with the time it is written at. -/
structure Batch where
  buffers : List (List Message)
  time : String
  deriving DecidableEq, Repr

namespace Batch

def messages (b : Batch) : List Message := b.buffers.flatten

def overflows (b : Batch) : Bool := decide (b.buffers.length > kMaxBatch)

/-- The buffers that are written: of an overflowing batch, the first two. -/
def kept (b : Batch) : List (List Message) := if b.overflows then b.buffers.take 2 else b.buffers

/-- An overflowing batch is announced once, with the number of buffers that are discarded. -/
def notices (b : Batch) : List AppenderCall :=
  if b.overflows then
    [.notice (noticeText b.time (b.buffers.length - 2)) (b.buffers.length - 2)]
  else []

end Batch

/-- One `append` for each buffer that holds messages, with all of them in a row. -/
def chunks (buffers : List (List Message)) : List AppenderCall :=
  (buffers.filter (· ≠ [])).map fun messages => .append messages.flatten

/-- All calls of the appender for a batch. -/
def Batch.emission (b : Batch) : List AppenderCall := b.notices ++ chunks b.kept ++ [.flush]

/-- The chunks among the calls of the appender. -/
def chunksOf (output : List AppenderCall) : List (List UInt8) :=
  output.filterMap fun
    | .append chunk => some chunk
    | _ => none

/-- `written` are the batches done with, `batch` the one that `sync_thread` has taken. -/
structure Ledger where
  written : List Batch
  batch : Batch
  queued : List (List Message)
  current : List Message

def Ledger.messages (l : Ledger) : List Message :=
  l.written.flatMap Batch.messages ++ l.batch.messages ++ l.queued.flatten ++ l.current

/-- The queued buffers and the current one are the next batch. -/
def Ledger.swap (l : Ledger) : Ledger := ⟨l.written, ⟨l.queued ++ [l.current], ""⟩, [], []⟩

/-! ### Buffers of messages -/

/-- The pointer is to a buffer with exactly these messages, one behind the other. -/
structure Holds {Nm : Nat} (ptr : BufferPtr Nm) (messages : List Message) : Prop where
  contents : ∃ b, ptr = some b ∧ b.contents = messages.flatten ∧ b.cur < Nm
  nonempty : ∀ m ∈ messages, m ≠ []

section

variable {Nm : Nat} {ptr : BufferPtr Nm} {messages : List Message}

theorem holds_newBuffer (positive : 0 < Nm) : Holds (newBuffer Nm) [] :=
  ⟨⟨_, rfl, rfl, positive⟩, by simp⟩

theorem Holds.isSome (holds : Holds ptr messages) : ptr ≠ none := by
  obtain ⟨b, rfl, _⟩ := holds.contents
  simp

theorem Holds.deref {b : FixedBuffer UInt8 Nm} (holds : Holds (some b) messages) :
    b.contents = messages.flatten ∧ b.cur < Nm := by
  obtain ⟨b', eq, contents, inside⟩ := holds.contents
  cases eq
  exact ⟨contents, inside⟩

theorem Holds.size_eq_zero {b : FixedBuffer UInt8 Nm} (holds : Holds (some b) messages) :
    b.size = 0 ↔ messages = [] := by
  obtain ⟨contents, _⟩ := holds.deref
  have length : b.cur = messages.flatten.length := by
    rw [← contents, FixedBuffer.contents_length]
  have size : b.size = 0 ↔ messages.flatten = [] := by
    rw [← List.length_eq_zero_iff, ← length]
    exact Int.natCast_eq_zero
  rw [size, List.flatten_eq_nil_iff]
  constructor
  · -- A buffer without bytes has no message, since messages are not empty.
    intro empty
    by_contra some_left
    obtain ⟨m, rest, rfl⟩ := List.exists_cons_of_ne_nil some_left
    exact holds.nonempty m (by simp) (empty m (by simp))
  · rintro rfl
    simp

theorem Holds.reset {b : FixedBuffer UInt8 Nm} (holds : Holds (some b) messages) :
    Holds (some b.reset) [] :=
  ⟨⟨_, rfl, rfl, Nat.lt_of_le_of_lt (Nat.zero_le _) holds.deref.2⟩, by simp⟩

/-- An `append` that returns had room. -/
theorem Holds.append {b b' : FixedBuffer UInt8 Nm} {m : Message}
    (holds : Holds (some b) messages) (nonempty : m ≠ []) (ok : b.append m = .ok b') :
    Holds (some b') (messages ++ [m]) := by
  obtain ⟨contents, inside⟩ := holds.deref
  -- Otherwise the first assertion of `append` had failed.
  have room : b.cur + m.length < Nm := by
    by_contra full
    rw [FixedBuffer.append_full b m (Nat.le_of_lt inside) (by omega)] at ok
    cases ok
  rw [FixedBuffer.append_ok b m room] at ok
  cases ok
  refine ⟨⟨_, rfl, ?_, by simpa using room⟩, ?_⟩
  · rw [FixedBuffer.contents_pushed, contents]
    simp
  · intro m' member
    rcases List.mem_append.mp member with member | member
    · exact holds.nonempty m' member
    · simp only [List.mem_singleton] at member
      exact member ▸ nonempty

end

/-! ### Representation -/

variable {Nm : Nat}

/-- Between two batches `sync_thread` owns two empty buffers and nothing else. -/
structure Idle (spare1 spare2 : BufferPtr Nm) (batch : List (BufferPtr Nm)) : Prop where
  one : Holds spare1 []
  two : Holds spare2 []
  noBatch : batch = []

/-- While it writes, it has given away one or both of them for the buffers of the batch. -/
structure Writing (spare1 spare2 : BufferPtr Nm) (batch : List (BufferPtr Nm))
    (buffers : List (List Message)) : Prop where
  one : spare1 = none
  two : Holds spare2 [] ∨ spare2 = none ∧ 2 ≤ buffers.length
  holds : List.Forall₂ Holds batch buffers
  nonempty : buffers ≠ []

/-- What `sync_thread` holds and has written, by its position. -/
def SyncInv (s : AsyncLogger Nm) (l : Ledger) : Prop :=
  match s.pc with
  | .testRunning | .testSize | .lock | .waiting | .exitFlush =>
    Idle s.newBuffer1 s.newBuffer2 s.writeBuffers ∧ l.batch.buffers = [] ∧
      s.output = l.written.flatMap Batch.emission
  | .drop =>
    Writing s.newBuffer1 s.newBuffer2 s.writeBuffers l.batch.buffers ∧
      s.output = l.written.flatMap Batch.emission
  | .write k =>
    Writing s.newBuffer1 s.newBuffer2 s.writeBuffers l.batch.kept ∧ k ≤ l.batch.kept.length ∧
      s.output = l.written.flatMap Batch.emission ++ l.batch.notices ++
        chunks (l.batch.kept.take k)
  | .recycle =>
    Writing s.newBuffer1 s.newBuffer2 s.writeBuffers l.batch.kept ∧
      s.output = l.written.flatMap Batch.emission ++ l.batch.notices ++ chunks l.batch.kept
  | .flush =>
    Idle s.newBuffer1 s.newBuffer2 s.writeBuffers ∧
      s.output = l.written.flatMap Batch.emission ++ l.batch.notices ++ chunks l.batch.kept
  | .done =>
    Idle s.newBuffer1 s.newBuffer2 s.writeBuffers ∧ l.batch.buffers = [] ∧
      s.output = l.written.flatMap Batch.emission ++ [.flush]

/-- The state is the one of the ledger. That queued buffers come with a message in the current
one is what makes the loop condition of `sync_thread` enough. -/
structure Represents (s : AsyncLogger Nm) (l : Ledger) : Prop where
  current : Holds s.currentBuffer l.current
  next : s.nextBuffer = none ∨ Holds s.nextBuffer []
  queued : List.Forall₂ Holds s.buffers l.queued
  nextTaken : s.nextBuffer = none → l.queued ≠ []
  following : l.queued ≠ [] → l.current ≠ []
  inFlight : ∀ m ∈ s.inFlight, m ≠ []
  accepted : s.accepted = l.messages
  sync : SyncInv s l

theorem represents_new (positive : 0 < Nm) (level : Level) :
    Represents (AsyncLogger.new Nm level) ⟨[], ⟨[], ""⟩, [], []⟩ where
  current := holds_newBuffer positive
  next := .inr (holds_newBuffer positive)
  queued := .nil
  nextTaken := nofun
  following := absurd rfl
  inFlight := nofun
  accepted := rfl
  sync := ⟨⟨holds_newBuffer positive, holds_newBuffer positive, rfl⟩, rfl, rfl⟩

/-! ### The batches of a run -/

/-- `sync_thread` has a batch: from the swap up to the flush. -/
def Pc.hasBatch : Pc → Bool
  | .drop => true
  | .write _ => true
  | .recycle => true
  | .flush => true
  | _ => false

/-- The batch that a step of `sync_thread` swaps out. -/
def AsyncLogger.swapped (s : AsyncLogger Nm) (label : Label) : Option (List (BufferPtr Nm)) :=
  match s.step label with
  | .ok t => if s.pc ≠ .drop ∧ t.pc = .drop then some t.writeBuffers else none
  | .error _ => none

/-- What the clock shows when `sync_thread` has a batch to look at. -/
def AsyncLogger.clocked (s : AsyncLogger Nm) : Label → Option String
  | .sync time => if s.pc = .drop then some time else none
  | _ => none

/-- The batches that these steps have swapped out. -/
def swaps (steps : List (AsyncLogger Nm × Label)) : List (List (BufferPtr Nm)) :=
  steps.filterMap fun taken => taken.1.swapped taken.2

/-- The clock readings for them. -/
def readings (steps : List (AsyncLogger Nm × Label)) : List String :=
  steps.filterMap fun taken => taken.1.clocked taken.2

/-- The buffers of a batch that have been written when `sync_thread` is at `pc`. -/
def Batch.begun (b : Batch) : Pc → List (List Message)
  | .write k => b.kept.take k
  | .recycle => b.kept
  | .flush => b.kept
  | _ => []

/-- The calls made for it up to there. -/
def Batch.calls (b : Batch) (pc : Pc) : List AppenderCall :=
  match pc with
  | .write _ => b.notices ++ chunks (b.begun pc)
  | .recycle => b.notices ++ chunks (b.begun pc)
  | .flush => b.notices ++ chunks (b.begun pc)
  | _ => []

/-- The books of a run that has taken the steps `steps` to `s`. Every batch that was swapped out
is `written` or `atHand`, and holds what its buffers held at the swap; `queued` and `current` are
what the shared buffers hold now. Each accepted message is in one of these places, and the appender
was called for the batches and for nothing else. -/
structure Accounts (steps : List (AsyncLogger Nm × Label)) (s : AsyncLogger Nm)
    (written : List Batch) (atHand : Option Batch) (queued : List (List Message))
    (current : List Message) : Prop where
  batches : List.Forall₂ (List.Forall₂ Holds) (swaps steps)
    ((written ++ atHand.toList).map Batch.buffers)
  times : readings steps =
    (written ++ if s.pc = .drop then [] else atHand.toList).map Batch.time
  hasBatch : atHand.isSome = s.pc.hasBatch
  buffers : List.Forall₂ Holds s.buffers queued
  currentBuffer : Holds s.currentBuffer current
  accepted : s.accepted =
    (written ++ atHand.toList).flatMap Batch.messages ++ queued.flatten ++ current
  output : s.output = written.flatMap Batch.emission ++
    atHand.toList.flatMap (fun b => b.calls s.pc) ++ if s.pc = .done then [.flush] else []

/-- How a step moves the ledger, apart from the messages that come in: it leaves the batches as
they are, or swaps the next one out, or reads the clock for it, or is done with it. -/
inductive LedgerStep (s t : AsyncLogger Nm) : Label → Ledger → Ledger → Prop where
  | kept {label : Label} {l l' : Ledger} (written : l'.written = l.written)
      (batch : l'.batch = l.batch) (has : t.pc.hasBatch = s.pc.hasBatch)
      (drop : t.pc = .drop ↔ s.pc = .drop) (unclocked : s.clocked label = none) :
      LedgerStep s t label l l'
  | swapped {time : String} {l : Ledger} (none : s.pc.hasBatch = false) (here : t.pc = .drop) :
      LedgerStep s t (.sync time) l l.swap
  | clocked {time : String} {l : Ledger} (here : s.pc = .drop) (next : t.pc = .write 0) :
      LedgerStep s t (.sync time) l { l with batch := { l.batch with time := time } }
  | flushed {time : String} {l : Ledger} (here : s.pc = .flush) (next : t.pc = .testRunning) :
      LedgerStep s t (.sync time) l ⟨l.written ++ [l.batch], ⟨[], ""⟩, l.queued, l.current⟩

theorem LedgerStep.stays {s t : AsyncLogger Nm} {time : String} {l : Ledger}
    (has : t.pc.hasBatch = s.pc.hasBatch) (before : s.pc ≠ .drop) (after : t.pc ≠ .drop) :
    LedgerStep s t (.sync time) l l :=
  .kept rfl rfl has (iff_of_false after before) (if_neg before)

/-! ### The steps of `log` -/

section

variable {s t : AsyncLogger Nm} {l : Ledger}

private theorem admits_nonempty {level : Level} {message : Option Message} {m : Message}
    (admitted : s.admits level message = some m) : m ≠ [] := by
  unfold AsyncLogger.admits at admitted
  split at admitted
  next => cases admitted
  next message =>
    split at admitted
    next => cases admitted
    next passed =>
      cases admitted
      rintro rfl
      exact passed (by simp)

private theorem log_represents {level : Level} {message : Option Message}
    (rep : Represents s l) (taken : s.step (.log level message) = .ok t) :
    Represents t l ∧ LedgerStep s t (.log level message) l l := by
  simp only [AsyncLogger.step] at taken
  split at taken
  next m admitted =>
    cases taken
    refine ⟨{ rep with inFlight := ?_, sync := rep.sync }, .kept rfl rfl rfl Iff.rfl rfl⟩
    intro m' member
    rcases List.mem_append.mp member with member | member
    · exact rep.inFlight m' member
    · simp only [List.mem_singleton] at member
      exact member ▸ admits_nonempty admitted
  next =>
    cases taken
    exact ⟨rep, .kept rfl rfl rfl Iff.rfl rfl⟩

theorem deref_ok {ptr : BufferPtr Nm} {b : FixedBuffer UInt8 Nm} (there : deref ptr = .ok b) :
    ptr = some b := by
  cases ptr with
  | none => cases there
  | some b' => exact congrArg some (Except.ok.inj there)

/-- The buffer that takes over from a full one is empty. -/
theorem Represents.fresh_empty (rep : Represents s l) :
    Holds (if s.nextBuffer.isSome then s.nextBuffer else newBuffer Nm) [] := by
  obtain ⟨_, _, _, inside⟩ := rep.current.contents
  cases next_eq : s.nextBuffer with
  | none => exact holds_newBuffer (Nat.lt_of_le_of_lt (Nat.zero_le _) inside)
  | some b =>
    rcases rep.next with none | held
    · simp [next_eq] at none
    · simpa [next_eq] using next_eq ▸ held

private theorem commit_represents {i : Nat} (rep : Represents s l)
    (taken : s.step (.commit i) = .ok t) :
    ∃ l', Represents t l' ∧ LedgerStep s t (.commit i) l l' := by
  simp only [AsyncLogger.step] at taken
  split at taken
  next m found =>
    have nonempty : m ≠ [] := rep.inFlight m (List.mem_of_getElem? found)
    have fewer : ∀ m' ∈ s.inFlight.eraseIdx i, m' ≠ [] := fun m' member =>
      rep.inFlight m' (List.mem_of_mem_eraseIdx member)
    obtain ⟨current, current_eq, taken⟩ := Checked.bind_ok_iff.mp taken
    have holds : Holds (some current) l.current := deref_ok current_eq ▸ rep.current
    split at taken
    · -- The message fits into the current buffer.
      obtain ⟨after, appended, taken⟩ := Checked.bind_ok_iff.mp taken
      cases taken
      refine ⟨{ l with current := l.current ++ [m] }, ⟨holds.append nonempty appended, rep.next,
        rep.queued, rep.nextTaken, by simp, fewer, ?_, rep.sync⟩, .kept rfl rfl rfl Iff.rfl rfl⟩
      rw [rep.accepted]
      simp [Ledger.messages]
    · -- The current buffer is queued, and the next one or a new one takes its place.
      obtain ⟨fresh, fresh_eq, taken⟩ := Checked.bind_ok_iff.mp taken
      obtain ⟨after, appended, taken⟩ := Checked.bind_ok_iff.mp taken
      cases taken
      have empty : Holds (some fresh) [] := deref_ok fresh_eq ▸ rep.fresh_empty
      refine ⟨{ l with queued := l.queued ++ [l.current], current := [m] },
        ⟨empty.append nonempty appended, .inl rfl, ?_, by simp, by simp, fewer, ?_, rep.sync⟩,
        .kept rfl rfl rfl Iff.rfl rfl⟩
      · exact List.rel_append rep.queued (.cons rep.current .nil)
      · rw [rep.accepted]
        simp [Ledger.messages]
  next => cases taken

/-! ### The steps of `sync_thread` -/

/-- Taking the batch: the queued buffers and the current one, in this order. -/
private theorem swap_represents (rep : Represents s l)
    (idle : Idle s.newBuffer1 s.newBuffer2 s.writeBuffers) (noBatch : l.batch.buffers = [])
    (output : s.output = l.written.flatMap Batch.emission) : Represents s.swap l.swap := by
  refine ⟨idle.one, ?_, ?_, ?_, absurd rfl, rep.inFlight, ?_, ⟨rfl, ?_, ?_, by simp [Ledger.swap]⟩,
    output⟩
  · -- `next_buffer_` after the swap: the old one, or the second spare.
    cases next_eq : s.nextBuffer with
    | none => exact .inr (by simpa [AsyncLogger.swap, next_eq] using idle.two)
    | some b =>
      rcases rep.next with none | held
      · simp [next_eq] at none
      · exact .inr (by simpa [AsyncLogger.swap, next_eq] using next_eq ▸ held)
  · -- `buffers_` is swapped with the empty batch.
    rw [AsyncLogger.swap, idle.noBatch]
    exact .nil
  · -- The spare buffer fills the gap if there is one.
    intro none
    cases next_eq : s.nextBuffer with
    | none =>
      simp only [AsyncLogger.swap, next_eq, Option.isNone_none, if_true] at none
      exact absurd none idle.two.isSome
    | some b => simp [AsyncLogger.swap, next_eq] at none
  · -- No message changes its place in the order.
    rw [AsyncLogger.swap, rep.accepted]
    simp [Ledger.messages, Ledger.swap, Batch.messages, noBatch]
  · cases next_eq : s.nextBuffer with
    | none =>
      have queued := List.length_pos_iff.mpr (rep.nextTaken next_eq)
      exact .inr ⟨by simp [AsyncLogger.swap, next_eq], by simp [Ledger.swap]; omega⟩
    | some b => exact .inl (by simpa [AsyncLogger.swap, next_eq] using idle.two)
  · exact List.rel_append rep.queued (.cons rep.current .nil)

private theorem Holds.any_empty {ptr : BufferPtr Nm} (empty : Holds ptr []) :
    ptr.any (fun b => b.size == 0) = true := by
  obtain ⟨b, rfl, _⟩ := empty.contents
  simpa using empty.size_eq_zero.mpr rfl

private theorem enter_spec (time : String) (rep : Represents s l) (here : s.pc = .lock) :
    ∃ t l', s.enter = .ok t ∧ Represents t l' ∧ LedgerStep s t (.sync time) l l' := by
  have sync := rep.sync
  simp only [SyncInv, here] at sync
  obtain ⟨idle, noBatch, output⟩ := sync
  simp only [AsyncLogger.enter, cassert_pos _ idle.one.any_empty, cassert_pos _ idle.two.any_empty,
    cassert_pos _ idle.noBatch, Checked.ok_bind, Checked.pure_eq_ok]
  split
  · -- nothing queued: wait
    exact ⟨_, l, rfl, { rep with sync := ⟨idle, noBatch, output⟩ },
      .stays (by simp [here, Pc.hasBatch]) (by simp [here]) (by simp)⟩
  · -- buffers queued: take them at once
    exact ⟨_, l.swap, rfl, swap_represents rep idle noBatch output,
      .swapped (by simp [here, Pc.hasBatch]) rfl⟩

private theorem dropRest_spec (time : String) (rep : Represents s l) (here : s.pc = .drop) :
    ∃ t l', s.dropRest time = .ok t ∧ Represents t l' ∧ LedgerStep s t (.sync time) l l' := by
  have sync := rep.sync
  simp only [SyncInv, here] at sync
  obtain ⟨writing, output⟩ := sync
  have length := writing.holds.length_eq
  have taken : s.writeBuffers ≠ [] := by
    intro none
    rw [none] at length
    exact writing.nonempty (List.eq_nil_of_length_eq_zero length.symm)
  have accepted : s.accepted =
      Ledger.messages { l with batch := { l.batch with time := time } } := rep.accepted
  simp only [AsyncLogger.dropRest, cassert_pos _ taken, Checked.ok_bind, Checked.pure_eq_ok]
  split
  next many =>
    have beyond : Batch.overflows { l.batch with time := time } = true := by
      simpa [Batch.overflows, length] using many
    refine ⟨_, { l with batch := { l.batch with time := time } }, rfl,
      { rep with accepted := accepted, sync := ⟨⟨writing.one, ?_, ?_, ?_⟩, by simp, ?_⟩ },
      .clocked here rfl⟩
    · -- Two buffers are kept, enough to refill both spares.
      refine writing.two.imp (fun held => held) (fun lost => ⟨lost.1, ?_⟩)
      simp only [Batch.kept, beyond, if_true, List.length_take, kMaxBatch] at many ⊢
      omega
    · simp only [Batch.kept, beyond, if_true]
      exact List.forall₂_take 2 writing.holds
    · simpa [Batch.kept, beyond] using writing.nonempty
    · simp [Batch.notices, beyond, output, chunks, length]
  next few =>
    have fits : Batch.overflows { l.batch with time := time } = false := by
      simpa [Batch.overflows, length] using few
    refine ⟨_, { l with batch := { l.batch with time := time } }, rfl,
      { rep with accepted := accepted, sync := ⟨?_, by simp, ?_⟩ }, .clocked here rfl⟩
    · simpa [Batch.kept, fits] using writing
    · simp [Batch.notices, fits, output, chunks]

theorem chunks_append (xs ys : List (List Message)) :
    chunks (xs ++ ys) = chunks xs ++ chunks ys := by
  simp [chunks]

private theorem writeOne_spec {k : Nat} (time : String) (rep : Represents s l)
    (here : s.pc = .write k) :
    ∃ t l', s.writeOne k = .ok t ∧ Represents t l' ∧ LedgerStep s t (.sync time) l l' := by
  have sync := rep.sync
  simp only [SyncInv, here] at sync
  obtain ⟨writing, bound, output⟩ := sync
  have length := writing.holds.length_eq
  unfold AsyncLogger.writeOne
  split
  next past =>
    -- The loop is past the last buffer.
    have all : l.batch.kept.take k = l.batch.kept := by
      rw [List.getElem?_eq_none_iff] at past
      exact List.take_of_length_le (by omega)
    exact ⟨_, l, rfl, { rep with sync := ⟨writing, by rw [output, all]⟩ },
      .stays (by simp [here, Pc.hasBatch]) (by simp [here]) (by simp)⟩
  next ptr found =>
    obtain ⟨below, ptr_eq⟩ := List.getElem?_eq_some_iff.mp found
    have inside : k < l.batch.kept.length := by omega
    have held : Holds ptr l.batch.kept[k] := by
      have held := List.forall₂_iff_get.mp writing.holds |>.2 k below inside
      simpa only [List.get_eq_getElem, ptr_eq] using held
    obtain ⟨buffer, rfl, contents, _⟩ := held.contents
    -- One buffer more makes at most one chunk more.
    have next : chunks (l.batch.kept.take (k + 1)) =
        chunks (l.batch.kept.take k) ++ chunks [l.batch.kept[k]] := by
      rw [← chunks_append, List.take_append_getElem inside]
    have size_nonneg : 0 ≤ buffer.size := by simp [FixedBuffer.size]
    simp only [deref, Checked.ok_bind, Checked.pure_eq_ok]
    split
    · -- An empty buffer is skipped.
      have none : l.batch.kept[k] = [] := held.size_eq_zero.mp (by omega)
      refine ⟨_, l, rfl, { rep with sync := ⟨writing, inside, ?_⟩ },
        .stays (by simp [here, Pc.hasBatch]) (by simp [here]) (by simp)⟩
      rw [next, none, output]
      simp [chunks]
    · -- A buffer with messages makes one call.
      have some_left : l.batch.kept[k] ≠ [] := fun none => by
        have zero := held.size_eq_zero.mpr none
        omega
      refine ⟨_, l, rfl, { rep with sync := ⟨writing, inside, ?_⟩ },
        .stays (by simp [here, Pc.hasBatch]) (by simp [here]) (by simp)⟩
      rw [next, output, contents]
      simp [chunks, some_left]

/-- A missing spare buffer is replaced from a batch that is not empty. -/
private theorem refill_spec {batch : List (BufferPtr Nm)} {buffers : List (List Message)}
    (holds : List.Forall₂ Holds batch buffers) (nonempty : buffers ≠ []) :
    ∃ b, AsyncLogger.refill none batch = .ok (some b, batch.dropLast) ∧ Holds (some b) [] := by
  have there : batch ≠ [] := by
    rintro rfl
    cases holds
    exact nonempty rfl
  have last : Holds (batch.getLast there) (buffers.getLast nonempty) := by
    have length := holds.length_eq
    simp only [List.getLast_eq_getElem, length]
    have held := List.forall₂_iff_get.mp holds |>.2 (buffers.length - 1)
      (by have := List.length_pos_iff.mpr there; omega)
      (by have := List.length_pos_iff.mpr there; omega)
    simpa only [List.get_eq_getElem] using held
  obtain ⟨back, back_eq, _⟩ := last.contents
  refine ⟨back.reset, ?_, (back_eq ▸ last).reset⟩
  simp [AsyncLogger.refill, cassert_pos _ there, List.getLast?_eq_getLast_of_ne_nil there, back_eq,
    deref]

private theorem recycle_spec (time : String) (rep : Represents s l) (here : s.pc = .recycle) :
    ∃ t l', s.recycle = .ok t ∧ Represents t l' ∧ LedgerStep s t (.sync time) l l' := by
  have sync := rep.sync
  simp only [SyncInv, here] at sync
  obtain ⟨writing, output⟩ := sync
  obtain ⟨one, refilled, empty⟩ := refill_spec writing.holds writing.nonempty
  -- The second spare is there, or the batch has a second buffer to take it from.
  have second : ∃ two rest, AsyncLogger.refill s.newBuffer2 s.writeBuffers.dropLast =
      .ok (two, rest) ∧ Holds two [] := by
    rcases writing.two with held | ⟨gone, two⟩
    · obtain ⟨two, two_eq, _⟩ := held.contents
      exact ⟨some two, _, by rw [two_eq]; rfl, two_eq ▸ held⟩
    · have length := writing.holds.length_eq
      have rest : List.Forall₂ Holds s.writeBuffers.dropLast l.batch.kept.dropLast := by
        rw [List.dropLast_eq_take, List.dropLast_eq_take, length]
        exact List.forall₂_take _ writing.holds
      have nonempty : l.batch.kept.dropLast ≠ [] := by
        rw [← List.length_pos_iff, List.length_dropLast]
        omega
      obtain ⟨b, ok, held⟩ := refill_spec rest nonempty
      exact ⟨some b, _, by rw [gone, ok], held⟩
  obtain ⟨two, rest, ok, held⟩ := second
  simp only [AsyncLogger.recycle, writing.one, refilled, ok, Checked.ok_bind, Checked.pure_eq_ok]
  exact ⟨_, l, rfl, { rep with sync := ⟨⟨empty, held, rfl⟩, output⟩ },
    .stays (by simp [here, Pc.hasBatch]) (by simp [here]) (by simp)⟩

/-- Step lemma: until it has returned, `sync_thread` always makes its next step, and the step is
one of the ledger. -/
theorem syncThread_spec (time : String) (rep : Represents s l) (inside : s.pc ≠ .done) :
    ∃ t l', s.syncThread time = .ok t ∧ Represents t l' ∧ LedgerStep s t (.sync time) l l' := by
  have sync := rep.sync
  unfold AsyncLogger.syncThread
  cases here : s.pc with
  | done => exact absurd here inside
  | lock => exact enter_spec time rep here
  | drop => exact dropRest_spec time rep here
  | write k => exact writeOne_spec time rep here
  | recycle => exact recycle_spec time rep here
  | testRunning =>
    simp only [SyncInv, here] at sync
    cases running : s.running with
    | true =>
      exact ⟨_, l, rfl, { rep with sync := sync },
        .stays (by simp [here, Pc.hasBatch]) (by simp [here]) (by simp)⟩
    | false =>
      exact ⟨_, l, rfl, { rep with sync := sync },
        .stays (by simp [here, Pc.hasBatch]) (by simp [here]) (by simp)⟩
  | testSize =>
    simp only [SyncInv, here] at sync
    obtain ⟨current, current_eq, _⟩ := rep.current.contents
    simp only [current_eq, deref, Checked.ok_bind, Checked.pure_eq_ok]
    by_cases empty : current.size = 0
    · rw [if_neg (not_not.mpr empty)]
      exact ⟨_, l, rfl, { rep with current := current_eq ▸ rep.current, sync := sync },
        .stays (by simp [here, Pc.hasBatch]) (by simp [here]) (by simp)⟩
    · rw [if_pos empty]
      exact ⟨_, l, rfl, { rep with current := current_eq ▸ rep.current, sync := sync },
        .stays (by simp [here, Pc.hasBatch]) (by simp [here]) (by simp)⟩
  | waiting =>
    simp only [SyncInv, here] at sync
    exact ⟨_, l.swap, rfl, swap_represents rep sync.1 sync.2.1 sync.2.2,
      .swapped (by simp [here, Pc.hasBatch]) rfl⟩
  | flush =>
    simp only [SyncInv, here] at sync
    -- With the flush the batch is done with.
    refine ⟨_, ⟨l.written ++ [l.batch], ⟨[], ""⟩, l.queued, l.current⟩, rfl,
      { rep with accepted := ?_, sync := ⟨sync.1, rfl, ?_⟩ }, .flushed here rfl⟩
    · rw [rep.accepted]
      simp [Ledger.messages, Batch.messages]
    · simp [sync.2, Batch.emission]
  | exitFlush =>
    simp only [SyncInv, here] at sync
    exact ⟨_, l, rfl, { rep with sync := ⟨sync.1, sync.2.1, by rw [sync.2.2]⟩ },
      .stays (by simp [here, Pc.hasBatch]) (by simp [here]) (by simp)⟩

/-- Every step of every thread is a step of the ledger. -/
theorem step_ledger {label : Label} (rep : Represents s l) (taken : s.step label = .ok t) :
    ∃ l', Represents t l' ∧ LedgerStep s t label l l' := by
  cases label with
  | log level message => exact ⟨l, log_represents rep taken⟩
  | commit i => exact commit_represents rep taken
  | stop =>
    cases taken
    exact ⟨l, { rep with sync := rep.sync }, .kept rfl rfl rfl Iff.rfl rfl⟩
  | sync time =>
    have inside : s.pc ≠ .done := by
      intro here
      simp [AsyncLogger.step, AsyncLogger.syncThread, here] at taken
    obtain ⟨u, l', ok, moved⟩ := syncThread_spec time rep inside
    simp only [AsyncLogger.step, ok, Except.ok.injEq] at taken
    exact ⟨l', taken ▸ moved⟩

theorem step_represents {label : Label} (rep : Represents s l)
    (taken : s.step label = .ok t) : ∃ l', Represents t l' := by
  obtain ⟨l', rep', _⟩ := step_ledger rep taken
  exact ⟨l', rep'⟩

theorem run_represents (positive : 0 < Nm) {level : Level} {labels : List Label}
    (ran : run AsyncLogger.step (AsyncLogger.new Nm level) labels = .ok s) :
    ∃ l, Represents s l := by
  have preserved : ∀ (s : AsyncLogger Nm) label t, (∃ l, Represents s l) →
      s.step label = .ok t → ∃ l, Represents t l := by
    rintro s label t ⟨l, rep⟩ taken
    exact step_represents rep taken
  exact run_invariant preserved ⟨_, represents_new positive level⟩ ran

/-! ### The books of a run -/

/-- The batch that the ledger has at hand. -/
def Ledger.atHand (l : Ledger) (pc : Pc) : Option Batch := if pc.hasBatch then some l.batch else none

/-- The batches of the ledger are those that the steps `steps` have swapped out. -/
structure Recorded (steps : List (AsyncLogger Nm × Label)) (s : AsyncLogger Nm) (l : Ledger) :
    Prop where
  batches : List.Forall₂ (List.Forall₂ Holds) (swaps steps)
    ((l.written ++ (l.atHand s.pc).toList).map Batch.buffers)
  times : readings steps =
    (l.written ++ if s.pc = .drop then [] else (l.atHand s.pc).toList).map Batch.time

private theorem swaps_snoc (steps : List (AsyncLogger Nm × Label)) (s : AsyncLogger Nm)
    (label : Label) : swaps (steps ++ [(s, label)]) = swaps steps ++ (s.swapped label).toList := by
  rw [swaps, List.filterMap_append, swaps]
  cases eq : s.swapped label <;> simp [eq]

private theorem readings_snoc (steps : List (AsyncLogger Nm × Label)) (s : AsyncLogger Nm)
    (label : Label) :
    readings (steps ++ [(s, label)]) = readings steps ++ (s.clocked label).toList := by
  rw [readings, List.filterMap_append, readings]
  cases eq : s.clocked label <;> simp [eq]

/-- Step lemma. -/
private theorem recorded_step {steps : List (AsyncLogger Nm × Label)} {label : Label}
    {l l' : Ledger} (recorded : Recorded steps s l) (rep' : Represents t l')
    (taken : s.step label = .ok t) (moved : LedgerStep s t label l l') :
    Recorded (steps ++ [(s, label)]) t l' := by
  obtain ⟨batches, times⟩ := recorded
  have swapped : s.swapped label =
      if s.pc ≠ .drop ∧ t.pc = .drop then some t.writeBuffers else none := by
    rw [AsyncLogger.swapped, taken]
  cases moved with
  | kept written batch has drop unclocked =>
    -- Nothing is swapped out, and the clock is not read.
    rw [if_neg (fun entered => entered.1 (drop.mp entered.2))] at swapped
    have same : l'.atHand t.pc = l.atHand s.pc := by rw [Ledger.atHand, has, batch, Ledger.atHand]
    constructor
    · simpa [swaps_snoc, swapped, written, same] using batches
    · simpa [readings_snoc, unclocked, written, same, drop] using times
  | @swapped time _ noBatch here =>
    have outside : s.pc ≠ .drop := by
      intro drop
      simp [drop, Pc.hasBatch] at noBatch
    rw [if_pos ⟨outside, here⟩] at swapped
    have none : l.atHand s.pc = none := by simp [Ledger.atHand, noBatch]
    rw [none, Option.toList_none, List.append_nil] at batches
    have one : l.swap.atHand t.pc = some l.swap.batch := by simp [Ledger.atHand, here, Pc.hasBatch]
    -- What is swapped out is what `sync_thread` now has at hand.
    have sync := rep'.sync
    simp only [SyncInv, here] at sync
    constructor
    · rw [swaps_snoc, swapped, one, List.map_append]
      exact List.rel_append batches (.cons sync.1.holds .nil)
    · have unclocked : s.clocked (.sync time) = Option.none := if_neg outside
      simpa [readings_snoc, unclocked, here, outside, none, Ledger.swap] using times
  | @clocked time _ here next =>
    rw [if_neg (fun entered => entered.1 here)] at swapped
    have clocked : s.clocked (.sync time) = some time := if_pos here
    constructor
    · simpa [swaps_snoc, swapped, here, next, Ledger.atHand, Pc.hasBatch] using batches
    · simpa [readings_snoc, clocked, here, next, Ledger.atHand, Pc.hasBatch] using times
  | @flushed time _ here next =>
    -- The batch at hand is now the last one written.
    rw [if_neg (by simp [next])] at swapped
    have unclocked : s.clocked (.sync time) = none := if_neg (by simp [here])
    constructor
    · simpa [swaps_snoc, swapped, here, next, Ledger.atHand, Pc.hasBatch] using batches
    · simpa [readings_snoc, unclocked, here, next, Ledger.atHand, Pc.hasBatch] using times

private theorem accounts_of_recorded {steps : List (AsyncLogger Nm × Label)}
    (rep : Represents s l) (recorded : Recorded steps s l) :
    Accounts steps s l.written (l.atHand s.pc) l.queued l.current := by
  have sync := rep.sync
  have accepted := rep.accepted
  refine ⟨recorded.batches, recorded.times, ?_, rep.queued, rep.current, ?_, ?_⟩
  · unfold Ledger.atHand
    split <;> simp [*]
  · cases here : s.pc <;> simp only [SyncInv, here] at sync <;>
      simp [accepted, Ledger.messages, Ledger.atHand, Pc.hasBatch, Batch.messages, sync]
  · cases here : s.pc <;> simp only [SyncInv, here] at sync <;>
      simp [sync, Ledger.atHand, Pc.hasBatch, Batch.calls, Batch.begun]

/-- Run lemma: the books of every run are in order. -/
theorem run_accounts (positive : 0 < Nm) {level : Level} {labels : List Label}
    (ran : run AsyncLogger.step (AsyncLogger.new Nm level) labels = .ok s) :
    ∃ written atHand queued current,
      Accounts (trail AsyncLogger.step (AsyncLogger.new Nm level) labels) s written atHand queued
        current := by
  have preserved : ∀ (s : AsyncLogger Nm) label t steps,
      (∃ l, Represents s l ∧ Recorded steps s l) → s.step label = .ok t →
      ∃ l, Represents t l ∧ Recorded (steps ++ [(s, label)]) t l := by
    rintro s label t steps ⟨l, rep, recorded⟩ taken
    obtain ⟨l', rep', moved⟩ := step_ledger rep taken
    exact ⟨l', rep', recorded_step recorded rep' taken moved⟩
  obtain ⟨l, rep, recorded⟩ :=
    run_trail preserved ⟨_, represents_new positive level, .nil, rfl⟩ ran
  exact ⟨_, _, _, _, accounts_of_recorded rep recorded⟩

/-! ### No step fails -/

/-- Every message that passes the filter is shorter than a buffer. -/
def Short (s : AsyncLogger Nm) (label : Label) : Prop :=
  match label with
  | .log level message => (s.admits level message).all (fun m => m.length < Nm) = true
  | _ => True

instance (s : AsyncLogger Nm) (label : Label) : Decidable (Short s label) := by
  unfold Short
  split <;> infer_instance

/-- The messages in flight will fit. -/
def Fits (s : AsyncLogger Nm) : Prop := ∀ m ∈ s.inFlight, m.length < Nm

private theorem commit_ok (rep : Represents s l) {m : Message} (fits : m.length < Nm) :
    ∃ t, s.commit m = .ok t := by
  obtain ⟨current, current_eq, _, inside⟩ := rep.current.contents
  simp only [AsyncLogger.commit, current_eq, deref, Checked.ok_bind]
  split
  next room =>
    -- The message fits behind the others.
    rw [FixedBuffer.avail_size (Nat.le_of_lt inside)] at room
    rw [FixedBuffer.append_ok current m (by omega)]
    exact ⟨_, rfl⟩
  next =>
    -- It goes into an empty buffer, which it fits since it is short.
    obtain ⟨b, b_eq, contents, _⟩ := rep.fresh_empty.contents
    have empty : b.cur = 0 := by
      rw [← b.contents_length, contents]
      rfl
    rw [b_eq]
    simp only [Checked.ok_bind, FixedBuffer.append_ok b m (by omega), Checked.pure_eq_ok]
    exact ⟨_, rfl⟩

theorem step_fits {label : Label} (fits : Fits s) (short : Short s label)
    (taken : s.step label = .ok t) : Fits t := by
  intro m' member
  rcases AsyncLogger.step_inFlight taken with
    ⟨level, message, m, rfl, admitted, grown⟩ | ⟨i, fewer⟩ | same
  · rw [grown] at member
    rcases List.mem_append.mp member with member | member
    · exact fits m' member
    · simp only [List.mem_singleton] at member
      subst member
      simpa [Short, admitted] using short
  · rw [fewer] at member
    exact fits m' (List.mem_of_mem_eraseIdx member)
  · rw [same] at member
    exact fits m' member

/-- If the message at the lock is short, the only labels that fail are those that are no step at
all. -/
theorem step_fault {label : Label} {f : Fault} (rep : Represents s l)
    (fits : ∀ i m, label = .commit i → s.inFlight[i]? = some m → m.length < Nm)
    (failed : s.step label = .error f) : f = .disabled := by
  cases label with
  | log level message =>
    simp only [AsyncLogger.step] at failed
    split at failed <;> cases failed
  | commit i =>
    simp only [AsyncLogger.step] at failed
    split at failed
    next m found =>
      have rep' : Represents { s with inFlight := s.inFlight.eraseIdx i } l :=
        { rep with
          inFlight := fun m' member => rep.inFlight m' (List.mem_of_mem_eraseIdx member)
          sync := rep.sync }
      obtain ⟨t, ok⟩ := commit_ok rep' (fits i m rfl found)
      rw [ok] at failed
      cases failed
    next => cases failed; rfl
  | stop => cases failed
  | sync time =>
    by_cases inside : s.pc = .done
    · simp only [AsyncLogger.step, AsyncLogger.syncThread, inside, Except.error.injEq] at failed
      exact failed.symm
    · obtain ⟨t, _, ok, _⟩ := syncThread_spec time rep inside
      simp [AsyncLogger.step, ok] at failed

/-! ### Delivery -/

theorem Batch.kept_sublist (b : Batch) : b.kept.Sublist b.buffers := by
  unfold Batch.kept
  split
  · exact List.take_sublist 2 b.buffers
  · exact List.Sublist.refl _

private theorem chunksOf_chunks (buffers : List (List Message)) :
    chunksOf (chunks buffers) = (buffers.filter (· ≠ [])).map List.flatten := by
  simp [chunksOf, chunks, List.filterMap_map]

@[simp] theorem chunksOf_nil : chunksOf [] = [] := rfl

@[simp] theorem chunksOf_append (xs ys : List AppenderCall) :
    chunksOf (xs ++ ys) = chunksOf xs ++ chunksOf ys := List.filterMap_append

theorem chunksOf_notices (b : Batch) : chunksOf b.notices = [] := by
  unfold Batch.notices
  split <;> rfl

theorem chunksOf_emission (b : Batch) :
    chunksOf b.emission = (b.kept.filter (· ≠ [])).map List.flatten := by
  rw [Batch.emission, chunksOf_append, chunksOf_append, chunksOf_notices, chunksOf_chunks]
  simp [chunksOf]

theorem chunksOf_calls (b : Batch) (pc : Pc) :
    chunksOf (b.calls pc) = ((b.begun pc).filter (· ≠ [])).map List.flatten := by
  cases pc <;> simp [Batch.calls, Batch.begun, chunksOf_notices, chunksOf_chunks]

private theorem chunksOf_written (written : List Batch) :
    chunksOf (written.flatMap Batch.emission) =
      ((written.flatMap Batch.kept).filter (· ≠ [])).map List.flatten := by
  induction written with
  | nil => rfl
  | cons b written ih =>
    simp only [List.flatMap_cons, chunksOf_append, chunksOf_emission, ih, List.filter_append,
      List.map_append]

/-- The buffers that have been written: those that are kept of the batches done with, and of the
batch at hand those that `sync_thread` is past. -/
def delivered (written : List Batch) (atHand : Option Batch) (pc : Pc) : List (List Message) :=
  written.flatMap Batch.kept ++ atHand.toList.flatMap fun b => b.begun pc

theorem Batch.begun_sublist (b : Batch) (pc : Pc) : (b.begun pc).Sublist b.buffers := by
  cases pc with
  | write k => exact (List.take_sublist k b.kept).trans b.kept_sublist
  | recycle => exact b.kept_sublist
  | flush => exact b.kept_sublist
  | _ => exact List.nil_sublist _

section

variable {steps : List (AsyncLogger Nm × Label)} {written : List Batch} {atHand : Option Batch}
  {queued : List (List Message)} {current : List Message}

/-- Each chunk is all that a written buffer held. -/
theorem Accounts.chunks_eq (accounts : Accounts steps s written atHand queued current) :
    chunksOf s.output = ((delivered written atHand s.pc).filter (· ≠ [])).map List.flatten := by
  have last : chunksOf (if s.pc = .done then [.flush] else []) = [] := by split <;> rfl
  rw [accounts.output, chunksOf_append, chunksOf_append, last, List.append_nil, chunksOf_written,
    delivered, List.filter_append, List.map_append]
  cases atHand with
  | none => rfl
  | some b => simp [chunksOf_calls]

/-- Dropping buffers keeps the order. -/
theorem Accounts.delivered_sublist (accounts : Accounts steps s written atHand queued current) :
    (delivered written atHand s.pc).flatten.Sublist s.accepted := by
  have from_written : (written.flatMap Batch.kept).Sublist (written.flatMap Batch.buffers) :=
    List.Sublist.flatMap_right written fun b _ => b.kept_sublist
  have from_hand : (atHand.toList.flatMap fun b => b.begun s.pc).Sublist
      (atHand.toList.flatMap Batch.buffers) :=
    List.Sublist.flatMap_right atHand.toList fun b _ => b.begun_sublist s.pc
  have taken := (from_written.append from_hand).flatten
  have messages : (written.flatMap Batch.buffers ++ atHand.toList.flatMap Batch.buffers).flatten =
      (written ++ atHand.toList).flatMap Batch.messages := by
    rw [← List.flatMap_append]
    simp only [List.flatMap, List.flatten_flatten, List.map_map]
    rfl
  rw [messages] at taken
  rw [accounts.accepted, List.append_assoc]
  exact taken.trans (List.sublist_append_left _ _)

end

/-- **Delivery**: over every interleaving of `log` calls with `sync_thread`, no assertion fails.
The batches that were swapped out hold the accepted messages in lock order, up to those that are
still in `buffers_` and `current_buffer_`; the appender was called as these batches demand
(`Batch.emission`), for the batch at hand up to where `sync_thread` is. Each chunk is the row of all
messages of a buffer, and the messages delivered are a subsequence of the accepted ones. -/
theorem messages_delivered_in_order (positive : 0 < Nm) (level : Level) (labels : List Label)
    (short : Along AsyncLogger.step Short (AsyncLogger.new Nm level) labels) :
    (∀ f, run AsyncLogger.step (AsyncLogger.new Nm level) labels = .error f → f = .disabled) ∧
    ∀ s, run AsyncLogger.step (AsyncLogger.new Nm level) labels = .ok s →
      ∃ written atHand queued current,
        Accounts (trail AsyncLogger.step (AsyncLogger.new Nm level) labels) s written atHand queued
          current ∧
        chunksOf s.output =
          ((delivered written atHand s.pc).filter (· ≠ [])).map List.flatten ∧
        (delivered written atHand s.pc).flatten.Sublist s.accepted := by
  constructor
  · -- No step fails: `Represents` gives the assertions, `Short` the room.
    intro f failed
    have initial : (∃ l, Represents (AsyncLogger.new Nm level) l) ∧
        Fits (AsyncLogger.new Nm level) := ⟨⟨_, represents_new positive level⟩, nofun⟩
    have preserved : ∀ (s : AsyncLogger Nm) label t, ((∃ l, Represents s l) ∧ Fits s) →
        Short s label → s.step label = .ok t → (∃ l, Represents t l) ∧ Fits t := by
      rintro s label t ⟨⟨l, rep⟩, fits⟩ short taken
      exact ⟨step_represents rep taken, step_fits fits short taken⟩
    have faults : ∀ (s : AsyncLogger Nm) label f, ((∃ l, Represents s l) ∧ Fits s) →
        Short s label → s.step label = .error f → f = .disabled := by
      rintro s label f ⟨⟨l, rep⟩, fits⟩ _ failed
      exact step_fault rep (fun _ m _ found => fits m (List.mem_of_getElem? found)) failed
    exact run_fault_along preserved faults initial short failed
  · intro s ran
    obtain ⟨written, atHand, queued, current, accounts⟩ := run_accounts positive ran
    exact ⟨written, atHand, queued, current, accounts, accounts.chunks_eq,
      accounts.delivered_sublist⟩

/-- Five messages for buffers of eight bytes; the third does not fit behind the first two. -/
def sampleLabels : List Label :=
  [.log .kInfo (some [1, 2, 3]), .log .kDebug (some [9]), .commit 0, .log .kWarn (some [4, 5, 6]),
    .log .kError (some [7, 8]), .commit 0, .commit 0, .sync "", .sync "", .sync "", .sync "",
    .log .kInfo (some [1]), .sync "", .sync "", .commit 0, .sync "", .sync ""]

theorem sampleLabels_delivered :
    ∃ s, run AsyncLogger.step (AsyncLogger.new 8 .kInfo) sampleLabels = .ok s ∧
      chunksOf s.output = [[1, 2, 3, 4, 5, 6], [7, 8]] ∧
      s.accepted = [[1, 2, 3], [4, 5, 6], [7, 8], [1]] ∧
      ∃ written atHand queued current,
        Accounts (trail AsyncLogger.step (AsyncLogger.new 8 .kInfo) sampleLabels) s written atHand
          queued current ∧
        (delivered written atHand s.pc).flatten.Sublist s.accepted := by
  have evaluated : ((run AsyncLogger.step (AsyncLogger.new 8 .kInfo) sampleLabels).toOption.any
      fun s => decide (chunksOf s.output = [[1, 2, 3, 4, 5, 6], [7, 8]] ∧
        s.accepted = [[1, 2, 3], [4, 5, 6], [7, 8], [1]])) = true := by decide +kernel
  cases ran : run AsyncLogger.step (AsyncLogger.new 8 .kInfo) sampleLabels with
  | error f => simp [ran, Except.toOption] at evaluated
  | ok s =>
    simp only [ran, Except.toOption, Option.any_some, decide_eq_true_eq] at evaluated
    have delivery := messages_delivered_in_order (show 0 < 8 by decide) .kInfo sampleLabels
      (by decide +kernel)
    obtain ⟨written, atHand, queued, current, accounts, _, sublist⟩ := delivery.2 s ran
    exact ⟨s, rfl, evaluated.1, evaluated.2, written, atHand, queued, current, accounts, sublist⟩

end

end Clia.Log
