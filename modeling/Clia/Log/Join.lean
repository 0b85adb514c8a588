import Clia.Log.Shutdown

/-!
# The join of the destructor

`~AsyncLogger` stores false to `running_` and joins the thread. Once no `log` call is left, how many
steps `sync_thread` still makes is a number that can be read off its position: the rest of the batch
at hand, then one batch more if the current buffer holds something, then the two tests and the last
flush. Each of its steps takes one off, and no other thread's step changes it.

Since a batch is cut to `kMaxBatch` buffers, the number is small whatever was logged.
-/

namespace Clia.Log

open Container LabelledRun

variable {Nm : Nat}

namespace AsyncLogger

/-- The buffers that are left of a batch of `n`. -/
def keptOf (n : Nat) : Nat := if n > kMaxBatch then 2 else n

/-- From the overflow test of a batch of `n` buffers to the next test of `running_`. -/
def batchSteps (n : Nat) : Nat := keptOf n + 4

/-- Both tests and the last flush. -/
def exitSteps : Nat := 3

/-- From the head of the loop body to the overflow test. -/
def entrySteps (s : AsyncLogger Nm) : Nat := if s.buffers = [] then 2 else 1

/-- `current_buffer_->size() != 0` -/
def holdsSome (s : AsyncLogger Nm) : Bool := s.currentBuffer.any fun b => b.size ≠ 0

/-- From the test of `running_` to the end. -/
def testSteps (s : AsyncLogger Nm) : Nat :=
  if s.holdsSome then 2 + s.entrySteps + batchSteps (s.buffers.length + 1) + exitSteps else exitSteps

/-- The steps that `sync_thread` has left if `running_` is false and nobody calls `log`. -/
def stepsLeft (s : AsyncLogger Nm) : Nat :=
  match s.pc with
  | .testRunning => s.testSteps
  | .testSize => s.testSteps - 1
  | .lock => s.entrySteps + batchSteps (s.buffers.length + 1) + exitSteps
  | .waiting => 1 + batchSteps (s.buffers.length + 1) + exitSteps
  | .drop => batchSteps s.writeBuffers.length + s.testSteps
  | .write k => s.writeBuffers.length - k + 3 + s.testSteps
  | .recycle => 2 + s.testSteps
  | .flush => 1 + s.testSteps
  | .exitFlush => 1
  | .done => 0

end AsyncLogger

/-- The steps of `sync_thread` in a schedule. -/
def syncs (labels : List Label) : Nat :=
  labels.countP fun
    | .sync _ => true
    | _ => false

section

variable {s t : AsyncLogger Nm} {l : Ledger}

open AsyncLogger

theorem keptOf_le (n : Nat) : keptOf n ≤ kMaxBatch := by
  unfold keptOf
  split
  · decide
  · omega

/-! ### One step less -/

theorem holdsSome_empty {ptr : BufferPtr Nm} (empty : Holds ptr []) :
    ptr.any (fun b => decide (b.size ≠ 0)) = false := by
  obtain ⟨b, rfl, _⟩ := empty.contents
  simpa using empty.size_eq_zero.mpr rfl

/-- Behind the swap a batch is at hand, and the current buffer is empty. -/
private theorem stepsLeft_swap (idle : Idle s.newBuffer1 s.newBuffer2 s.writeBuffers) :
    s.swap.stepsLeft = batchSteps (s.buffers.length + 1) + exitSteps := by
  have empty : s.swap.holdsSome = false := holdsSome_empty idle.one
  have batch : s.swap.writeBuffers.length = s.buffers.length + 1 := by simp [swap]
  have here : s.swap.pc = .drop := rfl
  simp [stepsLeft, testSteps, here, empty, batch]

private theorem stepsLeft_enter (rep : Represents s l) (here : s.pc = .lock)
    (taken : s.enter = .ok t) : s.stepsLeft = t.stepsLeft + 1 := by
  have sync := rep.sync
  simp only [SyncInv, here] at sync
  obtain ⟨_, _, taken⟩ := Checked.bind_ok_iff.mp taken
  obtain ⟨_, _, taken⟩ := Checked.bind_ok_iff.mp taken
  obtain ⟨_, _, taken⟩ := Checked.bind_ok_iff.mp taken
  cases taken
  by_cases unqueued : s.buffers = []
  · rw [if_pos unqueued]
    simp only [stepsLeft, here, entrySteps, unqueued, if_true]
    omega
  · rw [if_neg unqueued, stepsLeft_swap sync.1]
    simp only [stepsLeft, here, entrySteps, unqueued, if_false]
    omega

private theorem stepsLeft_dropRest {time : String} (here : s.pc = .drop)
    (taken : s.dropRest time = .ok t) : s.stepsLeft = t.stepsLeft + 1 := by
  have now : s.stepsLeft = keptOf s.writeBuffers.length + 4 + s.testSteps := by
    simp only [stepsLeft, here, batchSteps]
  obtain ⟨_, _, taken⟩ := Checked.bind_ok_iff.mp taken
  split at taken
  next many =>
    cases taken
    have two : (s.writeBuffers.take 2).length = keptOf s.writeBuffers.length := by
      rw [List.length_take, keptOf, if_pos many]
      have bound : kMaxBatch = 25 := rfl
      omega
    calc s.stepsLeft = (s.writeBuffers.take 2).length - 0 + 3 + s.testSteps + 1 := by omega
      _ = _ := rfl
  next few =>
    cases taken
    have all : s.writeBuffers.length = keptOf s.writeBuffers.length := (if_neg few).symm
    calc s.stepsLeft = s.writeBuffers.length - 0 + 3 + s.testSteps + 1 := by omega
      _ = _ := rfl

private theorem stepsLeft_writeOne {k : Nat} (here : s.pc = .write k)
    (taken : s.writeOne k = .ok t) : s.stepsLeft = t.stepsLeft + 1 := by
  have now : s.stepsLeft = s.writeBuffers.length - k + 3 + s.testSteps := by
    simp only [stepsLeft, here]
  unfold writeOne at taken
  split at taken
  next past =>
    cases taken
    rw [List.getElem?_eq_none_iff] at past
    calc s.stepsLeft = 2 + s.testSteps + 1 := by omega
      _ = _ := rfl
  next ptr found =>
    obtain ⟨below, _⟩ := List.getElem?_eq_some_iff.mp found
    have next : s.stepsLeft = s.writeBuffers.length - (k + 1) + 3 + s.testSteps + 1 := by omega
    obtain ⟨_, _, taken⟩ := Checked.bind_ok_iff.mp taken
    split at taken
    · cases taken
      exact next
    · cases taken
      exact next

private theorem stepsLeft_recycle (here : s.pc = .recycle) (taken : s.recycle = .ok t) :
    s.stepsLeft = t.stepsLeft + 1 := by
  have now : s.stepsLeft = 2 + s.testSteps := by simp only [stepsLeft, here]
  obtain ⟨_, _, taken⟩ := Checked.bind_ok_iff.mp taken
  obtain ⟨_, _, taken⟩ := Checked.bind_ok_iff.mp taken
  cases taken
  calc s.stepsLeft = 1 + s.testSteps + 1 := by omega
    _ = _ := rfl

/-- Step lemma: without other threads each step of `sync_thread` is one of those it has left. -/
theorem stepsLeft_syncThread {time : String} (rep : Represents s l) (stopped : s.running = false)
    (taken : s.syncThread time = .ok t) : s.stepsLeft = t.stepsLeft + 1 := by
  have sync := rep.sync
  unfold AsyncLogger.syncThread at taken
  cases here : s.pc with
  | testRunning =>
    simp only [here, stopped] at taken
    cases taken
    have positive : 1 ≤ s.testSteps := by
      unfold testSteps exitSteps
      split <;> omega
    simp only [stepsLeft, here]
    exact (Nat.sub_add_cancel positive).symm
  | testSize =>
    simp only [here] at taken
    obtain ⟨b, there, taken⟩ := Checked.bind_ok_iff.mp taken
    have current := deref_ok there
    cases taken
    by_cases empty : b.size = 0
    · simp [stepsLeft, here, testSteps, holdsSome, current, empty, exitSteps]
    · simp only [stepsLeft, here, testSteps, holdsSome, current, empty, exitSteps, entrySteps,
        Option.any_some, ne_eq, not_false_eq_true, decide_true, if_true]
      omega
  | lock =>
    simp only [here] at taken
    exact stepsLeft_enter rep here taken
  | waiting =>
    simp only [here] at taken
    simp only [SyncInv, here] at sync
    cases taken
    rw [stepsLeft_swap sync.1]
    simp only [stepsLeft, here]
    omega
  | drop =>
    simp only [here] at taken
    exact stepsLeft_dropRest here taken
  | write k =>
    simp only [here] at taken
    exact stepsLeft_writeOne here taken
  | recycle =>
    simp only [here] at taken
    exact stepsLeft_recycle here taken
  | flush =>
    simp only [here] at taken
    cases taken
    have now : s.stepsLeft = 1 + s.testSteps := by simp only [stepsLeft, here]
    rw [now, Nat.add_comm]
    rfl
  | exitFlush =>
    simp only [here] at taken
    cases taken
    simp only [stepsLeft, here]
  | done =>
    simp only [here] at taken
    cases taken

/-! ### The other threads -/

/-- Nobody calls `log` any more. -/
structure Left (s : AsyncLogger Nm) : Prop where
  represents : ∃ l, Represents s l
  stopped : s.running = false
  quiet : s.inFlight = []

theorem Left.step {label : Label} (left : Left s) (taken : s.step label = .ok t) :
    Left t ∧ s.stepsLeft = t.stepsLeft + syncs [label] := by
  obtain ⟨l, rep⟩ := left.represents
  have represents := step_represents rep taken
  cases label with
  | log level message =>
    -- The filter lets nothing pass.
    have rejected : s.admits level message = none := by
      cases message with
      | none => rfl
      | some m => simp [AsyncLogger.admits, left.stopped]
    simp only [AsyncLogger.step, rejected] at taken
    cases taken
    exact ⟨left, rfl⟩
  | commit i =>
    simp only [AsyncLogger.step, left.quiet] at taken
    cases taken
  | stop =>
    cases taken
    exact ⟨⟨represents, rfl, left.quiet⟩, rfl⟩
  | sync time =>
    obtain ⟨running, inFlight⟩ := AsyncLogger.syncThread_shared taken
    exact ⟨⟨represents, running.trans left.stopped, inFlight.trans left.quiet⟩,
      stepsLeft_syncThread rep left.stopped taken⟩

/-- Run lemma. -/
theorem Left.run {labels : List Label} (left : Left s) (ran : run AsyncLogger.step s labels = .ok t) :
    Left t ∧ s.stepsLeft = t.stepsLeft + syncs labels := by
  induction labels generalizing s with
  | nil =>
    cases ran
    exact ⟨left, rfl⟩
  | cons label labels ih =>
    obtain ⟨u, taken, rest⟩ := run_cons_inv ran
    obtain ⟨there, first⟩ := left.step taken
    obtain ⟨final, later⟩ := ih there rest
    have split : syncs (label :: labels) = syncs [label] + syncs labels := by
      simp only [syncs, List.countP_cons, List.countP_nil]
      omega
    exact ⟨final, by omega⟩

/-! ### The number is small -/

theorem testSteps_le (s : AsyncLogger Nm) : s.testSteps ≤ 35 := by
  have few := keptOf_le (s.buffers.length + 1)
  unfold testSteps entrySteps batchSteps exitSteps
  simp only [kMaxBatch] at few
  split
  · split
    next unqueued =>
      rw [unqueued]
      simp [keptOf, kMaxBatch]
    next => omega
  · omega

theorem stepsLeft_le (rep : Represents s l) : s.stepsLeft ≤ 64 := by
  have tests := testSteps_le s
  have few := keptOf_le (s.buffers.length + 1)
  have fewer := keptOf_le s.writeBuffers.length
  have sync := rep.sync
  simp only [kMaxBatch] at few fewer
  unfold stepsLeft batchSteps exitSteps entrySteps
  cases here : s.pc with
  | write k =>
    -- The batch was cut before the loop over it began.
    simp only [SyncInv, here] at sync
    have length := sync.1.holds.length_eq
    have kept : l.batch.kept.length ≤ 25 := by
      unfold Batch.kept Batch.overflows
      split
      next => rw [List.length_take]; omega
      next fits => simpa [kMaxBatch] using fits
    simp only
    omega
  | lock => simp only; split <;> omega
  | _ => simp only; omega

theorem stepsLeft_eq_zero_iff (s : AsyncLogger Nm) : s.stepsLeft = 0 ↔ s.pc = .done := by
  have tests : 3 ≤ s.testSteps := by
    unfold testSteps exitSteps
    split <;> omega
  unfold stepsLeft batchSteps exitSteps
  cases here : s.pc <;> simp <;> omega

/-- **The join returns**: if all `log` calls have returned when the destructor starts, there is a
number, at most 64, such that under every schedule `sync_thread` has returned exactly when it has
made so many more steps, and until then it can always make the next one. -/
theorem join_returns (positive : 0 < Nm) (level : Level) {labels : List Label}
    (quietStop : Along AsyncLogger.step QuietStop (AsyncLogger.new Nm level) labels)
    (ran : run AsyncLogger.step (AsyncLogger.new Nm level) labels = .ok s)
    (stopped : s.running = false) :
    ∃ n ≤ 64, ∀ more t, run AsyncLogger.step s more = .ok t →
      syncs more ≤ n ∧ (t.pc = .done ↔ syncs more = n) ∧
        (t.pc ≠ .done → ∀ time, ∃ u, t.step (.sync time) = .ok u) := by
  have inv : ExitInv s := run_invariant_along
    (fun _ _ _ inv quiet taken => exitInv_step inv quiet taken) (exitInv_new positive level)
    quietStop ran
  obtain ⟨l, rep⟩ := inv.represents
  have left : Left s := ⟨⟨l, rep⟩, stopped, inv.quiet stopped⟩
  refine ⟨s.stepsLeft, stepsLeft_le rep, ?_⟩
  intro more t went
  obtain ⟨there, counted⟩ := left.run went
  obtain ⟨l', rep'⟩ := there.represents
  refine ⟨by omega, ?_, ?_⟩
  · rw [← stepsLeft_eq_zero_iff]
    omega
  · intro inside time
    obtain ⟨u, _, ok, _⟩ := syncThread_spec time rep' inside
    exact ⟨u, ok⟩

/-- A message in the current buffer, and the destructor while `sync_thread` waits. -/
def sampleJoin : List Label :=
  [.sync "", .sync "", .log .kInfo (some [1, 2]), .commit 0, .stop]

theorem sampleJoin_returns :
    ∃ s, run AsyncLogger.step (AsyncLogger.new 8 .kInfo) sampleJoin = .ok s ∧ s.stepsLeft = 9 ∧
      ∃ n ≤ 64, ∀ more t, run AsyncLogger.step s more = .ok t →
        syncs more ≤ n ∧ (t.pc = .done ↔ syncs more = n) ∧
          (t.pc ≠ .done → ∀ time, ∃ u, t.step (.sync time) = .ok u) := by
  have evaluated : ((run AsyncLogger.step (AsyncLogger.new 8 .kInfo) sampleJoin).toOption.any
      fun s => decide (s.running = false ∧ s.stepsLeft = 9)) = true := by decide +kernel
  cases ran : run AsyncLogger.step (AsyncLogger.new 8 .kInfo) sampleJoin with
  | error f => simp [ran, Except.toOption] at evaluated
  | ok s =>
    simp only [ran, Except.toOption, Option.any_some, decide_eq_true_eq] at evaluated
    exact ⟨s, rfl, evaluated.2, join_returns (by decide) .kInfo (by decide +kernel) ran evaluated.1⟩

end

end Clia.Log
