import Clia.Log.Delivery

/-!
# Shutting the logger down

The loop of `sync_thread` ends when `running_` is false and `current_buffer_` is empty; it does
not look at `buffers_`. With no `log` call left when the destructor starts, an empty current
buffer means that nothing is queued either, so the thread leaves nothing behind.
-/

namespace Clia.Log

open Container LabelledRun

variable {Nm : Nat}

/-- All `log` calls have returned when the destructor starts. -/
def QuietStop (s : AsyncLogger Nm) (label : Label) : Prop := label = .stop → s.inFlight = []

instance (s : AsyncLogger Nm) (label : Label) : Decidable (QuietStop s label) :=
  inferInstanceAs (Decidable (_ → _))

/-- Nothing is left in the buffers that the threads share. -/
structure Drained (s : AsyncLogger Nm) : Prop where
  queue : s.buffers = []
  current : ∃ b, s.currentBuffer = some b ∧ b.contents = []

/-- Past the test of `running_` the shared buffers belong to `sync_thread` alone; past the test
of the size they are empty. -/
structure ExitInv (s : AsyncLogger Nm) : Prop where
  represents : ∃ l, Represents s l
  quiet : s.running = false → s.inFlight = []
  stopped : s.pc = .testSize ∨ s.pc = .exitFlush ∨ s.pc = .done → s.running = false
  drained : s.pc = .exitFlush ∨ s.pc = .done → Drained s

section

variable {s t : AsyncLogger Nm}

/-- An empty current buffer is enough. -/
private theorem drained_of_current {l : Ledger} {b : FixedBuffer UInt8 Nm}
    (rep : Represents s l) (current : s.currentBuffer = some b) (empty : b.size = 0) :
    Drained s := by
  have holds : Holds (some b) l.current := current ▸ rep.current
  have none : l.current = [] := holds.size_eq_zero.mp empty
  -- Queued buffers would come with a message in the current one.
  have unqueued : l.queued = [] := by
    by_contra queued
    exact rep.following queued none
  refine ⟨?_, b, current, ?_⟩
  · have queue := rep.queued
    rw [unqueued] at queue
    exact List.forall₂_nil_right_iff.mp queue
  · rw [holds.deref.1, none]
    rfl

/-- Three steps of `sync_thread` lead to its exit: the two tests, and the last flush. -/
inductive ExitStep (s t : AsyncLogger Nm) : Prop where
  | stopped (running : s.running = false) (eq : t = { s with pc := .testSize })
  | empty (b : FixedBuffer UInt8 Nm) (here : s.pc = .testSize)
      (current : s.currentBuffer = some b) (size : b.size = 0)
      (eq : t = { s with pc := .exitFlush })
  | flushed (here : s.pc = .exitFlush)
      (eq : t = { s with pc := .done, output := s.output ++ [.flush] })
  | inside (test : t.pc ≠ .testSize) (exit : t.pc ≠ .exitFlush) (done : t.pc ≠ .done)

theorem exitStep_of_syncThread {time : String} (taken : s.syncThread time = .ok t) :
    ExitStep s t := by
  unfold AsyncLogger.syncThread at taken
  split at taken
  next =>
    -- the first half of the loop condition
    by_cases running : s.running = true
    · rw [if_pos running] at taken
      cases taken
      exact .inside (by simp) (by simp) (by simp)
    · rw [if_neg running] at taken
      cases taken
      exact .stopped (by simpa using running) rfl
  next here =>
    -- the second half: the size of `current_buffer_`
    obtain ⟨b, b_eq, taken⟩ := Checked.bind_ok_iff.mp taken
    have current : s.currentBuffer = some b := by
      cases eq : s.currentBuffer with
      | none => simp [deref, eq] at b_eq
      | some b' =>
        simp only [deref, eq, Except.ok.injEq] at b_eq
        rw [b_eq]
    by_cases size : b.size = 0
    · rw [if_neg (not_not.mpr size)] at taken
      cases taken
      exact .empty b here current size rfl
    · rw [if_pos size] at taken
      cases taken
      exact .inside (by simp) (by simp) (by simp)
  next =>
    obtain ⟨_, _, taken⟩ := Checked.bind_ok_iff.mp taken
    obtain ⟨_, _, taken⟩ := Checked.bind_ok_iff.mp taken
    obtain ⟨_, _, taken⟩ := Checked.bind_ok_iff.mp taken
    cases taken
    split <;> exact .inside (by simp [AsyncLogger.swap]) (by simp [AsyncLogger.swap])
      (by simp [AsyncLogger.swap])
  next =>
    cases taken
    exact .inside (by simp [AsyncLogger.swap]) (by simp [AsyncLogger.swap])
      (by simp [AsyncLogger.swap])
  next =>
    obtain ⟨_, _, taken⟩ := Checked.bind_ok_iff.mp taken
    split at taken <;> cases taken <;> exact .inside (by simp) (by simp) (by simp)
  next =>
    unfold AsyncLogger.writeOne at taken
    split at taken
    next => cases taken; exact .inside (by simp) (by simp) (by simp)
    next =>
      obtain ⟨_, _, taken⟩ := Checked.bind_ok_iff.mp taken
      split at taken <;> cases taken <;> exact .inside (by simp) (by simp) (by simp)
  next =>
    obtain ⟨_, _, taken⟩ := Checked.bind_ok_iff.mp taken
    obtain ⟨_, _, taken⟩ := Checked.bind_ok_iff.mp taken
    cases taken
    exact .inside (by simp) (by simp) (by simp)
  next => cases taken; exact .inside (by simp) (by simp) (by simp)
  next here => cases taken; exact .flushed here rfl
  next => cases taken

private theorem exitInv_sync {time : String} (inv : ExitInv s)
    (taken : s.syncThread time = .ok t) : ExitInv t := by
  obtain ⟨l, rep⟩ := inv.represents
  obtain ⟨same_running, same_flight⟩ := AsyncLogger.syncThread_shared taken
  have represents : ∃ l, Represents t l := by
    have taken : s.step (.sync time) = .ok t := taken
    exact step_represents rep taken
  have quiet : t.running = false → t.inFlight = [] := by
    rw [same_running, same_flight]
    exact inv.quiet
  cases exitStep_of_syncThread taken with
  | stopped running eq =>
    exact ⟨represents, quiet, fun _ => same_running.trans running, by simp [eq]⟩
  -- The size was read while nobody else could write any more.
  | empty b here current size eq =>
    refine ⟨represents, quiet, fun _ => same_running.trans (inv.stopped (.inl here)), fun _ => ?_⟩
    obtain ⟨queue, current⟩ := drained_of_current rep current size
    exact eq ▸ ⟨queue, current⟩
  | flushed here eq =>
    refine ⟨represents, quiet,
      fun _ => same_running.trans (inv.stopped (.inr (.inl here))), fun _ => ?_⟩
    obtain ⟨queue, current⟩ := inv.drained (.inl here)
    exact eq ▸ ⟨queue, current⟩
  | inside test exit done =>
    exact ⟨represents, quiet, by simp [test, exit, done], by simp [exit, done]⟩

/-- Step lemma. -/
theorem exitInv_step {label : Label} (inv : ExitInv s) (quietStop : QuietStop s label)
    (taken : s.step label = .ok t) : ExitInv t := by
  obtain ⟨l, rep⟩ := inv.represents
  have represents := step_represents rep taken
  cases label with
  | sync time => exact exitInv_sync inv taken
  | stop =>
    cases taken
    -- From here on no call is in flight and the filter lets none pass.
    exact ⟨represents, fun _ => quietStop rfl, fun _ => rfl,
      fun leaving => ⟨(inv.drained leaving).queue, (inv.drained leaving).current⟩⟩
  | log level message =>
    simp only [AsyncLogger.step] at taken
    split at taken
    next m admitted =>
      -- The filter lets nothing pass once `running_` is false.
      have running : s.running = true := by
        unfold AsyncLogger.admits at admitted
        split at admitted
        next => cases admitted
        next =>
          split at admitted
          next => cases admitted
          next passed =>
            simp only [not_or, Bool.not_eq_false] at passed
            exact passed.2.2.2
      cases taken
      refine ⟨represents, by simp [running], inv.stopped, fun leaving => ?_⟩
      have stopped := inv.stopped (.inr leaving)
      simp [running] at stopped
    next => cases taken; exact inv
  | commit i =>
    simp only [AsyncLogger.step] at taken
    split at taken
    next m found =>
      -- A call in flight means that the destructor has not started.
      have running : s.running = true := by
        by_contra stopped
        have none := inv.quiet (by simpa using stopped)
        simp [none] at found
      have same : t.running = s.running ∧ t.pc = s.pc := by
        obtain ⟨_, _, taken⟩ := Checked.bind_ok_iff.mp taken
        split at taken
        · obtain ⟨_, _, taken⟩ := Checked.bind_ok_iff.mp taken
          cases taken
          exact ⟨rfl, rfl⟩
        · obtain ⟨_, _, taken⟩ := Checked.bind_ok_iff.mp taken
          obtain ⟨_, _, taken⟩ := Checked.bind_ok_iff.mp taken
          cases taken
          exact ⟨rfl, rfl⟩
      refine ⟨represents, by simp [same.1, running], ?_, fun leaving => ?_⟩
      · rw [same.1, same.2]
        exact inv.stopped
      · rw [same.2] at leaving
        have stopped := inv.stopped (.inr leaving)
        simp [running] at stopped
    next => cases taken

theorem exitInv_new (positive : 0 < Nm) (level : Level) : ExitInv (AsyncLogger.new Nm level) :=
  ⟨⟨_, represents_new positive level⟩, nofun, by simp [AsyncLogger.new], by simp [AsyncLogger.new]⟩

private theorem chunks_in_output {written : List Batch} {b : Batch} (member : b ∈ written)
    (few : b.buffers.length ≤ kMaxBatch) (last : List AppenderCall) :
    chunks b.buffers <:+: written.flatMap Batch.emission ++ last := by
  obtain ⟨before, after, rfl⟩ := List.append_of_mem member
  have fits : b.overflows = false := by simpa [Batch.overflows] using few
  refine ⟨before.flatMap Batch.emission, [.flush] ++ after.flatMap Batch.emission ++ last, ?_⟩
  simp [Batch.emission, Batch.notices, Batch.kept, fits]

/-- Once `sync_thread` has returned and left nothing behind, all batches are written. -/
theorem Accounts.of_drained {steps : List (AsyncLogger Nm × Label)} {written : List Batch}
    {atHand : Option Batch} {queued : List (List Message)} {current : List Message}
    (accounts : Accounts steps s written atHand queued current) (drained : Drained s)
    (exited : s.pc = .done) :
    Accounts steps s written none [] [] ∧ s.accepted = written.flatMap Batch.messages ∧
      s.output = written.flatMap Batch.emission ++ [.flush] := by
  have noBatch : atHand = none := by
    have has : atHand.isSome = Pc.done.hasBatch := exited ▸ accounts.hasBatch
    exact Option.isNone_iff_eq_none.mp (Option.isSome_eq_false_iff.mp has)
  have unqueued : queued = [] := by
    have buffers := accounts.buffers
    rw [drained.queue] at buffers
    exact List.forall₂_nil_left_iff.mp buffers
  have none : current = [] := by
    obtain ⟨b, current_eq, empty⟩ := drained.current
    have holds : Holds (some b) current := current_eq ▸ accounts.currentBuffer
    apply holds.size_eq_zero.mp
    have cur : b.cur = 0 := by
      rw [← b.contents_length, empty]
      rfl
    simp [FixedBuffer.size, cur]
  subst noBatch unqueued none
  refine ⟨accounts, ?_, ?_⟩
  · simpa using accounts.accepted
  · simpa [exited] using accounts.output

/-- **Shutdown drains everything**: if all `log` calls have returned when the destructor starts,
wherever `sync_thread` is then, it leaves no message in `current_buffer_` and `buffers_`. The
batches that were swapped out, all of them written, hold the accepted messages; a batch of at most
`kMaxBatch` buffers was passed to the appender whole, and a flush is the last call. -/
theorem shutdown_drains (positive : 0 < Nm) (level : Level) {labels : List Label}
    (quietStop : Along AsyncLogger.step QuietStop (AsyncLogger.new Nm level) labels)
    (ran : run AsyncLogger.step (AsyncLogger.new Nm level) labels = .ok s)
    (exited : s.pc = .done) :
    s.buffers = [] ∧ (∃ b, s.currentBuffer = some b ∧ b.contents = []) ∧
      ∃ written : List Batch,
        Accounts (trail AsyncLogger.step (AsyncLogger.new Nm level) labels) s written none [] [] ∧
        s.accepted = written.flatMap Batch.messages ∧
        s.output = written.flatMap Batch.emission ++ [.flush] ∧
        ∀ b ∈ written, b.buffers.length ≤ kMaxBatch → chunks b.buffers <:+: s.output := by
  -- The invariant carries over the run, whatever the schedule.
  have inv : ExitInv s := run_invariant_along
    (fun _ _ _ inv quiet taken => exitInv_step inv quiet taken) (exitInv_new positive level)
    quietStop ran
  have drained := inv.drained (.inr exited)
  obtain ⟨written, _, _, _, accounts⟩ := run_accounts positive ran
  obtain ⟨accounts, accepted, output⟩ := accounts.of_drained drained exited
  refine ⟨drained.queue, drained.current, written, accounts, accepted, output, ?_⟩
  intro b member few
  rw [output]
  exact chunks_in_output member few [.flush]

/-- The destructor comes while `sync_thread` waits; one message is in the current buffer. -/
def sampleStop : List Label :=
  [.sync "", .sync "", .log .kInfo (some [1, 2]), .commit 0, .stop] ++
    List.replicate 9 (.sync "")

theorem sampleStop_drains :
    ∃ s, run AsyncLogger.step (AsyncLogger.new 8 .kInfo) sampleStop = .ok s ∧
      s.accepted = [[1, 2]] ∧ s.output = [.append [1, 2], .flush, .flush] ∧ s.buffers = [] ∧
      (∃ b, s.currentBuffer = some b ∧ b.contents = []) ∧
      ∃ written : List Batch,
        Accounts (trail AsyncLogger.step (AsyncLogger.new 8 .kInfo) sampleStop) s written none [] [] ∧
        s.output = written.flatMap Batch.emission ++ [.flush] := by
  have evaluated : ((run AsyncLogger.step (AsyncLogger.new 8 .kInfo) sampleStop).toOption.any
      fun s => decide (s.pc = .done ∧ s.accepted = [[1, 2]] ∧
        s.output = [.append [1, 2], .flush, .flush])) = true := by decide +kernel
  cases ran : run AsyncLogger.step (AsyncLogger.new 8 .kInfo) sampleStop with
  | error f => simp [ran, Except.toOption] at evaluated
  | ok s =>
    simp only [ran, Except.toOption, Option.any_some, decide_eq_true_eq] at evaluated
    obtain ⟨queue, current, written, accounts, _, output, _⟩ :=
      shutdown_drains (by decide) .kInfo (by decide +kernel) ran evaluated.1
    exact ⟨s, rfl, evaluated.2.1, evaluated.2.2, queue, current, written, accounts, output⟩

end

end Clia.Log
