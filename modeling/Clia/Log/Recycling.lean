import Clia.Log.Delivery

/-!
# The buffers of `sync_thread`

`sync_thread` gives its two spare buffers away when it takes a batch and gets them back from the
batch it has written: one always, the second one if `next_buffer_` had been used up. In that case
a buffer was queued beside the current one, so that the batch has two, and the overflow branch
keeps two.

Nothing is assumed of the messages. One that is as long as a buffer fails an assertion of
`FixedBuffer::append` inside `log`, where the run ends; up to there `sync_thread` is not disturbed.
-/

namespace Clia.Log

open Container LabelledRun

variable {Nm : Nat}

/-- `sync_thread` is at the head of its loop: at one of the two halves of the condition, or at the
assertions of lines 60 to 62. -/
def Pc.atHead : Pc → Bool
  | .testRunning => true
  | .testSize => true
  | .lock => true
  | _ => false

/-- The pointer is to a buffer without bytes. -/
def IsEmptyBuffer (ptr : BufferPtr Nm) : Prop := ∃ b, ptr = some b ∧ b.size = 0

instance (ptr : BufferPtr Nm) : Decidable (IsEmptyBuffer ptr) :=
  decidable_of_iff (ptr.any (fun b => b.size == 0) = true) (by
    cases ptr <;> simp [IsEmptyBuffer])

private theorem Holds.isEmptyBuffer {ptr : BufferPtr Nm} (empty : Holds ptr []) :
    IsEmptyBuffer ptr := by
  obtain ⟨b, rfl, _⟩ := empty.contents
  exact ⟨b, rfl, empty.size_eq_zero.mpr rfl⟩

/-- At the head of the loop `sync_thread` is between two batches. -/
private theorem Represents.idle_at_head {s : AsyncLogger Nm} {l : Ledger} (rep : Represents s l)
    (head : s.pc.atHead = true) : Idle s.newBuffer1 s.newBuffer2 s.writeBuffers := by
  have sync := rep.sync
  unfold SyncInv at sync
  cases here : s.pc with
  | testRunning =>
    rw [here] at sync
    exact sync.1
  | testSize =>
    rw [here] at sync
    exact sync.1
  | lock =>
    rw [here] at sync
    exact sync.1
  | _ => simp [here, Pc.atHead] at head

/-- **Recycling**: in every state that an interleaving of `log` calls with `sync_thread` reaches,
`current_buffer_` is there; at the head of the loop both spare buffers are there and empty, and
the batch is empty; and until `sync_thread` has returned, its next step fails no assertion. -/
theorem buffers_never_run_dry (positive : 0 < Nm) (level : Level) (labels : List Label)
    (s : AsyncLogger Nm) (ran : run AsyncLogger.step (AsyncLogger.new Nm level) labels = .ok s) :
    s.currentBuffer ≠ none ∧
    (s.pc.atHead = true →
      IsEmptyBuffer s.newBuffer1 ∧ IsEmptyBuffer s.newBuffer2 ∧ s.writeBuffers = []) ∧
    (s.pc ≠ .done → ∀ time, ∃ t, s.step (.sync time) = .ok t) := by
  obtain ⟨l, rep⟩ := run_represents positive ran
  constructor
  · exact rep.current.isSome
  constructor
  · intro head
    have idle := rep.idle_at_head head
    exact ⟨idle.one.isEmptyBuffer, idle.two.isEmptyBuffer, idle.noBatch⟩
  · intro inside time
    obtain ⟨t, _, ok, _⟩ := syncThread_spec time rep inside
    exact ⟨t, ok⟩

/-- The current buffer is full and the spare one used up when `sync_thread` takes the batch; its
round ends at the head of the loop. -/
def recycleLabels : List Label :=
  [.log .kInfo (some [1, 2, 3]), .commit 0, .log .kInfo (some [4, 5, 6]), .commit 0,
    .sync "", .sync "", .sync "", .sync "", .sync "", .sync "", .sync "", .sync ""]

theorem recycleLabels_refill :
    ∃ s, run AsyncLogger.step (AsyncLogger.new 5 .kInfo) recycleLabels = .ok s ∧
      s.pc.atHead = true ∧ IsEmptyBuffer s.newBuffer1 ∧ IsEmptyBuffer s.newBuffer2 ∧
      s.writeBuffers = [] := by
  have evaluated : (run AsyncLogger.step (AsyncLogger.new 5 .kInfo) recycleLabels).toOption.map
      (fun s => s.pc.atHead) = some true := by
    decide +kernel
  cases ran : run AsyncLogger.step (AsyncLogger.new 5 .kInfo) recycleLabels with
  | error f =>
    rw [ran] at evaluated
    cases evaluated
  | ok s =>
    rw [ran] at evaluated
    have head : s.pc.atHead = true := Option.some.inj evaluated
    have dry := buffers_never_run_dry (show 0 < 5 by decide) .kInfo recycleLabels s ran
    exact ⟨s, rfl, head, dry.2.1 head⟩

end Clia.Log
