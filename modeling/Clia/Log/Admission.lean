import Clia.Log.Delivery

/-!
# Which messages the logger can take

Three comparisons meet in `log`: the filter lets a message of up to `max_size()` bytes through, the
current buffer takes it if `avail()` is greater, and `append` demands that it is less than
`avail()`. They disagree for a message as long as a buffer: no buffer has more than `max_size()`
bytes free, so it rotates and does not fit the empty buffer either.

## Main result

`appends_fit_iff`: no `FixedBuffer` assertion fails in exactly the runs in which no message of
`max_size()` bytes comes to the lock.
-/

namespace Clia.Log

open Container LabelledRun

variable {Nm : Nat}

namespace AsyncLogger

/-- The buffer that the critical section of `log` calls `append` on. -/
def appendTarget (s : AsyncLogger Nm) (message : Message) : BufferPtr Nm :=
  if s.currentBuffer.any (fun current => toSizeT current.avail > message.length) = true then
    s.currentBuffer
  else if s.nextBuffer.isSome then s.nextBuffer else newBuffer Nm

end AsyncLogger

/-- The `append` of the step is called with `len < avail()`, and the step fails no assertion. -/
def AppendsFit (s : AsyncLogger Nm) (label : Label) : Prop :=
  (∀ i message, label = .commit i → s.inFlight[i]? = some message →
    ∃ b, s.appendTarget message = some b ∧ message.length < toSizeT b.avail) ∧
  ∀ site, s.step label ≠ .error (.assertion site)

/-- The message that comes to the lock is not as long as a buffer. -/
def NotFullLength (s : AsyncLogger Nm) (label : Label) : Prop :=
  match label with
  | .commit i => s.inFlight[i]?.all (fun message => message.length ≠ Nm) = true
  | _ => True

instance (s : AsyncLogger Nm) (label : Label) : Decidable (NotFullLength s label) := by
  unfold NotFullLength
  split <;> infer_instance

/-! ### The invariant -/

/-- The logger is in order, and what has passed the filter is no longer than a buffer. -/
structure Admitted (s : AsyncLogger Nm) : Prop where
  represents : ∃ l, Represents s l
  bounded : ∀ m ∈ s.inFlight, m.length ≤ Nm

section

variable {s t : AsyncLogger Nm}

theorem admitted_new (positive : 0 < Nm) (level : Level) : Admitted (AsyncLogger.new Nm level) := by
  constructor
  · exact ⟨_, represents_new positive level⟩
  · intro m member
    cases member

theorem admits_bounded {level : Level} {message : Option Message} {m : Message}
    (admitted : s.admits level message = some m) : m.length ≤ Nm := by
  unfold AsyncLogger.admits at admitted
  split at admitted
  next => cases admitted
  next message =>
    split at admitted
    next => cases admitted
    next passed =>
      cases admitted
      simp only [not_or] at passed
      exact Nat.le_of_not_lt passed.2.2.1

theorem step_admitted {label : Label} (admitted : Admitted s) (taken : s.step label = .ok t) :
    Admitted t := by
  obtain ⟨l, rep⟩ := admitted.represents
  apply Admitted.mk (step_represents rep taken)
  intro m member
  rcases AsyncLogger.step_inFlight taken with
    ⟨level, message, m', _, passed, grown⟩ | ⟨i, fewer⟩ | same
  · rw [grown] at member
    rcases List.mem_append.mp member with member | member
    · exact admitted.bounded m member
    · rw [List.mem_singleton.mp member]
      exact admits_bounded passed
  · rw [fewer] at member
    exact admitted.bounded m (List.mem_of_mem_eraseIdx member)
  · rw [same] at member
    exact admitted.bounded m member

/-! ### One `append` -/

/-- A message shorter than a buffer fits the buffer that is chosen for it. -/
theorem appendTarget_fits {l : Ledger} (rep : Represents s l) {m : Message} (short : m.length < Nm) :
    ∃ b, s.appendTarget m = some b ∧ m.length < toSizeT b.avail := by
  obtain ⟨current, current_eq, _, inside⟩ := rep.current.contents
  by_cases room : toSizeT current.avail > m.length
  · have chosen : s.appendTarget m = some current := by
      rw [AsyncLogger.appendTarget, if_pos (by simp [current_eq, room]), current_eq]
    exact ⟨current, chosen, room⟩
  · obtain ⟨fresh, fresh_eq, contents, _⟩ := rep.fresh_empty.contents
    have empty : fresh.cur = 0 := by
      rw [← fresh.contents_length, contents]
      rfl
    have chosen : s.appendTarget m = some fresh := by
      rw [AsyncLogger.appendTarget, if_neg (by simpa [current_eq] using room), fresh_eq]
    apply Exists.intro fresh
    apply And.intro chosen
    rw [FixedBuffer.avail_size (by omega)]
    omega

/-- A message as long as a buffer rotates, and the first assertion of `append` fails on the empty
buffer. -/
theorem commit_fullLength {l : Ledger} (rep : Represents s l) {m : Message} (full : m.length = Nm) :
    s.commit m = .error (.assertion .lenBelowAvail) := by
  obtain ⟨current, current_eq, _, inside⟩ := rep.current.contents
  obtain ⟨fresh, fresh_eq, contents, below⟩ := rep.fresh_empty.contents
  have no_room : ¬toSizeT current.avail > m.length := by
    rw [FixedBuffer.avail_size (Nat.le_of_lt inside)]
    omega
  have refused := FixedBuffer.append_full fresh m (Nat.le_of_lt below) (by omega)
  simp only [AsyncLogger.commit, current_eq, deref, Checked.ok_bind, if_neg no_room]
  rw [fresh_eq]
  simp only [Checked.ok_bind, refused, Checked.error_bind]

theorem appendsFit_iff (admitted : Admitted s) (label : Label) :
    AppendsFit s label ↔ NotFullLength s label := by
  obtain ⟨l, rep⟩ := admitted.represents
  constructor
  · intro fit
    cases label with
    | commit i =>
      simp only [NotFullLength, Option.all_eq_true, decide_eq_true_eq]
      intro m found full
      have rep' : Represents { s with inFlight := s.inFlight.eraseIdx i } l :=
        { rep with
          inFlight := fun m' member => rep.inFlight m' (List.mem_of_mem_eraseIdx member)
          sync := rep.sync }
      apply fit.2 .lenBelowAvail
      simp only [AsyncLogger.step, found]
      exact commit_fullLength rep' full
    | _ => trivial
  · intro below
    have short : ∀ i m, label = .commit i → s.inFlight[i]? = some m → m.length < Nm := by
      intro i m commits found
      have bounded := admitted.bounded m (List.mem_of_getElem? found)
      subst commits
      simp only [NotFullLength, found, Option.all_some, decide_eq_true_eq] at below
      omega
    constructor
    · intro i m commits found
      exact appendTarget_fits rep (short i m commits found)
    · intro site failed
      cases step_fault rep short failed

end

/-- **Admission**: over every interleaving of `log` calls with `sync_thread`, both `append` calls of
`log` are made with `len < avail()` and no assertion fails, in exactly the runs in which no message
of `max_size()` bytes comes to the lock. -/
theorem appends_fit_iff (positive : 0 < Nm) (level : Level) (labels : List Label) :
    Along AsyncLogger.step AppendsFit (AsyncLogger.new Nm level) labels ↔
      Along AsyncLogger.step NotFullLength (AsyncLogger.new Nm level) labels := by
  apply along_iff Admitted _ _ (admitted_new positive level)
  · intro s label t admitted _ taken
    exact step_admitted admitted taken
  · intro s label admitted
    exact appendsFit_iff admitted label

/-- Buffers of eight bytes, with a message of seven. -/
theorem sevenBytes_fit :
    Along AsyncLogger.step AppendsFit (AsyncLogger.new 8 .kInfo)
      [.log .kInfo (some [1, 2, 3, 4, 5, 6, 7]), .commit 0, .sync "", .log .kInfo (some [8]),
        .commit 0] := by
  apply (appends_fit_iff (by decide) .kInfo _).mpr
  decide +kernel

/-- The filter lets a message as long as a buffer through, and the logger aborts on it. -/
theorem fullLength_aborts (positive : 0 < Nm) (level : Level) {message : Message}
    (full : message.length = Nm) :
    ¬Along AsyncLogger.step AppendsFit (AsyncLogger.new Nm level)
      [.log level (some message), .commit 0] := by
  rintro ⟨_, later⟩
  have passes : (AsyncLogger.new Nm level).admits level (some message) = some message := by
    simp [AsyncLogger.admits, AsyncLogger.new, full, Nat.ne_of_gt positive]
  have taken : (AsyncLogger.new Nm level).step (.log level (some message)) =
      .ok { AsyncLogger.new Nm level with inFlight := [message] } := by
    simp only [AsyncLogger.step, passes]
    rfl
  have admitted := step_admitted (admitted_new positive level) taken
  have refused := (appendsFit_iff admitted (.commit 0)).mp (later _ taken).1
  simp [NotFullLength, full] at refused

/-- A message of 4 MiB to a logger with the buffers of the source. -/
theorem fourMebibytes_abort :
    ¬Along AsyncLogger.step AppendsFit (AsyncLogger.new kBufferSize .kInfo)
      [.log .kInfo (some (List.replicate kBufferSize 0)), .commit 0] := by
  apply fullLength_aborts
  · decide
  · exact List.length_replicate

end Clia.Log
