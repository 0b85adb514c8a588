import Clia.Library.CString
import Clia.Library.Pieces
import Clia.Log.AsyncLogger
import Clia.Log.Rolling

/-!
# The files behind the streams

`log/file_appender.cc` writes to streams with a buffer of their own (`std::setvbuf`), so what
`fwrite_unlocked` has taken need not have left the process. It leaves with `std::fflush`, which
`flush` calls on the current stream and `roll_file` on the one it closes, and at any time before if
the buffer is full. `stderr`, which stands in for a file that cannot be opened, has no buffer.

The bytes a file has got are what is left of the log if the process dies.
-/

namespace Clia.Log

open LabelledRun Pieces

/-- What the system calls of one call of the appender return. `flushes` says that `std::fflush`
succeeds; `spilled` is how much of the current stream has left its buffer without it. -/
structure Io where
  times : Readings
  results : List FwriteResult
  opens : Bool
  flushes : Bool
  spilled : Nat
  deriving DecidableEq, Repr

/-- The `append` with these results. -/
def Io.call (io : Io) (data : List UInt8) : AppendCall := ⟨some data, io.times, io.results, io.opens⟩

/-- The appender with its files. `handed` are the bytes of the current stream that its file has got,
`files` what the files of the streams before it had got when they were closed. -/
structure FileLog where
  rolling : Rolling
  handed : Nat
  files : List (List UInt8)
  deriving DecidableEq, Repr

namespace FileLog

/-! ### The functions of the source -/

/-- How much the file of a stream has after `fwrite_unlocked`. -/
def spill (st : Stream) (handed : Nat) (io : Io) : Nat :=
  if st.opened then max handed (min io.spilled st.bytes.length) else st.bytes.length

/-- How much it has after `std::fflush`. -/
def handOver (st : Stream) (handed : Nat) (io : Io) : Nat :=
  if io.flushes then st.bytes.length else spill st handed io

/-- What the current file is left with if `roll_file` closes it. -/
def closing (f : FileLog) (io : Io) : List UInt8 :=
  f.rolling.file.elim [] fun st => st.bytes.take (handOver st f.handed io)

def append (c : RollPolicy) (io : Io) (f : FileLog) (data : List UInt8) : Except Fault FileLog := do
  let rolling ← f.rolling.append c (io.call data)
  -- One stream more is closed if there was a roll.
  let rolls := f.rolling.closed.length < rolling.closed.length
  return {
    rolling := rolling
    handed := rolling.file.elim 0 fun st => spill st (if rolls then 0 else f.handed) io
    files := if rolls then f.files ++ [f.closing io] else f.files }

def flush (io : Io) (f : FileLog) : FileLog :=
  { f with handed := f.rolling.file.elim f.handed fun st => handOver st f.handed io }

/-- A call of the logger. A drop notice is an `append` of its text. -/
def perform (c : RollPolicy) (io : Io) (f : FileLog) : AppenderCall → Except Fault FileLog
  | .append chunk => f.append c io chunk
  | .notice text _ => f.append c io (CString.ascii text)
  | .flush => .ok (f.flush io)

/-- The constructor leaves an empty stream, or none. -/
def start (rolling : Rolling) : FileLog := ⟨rolling, 0, []⟩

/-- What the files have got, in opening order. -/
def disk (f : FileLog) : List (List UInt8) :=
  f.files ++ f.rolling.file.toList.map fun st => st.bytes.take f.handed

end FileLog

/-- The bytes that a call of the logger appends. -/
def AppenderCall.data : AppenderCall → Option (List UInt8)
  | .append chunk => some chunk
  | .notice text _ => some (CString.ascii text)
  | .flush => none

/-- All that was appended, call by call. -/
def piecesOf (output : List AppenderCall) : List (List UInt8) := output.filterMap AppenderCall.data

/-! ### What an append does to the streams -/

/-- With a stream open, the bytes go behind those in it, or into a new stream. -/
theorem Rolling.append_streams {c : RollPolicy} {s u : Rolling} {call : AppendCall} {st : Stream}
    (clean : ∀ r ∈ call.results, r.error = false) (current : s.file = some st)
    (ok : s.append c call = .ok u) :
    u.appended = s.appended ++ [call.data.getD []] ∧ ∃ st', u.file = some st' ∧
      ((u.closed = s.closed ∧ st'.opened = st.opened ∧ st'.bytes = st.bytes ++ call.data.getD []) ∨
        (u.closed = s.closed ++ [st] ∧ st'.bytes = call.data.getD [])) := by
  obtain ⟨_, ⟨empty, rfl⟩ | ⟨_, m, mid, new, w, decided, there, rfl, _, complete⟩⟩ := append_cases ok
  · rw [empty]
    exact ⟨rfl, st, current, Or.inl ⟨rfl, rfl, (List.append_nil _).symm⟩⟩
  · obtain ⟨_, written⟩ := complete clean
    have bytes : Stream.bytes
        { mid with chunks := mid.chunks ++ new, begun := mid.begun ++ [call.times.start] } =
        mid.bytes ++ call.data.getD [] := by
      rw [← written]
      exact List.flatMap_append
    rcases rollIfDue_rolls decided with ⟨_, count, rfl⟩ | ⟨_, _, count, rfl⟩
    · -- no roll: the stream is the one before
      obtain rfl : mid = st := Option.some.inj (there.symm.trans current)
      exact ⟨rfl, _, rfl, Or.inl ⟨rfl, rfl, bytes⟩⟩
    · have fresh : mid = newStream c call.times call.opens := (Option.some.inj there).symm
      have nothing : mid.bytes = [] := by rw [fresh]; rfl
      rw [nothing, List.nil_append] at bytes
      exact ⟨rfl, _, rfl, Or.inr ⟨streams_some current, bytes⟩⟩

/-! ### The invariant -/

namespace FileLog

/-- Closed files are complete, the current one has a first part of its stream, and the appended
pieces lie in the streams one behind the other, none in two of them. -/
structure Sound (c : RollPolicy) (f : FileLog) : Prop where
  kept : f.rolling.Kept c
  cut : Cut (f.rolling.streams.map Stream.bytes) f.rolling.appended
  closed : f.files = f.rolling.closed.map Stream.bytes
  current : ∃ st, f.rolling.file = some st ∧ f.handed ≤ st.bytes.length ∧
    (st.opened = false → f.handed = st.bytes.length)

/-- The clock has not gone back, `fwrite_unlocked` raises no error and takes a byte at least until
all is written, and `std::fflush` succeeds. -/
def Benign (f : FileLog) (io : Io) (data : List UInt8) : Prop :=
  f.rolling.Benign (io.call data) ∧ io.flushes = true

instance (f : FileLog) (io : Io) (data : List UInt8) : Decidable (f.Benign io data) :=
  inferInstanceAs (Decidable (_ ∧ _))

section

variable {c : RollPolicy} {f g : FileLog} {io : Io} {data : List UInt8}

theorem spill_le {st : Stream} {handed : Nat} (below : handed ≤ st.bytes.length) (io : Io) :
    spill st handed io ≤ st.bytes.length := by
  unfold spill
  split <;> omega

theorem le_spill {st : Stream} {handed : Nat} (below : handed ≤ st.bytes.length) (io : Io) :
    handed ≤ spill st handed io := by
  unfold spill
  split <;> omega

theorem spill_unopened {st : Stream} (unopened : st.opened = false) (handed : Nat) (io : Io) :
    spill st handed io = st.bytes.length := by
  simp [spill, unopened]

theorem handOver_flushes (flushes : io.flushes = true) (st : Stream) (handed : Nat) :
    handOver st handed io = st.bytes.length := if_pos flushes

/-- How the files are left by a call that returned. -/
theorem append_disk (sound : f.Sound c) (benign : f.Benign io data)
    (ok : f.append c io data = .ok g) :
    g.Sound c ∧ g.rolling.appended = f.rolling.appended ++ [data] ∧
      f.disk.flatten.length ≤ g.disk.flatten.length := by
  obtain ⟨rolling, appended_ok, same⟩ := Checked.bind_ok_iff.mp ok
  obtain rfl := Except.ok.inj same
  have clean : ∀ r ∈ (io.call data).results, r.error = false :=
    fun r member => (benign.1.2.2 r member).1
  obtain ⟨st, current, below, unopened⟩ := sound.current
  obtain ⟨appended, st', current', ways⟩ := Rolling.append_streams clean current appended_ok
  have kept : rolling.Kept c := sound.kept.append clean appended_ok
  have cut := sound.cut
  rw [Rolling.streams_some current, List.map_append, List.map_singleton] at cut
  have disk_eq : f.disk = f.rolling.closed.map Stream.bytes ++ [st.bytes.take f.handed] := by
    rw [disk, current, sound.closed]
    rfl
  have streams := Rolling.streams_some current'
  rcases ways with ⟨closed, kind, bytes⟩ | ⟨closed, bytes⟩
  · -- The stream goes on, and its file has at least what it had.
    have stays : ¬f.rolling.closed.length < rolling.closed.length := by simp [closed]
    have more : f.handed ≤ st'.bytes.length := by
      rw [bytes, List.length_append]
      omega
    simp only [if_neg stays, current', Option.elim_some]
    refine ⟨⟨kept, ?_, by rw [closed]; exact sound.closed, st', current', spill_le more io, fun no =>
      spill_unopened no _ _⟩, appended, ?_⟩
    · rw [streams, List.map_append, List.map_singleton, closed, appended, bytes]
      exact cut.push _
    · rw [disk_eq]
      simp only [disk, current', sound.closed, Option.toList_some, List.map_cons, List.map_nil,
        List.flatten_append, List.flatten_singleton, List.length_append, List.length_take]
      have grown := le_spill more io
      have bound := spill_le more io
      omega
  · -- The old file is complete, and the new one has what it has.
    have rolls : f.rolling.closed.length < rolling.closed.length := by simp [closed]
    simp only [if_pos rolls, current', Option.elim_some]
    have complete : f.closing io = st.bytes := by
      rw [closing, current, Option.elim_some, handOver_flushes benign.2, List.take_length]
    refine ⟨⟨kept, ?_, ?_, st', current', spill_le (Nat.zero_le _) io, fun no =>
      spill_unopened no _ _⟩, appended, ?_⟩
    · rw [streams, List.map_append, List.map_singleton, closed, appended, bytes, List.map_append,
        List.map_singleton]
      exact cut.opened.push _
    · rw [complete, closed, List.map_append, sound.closed]
      rfl
    · rw [disk_eq]
      simp only [disk, current', sound.closed, complete, Option.toList_some, List.map_cons,
        List.map_nil, List.flatten_append, List.flatten_singleton, List.length_append,
        List.length_take]
      omega

/-- With a stream open, a benign call returns. -/
theorem append_returns (sound : f.Sound c) (benign : f.Benign io data) :
    ∃ g, f.append c io data = .ok g := by
  obtain ⟨st, current, _⟩ := sound.current
  have ready : f.rolling.Ready c (io.call data) := by
    right
    left
    simp [current]
  obtain ⟨rolling, ok, _⟩ := (Rolling.bytesKept_iff sound.kept benign.1).mpr ready
  exact ⟨_, by rw [append, ok]; rfl⟩

/-- After a flush the files have everything. -/
theorem flush_disk (sound : f.Sound c) (flushes : io.flushes = true) :
    (f.flush io).Sound c ∧ (f.flush io).rolling = f.rolling ∧
      (f.flush io).disk = f.rolling.streams.map Stream.bytes := by
  obtain ⟨st, current, _, _⟩ := sound.current
  have all : (f.flush io).handed = st.bytes.length := by
    rw [flush, current, Option.elim_some, handOver_flushes flushes]
  refine ⟨⟨sound.kept, sound.cut, sound.closed, st, current, Nat.le_of_eq all, fun _ => all⟩, rfl, ?_⟩
  have same : (f.flush io).rolling.file = some st := current
  rw [disk, same, all, Rolling.streams_some current, List.map_append]
  simp [flush, sound.closed]

theorem sound_start {t : Readings} {opens : Bool} {rolling : Rolling}
    (constructed : Rolling.construct c t opens = .ok rolling) (clock : t.guard ≠ 0) :
    (start rolling).Sound c := by
  have kept := Rolling.kept_construct constructed
  rcases Rolling.construct_cases constructed with ⟨zero, _⟩ | ⟨_, _, rfl⟩
  · exact absurd zero clock
  · exact ⟨kept, Cut.nil.opened, rfl, _, rfl, Nat.zero_le _, fun _ => rfl⟩

end

end FileLog

end Clia.Log
