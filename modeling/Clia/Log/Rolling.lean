import Clia.Base
import Clia.Library.LabelledRun
import Clia.Log.FileAppender
import Mathlib.Data.Int.Basic

/-!
# Rolling log files

`log/file_appender.cc`: the bytes of an `append` go to the current stream. Before that a new stream
may take its place: if the old one has grown too large, or, on every `check_every_`-th of the other
calls, if the clock shows another period. Every `std::time` is a reading of its own, and the clock may
tick between any two of them.

`flush` moves bytes out of the buffer of a stream that are in the stream already, and what
`del_old_files` removes is no business of the streams, so both are left out here.

## Main result

`Rolling.bytes_kept_iff`: every byte is written once and in order, no append is split, and
`written_bytes_` counts the current stream, in exactly the runs in which no append comes before a
stream was opened.
-/

namespace Clia.Log

open LabelledRun

/-- The constants of an appender, with the time zone and the process it lives in. -/
structure RollPolicy where
  appender : FileAppender
  rollSizeByte : Nat
  rollPeriodSec : Int
  checkEvery : Int
  localtime : Int → Tm
  pid : Nat

/-- `now / roll_period_sec_ * roll_period_sec_`. -/
def RollPolicy.periodOf (c : RollPolicy) (now : Int) : Int :=
  now.tdiv c.rollPeriodSec * c.rollPeriodSec

/-- What one `fwrite_unlocked` returns, and whether `std::ferror` says so after it. -/
structure FwriteResult where
  count : Nat
  error : Bool
  deriving DecidableEq, Repr

/-- The readings of the clock that a call may take, in this order: in the period check of
`append_unlocked`, in `roll_file`, in `get_logfilename` and in `del_old_files`. `start` is the second
in which the call begins. -/
structure Readings where
  start : Int
  check : Int
  guard : Int
  name : Int
  old : Int
  ordered : start ≤ check ∧ check ≤ guard ∧ guard ≤ name ∧ name ≤ old
  deriving DecidableEq, Repr

/-- All readings in one second. -/
def Readings.at (now : Int) : Readings :=
  ⟨now, now, now, now, now, Int.le_refl _, Int.le_refl _, Int.le_refl _, Int.le_refl _⟩

/-- A stream with what was written to it: the bytes of each `fwrite_unlocked`, with the number of
the append they are from. If `opened` is false, it is `stderr` (`stdout` with `NDEBUG`). `begun` are
the seconds in which the appends to it began. -/
structure Stream where
  name : List UInt8
  opened : Bool
  rolledAt : Int
  namedAt : Int
  period : Int
  chunks : List (Nat × List UInt8)
  begun : List Int
  deriving DecidableEq, Repr

namespace Stream

def bytes (st : Stream) : List UInt8 := st.chunks.flatMap Prod.snd

/-- The appends that have written to the stream. -/
def appends (st : Stream) : List Nat := st.chunks.map Prod.fst

end Stream

/-- The members that change. `closed` are the streams before the current one, `appended` the buffers
of all calls, and `now` is the last reading of the clock. -/
structure Rolling where
  count : Int
  lastRollTime : Int
  thisRollPeriod : Int
  writtenBytes : Nat
  file : Option Stream
  closed : List Stream
  appended : List (List UInt8)
  now : Int
  deriving DecidableEq, Repr

/-- An `append`, with what its system calls return. `opens` says that `std::fopen` succeeds. -/
structure AppendCall where
  data : Option (List UInt8)
  times : Readings
  results : List FwriteResult
  opens : Bool
  deriving DecidableEq, Repr

namespace Rolling

/-- The streams in opening order. -/
def streams (s : Rolling) : List Stream := s.closed ++ s.file.toList

/-! ### The functions of the source -/

/-- The stream that `roll_file` opens, or `stderr` in its place. -/
def newStream (c : RollPolicy) (t : Readings) (opens : Bool) : Stream where
  name := c.appender.getLogfilename (c.localtime t.name) c.pid
  opened := opens
  rolledAt := t.guard
  namedAt := t.name
  period := c.periodOf t.guard
  chunks := []
  begun := []

/-- `roll_file` behind its guard. -/
def rolled (c : RollPolicy) (s : Rolling) (t : Readings) (opens : Bool) : Rolling :=
  { s with
    lastRollTime := t.guard
    thisRollPeriod := c.periodOf t.guard
    writtenBytes := 0
    closed := s.streams
    file := some (newStream c t opens) }

def rollFile (c : RollPolicy) (s : Rolling) (t : Readings) (opens : Bool) :
    Except Fault Rolling := do
  if s.lastRollTime ≠ t.guard then
    Checked.require (c.rollPeriodSec ≠ 0) Fault.divideByZero
    return s.rolled c t opens
  else return s

/-- The first part of `append_unlocked`. -/
def rollIfDue (c : RollPolicy) (s : Rolling) (t : Readings) (opens : Bool) :
    Except Fault Rolling := do
  if s.writtenBytes > c.rollSizeByte then s.rollFile c t opens
  else
    let s := { s with count := s.count + 1 }
    if s.count ≥ c.checkEvery then
      let s := { s with count := 0 }
      Checked.require (c.rollPeriodSec ≠ 0) Fault.divideByZero
      if c.periodOf t.check ≠ s.thisRollPeriod then s.rollFile c t opens else return s
    else return s

/-- The loop over `fwrite_unlocked`, for append number `i` and the bytes `rest` that are left. A call
with too few results is no call. -/
def writeLoop (i : Nat) (rest : List UInt8) (results : List FwriteResult) (written : Nat)
    (st : Stream) : Except Fault (Nat × Stream) :=
  if rest = [] then .ok (written, st)
  else
    match results with
    | [] => .error .disabled
    | r :: results =>
      let n := min r.count rest.length
      let st := { st with chunks := st.chunks ++ [(i, rest.take n)] }
      -- After an error the loop is left, and `written` has not counted these bytes.
      if n ≠ rest.length ∧ r.error = true then .ok (written, st)
      else writeLoop i (rest.drop n) results (written + n) st

def appendUnlocked (c : RollPolicy) (s : Rolling) (buf : List UInt8) (call : AppendCall) :
    Except Fault Rolling := do
  let s ← s.rollIfDue c call.times call.opens
  match s.file with
  | none => .error .nullDereference
  | some st =>
    let begun := { st with begun := st.begun ++ [call.times.start] }
    let (written, st) ← writeLoop s.appended.length buf call.results 0 begun
    return { s with file := some st, writtenBytes := s.writtenBytes + written }

/-- `append`, for a buffer that may be a null pointer. The clock does not go back. -/
def append (c : RollPolicy) (s : Rolling) (call : AppendCall) : Except Fault Rolling := do
  Checked.require (s.now ≤ call.times.start) Fault.disabled
  let buf := call.data.getD []
  let written ← (if buf.length = 0 then .ok s else s.appendUnlocked c buf call)
  return { written with appended := written.appended ++ [buf], now := call.times.old }

/-- The constructor. -/
def construct (c : RollPolicy) (t : Readings) (opens : Bool) : Except Fault Rolling := do
  let s : Rolling :=
    { count := 0
      lastRollTime := 0
      thisRollPeriod := 0
      writtenBytes := 0
      file := none
      closed := []
      appended := []
      now := t.start }
  let s ← s.rollFile c t opens
  return { s with now := t.old }

/-! ### The write loop -/

/-- What the loop has written is of its own append. Without a stream error it is all of the rest. -/
theorem writeLoop_spec {i : Nat} {rest : List UInt8} {results : List FwriteResult}
    {written w : Nat} {st st' : Stream} (ok : writeLoop i rest results written st = .ok (w, st')) :
    ∃ new : List (Nat × List UInt8), st' = { st with chunks := st.chunks ++ new } ∧
      (∀ chunk ∈ new, chunk.1 = i) ∧
      ((∀ r ∈ results, r.error = false) →
        w = written + rest.length ∧ new.flatMap Prod.snd = rest) := by
  induction results generalizing rest written st with
  | nil =>
    unfold writeLoop at ok
    split at ok
    next none =>
      cases ok
      exact ⟨[], by simp, by simp, by simp [none]⟩
    next => cases ok
  | cons r results ih =>
    unfold writeLoop at ok
    split at ok
    next none =>
      cases ok
      exact ⟨[], by simp, by simp, by simp [none]⟩
    next =>
      simp only at ok
      split at ok
      next failed =>
        -- The loop is left.
        cases ok
        refine ⟨[(i, rest.take (min r.count rest.length))], rfl, by simp, ?_⟩
        intro clean
        rw [clean r (by simp)] at failed
        cases failed.2
      next =>
        obtain ⟨new, rfl, own, complete⟩ := ih ok
        refine ⟨(i, rest.take (min r.count rest.length)) :: new, by simp, ?_, ?_⟩
        · intro chunk member
          rcases List.mem_cons.mp member with rfl | member
          · rfl
          · exact own chunk member
        · intro clean
          obtain ⟨total, bytes⟩ := complete (fun r' member => clean r' (by simp [member]))
          rw [List.length_drop] at total
          constructor
          · omega
          · rw [List.flatMap_cons, bytes, List.take_append_drop]

/-- Each result stores a byte at least, so as many results as there are bytes are enough. -/
theorem writeLoop_total {i : Nat} {rest : List UInt8} {results : List FwriteResult} (written : Nat)
    (st : Stream) (progress : ∀ r ∈ results, 1 ≤ r.count) (enough : rest.length ≤ results.length) :
    ∃ w st', writeLoop i rest results written st = .ok (w, st') := by
  induction results generalizing rest written st with
  | nil =>
    have none : rest = [] := List.eq_nil_of_length_eq_zero (Nat.le_zero.mp enough)
    exact ⟨written, st, by simp [writeLoop, none]⟩
  | cons r results ih =>
    unfold writeLoop
    split
    next => exact ⟨_, _, rfl⟩
    next some_left =>
      simp only
      split
      next => exact ⟨_, _, rfl⟩
      next =>
        apply ih
        · exact fun r' member => progress r' (by simp [member])
        · have positive := progress r (by simp)
          have length := List.length_pos_iff.mpr some_left
          simp only [List.length_cons] at enough
          rw [List.length_drop]
          omega

/-! ### What a roll and a call can do -/

/-- The call makes an effective roll: its clock is not in the second of the last one, and the stream
is too large, or the count is full and the clock in another period. -/
def WillRoll (c : RollPolicy) (s : Rolling) (t : Readings) : Prop :=
  s.lastRollTime ≠ t.guard ∧
    (c.rollSizeByte < s.writtenBytes ∨
      c.checkEvery ≤ s.count + 1 ∧ c.periodOf t.check ≠ s.thisRollPeriod)

instance (c : RollPolicy) (s : Rolling) (t : Readings) : Decidable (s.WillRoll c t) := by
  unfold WillRoll
  infer_instance

section

variable {c : RollPolicy} {s m : Rolling} {t : Readings} {opens : Bool}

theorem rollFile_cases (ok : s.rollFile c t opens = .ok m) :
    (s.lastRollTime = t.guard ∧ m = s) ∨
      (s.lastRollTime ≠ t.guard ∧ c.rollPeriodSec ≠ 0 ∧ m = s.rolled c t opens) := by
  unfold rollFile at ok
  split at ok
  next other =>
    right
    obtain ⟨_, nonzero, ok⟩ := Checked.bind_ok_iff.mp ok
    exact ⟨other, Checked.require_ok_iff.mp nonzero, (Except.ok.inj ok).symm⟩
  next same =>
    left
    exact ⟨not_not.mp same, (Except.ok.inj ok).symm⟩

/-- The ways through the first part of `append_unlocked`: the stream is too large, or the call is
counted, and the period is looked at when the count is full. -/
theorem rollIfDue_cases (ok : s.rollIfDue c t opens = .ok m) :
    (c.rollSizeByte < s.writtenBytes ∧ s.rollFile c t opens = .ok m) ∨
    (s.writtenBytes ≤ c.rollSizeByte ∧ s.count + 1 < c.checkEvery ∧
      m = { s with count := s.count + 1 }) ∨
    (s.writtenBytes ≤ c.rollSizeByte ∧ c.checkEvery ≤ s.count + 1 ∧
      ((c.periodOf t.check = s.thisRollPeriod ∧ m = { s with count := 0 }) ∨
        (c.periodOf t.check ≠ s.thisRollPeriod ∧
          rollFile c { s with count := 0 } t opens = .ok m))) := by
  unfold rollIfDue at ok
  split at ok
  next large => exact Or.inl ⟨large, ok⟩
  next small =>
    right
    simp only at ok
    split at ok
    next due =>
      right
      obtain ⟨_, _, ok⟩ := Checked.bind_ok_iff.mp ok
      refine ⟨Nat.le_of_not_lt small, due, ?_⟩
      split at ok
      next other => exact Or.inr ⟨other, ok⟩
      next same => exact Or.inl ⟨not_not.mp same, (Except.ok.inj ok).symm⟩
    next counted =>
      left
      exact ⟨Nat.le_of_not_lt small, Int.not_le.mp counted, (Except.ok.inj ok).symm⟩

/-- In all of them the streams are left as they are, or an effective roll has begun a new one. -/
theorem rollIfDue_rolls (ok : s.rollIfDue c t opens = .ok m) :
    (¬s.WillRoll c t ∧ ∃ count, m = { s with count := count }) ∨
      (s.WillRoll c t ∧ c.rollPeriodSec ≠ 0 ∧
        ∃ count, m = { s.rolled c t opens with count := count }) := by
  -- The two ways into `roll_file` differ in what the size and the count say.
  have roll : ∀ count, rollFile c { s with count := count } t opens = .ok m →
      (c.rollSizeByte < s.writtenBytes ∨
        c.checkEvery ≤ s.count + 1 ∧ c.periodOf t.check ≠ s.thisRollPeriod) →
      (¬s.WillRoll c t ∧ ∃ count, m = { s with count := count }) ∨
        (s.WillRoll c t ∧ c.rollPeriodSec ≠ 0 ∧
          ∃ count, m = { s.rolled c t opens with count := count }) := by
    intro count called due
    rcases rollFile_cases called with ⟨same, rfl⟩ | ⟨other, nonzero, rfl⟩
    · exact Or.inl ⟨fun will => will.1 same, count, rfl⟩
    · exact Or.inr ⟨⟨other, due⟩, nonzero, count, rfl⟩
  rcases rollIfDue_cases ok with ⟨large, called⟩ | ⟨small, early, rfl⟩ |
    ⟨small, due, ⟨same, rfl⟩ | ⟨other, called⟩⟩
  · exact roll s.count called (Or.inl large)
  · left
    refine ⟨?_, _, rfl⟩
    rintro ⟨_, large | ⟨due, _⟩⟩ <;> omega
  · left
    refine ⟨?_, _, rfl⟩
    rintro ⟨_, large | ⟨_, other⟩⟩
    · omega
    · exact other same
  · exact roll 0 called (Or.inr ⟨due, other⟩)

end

/-- The state after a call has written `new` chunks to the stream `st`, and counted `w` bytes. -/
def wrote (m : Rolling) (st : Stream) (new : List (Nat × List UInt8)) (w : Nat)
    (buf : List UInt8) (t : Readings) : Rolling :=
  { m with
    file := some { st with chunks := st.chunks ++ new, begun := st.begun ++ [t.start] }
    writtenBytes := m.writtenBytes + w
    appended := m.appended ++ [buf]
    now := t.old }

theorem append_cases {c : RollPolicy} {s u : Rolling} {call : AppendCall}
    (ok : s.append c call = .ok u) :
    s.now ≤ call.times.start ∧
      ((call.data.getD [] = [] ∧ u = { s with appended := s.appended ++ [[]], now := call.times.old }) ∨
        (call.data.getD [] ≠ [] ∧ ∃ m st new w,
          s.rollIfDue c call.times call.opens = .ok m ∧ m.file = some st ∧
          u = m.wrote st new w (call.data.getD []) call.times ∧
          (∀ chunk ∈ new, chunk.1 = m.appended.length) ∧
          ((∀ r ∈ call.results, r.error = false) →
            w = (call.data.getD []).length ∧ new.flatMap Prod.snd = call.data.getD []))) := by
  obtain ⟨_, onTime, ok⟩ := Checked.bind_ok_iff.mp ok
  apply And.intro (Checked.require_ok_iff.mp onTime)
  generalize call.data.getD [] = buf at *
  obtain ⟨v, written, same⟩ := Checked.bind_ok_iff.mp ok
  obtain rfl := Except.ok.inj same
  split at written
  next empty =>
    left
    have none : buf = [] := List.eq_nil_of_length_eq_zero empty
    cases written
    exact ⟨none, by rw [none]⟩
  next filled =>
    right
    apply And.intro (fun none => filled (by rw [none]; rfl))
    obtain ⟨m, decided, written⟩ := Checked.bind_ok_iff.mp written
    split at written
    next => cases written
    next st current =>
      obtain ⟨⟨w, st'⟩, looped, written⟩ := Checked.bind_ok_iff.mp written
      obtain ⟨new, rfl, own, complete⟩ := writeLoop_spec looped
      cases written
      refine ⟨m, st, new, w, decided, current, rfl, own, ?_⟩
      intro clean
      obtain ⟨total, bytes⟩ := complete clean
      exact ⟨by rw [total, Nat.zero_add], bytes⟩

/-! ### Every byte once and in order -/

/-- The streams hold, in opening order, the bytes of the appends in call order. No append is in two of
them, and `written_bytes_` are the bytes of the current one. -/
structure Faithful (s : Rolling) : Prop where
  bytes : s.streams.flatMap Stream.bytes = s.appended.flatten
  whole : s.streams.Pairwise fun earlier later => ∀ i ∈ earlier.appends, i ∉ later.appends
  counted : s.writtenBytes = s.file.elim 0 fun st => st.bytes.length

/-- Between two calls the appends in the streams are earlier ones, and a stream is there only behind
a division by the period. -/
structure Kept (c : RollPolicy) (s : Rolling) : Prop extends Faithful s where
  numbered : ∀ st ∈ s.streams, ∀ i ∈ st.appends, i < s.appended.length
  divides : s.file ≠ none → c.rollPeriodSec ≠ 0

/-- The call returns, and then all of that holds. -/
def BytesKept (c : RollPolicy) (s : Rolling) (call : AppendCall) : Prop :=
  ∃ u, s.append c call = .ok u ∧ u.Faithful

/-- The clock has not gone back, and `fwrite_unlocked` raises no error and takes a byte at least until
all is written. -/
def Benign (s : Rolling) (call : AppendCall) : Prop :=
  s.now ≤ call.times.start ∧ (call.data.getD []).length ≤ call.results.length ∧
    ∀ r ∈ call.results, r.error = false ∧ 1 ≤ r.count

instance (s : Rolling) (call : AppendCall) : Decidable (s.Benign call) := by
  unfold Benign
  infer_instance

/-- There is nothing to write, or there is a stream, or the call opens one. -/
def Ready (c : RollPolicy) (s : Rolling) (call : AppendCall) : Prop :=
  call.data.getD [] = [] ∨ s.file ≠ none ∨ (s.WillRoll c call.times ∧ c.rollPeriodSec ≠ 0)

instance (c : RollPolicy) (s : Rolling) (call : AppendCall) : Decidable (s.Ready c call) := by
  unfold Ready
  infer_instance

section

variable {c : RollPolicy} {s m u : Rolling} {t : Readings} {opens : Bool} {call : AppendCall}

theorem streams_some {st : Stream} (current : s.file = some st) : s.streams = s.closed ++ [st] := by
  rw [streams, current]
  rfl

theorem streams_rolled (c : RollPolicy) (s : Rolling) (t : Readings) (opens : Bool) :
    (s.rolled c t opens).streams = s.streams ++ [newStream c t opens] := rfl

/-- A stream that was just begun holds nothing. -/
theorem Kept.rolled (kept : s.Kept c) (nonzero : c.rollPeriodSec ≠ 0) :
    (s.rolled c t opens).Kept c := by
  have none : (newStream c t opens).appends = [] := rfl
  constructor
  · constructor
    · rw [streams_rolled, List.flatMap_append, kept.bytes]
      exact List.append_nil _
    · rw [streams_rolled, List.pairwise_append]
      refine ⟨kept.whole, List.pairwise_singleton _ _, ?_⟩
      intro earlier _ later member i _
      rw [List.mem_singleton.mp member, none]
      exact List.not_mem_nil
    · rfl
  · rw [streams_rolled]
    intro st member
    rcases List.mem_append.mp member with earlier | current
    · exact kept.numbered st earlier
    · rw [List.mem_singleton.mp current, none]
      intro i member
      cases member
  · exact fun _ => nonzero

theorem Kept.recount (kept : s.Kept c) (count : Int) : Kept c { s with count := count } :=
  ⟨⟨kept.bytes, kept.whole, kept.counted⟩, kept.numbered, kept.divides⟩

theorem Kept.decided (kept : s.Kept c) (ok : s.rollIfDue c t opens = .ok m) : m.Kept c := by
  rcases rollIfDue_rolls ok with ⟨_, count, rfl⟩ | ⟨_, nonzero, count, rfl⟩
  · exact kept.recount count
  · exact (kept.rolled nonzero).recount count

/-- The chunks of one append go to the current stream, behind those of earlier appends. -/
theorem Kept.wrote (kept : m.Kept c) {st : Stream} (current : m.file = some st)
    {new : List (Nat × List UInt8)} {buf : List UInt8}
    (own : ∀ chunk ∈ new, chunk.1 = m.appended.length) (bytes : new.flatMap Prod.snd = buf) :
    (m.wrote st new buf.length buf t).Kept c := by
  have streams_eq := streams_some current
  have grown : (m.wrote st new buf.length buf t).streams = m.closed ++
      [{ st with chunks := st.chunks ++ new, begun := st.begun ++ [t.start] }] := rfl
  have before := kept.bytes
  have whole := kept.whole
  have numbered := kept.numbered
  rw [streams_eq] at before whole numbered
  have tags : ∀ i ∈ Stream.appends
      { st with chunks := st.chunks ++ new, begun := st.begun ++ [t.start] },
      i ∈ st.appends ∨ i = m.appended.length := by
    intro i member
    simp only [Stream.appends, List.map_append, List.mem_append, List.mem_map] at member
    rcases member with old | ⟨chunk, fresh, rfl⟩
    · left
      simpa [Stream.appends] using old
    · exact Or.inr (own chunk fresh)
  rw [List.pairwise_append] at whole
  constructor
  · constructor
    · rw [grown, List.flatMap_append]
      simp only [Rolling.wrote, List.flatten_append, ← before]
      simp [Stream.bytes, bytes]
    · rw [grown, List.pairwise_append]
      refine ⟨whole.1, List.pairwise_singleton _ _, ?_⟩
      intro earlier member later last i early late
      rw [List.mem_singleton.mp last] at late
      rcases tags i late with old | fresh
      · exact whole.2.2 earlier member st (by simp) i early old
      · -- The number of this append is larger than all before it.
        have below := numbered earlier (by simp [member]) i early
        omega
    · have counted := kept.counted
      rw [current] at counted
      simp only [Option.elim_some, Stream.bytes] at counted
      simp only [Rolling.wrote, Option.elim_some, Stream.bytes, List.flatMap_append, bytes,
        List.length_append, counted]
  · rw [grown]
    intro st' member i tag
    simp only [Rolling.wrote, List.length_append, List.length_singleton]
    rcases List.mem_append.mp member with earlier | last
    · have below := numbered st' (by simp [earlier]) i tag
      omega
    · rw [List.mem_singleton.mp last] at tag
      rcases tags i tag with old | fresh
      · have below := numbered st (by simp) i old
        omega
      · omega
  · intro _
    apply kept.divides
    rw [current]
    simp

/-- Step lemma. -/
theorem Kept.append (kept : s.Kept c) (clean : ∀ r ∈ call.results, r.error = false)
    (ok : s.append c call = .ok u) : u.Kept c := by
  obtain ⟨_, ⟨_, rfl⟩ | ⟨_, m, st, new, w, decided, current, rfl, own, complete⟩⟩ := append_cases ok
  · -- Nothing to write.
    have longer : ∀ st ∈ s.streams, ∀ i ∈ st.appends, i < (s.appended ++ [[]]).length := by
      intro st member i tag
      have below := kept.numbered st member i tag
      rw [List.length_append]
      omega
    refine ⟨⟨?_, kept.whole, kept.counted⟩, longer, kept.divides⟩
    rw [List.flatten_append, List.flatten_singleton, List.append_nil]
    exact kept.bytes
  · obtain ⟨rfl, bytes⟩ := complete clean
    exact (kept.decided decided).wrote current own bytes

/-! ### Whether there is a stream -/

theorem rollFile_total (nonzero : c.rollPeriodSec ≠ 0) (s : Rolling) (t : Readings) (opens : Bool) :
    ∃ m, s.rollFile c t opens = .ok m := by
  unfold rollFile
  split
  · exact ⟨_, by rw [Checked.require_pos _ nonzero]; rfl⟩
  · exact ⟨_, rfl⟩

theorem rollIfDue_total (nonzero : c.rollPeriodSec ≠ 0) (s : Rolling) (t : Readings)
    (opens : Bool) : ∃ m, s.rollIfDue c t opens = .ok m := by
  unfold rollIfDue
  split
  · exact rollFile_total nonzero s t opens
  · simp only
    split
    · simp only [Checked.require_pos _ nonzero, Checked.ok_bind]
      split
      · exact rollFile_total nonzero _ t opens
      · exact ⟨_, rfl⟩
    · exact ⟨_, rfl⟩

/-- After the first part of `append_unlocked` there is a stream if there was one, or the call has
rolled. -/
theorem rollIfDue_file_iff (ok : s.rollIfDue c t opens = .ok m) :
    m.file ≠ none ↔ s.file ≠ none ∨ (s.WillRoll c t ∧ c.rollPeriodSec ≠ 0) := by
  rcases rollIfDue_rolls ok with ⟨quiet, _, rfl⟩ | ⟨will, nonzero, _, rfl⟩
  · simp [quiet]
  · apply iff_of_true
    · simp [rolled]
    · exact Or.inr ⟨will, nonzero⟩

theorem bytesKept_iff (kept : s.Kept c) (benign : s.Benign call) :
    s.BytesKept c call ↔ s.Ready c call := by
  obtain ⟨onTime, enough, fine⟩ := benign
  have clean : ∀ r ∈ call.results, r.error = false := fun r member => (fine r member).1
  constructor
  · rintro ⟨u, ok, _⟩
    obtain ⟨_, ⟨empty, _⟩ | ⟨_, m, st, _, _, decided, current, _⟩⟩ := append_cases ok
    · exact Or.inl empty
    · right
      apply (rollIfDue_file_iff decided).mp
      rw [current]
      simp
  · intro ready
    -- It is enough that the call returns: what it keeps is the step lemma.
    have returns : ∃ u, s.append c call = .ok u := by
      by_cases empty : call.data.getD [] = []
      · apply Exists.intro
        simp only [Rolling.append, Checked.require_pos _ onTime, Checked.ok_bind, empty,
          List.length_nil, if_true]
        rfl
      · have streams := ready.resolve_left empty
        have nonzero : c.rollPeriodSec ≠ 0 := streams.elim kept.divides (fun rolls => rolls.2)
        -- With a stream and enough results neither the decision nor the loop can stop.
        obtain ⟨m, decided⟩ := rollIfDue_total nonzero s call.times call.opens
        obtain ⟨st, current⟩ :=
          Option.ne_none_iff_exists'.mp ((rollIfDue_file_iff decided).mpr streams)
        obtain ⟨w, st', looped⟩ := writeLoop_total (i := m.appended.length) 0
          { st with begun := st.begun ++ [call.times.start] } (fun r member => (fine r member).2) enough
        have filled : ¬(call.data.getD []).length = 0 := by
          rw [List.length_eq_zero_iff]
          exact empty
        apply Exists.intro
        simp only [Rolling.append, Checked.require_pos _ onTime, Checked.ok_bind, if_neg filled,
          appendUnlocked, decided, current, looped, Checked.pure_eq_ok]
        rfl
    obtain ⟨u, ok⟩ := returns
    exact ⟨u, ok, (kept.append clean ok).toFaithful⟩

/-- The constructor opens the first stream, unless the clock shows the second 0, which is what
`last_roll_time_` starts with. -/
theorem construct_cases (ok : construct c t opens = .ok s) :
    (t.guard = 0 ∧ s = ⟨0, 0, 0, 0, none, [], [], t.old⟩) ∨
      (t.guard ≠ 0 ∧ c.rollPeriodSec ≠ 0 ∧
        s = ⟨0, t.guard, c.periodOf t.guard, 0, some (newStream c t opens), [], [], t.old⟩) := by
  obtain ⟨m, rolled_ok, same⟩ := Checked.bind_ok_iff.mp ok
  cases same
  rcases rollFile_cases rolled_ok with ⟨zero, rfl⟩ | ⟨other, nonzero, rfl⟩
  · exact Or.inl ⟨zero.symm, rfl⟩
  · exact Or.inr ⟨Ne.symm other, nonzero, rfl⟩

theorem kept_construct (ok : construct c t opens = .ok s) : s.Kept c := by
  rcases construct_cases ok with ⟨_, rfl⟩ | ⟨_, nonzero, rfl⟩
  · exact ⟨⟨rfl, List.Pairwise.nil, rfl⟩, by simp [streams], by simp⟩
  · exact ⟨⟨rfl, List.pairwise_singleton _ _, rfl⟩, by simp [streams, newStream, Stream.appends],
      fun _ => nonzero⟩

end

/-- **Every byte once and in order**: over all appends with any clock that does not go back and any
results of `fwrite_unlocked` without a stream error, the streams hold the appended bytes in order, no
append is split, and `written_bytes_` counts the current stream, in exactly the runs in which every
append with bytes finds a stream or opens one. -/
theorem bytes_kept_iff {c : RollPolicy} {t : Readings} {opens : Bool} {start : Rolling}
    (constructed : construct c t opens = .ok start) (calls : List AppendCall)
    (benign : Along (append c) Benign start calls) :
    Along (append c) (BytesKept c) start calls ↔ Along (append c) (Ready c) start calls := by
  apply along_congr (Kept c) _ _ (kept_construct constructed) benign
  · intro s call u kept benign _ ok
    exact kept.append (fun r member => (benign.2.2 r member).1) ok
  · intro s call kept benign
    exact bytesKept_iff kept benign

/-- The appender of the test with the sizes of the constructor's defaults, in process 42. -/
def defaultPolicy : RollPolicy where
  appender := FileAppender.testlog
  rollSizeByte := 10 * 1024 * 1024
  rollPeriodSec := 1 * 24 * 60 * 60
  checkEvery := 1024
  localtime := fun _ => FileAppender.summerMidnight
  pid := 42

/-- Streams of four bytes. -/
def smallPolicy : RollPolicy := { defaultPolicy with rollSizeByte := 4 }

def smallStart : Rolling :=
  rolled smallPolicy ⟨0, 0, 0, 0, none, [], [], 1000⟩ (.at 1000) true

theorem smallStart_constructed : construct smallPolicy (.at 1000) true = .ok smallStart := rfl

/-- The second append, with short counts, makes the first stream too large, and the fourth begins
another. -/
theorem smallStreams_kept :
    Along (append smallPolicy) (BytesKept smallPolicy) smallStart
      [⟨some [1, 2, 3], .at 1000, [⟨3, false⟩, ⟨3, false⟩, ⟨3, false⟩], true⟩,
        ⟨some [4, 5], .at 1001, [⟨1, false⟩, ⟨1, false⟩], true⟩, ⟨none, .at 1001, [], true⟩,
        ⟨some [6], .at 1002, [⟨1, false⟩], false⟩] := by
  apply (bytes_kept_iff smallStart_constructed _ _).mpr
  · decide +kernel
  · decide +kernel

/-- What the constructor leaves in the second 0. -/
def epochStart : Rolling := ⟨0, 0, 0, 0, none, [], [], 0⟩

theorem epochStart_constructed : construct defaultPolicy (.at 0) true = .ok epochStart := rfl

/-- No stream is open then, and the first append has none to write to. -/
theorem epoch_not_kept :
    construct defaultPolicy (.at 0) true = .ok epochStart ∧
      Along (append defaultPolicy) Benign epochStart [⟨some [1], .at 0, [⟨1, false⟩], true⟩] ∧
      ¬Along (append defaultPolicy) (BytesKept defaultPolicy) epochStart
        [⟨some [1], .at 0, [⟨1, false⟩], true⟩] := by
  refine ⟨epochStart_constructed, by decide +kernel, ?_⟩
  rintro ⟨returns, _⟩
  have ready := (bytesKept_iff (kept_construct epochStart_constructed) (by decide +kernel)).mp returns
  revert ready
  decide +kernel

end Rolling

end Clia.Log
