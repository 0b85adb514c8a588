import Clia.Container.Printing
import Clia.Library.LabelledRun
import Clia.Log.AsyncLogger
import Clia.Log.Retention
import Clia.Util.Timestamp

/-!
# The time in a log line

`log/event.cc`: `tips_message` begins every log line. It keeps the text of the last second in a buffer
of its thread and writes only the microseconds behind it, unless the second is another one.

## Main result

`TimeCache.time_plain`: whatever the readings before were, the text in the buffer is the one that
`to_format_str` makes of the second, with the microseconds behind it.
-/

namespace Clia.Log

open CString Container LabelledRun Util

/-- `level_to_string`. -/
def Level.toText : Level → List UInt8
  | .kTrace => ascii "TRACE"
  | .kDebug => ascii "DEBUG"
  | .kInfo => ascii "INFO"
  | .kWarn => ascii "WARN"
  | .kError => ascii "ERROR"
  | .kFatal => ascii "FATAL"

/-- `get_pid` and `get_tid`. -/
structure Process where
  pid : Int32
  tid : Int32
  deriving DecidableEq, Repr

/-- A call of `tips_message`, with what `::gettimeofday` stores in it. The texts are without their
terminators, and `none` is a null pointer. -/
structure LogCall where
  tv : Timeval
  level : Level
  file : Option (List UInt8)
  line : Int32
  func : Option (List UInt8)
  deriving DecidableEq, Repr

/-- The operand of an `operator<<` of `tips_message`. -/
inductive Operand where
  | text (ins : Insertion)
  | integral (val : Integral)
  deriving DecidableEq

/-- What a stream shows of it. -/
def Operand.shown : Operand → List UInt8
  | .text ins => ins.text
  | .integral val => signed val.value

namespace LogCall

/-- The file name behind the last slash. -/
def filename (file : List UInt8) : List UInt8 := (file.reverse.takeWhile (· != 47)).reverse

/-- What the assertion of `tips_message` asks for. -/
def Located (call : LogCall) : Prop := call.file ≠ none ∧ call.line ≠ -1 ∧ call.func ≠ none

instance (call : LogCall) : Decidable call.Located := inferInstanceAs (Decidable (_ ∧ _))

/-- The operands behind the time. -/
def origin (process : Process) (call : LogCall) : List Operand :=
  [.text (.character 32), .integral (.int process.pid), .text (.character 32),
    .integral (.int process.tid), .text (.character 32), .text (.cstring (some call.level.toText)),
    .text (.character 32), .text (.character 91), .text (.cstring (call.file.map filename)),
    .text (.character 58), .text (.cstring call.func), .text (.character 58),
    .integral (.int call.line), .text (.cstring (some (ascii "]::"))), .text (.character 32)]

end LogCall

/-- `kMicroSecPos`, `kTimeBuf` and `kLastUpdateSec` of a thread. -/
structure TimeCache where
  microSecPos : Nat
  timeBuf : CharArray 64
  lastUpdateSec : Int

namespace TimeCache

def start : TimeCache := ⟨0, CharArray.zeros 64, 0⟩

/-- The text of the second is made again if it is another one. -/
def refresh (zone : LocalTime) (s : TimeCache) (now : Timestamp) : TimeCache :=
  let sec := now.secSinceEpoch
  if sec ≠ s.lastUpdateSec then
    let (timeBuf, microSecPos) := now.formatTo zone s.timeBuf false
    ⟨microSecPos, timeBuf, sec⟩
  else s

/-- `tips_message`, with the operands that go to the stream. -/
def tipsMessage (zone : LocalTime) (process : Process) (s : TimeCache) (call : LogCall) :
    Except Fault (TimeCache × List Operand) := do
  cassert call.Located .siteGiven
  let now := Timestamp.now call.tv
  let s := s.refresh zone now
  match s.timeBuf.sprintf s.microSecPos (ascii "." ++ zeroFilled 6 now.microSec) with
  | none => .error .outOfBounds
  -- `kTimeBuf` goes to the stream as a C string.
  | some timeBuf =>
    return ({ s with timeBuf := timeBuf },
      .text (.cstring (some timeBuf.bytes)) :: call.origin process)

def step (zone : LocalTime) (process : Process) (s : TimeCache) (call : LogCall) :
    Except Fault TimeCache := do
  let (s, _) ← s.tipsMessage zone process call
  return s

/-! ### The time without a cache -/

/-- The second as `to_format_str` shows it, a point and six digits. -/
def plainTime (zone : LocalTime) (now : Timestamp) : Except Fault (List UInt8) := do
  let second ← now.toFormatStr zone false
  return second ++ ascii "." ++ padded 6 now.microSec.toNat

/-- After the call the buffer holds the plain time, and the line begins with it. -/
def ShowsPlainTime (zone : LocalTime) (process : Process) (s : TimeCache) (call : LogCall) : Prop :=
  ∃ t operands time, s.tipsMessage zone process call = .ok (t, operands) ∧
    plainTime zone (Timestamp.now call.tv) = .ok time ∧ t.timeBuf.text = time ∧
    operands.flatMap Operand.shown = time ++ (call.origin process).flatMap Operand.shown

/-! ### The invariant -/

/-- The buffer begins with the text of the second, and the microseconds go behind it. -/
structure Holds (zone : LocalTime) (sec : Int) (s : TimeCache) : Prop where
  pos : s.microSecPos = (Timestamp.secText (zone.tm sec)).length
  second : s.timeBuf.bytes.take s.microSecPos = Timestamp.secText (zone.tm sec)

/-- Before the first call there is nothing, and the second is 0. -/
def Inv (zone : LocalTime) (s : TimeCache) : Prop :=
  s.lastUpdateSec ≠ 0 → s.Holds zone s.lastUpdateSec

variable {zone : LocalTime} {process : Process} {s t : TimeCache} {call : LogCall} {now : Timestamp}

theorem inv_start (zone : LocalTime) : Inv zone start := by
  intro updated
  exact absurd rfl updated

/-- Whether the second is the cached one or not, the buffer begins with it. -/
theorem refresh_holds (inv : s.Inv zone) (begun : 1 ≤ now.secSinceEpoch) :
    (s.refresh zone now).lastUpdateSec = now.secSinceEpoch ∧
      (s.refresh zone now).Holds zone now.secSinceEpoch := by
  unfold refresh
  by_cases another : now.secSinceEpoch ≠ s.lastUpdateSec
  · -- The second is printed again, over whatever the buffer held.
    have short := now.formatted_length zone false
    obtain ⟨printed, bytes⟩ := s.timeBuf.snprintf_fits short
    simp only [if_pos another]
    refine ⟨trivial, printed, ?_⟩
    simp only [Timestamp.formatTo, printed, bytes]
    rfl
  · -- The cached second is this one, so it is not the 0 of the start.
    have same : now.secSinceEpoch = s.lastUpdateSec := not_not.mp another
    simp only [if_neg another]
    rw [same]
    exact ⟨rfl, inv (by omega)⟩

theorem plainTime_eq (zone : LocalTime) (begun : 1 ≤ now.secSinceEpoch) :
    plainTime zone now = .ok (Timestamp.secText (zone.tm now.secSinceEpoch) ++
      (ascii "." ++ zeroFilled 6 now.microSec)) := by
  -- Without a sign `%06d` is six digits.
  obtain ⟨n, micro⟩ := Int.eq_ofNat_of_zero_le (Timestamp.microSec_nonneg begun)
  rw [plainTime, now.toFormatStr_eq, Checked.ok_bind, Checked.pure_eq_ok, micro, List.append_assoc]
  rfl

theorem micro_text (now : Timestamp) : 0 ∉ ascii "." ++ zeroFilled 6 now.microSec := by
  intro zero
  rcases List.mem_append.mp zero with point | digit
  · exact absurd point (by decide)
  · exact zeroFilled_text 6 _ digit

theorem micro_length (now : Timestamp) : (ascii "." ++ zeroFilled 6 now.microSec).length ≤ 8 := by
  have point : (ascii ".").length = 1 := by decide
  have digits : (zeroFilled 6 now.microSec).length ≤ 7 :=
    zeroFilled_length_le (by decide) now.microSec_small
  rw [List.length_append]
  omega

/-- The microseconds go behind the second, and the second stays. -/
theorem Holds.printed {sec : Int} (holds : s.Holds zone sec) (updated : s.lastUpdateSec = sec)
    (representable : Representable sec) {micro : List UInt8} (short : micro.length ≤ 8)
    (micro_text : 0 ∉ micro) :
    ∃ timeBuf, s.timeBuf.sprintf s.microSecPos micro = some timeBuf ∧
      timeBuf.text = Timestamp.secText (zone.tm sec) ++ micro ∧
      Inv zone { s with timeBuf := timeBuf } := by
  have second := Timestamp.secText_length (zone.inRange sec representable)
  have here := holds.second
  rw [holds.pos] at here
  obtain ⟨timeBuf, printed, text, front⟩ := CharArray.sprintf_fits s.timeBuf here
    (by omega) Timestamp.secText_text micro_text
  rw [← holds.pos] at printed front
  refine ⟨timeBuf, printed, text, ?_⟩
  intro _
  subst updated
  exact ⟨holds.pos, front⟩

theorem tipsMessage_eq (located : call.Located) {timeBuf : CharArray 64}
    (printed : (s.refresh zone (.now call.tv)).timeBuf.sprintf
      (s.refresh zone (.now call.tv)).microSecPos
      (ascii "." ++ zeroFilled 6 (Timestamp.now call.tv).microSec) = some timeBuf) :
    s.tipsMessage zone process call =
      .ok ({ s.refresh zone (.now call.tv) with timeBuf := timeBuf },
        .text (.cstring (some timeBuf.bytes)) :: call.origin process) := by
  rw [tipsMessage, cassert_pos _ located, Checked.ok_bind]
  simp only [printed, Checked.pure_eq_ok]

/-- One call shows the plain time and leaves the second in the buffer. -/
theorem tipsMessage_spec (inv : s.Inv zone) (located : call.Located)
    (begun : 1 ≤ (Timestamp.now call.tv).secSinceEpoch) :
    ∃ t operands time, s.tipsMessage zone process call = .ok (t, operands) ∧
      plainTime zone (Timestamp.now call.tv) = .ok time ∧ t.timeBuf.text = time ∧
      operands = .text (.cstring (some t.timeBuf.bytes)) :: call.origin process ∧ t.Inv zone := by
  obtain ⟨updated, holds⟩ := refresh_holds inv begun
  obtain ⟨timeBuf, printed, text, after⟩ := holds.printed updated
    (Timestamp.now call.tv).representable (micro_length _) (micro_text _)
  exact ⟨_, _, _, tipsMessage_eq located printed, plainTime_eq zone begun, text, rfl, after⟩

theorem cstring_text {n : Nat} (b : CharArray n) : (Insertion.cstring (some b.bytes)).text = b.text := by
  exact (List.prefix_iff_eq_take.mp (List.takeWhile_prefix _)).symm

theorem shows_plain_time (inv : s.Inv zone) (located : call.Located)
    (begun : 1 ≤ (Timestamp.now call.tv).secSinceEpoch) : s.ShowsPlainTime zone process call := by
  obtain ⟨t, operands, time, ok, plain, text, rfl, _⟩ := tipsMessage_spec inv located begun
  refine ⟨t, _, time, ok, plain, text, ?_⟩
  rw [List.flatMap_cons, Operand.shown, cstring_text, text]

theorem step_inv (inv : s.Inv zone) (located : call.Located)
    (begun : 1 ≤ (Timestamp.now call.tv).secSinceEpoch) (taken : s.step zone process call = .ok t) :
    t.Inv zone := by
  obtain ⟨u, operands, time, ok, _, _, _, after⟩ := tipsMessage_spec inv located begun
  rw [step, ok] at taken
  cases taken
  exact after

/-- **The cached time**: over every sequence of calls with any readings of the clock from the second 1
on, also earlier ones after later ones, the buffer of the thread holds after each call the plain time of
its own reading, and the line begins with it. -/
theorem time_plain (zone : LocalTime) (process : Process) (calls : List LogCall)
    (located : ∀ call ∈ calls, call.Located)
    (begun : ∀ call ∈ calls, 1 ≤ (Timestamp.now call.tv).secSinceEpoch) :
    Along (step zone process) (ShowsPlainTime zone process) start calls := by
  have known : Along (step zone process)
      (fun _ call => call.Located ∧ 1 ≤ (Timestamp.now call.tv).secSinceEpoch) start calls :=
    Along.of_labels (fun call member _ => ⟨located call member, begun call member⟩) start
  apply known.imp _ _ (inv_start zone)
  · intro s call t inv guard taken
    exact step_inv inv guard.1 guard.2 taken
  · intro s call inv guard
    exact shows_plain_time inv guard.1 guard.2

theorem utc_inRange {sec : Int} (representable : Representable sec) : InRange (utc sec) := by
  obtain ⟨low, high⟩ := representable
  have bounds := dayOfCycle_bounds (by omega : ((sec / 86400 + 731) % 1461).toNat < 1461)
  constructor <;> simp only [utc] <;> omega

def utcZone : LocalTime := ⟨utc, fun _ => utc_inRange⟩

/-- A call from a line of the test at a reading of the clock. -/
def callAt (sec usec : Int64) : LogCall :=
  ⟨⟨sec, usec⟩, .kInfo, some (ascii "test/log.cc"), 7, some (ascii "main")⟩

/-- Two readings of one second, and one of the second before. -/
theorem backward_clock_plain :
    Along (step utcZone ⟨42, 43⟩) (ShowsPlainTime utcZone ⟨42, 43⟩) start
      [callAt 1735689600 999999, callAt 1735689600 5, callAt 1735689599 0] :=
  time_plain utcZone ⟨42, 43⟩ _ (by decide) (by decide)

example : plainTime utcZone (.now ⟨1735689600, 5⟩) = .ok (ascii "20250101 00:00:00.000005") := by
  decide +kernel

end TimeCache

end Clia.Log
