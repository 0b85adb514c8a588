import Clia.Base
import Clia.Library.CharArray
import Clia.Library.Numeral
import Clia.Log.FileAppender
import Mathlib.Algebra.Group.Int.Defs

/-!
# Timestamps

`util/timestamp.cc`: microseconds since the epoch, and their text in local time. `::localtime_r` is a
parameter that carries what is documented of it: the calendar parts of a second are in their ranges.
The time zone stays the same.
-/

namespace Clia.Util

open CString

/-- The ranges of the members of `struct tm`. The year is an `int`, and a minute may have a leap
second. -/
structure InRange (tm : Log.Tm) : Prop where
  year : -2 ^ 31 ≤ tm.year ∧ tm.year < 2 ^ 31
  month : tm.month ≤ 12
  day : tm.day ≤ 31
  hour : tm.hour ≤ 23
  minute : tm.minute ≤ 59
  second : tm.second ≤ 60

/-- All parts but the year have two digits. -/
theorem InRange.lengths {tm : Log.Tm} (inRange : InRange tm) :
    (padded 2 tm.month).length = 2 ∧ (padded 2 tm.day).length = 2 ∧ (padded 2 tm.hour).length = 2 ∧
      (padded 2 tm.minute).length = 2 ∧ (padded 2 tm.second).length = 2 := by
  obtain ⟨_, month, day, hour, minute, second⟩ := inRange
  have two : ∀ n, n < 100 → (padded 2 n).length = 2 := fun n small => padded_length (by decide) small
  exact ⟨two _ (by omega), two _ (by omega), two _ (by omega), two _ (by omega), two _ (by omega)⟩

theorem InRange.year_digits {tm : Log.Tm} (inRange : InRange tm) : tm.year.natAbs < 10 ^ 10 := by
  obtain ⟨low, high⟩ := inRange.year
  omega

/-- The second is one of a `Timestamp`. -/
def Representable (sec : Int) : Prop := -2 ^ 63 ≤ 1000000 * sec ∧ 1000000 * sec < 2 ^ 63

/-- `::localtime_r` in a time zone. -/
structure LocalTime where
  tm : Int → Log.Tm
  inRange : ∀ sec, Representable sec → InRange (tm sec)

/-- `struct timeval`. -/
structure Timeval where
  sec : Int64
  usec : Int64
  deriving DecidableEq, Repr

structure Timestamp where
  microSecSinceEpoch : Int64
  deriving DecidableEq, Repr

namespace Timestamp

def kMicroSecPerSec : Int := 1000 * 1000

/-- `now`, with what `::gettimeofday` stores. -/
def now (tv : Timeval) : Timestamp := ⟨tv.sec * Int64.ofInt kMicroSecPerSec + tv.usec⟩

def secSinceEpoch (t : Timestamp) : Int := t.microSecSinceEpoch.toInt.tdiv kMicroSecPerSec

/-- `micro_sec_since_epoch() % kMicroSecPerSec`. -/
def microSec (t : Timestamp) : Int := t.microSecSinceEpoch.toInt.tmod kMicroSecPerSec

/-- The text of a second: `"%4d%02d%02d %02d:%02d:%02d"`. -/
def secText (tm : Log.Tm) : List UInt8 :=
  blankFilled 4 tm.year ++ padded 2 tm.month ++ padded 2 tm.day ++ ascii " " ++ padded 2 tm.hour ++
    ascii ":" ++ padded 2 tm.minute ++ ascii ":" ++ padded 2 tm.second

/-- The text with microseconds: `"%04d-%02d-%02d %02d:%02d:%02d.%06d"`. -/
def microSecText (tm : Log.Tm) (microsec : Int) : List UInt8 :=
  zeroFilled 4 tm.year ++ ascii "-" ++ padded 2 tm.month ++ ascii "-" ++ padded 2 tm.day ++
    ascii " " ++ padded 2 tm.hour ++ ascii ":" ++ padded 2 tm.minute ++ ascii ":" ++
    padded 2 tm.second ++ ascii "." ++ zeroFilled 6 microsec

/-- What `to_format_str` prints. -/
def formatted (zone : LocalTime) (t : Timestamp) (showMicroSec : Bool) : List UInt8 :=
  let tm := zone.tm t.secSinceEpoch
  if showMicroSec then microSecText tm t.microSec else secText tm

/-- `to_format_str` to a buffer, with what it returns. -/
def formatTo {n : Nat} (zone : LocalTime) (t : Timestamp) (outbuf : CharArray n)
    (showMicroSec : Bool) : CharArray n × Nat :=
  outbuf.snprintf (t.formatted zone showMicroSec)

/-- `to_format_str` as a `std::string`: the first bytes of a buffer, as many as were printed. -/
def toFormatStr (zone : LocalTime) (t : Timestamp) (showMicroSec : Bool) :
    Except Fault (List UInt8) := do
  let (buf, n) := t.formatTo zone (CharArray.zeros 64) showMicroSec
  Checked.require (n ≤ 64) Fault.outOfBounds
  return buf.bytes.take n

/-! ### Seconds and microseconds -/

/-- Division is towards zero, so both parts have the sign of the whole. -/
theorem parts (t : Timestamp) :
    1000000 * t.secSinceEpoch + t.microSec = t.microSecSinceEpoch.toInt ∧
      (0 ≤ t.microSecSinceEpoch.toInt → 0 ≤ t.microSec ∧ t.microSec < 1000000) ∧
      (t.microSecSinceEpoch.toInt ≤ 0 → -1000000 < t.microSec ∧ t.microSec ≤ 0) := by
  refine ⟨Int.mul_tdiv_add_tmod _ _, ?_, ?_⟩
  · intro nonneg
    exact ⟨Int.tmod_nonneg _ nonneg, Int.tmod_lt_of_pos _ (by decide)⟩
  · intro nonpos
    -- The remainder of the opposite number is the opposite one.
    have opposite : (-t.microSecSinceEpoch.toInt).tmod kMicroSecPerSec = -t.microSec :=
      Int.neg_tmod _ _
    have low := Int.tmod_nonneg kMicroSecPerSec (Int.neg_nonneg_of_nonpos nonpos)
    have high : (-t.microSecSinceEpoch.toInt).tmod kMicroSecPerSec < 1000000 :=
      Int.tmod_lt_of_pos _ (by decide)
    omega

theorem representable (t : Timestamp) : Representable t.secSinceEpoch := by
  have low : -2 ^ 63 ≤ t.microSecSinceEpoch.toInt := Int64.le_toInt _
  have high : t.microSecSinceEpoch.toInt < 2 ^ 63 := Int64.toInt_lt _
  obtain ⟨whole, nonneg, nonpos⟩ := t.parts
  unfold Representable
  omega

theorem microSec_small (t : Timestamp) : t.microSec.natAbs < 10 ^ 6 := by
  obtain ⟨_, nonneg, nonpos⟩ := t.parts
  omega

/-- From the first second on the microseconds have no sign. -/
theorem microSec_nonneg {t : Timestamp} (begun : 1 ≤ t.secSinceEpoch) : 0 ≤ t.microSec := by
  obtain ⟨whole, nonneg, nonpos⟩ := t.parts
  omega

/-! ### The texts -/

section

variable {tm : Log.Tm}

theorem secText_text : 0 ∉ secText tm := by
  simp only [secText, List.mem_append, blankFilled_text, padded_text, or_self, or_false, false_or]
  decide

/-- At most eleven characters for the year, two for each other part, and the separators. -/
theorem secText_length (inRange : InRange tm) : (secText tm).length ≤ 24 := by
  have year : (blankFilled 4 tm.year).length ≤ 11 :=
    blankFilled_length_le (by decide) inRange.year_digits
  obtain ⟨month, day, hour, minute, second⟩ := inRange.lengths
  have separators : (ascii " ").length = 1 ∧ (ascii ":").length = 1 := by decide
  simp only [secText, List.length_append]
  omega

theorem microSecText_length (inRange : InRange tm) {microsec : Int}
    (small : microsec.natAbs < 10 ^ 6) : (microSecText tm microsec).length ≤ 34 := by
  have year : (zeroFilled 4 tm.year).length ≤ 11 :=
    zeroFilled_length_le (by decide) inRange.year_digits
  have micro : (zeroFilled 6 microsec).length ≤ 7 := zeroFilled_length_le (by decide) small
  obtain ⟨month, day, hour, minute, second⟩ := inRange.lengths
  have separators : (ascii "-").length = 1 ∧ (ascii " ").length = 1 ∧ (ascii ":").length = 1 ∧
      (ascii ".").length = 1 := by decide
  simp only [microSecText, List.length_append]
  omega

end

theorem formatted_length (zone : LocalTime) (t : Timestamp) (showMicroSec : Bool) :
    (t.formatted zone showMicroSec).length < 64 := by
  have inRange := zone.inRange _ t.representable
  have plain := secText_length inRange
  have detailed := microSecText_length inRange t.microSec_small
  cases showMicroSec with
  | false => exact Nat.lt_of_le_of_lt plain (by decide)
  | true => exact Nat.lt_of_le_of_lt detailed (by decide)

/-- The text is never cut off. -/
theorem toFormatStr_eq (zone : LocalTime) (t : Timestamp) (showMicroSec : Bool) :
    t.toFormatStr zone showMicroSec = .ok (t.formatted zone showMicroSec) := by
  have short := t.formatted_length zone showMicroSec
  obtain ⟨printed, bytes⟩ := (CharArray.zeros 64).snprintf_fits short
  simp only [toFormatStr, formatTo, printed, bytes,
    Checked.require_pos Fault.outOfBounds (Nat.le_of_lt short), Checked.ok_bind, Checked.pure_eq_ok]

end Timestamp

end Clia.Util
