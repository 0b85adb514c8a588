import Clia.Log.Event

/-!
# The order of log lines

Every line begins with its time in columns of fixed width, so lines sort as their times, whatever
thread has written them and whatever comes behind the time. This needs years of four digits and a time
zone that does not set the clock back between the two readings.

## Main result

`TimeCache.lines_sort`: of two lines that any threads write after any calls, the one with the earlier
reading of the clock comes first in the lexicographic order.
-/

namespace Clia.Util

namespace Timestamp

/-- `operator<`. -/
def less (t oth : Timestamp) : Bool := t.microSecSinceEpoch < oth.microSecSinceEpoch

theorem less_iff (t u : Timestamp) :
    t.less u = true ↔ t.microSecSinceEpoch.toInt < u.microSecSinceEpoch.toInt := by
  rw [less, decide_eq_true_iff, Int64.lt_iff_toInt_lt]

/-- From the epoch on a timestamp is earlier if its second is, or if it is so within the second. -/
theorem less_iff_parts {t u : Timestamp} (begun : 1 ≤ t.secSinceEpoch)
    (begun' : 1 ≤ u.secSinceEpoch) : t.less u = true ↔
      t.secSinceEpoch < u.secSinceEpoch ∨
        t.secSinceEpoch = u.secSinceEpoch ∧ t.microSec < u.microSec := by
  obtain ⟨whole, small, _⟩ := t.parts
  obtain ⟨whole', small', _⟩ := u.parts
  have micro := t.microSec_small
  have micro' := u.microSec_small
  have nonneg := microSec_nonneg begun
  have nonneg' := microSec_nonneg begun'
  rw [less_iff]
  omega

theorem less_or_less {t u : Timestamp} (apart : t ≠ u) : t.less u = true ∨ u.less t = true := by
  rw [less_iff, less_iff]
  rcases lt_trichotomy t.microSecSinceEpoch.toInt u.microSecSinceEpoch.toInt with
    less | same | greater
  · exact .inl less
  · refine absurd ?_ apart
    cases t
    cases u
    exact congrArg Timestamp.mk (Int64.toInt_inj.mp same)
  · exact .inr greater

end Timestamp

end Clia.Util

namespace Clia.Log

open CString LabelledRun Util

/-! ### The time in columns -/

/-- The columns of `"%4d%02d%02d %02d:%02d:%02d"` and of the point with the microseconds. -/
def timeColumns : List (Nat × List UInt8) :=
  [(4, []), (2, []), (2, ascii " "), (2, ascii ":"), (2, ascii ":"), (2, ascii "."), (6, [])]

/-- What stands in them. -/
def timeValues (tm : Tm) (microsec : Nat) : List Nat := tm.values ++ [microsec]

section

variable {tm tm' : Tm} {microsec microsec' : Nat}

theorem time_fits (digits : tm.Digits 4) (small : microsec < 10 ^ 6) :
    List.Forall₂ (fun column => FitsColumn column.1) timeColumns (timeValues tm microsec) := by
  have two : ∀ n, n < 100 → FitsColumn 2 n := fun n small => ⟨by decide, small⟩
  exact .cons ⟨by decide, digits.year_eq.2.2⟩ (.cons (two _ digits.month)
    (.cons (two _ digits.day) (.cons (two _ digits.hour) (.cons (two _ digits.minute)
      (.cons (two _ digits.second) (.cons ⟨by decide, small⟩ .nil))))))

/-- A year of four digits needs no blanks. -/
theorem blankFilled_year (digits : tm.Digits 4) : blankFilled 4 tm.year = padded 4 tm.year.toNat := by
  obtain ⟨eq, low, high⟩ := digits.year_eq
  have exact : padded 4 tm.year.toNat = decimal tm.year.toNat := padded_of_le low
  have length : (decimal tm.year.toNat).length = 4 := by
    rw [← exact, padded_length (by decide) high]
  have numeral : signed tm.year = decimal tm.year.toNat := by
    rw [← eq]
    rfl
  rw [blankFilled, numeral, length, exact]
  rfl

theorem time_eq_fields (digits : tm.Digits 4) :
    Timestamp.secText tm ++ (ascii "." ++ padded 6 microsec) =
      fields timeColumns (timeValues tm microsec) := by
  simp [Timestamp.secText, blankFilled_year digits, fields, timeColumns, timeValues, Tm.values]

theorem singleton_lt_iff {m n : Nat} : [m] < [n] ↔ m < n := by
  rw [List.cons_lt_cons_iff]
  exact or_iff_left fun last => List.not_lt_nil _ last.2

theorem values_length (tm : Tm) : tm.values.length = 6 := rfl

theorem values_lt_iff (digits : tm.Digits 4) (digits' : tm'.Digits 4) :
    tm.values < tm'.values ↔ tm.parts < tm'.parts := by
  rw [← digits.getDatePrefix_lt_iff (by decide) digits', digits.getDatePrefix_eq (by decide),
    digits'.getDatePrefix_eq (by decide),
    columns_lt_iff (digits.fits (by decide)) (digits'.fits (by decide))]

end

/-- The later of the two seconds is the later one in local time, too. -/
structure Steady (zone : LocalTime) (u v : Int) : Prop where
  forth : u < v → (zone.tm u).parts < (zone.tm v).parts
  back : v < u → (zone.tm v).parts < (zone.tm u).parts

theorem timeValues_lt_iff {zone : LocalTime} {t u : Timestamp} (begun : 1 ≤ t.secSinceEpoch)
    (begun' : 1 ≤ u.secSinceEpoch) (digits : (zone.tm t.secSinceEpoch).Digits 4)
    (digits' : (zone.tm u.secSinceEpoch).Digits 4)
    (steady : Steady zone t.secSinceEpoch u.secSinceEpoch) :
    timeValues (zone.tm t.secSinceEpoch) t.microSec.toNat <
      timeValues (zone.tm u.secSinceEpoch) u.microSec.toNat ↔ t.less u = true := by
  have nonneg := Timestamp.microSec_nonneg begun
  have nonneg' := Timestamp.microSec_nonneg begun'
  rw [Timestamp.less_iff_parts begun begun', timeValues, timeValues,
    append_lt_append_iff (by rw [values_length, values_length])]
  rcases lt_trichotomy t.secSinceEpoch u.secSinceEpoch with earlier | same | later
  · have less := (values_lt_iff digits digits').mpr (steady.forth earlier)
    exact iff_of_true (.inl less) (.inl earlier)
  · have irrefl := List.lt_irrefl (zone.tm u.secSinceEpoch).values
    rw [same]
    simp only [irrefl, true_and, false_or, lt_irrefl, singleton_lt_iff]
    omega
  · have less := (values_lt_iff digits' digits).mpr (steady.back later)
    apply iff_of_false
    · rintro (more | ⟨equal, -⟩)
      · exact List.lt_irrefl _ (List.lt_trans less more)
      · exact List.lt_irrefl _ (equal ▸ less)
    · omega

namespace TimeCache

variable {zone : LocalTime} {process process' : Process}

/-- The thread has made the calls `before`, and now it writes `line` for `call`, with `message` behind
what `tips_message` puts there. -/
def Writes (zone : LocalTime) (process : Process) (before : List LogCall) (call : LogCall)
    (message line : List UInt8) : Prop :=
  ∃ s t operands, run (step zone process) start before = .ok s ∧
    s.tipsMessage zone process call = .ok (t, operands) ∧
    line = operands.flatMap Operand.shown ++ message

theorem located_of_ok {s t : TimeCache} {call : LogCall} {operands : List Operand}
    (ok : s.tipsMessage zone process call = .ok (t, operands)) : call.Located := by
  obtain ⟨_, located, _⟩ := Checked.bind_ok_iff.mp ok
  exact Checked.require_ok_iff.mp located

/-- The clock of the thread has passed the first second, and the year has four digits. -/
structure Dated (zone : LocalTime) (before : List LogCall) (call : LogCall) : Prop where
  begun : ∀ call' ∈ before ++ [call], 1 ≤ (Timestamp.now call'.tv).secSinceEpoch
  digits : (zone.tm (Timestamp.now call.tv).secSinceEpoch).Digits 4

section

variable {before : List LogCall} {call : LogCall} {message line : List UInt8}

/-- Whatever the thread has logged before, the line begins with its own time. -/
theorem Writes.line_eq (writes : Writes zone process before call message line)
    (dated : Dated zone before call) :
    ∃ rest, line = fields timeColumns (timeValues (zone.tm (Timestamp.now call.tv).secSinceEpoch)
      (Timestamp.now call.tv).microSec.toNat) ++ rest := by
  obtain ⟨s, t, operands, ran, ok, rfl⟩ := writes
  have early : ∀ call' ∈ before, 1 ≤ (Timestamp.now call'.tv).secSinceEpoch :=
    fun call' member => dated.begun call' (by simp [member])
  have inv : s.Inv zone := by
    have along : Along (step zone process)
        (fun _ call' => 1 ≤ (Timestamp.now call'.tv).secSinceEpoch) start before :=
      Along.of_labels (fun call' member _ => early call' member) _
    apply run_invariant_along _ (inv_start zone) along ran
    intro s call t inv begun taken
    obtain ⟨⟨u, shown⟩, ok, _⟩ := Checked.bind_ok_iff.mp taken
    exact step_inv inv (located_of_ok ok) begun taken
  have now := dated.begun call (by simp)
  obtain ⟨u, shown, time, ok', plain, _, line⟩ := shows_plain_time inv (located_of_ok ok) now
  cases ok.symm.trans ok'
  rw [plainTime_eq zone now, Except.ok.injEq] at plain
  have micro : zeroFilled 6 (Timestamp.now call.tv).microSec =
      padded 6 (Timestamp.now call.tv).microSec.toNat := by
    have nonneg := Timestamp.microSec_nonneg now
    generalize (Timestamp.now call.tv).microSec = microsec at nonneg ⊢
    obtain ⟨n, rfl⟩ := Int.eq_ofNat_of_zero_le nonneg
    rfl
  rw [micro, time_eq_fields dated.digits] at plain
  rw [line, ← plain, List.append_assoc]
  exact ⟨_, rfl⟩

/-- There is such a line. -/
theorem Dated.writes (dated : Dated zone before call)
    (located : ∀ call' ∈ before ++ [call], call'.Located) (message : List UInt8) :
    ∃ line, Writes zone process before call message line := by
  have known : Along (step zone process)
      (fun _ c => c.Located ∧ 1 ≤ (Timestamp.now c.tv).secSinceEpoch) start before :=
    Along.of_labels (fun c member _ => ⟨located c (by simp [member]),
      dated.begun c (by simp [member])⟩) start
  obtain ⟨s, ran, inv⟩ : ∃ s, run (step zone process) start before = .ok s ∧ s.Inv zone := by
    apply run_total_along _ (inv_start zone) known
    intro s c inv guard
    obtain ⟨t, operands, time, ok, _, _, _, after⟩ := tipsMessage_spec inv guard.1 guard.2
    exact ⟨t, by rw [step, ok]; rfl, after⟩
  obtain ⟨t, operands, time, ok, _⟩ := tipsMessage_spec inv (located call (by simp))
    (dated.begun call (by simp))
  exact ⟨_, s, t, operands, ran, ok, rfl⟩

end

/-- **The order of log lines**: take two lines that any threads of any processes write after any other
lines, at different readings of the clock, with years of four digits, and with local time not set back
in between. The first is less than the second in the lexicographic order of bytes if and only if its
reading is the earlier one, whatever the messages are. -/
theorem lines_sort (zone : LocalTime) (process process' : Process) (before before' : List LogCall)
    (call call' : LogCall) (message message' line line' : List UInt8)
    (writes : Writes zone process before call message line)
    (writes' : Writes zone process' before' call' message' line')
    (dated : Dated zone before call) (dated' : Dated zone before' call')
    (steady : Steady zone (Timestamp.now call.tv).secSinceEpoch
      (Timestamp.now call'.tv).secSinceEpoch)
    (apart : Timestamp.now call.tv ≠ Timestamp.now call'.tv) :
    line < line' ↔ (Timestamp.now call.tv).less (Timestamp.now call'.tv) = true := by
  obtain ⟨rest, rfl⟩ := writes.line_eq dated
  obtain ⟨rest', rfl⟩ := writes'.line_eq dated'
  have begun := dated.begun call (by simp)
  have begun' := dated'.begun call' (by simp)
  have small : ∀ t : Timestamp, t.microSec.toNat < 10 ^ 6 := by
    intro t
    have small := t.microSec_small
    omega
  have forth := timeValues_lt_iff begun begun' dated.digits dated'.digits steady
  have back := timeValues_lt_iff begun' begun dated'.digits dated.digits ⟨steady.back, steady.forth⟩
  have unequal : timeValues (zone.tm (Timestamp.now call.tv).secSinceEpoch)
      (Timestamp.now call.tv).microSec.toNat ≠
        timeValues (zone.tm (Timestamp.now call'.tv).secSinceEpoch)
          (Timestamp.now call'.tv).microSec.toNat := by
    intro equal
    have irrefl := List.lt_irrefl (timeValues (zone.tm (Timestamp.now call'.tv).secSinceEpoch)
      (Timestamp.now call'.tv).microSec.toNat)
    rw [equal] at forth back
    exact (Timestamp.less_or_less apart).elim (fun less => irrefl (forth.mpr less))
      (fun less => irrefl (back.mpr less))
  rw [fields_lt_iff (time_fits dated.digits (small _)) (time_fits dated'.digits (small _)), forth]
  exact or_iff_left (fun both => unequal both.1)

/-- Two threads log in one second, the second thread after a line of the second before. -/
theorem two_threads_sort :
    ∃ line line', Writes utcZone ⟨42, 43⟩ [] (callAt 1735689600 999999) (ascii "a") line ∧
      Writes utcZone ⟨42, 44⟩ [callAt 1735689599 7] (callAt 1735689600 5) (ascii "b") line' ∧
        line' < line := by
  have digits : (utcZone.tm (Timestamp.now ⟨1735689600, 5⟩).secSinceEpoch).Digits 4 :=
    utc_digits (by decide) (by decide)
  have dated : Dated utcZone [] (callAt 1735689600 999999) := ⟨by decide, digits⟩
  have dated' : Dated utcZone [callAt 1735689599 7] (callAt 1735689600 5) := ⟨by decide, digits⟩
  obtain ⟨line, writes⟩ : ∃ line, Writes utcZone ⟨42, 43⟩ [] (callAt 1735689600 999999)
      (ascii "a") line := dated.writes (by decide) _
  obtain ⟨line', writes'⟩ : ∃ line, Writes utcZone ⟨42, 44⟩ [callAt 1735689599 7]
      (callAt 1735689600 5) (ascii "b") line := dated'.writes (by decide) _
  refine ⟨line, line', writes, writes', ?_⟩
  have steady : Steady utcZone 1735689600 1735689600 :=
    ⟨fun less => absurd less (lt_irrefl _), fun less => absurd less (lt_irrefl _)⟩
  exact (lines_sort utcZone ⟨42, 44⟩ ⟨42, 43⟩ _ _ _ _ _ _ line' line writes' writes dated' dated steady
    (by decide)).mpr (by decide)

end TimeCache

end Clia.Log
