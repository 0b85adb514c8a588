import Clia.Log.Rolling

/-!
# When log files are rolled

A stream may grow beyond `roll_size_byte_` only within the second of its own roll, since `roll_file`
does nothing twice in a second. A stream may be used beyond its period only until the count of calls
is full. The count survives a roll by size, and it is what bounds the late appends: none of them is
written to the old stream without being counted.

## Main result

`Rolling.roll_discipline`: both bounds, in every state that any run of appends reaches.
-/

namespace Clia.Log

open LabelledRun

/-- The appends to the stream that began in a later period than the one it was rolled in. -/
def Stream.late (c : RollPolicy) (st : Stream) : Nat :=
  st.begun.countP fun start => st.period < c.periodOf start

namespace Rolling

/-- The stream that a call writes to, as the call finds it. -/
def AppendsTo (c : RollPolicy) (s : Rolling) (call : AppendCall) (st : Stream) : Prop :=
  ∃ m, s.rollIfDue c call.times call.opens = .ok m ∧ m.file = some st

/-- What the count and the clock say of the streams. -/
structure Paced (c : RollPolicy) (s : Rolling) : Prop where
  lower : 0 ≤ s.count
  upper : s.count < c.checkEvery
  rolled : s.lastRollTime ≤ s.now
  period : s.thisRollPeriod = c.periodOf s.lastRollTime
  samePeriod : ∀ st, s.file = some st → st.period = s.thisRollPeriod
  begun : ∀ st, s.file = some st → ∀ start ∈ st.begun, start ≤ s.now
  late : ∀ st, s.file = some st → (st.late c : Int) ≤ s.count
  closed : ∀ st ∈ s.closed, (st.late c : Int) ≤ c.checkEvery - 1

section

variable {c : RollPolicy} {s m u : Rolling} {t : Readings} {opens : Bool} {call : AppendCall}

theorem periodOf_mono (positive : 0 < c.rollPeriodSec) {a b : Int} (le : a ≤ b) :
    c.periodOf a ≤ c.periodOf b :=
  Int.mul_le_mul_of_nonneg_right (Int.tdiv_le_tdiv positive le) (Int.le_of_lt positive)

/-- One more append to a stream. -/
theorem late_grown (c : RollPolicy) (st : Stream) (new : List (Nat × List UInt8)) (start : Int) :
    Stream.late c { st with chunks := st.chunks ++ new, begun := st.begun ++ [start] } =
      st.late c + if st.period < c.periodOf start then 1 else 0 := by
  simp [Stream.late, List.countP_append, List.countP_singleton]

/-- If the clock is still in the period of the stream, no append to it was late. -/
theorem Paced.late_eq_zero (positive : 0 < c.rollPeriodSec) (paced : s.Paced c) {st : Stream}
    (current : s.file = some st) {now : Int} (after : s.now ≤ now)
    (inside : c.periodOf now ≤ s.thisRollPeriod) : st.late c = 0 := by
  rw [Stream.late, List.countP_eq_zero]
  intro start member
  have before := periodOf_mono positive (Int.le_trans (paced.begun st current start member) after)
  have same := paced.samePeriod st current
  simp only [decide_eq_true_eq]
  omega

/-- All streams keep the bound. -/
theorem Paced.bounded (paced : s.Paced c) : ∀ st ∈ s.streams, (st.late c : Int) ≤ c.checkEvery - 1 := by
  intro st member
  have upper := paced.upper
  rcases List.mem_append.mp member with earlier | current
  · exact paced.closed st earlier
  · have late := paced.late st (Option.mem_toList.mp current)
    omega

/-- The append goes to the stream that was there, and the count bounds the late ones with it. -/
theorem Paced.stays (paced : s.Paced c) {st : Stream} (current : s.file = some st) {count : Int}
    (lower : 0 ≤ count) (upper : count < c.checkEvery) (onTime : s.now ≤ t.start)
    (late : ((st.late c + if s.thisRollPeriod < c.periodOf t.start then 1 else 0 : Nat) : Int) ≤ count)
    (new : List (Nat × List UInt8)) (w : Nat) (buf : List UInt8) :
    (wrote { s with count := count } st new w buf t).Paced c := by
  have ordered := t.ordered
  have rolled := paced.rolled
  constructor
  · exact lower
  · exact upper
  · simp only [wrote]
    omega
  · exact paced.period
  · intro st' same
    cases same
    exact paced.samePeriod st current
  · intro st' same
    cases same
    simp only [wrote, List.mem_append, List.mem_singleton]
    rintro start (old | rfl)
    · have before := paced.begun st current start old
      omega
    · omega
  · intro st' same
    cases same
    rw [late_grown, paced.samePeriod st current]
    exact late
  · exact paced.closed

/-- The append goes to a stream that it has begun itself, where it is not late. -/
theorem Paced.begins (positive : 0 < c.rollPeriodSec) (paced : s.Paced c) {count : Int}
    (lower : 0 ≤ count) (upper : count < c.checkEvery) (opens : Bool)
    (new : List (Nat × List UInt8)) (w : Nat) (buf : List UInt8) :
    (wrote { s.rolled c t opens with count := count } (newStream c t opens) new w buf t).Paced c := by
  have ordered := t.ordered
  constructor
  · exact lower
  · exact upper
  · simp only [wrote, Rolling.rolled]
    omega
  · rfl
  · intro st' same
    cases same
    rfl
  · intro st' same
    cases same
    simp only [wrote, newStream, List.nil_append, List.mem_singleton]
    rintro start rfl
    omega
  · intro st' same
    cases same
    have mono := periodOf_mono positive (show t.start ≤ t.guard by omega)
    rw [late_grown, if_neg (show ¬(newStream c t opens).period < c.periodOf t.start from
      Int.not_lt.mpr mono)]
    exact lower
  · exact paced.bounded

/-- Step lemma. -/
theorem Paced.append (positive : 0 < c.rollPeriodSec) (paced : s.Paced c)
    (ok : s.append c call = .ok u) : u.Paced c := by
  obtain ⟨onTime, ⟨_, rfl⟩ | ⟨_, m, st, new, w, decided, current, rfl, _, _⟩⟩ := append_cases ok
  · have ordered := call.times.ordered
    have rolled := paced.rolled
    refine { paced with rolled := ?_, begun := ?_ }
    · simp only
      omega
    · intro st current start member
      have before := paced.begun st current start member
      simp only
      omega
  · have ordered := call.times.ordered
    have lower := paced.lower
    have upper := paced.upper
    have rolled := paced.rolled
    rcases rollIfDue_cases decided with ⟨_, called⟩ | ⟨_, early, rfl⟩ |
      ⟨_, _, ⟨same, rfl⟩ | ⟨other, called⟩⟩
    · rcases rollFile_cases called with ⟨second, rfl⟩ | ⟨_, _, rfl⟩
      · -- The roll is suppressed: the append began in the second of the last roll, so it is not late.
        have start_eq : call.times.start = m.lastRollTime := by omega
        have notLate : ¬m.thisRollPeriod < c.periodOf call.times.start := by
          rw [start_eq, paced.period]
          exact Int.lt_irrefl _
        apply paced.stays current lower upper onTime
        rw [if_neg notLate]
        exact paced.late st current
      · cases current
        exact paced.begins positive lower upper call.opens new w _
    · -- Late or not, the append is counted.
      apply paced.stays current (by omega) early onTime
      have late := paced.late st current
      split <;> omega
    · -- The count is full, and the clock is still in the period: none was late.
      have inside : c.periodOf call.times.start ≤ s.thisRollPeriod := by
        rw [← same]
        exact periodOf_mono positive (by omega)
      apply paced.stays current (Int.le_refl 0) (by omega) onTime
      rw [paced.late_eq_zero positive current onTime inside, if_neg (Int.not_lt.mpr inside)]
      exact Int.le_refl 0
    · rcases rollFile_cases called with ⟨second, rfl⟩ | ⟨_, _, rfl⟩
      · -- A clock in the second of the last roll is in its period.
        have check_eq : call.times.check = s.lastRollTime := by
          simp only at second
          omega
        rw [check_eq, ← paced.period] at other
        exact absurd rfl other
      · cases current
        exact paced.begins positive (Int.le_refl 0) (by omega) call.opens new w _

theorem paced_construct (checks : 1 ≤ c.checkEvery) (ok : construct c t opens = .ok s) :
    s.Paced c := by
  have ordered := t.ordered
  rcases construct_cases ok with ⟨zero, rfl⟩ | ⟨_, _, rfl⟩
  · constructor
    · exact Int.le_refl 0
    · simp only
      omega
    · simp only
      omega
    · simp [RollPolicy.periodOf]
    all_goals simp
  · constructor
    · exact Int.le_refl 0
    · simp only
      omega
    · simp only
      omega
    · rfl
    all_goals simp [newStream, Stream.late]

/-- An append to a stream that is too large already is in the second of the last roll. -/
theorem large_second (kept : s.Kept c) (paced : s.Paced c) (onTime : s.now ≤ call.times.start)
    (decided : s.rollIfDue c call.times call.opens = .ok m) {st : Stream} (current : m.file = some st)
    (large : c.rollSizeByte < st.bytes.length) :
    call.times.guard = m.lastRollTime ∧ call.times.start = m.lastRollTime := by
  have counted := (kept.decided decided).counted
  rw [current, Option.elim_some] at counted
  have rolled := paced.rolled
  have ordered := call.times.ordered
  have fresh : ∀ s' : Rolling, s'.rolled c call.times call.opens = m → False := by
    rintro s' rfl
    cases current
    exact Nat.not_lt_zero _ large
  rcases rollIfDue_cases decided with ⟨_, called⟩ | ⟨small, _, rfl⟩ |
    ⟨small, _, ⟨_, rfl⟩ | ⟨_, called⟩⟩
  · rcases rollFile_cases called with ⟨second, rfl⟩ | ⟨_, _, rfl⟩
    · constructor
      · exact second.symm
      · omega
    · exact absurd rfl (fresh s)
  · simp only at counted
    omega
  · simp only at counted
    omega
  · rcases rollFile_cases called with ⟨_, rfl⟩ | ⟨_, _, rfl⟩
    · simp only at counted
      omega
    · exact absurd rfl (fresh _)

end

/-- **Roll discipline**: in every state that a run of appends without write errors reaches, (a) an
append that finds its stream larger than `roll_size_byte_` begins in the second of the last roll and
reads that second in `roll_file`, and (b) of the appends to any one stream at most `check_every_ - 1`
began in a later period than the one it was rolled in. -/
theorem roll_discipline {c : RollPolicy} (positive : 0 < c.rollPeriodSec) (checks : 1 ≤ c.checkEvery)
    {t : Readings} {opens : Bool} {start s : Rolling} (constructed : construct c t opens = .ok start)
    {calls : List AppendCall} (clean : ∀ call ∈ calls, ∀ r ∈ call.results, r.error = false)
    (ran : run (append c) start calls = .ok s) :
    (∀ call u st, s.append c call = .ok u → call.data.getD [] ≠ [] → s.AppendsTo c call st →
      c.rollSizeByte < st.bytes.length →
      call.times.guard = u.lastRollTime ∧ call.times.start = u.lastRollTime) ∧
    ∀ st ∈ s.streams, (st.late c : Int) ≤ c.checkEvery - 1 := by
  have paced : s.Paced c :=
    run_invariant (fun _ _ _ paced ok => paced.append positive ok) (paced_construct checks constructed)
      ran
  have along : Along (append c) (fun _ call => ∀ r ∈ call.results, r.error = false) start calls :=
    Along.of_labels (fun call member _ => clean call member) start
  have kept : s.Kept c :=
    run_invariant_along (fun _ _ _ kept clean ok => kept.append clean ok)
      (kept_construct constructed) along ran
  apply And.intro _ paced.bounded
  rintro call u st ok filled ⟨m, decided, current⟩ large
  obtain ⟨onTime, ⟨empty, _⟩ | ⟨_, m', _, _, _, decided', _, rfl, _, _⟩⟩ := append_cases ok
  · exact absurd empty filled
  · obtain rfl : m = m' := Except.ok.inj (decided.symm.trans decided')
    have second := large_second kept paced onTime decided current large
    exact second

/-- Streams of four bytes, and a look at the period on every third call. -/
def tightPolicy : RollPolicy := { smallPolicy with checkEvery := 3 }

theorem tightStart_constructed : construct tightPolicy (.at 1000) true = .ok smallStart := rfl

/-- The stream is larger than that within its second; on the next day the size begins another. -/
def dayCalls : List AppendCall :=
  [⟨some [1, 2, 3, 4, 5], .at 1000, [⟨5, false⟩], true⟩, ⟨some [6, 7], .at 1000, [⟨2, false⟩], true⟩,
    ⟨some [8], .at 87000, [⟨1, false⟩], true⟩, ⟨some [9], .at 87001, [⟨1, false⟩], true⟩]

theorem dayCalls_disciplined :
    ∃ s, run (append tightPolicy) smallStart dayCalls = .ok s ∧
      ∀ st ∈ s.streams, (st.late tightPolicy : Int) ≤ tightPolicy.checkEvery - 1 := by
  have returns : (run (append tightPolicy) smallStart dayCalls).isOk = true := by decide +kernel
  cases ran : run (append tightPolicy) smallStart dayCalls with
  | error f =>
    rw [ran] at returns
    cases returns
  | ok s =>
    have disciplined := roll_discipline (c := tightPolicy) (by decide) (by decide)
      tightStart_constructed (by decide) ran
    exact ⟨s, rfl, disciplined.2⟩

end Rolling

end Clia.Log
