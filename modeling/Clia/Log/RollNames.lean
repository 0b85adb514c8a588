import Clia.Log.Rolling
import Mathlib.Data.Set.Function

/-!
# The names of log files

`roll_file` takes a second roll in one second for no roll at all, and the file name has the second in
it. But the two are different readings of the clock: if it ticks between them, the name is of a later
second than the guard. A roll within that second then passes the guard and opens the same file again.

## Main result

`Rolling.names_distinct_iff`: the names of all streams are different in exactly the runs in which no
roll falls into the second to which the clock ticked in the middle of the roll before it.
-/

namespace Clia.Log

open LabelledRun

namespace RollPolicy

/-- The date in a file name. -/
def stamp (c : RollPolicy) (now : Int) : List UInt8 := getDatePrefix 32 (c.localtime now)

/-- Everything in a file name but the date is the same for all files of an appender. -/
theorem stamp_of_name {c : RollPolicy} {a b : Int}
    (same : c.appender.getLogfilename (c.localtime a) c.pid =
      c.appender.getLogfilename (c.localtime b) c.pid) : c.stamp a = c.stamp b := by
  have tail := List.append_cancel_left same
  simp only [List.append_assoc] at tail
  exact List.append_cancel_right tail

end RollPolicy

namespace Rolling

/-- If the call makes an effective roll and the clock ticked between the guard and the file name of
the roll before, the name is taken in a later second than that one. -/
def TicksApart (c : RollPolicy) (s : Rolling) (call : AppendCall) : Prop :=
  call.data.getD [] ≠ [] → s.WillRoll c call.times →
    ∀ st, s.file = some st → st.rolledAt ≠ st.namedAt → st.namedAt ≠ call.times.name

instance (c : RollPolicy) (s : Rolling) (call : AppendCall) : Decidable (s.TicksApart c call) :=
  match found : s.file with
  | none => isTrue (by intro _ _ st current; rw [found] at current; cases current)
  | some st =>
    decidable_of_iff (call.data.getD [] ≠ [] → s.WillRoll c call.times →
      st.rolledAt ≠ st.namedAt → st.namedAt ≠ call.times.name) (by simp [TicksApart, found])

/-- What the clock says of the names: they were taken in order, and the last one between the guard of
its roll and now. -/
structure Named (c : RollPolicy) (seconds : Set Int) (s : Rolling) : Prop where
  named : ∀ st ∈ s.streams,
    st.name = c.appender.getLogfilename (c.localtime st.namedAt) c.pid ∧ st.namedAt ∈ seconds
  sorted : ∀ st, s.file = some st → ∀ earlier ∈ s.closed, earlier.namedAt ≤ st.namedAt
  current : ∀ st, s.file = some st →
    st.rolledAt = s.lastRollTime ∧ st.rolledAt ≤ st.namedAt ∧ st.namedAt ≤ s.now
  first : s.file = none → s.closed = []

section

variable {c : RollPolicy} {seconds : Set Int} {s m u : Rolling} {t : Readings} {opens : Bool}
  {call : AppendCall}

theorem Named.before (named : s.Named c seconds) {st : Stream} (current : s.file = some st) :
    ∀ earlier ∈ s.streams, earlier.namedAt ≤ st.namedAt := by
  intro earlier member
  rw [streams_some current] at member
  rcases List.mem_append.mp member with closed | last
  · exact named.sorted st current earlier closed
  · rw [List.mem_singleton.mp last]

theorem Named.stays (named : s.Named c seconds) {st : Stream} (current : s.file = some st)
    (onTime : s.now ≤ t.start) (count : Int) (new : List (Nat × List UInt8)) (w : Nat)
    (buf : List UInt8) : (wrote { s with count := count } st new w buf t).Named c seconds := by
  have ordered := t.ordered
  have each := named.named
  rw [streams_some current] at each
  constructor
  · intro st' member
    rcases List.mem_append.mp member with closed | last
    · exact each st' (List.mem_append_left _ closed)
    · rw [List.mem_singleton.mp last]
      exact each st (List.mem_append_right _ (List.mem_singleton_self st))
  · intro st' same
    cases same
    exact named.sorted st current
  · intro st' same
    cases same
    obtain ⟨guard, tick, past⟩ := named.current st current
    refine ⟨guard, tick, ?_⟩
    simp only [wrote]
    omega
  · intro none
    cases none

theorem Named.begins (named : s.Named c seconds) (onTime : s.now ≤ t.start)
    (inside : t.name ∈ seconds) (count : Int) (opens : Bool) (new : List (Nat × List UInt8)) (w : Nat)
    (buf : List UInt8) :
    (wrote { s.rolled c t opens with count := count } (newStream c t opens) new w buf t).Named c
      seconds := by
  have ordered := t.ordered
  constructor
  · intro st' member
    rcases List.mem_append.mp member with closed | last
    · exact named.named st' closed
    · rw [List.mem_singleton.mp last]
      exact ⟨rfl, inside⟩
  · intro st' same earlier closed
    cases same
    -- The names so far were taken before this call.
    cases file_eq : s.file with
    | none =>
      have none : earlier ∈ s.streams := closed
      rw [streams, file_eq, named.first file_eq] at none
      cases none
    | some st =>
      have before := named.before file_eq earlier closed
      obtain ⟨_, _, past⟩ := named.current st file_eq
      simp only [newStream]
      omega
  · intro st' same
    cases same
    refine ⟨rfl, ?_, ?_⟩
    · simp only [newStream]
      omega
    · simp only [newStream, wrote]
      omega
  · intro none
    cases none

/-- Step lemma. -/
theorem Named.append (named : s.Named c seconds) (inside : call.times.name ∈ seconds)
    (ok : s.append c call = .ok u) : u.Named c seconds := by
  obtain ⟨onTime, ⟨_, rfl⟩ | ⟨_, m, st, new, w, decided, current, rfl, _, _⟩⟩ := append_cases ok
  · have ordered := call.times.ordered
    refine { named with named := named.named, current := ?_ }
    intro st current
    obtain ⟨guard, tick, past⟩ := named.current st current
    refine ⟨guard, tick, ?_⟩
    simp only
    omega
  · rcases rollIfDue_rolls decided with ⟨_, count, rfl⟩ | ⟨_, _, count, rfl⟩
    · exact named.stays current onTime count new w _
    · cases current
      exact named.begins onTime inside count call.opens new w _

/-- The names after a call: the same ones, or with that of an effective roll behind them. -/
theorem append_names (ok : s.append c call = .ok u) :
    (¬(call.data.getD [] ≠ [] ∧ s.WillRoll c call.times) ∧
      u.streams.map Stream.name = s.streams.map Stream.name) ∨
    (call.data.getD [] ≠ [] ∧ s.WillRoll c call.times ∧
      u.streams.map Stream.name = s.streams.map Stream.name ++
        [c.appender.getLogfilename (c.localtime call.times.name) c.pid]) := by
  obtain ⟨_, ⟨empty, rfl⟩ | ⟨filled, m, st, new, w, decided, current, rfl, _, _⟩⟩ := append_cases ok
  · left
    exact ⟨fun rolls => rolls.1 empty, rfl⟩
  · rcases rollIfDue_rolls decided with ⟨quiet, count, rfl⟩ | ⟨will, _, count, rfl⟩
    · left
      refine ⟨fun rolls => quiet rolls.2, ?_⟩
      have there : s.file = some st := current
      rw [streams_some there]
      simp [streams, wrote]
    · right
      cases current
      refine ⟨filled, will, ?_⟩
      simp [streams, wrote, rolled, newStream]

/-- The name of a roll is new unless the roll before it was named in the same second, which takes a
tick between the guard and the name of that one. -/
theorem name_fresh_iff (distinct : Set.InjOn c.stamp seconds) (named : s.Named c seconds)
    (inside : call.times.name ∈ seconds) (onTime : s.now ≤ call.times.start)
    (filled : call.data.getD [] ≠ []) (will : s.WillRoll c call.times) :
    c.appender.getLogfilename (c.localtime call.times.name) c.pid ∉ s.streams.map Stream.name ↔
      s.TicksApart c call := by
  have ordered := call.times.ordered
  cases file_eq : s.file with
  | none =>
    -- There is no stream before the roll.
    have none : s.streams = [] := by
      rw [streams, file_eq, named.first file_eq]
      rfl
    apply iff_of_true
    · simp [none]
    · intro _ _ st current
      rw [file_eq] at current
      cases current
  | some st =>
    obtain ⟨guard, tick, past⟩ := named.current st file_eq
    constructor
    · intro fresh _ _ st' current _ same
      rw [file_eq] at current
      cases current
      apply fresh
      have member : st ∈ s.streams := by
        rw [streams_some file_eq]
        simp
      rw [← same, ← (named.named st member).1]
      exact List.mem_map_of_mem member
    · intro apart member
      obtain ⟨earlier, member, same⟩ := List.mem_map.mp member
      rw [(named.named earlier member).1] at same
      have same_second : earlier.namedAt = call.times.name :=
        distinct (named.named earlier member).2 inside (RollPolicy.stamp_of_name same)
      have before := named.before file_eq earlier member
      -- So the last name is of this second, too, and its guard is of an earlier one.
      have last : st.namedAt = call.times.name := by omega
      have ticked : st.rolledAt ≠ st.namedAt := by
        intro none
        have guards := will.1
        omega
      exact apart filled will st file_eq ticked last

theorem names_step_iff (distinct : Set.InjOn c.stamp seconds) (named : s.Named c seconds)
    (inside : call.times.name ∈ seconds) (ok : s.append c call = .ok u) :
    (u.streams.map Stream.name).Nodup ↔
      (s.streams.map Stream.name).Nodup ∧ s.TicksApart c call := by
  rcases append_names ok with ⟨quiet, names⟩ | ⟨filled, will, names⟩
  · have apart : s.TicksApart c call := fun filled will => absurd ⟨filled, will⟩ quiet
    rw [names, and_iff_left apart]
  · rw [names, ← name_fresh_iff distinct named inside (append_cases ok).1 filled will,
      List.nodup_append_comm]
    simp [and_comm]

theorem named_construct (inside : t.name ∈ seconds) (ok : construct c t opens = .ok s) :
    s.Named c seconds := by
  have ordered := t.ordered
  rcases construct_cases ok with ⟨_, rfl⟩ | ⟨_, _, rfl⟩
  · constructor <;> simp [streams]
  · constructor
    · simp [streams, newStream, inside]
    · simp
    · intro st same
      cases same
      refine ⟨rfl, ?_, ?_⟩
      · simp only [newStream]
        omega
      · simp only [newStream]
        omega
    · simp

end

/-- **Each roll starts a new file**: in every run with any clock that does not go back, whose seconds
are formatted differently, the names that the rolls have opened are all different exactly if no
effective roll takes its name in the second to which the clock ticked between the guard and the name
of the roll before it. -/
theorem names_distinct_iff {c : RollPolicy} {seconds : Set Int}
    (distinct : Set.InjOn c.stamp seconds) {t : Readings} {opens : Bool} {start s : Rolling}
    (constructed : construct c t opens = .ok start) (named : t.name ∈ seconds)
    {calls : List AppendCall} (inside : ∀ call ∈ calls, call.times.name ∈ seconds)
    (ran : run (append c) start calls = .ok s) :
    (s.streams.map Stream.name).Nodup ↔ Along (append c) (TicksApart c) start calls := by
  have along : Along (append c) (fun _ call => call.times.name ∈ seconds) start calls :=
    Along.of_labels (fun call member _ => inside call member) start
  have alone : (start.streams.map Stream.name).Nodup := by
    rcases construct_cases constructed with ⟨_, rfl⟩ | ⟨_, _, rfl⟩
    · exact List.nodup_nil
    · exact List.nodup_singleton _
  have steps := run_iff_along 
    (fun _ _ _ named inside ok => Named.append named inside ok)
    (fun _ _ _ named inside ok => names_step_iff distinct named inside ok)
    (named_construct named constructed) along ran
  rw [steps, and_iff_right alone]

/-- Streams of four bytes in the first minute of 1970. -/
def minutePolicy : RollPolicy :=
  { smallPolicy with localtime := fun now => ⟨1970, 1, 1, 0, 0, now.toNat⟩ }

/-- The constructor reads 10 in the guard and 11 in the name. -/
def tickReadings : Readings := ⟨10, 10, 10, 11, 11, by decide⟩

def tickStart : Rolling := rolled minutePolicy ⟨0, 0, 0, 0, none, [], [], 11⟩ tickReadings true

theorem tickStart_constructed : construct minutePolicy tickReadings true = .ok tickStart := rfl

theorem minutePolicy_distinct : Set.InjOn minutePolicy.stamp {10, 11, 12} := by
  intro a first b second same
  rcases first with rfl | rfl | rfl <;> rcases second with rfl | rfl | rfl <;> revert same <;>
    decide +kernel

/-- The first append makes the stream too large, and the second rolls. -/
def rollingCalls (second : Int) : List AppendCall :=
  [⟨some [1, 2, 3, 4, 5], .at 11, [⟨5, false⟩], true⟩, ⟨some [6], .at second, [⟨1, false⟩], true⟩]

/-- A roll in a later second has a name of its own. -/
theorem later_second_distinct :
    ∃ s, run (append minutePolicy) tickStart (rollingCalls 12) = .ok s ∧
      (s.streams.map Stream.name).Nodup := by
  refine ⟨_, rfl, ?_⟩
  have inside : ∀ call ∈ rollingCalls 12, call.times.name ∈ ({10, 11, 12} : Set Int) := by
    simp [rollingCalls, Readings.at]
  apply (names_distinct_iff minutePolicy_distinct tickStart_constructed (by simp [tickReadings])
    inside rfl).mpr
  decide +kernel

/-- A roll in the second 11 opens the file again that was named in the second 11. -/
theorem same_second_reopens :
    Set.InjOn minutePolicy.stamp {10, 11, 12} ∧
      construct minutePolicy tickReadings true = .ok tickStart ∧
      ∃ s, run (append minutePolicy) tickStart (rollingCalls 11) = .ok s ∧
        ¬(s.streams.map Stream.name).Nodup := by
  refine ⟨minutePolicy_distinct, tickStart_constructed, _, rfl, ?_⟩
  decide +kernel

end Rolling

end Clia.Log
