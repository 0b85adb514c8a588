import Clia.Base
import Clia.Library.LabelledRun
import Mathlib.Logic.Function.Basic

/-!
# The countdown latch

`util/countdown_latch.cc`. Any number of threads call `wait` and `count_down`. `count_down` holds
`lck_` throughout; `wait` has a `std::unique_lock` that was given no mutex, so it holds nothing: other
threads run between its test of `count_` and its call of `condition_.wait`, and that call is not
defined by the standard. Either it goes to sleep with nothing to release, or it dereferences the null
mutex; the label says which.

## Main result

`CountDownLatch.no_wakeup_lost_iff`: no thread is lost in exactly the runs in which every
`condition_.wait` gets to sleep, and does so while the one notification is still to come.
-/

namespace Clia.Util

open LabelledRun

/-- Where a thread is. -/
inductive LatchPc where
  | outside
  /-- at the head of the loop of `wait` -/
  | testing
  /-- has read a positive `count_` and is about to call `condition_.wait` -/
  | entering
  /-- in `condition_.wait` -/
  | blocked
  /-- in `count_down`, before it holds `lck_` -/
  | locking
  /-- in `count_down`, between the decrement and the comparison with zero -/
  | decremented
  deriving DecidableEq, Repr

/-- `holder` is the thread that holds `lck_`. -/
structure CountDownLatch (T : Type) where
  count : Int
  holder : Option T
  threads : T → LatchPc

namespace CountDownLatch

variable {T : Type}

def new (count : Int) : CountDownLatch T := ⟨count, none, fun _ => .outside⟩

inductive Label (T : Type) where
  | callWait (thread : T)
  | callCountDown (thread : T)
  /-- `count_ > 0`, with no lock held -/
  | test (thread : T)
  /-- `condition_.wait(lck)`, and whether it dereferences the mutex that `lck` does not have -/
  | block (thread : T) (crashes : Bool)
  /-- a wait returns on its own -/
  | wake (thread : T)
  /-- the thread gets `lck_` and decrements -/
  | lock (thread : T)
  /-- the comparison with zero, `notify_all`, and the end of the scope of the lock -/
  | notify (thread : T)
  deriving DecidableEq, Repr

/-- `notify_all`. -/
def notifyAll (s : CountDownLatch T) : CountDownLatch T :=
  { s with threads := fun thread =>
      if s.threads thread = .blocked then .testing else s.threads thread }

variable [DecidableEq T]

def goto (s : CountDownLatch T) (thread : T) (pc : LatchPc) : CountDownLatch T :=
  { s with threads := Function.update s.threads thread pc }

def step (s : CountDownLatch T) : Label T → Except Fault (CountDownLatch T)
  | .callWait thread => do
    Checked.require (s.threads thread = .outside) Fault.disabled
    return s.goto thread .testing
  | .callCountDown thread => do
    Checked.require (s.threads thread = .outside) Fault.disabled
    return s.goto thread .locking
  | .test thread => do
    Checked.require (s.threads thread = .testing) Fault.disabled
    return s.goto thread (if s.count > 0 then .entering else .outside)
  | .block thread crashes => do
    Checked.require (s.threads thread = .entering) Fault.disabled
    Checked.require (crashes = false) Fault.nullDereference
    return s.goto thread .blocked
  | .wake thread => do
    Checked.require (s.threads thread = .blocked) Fault.disabled
    return s.goto thread .testing
  | .lock thread => do
    Checked.require (s.threads thread = .locking ∧ s.holder = none) Fault.disabled
    return { s.goto thread .decremented with count := s.count - 1, holder := some thread }
  | .notify thread => do
    Checked.require (s.threads thread = .decremented) Fault.disabled
    let s := if s.count = 0 then s.notifyAll else s
    return { s.goto thread .outside with holder := none }

/-! ### What the latch is for -/

/-- The notification is still to come: a thread has brought the count to zero and not yet looked. -/
def WillNotify (s : CountDownLatch T) : Prop :=
  s.count = 0 ∧ ∃ thread, s.threads thread = .decremented

/-- No thread sleeps for ever. -/
def Served (s : CountDownLatch T) : Prop :=
  s.count ≤ 0 → ∀ thread, s.threads thread = .blocked → s.WillNotify

/-- A step of a latch: `wait` returns only when the count is down, no thread that waits is left
behind, and none crashes. -/
def LosesNoWakeup (s : CountDownLatch T) (l : Label T) : Prop :=
  match s.step l with
  | .ok t => t.Served ∧
    ∀ thread, s.threads thread = .testing → t.threads thread = .outside → t.count ≤ 0
  | .error f => f = .disabled

/-- A call of `condition_.wait` goes to sleep while a notification is still to come. -/
def BlocksInTime (s : CountDownLatch T) : Label T → Prop
  | .block thread crashes => s.threads thread = .entering →
    crashes = false ∧ (0 < s.count ∨ s.WillNotify)
  | _ => True

/-! ### What a step can do -/

variable {s t : CountDownLatch T} {l : Label T} {thread : T} {pc : LatchPc}

@[simp] theorem goto_self : (s.goto thread pc).threads thread = pc := Function.update_self _ _ _

theorem goto_other {other : T} (ne : other ≠ thread) :
    (s.goto thread pc).threads other = s.threads other := Function.update_of_ne ne _ _

/-- Who is at another place than the thread that has moved was there before. -/
theorem at_of_goto {other : T} {place : LatchPc} (ne : pc ≠ place)
    (here : (s.goto thread pc).threads other = place) : other ≠ thread ∧ s.threads other = place := by
  have apart : other ≠ thread := by
    rintro rfl
    exact ne (goto_self.symm.trans here)
  exact ⟨apart, (goto_other apart).symm.trans here⟩

/-- And who was at another place is still there. -/
theorem goto_at {other : T} {place : LatchPc} (ne : s.threads thread ≠ place)
    (here : s.threads other = place) : (s.goto thread pc).threads other = place := by
  have apart : other ≠ thread := by
    rintro rfl
    exact ne here
  exact (goto_other apart).trans here

theorem step_cases (taken : s.step l = .ok t) :
    (∃ thread pc, t = s.goto thread pc ∧ s.threads thread ≠ .decremented ∧ pc ≠ .blocked ∧
      pc ≠ .decremented ∧ (s.threads thread = .testing → pc = .outside → s.count ≤ 0)) ∨
    (∃ thread, l = .block thread false ∧ s.threads thread = .entering ∧
      t = s.goto thread .blocked) ∨
    (∃ thread, s.threads thread = .locking ∧ s.holder = none ∧
      t = { s.goto thread .decremented with count := s.count - 1, holder := some thread }) ∨
    (∃ thread, s.threads thread = .decremented ∧
      t = { (if s.count = 0 then s.notifyAll else s).goto thread .outside with holder := none }) := by
  cases l with
  | callWait thread =>
    obtain ⟨here, rfl⟩ := Checked.guarded_ok_iff.mp taken
    exact .inl ⟨thread, _, rfl, by simp [here], by simp, by simp, by simp⟩
  | callCountDown thread =>
    obtain ⟨here, rfl⟩ := Checked.guarded_ok_iff.mp taken
    exact .inl ⟨thread, _, rfl, by simp [here], by simp, by simp, by simp⟩
  | test thread =>
    obtain ⟨here, rfl⟩ := Checked.guarded_ok_iff.mp taken
    refine .inl ⟨thread, _, rfl, by simp [here], ?_⟩
    by_cases positive : s.count > 0
    · simp [positive]
    · simp [positive, Int.not_lt.mp positive]
  | block thread crashes =>
    obtain ⟨_, here, taken⟩ := Checked.bind_ok_iff.mp taken
    obtain ⟨_, sleeps, taken⟩ := Checked.bind_ok_iff.mp taken
    cases taken
    obtain rfl := Checked.require_ok_iff.mp sleeps
    exact .inr (.inl ⟨thread, rfl, Checked.require_ok_iff.mp here, rfl⟩)
  | wake thread =>
    obtain ⟨here, rfl⟩ := Checked.guarded_ok_iff.mp taken
    exact .inl ⟨thread, _, rfl, by simp [here], by simp, by simp, by simp⟩
  | lock thread =>
    obtain ⟨here, rfl⟩ := Checked.guarded_ok_iff.mp taken
    exact .inr (.inr (.inl ⟨thread, here.1, here.2, rfl⟩))
  | notify thread =>
    obtain ⟨here, rfl⟩ := Checked.guarded_ok_iff.mp taken
    exact .inr (.inr (.inr ⟨thread, here, rfl⟩))

/-! ### The invariant -/

/-- Nobody is left behind, and who has decremented holds `lck_`. -/
structure Inv (s : CountDownLatch T) : Prop where
  served : s.Served
  owned : ∀ thread, s.threads thread = .decremented → s.holder = some thread

omit [DecidableEq T] in
theorem inv_new (count : Int) : Inv (new count : CountDownLatch T) := by
  constructor
  · intro _ thread waits
    cases waits
  · intro thread here
    cases here

omit [DecidableEq T] in
theorem notifyAll_threads (thread : T) :
    s.notifyAll.threads thread ≠ .blocked ∧
      (s.notifyAll.threads thread = .decremented ↔ s.threads thread = .decremented) ∧
      (s.notifyAll.threads thread = .outside ↔ s.threads thread = .outside) := by
  simp only [notifyAll]
  by_cases waits : s.threads thread = .blocked
  · simp [waits]
  · simp [waits]

omit [DecidableEq T] in
/-- While `lck_` is free, nobody has decremented and not yet looked. -/
theorem Inv.nobody (inv : Inv s) (free : s.holder = none) (thread : T) :
    s.threads thread ≠ .decremented := by
  intro here
  have taken := inv.owned thread here
  rw [free] at taken
  cases taken

theorem step_owned (inv : Inv s) (taken : s.step l = .ok t) (other : T)
    (here : t.threads other = .decremented) : t.holder = some other := by
  rcases step_cases taken with ⟨thread, pc, rfl, _, _, not_decremented, _⟩ | ⟨thread, _, _, rfl⟩ |
    ⟨thread, _, free, rfl⟩ | ⟨thread, mine, rfl⟩
  · exact inv.owned other (at_of_goto not_decremented here).2
  · exact inv.owned other (at_of_goto (by decide) here).2
  · by_cases own : other = thread
    · rw [own]
    · have before : s.threads other = .decremented := (goto_other own).symm.trans here
      exact absurd before (inv.nobody free other)
  · -- Only one thread holds `lck_`.
    obtain ⟨apart, now⟩ := at_of_goto (by decide) here
    have before : s.threads other = .decremented := by
      split at now
      next => exact (notifyAll_threads other).2.1.mp now
      next => exact now
    have same := (inv.owned other before).symm.trans (inv.owned thread mine)
    exact absurd (Option.some.inj same) apart

theorem step_served (inv : Inv s) (in_time : s.BlocksInTime l) (taken : s.step l = .ok t) :
    t.Served := by
  rcases step_cases taken with ⟨thread, pc, rfl, was_not, not_blocked, _, _⟩ |
    ⟨thread, rfl, here, rfl⟩ | ⟨thread, _, free, rfl⟩ | ⟨thread, mine, rfl⟩
  · intro down other waits
    have before := (at_of_goto not_blocked waits).2
    obtain ⟨zero, notifier, decremented⟩ := inv.served down other before
    exact ⟨zero, notifier, goto_at was_not decremented⟩
  · intro down other _
    rcases (in_time here).2 with positive | ⟨zero, notifier, decremented⟩
    · exact absurd positive (Int.not_lt.mpr down)
    · exact ⟨zero, notifier, goto_at (by rw [here]; decide) decremented⟩
  · intro down other waits
    by_cases zero : s.count - 1 = 0
    · exact ⟨zero, thread, goto_self⟩
    · -- The count was down before, and nobody was about to notify, so nobody waits.
      have before := (at_of_goto (by decide) waits).2
      simp only at down
      obtain ⟨_, notifier, decremented⟩ := inv.served (by omega) other before
      exact absurd decremented (inv.nobody free notifier)
  · intro down other waits
    have now := (at_of_goto (by decide) waits).2
    split at now
    next => exact absurd now (notifyAll_threads other).1
    next nonzero =>
      -- Who waits in a count below zero would have been left behind before.
      have same : s.count ≤ 0 := by simpa [goto, if_neg nonzero] using down
      exact absurd (inv.served same other now).1 nonzero

theorem step_returns (taken : s.step l = .ok t) (other : T) (testing : s.threads other = .testing)
    (outside : t.threads other = .outside) : t.count ≤ 0 := by
  -- Only the thread that tests can leave, and it leaves at a count that is down.
  have was_inside : s.threads other ≠ .outside := by rw [testing]; decide
  rcases step_cases taken with ⟨thread, pc, rfl, _, _, _, returns⟩ | ⟨thread, _, here, rfl⟩ |
    ⟨thread, here, _, rfl⟩ | ⟨thread, mine, rfl⟩
  · by_cases own : other = thread
    · subst own
      exact returns testing (goto_self.symm.trans outside)
    · exact absurd ((goto_other own).symm.trans outside) was_inside
  · exact absurd (at_of_goto (by decide) outside).2 was_inside
  · exact absurd (at_of_goto (by decide) outside).2 was_inside
  · have apart : other ≠ thread := by
      rintro rfl
      rw [testing] at mine
      cases mine
    have now := (goto_other apart).symm.trans outside
    split at now
    next => exact absurd ((notifyAll_threads other).2.2.mp now) was_inside
    next => exact absurd now was_inside

/-- Only a `condition_.wait` can crash. -/
theorem step_raises (in_time : s.BlocksInTime l) : Checked.Raises (· = .disabled) (s.step l) := by
  cases l with
  | callWait thread => exact .bind (.require rfl) fun _ _ => .ok _
  | callCountDown thread => exact .bind (.require rfl) fun _ _ => .ok _
  | test thread => exact .bind (.require rfl) fun _ _ => .ok _
  | block thread crashes =>
    refine .bind (.require rfl) ?_
    intro _ here
    have sleeps : crashes = false := (in_time (Checked.require_ok_iff.mp here)).1
    rw [Checked.require_pos _ sleeps, Checked.ok_bind]
    exact .ok _
  | wake thread => exact .bind (.require rfl) fun _ _ => .ok _
  | lock thread => exact .bind (.require rfl) fun _ _ => .ok _
  | notify thread => exact .bind (.require rfl) fun _ _ => .ok _

/-- A thread that goes to sleep after the notification is lost. -/
theorem LosesNoWakeup.blocksInTime (keeps : s.LosesNoWakeup l) : s.BlocksInTime l := by
  cases l with
  | block thread crashes =>
    intro here
    unfold LosesNoWakeup at keeps
    rw [step, Checked.require_pos _ here, Checked.ok_bind] at keeps
    cases crashes with
    | true => cases keeps
    | false =>
      refine ⟨rfl, ?_⟩
      by_cases positive : 0 < s.count
      · exact .inl positive
      · right
        obtain ⟨zero, notifier, decremented⟩ := keeps.1 (Int.not_lt.mp positive) thread goto_self
        exact ⟨zero, notifier, (at_of_goto (by decide) decremented).2⟩
  | _ => trivial

theorem losesNoWakeup_iff (inv : Inv s) (l : Label T) : s.LosesNoWakeup l ↔ s.BlocksInTime l := by
  constructor
  · exact LosesNoWakeup.blocksInTime
  · intro in_time
    unfold LosesNoWakeup
    cases taken : s.step l with
    | ok t => exact ⟨step_served inv in_time taken, step_returns taken⟩
    | error f => exact step_raises in_time f taken

/-- **No lost wakeup**: over every interleaving of `wait` and `count_down` calls, `wait` returns only
when the count is down and no thread is left asleep or crashes, in exactly the runs in which every
`condition_.wait` gets to sleep while the count is positive or its notification is still to come. -/
theorem no_wakeup_lost_iff (count : Int) (labels : List (Label T)) :
    Along step LosesNoWakeup (new count) labels ↔ Along step BlocksInTime (new count) labels := by
  apply along_iff Inv _ _ (inv_new count)
  · intro s l t inv keeps taken
    have in_time := keeps.blocksInTime
    exact ⟨step_served inv in_time taken, step_owned inv taken⟩
  · intro s l inv
    exact losesNoWakeup_iff inv l

/-- Thread 0 reads a count of one, and thread 1 counts down and notifies nobody. -/
def missedLabels : List (Label Nat) :=
  [.callWait 0, .test 0, .callCountDown 1, .lock 1, .notify 1]

/-- Whichever of the two `condition_.wait` then does, thread 0 does not come back: it goes to sleep, or
it dereferences the mutex that is not there. -/
theorem wakeup_lost :
    ¬Along step LosesNoWakeup (new 1 : CountDownLatch Nat) (missedLabels ++ [.block 0 false]) ∧
    ¬Along step LosesNoWakeup (new 1 : CountDownLatch Nat) (missedLabels ++ [.block 0 true]) := by
  constructor
  · intro along
    obtain ⟨served, _⟩ := along.at_step rfl
    obtain ⟨_, notifier, decremented⟩ := served (by decide) 0 rfl
    simp only [goto, new, notifyAll, Function.update_apply] at decremented
    by_cases zero : notifier = 0
    · simp [zero] at decremented
    · by_cases one : notifier = 1
      · simp [one] at decremented
      · simp [zero, one] at decremented
  · intro along
    have crashed : Fault.nullDereference = Fault.disabled := along.at_step rfl
    cases crashed

end CountDownLatch

end Clia.Util
