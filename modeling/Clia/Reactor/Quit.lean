import Clia.Reactor.LoopThread

/-!
# Quitting a loop

What `EventLoop::quit` promises to the thread that calls it, and when the code keeps it.

`thread_func` publishes `loop_` before `loop` has stored `quit_ = false`, so a `quit` in between is
overwritten (`quit_kept_iff`). And `loop` tests `quit_` right after it has drained the queue, so a
functor that is pushed after the swap is not called if its thread quits before that test
(`accepted_executed_iff`).
-/

namespace Clia.Reactor

open LabelledRun

namespace LoopPc

variable {E : Type}

/-- `loop` has not stored `quit_ = false`. -/
def BeforeReset : LoopPc E → Prop
  | .constructed | .published | .entered => True
  | _ => False

instance (pc : LoopPc E) : Decidable pc.BeforeReset :=
  match pc with
  | .constructed | .published | .entered => isTrue trivial
  | .testing | .polling | .waiting | .dispatching _ _ | .draining | .swapping | .running _ _
  | .returned => isFalse id

/-- The next test of `quit_` comes before the next swap. -/
def PastSwap : LoopPc E → Prop
  | .testing | .running _ _ => True
  | _ => False

end LoopPc

namespace LoopThread

variable {T F : Type} [DecidableEq T] {s t : LoopThread T F} {l : Label T F}

/-! ### The flag -/

/-- The step does not take back a `quit`: the flag stays, and its test ends the loop. -/
def QuitKept (s : LoopThread T F) (l : Label T F) : Prop :=
  s.quitCalled = true → ∀ t, step s l = .ok t → t.quit = true ∧ (l = .test → t.pc = .returned)

/-- Other threads quit only when `loop` has stored `quit_ = false`. -/
def QuitInTime (s : LoopThread T F) (l : Label T F) : Prop :=
  ∀ thread, l = .quit thread → ¬s.pc.BeforeReset

/-- The loop runs, and a `quit` is still to be seen in the flag. -/
structure Kept (s : LoopThread T F) : Prop where
  past : ¬s.pc.BeforeReset
  flag : s.quitCalled = true → s.quit = true

/-- What a step does to the flag once `loop` has stored `quit_ = false`. -/
theorem Kept.after (kept : Kept s) (moves : Moves s l t) :
    Kept t ∧ (s.quitCalled = true → t.quit = true ∧ (l = .test → t.pc = .returned)) := by
  obtain ⟨past, flag⟩ := kept
  cases moves with
  | publish here => simp [here, LoopPc.BeforeReset] at past
  | callLoop here => simp [here, LoopPc.BeforeReset] at past
  | resetQuit here => simp [here, LoopPc.BeforeReset] at past
  | leave here quit => exact ⟨⟨id, flag⟩, fun _ => ⟨quit, fun _ => rfl⟩⟩
  | again here quit =>
    have uncalled : s.quitCalled = false := by
      cases called : s.quitCalled with
      | false => rfl
      | true => simp [flag called] at quit
    exact ⟨⟨id, flag⟩, fun called => by simp [uncalled] at called⟩
  | enterWait here => exact ⟨⟨id, flag⟩, fun called => ⟨flag called, by simp⟩⟩
  | pollReturn active here => exact ⟨⟨id, flag⟩, fun called => ⟨flag called, by simp⟩⟩
  | dispatched inCallback here free => exact ⟨⟨id, flag⟩, fun called => ⟨flag called, by simp⟩⟩
  | handleRead inCallback active here free =>
    exact ⟨⟨id, flag⟩, fun called => ⟨flag called, by simp⟩⟩
  | callback inCallback active here free =>
    exact ⟨⟨id, flag⟩, fun called => ⟨flag called, by simp⟩⟩
  | startDraining here => exact ⟨⟨id, flag⟩, fun called => ⟨flag called, by simp⟩⟩
  | swap here => exact ⟨⟨id, flag⟩, fun called => ⟨flag called, by simp⟩⟩
  | runNext done functor rest here free =>
    exact ⟨⟨id, flag⟩, fun called => ⟨flag called, by simp⟩⟩
  | endDraining done here free => exact ⟨⟨id, flag⟩, fun called => ⟨flag called, by simp⟩⟩
  | ownPush cb user free => exact ⟨⟨past, flag⟩, fun called => ⟨flag called, by simp⟩⟩
  | ownWakeup inside calling => exact ⟨⟨past, flag⟩, fun called => ⟨flag called, by simp⟩⟩
  | ownSilence inside calling => exact ⟨⟨past, flag⟩, fun called => ⟨flag called, by simp⟩⟩
  | ownQuit user free => exact ⟨⟨past, fun _ => rfl⟩, fun _ => ⟨rfl, by simp⟩⟩
  | push thread cb shared outside => exact ⟨⟨past, flag⟩, fun called => ⟨flag called, by simp⟩⟩
  | quit thread shared outside => exact ⟨⟨past, fun _ => rfl⟩, fun _ => ⟨rfl, by simp⟩⟩
  | wakeup thread inside => exact ⟨⟨past, flag⟩, fun called => ⟨flag called, by simp⟩⟩

/-- After the store of `loop` nothing goes wrong any more, whoever quits. -/
theorem Kept.along (kept : Kept s) (ls : List (Label T F)) :
    Along step QuitKept s ls ∧ Along step QuitInTime s ls := by
  have preserved : ∀ s l (t : LoopThread T F), Kept s → step s l = .ok t → Kept t :=
    fun _ _ _ kept taken => (kept.after (step_moves taken)).1
  constructor
  · refine along_of_invariant preserved ?_ kept ls
    intro s l kept called t taken
    exact (kept.after (step_moves taken)).2 called
  · refine along_of_invariant preserved ?_ kept ls
    intro s l kept thread _
    exact kept.past

/-- The store is made once. -/
theorem past_step (past : ¬s.pc.BeforeReset) (moves : Moves s l t) : ¬t.pc.BeforeReset := by
  cases moves <;> first | exact past | exact id | simp_all [LoopPc.BeforeReset]

theorem past_run {ls : List (Label T F)} (past : ¬s.pc.BeforeReset)
    (ran : run step s ls = .ok t) : ¬t.pc.BeforeReset :=
  run_invariant (fun _ _ _ past taken => past_step past (step_moves taken)) past ran

/-- What a step does before that store: it is the store, a `quit`, or neither of them. -/
theorem early_step (early : s.pc.BeforeReset) (moves : Moves s l t) :
    (l = .resetQuit ∧ ¬t.pc.BeforeReset ∧ t.quit = false ∧ t.quitCalled = s.quitCalled) ∨
    (t.pc.BeforeReset ∧ l ≠ .test ∧ (∃ thread, l = .quit thread) ∧ t.quit = true ∧
      t.quitCalled = true) ∨
    (t.pc.BeforeReset ∧ l ≠ .test ∧ (∀ thread, l ≠ .quit thread) ∧ t.quit = s.quit ∧
      t.quitCalled = s.quitCalled) := by
  have own : ¬s.pc.InUserCode := by
    cases here : s.pc <;> simp [here, LoopPc.BeforeReset, LoopPc.InUserCode] at early ⊢
  cases moves with
  | publish here => simp [LoopPc.BeforeReset]
  | callLoop here => simp [LoopPc.BeforeReset]
  | resetQuit here => simp [LoopPc.BeforeReset]
  | leave here quit => simp [here, LoopPc.BeforeReset] at early
  | again here quit => simp [here, LoopPc.BeforeReset] at early
  | enterWait here => simp [here, LoopPc.BeforeReset] at early
  | pollReturn active here => simp [here, LoopPc.BeforeReset] at early
  | dispatched inCallback here free => simp [here, LoopPc.BeforeReset] at early
  | handleRead inCallback active here free => simp [here, LoopPc.BeforeReset] at early
  | callback inCallback active here free => simp [here, LoopPc.BeforeReset] at early
  | startDraining here => simp [here, LoopPc.BeforeReset] at early
  | swap here => simp [here, LoopPc.BeforeReset] at early
  | runNext done functor rest here free => simp [here, LoopPc.BeforeReset] at early
  | endDraining done here free => simp [here, LoopPc.BeforeReset] at early
  | ownPush cb user free => exact absurd user own
  | ownWakeup inside calling => exact .inr (.inr ⟨early, by simp, by simp, rfl, rfl⟩)
  | ownSilence inside calling => exact .inr (.inr ⟨early, by simp, by simp, rfl, rfl⟩)
  | ownQuit user free => exact absurd user own
  | push thread cb shared outside => exact .inr (.inr ⟨early, by simp, by simp, rfl, rfl⟩)
  | quit thread shared outside => exact .inr (.inl ⟨early, by simp, ⟨thread, rfl⟩, rfl, rfl⟩)
  | wakeup thread inside => exact .inr (.inr ⟨early, by simp, by simp, rfl, rfl⟩)

/-- A run from before the store: a `quit` is kept if none comes before the store, or if the run
does not get to it. -/
theorem early_run {ls : List (Label T F)} (early : s.pc.BeforeReset)
    (flag : s.quitCalled = true → s.quit = true) (ran : run step s ls = .ok t) :
    Along step QuitKept s ls ↔
      t.pc.BeforeReset ∨ (s.quitCalled = false ∧ Along step QuitInTime s ls) := by
  induction ls generalizing s with
  | nil =>
    cases ran
    simp [Along, early]
  | cons l ls ih =>
    obtain ⟨u, taken, later⟩ := run_cons_inv ran
    rw [along_cons_ok taken, along_cons_ok taken]
    have kept_iff : QuitKept s l ↔
        (s.quitCalled = true → u.quit = true ∧ (l = .test → u.pc = .returned)) := by
      simp [QuitKept, taken]
    rcases early_step early (step_moves taken) with
      ⟨rfl, past, cleared, called⟩ | ⟨still, other, ⟨thread, rfl⟩, stored, called⟩ |
        ⟨still, other, silent, same, called⟩
    · -- The store: it takes back any `quit` that came before it.
      have reached : ¬t.pc.BeforeReset := past_run past later
      cases before : s.quitCalled with
      | true => simp [kept_iff, before, cleared, reached]
      | false =>
        have kept : Kept u := ⟨past, by simp [called, before]⟩
        obtain ⟨keeps, in_time⟩ := kept.along ls
        simp [kept_iff, before, keeps, in_time, QuitInTime]
    · -- A `quit` before the store: it is kept as long as the store is not made.
      have untimely : ¬QuitInTime s (.quit thread) := fun in_time => in_time thread rfl early
      rw [ih still (fun _ => stored) later]
      simp [kept_iff, stored, called, untimely]
    · have in_time : QuitInTime s l := fun thread eq => absurd eq (silent thread)
      rw [ih still (by rw [same, called]; exact flag) later]
      simp only [kept_iff, same, called, in_time, true_and, and_iff_right_iff_imp]
      exact fun _ before => ⟨flag before, fun eq => absurd eq other⟩

/-- **Quit is kept** in a run exactly if no other thread stores `quit_ = true` before `loop` has
stored `quit_ = false`; or the run does not get to that store. -/
theorem quit_kept_iff (ls : List (Label T F)) (s : LoopThread T F)
    (ran : run step start ls = .ok s) :
    Along step QuitKept start ls ↔ s.pc.BeforeReset ∨ Along step QuitInTime start ls := by
  have early : (start : LoopThread T F).pc.BeforeReset := trivial
  rw [early_run early (fun called => by cases called) ran]
  simp [start]

/-- A run whose `quit` comes when the loop thread is in `epoll_wait`. -/
theorem quit_while_waiting :
    Along step QuitKept start ([.publish, .callLoop, .resetQuit, .test, .enterWait, .quit (),
      .wakeup (), .pollReturn [.wakeupChannel], .dispatch, .dispatch, .startDraining, .swap,
      .endDraining, .test] : List (Label Unit Unit)) := by
  apply (quit_kept_iff _ _ rfl).mpr
  right
  refine ⟨by simp [QuitInTime], ?_⟩
  rintro _ ⟨⟩
  refine ⟨by simp [QuitInTime], ?_⟩
  rintro _ ⟨⟩
  refine ⟨by simp [QuitInTime], ?_⟩
  rintro _ ⟨⟩
  -- From here on `loop` has stored `quit_ = false`.
  exact (Kept.along ⟨id, by simp [start]⟩ _).2

/-- `start_loop` returns, and the thread is to be ended before `loop` is entered. -/
def earlyQuit : List (Label Unit Unit) := [.publish, .quit (), .wakeup (), .callLoop]

/-- The loop thread then resets the flag. -/
theorem early_quit_lost :
    ¬∀ ls : List (Label Unit Unit), Along step QuitKept start ls := by
  intro kept
  have along : Along step QuitKept start (earlyQuit ++ [.resetQuit]) := kept _
  have kept_here := along.at_step (show run step start earlyQuit = .ok _ from rfl)
  exact absurd (kept_here rfl _ rfl).1 (by decide)

/-! ### Accepted functors -/

/-- The functors before this number have left the queue. -/
def firstQueued (s : LoopThread T F) : Nat := s.enqueued.length - s.pendingFunctors.length

/-- The functor with number `i` was accepted from the thread before its last `quit`. -/
def Due (s : LoopThread T F) (thread : T) (i : Nat) : Prop :=
  (∃ cb, s.enqueued[i]? = some cb ∧ cb.origin = some thread) ∧ i < s.marks thread

/-- A functor that is due is still in `pending_functors_`. -/
def DueQueued (s : LoopThread T F) : Prop :=
  ∃ thread i, s.Due thread i ∧ s.firstQueued ≤ i

/-- No thread quits between the swap and the test of `quit_` if that leaves a functor in the queue
that it has pushed itself, or that is already due. -/
def QuitInOrder (s : LoopThread T F) (l : Label T F) : Prop :=
  ∀ thread, l = .quit thread → s.pc.PastSwap →
    ∀ i cb, s.enqueued[i]? = some cb → s.firstQueued ≤ i →
      cb.origin ≠ some thread ∧ ∀ other, ¬s.Due other i

/-- The numbering of the functors is that of the queue, and a `quit` comes after the functors that
it is about. -/
structure NumberInv (s : LoopThread T F) : Prop where
  queue : QueueInv s
  marks : ∀ thread, s.marks thread ≤ s.enqueued.length

theorem NumberInv.after (inv : NumberInv s) (moves : Moves s l t) : NumberInv t := by
  refine ⟨inv.queue.step moves, ?_⟩
  intro thread
  have mark := inv.marks thread
  cases moves with
  | ownPush cb user free => simpa [pushBack] using Nat.le_succ_of_le mark
  | push other cb shared outside => simpa [pushBack] using Nat.le_succ_of_le mark
  | quit other shared outside =>
    by_cases own : thread = other
    · subst own
      simp
    · simpa [Function.update_of_ne own] using mark
  | _ => exact mark

omit [DecidableEq T] in
/-- What leaves the queue has been called or will be called by the running drain. -/
theorem NumberInv.firstQueued_eq (inv : NumberInv s) :
    s.firstQueued = s.executed.length + s.pc.rest.length := by
  have total := congrArg List.length inv.queue
  simp only [List.length_append] at total
  unfold firstQueued
  omega

/-- The lists and marks that `DueQueued` looks at are the same in both states. -/
structure SameQueue (s t : LoopThread T F) : Prop where
  enqueued : t.enqueued = s.enqueued
  pending : t.pendingFunctors = s.pendingFunctors
  marks : t.marks = s.marks

omit [DecidableEq T] in
theorem SameQueue.dueQueued_iff (same : SameQueue s t) : DueQueued t ↔ DueQueued s := by
  simp [DueQueued, Due, firstQueued, same.enqueued, same.pending, same.marks]

/-- One functor has been pushed. -/
structure OnePush (s t : LoopThread T F) (cb : Queued T F) : Prop where
  enqueued : t.enqueued = s.enqueued ++ [cb]
  pending : t.pendingFunctors = s.pendingFunctors ++ [cb]
  marks : t.marks = s.marks

omit [DecidableEq T] in
/-- A push makes nothing due. -/
theorem OnePush.dueQueued_iff {cb : Queued T F} (push : OnePush s t cb) (numbers : NumberInv s) :
    DueQueued t ↔ DueQueued s := by
  have first : t.firstQueued = s.firstQueued := by
    simp [firstQueued, push.enqueued, push.pending]
  have due : ∀ thread i, t.Due thread i ↔ s.Due thread i := by
    intro thread i
    have mark := numbers.marks thread
    unfold Due
    rw [push.enqueued, push.marks]
    constructor
    · rintro ⟨found, below⟩
      rw [List.getElem?_append_left (by omega)] at found
      exact ⟨found, below⟩
    · rintro ⟨found, below⟩
      rw [List.getElem?_append_left (by omega)]
      exact ⟨found, below⟩
  simp only [DueQueued, due, first]

omit [DecidableEq T] in
theorem not_dueQueued_of_empty (empty : s.pendingFunctors = []) : ¬DueQueued s := by
  rintro ⟨thread, i, ⟨⟨cb, found, _⟩, _⟩, queued⟩
  have below := (List.getElem?_eq_some_iff.mp found).1
  simp only [firstQueued, empty, List.length_nil] at queued
  omega

/-- The loop ends without another swap, or will do so if the flag is found set. -/
def Closing (s : LoopThread T F) : Prop :=
  match s.pc with
  | .running _ _ | .returned => True
  | .testing => s.quit = true
  | _ => False

/-- Where the loop may end without another swap, nothing that is due is in the queue. -/
structure OrderInv (s : LoopThread T F) : Prop where
  numbers : NumberInv s
  settled : s.Closing → ¬DueQueued s

omit [DecidableEq T] in
theorem OrderInv.start : OrderInv (start : LoopThread T F) := by
  refine ⟨⟨rfl, fun _ => Nat.le_refl 0⟩, ?_⟩
  intro closing
  exact closing.elim

theorem OrderInv.after (inv : OrderInv s) (in_order : QuitInOrder s l) (moves : Moves s l t) :
    OrderInv t := by
  obtain ⟨numbers, settled⟩ := inv
  refine ⟨numbers.after moves, ?_⟩
  intro closing
  -- Steps of the loop thread from one place before the end to another.
  have carried : s.Closing → SameQueue s t → ¬DueQueued t := by
    intro before same
    rw [same.dueQueued_iff]
    exact settled before
  have grown : s.Closing → ∀ cb, OnePush s t cb → ¬DueQueued t := by
    intro before cb push
    rw [push.dueQueued_iff numbers]
    exact settled before
  cases moves with
  | publish here => exact closing.elim
  | callLoop here => exact closing.elim
  | resetQuit here => cases closing
  | leave here quit => exact carried (by simp [Closing, here, quit]) ⟨rfl, rfl, rfl⟩
  | again here quit => exact closing.elim
  | enterWait here => exact closing.elim
  | pollReturn active here => exact closing.elim
  | dispatched inCallback here free => exact closing.elim
  | handleRead inCallback active here free => exact closing.elim
  | callback inCallback active here free => exact closing.elim
  | startDraining here => exact closing.elim
  | swap here => exact not_dueQueued_of_empty rfl
  | runNext done functor rest here free => exact carried (by simp [Closing, here]) ⟨rfl, rfl, rfl⟩
  | endDraining done here free => exact carried (by simp [Closing, here]) ⟨rfl, rfl, rfl⟩
  | ownPush cb user free =>
    exact grown closing ⟨none, cb⟩ ⟨rfl, rfl, rfl⟩
  | ownWakeup inside calling => exact carried closing ⟨rfl, rfl, rfl⟩
  | ownSilence inside calling => exact carried closing ⟨rfl, rfl, rfl⟩
  | ownQuit user free =>
    -- A functor quits: the queue has nothing due since the swap, whatever the flag was.
    refine carried ?_ ⟨rfl, rfl, rfl⟩
    cases here : s.pc with
    | running done rest => simp [Closing, here]
    | dispatching inCallback active => simp [Closing, here] at closing
    | _ => simp [here, LoopPc.InUserCode] at user
  | push thread cb shared outside =>
    exact grown closing ⟨some thread, cb⟩ ⟨rfl, rfl, rfl⟩
  | quit thread shared outside =>
    have past : s.pc.PastSwap := by
      cases here : s.pc <;> simp_all [Closing, LoopPc.PastSwap, LoopPc.Shared]
    rintro ⟨other, i, ⟨⟨cb, found, origin⟩, below⟩, queued⟩
    obtain ⟨foreign, undue⟩ := in_order thread rfl past i cb found queued
    by_cases own : other = thread
    · subst own
      exact foreign origin
    · simp only [Function.update_of_ne own] at below
      exact undue other ⟨⟨cb, found, origin⟩, below⟩
  | wakeup thread inside => exact carried closing ⟨rfl, rfl, rfl⟩

/-- The flag is set, the loop does not swap again, and something that is due is in the queue. -/
structure Doomed (s : LoopThread T F) : Prop where
  numbers : NumberInv s
  due : DueQueued s
  flag : s.quit = true
  place : s.pc.PastSwap ∨ s.pc = .returned

theorem Doomed.after (doomed : Doomed s) (moves : Moves s l t) : Doomed t := by
  obtain ⟨numbers, due, flag, place⟩ := doomed
  have numbered := numbers.after moves
  have carried : SameQueue s t → DueQueued t := fun same => same.dueQueued_iff.mpr due
  have grown : ∀ cb, OnePush s t cb → DueQueued t :=
    fun cb push => (push.dueQueued_iff numbers).mpr due
  cases moves with
  | leave here quit => exact ⟨numbered, carried ⟨rfl, rfl, rfl⟩, flag, .inr rfl⟩
  | again here quit => simp [flag] at quit
  | runNext done functor rest here free =>
    exact ⟨numbered, carried ⟨rfl, rfl, rfl⟩, flag, .inl trivial⟩
  | endDraining done here free =>
    exact ⟨numbered, carried ⟨rfl, rfl, rfl⟩, flag, .inl trivial⟩
  | ownPush cb user free =>
    exact ⟨numbered, grown ⟨none, cb⟩ ⟨rfl, rfl, rfl⟩, flag, place⟩
  | ownWakeup inside calling => exact ⟨numbered, carried ⟨rfl, rfl, rfl⟩, flag, place⟩
  | ownSilence inside calling => exact ⟨numbered, carried ⟨rfl, rfl, rfl⟩, flag, place⟩
  | ownQuit user free => exact ⟨numbered, carried ⟨rfl, rfl, rfl⟩, rfl, place⟩
  | push thread cb shared outside =>
    exact ⟨numbered, grown ⟨some thread, cb⟩ ⟨rfl, rfl, rfl⟩, flag, place⟩
  | quit thread shared outside =>
    refine ⟨numbered, ?_, rfl, place⟩
    obtain ⟨other, i, ⟨found, below⟩, queued⟩ := due
    refine ⟨other, i, ⟨found, ?_⟩, queued⟩
    -- A later `quit` only makes more functors due.
    by_cases own : other = thread
    · subst own
      simpa using Nat.lt_of_lt_of_le below (numbers.marks other)
    · simpa [Function.update_of_ne own] using below
  | wakeup thread inside => exact ⟨numbered, carried ⟨rfl, rfl, rfl⟩, flag, place⟩
  | _ => simp_all [LoopPc.PastSwap]

/-- A `quit` against the order dooms the run. -/
theorem doomed_of_quit (numbers : NumberInv s) (disorder : ¬QuitInOrder s l)
    (moves : Moves s l t) : Doomed t := by
  have numbered := numbers.after moves
  simp only [QuitInOrder, not_forall] at disorder
  obtain ⟨thread, rfl, past, i, cb, found, queued, wrong⟩ := disorder
  have below := (List.getElem?_eq_some_iff.mp found).1
  cases moves with
  | quit thread shared outside =>
    refine ⟨numbered, ?_, rfl, .inl past⟩
    by_cases own : cb.origin = some thread
    · exact ⟨thread, i, ⟨⟨cb, found, own⟩, by simpa using below⟩, queued⟩
    · have already : ∃ other, s.Due other i := by
        simpa [own] using wrong
      obtain ⟨other, origin, mark⟩ := already
      refine ⟨other, i, ⟨origin, ?_⟩, queued⟩
      by_cases same : other = thread
      · subst same
        simpa using below
      · simpa [Function.update_of_ne same] using mark

theorem in_order_or_doomed {ls : List (Label T F)} (numbers : NumberInv s)
    (ran : run step s ls = .ok t) : Along step QuitInOrder s ls ∨ Doomed t := by
  induction ls generalizing s with
  | nil => exact .inl trivial
  | cons l ls ih =>
    obtain ⟨u, taken, later⟩ := run_cons_inv ran
    have moves := step_moves taken
    by_cases in_order : QuitInOrder s l
    · rcases ih (numbers.after moves) later with along | doomed
      · exact .inl ((along_cons_ok taken).mpr ⟨in_order, along⟩)
      · exact .inr doomed
    · right
      exact run_invariant (fun _ _ _ doomed taken => doomed.after (step_moves taken))
        (doomed_of_quit numbers in_order moves) later

/-- **Accepted functors**: when `loop` returns, every functor that a thread has pushed before it
called `quit` has been called, if and only if no thread called `quit` after the last swap while
such a functor was in the queue. -/
theorem accepted_executed_iff (ls : List (Label T F)) (s : LoopThread T F)
    (ran : run step start ls = .ok s) (returned : s.pc = .returned) :
    (∀ thread i cb, s.enqueued[i]? = some cb → cb.origin = some thread → i < s.marks thread →
      i < s.executed.length) ↔ Along step QuitInOrder start ls := by
  have initial : OrderInv (start : LoopThread T F) := OrderInv.start
  have numbers : NumberInv s := run_invariant
    (fun _ _ _ numbers taken => numbers.after (step_moves taken)) initial.numbers ran
  have first : s.firstQueued = s.executed.length := by
    rw [numbers.firstQueued_eq, returned]
    simp [LoopPc.rest]
  constructor
  · intro executed
    apply (in_order_or_doomed initial.numbers ran).resolve_right
    rintro ⟨-, ⟨thread, i, ⟨⟨cb, found, origin⟩, below⟩, queued⟩, -, -⟩
    have called := executed thread i cb found origin below
    omega
  · intro in_order thread i cb found origin below
    have inv : OrderInv s := run_invariant_along
      (fun _ _ _ inv in_order taken => inv.after in_order (step_moves taken)) initial in_order ran
    by_contra uncalled
    apply inv.settled (by simp [Closing, returned])
    exact ⟨thread, i, ⟨⟨cb, found, origin⟩, below⟩, by omega⟩

/-- A thread pushes a functor and quits while the loop thread is in `epoll_wait`. -/
def quitInWait : List (Label Unit Unit) :=
  [.publish, .callLoop, .resetQuit, .test, .enterWait, .push () (), .wakeup (), .quit (),
    .wakeup (), .pollReturn [.wakeupChannel], .dispatch, .dispatch, .startDraining, .swap, .runNext,
    .endDraining, .test]

theorem quitInWait_in_order : Along step QuitInOrder start quitInWait := by
  apply (accepted_executed_iff quitInWait _ rfl rfl).mp
  intro thread i cb found _ _
  have below := (List.getElem?_eq_some_iff.mp found).1
  exact below

/-- It does so while the loop thread calls the functors of an empty batch. -/
def quitInDrain : List (Label Unit Unit) :=
  [.publish, .callLoop, .resetQuit, .test, .enterWait, .pollReturn [], .dispatch, .startDraining,
    .swap, .push () (), .wakeup (), .quit (), .wakeup (), .endDraining, .test]

/-- Then the loop ends with the functor in the queue. -/
theorem functor_lost_on_quit :
    ¬∀ (ls : List (Label Unit Unit)) (s : LoopThread Unit Unit), run step start ls = .ok s →
      s.pc = .returned → ∀ thread i cb, s.enqueued[i]? = some cb → cb.origin = some thread →
        i < s.marks thread → i < s.executed.length := by
  intro executed
  exact absurd (executed quitInDrain _ rfl rfl () 0 ⟨some (), ()⟩ rfl rfl (by decide)) (by decide)

end LoopThread

end Clia.Reactor
