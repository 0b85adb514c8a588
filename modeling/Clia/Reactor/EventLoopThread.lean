import Clia.Reactor.Quit

/-!
# A loop on a thread of its own

`reactor/event_loop_thread.cc` around the loop of `LoopThread`. The owner starts the thread and waits
on a condition variable until the thread has published its loop; the destructor quits the loop and
joins the thread. A critical section of `mutex_` is one step, but the destructor reads `loop_` without
the lock. The owner is the caller `none` of the loop.

Both halves of the destructor's `quit` can come at a wrong time. Before `loop` has stored
`quit_ = false` its flag is overwritten, and the join waits for a thread that goes on. And once the
flag is seen, the thread can end and destroy the loop before the `wakeup` that is still to come.

## Main results

* `EventLoopThread.started_loop_is_live`: as long as nobody has quit the loop, no notification is lost,
  and the loop that `start_loop` has returned is there, after the callback was called once.
* `EventLoopThread.start_loop_can_return`: then `start_loop` is at most five steps from its return.
* `EventLoopThread.destructor_safe_iff`: if nobody else quits, no object is used after its end in
  exactly the runs in which every `wakeup` comes before the end of the thread.
* `EventLoopThread.join_returns_iff`: and the join of the destructor can return exactly when its
  `quit` came after the store of `loop`.
-/

namespace Clia.Reactor

open LabelledRun

/-- Where the owner is. -/
inductive OwnerPc where
  | outside
  /-- in `start_loop`, at `while (!loop_)` -/
  | testing
  /-- in `cond_.wait` -/
  | waiting (notified : Bool)
  | started
  /-- in the destructor, at `loop_ != nullptr` -/
  | exiting
  /-- before it reads `loop_` again, for the call -/
  | loading
  /-- in `quit`, before `quit_ = true` -/
  | quitting
  /-- in `quit`, before `wakeup` -/
  | waking
  | joining
  | destroyed
  deriving DecidableEq, Repr

namespace OwnerPc

/-- The owner is in `start_loop`. -/
def InStart : OwnerPc → Prop
  | .testing | .waiting _ => True
  | _ => False

/-- The owner has read a pointer that was not null. -/
def HasLoop : OwnerPc → Prop
  | .started | .loading | .quitting | .waking => True
  | _ => False

/-- The destructor has stored `quit_ = true`, or has found nothing to quit. -/
def PastQuit : OwnerPc → Prop
  | .waking | .joining | .destroyed => True
  | _ => False

end OwnerPc

/-- Where `thread_func` is. -/
inductive ThreadPc where
  | unborn
  /-- before the constructor of `EventLoop` -/
  | constructing
  /-- at `callback_(&loop)` -/
  | calling
  /-- where the loop thread is, from the critical section that sets `loop_` to the end of `loop` -/
  | looping
  /-- `loop_` is null again, and `loop` is about to be destroyed -/
  | leaving
  | done
  deriving DecidableEq, Repr

/-- `thread_func` has not come to the loop yet. -/
def ThreadPc.Early : ThreadPc → Prop
  | .unborn | .constructing | .calling => True
  | _ => False

/-- `loopSet` says whether `loop_` points to the loop. `callbackCalls` is history. -/
structure EventLoopThread (T F : Type) where
  owner : OwnerPc
  thread : ThreadPc
  hasCallback : Bool
  callbackCalls : Nat
  loopSet : Bool
  loop : LoopThread (Option T) F

namespace EventLoopThread

variable {T F : Type}

def new (hasCallback : Bool) : EventLoopThread T F :=
  ⟨.outside, .unborn, hasCallback, 0, false, LoopThread.start⟩

/-- `cond_.notify_one()`. -/
def notifyOne (s : EventLoopThread T F) : EventLoopThread T F :=
  match s.owner with
  | .waiting _ => { s with owner := .waiting true }
  | _ => s

inductive Label (T F : Type) where
  /-- the owner calls `start_loop`, and its thread begins -/
  | startLoop
  | test
  /-- `cond_.wait` returns, notified or not -/
  | wake
  | construct
  | callback
  /-- a step of the loop thread, or of another caller of the loop -/
  | loop (l : LoopThread.Label (Option T) F)
  /-- the critical section behind `loop.loop()` -/
  | clear
  | destroyLoop
  /-- the owner comes to the destructor -/
  | destruct
  | testLoop
  | loadLoop
  | quit
  | wakeup
  | join
  deriving DecidableEq, Repr

/-- The label of the loop is a call of the owner, who has labels of his own here. -/
def ofOwner : LoopThread.Label (Option T) F → Bool
  | .push none _ | .quit none | .wakeup none => true
  | _ => false

/-- The label is the second half of a call that another thread has begun. -/
def finishesCall (loop : LoopThread (Option T) F) : LoopThread.Label (Option T) F → Bool
  | .wakeup thread => loop.callers thread ≠ .outside
  | _ => false

variable [DecidableEq T]

/-- `quit_ = true` in the owner's `quit`. -/
def storeQuit (loop : LoopThread (Option T) F) : LoopThread (Option T) F :=
  { loop with
    quit := true
    quitCalled := true
    marks := Function.update loop.marks none loop.enqueued.length
    callers := Function.update loop.callers none .quitStored }

/-- The rest of that call. -/
def endQuit (loop : LoopThread (Option T) F) : LoopThread (Option T) F :=
  { loop with callers := Function.update loop.callers none .outside }.wakeup

def step (s : EventLoopThread T F) : Label T F → Except Fault (EventLoopThread T F)
  | .startLoop => do
    Checked.require (s.owner = .outside) .disabled
    return { s with owner := .testing, thread := .constructing }
  | .test => do
    Checked.require (s.owner = .testing) .disabled
    return { s with owner := if s.loopSet then .started else .waiting false }
  | .wake =>
    match s.owner with
    | .waiting _ => .ok { s with owner := .testing }
    | _ => .error .disabled
  | .construct => do
    Checked.require (s.thread = .constructing) .disabled
    return { s with thread := .calling }
  | .callback => do
    Checked.require (s.thread = .calling) .disabled
    return { s with
      thread := .looping
      callbackCalls := if s.hasCallback then s.callbackCalls + 1 else s.callbackCalls }
  | .loop l => do
    -- A call that was begun in time can end at any time.
    Checked.require (ofOwner l = false ∧ (s.thread = .looping ∨ finishesCall s.loop l)) .disabled
    Checked.require (s.thread ≠ .done) .useAfterFree
    let loop ← s.loop.step l
    match l with
    | .publish => return { s with loop := loop, loopSet := true }.notifyOne
    | _ => return { s with loop := loop }
  | .clear =>
    match s.thread, s.loop.pc with
    | .looping, .returned => .ok { s with thread := .leaving, loopSet := false }
    | _, _ => .error .disabled
  | .destroyLoop => do
    Checked.require (s.thread = .leaving) .disabled
    return { s with thread := .done }
  | .destruct => do
    Checked.require (s.owner = .outside ∨ s.owner = .started) .disabled
    return { s with owner := .exiting }
  | .testLoop => do
    Checked.require (s.owner = .exiting) .disabled
    return { s with owner := if s.loopSet then .loading else .joining }
  | .loadLoop => do
    Checked.require (s.owner = .loading) .disabled
    Checked.require (s.loopSet = true) .nullDereference
    return { s with owner := .quitting }
  | .quit => do
    Checked.require (s.owner = .quitting) .disabled
    Checked.require (s.thread ≠ .done) .useAfterFree
    return { s with owner := .waking, loop := storeQuit s.loop }
  | .wakeup => do
    Checked.require (s.owner = .waking) .disabled
    Checked.require (s.thread ≠ .done) .useAfterFree
    return { s with owner := .joining, loop := endQuit s.loop }
  | .join => do
    -- A thread that was never started is not joinable.
    Checked.require (s.owner = .joining ∧ (s.thread = .unborn ∨ s.thread = .done)) .disabled
    return { s with owner := .destroyed }

/-! ### What a step can do -/

/-- The steps, each with its guard and what it leaves. -/
inductive Moves (s : EventLoopThread T F) : Label T F → EventLoopThread T F → Prop
  | startLoop (here : s.owner = .outside) :
      Moves s .startLoop { s with owner := .testing, thread := .constructing }
  | found (here : s.owner = .testing) (set : s.loopSet = true) :
      Moves s .test { s with owner := .started }
  | wait (here : s.owner = .testing) (unset : s.loopSet = false) :
      Moves s .test { s with owner := .waiting false }
  | wake (notified : Bool) (here : s.owner = .waiting notified) :
      Moves s .wake { s with owner := .testing }
  | construct (here : s.thread = .constructing) : Moves s .construct { s with thread := .calling }
  | callback (here : s.thread = .calling) :
      Moves s .callback { s with
        thread := .looping
        callbackCalls := if s.hasCallback then s.callbackCalls + 1 else s.callbackCalls }
  | publish (loop : LoopThread (Option T) F) (here : s.thread = .looping)
      (taken : s.loop.step .publish = .ok loop) :
      Moves s (.loop .publish) { s with loop := loop, loopSet := true }.notifyOne
  | loop (l : LoopThread.Label (Option T) F) (loop : LoopThread (Option T) F)
      (foreign : ofOwner l = false) (here : s.thread = .looping ∨ finishesCall s.loop l = true)
      (alive : s.thread ≠ .done) (later : l ≠ .publish) (taken : s.loop.step l = .ok loop) :
      Moves s (.loop l) { s with loop := loop }
  | clear (here : s.thread = .looping) (returned : s.loop.pc = .returned) :
      Moves s .clear { s with thread := .leaving, loopSet := false }
  | destroyLoop (here : s.thread = .leaving) : Moves s .destroyLoop { s with thread := .done }
  | destruct (here : s.owner = .outside ∨ s.owner = .started) :
      Moves s .destruct { s with owner := .exiting }
  | seeLoop (here : s.owner = .exiting) (set : s.loopSet = true) :
      Moves s .testLoop { s with owner := .loading }
  | seeNone (here : s.owner = .exiting) (unset : s.loopSet = false) :
      Moves s .testLoop { s with owner := .joining }
  | loadLoop (here : s.owner = .loading) (set : s.loopSet = true) :
      Moves s .loadLoop { s with owner := .quitting }
  | quit (here : s.owner = .quitting) (alive : s.thread ≠ .done) :
      Moves s .quit { s with owner := .waking, loop := storeQuit s.loop }
  | wakeup (here : s.owner = .waking) (alive : s.thread ≠ .done) :
      Moves s .wakeup { s with owner := .joining, loop := endQuit s.loop }
  | join (here : s.owner = .joining) (ended : s.thread = .unborn ∨ s.thread = .done) :
      Moves s .join { s with owner := .destroyed }

variable {s t : EventLoopThread T F} {l : Label T F}

theorem step_moves (taken : step s l = .ok t) : Moves s l t := by
  cases l with
  | startLoop =>
    obtain ⟨here, rfl⟩ := Checked.guarded_ok_iff.mp taken
    exact .startLoop here
  | test =>
    obtain ⟨here, rfl⟩ := Checked.guarded_ok_iff.mp taken
    by_cases set : s.loopSet = true
    · rw [if_pos set]
      exact .found here set
    · rw [if_neg set]
      exact .wait here (by simpa using set)
  | wake =>
    simp only [step] at taken
    split at taken
    next notified here => cases taken; exact .wake notified here
    · cases taken
  | construct =>
    obtain ⟨here, rfl⟩ := Checked.guarded_ok_iff.mp taken
    exact .construct here
  | callback =>
    obtain ⟨here, rfl⟩ := Checked.guarded_ok_iff.mp taken
    exact .callback here
  | loop l =>
    obtain ⟨_, guard, taken⟩ := Checked.bind_ok_iff.mp taken
    obtain ⟨_, alive, taken⟩ := Checked.bind_ok_iff.mp taken
    obtain ⟨loop, moved, taken⟩ := Checked.bind_ok_iff.mp taken
    obtain ⟨foreign, here⟩ := Checked.require_ok_iff.mp guard
    rw [Checked.require_ok_iff] at alive
    cases l with
    | publish =>
      cases taken
      exact .publish loop (here.resolve_right (by simp [finishesCall])) moved
    | _ =>
      cases taken
      exact .loop _ loop foreign here alive (by simp) moved
  | clear =>
    simp only [step] at taken
    split at taken
    next here returned => cases taken; exact .clear here returned
    · cases taken
  | destroyLoop =>
    obtain ⟨here, rfl⟩ := Checked.guarded_ok_iff.mp taken
    exact .destroyLoop here
  | destruct =>
    obtain ⟨here, rfl⟩ := Checked.guarded_ok_iff.mp taken
    exact .destruct here
  | testLoop =>
    obtain ⟨here, rfl⟩ := Checked.guarded_ok_iff.mp taken
    by_cases set : s.loopSet = true
    · rw [if_pos set]
      exact .seeLoop here set
    · rw [if_neg set]
      exact .seeNone here (by simpa using set)
  | loadLoop =>
    obtain ⟨_, here, taken⟩ := Checked.bind_ok_iff.mp taken
    obtain ⟨set, rfl⟩ := Checked.guarded_ok_iff.mp taken
    exact .loadLoop (Checked.require_ok_iff.mp here) set
  | quit =>
    obtain ⟨_, here, taken⟩ := Checked.bind_ok_iff.mp taken
    obtain ⟨alive, rfl⟩ := Checked.guarded_ok_iff.mp taken
    exact .quit (Checked.require_ok_iff.mp here) alive
  | wakeup =>
    obtain ⟨_, here, taken⟩ := Checked.bind_ok_iff.mp taken
    obtain ⟨alive, rfl⟩ := Checked.guarded_ok_iff.mp taken
    exact .wakeup (Checked.require_ok_iff.mp here) alive
  | join =>
    obtain ⟨⟨here, ended⟩, rfl⟩ := Checked.guarded_ok_iff.mp taken
    exact .join here ended

/-! ### The loop -/

section

variable {s t : LoopThread (Option T) F} {l : LoopThread.Label (Option T) F}

/-- What the thread around the loop has to know of it. -/
structure LoopInv (s : LoopThread (Option T) F) : Prop where
  returned : s.pc = .returned → s.quitCalled = true
  flag : s.quit = true → s.quitCalled = true
  looping : s.pc = .constructed ∨ s.pc = .published → s.looping = false

omit [DecidableEq T] in
theorem LoopInv.start : LoopInv (LoopThread.start : LoopThread (Option T) F) := by
  constructor
  · intro returned
    cases returned
  · intro flag
    cases flag
  · intro _
    rfl

theorem LoopInv.step (inv : LoopInv s) (taken : s.step l = .ok t) : LoopInv t := by
  obtain ⟨returned, flag, looping⟩ := inv
  cases LoopThread.step_moves taken with
  | publish here => exact ⟨by simp, flag, fun _ => looping (.inl here)⟩
  | leave here quit => exact ⟨fun _ => flag quit, flag, by simp⟩
  | quit thread shared outside => exact ⟨fun _ => rfl, fun _ => rfl, looping⟩
  | ownQuit user free => exact ⟨fun _ => rfl, fun _ => rfl, looping⟩
  | push thread cb shared outside => exact ⟨returned, flag, looping⟩
  | wakeup thread inside => exact ⟨returned, flag, looping⟩
  | ownPush cb user free => exact ⟨returned, flag, looping⟩
  | ownWakeup inside calling => exact ⟨returned, flag, looping⟩
  | ownSilence inside calling => exact ⟨returned, flag, looping⟩
  | resetQuit here => exact ⟨by simp, by simp, by simp⟩
  | _ => exact ⟨by simp [LoopThread.handleRead, LoopThread.swap, LoopThread.call], flag,
      by simp [LoopThread.handleRead, LoopThread.swap, LoopThread.call]⟩

theorem LoopInv.storeQuit (inv : LoopInv s) : LoopInv (storeQuit s) :=
  ⟨fun _ => rfl, fun _ => rfl, inv.looping⟩

theorem LoopInv.endQuit (inv : LoopInv s) : LoopInv (endQuit s) :=
  ⟨inv.returned, inv.flag, inv.looping⟩

/-- Only the critical section of `thread_func` leaves the place before it. -/
theorem constructed_step (taken : s.step l = .ok t) (later : l ≠ .publish) :
    t.pc = .constructed ↔ s.pc = .constructed := by
  cases LoopThread.step_moves taken with
  | publish here => exact absurd rfl later
  | push thread cb shared outside => exact Iff.rfl
  | quit thread shared outside => exact Iff.rfl
  | wakeup thread inside => exact Iff.rfl
  | ownPush cb user free => exact Iff.rfl
  | ownWakeup inside calling => exact Iff.rfl
  | ownSilence inside calling => exact Iff.rfl
  | ownQuit user free => exact Iff.rfl
  | _ => simp [*, LoopThread.handleRead, LoopThread.swap, LoopThread.call]

theorem quitCalled_mono (taken : s.step l = .ok t) (called : s.quitCalled = true) :
    t.quitCalled = true := by
  cases LoopThread.step_moves taken with
  | quit thread shared outside => rfl
  | ownQuit user free => rfl
  | _ => exact called

/-- The end of a call changes nothing but the eventfd. -/
theorem finished_call (taken : s.step l = .ok t) (ends : finishesCall s l = true) :
    t.pc = s.pc ∧ t.quitCalled = s.quitCalled ∧ t.quit = s.quit := by
  cases LoopThread.step_moves taken with
  | wakeup thread inside => exact ⟨rfl, rfl, rfl⟩
  | _ => cases ends

end

/-! ### The thread and its owner -/

structure Inv (s : EventLoopThread T F) : Prop where
  loop : LoopInv s.loop
  outside : s.owner = .outside → s.thread = .unborn
  begun : s.owner.InStart ∨ s.owner.HasLoop → s.thread ≠ .unborn
  early : s.thread.Early → s.loop.pc = .constructed ∧ s.loop.quitCalled = false ∧
    s.loopSet = false ∧ s.callbackCalls = 0
  set : s.thread = .looping → (s.loopSet = true ↔ s.loop.pc ≠ .constructed)
  late : s.thread = .leaving ∨ s.thread = .done → s.loopSet = false ∧ s.loop.pc = .returned
  calls : ¬s.thread.Early → s.callbackCalls = if s.hasCallback then 1 else 0
  waiting : s.owner = .waiting false → s.loopSet = false
  given : s.owner.HasLoop ∨ s.owner = .exiting ∨ s.owner = .joining → s.thread ≠ .unborn →
    s.loopSet = true ∨ s.loop.quitCalled = true
  joined : s.owner = .destroyed → s.thread = .unborn ∨ s.thread = .done

omit [DecidableEq T] in
theorem Inv.new (hasCallback : Bool) : Inv (new hasCallback : EventLoopThread T F) := by
  constructor
  · exact LoopInv.start
  · exact fun _ => rfl
  · rintro (start | has)
    · exact start.elim
    · exact has.elim
  · exact fun _ => ⟨rfl, rfl, rfl, rfl⟩
  · intro here
    cases here
  · rintro (here | here)
    · cases here
    · cases here
  · intro late
    exact absurd trivial late
  · exact fun _ => rfl
  · exact fun _ born => absurd rfl born
  · intro here
    cases here

omit [DecidableEq T] in
/-- `notify_one` is about the waiting owner only. -/
theorem notifyOne_cases (s : EventLoopThread T F) :
    (∃ notified, s.owner = .waiting notified ∧ s.notifyOne = { s with owner := .waiting true }) ∨
      (∀ notified, s.owner ≠ .waiting notified) ∧ s.notifyOne = s := by
  unfold notifyOne
  split
  next notified here => exact .inl ⟨notified, here, rfl⟩
  next apart => exact .inr ⟨apart, rfl⟩

omit [DecidableEq T] in
@[simp] theorem notifyOne_thread (s : EventLoopThread T F) : s.notifyOne.thread = s.thread := by
  rcases notifyOne_cases s with ⟨notified, waits, same⟩ | ⟨apart, same⟩
  · rw [same]
  · rw [same]

omit [DecidableEq T] in
@[simp] theorem notifyOne_loop (s : EventLoopThread T F) : s.notifyOne.loop = s.loop := by
  rcases notifyOne_cases s with ⟨notified, waits, same⟩ | ⟨apart, same⟩
  · rw [same]
  · rw [same]

omit [DecidableEq T] in
@[simp] theorem notifyOne_hasCallback (s : EventLoopThread T F) :
    s.notifyOne.hasCallback = s.hasCallback := by
  rcases notifyOne_cases s with ⟨notified, waits, same⟩ | ⟨apart, same⟩
  · rw [same]
  · rw [same]

omit [DecidableEq T] in
/-- An owner who has left `start_loop` is not concerned. -/
theorem notifyOne_owner (s : EventLoopThread T F) :
    s.notifyOne.owner = s.owner ∨ s.owner.InStart ∧ s.notifyOne.owner = .waiting true := by
  rcases notifyOne_cases s with ⟨notified, waits, same⟩ | ⟨apart, same⟩
  · exact .inr ⟨by simp [waits, OwnerPc.InStart], by rw [same]⟩
  · exact .inl (by rw [same])

omit [DecidableEq T] in
/-- A pointer that is set points to a loop that has been published and has not returned. -/
theorem Inv.live (inv : Inv s) (set : s.loopSet = true) :
    s.thread = .looping ∧ s.loop.pc ≠ .constructed := by
  have early : ¬s.thread.Early := by
    intro early
    simp [(inv.early early).2.2.1] at set
  have late : ¬(s.thread = .leaving ∨ s.thread = .done) := by
    intro late
    simp [(inv.late late).1] at set
  cases here : s.thread with
  | looping => exact ⟨rfl, (inv.set here).mp set⟩
  | leaving => exact absurd (.inl here) late
  | done => exact absurd (.inr here) late
  | _ => exact absurd (by simp [here, ThreadPc.Early]) early

theorem Inv.after (inv : Inv s) (moves : Moves s l t) : Inv t := by
  cases moves with
  | startLoop here =>
    have early := inv.early (by simp [inv.outside here, ThreadPc.Early])
    exact { inv with
      outside := by simp
      begun := by simp
      early := fun _ => early
      set := by simp
      late := by simp
      calls := by simp [ThreadPc.Early]
      waiting := by simp
      given := by simp [OwnerPc.HasLoop]
      joined := by simp }
  | found here set =>
    exact { inv with
      outside := by simp
      begun := fun _ => inv.begun (by simp [here, OwnerPc.InStart])
      waiting := by simp
      given := fun _ _ => .inl set
      joined := by simp }
  | wait here unset =>
    exact { inv with
      outside := by simp
      begun := fun _ => inv.begun (by simp [here, OwnerPc.InStart])
      waiting := fun _ => unset
      given := by simp [OwnerPc.HasLoop]
      joined := by simp }
  | wake notified here =>
    exact { inv with
      outside := by simp
      begun := fun _ => inv.begun (by simp [here, OwnerPc.InStart])
      waiting := by simp
      given := by simp [OwnerPc.HasLoop]
      joined := by simp }
  | construct here =>
    have early := inv.early (by simp [here, ThreadPc.Early])
    exact { inv with
      outside := fun outside => by simp [inv.outside outside] at here
      begun := by simp
      early := fun _ => early
      set := by simp
      late := by simp
      calls := by simp [ThreadPc.Early]
      given := fun has _ => inv.given has (by simp [here])
      joined := fun destroyed => by simpa [here] using inv.joined destroyed }
  | callback here =>
    have early := inv.early (by simp [here, ThreadPc.Early])
    exact { inv with
      outside := fun outside => by simp [inv.outside outside] at here
      begun := by simp
      early := fun early => early.elim
      set := by simp [early.1, early.2.2.1]
      late := by simp
      calls := by simp [early.2.2.2]
      given := fun has _ => inv.given has (by simp [here])
      joined := fun destroyed => by simpa [here] using inv.joined destroyed }
  | publish loop here taken =>
    have published : loop.pc = .published := by
      cases LoopThread.step_moves taken with
      | publish constructed => rfl
    rcases notifyOne_cases { s with loop := loop, loopSet := true } with
      ⟨notified, waits, same⟩ | ⟨apart, same⟩
    · rw [same]
      exact {
        loop := inv.loop.step taken
        outside := by simp
        begun := by simp [here]
        early := by simp [here, ThreadPc.Early]
        set := by simp [published]
        late := by simp [here]
        calls := inv.calls
        waiting := by simp
        given := by simp [OwnerPc.HasLoop]
        joined := by simp }
    · rw [same]
      exact { inv with
        loop := inv.loop.step taken
        early := by simp [here, ThreadPc.Early]
        set := by simp [published]
        late := by simp [here]
        waiting := fun waits => absurd waits (apart false)
        given := fun _ _ => .inl rfl }
  | loop l loop foreign here alive later taken =>
    have given : ∀ has born, s.loopSet = true ∨ loop.quitCalled = true :=
      fun has born => (inv.given has born).imp_right (quitCalled_mono taken)
    rcases here with looping | ends
    · exact { inv with
        loop := inv.loop.step taken
        early := by simp [looping, ThreadPc.Early]
        set := fun _ => (inv.set looping).trans (not_congr (constructed_step taken later)).symm
        late := by simp [looping]
        given := given }
    · obtain ⟨pc, called, _⟩ := finished_call taken ends
      exact { inv with
        loop := inv.loop.step taken
        early := by simpa only [pc, called] using inv.early
        set := by simpa only [pc] using inv.set
        late := by simpa only [pc] using inv.late
        given := given }
  | clear here returned =>
    have called := inv.loop.returned returned
    exact { inv with
      outside := fun outside => by simp [inv.outside outside] at here
      begun := by simp
      early := fun early => early.elim
      set := by simp
      late := fun _ => ⟨rfl, returned⟩
      calls := fun _ => inv.calls (by simp [here, ThreadPc.Early])
      waiting := fun _ => rfl
      given := fun _ _ => .inr called
      joined := fun destroyed => by simpa [here] using inv.joined destroyed }
  | destroyLoop here =>
    exact { inv with
      outside := fun outside => by simp [inv.outside outside] at here
      begun := by simp
      early := fun early => early.elim
      set := by simp
      late := fun _ => inv.late (.inl here)
      calls := fun _ => inv.calls (by simp [here, ThreadPc.Early])
      given := fun has _ => inv.given has (by simp [here])
      joined := fun _ => .inr rfl }
  | destruct here =>
    exact { inv with
      outside := by simp
      begun := by simp [OwnerPc.InStart, OwnerPc.HasLoop]
      waiting := by simp
      given := by
        intro _ born
        rcases here with outside | started
        · exact absurd (inv.outside outside) born
        · exact inv.given (by simp [started, OwnerPc.HasLoop]) born
      joined := by simp }
  | seeLoop here set =>
    exact { inv with
      outside := by simp
      begun := fun _ => by simp [(inv.live set).1]
      waiting := by simp
      given := fun _ _ => .inl set
      joined := by simp }
  | seeNone here unset =>
    exact { inv with
      outside := by simp
      begun := by simp [OwnerPc.InStart, OwnerPc.HasLoop]
      waiting := by simp
      given := fun _ => inv.given (.inr (.inl here))
      joined := by simp }
  | loadLoop here set =>
    exact { inv with
      outside := by simp
      begun := fun _ => inv.begun (by simp [here, OwnerPc.HasLoop])
      waiting := by simp
      given := fun _ _ => .inl set
      joined := by simp }
  | quit here alive =>
    have born := inv.begun (by simp [here, OwnerPc.HasLoop])
    have given := inv.given (by simp [here, OwnerPc.HasLoop]) born
    have late : ¬s.thread.Early := by
      intro early
      simp [inv.early early] at given
    exact { inv with
      loop := inv.loop.storeQuit
      outside := by simp
      begun := fun _ => born
      early := fun early => absurd early late
      waiting := by simp
      given := fun _ _ => .inr rfl
      joined := by simp }
  | wakeup here alive =>
    exact { inv with
      loop := inv.loop.endQuit
      outside := by simp
      begun := by simp [OwnerPc.InStart, OwnerPc.HasLoop]
      waiting := by simp
      given := fun _ => inv.given (by simp [here, OwnerPc.HasLoop])
      joined := by simp }
  | join here ended =>
    exact { inv with
      outside := by simp
      begun := by simp [OwnerPc.InStart, OwnerPc.HasLoop]
      waiting := by simp
      given := by simp [OwnerPc.HasLoop]
      joined := fun _ => ended }

/-- Run lemma. -/
theorem reachable {hasCallback : Bool} {ls : List (Label T F)}
    (ran : run step (new hasCallback) ls = .ok s) : Inv s ∧ s.hasCallback = hasCallback := by
  constructor
  · exact run_invariant (fun _ _ _ inv taken => inv.after (step_moves taken))
      (Inv.new hasCallback) ran
  · have kept : ∀ s l (t : EventLoopThread T F), s.hasCallback = hasCallback →
        step s l = .ok t → t.hasCallback = hasCallback := by
      intro s l t same taken
      cases step_moves taken with
      | publish loop here moved => simpa using same
      | _ => exact same
    exact run_invariant kept rfl ran

/-! ### `start_loop` -/

/-- The critical section that sets `loop_` and notifies is still to come. -/
def BeforePublish (s : EventLoopThread T F) : Prop :=
  s.thread = .constructing ∨ s.thread = .calling ∨ s.thread = .looping ∧ s.loop.pc = .constructed

omit [DecidableEq T] in
theorem Inv.beforePublish_or_set (inv : Inv s) (unquit : s.loop.quitCalled = false)
    (born : s.thread ≠ .unborn) : BeforePublish s ∨ s.loopSet = true := by
  have stays : s.loop.pc ≠ .returned := by
    intro returned
    simp [inv.loop.returned returned] at unquit
  cases here : s.thread with
  | unborn => exact absurd here born
  | constructing => exact .inl (.inl here)
  | calling => exact .inl (.inr (.inl here))
  | looping =>
    by_cases constructed : s.loop.pc = .constructed
    · exact .inl (.inr (.inr ⟨here, constructed⟩))
    · exact .inr ((inv.set here).mpr constructed)
  | leaving => exact absurd (inv.late (.inl here)).2 stays
  | done => exact absurd (inv.late (.inr here)).2 stays

/-- The thread is in its loop, `loop_` points to it, and the callback was called if there is one. -/
structure Live (s : EventLoopThread T F) : Prop where
  looping : s.thread = .looping
  set : s.loopSet = true
  shared : s.loop.pc.Shared
  calls : s.callbackCalls = if s.hasCallback then 1 else 0

omit [DecidableEq T] in
theorem Inv.started_live (inv : Inv s) (unquit : s.loop.quitCalled = false)
    (started : s.owner = .started) : Live s := by
  have has : s.owner.HasLoop := by simp [started, OwnerPc.HasLoop]
  have set : s.loopSet = true := by
    simpa [unquit] using inv.given (.inl has) (inv.begun (.inr has))
  obtain ⟨looping, published⟩ := inv.live set
  refine ⟨looping, set, ?_, inv.calls (by simp [looping, ThreadPc.Early])⟩
  cases here : s.loop.pc with
  | constructed => exact absurd here published
  | returned => simp [inv.loop.returned here] at unquit
  | _ => trivial

/-- **What `start_loop` returns**: in every state that is reached before anybody quits the loop, a
waiting owner who is not notified has the notification still to come, and once `start_loop` has
returned, the thread is in its loop, `loop_` points to it, and the callback was called once if
there is one. -/
theorem started_loop_is_live (hasCallback : Bool) (ls : List (Label T F)) (s : EventLoopThread T F)
    (ran : run step (new hasCallback) ls = .ok s) (unquit : s.loop.quitCalled = false) :
    (s.owner = .waiting false → BeforePublish s) ∧
      (s.owner = .started → Live s ∧ s.callbackCalls = if hasCallback then 1 else 0) := by
  obtain ⟨inv, rfl⟩ := reachable ran
  constructor
  · intro waits
    have born := inv.begun (.inl (by simp [waits, OwnerPc.InStart]))
    apply (inv.beforePublish_or_set unquit born).resolve_right
    simp [inv.waiting waits]
  · intro started
    have live := inv.started_live unquit started
    exact ⟨live, live.calls⟩

/-- The owner waits before the thread has begun with its loop. -/
def sampleStart : List (Label Unit Unit) :=
  [.startLoop, .test, .construct, .callback, .loop .publish, .wake, .test]

theorem sampleStart_live :
    ∃ s : EventLoopThread Unit Unit, run step (new true) sampleStart = .ok s ∧
      s.owner = .started ∧ s.loopSet = true ∧ s.callbackCalls = 1 := by
  refine ⟨_, rfl, rfl, ?_⟩
  obtain ⟨live, calls⟩ := (started_loop_is_live true sampleStart _ rfl rfl).2 rfl
  exact ⟨live.set, calls⟩

/-- `cond_.wait` returns because of a notification. -/
def Notified (s : EventLoopThread T F) (l : Label T F) : Prop := l = .wake → s.owner ≠ .waiting false

/-- The steps that `start_loop` has left at most, in their order. -/
def handshake : List (Label T F) := [.construct, .callback, .loop .publish, .wake, .test]

/-- Some of the last `n` of these steps bring the owner out of `start_loop`. -/
def Returns (n : Nat) (s : EventLoopThread T F) : Prop :=
  ∃ ms, ms.Sublist (handshake.drop n) ∧ Along step Notified s ms ∧
    ∃ t, run step s ms = .ok t ∧ t.owner = .started

theorem Returns.step {n : Nat} {l : Label T F} (next : handshake[n]? = some l)
    (taken : step s l = .ok t) (notified : Notified s l) (later : Returns (n + 1) t) :
    Returns n s := by
  obtain ⟨ms, part, along, u, ran, started⟩ := later
  refine ⟨l :: ms, ?_, (along_cons_ok taken).mpr ⟨notified, along⟩, u, ?_, started⟩
  · obtain ⟨below, here⟩ := List.getElem?_eq_some_iff.mp next
    rw [List.drop_eq_getElem_cons below, here]
    exact part.cons_cons l
  · rw [run_cons_ok ms taken, ran]

theorem Returns.skip {n : Nat} (later : Returns (n + 1) s) : Returns n s := by
  obtain ⟨ms, part, rest⟩ := later
  have tail : (handshake : List (Label T F)).drop (n + 1) = (handshake.drop n).drop 1 := by
    rw [List.drop_drop]
  rw [tail] at part
  exact ⟨ms, part.trans (List.drop_sublist 1 _), rest⟩

theorem returns_set (set : s.loopSet = true)
    (here : s.owner = .testing ∨ s.owner = .waiting true) : Returns 3 s := by
  have tested : ∀ u : EventLoopThread T F, u.owner = .testing → u.loopSet = true → Returns 4 u := by
    intro u testing set
    have taken : step u .test = .ok { u with owner := .started } := by
      simp [step, Checked.require_pos, testing, set]
    exact Returns.step rfl taken (by simp [Notified])
      ⟨[], List.nil_sublist _, trivial, _, rfl, rfl⟩
  rcases here with testing | waits
  · exact (tested s testing set).skip
  · have taken : step s .wake = .ok { s with owner := .testing } := by simp [step, waits]
    exact Returns.step rfl taken (by simp [Notified, waits]) (tested _ rfl set)

theorem returns_constructed (here : s.thread = .looping) (constructed : s.loop.pc = .constructed)
    (start : s.owner.InStart) : Returns 2 s := by
  have taken : step s (.loop .publish) = .ok
      { s with loop := { s.loop with pc := .published }, loopSet := true }.notifyOne := by
    simp [step, Checked.require_pos, ofOwner, here, LoopThread.step, constructed]
  apply Returns.step rfl taken (by simp [Notified])
  cases owner : s.owner with
  | testing => exact returns_set (by simp [notifyOne]) (.inl (by simp [notifyOne]))
  | waiting notified =>
    exact returns_set (by simp [notifyOne]) (.inr (by simp [notifyOne]))
  | _ => simp [owner, OwnerPc.InStart] at start

theorem returns_calling (here : s.thread = .calling) (constructed : s.loop.pc = .constructed)
    (start : s.owner.InStart) : Returns 1 s := by
  have taken : step s .callback = .ok { s with
      thread := .looping
      callbackCalls := if s.hasCallback then s.callbackCalls + 1 else s.callbackCalls } := by
    simp [step, Checked.require_pos, here]
  exact Returns.step rfl taken (by simp [Notified]) (returns_constructed rfl constructed start)

theorem returns_constructing (here : s.thread = .constructing)
    (constructed : s.loop.pc = .constructed) (start : s.owner.InStart) : Returns 0 s := by
  have taken : step s .construct = .ok { s with thread := .calling } := by
    simp [step, Checked.require_pos, here]
  exact Returns.step rfl taken (by simp [Notified]) (returns_calling rfl constructed start)

theorem Inv.returns (inv : Inv s) (unquit : s.loop.quitCalled = false)
    (start : s.owner.InStart) : Returns 0 s := by
  rcases inv.beforePublish_or_set unquit (inv.begun (.inl start)) with
    (here | here | ⟨here, constructed⟩) | set
  · exact returns_constructing here (inv.early (by simp [here, ThreadPc.Early])).1 start
  · exact (returns_calling here (inv.early (by simp [here, ThreadPc.Early])).1 start).skip
  · exact (returns_constructed here constructed start).skip.skip
  · cases owner : s.owner with
    | testing => exact (returns_set set (.inl owner)).skip.skip.skip
    | waiting notified =>
      cases notified with
      | true => exact (returns_set set (.inr owner)).skip.skip.skip
      | false => simp [inv.waiting owner] at set
    | _ => simp [owner, OwnerPc.InStart] at start

/-- **No lost notification**: from every state with the owner in `start_loop` that is reached before
anybody quits the loop, some of the five steps of the handshake, which are the thread's and the
owner's own, end the call, and the owner needs no spurious wakeup for it. -/
theorem start_loop_can_return (hasCallback : Bool) (ls : List (Label T F))
    (s : EventLoopThread T F) (ran : run step (new hasCallback) ls = .ok s)
    (start : s.owner.InStart) (unquit : s.loop.quitCalled = false) :
    ∃ ms, ms.Sublist handshake ∧ Along step Notified s ms ∧
      ∃ t, run step s ms = .ok t ∧ t.owner = .started :=
  (reachable ran).1.returns unquit start

theorem sampleStart_returns :
    ∃ s : EventLoopThread Unit Unit, run step (new true) [.startLoop, .test] = .ok s ∧
      s.owner = .waiting false ∧ ∃ ms t, run step s ms = .ok t ∧ t.owner = .started := by
  refine ⟨_, rfl, rfl, ?_⟩
  obtain ⟨ms, _, _, t, ran, started⟩ :=
    start_loop_can_return (T := Unit) (F := Unit) true [.startLoop, .test] _ rfl
      (show OwnerPc.InStart (.waiting false) from trivial) rfl
  exact ⟨ms, t, ran, started⟩

/-! ### Nobody else quits -/

/-- The label is a `quit` that is not the owner's. -/
def quits : Label T F → Bool
  | .loop .ownQuit | .loop (.quit _) => true
  | _ => false

section

variable {s t : LoopThread (Option T) F} {l : LoopThread.Label (Option T) F}

theorem quitCalled_step (taken : s.step l = .ok t) (calm : quits (.loop l) = false) :
    t.quitCalled = s.quitCalled := by
  cases LoopThread.step_moves taken with
  | quit thread shared outside => cases calm
  | ownQuit user free => cases calm
  | _ => rfl

/-- The loop itself only stops at a label that is none of its steps. -/
theorem loop_fault (inv : LoopInv s) : Checked.Raises (· = .disabled) (s.step l) := by
  cases l with
  | callLoop =>
    simp only [LoopThread.step]
    split
    next here =>
      rw [cassert_pos _ (inv.looping (.inr here))]
      exact .ok _
    · exact .error rfl
  | publish | resetQuit | test | enterWait | startDraining | swap =>
    simp only [LoopThread.step]
    split
    · exact .ok _
    · exact .error rfl
  | pollReturn active =>
    simp only [LoopThread.step]
    split
    · exact .bind (.require rfl) fun _ _ => .ok _
    · exact .error rfl
  | dispatch =>
    refine .bind (.require rfl) ?_
    intro _ _
    split
    · exact .ok _
    · exact .ok _
    · exact .ok _
    · exact .error rfl
  | runNext | endDraining =>
    refine .bind (.require rfl) ?_
    intro _ _
    split
    · exact .ok _
    · exact .error rfl
  | _ => exact .bind (.require rfl) fun _ _ => .ok _

end

/-- In the runs in which nobody but the owner quits, a `quit` is the destructor's. -/
structure Alone (s : EventLoopThread T F) : Prop where
  inv : Inv s
  quiet : s.loop.quitCalled = true → s.owner.PastQuit

theorem Alone.after (alone : Alone s) (calm : quits l = false) (moves : Moves s l t) : Alone t := by
  refine ⟨alone.inv.after moves, ?_⟩
  intro called
  cases moves with
  | startLoop here => simpa [here, OwnerPc.PastQuit] using alone.quiet called
  | found here set => simpa [here, OwnerPc.PastQuit] using alone.quiet called
  | wait here unset => simpa [here, OwnerPc.PastQuit] using alone.quiet called
  | wake notified here => simpa [here, OwnerPc.PastQuit] using alone.quiet called
  | construct here => exact alone.quiet called
  | callback here => exact alone.quiet called
  | publish loop here taken =>
    have past : s.owner.PastQuit := by
      apply alone.quiet
      rw [notifyOne_loop] at called
      exact (quitCalled_step taken rfl).symm.trans called
    rcases notifyOne_owner { s with loop := loop, loopSet := true } with same | ⟨start, waits⟩
    · rw [same]
      exact past
    · cases owner : s.owner <;> simp [owner, OwnerPc.InStart, OwnerPc.PastQuit] at start past
  | loop l loop foreign here alive later taken =>
    exact alone.quiet ((quitCalled_step taken calm).symm.trans called)
  | clear here returned => exact alone.quiet called
  | destroyLoop here => exact alone.quiet called
  | destruct here =>
    rcases here with here | here
    · simpa [here, OwnerPc.PastQuit] using alone.quiet called
    · simpa [here, OwnerPc.PastQuit] using alone.quiet called
  | seeLoop here set => simpa [here, OwnerPc.PastQuit] using alone.quiet called
  | seeNone here unset => trivial
  | loadLoop here set => simpa [here, OwnerPc.PastQuit] using alone.quiet called
  | quit here alive => trivial
  | wakeup here alive => trivial
  | join here ended => trivial

/-- The step is the second half of a call that somebody has begun. -/
def EndsCall (s : EventLoopThread T F) : Label T F → Prop
  | .wakeup => s.owner = .waking
  | .loop l => ofOwner l = false ∧ finishesCall s.loop l = true
  | _ => False

instance (s : EventLoopThread T F) : ∀ l : Label T F, Decidable (EndsCall s l)
  | .wakeup => inferInstanceAs (Decidable (s.owner = .waking))
  | .loop l => inferInstanceAs (Decidable (ofOwner l = false ∧ finishesCall s.loop l = true))
  | .startLoop | .test | .wake | .construct | .callback | .clear | .destroyLoop | .destruct
  | .testLoop | .loadLoop | .quit | .join => isFalse id

/-- Such a step comes before the thread destroys the loop. -/
def WakesInTime (s : EventLoopThread T F) (l : Label T F) : Prop := EndsCall s l → s.thread ≠ .done

instance (s : EventLoopThread T F) (l : Label T F) : Decidable (WakesInTime s l) :=
  inferInstanceAs (Decidable (_ → _))

theorem step_late (late : ¬WakesInTime s l) : step s l = .error .useAfterFree := by
  simp only [WakesInTime, Classical.not_imp, not_not] at late
  obtain ⟨ends, done⟩ := late
  cases l with
  | wakeup =>
    have here : s.owner = .waking := ends
    simp [step, Checked.require_pos, Checked.require_neg, here, done]
  | loop l =>
    obtain ⟨foreign, finishes⟩ := ends
    simp [step, Checked.require_pos, Checked.require_neg, foreign, finishes, done]
  | _ => exact ends.elim

omit [DecidableEq T] in
/-- While nobody has quit, the loop that the owner has seen is there. -/
theorem Alone.live (alone : Alone s) (has : s.owner.HasLoop) (before : ¬s.owner.PastQuit) :
    s.loopSet = true ∧ s.thread = .looping := by
  have unquit : s.loop.quitCalled ≠ true := fun called => before (alone.quiet called)
  have set := (alone.inv.given (.inl has) (alone.inv.begun (.inr has))).resolve_right unquit
  exact ⟨set, (alone.inv.live set).1⟩

theorem step_fault (alone : Alone s) (in_time : WakesInTime s l) :
    Checked.Raises (· = .disabled) (step s l) := by
  cases l with
  | wake | clear =>
    simp only [step]
    split
    · exact .ok _
    · exact .error rfl
  | loop l =>
    refine .bind (.require rfl) ?_
    intro _ guard
    obtain ⟨foreign, here⟩ := Checked.require_ok_iff.mp guard
    have alive : s.thread ≠ .done := by
      rcases here with looping | finishes
      · simp [looping]
      · exact in_time ⟨foreign, finishes⟩
    rw [Checked.require_pos _ alive, Checked.ok_bind]
    refine .bind (loop_fault alone.inv.loop) ?_
    intro loop _
    split
    · exact .ok _
    · exact .ok _
  | loadLoop =>
    refine .bind (.require rfl) ?_
    intro _ guard
    have here := Checked.require_ok_iff.mp guard
    have live := alone.live (by simp [here, OwnerPc.HasLoop]) (by simp [here, OwnerPc.PastQuit])
    rw [Checked.require_pos _ live.1]
    exact .ok _
  | quit =>
    refine .bind (.require rfl) ?_
    intro _ guard
    have here := Checked.require_ok_iff.mp guard
    have live := alone.live (by simp [here, OwnerPc.HasLoop]) (by simp [here, OwnerPc.PastQuit])
    rw [Checked.require_pos _ (by simp [live.2])]
    exact .ok _
  | wakeup =>
    refine .bind (.require rfl) ?_
    intro _ guard
    have here : s.owner = .waking := Checked.require_ok_iff.mp guard
    rw [Checked.require_pos _ (in_time here)]
    exact .ok _
  | _ => exact .bind (.require rfl) fun _ _ => .ok _

omit [DecidableEq T] in
theorem Alone.new (hasCallback : Bool) : Alone (new hasCallback : EventLoopThread T F) := by
  refine ⟨Inv.new hasCallback, ?_⟩
  intro called
  cases called

/-- **The loop after its end**: if nobody but the destructor quits the loop, the runs in which no
null pointer is followed, nothing is used after its end and no assertion fails are exactly those in
which every `wakeup` of a call comes before the thread destroys its loop. -/
theorem destructor_safe_iff (hasCallback : Bool) (ls : List (Label T F))
    (alone : ∀ l ∈ ls, quits l = false) :
    (∀ f, run step (new hasCallback) ls = .error f → f = .disabled) ↔
      Along step WakesInTime (new hasCallback) ls := by
  constructor
  · intro safe
    apply along_of_spared (fun _ _ => step_late)
    intro used
    cases safe _ used
  · intro in_time f failed
    have calm : Along step (fun _ l => quits l = false) (new hasCallback) ls :=
      Along.of_labels (fun l member _ => alone l member) _
    have preserved : ∀ s l (t : EventLoopThread T F), Alone s → quits l = false ∧ WakesInTime s l →
        step s l = .ok t → Alone t :=
      fun _ _ _ alone met taken => alone.after met.1 (step_moves taken)
    have faults : ∀ (s : EventLoopThread T F) l f, Alone s → quits l = false ∧ WakesInTime s l →
        step s l = .error f → f = .disabled :=
      fun _ _ f alone met failed => step_fault alone met.2 f failed
    exact run_fault_along preserved faults (Alone.new hasCallback) (calm.and in_time) failed

/-- The destructor stores the flag, and the thread ends before the `wakeup`. -/
def sampleLate : List (Label Unit Unit) :=
  [.startLoop, .construct, .callback, .loop .publish, .test, .loop .callLoop, .loop .resetQuit,
    .destruct, .testLoop, .loadLoop, .quit, .loop .test, .clear, .destroyLoop, .wakeup]

theorem sampleLate_unsafe :
    ¬∀ f, run step (new false) sampleLate = .error f → f = .disabled := by
  rw [destructor_safe_iff false sampleLate (by decide)]
  decide

/-! ### The join -/

section

variable {s t : LoopThread (Option T) F} {l : LoopThread.Label (Option T) F}

/-- The `quit` was stored, and the flag does not show it: it is to be overwritten, or was. -/
def Lost (s : LoopThread (Option T) F) : Prop :=
  s.pc.BeforeReset ∨ s.quit = false ∧ s.pc ≠ .returned

theorem Lost.after (lost : Lost s) (taken : s.step l = .ok t) (calm : quits (.loop l) = false) :
    Lost t := by
  cases LoopThread.step_moves taken with
  | publish here => exact .inl trivial
  | callLoop here => exact .inl trivial
  | resetQuit here => exact .inr ⟨rfl, by simp⟩
  | leave here quit => simp [Lost, here, quit, LoopPc.BeforeReset] at lost
  | quit thread shared outside => cases calm
  | ownQuit user free => cases calm
  | push thread cb shared outside => exact lost
  | wakeup thread inside => exact lost
  | ownPush cb user free => exact lost
  | ownWakeup inside calling => exact lost
  | ownSilence inside calling => exact lost
  | _ =>
    right
    simp_all [Lost, LoopPc.BeforeReset, LoopThread.handleRead, LoopThread.swap, LoopThread.call]

/-- A step that the loop thread makes with no user code involved. -/
def Plain (l : LoopThread.Label (Option T) F) : Prop :=
  ofOwner l = false ∧ l ≠ .publish ∧ quits (.loop l) = false

/-- Such steps lead to the end of `loop`. -/
def Ends (s : LoopThread (Option T) F) : Prop :=
  ∃ ms, (∀ l ∈ ms, Plain l) ∧ ∃ t, run LoopThread.step s ms = .ok t ∧ t.pc = .returned

theorem Ends.step (plain : Plain l) (taken : s.step l = .ok t) (later : Ends t) : Ends s := by
  obtain ⟨ms, all, u, ran, returned⟩ := later
  refine ⟨l :: ms, ?_, u, ?_, returned⟩
  · intro l' member
    rcases List.mem_cons.mp member with rfl | member
    · exact plain
    · exact all l' member
  · rw [run_cons_ok ms taken, ran]

theorem ends_testing (here : s.pc = .testing) (flag : s.quit = true) : Ends s := by
  have taken : s.step .test = .ok { s with pc := .returned, looping := false } := by
    simp [LoopThread.step, here, flag]
  exact Ends.step ⟨rfl, by simp, rfl⟩ taken ⟨[], by simp, _, rfl, rfl⟩

/-- Induction on the functors that are to be called. -/
theorem ends_running {done rest : List (Queued (Option T) F)} (here : s.pc = .running done rest)
    (free : s.inCall = false) (flag : s.quit = true) : Ends s := by
  induction rest generalizing s done with
  | nil =>
    have taken : s.step .endDraining =
        .ok { s with pc := .testing, callingPendingFunctors := false } := by
      simp [LoopThread.step, Checked.require_pos, here, free]
    exact Ends.step ⟨rfl, by simp, rfl⟩ taken (ends_testing rfl flag)
  | cons functor rest ih =>
    have taken : s.step .runNext = .ok (s.call done functor rest) := by
      simp [LoopThread.step, Checked.require_pos, here, free]
    exact Ends.step ⟨rfl, by simp, rfl⟩ taken (ih rfl free flag)

theorem ends_swapping (here : s.pc = .swapping) (free : s.inCall = false) (flag : s.quit = true) :
    Ends s := by
  have taken : s.step .swap = .ok s.swap := by simp [LoopThread.step, here]
  exact Ends.step ⟨rfl, by simp, rfl⟩ taken (ends_running rfl free flag)

theorem ends_draining (here : s.pc = .draining) (free : s.inCall = false) (flag : s.quit = true) :
    Ends s := by
  have taken : s.step .startDraining =
      .ok { s with pc := .swapping, callingPendingFunctors := true } := by
    simp [LoopThread.step, here]
  exact Ends.step ⟨rfl, by simp, rfl⟩ taken (ends_swapping rfl free flag)

/-- Induction on the channels that are to be handled. -/
theorem ends_dispatching {inCallback : Bool} {active : List Active}
    (here : s.pc = .dispatching inCallback active) (free : s.inCall = false)
    (flag : s.quit = true) : Ends s := by
  induction active generalizing s inCallback with
  | nil =>
    have taken : s.step .dispatch = .ok { s with pc := .draining } := by
      simp [LoopThread.step, Checked.require_pos, here, free]
    exact Ends.step ⟨rfl, by simp, rfl⟩ taken (ends_draining rfl free flag)
  | cons next active ih =>
    cases next with
    | wakeupChannel =>
      have taken : s.step .dispatch =
          .ok { s with pc := .dispatching false active }.handleRead := by
        simp [LoopThread.step, Checked.require_pos, here, free]
      exact Ends.step ⟨rfl, by simp, rfl⟩ taken (ih rfl free flag)
    | channel =>
      have taken : s.step .dispatch = .ok { s with pc := .dispatching true active } := by
        simp [LoopThread.step, Checked.require_pos, here, free]
      exact Ends.step ⟨rfl, by simp, rfl⟩ taken (ih rfl free flag)

theorem ends_waiting (here : s.pc = .waiting) (free : s.inCall = false) (flag : s.quit = true) :
    Ends s := by
  have taken : s.step (.pollReturn []) = .ok { s with pc := .dispatching false [] } := by
    simp [LoopThread.step, Checked.require_pos, here]
  exact Ends.step ⟨rfl, by simp, rfl⟩ taken (ends_dispatching rfl free flag)

/-- A `quit` that the flag shows ends the loop from wherever the loop thread is. -/
theorem ends_of_flag (past : ¬s.pc.BeforeReset) (flag : s.quit = true) : Ends s := by
  have freed : ∀ u : LoopThread (Option T) F, ¬u.pc.BeforeReset → u.quit = true →
      u.inCall = false → Ends u := by
    intro u past flag free
    cases here : u.pc with
    | constructed | published | entered => simp [here, LoopPc.BeforeReset] at past
    | testing => exact ends_testing here flag
    | polling =>
      have taken : u.step .enterWait = .ok { u with pc := .waiting } := by
        simp [LoopThread.step, here]
      exact Ends.step ⟨rfl, by simp, rfl⟩ taken (ends_waiting rfl free flag)
    | waiting => exact ends_waiting here free flag
    | dispatching inCallback active => exact ends_dispatching here free flag
    | draining => exact ends_draining here free flag
    | swapping => exact ends_swapping here free flag
    | running done rest => exact ends_running here free flag
    | returned => exact ⟨[], by simp, u, rfl, here⟩
  cases inside : s.inCall with
  | false => exact freed s past flag inside
  | true =>
    -- The call of `queue_in_loop` that the loop thread is in ends first.
    by_cases calling : s.callingPendingFunctors = true
    · have taken : s.step .ownWakeup = .ok { s with inCall := false }.wakeup := by
        simp [LoopThread.step, Checked.require_pos, inside, calling]
      exact Ends.step ⟨rfl, by simp, rfl⟩ taken (freed _ past flag rfl)
    · have taken : s.step .ownWakeup = .ok { s with inCall := false } := by
        simp [LoopThread.step, Checked.require_pos, inside, calling]
      exact Ends.step ⟨rfl, by simp, rfl⟩ taken (freed _ past flag rfl)

end

/-- The destructor quits after `loop` has stored `quit_ = false`. -/
def QuitsAfterReset (s : EventLoopThread T F) (l : Label T F) : Prop :=
  l = .quit → ¬s.loop.pc.BeforeReset

instance [DecidableEq F] (s : EventLoopThread T F) (l : Label T F) :
    Decidable (QuitsAfterReset s l) :=
  inferInstanceAs (Decidable (_ → _))

/-- What the destructor has quit is about to end. -/
def Heard (s : EventLoopThread T F) : Prop :=
  s.owner = .waking ∨ s.owner = .joining → s.thread = .unborn ∨
    s.loop.quitCalled = true ∧ LoopThread.Kept s.loop

/-- What the destructor has quit goes on. -/
def Unheard (s : EventLoopThread T F) : Prop :=
  (s.owner = .waking ∨ s.owner = .joining) ∧ s.thread = .looping ∧ Lost s.loop

theorem Heard.after (alone : Alone s) (heard : Heard s) (met : QuitsAfterReset s l)
    (moves : Moves s l t) : Heard t := by
  intro past
  cases moves with
  | startLoop here => simp at past
  | found here set => simp at past
  | wait here unset => simp at past
  | wake notified here => simp at past
  | construct here =>
    have kept := (heard past).resolve_left (by simp [here])
    exact .inr kept
  | callback here =>
    have kept := (heard past).resolve_left (by simp [here])
    exact .inr kept
  | publish loop here taken =>
    rcases notifyOne_owner { s with loop := loop, loopSet := true } with same | ⟨start, waits⟩
    · rw [same] at past
      have kept := (heard past).resolve_left (by simp [here])
      rw [notifyOne_loop]
      exact .inr ⟨quitCalled_mono taken kept.1, (kept.2.after (LoopThread.step_moves taken)).1⟩
    · simp [waits] at past
  | loop l loop foreign here alive later taken =>
    rcases heard past with unborn | ⟨called, kept⟩
    · exact .inl unborn
    · exact .inr ⟨quitCalled_mono taken called, (kept.after (LoopThread.step_moves taken)).1⟩
  | clear here returned =>
    have kept := (heard past).resolve_left (by simp [here])
    exact .inr kept
  | destroyLoop here =>
    have kept := (heard past).resolve_left (by simp [here])
    exact .inr kept
  | destruct here => simp at past
  | seeLoop here set => simp at past
  | seeNone here unset =>
    left
    by_contra born
    have called := (alone.inv.given (.inr (.inl here)) born).resolve_left (by simp [unset])
    simpa [here, OwnerPc.PastQuit] using alone.quiet called
  | loadLoop here set => simp at past
  | quit here alive => exact .inr ⟨rfl, met rfl, fun _ => rfl⟩
  | wakeup here alive =>
    rcases heard (.inl here) with unborn | ⟨called, kept⟩
    · exact .inl unborn
    · exact .inr ⟨called, kept.past, kept.flag⟩
  | join here ended => simp at past

theorem Unheard.after (unheard : Unheard s) (calm : quits l = false) (moves : Moves s l t) :
    Unheard t := by
  obtain ⟨past, looping, lost⟩ := unheard
  cases moves with
  | startLoop here => simp [here] at past
  | found here set => simp [here] at past
  | wait here unset => simp [here] at past
  | wake notified here => simp [here] at past
  | construct here => simp [here] at looping
  | callback here => simp [here] at looping
  | publish loop here taken =>
    rcases notifyOne_owner { s with loop := loop, loopSet := true } with same | ⟨start, waits⟩
    · exact ⟨by rwa [same], by simpa using looping, by simpa using lost.after taken rfl⟩
    · cases owner : s.owner <;> simp [owner, OwnerPc.InStart] at start past
  | loop l loop foreign here alive later taken => exact ⟨past, looping, lost.after taken calm⟩
  | clear here returned => simp [Lost, returned, LoopPc.BeforeReset] at lost
  | destroyLoop here => simp [here] at looping
  | destruct here => rcases here with here | here <;> simp [here] at past
  | seeLoop here set => simp [here] at past
  | seeNone here unset => simp [here] at past
  | loadLoop here set => simp [here] at past
  | quit here alive => simp [here] at past
  | wakeup here alive => exact ⟨.inr rfl, looping, lost⟩
  | join here ended => simp [looping] at ended

/-- A `quit` against the order is never heard. -/
theorem unheard_of_quit (alone : Alone s) (early : ¬QuitsAfterReset s l) (moves : Moves s l t) :
    Unheard t := by
  simp only [QuitsAfterReset, Classical.not_imp, not_not] at early
  obtain ⟨rfl, early⟩ := early
  cases moves with
  | quit here alive =>
    have live := alone.live (by simp [here, OwnerPc.HasLoop]) (by simp [here, OwnerPc.PastQuit])
    exact ⟨.inl rfl, live.2, .inl early⟩

theorem in_order_or_unheard {ls : List (Label T F)} (alone : Alone s)
    (calm : ∀ l ∈ ls, quits l = false) (ran : run step s ls = .ok t) :
    Along step QuitsAfterReset s ls ∨ Unheard t := by
  induction ls generalizing s with
  | nil => exact .inl trivial
  | cons l ls ih =>
    obtain ⟨u, taken, later⟩ := run_cons_inv ran
    have moves := step_moves taken
    have rest : ∀ l' ∈ ls, quits l' = false := fun l' member => calm l' (by simp [member])
    by_cases met : QuitsAfterReset s l
    · rcases ih (alone.after (calm l (by simp)) moves) rest later with along | unheard
      · exact .inl ((along_cons_ok taken).mpr ⟨met, along⟩)
      · exact .inr unheard
    · right
      exact run_invariant_along
        (fun _ _ _ unheard calm taken => unheard.after calm (step_moves taken))
        (unheard_of_quit alone met moves) (Along.of_labels (fun l member _ => rest l member) u) later

/-- The loop thread's own steps, as steps of the whole. -/
theorem run_loop {ms : List (LoopThread.Label (Option T) F)} {u : LoopThread (Option T) F}
    (here : s.thread = .looping) (plain : ∀ l ∈ ms, Plain l)
    (ran : run LoopThread.step s.loop ms = .ok u) :
    run step s (ms.map .loop) = .ok { s with loop := u } := by
  induction ms generalizing s with
  | nil =>
    cases ran
    rfl
  | cons l ms ih =>
    obtain ⟨v, taken, later⟩ := run_cons_inv ran
    obtain ⟨foreign, other, _⟩ := plain l (by simp)
    have moved : step s (.loop l) = .ok { s with loop := v } := by
      cases l with
      | publish => exact absurd rfl other
      | _ => simp [step, Checked.require_pos, foreign, here, taken]
    rw [List.map_cons, run_cons_ok _ moved]
    exact ih here (fun l' member => plain l' (by simp [member])) later

/-- From there the thread and its owner come to the end. -/
theorem join_after (alone : Alone s) (heard : Heard s) (here : s.owner = .joining) :
    ∃ ms t, (∀ l ∈ ms, quits l = false) ∧ run step s ms = .ok t ∧ t.owner = .destroyed := by
  have joined : ∀ u : EventLoopThread T F, u.owner = .joining →
      u.thread = .unborn ∨ u.thread = .done →
      run step u [.join] = .ok { u with owner := .destroyed } := by
    intro u here ended
    simp [run, step, Checked.require_pos, here, ended]
  have left : ∀ u : EventLoopThread T F, u.owner = .joining → u.thread = .leaving →
      run step u [.destroyLoop, .join] = .ok { u with owner := .destroyed, thread := .done } := by
    intro u here leaving
    have taken : step u .destroyLoop = .ok { u with thread := .done } := by
      simp [step, Checked.require_pos, leaving]
    rw [run_cons_ok _ taken]
    exact joined _ here (.inr rfl)
  have quitCalled : s.thread ≠ .unborn → s.loop.quitCalled = true ∧ LoopThread.Kept s.loop :=
    fun born => (heard (.inr here)).resolve_left born
  cases thread : s.thread with
  | unborn => exact ⟨[.join], _, by simp [quits], joined s here (.inl thread), rfl⟩
  | done => exact ⟨[.join], _, by simp [quits], joined s here (.inr thread), rfl⟩
  | leaving => exact ⟨[.destroyLoop, .join], _, by simp [quits], left s here thread, rfl⟩
  | looping =>
    obtain ⟨called, kept⟩ := quitCalled (by simp [thread])
    obtain ⟨ms, plain, u, ran, returned⟩ := ends_of_flag kept.past (kept.flag called)
    have cleared : step { s with loop := u } .clear =
        .ok { s with loop := u, thread := .leaving, loopSet := false } := by
      simp [step, thread, returned]
    refine ⟨ms.map .loop ++ [.clear, .destroyLoop, .join],
      { s with owner := .destroyed, thread := .done, loop := u, loopSet := false }, ?_, ?_, rfl⟩
    · intro l member
      rcases List.mem_append.mp member with loop | own
      · obtain ⟨l', among, rfl⟩ := List.mem_map.mp loop
        exact (plain l' among).2.2
      · have last : ∀ l ∈ ([.clear, .destroyLoop, .join] : List (Label T F)), quits l = false := by
          simp [quits]
        exact last l own
    · rw [run_append, run_loop thread plain ran, Checked.ok_bind, run_cons_ok _ cleared]
      exact left _ here rfl
  | _ =>
    have called := (quitCalled (by simp [thread])).1
    simp [(alone.inv.early (by simp [thread, ThreadPc.Early])).2.1] at called

/-- **The join**: if nobody but the destructor quits the loop, and the destructor waits for its
thread, then it can return exactly if its `quit` came after the store of `loop`. Otherwise it waits
forever, whatever the threads do. -/
theorem join_returns_iff (hasCallback : Bool) (ls : List (Label T F)) (s : EventLoopThread T F)
    (calm : ∀ l ∈ ls, quits l = false) (ran : run step (new hasCallback) ls = .ok s)
    (here : s.owner = .joining) :
    (∃ ms t, (∀ l ∈ ms, quits l = false) ∧ run step s ms = .ok t ∧ t.owner = .destroyed) ↔
      Along step QuitsAfterReset (new hasCallback) ls := by
  have calm' : Along step (fun _ l => quits l = false) (new hasCallback) ls :=
    Along.of_labels (fun l member _ => calm l member) _
  constructor
  · rintro ⟨ms, t, quiet, later, destroyed⟩
    apply (in_order_or_unheard (Alone.new hasCallback) calm ran).resolve_right
    intro unheard
    have still : Unheard t := run_invariant_along
      (fun _ _ _ unheard calm taken => unheard.after calm (step_moves taken)) unheard
      (Along.of_labels (fun l member _ => quiet l member) s) later
    simp [Unheard, destroyed] at still
  · intro in_order
    have preserved : ∀ s l (t : EventLoopThread T F), Alone s ∧ Heard s →
        quits l = false ∧ QuitsAfterReset s l → step s l = .ok t → Alone t ∧ Heard t :=
      fun _ _ _ inv met taken => ⟨inv.1.after met.1 (step_moves taken),
        inv.2.after inv.1 met.2 (step_moves taken)⟩
    have inv : Alone s ∧ Heard s := run_invariant_along preserved
      ⟨Alone.new hasCallback, fun _ => .inl rfl⟩ (calm'.and in_order) ran
    exact join_after inv.1 inv.2 here

/-- The destructor comes before the thread has entered `loop`. -/
def sampleEarly : List (Label Unit Unit) :=
  [.startLoop, .construct, .callback, .loop .publish, .test, .destruct, .testLoop, .loadLoop, .quit,
    .wakeup]

theorem sampleEarly_hangs :
    ∃ s : EventLoopThread Unit Unit, run step (new false) sampleEarly = .ok s ∧
      s.owner = .joining ∧ ¬∃ ms t, (∀ l ∈ ms, quits l = false) ∧ run step s ms = .ok t ∧
        t.owner = .destroyed := by
  refine ⟨_, rfl, rfl, ?_⟩
  rw [join_returns_iff false sampleEarly _ (by decide) rfl rfl]
  decide

end EventLoopThread

end Clia.Reactor
