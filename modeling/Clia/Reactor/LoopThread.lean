import Clia.Reactor.Channel
import Clia.Library.LabelledRun

/-!
# The loop and its functors

`EventLoop::loop`, `quit`, `queue_in_loop`, `wakeup`, `handle_read` and `do_pending_functors` of
`reactor/event_loop.cc`, with `EventLoopThread::thread_func` around them. Any number of other
threads push functors and quit; every access to something they share with the loop thread is a
step of its own, and a critical section of `mutex_` is one step.

The loop thread runs user code in two places: a callback of a channel, while it dispatches, and a
functor, while it drains. There it may call `queue_in_loop` and `quit`, too.

## Main results

* `no_lost_wakeup`: the loop does not wait with a functor that nobody announces.
* `functors_in_order`: functors run in the order of the queue, and one drain runs those that were
  there at its swap.
-/

namespace Clia.Reactor

open LabelledRun

/-- A functor in the queue. `origin` is the thread whose call has put it there, `none` for the
loop thread; the code does not have it. -/
structure Queued (T F : Type) where
  origin : Option T
  functor : F
  deriving DecidableEq, Repr

/-- What `epoll_wait` reports: the channel of the eventfd, or a channel with user callbacks. -/
inductive Active where
  | wakeupChannel
  | channel
  deriving DecidableEq, Repr

/-- Where the loop thread is. -/
inductive LoopPc (E : Type) where
  /-- in `thread_func`, before `loop_` is set -/
  | constructed
  /-- before `loop.loop()` -/
  | published
  /-- in `loop`, before `quit_ = false` -/
  | entered
  /-- at `while (!quit_)` -/
  | testing
  /-- before `epoll_wait` -/
  | polling
  /-- in `epoll_wait` -/
  | waiting
  /-- in the loop over the active channels; `inCallback` if user code is running -/
  | dispatching (inCallback : Bool) (active : List Active)
  /-- in `do_pending_functors`, before `calling_pending_functors_ = true` -/
  | draining
  /-- before the swap -/
  | swapping
  /-- in the loop over the swapped functors: those called, and those to come -/
  | running (done rest : List E)
  /-- after `loop` -/
  | returned
  deriving DecidableEq, Repr

namespace LoopPc

variable {E : Type}

/-- Other threads have the pointer, and the loop has not ended. -/
def Shared : LoopPc E → Prop
  | .constructed | .returned => False
  | _ => True

/-- The loop thread is in a callback of a channel or in a functor. -/
def InUserCode : LoopPc E → Prop
  | .dispatching inCallback _ => inCallback = true
  | .running done _ => done ≠ []
  | _ => False

instance (pc : LoopPc E) : Decidable pc.Shared := by
  cases pc <;> unfold Shared <;> infer_instance

instance (pc : LoopPc E) : Decidable pc.InUserCode := by
  cases pc with
  | dispatching inCallback _ => exact inferInstanceAs (Decidable (inCallback = true))
  | running done _ => cases done with
    | nil => exact isFalse (fun nonempty => nonempty rfl)
    | cons f done => exact isTrue (List.cons_ne_nil f done)
  | _ => exact isFalse id

/-- The loop thread swaps the queue before it waits again. -/
def WillSwap : LoopPc E → Prop
  | .dispatching _ _ | .draining | .swapping => True
  | _ => False

/-- Between the two stores of `do_pending_functors`. -/
def Draining : LoopPc E → Prop
  | .swapping | .running _ _ => True
  | _ => False

/-- The swapped functors that are still to be called. -/
def rest : LoopPc E → List E
  | .running _ rest => rest
  | _ => []

end LoopPc

/-- Where another thread is. -/
inductive CallerPc where
  | outside
  /-- in `queue_in_loop`, before `wakeup` -/
  | pushed
  /-- in `quit`, before `wakeup` -/
  | quitStored
  deriving DecidableEq, Repr

/-- An `EventLoop` and the threads that use it. `enqueued`, `executed`, `quitCalled` and `marks`
are history: the functors in the order of their pushes and in the order of their calls, whether a
`quit` has stored its flag, and for each thread how many functors had been pushed at its last
`quit`. -/
structure LoopThread (T F : Type) where
  pc : LoopPc (Queued T F)
  /-- the loop thread is in `queue_in_loop`, after its push -/
  inCall : Bool
  looping : Bool
  quit : Bool
  callingPendingFunctors : Bool
  pendingFunctors : List (Queued T F)
  /-- the counter of `wakeup_fd_` -/
  wakeups : Nat
  callers : T → CallerPc
  enqueued : List (Queued T F)
  executed : List (Queued T F)
  quitCalled : Bool
  marks : T → Nat

namespace LoopThread

variable {T F : Type}

/-- After the constructor of `EventLoop`. -/
def start : LoopThread T F :=
  { pc := .constructed, inCall := false, looping := false, quit := false,
    callingPendingFunctors := false, pendingFunctors := [], wakeups := 0,
    callers := fun _ => .outside, enqueued := [], executed := [], quitCalled := false,
    marks := fun _ => 0 }

/-- The largest value of the counter of an eventfd. -/
def kMaxCounter : Nat := 0xfffffffffffffffe

/-- `wakeup`: the `write` fails when the counter is at its largest value. -/
def wakeup (s : LoopThread T F) : LoopThread T F :=
  { s with wakeups := if s.wakeups < kMaxCounter then s.wakeups + 1 else s.wakeups }

/-- `handle_read`: a `read` of the eventfd resets its counter. -/
def handleRead (s : LoopThread T F) : LoopThread T F := { s with wakeups := 0 }

/-- The critical section of `queue_in_loop`. -/
def pushBack (s : LoopThread T F) (cb : Queued T F) : LoopThread T F :=
  { s with
    pendingFunctors := s.pendingFunctors ++ [cb]
    enqueued := s.enqueued ++ [cb] }

/-- The critical section of `do_pending_functors`. -/
def swap (s : LoopThread T F) : LoopThread T F :=
  { s with pc := .running [] s.pendingFunctors, pendingFunctors := [] }

/-- The next functor of the batch is called. What it does are steps of their own. -/
def call (s : LoopThread T F) (done : List (Queued T F)) (functor : Queued T F)
    (rest : List (Queued T F)) : LoopThread T F :=
  { s with pc := .running (done ++ [functor]) rest, executed := s.executed ++ [functor] }

/-- The steps of the loop thread, and after them those of the others. -/
inductive Label (T F : Type) where
  | publish
  | callLoop
  | resetQuit
  | test
  | enterWait
  | pollReturn (active : List Active)
  | dispatch
  | startDraining
  | swap
  | runNext
  | endDraining
  /-- user code on the loop thread calls `queue_in_loop` -/
  | ownPush (cb : F)
  /-- the rest of that call -/
  | ownWakeup
  /-- user code on the loop thread calls `quit` -/
  | ownQuit
  | push (thread : T) (cb : F)
  | quit (thread : T)
  /-- the `wakeup` at the end of `queue_in_loop` and of `quit` -/
  | wakeup (thread : T)
  deriving DecidableEq, Repr

variable [DecidableEq T]

def step (s : LoopThread T F) : Label T F → Except Fault (LoopThread T F)
  | .publish =>
    match s.pc with
    | .constructed => .ok { s with pc := .published }
    | _ => .error .disabled
  | .callLoop =>
    match s.pc with
    | .published => do
      cassert (s.looping = false) .notLooping
      return { s with pc := .entered, looping := true }
    | _ => .error .disabled
  | .resetQuit =>
    match s.pc with
    | .entered => .ok { s with pc := .testing, quit := false }
    | _ => .error .disabled
  | .test =>
    match s.pc with
    | .testing => .ok (if s.quit then { s with pc := .returned, looping := false }
        else { s with pc := .polling })
    | _ => .error .disabled
  | .enterWait =>
    match s.pc with
    | .polling => .ok { s with pc := .waiting }
    | _ => .error .disabled
  | .pollReturn active =>
    match s.pc with
    | .waiting => do
      Checked.require (.wakeupChannel ∈ active → 0 < s.wakeups) .disabled
      return { s with pc := .dispatching false active }
    | _ => .error .disabled
  | .dispatch => do
    Checked.require (s.inCall = false) .disabled
    match s.pc with
    | .dispatching _ [] => return { s with pc := .draining }
    | .dispatching _ (.wakeupChannel :: active) =>
      return { s with pc := .dispatching false active }.handleRead
    | .dispatching _ (.channel :: active) => return { s with pc := .dispatching true active }
    | _ => .error .disabled
  | .startDraining =>
    match s.pc with
    | .draining => .ok { s with pc := .swapping, callingPendingFunctors := true }
    | _ => .error .disabled
  | .swap =>
    match s.pc with
    | .swapping => .ok s.swap
    | _ => .error .disabled
  | .runNext => do
    Checked.require (s.inCall = false) .disabled
    match s.pc with
    | .running done (functor :: rest) => return s.call done functor rest
    | _ => .error .disabled
  | .endDraining => do
    Checked.require (s.inCall = false) .disabled
    match s.pc with
    | .running _ [] => return { s with pc := .testing, callingPendingFunctors := false }
    | _ => .error .disabled
  | .ownPush cb => do
    Checked.require (s.pc.InUserCode ∧ s.inCall = false) .disabled
    return { s.pushBack ⟨none, cb⟩ with inCall := true }
  | .ownWakeup => do
    Checked.require (s.inCall = true) .disabled
    -- `is_in_loop_thread()` is true, so `calling_pending_functors_` decides.
    let s := { s with inCall := false }
    return if s.callingPendingFunctors then s.wakeup else s
  | .ownQuit => do
    Checked.require (s.pc.InUserCode ∧ s.inCall = false) .disabled
    return { s with quit := true, quitCalled := true }
  | .push thread cb => do
    Checked.require (s.pc.Shared ∧ s.callers thread = .outside) .disabled
    return { s.pushBack ⟨some thread, cb⟩ with
      callers := Function.update s.callers thread .pushed }
  | .quit thread => do
    Checked.require (s.pc.Shared ∧ s.callers thread = .outside) .disabled
    return { s with
      quit := true
      quitCalled := true
      marks := Function.update s.marks thread s.enqueued.length
      callers := Function.update s.callers thread .quitStored }
  | .wakeup thread => do
    Checked.require (s.callers thread ≠ .outside) .disabled
    return { s with callers := Function.update s.callers thread .outside }.wakeup

/-! ### What a step can do -/

/-- The steps, each with its guard and what it leaves. -/
inductive Moves (s : LoopThread T F) : Label T F → LoopThread T F → Prop
  | publish (here : s.pc = .constructed) : Moves s .publish { s with pc := .published }
  | callLoop (here : s.pc = .published) :
      Moves s .callLoop { s with pc := .entered, looping := true }
  | resetQuit (here : s.pc = .entered) : Moves s .resetQuit { s with pc := .testing, quit := false }
  | leave (here : s.pc = .testing) (quit : s.quit = true) :
      Moves s .test { s with pc := .returned, looping := false }
  | again (here : s.pc = .testing) (quit : s.quit = false) :
      Moves s .test { s with pc := .polling }
  | enterWait (here : s.pc = .polling) : Moves s .enterWait { s with pc := .waiting }
  | pollReturn (active : List Active) (here : s.pc = .waiting) :
      Moves s (.pollReturn active) { s with pc := .dispatching false active }
  | dispatched (inCallback : Bool) (here : s.pc = .dispatching inCallback [])
      (free : s.inCall = false) : Moves s .dispatch { s with pc := .draining }
  | handleRead (inCallback : Bool) (active : List Active)
      (here : s.pc = .dispatching inCallback (.wakeupChannel :: active))
      (free : s.inCall = false) :
      Moves s .dispatch { s with pc := .dispatching false active }.handleRead
  | callback (inCallback : Bool) (active : List Active)
      (here : s.pc = .dispatching inCallback (.channel :: active)) (free : s.inCall = false) :
      Moves s .dispatch { s with pc := .dispatching true active }
  | startDraining (here : s.pc = .draining) :
      Moves s .startDraining { s with pc := .swapping, callingPendingFunctors := true }
  | swap (here : s.pc = .swapping) : Moves s .swap s.swap
  | runNext (done : List (Queued T F)) (functor : Queued T F) (rest : List (Queued T F))
      (here : s.pc = .running done (functor :: rest)) (free : s.inCall = false) :
      Moves s .runNext (s.call done functor rest)
  | endDraining (done : List (Queued T F)) (here : s.pc = .running done [])
      (free : s.inCall = false) :
      Moves s .endDraining { s with pc := .testing, callingPendingFunctors := false }
  | ownPush (cb : F) (user : s.pc.InUserCode) (free : s.inCall = false) :
      Moves s (.ownPush cb) { s.pushBack ⟨none, cb⟩ with inCall := true }
  | ownWakeup (inside : s.inCall = true) (calling : s.callingPendingFunctors = true) :
      Moves s .ownWakeup { s with inCall := false }.wakeup
  | ownSilence (inside : s.inCall = true) (calling : s.callingPendingFunctors = false) :
      Moves s .ownWakeup { s with inCall := false }
  | ownQuit (user : s.pc.InUserCode) (free : s.inCall = false) :
      Moves s .ownQuit { s with quit := true, quitCalled := true }
  | push (thread : T) (cb : F) (shared : s.pc.Shared) (outside : s.callers thread = .outside) :
      Moves s (.push thread cb) { s.pushBack ⟨some thread, cb⟩ with
        callers := Function.update s.callers thread .pushed }
  | quit (thread : T) (shared : s.pc.Shared) (outside : s.callers thread = .outside) :
      Moves s (.quit thread) { s with
        quit := true
        quitCalled := true
        marks := Function.update s.marks thread s.enqueued.length
        callers := Function.update s.callers thread .quitStored }
  | wakeup (thread : T) (inside : s.callers thread ≠ .outside) :
      Moves s (.wakeup thread) { s with
        callers := Function.update s.callers thread .outside }.wakeup

variable {s t : LoopThread T F} {l : Label T F}

theorem step_moves (taken : step s l = .ok t) : Moves s l t := by
  cases l with
  | publish =>
    simp only [step] at taken
    split at taken
    next here => cases taken; exact .publish here
    · cases taken
  | callLoop =>
    simp only [step] at taken
    split at taken
    next here =>
      obtain ⟨_, _, taken⟩ := Checked.bind_ok_iff.mp taken
      cases taken
      exact .callLoop here
    · cases taken
  | resetQuit =>
    simp only [step] at taken
    split at taken
    next here => cases taken; exact .resetQuit here
    · cases taken
  | test =>
    simp only [step] at taken
    split at taken
    next here =>
      cases taken
      by_cases quit : s.quit = true
      · rw [if_pos quit]
        exact .leave here quit
      · rw [if_neg quit]
        exact .again here (by simpa using quit)
    · cases taken
  | enterWait =>
    simp only [step] at taken
    split at taken
    next here => cases taken; exact .enterWait here
    · cases taken
  | pollReturn active =>
    simp only [step] at taken
    split at taken
    next here =>
      obtain ⟨_, _, taken⟩ := Checked.bind_ok_iff.mp taken
      cases taken
      exact .pollReturn active here
    · cases taken
  | dispatch =>
    obtain ⟨_, free, taken⟩ := Checked.bind_ok_iff.mp taken
    simp only [Checked.require_ok_iff] at free
    split at taken
    next inCallback here => cases taken; exact .dispatched inCallback here free
    next inCallback active here => cases taken; exact .handleRead inCallback active here free
    next inCallback active here => cases taken; exact .callback inCallback active here free
    · cases taken
  | startDraining =>
    simp only [step] at taken
    split at taken
    next here => cases taken; exact .startDraining here
    · cases taken
  | swap =>
    simp only [step] at taken
    split at taken
    next here => cases taken; exact .swap here
    · cases taken
  | runNext =>
    obtain ⟨_, free, taken⟩ := Checked.bind_ok_iff.mp taken
    simp only [Checked.require_ok_iff] at free
    split at taken
    next done functor rest here => cases taken; exact .runNext done functor rest here free
    · cases taken
  | endDraining =>
    obtain ⟨_, free, taken⟩ := Checked.bind_ok_iff.mp taken
    simp only [Checked.require_ok_iff] at free
    split at taken
    next done here => cases taken; exact .endDraining done here free
    · cases taken
  | ownPush cb =>
    obtain ⟨guard, rfl⟩ := Checked.guarded_ok_iff.mp taken
    exact .ownPush cb guard.1 guard.2
  | ownWakeup =>
    obtain ⟨inside, rfl⟩ := Checked.guarded_ok_iff.mp taken
    by_cases calling : s.callingPendingFunctors = true
    · rw [if_pos calling]
      exact .ownWakeup inside calling
    · rw [if_neg calling]
      exact .ownSilence inside (by simpa using calling)
  | ownQuit =>
    obtain ⟨guard, rfl⟩ := Checked.guarded_ok_iff.mp taken
    exact .ownQuit guard.1 guard.2
  | push thread cb =>
    obtain ⟨guard, rfl⟩ := Checked.guarded_ok_iff.mp taken
    exact .push thread cb guard.1 guard.2
  | quit thread =>
    obtain ⟨guard, rfl⟩ := Checked.guarded_ok_iff.mp taken
    exact .quit thread guard.1 guard.2
  | wakeup thread =>
    obtain ⟨inside, rfl⟩ := Checked.guarded_ok_iff.mp taken
    exact .wakeup thread inside

/-! ### Wakeups -/

omit [DecidableEq T] in
theorem wakeup_positive (s : LoopThread T F) : 0 < s.wakeup.wakeups := by
  simp only [LoopThread.wakeup]
  split
  · omega
  · unfold kMaxCounter at *
    omega

/-- Somebody has written to the eventfd, or will do so before going on. -/
def Announced (s : LoopThread T F) : Prop :=
  0 < s.wakeups ∨ s.inCall = true ∨ ∃ thread, s.callers thread = .pushed

/-- The queue needs an announcement only where the loop thread will not look at it anyway. -/
structure WakeupInv (s : LoopThread T F) : Prop where
  announced : s.pendingFunctors ≠ [] → s.pc.WillSwap ∨ s.Announced
  user : s.inCall = true → s.pc.InUserCode
  calling : s.pc.Draining → s.callingPendingFunctors = true

omit [DecidableEq T] in
theorem WakeupInv.start : WakeupInv (start : LoopThread T F) := by
  constructor
  · intro nonempty
    exact absurd rfl nonempty
  · intro inside
    cases inside
  · intro draining
    cases draining

omit [DecidableEq T] in
/-- Outside user code the loop thread is in no call. -/
theorem WakeupInv.free (inv : WakeupInv s) (own : ¬s.pc.InUserCode) : s.inCall = false := by
  cases inside : s.inCall with
  | false => rfl
  | true => exact absurd (inv.user inside) own

omit [DecidableEq T] in
/-- The loop thread goes from one place where the queue must be announced to another. -/
theorem WakeupInv.moved (inv : WakeupInv s) {pc : LoopPc (Queued T F)} {looping quit : Bool}
    (own : ¬s.pc.InUserCode) (idle : ¬s.pc.WillSwap) (outside : ¬pc.Draining) :
    WakeupInv { s with pc := pc, looping := looping, quit := quit } := by
  constructor
  · intro nonempty
    right
    exact (inv.announced nonempty).resolve_left idle
  · intro inside
    simp [inv.free own] at inside
  · intro draining
    exact absurd draining outside

theorem WakeupInv.step (inv : WakeupInv s) (moves : Moves s l t) : WakeupInv t := by
  cases moves with
  | publish here =>
    exact inv.moved (by simp [here, LoopPc.InUserCode]) (by simp [here, LoopPc.WillSwap]) id
  | callLoop here =>
    exact inv.moved (by simp [here, LoopPc.InUserCode]) (by simp [here, LoopPc.WillSwap]) id
  | resetQuit here =>
    exact inv.moved (by simp [here, LoopPc.InUserCode]) (by simp [here, LoopPc.WillSwap]) id
  | leave here quit =>
    exact inv.moved (by simp [here, LoopPc.InUserCode]) (by simp [here, LoopPc.WillSwap]) id
  | again here quit =>
    exact inv.moved (by simp [here, LoopPc.InUserCode]) (by simp [here, LoopPc.WillSwap]) id
  | enterWait here =>
    exact inv.moved (by simp [here, LoopPc.InUserCode]) (by simp [here, LoopPc.WillSwap]) id
  | pollReturn active here =>
    have free := inv.free (by simp [here, LoopPc.InUserCode])
    exact ⟨fun _ => .inl trivial, by simp [free], fun draining => draining.elim⟩
  | dispatched inCallback here free =>
    exact ⟨fun _ => .inl trivial, by simp [free], fun draining => draining.elim⟩
  | handleRead inCallback active here free =>
    exact ⟨fun _ => .inl trivial, by simp [LoopThread.handleRead, free], fun draining => draining.elim⟩
  | callback inCallback active here free =>
    exact ⟨fun _ => .inl trivial, by simp [free], fun draining => draining.elim⟩
  | startDraining here =>
    have free := inv.free (by simp [here, LoopPc.InUserCode])
    exact ⟨fun _ => .inl trivial, by simp [free], fun _ => rfl⟩
  | swap here =>
    have free := inv.free (by simp [here, LoopPc.InUserCode])
    have calling := inv.calling (by simp [here, LoopPc.Draining])
    exact ⟨fun nonempty => absurd rfl nonempty, by simp [LoopThread.swap, free], fun _ => calling⟩
  | runNext done functor rest here free =>
    have calling := inv.calling (by simp [here, LoopPc.Draining])
    refine ⟨?_, by simp [call, free], fun _ => calling⟩
    intro nonempty
    right
    exact (inv.announced nonempty).resolve_left (by simp [here, LoopPc.WillSwap])
  | endDraining done here free =>
    refine ⟨?_, by simp [free], fun draining => draining.elim⟩
    intro nonempty
    right
    exact (inv.announced nonempty).resolve_left (by simp [here, LoopPc.WillSwap])
  | ownPush cb user free =>
    exact ⟨fun _ => .inr (.inr (.inl rfl)), fun _ => user, inv.calling⟩
  | ownWakeup inside calling =>
    exact ⟨fun _ => .inr (.inl (wakeup_positive _)), by simp [LoopThread.wakeup], inv.calling⟩
  | ownSilence inside calling =>
    refine ⟨?_, by simp, inv.calling⟩
    intro _
    left
    -- Nothing is written only while the flag is down: then the call is made by a callback.
    have user := inv.user inside
    have undrained : ¬s.pc.Draining := fun draining => by simp [inv.calling draining] at calling
    cases here : s.pc with
    | dispatching inCallback active => trivial
    | running done rest => simp [here, LoopPc.Draining] at undrained
    | _ => simp [here, LoopPc.InUserCode] at user
  | ownQuit user free => exact ⟨inv.announced, inv.user, inv.calling⟩
  | push thread cb shared outside =>
    exact ⟨fun _ => .inr (.inr (.inr ⟨thread, by simp⟩)), inv.user, inv.calling⟩
  | quit thread shared outside =>
    refine ⟨?_, inv.user, inv.calling⟩
    intro nonempty
    rcases inv.announced nonempty with swaps | positive | inside | ⟨other, pushed⟩
    · exact .inl swaps
    · exact .inr (.inl positive)
    · exact .inr (.inr (.inl inside))
    · refine .inr (.inr (.inr ⟨other, ?_⟩))
      have apart : other ≠ thread := by
        rintro rfl
        simp [outside] at pushed
      simpa [Function.update_of_ne apart] using pushed
  | wakeup thread inside =>
    exact ⟨fun _ => .inr (.inl (wakeup_positive _)), inv.user, inv.calling⟩

/-- **No lost wakeup**: when the loop thread enters `epoll_wait`, and while it is there, a queue
that is not empty goes with a positive counter or with a thread between its push and its
`wakeup`. -/
theorem no_lost_wakeup (ls : List (Label T F)) (s : LoopThread T F)
    (ran : run step start ls = .ok s) (polls : s.pc = .polling ∨ s.pc = .waiting)
    (nonempty : s.pendingFunctors ≠ []) :
    0 < s.wakeups ∨ ∃ thread, s.callers thread = .pushed := by
  have inv : WakeupInv s := run_invariant (fun _ _ _ inv taken => inv.step (step_moves taken))
    WakeupInv.start ran
  have idle : ¬s.pc.WillSwap := by
    rcases polls with here | here
    · simp [here, LoopPc.WillSwap]
    · simp [here, LoopPc.WillSwap]
  have own : ¬s.pc.InUserCode := by
    rcases polls with here | here
    · simp [here, LoopPc.InUserCode]
    · simp [here, LoopPc.InUserCode]
  rcases (inv.announced nonempty).resolve_left idle with positive | inside | pushed
  · exact .inl positive
  · simp [inv.free own] at inside
  · exact .inr pushed

/-- A functor that is pushed just before the loop thread enters `epoll_wait`. -/
theorem push_before_wait :
    ∃ s : LoopThread Unit Unit,
      run step start [.publish, .callLoop, .resetQuit, .test, .push () ()] = .ok s ∧
        s.pc = .polling ∧ (0 < s.wakeups ∨ ∃ thread, s.callers thread = .pushed) := by
  refine ⟨_, rfl, rfl, ?_⟩
  exact no_lost_wakeup [.publish, .callLoop, .resetQuit, .test, .push () ()] _ rfl (.inl rfl)
    (List.cons_ne_nil _ _)

/-! ### The order of the functors -/

/-- Every functor that was pushed has been called, is in the batch or is in the queue. -/
def QueueInv (s : LoopThread T F) : Prop :=
  s.executed ++ s.pc.rest ++ s.pendingFunctors = s.enqueued

theorem QueueInv.step (inv : QueueInv s) (moves : Moves s l t) : QueueInv t := by
  unfold QueueInv at *
  cases moves with
  | publish here => simpa [here, LoopPc.rest] using inv
  | callLoop here => simpa [here, LoopPc.rest] using inv
  | resetQuit here => simpa [here, LoopPc.rest] using inv
  | leave here quit => simpa [here, LoopPc.rest] using inv
  | again here quit => simpa [here, LoopPc.rest] using inv
  | enterWait here => simpa [here, LoopPc.rest] using inv
  | pollReturn active here => simpa [here, LoopPc.rest] using inv
  | dispatched inCallback here free => simpa [here, LoopPc.rest] using inv
  | handleRead inCallback active here free =>
    simpa [here, LoopPc.rest, LoopThread.handleRead] using inv
  | callback inCallback active here free => simpa [here, LoopPc.rest] using inv
  | startDraining here => simpa [here, LoopPc.rest] using inv
  | swap here => simpa [here, LoopPc.rest, LoopThread.swap] using inv
  | runNext done functor rest here free => simpa [here, LoopPc.rest, call] using inv
  | endDraining done here free => simpa [here, LoopPc.rest] using inv
  | ownPush cb user free => simp [pushBack, ← inv]
  | ownWakeup inside calling => exact inv
  | ownSilence inside calling => exact inv
  | ownQuit user free => exact inv
  | push thread cb shared outside => simp [pushBack, ← inv]
  | quit thread shared outside => exact inv
  | wakeup thread inside => exact inv

/-- From the state `u` at its swap, a call of `do_pending_functors` has got to the state `s` or
has ended before it. -/
def DrainedFrom (u s : LoopThread T F) : Prop :=
  ∃ done rest, u.pendingFunctors = done ++ rest ∧ s.executed = u.executed ++ done ∧
    (s.pc = .running done rest ∨ (rest = [] ∧ ∀ done rest, s.pc ≠ .running done rest))

theorem DrainedFrom.step {u : LoopThread T F} (drained : DrainedFrom u s) (same : l ≠ .swap)
    (moves : Moves s l t) : DrainedFrom u t := by
  obtain ⟨done, rest, batch, executed, place⟩ := drained
  -- Steps that leave the loop thread where it is.
  have stays : t.pc = s.pc → t.executed = s.executed → DrainedFrom u t := by
    intro pc calls
    exact ⟨done, rest, batch, calls.trans executed, pc ▸ place⟩
  -- Steps outside the loop over the functors: the call has ended.
  have outside : (∀ done rest, s.pc ≠ .running done rest) →
      (∀ done rest, t.pc ≠ .running done rest) → t.executed = s.executed → DrainedFrom u t := by
    intro before after calls
    refine ⟨done, rest, batch, calls.trans executed, .inr ⟨?_, after⟩⟩
    rcases place with here | ⟨finished, _⟩
    · exact absurd here (before done rest)
    · exact finished
  cases moves with
  | publish here => exact outside (by simp [here]) (by simp) rfl
  | callLoop here => exact outside (by simp [here]) (by simp) rfl
  | resetQuit here => exact outside (by simp [here]) (by simp) rfl
  | leave here quit => exact outside (by simp [here]) (by simp) rfl
  | again here quit => exact outside (by simp [here]) (by simp) rfl
  | enterWait here => exact outside (by simp [here]) (by simp) rfl
  | pollReturn active here => exact outside (by simp [here]) (by simp) rfl
  | dispatched inCallback here free => exact outside (by simp [here]) (by simp) rfl
  | handleRead inCallback active here free =>
    exact outside (by simp [here]) (by simp [LoopThread.handleRead]) rfl
  | callback inCallback active here free => exact outside (by simp [here]) (by simp) rfl
  | startDraining here => exact outside (by simp [here]) (by simp) rfl
  | swap here => exact absurd rfl same
  | runNext done' functor rest' here free =>
    rcases place with now | ⟨_, elsewhere⟩
    · -- The functor moves from those to come to those called.
      rw [here] at now
      obtain ⟨rfl, rfl⟩ := LoopPc.running.inj now
      exact ⟨done' ++ [functor], rest', by simp [batch], by simp [call, executed], .inl rfl⟩
    · exact absurd here (elsewhere _ _)
  | endDraining done' here free =>
    rcases place with now | ⟨_, elsewhere⟩
    · rw [here] at now
      obtain ⟨rfl, rfl⟩ := LoopPc.running.inj now
      exact ⟨done', [], batch, executed, .inr ⟨rfl, by simp⟩⟩
    · exact absurd here (elsewhere _ _)
  | ownPush cb user free => exact stays rfl rfl
  | ownWakeup inside calling => exact stays rfl rfl
  | ownSilence inside calling => exact stays rfl rfl
  | ownQuit user free => exact stays rfl rfl
  | push thread cb shared outside => exact stays rfl rfl
  | quit thread shared outside => exact stays rfl rfl
  | wakeup thread inside => exact stays rfl rfl

/-- The rest of a run without a second swap stays in one call of `do_pending_functors`, or after
it. -/
theorem drainedFrom_run {u : LoopThread T F} {ys : List (Label T F)} (once : .swap ∉ ys)
    (drained : DrainedFrom u s) (ran : run step s ys = .ok t) : DrainedFrom u t := by
  have same : Along step (fun _ l => l ≠ .swap) s ys := by
    apply Along.of_labels
    rintro l member _ rfl
    exact once member
  exact run_invariant_along (fun _ _ _ drained same taken => drained.step same (step_moves taken))
    drained same ran

/-- **The order of the functors**: those that have been called are a prefix of those that were
pushed. From the swap of `do_pending_functors` on, until the next one, exactly the functors that
were there at the swap are called: while the call runs, a first part of them, and all of them when
it has ended. -/
theorem functors_in_order (ls : List (Label T F)) (s : LoopThread T F)
    (ran : run step start ls = .ok s) :
    s.executed <+: s.enqueued ∧
      ∀ xs ys u, ls = xs ++ .swap :: ys → .swap ∉ ys → run step start xs = .ok u →
        ∃ done rest, u.pendingFunctors = done ++ rest ∧ s.executed = u.executed ++ done ∧
          (s.pc = .running done rest ∨ (rest = [] ∧ ∀ done rest, s.pc ≠ .running done rest)) := by
  constructor
  · have inv : QueueInv s := run_invariant (fun _ _ _ inv taken => inv.step (step_moves taken))
      (show QueueInv start from rfl) ran
    rw [← inv, List.append_assoc]
    exact List.prefix_append _ _
  · intro xs ys u split once before
    subst split
    obtain ⟨v, reached, later⟩ := run_append_inv ran
    obtain rfl : v = u := Except.ok.inj (reached.symm.trans before)
    obtain ⟨w, taken, rest⟩ := run_cons_inv later
    have swapped : DrainedFrom v w := by
      cases step_moves taken
      exact ⟨[], v.pendingFunctors, rfl, (List.append_nil _).symm, .inl rfl⟩
    exact drainedFrom_run once swapped rest

/-- One functor is pushed, and pushes itself when it is called. -/
def selfPush : List (Label Unit Bool) :=
  [.publish, .callLoop, .resetQuit, .test, .push () true, .wakeup (), .enterWait,
    .pollReturn [.wakeupChannel], .dispatch, .dispatch, .startDraining]

/-- It is called once in this drain, and waits in the queue for the next one. -/
theorem selfPush_once :
    ∃ s : LoopThread Unit Bool,
      run step start (selfPush ++ [.swap, .runNext, .ownPush true, .ownWakeup, .endDraining]) = .ok s ∧
        s.executed <+: s.enqueued ∧ s.pendingFunctors.length = 1 := by
  refine ⟨_, rfl, ?_, rfl⟩
  exact (functors_in_order
    (selfPush ++ [.swap, .runNext, .ownPush true, .ownWakeup, .endDraining]) _ rfl).1

end LoopThread

end Clia.Reactor
