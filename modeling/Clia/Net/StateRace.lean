import Clia.Net.TcpConnection
import Clia.Library.LabelledRun

/-!
# The atomic accesses to `state_`

`state_` is an atomic that any thread may load and store through `shutdown`, while the loop's
thread moves it through `connect_established`, `handle_close` and `connect_destoryed`. Here each
load and each store is a step of its own. A function that has passed its test is between the
two, and other threads may move in between.

The order of the states is `kConnecting`, `kConnected`, `kDisconnecting`, `kDisconnected`. The
only store that can go back is the one of `shutdown`: its test may be out of date.
-/

namespace Clia.Net.StateRace

open LabelledRun

/-- Where a thread is in the functions that access `state_`. -/
inductive Pc where
  | outside
  /-- `shutdown` has loaded `kConnected` -/
  | shutdownStore
  /-- `connect_established` has passed its assertion -/
  | establishStore
  /-- the first half of the assertion of `handle_close` was false -/
  | closeSecondLoad
  /-- `handle_close` has passed its assertion -/
  | closeStore
  /-- `connect_destoryed` has loaded `kConnected` -/
  | destroyStore
  deriving DecidableEq, Repr

/-- Threads are numbered; `loopThread` runs the loop. -/
structure Cell where
  state : State
  pc : Nat → Pc

def loopThread : Nat := 0

def Cell.new : Cell := ⟨.kConnecting, fun _ => .outside⟩

namespace Cell

def goto (s : Cell) (thread : Nat) (pc : Pc) : Cell :=
  { s with pc := Function.update s.pc thread pc }

/-- The store a thread is about to make. -/
def store (s : Cell) (thread : Nat) (state : State) : Cell :=
  { s.goto thread .outside with state := state }

@[simp] theorem goto_state (s : Cell) (thread : Nat) (pc : Pc) :
    (s.goto thread pc).state = s.state := rfl

@[simp] theorem goto_pc (s : Cell) (thread : Nat) (pc : Pc) :
    (s.goto thread pc).pc = Function.update s.pc thread pc := rfl

@[simp] theorem store_state (s : Cell) (thread : Nat) (state : State) :
    (s.store thread state).state = state := rfl

@[simp] theorem store_pc (s : Cell) (thread : Nat) (state : State) :
    (s.store thread state).pc = Function.update s.pc thread .outside := rfl

end Cell

/-- One atomic access. The loop's thread enters one of its three functions; any thread enters
`shutdown`; a thread that is inside a function goes on with it. -/
inductive Access where
  | enterEstablished
  | enterClose
  | enterDestoryed
  | enterShutdown (thread : Nat)
  | continue (thread : Nat)
  deriving DecidableEq, Repr

namespace Access

def step (s : Cell) : Access → Except Fault Cell
  | .enterEstablished => do
    Checked.require (s.pc loopThread = .outside) .disabled
    cassert (s.state = .kConnecting) .connecting
    return s.goto loopThread .establishStore
  | .enterClose => do
    Checked.require (s.pc loopThread = .outside) .disabled
    -- `assert(kConnected == state_ || kDisconnecting == state_)` loads `state_` once or twice.
    return s.goto loopThread (if s.state = .kConnected then .closeStore else .closeSecondLoad)
  | .enterDestoryed => do
    Checked.require (s.pc loopThread = .outside) .disabled
    return if s.state = .kConnected then s.goto loopThread .destroyStore else s
  | .enterShutdown thread => do
    Checked.require (s.pc thread = .outside) .disabled
    return if s.state = .kConnected then s.goto thread .shutdownStore else s
  | .continue thread =>
    match s.pc thread with
    | .outside => .error .disabled
    -- The test was made earlier, and is not repeated.
    | .shutdownStore => .ok (s.store thread .kDisconnecting)
    | .establishStore => .ok (s.store thread .kConnected)
    | .closeSecondLoad => do
      cassert (s.state = .kDisconnecting) .closable
      return s.goto thread .closeStore
    | .closeStore => .ok (s.store thread .kDisconnected)
    | .destroyStore => .ok (s.store thread .kDisconnected)

end Access

/-! ### Undisturbed functions

Without other threads in between, the steps of a function change `state_` as the function of
the connection does. -/

section

variable {x y : Session} {s : Cell}

theorem connectEstablished_accesses (same : s.state = x.conn.state)
    (outside : s.pc loopThread = .outside) (registered : x.IsRegistered)
    (ok : x.connectEstablished = .ok y) :
    ∃ t, run Access.step s [.enterEstablished, .continue loopThread] = .ok t ∧
      t.state = y.conn.state := by
  have connecting := Session.connecting_of_connectEstablished ok
  rw [Session.connectEstablished_eq registered connecting] at ok
  cases ok
  refine ⟨(s.goto loopThread .establishStore).store loopThread .kConnected, ?_, ?_⟩
  · simp [run, Access.step, outside, same, connecting, Checked.require, cassert]
  · simp [Session.established, Session.withEvents]

theorem handleClose_accesses (same : s.state = x.conn.state)
    (outside : s.pc loopThread = .outside) (registered : x.IsRegistered)
    (ok : x.handleClose = .ok y) :
    ∃ loads t, run Access.step s (.enterClose :: loads ++ [.continue loopThread]) = .ok t ∧
      t.state = y.conn.state := by
  have down : y.conn.state = .kDisconnected := by
    rw [Session.handleClose_eq registered (Session.closable_of_handleClose ok)] at ok
    cases ok
    split
    · exact x.disconnected_state
    · exact x.disconnected_state
  rcases Session.closable_of_handleClose ok with connected | closing
  · -- The first load of the assertion settles it.
    refine ⟨[], (s.goto loopThread .closeStore).store loopThread .kDisconnected, ?_, down.symm⟩
    simp [run, Access.step, outside, same, connected, Checked.require]
  · -- The second load is needed.
    refine ⟨[.continue loopThread],
      ((s.goto loopThread .closeSecondLoad).goto loopThread .closeStore).store loopThread
        .kDisconnected, ?_, down.symm⟩
    simp [run, Access.step, outside, same, closing, Checked.require, cassert]

theorem connectDestoryed_accesses (same : s.state = x.conn.state)
    (outside : s.pc loopThread = .outside) (registered : x.IsRegistered)
    (ok : x.connectDestoryed = .ok y) :
    ∃ stores t, run Access.step s (.enterDestoryed :: stores) = .ok t ∧
      t.state = y.conn.state := by
  have result := Session.connectDestoryed_eq registered ok
  subst result
  by_cases connected : x.conn.state = .kConnected
  · rw [if_pos connected]
    refine ⟨[.continue loopThread],
      (s.goto loopThread .destroyStore).store loopThread .kDisconnected, ?_, ?_⟩
    · simp [run, Access.step, outside, same, connected, Checked.require]
    · simp only [Session.removed, Session.disconnected, Session.connectionCallback_conn]
      rfl
  · rw [if_neg connected]
    refine ⟨[], s, ?_, same⟩
    simp [run, Access.step, outside, same, connected, Checked.require]

theorem shutdown_accesses (same : s.state = x.conn.state) (thread : Nat)
    (outside : s.pc thread = .outside) :
    ∃ stores t, run Access.step s (.enterShutdown thread :: stores) = .ok t ∧
      t.state = x.shutdown.conn.state := by
  by_cases connected : x.conn.state = .kConnected
  · refine ⟨[.continue thread],
      (s.goto thread .shutdownStore).store thread .kDisconnecting, ?_, ?_⟩
    · simp [run, Access.step, outside, same, connected, Checked.require]
    · rw [Session.shutdown, if_pos connected, Session.shutdownInLoop]
      split <;> rfl
  · refine ⟨[], s, ?_, ?_⟩
    · simp [run, Access.step, outside, same, connected, Checked.require]
    · rw [Session.shutdown, if_neg connected, same]

end

/-! ### Which runs go forward -/

/-- The place of a state in `kConnecting -> kConnected -> kDisconnecting -> kDisconnected`. -/
def rank : State → Nat
  | .kConnecting => 0
  | .kConnected => 1
  | .kDisconnecting => 2
  | .kDisconnected => 3

/-- The access leaves `state_` or moves it forward. -/
def Forward (s : Cell) (a : Access) : Prop :=
  match a.step s with
  | .ok t => t.state = s.state ∨ rank s.state < rank t.state
  | .error _ => True

instance (s : Cell) (a : Access) : Decidable (Forward s a) := by
  unfold Forward
  split <;> infer_instance

/-- The access is not the store of a `shutdown` to a connection that is `kDisconnected`. -/
def NoLateShutdown (s : Cell) (a : Access) : Prop :=
  match a with
  | .continue thread => ¬(s.pc thread = .shutdownStore ∧ s.state = .kDisconnected)
  | _ => True

instance (s : Cell) (a : Access) : Decidable (NoLateShutdown s a) := by
  unfold NoLateShutdown
  split <;> infer_instance

/-- `shutdown` passes its test only after `connect_established`, and `connect_established`
stores while nobody else can have moved `state_`. -/
structure Inv (s : Cell) : Prop where
  establishing : ∀ thread, s.pc thread = .establishStore → s.state = .kConnecting
  fresh : s.state = .kConnecting → ∀ thread, s.pc thread ≠ .shutdownStore
  onLoop : ∀ thread, thread ≠ loopThread →
    s.pc thread = .outside ∨ s.pc thread = .shutdownStore

theorem inv_new : Inv Cell.new :=
  ⟨by simp [Cell.new], by simp [Cell.new], by simp [Cell.new]⟩

private theorem inv_goto {s : Cell} {thread : Nat} {pc : Pc} (inv : Inv s)
    (establishing : pc = .establishStore → s.state = .kConnecting)
    (shutting : pc = .shutdownStore → s.state = .kConnected)
    (onLoop : thread ≠ loopThread → pc = .shutdownStore) : Inv (s.goto thread pc) where
  establishing other here := by
    by_cases same : other = thread
    · subst same
      exact establishing (by simpa using here)
    · exact inv.establishing other (by simpa [same] using here)
  fresh connecting other := by
    by_cases same : other = thread
    · subst same
      intro here
      have connected := shutting (by simpa using here)
      simp [connected] at connecting
    · simpa [same] using inv.fresh connecting other
  onLoop other foreign := by
    by_cases same : other = thread
    · subst same
      simp [onLoop foreign]
    · simpa [same] using inv.onLoop other foreign

private theorem inv_store {s : Cell} {thread : Nat} {state : State} (inv : Inv s)
    (started : state ≠ .kConnecting)
    (foreign : thread ≠ loopThread → s.pc loopThread ≠ .establishStore) :
    Inv (s.store thread state) where
  establishing other here := by
    by_cases same : other = thread
    · simp [same] at here
    · have before : s.pc other = .establishStore := by simpa [same] using here
      -- Only the loop's thread establishes, and only before anybody else can store.
      by_cases loop : other = loopThread
      · subst loop
        exact absurd before (foreign (fun eq => same eq.symm))
      · rcases inv.onLoop other loop with outside | shutting
        · simp [outside] at before
        · simp [shutting] at before
  fresh connecting := absurd connecting started
  onLoop other elsewhere := by
    by_cases same : other = thread
    · simp [same]
    · simpa [same] using inv.onLoop other elsewhere

/-- A thread with a pc that only the loop's functions have is the loop's thread. -/
private theorem Inv.loop_of {s : Cell} (inv : Inv s) (thread : Nat)
    (inside : s.pc thread ≠ .outside) (other : s.pc thread ≠ .shutdownStore) :
    thread = loopThread := by
  by_contra foreign
  rcases inv.onLoop thread foreign with outside | shutting
  · exact inside outside
  · exact other shutting

/-- Step lemma. -/
theorem inv_step {s t : Cell} {a : Access} (inv : Inv s) (taken : a.step s = .ok t) : Inv t := by
  cases a with
  | enterEstablished =>
    obtain ⟨_, _, taken⟩ := Checked.bind_ok_iff.mp taken
    obtain ⟨_, connecting, taken⟩ := Checked.bind_ok_iff.mp taken
    cases taken
    exact inv_goto inv (fun _ => cassert_ok_iff.mp connecting) (by simp) (by simp)
  | enterClose =>
    obtain ⟨_, _, taken⟩ := Checked.bind_ok_iff.mp taken
    cases taken
    split <;> exact inv_goto inv (by simp) (by simp) (by simp)
  | enterDestoryed =>
    obtain ⟨_, _, taken⟩ := Checked.bind_ok_iff.mp taken
    cases taken
    split
    · exact inv_goto inv (by simp) (by simp) (by simp)
    · exact inv
  | enterShutdown thread =>
    obtain ⟨_, _, taken⟩ := Checked.bind_ok_iff.mp taken
    cases taken
    split
    next connected => exact inv_goto inv (by simp) (fun _ => connected) (fun _ => rfl)
    next => exact inv
  | «continue» thread =>
    simp only [Access.step] at taken
    split at taken
    next => cases taken
    next shutting =>
      cases taken
      apply inv_store inv (by simp)
      -- Nobody is inside `shutdown` while the connection is being established.
      intro _ establishing
      exact inv.fresh (inv.establishing loopThread establishing) thread shutting
    next establishing =>
      cases taken
      have loop := inv.loop_of thread (by simp [establishing]) (by simp [establishing])
      exact inv_store inv (by simp) (absurd loop)
    next loading =>
      obtain ⟨_, _, taken⟩ := Checked.bind_ok_iff.mp taken
      cases taken
      have loop := inv.loop_of thread (by simp [loading]) (by simp [loading])
      exact inv_goto inv (by simp) (by simp) (absurd loop)
    next closing =>
      cases taken
      have loop := inv.loop_of thread (by simp [closing]) (by simp [closing])
      exact inv_store inv (by simp) (absurd loop)
    next destroying =>
      cases taken
      have loop := inv.loop_of thread (by simp [destroying]) (by simp [destroying])
      exact inv_store inv (by simp) (absurd loop)

/-- The first access of a function is a load. -/
private theorem enter_keeps {s t : Cell} {a : Access} (enter : ∀ thread, a ≠ .continue thread)
    (taken : a.step s = .ok t) : t.state = s.state := by
  cases a with
  | «continue» thread => exact absurd rfl (enter thread)
  | enterEstablished =>
    obtain ⟨_, _, taken⟩ := Checked.bind_ok_iff.mp taken
    obtain ⟨_, _, taken⟩ := Checked.bind_ok_iff.mp taken
    cases taken
    rfl
  | enterClose =>
    obtain ⟨_, _, taken⟩ := Checked.bind_ok_iff.mp taken
    cases taken
    rfl
  | enterDestoryed =>
    obtain ⟨_, _, taken⟩ := Checked.bind_ok_iff.mp taken
    cases taken
    split <;> rfl
  | enterShutdown thread =>
    obtain ⟨_, _, taken⟩ := Checked.bind_ok_iff.mp taken
    cases taken
    split <;> rfl

/-- From the invariant, the late store of `shutdown` is the only access that goes back. -/
theorem forward_iff {s : Cell} (inv : Inv s) (a : Access) : Forward s a ↔ NoLateShutdown s a := by
  cases a with
  | «continue» thread =>
    simp only [Forward, NoLateShutdown, Access.step]
    cases here : s.pc thread with
    | outside => simp
    | shutdownStore =>
      -- The state is past `kConnecting`, since a thread is inside `shutdown`.
      have started : s.state ≠ .kConnecting := fun connecting => inv.fresh connecting thread here
      cases state_eq : s.state <;> simp_all [rank]
    | establishStore => simp [inv.establishing thread here, rank]
    | closeSecondLoad =>
      by_cases closing : s.state = .kDisconnecting
      · simp [cassert_pos _ closing]
      · simp [cassert_neg _ closing]
    -- `kDisconnected` is the last state, so these stores never go back.
    | closeStore => cases s.state <;> simp [rank]
    | destroyStore => cases s.state <;> simp [rank]
  | _ =>
    refine iff_of_true ?_ trivial
    unfold Forward
    split
    next t taken => exact .inl (enter_keeps (by simp) taken)
    next => trivial

/-- **`state_` moves forward exactly when no `shutdown` stores late**: over every interleaving
of the accesses, all changes go forward along the order of the states if and only if no thread
makes the store of `shutdown` at a time when `state_` is `kDisconnected`. -/
theorem state_forward_iff (accesses : List Access) :
    Along Access.step Forward Cell.new accesses ↔
      Along Access.step NoLateShutdown Cell.new accesses := by
  apply along_iff _ _ _ inv_new
  · intro c a c' inv _ taken
    exact inv_step inv taken
  · intro c a inv
    exact forward_iff inv a

/-- Thread 1 tests `state_`, the peer closes, thread 1 stores. -/
def lateShutdown : List Access :=
  [.enterEstablished, .continue loopThread, .enterShutdown 1, .enterClose, .continue loopThread,
    .continue 1]

theorem lateShutdown_goes_back : ¬Along Access.step Forward Cell.new lateShutdown := by
  decide

end Clia.Net.StateRace
