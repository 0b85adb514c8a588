import Clia.Net.SessionStage

/-!
# Who keeps a connection alive

A `TcpConnection` lives as long as a `TcpConnectionPtr` to it does: in `connections_`, in a functor
that binds one, or with a thread of the user. `send` and `shutdown` of another thread bind the raw
`this` instead, so `send_in_loop` and `shutdown_in_loop` may find the connection gone.

The system is one connection with its loop, the base loop as far as the connection is concerned,
and any number of threads that get, use and drop pointers. The vector of `do_pending_functors`
keeps its functors, and so their pointers, until its last one has returned.
-/

namespace Clia.Net

open Reactor LabelledRun

/-- The functor binds a `TcpConnectionPtr`. -/
def Functor.owns : Functor → Bool
  | .sendInLoop _ _ => false
  | .shutdownInLoop _ => false
  | _ => true

def Functor.destroys : Functor → Bool
  | .connectDestoryed _ => true
  | _ => false

theorem Functor.owns_of_destroys {cb : Functor} (destroys : cb.destroys = true) :
    cb.owns = true := by
  cases cb with
  | connectDestoryed id => rfl
  | _ => cases destroys

namespace Ownership

/-- Where another thread is in `send` or `shutdown`. -/
inductive CallerPc where
  | outside
  /-- `send` has loaded `kConnected` -/
  | sendPush (data : List UInt8)
  /-- `shutdown` has loaded `kConnected` -/
  | shutdownStore
  /-- `shutdown` has stored `kDisconnecting` -/
  | shutdownPush
  deriving DecidableEq, Repr

/-- A connection and its owners. `sameLoop` says that the base loop is the loop of the connection;
`removals` are the `remove_connection_in_loop` functors in the queue of the base loop, `removed`
those that have run and are not released yet. -/
structure Owners (T : Type) where
  session : Session
  sameLoop : Bool
  batch : List Functor
  ran : List Functor
  mapped : Bool
  removals : Nat
  removed : Nat
  pointers : List T
  callers : T → CallerPc
  alive : Bool

namespace Owners

variable {T : Type}

/-- The functors that the loop has still to run. -/
def queue (s : Owners T) : List Functor := s.batch ++ s.session.loop.pendingFunctors

def owned (s : Owners T) : Bool :=
  s.mapped || decide (0 < s.removals + s.removed) || !s.pointers.isEmpty ||
    (s.ran ++ s.queue).any Functor.owns

/-- `queue_in_loop` of the connection's loop. -/
def push (s : Owners T) (inLoopThread : Bool) (cb : Functor) : Owners T :=
  { s with session := { s.session with loop := s.session.loop.queueInLoop inLoopThread cb } }

/-- The kernel has the channel in its list. -/
def polled (s : Owners T) : Bool :=
  (s.session.loop.poller.interest s.session.conn.channel.fd).isSome

def removeConnectionInLoop (s : Owners T) : Except Fault (Owners T) := do
  cassert (s.mapped = true) .connectionPresent
  return { s with mapped := false }.push s.sameLoop (.connectDestoryed s.session.conn.id)

/-- `remove_connection`, on the thread of the connection's loop. -/
def removeConnection (s : Owners T) : Except Fault (Owners T) :=
  if s.sameLoop then s.removeConnectionInLoop else .ok { s with removals := s.removals + 1 }

/-- What a functor does to the connection. A call on a connection that is gone has no meaning: the
session is left as it is. -/
def runFunctor (s : Owners T) (cb : Functor) (result : WriteResult) : Except Fault Session :=
  match cb with
  | .connectEstablished _ => s.session.connectEstablished
  | .connectDestoryed _ => s.session.connectDestoryed
  | .sendInLoop _ data => if s.alive then s.session.sendInLoop data result else .ok s.session
  | .shutdownInLoop _ => .ok (if s.alive then s.session.shutdownInLoop else s.session)
  | .writeComplete _ => .ok s.session
  | .removeConnectionInLoop _ => .error .disabled

inductive Label (T : Type) where
  /-- the thread gets a pointer, from a callback or from another thread -/
  | acquire (thread : T)
  | drop (thread : T)
  /-- the load of `send`, of `shutdown` -/
  | loadSend (thread : T) (data : List UInt8)
  | loadShutdown (thread : T)
  | storeShutdown (thread : T)
  /-- the push of `queue_in_loop` -/
  | push (thread : T)
  /-- a handler or the user, on the thread of the loop -/
  | call (c : Call)
  | swap
  | functor (result : WriteResult)
  | finish
  /-- the base loop runs `remove_connection_in_loop`, and ends the batch it was in -/
  | removal
  | baseFinish
  deriving DecidableEq, Repr

variable [DecidableEq T]

def move (s : Owners T) : Label T → Except Fault (Owners T)
  | .acquire thread => do
    Checked.require (s.alive = true) .disabled
    return { s with pointers := thread :: s.pointers }
  | .drop thread => do
    Checked.require (thread ∈ s.pointers ∧ s.callers thread = .outside) .disabled
    return { s with pointers := s.pointers.erase thread }
  | .loadSend thread data => do
    Checked.require (thread ∈ s.pointers ∧ s.callers thread = .outside) .disabled
    return if s.session.conn.state = .kConnected then
      { s with callers := Function.update s.callers thread (.sendPush data) } else s
  | .loadShutdown thread => do
    Checked.require (thread ∈ s.pointers ∧ s.callers thread = .outside) .disabled
    return if s.session.conn.state = .kConnected then
      { s with callers := Function.update s.callers thread .shutdownStore } else s
  | .storeShutdown thread => do
    Checked.require (thread ∈ s.pointers ∧ s.callers thread = .shutdownStore) .disabled
    return { s with
      session := s.session.setState .kDisconnecting
      callers := Function.update s.callers thread .shutdownPush }
  | .push thread => do
    Checked.require (thread ∈ s.pointers) .disabled
    let t := { s with callers := Function.update s.callers thread .outside }
    match s.callers thread with
    | .sendPush data => return t.push false (.sendInLoop s.session.conn.id data)
    | .shutdownPush => return t.push false (.shutdownInLoop s.session.conn.id)
    | _ => .error .disabled
  | .call c => do
    Checked.require (s.alive = true ∧ (c.IsUser ∨ (c.IsHandler ∧ s.polled = true ∧
      s.session.loop.callingPendingFunctors = false))) .disabled
    let y ← c.step { s.session with trace := [] }
    let t := { s with session := y }
    if .closeCallback ∈ y.trace then t.removeConnection else return t
  | .swap => do
    Checked.require (s.session.loop.callingPendingFunctors = false ∧ s.batch = []) .disabled
    return { s with
      session := { s.session with
        loop := { s.session.loop with callingPendingFunctors := true, pendingFunctors := [] } }
      batch := s.session.loop.pendingFunctors }
  | .functor result =>
    match s.batch with
    | cb :: rest => do
      let y ← s.runFunctor cb result
      return { s with session := y, batch := rest, ran := s.ran ++ [cb] }
    | [] => .error .disabled
  | .finish => do
    Checked.require (s.session.loop.callingPendingFunctors = true ∧ s.batch = []) .disabled
    return { s with
      session := { s.session with
        loop := { s.session.loop with callingPendingFunctors := false } }
      ran := [] }
  | .removal => do
    Checked.require (0 < s.removals) .disabled
    { s with removals := s.removals - 1, removed := s.removed + 1 }.removeConnectionInLoop
  | .baseFinish => .ok { s with removed := 0 }

/-- The destructor runs when the last pointer has gone. -/
def settle (s : Owners T) : Except Fault (Owners T) :=
  if s.alive = true ∧ s.owned = false then do
    cassert (s.session.conn.state = .kDisconnected) .disconnected
    return { s with alive := false }
  else .ok s

def step (s : Owners T) (l : Label T) : Except Fault (Owners T) := do
  let t ← s.move l
  t.settle

/-- A connection as `new_connection` leaves it: in the map, and established at once on the base
loop or queued for its own. -/
def start (id sockfd : Nat) (sameLoop connection message writeComplete : Bool)
    (poller : Epoller ChannelPtr) : Owners T :=
  let conn := TcpConnection.accepted id sockfd connection message writeComplete true
  let loop : Loop := EventLoop.new poller
  { session :=
      if sameLoop then Session.established ⟨conn, loop, []⟩
      else ⟨conn, loop.queueInLoop false (.connectEstablished id), []⟩
    sameLoop := sameLoop
    batch := []
    ran := []
    mapped := true
    removals := 0
    removed := 0
    pointers := []
    callers := fun _ => .outside
    alive := true }

/-! ### What a move can do -/

omit [DecidableEq T] in
@[simp] theorem push_queue (s : Owners T) (inLoopThread : Bool) (cb : Functor) :
    (s.push inLoopThread cb).queue = s.queue ++ [cb] := by
  simp [queue, push, EventLoop.queueInLoop]

omit [DecidableEq T] in
theorem owned_eq_false {s : Owners T} : s.owned = false ↔ s.mapped = false ∧ s.removals = 0 ∧
    s.removed = 0 ∧ s.pointers = [] ∧ ∀ cb ∈ s.ran ++ s.queue, cb.owns = false := by
  simp [owned, and_assoc, or_imp, forall_and]

omit [DecidableEq T] in
/-- A functor keeps the registration and adds only owners to the queue; on a connection that is
gone, a functor without a pointer does nothing. -/
theorem runFunctor_keeps {s : Owners T} {cb : Functor} {result : WriteResult} {y : Session}
    (registered : s.session.IsRegistered) (ok : s.runFunctor cb result = .ok y) :
    Keeps s.session y ∧ y.IsRegistered := by
  cases cb with
  | connectEstablished id => exact Call.step_keeps (c := .connectEstablished) registered ok
  | connectDestoryed id => exact Call.step_keeps (c := .connectDestoryed) registered ok
  | sendInLoop id data =>
    simp only [runFunctor] at ok
    split at ok
    · exact Call.step_keeps (c := .sendInLoop data result) registered ok
    · cases ok
      exact ⟨Keeps.refl _, registered⟩
  | shutdownInLoop id =>
    cases ok
    split
    · exact Call.step_keeps (c := .shutdownInLoop) registered rfl
    · exact ⟨Keeps.refl _, registered⟩
  | writeComplete id =>
    cases ok
    exact ⟨Keeps.refl _, registered⟩
  | removeConnectionInLoop id => cases ok

/-- The moves, each with its guard and what it leaves. -/
inductive Moves (s : Owners T) : Label T → Owners T → Prop
  | acquire (thread : T) (alive : s.alive = true) :
      Moves s (.acquire thread) { s with pointers := thread :: s.pointers }
  | drop (thread : T) (held : thread ∈ s.pointers) :
      Moves s (.drop thread) { s with pointers := s.pointers.erase thread }
  | loadSend (thread : T) (data : List UInt8) (callers : T → CallerPc) (held : thread ∈ s.pointers) :
      Moves s (.loadSend thread data) { s with callers := callers }
  | loadShutdown (thread : T) (callers : T → CallerPc) (held : thread ∈ s.pointers) :
      Moves s (.loadShutdown thread) { s with callers := callers }
  | storeShutdown (thread : T) (callers : T → CallerPc) (held : thread ∈ s.pointers) :
      Moves s (.storeShutdown thread)
        { s with session := s.session.setState .kDisconnecting, callers := callers }
  | push (thread : T) (callers : T → CallerPc) (cb : Functor) (held : thread ∈ s.pointers) :
      Moves s (.push thread) ({ s with callers := callers }.push false cb)
  | call (c : Call) (y : Session) (alive : s.alive = true)
      (ok : c.step { s.session with trace := [] } = .ok y) :
      Moves s (.call c) { s with session := y }
  | closeHere (c : Call) (y : Session) (alive : s.alive = true)
      (ok : c.step { s.session with trace := [] } = .ok y) :
      Moves s (.call c)
        ({ s with session := y, mapped := false }.push s.sameLoop (.connectDestoryed y.conn.id))
  | closeAway (c : Call) (y : Session) (alive : s.alive = true)
      (ok : c.step { s.session with trace := [] } = .ok y) :
      Moves s (.call c) { s with session := y, removals := s.removals + 1 }
  | swap (empty : s.batch = []) :
      Moves s .swap { s with
        session := { s.session with
          loop := { s.session.loop with callingPendingFunctors := true, pendingFunctors := [] } }
        batch := s.session.loop.pendingFunctors }
  | functor (result : WriteResult) (cb : Functor) (rest : List Functor) (y : Session)
      (batch : s.batch = cb :: rest) (ok : s.runFunctor cb result = .ok y) :
      Moves s (.functor result) { s with session := y, batch := rest, ran := s.ran ++ [cb] }
  | finish (empty : s.batch = []) :
      Moves s .finish { s with
        session := { s.session with
          loop := { s.session.loop with callingPendingFunctors := false } }
        ran := [] }
  | removal (queued : 0 < s.removals) :
      Moves s .removal ({ s with
        removals := s.removals - 1
        removed := s.removed + 1
        mapped := false }.push s.sameLoop (.connectDestoryed s.session.conn.id))
  | baseFinish : Moves s .baseFinish { s with removed := 0 }

variable {s t u : Owners T} {l : Label T}

theorem move_moves (taken : s.move l = .ok u) : Moves s l u := by
  cases l with
  | acquire thread =>
    obtain ⟨alive, rfl⟩ := Checked.guarded_ok_iff.mp taken
    exact .acquire thread alive
  | drop thread =>
    obtain ⟨held, rfl⟩ := Checked.guarded_ok_iff.mp taken
    exact .drop thread held.1
  | loadSend thread data =>
    obtain ⟨⟨held, _⟩, rfl⟩ := Checked.guarded_ok_iff.mp taken
    split
    · exact .loadSend thread data _ held
    · exact .loadSend thread data s.callers held
  | loadShutdown thread =>
    obtain ⟨⟨held, _⟩, rfl⟩ := Checked.guarded_ok_iff.mp taken
    split
    · exact .loadShutdown thread _ held
    · exact .loadShutdown thread s.callers held
  | storeShutdown thread =>
    obtain ⟨held, rfl⟩ := Checked.guarded_ok_iff.mp taken
    exact .storeShutdown thread _ held.1
  | push thread =>
    obtain ⟨_, held, taken⟩ := Checked.bind_ok_iff.mp taken
    have held := Checked.require_ok_iff.mp held
    split at taken
    · cases taken
      exact .push thread _ _ held
    · cases taken
      exact .push thread _ _ held
    · cases taken
  | call c =>
    obtain ⟨_, guard, taken⟩ := Checked.bind_ok_iff.mp taken
    have alive := (Checked.require_ok_iff.mp guard).1
    obtain ⟨y, ok, taken⟩ := Checked.bind_ok_iff.mp taken
    simp only at taken
    split at taken
    · -- The close callback: at once on the base loop, through its queue otherwise.
      simp only [removeConnection] at taken
      split at taken
      · obtain ⟨_, _, taken⟩ := Checked.bind_ok_iff.mp taken
        cases taken
        exact .closeHere c y alive ok
      · cases taken
        exact .closeAway c y alive ok
    · cases taken
      exact .call c y alive ok
  | swap =>
    obtain ⟨guard, rfl⟩ := Checked.guarded_ok_iff.mp taken
    exact .swap guard.2
  | functor result =>
    simp only [move] at taken
    split at taken
    next cb rest batch =>
      obtain ⟨y, ok, taken⟩ := Checked.bind_ok_iff.mp taken
      cases taken
      exact .functor result cb rest y batch ok
    next => cases taken
  | finish =>
    obtain ⟨guard, rfl⟩ := Checked.guarded_ok_iff.mp taken
    exact .finish guard.2
  | removal =>
    obtain ⟨_, queued, taken⟩ := Checked.bind_ok_iff.mp taken
    obtain ⟨_, _, taken⟩ := Checked.bind_ok_iff.mp taken
    cases taken
    exact .removal (Checked.require_ok_iff.mp queued)
  | baseFinish =>
    cases taken
    exact .baseFinish

omit [DecidableEq T] in
/-- A call starts a trace of its own, and keeps the registration all the same. -/
theorem called {c : Call} {y : Session} (registered : s.session.IsRegistered)
    (ok : c.step { s.session with trace := [] } = .ok y) :
    Keeps { s.session with trace := [] } y ∧ y.IsRegistered := by
  have still : Session.IsRegistered { s.session with trace := [] } := registered
  exact Call.step_keeps still ok

theorem Moves.alive_eq (moves : Moves s l u) : u.alive = s.alive := by
  cases moves <;> rfl

theorem Moves.registered (moves : Moves s l u) (registered : s.session.IsRegistered) :
    u.session.IsRegistered := by
  cases moves with
  | call c y alive ok => exact (called registered ok).2
  | closeHere c y alive ok =>
    exact (called registered ok).2
  | closeAway c y alive ok =>
    exact (called registered ok).2
  | functor result cb rest y batch ok => exact (runFunctor_keeps registered ok).2
  | _ => exact registered

/-! ### The last owner -/

/-- The move takes the last owner away: a thread drops its pointer, or a vector of functors that
have run is released. -/
def LeavesNone (s : Owners T) : Label T → Prop
  | .drop thread => { s with pointers := s.pointers.erase thread }.owned = false
  | .finish => { s with ran := [] }.owned = false
  | .baseFinish => { s with removed := 0 }.owned = false
  | _ => False

/-- Every other move leaves an owner. -/
theorem Moves.unowned (moves : Moves s l u) (registered : s.session.IsRegistered)
    (unowned : u.owned = false) : s.owned = false ∨ s.LeavesNone l := by
  obtain ⟨unmapped, unqueued, released, pointless, raw⟩ := owned_eq_false.mp unowned
  -- A call on the loop's thread leaves all functors where they are.
  have kept : ∀ {y : Session}, Keeps { s.session with trace := [] } y →
      (∀ cb ∈ s.ran ++ (s.batch ++ y.loop.pendingFunctors), cb.owns = false) →
      ∀ cb ∈ s.ran ++ s.queue, cb.owns = false := by
    intro y keeps raw cb member
    obtain ⟨extra, extended, _⟩ := keeps.functors
    apply raw
    rw [extended]
    simp only [queue, List.mem_append] at member ⊢
    tauto
  cases moves with
  | acquire thread alive => cases pointless
  | drop thread held => exact .inr unowned
  | loadSend thread data callers held => exact .inl unowned
  | loadShutdown thread callers held => exact .inl unowned
  | storeShutdown thread callers held => exact .inl unowned
  | push thread callers cb held =>
    have none : s.pointers = [] := pointless
    simp [none] at held
  | call c y alive ok =>
    left
    have keeps := (called registered ok).1
    exact owned_eq_false.mpr ⟨unmapped, unqueued, released, pointless, kept keeps raw⟩
  | closeHere c y alive ok =>
    have last := raw (.connectDestoryed y.conn.id) (by simp)
    cases last
  | closeAway c y alive ok => cases unqueued
  | swap empty =>
    left
    refine owned_eq_false.mpr ⟨unmapped, unqueued, released, pointless, ?_⟩
    simpa [queue, empty] using raw
  | functor result cb rest y batch ok =>
    left
    refine owned_eq_false.mpr ⟨unmapped, unqueued, released, pointless, ?_⟩
    obtain ⟨extra, extended, _⟩ := (runFunctor_keeps registered ok).1.functors
    intro other member
    apply raw
    simp only [queue, batch, extended, List.mem_append, List.mem_cons] at member ⊢
    tauto
  | finish empty => exact .inr unowned
  | removal queued => cases released
  | baseFinish => exact .inr unowned

/-- Such a move leaves the functors in the queue. -/
theorem Moves.leavesNone (moves : Moves s l u) (last : s.LeavesNone l) :
    u.owned = false ∧ u.queue = s.queue := by
  cases moves with
  | drop thread held => exact ⟨last, rfl⟩
  | finish empty => exact ⟨last, rfl⟩
  | baseFinish => exact ⟨last, rfl⟩
  | _ => cases last

/-- Once the connection is gone, nobody owns it again, and functors only leave the queue by being
run. -/
theorem Moves.dead (moves : Moves s l u) (dead : s.alive = false) (unowned : s.owned = false) :
    u.owned = false ∧ (u.queue = s.queue ∨ ∃ result cb, l = .functor result ∧ s.queue = cb :: u.queue ∧
      s.batch.head? = some cb) := by
  obtain ⟨unmapped, unqueued, released, pointless, raw⟩ := owned_eq_false.mp unowned
  cases moves with
  | acquire thread alive => simp [dead] at alive
  | drop thread held => simp [pointless] at held
  | loadSend thread data callers held => simp [pointless] at held
  | loadShutdown thread callers held => simp [pointless] at held
  | storeShutdown thread callers held => simp [pointless] at held
  | push thread callers cb held => simp [pointless] at held
  | call c y alive ok => simp [dead] at alive
  | closeHere c y alive ok => simp [dead] at alive
  | closeAway c y alive ok => simp [dead] at alive
  | swap empty =>
    refine ⟨owned_eq_false.mpr ⟨unmapped, unqueued, released, pointless, ?_⟩, .inl ?_⟩
    · simpa [queue, empty] using raw
    · simp [queue, empty]
  | functor result cb rest y batch ok =>
    -- The functor has no pointer, so it finds nothing it could act on.
    have unbound : cb.owns = false := raw cb (by simp [queue, batch])
    have same : y = s.session := by
      cases cb with
      | sendInLoop id data => simpa [runFunctor, dead] using ok.symm
      | shutdownInLoop id => simpa [runFunctor, dead] using ok.symm
      | _ => cases unbound
    subst same
    refine ⟨owned_eq_false.mpr ⟨unmapped, unqueued, released, pointless, ?_⟩,
      .inr ⟨result, cb, rfl, by simp [queue, batch], by simp [batch]⟩⟩
    intro other member
    apply raw
    simp only [queue, batch, List.mem_append, List.mem_cons] at member ⊢
    tauto
  | finish empty =>
    refine ⟨owned_eq_false.mpr ⟨unmapped, unqueued, released, pointless, ?_⟩, .inl rfl⟩
    intro other member
    exact raw other (List.mem_append_right _ member)
  | removal queued => omega
  | baseFinish => exact ⟨owned_eq_false.mpr ⟨unmapped, unqueued, rfl, pointless, raw⟩, .inl rfl⟩

/-! ### Runs -/

/-- The functor that is run has a connection to act on. -/
def NotLate (s : Owners T) : Label T → Prop
  | .functor _ => ∀ cb, s.batch.head? = some cb → cb.owns = false → s.alive = true
  | _ => True

/-- The last owner goes only when no `send_in_loop` and no `shutdown_in_loop` is queued. -/
def LastOwnerWaits (s : Owners T) (l : Label T) : Prop :=
  s.LeavesNone l → ∀ cb ∈ s.queue, cb.owns = true

instance (s : Owners T) (l : Label T) : Decidable (s.LeavesNone l) := by
  cases l <;> unfold LeavesNone <;> infer_instance

instance (s : Owners T) (l : Label T) : Decidable (s.LastOwnerWaits l) := by
  unfold LastOwnerWaits
  infer_instance

/-- The connection is there as long as it is owned. -/
structure OwnedInv (s : Owners T) : Prop where
  registered : s.session.IsRegistered
  owned : s.owned = s.alive

theorem step_inv (taken : step s l = .ok t) : ∃ u, Moves s l u ∧
    ((u.alive = true ∧ u.owned = false ∧ t = { u with alive := false }) ∨
      (¬(u.alive = true ∧ u.owned = false) ∧ t = u)) := by
  obtain ⟨u, moved, taken⟩ := Checked.bind_ok_iff.mp taken
  refine ⟨u, move_moves moved, ?_⟩
  unfold settle at taken
  split at taken
  next last =>
    obtain ⟨_, _, taken⟩ := Checked.bind_ok_iff.mp taken
    cases taken
    exact .inl ⟨last.1, last.2, rfl⟩
  next other =>
    cases taken
    exact .inr ⟨other, rfl⟩

theorem OwnedInv.after (inv : OwnedInv s) (taken : step s l = .ok t) : OwnedInv t := by
  obtain ⟨u, moves, ⟨alive, unowned, rfl⟩ | ⟨other, rfl⟩⟩ := step_inv taken
  · exact ⟨moves.registered inv.registered, unowned⟩
  · refine ⟨moves.registered inv.registered, ?_⟩
    cases alive : t.alive with
    | true => simpa [alive] using other
    | false =>
      have dead : s.alive = false := moves.alive_eq ▸ alive
      exact (moves.dead dead (inv.owned.trans dead)).1

/-- Under the condition, a connection that is gone has left an empty queue. -/
structure WaitsInv (s : Owners T) : Prop where
  inv : OwnedInv s
  empty : s.alive = false → s.queue = []

theorem WaitsInv.after (waits : WaitsInv s) (last : LastOwnerWaits s l) (taken : step s l = .ok t) :
    WaitsInv t := by
  refine ⟨waits.inv.after taken, ?_⟩
  intro gone
  obtain ⟨u, moves, ⟨alive, unowned, rfl⟩ | ⟨other, rfl⟩⟩ := step_inv taken
  · -- The last owner goes here: what is queued would own, and nothing owns.
    have owned : s.owned = true := waits.inv.owned.trans (moves.alive_eq ▸ alive)
    have leaves : s.LeavesNone l :=
      (moves.unowned waits.inv.registered unowned).resolve_left (by simp [owned])
    have raw := (owned_eq_false.mp unowned).2.2.2.2
    apply List.eq_nil_iff_forall_not_mem.mpr
    intro cb member
    have unbound := raw cb (List.mem_append_right _ member)
    have bound := last leaves cb ((moves.leavesNone leaves).2 ▸ member)
    simp [bound] at unbound
  · have dead : s.alive = false := moves.alive_eq ▸ gone
    have empty := waits.empty dead
    rcases (moves.dead dead (waits.inv.owned.trans dead)).2 with same | ⟨result, cb, _, run, _⟩
    · exact same.trans empty
    · simp [empty] at run

omit [DecidableEq T] in
theorem WaitsInv.notLate (waits : WaitsInv s) (l : Label T) : NotLate s l := by
  cases l with
  | functor result =>
    intro cb head _
    by_contra dead
    rw [Bool.not_eq_true] at dead
    have empty := waits.empty dead
    simp only [queue, List.append_eq_nil_iff] at empty
    simp [empty.1] at head
  | _ => trivial

/-! ### Calls in time

The owner that `connections_` gives away travels with `remove_connection_in_loop` and then with
`connect_destoryed`. A functor pushed while `connect_destoryed` is not yet swapped out is run in
the same batch as it or in an earlier one. -/

/-- The push comes before the loop has swapped `connect_destoryed` out of its queue. -/
def PushInTime (s : Owners T) : Label T → Prop
  | .push _ => s.mapped = true ∨ ∃ cb ∈ s.session.loop.pendingFunctors, cb.destroys = true
  | _ => True

/-- What runs without a pointer runs no later than the batch of `connect_destoryed`. -/
structure InTime (s : Owners T) : Prop where
  pending : ∀ cb ∈ s.session.loop.pendingFunctors, cb.owns = false →
    s.mapped = true ∨ ∃ cb ∈ s.session.loop.pendingFunctors, cb.destroys = true
  batch : ∀ cb ∈ s.batch, cb.owns = false →
    s.mapped = true ∨ ∃ cb ∈ s.ran ++ s.queue, cb.destroys = true

omit [DecidableEq T] in
/-- A function on the loop's thread may queue notifications, which bind a pointer. -/
theorem InTime.call (inTime : InTime s) {x y : Session} (keeps : Keeps x y)
    (same : x.loop = s.session.loop) : InTime { s with session := y } := by
  obtain ⟨extra, extended, notifies⟩ := keeps.functors
  rw [same] at extended
  have later : ∀ cb ∈ s.session.loop.pendingFunctors, cb ∈ y.loop.pendingFunctors := by
    intro cb member
    rw [extended]
    exact List.mem_append_left _ member
  constructor
  · intro cb member raw
    rw [extended] at member
    rcases List.mem_append.mp member with old | new
    · obtain mapped | ⟨last, queued, destroys⟩ := inTime.pending cb old raw
      · exact .inl mapped
      · exact .inr ⟨last, later last queued, destroys⟩
    · rw [notifies cb new] at raw
      cases raw
  · intro cb member raw
    obtain mapped | ⟨last, queued, destroys⟩ := inTime.batch cb member raw
    · exact .inl mapped
    · refine .inr ⟨last, ?_, destroys⟩
      simp only [queue, List.mem_append] at queued ⊢
      have := later last
      tauto

omit [DecidableEq T] in
/-- Once `connect_destoryed` is queued, everything in the queue is in time. -/
theorem InTime.destroying (s : Owners T) (inLoopThread : Bool) (id : Nat) :
    InTime (s.push inLoopThread (.connectDestoryed id)) := by
  have queued : Functor.connectDestoryed id ∈
      (s.push inLoopThread (.connectDestoryed id)).session.loop.pendingFunctors := by
    simp [push, EventLoop.queueInLoop]
  constructor
  · intro cb _ _
    exact .inr ⟨_, queued, rfl⟩
  · intro cb _ _
    exact .inr ⟨_, List.mem_append_right _ (List.mem_append_right _ queued), rfl⟩

theorem InTime.moves (inTime : InTime s) (registered : s.session.IsRegistered)
    (pushed : PushInTime s l) (moves : Moves s l u) : InTime u := by
  cases moves with
  | push thread callers cb held =>
    -- A push is behind all functors that wait, the destroying one among them.
    have kept : ∀ cb', cb' ∈ s.session.loop.pendingFunctors → cb' ∈
        ({ s with callers := callers }.push false cb).session.loop.pendingFunctors := by
      intro cb' member
      exact List.mem_append_left _ member
    constructor
    · intro _ _ _
      obtain mapped | ⟨last, queued, destroys⟩ := pushed
      · exact .inl mapped
      · exact .inr ⟨last, kept last queued, destroys⟩
    · intro _ _ _
      obtain mapped | ⟨last, queued, destroys⟩ := pushed
      · exact .inl mapped
      · exact .inr ⟨last, by simp [queue, kept last queued], destroys⟩
  | call c y alive ok =>
    exact inTime.call (called registered ok).1 rfl
  | closeHere c y alive ok => exact InTime.destroying _ _ _
  | closeAway c y alive ok =>
    have away := inTime.call (called registered ok).1 rfl
    exact ⟨away.pending, away.batch⟩
  | swap empty =>
    -- The waiting functors become the batch, in one piece.
    refine ⟨by simp, ?_⟩
    intro cb member raw
    obtain mapped | ⟨last, queued, destroys⟩ := inTime.pending cb member raw
    · exact .inl mapped
    · exact .inr ⟨last, by simp [queue, queued], destroys⟩
  | functor result cb rest y batch ok =>
    have after := inTime.call (runFunctor_keeps registered ok).1 rfl
    refine ⟨after.pending, ?_⟩
    intro other member raw
    obtain mapped | ⟨last, queued, destroys⟩ := after.batch other (by simp [batch, member]) raw
    · exact .inl mapped
    · refine .inr ⟨last, ?_, destroys⟩
      simp only [queue, batch, List.mem_append, List.mem_cons] at queued ⊢
      simp only [List.not_mem_nil, or_false]
      tauto
  | finish empty =>
    refine ⟨inTime.pending, ?_⟩
    intro cb member
    have none : s.batch = [] := empty
    simp [none] at member
  | removal queued => exact InTime.destroying _ _ _
  | _ => exact ⟨inTime.pending, inTime.batch⟩

omit [DecidableEq T] in
/-- Nothing is left in the queue when the last owner goes. -/
theorem InTime.waits (inTime : InTime s) (inv : OwnedInv s) : WaitsInv s := by
  refine ⟨inv, fun gone => ?_⟩
  obtain ⟨unmapped, _, _, _, raw⟩ := owned_eq_false.mp (inv.owned.trans gone)
  have undestroyed : ¬∃ cb ∈ s.ran ++ s.queue, cb.destroys = true := by
    rintro ⟨cb, member, destroys⟩
    have owns := Functor.owns_of_destroys destroys
    simp [raw cb member] at owns
  apply List.eq_nil_iff_forall_not_mem.mpr
  intro cb member
  have unbound := raw cb (List.mem_append_right _ member)
  rcases List.mem_append.mp member with batched | pending
  · obtain mapped | last := inTime.batch cb batched unbound
    · simp [unmapped] at mapped
    · exact undestroyed last
  · obtain mapped | ⟨last, queued, destroys⟩ := inTime.pending cb pending unbound
    · simp [unmapped] at mapped
    · exact undestroyed ⟨last, by simp [queue, queued], destroys⟩

theorem InTime.after (inTime : InTime s) (inv : OwnedInv s) (pushed : PushInTime s l)
    (taken : step s l = .ok t) : InTime t := by
  obtain ⟨u, moves, ⟨_, _, rfl⟩ | ⟨_, rfl⟩⟩ := step_inv taken
  · have moved := inTime.moves inv.registered pushed moves
    exact ⟨moved.pending, moved.batch⟩
  · exact inTime.moves inv.registered pushed moves

/-- A functor waits for a connection that is gone. -/
structure Stranded (s : Owners T) : Prop where
  inv : OwnedInv s
  dead : s.alive = false
  left : ∃ cb ∈ s.queue, cb.owns = false

/-- It stays in the queue until it is run. -/
theorem Stranded.after (stranded : Stranded s) (punctual : NotLate s l) (taken : step s l = .ok t) :
    Stranded t := by
  have inv := stranded.inv.after taken
  obtain ⟨⟨registered, owned⟩, dead, cb, member, raw⟩ := stranded
  have unowned : s.owned = false := owned.trans dead
  obtain ⟨u, moves, ⟨alive, _, rfl⟩ | ⟨_, rfl⟩⟩ := step_inv taken
  · simp [moves.alive_eq, dead] at alive
  · refine ⟨inv, moves.alive_eq.trans dead, cb, ?_, raw⟩
    rcases (moves.dead dead unowned).2 with same | ⟨result, first, rfl, run, head⟩
    · rw [same]
      exact member
    · -- Whatever is run now has no pointer, so it is late.
      have unbound : first.owns = false :=
        (owned_eq_false.mp unowned).2.2.2.2 first (List.mem_append_right _ (by simp [run]))
      simp [punctual first head unbound] at dead

theorem stranded_of_last (inv : OwnedInv s) (early : ¬LastOwnerWaits s l)
    (taken : step s l = .ok t) : Stranded t := by
  have after := inv.after taken
  simp only [LastOwnerWaits, not_forall] at early
  obtain ⟨leaves, cb, member, raw⟩ := early
  obtain ⟨u, moves, settled⟩ := step_inv taken
  obtain ⟨unowned, same⟩ := moves.leavesNone leaves
  rw [Bool.not_eq_true] at raw
  rw [← same] at member
  rcases settled with ⟨_, _, rfl⟩ | ⟨other, rfl⟩
  · exact ⟨after, rfl, cb, member, raw⟩
  · exact ⟨after, by simpa [unowned] using other, cb, member, raw⟩

theorem waits_or_stranded {ls : List (Label T)} (inv : OwnedInv s) (ran : run step s ls = .ok t)
    (punctual : Along step NotLate s ls) : Along step LastOwnerWaits s ls ∨ Stranded t := by
  induction ls generalizing s with
  | nil => exact .inl trivial
  | cons l ls ih =>
    obtain ⟨u, taken, later⟩ := run_cons_inv ran
    obtain ⟨_, rest⟩ := (along_cons_ok taken).mp punctual
    by_cases last : LastOwnerWaits s l
    · rcases ih (inv.after taken) later rest with along | stranded
      · exact .inl ((along_cons_ok taken).mpr ⟨last, along⟩)
      · exact .inr stranded
    · right
      exact run_invariant_along (fun _ _ _ stranded punctual taken => stranded.after punctual taken)
        (stranded_of_last inv last taken) rest later

omit [DecidableEq T] in
theorem start_inv (id sockfd : Nat) (sameLoop connection message writeComplete : Bool)
    {poller : Epoller ChannelPtr} (unmapped : poller.channels sockfd = none)
    (unpolled : poller.interest sockfd = none) :
    OwnedInv (start id sockfd sameLoop connection message writeComplete poller : Owners T) := by
  refine ⟨?_, rfl⟩
  cases sameLoop with
  | true => exact Session.established_registered _
  | false => exact ⟨unmapped, unpolled⟩

/-- **Deferred calls**: if the last owner of a connection never goes while a `send_in_loop` or
`shutdown_in_loop` is queued, none of these is run on a connection that is gone; in a run that has
drained the queue this is the only way. It is so in particular if every push comes before the loop
swaps `connect_destoryed` out of its queue. -/
theorem deferred_calls_owned (id sockfd : Nat) (sameLoop connection message writeComplete : Bool)
    (poller : Epoller ChannelPtr) (unmapped : poller.channels sockfd = none)
    (unpolled : poller.interest sockfd = none) (ls : List (Label T)) :
    let first : Owners T := start id sockfd sameLoop connection message writeComplete poller
    (Along step LastOwnerWaits first ls → Along step NotLate first ls) ∧
      (∀ s, run step first ls = .ok s → s.queue = [] → Along step NotLate first ls →
        Along step LastOwnerWaits first ls) ∧
      (Along step PushInTime first ls → Along step NotLate first ls) := by
  intro first
  have inv : OwnedInv first :=
    start_inv id sockfd sameLoop connection message writeComplete unmapped unpolled
  refine ⟨?_, ?_, ?_⟩
  · intro waits
    exact waits.imp (fun _ _ _ waits last taken => WaitsInv.after waits last taken)
      (fun _ l waits _ => waits.notLate l) (⟨inv, by simp [first, start]⟩ : WaitsInv first)
  · intro s ran drained punctual
    apply (waits_or_stranded inv ran punctual).resolve_right
    rintro ⟨_, _, cb, member, _⟩
    simp [drained] at member
  · intro pushes
    have early : InTime first := ⟨fun _ _ _ => .inl rfl, fun _ _ _ => .inl rfl⟩
    have preserved : ∀ (s : Owners T) (l : Label T) (t : Owners T), OwnedInv s ∧ InTime s →
        PushInTime s l → step s l = .ok t → OwnedInv t ∧ InTime t := by
      rintro s l t ⟨inv, inTime⟩ pushed taken
      exact ⟨inv.after taken, inTime.after inv pushed taken⟩
    exact pushes.imp preserved (fun _ l both _ => (both.2.waits both.1).notLate l) ⟨inv, early⟩

/-- A connection on the loop of its own, in a pool. -/
def pooled : Owners Unit := start 0 7 false true true true Epoller.new

/-- It is established, a thread gets a pointer and sends; the peer closes. -/
def sendAndClose : List (Label Unit) :=
  [.swap, .functor (.wrote 0), .finish, .acquire (), .loadSend () [1], .call .handleClose, .removal,
    .baseFinish]

/-- The thread pushes before the loop takes up `connect_destoryed`, and drops its pointer. -/
def pushBeforeSwap : List (Label Unit) :=
  sendAndClose ++ [.push (), .drop (), .swap, .functor (.wrote 0), .functor (.wrote 0), .finish]

theorem pushBeforeSwap_owned : Along step NotLate pooled pushBeforeSwap :=
  (deferred_calls_owned 0 7 false true true true Epoller.new rfl rfl pushBeforeSwap).1 (by decide)

/-- It pushes after the swap: the batch is the last owner. -/
def pushAfterSwap : List (Label Unit) :=
  sendAndClose ++ [.swap, .push (), .drop (), .functor (.wrote 0), .finish, .swap]

/-- Then `send_in_loop` is run on a connection that is gone. -/
theorem late_send : ¬∀ ls : List (Label Unit), Along step NotLate pooled ls := by
  intro punctual
  have along : Along step NotLate pooled (pushAfterSwap ++ [.functor (.wrote 1)]) := punctual _
  have alive := along.at_step (show run step pooled pushAfterSwap = .ok _ from rfl)
    (.sendInLoop 0 [1]) rfl rfl
  exact absurd alive (by decide)

end Owners

end Ownership

end Clia.Net
