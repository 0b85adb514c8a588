import Clia.Net.TcpServer

/-!
# Where every connection is

A connection goes through five stages: its `connect_established` is queued, it is open, it is
closed and its removal is queued, it is erased and its `connect_destoryed` is queued, it is gone.
The stage fixes `state_`, the registration of the channel, the entry in `connections_`, the
functors of the connection in every queue, and how far its history has come. `Inv` says that
every object is at some stage; a step on one connection moves this one on and touches no other.

After `~TcpServer` has come to an entry, the connection is torn: the entry is gone and a
`connect_destoryed` is queued whatever the stage. The base loop's queue may then still hold the
removal, which finds the server gone when its turn comes.
-/

namespace Clia.Net

open Reactor LabelledRun

/-! ### Functors and histories of one connection -/

/-- The functors that move a connection from stage to stage. -/
def Functor.concerns (id : Nat) : Functor → Bool
  | .connectEstablished id' => id' == id
  | .removeConnectionInLoop id' => id' == id
  | .connectDestoryed id' => id' == id
  | _ => false

namespace Server

/-- What loop `i` has still to do for a connection. -/
def business (s : Server) (i id : Nat) : List Functor :=
  (s.workers i).queued.filter (Functor.concerns id)

/-- The history of a connection. -/
def log (s : Server) (id : Nat) : List Event :=
  (s.history.filter fun e => e.1 == id).map Prod.snd

end Server

/-- How far the history of a connection has come. -/
inductive Phase where
  | created
  | registered
  | up
  | down
  | erased
  | gone
  /-- `~TcpServer` destroys the connection: before and after the down callback -/
  | tornUp
  | tornGone
  deriving DecidableEq, Repr

/-- The order in which the events of a connection may come. -/
def Phase.advance : Phase → Event → Option Phase
  | .created, .established none => some .registered
  | .registered, .effect (.connectionCallback true) => some .up
  | .up, .effect (.connectionCallback false) => some .down
  | .down, .erased => some .erased
  | .erased, .destoryed false => some .gone
  | .up, .destoryed _ => some .tornUp
  | .tornUp, .effect (.connectionCallback false) => some .tornGone
  | .down, .destoryed _ => some .tornGone
  | _, .effect (.connectionCallback _) => none
  -- Output, messages and the call of `remove_connection` are of no concern here.
  | phase, .effect _ => some phase
  | _, _ => none

/-- The phase a history leads to, if it is in order. -/
def phaseAfter (phase : Phase) (events : List Event) : Option Phase :=
  events.foldlM Phase.advance phase

def phaseOf (events : List Event) : Option Phase := phaseAfter .created events

theorem phaseOf_append {xs ys : List Event} {phase : Phase} (before : phaseOf xs = some phase) :
    phaseOf (xs ++ ys) = phaseAfter phase ys := by
  unfold phaseOf phaseAfter at *
  rw [List.foldlM_append, before]
  rfl

/-! ### Stages -/

inductive Stage where
  | waiting
  | open
  | closed
  | erased
  | gone
  deriving DecidableEq, Repr

namespace Stage

/-- The connection is in `connections_`, unless it is torn. -/
def mapped : Stage → Bool
  | .waiting => true
  | .open => true
  | .closed => true
  | _ => false

/-- The functors of the connection that are queued in loop `i`. -/
def functors (stage : Stage) (torn : Bool) (home id i : Nat) : List Functor :=
  (if stage = .waiting ∧ i = home then [.connectEstablished id] else []) ++
  (if stage = .closed ∧ torn = false ∧ i = 0 then [.removeConnectionInLoop id] else []) ++
  (if (stage = .erased ∨ torn = true ∧ stage.mapped = true) ∧ i = home then
    [.connectDestoryed id] else [])

def phase (stage : Stage) (torn : Bool) : Phase :=
  match stage with
  | .waiting => .created
  | .open => .up
  | .closed => .down
  | .erased => .erased
  | .gone => if torn then .tornGone else .gone

/-- What the connection object looks like. -/
def Shape (stage : Stage) (conn : TcpConnection) : Prop :=
  match stage with
  | .waiting =>
    conn.state = .kConnecting ∧ conn.channel.index = .kNew ∧ conn.channel.events = kNoneEvent
  | .open =>
    (conn.state = .kConnected ∨ conn.state = .kDisconnecting) ∧
      conn.channel.events.getLsbD 0 = true ∧ conn.channel.index = .kAdded
  | .closed | .erased =>
    conn.state = .kDisconnected ∧ conn.channel.index = .kDeleted ∧
      conn.channel.events = kNoneEvent
  | .gone =>
    conn.state = .kDisconnected ∧ conn.channel.index = .kNew ∧ conn.channel.events = kNoneEvent

end Stage

/-- What holds of an object at every stage. -/
structure Held (s : Server) (id : Nat) (o : Object) : Prop where
  ident : o.conn.id = id
  channelFd : o.conn.channel.fd = o.conn.fd
  connectionCallback : o.conn.hasConnectionCallback = true
  closeCallback : o.conn.hasCloseCallback = true
  home : o.home ≤ s.threads
  registered : (s.session o).IsRegistered
  elsewhere : ∀ i, i ≠ o.home → (s.workers i).loop.poller.channels o.conn.fd = none ∧
    (s.workers i).loop.poller.interest o.conn.fd = none

/-- The object is at a stage, and all that belongs to it agrees. -/
structure Placed (s : Server) (id : Nat) (o : Object) (stage : Stage) (torn : Bool) : Prop
    extends Held s id o where
  shape : stage.Shape o.conn
  remote : stage = .waiting ∨ stage = .closed → o.home ≠ 0
  unerased : torn = true → stage ≠ .erased
  entry : s.connections o.conn.fd = if stage.mapped = true ∧ torn = false then some id else none
  business : ∀ i, (torn = true → i = 0 → o.home = 0) →
    s.business i id = stage.functors torn o.home id i
  leftover : torn = true → o.home ≠ 0 → ∀ cb ∈ s.business 0 id, cb = .removeConnectionInLoop id
  dying : torn = true → s.alive = false
  log : phaseOf (s.log id) = some (stage.phase torn)

/-- The channel of the connection is the current one of loop `i` or waits for its turn. -/
def Server.Dispatched (s : Server) (i id : Nat) : Prop :=
  .connection id ∈ (s.workers i).dispatch.map Prod.fst ∨
    (s.workers i).loop.currentActiveChannel = some (.connection id)

structure Inv (s : Server) : Prop where
  connectionCallback : s.hasConnectionCallback = true
  pool : s.threads = 0 ∨ s.next < s.threads
  placed : ∀ id o, s.objects id = some o → ∃ stage torn, Placed s id o stage torn
  opened : ∀ id o, s.objects id = some o → s.opened o.conn.fd = true
  unique : ∀ id id' o o', s.objects id = some o → s.objects id' = some o' →
    o.conn.fd = o'.conn.fd → id = id'
  mapped : ∀ fd id, s.connections fd = some id → ∃ o, s.objects id = some o ∧ o.conn.fd = fd
  unpolled : ∀ fd, s.opened fd = false → ∀ i,
    (s.workers i).loop.poller.channels fd = none ∧ (s.workers i).loop.poller.interest fd = none
  unowned : ∀ id, s.objects id = none → ∀ i, s.business i id = []
  unborn : ∀ id, s.nextId ≤ id → s.objects id = none ∧ s.log id = []
  released : ∀ id, s.objects id = none → id < s.nextId → phaseOf (s.log id) = some .gone ∨
    phaseOf (s.log id) = some .tornGone ∧ s.alive = false
  calling : ∀ i, (s.workers i).loop.callingPendingFunctors = true →
    (s.workers i).loop.eventHanding = false
  idle : ∀ i, (s.workers i).loop.callingPendingFunctors = false → (s.workers i).batch = []
  dispatched : ∀ i id, s.Dispatched i id → id < s.nextId ∧
    ∀ o, s.objects id = some o → o.conn.state ≠ .kConnecting

/-! ### Frame rules -/

/-- An object stays where it is if nothing that belongs to it changes. -/
theorem Placed.frame {s t : Server} {id : Nat} {o : Object} {stage : Stage} {torn : Bool}
    (placed : Placed s id o stage torn) (threads : t.threads = s.threads)
    (channels : ∀ i, (t.workers i).loop.poller.channels o.conn.fd =
      (s.workers i).loop.poller.channels o.conn.fd)
    (interest : ∀ i, (t.workers i).loop.poller.interest o.conn.fd =
      (s.workers i).loop.poller.interest o.conn.fd)
    (entry : t.connections o.conn.fd = s.connections o.conn.fd)
    (business : ∀ i, t.business i id = s.business i id)
    (alive : s.alive = false → t.alive = false) (log : t.log id = s.log id) :
    Placed t id o stage torn where
  ident := placed.ident
  channelFd := placed.channelFd
  connectionCallback := placed.connectionCallback
  closeCallback := placed.closeCallback
  home := threads ▸ placed.home
  registered := by
    -- The poller's entries for the descriptor are the same on every loop.
    have registered := placed.registered
    simp only [Session.IsRegistered, Registered, Server.session, Session.self, placed.channelFd,
      channels, interest] at registered ⊢
    exact registered
  elsewhere i away := by
    rw [channels i, interest i]
    exact placed.elsewhere i away
  shape := placed.shape
  remote := placed.remote
  unerased := placed.unerased
  entry := entry.trans placed.entry
  business i constrained := (business i).trans (placed.business i constrained)
  leftover := business 0 ▸ placed.leftover
  dying torn := alive (placed.dying torn)
  log := log ▸ placed.log

/-- `t` differs from `s` only in the business of the connection `id` with descriptor `fd`. -/
structure Touches (s t : Server) (id fd : Nat) : Prop where
  alive : t.alive = s.alive
  threads : t.threads = s.threads
  connectionCallback : t.hasConnectionCallback = s.hasConnectionCallback
  objects : ∀ id', id' ≠ id → t.objects id' = s.objects id'
  connections : ∀ fd', fd' ≠ fd → t.connections fd' = s.connections fd'
  opened : ∀ fd', fd' ≠ fd → t.opened fd' = s.opened fd'
  channels : ∀ i fd', fd' ≠ fd →
    (t.workers i).loop.poller.channels fd' = (s.workers i).loop.poller.channels fd'
  interest : ∀ i fd', fd' ≠ fd →
    (t.workers i).loop.poller.interest fd' = (s.workers i).loop.poller.interest fd'
  business : ∀ i id', id' ≠ id → t.business i id' = s.business i id'
  log : ∀ id', id' ≠ id → t.log id' = s.log id'
  calling : ∀ i, (t.workers i).loop.callingPendingFunctors =
    (s.workers i).loop.callingPendingFunctors
  eventHanding : ∀ i, (t.workers i).loop.eventHanding = (s.workers i).loop.eventHanding
  current : ∀ i, (t.workers i).loop.currentActiveChannel =
    (s.workers i).loop.currentActiveChannel
  dispatch : ∀ i, (t.workers i).dispatch = (s.workers i).dispatch
  batch : ∀ i, (s.workers i).batch = [] → (t.workers i).batch = []

namespace Touches

variable {s t u : Server} {id fd : Nat}

theorem refl (s : Server) (id fd : Nat) : Touches s s id fd := by
  constructor <;> intros <;> first | rfl | assumption

theorem trans (first : Touches s t id fd) (second : Touches t u id fd) : Touches s u id fd where
  alive := second.alive.trans first.alive
  threads := second.threads.trans first.threads
  connectionCallback := second.connectionCallback.trans first.connectionCallback
  objects id' other := (second.objects id' other).trans (first.objects id' other)
  connections fd' other := (second.connections fd' other).trans (first.connections fd' other)
  opened fd' other := (second.opened fd' other).trans (first.opened fd' other)
  channels i fd' other := (second.channels i fd' other).trans (first.channels i fd' other)
  interest i fd' other := (second.interest i fd' other).trans (first.interest i fd' other)
  business i id' other := (second.business i id' other).trans (first.business i id' other)
  log id' other := (second.log id' other).trans (first.log id' other)
  calling i := (second.calling i).trans (first.calling i)
  eventHanding i := (second.eventHanding i).trans (first.eventHanding i)
  current i := (second.current i).trans (first.current i)
  dispatch i := (second.dispatch i).trans (first.dispatch i)
  batch i empty := second.batch i (first.batch i empty)

/-- **Frame rule**: another connection stays where it is. -/
theorem placed_other (touches : Touches s t id fd) {id' : Nat} {o : Object} {stage : Stage}
    {torn : Bool} (other : id' ≠ id) (apart : o.conn.fd ≠ fd) (placed : Placed s id' o stage torn) :
    Placed t id' o stage torn :=
  placed.frame touches.threads (fun i => touches.channels i _ apart)
    (fun i => touches.interest i _ apart) (touches.connections _ apart)
    (fun i => touches.business i id' other) (fun dead => touches.alive.trans dead)
    (touches.log id' other)

theorem dispatched (touches : Touches s t id fd) {i id' : Nat} :
    t.Dispatched i id' ↔ s.Dispatched i id' := by
  unfold Server.Dispatched
  rw [touches.dispatch i, touches.current i]

/-- A step on one connection keeps the invariant if it leaves this one at some stage. -/
theorem inv (touches : Touches s t id fd) (inv : Inv s)
    (mine : ∀ id' o', s.objects id' = some o' → (id' = id ↔ o'.conn.fd = fd))
    {o : Object} {stage : Stage} {torn : Bool} (here : t.objects id = some o)
    (fd_eq : o.conn.fd = fd) (opened : t.opened fd = true) (placed : Placed t id o stage torn)
    (pool : t.threads = 0 ∨ t.next < t.threads) (born : id < t.nextId)
    (grows : s.nextId ≤ t.nextId) (alone : ∀ id', id' ≠ id → id' < t.nextId → id' < s.nextId)
    (started : ∀ i, s.Dispatched i id → o.conn.state ≠ .kConnecting) : Inv t := by
  -- The objects of `t` are the touched one and the others of `s`.
  have others : ∀ id' o', t.objects id' = some o' →
      (id' = id ∧ o' = o) ∨ (id' ≠ id ∧ s.objects id' = some o' ∧ o'.conn.fd ≠ fd) := by
    intro id' o' found
    by_cases same : id' = id
    · subst same
      rw [here] at found
      exact .inl ⟨rfl, (Option.some.inj found).symm⟩
    · rw [touches.objects id' same] at found
      exact .inr ⟨same, found, fun eq => same ((mine id' o' found).mpr eq)⟩
  have missing : ∀ id', t.objects id' = none → id' ≠ id := by
    rintro id' absent rfl
    rw [here] at absent
    cases absent
  exact {
    connectionCallback := touches.connectionCallback.trans inv.connectionCallback
    pool := pool
    placed := fun id' o' found => by
      rcases others id' o' found with ⟨rfl, rfl⟩ | ⟨other, before, apart⟩
      · exact ⟨stage, torn, placed⟩
      · obtain ⟨stage', torn', placed'⟩ := inv.placed id' o' before
        exact ⟨stage', torn', touches.placed_other other apart placed'⟩
    opened := fun id' o' found => by
      rcases others id' o' found with ⟨rfl, rfl⟩ | ⟨other, before, apart⟩
      · exact fd_eq ▸ opened
      · rw [touches.opened _ apart]
        exact inv.opened id' o' before
    unique := fun id₁ id₂ o₁ o₂ found₁ found₂ eq => by
      -- Two objects with one descriptor: both touched, or both old.
      rcases others id₁ o₁ found₁ with ⟨rfl, rfl⟩ | ⟨other₁, before₁, apart₁⟩
      · rcases others id₂ o₂ found₂ with ⟨rfl, rfl⟩ | ⟨other₂, before₂, apart₂⟩
        · rfl
        · exact absurd (eq.symm.trans fd_eq) apart₂
      · rcases others id₂ o₂ found₂ with ⟨rfl, rfl⟩ | ⟨other₂, before₂, apart₂⟩
        · exact absurd (eq.trans fd_eq) apart₁
        · exact inv.unique id₁ id₂ o₁ o₂ before₁ before₂ eq
    mapped := fun fd' id' entry => by
      by_cases own : fd' = fd
      · subst own
        -- The entry of the touched descriptor is the one its stage asks for.
        have own_entry := placed.entry
        rw [fd_eq, entry] at own_entry
        split at own_entry
        · cases own_entry
          exact ⟨o, here, fd_eq⟩
        · cases own_entry
      · rw [touches.connections fd' own] at entry
        obtain ⟨o', found, rfl⟩ := inv.mapped fd' id' entry
        have other : id' ≠ id := fun same => own ((mine id' o' found).mp same)
        exact ⟨o', by rw [touches.objects id' other, found], rfl⟩
    unpolled := fun fd' closed i => by
      have other : fd' ≠ fd := by
        rintro rfl
        rw [opened] at closed
        cases closed
      rw [touches.channels i fd' other, touches.interest i fd' other]
      rw [touches.opened fd' other] at closed
      exact inv.unpolled fd' closed i
    unowned := fun id' absent i => by
      have other := missing id' absent
      rw [touches.objects id' other] at absent
      rw [touches.business i id' other]
      exact inv.unowned id' absent i
    unborn := fun id' late => by
      have other : id' ≠ id := fun eq => Nat.not_lt.mpr late (eq ▸ born)
      rw [touches.objects id' other, touches.log id' other]
      exact inv.unborn id' (Nat.le_trans grows late)
    released := fun id' absent early => by
      have other := missing id' absent
      rw [touches.objects id' other] at absent
      rw [touches.log id' other, touches.alive]
      exact inv.released id' absent (alone id' other early)
    calling := fun i running => by
      rw [touches.eventHanding i]
      exact inv.calling i ((touches.calling i).symm.trans running)
    idle := fun i resting =>
      touches.batch i (inv.idle i ((touches.calling i).symm.trans resting))
    dispatched := fun i id' active => by
      rw [touches.dispatched] at active
      -- No step here changes what a loop dispatches.
      obtain ⟨early, past⟩ := inv.dispatched i id' active
      refine ⟨Nat.lt_of_lt_of_le early grows, fun o' found => ?_⟩
      rcases others id' o' found with ⟨rfl, rfl⟩ | ⟨other, before, apart⟩
      · exact started i active
      · exact past o' before }

end Touches

end Clia.Net
