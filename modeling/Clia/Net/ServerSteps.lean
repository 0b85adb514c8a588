import Clia.Net.ServerFrame
import Clia.Net.SessionStage

/-!
# Every step keeps the invariant

One lemma for each thing that can happen to a connection: it stays at its stage, it closes, its
removal runs, `connect_established` or `connect_destoryed` runs, `~TcpServer` comes to it, the
object goes. `Server.step_inv` puts them together.
-/

namespace Clia.Net

open Reactor LabelledRun

variable {s t : Server} {id i : Nat} {o : Object} {stage : Stage} {torn : Bool}

/-! ### Phases -/

theorem phaseAfter_neutral (phase : Phase) {effects : List Effect}
    (neutral : ∀ e ∈ effects, ¬e.IsStage) :
    phaseAfter phase (effects.map .effect) = some phase := by
  induction effects with
  | nil => rfl
  | cons e effects ih =>
    have stays : phase.advance (.effect e) = some phase := by
      have first := neutral e (by simp)
      -- Only the callbacks that mark a stage move the phase.
      cases e <;> cases phase <;> first | rfl | exact absurd trivial first
    simp only [phaseAfter, List.map_cons, List.foldlM_cons, stays] at ih ⊢
    exact ih fun e' member => neutral e' (by simp [member])

/-! ### Moving on -/

theorem Inv.early (inv : Inv s) (found : s.objects id = some o) : id < s.nextId := by
  by_contra late
  have absent := (inv.unborn id (Nat.not_lt.mp late)).1
  rw [found] at absent
  cases absent

/-- A moved object that is at a stage again; only a waiting one may be waiting. -/
theorem Inv.move {o' : Object} {stage' : Stage} {torn' : Bool} (inv : Inv s)
    (found : s.objects id = some o) (placed : Placed s id o stage torn)
    (moves : Moves s t id o o') (placed' : Placed t id o' stage' torn')
    (past : stage' = .waiting → stage = .waiting) : Inv t := by
  apply moves.inv inv found placed'
  -- A dispatched connection is past `kConnecting`, and only a waiting one could go back there.
  intro i active connecting
  have waiting := past (placed'.shape.connecting_iff.mp connecting)
  exact (inv.dispatched i id active).2 o found (placed.shape.connecting_iff.mpr waiting)

/-- A function of the connection that leaves it at its stage. -/
theorem Inv.neutral {y : Session} (inv : Inv s) (found : s.objects id = some o)
    (step : NeutralStep (s.session o) y) : Inv (s.commit id o y) := by
  obtain ⟨stage, torn, placed⟩ := inv.placed id o found
  have moves := Server.commit_moves id placed.channelFd step.toKeeps step.registered
  have business : ∀ j, (s.commit id o y).business j id = s.business j id := fun _ =>
    Server.business_commit step.toKeeps
  refine inv.move found placed moves (moves.placed placed.toHeld (step.shape stage placed.shape)
    placed.remote placed.unerased placed.entry ?_ ?_ placed.dying ?_) fun waiting => waiting
  · intro j constrained
    rw [business j]
    exact placed.business j constrained
  · rw [business 0]
    exact placed.leftover
  · obtain ⟨effects, eq, neutral⟩ := step.effects
    have trace : y.trace = effects := eq
    rw [Server.log_commit_self, phaseOf_append placed.log, trace]
    exact phaseAfter_neutral _ neutral

namespace Server

/-! ### Results of the server's functions -/

theorem removeConnectionInLoop_eq (found : s.objects id = some o)
    (entry : s.connections o.conn.fd = some id) : s.removeConnectionInLoop id =
      .ok (((s.unmapped o.conn.fd).record id [.erased]).push o.home (o.home == 0)
        (.connectDestoryed id)) := by
  simp only [removeConnectionInLoop, found, Checked.require_pos _ entry, Checked.ok_bind]
  rfl

theorem removeConnection_eq (alive : s.alive = true) (found : s.objects id = some o)
    (entry : s.connections o.conn.fd = some id) {home : Nat} {conn : TcpConnection}
    (same : o.home = home) : s.removeConnection id ⟨conn, home⟩ =
      .ok (if o.home = 0 then
          ((s.unmapped o.conn.fd).record id [.erased]).push o.home (o.home == 0)
            (.connectDestoryed id)
        else s.push 0 false (.removeConnectionInLoop id)) := by
  subst same
  simp only [removeConnection, alive, Bool.true_eq_false, if_false]
  split
  · exact removeConnectionInLoop_eq found entry
  · rfl

theorem alive_of_removeConnection (ok : s.removeConnection id o = .ok t) : s.alive = true := by
  by_contra dead
  rw [Bool.not_eq_true] at dead
  simp only [removeConnection, dead, if_true] at ok
  cases ok

/-- What a call of a function of the connection did. -/
theorem onConnection_ok {call : Session → Except Fault Session} (found : s.objects id = some o)
    (ok : s.onConnection id call = .ok t) : ∃ y, call (s.session o) = .ok y ∧
      ((.closeCallback ∈ y.trace ∧ (s.commit id o y).removeConnection id o = .ok t) ∨
        (.closeCallback ∉ y.trace ∧ t = s.commit id o y)) := by
  simp only [onConnection, found] at ok
  split at ok
  · cases ok
  next y called =>
    refine ⟨y, called, ?_⟩
    split at ok
    next closing => exact .inl ⟨closing, ok⟩
    next staying => exact .inr ⟨staying, (Except.ok.inj ok).symm⟩

end Server

/-! ### Closing -/

theorem Placed.whole (placed : Placed s id o stage torn) (alive : s.alive = true) :
    torn = false := by
  by_contra torn_eq
  rw [Bool.not_eq_false] at torn_eq
  rw [placed.dying torn_eq] at alive
  cases alive

/-- The removal of a closed connection from the map. -/
theorem Inv.erase {r : Server} {o' : Object} (inv : Inv s) (found : s.objects id = some o)
    (placed : Placed s id o stage false) (moves : Moves s r id o o')
    (shape : Stage.closed.Shape o'.conn) (business : ∀ j, r.business j id = [])
    (log : phaseOf (r.log id) = some .down) :
    Inv (((r.unmapped o'.conn.fd).record id [.erased]).push o'.home (o'.home == 0)
      (.connectDestoryed id)) := by
  have unmaps := Server.unmapped_moves moves.here moves.registered
  have records := Server.record_moves unmaps.here unmaps.registered [.erased]
  have pushes := Server.push_moves records.here records.registered o'.home (o'.home == 0)
    (.connectDestoryed id) rfl
  -- Entry out, event recorded, `connect_destoryed` queued: one move of the object.
  have all := ((moves.trans unmaps).trans records).trans pushes
  have erased : Placed (((r.unmapped o'.conn.fd).record id [.erased]).push o'.home (o'.home == 0)
      (.connectDestoryed id)) id o' .erased false := by
    refine all.placed placed.toHeld shape (by simp) (by simp) ?_ ?_ (by simp) (by simp) ?_
    · rw [← moves.fd]
      exact Function.update_self _ _ _
    · intro j _
      have before : ((r.unmapped o'.conn.fd).record id [.erased]).business j id = [] := business j
      rw [Server.business_push, before, moves.home]
      simp [Stage.functors, Functor.concerns]
    · have before : ((r.unmapped o'.conn.fd).record id [.erased]).log id =
          r.log id ++ [.erased] := Server.log_record_self _
      rw [Server.log_push, before, phaseOf_append log]
      rfl
  exact inv.move found placed all erased (by simp)

/-- The close callback of an open connection: it goes to the base loop, or is done there. -/
theorem Inv.close {y : Session} (inv : Inv s) (found : s.objects id = some o)
    (step : CloseStep (s.session o) y)
    (ok : (s.commit id o y).removeConnection id o = .ok t) : Inv t := by
  obtain ⟨stage, torn, placed⟩ := inv.placed id o found
  cases placed.shape.open_of_closable step.closable
  have commits := Server.commit_moves id placed.channelFd step.toKeeps step.registered
  have alive' := Server.alive_of_removeConnection ok
  have alive : s.alive = true := commits.alive.symm.trans alive'
  -- The server is alive, or the callback would not have returned; so the object is not torn.
  cases placed.whole alive
  have shape := step.shape placed.shape
  have business : ∀ j, (s.commit id o y).business j id = [] := fun j => by
    rw [Server.business_commit step.toKeeps, placed.business j (by simp)]
    simp [Stage.functors]
  have log : phaseOf ((s.commit id o y).log id) = some .down := by
    have trace : y.trace = _ := step.effects
    rw [Server.log_commit_self, phaseOf_append placed.log, trace]
    rfl
  have entry : (s.commit id o y).connections y.conn.fd = some id := by
    rw [step.fd]
    exact placed.entry
  rw [Server.removeConnection_eq alive' commits.here entry rfl] at ok
  cases ok
  split
  next =>
    -- The connection lives on the base loop, which removes it on the spot.
    exact inv.erase found placed commits shape business log
  next io =>
    have pushes := Server.push_moves commits.here commits.registered 0 false
      (.removeConnectionInLoop id) rfl
    have all := commits.trans pushes
    have closed : Placed ((s.commit id o y).push 0 false (.removeConnectionInLoop id)) id
        { o with conn := y.conn } .closed false := by
      refine all.placed placed.toHeld shape (fun _ => io) (by simp) placed.entry ?_ (by simp)
        (by simp) log
      intro j _
      rw [Server.business_push, business j]
      simp [Stage.functors, Functor.concerns]
    exact inv.move found placed all closed (by simp)

/-- Every function of an established connection stays at its stage or closes it. -/
theorem Inv.onConnection {call : Session → Except Fault Session} (inv : Inv s)
    (staged : Staged call) (ok : s.onConnection id call = .ok t) : Inv t := by
  cases found : s.objects id with
  | none =>
    simp only [Server.onConnection, found] at ok
    cases ok
  | some o =>
    obtain ⟨stage, torn, placed⟩ := inv.placed id o found
    obtain ⟨y, called, outcome⟩ := Server.onConnection_ok found ok
    rcases staged _ y placed.registered placed.connectionCallback placed.closeCallback called with
      neutral | closes
    · -- A neutral function does not call the close callback, a closing one does.
      rcases outcome with ⟨closing, _⟩ | ⟨_, rfl⟩
      · obtain ⟨effects, eq, own⟩ := neutral.effects
        have trace : y.trace = effects := eq
        rw [trace] at closing
        exact absurd trivial (own _ closing)
      · exact inv.neutral found neutral
    · rcases outcome with ⟨_, removed⟩ | ⟨staying, _⟩
      · exact inv.close found closes removed
      · rw [closes.effects] at staying
        simp at staying

/-! ### `connect_established` -/

/-- `connect_established` on an object that waits for it: the descriptor is new to the poller. -/
theorem Held.establish (held : Held s id o) (here : s.objects id = some o)
    (shape : Stage.waiting.Shape o.conn) : ∃ t o', s.connectEstablished id = .ok t ∧
      Moves s t id o o' ∧ Stage.open.Shape o'.conn ∧ t.connections = s.connections ∧
      (∀ j, t.business j id = s.business j id) ∧
      t.log id = s.log id ++ [.established none, .effect (.connectionCallback true)] := by
  obtain ⟨connecting, index, -⟩ := shape
  have keeps := Session.established_keeps (s.session o)
  have trace : (s.session o).established.trace = [.connectionCallback true] :=
    Session.established_trace held.connectionCallback
  -- An unregistered channel has no entry, whoever had the descriptor before.
  have entry : (s.workers o.home).loop.poller.channels o.conn.fd = none := by
    have registered := held.registered
    simp only [Session.IsRegistered, Registered, Server.session, index] at registered
    rw [← held.channelFd]
    exact registered.1
  have records := Server.record_moves here held.registered [.established none]
  have commits := Server.commit_moves (s := s.record id [.established none]) id
    held.channelFd keeps (Session.established_registered _)
  refine ⟨_, _, ?_, records.trans commits, Session.established_shape, rfl,
    fun j => Server.business_commit (s := s.record id [.established none]) keeps, ?_⟩
  · have found : (s.record id [.established none]).objects id = some o := here
    have session : (s.record id [.established none]).session o = s.session o := rfl
    simp only [Server.connectEstablished, here, entry, Server.onConnection, found, session,
      Session.connectEstablished_eq held.registered connecting, trace]
    rfl
  · rw [Server.log_commit_self, Server.log_record_self, trace, List.append_assoc]
    rfl

/-! ### `connect_destoryed` -/

/-- `connect_destoryed` calls the down callback of a connection that is up, and no other. -/
theorem Session.connectDestoryed_trace {x y : Session} (registered : x.IsRegistered)
    (callback : x.conn.hasConnectionCallback = true) (ok : x.connectDestoryed = .ok y) :
    y.trace =
      x.trace ++ if x.conn.state = .kConnected then [.connectionCallback false] else [] := by
  rw [connectDestoryed_eq registered ok]
  split
  · exact disconnected_trace callback
  · exact (List.append_nil _).symm

theorem Session.connectDestoryed_registered {x y : Session} (registered : x.IsRegistered)
    (ok : x.connectDestoryed = .ok y) : y.IsRegistered := by
  rw [connectDestoryed_eq registered ok]
  exact removed_registered _

/-- The server's side of `connect_destoryed` adds no failure of its own. -/
theorem Held.connectDestoryed_iff (held : Held s id o) (here : s.objects id = some o) :
    s.connectDestoryed id = .ok t ↔ ∃ y, (s.session o).connectDestoryed = .ok y ∧
      t = (s.record id [.destoryed (s.workers o.home).loop.eventHanding]).commit id o y := by
  have found : ∀ events, (s.record id events).objects id = some o := fun _ => here
  have session : ∀ events, (s.record id events).session o = s.session o := fun _ => rfl
  simp only [Server.connectDestoryed, here, Server.onConnection, found, session]
  cases called : (s.session o).connectDestoryed with
  | error f => simp
  | ok y =>
    have trace := Session.connectDestoryed_trace held.registered held.connectionCallback called
    have staying : .closeCallback ∉ y.trace := by
      rw [trace]
      split <;> simp [Server.session]
    simp [staying, eq_comm]

theorem Held.destroy (held : Held s id o) (here : s.objects id = some o)
    (ok : s.connectDestoryed id = .ok t) : ∃ y, (s.session o).connectDestoryed = .ok y ∧
      Moves s t id o { o with conn := y.conn } ∧ t.connections = s.connections ∧
      (∀ j, t.business j id = s.business j id) ∧
      t.log id = s.log id ++ .destoryed (s.workers o.home).loop.eventHanding ::
        (if o.conn.state = .kConnected then [.effect (.connectionCallback false)] else []) := by
  obtain ⟨y, called, rfl⟩ := (held.connectDestoryed_iff here).mp ok
  have keeps := Session.connectDestoryed_keeps held.registered called
  have trace := Session.connectDestoryed_trace held.registered held.connectionCallback called
  -- The recorded flag is the loop's, and is no concern of the function.
  generalize event_eq : [Event.destoryed (s.workers o.home).loop.eventHanding] = event
  have records := Server.record_moves here held.registered event
  have commits := Server.commit_moves (s := s.record id event) id held.channelFd keeps
    (Session.connectDestoryed_registered held.registered called)
  refine ⟨y, called, records.trans commits, rfl,
    fun j => Server.business_commit (s := s.record id event) keeps, ?_⟩
  rw [Server.log_commit_self, Server.log_record_self, trace, List.append_assoc, ← event_eq]
  by_cases connected : o.conn.state = .kConnected
  · simp [Server.session, connected]
  · simp [Server.session, connected]

/-- Where `connect_destoryed` may find a connection: erased, or reached by `~TcpServer` while it
is open or closed. -/
def Stage.Destroyable (stage : Stage) (torn eventHanding : Bool) : Prop :=
  (stage = .erased ∧ torn = false ∧ eventHanding = false) ∨
    (torn = true ∧ (stage = .open ∨ stage = .closed))

/-- After `connect_destoryed` the connection is gone, whatever its stage was. `r` is the state in
which the functor has left its queue or the entry has left the map. -/
theorem Placed.destroy {r : Server} {torn' : Bool} (placed : Placed s id o stage torn)
    (moves : Moves s r id o o) (log : r.log id = s.log id)
    (entry : r.connections o.conn.fd = none)
    (business : ∀ j, (torn' = true → j = 0 → o.home = 0) → r.business j id = [])
    (leftover : torn' = true → o.home ≠ 0 →
      ∀ cb ∈ r.business 0 id, cb = .removeConnectionInLoop id)
    (dying : torn' = true → s.alive = false)
    (destroyable : stage.Destroyable torn' (r.workers o.home).loop.eventHanding)
    (ok : r.connectDestoryed id = .ok t) :
    ∃ o', Moves s t id o o' ∧ Placed t id o' .gone torn' := by
  have held := moves.held placed.toHeld
  obtain ⟨y, called, onward, connections, queues, history⟩ := held.destroy moves.here ok
  have all := moves.trans onward
  obtain ⟨met, -, rfl⟩ := (Session.connectDestoryed_iff held.registered).mp called
  have conn : (r.session o).conn = o.conn := rfl
  rw [conn] at met
  refine ⟨_, all, all.placed placed.toHeld ?_ (by simp) (by simp) ?_ ?_ ?_ dying ?_⟩
  · -- `connect_destoryed` got past its assertions, so the channel is out of the poller.
    rcases destroyable with ⟨rfl, -, -⟩ | ⟨-, rfl | rfl⟩
    · exact Session.destroyed_shape placed.shape met (by simp)
    · exact Session.destroyed_shape placed.shape met (by simp)
    · exact Session.destroyed_shape placed.shape met (by simp)
  · rw [connections, entry]
    simp [Stage.mapped]
  · intro j constrained
    rw [queues j, business j constrained]
    simp [Stage.functors, Stage.mapped]
  · rw [queues 0]
    exact leftover
  · rw [history, log, phaseOf_append placed.log]
    rcases destroyable with ⟨rfl, rfl, idle⟩ | ⟨rfl, rfl | rfl⟩
    · have down : o.conn.state ≠ .kConnected := by simp [placed.shape.1]
      rw [if_neg down, idle]
      rfl
    · rw [if_pos (Session.connected_of_destroyed placed.shape met)]
      rfl
    · have down : o.conn.state ≠ .kConnected := by simp [placed.shape.1]
      rw [if_neg down]
      rfl

/-! ### Functors -/

namespace Stage

variable {home j : Nat}

theorem functors_waiting : Stage.waiting.functors torn home id j =
    (if j = home then [.connectEstablished id] else []) ++ Stage.open.functors torn home id j := by
  simp [functors, mapped]

theorem functors_open : Stage.open.functors torn home id j =
    if torn = true ∧ j = home then [.connectDestoryed id] else [] := by
  simp [functors, mapped]

theorem functors_closed : Stage.closed.functors torn home id j =
    (if torn = false ∧ j = 0 then [.removeConnectionInLoop id] else []) ++
      if torn = true ∧ j = home then [.connectDestoryed id] else [] := by
  simp [functors, mapped]

theorem functors_erased : Stage.erased.functors torn home id j =
    if j = home then [.connectDestoryed id] else [] := by
  simp [functors, mapped]

/-- The functor that is next tells the stage. -/
theorem functors_head {cb : Functor} {rest : List Functor}
    (head : stage.functors torn home id j = cb :: rest) :
    (cb = .connectEstablished id ∧ stage = .waiting ∧ j = home) ∨
    (cb = .removeConnectionInLoop id ∧ stage = .closed ∧ torn = false ∧ j = 0) ∨
    (cb = .connectDestoryed id ∧ j = home ∧
      (stage = .erased ∨ torn = true ∧ (stage = .open ∨ stage = .closed))) := by
  cases stage with
  | waiting =>
    rw [functors_waiting, functors_open] at head
    by_cases here : j = home
    · simp_all
    · simp [here] at head
  | «open» =>
    rw [functors_open] at head
    split at head
    next torn_here => simp_all
    next => cases head
  | closed =>
    rw [functors_closed] at head
    cases torn with
    | false =>
      simp only [Bool.false_eq_true, false_and, if_false, List.append_nil, true_and] at head
      split at head
      · simp_all
      · cases head
    | true =>
      simp only [Bool.true_eq_false, false_and, if_false, List.nil_append, true_and] at head
      split at head
      · simp_all
      · cases head
  | erased =>
    rw [functors_erased] at head
    split at head
    · simp_all
    · cases head
  | gone => simp [functors, mapped] at head

end Stage

/-- A functor in a batch has its object, and the stage of the object agrees with it. -/
theorem Inv.head {cb : Functor} {batch : List Functor} (inv : Inv s)
    (queue : (s.workers i).batch = cb :: batch) (own : cb.concerns id = true) :
    ∃ o stage torn, s.objects id = some o ∧ Placed s id o stage torn ∧
      ((cb = .removeConnectionInLoop id ∧ s.alive = false) ∨
        ∃ rest, stage.functors torn o.home id i = cb :: rest) := by
  have first := Server.business_popped queue i id
  rw [if_pos ⟨rfl, own⟩] at first
  cases found : s.objects id with
  | none =>
    rw [inv.unowned id found i] at first
    simp at first
  | some o =>
    obtain ⟨stage, torn, placed⟩ := inv.placed id o found
    refine ⟨o, stage, torn, rfl, placed, ?_⟩
    -- The queue of the base loop may still hold a removal that `~TcpServer` has overtaken.
    by_cases constrained : torn = true → i = 0 → o.home = 0
    · right
      rw [← placed.business i constrained, first]
      exact ⟨_, rfl⟩
    · left
      push Not at constrained
      obtain ⟨torn_eq, rfl, remote⟩ := constrained
      refine ⟨placed.leftover torn_eq remote cb ?_, placed.dying torn_eq⟩
      rw [first]
      simp

/-- What is queued after the functor was taken, when the stage says that it is next. -/
theorem Placed.popped {cb : Functor} {batch : List Functor} (placed : Placed s id o stage torn)
    (queue : (s.workers i).batch = cb :: batch) (own : cb.concerns id = true) {j : Nat}
    (constrained : torn = true → j = 0 → o.home = 0) {rest : List Functor}
    (split : stage.functors torn o.home id j = (if j = i then [cb] else []) ++ rest) :
    (s.popped i cb batch).business j id = rest := by
  have whole := Server.business_popped queue j id
  rw [placed.business j constrained, split] at whole
  simp only [own, and_true] at whole
  exact (List.append_cancel_left whole).symm

theorem Placed.popped_leftover {cb : Functor} {batch : List Functor}
    (placed : Placed s id o stage torn) (queue : (s.workers i).batch = cb :: batch)
    (torn_eq : torn = true) (remote : o.home ≠ 0) :
    ∀ cb' ∈ (s.popped i cb batch).business 0 id, cb' = .removeConnectionInLoop id := by
  intro cb' member
  apply placed.leftover torn_eq remote cb'
  rw [Server.business_popped queue]
  exact List.mem_append_right _ member

theorem Inv.functor_established {batch : List Functor} (inv : Inv s)
    (queue : (s.workers i).batch = .connectEstablished id :: batch) :
    ∃ t, (s.popped i (.connectEstablished id) batch).connectEstablished id = .ok t ∧ Inv t := by
  have own : (Functor.connectEstablished id).concerns id = true := by simp [Functor.concerns]
  obtain ⟨o, stage, torn, found, placed, ⟨alien, -⟩ | ⟨rest, head⟩⟩ := inv.head queue own
  · cases alien
  obtain ⟨-, rfl, rfl⟩ | ⟨alien, -⟩ | ⟨alien, -⟩ := Stage.functors_head head
  rotate_left
  · cases alien
  · cases alien
  have pops := Server.popped_moves found placed.registered queue rfl
  obtain ⟨t, o', ok, moves, shape, connections, business, log⟩ :=
    (pops.held placed.toHeld).establish pops.here placed.shape
  have all := pops.trans moves
  have opened : Placed t id o' .open torn := by
    refine all.placed placed.toHeld shape (by simp) (by simp) ?_ ?_ ?_ placed.dying ?_
    · rw [connections]
      exact placed.entry
    · intro j constrained
      rw [business j]
      exact placed.popped queue own constrained Stage.functors_waiting
    · rw [business 0]
      exact placed.popped_leftover queue
    · have before : (s.popped o.home (.connectEstablished id) batch).log id = s.log id := rfl
      rw [log, before, phaseOf_append placed.log]
      rfl
  exact ⟨t, ok, inv.move found placed all opened (by simp)⟩

theorem Inv.functor_removal {batch : List Functor} (inv : Inv s) (alive : s.alive = true)
    (queue : (s.workers i).batch = .removeConnectionInLoop id :: batch) :
    i = 0 ∧ ∃ t, (s.popped i (.removeConnectionInLoop id) batch).removeConnectionInLoop id = .ok t ∧
      Inv t := by
  have own : (Functor.removeConnectionInLoop id).concerns id = true := by simp [Functor.concerns]
  obtain ⟨o, stage, torn, found, placed, ⟨-, dead⟩ | ⟨rest, head⟩⟩ := inv.head queue own
  · rw [alive] at dead
    cases dead
  obtain ⟨alien, -⟩ | ⟨-, rfl, rfl, rfl⟩ | ⟨alien, -⟩ := Stage.functors_head head
  · cases alien
  · have pops := Server.popped_moves found placed.registered queue rfl
    refine ⟨rfl, _, Server.removeConnectionInLoop_eq pops.here placed.entry, ?_⟩
    refine inv.erase found placed pops placed.shape ?_ placed.log
    intro j
    exact placed.popped queue own (by simp) (by simp [Stage.functors_closed])
  · cases alien

/-- Where a `connect_destoryed` that is next finds its connection, and where it leaves it. -/
theorem Inv.functor_destoryed {batch : List Functor} (inv : Inv s)
    (calling : (s.workers i).loop.callingPendingFunctors = true)
    (queue : (s.workers i).batch = .connectDestoryed id :: batch) :
    ∃ o stage torn, s.objects id = some o ∧ Placed s id o stage torn ∧ i = o.home ∧
      stage.Destroyable torn false ∧
      ∀ t, (s.popped i (.connectDestoryed id) batch).connectDestoryed id = .ok t →
        ∃ o', Moves s t id o o' ∧ Placed t id o' .gone torn := by
  have own : (Functor.connectDestoryed id).concerns id = true := by simp [Functor.concerns]
  obtain ⟨o, stage, torn, found, placed, ⟨alien, -⟩ | ⟨rest, head⟩⟩ := inv.head queue own
  · cases alien
  obtain ⟨alien, -⟩ | ⟨alien, -⟩ | ⟨-, rfl, due⟩ := Stage.functors_head head
  · cases alien
  · cases alien
  have destroyable : stage.Destroyable torn false := by
    -- Queued by `remove_connection_in_loop`, or by `~TcpServer`.
    rcases due with rfl | torn_eq
    · refine .inl ⟨rfl, ?_, rfl⟩
      by_contra torn_eq
      exact placed.unerased (by simpa using torn_eq) rfl
    · exact .inr torn_eq
  have pops := Server.popped_moves found placed.registered queue rfl
  -- Functors run outside the dispatch, so `event_handing_` is not set.
  have idle : ((s.popped o.home (.connectDestoryed id) batch).workers o.home).loop.eventHanding =
      false := (pops.eventHanding o.home).trans (inv.calling o.home calling)
  refine ⟨o, stage, torn, found, placed, rfl, destroyable, fun t ok => ?_⟩
  refine placed.destroy pops rfl ?_ ?_ (placed.popped_leftover queue) placed.dying
    (idle ▸ destroyable) ok
  · have entry := placed.entry
    rw [if_neg] at entry
    · exact entry
    · rintro ⟨mapped, whole⟩
      rcases destroyable with ⟨rfl, -⟩ | ⟨torn_eq, -⟩
      · simp [Stage.mapped] at mapped
      · rw [whole] at torn_eq
        cases torn_eq
  · intro j constrained
    apply placed.popped queue own constrained
    rcases destroyable with ⟨rfl, -⟩ | ⟨rfl, rfl | rfl⟩
    · simp [Stage.functors_erased]
    · simp [Stage.functors_open]
    · simp [Stage.functors_closed]

/-! ### `new_connection` -/

namespace Server

/-- The object that `new_connection` makes. -/
def newObject (s : Server) (sockfd : Nat) : Object where
  conn := TcpConnection.accepted s.nextId sockfd s.hasConnectionCallback s.hasMessageCallback
    s.hasWriteCompleteCallback true
  home := s.getNextLoop.1

/-- `s` once `new_connection` has made the object and the entry. -/
def accepted (s : Server) (sockfd : Nat) : Server :=
  { s with
    next := s.getNextLoop.2
    nextId := s.nextId + 1
    objects := Function.update s.objects s.nextId (some (s.newObject sockfd))
    connections := Function.update s.connections sockfd (some s.nextId)
    opened := Function.update s.opened sockfd true }

theorem newConnection_eq {sockfd : Nat} (absent : s.connections sockfd = none) :
    s.newConnection sockfd =
      if s.getNextLoop.1 = 0 then (s.accepted sockfd).connectEstablished s.nextId
      else .ok ((s.accepted sockfd).push s.getNextLoop.1 false (.connectEstablished s.nextId)) := by
  simp only [newConnection, Checked.require_pos _ absent, Checked.ok_bind]
  rfl

theorem accepted_touches (sockfd : Nat) :
    Touches s (s.accepted sockfd) s.nextId sockfd :=
  { Touches.refl s s.nextId sockfd with
    objects := fun _ other => Function.update_of_ne other _ _
    connections := fun _ other => Function.update_of_ne other _ _
    opened := fun _ other => Function.update_of_ne other _ _ }

theorem getNextLoop_spec (pool : s.threads = 0 ∨ s.next < s.threads) :
    s.getNextLoop.1 ≤ s.threads ∧ (s.threads = 0 ∨ s.getNextLoop.2 < s.threads) := by
  unfold getNextLoop
  split
  next none => simp [none]
  next some =>
    -- `next_` is an index of the pool, and the loops of the pool are numbered from 1.
    have bound : s.next < s.threads := pool.resolve_left some
    refine ⟨bound, .inr ?_⟩
    simp only
    split <;> omega

end Server

/-- A descriptor that is not open is not in the map. -/
theorem Inv.unmapped (inv : Inv s) {sockfd : Nat} (closed : s.opened sockfd = false) :
    s.connections sockfd = none := by
  cases entry : s.connections sockfd with
  | none => rfl
  | some id =>
    obtain ⟨o, found, rfl⟩ := inv.mapped sockfd id entry
    rw [inv.opened id o found] at closed
    cases closed

theorem Inv.accepted_held (inv : Inv s) {sockfd : Nat} (closed : s.opened sockfd = false) :
    Held (s.accepted sockfd) s.nextId (s.newObject sockfd) where
  ident := rfl
  channelFd := rfl
  connectionCallback := inv.connectionCallback
  closeCallback := rfl
  home := (Server.getNextLoop_spec inv.pool).1
  registered := inv.unpolled sockfd closed _
  elsewhere j _ := inv.unpolled sockfd closed j

/-- Whatever moves the new object keeps the invariant: it shares its descriptor with no other. -/
theorem Inv.accepted_move {o' : Object} (inv : Inv s) {sockfd : Nat}
    (closed : s.opened sockfd = false)
    (moves : Moves (s.accepted sockfd) t s.nextId (s.newObject sockfd) o')
    (placed : Placed t s.nextId o' stage torn) : Inv t := by
  have absent := (inv.unborn s.nextId (Nat.le_refl _)).1
  have touches := (Server.accepted_touches sockfd).trans moves.toTouches
  refine touches.inv inv ?_ moves.here moves.fd ?_ placed ?_ ?_ ?_ ?_ ?_
  · intro id' o₁ found
    constructor
    · rintro rfl
      rw [absent] at found
      cases found
    · rintro rfl
      rw [inv.opened id' o₁ found] at closed
      cases closed
  · rw [moves.allOpened]
    exact Function.update_self _ _ _
  · rw [moves.threads, moves.next]
    exact (Server.getNextLoop_spec inv.pool).2
  · rw [moves.nextId]
    exact Nat.lt_succ_self _
  · rw [moves.nextId]
    exact Nat.le_succ _
  · intro id' other early
    rw [moves.nextId] at early
    exact Nat.lt_of_le_of_ne (Nat.le_of_lt_succ early) other
  · intro j active
    -- Nobody can have reported a channel that did not exist.
    exact absurd (inv.dispatched j _ active).1 (Nat.lt_irrefl _)

/-- **Accepting**: the assertion of `new_connection` holds, and the connection waits for its
`connect_established` or, on the base loop, is open at once. -/
theorem Inv.accept (inv : Inv s) {sockfd : Nat} (closed : s.opened sockfd = false) :
    ∃ t, s.newConnection sockfd = .ok t ∧ Inv t := by
  obtain ⟨absent, unlogged⟩ := inv.unborn s.nextId (Nat.le_refl _)
  have held := inv.accepted_held closed
  have here : (s.accepted sockfd).objects s.nextId = some (s.newObject sockfd) :=
    Function.update_self _ _ _
  have entry : (s.accepted sockfd).connections sockfd = some s.nextId :=
    Function.update_self _ _ _
  have idle : ∀ j, (s.accepted sockfd).business j s.nextId = [] := inv.unowned _ absent
  have log : (s.accepted sockfd).log s.nextId = [] := unlogged
  rw [Server.newConnection_eq (inv.unmapped closed)]
  split
  next base =>
    obtain ⟨t, o', ok, moves, shape, connections, business, history⟩ :=
      held.establish here ⟨rfl, rfl, rfl⟩
    have placed : Placed t s.nextId o' .open false := by
      refine moves.placed held shape (by simp) (by simp) ?_ ?_ (by simp) (by simp) ?_
      · rw [connections]
        exact entry
      · intro j _
        rw [business j, idle j]
        simp [Stage.functors_open]
      · rw [history, log]
        rfl
    exact ⟨t, ok, inv.accepted_move closed moves placed⟩
  next io =>
    have pushes := Server.push_moves here held.registered s.getNextLoop.1 false
      (.connectEstablished s.nextId) rfl
    have waiting : Placed ((s.accepted sockfd).push s.getNextLoop.1 false
        (.connectEstablished s.nextId)) s.nextId (s.newObject sockfd) .waiting false := by
      refine pushes.placed held ⟨rfl, rfl, rfl⟩ (fun _ => io) (by simp) entry ?_ (by simp)
        (by simp) ?_
      · intro j _
        rw [Server.business_push, idle j]
        simp [Stage.functors_waiting, Stage.functors_open, Functor.concerns, Server.newObject]
      · rw [Server.log_push, log]
        rfl
    exact ⟨_, rfl, inv.accepted_move closed pushes waiting⟩

end Clia.Net
