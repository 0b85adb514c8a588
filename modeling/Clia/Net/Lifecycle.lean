import Clia.Net.ServerRun
import Clia.Net.History

/-!
# The life of a connection

What a run of the server shows of one connection while the server is alive.

## Main result

`Server.sound_iff_timely`: no assertion of `tcp_server.cc` fails, no queued function fails, and
every connection is registered under a free descriptor, goes up once, goes down at most once and
is destroyed at most once, after its entry and outside the handling of events. Messages come
after the up callback. That none comes after the down callback is true of exactly the runs in
which no read callback with bytes follows a close in the same dispatch.

## Proof strategy

The invariant gives the phase of every history, and the phase counts its events. Only messages
are left, which phases do not see: a step either calls no message callback, or it is a read of a
connection whose stage says whether the down callback has been.
-/

namespace Clia.Net

open Reactor LabelledRun

/-! ### Histories of a server that is alive -/

theorem Inv.regular {s : Server} (inv : Inv s) (alive : s.alive = true) (id : Nat) :
    Regular (s.log id) := by
  cases found : s.objects id with
  | some o =>
    obtain ⟨stage, torn, placed⟩ := inv.placed id o found
    cases placed.whole alive
    apply regular_of_phase placed.log
    · cases stage <;> rfl
    · cases stage <;> simp [Stage.phase]
  | none =>
    by_cases early : id < s.nextId
    · rcases inv.released id found early with gone | ⟨-, dead⟩
      · exact regular_of_phase gone rfl (by simp)
      · rw [alive] at dead
        cases dead
    · -- An address that was never used has an empty history.
      rw [(inv.unborn id (Nat.not_lt.mp early)).2]
      have created : phaseOf [] = some .created := rfl
      exact regular_of_phase created rfl (by simp)

/-- The up callback has been called of every connection past `kConnecting`, the down callback of
every one in `kDisconnected`. -/
theorem Placed.callbacks {s : Server} {id : Nat} {o : Object} {stage : Stage} {torn : Bool}
    (placed : Placed s id o stage torn) (started : o.conn.state ≠ .kConnecting) :
    Event.up ∈ s.log id ∧ (Event.down ∈ s.log id ↔ o.conn.state = .kDisconnected) := by
  have counted := counted_of_phase placed.log
  have past : stage ≠ .waiting := fun waiting => started (placed.shape.connecting_iff.mpr waiting)
  -- Both sides of each statement are read off the stage.
  rw [← List.count_pos_iff, ← List.count_pos_iff, counted.ups, counted.downs,
    placed.shape.disconnected_iff]
  cases stage with
  | waiting => exact absurd rfl past
  | «open» => simp [Stage.phase, Phase.ups, Phase.downs]
  | closed => simp [Stage.phase, Phase.ups, Phase.downs]
  | erased => simp [Stage.phase, Phase.ups, Phase.downs]
  | gone => cases torn <;> simp [Stage.phase, Phase.ups, Phase.downs]

/-! ### Steps without messages -/

/-- `t` comes from `s` without a message callback, and the server stays alive or not. -/
structure Silent (s t : Server) : Prop where
  alive : t.alive = s.alive
  log : ∀ id, ∃ events, t.log id = s.log id ++ events ∧ Event.message ∉ events

namespace Silent

variable {s t u : Server} {id i : Nat} {o : Object}

theorem refl (s : Server) : Silent s s := ⟨rfl, fun _ => ⟨[], by simp, by simp⟩⟩

theorem trans (first : Silent s t) (second : Silent t u) : Silent s u := by
  refine ⟨second.alive.trans first.alive, fun id => ?_⟩
  obtain ⟨early, eq, quiet⟩ := first.log id
  obtain ⟨late, eq', quiet'⟩ := second.log id
  exact ⟨early ++ late, by rw [eq', eq, List.append_assoc], by simp [quiet, quiet']⟩

theorem of_log (alive : t.alive = s.alive) (log : ∀ id, t.log id = s.log id) : Silent s t :=
  ⟨alive, fun id => ⟨[], by simp [log], by simp⟩⟩

theorem record {events : List Event} (quiet : Event.message ∉ events) :
    Silent s (s.record id events) := by
  refine ⟨rfl, fun id' => ?_⟩
  by_cases own : id' = id
  · subst own
    exact ⟨events, Server.log_record_self events, quiet⟩
  · exact ⟨[], by simp [Server.log_record_other events own], by simp⟩

theorem commit {y : Session} (quiet : .messageCallback ∉ y.trace) :
    Silent s (s.commit id o y) := by
  have recorded : Silent s (s.record id (y.trace.map .effect)) :=
    record (by simpa [Event.message] using quiet)
  exact ⟨recorded.alive, recorded.log⟩

theorem removeConnectionInLoop (ok : s.removeConnectionInLoop id = .ok t) : Silent s t := by
  unfold Server.removeConnectionInLoop at ok
  split at ok
  · cases ok
  next o _ =>
    obtain ⟨_, _, ok⟩ := Checked.bind_ok_iff.mp ok
    cases ok
    have erased : Silent (s.unmapped o.conn.fd) ((s.unmapped o.conn.fd).record id [.erased]) :=
      record (by simp [Event.message])
    exact ⟨erased.alive, erased.log⟩

theorem removeConnection (ok : s.removeConnection id o = .ok t) : Silent s t := by
  unfold Server.removeConnection at ok
  split at ok
  · cases ok
  · split at ok
    · exact removeConnectionInLoop ok
    · cases ok
      exact of_log rfl fun _ => rfl

theorem onConnection {call : Session → Except Fault Session}
    (quiet : ∀ o y, s.objects id = some o → call (s.session o) = .ok y →
      .messageCallback ∉ y.trace)
    (ok : s.onConnection id call = .ok t) : Silent s t := by
  cases found : s.objects id with
  | none =>
    simp only [Server.onConnection, found] at ok
    cases ok
  | some o =>
    -- The function itself, and `remove_connection` behind it if it closed the connection.
    obtain ⟨y, called, ⟨-, removed⟩ | ⟨-, rfl⟩⟩ := Server.onConnection_ok found ok
    · exact (commit (quiet o y found called)).trans (removeConnection removed)
    · exact commit (quiet o y found called)

end Silent

/-! ### Messages of a call -/

theorem OutputStep.silent {x y : Session} (step : OutputStep x y)
    (fresh : .messageCallback ∉ x.trace) : .messageCallback ∉ y.trace := by
  obtain ⟨effects, eq, output⟩ := step.output
  rw [eq, List.mem_append, not_or]
  exact ⟨fresh, fun member => output _ member⟩

theorem CloseStep.silent {x y : Session} (step : CloseStep x y)
    (fresh : .messageCallback ∉ x.trace) : .messageCallback ∉ y.trace := by
  rw [step.effects]
  simpa using fresh

namespace Session

variable {x y : Session}

theorem onChannel_trace {call : Loop → ChannelPtr → Channel → Except Fault (Loop × Channel)}
    (ok : x.onChannel call = .ok y) : y.trace = x.trace := by
  obtain ⟨_, _, ok⟩ := Checked.bind_ok_iff.mp ok
  cases ok
  rfl

theorem connectionCallback_silent (fresh : .messageCallback ∉ x.trace) :
    .messageCallback ∉ x.connectionCallback.trace := by
  rw [connectionCallback_trace]
  split <;> simpa using fresh

theorem connectEstablished_silent (fresh : .messageCallback ∉ x.trace)
    (ok : x.connectEstablished = .ok y) : .messageCallback ∉ y.trace := by
  obtain ⟨_, _, ok⟩ := Checked.bind_ok_iff.mp ok
  obtain ⟨z, enabled, ok⟩ := Checked.bind_ok_iff.mp ok
  cases ok
  apply connectionCallback_silent
  rw [onChannel_trace enabled]
  exact fresh

theorem connectDestoryed_silent (fresh : .messageCallback ∉ x.trace)
    (ok : x.connectDestoryed = .ok y) : .messageCallback ∉ y.trace := by
  unfold connectDestoryed at ok
  split at ok
  · obtain ⟨z, disabled, removed⟩ := Checked.bind_ok_iff.mp ok
    rw [onChannel_trace removed]
    apply connectionCallback_silent
    rw [onChannel_trace disabled]
    exact fresh
  · rw [onChannel_trace ok]
    exact fresh

theorem shutdown_silent (registered : x.IsRegistered) (fresh : .messageCallback ∉ x.trace) :
    .messageCallback ∉ x.shutdown.trace := by
  unfold shutdown
  split
  · have half : (x.setState .kDisconnecting).IsRegistered := registered
    exact (shutdownInLoop_output half).silent fresh
  · exact fresh

theorem handleRead_delivers {result : ReadResult} {n : Int} {inputBuffer : Buffer}
    (received : x.conn.inputBuffer.readFd result = .ok (n, inputBuffer)) (bytes : n > 0)
    (set : x.conn.hasMessageCallback = true) :
    x.handleRead result = .ok ((x.withInput inputBuffer).emit .messageCallback) := by
  simp [handleRead, received, bytes, withInput, set]

/-- A read calls the message callback exactly if it got bytes and the callback is set. -/
theorem handleRead_messages {result : ReadResult} (registered : x.IsRegistered)
    (connection : x.conn.hasConnectionCallback = true) (close : x.conn.hasCloseCallback = true)
    (fresh : .messageCallback ∉ x.trace) (ok : x.handleRead result = .ok y) :
    ∃ n inputBuffer, x.conn.inputBuffer.readFd result = .ok (n, inputBuffer) ∧
      ((n > 0 ∧ x.conn.hasMessageCallback = true ∧
          y = (x.withInput inputBuffer).emit .messageCallback) ∨
        (¬(n > 0 ∧ x.conn.hasMessageCallback = true) ∧ .messageCallback ∉ y.trace)) := by
  obtain ⟨n, inputBuffer, received, outcome⟩ := handleRead_inv ok
  refine ⟨n, inputBuffer, received, ?_⟩
  rcases outcome with ⟨bytes, rfl⟩ | ⟨ended, closed⟩ | ⟨negative, rfl⟩
  · split
    next set => exact .inl ⟨bytes, set, rfl⟩
    next unset => exact .inr ⟨fun both => unset both.2, fresh⟩
  · -- The peer has closed.
    have closes := handleClose_closes (x := x.withInput inputBuffer) registered connection close closed
    exact .inr ⟨by omega, closes.silent fresh⟩
  · exact .inr ⟨by omega, fresh⟩

end Session

/-- The connection whose message callback the step calls. -/
def Server.delivery (s : Server) : ServerStep → Option (Nat × Object)
  | .callback i (.read result) =>
    match (s.workers i).todo, (s.workers i).loop.currentActiveChannel with
    | .read :: _, some (.connection id) =>
      match s.objects id with
      | some o =>
        match o.conn.inputBuffer.readFd result with
        | .ok (n, _) => if n > 0 ∧ o.conn.hasMessageCallback = true then some (id, o) else none
        | .error _ => none
      | none => none
    | _, _ => none
  | _ => none

namespace Silent

variable {s t : Server} {id i : Nat}

theorem connectEstablished (ok : s.connectEstablished id = .ok t) : Silent s t := by
  unfold Server.connectEstablished at ok
  split at ok
  · cases ok
  · refine (record (by simp [Event.message])).trans (onConnection ?_ ok)
    exact fun _ _ _ => Session.connectEstablished_silent (by simp [Server.session])

theorem connectDestoryed (ok : s.connectDestoryed id = .ok t) : Silent s t := by
  unfold Server.connectDestoryed at ok
  split at ok
  · cases ok
  · refine (record (by simp [Event.message])).trans (onConnection ?_ ok)
    exact fun _ _ _ => Session.connectDestoryed_silent (by simp [Server.session])

theorem newConnection {sockfd : Nat} (ok : s.newConnection sockfd = .ok t) : Silent s t := by
  obtain ⟨_, allowed, _⟩ := Checked.bind_ok_iff.mp ok
  rw [Server.newConnection_eq (Checked.require_ok_iff.mp allowed)] at ok
  have made : Silent s (s.accepted sockfd) := of_log rfl fun _ => rfl
  split at ok
  · exact made.trans (connectEstablished ok)
  · cases ok
    exact made.trans (of_log rfl fun _ => rfl)

theorem runFunctor {cb : Functor} (ok : s.runFunctor i cb = .ok t) : Silent s t := by
  cases cb with
  | connectEstablished id => exact connectEstablished ok
  | removeConnectionInLoop id =>
    simp only [Server.runFunctor] at ok
    split at ok
    · cases ok
    · exact removeConnectionInLoop ok
  | connectDestoryed id => exact connectDestoryed ok
  | writeComplete id =>
    cases ok
    exact refl s
  | sendInLoop id data => cases ok
  | shutdownInLoop id => cases ok

end Silent

/-- The delivery of a read callback. -/
theorem Server.delivery_read {s : Server} {id i : Nat} {o : Object} {result : ReadResult}
    {todo : List Channel.Callback} {n : Int} {inputBuffer : Buffer}
    (queue : (s.workers i).todo = .read :: todo)
    (current : (s.workers i).loop.currentActiveChannel = some (.connection id))
    (found : s.objects id = some o)
    (received : o.conn.inputBuffer.readFd result = .ok (n, inputBuffer)) :
    s.delivery (.callback i (.read result)) =
      if n > 0 ∧ o.conn.hasMessageCallback = true then some (id, o) else none := by
  simp only [Server.delivery, queue, current, found, received]

/-- A callback other than a read with bytes. -/
theorem Silent.runCallback {s t : Server} {i : Nat} {callback : Channel.Callback} {io : Io}
    (inv : Inv s)
    (quiet : ∀ id o result n inputBuffer, callback = .read → io = .read result →
      (s.workers i).loop.currentActiveChannel = some (.connection id) → s.objects id = some o →
      o.conn.inputBuffer.readFd result = .ok (n, inputBuffer) →
      ¬(n > 0 ∧ o.conn.hasMessageCallback = true))
    (ok : s.runCallback i callback io = .ok t) : Silent s t := by
  unfold Server.runCallback at ok
  split at ok
  next =>
    refine onConnection (fun o y found called => ?_) ok
    obtain ⟨stage, torn, placed⟩ := inv.placed _ o found
    exact (Session.handleClose_closes placed.registered placed.connectionCallback
      placed.closeCallback called).silent (by simp [Server.session])
  next =>
    refine onConnection (fun o y found called => ?_) ok
    cases called
    simp [Session.handleError, Server.session]
  next id result active =>
    refine onConnection (fun o y found called => ?_) ok
    obtain ⟨stage, torn, placed⟩ := inv.placed _ o found
    obtain ⟨n, inputBuffer, received, ⟨bytes, set, -⟩ | ⟨-, silent⟩⟩ :=
      Session.handleRead_messages placed.registered placed.connectionCallback
        placed.closeCallback (by simp [Server.session]) called
    · exact absurd ⟨bytes, set⟩ (quiet id o result n inputBuffer rfl rfl active found received)
    · exact silent
  next =>
    refine onConnection (fun o y found called => ?_) ok
    obtain ⟨stage, torn, placed⟩ := inv.placed _ o found
    exact (Session.handleWrite_output placed.registered called).silent (by simp [Server.session])
  next =>
    obtain ⟨_, _, ok⟩ := Checked.bind_ok_iff.mp ok
    exact newConnection ok
  all_goals first | cases ok; exact of_log rfl fun _ => rfl | cases ok

/-- A step without a delivery calls no message callback. -/
theorem Server.step_silent {s t : Server} {l : ServerStep} (inv : Inv s) (running : l ≠ .teardown)
    (quiet : s.delivery l = none) (taken : s.step l = .ok t) : Silent s t := by
  cases l with
  | poll i active =>
    obtain ⟨_, _, ok⟩ := Checked.bind_ok_iff.mp taken
    cases ok
    exact Silent.of_log rfl fun _ => rfl
  | nextChannel i =>
    simp only [Server.step] at taken
    split at taken
    · cases taken
      exact Silent.of_log rfl fun _ => rfl
    · cases taken
  | callback i io =>
    simp only [Server.step] at taken
    split at taken
    next callback todo queue =>
      have popped : Silent s (s.setWorker i { s.workers i with todo := todo }) :=
        Silent.of_log rfl fun _ => rfl
      refine popped.trans (Silent.runCallback (inv.todo todo) ?_ taken)
      -- A read with bytes would have been a delivery.
      rintro id o result n inputBuffer rfl rfl current found received delivers
      rw [Server.setWorker_self] at current
      rw [Server.delivery_read queue current found received, if_pos delivers] at quiet
      cases quiet
    next => cases taken
  | endDispatch i =>
    obtain ⟨_, _, ok⟩ := Checked.bind_ok_iff.mp taken
    cases ok
    exact Silent.of_log rfl fun _ => rfl
  | swap i =>
    obtain ⟨_, _, ok⟩ := Checked.bind_ok_iff.mp taken
    cases ok
    exact Silent.of_log rfl fun _ => rfl
  | functor i =>
    simp only [Server.step] at taken
    split at taken
    next cb batch _ _ =>
      have popped : Silent s (s.popped i cb batch) := Silent.of_log rfl fun _ => rfl
      exact popped.trans (Silent.runFunctor taken)
    next => cases taken
  | finish i =>
    obtain ⟨_, _, ok⟩ := Checked.bind_ok_iff.mp taken
    cases ok
    exact Silent.of_log rfl fun _ => rfl
  | send id data result =>
    simp only [Server.step] at taken
    refine Silent.onConnection (fun o y found called => ?_) taken
    obtain ⟨stage, torn, placed⟩ := inv.placed _ o found
    exact (Session.send_output placed.registered called).silent (by simp [Server.session])
  | shutdown id =>
    simp only [Server.step] at taken
    refine Silent.onConnection (fun o y found called => ?_) taken
    obtain ⟨stage, torn, placed⟩ := inv.placed _ o found
    cases called
    exact Session.shutdown_silent placed.registered (by simp [Server.session])
  | retrieveInput id len =>
    simp only [Server.step] at taken
    refine Silent.onConnection (fun o y found called => ?_) taken
    obtain ⟨inputBuffer, _, called⟩ := Checked.bind_ok_iff.mp called
    cases called
    simp [Session.withInput, Server.session]
  | release id =>
    simp only [Server.step] at taken
    split at taken
    · cases taken
    · obtain ⟨_, _, ok⟩ := Checked.bind_ok_iff.mp taken
      obtain ⟨_, _, ok⟩ := Checked.bind_ok_iff.mp ok
      cases ok
      exact Silent.of_log rfl fun _ => rfl
  | teardown => exact absurd rfl running
  | destroy sockfd =>
    simp only [Server.step] at taken
    split at taken
    next id dead entry =>
      have unmapped : Silent s (s.unmapped sockfd) := Silent.of_log rfl fun _ => rfl
      split at taken
      · cases taken
      · split at taken
        · exact unmapped.trans (Silent.connectDestoryed taken)
        · cases taken
          exact unmapped.trans (Silent.of_log rfl fun _ => rfl)
    next => cases taken

theorem Server.delivery_some {s : Server} {l : ServerStep} {id : Nat} {o : Object}
    (delivers : s.delivery l = some (id, o)) :
    ∃ i result todo n inputBuffer, l = .callback i (.read result) ∧
      (s.workers i).todo = .read :: todo ∧
      (s.workers i).loop.currentActiveChannel = some (.connection id) ∧ s.objects id = some o ∧
      o.conn.inputBuffer.readFd result = .ok (n, inputBuffer) ∧ n > 0 ∧
      o.conn.hasMessageCallback = true := by
  unfold Server.delivery at delivers
  split at delivers
  next i result =>
    split at delivers
    next id' queue current =>
      split at delivers
      next o' found =>
        split at delivers
        next n inputBuffer received =>
          split at delivers
          next both =>
            cases delivers
            exact ⟨i, result, _, n, inputBuffer, rfl, queue, current, found, received, both⟩
          next => cases delivers
        next => cases delivers
      next => cases delivers
    next => cases delivers
  next => cases delivers

/-- A step with a delivery goes through, and it records one message and nothing else. Its
connection has been up. -/
theorem Server.step_delivers {s : Server} {l : ServerStep} {id : Nat} {o : Object} (inv : Inv s)
    (delivers : s.delivery l = some (id, o)) :
    s.objects id = some o ∧ o.conn.state ≠ .kConnecting ∧ ∃ t, s.step l = .ok t ∧
      t.alive = s.alive ∧ t.log id = s.log id ++ [Event.message] ∧
      ∀ id', id' ≠ id → t.log id' = s.log id' := by
  obtain ⟨i, result, todo, n, inputBuffer, rfl, queue, current, found, received, bytes, set⟩ :=
    Server.delivery_some delivers
  refine ⟨found, (inv.dispatched i id (.inr current)).2 o found, ?_⟩
  have current' : ((s.setWorker i { s.workers i with todo := todo }).workers
      i).loop.currentActiveChannel = some (.connection id) := by
    rw [Server.setWorker_self]
    exact current
  simp only [Server.step, queue]
  -- `r` is the state in which the callback has left the list.
  generalize popped : s.setWorker i { s.workers i with todo := todo } = r at current' ⊢
  have here : r.objects id = some o := popped ▸ found
  have logs : ∀ id', r.log id' = s.log id' := fun _ => popped ▸ rfl
  have called : (r.session o).handleRead result =
      .ok (((r.session o).withInput inputBuffer).emit .messageCallback) :=
    Session.handleRead_delivers received bytes set
  have staying : .closeCallback ∉
      (((r.session o).withInput inputBuffer).emit .messageCallback).trace := by
    simp [Session.emit, Session.withInput, Server.session]
  refine ⟨r.commit id o (((r.session o).withInput inputBuffer).emit .messageCallback),
    ?_, popped ▸ rfl, ?_, ?_⟩
  · simp only [Server.runCallback, current', Server.onConnection, here, called, if_neg staying]
  · rw [Server.log_commit_self, logs]
    rfl
  · intro id' other
    rw [← logs]
    exact Server.log_record_other _ other

/-! ### Failures -/

namespace Inv

variable {s : Server} {id i : Nat} {f : ServerFault}

/-- The close callback of a server that is alive goes through. -/
theorem removeConnection_ok {o : Object} {y : Session} (inv : Inv s) (alive : s.alive = true)
    (found : s.objects id = some o) (step : CloseStep (s.session o) y) :
    ∃ t, (s.commit id o y).removeConnection id o = .ok t := by
  obtain ⟨stage, torn, placed⟩ := inv.placed id o found
  cases placed.shape.open_of_closable step.closable
  cases placed.whole alive
  have commits := Server.commit_moves id placed.channelFd step.toKeeps step.registered
  have entry : (s.commit id o y).connections y.conn.fd = some id := by
    rw [step.fd]
    exact placed.entry
  exact ⟨_, Server.removeConnection_eq (commits.alive.trans alive) commits.here entry rfl⟩

theorem onConnection_error {call : Session → Except Fault Session} (inv : Inv s)
    (alive : s.alive = true) (staged : Staged call)
    (failed : s.onConnection id call = .error f) : ∃ fault, f = .connection id fault := by
  cases found : s.objects id with
  | none =>
    simp only [Server.onConnection, found] at failed
    cases failed
    exact ⟨_, rfl⟩
  | some o =>
    obtain ⟨stage, torn, placed⟩ := inv.placed id o found
    simp only [Server.onConnection, found] at failed
    split at failed
    next fault _ =>
      cases failed
      exact ⟨fault, rfl⟩
    next y called =>
      split at failed
      next closing =>
        rcases staged _ y placed.registered placed.connectionCallback placed.closeCallback called
          with neutral | closes
        · obtain ⟨effects, eq, own⟩ := neutral.effects
          have trace : y.trace = effects := eq
          rw [trace] at closing
          exact absurd trivial (own _ closing)
        · obtain ⟨t, ok⟩ := inv.removeConnection_ok alive found closes
          rw [ok] at failed
          cases failed
      next => cases failed

/-- While the server is alive, a functor of its own that is next always goes through. -/
theorem runFunctor_error {cb : Functor} {batch : List Functor} (inv : Inv s)
    (alive : s.alive = true) (calling : (s.workers i).loop.callingPendingFunctors = true)
    (queue : (s.workers i).batch = cb :: batch)
    (failed : (s.popped i cb batch).runFunctor i cb = .error f) : f = .disabled := by
  cases cb with
  | connectEstablished id =>
    obtain ⟨t, ran, -⟩ := inv.functor_established queue
    rw [Server.runFunctor, ran] at failed
    cases failed
  | removeConnectionInLoop id =>
    obtain ⟨rfl, t, ran, -⟩ := inv.functor_removal alive queue
    have alive' : (s.popped 0 (.removeConnectionInLoop id) batch).alive = true := alive
    simp only [Server.runFunctor, alive', ran] at failed
    simp at failed
  | connectDestoryed id =>
    obtain ⟨o, stage, torn, found, placed, rfl, destroyable, -⟩ :=
      inv.functor_destoryed calling queue
    cases placed.whole alive
    rcases destroyable with ⟨rfl, -⟩ | ⟨torn_eq, -⟩
    · have pops := Server.popped_moves found placed.registered queue rfl
      -- An erased connection has no interest, and functors run outside the dispatch.
      have idle : ((s.popped o.home (.connectDestoryed id) batch).session o).loop.eventHanding =
          false := (pops.eventHanding o.home).trans (inv.calling o.home calling)
      obtain ⟨down, index, quiet⟩ := placed.shape
      have ok := (Session.connectDestoryed_iff pops.registered).mpr
        ⟨.inr ⟨by simp [Server.session, index], quiet⟩, by simp [Session.Inactive, idle], rfl⟩
      have ran := ((pops.held placed.toHeld).connectDestoryed_iff pops.here).mpr ⟨_, ok, rfl⟩
      rw [Server.runFunctor, ran] at failed
      cases failed
    · cases torn_eq
  | writeComplete id => cases failed
  | sendInLoop id data =>
    cases failed
    rfl
  | shutdownInLoop id =>
    cases failed
    rfl

theorem runCallback_error {callback : Channel.Callback} {io : Io} (inv : Inv s)
    (alive : s.alive = true) (failed : s.runCallback i callback io = .error f) :
    f = .disabled ∨ ((s.workers i).loop.currentActiveChannel ≠ some .acceptor ∧
      ∃ id fault, f = .connection id fault) := by
  unfold Server.runCallback at failed
  split at failed
  next active =>
    exact .inr ⟨by simp [active], _, inv.onConnection_error alive handleClose_staged failed⟩
  next active =>
    exact .inr ⟨by simp [active], _, inv.onConnection_error alive handleError_staged failed⟩
  next result active =>
    exact .inr ⟨by simp [active], _,
      inv.onConnection_error alive (handleRead_staged result) failed⟩
  next result active =>
    exact .inr ⟨by simp [active], _,
      inv.onConnection_error alive (handleWrite_staged result) failed⟩
  next =>
    rcases Checked.bind_error_iff.mp failed with refused | ⟨_, allowed, failed⟩
    · exact .inl (Checked.require_error_iff.mp refused).2.symm
    · -- The assertion of `new_connection` holds, as the descriptor was not open.
      obtain ⟨t, ok, -⟩ := inv.accept (Checked.require_ok_iff.mp allowed).2.2
      rw [ok] at failed
      cases failed
  all_goals first | cases failed; exact .inl rfl | cases failed

end Inv

namespace Server

/-- The step runs code of the server: `new_connection`, or a function it has queued. -/
def serves (s : Server) : ServerStep → Bool
  | .functor _ => true
  | .callback i _ => (s.workers i).loop.currentActiveChannel == some .acceptor
  | _ => false

/-- While the server is alive none of its assertions fails, and what it runs itself does not fail
at all. -/
theorem step_error {s : Server} {l : ServerStep} {f : ServerFault} (inv : Inv s)
    (alive : s.alive = true) (failed : s.step l = .error f) :
    f = .disabled ∨ (s.serves l = false ∧ ∃ id fault, f = .connection id fault) := by
  cases l with
  | poll i active =>
    rcases Checked.bind_error_iff.mp failed with refused | ⟨_, _, failed⟩
    · exact .inl (Checked.require_error_iff.mp refused).2.symm
    · cases failed
  | nextChannel i =>
    simp only [step] at failed
    split at failed
    · cases failed
    · cases failed
      exact .inl rfl
  | callback i io =>
    simp only [step] at failed
    split at failed
    next callback todo queue =>
      rcases (inv.todo todo).runCallback_error alive failed with disabled | ⟨foreign, fault⟩
      · exact .inl disabled
      · rw [setWorker_self] at foreign
        exact .inr ⟨by simpa [serves] using foreign, fault⟩
    next =>
      cases failed
      exact .inl rfl
  | endDispatch i =>
    rcases Checked.bind_error_iff.mp failed with refused | ⟨_, _, failed⟩
    · exact .inl (Checked.require_error_iff.mp refused).2.symm
    · cases failed
  | swap i =>
    rcases Checked.bind_error_iff.mp failed with refused | ⟨_, _, failed⟩
    · exact .inl (Checked.require_error_iff.mp refused).2.symm
    · cases failed
  | functor i =>
    simp only [step] at failed
    split at failed
    next cb batch calling queue => exact .inl (inv.runFunctor_error alive calling queue failed)
    next =>
      cases failed
      exact .inl rfl
  | finish i =>
    rcases Checked.bind_error_iff.mp failed with refused | ⟨_, _, failed⟩
    · exact .inl (Checked.require_error_iff.mp refused).2.symm
    · cases failed
  | send id data result =>
    exact .inr ⟨rfl, _, inv.onConnection_error alive (send_staged data result) failed⟩
  | shutdown id => exact .inr ⟨rfl, _, inv.onConnection_error alive shutdown_staged failed⟩
  | retrieveInput id len =>
    exact .inr ⟨rfl, _, inv.onConnection_error alive (retrieve_staged len) failed⟩
  | release id =>
    simp only [step] at failed
    split at failed
    · cases failed
      exact .inl rfl
    next o found =>
      rcases Checked.bind_error_iff.mp failed with refused | ⟨_, free, failed⟩
      · exact .inl (Checked.require_error_iff.mp refused).2.symm
      · -- The assertion of `~TcpConnection`: what nothing refers to is gone.
        obtain ⟨torn, gone, -⟩ := inv.unreferenced found (Checked.require_ok_iff.mp free)
        rw [Checked.require_pos _ gone.shape.1] at failed
        cases failed
  | teardown =>
    rcases Checked.bind_error_iff.mp failed with refused | ⟨_, _, failed⟩
    · exact .inl (Checked.require_error_iff.mp refused).2.symm
    · cases failed
  | destroy sockfd =>
    -- Only `~TcpServer` takes this step.
    simp only [step, alive] at failed
    cases failed
    exact .inl rfl

/-! ### The life cycle -/

/-- The step fails in no code of the server, and after it every history is as it should be. -/
def Sound (s : Server) (l : ServerStep) : Prop :=
  match s.step l with
  | .ok t => ∀ id, Regular (t.log id) ∧ MessagesBetween (t.log id)
  | .error f => f = .disabled ∨ (s.serves l = false ∧ ∃ id fault, f = .connection id fault)

/-- A read with bytes of a connection that an earlier callback of the dispatch has closed. -/
def lateRead (s : Server) (l : ServerStep) : Bool :=
  match s.delivery l with
  | some (_, o) => o.conn.state == .kDisconnected
  | none => false

private theorem sound_iff {s : Server} {l : ServerStep} (inv : Inv s) (alive : s.alive = true)
    (between : ∀ id, MessagesBetween (s.log id)) (running : l ≠ .teardown) :
    s.Sound l ↔ s.lateRead l = false := by
  unfold Sound lateRead
  cases delivers : s.delivery l with
  | none =>
    simp only [iff_true]
    cases taken : s.step l with
    | error f => exact step_error inv alive taken
    | ok t =>
      have silent := step_silent inv running delivers taken
      intro id
      obtain ⟨events, eq, quiet⟩ := silent.log id
      refine ⟨(step_inv inv taken).regular (silent.alive.trans alive) id, ?_⟩
      rw [eq, messagesBetween_append quiet]
      exact between id
  | some delivery =>
    obtain ⟨id, o⟩ := delivery
    obtain ⟨found, started, t, taken, same, here, others⟩ := step_delivers inv delivers
    obtain ⟨stage, torn, placed⟩ := inv.placed id o found
    obtain ⟨up, down⟩ := placed.callbacks started
    simp only [taken, beq_eq_false_iff_ne, ne_eq, ← down]
    constructor
    · intro sound
      -- The new message is the last event, so the down callback must not have been.
      have mine := (sound id).2
      rw [here, messagesBetween_snoc] at mine
      exact mine.2.2
    · intro still id'
      refine ⟨(step_inv inv taken).regular (same.trans alive) id', ?_⟩
      by_cases own : id' = id
      · rw [own, here, messagesBetween_snoc]
        exact ⟨between id, up, still⟩
      · rw [others id' own]
        exact between id'

theorem step_alive {s t : Server} {l : ServerStep} (inv : Inv s) (running : l ≠ .teardown)
    (taken : s.step l = .ok t) : t.alive = s.alive := by
  cases delivers : s.delivery l with
  | none => exact (step_silent inv running delivers taken).alive
  | some delivery =>
    obtain ⟨-, -, t', taken', same, -⟩ := step_delivers inv delivers
    rw [taken] at taken'
    cases taken'
    exact same

/-- Over any number of loops, accepted descriptors and any order of steps while the server is alive,
no code of the server fails and every connection lives as it should, in exactly the runs without a
late read. -/
theorem sound_iff_timely (threads listenfd : Nat) (wakeupfd : Nat → Nat) (message writeComplete : Bool)
    (labels : List ServerStep) (alive : .teardown ∉ labels) :
    Along step Sound (start threads listenfd wakeupfd message writeComplete) labels ↔
      Along step (fun s l => s.lateRead l = false)
        (start threads listenfd wakeupfd message writeComplete) labels := by
  have running : Along step (fun _ l => l ≠ ServerStep.teardown)
      (start threads listenfd wakeupfd message writeComplete) labels :=
    Along.of_labels (by rintro l member _ rfl; exact alive member) _
  -- The invariant does not place the messages, so what is known of them is carried beside it.
  refine along_congr (fun s => Inv s ∧ s.alive = true ∧ ∀ id, MessagesBetween (s.log id))
    ?_ ?_ ?_ running
  · rintro s l t ⟨inv, alive, _⟩ running sound taken
    refine ⟨step_inv inv taken, (step_alive inv running taken).trans alive, fun id => ?_⟩
    simp only [Sound, taken] at sound
    exact (sound id).2
  · rintro s l ⟨inv, alive, between⟩ running
    exact sound_iff inv alive between running
  · refine ⟨start_inv _ _ _ _ _, rfl, fun id before after cut => ?_⟩
    have empty : (start threads listenfd wakeupfd message writeComplete).log id = [] := rfl
    rw [empty] at cut
    simp at cut

end Server

end Clia.Net
