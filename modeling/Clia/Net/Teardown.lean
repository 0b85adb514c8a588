import Clia.Net.ServerRun
import Clia.Net.History

/-!
# What `connect_destoryed` leaves behind

`connect_destoryed` is reached in two ways: as the last functor of a connection that was closed,
and from `~TcpServer`, which takes every connection as it finds it.

## Main result

`Server.teardown_iff`: in every state that a run reaches, with `~TcpServer` or without, a
`connect_destoryed` leaves the connection down, without interest, unknown to the poller, and with
as many down callbacks as up callbacks if and only if the connection is not half closed and its
loop is not about to handle its channel.

A half-closed connection is the case that the source misses: `connect_destoryed` disables the
channel in `kConnected` only, so that one in `kDisconnecting` comes to `Channel::remove` with its
interest.
-/

namespace Clia.Net

open Reactor LabelledRun

variable {s t r : Server} {id i : Nat} {o : Object} {stage : Stage} {torn : Bool}

/-- What is asked for after `connect_destoryed`. That there is a `t` says that every assertion on
the way has held. -/
def Server.Destroyed (s : Server) (l : ServerStep) (id : Nat) : Prop :=
  ∃ t o, s.step l = .ok t ∧ t.objects id = some o ∧
    o.conn.state = .kDisconnected ∧ o.conn.channel.events = kNoneEvent ∧
    o.conn.channel.index = .kNew ∧
    (t.workers o.home).loop.poller.channels o.conn.fd = none ∧
    (t.workers o.home).loop.poller.interest o.conn.fd = none ∧
    (t.log id).count Event.down = (t.log id).count Event.up

/-- The connection that the step runs `connect_destoryed` on: as a functor of its loop, or at
once in `~TcpServer` if its loop is the base loop. -/
def Server.destroys (s : Server) : ServerStep → Option Nat
  | .functor i =>
    match (s.workers i).loop.callingPendingFunctors, (s.workers i).batch with
    | true, .connectDestoryed id :: _ => some id
    | _, _ => none
  | .destroy sockfd =>
    match s.alive, s.connections sockfd with
    | false, some id =>
      match s.objects id with
      | some o => if o.home = 0 then some id else none
      | none => none
    | _, _ => none
  | _ => none

/-- The connection is not half closed, and its loop is not about to handle its channel. -/
def Server.Clean (s : Server) (id : Nat) : Prop :=
  ∃ o, s.objects id = some o ∧ o.conn.state ≠ .kDisconnecting ∧ (s.session o).Inactive

instance (s : Server) (id : Nat) : Decidable (s.Clean id) :=
  match found : s.objects id with
  | some o =>
    decidable_of_iff (o.conn.state ≠ .kDisconnecting ∧ (s.session o).Inactive)
      (by simp [Server.Clean, found])
  | none => isFalse (by simp [Server.Clean, found])

/-! ### One `connect_destoryed` -/

/-- A connection that is gone is as it should be. -/
theorem Placed.gone_clean (placed : Placed t id o .gone torn) :
    o.conn.state = .kDisconnected ∧ o.conn.channel.events = kNoneEvent ∧
      o.conn.channel.index = .kNew ∧
      (t.workers o.home).loop.poller.channels o.conn.fd = none ∧
      (t.workers o.home).loop.poller.interest o.conn.fd = none ∧
      (t.log id).count Event.down = (t.log id).count Event.up := by
  obtain ⟨down, index, quiet⟩ := placed.shape
  have registered := placed.registered
  simp only [Session.IsRegistered, Registered, Server.session, index, placed.channelFd]
    at registered
  refine ⟨down, quiet, index, registered.1, registered.2, ?_⟩
  have counted := counted_of_phase placed.log
  rw [counted.downs, counted.ups]
  cases torn <;> rfl

/-- The assertions on the way of `connect_destoryed` hold for a connection that is up or closed,
and fail for one that is half closed. -/
theorem Placed.connectDestoryed_ok_iff (placed : Placed s id o stage torn)
    (moves : Moves s r id o o) (past : stage ≠ .waiting) (present : stage ≠ .gone) :
    (∃ t, r.connectDestoryed id = .ok t) ↔
      o.conn.state ≠ .kDisconnecting ∧ (r.session o).Inactive := by
  have held := moves.held placed.toHeld
  have conn : (r.session o).conn = o.conn := rfl
  constructor
  · rintro ⟨t, ok⟩
    obtain ⟨y, called, -⟩ := (held.connectDestoryed_iff moves.here).mp ok
    obtain ⟨met, inactive, -⟩ := (Session.connectDestoryed_iff held.registered).mp called
    refine ⟨fun half => ?_, inactive⟩
    -- A half-closed connection is at the open stage, where only `kConnected` gets through.
    cases placed.shape.open_of_closable (.inr half)
    have up := Session.connected_of_destroyed placed.shape (conn ▸ met)
    rw [half] at up
    cases up
  · rintro ⟨whole, inactive⟩
    have met : o.conn.state = .kConnected ∨
        o.conn.channel.index ≠ .kNew ∧ o.conn.channel.events = kNoneEvent := by
      cases stage with
      | waiting => exact absurd rfl past
      | «open» => exact .inl (placed.shape.1.resolve_right whole)
      -- `handle_close` has taken the interest back.
      | closed => exact .inr ⟨by simp [placed.shape.2.1], placed.shape.2.2⟩
      | erased => exact .inr ⟨by simp [placed.shape.2.1], placed.shape.2.2⟩
      | gone => exact absurd rfl present
    have called := (Session.connectDestoryed_iff held.registered).mpr ⟨met, inactive, rfl⟩
    exact ⟨_, (held.connectDestoryed_iff moves.here).mpr ⟨_, called, rfl⟩⟩

/-- A step that is a `connect_destoryed` in the state `r`, which differs from `s` in the queues
and the map only. -/
private theorem destroyed_iff {l : ServerStep} (found : s.objects id = some o)
    (placed : Placed s id o stage torn) (moves : Moves s r id o o)
    (loop : (r.workers o.home).loop = (s.workers o.home).loop) (past : stage ≠ .waiting)
    (present : stage ≠ .gone) (step : s.step l = r.connectDestoryed id)
    (onward : ∀ t, r.connectDestoryed id = .ok t →
      ∃ o' torn', Moves s t id o o' ∧ Placed t id o' .gone torn') :
    s.Destroyed l id ↔ s.Clean id := by
  have ok_iff := placed.connectDestoryed_ok_iff moves past present
  have session : r.session o = s.session o := by simp only [Server.session, loop]
  -- The conditions are read in `s`: the loop of the connection is the same in `r`.
  rw [session, ← step] at ok_iff
  constructor
  · rintro ⟨t, -, ok, -⟩
    exact ⟨o, found, ok_iff.mp ⟨t, ok⟩⟩
  · rintro ⟨o', found', clean⟩
    rw [found] at found'
    cases found'
    obtain ⟨t, ok⟩ := ok_iff.mpr clean
    obtain ⟨o', torn', moved, gone⟩ := onward t (step ▸ ok)
    exact ⟨t, o', ok, moved.here, gone.gone_clean⟩

/-! ### Every `connect_destoryed` of every run -/

private theorem Inv.destroyed_iff {l : ServerStep} (inv : Inv s)
    (destroys : s.destroys l = some id) : s.Destroyed l id ↔ s.Clean id := by
  unfold Server.destroys at destroys
  split at destroys
  next i =>
    -- a functor of the connection's loop
    split at destroys
    next batch calling queue =>
      cases destroys
      obtain ⟨o, stage, torn, found, placed, rfl, destroyable, onward⟩ :=
        inv.functor_destoryed calling queue
      have pops := Server.popped_moves found placed.registered queue rfl
      refine Clia.Net.destroyed_iff found placed pops ?_ ?_ ?_ ?_ fun t ok => ?_
      · simp [Server.popped]
      · rcases destroyable with ⟨rfl, -⟩ | ⟨-, rfl | rfl⟩ <;> simp
      · rcases destroyable with ⟨rfl, -⟩ | ⟨-, rfl | rfl⟩ <;> simp
      · simp only [Server.step, calling, queue]
        rfl
      · obtain ⟨o', moves, gone⟩ := onward t ok
        exact ⟨o', torn, moves, gone⟩
    next => cases destroys
  next sockfd =>
    -- `~TcpServer` on the base loop
    split at destroys
    next id' dead entry =>
      obtain ⟨o, stage, found, rfl, placed, base⟩ := inv.destroy_base dead entry
      simp only [found] at destroys
      split at destroys
      next home =>
        cases destroys
        obtain ⟨rfl, onward⟩ := base home
        have unmaps := Server.unmapped_moves found placed.registered
        refine Clia.Net.destroyed_iff found placed unmaps rfl (by simp) (by simp) ?_ fun t ok => ?_
        · simp only [Server.step, Server.unmapped, dead, entry, found, home, if_true]
        · obtain ⟨o', moves, gone⟩ := onward t ok
          exact ⟨o', true, moves, gone⟩
      next => cases destroys
    next => cases destroys
  next => cases destroys

namespace Server

/-- **Teardown**: in every state that a run reaches, `connect_destoryed` cleans up exactly the
connections that are not half closed and that the loop is not about to handle. -/
theorem teardown_iff (threads listenfd : Nat) (wakeupfd : Nat → Nat) (message writeComplete : Bool)
    (labels : List ServerStep) (s : Server)
    (reached : run step (start threads listenfd wakeupfd message writeComplete) labels = .ok s)
    (l : ServerStep) (id : Nat) (destroys : s.destroys l = some id) :
    s.Destroyed l id ↔ s.Clean id := by
  have inv : Inv s := run_invariant (fun _ _ _ inv taken => step_inv inv taken)
    (start_inv threads listenfd wakeupfd message writeComplete) reached
  exact inv.destroyed_iff destroys

/-- `~TcpServer` finds a connection that is up. -/
def upLabels : List ServerStep := acceptLabels ++ [.teardown, .destroy 7, .swap 1]

private theorem up_state :
    (run step (start 1 3 (fun i => 4 + i) true false) upLabels).toOption.map
      (fun s => (s.destroys (.functor 1), decide (s.Clean 0))) = some (some 0, true) := by
  decide +kernel

theorem up_destroyed : ∃ s, run step (start 1 3 (fun i => 4 + i) true false) upLabels = .ok s ∧
    s.destroys (.functor 1) = some 0 ∧ s.Destroyed (.functor 1) 0 := by
  have state := up_state
  cases reached : run step (start 1 3 (fun i => 4 + i) true false) upLabels with
  | error f =>
    rw [reached] at state
    cases state
  | ok s =>
    rw [reached] at state
    obtain ⟨destroys, clean⟩ := Prod.mk.inj (Option.some.inj state)
    exact ⟨s, rfl, destroys,
      (teardown_iff 1 3 (fun i => 4 + i) true false upLabels s reached (.functor 1) 0 destroys).mpr
        (of_decide_eq_true clean)⟩

/-- The user shuts the connection down, its peer does not close, and `~TcpServer` comes. -/
def halfClosedLabels : List ServerStep :=
  acceptLabels ++ [.shutdown 0, .teardown, .destroy 7, .swap 1]

private theorem halfClosed_state :
    (run step (start 1 3 (fun i => 4 + i) true false) halfClosedLabels).toOption.map
      (fun s => (s.destroys (.functor 1), match s.step (.functor 1) with
        | .ok _ => none
        | .error f => some f)) =
      some (some 0, some (.connection 0 (.assertion .noneEvent))) := by
  decide +kernel

/-- The assertion of `Channel::remove` fails. -/
theorem halfClosed_not_destroyed :
    ∃ s, run step (start 1 3 (fun i => 4 + i) true false) halfClosedLabels = .ok s ∧
      s.destroys (.functor 1) = some 0 ∧
      s.step (.functor 1) = .error (.connection 0 (.assertion .noneEvent)) ∧
      ¬s.Destroyed (.functor 1) 0 := by
  have state := halfClosed_state
  cases reached : run step (start 1 3 (fun i => 4 + i) true false) halfClosedLabels with
  | error f =>
    rw [reached] at state
    cases state
  | ok s =>
    rw [reached] at state
    obtain ⟨destroys, outcome⟩ := Prod.mk.inj (Option.some.inj state)
    cases taken : s.step (.functor 1) with
    | ok t =>
      rw [taken] at outcome
      cases outcome
    | error f =>
      rw [taken] at outcome
      cases outcome
      refine ⟨s, rfl, destroys, taken, ?_⟩
      rintro ⟨t, o, ok, -⟩
      rw [taken] at ok
      cases ok

end Server

end Clia.Net
