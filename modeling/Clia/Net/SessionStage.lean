import Clia.Net.ServerInvariant

/-!
# The functions of a connection, stage by stage

What the functions that run on a connection's loop do to its stage: output, reads and the user's
calls leave the stage as it is (`NeutralStep`), a close takes an open connection to the closed
stage (`CloseStep`), and no other function than `connect_established` and `connect_destoryed`
does anything else.
-/

namespace Clia.Net

open Reactor

/-! ### Shapes -/

namespace Stage

variable {stage : Stage} {conn : TcpConnection}

theorem Shape.connecting_iff (shape : stage.Shape conn) :
    conn.state = .kConnecting ↔ stage = .waiting := by
  cases stage <;> simp_all [Shape]
  rcases shape with ⟨connected | disconnecting, _⟩
  · simp [connected]
  · simp [disconnecting]

theorem Shape.open_of_closable (shape : stage.Shape conn)
    (closable : conn.state = .kConnected ∨ conn.state = .kDisconnecting) : stage = .open := by
  cases stage <;> simp_all [Shape]

theorem Shape.disconnected_iff (shape : stage.Shape conn) :
    conn.state = .kDisconnected ↔ stage ≠ .waiting ∧ stage ≠ .open := by
  cases stage <;> simp_all [Shape]
  rcases shape with ⟨connected | disconnecting, _⟩
  · simp [connected]
  · simp [disconnecting]

theorem Shape.quiet (shape : stage.Shape conn) (away : stage ≠ .open) :
    conn.channel.events = kNoneEvent := by
  cases stage <;> simp_all [Shape]

end Stage

/-! ### Steps that stay at their stage -/

/-- The effects by which a connection comes to another stage. -/
def Effect.IsStage : Effect → Prop
  | .connectionCallback _ => True
  | .closeCallback => True
  | _ => False

structure NeutralStep (x y : Session) : Prop extends Keeps x y where
  registered : y.IsRegistered
  shape : ∀ stage : Stage, stage.Shape x.conn → stage.Shape y.conn
  effects : ∃ effects, y.trace = x.trace ++ effects ∧ ∀ e ∈ effects, ¬e.IsStage

namespace NeutralStep

variable {x y : Session}

theorem refl (registered : x.IsRegistered) : NeutralStep x x :=
  ⟨Keeps.refl x, registered, fun _ shape => shape, [], by simp, by simp⟩

/-- Output leaves an open connection open; on others it does nothing. -/
theorem of_output (step : OutputStep x y)
    (idle : ∀ stage : Stage, stage.Shape x.conn → stage ≠ .open → y = x) : NeutralStep x y where
  toKeeps := step.toKeeps
  registered := step.registered
  shape stage shape := by
    by_cases opened : stage = .open
    · subst opened
      -- Output changes the write bit only: the read interest and the registration stay.
      obtain ⟨state, reading⟩ := shape
      exact ⟨step.state ▸ state, step.reading reading⟩
    · rw [idle stage shape opened]
      exact shape
  effects := by
    obtain ⟨effects, eq, output⟩ := step.output
    refine ⟨effects, eq, ?_⟩
    intro e member stage
    cases e <;> simp_all [Effect.IsStage, Effect.IsOutput]
    all_goals exact output _ member

end NeutralStep

namespace Session

variable {x y : Session}

theorem handleError_neutral (registered : x.IsRegistered) : NeutralStep x x.handleError :=
  NeutralStep.refl registered

theorem withInput_neutral (registered : x.IsRegistered) (inputBuffer : Buffer) :
    NeutralStep x (x.withInput inputBuffer) :=
  ⟨withInput_keeps x inputBuffer, registered, fun stage shape => by cases stage <;> exact shape,
    [], by simp [withInput], by simp⟩

theorem send_neutral (registered : x.IsRegistered) {data : List UInt8} {result : WriteResult}
    (ok : x.send data result = .ok y) : NeutralStep x y := by
  apply NeutralStep.of_output (send_output registered ok)
  intro stage shape away
  -- Away from the open stage `send` returns at once.
  have other : x.conn.state ≠ .kConnected := fun connected =>
    away (shape.open_of_closable (.inl connected))
  rw [send, if_neg other] at ok
  cases ok
  rfl

theorem handleWrite_neutral (registered : x.IsRegistered) {result : WriteResult}
    (ok : x.handleWrite result = .ok y) : NeutralStep x y := by
  apply NeutralStep.of_output (handleWrite_output registered ok)
  intro stage shape away
  -- Away from the open stage the channel has no interest at all.
  have idle : x.conn.channel.isWriting = false := by
    rw [Channel.isWriting, shape.quiet away]
    decide
  rw [handleWrite, if_neg (by simp [idle])] at ok
  cases ok
  rfl

theorem shutdown_neutral (registered : x.IsRegistered) : NeutralStep x x.shutdown := by
  unfold shutdown
  split
  next connected =>
    have half : (x.setState .kDisconnecting).IsRegistered := registered
    have output := shutdownInLoop_output half
    refine ⟨(setState_keeps x _).trans output.toKeeps, output.registered, ?_, ?_⟩
    · intro stage shape
      -- Half closed is still the open stage.
      cases shape.open_of_closable (.inl connected)
      refine ⟨.inr output.state, ?_⟩
      exact output.reading shape.2
    · unfold shutdownInLoop
      split
      · exact ⟨[.shutdownWrite], rfl, by simp [Effect.IsStage]⟩
      · exact ⟨[], by simp [setState], by simp⟩
  next => exact NeutralStep.refl registered

end Session

/-! ### Closing -/

structure CloseStep (x y : Session) : Prop extends Keeps x y where
  closable : x.conn.state = .kConnected ∨ x.conn.state = .kDisconnecting
  registered : y.IsRegistered
  shape : Stage.open.Shape x.conn → Stage.closed.Shape y.conn
  effects : y.trace = x.trace ++ [.connectionCallback false, .closeCallback]

namespace Session

variable {x y : Session}

theorem disconnected_shape (added : x.conn.channel.index = .kAdded) :
    Stage.closed.Shape x.disconnected.conn := by
  refine ⟨disconnected_state x, ?_, ?_⟩
  · rw [disconnected, connectionCallback_conn]
    simp [withEvents, Channel.nextIndex, setState, added]
  · rw [disconnected, connectionCallback_conn]
    rfl

theorem disconnected_trace (callback : x.conn.hasConnectionCallback = true) :
    x.disconnected.trace = x.trace ++ [.connectionCallback false] := by
  rw [disconnected_effects, if_pos callback]

theorem handleClose_closes (registered : x.IsRegistered)
    (connection : x.conn.hasConnectionCallback = true) (close : x.conn.hasCloseCallback = true)
    (ok : x.handleClose = .ok y) : CloseStep x y := by
  have keeps := handleClose_keeps registered ok
  have closable := closable_of_handleClose ok
  rw [handleClose_eq registered closable, if_pos close] at ok
  cases ok
  refine ⟨keeps, closable, x.disconnected_registered, fun shape => disconnected_shape shape.2.2, ?_⟩
  simp only [emit, disconnected_trace connection, List.append_assoc]
  rfl

theorem handleRead_step (registered : x.IsRegistered)
    (connection : x.conn.hasConnectionCallback = true) (close : x.conn.hasCloseCallback = true)
    {result : ReadResult} (ok : x.handleRead result = .ok y) : NeutralStep x y ∨ CloseStep x y := by
  have keeps := handleRead_keeps registered ok
  obtain ⟨n, inputBuffer, _, outcome⟩ := handleRead_inv ok
  have taken := withInput_neutral registered inputBuffer
  rcases outcome with ⟨_, read⟩ | ⟨_, closed⟩ | ⟨_, rfl⟩
  · -- bytes
    left
    split at read
    · subst read
      exact ⟨keeps, registered, taken.shape, [.messageCallback], rfl, by simp [Effect.IsStage]⟩
    · subst read
      exact taken
  · -- the peer has closed
    right
    have closes := handleClose_closes (x := x.withInput inputBuffer) registered connection close closed
    refine ⟨keeps, closes.closable, closes.registered, fun shape => ?_, closes.effects⟩
    exact closes.shape (taken.shape .open shape)
  · exact .inl taken

end Session

/-- A function that leaves a connection at its stage or closes it. -/
def Staged (call : Session → Except Fault Session) : Prop :=
  ∀ x y, x.IsRegistered → x.conn.hasConnectionCallback = true → x.conn.hasCloseCallback = true →
    call x = .ok y → NeutralStep x y ∨ CloseStep x y

theorem handleClose_staged : Staged Session.handleClose :=
  fun _ _ registered connection close called =>
    .inr (Session.handleClose_closes registered connection close called)

theorem handleError_staged : Staged fun x => .ok x.handleError := by
  rintro x _ registered - - ⟨⟩
  exact .inl (Session.handleError_neutral registered)

theorem handleRead_staged (result : ReadResult) : Staged fun x => x.handleRead result :=
  fun _ _ registered connection close called =>
    Session.handleRead_step registered connection close called

theorem handleWrite_staged (result : WriteResult) : Staged fun x => x.handleWrite result :=
  fun _ _ registered _ _ called => .inl (Session.handleWrite_neutral registered called)

theorem send_staged (data : List UInt8) (result : WriteResult) :
    Staged fun x => x.send data result :=
  fun _ _ registered _ _ called => .inl (Session.send_neutral registered called)

theorem shutdown_staged : Staged fun x => .ok x.shutdown := by
  rintro x _ registered - - ⟨⟩
  exact .inl (Session.shutdown_neutral registered)

theorem retrieve_staged (len : Nat) : Staged fun x => do
    let inputBuffer ← x.conn.inputBuffer.retrieve len
    return x.withInput inputBuffer := by
  intro x y registered _ _ called
  obtain ⟨inputBuffer, _, called⟩ := Checked.bind_ok_iff.mp called
  cases called
  exact .inl (Session.withInput_neutral registered inputBuffer)

/-! ### The two ends -/

namespace Session

variable {x y : Session}

theorem established_shape : Stage.open.Shape x.established.conn := by
  have reading : (withEvents { x with conn := { x.conn with
      state := .kConnected, channel := x.conn.channel.tie } }
      fun events => events ||| kReadEvent).Reading :=
    withEvents_reading (by simp [kReadEvent, EPOLLIN, EPOLLPRI])
  rw [established, connectionCallback_conn]
  exact ⟨.inl rfl, reading⟩

theorem established_trace (callback : x.conn.hasConnectionCallback = true) :
    x.established.trace = x.trace ++ [.connectionCallback true] := by
  have flag : (withEvents { x with conn := { x.conn with
      state := .kConnected, channel := x.conn.channel.tie } }
      fun events => events ||| kReadEvent).conn.hasConnectionCallback = true := callback
  simp only [established, connectionCallback_trace, if_pos flag]
  rfl

/-- `connect_destoryed` gets an open connection past its assertions only if it is up: the
interest of one that is half closed is still there. -/
theorem connected_of_destroyed {conn : TcpConnection} (shape : Stage.open.Shape conn)
    (met : conn.state = .kConnected ∨
      conn.channel.index ≠ .kNew ∧ conn.channel.events = kNoneEvent) :
    conn.state = .kConnected := by
  rcases met with connected | ⟨_, quiet⟩
  · exact connected
  · exact absurd quiet (eq_none_of_getLsbD shape.2.1)

theorem destroyed_shape {stage : Stage} (shape : stage.Shape x.conn)
    (met : x.conn.state = .kConnected ∨
      x.conn.channel.index ≠ .kNew ∧ x.conn.channel.events = kNoneEvent)
    (started : stage ≠ .waiting) :
    Stage.gone.Shape (if x.conn.state = .kConnected then x.disconnected else x).removed.conn := by
  by_cases opened : stage = .open
  · subst opened
    rw [if_pos (connected_of_destroyed shape met)]
    have closed := disconnected_shape shape.2.2
    exact ⟨closed.1, rfl, closed.2.2⟩
  · -- The callback and the interest have gone earlier, in `handle_close`.
    have disconnected : x.conn.state = .kDisconnected :=
      shape.disconnected_iff.mpr ⟨started, opened⟩
    rw [if_neg (by simp [disconnected])]
    exact ⟨disconnected, rfl, shape.quiet opened⟩

end Session

end Clia.Net
