import Clia.Net.TcpConnection

/-!
# What a call leaves alone

Whatever a member function of a connection does, it keeps the identity of the connection and
the phase of its loop, it touches the poller only at its own descriptor, it queues nothing but
write-complete notifications for itself, and it only adds to the trace. The systems in which
many connections share a loop use this as their frame rule.
-/

namespace Clia.Net

open Reactor

/-- `y` differs from `x` only in the business of its own connection. -/
structure Keeps (x y : Session) : Prop where
  id : y.conn.id = x.conn.id
  fd : y.conn.fd = x.conn.fd
  channelFd : y.conn.channel.fd = x.conn.channel.fd
  connectionCallback : y.conn.hasConnectionCallback = x.conn.hasConnectionCallback
  messageCallback : y.conn.hasMessageCallback = x.conn.hasMessageCallback
  closeCallback : y.conn.hasCloseCallback = x.conn.hasCloseCallback
  eventHanding : y.loop.eventHanding = x.loop.eventHanding
  callingPendingFunctors : y.loop.callingPendingFunctors = x.loop.callingPendingFunctors
  currentActiveChannel : y.loop.currentActiveChannel = x.loop.currentActiveChannel
  activeChannels : y.loop.activeChannels = x.loop.activeChannels
  channels : ∀ fd, fd ≠ x.conn.channel.fd →
    y.loop.poller.channels fd = x.loop.poller.channels fd
  interest : ∀ fd, fd ≠ x.conn.channel.fd →
    y.loop.poller.interest fd = x.loop.poller.interest fd
  functors : ∃ extra, y.loop.pendingFunctors = x.loop.pendingFunctors ++ extra ∧
    ∀ f ∈ extra, f = .writeComplete x.conn.id
  trace : ∃ effects, y.trace = x.trace ++ effects

namespace Keeps

theorem refl (x : Session) : Keeps x x where
  id := rfl
  fd := rfl
  channelFd := rfl
  connectionCallback := rfl
  messageCallback := rfl
  closeCallback := rfl
  eventHanding := rfl
  callingPendingFunctors := rfl
  currentActiveChannel := rfl
  activeChannels := rfl
  channels _ _ := rfl
  interest _ _ := rfl
  functors := ⟨[], by simp, by simp⟩
  trace := ⟨[], by simp⟩

theorem trans {x y z : Session} (first : Keeps x y) (second : Keeps y z) : Keeps x z where
  id := second.id.trans first.id
  fd := second.fd.trans first.fd
  channelFd := second.channelFd.trans first.channelFd
  connectionCallback := second.connectionCallback.trans first.connectionCallback
  messageCallback := second.messageCallback.trans first.messageCallback
  closeCallback := second.closeCallback.trans first.closeCallback
  eventHanding := second.eventHanding.trans first.eventHanding
  callingPendingFunctors := second.callingPendingFunctors.trans first.callingPendingFunctors
  currentActiveChannel := second.currentActiveChannel.trans first.currentActiveChannel
  activeChannels := second.activeChannels.trans first.activeChannels
  -- The descriptor is kept, so both steps leave the same entries alone.
  channels fd other :=
    (second.channels fd (first.channelFd ▸ other)).trans (first.channels fd other)
  interest fd other :=
    (second.interest fd (first.channelFd ▸ other)).trans (first.interest fd other)
  functors := by
    obtain ⟨early, eq, own⟩ := first.functors
    obtain ⟨late, eq', own'⟩ := second.functors
    refine ⟨early ++ late, by rw [eq', eq, List.append_assoc], ?_⟩
    intro f member
    rcases List.mem_append.mp member with member | member
    · exact own f member
    · rw [own' f member, first.id]
  trace := by
    obtain ⟨early, eq⟩ := first.trace
    obtain ⟨late, eq'⟩ := second.trace
    exact ⟨early ++ late, by rw [eq', eq, List.append_assoc]⟩

end Keeps

namespace Session

variable {x y : Session}

theorem emit_keeps (x : Session) (effect : Effect) : Keeps x (x.emit effect) :=
  { Keeps.refl x with trace := ⟨[effect], rfl⟩ }

theorem setState_keeps (x : Session) (state : State) : Keeps x (x.setState state) :=
  { Keeps.refl x with }

theorem withOutput_keeps (x : Session) (outputBuffer : Buffer) :
    Keeps x (x.withOutput outputBuffer) :=
  { Keeps.refl x with }

theorem withInput_keeps (x : Session) (inputBuffer : Buffer) :
    Keeps x (x.withInput inputBuffer) :=
  { Keeps.refl x with }

theorem queueInLoop_keeps (x : Session) :
    Keeps x (x.queueInLoop (.writeComplete x.conn.id)) :=
  { Keeps.refl x with functors := ⟨[.writeComplete x.conn.id], rfl, by simp⟩ }

theorem withEvents_keeps (x : Session) (change : Mask → Mask) : Keeps x (x.withEvents change) :=
  { Keeps.refl x with
    channels := fun _ other => Function.update_of_ne other _ _
    interest := fun _ other => Function.update_of_ne other _ _ }

theorem connectionCallback_keeps (x : Session) : Keeps x x.connectionCallback := by
  unfold connectionCallback
  split
  · exact emit_keeps x _
  · exact Keeps.refl x

theorem removed_keeps (x : Session) : Keeps x x.removed :=
  { Keeps.refl x with
    channels := fun _ other => Function.update_of_ne other _ _
    interest := fun _ other => Function.update_of_ne other _ _ }

theorem established_keeps (x : Session) : Keeps x x.established := by
  have tied : Keeps x { x with
      conn := { x.conn with state := .kConnected, channel := x.conn.channel.tie } } :=
    { Keeps.refl x with }
  exact (tied.trans (withEvents_keeps _ _)).trans (connectionCallback_keeps _)

theorem established_registered (x : Session) : x.established.IsRegistered := by
  simp only [established, IsRegistered, self, connectionCallback_conn, connectionCallback_loop]
  exact withEvents_registered _ _

theorem disconnected_keeps (x : Session) : Keeps x x.disconnected :=
  ((setState_keeps x _).trans (withEvents_keeps _ _)).trans (connectionCallback_keeps _)

theorem handleClose_keeps (registered : x.IsRegistered) (ok : x.handleClose = .ok y) :
    Keeps x y := by
  rw [handleClose_eq registered (closable_of_handleClose ok)] at ok
  cases ok
  split
  · exact (disconnected_keeps x).trans (emit_keeps _ _)
  · exact disconnected_keeps x

theorem handleRead_keeps {result : ReadResult} (registered : x.IsRegistered)
    (ok : x.handleRead result = .ok y) : Keeps x y := by
  obtain ⟨n, inputBuffer, _, outcome⟩ := handleRead_inv ok
  have taken := withInput_keeps x inputBuffer
  rcases outcome with ⟨_, rfl⟩ | ⟨_, closed⟩ | ⟨_, rfl⟩
  · split
    · exact taken.trans (emit_keeps _ _)
    · exact taken
  · -- The peer has closed.
    exact taken.trans (handleClose_keeps (x := x.withInput inputBuffer) registered closed)
  · exact taken

theorem connectDestoryed_keeps (registered : x.IsRegistered) (ok : x.connectDestoryed = .ok y) :
    Keeps x y := by
  rw [connectDestoryed_eq registered ok]
  split
  · exact (disconnected_keeps x).trans (removed_keeps _)
  · exact removed_keeps x

/-! ### Output -/

/-- The channel is registered for reading, so it has an interest whatever happens to writing. -/
def Reading (x : Session) : Prop :=
  x.conn.channel.events.getLsbD 0 = true ∧ x.conn.channel.index = .kAdded

theorem withEvents_reading {change : Mask → Mask}
    (read : (change x.conn.channel.events).getLsbD 0 = true) : (x.withEvents change).Reading := by
  refine ⟨read, ?_⟩
  -- An interest in reading is an interest, so `update` leaves the channel registered.
  have interested := eq_none_of_getLsbD read
  simp [withEvents, Channel.nextIndex, interested]

end Session

def Effect.IsOutput : Effect → Prop
  | .wrote _ => True
  | .shutdownWrite => True
  | _ => False

/-- A step of the output side. -/
structure OutputStep (x y : Session) : Prop extends Keeps x y where
  registered : y.IsRegistered
  state : y.conn.state = x.conn.state
  reading : x.Reading → y.Reading
  output : ∃ effects, y.trace = x.trace ++ effects ∧ ∀ e ∈ effects, e.IsOutput

namespace OutputStep

variable {x y z : Session}

theorem refl (registered : x.IsRegistered) : OutputStep x x :=
  ⟨Keeps.refl x, registered, rfl, fun reading => reading, [], by simp, by simp⟩

theorem trans (first : OutputStep x y) (second : OutputStep y z) : OutputStep x z := by
  refine ⟨first.toKeeps.trans second.toKeeps, second.registered,
    second.state.trans first.state, fun reading => second.reading (first.reading reading), ?_⟩
  obtain ⟨early, eq, own⟩ := first.output
  obtain ⟨late, eq', own'⟩ := second.output
  refine ⟨early ++ late, by rw [eq', eq, List.append_assoc], ?_⟩
  intro e member
  rcases List.mem_append.mp member with member | member
  · exact own e member
  · exact own' e member

end OutputStep

namespace Session

variable {x y : Session}

private theorem emit_output (registered : x.IsRegistered) {effect : Effect}
    (output : effect.IsOutput) : OutputStep x (x.emit effect) :=
  ⟨emit_keeps x effect, registered, rfl, fun reading => reading, [effect], rfl,
    by simpa using output⟩

private theorem queueInLoop_output (registered : x.IsRegistered) :
    OutputStep x (x.queueInLoop (.writeComplete x.conn.id)) :=
  ⟨queueInLoop_keeps x, registered, rfl, fun reading => reading, [], by simp [queueInLoop], by simp⟩

private theorem withOutput_output (registered : x.IsRegistered) (outputBuffer : Buffer) :
    OutputStep x (x.withOutput outputBuffer) :=
  ⟨withOutput_keeps x _, registered, rfl, fun reading => reading, [], by simp [withOutput], by simp⟩

private theorem enableWriting_output (x : Session) :
    OutputStep x (x.withEvents fun events => events ||| kWriteEvent) :=
  ⟨withEvents_keeps x _, withEvents_registered x _, rfl,
    fun reading => withEvents_reading (by simp [reading.1]), [], by simp, by simp⟩

private theorem disableWriting_output (x : Session) :
    OutputStep x (x.withEvents fun events => events &&& ~~~kWriteEvent) := by
  refine ⟨withEvents_keeps x _, withEvents_registered x _, rfl, ?_, [], by simp, by simp⟩
  intro reading
  -- Taking back the write bit leaves the read bit.
  have kept : kWriteEvent[0] = false := by decide
  exact withEvents_reading (by simp [reading.1, kept])

theorem shutdownInLoop_output (registered : x.IsRegistered) :
    OutputStep x x.shutdownInLoop := by
  unfold shutdownInLoop
  split
  · exact emit_output registered trivial
  · exact OutputStep.refl registered

theorem directWrite_output (registered : x.IsRegistered) (data : List UInt8)
    (result : WriteResult) : OutputStep x (x.directWrite data result).1 := by
  cases result with
  | failed errno => exact OutputStep.refl registered
  | wrote n =>
    have wrote : OutputStep x (x.emit (.wrote (data.take n))) := emit_output registered trivial
    simp only [directWrite]
    split
    · exact wrote.trans (queueInLoop_output wrote.registered)
    · exact wrote

private theorem queueRest_output (registered : x.IsRegistered) {rest : List UInt8}
    (ok : x.queueRest rest = .ok y) : OutputStep x y := by
  obtain ⟨outputBuffer, _, ok⟩ := Checked.bind_ok_iff.mp ok
  have queued := withOutput_output registered outputBuffer
  simp only at ok
  split at ok
  · rw [onChannel_enableWriting queued.registered] at ok
    cases ok
    exact queued.trans (enableWriting_output _)
  · cases ok
    exact queued

theorem sendInLoop_output (registered : x.IsRegistered) {data : List UInt8}
    {result : WriteResult} (ok : x.sendInLoop data result = .ok y) : OutputStep x y := by
  unfold sendInLoop at ok
  split at ok
  next => cases ok; exact OutputStep.refl registered
  next =>
    -- Whether or not the direct write is tried.
    have tried : ∀ attempt : Session × Nat × Bool,
        attempt = (if !x.conn.channel.isWriting && x.conn.outputBuffer.readableBytes == 0 then
          x.directWrite data result else (x, 0, false)) → OutputStep x attempt.1 := by
      rintro attempt rfl
      split
      · exact directWrite_output registered data result
      · exact OutputStep.refl registered
    generalize attempt_eq : (if !x.conn.channel.isWriting &&
      x.conn.outputBuffer.readableBytes == 0 then x.directWrite data result
      else (x, 0, false)) = attempt at ok
    obtain ⟨z, nwrote, faultError⟩ := attempt
    have first := tried _ attempt_eq.symm
    obtain ⟨_, _, ok⟩ := Checked.bind_ok_iff.mp ok
    split at ok
    · exact first.trans (queueRest_output first.registered ok)
    · cases ok
      exact first

theorem send_output (registered : x.IsRegistered) {data : List UInt8}
    {result : WriteResult} (ok : x.send data result = .ok y) : OutputStep x y := by
  unfold send at ok
  split at ok
  · exact sendInLoop_output registered ok
  · cases ok
    exact OutputStep.refl registered

private theorem drained_output (registered : x.IsRegistered) (ok : x.drained = .ok y) :
    OutputStep x y := by
  simp only [drained, onChannel_disableWriting registered, Checked.ok_bind,
    Checked.pure_eq_ok] at ok
  have disabled := disableWriting_output x
  generalize (x.withEvents fun events => events &&& ~~~kWriteEvent) = z at *
  have notified : OutputStep x (if z.conn.hasWriteCompleteCallback = true then
      z.queueInLoop (.writeComplete z.conn.id) else z) := by
    split
    · exact disabled.trans (queueInLoop_output disabled.registered)
    · exact disabled
  generalize (if z.conn.hasWriteCompleteCallback = true then
    z.queueInLoop (.writeComplete z.conn.id) else z) = w at *
  cases ok
  split
  · exact notified.trans (shutdownInLoop_output notified.registered)
  · exact notified

theorem handleWrite_output (registered : x.IsRegistered) {result : WriteResult}
    (ok : x.handleWrite result = .ok y) : OutputStep x y := by
  unfold handleWrite at ok
  split at ok
  · obtain ⟨⟨n, taken, outputBuffer⟩, _, ok⟩ := Checked.bind_ok_iff.mp ok
    have given := withOutput_output registered outputBuffer
    have moved : OutputStep x ((x.withOutput outputBuffer).emit (.wrote taken)) :=
      given.trans (emit_output given.registered trivial)
    simp only at ok
    split at ok
    · split at ok
      · exact moved.trans (drained_output moved.registered ok)
      · cases ok
        exact moved
    · cases ok
      exact moved
  · cases ok
    exact OutputStep.refl registered

end Session

/-! ### All calls -/

/-- Every call keeps to its own connection, and the registration with it. -/
theorem Call.step_keeps {x y : Session} {c : Call} (registered : x.IsRegistered)
    (ok : c.step x = .ok y) : Keeps x y ∧ y.IsRegistered := by
  cases c with
  | connectEstablished =>
    rw [Call.step, Session.connectEstablished_eq registered
      (Session.connecting_of_connectEstablished ok)] at ok
    cases ok
    exact ⟨Session.established_keeps x, Session.established_registered x⟩
  | handleRead result =>
    refine ⟨Session.handleRead_keeps registered ok, ?_⟩
    obtain ⟨n, inputBuffer, _, outcome⟩ := Session.handleRead_inv ok
    have still : (x.withInput inputBuffer).IsRegistered := registered
    rcases outcome with ⟨_, rfl⟩ | ⟨_, closed⟩ | ⟨_, rfl⟩
    · split <;> exact still
    · exact (Session.handleClose_inv still closed).2.1
    · exact still
  | handleWrite result =>
    have output := Session.handleWrite_output registered ok
    exact ⟨output.toKeeps, output.registered⟩
  | handleClose =>
    exact ⟨Session.handleClose_keeps registered ok, (Session.handleClose_inv registered ok).2.1⟩
  | handleError =>
    cases ok
    exact ⟨Keeps.refl x, registered⟩
  | connectDestoryed =>
    refine ⟨Session.connectDestoryed_keeps registered ok, ?_⟩
    rw [Session.connectDestoryed_eq registered ok]
    exact Session.removed_registered _
  | send data result =>
    have output := Session.send_output registered ok
    exact ⟨output.toKeeps, output.registered⟩
  | shutdown =>
    cases ok
    unfold Session.shutdown
    split
    · have output := Session.shutdownInLoop_output (x := x.setState .kDisconnecting) registered
      exact ⟨(Session.setState_keeps x _).trans output.toKeeps, output.registered⟩
    · exact ⟨Keeps.refl x, registered⟩
  | retrieveInput len =>
    obtain ⟨inputBuffer, _, ok⟩ := Checked.bind_ok_iff.mp ok
    cases ok
    exact ⟨Session.withInput_keeps x inputBuffer, registered⟩
  | storeDisconnecting =>
    cases ok
    exact ⟨Session.setState_keeps x _, registered⟩
  | sendInLoop data result =>
    have output := Session.sendInLoop_output registered ok
    exact ⟨output.toKeeps, output.registered⟩
  | shutdownInLoop =>
    cases ok
    have output := Session.shutdownInLoop_output registered
    exact ⟨output.toKeeps, output.registered⟩

end Clia.Net
