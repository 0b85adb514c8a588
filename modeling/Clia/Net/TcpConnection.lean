import Clia.Net.Buffer
import Clia.Reactor.Channel

/-!
# TCP connections

`net/tcp_connection.cc`. The functions below run on the thread of the connection's loop, as
their assertions demand; what another thread does to a connection (a store to `state_`, a push
to the functor queue of the loop) is a step of the systems built on top.

Each function takes the results of the system calls it makes. What it does to the outside is
its trace: bytes the kernel accepted, `SHUT_WR`, and calls of the user's callbacks.
-/

namespace Clia.Net

open Reactor

/-! ### Names of objects -/

/-- The address of a `Channel`, by what owns it. -/
inductive ChannelPtr where
  | wakeup (loop : Nat)
  | acceptor
  | connection (id : Nat)
  deriving DecidableEq, Repr

/-- The functors this library queues. `id` names the connection they are bound to. -/
inductive Functor where
  | connectEstablished (id : Nat)
  | removeConnectionInLoop (id : Nat)
  | connectDestoryed (id : Nat)
  | writeComplete (id : Nat)
  | sendInLoop (id : Nat) (data : List UInt8)
  | shutdownInLoop (id : Nat)
  deriving DecidableEq, Repr

abbrev Loop := EventLoop ChannelPtr Functor

/-! ### The connection -/

inductive State where
  | kDisconnected
  | kConnecting
  | kConnected
  | kDisconnecting
  deriving DecidableEq, Repr

/-- `id` is the address of the object. The four flags say which callbacks are set. -/
structure TcpConnection where
  id : Nat
  fd : Nat
  state : State
  channel : Channel
  inputBuffer : Buffer
  outputBuffer : Buffer
  hasConnectionCallback : Bool
  hasMessageCallback : Bool
  hasWriteCompleteCallback : Bool
  hasCloseCallback : Bool
  deriving DecidableEq, Repr

/-- The constructor, before any callback is set. -/
def TcpConnection.new (id sockfd : Nat) : TcpConnection where
  id := id
  fd := sockfd
  state := .kConnecting
  channel := Channel.new sockfd
  inputBuffer := Buffer.new Buffer.kInitialSize
  outputBuffer := Buffer.new Buffer.kInitialSize
  hasConnectionCallback := false
  hasMessageCallback := false
  hasWriteCompleteCallback := false
  hasCloseCallback := false

/-- What a connection does to its surroundings. The flag of `connectionCallback` is what the
callback reads from `connected()`: up or down. -/
inductive Effect where
  | wrote (bytes : List UInt8)
  | shutdownWrite
  | connectionCallback (connected : Bool)
  | messageCallback
  | closeCallback
  deriving DecidableEq, Repr

/-- A connection on its loop, with the effects so far. -/
structure Session where
  conn : TcpConnection
  loop : Loop
  trace : List Effect

/-! ### `errno` -/

def EWOULDBLOCK : Nat := 11
def EPIPE : Nat := 32
def ECONNRESET : Nat := 104

/-- The write takes some prefix of what it is offered, or would block. -/
def WriteResult.Benign : WriteResult → Prop
  | .wrote _ => True
  | .failed errno => errno = EWOULDBLOCK

instance (result : WriteResult) : Decidable result.Benign :=
  match result with
  | .wrote _ => isTrue trivial
  | .failed errno => inferInstanceAs (Decidable (errno = EWOULDBLOCK))

namespace Session

def self (x : Session) : ChannelPtr := .connection x.conn.id

def emit (x : Session) (effect : Effect) : Session := { x with trace := x.trace ++ [effect] }

def setState (x : Session) (state : State) : Session :=
  { x with conn := { x.conn with state := state } }

def withOutput (x : Session) (outputBuffer : Buffer) : Session :=
  { x with conn := { x.conn with outputBuffer := outputBuffer } }

def withInput (x : Session) (inputBuffer : Buffer) : Session :=
  { x with conn := { x.conn with inputBuffer := inputBuffer } }

/-- `loop_->queue_in_loop` from the loop's own thread. -/
def queueInLoop (x : Session) (cb : Functor) : Session :=
  { x with loop := x.loop.queueInLoop true cb }

/-- A call of a member function of `channel_`. -/
def onChannel (x : Session)
    (call : Loop → ChannelPtr → Channel → Except Fault (Loop × Channel)) :
    Except Fault Session := do
  let (loop, channel) ← call x.loop x.self x.conn.channel
  return { x with loop := loop, conn := { x.conn with channel := channel } }

def connectionCallback (x : Session) : Session :=
  if x.conn.hasConnectionCallback then
    x.emit (.connectionCallback (x.conn.state == .kConnected))
  else x

/-! ### Output -/

def shutdownInLoop (x : Session) : Session :=
  if !x.conn.channel.isWriting then x.emit .shutdownWrite else x

/-- The direct `::write` of `send_in_loop`: the bytes taken, and whether the rest is given up.
The source tests `EPIPE == errno || ECONNRESET`. -/
def directWrite (x : Session) (data : List UInt8) (result : WriteResult) :
    Session × Nat × Bool :=
  match result with
  | .wrote n =>
    let taken := data.take n
    let remaining := data.length - taken.length
    let x := x.emit (.wrote taken)
    if remaining = 0 ∧ x.conn.hasWriteCompleteCallback then
      (x.queueInLoop (.writeComplete x.conn.id), taken.length, false)
    else
      (x, taken.length, false)
  -- `ECONNRESET` alone is the second operand, so every errno but `EWOULDBLOCK` gives up the rest.
  | .failed errno => (x, 0, errno != EWOULDBLOCK && (EPIPE == errno || ECONNRESET != 0))

/-- The part of `send_in_loop` that queues what was not written. -/
def queueRest (x : Session) (rest : List UInt8) : Except Fault Session := do
  let outputBuffer ← x.conn.outputBuffer.append rest
  let x := x.withOutput outputBuffer
  if !x.conn.channel.isWriting then x.onChannel Channel.enableWriting else return x

def sendInLoop (x : Session) (data : List UInt8) (result : WriteResult) :
    Except Fault Session :=
  if x.conn.state = .kDisconnected then .ok x
  else do
    let (x, nwrote, faultError) :=
      if !x.conn.channel.isWriting && x.conn.outputBuffer.readableBytes == 0 then
        x.directWrite data result
      else (x, 0, false)
    let remaining := data.length - nwrote
    cassert (remaining ≤ data.length) .remainingBounded
    -- Whatever the direct write left waits for the next writable event.
    if !faultError && decide (remaining > 0) then x.queueRest (data.drop nwrote) else return x

/-- `send` on the loop's own thread. -/
def send (x : Session) (data : List UInt8) (result : WriteResult) : Except Fault Session :=
  if x.conn.state = .kConnected then x.sendInLoop data result else .ok x

/-- `shutdown` on the loop's own thread: `run_in_loop` calls the functor at once. -/
def shutdown (x : Session) : Session :=
  if x.conn.state = .kConnected then (x.setState .kDisconnecting).shutdownInLoop else x

/-- What `handle_write` does once `output_buffer_` has run empty. -/
def drained (x : Session) : Except Fault Session := do
  let x ← x.onChannel Channel.disableWriting
  let x := if x.conn.hasWriteCompleteCallback then x.queueInLoop (.writeComplete x.conn.id) else x
  return if x.conn.state = .kDisconnecting then x.shutdownInLoop else x

def handleWrite (x : Session) (result : WriteResult) : Except Fault Session :=
  if x.conn.channel.isWriting then do
    let (n, taken, outputBuffer) ← x.conn.outputBuffer.writeFd result
    let x := (x.withOutput outputBuffer).emit (.wrote taken)
    if n > 0 then
      if outputBuffer.readableBytes = 0 then x.drained else return x
    else return x
  else .ok x

/-! ### Life cycle -/

def connectEstablished (x : Session) : Except Fault Session := do
  cassert (x.conn.state = .kConnecting) .connecting
  let x := x.setState .kConnected
  let x := { x with conn := { x.conn with channel := x.conn.channel.tie } }
  let x ← x.onChannel Channel.enableReading
  return x.connectionCallback

def handleClose (x : Session) : Except Fault Session := do
  cassert (x.conn.state = .kConnected ∨ x.conn.state = .kDisconnecting) .closable
  let x := x.setState .kDisconnected
  let x ← x.onChannel Channel.disableAll
  let x := x.connectionCallback
  return if x.conn.hasCloseCallback then x.emit .closeCallback else x

/-- `handle_error` only logs. -/
def handleError (x : Session) : Session := x

def handleRead (x : Session) (result : ReadResult) : Except Fault Session := do
  let (n, inputBuffer) ← x.conn.inputBuffer.readFd result
  let x := x.withInput inputBuffer
  if n > 0 then
    return if x.conn.hasMessageCallback then x.emit .messageCallback else x
  else if n = 0 then x.handleClose
  else
    -- `n < 0`
    return x.handleError

def connectDestoryed (x : Session) : Except Fault Session := do
  let x ←
    if x.conn.state = .kConnected then do
      let x := x.setState .kDisconnected
      let x ← x.onChannel Channel.disableAll
      pure x.connectionCallback
    else pure x
  x.onChannel Channel.remove

/-! ### Interest changes of a session -/

/-- The session after its channel's interest was changed and the poller told so. -/
def withEvents (x : Session) (change : Mask → Mask) : Session :=
  let channel := { x.conn.channel with events := change x.conn.channel.events }
  { x with
    loop := { x.loop with poller := x.loop.poller.updated x.self channel }
    conn := { x.conn with
      channel := { channel with index := channel.nextIndex, addedToLoop := true } } }

/-- The poller knows the connection's channel as its index says. -/
def IsRegistered (x : Session) : Prop := Registered x.loop.poller x.self x.conn.channel

theorem onChannel_setEvents {x : Session} (registered : x.IsRegistered) (change : Mask → Mask) :
    x.onChannel (Channel.setEvents change) = .ok (x.withEvents change) := by
  have ok := Channel.update_ok x.loop x.self
    { x.conn.channel with events := change x.conn.channel.events } registered
  simp only [onChannel, Channel.setEvents, ok, Checked.ok_bind, Checked.pure_eq_ok]
  rfl

theorem onChannel_enableWriting {x : Session} (registered : x.IsRegistered) :
    x.onChannel Channel.enableWriting =
      .ok (x.withEvents fun events => events ||| kWriteEvent) := by
  rw [← onChannel_setEvents registered]
  rfl

theorem onChannel_disableWriting {x : Session} (registered : x.IsRegistered) :
    x.onChannel Channel.disableWriting =
      .ok (x.withEvents fun events => events &&& ~~~kWriteEvent) := by
  rw [← onChannel_setEvents registered]
  rfl

theorem onChannel_enableReading {x : Session} (registered : x.IsRegistered) :
    x.onChannel Channel.enableReading =
      .ok (x.withEvents fun events => events ||| kReadEvent) := by
  rw [← onChannel_setEvents registered]
  rfl

theorem onChannel_disableAll {x : Session} (registered : x.IsRegistered) :
    x.onChannel Channel.disableAll = .ok (x.withEvents fun _ => kNoneEvent) := by
  rw [← onChannel_setEvents registered]
  rfl

theorem withEvents_registered (x : Session) (change : Mask → Mask) :
    (x.withEvents change).IsRegistered := Registered.updated

theorem withEvents_isWriting (x : Session) (change : Mask → Mask) :
    (x.withEvents change).conn.channel.isWriting =
      (change x.conn.channel.events).has kWriteEvent := rfl

@[simp] theorem withEvents_state (x : Session) (change : Mask → Mask) :
    (x.withEvents change).conn.state = x.conn.state := rfl

@[simp] theorem withEvents_outputBuffer (x : Session) (change : Mask → Mask) :
    (x.withEvents change).conn.outputBuffer = x.conn.outputBuffer := rfl

@[simp] theorem withEvents_trace (x : Session) (change : Mask → Mask) :
    (x.withEvents change).trace = x.trace := rfl

/-! ### The life cycle on a registered channel -/

@[simp] theorem connectionCallback_conn (x : Session) : x.connectionCallback.conn = x.conn := by
  unfold connectionCallback
  split <;> rfl

@[simp] theorem connectionCallback_loop (x : Session) : x.connectionCallback.loop = x.loop := by
  unfold connectionCallback
  split <;> rfl

theorem connectionCallback_trace (x : Session) :
    x.connectionCallback.trace = x.trace ++ (if x.conn.hasConnectionCallback then
      [.connectionCallback (x.conn.state == .kConnected)] else []) := by
  unfold connectionCallback
  split <;> simp [emit]

/-- The session after `connect_established`. -/
def established (x : Session) : Session :=
  let tied := { x.conn with state := .kConnected, channel := x.conn.channel.tie }
  (withEvents { x with conn := tied } fun events => events ||| kReadEvent).connectionCallback

/-- The session after `state_` became `kDisconnected` and the interest went. -/
def disconnected (x : Session) : Session :=
  ((x.setState .kDisconnected).withEvents fun _ => kNoneEvent).connectionCallback

theorem connectEstablished_eq {x : Session} (registered : x.IsRegistered)
    (connecting : x.conn.state = .kConnecting) : x.connectEstablished = .ok x.established := by
  have tied : IsRegistered { x with
      conn := { x.conn with state := .kConnected, channel := x.conn.channel.tie } } := registered
  simp only [connectEstablished, cassert_pos _ connecting, Checked.ok_bind, setState,
    onChannel_enableReading tied]
  rfl

@[simp] theorem disconnected_state (x : Session) : x.disconnected.conn.state = .kDisconnected := by
  rw [disconnected, connectionCallback_conn]
  rfl

theorem disconnected_registered (x : Session) : x.disconnected.IsRegistered := by
  simp only [disconnected, IsRegistered, self, connectionCallback_conn, connectionCallback_loop]
  exact withEvents_registered _ _

theorem handleClose_eq {x : Session} (registered : x.IsRegistered)
    (closable : x.conn.state = .kConnected ∨ x.conn.state = .kDisconnecting) :
    x.handleClose = .ok (if x.conn.hasCloseCallback then x.disconnected.emit .closeCallback
      else x.disconnected) := by
  have still : (x.setState .kDisconnected).IsRegistered := registered
  have flag : x.disconnected.conn.hasCloseCallback = x.conn.hasCloseCallback := by
    rw [disconnected, connectionCallback_conn]
    rfl
  simp only [handleClose, cassert_pos _ closable, Checked.ok_bind, onChannel_disableAll still]
  rw [← disconnected, flag]
  rfl

/-- The session after its channel left the poller. -/
def removed (x : Session) : Session :=
  { x with
    loop := { x.loop with poller := x.loop.poller.removed x.conn.channel.fd }
    conn := { x.conn with
      channel := { x.conn.channel with index := .kNew, addedToLoop := false } } }

theorem removed_registered (x : Session) : x.removed.IsRegistered := Registered.removed

/-- The loop is not about to handle the channel of the connection. -/
def Inactive (x : Session) : Prop :=
  x.loop.eventHanding = true →
    x.loop.currentActiveChannel = some x.self ∨ x.self ∉ x.loop.activeChannels

instance (x : Session) : Decidable x.Inactive := by
  unfold Inactive
  infer_instance

/-- A removal goes through exactly if every assertion on its way holds. -/
theorem onChannel_remove_iff {x y : Session} (registered : x.IsRegistered) :
    x.onChannel Channel.remove = .ok y ↔ x.conn.channel.index ≠ .kNew ∧
      x.conn.channel.events = kNoneEvent ∧ x.Inactive ∧ y = x.removed := by
  constructor
  · intro ok
    obtain ⟨result, removed_ok, _⟩ := Checked.bind_ok_iff.mp ok
    obtain ⟨known, quiet, inactive⟩ := Channel.remove_inv removed_ok
    simp only [onChannel, Channel.remove_ok x.loop x.self x.conn.channel registered known quiet
      inactive, Checked.ok_bind, Checked.pure_eq_ok] at ok
    exact ⟨known, quiet, inactive, (Except.ok.inj ok).symm⟩
  · rintro ⟨known, quiet, inactive, rfl⟩
    simp only [onChannel, Channel.remove_ok x.loop x.self x.conn.channel registered known quiet
      inactive, Checked.ok_bind, Checked.pure_eq_ok]
    rfl

/-- `connect_destoryed` goes through exactly if its channel has no interest by the time it is
removed: the interest of a connection that is up goes on the way. -/
theorem connectDestoryed_iff {x y : Session} (registered : x.IsRegistered) :
    x.connectDestoryed = .ok y ↔
      (x.conn.state = .kConnected ∨
        x.conn.channel.index ≠ .kNew ∧ x.conn.channel.events = kNoneEvent) ∧ x.Inactive ∧
      y = (if x.conn.state = .kConnected then x.disconnected else x).removed := by
  have still : (x.setState .kDisconnected).IsRegistered := registered
  unfold connectDestoryed
  by_cases connected : x.conn.state = .kConnected
  · -- The interest is taken back first, which also registers a channel that was not.
    have known : x.disconnected.conn.channel.index ≠ .kNew := by
      rw [disconnected, connectionCallback_conn]
      simp only [withEvents, Channel.nextIndex]
      split <;> simp
    have quiet : x.disconnected.conn.channel.events = kNoneEvent := by
      rw [disconnected, connectionCallback_conn]
      rfl
    have inactive : x.disconnected.Inactive ↔ x.Inactive := by
      simp only [Inactive, self, disconnected, connectionCallback_conn, connectionCallback_loop]
      rfl
    simp only [connected, if_true, onChannel_disableAll still, Checked.ok_bind,
      Checked.pure_eq_ok]
    rw [← disconnected, onChannel_remove_iff x.disconnected_registered, inactive]
    simp [known, quiet]
  · -- In every other state the channel is removed as it stands.
    simp only [connected, if_false, Checked.pure_eq_ok, Checked.ok_bind]
    rw [onChannel_remove_iff registered]
    simp [and_assoc]

/-- A `connect_destoryed` that returns has the known result. -/
theorem connectDestoryed_eq {x y : Session} (registered : x.IsRegistered)
    (ok : x.connectDestoryed = .ok y) :
    y = (if x.conn.state = .kConnected then x.disconnected else x).removed :=
  ((connectDestoryed_iff registered).mp ok).2.2

/-- A close that returns was legal. -/
theorem closable_of_handleClose {x y : Session} (closed : x.handleClose = .ok y) :
    x.conn.state = .kConnected ∨ x.conn.state = .kDisconnecting := by
  unfold handleClose at closed
  obtain ⟨_, asserted, _⟩ := Checked.bind_ok_iff.mp closed
  exact cassert_ok_iff.mp asserted

theorem disconnected_effects (x : Session) : x.disconnected.trace = x.trace ++
    (if x.conn.hasConnectionCallback then [.connectionCallback false] else []) := by
  rw [disconnected, connectionCallback_trace]
  rfl

/-- A close that returns leaves the connection disconnected, and it has called the down callback
and then the close callback, if they are set. -/
theorem handleClose_inv {x y : Session} (registered : x.IsRegistered) (ok : x.handleClose = .ok y) :
    y.conn = x.disconnected.conn ∧ y.IsRegistered ∧ y.trace = x.trace ++
      ((if x.conn.hasConnectionCallback then [.connectionCallback false] else []) ++
        (if x.conn.hasCloseCallback then [.closeCallback] else [])) := by
  rw [handleClose_eq registered (closable_of_handleClose ok)] at ok
  cases ok
  by_cases flag : x.conn.hasCloseCallback = true
  · rw [if_pos flag]
    exact ⟨rfl, x.disconnected_registered, by simp [flag, emit, disconnected_effects]⟩
  · rw [if_neg flag]
    exact ⟨rfl, x.disconnected_registered, by simp [flag, disconnected_effects]⟩

/-- The three ways a read goes. -/
theorem handleRead_inv {x y : Session} {read : ReadResult} (ok : x.handleRead read = .ok y) :
    ∃ n inputBuffer, x.conn.inputBuffer.readFd read = .ok (n, inputBuffer) ∧
      (0 < n ∧ y = (if x.conn.hasMessageCallback then (x.withInput inputBuffer).emit .messageCallback
          else x.withInput inputBuffer) ∨
        n = 0 ∧ (x.withInput inputBuffer).handleClose = .ok y ∨
        n < 0 ∧ y = x.withInput inputBuffer) := by
  obtain ⟨⟨n, inputBuffer⟩, taken, ok⟩ := Checked.bind_ok_iff.mp ok
  refine ⟨n, inputBuffer, taken, ?_⟩
  simp only at ok
  split at ok
  next bytes => exact .inl ⟨bytes, (Except.ok.inj ok).symm⟩
  next =>
    split at ok
    next ended => exact .inr (.inl ⟨ended, ok⟩)
    next => exact .inr (.inr ⟨by omega, (Except.ok.inj ok).symm⟩)

theorem connecting_of_connectEstablished {x y : Session} (ok : x.connectEstablished = .ok y) :
    x.conn.state = .kConnecting := by
  unfold connectEstablished at ok
  obtain ⟨_, asserted, _⟩ := Checked.bind_ok_iff.mp ok
  exact cassert_ok_iff.mp asserted

end Session

/-! ### Calls

What happens to a connection on its loop's thread, as labels of a step function. The user's
callbacks are the last thing their handlers do (or, in `handle_close`, run in a state in which
`send` and `shutdown` return at once), so what a callback calls is a label of its own. The
first half of a foreign thread's `shutdown` is `storeDisconnecting`; the second halves of its
calls reach the loop's thread as `sendInLoop` and `shutdownInLoop`. -/

inductive Call where
  | connectEstablished
  | handleRead (result : ReadResult)
  | handleWrite (result : WriteResult)
  | handleClose
  | handleError
  | connectDestoryed
  | send (data : List UInt8) (result : WriteResult)
  | shutdown
  | retrieveInput (len : Nat)
  | storeDisconnecting
  | sendInLoop (data : List UInt8) (result : WriteResult)
  | shutdownInLoop
  deriving DecidableEq, Repr

namespace Call

def step (x : Session) : Call → Except Fault Session
  | .connectEstablished => x.connectEstablished
  | .handleRead result => x.handleRead result
  | .handleWrite result => x.handleWrite result
  | .handleClose => x.handleClose
  | .handleError => .ok x.handleError
  | .connectDestoryed => x.connectDestoryed
  | .send data result => x.send data result
  | .shutdown => .ok x.shutdown
  | .retrieveInput len => do
    let inputBuffer ← x.conn.inputBuffer.retrieve len
    return x.withInput inputBuffer
  | .storeDisconnecting => .ok (x.setState .kDisconnecting)
  | .sendInLoop data result => x.sendInLoop data result
  | .shutdownInLoop => .ok x.shutdownInLoop

/-- Every `::write` of the call takes a prefix of what it is offered, or would block. -/
def Benign : Call → Prop
  | .handleWrite result => result.Benign
  | .send _ result => result.Benign
  | .sendInLoop _ result => result.Benign
  | _ => True

instance (c : Call) : Decidable c.Benign := by
  cases c <;> unfold Benign <;> infer_instance

/-- The calls that a channel makes when it is dispatched. -/
def IsHandler : Call → Prop
  | .handleRead _ | .handleWrite _ | .handleClose | .handleError => True
  | _ => False

/-- The calls that user code makes on the thread of the loop. -/
def IsUser : Call → Prop
  | .send _ _ | .shutdown | .retrieveInput _ => True
  | _ => False

instance (c : Call) : Decidable c.IsHandler := by
  cases c <;> unfold IsHandler <;> infer_instance

instance (c : Call) : Decidable c.IsUser := by
  cases c <;> unfold IsUser <;> infer_instance

end Call

/-! ### Starting points -/

/-- A connection as `new_connection` hands it to its loop: constructed, and with the callbacks
the server has. -/
def TcpConnection.accepted (id sockfd : Nat) (connection message writeComplete close : Bool) :
    TcpConnection :=
  { TcpConnection.new id sockfd with
    hasConnectionCallback := connection
    hasMessageCallback := message
    hasWriteCompleteCallback := writeComplete
    hasCloseCallback := close }

/-- The session after `connect_established` on a loop that does not know the descriptor. -/
def Session.Established (x : Session) : Prop :=
  ∃ id sockfd connection message writeComplete close, ∃ loop : Loop,
    loop.poller.channels sockfd = none ∧ loop.poller.interest sockfd = none ∧
    Session.connectEstablished
      ⟨.accepted id sockfd connection message writeComplete close, loop, []⟩ = .ok x

end Clia.Net
