import Clia.Net.SendErrors

/-!
# The two streams of a connection

Every call of a connection, seen from its two buffers: what it adds to the bytes that are to go out,
what it takes from the kernel and what it gives to the user. `Streams` says that nothing else happens
to the bytes, and that write interest marks exactly the bytes that wait while the connection is not
down.
-/

namespace Clia.Net

open Reactor LabelledRun

/-! ### What a call adds -/

namespace TcpConnection

/-- The direct write of a send is tried and fails for good. -/
def Refuses (c : TcpConnection) (result : WriteResult) : Prop :=
  c.channel.isWriting = false ∧ c.outputBuffer.readableBytes = 0 ∧ ¬result.Benign

instance (c : TcpConnection) (result : WriteResult) : Decidable (c.Refuses result) := by
  unfold Refuses
  infer_instance

/-- The bytes that the call is to send: a payload is taken whole or not at all. -/
def accepts (c : TcpConnection) : Call → List UInt8
  | .send data result => if c.state = .kConnected ∧ ¬c.Refuses result then data else []
  | .sendInLoop data result => if c.state ≠ .kDisconnected ∧ ¬c.Refuses result then data else []
  | _ => []

/-- The bytes that the call gets from the kernel. -/
def receives (c : TcpConnection) : Call → List UInt8
  | .handleRead result =>
    match result with
    | .received bytes => bytes.take (c.inputBuffer.writableBytes + Buffer.kExtraSize)
    | .failed _ => []
  | _ => []

/-- The bytes that the call gives to the user. -/
def retrieves (c : TcpConnection) : Call → List UInt8
  | .retrieveInput len => c.inputBuffer.readable.take len
  | _ => []

end TcpConnection

/-- The bytes of a connection: those sent have gone or wait, those received were retrieved or wait. -/
structure Streams (c : TcpConnection) (trace : List Effect) (sent received retrieved : List UInt8) :
    Prop where
  outputBuffer : c.outputBuffer.Inv
  inputBuffer : c.inputBuffer.Inv
  output : written trace ++ c.outputBuffer.readable = sent
  interest : c.channel.isWriting = true ↔ c.state ≠ .kDisconnected ∧ c.outputBuffer.readable ≠ []
  input : retrieved ++ c.inputBuffer.readable = received

namespace Session

variable {x y : Session} {data : List UInt8} {result : WriteResult}

/-! ### Calls that leave the input -/

theorem onChannel_inputBuffer {call : Loop → ChannelPtr → Channel → Except Fault (Loop × Channel)}
    (ok : x.onChannel call = .ok y) : y.conn.inputBuffer = x.conn.inputBuffer := by
  obtain ⟨_, _, ok⟩ := Checked.bind_ok_iff.mp ok
  cases ok
  rfl

theorem directWrite_conn (x : Session) (data : List UInt8) (result : WriteResult) :
    (x.directWrite data result).1.conn = x.conn := by
  cases result with
  | failed errno => rfl
  | wrote n =>
    simp only [directWrite]
    split <;> rfl

theorem queueRest_inputBuffer (ok : x.queueRest data = .ok y) :
    y.conn.inputBuffer = x.conn.inputBuffer := by
  obtain ⟨outputBuffer, _, ok⟩ := Checked.bind_ok_iff.mp ok
  simp only at ok
  split at ok
  · rw [onChannel_inputBuffer ok]
    rfl
  · cases ok
    rfl

theorem sendInLoop_inputBuffer (ok : x.sendInLoop data result = .ok y) :
    y.conn.inputBuffer = x.conn.inputBuffer := by
  unfold sendInLoop at ok
  split at ok
  · cases ok
    rfl
  · -- Whether the direct write was tried or not, the connection is the same after it.
    have attempt : (if !x.conn.channel.isWriting && x.conn.outputBuffer.readableBytes == 0 then
        x.directWrite data result else (x, 0, false)).1.conn = x.conn := by
      split
      · exact directWrite_conn x data result
      · rfl
    generalize (if !x.conn.channel.isWriting && x.conn.outputBuffer.readableBytes == 0 then
      x.directWrite data result else (x, 0, false)) = tried at ok attempt
    obtain ⟨z, nwrote, faultError⟩ := tried
    obtain ⟨_, _, ok⟩ := Checked.bind_ok_iff.mp ok
    rw [← attempt]
    split at ok
    · exact queueRest_inputBuffer ok
    · cases ok
      rfl

theorem drained_inputBuffer (ok : x.drained = .ok y) : y.conn.inputBuffer = x.conn.inputBuffer := by
  obtain ⟨z, disabled, ok⟩ := Checked.bind_ok_iff.mp ok
  cases ok
  rw [← onChannel_inputBuffer disabled]
  split <;> split <;> simp [shutdownInLoop_conn, queueInLoop]

theorem handleWrite_inputBuffer (ok : x.handleWrite result = .ok y) :
    y.conn.inputBuffer = x.conn.inputBuffer := by
  unfold handleWrite at ok
  split at ok
  · obtain ⟨⟨n, taken, after⟩, _, ok⟩ := Checked.bind_ok_iff.mp ok
    simp only at ok
    split at ok
    · split at ok
      · rw [drained_inputBuffer ok]
        rfl
      · cases ok
        rfl
    · cases ok
      rfl
  · cases ok
    rfl

end Session

namespace Streams

variable {c : TcpConnection} {trace : List Effect} {sent received retrieved data : List UInt8}
  {loop : Loop} {y : Session}

theorem new (id sockfd : Nat) (connection message writeComplete close : Bool) :
    Streams (.accepted id sockfd connection message writeComplete close) [] [] [] [] := by
  have quiet : Mask.has 0#32 kWriteEvent = false := by decide
  have empty : (Buffer.new Buffer.kInitialSize).readable = [] := Buffer.readable_new _
  refine ⟨Buffer.inv_new _, Buffer.inv_new _, ?_, ?_, ?_⟩
  · simp [TcpConnection.accepted, TcpConnection.new, empty]
  · simp [TcpConnection.accepted, TcpConnection.new, empty, Channel.isWriting, Channel.new, quiet]
  · simp [TcpConnection.accepted, TcpConnection.new, empty]

/-- The two streams, without what waits. -/
theorem initial (streams : Streams c trace sent received retrieved) :
    written trace <+: sent ∧ retrieved <+: received :=
  ⟨⟨_, streams.output⟩, ⟨_, streams.input⟩⟩

/-- While the connection is not down, the output side is in order on its own. -/
theorem outputInv (streams : Streams c trace sent received retrieved)
    (registered : Session.IsRegistered ⟨c, loop, []⟩) (up : c.state ≠ .kDisconnected) :
    OutputInv ⟨c, loop, []⟩ c.outputBuffer.readable where
  buffer := streams.outputBuffer
  registered := registered
  integrity := rfl
  interest := by
    rw [streams.interest]
    exact and_iff_right up

/-- An output call, from what it did to the output side. -/
theorem of_outputInv (streams : Streams c trace sent received retrieved)
    (inv : OutputInv y (c.outputBuffer.readable ++ data)) (up : y.conn.state ≠ .kDisconnected)
    (input : y.conn.inputBuffer = c.inputBuffer) :
    Streams y.conn (trace ++ y.trace) (sent ++ data) received retrieved where
  outputBuffer := inv.buffer
  inputBuffer := input ▸ streams.inputBuffer
  output := by
    rw [written_append, List.append_assoc, inv.integrity, ← streams.output, List.append_assoc]
  interest := by
    rw [inv.interest]
    exact (and_iff_right up).symm
  input := input ▸ streams.input

/-- A call that changes neither the bytes nor the interest. -/
theorem of_same (streams : Streams c trace sent received retrieved) {c' : TcpConnection}
    {effects : List Effect} (none : written effects = [])
    (output : c'.outputBuffer = c.outputBuffer) (input : c'.inputBuffer = c.inputBuffer)
    (interest : c'.channel.isWriting = true ↔
      c'.state ≠ .kDisconnected ∧ c.outputBuffer.readable ≠ []) :
    Streams c' (trace ++ effects) sent received retrieved where
  outputBuffer := output ▸ streams.outputBuffer
  inputBuffer := input ▸ streams.inputBuffer
  output := by
    rw [written_append, none, List.append_nil, output]
    exact streams.output
  interest := by
    rw [output]
    exact interest
  input := input ▸ streams.input

theorem sendInLoop (streams : Streams c trace sent received retrieved)
    (registered : Session.IsRegistered ⟨c, loop, []⟩) {result : WriteResult}
    (ok : Session.sendInLoop ⟨c, loop, []⟩ data result = .ok y) :
    Streams y.conn (trace ++ y.trace)
      (sent ++ if c.state ≠ .kDisconnected ∧ ¬c.Refuses result then data else [])
      received retrieved := by
  by_cases takes : c.state ≠ .kDisconnected ∧ ¬c.Refuses result
  · obtain ⟨up, willing⟩ := takes
    have benign : Session.Direct ⟨c, loop, []⟩ → result.Benign := by
      intro direct
      by_contra hard
      exact willing ⟨direct.1, direct.2, hard⟩
    obtain ⟨z, k, ok', done⟩ :=
      Session.sendInLoop_sent streams.outputBuffer registered up data benign
    rw [ok'] at ok
    cases ok
    rw [if_pos ⟨up, willing⟩]
    exact streams.of_outputInv (done.outputInv (streams.outputInv registered up))
      (done.state ▸ up) (Session.sendInLoop_inputBuffer ok')
  · -- Nothing of the payload is taken.
    have givesUp : Session.GivesUp ⟨c, loop, []⟩ result := by
      by_cases down : c.state = .kDisconnected
      · exact .inl down
      · have refuses : c.Refuses result := by simpa [down] using takes
        exact .inr refuses
    rw [Session.sendInLoop_givesUp givesUp] at ok
    cases ok
    rw [if_neg takes, List.append_nil, List.append_nil]
    exact streams

theorem handleWrite (streams : Streams c trace sent received retrieved)
    (registered : Session.IsRegistered ⟨c, loop, []⟩) {result : WriteResult}
    (ok : Session.handleWrite ⟨c, loop, []⟩ result = .ok y) :
    Streams y.conn (trace ++ y.trace) sent received retrieved := by
  by_cases down : c.state = .kDisconnected
  · -- The interest went when the connection did.
    have quiet : ¬c.channel.isWriting = true := by simp [streams.interest, down]
    simp only [Session.handleWrite, if_neg quiet] at ok
    cases ok
    rw [List.append_nil]
    exact streams
  · obtain ⟨z, ok', inv, same, -⟩ :=
      Session.handleWrite_spec (streams.outputInv registered down) result
    rw [ok'] at ok
    cases ok
    rw [← List.append_nil c.outputBuffer.readable] at inv
    have kept := streams.of_outputInv inv (same ▸ down) (Session.handleWrite_inputBuffer ok')
    rwa [List.append_nil] at kept

theorem disconnected (streams : Streams c trace sent received retrieved) {x : Session}
    (conn : x.conn = (Session.disconnected ⟨c, loop, []⟩).conn) {effects : List Effect}
    (none : written effects = []) : Streams x.conn (trace ++ effects) sent received retrieved := by
  rw [conn, Session.disconnected, Session.connectionCallback_conn]
  apply streams.of_same none
  · rfl
  · rfl
  · simp [Session.withEvents_isWriting, Session.setState, Mask.has, kNoneEvent]

/-- The channel is given its first interest, in bytes to read. -/
theorem established (streams : Streams c trace sent received retrieved)
    (connecting : c.state = .kConnecting) :
    Streams (Session.established ⟨c, loop, []⟩).conn
      (trace ++ (Session.established ⟨c, loop, []⟩).trace) sent received retrieved := by
  have reads : ∀ mask : Mask,
      Mask.has (mask ||| kReadEvent) kWriteEvent = Mask.has mask kWriteEvent := by
    intro mask
    rw [has_kWriteEvent, has_kWriteEvent]
    simp [kReadEvent, EPOLLIN, EPOLLPRI]
  have none : written (Session.established ⟨c, loop, []⟩).trace = [] := by
    rw [Session.established, Session.connectionCallback_trace]
    split <;> simp [written, Session.withEvents]
  have conn : (Session.established ⟨c, loop, []⟩).conn =
      (Session.withEvents ⟨{ c with state := .kConnected, channel := c.channel.tie }, loop, []⟩
        fun events => events ||| kReadEvent).conn := by
    rw [Session.established, Session.connectionCallback_conn]
  apply streams.of_same none
  · rw [conn]
    rfl
  · rw [conn]
    rfl
  · rw [conn, Session.withEvents_isWriting, Session.withEvents_state]
    have interest := streams.interest
    simp only [connecting, Channel.isWriting] at interest
    simp only [Channel.tie, reads, interest]
    simp

/-- A read that brings bytes, or none and an error. -/
theorem withInput (streams : Streams c trace sent received retrieved) {inputBuffer : Buffer}
    {bytes : List UInt8} (inv : inputBuffer.Inv)
    (readable : inputBuffer.readable = c.inputBuffer.readable ++ bytes) :
    Streams { c with inputBuffer := inputBuffer } trace sent (received ++ bytes) retrieved where
  outputBuffer := streams.outputBuffer
  inputBuffer := inv
  output := streams.output
  interest := streams.interest
  input := by rw [readable, ← List.append_assoc, streams.input]

theorem retrieve (streams : Streams c trace sent received retrieved) {inputBuffer : Buffer}
    {len : Nat} (ok : c.inputBuffer.retrieve len = .ok inputBuffer) :
    Streams { c with inputBuffer := inputBuffer } trace sent received
      (retrieved ++ c.inputBuffer.readable.take len) := by
  obtain ⟨_, asserted, _⟩ := Checked.bind_ok_iff.mp ok
  obtain ⟨after, ok', inv, rest⟩ :=
    Buffer.retrieve_spec streams.inputBuffer (cassert_ok_iff.mp asserted)
  rw [ok'] at ok
  cases ok
  refine ⟨streams.outputBuffer, inv, streams.output, streams.interest, ?_⟩
  rw [rest, List.append_assoc, List.take_append_drop]
  exact streams.input

/-- What `read_fd` puts into the buffer, and what it returns. -/
theorem readFd_receives (inv : c.inputBuffer.Inv) {result : ReadResult} {n : Int}
    {inputBuffer : Buffer} (ok : c.inputBuffer.readFd result = .ok (n, inputBuffer)) :
    inputBuffer.Inv ∧
    inputBuffer.readable = c.inputBuffer.readable ++ c.receives (.handleRead result) ∧
    (0 < n ↔ c.receives (.handleRead result) ≠ []) := by
  obtain ⟨_, _, ok⟩ := Checked.bind_ok_iff.mp ok
  obtain ⟨⟨m, after⟩, got, ok⟩ := Checked.bind_ok_iff.mp ok
  obtain ⟨_, _, ok⟩ := Checked.bind_ok_iff.mp ok
  cases ok
  cases result with
  | failed errno =>
    cases got
    exact ⟨inv, (List.append_nil _).symm, by simp [TcpConnection.receives]⟩
  | received bytes =>
    obtain ⟨after', got', inv', readable⟩ := Buffer.receive_spec inv bytes
    rw [got'] at got
    cases got
    refine ⟨inv', readable, ?_⟩
    rw [TcpConnection.receives, Int.natCast_pos, List.length_pos_iff]

theorem readFd (streams : Streams c trace sent received retrieved) {result : ReadResult} {n : Int}
    {inputBuffer : Buffer} (ok : c.inputBuffer.readFd result = .ok (n, inputBuffer)) :
    Streams { c with inputBuffer := inputBuffer } trace sent
      (received ++ c.receives (.handleRead result)) retrieved := by
  obtain ⟨inv, readable, -⟩ := readFd_receives streams.inputBuffer ok
  exact streams.withInput inv readable

end Streams

namespace Streams

variable {c : TcpConnection} {trace : List Effect} {sent received retrieved : List UInt8}
  {loop : Loop} {y : Session}

theorem handleClose (streams : Streams c trace sent received retrieved)
    (registered : Session.IsRegistered ⟨c, loop, []⟩)
    (ok : Session.handleClose ⟨c, loop, []⟩ = .ok y) :
    Streams y.conn (trace ++ y.trace) sent received retrieved := by
  obtain ⟨conn, -, effects⟩ := Session.handleClose_inv registered ok
  have none : written y.trace = [] := by
    rw [effects]
    split <;> split <;> rfl
  exact streams.disconnected conn none

theorem handleRead (streams : Streams c trace sent received retrieved)
    (registered : Session.IsRegistered ⟨c, loop, []⟩) {result : ReadResult}
    (ok : Session.handleRead ⟨c, loop, []⟩ result = .ok y) :
    Streams y.conn (trace ++ y.trace) sent (received ++ c.receives (.handleRead result))
      retrieved := by
  obtain ⟨n, inputBuffer, taken, outcome⟩ := Session.handleRead_inv ok
  have kept := streams.readFd taken
  rcases outcome with ⟨-, rfl⟩ | ⟨-, closed⟩ | ⟨-, rfl⟩
  · have none : written [Effect.messageCallback] = [] := rfl
    split
    · exact kept.of_same none rfl rfl kept.interest
    · simpa [Session.withInput] using kept
  · exact kept.handleClose (c := { c with inputBuffer := inputBuffer }) registered closed
  · simpa [Session.withInput] using kept

theorem shutdownInLoop (streams : Streams c trace sent received retrieved) :
    Streams (Session.shutdownInLoop ⟨c, loop, []⟩).conn
      (trace ++ (Session.shutdownInLoop ⟨c, loop, []⟩).trace) sent received retrieved := by
  have none : written (Session.shutdownInLoop ⟨c, loop, []⟩).trace = [] := by
    unfold Session.shutdownInLoop
    split <;> rfl
  rw [Session.shutdownInLoop_conn]
  exact streams.of_same none rfl rfl streams.interest

theorem shutdown (streams : Streams c trace sent received retrieved) :
    Streams (Session.shutdown ⟨c, loop, []⟩).conn
      (trace ++ (Session.shutdown ⟨c, loop, []⟩).trace) sent received retrieved := by
  unfold Session.shutdown
  split
  next connected =>
    -- Neither state is down, so the interest says the same.
    have up : c.state = .kConnected := connected
    have stored : Streams { c with state := .kDisconnecting } trace sent received retrieved := by
      refine ⟨streams.outputBuffer, streams.inputBuffer, streams.output, ?_, streams.input⟩
      simpa [up] using streams.interest
    exact stored.shutdownInLoop
  next =>
    rw [List.append_nil]
    exact streams

theorem connectDestoryed (streams : Streams c trace sent received retrieved)
    (registered : Session.IsRegistered ⟨c, loop, []⟩)
    (ok : Session.connectDestoryed ⟨c, loop, []⟩ = .ok y) :
    Streams y.conn (trace ++ y.trace) sent received retrieved := by
  obtain ⟨-, -, rfl⟩ := (Session.connectDestoryed_iff registered).mp ok
  split
  · have none : written (Session.disconnected ⟨c, loop, []⟩).trace = [] := by
      rw [Session.disconnected_effects]
      split <;> rfl
    have kept := streams.disconnected (x := Session.disconnected ⟨c, loop, []⟩) rfl none
    exact ⟨kept.outputBuffer, kept.inputBuffer, kept.output, kept.interest, kept.input⟩
  · rw [show (Session.removed ⟨c, loop, []⟩).trace = [] from rfl, List.append_nil]
    exact ⟨streams.outputBuffer, streams.inputBuffer, streams.output, streams.interest,
      streams.input⟩

end Streams

/-- **Step lemma**: every call on the loop's own thread does to the bytes what it says, and nothing
else. -/
theorem Call.step_streams {c : TcpConnection} {trace : List Effect}
    {sent received retrieved : List UInt8} {loop : Loop} {call : Call} {y : Session}
    (streams : Streams c trace sent received retrieved)
    (registered : Session.IsRegistered ⟨c, loop, []⟩) (own : call ≠ .storeDisconnecting)
    (ok : call.step ⟨c, loop, []⟩ = .ok y) :
    Streams y.conn (trace ++ y.trace) (sent ++ c.accepts call) (received ++ c.receives call)
      (retrieved ++ c.retrieves call) := by
  cases call <;> simp only [TcpConnection.accepts, TcpConnection.receives, TcpConnection.retrieves,
    List.append_nil]
  case storeDisconnecting => exact absurd rfl own
  case handleRead result => exact streams.handleRead registered ok
  case connectEstablished =>
    have connecting := Session.connecting_of_connectEstablished ok
    rw [Call.step, Session.connectEstablished_eq registered connecting] at ok
    cases ok
    exact streams.established connecting
  case handleWrite result => exact streams.handleWrite registered ok
  case handleClose => exact streams.handleClose registered ok
  case handleError =>
    cases ok
    rw [Session.handleError, List.append_nil]
    exact streams
  case connectDestoryed => exact streams.connectDestoryed registered ok
  case send data result =>
    simp only [Call.step, Session.send] at ok
    split at ok
    next connected =>
      have kept := streams.sendInLoop registered ok
      have up : c.state = .kConnected := connected
      simpa [up] using kept
    next unconnected =>
      cases ok
      rw [if_neg (fun both => unconnected both.1), List.append_nil, List.append_nil]
      exact streams
  case shutdown =>
    cases ok
    exact streams.shutdown
  case retrieveInput len =>
    obtain ⟨inputBuffer, retrieved, ok⟩ := Checked.bind_ok_iff.mp ok
    cases ok
    rw [Session.withInput, List.append_nil]
    exact streams.retrieve retrieved
  case sendInLoop data result => exact streams.sendInLoop registered ok
  case shutdownInLoop =>
    cases ok
    exact streams.shutdownInLoop

end Clia.Net
