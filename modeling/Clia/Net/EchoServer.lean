import Clia.Net.ServerStreams
import Clia.Net.Lifecycle

/-!
# The echo server

`test/test_server.cc`: the message callback takes all bytes of the input buffer and sends them back on
the same connection. The callback is the last thing that `handle_read` does, so a step of the echo
server is a step of the server with `handle_message` behind it if it delivers a message.

## Main result

`EchoServer.echoes_each_connection`: in every run, over any number of loops and connections, what a
connection gets back is the first part of what its own peer has sent, and while it is connected
everything that is missing waits in its output buffer.
-/

namespace Clia.Net

open Reactor LabelledRun

namespace EchoServer

/-- A step of the server, and what the `::write` gives if `handle_message` sends. -/
structure Step where
  step : ServerStep
  write : WriteResult
  deriving DecidableEq, Repr

def handleMessage (s : Server) (id : Nat) (result : WriteResult) : Except ServerFault Server :=
  match s.objects id with
  | none => .error (.connection id .useAfterFree)
  | some o =>
    match o.conn.inputBuffer.retrieveAllAsString with
    | .error f => .error (.connection id f)
    | .ok (msg, _) => do
      let s ← s.step (.retrieveInput id o.conn.inputBuffer.readableBytes)
      s.step (.send id msg result)

/-- The steps in which user code runs. -/
def isUser : ServerStep → Bool
  | .send _ _ _ | .shutdown _ | .retrieveInput _ _ => true
  | _ => false

/-- `EchoServer` calls functions of a connection in `handle_message` only. -/
def step (s : Server) (l : Step) : Except ServerFault Server := do
  Checked.require (isUser l.step = false) .disabled
  let t ← s.step l.step
  match s.delivery l.step with
  | some (id, _) => handleMessage t id l.write
  | none => return t

/-- The server after `start`, with the callbacks that the constructor sets. -/
def start (threads listenfd : Nat) (wakeupfd : Nat → Nat) : Server :=
  Server.start threads listenfd wakeupfd true false

/-- The bytes that the kernel delivered to a connection. -/
def receivedOn (id : Nat) (done : List (Server × Step)) : List UInt8 :=
  done.flatMap fun (s, l) => Server.perCall TcpConnection.receives id s l.step

/-! ### One connection -/

/-- What was sent is what was received, unless the connection went down in between. -/
def Echoed (c : TcpConnection) (trace : List Effect) (received : List UInt8) : Prop :=
  ∃ sent retrieved, Streams c trace sent received retrieved ∧ sent <+: received ∧
    (c.state ≠ .kDisconnected → sent = received ∧ c.inputBuffer.readable = [] ∧
      c.state ≠ .kDisconnecting)

/-- A call that takes no bytes from anywhere, and that may take the connection up or down. -/
structure QuietCall (c : TcpConnection) (call : Call) (c' : TcpConnection) : Prop where
  accepts : c.accepts call = []
  receives : c.receives call = []
  input : c'.inputBuffer.readable = c.inputBuffer.readable
  state : c'.state = .kDisconnected ∨ c'.state = c.state ∨
    c.state = .kConnecting ∧ c'.state = .kConnected

theorem Echoed.quiet {c : TcpConnection} {trace : List Effect} {received : List UInt8} {call : Call}
    {loop : Loop} {y : Session} (echoed : Echoed c trace received)
    (registered : Session.IsRegistered ⟨c, loop, []⟩) (own : call ≠ .storeDisconnecting)
    (ok : call.step ⟨c, loop, []⟩ = .ok y) (quiet : QuietCall c call y.conn) :
    Echoed y.conn (trace ++ y.trace) received := by
  obtain ⟨sent, retrieved, streams, le, up⟩ := echoed
  have kept := Call.step_streams streams registered own ok
  rw [quiet.accepts, quiet.receives, List.append_nil, List.append_nil] at kept
  refine ⟨sent, _, kept, le, ?_⟩
  intro still
  have before : c.state ≠ .kDisconnected := by
    rcases quiet.state with down | same | ⟨connecting, -⟩
    · exact absurd down still
    · exact same ▸ still
    · simp [connecting]
  obtain ⟨all, empty, unshut⟩ := up before
  refine ⟨all, quiet.input.trans empty, ?_⟩
  rcases quiet.state with down | same | ⟨-, connected⟩
  · exact absurd down still
  · rw [same]
    exact unshut
  · simp [connected]

/-- A close takes the connection down. -/
theorem closed_down {c : TcpConnection} {loop : Loop} {y : Session}
    (registered : Session.IsRegistered ⟨c, loop, []⟩)
    (ok : Session.handleClose ⟨c, loop, []⟩ = .ok y) :
    y.conn.inputBuffer = c.inputBuffer ∧ y.conn.state = .kDisconnected := by
  rw [(Session.handleClose_inv registered ok).1]
  refine ⟨?_, Session.disconnected_state _⟩
  rw [Session.disconnected, Session.connectionCallback_conn]
  rfl

/-- A read without bytes: the peer has closed, or the read failed. -/
theorem quiet_read {c : TcpConnection} {loop : Loop} {y : Session} {result : ReadResult}
    (inputBuffer : c.inputBuffer.Inv) (registered : Session.IsRegistered ⟨c, loop, []⟩)
    (ok : Session.handleRead ⟨c, loop, []⟩ result = .ok y)
    (silent : c.receives (.handleRead result) = []) : QuietCall c (.handleRead result) y.conn := by
  obtain ⟨n, after, taken, outcome⟩ := Session.handleRead_inv ok
  obtain ⟨-, readable, positive⟩ := Streams.readFd_receives inputBuffer taken
  rw [silent, List.append_nil] at readable
  refine ⟨rfl, silent, ?_, ?_⟩
  · rcases outcome with ⟨bytes, -⟩ | ⟨-, closed⟩ | ⟨-, rfl⟩
    · exact absurd silent (positive.mp bytes)
    · have still : Session.IsRegistered ⟨{ c with inputBuffer := after }, loop, []⟩ := registered
      rw [(closed_down still closed).1]
      exact readable
    · exact readable
  · rcases outcome with ⟨bytes, -⟩ | ⟨-, closed⟩ | ⟨-, rfl⟩
    · exact absurd silent (positive.mp bytes)
    · have still : Session.IsRegistered ⟨{ c with inputBuffer := after }, loop, []⟩ := registered
      exact .inl (closed_down still closed).2
    · exact .inr (.inl rfl)

/-- The calls that the server itself makes, but for a read with bytes. -/
theorem quiet_call {c : TcpConnection} {loop : Loop} {y : Session} {call : Call}
    (inputBuffer : c.inputBuffer.Inv) (registered : Session.IsRegistered ⟨c, loop, []⟩)
    (own : call.IsHandler ∨ call = .connectEstablished ∨ call = .connectDestoryed)
    (silent : c.receives call = []) (ok : call.step ⟨c, loop, []⟩ = .ok y) :
    QuietCall c call y.conn := by
  cases call with
  | handleRead result => exact quiet_read inputBuffer registered ok silent
  | connectEstablished =>
    have connecting := Session.connecting_of_connectEstablished ok
    rw [Call.step, Session.connectEstablished_eq registered connecting] at ok
    cases ok
    refine ⟨rfl, rfl, ?_, .inr (.inr ⟨connecting, ?_⟩)⟩
    · rw [Session.established, Session.connectionCallback_conn]
      rfl
    · rw [Session.established, Session.connectionCallback_conn]
      rfl
  | handleWrite result =>
    have same := (Session.handleWrite_output registered ok).state
    exact ⟨rfl, rfl, by rw [Session.handleWrite_inputBuffer ok], .inr (.inl same)⟩
  | handleClose =>
    obtain ⟨input, down⟩ := closed_down registered ok
    exact ⟨rfl, rfl, by rw [input], .inl down⟩
  | handleError =>
    cases ok
    exact ⟨rfl, rfl, rfl, .inr (.inl rfl)⟩
  | connectDestoryed =>
    rw [Session.connectDestoryed_eq registered ok]
    split
    · refine ⟨rfl, rfl, ?_, .inl (Session.disconnected_state _)⟩
      rw [Session.removed, Session.disconnected, Session.connectionCallback_conn]
      rfl
    · exact ⟨rfl, rfl, rfl, .inr (.inl rfl)⟩
  | _ => simp [Call.IsHandler] at own

/-! ### A message -/

section

variable {c : TcpConnection} {loop : Loop} {y : Session} {write : WriteResult}

/-- A read with bytes only fills the input buffer. -/
theorem read_conn {result : ReadResult} {n : Int} {after : Buffer}
    (read : c.inputBuffer.readFd result = .ok (n, after)) (positive : n > 0)
    (ok : Session.handleRead ⟨c, loop, []⟩ result = .ok y) :
    y.conn = { c with inputBuffer := after } := by
  obtain ⟨n', after', taken, outcome⟩ := Session.handleRead_inv ok
  have taken : c.inputBuffer.readFd result = .ok (n', after') := taken
  rw [read] at taken
  cases taken
  rcases outcome with ⟨-, rfl⟩ | ⟨zero, -⟩ | ⟨negative, -⟩
  · split <;> rfl
  · omega
  · omega

/-- Taking all of the input leaves none of it. -/
theorem retrieved_conn (inputBuffer : c.inputBuffer.Inv)
    (ok : Call.step ⟨c, loop, []⟩ (.retrieveInput c.inputBuffer.readableBytes) = .ok y) :
    y.conn.state = c.state ∧ y.conn.inputBuffer.readable = [] := by
  obtain ⟨after, retrieved, same⟩ := Checked.bind_ok_iff.mp ok
  obtain ⟨after', retrieved', -, rest⟩ := Buffer.retrieve_spec inputBuffer (Nat.le_refl _)
  have retrieved : c.inputBuffer.retrieve c.inputBuffer.readableBytes = .ok after := retrieved
  rw [retrieved'] at retrieved
  cases retrieved
  cases same
  have all : c.inputBuffer.readable.length ≤ c.inputBuffer.readableBytes :=
    Nat.le_of_eq inputBuffer.readable_length
  exact ⟨rfl, rest.trans (List.drop_of_length_le all)⟩

theorem whole_message {b after : Buffer} {msg : List UInt8} (inv : b.Inv)
    (ok : b.retrieveAllAsString = .ok (msg, after)) : msg = b.readable := by
  obtain ⟨after', ok', -, -⟩ := Buffer.retrieveAsString_spec inv (Nat.le_refl b.readableBytes)
  rw [Buffer.retrieveAllAsString, ok'] at ok
  cases ok
  exact List.take_of_length_le (Nat.le_of_eq inv.readable_length)

theorem send_inputBuffer {x : Session} {data : List UInt8} (ok : x.send data write = .ok y) :
    y.conn.inputBuffer = x.conn.inputBuffer := by
  unfold Session.send at ok
  split at ok
  · exact Session.sendInLoop_inputBuffer ok
  · cases ok
    rfl

/-- A message of a connection that is up is sent back, one of a connection that is down is not. -/
theorem Echoed.message {trace : List Effect} {received msg : List UInt8} {result : ReadResult}
    {n : Int} {after after' : Buffer} {loop₁ loop₂ loop₃ : Loop} {y₁ y₂ y₃ : Session}
    (echoed : Echoed c trace received) (started : c.state ≠ .kConnecting) (benign : write.Benign)
    (read : c.inputBuffer.readFd result = .ok (n, after)) (positive : n > 0)
    (registered₁ : Session.IsRegistered ⟨c, loop₁, []⟩)
    (called₁ : Call.step ⟨c, loop₁, []⟩ (.handleRead result) = .ok y₁)
    (whole : y₁.conn.inputBuffer.retrieveAllAsString = .ok (msg, after'))
    (registered₂ : Session.IsRegistered ⟨y₁.conn, loop₂, []⟩)
    (called₂ : Call.step ⟨y₁.conn, loop₂, []⟩
      (.retrieveInput y₁.conn.inputBuffer.readableBytes) = .ok y₂)
    (registered₃ : Session.IsRegistered ⟨y₂.conn, loop₃, []⟩)
    (called₃ : Call.step ⟨y₂.conn, loop₃, []⟩ (.send msg write) = .ok y₃) :
    Echoed y₃.conn (trace ++ y₁.trace ++ y₂.trace ++ y₃.trace)
      (received ++ c.receives (.handleRead result)) := by
  obtain ⟨sent, retrieved, streams, le, up⟩ := echoed
  have streams₁ := Call.step_streams streams registered₁ (by simp) called₁
  have streams₂ := Call.step_streams streams₁ registered₂ (by simp) called₂
  have kept := Call.step_streams streams₂ registered₃ (by simp) called₃
  have conn₁ := read_conn read positive called₁
  obtain ⟨-, readable, -⟩ := Streams.readFd_receives streams.inputBuffer read
  have msg_eq := whole_message streams₁.inputBuffer whole
  obtain ⟨state₂, empty₂⟩ := retrieved_conn streams₁.inputBuffer called₂
  have same : y₂.conn.state = c.state := by rw [state₂, conn₁]
  have state₃ : y₃.conn.state = c.state :=
    (Session.send_output registered₃ called₃).state.trans same
  have accepted : y₂.conn.accepts (.send msg write) =
      if c.state = .kConnected then msg else [] := by
    have willing : ¬y₂.conn.Refuses write := fun refuses => refuses.2.2 benign
    simp [TcpConnection.accepts, willing, same]
  -- Only the send adds to the output, and only the read to the input.
  change Streams y₃.conn (trace ++ y₁.trace ++ y₂.trace ++ y₃.trace)
    (sent ++ [] ++ [] ++ y₂.conn.accepts (.send msg write))
    (received ++ c.receives (.handleRead result) ++ [] ++ []) _ at kept
  simp only [accepted, List.append_nil] at kept
  by_cases down : c.state = .kDisconnected
  · -- `send` finds the connection down.
    rw [if_neg (by simp [down]), List.append_nil] at kept
    refine ⟨sent, _, kept, le.trans (List.prefix_append _ _), ?_⟩
    intro still
    exact absurd (state₃.trans down) still
  · obtain ⟨all, empty, unshut⟩ := up down
    have connected : c.state = .kConnected := by
      cases state : c.state with
      | kConnected => rfl
      | kDisconnected => exact absurd state down
      | kConnecting => exact absurd state started
      | kDisconnecting => exact absurd state unshut
    have message : msg = c.receives (.handleRead result) := by
      rw [msg_eq, conn₁, readable, empty, List.nil_append]
    rw [if_pos connected, all, message] at kept
    refine ⟨_, _, kept, List.prefix_rfl, ?_⟩
    intro _
    refine ⟨rfl, ?_, by simp [state₃, connected]⟩
    rw [send_inputBuffer called₃]
    exact empty₂

end

/-! ### Steps -/

section

variable {s t v : Server} {l : ServerStep} {id : Nat} {o : Object} {write : WriteResult}

theorem handleMessage_ok (ok : handleMessage s id write = .ok v) :
    ∃ o msg after u, s.objects id = some o ∧
      o.conn.inputBuffer.retrieveAllAsString = .ok (msg, after) ∧
      s.step (.retrieveInput id o.conn.inputBuffer.readableBytes) = .ok u ∧
      u.step (.send id msg write) = .ok v := by
  unfold handleMessage at ok
  split at ok
  · cases ok
  next o found =>
    split at ok
    · cases ok
    next msg after taken =>
      obtain ⟨u, retrieved, sent⟩ := Checked.bind_ok_iff.mp ok
      exact ⟨o, msg, after, u, found, taken, retrieved, sent⟩

theorem callOf_delivery (delivers : s.delivery l = some (id, o)) :
    s.objects id = some o ∧ ∃ result n after, s.callOf l = some (id, .handleRead result) ∧
      o.conn.inputBuffer.readFd result = .ok (n, after) ∧ n > 0 := by
  obtain ⟨i, result, todo, n, after, rfl, queue, current, found, received, bytes, -⟩ :=
    Server.delivery_some delivers
  refine ⟨found, result, n, after, ?_, received, bytes⟩
  simp only [Server.callOf, current, queue]

/-- What the invariant says of one connection, by all bytes that were delivered to it. -/
structure EchoInv (id : Nat) (s : Server) (received : List UInt8) : Prop where
  inv : Inv s
  messageCallback : s.hasMessageCallback = true
  unborn : s.nextId ≤ id → received = []
  here : ∀ o, s.objects id = some o →
    o.conn.hasMessageCallback = true ∧ Echoed o.conn (effectsOf (s.log id)) received
  gone : s.objects id = none → written (effectsOf (s.log id)) <+: received

theorem EchoInv.initial {received : List UInt8} (inv : EchoInv id s received) :
    written (effectsOf (s.log id)) <+: received := by
  cases found : s.objects id with
  | none => exact inv.gone found
  | some o =>
    obtain ⟨-, sent, retrieved, streams, le, -⟩ := inv.here o found
    exact streams.initial.1.trans le

theorem EchoInv.unseen {received : List UInt8} (inv : EchoInv id s received) (inv' : Inv t)
    (message : t.hasMessageCallback = true) (nextId : s.nextId ≤ t.nextId)
    (unseen : Unseen s t id) : EchoInv id t received where
  inv := inv'
  messageCallback := message
  unborn late := inv.unborn (Nat.le_trans nextId late)
  here o found := by
    rw [unseen.effects]
    exact inv.here o (unseen.object ▸ found)
  gone absent := by
    rw [unseen.effects]
    exact inv.gone (unseen.object ▸ absent)

/-- A connection that is there at the end of a step. -/
theorem EchoInv.there {received : List UInt8} (inv' : Inv t) (message : t.hasMessageCallback = true)
    (found : t.objects id = some o) (callback : o.conn.hasMessageCallback = true)
    (echoed : Echoed o.conn (effectsOf (t.log id)) received) : EchoInv id t received where
  inv := inv'
  messageCallback := message
  unborn late := by
    have absent := (inv'.unborn id late).1
    rw [found] at absent
    cases absent
  here o' found' := by
    rw [found] at found'
    cases found'
    exact ⟨callback, echoed⟩
  gone absent := by
    rw [found] at absent
    cases absent

/-- Without user code the server makes no other calls. -/
theorem callOf_server {call : Call} (server : isUser l = false)
    (called : s.callOf l = some (id, call)) :
    call.IsHandler ∨ call = .connectEstablished ∨ call = .connectDestoryed := by
  cases l with
  | callback i io =>
    simp only [Server.callOf] at called
    split at called
    all_goals first | exact .inl (by cases called; trivial) | cases called
  | functor i =>
    simp only [Server.callOf] at called
    split at called
    next => cases called; exact .inr (.inl rfl)
    next => cases called; exact .inr (.inr rfl)
    next => cases called
  | destroy sockfd =>
    simp only [Server.callOf] at called
    split at called
    · split at called
      · split at called
        · cases called
          exact .inr (.inr rfl)
        · cases called
      · cases called
    · cases called
  | send _ _ _ => cases server
  | shutdown _ => cases server
  | retrieveInput _ _ => cases server
  | _ => cases called

theorem callOf_read {result : ReadResult} (server : isUser l = false)
    (called : s.callOf l = some (id, .handleRead result)) :
    ∃ i todo, l = .callback i (.read result) ∧ (s.workers i).todo = .read :: todo ∧
      (s.workers i).loop.currentActiveChannel = some (.connection id) := by
  cases l with
  | callback i io =>
    simp only [Server.callOf] at called
    split at called
    next current queue _ =>
      cases called
    next => cases called
    next current queue =>
      cases called
      exact ⟨i, _, rfl, queue, current⟩
    next => cases called
    next => cases called
  | functor i =>
    simp only [Server.callOf] at called
    split at called <;> cases called
  | destroy sockfd =>
    simp only [Server.callOf] at called
    split at called
    · split at called
      · split at called <;> cases called
      · cases called
    · cases called
  | send _ _ _ => cases server
  | shutdown _ => cases server
  | retrieveInput _ _ => cases server
  | _ => cases called

/-- A read with bytes delivers a message. -/
theorem receives_silent {call : Call} (server : isUser l = false) (quiet : s.delivery l = none)
    (called : s.callOf l = some (id, call)) (found : s.objects id = some o)
    (callback : o.conn.hasMessageCallback = true) (inputBuffer : o.conn.inputBuffer.Inv)
    {loop : Loop} {y : Session} (ok : call.step ⟨o.conn, loop, []⟩ = .ok y) :
    o.conn.receives call = [] := by
  cases call with
  | handleRead result =>
    obtain ⟨i, todo, rfl, queue, current⟩ := callOf_read server called
    obtain ⟨n, after, read, -⟩ := Session.handleRead_inv ok
    obtain ⟨-, -, positive⟩ := Streams.readFd_receives inputBuffer read
    rw [Server.delivery_read queue current found read] at quiet
    by_contra bytes
    rw [if_pos ⟨positive.mpr bytes, callback⟩] at quiet
    cases quiet
  | _ => rfl

/-- A connection that was just made has no bytes to echo. -/
theorem born_echoed (born : Born s t id) (message : s.hasMessageCallback = true) :
    ∃ o, t.objects id = some o ∧ o.conn.hasMessageCallback = true ∧
      Echoed o.conn (effectsOf (t.log id)) [] := by
  obtain ⟨o, found, streams⟩ := Server.born_streams born
  obtain ⟨-, o', found', sockfd, made⟩ := born
  rw [found] at found'
  cases found'
  have up : o.conn.hasMessageCallback = true ∧ o.conn.state ≠ .kDisconnecting := by
    rcases made with ⟨rfl, -⟩ | ⟨y, loop, registered, called, conn, -⟩
    · exact ⟨message, by simp [Server.newObject, TcpConnection.accepted, TcpConnection.new]⟩
    · have callback :=
        (Call.step_keeps (c := .connectEstablished) registered called).1.messageCallback
      have connecting := Session.connecting_of_connectEstablished called
      rw [Session.connectEstablished_eq registered connecting] at called
      cases called
      rw [conn]
      refine ⟨callback.trans message, ?_⟩
      rw [Session.established, Session.connectionCallback_conn]
      simp
  exact ⟨o, found, up.1, [], [], streams, List.prefix_rfl, fun _ => ⟨rfl, streams.input, up.2⟩⟩

/-- A step without a message. -/
theorem echoInv_quiet {received : List UInt8} (inv : EchoInv id s received)
    (server : isUser l = false) (quiet : s.delivery l = none) (taken : s.step l = .ok t) :
    EchoInv id t (received ++ Server.perCall TcpConnection.receives id s l) := by
  have inv' := Server.step_inv inv.inv taken
  have message := (Server.step_messageCallback inv.inv taken).trans inv.messageCallback
  have grows := Server.step_nextId inv.inv taken
  cases Server.step_seen inv.inv taken id with
  | unseen other unseen =>
    rw [Server.perCall_other other, List.append_nil]
    exact inv.unseen inv' message grows unseen
  | served call own served =>
    obtain ⟨o, y, loop, found, registered, called, there, trace⟩ := served
    obtain ⟨callback, echoed⟩ := inv.here o found
    have inputBuffer : o.conn.inputBuffer.Inv := by
      obtain ⟨sent, retrieved, streams, -⟩ := echoed
      exact streams.inputBuffer
    have silent := receives_silent server quiet own found callback inputBuffer called
    have quiet := quiet_call inputBuffer registered (callOf_server server own) silent called
    rw [Server.perCall_own own found, silent, List.append_nil]
    apply EchoInv.there inv' message there
    · exact (Call.step_keeps registered called).1.messageCallback.trans callback
    · rw [trace]
      exact echoed.quiet registered (Server.callOf_ne_store own) called quiet
  | born other born =>
    have fresh := inv.unborn (Nat.le_of_eq born.1.symm)
    obtain ⟨o, found, callback, echoed⟩ := born_echoed born inv.messageCallback
    rw [Server.perCall_other (by simp [other]), List.append_nil, fresh]
    exact EchoInv.there inv' message found callback echoed
  | released other released =>
    rw [Server.perCall_other (by simp [other]), List.append_nil]
    constructor
    · exact inv'
    · exact message
    · exact fun late => inv.unborn (Nat.le_trans grows late)
    · intro o found
      rw [released.object] at found
      cases found
    · intro _
      rw [released.effects]
      exact inv.initial

/-- A step with a message, and `handle_message` behind it. -/
theorem echoInv_message {received : List UInt8} {id' : Nat} (inv : EchoInv id s received)
    (delivers : s.delivery l = some (id', o)) (benign : write.Benign) (taken : s.step l = .ok t)
    (handled : handleMessage t id' write = .ok v) :
    EchoInv id v (received ++ Server.perCall TcpConnection.receives id s l) := by
  obtain ⟨found, result, n, after, call, read, positive⟩ := callOf_delivery delivers
  have inv₁ := Server.step_inv inv.inv taken
  obtain ⟨o₁, msg, after', u, found₁, whole, retrieving, sending⟩ := handleMessage_ok handled
  have inv₂ := Server.step_inv inv₁ retrieving
  have inv₃ := Server.step_inv inv₂ sending
  have message : v.hasMessageCallback = true :=
    (Server.step_messageCallback inv₂ sending).trans ((Server.step_messageCallback inv₁
      retrieving).trans ((Server.step_messageCallback inv.inv taken).trans inv.messageCallback))
  have grows : s.nextId ≤ v.nextId := Nat.le_trans (Server.step_nextId inv.inv taken)
    (Nat.le_trans (Server.step_nextId inv₁ retrieving) (Server.step_nextId inv₂ sending))
  have seen₁ := Server.step_seen inv.inv taken id
  rw [call] at seen₁
  have seen₂ : Seen (some (id', _)) t u id := Server.step_seen inv₁ retrieving id
  have seen₃ : Seen (some (id', _)) u v id := Server.step_seen inv₂ sending id
  by_cases own : id = id'
  · subst own
    have served₁ := (seen₁.of_some.resolve_right fun other => other.1 rfl).2
    have served₂ := (seen₂.of_some.resolve_right fun other => other.1 rfl).2
    have served₃ := (seen₃.of_some.resolve_right fun other => other.1 rfl).2
    obtain ⟨o', y₁, loop₁, found', registered₁, called₁, there₁, trace₁⟩ := served₁
    rw [found] at found'
    cases found'
    obtain ⟨o', y₂, loop₂, found', registered₂, called₂, there₂, trace₂⟩ := served₂
    rw [there₁] at found₁ found'
    cases found₁
    cases found'
    obtain ⟨o', y₃, loop₃, found', registered₃, called₃, there₃, trace₃⟩ := served₃
    rw [there₂] at found'
    cases found'
    obtain ⟨callback, echoed⟩ := inv.here o found
    have started : o.conn.state ≠ .kConnecting := (Server.step_delivers inv.inv delivers).2.1
    rw [Server.perCall_own call found]
    apply EchoInv.there inv₃ message there₃
    · exact (((Call.step_keeps registered₃ called₃).1.messageCallback.trans
        (Call.step_keeps registered₂ called₂).1.messageCallback).trans
        (Call.step_keeps registered₁ called₁).1.messageCallback).trans callback
    · rw [trace₃, trace₂, trace₁]
      exact echoed.message started benign read positive registered₁ called₁ whole registered₂
        called₂ registered₃ called₃
  · -- Another connection was served.
    have unseen₁ := (seen₁.of_some.resolve_left fun same => own same.1).2
    have unseen₂ := (seen₂.of_some.resolve_left fun same => own same.1).2
    have unseen₃ := (seen₃.of_some.resolve_left fun same => own same.1).2
    have other : ∀ call, s.callOf l ≠ some (id, call) := by
      intro call' same
      rw [call] at same
      cases same
      exact own rfl
    rw [Server.perCall_other other, List.append_nil]
    exact inv.unseen inv₃ message grows (unseen₁.trans (unseen₂.trans unseen₃))

/-- Step lemma. -/
theorem echoInv_step {l : Step} {received : List UInt8} (inv : EchoInv id s received)
    (benign : l.write.Benign) (taken : step s l = .ok t) :
    EchoInv id t (received ++ Server.perCall TcpConnection.receives id s l.step) := by
  obtain ⟨_, allowed, taken⟩ := Checked.bind_ok_iff.mp taken
  have server := Checked.require_ok_iff.mp allowed
  obtain ⟨mid, taken, handled⟩ := Checked.bind_ok_iff.mp taken
  split at handled
  next id' o delivers => exact echoInv_message inv delivers benign taken handled
  next quiet =>
    cases handled
    exact echoInv_quiet inv server quiet taken

end

/-- **Echo**: in every run of the echo server in which no direct write fails for good, over any number
of loops and whatever the other connections do, what the kernel took from a connection is the first
part of what the kernel delivered to it. While it is connected, everything that is missing waits in
its output buffer, with write interest if there is such, and nothing waits in its input buffer. -/
theorem echoes_each_connection {threads listenfd : Nat} {wakeupfd : Nat → Nat} {steps : List Step}
    {s : Server} (benign : ∀ l ∈ steps, l.write.Benign)
    (ran : run step (start threads listenfd wakeupfd) steps = .ok s) (id : Nat) :
    let received := receivedOn id (trail step (start threads listenfd wakeupfd) steps)
    written (effectsOf (s.log id)) <+: received ∧
    ∀ o, s.objects id = some o → o.conn.state = .kConnected →
      written (effectsOf (s.log id)) ++ o.conn.outputBuffer.readable = received ∧
      o.conn.inputBuffer.readable = [] ∧
      (o.conn.channel.isWriting = true ↔ o.conn.outputBuffer.readable ≠ []) := by
  have initial : EchoInv id (start threads listenfd wakeupfd) (receivedOn id []) := by
    constructor
    · exact Server.start_inv threads listenfd wakeupfd true false
    · rfl
    · exact fun _ => rfl
    · rintro o ⟨⟩
    · exact fun _ => List.prefix_rfl
  have preserved : ∀ s l t done, EchoInv id s (receivedOn id done) → l.write.Benign →
      step s l = .ok t → EchoInv id t (receivedOn id (done ++ [(s, l)])) := by
    intro s l t done inv benign taken
    simpa [receivedOn] using echoInv_step inv benign taken
  have along : Along step (fun _ l => l.write.Benign) (start threads listenfd wakeupfd) steps :=
    Along.of_labels (fun l member _ => benign l member) _
  have inv := run_trail_along preserved initial along ran
  refine ⟨inv.initial, ?_⟩
  intro o found connected
  obtain ⟨-, sent, retrieved, streams, -, up⟩ := inv.here o found
  obtain ⟨all, empty, -⟩ := up (by simp [connected])
  refine ⟨streams.output.trans all, empty, ?_⟩
  rw [streams.interest]
  simp [connected]

/-- Two connections on one loop; of each message the kernel takes one byte. -/
def sampleEcho : List Step :=
  List.map (fun step => ⟨step, .wrote 1⟩) <| Server.acceptLabels ++
    [.poll 0 [(.acceptor, EPOLLIN)], .nextChannel 0, .callback 0 (.accept (some 8)), .endDispatch 0,
      .swap 1, .functor 1, .finish 1,
      .poll 1 [(.connection 1, EPOLLIN), (.connection 0, EPOLLIN)], .nextChannel 1,
      .callback 1 (.read (.received [7, 8, 9])), .nextChannel 1,
      .callback 1 (.read (.received [1, 2]))]

theorem sampleEcho_echoes : ∃ s, run step (start 1 3 (fun i => 4 + i)) sampleEcho = .ok s ∧
    written (effectsOf (s.log 0)) = [1] ∧ written (effectsOf (s.log 1)) = [7] ∧
    (∀ o, s.objects 0 = some o → o.conn.state = .kConnected →
      [1] ++ o.conn.outputBuffer.readable = [1, 2]) ∧
    ∀ o, s.objects 1 = some o → o.conn.state = .kConnected →
      [7] ++ o.conn.outputBuffer.readable = [7, 8, 9] := by
  have bytes : (run step (start 1 3 (fun i => 4 + i)) sampleEcho).toOption.map
      (fun s => (written (effectsOf (s.log 0)), written (effectsOf (s.log 1)))) =
        some ([1], [7]) := by decide +kernel
  have received₀ : receivedOn 0 (trail step (start 1 3 (fun i => 4 + i)) sampleEcho) = [1, 2] := by
    decide +kernel
  have received₁ : receivedOn 1 (trail step (start 1 3 (fun i => 4 + i)) sampleEcho) = [7, 8, 9] := by
    decide +kernel
  cases ran : run step (start 1 3 (fun i => 4 + i)) sampleEcho with
  | error f =>
    rw [ran] at bytes
    cases bytes
  | ok s =>
    rw [ran] at bytes
    obtain ⟨bytes₀, bytes₁⟩ := Prod.mk.inj (Option.some.inj bytes)
    refine ⟨s, rfl, bytes₀, bytes₁, ?_, ?_⟩
    · intro o found connected
      rw [← bytes₀, ← received₀]
      exact ((echoes_each_connection (by decide) ran 0).2 o found connected).1
    · intro o found connected
      rw [← bytes₁, ← received₁]
      exact ((echoes_each_connection (by decide) ran 1).2 o found connected).1

end EchoServer

end Clia.Net
