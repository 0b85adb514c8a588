import Clia.Net.SessionFrame
import Clia.Library.LabelledRun

/-!
# The server and its loops

`net/tcp_server.cc` on top of `reactor/event_loop.cc`: loop 0 is the base loop, which accepts
and keeps `connections_`; loops 1 to `threads` are those of the thread pool. A step is one move
of one loop's thread: a return of the poller, the next active channel, the next callback of the
current channel, a stage of `do_pending_functors`, one functor, or a call the user makes on the
loop of a connection. What two loops share is their functor queues, so any order of these steps
is a schedule.

Connections are objects named by an address that is never used twice. An object goes when
nothing refers to it any more, and its descriptor is closed with it; the kernel hands out only
descriptors that are not open. The history records what the results below speak of.
-/

namespace Clia.Net

open Reactor LabelledRun

/-- The connection a functor is bound to. -/
def Functor.id : Functor → Nat
  | .connectEstablished id => id
  | .removeConnectionInLoop id => id
  | .connectDestoryed id => id
  | .writeComplete id => id
  | .sendInLoop id _ => id
  | .shutdownInLoop id => id

/-- A loop with its thread. `dispatch` are the active channels that have not had their turn, with
what the poller reported for them; `todo` are the callbacks that the current channel has still
to call. `batch` and `ran` are the two parts of the vector of `do_pending_functors`, which lives
until its last functor has returned. -/
structure Worker where
  loop : Loop
  dispatch : List (ChannelPtr × Mask)
  todo : List Channel.Callback
  batch : List Functor
  ran : List Functor

/-- The functors that have not been run. -/
def Worker.queued (w : Worker) : List Functor := w.batch ++ w.loop.pendingFunctors

/-- A connection object, with the number of the loop it belongs to. -/
structure Object where
  conn : TcpConnection
  home : Nat

/-- What is recorded of a connection: the entry that the poller has for the descriptor when
`connect_established` starts, the effects of its functions, the removal from `connections_`, and
whether the loop handles events when `connect_destoryed` starts. -/
inductive Event where
  | established (entry : Option ChannelPtr)
  | effect (effect : Effect)
  | erased
  | destoryed (eventHanding : Bool)
  deriving DecidableEq, Repr

structure Server where
  alive : Bool
  threads : Nat
  /-- `next_` of the thread pool -/
  next : Nat
  hasConnectionCallback : Bool
  hasMessageCallback : Bool
  hasWriteCompleteCallback : Bool
  workers : Nat → Worker
  objects : Nat → Option Object
  nextId : Nat
  connections : Nat → Option Nat
  opened : Nat → Bool
  history : List (Nat × Event)

/-- Faults are kept apart by where they arise: in the code of the server, or in a function of a
connection. -/
inductive ServerFault where
  | disabled
  | server (fault : Fault)
  | connection (id : Nat) (fault : Fault)
  deriving DecidableEq, Repr

namespace Server

def setWorker (s : Server) (i : Nat) (w : Worker) : Server :=
  { s with workers := Function.update s.workers i w }

def record (s : Server) (id : Nat) (events : List Event) : Server :=
  { s with history := s.history ++ events.map fun e => (id, e) }

/-- `queue_in_loop` of loop `i`. -/
def push (s : Server) (i : Nat) (inLoopThread : Bool) (cb : Functor) : Server :=
  s.setWorker i { s.workers i with loop := (s.workers i).loop.queueInLoop inLoopThread cb }

/-- A connection as its own functions see it. -/
def session (s : Server) (o : Object) : Session := ⟨o.conn, (s.workers o.home).loop, []⟩

/-- The effects of a function of the connection on the system. -/
def commit (s : Server) (id : Nat) (o : Object) (y : Session) : Server :=
  { (s.setWorker o.home { s.workers o.home with loop := y.loop }).record id
      (y.trace.map .effect) with
    objects := Function.update s.objects id (some { o with conn := y.conn }) }

/-! ### `tcp_server.cc` -/

def removeConnectionInLoop (s : Server) (id : Nat) : Except ServerFault Server :=
  match s.objects id with
  | none => .error (.server .useAfterFree)
  | some o => do
    -- The three assertions on the entry: found, this object, exactly one erased.
    Checked.require (s.connections o.conn.fd = some id) (.server (.assertion .connectionPresent))
    let s := { s with connections := Function.update s.connections o.conn.fd none }
    return (s.record id [.erased]).push o.home (o.home == 0) (.connectDestoryed id)

/-- `remove_connection`, on the thread of the connection's loop. -/
def removeConnection (s : Server) (id : Nat) (o : Object) : Except ServerFault Server :=
  if s.alive = false then .error (.server .useAfterFree)
  else if o.home = 0 then s.removeConnectionInLoop id
  else .ok (s.push 0 false (.removeConnectionInLoop id))

/-- A call of a function of the connection on its loop. The close callback, which is the last
effect of the function that calls it, is `remove_connection`. -/
def onConnection (s : Server) (id : Nat) (call : Session → Except Fault Session) :
    Except ServerFault Server :=
  match s.objects id with
  | none => .error (.connection id .useAfterFree)
  | some o =>
    match call (s.session o) with
    | .error f => .error (.connection id f)
    | .ok y =>
      let s := s.commit id o y
      -- The callback is bound to the server, which must still be there; see `removeConnection`.
      if .closeCallback ∈ y.trace then s.removeConnection id o else .ok s

def connectEstablished (s : Server) (id : Nat) : Except ServerFault Server :=
  match s.objects id with
  | none => .error (.connection id .useAfterFree)
  | some o =>
    (s.record id [.established ((s.workers o.home).loop.poller.channels o.conn.fd)]).onConnection id
      Session.connectEstablished

def connectDestoryed (s : Server) (id : Nat) : Except ServerFault Server :=
  match s.objects id with
  | none => .error (.connection id .useAfterFree)
  | some o =>
    (s.record id [.destoryed (s.workers o.home).loop.eventHanding]).onConnection id
      Session.connectDestoryed

/-- `get_next_loop`: the loop, and the new `next_`. -/
def getNextLoop (s : Server) : Nat × Nat :=
  if s.threads = 0 then (0, s.next)
  else (s.next + 1, if s.next + 1 ≥ s.threads then 0 else s.next + 1)

/-- `new_connection`, with the descriptor that `accept` returned. -/
def newConnection (s : Server) (sockfd : Nat) : Except ServerFault Server := do
  let (home, next) := s.getNextLoop
  let id := s.nextId
  Checked.require (s.connections sockfd = none) (.server (.assertion .connectionAbsent))
  let conn := TcpConnection.accepted id sockfd s.hasConnectionCallback s.hasMessageCallback
    s.hasWriteCompleteCallback true
  let s := { s with
    next := next
    nextId := id + 1
    objects := Function.update s.objects id (some ⟨conn, home⟩)
    connections := Function.update s.connections sockfd (some id)
    opened := Function.update s.opened sockfd true }
  -- `run_in_loop`: at once on the base loop's own thread, through the queue otherwise.
  if home = 0 then s.connectEstablished id
  else return s.push home false (.connectEstablished id)

/-! ### The loops -/

/-- The kernel reports the channel to loop `i`: events the channel is interested in, errors and
hang-ups. -/
def reports (s : Server) (i : Nat) (report : ChannelPtr × Mask) : Bool :=
  match report.1 with
  | .wakeup j => j == i
  | .acceptor => i == 0
  | .connection id =>
    match s.objects id with
    | none => false
    | some o =>
      o.home == i && (s.workers i).loop.poller.channels o.conn.fd == some (.connection id) &&
        match (s.workers i).loop.poller.interest o.conn.fd with
        | none => false
        -- Errors and hang-ups are reported without being asked for.
        | some interest => report.2 &&& ~~~(interest ||| EPOLLERR ||| EPOLLHUP) == 0

def runFunctor (s : Server) (i : Nat) (cb : Functor) : Except ServerFault Server :=
  match cb with
  | .connectEstablished id => s.connectEstablished id
  | .removeConnectionInLoop id =>
    if s.alive = false ∨ i ≠ 0 then .error (.server .useAfterFree)
    else s.removeConnectionInLoop id
  | .connectDestoryed id => s.connectDestoryed id
  -- The user's write-complete callback; what it calls on the connection are steps of their own.
  | .writeComplete _ => .ok s
  -- With calls on the connection's own loop only, these two are never queued.
  | .sendInLoop _ _ => .error .disabled
  | .shutdownInLoop _ => .error .disabled

end Server

/-- What a callback gets from the kernel. -/
inductive Io where
  | nothing
  | read (result : ReadResult)
  | write (result : WriteResult)
  | accept (connfd : Option Nat)
  deriving DecidableEq, Repr

inductive ServerStep where
  | poll (i : Nat) (active : List (ChannelPtr × Mask))
  | nextChannel (i : Nat)
  | callback (i : Nat) (io : Io)
  | endDispatch (i : Nat)
  | swap (i : Nat)
  | functor (i : Nat)
  | finish (i : Nat)
  /-- calls of the user on the connection's loop -/
  | send (id : Nat) (data : List UInt8) (result : WriteResult)
  | shutdown (id : Nat)
  | retrieveInput (id : Nat) (len : Nat)
  /-- the last reference to the object goes -/
  | release (id : Nat)
  /-- `~TcpServer` begins, and it comes to the entry of a descriptor -/
  | teardown
  | destroy (sockfd : Nat)
  deriving DecidableEq, Repr

namespace Server

/-- Something other than the pointer itself keeps the object alive: the map, a functor, or the
guard of the channel that is being handled. -/
def referenced (s : Server) (id : Nat) (o : Object) : Bool :=
  s.connections o.conn.fd == some id ||
    ((List.range (s.threads + 1)).any fun i =>
      ((s.workers i).ran ++ (s.workers i).queued).any fun cb => cb.id == id) ||
    (s.workers o.home).loop.currentActiveChannel == some (.connection id)

/-- The callbacks of the current channel of loop `i`. -/
def runCallback (s : Server) (i : Nat) (callback : Channel.Callback) (io : Io) :
    Except ServerFault Server :=
  match (s.workers i).loop.currentActiveChannel, callback, io with
  | some (.connection id), .close, _ => s.onConnection id Session.handleClose
  | some (.connection id), .error, _ => s.onConnection id fun x => .ok x.handleError
  | some (.connection id), .read, .read result =>
    s.onConnection id fun x => x.handleRead result
  | some (.connection id), .write, .write result =>
    s.onConnection id fun x => x.handleWrite result
  | some .acceptor, .read, .accept (some connfd) => do
    Checked.require (s.alive = true ∧ i = 0 ∧ s.opened connfd = false) .disabled
    s.newConnection connfd
  | some .acceptor, .read, .accept none => .ok s
  | some (.wakeup _), .read, _ =>
    .ok (s.setWorker i { s.workers i with loop := { (s.workers i).loop with wakeups := 0 } })
  -- The acceptor and the wakeup channel have no other callbacks.
  | some .acceptor, .close, _ => .ok s
  | some .acceptor, .error, _ => .ok s
  | some .acceptor, .write, _ => .ok s
  | some (.wakeup _), .close, _ => .ok s
  | some (.wakeup _), .error, _ => .ok s
  | some (.wakeup _), .write, _ => .ok s
  | _, _, _ => .error .disabled

def step (s : Server) : ServerStep → Except ServerFault Server
  | .poll i active => do
    let w := s.workers i
    Checked.require (w.loop.eventHanding = false ∧ w.loop.callingPendingFunctors = false ∧
      active.all (s.reports i) = true ∧ (active.map Prod.fst).Nodup) .disabled
    return s.setWorker i { w with
      -- `active_channels_` names each channel at most once; its order is the kernel's.
      dispatch := active
      loop := { w.loop with eventHanding := true, activeChannels := active.map Prod.fst } }
  | .nextChannel i =>
    let w := s.workers i
    match w.loop.eventHanding, w.todo, w.dispatch with
    | true, [], (channel, revents) :: dispatch =>
      .ok (s.setWorker i { w with
        dispatch := dispatch
        todo := Channel.callbacks revents
        loop := { w.loop with currentActiveChannel := some channel } })
    | _, _, _ => .error .disabled
  | .callback i io =>
    let w := s.workers i
    match w.todo with
    | callback :: todo => (s.setWorker i { w with todo := todo }).runCallback i callback io
    | [] => .error .disabled
  | .endDispatch i => do
    let w := s.workers i
    Checked.require (w.loop.eventHanding = true ∧ w.todo = [] ∧ w.dispatch = []) .disabled
    return s.setWorker i { w with
      loop := { w.loop with eventHanding := false, currentActiveChannel := none } }
  | .swap i => do
    let w := s.workers i
    Checked.require (w.loop.eventHanding = false ∧ w.loop.callingPendingFunctors = false) .disabled
    return s.setWorker i { w with
      batch := w.loop.pendingFunctors
      loop := { w.loop with callingPendingFunctors := true, pendingFunctors := [] } }
  | .functor i =>
    let w := s.workers i
    match w.loop.callingPendingFunctors, w.batch with
    | true, cb :: batch =>
      (s.setWorker i { w with batch := batch, ran := w.ran ++ [cb] }).runFunctor i cb
    | _, _ => .error .disabled
  | .finish i => do
    let w := s.workers i
    Checked.require (w.loop.callingPendingFunctors = true ∧ w.batch = []) .disabled
    return s.setWorker i { w with
      -- The vector of functors goes, and the references its functors hold with it.
      ran := []
      loop := { w.loop with callingPendingFunctors := false } }
  | .send id data result => s.onConnection id fun x => x.send data result
  | .shutdown id => s.onConnection id fun x => .ok x.shutdown
  | .retrieveInput id len => s.onConnection id fun x => do
    let inputBuffer ← x.conn.inputBuffer.retrieve len
    return x.withInput inputBuffer
  | .release id =>
    match s.objects id with
    | none => .error .disabled
    | some o => do
      Checked.require (s.referenced id o = false) .disabled
      -- `~TcpConnection`, whose socket closes the descriptor
      Checked.require (o.conn.state = .kDisconnected) (.server (.assertion .disconnected))
      return { s with
        objects := Function.update s.objects id none
        opened := Function.update s.opened o.conn.fd false }
  | .teardown => do
    Checked.require (s.alive = true) .disabled
    return { s with alive := false }
  | .destroy sockfd =>
    match s.alive, s.connections sockfd with
    | false, some id =>
      let s := { s with connections := Function.update s.connections sockfd none }
      match s.objects id with
      | none => .error (.server .useAfterFree)
      | some o =>
        if o.home = 0 then s.connectDestoryed id
        else .ok (s.push o.home false (.connectDestoryed id))
    | _, _ => .error .disabled

/-- The server after `start`: every loop polls its wakeup channel, the base loop the acceptor. -/
def start (threads listenfd : Nat) (wakeupfd : Nat → Nat) (message writeComplete : Bool) :
    Server where
  alive := true
  threads := threads
  next := 0
  hasConnectionCallback := true
  hasMessageCallback := message
  hasWriteCompleteCallback := writeComplete
  workers := fun i =>
    { loop := EventLoop.new (Epoller.mk
        (fun fd => if i ≤ threads ∧ fd = wakeupfd i then some (.wakeup i)
          else if i = 0 ∧ fd = listenfd then some .acceptor else none)
        (fun fd => if i ≤ threads ∧ fd = wakeupfd i then some kReadEvent
          else if i = 0 ∧ fd = listenfd then some kReadEvent else none))
      dispatch := []
      todo := []
      batch := []
      ran := [] }
  objects := fun _ => none
  nextId := 0
  connections := fun _ => none
  opened := fun fd => fd = listenfd ∨ ∃ i ≤ threads, fd = wakeupfd i
  history := []

end Server

end Clia.Net
