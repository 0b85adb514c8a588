import Clia.Net.SessionFrame
import Clia.Net.OutputStream

/-!
# Send, then shut down, from another thread

A thread that is not the loop's calls `send` for some payloads and then `shutdown`. Its sends
and the second half of its `shutdown` travel through the functor queue, while its store of
`kDisconnecting` is seen by the loop's thread at once. The steps are the thread's loads, its
store and its pushes, and on the loop's side the writable events, the sends of callbacks, and
the stages of `do_pending_functors`.

`handle_write` half-closes when it has drained `output_buffer_` in state `kDisconnecting`; it
does not look at the queue. The payloads are safe exactly when none of them is still queued
whenever that happens.
-/

namespace Clia.Net.ForeignShutdown

open Reactor LabelledRun

/-- Where the thread is. `script` holds the payloads it has still to send. -/
inductive Thread where
  | ready (script : List (List UInt8))
  /-- `send` has loaded `kConnected` -/
  | sendPush (data : List UInt8) (script : List (List UInt8))
  /-- `shutdown` has loaded `kConnected` -/
  | shutdownStore
  /-- `shutdown` has stored `kDisconnecting` -/
  | shutdownPush
  | done
  deriving DecidableEq, Repr

/-- The payloads that are not queued yet. -/
def Thread.remaining : Thread → List (List UInt8)
  | .ready script => script
  | .sendPush data script => data :: script
  | _ => []

/-- The thread has not stored `kDisconnecting` yet. -/
def Thread.early : Thread → Bool
  | .shutdownPush => false
  | .done => false
  | _ => true

/-- A payload that reached `send_in_loop`, from the thread or from a callback on the loop. -/
structure Chunk where
  foreign : Bool
  data : List UInt8
  deriving DecidableEq, Repr

/-- `batch` is what `do_pending_functors` has swapped out and not run yet; `stream` records the
payloads in the order in which the loop's thread took them up. -/
structure Exchange where
  session : Session
  batch : List Functor
  thread : Thread
  stream : List Chunk

inductive Event where
  /-- the thread loads `state_` at the head of its next call -/
  | load
  /-- the store of `shutdown` -/
  | store
  /-- the push of `queue_in_loop` -/
  | push
  | handleWrite (result : WriteResult)
  /-- a `send` on the loop's thread, from some callback -/
  | send (data : List UInt8) (result : WriteResult)
  | swap
  | functor (result : WriteResult)
  | finish
  deriving DecidableEq, Repr

namespace Exchange

/-- All functors that have not been run. -/
def queue (s : Exchange) : List Functor := s.batch ++ s.session.loop.pendingFunctors

def enqueue (s : Exchange) (cb : Functor) : Exchange :=
  { s with session := { s.session with loop := s.session.loop.queueInLoop false cb } }

/-- The functors of this connection that are bound to its output side; the others (the user's
write-complete callback) call no further function of the connection by themselves. -/
def runFunctor (s : Exchange) (cb : Functor) (result : WriteResult) : Except Fault Exchange :=
  match cb with
  | .sendInLoop _ data => do
    let session ← s.session.sendInLoop data result
    return { s with session := session, stream := s.stream ++ [⟨true, data⟩] }
  | .shutdownInLoop _ => .ok { s with session := s.session.shutdownInLoop }
  | _ => .ok s

def step (s : Exchange) : Event → Except Fault Exchange
  | .load =>
    match s.thread with
    | .ready (data :: script) =>
      -- `send` on a connection that is not up drops the payload.
      if s.session.conn.state = .kConnected then .ok { s with thread := .sendPush data script }
      else .ok { s with thread := .ready script }
    | .ready [] =>
      if s.session.conn.state = .kConnected then .ok { s with thread := .shutdownStore }
      else .ok { s with thread := .done }
    | _ => .error .disabled
  | .store =>
    match s.thread with
    | .shutdownStore =>
      .ok { s with session := s.session.setState .kDisconnecting, thread := .shutdownPush }
    | _ => .error .disabled
  | .push =>
    match s.thread with
    | .sendPush data script =>
      .ok { s.enqueue (.sendInLoop s.session.conn.id data) with thread := .ready script }
    | .shutdownPush =>
      .ok { s.enqueue (.shutdownInLoop s.session.conn.id) with thread := .done }
    | _ => .error .disabled
  | .handleWrite result => do
    -- Events are dispatched before the functors of an iteration, never among them.
    Checked.require (s.session.loop.callingPendingFunctors = false) .disabled
    let session ← s.session.handleWrite result
    return { s with session := session }
  | .send data result => do
    let session ← s.session.send data result
    return { s with
      session := session
      stream := if s.session.conn.state = .kConnected then s.stream ++ [⟨false, data⟩]
        else s.stream }
  | .swap => do
    Checked.require (s.session.loop.callingPendingFunctors = false) .disabled
    return { s with
      session := { s.session with
        loop := { s.session.loop with callingPendingFunctors := true, pendingFunctors := [] } }
      batch := s.session.loop.pendingFunctors }
  | .functor result =>
    match s.batch with
    -- The callback of a functor may queue again; that waits for the next batch.
    | cb :: rest => { s with batch := rest }.runFunctor cb result
    | [] => .error .disabled
  | .finish => do
    Checked.require (s.session.loop.callingPendingFunctors = true ∧ s.batch = []) .disabled
    return { s with
      session := { s.session with
        loop := { s.session.loop with callingPendingFunctors := false } } }

end Exchange

/-- The `::write` of the step takes a prefix of what it is offered, or would block. -/
def Event.Benign : Event → Prop
  | .handleWrite result => result.Benign
  | .send _ result => result.Benign
  | .functor result => result.Benign
  | _ => True

instance (e : Event) : Decidable e.Benign := by
  cases e <;> unfold Event.Benign <;> infer_instance

/-- No `::write` before `SHUT_WR` fails but with `EWOULDBLOCK`. -/
def BenignBeforeShutdown (s : Exchange) (e : Event) : Prop :=
  .shutdownWrite ∉ s.session.trace → e.Benign

instance (s : Exchange) (e : Event) : Decidable (BenignBeforeShutdown s e) :=
  inferInstanceAs (Decidable (_ → _))

/-- The payloads in a list of functors. -/
def queuedSends (functors : List Functor) : List (List UInt8) :=
  functors.filterMap fun
    | .sendInLoop _ data => some data
    | _ => none

def bytes (stream : List Chunk) : List UInt8 := stream.flatMap Chunk.data

/-- The payloads of the thread in a stream. -/
def foreign (stream : List Chunk) : List (List UInt8) :=
  (stream.filter Chunk.foreign).map Chunk.data

/-- At every `SHUT_WR` so far, the bytes the kernel had accepted were those of a part of the
stream that has all bytes of the thread's payloads. -/
def HandedOver (payloads : List (List UInt8)) (s : Exchange) : Prop :=
  ∀ before after, s.session.trace = before ++ .shutdownWrite :: after →
    ∃ early late, s.stream = early ++ late ∧ written before = bytes early ∧
      (foreign early).flatten = payloads.flatten

/-- The step does not drain `output_buffer_` in state `kDisconnecting` while bytes of the
thread wait in the functor queue. -/
def DrainsLast (s : Exchange) : Event → Prop
  | .handleWrite (.wrote n) =>
    s.session.loop.callingPendingFunctors = false →
      s.session.conn.state = .kDisconnecting → s.session.conn.channel.isWriting = true →
      s.session.conn.outputBuffer.readable.length ≤ n →
      (queuedSends s.session.loop.pendingFunctors).flatten = []
  | _ => True

instance (s : Exchange) (e : Event) : Decidable (DrainsLast s e) := by
  unfold DrainsLast
  split <;> infer_instance

/-! ### Lists of functors -/

@[simp] theorem queuedSends_append (xs ys : List Functor) :
    queuedSends (xs ++ ys) = queuedSends xs ++ queuedSends ys := List.filterMap_append

@[simp] theorem queuedSends_shutdownInLoop (id : Nat) (rest : List Functor) :
    queuedSends (.shutdownInLoop id :: rest) = queuedSends rest := rfl

@[simp] theorem foreign_append (xs ys : List Chunk) :
    foreign (xs ++ ys) = foreign xs ++ foreign ys := by
  simp [foreign]

/-- No `shutdown_in_loop` is queued. -/
def NoShutdown (functors : List Functor) : Prop := ∀ id, .shutdownInLoop id ∉ functors

/-- No send is queued behind a `shutdown_in_loop`. -/
def ShutdownLast : List Functor → Prop
  | [] => True
  | .shutdownInLoop _ :: rest => queuedSends rest = []
  | _ :: rest => ShutdownLast rest

theorem ShutdownLast.of_noSends {functors : List Functor} (none : queuedSends functors = []) :
    ShutdownLast functors := by
  induction functors with
  | nil => trivial
  | cons f rest ih =>
    cases f with
    | sendInLoop id data => simp [queuedSends] at none
    -- Whatever stands behind it is no send.
    | shutdownInLoop id => simpa [queuedSends, ShutdownLast] using none
    | _ => exact ih none

theorem ShutdownLast.of_noShutdown {functors : List Functor} (none : NoShutdown functors) :
    ShutdownLast functors := by
  induction functors with
  | nil => trivial
  | cons f rest ih =>
    have below : NoShutdown rest := fun id member => none id (by simp [member])
    cases f with
    | shutdownInLoop id => exact absurd (by simp) (none id)
    | _ => exact ih below

theorem ShutdownLast.append {functors extra : List Functor} (last : ShutdownLast functors)
    (none : queuedSends extra = []) : ShutdownLast (functors ++ extra) := by
  induction functors with
  | nil => exact .of_noSends none
  | cons f rest ih =>
    cases f with
    | shutdownInLoop id =>
      simp only [List.cons_append, ShutdownLast, queuedSends_append] at last ⊢
      rw [last, none]
      rfl
    | _ => exact ih last

theorem ShutdownLast.tail {f : Functor} {rest : List Functor} (last : ShutdownLast (f :: rest)) :
    ShutdownLast rest := by
  cases f with
  | shutdownInLoop id => exact .of_noSends last
  | _ => exact last

private theorem quiet_extra {extra : List Functor} {id : Nat}
    (own : ∀ f ∈ extra, f = .writeComplete id) : queuedSends extra = [] ∧ NoShutdown extra := by
  refine ⟨?_, fun other member => by simpa using own _ member⟩
  rw [queuedSends, List.filterMap_eq_nil_iff]
  intro f member
  rw [own f member]

/-- A split of a longer trace is a split of the old part, or lies in the new one. -/
private theorem append_split {α : Type} {xs ys before after : List α} {e : α}
    (eq : xs ++ ys = before ++ e :: after) :
    (∃ rest, xs = before ++ e :: rest) ∨ ∃ rest, before = xs ++ rest ∧ ys = rest ++ e :: after := by
  rcases List.append_eq_append_iff.mp eq with ⟨rest, rfl, found⟩ | ⟨rest, rfl, found⟩
  · exact .inr ⟨rest, rfl, found⟩
  · cases rest with
    | nil => exact .inr ⟨[], by simp, by simpa using found.symm⟩
    | cons e' rest =>
      simp only [List.cons_append, List.cons.injEq] at found
      exact .inl ⟨rest, by rw [found.1]⟩

/-! ### The invariant -/

structure Inv (payloads : List (List UInt8)) (s : Exchange) : Prop where
  output : OutputInv s.session (bytes s.stream)
  idle : s.session.loop.callingPendingFunctors = false → s.batch = []
  connected : s.thread.early = true → s.session.conn.state = .kConnected ∧
    .shutdownWrite ∉ s.session.trace
  closing : s.thread.early = false → s.session.conn.state = .kDisconnecting
  unqueued : s.thread ≠ .done → NoShutdown s.queue
  account : foreign s.stream ++ queuedSends s.queue ++ s.thread.remaining = payloads
  last : ShutdownLast s.queue
  handed : HandedOver payloads s

namespace HandedOver

variable {payloads : List (List UInt8)} {s t : Exchange} {effects : List Effect}

theorem extend (handed : HandedOver payloads s) {chunks : List Chunk}
    (trace_eq : t.session.trace = s.session.trace ++ effects) (quiet : .shutdownWrite ∉ effects)
    (stream_eq : t.stream = s.stream ++ chunks) : HandedOver payloads t := by
  intro before after split_eq
  rw [trace_eq] at split_eq
  rcases append_split split_eq with ⟨rest, old⟩ | ⟨rest, _, new⟩
  · obtain ⟨early, late, eq, all, own⟩ := handed before rest old
    exact ⟨early, late ++ chunks, by rw [stream_eq, eq, List.append_assoc], all, own⟩
  · exact absurd (by simp [new]) quiet

/-- `SHUT_WR` is fine when everything has been written. -/
theorem issue (handed : HandedOver payloads s)
    (trace_eq : t.session.trace = s.session.trace ++ (effects ++ [.shutdownWrite]))
    (quiet : .shutdownWrite ∉ effects) (stream_eq : t.stream = s.stream)
    (all : written (s.session.trace ++ effects) = bytes s.stream)
    (own : (foreign s.stream).flatten = payloads.flatten) : HandedOver payloads t := by
  intro before after split_eq
  rw [trace_eq] at split_eq
  rcases append_split split_eq with ⟨rest, old⟩ | ⟨rest, rfl, new⟩
  · obtain ⟨early, late, eq, all', own'⟩ := handed before rest old
    exact ⟨early, late, by rw [stream_eq, eq], all', own'⟩
  · -- The new `SHUT_WR` is the only one among the new effects.
    have same : rest = effects := by
      rcases append_split new with ⟨more, found⟩ | ⟨more, eq, found⟩
      · exact absurd (by simp [found]) quiet
      · cases more with
        | nil => simpa using eq
        | cons e more => simp at found
    rw [same]
    exact ⟨s.stream, [], by rw [stream_eq, List.append_nil], all, own⟩

end HandedOver

/-- Once the thread has nothing left to queue, its bytes are in the stream or in the queue. -/
private theorem Inv.late_account {payloads : List (List UInt8)} {s : Exchange}
    (inv : Inv payloads s) (late : s.thread.early = false) :
    (foreign s.stream).flatten ++ (queuedSends s.queue).flatten = payloads.flatten := by
  have none : s.thread.remaining = [] := by
    cases thread_eq : s.thread <;> simp_all [Thread.early, Thread.remaining]
  rw [← inv.account, none]
  simp

/-! ### Steps -/

section

variable {payloads : List (List UInt8)} {s t : Exchange}

/-- A step of the output side that issues no `SHUT_WR`: what it takes from the queue it adds to
the stream. -/
private theorem inv_output {effects : List Effect} {chunks : List Chunk} (inv : Inv payloads s)
    (output : OutputInv t.session (bytes t.stream))
    (same_phase : t.session.loop.callingPendingFunctors = s.session.loop.callingPendingFunctors)
    (batch : s.batch = [] → t.batch = [])
    (same_state : t.session.conn.state = s.session.conn.state)
    (trace_eq : t.session.trace = s.session.trace ++ effects) (quiet : .shutdownWrite ∉ effects)
    (same_thread : t.thread = s.thread) (stream_eq : t.stream = s.stream ++ chunks)
    (account : foreign t.stream ++ queuedSends t.queue = foreign s.stream ++ queuedSends s.queue)
    (unqueued : NoShutdown s.queue → NoShutdown t.queue) (last : ShutdownLast t.queue) :
    Inv payloads t where
  output := output
  idle free := batch (inv.idle (same_phase ▸ free))
  connected early := by
    obtain ⟨here, unshut⟩ := inv.connected (same_thread ▸ early)
    refine ⟨same_state.trans here, ?_⟩
    simp [trace_eq, unshut, quiet]
  closing late := same_state.trans (inv.closing (same_thread ▸ late))
  unqueued busy := unqueued (inv.unqueued (same_thread ▸ busy))
  account := by
    rw [account, same_thread]
    exact inv.account
  last := last
  handed := inv.handed.extend trace_eq quiet stream_eq

/-- What the loop's own steps push behind the queue: notifications. -/
private theorem queue_extended {y : Session} (keeps : Keeps s.session y)
    (batch : List Functor) (thread : Thread) (stream : List Chunk) :
    ∃ extra, Exchange.queue ⟨y, batch, thread, stream⟩ =
      batch ++ s.session.loop.pendingFunctors ++ extra ∧
      queuedSends extra = [] ∧ NoShutdown extra := by
  obtain ⟨extra, eq, own⟩ := keeps.functors
  obtain ⟨noSends, noShutdown⟩ := quiet_extra own
  exact ⟨extra, by simp [Exchange.queue, eq], noSends, noShutdown⟩

private theorem NoShutdown.append {xs ys : List Functor} (first : NoShutdown xs)
    (second : NoShutdown ys) : NoShutdown (xs ++ ys) := by
  intro id member
  rcases List.mem_append.mp member with member | member
  · exact first id member
  · exact second id member

private theorem alive (inv : Inv payloads s) : s.session.conn.state ≠ .kDisconnected := by
  cases early : s.thread.early with
  | true => simp [(inv.connected early).1]
  | false => simp [inv.closing early]

private theorem inv_send {data : List UInt8} {result : WriteResult} (inv : Inv payloads s)
    (benign : BenignBeforeShutdown s (.send data result))
    (taken : s.step (.send data result) = .ok t) : Inv payloads t := by
  obtain ⟨y, sent, taken⟩ := Checked.bind_ok_iff.mp taken
  cases taken
  by_cases connected : s.session.conn.state = .kConnected
  · -- In state `kConnected` the thread has not stored yet, so nothing is half-closed.
    have unshut : .shutdownWrite ∉ s.session.trace := by
      cases early : s.thread.early with
      | true => exact (inv.connected early).2
      | false => simp [inv.closing early] at connected
    have keeps := (Session.send_output inv.output.registered sent).toKeeps
    obtain ⟨z, effects, ok, output, same_state, trace_eq, quiet⟩ :=
      Session.sendInLoop_spec inv.output (alive inv) data (benign unshut)
    rw [Session.send, if_pos connected, ok] at sent
    cases sent
    obtain ⟨extra, queue_eq, noSends, noShutdown⟩ :=
      queue_extended keeps s.batch s.thread (s.stream ++ [⟨false, data⟩])
    simp only [if_pos connected]
    refine inv_output inv ?_ keeps.callingPendingFunctors
      (fun none => none) same_state trace_eq quiet rfl rfl ?_ ?_ ?_
    · simpa [bytes] using output
    · rw [queue_eq]
      simp [foreign, noSends, Exchange.queue]
    · intro free
      rw [queue_eq]
      exact free.append noShutdown
    · rw [queue_eq]
      exact inv.last.append noSends
  · rw [Session.send, if_neg connected] at sent
    cases sent
    simpa [connected] using inv

/-- After `SHUT_WR` no byte of the thread is queued. -/
private theorem drained_of_shut (inv : Inv payloads s)
    (shut : .shutdownWrite ∈ s.session.trace) : (queuedSends s.queue).flatten = [] := by
  have late : s.thread.early = false := by
    cases early : s.thread.early with
    | true => exact absurd shut (inv.connected early).2
    | false => rfl
  obtain ⟨before, after, split_eq⟩ := List.append_of_mem shut
  obtain ⟨first, rest, eq, _, own⟩ := inv.handed before after split_eq
  have account := inv.late_account late
  rw [eq, foreign_append, List.flatten_append, own, List.append_assoc] at account
  have none := List.append_right_eq_self.mp account
  exact (List.append_eq_nil_iff.mp none).2

private theorem inv_sendFunctor {id : Nat} {data : List UInt8} {rest : List Functor}
    {result : WriteResult} {y : Session} (inv : Inv payloads s)
    (benign : BenignBeforeShutdown s (.functor result))
    (batch_eq : s.batch = .sendInLoop id data :: rest)
    (sent : s.session.sendInLoop data result = .ok y) :
    Inv payloads ⟨y, rest, s.thread, s.stream ++ [⟨true, data⟩]⟩ := by
  have keeps := (Session.sendInLoop_output inv.output.registered sent).toKeeps
  have spec : ∃ effects, OutputInv y (bytes s.stream ++ data) ∧
      y.conn.state = s.session.conn.state ∧ y.trace = s.session.trace ++ effects ∧
      .shutdownWrite ∉ effects := by
    by_cases shut : .shutdownWrite ∈ s.session.trace
    · -- Only empty payloads can be left.
      have empty : data = [] := by
        have none := drained_of_shut inv shut
        simp only [Exchange.queue, batch_eq, List.cons_append, queuedSends, List.filterMap_cons,
          List.flatten_cons, List.append_eq_nil_iff] at none
        exact none.1
      subst empty
      obtain ⟨z, effects, ok, spec⟩ := Session.sendInLoop_nil_spec inv.output (alive inv) result
      rw [ok] at sent
      cases sent
      exact ⟨effects, by simpa using spec⟩
    · obtain ⟨z, effects, ok, spec⟩ :=
        Session.sendInLoop_spec inv.output (alive inv) data (benign shut)
      rw [ok] at sent
      cases sent
      exact ⟨effects, spec⟩
  obtain ⟨effects, output, same_state, trace_eq, quiet⟩ := spec
  obtain ⟨extra, queue_eq, noSends, noShutdown⟩ :=
    queue_extended keeps rest s.thread (s.stream ++ [⟨true, data⟩])
  have before : s.queue = .sendInLoop id data :: (rest ++ s.session.loop.pendingFunctors) := by
    simp [Exchange.queue, batch_eq]
  refine inv_output inv ?_ keeps.callingPendingFunctors (by simp [batch_eq]) same_state trace_eq
    quiet rfl rfl ?_ ?_ ?_
  · simpa [bytes] using output
  · -- The payload goes from the queue into the stream.
    rw [queue_eq, before, queuedSends_append, noSends, List.append_nil, foreign_append,
      List.append_assoc]
    rfl
  · intro free
    rw [queue_eq]
    refine NoShutdown.append (fun id' member => ?_) noShutdown
    rw [before] at free
    exact free id' (by simp [member])
  · rw [queue_eq]
    have last := inv.last
    rw [before] at last
    exact last.tail.append noSends

private theorem inv_shutdownFunctor {id : Nat} {rest : List Functor} (inv : Inv payloads s)
    (batch_eq : s.batch = .shutdownInLoop id :: rest) :
    Inv payloads { s with session := s.session.shutdownInLoop, batch := rest } := by
  have before : s.queue = .shutdownInLoop id :: (rest ++ s.session.loop.pendingFunctors) := by
    simp [Exchange.queue, batch_eq]
  -- `shutdown_in_loop` is the last thing the thread pushes.
  have done : s.thread = .done := by
    by_contra busy
    exact inv.unqueued busy id (by simp [before])
  have late : s.thread.early = false := by simp [done, Thread.early]
  have noSends : queuedSends (rest ++ s.session.loop.pendingFunctors) = [] := by
    have last := inv.last
    rw [before] at last
    exact last
  have own : (foreign s.stream).flatten = payloads.flatten := by
    have account := inv.late_account late
    rw [before, queuedSends_shutdownInLoop, noSends] at account
    simpa using account
  have account : foreign s.stream ++ queuedSends (rest ++ s.session.loop.pendingFunctors) ++
      s.thread.remaining = payloads := by
    have account := inv.account
    rwa [before, queuedSends_shutdownInLoop] at account
  have idle : s.session.loop.callingPendingFunctors = false → rest = [] := by
    intro free
    have none := inv.idle free
    simp [batch_eq] at none
  unfold Session.shutdownInLoop
  split
  next quiet =>
    -- Nothing waits: this is where the half-close happens.
    have empty : s.session.conn.outputBuffer.readable = [] := by
      have interest := inv.output.interest
      simp only [Bool.not_eq_eq_eq_not, Bool.not_true] at quiet
      simpa [quiet] using interest
    have all : written s.session.trace = bytes s.stream := by
      simpa [empty] using inv.output.integrity
    refine ⟨⟨inv.output.buffer, inv.output.registered, ?_, inv.output.interest⟩, idle,
      ?_, inv.closing, absurd done, account, .of_noSends noSends, ?_⟩
    · simpa [Session.emit] using inv.output.integrity
    · intro early
      simp [done, Thread.early] at early
    · have trace_eq : (s.session.emit .shutdownWrite).trace =
          s.session.trace ++ ([] ++ [.shutdownWrite]) := rfl
      exact inv.handed.issue trace_eq (by simp) rfl (by simpa using all) own
  next =>
    exact ⟨inv.output, idle, inv.connected, inv.closing, absurd done, account,
      .of_noSends noSends, inv.handed⟩

private theorem inv_functor {result : WriteResult} (inv : Inv payloads s)
    (benign : BenignBeforeShutdown s (.functor result))
    (taken : s.step (.functor result) = .ok t) : Inv payloads t := by
  simp only [Exchange.step] at taken
  split at taken
  next cb rest batch_eq =>
    -- The functors of the other sides only leave the batch.
    have popped : queuedSends [cb] = [] → Inv payloads { s with batch := rest } := by
      intro none
      have before : s.queue = [cb] ++ (rest ++ s.session.loop.pendingFunctors) := by
        simp [Exchange.queue, batch_eq]
      refine inv_output inv inv.output rfl (by simp [batch_eq]) rfl (List.append_nil _).symm
        (by simp) rfl (List.append_nil _).symm ?_ ?_ ?_
      · rw [before, queuedSends_append, none]
        rfl
      · intro free id member
        rw [before] at free
        exact free id (List.mem_append_right _ member)
      · have last := inv.last
        rw [before] at last
        exact last.tail
    cases cb with
    | sendInLoop id data =>
      obtain ⟨y, sent, taken⟩ := Checked.bind_ok_iff.mp taken
      cases taken
      have next := inv_sendFunctor inv benign batch_eq sent
      exact next
    | shutdownInLoop id =>
      cases taken
      have next := inv_shutdownFunctor inv batch_eq
      exact next
    | connectEstablished id => cases taken; exact popped rfl
    | removeConnectionInLoop id => cases taken; exact popped rfl
    | connectDestoryed id => cases taken; exact popped rfl
    | writeComplete id => cases taken; exact popped rfl
  next => cases taken

/-- A drain in state `kDisconnecting` issues `SHUT_WR`, whatever is queued. -/
private theorem drain_issues {n : Nat} (inv : Inv payloads s)
    (free : s.session.loop.callingPendingFunctors = false)
    (closing : s.session.conn.state = .kDisconnecting)
    (writing : s.session.conn.channel.isWriting = true)
    (all : s.session.conn.outputBuffer.readable.length ≤ n) :
    ∃ y bytes, s.step (.handleWrite (.wrote n)) = .ok { s with session := y } ∧
      y.trace = s.session.trace ++ [.wrote bytes, .shutdownWrite] := by
  obtain ⟨y, ok, output, same_state, left, progress⟩ :=
    Session.handleWrite_spec inv.output (.wrote n)
  have empty : y.conn.outputBuffer.readable = [] := by
    rw [left, WriteResult.leaves, List.drop_eq_nil_iff]
    exact all
  have quiet : y.conn.channel.isWriting = false := by
    simpa [empty] using output.interest
  refine ⟨y, ?_⟩
  have taken : s.step (.handleWrite (.wrote n)) = .ok { s with session := y } := by
    simp only [Exchange.step, Checked.require_pos _ free, ok, Checked.ok_bind, Checked.pure_eq_ok]
  -- Of the outcomes of `handle_write` only the drain with `SHUT_WR` fits.
  rcases progress with ⟨idle, _⟩ | ⟨_, bytes, ⟨_, still | elsewhere⟩ | ⟨trace_eq, _⟩⟩
  · simp [writing] at idle
  · simp [quiet] at still
  · exact absurd closing elsewhere
  · exact ⟨bytes, taken, trace_eq⟩

private theorem inv_handleWrite {result : WriteResult} (inv : Inv payloads s)
    (drainsLast : DrainsLast s (.handleWrite result))
    (taken : s.step (.handleWrite result) = .ok t) : Inv payloads t := by
  obtain ⟨_, free, taken⟩ := Checked.bind_ok_iff.mp taken
  obtain ⟨y, wrote, taken⟩ := Checked.bind_ok_iff.mp taken
  cases taken
  have free : s.session.loop.callingPendingFunctors = false := Checked.require_ok_iff.mp free
  have keeps := (Session.handleWrite_output inv.output.registered wrote).toKeeps
  obtain ⟨z, ok, output, same_state, left, progress⟩ := Session.handleWrite_spec inv.output result
  rw [ok] at wrote
  cases wrote
  obtain ⟨extra, queue_eq, noSends, noShutdown⟩ :=
    queue_extended keeps s.batch s.thread s.stream
  have account : foreign s.stream ++ queuedSends (Exchange.queue ⟨y, s.batch, s.thread, s.stream⟩)
      = foreign s.stream ++ queuedSends s.queue := by
    rw [queue_eq]
    simp [noSends, Exchange.queue]
  have unqueued : NoShutdown s.queue →
      NoShutdown (Exchange.queue ⟨y, s.batch, s.thread, s.stream⟩) := by
    intro none
    rw [queue_eq]
    exact none.append noShutdown
  have last : ShutdownLast (Exchange.queue ⟨y, s.batch, s.thread, s.stream⟩) := by
    rw [queue_eq]
    exact inv.last.append noSends
  rcases progress with ⟨_, rfl⟩ | ⟨writing, bytes, ⟨trace_eq, _⟩ | ⟨trace_eq, quiet, closing⟩⟩
  · exact inv
  · exact inv_output inv output keeps.callingPendingFunctors (fun none => none) same_state
      trace_eq (by simp) rfl (List.append_nil _).symm account unqueued last
  · -- `SHUT_WR`: the buffer is empty, and the condition says that the queue is, too.
    have late : s.thread.early = false := by
      cases early : s.thread.early with
      | true => simp [(inv.connected early).1] at closing
      | false => rfl
    have empty : y.conn.outputBuffer.readable = [] := by
      simpa [quiet] using output.interest
    have none : (queuedSends s.queue).flatten = [] := by
      rw [Exchange.queue, inv.idle free, List.nil_append]
      cases result with
      | failed errno =>
        -- A failed write leaves the waiting bytes, so the buffer cannot have run empty.
        simp only [WriteResult.leaves] at left
        exact absurd (left.symm.trans empty) (inv.output.interest.mp writing)
      | wrote n =>
        apply drainsLast free closing writing
        rwa [left, WriteResult.leaves, List.drop_eq_nil_iff] at empty
    have own : (foreign s.stream).flatten = payloads.flatten := by
      simpa [none] using inv.late_account late
    have all : written (s.session.trace ++ [.wrote bytes]) = ForeignShutdown.bytes s.stream := by
      have integrity := output.integrity
      simpa [trace_eq, empty] using integrity
    refine ⟨output, fun _ => inv.idle free, ?_, fun _ => same_state.trans closing,
      fun busy => unqueued (inv.unqueued busy), ?_, last, ?_⟩
    · intro early
      simp [late] at early
    · rw [account]
      exact inv.account
    · exact inv.handed.issue (by simpa using trace_eq) (by simp) rfl all own

private theorem inv_load (inv : Inv payloads s) (taken : s.step .load = .ok t) :
    Inv payloads t := by
  simp only [Exchange.step] at taken
  split at taken
  next data script here =>
    have early : s.thread.early = true := by simp [here, Thread.early]
    have account : foreign s.stream ++ queuedSends s.queue ++ (data :: script) = payloads := by
      simpa [here, Thread.remaining] using inv.account
    -- Nobody but this thread leaves `kConnected`, so its test succeeds.
    rw [if_pos (inv.connected early).1] at taken
    cases taken
    exact ⟨inv.output, inv.idle, fun _ => inv.connected early, nofun,
      fun _ => inv.unqueued (by simp [here]), account, inv.last, inv.handed⟩
  next here =>
    have early : s.thread.early = true := by simp [here, Thread.early]
    have account : foreign s.stream ++ queuedSends s.queue ++ [] = payloads := by
      simpa [here, Thread.remaining] using inv.account
    rw [if_pos (inv.connected early).1] at taken
    cases taken
    exact ⟨inv.output, inv.idle, fun _ => inv.connected early, nofun,
      fun _ => inv.unqueued (by simp [here]), account, inv.last, inv.handed⟩
  next => cases taken

private theorem inv_store (inv : Inv payloads s) (taken : s.step .store = .ok t) :
    Inv payloads t := by
  simp only [Exchange.step] at taken
  split at taken
  next here =>
    cases taken
    have account : foreign s.stream ++ queuedSends s.queue ++ [] = payloads := by
      simpa [here, Thread.remaining] using inv.account
    exact ⟨⟨inv.output.buffer, inv.output.registered, inv.output.integrity,
      inv.output.interest⟩, inv.idle, nofun, fun _ => rfl,
      fun _ => inv.unqueued (by simp [here]), account, inv.last, inv.handed⟩
  next => cases taken

private theorem enqueue_queue (s : Exchange) (cb : Functor) :
    (s.enqueue cb).queue = s.queue ++ [cb] := by
  simp [Exchange.enqueue, Exchange.queue, EventLoop.queueInLoop]

private theorem inv_push (inv : Inv payloads s) (taken : s.step .push = .ok t) :
    Inv payloads t := by
  have output : ∀ cb, OutputInv (s.enqueue cb).session (bytes s.stream) := fun _ =>
    ⟨inv.output.buffer, inv.output.registered, inv.output.integrity, inv.output.interest⟩
  simp only [Exchange.step] at taken
  split at taken
  next data script here =>
    cases taken
    have early : s.thread.early = true := by simp [here, Thread.early]
    have free := inv.unqueued (by simp [here])
    have queue_eq := enqueue_queue s (.sendInLoop s.session.conn.id data)
    have unqueued : NoShutdown (s.queue ++ [.sendInLoop s.session.conn.id data]) :=
      free.append (by simp [NoShutdown])
    refine ⟨output _, inv.idle, fun _ => inv.connected early, nofun, fun _ => ?_, ?_, ?_,
      inv.handed⟩
    · exact queue_eq ▸ unqueued
    · have account := inv.account
      simp only [here, Thread.remaining] at account
      calc foreign s.stream ++ queuedSends (s.enqueue (.sendInLoop _ data)).queue ++ script
          = foreign s.stream ++ queuedSends s.queue ++ (data :: script) := by
            rw [queue_eq]
            simp [queuedSends]
        _ = payloads := account
    · exact .of_noShutdown (queue_eq ▸ unqueued)
  next here =>
    cases taken
    have free := inv.unqueued (by simp [here])
    have closing := inv.closing (by simp [here, Thread.early])
    have queue_eq := enqueue_queue s (.shutdownInLoop s.session.conn.id)
    refine ⟨output _, inv.idle, nofun, fun _ => closing, absurd rfl, ?_, ?_, inv.handed⟩
    · have account := inv.account
      simp only [here, Thread.remaining, List.append_nil] at account
      calc foreign s.stream ++ queuedSends (s.enqueue (.shutdownInLoop _)).queue ++ []
          = foreign s.stream ++ queuedSends s.queue := by
            rw [queue_eq]
            simp [queuedSends]
        _ = payloads := account
    · exact queue_eq ▸ (ShutdownLast.of_noShutdown free).append rfl
  next => cases taken

private theorem inv_swap (inv : Inv payloads s) (taken : s.step .swap = .ok t) :
    Inv payloads t := by
  obtain ⟨_, free, taken⟩ := Checked.bind_ok_iff.mp taken
  cases taken
  have none := inv.idle (Checked.require_ok_iff.mp free)
  have same : Exchange.queue ⟨{ s.session with
      loop := { s.session.loop with callingPendingFunctors := true, pendingFunctors := [] } },
      s.session.loop.pendingFunctors, s.thread, s.stream⟩ = s.queue := by
    simp [Exchange.queue, none]
  exact ⟨⟨inv.output.buffer, inv.output.registered, inv.output.integrity, inv.output.interest⟩,
    nofun, inv.connected, inv.closing, fun busy => same.symm ▸ inv.unqueued busy,
    same.symm ▸ inv.account, same.symm ▸ inv.last, inv.handed⟩

private theorem inv_finish (inv : Inv payloads s) (taken : s.step .finish = .ok t) :
    Inv payloads t := by
  obtain ⟨_, finished, taken⟩ := Checked.bind_ok_iff.mp taken
  cases taken
  have none := (Checked.require_ok_iff.mp finished).2
  exact ⟨⟨inv.output.buffer, inv.output.registered, inv.output.integrity, inv.output.interest⟩,
    fun _ => none, inv.connected, inv.closing, inv.unqueued, inv.account, inv.last, inv.handed⟩

/-- Step lemma: a step that does not drain too early keeps the invariant. -/
theorem inv_step {e : Event} (inv : Inv payloads s) (benign : BenignBeforeShutdown s e)
    (drainsLast : DrainsLast s e) (taken : s.step e = .ok t) : Inv payloads t := by
  cases e with
  | load => exact inv_load inv taken
  | store => exact inv_store inv taken
  | push => exact inv_push inv taken
  | handleWrite result => exact inv_handleWrite inv drainsLast taken
  | send data result => exact inv_send inv benign taken
  | swap => exact inv_swap inv taken
  | functor result => exact inv_functor inv benign taken
  | finish => exact inv_finish inv taken

/-- A drain that comes too early half-closes before bytes of the thread. -/
theorem not_handedOver_of_early_drain {e : Event} (inv : Inv payloads s)
    (early : ¬DrainsLast s e) : ∃ t, s.step e = .ok t ∧ ¬HandedOver payloads t := by
  unfold DrainsLast at early
  split at early
  next n =>
    push Not at early
    obtain ⟨free, closing, writing, all, queued⟩ := early
    obtain ⟨y, bytes, taken, trace_eq⟩ := drain_issues inv free closing writing all
    refine ⟨_, taken, fun handed => queued ?_⟩
    -- Had all been handed over, nothing would be left for the queue.
    obtain ⟨first, rest, eq, _, own⟩ := handed (s.session.trace ++ [.wrote bytes]) []
      (by simp [trace_eq])
    have late : s.thread.early = false := by
      cases early : s.thread.early with
      | true => simp [(inv.connected early).1] at closing
      | false => rfl
    have account := inv.late_account late
    rw [show s.stream = first ++ rest from eq, foreign_append, List.flatten_append, own,
      List.append_assoc] at account
    have none := (List.append_eq_nil_iff.mp (List.append_right_eq_self.mp account)).2
    simpa [Exchange.queue, inv.idle free] using none
  next => exact absurd trivial early

end

/-! ### Runs -/

/-- The thread is about to send `payloads` on an established connection; nothing is queued. -/
def start (x : Session) (payloads : List (List UInt8)) : Exchange := ⟨x, [], .ready payloads, []⟩

theorem inv_start {x : Session} (established : x.Established)
    (unqueued : x.loop.pendingFunctors = []) (payloads : List (List UInt8)) :
    Inv payloads (start x payloads) := by
  obtain ⟨output, connected, unshut⟩ := established.start
  refine ⟨output, fun _ => rfl, fun _ => ⟨connected, unshut⟩, nofun, ?_, ?_, ?_, ?_⟩
  · simp [start, Exchange.queue, unqueued, NoShutdown]
  · simp [start, Exchange.queue, unqueued, foreign, queuedSends, Thread.remaining]
  · simp [start, Exchange.queue, unqueued, ShutdownLast]
  · intro before after split_eq
    have shut : .shutdownWrite ∈ x.trace := by
      rw [show x.trace = _ from split_eq]
      simp
    exact absurd shut unshut

/-- The step leads to a state in which everything has been handed over in time. -/
def KeepsPromise (payloads : List (List UInt8)) (s : Exchange) (e : Event) : Prop :=
  ∀ t, s.step e = .ok t → HandedOver payloads t

/-- **Send, then shut down**: over every interleaving of the thread with its loop, all bytes of
its payloads are handed to the kernel before `SHUT_WR` if and only if no `handle_write` drains
`output_buffer_` in state `kDisconnecting` while bytes of the thread are still queued. -/
theorem sends_precede_shutdown_iff {x : Session} (established : x.Established)
    (unqueued : x.loop.pendingFunctors = []) (payloads : List (List UInt8))
    (events : List Event)
    (benign : Along Exchange.step BenignBeforeShutdown (start x payloads) events) :
    Along Exchange.step (KeepsPromise payloads) (start x payloads) events ↔
      Along Exchange.step DrainsLast (start x payloads) events := by
  refine (along_congr _ (fun s e t inv benign drainsLast taken => ?_) (fun s e inv benign => ?_)
    (inv_start established unqueued payloads) benign).symm
  · exact inv_step inv benign drainsLast taken
  · refine ⟨fun drainsLast t taken => (inv_step inv benign drainsLast taken).handed, ?_⟩
    intro kept
    by_contra early
    obtain ⟨t, taken, late⟩ := not_handedOver_of_early_drain inv early
    exact late (kept t taken)

/-- One byte of the loop's own output waits when the thread sends one byte and shuts down. The
writable event comes before the functors. -/
def beforeDrain : List Event :=
  [.send [1] (.wrote 0), .load, .push, .load, .store, .push]

theorem early_drain_loses_payload :
    ¬Along Exchange.step (KeepsPromise [[2]]) (start Call.sampleSession [[2]])
      (beforeDrain ++ [.handleWrite (.wrote 1)]) := by
  intro along
  -- The drain writes the loop's own byte and half-closes; the thread's byte is not in the stream.
  have evaluated : ((run Exchange.step (start Call.sampleSession [[2]]) beforeDrain).toOption.any
      fun s => (s.step (.handleWrite (.wrote 1))).toOption.any fun t =>
        decide (.shutdownWrite ∈ t.session.trace ∧ t.stream = [⟨false, [1]⟩])) = true := by
    decide +kernel
  cases ran : run Exchange.step (start Call.sampleSession [[2]]) beforeDrain with
  | error f => simp [ran, Except.toOption] at evaluated
  | ok s =>
    cases taken : s.step (.handleWrite (.wrote 1)) with
    | error f => simp [ran, taken, Except.toOption] at evaluated
    | ok t =>
      simp only [ran, taken, Except.toOption, Option.any_some, decide_eq_true_eq] at evaluated
      obtain ⟨before, after, split_eq⟩ := List.append_of_mem evaluated.1
      obtain ⟨early, late, eq, _, own⟩ := along.at_step ran t taken before after split_eq
      rw [evaluated.2] at eq
      have none : foreign early ++ foreign late = [] := by
        rw [← foreign_append, ← eq]
        decide
      rw [(List.append_eq_nil_iff.mp none).1] at own
      simp at own

/-- The functors run before the writable event: nothing is lost. -/
def lateDrain : List Event :=
  beforeDrain ++ [.swap, .functor (.wrote 0), .functor (.wrote 0), .finish,
    .handleWrite (.wrote 1), .handleWrite (.wrote 1)]

theorem late_drain_keeps_payload :
    Along Exchange.step (KeepsPromise [[2]]) (start Call.sampleSession [[2]]) lateDrain :=
  (sends_precede_shutdown_iff Call.sampleSession_established rfl [[2]] lateDrain
    (by decide +kernel)).mpr (by decide +kernel)

end Clia.Net.ForeignShutdown
