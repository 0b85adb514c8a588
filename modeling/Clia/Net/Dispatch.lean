import Clia.Net.SessionStage
import Clia.Net.OutputStream

/-!
# Closing a connection under any event mask

`Channel::handle_event_with_guard` tests the bits of `revents_` one after another, and every
callback may close the connection while later bits are still to come. This module follows one
connection from `connect_established` over any sequence of dispatches, callback by callback, with
every result of `readv` and `write` and with the calls of user code in between.

## Main result

`Life.closed_once_iff`: in a run, `handle_close` is entered at most once, its close callback is
called once for it and no message callback comes after the down callback, if and only if the run
has no late read: a read callback after the close of the same dispatch that finds the end of the
stream, or bytes for a message callback after the down callback. The close branch leaves a mask
with `EPOLLIN` to the read branch, but the read branch serves `EPOLLPRI` too.

## Proof strategy

`Life.Inv` places the connection at one of three stages and says of each what is left of the
dispatch: an open connection has its close first, a closed one has no close any more and a read
only if the mask hung it up. The faults of all functions but `handle_close` are elsewhere
(`Raises`), so its assertion fails only on a second entry.
-/

namespace Clia.Net

open Reactor LabelledRun Checked

/-! ### Dispatches -/

/-- The events a connection is dispatched with. -/
def deliverable : Mask := kReadEvent ||| kWriteEvent ||| EPOLLERR ||| EPOLLHUP

/-- The close branch of `handle_event_with_guard` is taken. -/
def hungUp (revents : Mask) : Bool := revents.has EPOLLHUP && !revents.has EPOLLIN

/-- A connection from `connect_established` on. `revents` is `revents_` of its channel and `todo`
what is left of the dispatch; `closes` counts the calls of `handle_close` that got past its
assertion. -/
structure Life where
  session : Session
  revents : Mask
  todo : List Channel.Callback
  closes : Nat

namespace Life

def start (x : Session) : Life := ⟨x, kNoneEvent, [], 0⟩

inductive Label where
  /-- `handle_event` with the mask that `epoll_wait` returned -/
  | dispatch (revents : Mask)
  /-- The next callback of the dispatch, with the results of the system calls it may make. -/
  | callback (read : ReadResult) (write : WriteResult)
  /-- A call of user code, also one that a callback makes. -/
  | user (c : Call)
  /-- `connect_destoryed`, which the loop runs with its functors. -/
  | connectDestoryed
  deriving DecidableEq, Repr

/-- The function of the connection that a callback of the channel is bound to. -/
def handler (x : Session) (read : ReadResult) (write : WriteResult) :
    Channel.Callback → Except Fault Session
  | .close => x.handleClose
  | .error => .ok x.handleError
  | .read => x.handleRead read
  | .write => x.handleWrite write

/-- How often a handler calls `handle_close`. -/
def closeCalls (x : Session) (read : ReadResult) : Channel.Callback → Nat
  | .close => 1
  | .read =>
    match x.conn.inputBuffer.readFd read with
    | .ok (n, _) => if n = 0 then 1 else 0
    | .error _ => 0
  | _ => 0

def step (s : Life) : Label → Except Fault Life
  | .dispatch revents => do
    require (s.todo = [] ∧ s.session.conn.channel.index = .kAdded ∧
      revents &&& ~~~deliverable = 0) Fault.disabled
    return { s with revents := revents, todo := Channel.callbacks revents }
  | .callback read write =>
    match s.todo with
    | [] => .error .disabled
    | callback :: rest => do
      let session ← handler s.session read write callback
      return { s with
        session := session
        todo := rest
        closes := s.closes + closeCalls s.session read callback }
  | .user c => do
    require c.IsUser Fault.disabled
    let session ← c.step s.session
    return { s with session := session }
  | .connectDestoryed => do
    -- Functors run between dispatches.
    require (s.todo = []) Fault.disabled
    let session ← s.session.connectDestoryed
    return { s with session := session }

/-- No message callback after the down callback. -/
def MessagesBeforeDown (trace : List Effect) : Prop :=
  trace.Pairwise fun earlier later => earlier = .connectionCallback false → later ≠ .messageCallback

instance (trace : List Effect) : Decidable (MessagesBeforeDown trace) := by
  unfold MessagesBeforeDown
  infer_instance

/-- What one step leaves behind: at most one close, with its callback called once for it, and no
message after the down callback. The step does not fail the assertion of `handle_close`. -/
def ClosedOnce (s : Life) (l : Label) : Prop :=
  match s.step l with
  | .ok t => t.closes ≤ 1 ∧
    t.session.trace.count .closeCallback =
      (if t.session.conn.hasCloseCallback then t.closes else 0) ∧
    MessagesBeforeDown t.session.trace
  | .error f => f ≠ .assertion .closable

instance (s : Life) (l : Label) : Decidable (s.ClosedOnce l) := by
  unfold ClosedOnce
  split <;> infer_instance

/-- The read callback comes after the close of the same dispatch, and it finds the end of the
stream or bytes for a message callback that the down callback has preceded. -/
def LateRead (s : Life) : Label → Prop
  | .callback (.received bytes) _ =>
    s.todo.head? = some .read ∧ hungUp s.revents = true ∧
      (s.session.conn.inputBuffer.readFd (.received bytes)).isOk = true ∧
      (bytes = [] ∨ s.session.conn.hasMessageCallback = true ∧
        s.session.conn.hasConnectionCallback = true)
  | _ => False

instance (s : Life) (l : Label) : Decidable (s.LateRead l) := by
  unfold LateRead
  split <;> infer_instance

end Life

/-! ### Faults of the other functions -/

/-- A fault other than the failed assertion of `handle_close`. -/
def OtherFault (f : Fault) : Prop := f ≠ .assertion .closable

theorem cassert_other {p : Prop} [Decidable p] {site : Assertion} (other : site ≠ .closable) :
    Raises OtherFault (cassert p site) := by
  apply Raises.require
  simpa [OtherFault] using other

namespace Buffer

theorem retrieve_other (b : Buffer) (len : Nat) : Raises OtherFault (b.retrieve len) := by
  refine Raises.bind (cassert_other (by decide)) fun _ _ => ?_
  exact Raises.ite (fun _ => Raises.ok _) fun _ => Raises.ok _

theorem copyIn_other (xs : List UInt8) (pos : Nat) (data : List UInt8) :
    Raises OtherFault (copyIn xs pos data) :=
  Raises.bind (Raises.require (by simp [OtherFault])) fun _ _ => Raises.ok _

theorem makeSpace_other (b : Buffer) (len : Nat) : Raises OtherFault (b.makeSpace len) := by
  refine Raises.ite (fun _ => Raises.ok _) fun _ => ?_
  refine Raises.bind (cassert_other (by decide)) fun _ _ => ?_
  refine Raises.bind (Raises.require (by simp [OtherFault])) fun _ _ => ?_
  exact Raises.bind (cassert_other (by decide)) fun _ _ => Raises.ok _

theorem ensureWritableBytes_other (b : Buffer) (len : Nat) :
    Raises OtherFault (b.ensureWritableBytes len) := by
  have ensured : ∀ c : Buffer, Raises OtherFault (do
      cassert (len ≤ c.writableBytes) .writableEnsured
      return c) :=
    fun _ => Raises.bind (cassert_other (by decide)) fun _ _ => Raises.ok _
  refine Raises.ite (fun _ => ?_) fun _ => ?_
  · exact Raises.bind (makeSpace_other b len) fun c _ => ensured c
  · exact Raises.bind (Raises.ok b) fun c _ => ensured c

theorem append_other (b : Buffer) (data : List UInt8) : Raises OtherFault (b.append data) := by
  refine Raises.bind (ensureWritableBytes_other b data.length) fun _ _ => ?_
  exact Raises.bind (copyIn_other _ _ _) fun _ _ => Raises.ok _

theorem receive_other (b : Buffer) (result : ReadResult) :
    Raises OtherFault (b.receive result) := by
  cases result with
  | failed errno => exact Raises.ok _
  | received bytes =>
    refine Raises.bind (copyIn_other _ _ _) fun _ _ => ?_
    refine Raises.ite (fun _ => Raises.ok _) fun _ => ?_
    exact Raises.bind (append_other _ _) fun _ _ => Raises.ok _

theorem readFd_other (b : Buffer) (result : ReadResult) :
    Raises OtherFault (b.readFd result) := by
  refine Raises.bind (cassert_other (by decide)) fun _ _ => ?_
  refine Raises.bind (receive_other b result) fun _ _ => ?_
  exact Raises.bind (Raises.require (by simp [OtherFault])) fun _ _ => Raises.ok _

theorem writeFd_other (b : Buffer) (result : WriteResult) :
    Raises OtherFault (b.writeFd result) := by
  cases result with
  | failed errno => exact Raises.ok _
  | wrote n => exact Raises.bind (retrieve_other _ _) fun _ _ => Raises.ok _

end Buffer

/-! On a registered channel an interest change raises nothing at all. -/

namespace Session

variable {x : Session}

theorem queueRest_other (registered : x.IsRegistered) (rest : List UInt8) :
    Raises OtherFault (x.queueRest rest) := by
  refine Raises.bind (Buffer.append_other _ _) fun outputBuffer _ => ?_
  have still : (x.withOutput outputBuffer).IsRegistered := registered
  refine Raises.ite (fun _ => ?_) fun _ => Raises.ok _
  rw [onChannel_enableWriting still]
  exact Raises.ok _

theorem send_other (registered : x.IsRegistered) (data : List UInt8) (result : WriteResult) :
    Raises OtherFault (x.send data result) := by
  refine Raises.ite (fun _ => ?_) fun _ => Raises.ok _
  refine Raises.ite (fun _ => Raises.ok _) fun _ => ?_
  -- A direct write leaves the channel as it is.
  have direct : ∀ attempt : Session × Nat × Bool,
      attempt = (if !x.conn.channel.isWriting && x.conn.outputBuffer.readableBytes == 0 then
        x.directWrite data result else (x, 0, false)) → attempt.1.IsRegistered := by
    rintro attempt rfl
    split
    · exact (directWrite_output registered data result).registered
    · exact registered
  generalize (if !x.conn.channel.isWriting && x.conn.outputBuffer.readableBytes == 0 then
    x.directWrite data result else (x, 0, false)) = attempt at direct
  refine Raises.bind (cassert_other (by decide)) fun _ _ => ?_
  exact Raises.ite (fun _ => queueRest_other (direct _ rfl) _) fun _ => Raises.ok _

theorem drained_other (registered : x.IsRegistered) : Raises OtherFault x.drained := by
  rw [drained, onChannel_disableWriting registered]
  exact Raises.ok _

theorem handleWrite_other (registered : x.IsRegistered) (result : WriteResult) :
    Raises OtherFault (x.handleWrite result) := by
  refine Raises.ite (fun _ => ?_) fun _ => Raises.ok _
  refine Raises.bind (Buffer.writeFd_other _ _) fun ⟨n, taken, outputBuffer⟩ _ => ?_
  have moved : ((x.withOutput outputBuffer).emit (.wrote taken)).IsRegistered := registered
  refine Raises.ite (fun _ => ?_) fun _ => Raises.ok _
  exact Raises.ite (fun _ => drained_other moved) fun _ => Raises.ok _

theorem onChannel_remove_other (x : Session) :
    Raises OtherFault (x.onChannel Channel.remove) := by
  refine Raises.bind ?_ fun _ _ => Raises.ok _
  refine Raises.bind (cassert_other (by decide)) fun _ _ => ?_
  refine Raises.bind (cassert_other (by decide)) fun _ _ => ?_
  refine Raises.bind ?_ fun _ _ => Raises.ok _
  refine Raises.bind (cassert_other (by decide)) fun _ _ => ?_
  exact Raises.bind (cassert_other (by decide)) fun _ _ => Raises.ok _

theorem connectDestoryed_other (registered : x.IsRegistered) :
    Raises OtherFault x.connectDestoryed := by
  have still : (x.setState .kDisconnected).IsRegistered := registered
  refine Raises.ite (fun _ => ?_) fun _ => ?_
  · rw [onChannel_disableAll still]
    exact onChannel_remove_other _
  · exact onChannel_remove_other x

end Session

/-! ### Reads -/

/-- `read_fd` returns the number of bytes that `readv` stored, and 0 only at the end of the
stream. -/
theorem Buffer.readFd_received {b after : Buffer} {bytes : List UInt8} {n : Int}
    (ok : b.readFd (.received bytes) = .ok (n, after)) : 0 ≤ n ∧ (n = 0 ↔ bytes = []) := by
  obtain ⟨_, _, ok⟩ := bind_ok_iff.mp ok
  obtain ⟨⟨m, c⟩, received, ok⟩ := bind_ok_iff.mp ok
  obtain ⟨_, _, ok⟩ := bind_ok_iff.mp ok
  cases ok
  obtain ⟨filled, _, received⟩ := bind_ok_iff.mp received
  have counted : n = (bytes.take (b.writableBytes + kExtraSize)).length := by
    simp only at received
    split at received
    · cases received
      rfl
    · obtain ⟨_, _, received⟩ := bind_ok_iff.mp received
      cases received
      rfl
  -- `extrabuf` alone has room for a byte.
  have room : b.writableBytes + kExtraSize ≠ 0 := by
    unfold kExtraSize
    omega
  rw [counted]
  refine ⟨Int.natCast_nonneg _, ?_⟩
  rw [Int.natCast_eq_zero, List.length_eq_zero_iff, List.take_eq_nil_iff, or_iff_right room]

theorem Buffer.readFd_failed {b after : Buffer} {errno : Nat} {n : Int}
    (ok : b.readFd (.failed errno) = .ok (n, after)) : n = -1 := by
  obtain ⟨_, _, ok⟩ := bind_ok_iff.mp ok
  obtain ⟨⟨m, c⟩, received, ok⟩ := bind_ok_iff.mp ok
  obtain ⟨_, _, ok⟩ := bind_ok_iff.mp ok
  cases received
  cases ok
  rfl

namespace Session

variable {x y : Session}

/-- A read fails in `read_fd`, or in the close at the end of the stream. -/
theorem handleRead_error {read : ReadResult} {f : Fault} (failed : x.handleRead read = .error f) :
    OtherFault f ∨ ∃ inputBuffer, x.conn.inputBuffer.readFd read = .ok (0, inputBuffer) ∧
      (x.withInput inputBuffer).handleClose = .error f := by
  rcases bind_error_iff.mp failed with early | ⟨⟨n, inputBuffer⟩, taken, late⟩
  · exact .inl (Buffer.readFd_other _ _ f early)
  · right
    simp only at late
    split at late
    · cases late
    · split at late
      next ended =>
        subst ended
        exact ⟨inputBuffer, taken, late⟩
      next => cases late

end Session

/-! ### Order of the callbacks -/

namespace Life

theorem MessagesBeforeDown.append {trace effects : List Effect} (ordered : MessagesBeforeDown trace)
    (quiet : .messageCallback ∉ effects) : MessagesBeforeDown (trace ++ effects) := by
  refine List.pairwise_append.mpr ⟨ordered, ?_, ?_⟩
  · apply List.pairwise_of_forall_mem_list
    rintro _ _ later member - rfl
    exact quiet member
  · rintro _ _ later member - rfl
    exact quiet member

theorem messagesBeforeDown_of_up {trace : List Effect} (up : .connectionCallback false ∉ trace) :
    MessagesBeforeDown trace := by
  apply List.pairwise_of_forall_mem_list
  rintro _ member _ _ rfl
  exact absurd member up

/-- A message after the down callback. -/
theorem not_messagesBeforeDown {trace : List Effect} (down : .connectionCallback false ∈ trace) :
    ¬MessagesBeforeDown (trace ++ [.messageCallback]) := by
  intro ordered
  have apart := (List.pairwise_append.mp ordered).2.2 _ down _ (List.mem_singleton_self _)
  exact apart rfl rfl

end Life

theorem callbacks_nodup (revents : Mask) : (Channel.callbacks revents).Nodup := by
  unfold Channel.callbacks
  split <;> split <;> split <;> split <;> decide

/-- The close comes first, if the mask hangs the connection up. -/
theorem callbacks_head (revents : Mask) :
    (.close ∈ Channel.callbacks revents ↔ hungUp revents = true) ∧
      (hungUp revents = true → (Channel.callbacks revents).head? = some .close) := by
  unfold Channel.callbacks hungUp
  by_cases hung : (revents.has EPOLLHUP && !revents.has EPOLLIN) = true
  · simp [hung]
  · rw [if_neg hung]
    constructor
    · split <;> split <;> split <;> simp [hung]
    · exact fun hangs => absurd hangs hung

/-! ### The invariant -/

namespace Life

/-- Open: nothing but the close may come first in a dispatch that hangs the connection up. -/
structure IsOpen (s : Life) : Prop where
  shape : Stage.open.Shape s.session.conn
  closes : s.closes = 0
  up : .connectionCallback false ∉ s.session.trace
  first : hungUp s.revents = true → s.todo = [] ∨ s.todo.head? = some .close

/-- Closed, maybe in the middle of a dispatch. -/
structure IsClosed (s : Life) : Prop where
  shape : Stage.closed.Shape s.session.conn
  closes : s.closes = 1
  down : .connectionCallback false ∈ s.session.trace ↔
    s.session.conn.hasConnectionCallback = true
  spent : .close ∉ s.todo
  late : .read ∈ s.todo → hungUp s.revents = true

/-- Removed from the poller. -/
structure IsGone (s : Life) : Prop where
  shape : Stage.gone.Shape s.session.conn
  closes : s.closes ≤ 1
  idle : s.todo = []

structure Inv (s : Life) : Prop where
  registered : s.session.IsRegistered
  nodup : s.todo.Nodup
  hangup : .close ∈ s.todo → hungUp s.revents = true
  counted : s.session.trace.count .closeCallback =
    if s.session.conn.hasCloseCallback then s.closes else 0
  ordered : MessagesBeforeDown s.session.trace
  placed : s.IsOpen ∨ s.IsClosed ∨ s.IsGone

/-- An open connection that has come to another callback than the close is not hung up. -/
theorem IsOpen.not_hungUp {s : Life} {callback : Channel.Callback} {rest : List Channel.Callback}
    (opened : s.IsOpen) (todo : s.todo = callback :: rest) (other : callback ≠ .close) :
    ¬hungUp s.revents = true := by
  intro hung
  rcases opened.first hung with done | close
  · simp [todo] at done
  · simp only [todo, List.head?_cons, Option.some.injEq] at close
    exact other close

theorem Inv.closes_le {s : Life} (inv : Inv s) : s.closes ≤ 1 := by
  rcases inv.placed with opened | closed | gone
  · simp [opened.closes]
  · simp [closed.closes]
  · exact gone.closes

/-- A connection with callbacks to come is open or closed. -/
theorem Inv.not_gone {s : Life} {callback : Channel.Callback} {rest : List Channel.Callback}
    (inv : Inv s) (todo : s.todo = callback :: rest) : s.IsOpen ∨ s.IsClosed := by
  rcases inv.placed with opened | closed | gone
  · exact .inl opened
  · exact .inr closed
  · have idle := gone.idle
    rw [todo] at idle
    cases idle

/-! ### Steps that stay at their stage -/

/-- A step of a session that keeps its stage and calls no callback. -/
structure QuietStep (x y : Session) : Prop extends NeutralStep x y where
  output : ∃ effects, y.trace = x.trace ++ effects ∧ ∀ e ∈ effects, e.IsOutput

theorem QuietStep.withInput {x : Session} (registered : x.IsRegistered) (inputBuffer : Buffer) :
    QuietStep x (x.withInput inputBuffer) :=
  ⟨Session.withInput_neutral registered inputBuffer, [], by simp [Session.withInput], by simp⟩

theorem QuietStep.user {x y : Session} (registered : x.IsRegistered) {c : Call} (user : c.IsUser)
    (ok : c.step x = .ok y) : QuietStep x y := by
  cases c with
  | send data result =>
    exact ⟨Session.send_neutral registered ok, (Session.send_output registered ok).output⟩
  | shutdown =>
    cases ok
    refine ⟨Session.shutdown_neutral registered, ?_⟩
    unfold Session.shutdown
    split
    · have half : (x.setState .kDisconnecting).IsRegistered := registered
      exact (Session.shutdownInLoop_output half).output
    · exact (OutputStep.refl registered).output
  | retrieveInput len =>
    obtain ⟨inputBuffer, _, ok⟩ := bind_ok_iff.mp ok
    cases ok
    exact QuietStep.withInput registered inputBuffer
  | _ => cases user

theorem QuietStep.handleWrite {x y : Session} (registered : x.IsRegistered) {write : WriteResult}
    (ok : x.handleWrite write = .ok y) : QuietStep x y :=
  ⟨Session.handleWrite_neutral registered ok, (Session.handleWrite_output registered ok).output⟩

namespace Inv

variable {s : Life} {y : Session} {callback : Channel.Callback} {rest : List Channel.Callback}

theorem quiet (inv : Inv s) (step : QuietStep s.session y) : Inv { s with session := y } := by
  obtain ⟨effects, trace_eq, output⟩ := step.output
  have silent : ∀ e, ¬e.IsOutput → e ∉ effects := fun e other member => other (output e member)
  refine ⟨step.registered, inv.nodup, inv.hangup, ?_, ?_, ?_⟩
  · have none_called : effects.count .closeCallback = 0 :=
      List.count_eq_zero.mpr (silent _ id)
    simp only [trace_eq, List.count_append, none_called, step.closeCallback, Nat.add_zero]
    exact inv.counted
  · simp only [trace_eq]
    exact inv.ordered.append (silent _ id)
  · rcases inv.placed with opened | closed | gone
    · refine .inl ⟨step.shape _ opened.shape, opened.closes, ?_, opened.first⟩
      simp only [trace_eq, List.mem_append, not_or]
      exact ⟨opened.up, silent _ id⟩
    · refine .inr (.inl ⟨step.shape _ closed.shape, closed.closes, ?_, closed.spent, closed.late⟩)
      have none_called : .connectionCallback false ∉ effects := silent _ id
      simp only [trace_eq, List.mem_append, none_called, or_false, step.connectionCallback]
      exact closed.down
    · exact .inr (.inr ⟨step.shape _ gone.shape, gone.closes, gone.idle⟩)

/-- A callback other than the close is taken off. -/
theorem tail (inv : Inv s) (todo : s.todo = callback :: rest) (other : callback ≠ .close) :
    Inv { s with todo := rest } := by
  have later : ∀ c, c ∈ rest → c ∈ s.todo := by simp +contextual [todo]
  have nodup := inv.nodup
  rw [todo] at nodup
  refine ⟨inv.registered, nodup.tail, fun close => inv.hangup (later _ close), inv.counted,
    inv.ordered, ?_⟩
  rcases inv.not_gone todo with opened | closed
  · exact .inl ⟨opened.shape, opened.closes, opened.up,
      fun hung => absurd hung (opened.not_hungUp todo other)⟩
  · exact .inr (.inl ⟨closed.shape, closed.closes, closed.down,
      fun close => closed.spent (later _ close), fun read => closed.late (later _ read)⟩)

/-! ### Steps from stage to stage -/

/-- An open connection is closed, and `rest` is what the dispatch has left. -/
theorem close (inv : Inv s) (opened : s.IsOpen) (nodup : rest.Nodup) (spent : .close ∉ rest)
    (late : .read ∈ rest → hungUp s.revents = true) (ok : s.session.handleClose = .ok y) :
    Inv ⟨y, s.revents, rest, s.closes + 1⟩ := by
  obtain ⟨conn_eq, registered, trace_eq⟩ := Session.handleClose_inv inv.registered ok
  have keeps := Session.handleClose_keeps inv.registered ok
  refine ⟨registered, nodup, fun close => absurd close spent, ?_, ?_,
    .inr (.inl ⟨?_, ?_, ?_, spent, late⟩)⟩
  · have none_before : s.session.trace.count .closeCallback = 0 := by
      rw [inv.counted, opened.closes, ite_self]
    simp only [trace_eq, List.count_append, none_before, keeps.closeCallback, opened.closes]
    split <;> split <;> rfl
  · simp only [trace_eq]
    apply inv.ordered.append
    split <;> split <;> simp
  · rw [conn_eq]
    exact Session.disconnected_shape opened.shape.2.2
  · rw [opened.closes]
  · simp only [trace_eq, keeps.connectionCallback, List.mem_append]
    have up := opened.up
    split <;> split <;> simp_all

/-- A message callback that the down callback has not preceded. -/
theorem message (inv : Inv s) (up : .connectionCallback false ∉ s.session.trace) :
    Inv { s with session := s.session.emit .messageCallback } := by
  refine ⟨inv.registered, inv.nodup, inv.hangup, ?_, ?_, ?_⟩
  · rw [Session.emit, List.count_append]
    exact inv.counted
  · apply messagesBeforeDown_of_up
    simpa [Session.emit] using up
  · rcases inv.placed with opened | closed | gone
    · refine .inl ⟨opened.shape, opened.closes, ?_, opened.first⟩
      simpa [Session.emit] using up
    · refine .inr (.inl ⟨closed.shape, closed.closes, ?_, closed.spent, closed.late⟩)
      simpa [Session.emit] using closed.down
    · exact .inr (.inr ⟨gone.shape, gone.closes, gone.idle⟩)

/-- Only an open connection is dispatched. -/
theorem dispatched (inv : Inv s) (added : s.session.conn.channel.index = .kAdded) (revents : Mask) :
    Inv { s with revents := revents, todo := Channel.callbacks revents } := by
  obtain ⟨close_iff, first⟩ := callbacks_head revents
  refine ⟨inv.registered, callbacks_nodup revents, close_iff.mp, inv.counted, inv.ordered, ?_⟩
  rcases inv.placed with opened | closed | gone
  · exact .inl ⟨opened.shape, opened.closes, opened.up, fun hung => .inr (first hung)⟩
  · have deleted := closed.shape.2.1
    rw [added] at deleted
    cases deleted
  · have new := gone.shape.2.1
    rw [added] at new
    cases new

theorem destroyed (inv : Inv s) (idle : s.todo = []) (ok : s.session.connectDestoryed = .ok y) :
    Inv { s with session := y } := by
  obtain ⟨met, _, y_eq⟩ := (Session.connectDestoryed_iff inv.registered).mp ok
  have keeps := Session.connectDestoryed_keeps inv.registered ok
  have shape : Stage.gone.Shape y.conn := by
    rw [y_eq]
    rcases inv.placed with opened | closed | gone
    · exact Session.destroyed_shape opened.shape met (by simp)
    · exact Session.destroyed_shape closed.shape met (by simp)
    · exact Session.destroyed_shape gone.shape met (by simp)
  -- At most the down callback is called on the way.
  obtain ⟨effects, trace_eq, down_only⟩ : ∃ effects, y.trace = s.session.trace ++ effects ∧
      ∀ e ∈ effects, e = .connectionCallback false := by
    rw [y_eq]
    split
    · refine ⟨_, s.session.disconnected_effects, ?_⟩
      split <;> simp
    · exact ⟨[], (List.append_nil _).symm, by simp⟩
  refine ⟨y_eq ▸ Session.removed_registered _, inv.nodup, inv.hangup, ?_, ?_,
    .inr (.inr ⟨shape, inv.closes_le, idle⟩)⟩
  · have none_called : effects.count .closeCallback = 0 := by
      apply List.count_eq_zero.mpr
      intro member
      cases down_only _ member
    simp only [trace_eq, List.count_append, none_called, keeps.closeCallback, Nat.add_zero]
    exact inv.counted
  · simp only [trace_eq]
    apply inv.ordered.append
    intro member
    cases down_only _ member

end Inv

/-! ### Callbacks -/

section

variable {s : Life} {y : Session} {callback : Channel.Callback} {rest : List Channel.Callback}
variable {read : ReadResult} {write : WriteResult} {n : Int} {inputBuffer : Buffer}

/-- A read behind a close is late by what `read_fd` returns. -/
theorem lateRead_iff (todo : s.todo = .read :: rest) (hung : hungUp s.revents = true)
    (taken : s.session.conn.inputBuffer.readFd read = .ok (n, inputBuffer)) :
    s.LateRead (.callback read write) ↔ n = 0 ∨ 0 < n ∧
      s.session.conn.hasMessageCallback = true ∧ s.session.conn.hasConnectionCallback = true := by
  cases read with
  | received bytes =>
    obtain ⟨nonneg, ended⟩ := Buffer.readFd_received taken
    simp only [LateRead, todo, List.head?_cons, hung, taken, Except.isOk, Except.toBool, true_and,
      ← ended]
    by_cases zero : n = 0
    · simp [zero]
    · have positive : 0 < n := by omega
      simp [zero, positive]
  | failed errno =>
    have negative := Buffer.readFd_failed taken
    subst negative
    simp [LateRead]

theorem LateRead.inv (late : s.LateRead (.callback read write)) :
    ∃ rest, s.todo = .read :: rest ∧ hungUp s.revents = true ∧
      ∃ n inputBuffer, s.session.conn.inputBuffer.readFd read = .ok (n, inputBuffer) := by
  cases read with
  | failed errno => cases late
  | received bytes =>
    obtain ⟨head, hung, passed, _⟩ := late
    obtain ⟨rest, todo⟩ := List.head?_eq_some_iff.mp head
    cases taken : s.session.conn.inputBuffer.readFd (.received bytes) with
    | error f => simp [taken, Except.isOk, Except.toBool] at passed
    | ok result => exact ⟨rest, todo, hung, result.1, result.2, rfl⟩

/-- The close callback finds the connection open. -/
theorem Inv.open_of_close (inv : Inv s) (todo : s.todo = .close :: rest) : s.IsOpen := by
  rcases inv.not_gone todo with opened | closed
  · exact opened
  · exact absurd (by simp [todo]) closed.spent

/-- So does the end of the stream, unless the read is late. -/
theorem Inv.open_of_end (inv : Inv s) (todo : s.todo = .read :: rest)
    (timely : ¬s.LateRead (.callback read write))
    (taken : s.session.conn.inputBuffer.readFd read = .ok (0, inputBuffer)) : s.IsOpen := by
  rcases inv.not_gone todo with opened | closed
  · exact opened
  · have hung := closed.late (by simp [todo])
    exact absurd ((lateRead_iff todo hung taken).mpr (.inl rfl)) timely

/-- No message callback is due after the down callback, unless the read is late. -/
theorem Inv.up_of_message (inv : Inv s) (todo : s.todo = .read :: rest)
    (timely : ¬s.LateRead (.callback read write))
    (taken : s.session.conn.inputBuffer.readFd read = .ok (n, inputBuffer)) (bytes : 0 < n)
    (called : s.session.conn.hasMessageCallback = true) :
    .connectionCallback false ∉ s.session.trace := by
  rcases inv.not_gone todo with opened | closed
  · exact opened.up
  · intro down
    have hung := closed.late (by simp [todo])
    exact timely ((lateRead_iff todo hung taken).mpr (.inr ⟨bytes, called, closed.down.mp down⟩))

theorem Inv.after_read (inv : Inv s) (todo : s.todo = .read :: rest)
    (timely : ¬s.LateRead (.callback read write)) (ok : s.session.handleRead read = .ok y) :
    Inv ⟨y, s.revents, rest, s.closes + closeCalls s.session read .read⟩ := by
  obtain ⟨n, inputBuffer, taken, outcome⟩ := Session.handleRead_inv ok
  have inv' := (inv.tail todo (by simp)).quiet (QuietStep.withInput inv.registered inputBuffer)
  simp only [closeCalls, taken]
  rcases outcome with ⟨bytes, rfl⟩ | ⟨rfl, closed⟩ | ⟨negative, rfl⟩
  · have nonzero : n ≠ 0 := by omega
    rw [if_neg nonzero]
    split
    next called => exact inv'.message (inv.up_of_message todo timely taken bytes called)
    next => exact inv'
  · -- The end of the stream is a close, and nothing of the dispatch can close or read again.
    have opened := inv.open_of_end todo timely taken
    have calm := opened.not_hungUp todo (by simp)
    have nodup := inv.nodup
    rw [todo, List.nodup_cons] at nodup
    refine inv'.close ⟨opened.shape, opened.closes, opened.up, fun hung => absurd hung calm⟩
      nodup.2 ?_ (fun again => absurd again nodup.1) closed
    intro close
    exact calm (inv.hangup (by simp [todo, close]))
  · have nonzero : n ≠ 0 := by omega
    rw [if_neg nonzero]
    exact inv'

theorem Inv.after_callback (inv : Inv s) (todo : s.todo = callback :: rest)
    (timely : ¬s.LateRead (.callback read write))
    (ok : handler s.session read write callback = .ok y) :
    Inv ⟨y, s.revents, rest, s.closes + closeCalls s.session read callback⟩ := by
  cases callback with
  | close =>
    have nodup := inv.nodup
    rw [todo, List.nodup_cons] at nodup
    exact inv.close (inv.open_of_close todo) nodup.2 nodup.1
      (fun _ => inv.hangup (by simp [todo])) ok
  | error =>
    cases ok
    exact inv.tail todo (by simp)
  | read => exact inv.after_read todo timely ok
  | write =>
    have inv' := inv.tail todo (by simp)
    exact inv'.quiet (QuietStep.handleWrite inv.registered ok)

/-- The assertion of `handle_close` holds in every callback that is not a late read. -/
theorem Inv.handler_other (inv : Inv s) (todo : s.todo = callback :: rest)
    (timely : ¬s.LateRead (.callback read write)) :
    Raises OtherFault (handler s.session read write callback) := by
  cases callback with
  | close =>
    have opened := inv.open_of_close todo
    rw [handler, Session.handleClose_eq inv.registered opened.shape.1]
    exact Raises.ok _
  | error => exact Raises.ok _
  | read =>
    intro f failed
    rcases Session.handleRead_error failed with other | ⟨inputBuffer, taken, closed⟩
    · exact other
    · have opened := inv.open_of_end todo timely taken
      have still : (s.session.withInput inputBuffer).IsRegistered := inv.registered
      rw [Session.handleClose_eq still opened.shape.1] at closed
      cases closed
  | write => exact Session.handleWrite_other inv.registered write

end

/-! ### Runs -/

/-- **Step lemma**: a step that is no late read keeps the invariant. -/
theorem step_inv {s t : Life} {l : Label} (inv : Inv s) (timely : ¬s.LateRead l)
    (taken : s.step l = .ok t) : Inv t := by
  cases l with
  | dispatch revents =>
    obtain ⟨_, delivered, taken⟩ := bind_ok_iff.mp taken
    cases taken
    obtain ⟨_, added, _⟩ := require_ok_iff.mp delivered
    exact inv.dispatched added revents
  | callback read write =>
    cases todo : s.todo with
    | nil =>
      simp only [step, todo] at taken
      cases taken
    | cons callback rest =>
      simp only [step, todo] at taken
      obtain ⟨y, ok, taken⟩ := bind_ok_iff.mp taken
      cases taken
      exact inv.after_callback todo timely ok
  | user c =>
    obtain ⟨_, user, taken⟩ := bind_ok_iff.mp taken
    obtain ⟨y, ok, taken⟩ := bind_ok_iff.mp taken
    cases taken
    exact inv.quiet (QuietStep.user inv.registered (require_ok_iff.mp user) ok)
  | connectDestoryed =>
    obtain ⟨_, idle, taken⟩ := bind_ok_iff.mp taken
    obtain ⟨y, ok, taken⟩ := bind_ok_iff.mp taken
    cases taken
    exact inv.destroyed (require_ok_iff.mp idle) ok

theorem user_other {x : Session} (registered : x.IsRegistered) {c : Call} (user : c.IsUser) :
    Raises OtherFault (c.step x) := by
  cases c with
  | send data result => exact Session.send_other registered data result
  | shutdown => exact Raises.ok _
  | retrieveInput len => exact Raises.bind (Buffer.retrieve_other _ _) fun _ _ => Raises.ok _
  | _ => cases user

/-- Nor does it fail the assertion of `handle_close`. -/
theorem step_other {s : Life} {l : Label} (inv : Inv s) (timely : ¬s.LateRead l) :
    Raises OtherFault (s.step l) := by
  have disabled : OtherFault .disabled := by simp [OtherFault]
  cases l with
  | dispatch revents => exact Raises.bind (Raises.require disabled) fun _ _ => Raises.ok _
  | callback read write =>
    cases todo : s.todo with
    | nil =>
      simp only [step, todo]
      rintro f ⟨⟩
      exact disabled
    | cons callback rest =>
      simp only [step, todo]
      exact Raises.bind (inv.handler_other todo timely) fun _ _ => Raises.ok _
  | user c =>
    refine Raises.bind (Raises.require disabled) fun _ user => ?_
    exact Raises.bind (user_other inv.registered (require_ok_iff.mp user)) fun _ _ => Raises.ok _
  | connectDestoryed =>
    refine Raises.bind (Raises.require disabled) fun _ _ => ?_
    exact Raises.bind (Session.connectDestoryed_other inv.registered) fun _ _ => Raises.ok _

theorem Inv.closedOnce {s : Life} {l : Label} (inv : Inv s) (timely : ¬s.LateRead l) :
    s.ClosedOnce l := by
  unfold ClosedOnce
  cases taken : s.step l with
  | error f => exact step_other inv timely f taken
  | ok t =>
    have inv' := step_inv inv timely taken
    exact ⟨inv'.closes_le, inv'.counted, inv'.ordered⟩

/-- A late read enters `handle_close` again, or calls the message callback after the down
callback. -/
theorem Inv.not_closedOnce {s : Life} {l : Label} (inv : Inv s) (late : s.LateRead l) :
    ¬s.ClosedOnce l := by
  obtain ⟨read, write, rfl⟩ : ∃ read write, l = .callback read write := by
    cases l with
    | callback read write => exact ⟨read, write, rfl⟩
    | _ => cases late
  obtain ⟨rest, todo, hung, n, inputBuffer, taken⟩ := late.inv
  -- The close was first in this dispatch, so the connection is closed.
  rcases inv.not_gone todo with opened | closed
  · exact absurd hung (opened.not_hungUp todo (by simp))
  · rcases (lateRead_iff todo hung taken).mp late with rfl | ⟨bytes, called, flag⟩
    · have failed : s.session.handleRead read = .error (.assertion .closable) := by
        have state : s.session.conn.state = .kDisconnected := closed.shape.1
        simp [Session.handleRead, taken, Session.handleClose, Session.withInput, state, cassert,
          require]
      simp [ClosedOnce, step, todo, handler, failed]
    · have passed : s.session.handleRead read =
          .ok ((s.session.withInput inputBuffer).emit .messageCallback) := by
        simp [Session.handleRead, taken, bytes, Session.withInput, called]
      have disorder := not_messagesBeforeDown (closed.down.mpr flag)
      simp [ClosedOnce, step, todo, handler, passed, Session.emit, Session.withInput, disorder]

theorem start_inv {x : Session} (fresh : x.Established) : Inv (start x) := by
  obtain ⟨id, sockfd, up, message, complete, close, loop, unmapped, unpolled, ok⟩ := fresh
  have registered : Session.IsRegistered
      ⟨.accepted id sockfd up message complete close, loop, []⟩ := ⟨unmapped, unpolled⟩
  rw [Session.connectEstablished_eq registered rfl] at ok
  cases ok
  -- The up callback is all there is so far.
  have quiet : ∀ e, e ≠ .connectionCallback true → e ∉ (Session.established
      ⟨.accepted id sockfd up message complete close, loop, []⟩).trace := by
    intro e other
    rw [Session.established, Session.connectionCallback_trace]
    split
    · simpa [Session.withEvents] using other
    · simp [Session.withEvents]
  refine ⟨Session.established_registered _, List.nodup_nil, by simp [start], ?_, ?_, .inl ?_⟩
  · rw [start, List.count_eq_zero.mpr (quiet _ (by simp)), ite_self]
  · exact messagesBeforeDown_of_up (quiet _ (by simp))
  · exact ⟨Session.established_shape, rfl, quiet _ (by simp), fun _ => .inl rfl⟩

/-- **Closed once**: whatever the masks of its dispatches and the results of its system calls, a
connection enters `handle_close` at most once, and calls no message callback after the down
callback, exactly in the runs without a late read. -/
theorem closed_once_iff {x : Session} (fresh : x.Established) (labels : List Label) :
    Along step ClosedOnce (start x) labels ↔
      Along step (fun s l => ¬s.LateRead l) (start x) labels := by
  -- A step meets the one condition exactly if it meets the other.
  have agree : ∀ s l, Inv s → (s.ClosedOnce l ↔ ¬s.LateRead l) := by
    intro s l inv
    constructor
    · exact fun met late => inv.not_closedOnce late met
    · exact inv.closedOnce
  refine along_iff Inv ?_ agree (start_inv fresh) labels
  intro s l t inv met taken
  exact step_inv inv ((agree s l inv).mp met) taken

/-- A message and its answer, urgent data while the answer waits, the end of the stream with a
hang-up, and the destruction of the connection. -/
def sampleLife : List Label :=
  [.dispatch EPOLLIN, .callback (.received [1, 2]) (.failed EWOULDBLOCK),
    .user (.retrieveInput 2), .user (.send [3, 4] (.wrote 1)),
    .dispatch (EPOLLPRI ||| EPOLLOUT), .callback (.failed EWOULDBLOCK) (.failed EWOULDBLOCK),
    .callback (.received []) (.wrote 1),
    .dispatch (EPOLLIN ||| EPOLLHUP), .callback (.received []) (.failed EPIPE), .connectDestoryed]

theorem sampleLife_closed_once :
    ((run step (start Call.sampleSession) sampleLife).toOption.any fun s => s.closes == 1) = true ∧
      Along step ClosedOnce (start Call.sampleSession) sampleLife := by
  constructor
  · decide +kernel
  · exact (closed_once_iff Call.sampleSession_established sampleLife).mpr (by decide +kernel)

/-- `EPOLLHUP` with `EPOLLPRI` calls the close callback and then the read callback. At the end of
the stream the read closes the connection again; with a byte of input it calls the message
callback after the down callback. -/
theorem hangup_with_urgent_data :
    ¬Along step ClosedOnce (start Call.sampleSession)
      [.dispatch (EPOLLHUP ||| EPOLLPRI), .callback (.received []) (.failed EPIPE),
        .callback (.received []) (.failed EPIPE)] ∧
    ¬Along step ClosedOnce (start Call.sampleSession)
      [.dispatch (EPOLLHUP ||| EPOLLPRI), .callback (.received []) (.failed EPIPE),
        .callback (.received [1]) (.failed EPIPE)] := by
  decide +kernel

end Life

end Clia.Net
