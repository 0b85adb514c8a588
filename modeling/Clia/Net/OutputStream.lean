import Clia.Net.TcpConnection
import Clia.Library.LabelledRun

/-!
# The output stream of a connection

Bytes reach the kernel from `send_in_loop` directly or from `output_buffer_` in `handle_write`.
The two hand over through the write interest of the channel: it is set exactly while the buffer
holds bytes. `OutputInv` states this together with the conservation of the bytes, and every
output step preserves it at any partial write.
-/

namespace Clia.Net

open Reactor LabelledRun

/-- The bytes of a trace that the kernel accepted. -/
def written (trace : List Effect) : List UInt8 :=
  trace.flatMap fun
    | .wrote bytes => bytes
    | _ => []

@[simp] theorem written_nil : written [] = [] := rfl

@[simp] theorem written_append (xs ys : List Effect) :
    written (xs ++ ys) = written xs ++ written ys := List.flatMap_append

@[simp] theorem written_wrote (bytes : List UInt8) (trace : List Effect) :
    written (.wrote bytes :: trace) = bytes ++ written trace := rfl

@[simp] theorem written_shutdownWrite (trace : List Effect) :
    written (.shutdownWrite :: trace) = written trace := rfl

/-- Between output steps: no byte of `payload` is lost, and write interest marks exactly the
bytes that still wait. -/
structure OutputInv (x : Session) (payload : List UInt8) : Prop where
  buffer : x.conn.outputBuffer.Inv
  registered : x.IsRegistered
  integrity : written x.trace ++ x.conn.outputBuffer.readable = payload
  interest : x.conn.channel.isWriting = true ↔ x.conn.outputBuffer.readable ≠ []

/-- What a write leaves of the bytes it is offered. -/
def WriteResult.leaves (offered : List UInt8) : WriteResult → List UInt8
  | .wrote n => offered.drop n
  | .failed _ => offered

namespace Session

/-! ### `send_in_loop` -/

/-- `send_in_loop` tries a `::write` of its own: no write interest, and nothing waits. -/
def Direct (x : Session) : Prop :=
  x.conn.channel.isWriting = false ∧ x.conn.outputBuffer.readableBytes = 0

instance (x : Session) : Decidable x.Direct := by
  unfold Direct
  infer_instance

/-- What a `send_in_loop` has done whose direct write took the first `k` bytes. -/
structure Sent (x y : Session) (data : List UInt8) (k : Nat) : Prop where
  bound : k ≤ data.length
  direct : 0 < k → x.Direct
  trace : ∃ effects, y.trace = x.trace ++ effects ∧ written effects = data.take k ∧
    .shutdownWrite ∉ effects
  buffer : y.conn.outputBuffer.Inv
  registered : y.IsRegistered
  state : y.conn.state = x.conn.state
  notifies : y.conn.hasWriteCompleteCallback = x.conn.hasWriteCompleteCallback
  readable : y.conn.outputBuffer.readable = x.conn.outputBuffer.readable ++ data.drop k
  interest : y.conn.channel.isWriting = (x.conn.channel.isWriting || decide (k < data.length))
  functors : 0 < data.length → y.loop.pendingFunctors = x.loop.pendingFunctors ++
    (if k = data.length ∧ x.conn.hasWriteCompleteCallback = true then
      [.writeComplete x.conn.id] else [])

/-- What the direct write leaves: it changes neither connection nor poller, and reports the
length of the prefix it took. -/
private theorem directWrite_spec (x : Session) (data : List UInt8) {result : WriteResult}
    (benign : result.Benign) :
    ∃ y n effects, x.directWrite data result = (y, n, false) ∧ y.conn = x.conn ∧
      y.loop.poller = x.loop.poller ∧ y.trace = x.trace ++ effects ∧
      written effects = data.take n ∧ .shutdownWrite ∉ effects ∧ n ≤ data.length ∧
      (0 < data.length → y.loop.pendingFunctors = x.loop.pendingFunctors ++
        (if n = data.length ∧ x.conn.hasWriteCompleteCallback = true then
          [.writeComplete x.conn.id] else [])) := by
  cases result with
  | failed errno =>
    -- A benign failure is `EWOULDBLOCK`, for which nothing is given up.
    cases benign
    refine ⟨x, 0, [], rfl, rfl, rfl, (List.append_nil _).symm, rfl, by simp, Nat.zero_le _, ?_⟩
    intro positive
    rw [if_neg (by omega), List.append_nil]
  | wrote n =>
    have taken : data.take (data.take n).length = data.take n := by
      rw [List.length_take]
      rcases Nat.le_total n data.length with some_left | all
      · rw [Nat.min_eq_left some_left]
      · rw [Nat.min_eq_right all, List.take_length, List.take_of_length_le all]
    have bound : (data.take n).length ≤ data.length := by
      rw [List.length_take]
      exact Nat.min_le_right _ _
    simp only [directWrite]
    split
    next complete =>
      -- All is out, and the user is told through the functor queue.
      refine ⟨_, _, [.wrote (data.take n)], rfl, rfl, rfl, rfl, by simp, by simp, bound, ?_⟩
      intro _
      rw [if_pos ⟨by omega, complete.2⟩]
      rfl
    next incomplete =>
      refine ⟨_, _, [.wrote (data.take n)], rfl, rfl, rfl, rfl, by simp, by simp, bound, ?_⟩
      intro _
      rw [if_neg (fun all => incomplete ⟨by omega, all.2⟩), List.append_nil]
      rfl

/-- Queueing a non-empty rest sets the write interest, if it is not set already. -/
private theorem queueRest_spec {x : Session} (buffer : x.conn.outputBuffer.Inv)
    (registered : x.IsRegistered) (rest : List UInt8) :
    ∃ y, x.queueRest rest = .ok y ∧ y.conn.outputBuffer.Inv ∧ y.IsRegistered ∧
      y.conn.channel.isWriting = true ∧ y.trace = x.trace ∧
      y.conn.outputBuffer.readable = x.conn.outputBuffer.readable ++ rest ∧
      y.conn.state = x.conn.state ∧
      y.conn.hasWriteCompleteCallback = x.conn.hasWriteCompleteCallback ∧
      y.loop.pendingFunctors = x.loop.pendingFunctors := by
  obtain ⟨after, appended, inv, readable_eq⟩ := Buffer.append_spec buffer rest
  have still : (x.withOutput after).IsRegistered := registered
  by_cases writing : x.conn.channel.isWriting = true
  · -- Earlier bytes wait already, so the interest is set.
    refine ⟨x.withOutput after, ?_, inv, still, writing, rfl, readable_eq, rfl, rfl, rfl⟩
    simp [queueRest, appended, withOutput, writing]
  · refine ⟨(x.withOutput after).withEvents fun events => events ||| kWriteEvent, ?_, inv,
      withEvents_registered _ _, ?_, rfl, readable_eq, rfl, rfl, rfl⟩
    · simp only [queueRest, appended, Checked.ok_bind]
      rw [if_pos (by simpa [withOutput] using writing), onChannel_enableWriting still]
    · rw [withEvents_isWriting, has_write_or_write]

/-- Unless the direct write fails for good, `send_in_loop` returns, and what the direct write has
not taken is behind the other bytes in the buffer. -/
theorem sendInLoop_sent {x : Session} (buffer : x.conn.outputBuffer.Inv)
    (registered : x.IsRegistered) (alive : x.conn.state ≠ .kDisconnected) (data : List UInt8)
    {result : WriteResult} (benign : x.Direct → result.Benign) :
    ∃ y k, x.sendInLoop data result = .ok y ∧ Sent x y data k := by
  simp only [sendInLoop, if_neg alive]
  by_cases direct : x.Direct
  · -- The fast path: nothing waits, so the direct write continues the stream.
    obtain ⟨y, n, effects, wrote, same_conn, same_poller, trace_eq, written_eq, no_shut, bound,
      functors⟩ := directWrite_spec x data (benign direct)
    have y_registered : y.IsRegistered := by
      simp only [IsRegistered, self, same_conn, same_poller]
      exact registered
    rw [if_pos (by simp [direct.1, direct.2]), wrote]
    simp only [cassert_pos _ (Nat.sub_le data.length n), Checked.ok_bind, Bool.not_false,
      Bool.true_and, decide_eq_true_eq]
    by_cases left : data.length - n > 0
    · -- A partial write: the rest is the first thing in the buffer.
      obtain ⟨z, queued, z_buffer, z_registered, writing, z_trace, z_readable, z_state, z_notifies,
        z_functors⟩ := queueRest_spec (same_conn ▸ buffer) y_registered (data.drop n)
      refine ⟨z, n, by rw [if_pos left, queued], ?_⟩
      constructor
      · exact bound
      · exact fun _ => direct
      · exact ⟨effects, by rw [z_trace, trace_eq], written_eq, no_shut⟩
      · exact z_buffer
      · exact z_registered
      · rw [z_state, same_conn]
      · rw [z_notifies, same_conn]
      · rw [z_readable, same_conn]
      · rw [writing, decide_eq_true (by omega), Bool.or_true]
      · intro positive
        rw [z_functors, functors positive]
    · -- The kernel took the whole payload.
      have none : data.drop n = [] := List.drop_of_length_le (by omega)
      refine ⟨y, n, by rw [if_neg left]; rfl, ?_⟩
      constructor
      · exact bound
      · exact fun _ => direct
      · exact ⟨effects, trace_eq, written_eq, no_shut⟩
      · exact same_conn ▸ buffer
      · exact y_registered
      · rw [same_conn]
      · rw [same_conn]
      · rw [same_conn, none, List.append_nil]
      · rw [same_conn, decide_eq_false (by omega), Bool.or_false]
      · exact functors
  · -- Bytes wait already: the payload goes behind them.
    have busy : ¬(!x.conn.channel.isWriting && x.conn.outputBuffer.readableBytes == 0) = true := by
      simpa [Direct] using direct
    rw [if_neg busy]
    simp only [cassert_pos _ (Nat.sub_le data.length 0), Checked.ok_bind, Bool.not_false,
      Bool.true_and, decide_eq_true_eq, List.drop_zero]
    by_cases left : data.length - 0 > 0
    · obtain ⟨z, queued, z_buffer, z_registered, writing, z_trace, z_readable, z_state, z_notifies,
        z_functors⟩ := queueRest_spec buffer registered data
      refine ⟨z, 0, by rw [if_pos left, queued], ?_⟩
      constructor
      · exact Nat.zero_le _
      · exact fun positive => absurd positive (Nat.lt_irrefl 0)
      · exact ⟨[], by rw [z_trace, List.append_nil], rfl, by simp⟩
      · exact z_buffer
      · exact z_registered
      · exact z_state
      · exact z_notifies
      · exact z_readable
      · rw [writing, decide_eq_true (by omega), Bool.or_true]
      · intro positive
        rw [z_functors, if_neg (by omega), List.append_nil]
    · -- An empty payload leaves all as it is.
      have none : data = [] := List.eq_nil_of_length_eq_zero (by omega)
      refine ⟨x, 0, by rw [if_neg left]; rfl, ?_⟩
      constructor
      · exact Nat.zero_le _
      · exact fun positive => absurd positive (Nat.lt_irrefl 0)
      · exact ⟨[], (List.append_nil _).symm, rfl, by simp⟩
      · exact buffer
      · exact registered
      · rfl
      · rfl
      · simp [none]
      · simp [none]
      · intro positive
        omega

/-- The payload is behind the stream so far, in the kernel or in the buffer. -/
theorem Sent.outputInv {x y : Session} {payload data : List UInt8} {k : Nat} (sent : Sent x y data k)
    (inv : OutputInv x payload) : OutputInv y (payload ++ data) := by
  obtain ⟨effects, trace_eq, written_eq, _⟩ := sent.trace
  refine ⟨sent.buffer, sent.registered, ?_, ?_⟩
  · rw [trace_eq, written_append, written_eq, sent.readable, ← inv.integrity]
    rcases Nat.eq_zero_or_pos k with rfl | positive
    · simp
    · -- The kernel took bytes of the payload only because none waited before them.
      have empty := inv.buffer.readable_eq_nil_iff.mpr (sent.direct positive).2
      rw [empty, List.append_nil, List.nil_append, List.append_assoc, List.take_append_drop]
  · rw [sent.interest, sent.readable, Bool.or_eq_true, decide_eq_true_eq, inv.interest]
    rw [ne_eq, ne_eq, List.append_eq_nil_iff, List.drop_eq_nil_iff, not_and_or, Nat.not_le]

/-- **Step lemma for `send_in_loop`**: it adds its payload to the stream. -/
theorem sendInLoop_spec {x : Session} {payload : List UInt8} (inv : OutputInv x payload)
    (alive : x.conn.state ≠ .kDisconnected) (data : List UInt8) {result : WriteResult}
    (benign : result.Benign) :
    ∃ y effects, x.sendInLoop data result = .ok y ∧ OutputInv y (payload ++ data) ∧
      y.conn.state = x.conn.state ∧ y.trace = x.trace ++ effects ∧
      .shutdownWrite ∉ effects := by
  obtain ⟨y, k, ok, sent⟩ :=
    sendInLoop_sent inv.buffer inv.registered alive data (fun _ => benign)
  obtain ⟨effects, trace_eq, _, no_shut⟩ := sent.trace
  exact ⟨y, effects, ok, sent.outputInv inv, sent.state, trace_eq, no_shut⟩

/-- An empty payload adds nothing, however its `::write` ends. -/
theorem sendInLoop_nil_spec {x : Session} {payload : List UInt8} (inv : OutputInv x payload)
    (alive : x.conn.state ≠ .kDisconnected) (result : WriteResult) :
    ∃ y effects, x.sendInLoop [] result = .ok y ∧ OutputInv y payload ∧
      y.conn.state = x.conn.state ∧ y.trace = x.trace ++ effects ∧
      .shutdownWrite ∉ effects := by
  by_cases benign : result.Benign
  · simpa using sendInLoop_spec inv alive [] benign
  · -- A hard error gives up the rest, which is empty.
    refine ⟨x, [], ?_, inv, rfl, by simp, by simp⟩
    cases result with
    | wrote n => exact absurd trivial benign
    | failed errno =>
      simp only [sendInLoop, if_neg alive, directWrite]
      split <;> simp [cassert, Checked.require]

/-! ### `handle_write` -/

/-- Once the buffer is empty the interest goes, and a pending shutdown is carried out. -/
private theorem drained_spec {x : Session} (registered : x.IsRegistered) :
    ∃ y, x.drained = .ok y ∧ y.IsRegistered ∧ y.conn.channel.isWriting = false ∧
      y.conn.outputBuffer = x.conn.outputBuffer ∧ y.conn.state = x.conn.state ∧
      y.trace = x.trace ++ (if x.conn.state = .kDisconnecting then [.shutdownWrite] else []) := by
  have quiet : (x.withEvents fun events => events &&& ~~~kWriteEvent).conn.channel.isWriting =
      false := by
    rw [withEvents_isWriting, has_write_andNot_write]
  simp only [drained, onChannel_disableWriting registered, Checked.ok_bind, Checked.pure_eq_ok]
  have y_registered := withEvents_registered x fun events => events &&& ~~~kWriteEvent
  have y_state := withEvents_state x fun events => events &&& ~~~kWriteEvent
  have y_buffer := withEvents_outputBuffer x fun events => events &&& ~~~kWriteEvent
  have y_trace := withEvents_trace x fun events => events &&& ~~~kWriteEvent
  generalize (x.withEvents fun events => events &&& ~~~kWriteEvent) = y at *
  -- The notification of the user changes only the functor queue.
  have notified : ∃ z, (if y.conn.hasWriteCompleteCallback = true
        then y.queueInLoop (.writeComplete y.conn.id) else y) = z ∧ z.IsRegistered ∧
      z.conn = y.conn ∧ z.trace = x.trace := by
    refine ⟨_, rfl, ?_⟩
    split
    · exact ⟨y_registered, rfl, y_trace⟩
    · exact ⟨y_registered, rfl, y_trace⟩
  obtain ⟨z, z_eq, z_registered, z_conn, z_trace⟩ := notified
  rw [z_eq]
  have z_quiet : z.conn.channel.isWriting = false := by rw [z_conn]; exact quiet
  have z_state : z.conn.state = x.conn.state := by rw [z_conn]; exact y_state
  have z_buffer : z.conn.outputBuffer = x.conn.outputBuffer := by rw [z_conn]; exact y_buffer
  by_cases closing : x.conn.state = .kDisconnecting
  · refine ⟨z.emit .shutdownWrite, ?_, z_registered, z_quiet, z_buffer, z_state, ?_⟩
    · simp [z_state, closing, shutdownInLoop, z_quiet]
    · simp [emit, z_trace, closing]
  · refine ⟨z, ?_, z_registered, z_quiet, z_buffer, z_state, ?_⟩
    · simp [z_state, closing]
    · simp [z_trace, closing]

/-- **Step lemma for `handle_write`**: bytes move from the buffer to the kernel. When the last
one has gone in state `kDisconnecting`, `SHUT_WR` follows. -/
theorem handleWrite_spec {x : Session} {payload : List UInt8} (inv : OutputInv x payload)
    (result : WriteResult) :
    ∃ y, x.handleWrite result = .ok y ∧ OutputInv y payload ∧ y.conn.state = x.conn.state ∧
      y.conn.outputBuffer.readable = result.leaves x.conn.outputBuffer.readable ∧
      ((x.conn.channel.isWriting = false ∧ y = x) ∨
        x.conn.channel.isWriting = true ∧ ∃ bytes,
        (y.trace = x.trace ++ [.wrote bytes] ∧
          (y.conn.channel.isWriting = true ∨ x.conn.state ≠ .kDisconnecting)) ∨
        (y.trace = x.trace ++ [.wrote bytes, .shutdownWrite] ∧
          y.conn.channel.isWriting = false ∧ x.conn.state = .kDisconnecting)) := by
  by_cases writing : x.conn.channel.isWriting = true
  · obtain ⟨buffer, registered, integrity, interest⟩ := inv
    simp only [handleWrite, if_pos writing]
    cases result with
    | failed errno =>
      -- `write_fd` changes nothing and `handle_write` only logs.
      refine ⟨x.emit (.wrote []), rfl, ⟨buffer, registered, ?_, interest⟩, rfl, rfl,
        .inr ⟨writing, [], .inl ⟨rfl, .inl writing⟩⟩⟩
      simpa [emit] using integrity
    | wrote n =>
      obtain ⟨after, wrote, inv', readable_eq⟩ := Buffer.writeFd_wrote_spec buffer n
      simp only [wrote, Checked.ok_bind]
      generalize taken_eq : x.conn.outputBuffer.readable.take n = taken at *
      have split_eq : taken ++ after.readable = x.conn.outputBuffer.readable := by
        rw [← taken_eq, readable_eq, List.take_append_drop]
      by_cases progress : (taken.length : Int) > 0
      · by_cases done : after.readableBytes = 0
        · -- Everything is out.
          have empty : after.readable = [] := inv'.readable_eq_nil_iff.mpr done
          have next_registered : ((x.withOutput after).emit (.wrote taken)).IsRegistered :=
            registered
          obtain ⟨y, ok, y_registered, quiet, same_buffer, same_state, trace_eq⟩ :=
            drained_spec next_registered
          simp only [emit, withOutput] at same_buffer same_state trace_eq
          refine ⟨y, by rw [if_pos progress, if_pos done, ok],
            ⟨by rw [same_buffer]; exact inv', y_registered, ?_, ?_⟩, same_state,
            by rw [same_buffer, readable_eq]; rfl, .inr ⟨writing, taken, ?_⟩⟩
          · rw [trace_eq, same_buffer, ← integrity, ← split_eq]
            by_cases closing : x.conn.state = .kDisconnecting <;> simp [closing]
          · simp [quiet, same_buffer, empty]
          · by_cases closing : x.conn.state = .kDisconnecting
            · exact .inr ⟨by simp [trace_eq, closing], quiet, closing⟩
            · exact .inl ⟨by simp [trace_eq, closing], .inr closing⟩
        · -- A partial write: the interest stays for the rest.
          have some_left : after.readable ≠ [] := fun nil =>
            done (inv'.readable_eq_nil_iff.mp nil)
          refine ⟨(x.withOutput after).emit (.wrote taken),
            by rw [if_pos progress, if_neg done]; rfl, ⟨inv', registered, ?_, ?_⟩, rfl,
            readable_eq, .inr ⟨writing, taken, .inl ⟨rfl, .inl writing⟩⟩⟩
          · simp [emit, withOutput, ← integrity, ← split_eq]
          · simp [emit, withOutput, writing, some_left]
      · -- The kernel took nothing.
        have none : taken = [] := List.eq_nil_of_length_eq_zero (by omega)
        have same : after.readable = x.conn.outputBuffer.readable := by
          rw [← split_eq, none, List.nil_append]
        refine ⟨(x.withOutput after).emit (.wrote taken), by rw [if_neg progress]; rfl,
          ⟨inv', registered, ?_, ?_⟩, rfl, readable_eq,
          .inr ⟨writing, taken, .inl ⟨rfl, .inl writing⟩⟩⟩
        · simp [emit, withOutput, none, same, integrity]
        · simpa [emit, withOutput, same] using interest
  · -- No interest: `handle_write` only logs, and by the invariant nothing waits.
    have empty : x.conn.outputBuffer.readable = [] := by
      simpa [writing] using inv.interest
    refine ⟨x, by simp [handleWrite, writing], inv, rfl, ?_, .inl ⟨by simpa using writing, rfl⟩⟩
    rw [empty]
    cases result <;> simp [WriteResult.leaves]

/-! ### Runs -/

private theorem written_connectionCallback (x : Session) :
    written x.connectionCallback.trace = written x.trace := by
  rw [connectionCallback_trace]
  split <;> simp [written]

/-- An established connection has an empty output stream. -/
theorem Established.start {x : Session} (fresh : x.Established) :
    OutputInv x [] ∧ x.conn.state = .kConnected ∧ .shutdownWrite ∉ x.trace := by
  obtain ⟨id, sockfd, up, message, complete, close, loop, unmapped, unpolled, ok⟩ := fresh
  have registered : IsRegistered ⟨.accepted id sockfd up message complete close, loop, []⟩ := by
    exact ⟨unmapped, unpolled⟩
  rw [connectEstablished_eq registered rfl] at ok
  cases ok
  have buffer := Buffer.inv_new Buffer.kInitialSize
  refine ⟨⟨?_, ?_, ?_, ?_⟩, ?_, ?_⟩
  · rw [established, connectionCallback_conn]
    exact buffer
  · simp only [IsRegistered, self, established, connectionCallback_conn, connectionCallback_loop]
    exact withEvents_registered _ _
  · rw [established, written_connectionCallback, connectionCallback_conn]
    exact Buffer.readable_new Buffer.kInitialSize
  · have empty : (Buffer.new Buffer.kInitialSize).readable = [] := Buffer.readable_new _
    have quiet : Mask.has kReadEvent kWriteEvent = false := by decide
    rw [established, connectionCallback_conn, withEvents_isWriting]
    simp [TcpConnection.accepted, TcpConnection.new, Channel.new, Channel.tie, quiet, empty]
  · rw [established, connectionCallback_conn]
    rfl
  · rw [established, connectionCallback_trace]
    split <;> simp [withEvents]

end Session

namespace Call

/-- The calls of the output side: sends that reached the loop's thread, writable events, and
whatever a concurrent `shutdown` does in between. -/
def IsOutput : Call → Prop
  | .sendInLoop _ _ => True
  | .handleWrite _ => True
  | .storeDisconnecting => True
  | .shutdownInLoop => True
  | _ => False

instance (c : Call) : Decidable c.IsOutput :=
  match c with
  | .sendInLoop _ _ | .handleWrite _ | .storeDisconnecting | .shutdownInLoop => isTrue trivial
  | .connectEstablished | .handleRead _ | .handleClose | .handleError | .connectDestoryed
  | .send _ _ | .shutdown | .retrieveInput _ => isFalse id

/-- The payloads of the sends, in call order. -/
def payloads (calls : List Call) : List UInt8 :=
  calls.flatMap fun
    | .sendInLoop data _ => data
    | _ => []

@[simp] theorem payloads_cons (c : Call) (calls : List Call) :
    payloads (c :: calls) = payloads [c] ++ payloads calls := by
  simp [payloads]

/-- Step lemma: an output call on a live connection returns and extends the stream by its own
payload. -/
private theorem output_step {x : Session} {payload : List UInt8} (inv : OutputInv x payload)
    (alive : x.conn.state ≠ .kDisconnected) {c : Call} (output : c.IsOutput)
    (benign : c.Benign) :
    ∃ y, c.step x = .ok y ∧ OutputInv y (payload ++ payloads [c]) ∧
      y.conn.state ≠ .kDisconnected := by
  cases c with
  | sendInLoop data result =>
    obtain ⟨y, _, ok, inv', same_state, _⟩ := Session.sendInLoop_spec inv alive data benign
    exact ⟨y, ok, by simpa [payloads] using inv', same_state ▸ alive⟩
  | handleWrite result =>
    obtain ⟨y, ok, inv', same_state, _, _⟩ := Session.handleWrite_spec inv result
    exact ⟨y, ok, by simpa [payloads] using inv', same_state ▸ alive⟩
  | storeDisconnecting =>
    refine ⟨_, rfl, ⟨inv.buffer, inv.registered, ?_, inv.interest⟩, by simp [Session.setState]⟩
    simpa [payloads, Session.setState] using inv.integrity
  | shutdownInLoop =>
    refine ⟨_, rfl, ?_⟩
    unfold Session.shutdownInLoop
    split
    · refine ⟨⟨inv.buffer, inv.registered, ?_, inv.interest⟩, alive⟩
      simpa [payloads, Session.emit] using inv.integrity
    · exact ⟨by simpa [payloads] using inv, alive⟩
  | _ => cases output

/-- **Output stream integrity**: after any run of output calls on an established connection,
the bytes the kernel accepted followed by those that wait in `output_buffer_` are the payloads
of all sends in call order, and the channel has write interest exactly when bytes wait. -/
theorem output_stream_integrity {x : Session} (established : x.Established) (calls : List Call)
    (output : ∀ c ∈ calls, c.IsOutput) (benign : ∀ c ∈ calls, c.Benign) :
    ∃ y, run step x calls = .ok y ∧ y.conn.state ≠ .kDisconnected ∧
      written y.trace ++ y.conn.outputBuffer.readable = payloads calls ∧
      (y.conn.channel.isWriting = true ↔ y.conn.outputBuffer.readable ≠ []) := by
  have general : ∀ (calls : List Call) (x : Session) (payload : List UInt8),
      OutputInv x payload → x.conn.state ≠ .kDisconnected → (∀ c ∈ calls, c.IsOutput) →
      (∀ c ∈ calls, c.Benign) →
      ∃ y, run step x calls = .ok y ∧ OutputInv y (payload ++ payloads calls) ∧
        y.conn.state ≠ .kDisconnected := by
    -- Induction on the calls, over every session and every payload so far.
    intro calls
    induction calls with
    | nil =>
      intro x payload inv alive _ _
      exact ⟨x, rfl, by simpa [payloads] using inv, alive⟩
    | cons c calls ih =>
      intro x payload inv alive output benign
      obtain ⟨y, ok, inv', alive'⟩ :=
        output_step inv alive (output c (by simp)) (benign c (by simp))
      obtain ⟨z, ran, inv'', alive''⟩ := ih y _ inv' alive'
        (fun c' member => output c' (by simp [member]))
        (fun c' member => benign c' (by simp [member]))
      exact ⟨z, by rw [run_cons_ok _ ok, ran],
        by rw [payloads_cons, ← List.append_assoc]; exact inv'', alive''⟩
  obtain ⟨inv, connected, _⟩ := established.start
  obtain ⟨y, ran, inv', alive⟩ := general calls x [] inv (by simp [connected]) output benign
  exact ⟨y, ran, alive, inv'.integrity, inv'.interest⟩

/-- A connection on a loop of its own, accepted as descriptor 7. -/
def sampleSession : Session :=
  Session.established ⟨.accepted 0 7 true true true true, EventLoop.new Epoller.new, []⟩

theorem sampleSession_established : sampleSession.Established :=
  ⟨0, 7, true, true, true, true, EventLoop.new Epoller.new, rfl, rfl, rfl⟩

/-- A direct write that takes two of four bytes, a send behind it, a drain in two steps. -/
def sampleOutput : List Call :=
  [.sendInLoop [1, 2, 3, 4] (.wrote 2), .sendInLoop [5] (.wrote 9), .handleWrite (.wrote 1),
    .handleWrite (.failed EWOULDBLOCK), .storeDisconnecting, .handleWrite (.wrote 9),
    .sendInLoop [6] (.failed EWOULDBLOCK)]

theorem sampleOutput_integrity :
    ∃ y, run step sampleSession sampleOutput = .ok y ∧ y.conn.state ≠ .kDisconnected ∧
      written y.trace ++ y.conn.outputBuffer.readable = [1, 2, 3, 4, 5, 6] ∧
      (y.conn.channel.isWriting = true ↔ y.conn.outputBuffer.readable ≠ []) :=
  output_stream_integrity sampleSession_established sampleOutput (by decide) (by decide)

end Call

end Clia.Net
