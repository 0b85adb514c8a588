import Clia.Net.DeferredSend
import Clia.Net.SessionFrame

/-!
# Errors of the direct write

`send_in_loop` gives up a payload when the direct `::write` has failed for good. The test for
that is `EPIPE == errno || ECONNRESET`, whose second operand is a constant other than zero, so every
failure but `EWOULDBLOCK` is taken for a lost connection.

## Main result

`Call.send_errors_classified_iff`: on every reachable connection a payload is treated as its errno
demands exactly if the direct write has not failed with an errno outside of `EWOULDBLOCK`, `EPIPE`
and `ECONNRESET`, or the payload is empty.
-/

namespace Clia.Net

open Reactor LabelledRun

namespace Session

/-- A connection as it was constructed, on a loop that does not know its descriptor. -/
def Constructed (x : Session) : Prop :=
  ∃ id sockfd connection message writeComplete close, ∃ loop : Loop,
    loop.poller.channels sockfd = none ∧ loop.poller.interest sockfd = none ∧
    x = ⟨.accepted id sockfd connection message writeComplete close, loop, []⟩

/-- The direct write was tried, and the peer is gone. -/
def PeerGone (x : Session) (result : WriteResult) : Prop :=
  x.Direct ∧ (result = .failed EPIPE ∨ result = .failed ECONNRESET)

/-- `send_in_loop` returns. The kernel has taken a first part of the payload, and unless the peer is
gone, the rest is in `output_buffer_` behind what was there, with write interest if there is a
rest. -/
def Classified (x : Session) (data : List UInt8) (result : WriteResult) : Prop :=
  ∃ y k, x.sendInLoop data result = .ok y ∧ k ≤ data.length ∧
    written y.trace = written x.trace ++ data.take k ∧
    (¬x.PeerGone result →
      y.conn.outputBuffer.readable = x.conn.outputBuffer.readable ++ data.drop k ∧
      (data.drop k ≠ [] → y.conn.channel.isWriting = true))

/-- The direct write was tried and failed with an errno that says neither to wait nor that the peer
is gone. -/
def OtherFailure (x : Session) (result : WriteResult) : Prop :=
  x.Direct ∧ ∃ errno, result = .failed errno ∧
    errno ≠ EWOULDBLOCK ∧ errno ≠ EPIPE ∧ errno ≠ ECONNRESET

/-! ### Reachable connections -/

/-- The output buffer is in order, and the poller knows the channel as its index says. -/
structure Intact (x : Session) : Prop where
  buffer : x.conn.outputBuffer.Inv
  registered : x.IsRegistered

theorem Constructed.intact {x : Session} (constructed : x.Constructed) : x.Intact := by
  obtain ⟨id, sockfd, up, message, complete, close, loop, unmapped, unpolled, rfl⟩ := constructed
  constructor
  · exact Buffer.inv_new Buffer.kInitialSize
  · exact ⟨unmapped, unpolled⟩

variable {x y : Session} {data : List UInt8} {result : WriteResult}

theorem sendInLoop_buffer (intact : x.Intact) (ok : x.sendInLoop data result = .ok y) :
    y.conn.outputBuffer.Inv := by
  by_cases givesUp : x.GivesUp result
  · rw [sendInLoop_givesUp givesUp] at ok
    cases ok
    exact intact.buffer
  · simp only [GivesUp, not_or, not_and, not_not] at givesUp
    obtain ⟨z, k, sent_ok, sent⟩ := sendInLoop_sent intact.buffer intact.registered givesUp.1 data
      (fun direct => givesUp.2 direct.1 direct.2)
    rw [sent_ok] at ok
    cases ok
    exact sent.buffer

theorem shutdownInLoop_conn (x : Session) : x.shutdownInLoop.conn = x.conn := by
  unfold shutdownInLoop
  split <;> rfl

theorem drained_buffer (ok : x.drained = .ok y) : y.conn.outputBuffer = x.conn.outputBuffer := by
  obtain ⟨z, disabled, ok⟩ := Checked.bind_ok_iff.mp ok
  cases ok
  rw [← (onChannel_outputBuffer disabled).1]
  split <;> split <;> simp [shutdownInLoop_conn, queueInLoop]

theorem handleWrite_buffer (buffer : x.conn.outputBuffer.Inv) (ok : x.handleWrite result = .ok y) :
    y.conn.outputBuffer.Inv := by
  unfold handleWrite at ok
  split at ok
  · obtain ⟨⟨n, taken, after⟩, wrote, ok⟩ := Checked.bind_ok_iff.mp ok
    have inv' : after.Inv := by
      cases result with
      | failed errno =>
        cases wrote
        exact buffer
      | wrote n =>
        obtain ⟨after', wrote', inv', _⟩ := Buffer.writeFd_wrote_spec buffer n
        rw [wrote'] at wrote
        cases wrote
        exact inv'
    simp only at ok
    split at ok
    · split at ok
      · rw [drained_buffer ok]
        exact inv'
      · cases ok
        exact inv'
    · cases ok
      exact inv'
  · cases ok
    exact buffer

theorem handleClose_buffer (registered : x.IsRegistered) (ok : x.handleClose = .ok y) :
    y.conn.outputBuffer = x.conn.outputBuffer := by
  rw [(handleClose_inv registered ok).1, disconnected, connectionCallback_conn]
  rfl

end Session

/-- Step lemma: every call leaves the connection intact. -/
theorem Call.step_intact {x y : Session} {c : Call} (intact : x.Intact) (ok : c.step x = .ok y) :
    y.Intact := by
  have registered := intact.registered
  apply Session.Intact.mk _ (Call.step_keeps registered ok).2
  have buffer := intact.buffer
  cases c with
  | connectEstablished =>
    rw [Call.step, Session.connectEstablished_eq registered
      (Session.connecting_of_connectEstablished ok)] at ok
    cases ok
    rw [Session.established, Session.connectionCallback_conn]
    exact buffer
  | handleRead result =>
    obtain ⟨n, inputBuffer, _, outcome⟩ := Session.handleRead_inv ok
    rcases outcome with ⟨_, rfl⟩ | ⟨_, closed⟩ | ⟨_, rfl⟩
    · split <;> exact buffer
    · have still : (x.withInput inputBuffer).IsRegistered := registered
      rw [Session.handleClose_buffer still closed]
      exact buffer
    · exact buffer
  | handleWrite result => exact Session.handleWrite_buffer buffer ok
  | handleClose =>
    rw [Session.handleClose_buffer registered ok]
    exact buffer
  | handleError =>
    cases ok
    exact buffer
  | connectDestoryed =>
    rw [Session.connectDestoryed_eq registered ok]
    split
    · rw [Session.removed, Session.disconnected, Session.connectionCallback_conn]
      exact buffer
    · exact buffer
  | send data result =>
    simp only [Call.step, Session.send] at ok
    split at ok
    · exact Session.sendInLoop_buffer intact ok
    · cases ok
      exact buffer
  | shutdown =>
    cases ok
    unfold Session.shutdown
    split
    · rw [Session.shutdownInLoop_conn]
      exact buffer
    · exact buffer
  | retrieveInput len =>
    obtain ⟨inputBuffer, _, ok⟩ := Checked.bind_ok_iff.mp ok
    cases ok
    exact buffer
  | storeDisconnecting =>
    cases ok
    exact buffer
  | sendInLoop data result => exact Session.sendInLoop_buffer intact ok
  | shutdownInLoop =>
    cases ok
    rw [Session.shutdownInLoop_conn]
    exact buffer

/-! ### Classification -/

namespace Session

variable {x : Session} {data : List UInt8} {result : WriteResult}

/-- A failure that is given up leaves nothing behind: that is right only if the peer is gone or
there was nothing to send. -/
theorem classified_givesUp_iff (givesUp : x.GivesUp result) :
    x.Classified data result ↔ x.PeerGone result ∨ data = [] := by
  have unchanged := sendInLoop_givesUp givesUp data
  constructor
  · rintro ⟨y, k, ok, bound, stream, kept⟩
    rw [unchanged] at ok
    cases ok
    by_cases gone : x.PeerGone result
    · exact Or.inl gone
    · right
      -- Neither the trace nor the buffer has grown, so both parts are empty.
      have taken : data.take k = [] := List.append_right_eq_self.mp stream.symm
      have rest : data.drop k = [] := List.append_right_eq_self.mp (kept gone).1.symm
      rw [← List.take_append_drop k data, taken, rest, List.append_nil]
  · intro allowed
    refine ⟨x, 0, unchanged, Nat.zero_le _, by simp, ?_⟩
    intro notGone
    obtain rfl : data = [] := allowed.resolve_left notGone
    simp

theorem classified_of_sent {y : Session} {k : Nat} (ok : x.sendInLoop data result = .ok y)
    (sent : Sent x y data k) : x.Classified data result := by
  obtain ⟨effects, trace_eq, written_eq, _⟩ := sent.trace
  refine ⟨y, k, ok, sent.bound, by rw [trace_eq, written_append, written_eq], ?_⟩
  intro _
  apply And.intro sent.readable
  intro some_left
  have short : k < data.length := by
    rw [ne_eq, List.drop_eq_nil_iff] at some_left
    omega
  rw [sent.interest, decide_eq_true short, Bool.or_true]

theorem OtherFailure.givesUp (other : x.OtherFailure result) : x.GivesUp result := by
  obtain ⟨direct, errno, rfl, notWait, _⟩ := other
  exact Or.inr ⟨direct.1, direct.2, notWait⟩

/-- A hard failure is one of the two kinds. -/
theorem GivesUp.peerGone_iff (givesUp : x.GivesUp result) (alive : x.conn.state ≠ .kDisconnected) :
    x.PeerGone result ↔ ¬x.OtherFailure result := by
  obtain ⟨quiet, empty, hard⟩ := givesUp.resolve_left alive
  have direct : x.Direct := ⟨quiet, empty⟩
  cases result with
  | wrote n => exact absurd trivial hard
  | failed errno =>
    constructor
    · rintro ⟨_, gone⟩ ⟨_, errno', same, _, notPipe, notReset⟩
      cases same
      simp only [WriteResult.failed.injEq] at gone
      exact gone.elim notPipe notReset
    · intro notOther
      by_contra notGone
      simp only [PeerGone, direct, true_and, not_or, WriteResult.failed.injEq] at notGone
      exact notOther ⟨direct, errno, rfl, hard, notGone.1, notGone.2⟩

theorem Intact.classified_iff (intact : x.Intact) (alive : x.conn.state ≠ .kDisconnected) :
    x.Classified data result ↔ ¬(x.OtherFailure result ∧ data ≠ []) := by
  by_cases givesUp : x.GivesUp result
  · rw [classified_givesUp_iff givesUp, givesUp.peerGone_iff alive, not_and_or, not_not]
  · have notOther : ¬x.OtherFailure result := fun other => givesUp other.givesUp
    simp only [GivesUp, not_or, not_and, not_not] at givesUp
    obtain ⟨y, k, ok, sent⟩ := sendInLoop_sent intact.buffer intact.registered givesUp.1 data
      (fun direct => givesUp.2 direct.1 direct.2)
    apply iff_of_true (classified_of_sent ok sent)
    exact fun failure => notOther failure.1

end Session

/-- **Error classification of `send_in_loop`**: on every reachable connection that is not
disconnected, for every payload and every outcome of the direct `::write`, the payload is treated as
its errno demands exactly if the write has not failed with an errno other than `EWOULDBLOCK`, `EPIPE`
and `ECONNRESET`, or the payload is empty. -/
theorem Call.send_errors_classified_iff {start x : Session} (constructed : start.Constructed)
    {calls : List Call} (reached : run step start calls = .ok x) (alive : x.conn.state ≠ .kDisconnected)
    (data : List UInt8) (result : WriteResult) :
    x.Classified data result ↔ ¬(x.OtherFailure result ∧ data ≠ []) := by
  have intact : x.Intact :=
    run_invariant (fun _ _ _ intact taken => step_intact intact taken) constructed.intact reached
  exact intact.classified_iff alive

/-- The sample connection before `connect_established`. -/
def constructedSample : Session :=
  ⟨.accepted 0 7 true true true true, EventLoop.new Epoller.new, []⟩

theorem constructedSample_constructed : constructedSample.Constructed :=
  ⟨0, 7, true, true, true, true, EventLoop.new Epoller.new, rfl, rfl, rfl⟩

theorem sampleSession_reached :
    run Call.step constructedSample [.connectEstablished] = .ok Call.sampleSession := by
  have up : Call.step constructedSample .connectEstablished = .ok Call.sampleSession :=
    Session.connectEstablished_eq constructedSample_constructed.intact.registered rfl
  rw [run_cons_ok [] up]
  rfl

/-- A partial write, a write that would block and one to a peer that is gone. -/
theorem sampleSession_classified :
    Call.sampleSession.Classified [1, 2] (.wrote 1) ∧
      Call.sampleSession.Classified [1, 2] (.failed EWOULDBLOCK) ∧
      Call.sampleSession.Classified [1, 2] (.failed EPIPE) := by
  have connected : Call.sampleSession.conn.state ≠ .kDisconnected := by
    rw [Call.sampleSession_established.start.2.1]
    decide
  have classified := Call.send_errors_classified_iff constructedSample_constructed sampleSession_reached
    connected [1, 2]
  refine ⟨(classified _).mpr ?_, (classified _).mpr ?_, (classified _).mpr ?_⟩
  · rintro ⟨⟨_, errno, same, _⟩, _⟩
    cases same
  · rintro ⟨⟨_, errno, same, notWait, _⟩, _⟩
    cases same
    exact notWait rfl
  · rintro ⟨⟨_, errno, same, _, notPipe, _⟩, _⟩
    cases same
    exact notPipe rfl

theorem Session.Established.direct {x : Session} (fresh : x.Established) : x.Direct := by
  obtain ⟨inv, _, _⟩ := fresh.start
  have empty : x.conn.outputBuffer.readable = [] := (List.append_eq_nil_iff.mp inv.integrity).2
  constructor
  · simpa [empty] using inv.interest
  · exact inv.buffer.readable_eq_nil_iff.mp empty

def EINTR : Nat := 4

/-- `EINTR` on an idle connection: the payload is dropped. -/
theorem interrupted_dropped :
    ∃ x, run Call.step constructedSample [.connectEstablished] = .ok x ∧
      x.conn.state ≠ .kDisconnected ∧ ¬x.Classified [1, 2] (.failed EINTR) := by
  have fresh := Call.sampleSession_established
  obtain ⟨inv, connected, _⟩ := fresh.start
  have alive : Call.sampleSession.conn.state ≠ .kDisconnected := by
    rw [connected]
    decide
  have intact : Call.sampleSession.Intact := ⟨inv.buffer, inv.registered⟩
  refine ⟨Call.sampleSession, sampleSession_reached, alive, ?_⟩
  rw [intact.classified_iff alive, not_not]
  exact ⟨⟨fresh.direct, EINTR, rfl, by decide, by decide, by decide⟩, by decide⟩

end Clia.Net
