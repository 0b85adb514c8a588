import Clia.Net.OutputStream

/-!
# Graceful shutdown on the loop's thread

`shutdown` half-closes at once when nothing waits, and leaves it to `handle_write` otherwise.
Which of the two has to happen is kept in `state_` and the write interest together:
`kDisconnecting` with write interest means that `SHUT_WR` is still owed, without it that it
has been issued.
-/

namespace Clia.Net

open Reactor LabelledRun

/-- The trace has one `SHUT_WR`, exactly `sent` was written before it, and nothing after. -/
def ShutAfter (trace : List Effect) (sent : List UInt8) : Prop :=
  ∃ before after, trace = before ++ .shutdownWrite :: after ∧ .shutdownWrite ∉ before ∧
    .shutdownWrite ∉ after ∧ written before = sent ∧ written after = []

/-- Effects that are no output. -/
def Quiet (effects : List Effect) : Prop := written effects = [] ∧ .shutdownWrite ∉ effects

theorem Quiet.nil : Quiet [] := ⟨rfl, by simp⟩

theorem Quiet.append {xs ys : List Effect} (first : Quiet xs) (second : Quiet ys) :
    Quiet (xs ++ ys) :=
  ⟨by rw [written_append, first.1, second.1]; rfl, by simp [first.2, second.2]⟩

theorem ShutAfter.append {trace effects : List Effect} {sent : List UInt8}
    (shut : ShutAfter trace sent) (quiet : Quiet effects) : ShutAfter (trace ++ effects) sent := by
  obtain ⟨before, after, rfl, first, once, all, none⟩ := shut
  refine ⟨before, after ++ effects, by simp, first, ?_, all, ?_⟩
  · simp [once, quiet.2]
  · rw [written_append, none, quiet.1]
    rfl

/-- The invariant of a connection that only its loop's thread sends on and shuts down. `sent`
are the payloads of the sends made while `kConnected`. -/
structure GracefulInv (x : Session) (sent : List UInt8) : Prop where
  registered : x.IsRegistered
  started : x.conn.state ≠ .kConnecting
  stream : x.conn.state ≠ .kDisconnected → OutputInv x sent
  connected : x.conn.state = .kConnected → .shutdownWrite ∉ x.trace
  owed : x.conn.state = .kDisconnecting → x.conn.channel.isWriting = true →
    .shutdownWrite ∉ x.trace
  issued : x.conn.state = .kDisconnecting → x.conn.channel.isWriting = false →
    ShutAfter x.trace sent
  closed : x.conn.state = .kDisconnected → x.conn.channel.isWriting = false ∧
    (.shutdownWrite ∉ x.trace ∨ ShutAfter x.trace sent)

namespace GracefulInv

variable {x y : Session} {sent : List UInt8} {effects : List Effect}

/-- The trace never has more than the one `SHUT_WR`, whatever the state. -/
theorem shut (inv : GracefulInv x sent) : .shutdownWrite ∉ x.trace ∨ ShutAfter x.trace sent := by
  cases state_eq : x.conn.state with
  | kConnecting => exact absurd state_eq inv.started
  | kConnected => exact .inl (inv.connected state_eq)
  | kDisconnected => exact (inv.closed state_eq).2
  | kDisconnecting =>
    cases writing : x.conn.channel.isWriting with
    | true => exact .inl (inv.owed state_eq writing)
    | false => exact .inr (inv.issued state_eq writing)

/-- A step that leaves state, output and write interest alone keeps the invariant. -/
theorem quiet (inv : GracefulInv x sent) (registered : y.IsRegistered)
    (same_state : y.conn.state = x.conn.state)
    (same_buffer : y.conn.outputBuffer = x.conn.outputBuffer)
    (same_interest : y.conn.channel.isWriting = x.conn.channel.isWriting)
    (extended : y.trace = x.trace ++ effects) (quiet : Quiet effects) : GracefulInv y sent where
  registered := registered
  started := same_state ▸ inv.started
  stream alive := by
    have stream := inv.stream (same_state ▸ alive)
    refine ⟨same_buffer ▸ stream.buffer, registered, ?_, ?_⟩
    · rw [extended, written_append, quiet.1, List.append_nil, same_buffer]
      exact stream.integrity
    · rw [same_interest, same_buffer]
      exact stream.interest
  connected here := by
    have before := inv.connected (same_state ▸ here)
    simp [extended, before, quiet.2]
  owed here writing := by
    have before := inv.owed (same_state ▸ here) (same_interest ▸ writing)
    simp [extended, before, quiet.2]
  issued here idle := by
    rw [extended]
    exact (inv.issued (same_state ▸ here) (same_interest ▸ idle)).append quiet
  closed here := by
    obtain ⟨idle, before⟩ := inv.closed (same_state ▸ here)
    refine ⟨same_interest ▸ idle, before.imp (fun absent => ?_) (fun shut => ?_)⟩
    · simp [extended, absent, quiet.2]
    · rw [extended]
      exact shut.append quiet

/-- Disconnecting keeps the invariant from any state. -/
theorem disconnect (inv : GracefulInv x sent) (registered : y.IsRegistered)
    (down : y.conn.state = .kDisconnected) (idle : y.conn.channel.isWriting = false)
    (extended : y.trace = x.trace ++ effects) (quiet : Quiet effects) : GracefulInv y sent where
  registered := registered
  started := by simp [down]
  stream alive := absurd down alive
  connected here := by simp [down] at here
  owed here := by simp [down] at here
  issued here := by simp [down] at here
  closed _ := by
    refine ⟨idle, inv.shut.imp (fun absent => ?_) (fun shut => ?_)⟩
    · simp [extended, absent, quiet.2]
    · rw [extended]
      exact shut.append quiet

end GracefulInv

/-! ### One step -/

namespace Session

private theorem disconnected_extends (x : Session) :
    ∃ effects, x.disconnected.trace = x.trace ++ effects ∧ Quiet effects := by
  rw [disconnected, connectionCallback_trace]
  refine ⟨_, rfl, ?_⟩
  split <;> exact ⟨by simp [written], by simp⟩

private theorem disconnected_isWriting (x : Session) :
    x.disconnected.conn.channel.isWriting = false := by
  rw [disconnected, connectionCallback_conn, withEvents_isWriting]
  decide

private theorem handleClose_graceful {x y : Session} {sent : List UInt8}
    (inv : GracefulInv x sent) (ok : x.handleClose = .ok y) :
    GracefulInv y sent ∧ ∃ effects, y.trace = x.trace ++ effects ∧ Quiet effects := by
  obtain ⟨effects, extended, quiet⟩ := x.disconnected_extends
  rw [handleClose_eq inv.registered (closable_of_handleClose ok)] at ok
  cases ok
  split
  · -- With a close callback set, its call ends the trace.
    have quiet' : Quiet (effects ++ [.closeCallback]) :=
      quiet.append ⟨by simp [written], by simp⟩
    have extended' : (x.disconnected.emit .closeCallback).trace =
        x.trace ++ (effects ++ [.closeCallback]) := by
      rw [emit, extended, List.append_assoc]
    exact ⟨inv.disconnect x.disconnected_registered x.disconnected_state x.disconnected_isWriting
      extended' quiet', _, extended', quiet'⟩
  · exact ⟨inv.disconnect x.disconnected_registered x.disconnected_state x.disconnected_isWriting
      extended quiet, _, extended, quiet⟩

private theorem handleRead_graceful {x y : Session} {sent : List UInt8} {result : ReadResult}
    (inv : GracefulInv x sent) (ok : x.handleRead result = .ok y) :
    GracefulInv y sent ∧ ∃ effects, y.trace = x.trace ++ effects ∧ Quiet effects := by
  obtain ⟨n, inputBuffer, _, outcome⟩ := handleRead_inv ok
  have taken : GracefulInv (x.withInput inputBuffer) sent :=
    inv.quiet inv.registered rfl rfl rfl (List.append_nil _).symm Quiet.nil
  rcases outcome with ⟨_, rfl⟩ | ⟨_, closed⟩ | ⟨_, rfl⟩
  · split
    · -- Bytes came in, and the user is told.
      have quiet : Quiet [.messageCallback] := ⟨by simp [written], by simp⟩
      exact ⟨taken.quiet inv.registered rfl rfl rfl rfl quiet, _, rfl, quiet⟩
    · exact ⟨taken, [], (List.append_nil _).symm, Quiet.nil⟩
  · -- The peer has closed.
    have result := handleClose_graceful taken closed
    exact result
  · exact ⟨taken, [], (List.append_nil _).symm, Quiet.nil⟩

private theorem connectDestoryed_graceful {x y : Session} {sent : List UInt8}
    (inv : GracefulInv x sent) (ok : x.connectDestoryed = .ok y) :
    GracefulInv y sent ∧ ∃ effects, y.trace = x.trace ++ effects ∧ Quiet effects := by
  have result := connectDestoryed_eq inv.registered ok
  subst result
  by_cases connected : x.conn.state = .kConnected
  · rw [if_pos connected]
    obtain ⟨effects, extended, quiet⟩ := x.disconnected_extends
    exact ⟨inv.disconnect (removed_registered _) x.disconnected_state x.disconnected_isWriting
      extended quiet, _, extended, quiet⟩
  · rw [if_neg connected]
    have extended : x.removed.trace = x.trace ++ [] := (List.append_nil _).symm
    exact ⟨inv.quiet (removed_registered _) rfl rfl rfl extended Quiet.nil, _, extended, Quiet.nil⟩

private theorem send_graceful {x y : Session} {sent data : List UInt8} {result : WriteResult}
    (inv : GracefulInv x sent) (connected : x.conn.state = .kConnected) (benign : result.Benign)
    (ok : x.send data result = .ok y) :
    GracefulInv y (sent ++ data) ∧
      ∃ effects, y.trace = x.trace ++ effects ∧ .shutdownWrite ∉ effects := by
  have alive : x.conn.state ≠ .kDisconnected := by simp [connected]
  obtain ⟨z, effects, taken, stream, same_state, extended, no_shut⟩ :=
    sendInLoop_spec (inv.stream alive) alive data benign
  rw [send, if_pos connected, taken] at ok
  cases ok
  have here : y.conn.state = .kConnected := same_state.trans connected
  refine ⟨⟨stream.registered, by simp [here], fun _ => stream, ?_, by simp [here],
    by simp [here], by simp [here]⟩, effects, extended, no_shut⟩
  intro _
  simp [extended, inv.connected connected, no_shut]

private theorem shutdown_graceful {x : Session} {sent : List UInt8} (inv : GracefulInv x sent) :
    GracefulInv x.shutdown sent ∧ ∃ effects, x.shutdown.trace = x.trace ++ effects ∧
      (.shutdownWrite ∈ effects → x.shutdown.conn.outputBuffer.readable = []) := by
  by_cases connected : x.conn.state = .kConnected
  · have stream := inv.stream (by simp [connected])
    have before := inv.connected connected
    cases writing : x.conn.channel.isWriting with
    | true =>
      -- Bytes wait: the half-close is left to `handle_write`.
      have eq : x.shutdown = x.setState .kDisconnecting := by
        simp [shutdown, connected, shutdownInLoop, setState, writing]
      rw [eq]
      refine ⟨⟨inv.registered, by simp [setState], fun _ => ⟨stream.buffer, stream.registered,
        stream.integrity, stream.interest⟩, by simp [setState], fun _ _ => before, ?_,
        by simp [setState]⟩, [], (List.append_nil _).symm, by simp⟩
      intro _ idle
      simp [setState, writing] at idle
    | false =>
      -- Nothing waits: all that was sent has been written, and `SHUT_WR` is issued here.
      have eq : x.shutdown = (x.setState .kDisconnecting).emit .shutdownWrite := by
        simp [shutdown, connected, shutdownInLoop, setState, writing]
      have empty : x.conn.outputBuffer.readable = [] := by
        simpa [writing] using stream.interest
      have all : written x.trace = sent := by simpa [empty] using stream.integrity
      rw [eq]
      refine ⟨⟨inv.registered, by simp [setState, emit], fun _ => ⟨stream.buffer,
        stream.registered, by simpa [emit, setState] using stream.integrity, stream.interest⟩,
        by simp [setState, emit], ?_, ?_, by simp [setState, emit]⟩, _, rfl, fun _ => empty⟩
      · intro _ still
        simp [setState, emit, writing] at still
      · intro _ _
        exact ⟨x.trace, [], rfl, before, by simp, all, rfl⟩
  · -- A second `shutdown` does nothing.
    rw [shutdown, if_neg connected]
    exact ⟨inv, [], (List.append_nil _).symm, by simp⟩

private theorem handleWrite_graceful {x y : Session} {sent : List UInt8} {result : WriteResult}
    (inv : GracefulInv x sent) (ok : x.handleWrite result = .ok y) :
    GracefulInv y sent ∧ ∃ effects, y.trace = x.trace ++ effects ∧
      (.shutdownWrite ∈ effects → y.conn.outputBuffer.readable = []) := by
  by_cases alive : x.conn.state = .kDisconnected
  · -- Without write interest the event is ignored.
    have idle := (inv.closed alive).1
    rw [handleWrite, if_neg (by simp [idle])] at ok
    cases ok
    exact ⟨inv, [], (List.append_nil _).symm, by simp⟩
  · obtain ⟨z, taken, stream, same_state, _, progress⟩ :=
      handleWrite_spec (inv.stream alive) result
    rw [taken] at ok
    cases ok
    have y_alive : y.conn.state ≠ .kDisconnected := same_state ▸ alive
    rcases progress with ⟨_, rfl⟩ | ⟨writing, bytes, ⟨extended, owing⟩ | ⟨extended, idle, closing⟩⟩
    · exact ⟨inv, [], (List.append_nil _).symm, by simp⟩
    · -- No `SHUT_WR`: bytes are left, or no shutdown is owed.
      refine ⟨⟨stream.registered, same_state ▸ inv.started, fun _ => stream, ?_, ?_, ?_,
        fun here => absurd here y_alive⟩, _, extended, by simp⟩
      · intro here
        simp [extended, inv.connected (same_state ▸ here)]
      · intro here _
        simp [extended, inv.owed (same_state ▸ here) writing]
      · intro here idle
        -- A drained buffer in `kDisconnecting` is the other case.
        rcases owing with still | elsewhere
        · simp [idle] at still
        · exact absurd (same_state ▸ here) elsewhere
    · -- The last byte has gone and the owed `SHUT_WR` follows it.
      have empty : y.conn.outputBuffer.readable = [] := by
        simpa [idle] using stream.interest
      have here : y.conn.state = .kDisconnecting := same_state.trans closing
      have all : written (x.trace ++ [.wrote bytes]) = sent := by
        have integrity := stream.integrity
        simpa [extended, empty] using integrity
      refine ⟨⟨stream.registered, by simp [here], fun _ => stream, by simp [here],
        by simp [idle], fun _ _ => ?_, by simp [here]⟩, _, extended, fun _ => empty⟩
      refine ⟨x.trace ++ [.wrote bytes], [], by simp [extended], ?_, by simp, all, rfl⟩
      simp [inv.owed closing writing]

end Session

namespace Call

/-- Calls made on the loop's own thread. -/
def OnLoop : Call → Prop
  | .storeDisconnecting => False
  | .sendInLoop _ _ => False
  | .shutdownInLoop => False
  | _ => True

instance (c : Call) : Decidable c.OnLoop :=
  match c with
  | .storeDisconnecting | .sendInLoop _ _ | .shutdownInLoop => isFalse id
  | .connectEstablished | .handleRead _ | .handleWrite _ | .handleClose | .handleError
  | .connectDestoryed | .send _ _ | .shutdown | .retrieveInput _ => isTrue trivial

/-- The payload of a send made while `kConnected`. -/
def sends (x : Session) : Call → List UInt8
  | .send data _ => if x.conn.state = .kConnected then data else []
  | _ => []

/-- The payloads of all sends of a run that were made while `kConnected`. -/
def sentWhileConnected (x : Session) : List Call → List UInt8
  | [] => []
  | c :: calls =>
    c.sends x ++ match c.step x with
      | .ok y => sentWhileConnected y calls
      | .error _ => []

/-- Step lemma: every call keeps the invariant, and one that issues `SHUT_WR` leaves
`output_buffer_` empty. -/
theorem step_graceful {x y : Session} {sent : List UInt8} {c : Call} (inv : GracefulInv x sent)
    (onLoop : c.OnLoop) (benign : c.Benign) (ok : c.step x = .ok y) :
    GracefulInv y (sent ++ c.sends x) ∧ ∃ effects, y.trace = x.trace ++ effects ∧
      (.shutdownWrite ∈ effects → y.conn.outputBuffer.readable = []) := by
  cases c with
  | storeDisconnecting => cases onLoop
  | sendInLoop data result => cases onLoop
  | shutdownInLoop => cases onLoop
  | connectEstablished =>
    -- The assertion fails: the connection is past `kConnecting`.
    exact absurd (Session.connecting_of_connectEstablished ok) inv.started
  | handleRead result =>
    obtain ⟨inv', effects, extended, quiet⟩ := Session.handleRead_graceful inv ok
    exact ⟨by simpa [sends] using inv', effects, extended, fun shut => absurd shut quiet.2⟩
  | handleWrite result =>
    obtain ⟨inv', rest⟩ := Session.handleWrite_graceful inv ok
    exact ⟨by simpa [sends] using inv', rest⟩
  | handleClose =>
    obtain ⟨inv', effects, extended, quiet⟩ := Session.handleClose_graceful inv ok
    exact ⟨by simpa [sends] using inv', effects, extended, fun shut => absurd shut quiet.2⟩
  | handleError =>
    cases ok
    exact ⟨by simpa [sends, Session.handleError] using inv, [], (List.append_nil _).symm, by simp⟩
  | connectDestoryed =>
    obtain ⟨inv', effects, extended, quiet⟩ := Session.connectDestoryed_graceful inv ok
    exact ⟨by simpa [sends] using inv', effects, extended, fun shut => absurd shut quiet.2⟩
  | send data result =>
    by_cases connected : x.conn.state = .kConnected
    · obtain ⟨inv', effects, extended, no_shut⟩ :=
        Session.send_graceful inv connected benign ok
      exact ⟨by simpa [sends, connected] using inv', effects, extended,
        fun shut => absurd shut no_shut⟩
    · -- A send in any other state returns at once and counts for nothing.
      simp only [step, Session.send, if_neg connected, Except.ok.injEq] at ok
      cases ok
      exact ⟨by simpa [sends, connected] using inv, [], (List.append_nil _).symm, by simp⟩
  | shutdown =>
    cases ok
    obtain ⟨inv', rest⟩ := Session.shutdown_graceful inv
    exact ⟨by simpa [sends] using inv', rest⟩
  | retrieveInput len =>
    obtain ⟨inputBuffer, _, ok⟩ := Checked.bind_ok_iff.mp ok
    cases ok
    have extended : (x.withInput inputBuffer).trace = x.trace ++ [] := (List.append_nil _).symm
    have inv' : GracefulInv (x.withInput inputBuffer) sent :=
      inv.quiet inv.registered rfl rfl rfl extended Quiet.nil
    exact ⟨by simpa [sends] using inv', [], extended, by simp⟩

/-- Run lemma. -/
private theorem run_graceful {x y : Session} {sent : List UInt8} {calls : List Call}
    (inv : GracefulInv x sent) (onLoop : ∀ c ∈ calls, c.OnLoop)
    (benign : ∀ c ∈ calls, c.Benign) (ran : run step x calls = .ok y) :
    GracefulInv y (sent ++ sentWhileConnected x calls) := by
  induction calls generalizing x sent with
  | nil =>
    cases ran
    simpa [sentWhileConnected] using inv
  | cons c calls ih =>
    obtain ⟨z, taken, rest⟩ := run_cons_inv ran
    obtain ⟨inv', _⟩ := step_graceful inv (onLoop c (by simp)) (benign c (by simp)) taken
    have final := ih inv' (fun c' member => onLoop c' (by simp [member]))
      (fun c' member => benign c' (by simp [member])) rest
    simpa [sentWhileConnected, taken, List.append_assoc] using final

private theorem start_graceful {x : Session} (fresh : x.Established) : GracefulInv x [] := by
  obtain ⟨stream, connected, unshut⟩ := fresh.start
  exact ⟨stream.registered, by simp [connected], fun _ => stream, fun _ => unshut,
    by simp [connected], by simp [connected], by simp [connected]⟩

/-- **Graceful shutdown**: in every run on the loop's thread, `SHUT_WR` is issued at most once;
exactly the payloads of the sends made while `kConnected` reach the kernel before it, and no
byte after it; and the call that issues it finds `output_buffer_` empty. -/
theorem graceful_shutdown {x y : Session} (established : x.Established) (calls : List Call)
    (onLoop : ∀ c ∈ calls, c.OnLoop) (benign : ∀ c ∈ calls, c.Benign)
    (ran : run step x calls = .ok y) :
    y.trace.count .shutdownWrite ≤ 1 ∧
      (∀ before after, y.trace = before ++ .shutdownWrite :: after →
        written before = sentWhileConnected x calls ∧ written after = []) ∧
      (∀ earlier c later u v, calls = earlier ++ c :: later → run step x earlier = .ok u →
        c.step u = .ok v → .shutdownWrite ∈ v.trace.drop u.trace.length →
        v.conn.outputBuffer.readable = []) := by
  have inv := run_graceful (start_graceful established) onLoop benign ran
  rw [List.nil_append] at inv
  refine ⟨?_, ?_, ?_⟩
  · rcases inv.shut with absent | ⟨before, after, split_eq, first, once, _⟩
    · simp [List.count_eq_zero_of_not_mem absent]
    · simp [split_eq, List.count_append, List.count_eq_zero_of_not_mem first,
        List.count_eq_zero_of_not_mem once]
  · intro before after split_eq
    rcases inv.shut with absent | ⟨before', after', split_eq', first, once, all, none⟩
    · exact absurd (by simp [split_eq]) absent
    · -- There is only one place to split at.
      have same : before = before' ∧ after = after' := by
        rw [split_eq] at split_eq'
        rcases List.append_eq_append_iff.mp split_eq' with
          ⟨extra, eq, eq'⟩ | ⟨extra, eq, eq'⟩
        · cases extra with
          | nil => simp_all
          | cons e extra => simp_all
        · cases extra with
          | nil => simp_all
          | cons e extra => simp_all
      rw [same.1, same.2]
      exact ⟨all, none⟩
  · intro earlier c later u v split_eq reached taken issued
    subst split_eq
    have inv' := run_graceful (start_graceful established)
      (fun c' member => onLoop c' (by simp [member]))
      (fun c' member => benign c' (by simp [member])) reached
    obtain ⟨_, effects, extended, empty⟩ :=
      step_graceful inv' (onLoop c (by simp)) (benign c (by simp)) taken
    rw [extended, List.drop_left] at issued
    exact empty issued

/-- A shutdown while bytes wait, a send that comes too late, and the drain. -/
def sampleShutdown : List Call :=
  [.send [1, 2, 3] (.wrote 1), .shutdown, .send [4] (.wrote 1), .handleWrite (.wrote 1),
    .handleWrite (.wrote 5), .handleClose]

theorem sampleShutdown_graceful :
    ∃ y, run step sampleSession sampleShutdown = .ok y ∧ .shutdownWrite ∈ y.trace ∧
      y.trace.count .shutdownWrite ≤ 1 ∧
      (∀ before after, y.trace = before ++ .shutdownWrite :: after →
        written before = [1, 2, 3] ∧ written after = []) := by
  have evaluated : ((run step sampleSession sampleShutdown).toOption.any
      fun y => decide (.shutdownWrite ∈ y.trace)) = true := by decide +kernel
  cases ran : run step sampleSession sampleShutdown with
  | error f => simp [ran, Except.toOption] at evaluated
  | ok y =>
    obtain ⟨once, exact_before, _⟩ := graceful_shutdown sampleSession_established
      sampleShutdown (by decide) (by decide) ran
    have sent : sentWhileConnected sampleSession sampleShutdown = [1, 2, 3] := by decide +kernel
    rw [sent] at exact_before
    exact ⟨y, rfl, by simpa [ran, Except.toOption] using evaluated, once, exact_before⟩

end Call

end Clia.Net
