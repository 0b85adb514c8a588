import Clia.Net.OutputStream

/-!
# Write-complete notifications

The notification is queued from two places: by `send_in_loop`, if the direct write took the whole
payload, and by `handle_write`, if the buffer has run empty. Each sees only its own part of the
stream. That both mean the same, namely that the kernel has everything, rests on `OutputInv`: the
direct write is tried only while nothing waits.

## Main result

`Call.write_complete_exact`: over every run of sends and writable events, a step queues a
notification exactly if it gives the last outstanding byte to the kernel.
-/

namespace Clia.Net

open Reactor LabelledRun

namespace Call

/-- A send with a payload, or a writable event. -/
def IsTraffic : Call → Prop
  | .send data _ | .sendInLoop data _ => 0 < data.length
  | .handleWrite _ => True
  | _ => False

instance (c : Call) : Decidable c.IsTraffic :=
  match c with
  | .send _ _ | .sendInLoop _ _ => Nat.decLt _ _
  | .handleWrite _ => isTrue trivial
  | .connectEstablished | .handleRead _ | .handleClose | .handleError | .connectDestoryed
  | .shutdown | .retrieveInput _ | .storeDisconnecting | .shutdownInLoop => isFalse id

/-- The payload of a send. -/
def payload? : Call → Option (List UInt8)
  | .send data _ | .sendInLoop data _ => some data
  | _ => none

/-- The payloads of a connection that is up, which takes all that is sent. -/
def accepted (calls : List Call) : List UInt8 := calls.flatMap fun c => c.payload?.getD []

end Call

namespace Session

/-- The step has queued one write-complete notification. -/
def Notified (x y : Session) : Prop :=
  y.loop.pendingFunctors = x.loop.pendingFunctors ++ [.writeComplete x.conn.id]

/-- The step has given the last outstanding byte to the kernel: `output_buffer_` has run empty, or
the whole payload of the send was taken directly. -/
def HandsLast (x y : Session) (c : Call) : Prop :=
  (x.conn.outputBuffer.readable ≠ [] ∧ y.conn.outputBuffer.readable = []) ∨
    ∃ data, c.payload? = some data ∧ written y.trace = written x.trace ++ data

/-- A step queues a notification or leaves the functors as they are. It queues one exactly if it
hands over the last byte, and then nothing waits any more. -/
structure Exact (x y : Session) (c : Call) : Prop where
  notified_iff : x.Notified y ↔ x.HandsLast y c
  quiet : ¬x.Notified y → y.loop.pendingFunctors = x.loop.pendingFunctors
  empty : x.Notified y → y.conn.outputBuffer.readable = []

theorem not_notified_of_same {x y : Session}
    (same : y.loop.pendingFunctors = x.loop.pendingFunctors) : ¬x.Notified y := by
  intro notified
  rw [Notified, same] at notified
  simp at notified

/-- A step that queues a notification exactly on a condition is exact if that condition is that it
hands over the last byte. -/
theorem exact_of_functors {x y : Session} {c : Call} {hands : Prop} [Decidable hands]
    (functors : y.loop.pendingFunctors = x.loop.pendingFunctors ++
      (if hands then [.writeComplete x.conn.id] else []))
    (means : hands ↔ x.HandsLast y c) (empty : hands → y.conn.outputBuffer.readable = []) :
    x.Exact y c := by
  by_cases last : hands
  · rw [if_pos last] at functors
    constructor
    · exact iff_of_true functors (means.mp last)
    · exact fun quiet => absurd functors quiet
    · exact fun _ => empty last
  · rw [if_neg last, List.append_nil] at functors
    have quiet : ¬x.Notified y := not_notified_of_same functors
    constructor
    · exact iff_of_false quiet (fun hand => last (means.mpr hand))
    · exact fun _ => functors
    · exact fun notified => absurd notified quiet

/-! ### One step -/

/-- What holds between two steps: the stream so far, on a connection that is up and has the
callback. -/
structure Flowing (x : Session) (sent : List UInt8) : Prop where
  output : OutputInv x sent
  connected : x.conn.state = .kConnected
  callback : x.conn.hasWriteCompleteCallback = true

variable {x y : Session} {sent : List UInt8}

theorem sendInLoop_exact (flowing : x.Flowing sent) {data : List UInt8} (positive : 0 < data.length)
    {result : WriteResult} (benign : result.Benign) {c : Call} (payload : c.payload? = some data) :
    ∃ y, x.sendInLoop data result = .ok y ∧ y.Flowing (sent ++ data) ∧ x.Exact y c := by
  have alive : x.conn.state ≠ .kDisconnected := by
    rw [flowing.connected]
    decide
  obtain ⟨y, k, ok, taken⟩ := sendInLoop_sent flowing.output.buffer flowing.output.registered alive
    data (fun _ => benign)
  have flowing' : y.Flowing (sent ++ data) := by
    constructor
    · exact taken.outputInv flowing.output
    · exact taken.state.trans flowing.connected
    · exact taken.notifies.trans flowing.callback
  refine ⟨y, ok, flowing', exact_of_functors (taken.functors positive) ?_ ?_⟩
  · obtain ⟨effects, trace_eq, written_eq, _⟩ := taken.trace
    simp only [flowing.callback, and_true]
    constructor
    · intro all
      right
      refine ⟨data, payload, ?_⟩
      rw [trace_eq, written_append, written_eq, all, List.take_length]
    · rintro (⟨waiting, empty⟩ | ⟨data', same, whole⟩)
      · -- A send only adds to the buffer.
        rw [taken.readable, List.append_eq_nil_iff] at empty
        exact absurd empty.1 waiting
      · rw [payload] at same
        cases same
        rw [trace_eq, written_append, written_eq] at whole
        have length := congrArg List.length (List.append_cancel_left whole)
        rw [List.length_take] at length
        have bound := taken.bound
        omega
  · rintro ⟨rfl, _⟩
    -- The direct write was tried, so nothing waited before it.
    have idle := flowing.output.buffer.readable_eq_nil_iff.mpr (taken.direct positive).2
    rw [taken.readable, idle, List.drop_length, List.append_nil]

/-- `drained` takes back the interest and queues the notification. -/
theorem drained_notifies (registered : x.IsRegistered)
    (callback : x.conn.hasWriteCompleteCallback = true) (ok : x.drained = .ok y) :
    y.loop.pendingFunctors = x.loop.pendingFunctors ++ [.writeComplete x.conn.id] ∧
      y.conn.hasWriteCompleteCallback = true ∧ y.conn.outputBuffer = x.conn.outputBuffer := by
  have kept : (x.withEvents fun events => events &&& ~~~kWriteEvent).conn.hasWriteCompleteCallback =
      true := callback
  simp only [drained, onChannel_disableWriting registered, Checked.ok_bind, Checked.pure_eq_ok,
    if_pos kept, Except.ok.injEq] at ok
  subst ok
  split
  · unfold shutdownInLoop
    split <;> exact ⟨rfl, callback, rfl⟩
  · exact ⟨rfl, callback, rfl⟩

theorem handleWrite_notifies (output : OutputInv x sent)
    (callback : x.conn.hasWriteCompleteCallback = true) {result : WriteResult}
    (ok : x.handleWrite result = .ok y) :
    y.conn.hasWriteCompleteCallback = true ∧
      y.loop.pendingFunctors = x.loop.pendingFunctors ++
        (if x.conn.outputBuffer.readable ≠ [] ∧ y.conn.outputBuffer.readable = [] then
          [.writeComplete x.conn.id] else []) := by
  unfold handleWrite at ok
  split at ok
  next writing =>
    have waiting : x.conn.outputBuffer.readable ≠ [] := output.interest.mp writing
    cases result with
    | failed errno =>
      cases ok
      refine ⟨callback, ?_⟩
      rw [if_neg (fun handed => waiting handed.2), List.append_nil]
      rfl
    | wrote n =>
      obtain ⟨after, wrote, inv', readable_eq⟩ := Buffer.writeFd_wrote_spec output.buffer n
      simp only [wrote, Checked.ok_bind] at ok
      have split_eq : x.conn.outputBuffer.readable.take n ++ after.readable =
          x.conn.outputBuffer.readable := by
        rw [readable_eq, List.take_append_drop]
      generalize x.conn.outputBuffer.readable.take n = taken at *
      split at ok
      next progress =>
        split at ok
        next done =>
          have registered : ((x.withOutput after).emit (.wrote taken)).IsRegistered :=
            output.registered
          obtain ⟨functors, kept, buffer⟩ := drained_notifies registered callback ok
          have empty : y.conn.outputBuffer.readable = [] := by
            rw [buffer]
            exact inv'.readable_eq_nil_iff.mpr done
          refine ⟨kept, ?_⟩
          rw [functors, if_pos ⟨waiting, empty⟩]
          rfl
        next some_left =>
          cases ok
          refine ⟨callback, ?_⟩
          rw [if_neg (fun handed => some_left (inv'.readable_eq_nil_iff.mp handed.2)),
            List.append_nil]
          rfl
      next stuck =>
        -- The kernel took nothing, so all that waited still waits.
        cases ok
        have none : taken = [] := List.eq_nil_of_length_eq_zero (by omega)
        rw [none, List.nil_append] at split_eq
        refine ⟨callback, ?_⟩
        rw [if_neg (fun handed => waiting (split_eq ▸ handed.2)), List.append_nil]
        rfl
  next idle =>
    cases ok
    refine ⟨callback, ?_⟩
    rw [if_neg (fun handed => handed.1 handed.2), List.append_nil]

theorem handleWrite_exact (flowing : x.Flowing sent) (result : WriteResult) :
    ∃ y, x.handleWrite result = .ok y ∧ y.Flowing sent ∧ x.Exact y (.handleWrite result) := by
  obtain ⟨y, ok, output, same_state, _, _⟩ := handleWrite_spec flowing.output result
  obtain ⟨callback, functors⟩ := handleWrite_notifies flowing.output flowing.callback ok
  refine ⟨y, ok, ⟨output, same_state.trans flowing.connected, callback⟩,
    exact_of_functors functors ?_ (fun handed => handed.2)⟩
  simp [HandsLast, Call.payload?]

theorem Established.flowing (fresh : x.Established)
    (callback : x.conn.hasWriteCompleteCallback = true) : x.Flowing [] := by
  obtain ⟨output, connected, _⟩ := fresh.start
  exact ⟨output, connected, callback⟩

end Session

namespace Call

/-- Step lemma: a call of the traffic returns, adds its payload to the stream and is exact. -/
theorem traffic_step {x : Session} {sent : List UInt8} (flowing : x.Flowing sent) {c : Call}
    (traffic : c.IsTraffic) (benign : c.Benign) :
    ∃ y, c.step x = .ok y ∧ y.Flowing (sent ++ accepted [c]) ∧ x.Exact y c := by
  cases c with
  | send data result =>
    obtain ⟨y, ok, flowing', precise⟩ :=
      Session.sendInLoop_exact flowing traffic benign (c := .send data result) rfl
    refine ⟨y, ?_, by simpa [accepted, payload?] using flowing', precise⟩
    simp only [step, Session.send, if_pos flowing.connected, ok]
  | sendInLoop data result =>
    obtain ⟨y, ok, flowing', precise⟩ :=
      Session.sendInLoop_exact flowing traffic benign (c := .sendInLoop data result) rfl
    exact ⟨y, ok, by simpa [accepted, payload?] using flowing', precise⟩
  | handleWrite result =>
    obtain ⟨y, ok, flowing', precise⟩ := Session.handleWrite_exact flowing result
    exact ⟨y, ok, by simpa [accepted, payload?] using flowing', precise⟩
  | _ => cases traffic

theorem accepted_append (xs ys : List Call) : accepted (xs ++ ys) = accepted xs ++ accepted ys := by
  simp [accepted]

/-- Run lemma: the connection keeps flowing. -/
theorem traffic_run {x : Session} {sent : List UInt8} (flowing : x.Flowing sent)
    (calls : List Call) (traffic : ∀ c ∈ calls, c.IsTraffic) (benign : ∀ c ∈ calls, c.Benign) :
    ∃ y, run step x calls = .ok y ∧ y.Flowing (sent ++ accepted calls) := by
  induction calls generalizing x sent with
  | nil => exact ⟨x, rfl, by simpa [accepted] using flowing⟩
  | cons c calls ih =>
    obtain ⟨y, ok, flowing', _⟩ := traffic_step flowing (traffic c (by simp)) (benign c (by simp))
    obtain ⟨z, ran, flowing''⟩ := ih flowing' (fun d member => traffic d (by simp [member]))
      (fun d member => benign d (by simp [member]))
    refine ⟨z, by rw [run_cons_ok calls ok, ran], ?_⟩
    rw [List.append_assoc, ← accepted_append, List.singleton_append] at flowing''
    exact flowing''

/-- **Write-complete notifications**: after any run of sends and writable events on an established
connection with the callback set, the next step queues a notification exactly if it hands over the
last outstanding byte, and nothing else comes to the functors. At that moment the kernel has every
byte of every payload so far. -/
theorem write_complete_exact {start : Session} (established : start.Established)
    (callback : start.conn.hasWriteCompleteCallback = true) (earlier : List Call) (c : Call)
    (traffic : ∀ d ∈ earlier ++ [c], d.IsTraffic) (benign : ∀ d ∈ earlier ++ [c], d.Benign) :
    ∃ x y, run step start earlier = .ok x ∧ c.step x = .ok y ∧
      (x.Notified y ↔ x.HandsLast y c) ∧
      (¬x.Notified y → y.loop.pendingFunctors = x.loop.pendingFunctors) ∧
      (x.Notified y → written y.trace = accepted (earlier ++ [c])) := by
  obtain ⟨x, ran, flowing⟩ := traffic_run (established.flowing callback) earlier
    (fun d member => traffic d (by simp [member])) (fun d member => benign d (by simp [member]))
  obtain ⟨y, ok, flowing', precise⟩ :=
    traffic_step flowing (traffic c (by simp)) (benign c (by simp))
  refine ⟨x, y, ran, ok, precise.notified_iff, precise.quiet, ?_⟩
  intro notified
  -- Nothing waits, so the stream is what was written.
  have integrity := flowing'.output.integrity
  rw [precise.empty notified, List.append_nil, List.nil_append, ← accepted_append] at integrity
  exact integrity

/-- A partial write, a send behind it, and the drain of both. -/
theorem sampleTraffic_notified :
    ∃ x y, run step sampleSession
        [.send [1, 2, 3] (.wrote 2), .send [4] (.failed EWOULDBLOCK), .handleWrite (.wrote 1)] =
          .ok x ∧
      step x (.handleWrite (.wrote 9)) = .ok y ∧
      (x.Notified y ↔ x.HandsLast y (.handleWrite (.wrote 9))) ∧
      (¬x.Notified y → y.loop.pendingFunctors = x.loop.pendingFunctors) ∧
      (x.Notified y → written y.trace = [1, 2, 3, 4]) :=
  write_complete_exact sampleSession_established rfl
    [.send [1, 2, 3] (.wrote 2), .send [4] (.failed EWOULDBLOCK), .handleWrite (.wrote 1)]
    (.handleWrite (.wrote 9)) (by decide) (by decide)

end Call

end Clia.Net
