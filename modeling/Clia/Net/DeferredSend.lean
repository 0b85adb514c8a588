import Clia.Net.OutputStream

/-!
# Sends from other threads

`TcpConnection::send` on a thread that is not the loop's binds the pointer it is given:
`send_in_loop` reads the payload when the loop runs the functor, and by then the caller may have
written to that memory. On the loop's own thread the payload is read at once.

`payload_kept_iff` says when the two paths agree.
-/

namespace Clia.Net

open Reactor LabelledRun

/-! ### The payload can be told from the result -/

theorem Buffer.append_injective {b c : Buffer} {data data' : List UInt8}
    (same : data.length = data'.length) (first : b.append data = .ok c)
    (second : b.append data' = .ok c) : data = data' := by
  obtain ⟨b₁, space, first⟩ := Checked.bind_ok_iff.mp first
  obtain ⟨b₂, space', second⟩ := Checked.bind_ok_iff.mp second
  rw [same, space'] at space
  cases space
  obtain ⟨filled, copied, first⟩ := Checked.bind_ok_iff.mp first
  obtain ⟨filled', copied', second⟩ := Checked.bind_ok_iff.mp second
  obtain ⟨_, fits, copied⟩ := Checked.bind_ok_iff.mp copied
  obtain ⟨_, fits', copied'⟩ := Checked.bind_ok_iff.mp copied'
  simp only [Checked.require_ok_iff] at fits fits'
  cases copied
  cases copied'
  cases first
  have buffers := congrArg Buffer.buffer (Except.ok.inj second)
  -- Both payloads are read back from the same place.
  rw [← ListStore.slice_splice_same _ _ data fits, ← ListStore.slice_splice_same _ _ data' fits',
    same]
  exact congrArg (fun buffer => ListStore.slice buffer _ _) buffers.symm

namespace Session

variable {x y : Session} {data data' : List UInt8} {result : WriteResult}

theorem onChannel_outputBuffer {call : Loop → ChannelPtr → Channel → Except Fault (Loop × Channel)}
    (ok : x.onChannel call = .ok y) :
    y.conn.outputBuffer = x.conn.outputBuffer ∧ y.trace = x.trace := by
  obtain ⟨_, _, ok⟩ := Checked.bind_ok_iff.mp ok
  cases ok
  exact ⟨rfl, rfl⟩

/-- What `queueRest` has appended is in the buffer of its result, and the trace is untouched. -/
theorem queueRest_inv {rest : List UInt8} (ok : x.queueRest rest = .ok y) :
    x.conn.outputBuffer.append rest = .ok y.conn.outputBuffer ∧ y.trace = x.trace := by
  obtain ⟨outputBuffer, appended, ok⟩ := Checked.bind_ok_iff.mp ok
  simp only at ok
  split at ok
  · obtain ⟨buffer, trace⟩ := onChannel_outputBuffer ok
    exact ⟨by rw [buffer]; exact appended, trace⟩
  · cases ok
    exact ⟨appended, rfl⟩

/-- The payload is not taken: the connection is down, or the direct write fails for good. -/
def GivesUp (x : Session) (result : WriteResult) : Prop :=
  x.conn.state = .kDisconnected ∨
    (x.conn.channel.isWriting = false ∧ x.conn.outputBuffer.readableBytes = 0 ∧ ¬result.Benign)

instance (x : Session) (result : WriteResult) : Decidable (x.GivesUp result) := by
  unfold GivesUp
  infer_instance

/-- Then nothing of it is seen in the result. -/
theorem sendInLoop_givesUp (givesUp : x.GivesUp result) (data : List UInt8) :
    x.sendInLoop data result = .ok x := by
  by_cases down : x.conn.state = .kDisconnected
  · simp [sendInLoop, down]
  · obtain ⟨quiet, empty, hard⟩ := givesUp.resolve_left down
    cases result with
    | wrote n => exact absurd trivial hard
    | failed errno =>
      have other : errno ≠ EWOULDBLOCK := hard
      simp [sendInLoop, down, quiet, empty, directWrite, other, ECONNRESET, cassert,
        Checked.require]

/-- Bytes wait already, or the direct write would block: the payload goes to the buffer. -/
theorem sendInLoop_buffered (alive : x.conn.state ≠ .kDisconnected)
    (buffered : x.conn.channel.isWriting = true ∨ x.conn.outputBuffer.readableBytes ≠ 0 ∨
      result = .failed EWOULDBLOCK) (data : List UInt8) :
    x.sendInLoop data result = if data.length > 0 then x.queueRest data else .ok x := by
  have attempt : (if !x.conn.channel.isWriting && x.conn.outputBuffer.readableBytes == 0 then
      x.directWrite data result else (x, 0, false)) = (x, 0, false) := by
    split
    next idle =>
      simp only [Bool.and_eq_true, Bool.not_eq_true', beq_iff_eq] at idle
      rcases buffered with writing | waiting | rfl
      · simp [idle.1] at writing
      · exact absurd idle.2 waiting
      · rfl
    next => rfl
  simp only [sendInLoop, if_neg alive, attempt, Nat.sub_zero, cassert_pos _ (Nat.le_refl data.length),
    Checked.ok_bind, Bool.not_false, Bool.true_and, decide_eq_true_eq, List.drop_zero,
    Checked.pure_eq_ok]

/-- Nothing waits, and the direct write takes a first part: the rest, if there is one, goes to the
buffer. -/
theorem sendInLoop_direct (alive : x.conn.state ≠ .kDisconnected)
    (quiet : x.conn.channel.isWriting = false) (empty : x.conn.outputBuffer.readableBytes = 0)
    {n : Nat} (ok : x.sendInLoop data (.wrote n) = .ok y) :
    y.trace = x.trace ++ [.wrote (data.take n)] ∧
      (n < data.length → x.conn.outputBuffer.append (data.drop n) = .ok y.conn.outputBuffer) := by
  simp only [sendInLoop, if_neg alive, quiet, empty, Bool.not_false, beq_self_eq_true,
    Bool.and_self, if_true, directWrite] at ok
  by_cases left : n < data.length
  · -- A partial write queues the rest behind nothing.
    have taken : (data.take n).length = n := by
      rw [List.length_take]
      omega
    have partly : ¬(data.length - n = 0 ∧ (x.emit (.wrote (data.take n))).conn.hasWriteCompleteCallback
        = true) := by omega
    simp only [taken, if_neg partly, cassert_pos _ (Nat.sub_le data.length n), Checked.ok_bind,
      Bool.not_false, Bool.true_and, decide_eq_true_eq] at ok
    rw [if_pos (by omega)] at ok
    obtain ⟨appended, trace⟩ := queueRest_inv ok
    exact ⟨trace, fun _ => appended⟩
  · have all : data.take n = data := List.take_of_length_le (by omega)
    refine ⟨?_, fun below => absurd below left⟩
    rw [all] at ok ⊢
    simp only [Nat.sub_self, true_and] at ok
    split at ok
    · simp only [Nat.sub_self, cassert_pos _ (Nat.zero_le data.length), Checked.ok_bind] at ok
      cases ok
      rfl
    · simp only [Nat.sub_self, cassert_pos _ (Nat.zero_le data.length), Checked.ok_bind] at ok
      cases ok
      rfl

/-- **Unless the payload is given up, the result determines it.** -/
theorem sendInLoop_injective (takes : ¬x.GivesUp result) (same : data.length = data'.length)
    (first : x.sendInLoop data result = .ok y) (second : x.sendInLoop data' result = .ok y) :
    data = data' := by
  simp only [GivesUp, not_or, not_and, not_not] at takes
  obtain ⟨alive, takes⟩ := takes
  by_cases idle : x.conn.channel.isWriting = false ∧ x.conn.outputBuffer.readableBytes = 0 ∧
      result ≠ .failed EWOULDBLOCK
  · obtain ⟨quiet, empty, served⟩ := idle
    cases result with
    | failed errno =>
      have benign : errno = EWOULDBLOCK := takes quiet empty
      exact absurd (by rw [benign]) served
    | wrote n =>
      obtain ⟨trace, rest⟩ := sendInLoop_direct alive quiet empty first
      obtain ⟨trace', rest'⟩ := sendInLoop_direct alive quiet empty second
      have taken : data.take n = data'.take n := by
        have eq := List.append_cancel_left (trace.symm.trans trace')
        simpa using eq
      by_cases left : n < data.length
      · have dropped : data.drop n = data'.drop n :=
          Buffer.append_injective (by simp [same]) (rest left) (rest' (same ▸ left))
        rw [← List.take_append_drop n data, taken, dropped, List.take_append_drop]
      · rwa [List.take_of_length_le (by omega), List.take_of_length_le (by omega)] at taken
  · have buffered : x.conn.channel.isWriting = true ∨ x.conn.outputBuffer.readableBytes ≠ 0 ∨
        result = .failed EWOULDBLOCK := by
      by_contra none
      simp only [not_or, Bool.not_eq_true, not_not] at none
      exact idle none
    rw [sendInLoop_buffered alive buffered] at first second
    by_cases some : data.length > 0
    · rw [if_pos some] at first
      rw [if_pos (same ▸ some)] at second
      exact Buffer.append_injective same (queueRest_inv first).1 (queueRest_inv second).1
    · have nil : data = [] := List.eq_nil_of_length_eq_zero (by omega)
      have nil' : data' = [] := List.eq_nil_of_length_eq_zero (by omega)
      rw [nil, nil']

end Session

/-! ### The system -/

/-- `len` bytes of the memory from `buf` on. -/
def bytesAt (memory : Nat → UInt8) (buf len : Nat) : List UInt8 :=
  (List.range len).map fun i => memory (buf + i)

theorem bytesAt_length (memory : Nat → UInt8) (buf len : Nat) :
    (bytesAt memory buf len).length = len := by
  simp [bytesAt]

/-- The functor `std::bind(&TcpConnection::send_in_loop, this, buf, len)`. `held` is history: what
the memory held when `send` was called. -/
structure BoundSend where
  buf : Nat
  len : Nat
  held : List UInt8
  deriving DecidableEq, Repr

/-- A connection on its loop, the memory of its callers, and their functors in the queue of the
loop. -/
structure Sends where
  session : Session
  memory : Nat → UInt8
  queue : List BoundSend

namespace Sends

inductive Event where
  /-- another thread calls `send` -/
  | send (buf len : Nat)
  /-- a caller writes to its memory -/
  | store (address : Nat) (byte : UInt8)
  /-- the loop runs the next functor of a `send` -/
  | runSend (result : WriteResult)
  /-- anything else that happens to the connection -/
  | call (c : Call)
  deriving DecidableEq, Repr

def step (s : Sends) : Event → Except Fault Sends
  | .send buf len =>
    if s.session.conn.state = .kConnected then
      .ok { s with queue := s.queue ++ [⟨buf, len, bytesAt s.memory buf len⟩] }
    else .ok s
  | .store address byte => .ok { s with memory := Function.update s.memory address byte }
  | .runSend result =>
    match s.queue with
    | [] => .error .disabled
    | functor :: rest => do
      -- The payload is read here.
      let session ← s.session.sendInLoop (bytesAt s.memory functor.buf functor.len) result
      return { s with session := session, queue := rest }
  | .call c => do
    let session ← c.step s.session
    return { s with session := session }

/-- What the functor does to the connection is what the loop's own thread would have done with the
bytes at the time of the call. -/
def PayloadKept (s : Sends) : Event → Prop
  | .runSend result => ∀ functor rest, s.queue = functor :: rest →
      s.session.sendInLoop (bytesAt s.memory functor.buf functor.len) result =
        s.session.sendInLoop functor.held result
  | _ => True

/-- When the functor runs, its memory holds what it held at the call; or the connection takes no
payload at all. -/
def MemoryKept (s : Sends) : Event → Prop
  | .runSend result => ∀ functor rest, s.queue = functor :: rest →
      s.session.GivesUp result ∨ bytesAt s.memory functor.buf functor.len = functor.held
  | _ => True

/-- Functors remember as many bytes as they will read. -/
def Inv (s : Sends) : Prop := ∀ functor ∈ s.queue, functor.held.length = functor.len

theorem inv_step {s t : Sends} {e : Event} (inv : Inv s) (taken : step s e = .ok t) : Inv t := by
  cases e with
  | send buf len =>
    simp only [step] at taken
    split at taken
    · cases taken
      intro functor member
      rcases List.mem_append.mp member with before | last
      · exact inv functor before
      · rw [List.mem_singleton.mp last]
        exact bytesAt_length s.memory buf len
    · cases taken
      exact inv
  | store address byte =>
    cases taken
    exact inv
  | runSend result =>
    simp only [step] at taken
    split at taken
    next => cases taken
    next functor rest queued =>
      obtain ⟨session, _, taken⟩ := Checked.bind_ok_iff.mp taken
      cases taken
      intro later member
      apply inv
      rw [queued]
      exact List.mem_cons_of_mem functor member
  | call c =>
    obtain ⟨session, _, taken⟩ := Checked.bind_ok_iff.mp taken
    cases taken
    exact inv

/-- One functor: the two conditions say the same. -/
theorem payloadKept_iff {s t : Sends} {e : Event} (inv : Inv s) (taken : step s e = .ok t) :
    PayloadKept s e ↔ MemoryKept s e := by
  cases e with
  | runSend result =>
    simp only [step] at taken
    split at taken
    next => cases taken
    next functor rest queued =>
      obtain ⟨session, sent, _⟩ := Checked.bind_ok_iff.mp taken
      have same : (bytesAt s.memory functor.buf functor.len).length = functor.held.length := by
        rw [bytesAt_length, inv functor (by simp [queued])]
      simp only [PayloadKept, MemoryKept, queued, List.cons.injEq, and_imp]
      constructor
      · rintro kept functor _ rfl rfl
        by_cases givesUp : s.session.GivesUp result
        · exact .inl givesUp
        · right
          have other := (kept _ _ rfl rfl).symm.trans sent
          exact Session.sendInLoop_injective givesUp same sent other
      · rintro kept functor _ rfl rfl
        rcases kept _ _ rfl rfl with givesUp | held
        · rw [Session.sendInLoop_givesUp givesUp, Session.sendInLoop_givesUp givesUp]
        · rw [held]
  | send buf len => exact Iff.rfl
  | store address byte => exact Iff.rfl
  | call c => exact Iff.rfl

/-- **The two paths agree** on the payloads of a run exactly if the memory of every `send` holds its
payload until the functor has run, unless the connection gives the payload up anyway. -/
theorem payload_kept_iff (x : Session) (memory : Nat → UInt8) (events : List Event) (s : Sends)
    (ran : run step ⟨x, memory, []⟩ events = .ok s) :
    Along step PayloadKept ⟨x, memory, []⟩ events ↔
      Along step MemoryKept ⟨x, memory, []⟩ events := by
  have initial : Inv ⟨x, memory, []⟩ := by
    intro functor member
    cases member
  apply along_congr Inv _ _ initial (along_taken ran)
  · intro s e t inv _ _ taken
    exact inv_step inv taken
  · rintro s e inv ⟨t, taken⟩
    exact payloadKept_iff inv taken

/-- A caller sends one byte. -/
def callerMemory : Nat → UInt8 := fun _ => 1

theorem unchanged_memory_kept :
    Along step PayloadKept ⟨Call.sampleSession, callerMemory, []⟩
      [.send 0 1, .store 5 9, .runSend (.wrote 1)] := by
  apply (payload_kept_iff Call.sampleSession callerMemory _ _ rfl).mpr
  refine ⟨trivial, ?_⟩
  rintro _ ⟨⟩
  refine ⟨trivial, ?_⟩
  rintro _ ⟨⟩
  refine ⟨?_, fun _ _ => trivial⟩
  rintro functor rest ⟨⟩
  right
  decide

/-- It writes to the memory after `send` has returned: the new byte is sent. -/
theorem reused_memory_sent :
    ¬∀ events : List Event, Along step PayloadKept ⟨Call.sampleSession, callerMemory, []⟩ events := by
  intro kept
  have along : Along step PayloadKept ⟨Call.sampleSession, callerMemory, []⟩
    ([.send 0 1, .store 0 7] ++ [.runSend (.wrote 1)]) := kept _
  have agree := along.at_step (show run step ⟨Call.sampleSession, callerMemory, []⟩
    [.send 0 1, .store 0 7] = .ok _ from rfl) ⟨0, 1, [1]⟩ [] rfl
  have traces := congrArg (fun sent => sent.toOption.map Session.trace) agree
  exact absurd traces (by decide)

end Sends

end Clia.Net
