import Clia.Net.BufferRefinement

/-!
# The input buffer of a connection

`handle_read` calls `read_fd` on `input_buffer_`, and the message callback retrieves from it as it
likes. Two things in `read_fd` depend on all that came before: the assertion that the vector has room
for the first `iovec`, and the copy of everything readable into `extrabuf` at its end.

## Main results

`Input.extrabuf_kept_iff`: the copy stays inside `extrabuf` in exactly the runs in which no read
brings the backlog to the size of `extrabuf`.

`Input.room_kept_iff`: the assertion holds in exactly the runs in which no read follows one that has
filled the vector to its end, unless everything was retrieved in between.
-/

namespace Clia.Net

open LabelledRun ListStore

namespace BufferOp

/-- The calls on an input buffer: `read_fd` and what takes bytes out. -/
def IsInput : BufferOp → Prop
  | .readFd _ | .retrieve _ | .retrieveAsString _ | .retrieveAll | .retrieveAllAsString => True
  | _ => False

instance (op : BufferOp) : Decidable op.IsInput := by
  cases op <;> unfold IsInput <;> infer_instance

end BufferOp

namespace Buffer

/-- The bytes that a `readv` stores. -/
def stored (b : Buffer) (bytes : List UInt8) : Nat :=
  min bytes.length (b.writableBytes + kExtraSize)

/-- The read leaves no room behind the write position: it ends exactly there, or what overflows
into `extrabuf` takes all the slack before the readable bytes, or more. -/
def Fills (b : Buffer) (bytes : List UInt8) : Prop :=
  b.stored bytes = b.writableBytes ∨
    b.writableBytes < b.stored bytes ∧
      b.readerIndex ≤ (b.stored bytes - b.writableBytes) + kCheapPrepend

instance (b : Buffer) (bytes : List UInt8) : Decidable (b.Fills bytes) := by
  unfold Fills
  infer_instance

/-! ### What a call leaves -/

/-- `read_fd` passes its assertion and its copy exactly when there is room for the first `iovec`
and the readable bytes leave a place for the NUL. -/
theorem readFd_ok_iff {b : Buffer} {result : ReadResult} {n : Int} {after : Buffer}
    (read : b.receive result = .ok (n, after)) :
    b.readFd result = .ok (n, after) ↔
      0 < b.writableBytes ∧ after.readableBytes + 1 ≤ kExtraSize := by
  simp only [readFd, Checked.bind_ok_iff, cassert_ok_iff, read]
  constructor
  · rintro ⟨_, room, m, got, _, inside, _⟩
    cases got
    exact ⟨room, Checked.require_ok_iff.mp inside⟩
  · rintro ⟨room, inside⟩
    exact ⟨(), room, (n, after), rfl, (), Checked.require_ok_iff.mpr inside, rfl⟩

theorem copyIn_ok_iff {xs filled : List UInt8} {pos : Nat} {data : List UInt8} :
    copyIn xs pos data = .ok filled ↔
      pos + data.length ≤ xs.length ∧ splice xs pos data = filled := by
  simp [copyIn, Checked.bind_ok_iff]

theorem retrieve_cases {b after : Buffer} {len : Nat} (retrieved : b.retrieve len = .ok after) :
    (len < b.readableBytes ∧ after = { b with readerIndex := b.readerIndex + len }) ∨
      (¬len < b.readableBytes ∧ after = b.retrieveAll) := by
  obtain ⟨_, _, retrieved⟩ := Checked.bind_ok_iff.mp retrieved
  by_cases some_left : len < b.readableBytes
  · left
    simp only [if_pos some_left, Checked.pure_eq_ok, Except.ok.injEq] at retrieved
    exact ⟨some_left, retrieved.symm⟩
  · right
    simp only [if_neg some_left, Checked.pure_eq_ok, Except.ok.injEq] at retrieved
    exact ⟨some_left, retrieved.symm⟩

theorem retrieveAsString_retrieves {b after : Buffer} {len : Nat} {taken : List UInt8}
    (retrieved : b.retrieveAsString len = .ok (taken, after)) : b.retrieve len = .ok after := by
  obtain ⟨_, _, rest⟩ := Checked.bind_ok_iff.mp retrieved
  obtain ⟨b', moved, same⟩ := Checked.bind_ok_iff.mp rest
  cases same
  exact moved

private theorem resize_length (xs : List UInt8) (size : Nat) : (resize xs size).length = size := by
  rw [resize, List.length_append, List.length_take, List.length_replicate]
  omega

/-- The two ways to make space, by their sizes. -/
theorem makeSpace_sizes {b after : Buffer} (inv : Inv b) {len : Nat}
    (made : b.makeSpace len = .ok after) :
    (b.writableBytes + b.readerIndex < len + kCheapPrepend ∧
        after.buffer.length = b.writerIndex + len ∧ after.writerIndex = b.writerIndex) ∨
      (len + kCheapPrepend ≤ b.writableBytes + b.readerIndex ∧
        after.buffer.length = b.buffer.length ∧
        after.writerIndex = kCheapPrepend + b.readableBytes) := by
  obtain ⟨prepend, ordered, bounded⟩ := inv
  by_cases short : b.writableBytes + b.prependableBytes < len + kCheapPrepend
  · left
    simp only [makeSpace, if_pos short, Checked.pure_eq_ok, Except.ok.injEq] at made
    subst made
    exact ⟨short, resize_length _ _, rfl⟩
  · right
    simp only [makeSpace, if_neg short, Checked.bind_ok_iff, Checked.pure_eq_ok] at made
    obtain ⟨_, _, _, _, _, _, same⟩ := made
    cases same
    apply And.intro (Nat.le_of_not_lt short)
    apply And.intro _ rfl
    -- The copy overwrites a part of the vector that lies inside it.
    have end_eq : b.readerIndex + (b.writerIndex - b.readerIndex) = b.writerIndex := by omega
    have size := slice_length b.buffer b.readerIndex b.writerIndex bounded
    rw [copyWithin_eq_splice _ _ _ _ prepend (by omega), end_eq]
    exact splice_length _ _ _ (by omega)

/-- An append to a vector that is full to its end. The vector grows to the exact size, or the
readable bytes slide down and leave what the slack has over the new bytes. -/
theorem append_full {b after : Buffer} (inv : Inv b) (full : b.writableBytes = 0)
    {data : List UInt8} (some_data : 0 < data.length) (appended : b.append data = .ok after) :
    b.buffer.length ≤ after.buffer.length ∧
      after.writableBytes = b.readerIndex - (data.length + kCheapPrepend) := by
  obtain ⟨whole, appended', inv_after, _⟩ := append_spec inv data
  obtain rfl : whole = after := Except.ok.inj (appended'.symm.trans appended)
  have short : b.writableBytes < data.length := by omega
  obtain ⟨wide, ensured, rest⟩ := Checked.bind_ok_iff.mp appended
  obtain ⟨filled, copied, same⟩ := Checked.bind_ok_iff.mp rest
  obtain ⟨fits, rfl⟩ := copyIn_ok_iff.mp copied
  cases same
  have filled_length := splice_length _ _ _ fits
  simp only [ensureWritableBytes, if_pos short, Checked.bind_ok_iff, Checked.pure_eq_ok] at ensured
  obtain ⟨_, made, _, _, same⟩ := ensured
  cases same
  have room := inv.writableBytes_eq
  have size := inv.readableBytes_eq
  have room_after := inv_after.writableBytes_eq
  simp only [filled_length] at room_after ⊢
  have sizes := makeSpace_sizes inv made
  obtain ⟨prepend, ordered, bounded⟩ := inv
  omega

/-- A read leaves the vector full to its end exactly when it is one that `Fills`. -/
theorem receive_room {b after : Buffer} (inv : Inv b) {bytes : List UInt8} {n : Int}
    (read : b.receive (.received bytes) = .ok (n, after)) :
    b.buffer.length ≤ after.buffer.length ∧ (after.writableBytes = 0 ↔ b.Fills bytes) := by
  obtain ⟨whole, read', inv_after, _⟩ := receive_spec inv bytes
  obtain rfl : whole = after := (Prod.mk.inj (Except.ok.inj (read'.symm.trans read))).2
  have stored_eq : (bytes.take (b.writableBytes + kExtraSize)).length = b.stored bytes := by
    rw [List.length_take, stored, Nat.min_comm]
  simp only [receive, Checked.bind_ok_iff] at read
  generalize bytes.take (b.writableBytes + kExtraSize) = taken at read stored_eq
  obtain ⟨filled, copied, read⟩ := read
  obtain ⟨fits, rfl⟩ := copyIn_ok_iff.mp copied
  have filled_length := splice_length _ _ _ fits
  have room := inv.writableBytes_eq
  have room_after := inv_after.writableBytes_eq
  by_cases small : taken.length ≤ b.writableBytes
  · -- Everything lies in the tail of the vector.
    simp only [if_pos small, Checked.pure_eq_ok] at read
    cases read
    simp only [filled_length] at room_after ⊢
    apply And.intro (Nat.le_refl _)
    rw [room_after, Fills]
    have bounded := inv.bounded
    omega
  · -- The tail of the vector is full, and the rest is appended to it.
    simp only [if_neg small, Checked.bind_ok_iff, Checked.pure_eq_ok] at read
    obtain ⟨_, appended, same⟩ := read
    cases same
    have inv_full : Inv ⟨splice b.buffer b.writerIndex (taken.take b.writableBytes),
        b.readerIndex, b.writerIndex + b.writableBytes⟩ := by
      constructor
      · exact inv.prepend
      · exact Nat.le_trans inv.ordered (Nat.le_add_right _ _)
      · simp only [filled_length]
        have bounded := inv.bounded
        omega
    have full : writableBytes ⟨splice b.buffer b.writerIndex (taken.take b.writableBytes),
        b.readerIndex, b.writerIndex + b.writableBytes⟩ = 0 := by
      rw [inv_full.writableBytes_eq]
      simp only [filled_length]
      omega
    have rest_length : (taken.drop b.writableBytes).length = b.stored bytes - b.writableBytes := by
      rw [List.length_drop, stored_eq]
    obtain ⟨grown, left⟩ := append_full inv_full full (by omega) appended
    simp only [filled_length] at grown left
    apply And.intro grown
    rw [left, Fills, rest_length]
    omega

end Buffer

/-- `input_buffer_`. `filled` records that a read has filled the vector to its end, and not all has
been retrieved since. -/
structure Input where
  buffer : Buffer
  filled : Bool
  deriving DecidableEq, Repr

namespace Input

def start : Input := ⟨Buffer.new Buffer.kInitialSize, false⟩

/-- Whether the vector is full to its end after the call. -/
def fills (s : Input) : BufferOp → Bool
  | .readFd (.received bytes) => decide (s.buffer.Fills bytes)
  | .retrieve len | .retrieveAsString len => decide (len < s.buffer.readableBytes) && s.filled
  | .retrieveAll | .retrieveAllAsString => false
  | _ => s.filled

def step (s : Input) (op : BufferOp) : Except Fault Input := do
  Checked.require op.IsInput Fault.disabled
  let (_, buffer) ← op.apply s.buffer
  return ⟨buffer, s.fills op⟩

/-- The copy at the end of `read_fd`, all readable bytes and a NUL, stays inside `extrabuf`. -/
def ExtrabufKept (s : Input) : BufferOp → Prop
  | .readFd result => ∀ n after, s.buffer.receive result = .ok (n, after) →
    after.readableBytes + 1 ≤ Buffer.kExtraSize
  | _ => True

/-- What is unread and what the read stores are less than the size of `extrabuf`. -/
def BacklogSmall (s : Input) : BufferOp → Prop
  | .readFd (.received bytes) =>
    s.buffer.readableBytes + s.buffer.stored bytes < Buffer.kExtraSize
  | _ => True

/-- The assertion at the head of `read_fd`. -/
def RoomKept (s : Input) : BufferOp → Prop
  | .readFd _ => 0 < s.buffer.writableBytes
  | _ => True

/-- The read does not come behind one that has filled the vector. -/
def NotFilled (s : Input) : BufferOp → Prop
  | .readFd _ => s.filled = false
  | _ => True

/-- What a call does to the buffer and the record. -/
theorem step_cases {s t : Input} {op : BufferOp} (taken : s.step op = .ok t) :
    (∃ bytes n, op = .readFd (.received bytes) ∧
        s.buffer.receive (.received bytes) = .ok (n, t.buffer) ∧
        t.filled = decide (s.buffer.Fills bytes)) ∨
      (∃ len, len < s.buffer.readableBytes ∧
        t = ⟨{ s.buffer with readerIndex := s.buffer.readerIndex + len }, s.filled⟩) ∨
      t = ⟨s.buffer.retrieveAll, false⟩ ∨ t = s := by
  obtain ⟨_, input, rest⟩ := Checked.bind_ok_iff.mp taken
  obtain ⟨⟨results, after⟩, applied, same⟩ := Checked.bind_ok_iff.mp rest
  obtain rfl : ⟨after, s.fills op⟩ = t := Except.ok.inj same
  -- The four ways to retrieve come down to `retrieve` and `retrieve_all`.
  have retrieved : ∀ len, s.buffer.retrieve len = .ok after →
      s.fills op = (decide (len < s.buffer.readableBytes) && s.filled) →
      (∃ len, len < s.buffer.readableBytes ∧ (⟨after, s.fills op⟩ : Input) =
        ⟨{ s.buffer with readerIndex := s.buffer.readerIndex + len }, s.filled⟩) ∨
      (⟨after, s.fills op⟩ : Input) = ⟨s.buffer.retrieveAll, false⟩ := by
    intro len moved record
    rcases Buffer.retrieve_cases moved with ⟨some_left, rfl⟩ | ⟨none_left, rfl⟩
    · left
      exact ⟨len, some_left, by simp [record, some_left]⟩
    · right
      simp [record, none_left]
  cases op with
  | readFd result =>
    obtain ⟨⟨n, b⟩, read, same⟩ := Checked.bind_ok_iff.mp applied
    cases same
    cases result with
    | received bytes => exact Or.inl ⟨bytes, n, rfl, read, rfl⟩
    | failed errno =>
      cases read
      exact Or.inr (Or.inr (Or.inr rfl))
  | retrieve len =>
    obtain ⟨b, moved, same⟩ := Checked.bind_ok_iff.mp applied
    cases same
    rcases retrieved len moved rfl with some_left | none_left
    · exact Or.inr (Or.inl some_left)
    · exact Or.inr (Or.inr (Or.inl none_left))
  | retrieveAsString len =>
    obtain ⟨⟨_, b⟩, moved, same⟩ := Checked.bind_ok_iff.mp applied
    cases same
    rcases retrieved len (Buffer.retrieveAsString_retrieves moved) rfl with some_left | none_left
    · exact Or.inr (Or.inl some_left)
    · exact Or.inr (Or.inr (Or.inl none_left))
  | retrieveAll =>
    cases applied
    exact Or.inr (Or.inr (Or.inl rfl))
  | retrieveAllAsString =>
    obtain ⟨⟨_, b⟩, moved, same⟩ := Checked.bind_ok_iff.mp applied
    cases same
    have record : s.fills .retrieveAllAsString =
        (decide (s.buffer.readableBytes < s.buffer.readableBytes) && s.filled) := by
      simp [fills]
    rcases retrieved _ (Buffer.retrieveAsString_retrieves moved) record with some_left | none_left
    · exact Or.inr (Or.inl some_left)
    · exact Or.inr (Or.inr (Or.inl none_left))
  | append data => exact absurd (Checked.require_ok_iff.mp input) id
  | ensureWritableBytes len => exact absurd (Checked.require_ok_iff.mp input) id
  | writeFd result => exact absurd (Checked.require_ok_iff.mp input) id

/-- Every call on an input buffer keeps the index invariant. -/
theorem step_inv {s t : Input} {op : BufferOp} (inv : s.buffer.Inv) (taken : s.step op = .ok t) :
    t.buffer.Inv := by
  rcases step_cases taken with ⟨bytes, n, rfl, read, _⟩ | ⟨len, some_left, rfl⟩ | rfl | rfl
  · obtain ⟨after, read', inv', _⟩ := Buffer.receive_spec inv bytes
    rw [read'] at read
    cases read
    exact inv'
  · have size := inv.readableBytes_eq
    have ordered := inv.ordered
    constructor
    · exact Nat.le_trans inv.prepend (Nat.le_add_right _ _)
    · simp only
      omega
    · exact inv.bounded
  · exact Buffer.inv_retrieveAll inv
  · exact inv

/-! ### The copy into `extrabuf` -/

/-- The bytes readable after a read. -/
theorem receive_readableBytes {b after : Buffer} (inv : b.Inv) {bytes : List UInt8} {n : Int}
    (read : b.receive (.received bytes) = .ok (n, after)) :
    after.readableBytes = b.readableBytes + b.stored bytes := by
  obtain ⟨whole, read', inv', readable_eq⟩ := Buffer.receive_spec inv bytes
  obtain rfl : whole = after := (Prod.mk.inj (Except.ok.inj (read'.symm.trans read))).2
  rw [← inv'.readable_length, readable_eq, List.length_append, inv.readable_length,
    List.length_take, Buffer.stored, Nat.min_comm]

structure Copies (s : Input) : Prop where
  inv : s.buffer.Inv
  inside : s.buffer.readableBytes < Buffer.kExtraSize

theorem copies_start : Copies start := by
  constructor
  · exact Buffer.inv_new _
  · rw [show start.buffer.readableBytes = 0 from (Buffer.new_asserts _).1]
    decide

theorem step_copies {s t : Input} {op : BufferOp} (copies : Copies s) (kept : s.ExtrabufKept op)
    (taken : s.step op = .ok t) : Copies t := by
  have inv' := step_inv copies.inv taken
  apply Copies.mk inv'
  have inside := copies.inside
  rcases step_cases taken with ⟨bytes, n, rfl, read, _⟩ | ⟨len, some_left, rfl⟩ | rfl | rfl
  · exact kept n t.buffer read
  · have size := copies.inv.readableBytes_eq
    rw [inv'.readableBytes_eq]
    simp only
    omega
  · rw [inv'.readableBytes_eq]
    simp only [Buffer.retrieveAll]
    omega
  · exact inside

theorem extrabufKept_iff {s : Input} (copies : Copies s) (op : BufferOp) :
    s.ExtrabufKept op ↔ s.BacklogSmall op := by
  cases op with
  | readFd result =>
    cases result with
    | failed errno =>
      -- Nothing was read, and what is copied is what was copied before.
      simp only [ExtrabufKept, BacklogSmall, Buffer.receive, Except.ok.injEq, iff_true]
      rintro n after same
      cases same
      exact copies.inside
    | received bytes =>
      obtain ⟨after, read, _⟩ := Buffer.receive_spec copies.inv bytes
      have size := receive_readableBytes copies.inv read
      simp only [ExtrabufKept, BacklogSmall]
      constructor
      · intro kept
        have fits := kept _ after read
        omega
      · intro small n after' read'
        have size' := receive_readableBytes copies.inv read'
        omega
  | _ => exact Iff.rfl

/-- **The copy into `extrabuf`**: it stays inside in exactly the runs in which, at every read,
what is unread and what the read stores are less than the 65536 bytes. -/
theorem extrabuf_kept_iff (ops : List BufferOp) :
    Along step ExtrabufKept start ops ↔ Along step BacklogSmall start ops := by
  apply along_iff Copies _ _ copies_start
  · intro s op t copies kept taken
    exact step_copies copies kept taken
  · intro s op copies
    exact extrabufKept_iff copies op

/-- A first read of 65536 bytes, 1024 of them into the vector: the NUL goes behind the array. -/
theorem extrabuf_overrun :
    ¬Along step ExtrabufKept start [.readFd (.received (List.replicate 65536 0))] := by
  rintro ⟨kept, _⟩
  have small := (extrabufKept_iff copies_start _).mp kept
  have room : start.buffer.writableBytes = 1024 := (Buffer.new_asserts _).2.1
  simp only [BacklogSmall, Buffer.stored, List.length_replicate, room, Buffer.kExtraSize] at small
  omega

/-! ### The assertion on the first `iovec` -/

/-- The record is right, and the vector is longer than its prependable part. -/
structure Recorded (s : Input) : Prop where
  inv : s.buffer.Inv
  long : Buffer.kCheapPrepend < s.buffer.buffer.length
  record : s.buffer.writableBytes = 0 ↔ s.filled = true

theorem recorded_start : Recorded start := by
  constructor
  · exact Buffer.inv_new _
  · simp [start, Buffer.new, Buffer.kInitialSize]
  · rw [show start.buffer.writableBytes = 1024 from (Buffer.new_asserts _).2.1]
    simp [start]

theorem step_recorded {s t : Input} {op : BufferOp} (recorded : Recorded s)
    (taken : s.step op = .ok t) : Recorded t := by
  have inv' := step_inv recorded.inv taken
  have long := recorded.long
  rcases step_cases taken with ⟨bytes, n, rfl, read, record⟩ | ⟨len, some_left, rfl⟩ | rfl | rfl
  · obtain ⟨longer, full⟩ := Buffer.receive_room recorded.inv read
    exact ⟨inv', Nat.lt_of_lt_of_le long longer, by rw [full, record, decide_eq_true_iff]⟩
  · -- A retrieve that leaves something moves the reader only.
    exact ⟨inv', long, recorded.record⟩
  · -- Behind the prependable part there is room again.
    apply Recorded.mk inv' long
    apply iff_of_false _ Bool.false_ne_true
    rw [inv'.writableBytes_eq]
    simp only [Buffer.retrieveAll]
    omega
  · exact recorded

theorem roomKept_iff {s : Input} (recorded : Recorded s) (op : BufferOp) :
    s.RoomKept op ↔ s.NotFilled op := by
  cases op with
  | readFd result =>
    simp only [RoomKept, NotFilled]
    rw [Nat.pos_iff_ne_zero, ne_eq, recorded.record, Bool.not_eq_true]
  | _ => exact Iff.rfl

/-- **Room for the first `iovec`**: the assertion at the head of `read_fd` holds in exactly the
runs in which no `read_fd` comes behind a read that has filled the vector to its end, unless
everything was retrieved in between. -/
theorem room_kept_iff (ops : List BufferOp) :
    Along step RoomKept start ops ↔ Along step NotFilled start ops := by
  apply along_iff Recorded _ _ recorded_start
  · intro s op t recorded _ taken
    exact step_recorded recorded taken
  · intro s op recorded
    exact roomKept_iff recorded op

/-- A read of 1024 bytes, none of which is retrieved, and another read. -/
theorem full_before_read :
    ¬Along step RoomKept start
      [.readFd (.received (List.replicate 1024 0)), .readFd (.received [])] := by
  rintro ⟨_, later⟩
  obtain ⟨after, read, _⟩ :=
    Buffer.receive_spec recorded_start.inv (List.replicate 1024 0)
  have taken : start.step (.readFd (.received (List.replicate 1024 0))) = .ok ⟨after, true⟩ := by
    have room : start.buffer.writableBytes = 1024 := (Buffer.new_asserts _).2.1
    have filled : start.buffer.Fills (List.replicate 1024 0) := by
      left
      rw [Buffer.stored, List.length_replicate, room]
      rfl
    have input : (BufferOp.readFd (.received (List.replicate 1024 0))).IsInput := trivial
    simp only [step, Checked.require_pos _ input, BufferOp.apply, read, Checked.ok_bind, fills,
      decide_eq_true filled, Checked.pure_eq_ok]
  have recorded := step_recorded recorded_start taken
  have room : 0 < after.writableBytes := (later _ taken).1
  have full : after.writableBytes = 0 := recorded.record.mpr rfl
  omega

/-! ### `read_fd` as a whole -/

/-- In a run that keeps to both conditions `read_fd` raises nothing. -/
theorem readFd_passes {ops rest : List BufferOp} {result : ReadResult} {s : Input}
    (apart : Along step NotFilled start (ops ++ .readFd result :: rest))
    (small : Along step BacklogSmall start (ops ++ .readFd result :: rest))
    (reached : run step start ops = .ok s) :
    ∃ n after, s.buffer.readFd result = .ok (n, after) := by
  have recorded : Recorded s :=
    run_invariant (fun _ _ _ recorded taken => step_recorded recorded taken) recorded_start reached
  have copies : Copies s := by
    apply run_invariant_along _ copies_start small.of_append reached
    intro u op t copies small taken
    exact step_copies copies ((extrabufKept_iff copies op).mpr small) taken
  have room : 0 < s.buffer.writableBytes :=
    (roomKept_iff recorded (.readFd result)).mpr (apart.at_step reached)
  have inside := (extrabufKept_iff copies (.readFd result)).mpr (small.at_step reached)
  have read : ∃ n after, s.buffer.receive result = .ok (n, after) := by
    cases result with
    | failed errno => exact ⟨_, _, rfl⟩
    | received bytes =>
      obtain ⟨after, read, _⟩ := Buffer.receive_spec copies.inv bytes
      exact ⟨_, after, read⟩
  obtain ⟨n, after, read⟩ := read
  exact ⟨n, after, (Buffer.readFd_ok_iff read).mpr ⟨room, inside n after read⟩⟩

end Input

end Clia.Net
