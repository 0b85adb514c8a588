import Clia.Base
import Clia.Library.ListStore

/-!
# The network buffer

`net/buffer.cc`: a vector with two indices. The readable bytes lie between them; an append
stays in place, slides the readable bytes back to `kCheapPrepend`, or grows the vector.

Sums of `std::size_t` values are sums of `Nat`, which is exact while no sum wraps. Differences
are `sizeSub`, since a difference may go below zero.
-/

namespace Clia.Net

open ListStore

/-- What `::write` returns: it takes up to `n` of the bytes it is offered, or fails. -/
inductive WriteResult where
  | wrote (n : Nat)
  | failed (errno : Nat)
  deriving DecidableEq, Repr

/-- What `::readv` returns: the bytes it stored, no more than there is room for, or a failure. -/
inductive ReadResult where
  | received (bytes : List UInt8)
  | failed (errno : Nat)
  deriving DecidableEq, Repr

structure Buffer where
  buffer : List UInt8
  readerIndex : Nat
  writerIndex : Nat
  deriving DecidableEq, Repr

namespace Buffer

def kCheapPrepend : Nat := 8

def kInitialSize : Nat := 1024

/-- `sizeof(extrabuf)` in `read_fd`. -/
def kExtraSize : Nat := 65536

/-- The constructor. -/
def new (initialSize : Nat) : Buffer :=
  ⟨List.replicate (kCheapPrepend + initialSize) 0, kCheapPrepend, kCheapPrepend⟩

def readableBytes (b : Buffer) : Nat := sizeSub b.writerIndex b.readerIndex

def writableBytes (b : Buffer) : Nat := sizeSub b.buffer.length b.writerIndex

def prependableBytes (b : Buffer) : Nat := b.readerIndex

/-- The bytes `peek()[0 .. readable_bytes())`. -/
def readable (b : Buffer) : List UInt8 := slice b.buffer b.readerIndex b.writerIndex

def retrieveAll (b : Buffer) : Buffer :=
  { b with readerIndex := kCheapPrepend, writerIndex := kCheapPrepend }

def retrieve (b : Buffer) (len : Nat) : Except Fault Buffer := do
  cassert (len ≤ b.readableBytes) .lenReadable
  if len < b.readableBytes then
    return { b with readerIndex := b.readerIndex + len }
  else
    return b.retrieveAll

def retrieveAsString (b : Buffer) (len : Nat) : Except Fault (List UInt8 × Buffer) := do
  cassert (len ≤ b.readableBytes) .lenReadable
  let result := slice b.buffer b.readerIndex (b.readerIndex + len)
  let b ← b.retrieve len
  return (result, b)

def retrieveAllAsString (b : Buffer) : Except Fault (List UInt8 × Buffer) :=
  b.retrieveAsString b.readableBytes

/-- `std::vector::resize`: new elements are zero. -/
def resize (xs : List UInt8) (size : Nat) : List UInt8 :=
  xs.take size ++ List.replicate (size - xs.length) 0

/-- `std::copy` of outside bytes into the vector at `pos`. -/
def copyIn (xs : List UInt8) (pos : Nat) (data : List UInt8) : Except Fault (List UInt8) := do
  Checked.require (pos + data.length ≤ xs.length) Fault.outOfBounds
  return splice xs pos data

def makeSpace (b : Buffer) (len : Nat) : Except Fault Buffer := do
  if b.writableBytes + b.prependableBytes < len + kCheapPrepend then
    -- The slack before the reader would not do: grow, and leave the readable bytes where they are.
    return { b with buffer := resize b.buffer (b.writerIndex + len) }
  else
    cassert (kCheapPrepend < b.readerIndex) .readerPastPrepend
    Checked.require (b.writerIndex ≤ b.buffer.length) Fault.outOfBounds
    let readable := b.readableBytes
    -- The two ranges may overlap; the destination is the lower one, as `std::copy` demands.
    let moved : Buffer :=
      { buffer := copyWithin b.buffer b.readerIndex kCheapPrepend (b.writerIndex - b.readerIndex)
        readerIndex := kCheapPrepend
        writerIndex := kCheapPrepend + readable }
    cassert (readable = moved.readableBytes) .readableKept
    return moved

def ensureWritableBytes (b : Buffer) (len : Nat) : Except Fault Buffer := do
  let b ← if b.writableBytes < len then b.makeSpace len else pure b
  cassert (len ≤ b.writableBytes) .writableEnsured
  return b

def append (b : Buffer) (data : List UInt8) : Except Fault Buffer := do
  let b ← b.ensureWritableBytes data.length
  let filled ← copyIn b.buffer b.writerIndex data
  return { b with buffer := filled, writerIndex := b.writerIndex + data.length }

/-- The `readv` of `read_fd` with what follows from its result: the kernel fills the writable
part of the vector first and `extrabuf` with the rest, which is then appended. -/
def receive (b : Buffer) (result : ReadResult) : Except Fault (Int × Buffer) :=
  match result with
  | .failed _ => .ok (-1, b)
  | .received bytes => do
    let writable := b.writableBytes
    let taken := bytes.take (writable + kExtraSize)
    let filled ← copyIn b.buffer b.writerIndex (taken.take writable)
    -- `readv` has stored these bytes; the write position moves only now.
    let b := { b with buffer := filled }
    if taken.length ≤ writable then
      return (taken.length, { b with writerIndex := b.writerIndex + taken.length })
    else
      let b ← append { b with writerIndex := b.writerIndex + writable } (taken.drop writable)
      return (taken.length, b)

/-- `read_fd`: the assertion on the first `iovec`, the read, and the copy of the readable
bytes with a NUL into `extrabuf`. -/
def readFd (b : Buffer) (result : ReadResult) : Except Fault (Int × Buffer) := do
  cassert (0 < b.writableBytes) .iovecNonempty
  let (n, b) ← b.receive result
  Checked.require (b.readableBytes < kExtraSize) Fault.outOfBounds
  return (n, b)

/-- `write_fd`, with the bytes the kernel took. -/
def writeFd (b : Buffer) (result : WriteResult) : Except Fault (Int × List UInt8 × Buffer) :=
  match result with
  | .failed _ => .ok (-1, [], b)
  | .wrote n => do
    let taken := b.readable.take n
    let b ← b.retrieve taken.length
    return (taken.length, taken, b)

/-! ### The index invariant -/

/-- `kCheapPrepend <= reader_index_ <= writer_index_ <= buffer_.size()`. -/
structure Inv (b : Buffer) : Prop where
  prepend : kCheapPrepend ≤ b.readerIndex
  ordered : b.readerIndex ≤ b.writerIndex
  bounded : b.writerIndex ≤ b.buffer.length

theorem Inv.readableBytes_eq {b : Buffer} (inv : Inv b) :
    b.readableBytes = b.writerIndex - b.readerIndex := sizeSub_of_le inv.ordered

theorem Inv.writableBytes_eq {b : Buffer} (inv : Inv b) :
    b.writableBytes = b.buffer.length - b.writerIndex := sizeSub_of_le inv.bounded

theorem Inv.readable_length {b : Buffer} (inv : Inv b) :
    b.readable.length = b.readableBytes := by
  rw [readable, slice_length _ _ _ inv.bounded, inv.readableBytes_eq]

theorem Inv.readable_eq_nil_iff {b : Buffer} (inv : Inv b) :
    b.readable = [] ↔ b.readableBytes = 0 := by
  rw [← inv.readable_length, List.length_eq_zero_iff]

theorem inv_new (initialSize : Nat) : Inv (new initialSize) :=
  ⟨Nat.le_refl _, Nat.le_refl _, by simp [new]⟩

@[simp] theorem readable_new (initialSize : Nat) : (new initialSize).readable = [] :=
  slice_self _ _

/-- The three assertions of the constructor. -/
theorem new_asserts (initialSize : Nat) :
    (new initialSize).readableBytes = 0 ∧ (new initialSize).writableBytes = initialSize ∧
      (new initialSize).prependableBytes = kCheapPrepend := by
  refine ⟨?_, ?_, rfl⟩
  · rw [(inv_new initialSize).readableBytes_eq]
    simp [new]
  · rw [(inv_new initialSize).writableBytes_eq]
    simp [new]

/-! ### Retrieving -/

theorem inv_retrieveAll {b : Buffer} (inv : Inv b) : Inv b.retrieveAll :=
  ⟨Nat.le_refl _, Nat.le_refl _,
    Nat.le_trans inv.prepend (Nat.le_trans inv.ordered inv.bounded)⟩

@[simp] theorem readable_retrieveAll (b : Buffer) : b.retrieveAll.readable = [] :=
  slice_self _ _

theorem retrieve_spec {b : Buffer} (inv : Inv b) {len : Nat} (le : len ≤ b.readableBytes) :
    ∃ after, b.retrieve len = .ok after ∧ Inv after ∧ after.readable = b.readable.drop len := by
  have size := inv.readableBytes_eq
  have ordered := inv.ordered
  simp only [retrieve, cassert_pos _ le, Checked.ok_bind, Checked.pure_eq_ok]
  split
  next some_left =>
    refine ⟨_, rfl, ⟨Nat.le_trans inv.prepend (Nat.le_add_right _ _), ?_, inv.bounded⟩, ?_⟩
    · change b.readerIndex + len ≤ b.writerIndex
      omega
    · exact (drop_slice _ _ _ _).symm
  next none_left =>
    -- Everything goes, so both indices return to `kCheapPrepend`.
    refine ⟨_, rfl, inv_retrieveAll inv, ?_⟩
    rw [readable_retrieveAll, List.drop_of_length_le]
    rw [inv.readable_length]
    omega

theorem retrieveAsString_spec {b : Buffer} (inv : Inv b) {len : Nat}
    (le : len ≤ b.readableBytes) :
    ∃ after, b.retrieveAsString len = .ok (b.readable.take len, after) ∧ Inv after ∧
      after.readable = b.readable.drop len := by
  obtain ⟨after, retrieved, inv', rest⟩ := retrieve_spec inv le
  refine ⟨after, ?_, inv', rest⟩
  have within : b.readerIndex + len ≤ b.writerIndex := by
    have size := inv.readableBytes_eq
    have ordered := inv.ordered
    omega
  simp only [retrieveAsString, cassert_pos _ le, retrieved, Checked.ok_bind, Checked.pure_eq_ok]
  rw [readable, take_slice _ _ _ _ within]

/-! ### Making space -/

private theorem resize_eq_append (xs : List UInt8) (size : Nat) (grows : xs.length ≤ size) :
    resize xs size = xs ++ List.replicate (size - xs.length) 0 := by
  rw [resize, List.take_of_length_le grows]

/-- Growing keeps the indices, so it keeps the readable bytes. -/
private theorem grow_spec {b : Buffer} (inv : Inv b) {len : Nat}
    (short : b.writableBytes < len) :
    Inv { b with buffer := resize b.buffer (b.writerIndex + len) } ∧
      len ≤ writableBytes { b with buffer := resize b.buffer (b.writerIndex + len) } ∧
      readable { b with buffer := resize b.buffer (b.writerIndex + len) } = b.readable := by
  have room := inv.writableBytes_eq
  have bounded := inv.bounded
  have grows : b.buffer.length ≤ b.writerIndex + len := by omega
  have grown : (resize b.buffer (b.writerIndex + len)).length = b.writerIndex + len := by
    rw [resize_eq_append _ _ grows, List.length_append, List.length_replicate]
    omega
  have inv' : Inv { b with buffer := resize b.buffer (b.writerIndex + len) } := by
    refine ⟨inv.prepend, inv.ordered, ?_⟩
    simp only [grown]
    omega
  refine ⟨inv', ?_, ?_⟩
  · rw [inv'.writableBytes_eq]
    simp only [grown]
    omega
  · simp only [readable, resize_eq_append _ _ grows]
    exact slice_append_right _ _ _ _ bounded

/-- The slide is only taken with slack before the reader, and moves the readable bytes as
they were although source and destination may overlap. -/
private theorem slide_spec {b : Buffer} (inv : Inv b) {len : Nat}
    (short : b.writableBytes < len)
    (slack : ¬b.writableBytes + b.prependableBytes < len + kCheapPrepend) :
    ∃ after, b.makeSpace len = .ok after ∧ Inv after ∧ len ≤ after.writableBytes ∧
      after.readable = b.readable := by
  have room := inv.writableBytes_eq
  have size := inv.readableBytes_eq
  obtain ⟨prepend, ordered, bounded⟩ := inv
  simp only [prependableBytes] at slack
  -- Too little room behind the readable bytes, so the slack the test found lies before them.
  have past : kCheapPrepend < b.readerIndex := by omega
  have end_eq : b.readerIndex + (b.writerIndex - b.readerIndex) = b.writerIndex := by omega
  have copied : copyWithin b.buffer b.readerIndex kCheapPrepend (b.writerIndex - b.readerIndex) =
      splice b.buffer kCheapPrepend b.readable := by
    rw [copyWithin_eq_splice _ _ _ _ prepend (by omega), end_eq, readable]
  have len_eq : b.readable.length = b.readableBytes := Inv.readable_length ⟨prepend, ordered, bounded⟩
  have fits : kCheapPrepend + b.readable.length ≤ b.buffer.length := by omega
  have moved_length : (splice b.buffer kCheapPrepend b.readable).length = b.buffer.length :=
    splice_length _ _ _ fits
  have inv' : Inv ⟨splice b.buffer kCheapPrepend b.readable, kCheapPrepend,
      kCheapPrepend + b.readableBytes⟩ := by
    refine ⟨Nat.le_refl _, Nat.le_add_right _ _, ?_⟩
    simp only [moved_length]
    omega
  -- The second assertion of `make_space`.
  have kept : b.readableBytes = readableBytes ⟨splice b.buffer kCheapPrepend b.readable,
      kCheapPrepend, kCheapPrepend + b.readableBytes⟩ := by
    rw [inv'.readableBytes_eq]
    exact (Nat.add_sub_cancel_left _ _).symm
  refine ⟨_, ?_, inv', ?_, ?_⟩
  · simp only [makeSpace, prependableBytes, if_neg slack, cassert_pos _ past,
      Checked.require_pos _ bounded, Checked.ok_bind, copied, cassert_pos _ kept,
      Checked.pure_eq_ok]
  · rw [inv'.writableBytes_eq]
    simp only [moved_length]
    omega
  · simp only [readable]
    rw [← len_eq]
    exact slice_splice_same _ _ _ fits

theorem makeSpace_spec {b : Buffer} (inv : Inv b) {len : Nat} (short : b.writableBytes < len) :
    ∃ after, b.makeSpace len = .ok after ∧ Inv after ∧ len ≤ after.writableBytes ∧
      after.readable = b.readable := by
  by_cases slack : b.writableBytes + b.prependableBytes < len + kCheapPrepend
  · refine ⟨{ b with buffer := resize b.buffer (b.writerIndex + len) }, ?_, grow_spec inv short⟩
    simp only [makeSpace, if_pos slack, Checked.pure_eq_ok]
  · exact slide_spec inv short slack

theorem ensureWritableBytes_spec {b : Buffer} (inv : Inv b) (len : Nat) :
    ∃ after, b.ensureWritableBytes len = .ok after ∧ Inv after ∧ len ≤ after.writableBytes ∧
      after.readable = b.readable := by
  by_cases short : b.writableBytes < len
  · obtain ⟨after, made, inv', room, same⟩ := makeSpace_spec inv short
    refine ⟨after, ?_, inv', room, same⟩
    simp only [ensureWritableBytes, if_pos short, made, Checked.ok_bind, cassert_pos _ room,
      Checked.pure_eq_ok]
  · -- The room is there already.
    have room : len ≤ b.writableBytes := Nat.le_of_not_lt short
    refine ⟨b, ?_, inv, room, rfl⟩
    simp only [ensureWritableBytes, if_neg short, Checked.pure_eq_ok, Checked.ok_bind,
      cassert_pos _ room]

/-! ### Appending -/

/-- Bytes stored from the write position on become readable when it moves past them. -/
private theorem fill_spec {b : Buffer} (inv : Inv b) (data : List UInt8)
    (room : data.length ≤ b.writableBytes) :
    copyIn b.buffer b.writerIndex data = .ok (splice b.buffer b.writerIndex data) ∧
      Inv ⟨splice b.buffer b.writerIndex data, b.readerIndex, b.writerIndex + data.length⟩ ∧
      readable ⟨splice b.buffer b.writerIndex data, b.readerIndex,
        b.writerIndex + data.length⟩ = b.readable ++ data := by
  have space := inv.writableBytes_eq
  obtain ⟨prepend, ordered, bounded⟩ := inv
  have fits : b.writerIndex + data.length ≤ b.buffer.length := by omega
  have same_length := splice_length b.buffer b.writerIndex data fits
  refine ⟨?_, ⟨prepend, ?_, ?_⟩, ?_⟩
  · simp only [copyIn, Checked.require_pos _ fits, Checked.ok_bind, Checked.pure_eq_ok]
  · exact Nat.le_trans ordered (Nat.le_add_right _ _)
  · simp only [same_length]
    exact fits
  · simp only [readable]
    -- Up to the old write position the bytes are untouched, from there on they are `data`.
    rw [slice_split _ b.readerIndex b.writerIndex _ ordered (Nat.le_add_right _ _) (by omega),
      slice_splice_before _ _ _ _ _ fits (Nat.le_refl _), slice_splice_same _ _ _ fits]

theorem append_spec {b : Buffer} (inv : Inv b) (data : List UInt8) :
    ∃ after, b.append data = .ok after ∧ Inv after ∧ after.readable = b.readable ++ data := by
  obtain ⟨wide, ensured, inv', room, same⟩ := ensureWritableBytes_spec inv data.length
  obtain ⟨stored, inv'', readable_eq⟩ := fill_spec inv' data room
  refine ⟨_, ?_, inv'', by rw [readable_eq, same]⟩
  simp only [append, ensured, stored, Checked.ok_bind, Checked.pure_eq_ok]

/-! ### System calls -/

theorem writeFd_wrote_spec {b : Buffer} (inv : Inv b) (n : Nat) :
    ∃ after, b.writeFd (.wrote n) =
        .ok ((b.readable.take n).length, b.readable.take n, after) ∧
      Inv after ∧ after.readable = b.readable.drop n := by
  have le : (b.readable.take n).length ≤ b.readableBytes := by
    rw [← inv.readable_length, List.length_take]
    exact Nat.min_le_right _ _
  obtain ⟨after, retrieved, inv', rest⟩ := retrieve_spec inv le
  refine ⟨after, ?_, inv', ?_⟩
  · simp only [writeFd, retrieved, Checked.ok_bind, Checked.pure_eq_ok]
  · rw [rest, List.length_take]
    -- A result above the readable count is cut to it by `take`, and `drop` agrees.
    rcases Nat.le_total n b.readable.length with some_left | all
    · rw [Nat.min_eq_left some_left]
    · rw [Nat.min_eq_right all, List.drop_length, List.drop_of_length_le all]

theorem receive_spec {b : Buffer} (inv : Inv b) (bytes : List UInt8) :
    ∃ after, b.receive (.received bytes) =
        .ok ((bytes.take (b.writableBytes + kExtraSize)).length, after) ∧
      Inv after ∧
      after.readable = b.readable ++ bytes.take (b.writableBytes + kExtraSize) := by
  generalize taken_eq : bytes.take (b.writableBytes + kExtraSize) = taken
  have fits : (taken.take b.writableBytes).length ≤ b.writableBytes := by
    rw [List.length_take]
    exact Nat.min_le_left _ _
  obtain ⟨stored, inv', readable_eq⟩ := fill_spec inv (taken.take b.writableBytes) fits
  by_cases small : taken.length ≤ b.writableBytes
  · -- Everything fits the tail of the vector.
    rw [List.take_of_length_le small] at stored inv' readable_eq
    refine ⟨_, ?_, inv', readable_eq⟩
    simp only [receive, taken_eq, List.take_of_length_le small, stored, Checked.ok_bind,
      if_pos small, Checked.pure_eq_ok]
  · -- The tail of the vector is full; the rest comes from `extrabuf`.
    have full : (taken.take b.writableBytes).length = b.writableBytes := by
      rw [List.length_take]
      omega
    rw [full] at inv' readable_eq
    obtain ⟨after, appended, inv'', readable_eq'⟩ := append_spec inv' (taken.drop b.writableBytes)
    refine ⟨after, ?_, inv'', ?_⟩
    · simp only [receive, taken_eq, stored, Checked.ok_bind, if_neg small, appended,
        Checked.pure_eq_ok]
    · rw [readable_eq', readable_eq, List.append_assoc, List.take_append_drop]

end Buffer

end Clia.Net
