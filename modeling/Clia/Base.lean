import Clia.Library.Checked

/-!
# Faults and machine sizes

What can stop a modelled function, and the arithmetic of `std::size_t` where the source
relies on its wrap-around.
-/

namespace Clia

/-- The assertions of the source, by the expression they check. -/
inductive Assertion where
  /-- `FixedBuffer::append(value)`: `avail() > 0` -/
  | availPositive
  /-- `FixedBuffer::append(values, len)`: `len < avail()` -/
  | lenBelowAvail
  /-- `FixedBuffer::add`: `avail() > len` -/
  | availAboveLen
  /-- `CircularBuffer::push_back`: `!full()` -/
  | ringNotFull
  /-- `CircularBuffer::front`, `CircularBuffer::pop_front`: `!empty()` -/
  | ringNotEmpty
  /-- `Buffer::retrieve`, `Buffer::retrieve_as_string`: `len <= readable_bytes()` -/
  | lenReadable
  /-- `Buffer::ensure_writable_bytes`: `writable_bytes() >= len` -/
  | writableEnsured
  /-- `Buffer::make_space`: `kCheapPrepend < reader_index_` -/
  | readerPastPrepend
  /-- `Buffer::make_space`: `readable == readable_bytes()` -/
  | readableKept
  /-- `Buffer::read_fd`: `vec[0].iov_len > 0` -/
  | iovecNonempty
  /-- `Channel::remove`: `is_none_event()` -/
  | noneEvent
  /-- `EventLoop::remove_channel`: the channel is current or not active -/
  | notActive
  /-- `Epoller::update_channel`, new channel: no entry for its fd -/
  | entryAbsent
  /-- `Epoller::update_channel`, known channel: the entry for its fd is this channel -/
  | entryPresent
  /-- `Epoller::remove_channel`: the entry is this channel and it has no interest -/
  | removableEntry
  /-- `Epoller::remove_channel`: `index == kAdded || index == kDeleted` -/
  | removableIndex
  /-- `Epoller::fill_active_channels`: `num_events <= events_.size()` -/
  | eventsFit
  /-- `Epoller::fill_active_channels`: the entry for the reported channel's fd is this channel -/
  | activeEntry
  /-- `EventLoop::loop`: `!looping_` -/
  | notLooping
  /-- `TcpConnection::connect_established`: `kConnecting == state_` -/
  | connecting
  /-- `TcpConnection::handle_close`: `kConnected == state_ || kDisconnecting == state_` -/
  | closable
  /-- `TcpConnection::send_in_loop`: `remaining <= len` -/
  | remainingBounded
  /-- `TcpConnection::~TcpConnection`: `kDisconnected == state_` -/
  | disconnected
  /-- `InetAddress::get_ipaddr`: `sz > INET_ADDRSTRLEN`, `sz > INET6_ADDRSTRLEN` -/
  | addressFits
  /-- `TcpServer::new_connection`: no entry for `sockfd` -/
  | connectionAbsent
  /-- `TcpServer::remove_connection_in_loop`: the entry is this connection -/
  | connectionPresent
  /-- `tips_message`: `file != nullptr && line != -1 && func != nullptr` -/
  | siteGiven
  /-- `AsyncLogger::sync_thread`: `new_buffer1` is there and empty -/
  | spareOneEmpty
  /-- `AsyncLogger::sync_thread`: `new_buffer2` is there and empty -/
  | spareTwoEmpty
  /-- `AsyncLogger::sync_thread`: `write_buffers` is empty at the head of the loop -/
  | batchEmpty
  /-- `AsyncLogger::sync_thread`: `write_buffers` is not empty -/
  | batchNonempty
  deriving DecidableEq, Repr

/-- Why a step does not return. -/
inductive Fault where
  /-- The label is no step of the state: the thread it names is elsewhere in its code. -/
  | disabled
  | assertion (site : Assertion)
  /-- An access outside its vector or array. -/
  | outOfBounds
  | nullDereference
  | divideByZero
  /-- A call on an object after its destruction. -/
  | useAfterFree
  /-- Two threads are inside calls on one object, one of them writes, and no lock orders them. -/
  | dataRace
  deriving DecidableEq, Repr

/-- The `assert` of `<cassert>`. -/
def cassert (p : Prop) [Decidable p] (site : Assertion) : Except Fault Unit :=
  Checked.require p (.assertion site)

theorem cassert_pos {p : Prop} [Decidable p] (site : Assertion) (holds : p) :
    cassert p site = .ok () := Checked.require_pos _ holds

theorem cassert_neg {p : Prop} [Decidable p] (site : Assertion) (fails : ¬p) :
    cassert p site = .error (.assertion site) := Checked.require_neg _ fails

@[simp] theorem cassert_ok_iff {p : Prop} [Decidable p] {site : Assertion} {u : Unit} :
    cassert p site = .ok u ↔ p := Checked.require_ok_iff

/-! ### `std::size_t` -/

/-- `std::size_t` subtraction of object sizes: it wraps below zero. -/
def sizeSub (a b : Nat) : Nat :=
  if b ≤ a then a - b else a + UInt64.size - b

theorem sizeSub_of_le {a b : Nat} (le : b ≤ a) : sizeSub a b = a - b := if_pos le

/-- The conversion of an `int` to `std::size_t` in a mixed comparison: negative values wrap. -/
def toSizeT (n : Int) : Nat :=
  if 0 ≤ n then n.toNat else (n + UInt64.size).toNat

theorem toSizeT_of_nonneg {n : Int} (nonneg : 0 ≤ n) : toSizeT n = n.toNat := if_pos nonneg

end Clia
