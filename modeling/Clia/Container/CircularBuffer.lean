import Clia.Base
import Clia.Library.Ring

/-!
# The circular buffer

`container/circular_buffer.h`: a vector of fixed size with two indices that wrap around and a
count. The readable elements are a window of the ring.
-/

namespace Clia.Container

structure CircularBuffer (Tp : Type) where
  start : Nat
  end_ : Nat
  count : Nat
  buffer : List Tp
  deriving DecidableEq, Repr

namespace CircularBuffer

variable {Tp : Type}

/-- The constructor: the elements are value-initialised. -/
def new [Inhabited Tp] (initalSize : Nat) : CircularBuffer Tp :=
  ⟨0, 0, 0, List.replicate initalSize default⟩

def capacity (b : CircularBuffer Tp) : Nat := b.buffer.length

def empty (b : CircularBuffer Tp) : Bool := 0 == b.count

def full (b : CircularBuffer Tp) : Bool := b.capacity == b.count

/-- An index after its increment. -/
def advanced (b : CircularBuffer Tp) (index : Nat) : Nat :=
  if b.capacity = index + 1 then 0 else index + 1

def pushBack (b : CircularBuffer Tp) (val : Tp) : Except Fault (CircularBuffer Tp) := do
  cassert (b.full = false) .ringNotFull
  Checked.require (b.end_ < b.buffer.length) Fault.outOfBounds
  return { b with
    buffer := b.buffer.set b.end_ val
    end_ := b.advanced b.end_
    count := b.count + 1 }

def front (b : CircularBuffer Tp) : Except Fault Tp := do
  cassert (b.empty = false) .ringNotEmpty
  match b.buffer[b.start]? with
  | some val => return val
  | none => .error .outOfBounds

def popFront (b : CircularBuffer Tp) : Except Fault (CircularBuffer Tp) := do
  cassert (b.empty = false) .ringNotEmpty
  return { b with start := b.advanced b.start, count := b.count - 1 }

/-! ### The queue it holds -/

/-- The elements from the front on. -/
def contents (b : CircularBuffer Tp) : List Tp := Ring.window b.buffer b.start b.count

/-- The indices are inside, and `end_` lies `count` cells behind `start`. -/
structure Inv (b : CircularBuffer Tp) : Prop where
  inside : b.start < b.capacity
  counted : b.count ≤ b.capacity
  behind : b.end_ = (b.start + b.count) % b.capacity

theorem inv_new [Inhabited Tp] {initalSize : Nat} (positive : 0 < initalSize) :
    Inv (new initalSize : CircularBuffer Tp) := by
  have size : (new initalSize : CircularBuffer Tp).capacity = initalSize := List.length_replicate
  refine ⟨?_, ?_, ?_⟩
  · rw [size]
    exact positive
  · exact Nat.zero_le _
  · exact (Nat.zero_mod _).symm

@[simp] theorem contents_new [Inhabited Tp] (initalSize : Nat) :
    (new initalSize : CircularBuffer Tp).contents = [] := Ring.window_zero _ _

variable {b : CircularBuffer Tp}

theorem Inv.not_full_of_empty (inv : Inv b) (empty : b.empty = true) : b.full = false := by
  have inside := inv.inside
  simp only [CircularBuffer.empty, full, beq_iff_eq, beq_eq_false_iff_ne] at empty ⊢
  omega

/-- `push_back` with room adds at the end of the queue. -/
theorem pushBack_spec (inv : Inv b) (room : b.full = false) (val : Tp) :
    ∃ after, b.pushBack val = .ok after ∧ Inv after ∧ after.contents = b.contents ++ [val] := by
  have free : b.count < b.capacity := by
    have counted := inv.counted
    simp only [full, beq_eq_false_iff_ne] at room
    omega
  have cell : b.end_ < b.buffer.length := by
    rw [inv.behind]
    exact Nat.mod_lt _ (Nat.zero_lt_of_lt inv.inside)
  refine ⟨⟨b.start, b.advanced b.end_, b.count + 1, b.buffer.set b.end_ val⟩, ?_, ⟨?_, ?_, ?_⟩, ?_⟩
  · simp only [pushBack, cassert_pos _ room, Checked.require_pos _ cell, Checked.ok_bind,
      Checked.pure_eq_ok]
  · simpa [capacity] using inv.inside
  · simp only [capacity, List.length_set]
    exact free
  · -- The index goes on by one, around the end if need be.
    have next : b.advanced b.end_ = (b.end_ + 1) % b.capacity := Ring.next_eq cell
    simp only [capacity, List.length_set] at next ⊢
    rw [next, inv.behind, capacity, Nat.mod_add_mod, Nat.add_assoc]
  · simp only [contents, inv.behind, capacity]
    exact Ring.window_set free val

/-- `front` and `pop_front` of a queue that is not empty take its first element. -/
theorem popFront_spec (inv : Inv b) (filled : b.empty = false) :
    ∃ val after, b.front = .ok val ∧ b.popFront = .ok after ∧ Inv after ∧
      b.contents = val :: after.contents := by
  obtain ⟨inside, counted, behind⟩ := inv
  have some_left : 0 < b.count := by
    simp only [empty, beq_eq_false_iff_ne] at filled
    omega
  have first : b.buffer[b.start]? = some b.buffer[b.start] := List.getElem?_eq_getElem inside
  have next : b.advanced b.start = (b.start + 1) % b.capacity := Ring.next_eq inside
  refine ⟨b.buffer[b.start], ⟨b.advanced b.start, b.end_, b.count - 1, b.buffer⟩, ?_, ?_,
    ⟨?_, ?_, ?_⟩, ?_⟩
  · simp only [front, cassert_pos _ filled, first, Checked.ok_bind, Checked.pure_eq_ok]
  · simp only [popFront, cassert_pos _ filled, Checked.ok_bind, Checked.pure_eq_ok]
  · exact Ring.next_lt inside
  · exact Nat.le_trans (Nat.sub_le _ _) counted
  · change b.end_ = (b.advanced b.start + (b.count - 1)) % b.capacity
    rw [behind, next, Nat.mod_add_mod]
    congr 1
    omega
  · have one_more : b.count = (b.count - 1) + 1 := by omega
    rw [contents, one_more]
    exact Ring.window_next inside (by simp only [capacity] at counted; omega)

/-- On an empty queue both fail their assertion. -/
theorem front_empty (empty : b.empty = true) : b.front = .error (.assertion .ringNotEmpty) := by
  have fails : ¬b.empty = false := by simp [empty]
  simp only [front, cassert_neg _ fails, Checked.error_bind]

end CircularBuffer

end Clia.Container
