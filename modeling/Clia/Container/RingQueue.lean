import Clia.Container.CircularBuffer
import Clia.Library.LabelledRun

/-!
# The circular buffer is a queue

Calls of `container/circular_buffer.h` in any order, against the same calls on a plain queue. `resize`
hands the new size on to the vector and moves no element, so a queue that reaches the end of the old
vector does not survive it.

## Main results

`RingState.ring_refines_queue`: without `resize` the buffer is the queue.
`RingState.resize_keeps_queue_iff`: with it, exactly in the runs in which every `resize` leaves the
size as it is or finds all elements before the last cell of both vectors.
-/

namespace Clia.Container

open LabelledRun

/-- `resize`: the vector is cut off, or filled up with value-initialised elements. -/
def CircularBuffer.resize {Tp : Type} [Inhabited Tp] (b : CircularBuffer Tp) (newSize : Nat) :
    CircularBuffer Tp :=
  { b with buffer := b.buffer.take newSize ++ List.replicate (newSize - b.buffer.length) default }

inductive RingOp (Tp : Type) where
  | pushBack (val : Tp)
  | front
  | popFront
  deriving DecidableEq, Repr

/-- A buffer with the values that its `front` calls have returned. -/
structure RingState (Tp : Type) where
  ring : CircularBuffer Tp
  fronts : List Tp
  deriving DecidableEq, Repr

/-- A queue with the values that were seen at its front. -/
structure QueueState (Tp : Type) where
  queue : List Tp
  fronts : List Tp
  deriving DecidableEq, Repr

/-- The call on a queue. -/
def RingOp.onQueue {Tp : Type} (s : QueueState Tp) : RingOp Tp → QueueState Tp
  | .pushBack val => { s with queue := s.queue ++ [val] }
  | .front => { s with fronts := s.fronts ++ s.queue.head?.toList }
  | .popFront => { s with queue := s.queue.tail }

namespace RingState

variable {Tp : Type}

def start [Inhabited Tp] (capacity : Nat) : RingState Tp := ⟨CircularBuffer.new capacity, []⟩

def step (s : RingState Tp) : RingOp Tp → Except Fault (RingState Tp)
  | .pushBack val => do
    let ring ← s.ring.pushBack val
    return { s with ring := ring }
  | .front => do
    let val ← s.ring.front
    return { s with fronts := s.fronts ++ [val] }
  | .popFront => do
    let ring ← s.ring.popFront
    return { s with ring := ring }

/-- What the assertions ask for. -/
def Legal (s : RingState Tp) : RingOp Tp → Prop
  | .pushBack _ => s.ring.full = false
  | .front | .popFront => s.ring.empty = false

instance (s : RingState Tp) : (op : RingOp Tp) → Decidable (s.Legal op)
  | .pushBack _ => inferInstanceAs (Decidable (_ = _))
  | .front | .popFront => inferInstanceAs (Decidable (_ = _))

/-- The queue that the buffer stands for. -/
def abstract (s : RingState Tp) : QueueState Tp := ⟨s.ring.contents, s.fronts⟩

/-! ### One call -/

theorem pushBack_capacity {b after : CircularBuffer Tp} {val : Tp} (ok : b.pushBack val = .ok after) :
    after.capacity = b.capacity := by
  obtain ⟨_, _, ok⟩ := Checked.bind_ok_iff.mp ok
  obtain ⟨_, _, ok⟩ := Checked.bind_ok_iff.mp ok
  cases ok
  exact List.length_set

theorem popFront_capacity {b after : CircularBuffer Tp} (ok : b.popFront = .ok after) :
    after.capacity = b.capacity := by
  obtain ⟨_, _, ok⟩ := Checked.bind_ok_iff.mp ok
  cases ok
  rfl

/-- A legal call returns, keeps the indices right and the capacity, and does what it does on the
queue. -/
theorem step_refines {s : RingState Tp} (inv : s.ring.Inv) {op : RingOp Tp} (legal : s.Legal op) :
    ∃ t, s.step op = .ok t ∧ t.ring.Inv ∧ t.ring.capacity = s.ring.capacity ∧
      t.abstract = op.onQueue s.abstract := by
  cases op with
  | pushBack val =>
    obtain ⟨after, ok, inv', contents⟩ := CircularBuffer.pushBack_spec inv legal val
    refine ⟨⟨after, s.fronts⟩, ?_, inv', pushBack_capacity ok, ?_⟩
    · simp only [step, ok, Checked.ok_bind, Checked.pure_eq_ok]
    · simp only [abstract, RingOp.onQueue, contents]
  | front =>
    obtain ⟨val, after, ok, _, _, contents⟩ := CircularBuffer.popFront_spec inv legal
    refine ⟨⟨s.ring, s.fronts ++ [val]⟩, ?_, inv, rfl, ?_⟩
    · simp only [step, ok, Checked.ok_bind, Checked.pure_eq_ok]
    · simp only [abstract, RingOp.onQueue, contents, List.head?_cons, Option.toList_some]
  | popFront =>
    obtain ⟨val, after, _, ok, inv', contents⟩ := CircularBuffer.popFront_spec inv legal
    refine ⟨⟨after, s.fronts⟩, ?_, inv', popFront_capacity ok, ?_⟩
    · simp only [step, ok, Checked.ok_bind, Checked.pure_eq_ok]
    · simp only [abstract, RingOp.onQueue, contents, List.tail_cons]

/-! ### Runs without `resize` -/

theorem run_refines {s : RingState Tp} (inv : s.ring.Inv) {ops : List (RingOp Tp)}
    (legal : Along step Legal s ops) :
    ∃ t, run step s ops = .ok t ∧ t.ring.Inv ∧ t.ring.capacity = s.ring.capacity ∧
      t.abstract = ops.foldl RingOp.onQueue s.abstract := by
  induction ops generalizing s with
  | nil => exact ⟨s, rfl, inv, rfl, rfl⟩
  | cons op ops ih =>
    obtain ⟨u, taken, inv', size, queue⟩ := step_refines inv legal.1
    obtain ⟨t, ran, final, size', queue'⟩ := ih inv' (legal.2 u taken)
    refine ⟨t, by rw [run_cons_ok ops taken, ran], final, size'.trans size, ?_⟩
    rw [queue', queue, List.foldl_cons]

/-- **Refinement**: over every sequence of calls that meet their assertions, the indices stay inside
and agree with the count, and the elements from `start_` on, around the end, are the queue of the
values pushed and not yet popped. -/
theorem ring_refines_queue [Inhabited Tp] {capacity : Nat} (positive : 0 < capacity)
    (ops : List (RingOp Tp)) (legal : Along step Legal (start capacity) ops) :
    ∃ s, run step (start capacity) ops = .ok s ∧ s.ring.capacity = capacity ∧
      s.ring.start < capacity ∧ s.ring.end_ < capacity ∧ s.ring.count ≤ capacity ∧
      s.ring.end_ = (s.ring.start + s.ring.count) % capacity ∧
      (⟨s.ring.contents, s.fronts⟩ : QueueState Tp) = ops.foldl RingOp.onQueue ⟨[], []⟩ := by
  obtain ⟨s, ran, inv, size, queue⟩ := run_refines (CircularBuffer.inv_new positive) legal
  have same : s.ring.capacity = capacity := size.trans List.length_replicate
  obtain ⟨inside, counted, behind⟩ := inv
  rw [same] at inside counted behind
  refine ⟨s, ran, same, inside, ?_, counted, behind, queue⟩
  rw [behind]
  exact Nat.mod_lt _ positive

/-- Five calls on two cells, with a value around the end. -/
def aroundTheEnd : List (RingOp Nat) :=
  [.pushBack 5, .pushBack 6, .popFront, .pushBack 7, .front]

theorem aroundTheEnd_refines :
    ∃ s, run step (start 2) aroundTheEnd = .ok s ∧ s.ring.contents = [6, 7] ∧ s.fronts = [6] := by
  obtain ⟨s, ran, _, _, _, _, _, queue⟩ :=
    ring_refines_queue (by decide : 0 < 2) aroundTheEnd (by decide)
  have contents := congrArg QueueState.queue queue
  have fronts := congrArg QueueState.fronts queue
  exact ⟨s, ran, contents, fronts⟩

end RingState

/-! ### `resize` -/

namespace CircularBuffer

variable {Tp : Type} [Inhabited Tp] {b : CircularBuffer Tp}

theorem resize_capacity (b : CircularBuffer Tp) (newSize : Nat) :
    (b.resize newSize).capacity = newSize := by
  simp only [resize, capacity, List.length_append, List.length_take, List.length_replicate]
  omega

@[simp] theorem resize_start (b : CircularBuffer Tp) (newSize : Nat) :
    (b.resize newSize).start = b.start := rfl

@[simp] theorem resize_count (b : CircularBuffer Tp) (newSize : Nat) :
    (b.resize newSize).count = b.count := rfl

theorem resize_same (b : CircularBuffer Tp) : b.resize b.capacity = b := by
  simp [resize, capacity]

/-- An index less than two rounds away. -/
private theorem mod_of_lt_two_rounds {i size : Nat} (near : i < 2 * size) :
    i % size = if i < size then i else i - size := by
  split
  next inside => exact Nat.mod_eq_of_lt inside
  next outside => rw [Nat.mod_eq_sub_mod (by omega), Nat.mod_eq_of_lt (by omega)]

/-- The new size is the old one, or the elements end before the last cell of both vectors. -/
def FitsInPlace (b : CircularBuffer Tp) (newSize : Nat) : Prop :=
  newSize = b.capacity ∨ b.start + b.count < b.capacity ∧ b.start + b.count < newSize

instance (b : CircularBuffer Tp) (newSize : Nat) : Decidable (b.FitsInPlace newSize) :=
  inferInstanceAs (Decidable (_ ∨ _))

/-- The indices are right for the new size only then: `end_` was computed for the old one. -/
theorem fitsInPlace_of_inv (inv : Inv b) {newSize : Nat} (large : b.count ≤ newSize)
    (inv' : Inv (b.resize newSize)) : b.FitsInPlace newSize := by
  obtain ⟨inside, counted, behind⟩ := inv
  have inside' : b.start < newSize := (resize_capacity b newSize) ▸ inv'.inside
  have behind' : b.end_ = (b.start + b.count) % newSize :=
    (resize_capacity b newSize) ▸ inv'.behind
  rw [mod_of_lt_two_rounds (by omega)] at behind behind'
  unfold FitsInPlace
  split at behind <;> split at behind' <;> omega

theorem FitsInPlace.keeps (inv : Inv b) {newSize : Nat} (fits : b.FitsInPlace newSize) :
    Inv (b.resize newSize) ∧ (b.resize newSize).contents = b.contents := by
  rcases fits with rfl | ⟨old, new⟩
  · rw [resize_same]
    exact ⟨inv, rfl⟩
  have size := resize_capacity b newSize
  constructor
  · refine ⟨?_, ?_, ?_⟩
    · rw [size]
      exact Nat.lt_of_le_of_lt (Nat.le_add_right _ _) new
    · rw [size]
      exact Nat.le_of_lt (Nat.lt_of_le_of_lt (Nat.le_add_left _ _) new)
    · rw [size, resize_start, resize_count, Nat.mod_eq_of_lt new]
      exact inv.behind.trans (Nat.mod_eq_of_lt old)
  · -- No element is around the end, in the old vector or in the new one.
    simp only [capacity] at old size
    rw [contents, contents, resize_start, resize_count, Ring.window_straight (by omega),
      Ring.window_straight (Nat.le_of_lt old), resize,
      List.drop_append_of_le_length (by rw [List.length_take]; omega),
      List.take_append_of_le_length (by rw [List.length_drop, List.length_take]; omega),
      List.drop_take, List.take_take, Nat.min_eq_left (by omega)]

end CircularBuffer

/-! ### Runs with `resize` -/

inductive RingCall (Tp : Type) where
  | basic (op : RingOp Tp)
  | resize (newSize : Nat)
  deriving DecidableEq, Repr

namespace RingCall

variable {Tp : Type}

/-- The call on a queue: a change of the capacity leaves it alone. -/
def onQueue (s : QueueState Tp) : RingCall Tp → QueueState Tp
  | .basic op => op.onQueue s
  | .resize _ => s

def newCapacity (capacity : Nat) : RingCall Tp → Nat
  | .basic _ => capacity
  | .resize newSize => newSize

end RingCall

namespace RingState

variable {Tp : Type} [Inhabited Tp]

def call (s : RingState Tp) : RingCall Tp → Except Fault (RingState Tp)
  | .basic op => s.step op
  | .resize newSize => .ok { s with ring := s.ring.resize newSize }

/-- What the assertions ask for, and a new size with room for the elements. -/
def CallLegal (s : RingState Tp) : RingCall Tp → Prop
  | .basic op => s.Legal op
  | .resize newSize => s.ring.count ≤ newSize

instance (s : RingState Tp) : (c : RingCall Tp) → Decidable (s.CallLegal c)
  | .basic _ => inferInstanceAs (Decidable (Legal _ _))
  | .resize _ => inferInstanceAs (Decidable (_ ≤ _))

/-- The call does what it does on the queue, gives the capacity that it should, and leaves indices
that are right for it. -/
def KeepsQueue (s : RingState Tp) (c : RingCall Tp) : Prop :=
  ∃ t, s.call c = .ok t ∧ t.ring.Inv ∧ t.abstract = c.onQueue s.abstract ∧
    t.ring.capacity = c.newCapacity s.ring.capacity

def InPlace (s : RingState Tp) : RingCall Tp → Prop
  | .basic _ => True
  | .resize newSize => s.ring.FitsInPlace newSize

instance (s : RingState Tp) : (c : RingCall Tp) → Decidable (s.InPlace c)
  | .basic _ => isTrue trivial
  | .resize _ => inferInstanceAs (Decidable (CircularBuffer.FitsInPlace _ _))

theorem keepsQueue_iff {s : RingState Tp} (inv : s.ring.Inv) {c : RingCall Tp}
    (legal : s.CallLegal c) : s.KeepsQueue c ↔ s.InPlace c := by
  cases c with
  | basic op =>
    refine iff_of_true ?_ trivial
    obtain ⟨t, taken, inv', size, queue⟩ := step_refines inv legal
    exact ⟨t, taken, inv', queue, size⟩
  | resize newSize =>
    constructor
    · rintro ⟨t, taken, inv', _⟩
      cases taken
      exact CircularBuffer.fitsInPlace_of_inv inv legal inv'
    · intro fits
      obtain ⟨inv', contents⟩ := fits.keeps inv
      refine ⟨_, rfl, inv', ?_, CircularBuffer.resize_capacity _ _⟩
      simp only [abstract, contents, RingCall.onQueue]

/-- **`resize`**: over every sequence of calls that meet their assertions, with new sizes that have
room for the elements, all calls behave as on one queue in exactly the runs in which every `resize`
leaves the size as it is or finds the elements before the last cell of the old vector and of the new
one. -/
theorem resize_keeps_queue_iff {capacity : Nat} (positive : 0 < capacity) (calls : List (RingCall Tp))
    (legal : Along call CallLegal (start capacity) calls) :
    Along call KeepsQueue (start capacity) calls ↔ Along call InPlace (start capacity) calls := by
  apply along_congr (fun s => s.ring.Inv) _ _ (CircularBuffer.inv_new positive) legal
  · rintro s c t inv _ ⟨u, taken, inv', _⟩ taken'
    rw [taken] at taken'
    cases taken'
    exact inv'
  · intro s c inv legal
    exact keepsQueue_iff inv legal

/-- Room is made before the last cell is used. -/
def earlyResize : List (RingCall Nat) :=
  [.basic (.pushBack 5), .resize 4, .basic (.pushBack 6), .basic (.pushBack 7), .basic .popFront]

theorem earlyResize_keeps_queue : Along call KeepsQueue (start 2) earlyResize :=
  (resize_keeps_queue_iff (by decide) earlyResize (by decide)).mpr (by decide)

/-- Two cells, of which the second element is in the first. -/
def wrapped : List (RingCall Nat) :=
  [.basic (.pushBack 5), .basic (.pushBack 6), .basic .popFront, .basic (.pushBack 7)]

/-- With a third cell the queue `6, 7` becomes `6, 0`. -/
theorem wrapped_resize_loses_value : ¬Along call KeepsQueue (start 2) (wrapped ++ [.resize 3]) := by
  intro along
  have reached : run call (start 2) wrapped = .ok ⟨⟨1, 1, 2, [7, 6]⟩, []⟩ := rfl
  obtain ⟨t, taken, _, queue, _⟩ := along.at_step reached
  cases taken
  exact absurd queue (by decide)

end RingState

end Clia.Container
