import Clia.Base
import Mathlib.Logic.Function.Basic
import Mathlib.Data.List.Basic

/-!
# The fixed buffer

`container/fixed_buffer.h`: an array of `Nm` elements with a write position. The only guards
are assertions, two of which leave one element unused.
-/

namespace Clia.Container

/-- `std::is_arithmetic`, which selects between the two bodies of `FixedBuffer::append`. -/
class IsArithmetic (Tp : Type) where
  value : Bool

instance : IsArithmetic UInt8 := ⟨true⟩

/-- `data` is the memory from `data_` on, of which `Nm` elements belong to the buffer; `cur`
is the distance of `cur_` from `data_`. -/
structure FixedBuffer (Tp : Type) (Nm : Nat) where
  data : Nat → Tp
  cur : Nat

/-- `std::copy` of a range to the address `pos`. -/
def store {Tp : Type} (data : Nat → Tp) (pos : Nat) : List Tp → Nat → Tp
  | [] => data
  | value :: values => store (Function.update data pos value) (pos + 1) values

namespace FixedBuffer

variable {Tp : Type} {Nm : Nat}

/-- The constructor: the elements are left as the memory has them. -/
def new (Nm : Nat) (memory : Nat → Tp) : FixedBuffer Tp Nm := ⟨memory, 0⟩

def reset (b : FixedBuffer Tp Nm) : FixedBuffer Tp Nm := { b with cur := 0 }

def size (b : FixedBuffer Tp Nm) : Int := b.cur

def avail (b : FixedBuffer Tp Nm) : Int := (Nm : Int) - b.cur

def maxSize (_ : FixedBuffer Tp Nm) : Nat := Nm

def add (b : FixedBuffer Tp Nm) (len : Nat) : Except Fault (FixedBuffer Tp Nm) := do
  -- `avail()` is an `int` and `len` a `std::size_t`, so the comparison converts.
  cassert (toSizeT b.avail > len) .availAboveLen
  return { b with cur := b.cur + len }

/-- `append(value)`. -/
def appendOne (b : FixedBuffer Tp Nm) (value : Tp) : Except Fault (FixedBuffer Tp Nm) := do
  cassert (b.avail > 0) .availPositive
  add { b with data := Function.update b.data b.cur value } 1

/-- `append(values, len)`. -/
def append [IsArithmetic Tp] (b : FixedBuffer Tp Nm) (values : List Tp) :
    Except Fault (FixedBuffer Tp Nm) := do
  cassert (values.length < toSizeT b.avail) .lenBelowAvail
  -- Arithmetic elements are copied as a block, others one by one.
  if IsArithmetic.value Tp then
    add { b with data := store b.data b.cur values } values.length
  else
    values.foldlM appendOne b

/-- `data()[0 .. size())`. -/
def contents (b : FixedBuffer Tp Nm) : List Tp := (List.range b.cur).map b.data

/-- The buffer after `values` were stored at the write position. -/
def pushed (b : FixedBuffer Tp Nm) (values : List Tp) : FixedBuffer Tp Nm :=
  ⟨store b.data b.cur values, b.cur + values.length⟩

/-! ### What an append does -/

@[simp] theorem pushed_cur (b : FixedBuffer Tp Nm) (values : List Tp) :
    (b.pushed values).cur = b.cur + values.length := rfl

@[simp] theorem contents_length (b : FixedBuffer Tp Nm) : b.contents.length = b.cur := by
  simp [contents]

private theorem contents_pushed_one (b : FixedBuffer Tp Nm) (value : Tp) :
    (b.pushed [value]).contents = b.contents ++ [value] := by
  simp only [contents, pushed, store, List.length_singleton, List.range_succ, List.map_append,
    List.map_cons, List.map_nil, Function.update_self]
  -- The elements below the write position are not touched.
  congr 1
  apply List.map_congr_left
  intro i member
  exact Function.update_of_ne (by simp only [List.mem_range] at member; omega) _ _

private theorem pushed_cons (b : FixedBuffer Tp Nm) (value : Tp) (values : List Tp) :
    b.pushed (value :: values) = (b.pushed [value]).pushed values := by
  simp only [pushed, store, List.length_cons, List.length_nil, FixedBuffer.mk.injEq, true_and]
  omega

theorem contents_pushed (b : FixedBuffer Tp Nm) (values : List Tp) :
    (b.pushed values).contents = b.contents ++ values := by
  induction values generalizing b with
  | nil => simp [contents, pushed, store]
  | cons value values ih =>
    rw [pushed_cons, ih, contents_pushed_one, List.append_assoc, List.singleton_append]

theorem avail_size {b : FixedBuffer Tp Nm} (inside : b.cur ≤ Nm) :
    toSizeT b.avail = Nm - b.cur := by
  rw [toSizeT_of_nonneg (by simp only [avail]; omega)]
  simp only [avail]
  omega

theorem add_ok (b : FixedBuffer Tp Nm) (len : Nat) (room : b.cur + len < Nm) :
    b.add len = .ok { b with cur := b.cur + len } := by
  have wide : toSizeT b.avail > len := by
    rw [avail_size (by omega)]
    omega
  simp only [add, cassert_pos _ wide, Checked.ok_bind, Checked.pure_eq_ok]

theorem add_full (b : FixedBuffer Tp Nm) (len : Nat) (inside : b.cur ≤ Nm)
    (full : Nm ≤ b.cur + len) : b.add len = .error (.assertion .availAboveLen) := by
  have narrow : ¬toSizeT b.avail > len := by
    rw [avail_size inside]
    omega
  simp only [add, cassert_neg _ narrow, Checked.error_bind]

theorem appendOne_ok (b : FixedBuffer Tp Nm) (value : Tp) (room : b.cur + 1 < Nm) :
    b.appendOne value = .ok (b.pushed [value]) := by
  have positive : b.avail > 0 := by simp only [avail]; omega
  simp only [appendOne, cassert_pos _ positive, Checked.ok_bind]
  exact add_ok _ 1 room

/-- The loop over non-arithmetic elements has the effect of the block copy. -/
private theorem appendLoop_ok (b : FixedBuffer Tp Nm) (values : List Tp)
    (room : b.cur + values.length < Nm) :
    values.foldlM appendOne b = .ok (b.pushed values) := by
  induction values generalizing b with
  | nil => rfl
  | cons value values ih =>
    simp only [List.length_cons] at room
    -- Each round leaves room for the rest, so the induction hypothesis applies after it.
    rw [List.foldlM_cons, appendOne_ok b value (by omega), Checked.ok_bind,
      ih (b.pushed [value]) (by simp only [pushed_cur, List.length_singleton]; omega),
      ← pushed_cons]

variable [IsArithmetic Tp]

/-- While the range and one element more fit, `append` stores the range. -/
theorem append_ok (b : FixedBuffer Tp Nm) (values : List Tp)
    (room : b.cur + values.length < Nm) : b.append values = .ok (b.pushed values) := by
  have below : values.length < toSizeT b.avail := by
    rw [avail_size (by omega)]
    omega
  simp only [append, cassert_pos _ below, Checked.ok_bind]
  split
  · -- block copy
    exact add_ok _ values.length room
  · -- loop
    exact appendLoop_ok b values room

/-- Without that room the first assertion of `append` fails. -/
theorem append_full (b : FixedBuffer Tp Nm) (values : List Tp) (inside : b.cur ≤ Nm)
    (full : Nm ≤ b.cur + values.length) :
    b.append values = .error (.assertion .lenBelowAvail) := by
  have not_below : ¬values.length < toSizeT b.avail := by
    rw [avail_size inside]
    omega
  simp only [append, cassert_neg _ not_below, Checked.error_bind]

omit [IsArithmetic Tp] in
/-- A single value needs the same room, but the assertion that fails is the one of `add`. -/
theorem appendOne_full (b : FixedBuffer Tp Nm) (value : Tp) (inside : b.cur < Nm)
    (full : Nm ≤ b.cur + 1) : b.appendOne value = .error (.assertion .availAboveLen) := by
  have positive : b.avail > 0 := by simp only [avail]; omega
  simp only [appendOne, cassert_pos _ positive, Checked.ok_bind]
  exact add_full _ 1 (Nat.le_of_lt inside) full

end FixedBuffer

end Clia.Container
