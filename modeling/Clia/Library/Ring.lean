import Mathlib.Data.List.Rotate
import Mathlib.Data.Nat.ModEq

/-!
# Windows of a ring

A ring is a list whose end is followed by its beginning. A window is a run of its cells from a
start on: it grows by a store to the cell behind it and shrinks by a move of its start.
-/

namespace Ring

variable {α : Type*}

/-- The index behind `i`. -/
def next (size i : Nat) : Nat := if size = i + 1 then 0 else i + 1

theorem next_eq {size i : Nat} (inside : i < size) : next size i = (i + 1) % size := by
  unfold next
  split
  next wraps => rw [← wraps, Nat.mod_self]
  next stays => rw [Nat.mod_eq_of_lt (by omega)]

theorem next_lt {size i : Nat} (inside : i < size) : next size i < size := by
  unfold next
  split <;> omega

/-- The cells from `start` on, `count` of them. -/
def window (cells : List α) (start count : Nat) : List α := (cells.rotate start).take count

@[simp] theorem window_zero (cells : List α) (start : Nat) : window cells start 0 = [] :=
  List.take_zero

theorem window_length {cells : List α} {count : Nat} (start : Nat) (le : count ≤ cells.length) :
    (window cells start count).length = count := by
  rw [window, List.length_take, List.length_rotate, Nat.min_eq_left le]

theorem getElem?_window {cells : List α} {start count k : Nat} (le : count ≤ cells.length)
    (inside : k < count) : (window cells start count)[k]? = cells[(start + k) % cells.length]? := by
  rw [window, List.getElem?_take_of_lt inside, List.getElem?_rotate (by omega), Nat.add_comm]

/-- A window that does not go around the end. -/
theorem window_straight {cells : List α} {start count : Nat} (fits : start + count ≤ cells.length) :
    window cells start count = (cells.drop start).take count := by
  rw [window, List.rotate_eq_drop_append_take (by omega),
    List.take_append_of_le_length (by rw [List.length_drop]; omega)]

/-- Two offsets below one round are different cells. -/
theorem offset_ne {size start i j : Nat} (below : i < j) (round : j < size) :
    (start + j) % size ≠ (start + i) % size := by
  intro same
  have equal : j % size = i % size := Nat.ModEq.add_left_cancel' start same
  rw [Nat.mod_eq_of_lt round, Nat.mod_eq_of_lt (by omega)] at equal
  omega

/-- A store to the cell behind the window adds to its end. -/
theorem window_set {cells : List α} {start count : Nat} (room : count < cells.length) (value : α) :
    window (cells.set ((start + count) % cells.length) value) start (count + 1) =
      window cells start count ++ [value] := by
  have size : (cells.set ((start + count) % cells.length) value).length = cells.length :=
    List.length_set
  apply List.ext_getElem?
  intro k
  rcases Nat.lt_trichotomy k count with old | new | beyond
  · -- An earlier cell is another one.
    rw [getElem?_window (by omega) (by omega), size, List.getElem?_set_ne (offset_ne old room),
      List.getElem?_append_left (by rw [window_length _ (by omega)]; omega),
      getElem?_window (by omega) old]
  · subst new
    have cell : (start + k) % cells.length < cells.length := Nat.mod_lt _ (by omega)
    rw [getElem?_window (by omega) (by omega), size, List.getElem?_set_self cell,
      List.getElem?_append_right (by rw [window_length _ (by omega)]),
      window_length _ (by omega), Nat.sub_self]
    rfl
  · rw [List.getElem?_eq_none (by rw [window_length _ (by omega)]; omega),
      List.getElem?_eq_none (by
        rw [List.length_append, window_length _ (by omega), List.length_singleton]
        omega)]

/-- A move of the start takes the first cell off. -/
theorem window_next {cells : List α} {start count : Nat} (inside : start < cells.length)
    (some_left : count < cells.length) :
    window cells start (count + 1) =
      cells[start] :: window cells (next cells.length start) count := by
  have next_inside := next_lt inside
  apply List.ext_getElem?
  intro k
  cases k with
  | zero =>
    rw [getElem?_window (by omega) (by omega), Nat.add_zero, Nat.mod_eq_of_lt inside,
      List.getElem?_eq_getElem inside]
    rfl
  | succ k =>
    rw [List.getElem?_cons_succ]
    by_cases within : k < count
    · rw [getElem?_window (by omega) (by omega), getElem?_window (by omega) within,
        next_eq inside, Nat.mod_add_mod]
      congr 2
      omega
    · rw [List.getElem?_eq_none (by rw [window_length _ (by omega)]; omega),
        List.getElem?_eq_none (by rw [window_length _ (by omega)]; omega)]

end Ring
