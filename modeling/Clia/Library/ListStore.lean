import Mathlib.Data.List.Basic
import Mathlib.Data.List.TakeDrop

/-!
# Storage as a list

Contiguous storage is a list; a region is addressed by its first and last index. `splice`
overwrites a region, `slice` reads one, and `copyWithin` copies a region to another place of
the same storage one element after the other, so that for overlapping regions the result
depends on the direction of the copy. `copyWithin_eq_splice` says when it does not.
-/

namespace ListStore

variable {α : Type*}

/-- The elements at indices `first, …, last - 1`. -/
def slice (xs : List α) (first last : Nat) : List α :=
  (xs.drop first).take (last - first)

/-- Overwrite the elements from index `pos` on with `values`. -/
def splice (xs : List α) (pos : Nat) (values : List α) : List α :=
  xs.take pos ++ values ++ xs.drop (pos + values.length)

/-- Copy `n` elements from `src` on to `dst` on, in increasing order of the index. -/
def copyWithin (xs : List α) (src dst : Nat) : Nat → List α
  | 0 => xs
  | n + 1 =>
    match xs[src]? with
    | some a => copyWithin (xs.set dst a) (src + 1) (dst + 1) n
    | none => xs

/-! ### Lengths and elements -/

theorem slice_length (xs : List α) (first last : Nat) (bound : last ≤ xs.length) :
    (slice xs first last).length = last - first := by
  simp only [slice, List.length_take, List.length_drop]
  omega

theorem splice_length (xs : List α) (pos : Nat) (values : List α)
    (bound : pos + values.length ≤ xs.length) : (splice xs pos values).length = xs.length := by
  simp only [splice, List.length_append, List.length_take, List.length_drop]
  omega

theorem getElem?_slice (xs : List α) (first last i : Nat) :
    (slice xs first last)[i]? = if i < last - first then xs[first + i]? else none := by
  simp only [slice, List.getElem?_take, List.getElem?_drop]

theorem getElem?_splice (xs : List α) (pos : Nat) (values : List α) (i : Nat)
    (bound : pos + values.length ≤ xs.length) :
    (splice xs pos values)[i]? =
      if pos ≤ i ∧ i < pos + values.length then values[i - pos]? else xs[i]? := by
  simp only [splice, List.append_assoc, List.getElem?_append, List.getElem?_take,
    List.getElem?_drop, List.length_take]
  have cut : min pos xs.length = pos := by omega
  rw [cut]
  by_cases low : i < pos
  · rw [if_pos low, if_pos low, if_neg (by omega)]
  · rw [if_neg low]
    by_cases mid : i - pos < values.length
    · rw [if_pos mid, if_pos (by omega)]
    · rw [if_neg mid, if_neg (by omega)]
      congr 1
      omega

/-! ### Reading regions -/

@[simp] theorem slice_self (xs : List α) (i : Nat) : slice xs i i = [] := by
  simp [slice]

theorem slice_append_right (xs ys : List α) (first last : Nat) (bound : last ≤ xs.length) :
    slice (xs ++ ys) first last = slice xs first last := by
  apply List.ext_getElem?
  intro i
  simp only [getElem?_slice]
  split
  · rw [List.getElem?_append_left (by omega)]
  · rfl

/-- A region is its first `n` elements followed by the rest. -/
theorem slice_split (xs : List α) (first mid last : Nat) (lower : first ≤ mid)
    (upper : mid ≤ last) (bound : last ≤ xs.length) :
    slice xs first last = slice xs first mid ++ slice xs mid last := by
  apply List.ext_getElem?
  intro i
  rw [List.getElem?_append, slice_length xs first mid (by omega)]
  simp only [getElem?_slice]
  by_cases left : i < mid - first
  · rw [if_pos left, if_pos left, if_pos (by omega)]
  · rw [if_neg left]
    by_cases right : i < last - first
    · rw [if_pos right, if_pos (by omega)]
      congr 1
      omega
    · rw [if_neg right, if_neg (by omega)]

theorem drop_slice (xs : List α) (first last n : Nat) :
    (slice xs first last).drop n = slice xs (first + n) last := by
  simp only [slice, List.drop_take, List.drop_drop]
  congr 1
  omega

theorem take_slice (xs : List α) (first last n : Nat) (bound : first + n ≤ last) :
    (slice xs first last).take n = slice xs first (first + n) := by
  simp only [slice, List.take_take]
  congr 1
  omega

/-! ### Reading after a write -/

theorem slice_splice_same (xs : List α) (pos : Nat) (values : List α)
    (bound : pos + values.length ≤ xs.length) :
    slice (splice xs pos values) pos (pos + values.length) = values := by
  have front : (xs.take pos).length = pos := by simp; omega
  simp only [slice, splice, List.append_assoc]
  rw [List.drop_append_of_le_length (by omega), List.drop_of_length_le (by omega)]
  simp

/-- A write from `pos` on leaves every region that ends at or before `pos` as it was. -/
theorem slice_splice_before (xs : List α) (pos : Nat) (values : List α) (first last : Nat)
    (bound : pos + values.length ≤ xs.length) (before : last ≤ pos) :
    slice (splice xs pos values) first last = slice xs first last := by
  apply List.ext_getElem?
  intro i
  simp only [getElem?_slice, getElem?_splice xs pos values _ bound]
  split
  · rw [if_neg (by omega)]
  · rfl

/-! ### Copying inside the storage -/

/-- Towards lower addresses the element-wise copy moves the region as it was before the
copy, whether or not the two regions overlap. -/
theorem copyWithin_eq_splice (xs : List α) (src dst n : Nat) (down : dst ≤ src)
    (bound : src + n ≤ xs.length) :
    copyWithin xs src dst n = splice xs dst (slice xs src (src + n)) := by
  induction n generalizing xs src dst with
  | zero => simp [copyWithin, splice]
  | succ n ih =>
    have inside : src < xs.length := by omega
    have size : (xs.set dst xs[src]).length = xs.length := List.length_set
    have wide : (slice xs src (src + (n + 1))).length = n + 1 := by
      rw [slice_length xs src _ bound]; omega
    have narrow : (slice (xs.set dst xs[src]) (src + 1) (src + 1 + n)).length = n := by
      rw [slice_length _ _ _ (by omega)]; omega
    simp only [copyWithin, List.getElem?_eq_getElem inside]
    rw [ih (xs.set dst xs[src]) (src + 1) (dst + 1) (by omega) (by omega)]
    apply List.ext_getElem?
    intro i
    rw [getElem?_splice _ _ _ _ (by omega), getElem?_splice _ _ _ _ (by omega), narrow, wide]
    simp only [getElem?_slice]
    -- Only the element at `dst` is written by the first round; the others follow by `ih`.
    by_cases first : i = dst
    · subst first
      have placed : (xs.set i xs[src])[i]? = some xs[src] :=
        List.getElem?_set_self (by omega)
      rw [if_neg (by omega), if_pos (by omega), if_pos (by omega), placed]
      simp [List.getElem?_eq_getElem inside]
    · have other : ∀ j, j ≠ dst → (xs.set dst xs[src])[j]? = xs[j]? := fun j ne =>
        List.getElem?_set_ne (Ne.symm ne)
      by_cases written : dst + 1 ≤ i ∧ i < dst + 1 + n
      · rw [if_pos written, if_pos (by omega), if_pos (by omega), if_pos (by omega),
          other _ (by omega)]
        congr 1
        omega
      · rw [if_neg written, if_neg (by omega), other i first]

end ListStore
