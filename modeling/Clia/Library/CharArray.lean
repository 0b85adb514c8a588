import Clia.Library.ListStore
import Mathlib.Data.List.Basic

/-!
# Character arrays

Arrays of a fixed size that hold a text up to their first zero, as `sprintf` and `snprintf` fill them.
What stands behind the zero may be left from an earlier text.
-/

namespace CString

open ListStore

structure CharArray (n : Nat) where
  bytes : List UInt8
  size : bytes.length = n

namespace CharArray

variable {n : Nat}

/-- `char buf[n] = {0}`. -/
def zeros (n : Nat) : CharArray n := ⟨List.replicate n 0, List.length_replicate⟩

/-- The text from the first byte on. -/
def text (b : CharArray n) : List UInt8 := b.bytes.takeWhile (· != 0)

/-- A store inside the array. -/
def write (b : CharArray n) (pos : Nat) (values : List UInt8) (inside : pos + values.length ≤ n) :
    CharArray n where
  bytes := splice b.bytes pos values
  size := by rw [splice_length _ _ _ (by rw [b.size]; exact inside), b.size]

/-- `std::sprintf` to the address `b + pos`. There is none if the text does not fit. -/
def sprintf (b : CharArray n) (pos : Nat) (values : List UInt8) : Option (CharArray n) :=
  if inside : pos + (values ++ [0]).length ≤ n then some (b.write pos (values ++ [0]) inside) else none

/-- `std::snprintf` with the size of the array. It returns the length of the whole text, also if the
text is cut off. -/
def snprintf (b : CharArray n) (values : List UInt8) : CharArray n × Nat :=
  if some_byte : 0 < n then
    (b.write 0 (values.take (n - 1) ++ [0]) (by simp; omega), values.length)
  else (b, values.length)

theorem write_bytes (b : CharArray n) {pos : Nat} {values : List UInt8}
    (inside : pos + values.length ≤ n) :
    (b.write pos values inside).bytes =
      b.bytes.take pos ++ values ++ b.bytes.drop (pos + values.length) := rfl

/-- A text that is not cut off. -/
theorem snprintf_fits (b : CharArray n) {values : List UInt8} (short : values.length < n) :
    (b.snprintf values).2 = values.length ∧
      (b.snprintf values).1.bytes.take values.length = values := by
  -- One byte is kept for the terminator.
  have whole : values.take (n - 1) = values := List.take_of_length_le (by omega)
  unfold snprintf
  rw [dif_pos (by omega)]
  refine ⟨rfl, ?_⟩
  simp only [whole]
  rw [write_bytes, List.take_zero, List.nil_append, List.append_assoc, List.take_left]

/-- What stands before the new text stays, and the array ends with the new text. -/
theorem sprintf_fits (b : CharArray n) {front values : List UInt8}
    (here : b.bytes.take front.length = front) (room : front.length + values.length < n)
    (front_text : 0 ∉ front) (values_text : 0 ∉ values) :
    ∃ c, b.sprintf front.length values = some c ∧ c.text = front ++ values ∧
      c.bytes.take front.length = front := by
  have inside : front.length + (values ++ [0]).length ≤ n := by
    rw [List.length_append, List.length_singleton]
    omega
  have bytes := b.write_bytes inside
  rw [here, List.append_assoc] at bytes
  refine ⟨b.write front.length (values ++ [0]) inside, dif_pos inside, ?_, ?_⟩
  · -- The first zero is the terminator.
    have no_zero : ∀ x ∈ front ++ values, (x != 0) = true := by
      intro x member
      rw [bne_iff_ne]
      rintro rfl
      rcases List.mem_append.mp member with zero | zero
      · exact front_text zero
      · exact values_text zero
    rw [text, bytes, List.append_assoc, ← List.append_assoc, List.takeWhile_append_of_pos no_zero]
    simp
  · rw [bytes, List.take_left]

end CharArray

end CString
