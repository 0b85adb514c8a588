import Mathlib.Algebra.Group.Nat.Defs
import Mathlib.Data.List.Basic

/-!
# Byte strings

Texts of C as lists of bytes without their terminator: the comparison of `<cstring>`, the search
of `std::string::find`, and decimal numerals as `printf` and `strftime` make them.
-/

namespace CString

def ascii (text : String) : List UInt8 := text.toList.map fun c => c.toNat.toUInt8

/-! ### Comparison -/

/-- `std::strncmp`. Behind its last byte a text has a zero, and the comparison ends at a zero. -/
def strncmp : List UInt8 → List UInt8 → Nat → Int
  | _, _, 0 => 0
  | xs, ys, n + 1 =>
    if xs.headD 0 ≠ ys.headD 0 then ((xs.headD 0).toNat : Int) - (ys.headD 0).toNat
    else if xs.headD 0 = 0 then 0
    else strncmp xs.tail ys.tail n

/-- `strncmp` orders texts as the lexicographic order does their first bytes. -/
theorem strncmp_neg_iff {xs ys : List UInt8} (xs_text : 0 ∉ xs) (ys_text : 0 ∉ ys) (n : Nat) :
    strncmp xs ys n < 0 ↔ xs.take n < ys.take n := by
  induction n generalizing xs ys with
  | zero => simp [strncmp]
  | succ n ih =>
    cases xs with
    | nil =>
      cases ys with
      | nil => simp [strncmp]
      | cons y ys =>
        have y_pos : y ≠ 0 := fun eq => ys_text (by simp [eq])
        have nonneg : 0 < y.toNat := Nat.pos_of_ne_zero fun eq => y_pos (UInt8.toNat_inj.mp eq)
        simp only [strncmp, List.headD_nil, List.headD_cons, ne_eq, Ne.symm y_pos,
          not_false_eq_true, if_true, List.take_nil, List.take_succ_cons, List.nil_lt_cons, iff_true]
        simpa using nonneg
    | cons x xs =>
      have x_pos : x ≠ 0 := fun eq => xs_text (by simp [eq])
      cases ys with
      | nil =>
        simp only [strncmp, List.headD_nil, List.headD_cons, ne_eq, x_pos, not_false_eq_true,
          if_true, List.take_nil, List.take_succ_cons, List.not_lt_nil, iff_false]
        simp
      | cons y ys =>
        have rest : strncmp xs ys n < 0 ↔ xs.take n < ys.take n :=
          ih (fun member => xs_text (by simp [member])) (fun member => ys_text (by simp [member]))
        rw [List.take_succ_cons, List.take_succ_cons, List.cons_lt_cons_iff]
        by_cases same : x = y
        · -- The first bytes agree and are no terminator.
          subst same
          simp only [strncmp, List.headD_cons, ne_eq, not_true_eq_false, if_false, x_pos,
            List.tail_cons, rest, UInt8.lt_irrefl, true_and, false_or]
        · simp only [strncmp, List.headD_cons, ne_eq, same, not_false_eq_true, if_true, false_and,
            or_false, UInt8.lt_iff_toNat_lt]
          omega

/-! ### Search -/

/-- `std::string::find(pattern) != npos`. -/
def contains (text pattern : List UInt8) : Bool := text.tails.any fun rest => pattern.isPrefixOf rest

/-! ### Numerals -/

def isDigit (b : UInt8) : Bool := 48 ≤ b && b ≤ 57

/-- `%d` of a number that is not negative. -/
def decimal (n : Nat) : List UInt8 := (Nat.toDigits 10 n).map fun c => c.toNat.toUInt8

/-- At least `width` digits, filled up with zeros. -/
def padded (width n : Nat) : List UInt8 :=
  List.replicate (width - (decimal n).length) 48 ++ decimal n

theorem decimal_ne_nil (n : Nat) : decimal n ≠ [] := by
  simp [decimal, Nat.toDigits_ne_nil]

theorem decimal_isDigit {n : Nat} {b : UInt8} (member : b ∈ decimal n) : isDigit b = true := by
  obtain ⟨c, digit, rfl⟩ := List.mem_map.mp member
  have range := Nat.isDigit_of_mem_toDigits (by decide) (by decide) digit
  simp only [Char.isDigit, Bool.and_eq_true, decide_eq_true_eq] at range
  obtain ⟨low, high⟩ := range
  have low : 48 ≤ c.toNat := low
  have high : c.toNat ≤ 57 := high
  simp only [isDigit, Bool.and_eq_true, decide_eq_true_eq, UInt8.le_iff_toNat_le]
  have exact_byte : c.toNat.toUInt8.toNat = c.toNat := by
    simp only [Nat.toUInt8, UInt8.toNat_ofNat']
    omega
  rw [exact_byte]
  exact ⟨low, high⟩

theorem not_mem_decimal {n : Nat} {b : UInt8} (no_digit : isDigit b = false) : b ∉ decimal n := by
  intro member
  rw [decimal_isDigit member] at no_digit
  cases no_digit

theorem padded_isDigit {width n : Nat} {b : UInt8} (member : b ∈ padded width n) :
    isDigit b = true := by
  rcases List.mem_append.mp member with zero | digit
  · rw [List.eq_of_mem_replicate zero]
    decide
  · exact decimal_isDigit digit

theorem padded_length {width n : Nat} (positive : 0 < width) (fits : n < 10 ^ width) :
    (padded width n).length = width := by
  have digits : (decimal n).length ≤ width := by
    rw [decimal, List.length_map]
    exact (Nat.length_toDigits_le_iff (by decide) positive).mpr fits
  rw [padded, List.length_append, List.length_replicate]
  omega

end CString
