import Clia.Library.CString
import Mathlib.Algebra.GroupWithZero.Nat
import Mathlib.Data.Nat.Init

/-!
# Numerals

What a decimal text stands for. A numeral is read from its first digit on, written from its last one on,
and texts of one width sort as their numbers do.
-/

namespace CString

/-! ### Lexicographic order -/

theorem append_lt_append_iff {α : Type*} [LT α] {xs ys us vs : List α}
    (same : xs.length = ys.length) : xs ++ us < ys ++ vs ↔ xs < ys ∨ xs = ys ∧ us < vs := by
  induction xs generalizing ys with
  | nil =>
    have nil : ys = [] := List.eq_nil_of_length_eq_zero same.symm
    subst nil
    simp
  | cons x xs ih =>
    cases ys with
    | nil => cases same
    | cons y ys =>
      have rest := ih (Nat.succ.inj same)
      simp only [List.cons_append, List.cons_lt_cons_iff, rest, List.cons.injEq]
      tauto

/-! ### Digits -/

def digit (d : Nat) : UInt8 := (48 + d).toUInt8

theorem digit_toNat {d : Nat} (small : d < 10) : (digit d).toNat = 48 + d := by
  simp only [digit, Nat.toUInt8, UInt8.toNat_ofNat']
  omega

theorem digit_lt_iff {d e : Nat} (hd : d < 10) (he : e < 10) : digit d < digit e ↔ d < e := by
  rw [UInt8.lt_iff_toNat_lt, digit_toNat hd, digit_toNat he]
  omega

theorem digitChar_byte {d : Nat} (small : d < 10) : (Nat.digitChar d).toNat.toUInt8 = digit d := by
  rw [Nat.toNat_digitChar_of_lt_ten small, digit]

theorem decimal_of_lt {n : Nat} (small : n < 10) : decimal n = [digit n] := by
  rw [decimal, Nat.toDigits_of_lt_base small, List.map_singleton, digitChar_byte small]

/-- The last digit is the remainder, and the others are the numeral of the quotient. -/
theorem decimal_of_le {n : Nat} (large : 10 ≤ n) :
    decimal n = decimal (n / 10) ++ [digit (n % 10)] := by
  rw [decimal, Nat.toDigits_of_base_le (by decide) large, List.map_append, List.map_singleton,
    digitChar_byte (Nat.mod_lt n (by decide)), decimal]

theorem decimal_length_le_iff {n k : Nat} (positive : 0 < k) :
    (decimal n).length ≤ k ↔ n < 10 ^ k := by
  rw [decimal, List.length_map]
  exact Nat.length_toDigits_le_iff (by decide) positive

/-- Only the numeral of zero begins with a zero. -/
theorem decimal_head {n : Nat} (positive : 0 < n) : (decimal n).head? ≠ some 48 := by
  induction n using Nat.strongRecOn with
  | ind n ih =>
    by_cases small : n < 10
    · rw [decimal_of_lt small, List.head?_cons]
      intro zero
      have byte : (digit n).toNat = 48 := congrArg UInt8.toNat (Option.some.inj zero)
      rw [digit_toNat small] at byte
      omega
    · -- The first digit is the one of the quotient.
      rw [decimal_of_le (by omega), List.head?_append_of_ne_nil _ (decimal_ne_nil _)]
      exact ih (n / 10) (by omega) (by omega)

/-! ### Values -/

/-- The number that digits stand for behind a first part of value `start`. -/
def digitsValue (start : Nat) (text : List UInt8) : Nat :=
  text.foldl (fun value b => 10 * value + (b.toNat - 48)) start

theorem digitsValue_snoc (start : Nat) (text : List UInt8) {d : Nat} (small : d < 10) :
    digitsValue start (text ++ [digit d]) = 10 * digitsValue start text + d := by
  simp only [digitsValue, List.foldl_append, List.foldl_cons, List.foldl_nil, digit_toNat small]
  omega

theorem digitsValue_decimal (n : Nat) : digitsValue 0 (decimal n) = n := by
  induction n using Nat.strongRecOn with
  | ind n ih =>
    by_cases small : n < 10
    · rw [decimal_of_lt small]
      have snoc := digitsValue_snoc 0 [] small
      rw [List.nil_append] at snoc
      rw [snoc]
      simp [digitsValue]
    · rw [decimal_of_le (by omega), digitsValue_snoc _ _ (Nat.mod_lt n (by decide)),
        ih (n / 10) (by omega)]
      omega

theorem decimal_injective {n m : Nat} (same : decimal n = decimal m) : n = m := by
  rw [← digitsValue_decimal n, same, digitsValue_decimal]

/-- The number that a text stands for: digits, with a sign before them if it is negative. -/
def parse (text : List UInt8) : Option Int :=
  match text with
  | 45 :: digits =>
    if digits ≠ [] ∧ digits.all isDigit then some (-(digitsValue 0 digits : Int)) else none
  | digits => if digits ≠ [] ∧ digits.all isDigit then some (digitsValue 0 digits) else none

theorem parse_decimal (n : Nat) : parse (decimal n) = some (n : Int) := by
  have all_digits : (decimal n).all isDigit = true := by
    rw [List.all_eq_true]
    exact fun b member => decimal_isDigit member
  unfold parse
  split
  next digits eq =>
    -- A digit is no sign.
    have sign : 45 ∈ decimal n := by
      rw [eq]
      exact List.mem_cons_self
    exact absurd sign (not_mem_decimal (by decide))
  next =>
    rw [if_pos ⟨decimal_ne_nil n, all_digits⟩, digitsValue_decimal]

/-- The text is the numeral of the value: it reads as the value, has a sign exactly if the value is
negative, and its digits do not begin with a zero unless that is the only one. -/
structure IsNumeral (text : List UInt8) (value : Int) : Prop where
  parses : parse text = some value
  sign : text.head? = some 45 ↔ value < 0
  leading : (text.filter isDigit).head? = some 48 → (text.filter isDigit).length = 1

theorem isNumeral_decimal (n : Nat) : IsNumeral (decimal n) n := by
  have digits : (decimal n).filter isDigit = decimal n := by
    rw [List.filter_eq_self]
    exact fun b member => decimal_isDigit member
  constructor
  · exact parse_decimal n
  · apply iff_of_false
    · intro sign
      exact not_mem_decimal (by decide) (List.mem_of_mem_head? sign)
    · omega
  · rw [digits]
    intro zero
    have n_zero : n = 0 := by
      by_contra positive
      exact decimal_head (Nat.pos_of_ne_zero positive) zero
    subst n_zero
    rfl

/-! ### Padded numerals -/

theorem padded_one {n : Nat} (small : n < 10) : padded 1 n = [digit n] := by
  rw [padded, decimal_of_lt small]
  rfl

/-- One place more is one digit more at the end. -/
theorem padded_succ {width : Nat} (positive : 0 < width) (n : Nat) :
    padded (width + 1) n = padded width (n / 10) ++ [digit (n % 10)] := by
  by_cases small : n < 10
  · have quotient : n / 10 = 0 := by omega
    have fill : List.replicate (width - 1) (48 : UInt8) ++ [48] = List.replicate width 48 := by
      rw [← List.replicate_succ', Nat.sub_add_cancel positive]
    rw [padded, padded, quotient, Nat.mod_eq_of_lt small, decimal_of_lt small,
      decimal_of_lt (by decide : 0 < 10)]
    change _ = List.replicate (width - 1) 48 ++ [48] ++ [digit n]
    rw [fill]
    rfl
  · rw [padded, padded, decimal_of_le (by omega), List.length_append, List.length_singleton,
      Nat.add_sub_add_right, List.append_assoc]

theorem padded_injective {width n m : Nat} (positive : 0 < width) (hn : n < 10 ^ width)
    (hm : m < 10 ^ width) (same : padded width n = padded width m) : n = m := by
  induction width, positive using Nat.le_induction generalizing n m with
  | base =>
    rw [padded_one hn, padded_one hm] at same
    have bytes := congrArg UInt8.toNat (List.cons.inj same).1
    rw [digit_toNat hn, digit_toNat hm] at bytes
    omega
  | succ width positive ih =>
    rw [padded_succ positive, padded_succ positive] at same
    obtain ⟨front, last⟩ := List.append_inj' same rfl
    have quotients := ih (by omega) (by omega) front
    have bytes := congrArg UInt8.toNat (List.cons.inj last).1
    rw [digit_toNat (Nat.mod_lt n (by decide)), digit_toNat (Nat.mod_lt m (by decide))] at bytes
    omega

/-- Numerals of one width sort as their numbers. -/
theorem padded_lt_iff {width n m : Nat} (positive : 0 < width) (hn : n < 10 ^ width)
    (hm : m < 10 ^ width) : padded width n < padded width m ↔ n < m := by
  induction width, positive using Nat.le_induction generalizing n m with
  | base =>
    rw [padded_one hn, padded_one hm, List.cons_lt_cons_iff, digit_lt_iff hn hm]
    simp
  | succ width positive ih =>
    have hn' : n / 10 < 10 ^ width := by omega
    have hm' : m / 10 < 10 ^ width := by omega
    have front : padded width (n / 10) = padded width (m / 10) ↔ n / 10 = m / 10 :=
      ⟨padded_injective positive hn' hm', congrArg _⟩
    have last : [digit (n % 10)] < [digit (m % 10)] ↔ n % 10 < m % 10 := by
      rw [List.cons_lt_cons_iff, digit_lt_iff (Nat.mod_lt n (by decide)) (Nat.mod_lt m (by decide))]
      simp
    rw [padded_succ positive, padded_succ positive, append_lt_append_iff
      (by rw [padded_length positive hn', padded_length positive hm']), ih hn' hm', front, last]
    omega

/-! ### Columns -/

/-- A number has at most as many digits as its column. -/
def FitsColumn (width n : Nat) : Prop := 0 < width ∧ n < 10 ^ width

/-- Numerals one behind the other, each in a column of its own width. -/
def columns (widths values : List Nat) : List UInt8 := (List.zipWith padded widths values).flatten

theorem columns_cons (width n : Nat) (widths values : List Nat) :
    columns (width :: widths) (n :: values) = padded width n ++ columns widths values := by
  simp [columns]

theorem columns_length {widths values : List Nat} (fits : List.Forall₂ FitsColumn widths values) :
    (columns widths values).length = widths.sum := by
  induction fits with
  | nil => rfl
  | cons fits _ ih =>
    rw [columns_cons, List.length_append, padded_length fits.1 fits.2, ih, List.sum_cons]

/-- Rows of one layout sort as the rows of their numbers. -/
theorem columns_lt_iff {widths xs ys : List Nat} (hx : List.Forall₂ FitsColumn widths xs)
    (hy : List.Forall₂ FitsColumn widths ys) : columns widths xs < columns widths ys ↔ xs < ys := by
  induction hx generalizing ys with
  | nil =>
    cases hy
    simp [columns]
  | cons fits _ ih =>
    cases hy with
    | cons fits' rest =>
      -- The first column decides, unless it is the same in both rows.
      have same := padded_injective fits.1 fits.2 fits'.2
      rw [columns_cons, columns_cons, append_lt_append_iff
        (by rw [padded_length fits.1 fits.2, padded_length fits'.1 fits'.2]),
        padded_lt_iff fits.1 fits.2 fits'.2, ih rest, List.cons_lt_cons_iff]
      exact or_congr_right (and_congr_left' ⟨same, congrArg _⟩)

/-- A row of padded numbers, each with its column's text behind it. -/
def fields (columns : List (Nat × List UInt8)) (values : List Nat) : List UInt8 :=
  (List.zipWith (fun column n => padded column.1 n ++ column.2) columns values).flatten

theorem fields_cons (column : Nat × List UInt8) (n : Nat) (columns : List (Nat × List UInt8))
    (values : List Nat) :
    fields (column :: columns) (n :: values) =
      padded column.1 n ++ (column.2 ++ fields columns values) := by
  simp [fields]

/-- Such rows sort as their numbers, and rows of the same numbers as what follows them. -/
theorem fields_lt_iff {columns : List (Nat × List UInt8)} {xs ys : List Nat}
    (hx : List.Forall₂ (fun column => FitsColumn column.1) columns xs)
    (hy : List.Forall₂ (fun column => FitsColumn column.1) columns ys) (us vs : List UInt8) :
    fields columns xs ++ us < fields columns ys ++ vs ↔ xs < ys ∨ xs = ys ∧ us < vs := by
  induction hx generalizing ys with
  | nil =>
    cases hy
    simp [fields]
  | cons fits _ ih =>
    cases hy with
    | cons fits' rest =>
      -- The first column decides, or both rows agree in it and in the text behind it.
      have same := padded_injective fits.1 fits.2 fits'.2
      simp only [fields_cons, List.append_assoc]
      rw [append_lt_append_iff (by rw [padded_length fits.1 fits.2, padded_length fits'.1 fits'.2]),
        padded_lt_iff fits.1 fits.2 fits'.2, append_lt_append_iff rfl, ih rest,
        List.cons_lt_cons_iff, List.cons.injEq]
      have irrefl : ∀ text : List UInt8, ¬text < text := fun text => List.lt_irrefl text
      constructor
      · rintro (less | ⟨equal, (less | ⟨-, later⟩)⟩)
        · exact .inl (.inl less)
        · exact absurd less (irrefl _)
        · exact later.imp (fun less => .inr ⟨same equal, less⟩)
            (fun last => ⟨⟨same equal, last.1⟩, last.2⟩)
      · rintro ((less | ⟨rfl, less⟩) | ⟨⟨rfl, equal⟩, last⟩)
        · exact .inl less
        · exact .inr ⟨rfl, .inr ⟨rfl, .inl less⟩⟩
        · exact .inr ⟨rfl, .inr ⟨rfl, .inr ⟨equal, last⟩⟩⟩

/-- A numeral of exactly the width needs no zeros before it. -/
theorem padded_of_le {width n : Nat} (large : 10 ^ (width - 1) ≤ n) : padded width n = decimal n := by
  have full : width ≤ (decimal n).length := by
    by_cases one : width ≤ 1
    · have some_digit := List.length_pos_of_ne_nil (decimal_ne_nil n)
      omega
    · have short := decimal_length_le_iff (n := n) (by omega : 0 < width - 1)
      omega
  rw [padded, Nat.sub_eq_zero_of_le full, List.replicate_zero, List.nil_append]

/-! ### Signs -/

/-- `%d`. -/
def signed : Int → List UInt8
  | .ofNat n => decimal n
  | .negSucc n => 45 :: decimal (n + 1)

/-- At least `width` characters, filled up with blanks: `%4d`. -/
def blankFilled (width : Nat) (i : Int) : List UInt8 :=
  List.replicate (width - (signed i).length) 32 ++ signed i

/-- At least `width` characters, with zeros behind the sign: `%04d`. -/
def zeroFilled (width : Nat) : Int → List UInt8
  | .ofNat n => padded width n
  | .negSucc n => 45 :: padded (width - 1) (n + 1)

theorem decimal_text (n : Nat) : 0 ∉ decimal n := not_mem_decimal (by decide)

theorem padded_text (width n : Nat) : 0 ∉ padded width n := by
  intro zero
  exact absurd (padded_isDigit zero) (by decide)

theorem signed_text (i : Int) : 0 ∉ signed i := by
  cases i with
  | ofNat n => exact decimal_text n
  | negSucc n => simpa [signed] using decimal_text (n + 1)

theorem blankFilled_text (width : Nat) (i : Int) : 0 ∉ blankFilled width i := by
  intro zero
  rcases List.mem_append.mp zero with blank | digit
  · cases List.eq_of_mem_replicate blank
  · exact signed_text i digit

theorem zeroFilled_text (width : Nat) (i : Int) : 0 ∉ zeroFilled width i := by
  cases i with
  | ofNat n => exact padded_text width n
  | negSucc n => simpa [zeroFilled] using padded_text (width - 1) (n + 1)

/-- A number below `10 ^ k` has at most `k` digits, so filling it up yields `width` or `k`. -/
theorem padded_length_le {width n k : Nat} (positive : 0 < k) (below : n < 10 ^ k) :
    (padded width n).length ≤ max width k := by
  have digits := (decimal_length_le_iff positive).mpr below
  rw [padded, List.length_append, List.length_replicate]
  omega

theorem signed_length_le {i : Int} {k : Nat} (positive : 0 < k) (below : i.natAbs < 10 ^ k) :
    (signed i).length ≤ k + 1 := by
  cases i with
  | ofNat n =>
    have digits := (decimal_length_le_iff positive).mpr below
    exact Nat.le_succ_of_le digits
  | negSucc n =>
    have digits := (decimal_length_le_iff positive).mpr below
    rw [signed, List.length_cons]
    exact Nat.succ_le_succ digits

theorem blankFilled_length_le {width k : Nat} {i : Int} (positive : 0 < k)
    (below : i.natAbs < 10 ^ k) : (blankFilled width i).length ≤ max width (k + 1) := by
  have length := signed_length_le positive below
  rw [blankFilled, List.length_append, List.length_replicate]
  omega

theorem zeroFilled_length_le {width k : Nat} {i : Int} (positive : 0 < k)
    (below : i.natAbs < 10 ^ k) : (zeroFilled width i).length ≤ max width (k + 1) := by
  cases i with
  | ofNat n =>
    have length : (padded width n).length ≤ max width k := padded_length_le positive below
    simp only [zeroFilled]
    omega
  | negSucc n =>
    have length : (padded (width - 1) (n + 1)).length ≤ max (width - 1) k :=
      padded_length_le positive below
    simp only [zeroFilled, List.length_cons]
    omega

end CString
