import Clia.Base
import Clia.Library.Numeral
import Mathlib.Tactic.IntervalCases

/-!
# Integers as text

`util/str_func.h`: `convert` writes the digits of an integer from the last one on and reverses them
in place. The value is one of any integer type, signed or not: `%` and `/` truncate toward zero and
do not leave the type.

## Main result

`signed_rendered_iff`: the remainder of a negative value is no index of `kDigits`, so exactly the
values that are not negative are rendered.
-/

namespace Clia.Util

open CString

/-- The array with the terminator of its literal. -/
def kDigits : List UInt8 := ascii "0123456789" ++ [0]

/-- `kDigits[lsd]`. -/
def digitAt (lsd : Int) : Except Fault UInt8 :=
  match lsd with
  | .ofNat d =>
    match kDigits[d]? with
    | some b => .ok b
    | none => .error .outOfBounds
  | .negSucc _ => .error .outOfBounds

/-- `*p = b`, for the address `p` bytes behind `outbuf`. -/
def put (outbuf : List UInt8) (p : Nat) (b : UInt8) : Except Fault (List UInt8) := do
  Checked.require (p < outbuf.length) Fault.outOfBounds
  return outbuf.set p b

theorem natAbs_tdiv_lt {i : Int} (more : i.tdiv 10 ≠ 0) : (i.tdiv 10).natAbs < i.natAbs := by
  have quotient : (i.tdiv 10).natAbs = i.natAbs / 10 := Int.natAbs_tdiv i 10
  have nonzero : i ≠ 0 := by
    rintro rfl
    exact more (Int.zero_tdiv 10)
  omega

/-- The `do` loop of `convert`, with `p` and `i` as they are at the head of a round. -/
def digitLoop (outbuf : List UInt8) (p : Nat) (i : Int) : Except Fault (List UInt8 × Nat) := do
  let b ← digitAt (i.tmod 10)
  let outbuf ← put outbuf p b
  if i.tdiv 10 ≠ 0 then digitLoop outbuf (p + 1) (i.tdiv 10) else return (outbuf, p + 1)
termination_by i.natAbs
decreasing_by exact natAbs_tdiv_lt ‹_›

/-- `std::reverse` of the first `p` bytes. -/
def reverseFirst (outbuf : List UInt8) (p : Nat) : List UInt8 :=
  (outbuf.take p).reverse ++ outbuf.drop p

/-- `convert` with the `size` bytes at `outbuf`: these bytes afterwards, and what it returns. -/
def convert (outbuf : List UInt8) (value : Int) : Except Fault (List UInt8 × Nat) :=
  if outbuf.length < 32 then .ok (outbuf, 0)
  else do
    let (outbuf, p) ← digitLoop outbuf 0 value
    let (outbuf, p) ←
      (if value < 0 then do
        let outbuf ← put outbuf p 45
        return (outbuf, p + 1)
      else return (outbuf, p))
    let outbuf ← put outbuf p 0
    return (reverseFirst outbuf p, p)

/-! ### The loop -/

theorem digitAt_digit {d : Nat} (small : d < 10) : digitAt d = .ok (digit d) := by
  interval_cases d <;> rfl

theorem put_front (front : List UInt8) (old : UInt8) (rest : List UInt8) (b : UInt8) :
    put (front ++ old :: rest) front.length b = .ok ((front ++ [b]) ++ rest) := by
  have inside : front.length < (front ++ old :: rest).length := by simp
  simp only [put, Checked.require_pos _ inside, Checked.ok_bind, Checked.pure_eq_ok]
  rw [List.set_append_right _ _ (Nat.le_refl _), Nat.sub_self, List.set_cons_zero, List.append_assoc,
    List.singleton_append]

theorem put_full {outbuf : List UInt8} {p : Nat} (full : outbuf.length ≤ p) (b : UInt8) :
    put outbuf p b = .error .outOfBounds := by
  simp only [put, Checked.require_neg _ (Nat.not_lt.mpr full), Checked.error_bind]

/-- One round for a value that is not negative. -/
theorem digitLoop_natCast (outbuf : List UInt8) (p n : Nat) :
    digitLoop outbuf p n = do
      let outbuf ← put outbuf p (digit (n % 10))
      if n / 10 ≠ 0 then digitLoop outbuf (p + 1) (n / 10 : Nat) else return (outbuf, p + 1) := by
  have lsd : (n : Int).tmod 10 = (n % 10 : Nat) := (Int.ofNat_tmod n 10).symm
  have quotient : (n : Int).tdiv 10 = (n / 10 : Nat) := (Int.ofNat_tdiv n 10).symm
  rw [digitLoop, lsd, quotient, digitAt_digit (Nat.mod_lt n (by decide)), Checked.ok_bind]
  simp only [ne_eq, Int.natCast_eq_zero]

/-- With room the loop leaves the numeral, its last digit first. `old` is what the digits overwrite. -/
theorem digitLoop_fits {n : Nat} (front : List UInt8) {old : List UInt8} (rest : List UInt8)
    (room : old.length = (decimal n).length) :
    digitLoop (front ++ (old ++ rest)) front.length n =
      .ok (front ++ ((decimal n).reverse ++ rest), front.length + (decimal n).length) := by
  induction n using Nat.strongRecOn generalizing front old with
  | ind n ih =>
    by_cases small : n < 10
    · rw [decimal_of_lt small] at room ⊢
      obtain ⟨b, rfl⟩ := List.length_eq_one_iff.mp room
      have last : n / 10 = 0 := by omega
      rw [digitLoop_natCast, List.singleton_append, put_front, Checked.ok_bind, last,
        Nat.mod_eq_of_lt small]
      simp
    · have digits := decimal_of_le (Nat.le_of_not_lt small)
      rw [digits, List.length_append, List.length_singleton] at room
      obtain ⟨b, old, rfl⟩ := List.exists_cons_of_length_eq_add_one room
      have more : n / 10 ≠ 0 := by omega
      have later := ih (n / 10) (by omega) (front ++ [digit (n % 10)]) (Nat.succ.inj room)
      rw [List.length_append, List.length_singleton] at later
      rw [digitLoop_natCast, List.cons_append, put_front, Checked.ok_bind, if_pos more, later, digits]
      simp [Nat.add_assoc, Nat.add_comm 1]

theorem digitLoop_overflows {n : Nat} (front : List UInt8) {rest : List UInt8}
    (full : rest.length < (decimal n).length) :
    digitLoop (front ++ rest) front.length n = .error .outOfBounds := by
  induction n using Nat.strongRecOn generalizing front rest with
  | ind n ih =>
    rw [digitLoop_natCast]
    cases rest with
    | nil => rw [put_full (by simp), Checked.error_bind]
    | cons b rest =>
      -- There is room for this digit, so there are more.
      have large : 10 ≤ n := by
        by_contra small
        rw [decimal_of_lt (by omega)] at full
        simp at full
      have more : n / 10 ≠ 0 := by omega
      rw [decimal_of_le large, List.length_append, List.length_singleton, List.length_cons] at full
      have later := ih (n / 10) (by omega) (front ++ [digit (n % 10)])
        (Nat.lt_of_succ_lt_succ full)
      rw [List.length_append, List.length_singleton] at later
      rw [put_front, Checked.ok_bind, if_pos more, later]

/-- The loop only gets through if all remainders are indices of `kDigits`. -/
theorem digitLoop_nonneg {outbuf : List UInt8} {p : Nat} {i : Int} {result : List UInt8 × Nat}
    (ok : digitLoop outbuf p i = .ok result) : 0 ≤ i := by
  induction size : i.natAbs using Nat.strongRecOn generalizing outbuf p i with
  | ind n ih =>
    rw [digitLoop] at ok
    obtain ⟨b, indexed, ok⟩ := Checked.bind_ok_iff.mp ok
    obtain ⟨stored, _, ok⟩ := Checked.bind_ok_iff.mp ok
    have lsd : 0 ≤ i.tmod 10 := by
      unfold digitAt at indexed
      split at indexed
      next d eq =>
        rw [eq]
        exact Int.natCast_nonneg d
      next => cases indexed
    have whole := Int.mul_tdiv_add_tmod i 10
    split at ok
    next more =>
      -- The quotient is not negative by the rounds that follow.
      have quotient := ih _ (size ▸ natAbs_tdiv_lt more) ok rfl
      omega
    next last => omega

/-! ### The whole conversion -/

theorem reverseFirst_reverse (text rest : List UInt8) :
    reverseFirst (text.reverse ++ rest) text.length = text ++ rest := by
  have length : text.reverse.length = text.length := List.length_reverse
  rw [reverseFirst, List.take_left' length, List.drop_left' length, List.reverse_reverse]

/-- A value with room for its digits and the terminator. -/
theorem convert_fits {n : Nat} {outbuf : List UInt8} (large : 32 ≤ outbuf.length)
    (room : (decimal n).length < outbuf.length) :
    convert outbuf n =
      .ok (decimal n ++ 0 :: outbuf.drop ((decimal n).length + 1), (decimal n).length) := by
  have digits : (outbuf.take (decimal n).length).length = (decimal n).length :=
    List.length_take_of_le (Nat.le_of_lt room)
  have cut : outbuf = outbuf.take (decimal n).length ++ outbuf.drop (decimal n).length :=
    (List.take_append_drop _ _).symm
  have behind : outbuf.drop (decimal n).length =
      outbuf[(decimal n).length] :: outbuf.drop ((decimal n).length + 1) :=
    List.drop_eq_getElem_cons room
  have loop := digitLoop_fits [] (outbuf.drop (decimal n).length) digits
  rw [List.nil_append, ← cut, behind] at loop
  have terminate := put_front (decimal n).reverse outbuf[(decimal n).length]
    (outbuf.drop ((decimal n).length + 1)) 0
  rw [List.length_reverse] at terminate
  have positive : ¬(n : Int) < 0 := by omega
  simp only [convert, if_neg (Nat.not_lt.mpr large), List.length_nil, List.nil_append, Nat.zero_add]
    at loop ⊢
  simp only [loop, Checked.ok_bind, if_neg positive, Checked.pure_eq_ok, terminate]
  rw [List.append_assoc, List.singleton_append, reverseFirst_reverse]

/-- Without it a store goes past the end. -/
theorem convert_overflows {n : Nat} {outbuf : List UInt8} (large : 32 ≤ outbuf.length)
    (full : outbuf.length ≤ (decimal n).length) : convert outbuf n = .error .outOfBounds := by
  simp only [convert, if_neg (Nat.not_lt.mpr large)]
  rcases Nat.lt_or_eq_of_le full with short | exact
  · -- A digit does.
    have loop := digitLoop_overflows [] short
    rw [List.nil_append, List.length_nil] at loop
    rw [loop, Checked.error_bind]
  · -- The digits fill all bytes, and the terminator goes behind them.
    have loop := digitLoop_fits [] [] exact
    have positive : ¬(n : Int) < 0 := by omega
    simp only [List.length_nil, List.nil_append, List.append_nil, Nat.zero_add] at loop
    simp only [loop, Checked.ok_bind, if_neg positive, Checked.pure_eq_ok]
    rw [put_full (by rw [List.length_reverse]), Checked.error_bind]

theorem convert_nonneg {outbuf : List UInt8} {value : Int} {result : List UInt8 × Nat}
    (large : 32 ≤ outbuf.length) (ok : convert outbuf value = .ok result) : 0 ≤ value := by
  simp only [convert, if_neg (Nat.not_lt.mpr large)] at ok
  obtain ⟨_, looped, _⟩ := Checked.bind_ok_iff.mp ok
  exact digitLoop_nonneg looped

/-- `convert` leaves the numeral of the value with a terminator, touches nothing behind it, and
returns its length. -/
def Renders (outbuf : List UInt8) (value : Int) : Prop :=
  ∃ text, IsNumeral text value ∧ text.length < outbuf.length ∧
    convert outbuf value = .ok (text ++ 0 :: outbuf.drop (text.length + 1), text.length)

theorem renders_natCast_iff {outbuf : List UInt8} (large : 32 ≤ outbuf.length) (n : Nat) :
    Renders outbuf n ↔ n < 10 ^ (outbuf.length - 1) := by
  rw [← decimal_length_le_iff (by omega)]
  constructor
  · rintro ⟨text, _, _, ok⟩
    by_contra full
    rw [convert_overflows large (by omega)] at ok
    cases ok
  · intro fits
    have room : (decimal n).length < outbuf.length := by omega
    exact ⟨decimal n, isNumeral_decimal n, room, convert_fits large room⟩

/-- **Signed integers**: of a signed type of any width, `convert` renders exactly the values that
are not negative (and whose digits leave room for the terminator, as all of up to 64 bits do). -/
theorem signed_rendered_iff {width : Nat} (value : BitVec width) {outbuf : List UInt8}
    (large : 32 ≤ outbuf.length) :
    Renders outbuf value.toInt ↔
      0 ≤ value.toInt ∧ value.toInt < 10 ^ (outbuf.length - 1) := by
  constructor
  · intro renders
    have nonneg : 0 ≤ value.toInt := by
      obtain ⟨_, _, _, ok⟩ := renders
      exact convert_nonneg large ok
    obtain ⟨n, eq⟩ := Int.eq_ofNat_of_zero_le nonneg
    rw [eq] at renders ⊢
    have below := (renders_natCast_iff large n).mp renders
    exact ⟨Int.natCast_nonneg n, by exact_mod_cast below⟩
  · rintro ⟨nonneg, below⟩
    obtain ⟨n, eq⟩ := Int.eq_ofNat_of_zero_le nonneg
    rw [eq] at below ⊢
    exact (renders_natCast_iff large n).mpr (by exact_mod_cast below)

/-- `42` of a 32-bit type. -/
theorem fortyTwo_rendered : Renders (List.replicate 32 0) (42#32).toInt :=
  (signed_rendered_iff (42#32) (by decide)).mpr (by decide)

/-- `-1` indexes `kDigits` with `-1`. -/
theorem minusOne_not_rendered : ¬Renders (List.replicate 32 0) (-1#32).toInt := by
  rintro ⟨_, _, _, ok⟩
  have nonneg := convert_nonneg (by decide) ok
  exact absurd nonneg (by decide)

end Clia.Util
