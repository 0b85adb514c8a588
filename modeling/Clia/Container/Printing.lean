import Clia.Container.FixedOStream
import Clia.Util.StrFunc

/-!
# Numbers in a fixed output stream

The insertions of `container/fixed_ostream.h` that let another function write at `current()` and
then `add` what it returns: `convert` for the integers, the `printf` family for `format`, pointers
and floating-point numbers. What `snprintf` returns is the length of the whole text, also if only
the first `avail() - 1` characters of it are stored.

## Main results

`FixedOStream.unsigned_rendered`: an unsigned integer of up to 64 bits advances the stream by its
numeral. `FixedOStream.printed_exactly_iff`: a formatted text does so exactly if it is not cut off.
-/

namespace Clia.Container

open CString

/-! ### Writing past the write position -/

namespace FixedBuffer

variable {Tp : Type} {Nm : Nat}

/-- The `avail()` elements at `current()`. -/
def region (b : FixedBuffer Tp Nm) : List Tp :=
  (List.range b.avail.toNat).map fun i => b.data (b.cur + i)

theorem region_length (b : FixedBuffer Tp Nm) : b.region.length = b.avail.toNat := by
  simp [region]

/-- Of what was stored at `current()`, an `add` takes the first part. -/
theorem contents_stored (b : FixedBuffer Tp Nm) (taken rest : List Tp) :
    (⟨store b.data b.cur (taken ++ rest), b.cur + taken.length⟩ : FixedBuffer Tp Nm).contents =
      b.contents ++ taken := by
  have all := contents_pushed b (taken ++ rest)
  simp only [pushed, contents, List.length_append, ← Nat.add_assoc] at all ⊢
  rw [List.range_add, List.map_append, ← List.append_assoc] at all
  exact List.append_inj_left all (by simp)

end FixedBuffer

/-! ### Integers -/

/-- The operand of an `operator<<` for integers. -/
inductive Integral where
  | unsignedChar (val : UInt8)
  | short (val : Int16)
  | unsignedShort (val : UInt16)
  | int (val : Int32)
  | unsignedInt (val : UInt32)
  | long (val : Int64)
  | unsignedLong (val : UInt64)
  | unsignedLongLong (val : UInt64)
  | longLong (val : Int64)
  deriving DecidableEq

def Integral.value : Integral → Int
  | .unsignedChar val => val.toNat
  | .short val => val.toInt
  | .unsignedShort val => val.toNat
  | .int val => val.toInt
  | .unsignedInt val => val.toNat
  | .long val => val.toInt
  | .unsignedLong val => val.toNat
  | .unsignedLongLong val => val.toNat
  | .longLong val => val.toInt

namespace FixedOStream

variable {Nm : Nat}

/-- The body that all these operators have. -/
def insertValue (out : FixedOStream Nm) (val : Int) : Except Fault (FixedOStream Nm) := do
  let (bytes, n) ← Util.convert out.buffer.region val
  let buffer ← FixedBuffer.add { out.buffer with data := store out.buffer.data out.buffer.cur bytes } n
  return ⟨buffer⟩

def insertIntegral (out : FixedOStream Nm) (operand : Integral) : Except Fault (FixedOStream Nm) :=
  out.insertValue operand.value

theorem insertValue_renders {out : FixedOStream Nm} {text : List UInt8} {rest : List UInt8} {val : Int}
    (converted : Util.convert out.buffer.region val = .ok (text ++ rest, text.length))
    (room : out.buffer.cur + text.length < Nm) :
    ∃ after, out.insertValue val = .ok after ∧
      after.buffer.cur = out.buffer.cur + text.length ∧
      after.buffer.contents = out.buffer.contents ++ text := by
  refine ⟨⟨⟨store out.buffer.data out.buffer.cur (text ++ rest), out.buffer.cur + text.length⟩⟩, ?_, rfl,
    FixedBuffer.contents_stored _ _ _⟩
  have added := FixedBuffer.add_ok
    { out.buffer with data := store out.buffer.data out.buffer.cur (text ++ rest) } text.length room
  simp only [insertValue, converted, Checked.ok_bind, added, Checked.pure_eq_ok]

/-- **Unsigned integers**: `convert` renders every value of an unsigned type of up to 64 bits, within
32 bytes and as a text of its own, and the stream advances by exactly that text. -/
theorem unsigned_rendered {width : Nat} (narrow : width ≤ 64) :
    ∃ text : BitVec width → List UInt8, Function.Injective text ∧ ∀ val : BitVec width,
      IsNumeral (text val) val.toNat ∧ (text val).length + 1 ≤ 32 ∧
      (∀ outbuf : List UInt8, 32 ≤ outbuf.length →
        Util.convert outbuf val.toNat =
          .ok (text val ++ 0 :: outbuf.drop ((text val).length + 1), (text val).length)) ∧
      ∀ (Nm : Nat) (out : FixedOStream Nm) (operand : Integral), operand.value = val.toNat →
        32 ≤ out.buffer.avail → ∃ after, out.insertIntegral operand = .ok after ∧
          after.buffer.size = out.buffer.size + (text val).length ∧
          after.buffer.contents = out.buffer.contents ++ text val := by
  refine ⟨fun val => decimal val.toNat, ?_, ?_⟩
  · intro val other same
    exact BitVec.eq_of_toNat_eq (decimal_injective same)
  intro val
  -- Twenty digits are enough for 64 bits.
  have short : (decimal val.toNat).length ≤ 20 := by
    rw [decimal_length_le_iff (by decide)]
    calc val.toNat < 2 ^ width := val.isLt
      _ ≤ 2 ^ 64 := Nat.pow_le_pow_right (by decide) narrow
      _ < 10 ^ 20 := by decide
  refine ⟨isNumeral_decimal _, Nat.succ_le_of_lt (Nat.lt_of_le_of_lt short (by decide)), ?_, ?_⟩
  · intro outbuf large
    exact Util.convert_fits large (by omega)
  · intro Nm out operand same room
    have large : 32 ≤ out.buffer.region.length := by
      rw [FixedBuffer.region_length]
      omega
    have converted := Util.convert_fits large (by omega : (decimal val.toNat).length < _)
    rw [← same] at converted
    obtain ⟨after, ok, cur, contents⟩ := insertValue_renders converted
      (by simp only [FixedBuffer.avail] at room; omega)
    refine ⟨after, ok, ?_, contents⟩
    simp only [FixedBuffer.size, cur, Int.natCast_add]

/-- The largest `unsigned long` in a stream of a log `Event`. -/
theorem largest_unsigned_long_rendered :
    ∃ text after, IsNumeral text 18446744073709551615 ∧
      (new 1024 fun _ => 0).insertIntegral (.unsignedLong 18446744073709551615) = .ok after ∧
      after.buffer.contents = text := by
  obtain ⟨text, _, rendered⟩ := unsigned_rendered (Nat.le_refl 64)
  obtain ⟨numeral, _, _, inserted⟩ := rendered (BitVec.allOnes 64)
  obtain ⟨after, ok, _, contents⟩ := inserted 1024 (new 1024 fun _ => 0)
    (.unsignedLong 18446744073709551615) rfl (by decide)
  exact ⟨_, after, numeral, ok, contents⟩

end FixedOStream

/-! ### The `printf` family -/

/-- What a format and its arguments give: the whole text, or an error. -/
inductive Formatted where
  | text (bytes : List UInt8)
  | failed (code : Int32) (negative : code.toInt < 0)

namespace Formatted

/-- What `snprintf` and `vsnprintf` return. -/
def returned : Formatted → Int
  | .text bytes => bytes.length
  | .failed code _ => code.toInt

/-- The characters that they store in `size` bytes, before a terminator. -/
def stored (size : Nat) : Formatted → List UInt8
  | .text bytes => bytes.take (size - 1)
  | .failed _ _ => []

theorem stored_whole {size : Nat} {bytes : List UInt8} (room : bytes.length < size) :
    (text bytes).stored size = bytes :=
  List.take_of_length_le (by omega)

theorem returned_length (bytes : List UInt8) : toSizeT (text bytes).returned = bytes.length :=
  toSizeT_of_nonneg (Int.natCast_nonneg _)

end Formatted

/-- The insertions that call the family, with arguments of any type. -/
inductive Print (Arg : Type) where
  | format (fmt : List UInt8) (args : List Arg)
  | pointer (ptr : Arg)
  | float (val : Arg)
  | double (val : Arg)

/-- The text that an insertion asks for. `sprint` is the C library. -/
def Print.formatted {Arg : Type} (sprint : List UInt8 → List Arg → Formatted) : Print Arg → Formatted
  | .format fmt args => sprint fmt args
  | .pointer ptr => sprint (ascii "0x%p") [ptr]
  | .float val => sprint (ascii "%.2f") [val]
  | .double val => sprint (ascii "%.2lf") [val]

namespace FixedOStream

variable {Nm : Nat} {Arg : Type}

/-- `snprintf` at `current()` with `avail()` bytes, and `add` of what it returns. -/
def printed (out : FixedOStream Nm) (result : Formatted) : Except Fault (FixedOStream Nm) := do
  let size := toSizeT out.buffer.avail
  let bytes := if size = 0 then [] else result.stored size ++ [0]
  let data := store out.buffer.data out.buffer.cur bytes
  let buffer ← FixedBuffer.add { out.buffer with data := data } (toSizeT result.returned)
  return ⟨buffer⟩

/-- `format`, and `operator<<` of a pointer, a `float` or a `double`. -/
def print (sprint : List UInt8 → List Arg → Formatted) (out : FixedOStream Nm) (ins : Print Arg) :
    Except Fault (FixedOStream Nm) :=
  out.printed (ins.formatted sprint)

/-- No assertion fails, and the stream is longer by exactly the characters that were stored. -/
def PrintsExactly (sprint : List UInt8 → List Arg → Formatted) (out : FixedOStream Nm)
    (ins : Print Arg) : Prop :=
  ∃ after, out.print sprint ins = .ok after ∧ after.buffer.size < Nm ∧
    after.buffer.size =
      out.buffer.size + ((ins.formatted sprint).stored (toSizeT out.buffer.avail)).length ∧
    after.buffer.contents =
      out.buffer.contents ++ (ins.formatted sprint).stored (toSizeT out.buffer.avail)

/-- The text is there, and one byte is left for the terminator. -/
def NotCutOff (out : FixedOStream Nm) : Formatted → Prop
  | .text bytes => bytes.length < out.buffer.avail
  | .failed _ _ => False

instance (out : FixedOStream Nm) : (result : Formatted) → Decidable (out.NotCutOff result)
  | .text _ => inferInstanceAs (Decidable (_ < _))
  | .failed _ _ => isFalse id

theorem printed_ok {out : FixedOStream Nm} {bytes : List UInt8}
    (room : out.buffer.cur + bytes.length < Nm) :
    ∃ after, out.printed (.text bytes) = .ok after ∧
      after.buffer.cur = out.buffer.cur + bytes.length ∧
      after.buffer.contents = out.buffer.contents ++ bytes := by
  have size := FixedBuffer.avail_size (b := out.buffer) (by omega)
  have whole := Formatted.stored_whole (by omega : bytes.length < toSizeT out.buffer.avail)
  have added := FixedBuffer.add_ok
    { out.buffer with data := store out.buffer.data out.buffer.cur (bytes ++ [0]) } bytes.length room
  refine ⟨⟨⟨store out.buffer.data out.buffer.cur (bytes ++ [0]), out.buffer.cur + bytes.length⟩⟩, ?_,
    rfl, FixedBuffer.contents_stored _ _ _⟩
  simp only [printed, whole, Formatted.returned_length, if_neg (by omega : ¬toSizeT out.buffer.avail = 0), added,
    Checked.ok_bind, Checked.pure_eq_ok]

/-- `add` refuses a length that is cut off, and a negative one, which wraps. -/
theorem printed_refused (int_size : Nm < 2 ^ 31) {out : FixedOStream Nm} (inside : out.buffer.cur < Nm)
    {result : Formatted} (cut : ¬out.NotCutOff result) :
    out.printed result = .error (.assertion .availAboveLen) := by
  have large : Nm ≤ out.buffer.cur + toSizeT result.returned := by
    cases result with
    | text bytes =>
      have wanted := Formatted.returned_length bytes
      simp only [NotCutOff, FixedBuffer.avail] at cut
      omega
    | failed code negative =>
      have least := Int32.minValue_le_toInt code
      have wraps : toSizeT (Formatted.returned (.failed code negative)) =
          (code.toInt + UInt64.size).toNat := if_neg (Int.not_le.mpr negative)
      have size : UInt64.size = 2 ^ 64 := rfl
      have bound : Int32.minValue.toInt = -2 ^ 31 := rfl
      omega
  have refused : ∀ data : Nat → UInt8,
      FixedBuffer.add { out.buffer with data := data } (toSizeT result.returned) =
        .error (.assertion .availAboveLen) :=
    fun _ => FixedBuffer.add_full _ _ (Nat.le_of_lt inside) large
  simp only [printed, refused, Checked.error_bind]

/-- **Formatted insertions**: `format`, and `<<` of a pointer or a floating-point number, are exact
and raise no assertion if and only if the whole text with its terminator fits. -/
theorem printed_exactly_iff (int_size : Nm < 2 ^ 31) (sprint : List UInt8 → List Arg → Formatted)
    (out : FixedOStream Nm) (room : 1 ≤ out.buffer.avail) (ins : Print Arg) :
    PrintsExactly sprint out ins ↔ out.NotCutOff (ins.formatted sprint) := by
  have inside : out.buffer.cur < Nm := by
    simp only [FixedBuffer.avail] at room
    omega
  constructor
  · rintro ⟨after, ok, _⟩
    by_contra cut
    rw [print, printed_refused int_size inside cut] at ok
    cases ok
  · intro fits
    cases result : ins.formatted sprint with
    | failed code negative =>
      rw [result] at fits
      cases fits
    | text bytes =>
      simp only [result, NotCutOff, FixedBuffer.avail] at fits
      obtain ⟨after, ok, cur, contents⟩ := printed_ok (by omega : out.buffer.cur + bytes.length < Nm)
      have size := FixedBuffer.avail_size (Nat.le_of_lt inside)
      have whole := Formatted.stored_whole (by omega : bytes.length < toSizeT out.buffer.avail)
      refine ⟨after, by rw [print, result, ok], ?_, ?_, ?_⟩
      · simp only [FixedBuffer.size, cur]
        omega
      · rw [result, whole]
        simp only [FixedBuffer.size, cur, Int.natCast_add]
      · rw [result, whole, contents]

/-- A format without conversions is its own text. -/
def verbatim (fmt : List UInt8) (_ : List Int) : Formatted := .text fmt

theorem hello_printed_exactly :
    PrintsExactly verbatim (new 1024 fun _ => 0) (.format (ascii "hello") []) :=
  (printed_exactly_iff (by decide) verbatim _ (by decide) _).mpr (by decide)

/-- A `format` of 1024 characters in a fresh log `Event`: 1023 are stored, and the assertion of `add`
fails. -/
theorem long_format_refused :
    ¬PrintsExactly verbatim (new 1024 fun _ => 0) (.format (List.replicate 1024 0x41) []) := by
  rintro ⟨after, ok, _⟩
  have cut : ¬NotCutOff (new 1024 fun _ => 0) (.text (List.replicate 1024 0x41)) := by
    simp only [NotCutOff, List.length_replicate]
    decide
  rw [print, Print.formatted, verbatim, printed_refused (by decide) (by decide) cut] at ok
  cases ok

end FixedOStream

end Clia.Container
