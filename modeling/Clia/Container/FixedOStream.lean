import Clia.Container.FixedBuffer
import Clia.Library.LabelledRun

/-!
# The fixed output stream

`container/fixed_ostream.h`: `operator<<` for texts and characters over a `FixedBuffer`. No
insertion looks at the room that is left, so a run of insertions is safe exactly while the
texts together stay below `Nm`.
-/

namespace Clia.Container

structure FixedOStream (Nm : Nat) where
  buffer : FixedBuffer UInt8 Nm

/-- The operand of one `operator<<`. A `const char*` is null or points at bytes that end at
their first NUL; a `std::string` may hold NULs. -/
inductive Insertion where
  | cstring (str : Option (List UInt8))
  | character (val : UInt8)
  | string (str : List UInt8)
  deriving DecidableEq, Repr

/-- `std::strlen`. -/
def strlen (str : List UInt8) : Nat := (str.takeWhile (· != 0)).length

/-- `(null)`. -/
def kNullStr : List UInt8 := [0x28, 0x6e, 0x75, 0x6c, 0x6c, 0x29]

/-- The bytes an insertion hands to the buffer. -/
def Insertion.text : Insertion → List UInt8
  | .cstring (some str) => str.take (strlen str)
  | .cstring none => kNullStr
  | .character val => [val]
  | .string str => str

namespace FixedOStream

variable {Nm : Nat}

def new (Nm : Nat) (memory : Nat → UInt8) : FixedOStream Nm := ⟨.new Nm memory⟩

/-- `operator<<`. -/
def insert (out : FixedOStream Nm) : Insertion → Except Fault (FixedOStream Nm)
  | .cstring (some str) => do
    let buffer ← out.buffer.append (str.take (strlen str))
    return ⟨buffer⟩
  -- A null pointer prints as `(null)`.
  | .cstring none => do
    let buffer ← out.buffer.append kNullStr
    return ⟨buffer⟩
  | .character val => do
    let buffer ← out.buffer.appendOne val
    return ⟨buffer⟩
  | .string str => do
    let buffer ← out.buffer.append str
    return ⟨buffer⟩

theorem insert_ok (out : FixedOStream Nm) (ins : Insertion)
    (room : out.buffer.cur + ins.text.length < Nm) :
    out.insert ins = .ok ⟨out.buffer.pushed ins.text⟩ := by
  cases ins with
  | cstring str =>
    cases str with
    | none => simp only [insert, FixedBuffer.append_ok _ kNullStr room]; rfl
    | some str => simp only [insert, FixedBuffer.append_ok _ (str.take (strlen str)) room]; rfl
  | character val => simp only [insert, FixedBuffer.appendOne_ok _ val room]; rfl
  | string str => simp only [insert, FixedBuffer.append_ok _ str room]; rfl

theorem insert_full (out : FixedOStream Nm) (ins : Insertion) (inside : out.buffer.cur < Nm)
    (full : Nm ≤ out.buffer.cur + ins.text.length) :
    ∃ site, out.insert ins = .error (.assertion site) := by
  have le : out.buffer.cur ≤ Nm := Nat.le_of_lt inside
  cases ins with
  | cstring str =>
    cases str with
    | none => exact ⟨_, by simp only [insert, FixedBuffer.append_full _ kNullStr le full]; rfl⟩
    | some str =>
      exact ⟨_, by simp only [insert, FixedBuffer.append_full _ (str.take (strlen str)) le full]; rfl⟩
  | character val =>
    exact ⟨_, by simp only [insert, FixedBuffer.appendOne_full _ val inside full]; rfl⟩
  | string str => exact ⟨_, by simp only [insert, FixedBuffer.append_full _ str le full]; rfl⟩

/-! ### Runs of insertions -/

open LabelledRun

/-- All bytes of a run of insertions. -/
def totalText (inss : List Insertion) : List UInt8 := inss.flatMap Insertion.text

/-- A run whose text fits appends exactly its text. -/
theorem run_fits (out : FixedOStream Nm) (inss : List Insertion)
    (room : out.buffer.cur + (totalText inss).length < Nm) :
    ∃ after, run insert out inss = .ok after ∧
      after.buffer.cur = out.buffer.cur + (totalText inss).length ∧
      after.buffer.contents = out.buffer.contents ++ totalText inss := by
  -- The room left for the remaining texts is the invariant of the induction.
  induction inss generalizing out with
  | nil => exact ⟨out, rfl, by simp [totalText], by simp [totalText]⟩
  | cons ins inss ih =>
    simp only [totalText, List.flatMap_cons, List.length_append] at room ih ⊢
    have first := insert_ok out ins (by omega)
    obtain ⟨after, ran, cur, contents⟩ := ih ⟨out.buffer.pushed ins.text⟩
      (by simp only [FixedBuffer.pushed_cur]; omega)
    refine ⟨after, by rw [run_cons_ok _ first, ran], ?_, ?_⟩
    · rw [cur, FixedBuffer.pushed_cur]
      omega
    · rw [contents, FixedBuffer.contents_pushed, List.append_assoc]

/-- A run whose text does not fit stops at a failed assertion. -/
theorem run_overflows (out : FixedOStream Nm) (inss : List Insertion)
    (inside : out.buffer.cur < Nm) (full : Nm ≤ out.buffer.cur + (totalText inss).length) :
    ∃ site, run insert out inss = .error (.assertion site) := by
  induction inss generalizing out with
  | nil => simp only [totalText, List.flatMap_nil, List.length_nil] at full; omega
  | cons ins inss ih =>
    simp only [totalText, List.flatMap_cons, List.length_append] at full ih
    by_cases room : out.buffer.cur + ins.text.length < Nm
    · -- This insertion fits, and a later one does not.
      have first := insert_ok out ins room
      rw [run_cons_ok _ first]
      exact ih _ room (by simp only [FixedBuffer.pushed_cur]; omega)
    · -- This insertion is the one that fails.
      obtain ⟨site, failed⟩ := insert_full out ins inside (by omega)
      exact ⟨site, by simp only [run, failed]⟩

/-- No assertion fails at any point of the insertions, and the write position stays inside
`data_[0 .. Nm)`. -/
def Safe (Nm : Nat) (memory : Nat → UInt8) (inss : List Insertion) : Prop :=
  ∀ front, front <+: inss →
    ∃ after, run insert (new Nm memory) front = .ok after ∧ after.buffer.cur < Nm

private theorem safe_of_fits (memory : Nat → UInt8) (inss : List Insertion)
    (fits : (totalText inss).length < Nm) : Safe Nm memory inss := by
  rintro front ⟨rest, rfl⟩
  -- A first part of the insertions has no more text than all of them.
  have shorter : (totalText front).length < Nm := by
    simp only [totalText, List.flatMap_append, List.length_append] at fits ⊢
    omega
  obtain ⟨after, ran, cur, _⟩ := run_fits (new Nm memory) front (by simpa [new, FixedBuffer.new])
  refine ⟨after, ran, ?_⟩
  rw [cur]
  simpa [new, FixedBuffer.new] using shorter

private theorem not_safe_of_overflow (memory : Nat → UInt8) (inss : List Insertion)
    (positive : 0 < Nm) (full : Nm ≤ (totalText inss).length) : ¬Safe Nm memory inss := by
  intro safe
  obtain ⟨after, ran, _⟩ := safe inss List.prefix_rfl
  obtain ⟨site, failed⟩ := run_overflows (new Nm memory) inss positive
    (by simpa [new, FixedBuffer.new] using full)
  rw [failed] at ran
  cases ran

/-- **Safety of a stream**: the insertions of strings and characters are safe exactly when
their texts together are shorter than the buffer. -/
theorem insertions_safe_iff (positive : 0 < Nm) (memory : Nat → UInt8) (inss : List Insertion) :
    Safe Nm memory inss ↔ (totalText inss).length < Nm := by
  constructor
  · intro safe
    by_contra full
    exact not_safe_of_overflow memory inss positive (Nat.le_of_not_lt full) safe
  · exact safe_of_fits memory inss

theorem insertions_safe_hello :
    Safe 8 (fun _ => 0) [.string [0x68, 0x69], .character 0x21] :=
  (insertions_safe_iff (by decide) _ _).mpr (by decide)

/-- A received message of 1024 bytes does not fit the stream of a log `Event`. -/
theorem event_overflows_on_long_message :
    ¬Safe 1024 (fun _ => 0) [.string (List.replicate 1024 0x41)] := by
  apply not_safe_of_overflow _ _ (by decide)
  simp only [totalText, Insertion.text, List.flatMap_cons, List.flatMap_nil, List.append_nil,
    List.length_replicate, Nat.le_refl]

end FixedOStream

end Clia.Container
