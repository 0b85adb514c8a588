import Mathlib.Logic.Basic

/-!
# Checked computations

Code whose only failures are failed checks is written in `Except Fault`. The rules below take
a successful computation apart, run one whose checks are known to hold, and bound the faults
that one can stop with (`Raises`).
-/

namespace Checked

universe u

variable {Fault : Type*} {α β : Type u}

/-- Go on if `p` holds, else stop with `f`. -/
def require (p : Prop) [Decidable p] (f : Fault) : Except Fault Unit :=
  if p then .ok () else .error f

@[simp] theorem ok_bind (a : α) (k : α → Except Fault β) : (Except.ok a >>= k) = k a := rfl

@[simp] theorem error_bind (f : Fault) (k : α → Except Fault β) :
    ((Except.error f : Except Fault α) >>= k) = .error f := rfl

@[simp] theorem pure_eq_ok (a : α) : (pure a : Except Fault α) = .ok a := rfl

/-- A sequence succeeds exactly when its first part does and the rest succeeds on its value. -/
theorem bind_ok_iff {x : Except Fault α} {k : α → Except Fault β} {b : β} :
    x >>= k = .ok b ↔ ∃ a, x = .ok a ∧ k a = .ok b := by
  cases x with
  | error f => simp
  | ok a => simp

theorem bind_error_iff {x : Except Fault α} {k : α → Except Fault β} {f : Fault} :
    x >>= k = .error f ↔ x = .error f ∨ ∃ a, x = .ok a ∧ k a = .error f := by
  cases x with
  | error g => simp
  | ok a => simp

theorem require_pos {p : Prop} [Decidable p] (f : Fault) (holds : p) :
    require p f = .ok () := if_pos holds

theorem require_neg {p : Prop} [Decidable p] (f : Fault) (fails : ¬p) :
    require p f = .error f := if_neg fails

@[simp] theorem require_ok_iff {p : Prop} [Decidable p] {f : Fault} {u : Unit} :
    require p f = .ok u ↔ p := by
  unfold require
  split <;> simp_all

@[simp] theorem require_error_iff {p : Prop} [Decidable p] {f g : Fault} :
    require p f = .error g ↔ ¬p ∧ f = g := by
  unfold require
  split <;> simp_all

/-- A step that is nothing but its guard and its result. -/
theorem guarded_ok_iff {γ : Type} {p : Prop} [Decidable p] {f : Fault} {a b : γ} :
    (require p f >>= fun _ => pure a) = Except.ok b ↔ p ∧ b = a := by
  constructor
  · intro ok
    obtain ⟨_, holds, same⟩ := bind_ok_iff.mp ok
    cases same
    exact ⟨require_ok_iff.mp holds, rfl⟩
  · rintro ⟨holds, rfl⟩
    rw [require_pos f holds, ok_bind, pure_eq_ok]

/-! ### Possible faults -/

/-- Every fault that `x` can stop with satisfies `P`. -/
def Raises (P : Fault → Prop) (x : Except Fault α) : Prop := ∀ f, x = .error f → P f

namespace Raises

variable {P : Fault → Prop}

theorem ok (a : α) : Raises P (Except.ok a) := by
  intro f failed
  cases failed

theorem error {f : Fault} (allowed : P f) : Raises P (Except.error f : Except Fault α) := by
  intro g failed
  cases failed
  exact allowed

theorem require {p : Prop} [Decidable p] {f : Fault} (allowed : P f) :
    Raises P (require p f) := by
  intro g failed
  obtain ⟨_, rfl⟩ := require_error_iff.mp failed
  exact allowed

theorem bind {x : Except Fault α} {k : α → Except Fault β} (first : Raises P x)
    (rest : ∀ a, x = .ok a → Raises P (k a)) : Raises P (x >>= k) := by
  intro f failed
  rcases bind_error_iff.mp failed with early | ⟨a, passed, late⟩
  · exact first f early
  · exact rest a passed f late

theorem ite {c : Prop} [Decidable c] {x y : Except Fault α} (yes : c → Raises P x)
    (no : ¬c → Raises P y) : Raises P (if c then x else y) := by
  split
  next holds => exact yes holds
  next fails => exact no fails

end Raises

end Checked
