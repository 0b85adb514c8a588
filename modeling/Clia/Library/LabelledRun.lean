import Mathlib.Data.List.Basic

/-!
# Runs of a labelled step function

A system is a step function `State → Label → Except Fault State`: the label carries every
choice the environment makes (which thread moves, what a system call returns), so a schedule
is a list of labels and the run over it is a plain function. A property of every reachable
state is a property of every `run`, since each prefix of a schedule is a schedule.

`Along` lifts a condition on single steps to a whole run, for results that hold only of the
runs whose steps all meet it.
-/

namespace LabelledRun

variable {State Label Fault : Type*}
variable {step : State → Label → Except Fault State}

/-- The run over a list of labels. It stops at the first fault. -/
def run (step : State → Label → Except Fault State) (s : State) :
    List Label → Except Fault State
  | [] => .ok s
  | l :: ls =>
    match step s l with
    | .ok t => run step t ls
    | .error f => .error f

theorem run_cons_ok {s t : State} {l : Label} (ls : List Label) (taken : step s l = .ok t) :
    run step s (l :: ls) = run step t ls := by
  simp only [run, taken]

/-- The first step of a successful run. -/
theorem run_cons_inv {s u : State} {l : Label} {ls : List Label}
    (ran : run step s (l :: ls) = .ok u) : ∃ t, step s l = .ok t ∧ run step t ls = .ok u := by
  simp only [run] at ran
  cases taken : step s l with
  | error f => simp [taken] at ran
  | ok t => exact ⟨t, rfl, by simpa [taken] using ran⟩

/-- The state between two parts of a successful run. -/
theorem run_append_inv {s u : State} {xs ys : List Label}
    (ran : run step s (xs ++ ys) = .ok u) : ∃ t, run step s xs = .ok t ∧ run step t ys = .ok u := by
  induction xs generalizing s with
  | nil => exact ⟨s, rfl, ran⟩
  | cons l xs ih =>
    obtain ⟨v, taken, later⟩ := run_cons_inv ran
    obtain ⟨t, first, rest⟩ := ih later
    exact ⟨t, by rw [run_cons_ok xs taken, first], rest⟩

/-- The run over two parts of a schedule. -/
theorem run_append (s : State) (xs ys : List Label) :
    run step s (xs ++ ys) = run step s xs >>= fun t => run step t ys := by
  induction xs generalizing s with
  | nil => rfl
  | cons l xs ih =>
    simp only [List.cons_append, run]
    cases step s l with
    | error f => rfl
    | ok t => exact ih t

/-! ### Invariants -/

/-- `guard` holds of every step of the run: of each label in the state it is taken from. -/
def Along (step : State → Label → Except Fault State) (guard : State → Label → Prop)
    (s : State) : List Label → Prop
  | [] => True
  | l :: ls => guard s l ∧ ∀ t, step s l = .ok t → Along step guard t ls

/-- The condition is checked by running the schedule. -/
def Along.decide (guard : State → Label → Prop) [∀ s l, Decidable (guard s l)] :
    ∀ (s : State) (ls : List Label), Decidable (Along step guard s ls)
  | _, [] => isTrue trivial
  | s, l :: ls =>
    match taken : step s l with
    | .ok t =>
      have := Along.decide guard t ls
      decidable_of_iff (guard s l ∧ Along step guard t ls) (by simp [Along, taken])
    | .error _ => decidable_of_iff (guard s l) (by simp [Along, taken])

instance (guard : State → Label → Prop) [∀ s l, Decidable (guard s l)] (s : State)
    (ls : List Label) : Decidable (Along step guard s ls) := Along.decide guard s ls

theorem Along.of_labels {guard : State → Label → Prop} {ls : List Label}
    (all : ∀ l ∈ ls, ∀ s, guard s l) (s : State) : Along step guard s ls := by
  induction ls generalizing s with
  | nil => trivial
  | cons l ls ih =>
    refine ⟨all l (by simp) s, ?_⟩
    intro t _
    exact ih (fun l' member => all l' (by simp [member])) t

theorem along_cons_ok {guard : State → Label → Prop} {s t : State} {l : Label} {ls : List Label}
    (taken : step s l = .ok t) :
    Along step guard s (l :: ls) ↔ guard s l ∧ Along step guard t ls := by
  simp [Along, taken]

theorem Along.and {guard guard' : State → Label → Prop} {s : State} {ls : List Label}
    (along : Along step guard s ls) (along' : Along step guard' s ls) :
    Along step (fun s l => guard s l ∧ guard' s l) s ls := by
  induction ls generalizing s with
  | nil => trivial
  | cons l ls ih =>
    apply And.intro ⟨along.1, along'.1⟩
    intro t taken
    exact ih (along.2 t taken) (along'.2 t taken)

/-- The condition holds along the first part of a run. -/
theorem Along.of_append {guard : State → Label → Prop} {s : State} {xs ys : List Label}
    (along : Along step guard s (xs ++ ys)) : Along step guard s xs := by
  induction xs generalizing s with
  | nil => trivial
  | cons l xs ih =>
    apply And.intro along.1
    intro t taken
    exact ih (along.2 t taken)

theorem Along.append {guard : State → Label → Prop} {s : State} {xs ys : List Label}
    (first : Along step guard s xs) (rest : ∀ t, run step s xs = .ok t → Along step guard t ys) :
    Along step guard s (xs ++ ys) := by
  induction xs generalizing s with
  | nil => exact rest s rfl
  | cons l xs ih =>
    apply And.intro first.1
    intro t taken
    apply ih (first.2 t taken)
    intro u ran
    exact rest u (by rw [run_cons_ok xs taken, ran])

/-- The condition holds of the step that follows any part of the run. -/
theorem Along.at_step {guard : State → Label → Prop} {s t : State} {xs ys : List Label}
    {l : Label} (along : Along step guard s (xs ++ l :: ys)) (reached : run step s xs = .ok t) :
    guard t l := by
  induction xs generalizing s with
  | nil => cases reached; exact along.1
  | cons l' xs ih =>
    obtain ⟨u, taken, rest⟩ := run_cons_inv reached
    exact ih (along.2 u taken) rest

/-- What one guarded step preserves, a guarded run preserves. -/
theorem run_invariant_along {Inv : State → Prop} {guard : State → Label → Prop}
    (preserved : ∀ s l t, Inv s → guard s l → step s l = .ok t → Inv t)
    {s t : State} {ls : List Label} (initial : Inv s) (along : Along step guard s ls)
    (ran : run step s ls = .ok t) : Inv t := by
  induction ls generalizing s with
  | nil => cases ran; exact initial
  | cons l ls ih =>
    obtain ⟨u, taken, rest⟩ := run_cons_inv ran
    exact ih (preserved s l u initial along.1 taken) (along.2 u taken) rest

/-- What every step preserves, every run preserves. -/
theorem run_invariant {Inv : State → Prop}
    (preserved : ∀ s l t, Inv s → step s l = .ok t → Inv t)
    {s t : State} {ls : List Label} (initial : Inv s) (ran : run step s ls = .ok t) : Inv t := by
  have unguarded : Along step (fun _ _ => True) s ls := Along.of_labels (fun _ _ _ => trivial) s
  exact run_invariant_along (fun s l u inv _ => preserved s l u inv) initial unguarded ran

/-- If no guarded step from the invariant fails, no guarded run does. -/
theorem run_total_along {Inv : State → Prop} {guard : State → Label → Prop}
    (progress : ∀ s l, Inv s → guard s l → ∃ t, step s l = .ok t ∧ Inv t)
    {s : State} {ls : List Label} (initial : Inv s) (along : Along step guard s ls) :
    ∃ t, run step s ls = .ok t ∧ Inv t := by
  induction ls generalizing s with
  | nil => exact ⟨s, rfl, initial⟩
  | cons l ls ih =>
    obtain ⟨u, taken, inv⟩ := progress s l initial along.1
    obtain ⟨t, ran, final⟩ := ih inv (along.2 u taken)
    exact ⟨t, by rw [run_cons_ok ls taken, ran], final⟩

/-- Every step of a successful run is taken. -/
theorem along_taken {s t : State} {ls : List Label} (ran : run step s ls = .ok t) :
    Along step (fun s l => ∃ u, step s l = .ok u) s ls := by
  induction ls generalizing s with
  | nil => trivial
  | cons l ls ih =>
    obtain ⟨u, taken, later⟩ := run_cons_inv ran
    exact (along_cons_ok taken).mpr ⟨⟨u, taken⟩, ih later⟩

/-- A run that meets one condition meets another that follows from it wherever an invariant
holds. -/
theorem Along.imp {Inv : State → Prop} {guard guard' : State → Label → Prop}
    (preserved : ∀ s l t, Inv s → guard s l → step s l = .ok t → Inv t)
    (meets : ∀ s l, Inv s → guard s l → guard' s l) {s : State} {ls : List Label}
    (initial : Inv s) (along : Along step guard s ls) : Along step guard' s ls := by
  induction ls generalizing s with
  | nil => trivial
  | cons l ls ih =>
    refine ⟨meets s l initial along.1, ?_⟩
    intro t taken
    exact ih (preserved s l t initial along.1 taken) (along.2 t taken)

/-- A condition that holds in every state of an invariant holds of every step of a run. -/
theorem along_of_invariant {Inv : State → Prop} {guard : State → Label → Prop}
    (preserved : ∀ s l t, Inv s → step s l = .ok t → Inv t) (meets : ∀ s l, Inv s → guard s l)
    {s : State} (initial : Inv s) (ls : List Label) : Along step guard s ls := by
  have unguarded : Along step (fun _ _ => True) s ls := Along.of_labels (fun _ _ _ => trivial) s
  exact unguarded.imp (fun s l t inv _ => preserved s l t inv) (fun s l inv _ => meets s l inv)
    initial

/-- A guarded run only ends in the faults that a single step from the invariant can raise. -/
theorem run_fault_along {Inv : State → Prop} {guard : State → Label → Prop}
    {Allowed : Fault → Prop}
    (preserved : ∀ s l t, Inv s → guard s l → step s l = .ok t → Inv t)
    (faults : ∀ s l f, Inv s → guard s l → step s l = .error f → Allowed f)
    {s : State} {ls : List Label} {f : Fault} (initial : Inv s) (along : Along step guard s ls)
    (failed : run step s ls = .error f) : Allowed f := by
  induction ls generalizing s with
  | nil => cases failed
  | cons l ls ih =>
    simp only [run] at failed
    -- The fault is raised here, or further on from a state of the invariant.
    cases taken : step s l with
    | error g =>
      simp only [taken, Except.error.injEq] at failed
      subst g
      exact faults s l f initial along.1 taken
    | ok t =>
      simp only [taken] at failed
      exact ih (preserved s l t initial along.1 taken) (along.2 t taken) failed

/-- A run that stops without a certain fault meets the condition whose failure raises it. -/
theorem along_of_spared {guard : State → Label → Prop} {f : Fault}
    (raises : ∀ s l, ¬guard s l → step s l = .error f) {s : State} {ls : List Label}
    (spared : run step s ls ≠ .error f) : Along step guard s ls := by
  induction ls generalizing s with
  | nil => trivial
  | cons l ls ih =>
    simp only [run] at spared
    constructor
    · by_contra violated
      simp [raises s l violated] at spared
    · intro t taken
      simp only [taken] at spared
      exact ih spared

/-- Two step conditions that agree wherever an invariant holds agree along every run, also if
only steps that meet the condition keep the invariant. `assumed` is what is known of each step
beforehand. -/
theorem along_congr (Inv : State → Prop) {assumed guard guard' : State → Label → Prop}
    (preserved : ∀ s l t, Inv s → assumed s l → guard s l → step s l = .ok t → Inv t)
    (agree : ∀ s l, Inv s → assumed s l → (guard s l ↔ guard' s l))
    {s : State} {ls : List Label} (initial : Inv s) (along : Along step assumed s ls) :
    Along step guard s ls ↔ Along step guard' s ls := by
  induction ls generalizing s with
  | nil => exact Iff.rfl
  | cons l ls ih =>
    simp only [Along, ← agree s l initial along.1]
    -- The first step meets both conditions, so the invariant holds of what follows.
    refine and_congr_right fun met => forall_congr' fun t => imp_congr_right fun taken => ?_
    exact ih (preserved s l t initial along.1 met taken) (along.2 t taken)

/-- The case in which nothing is known of the steps beforehand. -/
theorem along_iff (Inv : State → Prop) {guard guard' : State → Label → Prop}
    (preserved : ∀ s l t, Inv s → guard s l → step s l = .ok t → Inv t)
    (agree : ∀ s l, Inv s → (guard s l ↔ guard' s l))
    {s : State} (initial : Inv s) (ls : List Label) :
    Along step guard s ls ↔ Along step guard' s ls := by
  have unguarded : Along step (fun _ _ => True) s ls := Along.of_labels (fun _ _ _ => trivial) s
  exact along_congr Inv (fun s l t inv _ => preserved s l t inv) (fun s l inv _ => agree s l inv)
    initial unguarded

/-- If every step keeps a property exactly on a condition, a run does so exactly if all its steps
meet the condition. `assumed` is what is known of each step beforehand. -/
theorem run_iff_along {Inv Holds : State → Prop} {assumed guard : State → Label → Prop}
    (preserved : ∀ s l t, Inv s → assumed s l → step s l = .ok t → Inv t)
    (step_iff : ∀ s l t, Inv s → assumed s l → step s l = .ok t → (Holds t ↔ Holds s ∧ guard s l))
    {s t : State} {ls : List Label} (initial : Inv s) (along : Along step assumed s ls)
    (ran : run step s ls = .ok t) : Holds t ↔ Holds s ∧ Along step guard s ls := by
  induction ls generalizing s with
  | nil =>
    cases ran
    exact (and_iff_left trivial).symm
  | cons l ls ih =>
    obtain ⟨u, taken, rest⟩ := run_cons_inv ran
    rw [ih (preserved s l u initial along.1 taken) (along.2 u taken) rest,
      step_iff s l u initial along.1 taken, and_assoc, along_cons_ok taken]

/-! ### What a run has done -/

/-- The steps of a run, each with the state it is taken from. -/
def trail (step : State → Label → Except Fault State) (s : State) :
    List Label → List (State × Label)
  | [] => []
  | l :: ls => (s, l) :: match step s l with
    | .ok t => trail step t ls
    | .error _ => []

/-- An invariant of the state together with the steps that led to it. -/
theorem run_trail_along {Inv : State → List (State × Label) → Prop} {guard : State → Label → Prop}
    (preserved : ∀ s l t done, Inv s done → guard s l → step s l = .ok t → Inv t (done ++ [(s, l)]))
    {s t : State} {ls : List Label} {done : List (State × Label)} (initial : Inv s done)
    (along : Along step guard s ls) (ran : run step s ls = .ok t) :
    Inv t (done ++ trail step s ls) := by
  induction ls generalizing s done with
  | nil =>
    cases ran
    simpa [trail] using initial
  | cons l ls ih =>
    obtain ⟨u, taken, rest⟩ := run_cons_inv ran
    have later := ih (preserved s l u done initial along.1 taken) (along.2 u taken) rest
    simpa [trail, taken] using later

/-- The case without a condition on the steps. -/
theorem run_trail {Inv : State → List (State × Label) → Prop}
    (preserved : ∀ s l t done, Inv s done → step s l = .ok t → Inv t (done ++ [(s, l)]))
    {s t : State} {ls : List Label} (initial : Inv s []) (ran : run step s ls = .ok t) :
    Inv t (trail step s ls) := by
  have unguarded : Along step (fun _ _ => True) s ls := Along.of_labels (fun _ _ _ => trivial) s
  exact run_trail_along (fun s l u done inv _ => preserved s l u done inv) initial unguarded ran

/-! ### Systems with a part -/

/-- The rule for a goal that can be reached: wherever it is not reached yet, some of the allowed labels
lead to where less is left. -/
theorem reaches_of_measure {inv goal : State → Prop} {allowed : Label → Prop} (left : State → Nat)
    (progress : ∀ s, inv s → ¬goal s → ∃ ls t, (∀ l ∈ ls, allowed l) ∧ run step s ls = .ok t ∧
      inv t ∧ left t < left s) {s : State} (start : inv s) :
    ∃ ls t, (∀ l ∈ ls, allowed l) ∧ run step s ls = .ok t ∧ inv t ∧ goal t := by
  induction amount : left s using Nat.strongRecOn generalizing s with
  | _ n ih =>
    by_cases there : goal s
    · exact ⟨[], s, nofun, rfl, start, there⟩
    · obtain ⟨ls, t, first, ran, kept, less⟩ := progress s start there
      obtain ⟨ms, u, second, ran', reached⟩ := ih (left t) (amount ▸ less) kept rfl
      refine ⟨ls ++ ms, u, ?_, ?_, reached⟩
      · intro l member
        exact (List.mem_append.mp member).elim (first l) (second l)
      · rw [run_append, ran]
        exact ran'

end LabelledRun
