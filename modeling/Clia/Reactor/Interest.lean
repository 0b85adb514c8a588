import Clia.Reactor.Registration

/-!
# Channels without interest

The kernel should poll a descriptor exactly if its channel has an interest. `update_channel` takes a
registered channel off the list when its last interest goes, but it puts every other channel on the
list, also one that has no interest: the kernel then still reports `EPOLLHUP` and `EPOLLERR` for it.

## Main result

`Registry.polled_iff`: the list holds the channels with an interest in exactly the runs in which no
interest is disabled on a channel that has none.
-/

namespace Clia.Reactor

open LabelledRun

/-! ### Setters and masks -/

def Setter.Disables : Setter → Prop
  | .disableReading | .disableWriting | .disableAll => True
  | .enableReading | .enableWriting => False

instance : (setter : Setter) → Decidable setter.Disables
  | .disableReading | .disableWriting | .disableAll => isTrue trivial
  | .enableReading | .enableWriting => isFalse id

theorem Setter.Disables.change_none {setter : Setter} (disables : setter.Disables) :
    setter.change kNoneEvent = kNoneEvent := by
  cases setter with
  | enableReading | enableWriting => cases disables
  | disableReading | disableWriting | disableAll => decide

theorem Setter.change_ne_none {setter : Setter} (enables : ¬setter.Disables) (events : Mask) :
    setter.change events ≠ kNoneEvent := by
  cases setter with
  | enableReading =>
    apply eq_none_of_getLsbD (i := 0)
    simp [change, kReadEvent, EPOLLIN, EPOLLPRI]
  | enableWriting =>
    apply eq_none_of_getLsbD (i := 2)
    simp [change, kWriteEvent, EPOLLOUT]
  | disableReading | disableWriting | disableAll => exact absurd trivial enables

/-! ### What a setter leaves -/

/-- Whatever the records say, the channel is registered afterwards, unless it was and has lost its last
interest. -/
theorem Poller.updateChannel_index {Ch : Type} [DecidableEq Ch] {p q : Poller Ch} {self : Ch}
    {ch ch' : Channel} (ok : p.updateChannel self ch = .ok (q, ch')) :
    ch' = { ch with index := ch.nextIndex } := by
  unfold updateChannel at ok
  unfold Channel.nextIndex
  cases index : ch.index with
  | kNew =>
    simp only [index] at ok
    obtain ⟨_, _, ok⟩ := Checked.bind_ok_iff.mp ok
    cases ok
    simp
  | kDeleted =>
    simp only [index] at ok
    obtain ⟨_, _, ok⟩ := Checked.bind_ok_iff.mp ok
    cases ok
    simp
  | kAdded =>
    simp only [index] at ok
    obtain ⟨_, _, ok⟩ := Checked.bind_ok_iff.mp ok
    split at ok
    next none_event =>
      cases ok
      rw [if_pos ⟨rfl, by simpa [Channel.isNoneEvent] using none_event⟩]
    next some_event =>
      cases ok
      rw [if_neg (by simpa [Channel.isNoneEvent] using some_event), ← index]

namespace Registry

variable {Ch : Type} {fd : Ch → Nat} {s t : Registry Ch}

/-- The kernel's list holds a channel's descriptor if and only if the channel has an interest. -/
def Polled (fd : Ch → Nat) (s : Registry Ch) : Prop :=
  ∀ c, s.poller.kernel (fd c) ≠ none ↔ (s.objects c).events ≠ kNoneEvent

/-- In terms of the index: a registered channel has an interest, the others have none. -/
theorem Inv.polled_iff_index (inv : Inv fd s) :
    Polled fd s ↔ ∀ c, (s.objects c).index = .kAdded ↔ (s.objects c).events ≠ kNoneEvent := by
  unfold Polled
  refine forall_congr' fun c => ?_
  have held : s.poller.kernel (fd c) ≠ none ↔ (s.objects c).index = .kAdded := by
    have consistent := inv.consistent c
    unfold Poller.Consistent at consistent
    rw [inv.fds c] at consistent
    cases index : (s.objects c).index with
    | kNew =>
      simp only [index] at consistent
      simp [consistent]
    | kAdded =>
      simp only [index] at consistent
      simp [consistent]
    | kDeleted =>
      simp only [index] at consistent
      simp [consistent]
  rw [held]

variable [DecidableEq Ch]

theorem set_objects {self : Ch} {setter : Setter} (taken : s.set self setter = .ok t) :
    ∃ index, t.objects = Function.update s.objects self
        { s.objects self with
          events := setter.change (s.objects self).events, addedToLoop := true, index := index } ∧
      (index = .kAdded ↔ ¬((s.objects self).index = .kAdded ∧
        setter.change (s.objects self).events = kNoneEvent)) := by
  obtain ⟨⟨q, ch⟩, updated, taken⟩ := Checked.bind_ok_iff.mp taken
  cases taken
  refine ⟨_, by rw [Poller.updateChannel_index updated], ?_⟩
  unfold Channel.nextIndex
  split
  next lost => simpa using lost
  next kept => simpa using kept

theorem remove_objects {self : Ch} (taken : s.remove self = .ok t) :
    (s.objects self).events = kNoneEvent ∧
      t.objects = Function.update s.objects self
        { s.objects self with addedToLoop := false, index := .kNew } := by
  obtain ⟨_, none_event, taken⟩ := Checked.bind_ok_iff.mp taken
  obtain ⟨⟨q, ch⟩, removed, taken⟩ := Checked.bind_ok_iff.mp taken
  cases taken
  unfold Poller.removeChannel at removed
  obtain ⟨_, _, removed⟩ := Checked.bind_ok_iff.mp removed
  obtain ⟨_, _, removed⟩ := Checked.bind_ok_iff.mp removed
  cases removed
  exact ⟨by simpa [Channel.isNoneEvent] using none_event, rfl⟩

/-- A poll writes nothing but `revents_`. -/
theorem poll_objects {reported : List (EpollEvent Ch)} (taken : s.poll reported = .ok t) (c : Ch) :
    ∃ revents, t.objects c = { s.objects c with revents := revents } := by
  unfold poll at taken
  split at taken
  next =>
    cases taken
    exact ⟨(s.objects c).revents, rfl⟩
  next =>
    obtain ⟨active, _, taken⟩ := Checked.bind_ok_iff.mp taken
    cases taken
    exact setRevents_eq active s.objects c

/-! ### One call -/

/-- After the call the kernel's list holds the channels with an interest, and it is the same as before
if an interest was disabled on a channel that had none. -/
def PolledAfter (fd : Ch → Nat) (s : Registry Ch) (l : Label Ch) : Prop :=
  ∃ t, step s l = .ok t ∧ Polled fd t ∧
    ∀ self setter, l = .set self setter → setter.Disables →
      (s.objects self).events = kNoneEvent → t.poller.kernel = s.poller.kernel

/-- There is an interest where one is disabled. -/
def DisablesInterest (s : Registry Ch) : Label Ch → Prop
  | .set self setter => setter.Disables → (s.objects self).events ≠ kNoneEvent
  | .remove _ | .poll _ => True

omit [DecidableEq Ch] in
instance (s : Registry Ch) : (l : Label Ch) → Decidable (s.DisablesInterest l)
  | .set _ _ => inferInstanceAs (Decidable (_ → _))
  | .remove _ | .poll _ => isTrue trivial

/-- On a channel without interest every disabling call registers it. -/
theorem not_polled_of_disabled (inv : Inv fd s) (polled : Polled fd s) {self : Ch} {setter : Setter}
    (disables : setter.Disables) (idle : (s.objects self).events = kNoneEvent)
    (taken : s.set self setter = .ok t) (inv' : Inv fd t) : ¬Polled fd t := by
  intro polled'
  obtain ⟨index, objects, registered⟩ := set_objects taken
  have unregistered : (s.objects self).index ≠ .kAdded := fun added =>
    (inv.polled_iff_index.mp polled self).mp added idle
  have added : (t.objects self).index = .kAdded := by
    rw [objects, Function.update_self]
    exact registered.mpr fun both => unregistered both.1
  apply (inv'.polled_iff_index.mp polled' self).mp added
  rw [objects, Function.update_self, idle]
  exact disables.change_none

theorem set_polled (inv : Inv fd s) (polled : Polled fd s) {self : Ch} {setter : Setter}
    (interest : setter.Disables → (s.objects self).events ≠ kNoneEvent)
    (taken : s.set self setter = .ok t) (inv' : Inv fd t) : Polled fd t := by
  rw [inv'.polled_iff_index]
  have before := inv.polled_iff_index.mp polled
  obtain ⟨index, objects, registered⟩ := set_objects taken
  intro c
  by_cases own : c = self
  · subst own
    rw [objects, Function.update_self, registered]
    constructor
    · -- No interest is left only where one was disabled, and that channel was registered.
      intro kept lost
      have disables : setter.Disables := by
        by_contra enables
        exact setter.change_ne_none enables _ lost
      exact kept ⟨(before c).mpr (interest disables), lost⟩
    · exact fun some_event lost => some_event lost.2
  · rw [objects, Function.update_of_ne own]
    exact before c

theorem polledAfter_iff (inv : Inv fd s) (distinct : Function.Injective fd) (polled : Polled fd s)
    {l : Label Ch} (legal : s.Legal l) : s.PolledAfter fd l ↔ s.DisablesInterest l := by
  obtain ⟨t, taken, inv'⟩ := step_ok inv distinct legal
  have before := inv.polled_iff_index.mp polled
  cases l with
  | set self setter =>
    constructor
    · rintro ⟨u, taken', polled', _⟩ disables idle
      rw [taken] at taken'
      cases taken'
      exact not_polled_of_disabled inv polled disables idle taken inv' polled'
    · intro interest
      refine ⟨t, taken, set_polled inv polled interest taken inv', ?_⟩
      rintro _ _ ⟨⟩ disables idle
      exact absurd idle (interest disables)
  | remove self =>
    refine iff_of_true ⟨t, taken, ?_, fun _ _ other => by cases other⟩ trivial
    rw [inv'.polled_iff_index]
    obtain ⟨idle, objects⟩ := remove_objects taken
    intro c
    by_cases own : c = self
    · subst own
      simp [objects, idle]
    · rw [objects, Function.update_of_ne own]
      exact before c
  | poll reported =>
    refine iff_of_true ⟨t, taken, ?_, fun _ _ other => by cases other⟩ trivial
    rw [inv'.polled_iff_index]
    intro c
    obtain ⟨revents, objects⟩ := poll_objects taken c
    rw [objects]
    exact before c

/-- **Interest and polling**: for any channels with distinct descriptors and any sequence of setters,
legal removals and polls, the kernel's list holds exactly the channels with an interest after every
call, and redundant disabling calls leave it alone, in exactly the runs in which no interest is
disabled on a channel that has none. -/
theorem polled_iff (fd : Ch → Nat) (distinct : Function.Injective fd) (ls : List (Label Ch))
    (legal : Along step Legal (Registry.start fd) ls) :
    Along step (PolledAfter fd) (Registry.start fd) ls ↔
      Along step DisablesInterest (Registry.start fd) ls := by
  have initial : Inv fd (Registry.start fd) ∧ Polled fd (Registry.start fd) := by
    refine ⟨Inv.start fd, ?_⟩
    intro c
    simp [Registry.start, Poller.new, Channel.new, kNoneEvent]
  apply along_congr (fun s => Inv fd s ∧ Polled fd s) _ _ initial legal
  · rintro s l t ⟨inv, _⟩ legal ⟨u, taken', polled', _⟩ taken
    obtain ⟨v, taken'', inv'⟩ := step_ok inv distinct legal
    rw [taken] at taken' taken''
    cases taken'
    cases taken''
    exact ⟨inv', polled'⟩
  · rintro s l ⟨inv, polled⟩ legal
    exact polledAfter_iff inv distinct polled legal

/-- One channel that reads and writes, and stops to. -/
def openAndClose : List (Label Unit) :=
  [.set () .enableReading, .set () .enableWriting, .set () .disableWriting, .set () .disableAll,
    .remove (), .set () .enableReading]

theorem openAndClose_polled :
    Along step (PolledAfter fun _ => 5) (Registry.start fun _ => 5) openAndClose := by
  have distinct : Function.Injective (fun _ : Unit => 5) := fun _ _ _ => rfl
  have legal : Along step Legal (Registry.start fun _ => 5) openAndClose := by
    refine ⟨trivial, ?_⟩
    rintro _ ⟨⟩
    refine ⟨trivial, ?_⟩
    rintro _ ⟨⟩
    refine ⟨trivial, ?_⟩
    rintro _ ⟨⟩
    refine ⟨trivial, ?_⟩
    rintro _ ⟨⟩
    refine ⟨⟨by decide, by decide⟩, ?_⟩
    rintro _ ⟨⟩
    exact ⟨trivial, fun _ _ => trivial⟩
  exact (polled_iff _ distinct openAndClose legal).mpr (by decide)

/-- The second `disable_all` puts the descriptor back on the list, with an empty mask. -/
theorem disabled_twice_polled :
    ¬Along step (PolledAfter fun _ => 5) (Registry.start fun _ => 5)
      [.set () .enableReading, .set () .disableAll, .set () .disableAll] := by
  rintro ⟨_, second⟩
  obtain ⟨_, third⟩ := second _ rfl
  obtain ⟨⟨t, taken, polled, _⟩, _⟩ := third _ rfl
  cases taken
  exact absurd (polled ()) (by decide)

end Registry

end Clia.Reactor
