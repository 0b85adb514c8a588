import Clia.Reactor.Registration
import Mathlib.Algebra.GroupWithZero.Nat
import Mathlib.Data.Fintype.Card
import Mathlib.Data.Nat.Log

/-!
# Room for events

`Epoller::poll` gives `epoll_wait` the vector `events_` to fill, and doubles it after it has been
filled. A full vector may have left ready channels out; this bounds how often that can happen in the
life of a loop, whatever is registered and removed meanwhile.

## Main result

`Registry.full_polls_bounded`: if at no poll more than `n` channels are in the interest list, at most
`log2 (n / 8)` polls of the run are full, and `events_` has never more than `max 16 (2 * n)` elements.
-/

namespace Clia.Reactor

open LabelledRun

variable {Ch : Type}

namespace Poller

variable [DecidableEq Ch] {p q : Poller Ch} {self : Ch} {ch ch' : Channel}

omit [DecidableEq Ch] in
@[simp] theorem update_eventsSize (p : Poller Ch) (op : EpollOp) (self : Ch) (ch : Channel) :
    (p.update op self ch).eventsSize = p.eventsSize := by
  unfold update
  split
  · rfl
  · rfl

theorem updateChannel_eventsSize (updated : p.updateChannel self ch = .ok (q, ch')) :
    q.eventsSize = p.eventsSize := by
  unfold updateChannel at updated
  split at updated
  · obtain ⟨_, _, updated⟩ := Checked.bind_ok_iff.mp updated
    cases updated
    simp
  · obtain ⟨_, _, updated⟩ := Checked.bind_ok_iff.mp updated
    cases updated
    simp
  · obtain ⟨_, _, updated⟩ := Checked.bind_ok_iff.mp updated
    split at updated
    · cases updated
      simp
    · cases updated
      simp

theorem removeChannel_eventsSize (removed : p.removeChannel self ch = .ok (q, ch')) :
    q.eventsSize = p.eventsSize := by
  obtain ⟨_, _, removed⟩ := Checked.bind_ok_iff.mp removed
  obtain ⟨_, _, removed⟩ := Checked.bind_ok_iff.mp removed
  cases removed
  split
  · simp
  · rfl

end Poller

namespace Registry

variable {fd : Ch → Nat} {s t : Registry Ch} {l : Label Ch}

/-- The step is a poll that fills `events_`. -/
def Full (s : Registry Ch) : Label Ch → Bool
  | .poll reported => decide (reported.length ≠ 0 ∧ reported.length = s.poller.eventsSize)
  | _ => false

/-- The full polls of a run. -/
def fullPolls (done : List (Registry Ch × Label Ch)) : Nat :=
  done.countP fun move => move.1.Full move.2

/-- At most `n` channels are in the interest list. -/
def AtMost (fd : Ch → Nat) (n : Nat) (s : Registry Ch) : Prop :=
  ∀ cs : List Ch, cs.Nodup → (∀ c ∈ cs, s.poller.kernel (fd c) ≠ none) → cs.length ≤ n

variable [DecidableEq Ch]

/-- Besides what is promised of every call, `epoll_wait` reports a channel once, and there are at
most `n` that it could report. -/
def Ordinary (fd : Ch → Nat) (n : Nat) (s : Registry Ch) (l : Label Ch) : Prop :=
  s.Legal l ∧ ∀ reported, l = .poll reported → (reported.map EpollEvent.ptr).Nodup ∧ AtMost fd n s

omit [DecidableEq Ch] in
/-- The kernel has a channel under its own descriptor. -/
theorem Inv.kernel_fd (inv : Inv fd s) {m : Nat} {entry : EpollEvent Ch}
    (held : s.poller.kernel m = some entry) : m = fd entry.ptr := by
  obtain ⟨c, rfl⟩ := inv.known m (by simp [held])
  have consistent := inv.consistent c
  rw [← inv.fds c] at held
  unfold Poller.Consistent at consistent
  cases index : (s.objects c).index with
  | kNew => simp [index, held] at consistent
  | kDeleted => simp [index, held] at consistent
  | kAdded =>
    simp only [index, held, Option.some.injEq] at consistent
    rw [consistent.2]

omit [DecidableEq Ch] in
theorem Inv.reported_le (inv : Inv fd s) {n : Nat} {reported : List (EpollEvent Ch)}
    (ordinary : Ordinary fd n s (.poll reported)) : reported.length ≤ n := by
  obtain ⟨⟨_, held⟩, once⟩ := ordinary
  obtain ⟨distinct, few⟩ := once reported rfl
  rw [← List.length_map EpollEvent.ptr]
  apply few _ distinct
  intro c member
  obtain ⟨event, among, rfl⟩ := List.mem_map.mp member
  obtain ⟨m, entry, found, pointer⟩ := held event among
  rw [← pointer, ← inv.kernel_fd found]
  simp [found]

/-- What a step does to the size of `events_`. -/
theorem step_eventsSize (taken : step s l = .ok t) :
    t.poller.eventsSize = if s.Full l then s.poller.eventsSize * 2 else s.poller.eventsSize := by
  cases l with
  | set self setter =>
    obtain ⟨⟨q, ch⟩, updated, taken⟩ := Checked.bind_ok_iff.mp taken
    cases taken
    exact Poller.updateChannel_eventsSize updated
  | remove self =>
    obtain ⟨_, _, taken⟩ := Checked.bind_ok_iff.mp taken
    obtain ⟨⟨q, ch⟩, removed, taken⟩ := Checked.bind_ok_iff.mp taken
    cases taken
    exact Poller.removeChannel_eventsSize removed
  | poll reported =>
    have taken : s.poll reported = .ok t := taken
    unfold poll at taken
    by_cases nothing : reported.length = 0
    · rw [if_pos nothing] at taken
      cases taken
      simp [Full, nothing]
    · rw [if_neg nothing] at taken
      obtain ⟨active, _, taken⟩ := Checked.bind_ok_iff.mp taken
      cases taken
      simp only [Full, nothing, ne_eq, not_false_eq_true, true_and, decide_eq_true_eq]

/-- The size counts the full polls, and a full poll has been within the bound. -/
structure RoomInv (fd : Ch → Nat) (n : Nat) (s : Registry Ch)
    (done : List (Registry Ch × Label Ch)) : Prop where
  inv : Inv fd s
  size : s.poller.eventsSize = 16 * 2 ^ fullPolls done
  bound : fullPolls done ≠ 0 → s.poller.eventsSize ≤ 2 * n

theorem RoomInv.after {n : Nat} {done : List (Registry Ch × Label Ch)} (room : RoomInv fd n s done)
    (distinct : Function.Injective fd) (ordinary : Ordinary fd n s l) (taken : step s l = .ok t) :
    RoomInv fd n t (done ++ [(s, l)]) := by
  obtain ⟨inv, size, bound⟩ := room
  have kept : Inv fd t := by
    obtain ⟨u, same, kept⟩ := step_ok inv distinct ordinary.1
    cases same.symm.trans taken
    exact kept
  have after := step_eventsSize taken
  have count : fullPolls (done ++ [(s, l)]) = fullPolls done + if s.Full l then 1 else 0 := by
    simp [fullPolls, List.countP_append, List.countP_singleton]
  cases full : s.Full l with
  | false =>
    simp only [full, Bool.false_eq_true, if_false, Nat.add_zero] at after count
    exact ⟨kept, by rw [after, count, size], by rw [after, count]; exact bound⟩
  | true =>
    simp only [full, if_true] at after count
    refine ⟨kept, by rw [after, count, size, Nat.pow_succ, Nat.mul_assoc], ?_⟩
    intro _
    cases l with
    | poll reported =>
      have few := inv.reported_le ordinary
      simp only [Full, decide_eq_true_eq] at full
      omega
    | _ => cases full

/-- **Full polls**: over any run of calls on channels with distinct descriptors, in which never more
than `n` channels are in the interest list when `epoll_wait` is called, `events_` has been doubled
after each full poll and at no other time, it has at most `2 * n` elements once it has been, and at
most `log2 (n / 8)` polls were full. -/
theorem full_polls_bounded (fd : Ch → Nat) (distinct : Function.Injective fd) (n : Nat)
    (ls : List (Label Ch)) (s : Registry Ch)
    (ordinary : Along step (Ordinary fd n) (Registry.start fd) ls)
    (ran : run step (Registry.start fd) ls = .ok s) :
    s.poller.eventsSize = 16 * 2 ^ fullPolls (trail step (Registry.start fd) ls) ∧
      s.poller.eventsSize ≤ max 16 (2 * n) ∧
      fullPolls (trail step (Registry.start fd) ls) ≤ Nat.log 2 (n / 8) := by
  have initial : RoomInv fd n (Registry.start fd) [] :=
    ⟨Inv.start fd, rfl, fun some => absurd rfl some⟩
  have preserved : ∀ s l t done, RoomInv fd n s done → Ordinary fd n s l → step s l = .ok t →
      RoomInv fd n t (done ++ [(s, l)]) :=
    fun _ _ _ _ room ordinary taken => room.after distinct ordinary taken
  obtain ⟨_, size, bound⟩ := run_trail_along preserved initial ordinary ran
  rw [List.nil_append] at size bound
  refine ⟨size, ?_, ?_⟩
  · by_cases none : fullPolls (trail step (Registry.start fd) ls) = 0
    · rw [size, none]
      exact Nat.le_max_left _ _
    · exact Nat.le_trans (bound none) (Nat.le_max_right _ _)
  · by_cases none : fullPolls (trail step (Registry.start fd) ls) = 0
    · simp [none]
    · apply Nat.le_log_of_pow_le (by decide)
      have within := bound none
      rw [size] at within
      omega

/-- As many ready channels as there is room for in the beginning. -/
def sampleReady : List (Label (Fin 16)) :=
  (List.finRange 16).map (fun c => .set c .enableReading) ++
    [.poll ((List.finRange 16).map fun c => ⟨EPOLLIN, c⟩)]

theorem sampleReady_bounded :
    ∃ s : Registry (Fin 16), run step (Registry.start Fin.val) sampleReady = .ok s ∧
      s.poller.eventsSize = 32 := by
  have polled : (run step (Registry.start (Fin.val : Fin 16 → Nat))
      ((List.finRange 16).map fun c => .set c .enableReading)).toOption.map
        (fun u => decide (u.poller.eventsSize = 16 ∧
          ∀ c : Fin 16, u.poller.kernel c = some ⟨kReadEvent, c⟩)) = some true := by
    decide +kernel
  have full : (run step (Registry.start (Fin.val : Fin 16 → Nat)) sampleReady).toOption.map
      (fun _ => fullPolls (trail step (Registry.start Fin.val) sampleReady)) = some 1 := by
    decide +kernel
  have ordinary : Along step (Ordinary Fin.val 16) (Registry.start Fin.val) sampleReady := by
    apply Along.append
    · apply Along.of_labels
      intro l member s
      obtain ⟨c, _, rfl⟩ := List.mem_map.mp member
      exact ⟨trivial, by simp⟩
    · intro u ran
      rw [ran] at polled
      obtain ⟨room, held⟩ := of_decide_eq_true (Option.some.inj polled)
      refine ⟨⟨⟨by simp [room], ?_⟩, ?_⟩, fun _ _ => trivial⟩
      · intro event member
        obtain ⟨c, _, rfl⟩ := List.mem_map.mp member
        exact ⟨c, _, held c, rfl⟩
      · rintro reported ⟨⟩
        refine ⟨by decide, ?_⟩
        intro cs distinct _
        exact distinct.length_le_card
  cases ran : run step (Registry.start (Fin.val : Fin 16 → Nat)) sampleReady with
  | error f =>
    rw [ran] at full
    cases full
  | ok s =>
    rw [ran] at full
    have count : fullPolls (trail step (Registry.start Fin.val) sampleReady) = 1 :=
      Option.some.inj full
    obtain ⟨size, _⟩ := full_polls_bounded Fin.val (fun _ _ => Fin.eq_of_val_eq) 16 sampleReady s
      ordinary ran
    rw [count] at size
    exact ⟨s, rfl, size⟩

end Registry

end Clia.Reactor
