import Clia.Net.Lifecycle
import Clia.Net.LoopPhases

/-!
# Hang-ups

`handle_event_with_guard` takes the close branch for a hang-up without `EPOLLIN`, and the read branch
for `EPOLLPRI` and `EPOLLRDHUP` as well. What keeps the two apart is the kernel: a TCP socket hangs up
when both of its directions are shut down, and one whose receiving direction is shut down is readable.
`kReadEvent` asks for `EPOLLIN` along with `EPOLLPRI`, so a hang-up that is reported with anything to
read for is reported with `EPOLLIN`, and a dispatch closes a connection or reads from it.

## Main result

`Server.lifecycle_sound`: with such reports every run of a server that is alive is as it should be.
-/

namespace Clia.Net

open Reactor LabelledRun

/-! ### The reports of the kernel -/

/-- A hang-up with anything to read for comes with `EPOLLIN`. -/
def HangsUpReadable (mask : Mask) : Prop :=
  mask.has EPOLLHUP = true → mask.has (EPOLLPRI ||| EPOLLRDHUP) = true → mask.has EPOLLIN = true

instance (mask : Mask) : Decidable (HangsUpReadable mask) :=
  inferInstanceAs (Decidable (_ → _ → _))

/-- What the poller returns is what the kernel reports of TCP sockets. -/
def ServerStep.Genuine : ServerStep → Prop
  | .poll _ active => ∀ report ∈ active, HangsUpReadable report.2
  | _ => True

instance : (l : ServerStep) → Decidable l.Genuine
  | .poll _ active => inferInstanceAs (Decidable (∀ report ∈ active, HangsUpReadable report.2))
  | .nextChannel _ | .callback _ _ | .endDispatch _ | .swap _ | .functor _ | .finish _ => isTrue trivial
  | .send _ _ _ | .shutdown _ | .retrieveInput _ _ | .release _ | .teardown | .destroy _ =>
    isTrue trivial

theorem has_or (mask bits bits' : Mask) :
    mask.has (bits ||| bits') = (mask.has bits || mask.has bits') := by
  have split : mask &&& (bits ||| bits') = (mask &&& bits) ||| (mask &&& bits') := by
    ext i
    simp [Bool.and_or_distrib_left]
  have zero : (mask &&& bits) ||| (mask &&& bits') = 0 ↔ mask &&& bits = 0 ∧ mask &&& bits' = 0 :=
    BitVec.or_eq_zero_iff
  rw [Bool.eq_iff_iff]
  simp only [Mask.has, split, bne_iff_ne, ne_eq, Bool.or_eq_true, zero, not_and_or]

/-- A turn closes the connection or reads from it. -/
theorem HangsUpReadable.no_read {mask : Mask} (genuine : HangsUpReadable mask)
    (closes : .close ∈ Channel.callbacks mask) : .read ∉ Channel.callbacks mask := by
  have hup : mask.has EPOLLHUP = true ∧ mask.has EPOLLIN = false := by
    simpa [Channel.callbacks] using closes
  intro reads
  have asked : mask.has (EPOLLIN ||| EPOLLPRI ||| EPOLLRDHUP) = true := by
    simpa [Channel.callbacks] using reads
  rw [BitVec.or_assoc, has_or, hup.2, Bool.false_or] at asked
  have readable := genuine hup.1 asked
  rw [hup.2] at readable
  cases readable

/-- Before the read callback come the close and the error callback. -/
theorem callback_before_read {mask : Mask} {callback : Channel.Callback}
    {rest : List Channel.Callback} (part : callback :: rest <:+ Channel.callbacks mask)
    (reads : .read ∈ rest) : callback = .close ∨ callback = .error := by
  unfold Channel.callbacks at part
  split at part <;> split at part <;> split at part <;> split at part <;>
    simp [List.suffix_cons_iff] at part <;> grind

/-! ### The invariant -/

/-- The loops have genuine reports in hand, and while the read callback of a connection is to come, it
can be closed. -/
structure Orderly (s : Server) : Prop where
  dispatch : ∀ j, ∀ report ∈ (s.workers j).dispatch, HangsUpReadable report.2
  todo : ∀ j, ∃ mask, HangsUpReadable mask ∧ (s.workers j).todo <:+ Channel.callbacks mask
  reading : ∀ j id, (s.workers j).loop.currentActiveChannel = some (.connection id) →
    .read ∈ (s.workers j).todo → ∃ o, s.objects id = some o ∧ o.conn.Closable

namespace Orderly

variable {s t : Server} {l : ServerStep} {id j : Nat}

theorem start (threads listenfd : Nat) (wakeupfd : Nat → Nat) (message writeComplete : Bool) :
    Orderly (Server.start threads listenfd wakeupfd message writeComplete) where
  dispatch _ _ member := by cases member
  todo _ := ⟨0, by decide, List.nil_suffix⟩
  reading _ _ current := by cases current

theorem dispatch_after (orderly : Orderly s) (inv : Inv s) (genuine : l.Genuine)
    (taken : s.step l = .ok t) : ∀ report ∈ (t.workers j).dispatch, HangsUpReadable report.2 := by
  have before := orderly.dispatch j
  cases Server.step_loop inv taken j with
  | grown foreign grown => exact grown.dispatch ▸ before
  | poll active label waiting reported nodup after =>
    subst label
    rw [after]
    exact genuine
  | nextChannel channel revents rest label handling dispatch after =>
    rw [after]
    intro report member
    exact before report (by rw [dispatch]; exact List.mem_cons_of_mem _ member)
  | callback callback io rest label todo after => exact after.dispatch ▸ before
  | endDispatch label todo dispatch after => exact after ▸ before
  | swap label after => exact after ▸ before
  | functor cb rest label calling batch after => exact after.dispatch ▸ before
  | finish label after => exact after ▸ before

theorem todo_after (orderly : Orderly s) (inv : Inv s) (taken : s.step l = .ok t) :
    ∃ mask, HangsUpReadable mask ∧ (t.workers j).todo <:+ Channel.callbacks mask := by
  have before := orderly.todo j
  cases Server.step_loop inv taken j with
  | grown foreign grown => exact grown.todo ▸ before
  | poll active label waiting reported nodup after => exact after ▸ before
  | nextChannel channel revents rest label handling dispatch after =>
    rw [after]
    exact ⟨revents, orderly.dispatch j (channel, revents) (by simp [dispatch]), List.suffix_rfl⟩
  | callback callback io rest label todo after =>
    obtain ⟨mask, genuine, part⟩ := before
    rw [todo] at part
    exact ⟨mask, genuine, after.todo ▸ (List.suffix_cons callback rest).trans part⟩
  | endDispatch label todo dispatch after => exact after ▸ before
  | swap label after => exact after ▸ before
  | functor cb rest label calling batch after => exact after.todo ▸ before
  | finish label after => exact after ▸ before

/-- A read callback that was to come already, unless the callback before it closes the connection. -/
theorem still_reading (orderly : Orderly s) (ready : Ready s) (inv : Inv s) (alive : s.alive = true)
    (taken : s.step l = .ok t)
    (current : (s.workers j).loop.currentActiveChannel = some (.connection id))
    (reads : .read ∈ (s.workers j).todo)
    (calm : ∀ io, l = .callback j io → (s.workers j).todo.head? = some .error) :
    ∃ o, t.objects id = some o ∧ o.conn.Closable := by
  obtain ⟨o, found, closable⟩ := orderly.reading j id current reads
  obtain ⟨o', there, -, stays⟩ := inv.persists alive taken found (.inl closable)
  refine ⟨o', there, stays closable ?_⟩
  intro i io label current'
  obtain rfl := ready.current_home found current
  obtain rfl := ready.current_home found current'
  exact calm io label

theorem reading_after (orderly : Orderly s) (ready : Ready s) (inv : Inv s) (alive : s.alive = true)
    (taken : s.step l = .ok t)
    (current : (t.workers j).loop.currentActiveChannel = some (.connection id))
    (reads : .read ∈ (t.workers j).todo) : ∃ o, t.objects id = some o ∧ o.conn.Closable := by
  have still := @still_reading s t l id j orderly ready inv alive taken
  cases Server.step_loop inv taken j with
  | grown foreign grown =>
    refine still (grown.current ▸ current) (grown.todo ▸ reads) ?_
    intro io label
    exact absurd label (foreign io)
  | poll active label waiting reported nodup after =>
    -- A loop that waits is at no channel.
    rw [after] at current
    have before : (s.workers j).loop.currentActiveChannel = some (.connection id) := current
    rw [((ready.tidy j).waits waiting).2.2] at before
    cases before
  | nextChannel channel revents rest label handling dispatch after =>
    -- A connection that is still to be dispatched to can be closed.
    rw [after] at current
    cases current
    have member : .connection id ∈ (s.workers j).dispatch.map Prod.fst := by simp [dispatch]
    obtain ⟨o, there, -, closable⟩ := ready.still_listed inv alive taken member
    exact ⟨o, there, closable⟩
  | callback callback io rest label todo after =>
    have same : (t.workers j).todo = rest := after.todo
    have later : .read ∈ rest := same ▸ reads
    refine still (after.current ▸ current) (by rw [todo]; exact List.mem_cons_of_mem _ later) ?_
    intro _ _
    obtain ⟨mask, genuine, part⟩ := orderly.todo j
    rw [todo] at part ⊢
    rcases callback_before_read part later with rfl | rfl
    · -- A turn that begins with the close callback has no read callback.
      have reads : .read ∈ Channel.callbacks mask := part.subset (List.mem_cons_of_mem _ later)
      exact absurd reads (genuine.no_read (part.subset List.mem_cons_self))
    · rfl
  | endDispatch label todo dispatch after =>
    rw [after] at current
    cases current
  | swap label after =>
    rw [after] at current reads
    exact still current reads (by simp [label])
  | functor cb rest label calling batch after =>
    exact still (after.current ▸ current) (after.todo ▸ reads) (by simp [label])
  | finish label after =>
    rw [after] at current reads
    exact still current reads (by simp [label])

/-- **Step lemma**: with genuine reports every step of a server that is alive keeps the order. -/
theorem after (orderly : Orderly s) (ready : Ready s) (inv : Inv s) (alive : s.alive = true)
    (genuine : l.Genuine) (taken : s.step l = .ok t) : Orderly t where
  dispatch _ := orderly.dispatch_after inv genuine taken
  todo _ := orderly.todo_after inv taken
  reading _ _ current reads := orderly.reading_after ready inv alive taken current reads

/-- A connection that is read from has not been closed. -/
theorem timely (orderly : Orderly s) (l : ServerStep) : s.lateRead l = false := by
  unfold Server.lateRead
  cases delivers : s.delivery l with
  | none => rfl
  | some delivery =>
    obtain ⟨id, o⟩ := delivery
    obtain ⟨i, result, todo, n, inputBuffer, -, queue, current, found, -, -, -⟩ :=
      Server.delivery_some delivers
    obtain ⟨o', found', closable⟩ := orderly.reading i id current (by simp [queue])
    rw [found] at found'
    cases found'
    rcases closable with state | state <;> simp [state]

end Orderly

namespace Server

/-- **Life cycle**: over any number of loops, accepted descriptors and any order of steps while the
server is alive, with a kernel whose hang-ups are readable, no code of the server fails and every
connection lives as it should. -/
theorem lifecycle_sound (threads listenfd : Nat) (wakeupfd : Nat → Nat) (message writeComplete : Bool)
    (labels : List ServerStep) (alive : .teardown ∉ labels) (genuine : ∀ l ∈ labels, l.Genuine) :
    Along step Sound (start threads listenfd wakeupfd message writeComplete) labels := by
  apply (sound_iff_timely threads listenfd wakeupfd message writeComplete labels alive).mpr
  have met : Along step (fun _ l => l ≠ ServerStep.teardown ∧ l.Genuine)
      (start threads listenfd wakeupfd message writeComplete) labels := by
    apply Along.of_labels
    intro l member _
    exact ⟨fun teardown => alive (teardown ▸ member), genuine l member⟩
  have preserved : ∀ s l t, (Inv s ∧ s.alive = true ∧ Ready s ∧ Orderly s) →
      (l ≠ ServerStep.teardown ∧ l.Genuine) → step s l = .ok t →
      Inv t ∧ t.alive = true ∧ Ready t ∧ Orderly t := by
    rintro s l t ⟨inv, alive, ready, orderly⟩ ⟨running, genuine⟩ taken
    exact ⟨step_inv inv taken, (step_alive inv running taken).trans alive,
      ready.after inv alive taken, orderly.after ready inv alive genuine taken⟩
  apply met.imp preserved
  · rintro s l ⟨-, -, -, orderly⟩ -
    exact orderly.timely l
  · exact ⟨start_inv _ _ _ _ _, rfl, Ready.start _ _ _ _ _, Orderly.start _ _ _ _ _⟩

/-- A connection gets a message, is closed by its peer and destroyed, and its descriptor is
accepted again; then its peer hangs up with urgent data in the buffer. -/
def reuseLabels : List ServerStep :=
  acceptLabels ++
  [.poll 1 [(.connection 0, EPOLLIN)], .nextChannel 1, .callback 1 (.read (.received [1])),
    .endDispatch 1,
    .poll 1 [(.connection 0, EPOLLIN ||| EPOLLHUP)], .nextChannel 1,
    .callback 1 (.read (.received [])), .endDispatch 1,
    .swap 0, .functor 0, .finish 0, .swap 1, .functor 1, .finish 1, .release 0] ++
  acceptLabels ++
  [.poll 1 [(.connection 1, EPOLLIN ||| EPOLLPRI ||| EPOLLHUP)], .nextChannel 1,
    .callback 1 (.read (.received [2])), .endDispatch 1]

theorem reuse_sound : .teardown ∉ reuseLabels ∧
    Along step Sound (start 1 3 (fun i => 4 + i) true false) reuseLabels :=
  ⟨by decide, lifecycle_sound 1 3 (fun i => 4 + i) true false reuseLabels (by decide) (by decide)⟩

end Server

end Clia.Net
