import Clia.Net.ServerInvariant
import Mathlib.Data.List.Induction

/-!
# Histories

What can be read off the history of a connection. A history in order has a phase, and the phase
says how often each event has come; from this follows all that is said of a history except where
its messages stand, which phases do not see.
-/

namespace Clia.Net

/-! ### Counting by phase -/

namespace Event

def up : Event := .effect (.connectionCallback true)

def down : Event := .effect (.connectionCallback false)

def message : Event := .effect .messageCallback

def isEstablished : Event → Bool
  | .established _ => true
  | _ => false

def isDestoryed : Event → Bool
  | .destoryed _ => true
  | _ => false

end Event

namespace Phase

def registrations : Phase → Nat
  | .created => 0
  | _ => 1

def ups : Phase → Nat
  | .created => 0
  | .registered => 0
  | _ => 1

def downs : Phase → Nat
  | .down => 1
  | .erased => 1
  | .gone => 1
  | .tornGone => 1
  | _ => 0

def erasures : Phase → Nat
  | .erased => 1
  | .gone => 1
  | _ => 0

def destructions : Phase → Nat
  | .gone => 1
  | .tornUp => 1
  | .tornGone => 1
  | _ => 0

def torn : Phase → Bool
  | .tornUp => true
  | .tornGone => true
  | _ => false

end Phase

/-- The phase knows how often each of the events has come. -/
structure Counted (phase : Phase) (log : List Event) : Prop where
  registrations : log.countP Event.isEstablished = phase.registrations
  ups : log.count Event.up = phase.ups
  downs : log.count Event.down = phase.downs
  erasures : log.count Event.erased = phase.erasures
  destructions : log.countP Event.isDestoryed = phase.destructions

private theorem Counted.advance {phase next : Phase} {log : List Event} {e : Event}
    (counted : Counted phase log) (advances : phase.advance e = some next) :
    Counted next (log ++ [e]) := by
  have counts : (phase.registrations + [e].countP Event.isEstablished = next.registrations) ∧
      (phase.ups + [e].count Event.up = next.ups) ∧
      (phase.downs + [e].count Event.down = next.downs) ∧
      (phase.erasures + [e].count Event.erased = next.erasures) ∧
      (phase.destructions + [e].countP Event.isDestoryed = next.destructions) := by
    unfold Phase.advance at advances
    split at advances
    all_goals cases advances
    all_goals first | exact ⟨rfl, rfl, rfl, rfl, rfl⟩ | skip
    -- What is left are the effects of no concern to the phase.
    next effect other _ _ _ =>
      cases effect with
      | connectionCallback connected => exact absurd rfl (other connected)
      | _ => exact ⟨rfl, rfl, rfl, rfl, rfl⟩
  obtain ⟨registrations, ups, downs, erasures, destructions⟩ := counts
  constructor
  · rw [List.countP_append, counted.registrations, registrations]
  · rw [List.count_append, counted.ups, ups]
  · rw [List.count_append, counted.downs, downs]
  · rw [List.count_append, counted.erasures, erasures]
  · rw [List.countP_append, counted.destructions, destructions]

/-- A history in order, cut at one of its events. -/
theorem phaseOf_split {before after : List Event} {e : Event} {last : Phase}
    (order : phaseOf (before ++ e :: after) = some last) :
    ∃ phase next, phaseOf before = some phase ∧ phase.advance e = some next ∧
      phaseAfter next after = some last := by
  unfold phaseOf phaseAfter at *
  rw [List.foldlM_append] at order
  cases reached : before.foldlM Phase.advance .created with
  | none => simp [reached] at order
  | some phase =>
    simp only [reached, Option.bind_eq_bind, Option.bind_some, List.foldlM_cons] at order
    cases advances : phase.advance e with
    | none => simp [advances] at order
    | some next => exact ⟨phase, next, rfl, advances, by simpa [advances] using order⟩

theorem counted_of_phase {log : List Event} {phase : Phase} (order : phaseOf log = some phase) :
    Counted phase log := by
  induction log using List.reverseRecOn generalizing phase with
  | nil =>
    cases order
    exact ⟨rfl, rfl, rfl, rfl, rfl⟩
  | append_singleton log e ih =>
    -- Events are added at the end, so the induction goes from there.
    obtain ⟨before, next, reached, advances, last⟩ := phaseOf_split order
    cases last
    exact (ih reached).advance advances

private theorem Phase.advance_torn {phase next : Phase} {e : Event}
    (torn : phase.torn = true) (advances : phase.advance e = some next) : next.torn = true := by
  unfold Phase.advance at advances
  split at advances
  all_goals cases advances
  all_goals first | rfl | exact torn

private theorem phaseAfter_torn {log : List Event} {phase next : Phase}
    (torn : phase.torn = true) (order : phaseAfter phase log = some next) :
    next.torn = true := by
  induction log generalizing phase with
  | nil =>
    cases order
    exact torn
  | cons e log ih =>
    unfold phaseAfter at order
    rw [List.foldlM_cons] at order
    cases first : phase.advance e with
    | none => simp [first] at order
    | some middle =>
      rw [first] at order
      exact ih (Phase.advance_torn torn first) order

/-! ### Regular histories -/

/-- What the history of a connection shows, messages apart. -/
structure Regular (log : List Event) : Prop where
  unregistered : ∀ entry, .established entry ∈ log → entry = none
  up_once : log.count Event.up = log.countP Event.isEstablished
  established_once : log.countP Event.isEstablished ≤ 1
  down_once : log.count Event.down ≤ 1
  destoryed_once : log.countP Event.isDestoryed ≤ 1
  destoryed_late : ∀ before after eventHanding, log = before ++ .destoryed eventHanding :: after →
    .erased ∈ before ∧ eventHanding = false

/-- Messages come between the up and the down callback. -/
def MessagesBetween (log : List Event) : Prop :=
  ∀ before after, log = before ++ Event.message :: after → Event.up ∈ before ∧ Event.down ∉ before

theorem regular_of_phase {log : List Event} {phase : Phase} (order : phaseOf log = some phase)
    (whole : phase.torn = false) (settled : phase ≠ .registered) : Regular log := by
  have counted := counted_of_phase order
  constructor
  · intro entry member
    obtain ⟨before, after, rfl⟩ := List.append_of_mem member
    obtain ⟨first, next, -, advances, -⟩ := phaseOf_split order
    cases entry with
    | none => rfl
    -- No phase accepts a registration over an entry.
    | some channel => cases first <;> cases advances
  · rw [counted.ups, counted.registrations]
    -- Between the registration and the up callback the two counts differ.
    cases phase <;> first | rfl | exact absurd rfl settled
  · rw [counted.registrations]
    cases phase <;> decide
  · rw [counted.downs]
    cases phase <;> decide
  · rw [counted.destructions]
    cases phase <;> decide
  · rintro before after eventHanding rfl
    obtain ⟨first, next, reached, advances, last⟩ := phaseOf_split order
    -- A torn history stays torn, and this one is not.
    have alive : next.torn = false := by
      by_contra torn
      rw [phaseAfter_torn (by simpa using torn) last] at whole
      cases whole
    -- Only an erased connection is destroyed without being torn.
    have erased : first = .erased ∧ eventHanding = false := by
      cases eventHanding <;> cases first <;> cases advances
      all_goals first | exact ⟨rfl, rfl⟩ | cases alive
    refine ⟨?_, erased.2⟩
    have once := (counted_of_phase reached).erasures
    rw [erased.1] at once
    exact List.count_pos_iff.mp (once ▸ Nat.one_pos)

/-! ### Messages -/

private theorem split_append {log events before after : List Event}
    (cut : log ++ events = before ++ Event.message :: after) :
    (∃ rest, log = before ++ Event.message :: rest) ∨
      ∃ rest, before = log ++ rest ∧ events = rest ++ Event.message :: after := by
  rcases List.append_eq_append_iff.mp cut with ⟨rest, rfl, eq⟩ | ⟨rest, rfl, eq⟩
  · exact .inr ⟨rest, rfl, eq⟩
  · cases rest with
    | nil => exact .inr ⟨[], by simp, by simpa using eq.symm⟩
    | cons e rest =>
      obtain ⟨rfl, -⟩ := List.cons.inj eq
      exact .inl ⟨rest, rfl⟩

theorem messagesBetween_append {log events : List Event} (silent : Event.message ∉ events) :
    MessagesBetween (log ++ events) ↔ MessagesBetween log := by
  constructor
  · rintro between before after rfl
    exact between before (after ++ events) (by simp)
  · intro between before after cut
    rcases split_append cut with ⟨rest, eq⟩ | ⟨rest, -, rfl⟩
    · exact between before rest eq
    · -- The cut would lie in the new events, which have no message.
      simp at silent

theorem messagesBetween_snoc {log : List Event} :
    MessagesBetween (log ++ [Event.message]) ↔
      MessagesBetween log ∧ Event.up ∈ log ∧ Event.down ∉ log := by
  constructor
  · intro between
    refine ⟨?_, between log [] rfl⟩
    rintro before after rfl
    exact between before (after ++ [Event.message]) (by simp)
  · rintro ⟨between, up, down⟩ before after cut
    rcases split_append cut with ⟨rest, eq⟩ | ⟨rest, rfl, eq⟩
    · exact between before rest eq
    · cases rest with
      | nil => simpa using ⟨up, down⟩
      | cons e rest => simp at eq

end Clia.Net
