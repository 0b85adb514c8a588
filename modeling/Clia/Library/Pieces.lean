import Mathlib.Data.List.Flatten
import Mathlib.Data.List.Basic

/-!
# Pieces in containers

A writer puts pieces, one behind the other, into the last of a row of containers, and opens a new
container now and then. `Cut` says what is left of that when only the contents are seen: the pieces
are there in order, and each is whole in one container.
-/

namespace Pieces

variable {α : Type*}

/-- The first rows are a first part of all. -/
theorem flatten_take_le (rows : List (List α)) (n : Nat) :
    (rows.take n).flatten <+: rows.flatten := by
  refine ⟨(rows.drop n).flatten, ?_⟩
  rw [← List.flatten_append, List.take_append_drop]

/-- The containers hold the pieces in order, and no piece is in two of them. -/
def Cut (containers pieces : List (List α)) : Prop :=
  ∃ groups : List (List (List α)), groups.flatten = pieces ∧ containers = groups.map List.flatten

namespace Cut

theorem nil : Cut ([] : List (List α)) [] := ⟨[], rfl, rfl⟩

/-- A container that was just opened. -/
theorem opened {containers pieces : List (List α)} (cut : Cut containers pieces) :
    Cut (containers ++ [[]]) pieces := by
  obtain ⟨groups, rfl, rfl⟩ := cut
  exact ⟨groups ++ [[]], by simp, by simp⟩

/-- A piece that is put into the last container. -/
theorem push {containers pieces : List (List α)} {last : List α}
    (cut : Cut (containers ++ [last]) pieces) (piece : List α) :
    Cut (containers ++ [last ++ piece]) (pieces ++ [piece]) := by
  obtain ⟨groups, rfl, eq⟩ := cut
  obtain ⟨before, rest, rfl, rfl, single⟩ := List.append_eq_map_iff.mp eq
  obtain ⟨group, rfl, rfl⟩ := List.map_eq_singleton_iff.mp single
  exact ⟨before ++ [group ++ [piece]], by simp, by simp⟩

/-- In total the containers hold the pieces one behind the other. -/
theorem flatten {containers pieces : List (List α)} (cut : Cut containers pieces) :
    containers.flatten = pieces.flatten := by
  obtain ⟨groups, rfl, rfl⟩ := cut
  rw [List.flatten_flatten]

end Cut

end Pieces
