/-
**A history of which the oldest part was dropped, down to a floor.**

`Retains floor history kept`: what is kept is the newest part of a history, and at least its last
`floor` elements, or all of it when there are fewer. Dropping in steps is dropping at once
(`Retains.trans`), and a history may grow in between (`Retains.append`).
-/

import Mathlib.Data.List.Infix

namespace MiniV.Library

variable {α : Type}

/-- The newest part of a history, not below the floor. -/
structure Retains (floor : Nat) (history kept : List α) : Prop where
  suffix : kept <:+ history
  floor : min history.length floor ≤ kept.length

namespace Retains

variable {floor : Nat} {history kept kept' : List α}

theorem refl (history : List α) : Retains floor history history :=
  ⟨List.suffix_rfl, Nat.min_le_left _ _⟩

theorem trans (first : Retains floor history kept) (second : Retains floor kept kept') :
    Retains floor history kept' where
  suffix := second.suffix.trans first.suffix
  floor := by
    have here := first.floor
    have later := second.floor
    omega

/-- What is added to a history is added to what is kept. -/
theorem append (retains : Retains floor history kept) (new : List α) :
    Retains floor (history ++ new) (kept ++ new) where
  suffix := by
    obtain ⟨dropped, rfl⟩ := retains.suffix
    exact ⟨dropped, (List.append_assoc ..).symm⟩
  floor := by
    have here := retains.floor
    have shorter := retains.suffix.length_le
    rw [List.length_append, List.length_append]
    omega

/-- Dropping from a history that stays above the floor. -/
theorem drop {count : Nat} (above : floor + count ≤ history.length) :
    Retains floor history (history.drop count) where
  suffix := List.drop_suffix count history
  floor := by
    rw [List.length_drop]
    omega

end Retains

end MiniV.Library
