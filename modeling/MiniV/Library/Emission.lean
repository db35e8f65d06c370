/-
**What a generator emits.**

A generator samples an element from its state. An end mark ends the emission; any other element is
emitted and fed back, and the emission ends when that fails, when the rounds are used up or when it is
told to stop.

* `AllEmitted g stop P`: every element that is emitted from a state on satisfies `P`;
* `emitted`, `allEmitted_iff`: the list of these elements.
-/

import Mathlib.Logic.Basic
import Mathlib.Data.List.Basic

namespace MiniV.Library

/-- A generator of elements of `T` with states in `S`. -/
structure Generator (S T : Type) where
  /-- The next element. -/
  sample : S → T × S
  /-- Whether an element is an end mark. -/
  ends : T → Bool
  /-- An element is fed back: whether that worked. -/
  feed : T → S → Bool × S

variable {S T : Type} {g : Generator S T} {stop : Nat → Bool} {P Q : T → Prop}

/-- The state after an element was sampled and fed back. -/
def Generator.next (g : Generator S T) (s : S) : Bool × S := g.feed (g.sample s).1 (g.sample s).2

/-- **All elements emitted** in the rounds left satisfy `P`. -/
def AllEmitted (g : Generator S T) (stop : Nat → Bool) (P : T → Prop) : Nat → Nat → S → Prop
  | 0, _, _ => True
  | rounds + 1, i, s =>
    stop i = true ∨ g.ends (g.sample s).1 = true ∨
      P (g.sample s).1 ∧ ((g.next s).1 = false ∨ AllEmitted g stop P rounds (i + 1) (g.next s).2)

theorem allEmitted_stop {rounds i : Nat} {s : S} (stops : stop i = true) :
    AllEmitted g stop P (rounds + 1) i s := Or.inl stops

theorem allEmitted_end {rounds i : Nat} {s : S} (ends : g.ends (g.sample s).1 = true) :
    AllEmitted g stop P (rounds + 1) i s := Or.inr (Or.inl ends)

/-- A round that emits. -/
theorem allEmitted_round {rounds i : Nat} {s : S} (goes : ¬ stop i = true)
    (emits : ¬ g.ends (g.sample s).1 = true) :
    AllEmitted g stop P (rounds + 1) i s ↔
      P (g.sample s).1 ∧
        ((g.next s).1 = false ∨ AllEmitted g stop P rounds (i + 1) (g.next s).2) := by
  rw [AllEmitted, or_iff_right goes, or_iff_right emits]

theorem AllEmitted.mono {rounds i : Nat} {s : S} (emitted : AllEmitted g stop P rounds i s)
    (weaker : ∀ t, P t → Q t) : AllEmitted g stop Q rounds i s := by
  induction rounds generalizing i s with
  | zero => trivial
  | succ rounds ih =>
    unfold AllEmitted at emitted ⊢
    exact emitted.imp_right (Or.imp_right (And.imp (weaker _) (Or.imp_right ih)))

theorem allEmitted_congr (same : ∀ t, P t ↔ Q t) {rounds i : Nat} {s : S} :
    AllEmitted g stop P rounds i s ↔ AllEmitted g stop Q rounds i s :=
  ⟨fun emitted => emitted.mono fun t => (same t).mp,
    fun emitted => emitted.mono fun t => (same t).mpr⟩

/-- **The elements emitted** in the rounds left. -/
def emitted (g : Generator S T) (stop : Nat → Bool) : Nat → Nat → S → List T
  | 0, _, _ => []
  | rounds + 1, i, s =>
    if stop i = true ∨ g.ends (g.sample s).1 = true then []
    else
      (g.sample s).1 ::
        if (g.next s).1 = true then emitted g stop rounds (i + 1) (g.next s).2 else []

theorem emitted_end {rounds i : Nat} {s : S} (ends : g.ends (g.sample s).1 = true) :
    emitted g stop (rounds + 1) i s = [] := if_pos (Or.inr ends)

/-- An element that cannot be fed back is the last. -/
theorem emitted_last {rounds i : Nat} {s : S} (goes : ¬ stop i = true)
    (emits : ¬ g.ends (g.sample s).1 = true) (refused : ¬ (g.next s).1 = true) :
    emitted g stop (rounds + 1) i s = [(g.sample s).1] := by
  rw [emitted, if_neg (not_or.mpr ⟨goes, emits⟩), if_neg refused]

theorem emitted_round {rounds i : Nat} {s : S} (goes : ¬ stop i = true)
    (emits : ¬ g.ends (g.sample s).1 = true) (fed : (g.next s).1 = true) :
    emitted g stop (rounds + 1) i s =
      (g.sample s).1 :: emitted g stop rounds (i + 1) (g.next s).2 := by
  rw [emitted, if_neg (not_or.mpr ⟨goes, emits⟩), if_pos fed]

theorem allEmitted_iff {rounds i : Nat} {s : S} :
    AllEmitted g stop P rounds i s ↔ ∀ t ∈ emitted g stop rounds i s, P t := by
  induction rounds generalizing i s with
  | zero => exact iff_of_true trivial (List.forall_mem_nil _)
  | succ rounds ih =>
    by_cases stops : stop i = true
    · rw [emitted, if_pos (Or.inl stops)]
      exact iff_of_true (allEmitted_stop stops) (List.forall_mem_nil _)
    by_cases ends : g.ends (g.sample s).1 = true
    · rw [emitted_end ends]
      exact iff_of_true (allEmitted_end ends) (List.forall_mem_nil _)
    rw [allEmitted_round stops ends]
    by_cases fed : (g.next s).1 = true
    · rw [emitted_round stops ends fed, List.forall_mem_cons, ← ih,
        or_iff_right (ne_false_of_eq_true fed)]
    · rw [emitted_last stops ends fed, List.forall_mem_singleton,
        and_iff_left (Or.inl (Bool.eq_false_iff.mpr fed))]

/-- What holds of every element holds of those emitted. -/
theorem allEmitted_of_forall (holds : ∀ t, P t) (rounds i : Nat) (s : S) :
    AllEmitted g stop P rounds i s := by
  induction rounds generalizing i s with
  | zero => trivial
  | succ rounds ih =>
    unfold AllEmitted
    exact Or.inr (Or.inr ⟨holds _, Or.inr (ih _ _)⟩)

end MiniV.Library
