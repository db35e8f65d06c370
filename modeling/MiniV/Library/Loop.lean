/-
**Loops without a bound.**

A computation ends with a result, ends with a fault, or goes on for ever. `loop round` runs rounds
until one of them leaves it. Nothing bounds their number, so a loop that no round leaves does not end.

* `ended_bind`: a sequence of computations that end is one that ends;
* `loop_again`, `loop_leave`, `loop_fault`: what a loop does with its first round;
* `loop_forever`: a loop whose rounds all go on does not end;
* `loop_eq`, **the rule for loops**: when every round ends, and every round that goes on keeps an
  invariant and takes something from a size, the loop ends, with what its rounds give when they are
  counted, for any count above the size;
* `counted_left`: where what it ends with comes from.
-/

import Mathlib.Data.PFun

namespace MiniV.Library

variable {F A B : Type}

/-- A computation that ends with a result of `A` or a fault of `F`, or never. -/
abbrev Comp (F A : Type) := ExceptT F Part A

/-- A computation that ends. -/
def ended (x : Except F A) : Comp F A := ExceptT.mk (Part.some x)

/-- What a round of a loop comes to: another round, or the end of the loop. -/
inductive Round (A B : Type)
  | again (a : A)
  | leave (b : B)

/-- How a round leaves its loop, or the state of the next one. -/
def Round.exit : Except F (Round A B) → Except F B ⊕ A
  | .error e => .inl (.error e)
  | .ok (.leave b) => .inl (.ok b)
  | .ok (.again a) => .inr a

/-- Rounds, until one leaves the loop. -/
def loop (round : A → Comp F (Round A B)) (a : A) : Comp F B :=
  ExceptT.mk (PFun.fix (fun a => (round a).run.map Round.exit) a)

/-- What follows a round: the rest of the loop, or nothing. -/
def Round.next (rest : A → Except F B) : Round A B → Except F B
  | .again a => rest a
  | .leave b => .ok b

theorem return_eq (a : A) : (return a : Comp F A) = ended (.ok a) := rfl

theorem ended_inj {x y : Except F A} : (ended x : Comp F A) = ended y ↔ x = y := Part.some_inj

theorem ended_ok_bind (a : A) (f : A → Comp F B) : (ended (.ok a) >>= f) = f a :=
  Part.bind_some _ _

theorem ended_error_bind (e : F) (f : A → Comp F B) :
    (ended (.error e) >>= f) = ended (.error e) :=
  Part.bind_some _ _

/-- **A sequence ends** when its parts do. -/
theorem ended_bind {x : Except F A} {f : A → Comp F B} {g : A → Except F B}
    (ends : ∀ a, x = .ok a → f a = ended (g a)) : (ended x >>= f) = ended (x >>= g) := by
  cases x with
  | error e => exact ended_error_bind e f
  | ok a => exact (ended_ok_bind a f).trans (ends a rfl)

/-! ### The first round -/

variable {round : A → Comp F (Round A B)} {a : A}

theorem exit_mem {r : Except F (Round A B)} (here : round a = ended r) :
    Round.exit r ∈ (round a).run.map Round.exit := by
  rw [here]
  exact Part.mem_map _ (Part.mem_some r)

theorem loop_again {a' : A} (again : round a = ended (.ok (.again a'))) :
    loop round a = loop round a' :=
  PFun.fix_fwd_eq (exit_mem again)

theorem loop_leave {b : B} (leave : round a = ended (.ok (.leave b))) :
    loop round a = ended (.ok b) :=
  Part.eq_some_iff.mpr (PFun.fix_stop (exit_mem leave))

theorem loop_fault {e : F} (fault : round a = ended (.error e)) : loop round a = ended (.error e) :=
  Part.eq_some_iff.mpr (PFun.fix_stop (exit_mem fault))

/-! ### Rules -/

/-- A loop whose rounds all go on does not end. -/
theorem loop_forever (I : A → Prop)
    (goes : ∀ a, I a → ∃ a', I a' ∧ round a = ended (.ok (.again a'))) (start : I a)
    (r : Except F B) : loop round a ≠ ended r := by
  intro result
  have member : r ∈ PFun.fix (fun a => (round a).run.map Round.exit) a :=
    Part.eq_some_iff.mp result
  revert start
  refine PFun.fixInduction (C := fun a => ¬ I a) member fun a _ later here => ?_
  obtain ⟨a', still, again⟩ := goes a here
  exact later a' (exit_mem again) still

/-- **The rule for loops.** A loop whose rounds take something from a size ends, with what its rounds
give when they are counted. -/
theorem loop_eq (I : A → Prop) (size : A → Nat) {counted : Nat → A → Except F B}
    (ends : ∀ n a, I a → ∃ r, round a = ended r ∧ counted (n + 1) a = (r >>= Round.next (counted n)))
    (shrinks : ∀ a a', I a → round a = ended (.ok (.again a')) → I a' ∧ size a' < size a)
    {n : Nat} (start : I a) (enough : size a < n) : loop round a = ended (counted n a) := by
  induction n generalizing a with
  | zero => exact absurd enough (Nat.not_lt_zero _)
  | succ n ih =>
    obtain ⟨r, here, count⟩ := ends n a start
    rw [count]
    rcases r with e | a' | b
    · exact loop_fault here
    · obtain ⟨kept, smaller⟩ := shrinks a a' start here
      rw [loop_again here]
      exact ih kept (by omega)
    · exact loop_leave here

/-- What a counted loop ends with is left by a round from a state with the invariant. -/
theorem counted_left {I : A → Prop} {counted : Nat → A → Except F B}
    (ends : ∀ n a, I a → ∃ r, round a = ended r ∧ counted (n + 1) a = (r >>= Round.next (counted n)))
    (nothing : ∀ a b, counted 0 a ≠ .ok b)
    (keeps : ∀ a a', I a → round a = ended (.ok (.again a')) → I a')
    {n : Nat} {b : B} (start : I a) (result : counted n a = .ok b) :
    ∃ a', I a' ∧ round a' = ended (.ok (.leave b)) := by
  induction n generalizing a with
  | zero => exact absurd result (nothing a b)
  | succ n ih =>
    obtain ⟨r, here, count⟩ := ends n a start
    rw [count] at result
    rcases r with e | a' | b'
    · cases result
    · exact ih (keeps a a' start here) result
    · cases result
      exact ⟨a, start, here⟩

end MiniV.Library
