/-
**Two computations that go alike.**

`Lift Faults P x y`: both computations succeed with results related by `P`, or both fault, with faults
related by `Faults`. Sequences go alike when their parts do (`Lift.bind`), and so do whole runs when
each step does (`answers_lift`); `answers` is a run that collects the results of its steps.
`Lockstep` compares two runs at every step, and a simulation gives it (`lockstep_of_simulation`).
-/

import MiniV.Library.Run

namespace MiniV.Library

variable {F F' A A' B B' : Type}

/-- Both succeed with related results, or both fault in related ways. -/
inductive Lift (Faults : F → F' → Prop) (P : A → A' → Prop) : Except F A → Except F' A' → Prop
  | ok {a : A} {a' : A'} (related : P a a') : Lift Faults P (.ok a) (.ok a')
  | error {e : F} {e' : F'} (related : Faults e e') : Lift Faults P (.error e) (.error e')

namespace Lift

variable {Faults : F → F' → Prop} {P : A → A' → Prop} {Q : B → B' → Prop} {x : Except F A}
  {x' : Except F' A'}

theorem mono {P' : A → A' → Prop} (lift : Lift Faults P x x') (weaker : ∀ a a', P a a' → P' a a') :
    Lift Faults P' x x' := by
  cases lift with
  | ok related => exact .ok (weaker _ _ related)
  | error related => exact .error related

/-- **Sequences** go alike when their parts do. -/
theorem bind {f : A → Except F B} {f' : A' → Except F' B'} (first : Lift Faults P x x')
    (second : ∀ a a', P a a' → Lift Faults Q (f a) (f' a')) :
    Lift Faults Q (x >>= f) (x' >>= f') := by
  cases first with
  | ok related => exact second _ _ related
  | error related => exact .error related

/-- A sequence whose second part may use that the first one came to its result. -/
theorem bind_of {f : A → Except F B} {f' : A' → Except F' B'} (first : Lift Faults P x x')
    (second : ∀ a a', x = .ok a → P a a' → Lift Faults Q (f a) (f' a')) :
    Lift Faults Q (x >>= f) (x' >>= f') := by
  cases first with
  | ok related => exact second _ _ rfl related
  | error related => exact .error related

/-- **Branches** go alike when the conditions agree and both branches do. -/
theorem ite {c c' : Prop} [Decidable c] [Decidable c'] {y : Except F A} {y' : Except F' A'}
    (same : c' ↔ c) (yes : c → Lift Faults P x x') (no : ¬ c → Lift Faults P y y') :
    Lift Faults P (if c then x else y) (if c' then x' else y') := by
  by_cases holds : c
  · rw [if_pos holds, if_pos (same.mpr holds)]
    exact yes holds
  · rw [if_neg holds, if_neg (mt same.mp holds)]
    exact no holds

/-- **In two steps**, the second of which keeps the faults. -/
theorem trans {A'' : Type} {R : A' → A'' → Prop} {x'' : Except F' A''} (first : Lift Faults P x x')
    (second : Lift Eq R x' x'') : Lift Faults (fun a a'' => ∃ a', P a a' ∧ R a' a'') x x'' := by
  cases first with
  | error related =>
    cases second with
    | error same => exact .error (same ▸ related)
  | ok related =>
    cases second with
    | ok related' => exact .ok ⟨_, related, related'⟩

/-- The result on the other side. -/
theorem of_ok {a : A} (lift : Lift Faults P (.ok a) x') : ∃ a', x' = .ok a' ∧ P a a' := by
  cases lift with
  | ok related => exact ⟨_, rfl, related⟩

/-- The fault on the other side. -/
theorem of_error {e : F} (lift : Lift Faults P (.error e) x') : ∃ e', x' = .error e' ∧ Faults e e' := by
  cases lift with
  | error related => exact ⟨_, rfl, related⟩

end Lift

/-! ### Runs -/

variable {S S' O O' R R' : Type}

/-- The results of a list of requests, and the state after it. -/
def answers (step : O → S → Except F (R × S)) : List O → S → Except F (List R × S)
  | [], s => .ok ([], s)
  | o :: requests, s => do
    let (r, s) ← step o s
    let (rs, s) ← answers step requests s
    .ok (r :: rs, s)

variable {step : O → S → Except F (R × S)} {step' : O' → S' → Except F' (R' × S')}

theorem answers_cons_error {o : O} {requests : List O} {s : S} {e : F} (fault : step o s = .error e) :
    answers step (o :: requests) s = .error e := by
  rw [answers, fault, error_bind]

theorem answers_cons_ok {o : O} {requests : List O} {s mid : S} {r : R}
    (served : step o s = .ok (r, mid)) : answers step (o :: requests) s = (do
      let (rs, s) ← answers step requests mid
      .ok (r :: rs, s)) := by
  rw [answers, served, ok_bind]

/-- Requests in two parts: the second goes on where the first ends. -/
theorem answers_append (requests later : List O) (s : S) :
    answers step (requests ++ later) s = (answers step requests s).bind fun first =>
      (answers step later first.2).bind fun second => .ok (first.1 ++ second.1, second.2) := by
  induction requests generalizing s with
  | nil =>
    show answers step later s = (answers step later s).bind fun second => .ok (second.1, second.2)
    cases answers step later s <;> rfl
  | cons o requests ih =>
    rw [List.cons_append]
    cases served : step o s with
    | error e =>
      rw [answers_cons_error served, answers_cons_error served]
      rfl
    | ok result =>
      rw [answers_cons_ok served, answers_cons_ok served, ih]
      cases answers step requests result.2 with
      | error e => rfl
      | ok first =>
        show ((answers step later first.2).bind _ >>= _) = (answers step later first.2).bind _
        cases answers step later first.2 <;> rfl

/-- A fault on the way to the results is a fault of the run. -/
theorem run_of_answers_error {requests : List O} {s : S} {e : F}
    (fault : answers step requests s = .error e) : run step requests s = .error e := by
  induction requests generalizing s with
  | nil => cases fault
  | cons o requests ih =>
    rw [run, bind_eq_error]
    rcases bind_eq_error.mp fault with here | ⟨⟨r, mid⟩, served, later⟩
    · exact Or.inl here
    · rcases bind_eq_error.mp later with later | ⟨_, _, later⟩
      · exact Or.inr ⟨(r, mid), served, ih later⟩
      · cases later

/-- **Runs** of two machines go alike when every step does: from related states, corresponding
requests give corresponding results and related states. -/
theorem answers_lift {Faults : F → F' → Prop} {Alike : S → S' → Prop} {Asks : O → O' → Prop}
    {Gets : R → R' → Prop}
    (steps : ∀ s s' o o', Alike s s' → Asks o o' →
      Lift Faults (fun a a' => Gets a.1 a'.1 ∧ Alike a.2 a'.2) (step o s) (step' o' s'))
    {requests : List O} {requests' : List O'} (ask : List.Forall₂ Asks requests requests') {s : S}
    {s' : S'} (alike : Alike s s') :
    Lift Faults (fun a a' => List.Forall₂ Gets a.1 a'.1 ∧ Alike a.2 a'.2)
      (answers step requests s) (answers step' requests' s') := by
  induction ask generalizing s s' with
  | nil => exact .ok ⟨.nil, alike⟩
  | cons here later ih =>
    refine (steps s s' _ _ alike here).bind fun a a' both => ?_
    refine (ih both.2).bind fun b b' rest => ?_
    exact .ok ⟨.cons both.1 rest.1, rest.2⟩

/-! ### Runs in lockstep -/

/-- Two machines serve corresponding requests in lockstep: their states are alike before every
request and after the last, and the results of each request are alike, or it faults on both sides. -/
def Lockstep (step : O → S → Except F (R × S)) (step' : O' → S' → Except F' (R' × S')) (other : O → O')
    (Faults : F → F' → Prop) (Gets : R → R' → Prop) (Alike : S → S' → Prop) :
    List O → S → S' → Prop
  | [], s, s' => Alike s s'
  | o :: requests, s, s' => Alike s s' ∧
      Lift Faults (fun a a' => Gets a.1 a'.1 ∧
        Lockstep step step' other Faults Gets Alike requests a.2 a'.2) (step o s) (step' (other o) s')

/-- **Lockstep from a simulation**: what relates the states over every guarded step keeps the two
runs in lockstep while the first one meets the guard. -/
theorem lockstep_of_simulation {other : O → O'} {Faults : F → F' → Prop} {Gets : R → R' → Prop}
    {I Alike : S → S' → Prop} {G : S → O → Prop}
    (steps : ∀ s s' o, I s s' → G s o →
      Lift Faults (fun a a' => Gets a.1 a'.1 ∧ I a.2 a'.2) (step o s) (step' (other o) s'))
    (alike : ∀ s s', I s s' → Alike s s') {requests : List O} {s : S} {s' : S'} (start : I s s')
    (guarded : Along step G requests s) :
    Lockstep step step' other Faults Gets Alike requests s s' := by
  induction requests generalizing s s' with
  | nil => exact alike s s' start
  | cons o requests ih =>
    refine ⟨alike s s' start, ?_⟩
    have here := steps s s' o start guarded.1
    cases served : step o s with
    | error e =>
      rw [served] at here
      obtain ⟨e', served', faults⟩ := here.of_error
      rw [served']
      exact .error faults
    | ok a =>
      rw [served] at here
      obtain ⟨a', served', gets, inv⟩ := here.of_ok
      rw [served']
      exact .ok ⟨gets, ih inv (guarded.2 a.1 a.2 served)⟩

/-- Where the first of two runs in lockstep ends, the second one does, in a state that is alike. -/
theorem Lockstep.last {other : O → O'} {Faults : F → F' → Prop} {Gets : R → R' → Prop}
    {Alike : S → S' → Prop} {requests : List O} {s t : S} {s' : S'}
    (lock : Lockstep step step' other Faults Gets Alike requests s s')
    (reach : run step requests s = .ok t) :
    ∃ t', run step' (requests.map other) s' = .ok t' ∧ Alike t t' := by
  induction requests generalizing s s' with
  | nil =>
    cases reach
    exact ⟨s', rfl, lock⟩
  | cons o requests ih =>
    obtain ⟨r, mid, served, rest⟩ := run_cons_eq_ok.mp reach
    have here := lock.2
    rw [served] at here
    obtain ⟨⟨r', mid'⟩, served', _, later⟩ := here.of_ok
    obtain ⟨t', rest', alike⟩ := ih later rest
    exact ⟨t', run_cons_eq_ok.mpr ⟨r', mid', served', rest'⟩, alike⟩

end MiniV.Library
