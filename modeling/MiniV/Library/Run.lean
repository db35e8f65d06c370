/-
**Runs of a machine whose steps may fault.**

A step takes a request and a state and answers with a result and the next state, or faults. A run
serves a list of requests one after another and ends at the first fault. Three ways to speak about
a run:

* `run step requests s` — the state at its end, or the fault;
* `Along step P requests s` — `P` holds of every request in the state it is served in;
* `Throughout step P requests s` — `P` holds of every state the run visits.

The rules below turn a fact about one step into a fact about every run: an invariant
(`run_invariant`), an invariant that holds throughout (`throughout_of_invariant`), progress
(`run_progress`) and the faults a run can end with (`run_fault`).
-/

import Mathlib.Logic.Basic
import Mathlib.Data.List.Basic

namespace MiniV.Library

/-! ### Sequencing -/

section Sequencing

variable {F A B : Type}

theorem ok_bind (a : A) (f : A → Except F B) : (Except.ok a >>= f) = f a := rfl

theorem bind_ok (x : Except F A) : (x >>= .ok) = x := by
  cases x <;> rfl

theorem error_bind (e : F) (f : A → Except F B) : (Except.error e >>= f) = .error e := rfl

/-- A sequence succeeds exactly when both of its parts do. -/
theorem bind_eq_ok {x : Except F A} {f : A → Except F B} {b : B} :
    (x >>= f) = .ok b ↔ ∃ a, x = .ok a ∧ f a = .ok b := by
  cases x with
  | error e => simp [error_bind]
  | ok a => simp [ok_bind]

/-- A sequence faults when its first part does, or its second one after the first. -/
theorem bind_eq_error {x : Except F A} {f : A → Except F B} {e : F} :
    (x >>= f) = .error e ↔ x = .error e ∨ ∃ a, x = .ok a ∧ f a = .error e := by
  cases x with
  | error e' => simp [error_bind]
  | ok a => simp [ok_bind]

/-- A sequence whose second part always succeeds faults as its first part does. -/
theorem bind_ok_ne_error {x : Except F A} {f : A → B} {e : F} :
    (x >>= fun a => .ok (f a)) ≠ .error e ↔ x ≠ .error e := by
  cases x with
  | error e' => rw [error_bind, ne_eq, ne_eq, Except.error.injEq, Except.error.injEq]
  | ok a => exact iff_of_true nofun nofun

end Sequencing

/-! ### Runs -/

variable {S O R F : Type} (step : O → S → Except F (R × S))

/-- The state after a list of requests. -/
def run : List O → S → Except F S
  | [], s => .ok s
  | o :: requests, s => do
    let (_, s') ← step o s
    run requests s'

/-- `P` holds of every request of the run, in the state it is served in. -/
def Along (P : S → O → Prop) : List O → S → Prop
  | [], _ => True
  | o :: requests, s => P s o ∧ ∀ r s', step o s = .ok (r, s') → Along P requests s'

/-- `P` holds of every state the run visits, the first and the last included. -/
def Throughout (P : S → Prop) : List O → S → Prop
  | [], s => P s
  | o :: requests, s => P s ∧ ∀ r s', step o s = .ok (r, s') → Throughout P requests s'

variable {step} in
theorem along_cons_error {P : S → O → Prop} {o : O} {requests : List O} {s : S} {e : F}
    (served : step o s = .error e) : Along step P (o :: requests) s ↔ P s o := by
  constructor
  · exact fun holds => holds.1
  · refine fun holds => ⟨holds, fun r s' ok => ?_⟩
    rw [served] at ok
    cases ok

variable {step} in
theorem along_cons_ok {P : S → O → Prop} {o : O} {requests : List O} {s mid : S} {r : R}
    (served : step o s = .ok (r, mid)) :
    Along step P (o :: requests) s ↔ P s o ∧ Along step P requests mid := by
  constructor
  · exact fun holds => ⟨holds.1, holds.2 r mid served⟩
  · rintro ⟨here, later⟩
    refine ⟨here, fun r' s' ok => ?_⟩
    rw [served] at ok
    cases ok
    exact later

/-- Whether a condition holds along a run is computed by running it. -/
instance decidableAlong (P : S → O → Prop) [∀ s o, Decidable (P s o)] :
    ∀ (requests : List O) (s : S), Decidable (Along step P requests s)
  | [], _ => isTrue trivial
  | o :: requests, s =>
    match served : step o s with
    | .error _ => decidable_of_iff _ (along_cons_error served).symm
    | .ok (_, mid) =>
      have := decidableAlong P requests mid
      decidable_of_iff _ (along_cons_ok served).symm

variable {step} in
theorem throughout_cons_error {P : S → Prop} {o : O} {requests : List O} {s : S} {e : F}
    (served : step o s = .error e) : Throughout step P (o :: requests) s ↔ P s := by
  constructor
  · exact fun holds => holds.1
  · refine fun holds => ⟨holds, fun r s' ok => ?_⟩
    rw [served] at ok
    cases ok

variable {step} in
theorem throughout_cons_ok {P : S → Prop} {o : O} {requests : List O} {s mid : S} {r : R}
    (served : step o s = .ok (r, mid)) :
    Throughout step P (o :: requests) s ↔ P s ∧ Throughout step P requests mid := by
  constructor
  · exact fun holds => ⟨holds.1, holds.2 r mid served⟩
  · rintro ⟨here, later⟩
    refine ⟨here, fun r' s' ok => ?_⟩
    rw [served] at ok
    cases ok
    exact later

/-- Whether a property holds of every state of a run is computed by running it. -/
instance decidableThroughout (P : S → Prop) [DecidablePred P] :
    ∀ (requests : List O) (s : S), Decidable (Throughout step P requests s)
  | [], s => inferInstanceAs (Decidable (P s))
  | o :: requests, s =>
    match served : step o s with
    | .error _ => decidable_of_iff _ (throughout_cons_error served).symm
    | .ok (_, mid) =>
      have := decidableThroughout P requests mid
      decidable_of_iff _ (throughout_cons_ok served).symm

/-- What a run ends with satisfies `P`, if it ends. -/
def Ends (P : S → Prop) : Except F S → Prop
  | .ok s => P s
  | .error _ => True

instance decidableEnds (P : S → Prop) [DecidablePred P] : DecidablePred (Ends (F := F) P)
  | .ok s => inferInstanceAs (Decidable (P s))
  | .error _ => isTrue trivial

theorem ends_iff {P : S → Prop} {x : Except F S} : Ends P x ↔ ∀ s, x = .ok s → P s := by
  cases x with
  | error e =>
    constructor
    · intro _ s same
      cases same
    · exact fun _ => trivial
  | ok s =>
    constructor
    · intro holds s' same
      cases same
      exact holds
    · exact fun holds => holds s rfl

/-- A result is there and satisfies `P`. -/
def Gives (P : S → Prop) : Except F S → Prop
  | .ok s => P s
  | .error _ => False

instance decidableGives (P : S → Prop) [DecidablePred P] : DecidablePred (Gives (F := F) P)
  | .ok s => inferInstanceAs (Decidable (P s))
  | .error _ => isFalse id

theorem gives_iff {P : S → Prop} {x : Except F S} : Gives P x ↔ ∃ s, x = .ok s ∧ P s := by
  cases x with
  | error e =>
    constructor
    · exact False.elim
    · rintro ⟨s, same, _⟩
      cases same
  | ok s =>
    constructor
    · exact fun holds => ⟨s, rfl, holds⟩
    · rintro ⟨s', same, holds⟩
      cases same
      exact holds

/-- The fault a result is, if it is one. -/
def faultOf {A : Type} : Except F A → Option F
  | .ok _ => none
  | .error e => some e

theorem eq_error_of_faultOf {A : Type} {x : Except F A} {e : F} (faults : faultOf x = some e) :
    x = .error e := by
  cases x with
  | ok a => cases faults
  | error e' =>
    cases faults
    rfl

variable {step}

@[simp] theorem run_nil (s : S) : run step [] s = .ok s := rfl

theorem run_cons_eq_ok {o : O} {requests : List O} {s s' : S} :
    run step (o :: requests) s = .ok s' ↔
      ∃ r mid, step o s = .ok (r, mid) ∧ run step requests mid = .ok s' := by
  rw [run, bind_eq_ok]
  constructor
  · rintro ⟨⟨r, mid⟩, served, rest⟩
    exact ⟨r, mid, served, rest⟩
  · rintro ⟨r, mid, served, rest⟩
    exact ⟨(r, mid), served, rest⟩

/-- A run goes on where its first part has ended. -/
theorem run_append {requests later : List O} {s mid : S} (reach : run step requests s = .ok mid) :
    run step (requests ++ later) s = run step later mid := by
  induction requests generalizing s with
  | nil =>
    cases reach
    rfl
  | cons o requests ih =>
    obtain ⟨r, s', served, rest⟩ := run_cons_eq_ok.mp reach
    rw [List.cons_append, run, served, ok_bind]
    exact ih rest

/-! ### From one step to a run -/

theorem along_trivial (requests : List O) (s : S) : Along step (fun _ _ => True) requests s := by
  induction requests generalizing s with
  | nil => trivial
  | cons o requests ih => exact ⟨trivial, fun _ s' _ => ih s'⟩

/-- A condition on requests alone is met along a run when it is met by the list. -/
theorem along_of_forall {P : O → Prop} {requests : List O} (meets : ∀ o ∈ requests, P o) (s : S) :
    Along step (fun _ o => P o) requests s := by
  induction requests generalizing s with
  | nil => trivial
  | cons o requests ih =>
    exact ⟨meets o List.mem_cons_self,
      fun _ s' _ => ih (fun o' member => meets o' (List.mem_cons_of_mem _ member)) s'⟩

theorem Along.mono {P Q : S → O → Prop} {requests : List O} {s : S} (holds : Along step P requests s)
    (weaker : ∀ s o, P s o → Q s o) : Along step Q requests s := by
  induction requests generalizing s with
  | nil => trivial
  | cons o requests ih => exact ⟨weaker s o holds.1, fun r s' served => ih (holds.2 r s' served)⟩

/-- **Invariants.** What every step that meets the guard preserves holds at the end of every run
whose steps all meet it. -/
theorem run_invariant {I : S → Prop} {G : S → O → Prop}
    (kept : ∀ s o r s', I s → G s o → step o s = .ok (r, s') → I s')
    {requests : List O} {s s' : S} (start : I s) (guarded : Along step G requests s)
    (reach : run step requests s = .ok s') : I s' := by
  induction requests generalizing s with
  | nil =>
    cases reach
    exact start
  | cons o requests ih =>
    obtain ⟨r, mid, served, rest⟩ := run_cons_eq_ok.mp reach
    exact ih (kept s o r mid start guarded.1 served) (guarded.2 r mid served) rest

/-- An invariant with no guard. -/
theorem run_invariant' {I : S → Prop} (kept : ∀ s o r s', I s → step o s = .ok (r, s') → I s')
    {requests : List O} {s s' : S} (start : I s) (reach : run step requests s = .ok s') : I s' :=
  run_invariant (G := fun _ _ => True) (fun s o r s' inv _ => kept s o r s' inv) start
    (along_trivial requests s) reach

/-- An invariant holds throughout, and gives whatever it implies of each request. -/
theorem along_of_invariant {I : S → Prop} {G P : S → O → Prop}
    (kept : ∀ s o r s', I s → G s o → step o s = .ok (r, s') → I s')
    (gives : ∀ s o, I s → G s o → P s o)
    {requests : List O} {s : S} (start : I s) (guarded : Along step G requests s) :
    Along step P requests s := by
  induction requests generalizing s with
  | nil => trivial
  | cons o requests ih =>
    exact ⟨gives s o start guarded.1, fun r s' served =>
      ih (kept s o r s' start guarded.1 served) (guarded.2 r s' served)⟩

theorem throughout_of_invariant {I : S → Prop} {G : S → O → Prop}
    (kept : ∀ s o r s', I s → G s o → step o s = .ok (r, s') → I s')
    {requests : List O} {s : S} (start : I s) (guarded : Along step G requests s) :
    Throughout step I requests s := by
  induction requests generalizing s with
  | nil => exact start
  | cons o requests ih =>
    exact ⟨start, fun r s' served =>
      ih (kept s o r s' start guarded.1 served) (guarded.2 r s' served)⟩

theorem Throughout.mono {P Q : S → Prop} {requests : List O} {s : S}
    (holds : Throughout step P requests s) (weaker : ∀ s, P s → Q s) :
    Throughout step Q requests s := by
  induction requests generalizing s with
  | nil => exact weaker s holds
  | cons o requests ih => exact ⟨weaker s holds.1, fun r s' served => ih (holds.2 r s' served)⟩

/-- What holds throughout holds after every request. -/
theorem Throughout.after {P : S → Prop} {requests : List O} {s : S}
    (holds : Throughout step P requests s) :
    Along step (fun s o => ∀ r s', step o s = .ok (r, s') → P s') requests s := by
  induction requests generalizing s with
  | nil => trivial
  | cons o requests ih =>
    refine ⟨fun r s' served => ?_, fun r s' served => ih (holds.2 r s' served)⟩
    have later := holds.2 r s' served
    cases requests with
    | nil => exact later
    | cons o' requests => exact later.1

/-- What holds throughout holds at the end. -/
theorem Throughout.last {P : S → Prop} {requests : List O} {s s' : S}
    (holds : Throughout step P requests s) (reach : run step requests s = .ok s') : P s' := by
  induction requests generalizing s with
  | nil =>
    cases reach
    exact holds
  | cons o requests ih =>
    obtain ⟨r, mid, served, rest⟩ := run_cons_eq_ok.mp reach
    exact ih (holds.2 r mid served) rest

theorem Throughout.start {P : S → Prop} {requests : List O} {s : S}
    (holds : Throughout step P requests s) : P s := by
  cases requests with
  | nil => exact holds
  | cons o requests => exact holds.1

/-- **Exactly.** When a property with an invariant is kept by just those steps that meet a condition,
it holds throughout a run exactly when every step of the run meets it. -/
theorem throughout_iff_along {I P : S → Prop} {G : S → O → Prop}
    (kept : ∀ s o r s', I s → step o s = .ok (r, s') → I s')
    (exact' : ∀ s o r s', I s → P s → step o s = .ok (r, s') → (P s' ↔ G s o))
    (faults : ∀ s o e, I s → P s → step o s = .error e → G s o)
    {requests : List O} {s : S} (start : I s) (first : P s) :
    Throughout step P requests s ↔ Along step G requests s := by
  induction requests generalizing s with
  | nil => exact iff_of_true first trivial
  | cons o requests ih =>
    cases served : step o s with
    | error e =>
      rw [throughout_cons_error served, along_cons_error served]
      exact iff_of_true first (faults s o e start first served)
    | ok result =>
      obtain ⟨r, mid⟩ := result
      rw [throughout_cons_ok served, along_cons_ok served]
      have same := exact' s o r mid start first served
      constructor
      · rintro ⟨_, later⟩
        have here : P mid := later.start
        exact ⟨same.mp here, (ih (kept s o r mid start served) here).mp later⟩
      · rintro ⟨meets, later⟩
        exact ⟨first, (ih (kept s o r mid start served) (same.mpr meets)).mpr later⟩

/-- **Backwards.** What goes from the state after a step to the state before it holds after every
step of a run at whose end it holds. -/
theorem along_of_end {I Q : S → Prop} (kept : ∀ s o r s', I s → step o s = .ok (r, s') → I s')
    (back : ∀ s o r s', I s → step o s = .ok (r, s') → Q s' → Q s)
    {requests : List O} {s final : S} (start : I s) (reach : run step requests s = .ok final)
    (last : Q final) : Along step (fun s o => ∀ r s', step o s = .ok (r, s') → Q s') requests s := by
  have first : ∀ {requests : List O} {s : S}, I s → run step requests s = .ok final → Q s := by
    intro requests
    induction requests with
    | nil =>
      intro s _ reach
      cases reach
      exact last
    | cons o requests ih =>
      intro s inv reach
      obtain ⟨r, mid, served, rest⟩ := run_cons_eq_ok.mp reach
      exact back s o r mid inv served (ih (kept s o r mid inv served) rest)
  induction requests generalizing s with
  | nil => trivial
  | cons o requests ih =>
    obtain ⟨r, mid, served, rest⟩ := run_cons_eq_ok.mp reach
    refine ⟨fun r' s' served' => ?_, fun r' s' served' => ?_⟩
    · rw [served] at served'
      cases served'
      exact first (kept s o r mid start served) rest
    · rw [served] at served'
      cases served'
      exact ih (kept s o r mid start served) rest

/-- Two conditions are met along a run when each is. -/
theorem Along.and {P Q : S → O → Prop} {requests : List O} {s : S}
    (first : Along step P requests s) (second : Along step Q requests s) :
    Along step (fun s o => P s o ∧ Q s o) requests s := by
  induction requests generalizing s with
  | nil => trivial
  | cons o requests ih =>
    exact ⟨⟨first.1, second.1⟩, fun r s' served =>
      ih (first.2 r s' served) (second.2 r s' served)⟩

/-- **Progress.** When every guarded step from an invariant state succeeds, so does the run. -/
theorem run_progress {I : S → Prop} {G : S → O → Prop}
    (steps : ∀ s o, I s → G s o → ∃ r s', step o s = .ok (r, s') ∧ I s')
    {requests : List O} {s : S} (start : I s) (guarded : Along step G requests s) :
    ∃ s', run step requests s = .ok s' ∧ I s' := by
  induction requests generalizing s with
  | nil => exact ⟨s, rfl, start⟩
  | cons o requests ih =>
    obtain ⟨r, mid, served, inv⟩ := steps s o start guarded.1
    obtain ⟨s', rest, last⟩ := ih inv (guarded.2 r mid served)
    exact ⟨s', run_cons_eq_ok.mpr ⟨r, mid, served, rest⟩, last⟩

/-- **Faults.** A run faults only the way one of its steps can from an invariant state. -/
theorem run_fault {I : S → Prop} {Allowed : F → Prop}
    (kept : ∀ s o r s', I s → step o s = .ok (r, s') → I s')
    (faults : ∀ s o e, I s → step o s = .error e → Allowed e)
    {requests : List O} {s : S} {e : F} (start : I s) (fault : run step requests s = .error e) :
    Allowed e := by
  induction requests generalizing s with
  | nil => cases fault
  | cons o requests ih =>
    rw [run, bind_eq_error] at fault
    rcases fault with here | ⟨⟨r, mid⟩, served, later⟩
    · exact faults s o e start here
    · exact ih (kept s o r mid start served) later

end MiniV.Library
