/-
**Runs with their results.**

`history step requests s` is the list of the requests of a run, each with its result, and the state at
its end.

* `history_cons_eq_ok`, `history_append_eq_ok`: a history in parts;
* `run_error_iff`: where a run faults;
* `history_invariant`: what one more request keeps of a history and the state it leads to;
* `history_countdown`: what every request of one kind takes from a measure, and no other adds to;
* `history_potential`: no more requests of one kind than a potential pays for.
-/

import MiniV.Library.Run

namespace MiniV.Library

variable {S O R F : Type}

/-- The requests of a run with their results, and the state at its end. -/
def history (step : O → S → Except F (R × S)) : List O → S → Except F (List (O × R) × S)
  | [], s => .ok ([], s)
  | o :: requests, s => do
    let (r, s) ← step o s
    let (h, s) ← history step requests s
    .ok ((o, r) :: h, s)

variable {step : O → S → Except F (R × S)} {requests later : List O} {s s' : S} {h : List (O × R)}

/-! ### In parts -/

@[simp] theorem history_nil_eq_ok : history step [] s = .ok (h, s') ↔ h = [] ∧ s' = s := by
  rw [history, Except.ok.injEq, Prod.mk.injEq]
  exact and_congr eq_comm eq_comm

theorem history_cons_eq_ok {o : O} : history step (o :: requests) s = .ok (h, s') ↔
    ∃ r mid h', step o s = .ok (r, mid) ∧ history step requests mid = .ok (h', s') ∧
      h = (o, r) :: h' := by
  rw [history, bind_eq_ok]
  constructor
  · rintro ⟨⟨r, mid⟩, served, rest⟩
    obtain ⟨⟨h', s''⟩, told, same⟩ := bind_eq_ok.mp rest
    cases same
    exact ⟨r, mid, h', served, told, rfl⟩
  · rintro ⟨r, mid, h', served, told, rfl⟩
    refine ⟨(r, mid), served, ?_⟩
    show (history step requests mid >>= _) = _
    rw [told, ok_bind]

/-- **A history in two parts.** -/
theorem history_append_eq_ok : history step (requests ++ later) s = .ok (h, s') ↔
    ∃ h1 mid h2, history step requests s = .ok (h1, mid) ∧ history step later mid = .ok (h2, s') ∧
      h = h1 ++ h2 := by
  induction requests generalizing s h with
  | nil =>
    constructor
    · exact fun told => ⟨[], s, h, rfl, told, rfl⟩
    · rintro ⟨h1, mid, h2, first, told, rfl⟩
      obtain ⟨rfl, rfl⟩ := history_nil_eq_ok.mp first
      exact told
  | cons o requests ih =>
    rw [List.cons_append, history_cons_eq_ok]
    constructor
    · rintro ⟨r, mid, h', served, told, rfl⟩
      obtain ⟨h1, mid', h2, first, second, rfl⟩ := ih.mp told
      exact ⟨(o, r) :: h1, mid', h2, history_cons_eq_ok.mpr ⟨r, mid, h1, served, first, rfl⟩, second,
        rfl⟩
    · rintro ⟨h1, mid', h2, first, second, rfl⟩
      obtain ⟨r, mid, h', served, told, rfl⟩ := history_cons_eq_ok.mp first
      exact ⟨r, mid, h' ++ h2, served, ih.mpr ⟨h', mid', h2, told, second, rfl⟩, rfl⟩

/-- **A run faults** where its first step that faults does. -/
theorem run_error_iff {e : F} : run step requests s = .error e ↔
    ∃ early o later mid, requests = early ++ o :: later ∧ run step early s = .ok mid ∧
      step o mid = .error e := by
  induction requests generalizing s with
  | nil =>
    constructor
    · intro fault
      cases fault
    · rintro ⟨early, o, later, mid, same, _⟩
      exact absurd (congrArg List.length same) (by simp)
  | cons o requests ih =>
    rw [run, bind_eq_error]
    constructor
    · rintro (fault | ⟨⟨r, mid⟩, served, fault⟩)
      · exact ⟨[], o, requests, s, rfl, rfl, fault⟩
      · obtain ⟨early, o', later, mid', rfl, reach, here⟩ := ih.mp fault
        exact ⟨o :: early, o', later, mid', rfl, run_cons_eq_ok.mpr ⟨r, mid, served, reach⟩, here⟩
    · rintro ⟨early, o', later, mid', same, reach, here⟩
      cases early with
      | nil =>
        cases reach
        cases same
        exact Or.inl here
      | cons o'' early =>
        obtain ⟨r, mid, served, rest⟩ := run_cons_eq_ok.mp reach
        cases same
        exact Or.inr ⟨(r, mid), served, ih.mpr ⟨early, o', later, mid', rfl, rest, here⟩⟩

/-! ### From one step to a history -/

/-- **Invariants of histories.** What one more request keeps of a history and the state it leads to
holds of every run that goes on from there. -/
theorem history_invariant {I : List (O × R) → S → Prop}
    (kept : ∀ h s o r s', I h s → step o s = .ok (r, s') → I (h ++ [(o, r)]) s')
    {past : List (O × R)} (start : I past s) (told : history step requests s = .ok (h, s')) :
    I (past ++ h) s' := by
  induction requests generalizing s past h with
  | nil =>
    obtain ⟨rfl, rfl⟩ := history_nil_eq_ok.mp told
    rwa [List.append_nil]
  | cons o requests ih =>
    obtain ⟨r, mid, h', served, rest, rfl⟩ := history_cons_eq_ok.mp told
    have next := ih (kept past s o r mid start served) rest
    rwa [List.append_assoc, List.singleton_append] at next

/-- **Countdown.** A measure that every request of one kind takes one from, and no request adds to, is
smaller by as many as there were. -/
theorem history_countdown {I : S → Prop} {left : S → Nat} {mine : O → Bool}
    (kept : ∀ s o r s', I s → step o s = .ok (r, s') → I s')
    (down : ∀ s o r s', I s → step o s = .ok (r, s') →
      left s' ≤ left s - if mine o = true then 1 else 0)
    (start : I s) (told : history step requests s = .ok (h, s')) :
    left s' ≤ left s - requests.countP mine := by
  induction requests generalizing s h with
  | nil =>
    obtain ⟨_, rfl⟩ := history_nil_eq_ok.mp told
    exact Nat.le_refl _
  | cons o requests ih =>
    obtain ⟨r, mid, h', served, rest, _⟩ := history_cons_eq_ok.mp told
    have here := down s o r mid start served
    have later := ih (kept s o r mid start served) rest
    rw [List.countP_cons]
    omega

/-- **Potentials.** When every request that costs something lowers a potential, and none raises it, a
run has no more such requests than what the potential has fallen by. -/
theorem history_potential {I : S → Prop} {potential : S → Nat} {costs : O × R → Bool}
    (kept : ∀ s o r s', I s → step o s = .ok (r, s') → I s')
    (pays : ∀ s o r s', I s → step o s = .ok (r, s') →
      (if costs (o, r) = true then 1 else 0) + potential s' ≤ potential s)
    (start : I s) (told : history step requests s = .ok (h, s')) :
    h.countP costs + potential s' ≤ potential s := by
  induction requests generalizing s h with
  | nil =>
    obtain ⟨rfl, rfl⟩ := history_nil_eq_ok.mp told
    exact Nat.le_of_eq (Nat.zero_add _)
  | cons o requests ih =>
    obtain ⟨r, mid, h', served, rest, rfl⟩ := history_cons_eq_ok.mp told
    have here := pays s o r mid start served
    have later := ih (kept s o r mid start served) rest
    rw [List.countP_cons]
    omega

end MiniV.Library
