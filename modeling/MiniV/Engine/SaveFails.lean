/-
**What a swap-out that fails has changed.**

When a save fails, `swapOut` returns before it touches the lists, the context or the total of bytes.
The rounds before it are not undone: each has written the file, and has taken the oldest tokens out
of the session and out of its context.

* `swapOutLoop_none`: the loop gives up exactly when one of its saves fails;
* `swapOutLoop_tokens`: no round adds a token;
* `swap_out_failure`: a failed swap-out changes nothing exactly when its first save fails.
-/

import MiniV.Engine.SwapOut

namespace MiniV

open MiniV.Library

section Functions

variable {σ : Type} (L : Llama σ) (V : View σ)

/-- A save that fails writes nothing. -/
def FailsSilently : Prop :=
  ∀ c path tokens s, (L.stateSeqSaveFile c path tokens s).1 = 0 →
    V.Untouched s (L.stateSeqSaveFile c path tokens s).2

/-- Neither the manager nor what it acts on has changed: no session, no list, no total, no context, no
cell and no file. -/
structure Unchanged (w w' : World σ) : Prop where
  manager : w'.toSessionManager = w.toSessionManager
  contexts : w'.created = w.created ∧ w'.freed = w.freed
  outside : V.Untouched w.llama w'.llama

/-- Every save works in the rounds left: the one of the state as it is, and, where that state is
refused, those after the pruning that follows. -/
def SavesWork (c : Ctx) : Nat → SessionMeta → World σ → Prop
  | 0, _, _ => True
  | rounds + 1, entry, w =>
    (saveOf L c entry w).1 ≠ 0 ∧
      (Accepted (measureOf L c entry w).1 entry w ∨
        SavesWork c rounds (prunedEntry entry) (prunedOf L c entry w))

end Functions

variable {σ : Type} {L : Llama σ} {V : View σ} {w w' : World σ} {id : Int} {entry : SessionMeta}
  {c : Ctx}

/-! ### The loop -/

/-- **The loop of `swapOut` gives up** exactly when one of its saves fails. -/
theorem swapOutLoop_none {rounds : Nat} (found : w.mSessions entry.id = some entry)
    (holds : entry.ctx = some c) :
    (∃ w', swapOutLoop L entry.id (swapPathFor w entry.id) rounds w = .ok (none, w')) ↔
      ¬ SavesWork L c rounds entry w := by
  induction rounds generalizing w entry with
  | zero => exact iff_of_false (fun ⟨w', result⟩ => by cases result) (fun fails => fails trivial)
  | succ rounds ih =>
    have found' : (prunedOf L c entry w).mSessions (prunedEntry entry).id =
        some (prunedEntry entry) := Function.update_self ..
    have later := ih found' holds
    rw [swapOutLoop_round (L := L) rounds found holds]
    unfold SavesWork
    by_cases failed : (saveOf L c entry w).1 = 0
    · rw [if_pos failed]
      exact iff_of_true ⟨_, rfl⟩ fun works => works.1 failed
    · rw [if_neg failed]
      by_cases accepted : Accepted (measureOf L c entry w).1 entry w
      · rw [if_pos accepted]
        exact iff_of_false (fun ⟨w', result⟩ => by cases result)
          (fun fails => fails ⟨failed, Or.inl accepted⟩)
      · rw [if_neg accepted]
        refine later.trans (not_congr ?_)
        simp only [ne_eq, failed, not_false_eq_true, true_and, accepted, false_or]

/-- No round adds a token. -/
theorem swapOutLoop_tokens {rounds : Nat} {accepted : Option UInt64}
    (found : w.mSessions entry.id = some entry) (holds : entry.ctx = some c)
    (result : swapOutLoop L entry.id (swapPathFor w entry.id) rounds w = .ok (accepted, w')) :
    ∃ entry', w'.mSessions entry.id = some entry' ∧ entry'.tokens.length ≤ entry.tokens.length := by
  induction rounds generalizing w entry with
  | zero => cases result
  | succ rounds ih =>
    have found' : (prunedOf L c entry w).mSessions (prunedEntry entry).id =
        some (prunedEntry entry) := Function.update_self ..
    rw [swapOutLoop_round (L := L) rounds found holds] at result
    split at result
    · cases result
      exact ⟨entry, found, le_rfl⟩
    · split at result
      · cases result
        exact ⟨entry, found, le_rfl⟩
      · obtain ⟨entry', found'', fewer⟩ := ih found' holds result
        refine ⟨entry', found'', fewer.trans ?_⟩
        rw [prunedEntry, List.length_drop]
        exact Nat.sub_le _ _

/-! ### The whole function -/

theorem swapOut_false (own : entry.id = id) (found : w.mSessions id = some entry) :
    swapOut L id w = .ok (false, w') ↔
      swapOutLoop L id (swapPathFor w id) (entry.tokens.length + 1) w = .ok (none, w') := by
  simp only [swapOut, World.deref, found, ok_bind, own]
  cases loop : swapOutLoop L id (swapPathFor w id) (entry.tokens.length + 1) w with
  | error e => simp [error_bind]
  | ok r =>
    obtain ⟨bytes | bytes, w1⟩ := r
    · simp [ok_bind]
    · rw [ok_bind]
      refine iff_of_false (fun result => ?_) (by simp)
      obtain ⟨w2, _, result⟩ := bind_eq_ok.mp result
      obtain ⟨w3, _, result⟩ := bind_eq_ok.mp result
      cases result

/-- **The call fails** exactly when one of its saves does. -/
theorem swapOut_fails_iff (found : w.mSessions entry.id = some entry) (holds : entry.ctx = some c) :
    (∃ w', swapOut L entry.id w = .ok (false, w')) ↔
      ¬ SavesWork L c (entry.tokens.length + 1) entry w := by
  simp only [swapOut_false rfl found]
  exact swapOutLoop_none found holds

/-- A first save that fails ends the call. -/
theorem swapOut_firstFails (found : w.mSessions entry.id = some entry) (holds : entry.ctx = some c)
    (failed : (saveOf L c entry w).1 = 0) :
    swapOut L entry.id w = .ok (false, saveFailedOf L c entry w) := by
  rw [swapOut_false rfl found, swapOutLoop_round (L := L) entry.tokens.length found holds, if_pos failed]

/-- It leaves everything as it is. -/
theorem saveFailedOf_unchanged (silent : FailsSilently L V)
    (failed : (saveOf L c entry w).1 = 0) : Unchanged V w (saveFailedOf L c entry w) where
  manager := rfl
  contexts := ⟨rfl, rfl⟩
  outside := silent c _ entry.tokens w.llama failed

/-- **A swap-out that fails later** leaves another session: with fewer tokens. -/
theorem swapOut_laterFails (found : w.mSessions entry.id = some entry) (holds : entry.ctx = some c)
    (saved : (saveOf L c entry w).1 ≠ 0) (result : swapOut L entry.id w = .ok (false, w')) :
    w'.mSessions entry.id ≠ some entry := by
  have loop := (swapOut_false rfl found).mp result
  rw [swapOutLoop_round (L := L) entry.tokens.length found holds, if_neg saved] at loop
  split at loop
  · cases loop
  · rename_i refused
    -- the pruning has taken tokens out, and no later round puts one back
    have found' : (prunedOf L c entry w).mSessions (prunedEntry entry).id =
        some (prunedEntry entry) := Function.update_self ..
    obtain ⟨entry', found'', fewer⟩ := swapOutLoop_tokens found' holds loop
    intro still
    obtain rfl : entry = entry' := Option.some.inj (still.symm.trans found'')
    obtain ⟨positive, few⟩ := pruneAmount_bounds (Nat.not_le.mp (not_or.mp refused).2)
    rw [prunedEntry, List.length_drop] at fewer
    omega

/-- **A failed swap-out changes nothing** exactly when its first save fails, or none does: in any state
of a manager, for each HOT session, under any limit and whatever the saves answer. A save that fails
after a pruning leaves the session with fewer tokens. -/
theorem swap_out_failure (silent : FailsSilently L V) {nCtx : Nat} {swapDir : Bytes}
    (reached : Reached L nCtx swapDir w) (found : w.mSessions id = some entry)
    (hot : entry.state = .HOT) :
    ∃ c, entry.ctx = some c ∧
      ((∀ w', swapOut L id w = .ok (false, w') → Unchanged V w w') ↔
        (saveOf L c entry w).1 = 0 ∨ SavesWork L c (entry.tokens.length + 1) entry w) := by
  obtain ⟨c, holds⟩ := reached.rep.ctx_of_hot found hot
  have own := reached.rep.keyed id entry found
  subst own
  refine ⟨c, holds, fun unchanged => ?_, ?_⟩
  · by_contra! fails
    obtain ⟨worked, broken⟩ := fails
    obtain ⟨w', result⟩ := (swapOut_fails_iff found holds).mpr broken
    have same := (unchanged w' result).manager
    refine swapOut_laterFails found holds worked result ?_
    rw [same]
    exact found
  · rintro (failed | works) w' result
    · rw [swapOut_firstFails found holds failed] at result
      cases result
      exact saveFailedOf_unchanged silent failed
    · exact absurd works ((swapOut_fails_iff found holds).mp ⟨w', result⟩)

/-! ### A disk that is full -/

/-- The small llama on a disk that is full once a session has its file: saving it again fails. -/
def fullDisk : Llama Sim :=
  { sim 100 10 with
    stateSeqSaveFile := fun c path tokens s =>
      if (s.files path).isSome then (0, s) else (sim 100 10).stateSeqSaveFile c path tokens s }

theorem fullDisk_silent : FailsSilently fullDisk simView := by
  intro c path tokens s
  unfold fullDisk
  dsimp only
  split
  · exact fun _ => ⟨rfl, rfl⟩
  · exact fun failed => absurd failed (by show ¬ (1 : UInt64) = 0; decide)

/-- A session of seventy tokens, and a budget for sixty-five. -/
def nearlyFull : List EngineOp :=
  [.setColdLimit 75, .createSession 1, .infer 1 (List.replicate 70 97) 0 none]

/-- The session is saved, pruned to sixty-four tokens and not saved again; then its next swap-out fails
in the first save. -/
theorem swap_out_failure_again : ∃ w entry,
    run (serveEngine fullDisk) (nearlyFull ++ [.setHotLimit 1])
        (World.start 100 (text "/s") (Sim.start [])) = .ok w ∧
      w.mSessions 1 = some entry ∧ entry.tokens.length = 64 ∧
      ∀ w', swapOut fullDisk 1 w = .ok (false, w') → Unchanged simView w w' := by
  have state : ∃ w : World Sim,
      run (serveEngine fullDisk) (nearlyFull ++ [.setHotLimit 1])
          (World.start 100 (text "/s") (Sim.start [])) = .ok w ∧
        ∃ entry ∈ w.mSessions 1, entry.state = .HOT ∧ entry.ctx = some 0 ∧
          entry.tokens.length = 64 ∧ (saveOf fullDisk 0 entry w).1 = 0 := by
    refine gives_iff.mp ?_
    decide +kernel
  obtain ⟨w, reach, entry, found, hot, holds, length, failed⟩ := state
  obtain ⟨c, holds', exactly⟩ := swap_out_failure fullDisk_silent (reached_of_run reach) found hot
  obtain rfl : 0 = c := Option.some.inj (holds.symm.trans holds')
  exact ⟨w, entry, reach, found, length, exactly.mpr (Or.inl failed)⟩

/-- A swap-out whose second save fails has taken six tokens out of the session and out of its context,
and has left a file. -/
theorem swap_out_failure_prunes : FailsSilently fullDisk simView ∧ ∃ w w' entry entry',
    run (serveEngine fullDisk) nearlyFull (World.start 100 (text "/s") (Sim.start [])) = .ok w ∧
      w.mSessions 1 = some entry ∧ entry.state = .HOT ∧ entry.tokens.length = 70 ∧
      swapOut fullDisk 1 w = .ok (false, w') ∧ ¬ Unchanged simView w w' ∧
      w'.mSessions 1 = some entry' ∧ entry'.tokens.length = 64 ∧
      (simView.kv w'.llama 0).length = 64 ∧
      simView.file w.llama (text "/s/1.state") = none ∧
      simView.file w'.llama (text "/s/1.state") ≠ none := by
  have state : ∃ w : World Sim,
      run (serveEngine fullDisk) nearlyFull (World.start 100 (text "/s") (Sim.start [])) = .ok w ∧
        (∃ entry ∈ w.mSessions 1, entry.state = .HOT ∧ entry.tokens.length = 70) ∧
        simView.file w.llama (text "/s/1.state") = none ∧
        Gives (fun r => r.1 = false ∧ (∃ entry' ∈ r.2.mSessions 1, entry'.tokens.length = 64) ∧
            (simView.kv r.2.llama 0).length = 64 ∧
            simView.file r.2.llama (text "/s/1.state") ≠ none)
          (swapOut fullDisk 1 w) := by
    refine gives_iff.mp ?_
    decide +kernel
  obtain ⟨w, reach, ⟨entry, found, hot, length⟩, noFile, swaps⟩ := state
  obtain ⟨⟨swapped, w'⟩, result, rfl, ⟨entry', found', length'⟩, cells, file⟩ := gives_iff.mp swaps
  refine ⟨fullDisk_silent, w, w', entry, entry', reach, found, hot, length, result,
    fun unchanged => ?_, found', length', cells, noFile, file⟩
  rw [← unchanged.outside.2] at noFile
  exact file noFile

end MiniV
