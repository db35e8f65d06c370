/-
**What `setHotLimit` evicts.**

`setHotLimit` and `activateForInfer` share one eviction loop, and the loop goes on while the hot list
is not shorter than the limit: it makes room for a session that is about to join. Under `setHotLimit`
nobody joins.

`set_hot_limit`: when every save succeeds and there is no session -1, it leaves the most recently used
sessions up to the limit exactly when there were fewer of them than the limit already.
-/

import MiniV.Session.HotLimit

namespace MiniV

open MiniV.Library
open MiniV.Library.NodeList (values)

variable {σ : Type} {L : Llama σ} {w w' : World σ}

/-- **The limit keeps the most recent sessions**: of the HOT sessions just the last `max 1 count` stay
HOT, in their order, and the others are swapped out, the least recently used first. -/
structure KeepsMostRecent (count : Nat) (w w' : World σ) : Prop where
  hot : values w'.mHotLru = (values w.mHotLru).drop (w.mHotLru.length - max 1 count)
  exactly : ∀ id, (∃ entry, w'.mSessions id = some entry ∧ entry.state = .HOT) ↔
    id ∈ (values w.mHotLru).drop (w.mHotLru.length - max 1 count)
  swapped : swappedIds w'.trace =
    swappedIds w.trace ++ (values w.mHotLru).take (w.mHotLru.length - max 1 count)

/-- A swap-out that fails has seen its save fail. -/
theorem swapOut_failed {n : Node Int} (rep : Rep w) (inside : n ∈ w.mHotLru)
    (result : swapOut L n.val w = .ok (false, w')) :
    ∃ new, w'.trace = w.trace ++ new ∧ .saved n.val 0 ∈ new := by
  obtain ⟨entry, found, hot⟩ := rep.hot.owner n inside
  obtain ⟨c, holds⟩ := rep.ctx_of_hot found hot
  have own := rep.keyed n.val entry found
  rw [← own] at found result ⊢
  obtain ⟨entry', w1, pruned, ending⟩ :=
    swapOutLoop_spec (L := L) found hot holds (Nat.lt_succ_self _)
  rcases ending with ⟨failed, loop⟩ | ⟨_, _, loop⟩
  · simp only [swapOut, World.deref, found, ok_bind, loop] at result
    cases result
    obtain ⟨early, grown⟩ := (Evicts.moves pruned.evicts).trace_grows
    refine ⟨early ++ [.saved entry'.id 0], ?_, ?_⟩
    · rw [← List.append_assoc, grown]
      rfl
    · rw [pruned.id_eq]
      exact List.mem_append_right _ List.mem_cons_self
  · simp only [swapOut, World.deref, found, ok_bind, loop] at result
    obtain ⟨w2, _, result⟩ := bind_eq_ok.mp result
    obtain ⟨w3, _, result⟩ := bind_eq_ok.mp result
    cases result

/-- The loop ends where it stops, or with a save that fails. -/
theorem HotEviction.stops {excludeId : Int} {sizes : List (Int × UInt64)} (rep : Rep w)
    (eviction : HotEviction L excludeId w w' sizes) (saves : Adds SaveWorked w w') :
    HotStop excludeId w' := by
  induction eviction with
  | stop stopped => exact stopped
  | @fail w w' n goes first swap =>
    obtain ⟨new, grown, failed⟩ := swapOut_failed rep (Move.inside_of_first first).1 swap.result
    obtain ⟨new', grown', worked⟩ := saves
    rw [grown, List.append_cancel_left_eq] at grown'
    have written : SaveWorked (.saved n.val 0) := worked _ (grown' ▸ failed)
    exact absurd rfl written
  | @swap w w1 w2 n bytes sizes goes first swap later ih =>
    refine ih (Evicts.rep swap.evicts rep) ?_
    obtain ⟨early, grown⟩ := (Evicts.moves swap.evicts).trace_grows
    obtain ⟨late, grown'⟩ := (Evicts.moves later.evicts).trace_grows
    obtain ⟨new, whole, worked⟩ := saves
    refine ⟨late, grown'.symm, fun e member => worked e ?_⟩
    rw [← grown', ← grown, List.append_assoc, List.append_cancel_left_eq] at whole
    exact whole ▸ List.mem_append_right _ member

/-- The victims of an eviction that takes the first of a list are cut off its front. -/
theorem Victims.cut {victims : List Int} (shape : Victims victims w w') (rep : Rep w)
    (nobody : w.mSessions (-1) = Option.none) :
    values w'.mHotLru = (values w.mHotLru).drop victims.length ∧
      victims = (values w.mHotLru).take victims.length := by
  have everyone : (values w.mHotLru).filter (· ≠ -1) = values w.mHotLru :=
    filter_absent (rep.not_mem_of_absent nobody).1
  have first := shape.first
  rw [everyone] at first
  obtain ⟨rest, whole⟩ := first
  rw [shape.hot, ← whole, List.drop_left, List.take_left]
  exact ⟨filter_rest (whole ▸ rep.hot.values), rfl⟩

/-- **`setHotLimit` evicts exactly what exceeds the limit**, in any state that a run reaches, when the
saves of the call succeed and there is no session -1, if and only if nothing does: as many HOT sessions
as the limit are one too many for its loop. -/
theorem set_hot_limit (L : Llama σ) (nCtx : Nat) (swapDir : Bytes) (llama : σ) (ops : List Op)
    (w : World σ) (reach : run (serve L) ops (World.start nCtx swapDir llama) = .ok w)
    (nobody : w.mSessions (-1) = none) (count : Nat) :
    ∃ w', setHotLimit L count w = .ok w' ∧
      (Adds SaveWorked w w' → (KeepsMostRecent count w w' ↔ w.mHotLru.length < max 1 count)) := by
  have rep : Rep w := run_invariant' (I := Rep) (fun _ _ _ _ rep served => serve_rep rep served)
    (Rep.start nCtx swapDir llama) reach
  obtain ⟨w', sizes, result, eviction⟩ := setHotLimit_spec (L := L) rep count
  refine ⟨w', result, fun saves => ?_⟩
  have rep1 := withLimits_rep (.setHotLimit count) rep
  have rep' := Evicts.rep eviction.evicts rep1
  have limit := (Evicts.limits eviction.evicts).1
  have room := eviction.room_of_stop rep1 nobody_away (Nat.le_max_left 1 count) nobody
    (eviction.stops rep1 saves)
  obtain ⟨victims, shape⟩ := Evicts.victims eviction.evicts rep1
  obtain ⟨left, taken⟩ := shape.cut rep1 nobody
  have length := shape.length
  rw [limit] at room
  have room' : w'.mHotLru.length < max 1 count := room
  constructor
  · intro keeps
    have kept := congrArg List.length keeps.hot
    rw [List.length_drop, NodeList.length_values, NodeList.length_values] at kept
    omega
  · intro few
    have noVictims : victims.length = 0 := by
      by_contra some'
      have last := shape.room (fun none => some' (by rw [none]; rfl))
      have enough : max 1 count ≤ w'.mHotLru.length + 1 := last
      have whole : w'.mHotLru.length + victims.length = w.mHotLru.length := length
      omega
    have none' : w.mHotLru.length - max 1 count = 0 := by omega
    rw [noVictims] at left taken
    rw [List.drop_zero] at left
    refine ⟨?_, fun id => ?_, ?_⟩
    · rw [none', List.drop_zero]
      exact left
    · rw [none', List.drop_zero]
      have same : values w'.mHotLru = values w.mHotLru := left
      rw [← same]
      exact (rep'.hot.mem_values_iff id).symm
    · rw [none', List.take_zero]
      rw [List.take_zero] at taken
      exact taken ▸ shape.swapped

/-- Two HOT sessions. -/
def pair : List Op := [.createSession 1, .createSession 2, .activateForInfer 1, .activateForInfer 2]

/-- The state the two are in. -/
theorem pair_reached : ∃ w, run (serve (sim 4 10)) pair (World.start 4 (text "/s") (Sim.start [])) =
    .ok w ∧ (w.mSessions (-1)).isNone ∧ values w.mHotLru = [1, 2] ∧
      Gives (fun w' => w'.trace = w.trace) (setHotLimit (sim 4 10) 3 w) ∧
      Gives (fun w' => values w'.mHotLru = [2]) (setHotLimit (sim 4 10) 2 w) := by
  refine gives_iff.mp ?_
  decide +kernel

theorem set_hot_limit_pair : ∃ w w', setHotLimit (sim 4 10) 3 w = .ok w' ∧
    KeepsMostRecent 3 w w' ∧ values w.mHotLru = [1, 2] := by
  obtain ⟨w, reach, nobody, hot, saved, _⟩ := pair_reached
  obtain ⟨w', result, exactly⟩ := set_hot_limit (sim 4 10) 4 (text "/s") (Sim.start []) pair w reach
    (Option.isNone_iff_eq_none.mp nobody) 3
  obtain ⟨w1, result', quiet⟩ := gives_iff.mp saved
  rw [result, Except.ok.injEq] at result'
  subst result'
  refine ⟨w, w', result, (exactly (.refl quiet)).mpr ?_, hot⟩
  rw [← NodeList.length_values, hot]
  decide

/-- Two HOT sessions are as many as the limit, and one of them is swapped out. -/
theorem set_hot_limit_swaps : ∃ w w', run (serve (sim 4 10)) pair
      (World.start 4 (text "/s") (Sim.start [])) = .ok w ∧ setHotLimit (sim 4 10) 2 w = .ok w' ∧
    values w.mHotLru = [1, 2] ∧ values w'.mHotLru = [2] ∧ ¬ KeepsMostRecent 2 w w' := by
  obtain ⟨w, reach, _, hot, _, left⟩ := pair_reached
  obtain ⟨w', result, one⟩ := gives_iff.mp left
  refine ⟨w, w', reach, result, hot, one, fun keeps => ?_⟩
  have same := keeps.hot
  rw [← NodeList.length_values, hot, one] at same
  exact absurd same (by decide)

end MiniV
