/-
**Every call ends.**

The loops of the manager have no bound of their own; what ends them is that each round which goes on
takes something away:

* `evictColdRound_again`: a session and its node from `mColdLru`, where `killSession` finds it COLD and
  with a swap file because the representation invariant says so (`evictColdRound_forever` shows a
  list that breaks the invariant);
* `Swapping.again`: tokens from the session that is saved, but none of its newest `kMinKeepTokens`;
* `evictHotRound_again`: a node from `mHotLru`, and nothing joins it.

So the functions with unbounded loops end, with what the counted ones give (`evictColdIfNeeded_ends`,
`swapOut_ends`, `evictHotIfNeeded_ends`, `serve_ends`, `run_ends`). `calls_end` says both of every call
from every state a run reaches.
-/

import MiniV.Session.Representation

namespace MiniV

open MiniV.Library
open MiniV.Library.NodeList (values)

variable {σ : Type} {L : Llama σ} {w w' : World σ} {excludeId ref : Int} {path : Bytes}

/-! ### `evictColdIfNeeded` -/

theorem coldVictim_mem {l : List (Node Int)} {victim : Int}
    (named : coldVictim excludeId l = some victim) : ∃ n ∈ l, n.val = victim := by
  cases l with
  | nil => cases named
  | cons front rest =>
    by_cases excluded : front.val = excludeId
    · cases rest with
      | nil =>
        rw [coldVictim, if_pos excluded] at named
        cases named
      | cons next rest =>
        rw [coldVictim, if_pos excluded, Option.some.injEq] at named
        exact ⟨next, List.mem_cons_of_mem _ List.mem_cons_self, named⟩
    · rw [coldVictim_of_ne excluded, Option.some.injEq] at named
      exact ⟨front, List.mem_cons_self, named⟩

/-- **A round of `evictColdIfNeeded` that goes on** kills a session of the cold list. -/
theorem evictColdRound_again (rep : Rep w)
    (again : Unbounded.evictColdRound L excludeId w = ended (.ok (.again w'))) :
    Rep w' ∧ ∃ n ∈ w.mColdLru, w'.mColdLru = w.mColdLru.erase n := by
  unfold Unbounded.evictColdRound at again
  by_cases exceeds : w.mColdLimitBytes < w.mColdUsedBytes
  · rw [if_pos exceeds] at again
    cases named : coldVictim excludeId w.mColdLru with
    | none =>
      simp only [named, return_eq, ended_inj] at again
      cases again
    | some victim =>
      obtain ⟨n, inside, rfl⟩ := coldVictim_mem named
      obtain ⟨entry, found, _⟩ := rep.cold.owner n inside
      simp only [named, killSession_cold rep found inside, ended_ok_bind, return_eq, ended_inj] at again
      cases again
      exact ⟨Move.rep_killCold rep found inside, n, inside, rfl⟩
  · rw [if_neg exceeds, return_eq, ended_inj] at again
    cases again

theorem evictColdIfNeeded_ends (rep : Rep w) (excludeId : Int) :
    Unbounded.evictColdIfNeeded L excludeId w = ended (evictColdIfNeeded L excludeId w) := by
  have ends : loop (Unbounded.evictColdRound L excludeId) w =
      ended (evictColdLoop L excludeId (w.mColdLru.length + 1) w) := by
    refine loop_eq Rep (fun w => w.mColdLru.length)
      (fun n w _ => Unbounded.evictColdRound_counted excludeId n w) (fun w w' rep again => ?_) rep
      (Nat.lt_succ_self _)
    obtain ⟨rep', n, inside, left⟩ := evictColdRound_again rep again
    have shorter := List.length_erase_add_one inside
    exact ⟨rep', by rw [left]; omega⟩
  rw [Unbounded.evictColdIfNeeded, ends]
  exact ended_bind fun _ _ => rfl

/-- Without the invariant it need not end: a cold list with the id of nobody in front stays as it is. -/
theorem evictColdRound_forever {front : Node Int} {rest : List (Node Int)}
    (exceeds : w.mColdLimitBytes < w.mColdUsedBytes) (shape : w.mColdLru = front :: rest)
    (other : front.val ≠ excludeId) (nobody : w.mSessions front.val = none)
    (r : Except Fault (World σ)) : loop (Unbounded.evictColdRound L excludeId) w ≠ ended r := by
  refine loop_forever (fun w' => w' = w) (fun w' same => ⟨w, rfl, ?_⟩) rfl r
  have missed : killSession L front.val w = .ok (false, w) := by simp only [killSession, nobody]
  rw [same, Unbounded.evictColdRound, if_pos exceeds, shape, coldVictim_of_ne other]
  simp only [missed, ended_ok_bind, return_eq]

/-! ### `swapOut` -/

/-- The loop of `swapOut` is under way: the session of `ref` is the first HOT one, and there is no
room for another. -/
structure Swapping (ref : Int) (path : Bytes) (w : World σ) : Prop where
  rep : Rep w
  full : w.mHotLimit ≤ w.mHotLru.length
  first : ∃ it, (w.mHotLru.find? fun n => n.val ≠ -1) = some ⟨it, ref⟩
  path : path = swapPathFor w ref

/-- How many tokens a session has. -/
def tokenCount (id : Int) (w : World σ) : Nat :=
  match w.mSessions id with
  | none => 0
  | some entry => entry.tokens.length

theorem tokenCount_eq {id : Int} {entry : SessionMeta} (found : w.mSessions id = some entry) :
    tokenCount id w = entry.tokens.length := by
  rw [tokenCount, found]

namespace Swapping

theorem entry (swapping : Swapping ref path w) :
    ∃ entry c, entry.id = ref ∧ w.mSessions entry.id = some entry ∧ entry.state = .HOT ∧
      entry.ctx = some c := by
  obtain ⟨it, first⟩ := swapping.first
  obtain ⟨inside, _⟩ := Move.inside_of_first first
  obtain ⟨entry, found, hot⟩ := swapping.rep.hot.owner _ inside
  obtain ⟨c, holds⟩ := swapping.rep.ctx_of_hot found hot
  have own := swapping.rep.keyed ref entry found
  exact ⟨entry, c, own, own ▸ found, hot, holds⟩

/-- **A round of `swapOut` that goes on** prunes: the session has fewer tokens, and not fewer than the
floor. -/
theorem again (swapping : Swapping ref path w)
    (again : Unbounded.swapOutRound L ref path w = ended (.ok (.again w'))) :
    Swapping ref path w' ∧ tokenCount ref w' < tokenCount ref w ∧
      kMinKeepTokens ≤ tokenCount ref w' := by
  obtain ⟨entry, c, rfl, found, hot, holds⟩ := swapping.entry
  rw [swapping.path, swapOutRound_eq found holds, ended_inj] at again
  split_ifs at again with failed accepted
  · cases again
  · cases again
  · cases again
    have pruned := Pruned.single found hot holds failed accepted
    have large := Nat.not_le.mp (not_or.mp accepted).2
    refine ⟨⟨Evicts.rep pruned.evicts swapping.rep, swapping.full, swapping.first, swapping.path⟩, ?_⟩
    rw [tokenCount_eq found, tokenCount_eq pruned.found, prunedEntry, List.length_drop]
    unfold pruneAmount kMinKeepTokens at *
    omega

/-- A round of `swapOut` that accepts its save is followed by the move to the cold list. -/
theorem accepted {bytes : UInt64} {w1 : World σ} (swapping : Swapping ref path w)
    (leave : Unbounded.swapOutRound L ref path w = ended (.ok (.leave (some bytes, w1)))) :
    ∃ w2, moveToCold L ref path bytes w1 = .ok w2 ∧ Rep w2 := by
  obtain ⟨entry, c, rfl, found, hot, holds⟩ := swapping.entry
  obtain ⟨it, first⟩ := swapping.first
  rw [swapping.path, swapOutRound_eq found holds, ended_inj] at leave
  split_ifs at leave with failed accepted
  · cases leave
  · cases leave
    obtain ⟨w2, moved, move, _⟩ :=
      moveToCold_spec swapping.rep found hot holds swapping.full first failed accepted
    exact ⟨w2, swapping.path ▸ moved, Move.rep_evict move swapping.rep⟩
  · cases leave

end Swapping

/-- **`swapOut` ends.** -/
theorem swapOut_ends (swapping : Swapping ref (swapPathFor w ref) w) :
    Unbounded.swapOut L ref w = ended (swapOut L ref w) := by
  obtain ⟨entry, c, rfl, found, _, _⟩ := swapping.entry
  have counted : ∀ n w1, Swapping entry.id (swapPathFor w entry.id) w1 →
      ∃ r, Unbounded.swapOutRound L entry.id (swapPathFor w entry.id) w1 = ended r ∧
        swapOutLoop L entry.id (swapPathFor w entry.id) (n + 1) w1 =
          (r >>= Round.next (swapOutLoop L entry.id (swapPathFor w entry.id) n)) :=
    fun n w1 _ => Unbounded.swapOutRound_counted entry.id _ n w1
  have ends : loop (Unbounded.swapOutRound L entry.id (swapPathFor w entry.id)) w =
      ended (swapOutLoop L entry.id (swapPathFor w entry.id) (entry.tokens.length + 1) w) := by
    refine loop_eq (Swapping entry.id (swapPathFor w entry.id)) (tokenCount entry.id) counted
      (fun w1 w2 here again => ?_) swapping ?_
    · obtain ⟨later, fewer, _⟩ := here.again again
      exact ⟨later, fewer⟩
    · rw [tokenCount_eq found]
      exact Nat.lt_succ_self _
  simp only [Unbounded.swapOut, swapOut, World.deref, found, ended_ok_bind, ok_bind, ends]
  refine ended_bind fun result left => ?_
  obtain ⟨saved, w1⟩ := result
  cases saved with
  | none => rfl
  | some bytes =>
    obtain ⟨w0, here, leave⟩ := counted_left counted (fun _ _ same => by cases same)
      (fun _ _ here again => (here.again again).1) swapping left
    obtain ⟨w2, moved, rep⟩ := here.accepted leave
    simp only [moved, ended_ok_bind, ok_bind, evictColdIfNeeded_ends rep]
    exact ended_bind fun _ _ => rfl

/-! ### `evictHotIfNeeded` -/

/-- The victim that a round of `evictHotIfNeeded` swaps out. -/
theorem hotVictim_swapping (rep : Rep w) (away : Away excludeId w)
    (full : w.mHotLimit ≤ w.mHotLru.length) (named : hotVictim excludeId w.mHotLru ≠ -1) :
    Swapping (hotVictim excludeId w.mHotLru) (swapPathFor w (hotVictim excludeId w.mHotLru)) w := by
  obtain ⟨n, first, victim⟩ := hotVictim_first away named
  rw [victim]
  exact ⟨rep, full, ⟨n.addr, first⟩, rfl⟩

theorem evictHotRound_counted (rep : Rep w) (away : Away excludeId w) (n : Nat) :
    ∃ r, Unbounded.evictHotRound L excludeId w = ended r ∧
      evictHotLoop L excludeId (n + 1) w = (r >>= Round.next (evictHotLoop L excludeId n)) := by
  unfold Unbounded.evictHotRound evictHotLoop
  by_cases full : w.mHotLimit ≤ w.mHotLru.length ∧ w.mHotLru ≠ []
  · rw [if_pos full, if_pos full]
    by_cases nobody : hotVictim excludeId w.mHotLru = -1
    · simp only [if_pos nobody]
      exact ⟨.ok (.leave w), rfl, rfl⟩
    · simp only [if_neg nobody, swapOut_ends (hotVictim_swapping rep away full.1 nobody)]
      cases w.mSessions (hotVictim excludeId w.mHotLru) with
      | none => exact ⟨.error .outOfRange, rfl, rfl⟩
      | some entry =>
        dsimp only
        cases swapOut L (hotVictim excludeId w.mHotLru) w with
        | error e => exact ⟨.error e, ended_error_bind e _, rfl⟩
        | ok result =>
          obtain ⟨swapped, w1⟩ := result
          cases swapped with
          | true => exact ⟨.ok (.again w1), ended_ok_bind (true, w1) _, rfl⟩
          | false => exact ⟨.ok (.leave w1), ended_ok_bind (false, w1) _, rfl⟩
  · rw [if_neg full, if_neg full]
    exact ⟨.ok (.leave w), rfl, rfl⟩

/-- **A round of `evictHotIfNeeded` that goes on** swaps a session of the hot list out. -/
theorem evictHotRound_again (rep : Rep w) (away : Away excludeId w)
    (again : Unbounded.evictHotRound L excludeId w = ended (.ok (.again w'))) :
    (Rep w' ∧ Away excludeId w') ∧ ∃ n ∈ w.mHotLru, w'.mHotLru = w.mHotLru.erase n := by
  unfold Unbounded.evictHotRound at again
  by_cases full : w.mHotLimit ≤ w.mHotLru.length ∧ w.mHotLru ≠ []
  · rw [if_pos full] at again
    by_cases nobody : hotVictim excludeId w.mHotLru = -1
    · rw [if_pos nobody, return_eq, ended_inj] at again
      cases again
    · have ends := swapOut_ends (L := L) (hotVictim_swapping rep away full.1 nobody)
      obtain ⟨n, entry, w1, _, victim, found, failed | ⟨bytes, done⟩⟩ :=
        hotVictim_swapOut (L := L) rep away full.1 nobody
      all_goals rw [victim] at ends nobody
      · simp only [victim, if_neg nobody, found, ends, failed.result, ended_ok_bind,
          Bool.false_eq_true, if_false, return_eq, ended_inj] at again
        cases again
      · simp only [victim, if_neg nobody, found, ends, done.result, ended_ok_bind, if_true, return_eq,
          ended_inj] at again
        cases again
        obtain ⟨it, left, member⟩ := done.hot
        exact ⟨⟨Evicts.rep done.evicts rep, done.away away⟩, _, member, left⟩
  · rw [if_neg full, return_eq, ended_inj] at again
    cases again

/-- **`evictHotIfNeeded` ends.** -/
theorem evictHotIfNeeded_ends (rep : Rep w) (away : Away excludeId w) :
    Unbounded.evictHotIfNeeded L excludeId w = ended (evictHotIfNeeded L excludeId w) := by
  refine loop_eq (fun w => Rep w ∧ Away excludeId w) (fun w => w.mHotLru.length)
    (fun n w here => evictHotRound_counted here.1 here.2 n) (fun w w' here again => ?_) ⟨rep, away⟩
    (Nat.lt_succ_self _)
  obtain ⟨later, n, inside, left⟩ := evictHotRound_again here.1 here.2 again
  have shorter := List.length_erase_add_one inside
  exact ⟨later, by rw [left]; omega⟩

/-! ### Calls and runs -/

theorem activateForInfer_ends (rep : Rep w) (id : Int) :
    Unbounded.activateForInfer L id w = ended (activateForInfer L id w) := by
  unfold Unbounded.activateForInfer activateForInfer
  cases found : w.mSessions id with
  | none => rfl
  | some entry =>
    dsimp only
    cases state : entry.state with
    | HOT => exact ended_bind fun _ _ => ended_bind fun _ _ => rfl
    | COLD =>
      dsimp only
      rw [evictHotIfNeeded_ends rep (Or.inr (rep.not_mem_hot_of_cold found state))]
      refine ended_bind fun w1 _ => ?_
      split_ifs
      · rfl
      · refine ended_bind fun _ _ => ?_
        split_ifs
        · rfl
        · exact ended_bind fun _ _ => rfl

/-- **A call ends**, with what the counted functions give. -/
theorem serve_ends (rep : Rep w) (op : Op) : Unbounded.serve L op w = ended (serve L op w) := by
  cases op with
  | createSession id => rfl
  | killSession id => exact ended_bind fun _ _ => rfl
  | recordTokens id tokens => exact ended_bind fun _ _ => rfl
  | setHotLimit count =>
    have limited : Unbounded.setHotLimit L count w = ended (setHotLimit L count w) :=
      evictHotIfNeeded_ends (withLimits_rep (.setHotLimit count) rep) nobody_away
    rw [Unbounded.serve, limited]
    exact ended_bind fun _ _ => rfl
  | setColdLimit bytes =>
    have limited : Unbounded.setColdLimit L bytes w = ended (setColdLimit L bytes w) :=
      evictColdIfNeeded_ends (withLimits_rep (.setColdLimit bytes) rep) (-1)
    rw [Unbounded.serve, limited]
    exact ended_bind fun _ _ => rfl
  | activateForInfer id =>
    rw [Unbounded.serve, activateForInfer_ends rep]
    exact ended_bind fun _ _ => rfl

/-- **A run ends.** -/
theorem run_ends (rep : Rep w) (ops : List Op) :
    Unbounded.run L ops w = ended (run (serve L) ops w) := by
  induction ops generalizing w with
  | nil => rfl
  | cons op ops ih =>
    rw [Unbounded.run, serve_ends rep]
    exact ended_bind fun result served => ih (serve_rep rep served)

/-! ### The rounds of a call -/

/-- A loop of the manager, where a round of it begins. -/
inductive InLoop (σ : Type)
  | hot (excludeId : Int) (w : World σ)
  | swap (ref : Int) (path : Bytes) (w : World σ)
  | cold (excludeId : Int) (w : World σ)

/-- The round goes on: the loop comes to its next one. -/
inductive GoesOn (L : Llama σ) : InLoop σ → InLoop σ → Prop
  | hot {excludeId : Int} {w w' : World σ}
      (again : Unbounded.evictHotRound L excludeId w = ended (.ok (.again w'))) :
      GoesOn L (.hot excludeId w) (.hot excludeId w')
  | swap {ref : Int} {path : Bytes} {w w' : World σ}
      (again : Unbounded.swapOutRound L ref path w = ended (.ok (.again w'))) :
      GoesOn L (.swap ref path w) (.swap ref path w')
  | cold {excludeId : Int} {w w' : World σ}
      (again : Unbounded.evictColdRound L excludeId w = ended (.ok (.again w'))) :
      GoesOn L (.cold excludeId w) (.cold excludeId w')

/-- **The loops of a call** from `w`, where each of their rounds begins: those the call begins with,
those their rounds begin, and the next rounds. -/
inductive InCall (L : Llama σ) (w : World σ) : Op → InLoop σ → Prop
  | setHotLimit (count : Nat) :
      InCall L w (.setHotLimit count) (.hot (-1) (withLimits (.setHotLimit count) w))
  | setColdLimit (bytes : UInt64) :
      InCall L w (.setColdLimit bytes) (.cold (-1) (withLimits (.setColdLimit bytes) w))
  | activateForInfer {id : Int} {entry : SessionMeta} (found : w.mSessions id = some entry)
      (cold : entry.state = .COLD) : InCall L w (.activateForInfer id) (.hot id w)
  | swapOut {op : Op} {excludeId : Int} {w1 : World σ} {entry : SessionMeta}
      (here : InCall L w op (.hot excludeId w1))
      (full : w1.mHotLimit ≤ w1.mHotLru.length ∧ w1.mHotLru ≠ [])
      (named : hotVictim excludeId w1.mHotLru ≠ -1)
      (found : w1.mSessions (hotVictim excludeId w1.mHotLru) = some entry) :
      InCall L w op (.swap (hotVictim excludeId w1.mHotLru) (swapPathFor w1 entry.id) w1)
  | evictCold {op : Op} {ref : Int} {path : Bytes} {bytes : UInt64} {w1 w2 w3 : World σ}
      {entry : SessionMeta} (here : InCall L w op (.swap ref path w1))
      (accepted : Unbounded.swapOutRound L ref path w1 = ended (.ok (.leave (some bytes, w2))))
      (moved : moveToCold L ref path bytes w2 = .ok w3) (found : w3.mSessions ref = some entry) :
      InCall L w op (.cold entry.id w3)
  | again {op : Op} {a b : InLoop σ} (here : InCall L w op a) (goes : GoesOn L a b) : InCall L w op b

/-- **What a round that goes on takes away**: a node of the hot list, tokens above the floor, or a node
of the cold list. -/
inductive Shrinks : InLoop σ → InLoop σ → Prop
  | hot {excludeId : Int} {w w' : World σ} {n : Node Int} (inside : n ∈ w.mHotLru)
      (left : w'.mHotLru = w.mHotLru.erase n) : Shrinks (.hot excludeId w) (.hot excludeId w')
  | swap {ref : Int} {path : Bytes} {w w' : World σ} (fewer : tokenCount ref w' < tokenCount ref w)
      (floor : kMinKeepTokens ≤ tokenCount ref w') : Shrinks (.swap ref path w) (.swap ref path w')
  | cold {excludeId : Int} {w w' : World σ} {n : Node Int} (inside : n ∈ w.mColdLru)
      (left : w'.mColdLru = w.mColdLru.erase n) : Shrinks (.cold excludeId w) (.cold excludeId w')

/-- The invariant of a loop. -/
def InLoop.Kept : InLoop σ → Prop
  | .hot excludeId w => Rep w ∧ Away excludeId w
  | .swap ref path w => Swapping ref path w
  | .cold _ w => Rep w

/-- A round that goes on keeps the invariant of its loop, and takes something away. -/
theorem GoesOn.shrinks {a b : InLoop σ} (goes : GoesOn L a b) (kept : a.Kept) :
    b.Kept ∧ Shrinks a b := by
  cases goes with
  | hot again =>
    obtain ⟨later, n, inside, left⟩ := evictHotRound_again kept.1 kept.2 again
    exact ⟨later, .hot inside left⟩
  | swap again =>
    obtain ⟨later, fewer, floor⟩ := Swapping.again kept again
    exact ⟨later, .swap fewer floor⟩
  | cold again =>
    obtain ⟨later, n, inside, left⟩ := evictColdRound_again kept again
    exact ⟨later, .cold inside left⟩

/-- Every loop of a call has its invariant. -/
theorem InCall.kept (rep : Rep w) {op : Op} {a : InLoop σ} (inCall : InCall L w op a) : a.Kept := by
  induction inCall with
  | setHotLimit count => exact ⟨withLimits_rep (.setHotLimit count) rep, nobody_away⟩
  | setColdLimit bytes => exact withLimits_rep (.setColdLimit bytes) rep
  | activateForInfer found cold => exact ⟨rep, Or.inr (rep.not_mem_hot_of_cold found cold)⟩
  | swapOut _ full named found ih =>
    rw [InLoop.Kept, ih.1.keyed _ _ found]
    exact hotVictim_swapping ih.1 ih.2 full.1 named
  | evictCold _ accepted moved _ ih =>
    obtain ⟨w', moved', rep'⟩ := Swapping.accepted ih accepted
    rw [moved, Except.ok.injEq] at moved'
    exact moved' ▸ rep'
  | again _ goes ih => exact (goes.shrinks ih).1

/-- **Every call of the manager ends**, from every state that a run reaches, and every round of its
loops that goes on takes something away. -/
theorem calls_end (L : Llama σ) {nCtx : Nat} {swapDir : Bytes} {llama : σ} {ops : List Op}
    (reach : Unbounded.run L ops (World.start nCtx swapDir llama) = ended (.ok w)) (op : Op) :
    Unbounded.serve L op w = ended (serve L op w) ∧ serve L op w ≠ .error .diverged ∧
      ∀ a b, InCall L w op a → GoesOn L a b → Shrinks a b := by
  have rep : Rep w := by
    rw [run_ends (Rep.start nCtx swapDir llama), ended_inj] at reach
    exact run_invariant' (fun _ _ _ _ rep served => serve_rep rep served) (Rep.start ..) reach
  refine ⟨serve_ends rep op, fun diverges => ?_, fun a b inCall goes => ?_⟩
  · rcases serve_spec (L := L) rep op with ⟨r, w', served, _⟩ | ⟨dangling, _⟩
    · rw [diverges] at served
      cases served
    · rw [diverges] at dangling
      cases dangling
  · exact (goes.shrinks (inCall.kept rep)).2

/-- After a run with swap-outs and swap-ins, room for one session is made. -/
theorem calls_end_turnover :
    ∃ w, Unbounded.run (sim 4 10) turnover (World.start 4 (text "/s") (Sim.start [])) = ended (.ok w) ∧
      Unbounded.serve (sim 4 10) (.setHotLimit 1) w = ended (serve (sim 4 10) (.setHotLimit 1) w) ∧
      serve (sim 4 10) (.setHotLimit 1) w ≠ .error .diverged ∧
      ∀ a b, InCall (sim 4 10) w (.setHotLimit 1) a → GoesOn (sim 4 10) a b → Shrinks a b := by
  have whole : ∃ w, run (serve (sim 4 10)) turnover (World.start 4 (text "/s") (Sim.start [])) = .ok w ∧
      Sound w := run_sound (by decide +kernel)
  obtain ⟨w, result, _⟩ := whole
  have reach : Unbounded.run (sim 4 10) turnover (World.start 4 (text "/s") (Sim.start [])) =
      ended (.ok w) := by
    rw [run_ends (Rep.start ..), result]
  exact ⟨w, reach, calls_end (sim 4 10) reach (.setHotLimit 1)⟩

end MiniV
