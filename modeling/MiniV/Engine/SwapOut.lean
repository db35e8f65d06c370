/-
**What a swap-out leaves in its file.**

The loop of `swapOut` saves the session, measures the state and prunes its oldest tokens until the
state is accepted, so at its end the file, the tokens, the cells and the size are those of one round.
The cold eviction that follows spares the session and its file.

* `swapOutLoop_saved`: the round the loop ends with;
* `evictColdIfNeeded_spares`: the excluded session is left alone, whoever it is;
* `swapOut_leaves`: a swap-out that succeeds.
-/

import MiniV.Engine.Reached

namespace MiniV

open MiniV.Library
open MiniV.Library.NodeList (values)

variable {σ : Type} {L : Llama σ} {V : View σ} {w w' : World σ} {id : Int} {entry : SessionMeta}
  {c : Ctx}

/-- `llama_state_seq_get_size` reports a size that depends on the state alone. -/
def Sized (L : Llama σ) (V : View σ) (size : Cells → UInt64) : Prop :=
  ∀ c s, (L.stateSeqGetSize c s).1 = size (V.kv s c)

/-! ### The loop -/

/-- The round that the loop of `swapOut` ends with: the tokens it saved under a size, and the world
after it. -/
structure LoopSaved (V : View σ) (size : Cells → UInt64) (entry : SessionMeta)
    (tokens : List Token) (bytes : UInt64) (w w' : World σ) : Prop where
  retains : Retains kMinKeepTokens entry.tokens tokens
  measured : bytes = size (mirror tokens)
  world : ∃ llama trace, w' = { w with
    mSessions := Function.update w.mSessions entry.id (some { entry with tokens := tokens })
    llama := llama, trace := trace }
  file : V.file w'.llama (swapPathFor w entry.id) = some ⟨tokens, mirror tokens⟩
  accepted : bytes + w.mColdUsedBytes ≤ w.mColdLimitBytes ∨ tokens.length ≤ kMinKeepTokens
  whole : size (mirror entry.tokens) + w.mColdUsedBytes ≤ w.mColdLimitBytes → tokens = entry.tokens

section Documented

variable (doc : Documented L V) {size : Cells → UInt64} (sized : Sized L V size)

include doc

/-- The size measured is that of the tokens saved. -/
theorem measureOf_size (sized : Sized L V size) (mirrors : V.kv w.llama c = mirror entry.tokens) :
    (measureOf L c entry w).1 = size (mirror entry.tokens) := by
  rw [measureOf, sized, saveOf_kv doc, mirrors]

include sized

/-- **The loop of `swapOut`** ends with a round that saves what it leaves. -/
theorem swapOutLoop_saved {rounds : Nat} {bytes : UInt64}
    (found : w.mSessions entry.id = some entry) (holds : entry.ctx = some c)
    (mirrors : V.kv w.llama c = mirror entry.tokens)
    (result : swapOutLoop L entry.id (swapPathFor w entry.id) rounds w = .ok (some bytes, w')) :
    ∃ tokens, LoopSaved V size entry tokens bytes w w' := by
  induction rounds generalizing w entry with
  | zero => cases result
  | succ rounds ih =>
    have measured := measureOf_size doc sized mirrors
    rw [swapOutLoop_round (L := L) rounds found holds] at result
    split at result
    · cases result
    · rename_i saved
      split at result
      · rename_i accepted
        cases result
        refine ⟨entry.tokens, .refl _, measured, ⟨(measuredOf L c entry w).llama,
          (measuredOf L c entry w).trace, ?_⟩, ?_, accepted, fun _ => rfl⟩
        · rw [update_found found]
          rfl
        · rw [← mirrors]
          exact measureOf_file doc saved
      · rename_i refused
        have large := Nat.not_le.mp (not_or.mp refused).2
        have exceeds := (not_or.mp refused).1
        obtain ⟨_, few⟩ := pruneAmount_bounds large
        -- the next round starts from the tokens that are left, and from their cells
        have mirrors' : V.kv (prunedOf L c entry w).llama c = mirror (prunedEntry entry).tokens := by
          refine pruneOf_kv doc ?_ few.le
          rw [measureOf_kv doc, mirrors]
        have found' : (prunedOf L c entry w).mSessions (prunedEntry entry).id =
            some (prunedEntry entry) := Function.update_self ..
        obtain ⟨tokens, later⟩ := ih found' holds mirrors' result
        refine ⟨tokens, (retains_pruned _ large).trans later.retains, later.measured, ?_, later.file,
          later.accepted, fun fits => absurd (measured ▸ fits) exceeds⟩
        obtain ⟨llama, trace, rfl⟩ := later.world
        exact ⟨llama, trace, by simp only [prunedOf, measuredOf, prunedEntry, Function.update_idem]⟩

end Documented

/-! ### The move to the cold list -/

/-- The session of `entry` has moved to the cold list with its file. -/
structure MovedOut (L : Llama σ) (id : Int) (entry : SessionMeta) (path : Bytes) (bytes : UInt64)
    (c : Ctx) (w w' : World σ) : Prop where
  sessions : w'.mSessions = Function.update w.mSessions id
    (some { entry with
      ctx := none, state := .COLD, swapFilePath := path, swapFileBytes := bytes
      lruIt := some w.nextNode })
  used : w'.mColdUsedBytes = w.mColdUsedBytes + bytes
  cold : values w'.mColdLru = values w.mColdLru ++ [entry.id]
  dir : w'.mSwapDir = w.mSwapDir
  llama : w'.llama = L.free c w.llama

theorem moveToCold_moved {path : Bytes} {bytes : UInt64} (found : w.mSessions id = some entry)
    (holds : entry.ctx = some c) (result : moveToCold L id path bytes w = .ok w') :
    MovedOut L id entry path bytes c w w' := by
  simp only [moveToCold, World.deref, found, ok_bind, holds] at result
  obtain ⟨w1, erased, result⟩ := bind_eq_ok.mp result
  unfold World.hotErase at erased
  split at erased
  · cases erased
  · cases erased
    cases result
    refine ⟨?_, rfl, NodeList.values_append _ _, rfl, rfl⟩
    simp only [World.note, World.assign, World.coldPush, World.freeCtx, prevEnd_append]

/-! ### The cold eviction -/

/-- A kill takes its session out, and removes its file alone. -/
structure KillsOnly (V : View σ) (victim : Int) (path : Bytes) (w w' : World σ) : Prop where
  sessions : w'.mSessions = Function.update w.mSessions victim none
  file : V.file w'.llama path = V.file w.llama path
  cold : (values w'.mColdLru).Sublist (values w.mColdLru)

theorem killSession_spares (doc : Documented L V) {victim : Int} {path : Bytes} {b : Bool}
    (other : ∀ entry, w.mSessions victim = some entry → entry.swapFilePath ≠ path)
    (killed : killSession L victim w = .ok (b, w')) : KillsOnly V victim path w w' := by
  unfold killSession at killed
  split at killed
  · rename_i absent
    cases killed
    exact ⟨by rw [← absent, Function.update_eq_self], rfl, .refl _⟩
  · rename_i entry found
    have erasing : ∀ {it : Option Nat} {node : Node Int} {rest : List (Node Int)},
        NodeList.eraseAt w.mColdLru it = some (node, rest) →
          (values rest).Sublist (values w.mColdLru) := by
      intro it node rest erased
      rw [NodeList.eraseAt_rest erased]
      exact List.erase_sublist.map _
    split at killed
    · obtain ⟨w1, erased, killed⟩ := bind_eq_ok.mp killed
      unfold World.hotErase at erased
      split at erased
      · cases erased
      · cases erased
        cases killed
        cases holds : entry.ctx with
        | none => exact ⟨rfl, rfl, .refl _⟩
        | some c => exact ⟨rfl, congrFun (doc.free c w.llama).2 path, .refl _⟩
    · split at killed
      · cases killed
        exact ⟨rfl, rfl, .refl _⟩
      · obtain ⟨w1, erased, killed⟩ := bind_eq_ok.mp killed
        unfold World.coldErase at erased
        split at erased
        · cases erased
        · rename_i node rest gone
          cases erased
          cases killed
          exact ⟨rfl, (doc.unlink entry.swapFilePath w.llama).2 path (other entry found).symm,
            erasing gone⟩

theorem coldVictim_ne {excludeId victim : Int} {l : List (Node Int)} (distinct : (values l).Nodup)
    (picked : coldVictim excludeId l = some victim) : victim ≠ excludeId := by
  cases l with
  | nil => cases picked
  | cons front rest =>
    by_cases own : front.val = excludeId
    · cases rest with
      | nil =>
        rw [coldVictim, if_pos own] at picked
        cases picked
      | cons next rest =>
        rw [coldVictim, if_pos own, Option.some.injEq] at picked
        rw [NodeList.values_cons, NodeList.values_cons, own, List.nodup_cons] at distinct
        exact fun same => distinct.1 (List.mem_cons.mpr (Or.inl (same.symm.trans picked.symm)))
    · rw [coldVictim_of_ne own, Option.some.injEq] at picked
      exact picked ▸ own

/-- **A cold eviction spares the session it excludes**, and the file at its path. -/
theorem evictColdLoop_spares (doc : Documented L V) {rounds : Nat} {path : Bytes}
    (distinct : (values w.mColdLru).Nodup)
    (others : ∀ id' entry, id' ≠ id → w.mSessions id' = some entry → entry.swapFilePath ≠ path)
    (result : evictColdLoop L id rounds w = .ok w') :
    w'.mSessions id = w.mSessions id ∧ V.file w'.llama path = V.file w.llama path := by
  induction rounds generalizing w with
  | zero => cases result
  | succ rounds ih =>
    rw [evictColdLoop] at result
    split at result
    · split at result
      · cases result
        exact ⟨rfl, rfl⟩
      · rename_i victim picked
        obtain ⟨⟨b, w1⟩, killed, result⟩ := bind_eq_ok.mp result
        have apart := coldVictim_ne distinct picked
        have spares : KillsOnly V victim path w w1 :=
          killSession_spares doc (fun entry => others victim entry apart) killed
        obtain ⟨same, file⟩ := ih (distinct.sublist spares.cold) (fun id' entry other found => by
          rw [spares.sessions, Function.update_apply] at found
          split at found
          · cases found
          · exact others id' entry other found) result
        rw [spares.sessions, Function.update_of_ne apart.symm] at same
        exact ⟨same, file.trans spares.file⟩
    · cases result
      exact ⟨rfl, rfl⟩

theorem evictColdIfNeeded_spares (doc : Documented L V) {path : Bytes}
    (distinct : (values w.mColdLru).Nodup)
    (others : ∀ id' entry, id' ≠ id → w.mSessions id' = some entry → entry.swapFilePath ≠ path)
    (result : evictColdIfNeeded L id w = .ok w') :
    w'.mSessions id = w.mSessions id ∧ V.file w'.llama path = V.file w.llama path := by
  obtain ⟨w1, looped, result⟩ := bind_eq_ok.mp result
  have spared := evictColdLoop_spares doc distinct others looped
  cases result
  exact spared

/-! ### A swap-out that succeeds -/

/-- **What a swap-out leaves** of a session: its last tokens, in its file with the cells of just these,
under the size of that state; `w1` is the world before the cold eviction at its end. -/
structure SwappedUnder (L : Llama σ) (V : View σ) (size : Cells → UInt64) (id : Int)
    (entry : SessionMeta) (tokens : List Token) (w w1 w' : World σ) : Prop where
  retains : Retains kMinKeepTokens entry.tokens tokens
  session : w'.mSessions id = some { entry with
    ctx := none, state := .COLD, tokens := tokens, swapFilePath := swapPathFor w id
    swapFileBytes := size (mirror tokens), lruIt := some w.nextNode }
  file : V.file w'.llama (swapPathFor w id) = some ⟨tokens, mirror tokens⟩
  added : w1.mColdUsedBytes = w.mColdUsedBytes + size (mirror tokens)
  evicts : evictColdIfNeeded L id w1 = .ok w'
  within : (size (mirror tokens)).toNat + w.mColdUsedBytes.toNat ≤ w.mColdLimitBytes.toNat ∨
    tokens.length ≤ kMinKeepTokens
  whole : (size (mirror entry.tokens)).toNat + w.mColdUsedBytes.toNat ≤ w.mColdLimitBytes.toNat →
    tokens = entry.tokens

/-- A sum that does not wrap around. -/
theorem add_le_iff {a b limit : UInt64} (fit : a.toNat + b.toNat < 2 ^ 64) :
    a + b ≤ limit ↔ a.toNat + b.toNat ≤ limit.toNat := by
  rw [UInt64.le_iff_toNat_le, UInt64.toNat_add, Nat.mod_eq_of_lt fit]

/-- **A swap-out that succeeds** leaves the last tokens of its session, not below the floor, in a file
that fits, and prunes only a state that does not. -/
theorem swapOut_leaves (doc : Documented L V) {size : Cells → UInt64} (sized : Sized L V size)
    {nCtx : Nat} {swapDir : Bytes} (reached : Reached L nCtx swapDir w)
    (found : w.mSessions id = some entry) (hot : entry.state = .HOT) (holds : entry.ctx = some c)
    (mirrors : V.kv w.llama c = mirror entry.tokens)
    (fit : ∀ tokens, tokens <:+ entry.tokens →
      (size (mirror tokens)).toNat + w.mColdUsedBytes.toNat < 2 ^ 64)
    (result : swapOut L id w = .ok (true, w')) :
    ∃ tokens w1, SwappedUnder L V size id entry tokens w w1 w' := by
  have rep := reached.rep
  have own := rep.keyed id entry found
  subst own
  simp only [swapOut, World.deref, found, ok_bind] at result
  obtain ⟨⟨accepted, w0⟩, looped, result⟩ := bind_eq_ok.mp result
  cases accepted with
  | none => cases result
  | some bytes =>
    obtain ⟨w1, moved, result⟩ := bind_eq_ok.mp result
    obtain ⟨w2, evicted, result⟩ := bind_eq_ok.mp result
    cases result
    obtain ⟨tokens, loop⟩ := swapOutLoop_saved doc sized found holds mirrors looped
    obtain ⟨llama, trace, rfl⟩ := loop.world
    have moved : MovedOut L entry.id { entry with tokens := tokens } _ bytes c _ w1 :=
      moveToCold_moved (Function.update_self ..) holds moved
    have sessions : w1.mSessions = Function.update w.mSessions entry.id (some { entry with
        ctx := none, state := .COLD, tokens := tokens, swapFilePath := swapPathFor w entry.id
        swapFileBytes := bytes, lruIt := some w.nextNode }) := by
      rw [moved.sessions, Function.update_idem]
    -- the cold list holds nobody twice, and no other file is at this path
    have distinct : (values w1.mColdLru).Nodup := by
      rw [moved.cold]
      refine List.Nodup.append rep.cold.values (List.nodup_singleton _) fun a member last => ?_
      rw [List.mem_singleton.mp last] at member
      exact rep.not_mem_cold_of_hot found hot member
    have others : ∀ id' other, id' ≠ entry.id → w1.mSessions id' = some other →
        other.swapFilePath ≠ swapPathFor w entry.id := by
      intro id' other apart found'
      rw [sessions, Function.update_of_ne apart] at found'
      exact reached.other_path apart found'
    obtain ⟨session, file⟩ := evictColdIfNeeded_spares doc distinct others evicted
    have saved : V.file w1.llama (swapPathFor w entry.id) = some ⟨tokens, mirror tokens⟩ := by
      rw [moved.llama, (doc.free c _).2]
      exact loop.file
    refine ⟨tokens, w1, loop.retains, ?_, file.trans saved, ?_, evicted, ?_, fun fits => ?_⟩
    · rw [session, sessions, Function.update_self, loop.measured]
    · rw [moved.used, loop.measured]
    · refine loop.accepted.imp_left fun fits => ?_
      rw [loop.measured] at fits
      exact (add_le_iff (fit tokens loop.retains.suffix)).mp fits
    · exact loop.whole ((add_le_iff (fit entry.tokens List.suffix_rfl)).mpr fits)

/-- A session of a hundred tokens, and a budget for eighty-five. -/
def lengthy : List EngineOp :=
  [.setColdLimit 95, .createSession 1, .infer 1 (List.replicate 100 97) 0 none]

/-- The state the session is in, and what a swap-out leaves of it. -/
theorem swapOut_leaves_lengthy : ∃ w entry w' tokens w1,
    run (serveEngine (sim 200 10)) lengthy (World.start 200 (text "/s") (Sim.start [])) = .ok w ∧
      w.mSessions 1 = some entry ∧ entry.tokens.length = 100 ∧
      swapOut (sim 200 10) 1 w = .ok (true, w') ∧
      SwappedUnder (sim 200 10) simView (fun cells => 10 + UInt64.ofNat cells.length) 1 entry tokens
        w w1 w' := by
  have state : ∃ w : World Sim,
      run (serveEngine (sim 200 10)) lengthy (World.start 200 (text "/s") (Sim.start [])) = .ok w ∧
        (∃ entry ∈ w.mSessions 1, entry.state = .HOT ∧ entry.ctx = some 0 ∧
          simView.kv w.llama 0 = mirror entry.tokens ∧ entry.tokens.length = 100) ∧
        w.mColdUsedBytes = 0 ∧ Gives (fun r => r.1 = true) (swapOut (sim 200 10) 1 w) := by
    refine gives_iff.mp ?_
    decide +kernel
  obtain ⟨w, reach, ⟨entry, found, hot, holds, mirrors, length⟩, unused, swaps⟩ := state
  obtain ⟨⟨swapped, w'⟩, result, rfl⟩ := gives_iff.mp swaps
  obtain ⟨tokens, w1, shape⟩ := swapOut_leaves (sim_documented 200 10)
    (show Sized _ _ fun cells => 10 + UInt64.ofNat cells.length from fun _ _ => rfl)
    (reached_of_run reach)
    found hot holds mirrors (fun tokens part => by
      have short := part.length_le
      rw [unused, length_mirror, UInt64.toNat_add, UInt64.toNat_ofNat']
      have ten : (10 : UInt64).toNat = 10 := rfl
      have zero : (0 : UInt64).toNat = 0 := rfl
      omega) result
  exact ⟨w, entry, w', tokens, w1, reach, found, length, result, shape⟩

end MiniV
