/-
**Sessions that were swapped out can be swapped back in.**

`activateForInfer` loads a swap file into a buffer for `n_ctx` tokens. The file holds the tokens that
were recorded, and these stay within `n_ctx` as long as the context holds them too; a token that is
recorded although its decode failed is one too many when the context was full.

`swapped_session_reloads`: in a run in which no decode of a generated token fails, every swapped
session has at most `n_ctx` tokens, and its activation never fails in the load.
-/

import MiniV.Engine.Mirror

namespace MiniV

open MiniV.Library
open MiniV.Library.NodeList (values)

variable {σ : Type} {L : Llama σ} {V : View σ} {w w' : World σ} {id : Int} {entry : SessionMeta}

/-- **A session reloads**: when it is swapped out, its tokens fit the capacity its activation passes,
and the activation gives a context whenever one is created and the eviction has left the session. -/
def Reloads (L : Llama σ) (id : Int) (w : World σ) : Prop :=
  ∀ entry, w.mSessions id = some entry → entry.state = .COLD → entry.swapFilePath ≠ [] →
    entry.tokens.length ≤ w.nCtx ∧
      ∀ w1, evictHotIfNeeded L id w = .ok w1 → (w1.mSessions id).isSome = true →
        (L.initFromModel w1.created w1.llama).1 = true →
        ∃ c w', activateForInfer L id w = .ok (some c, w')

/-- **A kept session reloads.** -/
theorem Kept.reloads (doc : Documented L V) (loads : LoadsBack L V) (rep : Rep w)
    (kept : Kept V True atRest w) (id : Int) : Reloads L id w := by
  intro entry found cold path
  obtain ⟨tokens, _, fits⟩ := (kept id entry found).file ⟨cold, path⟩
  obtain ⟨same, short⟩ := fits trivial
  refine ⟨same ▸ short, fun w1 evicted alive initOk => ?_⟩
  obtain ⟨w1', sizes, evicted', eviction, _⟩ := activateForInfer_cold (L := L) rep found cold
  rw [evicted, Except.ok.injEq] at evicted'
  subst evicted'
  have rep1 := Evicts.rep eviction.evicts rep
  have kept1 := Evicts.kept doc eviction.evicts rep kept
  have found1 : w1.mSessions id = some entry := by
    rcases Evicts.cold_entry eviction.evicts rep found cold with still | dead
    · exact still
    · rw [dead] at alive
      cases alive
  have here := kept1 id entry found1
  obtain ⟨tokens1, file, fits1⟩ := here.file ⟨cold, path⟩
  rw [← here.path_eq ⟨cold, path⟩] at file
  have loaded := loadOf_loads doc loads file (fits1 trivial).2
  obtain ⟨c, w', result⟩ := (activateRest_some rep1 found1 cold).mpr ⟨initOk, Or.inr loaded⟩
  refine ⟨c, w', ?_⟩
  rw [activateForInfer_eq found cold, evicted, ok_bind, result]

/-- **Every swapped session reloads** in every state of a run in which no decode of a generated token
fails. -/
theorem swapped_session_reloads (doc : Documented L V) (loads : LoadsBack L V) (nCtx : Nat)
    (cap : Capacity L V nCtx) (swapDir : Bytes) (llama : σ) (ops : List EngineOp)
    (decodes : Throughout (serveEngine L) LoopDecoded ops (World.start nCtx swapDir llama)) :
    Throughout (serveEngine L) (fun w => ∀ id, Reloads L id w) ops
      (World.start nCtx swapDir llama) := by
  refine (throughout_of_invariant
    (I := fun w => (Rep w ∧ w.nCtx = nCtx) ∧ Kept V True atRest w) ?_
    ⟨⟨Rep.start nCtx swapDir llama, rfl⟩, kept_start V True nCtx swapDir llama⟩
    decodes.after).mono fun w inv => inv.2.reloads doc loads inv.1.1
  rintro w op r w' ⟨⟨rep, same⟩, kept⟩ after served
  have room : True → Capacity L V w.nCtx := fun _ => same ▸ cap
  rcases serveEngine_outcome doc (fun _ => loads) room served rep kept with carried | broken
  · exact ⟨⟨carried.rep, carried.place.nCtx.trans same⟩, carried.kept⟩
  · exact absurd (after r w' served) broken.1

theorem swapped_session_reloads_conversations :
    Throughout (serveEngine (sim 6 10)) (fun w => ∀ id, Reloads (sim 6 10) id w) conversations
      (World.start 6 (text "/s") (Sim.start [7, 2, 8, 9])) :=
  swapped_session_reloads (sim_documented 6 10) (sim_loadsBack 6 10) 6 (sim_capacity 6 10)
    (text "/s") (Sim.start [7, 2, 8, 9]) conversations (by decide +kernel)

/-- The overflowing conversation, swapped out. -/
def stranded : List EngineOp := overflow ++ [.setHotLimit 1]

theorem swapped_session_reloads_stranded :
    ∃ w, run (serveEngine (sim 4 10)) stranded
        (World.start 4 (text "/s") (Sim.start [5, 6, 7, 8])) = .ok w ∧
      ¬ Reloads (sim 4 10) 1 w ∧ ∃ w', activateForInfer (sim 4 10) 1 w = .ok (none, w') := by
  have tooLong : Gives (fun w : World Sim =>
      (∃ entry ∈ w.mSessions 1, entry.state = .COLD ∧ entry.swapFilePath ≠ [] ∧
        w.nCtx < entry.tokens.length) ∧
      Gives (fun reply => reply.1 = none) (activateForInfer (sim 4 10) 1 w))
      (run (serveEngine (sim 4 10)) stranded
        (World.start 4 (text "/s") (Sim.start [5, 6, 7, 8]))) := by
    decide +kernel
  obtain ⟨w, reach, ⟨entry, found, cold, path, long⟩, fails⟩ := gives_iff.mp tooLong
  obtain ⟨⟨c, w'⟩, active, none⟩ := gives_iff.mp fails
  refine ⟨w, reach, fun reloads => ?_, w', ?_⟩
  · exact absurd (reloads entry found cold path).1 (Nat.not_le.mpr long)
  · rw [active, show c = _ from none]

end MiniV
