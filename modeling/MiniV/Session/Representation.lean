/-
**The representation of the manager over whole runs.**

`Represented w` spells the invariant out for a reader: which sessions the two lists hold, who owns
which context, what `mColdUsedBytes` counts and what every erasure and subtraction did.
`manager_represented` proves it of the state every run reaches, from the empty manager, with any
ids and limits and any answers of llama.
-/

import MiniV.Llama.Sim
import MiniV.Session.Trace

namespace MiniV

open MiniV.Library
open MiniV.Library.NodeList (values)

variable {σ : Type} {L : Llama σ} {w w' : World σ}

/-- **The manager is represented well.** -/
structure Represented (w : World σ) : Prop where
  keys : ∀ id entry, w.mSessions id = some entry → entry.id = id
  hotNodup : (values w.mHotLru).Nodup
  hotLists : ∀ id, id ∈ values w.mHotLru ↔
    ∃ entry, w.mSessions id = some entry ∧ entry.state = .HOT
  coldNodup : (values w.mColdLru).Nodup
  coldLists : ∀ id, id ∈ values w.mColdLru ↔
    ∃ entry, w.mSessions id = some entry ∧ entry.state = .COLD ∧ entry.swapFilePath ≠ []
  /-- A session has a context exactly when it is HOT. -/
  ctxHot : ∀ id entry, w.mSessions id = some entry → (entry.ctx ≠ none ↔ entry.state = .HOT)
  ctxUnique : ∀ id id' entry entry' c, w.mSessions id = some entry → w.mSessions id' = some entry' →
    entry.ctx = some c → entry'.ctx = some c → id = id'
  /-- Every context created is owned by a HOT session and not freed, or owned by none and freed once. -/
  ctxOnce : ∀ c, c < w.created →
    ((∃ id entry, w.mSessions id = some entry ∧ entry.state = .HOT ∧ entry.ctx = some c) ∧
        c ∉ w.freed) ∨
      ((∀ id entry, w.mSessions id = some entry → entry.ctx ≠ some c) ∧ w.freed.count c = 1)
  total : w.mColdUsedBytes.toNat = fileTotal w.coldFiles
  subtractions : ∀ used bytes, .subtracted used bytes ∈ w.trace → bytes ≤ used
  erasures : ∀ owner node, .erased owner node ∈ w.trace → owner = node

/-- The invariant says it all, as long as the reported sizes fit. -/
theorem Sound.represented (sound : Sound w) (fit : SumsFit w.trace) : Represented w where
  keys := sound.rep.keyed
  hotNodup := sound.rep.hot.values
  hotLists := sound.rep.hot.mem_values_iff
  coldNodup := sound.rep.cold.values
  coldLists := sound.rep.cold.mem_values_iff
  ctxHot id entry found := by
    rw [Option.ne_none_iff_isSome]
    exact sound.rep.ctxHot id entry found
  ctxUnique := sound.rep.owned.unique
  ctxOnce c before := by
    refine (sound.rep.owned.once c before).imp_left fun ⟨⟨id, entry, found, holds⟩, alive⟩ => ?_
    refine ⟨⟨id, entry, found, (sound.rep.ctxHot id entry found).mp ?_, holds⟩, alive⟩
    rw [holds]
    rfl
  total := (used_of_exact sound.rep (sound.exact fit)).trans (totalBytes_eq w _)
  subtractions used bytes member := sound.events fit _ member
  erasures owner node member := sound.events fit _ member

/-- A call that does not kill its own session returns. -/
theorem serve_ok (rep : Rep w) {op : Op} (spares : killsItself L op w = false) :
    ∃ r w', serve L op w = .ok (r, w') := by
  rcases serve_spec (L := L) rep op with ⟨r, w', served, _⟩ | ⟨_, kills⟩
  · exact ⟨r, w', served⟩
  · rw [spares] at kills
    cases kills

/-- The start of every run. -/
theorem run_sound {nCtx : Nat} {swapDir : Bytes} {llama : σ} {ops : List Op}
    (spares : Along (serve L) (fun w op => killsItself L op w = false) ops
      (World.start nCtx swapDir llama)) :
    ∃ w, run (serve L) ops (World.start nCtx swapDir llama) = .ok w ∧ Sound w := by
  refine run_progress (I := Sound) (fun w op sound keeps => ?_) (Sound.start nCtx swapDir llama) spares
  obtain ⟨r, w', served⟩ := serve_ok (L := L) sound.rep keeps
  exact ⟨r, w', served, serve_sound sound served⟩

/-- **Every run is represented well.** A run in which no activation has its own session killed by the
eviction it triggers comes to its end, and, when the reported sizes fit, in a state that is
represented well. -/
theorem manager_represented (L : Llama σ) (nCtx : Nat) (swapDir : Bytes) (llama : σ) (ops : List Op)
    (spares : Along (serve L) (fun w op => killsItself L op w = false) ops
      (World.start nCtx swapDir llama))
    (fit : ∀ w, run (serve L) ops (World.start nCtx swapDir llama) = .ok w → SumsFit w.trace) :
    ∃ w, run (serve L) ops (World.start nCtx swapDir llama) = .ok w ∧ Represented w := by
  obtain ⟨w, reach, sound⟩ := run_sound spares
  exact ⟨w, reach, sound.represented (fit w reach)⟩

/-- Three sessions share two contexts, one of them -1; one is swapped out, in again, and killed. -/
def turnover : List Op :=
  [.createSession 1, .createSession (-1), .createSession 3, .activateForInfer 1, .setHotLimit 2,
    .activateForInfer (-1), .recordTokens (-1) [5, 6], .activateForInfer 3, .activateForInfer 1,
    .setColdLimit 5, .killSession 3, .activateForInfer 1]

theorem manager_represented_turnover :
    ∃ w, run (serve (sim 4 10)) turnover (World.start 4 (text "/s") (Sim.start [])) = .ok w ∧
      Represented w :=
  manager_represented (sim 4 10) 4 (text "/s") (Sim.start []) turnover (by decide +kernel)
    (ends_iff.mp (by decide +kernel))

end MiniV
