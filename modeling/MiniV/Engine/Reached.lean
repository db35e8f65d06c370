/-
**The states a session manager can be in.**

`Reached` is every state that calls of the manager lead to, with anything done to the outside between
them: a decode, a sample, another process. Runs of the engine stay inside it (`reached_of_run`).

A session's swap file is always at the session's own path (`Reached.paths`), and no two sessions share
one (`swapPathFor_injective`).
-/

import MiniV.Engine.Mirror

namespace MiniV

open MiniV.Library
open MiniV.Library.NodeList (values)

variable {σ : Type} {L : Llama σ} {w w' : World σ} {id : Int} {entry : SessionMeta} {c : Ctx}

/-- Anything is done to the outside, and anything is noted. -/
def World.elsewhere (llama : σ) (trace : List Event) (w : World σ) : World σ :=
  { w with llama := llama, trace := trace }

/-- The states of a manager. -/
inductive Reached (L : Llama σ) (nCtx : Nat) (swapDir : Bytes) : World σ → Prop
  | start (llama : σ) : Reached L nCtx swapDir (World.start nCtx swapDir llama)
  | call {w w' : World σ} {op : Op} {r : Reply} (before : Reached L nCtx swapDir w)
      (served : serve L op w = .ok (r, w')) : Reached L nCtx swapDir w'
  | elsewhere {w : World σ} (llama : σ) (trace : List Event) (before : Reached L nCtx swapDir w) :
      Reached L nCtx swapDir (w.elsewhere llama trace)

/-! ### Paths -/

/-- A session has no swap file yet, or one at its own path. -/
def OwnPaths (w : World σ) : Prop :=
  ∀ id entry, w.mSessions id = some entry →
    entry.swapFilePath = [] ∨ entry.swapFilePath = swapPathFor w id

theorem OwnPaths.update {after : Option SessionMeta} (own : OwnPaths w)
    (sessions : w'.mSessions = Function.update w.mSessions id after) (place : SamePlace w w')
    (fits : ∀ entry, after = some entry →
      entry.swapFilePath = [] ∨ entry.swapFilePath = swapPathFor w id) : OwnPaths w' := by
  intro id' entry found
  rw [place.path]
  rw [sessions] at found
  by_cases same : id' = id
  · subst same
    rw [Function.update_self] at found
    exact fits entry found
  · rw [Function.update_of_ne same] at found
    exact own id' entry found

/-- The swap file of another session is at another path. -/
theorem OwnPaths.other (own : OwnPaths w) {id' : Int} (other : id' ≠ id)
    (found : w.mSessions id' = some entry) : entry.swapFilePath ≠ swapPathFor w id := by
  rcases own id' entry found with none | path
  · rw [none]
    exact (swapPathFor_ne_nil w id).symm
  · rw [path]
    exact fun same => other (swapPathFor_injective same)

/-- Where nothing is new, the paths stay. -/
theorem OwnPaths.fewer (own : OwnPaths w) (place : SamePlace w w')
    (fewer : ∀ id entry, w'.mSessions id = some entry → w.mSessions id = some entry) :
    OwnPaths w' := by
  intro id entry found
  rw [place.path]
  exact own id entry (fewer id entry found)

theorem Evict.ownPaths (move : Evict L w w') (rep : Rep w) (own : OwnPaths w) : OwnPaths w' := by
  have place := (Move.evict move).samePlace
  cases move with
  | saveFailed found hot holds failed => exact own.fewer place fun _ _ same => same
  | @prune id entry c found hot holds saved large exceeds =>
    exact own.update rfl place (of_some (own id entry found))
  | swapOut found hot holds full first saved accepted =>
    exact own.update rfl place (of_some (Or.inr rfl))
  | @coldEvict excludeId dropped kept split stopped =>
    refine own.fewer place fun id entry found => ?_
    have sessions := (dropCold_sessions (L := L) rep split).2 id
    have found' : (dropCold L dropped w).mSessions id = some entry := found
    rw [sessions] at found'
    split at found'
    · cases found'
    · exact found'

theorem Move.ownPaths (move : Move L w w') (rep : Rep w) (own : OwnPaths w) : OwnPaths w' := by
  have place := move.samePlace
  cases move with
  | evict move => exact Evict.ownPaths move rep own
  | create id absent =>
    have sessions : (createSession L id w).2.mSessions = Function.update w.mSessions id
        (some { id := id, state := .COLD, lastUsedMs := (L.nowMs w.llama).1 }) := by
      rw [createSession_new absent]
      rfl
    exact own.update sessions place (of_some (Or.inl rfl))
  | killHot found hot holds inside => exact own.update rfl place of_none
  | killCold found inside => exact own.update rfl place of_none
  | killNew found cold noFile => exact own.update rfl place of_none
  | @record id entry tokens found => exact own.update rfl place (of_some (own id entry found))
  | @touch id entry it found hot inside => exact own.update rfl place (of_some (own id entry found))
  | initFailed failed => exact own.fewer place fun _ _ same => same
  | @loadFailed id entry found swapped initOk failed =>
    exact own.update rfl place (of_some (own id entry found))
  | @swapIn id entry it found swapped inside initOk loaded clock reads =>
    exact own.update rfl place (of_some (own id entry found))
  | @firstIn id entry found cold noFile initOk clock reads =>
    exact own.update rfl place (of_some (own id entry found))

theorem Moves.ownPaths (moves : Moves L w w') (rep : Rep w) (own : OwnPaths w) : OwnPaths w' := by
  induction moves with
  | refl => exact own
  | tail before move ih => exact move.ownPaths (Moves.rep before rep) ih

theorem withLimits_ownPaths (op : Op) (own : OwnPaths w) : OwnPaths (withLimits op w) := by
  cases op with
  | _ => exact own

theorem serve_ownPaths {op : Op} {r : Reply} (rep : Rep w) (own : OwnPaths w)
    (served : serve L op w = .ok (r, w')) : OwnPaths w' :=
  Moves.ownPaths (serve_served rep served).moves (withLimits_rep op rep) (withLimits_ownPaths op own)

/-! ### Files -/

section Files

variable {α : Type} {file : σ → Bytes → α} (own : OwnFiles L file)

include own

theorem saveOf_files (c : Ctx) (entry : SessionMeta) (w : World σ) {path : Bytes}
    (other : path ≠ swapPathFor w entry.id) :
    file (saveOf L c entry w).2 path = file w.llama path := own.save c _ _ _ path other

theorem measureOf_files (c : Ctx) (entry : SessionMeta) (w : World σ) {path : Bytes}
    (other : path ≠ swapPathFor w entry.id) :
    file (measureOf L c entry w).2 path = file w.llama path := by
  rw [measureOf, own.size]
  exact saveOf_files own c entry w other

theorem pruneOf_files (c : Ctx) (count : Nat) (llama : σ) :
    file (pruneOf L c count llama) = file llama := by
  rw [pruneOf, own.add, own.remove]

theorem loadOf_files (entry : SessionMeta) (w : World σ) :
    file (loadOf L entry w).2 = file w.llama := by
  rw [loadOf, own.load, own.init]

/-- Killing a swapped session removes its own file only. -/
theorem coldKilled_files (paths : OwnPaths w) {n : Node Int} (found : w.mSessions n.val = some entry)
    (swapped : IsSwapped entry) {path : Bytes} (other : path ≠ swapPathFor w n.val) :
    file (coldKilled L n entry w).llama path = file w.llama path := by
  refine own.unlink _ _ path fun same => other ?_
  rw [same]
  exact (paths n.val entry found).resolve_left swapped.2

end Files

/-! ### The invariants of a reached state -/

section Reached

variable {nCtx : Nat} {swapDir : Bytes}

theorem Reached.rep (reached : Reached L nCtx swapDir w) : Rep w := by
  induction reached with
  | start llama => exact .start nCtx swapDir llama
  | call before served ih => exact serve_rep ih served
  | elsewhere llama trace before ih => exact ih.of_same rfl rfl rfl rfl rfl rfl rfl

/-- **Every session has its own path**, in every state. -/
theorem Reached.paths (reached : Reached L nCtx swapDir w) : OwnPaths w := by
  induction reached with
  | start llama => exact fun id entry found => by cases found
  | @call w w' op r before served ih =>
    exact serve_ownPaths before.rep ih served
  | elsewhere llama trace before ih => exact ih

/-- The swap file of another session is at another path. -/
theorem Reached.other_path (reached : Reached L nCtx swapDir w) {id' : Int} (other : id' ≠ id)
    (found : w.mSessions id' = some entry) : entry.swapFilePath ≠ swapPathFor w id :=
  reached.paths.other other found

/-! ### Runs of the engine -/

theorem Generation.elsewhere {tokens : List Token} {failed : Option Token}
    (loop : Generation L c w tokens failed w') : ∃ llama trace, w' = w.elsewhere llama trace :=
  loop.frame

theorem Reached.infer (reached : Reached L nCtx swapDir w) {prompt : Bytes}
    (inferred : Inferred L id prompt w w') : Reached L nCtx swapDir w' := by
  cases inferred with
  | noContext active => exact reached.call (serve_activate active)
  | @prefillFails c w1 active failed =>
    exact (reached.call (serve_activate active)).elsewhere _ w1.trace
  | @generates c w1 w2 w3 w' tokens failed active decoded prefill loop records =>
    have decodes := (reached.call (serve_activate active)).elsewhere
      (decodeBatch L c (L.tokenize prompt) w1).2.llama w1.trace
    have prompted := decodes.call (serve_record prefill)
    obtain ⟨llama, trace, rfl⟩ := loop.elsewhere
    exact (prompted.elsewhere llama trace).call (serve_record records)

/-- A request to the engine. -/
theorem Reached.serveEngine (reached : Reached L nCtx swapDir w) {op : EngineOp} {r : EngineReply}
    (served : MiniV.serveEngine L op w = .ok (r, w')) : Reached L nCtx swapDir w' := by
  have manager : ∀ {op : Op}, serveManager L op w = .ok (r, w') → Reached L nCtx swapDir w' := by
    intro op served
    obtain ⟨⟨r', w1⟩, called, served⟩ := bind_eq_ok.mp served
    cases served
    exact reached.call called
  cases op with
  | createSession | killSession | setHotLimit | setColdLimit => exact manager served
  | infer sessionId prompt maxTokens cancelFlag =>
    obtain ⟨⟨a, w1⟩, inferred, served⟩ := bind_eq_ok.mp served
    cases served
    exact reached.infer (infer_spec inferred)

/-- **Runs of the engine** stay inside the states of a manager. -/
theorem reached_of_run {llama : σ} {ops : List EngineOp}
    (reach : run (serveEngine L) ops (World.start nCtx swapDir llama) = .ok w) :
    Reached L nCtx swapDir w :=
  run_invariant' (fun _ _ _ _ reached served => reached.serveEngine served) (.start llama) reach

end Reached

end MiniV
