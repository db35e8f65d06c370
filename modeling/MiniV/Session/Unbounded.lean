/-
**The functions with loops, run until their loops are left.**

`Manager.lean` gives each loop of the session manager a number of rounds. Here the same functions run
their loops as the source does, with no bound: `evictColdIfNeeded`, `swapOut` and `evictHotIfNeeded`,
each with its round, the calls that use them, and a run of calls. A round of `evictHotIfNeeded` runs
the loop of `swapOut`, and `swapOut` that of `evictColdIfNeeded`; any of the three could go on for ever.

* `evictColdRound_counted`, `swapOutRound_counted`: a counted loop runs just these rounds.
-/

import MiniV.Library.Loop
import MiniV.Session.Manager

namespace MiniV

open MiniV.Library

namespace Unbounded

section Functions

variable {σ : Type} (L : Llama σ)

/-- A round of the loop of `evictColdIfNeeded`. -/
def evictColdRound (excludeId : Int) (w : World σ) : Comp Fault (Round (World σ) (World σ)) :=
  if w.mColdLimitBytes < w.mColdUsedBytes then
    match coldVictim excludeId w.mColdLru with
    | none => return .leave w
    | some victim => do
      let (_, w) ← ended (killSession L victim w)
      return .again w
  else return .leave w

/-- `evictColdIfNeeded`. -/
def evictColdIfNeeded (excludeId : Int) (w : World σ) : Comp Fault (World σ) := do
  let w' ← loop (evictColdRound L excludeId) w
  let killed := (NodeList.values w.mColdLru).filter fun id => (w'.mSessions id).isNone
  return w'.note (.coldEviction excludeId w.mColdLimitBytes w.coldFiles (NodeList.values w.mHotLru)
    killed w'.coldFiles)

/-- A round of the loop of `swapOut`: save, measure, accept or prune. -/
def swapOutRound (ref : Int) (path : Bytes) (w : World σ) :
    Comp Fault (Round (World σ) (Option UInt64 × World σ)) := do
  let entry ← ended (w.deref ref)
  match entry.ctx with
  | none => ended (.error .nullCtx)
  | some ctx =>
    let save := L.stateSeqSaveFile ctx path entry.tokens w.llama
    let w := { w with llama := save.2 }.note (.saved entry.id save.1)
    if save.1 = 0 then return .leave (none, w)
    else
      let size := L.stateSeqGetSize ctx w.llama
      let w := { w with llama := size.2 }.note (.measured size.1 w.mColdUsedBytes)
      if size.1 + w.mColdUsedBytes ≤ w.mColdLimitBytes then return .leave (some size.1, w)
      else if entry.tokens.length ≤ kMinKeepTokens then return .leave (some size.1, w)
      else do
        let w ← ended (pruneOldestTokens L ref (pruneAmount entry.tokens.length) w)
        return .again w

/-- `swapOut` on the entry of `ref`. -/
def swapOut (ref : Int) (w : World σ) : Comp Fault (Bool × World σ) := do
  let entry ← ended (w.deref ref)
  let path := swapPathFor w entry.id
  let (accepted, w) ← loop (swapOutRound L ref path) w
  match accepted with
  | none => return (false, w)
  | some bytes => do
    let w ← ended (moveToCold L ref path bytes w)
    let w ← evictColdIfNeeded L entry.id w
    return (true, w)

/-- A round of the loop of `evictHotIfNeeded`. -/
def evictHotRound (excludeId : Int) (w : World σ) : Comp Fault (Round (World σ) (World σ)) :=
  if w.mHotLimit ≤ w.mHotLru.length ∧ w.mHotLru ≠ [] then
    let victim := hotVictim excludeId w.mHotLru
    if victim = -1 then return .leave w
    else
      match w.mSessions victim with
      | none => ended (.error .outOfRange)
      | some _ => do
        let (swapped, w) ← swapOut L victim w
        if swapped then return .again w else return .leave w
  else return .leave w

/-- `evictHotIfNeeded`. -/
def evictHotIfNeeded (excludeId : Int) (w : World σ) : Comp Fault (World σ) :=
  loop (evictHotRound L excludeId) w

/-- `setHotLimit`. -/
def setHotLimit (count : Nat) (w : World σ) : Comp Fault (World σ) :=
  evictHotIfNeeded L (-1) { w with mHotLimit := max 1 count }

/-- `setColdLimit`. -/
def setColdLimit (bytes : UInt64) (w : World σ) : Comp Fault (World σ) :=
  evictColdIfNeeded L (-1) { w with mColdLimitBytes := bytes }

/-- `activateForInfer`. -/
def activateForInfer (id : Int) (w : World σ) : Comp Fault (Option Ctx × World σ) :=
  match w.mSessions id with
  | none => return (none, w)
  | some entry =>
    match entry.state with
    | .HOT => do
      let w ← ended (touchHot L id w)
      let entry ← ended (w.deref id)
      return (entry.ctx, w)
    | .COLD => do
      let w ← evictHotIfNeeded L id w
      let init := L.initFromModel w.created w.llama
      let w := { w with llama := init.2 }
      if init.1 = false then return (none, w)
      else
        let ctx := w.created
        let w := { w with created := w.created + 1 }
        let (loaded, w) ← ended (swapIn L id ctx w)
        if loaded = false then return (none, w)
        else do
          let w ← ended (makeHot L id ctx w)
          return (some ctx, w)

/-- One call. -/
def serve (op : Op) (w : World σ) : Comp Fault (Reply × World σ) :=
  match op with
  | .createSession id => return (.bool (createSession L id w).1, (createSession L id w).2)
  | .killSession id => do
    let (b, w) ← ended (killSession L id w)
    return (.bool b, w)
  | .setHotLimit count => do
    let w ← setHotLimit L count w
    return (.done, w)
  | .setColdLimit bytes => do
    let w ← setColdLimit L bytes w
    return (.done, w)
  | .activateForInfer id => do
    let (c, w) ← activateForInfer L id w
    return (.ctx c, w)
  | .recordTokens id tokens => do
    let w ← ended (recordTokens L id tokens w)
    return (.done, w)

/-- The state after a list of calls. -/
def run : List Op → World σ → Comp Fault (World σ)
  | [], w => return w
  | op :: ops, w => do
    let (_, w) ← serve L op w
    run ops w

end Functions

/-! ### Counted loops -/

variable {σ : Type} {L : Llama σ}

theorem evictColdRound_counted (excludeId : Int) (n : Nat) (w : World σ) :
    ∃ r, evictColdRound L excludeId w = ended r ∧
      evictColdLoop L excludeId (n + 1) w = (r >>= Round.next (evictColdLoop L excludeId n)) := by
  unfold evictColdRound evictColdLoop
  by_cases exceeds : w.mColdLimitBytes < w.mColdUsedBytes
  · rw [if_pos exceeds, if_pos exceeds]
    cases coldVictim excludeId w.mColdLru with
    | none => exact ⟨.ok (.leave w), rfl, rfl⟩
    | some victim =>
      dsimp only
      cases killSession L victim w with
      | error e => exact ⟨.error e, ended_error_bind e _, rfl⟩
      | ok result => exact ⟨.ok (.again result.2), ended_ok_bind result _, rfl⟩
  · rw [if_neg exceeds, if_neg exceeds]
    exact ⟨.ok (.leave w), rfl, rfl⟩

theorem swapOutRound_counted (ref : Int) (path : Bytes) (n : Nat) (w : World σ) :
    ∃ r, swapOutRound L ref path w = ended r ∧
      swapOutLoop L ref path (n + 1) w = (r >>= Round.next (swapOutLoop L ref path n)) := by
  unfold swapOutRound swapOutLoop
  cases w.deref ref with
  | error e => exact ⟨.error e, ended_error_bind e _, rfl⟩
  | ok entry =>
    rw [ended_ok_bind, ok_bind]
    cases entry.ctx with
    | none => exact ⟨.error .nullCtx, rfl, rfl⟩
    | some ctx =>
      dsimp only
      split
      · exact ⟨.ok (.leave _), rfl, rfl⟩
      split
      · exact ⟨.ok (.leave _), rfl, rfl⟩
      split
      · exact ⟨.ok (.leave _), rfl, rfl⟩
      · cases pruneOldestTokens L ref (pruneAmount entry.tokens.length) _ with
        | error e => exact ⟨.error e, ended_error_bind e _, rfl⟩
        | ok w' => exact ⟨.ok (.again w'), ended_ok_bind w' _, rfl⟩

end Unbounded

end MiniV
