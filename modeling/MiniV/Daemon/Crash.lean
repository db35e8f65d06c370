/-
**What can bring the daemon down.**

Binder calls, commands and the steps of any number of inferences come in any order. The structures of
the session manager hold whatever the order is, and no call of it goes on for ever; what is left are
five ways to end the process with the session engine, each of them with its cause in the state before
the action.

* `serve_error_iff`: a call of the manager faults just when it activates a session that its own
  eviction kills, and a context is created for it;
* `Crash`, `step_error_iff`: the causes;
* `world_keeps`: what every action keeps of the manager's world holds in every state of the daemon.
-/

import MiniV.Daemon.Machine
import MiniV.Engine.Reached
import MiniV.Library.History
import MiniV.Llama.Sim

namespace MiniV

open MiniV.Library

variable {σ : Type} {L : Llama σ} {d d' : Daemon σ} {w : World σ} {action : Action} {e : Fault}
  {nCtx : Nat} {swapDir : Bytes}

/-! ### The causes -/

/-- The session is activated, the eviction that makes room for it kills it, and the context that it is
to have is created. -/
structure DiesActivating (L : Llama σ) (id : Int) (w : World σ) : Prop where
  cold : ∃ entry, w.mSessions id = some entry ∧ entry.state = .COLD
  dies : ∃ w1, evictHotIfNeeded L id w = .ok w1 ∧ w1.mSessions id = none ∧
    (L.initFromModel w1.created w1.llama).1 = true

/-- **Why the next step of an inference brings the daemon down.** -/
inductive Stuck (L : Llama σ) (inference : Inference) (w : World σ) : Fault → Prop
  /-- It activates a session and uses its entry after the eviction has killed it. -/
  | danglingMeta (here : inference.pc = .activate) (dies : DiesActivating L inference.sessionId w) :
      Stuck L inference w .danglingMeta
  /-- It samples or decodes with a context that was freed under it. -/
  | freedContext {ctx : Ctx} (uses : inference.pc.uses = some ctx) (freed : ctx ∈ w.freed) :
      Stuck L inference w .freedContext
  /-- It reserves room for a negative number of tokens. -/
  | negativeMaxTokens {ctx : Ctx} (here : inference.pc = .recordPrompt ctx)
      (negative : inference.maxTokens < 0) : Stuck L inference w .lengthError
  /-- It samples a token whose piece does not fit the buffer. -/
  | longPiece {ctx : Ctx} {i : Nat} {generated : List Token}
      (here : inference.pc = .sample ctx i generated) (alive : ctx ∉ w.freed)
      (goes : L.vocabIsEog (L.samplerSample ctx w.llama).1 = false)
      (long : (L.tokenToPiece (L.samplerSample ctx w.llama).1).1 < 0) :
      Stuck L inference w .lengthError

/-- **Why an action brings the daemon down**: a command that does not ask whether the engine is loaded,
which it is not, or a step of an inference. -/
inductive Crash (L : Llama σ) (d : Daemon σ) : Action → Fault → Prop
  | nullManager {command : Command} {op : Op} (free : d.threads .socket = none)
      (unloaded : d.ready = false) (call : commandCall d command = some op) :
      Crash L d (.command command) .nullManager
  | stuck {thread : Thread} {inference : Inference} {e : Fault}
      (running : d.threads thread = some inference) (stuck : Stuck L inference d.world e) :
      Crash L d (.advance thread) e

/-! ### Calls of the manager -/

/-- **A call of the manager faults** just when it activates a session that dies of it. -/
theorem serve_error_iff (rep : Rep w) {op : Op} : serve L op w = .error e ↔
    e = .danglingMeta ∧ ∃ id, op = .activateForInfer id ∧ DiesActivating L id w := by
  constructor
  · intro fault
    rcases serve_spec (L := L) rep op with ⟨r, w', served, _⟩ | ⟨dangling, kills⟩
    · rw [fault] at served
      cases served
    · rw [fault, Except.error.injEq] at dangling
      subst dangling
      cases op with
      | activateForInfer id =>
        refine ⟨rfl, id, rfl, ?_⟩
        cases found : w.mSessions id with
        | none => simp [killsItself, found] at kills
        | some entry =>
          rcases hot_or_cold entry with hot | cold
          · simp [killsItself, found, hot] at kills
          · obtain ⟨w1, sizes, evicted, _, rest⟩ := activateForInfer_cold (L := L) rep found cold
            have inactive : activateForInfer L id w = .error .danglingMeta := by
              rcases bind_eq_error.mp fault with inactive | ⟨_, _, done⟩
              · exact inactive
              · cases done
            rw [inactive] at rest
            cases rest with
            | gone initOk dead => exact ⟨⟨entry, found, cold⟩, w1, evicted, dead, initOk⟩
      | _ => cases kills
  · rintro ⟨rfl, id, rfl, ⟨entry, found, cold⟩, w1, evicted, dead, initOk⟩
    have inactive : activateForInfer L id w = .error .danglingMeta := by
      have noEntry : (initOf L w1).mSessions id = none := dead
      rw [activateForInfer_eq found cold, evicted, ok_bind, activateRest, initOk,
        if_neg (show ¬ (true = false) from Bool.noConfusion)]
      show (swapIn L id w1.created (initOf L w1) >>= _) = _
      rw [swapIn, World.deref, noEntry, error_bind, error_bind]
    show (activateForInfer L id w >>= _) = _
    rw [inactive, error_bind]

/-- Recording never faults. -/
theorem recordTokens_ne_error (rep : Rep w) {id : Int} {tokens : List Token} :
    recordTokens L id tokens w ≠ .error e := by
  obtain ⟨w', records⟩ := recordTokens_ok (L := L) rep id tokens
  rw [records]
  simp

theorem activateForInfer_error_iff (rep : Rep w) {id : Int} :
    activateForInfer L id w = .error e ↔ e = .danglingMeta ∧ DiesActivating L id w := by
  have served : serve L (.activateForInfer id) w = .error e ↔ activateForInfer L id w = .error e := by
    show (activateForInfer L id w >>= _) = _ ↔ _
    rw [bind_eq_error]
    simp
  rw [← served, serve_error_iff rep]
  simp

/-- An answer to a call faults without a manager, or with its call. -/
theorem answerCall_error_iff {op : Op} {answer : Reply → Notice} :
    answerCall L op answer d = .error e ↔
      (d.ready = false ∧ e = .nullManager) ∨ (d.ready = true ∧ serve L op d.world = .error e) := by
  unfold answerCall callManager
  cases d.ready with
  | false => simp [error_bind, eq_comm]
  | true =>
    rw [if_pos rfl]
    cases serve L op d.world with
    | error e' => simp [error_bind]
    | ok a => simp [ok_bind]

/-! ### Steps of an inference -/

/-- **A step of an inference faults** just when it is stuck. -/
theorem inferStep_error_iff (rep : Rep w) {cancelled : Bool} {inference : Inference} :
    inferStep L cancelled inference w = .error e ↔ Stuck L inference w e := by
  unfold inferStep
  constructor
  · intro fault
    cases here : inference.pc with
    | activate =>
      simp only [here] at fault
      rcases bind_eq_error.mp fault with inactive | ⟨⟨ctx, w1⟩, _, done⟩
      · obtain ⟨rfl, dies⟩ := (activateForInfer_error_iff rep).mp inactive
        exact .danglingMeta here dies
      · cases ctx <;> cases done
    | prefill ctx =>
      simp only [here] at fault
      split at fault
      · rename_i freed
        cases fault
        exact .freedContext (by rw [here]; rfl) freed
      · cases fault
    | recordPrompt ctx =>
      simp only [here] at fault
      rcases bind_eq_error.mp fault with broken | ⟨w1, _, done⟩
      · exact absurd broken (recordTokens_ne_error rep)
      · split at done
        · rename_i negative
          cases done
          exact .negativeMaxTokens here negative
        · cases done
    | head ctx i generated =>
      simp only [here] at fault
      cases fault
    | sample ctx i generated =>
      simp only [here] at fault
      split at fault
      · rename_i freed
        cases fault
        exact .freedContext (by rw [here]; rfl) freed
      · rename_i alive
        split at fault
        · cases fault
        · rename_i goes
          rcases bind_eq_error.mp fault with long | ⟨_, _, done⟩
          · unfold pieceText at long
            split at long
            · rename_i negative
              cases long
              exact .longPiece here alive (Bool.eq_false_iff.mpr goes) negative
            · cases long
          · cases done
    | decode ctx i generated tok =>
      simp only [here] at fault
      split at fault
      · rename_i freed
        cases fault
        exact .freedContext (by rw [here]; rfl) freed
      · cases fault
    | recordGenerated generated =>
      simp only [here] at fault
      rcases bind_eq_error.mp fault with broken | ⟨_, _, done⟩
      · exact absurd broken (recordTokens_ne_error rep)
      · cases done
    | returned ok =>
      simp only [here] at fault
      cases fault
  · intro stuck
    cases stuck with
    | danglingMeta here dies =>
      have inactive := (activateForInfer_error_iff (e := .danglingMeta) rep).mpr ⟨rfl, dies⟩
      simp only [here, inactive, error_bind]
    | @freedContext ctx uses freed =>
      cases here : inference.pc with
      | prefill | sample | decode =>
        rw [here] at uses
        cases uses
        simp only [if_pos freed]
      | _ =>
        rw [here] at uses
        cases uses
    | negativeMaxTokens here negative =>
      obtain ⟨w1, records⟩ :=
        recordTokens_ok (L := L) rep inference.sessionId (L.tokenize inference.prompt)
      simp only [here, records, ok_bind, if_pos negative]
    | longPiece here alive goes long =>
      simp only [here, if_neg alive, goes, Bool.false_eq_true, if_false, pieceText, if_pos long,
        error_bind]

/-! ### Actions -/

/-- **An action faults** just when it has a cause to. -/
theorem step_error_iff (rep : Rep d.world) : step L action d = .error e ↔ Crash L d action e := by
  have loaded : ∀ {op : Op}, (∀ id, op ≠ .activateForInfer id) → serve L op d.world ≠ .error e := by
    intro op other fault
    obtain ⟨_, id, same, _⟩ := (serve_error_iff rep).mp fault
    exact other id same
  constructor
  · intro fault
    cases action with
    | createSession sessionId | destroySession sessionId =>
      simp only [step, halCreateSession, halDestroySession] at fault
      split at fault
      · cases fault
      · rename_i ready
        rcases answerCall_error_iff.mp fault with ⟨unready, _⟩ | ⟨_, fault⟩
        · exact absurd unready (by simpa using ready)
        · exact absurd fault (loaded (by simp))
    | inferStream => cases fault
    | cancel => cases fault
    | command command =>
      rw [step] at fault
      split at fault
      · cases fault
      · rename_i free
        have free' : d.threads .socket = none := Option.not_isSome_iff_eq_none.mp free
        cases command with
        | createSession id =>
          rw [serveCommand] at fault
          split at fault
          · cases fault
          · rename_i ready
            rcases answerCall_error_iff.mp fault with ⟨unready, _⟩ | ⟨_, fault⟩
            · exact absurd unready (by simpa using ready)
            · exact absurd fault (loaded (by simp))
        | killSession | setHotLimit | setColdLimit =>
          rw [serveCommand] at fault
          rcases answerCall_error_iff.mp fault with ⟨unready, rfl⟩ | ⟨_, fault⟩
          · exact .nullManager free' unready rfl
          · exact absurd fault (loaded (by simp))
        | infer =>
          rw [serveCommand] at fault
          split at fault <;> cases fault
        | npuLoad | npuInfer | hello | ignored => cases fault
    | advance thread =>
      rw [step, advance] at fault
      split at fault
      · cases fault
      · rename_i inference running
        split at fault
        · cases fault
        · rcases bind_eq_error.mp fault with stuck | ⟨_, _, done⟩
          · exact .stuck running ((inferStep_error_iff rep).mp stuck)
          · cases done
  · intro crash
    cases crash with
    | @nullManager command op free unloaded call =>
      rw [step, free, if_neg (by simp)]
      cases command with
      | killSession | setHotLimit | setColdLimit =>
        rw [serveCommand]
        exact answerCall_error_iff.mpr (Or.inl ⟨unloaded, rfl⟩)
      | createSession id =>
        rw [commandCall, unloaded, if_neg (by simp)] at call
        cases call
      | infer | npuLoad | npuInfer | hello | ignored => cases call
    | @stuck thread inference _ running stuck =>
      have fault : inferStep L (d.cancelled thread) inference d.world = .error e :=
        (inferStep_error_iff rep).mpr stuck
      rw [step, advance, running]
      dsimp only
      split
      · rename_i ok here
        cases stuck with
        | danglingMeta here' => rw [here] at here'; cases here'
        | freedContext uses => rw [here] at uses; cases uses
        | negativeMaxTokens here' => rw [here] at here'; cases here'
        | longPiece here' => rw [here] at here'; cases here'
      · rw [fault, error_bind]

/-! ### Whole runs -/

/-- An action leaves the manager in one of its states. -/
theorem Taken.reached (taken : Taken L d action d') (reached : Reached L nCtx swapDir d.world) :
    Reached L nCtx swapDir d'.world := by
  cases taken with
  | refuses | rests | starts => exact reached
  | calls front call served => exact reached.call served
  | asks => rwa [inferStream_world]
  | cancels => rwa [cancel_world]
  | finishes => rwa [finish_world]
  | advances running goes stepped =>
    rcases stepped.world with ⟨op, r, _, served⟩ | ⟨_, llama, trace, rfl, _⟩
    · exact reached.call served
    · exact reached.elsewhere llama trace

/-- **What an action does to the manager and what it acts on**: nothing, one call, or one call of llama
beside the manager. -/
inductive Goes (L : Llama σ) (w : World σ) : World σ → Prop
  | rests : Goes L w w
  | calls {op : Op} {r : Reply} {w' : World σ} (served : serve L op w = .ok (r, w')) : Goes L w w'
  | decodes (c : Ctx) (batch : List Token) : Goes L w (decodeBatch L c batch w).2
  | samples (c : Ctx) : Goes L w (sampledOf L c w)
  | loopDecodes (c : Ctx) (tok : Token) : Goes L w (loopDecodedOf L c tok w)

theorem Stepped.goes {cancelled : Bool} {inference : Inference} {pc : Pc}
    (stepped : Stepped L cancelled inference w pc w') : Goes L w w' := by
  cases stepped with
  | noContext here active | activates here active => exact .calls (serve_activate active)
  | recordsPrompt here records | recordsGenerated here records => exact .calls (serve_record records)
  | stops | goesOn | stays => exact .rests
  | prefillFails | prefills => exact .decodes _ _
  | samplesEnd | samples => exact .samples _
  | decodeFails | decodes => exact .loopDecodes _ _

theorem Taken.goes (taken : Taken L d action d') : Goes L d.world d'.world := by
  cases taken with
  | refuses | rests | starts => exact .rests
  | calls front call served => exact .calls served
  | asks =>
    rw [inferStream_world]
    exact .rests
  | cancels =>
    rw [cancel_world]
    exact .rests
  | finishes =>
    rw [finish_world]
    exact .rests
  | advances running goes stepped => exact stepped.goes

/-- **What every action keeps** of the manager's world holds in every state of the daemon. -/
theorem world_keeps {I : World σ → Prop}
    (kept : ∀ w w', Reached L nCtx swapDir w → I w → Goes L w w' → I w') {ready : Bool} {llama : σ}
    (start : I (World.start nCtx swapDir llama)) {actions : List Action}
    (reach : run (step L) actions (Daemon.start ready nCtx swapDir llama) = .ok d) : I d.world := by
  have both : Reached L nCtx swapDir d.world ∧ I d.world := by
    refine run_invariant' (I := fun d : Daemon σ => Reached L nCtx swapDir d.world ∧ I d.world) ?_
      ⟨.start llama, start⟩ reach
    rintro d action notice d' ⟨reached, inv⟩ result
    have taken := step_taken result
    exact ⟨taken.reached reached, kept _ _ reached inv taken.goes⟩
  exact both.2

/-- The manager of the daemon is in one of its states. -/
theorem reached_of_daemon {ready : Bool} {llama : σ} {actions : List Action}
    (reach : run (step L) actions (Daemon.start ready nCtx swapDir llama) = .ok d) :
    Reached L nCtx swapDir d.world :=
  run_invariant' (I := fun d : Daemon σ => Reached L nCtx swapDir d.world)
    (fun _ _ _ _ reached result => (step_taken result).reached reached) (.start llama) reach

end MiniV
