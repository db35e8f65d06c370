/-
**When the NPU engine says it is ready.**

`isReady` looks at the model alone, and `load` assigns the model first and leaves early: a load whose
context is refused leaves an engine that answers "ready" and has no context, or one of an older model,
and a load whose model is refused takes away the model that was there.

`readiness_truthful`: along a run the engine is ready only with a context of its model, and a load that
fails changes nothing, exactly when every load succeeds as a whole or fails at its model while none was
there.
-/

import MiniV.Npu.Engine

namespace MiniV

open MiniV.Library

variable {σ : Type}

/-- **Readiness is truthful**: a ready engine has a context, created from its model, and a sampler, and
names the file of that model. -/
def Truthful (w : NpuWorld σ) : Prop :=
  w.isReady = true → ∃ model ctx sampler,
    w.mModel = some model ∧ w.mCtx = some ctx ∧ w.mSampler = some sampler ∧
    w.ctxModel ctx = some model ∧ w.getModelInfo = w.modelFile model

/-- **A load that fails changes nothing** of what `isReady` and `infer` look at. -/
def FailureKeeps (L : NpuLlama σ) (w : NpuWorld σ) (command : Command) : Prop :=
  ∀ call, command.loadCall = some call → (load L call w).1 = false →
    (load L call w).2.isReady = w.isReady ∧ (load L call w).2.mModel = w.mModel ∧
      (load L call w).2.mCtx = w.mCtx ∧ (load L call w).2.mSampler = w.mSampler

/-- A load succeeds as a whole, or fails at its model while none is there. -/
def LoadsCleanly (L : NpuLlama σ) (w : NpuWorld σ) (command : Command) : Prop :=
  ∀ call, command.loadCall = some call →
    (modelLoads L call w = true ∧ contextCreated L call w = true) ∨
      (modelLoads L call w = false ∧ w.mModel = none)

variable {L : NpuLlama σ} {w w' : NpuWorld σ}

/-- **A load that fails** changes nothing exactly when it is clean. -/
theorem failureKeeps_iff (recorded : Recorded w) (command : Command) :
    FailureKeeps L w command ↔ LoadsCleanly L w command := by
  refine forall_congr' fun call => forall_congr' fun _ => ?_
  have loading := load_loading L call w
  revert loading
  generalize (load L call w).2 = w'
  generalize (load L call w).1 = ok
  intro loading
  cases loading with
  | noModel refused llama =>
    constructor
    · intro keeps
      exact .inr ⟨refused, (keeps rfl).2.1.symm⟩
    · rintro (⟨loaded, _⟩ | ⟨_, nothing⟩) _
      · rw [refused] at loaded
        cases loaded
      · refine ⟨?_, nothing.symm, rfl, rfl⟩
        show false = w.mModel.isSome
        rw [nothing]
        rfl
  | noContext loaded refused llama =>
    constructor
    · intro keeps
      have same : some w.next = w.mModel := (keeps rfl).2.1
      exact absurd (recorded.model_lt same.symm) (Nat.lt_irrefl _)
    · rintro (⟨_, created⟩ | ⟨refused', _⟩)
      · rw [refused] at created
        cases created
      · rw [loaded] at refused'
        cases refused'
  | loads loaded created llama =>
    constructor
    · exact fun _ => .inl ⟨loaded, created⟩
    · intro _ failed
      cases failed

/-- A clean load leaves a truthful engine. -/
theorem Loading.truthful {call : LoadCall} {ok : Bool} (loading : Loading L call w ok w')
    (clean : (modelLoads L call w = true ∧ contextCreated L call w = true) ∨
      (modelLoads L call w = false ∧ w.mModel = none)) : Truthful w' := by
  cases loading with
  | noModel refused llama =>
    intro ready
    cases ready
  | noContext loaded refused llama =>
    rcases clean with ⟨_, created⟩ | ⟨refused', _⟩
    · rw [refused] at created
      cases created
    · rw [loaded] at refused'
      cases refused'
  | loads loaded created llama =>
    intro _
    refine ⟨w.next, w.next + 1, w.next + 2, rfl, rfl, rfl, ?_, ?_⟩
    · show Function.update w.ctxModel (w.next + 1) (some w.next) (w.next + 1) = some w.next
      exact Function.update_self ..
    · show call.modelPath = Function.update w.modelFile w.next call.modelPath w.next
      rw [Function.update_self]

/-- A clean command leaves a truthful engine. -/
theorem serveNpu_truthful {command : Command} {reply : Bytes} (truthful : Truthful w)
    (clean : LoadsCleanly L w command) (served : serveNpu L command w = .ok (reply, w')) :
    Truthful w' := by
  rcases serveNpu_cases served with ⟨call, asks, rfl⟩ | ⟨_, llama, rfl⟩
  · exact (load_loading L call w).truthful (clean call asks)
  · exact truthful

/-- **Readiness is truthful and failed loads change nothing**, in any run of commands that load and
infer, if and only if every load succeeds as a whole or fails at its model while none is there. -/
theorem readiness_truthful (L : NpuLlama σ) (llama : σ) (commands : List Command) :
    (Throughout (serveNpu L) Truthful commands (NpuWorld.start llama) ∧
        Along (serveNpu L) (FailureKeeps L) commands (NpuWorld.start llama)) ↔
      Along (serveNpu L) (LoadsCleanly L) commands (NpuWorld.start llama) := by
  have start : Recorded (NpuWorld.start llama) := .start llama
  have unloaded : Truthful (NpuWorld.start llama) := fun ready => by cases ready
  constructor
  · rintro ⟨_, keeps⟩
    exact along_of_invariant (I := Recorded) (fun _ _ _ _ recorded _ => serveNpu_recorded recorded)
      (fun w command recorded => (failureKeeps_iff recorded command).mp) start keeps
  · intro clean
    constructor
    · exact throughout_of_invariant (fun _ _ _ _ => serveNpu_truthful) unloaded clean
    · exact along_of_invariant (I := Recorded)
        (fun _ _ _ _ recorded _ => serveNpu_recorded recorded)
        (fun w command recorded => (failureKeeps_iff recorded command).mpr) start clean

/-- One load. -/
def loadOnce : List Command := [.npuLoad (text "/m") (text "/b") 2048 4]

/-- The model is loaded and the context refused: the load fails, and the engine is ready without a
context. -/
theorem readiness_truthful_no_context :
    ∃ w, run (serveNpu npuSim) loadOnce (NpuWorld.start [true, false]) = .ok w ∧
      w.isReady = true ∧ w.mCtx = none ∧
      (load npuSim ⟨text "/m", text "/b", 2048, 4⟩ (NpuWorld.start [true, false])).1 = false ∧
      ¬ Truthful w ∧
      ¬ Along (serveNpu npuSim) (FailureKeeps npuSim) loadOnce (NpuWorld.start [true, false]) := by
  have half : ∃ w, run (serveNpu npuSim) loadOnce (NpuWorld.start [true, false]) = .ok w ∧
      w.isReady = true ∧ w.mCtx = none := by
    refine gives_iff.mp ?_
    decide +kernel
  obtain ⟨w, reach, ready, nothing⟩ := half
  refine ⟨w, reach, ready, nothing, by decide +kernel, fun truthful => ?_, fun keeps => ?_⟩
  · obtain ⟨_, ctx, _, _, held, _⟩ := truthful ready
    rw [nothing] at held
    cases held
  · have same := (keeps.1 ⟨text "/m", text "/b", 2048, 4⟩ rfl (by decide +kernel)).1
    exact absurd same (by decide +kernel)

end MiniV
