/-
**Who owns the handles of the NPU engine.**

`load` assigns its three pointers without looking at what they hold, and nothing but the destructor
frees anything. A handle that is overwritten is lost.

`handles_kept`: along a run every handle is held from the moment it is obtained, and the destructor
frees each of them once, exactly when no load meets a model that is already there.
-/

import MiniV.Npu.Engine

namespace MiniV

open MiniV.Library

variable {σ : Type}

/-! ### Handles that are held -/

/-- A pointer of the engine holds this handle. -/
def NpuLLMEngine.holds (e : NpuLLMEngine) : Handle → Prop
  | .model n => e.mModel = some n
  | .context n => e.mCtx = some n
  | .sampler n => e.mSampler = some n

instance (e : NpuLLMEngine) : DecidablePred e.holds
  | .model n => inferInstanceAs (Decidable (e.mModel = some n))
  | .context n => inferInstanceAs (Decidable (e.mCtx = some n))
  | .sampler n => inferInstanceAs (Decidable (e.mSampler = some n))

/-- Every handle obtained and not yet freed is held. -/
def Held (w : NpuWorld σ) : Prop := ∀ h ∈ w.obtained, h ∉ w.freed → w.holds h

/-- What was obtained, and nothing else, is freed, and just once. -/
def FreedOnce (w : NpuWorld σ) : Prop :=
  ∀ h, w.freed.count h = if h ∈ w.obtained then 1 else 0

/-- The moments of a load: before it, after each of its assignments, at its end. -/
inductive Passes (L : NpuLlama σ) (call : LoadCall) (w : NpuWorld σ) : NpuWorld σ → Prop
  | starts : Passes L call w w
  | modelAssigned : Passes L call w (assignModel L call (loadBackends L call w))
  | contextAssigned (loaded : modelLoads L call w = true) :
      Passes L call w (assignContext L call w.next (withModel L call w))
  | ends : Passes L call w (load L call w).2

/-- **No handle is leaked, and none is freed twice**: at every moment of every load what is there is
held, and the destructor frees it. -/
structure HandlesKept (L : NpuLlama σ) (commands : List Command) (w : NpuWorld σ) : Prop where
  held : Along (serveNpu L)
    (fun w command => ∀ call, command.loadCall = some call → ∀ m, Passes L call w m → Held m)
    commands w
  freed : ∀ w', run (serveNpu L) commands w = .ok w' → Held w' ∧ FreedOnce (destroy L w')

/-- A load is only asked for while no model is there. -/
def LoadsUnloaded (w : NpuWorld σ) (command : Command) : Prop :=
  ∀ call, command.loadCall = some call → w.mModel = none

variable {L : NpuLlama σ} {w w' : NpuWorld σ} {call : LoadCall}

/-! ### One load -/

/-- A load that meets a model loses it. -/
theorem unloaded_of_held (recorded : Recorded w) (held : ∀ m, Passes L call w m → Held m) :
    w.mModel = none := by
  by_contra some'
  obtain ⟨n, holds⟩ := Option.ne_none_iff_exists'.mp some'
  have old := recorded.model n holds
  have young := recorded.model_lt holds
  have after := held _ .modelAssigned
  cases loaded : modelLoads L call w with
  | false =>
    obtain ⟨llama, same⟩ := assignModel_refused loaded
    rw [same] at after
    have lost : (none : Option Nat) = some n :=
      after (.model n) old (by rw [recorded.freed]; exact List.not_mem_nil)
    cases lost
  | true =>
    obtain ⟨llama, same⟩ := assignModel_loads loaded
    rw [same] at after
    have lost : some w.next = some n :=
      after (.model n) (List.mem_append_left _ old) (by rw [recorded.freed]; exact List.not_mem_nil)
    rw [Option.some.injEq] at lost
    omega

/-- Without a model nothing was obtained, if nothing was lost. -/
theorem nothing_obtained (recorded : Recorded w) (held : Held w) (unloaded : w.mModel = none) :
    w.obtained = [] := by
  refine List.eq_nil_iff_forall_not_mem.mpr fun h member => ?_
  obtain ⟨n, model⟩ := recorded.first h member
  have holds : w.mModel = some n :=
    held (.model n) model (by rw [recorded.freed]; exact List.not_mem_nil)
  rw [unloaded] at holds
  cases holds

/-- The end of a load that finds nothing. -/
theorem Loading.held {ok : Bool} (loading : Loading L call w ok w') (none' : w.obtained = []) :
    Held w' := by
  cases loading with
  | noModel refused llama =>
    intro h member
    rw [show w.obtained = [] from none'] at member
    cases member
  | noContext loaded refused llama =>
    intro h member _
    rw [none', List.nil_append, List.mem_singleton] at member
    rw [member]
    exact rfl
  | loads loaded created llama =>
    intro h member _
    rw [none', List.nil_append] at member
    simp only [List.mem_cons, List.not_mem_nil, or_false] at member
    rcases member with rfl | rfl | rfl
    · exact rfl
    · exact rfl
    · exact rfl

/-- **A load that finds nothing** loses nothing, at any moment. -/
theorem held_of_unloaded (recorded : Recorded w) (held : Held w) (unloaded : w.mModel = none) :
    ∀ m, Passes L call w m → Held m := by
  have none' := nothing_obtained recorded held unloaded
  intro m passes
  cases passes with
  | starts => exact held
  | modelAssigned =>
    cases loaded : modelLoads L call w with
    | false =>
      obtain ⟨llama, same⟩ := assignModel_refused loaded
      rw [same]
      intro h member
      rw [show w.obtained = [] from none'] at member
      cases member
    | true =>
      obtain ⟨llama, same⟩ := assignModel_loads loaded
      rw [same]
      intro h member _
      rw [none', List.nil_append, List.mem_singleton] at member
      rw [member]
      exact rfl
  | contextAssigned loaded =>
    obtain ⟨llama, same⟩ := assignModel_loads loaded
    have second : withModel L call w = { assignModel L call (loadBackends L call w) with
      mModelPath := call.modelPath } := rfl
    rw [second, same, assignContext]
    dsimp only
    split
    · intro h member _
      rw [none', List.nil_append] at member
      simp only [List.cons_append, List.nil_append, List.mem_cons, List.not_mem_nil, or_false]
        at member
      rcases member with rfl | rfl
      · exact rfl
      · exact rfl
    · intro h member _
      rw [none', List.nil_append, List.mem_singleton] at member
      rw [member]
      exact rfl
  | ends => exact (load_loading L call w).held none'

/-- A command that meets no model keeps all handles held. -/
theorem serveNpu_held {command : Command} {reply : Bytes} (recorded : Recorded w) (held : Held w)
    (unloaded : LoadsUnloaded w command) (served : serveNpu L command w = .ok (reply, w')) :
    Held w' := by
  rcases serveNpu_cases served with ⟨call, asks, rfl⟩ | ⟨_, llama, rfl⟩
  · exact held_of_unloaded recorded held (unloaded call asks) _ .ends
  · exact held

/-! ### The destructor -/

/-- What the pointers hold, in the order the destructor frees it. -/
def owned (e : NpuLLMEngine) : List Handle :=
  (e.mSampler.map Handle.sampler).toList ++ (e.mCtx.map Handle.context).toList ++
    (e.mModel.map Handle.model).toList

theorem count_owned (e : NpuLLMEngine) (h : Handle) :
    (owned e).count h = if e.holds h then 1 else 0 := by
  obtain ⟨model, ctx, sampler, path, backends⟩ := e
  cases h <;> cases model <;> cases ctx <;> cases sampler <;>
    simp [owned, NpuLLMEngine.holds, List.count_cons]

@[simp] theorem freeHandle_engine (handle : Option Handle) (free : σ → σ) (w : NpuWorld σ) :
    (freeHandle handle free w).toNpuLLMEngine = w.toNpuLLMEngine := by cases handle <;> rfl

@[simp] theorem freeHandle_obtained (handle : Option Handle) (free : σ → σ) (w : NpuWorld σ) :
    (freeHandle handle free w).obtained = w.obtained := by cases handle <;> rfl

@[simp] theorem freeHandle_freed (handle : Option Handle) (free : σ → σ) (w : NpuWorld σ) :
    (freeHandle handle free w).freed = w.freed ++ handle.toList := by
  cases handle
  · exact (List.append_nil _).symm
  · rfl

/-- The destructor frees what the pointers hold. -/
theorem destroy_freed (L : NpuLlama σ) (w : NpuWorld σ) :
    (destroy L w).freed = w.freed ++ owned w.toNpuLLMEngine ∧
      (destroy L w).obtained = w.obtained := by
  simp only [destroy, owned, freeHandle_freed, freeHandle_engine, freeHandle_obtained,
    List.append_assoc, and_self]

/-- **The destructor** frees every handle once, if all are held. -/
theorem destroy_freedOnce (recorded : Recorded w) (held : Held w) : FreedOnce (destroy L w) := by
  intro h
  obtain ⟨freed, obtained⟩ := destroy_freed L w
  rw [freed, obtained, recorded.freed, List.nil_append, count_owned]
  have same : w.holds h ↔ h ∈ w.obtained := by
    constructor
    · intro holds
      cases h with
      | model n => exact recorded.model n holds
      | context n => exact recorded.context n holds
      | sampler n => exact recorded.sampler n holds
    · exact fun member => held h member (by rw [recorded.freed]; exact List.not_mem_nil)
  exact if_congr same rfl rfl

/-! ### Runs -/

/-- **The handles are neither leaked nor freed twice**, in any run of commands that load and infer, if
and only if a load is only asked for while no model is there. -/
theorem handles_kept (L : NpuLlama σ) (llama : σ) (commands : List Command) :
    HandlesKept L commands (NpuWorld.start llama) ↔
      Along (serveNpu L) LoadsUnloaded commands (NpuWorld.start llama) := by
  have start : Recorded (NpuWorld.start llama) := .start llama
  have nothing : Held (NpuWorld.start llama) := fun h member => by cases member
  constructor
  · intro kept
    exact along_of_invariant (I := Recorded) (fun _ _ _ _ recorded _ => serveNpu_recorded recorded)
      (fun w command recorded held call asks => unloaded_of_held recorded (held call asks))
      start kept.held
  · intro unloaded
    have step : ∀ (w : NpuWorld σ) (command : Command) (reply : Bytes) (w' : NpuWorld σ),
        Recorded w ∧ Held w → LoadsUnloaded w command → serveNpu L command w = .ok (reply, w') →
          Recorded w' ∧ Held w' := by
      rintro w command reply w' ⟨recorded, held⟩ meets served
      exact ⟨serveNpu_recorded recorded served, serveNpu_held recorded held meets served⟩
    refine ⟨along_of_invariant step ?_ ⟨start, nothing⟩ unloaded, fun w' reach => ?_⟩
    · rintro w command ⟨recorded, held⟩ meets call asks
      exact held_of_unloaded recorded held (meets call asks)
    · obtain ⟨recorded, held⟩ := run_invariant step ⟨start, nothing⟩ unloaded reach
      exact ⟨held, destroy_freedOnce recorded held⟩

/-- Loading twice. -/
def loadTwice : List Command :=
  [.npuLoad (text "/m") (text "/b") 2048 4, .npuLoad (text "/m") (text "/b") 2048 4]

/-- The second load loses the first model, context and sampler, and the destructor never frees them. -/
theorem handles_kept_reload : ∃ w, run (serveNpu npuSim) loadTwice (NpuWorld.start []) = .ok w ∧
    .model 0 ∈ w.obtained ∧ ¬ w.holds (.model 0) ∧ .model 0 ∉ (destroy npuSim w).freed ∧
    ¬ HandlesKept npuSim loadTwice (NpuWorld.start []) := by
  have lost : ∃ w, run (serveNpu npuSim) loadTwice (NpuWorld.start []) = .ok w ∧
      .model 0 ∈ w.obtained ∧ .model 0 ∉ w.freed ∧ ¬ w.holds (.model 0) ∧
        .model 0 ∉ (destroy npuSim w).freed := by
    refine gives_iff.mp ?_
    decide +kernel
  obtain ⟨w, reach, obtained, notFreed, notHeld, never⟩ := lost
  exact ⟨w, reach, obtained, notHeld, never,
    fun kept => notHeld ((kept.freed w reach).1 (.model 0) obtained notFreed)⟩

end MiniV
