/-
**The NPU engine, as `npu_llm_engine.cpp` computes it.**

The engine owns a model, a context and a sampler through three raw pointers. `load` assigns them one
after another and leaves at the first that is null; `infer` uses whatever they hold; the destructor
frees what they hold then.

`NpuWorld` adds what the engine acts on and a record that the engine never reads: the handles obtained
and freed, the file each model was loaded from and the model each context was created from. Handles
are named by the order of their creation.

* `load_loading`: what `load` can do, and when it answers true;
* `Recorded`: what the record says of the three pointers, in every state that commands lead to
  (`serveNpu_recorded`).
-/

import MiniV.Library.Run
import MiniV.Wire.Streaming
import MiniV.Llama.Api

namespace MiniV

open MiniV.Library

/-! ### Data -/

/-- The calls of the NPU engine to the outside. A handle is passed by its name; a call that obtains one
is given the name. -/
structure NpuLlama (σ : Type) where
  /-- `llama_backend_init`. -/
  backendInit : σ → σ
  /-- `ggml_backend_load_all_from_path`. -/
  backendLoadAll : Bytes → σ → σ
  /-- `llama_load_model_from_file`: whether the model of this name was loaded. -/
  loadModelFromFile : Nat → Bytes → σ → Bool × σ
  /-- `llama_new_context_with_model`, with `n_ctx` and `n_threads`: whether the context of this name
  was created from a model. -/
  newContextWithModel : Nat → Nat → Int → Int → σ → Bool × σ
  /-- `llama_sampler_chain_init`, and the samplers added to the chain. -/
  samplerChainInit : Nat → σ → σ
  /-- `llama_sampler_free`. -/
  samplerFree : Nat → σ → σ
  /-- `llama_free`. -/
  free : Nat → σ → σ
  /-- `llama_free_model`. -/
  freeModel : Nat → σ → σ
  /-- `llama_backend_free`. -/
  backendFree : σ → σ
  /-- `llama_token_bos`; nothing stands for `LLAMA_TOKEN_NULL`. -/
  tokenBos : Nat → Option Token
  /-- `llama_decode` of a batch from `llama_batch_get_one`: zero on success. -/
  decode : Nat → List Token → σ → Int × σ
  /-- `llama_kv_cache_clear`. -/
  kvCacheClear : Nat → σ → σ
  /-- `llama_tokenize` with a large enough buffer. -/
  tokenize : Nat → Bytes → List Token
  /-- `llama_sampler_sample` of a sampler on a context, and `llama_sampler_accept` of its token. -/
  samplerSample : Nat → Nat → σ → Token × σ
  /-- `llama_token_is_eog`. -/
  tokenIsEog : Nat → Token → Bool
  /-- `llama_token_to_piece`: the number returned, and the bytes stored in the buffer. -/
  tokenToPiece : Nat → Token → Int × Bytes

/-- `NpuLLMEngine`. -/
structure NpuLLMEngine where
  mModel : Option Nat := none
  mCtx : Option Nat := none
  mSampler : Option Nat := none
  mModelPath : Bytes := []
  mBackendsLoaded : Bool := false
deriving DecidableEq, Repr

/-- What llama hands out. -/
inductive Handle
  | model (name : Nat)
  | context (name : Nat)
  | sampler (name : Nat)
deriving DecidableEq, Repr

/-- The engine, what it acts on, and the record of its handles. -/
structure NpuWorld (σ : Type) extends NpuLLMEngine where
  llama : σ
  next : Nat
  obtained : List Handle
  freed : List Handle
  modelFile : Nat → Bytes
  ctxModel : Nat → Option Nat

/-- Use of a null pointer, or an uncaught exception. -/
inductive NpuFault
  | nullModel
  | nullSampler
  | lengthError
deriving DecidableEq, Repr

/-- The engine as constructed. -/
def NpuWorld.start {σ : Type} (llama : σ) : NpuWorld σ where
  llama := llama
  next := 0
  obtained := []
  freed := []
  modelFile := fun _ => []
  ctxModel := fun _ => none

/-- The arguments of `load`. -/
structure LoadCall where
  modelPath : Bytes
  backendLibDir : Bytes
  nCtx : Int
  nThreads : Int
deriving DecidableEq, Repr

/-! ### The functions -/

section Functions

variable {σ : Type} (L : NpuLlama σ)

/-- `isReady`. -/
def NpuLLMEngine.isReady (e : NpuLLMEngine) : Bool := e.mModel.isSome

/-- `getModelInfo`. -/
def NpuLLMEngine.getModelInfo (e : NpuLLMEngine) : Bytes :=
  if e.mModel.isSome then e.mModelPath else text "not loaded"

/-- `load` up to its first assignment: the backends. -/
def loadBackends (call : LoadCall) (w : NpuWorld σ) : NpuWorld σ :=
  { w with llama := L.backendLoadAll call.backendLibDir (L.backendInit w.llama),
           mBackendsLoaded := true }

/-- `mModel = llama_load_model_from_file(modelPath)`. -/
def assignModel (call : LoadCall) (w : NpuWorld σ) : NpuWorld σ :=
  let loaded := L.loadModelFromFile w.next call.modelPath w.llama
  if loaded.1 then
    { w with
      llama := loaded.2
      mModel := some w.next
      next := w.next + 1
      obtained := w.obtained ++ [.model w.next]
      modelFile := Function.update w.modelFile w.next call.modelPath }
  else { w with llama := loaded.2, mModel := none }

/-- `mCtx = llama_new_context_with_model(mModel)`. -/
def assignContext (call : LoadCall) (model : Nat) (w : NpuWorld σ) : NpuWorld σ :=
  let created := L.newContextWithModel w.next model call.nCtx call.nThreads w.llama
  if created.1 then
    { w with
      llama := created.2
      mCtx := some w.next
      next := w.next + 1
      obtained := w.obtained ++ [.context w.next]
      ctxModel := Function.update w.ctxModel w.next (some model) }
  else { w with llama := created.2, mCtx := none }

/-- `mSampler = llama_sampler_chain_init()`. -/
def assignSampler (w : NpuWorld σ) : NpuWorld σ :=
  { w with
    llama := L.samplerChainInit w.next w.llama
    mSampler := some w.next
    next := w.next + 1
    obtained := w.obtained ++ [.sampler w.next] }

/-- The warm-up of `load`: a failed decode is only logged. -/
def warmUp (model ctx : Nat) (w : NpuWorld σ) : NpuWorld σ :=
  let bosToken := (L.tokenBos model).getD 0
  { w with llama := L.kvCacheClear ctx (L.decode ctx [bosToken] w.llama).2 }

/-- `load`. -/
def load (call : LoadCall) (w : NpuWorld σ) : Bool × NpuWorld σ :=
  let w := assignModel L call (loadBackends L call w)
  match w.mModel with
  | none => (false, w)
  | some model =>
    let w := assignContext L call model { w with mModelPath := call.modelPath }
    match w.mCtx with
    | none => (false, w)
    | some ctx => (true, warmUp L model ctx (assignSampler L w))

/-- `std::string(buf, n)` on the piece of a token: a negative length is a `length_error`. -/
def npuPieceText (model : Nat) (tok : Token) : Except NpuFault Bytes :=
  if (L.tokenToPiece model tok).1 < 0 then .error .lengthError
  else .ok ((L.tokenToPiece model tok).2.take (L.tokenToPiece model tok).1.toNat)

/-- The loop of `infer`: the texts given to `onToken`. -/
def npuDecodeLoop (model ctx : Nat) : Nat → NpuWorld σ → Except NpuFault (List Bytes × NpuWorld σ)
  | 0, w => .ok ([], w)
  | rounds + 1, w =>
    match w.mSampler with
    | none => .error .nullSampler
    | some sampler =>
      let sample := L.samplerSample sampler ctx w.llama
      let tok := sample.1
      if L.tokenIsEog model tok then .ok ([], { w with llama := sample.2 })
      else do
        let text ← npuPieceText L model tok
        let decoded := L.decode ctx [tok] sample.2
        let w := { w with llama := decoded.2 }
        if decoded.1 ≠ 0 then .ok ([text], w)
        else do
          let (texts, w) ← npuDecodeLoop model ctx rounds w
          .ok (text :: texts, w)

/-- `NpuLLMEngine::infer`: its answer and the texts given to `onToken`. -/
def npuInfer (prompt : Bytes) (maxTokens : Int) (w : NpuWorld σ) :
    Except NpuFault ((Bool × List Bytes) × NpuWorld σ) :=
  match w.mCtx with
  | none => .ok ((false, []), w)
  | some ctx =>
    match w.mModel with
    | none => .error .nullModel
    | some model => do
      let prefill := L.decode ctx (L.tokenize model prompt) (L.kvCacheClear ctx w.llama)
      let w := { w with llama := prefill.2 }
      if prefill.1 ≠ 0 then .ok ((false, []), w)
      else do
        let (texts, w) ← npuDecodeLoop L model ctx maxTokens.toNat w
        .ok ((true, texts), w)

/-- A pointer is freed unless it is null. -/
def freeHandle (handle : Option Handle) (free : σ → σ) (w : NpuWorld σ) : NpuWorld σ :=
  match handle with
  | none => w
  | some h => { w with llama := free w.llama, freed := w.freed ++ [h] }

/-- `~NpuLLMEngine`. -/
def destroy (w : NpuWorld σ) : NpuWorld σ :=
  let w := freeHandle (w.mSampler.map .sampler) (L.samplerFree (w.mSampler.getD 0)) w
  let w := freeHandle (w.mCtx.map .context) (L.free (w.mCtx.getD 0)) w
  let w := freeHandle (w.mModel.map .model) (L.freeModel (w.mModel.getD 0)) w
  { w with llama := L.backendFree w.llama }

/-- `HandleClient` on the commands of the NPU: what it writes. The other commands do not concern this
engine. -/
def serveNpu (command : Command) (w : NpuWorld σ) : Except NpuFault (Bytes × NpuWorld σ) :=
  match command with
  | .npuLoad modelPath backendDir nCtx nThreads =>
    let loaded := load L ⟨modelPath, backendDir, nCtx, nThreads⟩ w
    .ok (if loaded.1 then text "OK\n" else text "ERROR NPU_LOAD_FAILED\n", loaded.2)
  | .npuInfer maxTokens prompt =>
    if ¬ w.isReady then .ok (text "ERROR NPU_NOT_READY\n", w)
    else do
      let ((ok, texts), w) ← npuInfer L prompt maxTokens w
      .ok (texts.flatMap tokenLine ++ (if ok then text "DONE\n" else text "ERROR NPU_INFER_FAILED\n"),
        w)
  | .createSession _ | .killSession _ | .setHotLimit _ | .setColdLimit _ | .infer _ _ _ | .hello
  | .ignored _ => .ok ([], w)

/-! ### What a load does -/

/-- Whether the model of a call is loaded. -/
def modelLoads (call : LoadCall) (w : NpuWorld σ) : Bool :=
  (L.loadModelFromFile w.next call.modelPath (loadBackends L call w).llama).1

/-- The world in which the context of a call is created, when its model was loaded. -/
def withModel (call : LoadCall) (w : NpuWorld σ) : NpuWorld σ :=
  { assignModel L call (loadBackends L call w) with mModelPath := call.modelPath }

/-- Whether the context of a call is created, when its model was loaded. -/
def contextCreated (call : LoadCall) (w : NpuWorld σ) : Bool :=
  (L.newContextWithModel (w.next + 1) w.next call.nCtx call.nThreads (withModel L call w).llama).1

end Functions

section Outcomes

variable {σ : Type} (L : NpuLlama σ)

/-- **What `load` can do**: its answer, and the world after it. -/
inductive Loading (call : LoadCall) (w : NpuWorld σ) : Bool → NpuWorld σ → Prop
  | noModel (refused : modelLoads L call w = false) (llama : σ) :
      Loading call w false { w with llama := llama, mBackendsLoaded := true, mModel := none }
  | noContext (loaded : modelLoads L call w = true) (refused : contextCreated L call w = false)
      (llama : σ) :
      Loading call w false
        { w with
          llama := llama
          mBackendsLoaded := true
          mModel := some w.next
          mModelPath := call.modelPath
          mCtx := none
          next := w.next + 1
          obtained := w.obtained ++ [.model w.next]
          modelFile := Function.update w.modelFile w.next call.modelPath }
  | loads (loaded : modelLoads L call w = true) (created : contextCreated L call w = true)
      (llama : σ) :
      Loading call w true
        { w with
          llama := llama
          mBackendsLoaded := true
          mModel := some w.next
          mModelPath := call.modelPath
          mCtx := some (w.next + 1)
          mSampler := some (w.next + 2)
          next := w.next + 3
          obtained := w.obtained ++ [.model w.next, .context (w.next + 1), .sampler (w.next + 2)]
          modelFile := Function.update w.modelFile w.next call.modelPath
          ctxModel := Function.update w.ctxModel (w.next + 1) (some w.next) }

end Outcomes

variable {σ : Type} {L : NpuLlama σ} {w w' : NpuWorld σ} {call : LoadCall}

theorem assignModel_loads (loaded : modelLoads L call w = true) :
    ∃ llama, assignModel L call (loadBackends L call w) =
      { w with
        llama := llama
        mBackendsLoaded := true
        mModel := some w.next
        next := w.next + 1
        obtained := w.obtained ++ [.model w.next]
        modelFile := Function.update w.modelFile w.next call.modelPath } :=
  ⟨_, if_pos loaded⟩

theorem assignModel_refused (refused : modelLoads L call w = false) :
    ∃ llama, assignModel L call (loadBackends L call w) =
      { w with llama := llama, mBackendsLoaded := true, mModel := none } :=
  ⟨_, if_neg (by rw [show (L.loadModelFromFile (loadBackends L call w).next call.modelPath
    (loadBackends L call w).llama).1 = false from refused]; exact Bool.false_ne_true)⟩

/-- **Every load** is one of these. -/
theorem load_loading (L : NpuLlama σ) (call : LoadCall) (w : NpuWorld σ) :
    Loading L call w (load L call w).1 (load L call w).2 := by
  cases loaded : modelLoads L call w with
  | false =>
    obtain ⟨llama, same⟩ := assignModel_refused loaded
    rw [load, same]
    exact .noModel loaded llama
  | true =>
    obtain ⟨llama, same⟩ := assignModel_loads loaded
    have second : withModel L call w = { assignModel L call (loadBackends L call w) with
      mModelPath := call.modelPath } := rfl
    rw [same] at second
    have answer : contextCreated L call w = (L.newContextWithModel (w.next + 1) w.next call.nCtx
        call.nThreads llama).1 := by rw [contextCreated, second]
    cases created : contextCreated L call w with
    | false =>
      rw [load, same]
      dsimp only
      rw [assignContext, ← answer, created, if_neg Bool.false_ne_true]
      exact .noContext loaded created _
    | true =>
      rw [load, same]
      dsimp only
      rw [assignContext, ← answer, created, if_pos rfl]
      have outcome := Loading.loads loaded created (warmUp L w.next (w.next + 1) (assignSampler L
        (assignContext L call w.next (withModel L call w)))).llama
      rw [second, assignContext, ← answer, created, if_pos rfl] at outcome
      simp only [warmUp, assignSampler, List.append_assoc, List.cons_append, List.nil_append]
        at outcome ⊢
      exact outcome

/-! ### The other commands -/

/-- The load that a command asks for. -/
def Command.loadCall : Command → Option LoadCall
  | .npuLoad modelPath backendDir nCtx nThreads => some ⟨modelPath, backendDir, nCtx, nThreads⟩
  | _ => none

/-- The loop of `infer` leaves the engine alone. -/
theorem npuDecodeLoop_frame {model ctx rounds : Nat} {texts : List Bytes}
    (result : npuDecodeLoop L model ctx rounds w = .ok (texts, w')) :
    ∃ llama, w' = { w with llama := llama } := by
  induction rounds generalizing w texts with
  | zero =>
    cases result
    exact ⟨_, rfl⟩
  | succ rounds ih =>
    rw [npuDecodeLoop] at result
    split at result
    · cases result
    · dsimp only at result
      split at result
      · cases result
        exact ⟨_, rfl⟩
      · obtain ⟨text, _, result⟩ := bind_eq_ok.mp result
        split at result
        · cases result
          exact ⟨_, rfl⟩
        · obtain ⟨⟨later, w1⟩, rest, result⟩ := bind_eq_ok.mp result
          cases result
          obtain ⟨llama, same⟩ := ih rest
          exact ⟨llama, same⟩

/-- `infer` leaves the engine alone. -/
theorem npuInfer_frame {prompt : Bytes} {maxTokens : Int} {answer : Bool × List Bytes}
    (result : npuInfer L prompt maxTokens w = .ok (answer, w')) :
    ∃ llama, w' = { w with llama := llama } := by
  unfold npuInfer at result
  split at result
  · cases result
    exact ⟨w.llama, rfl⟩
  · split at result
    · cases result
    · dsimp only at result
      split at result
      · cases result
        exact ⟨_, rfl⟩
      · obtain ⟨⟨texts, w1⟩, loop, result⟩ := bind_eq_ok.mp result
        cases result
        obtain ⟨llama, same⟩ := npuDecodeLoop_frame loop
        exact ⟨llama, same⟩

/-- **A command** is a load, or leaves the engine alone. -/
theorem serveNpu_cases {command : Command} {reply : Bytes}
    (served : serveNpu L command w = .ok (reply, w')) :
    (∃ call, command.loadCall = some call ∧ w' = (load L call w).2) ∨
      (command.loadCall = none ∧ ∃ llama, w' = { w with llama := llama }) := by
  cases command with
  | npuLoad modelPath backendDir nCtx nThreads =>
    cases served
    exact .inl ⟨_, rfl, rfl⟩
  | npuInfer maxTokens prompt =>
    refine .inr ⟨rfl, ?_⟩
    rw [serveNpu] at served
    split at served
    · cases served
      exact ⟨w.llama, rfl⟩
    · obtain ⟨⟨answer, w1⟩, inferred, served⟩ := bind_eq_ok.mp served
      cases served
      exact npuInfer_frame inferred
  | createSession | killSession | setHotLimit | setColdLimit | infer | hello | ignored =>
    cases served
    exact .inr ⟨rfl, w.llama, rfl⟩

/-! ### The record -/

/-- The name of a handle. -/
def Handle.name : Handle → Nat
  | .model n | .context n | .sampler n => n

/-- **The record of the handles**: none is freed before the destructor, no name is used twice, the
pointers hold handles that were obtained, and nothing is obtained before a model. -/
structure Recorded (w : NpuWorld σ) : Prop where
  freed : w.freed = []
  fresh : ∀ h ∈ w.obtained, h.name < w.next
  model : ∀ n, w.mModel = some n → .model n ∈ w.obtained
  context : ∀ n, w.mCtx = some n → .context n ∈ w.obtained
  sampler : ∀ n, w.mSampler = some n → .sampler n ∈ w.obtained
  first : ∀ h ∈ w.obtained, ∃ n, .model n ∈ w.obtained

theorem Recorded.start (llama : σ) : Recorded (NpuWorld.start llama) where
  freed := rfl
  fresh := fun h member => by cases member
  model := fun n held => by cases held
  context := fun n held => by cases held
  sampler := fun n held => by cases held
  first := fun h member => by cases member

/-- A model that is held is older than the next handle. -/
theorem Recorded.model_lt (recorded : Recorded w) {n : Nat} (held : w.mModel = some n) :
    n < w.next := recorded.fresh _ (recorded.model n held)

/-- A load keeps the record. -/
theorem Loading.recorded {ok : Bool} (loading : Loading L call w ok w') (recorded : Recorded w) :
    Recorded w' := by
  cases loading with
  | noModel refused llama =>
    exact ⟨recorded.freed, recorded.fresh, fun n held => by (cases held), recorded.context,
      recorded.sampler, recorded.first⟩
  | noContext loaded refused llama =>
    refine ⟨recorded.freed, fun h member => ?_, fun n held => ?_, fun n held => ?_,
      fun n held => ?_, fun h member => ?_⟩
    · rcases List.mem_append.mp member with old | new
      · exact Nat.lt_succ_of_lt (recorded.fresh h old)
      · rw [List.mem_singleton.mp new]
        exact Nat.lt_succ_self _
    · cases held
      exact List.mem_append_right _ List.mem_cons_self
    · cases held
    · exact List.mem_append_left _ (recorded.sampler n held)
    · exact ⟨w.next, List.mem_append_right _ List.mem_cons_self⟩
  | loads loaded created llama =>
    refine ⟨recorded.freed, fun h member => ?_, fun n held => ?_, fun n held => ?_,
      fun n held => ?_, fun h member => ?_⟩
    · rcases List.mem_append.mp member with old | new
      · have := recorded.fresh h old
        show h.name < w.next + 3
        omega
      · simp only [List.mem_cons, List.not_mem_nil, or_false] at new
        rcases new with rfl | rfl | rfl <;> simp [Handle.name]
    · cases held
      simp
    · cases held
      simp
    · cases held
      simp
    · exact ⟨w.next, by simp⟩

/-- **The record is kept** by every command. -/
theorem serveNpu_recorded {command : Command} {reply : Bytes} (recorded : Recorded w)
    (served : serveNpu L command w = .ok (reply, w')) : Recorded w' := by
  rcases serveNpu_cases served with ⟨call, _, rfl⟩ | ⟨_, llama, rfl⟩
  · exact (load_loading L call w).recorded recorded
  · exact ⟨recorded.freed, recorded.fresh, recorded.model, recorded.context, recorded.sampler,
      recorded.first⟩

/-! ### A scripted llama -/

/-- The next answer of a script; a script that has ended goes on with successes. -/
def nextAnswer : List Bool → Bool × List Bool
  | [] => (true, [])
  | answer :: script => (answer, script)

/-- A llama whose models and contexts are refused as a script says. It has one token, which ends a
text. -/
def npuSim : NpuLlama (List Bool) where
  backendInit := id
  backendLoadAll := fun _ => id
  loadModelFromFile := fun _ _ => nextAnswer
  newContextWithModel := fun _ _ _ _ => nextAnswer
  samplerChainInit := fun _ => id
  samplerFree := fun _ => id
  free := fun _ => id
  freeModel := fun _ => id
  backendFree := id
  tokenBos := fun _ => none
  decode := fun _ _ script => (0, script)
  kvCacheClear := fun _ => id
  tokenize := fun _ prompt => prompt.map fun _ => 0
  samplerSample := fun _ _ script => (0, script)
  tokenIsEog := fun _ _ => true
  tokenToPiece := fun _ _ => (0, [])

end MiniV
