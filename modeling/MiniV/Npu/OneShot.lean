/-
**Each question to the NPU stands alone.**

The NPU engine has no sessions: `infer` clears the cache of its one context, decodes the prompt, and then
samples and decodes one token after another. Whatever was loaded and asked before, and however it ended,
the cache then holds what this question put there and nothing else.

* `Wired`: a context always comes with a sampler, and was created from the model that is there;
* `npuDecodeLoop_generates`: the loop, as the tokens it samples;
* `npu_one_shot`: what a question is answered after any commands, and what it leaves in the cache.
-/

import MiniV.Llama.Contract
import MiniV.Npu.Engine

namespace MiniV

open MiniV.Library

variable {σ : Type} {N : NpuLlama σ} {w w' : NpuWorld σ} {model sampler c : Nat} {texts : List Bytes}
  {kv : σ → Nat → Cells}

/-- **What is documented of the cache of a context**: clearing empties it, a decode appends its whole
batch at the next positions or adds nothing, and a sample only reads it. -/
structure NpuDocumented (N : NpuLlama σ) (kv : σ → Nat → Cells) : Prop where
  cleared : ∀ c s, kv (N.kvCacheClear c s) c = []
  decoded : ∀ c batch s, kv (N.decode c batch s).2 c =
    if (N.decode c batch s).1 = 0 then kv s c ++ placeFrom (nextPos (kv s c)) batch else kv s c
  sampled : ∀ sampler c s, kv (N.samplerSample sampler c s).2 c = kv s c

/-- The texts of tokens. -/
def NpuTexts (N : NpuLlama σ) (model : Nat) (tokens : List Token) (texts : List Bytes) : Prop :=
  List.Forall₂ (fun tok t => npuPieceText N model tok = .ok t) tokens texts

/-- **A run of the loop** of `infer`, in so many rounds: the tokens that were decoded, and the one whose
decode failed. -/
inductive NpuGeneration (N : NpuLlama σ) (model sampler c : Nat) :
    Nat → σ → List Token → Option Token → σ → Prop
  | stops (s : σ) : NpuGeneration N model sampler c 0 s [] none s
  | samplesEnd {rounds : Nat} {s : σ}
      (isEnd : N.tokenIsEog model (N.samplerSample sampler c s).1 = true) :
      NpuGeneration N model sampler c (rounds + 1) s [] none (N.samplerSample sampler c s).2
  | fails {rounds : Nat} {s s' : σ} {tok : Token} (sampled : N.samplerSample sampler c s = (tok, s'))
      (goes : N.tokenIsEog model tok = false) (failed : (N.decode c [tok] s').1 ≠ 0) :
      NpuGeneration N model sampler c (rounds + 1) s [] (some tok) (N.decode c [tok] s').2
  | decodes {rounds : Nat} {s s' s'' : σ} {tok : Token} {tokens : List Token} {failed : Option Token}
      (sampled : N.samplerSample sampler c s = (tok, s')) (goes : N.tokenIsEog model tok = false)
      (decoded : (N.decode c [tok] s').1 = 0)
      (later : NpuGeneration N model sampler c rounds (N.decode c [tok] s').2 tokens failed s'') :
      NpuGeneration N model sampler c (rounds + 1) s (tok :: tokens) failed s''

namespace NpuGeneration

variable {rounds : Nat} {s s' : σ} {tokens : List Token} {failed : Option Token}

/-- There are no more tokens than rounds, and none of them ends a text. -/
theorem few (loop : NpuGeneration N model sampler c rounds s tokens failed s') :
    (tokens ++ failed.toList).length ≤ rounds ∧
      ∀ tok ∈ tokens ++ failed.toList, N.tokenIsEog model tok = false := by
  induction loop with
  | stops | samplesEnd => exact ⟨Nat.zero_le _, List.forall_mem_nil _⟩
  | fails sampled goes failed =>
    exact ⟨Nat.succ_le_succ (Nat.zero_le _), List.forall_mem_singleton.mpr goes⟩
  | decodes sampled goes decoded later ih =>
    exact ⟨Nat.succ_le_succ ih.1, List.forall_mem_cons.mpr ⟨goes, ih.2⟩⟩

/-- **The cache grows by the tokens** that were decoded. -/
theorem cache (doc : NpuDocumented N kv)
    (loop : NpuGeneration N model sampler c rounds s tokens failed s') {earlier : List Token}
    (mirrors : kv s c = mirror earlier) : kv s' c = mirror (earlier ++ tokens) := by
  induction loop generalizing earlier with
  | stops => rwa [List.append_nil]
  | samplesEnd => rwa [List.append_nil, doc.sampled]
  | @fails rounds s s' tok sampled goes failed =>
    rw [List.append_nil, doc.decoded, if_neg failed, ← mirrors, ← doc.sampled sampler c s, sampled]
  | @decodes rounds s s' s'' tok tokens failed sampled goes decoded later ih =>
    have grown : kv (N.decode c [tok] s').2 c = mirror (earlier ++ [tok]) := by
      have before : kv s' c = mirror earlier := by
        rw [← mirrors, ← doc.sampled sampler c s, sampled]
      rw [doc.decoded, if_pos decoded, before, mirror_append]
    rw [ih grown, List.append_assoc]
    rfl

end NpuGeneration

/-- **The loop** is such a run, and `onToken` is called with the text of each token. -/
theorem npuDecodeLoop_generates {rounds : Nat} (has : w.mSampler = some sampler)
    (result : npuDecodeLoop N model c rounds w = .ok (texts, w')) :
    ∃ tokens failed, NpuGeneration N model sampler c rounds w.llama tokens failed w'.llama ∧
      NpuTexts N model (tokens ++ failed.toList) texts := by
  induction rounds generalizing w texts with
  | zero =>
    cases result
    exact ⟨[], none, .stops _, .nil⟩
  | succ rounds ih =>
    rw [npuDecodeLoop, has] at result
    dsimp only at result
    split at result
    · rename_i isEnd
      cases result
      exact ⟨[], none, .samplesEnd isEnd, .nil⟩
    · rename_i goes
      have goes' := Bool.eq_false_iff.mpr goes
      obtain ⟨text, piece, result⟩ := bind_eq_ok.mp result
      split at result
      · rename_i failed
        cases result
        exact ⟨[], some _, .fails rfl goes' failed, .cons piece .nil⟩
      · rename_i decoded
        obtain ⟨⟨later, w1⟩, rest, result⟩ := bind_eq_ok.mp result
        cases result
        obtain ⟨tokens, failed, loop, said⟩ := ih (by exact has) rest
        exact ⟨_, failed, .decodes rfl goes' (not_not.mp decoded) loop, .cons piece said⟩

/-- A token without a text is all that stops the loop. -/
theorem npuDecodeLoop_fault {rounds : Nat} {fault : NpuFault} (has : w.mSampler = some sampler)
    (result : npuDecodeLoop N model c rounds w = .error fault) :
    fault = .lengthError ∧
      ∃ tok, N.tokenIsEog model tok = false ∧ (N.tokenToPiece model tok).1 < 0 := by
  induction rounds generalizing w with
  | zero => cases result
  | succ rounds ih =>
    rw [npuDecodeLoop, has] at result
    dsimp only at result
    split at result
    · cases result
    · rename_i goes
      rcases bind_eq_error.mp result with stopped | ⟨text, piece, result⟩
      · rw [npuPieceText] at stopped
        split at stopped
        · rename_i negative
          cases stopped
          exact ⟨rfl, _, Bool.eq_false_iff.mpr goes, negative⟩
        · cases stopped
      · split at result
        · cases result
        · rcases bind_eq_error.mp result with stopped | ⟨later, rest, result⟩
          · exact ih (by exact has) stopped
          · cases result

/-! ### The pointers -/

/-- **The pointers fit together**: a context comes with a sampler, and was created from the model that is
there, if any is. -/
structure Wired (w : NpuWorld σ) : Prop where
  sampler : ∀ c, w.mCtx = some c → ∃ sampler, w.mSampler = some sampler
  context : ∀ c model, w.mCtx = some c → w.mModel = some model → w.ctxModel c = some model

theorem Wired.start (llama : σ) : Wired (NpuWorld.start llama) where
  sampler := fun c held => by cases held
  context := fun c model held => by cases held

/-- A load, also one that fails half-way, keeps them so. -/
theorem Loading.wired {call : LoadCall} {ok : Bool} (loading : Loading N call w ok w')
    (wired : Wired w) : Wired w' := by
  cases loading with
  | noModel refused llama =>
    refine ⟨wired.sampler, fun c model _ held => ?_⟩
    cases held
  | noContext loaded refused llama =>
    refine ⟨fun c held => ?_, fun c model held => ?_⟩
    · cases held
    · cases held
  | loads loaded created llama =>
    refine ⟨fun c _ => ⟨_, rfl⟩, fun c model context held => ?_⟩
    cases context
    cases held
    exact Function.update_self ..

/-- Every command does. -/
theorem serveNpu_wired {command : Command} {reply : Bytes} (wired : Wired w)
    (served : serveNpu N command w = .ok (reply, w')) : Wired w' := by
  rcases serveNpu_cases served with ⟨call, _, rfl⟩ | ⟨_, llama, rfl⟩
  · exact (load_loading N call w).wired wired
  · exact ⟨wired.sampler, wired.context⟩

/-! ### One question -/

/-- **What a question is answered**, and the engine after it. -/
inductive OneShot (N : NpuLlama σ) (kv : σ → Nat → Cells) (prompt : Bytes) (maxTokens : Int)
    (w : NpuWorld σ) : Bytes → NpuWorld σ → Prop
  | notReady (none : w.mModel = none) : OneShot N kv prompt maxTokens w (text "ERROR NPU_NOT_READY\n") w
  | noContext {model : Nat} (held : w.mModel = some model) (none : w.mCtx = none) :
      OneShot N kv prompt maxTokens w (text "ERROR NPU_INFER_FAILED\n") w
  | prefillFails {c model : Nat} {llama : σ} (held : w.mModel = some model) (context : w.mCtx = some c)
      (failed : (N.decode c (N.tokenize model prompt) (N.kvCacheClear c w.llama)).1 ≠ 0)
      (empty : kv llama c = []) :
      OneShot N kv prompt maxTokens w (text "ERROR NPU_INFER_FAILED\n") { w with llama := llama }
  | streams {c model sampler : Nat} {s llama : σ} {tokens : List Token} {failed : Option Token}
      {texts : List Bytes} (held : w.mModel = some model) (context : w.mCtx = some c)
      (has : w.mSampler = some sampler) (created : w.ctxModel c = some model)
      (prefill : kv s c = mirror (N.tokenize model prompt))
      (generated : NpuGeneration N model sampler c maxTokens.toNat s tokens failed llama)
      (few : (tokens ++ failed.toList).length ≤ maxTokens.toNat)
      (goes : ∀ tok ∈ tokens ++ failed.toList, N.tokenIsEog model tok = false)
      (said : NpuTexts N model (tokens ++ failed.toList) texts)
      (cache : kv llama c = mirror (N.tokenize model prompt ++ tokens)) :
      OneShot N kv prompt maxTokens w (texts.flatMap tokenLine ++ text "DONE\n")
        { w with llama := llama }

/-- What the prompt leaves in the cache: its tokens from position 0 on. -/
theorem prefilled (doc : NpuDocumented N kv) {batch : List Token} {s : σ}
    (decoded : (N.decode c batch (N.kvCacheClear c s)).1 = 0) :
    kv (N.decode c batch (N.kvCacheClear c s)).2 c = mirror batch := by
  rw [doc.decoded, if_pos decoded, doc.cleared]
  exact mirror_append [] batch

/-- What `infer` answers on an engine whose pointers fit together. -/
theorem npuInfer_oneShot (doc : NpuDocumented N kv) (wired : Wired w) {prompt : Bytes} {maxTokens : Int}
    {ok : Bool} (held : w.mModel = some model)
    (result : npuInfer N prompt maxTokens w = .ok ((ok, texts), w')) :
    OneShot N kv prompt maxTokens w (texts.flatMap tokenLine ++
      (if ok then text "DONE\n" else text "ERROR NPU_INFER_FAILED\n")) w' := by
  rw [npuInfer, held] at result
  split at result
  · rename_i none'
    cases result
    exact .noContext held none'
  · rename_i c context
    dsimp only at result
    split at result
    · rename_i failed
      cases result
      refine .prefillFails held context failed ?_
      rw [doc.decoded, if_neg failed, doc.cleared]
    · rename_i decoded
      obtain ⟨⟨streamed, w1⟩, looped, result⟩ := bind_eq_ok.mp result
      cases result
      obtain ⟨sampler, has⟩ := wired.sampler c context
      obtain ⟨tokens, failed, loop, said⟩ := npuDecodeLoop_generates (by exact has) looped
      obtain ⟨llama, rfl⟩ := npuDecodeLoop_frame looped
      have prefill := prefilled doc (not_not.mp decoded)
      exact .streams held context has (wired.context c model context held) prefill loop loop.few.1
        loop.few.2 said (loop.cache doc prefill)

/-- What stops `infer` on an engine whose pointers fit together. -/
theorem npuInfer_fault (wired : Wired w) {prompt : Bytes} {maxTokens : Int} {fault : NpuFault}
    (held : w.mModel = some model) (result : npuInfer N prompt maxTokens w = .error fault) :
    fault = .lengthError ∧
      ∃ tok, N.tokenIsEog model tok = false ∧ (N.tokenToPiece model tok).1 < 0 := by
  rw [npuInfer, held] at result
  split at result
  · cases result
  · rename_i c context
    dsimp only at result
    split at result
    · cases result
    · obtain ⟨sampler, has⟩ := wired.sampler c context
      rcases bind_eq_error.mp result with stopped | ⟨looped, _, result⟩
      · exact npuDecodeLoop_fault (by exact has) stopped
      · cases result

/-- **Each question stands alone**, after any commands: it streams the texts of the tokens it generates,
no more than it was asked for, and leaves the cache with the tokens of its prompt and of these from
position 0 on, in a context of the model that is there; or it is refused. It never uses a null pointer:
all that stops it is a token without a text. -/
theorem npu_one_shot (N : NpuLlama σ) (doc : NpuDocumented N kv) {llama : σ} {commands : List Command}
    (reach : run (serveNpu N) commands (NpuWorld.start llama) = .ok w) (maxTokens : Int)
    (prompt : Bytes) :
    (∀ reply w', serveNpu N (.npuInfer maxTokens prompt) w = .ok (reply, w') →
        OneShot N kv prompt maxTokens w reply w') ∧
      ∀ fault, serveNpu N (.npuInfer maxTokens prompt) w = .error fault →
        fault = .lengthError ∧ ∃ model tok, w.mModel = some model ∧
          N.tokenIsEog model tok = false ∧ (N.tokenToPiece model tok).1 < 0 := by
  have wired : Wired w :=
    run_invariant' (fun _ _ _ _ wired served => serveNpu_wired wired served) (.start llama) reach
  cases held : w.mModel with
  | none =>
    have refused : serveNpu N (.npuInfer maxTokens prompt) w =
        .ok (text "ERROR NPU_NOT_READY\n", w) := by
      rw [serveNpu, NpuLLMEngine.isReady, held]
      rfl
    constructor
    · intro reply w' served
      cases refused.symm.trans served
      exact .notReady held
    · intro fault served
      cases refused.symm.trans served
  | some model =>
    have ready : ¬ ¬ w.isReady = true := by
      rw [NpuLLMEngine.isReady, held]
      exact not_not.mpr rfl
    constructor
    · intro reply w' served
      rw [serveNpu, if_neg ready] at served
      obtain ⟨⟨⟨ok, texts⟩, w1⟩, inferred, served⟩ := bind_eq_ok.mp served
      cases served
      exact npuInfer_oneShot doc wired held inferred
    · intro fault served
      rw [serveNpu, if_neg ready] at served
      rcases bind_eq_error.mp served with stopped | ⟨answer, _, served⟩
      · obtain ⟨same, tok, goes, negative⟩ := npuInfer_fault wired held stopped
        exact ⟨same, model, tok, rfl, goes, negative⟩
      · cases served

/-- A llama with room for six tokens in a cache. It reads a prompt byte by byte, goes on with the number
of the cell that comes next, and ends with the fifth. -/
def npuCells : NpuLlama (Nat → Cells) where
  backendInit := id
  backendLoadAll := fun _ => id
  loadModelFromFile := fun _ _ s => (true, s)
  newContextWithModel := fun name _ _ _ s => (true, Function.update s name [])
  samplerChainInit := fun _ => id
  samplerFree := fun _ => id
  free := fun _ => id
  freeModel := fun _ => id
  backendFree := id
  tokenBos := fun _ => none
  decode := fun c batch s =>
    if (s c).length + batch.length ≤ 6 then
      (0, Function.update s c (s c ++ placeFrom (nextPos (s c)) batch))
    else (1, s)
  kvCacheClear := fun c s => Function.update s c []
  tokenize := fun _ prompt => prompt.map fun byte => byte.toNat
  samplerSample := fun _ c s => ((s c).length, s)
  tokenIsEog := fun _ tok => decide (tok = 5)
  tokenToPiece := fun _ _ => (1, text "x")

theorem npuCells_documented : NpuDocumented npuCells fun s c => s c where
  cleared := fun c s => Function.update_self ..
  decoded := fun c batch s => by
    simp only [npuCells]
    split
    · rw [if_pos rfl]
      exact Function.update_self ..
    · exact (if_neg Int.one_ne_zero).symm
  sampled := fun sampler c s => rfl

/-- A question is asked, then another. -/
theorem npu_one_shot_twice :
    ∃ w reply w', run (serveNpu npuCells)
        [.npuLoad (text "/m") (text "/b") 6 4, .npuInfer 8 (text "abc")]
        (NpuWorld.start fun _ => []) = .ok w ∧
      w.llama 1 = [(0, 97), (1, 98), (2, 99), (3, 3), (4, 4)] ∧
      serveNpu npuCells (.npuInfer 2 (text "d")) w = .ok (reply, w') ∧
      w'.llama 1 = [(0, 100), (1, 1), (2, 2)] ∧
      OneShot npuCells (fun s c => s c) (text "d") 2 w reply w' := by
  obtain ⟨w, reach, before, answer⟩ : ∃ w, run (serveNpu npuCells)
      [.npuLoad (text "/m") (text "/b") 6 4, .npuInfer 8 (text "abc")]
      (NpuWorld.start fun _ => []) = .ok w ∧
      w.llama 1 = [(0, 97), (1, 98), (2, 99), (3, 3), (4, 4)] ∧
      Gives (fun served => served.2.llama 1 = [(0, 100), (1, 1), (2, 2)])
        (serveNpu npuCells (.npuInfer 2 (text "d")) w) := by
    refine gives_iff.mp ?_
    decide +kernel
  obtain ⟨⟨reply, w'⟩, served, after⟩ := gives_iff.mp answer
  exact ⟨w, reply, w', reach, before, served, after,
    (npu_one_shot npuCells npuCells_documented reach 2 (text "d")).1 reply w' served⟩

end MiniV
