/-
**What can bring the whole daemon down.**

The socket's commands reach both engines. Those of the NPU add one more way to end the process to those of
the session engine: a question to the NPU that generates a token whose piece does not fit the buffer. Its
pointers are never used while they are null.

* `npuInfer_generated`: an inference of the NPU, in terms of the tokens that it generates;
* `ServerCrash`, `serverStep_error_iff`: the causes;
* `crashes_iff`: a run faults exactly at its first action with such a cause.
-/

import MiniV.Daemon.Crash
import MiniV.Daemon.Lengths
import MiniV.Daemon.Server
import MiniV.Npu.OneShot

namespace MiniV

open MiniV.Library

/-! ### What the NPU generates -/

/-- **The tokens that an inference of the NPU generates**: none without a context, or when the prompt is
not decoded. -/
def npuGenerated {τ : Type} (N : NpuLlama τ) (prompt : Bytes) (maxTokens : Int) (v : NpuWorld τ) :
    List Token :=
  match v.mModel, v.mCtx, v.mSampler with
  | some model, some ctx, some sampler =>
    let prefill := N.decode ctx (N.tokenize model prompt) (N.kvCacheClear ctx v.llama)
    if prefill.1 = 0 then
      emitted (npuGenerator N model ctx sampler) (fun _ => false) maxTokens.toNat 0 prefill.2
    else []
  | _, _, _ => []

section Generated

variable {τ : Type} {N : NpuLlama τ} {v v' : NpuWorld τ} {model ctx sampler : Nat} {texts : List Bytes}

/-- The loop hands out one text for each token. -/
theorem npuDecodeLoop_length {rounds i : Nat} (has : v.mSampler = some sampler)
    (result : npuDecodeLoop N model ctx rounds v = .ok (texts, v')) :
    texts.length =
      (emitted (npuGenerator N model ctx sampler) (fun _ => false) rounds i v.llama).length := by
  let g := npuGenerator N model ctx sampler
  induction rounds generalizing i v texts with
  | zero =>
    cases result
    rfl
  | succ rounds ih =>
    rw [npuDecodeLoop, has] at result
    dsimp only at result
    split at result
    · rename_i isEnd
      cases result
      have none' : emitted g (fun _ => false) (rounds + 1) i v.llama = [] := emitted_end isEnd
      rw [none']
      rfl
    · rename_i goes
      obtain ⟨text, _, result⟩ := bind_eq_ok.mp result
      split at result
      · rename_i failed
        cases result
        have one : emitted g (fun _ => false) (rounds + 1) i v.llama = [(g.sample v.llama).1] :=
          emitted_last Bool.false_ne_true goes fun fed => failed (of_decide_eq_true fed)
        rw [one]
        rfl
      · rename_i decoded
        obtain ⟨⟨later, v1⟩, rest, result⟩ := bind_eq_ok.mp result
        cases result
        have more : emitted g (fun _ => false) (rounds + 1) i v.llama = (g.sample v.llama).1 ::
            emitted g (fun _ => false) rounds (i + 1) (g.next v.llama).2 :=
          emitted_round Bool.false_ne_true goes (decide_eq_true (not_not.mp decoded))
        have same := ih (i := i + 1) (by exact has) rest
        rw [more, List.length_cons, List.length_cons, same]
        rfl

/-- **The loop** gives a text for each token, or throws at one without. -/
theorem npuDecodeLoop_generated (model ctx rounds : Nat) (has : v.mSampler = some sampler) :
    let tokens := emitted (npuGenerator N model ctx sampler) (fun _ => false) rounds 0 v.llama
    (∃ texts v', npuDecodeLoop N model ctx rounds v = .ok (texts, v') ∧ texts.length = tokens.length ∧
        ∀ tok ∈ tokens, 0 ≤ (N.tokenToPiece model tok).1) ∨
      npuDecodeLoop N model ctx rounds v = .error .lengthError ∧
        ∃ tok ∈ tokens, (N.tokenToPiece model tok).1 < 0 := by
  intro tokens
  have fits : npuDecodeLoop N model ctx rounds v ≠ .error .lengthError ↔
      ∀ tok ∈ tokens, 0 ≤ (N.tokenToPiece model tok).1 :=
    (npuDecodeLoop_throws has).trans allEmitted_iff
  cases result : npuDecodeLoop N model ctx rounds v with
  | ok answer =>
    refine Or.inl ⟨answer.1, answer.2, rfl, npuDecodeLoop_length has result, fits.mp ?_⟩
    rw [result]
    nofun
  | error fault =>
    obtain rfl := (npuDecodeLoop_fault has result).1
    have long : ¬ ∀ tok ∈ tokens, 0 ≤ (N.tokenToPiece model tok).1 := fun all => fits.mpr all result
    push Not at long
    exact Or.inr ⟨rfl, long⟩

/-- **An inference of the NPU** on an engine whose pointers fit together. -/
theorem npuInfer_generated (wired : Wired v) (held : v.mModel = some model) (prompt : Bytes)
    (maxTokens : Int) :
    let tokens := npuGenerated N prompt maxTokens v
    (∃ ok texts v', npuInfer N prompt maxTokens v = .ok ((ok, texts), v') ∧
        texts.length = tokens.length ∧ ∀ tok ∈ tokens, 0 ≤ (N.tokenToPiece model tok).1) ∨
      npuInfer N prompt maxTokens v = .error .lengthError ∧
        ∃ tok ∈ tokens, (N.tokenToPiece model tok).1 < 0 := by
  intro tokens
  cases context : v.mCtx with
  | none =>
    have nothing : tokens = [] := by
      simp only [tokens, npuGenerated, held, context]
    rw [nothing]
    refine Or.inl ⟨false, [], v, ?_, rfl, List.forall_mem_nil _⟩
    rw [npuInfer, context]
  | some ctx =>
    obtain ⟨sampler, has⟩ := wired.sampler ctx context
    -- the engine after the decode of the prompt
    let v1 : NpuWorld τ :=
      { v with llama := (N.decode ctx (N.tokenize model prompt) (N.kvCacheClear ctx v.llama)).2 }
    by_cases failed : (N.decode ctx (N.tokenize model prompt) (N.kvCacheClear ctx v.llama)).1 ≠ 0
    · have nothing : tokens = [] := by
        simp only [tokens, npuGenerated, held, context, has, if_neg failed]
      rw [nothing]
      refine Or.inl ⟨false, [], v1, ?_, rfl, List.forall_mem_nil _⟩
      rw [npuInfer, context, held]
      exact if_pos failed
    · have generated : tokens = emitted (npuGenerator N model ctx sampler) (fun _ => false)
          maxTokens.toNat 0
          (N.decode ctx (N.tokenize model prompt) (N.kvCacheClear ctx v.llama)).2 := by
        simp only [tokens, npuGenerated, held, context, has, if_pos (not_not.mp failed)]
      rw [generated, npuInfer, context, held]
      dsimp only
      rw [if_neg failed]
      have has1 : v1.mSampler = some sampler := has
      rcases npuDecodeLoop_generated (N := N) model ctx maxTokens.toNat has1 with
        ⟨texts, v', loop, many, fits⟩ | ⟨throws, long⟩
      · rw [loop]
        exact Or.inl ⟨true, texts, v', rfl, many, fits⟩
      · rw [throws]
        exact Or.inr ⟨rfl, long⟩

end Generated

/-! ### The causes -/

/-- **Why an action brings the whole daemon down**: as far as the session engine is concerned, or a
question to the NPU generates a token whose piece does not fit the buffer. -/
inductive ServerCrash {σ τ : Type} (L : Llama σ) (N : NpuLlama τ) (s : Server σ τ) :
    Action → Fault ⊕ NpuFault → Prop
  | engine {action : Action} {e : Fault} (crash : Crash L s.daemon action e) :
      ServerCrash L N s action (.inl e)
  | npuLongPiece {maxTokens : Int} {prompt : Bytes} {model : Nat} {tok : Token}
      (free : s.daemon.threads .socket = none) (held : s.npu.mModel = some model)
      (generated : tok ∈ npuGenerated N prompt maxTokens s.npu)
      (long : (N.tokenToPiece model tok).1 < 0) :
      ServerCrash L N s (.command (.npuInfer maxTokens prompt)) (.inr .lengthError)

variable {σ τ : Type} {L : Llama σ} {N : NpuLlama τ} {s s' : Server σ τ} {v : NpuWorld τ}
  {action : Action} {command : Command}

/-- **A command of the NPU faults** just when it asks for a token whose piece does not fit. -/
theorem serveNpu_error_iff (wired : Wired v) {e : NpuFault} : serveNpu N command v = .error e ↔
    e = .lengthError ∧ ∃ maxTokens prompt model tok, command = .npuInfer maxTokens prompt ∧
      v.mModel = some model ∧ tok ∈ npuGenerated N prompt maxTokens v ∧
        (N.tokenToPiece model tok).1 < 0 := by
  constructor
  · intro fault
    cases command with
    | npuInfer maxTokens prompt =>
      rw [serveNpu] at fault
      split at fault
      · cases fault
      · rename_i ready
        obtain ⟨model, held⟩ := Option.isSome_iff_exists.mp (not_not.mp ready)
        rcases bind_eq_error.mp fault with throws | ⟨_, _, done⟩
        · rcases npuInfer_generated wired held prompt maxTokens with ⟨_, _, _, fine, _⟩ | ⟨long, tok, here⟩
          · rw [throws] at fine
            cases fine
          · rw [throws, Except.error.injEq] at long
            exact ⟨long, maxTokens, prompt, model, tok, rfl, held, here⟩
        · cases done
    | npuLoad | createSession | killSession | setHotLimit | setColdLimit | infer | hello | ignored =>
      cases fault
  · rintro ⟨rfl, maxTokens, prompt, model, tok, rfl, held, generated, long⟩
    have ready : ¬ ¬ v.isReady = true := by
      rw [NpuLLMEngine.isReady, held]
      exact not_not.mpr rfl
    rw [serveNpu, if_neg ready]
    rcases npuInfer_generated wired held prompt maxTokens with ⟨_, _, _, _, _, fits⟩ | ⟨throws, _⟩
    · exact absurd (fits tok generated) (not_le.mpr long)
    · rw [throws, error_bind]

theorem onDaemon_error_iff (rep : Rep s.daemon.world) {took : Option Command}
    {e : Fault ⊕ NpuFault} : onDaemon L took action s = .error e ↔
      ∃ e', e = .inl e' ∧ Crash L s.daemon action e' := by
  have crash : ∀ {e'}, step L action s.daemon = .error e' ↔ _ := fun {e'} => step_error_iff rep
  simp only [← crash]
  unfold onDaemon
  cases step L action s.daemon <;> simp [eq_comm]

theorem onNpu_error_iff {e : Fault ⊕ NpuFault} : onNpu N command s = .error e ↔
    ∃ e', e = .inr e' ∧ serveNpu N command s.npu = .error e' := by
  unfold onNpu
  cases serveNpu N command s.npu <;> simp [eq_comm]

/-- Anything but a question to the NPU concerns the session engine alone. -/
theorem ServerCrash.engine_iff {e : Fault ⊕ NpuFault}
    (other : ∀ maxTokens prompt, action ≠ .command (.npuInfer maxTokens prompt)) :
    ServerCrash L N s action e ↔ ∃ e', e = .inl e' ∧ Crash L s.daemon action e' := by
  constructor
  · intro crash
    cases crash with
    | engine crash => exact ⟨_, rfl, crash⟩
    | npuLongPiece => exact absurd rfl (other _ _)
  · rintro ⟨e', rfl, crash⟩
    exact .engine crash

/-- A command of the NPU has no other cause than its piece. -/
theorem ServerCrash.npu_iff (wired : Wired s.npu) (free : s.daemon.threads .socket = none)
    (npu : command.forNpu = true) {e : Fault ⊕ NpuFault} :
    ServerCrash L N s (.command command) e ↔ ∃ e', e = .inr e' ∧
      serveNpu N command s.npu = .error e' := by
  have noCall : commandCall s.daemon command = none := by
    cases command with
    | npuLoad | npuInfer => rfl
    | createSession | killSession | setHotLimit | setColdLimit | infer | hello | ignored => cases npu
  constructor
  · intro crash
    cases crash with
    | engine crash =>
      cases crash with
      | nullManager _ _ call =>
        rw [noCall] at call
        cases call
    | npuLongPiece _ held generated long =>
      exact ⟨_, rfl, (serveNpu_error_iff wired).mpr ⟨rfl, _, _, _, _, rfl, held, generated, long⟩⟩
  · rintro ⟨e', rfl, fault⟩
    obtain ⟨rfl, maxTokens, prompt, model, tok, rfl, held, generated, long⟩ :=
      (serveNpu_error_iff wired).mp fault
    exact .npuLongPiece free held generated long

/-- While the socket's inference runs no command is taken. -/
theorem ServerCrash.busy {e : Fault ⊕ NpuFault} (taken : s.daemon.threads .socket ≠ none) :
    ¬ ServerCrash L N s (.command command) e := by
  intro crash
  cases crash with
  | engine crash =>
    cases crash with
    | nullManager free => exact taken free
  | npuLongPiece free => exact taken free

/-- **An action faults** just when it has a cause to. -/
theorem serverStep_error_iff (rep : Rep s.daemon.world) (wired : Wired s.npu)
    {e : Fault ⊕ NpuFault} : serverStep L N action s = .error e ↔ ServerCrash L N s action e := by
  have engine : (∀ maxTokens prompt, action ≠ .command (.npuInfer maxTokens prompt)) →
      (onDaemon L none action s = .error e ↔ ServerCrash L N s action e) := fun other =>
    (onDaemon_error_iff rep).trans (ServerCrash.engine_iff other).symm
  cases action with
  | command command =>
    rw [serverStep]
    by_cases busy : (s.daemon.threads .socket).isSome = true
    · rw [if_pos busy]
      exact iff_of_false (by simp) (ServerCrash.busy (Option.isSome_iff_ne_none.mp busy))
    · have free : s.daemon.threads .socket = none := Option.not_isSome_iff_eq_none.mp busy
      rw [if_neg busy]
      by_cases npu : command.forNpu = true
      · rw [if_pos npu, onNpu_error_iff, ServerCrash.npu_iff wired free npu]
      · rw [if_neg npu, onDaemon_error_iff rep, ServerCrash.engine_iff]
        rintro maxTokens prompt same
        cases same
        exact npu rfl
  | createSession | destroySession | inferStream | cancel | advance =>
    exact engine (by simp)

/-! ### Whole runs -/

variable {ready : Bool} {nCtx : Nat} {swapDir : Bytes} {llama : σ} {npuLlama : τ} {actions : List Action}

/-- The manager of the whole daemon is in one of its states. -/
theorem reached_of_server
    (reach : run (serverStep L N) actions (Server.start ready nCtx swapDir llama npuLlama) = .ok s) :
    Reached L nCtx swapDir s.daemon.world :=
  reached_of_daemon (run_daemon reach)

/-- The pointers of its NPU engine fit together. -/
theorem wired_of_server
    (reach : run (serverStep L N) actions (Server.start ready nCtx swapDir llama npuLlama) = .ok s) :
    Wired s.npu := by
  refine run_invariant' (I := fun s : Server σ τ => Wired s.npu) ?_ (.start npuLlama) reach
  intro s action exchange s' wired result
  rcases serverStep_npu result with same | ⟨command, out, served⟩
  · rw [same]
    exact wired
  · exact serveNpu_wired wired served

/-- **A run of the whole daemon crashes** exactly at its first action with a cause to, in whatever order
binder calls, the socket's commands to both engines and the steps of inferences come. -/
theorem crashes_iff (L : Llama σ) (N : NpuLlama τ) (ready : Bool) (nCtx : Nat) (swapDir : Bytes)
    (llama : σ) (npuLlama : τ) (actions : List Action) (e : Fault ⊕ NpuFault) :
    run (serverStep L N) actions (Server.start ready nCtx swapDir llama npuLlama) = .error e ↔
      ∃ before action after s, actions = before ++ action :: after ∧
        run (serverStep L N) before (Server.start ready nCtx swapDir llama npuLlama) = .ok s ∧
          ServerCrash L N s action e := by
  rw [run_error_iff]
  have exactly : ∀ {before s action}, run (serverStep L N) before
      (Server.start ready nCtx swapDir llama npuLlama) = .ok s →
        (serverStep L N action s = .error e ↔ ServerCrash L N s action e) :=
    fun reach => serverStep_error_iff (reached_of_server reach).rep (wired_of_server reach)
  constructor
  · rintro ⟨before, action, after, s, same, reach, fault⟩
    exact ⟨before, action, after, s, same, reach, (exactly reach).mp fault⟩
  · rintro ⟨before, action, after, s, same, reach, crash⟩
    exact ⟨before, action, after, s, same, reach, (exactly reach).mpr crash⟩

end MiniV
