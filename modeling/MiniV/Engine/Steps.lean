/-
**An inference, step by step.**

The HAL runs each inference on a thread of its own. What it shares with the others is the manager and
what llama holds, so a step is one call of the manager, one sample or one decode, and `Pc` says which
comes next and with what. The context that `activateForInfer` gave out is used by many steps, and
using it once it is freed is undefined.

`alone_infer`: an inference that runs alone gets through its steps to what `infer` computes.
-/

import MiniV.Engine.Infer
import MiniV.Session.Release

namespace MiniV

open MiniV.Library

/-- What an inference does next. -/
inductive Pc
  | activate
  | prefill (ctx : Ctx)
  | recordPrompt (ctx : Ctx)
  | head (ctx : Ctx) (i : Nat) (generated : List Token)
  | sample (ctx : Ctx) (i : Nat) (generated : List Token)
  | decode (ctx : Ctx) (i : Nat) (generated : List Token) (tok : Token)
  | recordGenerated (generated : List Token)
  | returned (ok : Bool)
deriving DecidableEq, Repr

/-- An inference: the arguments of `infer`, and what it does next. -/
structure Inference where
  sessionId : Int
  prompt : Bytes
  maxTokens : Int
  pc : Pc := .activate
deriving DecidableEq, Repr

/-- The test `i < maxTokens` of the decode loop. -/
def loopTest (ctx : Ctx) (maxTokens : Int) (i : Nat) (generated : List Token) : Pc :=
  if (i : Int) < maxTokens then .head ctx i generated else .recordGenerated generated

/-- One step of an inference whose cancel flag reads `cancelled`: what it does next, and the text
given to `onToken`. -/
def inferStep {σ : Type} (L : Llama σ) (cancelled : Bool) (inference : Inference) (w : World σ) :
    Except Fault ((Pc × Option Bytes) × World σ) :=
  match inference.pc with
  | .activate => do
    let (ctx, w) ← activateForInfer L inference.sessionId w
    match ctx with
    | none => .ok ((.returned false, none), w)
    | some ctx => .ok ((.prefill ctx, none), w)
  | .prefill ctx =>
    if ctx ∈ w.freed then .error .freedContext
    else
      let (rc, w) := decodeBatch L ctx (L.tokenize inference.prompt) w
      .ok ((if rc ≠ 0 then .returned false else .recordPrompt ctx, none), w)
  | .recordPrompt ctx => do
    let w ← recordTokens L inference.sessionId (L.tokenize inference.prompt) w
    if inference.maxTokens < 0 then .error .lengthError
    else .ok ((loopTest ctx inference.maxTokens 0 [], none), w)
  | .head ctx i generated =>
    .ok ((if cancelled then .recordGenerated generated else .sample ctx i generated, none), w)
  | .sample ctx i generated =>
    if ctx ∈ w.freed then .error .freedContext
    else
      let sample := L.samplerSample ctx w.llama
      let w := w.outside sample.2
      if L.vocabIsEog sample.1 then .ok ((.recordGenerated generated, none), w)
      else do
        let text ← pieceText L sample.1
        .ok ((.decode ctx i (generated ++ [sample.1]) sample.1, some text), w)
  | .decode ctx i generated tok =>
    if ctx ∈ w.freed then .error .freedContext
    else
      let (rc, w) := decodeBatch L ctx [tok] w
      let w := w.note (.loopDecode rc)
      .ok ((if rc ≠ 0 then .recordGenerated generated
        else loopTest ctx inference.maxTokens (i + 1) generated, none), w)
  | .recordGenerated generated => do
    let w ← recordTokens L inference.sessionId generated w
    .ok ((.returned true, none), w)
  | .returned ok => .ok ((.returned ok, none), w)

/-! ### What a step does -/

/-- The world after `llama_decode` of one generated token. -/
def loopDecodedOf {σ : Type} (L : Llama σ) (ctx : Ctx) (tok : Token) (w : World σ) : World σ :=
  (decodeBatch L ctx [tok] w).2.note (.loopDecode (decodeBatch L ctx [tok] w).1)

/-- **One step of an inference**: what it does next, and the world after it. -/
inductive Stepped {σ : Type} (L : Llama σ) (cancelled : Bool) (inference : Inference) (w : World σ) :
    Pc → World σ → Prop
  | noContext {w' : World σ} (here : inference.pc = .activate)
      (active : activateForInfer L inference.sessionId w = .ok (none, w')) :
      Stepped L cancelled inference w (.returned false) w'
  | activates {ctx : Ctx} {w' : World σ} (here : inference.pc = .activate)
      (active : activateForInfer L inference.sessionId w = .ok (some ctx, w')) :
      Stepped L cancelled inference w (.prefill ctx) w'
  | prefillFails {ctx : Ctx} (here : inference.pc = .prefill ctx) (alive : ctx ∉ w.freed)
      (failed : (decodeBatch L ctx (L.tokenize inference.prompt) w).1 ≠ 0) :
      Stepped L cancelled inference w (.returned false)
        (decodeBatch L ctx (L.tokenize inference.prompt) w).2
  | prefills {ctx : Ctx} (here : inference.pc = .prefill ctx) (alive : ctx ∉ w.freed)
      (decoded : (decodeBatch L ctx (L.tokenize inference.prompt) w).1 = 0) :
      Stepped L cancelled inference w (.recordPrompt ctx)
        (decodeBatch L ctx (L.tokenize inference.prompt) w).2
  | recordsPrompt {ctx : Ctx} {w' : World σ} (here : inference.pc = .recordPrompt ctx)
      (records : recordTokens L inference.sessionId (L.tokenize inference.prompt) w = .ok w')
      (room : 0 ≤ inference.maxTokens) :
      Stepped L cancelled inference w (loopTest ctx inference.maxTokens 0 []) w'
  | stops {ctx : Ctx} {i : Nat} {generated : List Token}
      (here : inference.pc = .head ctx i generated) (stop : cancelled = true) :
      Stepped L cancelled inference w (.recordGenerated generated) w
  | goesOn {ctx : Ctx} {i : Nat} {generated : List Token}
      (here : inference.pc = .head ctx i generated) (go : cancelled = false) :
      Stepped L cancelled inference w (.sample ctx i generated) w
  | samplesEnd {ctx : Ctx} {i : Nat} {generated : List Token}
      (here : inference.pc = .sample ctx i generated) (alive : ctx ∉ w.freed)
      (isEnd : L.vocabIsEog (L.samplerSample ctx w.llama).1 = true) :
      Stepped L cancelled inference w (.recordGenerated generated) (sampledOf L ctx w)
  | samples {ctx : Ctx} {i : Nat} {generated : List Token} {tok : Token}
      (here : inference.pc = .sample ctx i generated) (alive : ctx ∉ w.freed)
      (sampled : (L.samplerSample ctx w.llama).1 = tok) (goes : L.vocabIsEog tok = false) :
      Stepped L cancelled inference w (.decode ctx i (generated ++ [tok]) tok) (sampledOf L ctx w)
  | decodeFails {ctx : Ctx} {i : Nat} {generated : List Token} {tok : Token}
      (here : inference.pc = .decode ctx i generated tok) (alive : ctx ∉ w.freed)
      (failed : (decodeBatch L ctx [tok] w).1 ≠ 0) :
      Stepped L cancelled inference w (.recordGenerated generated) (loopDecodedOf L ctx tok w)
  | decodes {ctx : Ctx} {i : Nat} {generated : List Token} {tok : Token}
      (here : inference.pc = .decode ctx i generated tok) (alive : ctx ∉ w.freed)
      (decoded : (decodeBatch L ctx [tok] w).1 = 0) :
      Stepped L cancelled inference w (loopTest ctx inference.maxTokens (i + 1) generated)
        (loopDecodedOf L ctx tok w)
  | recordsGenerated {generated : List Token} {w' : World σ}
      (here : inference.pc = .recordGenerated generated)
      (records : recordTokens L inference.sessionId generated w = .ok w') :
      Stepped L cancelled inference w (.returned true) w'
  | stays {ok : Bool} (here : inference.pc = .returned ok) :
      Stepped L cancelled inference w (.returned ok) w

variable {σ : Type} {L : Llama σ} {w w' : World σ} {cancelled : Bool} {inference : Inference}
  {pc : Pc} {text? : Option Bytes}

theorem inferStep_stepped (result : inferStep L cancelled inference w = .ok ((pc, text?), w')) :
    Stepped L cancelled inference w pc w' := by
  unfold inferStep at result
  cases here : inference.pc with
  | activate =>
    simp only [here] at result
    obtain ⟨⟨ctx, w1⟩, active, result⟩ := bind_eq_ok.mp result
    cases ctx with
    | none =>
      cases result
      exact .noContext here active
    | some ctx =>
      cases result
      exact .activates here active
  | prefill ctx =>
    simp only [here] at result
    split at result
    · cases result
    · rename_i alive
      by_cases failed : (decodeBatch L ctx (L.tokenize inference.prompt) w).1 ≠ 0
      · rw [if_pos failed] at result
        cases result
        exact .prefillFails here alive failed
      · rw [if_neg failed] at result
        cases result
        exact .prefills here alive (not_not.mp failed)
  | recordPrompt ctx =>
    simp only [here] at result
    obtain ⟨w1, records, result⟩ := bind_eq_ok.mp result
    split at result
    · cases result
    · rename_i room
      cases result
      exact .recordsPrompt here records (Int.not_lt.mp room)
  | head ctx i generated =>
    simp only [here] at result
    cases cancelled with
    | true =>
      cases result
      exact .stops here rfl
    | false =>
      cases result
      exact .goesOn here rfl
  | sample ctx i generated =>
    simp only [here] at result
    split at result
    · cases result
    · rename_i alive
      split at result
      · rename_i isEnd
        cases result
        exact .samplesEnd here alive isEnd
      · rename_i goes
        obtain ⟨text, _, result⟩ := bind_eq_ok.mp result
        cases result
        exact .samples here alive rfl (Bool.eq_false_iff.mpr goes)
  | decode ctx i generated tok =>
    simp only [here] at result
    split at result
    · cases result
    · rename_i alive
      by_cases failed : (decodeBatch L ctx [tok] w).1 ≠ 0
      · rw [if_pos failed] at result
        cases result
        exact .decodeFails here alive failed
      · rw [if_neg failed] at result
        cases result
        exact .decodes here alive (not_not.mp failed)
  | recordGenerated generated =>
    simp only [here] at result
    obtain ⟨w1, records, result⟩ := bind_eq_ok.mp result
    cases result
    exact .recordsGenerated here records
  | returned ok =>
    simp only [here] at result
    cases result
    exact .stays here

/-! ### Calls and contexts -/

/-- The manager call that is the next step of an inference. -/
def Inference.call {σ : Type} (L : Llama σ) (inference : Inference) : Option Op :=
  match inference.pc with
  | .activate => some (.activateForInfer inference.sessionId)
  | .recordPrompt _ => some (.recordTokens inference.sessionId (L.tokenize inference.prompt))
  | .recordGenerated generated => some (.recordTokens inference.sessionId generated)
  | .prefill _ | .head _ _ _ | .sample _ _ _ | .decode _ _ _ _ | .returned _ => none

/-- The context that the next step samples from or decodes into. -/
def Pc.uses : Pc → Option Ctx
  | .prefill ctx | .sample ctx _ _ | .decode ctx _ _ _ => some ctx
  | .activate | .recordPrompt _ | .head _ _ _ | .recordGenerated _ | .returned _ => none

/-- The context that an inference still needs: its next step uses it, or may lead to a sample. -/
def Pc.needs (cancelled : Bool) (maxTokens : Int) : Pc → Option Ctx
  | .prefill ctx | .sample ctx _ _ | .decode ctx _ _ _ => some ctx
  | .recordPrompt ctx => if cancelled = false ∧ 0 < maxTokens then some ctx else none
  | .head ctx _ _ => if cancelled = false then some ctx else none
  | .activate | .recordGenerated _ | .returned _ => none

theorem Pc.needs_of_uses {ctx : Ctx} {maxTokens : Int} (uses : pc.uses = some ctx) :
    pc.needs cancelled maxTokens = some ctx := by
  cases pc with
  | prefill | sample | decode => exact uses
  | _ => cases uses

/-- The decode loop needs its context as long as it is not cancelled and tokens are left. -/
theorem needs_loopTest {ctx c : Ctx} {maxTokens : Int} {i : Nat} {generated : List Token}
    (needs : (loopTest ctx maxTokens i generated).needs cancelled maxTokens = some c) :
    ctx = c ∧ cancelled = false ∧ (i : Int) < maxTokens := by
  unfold loopTest at needs
  by_cases left : (i : Int) < maxTokens
  · rw [if_pos left, Pc.needs] at needs
    split at needs
    · rename_i goes
      cases needs
      exact ⟨rfl, goes, left⟩
    · cases needs
  · rw [if_neg left] at needs
    cases needs

namespace Stepped

/-- A step makes its manager call, or changes nothing but what llama holds, and no file. -/
theorem world (stepped : Stepped L cancelled inference w pc w') :
    (∃ op r, inference.call L = some op ∧ serve L op w = .ok (r, w')) ∨
      inference.call L = none ∧ ∃ llama trace, w' = { w with llama := llama, trace := trace } ∧
        ∀ file, KeepsFiles L file → file llama = file w.llama := by
  unfold Inference.call
  cases stepped with
  | noContext here active | activates here active =>
    exact Or.inl ⟨_, _, by rw [here], serve_activate active⟩
  | recordsPrompt here records | recordsGenerated here records =>
    exact Or.inl ⟨_, _, by rw [here], serve_record records⟩
  | stops here | goesOn here | stays here =>
    exact Or.inr ⟨by rw [here], _, _, rfl, fun _ _ => rfl⟩
  | prefillFails here | prefills here | decodeFails here | decodes here =>
    exact Or.inr ⟨by rw [here], _, _, rfl, fun _ keeps => keeps.decode ..⟩
  | samplesEnd here | samples here =>
    exact Or.inr ⟨by rw [here], _, _, rfl, fun _ keeps => keeps.sample ..⟩

/-- **An inference needs no context but the one it was activated with.** -/
theorem needs (stepped : Stepped L cancelled inference w pc w') {c : Ctx}
    (later : pc.needs cancelled inference.maxTokens = some c) :
    inference.pc.needs cancelled inference.maxTokens = some c ∨
      inference.pc = .activate ∧
        serve L (.activateForInfer inference.sessionId) w = .ok (.ctx (some c), w') := by
  cases stepped with
  | noContext | prefillFails | stops | samplesEnd | decodeFails | recordsGenerated | stays =>
    cases later
  | activates here active =>
    cases later
    exact Or.inr ⟨here, serve_activate active⟩
  | prefills here =>
    rw [Pc.needs] at later
    split at later
    · cases later
      exact Or.inl (by rw [here]; rfl)
    · cases later
  | recordsPrompt here records room =>
    obtain ⟨rfl, goes, left⟩ := needs_loopTest later
    exact Or.inl (by rw [here]; exact if_pos ⟨goes, left⟩)
  | goesOn here go =>
    cases later
    exact Or.inl (by rw [here]; exact if_pos go)
  | samples here =>
    cases later
    exact Or.inl (by rw [here]; rfl)
  | decodes here =>
    obtain ⟨rfl, _, _⟩ := needs_loopTest later
    exact Or.inl (by rw [here]; rfl)

end Stepped

/-! ### An inference that runs alone -/

/-- What the cancel flag reads when the step is at the head of a round. -/
def Pc.flag (cancelFlag : Option (Nat → Bool)) : Pc → Bool
  | .head _ i _ => MiniV.cancelled cancelFlag i
  | .activate | .prefill _ | .recordPrompt _ | .sample _ _ _ | .decode _ _ _ _
  | .recordGenerated _ | .returned _ => false

/-- An inference takes its steps with nobody in between: its answer, and the world at its end. -/
def alone (L : Llama σ) (cancelFlag : Option (Nat → Bool)) :
    Nat → Inference → World σ → Except Fault (Answer × World σ)
  | 0, _, _ => .error .diverged
  | rounds + 1, inference, w =>
    match inference.pc with
    | .returned ok => .ok (⟨ok, []⟩, w)
    | _ => do
      let ((pc, text?), w) ← inferStep L (inference.pc.flag cancelFlag) inference w
      let (a, w) ← alone L cancelFlag rounds { inference with pc := pc } w
      .ok (⟨a.ok, text?.toList ++ a.texts⟩, w)

/-- The steps that an inference takes, at most. -/
def maxSteps (maxTokens : Int) : Nat := 3 * maxTokens.toNat + 8

section Alone

variable {cancelFlag : Option (Nat → Bool)} {id : Int} {prompt : Bytes} {maxTokens : Int} {c : Ctx}
  {rounds : Nat}

theorem alone_returned {ok : Bool} (here : inference.pc = .returned ok) :
    alone L cancelFlag (rounds + 1) inference w = .ok (⟨ok, []⟩, w) := by
  rw [alone, here]

/-- A step that faults. -/
theorem alone_fault {e : Fault} (goes : ∀ ok, inference.pc ≠ .returned ok)
    (fault : inferStep L (inference.pc.flag cancelFlag) inference w = .error e) :
    alone L cancelFlag (rounds + 1) inference w = .error e := by
  rw [alone]
  split
  · rename_i ok here
    exact absurd here (goes ok)
  · rw [fault, error_bind]

/-- One step, and then the rest. -/
theorem alone_step {w1 : World σ} (goes : ∀ ok, inference.pc ≠ .returned ok)
    (result : inferStep L (inference.pc.flag cancelFlag) inference w = .ok ((pc, text?), w1)) :
    alone L cancelFlag (rounds + 1) inference w = (do
      let (a, w) ← alone L cancelFlag rounds { inference with pc := pc } w1
      .ok (⟨a.ok, text?.toList ++ a.texts⟩, w)) := by
  rw [alone]
  split
  · rename_i ok here
    exact absurd here (goes ok)
  · rw [result, ok_bind]

/-- One step that hands out nothing, and then the rest. -/
theorem alone_quiet {w1 : World σ} (goes : ∀ ok, inference.pc ≠ .returned ok)
    (result : inferStep L (inference.pc.flag cancelFlag) inference w = .ok ((pc, none), w1)) :
    alone L cancelFlag (rounds + 1) inference w =
      alone L cancelFlag rounds { inference with pc := pc } w1 := by
  rw [alone_step goes result]
  exact bind_ok _

/-- The end of an inference: what was generated is recorded. -/
theorem alone_record {generated : List Token} :
    alone L cancelFlag (rounds + 2) ⟨id, prompt, maxTokens, .recordGenerated generated⟩ w = (do
      let w ← recordTokens L id generated w
      .ok (⟨true, []⟩, w)) := by
  have goes : ∀ ok, Pc.recordGenerated generated ≠ .returned ok := fun ok same => by cases same
  cases records : recordTokens L id generated w with
  | error e =>
    have fault : inferStep L false ⟨id, prompt, maxTokens, .recordGenerated generated⟩ w =
        .error e := by
      simp only [inferStep, records, error_bind]
    rw [alone_fault goes fault, error_bind]
  | ok w1 =>
    have ends : inferStep L false ⟨id, prompt, maxTokens, .recordGenerated generated⟩ w =
        .ok ((.returned true, none), w1) := by
      simp only [inferStep, records, ok_bind]
    rw [alone_quiet goes ends, alone_returned rfl, ok_bind]

/-- The head of a round, when the request is cancelled. -/
theorem alone_stop {i : Nat} {generated : List Token}
    (stop : MiniV.cancelled cancelFlag i = true) :
    alone L cancelFlag (rounds + 3) ⟨id, prompt, maxTokens, .head c i generated⟩ w = (do
      let w ← recordTokens L id generated w
      .ok (⟨true, []⟩, w)) := by
  have stops : inferStep L (MiniV.cancelled cancelFlag i)
      ⟨id, prompt, maxTokens, .head c i generated⟩ w = .ok ((.recordGenerated generated, none), w) := by
    simp only [inferStep, if_pos stop]
  rw [alone_quiet (fun ok same => by cases same) stops]
  exact alone_record

/-- The head of a round, when it is not. -/
theorem alone_go {i : Nat} {generated : List Token} (go : ¬ MiniV.cancelled cancelFlag i = true) :
    alone L cancelFlag (rounds + 1) ⟨id, prompt, maxTokens, .head c i generated⟩ w =
      alone L cancelFlag rounds ⟨id, prompt, maxTokens, .sample c i generated⟩ w := by
  have goes : inferStep L (MiniV.cancelled cancelFlag i)
      ⟨id, prompt, maxTokens, .head c i generated⟩ w = .ok ((.sample c i generated, none), w) := by
    simp only [inferStep, if_neg go]
  exact alone_quiet (fun ok same => by cases same) goes

/-- A round that samples: the token that ends the text, or one whose text is handed out. -/
theorem alone_sample {i : Nat} {generated : List Token} (alive : c ∉ w.freed) :
    alone L cancelFlag (rounds + 3) ⟨id, prompt, maxTokens, .sample c i generated⟩ w =
      (if L.vocabIsEog (L.samplerSample c w.llama).1 then do
        let w ← recordTokens L id generated (sampledOf L c w)
        .ok (⟨true, []⟩, w)
      else do
        let text ← pieceText L (L.samplerSample c w.llama).1
        let (a, w) ← alone L cancelFlag (rounds + 2) ⟨id, prompt, maxTokens, .decode c i
          (generated ++ [(L.samplerSample c w.llama).1]) (L.samplerSample c w.llama).1⟩
          (sampledOf L c w)
        .ok (⟨a.ok, text :: a.texts⟩, w)) := by
  have goes : ∀ ok, Pc.sample c i generated ≠ .returned ok := fun ok same => by cases same
  by_cases isEnd : L.vocabIsEog (L.samplerSample c w.llama).1 = true
  · have ends : inferStep L false ⟨id, prompt, maxTokens, .sample c i generated⟩ w =
        .ok ((.recordGenerated generated, none), sampledOf L c w) := by
      simp only [inferStep, if_neg alive, if_pos isEnd]
      rfl
    rw [if_pos isEnd, alone_quiet goes ends]
    exact alone_record
  · rw [if_neg isEnd]
    cases piece : pieceText L (L.samplerSample c w.llama).1 with
    | error e =>
      have fault : inferStep L false ⟨id, prompt, maxTokens, .sample c i generated⟩ w = .error e := by
        simp only [inferStep, if_neg alive, if_neg isEnd, piece, error_bind]
      rw [alone_fault goes fault, error_bind]
    | ok text =>
      have samples : inferStep L false ⟨id, prompt, maxTokens, .sample c i generated⟩ w =
          .ok ((.decode c i (generated ++ [(L.samplerSample c w.llama).1])
            (L.samplerSample c w.llama).1, some text), sampledOf L c w) := by
        simp only [inferStep, if_neg alive, if_neg isEnd, piece, ok_bind]
        rfl
      rw [alone_step goes samples, ok_bind]
      rfl

/-- A round that decodes: the loop ends when that fails, and goes on when it works. -/
theorem alone_decode {i : Nat} {generated : List Token} {tok : Token} (alive : c ∉ w.freed) :
    alone L cancelFlag (rounds + 1) ⟨id, prompt, maxTokens, .decode c i generated tok⟩ w =
      alone L cancelFlag rounds ⟨id, prompt, maxTokens,
        if (decodeBatch L c [tok] w).1 ≠ 0 then .recordGenerated generated
          else loopTest c maxTokens (i + 1) generated⟩ (loopDecodedOf L c tok w) := by
  have decodes : inferStep L false ⟨id, prompt, maxTokens, .decode c i generated tok⟩ w =
      .ok ((if (decodeBatch L c [tok] w).1 ≠ 0 then .recordGenerated generated
        else loopTest c maxTokens (i + 1) generated, none), loopDecodedOf L c tok w) := by
    simp only [inferStep, if_neg alive]
    rfl
  exact alone_quiet (fun ok same => by cases same) decodes

/-- **The decode loop** of an inference alone. -/
theorem alone_loop {left i : Nat} {early : List Token} (alive : c ∉ w.freed)
    (bound : (i : Int) + left = maxTokens) :
    alone L cancelFlag (rounds + 3 * left + 2)
        ⟨id, prompt, maxTokens, loopTest c maxTokens i early⟩ w = (do
      let ((generated, texts), w) ← decodeLoop L c cancelFlag left i w
      let w ← recordTokens L id (early ++ generated) w
      .ok (⟨true, texts⟩, w)) := by
  induction left generalizing i early w with
  | zero =>
    rw [loopTest, if_neg (by omega), decodeLoop, ok_bind]
    simp only [List.append_nil]
    exact alone_record
  | succ left ih =>
    have fuel : rounds + 3 * (left + 1) + 2 = rounds + 3 * left + 2 + 3 := by omega
    rw [loopTest, if_pos (by omega), fuel, decodeLoop]
    by_cases stop : MiniV.cancelled cancelFlag i = true
    · rw [alone_stop stop, if_pos stop, ok_bind]
      simp only [List.append_nil]
    · have budget : rounds + 3 * left + 2 + 2 = rounds + 3 * left + 1 + 3 := rfl
      rw [alone_go stop, if_neg stop, budget, alone_sample alive]
      dsimp only
      by_cases isEnd : L.vocabIsEog (L.samplerSample c w.llama).1 = true
      · simp only [if_pos isEnd, ok_bind, List.append_nil]
        rfl
      · simp only [if_neg isEnd]
        rw [bind_assoc]
        refine bind_congr fun text => ?_
        rw [alone_decode (w := sampledOf L c w) alive]
        by_cases failed : (decodeBatch L c [(L.samplerSample c w.llama).1] (sampledOf L c w)).1 ≠ 0
        · rw [if_pos failed, if_pos (show (decodeBatch L c _ (World.outside _ w)).1 ≠ 0 from failed),
            alone_record, bind_assoc, ok_bind]
          rfl
        · rw [if_neg failed, if_neg (show ¬ (decodeBatch L c _ (World.outside _ w)).1 ≠ 0 from failed),
            ih (w := loopDecodedOf L c _ (sampledOf L c w)) alive (by omega), bind_assoc, bind_assoc]
          refine bind_congr fun later => ?_
          rw [bind_assoc, ok_bind]
          simp only [List.append_assoc, List.singleton_append, ok_bind]

/-- The prompt is recorded, and the decode loop begins. -/
theorem alone_recordPrompt (rep : Rep w) (holds : HoldsContext w id c) :
    alone L cancelFlag (rounds + 3 * maxTokens.toNat + 3)
        ⟨id, prompt, maxTokens, .recordPrompt c⟩ w = (do
      let w ← recordTokens L id (L.tokenize prompt) w
      if maxTokens < 0 then .error .lengthError
      else do
        let ((generated, texts), w) ← decodeLoop L c cancelFlag maxTokens.toNat 0 w
        let w ← recordTokens L id generated w
        .ok (⟨true, texts⟩, w)) := by
  have goes : ∀ ok, Pc.recordPrompt c ≠ .returned ok := fun ok same => by cases same
  cases records : recordTokens L id (L.tokenize prompt) w with
  | error e =>
    refine alone_fault goes ?_
    simp only [inferStep, records, error_bind]
  | ok w1 =>
    rw [ok_bind]
    by_cases short : maxTokens < 0
    · rw [if_pos short]
      refine alone_fault goes ?_
      simp only [inferStep, records, ok_bind, if_pos short]
    · have begins : inferStep L false ⟨id, prompt, maxTokens, .recordPrompt c⟩ w =
          .ok ((loopTest c maxTokens 0 [], none), w1) := by
        simp only [inferStep, records, ok_bind, if_neg short]
      have served := serve_record records
      have kept : HoldsContext w1 id c :=
        Served.keepsContext (serve_served rep served) rep holds List.not_mem_nil
      have bound : ((0 : Nat) : Int) + maxTokens.toNat = maxTokens := by omega
      rw [if_neg short, alone_quiet goes begins]
      exact alone_loop (kept.alive (serve_rep rep served)) bound

/-- **An inference that runs alone** gets through its steps to what `infer` computes. -/
theorem alone_infer (rep : Rep w) :
    alone L cancelFlag (maxSteps maxTokens) { sessionId := id, prompt, maxTokens } w =
      infer L id prompt maxTokens cancelFlag w := by
  have fuel : maxSteps maxTokens = 3 + 3 * maxTokens.toNat + 3 + 1 + 1 := by
    rw [maxSteps]
    omega
  have goes : ∀ ok, Pc.activate ≠ .returned ok := fun ok same => by cases same
  rw [fuel, infer]
  cases active : activateForInfer L id w with
  | error e =>
    refine alone_fault goes ?_
    simp only [inferStep, active, error_bind]
  | ok result =>
    obtain ⟨ctx, w1⟩ := result
    cases ctx with
    | none =>
      have refused : inferStep L false ⟨id, prompt, maxTokens, .activate⟩ w =
          .ok ((.returned false, none), w1) := by
        simp only [inferStep, active, ok_bind]
      rw [alone_quiet goes refused, alone_returned rfl, ok_bind]
    | some c =>
      have served := serve_activate active
      have rep1 := serve_rep rep served
      have holds : HoldsContext w1 id c := Served.activated (serve_served rep served)
      have activates : inferStep L false ⟨id, prompt, maxTokens, .activate⟩ w =
          .ok ((.prefill c, none), w1) := by
        simp only [inferStep, active, ok_bind]
      have prefills : inferStep L false ⟨id, prompt, maxTokens, .prefill c⟩ w1 =
          .ok ((if (decodeBatch L c (L.tokenize prompt) w1).1 ≠ 0 then .returned false
            else .recordPrompt c, none), (decodeBatch L c (L.tokenize prompt) w1).2) := by
        simp only [inferStep, if_neg (holds.alive rep1)]
      rw [alone_quiet goes activates, alone_quiet (fun ok same => by cases same) prefills, ok_bind]
      dsimp only
      by_cases failed : (decodeBatch L c (L.tokenize prompt) w1).1 ≠ 0
      · rw [if_pos failed, if_pos failed]
        exact alone_returned rfl
      · rw [if_neg failed, if_neg failed]
        exact alone_recordPrompt (rep1.of_same rfl rfl rfl rfl rfl rfl rfl) holds

end Alone

end MiniV
