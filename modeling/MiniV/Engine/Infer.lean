/-
**`LLMEngine::infer`, as `llm_engine.cpp` computes it.**

An inference activates its session, decodes the prompt in one batch, records it, and then samples
and decodes one token after another until the sampler ends the text, the request is cancelled, a
decode fails or `maxTokens` are reached. What was generated is recorded at the end.

* `decodeLoop_spec`: the loop changes nothing of the manager, and all tokens it hands back but a
  last one whose decode failed are decoded;
* `infer_spec`: an inference as a sequence of the calls it makes.
-/

import MiniV.Session.Representation

namespace MiniV

open MiniV.Library
open MiniV.Library.NodeList (values)

variable {σ : Type}

/-- The world with another outside. -/
def World.outside (llama : σ) (w : World σ) : World σ := { w with llama := llama }

/-- `cancelFlag && cancelFlag->load()` in round `i`. -/
def cancelled (cancelFlag : Option (Nat → Bool)) (i : Nat) : Bool :=
  match cancelFlag with
  | none => false
  | some load => load i

/-- What an inference hands back: the answer of `infer`, and the texts given to `onToken`. -/
structure Answer where
  ok : Bool
  texts : List Bytes
deriving DecidableEq, Repr

section Functions

variable (L : Llama σ)

/-- `llama_decode`, which answers through `rc`. -/
def decodeBatch (ctx : Ctx) (batch : List Token) (w : World σ) : Int × World σ :=
  ((L.decode ctx batch w.llama).1, w.outside (L.decode ctx batch w.llama).2)

/-- `std::string(buf, n)` on the piece of a token: a negative length is a `length_error`. -/
def pieceText (tok : Token) : Except Fault Bytes :=
  if (L.tokenToPiece tok).1 < 0 then .error .lengthError
  else .ok ((L.tokenToPiece tok).2.take (L.tokenToPiece tok).1.toNat)

/-- The decode loop of `infer` from round `i` on: the tokens generated and the texts. -/
def decodeLoop (ctx : Ctx) (cancelFlag : Option (Nat → Bool)) :
    Nat → Nat → World σ → Except Fault ((List Token × List Bytes) × World σ)
  | 0, _, w => .ok (([], []), w)
  | rounds + 1, i, w =>
    if cancelled cancelFlag i then .ok (([], []), w)
    else
      let sample := L.samplerSample ctx w.llama
      let tok := sample.1
      let w := w.outside sample.2
      if L.vocabIsEog tok then .ok (([], []), w)
      else do
        let text ← pieceText L tok
        let (rc, w) := decodeBatch L ctx [tok] w
        let w := w.note (.loopDecode rc)
        if rc ≠ 0 then .ok (([tok], [text]), w)
        else do
          let ((generated, texts), w) ← decodeLoop ctx cancelFlag rounds (i + 1) w
          .ok ((tok :: generated, text :: texts), w)

/-- `LLMEngine::infer`. Reserving room for a negative number of tokens is a `length_error`. -/
def infer (sessionId : Int) (prompt : Bytes) (maxTokens : Int) (cancelFlag : Option (Nat → Bool))
    (w : World σ) : Except Fault (Answer × World σ) := do
  let (ctx, w) ← activateForInfer L sessionId w
  match ctx with
  | none => .ok (⟨false, []⟩, w)
  | some ctx =>
    let promptTokens := L.tokenize prompt
    let (rc, w) := decodeBatch L ctx promptTokens w
    if rc ≠ 0 then .ok (⟨false, []⟩, w)
    else do
      let w ← recordTokens L sessionId promptTokens w
      if maxTokens < 0 then .error .lengthError
      else do
        let ((generated, texts), w) ← decodeLoop L ctx cancelFlag maxTokens.toNat 0 w
        let w ← recordTokens L sessionId generated w
        .ok (⟨true, texts⟩, w)

end Functions

/-! ### An inference as the calls it makes -/

section Calls

variable (L : Llama σ) (c : Ctx)

/-- The world after one token was sampled. -/
def sampledOf (w : World σ) : World σ := w.outside (L.samplerSample c w.llama).2

/-- The world after one token was sampled and decoded. -/
def decodedOf (tok : Token) (w : World σ) : World σ :=
  (decodeBatch L c [tok] (sampledOf L c w)).2.note
    (.loopDecode (decodeBatch L c [tok] (sampledOf L c w)).1)

/-- A run of the decode loop: the tokens that were decoded, and the one whose decode failed. -/
inductive Generation : World σ → List Token → Option Token → World σ → Prop
  | stops (w : World σ) : Generation w [] none w
  | samplesEnd (w : World σ) : Generation w [] none (sampledOf L c w)
  | fails {w : World σ} {tok : Token}
      (failed : (decodeBatch L c [tok] (sampledOf L c w)).1 ≠ 0) :
      Generation w [] (some tok) (decodedOf L c tok w)
  | decodes {w w' : World σ} {tok : Token} {tokens : List Token} {failed : Option Token}
      (decoded : (decodeBatch L c [tok] (sampledOf L c w)).1 = 0)
      (later : Generation (decodedOf L c tok w) tokens failed w') :
      Generation w (tok :: tokens) failed w'

/-- An inference that returns. -/
inductive Inferred (id : Int) (prompt : Bytes) (w : World σ) : World σ → Prop
  | noContext {w' : World σ} (active : activateForInfer L id w = .ok (none, w')) :
      Inferred id prompt w w'
  | prefillFails {c : Ctx} {w1 : World σ} (active : activateForInfer L id w = .ok (some c, w1))
      (failed : (decodeBatch L c (L.tokenize prompt) w1).1 ≠ 0) :
      Inferred id prompt w (decodeBatch L c (L.tokenize prompt) w1).2
  | generates {c : Ctx} {w1 w2 w3 w' : World σ} {tokens : List Token} {failed : Option Token}
      (active : activateForInfer L id w = .ok (some c, w1))
      (decoded : (decodeBatch L c (L.tokenize prompt) w1).1 = 0)
      (prefill : recordTokens L id (L.tokenize prompt)
        (decodeBatch L c (L.tokenize prompt) w1).2 = .ok w2)
      (loop : Generation L c w2 tokens failed w3)
      (records : recordTokens L id (tokens ++ failed.toList) w3 = .ok w') :
      Inferred id prompt w w'

end Calls

variable {L : Llama σ} {c : Ctx} {w w' : World σ}

/-- **The decode loop** hands back the tokens it decoded and, at their end, one whose decode failed. -/
theorem decodeLoop_spec {cancelFlag : Option (Nat → Bool)} {rounds i : Nat} {generated : List Token}
    {texts : List Bytes}
    (result : decodeLoop L c cancelFlag rounds i w = .ok ((generated, texts), w')) :
    ∃ tokens failed, Generation L c w tokens failed w' ∧ generated = tokens ++ failed.toList := by
  induction rounds generalizing i w generated texts with
  | zero =>
    cases result
    exact ⟨[], none, .stops _, rfl⟩
  | succ rounds ih =>
    rw [decodeLoop] at result
    split at result
    · cases result
      exact ⟨[], none, .stops _, rfl⟩
    · dsimp only at result
      split at result
      · cases result
        exact ⟨[], none, .samplesEnd _, rfl⟩
      · obtain ⟨text, _, result⟩ := bind_eq_ok.mp result
        split at result
        · rename_i failed
          cases result
          exact ⟨[], _, .fails failed, rfl⟩
        · rename_i decoded
          obtain ⟨⟨⟨later, texts'⟩, w1⟩, rest, result⟩ := bind_eq_ok.mp result
          cases result
          obtain ⟨tokens, failed, loop, same⟩ := ih rest
          exact ⟨_, failed, .decodes (not_not.mp decoded) loop, congrArg (List.cons _) same⟩

/-- **An inference** that returns is the sequence of its calls. -/
theorem infer_spec {id : Int} {prompt : Bytes} {maxTokens : Int} {cancelFlag : Option (Nat → Bool)}
    {a : Answer} (result : infer L id prompt maxTokens cancelFlag w = .ok (a, w')) :
    Inferred L id prompt w w' := by
  unfold infer at result
  obtain ⟨⟨ctx, w1⟩, active, result⟩ := bind_eq_ok.mp result
  cases ctx with
  | none =>
    cases result
    exact .noContext active
  | some c =>
    dsimp only at result
    split at result
    · rename_i failed
      cases result
      exact .prefillFails active failed
    · rename_i decoded
      obtain ⟨w2, prefill, result⟩ := bind_eq_ok.mp result
      split at result
      · cases result
      · obtain ⟨⟨⟨generated, texts⟩, w3⟩, loop, result⟩ := bind_eq_ok.mp result
        obtain ⟨w4, records, result⟩ := bind_eq_ok.mp result
        cases result
        obtain ⟨tokens, failed, generation, rfl⟩ := decodeLoop_spec loop
        exact .generates active (not_not.mp decoded) prefill generation records

/-- The decode loop leaves the manager alone. -/
theorem Generation.frame {tokens : List Token} {failed : Option Token}
    (loop : Generation L c w tokens failed w') :
    ∃ llama trace, w' = { w with llama := llama, trace := trace } := by
  induction loop with
  | stops w => exact ⟨w.llama, w.trace, rfl⟩
  | samplesEnd w => exact ⟨_, w.trace, rfl⟩
  | fails failed => exact ⟨_, _, rfl⟩
  | decodes decoded later ih =>
    obtain ⟨llama, trace, rfl⟩ := ih
    exact ⟨llama, trace, rfl⟩

/-! ### The calls as requests to the manager -/

theorem serve_activate {id : Int} {ctx : Option Ctx}
    (active : activateForInfer L id w = .ok (ctx, w')) :
    serve L (.activateForInfer id) w = .ok (.ctx ctx, w') := by
  simp only [serve, active, ok_bind]

theorem serve_record {id : Int} {tokens : List Token}
    (records : recordTokens L id tokens w = .ok w') :
    serve L (.recordTokens id tokens) w = .ok (.done, w') := by
  simp only [serve, records, ok_bind]

/-! ### Faults -/

theorem recordTokens_ok (rep : Rep w) (id : Int) (tokens : List Token) :
    ∃ w', recordTokens L id tokens w = .ok w' := by
  have spares : killsItself L (.recordTokens id tokens) w = false := rfl
  obtain ⟨r, w', served⟩ := serve_ok rep spares
  obtain ⟨w1, records, _⟩ := bind_eq_ok.mp served
  exact ⟨w1, records⟩

/-- The decode loop faults only at a token with no piece. -/
theorem decodeLoop_fault {cancelFlag : Option (Nat → Bool)} {rounds i : Nat} {e : Fault}
    (fault : decodeLoop L c cancelFlag rounds i w = .error e) : e = .lengthError := by
  induction rounds generalizing i w with
  | zero => cases fault
  | succ rounds ih =>
    rw [decodeLoop] at fault
    split at fault
    · cases fault
    · dsimp only at fault
      split at fault
      · cases fault
      · rcases bind_eq_error.mp fault with short | ⟨piece, _, fault⟩
        · unfold pieceText at short
          split at short
          · cases short
            rfl
          · cases short
        · split at fault
          · cases fault
          · rcases bind_eq_error.mp fault with fault | ⟨_, _, fault⟩
            · exact ih fault
            · cases fault

/-- **An inference faults** when the eviction it triggers kills its own session, or at a length that
is negative. -/
theorem infer_fault {id : Int} {prompt : Bytes} {maxTokens : Int} {cancelFlag : Option (Nat → Bool)}
    {e : Fault} (rep : Rep w) (fault : infer L id prompt maxTokens cancelFlag w = .error e) :
    e = .danglingMeta ∨ e = .lengthError := by
  unfold infer at fault
  rcases bind_eq_error.mp fault with inactive | ⟨⟨ctx, w1⟩, active, fault⟩
  · have served : serve L (.activateForInfer id) w = .error e := by
      simp only [serve, inactive, error_bind]
    rcases serve_spec (L := L) rep (.activateForInfer id) with ⟨r, w', fine, _⟩ | ⟨dangling, _⟩
    · rw [served] at fine
      cases fine
    · rw [served, Except.error.injEq] at dangling
      exact Or.inl dangling
  · have rep1 := serve_rep rep (serve_activate active)
    cases ctx with
    | none => cases fault
    | some c =>
      dsimp only at fault
      split at fault
      · cases fault
      · have repD : Rep (decodeBatch L c (L.tokenize prompt) w1).2 :=
          rep1.of_same rfl rfl rfl rfl rfl rfl rfl
        obtain ⟨w2, records⟩ := recordTokens_ok (L := L) repD id (L.tokenize prompt)
        rw [records, ok_bind] at fault
        split at fault
        · cases fault
          exact Or.inr rfl
        · rcases bind_eq_error.mp fault with fault | ⟨⟨⟨generated, texts⟩, w3⟩, loop, fault⟩
          · exact Or.inr (decodeLoop_fault fault)
          · obtain ⟨tokens, failed, generation, _⟩ := decodeLoop_spec loop
            obtain ⟨llama, trace, same⟩ := generation.frame
            have rep2 := serve_rep repD (serve_record records)
            have rep3 : Rep w3 := by
              rw [same]
              exact rep2.of_same rfl rfl rfl rfl rfl rfl rfl
            obtain ⟨w4, ends⟩ := recordTokens_ok (L := L) rep3 id generated
            simp only [ends, ok_bind] at fault
            cases fault

/-! ### Runs of the engine -/

/-- A request to the engine. -/
inductive EngineOp
  | createSession (id : Int)
  | killSession (id : Int)
  | setHotLimit (count : Nat)
  | setColdLimit (bytes : UInt64)
  | infer (sessionId : Int) (prompt : Bytes) (maxTokens : Int) (cancelFlag : Option (Nat → Bool))

/-- What a request answers. -/
inductive EngineReply
  | manager (r : Reply)
  | infer (a : Answer)
deriving DecidableEq, Repr

/-- A request that only calls the manager. -/
def serveManager (L : Llama σ) (op : Op) (w : World σ) : Except Fault (EngineReply × World σ) := do
  let (r, w) ← serve L op w
  .ok (.manager r, w)

/-- One request. -/
def serveEngine (L : Llama σ) (op : EngineOp) (w : World σ) :
    Except Fault (EngineReply × World σ) :=
  match op with
  | .createSession id => serveManager L (.createSession id) w
  | .killSession id => serveManager L (.killSession id) w
  | .setHotLimit count => serveManager L (.setHotLimit count) w
  | .setColdLimit bytes => serveManager L (.setColdLimit bytes) w
  | .infer sessionId prompt maxTokens cancelFlag => do
    let (a, w) ← infer L sessionId prompt maxTokens cancelFlag w
    .ok (.infer a, w)

end MiniV
