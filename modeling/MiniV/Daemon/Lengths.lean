/-
**Numbers from outside that become sizes.**

Two signed numbers reach a size parameter in both engines' decode loops. `std::string(buf, n)` is built
with what `llama_token_to_piece` answers, which is negative when the piece does not fit `buf`; and
`LLMEngine::infer` reserves room for `maxTokens`, which its client chooses. A negative one becomes a
huge size, and the exception that this raises is not caught.

* `decodeLoop_throws`, `npuDecodeLoop_throws`: the loops, in terms of the tokens they emit;
* `lengths_fit`: neither inference throws exactly when `maxTokens` is not negative where it is reserved,
  and every piece that is emitted fits the buffer.
-/

import MiniV.Daemon.FrontEnds
import MiniV.Library.Emission
import MiniV.Npu.Engine
import MiniV.Wire.Framing

namespace MiniV

open MiniV.Library

/-! ### Pieces -/

/-- `sizeof(buf)`. -/
def bufSize : Nat := 256

/-- What is documented of `llama_token_to_piece` for a vocabulary: it stores a piece that fits the
buffer and answers its length, and answers the negated length of any other. -/
structure GivesPieces (tokenToPiece : Token → Int × Bytes) (piece : Token → Bytes) : Prop where
  fits : ∀ tok, (piece tok).length ≤ bufSize → tokenToPiece tok = (↑(piece tok).length, piece tok)
  long : ∀ tok, bufSize < (piece tok).length → (tokenToPiece tok).1 = -((piece tok).length : Int)

/-- The piece of a token fits the buffer. -/
def FitsBuffer (piece : Token → Bytes) (tok : Token) : Prop := (piece tok).length ≤ bufSize

theorem GivesPieces.length_iff {tokenToPiece : Token → Int × Bytes} {piece : Token → Bytes}
    (gives : GivesPieces tokenToPiece piece) (tok : Token) :
    0 ≤ (tokenToPiece tok).1 ↔ FitsBuffer piece tok := by
  unfold FitsBuffer
  by_cases short : (piece tok).length ≤ bufSize
  · rw [gives.fits tok short]
    simp [short]
  · have answer := gives.long tok (Nat.not_le.mp short)
    rw [answer]
    simp only [bufSize] at short ⊢
    omega

/-! ### The two loops -/

/-- The sampler of the engine on a context. -/
def generator {σ : Type} (L : Llama σ) (c : Ctx) : Generator σ Token where
  sample := L.samplerSample c
  ends := L.vocabIsEog
  feed tok s := ((L.decode c [tok] s).1 = 0, (L.decode c [tok] s).2)

/-- The sampler of the NPU engine. -/
def npuGenerator {σ : Type} (L : NpuLlama σ) (model ctx sampler : Nat) : Generator σ Token where
  sample := L.samplerSample sampler ctx
  ends := L.tokenIsEog model
  feed tok s := ((L.decode ctx [tok] s).1 = 0, (L.decode ctx [tok] s).2)

section Loops

variable {σ : Type} {L : Llama σ} {N : NpuLlama σ} {c : Ctx} {w : World σ} {v : NpuWorld σ}

/-- **The decode loop throws** exactly when it emits a token whose length is negative. -/
theorem decodeLoop_throws {cancelFlag : Option (Nat → Bool)} {rounds i : Nat} :
    decodeLoop L c cancelFlag rounds i w ≠ .error .lengthError ↔
      AllEmitted (generator L c) (cancelled cancelFlag) (fun tok => 0 ≤ (L.tokenToPiece tok).1)
        rounds i w.llama := by
  induction rounds generalizing i w with
  | zero => exact iff_of_true (by simp [decodeLoop]) trivial
  | succ rounds ih =>
    unfold decodeLoop
    by_cases stop : cancelled cancelFlag i = true
    · rw [if_pos stop]
      exact iff_of_true (by simp) (allEmitted_stop stop)
    rw [if_neg stop]
    by_cases ends : L.vocabIsEog (L.samplerSample c w.llama).1 = true
    · simp only [if_pos ends]
      exact iff_of_true (by simp) (allEmitted_end ends)
    rw [allEmitted_round stop ends]
    simp only [if_neg ends]
    by_cases short : (L.tokenToPiece (L.samplerSample c w.llama).1).1 < 0
    · rw [pieceText, if_pos short, error_bind]
      exact iff_of_false (not_not.mpr rfl) fun emitted => not_lt.mpr emitted.1 short
    · rw [pieceText, if_neg short, ok_bind]
      by_cases failed : (decodeBatch L c [(L.samplerSample c w.llama).1]
          (w.outside (L.samplerSample c w.llama).2)).1 ≠ 0
      · rw [if_pos failed]
        exact iff_of_true (by simp) ⟨not_lt.mp short, Or.inl (decide_eq_false failed)⟩
      · rw [if_neg failed, bind_ok_ne_error, ih]
        refine ⟨fun later => ⟨not_lt.mp short, Or.inr later⟩, fun emitted => ?_⟩
        exact emitted.2.resolve_left (ne_false_of_eq_true (decide_eq_true (not_not.mp failed)))

/-- **The loop of the NPU engine throws** exactly then, too. -/
theorem npuDecodeLoop_throws {model ctx sampler rounds i : Nat} (held : v.mSampler = some sampler) :
    npuDecodeLoop N model ctx rounds v ≠ .error .lengthError ↔
      AllEmitted (npuGenerator N model ctx sampler) (fun _ => false)
        (fun tok => 0 ≤ (N.tokenToPiece model tok).1) rounds i v.llama := by
  induction rounds generalizing i v with
  | zero => exact iff_of_true (by simp [npuDecodeLoop]) trivial
  | succ rounds ih =>
    unfold npuDecodeLoop
    rw [held]
    by_cases ends : N.tokenIsEog model (N.samplerSample sampler ctx v.llama).1 = true
    · simp only [if_pos ends]
      exact iff_of_true (by simp) (allEmitted_end ends)
    rw [allEmitted_round Bool.false_ne_true ends]
    simp only [if_neg ends]
    by_cases short : (N.tokenToPiece model (N.samplerSample sampler ctx v.llama).1).1 < 0
    · rw [npuPieceText, if_pos short, error_bind]
      exact iff_of_false (not_not.mpr rfl) fun emitted => not_lt.mpr emitted.1 short
    · rw [npuPieceText, if_neg short, ok_bind]
      by_cases failed : (N.decode ctx [(N.samplerSample sampler ctx v.llama).1]
          (N.samplerSample sampler ctx v.llama).2).1 ≠ 0
      · rw [if_pos failed]
        exact iff_of_true (by simp) ⟨not_lt.mp short, Or.inl (decide_eq_false failed)⟩
      · rw [if_neg failed, bind_ok_ne_error]
        refine (ih (i := i + 1) ?_).trans ?_
        · exact held
        refine ⟨fun later => ⟨not_lt.mp short, Or.inr later⟩, fun emitted => ?_⟩
        exact emitted.2.resolve_left (ne_false_of_eq_true (decide_eq_true (not_not.mp failed)))

end Loops

/-! ### The two inferences -/

/-- The prompt of an inference is decoded and recorded: the context of its session, and the world in
which its loop starts. -/
def Prefilled {σ : Type} (L : Llama σ) (id : Int) (prompt : Bytes) (w : World σ) (c : Ctx)
    (w2 : World σ) : Prop :=
  ∃ w1, activateForInfer L id w = .ok (some c, w1) ∧
    (decodeBatch L c (L.tokenize prompt) w1).1 = 0 ∧
    recordTokens L id (L.tokenize prompt) (decodeBatch L c (L.tokenize prompt) w1).2 = .ok w2

/-- The numbers that an inference turns into sizes are not negative: if its prompt is decoded, neither
is `maxTokens`, and every piece emitted fits the buffer. -/
def LengthsFit {σ : Type} (L : Llama σ) (piece : Token → Bytes) (id : Int) (prompt : Bytes)
    (maxTokens : Int) (cancelFlag : Option (Nat → Bool)) (w : World σ) : Prop :=
  ∀ c w2, Prefilled L id prompt w c w2 →
    0 ≤ maxTokens ∧ AllEmitted (generator L c) (cancelled cancelFlag) (FitsBuffer piece)
      maxTokens.toNat 0 w2.llama

/-- The NPU engine reserves no room: every piece emitted fits the buffer. -/
def NpuLengthsFit {σ : Type} (N : NpuLlama σ) (piece : Nat → Token → Bytes) (prompt : Bytes)
    (maxTokens : Int) (v : NpuWorld σ) : Prop :=
  ∀ ctx model sampler, v.mCtx = some ctx → v.mModel = some model → v.mSampler = some sampler →
    (N.decode ctx (N.tokenize model prompt) (N.kvCacheClear ctx v.llama)).1 = 0 →
    AllEmitted (npuGenerator N model ctx sampler) (fun _ => false) (FitsBuffer (piece model))
      maxTokens.toNat 0 (N.decode ctx (N.tokenize model prompt) (N.kvCacheClear ctx v.llama)).2

section Inferences

variable {σ τ : Type} {L : Llama σ} {N : NpuLlama τ} {w w2 : World σ} {v : NpuWorld τ} {id : Int}
  {prompt : Bytes} {maxTokens : Int} {cancelFlag : Option (Nat → Bool)} {c : Ctx}

/-- There is one world at most in which the loop starts. -/
theorem Prefilled.unique {c' : Ctx} {w2' : World σ} (first : Prefilled L id prompt w c w2)
    (second : Prefilled L id prompt w c' w2') : c' = c ∧ w2' = w2 := by
  obtain ⟨w1, active, _, records⟩ := first
  obtain ⟨w1', active', _, records'⟩ := second
  rw [active] at active'
  cases active'
  rw [records] at records'
  cases records'
  exact ⟨rfl, rfl⟩

/-- An inference from where its loop starts. -/
theorem infer_of_prefilled (prefilled : Prefilled L id prompt w c w2) :
    infer L id prompt maxTokens cancelFlag w =
      if maxTokens < 0 then .error .lengthError
      else (do
        let ((generated, texts), w) ← decodeLoop L c cancelFlag maxTokens.toNat 0 w2
        let w ← recordTokens L id generated w
        .ok (⟨true, texts⟩, w)) := by
  obtain ⟨w1, active, decoded, records⟩ := prefilled
  unfold infer
  rw [active, ok_bind]
  dsimp only
  rw [if_neg (not_not.mpr decoded), records, ok_bind]

/-- An inference whose loop does not start does not throw. -/
theorem infer_of_not_prefilled (rep : Rep w) (stops : ∀ c w2, ¬ Prefilled L id prompt w c w2) :
    infer L id prompt maxTokens cancelFlag w ≠ .error .lengthError := by
  unfold infer
  cases active : activateForInfer L id w with
  | error e =>
    have inactive : serve L (.activateForInfer id) w = .error e := by
      simp only [serve, active, error_bind]
    rcases serve_spec (L := L) rep (.activateForInfer id) with ⟨r, w', fine, _⟩ | ⟨dangling, _⟩
    · rw [inactive] at fine
      cases fine
    · rw [inactive, Except.error.injEq] at dangling
      simp [error_bind, dangling]
  | ok result =>
    obtain ⟨ctx, w1⟩ := result
    rw [ok_bind]
    cases ctx with
    | none => simp
    | some c =>
      have repD : Rep (decodeBatch L c (L.tokenize prompt) w1).2 :=
        (serve_rep rep (serve_activate active)).of_same rfl rfl rfl rfl rfl rfl rfl
      obtain ⟨w2, records⟩ := recordTokens_ok (L := L) repD id (L.tokenize prompt)
      have failed : (decodeBatch L c (L.tokenize prompt) w1).1 ≠ 0 :=
        fun decoded => stops c w2 ⟨w1, active, decoded, records⟩
      dsimp only
      simp [if_pos failed]

/-- **`LLMEngine::infer` throws** unless the lengths fit. -/
theorem infer_throws {piece : Token → Bytes} (gives : GivesPieces L.tokenToPiece piece) (rep : Rep w) :
    infer L id prompt maxTokens cancelFlag w ≠ .error .lengthError ↔
      LengthsFit L piece id prompt maxTokens cancelFlag w := by
  by_cases starts : ∃ c w2, Prefilled L id prompt w c w2
  · obtain ⟨c, w2, prefilled⟩ := starts
    have here : LengthsFit L piece id prompt maxTokens cancelFlag w ↔ 0 ≤ maxTokens ∧
        AllEmitted (generator L c) (cancelled cancelFlag) (FitsBuffer piece) maxTokens.toNat 0
          w2.llama := by
      refine ⟨fun fits => fits c w2 prefilled, fun fits c' w2' prefilled' => ?_⟩
      obtain ⟨rfl, rfl⟩ := prefilled.unique prefilled'
      exact fits
    rw [here, infer_of_prefilled prefilled, ← allEmitted_congr gives.length_iff, ← decodeLoop_throws]
    by_cases short : maxTokens < 0
    · rw [if_pos short]
      exact iff_of_false (not_not.mpr rfl) fun fits => not_lt.mpr fits.1 short
    rw [if_neg short, and_iff_right (not_lt.mp short)]
    cases loop : decodeLoop L c cancelFlag maxTokens.toNat 0 w2 with
    | error e => simp only [error_bind, ne_eq, Except.error.injEq]
    | ok answer =>
      obtain ⟨⟨generated, texts⟩, w3⟩ := answer
      obtain ⟨w1, active, _, records⟩ := prefilled
      obtain ⟨_, _, generation, _⟩ := decodeLoop_spec loop
      obtain ⟨llama, trace, same⟩ := generation.frame
      have repD : Rep (decodeBatch L c (L.tokenize prompt) w1).2 :=
        (serve_rep rep (serve_activate active)).of_same rfl rfl rfl rfl rfl rfl rfl
      have rep3 : Rep w3 := by
        rw [same]
        exact (serve_rep repD (serve_record records)).of_same rfl rfl rfl rfl rfl rfl rfl
      obtain ⟨w4, ends⟩ := recordTokens_ok (L := L) rep3 id generated
      refine iff_of_true ?_ nofun
      simp only [ok_bind, ends]
      nofun
  · have stops : ∀ c w2, ¬ Prefilled L id prompt w c w2 := by simpa using starts
    exact iff_of_true (infer_of_not_prefilled rep stops)
      fun c w2 prefilled => absurd prefilled (stops c w2)

/-- **`NpuLLMEngine::infer` throws** unless the pieces fit. -/
theorem npuInfer_throws {piece : Nat → Token → Bytes}
    (gives : ∀ model, GivesPieces (N.tokenToPiece model) (piece model)) :
    npuInfer N prompt maxTokens v ≠ .error .lengthError ↔
      NpuLengthsFit N piece prompt maxTokens v := by
  unfold npuInfer NpuLengthsFit
  cases v.mCtx with
  | none => exact iff_of_true nofun nofun
  | some ctx =>
    cases v.mModel with
    | none => exact iff_of_true nofun nofun
    | some model =>
      by_cases failed : (N.decode ctx (N.tokenize model prompt) (N.kvCacheClear ctx v.llama)).1 ≠ 0
      · simp only [if_pos failed]
        refine iff_of_true nofun fun ctx' model' sampler first second _ decoded => ?_
        cases first
        cases second
        exact absurd decoded failed
      simp only [if_neg failed]
      rw [bind_ok_ne_error]
      cases held : v.mSampler with
      | none =>
        refine iff_of_true ?_ nofun
        cases maxTokens.toNat with
        | zero => nofun
        | succ rounds => simp [npuDecodeLoop, held]
      | some sampler =>
        refine (npuDecodeLoop_throws (i := 0) (v := { v with
          llama := (N.decode ctx (N.tokenize model prompt) (N.kvCacheClear ctx v.llama)).2 })
          held).trans ?_
        rw [allEmitted_congr (gives model).length_iff]
        constructor
        · rintro fits ctx' model' sampler' first second third _
          cases first
          cases second
          cases third
          exact fits
        · exact fun fits => fits ctx model sampler rfl rfl rfl (not_not.mp failed)

/-- **No request makes an inference throw** exactly when `maxTokens` is not negative where room is
reserved for it, and every piece that is emitted fits the buffer. -/
theorem lengths_fit {nCtx : Nat} {swapDir : Bytes} (reached : Reached L nCtx swapDir w)
    {piece : Token → Bytes} (gives : GivesPieces L.tokenToPiece piece) {npuPiece : Nat → Token → Bytes}
    (npuGives : ∀ model, GivesPieces (N.tokenToPiece model) (npuPiece model)) (id : Int)
    (prompt : Bytes) (maxTokens : Int) (cancelFlag : Option (Nat → Bool)) (v : NpuWorld τ) :
    (infer L id prompt maxTokens cancelFlag w ≠ .error .lengthError ↔
        LengthsFit L piece id prompt maxTokens cancelFlag w) ∧
      (npuInfer N prompt maxTokens v ≠ .error .lengthError ↔
        NpuLengthsFit N npuPiece prompt maxTokens v) :=
  ⟨infer_throws gives reached.rep, npuInfer_throws npuGives⟩

end Inferences

/-! ### Requests that throw, and one that does not -/

/-- A vocabulary of one-byte pieces. -/
theorem sim_gives (capacity : Nat) (header : UInt64) :
    GivesPieces (sim capacity header).tokenToPiece fun tok => [UInt8.ofNat tok.toNat] :=
  ⟨fun _ _ => rfl, fun _ long => absurd long (by simp [bufSize])⟩

/-- A text of the letter `A`, one for each unit of a token. -/
def letters (tok : Token) : Bytes := List.replicate tok.toNat 65

/-- A llama of the NPU engine that samples from a script, with letters for pieces; no letter ends a
text. -/
def npuTalk : NpuLlama (List Token) where
  backendInit := id
  backendLoadAll := fun _ => id
  loadModelFromFile := fun _ _ script => (true, script)
  newContextWithModel := fun _ _ _ _ script => (true, script)
  samplerChainInit := fun _ => id
  samplerFree := fun _ => id
  free := fun _ => id
  freeModel := fun _ => id
  backendFree := id
  tokenBos := fun _ => none
  decode := fun _ _ script => (0, script)
  kvCacheClear := fun _ => id
  tokenize := fun _ prompt => prompt.map fun _ => 1
  samplerSample := fun _ _ script => (script.headD 0, script.tail)
  tokenIsEog := fun _ tok => tok = 0
  tokenToPiece := fun _ tok =>
    if (letters tok).length ≤ bufSize then (↑(letters tok).length, letters tok)
    else (-(letters tok).length, [])

theorem npuTalk_gives (model : Nat) : GivesPieces (npuTalk.tokenToPiece model) letters where
  fits _ short := if_pos short
  long _ tooLong := congrArg Prod.fst (if_neg (Nat.not_le.mpr tooLong))

/-- A message with room for three tokens, and one for the NPU whose pieces are short. -/
theorem lengths_fit_short :
    ∃ w v, run (serveEngine (sim 9 10)) [.createSession 1]
        (World.start 9 (text "/s") (Sim.start [7, 8, 9])) = .ok w ∧
      run (serveNpu npuTalk) [.npuLoad (text "m") (text "b") 9 1] (NpuWorld.start [256, 3, 0]) = .ok v ∧
      infer (sim 9 10) 1 (text "hi") 3 none w ≠ .error .lengthError ∧
      NpuLengthsFit npuTalk (fun _ => letters) (text "hi") 3 v := by
  have first : Gives (fun _ => True) (run (serveEngine (sim 9 10)) [.createSession 1]
      (World.start 9 (text "/s") (Sim.start [7, 8, 9]))) := by decide +kernel
  have second : Gives (fun v => faultOf (npuInfer npuTalk (text "hi") 3 v) = none)
      (run (serveNpu npuTalk) [.npuLoad (text "m") (text "b") 9 1] (NpuWorld.start [256, 3, 0])) := by
    decide +kernel
  obtain ⟨w, reach, _⟩ := gives_iff.mp first
  obtain ⟨v, reach', fine⟩ := gives_iff.mp second
  have lengths := lengths_fit (reached_of_run reach) (sim_gives 9 10) npuTalk_gives 1 (text "hi") 3
    none v
  refine ⟨w, v, reach, reach', lengths.1.mpr fun c w2 _ => ⟨by decide, ?_⟩, lengths.2.mp ?_⟩
  · exact allEmitted_of_forall (fun tok => by simp [FitsBuffer, bufSize]) _ _ _
  · intro throws
    rw [throws] at fine
    cases fine

/-- A negative `maxTokens` from the wire, and a piece of 300 bytes in the NPU's vocabulary. -/
theorem lengths_fit_negative :
    (∃ w, run (serveEngine (sim 9 10)) [.createSession 1]
        (World.start 9 (text "/s") (Sim.start [7, 8, 9])) = .ok w ∧
      readCommand (text "INFER 1 -1\nhi\nEND\n") = some (.infer 1 (-1) (text "hi"), []) ∧
      infer (sim 9 10) 1 (text "hi") (-1) none w = .error .lengthError) ∧
    ∃ v, run (serveNpu npuTalk) [.npuLoad (text "m") (text "b") 9 1] (NpuWorld.start [300]) = .ok v ∧
      npuInfer npuTalk (text "hi") 3 v = .error .lengthError := by
  have first : Gives (fun w => faultOf (infer (sim 9 10) 1 (text "hi") (-1) none w) = some .lengthError)
      (run (serveEngine (sim 9 10)) [.createSession 1]
        (World.start 9 (text "/s") (Sim.start [7, 8, 9]))) := by decide +kernel
  have second : Gives (fun v => faultOf (npuInfer npuTalk (text "hi") 3 v) = some .lengthError)
      (run (serveNpu npuTalk) [.npuLoad (text "m") (text "b") 9 1] (NpuWorld.start [300])) := by
    decide +kernel
  obtain ⟨w, reach, throws⟩ := gives_iff.mp first
  obtain ⟨v, reach', throws'⟩ := gives_iff.mp second
  exact ⟨⟨w, reach, by decide +kernel, eq_error_of_faultOf throws⟩,
    v, reach', eq_error_of_faultOf throws'⟩

end MiniV
