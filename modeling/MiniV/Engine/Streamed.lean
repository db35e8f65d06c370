/-
**What is streamed is what is recorded.**

The decode loop hands the text of a token to `onToken` before it knows whether the token can be
decoded, and keeps the token in `generated` either way; what is kept is recorded when the loop has
ended. So the texts are those of the tokens recorded after the prompt, at whichever exit the loop is
left.

* `decodeLoop_streams`: the tokens kept, their number and their texts;
* `looks_no_sample`: no token is sampled once the cancel flag was seen set;
* `streamed_is_recorded`: an inference that runs alone.
-/

import MiniV.Engine.Steps
import MiniV.Engine.Reached

namespace MiniV

open MiniV.Library
open MiniV.Library.NodeList (values)

variable {σ : Type} {L : Llama σ} {w w' : World σ} {id : Int} {prompt : Bytes} {maxTokens : Int}
  {cancelFlag : Option (Nat → Bool)} {c : Ctx}

/-! ### Texts -/

/-- The texts of a list of tokens, one for each. -/
def Texts (L : Llama σ) (tokens : List Token) (texts : List Bytes) : Prop :=
  List.Forall₂ (fun tok text => pieceText L tok = .ok text) tokens texts

/-- **The decode loop streams** a list of tokens: no more than there is room for, none that ends a
text, and the text of each. -/
structure Streams (L : Llama σ) (room : Nat) (tokens : List Token) (texts : List Bytes) : Prop where
  few : tokens.length ≤ room
  goes : ∀ tok ∈ tokens, L.vocabIsEog tok = false
  texts : Texts L tokens texts

theorem Streams.nil (L : Llama σ) (room : Nat) : Streams L room [] [] :=
  ⟨Nat.zero_le _, fun _ member => absurd member List.not_mem_nil, .nil⟩

theorem Streams.cons {room : Nat} {tok : Token} {tokens : List Token} {text : Bytes}
    {texts : List Bytes} (goes : L.vocabIsEog tok = false) (piece : pieceText L tok = .ok text)
    (later : Streams L room tokens texts) :
    Streams L (room + 1) (tok :: tokens) (text :: texts) where
  few := Nat.succ_le_succ later.few
  goes := List.forall_mem_cons.mpr ⟨goes, later.goes⟩
  texts := .cons piece later.texts

theorem decodeLoop_streams {rounds i : Nat} {generated : List Token} {texts : List Bytes}
    (result : decodeLoop L c cancelFlag rounds i w = .ok ((generated, texts), w')) :
    Streams L rounds generated texts := by
  induction rounds generalizing i w generated texts with
  | zero =>
    cases result
    exact .nil L 0
  | succ rounds ih =>
    unfold decodeLoop at result
    split at result
    · cases result
      exact .nil L _
    · dsimp only at result
      split at result
      · cases result
        exact .nil L _
      · rename_i goes
        obtain ⟨text, piece, result⟩ := bind_eq_ok.mp result
        split at result
        · cases result
          exact .cons (Bool.eq_false_iff.mpr goes) piece (.nil L rounds)
        · obtain ⟨⟨⟨later, texts'⟩, w1⟩, rest, result⟩ := bind_eq_ok.mp result
          cases result
          exact .cons (Bool.eq_false_iff.mpr goes) piece (ih rest)

/-! ### Records -/

/-- What `recordTokens` was called with, by the trace. -/
def recordings (w : World σ) : List (Int × List Token) :=
  w.trace.filterMap fun e =>
    match e with
    | .recorded id tokens => some (id, tokens)
    | .saved _ _ | .measured _ _ | .erased _ _ | .subtracted _ _ | .swappedOut _ _ _ _
    | .coldEviction _ _ _ _ _ _ | .loopDecode _ => none

theorem recordings_of_adds (adds : Adds Managing w w') : recordings w' = recordings w := by
  obtain ⟨new, grown, managing⟩ := adds
  unfold recordings
  rw [grown, List.filterMap_append, List.append_right_eq_self, List.filterMap_eq_nil_iff]
  intro e member
  have here := managing e member
  cases e with
  | recorded | loopDecode => exact here.elim
  | _ => rfl

/-- An activation records nothing. -/
theorem activateForInfer_adds (rep : Rep w) {ctx : Option Ctx}
    (active : activateForInfer L id w = .ok (ctx, w')) : Adds Managing w w' := by
  have quiet : ∀ {w w' : World σ}, Quiet w w' → Adds Managing w w' :=
    fun adds => adds.mono fun e => Plain.managing
  cases serve_served rep (serve_activate active) with
  | activatesNobody absent => exact .refl rfl
  | activatesHot found hot shape => exact quiet shape.quiet
  | activatesCold found cold eviction rest =>
    refine (Evicts.adds eviction.evicts).trans ?_
    cases rest with
    | fails shape => exact quiet shape.quiet
    | takes shape => exact quiet shape.quiet

/-- A session is HOT, the last of the hot list, and has exactly these tokens. -/
structure Holds (id : Int) (tokens : List Token) (w : World σ) : Prop where
  entry : ∃ entry, w.mSessions id = some entry ∧ entry.state = .HOT ∧ entry.tokens = tokens
  last : (values w.mHotLru).getLast? = some id

/-- Recording appends. -/
theorem recordTokens_holds (rep : Rep w) {entry : SessionMeta} {tokens : List Token}
    (found : w.mSessions id = some entry) (hot : entry.state = .HOT)
    (records : recordTokens L id tokens w = .ok w') : Holds id (entry.tokens ++ tokens) w' := by
  obtain ⟨_, shape⟩ := recordTokens_hot rep found hot records
  obtain ⟨entry', found', hot', _, same⟩ := shape.entry
  refine ⟨⟨entry', found', hot', same⟩, ?_⟩
  rw [shape.hot, List.getLast?_concat]

/-! ### The cancel flag -/

/-- What an inference asks for that its client can tell the order of. -/
inductive Look
  | flag (set : Bool)
  | sample
deriving DecidableEq, Repr

/-- What a step looks at, when the cancel flag reads `cancelled`. -/
def Pc.look (cancelled : Bool) : Pc → Option Look
  | .head _ _ _ => some (.flag cancelled)
  | .sample _ _ _ => some .sample
  | .activate | .prefill _ | .recordPrompt _ | .decode _ _ _ _ | .recordGenerated _ | .returned _ =>
    none

/-- What an inference that runs alone looks at, in order. -/
def looks (L : Llama σ) (cancelFlag : Option (Nat → Bool)) :
    Nat → Inference → World σ → List Look
  | 0, _, _ => []
  | rounds + 1, inference, w =>
    (inference.pc.look (inference.pc.flag cancelFlag)).toList ++
      match inferStep L (inference.pc.flag cancelFlag) inference w with
      | .error _ => []
      | .ok ((pc, _), w) => looks L cancelFlag rounds { inference with pc := pc } w

/-- An inference whose loop has ended looks at nothing. -/
theorem looks_ended {rounds : Nat} {inference : Inference}
    (ended : (∃ generated, inference.pc = .recordGenerated generated) ∨
      ∃ ok, inference.pc = .returned ok) : looks L cancelFlag rounds inference w = [] := by
  induction rounds generalizing inference w with
  | zero => rfl
  | succ rounds ih =>
    have nothing : inference.pc.look (inference.pc.flag cancelFlag) = none := by
      rcases ended with ⟨generated, here⟩ | ⟨ok, here⟩ <;> rw [here] <;> rfl
    rw [looks, nothing]
    cases stepped : inferStep L (inference.pc.flag cancelFlag) inference w with
    | error e => rfl
    | ok result =>
      obtain ⟨⟨pc, text?⟩, w1⟩ := result
      refine ih (Or.inr ?_)
      rcases ended with ⟨generated, here⟩ | ⟨ok, here⟩
      · cases inferStep_stepped stepped with
        | recordsGenerated => exact ⟨true, rfl⟩
        | _ here' => rw [here] at here'; cases here'
      · cases inferStep_stepped stepped with
        | @stays ok => exact ⟨ok, rfl⟩
        | _ here' => rw [here] at here'; cases here'

/-- **No token is sampled once the flag was seen set.** -/
theorem looks_no_sample {rounds : Nat} {inference : Inference} {before after : List Look}
    (split : looks L cancelFlag rounds inference w = before ++ .flag true :: after) :
    .sample ∉ after := by
  induction rounds generalizing inference w before with
  | zero => cases before <;> cases split
  | succ rounds ih =>
    have later : ∀ before, (match inferStep L (inference.pc.flag cancelFlag) inference w with
        | .error _ => []
        | .ok ((pc, _), w) => looks L cancelFlag rounds { inference with pc := pc } w) =
          before ++ .flag true :: after → .sample ∉ after := by
      intro before split
      cases stepped : inferStep L (inference.pc.flag cancelFlag) inference w with
      | error e =>
        rw [stepped] at split
        cases before <;> cases split
      | ok result =>
        rw [stepped] at split
        exact ih split
    unfold looks at split
    cases look : inference.pc.look (inference.pc.flag cancelFlag) with
    | none =>
      rw [look] at split
      exact later before split
    | some first =>
      rw [look, Option.toList_some, List.singleton_append] at split
      cases before with
      | cons earlier before => exact later before (List.cons.inj split).2
      | nil =>
        -- the flag is set at the head of a round, and the loop ends there
        obtain ⟨rfl, rfl⟩ := List.cons.inj split
        cases here : inference.pc with
        | head ctx i generated =>
          rw [here] at look
          have set : (Pc.head ctx i generated).flag cancelFlag = true :=
            Look.flag.inj (Option.some.inj look)
          simp only [inferStep, here, set, if_true]
          rw [looks_ended (Or.inl ⟨generated, rfl⟩)]
          exact List.not_mem_nil
        | _ =>
          rw [here] at look
          cases look

/-! ### An inference -/

/-- **What an inference that answers true leaves**: `tokens` were streamed, and the session has those it
had when it was activated, the prompt's, and these. -/
structure StreamedAndRecorded (L : Llama σ) (id : Int) (prompt : Bytes) (maxTokens : Int)
    (texts : List Bytes) (tokens : List Token) (w w' : World σ) : Prop where
  streams : Streams L maxTokens.toNat tokens texts
  holds : ∃ c w1 entry, activateForInfer L id w = .ok (some c, w1) ∧ w1.mSessions id = some entry ∧
    Holds id (entry.tokens ++ L.tokenize prompt ++ tokens) w'

theorem infer_recorded (rep : Rep w) {a : Answer}
    (result : infer L id prompt maxTokens cancelFlag w = .ok (a, w')) :
    (a.ok = true → ∃ tokens, StreamedAndRecorded L id prompt maxTokens a.texts tokens w w') ∧
      (a.ok = false → a.texts = [] ∧ recordings w' = recordings w) := by
  unfold infer at result
  obtain ⟨⟨ctx, w1⟩, active, result⟩ := bind_eq_ok.mp result
  have silent : recordings w1 = recordings w := recordings_of_adds (activateForInfer_adds rep active)
  cases ctx with
  | none =>
    cases result
    exact ⟨fun ok => (by cases ok), fun _ => ⟨rfl, silent⟩⟩
  | some c =>
    dsimp only at result
    split at result
    · cases result
      exact ⟨fun ok => (by cases ok), fun _ => ⟨rfl, silent⟩⟩
    · obtain ⟨w2, prefill, result⟩ := bind_eq_ok.mp result
      split at result
      · cases result
      · obtain ⟨⟨⟨tokens, texts⟩, w3⟩, loop, result⟩ := bind_eq_ok.mp result
        obtain ⟨w4, records, result⟩ := bind_eq_ok.mp result
        cases result
        refine ⟨fun _ => ⟨tokens, decodeLoop_streams loop, ?_⟩, fun failed => (by cases failed)⟩
        obtain ⟨entry, found, hot, _⟩ := (activateForInfer_activated rep active).owns
        have repD : Rep (decodeBatch L c (L.tokenize prompt) w1).2 :=
          (serve_rep rep (serve_activate active)).of_same rfl rfl rfl rfl rfl rfl rfl
        have rep2 := serve_rep repD (serve_record prefill)
        obtain ⟨entry2, found2, hot2, same⟩ := (recordTokens_holds repD found hot prefill).entry
        obtain ⟨_, _, generation, _⟩ := decodeLoop_spec loop
        obtain ⟨llama, trace, rfl⟩ := generation.frame
        have rep3 : Rep { w2 with llama := llama, trace := trace } :=
          rep2.of_same rfl rfl rfl rfl rfl rfl rfl
        have ended := recordTokens_holds rep3 found2 hot2 records
        rw [same] at ended
        exact ⟨c, w1, entry, active, found, ended⟩

/-- **What is streamed is what is recorded**, at every exit of the loop, and no token is sampled once
the cancel flag was seen set. -/
theorem streamed_is_recorded {nCtx : Nat} {swapDir : Bytes} (reached : Reached L nCtx swapDir w)
    {a : Answer} (result : infer L id prompt maxTokens cancelFlag w = .ok (a, w')) :
    (a.ok = true → ∃ tokens, StreamedAndRecorded L id prompt maxTokens a.texts tokens w w') ∧
      (a.ok = false → a.texts = [] ∧ recordings w' = recordings w) ∧
      ∀ before after, looks L cancelFlag (maxSteps maxTokens)
        { sessionId := id, prompt, maxTokens } w = before ++ .flag true :: after →
        .sample ∉ after := by
  obtain ⟨ok, failed⟩ := infer_recorded reached.rep result
  exact ⟨ok, failed, fun before after split => looks_no_sample split⟩

/-- A second message of a conversation, cancelled in its third round. -/
theorem streamed_is_recorded_cancelled :
    ∃ w w' a, run (serveEngine (sim 9 10)) [.createSession 1, .infer 1 (text "c") 3 none]
        (World.start 9 (text "/s") (Sim.start [6, 2, 7, 8, 9])) = .ok w ∧
      infer (sim 9 10) 1 (text "ab") 10 (some fun i => i = 2) w = .ok (a, w') ∧
      a.texts = [[7], [8]] ∧
      ∃ tokens, StreamedAndRecorded (sim 9 10) 1 (text "ab") 10 a.texts tokens w w' := by
  have talk : Gives (fun w : World Sim => Gives (fun answer => answer.1 = ⟨true, [[7], [8]]⟩)
        (infer (sim 9 10) 1 (text "ab") 10 (some fun i => i = 2) w))
      (run (serveEngine (sim 9 10)) [.createSession 1, .infer 1 (text "c") 3 none]
        (World.start 9 (text "/s") (Sim.start [6, 2, 7, 8, 9]))) := by
    decide +kernel
  obtain ⟨w, reach, answers⟩ := gives_iff.mp talk
  obtain ⟨⟨a, w'⟩, result, answer⟩ := gives_iff.mp answers
  refine ⟨w, w', a, reach, result, congrArg Answer.texts answer, ?_⟩
  exact (streamed_is_recorded (reached_of_run reach) result).1 (congrArg Answer.ok answer)

end MiniV
