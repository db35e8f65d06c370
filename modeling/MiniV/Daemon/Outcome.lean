/-
**What a client is told of its inference.**

`infer` answers with one bit: the session gave no context or the prompt was not decoded, or anything
else. Both front ends read the one as `SESSION_NOT_FOUND` and the other as the end of the text.

* `Faithful`: what the report of an inference is to say;
* `activates_iff`, `stops_iff`: when a session gets a context, and when the decode loop comes to an end
  that is none of llama's failures;
* `outcome_faithful`: the report is faithful exactly when the session is not there, or nothing that the
  inference needs fails.
-/

import MiniV.Daemon.Machine
import MiniV.Engine.Reached
import MiniV.Llama.Sim

namespace MiniV

open MiniV.Library

/-! ### Reports -/

/-- What a client can be told at the end of an inference. -/
inductive Report
  | sessionNotFound
  | done
  | otherError
deriving DecidableEq, Repr

/-- The report that a notice is: the line that ends the reply of the socket, or a call of the callback. -/
def Notice.report : Notice → Option Report
  | .onComplete _ => some .done
  | .onError _ code _ => some (if code = ERROR_SESSION_NOT_FOUND then .sessionNotFound else .otherError)
  | .wrote line =>
    some (if line = text "DONE\n" then .done
      else if line = text "ERROR SESSION_NOT_FOUND\n" then .sessionNotFound
      else .otherError)
  | .nothing | .returned _ | .wroteToken _ | .onToken _ _ => none

section Functions

variable {σ : Type} (L : Llama σ)

/-- What the client of a thread is told after `infer`: nothing if it does not return. -/
def reported (thread : Thread) (sessionId : Int) (d : Daemon σ) :
    Except Fault (Answer × World σ) → Option Report
  | .ok (a, w) => (finish thread sessionId a.ok { d with world := w }).1.report
  | .error _ => none

/-- Generation comes to its end: the tokens are used up, the request is cancelled or the sampler ends
the text, and every token before that is handed out and decoded. -/
inductive Stops (c : Ctx) (cancelFlag : Option (Nat → Bool)) (maxTokens : Int) : Nat → σ → Prop
  | atMaxTokens {i : Nat} {s : σ} (used : maxTokens ≤ i) : Stops c cancelFlag maxTokens i s
  | onCancel {i : Nat} {s : σ} (stop : cancelled cancelFlag i = true) : Stops c cancelFlag maxTokens i s
  | atEnd {i : Nat} {s : σ} (isEnd : L.vocabIsEog (L.samplerSample c s).1 = true) :
      Stops c cancelFlag maxTokens i s
  | goesOn {i : Nat} {s : σ} (piece : 0 ≤ (L.tokenToPiece (L.samplerSample c s).1).1)
      (decoded : (L.decode c [(L.samplerSample c s).1] (L.samplerSample c s).2).1 = 0)
      (later : Stops c cancelFlag maxTokens (i + 1)
        (L.decode c [(L.samplerSample c s).1] (L.samplerSample c s).2).2) :
      Stops c cancelFlag maxTokens i s

/-- **The inference completed**: its session got a context, the prompt was decoded and generation came
to its end. -/
def Completed (id : Int) (prompt : Bytes) (maxTokens : Int) (cancelFlag : Option (Nat → Bool))
    (w : World σ) : Prop :=
  ∃ c w1 w2, activateForInfer L id w = .ok (some c, w1) ∧
    (decodeBatch L c (L.tokenize prompt) w1).1 = 0 ∧
    recordTokens L id (L.tokenize prompt) (decodeBatch L c (L.tokenize prompt) w1).2 = .ok w2 ∧
    Stops L c cancelFlag maxTokens 0 w2.llama

/-- **The report is faithful.** -/
structure Faithful (id : Int) (prompt : Bytes) (maxTokens : Int) (cancelFlag : Option (Nat → Bool))
    (w : World σ) (report : Option Report) : Prop where
  notFound : report = some .sessionNotFound ↔ w.mSessions id = none
  done : report = some .done ↔ Completed L id prompt maxTokens cancelFlag w
  other : w.mSessions id ≠ none → ¬ Completed L id prompt maxTokens cancelFlag w →
    report = some .otherError

/-! ### The condition -/

/-- The session is HOT, or the eviction that makes room leaves it alive, a context is created for it,
and its swap file, if it has one, is loaded. -/
def ContextMade (id : Int) (w : World σ) : Prop :=
  ∃ entry, w.mSessions id = some entry ∧ (entry.state = .HOT ∨ ∃ w1,
    evictHotIfNeeded L id w = .ok w1 ∧ w1.mSessions id = some entry ∧
      (L.initFromModel w1.created w1.llama).1 = true ∧
      (entry.swapFilePath = [] ∨ (loadOf L entry w1).1.loaded ≠ 0))

/-- Every token that is sampled in the rounds left is handed out and decoded. -/
def LoopDecodes (c : Ctx) (cancelFlag : Option (Nat → Bool)) : Nat → Nat → σ → Prop
  | 0, _, _ => True
  | rounds + 1, i, s =>
    cancelled cancelFlag i = true ∨
      let (tok, s) := L.samplerSample c s
      L.vocabIsEog tok = true ∨
        0 ≤ (L.tokenToPiece tok).1 ∧ (L.decode c [tok] s).1 = 0 ∧
          LoopDecodes c cancelFlag rounds (i + 1) (L.decode c [tok] s).2

instance decidableLoopDecodes (c : Ctx) (cancelFlag : Option (Nat → Bool)) :
    ∀ (rounds i : Nat) (s : σ), Decidable (LoopDecodes L c cancelFlag rounds i s)
  | 0, _, _ => isTrue trivial
  | rounds + 1, i, s =>
    have := decidableLoopDecodes c cancelFlag rounds (i + 1)
      (L.decode c [(L.samplerSample c s).1] (L.samplerSample c s).2).2
    inferInstanceAs (Decidable (_ ∨ _ ∨ _ ∧ _ ∧ _))

/-- Nothing that the inference needs fails: its context, the decode of the prompt, and each decode of
the loop. -/
def NothingFails (id : Int) (prompt : Bytes) (maxTokens : Int) (cancelFlag : Option (Nat → Bool))
    (w : World σ) : Prop :=
  ContextMade L id w ∧ ∀ c w1, activateForInfer L id w = .ok (some c, w1) →
    (decodeBatch L c (L.tokenize prompt) w1).1 = 0 ∧
      ∀ w2, recordTokens L id (L.tokenize prompt) (decodeBatch L c (L.tokenize prompt) w1).2 = .ok w2 →
        LoopDecodes L c cancelFlag maxTokens.toNat 0 w2.llama

end Functions

variable {σ : Type} {L : Llama σ} {w w' : World σ} {id : Int} {entry : SessionMeta} {c : Ctx}
  {cancelFlag : Option (Nat → Bool)} {prompt : Bytes} {maxTokens : Int}

/-! ### The activation -/

/-- **A session gets a context** just when one can be made. -/
theorem activates_iff (rep : Rep w) :
    (∃ c w', activateForInfer L id w = .ok (some c, w')) ↔ ContextMade L id w := by
  constructor
  · rintro ⟨c, w', active⟩
    cases found : w.mSessions id with
    | none =>
      simp only [activateForInfer, found] at active
      cases active
    | some entry =>
      refine ⟨entry, found, (hot_or_cold entry).imp_right fun cold => ?_⟩
      obtain ⟨w1, sizes, evicted, eviction, rest⟩ := activateForInfer_cold (L := L) rep found cold
      have alive : w1.mSessions id = some entry := by
        rcases Evicts.cold_entry eviction.evicts rep found cold with same | dead
        · exact same
        · rw [active] at rest
          cases rest with
          | takes shape =>
            have living := shape.living
            rw [dead] at living
            cases living
      rw [activateForInfer_eq found cold, evicted, ok_bind] at active
      exact ⟨w1, evicted, alive,
        (activateRest_some (Evicts.rep eviction.evicts rep) alive cold).mp ⟨c, w', active⟩⟩
  · rintro ⟨entry, found, made⟩
    rcases hot_or_cold entry with hot | cold
    · obtain ⟨w', active, _⟩ := activateForInfer_hot (L := L) rep found hot
      obtain ⟨c, holds⟩ := Option.isSome_iff_exists.mp ((rep.ctxHot id entry found).mpr hot)
      exact ⟨c, w', holds ▸ active⟩
    · obtain ⟨w1, evicted, alive, works⟩ := made.resolve_left (by simp [cold])
      obtain ⟨w1', sizes, evicted', eviction, _⟩ := activateForInfer_cold (L := L) rep found cold
      rw [evicted, Except.ok.injEq] at evicted'
      subst evicted'
      obtain ⟨c, w', rest⟩ :=
        (activateRest_some (Evicts.rep eviction.evicts rep) alive cold).mpr works
      exact ⟨c, w', by rw [activateForInfer_eq found cold, evicted, ok_bind, rest]⟩

/-! ### The decode loop -/

/-- **Generation comes to its end** just when every token in the rounds left is decoded. -/
theorem stops_iff {rounds i : Nat} {s : σ} (left : (i : Int) + rounds = maxTokens) :
    Stops L c cancelFlag maxTokens i s ↔ LoopDecodes L c cancelFlag rounds i s := by
  induction rounds generalizing i s with
  | zero => exact iff_of_true (.atMaxTokens (by omega)) trivial
  | succ rounds ih =>
    have next := @ih (i + 1) (L.decode c [(L.samplerSample c s).1] (L.samplerSample c s).2).2
      (by omega)
    rw [LoopDecodes]
    constructor
    · intro stops
      cases stops with
      | atMaxTokens used => omega
      | onCancel stop => exact Or.inl stop
      | atEnd isEnd => exact Or.inr (Or.inl isEnd)
      | goesOn piece decoded later => exact Or.inr (Or.inr ⟨piece, decoded, next.mp later⟩)
    · rintro (stop | isEnd | ⟨piece, decoded, later⟩)
      · exact .onCancel stop
      · exact .atEnd isEnd
      · exact .goesOn piece decoded (next.mpr later)

/-- A loop whose generation comes to its end returns. -/
theorem decodeLoop_ok {rounds i : Nat} (stops : LoopDecodes L c cancelFlag rounds i w.llama) :
    ∃ generated texts w', decodeLoop L c cancelFlag rounds i w = .ok ((generated, texts), w') := by
  induction rounds generalizing i w with
  | zero => exact ⟨[], [], w, rfl⟩
  | succ rounds ih =>
    rw [decodeLoop]
    by_cases stop : cancelled cancelFlag i = true
    · exact ⟨[], [], w, if_pos stop⟩
    · rw [if_neg stop]
      dsimp only
      by_cases isEnd : L.vocabIsEog (L.samplerSample c w.llama).1 = true
      · exact ⟨[], [], _, if_pos isEnd⟩
      · obtain ⟨piece, decoded, later⟩ := (stops.resolve_left stop).resolve_left isEnd
        obtain ⟨generated, texts, w', rest⟩ := @ih (decodedOf L c _ w) (i + 1) later
        have works : ¬ (decodeBatch L c [(L.samplerSample c w.llama).1]
            (World.outside (L.samplerSample c w.llama).2 w)).1 ≠ 0 := not_not.mpr decoded
        rw [if_neg isEnd, pieceText, if_neg (not_lt.mpr piece), ok_bind, if_neg works]
        exact ⟨_, _, w', (congrArg (· >>= _) rest).trans rfl⟩

/-! ### The report -/

/-- An inference that completed answers that it did. -/
theorem Completed.infer (completed : Completed L id prompt maxTokens cancelFlag w) (rep : Rep w)
    (room : 0 ≤ maxTokens) :
    ∃ texts w', infer L id prompt maxTokens cancelFlag w = .ok (⟨true, texts⟩, w') := by
  obtain ⟨c, w1, w2, active, decoded, records, stops⟩ := completed
  have bound : ((0 : Nat) : Int) + maxTokens.toNat = maxTokens := by omega
  obtain ⟨generated, texts, w3, loop⟩ := decodeLoop_ok ((stops_iff bound).mp stops)
  have repD : Rep (decodeBatch L c (L.tokenize prompt) w1).2 :=
    (serve_rep rep (serve_activate active)).of_same rfl rfl rfl rfl rfl rfl rfl
  have rep3 : Rep w3 := by
    obtain ⟨tokens, failed, generation, _⟩ := decodeLoop_spec loop
    obtain ⟨llama, trace, rfl⟩ := generation.frame
    exact (serve_rep repD (serve_record records)).of_same rfl rfl rfl rfl rfl rfl rfl
  obtain ⟨w4, ends⟩ := recordTokens_ok (L := L) rep3 id generated
  refine ⟨texts, w4, ?_⟩
  rw [MiniV.infer, active, ok_bind]
  dsimp only
  rw [if_neg (not_not.mpr decoded), records, ok_bind, if_neg (not_lt.mpr room), loop, ok_bind]
  dsimp only
  rw [ends, ok_bind]

/-- **An inference completes** just when nothing fails. -/
theorem completed_iff (rep : Rep w) (room : 0 ≤ maxTokens) :
    Completed L id prompt maxTokens cancelFlag w ↔
      NothingFails L id prompt maxTokens cancelFlag w := by
  have bound : ((0 : Nat) : Int) + maxTokens.toNat = maxTokens := by omega
  constructor
  · rintro ⟨c, w1, w2, active, decoded, records, stops⟩
    refine ⟨(activates_iff rep).mp ⟨c, w1, active⟩, fun c' w1' active' => ?_⟩
    rw [active] at active'
    cases active'
    refine ⟨decoded, fun w2' records' => ?_⟩
    rw [records] at records'
    cases records'
    exact (stops_iff bound).mp stops
  · rintro ⟨made, works⟩
    obtain ⟨c, w1, active⟩ := (activates_iff rep).mpr made
    obtain ⟨decoded, later⟩ := works c w1 active
    have repD : Rep (decodeBatch L c (L.tokenize prompt) w1).2 :=
      (serve_rep rep (serve_activate active)).of_same rfl rfl rfl rfl rfl rfl rfl
    obtain ⟨w2, records⟩ := recordTokens_ok (L := L) repD id (L.tokenize prompt)
    exact ⟨c, w1, w2, active, decoded, records, (stops_iff bound).mpr (later w2 records)⟩

theorem lastLine_report (ok : Bool) :
    (Notice.wrote (if ok then text "DONE\n" else text "ERROR SESSION_NOT_FOUND\n")).report =
      some (if ok then .done else .sessionNotFound) := by
  cases ok <;> decide

/-- The report of either front end is one of two. -/
theorem reported_ok (thread : Thread) (d : Daemon σ) (a : Answer) (w : World σ) :
    reported thread id d (.ok (a, w)) = some (if a.ok then .done else .sessionNotFound) := by
  cases thread with
  | hal reqId =>
    obtain ⟨ok, texts⟩ := a
    cases ok <;> rfl
  | socket => exact lastLine_report a.ok

theorem reported_ne_other (thread : Thread) (d : Daemon σ) (x : Except Fault (Answer × World σ)) :
    reported thread id d x ≠ some .otherError := by
  cases x with
  | error e => exact nofun
  | ok result =>
    obtain ⟨a, w⟩ := result
    rw [reported_ok]
    split <;> exact nofun

/-- **The report of an inference is faithful** exactly when there is no such session, or nothing that
the inference needs fails. -/
theorem outcome_faithful {nCtx : Nat} {swapDir : Bytes} (reached : Reached L nCtx swapDir w)
    (room : 0 ≤ maxTokens) (thread : Thread) (d : Daemon σ) :
    Faithful L id prompt maxTokens cancelFlag w
        (reported thread id d (infer L id prompt maxTokens cancelFlag w)) ↔
      w.mSessions id = none ∨ NothingFails L id prompt maxTokens cancelFlag w := by
  rw [← completed_iff reached.rep room]
  constructor
  · intro faithful
    by_contra neither
    obtain ⟨living, broken⟩ := not_or.mp neither
    exact reported_ne_other thread d _ (faithful.other living broken)
  · rintro (absent | completed)
    · have inactive : activateForInfer L id w = .ok (none, w) := by
        simp only [activateForInfer, absent]
      have answer : infer L id prompt maxTokens cancelFlag w = .ok (⟨false, []⟩, w) := by
        rw [infer, inactive, ok_bind]
      have broken : ¬ Completed L id prompt maxTokens cancelFlag w := by
        rintro ⟨c, w1, w2, active, _⟩
        rw [inactive] at active
        cases active
      rw [answer, reported_ok]
      exact ⟨iff_of_true rfl absent, iff_of_false (by rintro ⟨⟩) broken, fun living => absurd absent living⟩
    · have living : w.mSessions id ≠ none := by
        obtain ⟨c, w1, w2, active, _⟩ := completed
        intro absent
        simp only [activateForInfer, absent] at active
        cases active
      obtain ⟨texts, w', answer⟩ := completed.infer reached.rep room
      rw [answer, reported_ok]
      exact ⟨iff_of_false (by rintro ⟨⟩) living, iff_of_true rfl completed,
        fun _ broken => absurd completed broken⟩

/-- A new session; llama will sample two tokens and then the end. -/
def newSession : Except Fault (World Sim) :=
  run (serveEngine (sim 4 10)) [.createSession 1] (World.start 4 (text "/s") (Sim.start [7, 8]))

/-- What a client is told of an inference on it. -/
def newReport (thread : Thread) (prompt : Bytes) (maxTokens : Int) (w : World Sim) : Option Report :=
  reported thread 1 (Daemon.start true 4 (text "/s") w.llama)
    (infer (sim 4 10) 1 prompt maxTokens none w)

/-- Where the decode loop begins, `P` holds of what llama holds. -/
def AtLoop (prompt : Bytes) (P : Sim → Prop) (w : World Sim) : Prop :=
  Gives (fun r => r.1 = some 0 ∧ (decodeBatch (sim 4 10) 0 ((sim 4 10).tokenize prompt) r.2).1 = 0 ∧
    Gives (fun w2 => P w2.llama) (recordTokens (sim 4 10) 1 ((sim 4 10).tokenize prompt)
      (decodeBatch (sim 4 10) 0 ((sim 4 10).tokenize prompt) r.2).2)) (activateForInfer (sim 4 10) 1 w)

theorem outcome_faithful_answer : ∃ w, newSession = .ok w ∧
    newReport (.hal 1) (text "ab") 5 w = some .done ∧
      Faithful (sim 4 10) 1 (text "ab") 5 none w (newReport (.hal 1) (text "ab") 5 w) := by
  have works : Gives (fun w => newReport (.hal 1) (text "ab") 5 w = some .done ∧
      AtLoop (text "ab") (LoopDecodes (sim 4 10) 0 none 5 0) w) newSession := by
    unfold AtLoop
    decide +kernel
  obtain ⟨w, created, done, atLoop⟩ := gives_iff.mp works
  obtain ⟨⟨ctx, w1⟩, active, rfl, decoded, records⟩ := gives_iff.mp atLoop
  obtain ⟨w2, records, loop⟩ := gives_iff.mp records
  have reached := reached_of_run created
  have completed : Completed (sim 4 10) 1 (text "ab") 5 none w :=
    ⟨0, w1, w2, active, decoded, records, (stops_iff (by decide)).mpr loop⟩
  exact ⟨w, created, done, (outcome_faithful reached (by decide) (.hal 1) _).mpr
    (Or.inr ((completed_iff reached.rep (by decide)).mp completed))⟩

/-- Two inferences on a session that is there. One prompt is too long to decode, and the client is told
that there is no session; the other one leaves no room for the second token, and the client is told
that the text is complete. -/
theorem outcome_faithful_misreports : ∃ w, newSession = .ok w ∧ (w.mSessions 1).isSome = true ∧
    newReport (.hal 1) (text "hello") 5 w = some .sessionNotFound ∧
    ¬ Faithful (sim 4 10) 1 (text "hello") 5 none w (newReport (.hal 1) (text "hello") 5 w) ∧
    newReport .socket (text "abc") 5 w = some .done ∧
    ¬ Faithful (sim 4 10) 1 (text "abc") 5 none w (newReport .socket (text "abc") 5 w) := by
  have told : Gives (fun w => (w.mSessions 1).isSome = true ∧
      newReport (.hal 1) (text "hello") 5 w = some .sessionNotFound ∧
      newReport .socket (text "abc") 5 w = some .done ∧
      AtLoop (text "abc") (fun s => ¬ LoopDecodes (sim 4 10) 0 none 5 0 s) w) newSession := by
    unfold AtLoop
    decide +kernel
  obtain ⟨w, created, living, absent, done, atLoop⟩ := gives_iff.mp told
  obtain ⟨⟨ctx, w1⟩, active, rfl, decoded, records⟩ := gives_iff.mp atLoop
  obtain ⟨w2, records, fails⟩ := gives_iff.mp records
  refine ⟨w, created, living, absent, fun faithful => ?_, done, fun faithful => ?_⟩
  · rw [faithful.notFound.mp absent] at living
    cases living
  · have works := (completed_iff (reached_of_run created).rep (by decide)).mp (faithful.done.mp done)
    exact fails ((works.2 0 w1 active).2 w2 records)

end MiniV
