/-
**How long a request goes on.**

Every step of a request brings it nearer to its end, whoever takes steps in between; once its cancel
flag is set it has only a few left.

* `Stepped.left`: a step takes one from what is left of an inference;
* `request_is_answered`: a request whose thread gets `maxSteps` steps has told its client how it ended;
* `cancel_is_prompt`: a request that a cancel reaches hands out one more text at most, and ends within
  six steps of its own, whatever the number of tokens it asked for.
-/

import MiniV.Daemon.Cancel
import MiniV.Daemon.Protocol

namespace MiniV

open MiniV.Library

variable {σ : Type} {L : Llama σ} {d d' mid : Daemon σ} {w w' : World σ} {notice : Notice}
  {action : Action} {inference : Inference} {pc : Pc} {actions before after : List Action}
  {h h' : List (Action × Notice)} {reqId : Nat}

/-! ### What is left of an inference -/

/-- The steps that are left of an inference, at most; the last one ends its thread. -/
def Pc.left (maxTokens : Int) : Pc → Nat
  | .activate => 3 * maxTokens.toNat + 8
  | .prefill _ => 3 * maxTokens.toNat + 7
  | .recordPrompt _ => 3 * maxTokens.toNat + 6
  | .head _ i _ => 3 * (maxTokens.toNat - i) + 5
  | .sample _ i _ => 3 * (maxTokens.toNat - i) + 4
  | .decode _ i _ _ => 3 * (maxTokens.toNat - i) + 3
  | .recordGenerated _ => 2
  | .returned _ => 1

/-- What is left of one whose cancel flag is set. -/
def Pc.leftCancelled : Pc → Nat
  | .activate => 6
  | .prefill _ | .sample _ _ _ => 5
  | .recordPrompt _ | .decode _ _ _ _ => 4
  | .head _ _ _ => 3
  | .recordGenerated _ => 2
  | .returned _ => 1

/-- The texts that one whose cancel flag is set still hands out. -/
def Pc.textsCancelled : Pc → Nat
  | .sample _ _ _ => 1
  | .activate | .prefill _ | .recordPrompt _ | .head _ _ _ | .decode _ _ _ _ | .recordGenerated _
  | .returned _ => 0

theorem Pc.left_le (maxTokens : Int) (pc : Pc) : pc.left maxTokens ≤ maxSteps maxTokens := by
  cases pc <;> simp only [Pc.left, maxSteps] <;> omega

theorem Pc.leftCancelled_le (pc : Pc) : pc.leftCancelled ≤ 6 := by
  cases pc <;> simp [Pc.leftCancelled]

theorem Pc.textsCancelled_le (pc : Pc) : pc.textsCancelled ≤ 1 := by
  cases pc <;> simp [Pc.textsCancelled]

theorem Pc.left_pos (maxTokens : Int) (pc : Pc) : 0 < pc.left maxTokens := by
  cases pc <;> simp [Pc.left]

theorem loopTest_left (ctx : Ctx) {maxTokens : Int} {i : Nat} (generated : List Token) :
    (loopTest ctx maxTokens i generated).left maxTokens ≤ 3 * (maxTokens.toNat - i) + 5 := by
  unfold loopTest
  split <;> simp [Pc.left]

/-- **A step** takes one at least from what is left. -/
theorem Stepped.left {cancelled : Bool} (stepped : Stepped L cancelled inference w pc w')
    (goes : ∀ ok, inference.pc ≠ .returned ok) :
    pc.left inference.maxTokens < inference.pc.left inference.maxTokens := by
  cases stepped with
  | noContext here | activates here | prefillFails here | prefills here | stops here | goesOn here
  | samplesEnd here | samples here | decodeFails here | recordsGenerated here =>
    rw [here]
    simp only [Pc.left]
    omega
  | @recordsPrompt ctx w' here =>
    rw [here]
    refine Nat.lt_of_le_of_lt (loopTest_left ctx []) ?_
    show 3 * (inference.maxTokens.toNat - 0) + 5 < 3 * inference.maxTokens.toNat + 6
    omega
  | @decodes ctx i generated tok here =>
    rw [here, loopTest]
    split
    · simp only [Pc.left]
      omega
    · simp only [Pc.left]
      omega
  | stays here => exact absurd here (goes _)

/-- **A step of a cancelled inference** takes one at least from what is left then. -/
theorem Stepped.leftCancelled (stepped : Stepped L true inference w pc w')
    (goes : ∀ ok, inference.pc ≠ .returned ok) :
    pc.leftCancelled < inference.pc.leftCancelled := by
  have tested : ∀ ctx i generated,
      (loopTest ctx inference.maxTokens i generated).leftCancelled ≤ 3 := by
    intro ctx i generated
    unfold loopTest
    split <;> simp [Pc.leftCancelled]
  cases stepped with
  | noContext here | activates here | prefillFails here | prefills here | stops here
  | samplesEnd here | samples here | decodeFails here | recordsGenerated here =>
    rw [here]
    simp [Pc.leftCancelled]
  | goesOn here go => cases go
  | @recordsPrompt ctx w' here =>
    rw [here]
    exact Nat.lt_succ_of_le (tested ctx 0 [])
  | @decodes ctx i generated tok here =>
    rw [here]
    exact Nat.lt_succ_of_le (tested ctx (i + 1) generated)
  | stays here => exact absurd here (goes _)

/-- A cancelled inference that samples hands out one text, and no other does. -/
theorem inferStep_textsCancelled {text? : Option Bytes}
    (result : inferStep L true inference w = .ok ((pc, text?), w')) :
    text?.toList.length + pc.textsCancelled ≤ inference.pc.textsCancelled := by
  have tested : ∀ ctx i generated,
      (loopTest ctx inference.maxTokens i generated).textsCancelled = 0 := by
    intro ctx i generated
    unfold loopTest
    split <;> rfl
  unfold inferStep at result
  cases here : inference.pc with
  | activate =>
    simp only [here] at result
    obtain ⟨⟨ctx, w1⟩, _, result⟩ := bind_eq_ok.mp result
    cases ctx <;> cases result <;> simp [Pc.textsCancelled]
  | prefill ctx =>
    simp only [here] at result
    split at result
    · cases result
    · cases result
      split <;> simp [Pc.textsCancelled]
  | recordPrompt ctx =>
    simp only [here] at result
    obtain ⟨w1, _, result⟩ := bind_eq_ok.mp result
    split at result
    · cases result
    · cases result
      simp [tested]
  | head ctx i generated =>
    simp only [here] at result
    cases result
    simp [Pc.textsCancelled]
  | sample ctx i generated =>
    simp only [here] at result
    split at result
    · cases result
    · split at result
      · cases result
        simp [Pc.textsCancelled]
      · obtain ⟨piece, _, result⟩ := bind_eq_ok.mp result
        cases result
        simp [Pc.textsCancelled]
  | decode ctx i generated tok =>
    simp only [here] at result
    split at result
    · cases result
    · cases result
      split
      · simp [Pc.textsCancelled]
      · simp [tested]
  | recordGenerated generated =>
    simp only [here] at result
    obtain ⟨w1, _, result⟩ := bind_eq_ok.mp result
    cases result
    simp [Pc.textsCancelled]
  | returned ok =>
    simp only [here] at result
    cases result
    simp [Pc.textsCancelled]

/-! ### What is left of a request -/

/-- What a measure says of the inference on a thread; nothing is left of one that has ended. -/
def Daemon.rest (measure : Inference → Nat) (thread : Thread) (d : Daemon σ) : Nat :=
  match d.threads thread with
  | none => 0
  | some inference => measure inference

/-- The steps that are left of an inference, at most. -/
def Inference.left (inference : Inference) : Nat := inference.pc.left inference.maxTokens

/-- The same once its cancel flag is set. -/
def Inference.leftCancelled (inference : Inference) : Nat := inference.pc.leftCancelled

/-- The texts that it still hands out then. -/
def Inference.textsCancelled (inference : Inference) : Nat := inference.pc.textsCancelled

theorem rest_none {measure : Inference → Nat} {thread : Thread} (gone : d.threads thread = none) :
    d.rest measure thread = 0 := by
  rw [Daemon.rest, gone]

theorem rest_some {measure : Inference → Nat} {thread : Thread}
    (running : d.threads thread = some inference) : d.rest measure thread = measure inference := by
  rw [Daemon.rest, running]

/-- The step of a request. -/
def isStepOf (reqId : Nat) (action : Action) : Bool := action = .advance (.hal reqId)

/-- The text of a request. -/
def isTextOf (reqId : Nat) (e : Action × Notice) : Bool :=
  isStepOf reqId e.1 && match e.2 with
    | .onToken _ _ => true
    | _ => false

/-- The request was made. -/
def Known (reqId : Nat) (d : Daemon σ) : Prop := reqId ≤ d.reqCounter

theorem known_step (known : Known reqId d) (result : step L action d = .ok (notice, d')) :
    Known reqId d' := known.trans (step_taken result).reqCounter

/-- **Every step of a request** takes one from a measure that falls with its steps, and no other action
does anything to it. -/
theorem rest_step {measure : Inference → Nat}
    (falls : ∀ {inference : Inference} {pc : Pc} {w' : World σ},
      Stepped L (d.cancelled (.hal reqId)) inference d.world pc w' →
      (∀ ok, inference.pc ≠ .returned ok) → measure { inference with pc := pc } < measure inference)
    (known : Known reqId d) (result : step L action d = .ok (notice, d')) :
    d'.rest measure (.hal reqId) ≤
      d.rest measure (.hal reqId) - if isStepOf reqId action = true then 1 else 0 := by
  have taken := step_taken result
  by_cases own : action = .advance (.hal reqId)
  · subst own
    rw [isStepOf, if_pos (decide_eq_true rfl)]
    cases running : d.threads (.hal reqId) with
    | none =>
      cases advance_advanced result with
      | rests absent => simp [rest_none running]
      | goes running' => simp [running] at running'
      | ends running' => simp [running] at running'
    | some inference =>
      rcases taken.own running with ⟨pc, goes, running', stepped⟩ | ⟨_, gone⟩
      · rw [rest_some running', rest_some running]
        exact Nat.le_sub_one_of_lt (falls stepped goes)
      · simp [rest_none gone]
  · rw [Daemon.rest, Daemon.rest, taken.foreign known own, if_neg (by simp [isStepOf, own])]
    exact le_rfl

/-- Something is left of an inference that runs. -/
theorem gone_of_rest (measure : Inference → Nat) (positive : ∀ inference, 0 < measure inference)
    (nothing : d.rest measure (.hal reqId) = 0) : d.threads (.hal reqId) = none := by
  cases running : d.threads (.hal reqId) with
  | none => rfl
  | some inference =>
    rw [rest_some running] at nothing
    exact absurd nothing (positive inference).ne'

/-- A request whose thread gets as many steps as are left has ended. -/
theorem request_ends (known : Known reqId mid)
    (told : history (step L) after mid = .ok (h', d))
    (served : mid.rest Inference.left (.hal reqId) ≤ after.countP (isStepOf reqId)) :
    d.threads (.hal reqId) = none := by
  have less : d.rest Inference.left (.hal reqId) ≤
      mid.rest Inference.left (.hal reqId) - after.countP (isStepOf reqId) :=
    history_countdown (I := Known reqId) (fun _ _ _ _ => known_step)
      (fun _ _ _ _ => rest_step Stepped.left) known told
  exact gone_of_rest Inference.left (fun inference => Pc.left_pos ..) (by omega)

/-- The requests that are numbered have their ids. -/
theorem known_of_asked {ready : Bool} {nCtx : Nat} {swapDir : Bytes} {llama : σ} {n : Nat} {ask : Ask}
    (told : history (step L) before (Daemon.start ready nCtx swapDir llama) = .ok (h, mid))
    (asked : askedAs n h = some ask) : Known (n + 1) mid := by
  rw [Known, ← (conversing_of_history told).counted]
  by_contra late
  rw [askedAs, List.getElem?_eq_none (by omega), Option.join_none] at asked
  cases asked

/-- The number of a request stays. -/
theorem askedAs_append {n : Nat} {ask : Ask} (asked : askedAs n h = some ask) :
    askedAs n (h ++ h') = some ask := by
  have found : (asks h)[n]? = some (some ask) := Option.join_eq_some_iff.mp asked
  have early := (List.getElem?_eq_some_iff.mp found).1
  rw [askedAs, asks, List.filterMap_append]
  exact Option.join_eq_some_iff.mpr ((List.getElem?_append_left early).trans found)

/-- **Every request is answered.** An accepted request whose thread gets its steps, whoever takes what
steps in between, has ended, and its client has been told how. -/
theorem request_is_answered {ready : Bool} {nCtx : Nat} {swapDir : Bytes} {llama : σ} {n : Nat}
    {ask : Ask}
    (told : history (step L) before (Daemon.start ready nCtx swapDir llama) = .ok (h, mid))
    (asked : askedAs n h = some ask) (later : history (step L) after mid = .ok (h', d))
    (served : maxSteps ask.maxTokens ≤ after.countP (isStepOf (n + 1))) :
    Conversation L (some ask) (callbacks (n + 1) (h ++ h')) false := by
  have known := known_of_asked told asked
  have left : mid.rest Inference.left (.hal (n + 1)) ≤ maxSteps ask.maxTokens := by
    have speaking := (conversing_of_history told).speaking n ask asked
    unfold Daemon.rest
    generalize callbacks (n + 1) h = calls at speaking
    generalize mid.threads (.hal (n + 1)) = running at speaking ⊢
    cases speaking with
    | runs said => exact Pc.left_le _ _
    | ended => exact Nat.zero_le _
  have gone := request_ends known later (left.trans served)
  have all := conversing_of_history (history_append_eq_ok.mpr ⟨h, mid, h', told, later, rfl⟩)
  have whole := all.conversation n
  rwa [askedAs_append asked, gone] at whole

/-- A session is created, and a request made on it. -/
def asking (maxTokens : Int) : List Action :=
  [.createSession 1, .inferStream 1 (text "ab") maxTokens]

/-- The request gets its steps, with the socket in between. -/
def ownSteps : Nat → List Action
  | 0 => []
  | count + 1 => .advance (.hal 1) :: .command .hello :: ownSteps count

theorem request_is_answered_turns :
    ∃ h h', history (step (sim 9 10)) (asking 2)
        (Daemon.start true 9 (text "/s") (Sim.start [104, 105])) = .ok h ∧
      history (step (sim 9 10)) (ownSteps 14) h.2 = .ok h' ∧
      Conversation (sim 9 10) (some ⟨1, text "ab", 2⟩) (callbacks 1 (h.1 ++ h'.1)) false := by
  have talk : Gives (fun a => askedAs 0 a.1 = some ⟨1, text "ab", 2⟩ ∧
      Gives (fun b => b.1.length = 28) (history (step (sim 9 10)) (ownSteps 14) a.2))
      (history (step (sim 9 10)) (asking 2)
        (Daemon.start true 9 (text "/s") (Sim.start [104, 105]))) := by
    decide +kernel
  obtain ⟨h, told, asked, rest⟩ := gives_iff.mp talk
  obtain ⟨h', later, _⟩ := gives_iff.mp rest
  exact ⟨h, h', told, later, request_is_answered told asked later (by decide +kernel)⟩

/-! ### After a cancel -/

/-- The request was made, and its cancel flag is set. -/
structure Stopping (reqId : Nat) (d : Daemon σ) : Prop where
  known : Known reqId d
  flag : d.cancelFlag reqId = true

/-- A cancel flag stays set. -/
theorem Stopping.step (stopping : Stopping reqId d) (result : step L action d = .ok (notice, d')) :
    Stopping reqId d' := by
  refine ⟨known_step stopping.known result, ?_⟩
  have known : reqId ≤ d.reqCounter := stopping.known
  cases step_taken result with
  | refuses | calls | starts | rests | advances => exact stopping.flag
  | asks sessionId prompt maxTokens =>
    unfold inferStream
    by_cases ready : d.ready = true
    · simp only [ready, not_true_eq_false, if_false]
      exact (Function.update_of_ne (by omega) ..).trans stopping.flag
    · simp only [ready, Bool.false_eq_true, not_false_eq_true, if_true]
      exact stopping.flag
  | cancels sessionId => exact (cancel_flag sessionId reqId).mpr (Or.inl stopping.flag)
  | finishes =>
    rename_i thread _ _ _ _
    cases thread <;> exact stopping.flag

/-- **Every step of a cancelled request** pays for the text it hands out. -/
theorem texts_step (stopping : Stopping reqId d) (result : step L action d = .ok (notice, d')) :
    (if isTextOf reqId (action, notice) = true then 1 else 0) +
      d'.rest Inference.textsCancelled (.hal reqId) ≤
        d.rest Inference.textsCancelled (.hal reqId) := by
  by_cases own : action = .advance (.hal reqId)
  · subst own
    cases advance_advanced result with
    | rests absent => simp [isTextOf]
    | @goes inference pc text? w running stepped =>
      have flag : d.cancelled (.hal reqId) = true := stopping.flag
      rw [flag] at stepped
      have pays := inferStep_textsCancelled stepped
      rw [rest_some running, rest_some (Daemon.setThread_self ..)]
      refine le_trans (Nat.add_le_add_right ?_ _) pays
      cases text? <;> simp [isTextOf, isStepOf, tokenNotice]
    | @ends inference ok running here =>
      have silent : isTextOf reqId (.advance (.hal reqId),
          (finish (.hal reqId) inference.sessionId ok d).1) = false := by
        cases ok <;> simp [isTextOf, finish]
      rw [silent, rest_none (by rw [finish_threads, Function.update_self])]
      simp
  · rw [Daemon.rest, Daemon.rest, (step_taken result).foreign stopping.known own,
      if_neg (by simp [isTextOf, isStepOf, own]), Nat.zero_add]

/-- **A cancel is prompt.** Once a cancel has found a request, its client is given one more text at
most, and its thread has ended after six steps of its own: what the request asked for does not matter,
and neither do the actions in between. -/
theorem cancel_is_prompt {ready : Bool} {nCtx : Nat} {swapDir : Bytes} {llama : σ} {sessionId : Int}
    (reach : run (step L) before (Daemon.start ready nCtx swapDir llama) = .ok mid)
    (found : mid.gCancelFlags sessionId = some reqId)
    (told : history (step L) (.cancel sessionId :: after) mid = .ok (h', d)) :
    h'.countP (isTextOf reqId) ≤ 1 ∧
      (6 ≤ after.countP (isStepOf reqId) → d.threads (.hal reqId) = none) := by
  have reg : Registered mid :=
    run_invariant' (fun _ _ _ _ reg result => (step_taken result).requests.registered reg)
      (Registered.start ready nCtx swapDir llama) reach
  obtain ⟨r, mid', h'', canceled, later, rfl⟩ := history_cons_eq_ok.mp told
  cases canceled
  have stopping : Stopping reqId (cancel sessionId mid) :=
    ⟨(reg.fresh sessionId reqId (reg.slot sessionId reqId found)).trans_eq
      (cancel_reqCounter sessionId mid).symm, (cancel_flag sessionId reqId).mpr (Or.inr found)⟩
  constructor
  · have paid : h''.countP (isTextOf reqId) + d.rest Inference.textsCancelled (.hal reqId) ≤
        (cancel sessionId mid).rest Inference.textsCancelled (.hal reqId) :=
      history_potential (I := Stopping reqId) (fun _ _ _ _ => Stopping.step)
        (fun _ _ _ _ => texts_step) stopping later
    have one : (cancel sessionId mid).rest Inference.textsCancelled (.hal reqId) ≤ 1 := by
      unfold Daemon.rest
      split
      · exact Nat.zero_le _
      · exact Pc.textsCancelled_le _
    rw [List.countP_cons_of_neg (by simp [isTextOf, isStepOf])]
    omega
  · intro served
    have less : d.rest Inference.leftCancelled (.hal reqId) ≤
        (cancel sessionId mid).rest Inference.leftCancelled (.hal reqId) -
          after.countP (isStepOf reqId) :=
      history_countdown (I := Stopping reqId) (fun _ _ _ _ => Stopping.step)
        (fun d _ _ _ stopping => rest_step (fun {inference pc w'} stepped goes => by
          have flag : d.cancelled (.hal reqId) = true := stopping.flag
          rw [flag] at stepped
          exact stepped.leftCancelled goes) stopping.known) stopping later
    have six : (cancel sessionId mid).rest Inference.leftCancelled (.hal reqId) ≤ 6 := by
      unfold Daemon.rest
      split
      · exact Nat.zero_le _
      · exact Pc.leftCancelled_le _
    refine gone_of_rest Inference.leftCancelled (fun inference => ?_) (by omega)
    unfold Inference.leftCancelled
    cases inference.pc <;> simp [Pc.leftCancelled]

/-- A request for a thousand tokens is cancelled when it is about to sample. -/
theorem cancel_is_prompt_early :
    ∃ d h, run (step (sim 9 10)) (asking 1000 ++ List.replicate 4 (.advance (.hal 1)))
        (Daemon.start true 9 (text "/s") (Sim.start [104, 105])) = .ok d ∧
      history (step (sim 9 10)) (.cancel 1 :: List.replicate 6 (.advance (.hal 1))) d = .ok h ∧
      h.1.countP (isTextOf 1) ≤ 1 ∧ h.2.threads (.hal 1) = none := by
  have talk : Gives (fun d => d.gCancelFlags 1 = some 1 ∧
      Gives (fun b => b.1.length = 7)
        (history (step (sim 9 10)) (.cancel 1 :: List.replicate 6 (.advance (.hal 1))) d))
      (run (step (sim 9 10)) (asking 1000 ++ List.replicate 4 (.advance (.hal 1)))
        (Daemon.start true 9 (text "/s") (Sim.start [104, 105]))) := by
    decide +kernel
  obtain ⟨d, reach, found, rest⟩ := gives_iff.mp talk
  obtain ⟨h, told, _⟩ := gives_iff.mp rest
  obtain ⟨few, ends⟩ := cancel_is_prompt reach found told
  exact ⟨d, h, reach, told, few, ends (by decide +kernel)⟩

end MiniV
