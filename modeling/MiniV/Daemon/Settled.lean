/-
**The states of the daemon.**

Facts that every action keeps, whoever takes which step when. The manager is in one of its states,
every session has its tokens, and a context that an inference goes on with belongs to its session or
to nobody: it may be freed under the inference, but no other session ever gets it.

* `Taken.world`: an action makes its manager call, or changes no more than what llama holds;
* `Taken.comesFrom`, `Taken.stays`: an inference starts, takes its own step, or stays as it is;
* `settled_of_run`: the facts hold in every state of the daemon.
-/

import MiniV.Daemon.Contexts
import MiniV.Engine.Retained

namespace MiniV

open MiniV.Library

variable {σ : Type} {L : Llama σ} {d d' : Daemon σ} {action : Action} {w w' : World σ}
  {file : σ → Bytes → Option (List Token)} {thread : Thread} {inference : Inference}

/-! ### The world -/

/-- Only what llama holds and what is noted changes, and no file. -/
def OnlyOutside (file : σ → Bytes → Option (List Token)) (w w' : World σ) : Prop :=
  ∃ llama trace, w' = w.elsewhere llama trace ∧ file llama = file w.llama

theorem OnlyOutside.refl (w : World σ) : OnlyOutside file w w := ⟨w.llama, w.trace, rfl, rfl⟩

/-- The sessions stay, with their tokens. -/
theorem OnlyOutside.keeps (outside : OnlyOutside file w w') :
    w'.mSessions = w.mSessions ∧ stored file w' = stored file w := by
  obtain ⟨llama, trace, rfl, files⟩ := outside
  refine ⟨rfl, funext fun entry => ?_⟩
  unfold stored
  show (if _ then file llama _ else _) = _
  rw [files]

/-- **An action makes its manager call**, or changes no more than what llama holds. -/
theorem Taken.world (keeps : KeepsFiles L file) (taken : Taken L d action d') :
    (∃ op r, managerCall L d action = some op ∧ serve L op d.world = .ok (r, d'.world)) ∨
      managerCall L d action = none ∧ OnlyOutside file d.world d'.world := by
  cases taken with
  | refuses front nothing => exact Or.inr ⟨nothing, .refl _⟩
  | calls front call served => exact Or.inl ⟨_, _, call, served⟩
  | asks sessionId prompt maxTokens =>
    rw [inferStream_world]
    exact Or.inr ⟨rfl, .refl _⟩
  | cancels sessionId =>
    rw [cancel_world]
    exact Or.inr ⟨rfl, .refl _⟩
  | starts free => exact Or.inr ⟨ite_self _, .refl _⟩
  | rests absent => exact Or.inr ⟨by rw [managerCall, absent]; rfl, .refl _⟩
  | advances running goes stepped =>
    rw [managerCall, running]
    rcases stepped.world with served | ⟨call, llama, trace, after, files⟩
    · exact Or.inl served
    · exact Or.inr ⟨call, llama, trace, after, files file keeps⟩
  | finishes running here =>
    rw [managerCall, running, finish_world, Option.bind_some, Inference.call, here]
    exact Or.inr ⟨rfl, .refl _⟩

/-! ### The threads -/

/-- Requests are counted up. -/
theorem Taken.reqCounter (taken : Taken L d action d') : d.reqCounter ≤ d'.reqCounter := by
  cases taken with
  | asks => simp
  | cancels => simp
  | finishes => simp
  | refuses | calls | starts | rests | advances => exact le_rfl

theorem Taken.accepted (taken : Taken L d action d') (known : thread ∈ d.accepted) :
    thread ∈ d'.accepted := by
  cases thread with
  | socket => exact List.mem_cons_self
  | hal reqId => exact mem_accepted.mpr ((mem_accepted.mp known).trans taken.reqCounter)

/-- Where an inference that runs after an action comes from. -/
inductive ComesFrom (L : Llama σ) (d : Daemon σ) (action : Action) (d' : Daemon σ) (thread : Thread)
    (inference : Inference) : Prop
  | stays (running : d.threads thread = some inference)
  | starts (accepted : thread ∈ d'.accepted) (here : inference.pc = .activate)
  | steps {before : Inference} {pc : Pc} (running : d.threads thread = some before)
      (same : inference = { before with pc := pc }) (own : action = .advance thread)
      (stepped : Stepped L (d.cancelled thread) before d.world pc d'.world)

/-- **Every inference** was there before, or starts, or took a step of its own. -/
theorem Taken.comesFrom (taken : Taken L d action d') (running : d'.threads thread = some inference) :
    ComesFrom L d action d' thread inference := by
  cases taken with
  | refuses | rests | calls => exact .stays running
  | asks sessionId prompt maxTokens =>
    rw [inferStream_threads] at running
    split at running
    · by_cases same : thread = .hal (d.reqCounter + 1)
      · subst same
        rw [Function.update_self, Option.some.injEq] at running
        subst running
        exact .starts (mem_accepted.mpr (inferStream_reqCounter ..).ge) rfl
      · rw [Function.update_of_ne same] at running
        exact .stays running
    · exact .stays running
  | cancels sessionId =>
    rw [cancel_threads] at running
    exact .stays running
  | starts free =>
    by_cases same : thread = .socket
    · subst same
      rw [Daemon.setThread_self, Option.some.injEq] at running
      subst running
      exact .starts List.mem_cons_self rfl
    · rw [Daemon.setThread_of_ne same] at running
      exact .stays running
  | @advances thread' before pc w running' goes stepped =>
    by_cases same : thread = thread'
    · subst same
      rw [Daemon.setThread_self, Option.some.injEq] at running
      exact .steps running' running.symm rfl stepped
    · rw [Daemon.setThread_of_ne same] at running
      exact .stays running
  | @finishes thread' before ok running' here =>
    rw [finish_threads] at running
    by_cases same : thread = thread'
    · subst same
      rw [Function.update_self] at running
      cases running
    · rw [Function.update_of_ne same] at running
      exact .stays running

/-- The action of an inference: a step of its own, or its end. -/
theorem Taken.own (taken : Taken L d (.advance thread) d')
    (running : d.threads thread = some inference) :
    (∃ pc, (∀ ok, inference.pc ≠ .returned ok) ∧
        d'.threads thread = some { inference with pc := pc } ∧
        Stepped L (d.cancelled thread) inference d.world pc d'.world) ∨
      (∃ ok, inference.pc = .returned ok) ∧ d'.threads thread = none := by
  cases taken with
  | refuses front => cases front
  | calls front => cases front
  | rests absent =>
    rw [running] at absent
    cases absent
  | advances running' goes stepped =>
    rw [running, Option.some.injEq] at running'
    subst running'
    exact Or.inl ⟨_, goes, Daemon.setThread_self .., stepped⟩
  | finishes running' here =>
    rw [running, Option.some.injEq] at running'
    subst running'
    refine Or.inr ⟨⟨_, here⟩, ?_⟩
    rw [finish_threads, Function.update_self]

/-- An inference that does not take a step stays as it is. -/
theorem Taken.stays (taken : Taken L d action d') (known : thread ∈ d.accepted)
    (running : d.threads thread = some inference) (other : action ≠ .advance thread) :
    d'.threads thread = some inference := by
  cases taken with
  | refuses | rests | calls => exact running
  | asks sessionId prompt maxTokens =>
    rw [inferStream_threads]
    split
    · rw [Function.update_of_ne ?_]
      · exact running
      · rintro rfl
        exact absurd (mem_accepted.mp known) (Nat.not_succ_le_self _)
    · exact running
  | cancels sessionId =>
    rw [cancel_threads]
    exact running
  | starts free =>
    rw [Daemon.setThread_of_ne ?_]
    · exact running
    · rintro rfl
      rw [free] at running
      cases running
  | advances =>
    rw [Daemon.setThread_of_ne fun same => other (by rw [same])]
    exact running
  | finishes =>
    rw [finish_threads, Function.update_of_ne fun same => other (by rw [same])]
    exact running

/-! ### Contexts that inferences go on with -/

/-- The context that an inference goes on with. -/
def Pc.context : Pc → Option Ctx
  | .prefill ctx | .recordPrompt ctx | .head ctx _ _ | .sample ctx _ _ | .decode ctx _ _ _ => some ctx
  | .activate | .recordGenerated _ | .returned _ => none

theorem loopTest_context {ctx c : Ctx} {maxTokens : Int} {i : Nat} {generated : List Token}
    (later : (loopTest ctx maxTokens i generated).context = some c) : ctx = c := by
  unfold loopTest at later
  split at later
  · exact Option.some.inj later
  · cases later

/-- An inference goes on with the context it was activated with. -/
theorem Stepped.context {cancelled : Bool} {pc : Pc} {c : Ctx}
    (stepped : Stepped L cancelled inference w pc w') (later : pc.context = some c) :
    inference.pc.context = some c ∨
      serve L (.activateForInfer inference.sessionId) w = .ok (.ctx (some c), w') := by
  cases stepped with
  | noContext | prefillFails | stops | samplesEnd | decodeFails | recordsGenerated | stays =>
    cases later
  | activates here active =>
    cases later
    exact Or.inr (serve_activate active)
  | prefills here | goesOn here | samples here =>
    cases later
    exact Or.inl (by rw [here]; rfl)
  | recordsPrompt here | decodes here =>
    obtain rfl := loopTest_context later
    exact Or.inl (by rw [here]; rfl)

/-! ### Every state -/

/-- **What holds in every state of the daemon.** -/
structure Settled (L : Llama σ) (nCtx : Nat) (swapDir : Bytes)
    (file : σ → Bytes → Option (List Token)) (d : Daemon σ) : Prop where
  reached : Reached L nCtx swapDir d.world
  known : ∀ thread inference, d.threads thread = some inference → thread ∈ d.accepted
  born : ∀ thread inference ctx, d.threads thread = some inference →
    inference.pc.context = some ctx → ctx < d.world.created
  own : ∀ thread inference ctx, d.threads thread = some inference →
    inference.pc.context = some ctx → ∀ id, HoldsContext d.world id ctx → id = inference.sessionId
  tokens : ∀ id entry, d.world.mSessions id = some entry →
    ∃ tokens, stored file d.world entry = some tokens

section Settled

variable {nCtx : Nat} {swapDir : Bytes}

theorem Settled.start (L : Llama σ) (ready : Bool) (nCtx : Nat) (swapDir : Bytes) (llama : σ)
    (file : σ → Bytes → Option (List Token)) :
    Settled L nCtx swapDir file (Daemon.start ready nCtx swapDir llama) where
  reached := .start llama
  known _ _ running := by cases running
  born _ _ _ running := by cases running
  own _ _ _ running := by cases running
  tokens _ _ found := by cases found

/-- A context that is not freed is held by the session of the inference that goes on with it. -/
theorem Settled.holds (settled : Settled L nCtx swapDir file d) {ctx : Ctx}
    (running : d.threads thread = some inference) (goes : inference.pc.context = some ctx)
    (alive : ctx ∉ d.world.freed) : HoldsContext d.world inference.sessionId ctx := by
  have born := settled.born thread inference ctx running goes
  rcases settled.reached.rep.owned.once ctx born with ⟨⟨id, entry, found, holds⟩, _⟩ | ⟨_, once⟩
  · have held : HoldsContext d.world id ctx := holdsContext_iff.mpr ⟨entry, found, holds⟩
    rwa [settled.own thread inference ctx running goes id held] at held
  · exact absurd (List.count_pos_iff.mp (once ▸ Nat.one_pos)) alive

/-- The world after an action: a state of the manager, with new contexts only, and the tokens of each
session that is not new. -/
theorem Settled.world (settled : Settled L nCtx swapDir file d) (keeps : KeepsFiles L file)
    (taken : Taken L d action d') : Reached L nCtx swapDir d'.world ∧ NewContexts d.world d'.world ∧
      ∀ id entry, d'.world.mSessions id = some entry →
        ∃ tokens, stored file d'.world entry = some tokens := by
  rcases taken.world keeps with ⟨op, r, _, served⟩ | ⟨_, outside⟩
  · have rep := settled.reached.rep
    refine ⟨settled.reached.call served, (serve_served rep served).newContexts rep,
      fun id entry found => ?_⟩
    rcases serve_follows keeps served rep settled.reached.paths entry found with
      ⟨_, here⟩ | ⟨entry', found', carry⟩
    · exact ⟨[], here⟩
    · obtain ⟨tokens, here⟩ := settled.tokens id entry' found'
      obtain ⟨tokens', here', _⟩ := carry tokens here
      exact ⟨tokens', here'⟩
  · obtain ⟨sessions, same⟩ := outside.keeps
    obtain ⟨llama, trace, after, _⟩ := outside
    rw [sessions, same, after]
    exact ⟨settled.reached.elsewhere llama trace, ⟨le_rfl, fun _ _ => Or.inl⟩, settled.tokens⟩

/-- **One action.** -/
theorem Taken.settled (taken : Taken L d action d') (keeps : KeepsFiles L file)
    (settled : Settled L nCtx swapDir file d) : Settled L nCtx swapDir file d' := by
  obtain ⟨reached, contexts, tokens⟩ := settled.world keeps taken
  have context : ∀ {thread inference ctx}, d'.threads thread = some inference →
      inference.pc.context = some ctx → ctx < d'.world.created ∧
        ∀ id, HoldsContext d'.world id ctx → id = inference.sessionId := by
    intro thread inference ctx running goes
    -- a context that was there before is nobody else's, before and after
    have old : ∀ {before : Inference}, d.threads thread = some before →
        before.pc.context = some ctx → before.sessionId = inference.sessionId →
        ctx < d'.world.created ∧ ∀ id, HoldsContext d'.world id ctx → id = inference.sessionId := by
      intro before running' goes' same
      have born := settled.born thread before ctx running' goes'
      refine ⟨born.trans_le contexts.created, fun id holds => ?_⟩
      rcases contexts.origin id ctx holds with held | new
      · exact (settled.own thread before ctx running' goes' id held).trans same
      · exact absurd born (Nat.not_lt.mpr new)
    cases taken.comesFrom running with
    | stays running' => exact old running' goes rfl
    | starts accepted here =>
      rw [here] at goes
      cases goes
    | @steps before pc running' same own stepped =>
      subst same
      rcases stepped.context goes with goes' | served
      · exact old running' goes' rfl
      · have holds := Served.activated (serve_served settled.reached.rep served)
        obtain ⟨entry, found, here⟩ := holdsContext_iff.mp holds
        refine ⟨reached.rep.owned.born _ entry ctx found here, fun id held => ?_⟩
        obtain ⟨entry', found', here'⟩ := holdsContext_iff.mp held
        exact reached.rep.owned.unique id _ entry' entry ctx found' found here' here
  refine ⟨reached, fun thread inference running => ?_,
    fun thread inference ctx running goes => (context running goes).1,
    fun thread inference ctx running goes => (context running goes).2, tokens⟩
  cases taken.comesFrom running with
  | stays running' => exact taken.accepted (settled.known thread inference running')
  | starts accepted here => exact accepted
  | steps running' same own stepped => exact taken.accepted (settled.known thread _ running')

/-- **Every state of the daemon.** -/
theorem settled_of_run (keeps : KeepsFiles L file) {ready : Bool} {llama : σ} {actions : List Action}
    (reach : run (step L) actions (Daemon.start ready nCtx swapDir llama) = .ok d) :
    Settled L nCtx swapDir file d :=
  run_invariant' (fun _ _ _ _ settled taken => (step_taken taken).settled keeps settled)
    (.start L ready nCtx swapDir llama file) reach

end Settled

end MiniV
