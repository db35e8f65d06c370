/-
**The contexts of inferences.**

`infer` takes a context out of the manager and goes on with it over many steps. Nothing tells the
manager that it is in use: another request may kill the session, or have it swapped out to make room
for its own, and the context is freed under the inference.

`contexts_living`: in a run in which no action kills or goes for a session whose context an inference
still needs, no inference ever uses a context that is freed.
-/

import MiniV.Daemon.Machine
import MiniV.Llama.Sim
import MiniV.Session.Release

namespace MiniV

open MiniV.Library

variable {σ : Type} {L : Llama σ} {d d' : Daemon σ} {notice : Notice} {action : Action}

/-! ### Use and need -/

/-- A sample or a decode that comes next uses a context that is not freed. -/
def UsesLiving (d : Daemon σ) : Action → Prop
  | .advance thread => ∀ inference ∈ d.threads thread, ∀ ctx ∈ inference.pc.uses, ctx ∉ d.world.freed
  | .createSession _ | .destroySession _ | .inferStream _ _ _ | .cancel _ | .command _ => True

instance (d : Daemon σ) : DecidablePred (UsesLiving d)
  | .advance thread => inferInstanceAs (Decidable (∀ inference ∈ d.threads thread, _))
  | .createSession _ | .destroySession _ | .inferStream _ _ _ | .cancel _ | .command _ =>
    isTrue trivial

/-- The threads there are: of the requests accepted so far, and of the socket. -/
def Daemon.accepted (d : Daemon σ) : List Thread :=
  .socket :: (List.range (d.reqCounter + 1)).map .hal

/-- The context an inference still needs. -/
def Daemon.needs (d : Daemon σ) (thread : Thread) (inference : Inference) : Option Ctx :=
  inference.pc.needs (d.cancelled thread) inference.maxTokens

/-- No inference on the session still needs its context. -/
def Unneeded (d : Daemon σ) (sessionId : Int) : Prop :=
  ∀ thread ∈ d.accepted, ∀ inference ∈ d.threads thread,
    inference.sessionId = sessionId → d.needs thread inference = none

instance (d : Daemon σ) (sessionId : Int) : Decidable (Unneeded d sessionId) :=
  inferInstanceAs (Decidable (∀ thread ∈ d.accepted, _))

/-- **The action spares the contexts in use**: the manager call it makes kills or goes for no session
whose context an inference still needs. -/
def Spares (L : Llama σ) (d : Daemon σ) (action : Action) : Prop :=
  ∀ op ∈ managerCall L d action, ∀ id ∈ released op d.world, Unneeded d id

instance (d : Daemon σ) (action : Action) : Decidable (Spares L d action) :=
  inferInstanceAs (Decidable (∀ op ∈ managerCall L d action, _))

/-- **Contexts that are needed are held** by the sessions of their inferences. -/
structure Holding (d : Daemon σ) : Prop where
  rep : Rep d.world
  known : ∀ thread inference, d.threads thread = some inference → thread ∈ d.accepted
  held : ∀ thread inference ctx, d.threads thread = some inference →
    d.needs thread inference = some ctx → HoldsContext d.world inference.sessionId ctx

theorem Holding.start (ready : Bool) (nCtx : Nat) (swapDir : Bytes) (llama : σ) :
    Holding (Daemon.start ready nCtx swapDir llama) where
  rep := Rep.start nCtx swapDir llama
  known _ _ running := by cases running
  held _ _ _ running := by cases running

/-- What is needed and held is not freed. -/
theorem Holding.usesLiving (holding : Holding d) (action : Action) : UsesLiving d action := by
  cases action with
  | advance thread =>
    intro inference running ctx uses
    exact (holding.held thread inference ctx running (Pc.needs_of_uses uses)).alive holding.rep
  | createSession | destroySession | inferStream | cancel | command => trivial

theorem mem_accepted {reqId : Nat} : .hal reqId ∈ d.accepted ↔ reqId ≤ d.reqCounter := by
  rw [Daemon.accepted, List.mem_cons, List.mem_map]
  constructor
  · rintro (same | ⟨reqId', member, same⟩)
    · cases same
    · cases same
      exact Nat.le_of_lt_succ (List.mem_range.mp member)
  · exact fun bound => Or.inr ⟨reqId, List.mem_range.mpr (Nat.lt_succ_of_le bound), rfl⟩

/-! ### One action -/

/-- A manager call that spares the contexts in use leaves them held. -/
theorem Holding.held_after (holding : Holding d) {op : Op} {r : Reply} {w : World σ}
    (served : serve L op d.world = .ok (r, w)) (call : managerCall L d action = some op)
    (spares : Spares L d action) {thread : Thread} {inference : Inference} {ctx : Ctx}
    (running : d.threads thread = some inference) (needs : d.needs thread inference = some ctx) :
    HoldsContext w inference.sessionId ctx := by
  refine (serve_served holding.rep served).keepsContext holding.rep
    (holding.held thread inference ctx running needs) fun released => ?_
  have unneeded := spares op call _ released thread (holding.known thread inference running)
    inference running rfl
  rw [needs] at unneeded
  cases unneeded

/-- A cancelled inference needs no more than it did. -/
theorem Pc.needs_of_cancelled {pc : Pc} {cancelled : Bool} {maxTokens : Int} {ctx : Ctx}
    (needs : pc.needs true maxTokens = some ctx) : pc.needs cancelled maxTokens = some ctx := by
  cases pc with
  | prefill | sample | decode => exact needs
  | recordPrompt | head | activate | recordGenerated | returned => cases needs

/-- Cancelling sets flags only. -/
theorem needs_cancel {sessionId : Int} {thread : Thread} {inference : Inference} {ctx : Ctx}
    (needs : (cancel sessionId d).needs thread inference = some ctx) :
    d.needs thread inference = some ctx := by
  unfold cancel at needs
  split at needs
  · exact needs
  · rename_i reqId slot
    cases thread with
    | socket => exact needs
    | hal reqId' =>
      unfold Daemon.needs Daemon.cancelled at needs ⊢
      by_cases same : reqId' = reqId
      · subst same
        simp only [Function.update_self] at needs
        exact Pc.needs_of_cancelled needs
      · simp only [Function.update_of_ne same] at needs
        exact needs

/-- A thread starts, goes on or ends: the other threads are as before. -/
theorem Holding.setThread (rep : Rep d.world)
    (known : ∀ thread inference, d.threads thread = some inference → thread ∈ d.accepted)
    {thread : Thread} {after : Option Inference} (accepted : thread ∈ d.accepted)
    (own : ∀ inference ctx, after = some inference → d.needs thread inference = some ctx →
      HoldsContext d.world inference.sessionId ctx)
    (others : ∀ thread' inference ctx, thread' ≠ thread → d.threads thread' = some inference →
      d.needs thread' inference = some ctx → HoldsContext d.world inference.sessionId ctx) :
    Holding (d.setThread thread after) where
  rep := rep
  known thread' inference running := by
    by_cases same : thread' = thread
    · exact same ▸ accepted
    · rw [Daemon.setThread_of_ne same] at running
      exact known thread' inference running
  held thread' inference ctx running needs := by
    by_cases same : thread' = thread
    · subst same
      rw [Daemon.setThread_self] at running
      exact own inference ctx running needs
    · rw [Daemon.setThread_of_ne same] at running
      exact others thread' inference ctx same running needs

/-- An inference that starts needs no context. -/
theorem needs_start {thread : Thread} {inference : Inference} {ctx : Ctx}
    (here : inference.pc = .activate) (needs : d.needs thread inference = some ctx) : False := by
  rw [Daemon.needs, here] at needs
  cases needs

/-- A request is accepted, or refused by an engine that is not ready. -/
theorem Holding.asks (holding : Holding d) (sessionId : Int) (prompt : Bytes) (maxTokens : Int) :
    Holding (inferStream sessionId prompt maxTokens d).2 := by
  have later : ∀ {thread}, thread ∈ d.accepted →
      thread ∈ ({ d with reqCounter := d.reqCounter + 1 } : Daemon σ).accepted := by
    intro thread accepted
    cases thread with
    | socket => exact List.mem_cons_self
    | hal reqId => exact mem_accepted.mpr ((mem_accepted.mp accepted).trans (Nat.le_succ _))
  have known : ∀ thread inference, d.threads thread = some inference →
      thread ∈ ({ d with reqCounter := d.reqCounter + 1 } : Daemon σ).accepted :=
    fun thread inference running => later (holding.known thread inference running)
  by_cases ready : d.ready = true
  · simp only [inferStream, ready, not_true_eq_false, if_false]
    refine Holding.setThread ?_ known (mem_accepted.mpr le_rfl) ?_ ?_
    · exact holding.rep
    · rintro inference ctx ⟨⟩ needs
      exact (needs_start rfl needs).elim
    · intro thread inference ctx other running needs
      refine holding.held thread inference ctx running ?_
      cases thread with
      | socket => exact needs
      | hal reqId =>
        have apart : reqId ≠ d.reqCounter + 1 := fun same => other (congrArg Thread.hal same)
        unfold Daemon.needs Daemon.cancelled at needs ⊢
        simp only [Function.update_of_ne apart] at needs
        exact needs
  · simp only [inferStream, ready]
    exact ⟨holding.rep, known, holding.held⟩

/-- A step of an inference that spares the contexts in use. -/
theorem Holding.advances (holding : Holding d) {thread : Thread} {inference : Inference} {pc : Pc}
    {w : World σ} (running : d.threads thread = some inference)
    (stepped : Stepped L (d.cancelled thread) inference d.world pc w)
    (spares : Spares L d (.advance thread)) :
    Holding ({ d with world := w }.setThread thread (some { inference with pc := pc })) := by
  have after : Rep w ∧ ∀ thread inference ctx, d.threads thread = some inference →
      d.needs thread inference = some ctx → HoldsContext w inference.sessionId ctx := by
    rcases stepped.world with ⟨op, r, call, served⟩ | ⟨_, llama, trace, rfl, _⟩
    · refine ⟨serve_rep holding.rep served, fun thread' inference' ctx running' needs => ?_⟩
      have called : managerCall L d (.advance thread) = some op := by
        rw [managerCall, running]
        exact call
      exact holding.held_after served called spares running' needs
    · exact ⟨holding.rep.of_same rfl rfl rfl rfl rfl rfl rfl, holding.held⟩
  obtain ⟨rep, held⟩ := after
  refine Holding.setThread (d := { d with world := w }) rep holding.known
    (holding.known thread inference running) ?_ fun thread' inference' ctx _ => held thread' inference' ctx
  rintro inference' ctx ⟨⟩ needs
  rcases stepped.needs needs with before | ⟨_, served⟩
  · exact held thread inference ctx running before
  · exact (serve_served holding.rep served).activated

/-- **An action that spares the contexts in use** leaves every needed context held. -/
theorem Taken.holding (taken : Taken L d action d') (holding : Holding d)
    (spares : Spares L d action) : Holding d' := by
  cases taken with
  | refuses | rests => exact holding
  | calls front call served =>
    exact ⟨serve_rep holding.rep served, holding.known, fun thread inference ctx running needs =>
      holding.held_after served call spares running needs⟩
  | asks sessionId prompt maxTokens => exact holding.asks sessionId prompt maxTokens
  | cancels sessionId =>
    refine ⟨(cancel_world sessionId d).symm ▸ holding.rep, fun thread inference running => ?_,
      fun thread inference ctx running needs => ?_⟩
    · rw [Daemon.accepted, cancel_reqCounter]
      exact holding.known thread inference (cancel_threads sessionId d ▸ running)
    · rw [cancel_world]
      exact holding.held thread inference ctx (cancel_threads sessionId d ▸ running)
        (needs_cancel needs)
  | starts free =>
    refine Holding.setThread holding.rep holding.known List.mem_cons_self ?_
      fun thread inference ctx _ => holding.held thread inference ctx
    rintro inference ctx ⟨⟩ needs
    exact (needs_start rfl needs).elim
  | advances running goes stepped => exact holding.advances running stepped spares
  | @finishes thread inference ok running here =>
    have accepted := holding.known thread inference running
    have others : ∀ thread' inference ctx, thread' ≠ thread → d.threads thread' = some inference →
        d.needs thread' inference = some ctx → HoldsContext d.world inference.sessionId ctx :=
      fun thread' inference ctx _ => holding.held thread' inference ctx
    have own : ∀ inference ctx, (none : Option Inference) = some inference →
        d.needs thread inference = some ctx → HoldsContext d.world inference.sessionId ctx := by
      intro inference ctx same
      cases same
    cases thread with
    | socket => exact Holding.setThread holding.rep holding.known accepted own others
    | hal reqId =>
      exact Holding.setThread
        (d := { d with gCancelFlags := Function.update d.gCancelFlags inference.sessionId none })
        holding.rep holding.known accepted own others

/-! ### Whole runs -/

/-- **No inference uses a freed context** in a run whose actions spare the contexts in use. -/
theorem contexts_living (L : Llama σ) (ready : Bool) (nCtx : Nat) (swapDir : Bytes) (llama : σ)
    (actions : List Action)
    (spares : Along (step L) (Spares L) actions (Daemon.start ready nCtx swapDir llama)) :
    Along (step L) UsesLiving actions (Daemon.start ready nCtx swapDir llama) :=
  along_of_invariant (fun _ _ _ _ holding spares taken => (step_taken taken).holding holding spares)
    (fun _ action holding _ => holding.usesLiving action)
    (Holding.start ready nCtx swapDir llama) spares

/-- Two requests and the socket take turns: session 2 has to make room once its request has ended, and
is killed, while the request on session 1 goes on. -/
def interleaved : List Action :=
  [.createSession 1, .createSession 2, .command (.createSession 3), .command (.setHotLimit 2),
    .inferStream 1 (text "ab") 2, .advance (.hal 1), .inferStream 2 (text "c") 1, .advance (.hal 2),
    .advance (.hal 1), .advance (.hal 2), .advance (.hal 2), .advance (.hal 2), .advance (.hal 2),
    .advance (.hal 2), .advance (.hal 2), .advance (.hal 1), .advance (.hal 2),
    .command (.infer 3 1 (text "d")), .advance .socket, .destroySession 2, .advance (.hal 1),
    .advance .socket, .advance (.hal 1), .advance (.hal 1), .cancel 1, .advance (.hal 1),
    .advance (.hal 1), .advance (.hal 1), .destroySession 1]

theorem contexts_living_interleaved :
    Along (step (sim 6 10)) UsesLiving interleaved (Daemon.start true 6 (text "/s") (Sim.start [7, 8])) :=
  contexts_living (sim 6 10) true 6 (text "/s") (Sim.start [7, 8]) interleaved (by decide +kernel)

/-- A session is killed between the activation and the prefill of an inference on it. -/
theorem contexts_living_destroyed :
    ¬ Along (step (sim 4 10)) UsesLiving
      [.createSession 1, .inferStream 1 (text "ab") 10, .advance (.hal 1), .destroySession 1,
        .advance (.hal 1)]
      (Daemon.start true 4 (text "/s") (Sim.start [])) := by
  decide +kernel

end MiniV
