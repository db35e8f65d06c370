/-
**The daemon: both front ends over one engine.**

`MiniVAiHalService` serves binder calls, and runs every inference it accepts on a detached thread of
its own; `HandleClient` serves the commands of the one socket client, and reads the next one when the
last is done. Both call the same engine. An action is one binder call, one command, or the next step
of an inference, and a run of the daemon takes actions in any order: each call of the session
manager, each critical section of `gCancelMapMutex`, each sample and each decode is atomic. An action
that nothing is there to take (a step of an inference that has ended, a command while the socket's
inference runs) changes nothing.

`step_taken` says once what an action can do.
-/

import MiniV.Engine.Steps
import MiniV.Wire.HandleClient

namespace MiniV

open MiniV.Library

/-! ### Data -/

/-- What runs an inference: a thread of an accepted request, or the loop of the socket. -/
inductive Thread
  | hal (reqId : Nat)
  | socket
deriving DecidableEq, Repr

/-- The engine, the inferences that run, and the registry of cancel flags: `gCancelFlags` holds for a
session id the request whose flag it denotes. -/
structure Daemon (σ : Type) where
  ready : Bool
  world : World σ
  threads : Thread → Option Inference
  reqCounter : Nat
  cancelFlag : Nat → Bool
  gCancelFlags : Int → Option Nat

/-- The daemon when it starts to serve. -/
def Daemon.start {σ : Type} (ready : Bool) (nCtx : Nat) (swapDir : Bytes) (llama : σ) : Daemon σ where
  ready := ready
  world := World.start nCtx swapDir llama
  threads := fun _ => none
  reqCounter := 0
  cancelFlag := fun _ => false
  gCancelFlags := fun _ => none

/-- What the daemon does next. -/
inductive Action
  | createSession (sessionId : Int)
  | destroySession (sessionId : Int)
  | inferStream (sessionId : Int) (prompt : Bytes) (maxTokens : Int)
  | cancel (sessionId : Int)
  | command (command : Command)
  | advance (thread : Thread)
deriving DecidableEq, Repr

/-- What a client is told. -/
inductive Notice
  | nothing
  | returned (code : Int)
  | wrote (line : Bytes)
  | wroteToken (tok : Bytes)
  | onToken (sessionId : Int) (tok : Bytes)
  | onComplete (sessionId : Int)
  | onError (sessionId : Int) (code : Int) (message : Bytes)
deriving DecidableEq, Repr

def CREATE_SESSION_ERR_ENGINE_NOT_READY : Int := -401
def CREATE_SESSION_ERR_ALREADY_EXISTS : Int := -402
def DESTROY_SESSION_ERR_NOT_FOUND : Int := -403
def INFER_ERR_ENGINE_NOT_READY : Int := -404
def ERROR_SESSION_NOT_FOUND : Int := -501

namespace Daemon

variable {σ : Type}

/-- An inference starts, goes on or ends. -/
def setThread (thread : Thread) (inference : Option Inference) (d : Daemon σ) : Daemon σ :=
  { d with threads := Function.update d.threads thread inference }

@[simp] theorem setThread_self (thread : Thread) (inference : Option Inference) (d : Daemon σ) :
    (d.setThread thread inference).threads thread = inference := Function.update_self ..

theorem setThread_of_ne {thread thread' : Thread} (other : thread' ≠ thread)
    (inference : Option Inference) (d : Daemon σ) :
    (d.setThread thread inference).threads thread' = d.threads thread' :=
  Function.update_of_ne other _ _

/-- `cancelFlag && cancelFlag->load()`; the socket passes no flag. -/
def cancelled (d : Daemon σ) : Thread → Bool
  | .hal reqId => d.cancelFlag reqId
  | .socket => false

end Daemon

/-! ### The front ends -/

section Functions

variable {σ : Type} (L : Llama σ)

/-- A call through `sessionManager()`, which is null until the engine is loaded. -/
def callManager (op : Op) (d : Daemon σ) : Except Fault (Reply × Daemon σ) :=
  if d.ready then do
    let (r, w) ← serve L op d.world
    .ok (r, { d with world := w })
  else .error .nullManager

/-- A manager call, and the answer that its result is turned into. -/
def answerCall (op : Op) (answer : Reply → Notice) (d : Daemon σ) :
    Except Fault (Notice × Daemon σ) := do
  let (r, d) ← callManager L op d
  .ok (answer r, d)

/-- `MiniVAiHalService::createSession`. -/
def halCreateSession (sessionId : Int) (d : Daemon σ) : Except Fault (Notice × Daemon σ) :=
  if ¬ d.ready then .ok (.returned CREATE_SESSION_ERR_ENGINE_NOT_READY, d)
  else answerCall L (.createSession sessionId)
    (fun ok => .returned (if ok = .bool true then 0 else CREATE_SESSION_ERR_ALREADY_EXISTS)) d

/-- `MiniVAiHalService::destroySession`. -/
def halDestroySession (sessionId : Int) (d : Daemon σ) : Except Fault (Notice × Daemon σ) :=
  if ¬ d.ready then .ok (.returned DESTROY_SESSION_ERR_NOT_FOUND, d)
  else answerCall L (.killSession sessionId)
    (fun ok => .returned (if ok = .bool true then 0 else DESTROY_SESSION_ERR_NOT_FOUND)) d

/-- `MiniVAiHalService::inferStream`. -/
def inferStream (sessionId : Int) (prompt : Bytes) (maxTokens : Int) (d : Daemon σ) :
    Notice × Daemon σ :=
  let reqId := d.reqCounter + 1
  let d := { d with reqCounter := reqId }
  if ¬ d.ready then (.returned INFER_ERR_ENGINE_NOT_READY, d)
  else
    let d := { d with
      cancelFlag := Function.update d.cancelFlag reqId false
      gCancelFlags := Function.update d.gCancelFlags sessionId (some reqId) }
    (.returned 0, d.setThread (.hal reqId) (some { sessionId, prompt, maxTokens }))

/-- `MiniVAiHalService::cancel`. -/
def cancel (sessionId : Int) (d : Daemon σ) : Daemon σ :=
  match d.gCancelFlags sessionId with
  | none => d
  | some reqId => { d with cancelFlag := Function.update d.cancelFlag reqId true }

/-- The end of an inference after `infer` has returned. A thread of the HAL erases the slot of its
session before it tells its client. -/
def finish (thread : Thread) (sessionId : Int) (ok : Bool) (d : Daemon σ) : Notice × Daemon σ :=
  match thread with
  | .hal _ =>
    let d := { d with gCancelFlags := Function.update d.gCancelFlags sessionId none }
    (if ok then .onComplete sessionId
      else .onError sessionId ERROR_SESSION_NOT_FOUND (text "SESSION_NOT_FOUND"),
      d.setThread thread none)
  | .socket =>
    (.wrote (if ok then text "DONE\n" else text "ERROR SESSION_NOT_FOUND\n"),
      d.setThread thread none)

/-- A text that `infer` hands to `onToken`. -/
def tokenNotice (thread : Thread) (sessionId : Int) : Option Bytes → Notice
  | none => .nothing
  | some tok =>
    match thread with
    | .hal _ => .onToken sessionId tok
    | .socket => .wroteToken tok

/-- The next step of an inference. -/
def advance (thread : Thread) (d : Daemon σ) : Except Fault (Notice × Daemon σ) :=
  match d.threads thread with
  | none => .ok (.nothing, d)
  | some inference =>
    match inference.pc with
    | .returned ok => .ok (finish thread inference.sessionId ok d)
    | _ => do
      let ((pc, tok), w) ← inferStep L (d.cancelled thread) inference d.world
      .ok (tokenNotice thread inference.sessionId tok,
        { d with world := w }.setThread thread (some { inference with pc := pc }))

/-- A command of the socket, as `HandleClient` serves it with this engine. One for the NPU leaves this
engine alone; what it does to the other one, and that it can end the process, is in `serverStep`. -/
def serveCommand (command : Command) (d : Daemon σ) : Except Fault (Notice × Daemon σ) :=
  match command with
  | .createSession id =>
    if ¬ d.ready then .ok (.wrote (text "ERROR engine not ready\n"), d)
    else answerCall L (.createSession id)
      (fun ok => .wrote (if ok = .bool true then text "OK\n" else text "ERROR ALREADY_EXISTS\n")) d
  | .killSession id =>
    answerCall L (.killSession id)
      (fun ok => .wrote (if ok = .bool true then text "OK\n" else text "ERROR NOT_FOUND\n")) d
  | .setHotLimit count =>
    answerCall L (.setHotLimit count.toNat) (fun _ => .wrote (text "OK\n")) d
  | .setColdLimit bytes =>
    answerCall L (.setColdLimit bytes) (fun _ => .wrote (text "OK\n")) d
  | .infer sessionId maxTokens prompt =>
    if ¬ d.ready then .ok (.wrote (text "ERROR engine not ready\n"), d)
    else .ok (.nothing, d.setThread .socket (some { sessionId, prompt, maxTokens }))
  | .hello => .ok (.wrote (text "HELLO from miniv_ai\n"), d)
  | .npuLoad _ _ _ _ | .npuInfer _ _ | .ignored _ => .ok (.nothing, d)

/-- **One action of the daemon.** -/
def step (action : Action) (d : Daemon σ) : Except Fault (Notice × Daemon σ) :=
  match action with
  | .createSession sessionId => halCreateSession L sessionId d
  | .destroySession sessionId => halDestroySession L sessionId d
  | .inferStream sessionId prompt maxTokens => .ok (inferStream sessionId prompt maxTokens d)
  | .cancel sessionId => .ok (.nothing, cancel sessionId d)
  | .command command =>
    if (d.threads .socket).isSome then .ok (.nothing, d) else serveCommand L command d
  | .advance thread => advance L thread d

/-- The manager call that a command makes. -/
def commandCall (d : Daemon σ) : Command → Option Op
  | .createSession id => if d.ready then some (.createSession id) else none
  | .killSession id => some (.killSession id)
  | .setHotLimit count => some (.setHotLimit count.toNat)
  | .setColdLimit bytes => some (.setColdLimit bytes)
  | .infer _ _ _ | .npuLoad _ _ _ _ | .npuInfer _ _ | .hello | .ignored _ => none

/-- The manager call that an action makes. -/
def managerCall (d : Daemon σ) : Action → Option Op
  | .createSession sessionId => if d.ready then some (.createSession sessionId) else none
  | .destroySession sessionId => if d.ready then some (.killSession sessionId) else none
  | .inferStream _ _ _ | .cancel _ => none
  | .command command =>
    if (d.threads .socket).isSome then none else commandCall d command
  | .advance thread => (d.threads thread).bind (Inference.call L)

end Functions

/-! ### What the functions leave alone -/

section Frames

variable {σ : Type}

theorem finish_threads (thread : Thread) (id : Int) (ok : Bool) (d : Daemon σ) :
    (finish thread id ok d).2.threads = Function.update d.threads thread none := by
  cases thread <;> rfl

@[simp] theorem finish_world (thread : Thread) (id : Int) (ok : Bool) (d : Daemon σ) :
    (finish thread id ok d).2.world = d.world := by
  cases thread <;> rfl

@[simp] theorem finish_reqCounter (thread : Thread) (id : Int) (ok : Bool) (d : Daemon σ) :
    (finish thread id ok d).2.reqCounter = d.reqCounter := by
  cases thread <;> rfl

@[simp] theorem cancel_threads (id : Int) (d : Daemon σ) : (cancel id d).threads = d.threads := by
  unfold cancel
  split <;> rfl

@[simp] theorem cancel_world (id : Int) (d : Daemon σ) : (cancel id d).world = d.world := by
  unfold cancel
  split <;> rfl

@[simp] theorem cancel_reqCounter (id : Int) (d : Daemon σ) :
    (cancel id d).reqCounter = d.reqCounter := by
  unfold cancel
  split <;> rfl

@[simp] theorem inferStream_world (id : Int) (prompt : Bytes) (maxTokens : Int) (d : Daemon σ) :
    (inferStream id prompt maxTokens d).2.world = d.world := by
  unfold inferStream
  dsimp only
  split <;> rfl

@[simp] theorem inferStream_reqCounter (id : Int) (prompt : Bytes) (maxTokens : Int)
    (d : Daemon σ) : (inferStream id prompt maxTokens d).2.reqCounter = d.reqCounter + 1 := by
  unfold inferStream
  dsimp only
  split <;> rfl

/-- A request starts on a thread of its own, if at all. -/
theorem inferStream_threads (id : Int) (prompt : Bytes) (maxTokens : Int) (d : Daemon σ) :
    (inferStream id prompt maxTokens d).2.threads = if d.ready then
      Function.update d.threads (.hal (d.reqCounter + 1)) (some { sessionId := id, prompt, maxTokens })
    else d.threads := by
  unfold inferStream
  by_cases ready : d.ready = true
  · simp only [ready, not_true_eq_false, if_false, if_true]
    rfl
  · simp only [ready, not_false_eq_true, if_true, if_false, Bool.false_eq_true]

end Frames

/-! ### What an action does -/

/-- A call of a front end that is served at once. -/
def Action.isFront : Action → Bool
  | .createSession _ | .destroySession _ | .command _ => true
  | .inferStream _ _ _ | .cancel _ | .advance _ => false

section Outcomes

variable {σ : Type} (L : Llama σ)

/-- **One action**, with the daemon after it. -/
inductive Taken (d : Daemon σ) : Action → Daemon σ → Prop
  | refuses {action : Action} (front : action.isFront = true)
      (nothing : managerCall L d action = none) : Taken d action d
  | calls {action : Action} {op : Op} {r : Reply} {w : World σ} (front : action.isFront = true)
      (call : managerCall L d action = some op) (served : serve L op d.world = .ok (r, w)) :
      Taken d action { d with world := w }
  | asks (sessionId : Int) (prompt : Bytes) (maxTokens : Int) :
      Taken d (.inferStream sessionId prompt maxTokens)
        (inferStream sessionId prompt maxTokens d).2
  | cancels (sessionId : Int) : Taken d (.cancel sessionId) (cancel sessionId d)
  | starts {sessionId maxTokens : Int} {prompt : Bytes} (free : d.threads .socket = none) :
      Taken d (.command (.infer sessionId maxTokens prompt))
        (d.setThread .socket (some { sessionId, prompt, maxTokens }))
  | rests {thread : Thread} (absent : d.threads thread = none) : Taken d (.advance thread) d
  | advances {thread : Thread} {inference : Inference} {pc : Pc} {w : World σ}
      (running : d.threads thread = some inference) (goes : ∀ ok, inference.pc ≠ .returned ok)
      (stepped : Stepped L (d.cancelled thread) inference d.world pc w) :
      Taken d (.advance thread)
        ({ d with world := w }.setThread thread (some { inference with pc := pc }))
  | finishes {thread : Thread} {inference : Inference} {ok : Bool}
      (running : d.threads thread = some inference) (here : inference.pc = .returned ok) :
      Taken d (.advance thread) (finish thread inference.sessionId ok d).2

end Outcomes

variable {σ : Type} {L : Llama σ} {d d' : Daemon σ} {notice : Notice}

theorem callManager_ok {op : Op} {r : Reply} (result : callManager L op d = .ok (r, d')) :
    d.ready = true ∧ ∃ w, serve L op d.world = .ok (r, w) ∧ d' = { d with world := w } := by
  unfold callManager at result
  split at result
  · rename_i ready
    obtain ⟨⟨r', w⟩, served, result⟩ := bind_eq_ok.mp result
    cases result
    exact ⟨ready, w, served, rfl⟩
  · cases result

theorem taken_answer {action : Action} {op : Op} {answer : Reply → Notice}
    (front : action.isFront = true) (call : managerCall L d action = some op)
    (result : answerCall L op answer d = .ok (notice, d')) : Taken L d action d' := by
  obtain ⟨⟨r, d1⟩, called, result⟩ := bind_eq_ok.mp result
  obtain ⟨_, w, served, rfl⟩ := callManager_ok called
  cases result
  exact .calls front call served

theorem serveCommand_taken {command : Command} (free : d.threads .socket = none)
    (result : serveCommand L command d = .ok (notice, d')) : Taken L d (.command command) d' := by
  have call : managerCall L d (.command command) = commandCall d command := by
    simp only [managerCall, free, Option.isSome_none, Bool.false_eq_true, if_false]
  cases command with
  | createSession id =>
    rw [serveCommand] at result
    by_cases ready : d.ready = true
    · rw [if_neg (not_not.mpr ready)] at result
      exact taken_answer rfl (call.trans (if_pos ready)) result
    · rw [if_pos ready] at result
      cases result
      exact .refuses rfl (call.trans (if_neg ready))
  | killSession | setHotLimit | setColdLimit =>
    rw [serveCommand] at result
    exact taken_answer rfl call result
  | infer sessionId maxTokens prompt =>
    rw [serveCommand] at result
    split at result
    · cases result
      exact .refuses rfl call
    · cases result
      exact .starts free
  | npuLoad | npuInfer | hello | ignored =>
    cases result
    exact .refuses rfl call

theorem advance_taken {thread : Thread} (result : advance L thread d = .ok (notice, d')) :
    Taken L d (.advance thread) d' := by
  unfold advance at result
  split at result
  · rename_i absent
    cases result
    exact .rests absent
  · rename_i inference running
    split at result
    · rename_i ok here
      rw [Except.ok.injEq] at result
      have same : d' = (finish thread inference.sessionId ok d).2 := by rw [result]
      subst same
      exact .finishes running here
    · rename_i goes
      obtain ⟨⟨⟨pc, tok⟩, w⟩, stepped, result⟩ := bind_eq_ok.mp result
      cases result
      exact .advances running goes (inferStep_stepped stepped)

/-- **Every action that succeeds** is one of these. -/
theorem step_taken {action : Action} (result : step L action d = .ok (notice, d')) :
    Taken L d action d' := by
  cases action with
  | createSession sessionId =>
    rw [step, halCreateSession] at result
    by_cases ready : d.ready = true
    · rw [if_neg (not_not.mpr ready)] at result
      exact taken_answer rfl (if_pos ready) result
    · rw [if_pos ready] at result
      cases result
      exact .refuses rfl (if_neg ready)
  | destroySession sessionId =>
    rw [step, halDestroySession] at result
    by_cases ready : d.ready = true
    · rw [if_neg (not_not.mpr ready)] at result
      exact taken_answer rfl (if_pos ready) result
    · rw [if_pos ready] at result
      cases result
      exact .refuses rfl (if_neg ready)
  | inferStream sessionId prompt maxTokens =>
    rw [step, Except.ok.injEq] at result
    have same : d' = (inferStream sessionId prompt maxTokens d).2 := by rw [result]
    subst same
    exact .asks sessionId prompt maxTokens
  | cancel sessionId =>
    cases result
    exact .cancels sessionId
  | command command =>
    rw [step] at result
    split at result
    · rename_i busy
      cases result
      exact .refuses rfl (if_pos busy)
    · rename_i free
      exact serveCommand_taken (Option.not_isSome_iff_eq_none.mp free) result
  | advance thread => exact advance_taken result

/-- Whether the engine is loaded does not change. -/
theorem Taken.ready {action : Action} (taken : Taken L d action d') : d'.ready = d.ready := by
  cases taken with
  | refuses | calls | starts | rests | advances => rfl
  | asks =>
    unfold inferStream
    dsimp only
    split <;> rfl
  | cancels =>
    unfold cancel
    split <;> rfl
  | @finishes thread => cases thread <;> rfl

end MiniV
