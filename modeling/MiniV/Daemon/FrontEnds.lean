/-
**Two front ends, one service.**

`HandleClient` and `MiniVAiHalService` wire the same session requests to the same engine, each with its
own guards and its own replies. Here every request is served to its end before the next one comes: an
inference is started, and its thread gets all its steps.

* `complete_infer`: run to its end like this, an inference is what `infer` computes;
* `front_ends_agree`: in any two mixtures of the front ends, a list of requests gives the same results
  and leaves the same sessions, and never calls the session manager through a null pointer, exactly
  when the engine is loaded or no request goes the unguarded way: `KILL_SESSION`, `SET_HOT_LIMIT` and
  `SET_COLD_LIMIT` of the socket do not ask whether it is.
-/

import MiniV.Daemon.Machine
import MiniV.Engine.Reached
import MiniV.Library.Relate
import MiniV.Llama.Sim

namespace MiniV

open MiniV.Library

/-! ### Requests and results -/

inductive Front
  | socket
  | hal
deriving DecidableEq, Repr

/-- A request of a client; the limits can only be set through the socket. -/
inductive Request
  | create (id : Int)
  | kill (id : Int)
  | infer (id : Int) (prompt : Bytes) (maxTokens : Int)
  | setHotLimit (count : UInt64)
  | setColdLimit (bytes : UInt64)
deriving DecidableEq, Repr

/-- Whether a request succeeded, and the texts it was streamed. -/
structure Outcome where
  ok : Bool
  texts : List Bytes
deriving DecidableEq, Repr

/-- The text that a notice carries. -/
def Notice.texts : Notice → List Bytes
  | .onToken _ tok | .wroteToken tok => [tok]
  | .nothing | .returned _ | .wrote _ | .onComplete _ | .onError _ _ _ => []

/-- A notice of success. -/
def Notice.succeeded : Notice → Bool
  | .returned code => code = 0
  | .wrote line => line = text "OK\n" || line = text "DONE\n"
  | .onComplete _ => true
  | .nothing | .wroteToken _ | .onToken _ _ | .onError _ _ _ => false

/-- How a request reaches the daemon. -/
def actionOf : Front → Request → Action
  | .socket, .create id => .command (.createSession id)
  | .hal, .create id => .createSession id
  | .socket, .kill id => .command (.killSession id)
  | .hal, .kill id => .destroySession id
  | .socket, .infer id prompt maxTokens => .command (.infer id maxTokens prompt)
  | .hal, .infer id prompt maxTokens => .inferStream id prompt maxTokens
  | _, .setHotLimit count => .command (.setHotLimit count)
  | _, .setColdLimit bytes => .command (.setColdLimit bytes)

/-- A command that does not ask whether the engine is loaded. -/
def unguarded : Front → Request → Bool
  | .socket, .kill _ | _, .setHotLimit _ | _, .setColdLimit _ => true
  | .hal, .kill _ | _, .create _ | _, .infer _ _ _ => false

section Functions

variable {σ : Type} (L : Llama σ)

/-- An inference gets its steps until it has ended. -/
def complete (thread : Thread) : Nat → Daemon σ → Except Fault (Outcome × Daemon σ)
  | 0, _ => .error .diverged
  | rounds + 1, d => do
    let (notice, d) ← advance L thread d
    match d.threads thread with
    | none => .ok (⟨notice.succeeded, notice.texts⟩, d)
    | some _ => do
      let (later, d) ← complete thread rounds d
      .ok (⟨later.ok, notice.texts ++ later.texts⟩, d)

/-- The thread that an inference sent through a front end runs on. -/
def threadOf (d : Daemon σ) : Front → Thread
  | .socket => .socket
  | .hal => .hal (d.reqCounter + 1)

/-- **A request is served**, from its arrival to its end. -/
def serveThrough (request : Front × Request) (d : Daemon σ) : Except Fault (Outcome × Daemon σ) := do
  let thread := threadOf d request.1
  let (notice, d) ← step L (actionOf request.1 request.2) d
  match d.threads thread with
  | none => .ok (⟨notice.succeeded, notice.texts⟩, d)
  | some inference => complete L thread (maxSteps inference.maxTokens) d

end Functions

/-! ### The service behind the front ends -/

section Service

variable {σ : Type} (L : Llama σ)

/-- A call of the manager as a request. -/
def called (op : Op) (good : Reply → Bool) (w : World σ) : Except Fault (Outcome × World σ) := do
  let (r, w) ← serve L op w
  .ok (⟨good r, []⟩, w)

/-- **What a request is to do**: nothing and fail while no model is loaded, and its one call of the
engine afterwards. -/
def service (ready : Bool) (request : Request) (w : World σ) : Except Fault (Outcome × World σ) :=
  if ready then
    match request with
    | .create id => called L (.createSession id) (fun r => r = .bool true) w
    | .kill id => called L (.killSession id) (fun r => r = .bool true) w
    | .setHotLimit count => called L (.setHotLimit count.toNat) (fun _ => true) w
    | .setColdLimit bytes => called L (.setColdLimit bytes) (fun _ => true) w
    | .infer id prompt maxTokens => do
      let (a, w) ← infer L id prompt maxTokens none w
      .ok (⟨a.ok, a.texts⟩, w)
  else .ok (⟨false, []⟩, w)

end Service

variable {σ : Type} {L : Llama σ} {d d' : Daemon σ} {w w' : World σ} {nCtx : Nat} {swapDir : Bytes}
  {ready : Bool} {thread : Thread}

/-- No inference runs, and the engine is in a state it can get to. -/
structure Waits (L : Llama σ) (nCtx : Nat) (swapDir : Bytes) (ready : Bool) (d : Daemon σ)
    (w : World σ) : Prop where
  idle : ∀ thread, d.threads thread = none
  ready : d.ready = ready
  world : d.world = w
  reached : Reached L nCtx swapDir w

theorem Waits.start (L : Llama σ) (ready : Bool) (nCtx : Nat) (swapDir : Bytes) (llama : σ) :
    Waits L nCtx swapDir ready (Daemon.start ready nCtx swapDir llama)
      (World.start nCtx swapDir llama) :=
  ⟨fun _ => rfl, rfl, rfl, .start llama⟩

/-! ### Inferences that run to their end -/

/-- The line that ends an inference of the socket. -/
theorem lastLine_succeeded (ok : Bool) : (Notice.wrote
    (if ok then text "DONE\n" else text "ERROR SESSION_NOT_FOUND\n")).succeeded = ok := by
  cases ok <;> decide

theorem finish_succeeded (thread : Thread) (id : Int) (ok : Bool) (d : Daemon σ) :
    (finish thread id ok d).1.succeeded = ok := by
  cases thread with
  | socket => exact lastLine_succeeded ok
  | hal reqId => cases ok <;> rfl

theorem finish_texts (thread : Thread) (id : Int) (ok : Bool) (d : Daemon σ) :
    (finish thread id ok d).1.texts = [] := by
  cases thread <;> cases ok <;> rfl

theorem tokenNotice_texts (thread : Thread) (id : Int) (text? : Option Bytes) :
    (tokenNotice thread id text?).texts = text?.toList := by
  cases text? <;> cases thread <;> rfl

/-- The socket passes no flag, and nobody sets the one of a request that runs alone. -/
theorem Pc.flag_none (pc : Pc) : pc.flag none = false := by
  cases pc <;> rfl

/-- An inference that goes on leaves nothing behind but what it did to the engine. -/
theorem finish_setThread (inference : Option Inference) (id : Int) (ok : Bool) (w w' : World σ) :
    (finish thread id ok { ({ d with world := w }.setThread thread inference) with world := w' }).2 =
      (finish thread id ok { d with world := w' }).2 := by
  cases thread <;> simp [finish, Daemon.setThread]

/-- The next step of an inference that nobody cancels. -/
theorem advance_goes {inference : Inference} (flag : d.cancelled thread = false)
    (running : d.threads thread = some inference) (goes : ∀ ok, inference.pc ≠ .returned ok) :
    advance L thread d = (do
      let ((pc, text?), w) ← inferStep L (inference.pc.flag none) inference d.world
      .ok (tokenNotice thread inference.sessionId text?,
        { d with world := w }.setThread thread (some { inference with pc := pc }))) := by
  simp only [advance, running, flag, Pc.flag_none]

/-- An inference on a thread gets through the steps that it takes alone. -/
theorem complete_alone {rounds : Nat} {inference : Inference} (flag : d.cancelled thread = false)
    (running : d.threads thread = some inference) :
    complete L thread rounds d = (do
      let (a, w) ← alone L none rounds inference d.world
      .ok (⟨a.ok, a.texts⟩, (finish thread inference.sessionId a.ok { d with world := w }).2)) := by
  induction rounds generalizing inference d with
  | zero => rfl
  | succ rounds ih =>
    rw [complete]
    by_cases ended : ∃ ok, inference.pc = .returned ok
    · obtain ⟨ok, here⟩ := ended
      have last : advance L thread d = .ok (finish thread inference.sessionId ok d) := by
        simp only [advance, running, here]
      have gone : (finish thread inference.sessionId ok d).2.threads thread = none := by
        rw [finish_threads, Function.update_self]
      rw [last, ok_bind, alone_returned here, ok_bind]
      simp only [gone]
      rw [finish_succeeded, finish_texts]
    · have goes : ∀ ok, inference.pc ≠ .returned ok := fun ok here => ended ⟨ok, here⟩
      rw [advance_goes flag running goes]
      cases stepped : inferStep L (inference.pc.flag none) inference d.world with
      | error e => rw [error_bind, error_bind, alone_fault goes stepped, error_bind]
      | ok result =>
        obtain ⟨⟨pc, text?⟩, w⟩ := result
        have next : ({ d with world := w }.setThread thread
            (some { inference with pc := pc })).threads thread = some { inference with pc := pc } :=
          Daemon.setThread_self ..
        rw [ok_bind, ok_bind, alone_step goes stepped]
        simp only [next]
        rw [ih (by cases thread <;> exact flag) next, bind_assoc, bind_assoc]
        refine bind_congr fun later => ?_
        rw [ok_bind, ok_bind, tokenNotice_texts, finish_setThread]

/-! ### One request -/

/-- Both front ends serve a request as the service does. -/
def ServesAs (L : Llama σ) (nCtx : Nat) (swapDir : Bytes) (ready : Bool) :
    Except Fault (Outcome × Daemon σ) → Except Fault (Outcome × World σ) → Prop :=
  Lift Eq fun a b => a.1 = b.1 ∧ Waits L nCtx swapDir ready a.2 b.2

theorem returned_succeeded {code : Int} (failure : code ≠ 0) (p : Prop) [Decidable p] :
    (Notice.returned (if p then 0 else code)).succeeded = decide p := by
  by_cases holds : p <;> simp [holds, Notice.succeeded, failure]

theorem wroteOk_succeeded : (Notice.wrote (text "OK\n")).succeeded = true := by
  decide

theorem wrote_succeeded {line : Bytes} (failure : (Notice.wrote line).succeeded = false) (p : Prop)
    [Decidable p] : (Notice.wrote (if p then text "OK\n" else line)).succeeded = decide p := by
  by_cases holds : p
  · rw [if_pos holds, decide_eq_true holds, wroteOk_succeeded]
  · rw [if_neg holds, failure, decide_eq_false holds]

/-- The socket takes a command when no inference of its own runs. -/
theorem step_command (command : Command) (free : d.threads .socket = none) :
    step L (.command command) d = serveCommand L command d := by
  rw [step, free]
  exact if_neg Bool.false_ne_true

theorem serveCommand_kill (id : Int) : serveCommand L (.killSession id) d =
    answerCall L (.killSession id)
      (fun ok => .wrote (if ok = .bool true then text "OK\n" else text "ERROR NOT_FOUND\n")) d := rfl

theorem serveCommand_setHotLimit (count : UInt64) : serveCommand L (.setHotLimit count) d =
    answerCall L (.setHotLimit count.toNat) (fun _ => .wrote (text "OK\n")) d := rfl

theorem serveCommand_setColdLimit (bytes : UInt64) : serveCommand L (.setColdLimit bytes) d =
    answerCall L (.setColdLimit bytes) (fun _ => .wrote (text "OK\n")) d := rfl

/-- A request that is one call of the manager. -/
theorem Waits.call {front : Front} {request : Request} {op : Op} {answer : Reply → Notice}
    {good : Reply → Bool} (waits : Waits L nCtx swapDir true d w)
    (taken : step L (actionOf front request) d = answerCall L op answer d)
    (tells : ∀ r, (answer r).succeeded = good r) (silent : ∀ r, (answer r).texts = [])
    (what : service L true request w = called L op good w) :
    ServesAs L nCtx swapDir true (serveThrough L (front, request) d) (service L true request w) := by
  simp only [serveThrough]
  rw [taken, what, answerCall, callManager, if_pos waits.ready, waits.world, called]
  cases served : serve L op w with
  | error e => exact .error rfl
  | ok result =>
    simp only [ok_bind, waits.idle]
    rw [tells, silent]
    exact .ok ⟨rfl, waits.idle, waits.ready, rfl, waits.reached.call served⟩

/-- A request that is turned away. -/
theorem Waits.refuse {front : Front} {request : Request} {notice : Notice} {d1 : Daemon σ}
    (waits : Waits L nCtx swapDir false d1 w)
    (taken : step L (actionOf front request) d = .ok (notice, d1))
    (failed : notice.succeeded = false) (silent : notice.texts = []) :
    ServesAs L nCtx swapDir false (serveThrough L (front, request) d)
      (service L false request w) := by
  simp only [serveThrough]
  rw [taken, ok_bind, waits.idle, failed, silent]
  exact .ok ⟨rfl, waits⟩

/-- **An inference** that runs to its end is what `infer` computes. -/
theorem complete_infer {id : Int} {prompt : Bytes} {maxTokens : Int}
    (reached : Reached L nCtx swapDir d.world) (ready : d.ready = true)
    (flag : d.cancelled thread = false)
    (only : d.threads = Function.update (fun _ => none) thread (some ⟨id, prompt, maxTokens, .activate⟩)) :
    ServesAs L nCtx swapDir true (complete L thread (maxSteps maxTokens) d)
      (service L true (.infer id prompt maxTokens) d.world) := by
  have running : d.threads thread = some ⟨id, prompt, maxTokens, .activate⟩ := by
    rw [only, Function.update_self]
  rw [complete_alone flag running, alone_infer reached.rep, service, if_pos rfl]
  cases result : infer L id prompt maxTokens none d.world with
  | error e => exact .error rfl
  | ok answer =>
    refine .ok ⟨rfl, fun thread' => ?_, ?_, ?_, reached.infer (infer_spec result)⟩
    · rw [finish_threads]
      show Function.update d.threads thread none thread' = none
      rw [only, Function.update_idem]
      exact congrFun (Function.update_eq_self thread (fun _ => none)) thread'
    · cases thread <;> exact ready
    · cases thread <;> rfl

/-- A loaded engine serves every request as the service does. -/
theorem serveThrough_loaded {front : Front} {request : Request}
    (waits : Waits L nCtx swapDir true d w) :
    ServesAs L nCtx swapDir true (serveThrough L (front, request) d) (service L true request w) := by
  have isReady : ¬ ¬ d.ready = true := not_not.mpr waits.ready
  have nobody : d.threads = fun _ => none := funext waits.idle
  have takes := fun command => step_command (L := L) command (waits.idle _)
  cases request with
  | create id =>
    cases front with
    | socket =>
      exact waits.call ((takes _).trans (if_neg isReady))
        (fun r => wrote_succeeded (by decide) (r = .bool true)) (fun r => rfl) rfl
    | hal =>
      exact waits.call (if_neg isReady) (fun r => returned_succeeded (by decide) (r = .bool true))
        (fun r => rfl) rfl
  | kill id =>
    cases front with
    | socket =>
      exact waits.call ((takes _).trans (serveCommand_kill id))
        (fun r => wrote_succeeded (by decide) (r = .bool true)) (fun r => rfl) rfl
    | hal =>
      exact waits.call (if_neg isReady) (fun r => returned_succeeded (by decide) (r = .bool true))
        (fun r => rfl) rfl
  | setHotLimit count =>
    cases front with
    | _ =>
      exact waits.call ((takes _).trans (serveCommand_setHotLimit count)) (fun r => wroteOk_succeeded)
        (fun r => rfl) rfl
  | setColdLimit bytes =>
    cases front with
    | _ =>
      exact waits.call ((takes _).trans (serveCommand_setColdLimit bytes))
        (fun r => wroteOk_succeeded) (fun r => rfl) rfl
  | infer id prompt maxTokens =>
    have reached : Reached L nCtx swapDir d.world := by
      rw [waits.world]
      exact waits.reached
    rw [← waits.world]
    simp only [serveThrough]
    cases front with
    | socket =>
      have starts : step L (actionOf .socket (.infer id prompt maxTokens)) d =
          .ok (.nothing, d.setThread .socket (some { sessionId := id, prompt, maxTokens })) :=
        (takes _).trans (if_neg isReady)
      rw [starts, ok_bind]
      simp only [threadOf, Daemon.setThread_self]
      refine complete_infer reached waits.ready rfl ?_
      rw [← nobody]
      rfl
    | hal =>
      have starts : step L (actionOf .hal (.infer id prompt maxTokens)) d =
          .ok (inferStream id prompt maxTokens d) := rfl
      rw [starts, ok_bind, inferStream]
      simp only [if_neg isReady, threadOf, Daemon.setThread_self]
      refine complete_infer reached waits.ready (Function.update_self ..) ?_
      rw [← nobody]
      rfl

/-- While no model is loaded, a request that is guarded is turned away. -/
theorem serveThrough_unloaded {front : Front} {request : Request}
    (waits : Waits L nCtx swapDir false d w) (guarded : unguarded front request = false) :
    ServesAs L nCtx swapDir false (serveThrough L (front, request) d)
      (service L false request w) := by
  have unready : ¬ d.ready = true := by
    rw [waits.ready]
    exact Bool.false_ne_true
  have takes := fun command => step_command (L := L) command (waits.idle _)
  cases request with
  | create id =>
    cases front with
    | socket => exact waits.refuse ((takes _).trans (if_pos unready)) (by decide) rfl
    | hal => exact waits.refuse (if_pos unready) (by decide) rfl
  | kill id =>
    cases front with
    | socket => cases guarded
    | hal => exact waits.refuse (if_pos unready) (by decide) rfl
  | setHotLimit | setColdLimit => cases front <;> cases guarded
  | infer id prompt maxTokens =>
    cases front with
    | socket => exact waits.refuse ((takes _).trans (if_pos unready)) (by decide) rfl
    | hal =>
      have counted : Waits L nCtx swapDir false { d with reqCounter := d.reqCounter + 1 } w :=
        ⟨waits.idle, waits.ready, waits.world, waits.reached⟩
      have turned : step L (actionOf .hal (.infer id prompt maxTokens)) d =
          .ok (.returned INFER_ERR_ENGINE_NOT_READY, { d with reqCounter := d.reqCounter + 1 }) := by
        show Except.ok (inferStream id prompt maxTokens d) = _
        rw [inferStream, if_pos unready]
      exact counted.refuse turned (by decide) rfl

/-- While no model is loaded, an unguarded command calls the manager through a null pointer. -/
theorem serveThrough_null {front : Front} {request : Request}
    (waits : Waits L nCtx swapDir false d w) (through : unguarded front request = true) :
    serveThrough L (front, request) d = .error .nullManager := by
  have unready : ¬ d.ready = true := by
    rw [waits.ready]
    exact Bool.false_ne_true
  have null : ∀ op (answer : Reply → Notice), answerCall L op answer d = .error .nullManager := by
    intro op answer
    rw [answerCall, callManager, if_neg unready, error_bind]
  have takes := fun command => step_command (L := L) command (waits.idle _)
  have faults : step L (actionOf front request) d = .error .nullManager := by
    cases request with
    | create | infer => cases front <;> cases through
    | kill id =>
      cases front with
      | socket => exact (takes _).trans ((serveCommand_kill id).trans (null _ _))
      | hal => cases through
    | setHotLimit count =>
      cases front <;> exact (takes _).trans ((serveCommand_setHotLimit count).trans (null _ _))
    | setColdLimit bytes =>
      cases front <;> exact (takes _).trans ((serveCommand_setColdLimit bytes).trans (null _ _))
  simp only [serveThrough]
  rw [faults, error_bind]

/-- **One request** goes the same way through both front ends, if it goes a guarded one. -/
theorem serveThrough_service {front : Front} {request : Request}
    (waits : Waits L nCtx swapDir ready d w)
    (guarded : ready = true ∨ unguarded front request = false) :
    ServesAs L nCtx swapDir ready (serveThrough L (front, request) d)
      (service L ready request w) := by
  cases ready with
  | true => exact serveThrough_loaded waits
  | false => exact serveThrough_unloaded waits (guarded.resolve_left Bool.false_ne_true)

/-! ### Whole runs -/

/-- Requests, each with the front end that it goes through. -/
abbrev Mixture := List (Front × Request)

/-- No request of a mixture goes the unguarded way. -/
def Guarded (mixture : Mixture) : Prop := ∀ q ∈ mixture, unguarded q.1 q.2 = false

/-- What a run shows: the results, whether the engine is loaded, and all that it holds. -/
def shown (x : Except Fault (List Outcome × Daemon σ)) :
    Except Fault (List Outcome × Bool × World σ) := do
  let (outcomes, d) ← x
  .ok (outcomes, d.ready, d.world)

/-- **Two runs agree**: they have the same results, leave the same sessions, and call nothing through
a null pointer. -/
structure Agree (x y : Except Fault (List Outcome × Daemon σ)) : Prop where
  same : shown x = shown y
  sound : x ≠ .error .nullManager ∧ y ≠ .error .nullManager

/-- The service stays inside the states of a manager, and finds it there. -/
theorem service_reached {request : Request} {outcome : Outcome} (reached : Reached L nCtx swapDir w)
    (result : service L ready request w = .ok (outcome, w')) : Reached L nCtx swapDir w' := by
  have calls : ∀ {op : Op} {good : Reply → Bool}, called L op good w = .ok (outcome, w') →
      Reached L nCtx swapDir w' := by
    intro op good result
    obtain ⟨⟨r, w1⟩, served, result⟩ := bind_eq_ok.mp result
    cases result
    exact reached.call served
  cases ready with
  | false =>
    cases result
    exact reached
  | true =>
    cases request with
    | infer id prompt maxTokens =>
      obtain ⟨⟨a, w1⟩, inferred, result⟩ := bind_eq_ok.mp result
      cases result
      exact reached.infer (infer_spec inferred)
    | create | kill | setHotLimit | setColdLimit =>
      simp only [service, if_true] at result
      exact calls result

theorem service_fault {request : Request} {e : Fault} (reached : Reached L nCtx swapDir w)
    (fault : service L ready request w = .error e) : e ≠ .nullManager := by
  have calls : ∀ {op : Op} {good : Reply → Bool}, called L op good w = .error e →
      e ≠ .nullManager := by
    intro op good fault
    rcases bind_eq_error.mp fault with fault | ⟨_, _, fault⟩
    · rcases serve_spec (L := L) reached.rep op with ⟨r, w1, served, _⟩ | ⟨dangling, _⟩
      · rw [fault] at served
        cases served
      · rw [fault] at dangling
        cases dangling
        exact nofun
    · cases fault
  cases ready with
  | false => cases fault
  | true =>
    cases request with
    | infer id prompt maxTokens =>
      rcases bind_eq_error.mp fault with fault | ⟨_, _, fault⟩
      · rcases infer_fault reached.rep fault with rfl | rfl <;> exact nofun
      · cases fault
    | create | kill | setHotLimit | setColdLimit =>
      simp only [service, if_true] at fault
      exact calls fault

/-- **A mixture** of requests is served as the service serves them. -/
theorem answers_service {mixture : Mixture} (waits : Waits L nCtx swapDir ready d w)
    (guarded : ready = true ∨ Guarded mixture) :
    Lift Eq (fun a b => a.1 = b.1 ∧ Waits L nCtx swapDir ready a.2 b.2)
      (answers (serveThrough L) mixture d) (answers (service L ready) (mixture.map Prod.snd) w) := by
  have ask : List.Forall₂ (fun (q : Front × Request) request =>
      (ready = true ∨ unguarded q.1 q.2 = false) ∧ q.2 = request) mixture (mixture.map Prod.snd) := by
    rw [List.forall₂_map_right_iff, List.forall₂_same]
    exact fun q member => ⟨guarded.imp_right fun all => all q member, rfl⟩
  have steps : ∀ (d : Daemon σ) (w : World σ) (q : Front × Request) (request : Request),
      Waits L nCtx swapDir ready d w →
      ((ready = true ∨ unguarded q.1 q.2 = false) ∧ q.2 = request) →
      ServesAs L nCtx swapDir ready (serveThrough L q d) (service L ready request w) := by
    rintro d w ⟨front, request⟩ _ waits ⟨way, rfl⟩
    exact serveThrough_service waits way
  refine (answers_lift steps ask waits).mono fun a b both => ⟨?_, both.2⟩
  rw [← List.forall₂_eq_eq_eq]
  exact both.1

/-- What a mixture shows is what the service answers. -/
theorem shown_service {mixture : Mixture} (waits : Waits L nCtx swapDir ready d w)
    (guarded : ready = true ∨ Guarded mixture) :
    shown (answers (serveThrough L) mixture d) = (do
      let (outcomes, w) ← answers (service L ready) (mixture.map Prod.snd) w
      .ok (outcomes, ready, w)) := by
  have lift := answers_service waits guarded
  generalize answers (serveThrough L) mixture d = x at lift ⊢
  generalize answers (service L ready) (mixture.map Prod.snd) w = y at lift ⊢
  cases lift with
  | @ok a b both =>
    obtain ⟨outcomes, after⟩ := both
    show Except.ok (a.1, a.2.ready, a.2.world) = Except.ok (b.1, ready, b.2)
    rw [outcomes, after.ready, after.world]
  | error same =>
    subst same
    rfl

/-- A guarded mixture never calls the manager through a null pointer. -/
theorem answers_sound {mixture : Mixture} (waits : Waits L nCtx swapDir ready d w)
    (guarded : ready = true ∨ Guarded mixture) :
    answers (serveThrough L) mixture d ≠ .error .nullManager := by
  intro null
  have lift := answers_service waits guarded
  rw [null] at lift
  obtain ⟨e, fault, rfl⟩ := lift.of_error
  have faults : ∀ (w : World σ) request e, Reached L nCtx swapDir w →
      service L ready request w = .error e → e ≠ .nullManager :=
    fun w request e reached fault => service_fault reached fault
  have other := run_fault (fun w request outcome w' reached result =>
    service_reached reached result) faults waits.reached (run_of_answers_error fault)
  exact other rfl

/-- A mixture that is not guarded does, while no model is loaded. -/
theorem guarded_of_sound {mixture : Mixture} (waits : Waits L nCtx swapDir false d w)
    (sound : answers (serveThrough L) mixture d ≠ .error .nullManager) : Guarded mixture := by
  induction mixture generalizing d with
  | nil => exact fun q member => absurd member List.not_mem_nil
  | cons q mixture ih =>
    obtain ⟨front, request⟩ := q
    cases way : unguarded front request with
    | true => exact absurd (answers_cons_error (serveThrough_null waits way)) sound
    | false =>
      have lift : ServesAs L nCtx swapDir false (serveThrough L (front, request) d)
          (.ok (⟨false, []⟩, w)) := serveThrough_unloaded waits way
      generalize served : serveThrough L (front, request) d = x at lift
      cases lift with
      | @ok a _ both =>
        have rest := ih both.2 fun null => sound (by rw [answers_cons_ok served, null, error_bind])
        intro q member
        rcases List.mem_cons.mp member with rfl | member
        · exact way
        · exact rest q member

/-- The first front ends, or the second ones, of a list of requests. -/
def firstMixture (requests : List (Front × Front × Request)) : Mixture :=
  requests.map fun q => (q.1, q.2.2)

@[inherit_doc firstMixture]
def secondMixture (requests : List (Front × Front × Request)) : Mixture :=
  requests.map fun q => (q.2.1, q.2.2)

/-- **The front ends agree.** Two mixtures of the same requests have the same results, leave the same
sessions and call nothing through a null pointer, exactly when the engine is loaded or no request
of either goes the unguarded way. -/
theorem front_ends_agree (L : Llama σ) (ready : Bool) (nCtx : Nat) (swapDir : Bytes) (llama : σ)
    (requests : List (Front × Front × Request)) :
    Agree (answers (serveThrough L) (firstMixture requests) (Daemon.start ready nCtx swapDir llama))
        (answers (serveThrough L) (secondMixture requests)
          (Daemon.start ready nCtx swapDir llama)) ↔
      ready = true ∨ Guarded (firstMixture requests) ∧ Guarded (secondMixture requests) := by
  have waits := Waits.start L ready nCtx swapDir llama
  constructor
  · intro agree
    cases ready with
    | true => exact Or.inl rfl
    | false =>
      exact Or.inr ⟨guarded_of_sound waits agree.sound.1, guarded_of_sound waits agree.sound.2⟩
  · intro way
    have way1 := way.imp_right And.left
    have way2 := way.imp_right And.right
    have same : (firstMixture requests).map Prod.snd = (secondMixture requests).map Prod.snd := by
      rw [firstMixture, secondMixture, List.map_map, List.map_map]
      rfl
    refine ⟨?_, answers_sound waits way1, answers_sound waits way2⟩
    rw [shown_service waits way1, shown_service waits way2, same]

/-- A request to end a session, to a daemon that was told to skip the engine: the binder call answers
that there is no such session, and the socket calls the manager through a null pointer. -/
theorem front_ends_agree_skipped :
    answers (serveThrough (sim 4 10)) [(.socket, .kill 1)]
        (Daemon.start false 4 (text "/s") (Sim.start [])) = .error .nullManager ∧
      Gives (fun a => a.1 = [⟨false, []⟩]) (answers (serveThrough (sim 4 10)) [(.hal, .kill 1)]
        (Daemon.start false 4 (text "/s") (Sim.start []))) ∧
      ¬ Agree (answers (serveThrough (sim 4 10)) (firstMixture [(.socket, .hal, .kill 1)])
          (Daemon.start false 4 (text "/s") (Sim.start [])))
        (answers (serveThrough (sim 4 10)) (secondMixture [(.socket, .hal, .kill 1)])
          (Daemon.start false 4 (text "/s") (Sim.start []))) := by
  have null : answers (serveThrough (sim 4 10)) [(.socket, .kill 1)]
      (Daemon.start false 4 (text "/s") (Sim.start [])) = .error .nullManager :=
    eq_error_of_faultOf (by decide +kernel)
  exact ⟨null, by decide +kernel, fun agree => agree.sound.1 null⟩

end MiniV
