/-
**Both command line tools, on one daemon.**

`hal_test_cli` reaches the engine through binder, `ai_daemon_cli` through the socket. `halMain` is a run
of the former: what `main` prints on its own thread, and what its callback prints meanwhile on another.
Its strings go through binder: the prompt on the way in, the texts and the model's description on the
way out.

* `hear_complete`: what the callback of the tool has printed when its request has ended;
* `halMain_performs`: whatever its arguments, a run of the tool makes its one call of the engine if the
  prompt arrives, prints what arrives of the answer, and leaves the engine as that call does, whether a
  model is loaded or not;
* `tools_perform`: so do runs of both tools in any order, one after another.
-/

import MiniV.Daemon.Terminal
import MiniV.Daemon.TestClient

namespace MiniV

open MiniV.Library

/-! ### The tool -/

/-- What a run of `hal_test_cli` prints: `main`, and its callback on a thread of binder. -/
structure HalPrinted where
  main : Bytes
  callback : Bytes
  exitCode : Int
deriving DecidableEq, Repr

/-- What a user of the tool wants. -/
inductive HalErrand
  | isReady
  | getModelInfo
  | createSession (id : Int)
  | destroySession (id : Int)
  | infer (id : Int) (prompt : Bytes) (maxTokens : Int)
  | cancel (id : Int)
deriving DecidableEq, Repr

/-- **The errand of a command line**, from `argv[1]` on; nothing when `Usage` is called. -/
def halErrand (args : List Bytes) : Option HalErrand :=
  match args with
  | [] => none
  | cmd :: rest =>
    if cmd = text "is_ready" then some .isReady
    else if cmd = text "get_model_info" then some .getModelInfo
    else
      match rest with
      | [] => none
      | id :: more =>
        if cmd = text "create_session" then some (.createSession (atoi id))
        else if cmd = text "destroy_session" then some (.destroySession (atoi id))
        else if cmd = text "infer" then
          match more with
          | prompt :: maxTokens :: _ => some (.infer (atoi id) prompt (atoi maxTokens))
          | _ => none
        else if cmd = text "cancel" then some (.cancel (atoi id))
        else none

/-- A run that prints one line itself. -/
def saysLine (line : Bytes) : HalPrinted := ⟨line ++ text "\n", [], 0⟩

/-- The line of a call that names a session and returns a number; it has no string that could fail it. -/
def returnsLine (call : Bytes) (id ret : Int) : Bytes :=
  call ++ text "(" ++ decimal id ++ text ") -> ok=1 ret=" ++ decimal ret

/-- The line of `inferStream`, with `isOk` of its status; the word in it is UTF-8. -/
def acceptedLine (isOk : Bool) (ret : Int) : Bytes :=
  text "inferStream() " ++ [0xEC, 0xA0, 0x91, 0xEC, 0x88, 0x98] ++
    (if isOk then text " -> ok=1 ret=" else text " -> ok=0 ret=") ++ decimal ret

/-- The line of `getModelInfo`; `info` is left empty when the call fails. -/
def modelInfoLine : Option Bytes → Bytes
  | none => text "getModelInfo() -> ok=0 info="
  | some info => text "getModelInfo() -> ok=1 info=" ++ cString info

/-- The number that a binder call returns. -/
def Notice.code : Notice → Int
  | .returned code => code
  | .nothing | .wrote _ | .wroteToken _ | .onToken _ _ | .onComplete _ | .onError _ _ _ => 0

section Functions

variable {σ τ : Type} (L : Llama σ) (N : NpuLlama τ) (binder : Binder) (modelInfo : Bytes)

/-- The calls that are made to the callback while the thread of its request runs to its end. -/
def hear (thread : Thread) : Nat → Daemon σ → Except Fault (List Notice × Daemon σ)
  | 0, _ => .error .diverged
  | rounds + 1, d => do
    let (notice, d) ← advance L thread d
    match d.threads thread with
    | none => .ok ([notice], d)
    | some _ => do
      let (later, d) ← hear thread rounds d
      .ok (notice :: later, d)

/-- **A run of `hal_test_cli`** that has found the service. `ret` is 0 before a call and stays so if it
fails. What `getModelInfo` answers does not change once the daemon serves. -/
def halMain (args : List Bytes) (d : Daemon σ) : Except Fault (HalPrinted × Daemon σ) :=
  match halErrand args with
  | none => .ok (⟨[], [], 1⟩, d)
  | some .isReady =>
    .ok (saysLine (text "isReady() -> ok=1 ready=" ++ decimal (if d.ready then 1 else 0)), d)
  | some .getModelInfo => .ok (saysLine (modelInfoLine (binder.carries modelInfo)), d)
  | some (.createSession id) => do
    let (notice, d) ← step L (.createSession id) d
    .ok (saysLine (returnsLine (text "createSession") id notice.code), d)
  | some (.destroySession id) => do
    let (notice, d) ← step L (.destroySession id) d
    .ok (saysLine (returnsLine (text "destroySession") id notice.code), d)
  | some (.infer id prompt maxTokens) =>
    match binder.carries prompt with
    | none => .ok (saysLine (acceptedLine false 0), d)
    | some prompt => do
      let (notice, d) ← step L (.inferStream id prompt maxTokens) d
      if notice.code = 0 then do
        -- `callback->wait()`
        let (calls, d) ← hear L (.hal d.reqCounter) (maxSteps maxTokens) d
        .ok (⟨acceptedLine true notice.code ++ text "\n", (listen binder calls).printed, 0⟩, d)
      else .ok (saysLine (acceptedLine true notice.code), d)
  | some (.cancel id) => do
    let (_, d) ← step L (.cancel id) d
    .ok (saysLine (text "cancel(" ++ decimal id ++ text ") -> ok=1"), d)

/-- What the callback is to print of an answer: the texts that arrive, and how the request ended. -/
def heardText (a : Answer) : Bytes :=
  if a.ok then shownText (binder.arriving a.texts) else text "\n[ERROR -501] SESSION_NOT_FOUND\n"

/-- **What a run of the tool is to do**: its one call of the engine, and what is printed of it. A prompt
that does not arrive is a call that is not made. -/
def halPerform (ready : Bool) (args : List Bytes) (w : World σ) :
    Except Fault (HalPrinted × World σ) :=
  match halErrand args with
  | none => .ok (⟨[], [], 1⟩, w)
  | some .isReady =>
    .ok (saysLine (text "isReady() -> ok=1 ready=" ++ decimal (if ready then 1 else 0)), w)
  | some .getModelInfo => .ok (saysLine (modelInfoLine (binder.carries modelInfo)), w)
  | some (.createSession id) =>
    if ready then do
      let (r, w) ← serve L (.createSession id) w
      .ok (saysLine (returnsLine (text "createSession") id
        (if r = .bool true then 0 else CREATE_SESSION_ERR_ALREADY_EXISTS)), w)
    else .ok (saysLine (returnsLine (text "createSession") id CREATE_SESSION_ERR_ENGINE_NOT_READY), w)
  | some (.destroySession id) =>
    if ready then do
      let (r, w) ← serve L (.killSession id) w
      .ok (saysLine (returnsLine (text "destroySession") id
        (if r = .bool true then 0 else DESTROY_SESSION_ERR_NOT_FOUND)), w)
    else .ok (saysLine (returnsLine (text "destroySession") id DESTROY_SESSION_ERR_NOT_FOUND), w)
  | some (.infer id prompt maxTokens) =>
    match binder.carries prompt with
    | none => .ok (saysLine (acceptedLine false 0), w)
    | some prompt =>
      if ready then do
        let (a, w) ← infer L id prompt maxTokens none w
        .ok (⟨acceptedLine true 0 ++ text "\n", heardText binder a, 0⟩, w)
      else .ok (saysLine (acceptedLine true INFER_ERR_ENGINE_NOT_READY), w)
  | some (.cancel id) => .ok (saysLine (text "cancel(" ++ decimal id ++ text ") -> ok=1"), w)

end Functions

variable {σ τ : Type} {L : Llama σ} {N : NpuLlama τ} {d d' : Daemon σ} {w w' : World σ} {nCtx : Nat}
  {swapDir line : Bytes} {ready : Bool} {binder : Binder} {modelInfo : Bytes} {args : List Bytes}
  {reqId : Nat}

/-! ### The callback -/

theorem finish_hal (id : Int) (ok : Bool) (d : Daemon σ) :
    (finish (.hal reqId) id ok d).1 = endCall id ok := rfl

/-- A step of the request and what follows it, as they arrive. -/
theorem delivers_tokenNotice (id : Int) (text? : Option Bytes) (later : List Notice) :
    (tokenNotice (.hal reqId) id text? :: later).filterMap binder.delivers =
      (binder.arriving text?.toList).map (.onToken id) ++ later.filterMap binder.delivers := by
  cases text? with
  | none => rfl
  | some tok =>
    have one : [Notice.onToken id tok].filterMap binder.delivers = _ := delivers_onToken id [tok]
    rw [Option.toList_some, ← one, ← List.filterMap_append]
    rfl

/-- **The calls that have arrived** when the request has ended: its texts, and how it ended. -/
theorem hear_complete (binder : Binder) {rounds : Nat} {inference : Inference}
    (running : d.threads (.hal reqId) = some inference) :
    Lift Eq (fun a b => a.2 = b.2 ∧ a.1.filterMap binder.delivers =
        (binder.arriving b.1.texts).map (.onToken inference.sessionId) ++
          [endCall inference.sessionId b.1.ok])
      (hear L (.hal reqId) rounds d) (complete L (.hal reqId) rounds d) := by
  induction rounds generalizing d inference with
  | zero => exact .error rfl
  | succ rounds ih =>
    rw [hear, complete]
    cases taken : advance L (.hal reqId) d with
    | error e => exact .error rfl
    | ok result =>
      obtain ⟨notice, d1⟩ := result
      simp only [ok_bind]
      cases advance_advanced taken with
      | rests absent =>
        rw [running] at absent
        cases absent
      | @goes inference' pc text? w running' stepped =>
        obtain rfl := Option.some.inj (running.symm.trans running')
        simp only [Daemon.setThread_self]
        refine (ih (Daemon.setThread_self ..)).bind fun a b both => .ok ⟨both.1, ?_⟩
        rw [delivers_tokenNotice, both.2, tokenNotice_texts, Binder.arriving, Binder.arriving,
          Binder.arriving, List.filterMap_append, List.map_append, List.append_assoc]
      | @ends inference' ok running' here =>
        obtain rfl := Option.some.inj (running.symm.trans running')
        have gone : (finish (.hal reqId) inference.sessionId ok d).2.threads (.hal reqId) = none := by
          rw [finish_threads, Function.update_self]
        simp only [gone]
        refine .ok ⟨rfl, ?_⟩
        rw [finish_succeeded, finish_texts, finish_hal, List.filterMap_cons_some (delivers_endCall ..)]
        rfl

/-! ### A run of the tool -/

/-- What is printed is the same, and nothing runs afterwards. -/
def HalPerforms (L : Llama σ) (nCtx : Nat) (swapDir : Bytes) (ready : Bool) :
    Except Fault (HalPrinted × Daemon σ) → Except Fault (HalPrinted × World σ) → Prop :=
  Lift Eq fun a b => a.1 = b.1 ∧ Waits L nCtx swapDir ready a.2 b.2

/-- **A call of the manager**, unless no model is loaded, and the line printed of what it returns. -/
theorem Waits.halCall (waits : Waits L nCtx swapDir ready d w) (action : Action) (op : Op)
    (ret : Reply → Int) (refused : Int) (print : Int → HalPrinted)
    (taken : step L action d = if ¬ d.ready then .ok (.returned refused, d)
      else answerCall L op (fun r => .returned (ret r)) d) :
    HalPerforms L nCtx swapDir ready
      (do
        let (notice, d) ← step L action d
        .ok (print notice.code, d))
      (if ready then do
        let (r, w) ← serve L op w
        .ok (print (ret r), w)
      else .ok (print refused, w)) := by
  rw [taken, waits.ready]
  cases ready with
  | false => exact .ok ⟨rfl, waits⟩
  | true =>
    rw [if_neg (not_not.mpr rfl), if_pos rfl, answerCall, callManager, if_pos waits.ready, waits.world]
    cases served : serve L op w with
    | error e => exact .error rfl
    | ok result => exact .ok ⟨rfl, waits.idle, waits.ready, rfl, waits.reached.call served⟩

/-- A flag is set that no thread reads. -/
theorem Waits.cancels (waits : Waits L nCtx swapDir ready d w) (id : Int) :
    Waits L nCtx swapDir ready (cancel id d) w := by
  unfold cancel
  split
  · exact waits
  · exact ⟨waits.idle, waits.ready, waits.world, waits.reached⟩

/-- **A request** of the tool, and what its callback prints. -/
theorem Waits.halInfer (waits : Waits L nCtx swapDir true d w) (binder : Binder) (id : Int)
    (prompt : Bytes) (maxTokens : Int) :
    Lift Eq (fun a b => (listen binder a.1).printed =
          (binder.arriving b.1.texts).flatMap cString ++ endLine b.1.ok ∧
        Waits L nCtx swapDir true a.2 b.2)
      (hear L (.hal (d.reqCounter + 1)) (maxSteps maxTokens) (inferStream id prompt maxTokens d).2)
      (service L true (.infer id prompt maxTokens) w) := by
  have isReady : ¬ ¬ d.ready = true := not_not.mpr waits.ready
  have nobody : d.threads = fun _ => none := funext waits.idle
  have threads := inferStream_threads id prompt maxTokens d
  rw [if_pos waits.ready, nobody] at threads
  have running : (inferStream id prompt maxTokens d).2.threads (.hal (d.reqCounter + 1)) =
      some { sessionId := id, prompt, maxTokens } := by
    rw [threads, Function.update_self]
  have reached : Reached L nCtx swapDir (inferStream id prompt maxTokens d).2.world := by
    rw [inferStream_world, waits.world]
    exact waits.reached
  have computes : ServesAs L nCtx swapDir true
      (complete L (.hal (d.reqCounter + 1)) (maxSteps maxTokens) (inferStream id prompt maxTokens d).2)
      (service L true (.infer id prompt maxTokens) w) := by
    have loaded : (inferStream id prompt maxTokens d).2.ready = true := by
      simp only [inferStream, if_neg isReady]
      exact waits.ready
    have flag : (inferStream id prompt maxTokens d).2.cancelled (.hal (d.reqCounter + 1)) = false := by
      simp only [inferStream, if_neg isReady]
      exact Function.update_self ..
    have goes := complete_infer (L := L) reached loaded flag threads
    rwa [inferStream_world, waits.world] at goes
  refine ((hear_complete binder running).trans computes).mono ?_
  rintro a b ⟨a', ⟨same, arrive⟩, outcome, waits'⟩
  rw [same, ← outcome]
  exact ⟨congrArg TestCallback.printed (listen_ended arrive), waits'⟩

/-- **A request of the tool** prints what `infer` answers. -/
theorem Waits.halInfer_performs (waits : Waits L nCtx swapDir true d w) (id : Int) (prompt : Bytes)
    (maxTokens : Int) :
    HalPerforms L nCtx swapDir true
      (let (notice, d) := inferStream id prompt maxTokens d
      if notice.code = 0 then do
        let (calls, d) ← hear L (.hal d.reqCounter) (maxSteps maxTokens) d
        .ok (⟨acceptedLine true notice.code ++ text "\n", (listen binder calls).printed, 0⟩, d)
      else .ok (saysLine (acceptedLine true notice.code), d))
      (do
        let (a, w) ← infer L id prompt maxTokens none w
        .ok (⟨acceptedLine true 0 ++ text "\n", heardText binder a, 0⟩, w)) := by
  have accepts : (inferStream id prompt maxTokens d).1.code = 0 := by
    simp only [inferStream, if_neg (not_not.mpr waits.ready), Notice.code]
  have heard := waits.halInfer binder id prompt maxTokens
  have what : service L true (.infer id prompt maxTokens) w =
      (infer L id prompt maxTokens none w).bind fun a => .ok (⟨a.1.ok, a.1.texts⟩, a.2) := rfl
  rw [what] at heard
  dsimp only
  rw [if_pos accepts, accepts, inferStream_reqCounter]
  generalize hear L (.hal (d.reqCounter + 1)) (maxSteps maxTokens)
    (inferStream id prompt maxTokens d).2 = x at heard ⊢
  cases result : infer L id prompt maxTokens none w with
  | error e =>
    rw [result, Except.bind] at heard
    cases heard with
    | error related => exact .error related
  | ok answer =>
    obtain ⟨a, w'⟩ := answer
    rw [result, Except.bind] at heard
    cases heard with
    | @ok b _ both =>
      obtain ⟨printed, waits'⟩ := both
      refine .ok ⟨congrArg (HalPrinted.mk _ · 0) (printed.trans ?_), waits'⟩
      dsimp only
      rw [heardText]
      cases ok : a.ok with
      | true => rfl
      | false =>
        rw [((infer_recorded waits.reached.rep result).2 ok).1]
        rfl

/-- **A run of the tool**, whatever its arguments, prints what its one call of the engine answers, and
leaves the engine as that call does. -/
theorem halMain_performs (waits : Waits L nCtx swapDir ready d w) (args : List Bytes) :
    HalPerforms L nCtx swapDir ready (halMain L binder modelInfo args d)
      (halPerform L binder modelInfo ready args w) := by
  unfold halMain halPerform
  cases halErrand args with
  | none => exact .ok ⟨rfl, waits⟩
  | some errand =>
    cases errand with
    | isReady =>
      dsimp only
      rw [waits.ready]
      exact .ok ⟨rfl, waits⟩
    | getModelInfo =>
      dsimp only
      exact .ok ⟨rfl, waits⟩
    | cancel id =>
      dsimp only
      exact .ok ⟨rfl, waits.cancels id⟩
    | createSession id =>
      have calls := waits.halCall (.createSession id) (.createSession id)
        (fun r => if r = .bool true then 0 else CREATE_SESSION_ERR_ALREADY_EXISTS)
        CREATE_SESSION_ERR_ENGINE_NOT_READY
        (fun ret => saysLine (returnsLine (text "createSession") id ret)) rfl
      exact calls
    | destroySession id =>
      have calls := waits.halCall (.destroySession id) (.killSession id)
        (fun r => if r = .bool true then 0 else DESTROY_SESSION_ERR_NOT_FOUND)
        DESTROY_SESSION_ERR_NOT_FOUND
        (fun ret => saysLine (returnsLine (text "destroySession") id ret)) rfl
      exact calls
    | infer id sent maxTokens =>
      dsimp only
      cases binder.carries sent with
      | none => exact .ok ⟨rfl, waits⟩
      | some prompt =>
        have asks : step L (.inferStream id prompt maxTokens) d =
            .ok (inferStream id prompt maxTokens d) := rfl
        dsimp only
        rw [asks, ok_bind]
        cases ready with
        | true => exact waits.halInfer_performs id prompt maxTokens
        | false =>
          have refuses : inferStream id prompt maxTokens d =
              (.returned INFER_ERR_ENGINE_NOT_READY, { d with reqCounter := d.reqCounter + 1 }) := by
            rw [inferStream, if_pos (by simp [waits.ready])]
          rw [refuses]
          exact .ok ⟨rfl, waits.idle, waits.ready, waits.world, waits.reached⟩

/-! ### Both tools -/

/-- A run of one of the tools. -/
inductive ToolRun
  | ai_daemon_cli (errand : Errand)
  | hal_test_cli (args : List Bytes)
deriving DecidableEq, Repr

/-- What one of the tools prints. -/
abbrev ToolPrinted := Printed ⊕ HalPrinted

section Functions

variable {σ τ : Type} (L : Llama σ) (N : NpuLlama τ) (binder : Binder) (line modelInfo : Bytes)

/-- A run of a tool that has reached the daemon. -/
def toolMain (tool : ToolRun) (s : Server σ τ) :
    Except (Fault ⊕ NpuFault) (ToolPrinted × Server σ τ) :=
  match tool with
  | .ai_daemon_cli errand => (cliMain L N line errand.args s).map fun a => (.inl a.1, a.2)
  | .hal_test_cli args =>
    match halMain L binder modelInfo args s.daemon with
    | .error e => .error (.inl e)
    | .ok (printed, d) => .ok (.inr printed, { s with daemon := d })

/-- What it is to do. -/
def toolPerform (tool : ToolRun) (engines : Engines σ τ) :
    Except (Fault ⊕ NpuFault) (ToolPrinted × Engines σ τ) :=
  match tool with
  | .ai_daemon_cli errand => (perform L N errand engines).map fun a => (.inl a.1, a.2)
  | .hal_test_cli args =>
    match halPerform L binder modelInfo true args engines.1 with
    | .error e => .error (.inl e)
    | .ok (printed, w) => .ok (.inr printed, (w, engines.2))

end Functions

/-- **A run of either tool** prints what the engines answer, and leaves them as they would be. -/
theorem toolMain_performs {tool : ToolRun} {s : Server σ τ} {engines : Engines σ τ}
    (rests : Rests L nCtx swapDir s engines)
    (sendable : ∀ errand, tool = .ai_daemon_cli errand → errand.Sendable)
    (fills : FillsBuffer L.tokenToPiece) (npuFills : ∀ model, FillsBuffer (N.tokenToPiece model)) :
    Lift Eq (fun a b => a.1 = b.1 ∧ Rests L nCtx swapDir a.2 b.2)
      (toolMain L N binder line modelInfo tool s) (toolPerform L N binder modelInfo tool engines) := by
  obtain ⟨w, v⟩ := engines
  cases tool with
  | ai_daemon_cli errand =>
    have performs : Performs L nCtx swapDir (cliMain L N line errand.args s) _ :=
      cliMain_performs rests (sendable errand rfl) fills npuFills
    rw [toolMain, toolPerform]
    generalize cliMain L N line errand.args s = x, perform L N errand (w, v) = y at performs ⊢
    cases performs with
    | error related => exact .error related
    | ok both => exact .ok ⟨congrArg Sum.inl both.1, both.2⟩
  | hal_test_cli args =>
    have performs : HalPerforms L nCtx swapDir true (halMain L binder modelInfo args s.daemon)
        (halPerform L binder modelInfo true args w) := halMain_performs rests.waits args
    rw [toolMain, toolPerform]
    dsimp only
    generalize halMain L binder modelInfo args s.daemon = x,
      halPerform L binder modelInfo true args w = y at performs ⊢
    cases performs with
    | error related => exact .error (congrArg Sum.inl related)
    | ok both => exact .ok ⟨congrArg Sum.inr both.1, both.2, rests.npu⟩

/-- **Both tools on one daemon.** However runs of the two tools follow one another, from a state in
which nothing runs and the engine is loaded, each prints just what its call of the engines answers, as far
as binder carries it, and the engines are left as these calls leave them; and the one faults where the
other does. -/
theorem tools_perform (L : Llama σ) (N : NpuLlama τ) (binder : Binder) (line modelInfo : Bytes)
    {tools : List ToolRun} {s : Server σ τ} {engines : Engines σ τ}
    (rests : Rests L nCtx swapDir s engines)
    (sendable : ∀ errand, .ai_daemon_cli errand ∈ tools → errand.Sendable)
    (fills : FillsBuffer L.tokenToPiece) (npuFills : ∀ model, FillsBuffer (N.tokenToPiece model)) :
    Lift Eq (fun a b => a.1 = b.1 ∧ Rests L nCtx swapDir a.2 b.2)
      (answers (toolMain L N binder line modelInfo) tools s)
      (answers (toolPerform L N binder modelInfo) tools engines) := by
  have asks : List.Forall₂ (fun tool tool' => tool = tool' ∧
      ∀ errand, tool' = .ai_daemon_cli errand → errand.Sendable) tools tools := by
    refine List.forall₂_same.mpr fun tool member => ⟨rfl, ?_⟩
    rintro errand rfl
    exact sendable errand member
  refine (answers_lift ?_ asks rests).mono fun a b both => ⟨List.forall₂_eq_eq_eq ▸ both.1, both.2⟩
  rintro s engines tool _ rests' ⟨rfl, sendable'⟩
  exact toolMain_performs rests' sendable' fills npuFills

/-- Both tools talk in one session, and about one that is not there; one prompt is no UTF-8. -/
def bothTools : List ToolRun :=
  [.hal_test_cli [text "is_ready"], .hal_test_cli [text "create_session", text "1"],
    .ai_daemon_cli (.infer 1 (text "ab") 1),
    .hal_test_cli [text "infer", text " 1x", text "c", text "1"],
    .hal_test_cli [text "infer", text "1", [0xC3], text "1"],
    .hal_test_cli [text "cancel", text "1"], .ai_daemon_cli (.killSession 1),
    .hal_test_cli [text "destroy_session", text "1"],
    .hal_test_cli [text "infer", text "1", text "d", text "1"], .hal_test_cli [text "infer", text "1"]]

theorem tools_perform_both :
    Lift Eq (fun a b => a.1 = b.1 ∧ Rests (sim 9 10) 9 (text "/s") a.2 b.2)
      (answers (toolMain (sim 9 10) npuSim strictBinder emptyLine (text "/m")) bothTools terminalStart)
      (answers (toolPerform (sim 9 10) npuSim strictBinder (text "/m")) bothTools
        (terminalStart.daemon.world, terminalStart.npu)) ∧
    Gives (fun a => a.1.map (Sum.elim Printed.output HalPrinted.callback) =
        [[], [], text "h\n[DONE]\n", text "i\n[DONE]\n", [], [], text "OK\n", [],
          text "\n[ERROR -501] SESSION_NOT_FOUND\n", []])
      (answers (toolMain (sim 9 10) npuSim strictBinder emptyLine (text "/m")) bothTools terminalStart) := by
  have prompt : Errand.IsPrompt (text "ab") := by
    have plain : 0 ∉ text "ab" ∧ NoEnd (text "ab") := by decide +kernel
    exact plain
  have sendable : ∀ errand, .ai_daemon_cli errand ∈ bothTools → errand.Sendable := by
    intro errand member
    simp only [bothTools, List.mem_cons, ToolRun.ai_daemon_cli.injEq, reduceCtorEq, List.not_mem_nil,
      or_false, false_or] at member
    rcases member with rfl | rfl
    · exact ⟨by decide, by decide, prompt⟩
    · show IsInt 1
      decide
  have fills : FillsBuffer (sim 9 10).tokenToPiece := fun _ => Nat.le_of_ble_eq_true rfl
  have npuFills : ∀ model, FillsBuffer (npuSim.tokenToPiece model) := fun _ _ => Nat.zero_le _
  have rests : Rests (sim 9 10) 9 (text "/s") terminalStart
      (terminalStart.daemon.world, terminalStart.npu) :=
    ⟨Waits.start (sim 9 10) true 9 (text "/s") (Sim.start [104, 105]), rfl⟩
  exact ⟨tools_perform (sim 9 10) npuSim strictBinder emptyLine (text "/m") rests sendable fills npuFills,
    by decide +kernel⟩

end MiniV
