/-
**From the command line to the engines and back.**

A run of `ai_daemon_cli` connects, sends one message and prints the answer. In between its message is
framed and read, the command is carried out, the tokens go out in Base64, and the tool decodes them.
`handleClient` is `HandleClient` on all that one client sends, `cliMain` a run of the tool against it.
Both are for a client that reads its answers to the end, as the tool does.

* `drain_complete`: what is written while an inference runs to its end;
* `handleCommand_infer`: so an inference of the socket is what `infer` computes;
* `command_line_performs`: however many runs of the tool one after another, each prints what the engines
  answer, and does to them what was asked.
-/

import MiniV.Daemon.Delivered
import MiniV.Daemon.Lengths
import MiniV.Daemon.Server
import MiniV.Wire.CommandLine

namespace MiniV

open MiniV.Library

/-! ### The two programs -/

/-- What a run of the tool prints to its output, and its exit code. -/
structure Printed where
  output : Bytes
  exitCode : Int
deriving DecidableEq, Repr

def kReadBufSize : Nat := 256

/-- `ReadAndPrint`; an answer that fits the buffer is one write of the daemon, and comes whole. -/
def readAndPrint (reply : Bytes) : Printed :=
  if reply = [] then ⟨[], 1⟩ else ⟨cString (reply.take (kReadBufSize - 1)), 0⟩

/-- The answer, as the tool reads it; `line` is what its buffer for the lines of a stream holds. -/
def readAnswer (line : Bytes) : Awaits → Bytes → Printed
  | .line, reply => ⟨(readAndPrint reply).output, 0⟩
  | .stream, reply => ⟨cliOutput line reply, 0⟩
  | .greeting, reply => readAndPrint reply

/-- What a run of the tool makes of what it is written. -/
def printAnswer {σ τ F : Type} (line : Bytes) (awaits : Awaits) (x : Except F (Bytes × Server σ τ)) :
    Except F (Printed × Server σ τ) :=
  x.map fun a => (readAnswer line awaits a.1, a.2)

section Functions

variable {σ τ : Type} (L : Llama σ) (N : NpuLlama τ)

/-- The steps of the socket's inference until it has ended, with what is written. -/
def drain : Nat → Server σ τ → Except (Fault ⊕ NpuFault) (Bytes × Server σ τ)
  | 0, _ => .error (.inl .diverged)
  | rounds + 1, s => do
    let (exchange, s) ← serverStep L N (.advance .socket) s
    match s.daemon.threads .socket with
    | none => .ok (exchange.out, s)
    | some _ => do
      let (later, s) ← drain rounds s
      .ok (exchange.out ++ later, s)

/-- A command is carried out, from its arrival to the end of its reply, which its client takes. -/
def handleCommand (command : Command) (s : Server σ τ) :
    Except (Fault ⊕ NpuFault) (Bytes × Server σ τ) := do
  let (exchange, s) ← serverStep L N (.command command) s
  match s.daemon.threads .socket with
  | none => .ok (exchange.out, s)
  | some inference => do
    let (later, s) ← drain L N (maxSteps inference.maxTokens) s
    .ok (exchange.out ++ later, s)

/-- **`HandleClient`** on the stream of a client that takes all that is written to it. -/
def handleClient (stream : Bytes) (s : Server σ τ) :
    Except (Fault ⊕ NpuFault) (Bytes × Server σ τ) := do
  let (replies, s) ← answers (handleCommand L N) (commands stream) s
  .ok (replies.flatten, s)

/-- **A run of `ai_daemon_cli`** that has connected to the daemon. -/
def cliMain (line : Bytes) (args : List Bytes) (s : Server σ τ) :
    Except (Fault ⊕ NpuFault) (Printed × Server σ τ) :=
  match cliRequest args with
  | none => .ok (⟨[], 1⟩, s)
  | some (message, awaits) => printAnswer line awaits (handleClient L N message s)

end Functions

/-! ### What is asked of the engines -/

/-- The state of both engines. -/
abbrev Engines (σ τ : Type) := World σ × NpuWorld τ

/-- What the user sees of a generated text. -/
def shownText (texts : List Bytes) : Bytes := texts.flatMap cString ++ text "\n[DONE]\n"

section Functions

variable {σ τ : Type} (L : Llama σ) (N : NpuLlama τ)

/-- An answer of the session engine, as it is printed. -/
def byEngine {A : Type} (x : Except Fault (A × World σ)) (print : A → Bytes) (v : NpuWorld τ) :
    Except (Fault ⊕ NpuFault) (Printed × Engines σ τ) :=
  match x with
  | .error e => .error (.inl e)
  | .ok (a, w) => .ok (⟨print a, 0⟩, (w, v))

/-- **What an errand is to do**: its one call of an engine, and what is printed of the result. -/
def perform (errand : Errand) (engines : Engines σ τ) :
    Except (Fault ⊕ NpuFault) (Printed × Engines σ τ) :=
  let (w, v) := engines
  match errand with
  | .createSession id =>
    byEngine (serve L (.createSession id) w)
      (fun r => if r = .bool true then text "OK\n" else text "ERROR ALREADY_EXISTS\n") v
  | .killSession id =>
    byEngine (serve L (.killSession id) w)
      (fun r => if r = .bool true then text "OK\n" else text "ERROR NOT_FOUND\n") v
  | .setHotLimit count => byEngine (serve L (.setHotLimit count.toNat) w) (fun _ => text "OK\n") v
  | .setColdLimit bytes => byEngine (serve L (.setColdLimit bytes) w) (fun _ => text "OK\n") v
  | .infer sessionId prompt maxTokens =>
    byEngine (infer L sessionId prompt maxTokens none w)
      (fun a => if a.ok then shownText a.texts else text "\n[ERROR] SESSION_NOT_FOUND\n") v
  | .npuLoad call =>
    let loaded := load N call v
    .ok (⟨if loaded.1 then text "OK\n" else text "ERROR NPU_LOAD_FAILED\n", 0⟩, (w, loaded.2))
  | .npuInfer prompt maxTokens =>
    if ¬ v.isReady then .ok (⟨text "\n[ERROR] NPU_NOT_READY\n", 0⟩, (w, v))
    else
      match npuInfer N prompt maxTokens v with
      | .error e => .error (.inr e)
      | .ok ((ok, texts), v) =>
        .ok (⟨if ok then shownText texts else text "\n[ERROR] NPU_INFER_FAILED\n", 0⟩, (w, v))
  | .hello => .ok (⟨text "HELLO from miniv_ai\n", 0⟩, (w, v))

end Functions

variable {σ τ : Type} {L : Llama σ} {N : NpuLlama τ} {d d' : Daemon σ} {s s' : Server σ τ}
  {w w' : World σ} {v v' : NpuWorld τ} {nCtx : Nat} {swapDir line : Bytes} {command : Command}

/-! ### What is answered at once -/

/-- A command of the session engine is taken while none is carried out. -/
theorem serverStep_command (free : s.daemon.threads .socket = none) (engine : command.forNpu = false) :
    serverStep L N (.command command) s = onDaemon L (some command) (.command command) s ∧
      step L (.command command) s.daemon = serveCommand L command s.daemon := by
  refine ⟨?_, step_command command free⟩
  rw [serverStep, free, Option.isSome_none, if_neg Bool.false_ne_true, engine,
    if_neg Bool.false_ne_true]

/-- It is carried out when it starts no inference. -/
theorem handleCommand_served {notice : Notice} (free : s.daemon.threads .socket = none)
    (engine : command.forNpu = false) (served : serveCommand L command s.daemon = .ok (notice, d))
    (ends : d.threads .socket = none) :
    handleCommand L N command s = .ok (notice.written, { s with daemon := d }) := by
  obtain ⟨acts, same⟩ := serverStep_command (N := N) free engine
  rw [handleCommand, acts, onDaemon, same, served]
  simp only [ok_bind, ends]

theorem handleCommand_fault {e : Fault} (free : s.daemon.threads .socket = none)
    (engine : command.forNpu = false) (fault : serveCommand L command s.daemon = .error e) :
    handleCommand L N command s = .error (.inl e) := by
  obtain ⟨acts, same⟩ := serverStep_command (N := N) free engine
  rw [handleCommand, acts, onDaemon, same, fault, error_bind]

/-- A command of the NPU. -/
theorem handleCommand_npu {out : Bytes} (free : s.daemon.threads .socket = none)
    (npu : command.forNpu = true) (served : serveNpu N command s.npu = .ok (out, v')) :
    handleCommand L N command s = .ok (out, { s with npu := v' }) := by
  rw [handleCommand, serverStep, free, Option.isSome_none, if_neg Bool.false_ne_true,
    if_pos npu, onNpu, served]
  simp only [ok_bind, free]

theorem handleCommand_npuFault {e : NpuFault} (free : s.daemon.threads .socket = none)
    (npu : command.forNpu = true) (served : serveNpu N command s.npu = .error e) :
    handleCommand L N command s = .error (.inr e) := by
  rw [handleCommand, serverStep, free, Option.isSome_none, if_neg Bool.false_ne_true,
    if_pos npu, onNpu, served, error_bind]

/-- A line that is no command leaves no trace. -/
theorem handleCommand_ignored (free : s.daemon.threads .socket = none) (cmd : Bytes) :
    handleCommand L N (.ignored cmd) s = .ok ([], s) := by
  have quiet : serveCommand L (.ignored cmd) s.daemon = .ok (.nothing, s.daemon) := rfl
  exact handleCommand_served free rfl quiet free

/-! ### An inference that runs to its end -/

/-- What the socket is written at the end of an inference. -/
def lastLine (ok : Bool) : Bytes :=
  if ok then text "DONE\n" else text "ERROR SESSION_NOT_FOUND\n"

/-- **The bytes written** while an inference runs to its end: its texts, one line each, and the line
that ends it. -/
theorem drain_complete {rounds : Nat} {inference : Inference}
    (running : s.daemon.threads .socket = some inference) :
    Lift (fun e e' => e = .inl e')
      (fun a b => a.1 = b.1.texts.flatMap tokenLine ++ lastLine b.1.ok ∧
        a.2 = { s with daemon := b.2 })
      (drain L N rounds s) (complete L .socket rounds s.daemon) := by
  induction rounds generalizing s inference with
  | zero => exact .error rfl
  | succ rounds ih =>
    have acts : serverStep L N (.advance .socket) s = onDaemon L none (.advance .socket) s := rfl
    have same : step L (.advance .socket) s.daemon = advance L .socket s.daemon := rfl
    rw [drain, complete, acts, onDaemon, same]
    cases taken : advance L .socket s.daemon with
    | error e => exact .error rfl
    | ok result =>
      obtain ⟨notice, d⟩ := result
      simp only [ok_bind]
      cases advance_advanced taken with
      | rests absent =>
        rw [running] at absent
        cases absent
      | @goes inference' pc text? w running' stepped =>
        simp only [Daemon.setThread_self]
        refine (ih (Daemon.setThread_self ..)).bind fun a b both => .ok ⟨?_, both.2⟩
        have written : (tokenNotice .socket inference'.sessionId text?).written =
            text?.toList.flatMap tokenLine := by
          cases text? <;> simp [tokenNotice, Notice.written]
        rw [written, both.1, tokenNotice_texts, List.flatMap_append, List.append_assoc]
      | @ends inference' ok running' here =>
        have gone : (finish .socket inference'.sessionId ok s.daemon).2.threads .socket = none := by
          rw [finish_threads, Function.update_self]
        simp only [gone]
        refine .ok ⟨?_, rfl⟩
        rw [finish_succeeded, finish_texts]
        rfl

/-- What the socket is written for an inference. -/
def inferReply (a : Answer) : Bytes := a.texts.flatMap tokenLine ++ lastLine a.ok

/-- **An inference of the socket** is what `infer` computes, and its texts and its end are written. -/
theorem handleCommand_infer {sessionId maxTokens : Int} {prompt : Bytes}
    (waits : Waits L nCtx swapDir true s.daemon w) :
    Lift (fun e e' => e = .inl e')
      (fun a b => a.1 = inferReply b.1 ∧ Waits L nCtx swapDir true a.2.daemon b.2 ∧ a.2.npu = s.npu)
      (handleCommand L N (.infer sessionId maxTokens prompt) s)
      (infer L sessionId prompt maxTokens none w) := by
  obtain ⟨acts, takes⟩ : serverStep L N (.command (.infer sessionId maxTokens prompt)) s = _ ∧ _ :=
    serverStep_command (waits.idle _) rfl
  obtain ⟨idle, ready, rfl, reached⟩ := waits
  have nobody : s.daemon.threads = fun _ => none := funext idle
  -- the daemon once the inference has started
  let d := s.daemon.setThread .socket (some ⟨sessionId, prompt, maxTokens, .activate⟩)
  have starts : serveCommand L (.infer sessionId maxTokens prompt) s.daemon = .ok (.nothing, d) :=
    if_neg (not_not.mpr ready)
  have running : d.threads .socket = some ⟨sessionId, prompt, maxTokens, .activate⟩ :=
    Daemon.setThread_self ..
  have goes : handleCommand L N (.infer sessionId maxTokens prompt) s =
      drain L N (maxSteps maxTokens) { s with daemon := d } := by
    rw [handleCommand, acts, onDaemon, takes, starts]
    simp only [ok_bind, running]
    cases drain L N (maxSteps maxTokens) { s with daemon := d } <;> rfl
  have written : Lift _ _ (drain L N (maxSteps maxTokens) { s with daemon := d })
      (complete L .socket (maxSteps maxTokens) d) := drain_complete running
  have computes : ServesAs L nCtx swapDir true (complete L .socket (maxSteps maxTokens) d)
      (service L true (.infer sessionId prompt maxTokens) s.daemon.world) := by
    refine complete_infer reached ready rfl ?_
    rw [← nobody]
    rfl
  have what : service L true (.infer sessionId prompt maxTokens) s.daemon.world =
      (infer L sessionId prompt maxTokens none s.daemon.world).bind
        fun a => .ok (⟨a.1.ok, a.1.texts⟩, a.2) := rfl
  rw [goes]
  rw [what] at computes
  generalize complete L .socket (maxSteps maxTokens) d = x,
    drain L N (maxSteps maxTokens) { s with daemon := d } = y at computes written ⊢
  cases result : infer L sessionId prompt maxTokens none s.daemon.world with
  | error e =>
    rw [result, Except.bind] at computes
    cases computes with
    | error related =>
      subst related
      cases written with
      | error related => exact .error related
  | ok answer =>
    rw [result, Except.bind] at computes
    cases computes with
    | @ok b _ both =>
      obtain ⟨outcome, waits'⟩ := both
      cases written with
      | @ok c _ wrote =>
        obtain ⟨reply, s'⟩ := c
        obtain ⟨rfl, rfl⟩ := wrote
        refine .ok ⟨?_, waits', rfl⟩
        rw [outcome]
        rfl

/-! ### One command -/

theorem drain_ends {rounds : Nat} (result : drain L N rounds s = .ok (out, s')) :
    s'.daemon.threads .socket = none := by
  induction rounds generalizing s out with
  | zero => cases result
  | succ rounds ih =>
    obtain ⟨⟨exchange, mid⟩, _, result⟩ := bind_eq_ok.mp result
    dsimp only at result
    split at result
    · rename_i free
      cases result
      exact free
    · obtain ⟨⟨later, last⟩, drained, result⟩ := bind_eq_ok.mp result
      cases result
      exact ih drained

/-- Nothing runs for the socket when a command has been carried out. -/
theorem handleCommand_ends (result : handleCommand L N command s = .ok (out, s')) :
    s'.daemon.threads .socket = none := by
  obtain ⟨⟨exchange, mid⟩, _, result⟩ := bind_eq_ok.mp result
  dsimp only at result
  split at result
  · rename_i free
    cases result
    exact free
  · obtain ⟨⟨later, last⟩, drained, result⟩ := bind_eq_ok.mp result
    cases result
    exact drain_ends drained

theorem drain_run {rounds : Nat} (result : drain L N rounds s = .ok (out, s')) :
    ∃ actions, (∀ a ∈ actions, a = .advance .socket) ∧ run (serverStep L N) actions s = .ok s' := by
  induction rounds generalizing s out with
  | zero => cases result
  | succ rounds ih =>
    obtain ⟨⟨exchange, mid⟩, taken, result⟩ := bind_eq_ok.mp result
    dsimp only at result
    split at result
    · cases result
      exact ⟨[.advance .socket], by simp, run_cons_eq_ok.mpr ⟨_, _, taken, rfl⟩⟩
    · obtain ⟨⟨later, last⟩, drained, result⟩ := bind_eq_ok.mp result
      cases result
      obtain ⟨actions, own, reach⟩ := ih drained
      exact ⟨.advance .socket :: actions, List.forall_mem_cons.mpr ⟨rfl, own⟩,
        run_cons_eq_ok.mpr ⟨_, _, taken, reach⟩⟩

/-- **A command that is carried out** is a run of the daemon: the command, and then nothing but steps of
the socket's inference. -/
theorem handleCommand_run (result : handleCommand L N command s = .ok (out, s')) :
    ∃ actions, (∀ a ∈ actions, a = .advance .socket) ∧
      run (serverStep L N) (.command command :: actions) s = .ok s' := by
  obtain ⟨⟨exchange, mid⟩, taken, result⟩ := bind_eq_ok.mp result
  dsimp only at result
  split at result
  · cases result
    exact ⟨[], List.forall_mem_nil _, run_cons_eq_ok.mpr ⟨_, _, taken, rfl⟩⟩
  · obtain ⟨⟨later, last⟩, drained, result⟩ := bind_eq_ok.mp result
    cases result
    obtain ⟨actions, own, reach⟩ := drain_run drained
    exact ⟨actions, own, run_cons_eq_ok.mpr ⟨_, _, taken, reach⟩⟩

/-! ### Between two clients -/

/-- Nothing runs, and the engines are these. -/
structure Rests (L : Llama σ) (nCtx : Nat) (swapDir : Bytes) (s : Server σ τ)
    (engines : Engines σ τ) : Prop where
  waits : Waits L nCtx swapDir true s.daemon engines.1
  npu : s.npu = engines.2

/-- What is printed, and the state after it, are the same. -/
def Performs (L : Llama σ) (nCtx : Nat) (swapDir : Bytes) :
    Except (Fault ⊕ NpuFault) (Printed × Server σ τ) →
      Except (Fault ⊕ NpuFault) (Printed × Engines σ τ) → Prop :=
  Lift Eq fun a b => a.1 = b.1 ∧ Rests L nCtx swapDir a.2 b.2

/-- **A run of the tool** is its one command, and the answer printed. -/
theorem cliMain_errand {errand : Errand} (sendable : errand.Sendable) :
    cliMain L N line errand.args s =
      printAnswer line errand.awaits (handleCommand L N errand.command s) := by
  obtain ⟨message, asks, read⟩ := errand_is_read sendable
  have one : commands message = [errand.command] := by
    have alone := @commandsWithin_read [(message, errand.command)] (by simpa using read)
      message.length (by simp)
    simpa [commands] using alone
  rw [cliMain, asks]
  dsimp only
  rw [handleClient, one, answers]
  cases handleCommand L N errand.command s with
  | error e => rfl
  | ok result =>
    simp only [answers, ok_bind, List.flatten_cons, List.flatten_nil, List.append_nil]

/-- **A call of the manager**, and what is written of its result. -/
theorem call_performs {op : Op} {answer : Reply → Notice} {awaits : Awaits} {print : Reply → Bytes}
    (rests : Rests L nCtx swapDir s (w, v)) (engine : command.forNpu = false)
    (calls : serveCommand L command s.daemon = answerCall L op answer s.daemon)
    (prints : ∀ r, readAnswer line awaits (answer r).written = ⟨print r, 0⟩) :
    Performs L nCtx swapDir (printAnswer line awaits (handleCommand L N command s))
      (byEngine (serve L op w) print v) := by
  obtain ⟨⟨idle, ready, world, reached⟩, npu⟩ := rests
  rw [answerCall, callManager, if_pos ready, world] at calls
  cases served : serve L op w with
  | error e =>
    have fault : serveCommand L command s.daemon = .error e := by rw [calls, served]; rfl
    rw [handleCommand_fault (idle _) engine fault]
    exact .error rfl
  | ok result =>
    have done : serveCommand L command s.daemon =
        .ok (answer result.1, { s.daemon with world := result.2 }) := by rw [calls, served]; rfl
    rw [handleCommand_served (idle _) engine done (idle _)]
    exact .ok ⟨prints result.1, ⟨idle, ready, rfl, reached.call served⟩, npu⟩

/-! ### Inferences -/

/-- What llama stores in the caller's buffer fits it. -/
def FillsBuffer (tokenToPiece : Token → Int × Bytes) : Prop :=
  ∀ tok, (tokenToPiece tok).2.length ≤ bufSize

/-- The texts of an inference fit the buffer. -/
theorem texts_fit {tokens : List Token} {texts : List Bytes} (fills : FillsBuffer L.tokenToPiece)
    (is : Texts L tokens texts) : ∀ p ∈ texts, p.length ≤ 256 := by
  induction is with
  | nil => exact List.forall_mem_nil _
  | @cons tok piece tokens texts here _ ih =>
    refine List.forall_mem_cons.mpr ⟨?_, ih⟩
    unfold pieceText at here
    split at here
    · cases here
    · cases here
      exact (List.length_take_le' ..).trans (fills tok)

/-- So do those of an inference of the NPU. -/
theorem npuTexts_fit {model ctx rounds : Nat} {texts : List Bytes}
    (fills : FillsBuffer (N.tokenToPiece model))
    (result : npuDecodeLoop N model ctx rounds v = .ok (texts, v')) : ∀ p ∈ texts, p.length ≤ 256 := by
  induction rounds generalizing v texts with
  | zero =>
    cases result
    exact List.forall_mem_nil _
  | succ rounds ih =>
    rw [npuDecodeLoop] at result
    split at result
    · cases result
    · dsimp only at result
      split at result
      · cases result
        exact List.forall_mem_nil _
      · obtain ⟨piece, is, result⟩ := bind_eq_ok.mp result
        have short : piece.length ≤ 256 := by
          unfold npuPieceText at is
          split at is
          · cases is
          · cases is
            exact (List.length_take_le' ..).trans (fills _)
        split at result
        · cases result
          exact List.forall_mem_singleton.mpr short
        · obtain ⟨⟨later, v1⟩, rest, result⟩ := bind_eq_ok.mp result
          cases result
          exact List.forall_mem_cons.mpr ⟨short, ih rest⟩

/-- A text that was streamed, as the tool shows it. -/
theorem readAnswer_stream {texts : List Bytes} (fits : ∀ p ∈ texts, p.length ≤ 256) :
    readAnswer line .stream (streamOf texts) = ⟨shownText texts, 0⟩ := by
  rw [readAnswer, cliOutput_stream fits]
  rfl

/-- An error, as the tool shows it. -/
theorem readAnswer_error {reply printed : Bytes} (is : ErrorLine reply)
    (prints : text "\n[ERROR] " ++ cString (reply.drop 6) = printed) :
    readAnswer line .stream reply = ⟨printed, 0⟩ := by
  rw [readAnswer, cliOutput_error is, prints]

/-- **An inference of the session engine**, and what is written of it. -/
theorem infer_performs {sessionId maxTokens : Int} {prompt : Bytes}
    (rests : Rests L nCtx swapDir s (w, v)) (fills : FillsBuffer L.tokenToPiece) :
    Performs L nCtx swapDir
      (printAnswer line .stream (handleCommand L N (.infer sessionId maxTokens prompt) s))
      (perform L N (.infer sessionId prompt maxTokens) (w, v)) := by
  have carried : Lift _ _ (handleCommand L N (.infer sessionId maxTokens prompt) s)
      (infer L sessionId prompt maxTokens none w) := handleCommand_infer rests.waits
  rw [perform]
  generalize handleCommand L N (.infer sessionId maxTokens prompt) s = x at carried ⊢
  cases result : infer L sessionId prompt maxTokens none w with
  | error e =>
    rw [result] at carried
    cases carried with
    | error related => exact .error related
  | ok answer =>
    obtain ⟨a, w'⟩ := answer
    rw [result] at carried
    cases carried with
    | @ok c _ both =>
      obtain ⟨wrote, waits, npu⟩ := both
      refine .ok ⟨?_, waits, npu.trans rests.npu⟩
      obtain ⟨tokens, texts⟩ := infer_texts rests.waits.reached.rep result
      dsimp only
      rw [wrote, inferReply]
      dsimp only
      cases ok : a.ok with
      | true => exact readAnswer_stream (texts_fit fills texts)
      | false =>
        rw [((infer_recorded rests.waits.reached.rep result).2 ok).1]
        exact readAnswer_error (by constructor <;> decide +kernel) (by decide +kernel)

/-- What it wrote is printed. -/
theorem npu_performs {out : Bytes} {awaits : Awaits} {print : Printed}
    (rests : Rests L nCtx swapDir s (w, v)) (npu : command.forNpu = true)
    (served : serveNpu N command v = .ok (out, v')) (prints : readAnswer line awaits out = print) :
    Performs L nCtx swapDir (printAnswer line awaits (handleCommand L N command s))
      (.ok (print, (w, v'))) := by
  have served' : serveNpu N command s.npu = .ok (out, v') := by rw [rests.npu]; exact served
  rw [handleCommand_npu (rests.waits.idle _) npu served']
  exact .ok ⟨prints, rests.waits, rfl⟩

/-- The texts of an inference of the NPU fit the buffer. -/
theorem npuInfer_fits {prompt : Bytes} {maxTokens : Int} {ok : Bool} {texts : List Bytes}
    (fills : ∀ model, FillsBuffer (N.tokenToPiece model))
    (result : npuInfer N prompt maxTokens v = .ok ((ok, texts), v')) : ∀ p ∈ texts, p.length ≤ 256 := by
  unfold npuInfer at result
  split at result
  · cases result
    exact List.forall_mem_nil _
  · split at result
    · cases result
    · dsimp only at result
      split at result
      · cases result
        exact List.forall_mem_nil _
      · obtain ⟨⟨texts', v1⟩, loop, result⟩ := bind_eq_ok.mp result
        cases result
        exact npuTexts_fit (fills _) loop

/-- **An inference of the NPU**, and what is written of it. -/
theorem npuInfer_performs {maxTokens : Int} {prompt : Bytes} (rests : Rests L nCtx swapDir s (w, v))
    (fills : ∀ model, FillsBuffer (N.tokenToPiece model)) :
    Performs L nCtx swapDir
      (printAnswer line .stream (handleCommand L N (.npuInfer maxTokens prompt) s))
      (perform L N (.npuInfer prompt maxTokens) (w, v)) := by
  rw [perform]
  by_cases ready : v.isReady = true
  · have isReady : ¬ ¬ v.isReady = true := not_not.mpr ready
    rw [if_neg isReady]
    cases result : npuInfer N prompt maxTokens v with
    | error e =>
      have same : s.npu = v := rests.npu
      have served : serveNpu N (.npuInfer maxTokens prompt) s.npu = .error e := by
        rw [same, serveNpu, if_neg isReady, result, error_bind]
      rw [handleCommand_npuFault (rests.waits.idle _) rfl served]
      exact .error rfl
    | ok answer =>
      obtain ⟨⟨ok, texts⟩, v'⟩ := answer
      have served : serveNpu N (.npuInfer maxTokens prompt) v = .ok (texts.flatMap tokenLine ++
          (if ok then text "DONE\n" else text "ERROR NPU_INFER_FAILED\n"), v') := by
        rw [serveNpu, if_neg isReady, result, ok_bind]
      refine npu_performs rests rfl served ?_
      cases ok with
      | true => exact readAnswer_stream (npuInfer_fits fills result)
      | false =>
        rw [npuInfer_silent result]
        exact readAnswer_error (by constructor <;> decide +kernel) (by decide +kernel)
  · have served : serveNpu N (.npuInfer maxTokens prompt) v = .ok (text "ERROR NPU_NOT_READY\n", v) :=
      if_pos ready
    rw [if_pos ready]
    exact npu_performs rests rfl served
      (readAnswer_error (by constructor <;> decide +kernel) (by decide +kernel))

/-! ### Runs of the tool -/

/-- **One run of the tool** prints what the engines answer, and leaves them as they would be. -/
theorem cliMain_performs {errand : Errand} (rests : Rests L nCtx swapDir s (w, v))
    (sendable : errand.Sendable) (fills : FillsBuffer L.tokenToPiece)
    (npuFills : ∀ model, FillsBuffer (N.tokenToPiece model)) :
    Performs L nCtx swapDir (cliMain L N line errand.args s) (perform L N errand (w, v)) := by
  have isReady : ¬ ¬ s.daemon.ready = true := not_not.mpr rests.waits.ready
  have isLine : ∀ (p : Prop) [Decidable p] (yes no : Bytes),
      readAndPrint yes = ⟨yes, 0⟩ → readAndPrint no = ⟨no, 0⟩ →
      readAnswer line .line (if p then yes else no) = ⟨if p then yes else no, 0⟩ := by
    intro p _ yes no first second
    rw [readAnswer]
    split
    · rw [first]
    · rw [second]
  have ok : readAndPrint (text "OK\n") = ⟨text "OK\n", 0⟩ := by decide +kernel
  have short : ∀ {reply : Bytes}, readAndPrint reply = ⟨reply, 0⟩ →
      readAnswer line .line reply = ⟨reply, 0⟩ := by
    intro reply printed
    rw [readAnswer, printed]
  rw [cliMain_errand sendable]
  cases errand with
  | createSession id =>
    have create : serveCommand L (.createSession id) s.daemon = answerCall L (.createSession id)
        (fun ok => .wrote (if ok = .bool true then text "OK\n" else text "ERROR ALREADY_EXISTS\n"))
        s.daemon := if_neg isReady
    exact call_performs rests rfl create fun r =>
      isLine (r = .bool true) _ _ (by decide +kernel) (by decide +kernel)
  | killSession id =>
    exact call_performs rests rfl (serveCommand_kill id) fun r =>
      isLine (r = .bool true) _ _ (by decide +kernel) (by decide +kernel)
  | setHotLimit count =>
    have prints : readAnswer line .line (text "OK\n") = ⟨text "OK\n", 0⟩ := short ok
    exact call_performs rests rfl (serveCommand_setHotLimit count) fun r => prints
  | setColdLimit bytes =>
    have prints : readAnswer line .line (text "OK\n") = ⟨text "OK\n", 0⟩ := short ok
    exact call_performs rests rfl (serveCommand_setColdLimit bytes) fun r => prints
  | infer sessionId prompt maxTokens => exact infer_performs rests fills
  | npuLoad call =>
    exact npu_performs rests rfl rfl (isLine _ _ _ (by decide +kernel) (by decide +kernel))
  | npuInfer prompt maxTokens => exact npuInfer_performs rests npuFills
  | hello =>
    rw [Errand.command, handleCommand_served (rests.waits.idle _) rfl rfl (rests.waits.idle _)]
    have prints : readAndPrint (text "HELLO from miniv_ai\n") = ⟨text "HELLO from miniv_ai\n", 0⟩ := by
      decide +kernel
    exact .ok ⟨prints, rests.waits, rests.npu⟩

/-- **From the command line to the engines and back.** Of any errands, run one after another from a
state in which nothing runs and the engine is loaded, each prints just what its call of the engines
answers, and the engines are left as these calls leave them; and the one faults where the other does. -/
theorem command_line_performs (L : Llama σ) (N : NpuLlama τ) (line : Bytes) {errands : List Errand}
    (rests : Rests L nCtx swapDir s (w, v)) (sendable : ∀ e ∈ errands, e.Sendable)
    (fills : FillsBuffer L.tokenToPiece) (npuFills : ∀ model, FillsBuffer (N.tokenToPiece model)) :
    Lift Eq (fun a b => a.1 = b.1 ∧ Rests L nCtx swapDir a.2 b.2)
      (answers (cliMain L N line) (errands.map Errand.args) s)
      (answers (perform L N) errands (w, v)) := by
  have asks : List.Forall₂ (fun args (e : Errand) => args = e.args ∧ e.Sendable)
      (errands.map Errand.args) errands := by
    rw [List.forall₂_map_left_iff, List.forall₂_same]
    exact fun e member => ⟨rfl, sendable e member⟩
  have steps : ∀ (s : Server σ τ) (engines : Engines σ τ) (args : List Bytes) (e : Errand),
      Rests L nCtx swapDir s engines → args = e.args ∧ e.Sendable →
        Lift Eq (fun a b => a.1 = b.1 ∧ Rests L nCtx swapDir a.2 b.2)
          (cliMain L N line args s) (perform L N e engines) := by
    rintro s engines args e rests' ⟨rfl, sendable'⟩
    exact cliMain_performs rests' sendable' fills npuFills
  refine (answers_lift steps asks rests).mono fun a b both => ⟨?_, both.2⟩
  exact List.forall₂_eq_eq_eq ▸ both.1

/-- **Clients one after another** are served as one client is that sends all their messages: nothing
is kept of a connection. -/
theorem clients_in_turn (L : Llama σ) (N : NpuLlama τ) (s : Server σ τ) {clients : List (List Bytes)}
    (complete : ∀ messages ∈ clients, ∀ m ∈ messages, IsMessage m) :
    ((answers (handleClient L N) (clients.map List.flatten) s).map fun a => (a.1.flatten, a.2)) =
      handleClient L N clients.flatten.flatten s := by
  induction clients generalizing s with
  | nil => rfl
  | cons messages clients ih =>
    have stream : commands ((messages :: clients).flatten.flatten) =
        commands messages.flatten ++ commands clients.flatten.flatten := by
      rw [List.flatten_cons, List.flatten_append]
      exact commands_append (complete messages List.mem_cons_self) _
    rw [List.map_cons, handleClient, stream, answers_append]
    cases first : answers (handleCommand L N) (commands messages.flatten) s with
    | error e =>
      have served : handleClient L N messages.flatten s = .error e := by
        rw [handleClient, first, error_bind]
      rw [answers_cons_error served]
      rfl
    | ok a =>
      have served : handleClient L N messages.flatten s = .ok (a.1.flatten, a.2) := by
        rw [handleClient, first, ok_bind]
      have later := ih a.2 fun messages' member => complete messages' (List.mem_cons_of_mem _ member)
      rw [handleClient] at later
      rw [answers_cons_ok served, Except.bind]
      dsimp only
      generalize answers (handleClient L N) (clients.map List.flatten) a.2 = x at later ⊢
      generalize answers (handleCommand L N) (commands clients.flatten.flatten) a.2 = y at later ⊢
      cases x with
      | error e =>
        cases y with
        | error e' => exact later
        | ok c => cases later
      | ok b =>
        cases y with
        | error e' => cases later
        | ok c =>
          have same := Except.ok.inj later
          rw [Prod.mk.injEq] at same
          show Except.ok ((a.1.flatten :: b.1).flatten, b.2) = Except.ok ((a.1 ++ c.1).flatten, c.2)
          rw [List.flatten_cons, List.flatten_append, same.1, same.2]

/-- A conversation in one session, the greeting, the NPU, and a session that is not there. -/
def terminalTalk : List Errand :=
  [.createSession 1, .infer 1 (text "ab") 2, .hello, .npuLoad ⟨text "/m", text "/b", 2048, 4⟩,
    .npuInfer (text "q") 8, .infer 7 (text "c") 1]

/-- Both engines before it: the one is loaded, the other is not. -/
def terminalStart : Server Sim (List Bool) :=
  Server.start true 9 (text "/s") (Sim.start [104, 105]) []

theorem command_line_performs_talk :
    Lift Eq (fun a b => a.1 = b.1 ∧ Rests (sim 9 10) 9 (text "/s") a.2 b.2)
      (answers (cliMain (sim 9 10) npuSim emptyLine) (terminalTalk.map Errand.args) terminalStart)
      (answers (perform (sim 9 10) npuSim) terminalTalk
        (terminalStart.daemon.world, terminalStart.npu)) ∧
    Gives (fun a => a.1.map Printed.output =
        [text "OK\n", text "hi\n[DONE]\n", text "HELLO from miniv_ai\n", text "OK\n",
          text "\n[DONE]\n", text "\n[ERROR] SESSION_NOT_FOUND\n"])
      (answers (cliMain (sim 9 10) npuSim emptyLine) (terminalTalk.map Errand.args) terminalStart) := by
  have prompt : ∀ prompt ∈ [text "ab", text "q", text "c"], Errand.IsPrompt prompt := by
    have plain : ∀ prompt ∈ [text "ab", text "q", text "c"], 0 ∉ prompt ∧ NoEnd prompt := by
      decide +kernel
    exact plain
  have fields : Errand.IsField (text "/m") ∧ Errand.IsField (text "/b") :=
    ⟨⟨by decide, by decide⟩, by decide, by decide⟩
  have sendable : ∀ e ∈ terminalTalk, e.Sendable := by
    simp only [terminalTalk, List.forall_mem_cons, Errand.Sendable]
    exact ⟨by decide, ⟨by decide, by decide, prompt _ (by simp)⟩, trivial,
      ⟨fields.1, fields.2, by decide, by decide⟩, ⟨by decide, prompt _ (by simp)⟩,
      ⟨by decide, by decide, prompt _ (by simp)⟩, List.forall_mem_nil _⟩
  have fills : FillsBuffer (sim 9 10).tokenToPiece := fun _ => Nat.le_of_ble_eq_true rfl
  have npuFills : ∀ model, FillsBuffer (npuSim.tokenToPiece model) := fun _ _ => Nat.zero_le _
  have rests : Rests (sim 9 10) 9 (text "/s") terminalStart
      (terminalStart.daemon.world, terminalStart.npu) :=
    ⟨Waits.start (sim 9 10) true 9 (text "/s") (Sim.start [104, 105]), rfl⟩
  exact ⟨command_line_performs (sim 9 10) npuSim emptyLine rests sendable fills npuFills,
    by decide +kernel⟩

/-- A session is created. -/
def oneSession : List Bytes := [text "CREATE_SESSION 1\n"]

theorem oneSession_complete : ∀ m ∈ oneSession, IsMessage m := by
  have line : text "CREATE_SESSION 1\n" = text "CREATE_SESSION 1" ++ [newline] := by decide
  intro m member
  rw [List.mem_singleton.mp member, line]
  exact isMessage_line ⟨by decide, by decide, by decide⟩ (by decide) (by decide)

/-- Two clients: the one creates a session, the other talks in it. -/
def twoClients : List (List Bytes) :=
  [[text "CREATE_SESSION 1\n"], [inferMessage 1 2 (text "ab"), text "HELLO\n"]]

theorem clients_in_turn_two :
    ((answers (handleClient (sim 9 10) npuSim) (twoClients.map List.flatten) terminalStart).map
        fun a => (a.1.flatten, a.2)) =
      handleClient (sim 9 10) npuSim twoClients.flatten.flatten terminalStart ∧
    Gives (fun a => a.1 = text "OK\nTOKEN aA==\nTOKEN aQ==\nDONE\nHELLO from miniv_ai\n")
      (handleClient (sim 9 10) npuSim twoClients.flatten.flatten terminalStart) := by
  have complete : ∀ messages ∈ twoClients, ∀ m ∈ messages, IsMessage m := by
    simp only [twoClients, List.forall_mem_cons]
    exact ⟨⟨oneSession_complete _ List.mem_cons_self, List.forall_mem_nil _⟩,
      ⟨isMessage_infer (by decide) (by decide) (by decide) (by decide +kernel),
        ⟨.hello, readCommand_hello⟩, List.forall_mem_nil _⟩, List.forall_mem_nil _⟩
  exact ⟨clients_in_turn (sim 9 10) npuSim terminalStart complete, by decide +kernel⟩

end MiniV
