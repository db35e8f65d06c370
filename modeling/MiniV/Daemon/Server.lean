/-
**What the client of the socket is written.**

`HandleClient` answers every command with one line, and sends the tokens of an inference ahead of it.
Its commands go to both engines: those of the NPU are carried out on the spot, and an inference of the
other engine is one of the threads of the daemon, whose steps come in between those of the HAL. The
client stays connected, so that every line is written.

* `serverStep`: one action of the whole daemon, with what the socket saw of it;
* `run_daemon`: the session engine's part of a run, which the NPU's commands leave alone;
* `replies_in_step`: in any run, what was written is the replies to the commands taken, in order;
* `replies_recovered`: so a client that reads up to a line that carries no token gets them one by one.
-/

import MiniV.Daemon.Protocol
import MiniV.Npu.Engine

namespace MiniV

open MiniV.Library

/-! ### Both engines behind one socket -/

/-- Both engines, with all that runs. -/
structure Server (σ τ : Type) where
  daemon : Daemon σ
  npu : NpuWorld τ

/-- The daemon when it starts to serve. -/
def Server.start {σ τ : Type} (ready : Bool) (nCtx : Nat) (swapDir : Bytes) (llama : σ) (npuLlama : τ) :
    Server σ τ where
  daemon := Daemon.start ready nCtx swapDir llama
  npu := NpuWorld.start npuLlama

/-- What the socket sees of an action: the command that it takes, and the bytes it is written. -/
structure Exchange where
  took : Option Command := none
  out : Bytes := []
deriving DecidableEq, Repr

/-- What a notice is on the socket. -/
def Notice.written : Notice → Bytes
  | .wrote line => line
  | .wroteToken tok => tokenLine tok
  | .nothing | .returned _ | .onToken _ _ | .onComplete _ | .onError _ _ _ => []

/-- A command for the NPU engine. -/
def Command.forNpu : Command → Bool
  | .npuLoad _ _ _ _ | .npuInfer _ _ => true
  | .createSession _ | .killSession _ | .setHotLimit _ | .setColdLimit _ | .infer _ _ _ | .hello
  | .ignored _ => false

/-- A line that is no command. -/
def Command.isIgnored : Command → Bool
  | .ignored _ => true
  | .createSession _ | .killSession _ | .setHotLimit _ | .setColdLimit _ | .infer _ _ _
  | .npuLoad _ _ _ _ | .npuInfer _ _ | .hello => false

section Functions

variable {σ τ : Type} (L : Llama σ) (N : NpuLlama τ)

/-- An action of the daemon. -/
def onDaemon (took : Option Command) (action : Action) (s : Server σ τ) :
    Except (Fault ⊕ NpuFault) (Exchange × Server σ τ) :=
  match step L action s.daemon with
  | .error e => .error (.inl e)
  | .ok (notice, d) => .ok (⟨took, notice.written⟩, { s with daemon := d })

/-- A command for the NPU. -/
def onNpu (command : Command) (s : Server σ τ) :
    Except (Fault ⊕ NpuFault) (Exchange × Server σ τ) :=
  match serveNpu N command s.npu with
  | .error e => .error (.inr e)
  | .ok (out, npu) => .ok (⟨some command, out⟩, { s with npu := npu })

/-- **One action of the daemon with both engines.** No command is taken while one is carried out. -/
def serverStep (action : Action) (s : Server σ τ) :
    Except (Fault ⊕ NpuFault) (Exchange × Server σ τ) :=
  match action with
  | .command command =>
    if (s.daemon.threads .socket).isSome then .ok ({}, s)
    else if command.forNpu then onNpu N command s
    else onDaemon L (some command) (.command command) s
  | action => onDaemon L none action s

end Functions

/-- The commands taken in a run. -/
def commandsTaken (h : List (Action × Exchange)) : List Command := h.filterMap fun e => e.2.took

/-- The bytes written in a run. -/
def socketOutput (h : List (Action × Exchange)) : Bytes := h.flatMap fun e => e.2.out

/-! ### Replies -/

/-- The lines that answer a command, but for `DONE`. -/
def lastLines : Command → List Bytes
  | .createSession _ =>
    [text "OK\n", text "ERROR ALREADY_EXISTS\n", text "ERROR engine not ready\n"]
  | .killSession _ => [text "OK\n", text "ERROR NOT_FOUND\n"]
  | .setHotLimit _ | .setColdLimit _ => [text "OK\n"]
  | .infer _ _ _ => [text "ERROR SESSION_NOT_FOUND\n", text "ERROR engine not ready\n"]
  | .npuLoad _ _ _ _ => [text "OK\n", text "ERROR NPU_LOAD_FAILED\n"]
  | .npuInfer _ _ => [text "ERROR NPU_INFER_FAILED\n", text "ERROR NPU_NOT_READY\n"]
  | .hello => [text "HELLO from miniv_ai\n"]
  | .ignored _ => []

/-- **The reply to a command**: a line, or the tokens of an inference and `DONE`; nothing to a line
that is no command. -/
inductive ReplyTo : Command → Bytes → Prop
  | line {command : Command} {line : Bytes} (last : line ∈ lastLines command) : ReplyTo command line
  | infer (sessionId maxTokens : Int) (prompt : Bytes) (texts : List Bytes) :
      ReplyTo (.infer sessionId maxTokens prompt) (streamOf texts)
  | npuInfer (maxTokens : Int) (prompt : Bytes) (texts : List Bytes) :
      ReplyTo (.npuInfer maxTokens prompt) (streamOf texts)
  | nothing (cmd : Bytes) : ReplyTo (.ignored cmd) []

/-- A client that reads lines up to the first that carries no token: what it has read, and what is
left. -/
def readReply : Nat → Bytes → Option (Bytes × Bytes)
  | 0, _ => none
  | rounds + 1, stream =>
    if stream = [] then none
    else
      let read := takeLine stream.length stream
      if startsWith (text "TOKEN ") read.1 then
        (readReply rounds read.2).map fun later => (read.1 ++ later.1, later.2)
      else some read

/-- A client that reads so many replies. -/
def readReplies : Nat → Bytes → Option (List Bytes)
  | 0, _ => some []
  | count + 1, stream =>
    (readReply stream.length stream).bind fun read =>
      (readReplies count read.2).map fun later => read.1 :: later

/-- Commands with the reply to each. -/
def Replies (done : List (Command × Bytes)) : Prop := ∀ p ∈ done, ReplyTo p.1 p.2

/-- **What was written for the commands taken**: the reply to each, and so far the tokens of the one
that is carried out. -/
inductive Answering {σ : Type} (L : Llama σ) : List Command → Bytes → Option Inference → Prop
  | idle {done : List (Command × Bytes)} (replies : Replies done) :
      Answering L (done.map Prod.fst) (done.flatMap Prod.snd) none
  | busy {done : List (Command × Bytes)} (replies : Replies done) (sessionId maxTokens : Int)
      (prompt : Bytes) {pc : Pc} {texts : List Bytes} (said : Said L maxTokens pc texts) :
      Answering L (done.map Prod.fst ++ [.infer sessionId maxTokens prompt])
        (done.flatMap Prod.snd ++ texts.flatMap tokenLine) (some ⟨sessionId, prompt, maxTokens, pc⟩)

variable {σ τ : Type} {L : Llama σ} {N : NpuLlama τ} {d d' : Daemon σ} {s s' : Server σ τ}
  {w w' : NpuWorld τ} {notice : Notice} {action : Action} {exchange : Exchange} {command : Command}
  {out : Bytes} {h : List (Action × Exchange)}

/-! ### One command -/

/-- An inference of the NPU that fails has generated nothing. -/
theorem npuInfer_silent {prompt : Bytes} {maxTokens : Int} {texts : List Bytes}
    (result : npuInfer N prompt maxTokens w = .ok ((false, texts), w')) : texts = [] := by
  unfold npuInfer at result
  split at result
  · cases result
    rfl
  · split at result
    · cases result
    · dsimp only at result
      split at result
      · cases result
        rfl
      · obtain ⟨_, _, result⟩ := bind_eq_ok.mp result
        cases result

/-- The NPU's commands are answered at once. -/
theorem replyTo_npu (npu : command.forNpu = true) (served : serveNpu N command w = .ok (out, w')) :
    ReplyTo command out := by
  cases command with
  | npuLoad modelPath backendDir nCtx nThreads =>
    cases served
    split
    · exact .line (by simp [lastLines])
    · exact .line (by simp [lastLines])
  | npuInfer maxTokens prompt =>
    rw [serveNpu] at served
    split at served
    · cases served
      exact .line (by simp [lastLines])
    · obtain ⟨⟨⟨ok, texts⟩, w1⟩, inferred, result⟩ := bind_eq_ok.mp served
      cases result
      cases ok with
      | true => exact .npuInfer maxTokens prompt texts
      | false =>
        obtain rfl := npuInfer_silent inferred
        exact .line (by simp [lastLines])
  | createSession | killSession | setHotLimit | setColdLimit | infer | hello | ignored => cases npu

/-- The other engine's commands are answered at once, or an inference is started. -/
inductive CommandServed (L : Llama σ) (d : Daemon σ) : Command → Notice → Daemon σ → Prop
  | answers {command : Command} {notice : Notice} {d' : Daemon σ}
      (reply : ReplyTo command notice.written) (free : d'.threads .socket = none) :
      CommandServed L d command notice d'
  | starts (sessionId maxTokens : Int) (prompt : Bytes) :
      CommandServed L d (.infer sessionId maxTokens prompt) .nothing
        (d.setThread .socket (some ⟨sessionId, prompt, maxTokens, .activate⟩))

theorem serveCommand_served (free : d.threads .socket = none) (engine : command.forNpu = false)
    (served : serveCommand L command d = .ok (notice, d')) : CommandServed L d command notice d' := by
  have stays : ∀ {op : Op} {answer : Reply → Notice}, answerCall L op answer d = .ok (notice, d') →
      (∃ r, notice = answer r) ∧ d'.threads .socket = none := by
    intro op answer result
    obtain ⟨⟨r, d1⟩, called, result⟩ := bind_eq_ok.mp result
    obtain ⟨_, w, _, rfl⟩ := callManager_ok called
    cases result
    exact ⟨⟨r, rfl⟩, free⟩
  cases command with
  | createSession id =>
    rw [serveCommand] at served
    split at served
    · cases served
      exact .answers (.line (by simp [lastLines, Notice.written])) free
    · obtain ⟨⟨r, rfl⟩, free'⟩ := stays served
      refine .answers (.line ?_) free'
      by_cases done : r = .bool true <;> simp [lastLines, Notice.written, done]
  | killSession id =>
    rw [serveCommand] at served
    obtain ⟨⟨r, rfl⟩, free'⟩ := stays served
    refine .answers (.line ?_) free'
    by_cases done : r = .bool true <;> simp [lastLines, Notice.written, done]
  | setHotLimit | setColdLimit =>
    rw [serveCommand] at served
    obtain ⟨⟨r, rfl⟩, free'⟩ := stays served
    exact .answers (.line (by simp [lastLines, Notice.written])) free'
  | infer sessionId maxTokens prompt =>
    rw [serveCommand] at served
    split at served
    · cases served
      exact .answers (.line (by simp [lastLines, Notice.written])) free
    · cases served
      exact .starts sessionId maxTokens prompt
  | hello =>
    cases served
    exact .answers (.line (by simp [lastLines, Notice.written])) free
  | ignored cmd =>
    cases served
    exact .answers (.nothing cmd) free
  | npuLoad | npuInfer => cases engine

/-! ### One action -/

/-- An action that is neither a command nor a step of the socket's inference leaves the socket alone. -/
def Action.elsewhere : Action → Bool
  | .createSession _ | .destroySession _ | .inferStream _ _ _ | .cancel _ | .advance (.hal _) => true
  | .command _ | .advance .socket => false

theorem step_elsewhere (elsewhere : action.elsewhere = true)
    (result : step L action d = .ok (notice, d')) :
    notice.written = [] ∧ d'.threads .socket = d.threads .socket := by
  have called : ∀ {op : Op} {code : Reply → Int},
      answerCall L op (fun r => .returned (code r)) d = .ok (notice, d') →
        notice.written = [] ∧ d'.threads .socket = d.threads .socket := by
    intro op code result
    obtain ⟨⟨r, d1⟩, called, result⟩ := bind_eq_ok.mp result
    obtain ⟨_, w, _, rfl⟩ := callManager_ok called
    cases result
    exact ⟨rfl, rfl⟩
  cases action with
  | createSession sessionId =>
    rw [step, halCreateSession] at result
    split at result
    · cases result
      exact ⟨rfl, rfl⟩
    · exact called result
  | destroySession sessionId =>
    rw [step, halDestroySession] at result
    split at result
    · cases result
      exact ⟨rfl, rfl⟩
    · exact called result
  | inferStream sessionId prompt maxTokens =>
    have both := Except.ok.inj result
    rw [show notice = (inferStream sessionId prompt maxTokens d).1 by rw [both],
      show d' = (inferStream sessionId prompt maxTokens d).2 by rw [both], inferStream_threads]
    constructor
    · unfold inferStream
      dsimp only
      split <;> rfl
    · split
      · exact Function.update_of_ne (by simp) ..
      · rfl
  | cancel sessionId =>
    cases result
    exact ⟨rfl, by rw [cancel_threads]⟩
  | advance thread =>
    cases thread with
    | socket => cases elsewhere
    | hal reqId =>
      cases advance_advanced result with
      | rests => exact ⟨rfl, rfl⟩
      | @goes inference pc text? w running stepped =>
        refine ⟨?_, Daemon.setThread_of_ne (by simp) ..⟩
        cases text? <;> rfl
      | @ends inference ok running here =>
        refine ⟨?_, ?_⟩
        · cases ok <;> rfl
        · rw [finish_threads]
          exact Function.update_of_ne (by simp) ..
  | command => cases elsewhere

theorem onDaemon_ok {took : Option Command} (result : onDaemon L took action s = .ok (exchange, s')) :
    ∃ notice d, step L action s.daemon = .ok (notice, d) ∧ exchange = ⟨took, notice.written⟩ ∧
      s' = { s with daemon := d } := by
  unfold onDaemon at result
  split at result
  · cases result
  · rename_i notice d served
    cases result
    exact ⟨notice, d, served, rfl, rfl⟩

theorem onNpu_ok (result : onNpu N command s = .ok (exchange, s')) :
    ∃ out npu, serveNpu N command s.npu = .ok (out, npu) ∧ exchange = ⟨some command, out⟩ ∧
      s' = { s with npu := npu } := by
  unfold onNpu at result
  split at result
  · cases result
  · rename_i out npu served
    cases result
    exact ⟨out, npu, served, rfl, rfl⟩

/-- **The session engine's part of an action**: what goes to the NPU leaves it alone. -/
theorem serverStep_daemon (result : serverStep L N action s = .ok (exchange, s')) :
    ∃ notice, step L action s.daemon = .ok (notice, s'.daemon) := by
  have acts : ∀ {took : Option Command}, onDaemon L took action s = .ok (exchange, s') →
      ∃ notice, step L action s.daemon = .ok (notice, s'.daemon) := by
    intro took acted
    obtain ⟨notice, d, taken, _, rfl⟩ := onDaemon_ok acted
    exact ⟨notice, taken⟩
  cases action with
  | command command =>
    rw [serverStep] at result
    split at result
    · rename_i busy
      cases result
      exact ⟨.nothing, if_pos busy⟩
    · rename_i free
      split at result
      · rename_i npu
        obtain ⟨_, _, _, _, rfl⟩ := onNpu_ok result
        refine ⟨.nothing, (if_neg free).trans ?_⟩
        cases command with
        | npuLoad | npuInfer => rfl
        | createSession | killSession | setHotLimit | setColdLimit | infer | hello | ignored => cases npu
      · exact acts result
  | createSession | destroySession | inferStream | cancel | advance => exact acts result

/-- **The NPU engine's part of an action**: nothing, or the command that it is. -/
theorem serverStep_npu (result : serverStep L N action s = .ok (exchange, s')) :
    s'.npu = s.npu ∨ ∃ command out, serveNpu N command s.npu = .ok (out, s'.npu) := by
  have acts : ∀ {took : Option Command}, onDaemon L took action s = .ok (exchange, s') →
      s'.npu = s.npu ∨ ∃ command out, serveNpu N command s.npu = .ok (out, s'.npu) := by
    intro took acted
    obtain ⟨_, _, _, _, rfl⟩ := onDaemon_ok acted
    exact Or.inl rfl
  cases action with
  | command command =>
    rw [serverStep] at result
    split at result
    · cases result
      exact Or.inl rfl
    · split at result
      · obtain ⟨out, npu, served, _, rfl⟩ := onNpu_ok result
        exact Or.inr ⟨command, out, served⟩
      · exact acts result
  | createSession | destroySession | inferStream | cancel | advance => exact acts result

/-- **The session engine's part of a run** is a run of the daemon. -/
theorem run_daemon {actions : List Action} (reach : run (serverStep L N) actions s = .ok s') :
    run (step L) actions s.daemon = .ok s'.daemon := by
  induction actions generalizing s with
  | nil =>
    cases reach
    rfl
  | cons action actions ih =>
    obtain ⟨exchange, mid, served, rest⟩ := run_cons_eq_ok.mp reach
    obtain ⟨notice, taken⟩ := serverStep_daemon served
    exact run_cons_eq_ok.mpr ⟨notice, mid.daemon, taken, ih rest⟩

theorem commandsTaken_concat (e : Action × Exchange) :
    commandsTaken (h ++ [e]) = commandsTaken h ++ e.2.took.toList :=
  filterMap_concat ..

theorem socketOutput_concat (e : Action × Exchange) :
    socketOutput (h ++ [e]) = socketOutput h ++ e.2.out := by
  simp [socketOutput]

/-- A reply follows those before it. -/
theorem Answering.reply {commands : List Command} {out reply : Bytes}
    (answering : Answering L commands out none) (is : ReplyTo command reply) :
    Answering L (commands ++ [command]) (out ++ reply) none := by
  generalize idle : (none : Option Inference) = inference at answering
  cases answering with
  | @idle done replies =>
    have more : Replies (done ++ [(command, reply)]) := by
      intro p member
      rcases List.mem_append.mp member with old | new
      · exact replies p old
      · rw [List.mem_singleton.mp new]
        exact is
    simpa using Answering.idle (L := L) more
  | busy => cases idle

/-- **One action** writes a reply, or a part of the one that is under way, or nothing. -/
theorem Answering.step {commands : List Command} {out : Bytes}
    (answering : Answering L commands out (s.daemon.threads .socket))
    (result : serverStep L N action s = .ok (exchange, s')) :
    Answering L (commands ++ exchange.took.toList) (out ++ exchange.out)
      (s'.daemon.threads .socket) := by
  by_cases elsewhere : action.elsewhere = true
  · have acts : onDaemon L none action s = .ok (exchange, s') := by
      cases action with
      | command => cases elsewhere
      | createSession | destroySession | inferStream | cancel | advance => exact result
    obtain ⟨notice, d, served, rfl, rfl⟩ := onDaemon_ok acts
    obtain ⟨quiet, same⟩ := step_elsewhere elsewhere served
    dsimp only
    rw [quiet, same, Option.toList_none, List.append_nil, List.append_nil]
    exact answering
  · cases action with
    | createSession | destroySession | inferStream | cancel => exact absurd rfl elsewhere
    | command command =>
      rw [serverStep] at result
      cases running : s.daemon.threads .socket with
      | some inference =>
        rw [running, Option.isSome_some, if_pos rfl] at result
        cases result
        rw [Option.toList_none, List.append_nil, List.append_nil]
        exact answering
      | none =>
        rw [running] at answering
        rw [running, Option.isSome_none, if_neg Bool.false_ne_true] at result
        split at result
        · rename_i npu
          obtain ⟨reply, npu', served, rfl, rfl⟩ := onNpu_ok result
          dsimp only
          rw [running]
          exact answering.reply (replyTo_npu npu served)
        · rename_i engine
          obtain ⟨notice, d, served, rfl, rfl⟩ := onDaemon_ok result
          rw [step, running, Option.isSome_none, if_neg Bool.false_ne_true] at served
          cases serveCommand_served running (Bool.eq_false_iff.mpr engine) served with
          | answers reply free =>
            dsimp only
            rw [free]
            exact answering.reply reply
          | starts sessionId maxTokens prompt =>
            dsimp only
            rw [Daemon.setThread_self]
            generalize idle : (none : Option Inference) = inference at answering
            cases answering with
            | idle replies => exact .busy replies sessionId maxTokens prompt .activate
            | busy => cases idle
    | advance thread =>
      cases thread with
      | hal => exact absurd rfl elsewhere
      | socket =>
        obtain ⟨notice, d, served, rfl, rfl⟩ := onDaemon_ok result
        dsimp only
        rw [Option.toList_none, List.append_nil]
        cases advance_advanced served with
        | rests absent =>
          rw [show Notice.nothing.written = [] from rfl, List.append_nil]
          exact answering
        | @goes inference pc text? w running stepped =>
          rw [running] at answering
          rw [Daemon.setThread_self]
          cases answering with
          | @busy done replies sessionId maxTokens prompt pc' texts said =>
            have later := said.step stepped
            have written : (tokenNotice .socket sessionId text?).written =
                text?.toList.flatMap tokenLine := by
              cases text? <;> simp [tokenNotice, Notice.written]
            rw [written, List.append_assoc, ← List.flatMap_append]
            exact .busy replies sessionId maxTokens prompt later
        | @ends inference ok running here =>
          rw [running] at answering
          rw [finish_threads, Function.update_self]
          cases answering with
          | @busy done replies sessionId maxTokens prompt pc texts said =>
            subst here
            have before := Answering.idle (L := L) replies
            rw [List.append_assoc]
            refine before.reply ?_
            cases ok with
            | true => exact .infer sessionId maxTokens prompt texts
            | false =>
              cases said
              exact .line (by simp [lastLines, finish, Notice.written])

/-- So it stays along any history. -/
theorem answering_of_history {ready : Bool} {nCtx : Nat} {swapDir : Bytes} {llama : σ} {npuLlama : τ}
    {actions : List Action}
    (told : history (serverStep L N) actions (Server.start ready nCtx swapDir llama npuLlama) =
      .ok (h, s)) :
    Answering L (commandsTaken h) (socketOutput h) (s.daemon.threads .socket) := by
  have start : Answering L (commandsTaken []) (socketOutput [])
      ((Server.start ready nCtx swapDir llama npuLlama : Server σ τ).daemon.threads .socket) := by
    have nothing : Replies [] := fun p member => by cases member
    exact .idle nothing
  refine history_invariant (I := fun h (s : Server σ τ) =>
    Answering L (commandsTaken h) (socketOutput h) (s.daemon.threads .socket)) ?_ start told
  intro h s action exchange s' answering result
  rw [commandsTaken_concat, socketOutput_concat]
  exact answering.step result

/-- **In any run** of the daemon, whatever binder calls, commands and steps of inferences come in
whatever order, the client of the socket has been written the replies to its commands, one by one, and
so far the tokens of the inference that is under way for it. -/
theorem replies_in_step (L : Llama σ) (N : NpuLlama τ) (ready : Bool) (nCtx : Nat) (swapDir : Bytes)
    (llama : σ) (npuLlama : τ) (actions : List Action)
    (told : history (serverStep L N) actions (Server.start ready nCtx swapDir llama npuLlama) =
      .ok (h, s)) :
    Answering L (commandsTaken h) (socketOutput h) (s.daemon.threads .socket) :=
  answering_of_history told

/-! ### The replies, one by one -/

/-- A whole line that carries no token. -/
def EndsReply (line : Bytes) : Prop :=
  line = line.dropLast ++ [newline] ∧ newline ∉ line.dropLast ∧
    startsWith (text "TOKEN ") line = false

instance (line : Bytes) : Decidable (EndsReply line) := inferInstanceAs (Decidable (_ ∧ _))

/-- One line of a stream. -/
theorem takeLine_whole {l : Bytes} (noNewline : newline ∉ l) (rest : Bytes) :
    takeLine (l ++ [newline] ++ rest).length (l ++ [newline] ++ rest) = (l ++ [newline], rest) := by
  rw [List.append_assoc, List.singleton_append]
  exact takeLine_line (by simp) noNewline rest

/-- A reply is read up to its end, and no further. -/
theorem readReply_lines {line : Bytes} (last : EndsReply line) (texts : List Bytes) {rounds : Nat}
    (enough : texts.length < rounds) (rest : Bytes) :
    readReply rounds (texts.flatMap tokenLine ++ line ++ rest) =
      some (texts.flatMap tokenLine ++ line, rest) := by
  induction texts generalizing rounds with
  | nil =>
    obtain ⟨shape, noNewline, noToken⟩ := last
    cases rounds with
    | zero => exact absurd enough (Nat.not_lt_zero _)
    | succ rounds =>
      have whole := takeLine_whole noNewline rest
      rw [← shape] at whole
      have some' : line ++ rest ≠ [] := by
        rw [shape]
        simp
      rw [List.flatMap_nil, List.nil_append, readReply, if_neg some', whole]
      dsimp only
      rw [noToken, if_neg Bool.false_ne_true]
  | cons tok texts ih =>
    cases rounds with
    | zero => exact absurd enough (Nat.not_lt_zero _)
    | succ rounds =>
      have later := @ih rounds (by simpa using enough)
      have first := takeLine_whole (noNewline_tokenLine tok) (texts.flatMap tokenLine ++ line ++ rest)
      rw [← tokenLine_eq] at first
      have shape : (tok :: texts).flatMap tokenLine ++ line ++ rest =
          tokenLine tok ++ (texts.flatMap tokenLine ++ line ++ rest) := by
        simp only [List.flatMap_cons, List.append_assoc]
      rw [shape, readReply, if_neg (by simp [tokenLine]), first]
      dsimp only
      rw [if_pos (startsWith_tokenLine tok), later, Option.map_some, List.flatMap_cons,
        List.append_assoc]

theorem endsReply_last (command : Command) : ∀ line ∈ lastLines command, EndsReply line := by
  cases command with
  | createSession | killSession | setHotLimit | setColdLimit | infer | npuLoad | npuInfer | hello
  | ignored =>
    rw [lastLines]
    decide +kernel

/-- Whatever the reply to a command, a client reads it up to its end. -/
theorem readReply_reply {reply : Bytes} (is : ReplyTo command reply)
    (known : command.isIgnored = false) (rest : Bytes) :
    readReply (reply ++ rest).length (reply ++ rest) = some (reply, rest) := by
  have streamed : ∀ texts, readReply (streamOf texts ++ rest).length (streamOf texts ++ rest) =
      some (streamOf texts, rest) := by
    intro texts
    have enough := length_lt_streamOf texts
    have done : EndsReply (text "DONE\n") := by decide +kernel
    exact readReply_lines done texts (by rw [List.length_append]; omega) rest
  cases is with
  | line last =>
    have ends := endsReply_last command reply last
    have some' : 0 < reply.length := by
      rw [ends.1]
      simp
    exact readReply_lines ends [] (by rw [List.length_append]; exact Nat.add_pos_left some' _) rest
  | infer sessionId maxTokens prompt texts => exact streamed texts
  | npuInfer maxTokens prompt texts => exact streamed texts
  | nothing cmd => cases known

/-- Replies are read one by one. -/
theorem readReplies_flatMap {done : List (Command × Bytes)} (replies : Replies done)
    (known : ∀ p ∈ done, p.1.isIgnored = false) :
    readReplies done.length (done.flatMap Prod.snd) = some (done.map Prod.snd) := by
  induction done with
  | nil => rfl
  | cons p done ih =>
    have later := ih (fun q member => replies q (List.mem_cons_of_mem _ member))
      (fun q member => known q (List.mem_cons_of_mem _ member))
    have first := readReply_reply (replies p List.mem_cons_self) (known p List.mem_cons_self)
      (done.flatMap Prod.snd)
    rw [List.flatMap_cons, List.length_cons, readReplies, first]
    simp only [Option.bind_some, later, Option.map_some, List.map_cons]

/-- A client of the socket at work, while a request of the HAL takes a few steps. -/
def busySocket : List Action :=
  [.command (.createSession 1), .createSession 2, .command (.infer 1 2 (text "ab")),
    .inferStream 2 (text "c") 1, .advance (.hal 1)] ++ List.replicate 5 (.advance .socket) ++
  [.command .hello, .advance (.hal 1)] ++ List.replicate 6 (.advance .socket) ++
  [.command (.npuLoad (text "/m") (text "/b") 2048 4), .command (.npuInfer 8 (text "q")),
    .command (.infer 7 1 (text "d")), .advance .socket, .advance .socket]

/-- Nothing is written for a command that is not taken while an inference is under way. -/
theorem replies_in_step_busy : ∃ h s,
    history (serverStep (sim 9 10) npuSim) busySocket
      (Server.start true 9 (text "/s") (Sim.start [104, 105]) []) = .ok (h, s) ∧
    socketOutput h = text "OK\nTOKEN aA==\nTOKEN aQ==\nDONE\nOK\nDONE\nERROR SESSION_NOT_FOUND\n" ∧
    Answering (sim 9 10) (commandsTaken h) (socketOutput h) (s.daemon.threads .socket) := by
  have talk : Gives (fun a => socketOutput a.1 =
        text "OK\nTOKEN aA==\nTOKEN aQ==\nDONE\nOK\nDONE\nERROR SESSION_NOT_FOUND\n")
      (history (serverStep (sim 9 10) npuSim) busySocket
        (Server.start true 9 (text "/s") (Sim.start [104, 105]) [])) := by
    decide +kernel
  obtain ⟨⟨h, s⟩, told, output⟩ := gives_iff.mp talk
  exact ⟨h, s, told, output,
    replies_in_step (sim 9 10) npuSim true 9 (text "/s") (Sim.start [104, 105]) [] busySocket told⟩

/-- **A client that counts its commands** reads the reply to each, and nothing of another's, in any run
that comes to rest. -/
theorem replies_recovered (L : Llama σ) (N : NpuLlama τ) (ready : Bool) (nCtx : Nat) (swapDir : Bytes)
    (llama : σ) (npuLlama : τ) (actions : List Action)
    (told : history (serverStep L N) actions (Server.start ready nCtx swapDir llama npuLlama) =
      .ok (h, s))
    (rests : s.daemon.threads .socket = none)
    (known : ∀ command ∈ commandsTaken h, command.isIgnored = false) :
    ∃ replies, readReplies (commandsTaken h).length (socketOutput h) = some replies ∧
      replies.flatten = socketOutput h ∧ List.Forall₂ ReplyTo (commandsTaken h) replies := by
  have answering := answering_of_history told
  rw [rests] at answering
  revert known
  generalize commandsTaken h = commands, socketOutput h = out at answering
  generalize idle : (none : Option Inference) = inference at answering
  cases answering with
  | @idle done replies =>
    intro known
    refine ⟨done.map Prod.snd, ?_, ?_, ?_⟩
    · rw [List.length_map]
      exact readReplies_flatMap replies fun p member => known p.1 (List.mem_map_of_mem member)
    · rw [List.flatMap]
    · rw [List.forall₂_map_left_iff, List.forall₂_map_right_iff, List.forall₂_same]
      exact replies
  | busy => cases idle

theorem replies_recovered_busy : ∃ h s,
    history (serverStep (sim 9 10) npuSim) busySocket
      (Server.start true 9 (text "/s") (Sim.start [104, 105]) []) = .ok (h, s) ∧
    (commandsTaken h).length = 5 ∧
    ∃ replies, readReplies (commandsTaken h).length (socketOutput h) = some replies ∧
      replies.flatten = socketOutput h ∧ List.Forall₂ ReplyTo (commandsTaken h) replies := by
  have talk : Gives (fun a => (commandsTaken a.1).length = 5 ∧
        (∀ command ∈ commandsTaken a.1, command.isIgnored = false) ∧
        a.2.daemon.threads .socket = none)
      (history (serverStep (sim 9 10) npuSim) busySocket
        (Server.start true 9 (text "/s") (Sim.start [104, 105]) [])) := by
    decide +kernel
  obtain ⟨⟨h, s⟩, told, five, known, rests⟩ := gives_iff.mp talk
  refine ⟨h, s, told, five, replies_recovered (sim 9 10) npuSim true 9 (text "/s")
    (Sim.start [104, 105]) [] busySocket told rests known⟩

end MiniV
