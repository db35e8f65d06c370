/-
**A client that is gone in the middle of a request.**

`HandleClient` carries out the commands of its client one after another, and the last one too when the
stream ends in the middle of it. So an `INFER` that is cut off is decoded into its session, as far as it
has arrived. Then it is answered: a client that has only ended its own half of the connection reads the
answer, and for one that has closed it the first line that is written raises `SIGPIPE`, which nothing
ignores and nothing handles. It ends the process, and all sessions with it.

* `handleCommandTo`: a command, with its reply written to a client that may be gone;
* `between_commands`: between two commands nothing runs, and the daemon is in a state it can get to;
* `Harmless`, `incomplete_request`: what is left of a message leaves the sessions as they were exactly
  when it names no inference, or one that comes to nothing, and somebody is there to read the reply.
-/

import MiniV.Daemon.ServerCrash
import MiniV.Daemon.Terminal
import MiniV.Engine.Unmoved
import MiniV.Wire.Truncated

namespace MiniV

open MiniV.Library

/-! ### The other end of the connection -/

/-- A client: it stays to the end of its replies (it may have ended its own half, so that its stream is
at its end), or closes the connection after so many more lines of them. -/
inductive Peer
  | stays
  | closes (lines : Nat)
deriving DecidableEq, Repr

/-- It takes so many lines. -/
def Peer.Takes (lines : Nat) : Peer → Prop
  | .stays => True
  | .closes left => lines ≤ left

instance (lines : Nat) : (peer : Peer) → Decidable (peer.Takes lines)
  | .stays => isTrue trivial
  | .closes left => inferInstanceAs (Decidable (lines ≤ left))

/-- What it still takes after them. -/
def Peer.after (lines : Nat) : Peer → Peer
  | .stays => .stays
  | .closes left => .closes (left - lines)

/-- The lines of a reply: each is written by itself. -/
def lineCount (reply : Bytes) : Nat := reply.count newline

/-- The process has ended: a bad pointer, an exception, or `SIGPIPE`. -/
inductive Ended
  | ended
deriving DecidableEq, Repr

section Functions

variable {σ τ : Type} (L : Llama σ) (N : NpuLlama τ)

/-- **A command is carried out and its reply is written** to a client that may be gone: the first line
that it does not take ends the process. -/
def handleCommandTo (command : Command) (connection : Server σ τ × Peer) :
    Except Ended (Bytes × (Server σ τ × Peer)) :=
  let (s, peer) := connection
  match handleCommand L N command s with
  | .error _ => .error .ended
  | .ok (reply, s) =>
    if peer.Takes (lineCount reply) then .ok (reply, (s, peer.after (lineCount reply)))
    else .error .ended

end Functions

variable {σ τ : Type} {L : Llama σ} {N : NpuLlama τ} {s s' : Server σ τ} {peer peer' : Peer}
  {command : Command} {out : Bytes} {nCtx : Nat} {swapDir : Bytes} {ready : Bool} {llama : σ}
  {npuLlama : τ} {actions : List Action}

theorem handleCommandTo_eq_ok : handleCommandTo L N command (s, peer) = .ok (out, (s', peer')) ↔
    handleCommand L N command s = .ok (out, s') ∧ peer.Takes (lineCount out) ∧
      peer' = peer.after (lineCount out) := by
  simp only [handleCommandTo]
  cases carried : handleCommand L N command s with
  | error e => simp
  | ok result =>
    obtain ⟨reply, mid⟩ := result
    dsimp only
    by_cases takes : peer.Takes (lineCount reply)
    · rw [if_pos takes]
      constructor
      · rintro ⟨⟩
        exact ⟨rfl, takes, rfl⟩
      · rintro ⟨⟨⟩, _, rfl⟩
        rfl
    · rw [if_neg takes]
      refine iff_of_false nofun ?_
      rintro ⟨⟨⟩, takes', _⟩
      exact takes takes'

/-! ### Between two commands -/

/-- **Between two commands** nothing runs, and the daemon has got there from its start. -/
structure Between (L : Llama σ) (N : NpuLlama τ) (ready : Bool) (nCtx : Nat) (swapDir : Bytes)
    (llama : σ) (npuLlama : τ) (s : Server σ τ) : Prop where
  idle : ∀ thread, s.daemon.threads thread = none
  reach : ∃ actions,
    run (serverStep L N) actions (Server.start ready nCtx swapDir llama npuLlama) = .ok s

/-- A thread of the HAL is not concerned by what the socket asks for. -/
theorem run_socket_threads {actions : List Action} {reqId : Nat}
    (own : ∀ a ∈ actions, (∃ command, a = .command command) ∨ a = .advance .socket)
    (reach : run (serverStep L N) actions s = .ok s') :
    s'.daemon.threads (.hal reqId) = s.daemon.threads (.hal reqId) := by
  refine run_invariant (I := fun m : Server σ τ => m.daemon.threads (.hal reqId) =
    s.daemon.threads (.hal reqId)) ?_ rfl (along_of_forall own s) reach
  intro s1 action exchange s2 same mine result
  obtain ⟨notice, taken⟩ := serverStep_daemon result
  refine ((step_taken taken).others ?_ ?_).trans same
  · rintro sessionId prompt maxTokens rfl
    rcases mine with ⟨_, other⟩ | other <;> cases other
  · rintro rfl
    rcases mine with ⟨_, other⟩ | other <;> cases other

/-- A command leaves it so. -/
theorem Between.carried (between : Between L N ready nCtx swapDir llama npuLlama s)
    (result : handleCommand L N command s = .ok (out, s')) :
    Between L N ready nCtx swapDir llama npuLlama s' := by
  obtain ⟨actions, own, after⟩ := handleCommand_run result
  obtain ⟨before, reach⟩ := between.reach
  refine ⟨fun thread => ?_, before ++ .command command :: actions, (run_append reach).trans after⟩
  cases thread with
  | socket => exact handleCommand_ends result
  | hal reqId =>
    refine (run_socket_threads (List.forall_mem_cons.mpr ⟨?_, ?_⟩) after).trans (between.idle _)
    · exact Or.inl ⟨command, rfl⟩
    · exact fun a member => Or.inr (own a member)

/-- So do all the commands of a client. -/
theorem between_commands {commands : List Command} {s1 : Server σ τ} {peer1 : Peer}
    (between : Between L N ready nCtx swapDir llama npuLlama s)
    (result : run (handleCommandTo L N) commands (s, peer) = .ok (s1, peer1)) :
    Between L N ready nCtx swapDir llama npuLlama s1 := by
  refine run_invariant' (I := fun c : Server σ τ × Peer =>
    Between L N ready nCtx swapDir llama npuLlama c.1) ?_ between result
  rintro ⟨s1, peer1⟩ command out ⟨s2, peer2⟩ between' result'
  exact between'.carried (handleCommandTo_eq_ok.mp result').1

/-! ### The lines of a reply -/

theorem lineCount_append (first later : Bytes) :
    lineCount (first ++ later) = lineCount first + lineCount later := List.count_append

theorem lineCount_tokenLine (tok : Bytes) : lineCount (tokenLine tok) = 1 := by
  have inside : lineCount (text "TOKEN " ++ base64Encode tok) = 0 :=
    List.count_eq_zero.mpr (noNewline_tokenLine tok)
  rw [tokenLine_eq, lineCount_append, inside]
  rfl

theorem lineCount_texts (texts : List Bytes) : lineCount (texts.flatMap tokenLine) = texts.length := by
  induction texts with
  | nil => rfl
  | cons tok texts ih =>
    rw [List.flatMap_cons, lineCount_append, lineCount_tokenLine, ih, List.length_cons, Nat.add_comm]

/-! ### What is left of a message -/

/-- **What is left of a message does no harm**: it names no inference; or one that comes to nothing, whose
reply of one line is taken; or one of the NPU, which has no sessions, and all that it says is taken. -/
inductive Harmless (L : Llama σ) (N : NpuLlama τ) (t : Bytes) (s : Server σ τ) (peer : Peer) : Prop
  | noCommand (other : ¬ text "INFER " <+: t) (other' : ¬ text "NPU_INFER " <+: t)
  | infer (arrived : text "INFER " <+: t) (takes : peer.Takes 1)
      (nothing : s.daemon.ready = true → ∀ entry, s.daemon.world.mSessions (sessionOf t) = some entry →
        ComesToNothing L (sessionOf t) entry s.daemon.world)
  | npuInfer {maxTokens : Int} {prompt : Bytes}
      (read : readCommand t = some (.npuInfer maxTokens prompt, []))
      (takes : peer.Takes ((npuGenerated N prompt maxTokens s.npu).length + 1))
      (fits : ∀ model, s.npu.mModel = some model → ∀ tok ∈ npuGenerated N prompt maxTokens s.npu,
        0 ≤ (N.tokenToPiece model tok).1)

/-- A command and its reply go well, and the sessions are as before. -/
def Unmoved (L : Llama σ) (N : NpuLlama τ) (command : Command) (s : Server σ τ) (peer : Peer) : Prop :=
  ∃ out s', handleCommand L N command s = .ok (out, s') ∧ peer.Takes (lineCount out) ∧
    s'.daemon.world.toSessionManager = s.daemon.world.toSessionManager

theorem run_one : (∃ c, run (handleCommandTo L N) [command] (s, peer) = .ok c ∧
      c.1.daemon.world.toSessionManager = s.daemon.world.toSessionManager) ↔
    Unmoved L N command s peer := by
  simp only [run_cons_eq_ok, run_nil, Except.ok.injEq]
  constructor
  · rintro ⟨_, ⟨out, ⟨s', peer'⟩, result, rfl⟩, same⟩
    obtain ⟨carried, takes, _⟩ := handleCommandTo_eq_ok.mp result
    exact ⟨out, s', carried, takes, same⟩
  · rintro ⟨out, s', carried, takes, same⟩
    exact ⟨_, ⟨out, _, handleCommandTo_eq_ok.mpr ⟨carried, takes, rfl⟩, rfl⟩, same⟩

/-- While no model is loaded, an inference is turned away. -/
theorem handleCommand_unready {sessionId maxTokens : Int} {prompt : Bytes}
    (free : s.daemon.threads .socket = none) (unready : ¬ s.daemon.ready = true) :
    handleCommand L N (.infer sessionId maxTokens prompt) s =
      .ok (text "ERROR engine not ready\n", s) := by
  have refused : serveCommand L (.infer sessionId maxTokens prompt) s.daemon =
      .ok (.wrote (text "ERROR engine not ready\n"), s.daemon) := if_pos unready
  exact handleCommand_served free rfl refused free

/-- **An inference leaves the sessions** just when it comes to nothing. Its reply is one line then. -/
theorem infer_unmoved_iff {sessionId maxTokens : Int} {prompt : Bytes}
    (between : Between L N ready nCtx swapDir llama npuLlama s) :
    Unmoved L N (.infer sessionId maxTokens prompt) s peer ↔ peer.Takes 1 ∧
      (s.daemon.ready = true → ∀ entry, s.daemon.world.mSessions sessionId = some entry →
        ComesToNothing L sessionId entry s.daemon.world) := by
  obtain ⟨actions, reach⟩ := between.reach
  have reached := reached_of_server reach
  by_cases isReady : s.daemon.ready = true
  · have waits : Waits L nCtx swapDir true s.daemon s.daemon.world :=
      ⟨between.idle, isReady, rfl, reached⟩
    have lift : Lift _ _ (handleCommand L N (.infer sessionId maxTokens prompt) s)
      (infer L sessionId prompt maxTokens none s.daemon.world) := handleCommand_infer waits
    have one : lineCount (inferReply ⟨false, []⟩) = 1 := by decide
    have exactly : (∃ a w', infer L sessionId prompt maxTokens none s.daemon.world = .ok (a, w') ∧
        w'.toSessionManager = s.daemon.world.toSessionManager) ↔ _ := infer_unmoved reached.rep
    rw [imp_iff_right isReady, ← exactly]
    constructor
    · rintro ⟨out, s', carried, takes, same⟩
      rw [carried] at lift
      obtain ⟨⟨a, w'⟩, inferred, wrote, waits', _⟩ := lift.of_ok
      have same' : w'.toSessionManager = s.daemon.world.toSessionManager :=
        (congrArg World.toSessionManager waits'.world).symm.trans same
      obtain ⟨_, rfl⟩ := infer_same reached.rep inferred same'
      obtain rfl : out = inferReply ⟨false, []⟩ := wrote
      exact ⟨one ▸ takes, _, w', inferred, same'⟩
    · rintro ⟨takes, a, w', inferred, same⟩
      obtain ⟨_, rfl⟩ := infer_same reached.rep inferred same
      rw [inferred] at lift
      generalize carried : handleCommand L N (.infer sessionId maxTokens prompt) s = x at lift
      cases lift with
      | @ok result _ both =>
        obtain ⟨wrote, waits', _⟩ := both
        refine ⟨result.1, result.2, carried, ?_, ?_⟩
        · rw [wrote, one]
          exact takes
        · exact (congrArg World.toSessionManager waits'.world).trans same
  · have one : lineCount (text "ERROR engine not ready\n") = 1 := by decide
    rw [Unmoved, handleCommand_unready (between.idle _) isReady]
    constructor
    · rintro ⟨out, s', ⟨⟩, takes, _⟩
      exact ⟨one ▸ takes, fun loaded => absurd loaded isReady⟩
    · rintro ⟨takes, _⟩
      exact ⟨_, s, rfl, one.symm ▸ takes, rfl⟩

/-- **An inference of the NPU** never concerns the sessions; what it can do is to end the process. -/
theorem npuInfer_unmoved_iff {maxTokens : Int} {prompt : Bytes}
    (between : Between L N ready nCtx swapDir llama npuLlama s) :
    Unmoved L N (.npuInfer maxTokens prompt) s peer ↔
      peer.Takes ((npuGenerated N prompt maxTokens s.npu).length + 1) ∧
        ∀ model, s.npu.mModel = some model → ∀ tok ∈ npuGenerated N prompt maxTokens s.npu,
          0 ≤ (N.tokenToPiece model tok).1 := by
  obtain ⟨actions, reach⟩ := between.reach
  have wired := wired_of_server reach
  -- the reply, when there is one
  have replied : ∀ {out : Bytes} {v : NpuWorld τ},
      serveNpu N (.npuInfer maxTokens prompt) s.npu = .ok (out, v) →
        lineCount out = (npuGenerated N prompt maxTokens s.npu).length + 1 →
          (Unmoved L N (.npuInfer maxTokens prompt) s peer ↔
            peer.Takes ((npuGenerated N prompt maxTokens s.npu).length + 1)) := by
    intro out v served many
    rw [Unmoved, handleCommand_npu (between.idle _) rfl served]
    constructor
    · rintro ⟨_, _, ⟨⟩, takes, _⟩
      exact many ▸ takes
    · intro takes
      exact ⟨out, _, rfl, many.symm ▸ takes, rfl⟩
  cases held : s.npu.mModel with
  | none =>
    have silent : npuGenerated N prompt maxTokens s.npu = [] := by
      simp only [npuGenerated, held]
    have unready : ¬ s.npu.isReady = true := by
      rw [NpuLLMEngine.isReady, held]
      exact Bool.false_ne_true
    have served : serveNpu N (.npuInfer maxTokens prompt) s.npu =
        .ok (text "ERROR NPU_NOT_READY\n", s.npu) := if_pos unready
    rw [replied served (by rw [silent]; decide)]
    refine (and_iff_left fun model held' => ?_).symm
    cases held'
  | some model =>
    have isReady : ¬ ¬ s.npu.isReady = true := by
      rw [NpuLLMEngine.isReady, held]
      exact not_not.mpr rfl
    rcases npuInfer_generated (N := N) wired held prompt maxTokens with
      ⟨ok, texts, v, inferred, many, fits⟩ | ⟨throws, tok, generated, long⟩
    · have served : serveNpu N (.npuInfer maxTokens prompt) s.npu = .ok (texts.flatMap tokenLine ++
          (if ok then text "DONE\n" else text "ERROR NPU_INFER_FAILED\n"), v) := by
        rw [serveNpu, if_neg isReady, inferred, ok_bind]
      have last : lineCount (if ok then text "DONE\n" else text "ERROR NPU_INFER_FAILED\n") = 1 := by
        cases ok <;> decide
      rw [replied served (by rw [lineCount_append, lineCount_texts, last, many])]
      refine (and_iff_left ?_).symm
      rintro model' ⟨⟩
      exact fits
    · have fault : serveNpu N (.npuInfer maxTokens prompt) s.npu = .error .lengthError := by
        rw [serveNpu, if_neg isReady, throws, error_bind]
      rw [Unmoved, handleCommand_npuFault (between.idle _) rfl fault]
      refine iff_of_false ?_ fun both => absurd (both.2 model rfl tok generated) (not_le.mpr long)
      rintro ⟨_, _, ⟨⟩, _⟩

/-- **What is read from what is left** leaves the sessions just when it does no harm. -/
theorem cut_unmoved {t : Bytes} (between : Between L N ready nCtx swapDir llama npuLlama s)
    (cut : Truncated t) :
    (∃ c, run (handleCommandTo L N) ((readCommand t).map Prod.fst).toList (s, peer) = .ok c ∧
        c.1.daemon.world.toSessionManager = s.daemon.world.toSessionManager) ↔
      Harmless L N t s peer := by
  have reads := readCommand_cut cut
  generalize outcome : readCommand t = read at reads ⊢
  cases reads with
  | nothing empty =>
    subst empty
    exact iff_of_true ⟨_, rfl, rfl⟩ (.noCommand (by decide) (by decide))
  | infer arrived maxTokens prompt =>
    refine run_one.trans ((infer_unmoved_iff between).trans ⟨fun both => ?_, fun harmless => ?_⟩)
    · exact .infer arrived both.1 both.2
    · cases harmless with
      | noCommand other => exact absurd arrived other
      | infer _ takes nothing => exact ⟨takes, nothing⟩
      | npuInfer read =>
        rw [outcome] at read
        cases read
  | npuInfer other arrived maxTokens prompt =>
    refine run_one.trans ((npuInfer_unmoved_iff between).trans ⟨fun both => ?_, fun harmless => ?_⟩)
    · exact .npuInfer outcome both.1 both.2
    · cases harmless with
      | noCommand _ other' => exact absurd arrived other'
      | infer arrived' => exact absurd arrived' other
      | npuInfer read takes fits =>
        rw [outcome] at read
        cases read
        exact ⟨takes, fits⟩
  | ignored other other' cmd =>
    have still : handleCommand L N (.ignored cmd) s = .ok ([], s) :=
      handleCommand_ignored (between.idle _) cmd
    refine iff_of_true (run_one.mpr ⟨[], s, still, ?_, rfl⟩) (.noCommand other other')
    cases peer with
    | stays => trivial
    | closes left => exact Nat.zero_le left

/-! ### The end of the stream -/

/-- **An incomplete request** leaves the sessions as they were after the complete commands exactly when
what has arrived of it does no harm. -/
theorem incomplete_request {s0 s1 : Server σ τ} {peer0 peer1 : Peer} {messages : List Bytes}
    (reach : run (serverStep L N) actions (Server.start ready nCtx swapDir llama npuLlama) = .ok s0)
    (idle : ∀ thread, s0.daemon.threads thread = none) (complete : ∀ m ∈ messages, IsMessage m)
    {t : Bytes} (cut : Truncated t)
    (before : run (handleCommandTo L N) (commands messages.flatten) (s0, peer0) = .ok (s1, peer1)) :
    (∃ c, run (handleCommandTo L N) (commands (messages.flatten ++ t)) (s0, peer0) = .ok c ∧
        c.1.daemon.world.toSessionManager = s1.daemon.world.toSessionManager) ↔
      Harmless L N t s1 peer1 := by
  have between := between_commands ⟨idle, actions, reach⟩ before
  rw [commands_cut complete cut, run_append before]
  exact cut_unmoved between cut

/-- The daemon with its session engine loaded. -/
def loadedServer : Server Sim (List Bool) := Server.start true 9 (text "/s") (Sim.start [104, 105, 2]) []

/-- The commands of a client that creates a session, and then sends what is left of a request. -/
def cutTalk (t : String) (peer : Peer) : Except Ended (Server Sim (List Bool) × Peer) :=
  run (handleCommandTo (sim 9 10) npuSim) (commands (oneSession.flatten ++ text t)) (loadedServer, peer)

/-- The complete commands alone. -/
def wholeTalk (peer : Peer) : Except Ended (Server Sim (List Bool) × Peer) :=
  run (handleCommandTo (sim 9 10) npuSim) (commands oneSession.flatten) (loadedServer, peer)

/-- What arrives of a request for session 23 names session 2, which is not there, and the client reads
the error; of another request too little arrives for a command, and its client is gone. -/
theorem incomplete_request_named :
    (∃ s1 peer1 c, wholeTalk .stays = .ok (s1, peer1) ∧ cutTalk "INFER 2" .stays = .ok c ∧
      c.1.daemon.world.toSessionManager = s1.daemon.world.toSessionManager) ∧
    ∃ s1 peer1 c, wholeTalk (.closes 1) = .ok (s1, peer1) ∧ cutTalk "NPU_INF" (.closes 1) = .ok c ∧
      c.1.daemon.world.toSessionManager = s1.daemon.world.toSessionManager := by
  have reach : run (serverStep (sim 9 10) npuSim) [] loadedServer = .ok loadedServer := rfl
  have idle : ∀ thread, loadedServer.daemon.threads thread = none := fun _ => rfl
  have cut : Truncated (text "INFER 2") := truncated_iff.mpr ⟨text "3 10\nhow\n",
    Or.inl ⟨23, 10, text "how", by decide, by decide, by decide, by decide +kernel, by decide +kernel⟩⟩
  have npuCut : Truncated (text "NPU_INF") := truncated_iff.mpr ⟨text "ER 10\nhow\n",
    Or.inr ⟨10, text "how", by decide, by decide, by decide +kernel, by decide +kernel⟩⟩
  have named : sessionOf (text "INFER 2") = 2 := by decide +kernel
  constructor
  · have talk : Gives (fun c => c.2 = .stays ∧ c.1.daemon.world.mSessions 2 = none)
        (wholeTalk .stays) := by decide +kernel
    obtain ⟨⟨s1, peer1⟩, before, rfl, absent⟩ := gives_iff.mp talk
    have exactly := incomplete_request reach idle oneSession_complete cut before
    obtain ⟨c, after, same⟩ := exactly.mpr (.infer (by decide) trivial fun _ entry found => by
      rw [named, absent] at found
      cases found)
    exact ⟨s1, _, c, before, after, same⟩
  · have talk : Gives (fun _ => True) (wholeTalk (.closes 1)) := by decide +kernel
    obtain ⟨⟨s1, peer1⟩, before, _⟩ := gives_iff.mp talk
    have exactly := incomplete_request reach idle oneSession_complete npuCut before
    obtain ⟨c, after, same⟩ := exactly.mpr (.noCommand (by decide) (by decide))
    exact ⟨s1, peer1, c, before, after, same⟩

/-- Half of a question to the session. A client that has closed its connection ends the process with it;
for one that has only ended its own half the question is decoded and answered, and both are recorded. -/
theorem incomplete_request_half :
    (∀ m ∈ oneSession, IsMessage m) ∧ Truncated (text "INFER 1 10\nhalf") ∧
      (Gives (fun c => (c.1.daemon.world.mSessions 1).map SessionMeta.tokens = some [])
        (wholeTalk (.closes 1)) ∧
        cutTalk "INFER 1 10\nhalf" (.closes 1) = .error .ended) ∧
      ∃ s1 c, wholeTalk .stays = .ok (s1, .stays) ∧ cutTalk "INFER 1 10\nhalf" .stays = .ok c ∧
        (s1.daemon.world.mSessions 1).map SessionMeta.tokens = some [] ∧
        (c.1.daemon.world.mSessions 1).map SessionMeta.tokens =
          some [104, 97, 108, 102, 104, 105] ∧
        c.1.daemon.world.toSessionManager ≠ s1.daemon.world.toSessionManager := by
  have cut : Truncated (text "INFER 1 10\nhalf") := truncated_iff.mpr ⟨text " a question\n",
    Or.inl ⟨1, 10, text "half a question", by decide, by decide, by decide, by decide +kernel,
      by decide +kernel⟩⟩
  have first : Gives (fun c => c.2 = .stays ∧
      (c.1.daemon.world.mSessions 1).map SessionMeta.tokens = some []) (wholeTalk .stays) := by
    decide +kernel
  have second : Gives (fun c => (c.1.daemon.world.mSessions 1).map SessionMeta.tokens =
      some [104, 97, 108, 102, 104, 105]) (cutTalk "INFER 1 10\nhalf" .stays) := by
    decide +kernel
  obtain ⟨⟨s1, _⟩, before, rfl, empty⟩ := gives_iff.mp first
  obtain ⟨c, after, half⟩ := gives_iff.mp second
  refine ⟨oneSession_complete, cut, ⟨by decide +kernel, eq_error_of_faultOf (by decide +kernel)⟩,
    s1, c, before, after, empty, half, fun same => ?_⟩
  rw [same, empty] at half
  cases half

end MiniV
