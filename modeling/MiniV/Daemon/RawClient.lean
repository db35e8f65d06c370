/-
**A client that sends anything.**

The socket is open to any program. What such a client can make the daemon do is no more than what a user of
the command line tool can: its bytes are commands that the tool would send, and lines that are none, which
leave no trace.

* `raw_client_says_errands`: for any bytes, the messages of the tool that are served in just the same way.
-/

import MiniV.Daemon.Terminal
import MiniV.Wire.Accepted

namespace MiniV

open MiniV.Library

variable {σ τ : Type} {L : Llama σ} {N : NpuLlama τ} {s s' : Server σ τ} {command : Command}
  {out : Bytes}

/-! ### All commands -/

/-- All that is written for commands, and the engines after them. -/
def served (L : Llama σ) (N : NpuLlama τ) (all : List Command) (s : Server σ τ) :
    Except (Fault ⊕ NpuFault) (Bytes × Server σ τ) :=
  (answers (handleCommand L N) all s).map fun a => (a.1.flatten, a.2)

theorem handleClient_eq (stream : Bytes) (s : Server σ τ) :
    handleClient L N stream s = served L N (commands stream) s := by
  rw [handleClient, served]
  cases answers (handleCommand L N) (commands stream) s <;> rfl

theorem served_cons_error {all : List Command} {e : Fault ⊕ NpuFault}
    (fault : handleCommand L N command s = .error e) : served L N (command :: all) s = .error e := by
  rw [served, answers_cons_error fault]
  rfl

theorem served_cons_ok {all : List Command} (done : handleCommand L N command s = .ok (out, s')) :
    served L N (command :: all) s =
      (served L N all s').map fun later => (out ++ later.1, later.2) := by
  rw [served, answers_cons_ok done, served]
  cases answers (handleCommand L N) all s' <;> rfl

/-- **Lines that are no commands** can be left out. -/
theorem served_filter (free : s.daemon.threads .socket = none) (all : List Command) :
    served L N (all.filter fun command => !command.isIgnored) s = served L N all s := by
  induction all generalizing s with
  | nil => rfl
  | cons command all ih =>
    cases ignored : command.isIgnored with
    | true =>
      have done : handleCommand L N command s = .ok ([], s) := by
        cases command with
        | ignored cmd => exact handleCommand_ignored free cmd
        | _ => cases ignored
      rw [List.filter_cons_of_neg (by simp [ignored]), ih free, served_cons_ok done]
      cases served L N all s <;> rfl
    | false =>
      rw [List.filter_cons_of_pos (by simp [ignored])]
      cases done : handleCommand L N command s with
      | error e => rw [served_cons_error done, served_cons_error done]
      | ok result =>
        rw [served_cons_ok done, served_cons_ok done, ih (handleCommand_ends done)]

/-! ### Any client -/

/-- The loads of a stream name a model and backends. -/
def NamesPaths (stream : Bytes) : Prop :=
  ∀ command ∈ commands stream, ∀ call, command.loadCall = some call →
    call.modelPath ≠ [] ∧ call.backendLibDir ≠ []

theorem errand_isSome (named : ∀ call, command.loadCall = some call →
    call.modelPath ≠ [] ∧ call.backendLibDir ≠ []) :
    command.errand.isSome = !command.isIgnored := by
  cases command with
  | npuLoad modelPath backendDir nCtx nThreads =>
    have paths := named _ rfl
    rw [Command.errand, if_neg (not_or.mpr paths)]
    rfl
  | createSession | killSession | setHotLimit | setColdLimit | infer | npuInfer | hello | ignored => rfl

/-- **A client that sends any bytes** without a NUL, whose loads name their paths, is served as the command
line tool is that runs the errands of its stream: it is written the same, leaves the same engines, and
brings the daemon down where and as they do. -/
theorem raw_client_says_errands (L : Llama σ) (N : NpuLlama τ) (s : Server σ τ)
    (free : s.daemon.threads .socket = none) {stream : Bytes} (noNul : 0 ∉ stream)
    (named : NamesPaths stream) : ∃ (errands : List Errand) (messages : List Bytes),
    (∀ e ∈ errands, e.Sendable) ∧
    List.Forall₂ (fun e m => cliRequest e.args = some (m, e.awaits)) errands messages ∧
    handleClient L N messages.flatten s = handleClient L N stream s := by
  obtain ⟨errands, messages, sendable, ask, same⟩ := accepted_is_said noNul
  refine ⟨errands, messages, sendable, ask, ?_⟩
  have kept : ((commands stream).filter fun command => command.errand.isSome) =
      (commands stream).filter fun command => !command.isIgnored :=
    List.filter_congr fun command member => errand_isSome (named command member)
  rw [handleClient_eq, handleClient_eq, same, kept, served_filter free]

/-- Numbers with something behind them, a line that is no command, and a prompt that the client ends in
its own way. -/
def rawStream : Bytes :=
  text "CREATE_SESSION \t+1x\nWHATEVER\nINFER 1 2.5\nab\nENDING\nHELLO?\nNPU_LOAD /m /b"

theorem raw_client_says_errands_odd : ∃ (errands : List Errand) (messages : List Bytes),
    (∀ e ∈ errands, e.Sendable) ∧
    List.Forall₂ (fun e m => cliRequest e.args = some (m, e.awaits)) errands messages ∧
    handleClient (sim 9 10) npuSim messages.flatten terminalStart =
      handleClient (sim 9 10) npuSim rawStream terminalStart ∧
    Gives (fun a => a.1 = text "OK\nTOKEN aA==\nTOKEN aQ==\nDONE\nHELLO from miniv_ai\nOK\n")
      (handleClient (sim 9 10) npuSim rawStream terminalStart) := by
  have read : commands rawStream = [.createSession 1, .ignored (text "WHATEVER\n"),
      .infer 1 2 (text "ab"), .hello, .npuLoad (text "/m") (text "/b") 0 0] := by decide +kernel
  have named : NamesPaths rawStream := by
    rw [NamesPaths, read]
    intro command member call loads
    simp only [List.mem_cons, List.not_mem_nil, or_false] at member
    rcases member with rfl | rfl | rfl | rfl | rfl <;> cases loads
    exact ⟨by decide, by decide⟩
  obtain ⟨errands, messages, sendable, ask, same⟩ :=
    raw_client_says_errands (sim 9 10) npuSim terminalStart rfl (by decide +kernel) named
  exact ⟨errands, messages, sendable, ask, same, by decide +kernel⟩

end MiniV
