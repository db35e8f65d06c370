/-
**What `HandleClient` accepts.**

A client may send any bytes. Whatever it sends, the commands read from them are well formed: their ids and
numbers are 32-bit, their paths are words that fit, and none of the pieces of their prompts would end a
message. So each of them could have been sent by the command line tool.

* `readPrompt_isPrompt`: a prompt that was read can be sent;
* `readCommand_accepts`: so can each command, and what is left is as good as the stream;
* `accepted_is_said`: all commands of a stream, as the messages of the tool.
-/

import MiniV.Wire.CommandLine

namespace MiniV

open MiniV.Library

/-- **The errand of a command**: what a user of the tool would want. A load that names no model or no
backends and a line that is no command are nobody's. -/
def Command.errand : Command → Option Errand
  | .createSession id => some (.createSession id)
  | .killSession id => some (.killSession id)
  | .setHotLimit count => some (.setHotLimit count)
  | .setColdLimit bytes => some (.setColdLimit bytes)
  | .infer sessionId maxTokens prompt => some (.infer sessionId prompt maxTokens)
  | .npuLoad modelPath backendDir nCtx nThreads =>
    if modelPath = [] ∨ backendDir = [] then none
    else some (.npuLoad ⟨modelPath, backendDir, nCtx, nThreads⟩)
  | .npuInfer maxTokens prompt => some (.npuInfer prompt maxTokens)
  | .hello => some .hello
  | .ignored _ => none

/-- **The command can be said** on a command line, if it is anybody's errand. -/
def Command.Said (command : Command) : Prop :=
  ∀ errand, command.errand = some errand → errand.Sendable ∧ errand.command = command

theorem Command.Said.of_errand {command : Command} {errand : Errand}
    (wanted : command.errand = some errand) (sendable : errand.Sendable)
    (same : errand.command = command) : command.Said := by
  intro errand' wanted'
  cases wanted.symm.trans wanted'
  exact ⟨sendable, same⟩

/-! ### Numbers -/

theorem toInt_isInt (z : Int) : IsInt (toInt z) := by
  have low := Int.le_bmod (x := max (-2 ^ 63) (min (2 ^ 63 - 1) z)) (m := 2 ^ 32) (by decide)
  have high := Int.bmod_lt (x := max (-2 ^ 63) (min (2 ^ 63 - 1) z)) (m := 2 ^ 32) (by decide)
  rw [IsInt, toInt]
  constructor
  · exact le_trans (by decide) low
  · exact lt_of_lt_of_le high (by decide)

theorem atoi_isInt (s : Bytes) : IsInt (atoi s) := by
  rw [atoi]
  split
  · decide
  · exact toInt_isInt _

theorem scanInts_isInt (count : Nat) (s : Bytes) : ∀ z ∈ (scanInts count s).1, IsInt z := by
  induction count generalizing s with
  | zero => exact List.forall_mem_nil _
  | succ count ih =>
    rw [scanInts]
    split
    · exact List.forall_mem_nil _
    · exact List.forall_mem_cons.mpr ⟨toInt_isInt _, ih _⟩

theorem scanTwo_isInt (s : Bytes) : IsInt (scanTwo s).1 ∧ IsInt (scanTwo s).2 := by
  have each := scanInts_isInt 2 s
  have read : ∀ i : Nat, IsInt ((scanInts 2 s).1[i]?.getD 0) := by
    intro i
    cases here : (scanInts 2 s).1[i]? with
    | none => decide
    | some z => exact each z (List.mem_of_getElem? here)
  exact ⟨read 0, read 1⟩

/-! ### Prompts -/

/-- A prompt that is cut off a whole line ends as it did. -/
theorem noEnd_popNewline {ps : List Bytes} (cut : pieces (lineSize - 1) ps.flatten = ps)
    (noEnd : ∀ p ∈ ps, ¬ text "END" <+: p) : NoEnd (popNewline ps.flatten) := by
  intro p member
  rw [promptPieces, popNewline] at member
  split at member
  · rename_i ends
    have whole : ps.flatten.dropLast ++ [newline] = ps.flatten := by
      obtain ⟨before, same⟩ := List.getLast?_eq_some_iff.mp ends
      rw [same, List.dropLast_concat]
    rw [whole, cut] at member
    exact noEnd p member
  · have longer := pieces_concat lineSize_positive ps.flatten newline p member
    rcases longer with before | rfl | ⟨q, inside, rfl⟩
    · rw [cut] at before
      exact noEnd p before
    · decide
    · rw [cut] at inside
      rw [List.prefix_concat_iff]
      rintro (same | start)
      · have last := congrArg List.getLast? same
        rw [List.getLast?_concat] at last
        revert last
        decide
      · exact noEnd q inside start

/-- Where there is no NUL, a reader that stops at `END` has read pieces without one. -/
theorem noNul_readUntil {stream : Bytes} (noNul : 0 ∉ stream) :
    (∀ p ∈ (readUntil (startsWith (text "END")) (lineSize - 1) stream).1, 0 ∉ p) ∧
      0 ∉ (readUntil (startsWith (text "END")) (lineSize - 1) stream).2 := by
  obtain ⟨last, split⟩ : ∃ last,
      (readUntil (startsWith (text "END")) (lineSize - 1) stream).1.flatten ++ last ++
        (readUntil (startsWith (text "END")) (lineSize - 1) stream).2 = stream :=
    readUntil_split lineSize_positive stream
  rw [← split] at noNul
  simp only [List.mem_append, not_or] at noNul
  exact ⟨fun p member zero => noNul.1.1 (List.mem_flatten.mpr ⟨p, member, zero⟩), noNul.2⟩

/-- **A prompt that was read** can be sent. -/
theorem readPrompt_isPrompt {stream : Bytes} (noNul : 0 ∉ stream) :
    Errand.IsPrompt (readPrompt stream).1 ∧ 0 ∉ (readPrompt stream).2 := by
  obtain ⟨plain, later⟩ := noNul_readUntil noNul
  rw [readPrompt_eq, map_cString plain]
  refine ⟨⟨fun zero => ?_, noEnd_popNewline (pieces_readUntil lineSize_positive stream) ?_⟩, later⟩
  · have inside : 0 ∈ (readUntil (startsWith (text "END")) (lineSize - 1) stream).1.flatten := by
      unfold popNewline at zero
      split at zero
      · exact List.mem_of_mem_dropLast zero
      · exact zero
    obtain ⟨p, member, here⟩ := List.mem_flatten.mp inside
    exact plain p member here
  · intro p member start
    have quiet := readUntil_quiet lineSize_positive stream p member
    rw [(startsWith_of_noNul (plain p member)).mpr start] at quiet
    cases quiet

/-! ### Paths -/

/-- The bytes of a word, and of what follows it, are there. -/
theorem scanWord_subset {room : Nat} {s word rest : Bytes} (read : scanWord room s = some (word, rest)) :
    word ⊆ s ∧ rest ⊆ s := by
  unfold scanWord at read
  split at read
  · cases read
  · rename_i b tail skipped
    have inside : b :: tail ⊆ s := skipped ▸ (List.dropWhile_suffix isSpace).subset
    cases read
    constructor
    · exact fun c member => inside ((List.takeWhile_prefix _).subset (List.mem_of_mem_take member))
    · exact fun c member => inside (List.mem_of_mem_drop member)

/-- **A word that is read** can be sent, if there is one. -/
theorem scanWord_isField {s word rest : Bytes} (noNul : 0 ∉ s) (some' : word ≠ [])
    (read : scanWord 511 s = some (word, rest)) : Errand.IsField word := by
  have isWord := scanWord_word read
  refine ⟨⟨some', fun line => ?_, fun zero => noNul ((scanWord_subset read).1 zero)⟩, isWord⟩
  have noBlank := isWord.noBlank newline line
  revert noBlank
  decide

/-- A load that is read. -/
theorem scanNpuLoad_said {s : Bytes} (noNul : 0 ∉ s) : (scanNpuLoad s).Said := by
  intro errand wanted
  unfold scanNpuLoad at wanted ⊢
  cases first : scanWord 511 s with
  | none =>
    rw [first] at wanted
    cases wanted
  | some read =>
    obtain ⟨modelPath, s'⟩ := read
    rw [first] at wanted
    dsimp only at wanted ⊢
    cases second : scanWord 511 s' with
    | none =>
      rw [second] at wanted
      dsimp only [Command.errand] at wanted
      rw [if_pos (Or.inr rfl)] at wanted
      cases wanted
    | some read' =>
      obtain ⟨backendDir, rest⟩ := read'
      rw [second] at wanted
      dsimp only [Command.errand] at wanted ⊢
      split at wanted
      · cases wanted
      · rename_i named
        rw [not_or] at named
        cases wanted
        have later : 0 ∉ s' := fun zero => noNul ((scanWord_subset first).2 zero)
        exact ⟨⟨scanWord_isField noNul named.1 first, scanWord_isField later named.2 second,
          scanTwo_isInt rest⟩, rfl⟩

/-! ### Commands -/

/-- **Every command that is read** from a stream without a NUL can be said, and there is none in what is
left. -/
theorem readCommand_accepts {stream rest : Bytes} {command : Command} (noNul : 0 ∉ stream)
    (read : readCommand stream = some (command, rest)) : command.Said ∧ 0 ∉ rest := by
  unfold readCommand at read
  by_cases empty : stream = []
  · rw [fgets, if_pos empty] at read
    cases read
  · rw [fgets, if_neg empty] at read
    have split := takeLine_split (lineSize - 1) stream
    have both := noNul
    rw [← split, List.mem_append, not_or] at both
    obtain ⟨inLine, later⟩ := both
    have dropped : ∀ n, 0 ∉ (cString (takeLine (lineSize - 1) stream).1).drop n := by
      intro n zero
      rw [cString_of_noNul inLine] at zero
      exact inLine (List.mem_of_mem_drop zero)
    dsimp only at read
    have prompt := readPrompt_isPrompt later
    split_ifs at read <;> cases read
    · exact ⟨.of_errand rfl (atoi_isInt _) rfl, later⟩
    · exact ⟨.of_errand rfl (atoi_isInt _) rfl, later⟩
    · exact ⟨.of_errand rfl trivial rfl, later⟩
    · exact ⟨.of_errand rfl trivial rfl, later⟩
    · exact ⟨.of_errand rfl ⟨(scanTwo_isInt _).1, (scanTwo_isInt _).2, prompt.1⟩ rfl, prompt.2⟩
    · exact ⟨scanNpuLoad_said (dropped 9), later⟩
    · exact ⟨.of_errand rfl ⟨atoi_isInt _, prompt.1⟩ rfl, prompt.2⟩
    · exact ⟨.of_errand rfl trivial rfl, later⟩
    · exact ⟨fun errand wanted => (by cases wanted), later⟩

theorem commandsWithin_accepts {fuel : Nat} {stream : Bytes} (noNul : 0 ∉ stream) :
    ∀ command ∈ commandsWithin fuel stream, command.Said := by
  induction fuel generalizing stream with
  | zero => exact List.forall_mem_nil _
  | succ fuel ih =>
    rw [commandsWithin]
    cases read : readCommand stream with
    | none => exact List.forall_mem_nil _
    | some result =>
      obtain ⟨said, later⟩ := readCommand_accepts noNul read
      exact List.forall_mem_cons.mpr ⟨said, ih later⟩

/-- **What is accepted can be said**: the messages that the tool makes of the errands of a stream are read
as just the commands of the stream that are somebody's errand. -/
theorem accepted_is_said {stream : Bytes} (noNul : 0 ∉ stream) :
    ∃ (errands : List Errand) (messages : List Bytes),
    (∀ e ∈ errands, e.Sendable) ∧
    List.Forall₂ (fun e m => cliRequest e.args = some (m, e.awaits)) errands messages ∧
    commands messages.flatten = (commands stream).filter fun command => command.errand.isSome := by
  have said : ∀ command ∈ commands stream, command.Said := commandsWithin_accepts noNul
  have each : ∃ (errands : List Errand) (pairs : List (Bytes × Command)),
      (∀ e ∈ errands, e.Sendable) ∧
      List.Forall₂ (fun e p => cliRequest e.args = some (p.1, e.awaits)) errands pairs ∧
      (∀ p ∈ pairs, ∀ rest, readCommand (p.1 ++ rest) = some (p.2, rest)) ∧
      pairs.map Prod.snd = (commands stream).filter fun command => command.errand.isSome := by
    generalize commands stream = all at said
    induction all with
    | nil => exact ⟨[], [], List.forall_mem_nil _, .nil, List.forall_mem_nil _, rfl⟩
    | cons command later ih =>
      obtain ⟨errands, pairs, sendable, ask, reads, same⟩ :=
        ih fun c member => said c (List.mem_cons_of_mem _ member)
      cases wanted : command.errand with
      | none =>
        rw [List.filter_cons_of_neg (by simp [wanted])]
        exact ⟨errands, pairs, sendable, ask, reads, same⟩
      | some errand =>
        obtain ⟨first, isCommand⟩ := said command List.mem_cons_self errand wanted
        obtain ⟨message, asks, read⟩ := errand_is_read first
        rw [List.filter_cons_of_pos (by simp [wanted])]
        refine ⟨errand :: errands, (message, command) :: pairs,
          List.forall_mem_cons.mpr ⟨first, sendable⟩, .cons asks ask,
          List.forall_mem_cons.mpr ⟨fun rest => ?_, reads⟩, ?_⟩
        · rw [read, isCommand]
        · rw [List.map_cons, same]
  obtain ⟨errands, pairs, sendable, ask, reads, same⟩ := each
  refine ⟨errands, pairs.map Prod.fst, sendable, List.forall₂_map_right_iff.mpr ask, ?_⟩
  rw [commands, ← List.flatMap_def, commandsWithin_read reads le_rfl, same]

end MiniV
