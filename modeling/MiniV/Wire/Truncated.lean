/-
**A message that is cut off.**

The loop of `HandleClient` that reads a prompt ends at its `END` line and at the end of the stream, and
nothing after it tells the two apart. So a client that is gone in the middle of an `INFER` leaves a
command all the same: of the numbers that have arrived, and of the part of the prompt that has.

* `truncated_iff`: which bytes these are;
* `commands_cut`: the commands of complete messages, and behind them what is left of the last one;
* `readCommand_cut`: an `INFER` that is cut off behind its first word is an `INFER`.
-/

import MiniV.Wire.Framing

namespace MiniV

open MiniV.Library

/-! ### Messages -/

/-- A complete message: bytes that are read as one command, whatever follows them. -/
def IsMessage (m : Bytes) : Prop := ∃ command, ∀ rest, readCommand (m ++ rest) = some (command, rest)

/-- A line is one, unless a prompt is to follow it. -/
theorem isMessage_line {line : Bytes} (header : IsHeader line)
    (alone : ¬ text "INFER " <+: line ++ [newline]) (alone' : ¬ text "NPU_INFER " <+: line ++ [newline]) :
    IsMessage (line ++ [newline]) := by
  unfold IsMessage
  simp only [readCommand, fgets_header header, cString_header header, if_neg alone, if_neg alone']
  split_ifs
  all_goals exact ⟨_, fun rest => rfl⟩

/-- A line with its prompt is one. -/
theorem isMessage_infer {sessionId maxTokens : Int} (isInt : IsInt sessionId)
    (isInt' : IsInt maxTokens) {prompt : Bytes} (noNul : 0 ∉ prompt) (noEnd : NoEnd prompt) :
    IsMessage (inferMessage sessionId maxTokens prompt) := by
  refine ⟨.infer sessionId maxTokens prompt, fun rest => ?_⟩
  rw [readCommand_infer isInt isInt', (readPrompt_message noNul rest).mpr noEnd]

/-- The header line of an inference. -/
inductive InferHeader : Bytes → Prop
  | infer {sessionId maxTokens : Int} (isInt : IsInt sessionId) (isInt' : IsInt maxTokens) :
      InferHeader (inferHeader sessionId maxTokens)
  | npuInfer {maxTokens : Int} (isInt : IsInt maxTokens) : InferHeader (npuInferHeader maxTokens)

/-- The part of a message before its `END` line. -/
def beforeEnd (header prompt : Bytes) : Bytes := header ++ [newline] ++ (prompt ++ [newline])

theorem inferMessage_eq (sessionId maxTokens : Int) (prompt : Bytes) :
    inferMessage sessionId maxTokens prompt =
      beforeEnd (inferHeader sessionId maxTokens) prompt ++ endMark := by
  simp only [inferMessage, beforeEnd, inferHeader, endMark, List.append_assoc]

theorem npuInferMessage_eq (maxTokens : Int) (prompt : Bytes) :
    npuInferMessage maxTokens prompt = beforeEnd (npuInferHeader maxTokens) prompt ++ endMark := by
  simp only [npuInferMessage, beforeEnd, npuInferHeader, endMark, List.append_assoc]

/-- **A message that is cut off** before its `END` line, the first of its lines that starts like one. -/
def Truncated (t : Bytes) : Prop :=
  ∃ header prompt, InferHeader header ∧ 0 ∉ prompt ∧ NoEnd prompt ∧ t <+: beforeEnd header prompt

/-- **It is the start of a message**: the `END` line is missing, and any part of what stands before it. -/
theorem truncated_iff {t : Bytes} : Truncated t ↔ ∃ rest,
    (∃ sessionId maxTokens prompt, IsInt sessionId ∧ IsInt maxTokens ∧ 0 ∉ prompt ∧ NoEnd prompt ∧
      t ++ rest ++ endMark = inferMessage sessionId maxTokens prompt) ∨
    ∃ maxTokens prompt, IsInt maxTokens ∧ 0 ∉ prompt ∧ NoEnd prompt ∧
      t ++ rest ++ endMark = npuInferMessage maxTokens prompt := by
  simp only [inferMessage_eq, npuInferMessage_eq, List.append_cancel_right_eq]
  constructor
  · rintro ⟨header, prompt, isInfer, noNul, noEnd, rest, whole⟩
    cases isInfer with
    | infer isInt isInt' =>
      exact ⟨rest, Or.inl ⟨_, _, prompt, isInt, isInt', noNul, noEnd, whole⟩⟩
    | npuInfer isInt => exact ⟨rest, Or.inr ⟨_, prompt, isInt, noNul, noEnd, whole⟩⟩
  · rintro ⟨rest, ⟨sessionId, maxTokens, prompt, isInt, isInt', noNul, noEnd, whole⟩ |
      ⟨maxTokens, prompt, isInt, noNul, noEnd, whole⟩⟩
    · exact ⟨_, prompt, .infer isInt isInt', noNul, noEnd, rest, whole⟩
    · exact ⟨_, prompt, .npuInfer isInt, noNul, noEnd, rest, whole⟩

/-- The session that a message names, as far as it has arrived. -/
def sessionOf (t : Bytes) : Int := (scanTwo (t.drop 6)).1

/-- **What is read from a message that is cut off.** -/
inductive CutRead (t : Bytes) : Option (Command × Bytes) → Prop
  | nothing (empty : t = []) : CutRead t none
  | infer (arrived : text "INFER " <+: t) (maxTokens : Int) (prompt : Bytes) :
      CutRead t (some (.infer (sessionOf t) maxTokens prompt, []))
  | npuInfer (other : ¬ text "INFER " <+: t) (arrived : text "NPU_INFER " <+: t) (maxTokens : Int)
      (prompt : Bytes) : CutRead t (some (.npuInfer maxTokens prompt, []))
  | ignored (other : ¬ text "INFER " <+: t) (other' : ¬ text "NPU_INFER " <+: t) (cmd : Bytes) :
      CutRead t (some (.ignored cmd, []))

/-! ### In the header -/

theorem takeLine_nil (room : Nat) : takeLine room [] = ([], []) := by
  cases room <;> rfl

/-- A short line without its newline is all that is read. -/
theorem fgets_open {t : Bytes} (some' : t ≠ []) (short : t.length ≤ lineSize - 1)
    (noNewline : newline ∉ t) : fgets lineSize t = some (t, []) := by
  have line := takeLine_word noNewline (lineSize - 1 - t.length) []
  rw [takeLine_nil, List.append_nil, Nat.add_sub_cancel' short] at line
  rw [fgets, if_neg some', line]

theorem readPrompt_nil : readPrompt [] = ([], []) := rfl

/-- A word that differs in its first bytes does not start a part of a header. -/
theorem not_prefix_of_part {word t header : Bytes} {count : Nat} (part : t <+: header)
    (differs : ¬ word.take count <+: header.take count) : ¬ word <+: t :=
  fun start => differs ((start.trans part).take count)

/-- **A header that is cut off.** -/
theorem readCommand_header {header t : Bytes} (isInfer : InferHeader header) (part : t <+: header)
    (isHeader : IsHeader header) : CutRead t (readCommand t) := by
  by_cases empty : t = []
  · rw [empty]
    exact .nothing rfl
  · have noNul : 0 ∉ t := fun member => isHeader.noNul (part.subset member)
    have noNewline : newline ∉ t := fun member => isHeader.noNewline (part.subset member)
    have line := fgets_open empty (part.length_le.trans isHeader.short.le) noNewline
    rw [readCommand, line]
    dsimp only
    rw [cString_of_noNul noNul, readPrompt_nil]
    cases isInfer with
    | @infer sessionId maxTokens isInt isInt' =>
      have first : (inferHeader sessionId maxTokens).take 1 = [73] := by
        have letters : text "INFER " = [73, 78, 70, 69, 82, 32] := by decide
        rw [inferHeader, letters]
        rfl
      have others : ∀ word : Bytes, ¬ word.take 1 <+: [73] → ¬ word <+: t :=
        fun word differs => not_prefix_of_part part (by rw [first]; exact differs)
      rw [if_neg (others _ (by decide)), if_neg (others _ (by decide)),
        if_neg (others _ (by decide)), if_neg (others _ (by decide))]
      by_cases arrived : text "INFER " <+: t
      · rw [if_pos arrived]
        exact .infer arrived _ _
      · rw [if_neg arrived, if_neg (others _ (by decide)), if_neg (others _ (by decide)),
          if_neg (others _ (by decide))]
        exact .ignored arrived (others _ (by decide)) t
    | @npuInfer maxTokens isInt =>
      have first : (npuInferHeader maxTokens).take 5 = [78, 80, 85, 95, 73] := by
        have letters : text "NPU_INFER " = [78, 80, 85, 95, 73, 78, 70, 69, 82, 32] := by decide
        rw [npuInferHeader, letters]
        rfl
      have others : ∀ word : Bytes, ¬ word.take 5 <+: [78, 80, 85, 95, 73] → ¬ word <+: t :=
        fun word differs => not_prefix_of_part part (by rw [first]; exact differs)
      have other : ¬ text "INFER " <+: t := others _ (by decide)
      rw [if_neg (others _ (by decide)), if_neg (others _ (by decide)),
        if_neg (others _ (by decide)), if_neg (others _ (by decide)), if_neg other,
        if_neg (others _ (by decide))]
      by_cases arrived : text "NPU_INFER " <+: t
      · rw [if_pos arrived]
        exact .npuInfer other arrived _ _
      · rw [if_neg arrived, if_neg (others _ (by decide))]
        exact .ignored other arrived t

/-! ### In the prompt -/

/-- A prompt that is cut off is read to the end of the stream. -/
theorem readPrompt_part {prompt body : Bytes} (noNul : 0 ∉ prompt) (noEnd : NoEnd prompt)
    (part : body <+: prompt ++ [newline]) : (readPrompt body).2 = [] := by
  have quiet : ∀ p ∈ pieces (lineSize - 1) body, startsWith (text "END") p = false := by
    intro p member
    obtain ⟨q, inside, start⟩ := pieces_prefix lineSize_positive part p member
    rw [Bool.eq_false_iff, Ne, startsWith_of_noNul fun zero => noNul_of_piece noNul inside
      (start.subset zero)]
    exact fun isEnd => noEnd q inside (isEnd.trans start)
  rw [readPrompt_eq, readUntil_all lineSize_positive quiet]

theorem InferHeader.isHeader {header : Bytes} (isInfer : InferHeader header) : IsHeader header := by
  cases isInfer with
  | infer isInt isInt' => exact isHeader_infer isInt isInt'
  | npuInfer isInt => exact isHeader_npuInfer isInt

/-- **A prompt that is cut off** is one all the same. -/
theorem readCommand_part {header prompt body : Bytes} (isInfer : InferHeader header)
    (noNul : 0 ∉ prompt) (noEnd : NoEnd prompt) (part : body <+: prompt ++ [newline]) :
    CutRead (header ++ [newline] ++ body) (readCommand (header ++ [newline] ++ body)) := by
  have ends := readPrompt_part noNul noEnd part
  cases isInfer with
  | @infer sessionId maxTokens isInt isInt' =>
    have word : (text "INFER ").length = 6 := by decide
    have numbers : (inferHeader sessionId maxTokens ++ [newline] ++ body).drop 6 =
        decimal sessionId ++ text " " ++ decimal maxTokens ++ (newline :: body) := by
      simp only [inferHeader, List.append_assoc, List.singleton_append]
      exact List.drop_left' word
    have session : sessionOf (inferHeader sessionId maxTokens ++ [newline] ++ body) = sessionId := by
      rw [sessionOf, numbers, scanTwo_decimal isInt isInt' (endsNumber_cons (by decide) _)]
    have arrived : text "INFER " <+: inferHeader sessionId maxTokens ++ [newline] ++ body := by
      simp only [inferHeader, List.append_assoc]
      exact List.prefix_append _ _
    have read := CutRead.infer arrived maxTokens (readPrompt body).1
    rw [readCommand_inferHeader isInt isInt', ends]
    rwa [session] at read
  | @npuInfer maxTokens isInt =>
    have letters : text "NPU_INFER " = [78, 80, 85, 95, 73, 78, 70, 69, 82, 32] := by decide
    have other : ¬ text "INFER " <+: npuInferHeader maxTokens ++ [newline] ++ body := by
      intro start
      have first : ([73] : Bytes) <+: [78] := by
        have letter := start.take 1
        rwa [npuInferHeader, letters] at letter
      exact absurd first (by decide)
    have arrived : text "NPU_INFER " <+: npuInferHeader maxTokens ++ [newline] ++ body := by
      simp only [npuInferHeader, List.append_assoc]
      exact List.prefix_append _ _
    rw [readCommand_npuInferHeader isInt, ends]
    exact .npuInfer other arrived _ _

/-- **A message that is cut off** is read as a command, and nothing is left of it. -/
theorem readCommand_cut {t : Bytes} (cut : Truncated t) : CutRead t (readCommand t) := by
  obtain ⟨header, prompt, isInfer, noNul, noEnd, part⟩ := cut
  have whole := List.prefix_append (header ++ [newline]) (prompt ++ [newline])
  rcases List.prefix_or_prefix_of_prefix part whole with early | ⟨body, rfl⟩
  · rcases List.prefix_concat_iff.mp early with rfl | inside
    · have read : CutRead (header ++ [newline] ++ []) _ :=
        readCommand_part isInfer noNul noEnd List.nil_prefix
      rwa [List.append_nil] at read
    · exact readCommand_header isInfer inside isInfer.isHeader
  · exact readCommand_part isInfer noNul noEnd ((List.prefix_append_right_inj _).mp part)

/-! ### In a stream -/

/-- Complete messages are read one after another, and then what follows them. -/
theorem commandsWithin_messages {messages : List Bytes} (complete : ∀ m ∈ messages, IsMessage m) :
    ∃ early, ∀ t fuel, (messages.flatten ++ t).length ≤ fuel →
      ∃ fuel', t.length ≤ fuel' ∧
        commandsWithin fuel (messages.flatten ++ t) = early ++ commandsWithin fuel' t := by
  induction messages with
  | nil => exact ⟨[], fun t fuel enough => ⟨fuel, enough, rfl⟩⟩
  | cons m messages ih =>
    obtain ⟨command, read⟩ := complete m List.mem_cons_self
    obtain ⟨early, later⟩ := ih fun m' member => complete m' (List.mem_cons_of_mem _ member)
    have some' : m ≠ [] := by
      rintro rfl
      cases read []
    refine ⟨command :: early, fun t fuel enough => ?_⟩
    have positive := List.length_pos_iff.mpr some'
    rw [List.flatten_cons, List.append_assoc] at enough ⊢
    rw [List.length_append] at enough
    cases fuel with
    | zero => omega
    | succ fuel =>
      obtain ⟨fuel', enough', rest⟩ := later t fuel (by omega)
      refine ⟨fuel', enough', ?_⟩
      rw [commandsWithin, read]
      dsimp only
      rw [rest, List.cons_append]

/-- The command that is read from what is left of a message. -/
theorem commandsWithin_cut {t : Bytes} (cut : Truncated t) {fuel : Nat} (enough : t.length ≤ fuel) :
    commandsWithin fuel t = ((readCommand t).map Prod.fst).toList := by
  have ends : ∀ fuel, commandsWithin fuel [] = [] := fun fuel => by cases fuel <;> rfl
  have read := readCommand_cut cut
  cases fuel with
  | zero =>
    rw [List.length_eq_zero_iff.mp (Nat.le_zero.mp enough)]
    rfl
  | succ fuel =>
    rw [commandsWithin]
    generalize readCommand t = outcome at read ⊢
    cases read with
    | nothing => rfl
    | infer | npuInfer | ignored =>
      dsimp only
      rw [ends]
      rfl

/-- **The commands of a stream that ends in the middle of a message**: those of the complete messages
before, and the one that is read from what is left. -/
theorem commands_cut {messages : List Bytes} (complete : ∀ m ∈ messages, IsMessage m) {t : Bytes}
    (cut : Truncated t) :
    commands (messages.flatten ++ t) =
      commands messages.flatten ++ ((readCommand t).map Prod.fst).toList := by
  obtain ⟨early, later⟩ := commandsWithin_messages complete
  obtain ⟨fuel, enough, whole⟩ := later t _ le_rfl
  obtain ⟨fuel', _, before⟩ := later [] _ le_rfl
  have ends : commandsWithin fuel' [] = [] := by cases fuel' <;> rfl
  rw [List.append_nil, ends, List.append_nil] at before
  rw [commands, whole, commands, before, commandsWithin_cut cut enough]

end MiniV
