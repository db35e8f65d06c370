/-
**A prompt between its header and its terminator.**

The prompt travels unescaped, and `HandleClient` takes the first piece of the stream that starts with
`END` for its end, be it a line of the prompt or the continuation of a line that `fgets` has cut.

* `readCommand_infer`, `readCommand_npuInfer`: the header of a message is read back;
* `readPrompt_message`: so is the prompt, exactly when none of its pieces starts with `END`;
* `prompt_framing`: both messages are read back as they were sent, and the reader is left at what
  follows them, exactly then.
-/

import Mathlib.Data.Nat.Digits.Lemmas
import MiniV.Wire.HandleClient

namespace MiniV

open MiniV.Library

/-! ### Headers -/

theorem cString_of_noNul {s : Bytes} (noNul : 0 ∉ s) : cString s = s := by
  refine List.takeWhile_eq_self_iff.mpr fun b member => decide_eq_true fun zero => ?_
  exact noNul (zero ▸ member)

/-- A character of a number: a digit or a minus sign. -/
def NumberByte (b : UInt8) : Prop := isDigit b = true ∨ b = 45

theorem numberByte_of_mem {z : Int} {b : UInt8} (member : b ∈ decimal z) : NumberByte b := by
  have digits : ∀ n : Nat, ∀ b ∈ decimalNat n, NumberByte b := by
    intro n b inside
    unfold decimalNat at inside
    split at inside
    · rw [List.mem_singleton.mp inside]
      exact Or.inl (isDigit_digitByte (by decide))
    · obtain ⟨d, digit, rfl⟩ := List.mem_map.mp inside
      exact Or.inl (isDigit_digitByte (Nat.digits_lt_base (by decide) (List.mem_reverse.mp digit)))
  unfold decimal at member
  split at member
  · have minus : text "-" = [45] := by decide
    rw [minus, List.singleton_append] at member
    rcases List.mem_cons.mp member with sign | digit
    · exact Or.inr sign
    · exact digits _ b digit
  · exact digits _ b member

theorem NumberByte.ne {b : UInt8} (number : NumberByte b) : b ≠ newline ∧ b ≠ 0 := by
  rcases number with digit | sign
  · constructor
    · rintro rfl
      exact absurd digit (by decide)
    · rintro rfl
      exact absurd digit (by decide)
  · rw [sign]
    decide

theorem length_decimal {z : Int} (low : -2 ^ 31 ≤ z) (high : z < 2 ^ 31) :
    (decimal z).length ≤ 11 := by
  have digits : ∀ n : Nat, n ≤ 2 ^ 31 → (decimalNat n).length ≤ 10 := by
    intro n bound
    unfold decimalNat
    split
    · exact Nat.le_of_ble_eq_true rfl
    · rw [List.length_map, List.length_reverse, Nat.digits_length_le_iff (by decide)]
      exact lt_of_le_of_lt bound (by decide)
  have small := digits z.natAbs (by omega)
  unfold decimal
  split
  · rw [List.length_append]
    have minus : (text "-").length = 1 := by decide
    omega
  · omega

/-- What a command line starts with: a line that is short, with no newline and no NUL. -/
structure IsHeader (s : Bytes) : Prop where
  short : s.length < lineSize - 1
  noNewline : newline ∉ s
  noNul : 0 ∉ s

theorem fgets_header {s : Bytes} (header : IsHeader s) (body : Bytes) :
    fgets lineSize (s ++ [newline] ++ body) = some (s ++ [newline], body) := by
  have some' : s ++ [newline] ++ body ≠ [] := by simp
  rw [fgets, if_neg some', List.append_assoc, List.singleton_append,
    takeLine_line header.short header.noNewline]

theorem cString_header {s : Bytes} (header : IsHeader s) :
    cString (s ++ [newline]) = s ++ [newline] := by
  refine cString_of_noNul fun zero => ?_
  rcases List.mem_append.mp zero with inside | last
  · exact header.noNul inside
  · exact absurd (List.mem_singleton.mp last) (by decide)

/-- A blank in front of a number is skipped. -/
theorem strtol_blank (s : Bytes) : strtol (32 :: s) = strtol s := by
  have blank : isSpace (32 : UInt8) = true := by decide
  rw [strtol, strtol, List.dropWhile_cons_of_pos blank]

theorem endsNumber_cons {b : UInt8} (other : isDigit b = false) (s : Bytes) :
    EndsNumber (b :: s) := by
  intro b' first
  cases first
  exact other

/-- A number as the front ends take it: a 32-bit int. -/
def IsInt (z : Int) : Prop := -2 ^ 31 ≤ z ∧ z < 2 ^ 31

instance (z : Int) : Decidable (IsInt z) := inferInstanceAs (Decidable (_ ∧ _))

/-- The number of a header is read back. -/
theorem atoi_decimal {z : Int} (low : -2 ^ 31 ≤ z) (high : z < 2 ^ 31) :
    atoi (decimal z ++ [newline]) = z := by
  have ends : EndsNumber [newline] := endsNumber_cons (by decide) []
  rw [atoi, strtol_decimal z ends]
  exact toInt_of_range low high

/-- The two numbers of a header are read back. -/
theorem scanTwo_decimal {z z' : Int} (isInt : IsInt z) (isInt' : IsInt z') {s : Bytes}
    (ends : EndsNumber s) : scanTwo (decimal z ++ text " " ++ decimal z' ++ s) = (z, z') := by
  have blank : text " " = [32] := by decide
  have second : strtol (text " " ++ (decimal z' ++ s)) = some (z', s) := by
    rw [blank, List.singleton_append, strtol_blank, strtol_decimal z' ends]
  have first : EndsNumber (text " " ++ (decimal z' ++ s)) := by
    rw [blank]
    exact endsNumber_cons (by decide) _
  rw [List.append_assoc, List.append_assoc]
  simp only [scanTwo, scanInts, strtol_decimal z first, second, toInt_of_range isInt.1 isInt.2,
    toInt_of_range isInt'.1 isInt'.2]
  rfl

/-! ### The prompt -/

/-- The pieces of a prompt on the wire: it is followed by a newline. -/
def promptPieces (prompt : Bytes) : List Bytes := pieces (lineSize - 1) (prompt ++ [newline])

/-- **No piece of the prompt starts with `END`.** -/
def NoEnd (prompt : Bytes) : Prop := ∀ p ∈ promptPieces prompt, ¬ text "END" <+: p

instance (prompt : Bytes) : Decidable (NoEnd prompt) :=
  inferInstanceAs (Decidable (∀ p ∈ promptPieces prompt, ¬ text "END" <+: p))

/-- The end of a message. -/
def endMark : Bytes := text "END" ++ [newline]

theorem lineSize_positive : 0 < lineSize - 1 := by decide

/-- The loop reads pieces until one starts with `END`. -/
theorem readPromptLoop_eq (rounds : Nat) (prompt stream : Bytes) :
    readPromptLoop rounds prompt stream =
      (prompt ++ ((readWithin (startsWith (text "END")) (lineSize - 1) rounds stream).1.map
          cString).flatten,
        (readWithin (startsWith (text "END")) (lineSize - 1) rounds stream).2) := by
  induction rounds generalizing prompt stream with
  | zero => simp [readPromptLoop, readWithin]
  | succ rounds ih =>
    cases stream with
    | nil => simp [readPromptLoop, readWithin, fgets]
    | cons b stream =>
      have line : fgets lineSize (b :: stream) = some (takeLine (lineSize - 1) (b :: stream)) :=
        if_neg (List.cons_ne_nil _ _)
      rw [readPromptLoop, line, readWithin]
      dsimp only
      by_cases stops : startsWith (text "END") (takeLine (lineSize - 1) (b :: stream)).1 = true
      · rw [if_pos stops, if_pos stops, List.map_nil, List.flatten_nil, List.append_nil]
      · rw [if_neg stops, if_neg stops, ih, List.map_cons, List.flatten_cons, List.append_assoc]

theorem readPrompt_eq (stream : Bytes) :
    readPrompt stream =
      (popNewline ((readUntil (startsWith (text "END")) (lineSize - 1) stream).1.map
          cString).flatten,
        (readUntil (startsWith (text "END")) (lineSize - 1) stream).2) := by
  rw [readPrompt, readPromptLoop_eq, List.nil_append, readUntil]

theorem startsWith_of_noNul {p : Bytes} (noNul : 0 ∉ p) :
    startsWith (text "END") p = true ↔ text "END" <+: p := by
  rw [startsWith, cString_of_noNul noNul, decide_eq_true_eq, List.prefix_iff_eq_take]
  exact eq_comm

theorem noNul_of_piece {prompt p : Bytes} (noNul : 0 ∉ prompt) (member : p ∈ promptPieces prompt) :
    0 ∉ p := by
  intro zero
  have inside : (0 : UInt8) ∈ (promptPieces prompt).flatten := List.mem_flatten.mpr ⟨p, member, zero⟩
  rw [promptPieces, flatten_pieces lineSize_positive] at inside
  rcases List.mem_append.mp inside with here | last
  · exact noNul here
  · exact absurd (List.mem_singleton.mp last) (by decide)

/-- The terminator stops the reader, and is all it reads. -/
theorem readUntil_endMark (rest : Bytes) :
    readUntil (startsWith (text "END")) (lineSize - 1) (endMark ++ rest) = ([], rest) := by
  have line : takeLine (lineSize - 1) (endMark ++ rest) = (endMark, rest) := by
    rw [endMark, List.append_assoc, List.singleton_append]
    exact takeLine_line (by decide) (by decide) rest
  have stops : startsWith (text "END") endMark = true := by decide
  have shape : endMark = 69 :: [78, 68, newline] := by decide
  rw [shape, List.cons_append, readUntil_cons lineSize_positive, ← List.cons_append, ← shape, line]
  exact if_pos stops

theorem map_cString {ps : List Bytes} (noNul : ∀ p ∈ ps, 0 ∉ p) : ps.map cString = ps :=
  (List.map_congr_left fun p member => cString_of_noNul (noNul p member)).trans (List.map_id ps)

theorem popNewline_append (prompt : Bytes) : popNewline (prompt ++ [newline]) = prompt := by
  rw [popNewline, List.getLast?_concat, if_pos rfl, List.dropLast_concat]

/-- **A prompt is read back**, and what follows its message is left, exactly when none of its pieces
starts with `END`. -/
theorem readPrompt_message {prompt : Bytes} (noNul : 0 ∉ prompt) (rest : Bytes) :
    readPrompt (prompt ++ [newline] ++ endMark ++ rest) = (prompt, rest) ↔ NoEnd prompt := by
  have whole := wholeLines_append prompt
  rw [List.append_assoc (prompt ++ [newline]), readPrompt_eq]
  constructor
  · intro read p member isEnd
    have stops : startsWith (text "END") p = true :=
      (startsWith_of_noNul (noNul_of_piece noNul member)).mpr isEnd
    obtain ⟨early, left, stopped⟩ :=
      readUntil_stops lineSize_positive whole (endMark ++ rest) ⟨p, member, stops⟩
    rw [stopped] at read
    have length := congrArg List.length (congrArg Prod.snd read)
    have four : endMark.length = 4 := by decide
    simp only [List.length_append] at length
    omega
  · intro noEnd
    have quiet : ∀ p ∈ pieces (lineSize - 1) (prompt ++ [newline]),
        startsWith (text "END") p = false := by
      intro p member
      rw [Bool.eq_false_iff, Ne, startsWith_of_noNul (noNul_of_piece noNul member)]
      exact noEnd p member
    have read := readUntil_append lineSize_positive whole (endMark ++ rest) quiet
    rw [readUntil_endMark, List.append_nil] at read
    have strings : (pieces (lineSize - 1) (prompt ++ [newline])).map cString =
        pieces (lineSize - 1) (prompt ++ [newline]) :=
      map_cString fun p member => noNul_of_piece noNul member
    rw [read, strings, flatten_pieces lineSize_positive, popNewline_append]

/-! ### Messages -/

/-- The header of an `INFER` message. -/
def inferHeader (sessionId maxTokens : Int) : Bytes :=
  text "INFER " ++ decimal sessionId ++ text " " ++ decimal maxTokens

/-- The header of an `NPU_INFER` message. -/
def npuInferHeader (maxTokens : Int) : Bytes := text "NPU_INFER " ++ decimal maxTokens

/-- A word whose characters end no line and no string. -/
theorem plain_of_all {word : Bytes} (plain : (word.all fun b => b ≠ newline ∧ b ≠ 0) = true) :
    ∀ b ∈ word, b ≠ newline ∧ b ≠ 0 :=
  fun b member => of_decide_eq_true (List.all_eq_true.mp plain b member)

theorem isHeader_infer {sessionId maxTokens : Int} (isInt : IsInt sessionId)
    (isInt' : IsInt maxTokens) : IsHeader (inferHeader sessionId maxTokens) := by
  have other : ∀ b ∈ inferHeader sessionId maxTokens, b ≠ newline ∧ b ≠ 0 := by
    have word : ∀ b ∈ text "INFER ", b ≠ newline ∧ b ≠ 0 := plain_of_all (by decide)
    have blank : ∀ b ∈ text " ", b ≠ newline ∧ b ≠ 0 := plain_of_all (by decide)
    intro b member
    simp only [inferHeader, List.mem_append] at member
    rcases member with ((inside | number) | inside) | number
    · exact word b inside
    · exact (numberByte_of_mem number).ne
    · exact blank b inside
    · exact (numberByte_of_mem number).ne
  refine ⟨?_, fun member => (other _ member).1 rfl, fun member => (other _ member).2 rfl⟩
  have first := length_decimal isInt.1 isInt.2
  have second := length_decimal isInt'.1 isInt'.2
  have word : (text "INFER ").length = 6 := by decide
  have blank : (text " ").length = 1 := by decide
  have size : lineSize - 1 = 4095 := rfl
  simp only [inferHeader, List.length_append]
  omega

theorem isHeader_npuInfer {maxTokens : Int} (isInt : IsInt maxTokens) :
    IsHeader (npuInferHeader maxTokens) := by
  have other : ∀ b ∈ npuInferHeader maxTokens, b ≠ newline ∧ b ≠ 0 := by
    have word : ∀ b ∈ text "NPU_INFER ", b ≠ newline ∧ b ≠ 0 := plain_of_all (by decide)
    intro b member
    rcases List.mem_append.mp member with inside | number
    · exact word b inside
    · exact (numberByte_of_mem number).ne
  refine ⟨?_, fun member => (other _ member).1 rfl, fun member => (other _ member).2 rfl⟩
  have first := length_decimal isInt.1 isInt.2
  have word : (text "NPU_INFER ").length = 10 := by decide
  have size : lineSize - 1 = 4095 := rfl
  simp only [npuInferHeader, List.length_append]
  omega

/-- The header of an `INFER` message is read back, and a prompt is read from whatever follows it. -/
theorem readCommand_inferHeader {sessionId maxTokens : Int} (isInt : IsInt sessionId)
    (isInt' : IsInt maxTokens) (body : Bytes) :
    readCommand (inferHeader sessionId maxTokens ++ [newline] ++ body) =
      some (.infer sessionId maxTokens (readPrompt body).1, (readPrompt body).2) := by
  have header := isHeader_infer isInt isInt'
  have numbers : (inferHeader sessionId maxTokens ++ [newline]).drop 6 =
      decimal sessionId ++ text " " ++ decimal maxTokens ++ [newline] := by
    have word : (text "INFER ").length = 6 := by decide
    simp only [inferHeader, List.append_assoc]
    exact List.drop_left' word
  have letters : text "INFER " = [73, 78, 70, 69, 82, 32] := by decide
  have isInfer : text "INFER " <+: inferHeader sessionId maxTokens ++ [newline] := by
    simp only [inferHeader, List.append_assoc]
    exact List.prefix_append _ _
  have others : ∀ word : Bytes, ¬ word.take 1 <+: [73] →
      ¬ word <+: inferHeader sessionId maxTokens ++ [newline] := by
    rintro word differs start
    refine differs ?_
    have first := start.take 1
    rw [inferHeader, letters] at first
    exact first
  rw [readCommand, fgets_header header]
  dsimp only
  rw [cString_header header, if_neg (others _ (by decide)),
    if_neg (others _ (by decide)), if_neg (others _ (by decide)),
    if_neg (others _ (by decide)), if_pos isInfer, numbers,
    scanTwo_decimal isInt isInt' (endsNumber_cons (by decide) [])]

/-- So is the header of an `NPU_INFER` message. -/
theorem readCommand_npuInferHeader {maxTokens : Int} (isInt : IsInt maxTokens) (body : Bytes) :
    readCommand (npuInferHeader maxTokens ++ [newline] ++ body) =
      some (.npuInfer maxTokens (readPrompt body).1, (readPrompt body).2) := by
  have header := isHeader_npuInfer isInt
  have number : (npuInferHeader maxTokens ++ [newline]).drop 10 = decimal maxTokens ++ [newline] := by
    have word : (text "NPU_INFER ").length = 10 := by decide
    simp only [npuInferHeader, List.append_assoc]
    exact List.drop_left' word
  have letters : text "NPU_INFER " = [78, 80, 85, 95, 73, 78, 70, 69, 82, 32] := by decide
  have isInfer : text "NPU_INFER " <+: npuInferHeader maxTokens ++ [newline] := by
    simp only [npuInferHeader, List.append_assoc]
    exact List.prefix_append _ _
  have others : ∀ word : Bytes, ¬ word.take 5 <+: [78, 80, 85, 95, 73] →
      ¬ word <+: npuInferHeader maxTokens ++ [newline] := by
    rintro word differs start
    refine differs ?_
    have five := start.take 5
    rw [npuInferHeader, letters] at five
    exact five
  rw [readCommand, fgets_header header]
  dsimp only
  rw [cString_header header, if_neg (others _ (by decide)), if_neg (others _ (by decide)),
    if_neg (others _ (by decide)), if_neg (others _ (by decide)), if_neg (others _ (by decide)),
    if_neg (others _ (by decide)), if_pos isInfer, number, atoi_decimal isInt.1 isInt.2]

/-- An `INFER` message is read from its header on. -/
theorem readCommand_infer {sessionId maxTokens : Int} (isInt : IsInt sessionId)
    (isInt' : IsInt maxTokens) (prompt rest : Bytes) :
    readCommand (inferMessage sessionId maxTokens prompt ++ rest) =
      some (.infer sessionId maxTokens (readPrompt (prompt ++ [newline] ++ endMark ++ rest)).1,
        (readPrompt (prompt ++ [newline] ++ endMark ++ rest)).2) := by
  rw [← readCommand_inferHeader isInt isInt']
  simp only [inferMessage, inferHeader, endMark, List.append_assoc]

/-- An `NPU_INFER` message is read from its header on. -/
theorem readCommand_npuInfer {maxTokens : Int} (isInt : IsInt maxTokens) (prompt rest : Bytes) :
    readCommand (npuInferMessage maxTokens prompt ++ rest) =
      some (.npuInfer maxTokens (readPrompt (prompt ++ [newline] ++ endMark ++ rest)).1,
        (readPrompt (prompt ++ [newline] ++ endMark ++ rest)).2) := by
  rw [← readCommand_npuInferHeader isInt]
  simp only [npuInferMessage, npuInferHeader, endMark, List.append_assoc]

/-- **Framing.** `HandleClient` reads both messages back as they were sent, and goes on with what
follows them, exactly when no piece of the prompt starts with `END`. -/
theorem prompt_framing (sessionId maxTokens : Int) (isInt : IsInt sessionId)
    (isInt' : IsInt maxTokens) (prompt : Bytes) (noNul : 0 ∉ prompt) (rest : Bytes) :
    (readCommand (inferMessage sessionId maxTokens prompt ++ rest) =
        some (.infer sessionId maxTokens prompt, rest) ↔ NoEnd prompt) ∧
      (readCommand (npuInferMessage maxTokens prompt ++ rest) =
        some (.npuInfer maxTokens prompt, rest) ↔ NoEnd prompt) := by
  rw [readCommand_infer isInt isInt', readCommand_npuInfer isInt',
    ← readPrompt_message noNul rest]
  simp only [Option.some.injEq, Command.infer.injEq, Command.npuInfer.injEq,
    true_and, Prod.ext_iff, and_self]

/-- A prompt of three lines, one of them blank and one that mentions the end in its middle. -/
theorem prompt_framing_lines :
    (readCommand (inferMessage (-3) 100 (text "THE END\n\nBEND") ++ text "HELLO\n") =
        some (.infer (-3) 100 (text "THE END\n\nBEND"), text "HELLO\n") ↔
          NoEnd (text "THE END\n\nBEND")) ∧
      (readCommand (npuInferMessage 100 (text "THE END\n\nBEND") ++ text "HELLO\n") =
        some (.npuInfer 100 (text "THE END\n\nBEND"), text "HELLO\n") ↔
          NoEnd (text "THE END\n\nBEND")) :=
  prompt_framing (-3) 100 (by decide) (by decide) (text "THE END\n\nBEND") (by decide)
    (text "HELLO\n")

/-- A prompt whose first line starts with the terminator: the second one is carried out. -/
theorem prompt_framing_ending :
    readCommand (inferMessage 1 100 (text "ENDING\nKILL_SESSION 7")) ≠
        some (.infer 1 100 (text "ENDING\nKILL_SESSION 7"), []) ∧
      commands (inferMessage 1 100 (text "ENDING\nKILL_SESSION 7")) =
        [.infer 1 100 [], .killSession 7, .ignored (text "END\n")] := by
  decide +kernel

end MiniV
