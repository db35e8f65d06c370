/-
**The arguments of `NPU_LOAD` on their way to the engine.**

The command line tool puts the four arguments on a line, one blank between them and nothing around
them. `HandleClient` takes words of at most 511 bytes from a piece of the line of at most 4095, and
does not look at how many of them there were.

* `scanWord_word`: a word that is read has no blank and fits its field;
* `scanNpuLoad_line`: two such words and two numbers are read back;
* `npu_load_arguments`: the engine gets the arguments that were sent, or the command is refused, and
  the line is used up, exactly when both paths are such words.
-/

import MiniV.Npu.Engine
import MiniV.Wire.Framing

namespace MiniV

open MiniV.Library

/-! ### The line -/

/-- The arguments of a load, as the command line tool puts them next to each other. -/
def npuLoadFields (call : LoadCall) : Bytes :=
  call.modelPath ++ text " " ++ (call.backendLibDir ++ text " " ++
    (decimal call.nCtx ++ text " " ++ decimal call.nThreads))

/-- `"NPU_LOAD " + modelPath + " " + backendDir + " " + nCtx + " " + nThreads + "\n"`. -/
def npuLoadMessage (call : LoadCall) : Bytes :=
  text "NPU_LOAD " ++ (npuLoadFields call ++ [newline])

/-- A path as an argument of the command line tool: it is not empty, and has no newline and no NUL. -/
structure IsPath (path : Bytes) : Prop where
  some' : path ≠ []
  noNewline : newline ∉ path
  noNul : 0 ∉ path

/-- A word that fits a field of `room` bytes. -/
structure IsWord (room : Nat) (path : Bytes) : Prop where
  noBlank : ∀ b ∈ path, isSpace b = false
  short : path.length ≤ room

instance (path : Bytes) : Decidable (IsPath path) :=
  decidable_of_iff (path ≠ [] ∧ newline ∉ path ∧ 0 ∉ path)
    ⟨fun ⟨some', line, nul⟩ => ⟨some', line, nul⟩, fun isPath => ⟨isPath.1, isPath.2, isPath.3⟩⟩

instance (room : Nat) (path : Bytes) : Decidable (IsWord room path) :=
  decidable_of_iff ((path.all fun b => !isSpace b) = true ∧ path.length ≤ room)
    ⟨fun ⟨blank, short⟩ => ⟨by simpa using blank, short⟩,
      fun isWord => ⟨by simpa using isWord.noBlank, isWord.short⟩⟩

section Property

variable {σ : Type} (L : NpuLlama σ)

/-- The command is answered with an error and loads nothing. -/
def Refuses (w : NpuWorld σ) (command : Command) : Prop :=
  command.loadCall = none ∧ ∃ message w', serveNpu L command w = .ok (text "ERROR" ++ message, w')

/-- **The arguments of a load survive the wire**: what is read from the stream is a load with just
these arguments, or a command that is refused, and the reader is left at `rest`. -/
def Survives (call : LoadCall) (w : NpuWorld σ) (stream rest : Bytes) : Prop :=
  ∃ command, readCommand stream = some (command, rest) ∧
    (command.loadCall = some call ∨ Refuses L w command)

end Property

/-! ### Words -/

/-- **A word that is read** has no blank and fits its field. -/
theorem scanWord_word {room : Nat} {s word rest : Bytes}
    (read : scanWord room s = some (word, rest)) : IsWord room word := by
  unfold scanWord at read
  split at read
  · cases read
  · cases read
    refine ⟨fun b member => ?_, List.length_take_le _ _⟩
    have inside := List.mem_takeWhile_imp (List.mem_of_mem_take member)
    simpa using inside

/-- **A word in front of a blank** is read back, blanks before it or not. -/
theorem scanWord_append {room : Nat} {path : Bytes} (some' : path ≠ []) (isWord : IsWord room path)
    (s : Bytes) :
    scanWord room (path ++ 32 :: s) = some (path, 32 :: s) ∧
      scanWord room (32 :: (path ++ 32 :: s)) = some (path, 32 :: s) := by
  have blank : isSpace 32 = true := by decide
  obtain ⟨b, tail, rfl⟩ := List.exists_cons_of_ne_nil some'
  have first := isWord.noBlank b List.mem_cons_self
  have whole : ((b :: tail) ++ 32 :: s).takeWhile (fun b => ¬ isSpace b) = b :: tail := by
    rw [List.takeWhile_append_of_pos (fun c member => by simp [isWord.noBlank c member]),
      List.takeWhile_cons_of_neg (by simp [blank]), List.append_nil]
  have started : ((b :: tail) ++ 32 :: s).dropWhile isSpace = b :: (tail ++ 32 :: s) :=
    List.dropWhile_cons_of_neg (by simp [first])
  have read : scanWord room ((b :: tail) ++ 32 :: s) = some (b :: tail, 32 :: s) := by
    unfold scanWord
    rw [started]
    dsimp only
    rw [List.cons_append] at whole
    rw [whole, List.take_of_length_le isWord.short]
    simp
  refine ⟨read, ?_⟩
  unfold scanWord at read ⊢
  rw [List.dropWhile_cons_of_pos blank]
  exact read

/-- A blank in front of the numbers is skipped. -/
theorem scanTwo_blank (s : Bytes) : scanTwo (32 :: s) = scanTwo s := by
  unfold scanTwo scanInts
  rw [strtol_blank]
  cases strtol s <;> rfl

/-- **Two words and two numbers** are read back. -/
theorem scanNpuLoad_line {call : LoadCall} (isPath : IsPath call.modelPath)
    (isPath' : IsPath call.backendLibDir) (isWord : IsWord 511 call.modelPath)
    (isWord' : IsWord 511 call.backendLibDir) (isInt : IsInt call.nCtx)
    (isInt' : IsInt call.nThreads) :
    (scanNpuLoad (npuLoadFields call ++ [newline])).loadCall = some call := by
  have blank : text " " = [32] := by decide
  have numbers := scanTwo_decimal isInt isInt' (s := [newline]) (endsNumber_cons (by decide) [])
  rw [blank] at numbers
  rw [npuLoadFields, blank]
  simp only [List.append_assoc, List.cons_append, List.nil_append] at numbers ⊢
  rw [scanNpuLoad, (scanWord_append isPath.some' isWord _).1]
  dsimp only
  rw [(scanWord_append isPath'.some' isWord' _).2]
  dsimp only
  rw [scanTwo_blank, numbers]
  rfl

/-! ### The command -/

/-- What the reader's buffer has left behind the word. -/
def fieldsRoom : Nat := lineSize - 1 - (text "NPU_LOAD ").length

/-- **What starts with `NPU_LOAD` is a load** of whatever its piece of the line holds. -/
theorem readCommand_npuLoad (s : Bytes) : readCommand (text "NPU_LOAD " ++ s) =
    some (scanNpuLoad (cString (takeLine fieldsRoom s).1), (takeLine fieldsRoom s).2) := by
  have letters : text "NPU_LOAD " = [78, 80, 85, 95, 76, 79, 65, 68, 32] := by decide
  have word : (text "NPU_LOAD ").length = 9 := by decide
  have some' : text "NPU_LOAD " ++ s ≠ [] := by simp [letters]
  have plain : newline ∉ text "NPU_LOAD " := by decide
  have line := takeLine_word plain fieldsRoom s
  have size : (text "NPU_LOAD ").length + fieldsRoom = lineSize - 1 := by decide
  have cmd : ∀ l, cString (text "NPU_LOAD " ++ l) = text "NPU_LOAD " ++ cString l :=
    fun l => List.takeWhile_append_of_pos (by decide +kernel)
  have others : ∀ l word : Bytes, ¬ word.take 1 <+: [78] → ¬ word <+: text "NPU_LOAD " ++ l := by
    intro l word differs start
    refine differs ?_
    have first := start.take 1
    rw [letters] at first
    exact first
  rw [size] at line
  rw [readCommand, fgets, if_neg some', line]
  dsimp only
  rw [cmd, if_neg (others _ _ (by decide)), if_neg (others _ _ (by decide)),
    if_neg (others _ _ (by decide)), if_neg (others _ _ (by decide)),
    if_neg (others _ _ (by decide)), if_pos (List.prefix_append _ _), List.drop_left' word]

/-- A load gets words: what is not read is empty. -/
theorem scanNpuLoad_words (s : Bytes) : ∃ call, (scanNpuLoad s).loadCall = some call ∧
    IsWord 511 call.modelPath ∧ IsWord 511 call.backendLibDir := by
  have nothing : IsWord 511 [] := by decide +kernel
  unfold scanNpuLoad
  cases first : scanWord 511 s with
  | none => exact ⟨_, rfl, nothing, nothing⟩
  | some read =>
    obtain ⟨modelPath, s'⟩ := read
    dsimp only
    cases second : scanWord 511 s' with
    | none => exact ⟨_, rfl, scanWord_word first, nothing⟩
    | some read' => exact ⟨_, rfl, scanWord_word first, scanWord_word second⟩

/-- The line fits the buffer of the reader when its paths fit their fields. -/
theorem length_npuLoadFields {call : LoadCall} (isWord : IsWord 511 call.modelPath)
    (isWord' : IsWord 511 call.backendLibDir) (isInt : IsInt call.nCtx)
    (isInt' : IsInt call.nThreads) : (npuLoadFields call).length < fieldsRoom := by
  have first := length_decimal isInt.1 isInt.2
  have second := length_decimal isInt'.1 isInt'.2
  have blank : (text " ").length = 1 := by decide
  have size : fieldsRoom = 4086 := by decide
  have model := isWord.short
  have backend := isWord'.short
  simp only [npuLoadFields, List.length_append]
  omega

theorem npuLoadFields_plain {call : LoadCall} (isPath : IsPath call.modelPath)
    (isPath' : IsPath call.backendLibDir) : ∀ b ∈ npuLoadFields call, b ≠ newline ∧ b ≠ 0 := by
  have blank : ∀ b ∈ text " ", b ≠ newline ∧ b ≠ 0 := plain_of_all (by decide)
  have path : ∀ {path : Bytes}, IsPath path → ∀ b ∈ path, b ≠ newline ∧ b ≠ 0 :=
    fun isPath b member => ⟨fun line => isPath.noNewline (line ▸ member),
      fun nul => isPath.noNul (nul ▸ member)⟩
  intro b member
  simp only [npuLoadFields, List.mem_append] at member
  rcases member with (inside | inside) | (inside | inside) | (number | inside) | number
  · exact path isPath b inside
  · exact blank b inside
  · exact path isPath' b inside
  · exact blank b inside
  · exact (numberByte_of_mem number).ne
  · exact blank b inside
  · exact (numberByte_of_mem number).ne

/-- **The arguments of `NPU_LOAD` survive the wire** exactly when neither path has a blank and neither
is longer than 511 bytes: whatever follows on the stream, and whatever state the engine is in. Any
other pair of paths is loaded as something else. -/
theorem npu_load_arguments {σ : Type} (L : NpuLlama σ) (w : NpuWorld σ) (call : LoadCall)
    (isPath : IsPath call.modelPath) (isPath' : IsPath call.backendLibDir) (isInt : IsInt call.nCtx)
    (isInt' : IsInt call.nThreads) (rest : Bytes) :
    Survives L call w (npuLoadMessage call ++ rest) rest ↔
      IsWord 511 call.modelPath ∧ IsWord 511 call.backendLibDir := by
  unfold Survives
  rw [npuLoadMessage, List.append_assoc, readCommand_npuLoad]
  constructor
  · rintro ⟨command, read, outcome⟩
    rw [Option.some.injEq, Prod.mk.injEq] at read
    obtain ⟨rfl, _⟩ := read
    obtain ⟨call', loads, isWord, isWord'⟩ := scanNpuLoad_words
      (cString (takeLine fieldsRoom (npuLoadFields call ++ [newline] ++ rest)).1)
    rcases outcome with same | ⟨none', _⟩
    · obtain rfl : call' = call := Option.some.inj (loads.symm.trans same)
      exact ⟨isWord, isWord'⟩
    · rw [loads] at none'
      cases none'
  · rintro ⟨isWord, isWord'⟩
    have plain := npuLoadFields_plain isPath isPath'
    have line : takeLine fieldsRoom (npuLoadFields call ++ [newline] ++ rest) =
        (npuLoadFields call ++ [newline], rest) := by
      rw [List.append_assoc, List.singleton_append]
      exact takeLine_line (length_npuLoadFields isWord isWord' isInt isInt')
        (fun member => (plain _ member).1 rfl) rest
    have noNul : 0 ∉ npuLoadFields call ++ [newline] := by
      rw [List.mem_append, List.mem_singleton, not_or]
      exact ⟨fun member => (plain _ member).2 rfl, by decide⟩
    rw [line, cString_of_noNul noNul]
    exact ⟨_, rfl, Or.inl (scanNpuLoad_line isPath isPath' isWord isWord' isInt isInt')⟩

/-- The line of a load, and a command behind it. -/
theorem npu_load_arguments_usual :
    Survives npuSim ⟨text "/data/model.gguf", text "/vendor/lib64", 2048, -1⟩ (NpuWorld.start [])
      (npuLoadMessage ⟨text "/data/model.gguf", text "/vendor/lib64", 2048, -1⟩ ++ text "HELLO\n")
      (text "HELLO\n") :=
  (npu_load_arguments npuSim (NpuWorld.start [])
    ⟨text "/data/model.gguf", text "/vendor/lib64", 2048, -1⟩ (by decide +kernel) (by decide +kernel)
    (by decide) (by decide) (text "HELLO\n")).mpr (by decide +kernel)

/-- A path with a blank is cut there, and the rest of it is taken for the other arguments. A path too
long for the line ends it, and what is left of it is carried out. -/
theorem npu_load_arguments_shifted :
    (¬ Survives npuSim ⟨text "/data/my model", text "/lib", 2048, 4⟩ (NpuWorld.start [])
        (npuLoadMessage ⟨text "/data/my model", text "/lib", 2048, 4⟩) [] ∧
      commands (npuLoadMessage ⟨text "/data/my model", text "/lib", 2048, 4⟩) =
        [.npuLoad (text "/data/my") (text "model") 0 0]) ∧
      commands (npuLoadMessage
          ⟨List.replicate 4086 97 ++ text "KILL_SESSION 7", text "/lib", 2048, 4⟩) =
        [.npuLoad (List.replicate 511 97) (List.replicate 511 97) 0 0, .killSession 7] := by
  refine ⟨⟨?_, by decide +kernel⟩, by decide +kernel⟩
  rintro ⟨command, read, outcome⟩
  have shifted : readCommand (npuLoadMessage ⟨text "/data/my model", text "/lib", 2048, 4⟩) =
      some (.npuLoad (text "/data/my") (text "model") 0 0, []) := by decide +kernel
  rw [shifted, Option.some.injEq, Prod.mk.injEq] at read
  obtain ⟨rfl, _⟩ := read
  rcases outcome with same | ⟨none', _⟩
  · revert same
    decide
  · cases none'

end MiniV
