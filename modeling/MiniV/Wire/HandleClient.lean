/-
**The commands of the socket, as `HandleClient` reads them and the command line tool writes them.**

`readCommand` is one round of `HandleClient`'s loop, up to the call it makes: a line of at most 4095
bytes, told apart by how it starts, with its numbers read by `atoi`, `strtoul` and `sscanf`. `INFER`
and `NPU_INFER` go on to read a prompt, until a piece of the stream that starts with `END`.

`inferMessage`, `npuInferMessage` and the others are what the command line tool sends.
-/

import MiniV.Library.Lines

namespace MiniV

open MiniV.Library

/-! ### Reading -/

/-- What `HandleClient` does in one round. -/
inductive Command
  | createSession (id : Int)
  | killSession (id : Int)
  | setHotLimit (count : UInt64)
  | setColdLimit (bytes : UInt64)
  | infer (sessionId maxTokens : Int) (prompt : Bytes)
  | npuLoad (modelPath backendDir : Bytes) (nCtx nThreads : Int)
  | npuInfer (maxTokens : Int) (prompt : Bytes)
  | hello
  | ignored (cmd : Bytes)
deriving DecidableEq, Repr

/-- `sizeof(line)` and `sizeof(promptLine)`. -/
def lineSize : Nat := 4096

/-- `strncmp(s, word, word.size()) == 0`. -/
def startsWith (word s : Bytes) : Bool := (cString s).take word.length = word

/-- `sscanf` of `%<room>s`: one word after optional blanks, and what follows it. -/
def scanWord (room : Nat) (s : Bytes) : Option (Bytes × Bytes) :=
  match s.dropWhile isSpace with
  | [] => none
  | b :: s =>
    let word := ((b :: s).takeWhile fun b => ¬ isSpace b).take room
    some (word, (b :: s).drop word.length)

/-- The loop that reads a prompt, with the pieces read so far. -/
def readPromptLoop : Nat → Bytes → Bytes → Bytes × Bytes
  | 0, prompt, stream => (prompt, stream)
  | rounds + 1, prompt, stream =>
    match fgets lineSize stream with
    | none => (prompt, stream)
    | some (promptLine, rest) =>
      if startsWith (text "END") promptLine then (prompt, rest)
      else readPromptLoop rounds (prompt ++ cString promptLine) rest

/-- `prompt.pop_back()` when the prompt ends with a newline. -/
def popNewline (prompt : Bytes) : Bytes :=
  if prompt.getLast? = some newline then prompt.dropLast else prompt

/-- A prompt, and what follows it in the stream. -/
def readPrompt (stream : Bytes) : Bytes × Bytes :=
  let read := readPromptLoop stream.length [] stream
  (popNewline read.1, read.2)

/-- `sscanf(cmd + 6, "%d %d", &sessionId, &maxTokens)` over variables that are zero. -/
def scanTwo (s : Bytes) : Int × Int :=
  let values := (scanInts 2 s).1
  (values[0]?.getD 0, values[1]?.getD 0)

/-- `sscanf(cmd + 9, "%511s %511s %d %d", modelPath, backendDir, &nCtx, &nThreads)` over variables
that are zero. -/
def scanNpuLoad (s : Bytes) : Command :=
  match scanWord 511 s with
  | none => .npuLoad [] [] 0 0
  | some (modelPath, s) =>
    match scanWord 511 s with
    | none => .npuLoad modelPath [] 0 0
    | some (backendDir, s) => .npuLoad modelPath backendDir (scanTwo s).1 (scanTwo s).2

/-- **One round of `HandleClient`**: the command and the rest of the stream; nothing at its end. -/
def readCommand (stream : Bytes) : Option (Command × Bytes) :=
  match fgets lineSize stream with
  | none => none
  | some (line, rest) =>
    let cmd := cString line
    if text "CREATE_SESSION " <+: cmd then some (.createSession (atoi (cmd.drop 15)), rest)
    else if text "KILL_SESSION " <+: cmd then some (.killSession (atoi (cmd.drop 13)), rest)
    else if text "SET_HOT_LIMIT " <+: cmd then some (.setHotLimit (strtoul (cmd.drop 14)), rest)
    else if text "SET_COLD_LIMIT " <+: cmd then some (.setColdLimit (strtoul (cmd.drop 15)), rest)
    else if text "INFER " <+: cmd then
      let numbers := scanTwo (cmd.drop 6)
      let read := readPrompt rest
      some (.infer numbers.1 numbers.2 read.1, read.2)
    else if text "NPU_LOAD " <+: cmd then some (scanNpuLoad (cmd.drop 9), rest)
    else if text "NPU_INFER " <+: cmd then
      let maxTokens := atoi (cmd.drop 10)
      let read := readPrompt rest
      some (.npuInfer maxTokens read.1, read.2)
    else if text "HELLO" <+: cmd then some (.hello, rest)
    else some (.ignored cmd, rest)

/-- The commands of a stream, at most so many. -/
def commandsWithin : Nat → Bytes → List Command
  | 0, _ => []
  | fuel + 1, stream =>
    match readCommand stream with
    | none => []
    | some (command, rest) => command :: commandsWithin fuel rest

/-- The commands of a stream: every round reads a byte at least. -/
def commands (stream : Bytes) : List Command := commandsWithin stream.length stream

/-! ### Writing -/

/-- `dprintf(fd, "INFER %d %d\n%s\nEND\n", sessionId, maxTokens, prompt)`. -/
def inferMessage (sessionId maxTokens : Int) (prompt : Bytes) : Bytes :=
  text "INFER " ++ decimal sessionId ++ text " " ++ decimal maxTokens ++ [newline] ++
    (prompt ++ [newline] ++ (text "END" ++ [newline]))

/-- `dprintf(fd, "NPU_INFER %d\n%s\nEND\n", maxTokens, prompt)`. -/
def npuInferMessage (maxTokens : Int) (prompt : Bytes) : Bytes :=
  text "NPU_INFER " ++ decimal maxTokens ++ [newline] ++
    (prompt ++ [newline] ++ (text "END" ++ [newline]))

end MiniV
