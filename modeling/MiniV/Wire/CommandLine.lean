/-
**What the command line tool sends.**

`ai_daemon_cli` makes one message of its arguments: the numbers of an inference go through `atoi`, the
other arguments onto the line as they are. `cliRequest` is that part of its `main`, with how it goes on
to read the answer.

* `readCommand_word`: a line of one word and one argument is read back;
* `errand_is_read`: whatever the user wants, the daemon reads the one command that says so.
-/

import MiniV.Wire.NpuLoad
import MiniV.Wire.Truncated

namespace MiniV

open MiniV.Library

/-! ### The arguments -/

/-- How the tool reads the answer: one line, a stream of tokens, or the greeting, on which its exit
code depends. -/
inductive Awaits
  | line
  | stream
  | greeting
deriving DecidableEq, Repr

/-- **The message of a command line**, from `argv[1]` on; nothing when there are too few arguments for
the one who asks. -/
def cliRequest (args : List Bytes) : Option (Bytes × Awaits) :=
  match args with
  | sub :: rest =>
    if sub = text "infer" then
      match rest with
      | sessionId :: prompt :: maxTokens :: _ =>
        some (inferMessage (atoi sessionId) (atoi maxTokens) prompt, .stream)
      | _ => none
    else
      match rest with
      | [] => some (text "HELLO\n", .greeting)
      | arg :: more =>
        if sub = text "npu_load" then
          match more with
          | backendDir :: nCtx :: nThreads :: _ =>
            some (text "NPU_LOAD " ++ arg ++ text " " ++ backendDir ++ text " " ++ nCtx ++ text " " ++
              nThreads ++ text "\n", .line)
          | _ => none
        else if sub = text "npu_infer" then
          match more with
          | maxTokens :: _ => some (npuInferMessage (atoi maxTokens) arg, .stream)
          | _ => none
        else if sub = text "create_session" then
          some (text "CREATE_SESSION " ++ arg ++ text "\n", .line)
        else if sub = text "kill_session" then
          some (text "KILL_SESSION " ++ arg ++ text "\n", .line)
        else if sub = text "set_hot_limit" then
          some (text "SET_HOT_LIMIT " ++ arg ++ text "\n", .line)
        else if sub = text "set_cold_limit" then
          some (text "SET_COLD_LIMIT " ++ arg ++ text "\n", .line)
        else some (text "HELLO\n", .greeting)
  | [] => some (text "HELLO\n", .greeting)

/-- What a user wants of the daemon. -/
inductive Errand
  | createSession (id : Int)
  | killSession (id : Int)
  | setHotLimit (count : UInt64)
  | setColdLimit (bytes : UInt64)
  | infer (sessionId : Int) (prompt : Bytes) (maxTokens : Int)
  | npuLoad (call : LoadCall)
  | npuInfer (prompt : Bytes) (maxTokens : Int)
  | hello
deriving DecidableEq, Repr

namespace Errand

/-- The arguments that say so. -/
def args : Errand → List Bytes
  | .createSession id => [text "create_session", decimal id]
  | .killSession id => [text "kill_session", decimal id]
  | .setHotLimit count => [text "set_hot_limit", decimal count.toNat]
  | .setColdLimit bytes => [text "set_cold_limit", decimal bytes.toNat]
  | .infer sessionId prompt maxTokens => [text "infer", decimal sessionId, prompt, decimal maxTokens]
  | .npuLoad call =>
    [text "npu_load", call.modelPath, call.backendLibDir, decimal call.nCtx, decimal call.nThreads]
  | .npuInfer prompt maxTokens => [text "npu_infer", prompt, decimal maxTokens]
  | .hello => []

/-- The command that says so. -/
def command : Errand → Command
  | .createSession id => .createSession id
  | .killSession id => .killSession id
  | .setHotLimit count => .setHotLimit count
  | .setColdLimit bytes => .setColdLimit bytes
  | .infer sessionId prompt maxTokens => .infer sessionId maxTokens prompt
  | .npuLoad call => .npuLoad call.modelPath call.backendLibDir call.nCtx call.nThreads
  | .npuInfer prompt maxTokens => .npuInfer maxTokens prompt
  | .hello => .hello

/-- How its answer is read. -/
def awaits : Errand → Awaits
  | .infer _ _ _ | .npuInfer _ _ => .stream
  | .hello => .greeting
  | .createSession _ | .killSession _ | .setHotLimit _ | .setColdLimit _ | .npuLoad _ => .line

/-- A prompt that can be sent: an argument of a command line, none of whose pieces ends the message. -/
def IsPrompt (prompt : Bytes) : Prop := 0 ∉ prompt ∧ NoEnd prompt

/-- A path that can be sent. -/
def IsField (path : Bytes) : Prop := IsPath path ∧ IsWord 511 path

/-- **What can be said on a line**: the ids and numbers are 32-bit, the prompt and the paths get
through. -/
def Sendable : Errand → Prop
  | .createSession id | .killSession id => IsInt id
  | .setHotLimit _ | .setColdLimit _ | .hello => True
  | .infer sessionId prompt maxTokens => IsInt sessionId ∧ IsInt maxTokens ∧ IsPrompt prompt
  | .npuLoad call => IsField call.modelPath ∧ IsField call.backendLibDir ∧ IsInt call.nCtx ∧
      IsInt call.nThreads
  | .npuInfer prompt maxTokens => IsInt maxTokens ∧ IsPrompt prompt

end Errand

/-! ### Numbers -/

theorem atoi_argument {z : Int} (isInt : IsInt z) : atoi (decimal z) = z := by
  have read := strtol_decimal z (s := []) (by simp [EndsNumber])
  rw [List.append_nil] at read
  rw [atoi, read]
  exact toInt_of_range isInt.1 isInt.2

/-- A limit is read back, whatever it is. -/
theorem strtoul_decimal (n : UInt64) : strtoul (decimal n.toNat ++ [newline]) = n := by
  have read := strtol_decimal (n.toNat : Int) (s := [newline]) (endsNumber_cons (by decide) [])
  have small := n.toNat_lt
  rw [strtoul, read]
  dsimp only
  rw [if_neg (by simpa using small), UInt64.ofInt]
  have same : ((n.toNat : Int) % 2 ^ 64).toNat = n.toNat := by omega
  rw [same, UInt64.ofNat_toNat]

/-- A limit has at most twenty digits. -/
theorem length_decimal_limit (n : UInt64) : (decimal (n.toNat : Int)).length ≤ 20 := by
  have small : n.toNat < 10 ^ 20 := n.toNat_lt.trans (by decide)
  rw [decimal, if_neg (by omega), Int.natAbs_natCast, decimalNat]
  split
  · exact Nat.le_of_ble_eq_true rfl
  · rw [List.length_map, List.length_reverse, Nat.digits_length_le_iff (by decide)]
    exact small

/-! ### One line -/

/-- A word is told from another one by its first bytes. -/
theorem not_prefix_word (word other : Bytes) (count : Nat) (fits : count ≤ word.length)
    (differs : ¬ other.take count <+: word.take count) (s : Bytes) : ¬ other <+: word ++ s := by
  intro start
  have first := start.take count
  rw [List.take_append_of_le_length fits] at first
  exact differs first

/-- A line of a word and an argument. -/
theorem isHeader_argument {word arg : Bytes} (plain : ∀ b ∈ word ++ arg, b ≠ newline ∧ b ≠ 0)
    (short : (word ++ arg).length < lineSize - 1) : IsHeader (word ++ arg) :=
  ⟨short, fun member => (plain _ member).1 rfl, fun member => (plain _ member).2 rfl⟩

/-- The words that take one argument, with the commands they are. -/
inductive WordFor : Bytes → (Bytes → Command) → Prop
  | create : WordFor (text "CREATE_SESSION ") fun arg => .createSession (atoi arg)
  | kill : WordFor (text "KILL_SESSION ") fun arg => .killSession (atoi arg)
  | hotLimit : WordFor (text "SET_HOT_LIMIT ") fun arg => .setHotLimit (strtoul arg)
  | coldLimit : WordFor (text "SET_COLD_LIMIT ") fun arg => .setColdLimit (strtoul arg)

theorem WordFor.plain {word : Bytes} {command : Bytes → Command} (is : WordFor word command) :
    ∀ b ∈ word, b ≠ newline ∧ b ≠ 0 := by
  cases is <;> exact plain_of_all (by decide)

theorem WordFor.length {word : Bytes} {command : Bytes → Command} (is : WordFor word command) :
    word.length ≤ 15 := by
  cases is <;> decide

/-- **A word and its argument** are read back, whatever follows the line. -/
theorem readCommand_word {word arg : Bytes} {command : Bytes → Command} (is : WordFor word command)
    (header : IsHeader (word ++ arg)) (rest : Bytes) :
    readCommand (word ++ arg ++ [newline] ++ rest) = some (command (arg ++ [newline]), rest) := by
  rw [readCommand, fgets_header header]
  dsimp only
  rw [cString_header header, List.append_assoc]
  have others := fun other count fits differs =>
    not_prefix_word word other count fits differs (arg ++ [newline])
  have here : word <+: word ++ (arg ++ [newline]) := List.prefix_append ..
  cases is with
  | create => rw [if_pos here, List.drop_left' (by decide)]
  | kill =>
    rw [if_neg (others _ 1 (by decide) (by decide)), if_pos here, List.drop_left' (by decide)]
  | hotLimit =>
    rw [if_neg (others _ 1 (by decide) (by decide)), if_neg (others _ 1 (by decide) (by decide)),
      if_pos here, List.drop_left' (by decide)]
  | coldLimit =>
    rw [if_neg (others _ 1 (by decide) (by decide)), if_neg (others _ 1 (by decide) (by decide)),
      if_neg (others _ 5 (by decide) (by decide)), if_pos here, List.drop_left' (by decide)]

/-! ### Streams -/

theorem readPromptLoop_shorter (rounds : Nat) (prompt stream : Bytes) :
    (readPromptLoop rounds prompt stream).2.length ≤ stream.length := by
  induction rounds generalizing prompt stream with
  | zero => exact le_rfl
  | succ rounds ih =>
    rw [readPromptLoop]
    cases stream with
    | nil => exact le_rfl
    | cons b stream =>
      rw [fgets, if_neg (List.cons_ne_nil _ _)]
      have shorter := takeLine_shorter lineSize_positive (b := b) (s := stream)
      dsimp only
      split
      · exact shorter.le
      · exact (ih _ _).trans shorter.le

/-- Every command takes a byte at least. -/
theorem readCommand_shorter {stream rest : Bytes} {command : Command}
    (read : readCommand stream = some (command, rest)) : rest.length < stream.length := by
  unfold readCommand at read
  cases stream with
  | nil => cases read
  | cons b stream =>
    have shorter := takeLine_shorter lineSize_positive (b := b) (s := stream)
    have prompt : ∀ body : Bytes, (readPrompt body).2.length ≤ body.length :=
      fun body => readPromptLoop_shorter _ _ _
    rw [fgets, if_neg (List.cons_ne_nil _ _)] at read
    dsimp only at read
    split_ifs at read <;> cases read
    all_goals first | exact shorter | exact (prompt _).trans_lt shorter

/-- The bound on the rounds does not matter. -/
theorem commandsWithin_enough {stream : Bytes} {fuel : Nat} (enough : stream.length ≤ fuel) :
    commandsWithin fuel stream = commands stream := by
  have same : ∀ n (stream : Bytes), stream.length ≤ n → ∀ fuel fuel', stream.length ≤ fuel →
      stream.length ≤ fuel' → commandsWithin fuel stream = commandsWithin fuel' stream := by
    intro n
    induction n with
    | zero =>
      intro stream bound fuel fuel' _ _
      rw [List.length_eq_zero_iff.mp (Nat.le_zero.mp bound)]
      cases fuel <;> cases fuel' <;> rfl
    | succ n ih =>
      intro stream bound fuel fuel' enough enough'
      cases read : readCommand stream with
      | none => cases fuel <;> cases fuel' <;> simp [commandsWithin, read]
      | some result =>
        have shorter := @readCommand_shorter stream result.2 result.1 read
        cases fuel with
        | zero => omega
        | succ fuel =>
          cases fuel' with
          | zero => omega
          | succ fuel' =>
            rw [commandsWithin, commandsWithin, read]
            dsimp only
            rw [ih result.2 (by omega) fuel fuel' (by omega) (by omega)]
  exact same stream.length stream le_rfl fuel stream.length enough le_rfl

/-- **A stream of complete messages** is read as if nothing followed. -/
theorem commands_append {messages : List Bytes} (complete : ∀ m ∈ messages, IsMessage m) (t : Bytes) :
    commands (messages.flatten ++ t) = commands messages.flatten ++ commands t := by
  obtain ⟨early, later⟩ := commandsWithin_messages complete
  obtain ⟨fuel, enough, whole⟩ := later t _ le_rfl
  obtain ⟨fuel', _, before⟩ := later [] _ le_rfl
  have ends : commandsWithin fuel' [] = [] := by cases fuel' <;> rfl
  rw [List.append_nil, ends, List.append_nil] at before
  have first : commands messages.flatten = early := before
  rw [first, commands, whole, commandsWithin_enough enough]

/-! ### Every errand -/

theorem text_newline : text "\n" = [newline] := by decide

theorem decimal_plain {z : Int} : ∀ b ∈ decimal z, b ≠ newline ∧ b ≠ 0 :=
  fun _ member => (numberByte_of_mem member).ne

/-- A word with a number for its argument. -/
theorem readCommand_number {word : Bytes} {command : Bytes → Command} (is : WordFor word command)
    {z : Int} (short : (decimal z).length ≤ 20) (rest : Bytes) :
    readCommand (word ++ decimal z ++ text "\n" ++ rest) =
      some (command (decimal z ++ [newline]), rest) := by
  rw [text_newline]
  refine readCommand_word is (isHeader_argument ?_ ?_) rest
  · intro b member
    rcases List.mem_append.mp member with inside | number
    · exact is.plain b inside
    · exact decimal_plain b number
  · have first := is.length
    have size : lineSize - 1 = 4095 := rfl
    rw [List.length_append]
    omega

theorem readCommand_hello (rest : Bytes) : readCommand (text "HELLO\n" ++ rest) = some (.hello, rest) := by
  have line : text "HELLO\n" = text "HELLO" ++ [newline] := by decide
  have header : IsHeader (text "HELLO") := ⟨by decide, by decide, by decide⟩
  have others := fun other count fits differs =>
    not_prefix_word (text "HELLO") other count fits differs [newline]
  have here : text "HELLO" <+: text "HELLO" ++ [newline] := List.prefix_append ..
  rw [line, readCommand, fgets_header header]
  dsimp only
  rw [cString_header header, if_neg (others _ 1 (by decide) (by decide)),
    if_neg (others _ 1 (by decide) (by decide)), if_neg (others _ 1 (by decide) (by decide)),
    if_neg (others _ 1 (by decide) (by decide)), if_neg (others _ 1 (by decide) (by decide)),
    if_neg (others _ 1 (by decide) (by decide)), if_neg (others _ 1 (by decide) (by decide)),
    if_pos here]

/-- A load whose fields get through is read back. -/
theorem readCommand_npuLoadMessage {call : LoadCall} (model : Errand.IsField call.modelPath)
    (backend : Errand.IsField call.backendLibDir) (isInt : IsInt call.nCtx)
    (isInt' : IsInt call.nThreads) (rest : Bytes) :
    readCommand (npuLoadMessage call ++ rest) =
      some (.npuLoad call.modelPath call.backendLibDir call.nCtx call.nThreads, rest) := by
  have plain := npuLoadFields_plain model.1 backend.1
  have line : takeLine fieldsRoom (npuLoadFields call ++ [newline] ++ rest) =
      (npuLoadFields call ++ [newline], rest) := by
    rw [List.append_assoc, List.singleton_append]
    exact takeLine_line (length_npuLoadFields model.2 backend.2 isInt isInt')
      (fun member => (plain _ member).1 rfl) rest
  have noNul : 0 ∉ npuLoadFields call ++ [newline] := by
    rw [List.mem_append, List.mem_singleton, not_or]
    exact ⟨fun member => (plain _ member).2 rfl, by decide⟩
  have read := scanNpuLoad_line model.1 backend.1 model.2 backend.2 isInt isInt'
  rw [npuLoadMessage, List.append_assoc, readCommand_npuLoad, line, cString_of_noNul noNul]
  cases scanned : scanNpuLoad (npuLoadFields call ++ [newline]) with
  | npuLoad modelPath backendDir nCtx nThreads =>
    rw [scanned] at read
    cases read
    rfl
  | createSession | killSession | setHotLimit | setColdLimit | infer | npuInfer | hello | ignored =>
    rw [scanned] at read
    cases read

/-- **Every errand** that can be said on a line is read back, whatever follows its message. -/
theorem errand_is_read {errand : Errand} (sendable : errand.Sendable) :
    ∃ message, cliRequest errand.args = some (message, errand.awaits) ∧
      ∀ rest, readCommand (message ++ rest) = some (errand.command, rest) := by
  cases errand with
  | createSession id =>
    refine ⟨_, rfl, fun rest => ?_⟩
    have short := length_decimal sendable.1 sendable.2
    rw [readCommand_number .create (by omega), atoi_decimal sendable.1 sendable.2]
    rfl
  | killSession id =>
    refine ⟨_, rfl, fun rest => ?_⟩
    have short := length_decimal sendable.1 sendable.2
    rw [readCommand_number .kill (by omega), atoi_decimal sendable.1 sendable.2]
    rfl
  | setHotLimit count =>
    refine ⟨_, rfl, fun rest => ?_⟩
    rw [readCommand_number .hotLimit (length_decimal_limit count), strtoul_decimal]
    rfl
  | setColdLimit bytes =>
    refine ⟨_, rfl, fun rest => ?_⟩
    rw [readCommand_number .coldLimit (length_decimal_limit bytes), strtoul_decimal]
    rfl
  | infer sessionId prompt maxTokens =>
    obtain ⟨isInt, isInt', noNul, noEnd⟩ := sendable
    refine ⟨inferMessage sessionId maxTokens prompt, ?_, fun rest => ?_⟩
    · show some (inferMessage (atoi (decimal sessionId)) (atoi (decimal maxTokens)) prompt, _) = _
      rw [atoi_argument isInt, atoi_argument isInt']
      rfl
    · rw [readCommand_infer isInt isInt', (readPrompt_message noNul rest).mpr noEnd]
      rfl
  | npuLoad call =>
    obtain ⟨model, backend, isInt, isInt'⟩ := sendable
    refine ⟨npuLoadMessage call, ?_, readCommand_npuLoadMessage model backend isInt isInt'⟩
    show some (text "NPU_LOAD " ++ call.modelPath ++ text " " ++ call.backendLibDir ++ text " " ++
      decimal call.nCtx ++ text " " ++ decimal call.nThreads ++ text "\n", Awaits.line) = _
    simp only [npuLoadMessage, npuLoadFields, List.append_assoc, ← text_newline]
    rfl
  | npuInfer prompt maxTokens =>
    obtain ⟨isInt, noNul, noEnd⟩ := sendable
    refine ⟨npuInferMessage maxTokens prompt, ?_, fun rest => ?_⟩
    · show some (npuInferMessage (atoi (decimal maxTokens)) prompt, _) = _
      rw [atoi_argument isInt]
      rfl
    · rw [readCommand_npuInfer isInt, (readPrompt_message noNul rest).mpr noEnd]
      rfl
  | hello => exact ⟨_, rfl, readCommand_hello⟩

/-- Messages are read as the commands they are, one after another. -/
theorem commandsWithin_read {said : List (Bytes × Command)}
    (read : ∀ p ∈ said, ∀ rest, readCommand (p.1 ++ rest) = some (p.2, rest)) {fuel : Nat}
    (enough : (said.flatMap Prod.fst).length ≤ fuel) :
    commandsWithin fuel (said.flatMap Prod.fst) = said.map Prod.snd := by
  induction said generalizing fuel with
  | nil => cases fuel <;> rfl
  | cons p said ih =>
    have first := read p List.mem_cons_self
    have some' : p.1 ≠ [] := by
      intro empty
      have nothing := first []
      rw [empty] at nothing
      cases nothing
    have positive := List.length_pos_iff.mpr some'
    rw [List.flatMap_cons, List.length_append] at enough
    cases fuel with
    | zero => omega
    | succ fuel =>
      rw [List.flatMap_cons, commandsWithin, first]
      dsimp only
      rw [ih (fun q member => read q (List.mem_cons_of_mem _ member)) (by omega), List.map_cons]

/-- **The daemon reads what was meant**: the messages that the command line tool makes of any errands,
one after another on a stream, are read as their commands and as nothing else. -/
theorem errands_are_read (errands : List Errand) (sendable : ∀ e ∈ errands, e.Sendable) :
    ∃ messages, List.Forall₂ (fun e m => cliRequest e.args = some (m, e.awaits)) errands messages ∧
      commands messages.flatten = errands.map Errand.command := by
  have each : ∃ said : List (Bytes × Command),
      List.Forall₂ (fun e p => cliRequest e.args = some (p.1, e.awaits)) errands said ∧
        (∀ p ∈ said, ∀ rest, readCommand (p.1 ++ rest) = some (p.2, rest)) ∧
        said.map Prod.snd = errands.map Errand.command := by
    induction errands with
    | nil => exact ⟨[], .nil, List.forall_mem_nil _, rfl⟩
    | cons e errands ih =>
      obtain ⟨message, asks, read⟩ := errand_is_read (sendable e List.mem_cons_self)
      obtain ⟨said, ask, reads, same⟩ := ih fun e' member => sendable e' (List.mem_cons_of_mem _ member)
      refine ⟨(message, e.command) :: said, .cons asks ask, ?_, by simp [same]⟩
      exact List.forall_mem_cons.mpr ⟨read, reads⟩
  obtain ⟨said, ask, reads, same⟩ := each
  refine ⟨said.map Prod.fst, List.forall₂_map_right_iff.mpr ask, ?_⟩
  rw [commands, ← List.flatMap_def, commandsWithin_read reads le_rfl, same]

/-- Errands of several kinds, and a prompt of two lines. -/
def someErrands : List Errand :=
  [.createSession (-7), .setColdLimit 18446744073709551615, .infer (-7) (text "one\nEN D") 5, .hello,
    .npuLoad ⟨text "/m", text "/b", 2048, 4⟩, .npuInfer (text "q") 0, .killSession (-7)]

theorem errands_are_read_some :
    ∃ messages, List.Forall₂ (fun e m => cliRequest e.args = some (m, e.awaits)) someErrands messages ∧
      commands messages.flatten = someErrands.map Errand.command := by
  refine errands_are_read someErrands ?_
  have prompt : Errand.IsPrompt (text "one\nEN D") := ⟨by decide, by decide +kernel⟩
  have prompt' : Errand.IsPrompt (text "q") := ⟨by decide, by decide +kernel⟩
  have fields : Errand.IsField (text "/m") ∧ Errand.IsField (text "/b") :=
    ⟨⟨by decide, by decide⟩, by decide, by decide⟩
  simp only [someErrands, List.forall_mem_cons, Errand.Sendable]
  exact ⟨by decide, trivial, ⟨by decide, by decide, prompt⟩, trivial,
    ⟨fields.1, fields.2, by decide, by decide⟩, ⟨by decide, prompt'⟩, by decide,
    fun e member => by cases member⟩

end MiniV
