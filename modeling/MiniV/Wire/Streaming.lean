/-
**A generated text on its way to the user of the command line tool.**

The daemon writes a line for every piece of text, with the piece in Base64, and `DONE` at the end. The
tool reads the lines, decodes the pieces and prints them as C strings.

`streamed_text`: the user sees the generated text exactly when no piece holds a NUL byte. The other
stages (the encoder, the lines, the buffer of the reader, the decoder) let all bytes through:
`cliOutput_stream` says what is printed of any pieces.
-/

import MiniV.Wire.Base64
import MiniV.Wire.HandleClient

namespace MiniV

open MiniV.Library

/-! ### The writer -/

/-- `fprintf(wf, "TOKEN %s\n", base64Encode(tok).c_str())`. -/
def tokenLine (tok : Bytes) : Bytes := text "TOKEN " ++ cString (base64Encode tok) ++ [newline]

/-- What `HandleClient` writes for an inference that ends well. -/
def streamOf (pieces : List Bytes) : Bytes := pieces.flatMap tokenLine ++ text "DONE\n"

/-! ### The reader -/

/-- What the tool prints for a `TOKEN` line. -/
def printToken (line : Bytes) : Bytes :=
  cString (base64Decode (popNewline (cString (line.drop 6))))

/-- `fgets` stores what it reads, and a NUL, over the front of the buffer. -/
def store (read line : Bytes) : Bytes := read ++ 0 :: line.drop (read.length + 1)

/-- The loop of `infer` and of `npu_infer`: what is printed to the user. `line` is the buffer, with what
an earlier round or nobody has stored in it. -/
def printLoop : Nat → Bytes → Bytes → Bytes
  | 0, _, _ => []
  | rounds + 1, line, stream =>
    match fgets lineSize stream with
    | none => []
    | some (read, rest) =>
      let line := store read line
      if startsWith (text "TOKEN ") line then printToken line ++ printLoop rounds line rest
      else if startsWith (text "DONE") line then text "\n[DONE]\n"
      -- behind a bare `ERROR` this is what was in the buffer before
      else if startsWith (text "ERROR") line then text "\n[ERROR] " ++ cString (line.drop 6)
      else printLoop rounds line rest

/-- What the tool prints of a stream: every round reads a byte at least. -/
def cliOutput (line stream : Bytes) : Bytes := printLoop stream.length line stream

/-! ### C strings -/

theorem cString_eq_self {s : Bytes} : cString s = s ↔ 0 ∉ s := by
  rw [cString, List.takeWhile_eq_self_iff]
  constructor
  · intro all' member
    exact absurd (all' 0 member) (by decide)
  · intro absent b member
    exact decide_eq_true fun same => absent (same ▸ member)

theorem length_cString_le (s : Bytes) : (cString s).length ≤ s.length :=
  (List.takeWhile_prefix _).length_le

/-- A text cut at its NULs is as long as it was only when it had none. -/
theorem cString_of_length {s : Bytes} (long : s.length ≤ (cString s).length) : cString s = s :=
  (List.takeWhile_prefix _).eq_of_length_le long

/-- A C string ends at the NUL that `fgets` has stored. -/
theorem cString_append_nul (s t : Bytes) : cString (s ++ 0 :: t) = cString s := by
  induction s with
  | nil => rfl
  | cons b s ih =>
    simp only [cString, List.cons_append, List.takeWhile_cons] at ih ⊢
    rw [ih]

theorem startsWith_store (word read line : Bytes) :
    startsWith word (store read line) = startsWith word read := by
  rw [startsWith, startsWith, store, cString_append_nul]

/-- What is read of a line that is long enough does not depend on the rest of the buffer. -/
theorem cString_drop_store {read : Bytes} {count : Nat} (long : count ≤ read.length) (line : Bytes) :
    cString ((store read line).drop count) = cString (read.drop count) := by
  rw [store, List.drop_append_of_le_length long, cString_append_nul]

/-! ### One line -/

/-- The token line of a piece: its prefix, characters of the alphabet, a newline. -/
theorem tokenLine_eq (tok : Bytes) : tokenLine tok = text "TOKEN " ++ base64Encode tok ++ [newline] := by
  have whole : cString (base64Encode tok) = base64Encode tok :=
    cString_eq_self.mpr fun member => (base64Encode_printable tok 0 member).1 rfl
  rw [tokenLine, whole]

theorem noNewline_tokenLine (tok : Bytes) : newline ∉ text "TOKEN " ++ base64Encode tok := by
  rw [List.mem_append, not_or]
  exact ⟨by decide, fun member => (base64Encode_printable tok newline member).2 rfl⟩

/-- A token line is read in one piece, if it fits the buffer. -/
theorem fgets_tokenLine {tok : Bytes} (short : tok.length ≤ 256) (rest : Bytes) :
    fgets lineSize (tokenLine tok ++ rest) = some (tokenLine tok, rest) := by
  have some' : tokenLine tok ++ rest ≠ [] := by
    rw [tokenLine_eq, List.append_assoc, List.append_assoc]
    exact List.cons_ne_nil _ _
  have length : (text "TOKEN " ++ base64Encode tok).length < lineSize - 1 := by
    have six : (text "TOKEN ").length = 6 := rfl
    rw [List.length_append, length_base64Encode, six, lineSize]
    omega
  rw [fgets, if_neg some', tokenLine_eq, List.append_assoc, List.singleton_append,
    takeLine_line length (noNewline_tokenLine tok)]

/-- A token line starts with its word. -/
theorem startsWith_tokenLine (tok : Bytes) : startsWith (text "TOKEN ") (tokenLine tok) = true := by
  have word : cString (text "TOKEN " ++ (base64Encode tok ++ [newline])) =
      text "TOKEN " ++ (base64Encode tok ++ [newline]) := by
    refine cString_eq_self.mpr ?_
    rw [List.mem_append, List.mem_append, not_or, not_or]
    exact ⟨by decide, fun member => (base64Encode_printable tok 0 member).1 rfl, by decide⟩
  rw [startsWith, tokenLine_eq, List.append_assoc, word, List.take_left, decide_eq_true rfl]

/-- **A token line is printed** as its piece, up to the first NUL. -/
theorem printToken_tokenLine (tok : Bytes) : printToken (tokenLine tok) = cString tok := by
  have cut : (tokenLine tok).drop 6 = base64Encode tok ++ [newline] := by
    rw [tokenLine_eq, List.append_assoc]
    rfl
  have whole : cString (base64Encode tok ++ [newline]) = base64Encode tok ++ [newline] := by
    refine cString_eq_self.mpr ?_
    rw [List.mem_append, not_or]
    exact ⟨fun member => (base64Encode_printable tok 0 member).1 rfl, by decide⟩
  rw [printToken, cut, whole, popNewline, if_pos (List.getLast?_concat ..), List.dropLast_concat,
    base64_round_trip]

/-! ### The stream -/

/-- A line is printed, and then the rest. -/
theorem printLoop_tokenLine {tok : Bytes} (short : tok.length ≤ 256) (rounds : Nat)
    (line rest : Bytes) : printLoop (rounds + 1) line (tokenLine tok ++ rest) =
      cString tok ++ printLoop rounds (store (tokenLine tok) line) rest := by
  have long : 6 ≤ (tokenLine tok).length := by
    rw [tokenLine_eq, List.append_assoc, List.length_append]
    exact Nat.le_add_right 6 _
  have printed : printToken (store (tokenLine tok) line) = printToken (tokenLine tok) := by
    rw [printToken, cString_drop_store long, printToken]
  rw [printLoop, fgets_tokenLine short]
  dsimp only
  rw [startsWith_store, if_pos (startsWith_tokenLine tok), printed, printToken_tokenLine]

/-- The end of a stream is printed as its marker. -/
theorem printLoop_done (rounds : Nat) (line : Bytes) :
    printLoop (rounds + 1) line (text "DONE\n") = text "\n[DONE]\n" := by
  have read : fgets lineSize (text "DONE\n") = some (text "DONE\n", []) := by decide +kernel
  have noToken : ¬ startsWith (text "TOKEN ") (text "DONE\n") = true := by decide
  have done : startsWith (text "DONE") (text "DONE\n") = true := by decide
  rw [printLoop, read]
  dsimp only
  rw [startsWith_store, startsWith_store, if_neg noToken, if_pos done]

theorem printLoop_stream {pieces : List Bytes} (short : ∀ p ∈ pieces, p.length ≤ 256) {rounds : Nat}
    (enough : pieces.length < rounds) (line : Bytes) :
    printLoop rounds line (streamOf pieces) = pieces.flatMap cString ++ text "\n[DONE]\n" := by
  induction pieces generalizing rounds line with
  | nil =>
    cases rounds with
    | zero => exact absurd enough (Nat.not_lt_zero _)
    | succ rounds => exact printLoop_done rounds line
  | cons p pieces ih =>
    cases rounds with
    | zero => exact absurd enough (Nat.not_lt_zero _)
    | succ rounds =>
      have later := ih (fun q member => short q (List.mem_cons_of_mem _ member))
        (Nat.lt_of_succ_lt_succ enough) (store (tokenLine p) line)
      rw [streamOf] at later
      rw [streamOf, List.flatMap_cons, List.append_assoc,
        printLoop_tokenLine (short p List.mem_cons_self), later, List.flatMap_cons,
        List.append_assoc]

/-- Every line of a stream has a byte at least. -/
theorem length_lt_streamOf (pieces : List Bytes) : pieces.length < (streamOf pieces).length := by
  induction pieces with
  | nil => decide
  | cons p pieces ih =>
    have more : 1 ≤ (tokenLine p).length := by
      rw [tokenLine, List.length_append]
      exact Nat.le_add_left 1 _
    rw [streamOf, List.length_append] at ih
    rw [streamOf, List.flatMap_cons, List.length_cons, List.length_append, List.length_append]
    omega

/-- **What is printed**: every piece up to its first NUL, and the marker. -/
theorem cliOutput_stream {pieces : List Bytes} (short : ∀ p ∈ pieces, p.length ≤ 256) (line : Bytes) :
    cliOutput line (streamOf pieces) = pieces.flatMap cString ++ text "\n[DONE]\n" :=
  printLoop_stream short (length_lt_streamOf pieces) line

/-- A line that tells an error. -/
structure ErrorLine (reply : Bytes) : Prop where
  whole : fgets lineSize reply = some (reply, [])
  noToken : startsWith (text "TOKEN ") reply = false
  notDone : startsWith (text "DONE") reply = false
  error : startsWith (text "ERROR") reply = true
  long : 6 ≤ reply.length

/-- **What is printed of an error**: what it is, behind the marker. -/
theorem cliOutput_error {reply : Bytes} (is : ErrorLine reply) (line : Bytes) :
    cliOutput line reply = text "\n[ERROR] " ++ cString (reply.drop 6) := by
  obtain ⟨rounds, more⟩ := Nat.exists_eq_add_of_lt is.long
  rw [cliOutput, more, printLoop, is.whole]
  dsimp only
  rw [startsWith_store, startsWith_store, startsWith_store, is.noToken, is.notDone, is.error,
    cString_drop_store is.long, if_neg Bool.false_ne_true, if_neg Bool.false_ne_true, if_pos rfl]

/-- Texts cut at their NULs make up the whole text exactly when there are none. -/
theorem flatMap_cString_eq {pieces : List Bytes} :
    pieces.flatMap cString = pieces.flatten ↔ ∀ p ∈ pieces, 0 ∉ p := by
  induction pieces with
  | nil => simp
  | cons p pieces ih =>
    rw [List.flatMap_cons, List.flatten_cons, List.forall_mem_cons, ← ih]
    constructor
    · intro same
      have shorter : ∀ l : List Bytes, (l.flatMap cString).length ≤ l.flatten.length := by
        intro l
        induction l with
        | nil => exact le_rfl
        | cons q l ihl =>
          rw [List.flatMap_cons, List.flatten_cons, List.length_append, List.length_append]
          exact Nat.add_le_add (length_cString_le q) ihl
      have lengths := congrArg List.length same
      rw [List.length_append, List.length_append] at lengths
      have here := length_cString_le p
      have later := shorter pieces
      have whole : cString p = p := cString_of_length (by omega)
      rw [whole, List.append_cancel_left_eq] at same
      exact ⟨cString_eq_self.mp whole, same⟩
    · rintro ⟨absent, rest⟩
      rw [cString_eq_self.mpr absent, rest]

/-- **The streamed text reaches the user unchanged**, for any pieces that the buffer of the engine
holds, exactly when no piece holds a NUL byte. -/
theorem streamed_text (line : Bytes) (pieces : List Bytes) (short : ∀ p ∈ pieces, p.length ≤ 256) :
    cliOutput line (streamOf pieces) = pieces.flatten ++ text "\n[DONE]\n" ↔
      ∀ p ∈ pieces, 0 ∉ p := by
  rw [cliOutput_stream short, List.append_cancel_right_eq, flatMap_cString_eq]

/-- A buffer in which nothing has been stored. -/
def emptyLine : Bytes := List.replicate lineSize 0

/-- A character of two bytes, split over two pieces. -/
theorem streamed_text_split :
    cliOutput emptyLine (streamOf [[0xC3], [], [0xA9]]) = [0xC3, 0xA9] ++ text "\n[DONE]\n" :=
  (streamed_text emptyLine [[0xC3], [], [0xA9]] (by decide)).mpr (by decide)

/-- What follows a NUL in its piece is lost. -/
theorem streamed_text_nul :
    cliOutput emptyLine (streamOf [text "a", [0, 98]]) = text "a\n[DONE]\n" ∧
      cliOutput emptyLine (streamOf [text "a", [0, 98]]) ≠
        [text "a", [0, 98]].flatten ++ text "\n[DONE]\n" := by
  decide +kernel

end MiniV
