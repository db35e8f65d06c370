/-
**What is documented of the llama calls.**

Two things outside the daemon matter to it: the cells of sequence 0 in each context, and what was
last saved under each file path. `View` reads them off the outside state, and `Documented` says what
each call does to them:

* `llama_decode` appends its whole batch at the next positions, or adds nothing;
* `llama_memory_seq_rm` and `llama_memory_seq_add` remove and shift the cells of a range;
* a state that was saved is loaded back with its tokens, when the buffer holds them;
* no call touches another context or another file.

`mirror tokens` are the cells of a context that holds exactly these tokens from position 0 on.
-/

import Mathlib.Data.List.Basic
import Mathlib.Logic.Function.Basic
import MiniV.Llama.Api

namespace MiniV

open MiniV.Library

/-! ### The cells of a sequence -/

/-- The cells of a sequence: positions and tokens. -/
abbrev Cells := List (Int × Token)

/-- Tokens at consecutive positions. -/
def placeFrom : Int → List Token → Cells
  | _, [] => []
  | pos, t :: tokens => (pos, t) :: placeFrom (pos + 1) tokens

/-- The position after the last one. -/
def nextPos (cells : Cells) : Int := cells.foldl (fun next cell => max next (cell.1 + 1)) 0

/-- The tokens at positions 0, 1, 2, and so on. -/
def mirror (tokens : List Token) : Cells := placeFrom 0 tokens

/-- The cells outside the positions `[p0, p1)`. -/
def removeRange (p0 p1 : Int) (cells : Cells) : Cells :=
  cells.filter fun cell => ¬ (p0 ≤ cell.1 ∧ cell.1 < p1)

/-- The cells with the positions `[p0, p1)` shifted; `p1 < 0` is no bound. -/
def shiftRange (p0 p1 delta : Int) (cells : Cells) : Cells :=
  cells.map fun cell =>
    if p0 ≤ cell.1 ∧ (p1 < 0 ∨ cell.1 < p1) then (cell.1 + delta, cell.2) else cell

theorem placeFrom_append (pos : Int) (first second : List Token) :
    placeFrom pos (first ++ second) = placeFrom pos first ++ placeFrom (pos + first.length) second := by
  induction first generalizing pos with
  | nil => simp [placeFrom]
  | cons t first ih =>
    simp only [List.cons_append, placeFrom, ih, List.length_cons, Nat.cast_add, Nat.cast_one]
    rw [Int.add_right_comm, Int.add_assoc]

theorem length_placeFrom (pos : Int) (tokens : List Token) :
    (placeFrom pos tokens).length = tokens.length := by
  induction tokens generalizing pos with
  | nil => rfl
  | cons t tokens ih => rw [placeFrom, List.length_cons, List.length_cons, ih]

@[simp] theorem length_mirror (tokens : List Token) : (mirror tokens).length = tokens.length :=
  length_placeFrom 0 tokens

theorem placeFrom_range {pos : Int} {tokens : List Token} :
    ∀ cell ∈ placeFrom pos tokens, pos ≤ cell.1 ∧ cell.1 < pos + tokens.length := by
  induction tokens generalizing pos with
  | nil => exact fun cell member => by cases member
  | cons t tokens ih =>
    intro cell member
    rw [List.length_cons, Nat.cast_add, Nat.cast_one]
    rcases List.mem_cons.mp member with rfl | later
    · constructor
      · exact le_rfl
      · show pos < pos + (tokens.length + 1)
        omega
    · have bounds := ih cell later
      omega

theorem foldl_nextPos (pos : Int) (tokens : List Token) :
    (placeFrom pos tokens).foldl (fun next cell => max next (cell.1 + 1)) pos = pos + tokens.length := by
  induction tokens generalizing pos with
  | nil => simp [placeFrom]
  | cons t tokens ih =>
    have next : max pos (pos + 1) = pos + 1 := by omega
    rw [placeFrom, List.foldl_cons, next, ih, List.length_cons, Nat.cast_add, Nat.cast_one]
    omega

theorem nextPos_mirror (tokens : List Token) : nextPos (mirror tokens) = tokens.length :=
  (foldl_nextPos 0 tokens).trans (Int.zero_add _)

/-- **Appending at the next positions** keeps a mirror. -/
theorem mirror_append (first second : List Token) :
    mirror first ++ placeFrom (nextPos (mirror first)) second = mirror (first ++ second) := by
  rw [nextPos_mirror, mirror, mirror, placeFrom_append, Int.zero_add]

theorem shiftRange_placeFrom (pos delta : Int) (bound : Int) (tokens : List Token)
    (low : bound ≤ pos) :
    shiftRange bound (-1) delta (placeFrom pos tokens) = placeFrom (pos + delta) tokens := by
  induction tokens generalizing pos with
  | nil => rfl
  | cons t tokens ih =>
    have rest : shiftRange bound (-1) delta (placeFrom (pos + 1) tokens) =
        placeFrom (pos + 1 + delta) tokens := ih (pos + 1) (by omega)
    have here : bound ≤ pos ∧ ((-1 : Int) < 0 ∨ pos < -1) := ⟨low, Or.inl (by decide)⟩
    unfold shiftRange at rest ⊢
    rw [placeFrom, List.map_cons, rest, if_pos here, placeFrom, Int.add_right_comm pos 1 delta]

/-- **Removing the first positions and shifting the others down** mirrors the tokens that are left. -/
theorem mirror_drop (count : Nat) (tokens : List Token) (few : count ≤ tokens.length) :
    shiftRange count (-1) (-count) (removeRange 0 count (mirror tokens)) =
      mirror (tokens.drop count) := by
  have split : mirror tokens =
      placeFrom 0 (tokens.take count) ++ placeFrom count (tokens.drop count) := by
    have parts := placeFrom_append 0 (tokens.take count) (tokens.drop count)
    rw [List.take_append_drop, List.length_take, min_eq_left few, Int.zero_add] at parts
    exact parts
  have dropped : removeRange 0 count (mirror tokens) = placeFrom count (tokens.drop count) := by
    rw [split, removeRange, List.filter_append, List.filter_eq_nil_iff.mpr, List.nil_append,
      List.filter_eq_self.mpr]
    · intro cell member
      have bounds := placeFrom_range cell member
      simp only [decide_eq_true_eq]
      omega
    · intro cell member
      have bounds := placeFrom_range cell member
      rw [List.length_take, min_eq_left few] at bounds
      simp only [decide_eq_true_eq]
      omega
  rw [dropped, shiftRange_placeFrom _ _ _ _ le_rfl, mirror, Int.add_right_neg]

/-! ### The documentation -/

/-- What a state file holds: the tokens that were saved with it, and the cells. -/
structure Saved where
  tokens : List Token
  cells : Cells
deriving DecidableEq, Repr

/-- What the daemon relies on, in the outside state. -/
structure View (σ : Type) where
  kv : σ → Ctx → Cells
  file : σ → Bytes → Option Saved

namespace View

variable {σ : Type} (V : View σ)

/-- Nothing the daemon relies on has changed. -/
def Untouched (s s' : σ) : Prop := V.kv s' = V.kv s ∧ V.file s' = V.file s

/-- Only the cells of one context may have changed. -/
def OnlyCtx (c : Ctx) (s s' : σ) : Prop :=
  (∀ c', c' ≠ c → V.kv s' c' = V.kv s c') ∧ V.file s' = V.file s

/-- Only one file may have changed. -/
def OnlyFile (path : Bytes) (s s' : σ) : Prop :=
  V.kv s' = V.kv s ∧ ∀ path', path' ≠ path → V.file s' path' = V.file s path'

/-- Only the cells of one context and one file may have changed. -/
structure Only (c : Ctx) (path : Bytes) (s s' : σ) : Prop where
  kv : ∀ c', c' ≠ c → V.kv s' c' = V.kv s c'
  file : ∀ path', path' ≠ path → V.file s' path' = V.file s path'

variable {V} {c : Ctx} {path : Bytes} {s s' s'' : σ}

theorem Untouched.only (same : V.Untouched s s') : V.Only c path s s' where
  kv c' _ := by rw [same.1]
  file path' _ := by rw [same.2]

theorem OnlyCtx.only (same : V.OnlyCtx c s s') : V.Only c path s s' where
  kv := same.1
  file path' _ := by rw [same.2]

theorem OnlyFile.only (same : V.OnlyFile path s s') : V.Only c path s s' where
  kv c' _ := by rw [same.1]
  file := same.2

theorem Only.trans (first : V.Only c path s s') (second : V.Only c path s' s'') :
    V.Only c path s s'' where
  kv c' other := (second.kv c' other).trans (first.kv c' other)
  file path' other := (second.file path' other).trans (first.file path' other)

end View

/-- **The documented behaviour of the calls.** -/
structure Documented {σ : Type} (L : Llama σ) (V : View σ) : Prop where
  init : ∀ c s, V.OnlyCtx c s (L.initFromModel c s).2
  initEmpty : ∀ c s, (L.initFromModel c s).1 = true → V.kv (L.initFromModel c s).2 c = []
  free : ∀ c s, V.OnlyCtx c s (L.free c s)
  save : ∀ c path tokens s, V.OnlyFile path s (L.stateSeqSaveFile c path tokens s).2
  saved : ∀ c path tokens s, (L.stateSeqSaveFile c path tokens s).1 ≠ 0 →
    V.file (L.stateSeqSaveFile c path tokens s).2 path = some ⟨tokens, V.kv s c⟩
  size : ∀ c s, V.Untouched s (L.stateSeqGetSize c s).2
  load : ∀ c path room s, V.OnlyCtx c s (L.stateSeqLoadFile c path room s).2
  loaded : ∀ c path room s, (L.stateSeqLoadFile c path room s).1.loaded ≠ 0 →
    ∃ saved, V.file s path = some saved ∧ saved.tokens.length ≤ room ∧
      (L.stateSeqLoadFile c path room s).1.tokensOut = saved.tokens ∧
      V.kv (L.stateSeqLoadFile c path room s).2 c = saved.cells
  remove : ∀ c p0 p1 s, V.OnlyCtx c s (L.memorySeqRm c p0 p1 s)
  removed : ∀ c p0 p1 s, V.kv (L.memorySeqRm c p0 p1 s) c = removeRange p0 p1 (V.kv s c)
  add : ∀ c p0 p1 delta s, V.OnlyCtx c s (L.memorySeqAdd c p0 p1 delta s)
  added : ∀ c p0 p1 delta s,
    V.kv (L.memorySeqAdd c p0 p1 delta s) c = shiftRange p0 p1 delta (V.kv s c)
  decode : ∀ c batch s, V.OnlyCtx c s (L.decode c batch s).2
  decoded : ∀ c batch s, V.kv (L.decode c batch s).2 c =
    if (L.decode c batch s).1 = 0 then V.kv s c ++ placeFrom (nextPos (V.kv s c)) batch
    else V.kv s c
  sample : ∀ c s, V.Untouched s (L.samplerSample c s).2
  unlink : ∀ path s, V.OnlyFile path s (L.removeFile path s)
  clock : ∀ s, V.Untouched s (L.nowMs s).2

/-- A context holds at most `nCtx` tokens: decoding into a full one fails. -/
def Capacity {σ : Type} (L : Llama σ) (V : View σ) (nCtx : Nat) : Prop :=
  ∀ c batch s, (L.decode c batch s).1 = 0 → (V.kv (L.decode c batch s).2 c).length ≤ nCtx

/-- Loading fails only when the file holds more tokens than the capacity given, or is not what was
last saved at its path. -/
def LoadsBack {σ : Type} (L : Llama σ) (V : View σ) : Prop :=
  ∀ c path room s saved, V.file s path = some saved → saved.tokens.length ≤ room →
    (L.stateSeqLoadFile c path room s).1.loaded ≠ 0

/-! ### The files alone -/

/-- **Every file is left alone**, but for the one that is saved or unlinked, in whatever is seen of a file. -/
structure OwnFiles {σ α : Type} (L : Llama σ) (file : σ → Bytes → α) : Prop where
  init : ∀ c s, file (L.initFromModel c s).2 = file s
  free : ∀ c s, file (L.free c s) = file s
  save : ∀ c path tokens s path', path' ≠ path →
    file (L.stateSeqSaveFile c path tokens s).2 path' = file s path'
  size : ∀ c s, file (L.stateSeqGetSize c s).2 = file s
  load : ∀ c path room s, file (L.stateSeqLoadFile c path room s).2 = file s
  remove : ∀ c p0 p1 s, file (L.memorySeqRm c p0 p1 s) = file s
  add : ∀ c p0 p1 delta s, file (L.memorySeqAdd c p0 p1 delta s) = file s
  unlink : ∀ path s path', path' ≠ path → file (L.removeFile path s) path' = file s path'
  clock : ∀ s, file (L.nowMs s).2 = file s

/-- What is documented of the tokens in the files: a save that works puts its tokens under its path, a
load that works hands back what is there, and no other call but an unlink touches a file. -/
structure KeepsFiles {σ : Type} (L : Llama σ) (file : σ → Bytes → Option (List Token)) : Prop where
  init : ∀ c s, file (L.initFromModel c s).2 = file s
  free : ∀ c s, file (L.free c s) = file s
  save : ∀ c path tokens s path', path' ≠ path →
    file (L.stateSeqSaveFile c path tokens s).2 path' = file s path'
  saved : ∀ c path tokens s, (L.stateSeqSaveFile c path tokens s).1 ≠ 0 →
    file (L.stateSeqSaveFile c path tokens s).2 path = some tokens
  size : ∀ c s, file (L.stateSeqGetSize c s).2 = file s
  load : ∀ c path room s, file (L.stateSeqLoadFile c path room s).2 = file s
  loaded : ∀ c path room s, (L.stateSeqLoadFile c path room s).1.loaded ≠ 0 →
    ∃ tokens, file s path = some tokens ∧ tokens.length ≤ room ∧
      (L.stateSeqLoadFile c path room s).1.tokensOut = tokens
  remove : ∀ c p0 p1 s, file (L.memorySeqRm c p0 p1 s) = file s
  add : ∀ c p0 p1 delta s, file (L.memorySeqAdd c p0 p1 delta s) = file s
  decode : ∀ c batch s, file (L.decode c batch s).2 = file s
  sample : ∀ c s, file (L.samplerSample c s).2 = file s
  unlink : ∀ path s path', path' ≠ path → file (L.removeFile path s) path' = file s path'
  clock : ∀ s, file (L.nowMs s).2 = file s

/-- So it is in whatever is seen of what is seen. -/
theorem OwnFiles.map {σ α β : Type} {L : Llama σ} {file : σ → Bytes → α} (own : OwnFiles L file)
    (f : α → β) : OwnFiles L fun s path => f (file s path) where
  init c s := by rw [own.init]
  free c s := by rw [own.free]
  save c path tokens s path' other := by rw [own.save c path tokens s path' other]
  size c s := by rw [own.size]
  load c path room s := by rw [own.load]
  remove c p0 p1 s := by rw [own.remove]
  add c p0 p1 delta s := by rw [own.add]
  unlink path s path' other := by rw [own.unlink path s path' other]
  clock s := by rw [own.clock]

theorem Documented.ownFiles {σ : Type} {L : Llama σ} {V : View σ} (doc : Documented L V) :
    OwnFiles L V.file where
  init c s := (doc.init c s).2
  free c s := (doc.free c s).2
  save c path tokens s := (doc.save c path tokens s).2
  size c s := (doc.size c s).2
  load c path room s := (doc.load c path room s).2
  remove c p0 p1 s := (doc.remove c p0 p1 s).2
  add c p0 p1 delta s := (doc.add c p0 p1 delta s).2
  unlink path s := (doc.unlink path s).2
  clock s := (doc.clock s).2

theorem KeepsFiles.ownFiles {σ : Type} {L : Llama σ} {file : σ → Bytes → Option (List Token)}
    (keeps : KeepsFiles L file) : OwnFiles L file where
  init := keeps.init
  free := keeps.free
  save := keeps.save
  size := keeps.size
  load := keeps.load
  remove := keeps.remove
  add := keeps.add
  unlink := keeps.unlink
  clock := keeps.clock

/-- The tokens in the files of a view. -/
def View.fileTokens {σ : Type} (V : View σ) (s : σ) (path : Bytes) : Option (List Token) :=
  (V.file s path).map Saved.tokens

theorem View.fileTokens_congr {σ : Type} {V : View σ} {s s' : σ} (same : V.file s' = V.file s) :
    V.fileTokens s' = V.fileTokens s := by
  funext path
  rw [fileTokens, fileTokens, same]

/-- The documentation of the calls says all of it. -/
theorem Documented.keepsFiles {σ : Type} {L : Llama σ} {V : View σ} (doc : Documented L V) :
    KeepsFiles L V.fileTokens where
  init c s := View.fileTokens_congr (doc.init c s).2
  free c s := View.fileTokens_congr (doc.free c s).2
  save c path tokens s path' other := by
    rw [View.fileTokens, View.fileTokens, (doc.save c path tokens s).2 path' other]
  saved c path tokens s worked := by
    rw [View.fileTokens, doc.saved c path tokens s worked]
    rfl
  size c s := View.fileTokens_congr (doc.size c s).2
  load c path room s := View.fileTokens_congr (doc.load c path room s).2
  loaded c path room s worked := by
    obtain ⟨saved, file, fits, read, _⟩ := doc.loaded c path room s worked
    exact ⟨saved.tokens, by rw [View.fileTokens, file]; rfl, fits, read⟩
  remove c p0 p1 s := View.fileTokens_congr (doc.remove c p0 p1 s).2
  add c p0 p1 delta s := View.fileTokens_congr (doc.add c p0 p1 delta s).2
  decode c batch s := View.fileTokens_congr (doc.decode c batch s).2
  sample c s := View.fileTokens_congr (doc.sample c s).2
  unlink path s path' other := by
    rw [View.fileTokens, View.fileTokens, (doc.unlink path s).2 path' other]
  clock s := View.fileTokens_congr (doc.clock s).2

end MiniV
