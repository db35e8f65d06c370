/-
**A small llama that behaves as documented.**

`sim` keeps the cells of each context, the saved files, the tokens its sampler will return and a
clock. Contexts hold up to `capacity` tokens; a context whose sequence has `n` cells is saved in
`header + n` bytes. It has the documented behaviour (`sim_documented`), fails to decode only into a
full context (`sim_capacity`) and loads back what it saved (`sim_loadsBack`), so a development about
every such llama is about this one.
-/

import MiniV.Llama.Contract

namespace MiniV

open MiniV.Library

/-- The outside of the small llama. -/
structure Sim where
  kv : Ctx → Cells
  files : Bytes → Option Saved
  script : List Token
  clock : Int

/-- No cells, no files; the sampler will return the tokens of `script`. -/
def Sim.start (script : List Token) : Sim where
  kv := fun _ => []
  files := fun _ => none
  script := script
  clock := 0

/-- The token that ends a generation. -/
def simEog : Token := 2

/-- The small llama. -/
def sim (capacity : Nat) (header : UInt64) : Llama Sim where
  initFromModel c s := (true, { s with kv := Function.update s.kv c [] })
  free c s := { s with kv := Function.update s.kv c [] }
  stateSeqSaveFile c path tokens s :=
    (1, { s with files := Function.update s.files path (some ⟨tokens, s.kv c⟩) })
  stateSeqGetSize c s := (header + UInt64.ofNat (s.kv c).length, s)
  stateSeqLoadFile c path room s :=
    match s.files path with
    | none => (⟨0, []⟩, s)
    | some saved =>
      if saved.tokens.length ≤ room then
        (⟨1, saved.tokens⟩, { s with kv := Function.update s.kv c saved.cells })
      else (⟨0, []⟩, s)
  memorySeqRm c p0 p1 s := { s with kv := Function.update s.kv c (removeRange p0 p1 (s.kv c)) }
  memorySeqAdd c p0 p1 delta s :=
    { s with kv := Function.update s.kv c (shiftRange p0 p1 delta (s.kv c)) }
  decode c batch s :=
    if (s.kv c).length + batch.length ≤ capacity then
      (0, { s with kv := Function.update s.kv c (s.kv c ++ placeFrom (nextPos (s.kv c)) batch) })
    else (1, s)
  samplerSample _ s :=
    match s.script with
    | [] => (simEog, s)
    | t :: script => (t, { s with script := script })
  tokenize prompt := prompt.map fun b => (b.toNat : Int)
  vocabIsEog t := t = simEog
  tokenToPiece t := (1, [UInt8.ofNat t.toNat])
  removeFile path s := { s with files := Function.update s.files path none }
  nowMs s := (s.clock, { s with clock := s.clock + 1 })

/-- What the small llama shows. -/
def simView : View Sim where
  kv := Sim.kv
  file := Sim.files

variable (capacity : Nat) (header : UInt64)

theorem sim_documented : Documented (sim capacity header) simView where
  init _ _ := ⟨fun _ other => Function.update_of_ne other _ _, rfl⟩
  initEmpty _ _ _ := Function.update_self ..
  free _ _ := ⟨fun _ other => Function.update_of_ne other _ _, rfl⟩
  save _ _ _ _ := ⟨rfl, fun _ other => Function.update_of_ne other _ _⟩
  saved _ _ _ _ _ := Function.update_self ..
  size _ _ := ⟨rfl, rfl⟩
  load c path room s := by
    unfold sim
    dsimp only
    split
    · exact ⟨fun _ _ => rfl, rfl⟩
    · split
      · exact ⟨fun _ other => Function.update_of_ne other _ _, rfl⟩
      · exact ⟨fun _ _ => rfl, rfl⟩
  loaded c path room s := by
    unfold sim
    dsimp only
    split
    · exact fun failed => absurd rfl failed
    · rename_i saved found
      split
      · rename_i fits
        exact fun _ => ⟨saved, found, fits, rfl, Function.update_self ..⟩
      · exact fun failed => absurd rfl failed
  remove _ _ _ _ := ⟨fun _ other => Function.update_of_ne other _ _, rfl⟩
  removed _ _ _ _ := Function.update_self ..
  add _ _ _ _ _ := ⟨fun _ other => Function.update_of_ne other _ _, rfl⟩
  added _ _ _ _ _ := Function.update_self ..
  decode c batch s := by
    unfold sim
    dsimp only
    split
    · exact ⟨fun _ other => Function.update_of_ne other _ _, rfl⟩
    · exact ⟨fun _ _ => rfl, rfl⟩
  decoded c batch s := by
    unfold sim
    dsimp only
    split
    · exact Function.update_self ..
    · rfl
  sample c s := by
    unfold sim
    dsimp only
    split
    · exact ⟨rfl, rfl⟩
    · exact ⟨rfl, rfl⟩
  unlink _ _ := ⟨rfl, fun _ other => Function.update_of_ne other _ _⟩
  clock _ := ⟨rfl, rfl⟩

theorem sim_capacity : Capacity (sim capacity header) simView capacity := by
  intro c batch s
  unfold sim
  dsimp only
  by_cases fits : (s.kv c).length + batch.length ≤ capacity
  · rw [if_pos fits]
    intro _
    show (Function.update s.kv c _ c).length ≤ capacity
    rw [Function.update_self, List.length_append, length_placeFrom]
    exact fits
  · rw [if_neg fits]
    intro failed
    exact absurd failed Int.one_ne_zero

theorem sim_loadsBack : LoadsBack (sim capacity header) simView := by
  intro c path room s saved found fits
  have file : s.files path = some saved := found
  unfold sim
  dsimp only
  rw [file]
  dsimp only
  rw [if_pos fits]
  show (1 : UInt64) ≠ 0
  decide

end MiniV
