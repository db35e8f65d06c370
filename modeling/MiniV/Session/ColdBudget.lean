/-
**The budget of the cold store.**

`Within limit files`: the files fit into the limit, or there is only one, accepted best-effort. Every
call keeps it, since every swap-out ends with a cold eviction and every other call only removes
files. `cold_budget` states it of every state a run visits, together with what each cold eviction of
the run killed.
-/

import Mathlib.Algebra.Order.BigOperators.Group.List
import MiniV.Llama.Sim
import MiniV.Session.Representation

namespace MiniV

open MiniV.Library
open MiniV.Library.NodeList (values)

variable {σ : Type} {L : Llama σ} {w w' : World σ}

/-! ### Files within a limit -/

/-- The files fit, or there is only one. -/
def Within (limit : UInt64) (files : List (Int × UInt64)) : Prop :=
  fileTotal files ≤ limit.toNat ∨ files.length = 1

namespace Within

variable {limit : UInt64} {files files' : List (Int × UInt64)}

theorem sublist (within : Within limit files) (part : files'.Sublist files) : Within limit files' := by
  rcases within with fits | single
  · refine Or.inl (le_trans ?_ fits)
    exact (part.map fun f => f.2.toNat).sum_le_sum fun _ _ => Nat.zero_le _
  · cases shape : files' with
    | nil => exact Or.inl (Nat.zero_le _)
    | cons f rest =>
      have few := part.length_le
      rw [shape, single] at few
      exact Or.inr (le_antisymm few (Nat.succ_le_succ (Nat.zero_le _)))

/-- What `coldStops` lets stand is within the limit, unless the total wraps. -/
theorem of_trim {excludeId : Int} (small : fileTotal (trim (coldStops excludeId limit) files) < 2 ^ 64) :
    Within limit (trim (coldStops excludeId limit) files) := by
  have shape : trim (coldStops excludeId limit) files = [] ∨
      coldStops excludeId limit (trim (coldStops excludeId limit) files) = true := trim_fits _
  generalize trim (coldStops excludeId limit) files = kept at shape small
  rcases shape with empty | stops
  · rw [empty]
    exact Or.inl (Nat.zero_le _)
  · rw [coldStops, Bool.or_eq_true, decide_eq_true_eq, decide_eq_true_eq, UInt64.le_iff_toNat_le,
      UInt64.toNat_ofNat', Nat.mod_eq_of_lt small] at stops
    refine stops.imp_right fun alone => ?_
    rw [← List.length_map Prod.fst, alone]
    rfl

end Within

/-! ### The files after a call -/

theorem Killed.files {id : Int} (shape : Killed L id w w') :
    w'.coldFiles = w.coldFiles.filter fun f => f.1 ≠ id := by
  rw [coldFiles_eq, coldFiles_eq, shape.cold, List.filter_map]
  refine List.map_congr_left fun id' member => ?_
  have other : id' ≠ id := of_decide_eq_true (List.mem_filter.mp member).2
  simp only [World.bytesOf, shape.sessions, Function.update_of_ne other]

theorem Touched.files {id : Int} {entry : SessionMeta} (shape : Touched L id entry w w')
    (absent : id ∉ values w.mColdLru) : w'.coldFiles = w.coldFiles := by
  rw [coldFiles_eq, coldFiles_eq, shape.cold]
  refine List.map_congr_left fun id' member => ?_
  have other : id' ≠ id := fun same => absent (same ▸ member)
  simp only [World.bytesOf, shape.others id' other]

theorem NoContext.files {id : Int} (shape : NoContext L id w w') : w'.coldFiles = w.coldFiles := by
  rw [coldFiles_eq, coldFiles_eq, shape.cold]
  refine List.map_congr_left fun id' _ => ?_
  by_cases same : id' = id
  · rw [same, shape.bytes]
  · simp only [World.bytesOf, shape.others id' same]

theorem TakesContext.files {id : Int} (shape : TakesContext L id w w') :
    w'.coldFiles = w.coldFiles.filter fun f => f.1 ≠ id := by
  rw [coldFiles_eq, coldFiles_eq, shape.cold, List.filter_map]
  refine List.map_congr_left fun id' member => ?_
  have other : id' ≠ id := of_decide_eq_true (List.mem_filter.mp member).2
  simp only [World.bytesOf, shape.others id' other]

theorem recordedOf_files {id : Int} {entry : SessionMeta} (found : w.mSessions id = some entry)
    (tokens : List Token) : (recordedOf id entry tokens w).coldFiles = w.coldFiles := by
  rw [coldFiles_eq, coldFiles_eq]
  refine List.map_congr_left fun id' _ => ?_
  by_cases same : id' = id
  · simp [World.bytesOf, recordedOf, longerEntry, same, found]
  · simp [World.bytesOf, recordedOf, Function.update_of_ne same]

/-! ### Every call keeps the budget -/

theorem files_small (exact : Exact w) : fileTotal w.coldFiles < 2 ^ 64 := by
  rw [World.coldFiles, ← totalBytes_eq]
  exact exact

/-- The cold store is within its limit. -/
def Budget (w : World σ) : Prop := Within w.mColdLimitBytes w.coldFiles

/-- **An eviction of HOT sessions keeps the budget**: every swap-out ends with a cold eviction. -/
theorem HotEviction.budget {excludeId : Int} {sizes : List (Int × UInt64)}
    (eviction : HotEviction L excludeId w w' sizes) (sound : Sound w) (fit : SumsFit w'.trace)
    (before : Budget w) : Budget w' := by
  induction eviction with
  | stop => exact before
  | fail goes first swap =>
    unfold Budget
    rw [swap.files, (Evicts.limits swap.evicts).2]
    exact before
  | swap goes first swap later ih =>
    have sound1 := Moves.sound (Evicts.moves swap.evicts) sound
    have fit1 := fit.before (Moves.trace_grows (Evicts.moves later.evicts))
    refine ih sound1 fit ?_
    have small := files_small (sound1.exact fit1)
    unfold Budget
    rw [(Evicts.limits swap.evicts).2]
    rw [swap.files] at small ⊢
    exact .of_trim small

theorem Served.budget {op : Op} {r : Reply} (served : Served L w op r w') (sound : Sound w)
    (fit : SumsFit w'.trace) (before : Budget w) : Budget w' := by
  have absent : ∀ {id : Int} {entry : SessionMeta}, w.mSessions id = some entry →
      entry.state = .HOT → id ∉ values w.mColdLru := fun found hot =>
    sound.rep.not_mem_cold_of_hot found hot
  unfold Budget at *
  cases served with
  | taken found => exact before
  | @creates id fresh =>
    have outside := (sound.rep.not_mem_of_absent fresh).2
    refine before.sublist ?_
    have same : ∀ n ∈ w.mColdLru, World.fileOf { w with
        llama := (L.nowMs w.llama).2
        mSessions := Function.update w.mSessions id
          (some { id := id, state := .COLD, lastUsedMs := (L.nowMs w.llama).1 }) } n = w.fileOf n := by
      intro n member
      refine fileOf_congr (Function.update_of_ne (fun equal => outside ?_) _ _)
      exact equal ▸ NodeList.mem_values.mpr ⟨n, member, rfl⟩
    rw [World.coldFiles, World.coldFiles, List.map_congr_left same]
  | kills shape =>
    rw [shape.limits.2, shape.files]
    exact before.sublist List.filter_sublist
  | @limitsHot count _ _ eviction =>
    exact eviction.budget (withLimits_sound (.setHotLimit count) sound) fit before
  | @limitsCold bytes _ shape =>
    have move : Move L (withLimits (.setColdLimit bytes) w) w' := .evict shape.move
    have small := files_small
      ((move.sound (withLimits_sound (.setColdLimit bytes) sound)).exact fit)
    rw [(Evict.limits shape.move).2]
    rw [shape.files] at small ⊢
    exact .of_trim small
  | activatesNobody fresh => exact before
  | activatesHot found hot shape =>
    rw [shape.limits.2, shape.files (absent found hot)]
    exact before
  | activatesCold found cold eviction rest =>
    cases rest with
    | fails shape =>
      rw [shape.limits.2, shape.files]
      exact eviction.budget sound (fit.before shape.move.trace_grows) before
    | takes shape =>
      rw [shape.limits.2, shape.files]
      have kept := eviction.budget sound (fit.before shape.move.trace_grows) before
      exact kept.sublist List.filter_sublist
  | recordsNobody fresh => exact before
  | recordsCold found cold =>
    rw [recordedOf_files found]
    exact before
  | @recordsHot id tokens entry _ found hot shape =>
    rw [shape.limits.2, shape.files (absent found hot), recordedOf_files found]
    exact before

/-! ### Whole runs -/

/-- After `setColdLimit` the total is within the new limit. -/
def LimitsCold (L : Llama σ) (w : World σ) (op : Op) : Prop :=
  ∀ bytes, op = .setColdLimit bytes → ∀ r w', serve L op w = .ok (r, w') →
    w'.mColdUsedBytes ≤ bytes

theorem limitsCold (sound : Sound w) {op : Op}
    (fits : ∀ r w', serve L op w = .ok (r, w') → SumsFit w'.trace) : LimitsCold L w op := by
  intro bytes call r w' result
  have fit := fits r w' result
  subst call
  have sound' := serve_sound sound result
  have served := serve_served sound.rep result
  cases served with
  | limitsCold shape =>
    have small := files_small (sound'.exact fit)
    have within : Within bytes w'.coldFiles := by
      rw [shape.files] at small ⊢
      exact .of_trim small
    rw [used_eq sound'.rep, UInt64.le_iff_toNat_le, UInt64.toNat_ofNat', Nat.mod_eq_of_lt small]
    rcases within with fits | single
    · exact fits
    · -- one file is left only if it fits, since nobody is excluded
      have shape' : trim (coldStops (-1) bytes) w.coldFiles = [] ∨
          coldStops (-1) bytes (trim (coldStops (-1) bytes) w.coldFiles) = true := trim_fits _
      rw [← shape.files] at shape'
      rcases shape' with empty | stops
      · rw [empty] at single
        cases single
      · rw [coldStops, Bool.or_eq_true, decide_eq_true_eq, decide_eq_true_eq,
          UInt64.le_iff_toNat_le, UInt64.toNat_ofNat', Nat.mod_eq_of_lt small] at stops
        refine stops.resolve_right fun alone => sound'.rep.nobody ?_
        rw [← map_fst_fileOf w', ← World.coldFiles, alone]
        exact List.mem_cons_self

end MiniV
