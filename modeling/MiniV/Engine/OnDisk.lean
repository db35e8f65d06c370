/-
**The cold budget and the bytes on disk.**

`swapOut` writes the file of a session and then asks for the size of its state, and it is the second
number that `mColdUsedBytes` adds up. A file holds a header and the tokens besides the state, so every
file is longer than what is counted for it.

* `Move.longer`: no call makes a file shorter or counts more for it;
* `countsDisk_iff`: the total is that of the files just when there is none;
* `Served.cold_empty_iff`: the first one comes with the first session that is swapped out;
* `cold_bytes`: so the total is right throughout a run exactly when the run swaps nobody out.
-/

import Mathlib.Algebra.Order.BigOperators.Group.List
import MiniV.Engine.SaveFails
import MiniV.Engine.Reached

namespace MiniV

open MiniV.Library
open MiniV.Library.NodeList (values)

variable {σ : Type} {L : Llama σ} {w w' : World σ} {id : Int} {entry : SessionMeta} {c : Ctx}

/-! ### Sizes -/

/-- **What is documented of the sizes.** A save returns the bytes of the file it wrote: a header, the
list of the tokens and the state. `llama_state_seq_get_size` returns those of the state alone. -/
structure SizesOnDisk (L : Llama σ) (disk : σ → Bytes → Nat) (state : σ → Ctx → UInt64)
    (header token : Nat) : Prop extends OwnFiles L disk where
  written : ∀ c path tokens s, (L.stateSeqSaveFile c path tokens s).1 ≠ 0 →
    (L.stateSeqSaveFile c path tokens s).1.toNat = disk (L.stateSeqSaveFile c path tokens s).2 path
  layout : ∀ c path tokens s, (L.stateSeqSaveFile c path tokens s).1 ≠ 0 →
    disk (L.stateSeqSaveFile c path tokens s).2 path =
      header + token * tokens.length + (state s c).toNat
  reads : ∀ c path tokens s, state (L.stateSeqSaveFile c path tokens s).2 c = state s c
  measured : ∀ c s, (L.stateSeqGetSize c s).1 = state s c
  positive : 0 < header

/-- The bytes of the swap file of a session. -/
def swapFileSize (disk : σ → Bytes → Nat) (w : World σ) (id : Int) : Nat :=
  match w.mSessions id with
  | none => 0
  | some entry => disk w.llama entry.swapFilePath

/-- The bytes of the swap files of the sessions in `mColdLru`. -/
def onDisk (disk : σ → Bytes → Nat) (w : World σ) : Nat :=
  (w.mColdLru.map fun n => swapFileSize disk w n.val).sum

/-- **The total counts the bytes on disk**, and so they are within the limit whenever more than one
session is cold. -/
structure CountsDisk (disk : σ → Bytes → Nat) (w : World σ) : Prop where
  total : w.mColdUsedBytes.toNat = onDisk disk w
  within : 1 < w.mColdLru.length → onDisk disk w ≤ w.mColdLimitBytes.toNat

/-- Every swap file has a header more than what is counted for it. -/
def Longer (disk : σ → Bytes → Nat) (header : Nat) (w : World σ) : Prop :=
  ∀ id entry, w.mSessions id = some entry → IsSwapped entry →
    entry.swapFileBytes.toNat + header ≤ disk w.llama entry.swapFilePath

/-! ### Every file is longer -/

section Longer

variable {disk : σ → Bytes → Nat} {state : σ → Ctx → UInt64} {header token : Nat}

/-- One session and its own file change. -/
theorem Longer.update {after : Option SessionMeta} (longer : Longer disk header w) (own : OwnPaths w)
    (sessions : w'.mSessions = Function.update w.mSessions id after)
    (files : ∀ path, path ≠ swapPathFor w id → disk w'.llama path = disk w.llama path)
    (here : ∀ entry, after = some entry → IsSwapped entry →
      entry.swapFileBytes.toNat + header ≤ disk w'.llama entry.swapFilePath) :
    Longer disk header w' := by
  intro id' entry found swapped
  rw [sessions] at found
  by_cases same : id' = id
  · subst same
    rw [Function.update_self] at found
    exact here entry found swapped
  · rw [Function.update_of_ne same] at found
    rw [files _ (own.other same found)]
    exact longer id' entry found swapped

/-- A HOT session has no file, and one that is gone has none. -/
theorem Longer.leaves {after : Option SessionMeta} (longer : Longer disk header w) (own : OwnPaths w)
    (sessions : w'.mSessions = Function.update w.mSessions id after)
    (files : ∀ path, path ≠ swapPathFor w id → disk w'.llama path = disk w.llama path)
    (fileless : ∀ entry, after = some entry → ¬ IsSwapped entry) : Longer disk header w' :=
  longer.update own sessions files fun entry same swapped => absurd swapped (fileless entry same)

/-- A session whose file and count stay. -/
theorem Longer.keeps {entry' : SessionMeta} (longer : Longer disk header w) (own : OwnPaths w)
    (found : w.mSessions id = some entry)
    (sessions : w'.mSessions = Function.update w.mSessions id (some entry'))
    (files : disk w'.llama = disk w.llama) (state : entry'.state = entry.state)
    (path : entry'.swapFilePath = entry.swapFilePath)
    (bytes : entry'.swapFileBytes = entry.swapFileBytes) : Longer disk header w' := by
  refine longer.update own sessions (fun path _ => congrFun files path) (of_some fun swapped => ?_)
  rw [bytes, files, path]
  exact longer id entry found ⟨state.symm.trans swapped.1, path ▸ swapped.2⟩

variable (sizes : SizesOnDisk L disk state header token)

include sizes

/-- **What a swap-out counts** is the file it has written, less the header and the tokens. -/
theorem measureOf_disk (saved : (saveOf L c entry w).1 ≠ 0) :
    (measureOf L c entry w).1.toNat + header + token * entry.tokens.length =
      disk (measureOf L c entry w).2 (swapPathFor w entry.id) := by
  rw [measureOf, sizes.measured, sizes.size, saveOf, sizes.layout _ _ _ _ saved, sizes.reads]
  omega

theorem Longer.coldKilled (longer : Longer disk header w) (own : OwnPaths w) {n : Node Int}
    (found : w.mSessions n.val = some entry) (swapped : IsSwapped entry) :
    Longer disk header (coldKilled L n entry w) :=
  longer.leaves own rfl (fun _ => coldKilled_files sizes.toOwnFiles own found swapped) of_none

theorem Longer.dropCold {dropped kept : List (Node Int)} (longer : Longer disk header w) (rep : Rep w)
    (own : OwnPaths w) (split : w.mColdLru = dropped ++ kept) :
    Longer disk header (dropCold L dropped w) := by
  refine (Move.dropCold_induction (P := fun w' => OwnPaths w' ∧ Longer disk header w') rep split
    ⟨own, longer⟩ ?_).2
  rintro w' n entry rep' ⟨own', longer'⟩ _ inside found swapped
  exact ⟨(Move.killCold found inside).ownPaths rep' own', longer'.coldKilled sizes own' found swapped⟩

theorem Evict.longer (move : Evict L w w') (rep : Rep w) (own : OwnPaths w)
    (longer : Longer disk header w) : Longer disk header w' := by
  cases move with
  | @saveFailed id entry c found hot holds failed =>
    have keyed := rep.keyed id entry found
    refine longer.leaves own (update_found found).symm (fun path other => ?_)
      (of_some (not_swapped_of_hot hot))
    exact saveOf_files sizes.toOwnFiles c entry w (keyed ▸ other)
  | @prune id entry c found hot holds saved large exceeds =>
    have keyed := rep.keyed id entry found
    refine longer.leaves own rfl (fun path other => ?_) (of_some (not_swapped_of_hot hot))
    exact (congrFun (pruneOf_files sizes.toOwnFiles c _ _) path).trans
      (measureOf_files sizes.toOwnFiles c entry w (keyed ▸ other))
  | @swapOut id entry c it found hot holds full first saved accepted =>
    have keyed := rep.keyed id entry found
    have freed := sizes.free c (measureOf L c entry w).2
    refine longer.update own rfl (fun path other => ?_) (of_some fun _ => ?_)
    · exact (congrFun freed path).trans
        (measureOf_files sizes.toOwnFiles c entry w (keyed ▸ other))
    · show (measureOf L c entry w).1.toNat + header ≤
        disk (L.free c (measureOf L c entry w).2) (swapPathFor w id)
      rw [freed, ← keyed, ← measureOf_disk sizes saved]
      exact Nat.le_add_right _ _
  | coldEvict excludeId split stopped => exact longer.dropCold sizes rep own split

/-- **No move** breaks it. -/
theorem Move.longer (move : Move L w w') (rep : Rep w) (own : OwnPaths w)
    (longer : Longer disk header w) : Longer disk header w' := by
  cases move with
  | evict move => exact Evict.longer sizes move rep own longer
  | create id absent =>
    rw [createSession_new absent]
    refine longer.leaves own rfl (fun path _ => congrFun (sizes.clock _) path) (of_some ?_)
    exact fun swapped => swapped.2 rfl
  | killHot found hot holds inside =>
    exact longer.leaves own rfl (fun path _ => congrFun (sizes.free _ _) path) of_none
  | @killCold n entry found inside =>
    have swapped : IsSwapped entry :=
      rep.cold.holds_of_mem (NodeList.mem_values.mpr ⟨n, inside, rfl⟩) found
    exact longer.coldKilled sizes own found swapped
  | killNew found cold noFile => exact longer.leaves own rfl (fun _ _ => rfl) of_none
  | record tokens found => exact longer.keeps own found rfl rfl rfl rfl rfl
  | touch found hot inside => exact longer.keeps own found rfl (sizes.clock _) rfl rfl rfl
  | initFailed failed =>
    intro id entry found swapped
    show _ ≤ disk (L.initFromModel w.created w.llama).2 _
    rw [sizes.init]
    exact longer id entry found swapped
  | @loadFailed id entry found swapped initOk failed =>
    have files : disk (L.free w.created (loadOf L entry w).2) = disk w.llama := by
      rw [sizes.free, loadOf_files sizes.toOwnFiles]
    exact longer.keeps own found rfl files rfl rfl rfl
  | @swapIn id entry it found swapped inside initOk loaded clock reads =>
    have path := (own id entry found).resolve_left swapped.2
    refine longer.leaves own rfl (fun path' other => ?_) (of_some (not_swapped_of_hot rfl))
    show disk clock.2 path' = disk w.llama path'
    rw [reads, sizes.clock, sizes.unlink _ _ _ (path ▸ other), loadOf_files sizes.toOwnFiles]
  | firstIn found cold noFile initOk clock reads =>
    refine longer.leaves own rfl (fun path _ => ?_) (of_some (not_swapped_of_hot rfl))
    show disk clock.2 path = disk w.llama path
    rw [reads, sizes.clock, sizes.init]

theorem Moves.longer (moves : Moves L w w') (rep : Rep w) (own : OwnPaths w)
    (longer : Longer disk header w) : Longer disk header w' := by
  induction moves with
  | refl => exact longer
  | tail before move ih =>
    exact move.longer sizes (Moves.rep before rep) (Moves.ownPaths before rep own) ih

/-- **Every call** keeps the files longer than what is counted. -/
theorem serve_longer {op : Op} {r : Reply} (rep : Rep w) (own : OwnPaths w)
    (longer : Longer disk header w) (served : serve L op w = .ok (r, w')) : Longer disk header w' := by
  have limits : Longer disk header (withLimits op w) := by
    cases op with
    | _ => exact longer
  exact Moves.longer sizes (serve_served rep served).moves (withLimits_rep op rep)
    (withLimits_ownPaths op own) limits

end Longer

/-! ### The total -/

section Total

variable {disk : σ → Bytes → Nat} {header : Nat}

/-- **The files have more bytes than are counted**, a header for each of them at least. -/
theorem Longer.short (longer : Longer disk header w) (rep : Rep w) :
    w.mColdUsedBytes.toNat + header * w.mColdLru.length ≤ onDisk disk w := by
  have one : ∀ n ∈ w.mColdLru, fileBytes w.mSessions n.val + header ≤ swapFileSize disk w n.val := by
    intro n member
    obtain ⟨entry, found, swapped⟩ := rep.cold.owner n member
    rw [fileBytes, swapFileSize, found]
    exact longer n.val entry found swapped
  calc w.mColdUsedBytes.toNat + header * w.mColdLru.length
      ≤ totalBytes w.mSessions w.mColdLru + header * w.mColdLru.length := by
        rw [rep.total]
        exact Nat.add_le_add_right (Nat.mod_le _ _) _
    _ = (w.mColdLru.map fun n => fileBytes w.mSessions n.val + header).sum := by
        rw [List.sum_map_add, List.map_const', List.sum_replicate_nat, Nat.mul_comm]
        rfl
    _ ≤ onDisk disk w := List.sum_le_sum one

/-- **The total is that of the files** just when there are none. -/
theorem countsDisk_iff (longer : Longer disk header w) (rep : Rep w) (positive : 0 < header) :
    CountsDisk disk w ↔ w.mColdLru = [] := by
  constructor
  · intro counts
    by_contra some'
    have short := longer.short rep
    rw [counts.total] at short
    have more := Nat.mul_pos positive (List.length_pos_iff.mpr some')
    omega
  · intro empty
    have total := rep.total
    rw [empty] at total
    refine ⟨?_, fun more => ?_⟩
    · rw [total, onDisk, empty]
      rfl
    · rw [empty] at more
      exact absurd more (by decide)

end Total

/-! ### The first file -/

/-- The session that is swapped out first can be saved. -/
def VictimSaves (L : Llama σ) (w : World σ) : Prop :=
  ∃ n ∈ w.mHotLru.find? fun n => n.val ≠ -1, ∃ entry ∈ w.mSessions n.val, ∃ c ∈ entry.ctx,
    SavesWork L c (entry.tokens.length + 1) entry w

/-- Whom a call makes room for: the COLD session that it activates, or nobody. -/
def roomFor (w : World σ) : Op → Option Int
  | .activateForInfer id => if ∃ entry ∈ w.mSessions id, entry.state = .COLD then some id else none
  | .setHotLimit _ => some (-1)
  | .createSession _ | .killSession _ | .setColdLimit _ | .recordTokens _ _ => none

/-- **A call swaps a session out**: it is to make room, there is none, and the first session of the hot
list can be saved. -/
def SwapsOut (L : Llama σ) (w : World σ) (op : Op) : Prop :=
  ∃ excludeId ∈ roomFor w op, ¬ HotStop excludeId (withLimits op w) ∧ VictimSaves L (withLimits op w)

instance instDecidableSavesWork (c : Ctx) :
    ∀ rounds entry (w : World σ), Decidable (SavesWork L c rounds entry w)
  | 0, _, _ => isTrue trivial
  | rounds + 1, entry, w =>
    have := instDecidableSavesWork c rounds (prunedEntry entry) (prunedOf L c entry w)
    inferInstanceAs (Decidable ((saveOf L c entry w).1 ≠ 0 ∧
      (Accepted (measureOf L c entry w).1 entry w ∨
        SavesWork L c rounds (prunedEntry entry) (prunedOf L c entry w))))

instance (excludeId : Int) (w : World σ) : Decidable (HotStop excludeId w) :=
  inferInstanceAs (Decidable (¬ (_ ∧ _) ∨ _))

instance (w : World σ) : Decidable (VictimSaves L w) :=
  inferInstanceAs (Decidable (∃ n ∈ _, ∃ entry ∈ _, ∃ c ∈ _, _))

instance (w : World σ) (op : Op) : Decidable (SwapsOut L w op) :=
  inferInstanceAs (Decidable (∃ excludeId ∈ _, _ ∧ _))

theorem victimSaves_iff {n : Node Int} (first : (w.mHotLru.find? fun n => n.val ≠ -1) = some n)
    (found : w.mSessions n.val = some entry) (holds : entry.ctx = some c) :
    VictimSaves L w ↔ SavesWork L c (entry.tokens.length + 1) entry w := by
  constructor
  · rintro ⟨n', first', entry', found', c', holds', works⟩
    obtain rfl := Option.some.inj (first.symm.trans first')
    obtain rfl := Option.some.inj (found.symm.trans found')
    obtain rfl := Option.some.inj (holds.symm.trans holds')
    exact works
  · exact fun works => ⟨n, first, entry, found, c, holds, works⟩

/-- **Nobody is swapped out** exactly when there is room, or the first victim cannot be saved. -/
theorem HotEviction.nobody_iff {excludeId : Int} {sizes : List (Int × UInt64)} (rep : Rep w)
    (eviction : HotEviction L excludeId w w' sizes) :
    sizes = [] ↔ ¬ (¬ HotStop excludeId w ∧ VictimSaves L w) := by
  have fails : ∀ {n : Node Int}, (w.mHotLru.find? fun n => n.val ≠ -1) = some n →
      ((∃ w', swapOut L n.val w = .ok (false, w')) ↔ ¬ VictimSaves L w) := by
    intro n first
    obtain ⟨entry, found, hot⟩ := rep.hot.owner n (Move.inside_of_first first).1
    obtain ⟨c, holds⟩ := rep.ctx_of_hot found hot
    rw [victimSaves_iff first found holds]
    have own := rep.keyed n.val entry found
    rw [← own] at found ⊢
    exact swapOut_fails_iff found holds
  cases eviction with
  | stop stops => exact iff_of_true rfl fun both => both.1 stops
  | fail goes first swap => exact iff_of_true rfl fun both => (fails first).mp ⟨_, swap.result⟩ both.2
  | swap goes first swap later =>
    refine iff_of_false (List.cons_ne_nil _ _) fun none => none ⟨goes, ?_⟩
    by_contra broken
    obtain ⟨w1, failed⟩ := (fails first).mpr broken
    rw [swap.result] at failed
    cases failed

/-- The last session that is swapped out is in the cold list. -/
theorem HotEviction.cold_iff {excludeId : Int} {sizes : List (Int × UInt64)} (rep : Rep w)
    (eviction : HotEviction L excludeId w w' sizes) (away : Away excludeId w)
    (empty : w.mColdLru = []) :
    (values w'.mColdLru).filter (· ≠ excludeId) = [] ↔ sizes = [] := by
  have files := eviction.coldFiles
  have none : w.coldFiles = [] := by rw [World.coldFiles, empty]; rfl
  rw [none] at files
  have alone : ∀ f : Int × UInt64, coldStops f.1 w.mColdLimitBytes [f] = true := by
    intro f
    simp [coldStops]
  constructor
  · intro nobody
    by_contra some'
    have last := List.getLast?_eq_some_getLast some'
    generalize sizes.getLast some' = f at last
    have here : f ∈ w'.coldFiles := by
      rw [files]
      exact last_mem_admitAll alone last
    have inside : f.1 ∈ values w'.mColdLru := by
      rw [← map_fst_fileOf w']
      exact List.mem_map.mpr ⟨f, here, rfl⟩
    have hot := eviction.victims_hot f (List.mem_of_getLast? last)
    have other : f.1 ≠ excludeId := by
      rintro rfl
      rcases away with nobody' | outside
      · exact (Evicts.rep eviction.evicts rep).nobody (nobody' ▸ inside)
      · exact outside hot
    exact List.filter_eq_nil_iff.mp nobody f.1 inside (by simpa using other)
  · rintro rfl
    have cold : w'.mColdLru = [] := List.map_eq_nil_iff.mp files
    rw [cold]
    rfl

/-! ### Calls -/

/-- While the cold list is empty, a COLD session has no file. -/
theorem Rep.fileless (rep : Rep w) (empty : w.mColdLru = []) (found : w.mSessions id = some entry)
    (cold : entry.state = .COLD) : entry.swapFilePath = [] := by
  by_contra file
  obtain ⟨it, _, inside⟩ := rep.cold.node id entry found ⟨cold, file⟩
  rw [empty] at inside
  cases inside

/-- So no activation kills its own session. -/
theorem spares_of_empty (rep : Rep w) (empty : w.mColdLru = []) (op : Op) :
    killsItself L op w = false := by
  have roomy : Roomy L w op := by
    cases op with
    | activateForInfer id =>
      intro entry found
      exact (hot_or_cold entry).imp_right fun cold => Or.inl (rep.fileless empty found cold)
    | _ => trivial
  exact (roomy.keepsOwn rep).spares

/-- **A call leaves the cold list empty** exactly when it swaps nobody out. -/
theorem Served.cold_empty_iff {op : Op} {r : Reply} (served : Served L w op r w') (rep : Rep w)
    (empty : w.mColdLru = []) : w'.mColdLru = [] ↔ ¬ SwapsOut L w op := by
  have nobody : roomFor w op = none → w'.mColdLru = [] → (w'.mColdLru = [] ↔ ¬ SwapsOut L w op) := by
    intro nobody after
    refine iff_of_true after ?_
    rintro ⟨excludeId, some', _⟩
    rw [nobody] at some'
    cases some'
  have noValues : values w.mColdLru = [] := by rw [empty]; rfl
  have noFiles : w.coldFiles = [] := by rw [World.coldFiles, empty]; rfl
  cases served with
  | taken | creates | recordsNobody | recordsCold => exact nobody rfl empty
  | activatesNobody absent =>
    refine nobody ?_ empty
    simp [roomFor, absent]
  | kills shape =>
    have cold := shape.cold
    rw [noValues] at cold
    exact nobody rfl (List.map_eq_nil_iff.mp cold)
  | @limitsHot count _ sizes eviction =>
    have rep0 := withLimits_rep (.setHotLimit count) rep
    have rep' := Evicts.rep eviction.evicts rep0
    have cold := eviction.cold_iff rep0 nobody_away empty
    rw [filter_absent rep'.nobody, values, List.map_eq_nil_iff] at cold
    rw [cold, eviction.nobody_iff rep0]
    simp [SwapsOut, roomFor]
  | limitsCold shape =>
    have files := shape.files
    rw [noFiles, trim_nil] at files
    exact nobody rfl (List.map_eq_nil_iff.mp files)
  | activatesHot found hot shape =>
    refine nobody ?_ (shape.cold.trans empty)
    simp [roomFor, found, hot]
  | recordsHot found hot shape => exact nobody rfl (shape.cold.trans empty)
  | @activatesCold id entry w1 _ c sizes found cold eviction rest =>
    have rep1 := Evicts.rep eviction.evicts rep
    have away : Away id w := Or.inr (rep.not_mem_hot_of_cold found cold)
    have outside : id ∉ values w1.mColdLru := by
      intro member
      have noFile := rep.fileless empty found cold
      have still := Evicts.new_entry eviction.evicts rep found cold noFile
      exact (rep1.cold.holds_of_mem member still).2 noFile
    have swaps : ¬ SwapsOut L w (.activateForInfer id) ↔ sizes = [] := by
      rw [eviction.nobody_iff rep]
      simp [SwapsOut, roomFor, found, cold, withLimits]
    rw [swaps, ← eviction.cold_iff rep away empty, filter_absent outside]
    cases rest with
    | fails shape => rw [shape.cold, values, List.map_eq_nil_iff]
    | takes shape =>
      have list := shape.cold
      rw [filter_absent outside] at list
      rw [← list, values, List.map_eq_nil_iff]

/-- **The cold budget counts the bytes on disk** throughout a run exactly when no call of the run swaps a
session out. -/
theorem cold_bytes {disk : σ → Bytes → Nat} {state : σ → Ctx → UInt64} {header token : Nat}
    (sizes : SizesOnDisk L disk state header token) (nCtx : Nat) (swapDir : Bytes) (llama : σ)
    (ops : List Op) :
    Throughout (serve L) (CountsDisk disk) ops (World.start nCtx swapDir llama) ↔
      Along (serve L) (fun w op => ¬ SwapsOut L w op) ops (World.start nCtx swapDir llama) := by
  have kept : ∀ (w : World σ) (op : Op) (r : Reply) (w' : World σ),
      Rep w ∧ OwnPaths w ∧ Longer disk header w → serve L op w = .ok (r, w') →
        Rep w' ∧ OwnPaths w' ∧ Longer disk header w' := by
    rintro w op r w' ⟨rep, own, longer⟩ served
    exact ⟨serve_rep rep served, serve_ownPaths rep own served,
      serve_longer sizes rep own longer served⟩
  have start : Rep (World.start nCtx swapDir llama) ∧ OwnPaths (World.start nCtx swapDir llama) ∧
      Longer disk header (World.start nCtx swapDir llama) := by
    refine ⟨.start nCtx swapDir llama, ?_, ?_⟩
    all_goals
      intro id entry found
      cases found
  have exactly : ∀ {w : World σ}, Rep w ∧ OwnPaths w ∧ Longer disk header w →
      (CountsDisk disk w ↔ w.mColdLru = []) := fun inv =>
    countsDisk_iff inv.2.2 inv.1 sizes.positive
  refine throughout_iff_along kept (fun w op r w' inv counts served => ?_)
    (fun w op e inv counts fault => ?_) start ((exactly start).mpr rfl)
  · rw [exactly (kept w op r w' inv served)]
    exact (serve_served inv.1 served).cold_empty_iff inv.1 ((exactly inv).mp counts)
  · obtain ⟨r, w', served⟩ := serve_ok inv.1 (spares_of_empty inv.1 ((exactly inv).mp counts) op)
    rw [fault] at served
    cases served

/-! ### A llama that writes files -/

/-- The small llama with files as they are documented: twelve bytes of header, four for each token, and
the state. -/
def writesFiles : Llama Sim :=
  { sim 9 10 with
    stateSeqSaveFile := fun c path tokens s =>
      let bytes := 12 + 4 * tokens.length + ((sim 9 10).stateSeqGetSize c s).1.toNat
      if bytes < 2 ^ 64 then (UInt64.ofNat bytes, ((sim 9 10).stateSeqSaveFile c path tokens s).2)
      else (0, s) }

/-- The size of a state. -/
def stateSize (s : Sim) (c : Ctx) : UInt64 := ((sim 9 10).stateSeqGetSize c s).1

/-- The size of a file with what it holds. -/
def fileLength : Option Saved → Nat
  | none => 0
  | some saved => 12 + 4 * saved.tokens.length + (10 + UInt64.ofNat saved.cells.length).toNat

/-- The size of the file at a path. -/
def fileSize (s : Sim) (path : Bytes) : Nat := fileLength (s.files path)

theorem writesFiles_sizes : SizesOnDisk writesFiles fileSize stateSize 12 4 := by
  have own : OwnFiles (sim 9 10) fileSize := (sim_documented 9 10).ownFiles.map fileLength
  have write : ∀ c path tokens s,
      12 + 4 * tokens.length + (stateSize s c).toNat < 2 ^ 64 ∧
          writesFiles.stateSeqSaveFile c path tokens s =
            (UInt64.ofNat (12 + 4 * tokens.length + (stateSize s c).toNat),
              ((sim 9 10).stateSeqSaveFile c path tokens s).2) ∨
        writesFiles.stateSeqSaveFile c path tokens s = (0, s) := by
    intro c path tokens s
    by_cases fits : 12 + 4 * tokens.length + (stateSize s c).toNat < 2 ^ 64
    · exact Or.inl ⟨fits, if_pos fits⟩
    · exact Or.inr (if_neg fits)
  have saved : ∀ c path tokens s, fileSize ((sim 9 10).stateSeqSaveFile c path tokens s).2 path =
      12 + 4 * tokens.length + (stateSize s c).toNat := by
    intro c path tokens s
    show fileLength (Function.update s.files path _ path) = _
    rw [Function.update_self]
    rfl
  refine { own with save := ?_, written := ?_, layout := ?_, reads := ?_, measured := ?_, positive := ?_ }
  · intro c path tokens s path' other
    rcases write c path tokens s with ⟨_, wrote⟩ | failed
    · rw [wrote]
      exact own.save c path tokens s path' other
    · rw [failed]
  · intro c path tokens s worked
    rcases write c path tokens s with ⟨fits, wrote⟩ | failed
    · rw [wrote, saved]
      exact UInt64.toNat_ofNat_of_lt' fits
    · exact absurd (congrArg Prod.fst failed) worked
  · intro c path tokens s worked
    rcases write c path tokens s with ⟨_, wrote⟩ | failed
    · rw [wrote, saved]
    · exact absurd (congrArg Prod.fst failed) worked
  · intro c path tokens s
    rcases write c path tokens s with ⟨_, wrote⟩ | failed
    · rw [wrote]
      rfl
    · rw [failed]
  · exact fun c s => rfl
  · decide

/-- One session is in use, and goes. -/
def oneVisit : List Op := [.createSession 1, .activateForInfer 1, .recordTokens 1 [4, 5], .killSession 1]

theorem cold_bytes_visit : Throughout (serve writesFiles) (CountsDisk fileSize) oneVisit
    (World.start 9 (text "/s") (Sim.start [])) :=
  (cold_bytes writesFiles_sizes 9 (text "/s") (Sim.start []) oneVisit).mpr (by decide +kernel)

/-- Two sessions are swapped out, under a limit of fifty bytes. -/
def twoFiles : List Op :=
  [.setColdLimit 50, .createSession 1, .activateForInfer 1, .recordTokens 1 [4, 5], .createSession 2,
    .activateForInfer 2, .recordTokens 2 [6, 7, 8], .setHotLimit 1]

/-- The two files have 64 bytes, and 20 are counted. -/
theorem cold_bytes_two : SizesOnDisk writesFiles fileSize stateSize 12 4 ∧
    (∃ w, run (serve writesFiles) twoFiles (World.start 9 (text "/s") (Sim.start [])) = .ok w ∧
      values w.mColdLru = [1, 2] ∧ w.mColdLimitBytes = 50 ∧ w.mColdUsedBytes = 20 ∧
      onDisk fileSize w = 64) ∧
    ¬ Throughout (serve writesFiles) (CountsDisk fileSize) twoFiles
      (World.start 9 (text "/s") (Sim.start [])) := by
  have state : Gives (fun w => values w.mColdLru = [1, 2] ∧ w.mColdLimitBytes = 50 ∧
        w.mColdUsedBytes = 20 ∧ onDisk fileSize w = 64)
      (run (serve writesFiles) twoFiles (World.start 9 (text "/s") (Sim.start []))) := by
    decide +kernel
  obtain ⟨w, reach, cold, limit, used, disk⟩ := gives_iff.mp state
  refine ⟨writesFiles_sizes, ⟨w, reach, cold, limit, used, disk⟩, fun counts => ?_⟩
  have total := (counts.last reach).total
  rw [used, disk] at total
  exact absurd total (by decide)

end MiniV
