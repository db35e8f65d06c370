/-
**Making room: kills, swap-outs and evictions as sequences of moves.**

From a state with the representation invariant, each of these functions returns, and what it leaves
is given by moves:

* `killSession_spec`: a kill is one move and takes the session out of the map and both lists;
* `evictColdIfNeeded_spec`: a cold eviction kills a first part of the cold list and keeps the longest
  rest on which `coldStops` holds;
* `swapOut_spec`: a swap-out prunes, and then fails to save or moves the victim and trims;
* `evictHotIfNeeded_spec`: an eviction of HOT sessions is a `HotEviction`, the sequence of its
  swap-outs with the sizes they saved under.
-/

import MiniV.Library.Retain
import MiniV.Session.Moves
import MiniV.Session.Unbounded

namespace MiniV

open MiniV.Library
open MiniV.Library.NodeList (values)

variable {σ : Type} {L : Llama σ} {w w' : World σ}

theorem filter_absent {l : List Int} {id : Int} (absent : id ∉ l) : l.filter (· ≠ id) = l := by
  refine List.filter_eq_self.mpr fun a member => ?_
  exact decide_eq_true fun same => absent (same ▸ member)

theorem hot_or_cold (entry : SessionMeta) : entry.state = .HOT ∨ entry.state = .COLD := by
  cases entry.state with
  | HOT => exact Or.inl rfl
  | COLD => exact Or.inr rfl

/-! ### Erasing through the iterator of a session -/

theorem hotErase_eq (rep : Rep w) {id : Int} {entry : SessionMeta}
    (found : w.mSessions id = some entry) (hot : entry.state = .HOT) :
    ∃ it, ⟨it, id⟩ ∈ w.mHotLru ∧
      w.hotErase entry = .ok { w with
        mHotLru := w.mHotLru.erase ⟨it, id⟩
        trace := w.trace ++ [.erased id id] } := by
  obtain ⟨it, _, inside, erased⟩ := rep.hot.eraseAt_eq found hot
  refine ⟨it, inside, ?_⟩
  rw [World.hotErase, erased, rep.keyed id entry found]
  rfl

theorem coldErase_eq (rep : Rep w) {id : Int} {entry : SessionMeta}
    (found : w.mSessions id = some entry) (swapped : IsSwapped entry) :
    ∃ it, ⟨it, id⟩ ∈ w.mColdLru ∧
      w.coldErase entry = .ok { w with
        mColdLru := w.mColdLru.erase ⟨it, id⟩
        trace := w.trace ++ [.erased id id] } := by
  obtain ⟨it, _, inside, erased⟩ := rep.cold.eraseAt_eq found swapped
  refine ⟨it, inside, ?_⟩
  rw [World.coldErase, erased, rep.keyed id entry found]
  rfl

/-! ### `killSession` -/

theorem killSession_hot (rep : Rep w) {id : Int} {entry : SessionMeta} {c : Ctx}
    (found : w.mSessions id = some entry) (hot : entry.state = .HOT) (holds : entry.ctx = some c) :
    ∃ it, ⟨it, id⟩ ∈ w.mHotLru ∧
      killSession L id w = .ok (true, { w with
        mSessions := Function.update w.mSessions id none
        mHotLru := w.mHotLru.erase ⟨it, id⟩
        llama := L.free c w.llama
        freed := w.freed ++ [c]
        trace := w.trace ++ [.erased id id] }) := by
  obtain ⟨it, inside, erased⟩ := hotErase_eq rep found hot
  refine ⟨it, inside, ?_⟩
  simp only [killSession, found, hot, erased, holds, ok_bind]
  rfl

theorem killSession_cold (rep : Rep w) {n : Node Int} {entry : SessionMeta}
    (found : w.mSessions n.val = some entry) (inside : n ∈ w.mColdLru) :
    killSession L n.val w = .ok (true, coldKilled L n entry w) := by
  have swapped : IsSwapped entry :=
    rep.cold.holds_of_mem (NodeList.mem_values.mpr ⟨n, inside, rfl⟩) found
  obtain ⟨it, inside', erased⟩ := coldErase_eq rep found swapped
  have same : n = ⟨it, n.val⟩ := List.inj_on_of_nodup_map rep.cold.values inside inside' rfl
  simp only [killSession, found, swapped.1, if_neg swapped.2, erased, ok_bind, coldKilled,
    World.coldSubtract, World.note, World.forget, List.append_assoc, List.cons_append,
    List.nil_append]
  rw [← same]

theorem killSession_new {id : Int} {entry : SessionMeta}
    (found : w.mSessions id = some entry) (cold : entry.state = .COLD)
    (noFile : entry.swapFilePath = []) :
    killSession L id w = .ok (true, { w with mSessions := Function.update w.mSessions id none }) := by
  simp only [killSession, found, cold, if_pos noFile]
  rfl

/-- A session is out of the map and out of the lists. -/
structure Killed (L : Llama σ) (id : Int) (w w' : World σ) : Prop where
  moves : Moves L w w'
  sessions : w'.mSessions = Function.update w.mSessions id none
  hot : values w'.mHotLru = (values w.mHotLru).filter (· ≠ id)
  cold : values w'.mColdLru = (values w.mColdLru).filter (· ≠ id)
  limits : w'.mHotLimit = w.mHotLimit ∧ w'.mColdLimitBytes = w.mColdLimitBytes
  quiet : Quiet w w'

/-- **A kill** takes the session out and answers whether it was there. -/
theorem killSession_spec (rep : Rep w) (id : Int) :
    ∃ w', killSession L id w = .ok ((w.mSessions id).isSome, w') ∧ Killed L id w w' := by
  cases found : w.mSessions id with
  | none =>
    obtain ⟨noHot, noCold⟩ := rep.not_mem_of_absent found
    refine ⟨w, by simp only [killSession, found]; rfl, .refl, ?_, (filter_absent noHot).symm,
      (filter_absent noCold).symm, ⟨rfl, rfl⟩, .refl rfl⟩
    rw [← found, Function.update_eq_self]
  | some entry =>
    rcases hot_or_cold entry with state | state
    · obtain ⟨c, holds⟩ := rep.ctx_of_hot found state
      obtain ⟨it, inside, killed⟩ := killSession_hot (L := L) rep found state holds
      exact ⟨_, killed, .single (.killHot found state holds inside), rfl,
        NodeList.values_erase rep.hot.values inside,
        (filter_absent (rep.not_mem_cold_of_hot found state)).symm, ⟨rfl, rfl⟩,
        .one (e := .erased id id) rfl trivial⟩
    · have noHot := rep.not_mem_hot_of_cold found state
      by_cases noFile : entry.swapFilePath = []
      · refine ⟨_, killSession_new found state noFile, .single (.killNew found state noFile), rfl,
          (filter_absent noHot).symm, (filter_absent fun member => ?_).symm, ⟨rfl, rfl⟩, .refl rfl⟩
        exact (rep.cold.holds_of_mem member found).2 noFile
      · obtain ⟨it, _, inside⟩ := rep.cold.node id entry found ⟨state, noFile⟩
        exact ⟨_, killSession_cold (n := ⟨it, id⟩) rep found inside,
          .single (.killCold (n := ⟨it, id⟩) found inside), rfl, (filter_absent noHot).symm,
          NodeList.values_erase rep.cold.values inside, ⟨rfl, rfl⟩, _, rfl, fun e member => by
            simp only [List.mem_cons, List.not_mem_nil, or_false] at member
            rcases member with rfl | rfl <;> trivial⟩

/-! ### `evictColdIfNeeded` -/

theorem totalBytes_eq (w : World σ) (l : List (Node Int)) :
    totalBytes w.mSessions l = fileTotal (l.map w.fileOf) := by
  unfold totalBytes fileTotal
  rw [List.map_map]
  refine congrArg List.sum (List.map_congr_left fun n _ => ?_)
  simp only [Function.comp_apply, World.fileOf, World.bytesOf, fileBytes]
  cases w.mSessions n.val with
  | none => rfl
  | some entry => rfl

/-- The running total is the total of the files, modulo `2 ^ 64`. -/
theorem used_eq (rep : Rep w) : w.mColdUsedBytes = UInt64.ofNat (fileTotal w.coldFiles) := by
  rw [World.coldFiles, ← totalBytes_eq]
  refine UInt64.toNat_inj.mp ?_
  rw [rep.total, UInt64.toNat_ofNat']

theorem map_fst_fileOf (w : World σ) (l : List (Node Int)) : (l.map w.fileOf).map Prod.fst = values l := by
  rw [List.map_map]
  rfl

theorem coldFiles_eq (w : World σ) :
    w.coldFiles = (values w.mColdLru).map fun id => (id, w.bytesOf id) := by
  rw [World.coldFiles, values, List.map_map]
  rfl

theorem fileOf_congr {n : Node Int} (same : w'.mSessions n.val = w.mSessions n.val) :
    w'.fileOf n = w.fileOf n := by
  simp only [World.fileOf, World.bytesOf, same]

theorem coldVictim_of_ne {excludeId : Int} {front : Node Int} (other : front.val ≠ excludeId)
    (rest : List (Node Int)) : coldVictim excludeId (front :: rest) = some front.val := by
  cases rest with
  | nil => rw [coldVictim, if_neg other]
  | cons next rest => rw [coldVictim, if_neg other]

/-- The loop ends where `coldStops` holds. -/
theorem evictColdLoop_stop {excludeId : Int} (rounds : Nat) (rep : Rep w)
    (stops : coldStops excludeId w.mColdLimitBytes w.coldFiles = true) :
    evictColdLoop L excludeId (rounds + 1) w = .ok w := by
  rw [coldStops, ← used_eq rep, Bool.or_eq_true, decide_eq_true_eq, decide_eq_true_eq,
    World.coldFiles, map_fst_fileOf] at stops
  rw [evictColdLoop]
  rcases stops with within | alone
  · rw [if_neg (UInt64.not_lt.mpr within)]
  · obtain ⟨n, tail, shape, own, empty⟩ := NodeList.head_val_of_values alone
    have single : tail = [] := List.map_eq_nil_iff.mp empty
    rw [shape, single, coldVictim, if_pos own, ite_self]

/-- Where `coldStops` fails, a round kills the first session of the cold list. -/
theorem evictColdLoop_round {excludeId : Int} (rounds : Nat) (rep : Rep w)
    (last : excludeId ∉ (values w.mColdLru).dropLast)
    (goes : coldStops excludeId w.mColdLimitBytes w.coldFiles = false) :
    ∃ front rest entry, w.mColdLru = front :: rest ∧ w.mSessions front.val = some entry ∧
      evictColdLoop L excludeId (rounds + 1) w =
        evictColdLoop L excludeId rounds (coldKilled L front entry w) := by
  rw [coldStops, ← used_eq rep, Bool.or_eq_false_iff, decide_eq_false_iff_not,
    decide_eq_false_iff_not, World.coldFiles, map_fst_fileOf] at goes
  obtain ⟨exceeds, others⟩ := goes
  cases shape : w.mColdLru with
  | nil =>
    have zero : w.mColdUsedBytes = 0 := by rw [used_eq rep, World.coldFiles, shape]; rfl
    rw [zero] at exceeds
    exact absurd UInt64.zero_le exceeds
  | cons front rest =>
    have inside : front ∈ w.mColdLru := by rw [shape]; exact List.mem_cons_self
    obtain ⟨entry, found, _⟩ := rep.cold.owner front inside
    have other : front.val ≠ excludeId := by
      intro excluded
      rw [shape, NodeList.values_cons, excluded] at last others
      cases rest with
      | nil => exact others rfl
      | cons next rest => exact last List.mem_cons_self
    refine ⟨front, rest, entry, rfl, found, ?_⟩
    rw [evictColdLoop, if_pos (UInt64.not_le.mp exceeds), shape, coldVictim_of_ne other]
    simp only [killSession_cold rep found inside, ok_bind]

/-- **The loop of `evictColdIfNeeded`** kills the sessions in front of the longest part of the cold
list on which it stops. The excluded session may only be the last one. -/
theorem evictColdLoop_spec {excludeId : Int} {rounds : Nat} (rep : Rep w)
    (last : excludeId ∉ (values w.mColdLru).dropLast) (enough : w.mColdLru.length < rounds) :
    ∃ dropped kept, w.mColdLru = dropped ++ kept ∧
      kept.map w.fileOf = trim (coldStops excludeId w.mColdLimitBytes) w.coldFiles ∧
      evictColdLoop L excludeId rounds w = .ok (dropCold L dropped w) := by
  induction rounds generalizing w with
  | zero => exact absurd enough (Nat.not_lt_zero _)
  | succ rounds ih =>
    cases stops : coldStops excludeId w.mColdLimitBytes w.coldFiles with
    | true =>
      exact ⟨[], w.mColdLru, rfl, (trim_of_fits stops).symm, evictColdLoop_stop rounds rep stops⟩
    | false =>
      obtain ⟨front, rest, entry, shape, found, round⟩ :=
        evictColdLoop_round (L := L) rounds rep last stops
      have inside : front ∈ w.mColdLru := by rw [shape]; exact List.mem_cons_self
      have after : (coldKilled L front entry w).mColdLru = rest := by
        rw [coldKilled, shape, List.erase_cons_head]
      have distinct := rep.cold.values
      rw [shape, NodeList.values_cons, List.nodup_cons] at distinct
      -- the sizes of the other files do not change
      have files : ∀ l : List (Node Int), l ⊆ rest →
          l.map (coldKilled L front entry w).fileOf = l.map w.fileOf := by
        intro l part
        refine List.map_congr_left fun n member => fileOf_congr (Function.update_of_ne ?_ _ _)
        intro same
        exact distinct.1 (same ▸ NodeList.mem_values.mpr ⟨n, part member, rfl⟩)
      have last' : excludeId ∉ (values rest).dropLast := by
        intro member
        rw [shape, NodeList.values_cons] at last
        cases rest with
        | nil => cases member
        | cons next rest => exact last (List.mem_cons_of_mem _ member)
      obtain ⟨dropped, kept, split, stopped, result⟩ := ih (Move.rep_killCold rep found inside)
        (by rw [after]; exact last')
        (by rw [after]; rw [shape, List.length_cons] at enough; omega)
      rw [after] at split
      refine ⟨front :: dropped, kept, by rw [shape, split]; rfl, ?_, ?_⟩
      · rw [files kept (split ▸ List.subset_append_right _ _), World.coldFiles, after,
          files rest fun _ member => member] at stopped
        rw [World.coldFiles, shape, List.map_cons] at stops ⊢
        rw [trim_cons_of_not_fits stops]
        exact stopped
      · simp only [round, result, dropCold, found]

/-! What a killed part of the cold list changes. -/

theorem dropCold_const {α : Type} (f : World σ → α)
    (same : ∀ n entry w, f (coldKilled L n entry w) = f w) (dropped : List (Node Int))
    (w : World σ) : f (dropCold L dropped w) = f w := by
  induction dropped generalizing w with
  | nil => rfl
  | cons n dropped ih =>
    rw [dropCold]
    split
    · rfl
    · rw [ih, same]

@[simp] theorem dropCold_hot (dropped : List (Node Int)) (w : World σ) :
    (dropCold L dropped w).mHotLru = w.mHotLru :=
  dropCold_const (fun w => w.mHotLru) (fun _ _ _ => rfl) dropped w

@[simp] theorem dropCold_hotLimit (dropped : List (Node Int)) (w : World σ) :
    (dropCold L dropped w).mHotLimit = w.mHotLimit :=
  dropCold_const (fun w => w.mHotLimit) (fun _ _ _ => rfl) dropped w

@[simp] theorem dropCold_coldLimit (dropped : List (Node Int)) (w : World σ) :
    (dropCold L dropped w).mColdLimitBytes = w.mColdLimitBytes :=
  dropCold_const (fun w => w.mColdLimitBytes) (fun _ _ _ => rfl) dropped w

theorem dropCold_quiet (dropped : List (Node Int)) (w : World σ) : Quiet w (dropCold L dropped w) := by
  induction dropped generalizing w with
  | nil => exact .refl rfl
  | cons n dropped ih =>
    rw [dropCold]
    split
    · exact .refl rfl
    · rename_i entry _
      have killed : Quiet w (coldKilled L n entry w) := by
        refine ⟨_, rfl, fun e member => ?_⟩
        simp only [List.mem_cons, List.not_mem_nil, or_false] at member
        rcases member with rfl | rfl <;> trivial
      exact killed.trans (ih _)

theorem dropCold_sessions {dropped kept : List (Node Int)} (rep : Rep w)
    (split : w.mColdLru = dropped ++ kept) :
    (dropCold L dropped w).mColdLru = kept ∧
      ∀ id, (dropCold L dropped w).mSessions id =
        if id ∈ values dropped then none else w.mSessions id := by
  induction dropped generalizing w with
  | nil => exact ⟨split, fun id => by rw [NodeList.values_nil, if_neg List.not_mem_nil]; rfl⟩
  | cons n dropped ih =>
    have inside : n ∈ w.mColdLru := by rw [split]; exact List.mem_cons_self
    obtain ⟨entry, found, _⟩ := rep.cold.owner n inside
    have after : (coldKilled L n entry w).mColdLru = dropped ++ kept := by
      rw [coldKilled, split, List.cons_append, List.erase_cons_head]
    obtain ⟨cold, sessions⟩ := ih (Move.rep_killCold rep found inside) after
    rw [dropCold, found]
    refine ⟨cold, fun id => ?_⟩
    rw [sessions id, NodeList.values_cons]
    by_cases same : id = n.val
    · simp [same, coldKilled]
    · simp only [List.mem_cons, same, false_or, coldKilled, Function.update_of_ne same]

theorem values_dropped {dropped kept : List (Node Int)} (rep : Rep w)
    (split : w.mColdLru = dropped ++ kept) :
    ((values w.mColdLru).filter fun id => ((dropCold L dropped w).mSessions id).isNone) =
      values dropped := by
  have distinct := rep.cold.values
  obtain ⟨_, sessions⟩ := dropCold_sessions (L := L) rep split
  rw [split, NodeList.values_append] at distinct ⊢
  rw [List.filter_append, List.filter_eq_self.mpr, List.filter_eq_nil_iff.mpr, List.append_nil]
  · intro id member
    have owner := (rep.cold.mem_values_iff id).mp
      (by rw [split, NodeList.values_append]; exact List.mem_append_right _ member)
    obtain ⟨entry, found, _⟩ := owner
    rw [sessions id, if_neg fun before => List.disjoint_of_nodup_append distinct before member, found]
    exact Bool.false_ne_true
  · intro id member
    rw [sessions id, if_pos member]
    rfl

/-- The files that are kept keep their sizes. -/
theorem dropCold_files {dropped kept : List (Node Int)} (rep : Rep w)
    (split : w.mColdLru = dropped ++ kept) : (dropCold L dropped w).coldFiles = kept.map w.fileOf := by
  obtain ⟨cold, sessions⟩ := dropCold_sessions (L := L) rep split
  have distinct := rep.cold.values
  rw [split, NodeList.values_append] at distinct
  rw [World.coldFiles, cold]
  refine List.map_congr_left fun n member => fileOf_congr ?_
  rw [sessions n.val, if_neg]
  intro before
  exact List.disjoint_of_nodup_append distinct before (NodeList.mem_values.mpr ⟨n, member, rfl⟩)

/-- **A cold eviction** is one move. -/
theorem evictColdIfNeeded_spec {excludeId : Int} (rep : Rep w)
    (last : excludeId ∉ (values w.mColdLru).dropLast) :
    ∃ dropped kept, w.mColdLru = dropped ++ kept ∧
      kept.map w.fileOf = trim (coldStops excludeId w.mColdLimitBytes) w.coldFiles ∧
      evictColdIfNeeded L excludeId w = .ok ((dropCold L dropped w).note
        (.coldEviction excludeId w.mColdLimitBytes w.coldFiles (values w.mHotLru) (values dropped)
          (kept.map w.fileOf))) := by
  obtain ⟨dropped, kept, split, stopped, result⟩ :=
    evictColdLoop_spec (L := L) rep last (Nat.lt_succ_self w.mColdLru.length)
  refine ⟨dropped, kept, split, stopped, ?_⟩
  simp only [evictColdIfNeeded, result, ok_bind, values_dropped rep split, dropCold_files rep split]

theorem Evict.limits (move : Evict L w w') :
    w'.mHotLimit = w.mHotLimit ∧ w'.mColdLimitBytes = w.mColdLimitBytes := by
  cases move with
  | coldEvict excludeId split stopped => exact ⟨dropCold_hotLimit _ w, dropCold_coldLimit _ w⟩
  | _ => exact ⟨rfl, rfl⟩

theorem Evicts.limits (evicts : Evicts L w w') :
    w'.mHotLimit = w.mHotLimit ∧ w'.mColdLimitBytes = w.mColdLimitBytes := by
  induction evicts with
  | refl => exact ⟨rfl, rfl⟩
  | tail _ move ih =>
    have here := Evict.limits move
    exact ⟨here.1.trans ih.1, here.2.trans ih.2⟩

/-- An event of the housekeeping: nothing is recorded and no generated token is decoded. -/
def Managing : Event → Prop
  | .saved _ _ | .measured _ _ | .erased _ _ | .subtracted _ _ | .swappedOut _ _ _ _
  | .coldEviction _ _ _ _ _ _ => True
  | .recorded _ _ | .loopDecode _ => False

theorem Plain.managing {e : Event} (plain : Plain e) : Managing e := by
  cases e with
  | recorded | loopDecode => exact plain.elim
  | _ => trivial

/-- Evictions are housekeeping. -/
theorem Evict.adds (move : Evict L w w') : Adds Managing w w' := by
  have saves : ∀ {c : Ctx} {entry : SessionMeta}, ∀ e ∈ saveEvents L c entry w, Managing e := by
    intro c entry e member
    simp only [saveEvents, List.mem_cons, List.not_mem_nil, or_false] at member
    rcases member with rfl | rfl <;> trivial
  cases move with
  | saveFailed found hot holds failed => exact .one (e := .saved _ 0) rfl trivial
  | prune found hot holds saved large exceeds => exact ⟨_, rfl, saves⟩
  | swapOut found hot holds full first saved accepted =>
    refine ⟨_, rfl, fun e member => ?_⟩
    rcases List.mem_append.mp member with member | member
    · exact saves e member
    · simp only [List.mem_cons, List.not_mem_nil, or_false] at member
      rcases member with rfl | rfl <;> trivial
  | @coldEvict excludeId dropped kept split stopped =>
    have quiet := (dropCold_quiet (L := L) dropped w).mono fun e => Plain.managing
    exact quiet.trans (.one (e := .coldEviction _ _ _ _ _ _) rfl trivial)

theorem Evicts.adds (evicts : Evicts L w w') : Adds Managing w w' := by
  induction evicts with
  | refl => exact .refl rfl
  | tail before move ih => exact ih.trans (Evict.adds move)

/-! ### `swapOut` -/

/-- The world after a save that failed. -/
def saveFailedOf (L : Llama σ) (c : Ctx) (entry : SessionMeta) (w : World σ) : World σ :=
  { w with llama := (saveOf L c entry w).2, trace := w.trace ++ [.saved entry.id 0] }

/-- The world after a save and the measurement that follows. -/
def measuredOf (L : Llama σ) (c : Ctx) (entry : SessionMeta) (w : World σ) : World σ :=
  { w with
    llama := (measureOf L c entry w).2
    trace := w.trace ++ [.saved entry.id (saveOf L c entry w).1] ++
      [.measured (measureOf L c entry w).1 w.mColdUsedBytes] }

/-- A session after a pruning. -/
def prunedEntry (entry : SessionMeta) : SessionMeta :=
  { entry with tokens := entry.tokens.drop (pruneAmount entry.tokens.length) }

/-- The world after a pruning. -/
def prunedOf (L : Llama σ) (c : Ctx) (entry : SessionMeta) (w : World σ) : World σ :=
  { measuredOf L c entry w with
    mSessions := Function.update w.mSessions entry.id (some (prunedEntry entry))
    llama := pruneOf L c (pruneAmount entry.tokens.length) (measureOf L c entry w).2 }

theorem measuredOf_trace (c : Ctx) (entry : SessionMeta) :
    (measuredOf L c entry w).trace = w.trace ++ saveEvents L c entry w := List.append_assoc _ _ _

instance (size : UInt64) (entry : SessionMeta) (w : World σ) : Decidable (Accepted size entry w) :=
  inferInstanceAs (Decidable (_ ∨ _))

theorem pruneAmount_bounds {size : Nat} (large : kMinKeepTokens < size) :
    pruneAmount size ≠ 0 ∧ pruneAmount size < size := by
  unfold pruneAmount kMinKeepTokens at *
  omega

/-- A pruning keeps the newest tokens, down to the floor. -/
theorem retains_pruned (tokens : List Token) (large : kMinKeepTokens < tokens.length) :
    Retains kMinKeepTokens tokens (tokens.drop (pruneAmount tokens.length)) := by
  refine .drop ?_
  unfold pruneAmount kMinKeepTokens at *
  omega

theorem pruneOldestTokens_eq {entry : SessionMeta} {c : Ctx} {count : Nat}
    (found : w.mSessions entry.id = some entry) (holds : entry.ctx = some c) (some' : count ≠ 0)
    (few : count < entry.tokens.length) :
    pruneOldestTokens L entry.id count w = .ok { w with
      mSessions := Function.update w.mSessions entry.id
        (some { entry with tokens := entry.tokens.drop count })
      llama := pruneOf L c count w.llama } := by
  have going : ¬ (count = 0 ∨ entry.tokens.length ≤ count) := by omega
  simp only [pruneOldestTokens, World.deref, found, ok_bind, if_neg going, holds]
  rfl

/-- A round of the loop of `swapOut`. -/
theorem swapOutRound_eq {entry : SessionMeta} {c : Ctx} (found : w.mSessions entry.id = some entry)
    (holds : entry.ctx = some c) :
    Unbounded.swapOutRound L entry.id (swapPathFor w entry.id) w = ended (
      if (saveOf L c entry w).1 = 0 then .ok (.leave (none, saveFailedOf L c entry w))
      else if Accepted (measureOf L c entry w).1 entry w then
        .ok (.leave (some (measureOf L c entry w).1, measuredOf L c entry w))
      else .ok (.again (prunedOf L c entry w))) := by
  simp only [Unbounded.swapOutRound, World.deref, found, ended_ok_bind, holds]
  by_cases failed : (saveOf L c entry w).1 = 0
  · have same := failed
    unfold saveOf at same
    rw [if_pos failed, if_pos same, same]
    rfl
  · rw [if_neg failed, if_neg (show ¬ (L.stateSeqSaveFile c _ _ _).1 = 0 from failed)]
    by_cases fits : (measureOf L c entry w).1 + w.mColdUsedBytes ≤ w.mColdLimitBytes
    · rw [if_pos (show Accepted _ _ _ from Or.inl fits)]
      exact if_pos fits
    · refine (if_neg fits).trans ?_
      by_cases small : entry.tokens.length ≤ kMinKeepTokens
      · rw [if_pos (show Accepted _ _ _ from Or.inr small)]
        exact if_pos small
      · obtain ⟨positive, few⟩ := pruneAmount_bounds (Nat.not_le.mp small)
        have pruned : pruneOldestTokens L entry.id (pruneAmount entry.tokens.length)
            (measuredOf L c entry w) = .ok (prunedOf L c entry w) :=
          pruneOldestTokens_eq (w := measuredOf L c entry w) found holds positive few
        rw [if_neg small, if_neg (show ¬ Accepted _ _ _ from not_or.mpr ⟨fits, small⟩)]
        refine (congrArg (fun x => ended x >>= fun w => return Round.again w) pruned).trans ?_
        exact ended_ok_bind _ _

/-- One round of the counted loop. -/
theorem swapOutLoop_round {entry : SessionMeta} {c : Ctx} (rounds : Nat)
    (found : w.mSessions entry.id = some entry) (holds : entry.ctx = some c) :
    swapOutLoop L entry.id (swapPathFor w entry.id) (rounds + 1) w =
      if (saveOf L c entry w).1 = 0 then .ok (none, saveFailedOf L c entry w)
      else if Accepted (measureOf L c entry w).1 entry w then
        .ok (some (measureOf L c entry w).1, measuredOf L c entry w)
      else swapOutLoop L entry.id (swapPathFor w entry.id) rounds (prunedOf L c entry w) := by
  obtain ⟨r, round, counted⟩ :=
    Unbounded.swapOutRound_counted (L := L) entry.id (swapPathFor w entry.id) rounds w
  rw [swapOutRound_eq found holds, ended_inj] at round
  rw [counted, ← round]
  split_ifs <;> rfl

/-- `w'` is `w` after some prunings of the session of `entry`, which is `entry'` now. -/
structure Pruned (L : Llama σ) (entry entry' : SessionMeta) (w w' : World σ) : Prop where
  evicts : Evicts L w w'
  world : ∃ llama trace, w' = { w with
    mSessions := Function.update w.mSessions entry.id (some entry'), llama := llama, trace := trace }
  entry : ∃ tokens, entry' = { entry with tokens := tokens }

namespace Pruned

variable {entry entry' entry'' : SessionMeta}

theorem refl (found : w.mSessions entry.id = some entry) : Pruned L entry entry w w where
  evicts := .refl
  world := ⟨w.llama, w.trace, by rw [update_found found]⟩
  entry := ⟨entry.tokens, rfl⟩

theorem trans {w'' : World σ} (first : Pruned L entry entry' w w')
    (second : Pruned L entry' entry'' w' w'') : Pruned L entry entry'' w w'' where
  evicts := first.evicts.trans second.evicts
  world := by
    obtain ⟨_, rfl⟩ := first.entry
    obtain ⟨_, _, rfl⟩ := first.world
    obtain ⟨llama, trace, rfl⟩ := second.world
    exact ⟨llama, trace, by simp only [Function.update_idem]⟩
  entry := by
    obtain ⟨_, rfl⟩ := first.entry
    obtain ⟨tokens, rfl⟩ := second.entry
    exact ⟨tokens, rfl⟩

theorem found (pruned : Pruned L entry entry' w w') : w'.mSessions entry.id = some entry' := by
  obtain ⟨_, _, rfl⟩ := pruned.world
  exact Function.update_self ..

theorem id_eq (pruned : Pruned L entry entry' w w') : entry'.id = entry.id := by
  obtain ⟨_, rfl⟩ := pruned.entry
  rfl

theorem state_eq (pruned : Pruned L entry entry' w w') : entry'.state = entry.state := by
  obtain ⟨_, rfl⟩ := pruned.entry
  rfl

theorem ctx_eq (pruned : Pruned L entry entry' w w') : entry'.ctx = entry.ctx := by
  obtain ⟨_, rfl⟩ := pruned.entry
  rfl

theorem hot_eq (pruned : Pruned L entry entry' w w') : w'.mHotLru = w.mHotLru := by
  obtain ⟨_, _, rfl⟩ := pruned.world
  rfl

theorem hotLimit_eq (pruned : Pruned L entry entry' w w') : w'.mHotLimit = w.mHotLimit := by
  obtain ⟨_, _, rfl⟩ := pruned.world
  rfl

theorem path_eq (pruned : Pruned L entry entry' w w') (id : Int) :
    swapPathFor w' id = swapPathFor w id := by
  obtain ⟨_, _, rfl⟩ := pruned.world
  rfl

/-- A pruning leaves the other sessions, and so the files of the cold list. -/
theorem coldFiles_eq (pruned : Pruned L entry entry' w w') (absent : entry.id ∉ values w.mColdLru) :
    w'.coldFiles = w.coldFiles ∧ w'.mColdLru = w.mColdLru ∧
      w'.mColdLimitBytes = w.mColdLimitBytes := by
  obtain ⟨_, _, rfl⟩ := pruned.world
  refine ⟨List.map_congr_left fun n member => fileOf_congr (Function.update_of_ne ?_ _ _), rfl, rfl⟩
  exact fun same => absent (same ▸ NodeList.mem_values.mpr ⟨n, member, rfl⟩)

end Pruned

/-- One pruning. -/
theorem Pruned.single {entry : SessionMeta} {c : Ctx} (found : w.mSessions entry.id = some entry)
    (hot : entry.state = .HOT) (holds : entry.ctx = some c)
    (saved : (saveOf L c entry w).1 ≠ 0)
    (refused : ¬ Accepted (measureOf L c entry w).1 entry w) :
    Pruned L entry (prunedEntry entry) w (prunedOf L c entry w) where
  evicts := by
    have move := Evict.prune found hot holds saved (Nat.not_le.mp (not_or.mp refused).2)
      (not_or.mp refused).1
    rw [← measuredOf_trace] at move
    exact .single move
  world := ⟨_, _, rfl⟩
  entry := ⟨_, rfl⟩

/-- **The loop of `swapOut`** prunes some, and ends with a save that fails or is accepted. -/
theorem swapOutLoop_spec {entry : SessionMeta} {c : Ctx} {rounds : Nat}
    (found : w.mSessions entry.id = some entry) (hot : entry.state = .HOT)
    (holds : entry.ctx = some c) (enough : entry.tokens.length < rounds) :
    ∃ entry' w', Pruned L entry entry' w w' ∧
      (((saveOf L c entry' w').1 = 0 ∧
          swapOutLoop L entry.id (swapPathFor w entry.id) rounds w =
            .ok (none, saveFailedOf L c entry' w')) ∨
        ((saveOf L c entry' w').1 ≠ 0 ∧ Accepted (measureOf L c entry' w').1 entry' w' ∧
          swapOutLoop L entry.id (swapPathFor w entry.id) rounds w =
            .ok (some (measureOf L c entry' w').1, measuredOf L c entry' w'))) := by
  induction rounds generalizing w entry with
  | zero => exact absurd enough (Nat.not_lt_zero _)
  | succ rounds ih =>
    have round := swapOutLoop_round (L := L) rounds found holds
    by_cases failed : (saveOf L c entry w).1 = 0
    · rw [if_pos failed] at round
      exact ⟨entry, w, .refl found, Or.inl ⟨failed, round⟩⟩
    · rw [if_neg failed] at round
      by_cases accepted : Accepted (measureOf L c entry w).1 entry w
      · rw [if_pos accepted] at round
        exact ⟨entry, w, .refl found, Or.inr ⟨failed, accepted, round⟩⟩
      · rw [if_neg accepted] at round
        have large := Nat.not_le.mp (not_or.mp accepted).2
        obtain ⟨positive, few⟩ := pruneAmount_bounds large
        have pruned := Pruned.single found hot holds failed accepted
        have found' : (prunedOf L c entry w).mSessions (prunedEntry entry).id =
            some (prunedEntry entry) := pruned.found
        obtain ⟨entry', w', later, result⟩ := ih found' hot holds
          (by rw [prunedEntry, List.length_drop]; omega)
        refine ⟨entry', w', pruned.trans later, ?_⟩
        rw [round]
        exact result

theorem prevEnd_append (l : List (Node Int)) (n : Node Int) : prevEnd (l ++ [n]) = some n.addr := by
  simp [prevEnd]

/-- What a swap-out of the HOT session `id` leaves: its node and its file have moved to the end of
the cold side. -/
structure MovedToCold (id : Int) (bytes : UInt64) (w w' : World σ) : Prop where
  hot : ∃ it, w'.mHotLru = w.mHotLru.erase ⟨it, id⟩ ∧ ⟨it, id⟩ ∈ w.mHotLru
  cold : ∃ it, w'.mColdLru = w.mColdLru ++ [⟨it, id⟩]
  files : w'.coldFiles = w.coldFiles ++ [(id, bytes)]
  limits : w'.mHotLimit = w.mHotLimit ∧ w'.mColdLimitBytes = w.mColdLimitBytes

/-- The part of `swapOut` after its loop is one move. -/
theorem moveToCold_spec {entry : SessionMeta} {c : Ctx} (rep : Rep w)
    (found : w.mSessions entry.id = some entry) (hot : entry.state = .HOT)
    (holds : entry.ctx = some c) (full : w.mHotLimit ≤ w.mHotLru.length) {it : Nat}
    (first : (w.mHotLru.find? fun n => n.val ≠ -1) = some ⟨it, entry.id⟩)
    (saved : (saveOf L c entry w).1 ≠ 0)
    (accepted : Accepted (measureOf L c entry w).1 entry w) :
    ∃ w', moveToCold L entry.id (swapPathFor w entry.id) (measureOf L c entry w).1
        (measuredOf L c entry w) = .ok w' ∧
      Evict L w w' ∧ MovedToCold entry.id (measureOf L c entry w).1 w w' := by
  obtain ⟨inside, _⟩ := Move.inside_of_first first
  have move := Evict.swapOut (L := L) found hot holds full first saved accepted
  obtain ⟨it', inside', erased⟩ := hotErase_eq (w := measuredOf L c entry w)
    (rep.of_same rfl rfl rfl rfl rfl rfl rfl) found hot
  have node : (⟨it', entry.id⟩ : Node Int) = ⟨it, entry.id⟩ :=
    List.inj_on_of_nodup_map rep.hot.values inside' inside rfl
  rw [node] at erased
  have noCold := rep.not_mem_cold_of_hot found hot
  refine ⟨_, ?_, move, ⟨⟨it, rfl, inside⟩, ⟨w.nextNode, rfl⟩, ?_, rfl, rfl⟩⟩
  · have left : values (w.mHotLru.erase ⟨it, entry.id⟩) =
        (values w.mHotLru).filter (· ≠ entry.id) := NodeList.values_erase rep.hot.values inside
    have foundM : (measuredOf L c entry w).mSessions entry.id = some entry := found
    simp only [moveToCold, World.deref, foundM, ok_bind, erased, holds]
    simp only [World.freeCtx, World.coldPush, World.assign, World.note, World.levels, measuredOf,
      prevEnd_append, left, NodeList.values_append, NodeList.values_cons, NodeList.values_nil,
      saveEvents, List.append_assoc, List.cons_append, List.nil_append]
  · rw [World.coldFiles, List.map_append]
    congr 1
    · refine List.map_congr_left fun n member => fileOf_congr (Function.update_of_ne ?_ _ _)
      exact fun same => noCold (same ▸ NodeList.mem_values.mpr ⟨n, member, rfl⟩)
    · simp [World.fileOf, World.bytesOf]

/-- The size under which `swapOut` saves the session of an id: what its loop returns. -/
def savedSize (L : Llama σ) (id : Int) (w : World σ) : Option UInt64 :=
  match w.mSessions id with
  | none => none
  | some entry =>
    match swapOutLoop L id (swapPathFor w id) (entry.tokens.length + 1) w with
    | .error _ => none
    | .ok (bytes, _) => bytes

/-- A swap-out whose save failed. -/
structure SwapFailed (L : Llama σ) (id : Int) (w w' : World σ) : Prop where
  result : swapOut L id w = .ok (false, w')
  evicts : Evicts L w w'
  hot : w'.mHotLru = w.mHotLru
  files : w'.coldFiles = w.coldFiles
  size : savedSize L id w = none
  failed : .saved id 0 ∈ w'.trace

/-- A swap-out that saved its victim under a size. -/
structure SwapDone (L : Llama σ) (id : Int) (bytes : UInt64) (w w' : World σ) : Prop where
  result : swapOut L id w = .ok (true, w')
  evicts : Evicts L w w'
  hot : ∃ it, w'.mHotLru = w.mHotLru.erase ⟨it, id⟩ ∧ ⟨it, id⟩ ∈ w.mHotLru
  size : savedSize L id w = some bytes
  files : w'.coldFiles = trim (coldStops id w.mColdLimitBytes) (w.coldFiles ++ [(id, bytes)])

/-- **A swap-out** of the first HOT session other than -1 fails to save it, or moves it and trims the
cold list. -/
theorem swapOut_spec (rep : Rep w) (full : w.mHotLimit ≤ w.mHotLru.length) {n : Node Int}
    (first : (w.mHotLru.find? fun n => n.val ≠ -1) = some n) :
    ∃ w', SwapFailed L n.val w w' ∨ ∃ bytes, SwapDone L n.val bytes w w' := by
  obtain ⟨inside, _⟩ := Move.inside_of_first first
  obtain ⟨entry, found, hot⟩ := rep.hot.owner n inside
  obtain ⟨c, holds⟩ := rep.ctx_of_hot found hot
  have own := rep.keyed n.val entry found
  rw [← own] at found ⊢
  obtain ⟨entry', w1, pruned, ending⟩ :=
    swapOutLoop_spec (L := L) found hot holds (Nat.lt_succ_self _)
  have noCold := rep.not_mem_cold_of_hot found hot
  obtain ⟨files, cold, coldLimit⟩ := pruned.coldFiles_eq noCold
  rcases ending with ⟨failed, loop⟩ | ⟨saved, accepted, loop⟩
  · refine ⟨saveFailedOf L c entry' w1, Or.inl ⟨?_, ?_, pruned.hot_eq, files, ?_, ?_⟩⟩
    · simp only [swapOut, World.deref, found, ok_bind, loop]
    · refine pruned.evicts.tail ?_
      have same := pruned.found
      rw [← pruned.id_eq] at same
      exact Evict.saveFailed same (pruned.state_eq.trans hot) (pruned.ctx_eq.trans holds) failed
    · simp only [savedSize, found, loop]
    · rw [saveFailedOf, pruned.id_eq]
      exact List.mem_append_right _ List.mem_cons_self
  · have rep1 := Evicts.rep pruned.evicts rep
    have found1 : w1.mSessions entry'.id = some entry' := by rw [pruned.id_eq]; exact pruned.found
    have first1 : (w1.mHotLru.find? fun n => n.val ≠ -1) = some ⟨n.addr, entry'.id⟩ := by
      rw [pruned.hot_eq, pruned.id_eq, own]
      exact first
    obtain ⟨w2, moved, move, shape⟩ := moveToCold_spec rep1 found1 (pruned.state_eq.trans hot)
      (pruned.ctx_eq.trans holds) (by rw [pruned.hotLimit_eq, pruned.hot_eq]; exact full)
      first1 saved accepted
    have rep2 := Move.rep_evict move rep1
    rw [pruned.id_eq] at moved shape
    rw [pruned.path_eq] at moved
    -- the victim is the last of the cold list, so a cold eviction may exclude it
    have last : entry.id ∉ (values w2.mColdLru).dropLast := by
      obtain ⟨it, list⟩ := shape.cold
      rw [list, cold, NodeList.values_append, NodeList.values_cons, NodeList.values_nil,
        List.dropLast_concat]
      exact noCold
    obtain ⟨dropped, kept, split, stopped, evicted⟩ := evictColdIfNeeded_spec (L := L) rep2 last
    refine ⟨_, Or.inr ⟨(measureOf L c entry' w1).1, ?_,
      (pruned.evicts.tail move).tail (.coldEvict _ split stopped), ?_, ?_, ?_⟩⟩
    · simp only [swapOut, World.deref, found, ok_bind, loop, moved, evicted]
    · obtain ⟨it, left, member⟩ := shape.hot
      refine ⟨it, ?_, pruned.hot_eq ▸ member⟩
      rw [← pruned.hot_eq, ← left]
      exact dropCold_hot dropped w2
    · simp only [savedSize, found, loop]
    · have same : ((dropCold L dropped w2).note (.coldEviction entry.id w2.mColdLimitBytes
          w2.coldFiles (values w2.mHotLru) (values dropped) (kept.map w2.fileOf))).coldFiles =
          kept.map w2.fileOf :=
        dropCold_files rep2 split
      rw [same, stopped, shape.limits.2, shape.files, files, coldLimit]

/-! ### `evictHotIfNeeded` -/

/-- Where the loop of `evictHotIfNeeded` stops: there is room, or nobody to swap out. -/
def HotStop (excludeId : Int) (w : World σ) : Prop :=
  ¬ (w.mHotLimit ≤ w.mHotLru.length ∧ w.mHotLru ≠ []) ∨ hotVictim excludeId w.mHotLru = -1

/-- An eviction of HOT sessions from `w` to `w'`, with the sizes under which its victims were saved. -/
inductive HotEviction (L : Llama σ) (excludeId : Int) : World σ → World σ → List (Int × UInt64) → Prop
  | stop {w : World σ} (stopped : HotStop excludeId w) : HotEviction L excludeId w w []
  | fail {w w' : World σ} {n : Node Int} (goes : ¬ HotStop excludeId w)
      (first : (w.mHotLru.find? fun n => n.val ≠ -1) = some n)
      (swap : SwapFailed L n.val w w') : HotEviction L excludeId w w' []
  | swap {w w' w'' : World σ} {n : Node Int} {bytes : UInt64} {sizes : List (Int × UInt64)}
      (goes : ¬ HotStop excludeId w) (first : (w.mHotLru.find? fun n => n.val ≠ -1) = some n)
      (swap : SwapDone L n.val bytes w w') (later : HotEviction L excludeId w' w'' sizes) :
      HotEviction L excludeId w w'' ((n.val, bytes) :: sizes)

/-- The excluded session is nobody, or not in the hot list. -/
def Away (excludeId : Int) (w : World σ) : Prop := excludeId = -1 ∨ excludeId ∉ values w.mHotLru

namespace SwapDone

variable {id : Int} {bytes : UInt64}

/-- A swap-out takes one session out of the hot list. -/
theorem shorter (done : SwapDone L id bytes w w') : w'.mHotLru.length + 1 = w.mHotLru.length := by
  obtain ⟨it, left, member⟩ := done.hot
  rw [left, List.length_erase_add_one member]

/-- It brings none in. -/
theorem hot_subset (done : SwapDone L id bytes w w') : values w'.mHotLru ⊆ values w.mHotLru := by
  obtain ⟨it, left, _⟩ := done.hot
  rw [left]
  exact values_erase_subset _ _

theorem away (done : SwapDone L id bytes w w') {excludeId : Int} (away : Away excludeId w) :
    Away excludeId w' :=
  away.imp_right fun outside member => outside (done.hot_subset member)

end SwapDone

/-- The victim is the first HOT session other than -1. -/
theorem hotVictim_first {excludeId : Int} (away : Away excludeId w)
    (named : hotVictim excludeId w.mHotLru ≠ -1) :
    ∃ n, (w.mHotLru.find? fun n => n.val ≠ -1) = some n ∧ hotVictim excludeId w.mHotLru = n.val := by
  unfold hotVictim at *
  rcases away with rfl | outside
  · cases search : w.mHotLru.find? fun n => n.val ≠ -1 with
    | none =>
      rw [search] at named
      exact absurd rfl named
    | some n => exact ⟨n, rfl, rfl⟩
  · cases shape : w.mHotLru with
    | nil =>
      rw [shape] at named
      exact absurd rfl named
    | cons n rest =>
      have other : n.val ≠ excludeId := by
        intro same
        rw [shape, NodeList.values_cons, same] at outside
        exact outside List.mem_cons_self
      have front : ((n :: rest).find? fun n => n.val ≠ excludeId) = some n :=
        List.find?_cons_of_pos (decide_eq_true other)
      rw [shape, front] at named
      rw [front]
      exact ⟨n, List.find?_cons_of_pos (decide_eq_true named), rfl⟩

/-- The victim is in the map, and its swap-out fails to save it or is done. -/
theorem hotVictim_swapOut {excludeId : Int} (rep : Rep w) (away : Away excludeId w)
    (full : w.mHotLimit ≤ w.mHotLru.length) (named : hotVictim excludeId w.mHotLru ≠ -1) :
    ∃ n entry w', (w.mHotLru.find? fun n => n.val ≠ -1) = some n ∧
      hotVictim excludeId w.mHotLru = n.val ∧ w.mSessions n.val = some entry ∧
      (SwapFailed L n.val w w' ∨ ∃ bytes, SwapDone L n.val bytes w w') := by
  obtain ⟨n, first, victim⟩ := hotVictim_first away named
  obtain ⟨inside, _⟩ := Move.inside_of_first first
  obtain ⟨entry, found, _⟩ := rep.hot.owner n inside
  obtain ⟨w', outcome⟩ := swapOut_spec (L := L) rep full first
  exact ⟨n, entry, w', first, victim, found, outcome⟩

/-- **The loop of `evictHotIfNeeded`** is an eviction. -/
theorem evictHotLoop_spec {excludeId : Int} {rounds : Nat} (rep : Rep w) (away : Away excludeId w)
    (enough : w.mHotLru.length < rounds) :
    ∃ w' sizes, evictHotLoop L excludeId rounds w = .ok w' ∧ HotEviction L excludeId w w' sizes := by
  induction rounds generalizing w with
  | zero => exact absurd enough (Nat.not_lt_zero _)
  | succ rounds ih =>
    by_cases full : w.mHotLimit ≤ w.mHotLru.length ∧ w.mHotLru ≠ []
    · by_cases nobody : hotVictim excludeId w.mHotLru = -1
      · refine ⟨w, [], ?_, .stop (Or.inr nobody)⟩
        simp only [evictHotLoop, if_pos full, if_pos nobody]
      · have goes : ¬ HotStop excludeId w := fun stops => stops.elim (fun room => room full) nobody
        obtain ⟨n, entry, w', first, victim, found, failed | ⟨bytes, done⟩⟩ :=
          hotVictim_swapOut (L := L) rep away full.1 nobody
        all_goals rw [victim] at nobody
        · refine ⟨w', [], ?_, .fail goes first failed⟩
          simp only [evictHotLoop, if_pos full, victim, if_neg nobody, found, failed.result, ok_bind,
            Bool.false_eq_true, if_false]
        · have fewer := done.shorter
          obtain ⟨w'', sizes, result, later⟩ :=
            ih (Evicts.rep done.evicts rep) (done.away away) (by omega)
          refine ⟨w'', _, ?_, .swap goes first done later⟩
          simp only [evictHotLoop, if_pos full, victim, if_neg nobody, found, done.result, ok_bind,
            if_true, result]
    · refine ⟨w, [], ?_, .stop (Or.inl full)⟩
      simp only [evictHotLoop, if_neg full]

/-- **An eviction of HOT sessions** returns. -/
theorem evictHotIfNeeded_spec {excludeId : Int} (rep : Rep w) (away : Away excludeId w) :
    ∃ w' sizes, evictHotIfNeeded L excludeId w = .ok w' ∧ HotEviction L excludeId w w' sizes :=
  evictHotLoop_spec rep away (Nat.lt_succ_self _)

namespace HotEviction

variable {excludeId : Int} {sizes : List (Int × UInt64)}

theorem evicts (eviction : HotEviction L excludeId w w' sizes) : Evicts L w w' := by
  induction eviction with
  | stop => exact .refl
  | fail _ _ swap => exact swap.evicts
  | swap _ _ swap _ ih => exact swap.evicts.trans ih

/-- An eviction ends with room, with nobody to swap out, or after a save that failed. -/
theorem stopped (eviction : HotEviction L excludeId w w' sizes) :
    HotStop excludeId w' ∨ ∃ id, .saved id 0 ∈ w'.trace := by
  induction eviction with
  | stop stopped => exact Or.inl stopped
  | fail _ _ swap => exact Or.inr ⟨_, swap.failed⟩
  | swap _ _ _ _ ih => exact ih

end HotEviction

end MiniV
