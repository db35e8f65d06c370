/-
**What every recorded event says.**

The trace of a world grows with every move (`Move.trace_grows`). As long as every size llama
reports fits beside the bytes already counted (`SumsFit`), the running total `mColdUsedBytes` is the
true total of the swap files (`Exact`), and every event that is recorded is as it should be
(`EventOk`):

* an erasure through an iterator takes out the node of the session it was asked for;
* a subtraction from `mColdUsedBytes` does not wrap;
* a swap-out takes the first HOT session other than -1 and moves it to the end of the cold list;
* a cold eviction kills the shortest first part of the cold list that is enough.

`Sound` packages the three; every call keeps it (`serve_sound`).
-/

import MiniV.Session.Calls

namespace MiniV

open MiniV.Library
open MiniV.Library.NodeList (values)

variable {σ : Type} {L : Llama σ} {w w' : World σ}

/-! ### The statements -/

/-- A size that was reported fits beside the bytes counted at that time. -/
def Fits : Event → Prop
  | .measured bytes used => bytes.toNat + used.toNat < 2 ^ 64
  | _ => True

instance : DecidablePred Fits
  | .measured bytes used => inferInstanceAs (Decidable (bytes.toNat + used.toNat < 2 ^ 64))
  | .saved _ _ | .erased _ _ | .subtracted _ _ | .swappedOut _ _ _ _ | .coldEviction _ _ _ _ _ _
  | .recorded _ _ | .loopDecode _ => isTrue trivial

/-- Every size that was reported fits. -/
def SumsFit (trace : List Event) : Prop := ∀ e ∈ trace, Fits e

instance (trace : List Event) : Decidable (SumsFit trace) :=
  inferInstanceAs (Decidable (∀ e ∈ trace, Fits e))

/-- The swap files have fewer than `2 ^ 64` bytes together. -/
def Exact (w : World σ) : Prop := totalBytes w.mSessions w.mColdLru < 2 ^ 64

/-- **A cold eviction that kills as few as it can.** What is left is a last part of the list; it is
within the limit or is the excluded session alone, unless nobody is excluded; and no longer part is
within the limit. -/
structure KillsFewest (excludeId : Int) (limit : UInt64) (before : List (Int × UInt64))
    (killed : List Int) (after : List (Int × UInt64)) : Prop where
  split : ∃ dropped, before = dropped ++ after ∧ killed = dropped.map Prod.fst
  enough : fileTotal after ≤ limit.toNat ∨ (excludeId ≠ -1 ∧ after.map Prod.fst = [excludeId])
  fewest : ∀ longer, longer <:+ before → after.length < longer.length →
    limit.toNat < fileTotal longer

/-- What an event should say. -/
def EventOk : Event → Prop
  | .erased owner node => owner = node
  | .subtracted used bytes => bytes ≤ used
  | .swappedOut id _ before after =>
    before.hot.find? (· ≠ -1) = some id ∧
      after = ⟨before.cold ++ [id], before.hot.filter (· ≠ id)⟩
  | .coldEviction excludeId limit before _ killed after =>
    KillsFewest excludeId limit before killed after
  | _ => True

/-! ### The running total -/

theorem used_of_exact (rep : Rep w) (exact : Exact w) :
    w.mColdUsedBytes.toNat = totalBytes w.mSessions w.mColdLru :=
  rep.total.trans (Nat.mod_eq_of_lt exact)

theorem bytes_le_used (rep : Rep w) (exact : Exact w) {n : Node Int} {entry : SessionMeta}
    (found : w.mSessions n.val = some entry) (inside : n ∈ w.mColdLru) :
    entry.swapFileBytes ≤ w.mColdUsedBytes := by
  have split := totalBytes_erase w.mSessions inside
  rw [fileBytes, found] at split
  refine UInt64.le_iff_toNat_le.mpr ?_
  rw [used_of_exact rep exact, ← split]
  exact Nat.le_add_right _ _

/-! ### Killing a part of the cold list -/

theorem dropCold_grows (dropped : List (Node Int)) (w : World σ) :
    w.trace <+: (dropCold L dropped w).trace := by
  induction dropped generalizing w with
  | nil => exact List.prefix_rfl
  | cons n dropped ih =>
    rw [dropCold]
    split
    · exact List.prefix_rfl
    · refine List.IsPrefix.trans ?_ (ih _)
      exact List.prefix_append _ _

theorem coldKilled_total {n : Node Int} {entry : SessionMeta} (rep : Rep w)
    (inside : n ∈ w.mColdLru) :
    totalBytes (coldKilled L n entry w).mSessions (coldKilled L n entry w).mColdLru ≤
      totalBytes w.mSessions w.mColdLru := by
  have absent : n.val ∉ values (w.mColdLru.erase n) := by
    rw [NodeList.values_erase rep.cold.values inside]
    simp
  have split := totalBytes_erase w.mSessions inside
  refine (totalBytes_outside absent none).trans_le ?_
  rw [← split]
  exact Nat.le_add_left _ _

theorem dropCold_events {dropped kept : List (Node Int)} (rep : Rep w) (exact : Exact w)
    (split : w.mColdLru = dropped ++ kept) :
    ∀ e ∈ (dropCold L dropped w).trace, e ∈ w.trace ∨ EventOk e := by
  induction dropped generalizing w with
  | nil => exact fun e member => Or.inl member
  | cons n dropped ih =>
    have inside : n ∈ w.mColdLru := by rw [split]; exact List.mem_cons_self
    obtain ⟨entry, found, _⟩ := rep.cold.owner n inside
    have after : (coldKilled L n entry w).mColdLru = dropped ++ kept := by
      rw [coldKilled, split, List.cons_append, List.erase_cons_head]
    intro e member
    rw [dropCold, found] at member
    rcases ih (Move.rep_killCold rep found inside)
      (lt_of_le_of_lt (coldKilled_total rep inside) exact) after e member with earlier | ok
    · rcases List.mem_append.mp earlier with old | new
      · exact Or.inl old
      · refine Or.inr ?_
        rcases List.mem_cons.mp new with rfl | new
        · rfl
        · rw [List.mem_singleton.mp new]
          exact bytes_le_used rep exact found inside
    · exact Or.inr ok

/-- What the trimming by `coldStops` keeps is as much as fits. -/
theorem killsFewest {excludeId : Int} {limit : UInt64} {dropped after : List (Int × UInt64)}
    (stopped : after = trim (coldStops excludeId limit) (dropped ++ after))
    (small : fileTotal (dropped ++ after) < 2 ^ 64) (nobody : -1 ∉ after.map Prod.fst) :
    KillsFewest excludeId limit (dropped ++ after) (dropped.map Prod.fst) after := by
  have part : ∀ t, t <:+ dropped ++ after → (UInt64.ofNat (fileTotal t)).toNat = fileTotal t := by
    intro t suffix
    rw [UInt64.toNat_ofNat']
    exact Nat.mod_eq_of_lt (lt_of_le_of_lt (sum_le_of_suffix suffix) small)
  refine ⟨⟨dropped, rfl, rfl⟩, ?_, fun longer suffix more => ?_⟩
  · have shape : trim (coldStops excludeId limit) (dropped ++ after) = [] ∨
        coldStops excludeId limit (trim (coldStops excludeId limit) (dropped ++ after)) = true :=
      trim_fits _
    rcases shape with empty | stops
    · rw [← stopped] at empty
      rw [empty]
      exact Or.inl (Nat.zero_le _)
    · rw [← stopped, coldStops, Bool.or_eq_true, decide_eq_true_eq, decide_eq_true_eq,
        UInt64.le_iff_toNat_le, part after (List.suffix_append _ _)] at stops
      refine stops.imp_right fun alone => ⟨fun same => nobody ?_, alone⟩
      rw [alone, same]
      exact List.mem_cons_self
  · have fails : coldStops excludeId limit longer = false :=
      not_fits_of_longer suffix (by rw [← stopped]; exact more)
    rw [coldStops, Bool.or_eq_false_iff, decide_eq_false_iff_not, UInt64.not_le,
      UInt64.lt_iff_toNat_lt, part longer suffix] at fails
    exact fails.1

/-! ### One move -/

namespace Move

theorem trace_grows (move : Move L w w') : w.trace <+: w'.trace := by
  cases move with
  | create id absent =>
    rw [createSession, absent]
    exact List.prefix_rfl
  | evict move =>
    cases move with
    | coldEvict excludeId split stopped =>
      exact (dropCold_grows _ _).trans (List.prefix_append _ _)
    | _ => exact List.prefix_append _ _
  | killNew found cold noFile => exact List.prefix_rfl
  | initFailed failed => exact List.prefix_rfl
  | loadFailed found swapped initOk failed => exact List.prefix_rfl
  | firstIn found cold noFile initOk clock reads => exact List.prefix_rfl
  | _ => exact List.prefix_append _ _

/-- A move adds at most one file, whose size it has just measured. -/
theorem total (move : Move L w w') (rep : Rep w) :
    totalBytes w'.mSessions w'.mColdLru ≤ totalBytes w.mSessions w.mColdLru ∨
      ∃ bytes, .measured bytes w.mColdUsedBytes ∈ w'.trace ∧
        totalBytes w'.mSessions w'.mColdLru = totalBytes w.mSessions w.mColdLru + bytes.toNat := by
  have hotAbsent : ∀ {id : Int} {entry : SessionMeta}, w.mSessions id = some entry →
      entry.state = .HOT → id ∉ values w.mColdLru := fun found hot =>
    rep.not_mem_cold_of_hot found hot
  have newAbsent : ∀ {id : Int} {entry : SessionMeta}, w.mSessions id = some entry →
      entry.swapFilePath = [] → id ∉ values w.mColdLru := fun found noFile member =>
    (rep.cold.holds_of_mem member found).2 noFile
  cases move with
  | evict move =>
    cases move with
    | saveFailed found hot holds failed => exact Or.inl le_rfl
    | prune found hot holds saved large exceeds =>
      exact Or.inl (totalBytes_outside (hotAbsent found hot) _).le
    | @swapOut id entry c it found hot holds full first saved accepted =>
      refine Or.inr ⟨(measureOf L c entry w).1, ?_, ?_⟩
      · refine List.mem_append_right _ (List.mem_append_left _ ?_)
        exact List.mem_cons_of_mem _ List.mem_cons_self
      · refine (totalBytes_push _ _ _).trans ?_
        rw [totalBytes_outside (hotAbsent found hot), fileBytes_update, if_pos rfl]
        rfl
    | @coldEvict excludeId dropped kept split stopped =>
      refine Or.inl ?_
      have files : (dropCold L dropped w).coldFiles = kept.map w.fileOf := dropCold_files rep split
      refine ((totalBytes_eq (dropCold L dropped w) _).trans (congrArg fileTotal files)).trans_le ?_
      rw [← totalBytes_eq, split]
      exact sum_le_of_suffix (List.suffix_append _ _)
  | create id absent =>
    have outside := (rep.not_mem_of_absent absent).2
    rw [createSession, absent]
    exact Or.inl (totalBytes_outside outside _).le
  | killHot found hot holds inside =>
    exact Or.inl (totalBytes_outside (hotAbsent found hot) _).le
  | killCold found inside => exact Or.inl (coldKilled_total rep inside)
  | killNew found cold noFile =>
    exact Or.inl (totalBytes_outside (newAbsent found noFile) _).le
  | record tokens found => exact Or.inl (totalBytes_same found (by rfl) _).le
  | touch found hot inside => exact Or.inl (totalBytes_outside (hotAbsent found hot) _).le
  | initFailed failed => exact Or.inl le_rfl
  | loadFailed found swapped initOk failed =>
    exact Or.inl (totalBytes_same found (by rfl) _).le
  | @swapIn id entry it found swapped inside initOk loaded clock reads =>
    have absent : id ∉ values (w.mColdLru.erase ⟨it, id⟩) := by
      rw [NodeList.values_erase rep.cold.values inside]
      simp
    refine Or.inl ((totalBytes_outside absent _).trans_le ?_)
    rw [← totalBytes_erase w.mSessions inside]
    exact Nat.le_add_left _ _
  | firstIn found cold noFile initOk clock reads =>
    exact Or.inl (totalBytes_outside (newAbsent found noFile) _).le

theorem exact (move : Move L w w') (rep : Rep w) (before : Exact w) (fit : SumsFit w'.trace) :
    Exact w' := by
  rcases move.total rep with less | ⟨bytes, measured, total⟩
  · exact lt_of_le_of_lt less before
  · unfold Exact
    have fits : bytes.toNat + w.mColdUsedBytes.toNat < 2 ^ 64 := fit _ measured
    rw [used_of_exact rep before] at fits
    omega

/-- The victim of a swap-out, among the values of the hot list. -/
theorem first_value {hot : List (Node Int)} {n : Node Int}
    (first : (hot.find? fun n => n.val ≠ -1) = some n) :
    (values hot).find? (· ≠ -1) = some n.val := by
  rw [values, List.find?_map]
  show Option.map Node.val (hot.find? fun n => n.val ≠ -1) = some n.val
  rw [first]
  rfl

theorem events (move : Move L w w') (rep : Rep w) (before : Exact w) :
    ∀ e ∈ w'.trace, e ∈ w.trace ∨ EventOk e := by
  intro e member
  cases move with
  | evict move =>
    cases move with
    | saveFailed found hot holds failed =>
      refine (List.mem_append.mp member).imp_right fun new => ?_
      rw [List.mem_singleton.mp new]
      trivial
    | prune found hot holds saved large exceeds =>
      refine (List.mem_append.mp member).imp_right fun new => ?_
      simp only [saveEvents, List.mem_cons, List.not_mem_nil, or_false] at new
      rcases new with rfl | rfl <;> trivial
    | swapOut found hot holds full first saved accepted =>
      refine (List.mem_append.mp member).imp_right fun new => ?_
      simp only [saveEvents, List.mem_append, List.mem_cons, List.not_mem_nil, or_false] at new
      rcases new with (rfl | rfl) | rfl | rfl
      · trivial
      · trivial
      · rfl
      · exact ⟨first_value first, rfl⟩
    | @coldEvict excludeId dropped kept split stopped =>
      rcases List.mem_append.mp member with earlier | new
      · exact dropCold_events rep before split e earlier
      · rw [List.mem_singleton.mp new]
        refine Or.inr ?_
        have whole : w.coldFiles = dropped.map w.fileOf ++ kept.map w.fileOf := by
          rw [World.coldFiles, split, List.map_append]
        rw [whole] at stopped
        have small : fileTotal (dropped.map w.fileOf ++ kept.map w.fileOf) < 2 ^ 64 := by
          rw [← whole, World.coldFiles, ← totalBytes_eq]
          exact before
        show KillsFewest _ _ _ _ _
        rw [whole, ← map_fst_fileOf w dropped]
        refine killsFewest stopped small fun member => rep.nobody ?_
        rw [map_fst_fileOf] at member
        rw [split, NodeList.values_append]
        exact List.mem_append_right _ member
  | create id absent =>
    rw [createSession, absent] at member
    exact Or.inl member
  | killHot found hot holds inside =>
    refine (List.mem_append.mp member).imp_right fun new => ?_
    rw [List.mem_singleton.mp new]
    rfl
  | killCold found inside =>
    refine (List.mem_append.mp member).imp_right fun new => ?_
    rcases List.mem_cons.mp new with rfl | new
    · rfl
    · rw [List.mem_singleton.mp new]
      exact bytes_le_used rep before found inside
  | killNew found cold noFile => exact Or.inl member
  | record tokens found =>
    refine (List.mem_append.mp member).imp_right fun new => ?_
    rw [List.mem_singleton.mp new]
    trivial
  | touch found hot inside =>
    refine (List.mem_append.mp member).imp_right fun new => ?_
    rw [List.mem_singleton.mp new]
    rfl
  | initFailed failed => exact Or.inl member
  | loadFailed found swapped initOk failed => exact Or.inl member
  | @swapIn id entry it found swapped inside initOk loaded clock reads =>
    refine (List.mem_append.mp member).imp_right fun new => ?_
    rcases List.mem_cons.mp new with rfl | new
    · rfl
    · rw [List.mem_singleton.mp new]
      exact bytes_le_used (n := ⟨it, id⟩) rep before found inside
  | firstIn found cold noFile initOk clock reads => exact Or.inl member

end Move

/-! ### Every run -/

/-- The invariant of the trace: as long as the sizes fit, the total is exact and every event says
what it should. -/
structure Sound (w : World σ) : Prop where
  rep : Rep w
  exact : SumsFit w.trace → Exact w
  events : SumsFit w.trace → ∀ e ∈ w.trace, EventOk e

theorem Sound.start (nCtx : Nat) (swapDir : Bytes) (llama : σ) :
    Sound (World.start nCtx swapDir llama) where
  rep := Rep.start nCtx swapDir llama
  exact _ := show 0 < 2 ^ 64 by omega
  events _ _ member := by cases member

theorem SumsFit.before {trace trace' : List Event} (grows : trace <+: trace') (fit : SumsFit trace') :
    SumsFit trace := fun e member => fit e (grows.subset member)

theorem Move.sound (move : Move L w w') (sound : Sound w) : Sound w' where
  rep := move.rep sound.rep
  exact fit := move.exact sound.rep (sound.exact (fit.before move.trace_grows)) fit
  events fit e member := by
    have earlier := fit.before move.trace_grows
    rcases move.events sound.rep (sound.exact earlier) e member with old | ok
    · exact sound.events earlier e old
    · exact ok

theorem Moves.sound (moves : Moves L w w') (sound : Sound w) : Sound w' := by
  induction moves with
  | refl => exact sound
  | tail _ move ih => exact move.sound ih

theorem Moves.trace_grows (moves : Moves L w w') : w.trace <+: w'.trace := by
  induction moves with
  | refl => exact List.prefix_rfl
  | tail _ move ih => exact ih.trans move.trace_grows

theorem withLimits_sound (op : Op) (sound : Sound w) : Sound (withLimits op w) := by
  cases op with
  | setHotLimit count =>
    exact ⟨withLimits_rep (.setHotLimit count) sound.rep, sound.exact, sound.events⟩
  | setColdLimit bytes =>
    exact ⟨withLimits_rep (.setColdLimit bytes) sound.rep, sound.exact, sound.events⟩
  | _ => exact sound

/-- **Every call keeps the trace sound.** -/
theorem serve_sound (sound : Sound w) {op : Op} {r : Reply} (served : serve L op w = .ok (r, w')) :
    Sound w' :=
  Moves.sound (serve_served sound.rep served).moves (withLimits_sound op sound)

theorem withLimits_trace (op : Op) (w : World σ) : (withLimits op w).trace = w.trace := by
  cases op with
  | _ => rfl

theorem serve_grows (rep : Rep w) {op : Op} {r : Reply} (served : serve L op w = .ok (r, w')) :
    w.trace <+: w'.trace := by
  have grows := Moves.trace_grows (serve_served rep served).moves
  rw [withLimits_trace] at grows
  exact grows

end MiniV
