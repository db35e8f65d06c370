/-
**The times of the last uses.**

Every session carries the time it was last used at, `lastUsedMs`, and no function of the manager ever
reads it: who is evicted is read off the lists. What the lists say and what the times say is the same,
whatever the daemon does in whatever order, as long as the clock is steady.

* `Move.inTimeOrder`: every move keeps the lists in the order of the times. Session -1, whom evictions
  pass over, may be older than sessions in front of it, but within `mHotLru` it is in order too;
* `lists_in_time_order`: so it is in every state of the daemon, and whom an eviction picks is the least
  recently used.
-/

import MiniV.Daemon.Crash
import MiniV.Session.LruOrder

namespace MiniV

open MiniV.Library
open MiniV.Library.NodeList (values)

variable {σ : Type} {L : Llama σ} {w w' : World σ} {d d' : Daemon σ} {id : Int} {entry : SessionMeta}
  {c : Ctx} {nCtx : Nat} {swapDir : Bytes} {time : σ → Int}

/-! ### Times -/

/-- **The clock is steady**: it never goes back, and `nowMs` reads it. -/
structure SteadyClock (L : Llama σ) (time : σ → Int) : Prop where
  reads : ∀ s, time s ≤ (L.nowMs s).1 ∧ (L.nowMs s).1 ≤ time (L.nowMs s).2
  init : ∀ c s, time s ≤ time (L.initFromModel c s).2
  free : ∀ c s, time s ≤ time (L.free c s)
  save : ∀ c path tokens s, time s ≤ time (L.stateSeqSaveFile c path tokens s).2
  size : ∀ c s, time s ≤ time (L.stateSeqGetSize c s).2
  load : ∀ c path room s, time s ≤ time (L.stateSeqLoadFile c path room s).2
  remove : ∀ c p0 p1 s, time s ≤ time (L.memorySeqRm c p0 p1 s)
  add : ∀ c p0 p1 delta s, time s ≤ time (L.memorySeqAdd c p0 p1 delta s)
  decode : ∀ c batch s, time s ≤ time (L.decode c batch s).2
  sample : ∀ c s, time s ≤ time (L.samplerSample c s).2
  unlink : ∀ path s, time s ≤ time (L.removeFile path s)

/-- When a session was last used. -/
def lastUsed (w : World σ) (id : Int) : Int :=
  match w.mSessions id with
  | none => 0
  | some entry => entry.lastUsedMs

/-- The two lists, without session -1. -/
def named (w : World σ) : List Int := w.levels.order.filter (· ≠ -1)

/-- **The lists are in the order of the times**, and no time is still to come. -/
structure InTimeOrder (time : σ → Int) (w : World σ) : Prop where
  past : ∀ id entry, w.mSessions id = some entry → entry.lastUsedMs ≤ time w.llama
  hot : (values w.mHotLru).Pairwise fun a b => lastUsed w a ≤ lastUsed w b
  order : (named w).Pairwise fun a b => lastUsed w a ≤ lastUsed w b

theorem lastUsed_found (found : w.mSessions id = some entry) : lastUsed w id = entry.lastUsedMs := by
  rw [lastUsed, found]

theorem lastUsed_congr (same : w'.mSessions id = w.mSessions id) : lastUsed w' id = lastUsed w id := by
  rw [lastUsed, lastUsed, same]

/-- Nobody in a list was used later than now. -/
theorem InTimeOrder.lastUsed_le (inOrder : InTimeOrder time w) (found : (w.mSessions id).isSome = true) :
    lastUsed w id ≤ time w.llama := by
  obtain ⟨entry, found⟩ := Option.isSome_iff_exists.mp found
  rw [lastUsed_found found]
  exact inOrder.past id entry found

/-- Where a session is, when its entry is stored. -/
theorem past_update {after : Option SessionMeta} (inOrder : InTimeOrder time w)
    (sessions : w'.mSessions = Function.update w.mSessions id after)
    (later : time w.llama ≤ time w'.llama)
    (own : ∀ entry, after = some entry → entry.lastUsedMs ≤ time w'.llama) :
    ∀ id entry, w'.mSessions id = some entry → entry.lastUsedMs ≤ time w'.llama := by
  intro id' entry found
  rw [sessions] at found
  by_cases same : id' = id
  · subst same
    rw [Function.update_self] at found
    exact own entry found
  · rw [Function.update_of_ne same] at found
    exact (inOrder.past id' entry found).trans later

/-- **Fewer sessions in the lists**, with the times they had. -/
theorem InTimeOrder.fewer (inOrder : InTimeOrder time w)
    (past : ∀ id entry, w'.mSessions id = some entry → entry.lastUsedMs ≤ time w'.llama)
    (hot : (values w'.mHotLru).Sublist (values w.mHotLru)) (order : (named w').Sublist (named w))
    (times : ∀ id ∈ w'.levels.order, lastUsed w' id = lastUsed w id) : InTimeOrder time w' where
  past := past
  hot := sorted_sublist inOrder.hot hot fun id member => times id (List.mem_append_right _ member)
  order := sorted_sublist inOrder.order order fun id member => times id (List.mem_filter.mp member).1

/-- The lists stay. -/
theorem InTimeOrder.same (inOrder : InTimeOrder time w)
    (past : ∀ id entry, w'.mSessions id = some entry → entry.lastUsedMs ≤ time w'.llama)
    (lists : w'.levels = w.levels) (times : ∀ id ∈ w.levels.order, lastUsed w' id = lastUsed w id) :
    InTimeOrder time w' := by
  have hot : values w'.mHotLru = values w.mHotLru := congrArg Levels.hot lists
  refine inOrder.fewer past (by rw [hot]) ?_ fun id member => times id (lists ▸ member)
  rw [named, named, lists]

/-- **A session is used** now, and goes to the end of the hot list. -/
theorem InTimeOrder.used (inOrder : InTimeOrder time w) (rep : Rep w) (cold hot : List Int)
    {after : SessionMeta} (sessions : w'.mSessions = Function.update w.mSessions id (some after))
    (lists : w'.levels = ⟨cold, hot ++ [id]⟩) (fewerCold : cold.Sublist (values w.mColdLru))
    (fewerHot : hot.Sublist (values w.mHotLru)) (elsewhere : id ∉ cold ++ hot)
    (now : time w.llama ≤ after.lastUsedMs ∧ after.lastUsedMs ≤ time w'.llama) : InTimeOrder time w' := by
  have others : ∀ other ∈ cold ++ hot, lastUsed w' other = lastUsed w other := by
    intro other member
    have differs : other ≠ id := fun same => elsewhere (same ▸ member)
    refine lastUsed_congr ?_
    rw [sessions, Function.update_of_ne differs]
  have last : lastUsed w' id = after.lastUsedMs := by
    refine lastUsed_found ?_
    rw [sessions, Function.update_self]
  have latest : ∀ other ∈ cold ++ hot, lastUsed w' other ≤ lastUsed w' id := by
    intro other member
    have inside : other ∈ w.levels.order := (fewerCold.append fewerHot).subset member
    rw [others other member, last]
    exact (inOrder.lastUsed_le (alive_of_mem_order rep other inside)).trans now.1
  have hotIs : values w'.mHotLru = hot ++ [id] := congrArg Levels.hot lists
  refine ⟨past_update inOrder sessions (now.1.trans now.2) (of_some now.2), ?_, ?_⟩
  · rw [hotIs]
    exact sorted_concat inOrder.hot fewerHot
      (fun other member => others other (List.mem_append_right _ member))
      fun other member => latest other (List.mem_append_right _ member)
  · have fewer : ((cold ++ hot).filter (· ≠ -1)).Sublist (named w) :=
      (fewerCold.append fewerHot).filter _
    rw [named, lists, Levels.order, ← List.append_assoc, List.filter_append]
    by_cases nobody : id = -1
    · rw [List.filter_cons_of_neg (by simp [nobody]), List.filter_nil, List.append_nil]
      exact sorted_sublist inOrder.order fewer
        fun other member => others other (List.mem_filter.mp member).1
    · rw [List.filter_cons_of_pos (by simp [nobody]), List.filter_nil]
      exact sorted_concat inOrder.order fewer
        (fun other member => others other (List.mem_filter.mp member).1)
        fun other member => latest other (List.mem_filter.mp member).1

/-- A change to an entry that leaves its time alone. -/
theorem lastUsed_stays {after : Option SessionMeta} (found : w.mSessions id = some entry)
    (sessions : w'.mSessions = Function.update w.mSessions id after)
    (same : after.map SessionMeta.lastUsedMs = some entry.lastUsedMs) (other : Int) :
    lastUsed w' other = lastUsed w other := by
  by_cases own : other = id
  · subst own
    obtain ⟨entry', rfl, time⟩ := Option.map_eq_some_iff.mp same
    rw [lastUsed_found found, ← time]
    refine lastUsed_found ?_
    rw [sessions, Function.update_self]
  · refine lastUsed_congr ?_
    rw [sessions, Function.update_of_ne own]

/-- A session that leaves the lists is not looked up there. -/
theorem lastUsed_gone {after : Option SessionMeta} {l : List Int} (absent : id ∉ l)
    (sessions : w'.mSessions = Function.update w.mSessions id after) :
    ∀ other ∈ l, lastUsed w' other = lastUsed w other := by
  intro other member
  have differs : other ≠ id := fun same => absent (same ▸ member)
  refine lastUsed_congr ?_
  rw [sessions, Function.update_of_ne differs]

/-! ### One move -/

section Moves

variable (steady : SteadyClock L time)

include steady

theorem saveOf_time (c : Ctx) (entry : SessionMeta) (w : World σ) :
    time w.llama ≤ time (saveOf L c entry w).2 := steady.save _ _ _ _

theorem measureOf_time (c : Ctx) (entry : SessionMeta) (w : World σ) :
    time w.llama ≤ time (measureOf L c entry w).2 :=
  (saveOf_time steady c entry w).trans (steady.size _ _)

theorem pruneOf_time (c : Ctx) (count : Nat) (llama : σ) :
    time llama ≤ time (pruneOf L c count llama) := (steady.remove _ _ _ _).trans (steady.add _ _ _ _ _)

theorem loadOf_time (entry : SessionMeta) (w : World σ) : time w.llama ≤ time (loadOf L entry w).2 :=
  (steady.init _ _).trans (steady.load _ _ _ _)

/-- A session of the cold list is killed. -/
theorem InTimeOrder.coldKilled (inOrder : InTimeOrder time w) (rep : Rep w) {n : Node Int}
    (inside : n ∈ w.mColdLru) (found : w.mSessions n.val = some entry) :
    InTimeOrder time (coldKilled L n entry w) := by
  have swapped : IsSwapped entry :=
    rep.cold.holds_of_mem (NodeList.mem_values.mpr ⟨n, inside, rfl⟩) found
  have list : values (w.mColdLru.erase n) = (values w.mColdLru).filter (· ≠ n.val) :=
    NodeList.values_erase rep.cold.values inside
  have absent : n.val ∉ (MiniV.coldKilled L n entry w).levels.order := by
    show n.val ∉ values (w.mColdLru.erase n) ++ values w.mHotLru
    rw [list, List.mem_append, List.mem_filter, decide_eq_true_iff]
    exact fun member => member.elim (fun inside => inside.2 rfl)
      (rep.not_mem_hot_of_cold found swapped.1)
  refine inOrder.fewer (past_update inOrder rfl (steady.unlink _ _) of_none) (List.Sublist.refl _) ?_
    (lastUsed_gone absent rfl)
  refine (List.Sublist.append ?_ (List.Sublist.refl _)).filter _
  show (values (w.mColdLru.erase n)).Sublist (values w.mColdLru)
  rw [list]
  exact List.filter_sublist

theorem Evict.inTimeOrder (move : Evict L w w') (rep : Rep w) (inOrder : InTimeOrder time w) :
    InTimeOrder time w' := by
  cases move with
  | @saveFailed id entry c found hot holds failed =>
    refine inOrder.same (fun id entry found => ?_) rfl fun _ _ => rfl
    exact (inOrder.past id entry found).trans (saveOf_time steady c _ w)
  | @prune id entry c found hot holds saved large exceeds =>
    have later : time w.llama ≤
        time (pruneOf L c (pruneAmount entry.tokens.length) (measureOf L c entry w).2) :=
      (measureOf_time steady c entry w).trans (pruneOf_time steady c _ _)
    exact inOrder.same
      (past_update inOrder rfl later (of_some ((inOrder.past id entry found).trans later))) rfl
      fun other _ => lastUsed_stays found rfl rfl other
  | @swapOut id entry c it found hot holds full first saved accepted =>
    obtain ⟨inside, nobody⟩ := Move.inside_of_first first
    have later : time w.llama ≤ time (L.free c (measureOf L c entry w).2) :=
      (measureOf_time steady c entry w).trans (steady.free _ _)
    have hotList : values (w.mHotLru.erase ⟨it, id⟩) = (values w.mHotLru).filter (· ≠ id) :=
      NodeList.values_erase rep.hot.values inside
    refine inOrder.fewer
      (past_update inOrder rfl later (of_some ((inOrder.past id entry found).trans later))) ?_ ?_
      fun other _ => lastUsed_stays found rfl rfl other
    · show (values (w.mHotLru.erase ⟨it, id⟩)).Sublist _
      rw [hotList]
      exact List.filter_sublist
    · -- the victim is the first but for -1, so only the boundary moves
      obtain ⟨_, early, late, split, none⟩ := List.find?_eq_some_iff_append.mp first
      have passed : (values early).filter (· ≠ -1) = [] := by
        rw [List.filter_eq_nil_iff]
        intro other member
        obtain ⟨n, inside', rfl⟩ := NodeList.mem_values.mp member
        simpa using none n inside'
      have apart : ∀ other ∈ values early ++ values late, other ≠ id := by
        have distinct := rep.hot.values
        rw [split, NodeList.values_append, NodeList.values_cons] at distinct
        intro other member same
        have nodup := (List.nodup_middle.mp distinct).notMem
        exact nodup (same ▸ member)
      have kept : (values w.mHotLru).filter (· ≠ id) = values early ++ values late := by
        rw [split, NodeList.values_append, NodeList.values_cons, List.filter_append,
          List.filter_cons_of_neg (by simp), ← List.filter_append, List.filter_eq_self]
        exact fun other member => decide_eq_true (apart other member)
      have moved : values (w.mColdLru ++ [⟨w.nextNode, id⟩]) = values w.mColdLru ++ [id] :=
        NodeList.values_append ..
      show (List.filter (· ≠ -1) (values (w.mColdLru ++ [Node.mk w.nextNode id]) ++
        values (w.mHotLru.erase ⟨it, id⟩))).Sublist (named w)
      rw [hotList, kept, moved, named, World.levels, Levels.order, split, NodeList.values_append,
        NodeList.values_cons]
      have here : ([id] : List Int).filter (· ≠ -1) = [id] := List.filter_cons_of_pos (by simpa using nobody)
      simp only [List.filter_append, passed, here, List.append_assoc, List.nil_append]
      rw [List.filter_cons_of_pos (by simpa using nobody)]
      exact List.Sublist.refl _
  | @coldEvict excludeId dropped kept split stopped =>
    have dropped' : InTimeOrder time (dropCold L dropped w) := by
      refine Move.dropCold_induction (P := InTimeOrder time) rep split inOrder ?_
      intro w' n entry rep' inOrder' _ inside found _
      exact inOrder'.coldKilled steady rep' inside found
    exact ⟨dropped'.past, dropped'.hot, dropped'.order⟩

/-- **Every move** keeps the lists in the order of the times. -/
theorem Move.inTimeOrder (move : Move L w w') (rep : Rep w) (inOrder : InTimeOrder time w) :
    InTimeOrder time w' := by
  cases move with
  | evict move => exact Evict.inTimeOrder steady move rep inOrder
  | create id absent =>
    obtain ⟨noHot, noCold⟩ := rep.not_mem_of_absent absent
    have outside : id ∉ w.levels.order := fun member =>
      (List.mem_append.mp member).elim noCold noHot
    have now := steady.reads w.llama
    rw [createSession_new absent]
    exact inOrder.same (past_update inOrder rfl (now.1.trans now.2) (of_some now.2)) rfl
      (lastUsed_gone outside rfl)
  | @killHot id entry c it found hot holds inside =>
    have list : values (w.mHotLru.erase ⟨it, id⟩) = (values w.mHotLru).filter (· ≠ id) :=
      NodeList.values_erase rep.hot.values inside
    have fewer : (values (w.mHotLru.erase ⟨it, id⟩)).Sublist (values w.mHotLru) := by
      rw [list]
      exact List.filter_sublist
    have absent : id ∉ values w.mColdLru ++ values (w.mHotLru.erase ⟨it, id⟩) := by
      rw [list, List.mem_append, List.mem_filter, decide_eq_true_iff]
      exact fun member => member.elim (rep.not_mem_cold_of_hot found hot) fun inside => inside.2 rfl
    exact inOrder.fewer (past_update inOrder rfl (steady.free _ _) of_none) fewer
      ((List.Sublist.append (List.Sublist.refl _) fewer).filter _) (lastUsed_gone absent rfl)
  | killCold found inside => exact inOrder.coldKilled steady rep inside found
  | @killNew id entry found cold noFile =>
    have noHot := rep.not_mem_hot_of_cold found cold
    have noCold : id ∉ values w.mColdLru := fun member => (rep.cold.holds_of_mem member found).2 noFile
    have outside : id ∉ w.levels.order := fun member =>
      (List.mem_append.mp member).elim noCold noHot
    exact inOrder.same (past_update inOrder rfl le_rfl of_none) rfl (lastUsed_gone outside rfl)
  | @record id entry tokens found =>
    exact inOrder.same (past_update inOrder rfl le_rfl (of_some (inOrder.past id entry found))) rfl
      fun other _ => lastUsed_stays found rfl rfl other
  | @touch id entry it found hot inside =>
    have list : values (w.mHotLru.erase ⟨it, id⟩) = (values w.mHotLru).filter (· ≠ id) :=
      NodeList.values_erase rep.hot.values inside
    refine inOrder.used rep (values w.mColdLru) ((values w.mHotLru).filter (· ≠ id)) rfl ?_
      (List.Sublist.refl _) List.filter_sublist ?_ (steady.reads _)
    · show Levels.mk _ (values (w.mHotLru.erase ⟨it, id⟩ ++ [⟨w.nextNode, id⟩])) = _
      rw [NodeList.values_append, list]
      rfl
    · rw [List.mem_append, List.mem_filter, decide_eq_true_iff]
      exact fun member => member.elim (rep.not_mem_cold_of_hot found hot) fun inside => inside.2 rfl
  | initFailed failed =>
    refine inOrder.same (fun id entry found => ?_) rfl fun _ _ => rfl
    exact (inOrder.past id entry found).trans (steady.init _ _)
  | @loadFailed id entry found swapped initOk failed =>
    have later : time w.llama ≤ time (L.free w.created (loadOf L entry w).2) :=
      (loadOf_time steady entry w).trans (steady.free _ _)
    exact inOrder.same
      (past_update inOrder rfl later (of_some ((inOrder.past id entry found).trans later))) rfl
      fun other _ => lastUsed_stays found rfl rfl other
  | @swapIn id entry it found swapped inside initOk loaded clock reads =>
    have list : values (w.mColdLru.erase ⟨it, id⟩) = (values w.mColdLru).filter (· ≠ id) :=
      NodeList.values_erase rep.cold.values inside
    have now := steady.reads (L.removeFile entry.swapFilePath (loadOf L entry w).2)
    rw [← reads] at now
    refine inOrder.used rep ((values w.mColdLru).filter (· ≠ id)) (values w.mHotLru) rfl ?_
      List.filter_sublist (List.Sublist.refl _) ?_
      ⟨((loadOf_time steady entry w).trans (steady.unlink _ _)).trans now.1, now.2⟩
    · show Levels.mk (values (w.mColdLru.erase ⟨it, id⟩)) (values (w.mHotLru ++ [⟨w.nextNode, id⟩])) = _
      rw [NodeList.values_append, list]
      rfl
    · rw [List.mem_append, List.mem_filter, decide_eq_true_iff]
      exact fun member => member.elim (fun inside => inside.2 rfl)
        (rep.not_mem_hot_of_cold found swapped.1)
  | @firstIn id entry found cold noFile initOk clock reads =>
    have noCold : id ∉ values w.mColdLru := fun member => (rep.cold.holds_of_mem member found).2 noFile
    have now := steady.reads (L.initFromModel w.created w.llama).2
    rw [← reads] at now
    refine inOrder.used rep (values w.mColdLru) (values w.mHotLru) rfl ?_
      (List.Sublist.refl _) (List.Sublist.refl _) ?_ ⟨(steady.init _ _).trans now.1, now.2⟩
    · show Levels.mk _ (values (w.mHotLru ++ [⟨w.nextNode, id⟩])) = _
      rw [NodeList.values_append]
      rfl
    · rw [List.mem_append]
      exact fun member => member.elim noCold (rep.not_mem_hot_of_cold found cold)

theorem Moves.inTimeOrder (moves : Moves L w w') (rep : Rep w) (inOrder : InTimeOrder time w) :
    InTimeOrder time w' := by
  induction moves with
  | refl => exact inOrder
  | tail earlier move ih => exact move.inTimeOrder steady (Moves.rep earlier rep) ih

theorem serve_inTimeOrder {op : Op} {r : Reply} (rep : Rep w) (inOrder : InTimeOrder time w)
    (served : serve L op w = .ok (r, w')) : InTimeOrder time w' := by
  have limits : InTimeOrder time (withLimits op w) := by
    cases op with
    | _ => exact ⟨inOrder.past, inOrder.hot, inOrder.order⟩
  exact Moves.inTimeOrder steady (serve_served rep served).moves (withLimits_rep op rep) limits

/-! ### Whole runs -/

omit steady in
/-- Something else goes on, and time with it. -/
theorem InTimeOrder.elsewhere (inOrder : InTimeOrder time w) {llama : σ} {trace : List Event}
    (later : time w.llama ≤ time llama) : InTimeOrder time (w.elsewhere llama trace) :=
  ⟨fun id entry found => (inOrder.past id entry found).trans later, inOrder.hot, inOrder.order⟩

theorem Goes.inTimeOrder (goes : Goes L w w') (rep : Rep w) (inOrder : InTimeOrder time w) :
    InTimeOrder time w' := by
  cases goes with
  | rests => exact inOrder
  | calls served => exact serve_inTimeOrder steady rep inOrder served
  | decodes | loopDecodes => exact inOrder.elsewhere (steady.decode _ _ _)
  | samples => exact inOrder.elsewhere (steady.sample _ _)

end Moves

/-! ### Whom an eviction picks -/

/-- The victim of a hot eviction was not used later than anybody else who is HOT. -/
theorem hotVictim_oldest (inOrder : InTimeOrder time w) {excludeId : Int}
    (picks : hotVictim excludeId w.mHotLru ≠ -1) :
    ∀ id ∈ values w.mHotLru, id ≠ excludeId →
      lastUsed w (hotVictim excludeId w.mHotLru) ≤ lastUsed w id := by
  intro id member other
  obtain ⟨n, inside, rfl⟩ := NodeList.mem_values.mp member
  rw [hotVictim] at picks ⊢
  have sorted := inOrder.hot
  rw [NodeList.values, List.pairwise_map] at sorted
  cases first : w.mHotLru.find? fun n => n.val ≠ excludeId with
  | none =>
    rw [first] at picks
    exact absurd rfl picks
  | some victim =>
    exact sorted_find? sorted first n inside (decide_eq_true other)

/-- Who is picked from the cold list is the first that is not excluded. -/
theorem coldVictim_find? {excludeId victim : Int} {l : List (Node Int)} (distinct : (values l).Nodup)
    (picks : coldVictim excludeId l = some victim) :
    (values l).find? (· ≠ excludeId) = some victim := by
  cases l with
  | nil => cases picks
  | cons front rest =>
    unfold coldVictim at picks
    dsimp only at picks
    rw [NodeList.values_cons]
    by_cases excluded : front.val = excludeId
    · rw [if_pos excluded] at picks
      rw [List.find?_cons_of_neg (by simp [excluded])]
      cases rest with
      | nil => cases picks
      | cons next rest =>
        cases picks
        rw [NodeList.values_cons, NodeList.values_cons, List.nodup_cons, excluded] at distinct
        rw [NodeList.values_cons]
        refine List.find?_cons_of_pos (decide_eq_true fun same => distinct.1 ?_)
        rw [same]
        exact List.mem_cons_self
    · rw [if_neg excluded] at picks
      cases picks
      exact List.find?_cons_of_pos (decide_eq_true excluded)

/-- The victim of a cold eviction was not used later than anybody else in the lists. -/
theorem coldVictim_oldest (inOrder : InTimeOrder time w) (rep : Rep w) {excludeId victim : Int}
    (picks : coldVictim excludeId w.mColdLru = some victim) :
    ∀ id ∈ w.levels.order, id ≠ excludeId → id ≠ -1 → lastUsed w victim ≤ lastUsed w id := by
  intro id member other nobody
  have first := coldVictim_find? rep.cold.values picks
  have cold : (values w.mColdLru).filter (· ≠ -1) = values w.mColdLru :=
    List.filter_eq_self.mpr fun id inside => decide_eq_true fun same => rep.nobody (same ▸ inside)
  have found : (MiniV.named w).find? (· ≠ excludeId) = some victim := by
    rw [MiniV.named, World.levels, Levels.order, List.filter_append, cold, List.find?_append, first]
    rfl
  exact sorted_find? inOrder.order found id
    (List.mem_filter.mpr ⟨member, decide_eq_true nobody⟩) (decide_eq_true other)

/-- **The lists are in the order of the last uses**, after any actions in any order, if the clock is
steady: so whoever a hot or a cold eviction picks was not used later than anyone else it could pick, and
nobody's last use is still to come. -/
theorem lists_in_time_order (steady : SteadyClock L time) {ready : Bool} {llama : σ}
    {actions : List Action}
    (reach : run (step L) actions (Daemon.start ready nCtx swapDir llama) = .ok d) :
    InTimeOrder time d.world ∧
      (∀ excludeId, hotVictim excludeId d.world.mHotLru ≠ -1 → ∀ id ∈ values d.world.mHotLru,
        id ≠ excludeId →
          lastUsed d.world (hotVictim excludeId d.world.mHotLru) ≤ lastUsed d.world id) ∧
      (∀ excludeId victim, coldVictim excludeId d.world.mColdLru = some victim →
        ∀ id ∈ d.world.levels.order, id ≠ excludeId → id ≠ -1 →
          lastUsed d.world victim ≤ lastUsed d.world id) := by
  have start : InTimeOrder time (World.start nCtx swapDir llama) :=
    ⟨fun id entry found => (by cases found), .nil, .nil⟩
  have inOrder := world_keeps (fun _ _ reached inOrder goes =>
    Goes.inTimeOrder steady goes reached.rep inOrder) start reach
  exact ⟨inOrder, fun _ picks => hotVictim_oldest inOrder picks,
    fun _ _ picks => coldVictim_oldest inOrder (reached_of_daemon reach).rep picks⟩

/-- The clock of the small llama goes on by one whenever it is read. -/
theorem sim_steady (capacity : Nat) (header : UInt64) : SteadyClock (sim capacity header) Sim.clock where
  reads s := ⟨le_rfl, Int.le_add_one le_rfl⟩
  init _ _ := le_rfl
  free _ _ := le_rfl
  save _ _ _ _ := le_rfl
  size _ _ := le_rfl
  load c path room s := by
    unfold sim
    dsimp only
    split
    · exact le_rfl
    · split <;> exact le_rfl
  remove _ _ _ _ := le_rfl
  add _ _ _ _ _ := le_rfl
  decode c batch s := by
    unfold sim
    dsimp only
    split <;> exact le_rfl
  sample c s := by
    unfold sim
    dsimp only
    split <;> exact le_rfl
  unlink _ _ := le_rfl

/-- An inference on a session, with all its steps. -/
def talkOn (sessionId : Int) (reqId : Nat) : List Action :=
  .inferStream sessionId (text "a") 0 :: List.replicate 5 (.advance (.hal reqId))

/-- Session -1 is used first and never swapped out. -/
def passedOver : List Action :=
  [.createSession (-1), .createSession 1, .createSession 2] ++ talkOn (-1) 1 ++ talkOn 1 2 ++
    [.command (.setHotLimit 2), .command (.setHotLimit 1)] ++ talkOn 2 3

theorem lists_in_time_order_passedOver : ∃ d,
    run (step (sim 9 10)) passedOver (Daemon.start true 9 (text "/s") (Sim.start [])) = .ok d ∧
    d.world.levels = ⟨[1], [-1, 2]⟩ ∧ (lastUsed d.world (-1) < lastUsed d.world 1) ∧
    InTimeOrder Sim.clock d.world := by
  have state : ∃ d,
      run (step (sim 9 10)) passedOver (Daemon.start true 9 (text "/s") (Sim.start [])) = .ok d ∧
        d.world.levels = ⟨[1], [-1, 2]⟩ ∧ lastUsed d.world (-1) < lastUsed d.world 1 := by
    refine gives_iff.mp ?_
    decide +kernel
  obtain ⟨d, reach, lists, older⟩ := state
  exact ⟨d, reach, lists, older, (lists_in_time_order (sim_steady 9 10) reach).1⟩

end MiniV
