/-
**The calls of the manager.**

What each public call leaves, from a state with the representation invariant:

* `recordTokens_spec`: the tokens are appended, and a HOT session moves to the end of the hot list;
* `activateForInfer_hot`: a HOT session moves to the end of the hot list;
* `activateForInfer_cold`: the activation of a COLD session is an eviction of HOT sessions, followed
  by one move, or by the use of an entry that is gone;
* `serve_spec`: every call is a sequence of moves, and faults only in that one way.
-/

import MiniV.Session.Eviction

namespace MiniV

open MiniV.Library
open MiniV.Library.NodeList (values)

variable {σ : Type} {L : Llama σ} {w w' : World σ}

/-! ### `touchHot` and `recordTokens` -/

/-- A HOT session moves to the end of the hot list; its entry keeps all but its place and its time. -/
structure Touched (L : Llama σ) (id : Int) (entry : SessionMeta) (w w' : World σ) : Prop where
  move : Move L w w'
  entry : ∃ entry', w'.mSessions id = some entry' ∧ entry'.state = .HOT ∧ entry'.ctx = entry.ctx ∧
    entry'.tokens = entry.tokens
  others : ∀ id', id' ≠ id → w'.mSessions id' = w.mSessions id'
  outside : w'.llama = (L.nowMs w.llama).2
  hot : values w'.mHotLru = (values w.mHotLru).filter (· ≠ id) ++ [id]
  cold : w'.mColdLru = w.mColdLru
  limits : w'.mHotLimit = w.mHotLimit ∧ w'.mColdLimitBytes = w.mColdLimitBytes
  quiet : Quiet w w'

theorem touchHot_spec (rep : Rep w) {id : Int} {entry : SessionMeta}
    (found : w.mSessions id = some entry) (hot : entry.state = .HOT) :
    ∃ w', touchHot L id w = .ok w' ∧ Touched L id entry w w' := by
  obtain ⟨it, inside, erased⟩ := hotErase_eq rep found hot
  refine ⟨_, ?_, .touch found hot inside, ⟨_, Function.update_self .., hot, rfl, rfl⟩,
    fun id' other => Function.update_of_ne other _ _, rfl, ?_, rfl, ⟨rfl, rfl⟩,
    .one (e := .erased id id) rfl trivial⟩
  · simp only [touchHot, World.deref, found, ok_bind, erased, World.hotPush, World.assign,
      rep.keyed id entry found, prevEnd_append]
  · rw [NodeList.values_append, NodeList.values_erase rep.hot.values inside]
    rfl

/-- The entry of a session after tokens were appended. -/
def longerEntry (entry : SessionMeta) (tokens : List Token) : SessionMeta :=
  { entry with tokens := entry.tokens ++ tokens }

/-- The world after tokens were appended to a session. -/
def recordedOf (id : Int) (entry : SessionMeta) (tokens : List Token) (w : World σ) : World σ :=
  { w with
    mSessions := Function.update w.mSessions id (some (longerEntry entry tokens))
    trace := w.trace ++ [.recorded id tokens] }

theorem recordTokens_eq {id : Int} {entry : SessionMeta} (found : w.mSessions id = some entry)
    (tokens : List Token) : recordTokens L id tokens w =
      if entry.state = .HOT then touchHot L id (recordedOf id entry tokens w)
      else .ok (recordedOf id entry tokens w) := by
  unfold recordTokens
  rw [found]
  obtain ⟨_, state⟩ := entry
  cases state with
  | HOT => rfl
  | COLD => rfl

/-- **Recording** appends to the tokens, and touches a HOT session. -/
theorem recordTokens_spec (rep : Rep w) {id : Int} {entry : SessionMeta}
    (found : w.mSessions id = some entry) (tokens : List Token) :
    Move L w (recordedOf id entry tokens w) ∧
      ((entry.state = .COLD ∧
          recordTokens L id tokens w = .ok (recordedOf id entry tokens w)) ∨
        ∃ w', entry.state = .HOT ∧ recordTokens L id tokens w = .ok w' ∧
          Touched L id (longerEntry entry tokens) (recordedOf id entry tokens w) w') := by
  have move : Move L w (recordedOf id entry tokens w) := .record tokens found
  have found' : (recordedOf id entry tokens w).mSessions id = some (longerEntry entry tokens) :=
    Function.update_self ..
  refine ⟨move, ?_⟩
  rcases hot_or_cold entry with hot | cold
  · obtain ⟨w', touched, shape⟩ := touchHot_spec (L := L) (move.rep rep) found' hot
    refine Or.inr ⟨w', hot, ?_, shape⟩
    rw [recordTokens_eq found, if_pos hot]
    exact touched
  · refine Or.inl ⟨cold, ?_⟩
    rw [recordTokens_eq found, cold, if_neg State.noConfusion]

theorem recordTokens_absent {id : Int} (absent : w.mSessions id = none) (tokens : List Token) :
    recordTokens L id tokens w = .ok w := by
  simp only [recordTokens, absent]

/-! ### `activateForInfer` -/

/-- A COLD session takes a new context and joins the hot list at its end. -/
structure TakesContext (L : Llama σ) (id : Int) (w w' : World σ) : Prop where
  move : Move L w w'
  living : (w.mSessions id).isSome = true
  entry : ∃ entry, w'.mSessions id = some entry ∧ entry.state = .HOT ∧ entry.ctx = some w.created
  others : ∀ id', id' ≠ id → w'.mSessions id' = w.mSessions id'
  hot : values w'.mHotLru = values w.mHotLru ++ [id]
  cold : values w'.mColdLru = (values w.mColdLru).filter (· ≠ id)
  limits : w'.mHotLimit = w.mHotLimit ∧ w'.mColdLimitBytes = w.mColdLimitBytes
  quiet : Quiet w w'

/-- The activation of a COLD session gets no context. -/
structure NoContext (L : Llama σ) (id : Int) (w w' : World σ) : Prop where
  move : Move L w w'
  entry : (w'.mSessions id).isSome = (w.mSessions id).isSome
  bytes : w'.bytesOf id = w.bytesOf id
  others : ∀ id', id' ≠ id → w'.mSessions id' = w.mSessions id'
  hot : w'.mHotLru = w.mHotLru
  cold : w'.mColdLru = w.mColdLru
  limits : w'.mHotLimit = w.mHotLimit ∧ w'.mColdLimitBytes = w.mColdLimitBytes
  quiet : Quiet w w'

/-- What `activateForInfer` does after its eviction, from `w`. -/
inductive Activation (L : Llama σ) (id : Int) (w : World σ) : Except Fault (Option Ctx × World σ) → Prop
  | gone (initOk : (L.initFromModel w.created w.llama).1 = true) (dead : w.mSessions id = none) :
      Activation L id w (.error .danglingMeta)
  | fails {w' : World σ} (shape : NoContext L id w w') : Activation L id w (.ok (none, w'))
  | takes {w' : World σ} (shape : TakesContext L id w w') :
      Activation L id w (.ok (some w.created, w'))

theorem activation_new (rep : Rep w) {id : Int} {entry : SessionMeta}
    (found : w.mSessions id = some entry) (cold : entry.state = .COLD)
    (noFile : entry.swapFilePath = []) (initOk : (L.initFromModel w.created w.llama).1 = true) :
    ∃ w', makeHot L id w.created { w with
        llama := (L.initFromModel w.created w.llama).2, created := w.created + 1 } = .ok w' ∧
      TakesContext L id w w' := by
  refine ⟨_, ?_, .firstIn found cold noFile initOk _ rfl, by rw [found]; rfl, ⟨_, Function.update_self .., rfl, rfl⟩,
    fun id' other => Function.update_of_ne other _ _, NodeList.values_append _ _, ?_, ⟨rfl, rfl⟩,
    .refl rfl⟩
  · simp only [makeHot, World.deref, found, ok_bind, World.hotPush, World.assign, prevEnd_append]
  · refine (filter_absent fun member => ?_).symm
    exact (rep.cold.holds_of_mem member found).2 noFile

theorem length_resize (n : Nat) (tokens : List Token) : (resize n tokens).length = n := by
  simp only [resize, List.length_append, List.length_take, List.length_replicate]
  omega

/-- The world with a new context that nobody owns yet. -/
def initOf (L : Llama σ) (w : World σ) : World σ :=
  { w with llama := (L.initFromModel w.created w.llama).2, created := w.created + 1 }

/-- The world after a load that failed. -/
def loadFailedOf (L : Llama σ) (id : Int) (entry : SessionMeta) (w : World σ) : World σ :=
  { w with
    mSessions := Function.update w.mSessions id
      (some { entry with tokens := loadedBuffer L entry w })
    created := w.created + 1
    llama := L.free w.created (loadOf L entry w).2
    freed := w.freed ++ [w.created] }

theorem swapIn_failed {id : Int} {entry : SessionMeta} (found : w.mSessions id = some entry)
    (swapped : IsSwapped entry) (failed : (loadOf L entry w).1.loaded = 0) :
    swapIn L id w.created (initOf L w) = .ok (false, loadFailedOf L id entry w) := by
  have found' : (initOf L w).mSessions id = some entry := found
  simp only [swapIn, World.deref, found', ok_bind, if_neg swapped.2, length_resize]
  refine (if_pos failed).trans ?_
  rfl

/-- The entry of a session whose file was loaded. -/
def loadedEntry (L : Llama σ) (entry : SessionMeta) (w : World σ) : SessionMeta :=
  { entry with
    tokens := resize (loadOf L entry w).1.tokensOut.length (loadedBuffer L entry w)
    swapFileBytes := 0 }

/-- The world after a load, before the session is hot. -/
def loadedOf (L : Llama σ) (n : Node Int) (entry : SessionMeta) (w : World σ) : World σ :=
  { w with
    mSessions := Function.update w.mSessions n.val (some (loadedEntry L entry w))
    mColdLru := w.mColdLru.erase n
    mColdUsedBytes := w.mColdUsedBytes - entry.swapFileBytes
    created := w.created + 1
    llama := L.removeFile entry.swapFilePath (loadOf L entry w).2
    trace := w.trace ++ [.erased entry.id n.val] ++
      [.subtracted w.mColdUsedBytes entry.swapFileBytes] }

theorem swapIn_loaded (rep : Rep w) {n : Node Int} {entry : SessionMeta}
    (found : w.mSessions n.val = some entry) (inside : n ∈ w.mColdLru)
    (loaded : (loadOf L entry w).1.loaded ≠ 0) :
    swapIn L n.val w.created (initOf L w) = .ok (true, loadedOf L n entry w) := by
  have swapped : IsSwapped entry :=
    rep.cold.holds_of_mem (NodeList.mem_values.mpr ⟨n, inside, rfl⟩) found
  obtain ⟨it, denotes, inside', erased⟩ := rep.cold.eraseAt_eq found swapped
  have node : (⟨it, n.val⟩ : Node Int) = n :=
    List.inj_on_of_nodup_map rep.cold.values inside' inside rfl
  rw [node] at erased
  have found' : (initOf L w).mSessions n.val = some entry := found
  simp only [swapIn, World.deref, found', ok_bind, if_neg swapped.2, length_resize]
  refine (if_neg loaded).trans ?_
  have left : NodeList.eraseAt (initOf L w).mColdLru entry.lruIt = some (n, w.mColdLru.erase n) :=
    erased
  simp only [World.coldErase, left, ok_bind]
  rfl

/-- A swapped session whose file loads takes the new context. -/
theorem activation_loaded (rep : Rep w) {n : Node Int} {entry : SessionMeta}
    (found : w.mSessions n.val = some entry) (inside : n ∈ w.mColdLru)
    (initOk : (L.initFromModel w.created w.llama).1 = true)
    (loaded : (loadOf L entry w).1.loaded ≠ 0) :
    ∃ w', makeHot L n.val w.created (loadedOf L n entry w) = .ok w' ∧
      TakesContext L n.val w w' := by
  have swapped : IsSwapped entry :=
    rep.cold.holds_of_mem (NodeList.mem_values.mpr ⟨n, inside, rfl⟩) found
  have move := Move.swapIn (L := L) found swapped inside initOk loaded _ rfl
  have found' : (loadedOf L n entry w).mSessions n.val = some (loadedEntry L entry w) :=
    Function.update_self ..
  refine ⟨_, ?_, move, by rw [found]; rfl, ⟨_, Function.update_self .., rfl, rfl⟩,
    fun id' other => Function.update_of_ne other _ _, NodeList.values_append _ _,
    NodeList.values_erase rep.cold.values inside, ⟨rfl, rfl⟩, _, rfl, fun e member => by
      simp only [List.mem_cons, List.not_mem_nil, or_false] at member
      rcases member with rfl | rfl <;> trivial⟩
  simp only [makeHot, World.deref, found', ok_bind, World.hotPush, World.assign, prevEnd_append]
  simp only [loadedOf, loadedEntry, rep.keyed n.val entry found, Function.update_idem,
    List.append_assoc, List.cons_append, List.nil_append]

/-- An eviction leaves a COLD session as it is, or kills it from its place in the cold list. -/
theorem Evict.cold_entry (move : Evict L w w') (rep : Rep w) {id : Int} {entry : SessionMeta}
    (found : w.mSessions id = some entry) (cold : entry.state = .COLD) :
    w'.mSessions id = some entry ∨ w'.mSessions id = none ∧ id ∈ values w.mColdLru := by
  have other : ∀ {id' : Int} {entry' : SessionMeta}, w.mSessions id' = some entry' →
      entry'.state = .HOT → id ≠ id' := by
    intro id' entry' found' hot same
    rw [same, found', Option.some.injEq] at found
    rw [found, cold] at hot
    cases hot
  cases move with
  | saveFailed found' hot holds failed => exact Or.inl found
  | prune found' hot holds saved large exceeds =>
    exact Or.inl ((Function.update_of_ne (other found' hot) _ _).trans found)
  | swapOut found' hot holds full first saved accepted =>
    exact Or.inl ((Function.update_of_ne (other found' hot) _ _).trans found)
  | coldEvict excludeId split stopped =>
    have sessions := (dropCold_sessions (L := L) rep split).2 id
    split at sessions
    · rename_i member
      refine Or.inr ⟨sessions, ?_⟩
      rw [split, NodeList.values_append]
      exact List.mem_append_left _ member
    · exact Or.inl (sessions.trans found)

/-- An eviction creates no session. -/
theorem Evict.absent (move : Evict L w w') (rep : Rep w) {id : Int} (dead : w.mSessions id = none) :
    w'.mSessions id = none := by
  have other : ∀ {id' : Int} {entry' : SessionMeta}, w.mSessions id' = some entry' → id ≠ id' := by
    intro id' entry' found' same
    rw [same, found'] at dead
    cases dead
  cases move with
  | saveFailed found' hot holds failed => exact dead
  | prune found' hot holds saved large exceeds =>
    exact (Function.update_of_ne (other found') _ _).trans dead
  | swapOut found' hot holds full first saved accepted =>
    exact (Function.update_of_ne (other found') _ _).trans dead
  | coldEvict excludeId split stopped =>
    refine ((dropCold_sessions (L := L) rep split).2 id).trans ?_
    rw [dead, ite_self]

theorem Evicts.absent (evicts : Evicts L w w') (rep : Rep w) {id : Int}
    (dead : w.mSessions id = none) : w'.mSessions id = none := by
  induction evicts with
  | refl => exact dead
  | tail before move ih => exact Evict.absent move (Evicts.rep before rep) ih

theorem Evicts.cold_entry (evicts : Evicts L w w') (rep : Rep w) {id : Int} {entry : SessionMeta}
    (found : w.mSessions id = some entry) (cold : entry.state = .COLD) :
    w'.mSessions id = some entry ∨ w'.mSessions id = none := by
  induction evicts with
  | refl => exact Or.inl found
  | tail before move ih =>
    have repMid := Evicts.rep before rep
    rcases ih with still | gone
    · exact (Evict.cold_entry move repMid still cold).imp_right And.left
    · exact Or.inr (Evict.absent move repMid gone)

/-- The rest of `activateForInfer` after its eviction. -/
def activateRest (L : Llama σ) (id : Int) (w : World σ) : Except Fault (Option Ctx × World σ) :=
  if (L.initFromModel w.created w.llama).1 = false then
    .ok (none, { w with llama := (L.initFromModel w.created w.llama).2 })
  else do
    let (loaded, w') ← swapIn L id w.created (initOf L w)
    if loaded = false then .ok (none, w')
    else do
      let w' ← makeHot L id w.created w'
      .ok (some w.created, w')

theorem activateForInfer_eq {id : Int} {entry : SessionMeta} (found : w.mSessions id = some entry)
    (cold : entry.state = .COLD) :
    activateForInfer L id w = (do
      let w ← evictHotIfNeeded L id w
      activateRest L id w) := by
  simp only [activateForInfer, found, cold]
  rfl

/-- A session that was COLD before the eviction takes a context, gets none, or is used after its end. -/
theorem activateRest_spec (rep : Rep w) {id : Int}
    (cold : ∀ entry, w.mSessions id = some entry → entry.state = .COLD) :
    Activation L id w (activateRest L id w) := by
  unfold activateRest
  cases init : (L.initFromModel w.created w.llama).1 with
  | false => exact .fails ⟨.initFailed init, rfl, rfl, fun _ _ => rfl, rfl, rfl, ⟨rfl, rfl⟩, .refl rfl⟩
  | true =>
    rw [if_neg (show ¬ (true = false) from Bool.noConfusion)]
    cases found : w.mSessions id with
    | none =>
      have dead : (initOf L w).mSessions id = none := found
      have faults : swapIn L id w.created (initOf L w) = .error .danglingMeta := by
        simp only [swapIn, World.deref, dead, error_bind]
      rw [faults]
      exact .gone init found
    | some entry =>
      have isCold := cold entry found
      by_cases noFile : entry.swapFilePath = []
      · have nothing : swapIn L id w.created (initOf L w) = .ok (true, initOf L w) := by
          have found' : (initOf L w).mSessions id = some entry := found
          simp only [swapIn, World.deref, found', ok_bind, if_pos noFile]
        obtain ⟨w', hot, shape⟩ := activation_new rep found isCold noFile init
        simp only [nothing, ok_bind, Bool.true_eq_false, if_false]
        rw [initOf, hot]
        exact .takes shape
      · by_cases failed : (loadOf L entry w).1.loaded = 0
        · rw [swapIn_failed found ⟨isCold, noFile⟩ failed]
          refine .fails ⟨.loadFailed found ⟨isCold, noFile⟩ init failed, ?_, ?_,
            fun _ other => Function.update_of_ne other _ _, rfl, rfl, ⟨rfl, rfl⟩, .refl rfl⟩
          · simp [loadFailedOf, found]
          · simp [World.bytesOf, loadFailedOf, found]
        · obtain ⟨it, _, inside⟩ := rep.cold.node id entry found ⟨isCold, noFile⟩
          obtain ⟨w', hot, shape⟩ :=
            activation_loaded (n := ⟨it, id⟩) rep found inside init failed
          simp only [swapIn_loaded (n := ⟨it, id⟩) rep found inside failed, ok_bind, hot]
          exact .takes shape

/-- A COLD session takes a context just when one is created and its file, if it has one, is loaded. -/
theorem activateRest_some (rep : Rep w) {id : Int} {entry : SessionMeta}
    (found : w.mSessions id = some entry) (cold : entry.state = .COLD) :
    (∃ c w', activateRest L id w = .ok (some c, w')) ↔
      (L.initFromModel w.created w.llama).1 = true ∧
        (entry.swapFilePath = [] ∨ (loadOf L entry w).1.loaded ≠ 0) := by
  unfold activateRest
  cases init : (L.initFromModel w.created w.llama).1 with
  | false => simp
  | true =>
    rw [if_neg (show ¬ (true = false) from Bool.noConfusion)]
    by_cases noFile : entry.swapFilePath = []
    · have nothing : swapIn L id w.created (initOf L w) = .ok (true, initOf L w) := by
        have found' : (initOf L w).mSessions id = some entry := found
        simp only [swapIn, World.deref, found', ok_bind, if_pos noFile]
      obtain ⟨w', hot, _⟩ := activation_new rep found cold noFile init
      refine iff_of_true ⟨w.created, w', ?_⟩ ⟨rfl, Or.inl noFile⟩
      simp only [nothing, ok_bind, Bool.true_eq_false, if_false]
      rw [initOf, hot, ok_bind]
    · by_cases failed : (loadOf L entry w).1.loaded = 0
      · refine iff_of_false ?_ fun works => works.2.elim noFile fun loaded => loaded failed
        rw [swapIn_failed found ⟨cold, noFile⟩ failed]
        rintro ⟨c, w', none⟩
        cases none
      · obtain ⟨it, _, inside⟩ := rep.cold.node id entry found ⟨cold, noFile⟩
        obtain ⟨w', hot, _⟩ := activation_loaded (n := ⟨it, id⟩) rep found inside init failed
        refine iff_of_true ⟨w.created, w', ?_⟩ ⟨rfl, Or.inr failed⟩
        simp only [swapIn_loaded (n := ⟨it, id⟩) rep found inside failed, ok_bind, hot,
          Bool.true_eq_false, if_false]

/-- **The activation of a COLD session** is an eviction, and what follows it. -/
theorem activateForInfer_cold (rep : Rep w) {id : Int} {entry : SessionMeta}
    (found : w.mSessions id = some entry) (cold : entry.state = .COLD) :
    ∃ w1 sizes, evictHotIfNeeded L id w = .ok w1 ∧ HotEviction L id w w1 sizes ∧
      Activation L id w1 (activateForInfer L id w) := by
  have away : Away id w := Or.inr (rep.not_mem_hot_of_cold found cold)
  obtain ⟨w1, sizes, evicted, eviction⟩ := evictHotIfNeeded_spec (L := L) rep away
  refine ⟨w1, sizes, evicted, eviction, ?_⟩
  rw [activateForInfer_eq found cold, evicted, ok_bind]
  refine activateRest_spec (Evicts.rep eviction.evicts rep) fun entry' found' => ?_
  rcases Evicts.cold_entry eviction.evicts rep found cold with same | dead
  · rw [found', Option.some.injEq] at same
    rw [same]
    exact cold
  · rw [dead] at found'
    cases found'

/-- The activation of a HOT session touches it. -/
theorem activateForInfer_hot (rep : Rep w) {id : Int} {entry : SessionMeta}
    (found : w.mSessions id = some entry) (hot : entry.state = .HOT) :
    ∃ w', activateForInfer L id w = .ok (entry.ctx, w') ∧ Touched L id entry w w' := by
  obtain ⟨w', touched, shape⟩ := touchHot_spec (L := L) rep found hot
  obtain ⟨entry', after, _, same, _⟩ := shape.entry
  refine ⟨w', ?_, shape⟩
  simp only [activateForInfer, found, hot, touched, ok_bind, World.deref, after, same]

/-! ### A call -/

/-- The world in which a call starts its moves: a new limit is set first. -/
def withLimits (op : Op) (w : World σ) : World σ :=
  match op with
  | .setHotLimit count => { w with mHotLimit := max 1 count }
  | .setColdLimit bytes => { w with mColdLimitBytes := bytes }
  | _ => w

theorem withLimits_rep (op : Op) (rep : Rep w) : Rep (withLimits op w) := by
  cases op with
  | setHotLimit count => exact rep.of_same rfl rfl rfl rfl rfl rfl rfl
  | setColdLimit bytes => exact rep.of_same rfl rfl rfl rfl rfl rfl rfl
  | _ => exact rep

/-- The call is an activation that has its own session killed by the eviction it triggers. -/
def killsItself (L : Llama σ) (op : Op) (w : World σ) : Bool :=
  match op with
  | .activateForInfer id =>
    match w.mSessions id with
    | none => false
    | some entry =>
      match entry.state with
      | .HOT => false
      | .COLD =>
        match evictHotIfNeeded L id w with
        | .error _ => false
        | .ok w' => (w'.mSessions id).isNone
  | _ => false

theorem killsItself_iff {id : Int} {entry : SessionMeta} {w1 : World σ}
    (found : w.mSessions id = some entry) (cold : entry.state = .COLD)
    (evicted : evictHotIfNeeded L id w = .ok w1) :
    killsItself L (.activateForInfer id) w = true ↔ w1.mSessions id = none := by
  simp only [killsItself, found, cold, evicted, Option.isNone_iff_eq_none]

/-- What `setColdLimit` leaves. -/
structure ColdLimited (L : Llama σ) (bytes : UInt64) (w w' : World σ) : Prop where
  move : Evict L (withLimits (.setColdLimit bytes) w) w'
  hot : w'.mHotLru = w.mHotLru
  files : w'.coldFiles = trim (coldStops (-1) bytes) w.coldFiles

/-- **What one call does**, with its reply. -/
inductive Served (L : Llama σ) (w : World σ) : Op → Reply → World σ → Prop
  | taken {id : Int} {entry : SessionMeta} (found : w.mSessions id = some entry) :
      Served L w (.createSession id) (.bool false) w
  | creates {id : Int} (absent : w.mSessions id = none) :
      Served L w (.createSession id) (.bool true)
        { w with
          llama := (L.nowMs w.llama).2
          mSessions := Function.update w.mSessions id
            (some { id := id, state := .COLD, lastUsedMs := (L.nowMs w.llama).1 }) }
  | kills {id : Int} {w' : World σ} (shape : Killed L id w w') :
      Served L w (.killSession id) (.bool (w.mSessions id).isSome) w'
  | limitsHot {count : Nat} {w' : World σ} {sizes : List (Int × UInt64)}
      (eviction : HotEviction L (-1) (withLimits (.setHotLimit count) w) w' sizes) :
      Served L w (.setHotLimit count) .done w'
  | limitsCold {bytes : UInt64} {w' : World σ} (shape : ColdLimited L bytes w w') :
      Served L w (.setColdLimit bytes) .done w'
  | activatesNobody {id : Int} (absent : w.mSessions id = none) :
      Served L w (.activateForInfer id) (.ctx none) w
  | activatesHot {id : Int} {entry : SessionMeta} {w' : World σ}
      (found : w.mSessions id = some entry) (hot : entry.state = .HOT)
      (shape : Touched L id entry w w') : Served L w (.activateForInfer id) (.ctx entry.ctx) w'
  | activatesCold {id : Int} {entry : SessionMeta} {w1 w' : World σ} {c : Option Ctx}
      {sizes : List (Int × UInt64)} (found : w.mSessions id = some entry)
      (cold : entry.state = .COLD) (eviction : HotEviction L id w w1 sizes)
      (rest : Activation L id w1 (.ok (c, w'))) : Served L w (.activateForInfer id) (.ctx c) w'
  | recordsNobody {id : Int} {tokens : List Token} (absent : w.mSessions id = none) :
      Served L w (.recordTokens id tokens) .done w
  | recordsCold {id : Int} {tokens : List Token} {entry : SessionMeta}
      (found : w.mSessions id = some entry) (cold : entry.state = .COLD) :
      Served L w (.recordTokens id tokens) .done (recordedOf id entry tokens w)
  | recordsHot {id : Int} {tokens : List Token} {entry : SessionMeta} {w' : World σ}
      (found : w.mSessions id = some entry) (hot : entry.state = .HOT)
      (shape : Touched L id (longerEntry entry tokens) (recordedOf id entry tokens w) w') :
      Served L w (.recordTokens id tokens) .done w'

theorem nobody_away : Away (-1) w := Or.inl rfl

theorem setHotLimit_spec (rep : Rep w) (count : Nat) :
    ∃ w' sizes, setHotLimit L count w = .ok w' ∧
      HotEviction L (-1) (withLimits (.setHotLimit count) w) w' sizes :=
  evictHotIfNeeded_spec (withLimits_rep (.setHotLimit count) rep) nobody_away

theorem setColdLimit_spec (rep : Rep w) (bytes : UInt64) :
    ∃ w', setColdLimit L bytes w = .ok w' ∧ ColdLimited L bytes w w' := by
  have rep1 := withLimits_rep (.setColdLimit bytes) rep
  have last : (-1 : Int) ∉ (values (withLimits (.setColdLimit bytes) w).mColdLru).dropLast :=
    fun member => rep.nobody (List.mem_of_mem_dropLast member)
  obtain ⟨dropped, kept, split, stopped, evicted⟩ := evictColdIfNeeded_spec (L := L) rep1 last
  exact ⟨_, evicted, .coldEvict (-1) split stopped, dropCold_hot _ _,
    (dropCold_files rep1 split).trans stopped⟩

theorem createSession_served (id : Int) :
    ∃ r w', serve L (.createSession id) w = .ok (r, w') ∧
      Served L w (.createSession id) r w' := by
  cases found : w.mSessions id with
  | none =>
    refine ⟨_, _, ?_, .creates found⟩
    simp only [serve, createSession, found]
    rfl
  | some entry =>
    refine ⟨_, _, ?_, .taken found⟩
    simp only [serve, createSession, found]
    rfl

theorem recordTokens_served (rep : Rep w) (id : Int) (tokens : List Token) :
    ∃ r w', serve L (.recordTokens id tokens) w = .ok (r, w') ∧
      Served L w (.recordTokens id tokens) r w' := by
  cases found : w.mSessions id with
  | none =>
    refine ⟨.done, w, ?_, .recordsNobody found⟩
    simp only [serve, recordTokens_absent found, ok_bind]
  | some entry =>
    obtain ⟨_, ⟨cold, recorded⟩ | ⟨w', hot, recorded, shape⟩⟩ :=
      recordTokens_spec (L := L) rep found tokens
    · refine ⟨.done, _, ?_, .recordsCold found cold⟩
      simp only [serve, recorded, ok_bind]
    · refine ⟨.done, w', ?_, .recordsHot found hot shape⟩
      simp only [serve, recorded, ok_bind]

theorem activateForInfer_served (rep : Rep w) (id : Int) :
    (∃ r w', serve L (.activateForInfer id) w = .ok (r, w') ∧
        Served L w (.activateForInfer id) r w') ∨
      (serve L (.activateForInfer id) w = .error .danglingMeta ∧
        killsItself L (.activateForInfer id) w = true) := by
  cases found : w.mSessions id with
  | none =>
    refine Or.inl ⟨.ctx none, w, ?_, .activatesNobody found⟩
    simp only [serve, activateForInfer, found, ok_bind]
  | some entry =>
    rcases hot_or_cold entry with hot | cold
    · obtain ⟨w', active, shape⟩ := activateForInfer_hot (L := L) rep found hot
      refine Or.inl ⟨.ctx entry.ctx, w', ?_, .activatesHot found hot shape⟩
      simp only [serve, active, ok_bind]
    · obtain ⟨w1, sizes, evicted, eviction, rest⟩ := activateForInfer_cold (L := L) rep found cold
      cases outcome : activateForInfer L id w with
      | error e =>
        rw [outcome] at rest
        cases rest with
        | gone initOk dead =>
          refine Or.inr ⟨?_, (killsItself_iff found cold evicted).mpr dead⟩
          simp only [serve, outcome, error_bind]
      | ok result =>
        obtain ⟨c, w'⟩ := result
        rw [outcome] at rest
        refine Or.inl ⟨.ctx c, w', ?_, .activatesCold found cold eviction rest⟩
        simp only [serve, outcome, ok_bind]

/-- **Every call** is served as `Served` says, or is an activation that uses an entry its own
eviction has killed. -/
theorem serve_spec (rep : Rep w) (op : Op) :
    (∃ r w', serve L op w = .ok (r, w') ∧ Served L w op r w') ∨
      (serve L op w = .error .danglingMeta ∧ killsItself L op w = true) := by
  cases op with
  | createSession id => exact Or.inl (createSession_served id)
  | killSession id =>
    obtain ⟨w', killed, shape⟩ := killSession_spec (L := L) rep id
    refine Or.inl ⟨.bool (w.mSessions id).isSome, w', ?_, .kills shape⟩
    simp only [serve, killed, ok_bind]
  | setHotLimit count =>
    obtain ⟨w', sizes, limited, eviction⟩ := setHotLimit_spec (L := L) rep count
    refine Or.inl ⟨.done, w', ?_, .limitsHot eviction⟩
    simp only [serve, limited, ok_bind]
  | setColdLimit bytes =>
    obtain ⟨w', limited, shape⟩ := setColdLimit_spec (L := L) rep bytes
    refine Or.inl ⟨.done, w', ?_, .limitsCold shape⟩
    simp only [serve, limited, ok_bind]
  | recordTokens id tokens => exact Or.inl (recordTokens_served rep id tokens)
  | activateForInfer id => exact activateForInfer_served rep id

theorem serve_served (rep : Rep w) {op : Op} {r : Reply} (served : serve L op w = .ok (r, w')) :
    Served L w op r w' := by
  rcases serve_spec (L := L) rep op with ⟨r', w1, result, shape⟩ | ⟨fault, _⟩
  · rw [served, Except.ok.injEq, Prod.mk.injEq] at result
    obtain ⟨rfl, rfl⟩ := result
    exact shape
  · rw [served] at fault
    cases fault

namespace Served

variable {op : Op} {r : Reply}

theorem moves (served : Served L w op r w') : Moves L (withLimits op w) w' := by
  cases served with
  | taken found => exact .refl
  | @creates id absent =>
    have move := Move.create (L := L) id absent
    rw [createSession, absent] at move
    exact .single move
  | kills shape => exact shape.moves
  | limitsHot eviction => exact Evicts.moves eviction.evicts
  | limitsCold shape => exact .single (.evict shape.move)
  | activatesNobody absent => exact .refl
  | activatesHot found hot shape => exact .single shape.move
  | activatesCold found cold eviction rest =>
    have moves := Evicts.moves eviction.evicts
    cases rest with
    | fails shape => exact moves.tail shape.move
    | takes shape => exact moves.tail shape.move
  | recordsNobody absent => exact .refl
  | recordsCold found cold => exact .single (.record _ found)
  | recordsHot found hot shape =>
    exact (Relation.ReflTransGen.single (Move.record _ found)).tail shape.move

/-- No call but its creation brings a session into the map. -/
theorem absent (served : Served L w op r w') (rep : Rep w) {id : Int} (dead : w.mSessions id = none)
    (other : op ≠ .createSession id) : w'.mSessions id = none := by
  have apart : ∀ {id' : Int} {entry : SessionMeta}, w.mSessions id' = some entry → id ≠ id' := by
    intro id' entry found same
    rw [← same, dead] at found
    cases found
  cases served with
  | taken found => exact dead
  | @creates id' fresh =>
    have ne : id ≠ id' := fun same => other (by rw [same])
    exact (Function.update_of_ne ne _ _).trans dead
  | kills shape => rw [shape.sessions, Function.update_apply, dead, ite_self]
  | @limitsHot count _ _ eviction =>
    exact Evicts.absent eviction.evicts (withLimits_rep (.setHotLimit count) rep) dead
  | @limitsCold bytes _ shape =>
    exact Evict.absent shape.move (withLimits_rep (.setColdLimit bytes) rep) dead
  | activatesNobody fresh => exact dead
  | activatesHot found hot shape => rw [shape.others id (apart found), dead]
  | activatesCold found cold eviction rest =>
    have gone := Evicts.absent eviction.evicts rep dead
    cases rest with
    | fails shape => rw [shape.others id (apart found), gone]
    | takes shape => rw [shape.others id (apart found), gone]
  | recordsNobody fresh => exact dead
  | recordsCold found cold => exact (Function.update_of_ne (apart found) _ _).trans dead
  | recordsHot found hot shape =>
    rw [shape.others id (apart found)]
    exact (Function.update_of_ne (apart found) _ _).trans dead

end Served

/-- **Every call preserves the invariant.** -/
theorem serve_rep (rep : Rep w) {op : Op} {r : Reply} (served : serve L op w = .ok (r, w')) :
    Rep w' :=
  Moves.rep (serve_served rep served).moves (withLimits_rep op rep)

end MiniV
