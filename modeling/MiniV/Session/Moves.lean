/-
**The moves of the session manager.**

`Evict L w w'` lists what making room can do to a `World` in one go, with the guard of each move and
the world after it written out: a save that fails, a save followed by a pruning, a save followed by
the move to the cold list, a trimming of the cold list. `Move L w w'` adds what the calls themselves
do: create a session, kill one in each of its three states, touch a HOT session, record tokens, give
a session a new context. Every call is a sequence of moves (`MiniV.Session.Calls`), so what each move
preserves is preserved by every run.

`Move.rep`: each move preserves the representation invariant.
-/

import Mathlib.Logic.Relation
import MiniV.Library.Trim
import MiniV.Session.Invariant

namespace MiniV

open MiniV.Library
open MiniV.Library.NodeList (values)

variable {σ : Type} (L : Llama σ)

/-- The outside after a save of the entry, and the bytes written. -/
def saveOf (ctx : Ctx) (entry : SessionMeta) (w : World σ) : UInt64 × σ :=
  L.stateSeqSaveFile ctx (swapPathFor w entry.id) entry.tokens w.llama

/-- The outside after a save of the entry and the measurement that follows, and the size reported. -/
def measureOf (ctx : Ctx) (entry : SessionMeta) (w : World σ) : UInt64 × σ :=
  L.stateSeqGetSize ctx (saveOf L ctx entry w).2

/-- The two events of a save and the measurement that follows. -/
def saveEvents (ctx : Ctx) (entry : SessionMeta) (w : World σ) : List Event :=
  [.saved entry.id (saveOf L ctx entry w).1, .measured (measureOf L ctx entry w).1 w.mColdUsedBytes]

/-- The outside after the oldest `count` tokens of a context were removed. -/
def pruneOf (ctx : Ctx) (count : Nat) (llama : σ) : σ :=
  L.memorySeqAdd ctx count (-1) (-count) (L.memorySeqRm ctx 0 count llama)

/-- A measured state is accepted: it fits, or the session is down to the floor. -/
def Accepted (size : UInt64) (entry : SessionMeta) (w : World σ) : Prop :=
  size + w.mColdUsedBytes ≤ w.mColdLimitBytes ∨ entry.tokens.length ≤ kMinKeepTokens

/-- The load of a session's swap file into a new context. -/
def loadOf (entry : SessionMeta) (w : World σ) : LoadResult × σ :=
  L.stateSeqLoadFile w.created entry.swapFilePath w.nCtx (L.initFromModel w.created w.llama).2

/-- The token buffer of a session after a load. -/
def loadedBuffer (entry : SessionMeta) (w : World σ) : List Token :=
  overwrite (resize w.nCtx entry.tokens) (loadOf L entry w).1.tokensOut

/-! ### The moves -/

/-- The total of a list of files with their sizes. -/
def fileTotal (files : List (Int × UInt64)) : Nat := (files.map fun f => f.2.toNat).sum

/-- Where `evictColdIfNeeded` stops: the total, modulo `2 ^ 64`, is within the limit, or the excluded
session alone is left. -/
def coldStops (excludeId : Int) (limit : UInt64) (files : List (Int × UInt64)) : Bool :=
  UInt64.ofNat (fileTotal files) ≤ limit || files.map Prod.fst = [excludeId]

/-- The world after the session in a node of the cold list was killed. -/
def coldKilled (n : Node Int) (entry : SessionMeta) (w : World σ) : World σ :=
  { w with
    mSessions := Function.update w.mSessions n.val none
    mColdLru := w.mColdLru.erase n
    mColdUsedBytes := w.mColdUsedBytes - entry.swapFileBytes
    llama := L.removeFile entry.swapFilePath w.llama
    trace := w.trace ++ [.erased n.val n.val, .subtracted w.mColdUsedBytes entry.swapFileBytes] }

/-- The world after the sessions in some nodes of the cold list were killed. -/
def dropCold : List (Node Int) → World σ → World σ
  | [], w => w
  | n :: dropped, w =>
    match w.mSessions n.val with
    | none => w
    | some entry => dropCold dropped (coldKilled L n entry w)

/-- One move of an eviction. -/
inductive Evict (w : World σ) : World σ → Prop
  | saveFailed {id : Int} {entry : SessionMeta} {c : Ctx}
      (found : w.mSessions id = some entry) (hot : entry.state = .HOT) (holds : entry.ctx = some c)
      (failed : (saveOf L c entry w).1 = 0) :
      Evict w { w with
        llama := (saveOf L c entry w).2
        trace := w.trace ++ [.saved id 0] }
  | prune {id : Int} {entry : SessionMeta} {c : Ctx}
      (found : w.mSessions id = some entry) (hot : entry.state = .HOT) (holds : entry.ctx = some c)
      (saved : (saveOf L c entry w).1 ≠ 0) (large : kMinKeepTokens < entry.tokens.length)
      (exceeds : ¬ (measureOf L c entry w).1 + w.mColdUsedBytes ≤ w.mColdLimitBytes) :
      Evict w { w with
        mSessions := Function.update w.mSessions id
          (some { entry with tokens := entry.tokens.drop (pruneAmount entry.tokens.length) })
        llama := pruneOf L c (pruneAmount entry.tokens.length) (measureOf L c entry w).2
        trace := w.trace ++ saveEvents L c entry w }
  | swapOut {id : Int} {entry : SessionMeta} {c : Ctx} {it : Nat}
      (found : w.mSessions id = some entry) (hot : entry.state = .HOT) (holds : entry.ctx = some c)
      (full : w.mHotLimit ≤ w.mHotLru.length)
      (first : (w.mHotLru.find? fun n => n.val ≠ -1) = some ⟨it, id⟩)
      (saved : (saveOf L c entry w).1 ≠ 0)
      (accepted : Accepted (measureOf L c entry w).1 entry w) :
      Evict w { w with
        mSessions := Function.update w.mSessions id
          (some { entry with
            ctx := none, state := .COLD, swapFilePath := swapPathFor w id
            swapFileBytes := (measureOf L c entry w).1, lruIt := some w.nextNode })
        mHotLru := w.mHotLru.erase ⟨it, id⟩
        mColdLru := w.mColdLru ++ [⟨w.nextNode, id⟩]
        mColdUsedBytes := w.mColdUsedBytes + (measureOf L c entry w).1
        nextNode := w.nextNode + 1
        llama := L.free c (measureOf L c entry w).2
        freed := w.freed ++ [c]
        trace := w.trace ++ (saveEvents L c entry w ++ [.erased id id,
          .swappedOut id (measureOf L c entry w).1 w.levels
            ⟨values w.mColdLru ++ [id], (values w.mHotLru).filter (· ≠ id)⟩]) }
  | coldEvict (excludeId : Int) {dropped kept : List (Node Int)}
      (split : w.mColdLru = dropped ++ kept)
      (stopped : kept.map w.fileOf = trim (coldStops excludeId w.mColdLimitBytes) w.coldFiles) :
      Evict w ((dropCold L dropped w).note
        (.coldEviction excludeId w.mColdLimitBytes w.coldFiles (values w.mHotLru) (values dropped)
          (kept.map w.fileOf)))

/-- One move. -/
inductive Move (w : World σ) : World σ → Prop
  | evict {w' : World σ} (move : Evict L w w') : Move w w'
  | create (id : Int) (absent : w.mSessions id = none) : Move w (createSession L id w).2
  | killHot {id : Int} {entry : SessionMeta} {c : Ctx} {it : Nat}
      (found : w.mSessions id = some entry) (hot : entry.state = .HOT) (holds : entry.ctx = some c)
      (inside : ⟨it, id⟩ ∈ w.mHotLru) :
      Move w { w with
        mSessions := Function.update w.mSessions id none
        mHotLru := w.mHotLru.erase ⟨it, id⟩
        llama := L.free c w.llama
        freed := w.freed ++ [c]
        trace := w.trace ++ [.erased id id] }
  | killCold {n : Node Int} {entry : SessionMeta}
      (found : w.mSessions n.val = some entry) (inside : n ∈ w.mColdLru) :
      Move w (coldKilled L n entry w)
  | killNew {id : Int} {entry : SessionMeta}
      (found : w.mSessions id = some entry) (cold : entry.state = .COLD)
      (noFile : entry.swapFilePath = []) :
      Move w { w with mSessions := Function.update w.mSessions id none }
  | record {id : Int} {entry : SessionMeta} (tokens : List Token)
      (found : w.mSessions id = some entry) :
      Move w { w with
        mSessions := Function.update w.mSessions id
          (some { entry with tokens := entry.tokens ++ tokens })
        trace := w.trace ++ [.recorded id tokens] }
  | touch {id : Int} {entry : SessionMeta} {it : Nat}
      (found : w.mSessions id = some entry) (hot : entry.state = .HOT)
      (inside : ⟨it, id⟩ ∈ w.mHotLru) :
      Move w { w with
        mSessions := Function.update w.mSessions id
          (some { entry with lruIt := some w.nextNode, lastUsedMs := (L.nowMs w.llama).1 })
        mHotLru := w.mHotLru.erase ⟨it, id⟩ ++ [⟨w.nextNode, id⟩]
        nextNode := w.nextNode + 1
        llama := (L.nowMs w.llama).2
        trace := w.trace ++ [.erased id id] }
  | initFailed (failed : (L.initFromModel w.created w.llama).1 = false) :
      Move w { w with llama := (L.initFromModel w.created w.llama).2 }
  | loadFailed {id : Int} {entry : SessionMeta}
      (found : w.mSessions id = some entry) (swapped : IsSwapped entry)
      (initOk : (L.initFromModel w.created w.llama).1 = true)
      (failed : (loadOf L entry w).1.loaded = 0) :
      Move w { w with
        mSessions := Function.update w.mSessions id
          (some { entry with tokens := loadedBuffer L entry w })
        created := w.created + 1
        llama := L.free w.created (loadOf L entry w).2
        freed := w.freed ++ [w.created] }
  | swapIn {id : Int} {entry : SessionMeta} {it : Nat}
      (found : w.mSessions id = some entry) (swapped : IsSwapped entry)
      (inside : ⟨it, id⟩ ∈ w.mColdLru)
      (initOk : (L.initFromModel w.created w.llama).1 = true)
      (loaded : (loadOf L entry w).1.loaded ≠ 0) (clock : Int × σ)
      (reads : clock = L.nowMs (L.removeFile entry.swapFilePath (loadOf L entry w).2)) :
      Move w { w with
        mSessions := Function.update w.mSessions id
          (some { entry with
            ctx := some w.created, state := .HOT, swapFileBytes := 0, lruIt := some w.nextNode
            tokens := resize (loadOf L entry w).1.tokensOut.length (loadedBuffer L entry w)
            lastUsedMs := clock.1 })
        mHotLru := w.mHotLru ++ [⟨w.nextNode, id⟩]
        mColdLru := w.mColdLru.erase ⟨it, id⟩
        mColdUsedBytes := w.mColdUsedBytes - entry.swapFileBytes
        nextNode := w.nextNode + 1
        created := w.created + 1
        llama := clock.2
        trace := w.trace ++ [.erased id id,
          .subtracted w.mColdUsedBytes entry.swapFileBytes] }
  | firstIn {id : Int} {entry : SessionMeta}
      (found : w.mSessions id = some entry) (cold : entry.state = .COLD)
      (noFile : entry.swapFilePath = [])
      (initOk : (L.initFromModel w.created w.llama).1 = true) (clock : Int × σ)
      (reads : clock = L.nowMs (L.initFromModel w.created w.llama).2) :
      Move w { w with
        mSessions := Function.update w.mSessions id
          (some { entry with
            ctx := some w.created, state := .HOT, lruIt := some w.nextNode
            lastUsedMs := clock.1 })
        mHotLru := w.mHotLru ++ [⟨w.nextNode, id⟩]
        nextNode := w.nextNode + 1
        created := w.created + 1
        llama := clock.2 }

/-- A save, an erasure or a change of the total: no eviction, and nothing recorded. -/
def Plain : Event → Prop
  | .saved _ _ | .measured _ _ | .erased _ _ | .subtracted _ _ => True
  | .swappedOut _ _ _ _ | .coldEviction _ _ _ _ _ _ | .recorded _ _ | .loopDecode _ => False

/-- The events added to the trace from `w` to `w'` satisfy `P`. -/
def Adds (P : Event → Prop) (w w' : World σ) : Prop :=
  ∃ new, w'.trace = w.trace ++ new ∧ ∀ e ∈ new, P e

/-- From `w` to `w'` no session is swapped out, no cold eviction happens and nothing is recorded. -/
abbrev Quiet (w w' : World σ) : Prop := Adds Plain w w'

/-- A sequence of eviction moves. -/
abbrev Evicts : World σ → World σ → Prop := Relation.ReflTransGen (Evict L)

/-- A sequence of moves. -/
abbrev Moves : World σ → World σ → Prop := Relation.ReflTransGen (Move L)

variable {L}

namespace Adds

variable {P : Event → Prop} {w w' w'' : World σ}

theorem refl (same : w'.trace = w.trace) : Adds P w w' :=
  ⟨[], by rw [same, List.append_nil], fun _ member => by cases member⟩

theorem one {e : Event} (grown : w'.trace = w.trace ++ [e]) (fine : P e) : Adds P w w' :=
  ⟨[e], grown, fun _ member => List.mem_singleton.mp member ▸ fine⟩

theorem trans (first : Adds P w w') (second : Adds P w' w'') : Adds P w w'' := by
  obtain ⟨early, grown, fine⟩ := first
  obtain ⟨late, grown', fine'⟩ := second
  refine ⟨early ++ late, by rw [grown', grown, List.append_assoc], fun e member => ?_⟩
  exact (List.mem_append.mp member).elim (fine e) (fine' e)

theorem mono {Q : Event → Prop} (adds : Adds P w w') (weaker : ∀ e, P e → Q e) : Adds Q w w' := by
  obtain ⟨new, grown, fine⟩ := adds
  exact ⟨new, grown, fun e member => weaker e (fine e member)⟩

end Adds

/-! ### Two fields under an update -/

theorem keyed_update {sessions : Sessions} (keyed : ∀ id entry, sessions id = some entry → entry.id = id)
    {id : Int} {after : Option SessionMeta} (own : ∀ entry, after = some entry → entry.id = id) :
    ∀ id' entry, Function.update sessions id after id' = some entry → entry.id = id' := by
  intro id' entry found
  by_cases same : id' = id
  · subst same
    rw [Function.update_self] at found
    exact own entry found
  · rw [Function.update_of_ne same] at found
    exact keyed id' entry found

theorem ctxHot_update {sessions : Sessions}
    (ctxHot : ∀ id entry, sessions id = some entry → (entry.ctx.isSome = true ↔ IsHot entry))
    {id : Int} {after : Option SessionMeta}
    (own : ∀ entry, after = some entry → (entry.ctx.isSome = true ↔ IsHot entry)) :
    ∀ id' entry, Function.update sessions id after id' = some entry →
      (entry.ctx.isSome = true ↔ IsHot entry) := by
  intro id' entry found
  by_cases same : id' = id
  · subst same
    rw [Function.update_self] at found
    exact own entry found
  · rw [Function.update_of_ne same] at found
    exact ctxHot id' entry found

theorem of_none {P : SessionMeta → Prop} :
    ∀ entry, (none : Option SessionMeta) = some entry → P entry := by
  intro entry same
  cases same

/-- A fact of an entry is one of every entry an assignment leaves. -/
theorem of_some {P : SessionMeta → Prop} {entry : SessionMeta} (holds : P entry) :
    ∀ entry', some entry = some entry' → P entry' := by
  intro entry' same
  cases same
  exact holds

/-- Storing an entry where it is. -/
theorem update_found {sessions : Sessions} {id : Int} {entry : SessionMeta}
    (found : sessions id = some entry) : Function.update sessions id (some entry) = sessions := by
  rw [← found, Function.update_eq_self]

theorem not_hot_of_cold {entry : SessionMeta} (cold : entry.state = .COLD) : ¬ IsHot entry :=
  fun hot => by
    rw [IsHot, cold] at hot
    cases hot

theorem not_swapped_of_hot {entry : SessionMeta} (hot : entry.state = .HOT) : ¬ IsSwapped entry :=
  fun swapped => by
    rw [IsSwapped, hot] at swapped
    cases swapped.1

theorem swapPathFor_ne_nil (w : World σ) (id : Int) : swapPathFor w id ≠ [] := by
  intro empty
  have length := congrArg List.length empty
  simp [swapPathFor, text] at length

theorem text_append_ends {s : Bytes} : EndsNumber (text ".state" ++ s) := by
  intro b first
  cases first
  rfl

/-- Two sessions never share a swap file. -/
theorem swapPathFor_injective {id id' : Int} (same : swapPathFor w id = swapPathFor w id') :
    id = id' := by
  unfold swapPathFor at same
  simp only [List.append_assoc, List.append_cancel_left_eq] at same
  have ends : EndsNumber (text ".state") := by
    have empty := text_append_ends (s := [])
    rwa [List.append_nil] at empty
  exact decimal_append_injective ends same

theorem values_erase_subset (l : List (Node Int)) (n : Node Int) : values (l.erase n) ⊆ values l :=
  List.map_subset _ List.erase_subset

/-! ### The total under an erasure and a push, modulo `2 ^ 64` -/

theorem sub_total {used bytes : UInt64} {whole part : Nat} (split : bytes.toNat + part = whole)
    (counts : used.toNat = whole % 2 ^ 64) : (used - bytes).toNat = part % 2 ^ 64 := by
  have bound := bytes.toNat_lt
  rw [UInt64.toNat_sub, counts, ← split]
  omega

theorem add_total {used bytes : UInt64} {whole : Nat} (counts : used.toNat = whole % 2 ^ 64) :
    (used + bytes).toNat = (whole + bytes.toNat) % 2 ^ 64 := by
  rw [UInt64.toNat_add, counts]
  omega

/-! ### Each move preserves the invariant -/

/-- The world after a session was created. -/
theorem createSession_new {w : World σ} {id : Int} (absent : w.mSessions id = none) :
    (createSession L id w).2 = { w with llama := (L.nowMs w.llama).2 }.assign id
      { id := id, state := .COLD, lastUsedMs := (L.nowMs w.llama).1 } := by
  rw [createSession, absent]
  rfl

namespace Move

variable {w w' : World σ}

theorem rep_create (rep : Rep w) {id : Int} (absent : w.mSessions id = none) :
    Rep (createSession L id w).2 := by
  obtain ⟨noHot, noCold⟩ := rep.not_mem_of_absent absent
  rw [createSession_new absent]
  refine ⟨keyed_update rep.keyed (of_some rfl),
    rep.hot.outside noHot (of_some (not_hot_of_cold rfl)),
    rep.cold.outside noCold (of_some fun swapped => swapped.2 rfl),
    ctxHot_update rep.ctxHot (of_some (iff_of_false Bool.false_ne_true (not_hot_of_cold rfl))),
    rep.owned.change ?_, ?_, rep.nobody⟩
  · rw [Owned.ctxAt, absent]
    rfl
  · exact rep.total.trans (congrArg (· % 2 ^ 64) (totalBytes_outside noCold _).symm)

theorem rep_killHot (rep : Rep w) {id : Int} {entry : SessionMeta} {c : Ctx} {it : Nat}
    (found : w.mSessions id = some entry) (hot : entry.state = .HOT) (holds : entry.ctx = some c)
    (inside : ⟨it, id⟩ ∈ w.mHotLru) (llama : σ) (trace : List Event) :
    Rep { w with
        mSessions := Function.update w.mSessions id none
        mHotLru := w.mHotLru.erase ⟨it, id⟩
        llama := llama
        freed := w.freed ++ [c]
        trace := trace } := by
  have noCold := rep.not_mem_cold_of_hot found hot
  refine ⟨keyed_update rep.keyed of_none,
    rep.hot.erase inside rfl of_none,
    rep.cold.outside noCold of_none,
    ctxHot_update rep.ctxHot of_none,
    rep.owned.release ((rep.ctxAt_of found).trans holds) rfl, ?_, rep.nobody⟩
  exact rep.total.trans (congrArg (· % 2 ^ 64) (totalBytes_outside noCold _).symm)

theorem rep_killCold (rep : Rep w) {n : Node Int} {entry : SessionMeta}
    (found : w.mSessions n.val = some entry) (inside : n ∈ w.mColdLru) :
    Rep (coldKilled L n entry w) := by
  have swapped : IsSwapped entry :=
    rep.cold.holds_of_mem (NodeList.mem_values.mpr ⟨n, inside, rfl⟩) found
  have noHot := rep.not_mem_hot_of_cold found swapped.1
  refine ⟨keyed_update rep.keyed of_none,
    rep.hot.outside noHot of_none,
    rep.cold.erase inside rfl of_none,
    ctxHot_update rep.ctxHot of_none, rep.owned.change ?_, ?_, ?_⟩
  · rw [rep.ctxAt_of found, rep.ctx_of_cold found swapped.1]
    rfl
  · have absent : n.val ∉ values (w.mColdLru.erase n) := by
      rw [NodeList.values_erase rep.cold.values inside]
      simp
    have split := totalBytes_erase w.mSessions inside
    rw [fileBytes, found] at split
    exact (sub_total split rep.total).trans
      (congrArg (· % 2 ^ 64) (totalBytes_outside absent none).symm)
  · exact fun member => rep.nobody (values_erase_subset _ _ member)

/-- **Killing a first part of the cold list**, one session after the other: what every kill keeps is kept. -/
theorem dropCold_induction {P : World σ → Prop} {dropped kept : List (Node Int)} (rep : Rep w)
    (split : w.mColdLru = dropped ++ kept) (start : P w)
    (kills : ∀ (w : World σ) (n : Node Int) (entry : SessionMeta), Rep w → P w → n ∈ dropped →
      n ∈ w.mColdLru → w.mSessions n.val = some entry → IsSwapped entry → P (coldKilled L n entry w)) :
    P (dropCold L dropped w) := by
  induction dropped generalizing w with
  | nil => exact start
  | cons n dropped ih =>
    have inside : n ∈ w.mColdLru := by rw [split]; exact List.mem_cons_self
    obtain ⟨entry, found, swapped⟩ := rep.cold.owner n inside
    rw [dropCold, found]
    refine ih (rep_killCold rep found inside) ?_
      (kills w n entry rep start List.mem_cons_self inside found swapped)
      fun w' n' entry' rep' holds member => kills w' n' entry' rep' holds (List.mem_cons_of_mem _ member)
    rw [coldKilled, split, List.cons_append, List.erase_cons_head]

/-- It keeps the invariant. -/
theorem rep_dropCold {dropped kept : List (Node Int)} (rep : Rep w)
    (split : w.mColdLru = dropped ++ kept) : Rep (dropCold L dropped w) :=
  dropCold_induction rep split rep fun _ _ _ rep' _ _ inside found _ => rep_killCold rep' found inside

theorem rep_killNew (rep : Rep w) {id : Int} {entry : SessionMeta}
    (found : w.mSessions id = some entry) (cold : entry.state = .COLD)
    (noFile : entry.swapFilePath = []) :
    Rep { w with mSessions := Function.update w.mSessions id none } := by
  have noHot := rep.not_mem_hot_of_cold found cold
  have noCold : id ∉ values w.mColdLru := fun member =>
    (rep.cold.holds_of_mem member found).2 noFile
  refine ⟨keyed_update rep.keyed of_none, rep.hot.outside noHot of_none,
    rep.cold.outside noCold of_none, ctxHot_update rep.ctxHot of_none, rep.owned.change ?_, ?_,
    rep.nobody⟩
  · rw [rep.ctxAt_of found, rep.ctx_of_cold found cold]
    rfl
  · exact rep.total.trans (congrArg (· % 2 ^ 64) (totalBytes_outside noCold _).symm)

/-- The tokens of a session do not matter. -/
theorem rep_tokens (rep : Rep w) {id : Int} {entry : SessionMeta}
    (found : w.mSessions id = some entry) (tokens : List Token) (llama : σ) (trace : List Event) :
    Rep { w with
        mSessions := Function.update w.mSessions id (some { entry with tokens := tokens })
        llama := llama
        trace := trace } := by
  refine ⟨keyed_update rep.keyed (of_some (rep.keyed id entry found)),
    rep.hot.change found Iff.rfl rfl, rep.cold.change found Iff.rfl rfl,
    ctxHot_update rep.ctxHot (of_some (rep.ctxHot id entry found)),
    rep.owned.change (rep.ctxAt_of found).symm, ?_, rep.nobody⟩
  have same : totalBytes (Function.update w.mSessions id (some { entry with tokens := tokens }))
      w.mColdLru = totalBytes w.mSessions w.mColdLru := totalBytes_same found (by rfl) _
  exact rep.total.trans (congrArg (· % 2 ^ 64) same.symm)

theorem rep_touch (rep : Rep w) {id : Int} {entry : SessionMeta} {it : Nat}
    (found : w.mSessions id = some entry) (hot : entry.state = .HOT)
    (inside : ⟨it, id⟩ ∈ w.mHotLru) (ms : Int) (llama : σ) (trace : List Event) :
    Rep { w with
        mSessions := Function.update w.mSessions id
          (some { entry with lruIt := some w.nextNode, lastUsedMs := ms })
        mHotLru := w.mHotLru.erase ⟨it, id⟩ ++ [⟨w.nextNode, id⟩]
        nextNode := w.nextNode + 1
        llama := llama
        trace := trace } := by
  have noCold := rep.not_mem_cold_of_hot found hot
  have without : Listed IsHot (Function.update w.mSessions id none) (w.mHotLru.erase ⟨it, id⟩)
      w.nextNode := rep.hot.erase inside rfl of_none
  have absent : id ∉ values (w.mHotLru.erase ⟨it, id⟩) := by
    rw [NodeList.values_erase rep.hot.values inside]
    simp
  let touched : SessionMeta := { entry with lruIt := some w.nextNode, lastUsedMs := ms }
  have touchedHot : touched.state = .HOT := hot
  have pushed : Listed IsHot
      (Function.update (Function.update w.mSessions id none) id (some touched))
      (w.mHotLru.erase ⟨it, id⟩ ++ [⟨w.nextNode, id⟩]) (w.nextNode + 1) :=
    without.push absent hot rfl
  rw [Function.update_idem] at pushed
  refine ⟨keyed_update rep.keyed (of_some (rep.keyed id entry found)), pushed,
    (rep.cold.outside noCold (of_some (not_swapped_of_hot touchedHot))).later (Nat.le_succ _),
    ctxHot_update rep.ctxHot (of_some (rep.ctxHot id entry found)),
    rep.owned.change (rep.ctxAt_of found).symm, ?_, rep.nobody⟩
  exact rep.total.trans (congrArg (· % 2 ^ 64) (totalBytes_outside noCold _).symm)

theorem rep_swapOut (rep : Rep w) {id : Int} {entry : SessionMeta} {c : Ctx} {it : Nat}
    (found : w.mSessions id = some entry) (hot : entry.state = .HOT) (holds : entry.ctx = some c)
    (named : id ≠ -1) (inside : ⟨it, id⟩ ∈ w.mHotLru) (path : Bytes) (hasPath : path ≠ []) (bytes : UInt64)
    (llama : σ) (trace : List Event) :
    Rep { w with
        mSessions := Function.update w.mSessions id
          (some { entry with
            ctx := none, state := .COLD, swapFilePath := path
            swapFileBytes := bytes, lruIt := some w.nextNode })
        mHotLru := w.mHotLru.erase ⟨it, id⟩
        mColdLru := w.mColdLru ++ [⟨w.nextNode, id⟩]
        mColdUsedBytes := w.mColdUsedBytes + bytes
        nextNode := w.nextNode + 1
        llama := llama
        freed := w.freed ++ [c]
        trace := trace } := by
  have noCold := rep.not_mem_cold_of_hot found hot
  refine ⟨keyed_update rep.keyed (of_some (rep.keyed id entry found)),
    (rep.hot.erase inside rfl (of_some (not_hot_of_cold rfl))).later (Nat.le_succ _),
    rep.cold.push noCold ⟨rfl, hasPath⟩ rfl,
    ctxHot_update rep.ctxHot (of_some (iff_of_false Bool.false_ne_true (not_hot_of_cold rfl))),
    rep.owned.release ((rep.ctxAt_of found).trans holds) rfl, ?_, ?_⟩
  · refine (add_total rep.total).trans (congrArg (· % 2 ^ 64) ?_)
    rw [totalBytes_push, totalBytes_outside noCold, fileBytes_update, if_pos rfl]
    rfl
  · rw [NodeList.values_append, List.mem_append]
    exact fun member => member.elim rep.nobody fun last => named (List.mem_singleton.mp last).symm

theorem rep_discard (rep : Rep w) :
    Rep { w with created := w.created + 1, freed := w.freed ++ [w.created] } :=
  ⟨rep.keyed, rep.hot, rep.cold, rep.ctxHot, rep.owned.discard, rep.total, rep.nobody⟩

theorem rep_swapIn (rep : Rep w) {id : Int} {entry : SessionMeta} {it : Nat}
    (found : w.mSessions id = some entry) (swapped : IsSwapped entry)
    (inside : ⟨it, id⟩ ∈ w.mColdLru) (tokens : List Token) (ms : Int) (llama : σ)
    (trace : List Event) :
    Rep { w with
        mSessions := Function.update w.mSessions id
          (some { entry with
            ctx := some w.created, state := .HOT, swapFileBytes := 0, lruIt := some w.nextNode
            tokens := tokens
            lastUsedMs := ms })
        mHotLru := w.mHotLru ++ [⟨w.nextNode, id⟩]
        mColdLru := w.mColdLru.erase ⟨it, id⟩
        mColdUsedBytes := w.mColdUsedBytes - entry.swapFileBytes
        nextNode := w.nextNode + 1
        created := w.created + 1
        llama := llama
        trace := trace } := by
  have noHot := rep.not_mem_hot_of_cold found swapped.1
  refine ⟨keyed_update rep.keyed (of_some (rep.keyed id entry found)),
    rep.hot.push noHot rfl rfl,
    (rep.cold.erase inside rfl (of_some (not_swapped_of_hot rfl))).later (Nat.le_succ _),
    ctxHot_update rep.ctxHot (of_some (iff_of_true rfl rfl)),
    rep.owned.adopt ?_ rfl, ?_, fun member => rep.nobody (values_erase_subset _ _ member)⟩
  · rw [rep.ctxAt_of found, rep.ctx_of_cold found swapped.1]
  · have absent : id ∉ values (w.mColdLru.erase ⟨it, id⟩) := by
      rw [NodeList.values_erase rep.cold.values inside]
      simp
    have split := totalBytes_erase w.mSessions inside
    rw [fileBytes, found] at split
    exact (sub_total split rep.total).trans
      (congrArg (· % 2 ^ 64) (totalBytes_outside absent _).symm)

theorem rep_firstIn (rep : Rep w) {id : Int} {entry : SessionMeta}
    (found : w.mSessions id = some entry) (cold : entry.state = .COLD)
    (noFile : entry.swapFilePath = []) (ms : Int) (llama : σ) :
    Rep { w with
        mSessions := Function.update w.mSessions id
          (some { entry with
            ctx := some w.created, state := .HOT, lruIt := some w.nextNode
            lastUsedMs := ms })
        mHotLru := w.mHotLru ++ [⟨w.nextNode, id⟩]
        nextNode := w.nextNode + 1
        created := w.created + 1
        llama := llama } := by
  have noHot := rep.not_mem_hot_of_cold found cold
  have noCold : id ∉ values w.mColdLru := fun member =>
    (rep.cold.holds_of_mem member found).2 noFile
  refine ⟨keyed_update rep.keyed (of_some (rep.keyed id entry found)),
    rep.hot.push noHot rfl rfl,
    (rep.cold.outside noCold (of_some (not_swapped_of_hot rfl))).later (Nat.le_succ _),
    ctxHot_update rep.ctxHot (of_some (iff_of_true rfl rfl)),
    rep.owned.adopt ?_ rfl, ?_, rep.nobody⟩
  · rw [rep.ctxAt_of found, rep.ctx_of_cold found cold]
  · exact rep.total.trans (congrArg (· % 2 ^ 64) (totalBytes_outside noCold _).symm)

/-- The victim of a swap-out has a node in the hot list, and is not -1. -/
theorem inside_of_first {hot : List (Node Int)} {n : Node Int}
    (first : (hot.find? fun n => n.val ≠ -1) = some n) : n ∈ hot ∧ n.val ≠ -1 :=
  ⟨List.mem_of_find?_eq_some first, by simpa using List.find?_some first⟩

theorem rep_evict (move : Evict L w w') (inv : Rep w) : Rep w' := by
  cases move with
  | saveFailed found hot holds failed => exact inv.of_same rfl rfl rfl rfl rfl rfl rfl
  | prune found hot holds saved large exceeds => exact rep_tokens inv found _ _ _
  | swapOut found hot holds full first saved accepted =>
    obtain ⟨inside, named⟩ := inside_of_first first
    exact rep_swapOut inv found hot holds named inside _ (swapPathFor_ne_nil _ _) _ _ _
  | coldEvict excludeId split stopped =>
    exact (rep_dropCold inv split).of_same rfl rfl rfl rfl rfl rfl rfl

/-- **Every move preserves the invariant.** -/
theorem rep (move : Move L w w') (inv : Rep w) : Rep w' := by
  cases move with
  | evict move => exact rep_evict move inv
  | create id absent => exact rep_create inv absent
  | killHot found hot holds inside => exact rep_killHot inv found hot holds inside _ _
  | killCold found inside => exact rep_killCold inv found inside
  | killNew found cold noFile => exact rep_killNew inv found cold noFile
  | record tokens found => exact rep_tokens inv found _ _ _
  | touch found hot inside => exact rep_touch inv found hot inside _ _ _
  | initFailed failed => exact inv.of_same rfl rfl rfl rfl rfl rfl rfl
  | @loadFailed id entry found swapped initOk failed =>
    exact rep_discard (rep_tokens inv found (loadedBuffer L entry w)
      (L.free w.created (loadOf L entry w).2) w.trace)
  | swapIn found swapped inside initOk loaded clock reads =>
    exact rep_swapIn inv found swapped inside _ _ _ _
  | firstIn found cold noFile initOk clock reads => exact rep_firstIn inv found cold noFile _ _

end Move

theorem Evicts.moves {w w' : World σ} (evicts : Evicts L w w') : Moves L w w' :=
  Relation.ReflTransGen.mono (fun _ _ => Move.evict) _ _ evicts

theorem Moves.rep {w w' : World σ} (moves : Moves L w w') (inv : Rep w) : Rep w' := by
  induction moves with
  | refl => exact inv
  | tail _ move ih => exact move.rep ih

theorem Evicts.rep {w w' : World σ} (evicts : Evicts L w w') (inv : Rep w) : Rep w' :=
  (Evicts.moves evicts).rep inv

end MiniV
