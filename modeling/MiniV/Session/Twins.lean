/-
**Two managers whose sessions have different ids.**

A session manager looks its sessions up under their ids and keeps the ids in its lists. Renamed by an
injective `ρ`, the ids are those of another manager in the *renamed* state (`Renamed`), whose llama
answers alike where the paths are those of renamed sessions (`SameOutcomes`).

* `Twins` — two managers in renamed states with their outsides alike;
* `Both` — what an operation that goes alike on both makes of them; one lemma for each function of
  the manager that treats an id as a name.
-/

import MiniV.Library.Relate
import MiniV.Session.HotLimit

namespace MiniV

open MiniV.Library
open MiniV.Library.NodeList (values)

variable {σ σ' : Type}

/-! ### Renamed states -/

/-- The path at which the session of an id is saved. -/
def pathIn (dir : Bytes) (id : Int) : Bytes := dir ++ text "/" ++ decimal id ++ text ".state"

theorem pathIn_ne_nil (dir : Bytes) (id : Int) : pathIn dir id ≠ [] := by
  simp [pathIn, text]

/-- The entry of a session under its new id. Its swap file is at the path of that id. -/
def renameEntry (ρ : Int → Int) (dir : Bytes) (entry : SessionMeta) : SessionMeta :=
  { entry with
    id := ρ entry.id
    swapFilePath := if entry.swapFilePath = [] then [] else pathIn dir (ρ entry.id) }

/-- **The renamed state** of a manager that keeps its files in `dir`. -/
structure Renamed (ρ : Int → Int) (dir : Bytes) (m m' : SessionManager) : Prop where
  nCtx : m'.nCtx = m.nCtx
  mSwapDir : m.mSwapDir = dir ∧ m'.mSwapDir = dir
  mSessions : ∀ id, m'.mSessions (ρ id) = (m.mSessions id).map (renameEntry ρ dir)
  others : ∀ id', (∀ id, ρ id ≠ id') → m'.mSessions id' = none
  mHotLru : m'.mHotLru = m.mHotLru.map (NodeList.rename ρ)
  mHotLimit : m'.mHotLimit = m.mHotLimit
  mColdLru : m'.mColdLru = m.mColdLru.map (NodeList.rename ρ)
  mColdLimitBytes : m'.mColdLimitBytes = m.mColdLimitBytes
  mColdUsedBytes : m'.mColdUsedBytes = m.mColdUsedBytes

/-- The renamed call. -/
def renameOp (ρ : Int → Int) : Op → Op
  | .createSession id => .createSession (ρ id)
  | .killSession id => .killSession (ρ id)
  | .setHotLimit count => .setHotLimit count
  | .setColdLimit bytes => .setColdLimit bytes
  | .activateForInfer id => .activateForInfer (ρ id)
  | .recordTokens id tokens => .recordTokens (ρ id) tokens

/-! ### The same outcomes -/

/-- The answers are the same, and the outsides stay alike. -/
def Agrees {A : Type} (Alike : σ → σ' → Prop) (x : A × σ) (x' : A × σ') : Prop :=
  x'.1 = x.1 ∧ Alike x.2 x'.2

/-- **The same outcomes.** From outsides that are alike, corresponding calls give the same answers;
the calls that name a file name the one of the renamed session. -/
structure SameOutcomes (ρ : Int → Int) (dir : Bytes) (L : Llama σ) (L' : Llama σ')
    (Alike : σ → σ' → Prop) : Prop where
  init : ∀ c s s', Alike s s' → Agrees Alike (L.initFromModel c s) (L'.initFromModel c s')
  free : ∀ c s s', Alike s s' → Alike (L.free c s) (L'.free c s')
  save : ∀ c id tokens s s', Alike s s' →
    Agrees Alike (L.stateSeqSaveFile c (pathIn dir id) tokens s)
      (L'.stateSeqSaveFile c (pathIn dir (ρ id)) tokens s')
  size : ∀ c s s', Alike s s' → Agrees Alike (L.stateSeqGetSize c s) (L'.stateSeqGetSize c s')
  load : ∀ c id room s s', Alike s s' →
    Agrees Alike (L.stateSeqLoadFile c (pathIn dir id) room s)
      (L'.stateSeqLoadFile c (pathIn dir (ρ id)) room s')
  remove : ∀ c p0 p1 s s', Alike s s' →
    Alike (L.memorySeqRm c p0 p1 s) (L'.memorySeqRm c p0 p1 s')
  add : ∀ c p0 p1 delta s s', Alike s s' →
    Alike (L.memorySeqAdd c p0 p1 delta s) (L'.memorySeqAdd c p0 p1 delta s')
  unlink : ∀ id s s', Alike s s' →
    Alike (L.removeFile (pathIn dir id) s) (L'.removeFile (pathIn dir (ρ id)) s')
  clock : ∀ s s', Alike s s' → Agrees Alike (L.nowMs s) (L'.nowMs s')

/-! ### Twins -/

/-- The entry of a session has its id, and no swap file yet or one at its own path. -/
def Owns (dir : Bytes) (id : Int) (entry : SessionMeta) : Prop :=
  entry.id = id ∧ (entry.swapFilePath = [] ∨ entry.swapFilePath = pathIn dir id)

/-- Two managers in renamed states, with their outsides alike. -/
structure Twins (ρ : Int → Int) (dir : Bytes) (Alike : σ → σ' → Prop) (w : World σ) (w' : World σ') :
    Prop where
  renamed : Renamed ρ dir w.toSessionManager w'.toSessionManager
  llama : Alike w.llama w'.llama
  nextNode : w'.nextNode = w.nextNode
  created : w'.created = w.created
  own : ∀ id entry, w.mSessions id = some entry → Owns dir id entry

section Twins

variable {ρ : Int → Int} {dir : Bytes} {Alike : σ → σ' → Prop} {L : Llama σ} {L' : Llama σ'}
  {w : World σ} {w' : World σ'} {id : Int} {entry : SessionMeta}

theorem renameEntry_noFile (noFile : entry.swapFilePath = []) :
    (renameEntry ρ dir entry).swapFilePath = [] := if_pos noFile

theorem renameEntry_state (entry : SessionMeta) : (renameEntry ρ dir entry).state = entry.state := rfl

theorem renameEntry_ctx (entry : SessionMeta) : (renameEntry ρ dir entry).ctx = entry.ctx := rfl

theorem renameEntry_file (file : entry.swapFilePath ≠ []) :
    (renameEntry ρ dir entry).swapFilePath = pathIn dir (ρ entry.id) := if_neg file

theorem prevEnd_rename (l : List (Node Int)) : prevEnd (l.map (NodeList.rename ρ)) = prevEnd l := by
  rw [prevEnd, prevEnd, List.getLast?_map, Option.map_map]
  rfl

/-- `evictColdIfNeeded` treats ids as names, where the excluded ids correspond. -/
theorem coldVictim_rename {excludeId excludeId' : Int} {l : List (Node Int)}
    (agree : ∀ id ∈ values l, ρ id = excludeId' ↔ id = excludeId) :
    coldVictim excludeId' (l.map (NodeList.rename ρ)) = (coldVictim excludeId l).map ρ := by
  cases l with
  | nil => rfl
  | cons front rest =>
    have same := agree front.val List.mem_cons_self
    show (if ρ front.val = excludeId' then _ else some (ρ front.val)) =
      Option.map ρ (if front.val = excludeId then _ else some front.val)
    by_cases excluded : front.val = excludeId
    · rw [if_pos (same.mpr excluded), if_pos excluded]
      cases rest <;> rfl
    · rw [if_neg (mt same.mp excluded), if_neg excluded]
      rfl

/-- A kill takes at most one session out of the cold list. -/
theorem killSession_cold_subset {b : Bool} {v : World σ}
    (killed : killSession L id w = .ok (b, v)) : v.mColdLru ⊆ w.mColdLru := by
  unfold killSession at killed
  split at killed
  · cases killed
    exact List.Subset.refl _
  · rename_i entry _
    split at killed
    · obtain ⟨v1, erased, result⟩ := bind_eq_ok.mp killed
      cases result
      unfold World.hotErase at erased
      split at erased
      · cases erased
      · cases erased
        cases entry.ctx <;> exact List.Subset.refl _
    · split at killed
      · cases killed
        exact List.Subset.refl _
      · obtain ⟨v1, erased, result⟩ := bind_eq_ok.mp killed
        cases result
        unfold World.coldErase at erased
        split at erased
        · cases erased
        · rename_i node rest found
          cases erased
          show rest ⊆ w.mColdLru
          rw [NodeList.eraseAt_rest found]
          exact List.erase_subset

namespace Twins

theorem start (nCtx : Nat) {llama : σ} {llama' : σ'} (alike : Alike llama llama') :
    Twins ρ dir Alike (World.start nCtx dir llama) (World.start nCtx dir llama') where
  renamed := ⟨rfl, ⟨rfl, rfl⟩, fun _ => rfl, fun _ _ => rfl, rfl, rfl, rfl, rfl, rfl⟩
  llama := alike
  nextNode := rfl
  created := rfl
  own _ _ found := by cases found

theorem living (twins : Twins ρ dir Alike w w') (found : w.mSessions id = some entry) :
    w'.mSessions (ρ id) = some (renameEntry ρ dir entry) := by
  rw [twins.renamed.mSessions, found]
  rfl

theorem absent (twins : Twins ρ dir Alike w w') (dead : w.mSessions id = none) :
    w'.mSessions (ρ id) = none := by
  rw [twins.renamed.mSessions, dead]
  rfl

/-! What stands at the two ends of an access or an update. -/

theorem deref (twins : Twins ρ dir Alike w w') (id : Int) :
    Lift Eq (fun entry entry' => entry' = renameEntry ρ dir entry ∧ Owns dir id entry) (w.deref id)
      (w'.deref (ρ id)) := by
  unfold World.deref
  cases found : w.mSessions id with
  | none =>
    rw [twins.absent found]
    exact .error rfl
  | some entry =>
    rw [twins.living found]
    exact .ok ⟨rfl, twins.own id entry found⟩

theorem outside (twins : Twins ρ dir Alike w w') {llama : σ} {llama' : σ'}
    (alike : Alike llama llama') : Twins ρ dir Alike { w with llama } { w' with llama := llama' } :=
  ⟨twins.renamed, alike, twins.nextNode, twins.created, twins.own⟩

theorem note (twins : Twins ρ dir Alike w w') (e e' : Event) :
    Twins ρ dir Alike (w.note e) (w'.note e') :=
  ⟨twins.renamed, twins.llama, twins.nextNode, twins.created, twins.own⟩

theorem update (twins : Twins ρ dir Alike w w') (injective : Function.Injective ρ)
    {after : Option SessionMeta} (own : ∀ entry, after = some entry → Owns dir id entry) :
    Twins ρ dir Alike { w with mSessions := Function.update w.mSessions id after }
      { w' with mSessions :=
          Function.update w'.mSessions (ρ id) (after.map (renameEntry ρ dir)) } where
  renamed :=
    { twins.renamed with
      mSessions := fun id' => by
        show Function.update w'.mSessions (ρ id) _ (ρ id') =
          (Function.update w.mSessions id after id').map _
        by_cases same : id' = id
        · rw [same, Function.update_self, Function.update_self]
        · rw [Function.update_of_ne same, Function.update_of_ne (injective.ne same)]
          exact twins.renamed.mSessions id'
      others := fun id' outside => by
        show Function.update w'.mSessions (ρ id) _ id' = none
        rw [Function.update_of_ne (outside id).symm]
        exact twins.renamed.others id' outside }
  llama := twins.llama
  nextNode := twins.nextNode
  created := twins.created
  own id' entry found := by
    have found : Function.update w.mSessions id after id' = some entry := found
    by_cases same : id' = id
    · subst same
      rw [Function.update_self] at found
      exact own entry found
    · rw [Function.update_of_ne same] at found
      exact twins.own id' entry found

theorem assign (twins : Twins ρ dir Alike w w') (injective : Function.Injective ρ)
    (own : Owns dir id entry) :
    Twins ρ dir Alike (w.assign id entry) (w'.assign (ρ id) (renameEntry ρ dir entry)) :=
  twins.update injective (of_some own)

theorem forget (twins : Twins ρ dir Alike w w') (injective : Function.Injective ρ) (id : Int) :
    Twins ρ dir Alike (w.forget id) (w'.forget (ρ id)) :=
  twins.update injective of_none

theorem hotErase (twins : Twins ρ dir Alike w w') (injective : Function.Injective ρ)
    (entry : SessionMeta) :
    Lift Eq (Twins ρ dir Alike) (w.hotErase entry) (w'.hotErase (renameEntry ρ dir entry)) := by
  unfold World.hotErase
  rw [twins.renamed.mHotLru, NodeList.eraseAt_rename injective,
    show (renameEntry ρ dir entry).lruIt = entry.lruIt from rfl]
  cases NodeList.eraseAt w.mHotLru entry.lruIt with
  | none => exact .error rfl
  | some found =>
    refine .ok (Twins.note ?_ _ _)
    exact ⟨{ twins.renamed with mHotLru := rfl }, twins.llama, twins.nextNode, twins.created,
      twins.own⟩

theorem coldErase (twins : Twins ρ dir Alike w w') (injective : Function.Injective ρ)
    (entry : SessionMeta) :
    Lift Eq (Twins ρ dir Alike) (w.coldErase entry) (w'.coldErase (renameEntry ρ dir entry)) := by
  unfold World.coldErase
  rw [twins.renamed.mColdLru, NodeList.eraseAt_rename injective,
    show (renameEntry ρ dir entry).lruIt = entry.lruIt from rfl]
  cases NodeList.eraseAt w.mColdLru entry.lruIt with
  | none => exact .error rfl
  | some found =>
    refine .ok (Twins.note ?_ _ _)
    exact ⟨{ twins.renamed with mColdLru := rfl }, twins.llama, twins.nextNode, twins.created,
      twins.own⟩

theorem coldSubtract (twins : Twins ρ dir Alike w w') (bytes : UInt64) :
    Twins ρ dir Alike (w.coldSubtract bytes) (w'.coldSubtract bytes) := by
  refine Twins.note ?_ _ _
  exact ⟨{ twins.renamed with mColdUsedBytes := by rw [twins.renamed.mColdUsedBytes] },
    twins.llama, twins.nextNode, twins.created, twins.own⟩

theorem coldAdd (twins : Twins ρ dir Alike w w') (bytes : UInt64) :
    Twins ρ dir Alike { w with mColdUsedBytes := w.mColdUsedBytes + bytes }
      { w' with mColdUsedBytes := w'.mColdUsedBytes + bytes } :=
  ⟨{ twins.renamed with mColdUsedBytes := congrArg (· + bytes) twins.renamed.mColdUsedBytes },
    twins.llama, twins.nextNode, twins.created, twins.own⟩

theorem begin (twins : Twins ρ dir Alike w w') :
    Twins ρ dir Alike { w with created := w.created + 1 } { w' with created := w.created + 1 } :=
  ⟨twins.renamed, twins.llama, twins.nextNode, rfl, twins.own⟩

theorem hotPush (twins : Twins ρ dir Alike w w') (id : Int) :
    Twins ρ dir Alike (w.hotPush id) (w'.hotPush (ρ id)) where
  renamed :=
    { twins.renamed with
      mHotLru := by
        show w'.mHotLru ++ [_] = (w.mHotLru ++ [_]).map _
        rw [twins.renamed.mHotLru, twins.nextNode, List.map_append]
        rfl }
  llama := twins.llama
  nextNode := congrArg (· + 1) twins.nextNode
  created := twins.created
  own := twins.own

theorem coldPush (twins : Twins ρ dir Alike w w') (id : Int) :
    Twins ρ dir Alike (w.coldPush id) (w'.coldPush (ρ id)) where
  renamed :=
    { twins.renamed with
      mColdLru := by
        show w'.mColdLru ++ [_] = (w.mColdLru ++ [_]).map _
        rw [twins.renamed.mColdLru, twins.nextNode, List.map_append]
        rfl }
  llama := twins.llama
  nextNode := congrArg (· + 1) twins.nextNode
  created := twins.created
  own := twins.own

theorem freeCtx (twins : Twins ρ dir Alike w w') (outcomes : SameOutcomes ρ dir L L' Alike)
    (ctx : Option Ctx) : Twins ρ dir Alike (w.freeCtx L ctx) (w'.freeCtx L' ctx) := by
  cases ctx with
  | none => exact twins
  | some c =>
    exact ⟨twins.renamed, outcomes.free c _ _ twins.llama, twins.nextNode, twins.created, twins.own⟩

/-! ### The functions, one by one -/

variable (injective : Function.Injective ρ) (outcomes : SameOutcomes ρ dir L L' Alike)
include injective outcomes

/-- What every function does to twins: it answers alike and leaves twins, or faults alike. -/
abbrev Both {A : Type} (ρ : Int → Int) (dir : Bytes) (Alike : σ → σ' → Prop)
    (x : Except Fault (A × World σ)) (x' : Except Fault (A × World σ')) : Prop :=
  Lift Eq (fun a a' => a'.1 = a.1 ∧ Twins ρ dir Alike a.2 a'.2) x x'

/-- The clock is read, and an entry is written that holds the time and the last node of a list. -/
theorem stamp (twins : Twins ρ dir Alike w w') (id : Int) (write : Int → SessionMeta)
    (own : ∀ time, Owns dir id (write time)) :
    Twins ρ dir Alike
      ({ w with llama := (L.nowMs w.llama).2 }.assign id (write (L.nowMs w.llama).1))
      ({ w' with llama := (L'.nowMs w'.llama).2 }.assign (ρ id)
        (renameEntry ρ dir (write (L'.nowMs w'.llama).1))) := by
  obtain ⟨time, alike⟩ := outcomes.clock _ _ twins.llama
  rw [time]
  exact (twins.outside alike).assign injective (own _)

theorem createSession (twins : Twins ρ dir Alike w w') (id : Int) :
    (MiniV.createSession L' (ρ id) w').1 = (MiniV.createSession L id w).1 ∧
      Twins ρ dir Alike (MiniV.createSession L id w).2 (MiniV.createSession L' (ρ id) w').2 := by
  unfold MiniV.createSession
  cases found : w.mSessions id with
  | some entry =>
    rw [twins.living found]
    exact ⟨rfl, twins⟩
  | none =>
    rw [twins.absent found]
    refine ⟨rfl, ?_⟩
    exact twins.stamp injective outcomes id
      (fun time => { id := id, state := .COLD, lastUsedMs := time }) fun _ => ⟨rfl, Or.inl rfl⟩

theorem killSession (twins : Twins ρ dir Alike w w') (id : Int) :
    Both ρ dir Alike (MiniV.killSession L id w) (MiniV.killSession L' (ρ id) w') := by
  unfold MiniV.killSession
  cases found : w.mSessions id with
  | none =>
    rw [twins.absent found]
    exact .ok ⟨rfl, twins⟩
  | some entry =>
    rw [twins.living found]
    dsimp only
    rw [renameEntry_state]
    cases entry.state with
    | HOT =>
      refine (twins.hotErase injective entry).bind fun v v' erased => ?_
      exact .ok ⟨rfl, (erased.freeCtx outcomes entry.ctx).forget injective _⟩
    | COLD =>
      obtain ⟨rfl, noFile | file⟩ := twins.own id entry found
      · rw [if_pos noFile, if_pos (renameEntry_noFile noFile)]
        exact .ok ⟨rfl, twins.forget injective _⟩
      · have swapped : entry.swapFilePath ≠ [] := file ▸ pathIn_ne_nil dir _
        have file' : (renameEntry ρ dir entry).swapFilePath = pathIn dir (ρ entry.id) :=
          renameEntry_file swapped
        rw [if_neg swapped, if_neg (file' ▸ pathIn_ne_nil dir _), file, file']
        refine (twins.coldErase injective entry).bind fun v v' erased => ?_
        have counted := erased.coldSubtract entry.swapFileBytes
        exact .ok ⟨rfl,
          (counted.outside (outcomes.unlink _ _ _ counted.llama)).forget injective _⟩

theorem touchHot (twins : Twins ρ dir Alike w w') (id : Int) :
    Lift Eq (Twins ρ dir Alike) (MiniV.touchHot L id w) (MiniV.touchHot L' (ρ id) w') := by
  unfold MiniV.touchHot
  refine (twins.deref id).bind fun entry entry' read => ?_
  obtain ⟨rfl, own⟩ := read
  refine (twins.hotErase injective entry).bind fun v v' erased => .ok ?_
  have pushed : Twins ρ dir Alike (v.hotPush entry.id) (v'.hotPush (renameEntry ρ dir entry).id) :=
    erased.hotPush entry.id
  have last : prevEnd (v'.hotPush (renameEntry ρ dir entry).id).mHotLru =
      prevEnd (v.hotPush entry.id).mHotLru := by
    rw [pushed.renamed.mHotLru, prevEnd_rename]
  rw [last]
  exact pushed.stamp injective outcomes id (fun time =>
    { entry with lruIt := prevEnd (v.hotPush entry.id).mHotLru, lastUsedMs := time }) fun _ => own

/-- The end of `recordTokens`: a HOT session is touched. -/
theorem touchIfHot (twins : Twins ρ dir Alike w w') (id : Int) (state : State) :
    Lift Eq (Twins ρ dir Alike)
      (match state with
        | .HOT => MiniV.touchHot L id w
        | .COLD => .ok w)
      (match state with
        | .HOT => MiniV.touchHot L' (ρ id) w'
        | .COLD => .ok w') := by
  cases state with
  | HOT => exact twins.touchHot injective outcomes id
  | COLD => exact .ok twins

theorem recordTokens (twins : Twins ρ dir Alike w w') (id : Int) (tokens : List Token) :
    Lift Eq (Twins ρ dir Alike) (MiniV.recordTokens L id tokens w)
      (MiniV.recordTokens L' (ρ id) tokens w') := by
  unfold MiniV.recordTokens
  cases found : w.mSessions id with
  | none =>
    rw [twins.absent found]
    exact .ok twins
  | some entry =>
    rw [twins.living found]
    have longer : Owns dir id { entry with tokens := entry.tokens ++ tokens } :=
      twins.own id entry found
    have recorded := (twins.assign injective longer).note (.recorded id tokens)
      (.recorded (ρ id) tokens)
    exact recorded.touchIfHot injective outcomes id entry.state

/-- The loop of `evictColdIfNeeded`, where the excluded ids correspond. -/
theorem evictColdLoop {excludeId excludeId' : Int} (rounds : Nat) (twins : Twins ρ dir Alike w w')
    (agree : ∀ id ∈ values w.mColdLru, ρ id = excludeId' ↔ id = excludeId) :
    Lift Eq (Twins ρ dir Alike) (MiniV.evictColdLoop L excludeId rounds w)
      (MiniV.evictColdLoop L' excludeId' rounds w') := by
  induction rounds generalizing w w' with
  | zero => exact .error rfl
  | succ rounds ih =>
    unfold MiniV.evictColdLoop
    rw [twins.renamed.mColdLimitBytes, twins.renamed.mColdUsedBytes, twins.renamed.mColdLru,
      coldVictim_rename agree]
    by_cases exceeds : w.mColdLimitBytes < w.mColdUsedBytes
    · rw [if_pos exceeds, if_pos exceeds]
      cases coldVictim excludeId w.mColdLru with
      | none => exact .ok twins
      | some victim =>
        refine (twins.killSession injective outcomes victim).bind_of ?_
        rintro ⟨b, v⟩ ⟨b', v'⟩ killed ⟨_, after⟩
        refine ih after fun id member => agree id ?_
        exact List.map_subset _ (killSession_cold_subset killed) member
    · rw [if_neg exceeds, if_neg exceeds]
      exact .ok twins

theorem evictColdIfNeeded {excludeId excludeId' : Int} (twins : Twins ρ dir Alike w w')
    (agree : ∀ id ∈ values w.mColdLru, ρ id = excludeId' ↔ id = excludeId) :
    Lift Eq (Twins ρ dir Alike) (MiniV.evictColdIfNeeded L excludeId w)
      (MiniV.evictColdIfNeeded L' excludeId' w') := by
  unfold MiniV.evictColdIfNeeded
  rw [twins.renamed.mColdLru, List.length_map]
  refine (twins.evictColdLoop injective outcomes _ agree).bind fun v v' after => ?_
  exact .ok (after.note _ _)

theorem pruneOldestTokens (twins : Twins ρ dir Alike w w') (id : Int) (count : Nat) :
    Lift Eq (Twins ρ dir Alike) (MiniV.pruneOldestTokens L id count w)
      (MiniV.pruneOldestTokens L' (ρ id) count w') := by
  unfold MiniV.pruneOldestTokens
  refine (twins.deref id).bind fun entry entry' read => ?_
  obtain ⟨rfl, own⟩ := read
  show Lift _ _ (if count = 0 ∨ entry.tokens.length ≤ count then _ else _)
    (if count = 0 ∨ entry.tokens.length ≤ count then _ else _)
  split
  · exact .ok twins
  · obtain ⟨_, _, held, _, _, _, _, _⟩ := entry
    cases held with
    | none => exact .error rfl
    | some ctx =>
      have alike := outcomes.add ctx count (-1) (-count) _ _
        (outcomes.remove ctx 0 count _ _ twins.llama)
      exact .ok ((twins.outside alike).assign injective own)

/-- The loop of `swapOut`. -/
theorem swapOutLoop (twins : Twins ρ dir Alike w w') (id : Int) (rounds : Nat) :
    Both ρ dir Alike (MiniV.swapOutLoop L id (pathIn dir id) rounds w)
      (MiniV.swapOutLoop L' (ρ id) (pathIn dir (ρ id)) rounds w') := by
  induction rounds generalizing w w' with
  | zero => exact .error rfl
  | succ rounds ih =>
    unfold MiniV.swapOutLoop
    refine (twins.deref id).bind fun entry entry' read => ?_
    obtain ⟨rfl, own⟩ := read
    dsimp only
    rw [renameEntry_ctx]
    cases entry.ctx with
    | none => exact .error rfl
    | some ctx =>
      obtain ⟨written, saved⟩ := outcomes.save ctx id entry.tokens _ _ twins.llama
      obtain ⟨size, measured⟩ := outcomes.size ctx _ _ saved
      have failed : (L'.stateSeqSaveFile ctx (pathIn dir (ρ id)) entry.tokens w'.llama).1 = 0 ↔
          (L.stateSeqSaveFile ctx (pathIn dir id) entry.tokens w.llama).1 = 0 := by rw [written]
      have fits : (L'.stateSeqGetSize ctx (L'.stateSeqSaveFile ctx (pathIn dir (ρ id)) entry.tokens
            w'.llama).2).1 + w'.mColdUsedBytes ≤ w'.mColdLimitBytes ↔
          (L.stateSeqGetSize ctx (L.stateSeqSaveFile ctx (pathIn dir id) entry.tokens
            w.llama).2).1 + w.mColdUsedBytes ≤ w.mColdLimitBytes := by
        rw [twins.renamed.mColdUsedBytes, twins.renamed.mColdLimitBytes, size]
      refine Lift.ite failed (fun _ => .ok ⟨rfl, (twins.outside saved).note _ _⟩) fun _ => ?_
      have after := fun e e' e1 e1' =>
        (((twins.outside saved).note e e').outside measured).note e1 e1'
      refine Lift.ite fits (fun _ => .ok ⟨congrArg some size, after _ _ _ _⟩) fun _ => ?_
      refine Lift.ite Iff.rfl (fun _ => .ok ⟨congrArg some size, after _ _ _ _⟩) fun _ => ?_
      exact ((after _ _ _ _).pruneOldestTokens injective outcomes id _).bind
        fun v v' pruned => ih pruned

/-- The part of `swapOut` after its loop. -/
theorem moveToCold (twins : Twins ρ dir Alike w w') (id : Int) (bytes : UInt64) :
    Lift Eq (Twins ρ dir Alike) (MiniV.moveToCold L id (pathIn dir id) bytes w)
      (MiniV.moveToCold L' (ρ id) (pathIn dir (ρ id)) bytes w') := by
  unfold MiniV.moveToCold
  refine (twins.deref id).bind fun entry entry' read => ?_
  obtain ⟨rfl, own⟩ := read
  refine (twins.hotErase injective entry).bind fun v v' erased => .ok ?_
  have pushed : Twins ρ dir Alike ((v.freeCtx L entry.ctx).coldPush entry.id)
      ((v'.freeCtx L' entry.ctx).coldPush (renameEntry ρ dir entry).id) :=
    (erased.freeCtx outcomes entry.ctx).coldPush entry.id
  have last : prevEnd ((v'.freeCtx L' entry.ctx).coldPush (renameEntry ρ dir entry).id).mColdLru =
      prevEnd ((v.freeCtx L entry.ctx).coldPush entry.id).mColdLru := by
    rw [pushed.renamed.mColdLru, prevEnd_rename]
  obtain ⟨key, _⟩ := own
  have entry' : renameEntry ρ dir { entry with
      ctx := none, state := .COLD, swapFilePath := pathIn dir id, swapFileBytes := bytes,
      lruIt := prevEnd ((v.freeCtx L entry.ctx).coldPush entry.id).mColdLru } =
    { renameEntry ρ dir entry with
      ctx := none, state := .COLD, swapFilePath := pathIn dir (ρ id), swapFileBytes := bytes,
      lruIt := prevEnd
        ((v'.freeCtx L' entry.ctx).coldPush (renameEntry ρ dir entry).id).mColdLru } := by
    rw [last]
    unfold renameEntry
    rw [if_neg (pathIn_ne_nil dir id), key]
  have cold : Owns dir id { entry with
      ctx := none, state := .COLD, swapFilePath := pathIn dir id, swapFileBytes := bytes,
      lruIt := prevEnd ((v.freeCtx L entry.ctx).coldPush entry.id).mColdLru } := ⟨key, Or.inr rfl⟩
  have after := pushed.assign injective cold
  rw [entry'] at after
  exact (after.coldAdd bytes).note _ _

theorem swapOut (twins : Twins ρ dir Alike w w') (id : Int) :
    Both ρ dir Alike (MiniV.swapOut L id w) (MiniV.swapOut L' (ρ id) w') := by
  unfold MiniV.swapOut
  refine (twins.deref id).bind fun entry entry' read => ?_
  obtain ⟨rfl, rfl, _⟩ := read
  have path : swapPathFor w entry.id = pathIn dir entry.id := by
    rw [← twins.renamed.mSwapDir.1]
    rfl
  have path' : swapPathFor w' (renameEntry ρ dir entry).id = pathIn dir (ρ entry.id) := by
    rw [← twins.renamed.mSwapDir.2]
    rfl
  rw [path, path']
  refine (twins.swapOutLoop injective outcomes entry.id _).bind ?_
  rintro ⟨accepted, v⟩ ⟨accepted', v'⟩ ⟨same, looped⟩
  cases same
  cases accepted with
  | none => exact .ok ⟨rfl, looped⟩
  | some bytes =>
    refine (looped.moveToCold injective outcomes entry.id bytes).bind fun v v' moved => ?_
    refine (moved.evictColdIfNeeded injective outcomes fun id _ => injective.eq_iff).bind
      fun v v' evicted => .ok ⟨rfl, evicted⟩

end Twins

end Twins

end MiniV
