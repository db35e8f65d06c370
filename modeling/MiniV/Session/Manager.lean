/-
**The session manager, as `session_manager.cpp` computes it.**

`SessionManager` holds the sessions under their ids, the two LRU lists of live nodes and the limits.
A session is HOT, with a llama context and a node in `mHotLru`, or COLD; a COLD session that was hot
before has a swap file and a node in `mColdLru`. The one field `lruIt` of a session denotes its node
in whichever of the two lists it is in.

`World` adds what the manager acts on (the state behind the llama calls, the addresses of list
nodes) and a record of what happened: the contexts created and freed, and a trace of events. The
manager writes the record and never reads it.

What C++ leaves undefined, and what ends the process, is a `Fault`. A reference to a map entry is the
key of the entry, and using it after the entry is gone is `danglingMeta`; erasing through an iterator
that denotes no node of the list is `badIterator`. Each loop is given the number of rounds it may
take, and `diverged` is the answer when these are used up; `Unbounded.lean` has the same loops with no
such number, and `Termination.lean` shows that it makes no difference.
-/

import Mathlib.Logic.Function.Basic
import MiniV.Library.Run
import MiniV.Library.NodeList
import MiniV.Library.Recency
import MiniV.Llama.Api

namespace MiniV

open MiniV.Library

/-! ### Data -/

/-- `SessionMeta::State`. -/
inductive State
  | HOT
  | COLD
deriving DecidableEq, Repr

/-- `SessionMeta`. A default-constructed `lruIt` denotes no node. -/
structure SessionMeta where
  id : Int := -1
  state : State := .COLD
  ctx : Option Ctx := none
  tokens : List Token := []
  swapFilePath : Bytes := []
  swapFileBytes : UInt64 := 0
  lastUsedMs : Int := 0
  lruIt : Option Nat := none
deriving DecidableEq, Repr

def kDefaultHotLimit : Nat := 3
def kDefaultColdLimitBytes : UInt64 := 512 * 1024 * 1024
def kMinKeepTokens : Nat := 64

/-- `SessionManager`; of `mCtxParams` it uses `n_ctx`. -/
structure SessionManager where
  nCtx : Nat
  mSwapDir : Bytes
  mSessions : Int → Option SessionMeta
  mHotLru : List (Node Int)
  mHotLimit : Nat
  mColdLru : List (Node Int)
  mColdLimitBytes : UInt64
  mColdUsedBytes : UInt64

/-- What happened, in the order it happened. -/
inductive Event
  /-- `llama_state_seq_save_file` answered for a session. -/
  | saved (id : Int) (written : UInt64)
  /-- `llama_state_seq_get_size` answered while `mColdUsedBytes` was `used`. -/
  | measured (bytes used : UInt64)
  /-- `list::erase` through the `lruIt` of `owner` took out the node of `node`. -/
  | erased (owner node : Int)
  /-- `bytes` were subtracted from `mColdUsedBytes` while it was `used`. -/
  | subtracted (used bytes : UInt64)
  /-- A session moved from HOT to COLD; the two lists before and after. -/
  | swappedOut (id : Int) (bytes : UInt64) (before after : Levels Int)
  /-- A run of `evictColdIfNeeded`; the cold list with its sizes before and after, the hot list, and
  the sessions of the cold list that are gone. -/
  | coldEviction (excludeId : Int) (limit : UInt64) (before : List (Int × UInt64)) (hot : List Int)
      (killed : List Int) (after : List (Int × UInt64))
  /-- `recordTokens` appended tokens to a session. -/
  | recorded (id : Int) (tokens : List Token)
  /-- `llama_decode` of one generated token answered. -/
  | loopDecode (rc : Int)
deriving DecidableEq, Repr

/-- The manager, what it acts on, and the record of what happened. -/
structure World (σ : Type) extends SessionManager where
  llama : σ
  nextNode : Nat
  created : Nat
  freed : List Ctx
  trace : List Event

/-- Undefined behaviour, an uncaught exception, or a loop that goes on. -/
inductive Fault
  | badIterator
  | danglingMeta
  | outOfRange
  | nullCtx
  | nullManager
  | freedContext
  | lengthError
  | diverged
deriving DecidableEq, Repr

/-- The manager as constructed. -/
def World.start {σ : Type} (nCtx : Nat) (swapDir : Bytes) (llama : σ) : World σ where
  nCtx := nCtx
  mSwapDir := swapDir
  mSessions := fun _ => none
  mHotLru := []
  mHotLimit := kDefaultHotLimit
  mColdLru := []
  mColdLimitBytes := kDefaultColdLimitBytes
  mColdUsedBytes := 0
  llama := llama
  nextNode := 0
  created := 0
  freed := []
  trace := []

/-! ### Access -/

namespace World

variable {σ : Type}

/-- Use of a reference to the entry of `ref`. -/
def deref (ref : Int) (w : World σ) : Except Fault SessionMeta :=
  match w.mSessions ref with
  | none => .error .danglingMeta
  | some entry => .ok entry

/-- Assignment through a reference to the entry of `ref`. -/
def assign (ref : Int) (entry : SessionMeta) (w : World σ) : World σ :=
  { w with mSessions := Function.update w.mSessions ref (some entry) }

/-- `mSessions.erase`. -/
def forget (id : Int) (w : World σ) : World σ :=
  { w with mSessions := Function.update w.mSessions id none }

/-- An event is added to the record. -/
def note (e : Event) (w : World σ) : World σ := { w with trace := w.trace ++ [e] }

/-- `mHotLru.erase(meta.lruIt)`. -/
def hotErase (entry : SessionMeta) (w : World σ) : Except Fault (World σ) :=
  match NodeList.eraseAt w.mHotLru entry.lruIt with
  | none => .error .badIterator
  | some (node, rest) => .ok ({ w with mHotLru := rest }.note (.erased entry.id node.val))

/-- `mColdLru.erase(meta.lruIt)`. -/
def coldErase (entry : SessionMeta) (w : World σ) : Except Fault (World σ) :=
  match NodeList.eraseAt w.mColdLru entry.lruIt with
  | none => .error .badIterator
  | some (node, rest) => .ok ({ w with mColdLru := rest }.note (.erased entry.id node.val))

/-- `mColdUsedBytes -= bytes`. -/
def coldSubtract (bytes : UInt64) (w : World σ) : World σ :=
  { w with mColdUsedBytes := w.mColdUsedBytes - bytes }.note (.subtracted w.mColdUsedBytes bytes)

/-- `mHotLru.push_back(id)`. -/
def hotPush (id : Int) (w : World σ) : World σ :=
  { w with mHotLru := w.mHotLru ++ [⟨w.nextNode, id⟩], nextNode := w.nextNode + 1 }

/-- `mColdLru.push_back(id)`. -/
def coldPush (id : Int) (w : World σ) : World σ :=
  { w with mColdLru := w.mColdLru ++ [⟨w.nextNode, id⟩], nextNode := w.nextNode + 1 }

/-- `llama_free(ctx)`; freeing the null pointer does nothing. -/
def freeCtx (L : Llama σ) (ctx : Option Ctx) (w : World σ) : World σ :=
  match ctx with
  | none => w
  | some c => { w with llama := L.free c w.llama, freed := w.freed ++ [c] }

/-- The ids in the two lists. -/
def levels (w : World σ) : Levels Int := ⟨NodeList.values w.mColdLru, NodeList.values w.mHotLru⟩

/-- The bytes of the swap file of a session. -/
def bytesOf (w : World σ) (id : Int) : UInt64 :=
  match w.mSessions id with
  | none => 0
  | some entry => entry.swapFileBytes

/-- The session of a node of the cold list, with the size of its swap file. -/
def fileOf (w : World σ) (n : Node Int) : Int × UInt64 := (n.val, w.bytesOf n.val)

/-- The cold list with the sizes of its swap files. -/
def coldFiles (w : World σ) : List (Int × UInt64) := w.mColdLru.map w.fileOf

end World

/-- `std::prev(list.end())`. -/
def prevEnd (l : List (Node Int)) : Option Nat := l.getLast?.map Node.addr

/-- `std::vector::resize`; new elements are zero. -/
def resize (n : Nat) (tokens : List Token) : List Token :=
  tokens.take n ++ List.replicate (n - tokens.length) 0

/-- A buffer after its first elements were written. -/
def overwrite (buffer written : List Token) : List Token :=
  written.take buffer.length ++ buffer.drop written.length

/-! ### The functions -/

section Functions

variable {σ : Type} (L : Llama σ)

/-- `swapPathFor`. -/
def swapPathFor (w : World σ) (id : Int) : Bytes :=
  w.mSwapDir ++ text "/" ++ decimal id ++ text ".state"

/-- `createSession`. -/
def createSession (requestedId : Int) (w : World σ) : Bool × World σ :=
  if (w.mSessions requestedId).isSome then (false, w)
  else
    let clock := L.nowMs w.llama
    let entry : SessionMeta := { id := requestedId, state := .COLD, lastUsedMs := clock.1 }
    (true, { w with llama := clock.2 }.assign requestedId entry)

/-- `killSession`. -/
def killSession (id : Int) (w : World σ) : Except Fault (Bool × World σ) :=
  match w.mSessions id with
  | none => .ok (false, w)
  | some entry =>
    match entry.state with
    | .HOT => do
      let w ← w.hotErase entry
      .ok (true, (w.freeCtx L entry.ctx).forget id)
    | .COLD =>
      if entry.swapFilePath = [] then .ok (true, w.forget id)
      else do
        let w ← w.coldErase entry
        let w := w.coldSubtract entry.swapFileBytes
        let w := { w with llama := L.removeFile entry.swapFilePath w.llama }
        .ok (true, w.forget id)

/-- `touchHot` on the entry of `ref`. -/
def touchHot (ref : Int) (w : World σ) : Except Fault (World σ) := do
  let entry ← w.deref ref
  let w ← w.hotErase entry
  let w := w.hotPush entry.id
  let clock := L.nowMs w.llama
  .ok ({ w with llama := clock.2 }.assign ref
    { entry with lruIt := prevEnd w.mHotLru, lastUsedMs := clock.1 })

/-- `recordTokens`. -/
def recordTokens (id : Int) (newTokens : List Token) (w : World σ) : Except Fault (World σ) :=
  match w.mSessions id with
  | none => .ok w
  | some entry =>
    let w := w.assign id { entry with tokens := entry.tokens ++ newTokens }
    let w := w.note (.recorded id newTokens)
    match entry.state with
    | .HOT => touchHot L id w
    | .COLD => .ok w

/-- The victim `evictColdIfNeeded` picks: the first id, or the second when the first is excluded;
none when the list is empty or holds the excluded id alone. -/
def coldVictim (excludeId : Int) : List (Node Int) → Option Int
  | [] => none
  | front :: rest =>
    if front.val = excludeId then
      match rest with
      | [] => none
      | next :: _ => some next.val
    else some front.val

/-- The loop of `evictColdIfNeeded`. -/
def evictColdLoop (excludeId : Int) : Nat → World σ → Except Fault (World σ)
  | 0, _ => .error .diverged
  | rounds + 1, w =>
    if w.mColdLimitBytes < w.mColdUsedBytes then
      match coldVictim excludeId w.mColdLru with
      | none => .ok w
      | some victim => do
        let (_, w) ← killSession L victim w
        evictColdLoop excludeId rounds w
    else .ok w

/-- `evictColdIfNeeded`. -/
def evictColdIfNeeded (excludeId : Int) (w : World σ) : Except Fault (World σ) := do
  let w' ← evictColdLoop L excludeId (w.mColdLru.length + 1) w
  let killed := (NodeList.values w.mColdLru).filter fun id => (w'.mSessions id).isNone
  .ok (w'.note (.coldEviction excludeId w.mColdLimitBytes w.coldFiles (NodeList.values w.mHotLru)
    killed w'.coldFiles))

/-- `pruneOldestTokens` on the entry of `ref`. -/
def pruneOldestTokens (ref : Int) (nTokensToRemove : Nat) (w : World σ) :
    Except Fault (World σ) := do
  let entry ← w.deref ref
  if nTokensToRemove = 0 ∨ entry.tokens.length ≤ nTokensToRemove then .ok w
  else
    match entry.ctx with
    | none => .error .nullCtx
    | some ctx =>
      let llama := L.memorySeqRm ctx 0 nTokensToRemove w.llama
      let llama := L.memorySeqAdd ctx nTokensToRemove (-1) (-nTokensToRemove) llama
      .ok ({ w with llama := llama }.assign ref
        { entry with tokens := entry.tokens.drop nTokensToRemove })

/-- The tokens one round of `swapOut` prunes: a quarter, at least one, down to the floor. -/
def pruneAmount (size : Nat) : Nat := min (max 1 (size / 4)) (size - kMinKeepTokens)

/-- The loop of `swapOut`: save, measure, accept or prune. Nothing when a save failed. -/
def swapOutLoop (ref : Int) (path : Bytes) : Nat → World σ → Except Fault (Option UInt64 × World σ)
  | 0, _ => .error .diverged
  | rounds + 1, w => do
    let entry ← w.deref ref
    match entry.ctx with
    | none => .error .nullCtx
    | some ctx =>
      let save := L.stateSeqSaveFile ctx path entry.tokens w.llama
      let w := { w with llama := save.2 }.note (.saved entry.id save.1)
      if save.1 = 0 then .ok (none, w)
      else
        let size := L.stateSeqGetSize ctx w.llama
        let w := { w with llama := size.2 }.note (.measured size.1 w.mColdUsedBytes)
        if size.1 + w.mColdUsedBytes ≤ w.mColdLimitBytes then .ok (some size.1, w)
        else if entry.tokens.length ≤ kMinKeepTokens then .ok (some size.1, w)
        else do
          let w ← pruneOldestTokens L ref (pruneAmount entry.tokens.length) w
          swapOutLoop ref path rounds w

/-- The part of `swapOut` after its loop: the session leaves the hot list and its context, and
joins the cold list with its file. -/
def moveToCold (ref : Int) (path : Bytes) (bytes : UInt64) (w : World σ) : Except Fault (World σ) := do
  let entry ← w.deref ref
  let before := w.levels
  let w ← w.hotErase entry
  let w := w.freeCtx L entry.ctx
  let w := w.coldPush entry.id
  let w := w.assign ref
    { entry with ctx := none, state := .COLD, swapFilePath := path, swapFileBytes := bytes,
                 lruIt := prevEnd w.mColdLru }
  let w := { w with mColdUsedBytes := w.mColdUsedBytes + bytes }
  .ok (w.note (.swappedOut entry.id bytes before w.levels))

/-- `swapOut` on the entry of `ref`. -/
def swapOut (ref : Int) (w : World σ) : Except Fault (Bool × World σ) := do
  let entry ← w.deref ref
  let path := swapPathFor w entry.id
  let (accepted, w) ← swapOutLoop L ref path (entry.tokens.length + 1) w
  match accepted with
  | none => .ok (false, w)
  | some bytes => do
    let w ← moveToCold L ref path bytes w
    let w ← evictColdIfNeeded L entry.id w
    .ok (true, w)

/-- The victim `evictHotIfNeeded` picks: the first id other than the excluded one, or -1. -/
def hotVictim (excludeId : Int) (hot : List (Node Int)) : Int :=
  match hot.find? fun n => n.val ≠ excludeId with
  | none => -1
  | some n => n.val

/-- The loop of `evictHotIfNeeded`. -/
def evictHotLoop (excludeId : Int) : Nat → World σ → Except Fault (World σ)
  | 0, _ => .error .diverged
  | rounds + 1, w =>
    if w.mHotLimit ≤ w.mHotLru.length ∧ w.mHotLru ≠ [] then
      let victim := hotVictim excludeId w.mHotLru
      if victim = -1 then .ok w
      else
        match w.mSessions victim with
        | none => .error .outOfRange
        | some _ => do
          let (swapped, w) ← swapOut L victim w
          if swapped then evictHotLoop excludeId rounds w else .ok w
    else .ok w

/-- `evictHotIfNeeded`. -/
def evictHotIfNeeded (excludeId : Int) (w : World σ) : Except Fault (World σ) :=
  evictHotLoop L excludeId (w.mHotLru.length + 1) w

/-- `setHotLimit`. -/
def setHotLimit (count : Nat) (w : World σ) : Except Fault (World σ) :=
  evictHotIfNeeded L (-1) { w with mHotLimit := max 1 count }

/-- `setColdLimit`. -/
def setColdLimit (bytes : UInt64) (w : World σ) : Except Fault (World σ) :=
  evictColdIfNeeded L (-1) { w with mColdLimitBytes := bytes }

/-- The swap-in of `activateForInfer`: the file of the session is loaded into the new context, and
the session leaves the cold list. A session without a file has nothing to load. -/
def swapIn (id : Int) (ctx : Ctx) (w : World σ) : Except Fault (Bool × World σ) := do
  let entry ← w.deref id
  if entry.swapFilePath = [] then .ok (true, w)
  else
    let buffer := resize w.nCtx entry.tokens
    let load := L.stateSeqLoadFile ctx entry.swapFilePath buffer.length w.llama
    let tokens := overwrite buffer load.1.tokensOut
    let w := { w with llama := load.2 }
    if load.1.loaded = 0 then
      .ok (false, (w.assign id { entry with tokens := tokens }).freeCtx L (some ctx))
    else do
      let tokens := resize load.1.tokensOut.length tokens
      let w ← w.coldErase entry
      let w := w.coldSubtract entry.swapFileBytes
      let w := w.assign id { entry with tokens := tokens, swapFileBytes := 0 }
      .ok (true, { w with llama := L.removeFile entry.swapFilePath w.llama })

/-- The end of `activateForInfer`: the session owns the context and joins the hot list. -/
def makeHot (id : Int) (ctx : Ctx) (w : World σ) : Except Fault (World σ) := do
  let entry ← w.deref id
  let w := w.hotPush id
  let clock := L.nowMs w.llama
  .ok ({ w with llama := clock.2 }.assign id
    { entry with ctx := some ctx, state := .HOT, lruIt := prevEnd w.mHotLru,
                 lastUsedMs := clock.1 })

/-- `activateForInfer`. -/
def activateForInfer (id : Int) (w : World σ) : Except Fault (Option Ctx × World σ) :=
  match w.mSessions id with
  | none => .ok (none, w)
  | some entry =>
    match entry.state with
    | .HOT => do
      let w ← touchHot L id w
      let entry ← w.deref id
      .ok (entry.ctx, w)
    | .COLD => do
      let w ← evictHotIfNeeded L id w
      let init := L.initFromModel w.created w.llama
      let w := { w with llama := init.2 }
      if init.1 = false then .ok (none, w)
      else
        let ctx := w.created
        let w := { w with created := w.created + 1 }
        let (loaded, w) ← swapIn L id ctx w
        if loaded = false then .ok (none, w)
        else do
          let w ← makeHot L id ctx w
          .ok (some ctx, w)

end Functions

/-! ### Runs of calls -/

/-- A call to the manager. -/
inductive Op
  | createSession (id : Int)
  | killSession (id : Int)
  | setHotLimit (count : Nat)
  | setColdLimit (bytes : UInt64)
  | activateForInfer (id : Int)
  | recordTokens (id : Int) (tokens : List Token)
deriving DecidableEq, Repr

/-- What a call returns. -/
inductive Reply
  | done
  | bool (b : Bool)
  | ctx (c : Option Ctx)
deriving DecidableEq, Repr

/-- One call. -/
def serve {σ : Type} (L : Llama σ) (op : Op) (w : World σ) : Except Fault (Reply × World σ) :=
  match op with
  | .createSession id => .ok (.bool (createSession L id w).1, (createSession L id w).2)
  | .killSession id => do
    let (b, w) ← killSession L id w
    .ok (.bool b, w)
  | .setHotLimit count => do
    let w ← setHotLimit L count w
    .ok (.done, w)
  | .setColdLimit bytes => do
    let w ← setColdLimit L bytes w
    .ok (.done, w)
  | .activateForInfer id => do
    let (c, w) ← activateForInfer L id w
    .ok (.ctx c, w)
  | .recordTokens id tokens => do
    let w ← recordTokens L id tokens w
    .ok (.done, w)

end MiniV
