/-
**What a session id means.**

Under an injective renaming `ρ` of the ids, with the same outcomes of the llama calls, a session
manager goes through the renamed states, call by call: every function but one treats an id as a name
(`Twins`).

The exception is the eviction of HOT sessions. `hotVictim` returns -1 for *nobody*, and `setHotLimit`
excludes -1 for *nobody is excluded*, so a session -1 in front of the hot list is not swapped out and
nobody behind it is either. `comesTo` says that an eviction comes to such a session.

* `evictsInOrder` — where no eviction comes to -1, every eviction takes the HOT sessions in the order
  of the list;
* `session_ids_are_names` — runs in which no eviction comes to -1, or to the id renamed to -1, go in
  lockstep with the renamed runs.
-/

import MiniV.Session.Twins

namespace MiniV

open MiniV.Library
open MiniV.Library.NodeList (values)

variable {σ σ' : Type}

/-! ### The eviction of HOT sessions -/

/-- Whether an eviction of HOT sessions comes to such a session: in one of its rounds, the list is at
its limit and such a session is in front. -/
def comesTo (L : Llama σ) (such : Int → Bool) : Nat → World σ → Bool
  | 0, _ => false
  | rounds + 1, w =>
    match w.mHotLru with
    | [] => false
    | front :: _ =>
      if w.mHotLimit ≤ w.mHotLru.length then
        such front.val ||
          match swapOut L front.val w with
          | .ok (true, w') => comesTo L such rounds w'
          | _ => false
      else false

/-- The eviction of HOT sessions that a call makes: whom it excludes, and the world it starts in. -/
def hotEviction (op : Op) (w : World σ) : Option (Int × World σ) :=
  match op with
  | .setHotLimit count => some (-1, { w with mHotLimit := max 1 count })
  | .activateForInfer id =>
    match w.mSessions id with
    | none => none
    | some entry => if entry.state = .COLD then some (id, w) else none
  | _ => none

/-- An id that stands for nobody, before or after the renaming. -/
def standsForNobody (ρ : Int → Int) (id : Int) : Bool := id = -1 || ρ id = -1

/-- Whether a call makes an eviction that comes to an id that stands for nobody. -/
def clashes (L : Llama σ) (ρ : Int → Int) (op : Op) (w : World σ) : Bool :=
  match hotEviction op w with
  | none => false
  | some (_, w0) => comesTo L (standsForNobody ρ) (w0.mHotLru.length + 1) w0

section Hot

variable {L : Llama σ} {w w' : World σ} {excludeId : Int} {rounds : Nat} {front : Node Int}
  {rest : List (Node Int)}

theorem evictHotLoop_stop (room : ¬ (w.mHotLimit ≤ w.mHotLru.length ∧ w.mHotLru ≠ [])) :
    evictHotLoop L excludeId (rounds + 1) w = .ok w := by
  unfold evictHotLoop
  exact if_neg room

/-- The first HOT session other than one that is not in front. -/
theorem find_front (shape : w.mHotLru = front :: rest) (other : front.val ≠ excludeId) :
    (w.mHotLru.find? fun n => n.val ≠ excludeId) = some front := by
  rw [shape]
  exact List.find?_cons_of_pos (decide_eq_true other)

/-- A round that finds a victim in front. -/
theorem evictHotLoop_front {entry : SessionMeta} (full : w.mHotLimit ≤ w.mHotLru.length)
    (shape : w.mHotLru = front :: rest) (other : front.val ≠ excludeId) (named : front.val ≠ -1)
    (living : w.mSessions front.val = some entry) :
    evictHotLoop L excludeId (rounds + 1) w = (do
      let (swapped, w) ← swapOut L front.val w
      if swapped then evictHotLoop L excludeId rounds w else .ok w) := by
  have goes : w.mHotLimit ≤ w.mHotLru.length ∧ w.mHotLru ≠ [] :=
    ⟨full, by rw [shape]; exact List.cons_ne_nil _ _⟩
  have victim : hotVictim excludeId w.mHotLru = front.val := by
    rw [hotVictim, find_front shape other]
  simp only [evictHotLoop, if_pos goes, victim, if_neg named, living]

theorem comesTo_front {such : Int → Bool} (passes : comesTo L such (rounds + 1) w = false)
    (full : w.mHotLimit ≤ w.mHotLru.length) (shape : w.mHotLru = front :: rest) :
    such front.val = false ∧
      ∀ w', swapOut L front.val w = .ok (true, w') → comesTo L such rounds w' = false := by
  simp only [comesTo, shape, if_pos (shape ▸ full), Bool.or_eq_false_iff] at passes
  refine ⟨passes.1, fun w' swapped => ?_⟩
  have later := passes.2
  rw [swapped] at later
  exact later

end Hot

/-- **The loop of `evictHotIfNeeded`** treats ids as names, as long as it comes to no id that stands
for nobody. -/
theorem Twins.evictHotLoop {ρ : Int → Int} {dir : Bytes} {Alike : σ → σ' → Prop} {L : Llama σ}
    {L' : Llama σ'} {w : World σ} {w' : World σ'} (injective : Function.Injective ρ)
    (outcomes : SameOutcomes ρ dir L L' Alike) {excludeId excludeId' : Int} (rounds : Nat)
    (twins : Twins ρ dir Alike w w') (rep : Rep w)
    (apart : ∀ id ∈ values w.mHotLru, standsForNobody ρ id = false →
      id ≠ excludeId ∧ ρ id ≠ excludeId')
    (passes : comesTo L (standsForNobody ρ) rounds w = false) :
    Lift Eq (Twins ρ dir Alike) (MiniV.evictHotLoop L excludeId rounds w)
      (MiniV.evictHotLoop L' excludeId' rounds w') := by
  induction rounds generalizing w w' with
  | zero => exact .error rfl
  | succ rounds ih =>
    have list := twins.renamed.mHotLru
    have limit := twins.renamed.mHotLimit
    by_cases goes : w.mHotLimit ≤ w.mHotLru.length ∧ w.mHotLru ≠ []
    · obtain ⟨full, some'⟩ := goes
      obtain ⟨front, rest, shape⟩ := List.exists_cons_of_ne_nil some'
      obtain ⟨clear, later⟩ := comesTo_front passes full shape
      have inside : front ∈ w.mHotLru := by rw [shape]; exact List.mem_cons_self
      have member : front.val ∈ values w.mHotLru := NodeList.mem_values.mpr ⟨front, inside, rfl⟩
      obtain ⟨other, other'⟩ := apart front.val member clear
      rw [standsForNobody, Bool.or_eq_false_iff, decide_eq_false_iff_not,
        decide_eq_false_iff_not] at clear
      obtain ⟨named, named'⟩ := clear
      obtain ⟨entry, found, _⟩ := rep.hot.owner front inside
      have full' : w'.mHotLimit ≤ w'.mHotLru.length := by
        rw [limit, list, List.length_map]
        exact full
      have shape' : w'.mHotLru = NodeList.rename ρ front :: rest.map (NodeList.rename ρ) := by
        rw [list, shape, List.map_cons]
      rw [evictHotLoop_front full shape other named found,
        evictHotLoop_front full' shape' other' named' (twins.living found)]
      refine (twins.swapOut injective outcomes front.val).bind_of ?_
      rintro ⟨swapped, v⟩ ⟨swapped', v'⟩ result ⟨same, after⟩
      cases same
      cases swapped with
      | false => exact .ok after
      | true =>
        obtain ⟨w1, failed | ⟨bytes, done⟩⟩ :=
          swapOut_spec (L := L) rep full (find_front shape named)
        · rw [failed.result] at result
          cases result
        · rw [done.result] at result
          cases result
          exact ih after (Evicts.rep done.evicts rep)
            (fun id member => apart id (done.hot_subset member)) (later _ done.result)
    · have goes' : ¬ (w'.mHotLimit ≤ w'.mHotLru.length ∧ w'.mHotLru ≠ []) := by
        rw [limit, list, List.length_map, ne_eq, List.map_eq_nil_iff]
        exact goes
      rw [evictHotLoop_stop goes, evictHotLoop_stop goes']
      exact .ok twins

/-! ### A call -/

section Calls

variable {ρ : Int → Int} {dir : Bytes} {Alike : σ → σ' → Prop} {L : Llama σ} {L' : Llama σ'}
  {w : World σ} {w' : World σ'} (injective : Function.Injective ρ)
  (outcomes : SameOutcomes ρ dir L L' Alike)
include injective outcomes

theorem Twins.swapIn (twins : Twins ρ dir Alike w w') (id : Int) (ctx : Ctx) :
    Both ρ dir Alike (MiniV.swapIn L id ctx w) (MiniV.swapIn L' (ρ id) ctx w') := by
  unfold MiniV.swapIn
  refine (twins.deref id).bind fun entry entry' read => ?_
  obtain ⟨rfl, rfl, noFile | file⟩ := read
  · rw [if_pos noFile, if_pos (renameEntry_noFile noFile)]
    exact .ok ⟨rfl, twins⟩
  · have swapped : entry.swapFilePath ≠ [] := file ▸ pathIn_ne_nil dir _
    have file' : (renameEntry ρ dir entry).swapFilePath = pathIn dir (ρ entry.id) :=
      renameEntry_file swapped
    have swapped' : (renameEntry ρ dir entry).swapFilePath ≠ [] := file' ▸ pathIn_ne_nil dir _
    have load : Agrees Alike
        (L.stateSeqLoadFile ctx entry.swapFilePath (resize w.nCtx entry.tokens).length w.llama)
        (L'.stateSeqLoadFile ctx (renameEntry ρ dir entry).swapFilePath
          (resize w.nCtx (renameEntry ρ dir entry).tokens).length w'.llama) := by
      rw [file', file]
      exact outcomes.load ctx entry.id _ _ _ twins.llama
    obtain ⟨same, alike⟩ := load
    rw [if_neg swapped, if_neg swapped', twins.renamed.nCtx]
    dsimp only
    rw [same]
    have outside := twins.outside alike
    have written : ∀ tokens, Owns dir entry.id { entry with tokens := tokens } :=
      fun _ => ⟨rfl, Or.inr file⟩
    have emptied : ∀ tokens, Owns dir entry.id
        { entry with tokens := tokens, swapFileBytes := 0 } := fun _ => ⟨rfl, Or.inr file⟩
    refine Lift.ite Iff.rfl (fun _ => .ok ⟨rfl, ?_⟩) fun _ => ?_
    · exact (outside.assign injective (written _)).freeCtx outcomes (some ctx)
    · refine (outside.coldErase injective entry).bind fun v v' erased => .ok ⟨rfl, ?_⟩
      have counted := erased.coldSubtract entry.swapFileBytes
      have unlink := outcomes.unlink entry.id _ _ counted.llama
      rw [← file', ← file] at unlink
      exact (counted.assign injective (emptied _)).outside unlink

theorem Twins.makeHot (twins : Twins ρ dir Alike w w') (id : Int) (ctx : Ctx) :
    Lift Eq (Twins ρ dir Alike) (MiniV.makeHot L id ctx w) (MiniV.makeHot L' (ρ id) ctx w') := by
  unfold MiniV.makeHot
  refine (twins.deref id).bind fun entry entry' read => .ok ?_
  obtain ⟨rfl, own⟩ := read
  have pushed := twins.hotPush id
  have last : prevEnd (w'.hotPush (ρ id)).mHotLru = prevEnd (w.hotPush id).mHotLru := by
    rw [pushed.renamed.mHotLru, prevEnd_rename]
  rw [last]
  exact pushed.stamp injective outcomes id (fun time =>
    { entry with
      ctx := some ctx, state := .HOT, lruIt := prevEnd (w.hotPush id).mHotLru,
      lastUsedMs := time }) fun _ => own

theorem Twins.evictHotIfNeeded {excludeId excludeId' : Int} (twins : Twins ρ dir Alike w w')
    (rep : Rep w) (apart : ∀ id ∈ values w.mHotLru, standsForNobody ρ id = false →
      id ≠ excludeId ∧ ρ id ≠ excludeId')
    (passes : comesTo L (standsForNobody ρ) (w.mHotLru.length + 1) w = false) :
    Lift Eq (Twins ρ dir Alike) (MiniV.evictHotIfNeeded L excludeId w)
      (MiniV.evictHotIfNeeded L' excludeId' w') := by
  unfold MiniV.evictHotIfNeeded
  rw [twins.renamed.mHotLru, List.length_map]
  exact twins.evictHotLoop injective outcomes _ rep apart passes

theorem Twins.activateForInfer (twins : Twins ρ dir Alike w w') (rep : Rep w) (id : Int)
    (passes : clashes L ρ (.activateForInfer id) w = false) :
    Both ρ dir Alike (MiniV.activateForInfer L id w) (MiniV.activateForInfer L' (ρ id) w') := by
  cases found : w.mSessions id with
  | none =>
    simp only [MiniV.activateForInfer, found, twins.absent found]
    exact .ok ⟨rfl, twins⟩
  | some entry =>
    rcases hot_or_cold entry with state | state
    · have state' : (renameEntry ρ dir entry).state = .HOT := state
      simp only [MiniV.activateForInfer, found, twins.living found, state, state']
      refine (twins.touchHot injective outcomes id).bind fun v v' touched => ?_
      refine (touched.deref id).bind fun entry entry' read => ?_
      obtain ⟨rfl, _⟩ := read
      exact .ok ⟨rfl, touched⟩
    · have state' : (renameEntry ρ dir entry).state = .COLD := state
      rw [clashes, hotEviction, found] at passes
      simp only [state, if_true] at passes
      have outside : ∀ id' ∈ values w.mHotLru, standsForNobody ρ id' = false → id' ≠ id ∧ ρ id' ≠ ρ id := by
        intro id' member _
        have other : id' ≠ id := fun same => rep.not_mem_hot_of_cold found state (same ▸ member)
        exact ⟨other, injective.ne other⟩
      simp only [MiniV.activateForInfer, found, twins.living found, state, state']
      refine (twins.evictHotIfNeeded injective outcomes rep outside passes).bind fun v v' evicted => ?_
      rw [evicted.created]
      obtain ⟨same, alike⟩ := outcomes.init v.created _ _ evicted.llama
      rw [same]
      have after := evicted.outside alike
      rw [evicted.created] at after
      refine Lift.ite Iff.rfl (fun _ => .ok ⟨rfl, after⟩) fun _ => ?_
      refine (after.begin.swapIn injective outcomes id v.created).bind ?_
      rintro ⟨loaded, v1⟩ ⟨loaded', v1'⟩ ⟨agree, read⟩
      cases agree
      refine Lift.ite Iff.rfl (fun _ => .ok ⟨rfl, read⟩) fun _ => ?_
      exact (read.makeHot injective outcomes id v.created).bind fun _ _ hot => .ok ⟨rfl, hot⟩

/-- **Every call** answers alike and leaves twins. -/
theorem Twins.serve (twins : Twins ρ dir Alike w w') (rep : Rep w) (rep' : Rep w') (op : Op)
    (passes : clashes L ρ op w = false) :
    Both ρ dir Alike (MiniV.serve L op w) (MiniV.serve L' (renameOp ρ op) w') := by
  cases op with
  | createSession id =>
    obtain ⟨same, created⟩ := twins.createSession injective outcomes id
    exact .ok ⟨congrArg Reply.bool same, created⟩
  | killSession id =>
    exact (twins.killSession injective outcomes id).bind fun _ _ killed =>
      .ok ⟨congrArg Reply.bool killed.1, killed.2⟩
  | setHotLimit count =>
    have limited : Twins ρ dir Alike { w with mHotLimit := max 1 count }
        { w' with mHotLimit := max 1 count } :=
      ⟨{ twins.renamed with mHotLimit := rfl }, twins.llama, twins.nextNode, twins.created, twins.own⟩
    refine (limited.evictHotIfNeeded injective outcomes (withLimits_rep (.setHotLimit count) rep)
      (fun id _ named => ?_) passes).bind fun _ _ evicted => .ok ⟨rfl, evicted⟩
    rw [standsForNobody, Bool.or_eq_false_iff, decide_eq_false_iff_not,
      decide_eq_false_iff_not] at named
    exact named
  | setColdLimit bytes =>
    have limited : Twins ρ dir Alike { w with mColdLimitBytes := bytes }
        { w' with mColdLimitBytes := bytes } :=
      ⟨{ twins.renamed with mColdLimitBytes := rfl }, twins.llama, twins.nextNode, twins.created,
        twins.own⟩
    refine (limited.evictColdIfNeeded injective outcomes fun id member => ?_).bind
      fun _ _ evicted => .ok ⟨rfl, evicted⟩
    -- nobody's id is in neither cold list
    have renamed : ρ id ∈ values w'.mColdLru := by
      rw [twins.renamed.mColdLru, NodeList.values_rename]
      exact List.mem_map_of_mem member
    exact iff_of_false (fun same => rep'.nobody (same ▸ renamed))
      fun same => rep.nobody (same ▸ member)
  | activateForInfer id =>
    exact (twins.activateForInfer injective outcomes rep id passes).bind fun _ _ active =>
      .ok ⟨congrArg Reply.ctx active.1, active.2⟩
  | recordTokens id tokens =>
    exact (twins.recordTokens injective outcomes id tokens).bind fun _ _ recorded => .ok ⟨rfl, recorded⟩

end Calls

/-! ### The order of eviction -/

section Order

variable {L : Llama σ} {w w' : World σ} {id excludeId : Int}

/-- **HOT sessions are swapped out in the order of the list**, whoever they are, until there is room
or the session in front could not be saved. -/
def HotInOrder (w w' : World σ) : Prop :=
  ∃ count, swappedIds w'.trace = swappedIds w.trace ++ (values w.mHotLru).take count ∧
    values w'.mHotLru = (values w.mHotLru).drop count ∧
    (w'.mHotLru.length < w'.mHotLimit ∨ w'.mHotLru = [] ∨
      ∃ id, (values w'.mHotLru).head? = some id ∧ w'.trace.getLast? = some (.saved id 0))

/-- **COLD sessions are killed in the order of the list**, whoever they are, until the files fit or the
excluded session is left alone. -/
def ColdInOrder : Event → Prop
  | .coldEviction excludeId limit before _ killed after =>
    (∃ dropped, before = dropped ++ after ∧ killed = dropped.map Prod.fst) ∧
      (UInt64.ofNat (fileTotal after) ≤ limit ∨ after.map Prod.fst = [excludeId])
  | _ => True

/-- The last thing a failed swap-out does is the save that failed. -/
theorem SwapFailed.last (swap : SwapFailed L id w w') (rep : Rep w)
    (inside : id ∈ values w.mHotLru) : w'.trace.getLast? = some (.saved id 0) := by
  obtain ⟨entry, found, hot⟩ := (rep.hot.mem_values_iff id).mp inside
  obtain ⟨c, holds⟩ := rep.ctx_of_hot found hot
  obtain rfl := rep.keyed id entry found
  obtain ⟨entry', w1, pruned, ending⟩ :=
    swapOutLoop_spec (L := L) found hot holds (Nat.lt_succ_self _)
  have result := swap.result
  rcases ending with ⟨failed, loop⟩ | ⟨saved, accepted, loop⟩
  · simp only [swapOut, World.deref, found, ok_bind, loop] at result
    cases result
    rw [saveFailedOf, pruned.id_eq]
    exact List.getLast?_concat ..
  · simp only [swapOut, World.deref, found, ok_bind, loop] at result
    obtain ⟨_, _, result⟩ := bind_eq_ok.mp result
    obtain ⟨_, _, result⟩ := bind_eq_ok.mp result
    cases result

/-- A swap-out of the session in front swaps out that one. -/
theorem SwapDone.inOrder {front : Node Int} {rest : List (Node Int)} {bytes : UInt64}
    (swap : SwapDone L front.val bytes w w') (rep : Rep w) (shape : w.mHotLru = front :: rest)
    (named : front.val ≠ -1) :
    swappedIds w'.trace = swappedIds w.trace ++ [front.val] ∧ w'.mHotLru = rest := by
  obtain ⟨it, left, member⟩ := swap.hot
  have same : (⟨it, front.val⟩ : Node Int) = front :=
    List.inj_on_of_nodup_map rep.hot.values member (by rw [shape]; exact List.mem_cons_self) rfl
  rw [same, shape, List.erase_cons_head] at left
  refine ⟨?_, left⟩
  obtain ⟨victims, out⟩ := Evicts.victims swap.evicts rep
  have one : victims.length = 1 := by
    have length := out.length
    rw [left, shape, List.length_cons] at length
    omega
  have first := List.prefix_iff_eq_take.mp out.first
  rw [one, shape, NodeList.values_cons,
    List.filter_cons_of_pos (p := fun id => decide (id ≠ -1)) (decide_eq_true named), List.take_one,
    List.head?_cons] at first
  rw [out.swapped, first]
  rfl

/-- **An eviction that comes to no session -1** takes the HOT sessions in their order. -/
theorem HotEviction.inOrder {sizes : List (Int × UInt64)} {such : Int → Bool} {rounds : Nat}
    (eviction : HotEviction L excludeId w w' sizes) (rep : Rep w) (away : Away excludeId w)
    (nobody : such (-1) = true) (enough : w.mHotLru.length < rounds)
    (passes : comesTo L such rounds w = false) : HotInOrder w w' := by
  obtain ⟨rounds, rfl⟩ : ∃ n, rounds = n + 1 := ⟨rounds - 1, by omega⟩
  have clear : ∀ {w : World σ} {rounds : Nat} {front : Node Int} {rest : List (Node Int)},
      comesTo L such (rounds + 1) w = false → w.mHotLimit ≤ w.mHotLru.length →
      w.mHotLru = front :: rest → front.val ≠ -1 := by
    intro w rounds front rest passes full shape same
    have front' := (comesTo_front passes full shape).1
    rw [same, nobody] at front'
    cases front'
  induction eviction generalizing rounds with
  | @stop w stopped =>
    refine ⟨0, (List.append_nil _).symm, rfl, ?_⟩
    by_cases empty : w.mHotLru = []
    · exact Or.inr (Or.inl empty)
    · refine Or.inl (Nat.not_le.mp fun full => ?_)
      obtain ⟨front, rest, shape⟩ := List.exists_cons_of_ne_nil empty
      have named := clear passes full shape
      have other : front.val ≠ excludeId := by
        rintro rfl
        refine away.elim named fun outside => outside ?_
        rw [shape]
        exact List.mem_cons_self
      rcases stopped with room | nobody'
      · exact room ⟨full, empty⟩
      · rw [hotVictim, find_front shape other] at nobody'
        exact named nobody'
  | @fail w w' n goes first swap =>
    obtain ⟨full, some'⟩ := not_not.mp (not_or.mp goes).1
    obtain ⟨front, rest, shape⟩ := List.exists_cons_of_ne_nil some'
    rw [find_front shape (clear passes full shape), Option.some.injEq] at first
    subst first
    have inside : front.val ∈ values w.mHotLru := by rw [shape]; exact List.mem_cons_self
    obtain ⟨victims, out⟩ := Evicts.victims swap.evicts rep
    have none : victims = [] := by
      have length := out.length
      rw [swap.hot, Nat.add_eq_left, List.length_eq_zero_iff] at length
      exact length
    refine ⟨0, by rw [out.swapped, none]; rfl, by rw [swap.hot]; rfl, Or.inr (Or.inr ?_)⟩
    exact ⟨front.val, by rw [swap.hot, shape]; rfl, swap.last rep inside⟩
  | @swap w w' w'' n bytes sizes goes first swap later ih =>
    obtain ⟨full, some'⟩ := not_not.mp (not_or.mp goes).1
    obtain ⟨front, rest, shape⟩ := List.exists_cons_of_ne_nil some'
    have named := clear passes full shape
    rw [find_front shape named, Option.some.injEq] at first
    subst first
    obtain ⟨gone, left⟩ := swap.inOrder rep shape named
    have away' : Away excludeId w' := by
      refine away.imp_right fun outside member => outside ?_
      rw [shape, NodeList.values_cons, ← left]
      exact List.mem_cons_of_mem _ member
    have passes' := (comesTo_front passes full shape).2 w' swap.result
    have fewer : w'.mHotLru.length < rounds := by
      rw [shape, List.length_cons] at enough
      rw [left]
      omega
    obtain ⟨rounds, rfl⟩ : ∃ n, rounds = n + 1 := ⟨rounds - 1, by omega⟩
    obtain ⟨count, swapped, rest', ends⟩ := ih (Evicts.rep swap.evicts rep) away' rounds fewer passes'
    rw [left] at swapped rest'
    refine ⟨count + 1, ?_, ?_, ends⟩
    · rw [swapped, gone, shape, NodeList.values_cons, List.take_succ_cons, List.append_assoc]
      rfl
    · rw [rest', shape, NodeList.values_cons, List.drop_succ_cons]

/-- What a cold eviction notes is in order. -/
theorem coldEviction_inOrder {dropped kept : List (Node Int)} {limit : UInt64} {hot : List Int}
    (split : w.mColdLru = dropped ++ kept)
    (stopped : kept.map w.fileOf = trim (coldStops excludeId limit) w.coldFiles) :
    ColdInOrder (.coldEviction excludeId limit w.coldFiles hot (values dropped)
      (kept.map w.fileOf)) := by
  refine ⟨⟨dropped.map w.fileOf, ?_, (map_fst_fileOf w dropped).symm⟩, ?_⟩
  · rw [World.coldFiles, split, List.map_append]
  · have ends : trim (coldStops excludeId limit) w.coldFiles = [] ∨
        coldStops excludeId limit (trim (coldStops excludeId limit) w.coldFiles) = true := trim_fits _
    rw [← stopped] at ends
    rcases ends with empty | stops
    · rw [empty]
      exact Or.inl UInt64.zero_le
    · rw [coldStops, Bool.or_eq_true, decide_eq_true_eq, decide_eq_true_eq] at stops
      exact stops

theorem Evict.adds_inOrder (move : Evict L w w') : Adds ColdInOrder w w' := by
  have plain : ∀ e, Plain e → ColdInOrder e := by
    intro e plain
    cases e with
    | coldEviction => cases plain
    | _ => trivial
  cases move with
  | saveFailed found hot holds failed => exact .one rfl trivial
  | prune found hot holds saved large exceeds =>
    refine ⟨_, rfl, fun e member => plain e ?_⟩
    simp only [saveEvents, List.mem_cons, List.not_mem_nil, or_false] at member
    rcases member with rfl | rfl <;> trivial
  | swapOut found hot holds full first saved accepted =>
    refine ⟨_, rfl, fun e member => ?_⟩
    simp only [saveEvents, List.mem_append, List.mem_cons, List.not_mem_nil, or_false] at member
    rcases member with (rfl | rfl) | rfl | rfl <;> trivial
  | @coldEvict excludeId dropped kept split stopped =>
    exact ((dropCold_quiet dropped w).mono plain).trans (.one rfl (coldEviction_inOrder split stopped))

theorem Move.adds_inOrder (move : Move L w w') : Adds ColdInOrder w w' := by
  cases move with
  | evict move => exact Evict.adds_inOrder move
  | create id absent =>
    rw [createSession, absent]
    exact .refl rfl
  | killHot found hot holds inside => exact .one rfl trivial
  | killCold found inside =>
    refine ⟨_, rfl, fun e member => ?_⟩
    simp only [List.mem_cons, List.not_mem_nil, or_false] at member
    rcases member with rfl | rfl <;> trivial
  | record tokens found => exact .one rfl trivial
  | touch found hot inside => exact .one rfl trivial
  | @swapIn id entry it found swapped inside initOk loaded clock reads =>
    refine ⟨_, rfl, fun e member => ?_⟩
    simp only [List.mem_cons, List.not_mem_nil, or_false] at member
    rcases member with rfl | rfl <;> trivial
  | killNew | initFailed | loadFailed | firstIn => exact .refl rfl

theorem Moves.adds_inOrder (moves : Moves L w w') : Adds ColdInOrder w w' := by
  induction moves with
  | refl => exact .refl rfl
  | tail before move ih => exact ih.trans move.adds_inOrder

/-- **Nobody is exempt**: the HOT sessions that a call evicts, and the COLD sessions it kills, are the
first of their lists. -/
structure EvictsInOrder (L : Llama σ) (w : World σ) (op : Op) : Prop where
  hot : ∀ excludeId w0, hotEviction op w = some (excludeId, w0) →
    ∃ w1, evictHotIfNeeded L excludeId w0 = .ok w1 ∧ HotInOrder w0 w1
  cold : ∀ r w', serve L op w = .ok (r, w') → Adds ColdInOrder w w'

/-- The eviction that a call makes excludes nobody, or a session that is not HOT. -/
theorem hotEviction_away {op : Op} {w0 : World σ} (rep : Rep w)
    (evicts : hotEviction op w = some (excludeId, w0)) : Rep w0 ∧ Away excludeId w0 := by
  cases op with
  | setHotLimit count =>
    cases evicts
    exact ⟨withLimits_rep (.setHotLimit count) rep, Or.inl rfl⟩
  | activateForInfer id =>
    unfold hotEviction at evicts
    dsimp only at evicts
    split at evicts
    · cases evicts
    · rename_i entry found
      split at evicts
      · rename_i cold
        cases evicts
        exact ⟨rep, Or.inr (rep.not_mem_hot_of_cold found cold)⟩
      · cases evicts
  | createSession | killSession | setColdLimit | recordTokens => cases evicts

theorem evictsInOrder {ρ : Int → Int} (rep : Rep w) {op : Op} (passes : clashes L ρ op w = false) :
    EvictsInOrder L w op where
  hot excludeId w0 evicts := by
    obtain ⟨rep0, away⟩ := hotEviction_away rep evicts
    rw [clashes, evicts] at passes
    obtain ⟨w1, sizes, result, eviction⟩ := evictHotIfNeeded_spec (L := L) rep0 away
    exact ⟨w1, result, eviction.inOrder rep0 away rfl (Nat.lt_succ_self _) passes⟩
  cold r w' served := by
    obtain ⟨new, grown, fine⟩ := Moves.adds_inOrder (serve_served rep served).moves
    rw [withLimits_trace] at grown
    exact ⟨new, grown, fine⟩

end Order

/-! ### In the small llama -/

theorem pathIn_injective (dir : Bytes) : Function.Injective (pathIn dir) :=
  fun _ _ same => swapPathFor_injective (w := World.start 0 dir ()) same

/-- Two small llamas with the same contexts, and the files of renamed sessions. -/
structure SimTwins (ρ : Int → Int) (dir : Bytes) (s s' : Sim) : Prop where
  kv : s'.kv = s.kv
  files : ∀ id, s'.files (pathIn dir (ρ id)) = s.files (pathIn dir id)
  script : s'.script = s.script
  clock : s'.clock = s.clock

theorem sim_sameOutcomes {ρ : Int → Int} (injective : Function.Injective ρ) (dir : Bytes)
    (capacity : Nat) (header : UInt64) :
    SameOutcomes ρ dir (sim capacity header) (sim capacity header) (SimTwins ρ dir) where
  init c s s' twins := ⟨rfl, by simp [sim, twins.kv], twins.files, twins.script, twins.clock⟩
  free c s s' twins := ⟨by simp [sim, twins.kv], twins.files, twins.script, twins.clock⟩
  save c id tokens s s' twins := by
    refine ⟨rfl, twins.kv, fun id' => ?_, twins.script, twins.clock⟩
    show Function.update s'.files _ _ _ = Function.update s.files _ _ _
    rw [twins.kv]
    by_cases same : id' = id
    · rw [same, Function.update_self, Function.update_self]
    · rw [Function.update_of_ne ((pathIn_injective dir).ne (injective.ne same)),
        Function.update_of_ne ((pathIn_injective dir).ne same)]
      exact twins.files id'
  size c s s' twins := ⟨by simp [sim, twins.kv], twins⟩
  load c id room s s' twins := by
    unfold sim
    dsimp only
    rw [twins.files]
    cases s.files (pathIn dir id) with
    | none => exact ⟨rfl, twins⟩
    | some saved =>
      dsimp only
      split
      · exact ⟨rfl, by rw [twins.kv], twins.files, twins.script, twins.clock⟩
      · exact ⟨rfl, twins⟩
  remove c p0 p1 s s' twins := ⟨by simp [sim, twins.kv], twins.files, twins.script, twins.clock⟩
  add c p0 p1 delta s s' twins := ⟨by simp [sim, twins.kv], twins.files, twins.script, twins.clock⟩
  unlink id s s' twins := by
    refine ⟨twins.kv, fun id' => ?_, twins.script, twins.clock⟩
    show Function.update s'.files _ _ _ = Function.update s.files _ _ _
    by_cases same : id' = id
    · rw [same, Function.update_self, Function.update_self]
    · rw [Function.update_of_ne ((pathIn_injective dir).ne (injective.ne same)),
        Function.update_of_ne ((pathIn_injective dir).ne same)]
      exact twins.files id'
  clock s s' twins :=
    ⟨twins.clock, twins.kv, twins.files, twins.script, congrArg (· + 1) twins.clock⟩

/-! ### Runs -/

/-- **Session ids are names.** A run and the renamed run, from renamed starts and with the same
outcomes, go in lockstep: every call gives the same result and leaves the renamed state, as long as
no eviction of HOT sessions comes to an id that stands for nobody. Then nobody is exempt from
eviction, and nobody keeps others from it. -/
theorem session_ids_are_names {ρ : Int → Int} (injective : Function.Injective ρ) {L : Llama σ}
    {L' : Llama σ'} {Alike : σ → σ' → Prop} {swapDir : Bytes}
    (outcomes : SameOutcomes ρ swapDir L L' Alike) (nCtx : Nat) {llama : σ} {llama' : σ'}
    (alike : Alike llama llama') (ops : List Op)
    (passes : Along (serve L) (fun w op => clashes L ρ op w = false) ops
      (World.start nCtx swapDir llama)) :
    Lockstep (serve L) (serve L') (renameOp ρ) Eq Eq
        (fun w w' => Renamed ρ swapDir w.toSessionManager w'.toSessionManager) ops
        (World.start nCtx swapDir llama) (World.start nCtx swapDir llama') ∧
      Along (serve L) (EvictsInOrder L) ops (World.start nCtx swapDir llama) := by
  constructor
  · refine lockstep_of_simulation
      (I := fun w w' => Twins ρ swapDir Alike w w' ∧ Rep w ∧ Rep w')
      (fun w w' op inv passes => ?_) (fun w w' inv => inv.1.renamed)
      ⟨.start nCtx alike, .start nCtx swapDir llama, .start nCtx swapDir llama'⟩ passes
    obtain ⟨twins, rep, rep'⟩ := inv
    have both := twins.serve injective outcomes rep rep' op passes
    cases served : serve L op w with
    | error e =>
      rw [served] at both
      obtain ⟨e', served', same⟩ := both.of_error
      rw [served']
      exact .error same
    | ok a =>
      rw [served] at both
      obtain ⟨a', served', same, twins'⟩ := both.of_ok
      rw [served']
      exact .ok ⟨same.symm, twins', serve_rep rep served, serve_rep rep' served'⟩
  · exact along_of_invariant (I := Rep) (fun w op r w' rep _ served => serve_rep rep served)
      (fun w op rep passes => evictsInOrder rep passes) (.start nCtx swapDir llama) passes

/-- Three sessions, one of them negative, for two places. -/
def parade : List Op :=
  [.setHotLimit 2, .createSession (-3), .createSession 1, .createSession 2, .activateForInfer (-3),
    .recordTokens (-3) [7, 8], .activateForInfer 1, .activateForInfer 2, .activateForInfer (-3),
    .setColdLimit 10, .killSession 1, .createSession 1, .setHotLimit 1]

theorem add_five_injective : Function.Injective fun id : Int => id + 5 := add_left_injective 5

theorem session_ids_are_names_parade :
    Lockstep (serve (sim 4 10)) (serve (sim 4 10)) (renameOp fun id => id + 5) Eq Eq
        (fun w w' => Renamed (fun id => id + 5) (text "/s") w.toSessionManager w'.toSessionManager)
        parade (World.start 4 (text "/s") (Sim.start [])) (World.start 4 (text "/s") (Sim.start [])) ∧
      Along (serve (sim 4 10)) (EvictsInOrder (sim 4 10)) parade
        (World.start 4 (text "/s") (Sim.start [])) :=
  session_ids_are_names add_five_injective (sim_sameOutcomes add_five_injective _ 4 10) 4
    ⟨rfl, fun _ => rfl, rfl, rfl⟩ parade (by decide +kernel)

/-- Session -1 becomes HOT where one session may be, and then session 1. -/
def shielded : List Op :=
  [.setHotLimit 1, .createSession (-1), .createSession 1, .activateForInfer (-1),
    .activateForInfer 1]

/-- Session -1 is not swapped out, and session 5 in its place is. -/
theorem session_ids_are_names_shielded :
    SameOutcomes (Equiv.swap (-1) 5) (text "/s") (sim 4 10) (sim 4 10)
        (SimTwins (Equiv.swap (-1) 5) (text "/s")) ∧
      SimTwins (Equiv.swap (-1) 5) (text "/s") (Sim.start []) (Sim.start []) ∧
      ¬ Lockstep (serve (sim 4 10)) (serve (sim 4 10)) (renameOp (Equiv.swap (-1) 5)) Eq Eq
        (fun w w' => Renamed (Equiv.swap (-1) 5) (text "/s") w.toSessionManager w'.toSessionManager)
        shielded (World.start 4 (text "/s") (Sim.start []))
        (World.start 4 (text "/s") (Sim.start [])) := by
  refine ⟨sim_sameOutcomes (Equiv.swap (-1) 5).injective _ 4 10, ⟨rfl, fun _ => rfl, rfl, rfl⟩, ?_⟩
  intro lock
  have here : Gives (fun w => w.mHotLru.length = 2) (run (serve (sim 4 10)) shielded
      (World.start 4 (text "/s") (Sim.start []))) := by decide +kernel
  have there : Gives (fun w => w.mHotLru.length = 1) (run (serve (sim 4 10))
      (shielded.map (renameOp (Equiv.swap (-1) 5)))
      (World.start 4 (text "/s") (Sim.start []))) := by decide +kernel
  obtain ⟨w, reach, two⟩ := gives_iff.mp here
  obtain ⟨w', reach', renamed⟩ := lock.last reach
  obtain ⟨w1, reach1, one⟩ := gives_iff.mp there
  rw [reach', Except.ok.injEq] at reach1
  rw [← reach1, renamed.mHotLru, List.length_map, two] at one
  cases one

end MiniV
