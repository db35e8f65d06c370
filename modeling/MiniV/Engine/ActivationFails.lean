/-
**What an activation that fails has changed.**

`activateForInfer` makes room first, creates a context, and then resizes the token list of the session
to `n_ctx` and hands it to `llama_state_seq_load_file` as the buffer. When the load fails, the context
is freed, and the token list stays as the buffer was left.

* `activateRest_none`: the two ways to fail;
* `HotEviction.place`, `Evicts.coldFile`: the eviction before leaves a COLD session that survives at
  its place in the cold list, and its swap file as it was;
* `failed_activation`: the activation leaves the session as it was exactly when it does not come to a
  load that fails, or the load leaves the old tokens in the buffer.
-/

import MiniV.Engine.SwapIn
import MiniV.Engine.Reached
import MiniV.Session.Activation

namespace MiniV

open MiniV.Library
open MiniV.Library.NodeList (values)

variable {σ : Type} {L : Llama σ} {V : View σ} {w w' w1 : World σ} {id : Int} {entry : SessionMeta}

/-! ### The property -/

/-- **A failed activation leaves its session** as it was in `w`, and everything else as the eviction
left it in `w1`: the record; its place in the cold list, with the size that `mColdUsedBytes` counts;
its swap file; no context; the other sessions, the lists and the total. -/
structure LeavesSession (V : View σ) (id : Int) (entry : SessionMeta) (w w1 w' : World σ) : Prop where
  record : w'.mSessions id = some entry
  place : ∀ front behind, w.coldFiles = front ++ (id, entry.swapFileBytes) :: behind →
    ∃ front' joined, front' <:+ front ∧
      w'.coldFiles = front' ++ (id, entry.swapFileBytes) :: (behind ++ joined)
  file : entry.swapFilePath ≠ [] →
    V.file w'.llama entry.swapFilePath = V.file w.llama entry.swapFilePath
  contexts : ∀ c, w.created ≤ c → c < w'.created → c ∈ w'.freed
  others : ∀ id', id' ≠ id → w'.mSessions id' = w1.mSessions id'
  lists : w'.mHotLru = w1.mHotLru ∧ w'.mColdLru = w1.mColdLru
  total : w'.mColdUsedBytes = w1.mColdUsedBytes
  cells : ∀ c, c < w.created → V.kv w'.llama c = V.kv w1.llama c
  files : V.file w'.llama = V.file w1.llama

/-! ### The buffer -/

/-- **A buffer of `n` tokens is the old list again** exactly when the list has `n` tokens, and only
tokens it starts with were written. -/
theorem overwrite_eq_iff {n : Nat} {tokens written : List Token} :
    overwrite (resize n tokens) written = tokens ↔
      tokens.length = n ∧ written.take n <+: tokens := by
  unfold overwrite
  rw [length_resize]
  constructor
  · intro same
    have length := congrArg List.length same
    rw [List.length_append, List.length_take, List.length_drop, length_resize] at length
    refine ⟨by omega, ?_⟩
    rw [← same]
    exact List.prefix_append _ _
  · rintro ⟨rfl, part⟩
    have whole : resize tokens.length tokens = tokens := by
      rw [resize, List.take_length, Nat.sub_self, List.replicate_zero, List.append_nil]
    rw [whole]
    conv_rhs => rw [← List.prefix_iff_eq_append.mp part]
    rw [List.length_take]
    rcases le_total tokens.length written.length with long | short
    · rw [min_eq_left long, List.drop_length, List.drop_eq_nil_of_le long]
    · rw [min_eq_right short]

/-- So is the buffer of a session after a load. -/
theorem loadedBuffer_eq_iff : loadedBuffer L entry w = entry.tokens ↔
    entry.tokens.length = w.nCtx ∧ (loadOf L entry w).1.tokensOut.take w.nCtx <+: entry.tokens :=
  overwrite_eq_iff

/-! ### The eviction before -/

/-- Evictions create no context. -/
theorem Evict.created (move : Evict L w w') : w'.created = w.created := by
  cases move with
  | coldEvict => exact dropCold_const (fun w => w.created) (fun _ _ _ => rfl) _ w
  | _ => rfl

theorem Evicts.created (evicts : Evicts L w w') : w'.created = w.created := by
  induction evicts with
  | refl => rfl
  | tail _ move ih => exact (Evict.created move).trans ih

/-- **A COLD session that survives keeps its place**, and its size in it. -/
theorem HotEviction.place {sizes : List (Int × UInt64)} (eviction : HotEviction L id w w' sizes)
    (rep : Rep w) (found : w.mSessions id = some entry) (swapped : IsSwapped entry)
    (alive : (w'.mSessions id).isSome = true) {front behind : List (Int × UInt64)}
    (split : w.coldFiles = front ++ (id, entry.swapFileBytes) :: behind) :
    ∃ front', front' <:+ front ∧
      w'.coldFiles = front' ++ (id, entry.swapFileBytes) :: (behind ++ sizes) := by
  have distinct := rep.cold.values
  rw [← map_fst_fileOf w, ← World.coldFiles, split, List.map_append, List.map_cons] at distinct
  have once := (List.nodup_cons.mp (List.nodup_append.mp distinct).2.1).1
  have stays := (survives_iff_mem rep eviction.evicts found swapped).mp alive
  rw [eviction.coldFiles, split] at stays ⊢
  refine admitAll_place (fun again => once (List.mem_map.mpr ⟨_, again, rfl⟩)) (fun member => ?_) stays
  exact rep.not_mem_hot_of_cold found swapped.1 (eviction.victims_hot _ member)

section Outside

variable (doc : Documented L V)

include doc

/-- The files of the sessions that are killed are not that of another one. -/
theorem dropCold_coldFile {dropped kept : List (Node Int)} (rep : Rep w) (own : OwnPaths w)
    (split : w.mColdLru = dropped ++ kept) (other : id ∉ values dropped) :
    V.file (dropCold L dropped w).llama (swapPathFor w id) = V.file w.llama (swapPathFor w id) := by
  refine (Move.dropCold_induction (P := fun w' => OwnPaths w' ∧ swapPathFor w' id = swapPathFor w id ∧
    V.file w'.llama (swapPathFor w id) = V.file w.llama (swapPathFor w id)) rep split
    ⟨own, rfl, rfl⟩ ?_).2.2
  rintro w' n entry rep' ⟨own', path, file⟩ member inside found swapped
  refine ⟨(Move.killCold found inside).ownPaths rep' own', path, ?_⟩
  rw [coldKilled_files doc.ownFiles own' found swapped, file]
  rw [← path]
  exact fun same => other (NodeList.mem_values.mpr ⟨n, member, (swapPathFor_injective same).symm⟩)

/-- **An eviction leaves the swap file of a COLD session** that it does not kill. -/
theorem Evict.coldFile (move : Evict L w w') (rep : Rep w) (own : OwnPaths w)
    (found : w.mSessions id = some entry) (cold : entry.state = .COLD)
    (alive : (w'.mSessions id).isSome = true) :
    V.file w'.llama (swapPathFor w id) = V.file w.llama (swapPathFor w id) := by
  -- a victim is HOT, and its file is at another path
  have apart : ∀ {id' : Int} {victim : SessionMeta}, w.mSessions id' = some victim →
      victim.state = .HOT → swapPathFor w id ≠ swapPathFor w victim.id := by
    intro id' victim found' hot path
    rw [rep.keyed id' victim found'] at path
    have same := swapPathFor_injective path
    rw [← same, found, Option.some.injEq] at found'
    rw [found', hot] at cold
    cases cold
  cases move with
  | saveFailed found' hot holds failed => exact (saveOf_only doc _ _ w).file _ (apart found' hot)
  | prune found' hot holds saved large exceeds =>
    exact ((measureOf_only doc _ _ w).trans (pruneOf_only doc _ _ _ _)).file _ (apart found' hot)
  | swapOut found' hot holds full first saved accepted =>
    exact ((measureOf_only doc _ _ w).trans (doc.free _ _).only).file _ (apart found' hot)
  | coldEvict excludeId split stopped =>
    refine dropCold_coldFile doc rep own split fun member => ?_
    have dead := (dropCold_sessions (L := L) rep split).2 id
    rw [if_pos member] at dead
    have gone : ((dropCold L _ w).mSessions id).isSome = true := alive
    rw [dead] at gone
    cases gone

theorem Evicts.coldFile (evicts : Evicts L w w') (rep : Rep w) (own : OwnPaths w)
    (found : w.mSessions id = some entry) (cold : entry.state = .COLD)
    (alive : (w'.mSessions id).isSome = true) :
    V.file w'.llama (swapPathFor w id) = V.file w.llama (swapPathFor w id) := by
  induction evicts with
  | refl => rfl
  | @tail w1 w2 before move ih =>
    have rep1 := Evicts.rep before rep
    have moves := Evicts.moves before
    have place := moves.samePlace
    rcases Evicts.cold_entry before rep found cold with still | dead
    · have here := Evict.coldFile doc move rep1 (moves.ownPaths rep own) still cold alive
      rw [place.path] at here
      exact here.trans (ih (by rw [still]; rfl))
    · rw [Evict.absent move rep1 dead] at alive
      cases alive

end Outside

/-! ### The activation -/

/-- **After its eviction an activation fails in two ways**: no context is created, or the file is not
loaded into it. -/
theorem activateRest_none (rep : Rep w) (found : w.mSessions id = some entry)
    (cold : entry.state = .COLD) :
    activateRest L id w = .ok (none, w') ↔
      ((L.initFromModel w.created w.llama).1 = false ∧
          w' = { w with llama := (L.initFromModel w.created w.llama).2 }) ∨
        ((L.initFromModel w.created w.llama).1 = true ∧ entry.swapFilePath ≠ [] ∧
          (loadOf L entry w).1.loaded = 0 ∧ w' = loadFailedOf L id entry w) := by
  cases init : (L.initFromModel w.created w.llama).1 with
  | false =>
    rw [activateRest, if_pos init]
    simp [eq_comm]
  | true =>
    by_cases fails : entry.swapFilePath ≠ [] ∧ (loadOf L entry w).1.loaded = 0
    · obtain ⟨path, failed⟩ := fails
      rw [activateRest, init, if_neg (show ¬ (true = false) from Bool.noConfusion),
        swapIn_failed found ⟨cold, path⟩ failed]
      constructor
      · intro result
        cases result
        exact Or.inr ⟨rfl, path, failed, rfl⟩
      · rintro (⟨init', _⟩ | ⟨_, _, _, rfl⟩)
        · cases init'
        · rfl
    · -- nothing to load, or a file that is loaded
      have works : entry.swapFilePath = [] ∨ (loadOf L entry w).1.loaded ≠ 0 := by
        rwa [not_and_or, ne_eq, not_not] at fails
      obtain ⟨c, w2, active⟩ := (activateRest_some rep found cold).mpr ⟨init, works⟩
      rw [active]
      refine iff_of_false (fun result => by cases result) ?_
      rintro (⟨failed, _⟩ | ⟨_, path, failed, _⟩)
      · cases failed
      · exact fails ⟨path, failed⟩

/-- What fails after the eviction leaves the session when no entry has changed, nothing outside but the
new context, and that context is freed. -/
theorem LeavesSession.of_same {sizes : List (Int × UInt64)} (doc : Documented L V) (rep : Rep w)
    (own : OwnPaths w) (found : w.mSessions id = some entry) (cold : entry.state = .COLD)
    (eviction : HotEviction L id w w1 sizes) (found1 : w1.mSessions id = some entry)
    (sessions : w'.mSessions = w1.mSessions) (hot : w'.mHotLru = w1.mHotLru)
    (list : w'.mColdLru = w1.mColdLru) (total : w'.mColdUsedBytes = w1.mColdUsedBytes)
    (only : V.OnlyCtx w1.created w1.llama w'.llama)
    (contexts : ∀ c, w1.created ≤ c → c < w'.created → c ∈ w'.freed) :
    LeavesSession V id entry w w1 w' := by
  have alive : (w1.mSessions id).isSome = true := by rw [found1]; rfl
  have created : w1.created = w.created := Evicts.created eviction.evicts
  refine ⟨by rw [sessions, found1], fun front behind split => ?_, fun path => ?_,
    fun c born => contexts c (created ▸ born), fun id' _ => by rw [sessions], ⟨hot, list⟩, total,
    fun c before => only.1 c ?_, only.2⟩
  · have swapped : IsSwapped entry := rep.cold.holds_of_mem (by
      rw [← map_fst_fileOf w, ← World.coldFiles, split]
      exact List.mem_map.mpr ⟨_, List.mem_append_right _ List.mem_cons_self, rfl⟩) found
    obtain ⟨front', part, files⟩ := eviction.place rep found swapped alive split
    refine ⟨front', sizes, part, Eq.trans ?_ files⟩
    rw [World.coldFiles, World.coldFiles, list]
    exact List.map_congr_left fun n _ => fileOf_congr (by rw [sessions])
  · rw [only.2, (own id entry found).resolve_left path]
    exact Evicts.coldFile doc eviction.evicts rep own found cold alive
  · rw [created]
    exact Nat.ne_of_lt before

/-- **A failed activation leaves its session as it was** exactly when it does not come to a load that
fails (the session has no file, no context is created, or the file is loaded), or the session has
`n_ctx` tokens and the load has stored nothing but tokens that it starts with: in any state of a
manager, for each COLD session that the eviction does not kill. Any other load that fails leaves the
buffer it was given in place of the tokens. -/
theorem failed_activation (doc : Documented L V) {nCtx : Nat} {swapDir : Bytes}
    (reached : Reached L nCtx swapDir w) (found : w.mSessions id = some entry)
    (cold : entry.state = .COLD) (evicted : evictHotIfNeeded L id w = .ok w1)
    (alive : (w1.mSessions id).isSome = true) :
    (∀ w', activateForInfer L id w = .ok (none, w') → LeavesSession V id entry w w1 w') ↔
      entry.swapFilePath = [] ∨ (L.initFromModel w1.created w1.llama).1 = false ∨
        (loadOf L entry w1).1.loaded ≠ 0 ∨
        (entry.tokens.length = w.nCtx ∧
          (loadOf L entry w1).1.tokensOut.take w.nCtx <+: entry.tokens) := by
  have rep := reached.rep
  have own := reached.paths
  obtain ⟨w1', sizes, evicted', eviction, _⟩ := activateForInfer_cold (L := L) rep found cold
  rw [evicted, Except.ok.injEq] at evicted'
  subst evicted'
  have rep1 := Evicts.rep eviction.evicts rep
  have sameCtx : w1.nCtx = w.nCtx := (Evicts.moves eviction.evicts).samePlace.nCtx
  have found1 : w1.mSessions id = some entry := by
    refine (Evicts.cold_entry eviction.evicts rep found cold).resolve_right fun dead => ?_
    rw [dead] at alive
    cases alive
  have rest : activateForInfer L id w = activateRest L id w1 := by
    rw [activateForInfer_eq found cold, evicted, ok_bind]
  rw [← sameCtx, ← loadedBuffer_eq_iff, rest]
  constructor
  · intro leaves
    by_contra! spoiled
    obtain ⟨path, initOk, failed, other⟩ := spoiled
    have init : (L.initFromModel w1.created w1.llama).1 = true := Bool.eq_true_of_not_eq_false initOk
    have after := (leaves _ ((activateRest_none rep1 found1 cold).mpr
      (Or.inr ⟨init, path, failed, rfl⟩))).record
    have entry' := (Function.update_self ..).symm.trans after
    exact other (congrArg SessionMeta.tokens (Option.some.inj entry'))
  · intro harmless w' result
    rcases (activateRest_none rep1 found1 cold).mp result with ⟨_, rfl⟩ | ⟨init, path, failed, rfl⟩
    · refine .of_same doc rep own found cold eviction found1 rfl rfl rfl rfl (doc.init _ _) ?_
      exact fun c born before => absurd before (not_lt.mpr born)
    · have same : loadedBuffer L entry w1 = entry.tokens := by
        rcases harmless with noFile | noInit | loaded | same
        · exact absurd noFile path
        · rw [init] at noInit
          cases noInit
        · exact absurd failed loaded
        · exact same
      refine .of_same doc rep own found cold eviction found1 ?_ rfl rfl rfl ?_ ?_
      · rw [loadFailedOf, same]
        exact (congrArg _ found1.symm).trans (Function.update_eq_self ..)
      · refine ⟨fun c other => ?_, ?_⟩
        · exact ((doc.free _ _).1 c other).trans ((loadOf_only doc entry w1 []).kv c other)
        · refine (doc.free _ _).2.trans (funext fun path => ?_)
          exact loadOf_file doc entry w1 path
      · intro c born before
        obtain rfl : c = w1.created := Nat.le_antisymm (Nat.lt_succ_iff.mp before) born
        exact List.mem_append_right _ List.mem_cons_self

/-- The small llama with memory for one context ever. -/
def oneContext : Llama Sim :=
  { sim 4 10 with
    initFromModel := fun c s => if c = 0 then (sim 4 10).initFromModel c s else (false, s) }

theorem oneContext_documented : Documented oneContext simView :=
  { sim_documented 4 10 with
    init := fun c s => by
      unfold oneContext
      dsimp only
      split
      · exact (sim_documented 4 10).init c s
      · exact ⟨fun _ _ => rfl, rfl⟩
    initEmpty := fun c s created => by
      unfold oneContext at created ⊢
      dsimp only at created ⊢
      split at created
      · rename_i first
        rw [if_pos first]
        exact (sim_documented 4 10).initEmpty c s created
      · cases created }

/-- A session that was swapped out gets no second context, and stays as it was. -/
theorem failed_activation_waits : ∃ w entry w1 w',
    run (serveEngine oneContext) [.createSession 1, .infer 1 (text "ab") 0 none, .setHotLimit 1]
        (World.start 4 (text "/s") (Sim.start [])) = .ok w ∧
      w.mSessions 1 = some entry ∧ entry.swapFilePath = text "/s/1.state" ∧
      activateForInfer oneContext 1 w = .ok (none, w') ∧
      LeavesSession simView 1 entry w w1 w' := by
  have state : ∃ w : World Sim,
      run (serveEngine oneContext) [.createSession 1, .infer 1 (text "ab") 0 none, .setHotLimit 1]
          (World.start 4 (text "/s") (Sim.start [])) = .ok w ∧
        (∃ entry ∈ w.mSessions 1, entry.state = .COLD ∧ entry.swapFilePath = text "/s/1.state") ∧
        Gives (fun w1 => (w1.mSessions 1).isSome = true ∧
          (oneContext.initFromModel w1.created w1.llama).1 = false) (evictHotIfNeeded oneContext 1 w) ∧
        Gives (fun r => r.1 = none) (activateForInfer oneContext 1 w) := by
    refine gives_iff.mp ?_
    decide +kernel
  obtain ⟨w, reach, ⟨entry, found, cold, path⟩, evicts, fails⟩ := state
  obtain ⟨w1, evicted, alive, noInit⟩ := gives_iff.mp evicts
  obtain ⟨⟨c, w'⟩, result, rfl⟩ := gives_iff.mp fails
  exact ⟨w, entry, w1, w', reach, found, path, result,
    (failed_activation oneContext_documented (reached_of_run reach) found cold evicted alive).mpr
      (Or.inr (Or.inl noInit)) w' result⟩

/-- The file of the overflowing conversation has a token more than `n_ctx`; the load fails, and the
session has lost that token. -/
theorem failed_activation_truncates : ∃ w entry w1 w' entry',
    run (serveEngine (sim 4 10)) stranded (World.start 4 (text "/s") (Sim.start [5, 6, 7, 8])) = .ok w ∧
      w.mSessions 1 = some entry ∧ entry.state = .COLD ∧
      evictHotIfNeeded (sim 4 10) 1 w = .ok w1 ∧ (w1.mSessions 1).isSome = true ∧
      activateForInfer (sim 4 10) 1 w = .ok (none, w') ∧ ¬ LeavesSession simView 1 entry w w1 w' ∧
      w'.mSessions 1 = some entry' ∧ entry.tokens.length = 5 ∧ entry'.tokens.length = 4 := by
  have state : ∃ w : World Sim,
      run (serveEngine (sim 4 10)) stranded (World.start 4 (text "/s") (Sim.start [5, 6, 7, 8])) =
          .ok w ∧
        (∃ entry ∈ w.mSessions 1, entry.state = .COLD ∧ entry.tokens.length = 5) ∧
        Gives (fun w1 => (w1.mSessions 1).isSome = true) (evictHotIfNeeded (sim 4 10) 1 w) ∧
        Gives (fun r => r.1 = none ∧ ∃ entry' ∈ r.2.mSessions 1, entry'.tokens.length = 4)
          (activateForInfer (sim 4 10) 1 w) := by
    refine gives_iff.mp ?_
    decide +kernel
  obtain ⟨w, reach, ⟨entry, found, cold, five⟩, evicts, fails⟩ := state
  obtain ⟨w1, evicted, alive⟩ := gives_iff.mp evicts
  obtain ⟨⟨c, w'⟩, result, rfl, entry', found', four⟩ := gives_iff.mp fails
  refine ⟨w, entry, w1, w', entry', reach, found, cold, evicted, alive, result, fun leaves => ?_,
    found', five, four⟩
  obtain rfl : entry' = entry := Option.some.inj (found'.symm.trans leaves.record)
  omega

end MiniV
