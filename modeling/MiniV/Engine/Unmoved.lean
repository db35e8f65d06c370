/-
**When an inference leaves the sessions as they were.**

An inference begins with the activation of its session. A session that gets its context is put into a
new node of the hot list, so the manager is not what it was. There are two ways to leave it: the
session is not there, or it is COLD and its activation comes to nothing, with nobody swapped out for it.

* `activateForInfer_renews`, `recordTokens_renews`: the node is new, and stays;
* `HotEviction.same_iff`: an eviction leaves the manager when there is room, or its first save fails;
* `infer_unmoved`: the two ways are all.
-/

import MiniV.Engine.ActivationFails
import MiniV.Engine.SaveFails
import MiniV.Session.HotLimit

namespace MiniV

open MiniV.Library
open MiniV.Library.NodeList (values)

variable {σ : Type} {L : Llama σ} {w w' w1 : World σ} {id : Int} {entry : SessionMeta}

/-! ### New nodes -/

/-- The hot list has a node with an address from `next` on, and so have all nodes to come. -/
structure Renewed (next : Nat) (w : World σ) : Prop where
  later : next ≤ w.nextNode
  node : ∃ n ∈ w.mHotLru, next ≤ n.addr

/-- Such a node was not there before. -/
theorem Renewed.moved (renewed : Renewed w.nextNode w') (rep : Rep w) : w'.mHotLru ≠ w.mHotLru := by
  intro same
  obtain ⟨n, inside, new⟩ := renewed.node
  rw [same] at inside
  exact absurd (rep.hot.fresh n inside) (not_lt.mpr new)

/-- What joins the hot list joins it in a new node. -/
theorem touchHot_renews {next : Nat} (before : next ≤ w.nextNode)
    (result : touchHot L id w = .ok w') : Renewed next w' := by
  obtain ⟨entry, _, result⟩ := bind_eq_ok.mp result
  obtain ⟨w1, erased, result⟩ := bind_eq_ok.mp result
  unfold World.hotErase at erased
  split at erased
  · cases erased
  · cases erased
    cases result
    exact ⟨Nat.le_succ_of_le before,
      ⟨_, List.mem_append_right _ List.mem_cons_self, before⟩⟩

theorem makeHot_renews {next : Nat} {c : Ctx} (before : next ≤ w.nextNode)
    (result : makeHot L id c w = .ok w') : Renewed next w' := by
  obtain ⟨entry, _, result⟩ := bind_eq_ok.mp result
  cases result
  exact ⟨Nat.le_succ_of_le before, ⟨_, List.mem_append_right _ List.mem_cons_self, before⟩⟩

/-- Recording takes no node out without a new one. -/
theorem recordTokens_renews {next : Nat} {tokens : List Token} (renewed : Renewed next w)
    (result : recordTokens L id tokens w = .ok w') : Renewed next w' := by
  unfold recordTokens at result
  split at result
  · cases result
    exact renewed
  · dsimp only at result
    split at result
    · refine touchHot_renews ?_ result
      exact renewed.later
    · cases result
      exact ⟨renewed.later, renewed.node⟩

theorem Evict.nextNode_le (move : Evict L w w') : w.nextNode ≤ w'.nextNode := by
  cases move with
  | swapOut => exact Nat.le_succ _
  | coldEvict => exact (dropCold_const (fun w => w.nextNode) (fun _ _ _ => rfl) _ w).ge
  | _ => exact le_rfl

theorem Evicts.nextNode_le (evicts : Evicts L w w') : w.nextNode ≤ w'.nextNode := by
  induction evicts with
  | refl => exact le_rfl
  | tail _ move ih => exact ih.trans (Evict.nextNode_le move)

theorem swapIn_nextNode {c : Ctx} {loaded : Bool} (result : swapIn L id c w = .ok (loaded, w')) :
    w'.nextNode = w.nextNode := by
  obtain ⟨entry, _, result⟩ := bind_eq_ok.mp result
  split at result
  · cases result
    rfl
  · dsimp only at result
    split at result
    · cases result
      rfl
    · obtain ⟨w1, erased, result⟩ := bind_eq_ok.mp result
      unfold World.coldErase at erased
      split at erased
      · cases erased
      · cases erased
        cases result
        rfl

/-- **A session that gets its context** is in a new node. -/
theorem activateForInfer_renews {c : Ctx} (rep : Rep w)
    (active : activateForInfer L id w = .ok (some c, w')) : Renewed w.nextNode w' := by
  cases found : w.mSessions id with
  | none =>
    rw [activateForInfer, found] at active
    cases active
  | some entry =>
    rcases hot_or_cold entry with hot | cold
    · simp only [activateForInfer, found, hot] at active
      obtain ⟨w1, touched, active⟩ := bind_eq_ok.mp active
      obtain ⟨entry', _, active⟩ := bind_eq_ok.mp active
      rw [Except.ok.injEq, Prod.mk.injEq] at active
      obtain ⟨_, rfl⟩ := active
      exact touchHot_renews le_rfl touched
    · obtain ⟨w1, sizes, evicted, eviction, _⟩ := activateForInfer_cold (L := L) rep found cold
      have later := Evicts.nextNode_le eviction.evicts
      rw [activateForInfer_eq found cold, evicted, ok_bind, activateRest] at active
      split at active
      · cases active
      · obtain ⟨⟨loaded, w2⟩, swapped, active⟩ := bind_eq_ok.mp active
        have same : w2.nextNode = (initOf L w1).nextNode := swapIn_nextNode swapped
        dsimp only at active
        split at active
        · cases active
        · obtain ⟨w3, hot, active⟩ := bind_eq_ok.mp active
          cases active
          refine makeHot_renews ?_ hot
          rw [same]
          exact later

/-- **So it is after the inference.** -/
theorem Inferred.moved {prompt : Bytes} (rep : Rep w) (inferred : Inferred L id prompt w w') :
    activateForInfer L id w = .ok (none, w') ∨ Renewed w.nextNode w' := by
  cases inferred with
  | noContext active => exact Or.inl active
  | prefillFails active failed =>
    have renewed := activateForInfer_renews rep active
    exact Or.inr ⟨renewed.later, renewed.node⟩
  | @generates c w1 w2 w3 w' tokens failed active decoded prefill loop records =>
    have renewed := activateForInfer_renews rep active
    have decodes : Renewed w.nextNode (decodeBatch L c (L.tokenize prompt) w1).2 :=
      ⟨renewed.later, renewed.node⟩
    have prompted := recordTokens_renews decodes prefill
    obtain ⟨llama, trace, rfl⟩ := loop.frame
    refine Or.inr (recordTokens_renews ?_ records)
    exact ⟨prompted.later, prompted.node⟩

/-! ### The eviction -/

/-- **Nobody is swapped out** for a session: there is room, or the first save fails. What is left is the
world as it was, or after that save. -/
inductive NobodyOut (L : Llama σ) (id : Int) (w : World σ) : World σ → Prop
  | room (stops : HotStop id w) : NobodyOut L id w w
  | saveFails {n : Node Int} {victim : SessionMeta} {c : Ctx} (goes : ¬ HotStop id w)
      (first : (w.mHotLru.find? fun n => n.val ≠ -1) = some n)
      (found : w.mSessions n.val = some victim) (holds : victim.ctx = some c)
      (failed : (saveOf L c victim w).1 = 0) : NobodyOut L id w (saveFailedOf L c victim w)

theorem NobodyOut.same (nobody : NobodyOut L id w w1) : w1.toSessionManager = w.toSessionManager := by
  cases nobody <;> rfl

/-- That is what the eviction leaves then. -/
theorem HotEviction.nobody {w2 : World σ} {sizes : List (Int × UInt64)} (rep : Rep w)
    (eviction : HotEviction L id w w1 sizes) (nobody : NobodyOut L id w w2) : w1 = w2 := by
  cases nobody with
  | room stops =>
    cases eviction with
    | stop => rfl
    | fail goes => exact absurd stops goes
    | swap goes => exact absurd stops goes
  | @saveFails n' victim c goes first' found holds failed =>
    have own := rep.keyed n'.val victim found
    rw [← own] at found
    have fails := swapOut_firstFails found holds failed
    rw [own] at fails
    cases eviction with
    | stop stops => exact absurd stops goes
    | fail _ first swap =>
      obtain rfl := Option.some.inj (first.symm.trans first')
      have result := swap.result
      rw [fails] at result
      cases result
      rfl
    | swap _ first swap later =>
      obtain rfl := Option.some.inj (first.symm.trans first')
      have result := swap.result
      rw [fails] at result
      cases result

/-- **An eviction leaves the manager** exactly when nobody is swapped out. -/
theorem HotEviction.same_iff {sizes : List (Int × UInt64)} (rep : Rep w)
    (eviction : HotEviction L id w w1 sizes) :
    w1.toSessionManager = w.toSessionManager ↔ NobodyOut L id w w1 := by
  refine ⟨fun same => ?_, NobodyOut.same⟩
  cases eviction with
  | stop stopped => exact .room stopped
  | @fail _ _ n goes first swap =>
    obtain ⟨victim, found, hot⟩ := rep.hot.owner n (Move.inside_of_first first).1
    obtain ⟨c, holds⟩ := rep.ctx_of_hot found hot
    have own := rep.keyed n.val victim found
    have result := swap.result
    by_cases failed : (saveOf L c victim w).1 = 0
    · have mine := found
      rw [← own] at mine result
      rw [swapOut_firstFails mine holds failed] at result
      cases result
      exact .saveFails goes first found holds failed
    · refine absurd ?_ (swapOut_laterFails (own ▸ found) holds failed (own ▸ result))
      rw [same, own]
      exact found
  | @swap _ w2 _ n bytes sizes goes first swap later =>
    have shorter := swap.shorter
    have rep2 := Evicts.rep swap.evicts rep
    obtain ⟨victims, shape⟩ := Evicts.victims later.evicts rep2
    have fewer := shape.length
    rw [congrArg SessionManager.mHotLru same] at fewer
    omega

/-! ### The activation -/

/-- **The activation of a COLD session comes to nothing**: nobody is swapped out for it, and then no
context is created, or the load fails and leaves the tokens as they are. -/
structure ComesToNothing (L : Llama σ) (id : Int) (entry : SessionMeta) (w : World σ) : Prop where
  cold : entry.state = .COLD
  fails : ∃ w1, NobodyOut L id w w1 ∧ ((L.initFromModel w1.created w1.llama).1 = false ∨
    entry.swapFilePath ≠ [] ∧ (loadOf L entry w1).1.loaded = 0 ∧
      entry.tokens.length = w.nCtx ∧ (loadOf L entry w1).1.tokensOut.take w.nCtx <+: entry.tokens)

/-- A load that fails leaves the manager exactly when it leaves the tokens. -/
theorem loadFailedOf_same_iff (found : w.mSessions id = some entry) :
    (loadFailedOf L id entry w).toSessionManager = w.toSessionManager ↔
      loadedBuffer L entry w = entry.tokens := by
  constructor
  · intro same
    have after := congrFun (congrArg SessionManager.mSessions same) id
    rw [found] at after
    have entry' := (Function.update_self ..).symm.trans after
    exact congrArg SessionMeta.tokens (Option.some.inj entry')
  · intro same
    have sessions : Function.update w.mSessions id (some { entry with tokens := entry.tokens }) =
        w.mSessions := update_found found
    rw [loadFailedOf, same, sessions]

theorem activation_unmoved (rep : Rep w) (found : w.mSessions id = some entry)
    (cold : entry.state = .COLD) :
    (∃ w', activateForInfer L id w = .ok (none, w') ∧ w'.toSessionManager = w.toSessionManager) ↔
      ComesToNothing L id entry w := by
  obtain ⟨w1, sizes, evicted, eviction, shape⟩ := activateForInfer_cold (L := L) rep found cold
  have rep1 := Evicts.rep eviction.evicts rep
  have ctx : w1.nCtx = w.nCtx := (Evicts.moves eviction.evicts).samePlace.nCtx
  have rest : activateForInfer L id w = activateRest L id w1 := by
    rw [activateForInfer_eq found cold, evicted, ok_bind]
  have buffer : loadedBuffer L entry w1 = entry.tokens ↔ _ := loadedBuffer_eq_iff
  rw [ctx] at buffer
  constructor
  · rintro ⟨w', active, same⟩
    have still : w'.mSessions id = some entry := by rw [same]; exact found
    have found1 : w1.mSessions id = some entry := by
      refine (Evicts.cold_entry eviction.evicts rep found cold).resolve_right fun dead => ?_
      rw [active] at shape
      cases shape with
      | fails shape =>
        have alive := shape.entry
        rw [still, dead] at alive
        cases alive
    rw [rest, activateRest_none rep1 found1 cold] at active
    rcases active with ⟨noInit, rfl⟩ | ⟨init, path, failed, rfl⟩
    · exact ⟨cold, w1, (eviction.same_iff rep).mp same, Or.inl noInit⟩
    · have kept : loadedBuffer L entry w1 = entry.tokens := by
        have entry' := (Function.update_self ..).symm.trans still
        exact congrArg SessionMeta.tokens (Option.some.inj entry')
      have same1 := ((loadFailedOf_same_iff (L := L) found1).mpr kept).symm.trans same
      exact ⟨cold, w1, (eviction.same_iff rep).mp same1, Or.inr ⟨path, failed, buffer.mp kept⟩⟩
  · rintro ⟨_, w2, nobody, fails⟩
    obtain rfl := eviction.nobody rep nobody
    have same1 := nobody.same
    have found1 : w1.mSessions id = some entry := by rw [same1]; exact found
    rw [rest]
    rcases init : (L.initFromModel w1.created w1.llama).1 with _ | _
    · exact ⟨_, (activateRest_none rep1 found1 cold).mpr (Or.inl ⟨init, rfl⟩), same1⟩
    · rcases fails with noInit | ⟨path, failed, kept⟩
      · rw [init] at noInit
        cases noInit
      · refine ⟨_, (activateRest_none rep1 found1 cold).mpr (Or.inr ⟨init, path, failed, rfl⟩), ?_⟩
        exact ((loadFailedOf_same_iff (L := L) found1).mpr (buffer.mpr kept)).trans same1

/-- Then no context came of the activation. -/
theorem infer_same {prompt : Bytes} {maxTokens : Int} {cancelFlag : Option (Nat → Bool)} {a : Answer}
    (rep : Rep w) (inferred : infer L id prompt maxTokens cancelFlag w = .ok (a, w'))
    (same : w'.toSessionManager = w.toSessionManager) :
    activateForInfer L id w = .ok (none, w') ∧ a = ⟨false, []⟩ := by
  have active : activateForInfer L id w = .ok (none, w') := by
    refine (Inferred.moved rep (infer_spec inferred)).resolve_right fun renewed => ?_
    exact renewed.moved rep (congrArg SessionManager.mHotLru same)
  refine ⟨active, ?_⟩
  simp only [infer, active, ok_bind, Except.ok.injEq, Prod.mk.injEq, and_true] at inferred
  exact inferred.symm

/-- **An inference leaves the manager as it was** exactly when its session is not there, or is COLD and
its activation comes to nothing. -/
theorem infer_unmoved {prompt : Bytes} {maxTokens : Int} {cancelFlag : Option (Nat → Bool)}
    (rep : Rep w) :
    (∃ a w', infer L id prompt maxTokens cancelFlag w = .ok (a, w') ∧
        w'.toSessionManager = w.toSessionManager) ↔
      ∀ entry, w.mSessions id = some entry → ComesToNothing L id entry w := by
  have gives : (∃ a w', infer L id prompt maxTokens cancelFlag w = .ok (a, w') ∧
      w'.toSessionManager = w.toSessionManager) ↔
      ∃ w', activateForInfer L id w = .ok (none, w') ∧ w'.toSessionManager = w.toSessionManager := by
    constructor
    · rintro ⟨a, w', inferred, same⟩
      exact ⟨w', (infer_same rep inferred same).1, same⟩
    · rintro ⟨w', active, same⟩
      refine ⟨⟨false, []⟩, w', ?_, same⟩
      simp only [infer, active, ok_bind]
  rw [gives]
  constructor
  · rintro ⟨w', active, same⟩ entry found
    rcases hot_or_cold entry with hot | cold
    · obtain ⟨c, holds⟩ := rep.ctx_of_hot found hot
      obtain ⟨w2, active', _⟩ := activateForInfer_hot (L := L) rep found hot
      rw [holds, active] at active'
      cases active'
    · exact (activation_unmoved rep found cold).mp ⟨w', active, same⟩
  · intro idle
    cases found : w.mSessions id with
    | none =>
      refine ⟨w, ?_, rfl⟩
      simp only [activateForInfer, found]
    | some entry => exact (activation_unmoved rep found (idle entry found).cold).mpr (idle entry found)

end MiniV
