/-
**The limit on HOT sessions.**

`Evicts.victims`: whatever an eviction does, the sessions it swaps out are the first of the hot list
(other than -1), the others keep their order, and it swaps out no more than it takes to make room for
one session.

`hot_limit`: in a run in which every save succeeds, there are never more HOT sessions than
`mHotLimit`, and the activation of a COLD session swaps out exactly the first HOT session when the
hot list is full, and none otherwise.
-/

import MiniV.Llama.Sim
import MiniV.Session.Representation

namespace MiniV

open MiniV.Library
open MiniV.Library.NodeList (values)

variable {σ : Type} {L : Llama σ} {w w' : World σ}

/-! ### The victims of an eviction -/

/-- The session an event says was swapped out. -/
def swappedId : Event → Option Int
  | .swappedOut id _ _ _ => some id
  | _ => none

/-- The sessions swapped out, in order. -/
def swappedIds (trace : List Event) : List Int := trace.filterMap swappedId

theorem swappedIds_append (first second : List Event) :
    swappedIds (first ++ second) = swappedIds first ++ swappedIds second := List.filterMap_append

theorem dropCold_swappedIds (dropped : List (Node Int)) (w : World σ) :
    swappedIds (dropCold L dropped w).trace = swappedIds w.trace := by
  refine dropCold_const (fun w => swappedIds w.trace) (fun n entry w => ?_) dropped w
  show swappedIds (w.trace ++ [_, _]) = swappedIds w.trace
  rw [swappedIds_append]
  exact List.append_nil _

/-- `victims` are swapped out from `w` to `w'`: they are the first of the hot list other than -1, the
others keep their order, and after the last of them there is room for one session. -/
structure Victims (victims : List Int) (w w' : World σ) : Prop where
  swapped : swappedIds w'.trace = swappedIds w.trace ++ victims
  hot : values w'.mHotLru = (values w.mHotLru).filter (· ∉ victims)
  length : w'.mHotLru.length + victims.length = w.mHotLru.length
  first : victims <+: (values w.mHotLru).filter (· ≠ -1)
  room : victims ≠ [] → w.mHotLimit ≤ w'.mHotLru.length + 1

theorem Victims.none (swapped : swappedIds w'.trace = swappedIds w.trace)
    (hot : w'.mHotLru = w.mHotLru) : Victims [] w w' where
  swapped := swapped.trans (List.append_nil _).symm
  hot := by rw [hot]; exact (List.filter_eq_self.mpr fun a _ => by simp).symm
  length := by rw [hot]; rfl
  first := List.nil_prefix
  room some' := absurd rfl some'

/-- A move of an eviction swaps out the first session or none. -/
theorem Evict.victims (move : Evict L w w') (rep : Rep w) : ∃ victims, Victims victims w w' := by
  cases move with
  | saveFailed found hot holds failed =>
    exact ⟨[], .none ((swappedIds_append _ _).trans (List.append_nil _)) rfl⟩
  | prune found hot holds saved large exceeds =>
    exact ⟨[], .none ((swappedIds_append _ _).trans (List.append_nil _)) rfl⟩
  | coldEvict excludeId split stopped =>
    refine ⟨[], .none ((swappedIds_append _ _).trans ?_) (dropCold_hot _ w)⟩
    rw [dropCold_swappedIds]
    exact List.append_nil _
  | @swapOut id entry c it found hot holds full first saved accepted =>
    obtain ⟨inside, _⟩ := Move.inside_of_first first
    have length := List.length_erase_of_mem inside
    have positive := List.length_pos_of_mem inside
    refine ⟨[id], swappedIds_append _ _, ?_, ?_, ?_, fun _ => ?_⟩
    · refine (NodeList.values_erase rep.hot.values inside).trans ?_
      exact List.filter_congr fun a _ => by simp
    · show (w.mHotLru.erase ⟨it, id⟩).length + 1 = w.mHotLru.length
      omega
    · have front := Move.first_value first
      rw [← List.head?_filter] at front
      obtain ⟨rest, shape⟩ := List.head?_eq_some_iff.mp front
      exact ⟨rest, shape.symm⟩
    · show w.mHotLimit ≤ (w.mHotLru.erase ⟨it, id⟩).length + 1
      omega

theorem filter_rest {v rest : List Int} (distinct : (v ++ rest).Nodup) :
    (v ++ rest).filter (· ∉ v) = rest := by
  rw [List.filter_append, List.filter_eq_nil_iff.mpr, List.nil_append, List.filter_eq_self.mpr]
  · intro a member
    exact decide_eq_true fun before => List.disjoint_of_nodup_append distinct before member
  · intro a member
    simpa using member

/-- Victims after victims. -/
theorem Victims.trans {first second : List Int} {w'' : World σ} (distinct : (values w.mHotLru).Nodup)
    (before : Victims first w w') (after : Victims second w' w'')
    (limit : w'.mHotLimit = w.mHotLimit) : Victims (first ++ second) w w'' where
  swapped := by rw [after.swapped, before.swapped, List.append_assoc]
  hot := by
    rw [after.hot, before.hot, List.filter_filter]
    exact List.filter_congr fun a _ => by simp [Bool.and_comm]
  length := by
    have one := before.length
    have two := after.length
    rw [List.length_append]
    omega
  first := by
    obtain ⟨rest, shape⟩ := before.first
    have later := after.first
    have swap : (values w'.mHotLru).filter (· ≠ -1) = rest := by
      have nodup : (first ++ rest).Nodup := by rw [shape]; exact distinct.filter _
      rw [before.hot, List.filter_filter, ← filter_rest nodup, shape, List.filter_filter]
      exact List.filter_congr fun a _ => by simp [Bool.and_comm]
    rw [swap] at later
    rw [← shape]
    exact (List.prefix_append_right_inj first).mpr later
  room some' := by
    rw [← limit]
    cases second with
    | cons a second => exact after.room (List.cons_ne_nil _ _)
    | nil =>
      have same : w''.mHotLru.length = w'.mHotLru.length := after.length
      rw [same, limit]
      exact before.room (by rwa [List.append_nil] at some')

/-- **The victims of an eviction.** -/
theorem Evicts.victims (evicts : Evicts L w w') (rep : Rep w) :
    ∃ victims, Victims victims w w' := by
  induction evicts with
  | refl => exact ⟨[], .none rfl rfl⟩
  | tail before move ih =>
    obtain ⟨first, early⟩ := ih
    obtain ⟨second, late⟩ := Evict.victims move (Evicts.rep before rep)
    exact ⟨first ++ second, early.trans rep.hot.values late (Evicts.limits before).1⟩

/-! ### Room -/

/-- A save that succeeded, or no save. -/
def SaveWorked : Event → Prop
  | .saved _ written => written ≠ 0
  | _ => True

instance : DecidablePred SaveWorked
  | .saved _ written => inferInstanceAs (Decidable (written ≠ 0))
  | .measured _ _ | .erased _ _ | .subtracted _ _ | .swappedOut _ _ _ _ | .coldEviction _ _ _ _ _ _
  | .recorded _ _ | .loopDecode _ => isTrue trivial

/-- Every save has succeeded. -/
def AllSaved (trace : List Event) : Prop := ∀ e ∈ trace, SaveWorked e

instance (trace : List Event) : Decidable (AllSaved trace) :=
  inferInstanceAs (Decidable (∀ e ∈ trace, SaveWorked e))

theorem AllSaved.before {trace trace' : List Event} (grows : trace <+: trace')
    (saves : AllSaved trace') : AllSaved trace := fun e member => saves e (grows.subset member)

/-- An eviction that does not end with a failed save makes room, when there is no session -1. -/
theorem HotEviction.room_of_stop {excludeId : Int} {sizes : List (Int × UInt64)} (rep : Rep w)
    (eviction : HotEviction L excludeId w w' sizes) (away : Away excludeId w)
    (limit : 1 ≤ w.mHotLimit) (nobody : w.mSessions (-1) = none) (stopped : HotStop excludeId w') :
    w'.mHotLru.length < w'.mHotLimit := by
  have rep' := Evicts.rep eviction.evicts rep
  rw [← (Evicts.limits eviction.evicts).1] at limit
  obtain ⟨victims, shape⟩ := Evicts.victims eviction.evicts rep
  have noOne : (-1 : Int) ∉ values w'.mHotLru :=
    (rep'.not_mem_of_absent (Evicts.absent eviction.evicts rep nobody)).1
  have empty : w'.mHotLru = [] → w'.mHotLru.length < w'.mHotLimit := by
    intro none
    rw [none]
    exact limit
  rcases stopped with roomy | nobody
  · by_cases none : w'.mHotLru = []
    · exact empty none
    · exact Nat.not_le.mp fun full => roomy ⟨full, none⟩
  · -- the loop found nobody but the excluded session, which is not HOT
    refine empty (List.eq_nil_iff_forall_not_mem.mpr fun n member => ?_)
    have inside : n.val ∈ values w'.mHotLru := NodeList.mem_values.mpr ⟨n, member, rfl⟩
    have other : n.val ≠ excludeId := by
      intro same
      rcases away with rfl | outside
      · exact noOne (same ▸ inside)
      · rw [shape.hot] at inside
        exact outside (same ▸ (List.mem_filter.mp inside).1)
    rw [hotVictim] at nobody
    cases search : w'.mHotLru.find? fun n => n.val ≠ excludeId with
    | none => exact (List.find?_eq_none.mp search n member) (decide_eq_true other)
    | some found =>
      rw [search] at nobody
      exact noOne (NodeList.mem_values.mpr ⟨found, List.mem_of_find?_eq_some search, nobody⟩)

/-- **An eviction in which every save succeeds makes room**, when there is no session -1. -/
theorem HotEviction.room {excludeId : Int} {sizes : List (Int × UInt64)} (rep : Rep w)
    (eviction : HotEviction L excludeId w w' sizes) (away : Away excludeId w)
    (limit : 1 ≤ w.mHotLimit) (nobody : w.mSessions (-1) = none) (saves : AllSaved w'.trace) :
    w'.mHotLru.length < w'.mHotLimit := by
  refine eviction.room_of_stop rep away limit nobody (eviction.stopped.resolve_right ?_)
  rintro ⟨id, failed⟩
  exact absurd rfl (saves _ failed)

/-- There are at most `mHotLimit` HOT sessions, and no session -1. -/
structure HotWithin (w : World σ) : Prop where
  positive : 1 ≤ w.mHotLimit
  within : w.mHotLru.length ≤ w.mHotLimit
  nobody : w.mSessions (-1) = none

theorem Touched.length {id : Int} {entry : SessionMeta} (shape : Touched L id entry w w')
    (rep : Rep w) (inside : id ∈ values w.mHotLru) : w'.mHotLru.length = w.mHotLru.length := by
  have length := congrArg List.length shape.hot
  have positive := List.length_pos_of_mem inside
  rw [NodeList.length_values] at positive
  have shorter : ((values w.mHotLru).filter (· ≠ id)).length = w.mHotLru.length - 1 := by
    have erased := List.length_erase_of_mem inside
    rw [rep.hot.values.erase_eq_filter, NodeList.length_values] at erased
    rw [← erased]
    exact congrArg List.length (List.filter_congr fun a _ => by by_cases same : a = id <;> simp [same])
  rw [NodeList.length_values, List.length_append, shorter] at length
  exact length.trans (Nat.sub_add_cancel positive)

/-- **Every call keeps the limit.** -/
theorem Served.hotWithin {op : Op} {r : Reply} (served : Served L w op r w') (rep : Rep w)
    (before : HotWithin w) (other : op ≠ .createSession (-1)) (saves : AllSaved w'.trace) :
    HotWithin w' := by
  have nobody := served.absent rep before.nobody other
  obtain ⟨positive, within, dead⟩ := before
  have inHot : ∀ {id : Int} {entry : SessionMeta}, w.mSessions id = some entry →
      entry.state = .HOT → id ∈ values w.mHotLru := fun found hot =>
    (rep.hot.mem_values_iff _).mpr ⟨_, found, hot⟩
  cases served with
  | taken found => exact ⟨positive, within, nobody⟩
  | creates absent => exact ⟨positive, within, nobody⟩
  | @kills id _ shape =>
    have length := congrArg List.length shape.hot
    have shorter := List.length_filter_le (fun a => decide (a ≠ id)) (values w.mHotLru)
    rw [NodeList.length_values] at length shorter
    refine ⟨by rw [shape.limits.1]; exact positive, ?_, nobody⟩
    rw [shape.limits.1, length]
    exact shorter.trans within
  | @limitsHot count _ sizes eviction =>
    have limit := (Evicts.limits eviction.evicts).1
    have positive' : 1 ≤ (withLimits (.setHotLimit count) w).mHotLimit := Nat.le_max_left 1 count
    exact ⟨by rw [limit]; exact positive', (eviction.room (withLimits_rep (.setHotLimit count) rep)
      nobody_away positive' dead saves).le, nobody⟩
  | limitsCold shape =>
    have limit := (Evict.limits shape.move).1
    exact ⟨by rw [limit]; exact positive, by rw [limit, shape.hot]; exact within, nobody⟩
  | activatesNobody absent => exact ⟨positive, within, nobody⟩
  | activatesHot found hot shape =>
    refine ⟨by rw [shape.limits.1]; exact positive, ?_, nobody⟩
    rw [shape.limits.1, shape.length rep (inHot found hot)]
    exact within
  | activatesCold found cold eviction rest =>
    have limit := (Evicts.limits eviction.evicts).1
    have away : Away _ w := Or.inr (rep.not_mem_hot_of_cold found cold)
    cases rest with
    | fails shape =>
      have room := eviction.room rep away positive dead (saves.before shape.move.trace_grows)
      refine ⟨by rw [shape.limits.1, limit]; exact positive, ?_, nobody⟩
      rw [shape.limits.1, shape.hot]
      exact room.le
    | takes shape =>
      have room := eviction.room rep away positive dead (saves.before shape.move.trace_grows)
      have length := congrArg List.length shape.hot
      rw [List.length_append, NodeList.length_values, NodeList.length_values] at length
      refine ⟨by rw [shape.limits.1, limit]; exact positive, ?_, nobody⟩
      rw [shape.limits.1, length]
      exact room
  | recordsNobody absent => exact ⟨positive, within, nobody⟩
  | recordsCold found cold => exact ⟨positive, within, nobody⟩
  | @recordsHot id tokens entry _ found hot shape =>
    have rep1 : Rep (recordedOf id entry tokens w) := Move.rep (L := L) (.record tokens found) rep
    refine ⟨by rw [shape.limits.1]; exact positive, ?_, nobody⟩
    rw [shape.limits.1, shape.length rep1 (inHot found hot)]
    exact within

/-! ### Whole runs -/

theorem Quiet.swappedIds (quiet : Quiet w w') : swappedIds w'.trace = swappedIds w.trace := by
  obtain ⟨new, grown, plain⟩ := quiet
  rw [grown, swappedIds_append]
  have none : MiniV.swappedIds new = [] := List.filterMap_eq_nil_iff.mpr fun e member => by
    have here := plain e member
    cases e with
    | swappedOut => exact here.elim
    | _ => rfl
  rw [none, List.append_nil]

/-- The activation of a COLD session swaps out exactly the first HOT session when the hot list is
full, and none otherwise. -/
def SwapsOnce (L : Llama σ) (w : World σ) (op : Op) : Prop :=
  ∀ id entry, op = .activateForInfer id → w.mSessions id = some entry → entry.state = .COLD →
    ∀ r w', serve L op w = .ok (r, w') →
      swappedIds w'.trace = swappedIds w.trace ++
        if w.mHotLru.length = w.mHotLimit then (values w.mHotLru).take 1 else []

/-- An eviction within the limit makes room for exactly one session. -/
theorem HotEviction.swapsOnce {excludeId : Int} {sizes : List (Int × UInt64)} (rep : Rep w)
    (eviction : HotEviction L excludeId w w' sizes) (away : Away excludeId w)
    (before : HotWithin w) (saves : AllSaved w'.trace) :
    swappedIds w'.trace = swappedIds w.trace ++
      if w.mHotLru.length = w.mHotLimit then (values w.mHotLru).take 1 else [] := by
  have room := eviction.room rep away before.positive before.nobody saves
  rw [(Evicts.limits eviction.evicts).1] at room
  obtain ⟨victims, shape⟩ := Evicts.victims eviction.evicts rep
  have length := shape.length
  have within := before.within
  have everyone : (values w.mHotLru).filter (· ≠ -1) = values w.mHotLru :=
    filter_absent (rep.not_mem_of_absent before.nobody).1
  have first := shape.first
  rw [everyone] at first
  rw [shape.swapped]
  congr 1
  by_cases full : w.mHotLru.length = w.mHotLimit
  · rw [if_pos full]
    have some' : victims ≠ [] := by
      intro none
      rw [none, List.length_nil] at length
      omega
    have enough := shape.room some'
    have one : victims.length = 1 := by omega
    rw [List.prefix_iff_eq_take.mp first, one]
  · rw [if_neg full]
    by_contra some'
    have enough := shape.room some'
    have positive := List.length_pos_iff.mpr some'
    omega

theorem swapsOnce (rep : Rep w) (before : HotWithin w) {op : Op}
    (saves : ∀ r w', serve L op w = .ok (r, w') → AllSaved w'.trace) : SwapsOnce L w op := by
  intro id entry call found cold r w' result
  have kept := saves r w' result
  subst call
  have served := serve_served rep result
  cases served with
  | activatesNobody absent =>
    rw [absent] at found
    cases found
  | activatesHot found' hot shape =>
    rw [found, Option.some.injEq] at found'
    rw [← found', cold] at hot
    cases hot
  | activatesCold found' cold' eviction rest =>
    have away : Away id w := Or.inr (rep.not_mem_hot_of_cold found cold)
    cases rest with
    | fails shape =>
      rw [shape.quiet.swappedIds]
      exact eviction.swapsOnce rep away before (kept.before shape.move.trace_grows)
    | takes shape =>
      rw [shape.quiet.swappedIds]
      exact eviction.swapsOnce rep away before (kept.before shape.move.trace_grows)

/-- **The HOT limit over whole runs.** When every save succeeds, no activation kills its own session
and there is no session -1, a run comes to its end, every state it visits has at most `mHotLimit` HOT
sessions, and every activation of a COLD session swaps out the first HOT session exactly when the hot
list is full. -/
theorem hot_limit (L : Llama σ) (nCtx : Nat) (swapDir : Bytes) (llama : σ) (ops : List Op)
    (nobody : ∀ op ∈ ops, op ≠ .createSession (-1))
    (spares : Along (serve L) (fun w op => killsItself L op w = false) ops
      (World.start nCtx swapDir llama))
    (saves : ∀ w, run (serve L) ops (World.start nCtx swapDir llama) = .ok w → AllSaved w.trace) :
    (∃ w, run (serve L) ops (World.start nCtx swapDir llama) = .ok w) ∧
      Throughout (serve L) (fun w => 1 ≤ w.mHotLimit ∧ w.mHotLru.length ≤ w.mHotLimit) ops
        (World.start nCtx swapDir llama) ∧
      Along (serve L) (SwapsOnce L) ops (World.start nCtx swapDir llama) := by
  obtain ⟨final, reach, sound⟩ := run_sound spares
  have saved := along_of_end (I := Rep) (Q := fun w => AllSaved w.trace)
    (fun _ _ _ _ rep served => serve_rep rep served)
    (fun _ _ _ _ rep served after => after.before (serve_grows rep served))
    (Rep.start nCtx swapDir llama) reach (saves final reach)
  have guarded := (along_of_forall nobody (World.start nCtx swapDir llama)).and saved
  have start : Rep (World.start nCtx swapDir llama) ∧ HotWithin (World.start nCtx swapDir llama) :=
    ⟨Rep.start nCtx swapDir llama, show 1 ≤ kDefaultHotLimit by decide, Nat.zero_le _, rfl⟩
  have kept : ∀ (w : World σ) (op : Op) (r : Reply) (w' : World σ), Rep w ∧ HotWithin w →
      (op ≠ .createSession (-1) ∧ ∀ r w', serve L op w = .ok (r, w') → AllSaved w'.trace) →
      serve L op w = .ok (r, w') → Rep w' ∧ HotWithin w' :=
    fun w op r w' inv guard served => ⟨serve_rep inv.1 served,
      (serve_served inv.1 served).hotWithin inv.1 inv.2 guard.1 (guard.2 r w' served)⟩
  refine ⟨⟨final, reach⟩, ?_, ?_⟩
  · exact (throughout_of_invariant kept start guarded).mono fun w inv =>
      ⟨inv.2.positive, inv.2.within⟩
  · exact along_of_invariant kept (fun w op inv guard => swapsOnce inv.1 inv.2 guard.2) start guarded

/-- Four sessions for two places, with a limit that changes. -/
def crowd : List Op :=
  [.createSession 1, .createSession 2, .createSession 3, .createSession 4, .setHotLimit 2,
    .activateForInfer 1, .activateForInfer 2, .activateForInfer 3, .recordTokens 2 [7],
    .activateForInfer 4, .activateForInfer 1, .setHotLimit 1, .activateForInfer 3]

theorem hot_limit_crowd :
    (∃ w, run (serve (sim 4 10)) crowd (World.start 4 (text "/s") (Sim.start [])) = .ok w) ∧
      Throughout (serve (sim 4 10)) (fun w => 1 ≤ w.mHotLimit ∧ w.mHotLru.length ≤ w.mHotLimit)
        crowd (World.start 4 (text "/s") (Sim.start [])) ∧
      Along (serve (sim 4 10)) (SwapsOnce (sim 4 10)) crowd
        (World.start 4 (text "/s") (Sim.start [])) :=
  hot_limit (sim 4 10) 4 (text "/s") (Sim.start []) crowd (by decide) (by decide +kernel)
    (ends_iff.mp (by decide +kernel))

end MiniV
