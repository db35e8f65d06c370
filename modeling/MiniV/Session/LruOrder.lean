/-
**The two lists keep one recency order.**

A run is followed by a log of uses: a successful activation uses its session, and so does a recording
on a HOT session; a session that is created anew starts without uses. `lru_order` says that the cold
list followed by the hot list is, in every state a run visits, the list of the living sessions that
have been used, least recently used first; and that every swap-out takes the least recently used HOT
session and moves only the boundary, and every cold eviction kills the least recently used of all.

`Evicts.order` is the step that carries it: an eviction removes the sessions it kills from the order
and changes nothing else.
-/

import MiniV.Llama.Sim
import MiniV.Session.Representation

namespace MiniV

open MiniV.Library
open MiniV.Library.NodeList (values)

variable {σ : Type} {L : Llama σ} {w w' : World σ}

/-! ### The log of uses -/

/-- The log after a call: its use is the last one; a new session has none. -/
def logAfter (op : Op) (r : Reply) (w : World σ) (log : List Int) : List Int :=
  match op, r with
  | .createSession id, .bool true => log.filter (· ≠ id)
  | .activateForInfer id, .ctx (some _) => log ++ [id]
  | .recordTokens id _, _ =>
    match (w.mSessions id).map SessionMeta.state with
    | some .HOT => log ++ [id]
    | _ => log
  | _, _ => log

/-- A call, with the log. -/
def serveLogged (L : Llama σ) (op : Op) (s : World σ × List Int) :
    Except Fault (Reply × World σ × List Int) := do
  let (r, w) ← serve L op s.1
  .ok (r, w, logAfter op r s.1 s.2)

/-- The session is there. -/
def alive (w : World σ) (id : Int) : Bool := (w.mSessions id).isSome

theorem serveLogged_eq_ok {op : Op} {s s' : World σ × List Int} {r : Reply} :
    serveLogged L op s = .ok (r, s') ↔
      serve L op s.1 = .ok (r, s'.1) ∧ s'.2 = logAfter op r s.1 s.2 := by
  rw [serveLogged, bind_eq_ok]
  constructor
  · rintro ⟨⟨r', w1⟩, served, result⟩
    cases result
    exact ⟨served, rfl⟩
  · rintro ⟨served, logged⟩
    refine ⟨(r, s'.1), served, ?_⟩
    show Except.ok (r, s'.1, logAfter op r s.1 s.2) = .ok (r, s')
    rw [← logged]

/-- The log changes nothing. -/
theorem along_logged {P : World σ → Op → Prop} {ops : List Op} {w : World σ}
    (holds : Along (serve L) P ops w) (log : List Int) :
    Along (serveLogged L) (fun s op => P s.1 op) ops (w, log) := by
  induction ops generalizing w log with
  | nil => trivial
  | cons op ops ih =>
    refine ⟨holds.1, fun r s' served => ?_⟩
    exact ih (holds.2 r s'.1 (serveLogged_eq_ok.mp served).1) s'.2

/-! ### The order an eviction leaves -/

theorem alive_of_mem_order (rep : Rep w) : ∀ id ∈ w.levels.order, alive w id = true := by
  intro id member
  rcases List.mem_append.mp member with cold | hot
  · obtain ⟨entry, found, _⟩ := (rep.cold.mem_values_iff id).mp cold
    rw [alive, found]
    rfl
  · obtain ⟨entry, found, _⟩ := (rep.hot.mem_values_iff id).mp hot
    rw [alive, found]
    rfl

theorem order_filter_alive (rep : Rep w) : w.levels.order.filter (alive w) = w.levels.order :=
  List.filter_eq_self.mpr (alive_of_mem_order rep)

theorem alive_update_some {id : Int} {entry entry' : SessionMeta} (found : w.mSessions id = some entry)
    (same : w'.mSessions = Function.update w.mSessions id (some entry')) : alive w' = alive w := by
  funext id'
  unfold alive
  rw [same, Function.update_apply]
  split
  · rename_i equal
    rw [equal, found]
    rfl
  · rfl

/-- With no session -1, the victim of a swap-out is the first of the hot list. -/
theorem hot_shape {hot : List (Node Int)} {n : Node Int}
    (first : (hot.find? fun n => n.val ≠ -1) = some n) (nobody : (-1 : Int) ∉ values hot) :
    ∃ rest, hot = n :: rest := by
  cases hot with
  | nil => cases first
  | cons front rest =>
    have named : front.val ≠ -1 := by
      intro same
      rw [NodeList.values_cons, same] at nobody
      exact nobody List.mem_cons_self
    have here : ((front :: rest).find? fun n => n.val ≠ -1) = some front :=
      List.find?_cons_of_pos (decide_eq_true named)
    rw [here, Option.some.injEq] at first
    exact ⟨rest, by rw [first]⟩

/-- Where the first of the hot list goes to the end of the cold one, the order does not change. -/
theorem levels_demote {n : Node Int} {rest : List (Node Int)} {addr : Nat}
    (shape : w.mHotLru = n :: rest) (cold : w'.mColdLru = w.mColdLru ++ [⟨addr, n.val⟩])
    (hot : w'.mHotLru = w.mHotLru.erase n) : w'.levels = w.levels.demote := by
  rw [World.levels, World.levels, cold, hot, shape, List.erase_cons_head, NodeList.values_append]
  rfl

/-- **A move of an eviction** removes the sessions it kills from the order. -/
theorem Evict.order (move : Evict L w w') (rep : Rep w) (nobody : (-1 : Int) ∉ values w.mHotLru) :
    w'.levels.order = w.levels.order.filter (alive w') := by
  cases move with
  | saveFailed found hot holds failed => exact (order_filter_alive rep).symm
  | prune found hot holds saved large exceeds =>
    rw [alive_update_some found rfl]
    exact (order_filter_alive rep).symm
  | @swapOut id entry c it found hot holds full first saved accepted =>
    obtain ⟨rest, shape⟩ := hot_shape first nobody
    rw [alive_update_some found rfl, order_filter_alive rep]
    exact (congrArg Levels.order (levels_demote shape rfl rfl)).trans (Levels.order_demote _)
  | @coldEvict excludeId dropped kept split stopped =>
    obtain ⟨cold, sessions⟩ := dropCold_sessions (L := L) rep split
    have distinct := rep.cold.values
    rw [split, NodeList.values_append] at distinct
    have gone : ∀ id ∈ values dropped, alive (dropCold L dropped w) id = false := by
      intro id member
      rw [alive, sessions id, if_pos member]
      rfl
    have stays : ∀ id ∈ values kept ++ values w.mHotLru, alive (dropCold L dropped w) id = true := by
      intro id member
      have before : alive w id = true := by
        refine alive_of_mem_order rep id (List.mem_append.mpr ?_)
        refine (List.mem_append.mp member).imp_left fun cold => ?_
        show id ∈ values w.mColdLru
        rw [split, NodeList.values_append]
        exact List.mem_append_right _ cold
      rw [alive, sessions id, if_neg]
      · exact before
      · intro inDropped
        rcases List.mem_append.mp member with cold | hot
        · exact List.disjoint_of_nodup_append distinct inDropped cold
        · obtain ⟨entry, found, isHot⟩ := (rep.hot.mem_values_iff id).mp hot
          refine rep.not_mem_cold_of_hot found isHot ?_
          rw [split, NodeList.values_append]
          exact List.mem_append_left _ inDropped
    have left : (dropCold L dropped w).levels = w.levels.keep (alive (dropCold L dropped w)) := by
      show Levels.mk (values (dropCold L dropped w).mColdLru) (values (dropCold L dropped w).mHotLru) =
        ⟨(values w.mColdLru).filter _, (values w.mHotLru).filter _⟩
      rw [cold, dropCold_hot, split, NodeList.values_append, List.filter_append,
        List.filter_eq_nil_iff.mpr fun id member => by rw [gone id member]; exact Bool.false_ne_true,
        List.nil_append, List.filter_eq_self.mpr fun id member => stays id (List.mem_append_left _ member),
        List.filter_eq_self.mpr fun id member => stays id (List.mem_append_right _ member)]
    exact (congrArg Levels.order left).trans (Levels.order_keep _ _)

theorem Evict.alive_le (move : Evict L w w') (rep : Rep w) (id : Int) (after : alive w' id = true) :
    alive w id = true := by
  cases dead : w.mSessions id with
  | some entry =>
    rw [alive, dead]
    rfl
  | none =>
    rw [alive, Evict.absent move rep dead] at after
    cases after

/-- **An eviction removes the sessions it kills from the order** and changes nothing else. -/
theorem Evicts.order (evicts : Evicts L w w') (rep : Rep w) (nobody : w.mSessions (-1) = none) :
    w'.levels.order = w.levels.order.filter (alive w') := by
  induction evicts with
  | refl => exact (order_filter_alive rep).symm
  | tail before move ih =>
    have repMid := Evicts.rep before rep
    have gone := (repMid.not_mem_of_absent (Evicts.absent before rep nobody)).1
    rw [Evict.order move repMid gone, ih, List.filter_filter]
    refine List.filter_congr fun id _ => ?_
    rw [Bool.and_eq_left_iff_imp]
    exact fun after => Evict.alive_le move repMid id after

/-! ### The events of an eviction -/

/-- **Evictions go from the front.** Replaying some events from the order `order`: a swap-out takes
the first HOT session and moves only the boundary between the lists, a cold eviction kills a first
part of the whole order, and `rest` is the order at the end. -/
def Evolves : List Int → List Event → List Int → Prop
  | order, [], rest => rest = order
  | order, .swappedOut id _ before after :: events, rest =>
    before.order = order ∧ before.hot.head? = some id ∧ after.order = order ∧
      Evolves order events rest
  | order, .coldEviction _ _ before hot killed _ :: events, rest =>
    before.map Prod.fst ++ hot = order ∧ killed <+: order ∧
      Evolves (order.drop killed.length) events rest
  | order, _ :: events, rest => Evolves order events rest

theorem Evolves.of_plain {order : List Int} {events : List Event} (plain : ∀ e ∈ events, Plain e) :
    Evolves order events order := by
  induction events with
  | nil => rfl
  | cons e events ih =>
    have later := ih fun e' member => plain e' (List.mem_cons_of_mem _ member)
    have here := plain e List.mem_cons_self
    cases e with
    | saved | measured | erased | subtracted => exact later
    | swappedOut | coldEviction | recorded | loopDecode => exact here.elim

theorem Evolves.append {order mid rest : List Int} {first second : List Event}
    (early : Evolves order first mid) (late : Evolves mid second rest) :
    Evolves order (first ++ second) rest := by
  induction first generalizing order with
  | nil =>
    have same : mid = order := early
    rw [← same]
    exact late
  | cons e first ih =>
    cases e with
    | swappedOut => exact ⟨early.1, early.2.1, early.2.2.1, ih early.2.2.2⟩
    | coldEviction => exact ⟨early.1, early.2.1, ih early.2.2⟩
    | _ => exact ih early

/-- From `w` to `w'` the events turn the order `order` into `rest`. -/
def EvolvesTo (order rest : List Int) (w w' : World σ) : Prop :=
  ∃ new, w'.trace = w.trace ++ new ∧ Evolves order new rest

theorem Quiet.evolves (quiet : Quiet w w') (order : List Int) : EvolvesTo order order w w' := by
  obtain ⟨new, grown, plain⟩ := quiet
  exact ⟨new, grown, .of_plain plain⟩

theorem EvolvesTo.trans {order mid rest : List Int} {w'' : World σ}
    (first : EvolvesTo order mid w w') (second : EvolvesTo mid rest w' w'') :
    EvolvesTo order rest w w'' := by
  obtain ⟨early, grown, evolves⟩ := first
  obtain ⟨late, grown', evolves'⟩ := second
  exact ⟨early ++ late, by rw [grown', grown, List.append_assoc], evolves.append evolves'⟩

theorem Evict.evolves (move : Evict L w w') (rep : Rep w) (nobody : (-1 : Int) ∉ values w.mHotLru) :
    EvolvesTo w.levels.order w'.levels.order w w' := by
  cases move with
  | saveFailed found hot holds failed =>
    exact Quiet.evolves (.one rfl (show Plain (.saved _ 0) from trivial)) _
  | prune found hot holds saved large exceeds =>
    refine Quiet.evolves ⟨_, rfl, fun e member => ?_⟩ _
    simp only [saveEvents, List.mem_cons, List.not_mem_nil, or_false] at member
    rcases member with rfl | rfl <;> trivial
  | @swapOut id entry c it found hot holds full first saved accepted =>
    obtain ⟨rest, shape⟩ := hot_shape first nobody
    have distinct := rep.hot.values
    rw [shape, NodeList.values_cons, List.nodup_cons] at distinct
    have order : (values w.mColdLru ++ [id]) ++ (values w.mHotLru).filter (· ≠ id) =
        w.levels.order := by
      show _ = values w.mColdLru ++ values w.mHotLru
      rw [shape, NodeList.values_cons, List.filter_cons_of_neg (by simp),
        filter_absent distinct.1, List.append_assoc, List.singleton_append]
    have after : values (w.mColdLru ++ [⟨w.nextNode, id⟩]) ++ values (w.mHotLru.erase ⟨it, id⟩) =
        w.levels.order := by
      rw [← order, NodeList.values_append, NodeList.values_erase rep.hot.values
        (by rw [shape]; exact List.mem_cons_self)]
      rfl
    refine ⟨_, rfl, ?_⟩
    have quiet : Evolves w.levels.order (saveEvents L c entry w) w.levels.order := by
      refine Evolves.of_plain fun e member => ?_
      simp only [saveEvents, List.mem_cons, List.not_mem_nil, or_false] at member
      rcases member with rfl | rfl <;> trivial
    refine quiet.append ⟨rfl, ?_, order, after⟩
    · show (values w.mHotLru).head? = some id
      rw [shape]
      rfl
  | @coldEvict excludeId dropped kept split stopped =>
    obtain ⟨cold, _⟩ := dropCold_sessions (L := L) rep split
    have ids : w.coldFiles.map Prod.fst = values w.mColdLru := map_fst_fileOf w w.mColdLru
    have order : w.levels.order = values dropped ++ (values kept ++ values w.mHotLru) := by
      show values w.mColdLru ++ values w.mHotLru = _
      rw [split, NodeList.values_append, List.append_assoc]
    refine (Quiet.evolves (dropCold_quiet dropped w) _).trans ⟨_, rfl, ?_, ?_, ?_⟩
    · rw [ids]
      rfl
    · rw [order]
      exact List.prefix_append _ _
    · show values (dropCold L dropped w).mColdLru ++ values (dropCold L dropped w).mHotLru =
        w.levels.order.drop (values dropped).length
      rw [order, List.drop_left, cold, dropCold_hot]

theorem Evicts.evolves (evicts : Evicts L w w') (rep : Rep w) (nobody : w.mSessions (-1) = none) :
    EvolvesTo w.levels.order w'.levels.order w w' := by
  induction evicts with
  | refl => exact Quiet.evolves (.refl rfl) _
  | tail before move ih =>
    have repMid := Evicts.rep before rep
    have gone := (repMid.not_mem_of_absent (Evicts.absent before rep nobody)).1
    exact ih.trans (Evict.evolves move repMid gone)

theorem recordedOf_evolves (id : Int) (entry : SessionMeta) (tokens : List Token) (w : World σ) :
    EvolvesTo w.levels.order w.levels.order w (recordedOf id entry tokens w) :=
  ⟨[.recorded id tokens], rfl, rfl⟩

/-- **Every call** evicts from the front. -/
theorem Served.evolves {op : Op} {r : Reply} (served : Served L w op r w') (rep : Rep w)
    (nobody : w.mSessions (-1) = none) : ∃ rest, EvolvesTo w.levels.order rest w w' := by
  cases served with
  | taken found => exact ⟨_, Quiet.evolves (.refl rfl) _⟩
  | creates absent => exact ⟨_, Quiet.evolves (.refl rfl) _⟩
  | kills shape => exact ⟨_, shape.quiet.evolves _⟩
  | @limitsHot count _ _ eviction =>
    exact ⟨_, Evicts.evolves (w := withLimits (.setHotLimit count) w) eviction.evicts
      (withLimits_rep (.setHotLimit count) rep) nobody⟩
  | @limitsCold bytes _ shape =>
    exact ⟨_, Evict.evolves (w := withLimits (.setColdLimit bytes) w) shape.move
      (withLimits_rep (.setColdLimit bytes) rep) (rep.not_mem_of_absent nobody).1⟩
  | activatesNobody absent => exact ⟨_, Quiet.evolves (.refl rfl) _⟩
  | activatesHot found hot shape => exact ⟨_, shape.quiet.evolves _⟩
  | activatesCold found cold eviction rest =>
    have early := Evicts.evolves eviction.evicts rep nobody
    cases rest with
    | fails shape => exact ⟨_, early.trans (shape.quiet.evolves _)⟩
    | takes shape => exact ⟨_, early.trans (shape.quiet.evolves _)⟩
  | recordsNobody absent => exact ⟨_, Quiet.evolves (.refl rfl) _⟩
  | recordsCold found cold => exact ⟨_, recordedOf_evolves _ _ _ w⟩
  | recordsHot found hot shape =>
    exact ⟨_, (recordedOf_evolves _ _ _ w).trans (shape.quiet.evolves _)⟩

/-! ### The order follows the log -/

/-- The two lists are the recency order of the uses of the living sessions. -/
def Tracked (w : World σ) (log : List Int) : Prop :=
  w.levels.Follows (log.filter (alive w))

/-- Sessions leave: their ids leave the order. -/
theorem Tracked.leave {log : List Int} (tracked : Tracked w log)
    (order : w'.levels.order = w.levels.order.filter (alive w'))
    (fewer : ∀ id, alive w' id = true → alive w id = true) : Tracked w' log := by
  have logs : log.filter (alive w') = (log.filter (alive w)).filter (alive w') := by
    rw [List.filter_filter]
    refine List.filter_congr fun id _ => ?_
    rw [eq_comm, Bool.and_eq_left_iff_imp]
    exact fewer id
  have kept := Levels.Follows.keep tracked (alive w')
  unfold Tracked
  rw [logs]
  exact (order.trans (Levels.order_keep _ _).symm).trans kept

/-- A session is used: its id becomes the last. -/
theorem Tracked.use {log : List Int} (tracked : Tracked w log) {id : Int}
    (levels : w'.levels = w.levels.use id) (same : alive w' = alive w) (living : alive w id = true) :
    Tracked w' (log ++ [id]) := by
  have single : [id].filter (alive w) = [id] := List.filter_cons_of_pos living
  unfold Tracked
  rw [levels, same, List.filter_append, single]
  exact Levels.Follows.use tracked id

/-- A session is created: the uses of an earlier session of its id are forgotten. -/
theorem Tracked.forget {log : List Int} (tracked : Tracked w log) {id : Int}
    (lists : w'.levels = w.levels) (others : ∀ id', id' ≠ id → alive w' id' = alive w id')
    (fresh : alive w id = false) : Tracked w' (log.filter (· ≠ id)) := by
  have logs : (log.filter (· ≠ id)).filter (alive w') = log.filter (alive w) := by
    rw [List.filter_filter]
    refine List.filter_congr fun id' _ => ?_
    by_cases equal : id' = id
    · simp [equal, fresh]
    · simp [equal, others id' equal]
  unfold Tracked
  rw [logs, lists]
  exact tracked

theorem alive_of_some {id : Int} {entry : SessionMeta} (found : w.mSessions id = some entry) :
    alive w id = true := by
  rw [alive, found]
  rfl

theorem Touched.alive {id : Int} {entry : SessionMeta} (shape : Touched L id entry w w')
    (living : alive w id = true) : alive w' = alive w := by
  funext id'
  by_cases same : id' = id
  · obtain ⟨entry', found, _⟩ := shape.entry
    rw [same, living, alive_of_some found]
  · rw [MiniV.alive, MiniV.alive, shape.others id' same]

theorem Touched.levels {id : Int} {entry : SessionMeta} (shape : Touched L id entry w w')
    (absent : id ∉ values w.mColdLru) : w'.levels = w.levels.use id := by
  show Levels.mk (values w'.mColdLru) (values w'.mHotLru) =
    ⟨(values w.mColdLru).filter (· ≠ id), (values w.mHotLru).filter (· ≠ id) ++ [id]⟩
  rw [shape.cold, shape.hot, filter_absent absent]

/-- An eviction leaves the order to the sessions it spares. -/
theorem Tracked.evicts {log : List Int} (tracked : Tracked w log) (evicts : Evicts L w w')
    (rep : Rep w) (nobody : w.mSessions (-1) = none) : Tracked w' log := by
  refine tracked.leave (Evicts.order evicts rep nobody) fun id after => ?_
  cases dead : w.mSessions id with
  | some entry => exact alive_of_some dead
  | none =>
    rw [alive, Evicts.absent evicts rep dead] at after
    cases after

theorem recordedOf_alive {id : Int} {entry : SessionMeta} (found : w.mSessions id = some entry)
    (tokens : List Token) : alive (recordedOf id entry tokens w) = alive w :=
  alive_update_some found rfl

/-- **Every call** keeps the order of the log. -/
theorem Served.tracked {op : Op} {r : Reply} (served : Served L w op r w') (rep : Rep w)
    (nobody : w.mSessions (-1) = none) {log : List Int} (before : Tracked w log) :
    Tracked w' (logAfter op r w log) := by
  have absent : ∀ {id : Int} {entry : SessionMeta}, w.mSessions id = some entry →
      entry.state = .HOT → id ∉ values w.mColdLru := fun found hot =>
    rep.not_mem_cold_of_hot found hot
  cases served with
  | taken found => exact before
  | @creates id fresh =>
    refine before.forget rfl (fun id' other => ?_) (by rw [alive, fresh]; rfl)
    exact congrArg Option.isSome (Function.update_of_ne other _ _)
  | @kills id _ shape =>
    have gone : ∀ id', alive w' id' = (decide (id' ≠ id) && alive w id') := by
      intro id'
      by_cases equal : id' = id
      · simp [alive, shape.sessions, equal]
      · simp [alive, shape.sessions, equal]
    refine before.leave ?_ fun id' after => ?_
    · have living := alive_of_mem_order rep
      have left : w'.levels = w.levels.keep (· ≠ id) := by
        rw [World.levels, shape.cold, shape.hot]
        rfl
      rw [left, Levels.order_keep]
      refine List.filter_congr fun id' member => ?_
      rw [gone id', living id' member, Bool.and_true]
    · rw [gone id', Bool.and_eq_true] at after
      exact after.2
  | @limitsHot count _ _ eviction =>
    exact Tracked.evicts (w := withLimits (.setHotLimit count) w) before eviction.evicts
      (withLimits_rep (.setHotLimit count) rep) nobody
  | @limitsCold bytes _ shape =>
    exact Tracked.evicts (w := withLimits (.setColdLimit bytes) w) before (.single shape.move)
      (withLimits_rep (.setColdLimit bytes) rep) nobody
  | activatesNobody fresh => exact before
  | @activatesHot id entry _ found hot shape =>
    obtain ⟨c, holds⟩ := rep.ctx_of_hot found hot
    have living := alive_of_some found
    rw [holds]
    exact before.use (shape.levels (absent found hot)) (shape.alive living) living
  | @activatesCold id entry w1 _ c sizes found cold eviction rest =>
    have early := before.evicts eviction.evicts rep nobody
    have rep1 := Evicts.rep eviction.evicts rep
    cases rest with
    | fails shape =>
      have same : alive w' = alive w1 := by
        funext id'
        by_cases equal : id' = id
        · rw [equal]
          exact shape.entry
        · rw [alive, alive, shape.others id' equal]
      refine early.leave ?_ fun id' after => by rwa [same] at after
      have lists : w'.levels = w1.levels := by
        rw [World.levels, World.levels, shape.cold, shape.hot]
      rw [lists, same, order_filter_alive rep1]
    | takes shape =>
      obtain ⟨entry', after, _⟩ := shape.entry
      have same : alive w' = alive w1 := by
        funext id'
        by_cases equal : id' = id
        · rw [equal, alive_of_some after]
          exact shape.living.symm
        · rw [alive, alive, shape.others id' equal]
      have absentHot : id ∉ values w1.mHotLru := by
        obtain ⟨entry1, found1⟩ := Option.isSome_iff_exists.mp shape.living
        rcases Evicts.cold_entry eviction.evicts rep found cold with still | dead
        · exact rep1.not_mem_hot_of_cold still cold
        · rw [dead] at found1
          cases found1
      refine early.use ?_ same shape.living
      show Levels.mk (values w'.mColdLru) (values w'.mHotLru) =
        ⟨(values w1.mColdLru).filter (· ≠ id), (values w1.mHotLru).filter (· ≠ id) ++ [id]⟩
      rw [shape.cold, shape.hot, filter_absent absentHot]
  | recordsNobody fresh =>
    rw [logAfter, fresh]
    exact before
  | recordsCold found cold =>
    rw [logAfter, found, Option.map_some, cold]
    unfold Tracked
    rw [recordedOf_alive found]
    exact before
  | @recordsHot id tokens entry _ found hot shape =>
    have recorded : Tracked (recordedOf id entry tokens w) log := by
      unfold Tracked
      rw [recordedOf_alive found]
      exact before
    have living : alive (recordedOf id entry tokens w) id = true := by
      rw [recordedOf_alive found]
      exact alive_of_some found
    rw [logAfter, found, Option.map_some, hot]
    exact recorded.use (shape.levels (absent found hot)) (shape.alive living) living

/-! ### Whole runs -/

/-- **One recency order.** The cold list followed by the hot list holds exactly the living sessions
that have been used, each once, from least to most recently used. -/
structure InRecencyOrder (w : World σ) (log : List Int) : Prop where
  lists : ∀ id, id ∈ w.levels.order ↔ (w.mSessions id).isSome = true ∧ id ∈ log
  once : w.levels.order.Nodup
  sorted : w.levels.order.Pairwise fun a b => lastUse log a < lastUse log b

theorem Tracked.inRecencyOrder {log : List Int} (tracked : Tracked w log) : InRecencyOrder w log where
  lists id := by
    rw [tracked.mem_iff, List.mem_filter, and_comm]
    rfl
  once := tracked.nodup
  sorted := by
    rw [tracked, dedup_filter]
    exact (recency_sorted log).filter _

/-- What a call evicts goes from the front of the order before it. -/
def EvictsOldest (L : Llama σ) (s : World σ × List Int) (op : Op) : Prop :=
  ∀ r s', serveLogged L op s = .ok (r, s') → ∃ rest, EvolvesTo s.1.levels.order rest s.1 s'.1

/-- **The two lists refine one recency order.** In a run with no session -1 in which no activation
kills its own session, `mColdLru ++ mHotLru` is the recency order of the living sessions that have
been used, in every state; every swap-out takes the least recently used HOT session and moves only
the boundary; and every cold eviction kills the least recently used of all. -/
theorem lru_order (L : Llama σ) (nCtx : Nat) (swapDir : Bytes) (llama : σ) (ops : List Op)
    (nobody : ∀ op ∈ ops, op ≠ .createSession (-1))
    (spares : Along (serve L) (fun w op => killsItself L op w = false) ops
      (World.start nCtx swapDir llama)) :
    (∃ s, run (serveLogged L) ops (World.start nCtx swapDir llama, []) = .ok s) ∧
      Throughout (serveLogged L) (fun s => InRecencyOrder s.1 s.2) ops
        (World.start nCtx swapDir llama, []) ∧
      Along (serveLogged L) (EvictsOldest L) ops (World.start nCtx swapDir llama, []) := by
  let I : World σ × List Int → Prop := fun s =>
    Rep s.1 ∧ s.1.mSessions (-1) = none ∧ Tracked s.1 s.2
  let G : World σ × List Int → Op → Prop := fun s op =>
    op ≠ .createSession (-1) ∧ killsItself L op s.1 = false
  have start : I (World.start nCtx swapDir llama, []) := ⟨Rep.start nCtx swapDir llama, rfl, rfl⟩
  have guarded : Along (serveLogged L) G ops (World.start nCtx swapDir llama, []) :=
    (along_of_forall nobody (World.start nCtx swapDir llama, [])).and (along_logged spares [])
  have kept : ∀ s op r s', I s → G s op → serveLogged L op s = .ok (r, s') → I s' := by
    intro s op r s' inv guard served
    obtain ⟨result, logged⟩ := serveLogged_eq_ok.mp served
    have shape := serve_served inv.1 result
    refine ⟨serve_rep inv.1 result, shape.absent inv.1 inv.2.1 guard.1, ?_⟩
    rw [logged]
    exact shape.tracked inv.1 inv.2.1 inv.2.2
  refine ⟨?_, ?_, ?_⟩
  · obtain ⟨s, reach, _⟩ := run_progress (I := I) (G := G) (fun s op inv guard => by
      obtain ⟨r, w', result⟩ := serve_ok (L := L) inv.1 guard.2
      have served : serveLogged L op s = .ok (r, w', logAfter op r s.1 s.2) :=
        serveLogged_eq_ok.mpr ⟨result, rfl⟩
      exact ⟨r, _, served, kept s op r _ inv guard served⟩) start guarded
    exact ⟨s, reach⟩
  · exact (throughout_of_invariant kept start guarded).mono fun s inv => inv.2.2.inRecencyOrder
  · refine along_of_invariant kept (fun s op inv guard r s' served => ?_) start guarded
    exact (serve_served inv.1 (serveLogged_eq_ok.mp served).1).evolves inv.1 inv.2.1

/-- Sessions are used, swapped out and in, killed and created anew. -/
def shuffle : List Op :=
  [.createSession 1, .createSession 2, .createSession 3, .setHotLimit 2, .activateForInfer 1,
    .activateForInfer 2, .recordTokens 1 [9], .activateForInfer 3, .activateForInfer 2,
    .killSession 3, .createSession 3, .recordTokens 3 [8], .activateForInfer 1, .setColdLimit 0]

theorem lru_order_shuffle :
    (∃ s, run (serveLogged (sim 4 10)) shuffle (World.start 4 (text "/s") (Sim.start []), []) =
        .ok s) ∧
      Throughout (serveLogged (sim 4 10)) (fun s => InRecencyOrder s.1 s.2) shuffle
        (World.start 4 (text "/s") (Sim.start []), []) ∧
      Along (serveLogged (sim 4 10)) (EvictsOldest (sim 4 10)) shuffle
        (World.start 4 (text "/s") (Sim.start []), []) :=
  lru_order (sim 4 10) 4 (text "/s") (Sim.start []) shuffle (by decide) (by decide +kernel)

end MiniV
