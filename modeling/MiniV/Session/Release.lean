/-
**Which calls take a session's context from it.**

A HOT session loses its context when it is killed, or swapped out to make room. An eviction goes for
the HOT sessions in the order they were used, skips or stops at -1, and swaps out no more than it
takes to make room for one session: `evictable` lists these before the call.

* `Served.keepsContext`: every other session that holds a context holds the same one after the call;
* `Served.newContexts`: no session gets a context that was there before the call.
-/

import MiniV.Session.Representation

namespace MiniV

open MiniV.Library
open MiniV.Library.NodeList (values)

variable {σ : Type} {L : Llama σ} {w w' : World σ} {id : Int} {c : Ctx}

/-! ### Who may lose a context -/

/-- The sessions that `evictHotIfNeeded` goes for, in turn: it takes -1 for nobody, and stops there
unless -1 is excluded. -/
def candidates (excludeId : Int) (w : World σ) : List Int :=
  if excludeId = -1 then (values w.mHotLru).filter (· ≠ -1)
  else (values w.mHotLru).takeWhile (· ≠ -1)

/-- Those of them that have to go before there is room for one session. -/
def evictable (excludeId : Int) (w : World σ) : List Int :=
  (candidates excludeId w).take (w.mHotLru.length + 1 - w.mHotLimit)

/-- The sessions a call kills or goes for. -/
def released (op : Op) (w : World σ) : List Int :=
  match op with
  | .killSession id => [id]
  | .setHotLimit count => evictable (-1) (withLimits (.setHotLimit count) w)
  | .activateForInfer id =>
    match (w.mSessions id).map SessionMeta.state with
    | some .COLD => evictable id w
    | some .HOT | none => []
  | .createSession _ | .setColdLimit _ | .recordTokens _ _ => []

/-- A session holds a context. -/
def HoldsContext (w : World σ) (id : Int) (c : Ctx) : Prop := Owned.ctxAt w.mSessions id = some c

instance (w : World σ) (id : Int) (c : Ctx) : Decidable (HoldsContext w id c) :=
  inferInstanceAs (Decidable (_ = _))

theorem holdsContext_iff :
    HoldsContext w id c ↔ ∃ entry, w.mSessions id = some entry ∧ entry.ctx = some c :=
  Owned.ctxAt_eq_some

theorem HoldsContext.congr (holds : HoldsContext w id c) (same : w'.mSessions id = w.mSessions id) :
    HoldsContext w' id c := by
  rw [holdsContext_iff] at holds ⊢
  rw [same]
  exact holds

/-- A context that a session holds is not freed. -/
theorem HoldsContext.alive (holds : HoldsContext w id c) (rep : Rep w) : c ∉ w.freed := by
  obtain ⟨entry, found, own⟩ := holdsContext_iff.mp holds
  exact rep.owned.not_freed found own

theorem HoldsContext.hot (holds : HoldsContext w id c) (rep : Rep w) : id ∈ values w.mHotLru := by
  obtain ⟨entry, found, own⟩ := holdsContext_iff.mp holds
  refine (rep.hot.mem_values_iff id).mpr ⟨entry, found, (rep.ctxHot id entry found).mp ?_⟩
  rw [own]
  rfl

/-- An entry changes but for its context. -/
theorem HoldsContext.update {id' : Int} {entry entry' : SessionMeta} (holds : HoldsContext w id c)
    (found : w.mSessions id' = some entry)
    (sessions : w'.mSessions = Function.update w.mSessions id' (some entry'))
    (same : entry'.ctx = entry.ctx) : HoldsContext w' id c := by
  unfold HoldsContext at *
  rw [sessions, Owned.ctxAt_update]
  split
  · rename_i equal
    rw [equal, Owned.ctxAt, found] at holds
    exact same.trans holds
  · exact holds

/-! ### Evictions -/

/-- The HOT sessions after an eviction were HOT before it. -/
theorem Evict.hot_subset (move : Evict L w w') : values w'.mHotLru ⊆ values w.mHotLru := by
  cases move with
  | saveFailed | prune => exact List.Subset.refl _
  | swapOut => exact values_erase_subset _ _
  | @coldEvict excludeId dropped kept split stopped =>
    have same : (dropCold L dropped w).mHotLru = w.mHotLru := dropCold_hot dropped w
    exact fun id member => same ▸ member

/-- A move of an eviction leaves a session its context, or takes the session out of the hot list. -/
theorem Evict.keepsContext (move : Evict L w w') (rep : Rep w) (holds : HoldsContext w id c) :
    HoldsContext w' id c ∨ id ∉ values w'.mHotLru := by
  cases move with
  | saveFailed => exact Or.inl holds
  | prune found => exact Or.inl (holds.update found rfl rfl)
  | @swapOut id' entry c' it found hot own full first =>
    obtain ⟨inside, _⟩ := Move.inside_of_first first
    by_cases same : id = id'
    · refine Or.inr fun member => ?_
      have left := (NodeList.values_erase rep.hot.values inside) ▸ member
      exact of_decide_eq_true (List.mem_filter.mp left).2 same
    · exact Or.inl (holds.congr (Function.update_of_ne same _ _))
  | coldEvict excludeId split stopped =>
    refine Or.inl (holds.congr (((dropCold_sessions (L := L) rep split).2 id).trans (if_neg ?_)))
    intro member
    obtain ⟨entry, found, own⟩ := holdsContext_iff.mp holds
    have hot : entry.state = .HOT := (rep.ctxHot id entry found).mp (by rw [own]; rfl)
    refine rep.not_mem_cold_of_hot found hot ?_
    rw [split, NodeList.values_append]
    exact List.mem_append_left _ member

theorem Evicts.keepsContext (evicts : Evicts L w w') (rep : Rep w) (holds : HoldsContext w id c) :
    HoldsContext w' id c ∨ id ∉ values w'.mHotLru := by
  induction evicts with
  | refl => exact Or.inl holds
  | tail before move ih =>
    rcases ih with still | out
    · exact Evict.keepsContext move (Evicts.rep before rep) still
    · exact Or.inr fun member => out (Evict.hot_subset move member)

/-- The victim is the first candidate, and the others stay candidates when it has gone. -/
theorem candidates_of_first {excludeId : Int} {n : Node Int} (rep : Rep w)
    (away : Away excludeId w) (goes : ¬ HotStop excludeId w)
    (first : (w.mHotLru.find? fun n => n.val ≠ -1) = some n)
    (left : w'.mHotLru = w.mHotLru.erase n) :
    candidates excludeId w = n.val :: candidates excludeId w' := by
  unfold candidates
  rw [left]
  by_cases nobody : excludeId = -1
  · rw [if_pos nobody, if_pos nobody]
    have front := Move.first_value first
    rw [← List.head?_filter] at front
    obtain ⟨rest, shape⟩ := List.head?_eq_some_iff.mp front
    have distinct : (n.val :: rest).Nodup := shape ▸ rep.hot.values.filter _
    have later : (values (w.mHotLru.erase n)).filter (· ≠ -1) = rest := by
      rw [NodeList.values_erase rep.hot.values (Move.inside_of_first first).1, List.filter_comm,
        shape, List.filter_cons_of_neg (by simp)]
      exact filter_absent (List.nodup_cons.mp distinct).1
    rw [shape, later]
  · rw [if_neg nobody, if_neg nobody]
    obtain ⟨_, named⟩ := not_or.mp goes
    cases shape : w.mHotLru with
    | nil =>
      rw [shape] at first
      cases first
    | cons m rest =>
      -- the loop goes on, so the front of the list is neither excluded nor -1
      have other : m.val ≠ excludeId := fun same => by
        refine away.resolve_left nobody ?_
        rw [shape, ← same]
        exact List.mem_cons_self
      have front : ∀ {P : Node Int → Prop} [DecidablePred P], P m →
          (m :: rest).find? (fun n => P n) = some m :=
        fun holds => List.find?_cons_of_pos (decide_eq_true holds)
      have real : m.val ≠ -1 := by
        unfold hotVictim at named
        rwa [shape, front (P := fun n => n.val ≠ excludeId) other] at named
      rw [shape, front (P := fun n => n.val ≠ -1) real, Option.some.injEq] at first
      subst first
      rw [List.erase_cons_head, NodeList.values_cons]
      exact List.takeWhile_cons_of_pos (decide_eq_true real)

/-- **An eviction leaves the sessions it need not go for their contexts.** -/
theorem HotEviction.keepsContext {excludeId : Int} {sizes : List (Int × UInt64)}
    (eviction : HotEviction L excludeId w w' sizes) (rep : Rep w) (away : Away excludeId w)
    (holds : HoldsContext w id c) (spared : id ∉ evictable excludeId w) : HoldsContext w' id c := by
  induction eviction with
  | stop => exact holds
  | fail goes first swap =>
    refine (Evicts.keepsContext swap.evicts rep holds).resolve_right fun out => out ?_
    rw [swap.hot]
    exact holds.hot rep
  | @swap w w1 w2 n bytes sizes goes first swap later ih =>
    obtain ⟨it, left, inside⟩ := swap.hot
    have node : (⟨it, n.val⟩ : Node Int) = n :=
      List.inj_on_of_nodup_map rep.hot.values inside (Move.inside_of_first first).1 rfl
    rw [node] at left inside
    have full : w.mHotLimit ≤ w.mHotLru.length := by
      by_contra room
      exact goes (Or.inl fun full => room full.1)
    have shorter := swap.shorter
    have limit := (Evicts.limits swap.evicts).1
    have victims : evictable excludeId w = n.val :: evictable excludeId w1 := by
      have count : w.mHotLru.length + 1 - w.mHotLimit =
          (w1.mHotLru.length + 1 - w1.mHotLimit) + 1 := by omega
      rw [evictable, candidates_of_first rep away goes first left, count, List.take_succ_cons]
      rfl
    rw [victims, List.mem_cons, not_or] at spared
    have rep1 := Evicts.rep swap.evicts rep
    refine ih rep1 (swap.away away) ((Evicts.keepsContext swap.evicts rep holds).resolve_right fun out => ?_)
      spared.2
    rw [left, NodeList.values_erase rep.hot.values inside] at out
    exact out (List.mem_filter.mpr ⟨holds.hot rep, decide_eq_true spared.1⟩)

/-! ### Calls -/

/-- A HOT session is not the one that takes a context. -/
theorem HoldsContext.not_cold {id' : Int} {entry : SessionMeta} (holds : HoldsContext w id c)
    (rep : Rep w) (found : w.mSessions id' = some entry) (cold : entry.state = .COLD) : id ≠ id' := by
  rintro rfl
  exact rep.not_mem_hot_of_cold found cold (holds.hot rep)

theorem Touched.keepsContext {id' : Int} {entry : SessionMeta} (shape : Touched L id' entry w w')
    (found : w.mSessions id' = some entry) (holds : HoldsContext w id c) : HoldsContext w' id c := by
  by_cases same : id = id'
  · subst same
    obtain ⟨entry', found', _, ctx, _⟩ := shape.entry
    obtain ⟨entry0, found0, own⟩ := holdsContext_iff.mp holds
    rw [found, Option.some.injEq] at found0
    exact holdsContext_iff.mpr ⟨entry', found', by rw [ctx, found0, own]⟩
  · exact holds.congr (shape.others id same)

/-- **A call leaves every session its context**, but those it kills or goes for. -/
theorem Served.keepsContext {op : Op} {r : Reply} (served : Served L w op r w') (rep : Rep w)
    (holds : HoldsContext w id c) (spared : id ∉ released op w) : HoldsContext w' id c := by
  cases served with
  | taken | activatesNobody | recordsNobody => exact holds
  | @creates id' absent =>
    refine holds.congr (Function.update_of_ne ?_ _ _)
    rintro rfl
    exact (rep.not_mem_of_absent absent).1 (holds.hot rep)
  | @kills id' _ shape =>
    have other : id ≠ id' := fun same => spared (List.mem_singleton.mpr same)
    exact holds.congr (by rw [shape.sessions, Function.update_of_ne other])
  | @limitsHot count _ sizes eviction =>
    exact eviction.keepsContext (withLimits_rep (.setHotLimit count) rep) nobody_away holds spared
  | @limitsCold bytes _ shape =>
    refine (Evict.keepsContext shape.move (withLimits_rep (.setColdLimit bytes) rep) holds).resolve_right
      fun out => out ?_
    rw [shape.hot]
    exact holds.hot rep
  | activatesHot found hot shape => exact shape.keepsContext found holds
  | @activatesCold id' entry _ _ _ _ found cold eviction rest =>
    have other := holds.not_cold rep found cold
    have goes : released (.activateForInfer id') w = evictable id' w := by
      rw [released, found, Option.map_some, cold]
    rw [goes] at spared
    have away : Away id' w := Or.inr (rep.not_mem_hot_of_cold found cold)
    have kept := eviction.keepsContext rep away holds spared
    cases rest with
    | fails shape => exact kept.congr (shape.others id other)
    | takes shape => exact kept.congr (shape.others id other)
  | recordsCold found cold => exact holds.update found rfl rfl
  | @recordsHot id' tokens entry _ found hot shape =>
    have longer : HoldsContext (recordedOf id' entry tokens w) id c := holds.update found rfl rfl
    exact shape.keepsContext (Function.update_self ..) longer

/-- A session that an activation gives a context holds it. -/
theorem Served.activated (served : Served L w (.activateForInfer id) (.ctx (some c)) w') :
    HoldsContext w' id c := by
  generalize reply : Reply.ctx (some c) = r at served
  cases served with
  | activatesNobody => cases reply
  | activatesHot found hot shape =>
    obtain ⟨entry', found', _, ctx, _⟩ := shape.entry
    exact holdsContext_iff.mpr ⟨entry', found', ctx.trans (Reply.ctx.inj reply).symm⟩
  | activatesCold found cold eviction rest =>
    cases rest with
    | fails => cases reply
    | takes shape =>
      obtain ⟨entry', found', _, ctx⟩ := shape.entry
      exact holdsContext_iff.mpr ⟨entry', found', ctx.trans (Reply.ctx.inj reply).symm⟩

/-! ### Where contexts come from -/

/-- From `w` to `w'` a session gets no context that was there before. -/
structure NewContexts (w w' : World σ) : Prop where
  created : w.created ≤ w'.created
  origin : ∀ id c, HoldsContext w' id c → HoldsContext w id c ∨ w.created ≤ c

namespace NewContexts

theorem refl (w : World σ) : NewContexts w w := ⟨le_rfl, fun _ _ => Or.inl⟩

theorem trans {w'' : World σ} (first : NewContexts w w') (second : NewContexts w' w'') :
    NewContexts w w'' where
  created := first.created.trans second.created
  origin id c holds := by
    rcases second.origin id c holds with before | new
    · exact first.origin id c before
    · exact Or.inr (first.created.trans new)

/-- One session changes: what it holds afterwards is what it held, or new. -/
theorem update {id : Int} {after : Option SessionMeta} (created : w.created ≤ w'.created)
    (sessions : w'.mSessions = Function.update w.mSessions id after)
    (own : ∀ c, after.bind SessionMeta.ctx = some c → HoldsContext w id c ∨ w.created ≤ c) :
    NewContexts w w' where
  created := created
  origin id' c holds := by
    unfold HoldsContext at holds
    rw [sessions, Owned.ctxAt_update] at holds
    split at holds
    · rename_i same
      exact same ▸ own c holds
    · exact Or.inl holds

/-- One entry changes but for its context. -/
theorem same {id : Int} {entry entry' : SessionMeta} (found : w.mSessions id = some entry)
    (created : w.created ≤ w'.created)
    (sessions : w'.mSessions = Function.update w.mSessions id (some entry'))
    (ctx : entry'.ctx = entry.ctx) : NewContexts w w' :=
  update created sessions fun _ holds => Or.inl (holdsContext_iff.mpr ⟨entry, found, ctx ▸ holds⟩)

/-- A session loses its context, or is gone. -/
theorem less {id : Int} {after : Option SessionMeta} (created : w.created ≤ w'.created)
    (sessions : w'.mSessions = Function.update w.mSessions id after)
    (nothing : after.bind SessionMeta.ctx = none) : NewContexts w w' := by
  refine update created sessions fun c holds => ?_
  rw [nothing] at holds
  cases holds

end NewContexts

theorem Evict.newContexts (move : Evict L w w') (rep : Rep w) : NewContexts w w' := by
  cases move with
  | saveFailed => exact ⟨le_rfl, fun _ _ => Or.inl⟩
  | prune found => exact .same found le_rfl rfl rfl
  | swapOut => exact .less le_rfl rfl rfl
  | @coldEvict excludeId dropped kept split stopped =>
    refine ⟨le_of_eq ?_, fun id c holds => Or.inl ?_⟩
    · exact (dropCold_const (fun w => w.created) (fun _ _ _ => rfl) dropped w).symm
    · obtain ⟨entry, found, own⟩ := holdsContext_iff.mp holds
      have sessions := (dropCold_sessions (L := L) rep split).2 id
      have found' : (dropCold L dropped w).mSessions id = some entry := found
      rw [sessions] at found'
      split at found'
      · cases found'
      · exact holdsContext_iff.mpr ⟨entry, found', own⟩

theorem Move.newContexts (move : Move L w w') (rep : Rep w) : NewContexts w w' := by
  cases move with
  | evict move => exact Evict.newContexts move rep
  | create id absent =>
    rw [createSession, absent]
    exact .less le_rfl rfl rfl
  | killHot | killCold | killNew => exact .less le_rfl rfl rfl
  | record tokens found => exact .same found le_rfl rfl rfl
  | touch found => exact .same found le_rfl rfl rfl
  | initFailed => exact ⟨le_rfl, fun _ _ => Or.inl⟩
  | loadFailed found => exact .same found (Nat.le_succ _) rfl rfl
  | swapIn | firstIn =>
    refine .update (Nat.le_succ _) rfl fun c holds => Or.inr ?_
    cases holds
    exact le_rfl

theorem Moves.newContexts (moves : Moves L w w') (rep : Rep w) : NewContexts w w' := by
  induction moves with
  | refl => exact .refl w
  | tail before move ih => exact ih.trans (move.newContexts (Moves.rep before rep))

/-- **A call gives a session no context that was there before**: contexts do not change hands. -/
theorem Served.newContexts {op : Op} {r : Reply} (served : Served L w op r w') (rep : Rep w) :
    NewContexts w w' := by
  have moves : NewContexts (withLimits op w) w' :=
    Moves.newContexts served.moves (withLimits_rep op rep)
  cases op with
  | _ => exact ⟨moves.created, moves.origin⟩

end MiniV
