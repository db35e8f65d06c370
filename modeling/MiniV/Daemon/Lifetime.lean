/-
**The life of the engine, from `main` that loads it to the destructors.**

`main` has `LLMEngine::load` set up the model, the session manager and the sampler, and serves only if
that works. When the process ends, the destructor of `LLMEngine` frees the sampler, the model and the
backend; the members go after the body of a destructor, so the manager, and with it the contexts of the
HOT sessions, go last, after the model they were created from.

* `load_eq`: what a load leaves the daemon with;
* `contexts_accounted`: at any time, the contexts freed and those of the HOT sessions are all there are;
* `shutdown_frees`: the destructors free each of the others once, whatever the order of the map, and
  so also those that inferences still go on with.
-/

import Mathlib.Data.Set.Finite.Lattice
import MiniV.Daemon.Crash
import MiniV.Daemon.Settled

namespace MiniV

open MiniV.Library
open MiniV.Library.NodeList (values)

/-! ### The engine and its two ends -/

/-- The calls of `LLMEngine` that concern the backend, the model and the sampler. -/
structure Backend (σ : Type) where
  /-- `llama_backend_init`. -/
  backendInit : σ → σ
  /-- `llama_model_load_from_file`: whether there is a model. -/
  modelLoadFromFile : Bytes → σ → Bool × σ
  /-- `llama_sampler_chain_init`, and the samplers added to the chain. -/
  samplerChainInit : σ → σ
  /-- `llama_sampler_free`. -/
  samplerFree : σ → σ
  /-- `llama_model_free`. -/
  modelFree : σ → σ
  /-- `llama_backend_free`. -/
  backendFree : σ → σ

/-- `LLMEngine`: which of its pointers are set, and the manager behind `mSessionManager` with what it
acts on. -/
structure LLMEngine (σ : Type) where
  mModel : Bool := false
  mModelPath : Bytes := []
  mSessionManager : Bool := false
  mSampler : Bool := false
  world : World σ

/-- The engine as constructed. -/
def LLMEngine.start {σ : Type} (llama : σ) : LLMEngine σ where
  world := World.start 0 [] llama

/-- `isReady`. -/
def LLMEngine.isReady {σ : Type} (e : LLMEngine σ) : Bool := e.mModel

/-- `getModelInfo`. -/
def LLMEngine.getModelInfo {σ : Type} (e : LLMEngine σ) : Bytes :=
  if e.mModel then e.mModelPath else text "not loaded"

/-- What a destructor frees. -/
inductive Release
  | sampler
  | model
  | backend
  | context (ctx : Ctx)
deriving DecidableEq, Repr

section Functions

variable {σ : Type} (B : Backend σ) (L : Llama σ)

/-- `LLMEngine::load` on an engine as constructed; of the two parameters of a context, `n_threads`
concerns llama alone. -/
def LLMEngine.load (modelPath : Bytes) (nCtx : Nat) (e : LLMEngine σ) :
    Except Fault (Bool × LLMEngine σ) :=
  let model := B.modelLoadFromFile modelPath (B.backendInit e.world.llama)
  if model.1 = false then .ok (false, { e with world := { e.world with llama := model.2 } })
  else do
    let w := World.start nCtx (text "/data/vendor/miniv_ai/sessions") model.2
    let w ← setHotLimit L kDefaultHotLimit w
    let w ← setColdLimit L kDefaultColdLimitBytes w
    .ok (true,
      { mModel := true
        mModelPath := modelPath
        mSessionManager := true
        mSampler := true
        world := { w with llama := B.samplerChainInit w.llama } })

/-- `main`, up to the two front ends: whether it goes on to serve, and the engine. -/
def boot (skipCpuEngineForTest : Bool) (llama : σ) : Except Fault (Bool × LLMEngine σ) :=
  if skipCpuEngineForTest then .ok (true, .start llama)
  else (LLMEngine.start llama).load B L (text "/data/local/tmp/model.gguf") 2048

/-- The daemon that serves with an engine. -/
def LLMEngine.serving (e : LLMEngine σ) : Daemon σ where
  ready := e.isReady
  world := e.world
  threads := fun _ => none
  reqCounter := 0
  cancelFlag := fun _ => false
  gCancelFlags := fun _ => none

/-- One session in the loop of `~SessionManager`. -/
def releaseSession (w : World σ) (id : Int) : World σ :=
  match w.mSessions id with
  | none => w
  | some entry => if entry.state = .HOT then w.freeCtx L entry.ctx else w

/-- `~SessionManager`; the map is gone through in some order. -/
def destroyManager (order : List Int) (w : World σ) : World σ := order.foldl (releaseSession L) w

/-- `~LLMEngine`, body and members: what it frees, and the world after it. -/
def LLMEngine.destroy (order : List Int) (e : LLMEngine σ) : List Release × World σ :=
  let w := if e.mSampler then { e.world with llama := B.samplerFree e.world.llama } else e.world
  let w := if e.mModel then { w with llama := B.modelFree w.llama } else w
  let w := { w with llama := B.backendFree w.llama }
  let w' := if e.mSessionManager then destroyManager L order w else w
  ((if e.mSampler then [.sampler] else []) ++ (if e.mModel then [.model] else []) ++ [.backend] ++
    (w'.freed.drop w.freed.length).map .context, w')

/-- The end of the process, in a state of the daemon. -/
def shutdown (order : List Int) (e : LLMEngine σ) (d : Daemon σ) : List Release × World σ :=
  { e with world := d.world }.destroy B L order

end Functions

/-- A list of the sessions in the map. -/
structure Enumerates {σ : Type} (order : List Int) (w : World σ) : Prop where
  nodup : order.Nodup
  mem_iff : ∀ id, id ∈ order ↔ (w.mSessions id).isSome = true

variable {σ : Type} {B : Backend σ} {L : Llama σ} {w w' : World σ} {d d' : Daemon σ}
  {e : LLMEngine σ} {actions : List Action} {modelPath swapDir : Bytes} {nCtx : Nat} {llama : σ}

/-! ### Starting -/

/-- The manager that a load leaves: as constructed, once the limits it has anyway are set. -/
def loadedWorld (nCtx : Nat) (llama : σ) : World σ :=
  (World.start nCtx (text "/data/vendor/miniv_ai/sessions") llama).note
    (.coldEviction (-1) kDefaultColdLimitBytes [] [] [] [])

/-- **A load** leaves no model, or all there is to serve with. -/
theorem load_eq (B : Backend σ) (L : Llama σ) (modelPath : Bytes) (nCtx : Nat) (llama : σ) :
    (LLMEngine.start llama).load B L modelPath nCtx =
      let model := B.modelLoadFromFile modelPath (B.backendInit llama)
      if model.1 then .ok (true,
        { mModel := true, mModelPath := modelPath, mSessionManager := true, mSampler := true,
          world := loadedWorld nCtx (B.samplerChainInit model.2) })
      else .ok (false, LLMEngine.start model.2) := by
  unfold LLMEngine.load
  cases loaded : (B.modelLoadFromFile modelPath (B.backendInit llama)).1 with
  | false =>
    simp only [LLMEngine.start, World.start, loaded, if_true, Bool.false_eq_true, if_false]
  | true =>
    simp only [LLMEngine.start, World.start, loaded, Bool.true_eq_false, if_false, if_true]
    rfl

/-- **`main` serves** without an engine when it is told to, and else with the manager of a load. -/
theorem boot_serves {skip : Bool} (serves : boot B L skip llama = .ok (true, e)) :
    skip = true ∧ e.serving = Daemon.start false 0 [] llama ∨
      ∃ llama', e.serving =
        { Daemon.start true 2048 (text "/data/vendor/miniv_ai/sessions") llama' with
          world := loadedWorld 2048 llama' } := by
  unfold boot at serves
  split at serves
  · rename_i skipped
    cases serves
    exact Or.inl ⟨skipped, rfl⟩
  · rw [load_eq] at serves
    dsimp only at serves
    split at serves
    · cases serves
      exact Or.inr ⟨_, rfl⟩
    · cases serves

/-! ### Every context -/

/-- The contexts that the sessions of a list hold. -/
def contextsOf (w : World σ) (order : List Int) : List Ctx :=
  order.filterMap (Owned.ctxAt w.mSessions)

/-- A session holds a context just when it is HOT. -/
theorem holds_iff_hot (rep : Rep w) {id : Int} :
    (Owned.ctxAt w.mSessions id).isSome = true ↔ id ∈ values w.mHotLru := by
  rw [rep.hot.mem_values_iff]
  constructor
  · intro some
    obtain ⟨c, holds⟩ := Option.isSome_iff_exists.mp some
    obtain ⟨entry, found, own⟩ := Owned.ctxAt_eq_some.mp holds
    exact ⟨entry, found, (rep.ctxHot id entry found).mp (by simp [own])⟩
  · rintro ⟨entry, found, hot⟩
    rw [rep.ctxAt_of found]
    exact (rep.ctxHot id entry found).mpr hot

/-- **The contexts freed and those of a list of all HOT sessions** are the contexts created. -/
theorem freed_append_contexts (rep : Rep w) {order : List Int} (nodup : order.Nodup)
    (all : ∀ id ∈ values w.mHotLru, id ∈ order) :
    (w.freed ++ contextsOf w order).Perm (List.range w.created) := by
  have mem : ∀ c, c ∈ contextsOf w order ↔
      ∃ id entry, w.mSessions id = some entry ∧ entry.ctx = some c := by
    intro c
    rw [contextsOf, List.mem_filterMap]
    constructor
    · rintro ⟨id, _, holds⟩
      obtain ⟨entry, found, own⟩ := Owned.ctxAt_eq_some.mp holds
      exact ⟨id, entry, found, own⟩
    · rintro ⟨id, entry, found, own⟩
      have holds := Owned.ctxAt_eq_some.mpr ⟨entry, found, own⟩
      exact ⟨id, all id ((holds_iff_hot rep).mp (by simp [holds])), holds⟩
  have held : (contextsOf w order).Nodup := by
    refine List.Nodup.filterMap (fun a a' c here here' => ?_) nodup
    obtain ⟨entry, found, own⟩ := Owned.ctxAt_eq_some.mp here
    obtain ⟨entry', found', own'⟩ := Owned.ctxAt_eq_some.mp here'
    exact rep.owned.unique a a' entry entry' c found found' own own'
  have once : w.freed.Nodup := by
    refine List.nodup_iff_count_le_one.mpr fun c => ?_
    by_cases member : c ∈ w.freed
    · rcases rep.owned.once c (rep.owned.freedBorn c member) with ⟨_, alive⟩ | ⟨_, count⟩
      · exact absurd member alive
      · exact count.le
    · simp [List.count_eq_zero.mpr member]
  have apart : List.Disjoint w.freed (contextsOf w order) := by
    intro c freed member
    obtain ⟨id, entry, found, own⟩ := (mem c).mp member
    exact rep.owned.not_freed found own freed
  refine (List.perm_ext_iff_of_nodup (once.append held apart) List.nodup_range).mpr fun c => ?_
  rw [List.mem_append, mem, List.mem_range]
  constructor
  · rintro (freed | ⟨id, entry, found, own⟩)
    · exact rep.owned.freedBorn c freed
    · exact rep.owned.born id entry c found own
  · intro born
    rcases rep.owned.once c born with ⟨holder, _⟩ | ⟨_, count⟩
    · exact Or.inr holder
    · exact Or.inl (List.count_pos_iff.mp (by omega))

/-- Each HOT session holds one. -/
theorem length_contexts (rep : Rep w) {order : List Int} (nodup : order.Nodup)
    (all : ∀ id ∈ values w.mHotLru, id ∈ order) :
    (contextsOf w order).length = w.mHotLru.length := by
  have hot : (contextsOf w (values w.mHotLru)).length = w.mHotLru.length := by
    have some : ∀ id ∈ values w.mHotLru, (Owned.ctxAt w.mSessions id).isSome :=
      fun id member => (holds_iff_hot rep).mpr member
    rw [contextsOf, List.length_filterMap_eq_countP, List.countP_eq_length.mpr some,
      NodeList.length_values]
  have same := (freed_append_contexts rep nodup all).trans
    (freed_append_contexts rep rep.hot.values fun _ member => member).symm
  rw [← hot]
  exact ((List.perm_append_left_iff _).mp same).length_eq

/-! ### The destructors -/

@[simp] theorem releaseSession_sessions (w : World σ) (id : Int) :
    (releaseSession L w id).mSessions = w.mSessions := by
  unfold releaseSession World.freeCtx
  split
  · rfl
  · split
    · split <;> rfl
    · rfl

/-- A session is released of the context it holds, if it holds one. -/
theorem releaseSession_freed (hot : ∀ id entry, w.mSessions id = some entry →
    (entry.ctx.isSome = true ↔ IsHot entry)) (id : Int) :
    (releaseSession L w id).freed = w.freed ++ (Owned.ctxAt w.mSessions id).toList := by
  unfold releaseSession
  cases found : w.mSessions id with
  | none => simp [Owned.ctxAt, found]
  | some entry =>
    have own : Owned.ctxAt w.mSessions id = entry.ctx := by simp [Owned.ctxAt, found]
    rw [own]
    dsimp only
    cases ctx : entry.ctx with
    | none =>
      rw [show World.freeCtx L none w = w from rfl, ite_self, Option.toList_none, List.append_nil]
    | some c =>
      have warm : entry.state = .HOT := (hot id entry found).mp (by simp [ctx])
      rw [if_pos warm]
      rfl

/-- **`~SessionManager`** frees the contexts of the sessions it goes through. -/
theorem destroyManager_freed (order : List Int)
    (hot : ∀ id entry, w.mSessions id = some entry → (entry.ctx.isSome = true ↔ IsHot entry)) :
    (destroyManager L order w).freed = w.freed ++ contextsOf w order := by
  unfold destroyManager
  induction order generalizing w with
  | nil => simp [contextsOf]
  | cons id order ih =>
    have rest : contextsOf (releaseSession L w id) order = contextsOf w order := by
      rw [contextsOf, contextsOf, releaseSession_sessions]
    rw [List.foldl_cons, ih (by rwa [releaseSession_sessions]), releaseSession_freed hot, rest,
      List.append_assoc]
    congr 1
    rw [contextsOf, contextsOf, List.filterMap_cons]
    cases Owned.ctxAt w.mSessions id <;> rfl

/-! ### The sessions in the map -/

/-- A call puts at most one session into the map, so its sessions can always be listed. -/
theorem Reached.enumerates (reached : Reached L nCtx swapDir w) :
    ∃ order, Enumerates order w := by
  have finite : {id | (w.mSessions id).isSome = true}.Finite := by
    induction reached with
    | start llama => simp [World.start]
    | @call w w' op r before served ih =>
      have rep := before.rep
      have new : {id | (w'.mSessions id).isSome = true} ⊆
          {id | (w.mSessions id).isSome = true} ∪ {id | op = .createSession id} := by
        intro id there
        by_contra neither
        rw [Set.mem_union, not_or, Set.mem_ofPred_eq, Bool.not_eq_true, Option.isSome_eq_false_iff,
          Option.isNone_iff_eq_none] at neither
        have gone := (serve_served rep served).absent rep neither.1 neither.2
        rw [Set.mem_ofPred_eq, gone] at there
        cases there
      refine (ih.union (Set.Subsingleton.finite ?_)).subset new
      intro a first b second
      rw [Set.mem_ofPred_eq.mp first] at second
      exact Op.createSession.inj second
    | elsewhere llama trace before ih => exact ih
  exact ⟨finite.toFinset.toList, finite.toFinset.nodup_toList, fun id => by simp⟩

/-! ### Runs -/

/-- What every state of a daemon has: its manager is in one of its states, and an inference goes on
with a context that was created. -/
structure Accounted (L : Llama σ) (nCtx : Nat) (swapDir : Bytes) (d : Daemon σ) : Prop where
  reached : Reached L nCtx swapDir d.world
  born : ∀ thread inference ctx, d.threads thread = some inference →
    inference.pc.context = some ctx → ctx < d.world.created

/-- No action takes a context back. -/
theorem Taken.created {action : Action} (taken : Taken L d action d') (rep : Rep d.world) :
    d.world.created ≤ d'.world.created := by
  cases taken with
  | refuses | rests | starts => exact le_rfl
  | calls front call served => exact ((serve_served rep served).newContexts rep).created
  | asks => rw [inferStream_world]
  | cancels => rw [cancel_world]
  | finishes => rw [finish_world]
  | advances running goes stepped =>
    rcases stepped.world with ⟨op, r, _, served⟩ | ⟨_, llama, trace, rfl, _⟩
    · exact ((serve_served rep served).newContexts rep).created
    · exact le_rfl

theorem Taken.accounted {action : Action} (taken : Taken L d action d')
    (accounted : Accounted L nCtx swapDir d) : Accounted L nCtx swapDir d' where
  reached := taken.reached accounted.reached
  born thread inference ctx running goes := by
    have later := taken.created accounted.reached.rep
    cases taken.comesFrom running with
    | stays before => exact (accounted.born thread inference ctx before goes).trans_le later
    | starts accepted here =>
      rw [here] at goes
      cases goes
    | @steps before pc running' same own stepped =>
      subst same
      rcases stepped.context goes with goes' | served
      · exact (accounted.born thread before ctx running' goes').trans_le later
      · have holds := Served.activated (serve_served accounted.reached.rep served)
        obtain ⟨entry, found, here⟩ := holdsContext_iff.mp holds
        exact (taken.reached accounted.reached).rep.owned.born _ entry ctx found here

theorem accounted_of_run (start : Accounted L nCtx swapDir d) (reach : run (step L) actions d = .ok d') :
    Accounted L nCtx swapDir d' :=
  run_invariant' (fun _ _ _ _ accounted taken => (step_taken taken).accounted accounted) start reach

/-- **The contexts that are not freed** are those of the HOT sessions, one each, in every state that
the daemon comes to. -/
theorem contexts_accounted (L : Llama σ) (ready : Bool) (nCtx : Nat) (swapDir : Bytes) (llama : σ)
    (actions : List Action)
    (reach : run (step L) actions (Daemon.start ready nCtx swapDir llama) = .ok d) :
    (d.world.freed ++ contextsOf d.world (values d.world.mHotLru)).Perm
        (List.range d.world.created) ∧
      d.world.freed.length + d.world.mHotLru.length = d.world.created := by
  have rep := (reached_of_daemon reach).rep
  have all := freed_append_contexts rep rep.hot.values fun _ member => member
  refine ⟨all, ?_⟩
  have total := all.length_eq
  rwa [List.length_append, length_contexts rep rep.hot.values fun _ member => member,
    List.length_range] at total

/-- The daemon that serves with a loaded engine. -/
theorem accounted_serving (loaded : (LLMEngine.start llama).load B L modelPath nCtx = .ok (true, e)) :
    Accounted L nCtx (text "/data/vendor/miniv_ai/sessions") e.serving ∧
      e.mSampler = true ∧ e.mModel = true ∧ e.mSessionManager = true := by
  rw [load_eq] at loaded
  dsimp only at loaded
  split at loaded
  · cases loaded
    exact ⟨⟨.elsewhere _ _ (.start _), fun _ _ _ running => by cases running⟩, rfl, rfl, rfl⟩
  · cases loaded

/-- **The end of the process.** After the sampler, the model and the backend, the destructors free the
contexts of the HOT sessions: with these every context that was ever created is freed, and freed once.
An inference that is still under way is left with a freed context. -/
theorem shutdown_frees (B : Backend σ) (L : Llama σ) {order : List Int}
    (loaded : (LLMEngine.start llama).load B L modelPath nCtx = .ok (true, e))
    (reach : run (step L) actions e.serving = .ok d) (listed : Enumerates order d.world) :
    ∃ contexts, (shutdown B L order e d).1 = [.sampler, .model, .backend] ++ contexts.map .context ∧
      contexts.length = d.world.mHotLru.length ∧
      (shutdown B L order e d).2.freed = d.world.freed ++ contexts ∧
      (d.world.freed ++ contexts).Perm (List.range d.world.created) ∧
      ∀ thread inference ctx, d.threads thread = some inference →
        inference.pc.context = some ctx → ctx ∈ (shutdown B L order e d).2.freed := by
  obtain ⟨start, sampler, model, manager⟩ := accounted_serving loaded
  obtain ⟨reached, born⟩ := accounted_of_run start reach
  have all : ∀ id ∈ values d.world.mHotLru, id ∈ order := by
    intro id member
    obtain ⟨entry, found, _⟩ := (reached.rep.hot.mem_values_iff id).mp member
    exact (listed.mem_iff id).mpr (by simp [found])
  have perm := freed_append_contexts reached.rep listed.nodup all
  have freed : (shutdown B L order e d).2.freed = d.world.freed ++ contextsOf d.world order := by
    simp only [shutdown, LLMEngine.destroy, sampler, model, manager, if_true]
    exact destroyManager_freed order reached.rep.ctxHot
  refine ⟨contextsOf d.world order, ?_, length_contexts reached.rep listed.nodup all, freed, perm, ?_⟩
  · have last : ((shutdown B L order e d).2.freed.drop d.world.freed.length) =
        contextsOf d.world order := by rw [freed, List.drop_left]
    rw [← last]
    simp only [shutdown, LLMEngine.destroy, sampler, model, manager, if_true]
    rfl
  · intro thread inference ctx running goes
    rw [freed, perm.mem_iff]
    exact List.mem_range.mpr (born thread inference ctx running goes)

/-- The small llama's engine: its model is always there. -/
def simBackend : Backend Sim where
  backendInit s := s
  modelLoadFromFile _ s := (true, s)
  samplerChainInit s := s
  samplerFree s := s
  modelFree s := s
  backendFree s := s

/-- That engine, loaded. -/
def simEngine : LLMEngine Sim where
  mModel := true
  mModelPath := text "/m"
  mSessionManager := true
  mSampler := true
  world := loadedWorld 6 (Sim.start [])

/-- Three sessions, of which one is killed, one is HOT and under way, and one is new. -/
def stopping : List Action :=
  [.createSession 1, .createSession 2, .createSession 3, .inferStream 1 (text "ab") 5,
    .advance (.hal 1), .destroySession 1, .inferStream 2 (text "c") 5, .advance (.hal 2)]

theorem contexts_accounted_stopping : ∃ d,
    run (step (sim 6 10)) stopping (Daemon.start true 6 (text "/s") (Sim.start [])) = .ok d ∧
    d.world.created = 2 ∧
    (d.world.freed ++ contextsOf d.world (values d.world.mHotLru)).Perm
        (List.range d.world.created) ∧
      d.world.freed.length + d.world.mHotLru.length = d.world.created := by
  have stops : ∃ d, run (step (sim 6 10)) stopping (Daemon.start true 6 (text "/s") (Sim.start [])) =
      .ok d ∧ d.world.created = 2 := gives_iff.mp (by decide +kernel)
  obtain ⟨d, reach, created⟩ := stops
  exact ⟨d, reach, created,
    contexts_accounted (sim 6 10) true 6 (text "/s") (Sim.start []) stopping reach⟩

/-- The context of session 2 is freed after the model, while the inference on it is about to use it. -/
theorem shutdown_frees_running : ∃ d order,
    (LLMEngine.start (Sim.start [])).load simBackend (sim 6 10) (text "/m") 6 =
      .ok (true, simEngine) ∧
    run (step (sim 6 10)) stopping simEngine.serving = .ok d ∧ Enumerates order d.world ∧
    d.world.mHotLru.length = 1 ∧ (d.threads (.hal 2)).map Inference.pc = some (.prefill 1) ∧
    ∃ contexts, (shutdown simBackend (sim 6 10) order simEngine d).1 =
        [.sampler, .model, .backend] ++ contexts.map .context ∧
      contexts.length = d.world.mHotLru.length ∧
      (shutdown simBackend (sim 6 10) order simEngine d).2.freed = d.world.freed ++ contexts ∧
      (d.world.freed ++ contexts).Perm (List.range d.world.created) ∧
      ∀ thread inference ctx, d.threads thread = some inference →
        inference.pc.context = some ctx →
          ctx ∈ (shutdown simBackend (sim 6 10) order simEngine d).2.freed := by
  have loaded : (LLMEngine.start (Sim.start [])).load simBackend (sim 6 10) (text "/m") 6 =
      .ok (true, simEngine) := load_eq simBackend (sim 6 10) (text "/m") 6 (Sim.start [])
  have stops : ∃ d, run (step (sim 6 10)) stopping simEngine.serving = .ok d ∧
      d.world.mHotLru.length = 1 ∧ (d.threads (.hal 2)).map Inference.pc = some (.prefill 1) :=
    gives_iff.mp (by decide +kernel)
  obtain ⟨d, reach, hot, under⟩ := stops
  obtain ⟨order, listed⟩ :=
    (accounted_of_run (accounted_serving loaded).1 reach).reached.enumerates
  exact ⟨d, order, loaded, reach, listed, hot, under,
    shutdown_frees simBackend (sim 6 10) loaded reach listed⟩

end MiniV
