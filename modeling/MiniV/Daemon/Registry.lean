/-
**While there is room, the daemon is a plain registry of sessions.**

The manager swaps out, prunes and kills to make room, and what a session loses by it is most of what can
go wrong. `register` is the registry a client would keep: a session is in it from its creation to its
destruction. As long as the registered sessions number no more than the hot limit, and none is destroyed
while an inference needs its context, all of that stays idle:

* `Resident.room`: an activation finds a free place in the hot list;
* `Resident.call`: a call leaves in the map what it leaves in the registry, and saves nobody;
* `everything_fits`: no order of binder calls, commands and steps of inferences brings the daemon down,
  and its sessions are always those registered, none of them ever swapped out.
-/

import Mathlib.Data.List.Perm.Subperm
import MiniV.Daemon.Contexts
import MiniV.Daemon.Crash

namespace MiniV

open MiniV.Library
open MiniV.Library.NodeList (values)

variable {σ : Type} {L : Llama σ} {w w' : World σ} {d d' : Daemon σ} {id : Int} {entry : SessionMeta}
  {registered : List Int} {action : Action} {op : Op} {r : Reply} {notice : Notice}

/-! ### The registry -/

/-- The registered sessions after a call. -/
def register (registered : List Int) : Op → List Int
  | .createSession id => if id ∈ registered then registered else registered ++ [id]
  | .killSession id => registered.filter (· ≠ id)
  | .setHotLimit _ | .setColdLimit _ | .activateForInfer _ | .recordTokens _ _ => registered

/-- One action, with the registry beside the daemon. -/
def stepRegistering (L : Llama σ) (action : Action) (s : Daemon σ × List Int) :
    Except Fault (Notice × (Daemon σ × List Int)) := do
  let (notice, d) ← step L action s.1
  .ok (notice, d, (managerCall L s.1 action).elim s.2 (register s.2))

/-- **A call finds room**: the session it creates has a place under the hot limit, the limit it sets
leaves a place free and has one for every session, and the session it kills is not needed. -/
def FindsRoom (registered : List Int) (d : Daemon σ) : Op → Prop
  | .createSession id => id ∈ registered ∨ registered.length < d.world.mHotLimit
  | .setHotLimit count => d.world.mHotLru.length < max 1 count ∧ registered.length ≤ max 1 count
  | .killSession id => Unneeded d id
  | .setColdLimit _ | .activateForInfer _ | .recordTokens _ _ => True

instance (registered : List Int) (d : Daemon σ) : DecidablePred (FindsRoom registered d)
  | .createSession _ => inferInstanceAs (Decidable (_ ∨ _))
  | .setHotLimit _ => inferInstanceAs (Decidable (_ ∧ _))
  | .killSession sessionId => inferInstanceAs (Decidable (Unneeded d sessionId))
  | .setColdLimit _ | .activateForInfer _ | .recordTokens _ _ => isTrue trivial

/-- The most tokens an inference may generate, where one is asked for. -/
def Action.maxTokens : Action → Int
  | .inferStream _ _ maxTokens | .command (.infer _ maxTokens _) => maxTokens
  | _ => 0

/-- **An action leaves room**: its call finds room, and it asks for no negative number of tokens. -/
def LeavesRoom (L : Llama σ) (s : Daemon σ × List Int) (action : Action) : Prop :=
  (∀ op ∈ managerCall L s.1 action, FindsRoom s.2 s.1 op) ∧ 0 ≤ action.maxTokens

instance (L : Llama σ) (s : Daemon σ × List Int) (action : Action) :
    Decidable (LeavesRoom L s action) :=
  inferInstanceAs (Decidable (_ ∧ _))

/-! ### What a call saves -/

/-- The event is no save. -/
def NoSave : Event → Prop
  | .saved _ _ => False
  | .measured _ _ | .erased _ _ | .subtracted _ _ | .swappedOut _ _ _ _ | .coldEviction _ _ _ _ _ _
  | .recorded _ _ | .loopDecode _ => True

theorem hotErase_noSave (erases : w.hotErase entry = .ok w') : Adds NoSave w w' := by
  unfold World.hotErase at erases
  split at erases
  · cases erases
  · cases erases
    exact .one rfl trivial

theorem coldErase_noSave (erases : w.coldErase entry = .ok w') : Adds NoSave w w' := by
  unfold World.coldErase at erases
  split at erases
  · cases erases
  · cases erases
    exact .one rfl trivial

theorem touchHot_noSave (touches : touchHot L id w = .ok w') : Adds NoSave w w' := by
  obtain ⟨entry, _, touches⟩ := bind_eq_ok.mp touches
  obtain ⟨w1, erases, touches⟩ := bind_eq_ok.mp touches
  cases touches
  exact (hotErase_noSave erases).trans (.refl rfl)

theorem killSession_noSave {b : Bool} (kills : killSession L id w = .ok (b, w')) :
    Adds NoSave w w' := by
  unfold killSession at kills
  split at kills
  · cases kills
    exact .refl rfl
  · rename_i entry found
    split at kills
    · obtain ⟨w1, erases, kills⟩ := bind_eq_ok.mp kills
      cases kills
      refine (hotErase_noSave erases).trans (.refl ?_)
      cases entry.ctx <;> rfl
    · split at kills
      · cases kills
        exact .refl rfl
      · obtain ⟨w1, erases, kills⟩ := bind_eq_ok.mp kills
        cases kills
        exact (coldErase_noSave erases).trans (.one (e := .subtracted _ _) rfl trivial)

/-! ### Room -/

theorem evictHotIfNeeded_room {excludeId : Int} (room : w.mHotLru.length < w.mHotLimit) :
    evictHotIfNeeded L excludeId w = .ok w := by
  have notFull : ¬ (w.mHotLimit ≤ w.mHotLru.length ∧ w.mHotLru ≠ []) := fun full =>
    absurd full.1 (Nat.not_le.mpr room)
  rw [evictHotIfNeeded, evictHotLoop, if_neg notFull]

/-- With nobody in the cold list, there is nobody to kill. -/
theorem evictColdIfNeeded_nobody {excludeId : Int} (nobody : w.mColdLru = [])
    (evicted : evictColdIfNeeded L excludeId w = .ok w') :
    ∃ e, w' = w.note e ∧ NoSave e := by
  obtain ⟨w1, loops, evicted⟩ := bind_eq_ok.mp evicted
  have same : w1 = w := by
    rw [nobody, List.length_nil, evictColdLoop, nobody] at loops
    split at loops <;> cases loops <;> rfl
  subst same
  cases evicted
  exact ⟨_, rfl, trivial⟩

/-- **The sessions in the map are those registered**, within the hot limit, and none of them was ever
swapped out. -/
structure Resident (registered : List Int) (w : World σ) : Prop where
  sessions : ∀ id, (w.mSessions id).isSome = true ↔ id ∈ registered
  few : registered.length ≤ w.mHotLimit
  cold : w.mColdLru = []
  unsaved : ∀ e ∈ w.trace, NoSave e

namespace Resident

theorem start (nCtx : Nat) (swapDir : Bytes) (llama : σ) :
    Resident [] (World.start nCtx swapDir llama) where
  sessions id := by simp [World.start]
  few := Nat.zero_le _
  cold := rfl
  unsaved _ member := by cases member

/-- **A COLD session finds a free place** in the hot list. -/
theorem room (resident : Resident registered w) (rep : Rep w) (found : w.mSessions id = some entry)
    (cold : entry.state = .COLD) : w.mHotLru.length < w.mHotLimit := by
  have outside := rep.not_mem_hot_of_cold found cold
  have distinct : (id :: values w.mHotLru).Nodup := List.nodup_cons.mpr ⟨outside, rep.hot.values⟩
  have inside : id :: values w.mHotLru ⊆ registered := by
    intro other member
    rw [← resident.sessions]
    rcases List.mem_cons.mp member with rfl | hot
    · rw [found]
      rfl
    · obtain ⟨entry', found', _⟩ := (rep.hot.mem_values_iff other).mp hot
      rw [found']
      rfl
  have shorter := (List.Nodup.subperm distinct inside).length_le
  have limit := resident.few
  rw [List.length_cons, NodeList.values, List.length_map] at shorter
  omega

/-- It has never been swapped out. -/
theorem noFile (resident : Resident registered w) (rep : Rep w) (found : w.mSessions id = some entry)
    (cold : entry.state = .COLD) : entry.swapFilePath = [] := by
  by_contra swapped
  have member := (rep.cold.mem_values_iff id).mpr ⟨entry, found, cold, swapped⟩
  rw [resident.cold] at member
  cases member

/-- The same sessions stay, in the same lists. -/
theorem same (resident : Resident registered w)
    (sessions : ∀ id, (w'.mSessions id).isSome = (w.mSessions id).isSome)
    (limit : w'.mHotLimit = w.mHotLimit) (cold : w'.mColdLru = w.mColdLru)
    (adds : Adds NoSave w w') : Resident registered w' where
  sessions id := by rw [sessions, resident.sessions]
  few := limit ▸ resident.few
  cold := cold.trans resident.cold
  unsaved e member := by
    obtain ⟨new, grown, fine⟩ := adds
    rw [grown] at member
    exact (List.mem_append.mp member).elim (resident.unsaved e) (fine e)

/-- One entry changes. -/
theorem update {after : Option SessionMeta} (resident : Resident registered w)
    (sessions : w'.mSessions = Function.update w.mSessions id after)
    (stays : after.isSome = (w.mSessions id).isSome) (limit : w'.mHotLimit = w.mHotLimit)
    (cold : w'.mColdLru = w.mColdLru) (adds : Adds NoSave w w') : Resident registered w' := by
  refine resident.same (fun other => ?_) limit cold adds
  by_cases equal : other = id
  · rw [equal, sessions, Function.update_self, stays]
  · rw [sessions, Function.update_of_ne equal]

/-- A session is touched. -/
theorem touched (resident : Resident registered w) (found : w.mSessions id = some entry)
    (touches : touchHot L id w = .ok w') : Resident registered w' := by
  have adds := touchHot_noSave touches
  rw [touchHot, World.deref, found, ok_bind] at touches
  obtain ⟨w1, erases, touches⟩ := bind_eq_ok.mp touches
  have frame : w1.mSessions = w.mSessions ∧ w1.mHotLimit = w.mHotLimit ∧
      w1.mColdLru = w.mColdLru := by
    unfold World.hotErase at erases
    split at erases <;> cases erases
    exact ⟨rfl, rfl, rfl⟩
  cases touches
  refine resident.update (congrArg (Function.update · id _) frame.1) ?_ frame.2.1 frame.2.2 adds
  rw [found]
  rfl

/-- **A new context** for a session that was never swapped out. -/
theorem takesContext (resident : Resident registered w) (rep : Rep w)
    (found : w.mSessions id = some entry) (cold : entry.state = .COLD) {ctx : Option Ctx}
    (active : activateRest L id w = .ok (ctx, w')) : Resident registered w' := by
  unfold activateRest at active
  split at active
  · cases active
    exact resident.same (fun _ => rfl) rfl rfl (.refl rfl)
  · have new : (initOf L w).mSessions id = some entry := found
    simp only [swapIn, makeHot, World.deref, new, resident.noFile rep found cold, if_true, ok_bind,
      Bool.true_eq_false, if_false] at active
    cases active
    exact resident.update rfl (by rw [found]; rfl) rfl rfl (.refl rfl)

/-- **An activation** finds a place for its session. -/
theorem activates (resident : Resident registered w) (rep : Rep w) {ctx : Option Ctx}
    (active : activateForInfer L id w = .ok (ctx, w')) : Resident registered w' := by
  cases found : w.mSessions id with
  | none =>
    simp only [activateForInfer, found] at active
    cases active
    exact resident
  | some entry =>
    rcases hot_or_cold entry with hot | cold
    · simp only [activateForInfer, found, hot] at active
      obtain ⟨w1, touches, active⟩ := bind_eq_ok.mp active
      obtain ⟨entry', _, active⟩ := bind_eq_ok.mp active
      cases active
      exact resident.touched found touches
    · rw [activateForInfer_eq found cold, evictHotIfNeeded_room (resident.room rep found cold),
        ok_bind] at active
      exact resident.takesContext rep found cold active

/-- Recording leaves every session where it is. -/
theorem records (resident : Resident registered w) {tokens : List Token}
    (records : recordTokens L id tokens w = .ok w') : Resident registered w' := by
  cases found : w.mSessions id with
  | none =>
    rw [recordTokens_absent found] at records
    cases records
    exact resident
  | some entry =>
    have longer : Resident registered (recordedOf id entry tokens w) :=
      resident.update rfl (by rw [found]; rfl) rfl rfl (.one (e := .recorded id tokens) rfl trivial)
    rw [recordTokens_eq found] at records
    split at records
    · exact longer.touched (Function.update_self ..) records
    · cases records
      exact longer

/-- A session is created, if it is not there. -/
theorem creates (resident : Resident registered w)
    (room : id ∈ registered ∨ registered.length < w.mHotLimit) :
    Resident (register registered (.createSession id)) (createSession L id w).2 := by
  rw [createSession, register]
  by_cases there : id ∈ registered
  · rw [if_pos ((resident.sessions id).mpr there), if_pos there]
    exact resident
  · have absent : ¬ (w.mSessions id).isSome = true := fun living =>
      there ((resident.sessions id).mp living)
    rw [if_neg absent, if_neg there]
    refine ⟨fun other => ?_, ?_, resident.cold, resident.unsaved⟩
    · rw [List.mem_append, List.mem_singleton, ← resident.sessions]
      by_cases equal : other = id
      · simp [World.assign, equal]
      · simp [World.assign, equal]
    · rw [List.length_append, List.length_singleton]
      exact room.resolve_left there

/-- A session is killed. -/
theorem kills (resident : Resident registered w) (rep : Rep w) {b : Bool}
    (kills : killSession L id w = .ok (b, w')) :
    Resident (register registered (.killSession id)) w' := by
  obtain ⟨w1, kills', shape⟩ := killSession_spec (L := L) rep id
  obtain ⟨new, grown, fine⟩ := killSession_noSave kills
  rw [kills'] at kills
  cases kills
  refine ⟨fun other => ?_, ?_, ?_, fun e member => ?_⟩
  · rw [shape.sessions, register, List.mem_filter, decide_eq_true_iff, ← resident.sessions]
    by_cases equal : other = id
    · simp [equal]
    · simp [equal]
  · rw [shape.limits.1]
    exact (List.length_filter_le _ _).trans resident.few
  · have cold := shape.cold
    rw [resident.cold] at cold
    exact List.map_eq_nil_iff.mp cold
  · rw [grown] at member
    exact (List.mem_append.mp member).elim (resident.unsaved e) (fine e)

/-- **Every call that finds room** leaves in the map what it leaves in the registry. -/
theorem call (resident : Resident registered d.world) (rep : Rep d.world)
    (finds : FindsRoom registered d op) (served : serve L op d.world = .ok (r, w')) :
    Resident (register registered op) w' := by
  cases op with
  | createSession id =>
    cases served
    exact resident.creates finds
  | killSession id =>
    obtain ⟨⟨b, w1⟩, kills, done⟩ := bind_eq_ok.mp served
    cases done
    exact resident.kills rep kills
  | setHotLimit count =>
    obtain ⟨w1, limits, done⟩ := bind_eq_ok.mp served
    cases done
    rw [setHotLimit, evictHotIfNeeded_room finds.1] at limits
    cases limits
    exact ⟨resident.sessions, finds.2, resident.cold, resident.unsaved⟩
  | setColdLimit bytes =>
    obtain ⟨w1, limits, done⟩ := bind_eq_ok.mp served
    cases done
    have nobody : { d.world with mColdLimitBytes := bytes }.mColdLru = [] := resident.cold
    obtain ⟨e, rfl, fine⟩ := evictColdIfNeeded_nobody nobody limits
    exact resident.same (fun _ => rfl) rfl rfl (.one (e := e) rfl fine)
  | activateForInfer id =>
    obtain ⟨⟨ctx, w1⟩, active, done⟩ := bind_eq_ok.mp served
    cases done
    exact resident.activates rep active
  | recordTokens id tokens =>
    obtain ⟨w1, records, done⟩ := bind_eq_ok.mp served
    cases done
    exact resident.records records

end Resident

/-! ### Actions -/

/-- With room, a call takes a context from no session but the one it kills. -/
theorem released_room (resident : Resident registered d.world) (rep : Rep d.world)
    (finds : FindsRoom registered d op) {id : Int} (gone : id ∈ released op d.world) :
    Unneeded d id := by
  have none : ∀ {excludeId : Int} {w : World σ}, w.mHotLru.length < w.mHotLimit →
      evictable excludeId w = [] := by
    intro excludeId w room
    rw [evictable, show w.mHotLru.length + 1 - w.mHotLimit = 0 by omega, List.take_zero]
  cases op with
  | killSession id' =>
    cases List.mem_singleton.mp gone
    exact finds
  | setHotLimit count =>
    rw [released, none (w := withLimits (.setHotLimit count) d.world) finds.1] at gone
    cases gone
  | activateForInfer id' =>
    rw [released] at gone
    split at gone
    · rename_i cold
      obtain ⟨entry, found, cold⟩ := Option.map_eq_some_iff.mp cold
      rw [none (resident.room rep found cold)] at gone
      cases gone
    · cases gone
    · cases gone
  | createSession | setColdLimit | recordTokens => cases gone

/-- A step of an inference leaves every session where it is. -/
theorem Stepped.resident {cancelled : Bool} {inference : Inference} {pc : Pc}
    (stepped : Stepped L cancelled inference w pc w') (resident : Resident registered w) (rep : Rep w) :
    Resident registered w' := by
  cases stepped with
  | noContext here active | activates here active => exact resident.activates rep active
  | recordsPrompt here records | recordsGenerated here records => exact resident.records records
  | stops | goesOn | stays => exact resident
  | prefillFails | prefills | samplesEnd | samples =>
    exact resident.same (fun _ => rfl) rfl rfl (.refl rfl)
  | decodeFails | decodes =>
    exact resident.same (fun _ => rfl) rfl rfl (.one (e := .loopDecode _) rfl trivial)

/-- It registers nobody. -/
theorem register_advance (registered : List Int) (thread : Thread) (d : Daemon σ) :
    (managerCall L d (.advance thread)).elim registered (register registered) = registered := by
  rw [managerCall]
  cases d.threads thread with
  | none => rfl
  | some inference =>
    rw [Option.bind_some, Inference.call]
    cases inference.pc <;> rfl

/-- **Every action that leaves room** keeps the registry. -/
theorem Taken.resident (taken : Taken L d action d') (resident : Resident registered d.world)
    (rep : Rep d.world) (finds : ∀ op ∈ managerCall L d action, FindsRoom registered d op) :
    Resident ((managerCall L d action).elim registered (register registered)) d'.world := by
  cases taken with
  | refuses front nothing =>
    rw [nothing]
    exact resident
  | calls front call served =>
    rw [call]
    exact resident.call rep (finds _ call) served
  | asks =>
    rw [inferStream_world]
    exact resident
  | cancels =>
    rw [cancel_world]
    exact resident
  | starts free =>
    rw [managerCall, free]
    exact resident
  | rests =>
    rw [register_advance]
    exact resident
  | advances running goes stepped =>
    rw [register_advance]
    exact stepped.resident resident rep
  | finishes =>
    rw [register_advance, finish_world]
    exact resident

/-- Inferences are asked for no negative number of tokens. -/
def Positive (d : Daemon σ) : Prop :=
  ∀ thread inference, d.threads thread = some inference → 0 ≤ inference.maxTokens

theorem Positive.setThread (positive : Positive d) {thread : Thread} {after : Option Inference}
    (own : ∀ inference, after = some inference → 0 ≤ inference.maxTokens) :
    Positive (d.setThread thread after) := by
  intro thread' inference running
  by_cases same : thread' = thread
  · rw [same, Daemon.setThread_self] at running
    exact own inference running
  · rw [Daemon.setThread_of_ne same] at running
    exact positive thread' inference running

theorem Taken.positive (taken : Taken L d action d') (positive : Positive d)
    (room : 0 ≤ action.maxTokens) : Positive d' := by
  cases taken with
  | refuses | rests => exact positive
  | calls => exact positive
  | asks sessionId prompt maxTokens =>
    intro thread inference running
    rw [inferStream_threads] at running
    split at running
    · have started : Positive (d.setThread (.hal (d.reqCounter + 1))
          (some ⟨sessionId, prompt, maxTokens, .activate⟩)) :=
        positive.setThread fun _ same => Option.some.inj same ▸ room
      exact started thread inference running
    · exact positive thread inference running
  | cancels sessionId =>
    intro thread inference running
    rw [cancel_threads] at running
    exact positive thread inference running
  | starts => exact positive.setThread fun _ same => Option.some.inj same ▸ room
  | @advances thread inference pc w running goes stepped =>
    exact Positive.setThread (d := { d with world := w }) positive fun _ same =>
      Option.some.inj same ▸ positive thread inference running
  | @finishes thread inference ok running here =>
    intro thread' inference' running'
    rw [finish_threads] at running'
    have ended : Positive (d.setThread thread none) := positive.setThread fun _ same => by cases same
    exact ended thread' inference' running'

/-! ### Whole runs -/

/-- **The invariant of the daemon**: the registry is exact, what inferences need is held, and none of
them is to generate a negative number of tokens. -/
structure Housed (s : Daemon σ × List Int) : Prop where
  resident : Resident s.2 s.1.world
  holding : Holding s.1
  ready : s.1.ready = true
  positive : Positive s.1

theorem Housed.start (nCtx : Nat) (swapDir : Bytes) (llama : σ) :
    Housed (Daemon.start true nCtx swapDir llama, []) where
  resident := .start nCtx swapDir llama
  holding := .start true nCtx swapDir llama
  ready := rfl
  positive _ _ running := by cases running

/-- **Nothing stops an action that leaves room.** -/
theorem Housed.no_crash {s : Daemon σ × List Int} (housed : Housed s)
    (pieces : ∀ tok, 0 ≤ (L.tokenToPiece tok).1) {e : Fault} : ¬ Crash L s.1 action e := by
  intro crash
  have rep := housed.holding.rep
  cases crash with
  | nullManager free unloaded =>
    rw [housed.ready] at unloaded
    cases unloaded
  | @stuck thread inference _ running stuck =>
    cases stuck with
    | danglingMeta here dies =>
      obtain ⟨entry, found, cold⟩ := dies.cold
      obtain ⟨w1, evicted, dead, _⟩ := dies.dies
      rw [evictHotIfNeeded_room (housed.resident.room rep found cold)] at evicted
      cases evicted
      rw [found] at dead
      cases dead
    | freedContext uses freed =>
      exact housed.holding.usesLiving (.advance thread) inference running _ uses freed
    | negativeMaxTokens here negative =>
      exact absurd (housed.positive thread inference running) (Int.not_le.mpr negative)
    | longPiece here alive goes long => exact absurd (pieces _) (Int.not_le.mpr long)

/-- **One action.** -/
theorem Housed.step {s : Daemon σ × List Int} (housed : Housed s) (leaves : LeavesRoom L s action)
    (pieces : ∀ tok, 0 ≤ (L.tokenToPiece tok).1) :
    ∃ notice s', stepRegistering L action s = .ok (notice, s') ∧ Housed s' := by
  have rep := housed.holding.rep
  cases result : MiniV.step L action s.1 with
  | error e => exact absurd ((step_error_iff rep).mp result) (housed.no_crash pieces)
  | ok x =>
    obtain ⟨notice, d'⟩ := x
    have taken := step_taken result
    have spares : Spares L s.1 action := fun op call id gone =>
      released_room housed.resident rep (leaves.1 op call) gone
    refine ⟨notice, (d', _), ?_, taken.resident housed.resident rep leaves.1,
      taken.holding housed.holding spares, taken.ready.trans housed.ready,
      taken.positive housed.positive leaves.2⟩
    rw [stepRegistering, result, ok_bind]
    rfl

/-- **While there is room** the daemon runs on, whatever the order of binder calls, commands and steps
of inferences: its sessions are those created and not destroyed, nobody was ever saved to a file, and
nobody is swapped out. -/
theorem everything_fits (L : Llama σ) (nCtx : Nat) (swapDir : Bytes) (llama : σ)
    (actions : List Action) (pieces : ∀ tok, 0 ≤ (L.tokenToPiece tok).1)
    (leaves : Along (stepRegistering L) (LeavesRoom L) actions
      (Daemon.start true nCtx swapDir llama, [])) :
    ∃ d registered,
      run (stepRegistering L) actions (Daemon.start true nCtx swapDir llama, []) = .ok (d, registered) ∧
      (∀ id, (d.world.mSessions id).isSome = true ↔ id ∈ registered) ∧
      d.world.mColdLru = [] ∧ ∀ id written, .saved id written ∉ d.world.trace := by
  obtain ⟨⟨d, registered⟩, reach, housed⟩ := run_progress
    (fun _ _ housed leaves => housed.step leaves pieces)
    (Housed.start nCtx swapDir llama) leaves
  have resident := housed.resident
  exact ⟨d, registered, reach, resident.sessions, resident.cold,
    fun id written member => resident.unsaved _ member⟩

/-- Three sessions under the hot limit, asked by two requests and the socket; one is destroyed when its
request has ended, another takes its place, and the limit is raised. -/
def fullHouse : List Action := List.flatten
  [[.createSession 1, .command (.createSession 2), .createSession 3, .inferStream 1 (text "ab") 2,
      .inferStream 2 (text "c") 1, .advance (.hal 1), .advance (.hal 2),
      .command (.infer 3 1 (text "d")), .advance .socket, .advance (.hal 1)],
    List.replicate 8 (.advance (.hal 2)),
    [.destroySession 2, .createSession 4, .inferStream 4 (text "e") 1, .advance .socket,
      .advance (.hal 3), .cancel 4],
    List.replicate 8 (.advance .socket), List.replicate 4 (.advance (.hal 1)),
    [.command (.setHotLimit 4), .command (.createSession 5), .inferStream 5 (text "f") 0],
    List.replicate 6 (.advance (.hal 3)), List.replicate 6 (.advance (.hal 4))]

theorem everything_fits_fullHouse : ∃ d registered,
    run (stepRegistering (sim 6 10)) fullHouse
      (Daemon.start true 6 (text "/s") (Sim.start [7, 8]), []) = .ok (d, registered) ∧
    (∀ id, (d.world.mSessions id).isSome = true ↔ id ∈ registered) ∧
    d.world.mColdLru = [] ∧ ∀ id written, .saved id written ∉ d.world.trace :=
  everything_fits (sim 6 10) 6 (text "/s") (Sim.start [7, 8]) fullHouse
    (fun _ => by show (0 : Int) ≤ 1; decide) (by decide +kernel)

/-- The session that took the freed place is registered, and so is the one beyond the old limit. -/
example : Gives (fun s => s.2 = [1, 3, 4, 5])
    (run (stepRegistering (sim 6 10)) fullHouse
      (Daemon.start true 6 (text "/s") (Sim.start [7, 8]), [])) := by
  decide +kernel

end MiniV
