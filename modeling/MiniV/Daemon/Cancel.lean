/-
**Cancelling a request.**

The registry `gCancelFlags` has one slot for each session id. `inferStream` puts the flag of the new
request there, `cancel` sets the flag it finds, and a thread that ends erases the slot of its session,
whosever flag is in it.

* `cancelsExactly_iff`: a cancel reaches just the requests in flight on its session exactly when each
  of them that is not cancelled yet has the slot;
* `cancel_exact`: so it is throughout a run exactly when no request is accepted on a session, and
  none removed from it, while another one on it is in flight and not cancelled.
-/

import MiniV.Daemon.Machine
import MiniV.Llama.Sim

namespace MiniV

open MiniV.Library

variable {σ : Type} {L : Llama σ} {d d' : Daemon σ} {notice : Notice} {action : Action}

/-! ### Requests in flight -/

/-- The request is in flight on a session: it was accepted and has not removed itself yet. -/
def InFlight (d : Daemon σ) (sessionId : Int) (reqId : Nat) : Prop :=
  ∃ inference, d.threads (.hal reqId) = some inference ∧ inference.sessionId = sessionId

/-- The request is in flight and not cancelled. -/
def Uncancelled (d : Daemon σ) (sessionId : Int) (reqId : Nat) : Prop :=
  InFlight d sessionId reqId ∧ d.cancelFlag reqId = false

/-- **A cancel is exact**: it sets the flags of the requests in flight on its session and no others,
and no request that is still to be accepted has its flag set. -/
structure CancelsExactly (d : Daemon σ) : Prop where
  inFlight : ∀ sessionId reqId, (cancel sessionId d).cancelFlag reqId = true ↔
    d.cancelFlag reqId = true ∨ InFlight d sessionId reqId
  later : ∀ reqId, d.reqCounter < reqId → d.cancelFlag reqId = false

/-- The action takes no slot away: no request is accepted on a session, and none removed from it,
while another one on it is in flight and not cancelled. -/
def LeavesSlots (d : Daemon σ) : Action → Prop
  | .inferStream sessionId _ _ => d.ready = true → ∀ reqId, ¬ Uncancelled d sessionId reqId
  | .advance (.hal reqId) => ∀ inference ok, d.threads (.hal reqId) = some inference →
      inference.pc = .returned ok →
      ∀ reqId', reqId' ≠ reqId → ¬ Uncancelled d inference.sessionId reqId'
  | .createSession _ | .destroySession _ | .cancel _ | .command _ | .advance .socket => True

/-- What the registry and the flags keep to whatever the requests do. -/
structure Registered (d : Daemon σ) : Prop where
  fresh : ∀ sessionId reqId, InFlight d sessionId reqId → reqId ≤ d.reqCounter
  unset : ∀ reqId, d.reqCounter < reqId → d.cancelFlag reqId = false
  slot : ∀ sessionId reqId, d.gCancelFlags sessionId = some reqId → InFlight d sessionId reqId

/-- Every request that is in flight and not cancelled has the slot of its session. -/
def Slotted (d : Daemon σ) : Prop :=
  ∀ sessionId reqId, Uncancelled d sessionId reqId → d.gCancelFlags sessionId = some reqId

theorem cancel_flag (sessionId : Int) (reqId : Nat) :
    (cancel sessionId d).cancelFlag reqId = true ↔
      d.cancelFlag reqId = true ∨ d.gCancelFlags sessionId = some reqId := by
  unfold cancel
  cases slot : d.gCancelFlags sessionId with
  | none => simp
  | some reqId' =>
    by_cases same : reqId = reqId'
    · subst same
      simp
    · simp [Function.update_of_ne same, Ne.symm same]

/-- **A cancel is exact** just when every request it is to reach has the slot. -/
theorem cancelsExactly_iff (reg : Registered d) : CancelsExactly d ↔ Slotted d := by
  constructor
  · rintro exact' sessionId reqId ⟨flight, unset⟩
    have reached := (exact'.inFlight sessionId reqId).mpr (Or.inr flight)
    rcases (cancel_flag sessionId reqId).mp reached with set | slot
    · rw [unset] at set
      cases set
    · exact slot
  · refine fun slotted => ⟨fun sessionId reqId => (cancel_flag sessionId reqId).trans ?_, reg.unset⟩
    constructor
    · exact fun set => set.imp_right (reg.slot sessionId reqId)
    · rintro (set | flight)
      · exact Or.inl set
      · cases unset : d.cancelFlag reqId with
        | true => exact Or.inl rfl
        | false => exact Or.inr (slotted sessionId reqId ⟨flight, unset⟩)

/-! ### What an action does to the requests -/

/-- The same requests are in flight, with the same flags and slots. -/
structure SameRequests (d d' : Daemon σ) : Prop where
  inFlight : ∀ sessionId reqId, InFlight d' sessionId reqId ↔ InFlight d sessionId reqId
  flags : d'.cancelFlag = d.cancelFlag
  slots : d'.gCancelFlags = d.gCancelFlags
  counter : d.reqCounter ≤ d'.reqCounter

theorem SameRequests.refl (d : Daemon σ) : SameRequests d d := ⟨fun _ _ => Iff.rfl, rfl, rfl, le_rfl⟩

/-- A request is accepted on a session. -/
structure Accepts (sessionId : Int) (d d' : Daemon σ) : Prop where
  inFlight : ∀ sessionId' reqId, InFlight d' sessionId' reqId ↔
    if reqId = d.reqCounter + 1 then sessionId = sessionId' else InFlight d sessionId' reqId
  flags : d'.cancelFlag = Function.update d.cancelFlag (d.reqCounter + 1) false
  slots : d'.gCancelFlags = Function.update d.gCancelFlags sessionId (some (d.reqCounter + 1))
  counter : d'.reqCounter = d.reqCounter + 1

/-- A request removes itself, and with it the slot of its session. -/
structure Removes (sessionId : Int) (reqId : Nat) (d d' : Daemon σ) : Prop where
  inFlight : ∀ sessionId' reqId', InFlight d' sessionId' reqId' ↔
    reqId' ≠ reqId ∧ InFlight d sessionId' reqId'
  flags : d'.cancelFlag = d.cancelFlag
  slots : d'.gCancelFlags = Function.update d.gCancelFlags sessionId none
  counter : d'.reqCounter = d.reqCounter

/-- **What an action does to the requests.** -/
inductive Requests (d : Daemon σ) : Action → Daemon σ → Prop
  | same {action : Action} {d' : Daemon σ} (leaves : LeavesSlots d action)
      (same : SameRequests d d') : Requests d action d'
  | accepts {sessionId maxTokens : Int} {prompt : Bytes} {d' : Daemon σ} (ready : d.ready = true)
      (shape : Accepts sessionId d d') : Requests d (.inferStream sessionId prompt maxTokens) d'
  | cancels (sessionId : Int) : Requests d (.cancel sessionId) (cancel sessionId d)
  | removes {reqId : Nat} {inference : Inference} {ok : Bool} {d' : Daemon σ}
      (running : d.threads (.hal reqId) = some inference) (here : inference.pc = .returned ok)
      (shape : Removes inference.sessionId reqId d d') : Requests d (.advance (.hal reqId)) d'

theorem inFlight_setThread (thread : Thread) (inference : Option Inference) (sessionId : Int)
    (reqId : Nat) :
    InFlight (d.setThread thread inference) sessionId reqId ↔
      if .hal reqId = thread then ∃ i, inference = some i ∧ i.sessionId = sessionId
      else InFlight d sessionId reqId := by
  unfold InFlight Daemon.setThread
  by_cases same : Thread.hal reqId = thread
  · subst same
    rw [if_pos rfl]
    simp only [Function.update_self]
  · rw [if_neg same]
    simp only [Function.update_of_ne same]

/-- An inference of the socket is nobody's request. -/
theorem sameRequests_socket (inference : Option Inference) (w : World σ) (d : Daemon σ) :
    SameRequests d ({ d with world := w }.setThread .socket inference) where
  inFlight sessionId reqId :=
    (inFlight_setThread .socket inference sessionId reqId).trans (by
      rw [if_neg nofun]
      rfl)
  flags := rfl
  slots := rfl
  counter := le_rfl

theorem leavesSlots_front (front : action.isFront = true) : LeavesSlots d action := by
  cases action with
  | createSession | destroySession | command => trivial
  | inferStream | cancel | advance => cases front

theorem Taken.requests (taken : Taken L d action d') : Requests d action d' := by
  cases taken with
  | refuses front => exact .same (leavesSlots_front front) (.refl d)
  | calls front => exact .same (leavesSlots_front front) ⟨fun _ _ => Iff.rfl, rfl, rfl, le_rfl⟩
  | asks sessionId prompt maxTokens =>
    by_cases ready : d.ready = true
    · refine .accepts ready ?_
      simp only [inferStream, ready, not_true_eq_false, if_false]
      refine ⟨fun sessionId' reqId => (inFlight_setThread _ _ sessionId' reqId).trans ?_, rfl, rfl, rfl⟩
      by_cases same : reqId = d.reqCounter + 1
      · rw [if_pos (congrArg Thread.hal same), if_pos same]
        simp
      · rw [if_neg (fun equal => same (Thread.hal.inj equal)), if_neg same]
        rfl
    · refine .same (fun isReady => absurd isReady ready) ?_
      simp only [inferStream, ready]
      exact ⟨fun _ _ => Iff.rfl, rfl, rfl, Nat.le_succ _⟩
  | cancels sessionId => exact .cancels sessionId
  | starts free => exact .same trivial (sameRequests_socket _ d.world d)
  | @rests thread absent =>
    refine .same ?_ (.refl d)
    cases thread with
    | socket => trivial
    | hal reqId =>
      intro inference ok running
      rw [absent] at running
      cases running
  | @advances thread inference pc w running goes =>
    cases thread with
    | socket => exact .same trivial (sameRequests_socket _ w d)
    | hal reqId =>
      refine .same ?_ ⟨fun sessionId reqId' => (inFlight_setThread _ _ sessionId reqId').trans ?_,
        rfl, rfl, le_rfl⟩
      · intro inference' ok running' here
        rw [running, Option.some.injEq] at running'
        exact absurd (running' ▸ here) (goes ok)
      · by_cases same : reqId' = reqId
        · subst same
          rw [if_pos rfl]
          simp [InFlight, running]
        · rw [if_neg (fun equal => same (Thread.hal.inj equal))]
          rfl
  | @finishes thread inference ok running here =>
    cases thread with
    | socket => exact .same trivial (sameRequests_socket _ d.world d)
    | hal reqId =>
      refine .removes running here
        ⟨fun sessionId' reqId' => (inFlight_setThread _ _ sessionId' reqId').trans ?_, rfl, rfl, rfl⟩
      by_cases same : reqId' = reqId
      · rw [if_pos (congrArg Thread.hal same)]
        simp [same]
      · rw [if_neg (fun equal => same (Thread.hal.inj equal))]
        exact (and_iff_right same).symm

/-! ### One action -/

theorem SameRequests.registered (same : SameRequests d d') (reg : Registered d) : Registered d' where
  fresh sessionId reqId flight :=
    (reg.fresh sessionId reqId ((same.inFlight sessionId reqId).mp flight)).trans same.counter
  unset reqId later := by
    rw [same.flags]
    exact reg.unset reqId (same.counter.trans_lt later)
  slot sessionId reqId slot := by
    rw [same.slots] at slot
    exact (same.inFlight sessionId reqId).mpr (reg.slot sessionId reqId slot)

theorem SameRequests.slotted (same : SameRequests d d') : Slotted d' ↔ Slotted d := by
  unfold Slotted Uncancelled
  simp only [same.inFlight, same.flags, same.slots]

theorem Requests.registered (requests : Requests d action d') (reg : Registered d) :
    Registered d' := by
  cases requests with
  | same leaves same => exact same.registered reg
  | @accepts sessionId _ _ _ ready shape =>
    refine ⟨fun sessionId' reqId flight => ?_, fun reqId later => ?_, fun sessionId' reqId slot => ?_⟩
    · rw [shape.counter]
      rw [shape.inFlight] at flight
      split at flight
      · rename_i same
        exact same.le
      · exact (reg.fresh sessionId' reqId flight).trans (Nat.le_succ _)
    · rw [shape.counter] at later
      rw [shape.flags, Function.update_of_ne later.ne']
      exact reg.unset reqId (Nat.lt_of_succ_lt later)
    · rw [shape.inFlight]
      rw [shape.slots] at slot
      by_cases same : sessionId' = sessionId
      · subst same
        rw [Function.update_self, Option.some.injEq] at slot
        rw [if_pos slot.symm]
      · rw [Function.update_of_ne same] at slot
        have flight := reg.slot sessionId' reqId slot
        have old := reg.fresh sessionId' reqId flight
        rw [if_neg (by omega)]
        exact flight
  | cancels sessionId =>
    unfold cancel
    split
    · exact reg
    · rename_i reqId slot
      refine ⟨reg.fresh, fun reqId' later => ?_, reg.slot⟩
      have old := reg.fresh sessionId reqId (reg.slot sessionId reqId slot)
      have other : reqId' ≠ reqId := by
        have bound : d.reqCounter < reqId' := later
        omega
      exact (Function.update_of_ne other _ _).trans (reg.unset reqId' later)
  | @removes reqId inference ok _ running here shape =>
    refine ⟨fun sessionId' reqId' flight => ?_, fun reqId' later => ?_, fun sessionId' reqId' slot => ?_⟩
    · rw [shape.counter]
      exact reg.fresh sessionId' reqId' ((shape.inFlight sessionId' reqId').mp flight).2
    · rw [shape.flags]
      exact reg.unset reqId' (shape.counter ▸ later)
    · rw [shape.slots] at slot
      by_cases same : sessionId' = inference.sessionId
      · rw [same, Function.update_self] at slot
        cases slot
      · rw [Function.update_of_ne same] at slot
        have flight := reg.slot sessionId' reqId' slot
        refine (shape.inFlight sessionId' reqId').mpr ⟨fun equal => same ?_, flight⟩
        obtain ⟨inference', running', own⟩ := flight
        rw [equal, running, Option.some.injEq] at running'
        rw [← own, running']

/-- **An action keeps every slot** just when it leaves them. -/
theorem Requests.slotted (requests : Requests d action d') (reg : Registered d)
    (slotted : Slotted d) : Slotted d' ↔ LeavesSlots d action := by
  cases requests with
  | same leaves same => exact iff_of_true (same.slotted.mpr slotted) leaves
  | @accepts sessionId _ _ _ ready shape =>
    constructor
    · rintro slotted' _ reqId ⟨flight, unset⟩
      -- an older request would have to share the slot with the new one
      have old : reqId ≠ d.reqCounter + 1 := by
        have bound := reg.fresh sessionId reqId flight
        omega
      have slot := slotted' sessionId reqId ⟨by rw [shape.inFlight, if_neg old]; exact flight,
        by rw [shape.flags, Function.update_of_ne old]; exact unset⟩
      rw [shape.slots, Function.update_self, Option.some.injEq] at slot
      exact old slot.symm
    · rintro leaves sessionId' reqId ⟨flight, unset⟩
      rw [shape.inFlight] at flight
      rw [shape.flags] at unset
      rw [shape.slots]
      by_cases new : reqId = d.reqCounter + 1
      · rw [if_pos new] at flight
        rw [flight, new, Function.update_self]
      · rw [if_neg new] at flight
        rw [Function.update_of_ne new] at unset
        have other : sessionId' ≠ sessionId := by
          rintro rfl
          exact leaves ready reqId ⟨flight, unset⟩
        rw [Function.update_of_ne other]
        exact slotted sessionId' reqId ⟨flight, unset⟩
  | cancels sessionId =>
    refine iff_of_true ?_ trivial
    unfold cancel
    split
    · exact slotted
    · rename_i reqId slot
      rintro sessionId' reqId' ⟨flight, unset⟩
      have other : reqId' ≠ reqId := by
        rintro rfl
        exact Bool.noConfusion ((Function.update_self reqId' true d.cancelFlag).symm.trans unset)
      exact slotted sessionId' reqId'
        ⟨flight, (Function.update_of_ne other true d.cancelFlag).symm.trans unset⟩
  | @removes reqId inference ok _ running here shape =>
    constructor
    · rintro slotted' inference' ok' running' _ reqId' other ⟨flight, unset⟩
      rw [running, Option.some.injEq] at running'
      subst running'
      have slot := slotted' inference.sessionId reqId'
        ⟨(shape.inFlight _ _).mpr ⟨other, flight⟩, by rw [shape.flags]; exact unset⟩
      rw [shape.slots, Function.update_self] at slot
      cases slot
    · rintro leaves sessionId' reqId' ⟨flight, unset⟩
      obtain ⟨other, flight⟩ := (shape.inFlight _ _).mp flight
      rw [shape.flags] at unset
      have apart : sessionId' ≠ inference.sessionId := by
        rintro rfl
        exact leaves inference ok running here reqId' other ⟨flight, unset⟩
      rw [shape.slots, Function.update_of_ne apart]
      exact slotted sessionId' reqId' ⟨flight, unset⟩

/-! ### Whole runs -/

/-- An action that faults takes no slot away. -/
theorem leavesSlots_of_error {e : Fault} (fault : step L action d = .error e) :
    LeavesSlots d action := by
  cases action with
  | createSession | destroySession | cancel | command => trivial
  | inferStream => cases fault
  | advance thread =>
    cases thread with
    | socket => trivial
    | hal reqId =>
      intro inference ok running here
      simp only [step, advance, running, here] at fault
      cases fault

theorem Registered.start (ready : Bool) (nCtx : Nat) (swapDir : Bytes) (llama : σ) :
    Registered (Daemon.start ready nCtx swapDir llama) where
  fresh := by
    rintro sessionId reqId ⟨inference, running, _⟩
    cases running
  unset _ _ := rfl
  slot := by
    intro sessionId reqId slot
    cases slot

/-- **Cancelling over whole runs.** In every state of a run a cancel would be exact, exactly when no
action of the run takes a slot away. -/
theorem cancel_exact (L : Llama σ) (ready : Bool) (nCtx : Nat) (swapDir : Bytes) (llama : σ)
    (actions : List Action) :
    Throughout (step L) CancelsExactly actions (Daemon.start ready nCtx swapDir llama) ↔
      Along (step L) LeavesSlots actions (Daemon.start ready nCtx swapDir llama) := by
  have start := Registered.start ready nCtx swapDir llama
  have first : Slotted (Daemon.start ready nCtx swapDir llama) := by
    rintro sessionId reqId ⟨⟨inference, running, _⟩, _⟩
    cases running
  have kept : ∀ (d : Daemon σ) action notice d', Registered d →
      step L action d = .ok (notice, d') → Registered d' := fun d action notice d' reg taken =>
    (step_taken taken).requests.registered reg
  refine throughout_iff_along kept (fun d action notice d' reg exact' taken => ?_)
    (fun d action e _ _ fault => leavesSlots_of_error fault) start ((cancelsExactly_iff start).mpr first)
  rw [cancelsExactly_iff (kept d action notice d' reg taken)]
  exact (step_taken taken).requests.slotted reg ((cancelsExactly_iff reg).mp exact')

/-- Two requests on one session; the first one ends before anybody cancels. -/
def overlap : List Action :=
  [.createSession 1, .inferStream 1 (text "ab") 0, .inferStream 1 (text "c") 10, .advance (.hal 1),
    .advance (.hal 1), .advance (.hal 1), .advance (.hal 1), .advance (.hal 1)]

/-- The second request is in flight, and a cancel of its session does not reach it. -/
theorem cancel_exact_overlap :
    ∃ d, run (step (sim 4 10)) overlap (Daemon.start true 4 (text "/s") (Sim.start [])) = .ok d ∧
      InFlight d 1 2 ∧ (cancel 1 d).cancelFlag 2 = false ∧ ¬ CancelsExactly d := by
  have missed : Gives (fun d : Daemon Sim =>
      (d.threads (.hal 2)).map Inference.sessionId = some 1 ∧ (cancel 1 d).cancelFlag 2 = false)
      (run (step (sim 4 10)) overlap (Daemon.start true 4 (text "/s") (Sim.start []))) := by
    decide +kernel
  obtain ⟨d, reach, running, unset⟩ := gives_iff.mp missed
  have flight : InFlight d 1 2 := Option.map_eq_some_iff.mp running
  refine ⟨d, reach, flight, unset, fun exact' => ?_⟩
  have set := (exact'.inFlight 1 2).mpr (Or.inr flight)
  rw [unset] at set
  cases set

end MiniV
