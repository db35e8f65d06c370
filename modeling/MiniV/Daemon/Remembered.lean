/-
**What a session remembers when inferences overlap.**

An inference records its tokens at two moments, and its session may be swapped out by then. What is
recorded for a session that is swapped out goes to an entry in memory that the next swap-in overwrites
from the file: it is never seen again. Everything else is remembered, but for the oldest tokens that
swap-outs prune.

* `historyInTime`: what is recorded for each session in time, since it was created;
* `serve_remembers`: one call, of whichever inference it is;
* `remembers_in_time`: over whole runs, every session has the newest tokens of just these.
-/

import MiniV.Daemon.Crash
import MiniV.Engine.Retained

namespace MiniV

open MiniV.Library

variable {σ : Type} {L : Llama σ} {w w' : World σ} {d d' : Daemon σ} {id : Int} {entry : SessionMeta}
  {nCtx : Nat} {swapDir : Bytes} {file : σ → Bytes → Option (List Token)} {who : Option Int}

/-! ### What is recorded in time -/

/-- What events record for a session with this entry: nothing once it is swapped out. -/
def recordedInTime (id : Int) (entry : SessionMeta) (new : List Event) : List Token :=
  if entry.state = .COLD ∧ entry.swapFilePath ≠ [] then [] else recordedFor id new

/-- **The history of each session** after one more action: a session starts with none, and goes on with
what is recorded for it in time. -/
def historyInTime (w : World σ) (new : List Event) (history : History) : History := fun id =>
  match w.mSessions id with
  | none => []
  | some entry => history id ++ recordedInTime id entry new

/-- One action, with the history beside the daemon. -/
def stepInTime (L : Llama σ) (action : Action) (s : Daemon σ × History) :
    Except Fault (Notice × (Daemon σ × History)) := do
  let (notice, d) ← step L action s.1
  .ok (notice, d, historyInTime s.1.world (d.world.trace.drop s.1.world.trace.length) s.2)

theorem recordedInTime_swapped (swapped : IsSwapped entry) (new : List Event) :
    recordedInTime id entry new = [] := if_pos swapped

theorem recordedInTime_memory (memory : ¬ IsSwapped entry) (new : List Event) :
    recordedInTime id entry new = recordedFor id new := if_neg memory

theorem recordedInTime_silent {new : List Event} (silent : recordedFor id new = []) :
    recordedInTime id entry new = [] := by
  rw [recordedInTime, silent, ite_self]

/-! ### One action -/

/-- **The sessions remember what is recorded in time**: a session that is there at the end is new and has
no tokens, or has the newest of those it had and of those recorded for it in time, and all of them when
no swap-out has saved it. -/
def Remembering (file : σ → Bytes → Option (List Token)) (w w' : World σ) : Prop :=
  ∃ new, w'.trace = w.trace ++ new ∧ ∀ id entry', w'.mSessions id = some entry' →
    (w.mSessions id = none ∧ stored file w' entry' = some []) ∨
      ∃ entry, w.mSessions id = some entry ∧ ∀ tokens, stored file w entry = some tokens →
        ∃ tokens', stored file w' entry' = some tokens' ∧
          Retains kMinKeepTokens (tokens ++ recordedInTime id entry new) tokens' ∧
          (Unsaved id new → tokens' = tokens ++ recordedInTime id entry new)

/-- Nothing happens to a session. -/
theorem Remembering.refl (w : World σ) : Remembering file w w := by
  refine ⟨[], (List.append_nil _).symm, fun id entry found => Or.inr ⟨entry, found, ?_⟩⟩
  intro tokens here
  rw [recordedInTime_silent rfl, List.append_nil]
  exact ⟨tokens, here, .refl tokens, fun _ => rfl⟩

/-- Sessions that are carried over remember what is recorded, if it is recorded in time. -/
theorem Carries.remembering (carries : Carries file who w w')
    (inTime : ∀ id entry, who = some id → w.mSessions id = some entry → ¬ IsSwapped entry) :
    Remembering file w w' := by
  obtain ⟨new, grown, silent, carry⟩ := carries
  refine ⟨new, grown, fun id entry' found' => ?_⟩
  obtain ⟨entry, found, keep⟩ := carry id entry' found'
  have block : recordedInTime id entry new = recordedFor id new := by
    by_cases own : who = some id
    · exact recordedInTime_memory (inTime id entry own found) new
    · rw [recordedInTime_silent (silent id own), silent id own]
  refine Or.inr ⟨entry, found, fun tokens here => ?_⟩
  obtain ⟨tokens', here', leaves⟩ := keep tokens here
  rw [block]
  exact ⟨tokens', here', leaves.newest, leaves.all⟩

/-- No session, no file and nothing that is recorded changes. -/
theorem Remembering.elsewhere {llama : σ} {trace new : List Event} (grown : trace = w.trace ++ new)
    (files : file llama = file w.llama) (silent : ∀ id, recordedFor id new = []) :
    Remembering file w (w.elsewhere llama trace) := by
  subst grown
  have carries : Carries file none w (w.elsewhere llama (w.trace ++ new)) :=
    Carries.elsewhere files silent
  exact carries.remembering fun _ _ same => (by cases same)

section Files

variable (keeps : KeepsFiles L file)

include keeps

/-- A creation. -/
theorem createSession_remembers {r : Reply} (served : serve L (.createSession id) w = .ok (r, w')) :
    Remembering file w w' := by
  have request : serveEngine L (.createSession id) w = .ok (.manager r, w') := by
    rw [serveEngine, serveManager, served, ok_bind]
  have creates := serveEngine_creates keeps request
  have stays : ∀ id' entry', w.mSessions id' = some entry' →
      stored file w' entry' = stored file w entry' →
      ∃ entry, w.mSessions id' = some entry ∧ ∀ tokens, stored file w entry = some tokens →
        ∃ tokens', stored file w' entry' = some tokens' ∧
          Retains kMinKeepTokens (tokens ++ recordedInTime id' entry []) tokens' ∧
          (Unsaved id' [] → tokens' = tokens ++ recordedInTime id' entry []) := by
    intro id' entry' found same
    refine ⟨entry', found, fun tokens here => ?_⟩
    rw [recordedInTime_silent rfl, List.append_nil]
    exact ⟨tokens, same.trans here, .refl tokens, fun _ => rfl⟩
  refine ⟨[], by rw [creates.silent, List.append_nil], fun id' entry' found' => ?_⟩
  by_cases own : id' = id
  · subst own
    cases before : w.mSessions id' with
    | none =>
      obtain ⟨entry, found, here⟩ := creates.new before
      rw [found', Option.some.injEq] at found
      exact Or.inl ⟨rfl, found ▸ here⟩
    | some entry =>
      have same : w' = w := creates.taken (by rw [before]; exact Option.some_ne_none entry)
      rw [same] at found' stays ⊢
      rw [← before]
      exact Or.inr (stays id' entry' found' rfl)
  · obtain ⟨found, same⟩ := creates.others id' entry' own found'
    exact Or.inr (stays id' entry' found same)

/-- **A recording**: what comes for a session that is swapped out goes to its entry alone. -/
theorem recordTokens_remembers {tokens : List Token} (rep : Rep w) (own : OwnPaths w)
    (result : recordTokens L id tokens w = .ok w') : Remembering file w w' := by
  have served := serve_served rep (serve_record result)
  generalize reply : Reply.done = r at served
  cases served with
  | recordsNobody absent => exact .refl w
  | recordsHot found hot shape =>
    refine (record_carries keeps rep own found hot result).remembering ?_
    intro id' entry' same found'
    cases same
    rw [found, Option.some.injEq] at found'
    exact found' ▸ not_swapped_of_hot hot
  | @recordsCold id tokens entry found cold =>
    refine ⟨_, rfl, fun id' entry' found' => Or.inr ?_⟩
    by_cases other : id' = id
    · subst other
      have after : (recordedOf id' entry tokens w).mSessions id' = some (longerEntry entry tokens) :=
        Function.update_self ..
      rw [after, Option.some.injEq] at found'
      subst found'
      refine ⟨entry, found, fun before here => ?_⟩
      by_cases swapped : IsSwapped entry
      · have swapped' : IsSwapped (longerEntry entry tokens) := swapped
        rw [stored_swapped swapped] at here
        rw [recordedInTime_swapped swapped, List.append_nil]
        exact ⟨before, (stored_swapped swapped').trans here, .refl before, fun _ => rfl⟩
      · have memory : ¬ IsSwapped (longerEntry entry tokens) := swapped
        have block : recordedFor id' [.recorded id' tokens] = tokens := by simp [recordedFor, blockOf]
        rw [stored_memory swapped, Option.some.injEq] at here
        subst here
        rw [recordedInTime_memory swapped, block]
        exact ⟨_, stored_memory memory, .refl _, fun _ => rfl⟩
    · have silent : recordedFor id' [.recorded id tokens] = [] := by
        simp [recordedFor, blockOf, Ne.symm other]
      have found : w.mSessions id' = some entry' :=
        (Function.update_of_ne other _ _).symm.trans found'
      refine ⟨entry', found, fun before here => ?_⟩
      rw [recordedInTime_silent silent, List.append_nil]
      exact ⟨before, here, .refl before, fun _ => rfl⟩

/-- **Every call** of the manager. -/
theorem serve_remembers {op : Op} {r : Reply} (rep : Rep w) (own : OwnPaths w)
    (served : serve L op w = .ok (r, w')) : Remembering file w w' := by
  have carried (creates : ∀ id, op ≠ .createSession id)
      (records : ∀ id tokens, op ≠ .recordTokens id tokens) : Remembering file w w' := by
    have carries : Carries file none w w' := serve_carries keeps served creates records rep own
    exact carries.remembering fun _ _ same => (by cases same)
  cases op with
  | createSession id => exact createSession_remembers keeps served
  | recordTokens id tokens =>
    obtain ⟨w1, result, same⟩ := bind_eq_ok.mp served
    cases same
    exact recordTokens_remembers keeps rep own result
  | killSession | setHotLimit | setColdLimit | activateForInfer =>
    exact carried (fun _ => nofun) fun _ _ => nofun

/-- **Every action.** -/
theorem Goes.remembering (goes : Goes L w w') (rep : Rep w) (own : OwnPaths w) :
    Remembering file w w' := by
  cases goes with
  | rests => exact .refl w
  | calls served => exact serve_remembers keeps rep own served
  | decodes => exact .elsewhere (List.append_nil _).symm (keeps.decode _ _ w.llama) fun _ => rfl
  | samples => exact .elsewhere (List.append_nil _).symm (keeps.sample _ w.llama) fun _ => rfl
  | loopDecodes => exact .elsewhere rfl (keeps.decode _ _ w.llama) fun _ => rfl

end Files

/-! ### Whole runs -/

/-- **Every session remembers its history**: in memory or in its swap file it has the newest tokens, no
fewer than the floor, and all of them when no swap-out has ever saved a session of its id. -/
def Remembered (file : σ → Bytes → Option (List Token)) (w : World σ) (history : History) : Prop :=
  ∀ id entry, w.mSessions id = some entry → ∃ tokens, stored file w entry = some tokens ∧
    Retains kMinKeepTokens (history id) tokens ∧ (Unsaved id w.trace → tokens = history id)

theorem Remembering.remembered {history : History} (step : Remembering file w w')
    (before : Remembered file w history) :
    Remembered file w' (historyInTime w (w'.trace.drop w.trace.length) history) := by
  obtain ⟨new, grown, each⟩ := step
  rw [grown, List.drop_left]
  intro id entry' found'
  rcases each id entry' found' with ⟨absent, here⟩ | ⟨entry, found, keep⟩
  · rw [historyInTime, absent]
    exact ⟨[], here, .refl [], fun _ => rfl⟩
  · obtain ⟨tokens, here, retains, all⟩ := before id entry found
    obtain ⟨tokens', here', newest, whole⟩ := keep tokens here
    rw [historyInTime, found]
    refine ⟨tokens', here', (retains.append _).trans newest, fun unsaved => ?_⟩
    rw [grown] at unsaved
    rw [whole fun e member => unsaved e (List.mem_append_right _ member),
      all fun e member => unsaved e (List.mem_append_left _ member)]

/-- The history is kept beside the daemon and does not disturb it. -/
theorem run_inTime {actions : List Action} (reach : run (step L) actions d = .ok d')
    (history : History) :
    ∃ history', run (stepInTime L) actions (d, history) = .ok (d', history') := by
  induction actions generalizing d history with
  | nil =>
    cases reach
    exact ⟨history, rfl⟩
  | cons action actions ih =>
    obtain ⟨notice, mid, result, later⟩ := run_cons_eq_ok.mp reach
    obtain ⟨history', rest⟩ := ih later _
    refine ⟨history', run_cons_eq_ok.mpr ⟨notice, _, ?_, rest⟩⟩
    rw [stepInTime, result, ok_bind]

/-- **What a session remembers**, after any actions in any order: the newest tokens of all that was
recorded for it in time since it was created. -/
theorem remembers_in_time (L : Llama σ) (keeps : KeepsFiles L file) {ready : Bool} {llama : σ}
    {actions : List Action}
    (reach : run (step L) actions (Daemon.start ready nCtx swapDir llama) = .ok d) :
    ∃ history, run (stepInTime L) actions (Daemon.start ready nCtx swapDir llama, fun _ => []) =
        .ok (d, history) ∧ Remembered file d.world history := by
  obtain ⟨history, recorded⟩ := run_inTime reach fun _ => []
  refine ⟨history, recorded, ?_⟩
  have both : Reached L nCtx swapDir d.world ∧ Remembered file d.world history := by
    refine run_invariant' (I := fun s : Daemon σ × History => Reached L nCtx swapDir s.1.world ∧
      Remembered file s.1.world s.2) ?_ ⟨.start llama, fun id entry found => (by cases found)⟩ recorded
    rintro ⟨d, history⟩ action notice ⟨d', history'⟩ ⟨reached, remembered⟩ result
    obtain ⟨⟨notice, d1⟩, taken, result⟩ := bind_eq_ok.mp result
    cases result
    have taken := step_taken taken
    exact ⟨taken.reached reached,
      (Goes.remembering keeps taken.goes reached.rep reached.paths).remembered remembered⟩
  exact both.2

/-- A session is swapped out between the decoding of a prompt and its recording, and asked again. -/
def overtaken : List Action :=
  [.createSession 1, .inferStream 1 (text "abc") 0, .advance (.hal 1), .advance (.hal 1),
    .command (.setHotLimit 1)] ++ List.replicate 3 (.advance (.hal 1)) ++
  .inferStream 1 (text "d") 0 :: List.replicate 5 (.advance (.hal 2))

/-- What was recorded too late is not in its history, and not in its tokens. -/
theorem remembers_in_time_overtaken : ∃ d entry history,
    run (step (sim 9 10)) overtaken (Daemon.start true 9 (text "/s") (Sim.start [])) = .ok d ∧
    d.world.mSessions 1 = some entry ∧ entry.tokens = [100] ∧
    recordedFor 1 d.world.trace = [97, 98, 99, 100] ∧
    run (stepInTime (sim 9 10)) overtaken
      (Daemon.start true 9 (text "/s") (Sim.start []), fun _ => []) = .ok (d, history) ∧
    Remembered simView.fileTokens d.world history := by
  have state : ∃ d, run (step (sim 9 10)) overtaken (Daemon.start true 9 (text "/s") (Sim.start [])) =
      .ok d ∧ (d.world.mSessions 1).map SessionMeta.tokens = some [100] ∧
        recordedFor 1 d.world.trace = [97, 98, 99, 100] := by
    refine gives_iff.mp ?_
    decide +kernel
  obtain ⟨d, reach, tokens, recorded⟩ := state
  obtain ⟨entry, found, tokens⟩ := Option.map_eq_some_iff.mp tokens
  obtain ⟨history, inTime, remembered⟩ :=
    remembers_in_time (sim 9 10) (sim_documented 9 10).keepsFiles reach
  exact ⟨d, entry, history, reach, found, tokens, recorded, inTime, remembered⟩

end MiniV
