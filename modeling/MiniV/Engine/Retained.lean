/-
**What was recorded for a session, and what is left of it.**

Tokens that `infer` records for a session move between memory and a swap file, and swap-outs prune the
oldest of them. `Carries` compares two worlds: every session has the newest tokens of those it had and
those recorded for it in between, down to the floor of `kMinKeepTokens`.

* `Move.carries`: every move but a creation and a recording carries the sessions over;
* `serve_carries`, `serveEngine_carries`: so does every call, and every request to the engine;
* `serve_follows`: the tokens of a session that no swap-out saved, under any call;
* `sessions_keep_newest`: over whole runs, with all that was recorded since its creation beside each
  session, and with requests to one session leaving the others as they are but for their oldest tokens.
-/

import MiniV.Engine.Reached

namespace MiniV

open MiniV.Library
open MiniV.Library.NodeList (values)

variable {σ : Type} {L : Llama σ} {w w' w'' : World σ} {id : Int} {entry : SessionMeta}
  {file : σ → Bytes → Option (List Token)} {who : Option Int}

/-! ### Tokens of a session -/

/-- The tokens of a session: those in its swap file once it is swapped out, else those in memory. -/
def stored (file : σ → Bytes → Option (List Token)) (w : World σ) (entry : SessionMeta) :
    Option (List Token) :=
  if entry.state = .COLD ∧ entry.swapFilePath ≠ [] then file w.llama entry.swapFilePath
  else some entry.tokens

theorem stored_memory (inMemory : ¬ IsSwapped entry) : stored file w entry = some entry.tokens :=
  if_neg inMemory

theorem stored_hot (hot : entry.state = .HOT) : stored file w entry = some entry.tokens :=
  stored_memory (not_swapped_of_hot hot)

theorem stored_new (noFile : entry.swapFilePath = []) : stored file w entry = some entry.tokens :=
  stored_memory fun swapped => swapped.2 noFile

theorem stored_swapped (swapped : IsSwapped entry) :
    stored file w entry = file w.llama entry.swapFilePath := if_pos swapped

/-- The tokens that an event records for a session. -/
def blockOf (id : Int) : Event → List Token
  | .recorded id' tokens => if id' = id then tokens else []
  | .saved _ _ | .measured _ _ | .erased _ _ | .subtracted _ _ | .swappedOut _ _ _ _
  | .coldEviction _ _ _ _ _ _ | .loopDecode _ => []

/-- All tokens that a list of events records for a session. -/
def recordedFor (id : Int) (events : List Event) : List Token := events.flatMap (blockOf id)

theorem recordedFor_append (id : Int) (first second : List Event) :
    recordedFor id (first ++ second) = recordedFor id first ++ recordedFor id second :=
  List.flatMap_append ..

/-- The event is a save of the session that worked, with which every swap-out of it begins. -/
def Event.saves (id : Int) : Event → Bool
  | .saved id' written => id' = id && written ≠ 0
  | .measured _ _ | .erased _ _ | .subtracted _ _ | .swappedOut _ _ _ _ | .coldEviction _ _ _ _ _ _
  | .recorded _ _ | .loopDecode _ => false

/-- No swap-out has saved the session. -/
def Unsaved (id : Int) (events : List Event) : Prop := ∀ e ∈ events, e.saves id = false

instance (id : Int) (events : List Event) : Decidable (Unsaved id events) :=
  inferInstanceAs (Decidable (∀ e ∈ events, _))

/-- **What events leave of the tokens of a session**: the newest of them and of those recorded for it,
and all of them when no swap-out has saved it. -/
structure Leaves (id : Int) (events : List Event) (tokens tokens' : List Token) : Prop where
  newest : Retains kMinKeepTokens (tokens ++ recordedFor id events) tokens'
  all : Unsaved id events → tokens' = tokens ++ recordedFor id events

/-- A session for which nothing is recorded keeps its tokens. -/
theorem Leaves.silent {events : List Event} (silent : recordedFor id events = [])
    (tokens : List Token) : Leaves id events tokens tokens := by
  constructor
  · rw [silent, List.append_nil]
    exact .refl tokens
  · intro _
    rw [silent, List.append_nil]

theorem Leaves.trans {early late : List Event} {tokens tokens' tokens'' : List Token}
    (first : Leaves id early tokens tokens') (second : Leaves id late tokens' tokens'') :
    Leaves id (early ++ late) tokens tokens'' := by
  constructor
  · rw [recordedFor_append, ← List.append_assoc]
    exact (first.newest.append _).trans second.newest
  · intro unsaved
    have here := first.all fun e member => unsaved e (List.mem_append_left _ member)
    have later := second.all fun e member => unsaved e (List.mem_append_right _ member)
    rw [later, here, recordedFor_append, List.append_assoc]

/-! ### Sessions that are carried over -/

/-- **The sessions are carried over**, with new events that record tokens for `who` only: each session
that is there at the end was there before, and keeps what the events leave of its tokens. -/
def Carries (file : σ → Bytes → Option (List Token)) (who : Option Int) (w w' : World σ) : Prop :=
  ∃ new, w'.trace = w.trace ++ new ∧ (∀ id, who ≠ some id → recordedFor id new = []) ∧
    ∀ id entry', w'.mSessions id = some entry' →
      ∃ entry, w.mSessions id = some entry ∧ ∀ tokens, stored file w entry = some tokens →
        ∃ tokens', stored file w' entry' = some tokens' ∧ Leaves id new tokens tokens'

namespace Carries

theorem refl (w : World σ) : Carries file who w w := by
  refine ⟨[], (List.append_nil _).symm, fun _ _ => rfl, fun id entry found => ?_⟩
  exact ⟨entry, found, fun tokens here => ⟨tokens, here, Leaves.silent rfl tokens⟩⟩

theorem trans (first : Carries file who w w') (second : Carries file who w' w'') :
    Carries file who w w'' := by
  obtain ⟨early, grown, silent, carry⟩ := first
  obtain ⟨late, grown', silent', carry'⟩ := second
  refine ⟨early ++ late, by rw [grown', grown, List.append_assoc], fun id other => ?_,
    fun id entry'' found => ?_⟩
  · rw [recordedFor_append, silent id other, silent' id other, List.append_nil]
  obtain ⟨entry', found', keep'⟩ := carry' id entry'' found
  obtain ⟨entry, found, keep⟩ := carry id entry' found'
  refine ⟨entry, found, fun tokens here => ?_⟩
  obtain ⟨tokens', here', leaves⟩ := keep tokens here
  obtain ⟨tokens'', here'', leaves'⟩ := keep' tokens' here'
  exact ⟨tokens'', here'', leaves.trans leaves'⟩

/-- One session and its own file change, and nothing is recorded for another one. -/
theorem update {after : Option SessionMeta} {new : List Event} (own : OwnPaths w)
    (sessions : w'.mSessions = Function.update w.mSessions id after)
    (grown : w'.trace = w.trace ++ new) (silent : ∀ id', id' ≠ id → recordedFor id' new = [])
    (records : who ≠ some id → recordedFor id new = [])
    (files : ∀ path, path ≠ swapPathFor w id → file w'.llama path = file w.llama path)
    (here : ∀ entry', after = some entry' → ∃ entry, w.mSessions id = some entry ∧
      ∀ tokens, stored file w entry = some tokens → ∃ tokens', stored file w' entry' = some tokens' ∧
        Leaves id new tokens tokens') : Carries file who w w' := by
  refine ⟨new, grown, fun id' other => ?_, fun id' entry' found => ?_⟩
  · by_cases same : id' = id
    · subst same
      exact records other
    · exact silent id' same
  rw [sessions] at found
  by_cases same : id' = id
  · subst same
    rw [Function.update_self] at found
    exact here entry' found
  · rw [Function.update_of_ne same] at found
    refine ⟨entry', found, fun tokens stays => ⟨tokens, ?_, ?_⟩⟩
    · by_cases swapped : IsSwapped entry'
      · rw [stored_swapped swapped] at stays ⊢
        rw [files _ (own.other same found), stays]
      · rw [stored_memory swapped] at stays ⊢
        exact stays
    · exact Leaves.silent (silent id' same) tokens

/-- One session and its own file change, but not its tokens. -/
theorem stays {entry entry' : SessionMeta} {new : List Event} (own : OwnPaths w)
    (found : w.mSessions id = some entry)
    (sessions : w'.mSessions = Function.update w.mSessions id (some entry'))
    (grown : w'.trace = w.trace ++ new) (silent : ∀ id, recordedFor id new = [])
    (files : ∀ path, path ≠ swapPathFor w id → file w'.llama path = file w.llama path)
    (same : ∀ tokens, stored file w entry = some tokens → stored file w' entry' = some tokens) :
    Carries file who w w' :=
  update own sessions grown (fun id' _ => silent id') (fun _ => silent id) files
    (of_some ⟨entry, found, fun tokens here =>
      ⟨tokens, same tokens here, Leaves.silent (silent id) tokens⟩⟩)

/-- One session and its own file go. -/
theorem gone {new : List Event} (own : OwnPaths w)
    (sessions : w'.mSessions = Function.update w.mSessions id none)
    (grown : w'.trace = w.trace ++ new) (silent : ∀ id, recordedFor id new = [])
    (files : ∀ path, path ≠ swapPathFor w id → file w'.llama path = file w.llama path) :
    Carries file who w w' :=
  update own sessions grown (fun id' _ => silent id') (fun _ => silent id) files of_none

end Carries

/-! ### Moves -/

section Files

variable (keeps : KeepsFiles L file)

include keeps

theorem Carries.coldKilled (own : OwnPaths w) {n : Node Int} (found : w.mSessions n.val = some entry)
    (swapped : IsSwapped entry) : Carries file who w (coldKilled L n entry w) := by
  refine Carries.gone own rfl (show _ = w.trace ++ _ from rfl) (fun _ => rfl) fun path other => ?_
  exact coldKilled_files keeps.ownFiles own found swapped other

theorem Carries.dropCold {dropped kept : List (Node Int)} (rep : Rep w) (own : OwnPaths w)
    (split : w.mColdLru = dropped ++ kept) : Carries file who w (dropCold L dropped w) := by
  refine (Move.dropCold_induction (P := fun w' => OwnPaths w' ∧ Carries file who w w') rep split
    ⟨own, .refl w⟩ ?_).2
  rintro w' n entry rep' ⟨own', carries⟩ _ inside found swapped
  exact ⟨(Move.killCold found inside).ownPaths rep' own',
    carries.trans (Carries.coldKilled keeps own' found swapped)⟩

omit keeps in
/-- A pruning leaves the newest tokens, and comes with the save that it follows. -/
theorem leaves_pruned {c : Ctx} (keyed : entry.id = id) (saved : (saveOf L c entry w).1 ≠ 0)
    (large : kMinKeepTokens < entry.tokens.length) :
    Leaves id (saveEvents L c entry w) entry.tokens
      (entry.tokens.drop (pruneAmount entry.tokens.length)) := by
  constructor
  · show Retains _ (entry.tokens ++ []) _
    rw [List.append_nil]
    exact retains_pruned entry.tokens large
  · intro unsaved
    have not := unsaved (.saved entry.id (saveOf L c entry w).1) List.mem_cons_self
    simp [Event.saves, keyed, saved] at not

/-- **Evictions** carry the sessions over: the tokens that a session loses are its oldest ones. -/
theorem Evict.carries (move : Evict L w w') (rep : Rep w) (own : OwnPaths w) :
    Carries file who w w' := by
  cases move with
  | @saveFailed id entry c found hot holds failed =>
    have keyed := rep.keyed id entry found
    refine Carries.stays own found (update_found found).symm rfl (fun _ => rfl) (fun path other => ?_) fun tokens here => ?_
    · exact saveOf_files keeps.ownFiles c entry w (keyed ▸ other)
    · rw [stored_hot hot] at here ⊢
      exact here
  | @prune id entry c found hot holds saved large exceeds =>
    have keyed := rep.keyed id entry found
    refine Carries.update own rfl rfl (fun _ _ => rfl) (fun _ => rfl) (fun path other => ?_)
      (of_some ⟨entry, found, fun tokens here => ⟨_, stored_hot hot, ?_⟩⟩)
    · exact (congrFun (pruneOf_files keeps.ownFiles c _ _) path).trans
        (measureOf_files keeps.ownFiles c entry w (keyed ▸ other))
    · rw [stored_hot hot, Option.some.injEq] at here
      subst here
      exact leaves_pruned keyed saved large
  | @swapOut id entry c it found hot holds full first saved accepted =>
    have keyed := rep.keyed id entry found
    refine Carries.stays own found rfl rfl (fun _ => rfl) (fun path other => ?_) fun tokens here => ?_
    · exact (congrFun (keeps.free c _) path).trans (measureOf_files keeps.ownFiles c entry w (keyed ▸ other))
    · rw [stored_hot hot] at here
      rw [stored_swapped ⟨rfl, swapPathFor_ne_nil w id⟩]
      have path : swapPathFor w id = swapPathFor w entry.id := by rw [keyed]
      show file (L.free c (measureOf L c entry w).2) (swapPathFor w id) = some tokens
      rw [keeps.free, measureOf, keeps.size, path, ← here]
      exact keeps.saved c _ _ _ saved
  | @coldEvict excludeId dropped kept split stopped =>
    refine (Carries.dropCold keeps rep own split).trans ⟨_, rfl, fun _ _ => rfl, fun id entry found => ?_⟩
    exact ⟨entry, found, fun tokens here => ⟨tokens, here, Leaves.silent rfl tokens⟩⟩

theorem Evicts.carries (evicts : Evicts L w w') (rep : Rep w) (own : OwnPaths w) :
    Carries file who w w' := by
  induction evicts with
  | refl => exact .refl w
  | tail before move ih =>
    exact ih.trans (Evict.carries keeps move (Evicts.rep before rep)
      (Moves.ownPaths (Evicts.moves before) rep own))

/-- **A move that creates nothing and records nothing** carries the sessions over. -/
theorem Move.carries (move : Move L w w') (quiet : Quiet w w')
    (known : ∀ id, w.mSessions id = none → w'.mSessions id = none) (rep : Rep w) (own : OwnPaths w) :
    Carries file who w w' := by
  cases move with
  | evict move => exact Evict.carries keeps move rep own
  | create id absent =>
    have after := known id absent
    rw [createSession, absent] at after
    exact absurd ((Function.update_self ..).symm.trans after) (Option.some_ne_none _)
  | @record id entry tokens found => exact (quiet.not_recorded rfl).elim
  | @killHot id entry c it found hot holds inside =>
    exact Carries.gone own rfl rfl (fun _ => rfl) fun path _ => congrFun (keeps.free c _) path
  | @killCold n entry found inside =>
    have swapped : IsSwapped entry :=
      rep.cold.holds_of_mem (NodeList.mem_values.mpr ⟨n, inside, rfl⟩) found
    exact Carries.coldKilled keeps own found swapped
  | @killNew id entry found cold noFile =>
    exact Carries.gone own rfl (List.append_nil _).symm (fun _ => rfl) fun _ _ => rfl
  | @touch id entry it found hot inside =>
    refine Carries.stays own found rfl rfl (fun _ => rfl)
      (fun path _ => congrFun (keeps.clock _) path) fun tokens here => ?_
    rw [stored_hot hot] at here
    exact (stored_hot hot).trans here
  | initFailed failed =>
    refine ⟨[], (List.append_nil _).symm, fun _ _ => rfl, fun id entry found =>
      ⟨entry, found, fun tokens here => ?_⟩⟩
    refine ⟨tokens, ?_, Leaves.silent rfl tokens⟩
    rw [stored, keeps.init]
    exact here
  | @loadFailed id entry found swapped initOk failed =>
    have files : file (L.free w.created (loadOf L entry w).2) = file w.llama := by
      rw [keeps.free, loadOf_files keeps.ownFiles]
    refine Carries.stays own found rfl (List.append_nil _).symm (fun _ => rfl)
      (fun path _ => congrFun files path) fun tokens here => ?_
    -- what the load left in memory does not matter: the file is the session's
    rw [stored_swapped swapped] at here
    refine Eq.trans (stored_swapped ⟨swapped.1, swapped.2⟩) ?_
    exact (congrFun files _).trans here
  | @swapIn id entry it found swapped inside initOk loaded clock reads =>
    have path := (own id entry found).resolve_left swapped.2
    refine Carries.stays own found rfl rfl (fun _ => rfl) (fun path' other => ?_) fun tokens here => ?_
    · show file clock.2 path' = file w.llama path'
      rw [reads, keeps.clock, keeps.unlink _ _ _ (path ▸ other), loadOf_files keeps.ownFiles]
    · obtain ⟨saved, here', fits, read⟩ := keeps.loaded _ _ _ _ loaded
      rw [stored_swapped swapped, ← keeps.init w.created, here', Option.some.injEq] at here
      subst here
      rw [stored_hot rfl]
      exact congrArg some (resize_loadedBuffer read fits)
  | @firstIn id entry found cold noFile initOk clock reads =>
    refine Carries.stays own found rfl (List.append_nil _).symm (fun _ => rfl) (fun path other => ?_)
      fun tokens here => ?_
    · show file clock.2 path = file w.llama path
      rw [reads, keeps.clock, keeps.init]
    · rw [stored_new noFile] at here
      rw [stored_hot rfl]
      exact here

/-! ### Calls -/

theorem killSession_carries {b : Bool} (rep : Rep w) (own : OwnPaths w)
    (result : killSession L id w = .ok (b, w')) : Carries file who w w' := by
  cases found : w.mSessions id with
  | none =>
    simp only [killSession, found] at result
    cases result
    exact .refl w
  | some entry =>
    rcases hot_or_cold entry with hot | cold
    · obtain ⟨c, holds⟩ := rep.ctx_of_hot found hot
      obtain ⟨it, inside, killed⟩ := killSession_hot (L := L) rep found hot holds
      rw [killed] at result
      cases result
      exact Carries.gone own rfl rfl (fun _ => rfl) fun path _ => congrFun (keeps.free c _) path
    · by_cases noFile : entry.swapFilePath = []
      · rw [killSession_new found cold noFile] at result
        cases result
        exact Carries.gone own rfl (List.append_nil _).symm (fun _ => rfl) fun _ _ => rfl
      · obtain ⟨it, _, inside⟩ := rep.cold.node id entry found ⟨cold, noFile⟩
        rw [killSession_cold (n := ⟨it, id⟩) rep found inside] at result
        cases result
        exact Carries.coldKilled keeps own (n := ⟨it, id⟩) found ⟨cold, noFile⟩

theorem Touched.carries (shape : Touched L id entry w w') (found : w.mSessions id = some entry)
    (rep : Rep w) (own : OwnPaths w) : Carries file who w w' := by
  refine Move.carries keeps shape.move shape.quiet (fun id' dead => ?_) rep own
  rw [shape.others id' fun same => ?_, dead]
  rw [same, found] at dead
  cases dead

/-- What `activateForInfer` does after its eviction. -/
theorem Activation.carries {c : Option Ctx} (rest : Activation L id w (.ok (c, w'))) (rep : Rep w)
    (own : OwnPaths w) : Carries file who w w' := by
  cases rest with
  | fails shape =>
    refine Move.carries keeps shape.move shape.quiet (fun id' dead => ?_) rep own
    by_cases same : id' = id
    · have gone := shape.entry
      rw [← same, dead] at gone
      exact Option.not_isSome_iff_eq_none.mp (by rw [gone]; exact Bool.false_ne_true)
    · rw [shape.others id' same, dead]
  | takes shape =>
    refine Move.carries keeps shape.move shape.quiet (fun id' dead => ?_) rep own
    rw [shape.others id' fun same => ?_, dead]
    have living := shape.living
    rw [← same, dead] at living
    cases living

/-- **Every call** but a creation and a recording carries the sessions over. -/
theorem serve_carries {op : Op} {r : Reply} (served : serve L op w = .ok (r, w'))
    (creates : ∀ id, op ≠ .createSession id) (records : ∀ id tokens, op ≠ .recordTokens id tokens)
    (rep : Rep w) (own : OwnPaths w) : Carries file who w w' := by
  have shape := serve_served rep served
  cases shape with
  | taken | creates => exact absurd rfl (creates _)
  | recordsNobody | recordsCold | recordsHot => exact absurd rfl (records _ _)
  | kills shape =>
    obtain ⟨⟨b, w1⟩, killed, result⟩ := bind_eq_ok.mp served
    cases result
    exact killSession_carries keeps rep own killed
  | @limitsHot count _ _ eviction =>
    have carries : Carries file who (withLimits (.setHotLimit count) w) w' :=
      Evicts.carries keeps eviction.evicts (withLimits_rep _ rep) (withLimits_ownPaths _ own)
    exact carries
  | @limitsCold bytes _ shape =>
    have carries : Carries file who (withLimits (.setColdLimit bytes) w) w' :=
      Evict.carries keeps shape.move (withLimits_rep _ rep) (withLimits_ownPaths _ own)
    exact carries
  | activatesNobody absent => exact .refl w
  | activatesHot found hot shape => exact Touched.carries keeps shape found rep own
  | activatesCold found cold eviction rest =>
    exact (Evicts.carries keeps eviction.evicts rep own).trans (Activation.carries keeps rest
      (Evicts.rep eviction.evicts rep) (Moves.ownPaths (Evicts.moves eviction.evicts) rep own))

/-- **Recording** carries the sessions over when its session is HOT: its tokens are in memory. -/
theorem record_carries {tokens : List Token} (rep : Rep w) (own : OwnPaths w)
    (found : w.mSessions id = some entry) (hot : entry.state = .HOT)
    (result : recordTokens L id tokens w = .ok w') : Carries file (some id) w w' := by
  have longer : Carries file (some id) w (recordedOf id entry tokens w) := by
    refine Carries.update own rfl rfl (fun id' other => ?_) (absurd rfl) (fun _ _ => rfl)
      (of_some ⟨entry, found, fun before here => ⟨_, stored_hot hot, ?_⟩⟩)
    · simp [recordedFor, blockOf, Ne.symm other]
    · rw [stored_hot hot, Option.some.injEq] at here
      subst here
      have block : recordedFor id [.recorded id tokens] = tokens := by simp [recordedFor, blockOf]
      refine ⟨?_, fun _ => ?_⟩
      · rw [block]
        exact .refl _
      · rw [block]
        rfl
  obtain ⟨rep1, shape⟩ := recordTokens_hot rep found hot result
  have own1 : OwnPaths (recordedOf id entry tokens w) :=
    Move.ownPaths (L := L) (.record tokens found) rep own
  exact longer.trans (Touched.carries keeps shape (Function.update_self ..) rep1 own1)

/-! ### Inferences -/

omit keeps in
/-- No file and nothing that is recorded changes. -/
theorem Carries.elsewhere {llama : σ} {new : List Event} (files : file llama = file w.llama)
    (silent : ∀ id, recordedFor id new = []) : Carries file who w (w.elsewhere llama (w.trace ++ new)) := by
  refine ⟨new, rfl, fun id _ => silent id, fun id entry found =>
    ⟨entry, found, fun tokens here => ⟨tokens, ?_, ?_⟩⟩⟩
  · rw [stored]
    show (if _ then file llama entry.swapFilePath else _) = some tokens
    rw [files]
    exact here
  · exact Leaves.silent (silent id) tokens

theorem sampledOf_carries (c : Ctx) (w : World σ) : Carries file who w (sampledOf L c w) := by
  have same : sampledOf L c w = w.elsewhere (L.samplerSample c w.llama).2 (w.trace ++ []) := by
    rw [List.append_nil]
    rfl
  rw [same]
  exact .elsewhere (keeps.sample c w.llama) fun _ => rfl

theorem decodedOf_carries (c : Ctx) (tok : Token) (w : World σ) :
    Carries file who w (decodedOf L c tok w) := by
  refine Carries.elsewhere (w := w) ?_ (fun _ => rfl)
  show file (L.decode c [tok] (sampledOf L c w).llama).2 = file w.llama
  rw [keeps.decode]
  exact keeps.sample c w.llama

theorem Generation.carries {c : Ctx} {tokens : List Token} {failed : Option Token}
    (loop : Generation L c w tokens failed w') : Carries file who w w' := by
  induction loop with
  | stops w => exact .refl w
  | samplesEnd w => exact sampledOf_carries keeps c w
  | fails failed => exact decodedOf_carries keeps c _ _
  | decodes decoded later ih => exact (decodedOf_carries keeps c _ _).trans ih

/-- **An inference** carries the sessions over, with the blocks that it records for its own. -/
theorem Inferred.carries {prompt : Bytes} (inferred : Inferred L id prompt w w') (rep : Rep w)
    (own : OwnPaths w) : Carries file (some id) w w' := by
  have activates : ∀ {c : Option Ctx} {w1 : World σ}, activateForInfer L id w = .ok (c, w1) →
      Carries file (some id) w w1 := fun active => serve_carries keeps (serve_activate active)
    (fun _ => nofun) (fun _ _ => nofun) rep own
  have prefills : ∀ (c : Ctx) (w1 : World σ),
      Carries file (some id) w1 (decodeBatch L c (L.tokenize prompt) w1).2 := by
    intro c w1
    have same : (decodeBatch L c (L.tokenize prompt) w1).2 =
        w1.elsewhere (L.decode c (L.tokenize prompt) w1.llama).2 (w1.trace ++ []) := by
      rw [List.append_nil]
      rfl
    rw [same]
    exact .elsewhere (keeps.decode c _ w1.llama) fun _ => rfl
  cases inferred with
  | noContext active => exact activates active
  | @prefillFails c w1 active failed => exact (activates active).trans (prefills c w1)
  | @generates c w1 w2 w3 w' tokens failed active decoded prefill loop records =>
    obtain ⟨entry, found, hot, _⟩ := (activateForInfer_activated rep active).owns
    have rep1 := serve_rep rep (serve_activate active)
    have own1 := serve_ownPaths rep own (serve_activate active)
    have repD : Rep (decodeBatch L c (L.tokenize prompt) w1).2 :=
      rep1.of_same rfl rfl rfl rfl rfl rfl rfl
    have ownD : OwnPaths (decodeBatch L c (L.tokenize prompt) w1).2 := own1
    have rep2 := serve_rep repD (serve_record prefill)
    have own2 := serve_ownPaths repD ownD (serve_record prefill)
    obtain ⟨_, shape⟩ := recordTokens_hot repD found hot prefill
    obtain ⟨entry2, found2, hot2, _⟩ := shape.entry
    have first := (activates active).trans (prefills c w1)
    have second := first.trans (record_carries keeps repD ownD found hot prefill)
    have third := second.trans (Generation.carries keeps loop)
    obtain ⟨llama, trace, rfl⟩ := loop.frame
    exact third.trans (record_carries keeps (rep2.of_same rfl rfl rfl rfl rfl rfl rfl) own2 found2
      hot2 records)

/-! ### Requests -/

/-- The session that a request is for. -/
def EngineOp.session : EngineOp → Option Int
  | .createSession id | .killSession id | .infer id _ _ _ => some id
  | .setHotLimit _ | .setColdLimit _ => none

/-- **Every request** but a creation carries the sessions over. -/
theorem serveEngine_carries {op : EngineOp} {r : EngineReply}
    (served : serveEngine L op w = .ok (r, w')) (creates : ∀ id, op ≠ .createSession id) (rep : Rep w)
    (own : OwnPaths w) : Carries file op.session w w' := by
  have manager : ∀ {call : Op}, serveManager L call w = .ok (r, w') →
      (∀ id, call ≠ .createSession id) → (∀ id tokens, call ≠ .recordTokens id tokens) →
      Carries file op.session w w' := by
    intro call served creates records
    obtain ⟨⟨r', w1⟩, called, result⟩ := bind_eq_ok.mp served
    cases result
    exact serve_carries keeps called creates records rep own
  cases op with
  | createSession id => exact absurd rfl (creates id)
  | killSession id => exact manager served (fun _ => nofun) fun _ _ => nofun
  | setHotLimit count => exact manager served (fun _ => nofun) fun _ _ => nofun
  | setColdLimit bytes => exact manager served (fun _ => nofun) fun _ _ => nofun
  | infer id prompt maxTokens cancelFlag =>
    obtain ⟨⟨a, w1⟩, inferred, result⟩ := bind_eq_ok.mp served
    cases result
    exact Inferred.carries keeps (infer_spec inferred) rep own

/-- **A creation** leaves the other sessions as they are, and its own one with no tokens. -/
structure Creates (file : σ → Bytes → Option (List Token)) (id : Int) (r : EngineReply)
    (w w' : World σ) : Prop where
  reply : r = .manager (.bool (w.mSessions id).isNone)
  taken : w.mSessions id ≠ none → w' = w
  new : w.mSessions id = none → ∃ entry, w'.mSessions id = some entry ∧ stored file w' entry = some []
  others : ∀ id' entry, id' ≠ id → w'.mSessions id' = some entry →
    w.mSessions id' = some entry ∧ stored file w' entry = stored file w entry
  silent : w'.trace = w.trace

theorem serveEngine_creates {r : EngineReply}
    (served : serveEngine L (.createSession id) w = .ok (r, w')) : Creates file id r w w' := by
  obtain ⟨⟨r', w1⟩, called, result⟩ := bind_eq_ok.mp served
  cases result
  simp only [serve, createSession] at called
  cases found : w.mSessions id with
  | some entry =>
    simp only [found, Option.isSome_some, if_true] at called
    cases called
    refine ⟨?_, fun _ => rfl, fun absent => ?_, fun id' entry _ here => ⟨here, rfl⟩, rfl⟩
    · rw [found]
      rfl
    · rw [found] at absent
      cases absent
  | none =>
    simp only [found, Option.isSome_none, Bool.false_eq_true, if_false] at called
    cases called
    refine ⟨?_, fun living => absurd found living, fun _ => ⟨_, Function.update_self .., rfl⟩,
      fun id' entry other here => ⟨?_, ?_⟩, rfl⟩
    · rw [found]
      rfl
    · exact (Function.update_of_ne other _ _).symm.trans here
    · rw [stored, stored]
      show (if _ then file (L.nowMs w.llama).2 _ else _) = _
      rw [keeps.clock]

/-! ### The tokens of one session under a call -/

/-- The tokens that a call records for a session. -/
def Op.tokensFor (id : Int) : Op → List Token
  | .recordTokens id' tokens => if id' = id then tokens else []
  | .createSession _ | .killSession _ | .setHotLimit _ | .setColdLimit _ | .activateForInfer _ => []

/-- **The tokens of a session follow a call**: a new session has none, and one that no swap-out saved
has those it had and those that were recorded for it while it was HOT. -/
def Follows (file : σ → Bytes → Option (List Token)) (id : Int) (op : Op) (w w' : World σ) : Prop :=
  ∀ entry', w'.mSessions id = some entry' →
    (w.mSessions id = none ∧ stored file w' entry' = some []) ∨
      ∃ entry, w.mSessions id = some entry ∧ ∀ tokens, stored file w entry = some tokens →
        ∃ tokens', stored file w' entry' = some tokens' ∧
          ((op.tokensFor id = [] ∨ entry.state = .HOT) → Unsaved id (w'.trace.drop w.trace.length) →
            tokens' = tokens ++ op.tokensFor id)

omit keeps in
/-- A session that a call leaves alone. -/
theorem follows_same {op : Op} (sessions : w'.mSessions id = w.mSessions id)
    (files : file w'.llama = file w.llama) (nothing : op.tokensFor id = []) :
    Follows file id op w w' := by
  intro entry' found'
  refine Or.inr ⟨entry', sessions.symm.trans found', fun tokens here => ⟨tokens, ?_, fun _ _ => ?_⟩⟩
  · rw [stored, files]
    exact here
  · rw [nothing, List.append_nil]

theorem createSession_follows {id' : Int} {r : Reply}
    (served : serve L (.createSession id') w = .ok (r, w')) :
    Follows file id (.createSession id') w w' := by
  have request : serveEngine L (.createSession id') w = .ok (.manager r, w') := by
    rw [serveEngine, serveManager, served, ok_bind]
  have creates := serveEngine_creates keeps request
  intro entry' found'
  by_cases other : id = id'
  · subst other
    cases before : w.mSessions id with
    | none =>
      obtain ⟨entry, found, here⟩ := creates.new before
      rw [found', Option.some.injEq] at found
      exact Or.inl ⟨rfl, found ▸ here⟩
    | some entry =>
      have same : w' = w := creates.taken (by rw [before]; exact nofun)
      subst same
      exact Or.inr ⟨entry', before ▸ found', fun tokens here =>
        ⟨tokens, here, fun _ _ => (List.append_nil _).symm⟩⟩
  · obtain ⟨found, same⟩ := creates.others id entry' other found'
    exact Or.inr ⟨entry', found, fun tokens here =>
      ⟨tokens, same.trans here, fun _ _ => (List.append_nil _).symm⟩⟩

theorem recordTokens_follows {id' : Int} {tokens : List Token} (rep : Rep w)
    (result : recordTokens L id' tokens w = .ok w') :
    Follows file id (.recordTokens id' tokens) w w' := by
  have served := serve_served rep (serve_record result)
  have others : id ≠ id' → Op.tokensFor id (.recordTokens id' tokens) = [] :=
    fun other => if_neg (Ne.symm other)
  generalize reply : Reply.done = r at served
  cases served with
  | recordsNobody absent =>
    intro entry' found'
    by_cases same : id = id'
    · rw [same, absent] at found'
      cases found'
    · exact follows_same rfl rfl (others same) entry' found'
  | @recordsCold id' tokens entry found cold =>
    by_cases same : id = id'
    · subst same
      intro entry' found'
      have after : (recordedOf id entry tokens w).mSessions id = some (longerEntry entry tokens) :=
        Function.update_self ..
      rw [after, Option.some.injEq] at found'
      subst found'
      refine Or.inr ⟨entry, found, fun before here => ?_⟩
      by_cases swapped : IsSwapped entry
      · have swapped' : IsSwapped (longerEntry entry tokens) := swapped
        rw [stored_swapped swapped] at here
        refine ⟨before, (stored_swapped swapped').trans here, ?_⟩
        rintro (nothing | hot) _
        · rw [nothing, List.append_nil]
        · rw [cold] at hot
          cases hot
      · have memory : ¬ IsSwapped (longerEntry entry tokens) := swapped
        rw [stored_memory swapped, Option.some.injEq] at here
        subst here
        refine ⟨_, stored_memory memory, fun _ _ => ?_⟩
        rw [Op.tokensFor, if_pos rfl]
        rfl
    · exact follows_same (Function.update_of_ne same _ _) rfl (others same)
  | @recordsHot id' tokens entry _ found hot shape =>
    have files : file w'.llama = file w.llama := by
      rw [shape.outside]
      exact keeps.clock w.llama
    by_cases same : id = id'
    · subst same
      intro entry' found'
      obtain ⟨after, foundA, hotA, _, tokensA⟩ := shape.entry
      rw [found', Option.some.injEq] at foundA
      subst foundA
      refine Or.inr ⟨entry, found, fun before here => ⟨_, stored_hot hotA, fun _ _ => ?_⟩⟩
      rw [stored_hot hot, Option.some.injEq] at here
      rw [tokensA, ← here, Op.tokensFor, if_pos rfl]
      rfl
    · exact follows_same ((shape.others id same).trans (Function.update_of_ne same _ _)) files
        (others same)

/-- **Every call.** -/
theorem serve_follows {op : Op} {r : Reply} (served : serve L op w = .ok (r, w')) (rep : Rep w)
    (own : OwnPaths w) : Follows file id op w w' := by
  have carried (creates : ∀ id, op ≠ .createSession id)
      (records : ∀ id tokens, op ≠ .recordTokens id tokens) (nothing : op.tokensFor id = []) :
      Follows file id op w w' := by
    have carries : Carries file none w w' := serve_carries keeps served creates records rep own
    obtain ⟨new, grown, silent, carry⟩ := carries
    intro entry' found'
    obtain ⟨entry, found, keep⟩ := carry id entry' found'
    refine Or.inr ⟨entry, found, fun tokens here => ?_⟩
    obtain ⟨tokens', here', leaves⟩ := keep tokens here
    refine ⟨tokens', here', fun _ unsaved => ?_⟩
    rw [grown, List.drop_left] at unsaved
    rw [nothing, leaves.all unsaved, silent id nofun]
  cases op with
  | createSession id' => exact createSession_follows keeps served
  | recordTokens id' tokens =>
    obtain ⟨w1, result, same⟩ := bind_eq_ok.mp served
    cases same
    exact recordTokens_follows keeps rep result
  | killSession | setHotLimit | setColdLimit | activateForInfer =>
    exact carried (fun _ => nofun) (fun _ _ => nofun) rfl

end Files

/-! ### Whole runs -/

/-- All that was recorded for each session since it was created. -/
abbrev History := Int → List Token

/-- A creation starts the history of its session, and what a request records is added. -/
def historyAfter (op : EngineOp) (r : EngineReply) (new : List Event) (history : History) : History :=
  match op, r with
  | .createSession id, .manager (.bool true) => Function.update history id []
  | _, _ => fun id => history id ++ recordedFor id new

/-- One request, with the history beside the engine. -/
def serveRecording (L : Llama σ) (op : EngineOp) (s : World σ × History) :
    Except Fault (EngineReply × (World σ × History)) := do
  let (r, w) ← serveEngine L op s.1
  .ok (r, w, historyAfter op r (w.trace.drop s.1.trace.length) s.2)

/-- **Every session keeps the newest tokens of its history**, in memory or in its swap file, and no
fewer than the floor. -/
structure KeepsNewest (file : σ → Bytes → Option (List Token)) (s : World σ × History) : Prop where
  hot : ∀ id entry, s.1.mSessions id = some entry → entry.state = .HOT →
    Retains kMinKeepTokens (s.2 id) entry.tokens
  swapped : ∀ id entry, s.1.mSessions id = some entry → entry.state = .COLD →
    entry.swapFilePath ≠ [] → ∃ tokens, file s.1.llama entry.swapFilePath = some tokens ∧
      Retains kMinKeepTokens (s.2 id) tokens

/-- A request takes from the sessions that it is not for at most their oldest tokens. -/
def SparesOthers (file : σ → Bytes → Option (List Token)) (op : EngineOp) (w w' : World σ) : Prop :=
  ∀ id entry', op.session ≠ some id → w'.mSessions id = some entry' →
    ∃ entry tokens tokens', w.mSessions id = some entry ∧ stored file w entry = some tokens ∧
      stored file w' entry' = some tokens' ∧ Retains kMinKeepTokens tokens tokens'

/-- What carries `KeepsNewest` over a run. -/
structure Remembers (L : Llama σ) (nCtx : Nat) (swapDir : Bytes)
    (file : σ → Bytes → Option (List Token)) (s : World σ × History) : Prop where
  reached : Reached L nCtx swapDir s.1
  keeps : ∀ id entry, s.1.mSessions id = some entry →
    ∃ tokens, stored file s.1 entry = some tokens ∧ Retains kMinKeepTokens (s.2 id) tokens

section Remembers

variable {s s' : World σ × History} {op : EngineOp} {r : EngineReply} {nCtx : Nat} {swapDir : Bytes}

theorem Remembers.newest (remembers : Remembers L nCtx swapDir file s) : KeepsNewest file s where
  hot id entry found hot := by
    obtain ⟨tokens, here, retains⟩ := remembers.keeps id entry found
    rw [stored_hot hot, Option.some.injEq] at here
    exact here ▸ retains
  swapped id entry found cold path := by
    obtain ⟨tokens, here, retains⟩ := remembers.keeps id entry found
    rw [stored_swapped ⟨cold, path⟩] at here
    exact ⟨tokens, here, retains⟩

theorem Remembers.start (L : Llama σ) (nCtx : Nat) (swapDir : Bytes) (llama : σ)
    (file : σ → Bytes → Option (List Token)) :
    Remembers L nCtx swapDir file (World.start nCtx swapDir llama, fun _ => []) where
  reached := .start llama
  keeps id entry found := by cases found

theorem serveRecording_ok (result : serveRecording L op s = .ok (r, s')) :
    serveEngine L op s.1 = .ok (r, s'.1) ∧
      s'.2 = historyAfter op r (s'.1.trace.drop s.1.trace.length) s.2 := by
  obtain ⟨⟨r', w1⟩, served, result⟩ := bind_eq_ok.mp result
  cases result
  exact ⟨served, rfl⟩

/-- A request that creates nothing adds what it records to the history. -/
theorem historyAfter_other (creates : ∀ id, op ≠ .createSession id) (new : List Event)
    (history : History) : historyAfter op r new history = fun id => history id ++ recordedFor id new := by
  cases op with
  | createSession id => exact absurd rfl (creates id)
  | killSession | setHotLimit | setColdLimit | infer => rfl

/-- **A request that creates nothing.** -/
theorem Remembers.carry (remembers : Remembers L nCtx swapDir file s)
    (carries : Carries file op.session s.1 s'.1) (creates : ∀ id, op ≠ .createSession id)
    (reached : Reached L nCtx swapDir s'.1)
    (history : s'.2 = historyAfter op r (s'.1.trace.drop s.1.trace.length) s.2) :
    Remembers L nCtx swapDir file s' ∧ SparesOthers file op s.1 s'.1 := by
  obtain ⟨new, grown, silent, carry⟩ := carries
  rw [grown, List.drop_left, historyAfter_other creates] at history
  refine ⟨⟨reached, fun id entry' found => ?_⟩, fun id entry' other found => ?_⟩
  · obtain ⟨entry, before, keep⟩ := carry id entry' found
    obtain ⟨tokens, here, retains⟩ := remembers.keeps id entry before
    obtain ⟨tokens', here', leaves⟩ := keep tokens here
    refine ⟨tokens', here', ?_⟩
    rw [history]
    exact (retains.append _).trans leaves.newest
  · obtain ⟨entry, before, keep⟩ := carry id entry' found
    obtain ⟨tokens, here, _⟩ := remembers.keeps id entry before
    obtain ⟨tokens', here', leaves⟩ := keep tokens here
    have newest := leaves.newest
    rw [silent id other, List.append_nil] at newest
    exact ⟨entry, tokens, tokens', before, here, here', newest⟩

/-- **A creation.** -/
theorem Remembers.create {id : Int} (remembers : Remembers L nCtx swapDir file s)
    (creates : Creates file id r s.1 s'.1) (reached : Reached L nCtx swapDir s'.1)
    (history : s'.2 = historyAfter (.createSession id) r (s'.1.trace.drop s.1.trace.length) s.2) :
    Remembers L nCtx swapDir file s' ∧ SparesOthers file (.createSession id) s.1 s'.1 := by
  have nothing : s'.1.trace.drop s.1.trace.length = [] := by
    rw [creates.silent, List.drop_length]
  rw [nothing, creates.reply] at history
  have spares : SparesOthers file (.createSession id) s.1 s'.1 := by
    intro id' entry other found
    obtain ⟨before, same⟩ := creates.others id' entry (fun equal => other (by rw [equal]; rfl)) found
    obtain ⟨tokens, here, _⟩ := remembers.keeps id' entry before
    exact ⟨entry, tokens, tokens, before, here, same.trans here, .refl tokens⟩
  refine ⟨⟨reached, fun id' entry found => ?_⟩, spares⟩
  cases absent : s.1.mSessions id with
  | some old =>
    have same : s'.1 = s.1 := creates.taken (by rw [absent]; exact nofun)
    rw [same] at found ⊢
    rw [history, absent]
    show ∃ tokens, _ ∧ Retains _ (s.2 id' ++ []) tokens
    rw [List.append_nil]
    exact remembers.keeps id' entry found
  | none =>
    rw [history, absent]
    show ∃ tokens, _ ∧ Retains _ (Function.update s.2 id [] id') tokens
    by_cases own : id' = id
    · subst own
      obtain ⟨entry', found', here⟩ := creates.new absent
      rw [found, Option.some.injEq] at found'
      subst found'
      rw [Function.update_self]
      exact ⟨[], here, .refl []⟩
    · obtain ⟨before, same⟩ := creates.others id' entry own found
      rw [Function.update_of_ne own, same]
      exact remembers.keeps id' entry before

/-- **One request.** -/
theorem Remembers.step (keeps : KeepsFiles L file) (remembers : Remembers L nCtx swapDir file s)
    (result : serveRecording L op s = .ok (r, s')) :
    Remembers L nCtx swapDir file s' ∧ SparesOthers file op s.1 s'.1 := by
  obtain ⟨served, history⟩ := serveRecording_ok result
  have reached := remembers.reached.serveEngine served
  by_cases creates : ∀ id, op ≠ .createSession id
  · exact remembers.carry (serveEngine_carries keeps served creates remembers.reached.rep
      remembers.reached.paths) creates reached history
  · obtain ⟨id, rfl⟩ := not_forall_not.mp creates
    exact remembers.create (serveEngine_creates keeps served) reached history

end Remembers

/-- **Sessions keep their newest tokens**, in every state of a run, and every request takes from the
sessions that it is not for at most their oldest ones. -/
theorem sessions_keep_newest (keeps : KeepsFiles L file) (nCtx : Nat) (swapDir : Bytes) (llama : σ)
    (ops : List EngineOp) :
    Throughout (serveRecording L) (KeepsNewest file) ops
        (World.start nCtx swapDir llama, fun _ => []) ∧
      Along (serveRecording L) (fun s op => ∀ r s', serveRecording L op s = .ok (r, s') →
        SparesOthers file op s.1 s'.1) ops (World.start nCtx swapDir llama, fun _ => []) := by
  have start := Remembers.start L nCtx swapDir llama file
  have kept : ∀ s op r s', Remembers L nCtx swapDir file s → True →
      serveRecording L op s = .ok (r, s') → Remembers L nCtx swapDir file s' :=
    fun s op r s' remembers _ result => (remembers.step keeps result).1
  constructor
  · exact (throughout_of_invariant kept start (along_trivial ops _)).mono fun s inv => inv.newest
  · exact along_of_invariant kept (fun s op remembers _ r s' result =>
      (remembers.step keeps result).2) start (along_trivial ops _)

/-- Two sessions of eighty-one tokens and a budget for one and a half. The second is pruned when it is
swapped out for the first, which is loaded back; then the second is killed, and created again. -/
def crowded : List EngineOp :=
  [.setHotLimit 1, .setColdLimit 170, .createSession 1,
    .infer 1 (List.replicate 80 (97 : UInt8)) 10 none, .createSession 2,
    .infer 2 (List.replicate 80 (98 : UInt8)) 10 none, .infer 1 (text "c") 10 none, .killSession 2,
    .createSession 2, .infer 2 (text "d") 10 none]

theorem sessions_keep_newest_crowded :
    (Throughout (serveRecording (sim 200 10)) (KeepsNewest simView.fileTokens) crowded
        (World.start 200 (text "/s") (Sim.start [7, 2, 8, 2, 9]), fun _ => []) ∧
      Along (serveRecording (sim 200 10)) (fun s op => ∀ r s',
        serveRecording (sim 200 10) op s = .ok (r, s') → SparesOthers simView.fileTokens op s.1 s'.1)
        crowded (World.start 200 (text "/s") (Sim.start [7, 2, 8, 2, 9]), fun _ => [])) ∧
    Gives (fun s => (s.2 2).length = 81 ∧
        (s.1.mSessions 2).map (fun entry => (entry.state, entry.tokens.length)) = some (.COLD, 64))
      (run (serveRecording (sim 200 10)) (crowded.take 7)
        (World.start 200 (text "/s") (Sim.start [7, 2, 8, 2, 9]), fun _ => [])) ∧
    Gives (fun s => (s.2 1).length = 83 ∧
        (s.1.mSessions 1).map (fun entry => (entry.state, entry.tokens.length)) = some (.COLD, 83))
      (run (serveRecording (sim 200 10)) crowded
        (World.start 200 (text "/s") (Sim.start [7, 2, 8, 2, 9]), fun _ => [])) :=
  ⟨sessions_keep_newest (sim_documented 200 10).keepsFiles 200 (text "/s")
    (Sim.start [7, 2, 8, 2, 9]) crowded, by decide +kernel, by decide +kernel⟩

end MiniV
