/-
**The recorded tokens and the KV cache.**

`Mirrored V w`: the context of every HOT session holds exactly its recorded tokens, from position 0
on. An inference records its prompt after the prefill was decoded, and at its end all tokens the
loop generated; the loop appends a token to these before it decodes it, so a decode that fails
leaves one token recorded that the context does not hold.

* `Inferred.kept`: an inference none of whose loop decodes fails keeps every session;
* `Inferred.not_mirrored`: one with a loop decode that fails breaks the mirror;
* `tokens_mirror_cache`: over whole runs, the mirror holds in every state exactly as long as no
  loop decode fails.
-/

import MiniV.Engine.Infer
import MiniV.Engine.Kept
import MiniV.Llama.Sim
import MiniV.Session.Activation

namespace MiniV

open MiniV.Library
open MiniV.Library.NodeList (values)

variable {σ : Type} {L : Llama σ} {V : View σ} {w w' : World σ} {bounded : Prop} {id : Int} {c : Ctx}

/-! ### The decodes of the loop in the trace -/

/-- A decode in the loop that succeeded, or none. -/
def DecodeWorked : Event → Prop
  | .loopDecode rc => rc = 0
  | _ => True

instance : DecidablePred DecodeWorked
  | .loopDecode rc => inferInstanceAs (Decidable (rc = 0))
  | .saved _ _ | .measured _ _ | .erased _ _ | .subtracted _ _ | .swappedOut _ _ _ _
  | .coldEviction _ _ _ _ _ _ | .recorded _ _ => isTrue trivial

/-- No decode of a generated token has failed. -/
def LoopDecoded (w : World σ) : Prop := ∀ e ∈ w.trace, DecodeWorked e

instance (w : World σ) : Decidable (LoopDecoded w) :=
  inferInstanceAs (Decidable (∀ e ∈ w.trace, DecodeWorked e))

theorem LoopDecoded.before {P : Event → Prop} (adds : Adds P w w') (worked : LoopDecoded w') : LoopDecoded w := by
  obtain ⟨new, grown, _⟩ := adds
  exact fun e member => worked e (grown ▸ List.mem_append_left _ member)

theorem LoopDecoded.after (worked : LoopDecoded w) (adds : Adds DecodeWorked w w') :
    LoopDecoded w' := by
  obtain ⟨new, grown, fine⟩ := adds
  intro e member
  rw [grown] at member
  exact (List.mem_append.mp member).elim (worked e) (fine e)

theorem DecodeWorked.of_managing {e : Event} (managing : Managing e) : DecodeWorked e := by
  cases e with
  | loopDecode => exact managing.elim
  | _ => trivial

/-- No move of the manager decodes. -/
theorem Move.adds (move : Move L w w') : Adds DecodeWorked w w' := by
  have pair : ∀ (e₁ e₂ : Event), DecodeWorked e₁ → DecodeWorked e₂ →
      ∀ e ∈ [e₁, e₂], DecodeWorked e := by
    intro e₁ e₂ first second e member
    simp only [List.mem_cons, List.not_mem_nil, or_false] at member
    rcases member with rfl | rfl
    · exact first
    · exact second
  cases move with
  | create id absent =>
    refine .refl ?_
    rw [createSession, absent]
    rfl
  | evict move => exact (Evict.adds move).mono fun e => DecodeWorked.of_managing
  | killHot found hot holds inside => exact .one (e := .erased _ _) rfl trivial
  | killCold found inside =>
    exact ⟨_, rfl, pair (.erased _ _) (.subtracted _ _) trivial trivial⟩
  | record tokens found => exact .one (e := .recorded _ _) rfl trivial
  | touch found hot inside => exact .one (e := .erased _ _) rfl trivial
  | swapIn found swapped inside initOk loaded clock reads =>
    exact ⟨_, rfl, pair (.erased _ _) (.subtracted _ _) trivial trivial⟩
  | killNew | initFailed | loadFailed | firstIn => exact .refl rfl

theorem Moves.adds (moves : Moves L w w') : Adds DecodeWorked w w' := by
  induction moves with
  | refl => exact .refl rfl
  | tail before move ih => exact ih.trans move.adds

theorem Move.samePlace (move : Move L w w') : SamePlace w w' := by
  cases move with
  | create id absent =>
    rw [createSession, absent]
    exact ⟨rfl, rfl⟩
  | evict move =>
    cases move with
    | @coldEvict excludeId dropped kept split stopped =>
      exact ⟨dropCold_const (fun w => w.mSwapDir) (fun _ _ _ => rfl) dropped w,
        dropCold_const (fun w => w.nCtx) (fun _ _ _ => rfl) dropped w⟩
    | _ => exact ⟨rfl, rfl⟩
  | _ => exact ⟨rfl, rfl⟩

theorem SamePlace.trans {w'' : World σ} (first : SamePlace w w') (second : SamePlace w' w'') :
    SamePlace w w'' := ⟨second.dir.trans first.dir, second.nCtx.trans first.nCtx⟩

theorem Moves.samePlace (moves : Moves L w w') : SamePlace w w' := by
  induction moves with
  | refl => exact ⟨rfl, rfl⟩
  | tail before move ih => exact ih.trans move.samePlace

/-! ### What the calls carry on -/

/-- From `w` to `w'` the sessions stay kept, and no decode fails. -/
structure Carried (V : View σ) (bounded : Prop) (w w' : World σ) : Prop where
  rep : Rep w'
  kept : Kept V bounded atRest w'
  adds : Adds DecodeWorked w w'
  place : SamePlace w w'

theorem Carried.trans {w'' : World σ} (first : Carried V bounded w w')
    (second : Carried V bounded w' w'') : Carried V bounded w w'' :=
  ⟨second.rep, second.kept, first.adds.trans second.adds, first.place.trans second.place⟩

section Documented

variable (doc : Documented L V) (loads : bounded → LoadsBack L V)

include doc loads

theorem serve_carried {op : Op} {r : Reply} (served : serve L op w = .ok (r, w'))
    (silent : ∀ id tokens, op ≠ .recordTokens id tokens) (rep : Rep w)
    (kept : Kept V bounded atRest w) : Carried V bounded w w' := by
  have shape := serve_served rep served
  refine ⟨serve_rep rep served, Served.kept doc loads shape silent rep kept, ?_, ?_⟩
  · obtain ⟨new, grown, fine⟩ := shape.moves.adds
    exact ⟨new, by rw [grown, withLimits_trace], fine⟩
  · have same : SamePlace w (withLimits op w) := by
      cases op with
      | _ => exact ⟨rfl, rfl⟩
    exact same.trans shape.moves.samePlace

theorem activate_carried {ctx : Option Ctx} (active : activateForInfer L id w = .ok (ctx, w'))
    (rep : Rep w) (kept : Kept V bounded atRest w) : Carried V bounded w w' := by
  have served : serve L (.activateForInfer id) w = .ok (.ctx ctx, w') := by
    simp only [serve, active, ok_bind]
  exact serve_carried doc loads served (fun _ _ same => by cases same) rep kept

omit doc loads in
/-- Recording in a HOT session. -/
theorem recordTokens_hot (rep : Rep w) {entry : SessionMeta} {tokens : List Token}
    (found : w.mSessions id = some entry) (hot : entry.state = .HOT)
    (result : recordTokens L id tokens w = .ok w') :
    Rep (recordedOf id entry tokens w) ∧
      Touched L id (longerEntry entry tokens) (recordedOf id entry tokens w) w' := by
  obtain ⟨move, ⟨cold, _⟩ | ⟨w1, _, recorded, shape⟩⟩ :=
    recordTokens_spec (L := L) rep found tokens
  · rw [hot] at cold
    cases cold
  · rw [result, Except.ok.injEq] at recorded
    exact ⟨move.rep rep, recorded ▸ shape⟩

/-- Recording what is pending settles it. -/
theorem record_carried {entry : SessionMeta} {tokens : List Token} (rep : Rep w)
    (found : w.mSessions id = some entry) (hot : entry.state = .HOT)
    (kept : Kept V bounded (aheadBy id tokens) w)
    (result : recordTokens L id tokens w = .ok w') : Carried V bounded w w' := by
  obtain ⟨rep1, shape⟩ := recordTokens_hot rep found hot result
  have first : Adds DecodeWorked w (recordedOf id entry tokens w) :=
    .one (e := .recorded id tokens) rfl trivial
  have place : SamePlace w (recordedOf id entry tokens w) := ⟨rfl, rfl⟩
  exact ⟨shape.move.rep rep1, Move.kept_of_quiet doc loads shape.move shape.quiet rep1
    (kept.record found hot), first.trans shape.move.adds, place.trans shape.move.samePlace⟩

/-! ### The decode loop -/

omit loads in
/-- **The loop** makes the tokens it decodes pending. -/
theorem Generation.kept (cap : bounded → Capacity L V w.nCtx) {tokens : List Token}
    {failed : Option Token} (loop : Generation L c w tokens failed w') {early : List Token}
    {entry : SessionMeta} (rep : Rep w) (kept : Kept V bounded (aheadBy id early) w)
    (found : w.mSessions id = some entry) (holds : entry.ctx = some c) :
    Kept V bounded (aheadBy id (early ++ tokens)) w' := by
  induction loop generalizing early with
  | stops w =>
    rw [List.append_nil]
    exact kept
  | samplesEnd w =>
    rw [List.append_nil]
    exact kept.untouched ⟨rfl, rfl⟩ rfl (doc.sample c w.llama)
  | @fails w tok failed =>
    rw [List.append_nil]
    have sampled : Kept V bounded (aheadBy id early) (sampledOf L c w) :=
      kept.untouched ⟨rfl, rfl⟩ rfl (doc.sample c w.llama)
    exact sampled.untouched ⟨rfl, rfl⟩ rfl (decode_failed doc failed)
  | @decodes w w' tok tokens failed decoded later ih =>
    have sampled : Kept V bounded (aheadBy id early) (sampledOf L c w) :=
      kept.untouched ⟨rfl, rfl⟩ rfl (doc.sample c w.llama)
    have repS : Rep (sampledOf L c w) := rep.of_same rfl rfl rfl rfl rfl rfl rfl
    have next : Kept V bounded (aheadBy id (early ++ [tok])) (decodedOf L c tok w) :=
      Kept.decode (w := sampledOf L c w) doc cap sampled repS found holds decoded ⟨rfl, rfl⟩ rfl rfl
    have rest := ih cap (repS.of_same rfl rfl rfl rfl rfl rfl rfl) next found
    rw [List.append_assoc] at rest
    exact rest

omit doc loads in
/-- The loop notes every decode: none has failed exactly when no token is left over. -/
theorem Generation.adds {tokens : List Token} {failed : Option Token}
    (loop : Generation L c w tokens failed w') :
    (failed = none → Adds DecodeWorked w w') ∧ (failed ≠ none → ¬ LoopDecoded w') := by
  induction loop with
  | stops w => exact ⟨fun _ => .refl rfl, fun some' => absurd rfl some'⟩
  | samplesEnd w => exact ⟨fun _ => .refl rfl, fun some' => absurd rfl some'⟩
  | @fails w tok failed =>
    refine ⟨fun none => (by cases none), fun _ worked => failed ?_⟩
    exact worked _ (List.mem_append_right _ List.mem_cons_self)
  | @decodes w w' tok tokens failed decoded later ih =>
    have first : Adds DecodeWorked w (decodedOf L c tok w) :=
      .one (e := .loopDecode (decodeBatch L c [tok] (sampledOf L c w)).1) rfl decoded
    exact ⟨fun none => first.trans (ih.1 none), ih.2⟩

/-! ### An inference -/

omit loads in
/-- The prefill makes the prompt pending. -/
theorem prefill_kept (cap : bounded → Capacity L V w.nCtx) {entry : SessionMeta}
    {prompt : List Token} (rep : Rep w) (kept : Kept V bounded atRest w)
    (found : w.mSessions id = some entry) (holds : entry.ctx = some c)
    (decoded : (decodeBatch L c prompt w).1 = 0) :
    Kept V bounded (aheadBy id prompt) (decodeBatch L c prompt w).2 := by
  rw [← aheadBy_nil id] at kept
  exact kept.decode doc cap rep found holds decoded ⟨rfl, rfl⟩ rfl rfl

/-- The context of every HOT session holds exactly its recorded tokens. -/
def Mirrored (V : View σ) (w : World σ) : Prop :=
  ∀ id entry, w.mSessions id = some entry → entry.state = .HOT →
    ∃ c, entry.ctx = some c ∧ V.kv w.llama c = mirror entry.tokens

omit doc loads in
theorem Kept.mirrored (kept : Kept V bounded atRest w) (rep : Rep w) : Mirrored V w := by
  intro id entry found hot
  obtain ⟨c, holds⟩ := rep.ctx_of_hot found hot
  have mirrors := (kept id entry found).mirrors c holds
  rw [atRest, List.append_nil] at mirrors
  exact ⟨c, holds, mirrors⟩

omit loads in
/-- A token recorded without being decoded breaks the mirror. -/
theorem not_mirrored {entry : SessionMeta} {tokens : List Token} {tok : Token} (rep : Rep w)
    (kept : Kept V bounded (aheadBy id tokens) w) (found : w.mSessions id = some entry)
    (hot : entry.state = .HOT) (result : recordTokens L id (tokens ++ [tok]) w = .ok w') :
    ¬ Mirrored V w' := by
  intro mirrored
  obtain ⟨c, holds⟩ := rep.ctx_of_hot found hot
  have cells := (kept id entry found).mirrors c holds
  obtain ⟨_, shape⟩ := recordTokens_hot rep found hot result
  obtain ⟨entry', found', hot', ctx, same⟩ := shape.entry
  obtain ⟨c', holds', cells'⟩ := mirrored id entry' found' hot'
  rw [ctx, show (longerEntry entry (tokens ++ [tok])).ctx = some c from holds,
    Option.some.injEq] at holds'
  subst holds'
  have clock : V.kv w'.llama = V.kv w.llama := by
    rw [shape.outside]
    exact (doc.clock w.llama).1
  rw [clock, cells, aheadBy_self, same] at cells'
  have length := congrArg List.length cells'
  rw [length_mirror, length_mirror] at length
  simp [longerEntry] at length

/-- What an inference that returns leaves. -/
theorem Inferred.outcome {prompt : Bytes} (cap : bounded → Capacity L V w.nCtx)
    (inferred : Inferred L id prompt w w') (rep : Rep w) (kept : Kept V bounded atRest w) :
    Carried V bounded w w' ∨ (¬ LoopDecoded w' ∧ ¬ Mirrored V w' ∧ Rep w') := by
  cases inferred with
  | noContext active => exact Or.inl (activate_carried doc loads active rep kept)
  | @prefillFails c w1 active failed =>
    have first := activate_carried doc loads active rep kept
    refine Or.inl (first.trans ⟨first.rep.of_same rfl rfl rfl rfl rfl rfl rfl, ?_, .refl rfl,
      rfl, rfl⟩)
    exact first.kept.untouched ⟨rfl, rfl⟩ rfl (decode_failed doc failed)
  | @generates c w1 w2 w3 w' tokens failed active decoded prefill loop records =>
    have first := activate_carried doc loads active rep kept
    obtain ⟨entry, found, hot, holds⟩ := (activateForInfer_activated rep active).owns
    have cap1 : bounded → Capacity L V w1.nCtx := by
      rw [first.place.nCtx]
      exact cap
    have pending := prefill_kept doc cap1 first.rep first.kept found holds decoded
    have repD : Rep (decodeBatch L c (L.tokenize prompt) w1).2 :=
      first.rep.of_same rfl rfl rfl rfl rfl rfl rfl
    have placeD : SamePlace w1 (decodeBatch L c (L.tokenize prompt) w1).2 := ⟨rfl, rfl⟩
    have second := record_carried doc loads repD found hot pending prefill
    have upTo : Carried V bounded w w2 :=
      first.trans ⟨second.rep, second.kept, second.adds, placeD.trans second.place⟩
    -- the session is still HOT with the same context when the loop starts
    obtain ⟨_, shape⟩ := recordTokens_hot repD found hot prefill
    obtain ⟨entry2, found2, hot2, ctx2, _⟩ := shape.entry
    have holds2 : entry2.ctx = some c := ctx2.trans holds
    have cap2 : bounded → Capacity L V w2.nCtx := by
      rw [upTo.place.nCtx]
      exact cap
    have rest : Kept V bounded (aheadBy id []) w2 := by
      rw [aheadBy_nil]
      exact second.kept
    have generated := Generation.kept doc cap2 loop second.rep rest found2 holds2
    rw [List.nil_append] at generated
    obtain ⟨fine, broken⟩ := loop.adds
    obtain ⟨llama, trace, rfl⟩ := loop.frame
    have rep3 : Rep { w2 with llama := llama, trace := trace } :=
      second.rep.of_same rfl rfl rfl rfl rfl rfl rfl
    cases failed with
    | none =>
      rw [Option.toList_none, List.append_nil] at records
      have third := record_carried doc loads rep3 found2 hot2 generated records
      exact Or.inl (upTo.trans ⟨third.rep, third.kept, (fine rfl).trans third.adds,
        third.place.dir, third.place.nCtx⟩)
    | some tok =>
      obtain ⟨repR, shape'⟩ := recordTokens_hot rep3 found2 hot2 records
      refine Or.inr ⟨fun worked => broken (Option.some_ne_none tok) ?_,
        not_mirrored doc rep3 generated found2 hot2 records, shape'.move.rep repR⟩
      have recorded : Adds (fun _ => True) { w2 with llama := llama, trace := trace }
          (recordedOf id entry2 (tokens ++ [tok]) { w2 with llama := llama, trace := trace }) :=
        .one (e := .recorded id _) rfl trivial
      exact worked.before (recorded.trans (shape'.move.adds.mono fun _ _ => trivial))

/-! ### Whole runs -/

/-- What a request that is served leaves. -/
theorem serveEngine_outcome {op : EngineOp} {r : EngineReply} (cap : bounded → Capacity L V w.nCtx)
    (served : serveEngine L op w = .ok (r, w')) (rep : Rep w) (kept : Kept V bounded atRest w) :
    Carried V bounded w w' ∨ (¬ LoopDecoded w' ∧ ¬ Mirrored V w' ∧ Rep w') := by
  have manager : ∀ {op : Op}, (∀ id tokens, op ≠ .recordTokens id tokens) →
      serveManager L op w = .ok (r, w') → Carried V bounded w w' := by
    intro op silent served
    obtain ⟨⟨r', w1⟩, here, same⟩ := bind_eq_ok.mp served
    cases same
    exact serve_carried doc loads here silent rep kept
  cases op with
  | createSession id => exact Or.inl (manager (fun _ _ same => by cases same) served)
  | killSession id => exact Or.inl (manager (fun _ _ same => by cases same) served)
  | setHotLimit count => exact Or.inl (manager (fun _ _ same => by cases same) served)
  | setColdLimit bytes => exact Or.inl (manager (fun _ _ same => by cases same) served)
  | infer sessionId prompt maxTokens cancelFlag =>
    obtain ⟨⟨a, w1⟩, here, same⟩ := bind_eq_ok.mp served
    cases same
    exact Inferred.outcome doc loads cap (infer_spec here) rep kept

end Documented

theorem kept_start (V : View σ) (bounded : Prop) (nCtx : Nat) (swapDir : Bytes) (llama : σ) :
    Kept V bounded atRest (World.start nCtx swapDir llama) := fun id entry found => by cases found

/-- **The recorded tokens mirror the cache** in every state of a run exactly as long as no decode of
a generated token fails. -/
theorem tokens_mirror_cache (doc : Documented L V) (nCtx : Nat) (swapDir : Bytes) (llama : σ)
    (ops : List EngineOp) :
    Throughout (serveEngine L) (Mirrored V) ops (World.start nCtx swapDir llama) ↔
      Throughout (serveEngine L) LoopDecoded ops (World.start nCtx swapDir llama) := by
  have noLoads : False → LoadsBack L V := False.elim
  have start : Rep (World.start nCtx swapDir llama) ∧
      Kept V False atRest (World.start nCtx swapDir llama) :=
    ⟨Rep.start nCtx swapDir llama, kept_start V False nCtx swapDir llama⟩
  constructor
  · intro mirrored
    refine (throughout_of_invariant (I := fun w => (Rep w ∧ Kept V False atRest w) ∧ LoopDecoded w)
      ?_ ⟨start, fun e member => by cases member⟩ mirrored.after).mono fun w inv => inv.2
    rintro w op r w' ⟨⟨rep, kept⟩, worked⟩ after served
    rcases serveEngine_outcome doc noLoads False.elim served rep kept with carried | broken
    · exact ⟨⟨carried.rep, carried.kept⟩, worked.after carried.adds⟩
    · exact absurd (after r w' served) broken.2.1
  · intro worked
    refine (throughout_of_invariant (I := fun w => Rep w ∧ Kept V False atRest w) ?_ start
      worked.after).mono fun w inv => inv.2.mirrored inv.1
    rintro w op r w' ⟨rep, kept⟩ after served
    rcases serveEngine_outcome doc noLoads False.elim served rep kept with carried | broken
    · exact ⟨carried.rep, carried.kept⟩
    · exact absurd (after r w' served) broken.1

/-- Two conversations, one place: texts that end by themselves and by `maxTokens`, a prompt that is
too long, and a cancelled request. -/
def conversations : List EngineOp :=
  [.setHotLimit 1, .createSession 1, .createSession 2, .infer 1 (text "ab") 10 none,
    .infer 2 (text "c") 1 none, .infer 1 (text "d") 5 (some fun i => i = 1),
    .infer 2 (text "too long") 3 none, .setColdLimit 30]

theorem tokens_mirror_cache_conversations :
    Throughout (serveEngine (sim 6 10)) (Mirrored simView) conversations
      (World.start 6 (text "/s") (Sim.start [7, 2, 8, 9])) :=
  (tokens_mirror_cache (sim_documented 6 10) 6 (text "/s") (Sim.start [7, 2, 8, 9])
    conversations).mpr (by decide +kernel)

/-- A context for four tokens, a prompt of two and a text of at least three. -/
def overflow : List EngineOp := [.createSession 1, .infer 1 (text "ab") 10 none]

theorem tokens_mirror_cache_overflow :
    ¬ Throughout (serveEngine (sim 4 10)) (Mirrored simView) overflow
      (World.start 4 (text "/s") (Sim.start [5, 6, 7, 8])) := by
  have longer : Gives (fun w : World Sim => ∃ entry ∈ w.mSessions 1, entry.state = .HOT ∧
      ∀ c ∈ entry.ctx, simView.kv w.llama c ≠ mirror entry.tokens)
      (run (serveEngine (sim 4 10)) overflow
        (World.start 4 (text "/s") (Sim.start [5, 6, 7, 8]))) := by
    decide +kernel
  obtain ⟨w, reach, entry, found, hot, differs⟩ := gives_iff.mp longer
  intro mirrored
  obtain ⟨c, holds, same⟩ := mirrored.last reach 1 entry found hot
  exact differs c holds same

end MiniV
