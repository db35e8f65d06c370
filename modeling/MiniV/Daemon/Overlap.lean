/-
**Requests that overlap on one session.**

`infer` decodes its prompt and its tokens one after another into the context of the session, and
records them in two blocks: the prompt once it is decoded, what it generated at the end. `inferStream`
accepts a request on a session while another one runs, and nothing orders the two.

* `Diary`: what is decoded into the context of one session, and what is recorded for it, in order;
* `record_follows_cache`: while no request on the session decodes its prompt before the one under way
  has recorded its last block, the record follows the cache.
-/

import MiniV.Daemon.Settled

namespace MiniV

open MiniV.Library

variable {σ : Type}

/-! ### The diary of a session -/

/-- What happened to a session: the tokens that were decoded into the context it holds, and the blocks
that were recorded for it, each with who recorded it. -/
structure Diary where
  decoded : List Token
  recorded : List (Thread × List Token)
deriving DecidableEq, Repr

/-- Nothing has happened yet. -/
def Diary.empty : Diary := ⟨[], []⟩

/-- The batch that the next step of an inference decodes, with the context it goes into. -/
def Inference.batch (L : Llama σ) (inference : Inference) : Option (Ctx × List Token) :=
  match inference.pc with
  | .prefill ctx => some (ctx, L.tokenize inference.prompt)
  | .decode ctx _ _ tok => some (ctx, [tok])
  | .activate | .recordPrompt _ | .head _ _ _ | .sample _ _ _ | .recordGenerated _ | .returned _ => none

/-- What the next step of an inference on a thread records. -/
def Inference.records (L : Llama σ) (thread : Thread) (inference : Inference) :
    List (Thread × List Token) :=
  match inference.pc with
  | .recordPrompt _ => [(thread, L.tokenize inference.prompt)]
  | .recordGenerated generated => [(thread, generated)]
  | .activate | .prefill _ | .head _ _ _ | .sample _ _ _ | .decode _ _ _ _ | .returned _ => []

/-- The tokens that an action decodes into the context of a session. -/
def decodedInto (L : Llama σ) (id : Int) (d : Daemon σ) : Action → List Token
  | .advance thread =>
    match (d.threads thread).bind (Inference.batch L) with
    | none => []
    | some (ctx, batch) =>
      if HoldsContext d.world id ctx ∧ (decodeBatch L ctx batch d.world).1 = 0 then batch else []
  | .createSession _ | .destroySession _ | .inferStream _ _ _ | .cancel _ | .command _ => []

/-- What an action records for a session, and who does. -/
def recordedBy (L : Llama σ) (id : Int) (d : Daemon σ) : Action → List (Thread × List Token)
  | .advance thread =>
    match d.threads thread with
    | none => []
    | some inference => if inference.sessionId = id then inference.records L thread else []
  | .createSession _ | .destroySession _ | .inferStream _ _ _ | .cancel _ | .command _ => []

/-- The diary after an action. -/
def noting (L : Llama σ) (id : Int) (d : Daemon σ) (action : Action) (diary : Diary) : Diary where
  decoded := diary.decoded ++ decodedInto L id d action
  recorded := diary.recorded ++ recordedBy L id d action

/-- One action, with the diary of a session beside the daemon. -/
def stepNoting (L : Llama σ) (id : Int) (action : Action) (s : Daemon σ × Diary) :
    Except Fault (Notice × (Daemon σ × Diary)) := do
  let (notice, d) ← step L action s.1
  .ok (notice, d, noting L id s.1 action s.2)

/-! ### Requests under way -/

/-- The prompt is decoded, and what was generated is not recorded yet. -/
def Pc.busy : Pc → Bool
  | .recordPrompt _ | .head _ _ _ | .sample _ _ _ | .decode _ _ _ _ | .recordGenerated _ => true
  | .activate | .prefill _ | .returned _ => false

/-- The prompt is decoded next. -/
def Pc.prefills : Pc → Bool
  | .prefill _ => true
  | .activate | .recordPrompt _ | .head _ _ _ | .sample _ _ _ | .decode _ _ _ _ | .recordGenerated _
  | .returned _ => false

/-- No inference on the session is under way. -/
def Idle (id : Int) (d : Daemon σ) : Prop :=
  ∀ thread ∈ d.accepted, ∀ inference ∈ d.threads thread,
    inference.sessionId = id → inference.pc.busy = false

instance (id : Int) (d : Daemon σ) : Decidable (Idle id d) :=
  inferInstanceAs (Decidable (∀ thread ∈ d.accepted, _))

/-- **Requests take turns**: none on the session decodes its prompt while another one is under way. -/
def TakesTurns (id : Int) (d : Daemon σ) : Action → Prop
  | .advance thread => ∀ inference ∈ d.threads thread,
      inference.sessionId = id → inference.pc.prefills = true → Idle id d
  | .createSession _ | .destroySession _ | .inferStream _ _ _ | .cancel _ | .command _ => True

instance (id : Int) (d : Daemon σ) : DecidablePred (TakesTurns id d)
  | .advance thread => inferInstanceAs (Decidable (∀ inference ∈ d.threads thread, _))
  | .createSession _ | .destroySession _ | .inferStream _ _ _ | .cancel _ | .command _ =>
    isTrue trivial

/-- What a request on the session decodes next, it decodes. -/
def Decodes (L : Llama σ) (id : Int) (d : Daemon σ) : Action → Prop
  | .advance thread => ∀ inference ∈ d.threads thread, inference.sessionId = id →
      ∀ batch ∈ inference.batch L, (decodeBatch L batch.1 batch.2 d.world).1 = 0
  | .createSession _ | .destroySession _ | .inferStream _ _ _ | .cancel _ | .command _ => True

instance (L : Llama σ) (id : Int) (d : Daemon σ) : DecidablePred (Decodes L id d)
  | .advance thread => inferInstanceAs (Decidable (∀ inference ∈ d.threads thread, _))
  | .createSession _ | .destroySession _ | .inferStream _ _ _ | .cancel _ | .command _ =>
    isTrue trivial

/-- The session is neither killed nor evicted: it lives, keeps the context it has, and no swap-out
saves it. -/
structure Spared (id : Int) (w w' : World σ) : Prop where
  alive : (w.mSessions id).isSome = true → (w'.mSessions id).isSome = true
  context : ∀ ctx ∈ Owned.ctxAt w.mSessions id, Owned.ctxAt w'.mSessions id = some ctx
  unsaved : Unsaved id (w'.trace.drop w.trace.length)

instance (id : Int) (w w' : World σ) : Decidable (Spared id w w') :=
  decidable_of_iff (((w.mSessions id).isSome = true → (w'.mSessions id).isSome = true) ∧
      (∀ ctx ∈ Owned.ctxAt w.mSessions id, Owned.ctxAt w'.mSessions id = some ctx) ∧
      Unsaved id (w'.trace.drop w.trace.length))
    ⟨fun ⟨alive, context, unsaved⟩ => ⟨alive, context, unsaved⟩,
      fun spared => ⟨spared.alive, spared.context, spared.unsaved⟩⟩

/-- An action that leaves the requests on the session alone: their decodes work, and the session is
neither killed nor evicted. -/
def Undisturbed (L : Llama σ) (id : Int) (d : Daemon σ) (action : Action) : Prop :=
  Decodes L id d action ∧ Ends (fun result => Spared id d.world result.2.world) (step L action d)

instance (L : Llama σ) (id : Int) (d : Daemon σ) (action : Action) :
    Decidable (Undisturbed L id d action) :=
  inferInstanceAs (Decidable (_ ∧ _))

/-- What one request records: its prompt, and what it generated. -/
structure Block where
  thread : Thread
  prompt : List Token
  generated : List Token
deriving DecidableEq, Repr

namespace Block

/-- The tokens of a block. -/
def tokens (block : Block) : List Token := block.prompt ++ block.generated

/-- A block in the diary. -/
def entries (block : Block) : List (Thread × List Token) :=
  [(block.thread, block.prompt), (block.thread, block.generated)]

end Block

/-- **The record follows the cache.** The tokens of the session are those it had, and then those that
were decoded, in the order they were decoded in; what was recorded is whole blocks, one after another. -/
structure InOrder (file : σ → Bytes → Option (List Token)) (id : Int) (base : List Token)
    (s : Daemon σ × Diary) : Prop where
  tokens : ∃ entry, s.1.world.mSessions id = some entry ∧
    stored file s.1.world entry = some (base ++ s.2.decoded) ∧
    (entry.state = .HOT → entry.tokens = base ++ s.2.decoded)
  blocks : ∃ blocks : List Block, s.2.recorded = blocks.flatMap Block.entries ∧
    s.2.decoded = blocks.flatMap Block.tokens

/-! ### The part of a block -/

section Steps

variable {L : Llama σ} {d d' : Daemon σ} {action : Action} {id : Int} {w w' : World σ}
  {file : σ → Bytes → Option (List Token)} {thread : Thread} {inference : Inference}
  {prompt : List Token} {pc : Pc} {records : List (Thread × List Token)} {tokens : List Token}
  {blocks : List Block} {diary : Diary} {nCtx : Nat} {swapDir : Bytes}

/-- How far the block of a request under way is: what the request has recorded, and what it has
decoded. -/
inductive Begun (thread : Thread) (prompt : List Token) :
    Pc → List (Thread × List Token) → List Token → Prop
  | prefilled (ctx : Ctx) : Begun thread prompt (.recordPrompt ctx) [] prompt
  | head (ctx : Ctx) (i : Nat) (generated : List Token) :
      Begun thread prompt (.head ctx i generated) [(thread, prompt)] (prompt ++ generated)
  | sample (ctx : Ctx) (i : Nat) (generated : List Token) :
      Begun thread prompt (.sample ctx i generated) [(thread, prompt)] (prompt ++ generated)
  | decode (ctx : Ctx) (i : Nat) (generated : List Token) (tok : Token) :
      Begun thread prompt (.decode ctx i (generated ++ [tok]) tok) [(thread, prompt)]
        (prompt ++ generated)
  | ends (generated : List Token) :
      Begun thread prompt (.recordGenerated generated) [(thread, prompt)] (prompt ++ generated)

theorem Begun.loopTest (ctx : Ctx) (maxTokens : Int) (i : Nat) (generated : List Token) :
    Begun thread prompt (loopTest ctx maxTokens i generated) [(thread, prompt)]
      (prompt ++ generated) := by
  unfold MiniV.loopTest
  split
  · exact .head ctx i generated
  · exact .ends generated

/-- What a step decodes. -/
def Inference.decodes (L : Llama σ) (inference : Inference) : List Token :=
  (inference.batch L).toList.flatMap Prod.snd

/-- **A step of a request under way** adds what it decodes and records, and ends with a whole block. -/
theorem Begun.step {cancelled : Bool}
    (begun : Begun thread (L.tokenize inference.prompt) inference.pc records tokens)
    (stepped : Stepped L cancelled inference w pc w')
    (decodes : ∀ batch ∈ inference.batch L, (decodeBatch L batch.1 batch.2 w).1 = 0) :
    Begun thread (L.tokenize inference.prompt) pc (records ++ inference.records L thread)
        (tokens ++ inference.decodes L) ∨
      ∃ block : Block, pc = .returned true ∧ records ++ inference.records L thread = block.entries ∧
        tokens ++ inference.decodes L = block.tokens := by
  unfold Inference.records Inference.decodes Inference.batch
  cases stepped with
  | noContext here | activates here | prefillFails here | prefills here | stays here =>
    rw [here] at begun
    cases begun
  | recordsPrompt here records room =>
    rw [here] at begun ⊢
    cases begun
    exact Or.inl (.loopTest ..)
  | stops here | goesOn here | samplesEnd here =>
    rw [here] at begun ⊢
    cases begun
    simp only [List.append_nil, Option.toList_none, List.flatMap_nil]
    exact Or.inl (by constructor)
  | samples here alive sampled goes =>
    rw [here] at begun ⊢
    cases begun
    simp only [List.append_nil, Option.toList_none, List.flatMap_nil]
    exact Or.inl (.decode ..)
  | @decodeFails ctx i generated tok here alive failed =>
    have batch : inference.batch L = some (ctx, [tok]) := by rw [Inference.batch, here]
    exact absurd (decodes _ batch) failed
  | decodes here alive decoded =>
    rw [here] at begun ⊢
    cases begun
    refine Or.inl ?_
    simp only [List.append_nil, Option.toList_some, List.flatMap_singleton, List.append_assoc]
    exact .loopTest ..
  | @recordsGenerated generated _ here records =>
    rw [here] at begun ⊢
    cases begun
    exact Or.inr ⟨⟨thread, L.tokenize inference.prompt, generated⟩, rfl, rfl, List.append_nil _⟩

/-! ### What an action adds to the diary -/

theorem Inference.context_of_batch {ctx : Ctx} {batch : List Token}
    (decodes : inference.batch L = some (ctx, batch)) : inference.pc.context = some ctx := by
  unfold Inference.batch at decodes
  cases here : inference.pc with
  | prefill | decode =>
    rw [here] at decodes
    cases decodes
    rfl
  | activate | recordPrompt | head | sample | recordGenerated | returned =>
    rw [here] at decodes
    cases decodes

/-- A step of an inference on the session, whose decode works. -/
theorem decodedInto_own (settled : Settled L nCtx swapDir file d)
    (running : d.threads thread = some inference) (own : inference.sessionId = id)
    (decodes : Decodes L id d (.advance thread))
    (alive : ∀ batch ∈ inference.batch L, batch.1 ∉ d.world.freed) :
    decodedInto L id d (.advance thread) = inference.decodes L := by
  unfold decodedInto Inference.decodes
  simp only [running, Option.bind_some]
  cases batch : inference.batch L with
  | none => rfl
  | some pair =>
    obtain ⟨ctx, batch'⟩ := pair
    have holds := settled.holds running (Inference.context_of_batch batch) (alive _ batch)
    rw [own] at holds
    have worked := decodes inference running own _ batch
    simp only [Option.toList_some, List.flatMap_singleton]
    exact if_pos ⟨holds, worked⟩

/-- Another session's inference decodes into another context. -/
theorem decodedInto_foreign (settled : Settled L nCtx swapDir file d)
    (foreign : ∀ thread inference, action = .advance thread → d.threads thread = some inference →
      inference.sessionId ≠ id) : decodedInto L id d action = [] := by
  cases action with
  | createSession | destroySession | inferStream | cancel | command => rfl
  | advance thread =>
    cases running : d.threads thread with
    | none => simp only [decodedInto, running, Option.bind_none]
    | some inference =>
      cases batch : inference.batch L with
      | none => simp only [decodedInto, running, Option.bind_some, batch]
      | some pair =>
        obtain ⟨ctx, batch'⟩ := pair
        have apart : ¬ HoldsContext d.world id ctx := fun holds =>
          foreign thread inference rfl running (settled.own thread inference ctx running
            (Inference.context_of_batch batch) id holds).symm
        simp only [decodedInto, running, Option.bind_some, batch]
        exact if_neg fun decodes => apart decodes.1

/-- A step uses no freed context. -/
theorem Stepped.alive {cancelled : Bool} (stepped : Stepped L cancelled inference w pc w') :
    ∀ batch ∈ inference.batch L, batch.1 ∉ w.freed := by
  unfold Inference.batch
  cases stepped with
  | prefillFails here alive | prefills here alive | decodeFails here alive | decodes here alive =>
    rw [here]
    rintro batch ⟨⟩
    exact alive
  | noContext here | activates here | recordsPrompt here | stops here | goesOn here | samplesEnd here
  | samples here | recordsGenerated here | stays here =>
    rw [here]
    rintro batch ⟨⟩

theorem recordedBy_own (running : d.threads thread = some inference)
    (own : inference.sessionId = id) :
    recordedBy L id d (.advance thread) = inference.records L thread := by
  simp only [recordedBy, running, if_pos own]

theorem recordedBy_foreign
    (foreign : ∀ thread inference, action = .advance thread → d.threads thread = some inference →
      inference.sessionId ≠ id) : recordedBy L id d action = [] := by
  cases action with
  | createSession | destroySession | inferStream | cancel | command => rfl
  | advance thread =>
    cases running : d.threads thread with
    | none => simp only [recordedBy, running]
    | some inference =>
      simp only [recordedBy, running]
      exact if_neg (foreign thread inference rfl running)

/-- What a step records is what it calls the manager with. -/
theorem Inference.records_tokens (own : inference.sessionId = id) :
    (inference.records L thread).flatMap Prod.snd =
      (inference.call L).toList.flatMap (Op.tokensFor id) := by
  unfold Inference.records Inference.call
  cases here : inference.pc with
  | recordPrompt | recordGenerated => simp [Op.tokensFor, own]
  | activate => simp [Op.tokensFor]
  | prefill | head | sample | decode | returned => rfl

/-- A step calls the manager for its own session. -/
theorem Inference.call_foreign (other : inference.sessionId ≠ id) :
    (inference.call L).toList.flatMap (Op.tokensFor id) = [] := by
  unfold Inference.call
  cases here : inference.pc with
  | recordPrompt | recordGenerated => simp [Op.tokensFor, other]
  | activate => simp [Op.tokensFor]
  | prefill | head | sample | decode | returned => rfl

/-- What the diary notes as recorded is what the manager is called with. -/
theorem recordedBy_tokens (id : Int) (d : Daemon σ) (action : Action) :
    (recordedBy L id d action).flatMap Prod.snd =
      (managerCall L d action).toList.flatMap (Op.tokensFor id) := by
  cases action with
  | inferStream | cancel => rfl
  | createSession | destroySession =>
    rw [managerCall]
    split <;> rfl
  | command command =>
    rw [managerCall]
    split
    · rfl
    · cases command with
      | createSession =>
        rw [commandCall]
        split <;> rfl
      | killSession | setHotLimit | setColdLimit | infer | npuLoad | npuInfer | hello | ignored => rfl
  | advance thread =>
    cases running : d.threads thread with
    | none => simp only [recordedBy, managerCall, running, Option.bind_none, Option.toList_none,
        List.flatMap_nil]
    | some inference =>
      simp only [recordedBy, managerCall, running, Option.bind_some]
      by_cases own : inference.sessionId = id
      · rw [if_pos own]
        exact Inference.records_tokens own
      · rw [if_neg own]
        exact (Inference.call_foreign own).symm

/-! ### Who is under way -/

/-- A request on the session is under way on the thread. -/
def UnderWay (id : Int) (d : Daemon σ) (thread : Thread) : Prop :=
  ∃ inference, d.threads thread = some inference ∧ inference.sessionId = id ∧
    inference.pc.busy = true

theorem idle_iff
    (known : ∀ thread inference, d.threads thread = some inference → thread ∈ d.accepted) :
    Idle id d ↔ ∀ thread, ¬ UnderWay id d thread := by
  constructor
  · rintro idle thread ⟨inference, running, own, busy⟩
    rw [idle thread (known thread inference running) inference running own] at busy
    cases busy
  · intro nobody thread _ inference running own
    cases busy : inference.pc.busy with
    | false => rfl
    | true => exact absurd ⟨inference, running, own, busy⟩ (nobody thread)

/-- A request that takes no step is under way as before. -/
theorem Taken.underWay (taken : Taken L d action d')
    (settled : Settled L nCtx swapDir file d) (other : action ≠ .advance thread) :
    UnderWay id d' thread ↔ UnderWay id d thread := by
  constructor
  · rintro ⟨inference, running, own, busy⟩
    cases taken.comesFrom running with
    | stays running' => exact ⟨inference, running', own, busy⟩
    | starts accepted here =>
      rw [here] at busy
      cases busy
    | steps running' same step stepped => exact absurd step other
  · rintro ⟨inference, running, own, busy⟩
    exact ⟨inference, taken.stays (settled.known thread inference running) running other, own, busy⟩

/-! ### The diary is blocks -/

/-- The diary reads: whole blocks, and then a part of one. -/
structure Diary.Reads (diary : Diary) (blocks : List Block) (records : List (Thread × List Token))
    (tokens : List Token) : Prop where
  recorded : diary.recorded = blocks.flatMap Block.entries ++ records
  decoded : diary.decoded = blocks.flatMap Block.tokens ++ tokens

theorem Diary.Reads.empty : Diary.empty.Reads [] [] [] := ⟨rfl, rfl⟩

theorem Diary.Reads.append (reads : diary.Reads blocks records tokens)
    (records' : List (Thread × List Token)) (tokens' : List Token) :
    Diary.Reads ⟨diary.decoded ++ tokens', diary.recorded ++ records'⟩ blocks (records ++ records')
      (tokens ++ tokens') where
  recorded := by rw [reads.recorded, List.append_assoc]
  decoded := by rw [reads.decoded, List.append_assoc]

/-- The part is a whole block. -/
theorem Diary.Reads.close {block : Block} (reads : diary.Reads blocks block.entries block.tokens) :
    diary.Reads (blocks ++ [block]) [] [] where
  recorded := by
    rw [reads.recorded, List.flatMap_append, List.flatMap_singleton, List.append_nil]
  decoded := by
    rw [reads.decoded, List.flatMap_append, List.flatMap_singleton, List.append_nil]

/-- Nobody else is under way. -/
def Alone (id : Int) (d : Daemon σ) (thread : Thread) : Prop :=
  ∀ thread', UnderWay id d thread' → thread' = thread

/-- **One request at a time**: the diary is whole blocks, and the part of a block that belongs to the
only request under way. -/
inductive Progress (L : Llama σ) (id : Int) (d : Daemon σ) (diary : Diary) : Prop
  | idle {blocks : List Block} (nobody : ∀ thread, ¬ UnderWay id d thread)
      (reads : diary.Reads blocks [] []) : Progress L id d diary
  | busy {blocks : List Block} {thread : Thread} {inference : Inference}
      {records : List (Thread × List Token)} {tokens : List Token}
      (running : d.threads thread = some inference) (own : inference.sessionId = id)
      (alone : Alone id d thread)
      (begun : Begun thread (L.tokenize inference.prompt) inference.pc records tokens)
      (hot : (Owned.ctxAt d.world.mSessions id).isSome = true)
      (reads : diary.Reads blocks records tokens) : Progress L id d diary

theorem Begun.busy (begun : Begun thread prompt pc records tokens) : pc.busy = true := by
  cases begun <;> rfl

/-- The request under way that a thread runs is the one that the diary is about. -/
theorem Progress.current (progress : Progress L id d diary)
    (running : d.threads thread = some inference) (own : inference.sessionId = id)
    (busy : inference.pc.busy = true) : Alone id d thread ∧
      (Owned.ctxAt d.world.mSessions id).isSome = true ∧ ∃ blocks records tokens,
        Begun thread (L.tokenize inference.prompt) inference.pc records tokens ∧
          diary.Reads blocks records tokens := by
  have here : UnderWay id d thread := ⟨inference, running, own, busy⟩
  cases progress with
  | idle nobody => exact absurd here (nobody thread)
  | @busy blocks thread' inference' records tokens running' own' alone begun hot reads =>
    obtain rfl := alone thread here
    rw [running, Option.some.injEq] at running'
    subst running'
    exact ⟨alone, hot, blocks, records, tokens, begun, reads⟩

section Step

variable (settled : Settled L nCtx swapDir file d)
  (taken : Taken L d action d')
  (context : ∀ ctx ∈ Owned.ctxAt d.world.mSessions id, Owned.ctxAt d'.world.mSessions id = some ctx)

include context in
/-- A session that keeps its context stays HOT. -/
theorem stays_hot (hot : (Owned.ctxAt d.world.mSessions id).isSome = true) :
    (Owned.ctxAt d'.world.mSessions id).isSome = true := by
  obtain ⟨ctx, held⟩ := Option.isSome_iff_exists.mp hot
  rw [context ctx held]
  rfl

include settled taken

/-- Nobody begins, and whoever is under way takes no step. -/
theorem Progress.rests (progress : Progress L id d diary)
    (context : ∀ ctx ∈ Owned.ctxAt d.world.mSessions id,
      Owned.ctxAt d'.world.mSessions id = some ctx)
    (waits : ∀ thread, UnderWay id d thread → action ≠ .advance thread)
    (starts : ∀ thread, action = .advance thread → ¬ UnderWay id d' thread) :
    Progress L id d' diary := by
  have same : ∀ thread, UnderWay id d' thread → UnderWay id d thread := by
    intro thread later
    by_cases own : action = .advance thread
    · exact absurd later (starts thread own)
    · exact (taken.underWay settled own).mp later
  cases progress with
  | idle nobody reads => exact .idle (fun thread later => nobody thread (same thread later)) reads
  | @busy blocks thread inference records tokens running own alone begun hot reads =>
    have here : UnderWay id d thread := ⟨inference, running, own, begun.busy⟩
    have running' := taken.stays (settled.known thread inference running) running (waits thread here)
    exact .busy running' own (fun thread' later => alone thread' (same thread' later)) begun
      (stays_hot context hot) reads

/-- An action that is no step of a request on the session. -/
theorem Progress.foreign (progress : Progress L id d diary)
    (context : ∀ ctx ∈ Owned.ctxAt d.world.mSessions id,
      Owned.ctxAt d'.world.mSessions id = some ctx)
    (foreign : ∀ thread inference, action = .advance thread → d.threads thread = some inference →
      inference.sessionId ≠ id) : Progress L id d' diary := by
  refine progress.rests settled taken context ?_ ?_
  · rintro thread ⟨inference, running, own, _⟩ step
    exact foreign thread inference step running own
  · rintro thread step ⟨inference, running, own, busy⟩
    cases taken.comesFrom running with
    | stays running' => exact foreign thread inference step running' own
    | starts accepted here =>
      rw [here] at busy
      cases busy
    | steps running' same =>
      subst same
      exact foreign thread _ step running' own

omit settled taken
include settled

/-- Nobody begins but the thread that takes the step. -/
theorem Alone.step (alone : Alone id d thread) (taken : Taken L d (.advance thread) d') :
    Alone id d' thread := by
  intro thread' later
  by_contra other
  have step : Action.advance thread ≠ .advance thread' := fun same => other (by cases same; rfl)
  exact other (alone thread' ((taken.underWay settled step).mp later))

end Step

/-- A request decodes its prompt when it is its turn. -/
theorem Progress.begins (progress : Progress L id d diary) (settled : Settled L nCtx swapDir file d)
    (taken : Taken L d (.advance thread) d') (turn : Idle id d) {ctx : Ctx}
    (running' : d'.threads thread = some { inference with pc := .recordPrompt ctx })
    (own : inference.sessionId = id) (holds : HoldsContext d'.world id ctx) :
    Progress L id d' ⟨diary.decoded ++ L.tokenize inference.prompt, diary.recorded ++ []⟩ := by
  have nobody := (idle_iff settled.known).mp turn
  cases progress with
  | @idle blocks _ reads =>
    have alone : Alone id d thread := fun thread' here => absurd here (nobody thread')
    refine .busy running' own (Alone.step settled alone taken) (.prefilled ctx) ?_
      (reads.append [] (L.tokenize inference.prompt))
    rw [holds]
    rfl
  | busy running own _ begun => exact absurd ⟨_, running, own, begun.busy⟩ (nobody _)

/-- The request under way takes a step. -/
theorem Progress.goes (progress : Progress L id d diary) (settled : Settled L nCtx swapDir file d)
    (taken : Taken L d (.advance thread) d')
    (context : ∀ ctx ∈ Owned.ctxAt d.world.mSessions id,
      Owned.ctxAt d'.world.mSessions id = some ctx)
    (decodes : Decodes L id d (.advance thread)) (running : d.threads thread = some inference)
    (own : inference.sessionId = id) (busy : inference.pc.busy = true)
    (running' : d'.threads thread = some { inference with pc := pc })
    (stepped : Stepped L (d.cancelled thread) inference d.world pc d'.world) :
    Progress L id d' ⟨diary.decoded ++ inference.decodes L,
      diary.recorded ++ inference.records L thread⟩ := by
  obtain ⟨alone, hot, blocks, records, tokens, begun, reads⟩ := progress.current running own busy
  have alone' := Alone.step settled alone taken
  rcases begun.step stepped (decodes inference running own) with later | ⟨block, ended, whole, all⟩
  · exact .busy running' own alone' later (stays_hot context hot) (reads.append _ _)
  · have reads' := reads.append (inference.records L thread) (inference.decodes L)
    rw [whole, all] at reads'
    refine .idle (fun thread' later => ?_) reads'.close
    obtain rfl := alone' thread' later
    obtain ⟨inference', running'', _, busy'⟩ := later
    rw [running', Option.some.injEq] at running''
    subst running''
    rw [ended] at busy'
    cases busy'

/-- A step of a request on the session, the first or a later one. -/
theorem Progress.own (progress : Progress L id d diary) (settled : Settled L nCtx swapDir file d)
    (taken : Taken L d (.advance thread) d')
    (context : ∀ ctx ∈ Owned.ctxAt d.world.mSessions id,
      Owned.ctxAt d'.world.mSessions id = some ctx)
    (decodes : Decodes L id d (.advance thread)) (turns : TakesTurns id d (.advance thread))
    (running : d.threads thread = some inference) (own : inference.sessionId = id) :
    Progress L id d' ⟨diary.decoded ++ inference.decodes L,
      diary.recorded ++ inference.records L thread⟩ := by
  have quiet (resting : inference.pc.busy = false) (nothing : inference.decodes L = [])
      (silent : inference.records L thread = []) (starts : ¬ UnderWay id d' thread) :
      Progress L id d' ⟨diary.decoded ++ inference.decodes L,
        diary.recorded ++ inference.records L thread⟩ := by
    rw [nothing, silent, List.append_nil, List.append_nil]
    refine progress.rests settled taken context ?_ ?_
    · rintro thread' ⟨inference', running', _, busy⟩ ⟨⟩
      rw [running, Option.some.injEq] at running'
      rw [← running', resting] at busy
      cases busy
    · rintro thread' ⟨⟩
      exact starts
  rcases taken.own running with ⟨pc, goes, running', stepped⟩ | ⟨⟨ok, here⟩, gone⟩
  · have starts : pc.busy = false → ¬ UnderWay id d' thread := by
      rintro rests ⟨inference', running'', _, busy⟩
      rw [running', Option.some.injEq] at running''
      rw [← running'', rests] at busy
      cases busy
    have shape := stepped
    generalize d'.world = after at shape
    cases shape with
    | noContext here | activates here =>
      refine quiet ?_ ?_ ?_ (starts rfl)
      · rw [here]
        rfl
      · rw [Inference.decodes, Inference.batch, here]
        rfl
      · rw [Inference.records, here]
    | @prefillFails ctx here alive failed =>
      have batch : inference.batch L = some (ctx, L.tokenize inference.prompt) := by
        rw [Inference.batch, here]
      exact absurd (decodes inference running own _ batch) failed
    | @prefills ctx here alive decoded =>
      have holds : HoldsContext d.world id ctx :=
        own ▸ settled.holds running (by rw [here]; rfl) alive
      have turn : Idle id d := turns inference running own (by rw [here]; rfl)
      have batch : inference.decodes L = L.tokenize inference.prompt := by
        rw [Inference.decodes, Inference.batch, here]
        simp
      have silent : inference.records L thread = [] := by rw [Inference.records, here]
      rw [batch, silent]
      exact progress.begins settled taken turn running' own (context ctx holds)
    | stays here => exact absurd here (goes _)
    | recordsPrompt here | stops here | goesOn here | samplesEnd here | samples here
    | decodeFails here | decodes here | recordsGenerated here =>
      exact progress.goes settled taken context decodes running own (by rw [here]; rfl) running'
        stepped
  · refine quiet ?_ ?_ ?_ ?_
    · rw [here]
      rfl
    · rw [Inference.decodes, Inference.batch, here]
      rfl
    · rw [Inference.records, here]
    · rintro ⟨inference', running', _⟩
      rw [gone] at running'
      cases running'

/-- **One action**: the diary stays blocks, and the part of one. -/
theorem Progress.step (progress : Progress L id d diary) (settled : Settled L nCtx swapDir file d)
    (taken : Taken L d action d') (decodes : Decodes L id d action)
    (spared : Spared id d.world d'.world) (turns : TakesTurns id d action) :
    Progress L id d' (noting L id d action diary) := by
  by_cases own : ∃ thread inference, action = .advance thread ∧ d.threads thread = some inference ∧
      inference.sessionId = id
  · obtain ⟨thread, inference, rfl, running, same⟩ := own
    have alive : ∀ batch ∈ inference.batch L, batch.1 ∉ d.world.freed := by
      rcases taken.own running with ⟨pc, _, _, stepped⟩ | ⟨⟨ok, here⟩, _⟩
      · exact stepped.alive
      · rw [Inference.batch, here]
        rintro batch ⟨⟩
    rw [noting, decodedInto_own settled running same decodes alive, recordedBy_own running same]
    exact progress.own settled taken spared.context decodes turns running same
  · have foreign : ∀ thread inference, action = .advance thread →
        d.threads thread = some inference → inference.sessionId ≠ id :=
      fun thread inference step running same => own ⟨thread, inference, step, running, same⟩
    rw [noting, decodedInto_foreign settled foreign, recordedBy_foreign foreign, List.append_nil,
      List.append_nil]
    exact progress.foreign settled taken spared.context foreign

/-! ### The tokens of the session -/

/-- A session for which something is recorded is HOT. -/
theorem Progress.hot (progress : Progress L id d diary) (settled : Settled L nCtx swapDir file d)
    {entry : SessionMeta} (found : d.world.mSessions id = some entry)
    (records : recordedBy L id d action ≠ []) : entry.state = .HOT := by
  have own : ∃ thread inference, action = .advance thread ∧ d.threads thread = some inference ∧
      inference.sessionId = id := by
    by_contra none
    exact records (recordedBy_foreign fun thread inference step running same =>
      none ⟨thread, inference, step, running, same⟩)
  obtain ⟨thread, inference, rfl, running, same⟩ := own
  rw [recordedBy_own running same] at records
  have busy : inference.pc.busy = true := by
    unfold Inference.records at records
    cases here : inference.pc with
    | recordPrompt | recordGenerated => rfl
    | activate | prefill | head | sample | decode | returned =>
      rw [here] at records
      exact absurd rfl records
  obtain ⟨_, hot, _⟩ := progress.current running same busy
  rw [settled.reached.rep.ctxAt_of found] at hot
  exact (settled.reached.rep.ctxHot id entry found).mp hot

/-- The tokens of the session are those it had, and then those that were recorded. -/
def HasRecord (file : σ → Bytes → Option (List Token)) (id : Int) (base : List Token) (d : Daemon σ)
    (diary : Diary) : Prop :=
  ∃ entry, d.world.mSessions id = some entry ∧
    stored file d.world entry = some (base ++ diary.recorded.flatMap Prod.snd)

theorem HasRecord.step {base : List Token} (recorded : HasRecord file id base d diary)
    (progress : Progress L id d diary) (settled : Settled L nCtx swapDir file d)
    (keeps : KeepsFiles L file) (taken : Taken L d action d')
    (spared : Spared id d.world d'.world) :
    HasRecord file id base d' (noting L id d action diary) := by
  obtain ⟨entry, found, here⟩ := recorded
  have note : (noting L id d action diary).recorded.flatMap Prod.snd =
      diary.recorded.flatMap Prod.snd ++
        (managerCall L d action).toList.flatMap (Op.tokensFor id) := by
    rw [noting, List.flatMap_append, recordedBy_tokens]
  rcases taken.world keeps with ⟨op, r, call, served⟩ | ⟨call, outside⟩
  · rw [call, Option.toList_some, List.flatMap_singleton] at note
    obtain ⟨entry', found'⟩ := Option.isSome_iff_exists.mp (spared.alive (by rw [found]; rfl))
    rcases serve_follows keeps served settled.reached.rep settled.reached.paths entry' found' with
      ⟨absent, _⟩ | ⟨before, foundB, carry⟩
    · rw [found] at absent
      cases absent
    · rw [found, Option.some.injEq] at foundB
      subst foundB
      obtain ⟨tokens', here', all⟩ := carry _ here
      refine ⟨entry', found', ?_⟩
      rw [here', note, ← List.append_assoc, all ?_ spared.unsaved]
      by_cases nothing : recordedBy L id d action = []
      · have silent := recordedBy_tokens (L := L) id d action
        rw [nothing, call, Option.toList_some, List.flatMap_singleton] at silent
        exact Or.inl silent.symm
      · exact Or.inr (progress.hot settled found nothing)
  · rw [call, Option.toList_none, List.flatMap_nil, List.append_nil] at note
    obtain ⟨sessions, same⟩ := outside.keeps
    refine ⟨entry, sessions ▸ found, ?_⟩
    rw [same, note]
    exact here

/-- When nobody is under way, what was recorded is what was decoded. -/
theorem Progress.inOrder {base : List Token} (progress : Progress L id d diary)
    (recorded : HasRecord file id base d diary) (nobody : ∀ thread, ¬ UnderWay id d thread) :
    InOrder file id base (d, diary) := by
  cases progress with
  | busy running own _ begun => exact absurd ⟨_, running, own, begun.busy⟩ (nobody _)
  | @idle blocks _ reads =>
    have decoded := reads.decoded
    have entries := reads.recorded
    rw [List.append_nil] at decoded entries
    obtain ⟨entry, found, here⟩ := recorded
    have same : diary.recorded.flatMap Prod.snd = diary.decoded := by
      rw [entries, decoded, List.flatMap_assoc]
      exact List.flatMap_congr fun block _ => by simp [Block.entries, Block.tokens]
    rw [same] at here
    refine ⟨⟨entry, found, here, fun hot => ?_⟩, blocks, entries, decoded⟩
    rw [stored_hot hot, Option.some.injEq] at here
    exact here

end Steps

/-! ### Whole runs -/

/-- What carries the order over a run. -/
structure Ordered (L : Llama σ) (nCtx : Nat) (swapDir : Bytes)
    (file : σ → Bytes → Option (List Token)) (id : Int) (base : List Token) (s : Daemon σ × Diary) :
    Prop where
  settled : Settled L nCtx swapDir file s.1
  progress : Progress L id s.1 s.2
  recorded : HasRecord file id base s.1 s.2

theorem Ordered.step {L : Llama σ} {nCtx : Nat} {swapDir : Bytes}
    {file : σ → Bytes → Option (List Token)} {id : Int} {base : List Token} {s s' : Daemon σ × Diary}
    {action : Action} {notice : Notice} (keeps : KeepsFiles L file)
    (ordered : Ordered L nCtx swapDir file id base s)
    (quiet : Undisturbed L id s.1 action ∧ TakesTurns id s.1 action)
    (result : stepNoting L id action s = .ok (notice, s')) :
    Ordered L nCtx swapDir file id base s' := by
  obtain ⟨⟨notice', d'⟩, stepped, result⟩ := bind_eq_ok.mp result
  cases result
  obtain ⟨⟨decodes, ends⟩, turns⟩ := quiet
  have taken := step_taken stepped
  have spared := ends_iff.mp ends _ stepped
  exact ⟨taken.settled keeps ordered.settled,
    ordered.progress.step ordered.settled taken decodes spared turns,
    ordered.recorded.step ordered.progress ordered.settled keeps taken spared⟩

/-- **The record follows the cache.** From a state in which no request on the session is under way,
with requests that take turns, decodes that work and nobody that kills or evicts the session: whenever
no request on it is under way, its tokens are in the order they were decoded in, request by request. -/
theorem record_follows_cache {L : Llama σ} {file : σ → Bytes → Option (List Token)}
    (keeps : KeepsFiles L file) (ready : Bool) (nCtx : Nat) (swapDir : Bytes) (llama : σ) (id : Int)
    (before actions : List Action) {d : Daemon σ} {entry : SessionMeta}
    (reach : run (step L) before (Daemon.start ready nCtx swapDir llama) = .ok d)
    (found : d.world.mSessions id = some entry) (idle : Idle id d)
    (quiet : Along (stepNoting L id)
      (fun s action => Undisturbed L id s.1 action ∧ TakesTurns id s.1 action) actions (d, .empty)) :
    ∃ base, stored file d.world entry = some base ∧
      Throughout (stepNoting L id) (fun s => Idle id s.1 → InOrder file id base s) actions
        (d, .empty) := by
  have settled := settled_of_run keeps reach
  obtain ⟨base, here⟩ := settled.tokens id entry found
  have start : Ordered L nCtx swapDir file id base (d, .empty) := by
    refine ⟨settled, .idle ((idle_iff settled.known).mp idle) .empty, entry, found, ?_⟩
    exact here.trans (congrArg some (List.append_nil base).symm)
  refine ⟨base, here, (throughout_of_invariant
    (fun s action notice s' ordered quiet result => ordered.step keeps quiet result) start
    quiet).mono fun s ordered idle => ?_⟩
  exact ordered.progress.inOrder ordered.recorded ((idle_iff ordered.settled.known).mp idle)

/-- A daemon with two sessions. -/
def twoSessions : Except Fault (Daemon Sim) :=
  run (step (sim 9 10)) [.createSession 1, .createSession 2, .command (.setHotLimit 2)]
    (Daemon.start true 9 (text "/s") (Sim.start [7, 8]))

/-- Two requests on session 1, and one of the socket on session 2 in between. -/
def inTurn : List Action :=
  [.inferStream 1 (text "a") 1, .inferStream 1 (text "b") 0, .advance (.hal 1), .advance (.hal 2),
    .command (.infer 2 1 (text "c")), .advance (.hal 1), .advance .socket, .advance (.hal 1),
    .advance (.hal 1), .advance (.hal 1), .advance .socket, .advance (.hal 1), .advance (.hal 1),
    .advance (.hal 2), .advance (.hal 2), .advance (.hal 1), .advance .socket, .advance (.hal 2),
    .advance (.hal 2)]

theorem record_follows_cache_inTurn : ∃ d entry base, twoSessions = .ok d ∧
    d.world.mSessions 1 = some entry ∧ stored simView.fileTokens d.world entry = some base ∧
    Throughout (stepNoting (sim 9 10) 1)
      (fun s => Idle 1 s.1 → InOrder simView.fileTokens 1 base s) inTurn (d, .empty) := by
  have ready : Gives (fun d : Daemon Sim => (d.world.mSessions 1).isSome = true ∧ Idle 1 d ∧
      Along (stepNoting (sim 9 10) 1)
        (fun s action => Undisturbed (sim 9 10) 1 s.1 action ∧ TakesTurns 1 s.1 action) inTurn
        (d, .empty)) twoSessions := by
    decide +kernel
  obtain ⟨d, reach, living, idle, quiet⟩ := gives_iff.mp ready
  obtain ⟨entry, found⟩ := Option.isSome_iff_exists.mp living
  obtain ⟨base, here, ordered⟩ := record_follows_cache (sim_documented 9 10).keepsFiles true 9
    (text "/s") (Sim.start [7, 8]) 1 [.createSession 1, .createSession 2, .command (.setHotLimit 2)] inTurn
    reach found idle quiet
  exact ⟨d, entry, base, reach, found, here, ordered⟩

/-- The second request decodes and records its prompt while the first one has yet to record what it
generated. -/
def overlapping : List Action :=
  [.inferStream 1 (text "a") 1, .inferStream 1 (text "b") 0, .advance (.hal 1), .advance (.hal 1),
    .advance (.hal 1), .advance (.hal 1), .advance (.hal 1), .advance (.hal 1), .advance (.hal 2),
    .advance (.hal 2), .advance (.hal 2), .advance (.hal 1), .advance (.hal 1), .advance (.hal 2),
    .advance (.hal 2)]

/-- Both requests end, and the record is not what was decoded: the block of the first one is torn. -/
theorem record_follows_cache_overlapping : ∃ d, twoSessions = .ok d ∧ Idle 1 d ∧
    Along (stepNoting (sim 9 10) 1) (fun s action => Undisturbed (sim 9 10) 1 s.1 action)
      overlapping (d, .empty) ∧
    ∃ s, run (stepNoting (sim 9 10) 1) overlapping (d, .empty) = .ok s ∧
      (∀ thread ∈ s.1.accepted, s.1.threads thread = none) ∧
      (s.1.world.mSessions 1).map SessionMeta.tokens = some [97, 98, 7] ∧
      s.2.decoded = [97, 7, 98] ∧ ¬ InOrder simView.fileTokens 1 [] s := by
  have ready : Gives (fun d : Daemon Sim => Idle 1 d ∧ Along (stepNoting (sim 9 10) 1)
        (fun s action => Undisturbed (sim 9 10) 1 s.1 action) overlapping (d, .empty) ∧
      Gives (fun s : Daemon Sim × Diary => (∀ thread ∈ s.1.accepted, s.1.threads thread = none) ∧
        (s.1.world.mSessions 1).map (fun entry => (entry.state, entry.tokens)) =
          some (.HOT, [97, 98, 7]) ∧ s.2.decoded = [97, 7, 98])
        (run (stepNoting (sim 9 10) 1) overlapping (d, .empty))) twoSessions := by
    decide +kernel
  obtain ⟨d, reach, idle, undisturbed, torn⟩ := gives_iff.mp ready
  obtain ⟨s, ended, done, record, decoded⟩ := gives_iff.mp torn
  obtain ⟨entry, found, same⟩ := Option.map_eq_some_iff.mp record
  obtain ⟨hot, tokens⟩ := Prod.mk.inj same
  refine ⟨d, reach, idle, undisturbed, s, ended, done, ?_, decoded, fun ordered => ?_⟩
  · rw [found, Option.map_some, tokens]
  · obtain ⟨entry', found', _, memory⟩ := ordered.tokens
    rw [found, Option.some.injEq] at found'
    subst found'
    rw [memory hot, decoded] at tokens
    exact absurd tokens (by decide)

end MiniV
