/-
**What the callback of a request is called with.**

`inferStream` answers at once, and all that its client learns later comes through the callback: the
thread of the request calls `onToken` for every text, and at last `onComplete` or `onError`. Other
requests, cancels and the socket take their steps in between.

* `Said`: what an inference has handed out, by what it does next;
* `Conversation`: what a callback has been called with;
* `conversation_of_run`: so it is after any actions in any order.
-/

import MiniV.Daemon.Settled
import MiniV.Engine.Streamed
import MiniV.Library.History

namespace MiniV

open MiniV.Library

variable {σ : Type} {L : Llama σ} {d d' : Daemon σ} {w w' : World σ} {notice : Notice}
  {action : Action} {inference : Inference} {pc : Pc} {texts : List Bytes}

/-! ### Requests and callbacks -/

/-- The arguments of a request. -/
structure Ask where
  sessionId : Int
  prompt : Bytes
  maxTokens : Int
deriving DecidableEq, Repr

/-- A call of `inferStream`, with the arguments if it was accepted. -/
def askOf : Action × Notice → Option (Option Ask)
  | (.inferStream sessionId prompt maxTokens, notice) =>
    some (if notice = .returned 0 then some ⟨sessionId, prompt, maxTokens⟩ else none)
  | _ => none

/-- The calls of `inferStream`, in order: they are numbered by their places, and the first request has
the id 1. -/
def asks (h : List (Action × Notice)) : List (Option Ask) := h.filterMap askOf

/-- The accepted request of this number. -/
def askedAs (n : Nat) (h : List (Action × Notice)) : Option Ask := ((asks h)[n]?).join

/-- What the thread of a request tells its client. -/
def callbackOf (reqId : Nat) (e : Action × Notice) : Option Notice :=
  if e.1 = .advance (.hal reqId) ∧ e.2 ≠ .nothing then some e.2 else none

/-- The calls of the callback of a request. -/
def callbacks (reqId : Nat) (h : List (Action × Notice)) : List Notice :=
  h.filterMap (callbackOf reqId)

/-- **What a callback has been called with**, and whether its request still runs: nothing if there is
no such request; else texts of tokens, no more than asked for and none that ends a text, and
`onComplete` behind them when the request has ended; or `onError` alone. -/
inductive Conversation (L : Llama σ) : Option Ask → List Notice → Bool → Prop
  | nobody : Conversation L none [] false
  | speaks {ask : Ask} {tokens : List Token} {texts : List Bytes}
      (streams : Streams L ask.maxTokens.toNat tokens texts) :
      Conversation L (some ask) (texts.map (.onToken ask.sessionId)) true
  | completes {ask : Ask} {tokens : List Token} {texts : List Bytes}
      (streams : Streams L ask.maxTokens.toNat tokens texts) :
      Conversation L (some ask) (texts.map (.onToken ask.sessionId) ++ [.onComplete ask.sessionId])
        false
  | fails (ask : Ask) :
      Conversation L (some ask)
        [.onError ask.sessionId ERROR_SESSION_NOT_FOUND (text "SESSION_NOT_FOUND")] false

/-! ### What an inference has handed out -/

theorem Streams.snoc {room : Nat} {tok : Token} {tokens : List Token} {piece : Bytes}
    (streams : Streams L room tokens texts) (goes : L.vocabIsEog tok = false)
    (is : pieceText L tok = .ok piece) :
    Streams L (room + 1) (tokens ++ [tok]) (texts ++ [piece]) where
  few := by simpa using streams.few
  goes tok' member := by
    rcases List.mem_append.mp member with old | new
    · exact streams.goes tok' old
    · rwa [List.mem_singleton.mp new]
  texts := List.rel_append streams.texts (.cons is .nil)

theorem Streams.mono {room room' : Nat} {tokens : List Token} (streams : Streams L room tokens texts)
    (more : room ≤ room') : Streams L room' tokens texts :=
  ⟨streams.few.trans more, streams.goes, streams.texts⟩

/-- **The texts an inference has handed out**, by what it does next: those of the tokens it has
generated. -/
inductive Said (L : Llama σ) (maxTokens : Int) : Pc → List Bytes → Prop
  | activate : Said L maxTokens .activate []
  | prefill (ctx : Ctx) : Said L maxTokens (.prefill ctx) []
  | recordPrompt (ctx : Ctx) : Said L maxTokens (.recordPrompt ctx) []
  | head {ctx : Ctx} {i : Nat} {tokens : List Token} {texts : List Bytes}
      (room : (i : Int) < maxTokens) (streams : Streams L i tokens texts) :
      Said L maxTokens (.head ctx i tokens) texts
  | sample {ctx : Ctx} {i : Nat} {tokens : List Token} {texts : List Bytes}
      (room : (i : Int) < maxTokens) (streams : Streams L i tokens texts) :
      Said L maxTokens (.sample ctx i tokens) texts
  | decode {ctx : Ctx} {i : Nat} {tokens : List Token} {tok : Token} {texts : List Bytes}
      (room : (i : Int) < maxTokens) (streams : Streams L (i + 1) tokens texts) :
      Said L maxTokens (.decode ctx i tokens tok) texts
  | recordGenerated {tokens : List Token} {texts : List Bytes}
      (streams : Streams L maxTokens.toNat tokens texts) :
      Said L maxTokens (.recordGenerated tokens) texts
  | failed : Said L maxTokens (.returned false) []
  | completed {tokens : List Token} {texts : List Bytes}
      (streams : Streams L maxTokens.toNat tokens texts) : Said L maxTokens (.returned true) texts

/-- Whatever comes next, the texts are those of tokens, no more than asked for. -/
theorem Said.streams {maxTokens : Int} (said : Said L maxTokens pc texts) :
    ∃ tokens, Streams L maxTokens.toNat tokens texts := by
  cases said with
  | activate | prefill | recordPrompt | failed => exact ⟨[], .nil L _⟩
  | head room streams | sample room streams | decode room streams =>
    exact ⟨_, streams.mono (by omega)⟩
  | recordGenerated streams | completed streams => exact ⟨_, streams⟩

/-- The loop is tested with the tokens generated so far. -/
theorem Said.loopTest {maxTokens : Int} {ctx : Ctx} {i : Nat} {tokens : List Token}
    (bound : (i : Int) ≤ max 0 maxTokens) (streams : Streams L i tokens texts) :
    Said L maxTokens (loopTest ctx maxTokens i tokens) texts := by
  unfold MiniV.loopTest
  by_cases room : (i : Int) < maxTokens
  · rw [if_pos room]
    exact .head room streams
  · rw [if_neg room]
    exact .recordGenerated (streams.mono (by omega))

/-- **One step** hands out the text of the token it samples, if it samples one, and nothing else. -/
theorem Said.step {text? : Option Bytes} {cancelled : Bool}
    (said : Said L inference.maxTokens inference.pc texts)
    (result : inferStep L cancelled inference w = .ok ((pc, text?), w')) :
    Said L inference.maxTokens pc (texts ++ text?.toList) := by
  unfold inferStep at result
  cases here : inference.pc with
  | activate =>
    rw [here] at said
    cases said
    simp only [here] at result
    obtain ⟨⟨ctx, w1⟩, _, result⟩ := bind_eq_ok.mp result
    cases ctx with
    | none =>
      cases result
      exact .failed
    | some ctx =>
      cases result
      exact .prefill ctx
  | prefill ctx =>
    rw [here] at said
    cases said
    simp only [here] at result
    split at result
    · cases result
    · cases result
      split
      · exact .failed
      · exact .recordPrompt ctx
  | recordPrompt ctx =>
    rw [here] at said
    cases said
    simp only [here] at result
    obtain ⟨w1, _, result⟩ := bind_eq_ok.mp result
    split at result
    · cases result
    · cases result
      exact .loopTest (by simp) (.nil L 0)
  | head ctx i tokens =>
    rw [here] at said
    simp only [here] at result
    cases said with
    | head room streams =>
      cases result
      rw [Option.toList_none, List.append_nil]
      split
      · exact .recordGenerated (streams.mono (by omega))
      · exact .sample room streams
  | sample ctx i tokens =>
    rw [here] at said
    simp only [here] at result
    cases said with
    | sample room streams =>
      split at result
      · cases result
      · split at result
        · cases result
          rw [Option.toList_none, List.append_nil]
          exact .recordGenerated (streams.mono (by omega))
        · rename_i goes
          obtain ⟨piece, is, result⟩ := bind_eq_ok.mp result
          cases result
          exact .decode room (streams.snoc (Bool.eq_false_iff.mpr goes) is)
  | decode ctx i tokens tok =>
    rw [here] at said
    simp only [here] at result
    cases said with
    | decode room streams =>
      split at result
      · cases result
      · cases result
        rw [Option.toList_none, List.append_nil]
        split
        · exact .recordGenerated (streams.mono (by omega))
        · exact .loopTest (by omega) streams
  | recordGenerated tokens =>
    rw [here] at said
    simp only [here] at result
    obtain ⟨w1, _, result⟩ := bind_eq_ok.mp result
    cases said with
    | recordGenerated streams =>
      cases result
      rw [Option.toList_none, List.append_nil]
      exact .completed streams
  | returned ok =>
    rw [here] at said
    simp only [here] at result
    cases result
    rwa [Option.toList_none, List.append_nil]

/-! ### One action -/

/-- **The next step of an inference**, with what its client is told. -/
inductive Advanced (L : Llama σ) (thread : Thread) (d : Daemon σ) : Notice → Daemon σ → Prop
  | rests (absent : d.threads thread = none) : Advanced L thread d .nothing d
  | goes {inference : Inference} {pc : Pc} {text? : Option Bytes} {w : World σ}
      (running : d.threads thread = some inference)
      (stepped : inferStep L (d.cancelled thread) inference d.world = .ok ((pc, text?), w)) :
      Advanced L thread d (tokenNotice thread inference.sessionId text?)
        ({ d with world := w }.setThread thread (some { inference with pc := pc }))
  | ends {inference : Inference} {ok : Bool} (running : d.threads thread = some inference)
      (here : inference.pc = .returned ok) :
      Advanced L thread d (finish thread inference.sessionId ok d).1
        (finish thread inference.sessionId ok d).2

theorem advance_advanced {thread : Thread} (result : advance L thread d = .ok (notice, d')) :
    Advanced L thread d notice d' := by
  unfold advance at result
  split at result
  · rename_i absent
    cases result
    exact .rests absent
  · rename_i inference running
    split at result
    · rename_i ok here
      have both := Except.ok.inj result
      rw [show notice = (finish thread inference.sessionId ok d).1 by rw [both],
        show d' = (finish thread inference.sessionId ok d).2 by rw [both]]
      exact .ends running here
    · obtain ⟨⟨⟨pc, text?⟩, w⟩, stepped, result⟩ := bind_eq_ok.mp result
      cases result
      exact .goes running stepped

/-- A request whose thread is not started takes the steps that are its own, and no others. -/
theorem Taken.others (taken : Taken L d action d') {reqId : Nat}
    (old : ∀ sessionId prompt maxTokens, action = .inferStream sessionId prompt maxTokens →
      reqId ≠ d.reqCounter + 1)
    (foreign : action ≠ .advance (.hal reqId)) : d'.threads (.hal reqId) = d.threads (.hal reqId) := by
  cases taken with
  | refuses | calls | rests => rfl
  | asks sessionId prompt maxTokens =>
    have other := old sessionId prompt maxTokens rfl
    rw [inferStream_threads]
    split
    · exact Function.update_of_ne (fun same => other (Thread.hal.inj same)) ..
    · rfl
  | cancels sessionId => rw [cancel_threads]
  | starts => exact Daemon.setThread_of_ne (by simp) ..
  | advances => exact Daemon.setThread_of_ne (fun same => foreign (by rw [same])) ..
  | finishes =>
    rw [finish_threads]
    exact Function.update_of_ne (fun same => foreign (by rw [same])) ..

/-- The thread of a request that was made before. -/
theorem Taken.foreign (taken : Taken L d action d') {reqId : Nat} (known : reqId ≤ d.reqCounter)
    (foreign : action ≠ .advance (.hal reqId)) : d'.threads (.hal reqId) = d.threads (.hal reqId) :=
  taken.others (fun _ _ _ _ => by omega) foreign

/-- Only `inferStream` counts requests. -/
theorem Taken.counter (taken : Taken L d action d')
    (other : ∀ sessionId prompt maxTokens, action ≠ .inferStream sessionId prompt maxTokens) :
    d'.reqCounter = d.reqCounter := by
  cases taken with
  | asks sessionId prompt maxTokens => exact absurd rfl (other sessionId prompt maxTokens)
  | cancels => simp
  | finishes => simp
  | refuses | calls | starts | rests | advances => rfl

/-! ### Every history -/

/-- The callback of a request, and the thread that calls it. -/
inductive Speaking (L : Llama σ) (ask : Ask) : List Notice → Option Inference → Prop
  | runs {pc : Pc} {texts : List Bytes} (said : Said L ask.maxTokens pc texts) :
      Speaking L ask (texts.map (.onToken ask.sessionId))
        (some ⟨ask.sessionId, ask.prompt, ask.maxTokens, pc⟩)
  | ended {calls : List Notice} (conversation : Conversation L (some ask) calls false) :
      Speaking L ask calls none

/-- **The callbacks after a history.** -/
structure Conversing (L : Llama σ) (h : List (Action × Notice)) (d : Daemon σ) : Prop where
  counted : (asks h).length = d.reqCounter
  silent : ∀ n, askedAs n h = none → callbacks (n + 1) h = [] ∧ d.threads (.hal (n + 1)) = none
  speaking : ∀ n ask, askedAs n h = some ask →
    Speaking L ask (callbacks (n + 1) h) (d.threads (.hal (n + 1)))

section Histories

variable {h : List (Action × Notice)} {n : Nat}

theorem filterMap_concat {A B : Type} (f : A → Option B) (l : List A) (a : A) :
    (l ++ [a]).filterMap f = l.filterMap f ++ (f a).toList := by
  rw [List.filterMap_append]
  cases image : f a <;> simp [image]

theorem callbacks_concat (reqId : Nat) (e : Action × Notice) :
    callbacks reqId (h ++ [e]) = callbacks reqId h ++ (callbackOf reqId e).toList :=
  filterMap_concat ..

theorem asks_concat (e : Action × Notice) : asks (h ++ [e]) = asks h ++ (askOf e).toList :=
  filterMap_concat ..

/-- An action that asks for nothing leaves the numbers of the requests. -/
theorem askedAs_same (e : Action × Notice) (none' : askOf e = none) :
    askedAs n (h ++ [e]) = askedAs n h := by
  rw [askedAs, askedAs, asks_concat, none', Option.toList_none, List.append_nil]

/-- The call of `inferStream` that comes next has the next number. -/
theorem askedAs_next (e : Action × Notice) {ask? : Option Ask} (asked : askOf e = some ask?) :
    askedAs n (h ++ [e]) = if n = (asks h).length then ask? else askedAs n h := by
  rw [askedAs, askedAs, asks_concat, asked, Option.toList_some]
  by_cases new : n = (asks h).length
  · rw [if_pos new, new, List.getElem?_concat_length, Option.join_some]
  · rw [if_neg new]
    rcases Nat.lt_or_gt_of_ne new with old | later
    · rw [List.getElem?_append_left old]
    · have short : (asks h ++ [ask?]).length ≤ n := by
        rw [List.length_append, List.length_singleton]
        exact later
      rw [List.getElem?_eq_none short, List.getElem?_eq_none (Nat.le_of_lt later)]

/-- An action that is no step of a request leaves its callback alone. -/
theorem callbacks_same (reqId : Nat) (e : Action × Notice) (other : e.1 ≠ .advance (.hal reqId)) :
    callbacks reqId (h ++ [e]) = callbacks reqId h := by
  rw [callbacks_concat, callbackOf, if_neg fun both => other both.1, Option.toList_none,
    List.append_nil]

theorem askOf_eq_none (e : Action × Notice)
    (other : ∀ sessionId prompt maxTokens, e.1 ≠ .inferStream sessionId prompt maxTokens) :
    askOf e = none := by
  obtain ⟨action, notice⟩ := e
  cases action with
  | inferStream sessionId prompt maxTokens => exact absurd rfl (other sessionId prompt maxTokens)
  | _ => rfl

/-- A request is numbered, and runs if it is accepted. -/
theorem Conversing.asks (conversing : Conversing L h d) (sessionId : Int) (prompt : Bytes)
    (maxTokens : Int) :
    Conversing L (h ++ [(.inferStream sessionId prompt maxTokens,
      (inferStream sessionId prompt maxTokens d).1)]) (inferStream sessionId prompt maxTokens d).2 := by
  have answer : (inferStream sessionId prompt maxTokens d).1 = .returned 0 ↔ d.ready = true := by
    unfold inferStream
    by_cases ready : d.ready = true <;> simp [ready, INFER_ERR_ENGINE_NOT_READY]
  have numbered : ∀ n, askedAs n (h ++ [(.inferStream sessionId prompt maxTokens,
      (inferStream sessionId prompt maxTokens d).1)]) = if n = d.reqCounter then
        (if d.ready = true then some ⟨sessionId, prompt, maxTokens⟩ else none) else askedAs n h := by
    intro n
    rw [askedAs_next _ rfl, conversing.counted]
    simp only [answer]
  have quiet : ∀ n, callbacks n (h ++ [(.inferStream sessionId prompt maxTokens,
      (inferStream sessionId prompt maxTokens d).1)]) = callbacks n h :=
    fun n => callbacks_same n _ (by simp)
  have old : ∀ n, n ≠ d.reqCounter →
      (inferStream sessionId prompt maxTokens d).2.threads (.hal (n + 1)) = d.threads (.hal (n + 1)) :=
    fun n other => (Taken.asks (L := L) sessionId prompt maxTokens).others
      (fun _ _ _ _ => by omega) (by simp)
  -- the number of the new request was nobody's before
  have fresh := conversing.silent d.reqCounter (by
    rw [askedAs, List.getElem?_eq_none conversing.counted.le, Option.join_none])
  refine ⟨?_, fun n nobody => ?_, fun n ask asked => ?_⟩
  · rw [asks_concat, List.length_append, conversing.counted, inferStream_reqCounter]
    rfl
  · rw [quiet]
    rw [numbered] at nobody
    by_cases new : n = d.reqCounter
    · rw [if_pos new] at nobody
      subst new
      by_cases ready : d.ready = true
      · rw [if_pos ready] at nobody
        cases nobody
      · rw [inferStream_threads, if_neg ready]
        exact fresh
    · rw [if_neg new] at nobody
      rw [old n new]
      exact conversing.silent n nobody
  · rw [quiet]
    rw [numbered] at asked
    by_cases new : n = d.reqCounter
    · rw [if_pos new] at asked
      subst new
      by_cases ready : d.ready = true
      · rw [if_pos ready, Option.some.injEq] at asked
        subst asked
        rw [fresh.1, inferStream_threads, if_pos ready, Function.update_self]
        exact .runs .activate
      · rw [if_neg ready] at asked
        cases asked
    · rw [if_neg new] at asked
      rw [old n new]
      exact conversing.speaking n ask asked

/-- What is told of a text. -/
theorem callbackOf_token (reqId : Nat) (sessionId : Int) (text? : Option Bytes) :
    (callbackOf reqId (.advance (.hal reqId), tokenNotice (.hal reqId) sessionId text?)).toList =
      text?.toList.map (.onToken sessionId) := by
  cases text? <;> simp [callbackOf, tokenNotice]

/-- What is told at the end. -/
theorem callbackOf_finish (reqId : Nat) (sessionId : Int) (ok : Bool) (d : Daemon σ) :
    (callbackOf reqId (.advance (.hal reqId), (finish (.hal reqId) sessionId ok d).1)).toList =
      [if ok then .onComplete sessionId
        else .onError sessionId ERROR_SESSION_NOT_FOUND (text "SESSION_NOT_FOUND")] := by
  cases ok <;> simp [callbackOf, finish]

/-- **A step of a request** adds what its client is told. -/
theorem Speaking.step {ask : Ask} {reqId : Nat}
    (speaking : Speaking L ask (callbacks reqId h) (d.threads (.hal reqId)))
    (result : advance L (.hal reqId) d = .ok (notice, d')) :
    Speaking L ask (callbacks reqId (h ++ [(.advance (.hal reqId), notice)]))
      (d'.threads (.hal reqId)) := by
  rw [callbacks_concat]
  generalize callbacks reqId h = calls at speaking ⊢
  cases advance_advanced result with
  | rests absent =>
    have quiet : callbackOf reqId (.advance (.hal reqId), .nothing) = none := if_neg (by simp)
    rwa [quiet, Option.toList_none, List.append_nil]
  | @goes inference pc text? w running stepped =>
    rw [callbackOf_token, Daemon.setThread_self]
    rw [running] at speaking
    cases speaking with
    | @runs pc' texts said =>
      rw [← List.map_append]
      exact .runs (said.step stepped)
  | @ends inference ok running here =>
    rw [callbackOf_finish, finish_threads, Function.update_self]
    rw [running] at speaking
    cases speaking with
    | @runs pc texts said =>
      refine .ended ?_
      obtain rfl : pc = .returned ok := here
      cases said with
      | failed => exact .fails ask
      | completed streams => exact .completes streams

/-- **One action.** -/
theorem Conversing.step (conversing : Conversing L h d)
    (result : MiniV.step L action d = .ok (notice, d')) : Conversing L (h ++ [(action, notice)]) d' := by
  have taken := step_taken result
  by_cases asking : ∃ sessionId prompt maxTokens, action = .inferStream sessionId prompt maxTokens
  · obtain ⟨sessionId, prompt, maxTokens, rfl⟩ := asking
    have both : inferStream sessionId prompt maxTokens d = (notice, d') := Except.ok.inj result
    have next := conversing.asks sessionId prompt maxTokens
    rwa [both] at next
  · have other : ∀ sessionId prompt maxTokens, action ≠ .inferStream sessionId prompt maxTokens :=
      fun sessionId prompt maxTokens same => asking ⟨sessionId, prompt, maxTokens, same⟩
    have old : ∀ {reqId : Nat} sessionId prompt maxTokens,
        action = .inferStream sessionId prompt maxTokens → reqId ≠ d.reqCounter + 1 :=
      fun sessionId prompt maxTokens same => absurd same (other sessionId prompt maxTokens)
    have quiet := askOf_eq_none (action, notice) other
    refine ⟨?_, fun n nobody => ?_, fun n ask asked => ?_⟩
    · rw [asks_concat, quiet, Option.toList_none, List.append_nil, taken.counter other,
        conversing.counted]
    · rw [askedAs_same _ quiet] at nobody
      obtain ⟨calls, gone⟩ := conversing.silent n nobody
      by_cases own : action = .advance (.hal (n + 1))
      · subst own
        rw [callbacks_concat, calls]
        cases advance_advanced result with
        | rests absent => exact ⟨by simp [callbackOf], gone⟩
        | goes running => simp [gone] at running
        | ends running => simp [gone] at running
      · rw [taken.others old own]
        exact ⟨(callbacks_same (n + 1) (action, notice) own).trans calls, gone⟩
    · rw [askedAs_same _ quiet] at asked
      have before := conversing.speaking n ask asked
      by_cases own : action = .advance (.hal (n + 1))
      · subst own
        exact before.step result
      · rwa [callbacks_same (n + 1) (action, notice) own, taken.others old own]

theorem Conversing.start (L : Llama σ) (ready : Bool) (nCtx : Nat) (swapDir : Bytes) (llama : σ) :
    Conversing L [] (Daemon.start ready nCtx swapDir llama) where
  counted := rfl
  silent _ _ := ⟨rfl, rfl⟩
  speaking n ask asked := by simp [askedAs, MiniV.asks] at asked

theorem conversing_of_history {ready : Bool} {nCtx : Nat} {swapDir : Bytes} {llama : σ}
    {actions : List Action}
    (told : history (MiniV.step L) actions (Daemon.start ready nCtx swapDir llama) = .ok (h, d)) :
    Conversing L h d :=
  history_invariant (I := Conversing L) (fun _ _ _ _ _ conversing => conversing.step)
    (.start L ready nCtx swapDir llama) told

/-- What a callback has heard, read off the conversing. -/
theorem Conversing.conversation (conversing : Conversing L h d) (n : Nat) :
    Conversation L (askedAs n h) (callbacks (n + 1) h) (d.threads (.hal (n + 1))).isSome := by
  cases asked : askedAs n h with
  | none =>
    obtain ⟨calls, gone⟩ := conversing.silent n asked
    rw [calls, gone]
    exact .nobody
  | some ask =>
    have speaking := conversing.speaking n ask asked
    generalize callbacks (n + 1) h = calls at speaking ⊢
    generalize d.threads (.hal (n + 1)) = running at speaking ⊢
    cases speaking with
    | runs said =>
      obtain ⟨tokens, streams⟩ := said.streams
      exact .speaks streams
    | ended conversation => exact conversation

/-- **The protocol of a callback**, after any actions in any order: a request that was refused, or not
made, has no calls; one that was accepted has the texts of tokens in its own session, no more than it
asked for, and one call that says how it ended just when its thread has; nothing comes after that. -/
theorem conversation_of_run {ready : Bool} {nCtx : Nat} {swapDir : Bytes} {llama : σ}
    {actions : List Action}
    (told : history (MiniV.step L) actions (Daemon.start ready nCtx swapDir llama) = .ok (h, d))
    (n : Nat) :
    Conversation L (askedAs n h) (callbacks (n + 1) h) (d.threads (.hal (n + 1))).isSome :=
  (conversing_of_history told).conversation n

/-- Nothing is told of a request that has ended. -/
theorem callbacks_over {actions : List Action} {h' : List (Action × Notice)} {mid : Daemon σ}
    (known : n + 1 ≤ mid.reqCounter) (ended : mid.threads (.hal (n + 1)) = none)
    (told : history (MiniV.step L) actions mid = .ok (h', d)) :
    callbacks (n + 1) h' = [] ∧ d.threads (.hal (n + 1)) = none := by
  let Over : List (Action × Notice) → Daemon σ → Prop := fun h s =>
    callbacks (n + 1) h = [] ∧ s.threads (.hal (n + 1)) = none ∧ n + 1 ≤ s.reqCounter
  have kept : ∀ h s action notice s', Over h s → MiniV.step L action s = .ok (notice, s') →
      Over (h ++ [(action, notice)]) s' := by
    rintro h s action notice s' ⟨quiet, gone, known⟩ result
    have taken := step_taken result
    by_cases own : action = .advance (.hal (n + 1))
    · subst own
      cases advance_advanced result with
      | rests absent =>
        refine ⟨?_, gone, known⟩
        rw [callbacks_concat, quiet]
        simp [callbackOf]
      | goes running => simp [gone] at running
      | ends running => simp [gone] at running
    · refine ⟨(callbacks_same (n + 1) (action, notice) own).trans quiet, ?_,
        known.trans taken.reqCounter⟩
      rw [taken.foreign known own]
      exact gone
  have start : Over [] mid := ⟨rfl, ended, known⟩
  obtain ⟨quiet, gone, _⟩ := history_invariant (I := Over) kept start told
  exact ⟨quiet, gone⟩

end Histories

/-- A request on a session that is there and one on a session that is not take turns with a binder call
and the socket. -/
def twoRequests : List Action :=
  [.createSession 1, .inferStream 1 (text "ab") 2, .inferStream 5 (text "c") 2, .advance (.hal 1),
    .command .hello, .advance (.hal 2), .advance (.hal 1), .advance (.hal 1), .advance (.hal 1),
    .advance (.hal 1), .advance (.hal 2), .advance (.hal 1), .createSession 5, .advance (.hal 1),
    .advance (.hal 1), .advance (.hal 2), .advance (.hal 1), .advance (.hal 1), .advance (.hal 1)]

/-- The one is told two texts and that they are all, the other that it failed. -/
theorem conversation_of_run_two :
    ∃ h d, history (step (sim 9 10)) twoRequests
        (Daemon.start true 9 (text "/s") (Sim.start [104, 105])) = .ok (h, d) ∧
      Conversation (sim 9 10) (some ⟨1, text "ab", 2⟩)
        [.onToken 1 (text "h"), .onToken 1 (text "i"), .onComplete 1] false ∧
      Conversation (sim 9 10) (some ⟨5, text "c", 2⟩)
        [.onError 5 ERROR_SESSION_NOT_FOUND (text "SESSION_NOT_FOUND")] false := by
  have talk : Gives (fun a => (askedAs 0 a.1 = some ⟨1, text "ab", 2⟩ ∧
        callbacks 1 a.1 = [.onToken 1 (text "h"), .onToken 1 (text "i"), .onComplete 1] ∧
        (a.2.threads (.hal 1)).isSome = false) ∧
      askedAs 1 a.1 = some ⟨5, text "c", 2⟩ ∧
      callbacks 2 a.1 = [.onError 5 ERROR_SESSION_NOT_FOUND (text "SESSION_NOT_FOUND")] ∧
      (a.2.threads (.hal 2)).isSome = false)
      (history (step (sim 9 10)) twoRequests
        (Daemon.start true 9 (text "/s") (Sim.start [104, 105]))) := by
    decide +kernel
  obtain ⟨⟨h, d⟩, told, ⟨ask1, calls1, gone1⟩, ask2, calls2, gone2⟩ := gives_iff.mp talk
  have first := conversation_of_run told 0
  have second := conversation_of_run told 1
  rw [ask1, calls1, gone1] at first
  rw [ask2, calls2, gone2] at second
  exact ⟨h, d, told, first, second⟩

end MiniV
