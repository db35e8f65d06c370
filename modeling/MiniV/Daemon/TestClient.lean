/-
**The test client of the HAL, as `hal_test_cli` computes it.**

`infer` of the tool hands a `TestCallback` to `inferStream` and blocks in `wait` until one of its calls
says that the request has ended. The calls come in one after another, as they are made; one with a text
that binder does not carry does not come in at all.

* `Binder`: what becomes of a string on its way to another process;
* `test_client_waits`: `wait` returns exactly when the request has ended, and what the tool has printed by
  then are the texts that have come in and how the request ended.
-/

import MiniV.Daemon.Lengths
import MiniV.Daemon.Progress
import MiniV.Library.Utf8
import MiniV.Wire.Streaming

namespace MiniV

open MiniV.Library

/-! ### Binder -/

/-- **Binder**, as far as the strings of its calls are concerned: each arrives as some string, or the
call fails. Calls that do not fail arrive, and in the order in which they are made. -/
structure Binder where
  carries : Bytes → Option Bytes
  /-- A string of UTF-8 that is no longer than the text of a token arrives as it is. -/
  utf8 : ∀ s, Utf8 s → s.length ≤ bufSize → carries s = some s

/-- A call of the callback, as it arrives. -/
def Binder.delivers (binder : Binder) : Notice → Option Notice
  | .onToken sessionId token => (binder.carries token).map (.onToken sessionId)
  | .onError sessionId code message => (binder.carries message).map (.onError sessionId code)
  | .onComplete sessionId => some (.onComplete sessionId)
  | .nothing | .returned _ | .wrote _ | .wroteToken _ => none

/-- The texts that arrive. -/
def Binder.arriving (binder : Binder) (texts : List Bytes) : List Bytes := texts.filterMap binder.carries

/-! ### The callback -/

/-- `TestCallback`, with what it has printed. -/
structure TestCallback where
  mDone : Bool := false
  printed : Bytes := []
deriving DecidableEq, Repr

/-- `fputs` or `printf`. -/
def TestCallback.print (line : Bytes) (callback : TestCallback) : TestCallback :=
  { callback with printed := callback.printed ++ line }

/-- `finish`. -/
def TestCallback.finish (callback : TestCallback) : TestCallback := { callback with mDone := true }

/-- `onToken`, `onComplete` and `onError`; nothing else is a call of the callback. -/
def TestCallback.call (callback : TestCallback) : Notice → TestCallback
  | .onToken _ token => callback.print (cString token)
  | .onComplete _ => (callback.print (text "\n[DONE]\n")).finish
  | .onError _ code message =>
    (callback.print (text "\n[ERROR " ++ decimal code ++ text "] " ++ cString message ++
      text "\n")).finish
  | .nothing | .returned _ | .wrote _ | .wroteToken _ => callback

/-- The callback after the calls that are made to it. -/
def listen (binder : Binder) (calls : List Notice) : TestCallback :=
  (calls.filterMap binder.delivers).foldl TestCallback.call {}

/-- **What the tool shows its user**, and whether it still waits. -/
inductive Shows {σ : Type} (L : Llama σ) (binder : Binder) (ask : Ask) : Bytes → Bool → Prop
  | speaks {tokens : List Token} {texts : List Bytes}
      (streams : Streams L ask.maxTokens.toNat tokens texts) :
      Shows L binder ask ((binder.arriving texts).flatMap cString) true
  | completes {tokens : List Token} {texts : List Bytes}
      (streams : Streams L ask.maxTokens.toNat tokens texts) :
      Shows L binder ask ((binder.arriving texts).flatMap cString ++ text "\n[DONE]\n") false
  | fails : Shows L binder ask (text "\n[ERROR -501] SESSION_NOT_FOUND\n") false

/-- The call at the end of a request. -/
def endCall (sessionId : Int) (ok : Bool) : Notice :=
  if ok then .onComplete sessionId
  else .onError sessionId ERROR_SESSION_NOT_FOUND (text "SESSION_NOT_FOUND")

/-- What the callback prints then. -/
def endLine (ok : Bool) : Bytes :=
  if ok then text "\n[DONE]\n" else text "\n[ERROR -501] SESSION_NOT_FOUND\n"

/-! ### What it hears -/

variable {σ : Type} {L : Llama σ} {d : Daemon σ} {h : List (Action × Notice)} {actions : List Action}
  {ask : Ask} {binder : Binder} {calls : List Notice} {running : Bool}

/-- Texts in UTF-8 arrive as they are. -/
theorem Binder.arriving_utf8 {texts : List Bytes} (valid : ∀ p ∈ texts, Utf8 p)
    (short : ∀ p ∈ texts, p.length ≤ bufSize) : binder.arriving texts = texts := by
  unfold Binder.arriving
  induction texts with
  | nil => rfl
  | cons tok texts ih =>
    rw [List.forall_mem_cons] at valid short
    rw [List.filterMap_cons_some (binder.utf8 tok valid.1 short.1), ih valid.2 short.2]

/-- The call at the end always arrives. -/
theorem delivers_endCall (id : Int) (ok : Bool) :
    binder.delivers (endCall id ok) = some (endCall id ok) := by
  cases ok with
  | true => rfl
  | false =>
    have arrives : binder.carries (text "SESSION_NOT_FOUND") = some (text "SESSION_NOT_FOUND") :=
      binder.utf8 _ (by decide +kernel) (by decide)
    exact congrArg (Option.map _) arrives

theorem call_endCall (callback : TestCallback) (id : Int) (ok : Bool) :
    callback.call (endCall id ok) = (callback.print (endLine ok)).finish := by
  cases ok with
  | true => rfl
  | false =>
    have line : text "\n[ERROR " ++ decimal ERROR_SESSION_NOT_FOUND ++ text "] " ++
        cString (text "SESSION_NOT_FOUND") ++ text "\n" = endLine false := by
      decide +kernel
    exact congrArg (fun line => (callback.print line).finish) line

theorem delivers_onToken (id : Int) (texts : List Bytes) :
    (texts.map (Notice.onToken id)).filterMap binder.delivers =
      (binder.arriving texts).map (Notice.onToken id) := by
  rw [List.filterMap_map, Binder.arriving, List.map_filterMap]
  rfl

/-- The calls of a request that has ended, as they arrive. -/
theorem delivers_ended (id : Int) (texts : List Bytes) (ok : Bool) :
    (texts.map (Notice.onToken id) ++ [endCall id ok]).filterMap binder.delivers =
      (binder.arriving texts).map (Notice.onToken id) ++ [endCall id ok] := by
  rw [List.filterMap_append, delivers_onToken, List.filterMap_cons_some (delivers_endCall id ok),
    List.filterMap_nil]

theorem foldl_onToken (id : Int) (texts : List Bytes) (callback : TestCallback) :
    (texts.map (Notice.onToken id)).foldl TestCallback.call callback =
      callback.print (texts.flatMap cString) := by
  induction texts generalizing callback with
  | nil => simp [TestCallback.print]
  | cons tok texts ih => simp [ih, TestCallback.call, TestCallback.print]

/-- **The callback** of a request that has ended. -/
theorem listen_ended {texts : List Bytes} {id : Int} {ok : Bool}
    (arrive : calls.filterMap binder.delivers = texts.map (.onToken id) ++ [endCall id ok]) :
    listen binder calls = ⟨true, texts.flatMap cString ++ endLine ok⟩ := by
  rw [listen, arrive, List.foldl_append, foldl_onToken, List.foldl_cons, List.foldl_nil, call_endCall]
  rfl

/-- The callback of a conversation. -/
theorem Conversation.shows (conversation : Conversation L (some ask) calls running) :
    Shows L binder ask (listen binder calls).printed (!(listen binder calls).mDone) ∧
      (listen binder calls).mDone = !running := by
  cases conversation with
  | speaks streams =>
    rw [listen, delivers_onToken, foldl_onToken]
    exact ⟨.speaks streams, rfl⟩
  | @completes _ tokens texts streams =>
    have ended : listen binder (texts.map (.onToken ask.sessionId) ++ [.onComplete ask.sessionId]) = _ :=
      listen_ended (delivers_ended ask.sessionId texts true)
    rw [ended]
    exact ⟨.completes streams, rfl⟩
  | fails =>
    have ended : listen binder [.onError ask.sessionId ERROR_SESSION_NOT_FOUND
        (text "SESSION_NOT_FOUND")] = _ := listen_ended (delivers_ended ask.sessionId [] false)
    rw [ended]
    exact ⟨.fails, rfl⟩

/-- A conversation in UTF-8 arrives as it is. -/
theorem Conversation.arrives (conversation : Conversation L (some ask) calls running)
    (valid : ∀ sessionId tok, .onToken sessionId tok ∈ calls → Utf8 tok ∧ tok.length ≤ bufSize) :
    calls.filterMap binder.delivers = calls := by
  have arriving : ∀ texts : List Bytes, (∀ tok ∈ texts, .onToken ask.sessionId tok ∈ calls) →
      binder.arriving texts = texts := fun texts inside =>
    Binder.arriving_utf8 (fun tok member => (valid _ tok (inside tok member)).1)
      fun tok member => (valid _ tok (inside tok member)).2
  cases conversation with
  | @speaks _ tokens texts =>
    rw [delivers_onToken, arriving texts fun tok member => List.mem_map_of_mem member]
  | @completes _ tokens texts =>
    refine (delivers_ended ask.sessionId texts true).trans ?_
    rw [arriving texts fun tok member => List.mem_append_left _ (List.mem_map_of_mem member)]
    rfl
  | fails => exact delivers_ended ask.sessionId [] false

/-- **The test client** waits exactly as long as its request runs, and shows the texts that arrive and
how the request ended; and when they are texts in UTF-8, all of them arrive. -/
theorem test_client_waits (binder : Binder) {ready : Bool} {nCtx : Nat} {swapDir : Bytes} {llama : σ}
    {n : Nat} (told : history (step L) actions (Daemon.start ready nCtx swapDir llama) = .ok (h, d))
    (asked : askedAs n h = some ask) :
    Shows L binder ask (listen binder (callbacks (n + 1) h)).printed
        (d.threads (.hal (n + 1))).isSome ∧
      ((listen binder (callbacks (n + 1) h)).mDone = true ↔ d.threads (.hal (n + 1)) = none) ∧
      ((∀ sessionId tok, .onToken sessionId tok ∈ callbacks (n + 1) h →
          Utf8 tok ∧ tok.length ≤ bufSize) →
        (callbacks (n + 1) h).filterMap binder.delivers = callbacks (n + 1) h) := by
  have conversation := (conversing_of_history told).conversation n
  rw [asked] at conversation
  obtain ⟨shows', done⟩ : Shows L binder ask _ _ ∧ _ := conversation.shows
  rw [done, Bool.not_not] at shows'
  refine ⟨shows', ?_, conversation.arrives⟩
  rw [done]
  simp

/-- A binder that carries nothing but UTF-8. -/
def strictBinder : Binder where
  carries s := if Utf8 s then some s else none
  utf8 _ valid _ := if_pos valid

/-- Two texts and the end; and a letter of two bytes, each the text of a token, in calls that fail. -/
theorem test_client_waits_two :
    (∃ h d, history (step (sim 9 10)) twoRequests
        (Daemon.start true 9 (text "/s") (Sim.start [104, 105])) = .ok (h, d) ∧
      (listen strictBinder (callbacks 1 h)).printed = text "hi\n[DONE]\n" ∧
      (listen strictBinder (callbacks 1 h)).mDone = true) ∧
    ∃ h d, history (step (sim 9 10)) twoRequests
        (Daemon.start true 9 (text "/s") (Sim.start [0xC3, 0xA9])) = .ok (h, d) ∧
      (listen strictBinder (callbacks 1 h)).printed = text "\n[DONE]\n" ∧
      (listen strictBinder (callbacks 1 h)).mDone = true := by
  have ends : ∀ {script : List Token} {printed : Bytes},
      Gives (fun a => askedAs 0 a.1 = some ⟨1, text "ab", 2⟩ ∧
          (listen strictBinder (callbacks 1 a.1)).printed = printed ∧
          (a.2.threads (.hal 1)).isNone = true)
        (history (step (sim 9 10)) twoRequests
          (Daemon.start true 9 (text "/s") (Sim.start script))) →
        ∃ h d, history (step (sim 9 10)) twoRequests
            (Daemon.start true 9 (text "/s") (Sim.start script)) = .ok (h, d) ∧
          (listen strictBinder (callbacks 1 h)).printed = printed ∧
          (listen strictBinder (callbacks 1 h)).mDone = true := by
    intro script printed talk
    obtain ⟨⟨h, d⟩, told, asked, shown, gone⟩ := gives_iff.mp talk
    exact ⟨h, d, told, shown,
      (test_client_waits strictBinder told asked).2.1.mpr (Option.isNone_iff_eq_none.mp gone)⟩
  exact ⟨ends (by decide +kernel), ends (by decide +kernel)⟩

end MiniV
