/-
**The strings that a client of the HAL is sent.**

`inferStream` passes the text of every token to `callback->onToken` as it is, and a binder string
carries UTF-8 only. A token of a byte-level vocabulary may end inside a character; the socket is not
concerned, for it sends every text in Base64.

`delivered_utf8`: the strings of an inference are all valid exactly when no token ends inside a
character of the text.
-/

import MiniV.Daemon.FrontEnds
import MiniV.Engine.Streamed
import MiniV.Library.Utf8
import MiniV.Wire.Streaming

namespace MiniV

open MiniV.Library

variable {σ : Type} {L : Llama σ} {w w' : World σ}

/-- The strings that the thread of a request passes to `onToken` for the texts that `infer` hands it. -/
def delivered (reqId : Nat) (sessionId : Int) (texts : List Bytes) : List Bytes :=
  texts.flatMap fun tok => (tokenNotice (.hal reqId) sessionId (some tok)).texts

/-- The texts are passed on one by one, as they are. -/
theorem delivered_eq (reqId : Nat) (sessionId : Int) (texts : List Bytes) :
    delivered reqId sessionId texts = texts := by
  unfold delivered
  simp [tokenNotice_texts]

/-- What the socket writes is ASCII, whatever the text. -/
theorem tokenLine_utf8 (tok : Bytes) : Utf8 (tokenLine tok) := by
  have character_lt : ∀ n < 64, character n < 128 := by decide +kernel
  rw [tokenLine_eq]
  refine utf8_ascii fun b member => ?_
  rw [List.mem_append, List.mem_append] at member
  rcases member with (prefix' | inside) | last
  · revert b
    decide +kernel
  · rw [base64Encode_eq, List.mem_append] at inside
    rcases inside with group | pad
    · obtain ⟨n, value, rfl⟩ := List.mem_map.mp group
      exact character_lt n (sextets_lt tok n value)
    · rw [List.eq_of_mem_replicate pad]
      decide
  · rw [List.mem_singleton.mp last]
    decide

theorem infer_texts {id : Int} {prompt : Bytes} {maxTokens : Int} {cancelFlag : Option (Nat → Bool)}
    {a : Answer} (rep : Rep w) (result : infer L id prompt maxTokens cancelFlag w = .ok (a, w')) :
    ∃ tokens, Texts L tokens a.texts := by
  obtain ⟨ok, failed⟩ := infer_recorded rep result
  cases answer : a.ok with
  | true =>
    obtain ⟨tokens, recorded⟩ := ok answer
    exact ⟨tokens, recorded.streams.texts⟩
  | false =>
    rw [(failed answer).1]
    exact ⟨[], .nil⟩

/-- **The strings delivered for a generated text** are valid UTF-8, and the text together, exactly when
no token ends inside a character. -/
theorem delivered_utf8 {nCtx : Nat} {swapDir : Bytes} (reached : Reached L nCtx swapDir w)
    (reqId : Nat) {id : Int} {prompt : Bytes} {maxTokens : Int} {cancelFlag : Option (Nat → Bool)}
    {a : Answer} (result : infer L id prompt maxTokens cancelFlag w = .ok (a, w')) :
    ∃ tokens, Texts L tokens a.texts ∧
      ((∀ s ∈ delivered reqId id a.texts, Utf8 s) ∧
        (delivered reqId id a.texts).flatten = a.texts.flatten ↔ Uncut a.texts) := by
  obtain ⟨tokens, texts⟩ := infer_texts reached.rep result
  refine ⟨tokens, texts, ?_⟩
  rw [delivered_eq, utf8_pieces]
  exact and_iff_left rfl

/-- The world before the first message of a session, with what the sampler will say. -/
def beforeTalk (script : List Token) : Except Fault (World Sim) :=
  run (serveEngine (sim 9 10)) [.createSession 1] (World.start 9 (text "/s") (Sim.start script))

/-- Every token is a character. -/
theorem delivered_utf8_letters :
    ∃ w w' a, beforeTalk [104, 105, 2] = .ok w ∧
      infer (sim 9 10) 1 (text "ab") 10 none w = .ok (a, w') ∧
      a.texts = [text "h", text "i"] ∧ ∀ s ∈ delivered 1 1 a.texts, Utf8 s := by
  have talk : Gives (fun w => Gives (fun answer => answer.1.texts = [text "h", text "i"])
      (infer (sim 9 10) 1 (text "ab") 10 none w)) (beforeTalk [104, 105, 2]) := by
    decide +kernel
  obtain ⟨w, reach, answers⟩ := gives_iff.mp talk
  obtain ⟨⟨a, w'⟩, result, texts⟩ := gives_iff.mp answers
  refine ⟨w, w', a, reach, result, texts, ?_⟩
  obtain ⟨tokens, _, exactly⟩ := delivered_utf8 (reached_of_run reach) 1 result
  refine (exactly.mpr ?_).1
  rw [show a.texts = _ from texts]
  exact utf8_pieces.mp (by decide +kernel)

/-- A character of three bytes, one token each. -/
theorem delivered_utf8_hangul :
    ∃ w w' a, beforeTalk [0xED, 0x95, 0x9C, 2] = .ok w ∧
      infer (sim 9 10) 1 (text "ab") 10 none w = .ok (a, w') ∧
      Utf8 a.texts.flatten ∧ ∃ s ∈ delivered 1 1 a.texts, ¬ Utf8 s := by
  have talk : Gives (fun w => Gives (fun answer => Utf8 answer.1.texts.flatten ∧
        ∃ s ∈ delivered 1 1 answer.1.texts, ¬ Utf8 s)
      (infer (sim 9 10) 1 (text "ab") 10 none w)) (beforeTalk [0xED, 0x95, 0x9C, 2]) := by
    decide +kernel
  obtain ⟨w, reach, answers⟩ := gives_iff.mp talk
  obtain ⟨⟨a, w'⟩, result, cut⟩ := gives_iff.mp answers
  exact ⟨w, w', a, reach, result, cut⟩

end MiniV
