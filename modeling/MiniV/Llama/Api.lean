/-
**The llama library, the file system and the clock, as the daemon calls them.**

The daemon links a prebuilt llama; its code is not part of this development. `Llama σ` is the record
of the calls the session manager and the engines make, over a type `σ` of everything that lies
outside the daemon: the memory of the contexts, the files, the random state of the sampler, the
clock. Each call may answer in any way and change that state in any way; what is documented of the
calls, and needed by a result, is a hypothesis of the result (`Llama.Contract`).

Contexts are named by the order of their creation, so that two contexts never share a name even
when the allocator reuses an address.
-/

import MiniV.Library.CText

namespace MiniV

open MiniV.Library

/-- `llama_token`. -/
abbrev Token := Int

/-- A `llama_context`, named by the order of creation. -/
abbrev Ctx := Nat

/-- What `llama_state_seq_load_file` hands back: the bytes read, zero on failure, and the tokens it
stored in the caller's buffer, whose number it reports as `n_token_count_out`. -/
structure LoadResult where
  loaded : UInt64
  tokensOut : List Token
deriving DecidableEq, Repr

/-- The calls of the daemon to the outside. -/
structure Llama (σ : Type) where
  /-- `llama_init_from_model`: whether the context of this name was created. -/
  initFromModel : Ctx → σ → Bool × σ
  /-- `llama_free`. -/
  free : Ctx → σ → σ
  /-- `llama_state_seq_save_file` on sequence 0: the bytes written, zero on failure. -/
  stateSeqSaveFile : Ctx → Bytes → List Token → σ → UInt64 × σ
  /-- `llama_state_seq_get_size` of sequence 0. -/
  stateSeqGetSize : Ctx → σ → UInt64 × σ
  /-- `llama_state_seq_load_file` into sequence 0, with the capacity of the token buffer. -/
  stateSeqLoadFile : Ctx → Bytes → Nat → σ → LoadResult × σ
  /-- `llama_memory_seq_rm` of the positions `[p0, p1)` of sequence 0. -/
  memorySeqRm : Ctx → Int → Int → σ → σ
  /-- `llama_memory_seq_add` to the positions `[p0, p1)` of sequence 0; `p1 < 0` is no bound. -/
  memorySeqAdd : Ctx → Int → Int → Int → σ → σ
  /-- `llama_decode` of a batch from `llama_batch_get_one`: zero on success. -/
  decode : Ctx → List Token → σ → Int × σ
  /-- `llama_sampler_sample` at the last position, and `llama_sampler_accept` of its token. -/
  samplerSample : Ctx → σ → Token × σ
  /-- `llama_tokenize` with a large enough buffer. -/
  tokenize : Bytes → List Token
  /-- `llama_vocab_is_eog`. -/
  vocabIsEog : Token → Bool
  /-- `llama_token_to_piece`: the number returned, and the bytes stored in the buffer. -/
  tokenToPiece : Token → Int × Bytes
  /-- `std::remove` of a file. -/
  removeFile : Bytes → σ → σ
  /-- `nowMs()`, from the steady clock. -/
  nowMs : σ → Int × σ

end MiniV
