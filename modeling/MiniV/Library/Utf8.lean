/-
**Texts in UTF-8, and texts in pieces.**

`Utf8 s` says that a byte string is the encoding of some characters. Encodings can be put together and
taken apart at characters only.

* `Utf8.rest`: what follows an encoding in an encoding is one;
* `utf8_pieces`: the pieces of an encoding are encodings exactly when no character is cut.
-/

import MiniV.Library.CText

namespace MiniV.Library

/-- A byte string is the UTF-8 encoding of a list of characters. -/
def Utf8 (s : Bytes) : Prop := s.toByteArray.IsValidUTF8

instance : DecidablePred Utf8 := fun s => inferInstanceAs (Decidable s.toByteArray.IsValidUTF8)

theorem utf8_nil : Utf8 [] := ByteArray.isValidUTF8_empty

theorem Utf8.append {s t : Bytes} (first : Utf8 s) (second : Utf8 t) : Utf8 (s ++ t) := by
  unfold Utf8
  rw [List.toByteArray_append]
  exact ByteArray.IsValidUTF8.append first second

/-- Where an encoding ends, what follows is an encoding of its own. -/
theorem Utf8.rest {s t : Bytes} (first : Utf8 s) (whole : Utf8 (s ++ t)) : Utf8 t := by
  unfold Utf8 at whole ⊢
  obtain ⟨chars, encoded⟩ := first
  rw [List.toByteArray_append, encoded] at whole
  clear encoded
  induction chars with
  | nil => simpa using whole
  | cons c chars ih =>
    rw [List.utf8Encode_cons, ByteArray.append_assoc,
      ByteArray.isValidUTF8_utf8Encode_singleton_append_iff] at whole
    exact ih whole

theorem utf8_flatten {pieces : List Bytes} (valid : ∀ p ∈ pieces, Utf8 p) : Utf8 pieces.flatten := by
  induction pieces with
  | nil => exact utf8_nil
  | cons p pieces ih =>
    rw [List.forall_mem_cons] at valid
    rw [List.flatten_cons]
    exact valid.1.append (ih valid.2)

/-- **No character is cut**: every cut between two pieces is one between two characters. -/
def Uncut (pieces : List Bytes) : Prop := ∀ n, Utf8 (pieces.take n).flatten

/-- The pieces after the first of an uncut text. -/
theorem Uncut.tail {p : Bytes} {pieces : List Bytes} (uncut : Uncut (p :: pieces)) :
    Utf8 p ∧ Uncut pieces := by
  have first : Utf8 p := by
    have cut := uncut 1
    simpa using cut
  refine ⟨first, fun n => first.rest ?_⟩
  have cut := uncut (n + 1)
  rwa [List.take_succ_cons, List.flatten_cons] at cut

/-- **Every piece is a text** exactly when no character is cut. -/
theorem utf8_pieces {pieces : List Bytes} : (∀ p ∈ pieces, Utf8 p) ↔ Uncut pieces := by
  constructor
  · intro valid n
    exact utf8_flatten fun p member => valid p (List.mem_of_mem_take member)
  · intro uncut
    induction pieces with
    | nil => exact fun p member => absurd member List.not_mem_nil
    | cons p pieces ih =>
      obtain ⟨first, later⟩ := uncut.tail
      exact List.forall_mem_cons.mpr ⟨first, ih later⟩

/-- Characters of seven bits are encoded by themselves. -/
theorem utf8_ascii {s : Bytes} (ascii : ∀ b ∈ s, b < 128) : Utf8 s := by
  have single : ∀ n < 128, Utf8 [UInt8.ofNat n] := by decide +kernel
  induction s with
  | nil => exact utf8_nil
  | cons b s ih =>
    rw [List.forall_mem_cons] at ascii
    have first := single b.toNat (UInt8.lt_iff_toNat_lt.mp ascii.1)
    rw [UInt8.ofNat_toNat] at first
    exact first.append (ih ascii.2)

end MiniV.Library
