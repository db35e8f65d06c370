/-
**The standard Base64, and what `base64_util.h` has to do with it.**

The standard takes three bytes at a time: their 24 bits, the most significant first, are four
characters of the alphabet. One or two bytes at the end are filled up with zero bits to two or three
characters, and padded.

* `base64Encode_standard`: the encoder writes the standard encoding;
* `base64Decode_noise`: the decoder reads an encoding back through any noise that spares the alphabet.
-/

import MiniV.Wire.Base64

namespace MiniV

open MiniV.Library

/-! ### The standard -/

/-- The character of a value: `A` to `Z`, `a` to `z`, `0` to `9`, `+`, `/`. -/
def alphabet (n : Nat) : UInt8 :=
  if n < 26 then UInt8.ofNat (65 + n)
  else if n < 52 then UInt8.ofNat (97 + (n - 26))
  else if n < 62 then UInt8.ofNat (48 + (n - 52))
  else if n = 62 then 43
  else 47

/-- The characters of the 24 bits of a group, the most significant first. -/
def groupOf (value : Nat) : Bytes :=
  [alphabet (value / 2 ^ 18 % 64), alphabet (value / 2 ^ 12 % 64), alphabet (value / 2 ^ 6 % 64),
    alphabet (value % 64)]

/-- The characters that stand for the bits of a text, without the padding. -/
def standardBody : Bytes → Bytes
  | a :: b :: c :: rest =>
    groupOf (a.toNat * 2 ^ 16 + b.toNat * 2 ^ 8 + c.toNat) ++ standardBody rest
  | [a, b] => (groupOf (a.toNat * 2 ^ 16 + b.toNat * 2 ^ 8)).take 3
  | [a] => (groupOf (a.toNat * 2 ^ 16)).take 2
  | [] => []

/-- The padding of a text of so many bytes. -/
def standardPadding (n : Nat) : Bytes := List.replicate ((3 - n % 3) % 3) padding

/-- **The encoding of the standard.** -/
def standardEncode (s : Bytes) : Bytes := standardBody s ++ standardPadding s.length

/-! ### The encoder -/

/-- The string of the source is the alphabet. -/
theorem character_eq_alphabet {n : Nat} (small : n < 64) : character n = alphabet n := by
  revert small
  revert n
  decide +kernel

theorem character_mod (n : Nat) : character (n % 64) = alphabet (n % 64) :=
  character_eq_alphabet (Nat.mod_lt n (by decide))

/-- The groups of six bits, byte by byte, are those of the 24 bits. -/
theorem map_sextets (s : Bytes) : (sextets s).map character = standardBody s := by
  induction s using sextets.induct with
  | case1 => rfl
  | case2 a =>
    have small := a.toNat_lt
    have first : a.toNat * 2 ^ 16 / 2 ^ 18 % 64 = a.toNat / 4 := by omega
    have second : a.toNat * 2 ^ 16 / 2 ^ 12 % 64 = a.toNat % 4 * 16 := by omega
    simp only [sextets, List.map_cons, List.map_nil, standardBody, groupOf, List.take_succ_cons,
      List.take_zero, first, second]
    rw [character_eq_alphabet (by omega), character_eq_alphabet (by omega)]
  | case3 a b =>
    have small := a.toNat_lt
    have small' := b.toNat_lt
    have first : (a.toNat * 2 ^ 16 + b.toNat * 2 ^ 8) / 2 ^ 18 % 64 = a.toNat / 4 := by omega
    have second : (a.toNat * 2 ^ 16 + b.toNat * 2 ^ 8) / 2 ^ 12 % 64 =
        a.toNat % 4 * 16 + b.toNat / 16 := by omega
    have third : (a.toNat * 2 ^ 16 + b.toNat * 2 ^ 8) / 2 ^ 6 % 64 = b.toNat % 16 * 4 := by omega
    simp only [sextets, List.map_cons, List.map_nil, standardBody, groupOf, List.take_succ_cons,
      List.take_zero, first, second, third]
    rw [character_eq_alphabet (by omega), character_eq_alphabet (by omega),
      character_eq_alphabet (by omega)]
  | case4 a b c rest ih =>
    have small := a.toNat_lt
    have small' := b.toNat_lt
    have small'' := c.toNat_lt
    have first : (a.toNat * 2 ^ 16 + b.toNat * 2 ^ 8 + c.toNat) / 2 ^ 18 % 64 = a.toNat / 4 := by
      omega
    have second : (a.toNat * 2 ^ 16 + b.toNat * 2 ^ 8 + c.toNat) / 2 ^ 12 % 64 =
        a.toNat % 4 * 16 + b.toNat / 16 := by omega
    have third : (a.toNat * 2 ^ 16 + b.toNat * 2 ^ 8 + c.toNat) / 2 ^ 6 % 64 =
        b.toNat % 16 * 4 + c.toNat / 64 := by omega
    have fourth : (a.toNat * 2 ^ 16 + b.toNat * 2 ^ 8 + c.toNat) % 64 = c.toNat % 64 := by omega
    simp only [sextets, List.map_cons, standardBody, groupOf, List.cons_append, List.nil_append,
      first, second, third, fourth, ih]
    rw [character_eq_alphabet (by omega), character_eq_alphabet (by omega),
      character_eq_alphabet (by omega), character_mod]

/-- Padding by the length of the output is padding by the length of the text. -/
theorem padOf_sextets (s : Bytes) : padOf (sextets s).length = standardPadding s.length := by
  have count : (4 - (s.length + (s.length + 2) / 3) % 4) % 4 = (3 - s.length % 3) % 3 := by omega
  rw [padOf, standardPadding, length_sextets, count]

/-- The characters of the bits are no padding. -/
theorem padding_not_mem_standardBody (s : Bytes) : padding ∉ standardBody s := by
  rw [← map_sextets]
  intro member
  obtain ⟨n, inside, same⟩ := List.mem_map.mp member
  exact (character_printable (sextets_lt s n inside)).2.2 same

/-- **`base64Encode` is the standard Base64**: the characters of the groups, zero-extended at the end,
and `=` nowhere but in the padding, which fills up to four characters for every three bytes begun. -/
theorem base64Encode_standard (s : Bytes) :
    base64Encode s = standardEncode s ∧ (base64Encode s).length = 4 * ((s.length + 2) / 3) ∧
      padding ∉ standardBody s := by
  refine ⟨?_, length_base64Encode s, padding_not_mem_standardBody s⟩
  rw [base64Encode_eq, map_sextets, padOf_sextets, standardEncode]

example : standardEncode (text "fooba") = text "Zm9vYmE=" := by decide +kernel

/-! ### The decoder -/

/-- `t` is `s` with bytes inserted that are not in the alphabet, and some of its padding deleted. -/
inductive Noise : Bytes → Bytes → Prop
  | done : Noise [] []
  | keep (c : UInt8) {s t : Bytes} (later : Noise s t) : Noise (c :: s) (c :: t)
  | insert {c : UInt8} {s t : Bytes} (foreign : c ∉ lookup) (later : Noise s t) : Noise s (c :: t)
  | delete {s t : Bytes} (later : Noise s t) : Noise (padding :: s) t

/-- The table knows nothing but the alphabet. -/
theorem table_eq_none {c : UInt8} (foreign : c ∉ lookup) : table c = none := by
  refine List.findIdx?_eq_none_iff.mpr fun b member => ?_
  exact beq_false_of_ne fun same => foreign (same ▸ member)

/-- Noise does not change what the table knows of a text. -/
theorem Noise.filterMap {s t : Bytes} (noise : Noise s t) :
    t.filterMap table = s.filterMap table := by
  induction noise with
  | done => rfl
  | keep c later ih =>
    unfold List.filterMap
    rw [ih]
  | insert foreign later ih => rw [List.filterMap_cons_none (table_eq_none foreign), ih]
  | delete later ih => rw [List.filterMap_cons_none table_padding, ih]

/-- **The round trip through noise**, with an `int` that wraps around in both directions. -/
theorem base64Decode_noise {s t : Bytes} (noise : Noise (base64Encode s) t) : base64Decode t = s := by
  rw [base64Decode_eq, noise.filterMap, filterMap_base64Encode, octets_sextets]

/-- A blank and a newline inserted, one of two paddings deleted. -/
theorem base64Decode_noise_blanks :
    base64Encode [255, 128, 254, 7] = text "/4D+Bw==" ∧
      base64Decode (text "/4 D+\nBw=") = [255, 128, 254, 7] := by
  refine ⟨by decide +kernel, base64Decode_noise ?_⟩
  have encoded : base64Encode [255, 128, 254, 7] = text "/4D+Bw==" := by decide +kernel
  rw [encoded]
  exact .keep _ (.keep _ (.insert (by decide +kernel) (.keep _ (.keep _ (.insert (by decide +kernel)
    (.keep _ (.keep _ (.keep _ (.delete .done)))))))))

end MiniV
