/-
**Bytes as groups of six bits, and back.**

Three bytes are four groups of six bits, the most significant bits first; one or two bytes at the end
are two or three groups, filled up with zeros.

* `octets_sextets`: the bytes are read back from their groups;
* `bits_toNat`: the bits that a shift and a mask take out of a 32-bit int are those of its value, also
  when the shift is arithmetic and the int is negative.
-/

import Mathlib.Data.Nat.Basic
import Mathlib.Algebra.Group.Nat.Defs
import Mathlib.Data.List.Basic

namespace MiniV.Library

/-! ### Groups -/

/-- The six-bit groups of a byte string. -/
def sextets : List UInt8 → List Nat
  | [] => []
  | [a] => [a.toNat / 4, a.toNat % 4 * 16]
  | [a, b] => [a.toNat / 4, a.toNat % 4 * 16 + b.toNat / 16, b.toNat % 16 * 4]
  | a :: b :: c :: rest =>
    a.toNat / 4 :: (a.toNat % 4 * 16 + b.toNat / 16) :: (b.toNat % 16 * 4 + c.toNat / 64) ::
      c.toNat % 64 :: sextets rest

/-- The bytes of a list of six-bit groups; what does not fill a byte is dropped. -/
def octets : List Nat → List UInt8
  | p :: q :: r :: s :: rest =>
    UInt8.ofNat (p * 4 + q / 16) :: UInt8.ofNat (q % 16 * 16 + r / 4) ::
      UInt8.ofNat (r % 4 * 64 + s) :: octets rest
  | [p, q, r] => [UInt8.ofNat (p * 4 + q / 16), UInt8.ofNat (q % 16 * 16 + r / 4)]
  | [p, q] => [UInt8.ofNat (p * 4 + q / 16)]
  | [_] => []
  | [] => []

/-- A number that is the value of a byte is that byte. -/
theorem ofNat_eq {b : UInt8} {n : Nat} (value : n = b.toNat) : UInt8.ofNat n = b := by
  rw [value]
  exact UInt8.ofNat_toNat

/-- **The round trip of groups.** -/
theorem octets_sextets (s : List UInt8) : octets (sextets s) = s := by
  induction s using sextets.induct with
  | case1 => rfl
  | case2 a =>
    have small := a.toNat_lt
    rw [sextets, octets, ofNat_eq (b := a) (by omega)]
  | case3 a b =>
    have small := a.toNat_lt
    have small' := b.toNat_lt
    rw [sextets, octets, ofNat_eq (b := a) (by omega), ofNat_eq (b := b) (by omega)]
  | case4 a b c rest ih =>
    have small := a.toNat_lt
    have small' := b.toNat_lt
    have small'' := c.toNat_lt
    rw [sextets, octets, ofNat_eq (b := a) (by omega), ofNat_eq (b := b) (by omega),
      ofNat_eq (b := c) (by omega), ih]

/-- Every group has six bits. -/
theorem sextets_lt (s : List UInt8) : ∀ n ∈ sextets s, n < 64 := by
  induction s using sextets.induct with
  | case1 => exact fun n member => by cases member
  | case2 a =>
    have small := a.toNat_lt
    intro n member
    simp only [sextets, List.mem_cons, List.not_mem_nil, or_false] at member
    omega
  | case3 a b =>
    have small := a.toNat_lt
    have small' := b.toNat_lt
    intro n member
    simp only [sextets, List.mem_cons, List.not_mem_nil, or_false] at member
    omega
  | case4 a b c rest ih =>
    have small := a.toNat_lt
    have small' := b.toNat_lt
    have small'' := c.toNat_lt
    intro n member
    simp only [sextets, List.mem_cons] at member
    rcases member with here | here | here | here | later
    · omega
    · omega
    · omega
    · omega
    · exact ih n later

/-- Three bytes take four groups, and what is left over one group more than bytes. -/
theorem length_sextets (s : List UInt8) :
    (sextets s).length = s.length + (s.length + 2) / 3 := by
  induction s using sextets.induct with
  | case1 => rfl
  | case2 a => simp [sextets]
  | case3 a b => simp [sextets]
  | case4 a b c rest ih =>
    simp only [sextets, List.length_cons, ih]
    omega

/-! ### Bits of an int -/

/-- `(val >> shift) & (2 ^ width - 1)` of a 32-bit int; the shift is arithmetic. -/
def bits (val : BitVec 32) (shift width : Nat) : Nat :=
  (val.sshiftRight shift &&& BitVec.ofNat 32 (2 ^ width - 1)).toNat

/-- The bits below the sign are those of the value. -/
theorem bits_toNat (val : BitVec 32) {shift width : Nat} (inside : shift + width ≤ 32) :
    bits val shift width = val.toNat / 2 ^ shift % 2 ^ width := by
  have logical : val.sshiftRight shift &&& BitVec.ofNat 32 (2 ^ width - 1) =
      (val >>> shift) &&& BitVec.ofNat 32 (2 ^ width - 1) := by
    refine BitVec.eq_of_getLsbD_eq fun i small => ?_
    rw [BitVec.getLsbD_and, BitVec.getLsbD_and, BitVec.getLsbD_ofNat,
      Nat.testBit_two_pow_sub_one]
    by_cases within : i < width
    · have place : shift + i < 32 := by omega
      rw [BitVec.getLsbD_sshiftRight, BitVec.getLsbD_ushiftRight, if_pos place,
        decide_eq_false (Nat.not_le_of_lt small), Bool.not_false, Bool.true_and]
    · rw [decide_eq_false within, Bool.and_false, Bool.and_false, Bool.and_false]
  have fits : 2 ^ width - 1 < 2 ^ 32 := by
    have := Nat.pow_le_pow_right (n := 2) (by decide) (show width ≤ 32 by omega)
    omega
  rw [bits, logical, BitVec.toNat_and, BitVec.toNat_ushiftRight, BitVec.toNat_ofNat,
    Nat.mod_eq_of_lt fits, Nat.and_two_pow_sub_one_eq_mod, Nat.shiftRight_eq_div_pow]

/-- `(val << shift) + n` for a number that fits below. -/
def shiftIn (val : BitVec 32) (shift n : Nat) : BitVec 32 := (val <<< shift) + BitVec.ofNat 32 n

theorem shiftIn_toNat (val : BitVec 32) (shift n : Nat) :
    (shiftIn val shift n).toNat = (val.toNat * 2 ^ shift + n) % 2 ^ 32 := by
  rw [shiftIn, BitVec.toNat_add, BitVec.toNat_shiftLeft, BitVec.toNat_ofNat,
    Nat.shiftLeft_eq, ← Nat.add_mod]

end MiniV.Library
