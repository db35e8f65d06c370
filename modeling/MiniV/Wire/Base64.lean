/-
**The Base64 of `base64_util.h`.**

Both functions collect bits in an `int` that they never clear: it wraps around, and only the bits that
were shifted in last are looked at. `valb` counts how many of these are left, less one group.

* `base64Encode_eq`: the encoder writes the characters of the six-bit groups, and the padding;
* `base64Decode_eq`: the decoder reads the groups of the characters it knows and skips the others;
* `base64_round_trip`: it reads back what was encoded.
-/

import MiniV.Library.CText
import MiniV.Library.Sextets

namespace MiniV

open MiniV.Library

/-! ### The functions -/

/-- `lookup`. -/
def lookup : Bytes := text "ABCDEFGHIJKLMNOPQRSTUVWXYZabcdefghijklmnopqrstuvwxyz0123456789+/"

/-- `'='`. -/
def padding : UInt8 := 61

/-- `lookup[n]`. -/
def character (n : Nat) : UInt8 := lookup.getD n 0

/-- The loop `while (valb >= 0)`: the characters pushed, and `valb` after it. -/
def pushSextets : Nat → BitVec 32 → Int → Bytes × Int
  | 0, _, valb => ([], valb)
  | rounds + 1, val, valb =>
    if 0 ≤ valb then
      let pushed := pushSextets rounds val (valb - 6)
      (character (bits val valb.toNat 6) :: pushed.1, pushed.2)
    else ([], valb)

/-- The loop over the bytes: the characters pushed, and `val` and `valb` after it. -/
def encodeLoop : Bytes → BitVec 32 → Int → Bytes × BitVec 32 × Int
  | [], val, valb => ([], val, valb)
  | c :: rest, val, valb =>
    let val := shiftIn val 8 c.toNat
    let valb := valb + 8
    let pushed := pushSextets (valb.toNat + 1) val valb
    let later := encodeLoop rest val pushed.2
    (pushed.1 ++ later.1, later.2)

/-- The loop `while (out.size() % 4 != 0)`. -/
def padLoop : Nat → Bytes → Bytes
  | 0, out => out
  | rounds + 1, out => if out.length % 4 ≠ 0 then padLoop rounds (out ++ [padding]) else out

/-- The statement `if (valb > -6)`: the last character, for the bits that are left. -/
def lastSextet (read : Bytes × BitVec 32 × Int) : Bytes :=
  if -6 < read.2.2 then read.1 ++ [character (bits (read.2.1 <<< 8) (read.2.2 + 8).toNat 6)]
  else read.1

/-- `base64Encode`. -/
def base64Encode (input : Bytes) : Bytes := padLoop 4 (lastSextet (encodeLoop input 0 (-6)))

/-- `T[c]`, where nothing stands for -1. -/
def table (c : UInt8) : Option Nat := lookup.findIdx? (· == c)

/-- The loop over the characters: the bytes pushed. -/
def decodeLoop64 : Bytes → BitVec 32 → Int → Bytes
  | [], _, _ => []
  | c :: rest, val, valb =>
    match table c with
    | none => decodeLoop64 rest val valb
    | some n =>
      let val := shiftIn val 6 n
      let valb := valb + 6
      if 0 ≤ valb then UInt8.ofNat (bits val valb.toNat 8) :: decodeLoop64 rest val (valb - 8)
      else decodeLoop64 rest val valb

/-- `base64Decode`. -/
def base64Decode (input : Bytes) : Bytes := decodeLoop64 input 0 (-8)

/-! ### The alphabet -/

theorem table_character {n : Nat} (small : n < 64) : table (character n) = some n := by
  revert small
  revert n
  decide +kernel

/-- A character is printable: no blank, no newline, no NUL, no padding. -/
theorem character_printable {n : Nat} (small : n < 64) :
    character n ≠ 0 ∧ character n ≠ newline ∧ character n ≠ padding := by
  revert small
  revert n
  decide +kernel

theorem table_padding : table padding = none := by decide +kernel

/-! ### The encoder -/

/-- A byte after a full group leaves two bits. -/
theorem encodeLoop_first (a : UInt8) (rest : Bytes) (val : BitVec 32) :
    encodeLoop (a :: rest) val (-6) =
      let later := encodeLoop rest (shiftIn val 8 a.toNat) (-4)
      (character (a.toNat / 4) :: later.1, later.2) := by
  have small := a.toNat_lt
  have group : bits (shiftIn val 8 a.toNat) 2 6 = a.toNat / 4 := by
    rw [bits_toNat _ (by decide), shiftIn_toNat]
    omega
  simp [encodeLoop, pushSextets, group]

/-- A byte after two bits leaves four. -/
theorem encodeLoop_second (a b : UInt8) (rest : Bytes) (val : BitVec 32) :
    encodeLoop (b :: rest) (shiftIn val 8 a.toNat) (-4) =
      let later := encodeLoop rest (shiftIn (shiftIn val 8 a.toNat) 8 b.toNat) (-2)
      (character (a.toNat % 4 * 16 + b.toNat / 16) :: later.1, later.2) := by
  have small := a.toNat_lt
  have small' := b.toNat_lt
  have group : bits (shiftIn (shiftIn val 8 a.toNat) 8 b.toNat) 4 6 =
      a.toNat % 4 * 16 + b.toNat / 16 := by
    rw [bits_toNat _ (by decide), shiftIn_toNat, shiftIn_toNat]
    omega
  simp [encodeLoop, pushSextets, group]

/-- A byte after four bits fills two groups. -/
theorem encodeLoop_third (b c : UInt8) (rest : Bytes) (val : BitVec 32) :
    encodeLoop (c :: rest) (shiftIn val 8 b.toNat) (-2) =
      let later := encodeLoop rest (shiftIn (shiftIn val 8 b.toNat) 8 c.toNat) (-6)
      (character (b.toNat % 16 * 4 + c.toNat / 64) :: character (c.toNat % 64) :: later.1,
        later.2) := by
  have small := b.toNat_lt
  have small' := c.toNat_lt
  have group : bits (shiftIn (shiftIn val 8 b.toNat) 8 c.toNat) 6 6 =
      b.toNat % 16 * 4 + c.toNat / 64 := by
    rw [bits_toNat _ (by decide), shiftIn_toNat, shiftIn_toNat]
    omega
  have group' : bits (shiftIn (shiftIn val 8 b.toNat) 8 c.toNat) 0 6 = c.toNat % 64 := by
    rw [bits_toNat _ (by decide), shiftIn_toNat, shiftIn_toNat]
    omega
  simp [encodeLoop, pushSextets, group, group']

theorem lastSextet_cons (c : UInt8) (out : Bytes) (rest : BitVec 32 × Int) :
    lastSextet (c :: out, rest) = c :: lastSextet (out, rest) := by
  unfold lastSextet
  split <;> rfl

/-- **The encoder's characters** are those of the groups, whatever `val` held before. -/
theorem lastSextet_encodeLoop (s : Bytes) (val : BitVec 32) :
    lastSextet (encodeLoop s val (-6)) = (sextets s).map character := by
  have left : ∀ val : BitVec 32, val <<< 8 = shiftIn val 8 0 := fun val => by simp [shiftIn]
  induction s using sextets.induct generalizing val with
  | case1 => rfl
  | case2 a =>
    have small := a.toNat_lt
    have group : bits (shiftIn (shiftIn val 8 a.toNat) 8 0) 4 6 = a.toNat % 4 * 16 := by
      rw [bits_toNat _ (by decide), shiftIn_toNat, shiftIn_toNat]
      omega
    rw [encodeLoop_first]
    simp [encodeLoop, lastSextet, sextets, left, group]
  | case3 a b =>
    have small := b.toNat_lt
    have group : bits (shiftIn (shiftIn (shiftIn val 8 a.toNat) 8 b.toNat) 8 0) 6 6 =
        b.toNat % 16 * 4 := by
      rw [bits_toNat _ (by decide), shiftIn_toNat, shiftIn_toNat]
      omega
    rw [encodeLoop_first, encodeLoop_second]
    simp [encodeLoop, lastSextet, sextets, left, group]
  | case4 a b c rest ih =>
    rw [encodeLoop_first, encodeLoop_second, encodeLoop_third]
    dsimp only
    rw [lastSextet_cons, lastSextet_cons, lastSextet_cons, lastSextet_cons, ih, sextets,
      List.map_cons, List.map_cons, List.map_cons, List.map_cons]

/-- The loop that pads fills up to a multiple of four. -/
theorem padLoop_eq {rounds : Nat} {out : Bytes} (enough : (4 - out.length % 4) % 4 < rounds) :
    padLoop rounds out = out ++ List.replicate ((4 - out.length % 4) % 4) padding := by
  induction rounds generalizing out with
  | zero => exact absurd enough (Nat.not_lt_zero _)
  | succ rounds ih =>
    rw [padLoop]
    split
    · rename_i open'
      have length : (out ++ [padding]).length = out.length + 1 := by simp
      have fewer : (4 - out.length % 4) % 4 = (4 - (out.length + 1) % 4) % 4 + 1 := by omega
      rw [ih (by rw [length]; omega), length, fewer, List.replicate_succ, List.append_assoc,
        List.singleton_append]
    · rename_i full
      have none : (4 - out.length % 4) % 4 = 0 := by omega
      rw [none, List.replicate_zero, List.append_nil]

/-- The padding of so many characters. -/
def padOf (n : Nat) : Bytes := List.replicate ((4 - n % 4) % 4) padding

/-- **The encoder** writes the characters of the groups, and pads them. -/
theorem base64Encode_eq (s : Bytes) :
    base64Encode s = (sextets s).map character ++ padOf (sextets s).length := by
  rw [base64Encode, lastSextet_encodeLoop, padLoop_eq (Nat.mod_lt _ (by decide)), List.length_map]
  rfl

/-! ### The decoder -/

/-- What the table does not know is skipped. -/
theorem decodeLoop64_skip {c : UInt8} (unknown : table c = none) (rest : Bytes) (val : BitVec 32)
    (valb : Int) : decodeLoop64 (c :: rest) val valb = decodeLoop64 rest val valb := by
  rw [decodeLoop64, unknown]

/-- The loop over the groups that the characters stand for. -/
def decodeGroups : List Nat → BitVec 32 → Int → Bytes
  | [], _, _ => []
  | n :: rest, val, valb =>
    let val := shiftIn val 6 n
    let valb := valb + 6
    if 0 ≤ valb then UInt8.ofNat (bits val valb.toNat 8) :: decodeGroups rest val (valb - 8)
    else decodeGroups rest val valb

theorem decodeLoop64_eq (s : Bytes) (val : BitVec 32) (valb : Int) :
    decodeLoop64 s val valb = decodeGroups (s.filterMap table) val valb := by
  induction s generalizing val valb with
  | nil => rfl
  | cons c rest ih =>
    cases known : table c with
    | none => rw [decodeLoop64_skip known, List.filterMap_cons_none known, ih]
    | some n =>
      rw [decodeLoop64, known, List.filterMap_cons_some known, decodeGroups]
      dsimp only
      rw [ih, ih]

/-- **The groups are read as bytes**, whatever `val` held before. -/
theorem decodeGroups_eq (l : List Nat) (small : ∀ n ∈ l, n < 64) (val : BitVec 32) :
    decodeGroups l val (-8) = octets l := by
  induction l using octets.induct generalizing val with
  | case1 p q r s rest ih =>
    have hp := small p (by simp)
    have hq := small q (by simp)
    have hr := small r (by simp)
    have hs := small s (by simp)
    have first : bits (shiftIn (shiftIn val 6 p) 6 q) 4 8 = p * 4 + q / 16 := by
      rw [bits_toNat _ (by decide), shiftIn_toNat, shiftIn_toNat]
      omega
    have second : bits (shiftIn (shiftIn (shiftIn val 6 p) 6 q) 6 r) 2 8 = q % 16 * 16 + r / 4 := by
      rw [bits_toNat _ (by decide), shiftIn_toNat, shiftIn_toNat]
      omega
    have third : bits (shiftIn (shiftIn (shiftIn (shiftIn val 6 p) 6 q) 6 r) 6 s) 0 8 =
        r % 4 * 64 + s := by
      rw [bits_toNat _ (by decide), shiftIn_toNat, shiftIn_toNat]
      omega
    have later := ih (fun n member => small n (by simp [member]))
      (shiftIn (shiftIn (shiftIn (shiftIn val 6 p) 6 q) 6 r) 6 s)
    simp [decodeGroups, octets, first, second, third, later]
  | case2 p q r =>
    have hp := small p (by simp)
    have hq := small q (by simp)
    have hr := small r (by simp)
    have first : bits (shiftIn (shiftIn val 6 p) 6 q) 4 8 = p * 4 + q / 16 := by
      rw [bits_toNat _ (by decide), shiftIn_toNat, shiftIn_toNat]
      omega
    have second : bits (shiftIn (shiftIn (shiftIn val 6 p) 6 q) 6 r) 2 8 = q % 16 * 16 + r / 4 := by
      rw [bits_toNat _ (by decide), shiftIn_toNat, shiftIn_toNat]
      omega
    simp [decodeGroups, octets, first, second]
  | case3 p q =>
    have hp := small p (by simp)
    have hq := small q (by simp)
    have first : bits (shiftIn (shiftIn val 6 p) 6 q) 4 8 = p * 4 + q / 16 := by
      rw [bits_toNat _ (by decide), shiftIn_toNat, shiftIn_toNat]
      omega
    simp [decodeGroups, octets, first]
  | case4 p => simp [decodeGroups, octets]
  | case5 => rfl

/-- The table knows groups of six bits only. -/
theorem table_lt {c : UInt8} {n : Nat} (known : table c = some n) : n < 64 := by
  have inside := (List.findIdx?_eq_some_iff_findIdx_eq.mp known).1
  exact inside

/-- **The decoder** reads the groups of the characters it knows. -/
theorem base64Decode_eq (t : Bytes) : base64Decode t = octets (t.filterMap table) := by
  rw [base64Decode, decodeLoop64_eq]
  refine decodeGroups_eq _ (fun n member => ?_) 0
  obtain ⟨c, _, known⟩ := List.mem_filterMap.mp member
  exact table_lt known

/-! ### The round trip -/

/-- The groups of an encoded string are those it was encoded from. -/
theorem filterMap_base64Encode (s : Bytes) : (base64Encode s).filterMap table = sextets s := by
  have known : ((sextets s).map character).filterMap table = sextets s := by
    rw [List.filterMap_map]
    refine (List.filterMap_congr fun n member => ?_).trans List.filterMap_some
    exact table_character (sextets_lt s n member)
  have skipped : ∀ n, (padOf n).filterMap table = [] := fun n =>
    List.filterMap_eq_nil_iff.mpr fun c member => by
      rw [List.eq_of_mem_replicate member]
      exact table_padding
  rw [base64Encode_eq, List.filterMap_append, known, skipped, List.append_nil]

/-- **The round trip.** -/
theorem base64_round_trip (s : Bytes) : base64Decode (base64Encode s) = s := by
  rw [base64Decode_eq, filterMap_base64Encode, octets_sextets]

/-- What is encoded is printable. -/
theorem base64Encode_printable (s : Bytes) : ∀ c ∈ base64Encode s, c ≠ 0 ∧ c ≠ newline := by
  intro c member
  rw [base64Encode_eq, List.mem_append] at member
  rcases member with inside | pad
  · obtain ⟨n, group, rfl⟩ := List.mem_map.mp inside
    have printable := character_printable (sextets_lt s n group)
    exact ⟨printable.1, printable.2.1⟩
  · rw [List.eq_of_mem_replicate pad]
    decide

/-- Every three bytes begun take four characters. -/
theorem length_base64Encode (s : Bytes) : (base64Encode s).length = 4 * ((s.length + 2) / 3) := by
  rw [base64Encode_eq, List.length_append, List.length_map, padOf, List.length_replicate,
    length_sextets]
  omega

example : base64Encode (text "foob") = text "Zm9vYg==" := by decide +kernel

end MiniV
