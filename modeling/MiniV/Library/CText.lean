/-
**C text: byte strings, decimal numbers and line input.**

The functions of the C library that a line protocol rests on, over `List UInt8`.

* `decimal` — a number as `printf("%d")` and `std::to_string` write it;
* `strtol`, `atoi`, `strtoul`, `scanInts` — a number as the library reads it: blanks, an optional
  sign, the digits, saturated to 64 bits and then converted to the target type;
* `fgets` — one line, cut after `size - 1` bytes;
* `cString` — a buffer as a C string, which ends at its first NUL.

`strtol_decimal` is the round trip: what `decimal` writes, `strtol` reads back, whatever follows it.
-/

import Mathlib.Data.Nat.Digits.Defs
import Mathlib.Data.List.TakeWhile

namespace MiniV.Library

/-- A byte string. -/
abbrev Bytes := List UInt8

/-- The bytes of a string literal. -/
def text (s : String) : Bytes := s.toList.map fun c => c.toNat.toUInt8

/-- The newline character. -/
def newline : UInt8 := 10

/-! ### Writing numbers -/

/-- The character of a decimal digit. -/
def digitByte (d : Nat) : UInt8 := UInt8.ofNat (48 + d)

/-- A natural number in decimal. -/
def decimalNat (n : Nat) : Bytes :=
  if n = 0 then [digitByte 0] else (Nat.digits 10 n).reverse.map digitByte

/-- An integer in decimal. -/
def decimal (z : Int) : Bytes :=
  if z < 0 then text "-" ++ decimalNat z.natAbs else decimalNat z.natAbs

/-! ### Reading numbers -/

/-- `isspace` in the C locale. -/
def isSpace (b : UInt8) : Bool := b == 32 || (9 ≤ b && b ≤ 13)

/-- `isdigit`. -/
def isDigit (b : UInt8) : Bool := 48 ≤ b && b ≤ 57

/-- The leading digits, accumulated, and what follows them. -/
def scanDigits : Nat → Bytes → Nat × Bytes
  | acc, [] => (acc, [])
  | acc, b :: s => if isDigit b then scanDigits (acc * 10 + (b.toNat - 48)) s else (acc, b :: s)

/-- An optional sign, and what follows it. -/
def scanSign : Bytes → Bool × Bytes
  | [] => (false, [])
  | b :: s => if b = 45 then (true, s) else if b = 43 then (false, s) else (false, b :: s)

/-- A signed decimal number after optional blanks, and what follows it; nothing without a digit. -/
def strtol (s : Bytes) : Option (Int × Bytes) :=
  let signed := scanSign (s.dropWhile isSpace)
  match signed.2 with
  | [] => none
  | b :: _ =>
    if isDigit b then
      let scanned := scanDigits 0 signed.2
      some (if signed.1 then -(scanned.1 : Int) else scanned.1, scanned.2)
    else none

/-- A 64-bit result as a 32-bit int: saturated to `long`, then truncated. -/
def toInt (z : Int) : Int := (max (-2 ^ 63) (min (2 ^ 63 - 1) z)).bmod (2 ^ 32)

/-- `atoi`: zero when there is no number. -/
def atoi (s : Bytes) : Int :=
  match strtol s with
  | none => 0
  | some (value, _) => toInt value

/-- `strtoul(s, nullptr, 10)` on 64 bits: a number too large saturates, a minus sign negates. -/
def strtoul (s : Bytes) : UInt64 :=
  match strtol s with
  | none => 0
  | some (value, _) =>
    if 2 ^ 64 ≤ value.natAbs then UInt64.ofNat (2 ^ 64 - 1) else UInt64.ofInt value

/-- `sscanf` with `%d` conversions: the numbers read before the first that fails, and what follows. -/
def scanInts : Nat → Bytes → List Int × Bytes
  | 0, s => ([], s)
  | count + 1, s =>
    match strtol s with
    | none => ([], s)
    | some (value, rest) => ((toInt value :: (scanInts count rest).1), (scanInts count rest).2)

/-! ### Lines -/

/-- A buffer as a C string. -/
def cString (buffer : Bytes) : Bytes := buffer.takeWhile (· ≠ 0)

/-- At most `room` bytes, up to and including the first newline, and what follows them. -/
def takeLine : Nat → Bytes → Bytes × Bytes
  | 0, s => ([], s)
  | _ + 1, [] => ([], [])
  | room + 1, b :: s =>
    if b = newline then ([b], s) else (b :: (takeLine room s).1, (takeLine room s).2)

/-- `fgets(buffer, size, stream)`: the bytes stored and the rest of the stream; nothing at its end. -/
def fgets (size : Nat) (stream : Bytes) : Option (Bytes × Bytes) :=
  if stream = [] then none else some (takeLine (size - 1) stream)

/-! ### What is written is read back -/

theorem isDigit_digitByte {d : Nat} (small : d < 10) : isDigit (digitByte d) = true := by
  revert small
  revert d
  decide

theorem digitByte_value {d : Nat} (small : d < 10) : (digitByte d).toNat - 48 = d := by
  revert small
  revert d
  decide

/-- A byte that ends a number: the next one is no digit. -/
def EndsNumber (s : Bytes) : Prop := ∀ b, s.head? = some b → isDigit b = false

theorem scanDigits_end {s : Bytes} (ends : EndsNumber s) (acc : Nat) : scanDigits acc s = (acc, s) := by
  cases s with
  | nil => rfl
  | cons b s =>
    have other := ends b rfl
    rw [scanDigits, if_neg (by rw [other]; exact Bool.false_ne_true)]

theorem scanDigits_map {ds : List Nat} (small : ∀ d ∈ ds, d < 10) {s : Bytes} (ends : EndsNumber s)
    (acc : Nat) :
    scanDigits acc (ds.map digitByte ++ s) = (ds.foldl (fun acc d => acc * 10 + d) acc, s) := by
  induction ds generalizing acc with
  | nil => exact scanDigits_end ends acc
  | cons d ds ih =>
    have here := small d List.mem_cons_self
    rw [List.map_cons, List.cons_append, scanDigits, if_pos (isDigit_digitByte here),
      digitByte_value here, ih fun d' member => small d' (List.mem_cons_of_mem _ member)]
    rfl

/-- The digits of a number, most significant first, evaluate to it. -/
theorem foldl_digits (n : Nat) :
    (Nat.digits 10 n).reverse.foldl (fun acc d => acc * 10 + d) 0 = n := by
  have step : (fun d acc : Nat => acc * 10 + d) = fun d acc => ((d : Nat) : Nat) + 10 * acc := by
    funext d acc
    rw [Nat.add_comm, Nat.mul_comm]
  rw [List.foldl_reverse, step]
  exact (Nat.ofDigits_eq_foldr 10 (Nat.digits 10 n)).symm.trans (Nat.ofDigits_digits 10 n)

theorem decimalNat_ne_nil (n : Nat) : decimalNat n ≠ [] := by
  unfold decimalNat
  split
  · exact List.cons_ne_nil _ _
  · rename_i positive
    intro empty
    rw [List.map_eq_nil_iff, List.reverse_eq_nil_iff, Nat.digits_eq_nil_iff_eq_zero] at empty
    exact positive empty

theorem scanDigits_decimalNat (n : Nat) {s : Bytes} (ends : EndsNumber s) :
    scanDigits 0 (decimalNat n ++ s) = (n, s) := by
  unfold decimalNat
  split
  · rename_i zero
    subst zero
    have single : ∀ d ∈ [0], d < 10 := by decide
    exact scanDigits_map single ends 0
  · rw [scanDigits_map (fun d member =>
      Nat.digits_lt_base (by decide) (List.mem_reverse.mp member)) ends, foldl_digits]

/-- A number in decimal starts with a digit. -/
theorem head_decimalNat (n : Nat) : ∃ b s, decimalNat n = b :: s ∧ isDigit b = true := by
  cases shape : decimalNat n with
  | nil => exact absurd shape (decimalNat_ne_nil n)
  | cons b s =>
    refine ⟨b, s, rfl, ?_⟩
    have member : b ∈ decimalNat n := by rw [shape]; exact List.mem_cons_self
    unfold decimalNat at member
    split at member
    · rw [List.mem_singleton.mp member]
      exact isDigit_digitByte (by decide)
    · obtain ⟨d, inside, rfl⟩ := List.mem_map.mp member
      exact isDigit_digitByte (Nat.digits_lt_base (by decide) (List.mem_reverse.mp inside))

theorem digit_ne {b : UInt8} (digit : isDigit b = true) :
    isSpace b = false ∧ b ≠ 45 ∧ b ≠ 43 := by
  have low : 48 ≤ b.toNat := by
    have both := digit
    rw [isDigit, Bool.and_eq_true, decide_eq_true_eq, decide_eq_true_eq] at both
    exact UInt8.le_iff_toNat_le.mp both.1
  refine ⟨?_, ?_, ?_⟩
  · rw [isSpace, Bool.or_eq_false_iff, Bool.and_eq_false_iff]
    refine ⟨?_, Or.inr ?_⟩
    · refine beq_eq_false_iff_ne.mpr fun same => ?_
      rw [same] at low
      exact absurd low (by decide)
    · refine decide_eq_false fun high => ?_
      have := UInt8.le_iff_toNat_le.mp high
      have thirteen : (13 : UInt8).toNat = 13 := rfl
      omega
  · intro same
    rw [same] at low
    exact absurd low (by decide)
  · intro same
    rw [same] at low
    exact absurd low (by decide)

/-- **The round trip of numbers.** What `decimal` writes, `strtol` reads back. -/
theorem strtol_decimal (z : Int) {s : Bytes} (ends : EndsNumber s) :
    strtol (decimal z ++ s) = some (z, s) := by
  obtain ⟨b, tail, shape, digit⟩ := head_decimalNat z.natAbs
  obtain ⟨noBlank, noMinus, noPlus⟩ := digit_ne digit
  have scanned := scanDigits_decimalNat z.natAbs ends
  rw [shape, List.cons_append] at scanned
  by_cases negative : z < 0
  · have blank : isSpace (45 : UInt8) = false := by decide
    have minus : text "-" = [45] := by decide
    rw [decimal, if_pos negative, minus, shape, List.singleton_append, List.cons_append,
      List.cons_append, strtol,
      List.dropWhile_cons_of_neg (by rw [blank]; exact Bool.false_ne_true)]
    simp only [scanSign, if_true, digit, scanned]
    congr 2
    omega
  · rw [decimal, if_neg negative, shape, List.cons_append, strtol,
      List.dropWhile_cons_of_neg (by rw [noBlank]; exact Bool.false_ne_true)]
    simp only [scanSign, if_neg noMinus, if_neg noPlus, digit, if_true, scanned]
    congr 2
    simp only [Bool.false_eq_true, if_false]
    omega

/-- `decimal` is injective, also in front of text that does not start with a digit. -/
theorem decimal_append_injective {z z' : Int} {s : Bytes} (ends : EndsNumber s)
    (same : decimal z ++ s = decimal z' ++ s) : z = z' := by
  have read := strtol_decimal z ends
  rw [same, strtol_decimal z' ends] at read
  exact ((Prod.mk.injEq .. ▸ Option.some.inj read).1).symm

/-- A 32-bit number is read back as itself. -/
theorem toInt_of_range {z : Int} (low : -2 ^ 31 ≤ z) (high : z < 2 ^ 31) : toInt z = z := by
  have inside : max (-2 ^ 63) (min (2 ^ 63 - 1) z) = z := by omega
  rw [toInt, inside]
  exact Int.bmod_eq_of_le (by omega) (by omega)

end MiniV.Library
