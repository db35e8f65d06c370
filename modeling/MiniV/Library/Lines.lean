/-
**A stream cut into line pieces.**

`pieces room s` are the pieces that reading `s` with `fgets` gives one after another: each ends with
a newline, or after `room` bytes, or at the end of the stream.

* `takeLine_append`: a part of the stream that ends with a newline is cut as if nothing followed;
* `flatten_pieces`: the pieces are the stream;
* `readUntil_append`, `readUntil_stops`: a reader that goes on until a piece stops it reads a part
  none of whose pieces stops it as a whole, and otherwise stops inside it;
* `pieces_readUntil`: what it has read is cut again into the pieces that it was read in.
-/

import MiniV.Library.CText

namespace MiniV.Library

/-- The stream is empty or ends with a newline. -/
def WholeLines (s : Bytes) : Prop := s = [] ∨ s.getLast? = some newline

theorem wholeLines_append (s : Bytes) : WholeLines (s ++ [newline]) :=
  Or.inr (List.getLast?_concat ..)

theorem WholeLines.tail {b : UInt8} {s : Bytes} (whole : WholeLines (b :: s)) : WholeLines s := by
  cases s with
  | nil => exact Or.inl rfl
  | cons b' s =>
    rcases whole with empty | last
    · cases empty
    · rw [List.getLast?_cons_cons] at last
      exact Or.inr last

/-! ### One piece -/

theorem takeLine_split (room : Nat) (s : Bytes) : (takeLine room s).1 ++ (takeLine room s).2 = s := by
  induction room generalizing s with
  | zero => rfl
  | succ room ih =>
    cases s with
    | nil => rfl
    | cons b s =>
      rw [takeLine]
      split
      · rfl
      · rw [List.cons_append, ih]

theorem takeLine_shorter {room : Nat} (positive : 0 < room) {b : UInt8} {s : Bytes} :
    (takeLine room (b :: s)).2.length < (b :: s).length := by
  cases room with
  | zero => exact absurd positive (Nat.lt_irrefl 0)
  | succ room =>
    rw [takeLine]
    split
    · exact Nat.lt_succ_self _
    · have length := congrArg List.length (takeLine_split room s)
      rw [List.length_append] at length
      rw [List.length_cons]
      show (takeLine room s).2.length < s.length + 1
      omega

/-- **A part that ends with a newline** is cut as if nothing followed. -/
theorem takeLine_append (room : Nat) {s : Bytes} (whole : WholeLines s) (some' : s ≠ [])
    (t : Bytes) :
    takeLine room (s ++ t) = ((takeLine room s).1, (takeLine room s).2 ++ t) ∧
      WholeLines (takeLine room s).2 := by
  induction room generalizing s with
  | zero => exact ⟨rfl, whole⟩
  | succ room ih =>
    cases s with
    | nil => exact absurd rfl some'
    | cons b s =>
      rw [List.cons_append, takeLine, takeLine]
      by_cases line : b = newline
      · rw [if_pos line, if_pos line]
        exact ⟨rfl, whole.tail⟩
      · rw [if_neg line, if_neg line]
        have more : s ≠ [] := by
          rintro rfl
          rcases whole with empty | last
          · cases empty
          · exact line (Option.some.inj last)
        obtain ⟨cut, rest⟩ := ih whole.tail more
        rw [cut]
        exact ⟨rfl, rest⟩

/-- A word without a newline is part of the line. -/
theorem takeLine_word {word : Bytes} (noNewline : newline ∉ word) (room : Nat) (s : Bytes) :
    takeLine (word.length + room) (word ++ s) =
      (word ++ (takeLine room s).1, (takeLine room s).2) := by
  induction word with
  | nil => rw [List.length_nil, Nat.zero_add, List.nil_append, List.nil_append]
  | cons b word ih =>
    rw [List.mem_cons, not_or] at noNewline
    rw [List.length_cons, Nat.add_right_comm, List.cons_append, takeLine,
      if_neg (Ne.symm noNewline.1), ih noNewline.2, List.cons_append]

/-- A line that is short enough is one piece. -/
theorem takeLine_line {room : Nat} {l : Bytes} (short : l.length < room) (noNewline : newline ∉ l)
    (t : Bytes) : takeLine room (l ++ newline :: t) = (l ++ [newline], t) := by
  induction l generalizing room with
  | nil =>
    cases room with
    | zero => exact absurd short (Nat.not_lt_zero _)
    | succ room => rw [List.nil_append, takeLine, if_pos rfl, List.nil_append]
  | cons b l ih =>
    cases room with
    | zero => exact absurd short (Nat.not_lt_zero _)
    | succ room =>
      rw [List.mem_cons, not_or] at noNewline
      rw [List.cons_append, takeLine, if_neg (Ne.symm noNewline.1),
        ih (Nat.lt_of_succ_lt_succ short) noNewline.2, List.cons_append]

/-! ### All pieces -/

/-- The first pieces of a stream, as many as there is fuel for. -/
def piecesWithin (room : Nat) : Nat → Bytes → List Bytes
  | 0, _ => []
  | _ + 1, [] => []
  | fuel + 1, b :: s =>
    (takeLine room (b :: s)).1 :: piecesWithin room fuel (takeLine room (b :: s)).2

/-- The pieces of a stream. -/
def pieces (room : Nat) (s : Bytes) : List Bytes := piecesWithin room s.length s

/-- Fuel for every byte is enough. -/
theorem piecesWithin_congr {room : Nat} (positive : 0 < room) {fuel fuel' : Nat} {s : Bytes}
    (enough : s.length ≤ fuel) (enough' : s.length ≤ fuel') :
    piecesWithin room fuel s = piecesWithin room fuel' s := by
  induction fuel generalizing fuel' s with
  | zero =>
    rw [List.length_eq_zero_iff.mp (Nat.le_zero.mp enough)]
    cases fuel' <;> rfl
  | succ fuel ih =>
    cases s with
    | nil => cases fuel' <;> rfl
    | cons b s =>
      have shorter := takeLine_shorter positive (b := b) (s := s)
      rw [List.length_cons] at shorter enough enough'
      cases fuel' with
      | zero => exact absurd enough' (Nat.not_succ_le_zero _)
      | succ fuel' =>
        have rest : piecesWithin room fuel (takeLine room (b :: s)).2 =
            piecesWithin room fuel' (takeLine room (b :: s)).2 := ih (by omega) (by omega)
        rw [piecesWithin, piecesWithin, rest]

theorem pieces_cons {room : Nat} (positive : 0 < room) (b : UInt8) (s : Bytes) :
    pieces room (b :: s) =
      (takeLine room (b :: s)).1 :: pieces room (takeLine room (b :: s)).2 := by
  have shorter := takeLine_shorter positive (b := b) (s := s)
  rw [List.length_cons] at shorter
  rw [pieces, List.length_cons, piecesWithin, pieces,
    piecesWithin_congr positive (Nat.le_of_lt_succ shorter) le_rfl]

/-- **The pieces are the stream.** -/
theorem flatten_pieces {room : Nat} (positive : 0 < room) (s : Bytes) : (pieces room s).flatten = s := by
  induction length : s.length using Nat.strong_induction_on generalizing s with
  | _ n ih =>
    cases s with
    | nil => rfl
    | cons b s =>
      have shorter := takeLine_shorter positive (b := b) (s := s)
      rw [length] at shorter
      rw [pieces_cons positive, List.flatten_cons, ih _ shorter _ rfl, takeLine_split]

/-- The first line of a stream that is cut off is the same, or all that is left and a part of it. -/
theorem takeLine_prefix (room : Nat) {s whole : Bytes} (part : s <+: whole) :
    ((takeLine room s).1 = (takeLine room whole).1 ∧ (takeLine room s).2 <+: (takeLine room whole).2) ∨
      ((takeLine room s).2 = [] ∧ (takeLine room s).1 <+: (takeLine room whole).1) := by
  induction room generalizing s whole with
  | zero => exact Or.inl ⟨rfl, part⟩
  | succ room ih =>
    cases s with
    | nil => exact Or.inr ⟨rfl, List.nil_prefix⟩
    | cons b s =>
      obtain ⟨rest, rfl⟩ := part
      rw [List.cons_append, takeLine, takeLine]
      by_cases line : b = newline
      · rw [if_pos line, if_pos line]
        exact Or.inl ⟨rfl, List.prefix_append _ _⟩
      · rw [if_neg line, if_neg line]
        refine (ih (List.prefix_append s rest)).imp (fun same => ⟨by rw [same.1], same.2⟩)
          (fun ends => ⟨ends.1, ?_⟩)
        exact (List.prefix_append_right_inj [b]).mpr ends.2

/-- **The pieces of a stream that is cut off** are parts of pieces of the stream. -/
theorem pieces_prefix {room : Nat} (positive : 0 < room) {s whole : Bytes} (part : s <+: whole) :
    ∀ p ∈ pieces room s, ∃ q ∈ pieces room whole, p <+: q := by
  induction length : s.length using Nat.strong_induction_on generalizing s whole with
  | _ n ih =>
    cases s with
    | nil =>
      intro p member
      cases member
    | cons b s =>
      obtain ⟨rest, rfl⟩ := part
      have shorter := takeLine_shorter positive (b := b) (s := s)
      rw [length] at shorter
      have first := takeLine_prefix room (List.prefix_append (b :: s) rest)
      rw [List.cons_append] at first ⊢
      rw [pieces_cons positive, pieces_cons positive]
      intro p member
      rcases List.mem_cons.mp member with rfl | later
      · refine ⟨_, List.mem_cons_self, ?_⟩
        exact first.elim (fun same => same.1 ▸ List.prefix_rfl) And.right
      · rcases first with ⟨_, still⟩ | ⟨ends, _⟩
        · obtain ⟨q, inside, start⟩ := ih _ shorter still rfl p later
          exact ⟨q, List.mem_cons_of_mem _ inside, start⟩
        · rw [ends] at later
          cases later

/-! ### Reading until a piece stops the reader -/

variable (stop : Bytes → Bool) (room : Nat)

/-- The pieces up to the first that stops the reader, and what follows that piece. -/
def readWithin : Nat → Bytes → List Bytes × Bytes
  | 0, s => ([], s)
  | _ + 1, [] => ([], [])
  | fuel + 1, b :: s =>
    let line := takeLine room (b :: s)
    if stop line.1 then ([], line.2)
    else (line.1 :: (readWithin fuel line.2).1, (readWithin fuel line.2).2)

/-- Reading with fuel for every byte. -/
def readUntil (s : Bytes) : List Bytes × Bytes := readWithin stop room s.length s

variable {stop room}

theorem readWithin_congr (positive : 0 < room) {fuel fuel' : Nat} {s : Bytes}
    (enough : s.length ≤ fuel) (enough' : s.length ≤ fuel') :
    readWithin stop room fuel s = readWithin stop room fuel' s := by
  induction fuel generalizing fuel' s with
  | zero =>
    rw [List.length_eq_zero_iff.mp (Nat.le_zero.mp enough)]
    cases fuel' <;> rfl
  | succ fuel ih =>
    cases s with
    | nil => cases fuel' <;> rfl
    | cons b s =>
      have shorter := takeLine_shorter positive (b := b) (s := s)
      rw [List.length_cons] at shorter enough enough'
      cases fuel' with
      | zero => exact absurd enough' (Nat.not_succ_le_zero _)
      | succ fuel' =>
        have rest : readWithin stop room fuel (takeLine room (b :: s)).2 =
            readWithin stop room fuel' (takeLine room (b :: s)).2 := ih (by omega) (by omega)
        rw [readWithin, readWithin, rest]

theorem readUntil_cons (positive : 0 < room) (b : UInt8) (s : Bytes) :
    readUntil stop room (b :: s) =
      if stop (takeLine room (b :: s)).1 then ([], (takeLine room (b :: s)).2)
      else ((takeLine room (b :: s)).1 :: (readUntil stop room (takeLine room (b :: s)).2).1,
        (readUntil stop room (takeLine room (b :: s)).2).2) := by
  have shorter := takeLine_shorter positive (b := b) (s := s)
  rw [List.length_cons] at shorter
  have rest : readWithin stop room s.length (takeLine room (b :: s)).2 =
      readUntil stop room (takeLine room (b :: s)).2 :=
    readWithin_congr positive (Nat.le_of_lt_succ shorter) le_rfl
  rw [readUntil, List.length_cons, readWithin, rest]

/-- **A part none of whose pieces stops the reader** is read as a whole. -/
theorem readUntil_append (positive : 0 < room) {s : Bytes} (whole : WholeLines s) (t : Bytes)
    (quiet : ∀ p ∈ pieces room s, stop p = false) :
    readUntil stop room (s ++ t) =
      (pieces room s ++ (readUntil stop room t).1, (readUntil stop room t).2) := by
  induction length : s.length using Nat.strong_induction_on generalizing s with
  | _ n ih =>
    cases s with
    | nil => rfl
    | cons b s =>
      have shorter := takeLine_shorter positive (b := b) (s := s)
      rw [length] at shorter
      obtain ⟨cut, rest⟩ := takeLine_append room whole (List.cons_ne_nil b s) t
      rw [List.cons_append] at cut
      rw [pieces_cons positive] at quiet ⊢
      have here := quiet _ List.mem_cons_self
      have later := ih _ shorter rest (fun p member => quiet p (List.mem_cons_of_mem _ member)) rfl
      rw [List.cons_append, readUntil_cons positive, cut, here, if_neg Bool.false_ne_true, later,
        List.cons_append]

/-- A stream none of whose pieces stops the reader is read to its end. -/
theorem readUntil_all (positive : 0 < room) {s : Bytes} (quiet : ∀ p ∈ pieces room s, stop p = false) :
    readUntil stop room s = (pieces room s, []) := by
  induction length : s.length using Nat.strong_induction_on generalizing s with
  | _ n ih =>
    cases s with
    | nil => rfl
    | cons b s =>
      have shorter := takeLine_shorter positive (b := b) (s := s)
      rw [length] at shorter
      rw [pieces_cons positive] at quiet ⊢
      have here := quiet _ List.mem_cons_self
      have later := ih _ shorter (fun p member => quiet p (List.mem_cons_of_mem _ member)) rfl
      rw [readUntil_cons positive, here, if_neg Bool.false_ne_true, later]

/-- **A part with a piece that stops the reader** is left with what follows that piece. -/
theorem readUntil_stops (positive : 0 < room) {s : Bytes} (whole : WholeLines s) (t : Bytes)
    (stops : ∃ p ∈ pieces room s, stop p = true) :
    ∃ early rest, readUntil stop room (s ++ t) = (early, rest ++ t) := by
  induction length : s.length using Nat.strong_induction_on generalizing s with
  | _ n ih =>
    cases s with
    | nil =>
      obtain ⟨p, member, _⟩ := stops
      cases member
    | cons b s =>
      have shorter := takeLine_shorter positive (b := b) (s := s)
      rw [length] at shorter
      obtain ⟨cut, rest⟩ := takeLine_append room whole (List.cons_ne_nil b s) t
      rw [List.cons_append] at cut
      rw [pieces_cons positive] at stops
      rw [List.cons_append, readUntil_cons positive, cut]
      by_cases here : stop (takeLine room (b :: s)).1 = true
      · rw [if_pos here]
        exact ⟨[], (takeLine room (b :: s)).2, rfl⟩
      · rw [if_neg here]
        obtain ⟨p, member, stopped⟩ := stops
        have later : p ∈ pieces room (takeLine room (b :: s)).2 := by
          rcases List.mem_cons.mp member with rfl | later
          · exact absurd stopped here
          · exact later
        obtain ⟨early, left, read⟩ := ih _ shorter rest ⟨p, later, stopped⟩ rfl
        dsimp only
        rw [read]
        exact ⟨_, left, rfl⟩

/-! ### What was read -/

/-- A piece in front of other text is cut off again, unless the stream had ended there. -/
theorem takeLine_again (room : Nat) (s t : Bytes) (ends : (takeLine room s).2 = [] → t = []) :
    takeLine room ((takeLine room s).1 ++ t) = ((takeLine room s).1, t) := by
  induction room generalizing s with
  | zero => rfl
  | succ room ih =>
    cases s with
    | nil =>
      rw [ends rfl]
      rfl
    | cons b s =>
      rw [takeLine] at ends ⊢
      by_cases line : b = newline
      · rw [if_pos line, List.singleton_append, takeLine, if_pos line]
      · rw [if_neg line] at ends ⊢
        rw [List.cons_append, takeLine, if_neg line, ih s ends]

/-- **What a reader has read** is cut again into the same pieces. -/
theorem pieces_readUntil (positive : 0 < room) (s : Bytes) :
    pieces room (readUntil stop room s).1.flatten = (readUntil stop room s).1 := by
  induction length : s.length using Nat.strong_induction_on generalizing s with
  | _ n ih =>
    cases s with
    | nil => rfl
    | cons b s =>
      have shorter := takeLine_shorter positive (b := b) (s := s)
      rw [length] at shorter
      rw [readUntil_cons positive]
      split
      · rfl
      · have cut := takeLine_again room (b :: s)
          (readUntil stop room (takeLine room (b :: s)).2).1.flatten fun ended => by
            rw [ended]
            rfl
        have some' : (takeLine room (b :: s)).1 ≠ [] := by
          intro empty
          have whole := congrArg List.length (takeLine_split room (b :: s))
          rw [empty, List.nil_append, length] at whole
          omega
        obtain ⟨b', line, shape⟩ := List.exists_cons_of_ne_nil some'
        rw [List.flatten_cons]
        dsimp only
        rw [shape] at cut ⊢
        rw [List.cons_append] at cut ⊢
        rw [pieces_cons positive, cut, ih _ shorter _ rfl]

/-- None of the pieces that were read stops the reader. -/
theorem readUntil_quiet (positive : 0 < room) (s : Bytes) :
    ∀ p ∈ (readUntil stop room s).1, stop p = false := by
  induction length : s.length using Nat.strong_induction_on generalizing s with
  | _ n ih =>
    cases s with
    | nil => exact List.forall_mem_nil _
    | cons b s =>
      have shorter := takeLine_shorter positive (b := b) (s := s)
      rw [length] at shorter
      rw [readUntil_cons positive]
      split
      · exact List.forall_mem_nil _
      · rename_i goes
        exact List.forall_mem_cons.mpr ⟨Bool.eq_false_iff.mpr goes, ih _ shorter _ rfl⟩

/-- What was read, the piece that stopped the reader and what is left are the stream. -/
theorem readUntil_split (positive : 0 < room) (s : Bytes) :
    ∃ last, (readUntil stop room s).1.flatten ++ last ++ (readUntil stop room s).2 = s := by
  induction length : s.length using Nat.strong_induction_on generalizing s with
  | _ n ih =>
    cases s with
    | nil => exact ⟨[], rfl⟩
    | cons b s =>
      have shorter := takeLine_shorter positive (b := b) (s := s)
      rw [length] at shorter
      have whole := takeLine_split room (b :: s)
      rw [readUntil_cons positive]
      split
      · exact ⟨(takeLine room (b :: s)).1, whole⟩
      · obtain ⟨last, later⟩ := ih _ shorter _ rfl
        refine ⟨last, ?_⟩
        rw [List.flatten_cons, List.append_assoc, List.append_assoc, ← List.append_assoc _ last, later]
        exact whole

/-- A byte alone is a piece. -/
theorem takeLine_singleton (positive : 0 < room) (b : UInt8) : takeLine room [b] = ([b], []) := by
  cases room with
  | zero => exact absurd positive (Nat.lt_irrefl 0)
  | succ room =>
    rw [takeLine]
    split
    · rfl
    · cases room <;> rfl

/-- One more byte goes to what is left of the stream, or to the piece that ended it. -/
theorem takeLine_concat (room : Nat) (s : Bytes) (b : UInt8) :
    takeLine room (s ++ [b]) = ((takeLine room s).1, (takeLine room s).2 ++ [b]) ∨
      ((takeLine room s).2 = [] ∧ takeLine room (s ++ [b]) = ((takeLine room s).1 ++ [b], [])) := by
  induction room generalizing s with
  | zero => exact Or.inl rfl
  | succ room ih =>
    cases s with
    | nil => exact Or.inr ⟨rfl, takeLine_singleton (Nat.succ_pos room) b⟩
    | cons c s =>
      rw [List.cons_append, takeLine, takeLine]
      by_cases line : c = newline
      · rw [if_pos line, if_pos line]
        exact Or.inl rfl
      · rw [if_neg line, if_neg line]
        rcases ih s with more | ⟨ended, more⟩
        · exact Or.inl (by rw [more])
        · exact Or.inr ⟨ended, by rw [more, List.cons_append]⟩

/-- **With one more byte** every piece is one of those before, with the byte or without it, or the byte
alone. -/
theorem pieces_concat (positive : 0 < room) (s : Bytes) (b : UInt8) :
    ∀ p ∈ pieces room (s ++ [b]), p ∈ pieces room s ∨ p = [b] ∨ ∃ q ∈ pieces room s, p = q ++ [b] := by
  induction length : s.length using Nat.strong_induction_on generalizing s with
  | _ n ih =>
    cases s with
    | nil =>
      intro p member
      rw [List.nil_append, pieces_cons positive, takeLine_singleton positive] at member
      exact Or.inr (Or.inl (List.mem_singleton.mp member))
    | cons c s =>
      have shorter := takeLine_shorter positive (b := c) (s := s)
      rw [length] at shorter
      intro p member
      rw [pieces_cons positive]
      rw [List.cons_append, pieces_cons positive, ← List.cons_append] at member
      rcases takeLine_concat room (c :: s) b with more | ⟨ended, more⟩
      · rw [more] at member
        rcases List.mem_cons.mp member with rfl | later
        · exact Or.inl List.mem_cons_self
        · rcases ih _ shorter _ rfl p later with before | alone | ⟨q, inside, longer⟩
          · exact Or.inl (List.mem_cons_of_mem _ before)
          · exact Or.inr (Or.inl alone)
          · exact Or.inr (Or.inr ⟨q, List.mem_cons_of_mem _ inside, longer⟩)
      · rw [more] at member
        rcases List.mem_cons.mp member with rfl | later
        · exact Or.inr (Or.inr ⟨_, List.mem_cons_self, rfl⟩)
        · cases later

end MiniV.Library
