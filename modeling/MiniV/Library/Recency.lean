/-
**Recency: a log of uses, the order it determines, and a store in two levels.**

A log lists uses in the order they happened. `lastUse log a` is the position of the last use of
`a`, counted from one. The recency order of a log is its list of distinct elements by last use,
least recently used first; it is computed by `List.dedup`, which keeps last occurrences
(`recency_sorted`).

`Levels` is a store that keeps one recency order in two lists, the cold part in front of the hot
part. Moving the first hot element to the end of the cold part moves only the boundary
(`order_demote`); a use moves one element to the end of the hot part. `Follows levels log` says
that the two lists together are the recency order of the log: a use adds to the log (`Follows.use`), and
elements leave both (`Follows.keep`).

Where each element carries the time of its last use instead, `sorted_sublist` and `sorted_concat` keep
a list in the order of these times, and `sorted_find?` says that the first element of a kind is the
oldest of its kind.
-/

import Mathlib.Data.List.Dedup
import Mathlib.Order.Basic

namespace MiniV.Library

variable {α : Type} [DecidableEq α]

/-! ### The order of a log -/

/-- The position of the last use, counted from one; zero when there is none. -/
def lastUse : List α → α → Nat
  | [], _ => 0
  | b :: log, a => if a ∈ log then lastUse log a + 1 else if a = b then 1 else 0

theorem lastUse_cons_of_mem {b a : α} {log : List α} (member : a ∈ log) :
    lastUse (b :: log) a = lastUse log a + 1 := by
  rw [lastUse, if_pos member]

theorem lastUse_self {a : α} {log : List α} (absent : a ∉ log) : lastUse (a :: log) a = 1 := by
  rw [lastUse, if_neg absent, if_pos rfl]

theorem lastUse_pos {a : α} {log : List α} (member : a ∈ log) : 0 < lastUse log a := by
  cases log with
  | nil => cases member
  | cons b log =>
    by_cases later : a ∈ log
    · rw [lastUse_cons_of_mem later]
      exact Nat.succ_pos _
    · rcases List.mem_cons.mp member with rfl | inside
      · rw [lastUse_self later]
        exact Nat.one_pos
      · exact absurd inside later

/-- **`dedup` lists a log from least to most recently used.** -/
theorem recency_sorted (log : List α) :
    log.dedup.Pairwise fun a b => lastUse log a < lastUse log b := by
  induction log with
  | nil => exact List.Pairwise.nil
  | cons b log ih =>
    have tail : log.dedup.Pairwise fun a a' => lastUse (b :: log) a < lastUse (b :: log) a' := by
      refine ih.imp_of_mem fun {a a'} member member' before => ?_
      rw [lastUse_cons_of_mem (List.mem_dedup.mp member),
        lastUse_cons_of_mem (List.mem_dedup.mp member')]
      omega
    by_cases later : b ∈ log
    · rw [List.dedup_cons_of_mem later]
      exact tail
    · rw [List.dedup_cons_of_notMem later]
      refine List.Pairwise.cons (fun a member => ?_) tail
      have inside := List.mem_dedup.mp member
      rw [lastUse_self later, lastUse_cons_of_mem inside]
      have positive := lastUse_pos inside
      omega

theorem dedup_filter (p : α → Bool) (log : List α) :
    (log.filter p).dedup = log.dedup.filter p := by
  induction log with
  | nil => rfl
  | cons b log ih =>
    by_cases kept : p b = true
    · by_cases later : b ∈ log
      · rw [List.filter_cons_of_pos kept, List.dedup_cons_of_mem later,
          List.dedup_cons_of_mem (List.mem_filter.mpr ⟨later, kept⟩), ih]
      · rw [List.filter_cons_of_pos kept, List.dedup_cons_of_notMem later,
          List.dedup_cons_of_notMem (fun member => later (List.mem_filter.mp member).1),
          List.filter_cons_of_pos kept, ih]
    · by_cases later : b ∈ log
      · rw [List.filter_cons_of_neg kept, List.dedup_cons_of_mem later, ih]
      · rw [List.filter_cons_of_neg kept, List.dedup_cons_of_notMem later,
          List.filter_cons_of_neg kept, ih]

/-- **A new use moves its element to the end of the order.** -/
theorem dedup_concat (log : List α) (a : α) :
    (log ++ [a]).dedup = log.dedup.filter (· ≠ a) ++ [a] := by
  induction log with
  | nil => rfl
  | cons b log ih =>
    rw [List.cons_append]
    by_cases same : b = a
    · subst same
      rw [List.dedup_cons_of_mem (List.mem_append_right _ List.mem_cons_self), ih]
      by_cases later : b ∈ log
      · rw [List.dedup_cons_of_mem later]
      · rw [List.dedup_cons_of_notMem later, List.filter_cons_of_neg (by simp)]
    · by_cases later : b ∈ log
      · rw [List.dedup_cons_of_mem (List.mem_append_left _ later), List.dedup_cons_of_mem later, ih]
      · have absent : b ∉ log ++ [a] := by
          rw [List.mem_append, List.mem_singleton]
          exact fun inside => inside.elim later same
        rw [List.dedup_cons_of_notMem absent, List.dedup_cons_of_notMem later,
          List.filter_cons_of_pos (by simpa using same), ih, List.cons_append]

/-! ### A store in two levels -/

/-- Two lists, the cold one in front of the hot one. -/
structure Levels (α : Type) where
  cold : List α
  hot : List α
deriving DecidableEq, Repr

namespace Levels

omit [DecidableEq α] in
/-- The one order the two lists hold. -/
def order (s : Levels α) : List α := s.cold ++ s.hot

omit [DecidableEq α] in
/-- The first hot element becomes the last cold one. -/
def demote (s : Levels α) : Levels α :=
  match s.hot with
  | [] => s
  | a :: hot => ⟨s.cold ++ [a], hot⟩

/-- A used element becomes the last hot one. -/
def use (s : Levels α) (a : α) : Levels α :=
  ⟨s.cold.filter (· ≠ a), s.hot.filter (· ≠ a) ++ [a]⟩

omit [DecidableEq α] in
/-- The elements that do not satisfy `p` leave. -/
def keep (s : Levels α) (p : α → Bool) : Levels α := ⟨s.cold.filter p, s.hot.filter p⟩

omit [DecidableEq α] in
/-- **A demotion moves only the boundary.** -/
theorem order_demote (s : Levels α) : s.demote.order = s.order := by
  obtain ⟨cold, hot⟩ := s
  cases hot with
  | nil => rfl
  | cons a hot => simp [demote, order]

theorem order_use (s : Levels α) (a : α) : (s.use a).order = s.order.filter (· ≠ a) ++ [a] := by
  simp only [use, order, List.filter_append, List.append_assoc]

omit [DecidableEq α] in
theorem order_keep (s : Levels α) (p : α → Bool) : (s.keep p).order = s.order.filter p := by
  simp only [keep, order, List.filter_append]

/-- The two lists together are the recency order of the log. -/
def Follows (s : Levels α) (log : List α) : Prop := s.order = log.dedup

namespace Follows

variable {s : Levels α} {log : List α}

theorem use (follows : s.Follows log) (a : α) : (s.use a).Follows (log ++ [a]) := by
  rw [Follows, order_use, follows, dedup_concat]

theorem keep (follows : s.Follows log) (p : α → Bool) : (s.keep p).Follows (log.filter p) := by
  rw [Follows, order_keep, follows, dedup_filter]

theorem nodup (follows : s.Follows log) : s.order.Nodup := follows ▸ List.nodup_dedup log

theorem mem_iff (follows : s.Follows log) (a : α) : a ∈ s.order ↔ a ∈ log := by
  rw [follows, List.mem_dedup]

end Follows

end Levels

/-! ### A list in the order of a key -/

section Keys

variable {β κ : Type} [Preorder κ] {key key' : β → κ} {l l' : List β} {b : β}

/-- Fewer elements with the same keys are in order. -/
theorem sorted_sublist (sorted : l.Pairwise fun a b => key a ≤ key b) (fewer : l'.Sublist l)
    (same : ∀ a ∈ l', key' a = key a) : l'.Pairwise fun a b => key' a ≤ key' b := by
  refine (sorted.sublist fewer).imp_of_mem fun {a b} member member' before => ?_
  rw [same a member, same b member']
  exact before

/-- **An element with the greatest key** goes to the end. -/
theorem sorted_concat (sorted : l.Pairwise fun a b => key a ≤ key b) (fewer : l'.Sublist l)
    (same : ∀ a ∈ l', key' a = key a) (latest : ∀ a ∈ l', key' a ≤ key' b) :
    (l' ++ [b]).Pairwise fun a b => key' a ≤ key' b := by
  refine List.pairwise_append.mpr ⟨sorted_sublist sorted fewer same, List.pairwise_singleton _ _, ?_⟩
  intro a member last here
  rw [List.mem_singleton.mp here]
  exact latest a member

/-- **The first element of a kind** has the least key of its kind. -/
theorem sorted_find? {p : β → Bool} (sorted : l.Pairwise fun a b => key a ≤ key b)
    (found : l.find? p = some b) : ∀ a ∈ l, p a = true → key b ≤ key a := by
  obtain ⟨_, early, late, split, none⟩ := List.find?_eq_some_iff_append.mp found
  intro a member kind
  rw [split] at member sorted
  rcases List.mem_append.mp member with inside | inside
  · have not := none a inside
    rw [kind] at not
    cases not
  · rcases List.mem_cons.mp inside with rfl | later
    · exact le_rfl
    · exact (List.pairwise_cons.mp (List.pairwise_append.mp sorted).2.1).1 a later

end Keys

end MiniV.Library
