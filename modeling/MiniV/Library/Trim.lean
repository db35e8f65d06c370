/-
**Trimming a queue from the front until it fits.**

`trim fits l` drops elements from the front of `l` one at a time until what is left satisfies
`fits`, and keeps nothing when no part does. It is the longest suffix of `l` that fits:

* `trim_suffix`, `trim_fits`: it is a suffix, and it fits unless it is empty;
* `not_fits_of_longer`: no longer suffix fits, so no fewer elements could have been dropped;
* `suffix_trim_of_fits`: every suffix that fits is a suffix of it.

Where the elements have weights, a suffix weighs no more than the whole (`sum_le_of_suffix`).

`admitAll fits l joining` lets elements join at the back one by one and trims the queue after each:
an element stays when the queue behind it fits after each of them (`suffix_admitAll`), and where it
stayed the queue fits after the last (`admitAll_of_mem`).
-/

import Mathlib.Data.List.Infix
import Mathlib.Algebra.BigOperators.Group.List.Basic
import Mathlib.Algebra.GroupWithZero.Nat

namespace MiniV.Library

variable {α : Type}

/-- The longest suffix that fits; empty when none does. -/
def trim (fits : List α → Bool) : List α → List α
  | [] => []
  | a :: l => if fits (a :: l) then a :: l else trim fits l

variable {fits : List α → Bool}

@[simp] theorem trim_nil : trim fits [] = [] := rfl

theorem trim_of_fits {l : List α} (holds : fits l = true) : trim fits l = l := by
  cases l with
  | nil => rfl
  | cons a l => rw [trim, if_pos holds]

theorem trim_cons_of_not_fits {a : α} {l : List α} (fails : fits (a :: l) = false) :
    trim fits (a :: l) = trim fits l := by
  rw [trim, if_neg (by rw [fails]; exact Bool.false_ne_true)]

theorem trim_suffix (l : List α) : trim fits l <:+ l := by
  induction l with
  | nil => exact List.suffix_rfl
  | cons a l ih =>
    rw [trim]
    split
    · exact List.suffix_rfl
    · exact ih.trans (List.suffix_cons a l)

theorem trim_fits (l : List α) : trim fits l = [] ∨ fits (trim fits l) = true := by
  induction l with
  | nil => exact Or.inl rfl
  | cons a l ih =>
    by_cases holds : fits (a :: l) = true
    · rw [trim_of_fits holds]
      exact Or.inr holds
    · rw [trim_cons_of_not_fits (Bool.eq_false_iff.mpr holds)]
      exact ih

/-- **Every suffix that fits is kept.** -/
theorem suffix_trim_of_fits {l t : List α} (suffix : t <:+ l) (holds : fits t = true) :
    t <:+ trim fits l := by
  induction l with
  | nil =>
    rw [List.suffix_nil.mp suffix]
    exact List.nil_suffix
  | cons a l ih =>
    rw [trim]
    split
    · exact suffix
    · rename_i fails
      rcases List.suffix_cons_iff.mp suffix with whole | inside
      · subst whole
        exact absurd holds fails
      · exact ih inside

/-- **No longer suffix fits**: dropping fewer elements would not have been enough. -/
theorem not_fits_of_longer {l t : List α} (suffix : t <:+ l)
    (longer : (trim fits l).length < t.length) : fits t = false := by
  by_contra fitting
  have holds : fits t = true := by simpa using fitting
  have short := (suffix_trim_of_fits suffix holds).length_le
  omega

/-! ### Weights -/

theorem sum_le_of_suffix {weight : α → Nat} {t l : List α} (suffix : t <:+ l) :
    (t.map weight).sum ≤ (l.map weight).sum := by
  obtain ⟨dropped, rfl⟩ := suffix
  rw [List.map_append, List.sum_append]
  exact Nat.le_add_left _ _

/-! ### Joining one by one -/

/-- Elements join at the back, and after each the queue is trimmed by the test of the newcomer. -/
def admitAll (fits : α → List α → Bool) : List α → List α → List α
  | l, [] => l
  | l, a :: joining => admitAll fits (trim (fits a) (l ++ [a])) joining

theorem admitAll_suffix (fits : α → List α → Bool) (l joining : List α) :
    admitAll fits l joining <:+ l ++ joining := by
  induction joining generalizing l with
  | nil => rw [admitAll, List.append_nil]
  | cons a joining ih =>
    obtain ⟨dropped, split⟩ := (trim_suffix (l ++ [a]) : trim (fits a) (l ++ [a]) <:+ _)
    refine (ih _).trans ⟨dropped, ?_⟩
    rw [← List.append_assoc, split, List.append_assoc]
    rfl

/-- The last to join is there, if each fits alone. -/
theorem last_mem_admitAll {fits : α → List α → Bool} (alone : ∀ a, fits a [a] = true)
    {l joining : List α} {a : α} (last : joining.getLast? = some a) : a ∈ admitAll fits l joining := by
  induction joining generalizing l with
  | nil => cases last
  | cons b joining ih =>
    rw [admitAll]
    cases joining with
    | nil =>
      cases last
      exact (suffix_trim_of_fits (List.suffix_append l [b]) (alone b)).subset List.mem_cons_self
    | cons c joining => exact ih last

/-- **A part of the queue that fits with each newcomer stays**, with all of them. -/
theorem suffix_admitAll {fits : α → List α → Bool} {l t joining : List α} (suffix : t <:+ l)
    (holds : ∀ early a late, joining = early ++ a :: late → fits a (t ++ (early ++ [a])) = true) :
    t ++ joining <:+ admitAll fits l joining := by
  induction joining generalizing l t with
  | nil =>
    rw [admitAll, List.append_nil]
    exact suffix
  | cons a joining ih =>
    obtain ⟨front, rfl⟩ := suffix
    have stays : t ++ [a] <:+ trim (fits a) (front ++ t ++ [a]) := by
      refine suffix_trim_of_fits ⟨front, ?_⟩ (holds [] a joining rfl)
      rw [List.append_assoc]
    have later := ih stays fun early b late split => by
      have here := holds (a :: early) b late (by rw [split]; rfl)
      rw [List.append_assoc]
      exact here
    rw [List.append_assoc] at later
    exact later

/-- A suffix that contains an element contains all that stands behind it. -/
theorem split_of_mem_suffix {s front behind : List α} {x : α} (suffix : s <:+ front ++ x :: behind)
    (member : x ∈ s) (last : x ∉ behind) :
    ∃ front', front' <:+ front ∧ s = front' ++ x :: behind := by
  have tail : x :: behind <:+ front ++ x :: behind := ⟨front, rfl⟩
  rcases List.suffix_or_suffix_of_suffix suffix tail with shorter | longer
  · rcases List.suffix_cons_iff.mp shorter with whole | inside
    · exact ⟨[], List.nil_suffix, whole⟩
    · exact absurd (inside.subset member) last
  · obtain ⟨front', rfl⟩ := longer
    obtain ⟨dropped, split⟩ := suffix
    rw [← List.append_assoc] at split
    exact ⟨front', ⟨dropped, List.append_cancel_right split⟩, rfl⟩

/-- **An element that stays keeps its place**: all that stood behind it, and behind that all that joined. -/
theorem admitAll_place {fits : α → List α → Bool} {front behind joining : List α} {x : α}
    (last : x ∉ behind) (other : x ∉ joining)
    (stays : x ∈ admitAll fits (front ++ x :: behind) joining) :
    ∃ front', front' <:+ front ∧
      admitAll fits (front ++ x :: behind) joining = front' ++ x :: (behind ++ joining) := by
  have suffix := admitAll_suffix fits (front ++ x :: behind) joining
  rw [List.append_assoc, List.cons_append] at suffix
  refine split_of_mem_suffix suffix stays ?_
  rw [List.mem_append]
  exact not_or.mpr ⟨last, other⟩

/-- **Where an element stays, so does all behind it, and the queue fits with the last newcomer.** -/
theorem admitAll_of_mem {fits : α → List α → Bool} {front behind joining : List α} {x : α}
    (last : x ∉ behind) (other : x ∉ joining)
    (stays : x ∈ admitAll fits (front ++ x :: behind) joining) :
    ∃ front', front' <:+ front ∧
      ∀ a ∈ joining.getLast?, fits a (front' ++ (x :: behind ++ joining)) = true := by
  induction joining generalizing front behind with
  | nil => exact ⟨front, List.suffix_rfl, fun a none => by cases none⟩
  | cons a joining ih =>
    rw [List.mem_cons, not_or] at other
    have shape : front ++ x :: behind ++ [a] = front ++ x :: (behind ++ [a]) := by simp
    have last' : x ∉ behind ++ [a] := by
      rw [List.mem_append, List.mem_singleton, not_or]
      exact ⟨last, other.1⟩
    rw [admitAll, shape] at stays
    -- the element was there after the first trimming
    have here : x ∈ trim (fits a) (front ++ x :: (behind ++ [a])) :=
      (List.mem_append.mp ((admitAll_suffix _ _ _).subset stays)).resolve_right other.2
    obtain ⟨front1, part, trimmed⟩ := split_of_mem_suffix (trim_suffix _) here last'
    rw [trimmed] at stays here
    obtain ⟨front', part', fit⟩ := ih last' other.2 stays
    cases joining with
    | nil =>
      refine ⟨front1, part, fun b same => ?_⟩
      cases same
      have ends : trim (fits a) _ = [] ∨ _ := trim_fits (front ++ x :: (behind ++ [a]))
      have fits' := ends.resolve_left fun empty => by simp [empty] at trimmed
      rw [trimmed] at fits'
      exact fits'
    | cons b joining =>
      refine ⟨front', part'.trans part, fun c same => ?_⟩
      have fits' := fit c same
      rw [List.cons_append, List.append_assoc] at fits'
      exact fits'

end MiniV.Library
