/-
**Doubly linked lists with iterators.**

A list whose elements are nodes, each with an address of its own. An iterator is the address it was
taken at: it stays valid while its node is in the list and denotes nothing afterwards, because an
address is never handed out twice. `eraseAt` is the erasure through an iterator; it has no result
when the iterator denotes no node of this list.

* `eraseAt_of_mem`: in a list with distinct addresses, erasing through the address of a node takes
  out that node;
* `values_erase`: the values that remain, in order;
* `sum_erase`: a total over the nodes loses exactly the summand of the node erased;
* `eraseAt_rename`: erasing commutes with an injective renaming of the elements.
-/

import Mathlib.Data.List.Nodup
import Mathlib.Algebra.BigOperators.Group.List.Basic
import Mathlib.Algebra.GroupWithZero.Nat

namespace MiniV.Library

/-- A node of a linked list: where it lives, and its element. -/
structure Node (α : Type) where
  addr : Nat
  val : α
deriving DecidableEq, Repr

namespace NodeList

variable {α : Type}

/-- The elements, first to last. -/
def values (l : List (Node α)) : List α := l.map Node.val

/-- The addresses, first to last. -/
def addresses (l : List (Node α)) : List Nat := l.map Node.addr

@[simp] theorem values_nil : values ([] : List (Node α)) = [] := rfl

@[simp] theorem values_cons (n : Node α) (l : List (Node α)) : values (n :: l) = n.val :: values l :=
  rfl

@[simp] theorem values_append (first second : List (Node α)) :
    values (first ++ second) = values first ++ values second := List.map_append

@[simp] theorem length_values (l : List (Node α)) : (values l).length = l.length := List.length_map _

theorem mem_values {l : List (Node α)} {a : α} : a ∈ values l ↔ ∃ n ∈ l, n.val = a := List.mem_map

@[simp] theorem addresses_append (first second : List (Node α)) :
    addresses (first ++ second) = addresses first ++ addresses second := List.map_append

/-- Two nodes of a list with distinct addresses that share their address are one node. -/
theorem eq_of_addr {l : List (Node α)} (distinct : (addresses l).Nodup) {n n' : Node α}
    (member : n ∈ l) (member' : n' ∈ l) (same : n.addr = n'.addr) : n = n' :=
  List.inj_on_of_nodup_map distinct member member' same

theorem nodup_of_addresses {l : List (Node α)} (distinct : (addresses l).Nodup) : l.Nodup :=
  List.Nodup.of_map _ distinct

/-- A new node at an unused address keeps the addresses distinct. -/
theorem addresses_push {l : List (Node α)} (distinct : (addresses l).Nodup) {a : Nat} (v : α)
    (fresh : ∀ n ∈ l, n.addr < a) : (addresses (l ++ [⟨a, v⟩])).Nodup := by
  rw [addresses_append]
  refine List.Nodup.append distinct (List.nodup_singleton a) ?_
  intro b inside last
  obtain ⟨n, member, rfl⟩ := List.mem_map.mp inside
  have same : n.addr = a := List.mem_singleton.mp last
  have below := fresh n member
  omega

/-! ### Erasing through an iterator -/

variable [DecidableEq α]

/-- The node an iterator denotes, and the list without it. -/
def eraseAt (l : List (Node α)) (it : Option Nat) : Option (Node α × List (Node α)) :=
  match it with
  | none => none
  | some a => (l.find? fun n => n.addr == a).map fun n => (n, l.erase n)

/-- **Erasing through the address of a live node takes out that node.** -/
theorem eraseAt_of_mem {l : List (Node α)} (distinct : (addresses l).Nodup) {n : Node α}
    (member : n ∈ l) : eraseAt l (some n.addr) = some (n, l.erase n) := by
  have found : (l.find? fun n' => n'.addr == n.addr) = some n := by
    cases search : l.find? fun n' => n'.addr == n.addr with
    | none =>
      have absent := List.find?_eq_none.mp search n member
      simp at absent
    | some n' =>
      have same : n'.addr = n.addr := by simpa using List.find?_some search
      rw [eq_of_addr distinct (List.mem_of_find?_eq_some search) member same]
  rw [eraseAt, found]
  rfl

/-- Whatever is erased, the rest is the list without it. -/
theorem eraseAt_rest {l : List (Node α)} {it : Option Nat} {n : Node α} {rest : List (Node α)}
    (erased : eraseAt l it = some (n, rest)) : rest = l.erase n := by
  cases it with
  | none => cases erased
  | some a =>
    obtain ⟨n', _, same⟩ := Option.map_eq_some_iff.mp erased
    cases same
    rfl

theorem mem_erase {l : List (Node α)} (distinct : (addresses l).Nodup) {n x : Node α} :
    x ∈ l.erase n ↔ x ≠ n ∧ x ∈ l :=
  (nodup_of_addresses distinct).mem_erase_iff

theorem addresses_erase {l : List (Node α)} (distinct : (addresses l).Nodup) (n : Node α) :
    (addresses (l.erase n)).Nodup :=
  distinct.sublist (List.Sublist.map _ List.erase_sublist)

/-- **The values after an erasure**: the ones before it, without the element of the node. -/
theorem values_erase {l : List (Node α)} (distinct : (values l).Nodup) {n : Node α}
    (member : n ∈ l) : values (l.erase n) = (values l).filter (· ≠ n.val) := by
  have each : l.Nodup := List.Nodup.of_map _ distinct
  rw [each.erase_eq_filter, values, values, List.filter_map]
  congr 1
  refine List.filter_congr fun x inside => ?_
  by_cases same : x = n
  · subst same
    simp
  · have other : x.val ≠ n.val := fun equal =>
      same (List.inj_on_of_nodup_map distinct inside member equal)
    simp [same, other]

omit [DecidableEq α] in
theorem head_val_of_values {l : List (Node α)} {a : α} {rest : List α}
    (shape : values l = a :: rest) : ∃ n tail, l = n :: tail ∧ n.val = a ∧ values tail = rest := by
  cases l with
  | nil => cases shape
  | cons n tail =>
    rw [values_cons, List.cons.injEq] at shape
    exact ⟨n, tail, rfl, shape.1, shape.2⟩

/-- **A total over the nodes loses the summand of the node erased.** -/
theorem sum_erase {l : List (Node α)} (weight : Node α → Nat) {n : Node α} (member : n ∈ l) :
    weight n + ((l.erase n).map weight).sum = (l.map weight).sum :=
  List.sum_map_erase weight member

/-! ### Renaming the elements -/

/-- A node with its element renamed. -/
def rename {β : Type} (f : α → β) (n : Node α) : Node β := ⟨n.addr, f n.val⟩

omit [DecidableEq α] in
theorem values_rename {β : Type} (f : α → β) (l : List (Node α)) :
    values (l.map (rename f)) = (values l).map f := by
  rw [values, values, List.map_map, List.map_map]
  rfl

omit [DecidableEq α] in
theorem rename_injective {β : Type} {f : α → β} (injective : Function.Injective f) :
    Function.Injective (rename f) := by
  rintro ⟨a, v⟩ ⟨a', v'⟩ same
  rw [rename, rename, Node.mk.injEq] at same
  rw [Node.mk.injEq]
  exact ⟨same.1, injective same.2⟩

/-- **Erasing from the renamed list** is erasing and renaming. -/
theorem eraseAt_rename {β : Type} [DecidableEq β] {f : α → β} (injective : Function.Injective f)
    (l : List (Node α)) (it : Option Nat) :
    eraseAt (l.map (rename f)) it =
      (eraseAt l it).map fun found => (rename f found.1, found.2.map (rename f)) := by
  cases it with
  | none => rfl
  | some a =>
    rw [eraseAt, eraseAt, List.find?_map, Option.map_map, Option.map_map]
    show Option.map _ (l.find? fun n => n.addr == a) = _
    congr 1
    funext n
    show (rename f n, (l.map (rename f)).erase (rename f n)) = _
    rw [← List.map_erase (rename_injective injective)]
    rfl

end NodeList

end MiniV.Library
