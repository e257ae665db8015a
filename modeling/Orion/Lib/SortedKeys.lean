import Mathlib.Data.List.Sort

/-!
# Entries sorted by key

An ordered key-value store lists its entries in the order of their keys, each key once. Here
the entries are of any type `α`, read through a key into a linear order `κ`; `insertionSort`
orders them by any relation `r` that says "not greater in key" (`r a b ↔ ¬ key b < key a`).

* `pairwise_lt_insertionSort` — with each key once, the sorted list is strictly increasing.
* `insertionSort_filter` — selecting entries before or after sorting gives the same list.
* `filter_not_lt_eq_drop` — in a strictly increasing list, the entries not below the key of
  the `i`-th one are the list from `i` on: an iterator started again at a key it returned
  goes on from that entry.
-/

namespace Orion.Lib

variable {α κ : Type*} [LinearOrder κ] {key : α → κ}

section Sorting

variable {r : α → α → Prop} [DecidableRel r] (hr : ∀ a b, r a b ↔ ¬ key b < key a)
include hr

theorem pairwise_insertionSort_key (l : List α) : (l.insertionSort r).Pairwise r := by
  have : Std.Total r := ⟨fun a b => by
    rw [hr, hr]
    rcases lt_or_ge (key b) (key a) with h | h
    · exact Or.inr (not_lt.2 h.le)
    · exact Or.inl (not_lt.2 h)⟩
  have : IsTrans α r := ⟨fun a b c hab hbc => by
    rw [hr, not_lt] at hab hbc ⊢
    exact hab.trans hbc⟩
  exact List.pairwise_insertionSort r l

theorem pairwise_lt_insertionSort {l : List α} (hl : (l.map key).Nodup) :
    (l.insertionSort r).Pairwise (key · < key ·) := by
  have hne : ((l.insertionSort r).map key).Nodup := ((List.perm_insertionSort r l).map key).nodup_iff.2 hl
  rw [List.Nodup, List.pairwise_map] at hne
  refine ((pairwise_insertionSort_key hr l).and hne).imp fun {a b} h => ?_
  rw [hr, not_lt] at h
  exact lt_of_le_of_ne h.1 h.2

theorem insertionSort_filter {l : List α} (hl : (l.map key).Nodup) (p : α → Bool) :
    (l.filter p).insertionSort r = (l.insertionSort r).filter p := by
  apply List.Perm.eq_of_pairwise _ (pairwise_insertionSort_key hr _)
    ((pairwise_insertionSort_key hr l).filter p)
    ((List.perm_insertionSort r _).trans ((List.perm_insertionSort r l).filter p).symm)
  intro a b ha hb hab hba
  rw [hr, not_lt] at hab hba
  have ha' : a ∈ l := List.mem_of_mem_filter ((List.perm_insertionSort r _).subset ha)
  have hb' : b ∈ l := (List.perm_insertionSort r l).subset (List.mem_of_mem_filter hb)
  exact List.inj_on_of_nodup_map hl ha' hb' (le_antisymm hab hba)

end Sorting

/-- In a strictly increasing list, the entries not below the key of the `i`-th one are the
list from `i` on. -/
theorem filter_not_lt_eq_drop :
    ∀ {l : List α} (_ : l.Pairwise (key · < key ·)) {i : Nat} (hi : i < l.length),
      l.filter (fun a => !decide (key a < key l[i])) = l.drop i
  | x :: xs, hs, 0, _ => by
    rw [List.drop_zero, List.getElem_cons_zero, List.filter_eq_self]
    intro a ha
    rcases List.mem_cons.1 ha with rfl | ha
    · simp
    · simpa using (List.rel_of_pairwise_cons hs ha).le
  | x :: xs, hs, i + 1, hi => by
    have hi' : i < xs.length := by simpa using hi
    have hlt : key x < key xs[i] := List.rel_of_pairwise_cons hs (List.getElem_mem _)
    rw [List.drop_succ_cons, List.getElem_cons_succ, List.filter_cons_of_neg (by simpa using hlt)]
    exact filter_not_lt_eq_drop hs.of_cons hi'

end Orion.Lib
