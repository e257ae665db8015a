import Mathlib.Logic.Function.Basic
import Mathlib.Data.List.Perm.Basic
import Mathlib.Data.List.Nodup

/-!
# Point updates of a function

A store that maps keys to values changes by point updates `k ↦ v`. Applied in
order to a function, updates at distinct points commute, so a list of updates
whose points are pairwise distinct gives the same function in every order.
-/

namespace Orion.Lib

variable {κ β : Type} [DecidableEq κ]

/-- Apply the point updates in order. -/
def applyUpdates (f : κ → β) (us : List (κ × β)) : κ → β :=
  us.foldl (fun f u => Function.update f u.1 u.2) f

@[simp] theorem applyUpdates_nil (f : κ → β) : applyUpdates f [] = f := rfl

@[simp] theorem applyUpdates_cons (f : κ → β) (u : κ × β) (us : List (κ × β)) :
    applyUpdates f (u :: us) = applyUpdates (Function.update f u.1 u.2) us := rfl

theorem applyUpdates_append (f : κ → β) (us us' : List (κ × β)) :
    applyUpdates f (us ++ us') = applyUpdates (applyUpdates f us) us' :=
  List.foldl_append

/-- A point no update names keeps its value. -/
theorem applyUpdates_of_not_mem {us : List (κ × β)} {k : κ} (h : k ∉ us.map Prod.fst) (f : κ → β) :
    applyUpdates f us k = f k := by
  induction us generalizing f with
  | nil => rfl
  | cons u us ih =>
    rw [List.map_cons, List.mem_cons, not_or] at h
    rw [applyUpdates_cons, ih h.2, Function.update_of_ne h.1]

/-- At pairwise distinct points, a point takes the value of its update. -/
theorem applyUpdates_of_mem {us : List (κ × β)} (hd : (us.map Prod.fst).Nodup) {k : κ} {v : β}
    (h : (k, v) ∈ us) (f : κ → β) : applyUpdates f us k = v := by
  induction us generalizing f with
  | nil => exact absurd h List.not_mem_nil
  | cons u us ih =>
    rw [List.map_cons, List.nodup_cons] at hd
    rw [applyUpdates_cons]
    rcases List.mem_cons.1 h with rfl | h
    · rw [applyUpdates_of_not_mem hd.1, Function.update_self]
    · exact ih hd.2 h _

/-- A point some update names takes the value of one of its updates: the last. -/
theorem applyUpdates_mem_of_mem {us : List (κ × β)} {k : κ} (h : k ∈ us.map Prod.fst) (f : κ → β) :
    (k, applyUpdates f us k) ∈ us := by
  induction us generalizing f with
  | nil => exact absurd h List.not_mem_nil
  | cons u us ih =>
    rw [applyUpdates_cons]
    by_cases hk : k ∈ us.map Prod.fst
    · exact List.mem_cons_of_mem _ (ih hk _)
    · -- the point is the first update's, and no later update names it
      have hu : k = u.1 := by
        rw [List.map_cons, List.mem_cons] at h
        exact h.resolve_right hk
      rw [applyUpdates_of_not_mem hk, hu, Function.update_self]
      exact List.mem_cons_self

/-- The value at a point depends only on the starting value there. -/
theorem applyUpdates_congr_at {f g : κ → β} {k : κ} (h : f k = g k) (us : List (κ × β)) :
    applyUpdates f us k = applyUpdates g us k := by
  induction us generalizing f g with
  | nil => exact h
  | cons u us ih =>
    apply ih
    by_cases hk : k = u.1
    · subst hk
      simp only [Function.update_self]
    · simp only [Function.update_of_ne hk, h]

/-- The last update of a point decides its value. -/
theorem applyUpdates_last {pre post : List (κ × β)} {k : κ} {v : β} (h : k ∉ post.map Prod.fst)
    (f : κ → β) : applyUpdates f (pre ++ (k, v) :: post) k = v := by
  rw [applyUpdates_append, applyUpdates_cons, applyUpdates_of_not_mem h, Function.update_self]

/-- **Order does not matter at distinct points.** A permutation of a list of updates whose
points are pairwise distinct gives the same function. -/
theorem applyUpdates_perm {us us' : List (κ × β)} (hp : us.Perm us') (hd : (us.map Prod.fst).Nodup)
    (f : κ → β) : applyUpdates f us = applyUpdates f us' := by
  refine hp.foldl_eq' (fun x hx y hy g => ?_) f
  by_cases hxy : x = y
  · rw [hxy]
  · have hk : x.1 ≠ y.1 := fun h => hxy (List.inj_on_of_nodup_map hd hx hy h)
    exact Function.update_comm hk x.2 y.2 g

/-! ### Rows

A function of two arguments, updated at pairs, is updated row by row: the updates of one row are
those whose point is in that row. -/

section Rows

variable {ρ : Type} [DecidableEq ρ]

/-- The updates of row `r`, at their second argument, in order. -/
def rowUpdates (r : ρ) (us : List ((ρ × κ) × β)) : List (κ × β) :=
  us.filterMap fun u => if u.1.1 = r then some (u.1.2, u.2) else none

omit [DecidableEq κ] in
@[simp] theorem rowUpdates_append (r : ρ) (us us' : List ((ρ × κ) × β)) :
    rowUpdates r (us ++ us') = rowUpdates r us ++ rowUpdates r us' :=
  List.filterMap_append

omit [DecidableEq κ] in
/-- Updates in row `r` are its updates. -/
theorem rowUpdates_of_row {r : ρ} {us : List ((ρ × κ) × β)} (h : ∀ u ∈ us, u.1.1 = r) :
    rowUpdates r us = us.map fun u => (u.1.2, u.2) := by
  induction us with
  | nil => rfl
  | cons u us ih =>
    simp only [rowUpdates, List.filterMap_cons, if_pos (h u List.mem_cons_self), List.map_cons]
    exact congrArg _ (ih fun u' hu' => h u' (List.mem_cons_of_mem _ hu'))

omit [DecidableEq κ] in
/-- Updates in other rows are none of row `r`'s. -/
theorem rowUpdates_of_ne {r : ρ} {us : List ((ρ × κ) × β)} (h : ∀ u ∈ us, u.1.1 ≠ r) :
    rowUpdates r us = [] := by
  induction us with
  | nil => rfl
  | cons u us ih =>
    simp only [rowUpdates, List.filterMap_cons, if_neg (h u List.mem_cons_self)]
    exact ih fun u' hu' => h u' (List.mem_cons_of_mem _ hu')

/-- A row of the updated function is the row updated by its own updates. -/
theorem applyUpdates_row (f : ρ × κ → β) (us : List ((ρ × κ) × β)) (r : ρ) (k : κ) :
    applyUpdates f us (r, k) = applyUpdates (fun k => f (r, k)) (rowUpdates r us) k := by
  induction us generalizing f with
  | nil => rfl
  | cons u us ih =>
    rw [applyUpdates_cons, ih]
    obtain ⟨⟨r', k'⟩, v⟩ := u
    by_cases hr : r' = r
    · -- the update is in the row: it updates the row at its second argument
      subst hr
      have hrow : rowUpdates r' (((r', k'), v) :: us) = (k', v) :: rowUpdates r' us := by
        simp [rowUpdates]
      rw [hrow, applyUpdates_cons]
      congr 1
      funext k''
      by_cases hk : k'' = k'
      · subst hk
        simp only [Function.update_self]
      · simp only [Function.update_of_ne hk, ne_eq, Prod.mk.injEq, true_and, hk, not_false_eq_true,
          Function.update_of_ne]
    · have hrow : rowUpdates r (((r', k'), v) :: us) = rowUpdates r us := by
        simp [rowUpdates, hr]
      rw [hrow]
      congr 1
      funext k''
      rw [Function.update_of_ne (fun h => hr (Prod.mk.inj h).1.symm)]

omit [DecidableEq κ] in
/-- Pairwise distinct points give pairwise distinct points in each row. -/
theorem nodup_rowUpdates (r : ρ) {us : List ((ρ × κ) × β)} (h : (us.map Prod.fst).Nodup) :
    ((rowUpdates r us).map Prod.fst).Nodup := by
  induction us with
  | nil => exact List.nodup_nil
  | cons u us ih =>
    rw [List.map_cons, List.nodup_cons] at h
    by_cases hr : u.1.1 = r
    · simp only [rowUpdates, List.filterMap_cons, if_pos hr, List.map_cons, List.nodup_cons]
      refine ⟨fun hmem => h.1 ?_, ih h.2⟩
      -- a later update in the row at the same second argument is at the same point
      obtain ⟨⟨k, v⟩, hkv, hk⟩ := List.mem_map.1 hmem
      obtain ⟨u', hu', hsome⟩ := List.mem_filterMap.1 hkv
      split_ifs at hsome with hr'
      obtain ⟨rfl, rfl⟩ := Prod.mk.inj (Option.some.inj hsome)
      refine List.mem_map.2 ⟨u', hu', ?_⟩
      exact Prod.ext (hr'.trans hr.symm) hk
    · simp only [rowUpdates, List.filterMap_cons, if_neg hr]
      exact ih h.2

end Rows

/-! ### Keys seen so far

Go checks a key against a `map[K]bool` of the keys seen so far, then adds it. -/

omit [DecidableEq κ] in
/-- One more key accepted by a loop over the keys seen so far: the keys it accepts stay pairwise
distinct and new to the keys it started with. -/
theorem fresh_cons {α : Type} {key : α → κ} {seen : List κ} {x : α} {rest : List α}
    (hx : key x ∉ seen) (hrest : (rest.map key).Nodup ∧ ∀ y ∈ rest, key y ∉ key x :: seen) :
    ((x :: rest).map key).Nodup ∧ ∀ y ∈ x :: rest, key y ∉ seen := by
  obtain ⟨hnodup, hfresh⟩ := hrest
  refine ⟨?_, ?_⟩
  · rw [List.map_cons, List.nodup_cons]
    refine ⟨fun hmem => ?_, hnodup⟩
    obtain ⟨y, hy, hkey⟩ := List.mem_map.1 hmem
    exact hfresh y hy (hkey ▸ List.mem_cons_self)
  · intro y hy
    rcases List.mem_cons.1 hy with rfl | hy
    · exact hx
    · exact fun hmem => hfresh y hy (List.mem_cons_of_mem _ hmem)

end Orion.Lib
