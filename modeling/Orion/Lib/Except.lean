import Mathlib.Logic.Basic

/-!
# Computations that may fail

Go functions that return `(value, error)` are modelled in `Except ε`. These are
the rules the proofs use to take such a computation apart: a successful bind was
two successful steps, a failed step fails the whole, and `map` and `mapError`
keep success and failure.
-/

namespace Except

variable {ε ε' α β : Type}

@[simp] theorem ok_bind (a : α) (f : α → Except ε β) : (Except.ok a >>= f) = f a := rfl

@[simp] theorem error_bind (e : ε) (f : α → Except ε β) : (Except.error e >>= f) = .error e := rfl

/-- A bind succeeds exactly when both steps do. -/
theorem bind_eq_ok {x : Except ε α} {f : α → Except ε β} {b : β} :
    (x >>= f) = .ok b ↔ ∃ a, x = .ok a ∧ f a = .ok b := by
  cases x with
  | error e => exact ⟨fun h => (nomatch h), fun ⟨_, h, _⟩ => (nomatch h)⟩
  | ok a => exact ⟨fun h => ⟨a, rfl, h⟩, fun ⟨a', h, hf⟩ => by cases h; exact hf⟩

@[simp] theorem map_eq_ok {x : Except ε α} {f : α → β} {b : β} :
    f <$> x = .ok b ↔ ∃ a, x = .ok a ∧ f a = b := by
  cases x with
  | error e => exact ⟨fun h => (nomatch h), fun ⟨_, h, _⟩ => (nomatch h)⟩
  | ok a =>
    constructor
    · intro h
      cases h
      exact ⟨a, rfl, rfl⟩
    · rintro ⟨a', h, rfl⟩
      cases h
      rfl

@[simp] theorem mapError_eq_ok {x : Except ε α} {f : ε → ε'} {a : α} :
    x.mapError f = .ok a ↔ x = .ok a := by
  cases x with
  | error e => exact ⟨fun h => (nomatch h), fun h => (nomatch h)⟩
  | ok a' => exact ⟨fun h => by cases h; rfl, fun h => by cases h; rfl⟩

/-- Go's `if c { return err }` before the rest: a success passed the check and the rest. -/
theorem ite_error_eq_ok {c : Prop} [Decidable c] {e : ε} {x : Except ε α} {a : α} :
    (if c then .error e else x) = .ok a ↔ ¬c ∧ x = .ok a := by
  by_cases hc : c
  · rw [if_pos hc]
    exact ⟨fun h => (nomatch h), fun h => absurd hc h.1⟩
  · rw [if_neg hc]
    exact ⟨fun h => ⟨hc, h⟩, fun h => h.2⟩

/-- `mapM` of a function that succeeds on each element. -/
theorem mapM_eq_ok_map {f : α → Except ε β} {g : α → β} :
    ∀ {xs : List α}, (∀ x ∈ xs, f x = .ok (g x)) → xs.mapM f = .ok (xs.map g)
  | [], _ => rfl
  | x :: xs, h => by
    rw [List.mapM_cons, h x List.mem_cons_self, ok_bind,
      mapM_eq_ok_map fun y hy => h y (List.mem_cons_of_mem _ hy), ok_bind]
    rfl

/-- A successful `mapM` succeeded on each element, and holds its result. -/
theorem exists_mem_of_mapM_eq_ok {f : α → Except ε β} :
    ∀ {xs : List α} {ys : List β} {x : α}, xs.mapM f = .ok ys → x ∈ xs →
      ∃ y, f x = .ok y ∧ y ∈ ys
  | [], _, _, _, hx => nomatch hx
  | x' :: xs, ys, x, h, hx => by
    rw [List.mapM_cons] at h
    obtain ⟨y', hy', h⟩ := bind_eq_ok.1 h
    obtain ⟨ys', hys', h⟩ := bind_eq_ok.1 h
    cases h
    rcases List.mem_cons.1 hx with rfl | hx
    · exact ⟨y', hy', List.mem_cons_self⟩
    · obtain ⟨y, hy, hmem⟩ := exists_mem_of_mapM_eq_ok hys' hx
      exact ⟨y, hy, List.mem_cons_of_mem _ hmem⟩

/-- A loop that succeeds keeps every invariant of its accumulator that each step keeps. -/
theorem foldlM_invariant {f : β → α → Except ε β} {P : β → Prop}
    (hstep : ∀ b a b', P b → f b a = .ok b' → P b') :
    ∀ {xs : List α} {b b' : β}, P b → xs.foldlM f b = .ok b' → P b'
  | [], _, _, hb, h => by
    cases h
    exact hb
  | x :: xs, b, b', hb, h => by
    rw [List.foldlM_cons] at h
    obtain ⟨b₁, h₁, h⟩ := bind_eq_ok.1 h
    exact foldlM_invariant hstep (hstep b x b₁ hb h₁) h

/-- A successful `mapM`'s results each come from an element. -/
theorem mem_of_mapM_eq_ok {f : α → Except ε β} :
    ∀ {xs : List α} {ys : List β} {y : β}, xs.mapM f = .ok ys → y ∈ ys → ∃ x ∈ xs, f x = .ok y
  | [], ys, _, h, hy => by
    cases h
    exact absurd hy List.not_mem_nil
  | x :: xs, ys, y, h, hy => by
    rw [List.mapM_cons] at h
    obtain ⟨y', hy', h⟩ := bind_eq_ok.1 h
    obtain ⟨ys', hys', h⟩ := bind_eq_ok.1 h
    cases h
    rcases List.mem_cons.1 hy with rfl | hy
    · exact ⟨x, List.mem_cons_self, hy'⟩
    · obtain ⟨x', hx', hfx'⟩ := mem_of_mapM_eq_ok hys' hy
      exact ⟨x', List.mem_cons_of_mem _ hx', hfx'⟩

/-- An element a successful `filterAuxM` returns was in the accumulator, or is one of the list
that the test accepted. -/
theorem mem_of_filterAuxM_eq_ok {p : α → Except ε Bool} :
    ∀ {xs acc ys : List α} {y : α}, List.filterAuxM p xs acc = .ok ys → y ∈ ys →
      y ∈ acc ∨ y ∈ xs ∧ p y = .ok true
  | [], acc, ys, y, h, hy => by
    cases h
    exact .inl hy
  | x :: xs, acc, ys, y, h, hy => by
    rw [List.filterAuxM] at h
    obtain ⟨b, hb, h⟩ := bind_eq_ok.1 h
    rcases mem_of_filterAuxM_eq_ok h hy with hacc | ⟨hxs, hpy⟩
    · -- the accumulator gained `x` exactly when the test accepted it
      cases b with
      | false => exact .inl hacc
      | true =>
        rcases List.mem_cons.1 hacc with rfl | hacc
        · exact .inr ⟨List.mem_cons_self, hb⟩
        · exact .inl hacc
    · exact .inr ⟨List.mem_cons_of_mem _ hxs, hpy⟩

/-- An element a successful `filterM` returns is one of the list that the test accepted. -/
theorem mem_of_filterM_eq_ok {p : α → Except ε Bool} {xs ys : List α} {y : α}
    (h : xs.filterM p = .ok ys) (hy : y ∈ ys) : y ∈ xs ∧ p y = .ok true := by
  obtain ⟨zs, hzs, h⟩ := bind_eq_ok.1 h
  cases h
  rcases mem_of_filterAuxM_eq_ok hzs (List.mem_reverse.1 hy) with hnil | hmem
  · exact absurd hnil List.not_mem_nil
  · exact hmem

/-- A run of two steps, each followed by a read, that ends with the reads `r₁` and `r₂`: both
steps succeeded and each read gave its result. This is how a run evaluated as a whole is taken
apart into the facts about each step. -/
theorem step_read_step_read_eq_ok {x : Except ε α} {step : α → Except ε α} {read : α → Except ε β}
    {r₁ r₂ : β}
    (h : (do
      let a ← x
      let c₁ ← read a
      let b ← step a
      let c₂ ← read b
      pure (c₁, c₂)) = Except.ok (r₁, r₂)) :
    ∃ a b, x = .ok a ∧ read a = .ok r₁ ∧ step a = .ok b ∧ read b = .ok r₂ := by
  obtain ⟨a, ha, h⟩ := bind_eq_ok.1 h
  obtain ⟨c₁, hc₁, h⟩ := bind_eq_ok.1 h
  obtain ⟨b, hb, h⟩ := bind_eq_ok.1 h
  obtain ⟨c₂, hc₂, h⟩ := bind_eq_ok.1 h
  obtain ⟨rfl, rfl⟩ := Prod.mk.inj (Except.ok.inj h)
  exact ⟨a, b, ha, hc₁, hb, hc₂⟩

end Except
