import Mathlib.Data.List.Dedup

/-!
# A store of quads

A graph store keeps a set of edges `subject --predicate--> object` over some type of vertices,
in the order they were added. A batch of quads is added as a set: each quad that is not there
yet, once (`addQuads`). A query walks from a vertex along edges of one predicate (`out`), along
all edges (`outAll`), or back along edges of one predicate (`inP`), and lists what it reaches,
one entry per edge; all three select quads and read one of their vertices (`select`).
`followRecursive` follows edges of one predicate again and again, within a number of steps.

* `select_addQuads` — once a batch is added, a query lists what it listed before and then what
  it finds in the batch, as long as the batch's matching quads are new and reach distinct
  vertices.
* `select_eq_nil` — a query finds nothing among quads that none of it matches.
-/

namespace Orion.Lib

variable {V : Type}

/-- An edge `subject --predicate--> object`. -/
structure Quad (V : Type) where
  subject : V
  predicate : V
  object : V
  deriving DecidableEq, Repr

/-- The vertex `pick` reads of each quad that `sel` matches, in order. -/
def select (sel : Quad V → Bool) (pick : Quad V → V) (qs : List (Quad V)) : List V :=
  qs.filterMap fun q => if sel q then some (pick q) else none

@[simp] theorem select_nil (sel : Quad V → Bool) (pick : Quad V → V) : select sel pick [] = [] := rfl

@[simp] theorem select_append (sel : Quad V → Bool) (pick : Quad V → V) (qs qs' : List (Quad V)) :
    select sel pick (qs ++ qs') = select sel pick qs ++ select sel pick qs' :=
  List.filterMap_append

theorem select_cons_of_sel {sel : Quad V → Bool} (pick : Quad V → V) {q : Quad V} (qs : List (Quad V))
    (h : sel q = true) : select sel pick (q :: qs) = pick q :: select sel pick qs := by
  simp [select, h]

theorem select_cons_of_not_sel {sel : Quad V → Bool} (pick : Quad V → V) {q : Quad V}
    (qs : List (Quad V)) (h : sel q = false) : select sel pick (q :: qs) = select sel pick qs := by
  simp [select, h]

/-- A query finds nothing among quads that none of it matches. -/
theorem select_eq_nil {sel : Quad V → Bool} (pick : Quad V → V) {qs : List (Quad V)}
    (h : ∀ q ∈ qs, sel q = false) : select sel pick qs = [] := by
  simp only [select, List.filterMap_eq_nil_iff]
  intro q hq
  simp [h q hq]

variable [DecidableEq V]

/-- The quads from `v` labelled `p`. -/
def fromWith (v p : V) (q : Quad V) : Bool := q.subject = v && q.predicate = p

/-- The quads from `v`. -/
def fromAny (v : V) (q : Quad V) : Bool := q.subject = v

/-- The quads into `v` labelled `p`. -/
def intoWith (v p : V) (q : Quad V) : Bool := q.object = v && q.predicate = p

theorem select_fromWith_eq_nil {v p : V} (pick : Quad V → V) {qs : List (Quad V)}
    (h : ∀ q ∈ qs, q.predicate ≠ p) : select (fromWith v p) pick qs = [] :=
  select_eq_nil pick fun q hq => by simp [fromWith, h q hq]

theorem select_fromAny_eq_nil {v : V} (pick : Quad V → V) {qs : List (Quad V)}
    (h : ∀ q ∈ qs, q.subject ≠ v) : select (fromAny v) pick qs = [] :=
  select_eq_nil pick fun q hq => by simp [fromAny, h q hq]

/-- A set of quads, in the order they were added. -/
structure QuadStore (V : Type) where
  quads : List (Quad V)
  nodup : quads.Nodup

namespace QuadStore

/-- The store with no quads. -/
def empty : QuadStore V := ⟨[], List.nodup_nil⟩

/-- Adds a quad unless it is there. -/
def add (g : QuadStore V) (q : Quad V) : QuadStore V :=
  if h : q ∈ g.quads then g else ⟨g.quads ++ [q], List.nodup_append.2 ⟨g.nodup, List.nodup_singleton q,
    fun _ ha _ hb => by rw [List.mem_singleton] at hb; subst hb; exact fun e => h (e ▸ ha)⟩⟩

/-- Adds a batch of quads, each once. -/
def addQuads (g : QuadStore V) (qs : List (Quad V)) : QuadStore V := qs.foldl add g

/-- `StartPath(v).Out(p)`: the objects of the edges from `v` labelled `p`. -/
def out (g : QuadStore V) (v p : V) : List V := select (fromWith v p) Quad.object g.quads

/-- `StartPath(v).Out()`: the objects of all edges from `v`. -/
def outAll (g : QuadStore V) (v : V) : List V := select (fromAny v) Quad.object g.quads

/-- `StartPath(v).In(p)`: the subjects of the edges into `v` labelled `p`. -/
def inP (g : QuadStore V) (v p : V) : List V := select (intoWith v p) Quad.subject g.quads

/-- `FollowRecursive(p)`: the vertices reached from `frontier` along edges labelled `p`, each once,
within `depth` steps; `seen` are those reached already. -/
def followRecursive (g : QuadStore V) (p : V) : Nat → List V → List V → List V
  | 0, _, seen => seen
  | depth + 1, frontier, seen =>
    let next := ((frontier.flatMap fun v => g.out v p).filter (· ∉ seen)).dedup
    if next = [] then seen else followRecursive g p depth next (seen ++ next)

theorem quads_add_of_mem {g : QuadStore V} {q : Quad V} (h : q ∈ g.quads) : (g.add q).quads = g.quads := by
  simp [add, h]

theorem quads_add_of_not_mem {g : QuadStore V} {q : Quad V} (h : q ∉ g.quads) :
    (g.add q).quads = g.quads ++ [q] := by
  simp [add, h]

omit [DecidableEq V] in
/-- A quad that a query matches is not in a store where the query finds nothing. -/
theorem not_mem_of_select_eq_nil {sel : Quad V → Bool} {pick : Quad V → V} {g : QuadStore V}
    (h : select sel pick g.quads = []) {q : Quad V} (hq : sel q = true) : q ∉ g.quads := by
  intro hmem
  have : pick q ∈ select sel pick g.quads := List.mem_filterMap.2 ⟨q, hmem, by simp [hq]⟩
  rw [h] at this
  exact List.not_mem_nil this

/-- **Adding a batch.** A query over the store with a batch added lists what it listed before
and then what it finds in the batch, when the quads it matches in the batch are new and reach
distinct vertices. -/
theorem select_addQuads {sel : Quad V → Bool} {pick : Quad V → V} :
    ∀ {g : QuadStore V} {qs : List (Quad V)}, (∀ q ∈ qs, sel q = true → q ∉ g.quads) →
      (select sel pick qs).Nodup →
      select sel pick (g.addQuads qs).quads = select sel pick g.quads ++ select sel pick qs
  | g, [], _, _ => by simp [addQuads]
  | g, q :: qs, hnew, hnd => by
    have hnew' : ∀ q' ∈ qs, sel q' = true → q' ∉ (g.add q).quads := by
      intro q' hq' hsel hmem
      by_cases hq : q ∈ g.quads
      · rw [quads_add_of_mem hq] at hmem
        exact hnew q' (List.mem_cons_of_mem _ hq') hsel hmem
      · rw [quads_add_of_not_mem hq, List.mem_append, List.mem_singleton] at hmem
        rcases hmem with hmem | rfl
        · exact hnew q' (List.mem_cons_of_mem _ hq') hsel hmem
        · rw [select_cons_of_sel pick _ hsel, List.nodup_cons] at hnd
          exact hnd.1 (List.mem_filterMap.2 ⟨q', hq', by simp [hsel]⟩)
    -- the quad either matches, and then it is new, or it changes nothing the query sees
    cases hsel : sel q with
    | true =>
      rw [select_cons_of_sel pick _ hsel] at hnd ⊢
      have hq : q ∉ g.quads := hnew q List.mem_cons_self hsel
      have ih := select_addQuads hnew' hnd.of_cons
      rw [addQuads, List.foldl_cons, ← addQuads, ih, quads_add_of_not_mem hq, select_append,
        select_cons_of_sel pick _ hsel, select_nil, List.append_assoc, List.singleton_append]
    | false =>
      rw [select_cons_of_not_sel pick _ hsel] at hnd ⊢
      have ih := select_addQuads hnew' hnd
      rw [addQuads, List.foldl_cons, ← addQuads, ih]
      by_cases hq : q ∈ g.quads
      · rw [quads_add_of_mem hq]
      · rw [quads_add_of_not_mem hq, select_append, select_cons_of_not_sel pick _ hsel, select_nil,
          List.append_nil]

end QuadStore

end Orion.Lib
