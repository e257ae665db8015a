import Mathlib

/-!
# Batching transactions (`internal/txreorderer/txreorderer.go`)

`TxReorderer.Start` takes transactions from `txQueue` and puts batches on
`txBatchQueue`. Data transactions collect in `pendingDataTxs`, which is enqueued as one
batch when it reaches `maxTxCountPerBatch` envelopes, at every tick of the batch timer,
and before every other transaction. A user-administration, database-administration or
configuration transaction is enqueued alone. `enqueueAndResetPendingDataTxBatch` enqueues
nothing when no data transaction is pending.

The loop of `Start` is a run over the events it reacts to: the stop channel, a tick, and
what `DequeueWithWaitLimit` returns, `nil` when its wait limit passes. A tick can come
between any two dequeues, so a run is any list of events. `ticker.Reset` only moves the
next tick, and the logger writes nothing the loop reads; neither is modelled.
`txBatchQueue` is the list of everything enqueued on it, in order.

## What is proved

* `Start_batches` — from any list of events, with `maxTxCountPerBatch ≥ 1`: the batches
  enqueued, followed by the pending data transactions, are the dequeued transactions in
  order; every data batch has between `1` and `maxTxCountPerBatch` envelopes; fewer than
  `maxTxCountPerBatch` are pending.
-/

namespace Orion.Reorderer

/-- A transaction on `txQueue`: Go's four envelope types. -/
inductive TxEnvelope (E : Type) where
  | data (env : E)
  | userAdministration (env : E)
  | dbAdministration (env : E)
  | config (env : E)
  deriving DecidableEq, Repr

/-- A batch on `txBatchQueue`: Go's `Block_DataTxEnvelopes`, and the payloads of blocks
of one administration or configuration transaction. -/
inductive Batch (E : Type) where
  | dataTxEnvelopes (envs : List E)
  | userAdministrationTxEnvelope (env : E)
  | dbAdministrationTxEnvelope (env : E)
  | configTxEnvelope (env : E)
  deriving DecidableEq, Repr

variable {E : Type}

/-- The transactions of a batch, in order. -/
def Batch.txs : Batch E → List (TxEnvelope E)
  | .dataTxEnvelopes envs => envs.map .data
  | .userAdministrationTxEnvelope env => [.userAdministration env]
  | .dbAdministrationTxEnvelope env => [.dbAdministration env]
  | .configTxEnvelope env => [.config env]

/-- The state `Start` changes: what it enqueued, and the pending data transactions. -/
structure TxReorderer (E : Type) where
  txBatchQueue : List (Batch E)
  pendingDataTxs : List E

/-- What one turn of the loop of `Start` reacts to. -/
inductive Event (E : Type) where
  | stop
  | tick
  | dequeued (tx : Option (TxEnvelope E))

/-- `enqueueAndResetPendingDataTxBatch`: the pending data transactions, if any, as one batch. -/
def enqueueAndResetPendingDataTxBatch (r : TxReorderer E) : TxReorderer E :=
  if r.pendingDataTxs.length = 0 then r
  else ⟨r.txBatchQueue ++ [.dataTxEnvelopes r.pendingDataTxs], []⟩

/-- The three non-data cases of the type switch: the pending batch, then the transaction alone. -/
def enqueueAlone (r : TxReorderer E) (b : Batch E) : TxReorderer E :=
  let r := enqueueAndResetPendingDataTxBatch r
  { r with txBatchQueue := r.txBatchQueue ++ [b] }

variable (maxTxCountPerBatch : UInt32)

/-- The type switch of `Start` on a dequeued transaction. -/
def processTx (r : TxReorderer E) : TxEnvelope E → TxReorderer E
  | .data env =>
    let r := { r with pendingDataTxs := r.pendingDataTxs ++ [env] }
    if r.pendingDataTxs.length.toUInt32 = maxTxCountPerBatch then enqueueAndResetPendingDataTxBatch r
    else r
  | .userAdministration env => enqueueAlone r (.userAdministrationTxEnvelope env)
  | .dbAdministration env => enqueueAlone r (.dbAdministrationTxEnvelope env)
  | .config env => enqueueAlone r (.configTxEnvelope env)

/-- The `for`-`select` loop of `Start`, over the events of a run. -/
def loop (r : TxReorderer E) : List (Event E) → TxReorderer E
  | [] => r
  | .stop :: _ => r
  | .tick :: events => loop (enqueueAndResetPendingDataTxBatch r) events
  | .dequeued none :: events => loop r events
  | .dequeued (some tx) :: events => loop (processTx maxTxCountPerBatch r tx) events

/-- `Start`: the loop from an empty pending batch. -/
def Start (events : List (Event E)) : TxReorderer E :=
  loop maxTxCountPerBatch ⟨[], []⟩ events

/-- The transactions the loop dequeues, up to the stop. -/
def dequeuedTxs : List (Event E) → List (TxEnvelope E)
  | [] => []
  | .stop :: _ => []
  | .tick :: events => dequeuedTxs events
  | .dequeued none :: events => dequeuedTxs events
  | .dequeued (some tx) :: events => tx :: dequeuedTxs events

/-- What the loop keeps of `txBatchQueue` for the transactions `txs` dequeued so far: the
batches and then the pending data transactions are `txs`, and every data batch has between
`1` and `maxTxCountPerBatch` envelopes. -/
structure Batched (r : TxReorderer E) (txs : List (TxEnvelope E)) : Prop where
  order : r.txBatchQueue.flatMap Batch.txs ++ r.pendingDataTxs.map .data = txs
  batch_size : ∀ envs, .dataTxEnvelopes envs ∈ r.txBatchQueue →
    0 < envs.length ∧ envs.length ≤ maxTxCountPerBatch.toNat

/-- The invariant of the loop: also, fewer than `maxTxCountPerBatch` are pending. -/
structure Inv (r : TxReorderer E) (txs : List (TxEnvelope E)) : Prop
    extends Batched maxTxCountPerBatch r txs where
  pending_lt : r.pendingDataTxs.length < maxTxCountPerBatch.toNat

theorem inv_empty (h : 1 ≤ maxTxCountPerBatch.toNat) :
    Inv maxTxCountPerBatch (E := E) ⟨[], []⟩ [] :=
  ⟨⟨rfl, fun _ h => absurd h List.not_mem_nil⟩, h⟩

/-- Nothing is pending after `enqueueAndResetPendingDataTxBatch`. -/
@[simp] theorem pendingDataTxs_enqueueAndResetPendingDataTxBatch (r : TxReorderer E) :
    (enqueueAndResetPendingDataTxBatch r).pendingDataTxs = [] := by
  unfold enqueueAndResetPendingDataTxBatch
  split
  case isTrue h0 => exact List.eq_nil_of_length_eq_zero h0
  case isFalse => rfl

variable {maxTxCountPerBatch}

/-- The pending data transactions, at most `maxTxCountPerBatch` of them, become one batch. -/
theorem Batched.enqueueAndResetPendingDataTxBatch {r : TxReorderer E} {txs : List (TxEnvelope E)}
    (h : Batched maxTxCountPerBatch r txs) (hle : r.pendingDataTxs.length ≤ maxTxCountPerBatch.toNat) :
    Batched maxTxCountPerBatch (Orion.Reorderer.enqueueAndResetPendingDataTxBatch r) txs := by
  unfold Orion.Reorderer.enqueueAndResetPendingDataTxBatch
  split
  case isTrue => exact h
  case isFalse h0 =>
    refine ⟨?_, ?_⟩
    · simpa [List.flatMap_append, Batch.txs] using h.order
    · intro envs henvs
      rcases List.mem_append.1 henvs with hmem | hmem
      · exact h.batch_size envs hmem
      · obtain rfl : envs = r.pendingDataTxs := by simpa using hmem
        exact ⟨by omega, hle⟩

theorem Inv.enqueueAndResetPendingDataTxBatch {r : TxReorderer E} {txs : List (TxEnvelope E)}
    (h : Inv maxTxCountPerBatch r txs) :
    Inv maxTxCountPerBatch (Orion.Reorderer.enqueueAndResetPendingDataTxBatch r) txs :=
  ⟨h.toBatched.enqueueAndResetPendingDataTxBatch (Nat.le_of_lt h.pending_lt), by
    rw [pendingDataTxs_enqueueAndResetPendingDataTxBatch]
    exact Nat.zero_lt_of_lt h.pending_lt⟩

/-- A transaction enqueued alone comes after the pending batch. -/
theorem Inv.enqueueAlone {r : TxReorderer E} {txs : List (TxEnvelope E)}
    (h : Inv maxTxCountPerBatch r txs) {b : Batch E} {tx : TxEnvelope E} (hb : b.txs = [tx])
    (hdata : ∀ envs, b ≠ .dataTxEnvelopes envs) :
    Inv maxTxCountPerBatch (Orion.Reorderer.enqueueAlone r b) (txs ++ [tx]) := by
  have h' := h.enqueueAndResetPendingDataTxBatch
  refine ⟨⟨?_, ?_⟩, ?_⟩
  · have horder := h'.order
    rw [pendingDataTxs_enqueueAndResetPendingDataTxBatch, List.map_nil, List.append_nil] at horder
    simp only [Orion.Reorderer.enqueueAlone, pendingDataTxs_enqueueAndResetPendingDataTxBatch,
      List.flatMap_append, List.flatMap_singleton, hb, horder, List.map_nil, List.append_nil]
  · intro envs henvs
    rcases List.mem_append.1 henvs with hmem | hmem
    · exact h'.batch_size envs hmem
    · exact absurd (List.mem_singleton.1 hmem).symm (hdata envs)
  · simpa [Orion.Reorderer.enqueueAlone] using Nat.zero_lt_of_lt h.pending_lt

/-- Go's `uint32(n) == m` for a count below `2^32`. -/
theorem toUInt32_eq_iff {n : Nat} {m : UInt32} (h : n < 2 ^ 32) : n.toUInt32 = m ↔ n = m.toNat := by
  rw [← UInt32.toNat_inj, Nat.toUInt32_eq, UInt32.toNat_ofNat', Nat.mod_eq_of_lt h]

/-- **Step lemma**: one dequeued transaction goes to the end of what was dequeued. -/
theorem Inv.processTx {r : TxReorderer E} {txs : List (TxEnvelope E)}
    (h : Inv maxTxCountPerBatch r txs) (tx : TxEnvelope E) :
    Inv maxTxCountPerBatch (processTx maxTxCountPerBatch r tx) (txs ++ [tx]) := by
  cases tx with
  | data env =>
    have hlt := h.pending_lt
    have hbound : r.pendingDataTxs.length + 1 < 2 ^ 32 := by
      have := maxTxCountPerBatch.toNat_lt
      omega
    have hbatched : Batched maxTxCountPerBatch ⟨r.txBatchQueue, r.pendingDataTxs ++ [env]⟩
        (txs ++ [.data env]) :=
      ⟨by rw [← h.order, List.map_append, List.append_assoc]; rfl, h.batch_size⟩
    simp only [Orion.Reorderer.processTx, List.length_append, List.length_singleton]
    split
    case isTrue heq =>
      rw [toUInt32_eq_iff hbound] at heq
      have hle : (r.pendingDataTxs ++ [env]).length ≤ maxTxCountPerBatch.toNat := by
        rw [List.length_append, List.length_singleton]
        omega
      refine ⟨hbatched.enqueueAndResetPendingDataTxBatch hle, ?_⟩
      rw [pendingDataTxs_enqueueAndResetPendingDataTxBatch]
      exact Nat.zero_lt_of_lt hlt
    case isFalse hne =>
      rw [toUInt32_eq_iff hbound] at hne
      exact ⟨hbatched, by simp only [List.length_append, List.length_singleton]; omega⟩
  | userAdministration env => exact h.enqueueAlone rfl fun _ => by simp
  | dbAdministration env => exact h.enqueueAlone rfl fun _ => by simp
  | config env => exact h.enqueueAlone rfl fun _ => by simp

/-- **Run lemma**: the loop keeps the invariant over any events, by induction on them. -/
theorem Inv.loop {r : TxReorderer E} {txs : List (TxEnvelope E)}
    (h : Inv maxTxCountPerBatch r txs) :
    ∀ events, Inv maxTxCountPerBatch (loop maxTxCountPerBatch r events) (txs ++ dequeuedTxs events)
  | [] => by simpa [Orion.Reorderer.loop, dequeuedTxs] using h
  | .stop :: _ => by simpa [Orion.Reorderer.loop, dequeuedTxs] using h
  | .tick :: events => by
    rw [Orion.Reorderer.loop, dequeuedTxs]
    exact h.enqueueAndResetPendingDataTxBatch.loop events
  | .dequeued none :: events => by
    rw [Orion.Reorderer.loop, dequeuedTxs]
    exact h.loop events
  | .dequeued (some tx) :: events => by
    rw [Orion.Reorderer.loop, dequeuedTxs, ← List.singleton_append, ← List.append_assoc]
    exact (h.processTx tx).loop events

theorem Start_batches (hmax : 1 ≤ maxTxCountPerBatch) (events : List (Event E)) :
    Inv maxTxCountPerBatch (Start maxTxCountPerBatch events) (dequeuedTxs events) :=
  (inv_empty maxTxCountPerBatch (UInt32.le_iff_toNat_le.1 hmax)).loop events

/-- Two data transactions filling a batch of two, a tick with nothing pending, and a
configuration transaction. -/
theorem Start_batches_of_full_batch_and_config :
    (1 : UInt32) ≤ 2 ∧
      Inv 2 (Start 2 [.dequeued (some (.data 0)), .dequeued (some (.data 1)), .tick,
        .dequeued none, .dequeued (some (.config 2))])
        (dequeuedTxs [.dequeued (some (.data 0)), .dequeued (some (.data 1)), .tick,
          .dequeued none, .dequeued (some (.config (2 : Nat)))]) :=
  ⟨by decide, Start_batches (by decide) _⟩

example : (Start 2 [.dequeued (some (.data 0)), .tick, .dequeued (some (.data 1)),
    .dequeued (some (.config 2)), .dequeued (some (.data (3 : Nat)))]).txBatchQueue =
    [.dataTxEnvelopes [0], .dataTxEnvelopes [1], .configTxEnvelope 2] := by
  decide

end Orion.Reorderer
