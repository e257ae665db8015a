import Orion.BlockProcessor.Invariants

/-!
# Committing a data block runs its valid transactions in order

The validator marks the transactions of a data block valid one after another, each against the
committed state and the keys the valid ones before it modify. The committer then merges the
writes and deletes of the valid transactions database by database (`AddDBEntriesForDataTx`): a
database's batch holds the writes of every valid transaction, then the deletes of every valid
transaction, and the world state applies the batches in the order of Go's map.

The model of what a block means is `blockUpdates`: the point updates of the valid transactions,
transaction by transaction in block order. The batches hold, database by database, the same
point updates in another order (`BatchesOf`); since the valid transactions modify each key once,
the order does not matter.

## What is proved

* `batchesOf_dataTxEntries` — the committer's batches are the block's point updates, database by
  database.
* `data_block_commits_valid_txs_in_order` — after a data block, every database but an index
  database holds what applying the valid transactions one after another to the committed state
  gives.

## Honest scope

An index database `_index_D` is left out. Nothing stops a database of that name from being
created and written by data transactions; the committer then sets the batch of `_index_D` to the
index updates of `D`, and the writes of the transactions to `_index_D` in the block are lost.
-/

namespace Orion.Types

open Orion.State Orion.WorldState

/-- The point updates of one database operation committed at `version`: its writes, then its
deletes. -/
def DBOperation.updates (ops : DBOperation) (version : Version) :
    List ((String × String) × Option ValueWithMetadata) :=
  ops.dataWrites.map (fun w => ((ops.dbName, w.key), some ⟨w.value, some ⟨some version, w.acl⟩⟩)) ++
    ops.dataDeletes.map fun d => ((ops.dbName, d.key), none)

theorem DataTx.updates_eq (tx : DataTx) (version : Version) :
    tx.updates version = tx.dbOperations.flatMap (·.updates version) := rfl

end Orion.Types

namespace Orion.BlockProcessor

open Orion.State Orion.Types Orion.WorldState Orion.StateIndex Orion.TxValidation Orion.Identity
  Orion.Lib

/-! ### The batches of a block -/

/-- The batches `m` hold the point updates `L`: each database is named once, and its batch is
the updates of `L` to its keys, in some order. -/
structure BatchesOf (m : DBsUpdates) (L : List ((String × String) × Option ValueWithMetadata)) :
    Prop where
  namesUnique : (m.map Prod.fst).Nodup
  perm : ∀ dbName, ((m.filter (·.1 = dbName)).flatMap fun e => e.2.pointUpdates).Perm
    (rowUpdates dbName L)

theorem BatchesOf.nil : BatchesOf [] [] :=
  ⟨List.nodup_nil, fun _ => List.Perm.refl _⟩

/-- The batch of a database named once, empty when there is none. -/
theorem flatMap_filter_eq_lookup {m : DBsUpdates} (h : (m.map Prod.fst).Nodup) (dbName : String) :
    ((m.filter (·.1 = dbName)).flatMap fun e => e.2.pointUpdates) =
      ((m.lookup dbName).getD ⟨[], []⟩).pointUpdates := by
  rw [DBsUpdates.filter_eq_lookup h]
  cases m.lookup dbName with
  | none => rfl
  | some updates => simp

/-- One operation's point updates, in its database's row, are those of the writes and deletes
the committer appends. -/
theorem rowUpdates_updates (ops : DBOperation) (version : Version) :
    rowUpdates ops.dbName (ops.updates version) =
      (⟨ops.dataWrites.map fun w => ⟨w.key, w.value, some ⟨some version, w.acl⟩⟩,
        ops.dataDeletes.map (·.key)⟩ : DBUpdates).pointUpdates := by
  rw [rowUpdates_of_row]
  · simp [DBOperation.updates, DBUpdates.pointUpdates, Function.comp_def]
  · intro u hu
    simp only [DBOperation.updates, List.mem_append, List.mem_map] at hu
    rcases hu with ⟨w, -, rfl⟩ | ⟨d, -, rfl⟩ <;> rfl

/-- **Step lemma.** Appending one operation's writes and deletes to the batch of its database adds
its point updates. -/
theorem BatchesOf.set_append {m : DBsUpdates} {L : List ((String × String) × Option ValueWithMetadata)}
    (h : BatchesOf m L) (ops : DBOperation) (version : Version) :
    BatchesOf (m.set ops.dbName
      { writes := ((m.lookup ops.dbName).getD ⟨[], []⟩).writes ++
          ops.dataWrites.map fun w => ⟨w.key, w.value, some ⟨some version, w.acl⟩⟩
        deletes := ((m.lookup ops.dbName).getD ⟨[], []⟩).deletes ++ ops.dataDeletes.map (·.key) })
      (L ++ ops.updates version) := by
  refine ⟨DBsUpdates.nodup_set h.namesUnique _ _, fun dbName => ?_⟩
  rw [rowUpdates_append]
  by_cases hname : ops.dbName = dbName
  · subst hname
    rw [DBsUpdates.filter_set_self h.namesUnique, List.flatMap_singleton, rowUpdates_updates]
    -- the batch gets the operation's updates, its writes moved before the batch's deletes
    refine (DBUpdates.pointUpdates_append _ _ _).trans ?_
    rw [← flatMap_filter_eq_lookup h.namesUnique]
    exact (h.perm ops.dbName).append_right _
  · -- another database's batch, and none of the operation's updates are in its row
    have hrow : rowUpdates dbName (ops.updates version) = [] := by
      refine rowUpdates_of_ne fun u hu => ?_
      simp only [DBOperation.updates, List.mem_append, List.mem_map] at hu
      rcases hu with ⟨w, -, rfl⟩ | ⟨d, -, rfl⟩ <;> exact hname
    rw [DBsUpdates.filter_set_of_ne hname, hrow, List.append_nil]
    exact h.perm dbName

/-- The entries of a transaction add its point updates. -/
theorem BatchesOf.addDBEntriesForDataTx {m : DBsUpdates}
    {L : List ((String × String) × Option ValueWithMetadata)} (h : BatchesOf m L) (tx : DataTx)
    (version : Version) : BatchesOf (AddDBEntriesForDataTx tx version m) (L ++ tx.updates version) := by
  unfold AddDBEntriesForDataTx
  rw [DataTx.updates_eq]
  generalize tx.dbOperations = opsList
  -- the loop over the operations, each a step
  induction opsList generalizing m L with
  | nil => simpa using h
  | cons ops rest ih =>
    rw [List.foldl_cons, List.flatMap_cons, ← List.append_assoc]
    exact ih (h.set_append ops version)

/-- **The committer's batches of a data block are its point updates**, database by database. -/
theorem batchesOf_dataTxEntries (blockNum : UInt64) (envs : List DataTxEnvelope)
    (validationInfo : List ValidationInfo) :
    BatchesOf (dataTxEntries blockNum envs validationInfo)
      (blockUpdates blockNum (validTxs 0 envs validationInfo)) := by
  unfold dataTxEntries blockUpdates
  generalize validTxs 0 envs validationInfo = txs
  suffices hloop : ∀ m L, BatchesOf m L → BatchesOf
      (txs.foldl (fun m x => AddDBEntriesForDataTx x.2 ⟨blockNum, x.1.toUInt64⟩ m) m)
      (L ++ txs.flatMap fun x => x.2.updates ⟨blockNum, x.1.toUInt64⟩) by
    simpa using hloop [] [] BatchesOf.nil
  -- the loop over the valid transactions, each adding its entries
  induction txs with
  | nil => exact fun m L h => by simpa using h
  | cons x rest ih =>
    intro m L h
    rw [List.foldl_cons, List.flatMap_cons, ← List.append_assoc]
    exact ih _ _ (h.addDBEntriesForDataTx x.2 _)

/-- The updates of a block are to the databases of its transactions' operations. -/
theorem mem_blockUpdates {blockNum : UInt64} {txs : List (Nat × DataTx)}
    {u : (String × String) × Option ValueWithMetadata} (hu : u ∈ blockUpdates blockNum txs) :
    ∃ x ∈ txs, ∃ ops ∈ x.2.dbOperations, u.1.1 = ops.dbName := by
  simp only [blockUpdates, DataTx.updates_eq, List.mem_flatMap] at hu
  obtain ⟨x, hx, ops, hops, hu⟩ := hu
  simp only [DBOperation.updates, List.mem_append, List.mem_map] at hu
  rcases hu with ⟨w, -, rfl⟩ | ⟨d, -, rfl⟩
  · exact ⟨x, hx, ops, hops, rfl⟩
  · exact ⟨x, hx, ops, hops, rfl⟩

/-! ### The block -/

section Data

variable {p : Processor} {db db' : LevelDB} {envs : List DataTxEnvelope}

/-- **Committing a data block runs its valid transactions in order.** After a data block, every
database that is not an index database exists exactly when it did, and holds what the writes and
deletes of the block's valid transactions, applied to the committed state one transaction after
another in block order, each with its version, give. -/
theorem data_block_commits_valid_txs_in_order
    (h : p.validateAndCommit db (.dataTxEnvelopes envs) = .ok db') :
    ∃ validationInfo,
      validateDataBlock (dataTxQuerier p.codecs.user db) (p.dataSigVerifier db) db envs =
        .ok validationInfo ∧
      ∀ dbName, (∀ name, IndexDB name ≠ dbName) →
        (db'.dbs dbName).isSome = (db.dbs dbName).isSome ∧
        ∀ key, db'.entry dbName key = applyUpdates (fun k => db.entry k.1 k.2)
          (blockUpdates (db.Height + 1) (validTxs 0 envs validationInfo)) (dbName, key) := by
  obtain ⟨validationInfo, hvalidate, hcommit⟩ := Processor.validateAndCommit_data h
  refine ⟨validationInfo, hvalidate, fun dbName hindex => ?_⟩
  -- the batches name no system database, so they reach the databases they name
  have hne : ∀ e ∈ dataTxEntries (db.Height + 1) envs validationInfo, e.1 ≠ DatabasesDBName := by
    intro e he hdbs
    have hsystem := dataTxEntries_not_system (db.Height + 1) hvalidate e he
    rw [hdbs] at hsystem
    cases hsystem
  have hdbs := commitToStateDB_dbs_of_not_index hcommit hindex hne
  have hbatches := batchesOf_dataTxEntries (db.Height + 1) envs validationInfo
  -- the valid transactions modify each key once
  have hnodup : ((blockUpdates (db.Height + 1) (validTxs 0 envs validationInfo)).map Prod.fst).Nodup := by
    have hlen : envs.length ≤ (parallelSigValidation (p.dataSigVerifier db) envs).length := by
      simp [parallelSigValidation]
    have hnone : Covers PendingOperations.new [] := fun _ hk => absurd hk List.not_mem_nil
    have hchain := validateDataTxs_chain hvalidate hnone 0
    rw [List.map_fst_zip hlen] at hchain
    rw [map_fst_blockUpdates]
    simpa using hchain.nodup List.nodup_nil
  have hrowNodup := nodup_rowUpdates dbName hnodup
  refine ⟨by rw [hdbs, LevelDB.isSome_applyBatches], fun key => ?_⟩
  rw [LevelDB.entry, hdbs, applyBatches_eq_applyUpdates, applyUpdates_row]
  cases hs : db.dbs dbName with
  | none =>
    -- no valid transaction operates on a database that does not exist
    have hrow : rowUpdates dbName (blockUpdates (db.Height + 1) (validTxs 0 envs validationInfo)) = [] := by
      refine rowUpdates_of_ne fun u hu hname => ?_
      obtain ⟨x, hx, ops, hops, hrowName⟩ := mem_blockUpdates hu
      have hexist := (validTxs_dbNames hvalidate x hx ops hops).2.1
      rw [← hrowName, hname, LevelDB.Exist, hs] at hexist
      cases hexist
    rw [hrow]
    simp [LevelDB.entry, hs]
  | some s =>
    -- the batch is the row's updates in another order, at distinct keys
    have hperm := hbatches.perm dbName
    have hkeys := (hperm.map Prod.fst).nodup_iff.2 hrowNodup
    rw [Option.map_some, Option.bind_some, applyUpdates_perm hperm hkeys]
    exact applyUpdates_congr_at (by simp [LevelDB.entry, hs]) _

/-- Three data transactions of the cluster admin: a write of `k1` in the default database `bdb`,
a write in `db1`, which a node has not created, and a write of `k2` in `bdb`. -/
def exampleDataTxs : List DataTxEnvelope :=
  [⟨⟨["admin"], "tx1", [⟨"bdb", [], [⟨"k1", [1], none⟩], []⟩]⟩, [("admin", [])]⟩,
   ⟨⟨["admin"], "tx2", [⟨"db1", [], [⟨"k1", [2], none⟩], []⟩]⟩, [("admin", [])]⟩,
   ⟨⟨["admin"], "tx3", [⟨"bdb", [], [⟨"k2", [3], none⟩], []⟩]⟩, [("admin", [])]⟩]

/-- The block of `exampleDataTxs` after the genesis block: its first and third transactions are
valid and the second is not, and the block commits the first and the third in order. -/
theorem data_block_commits_valid_txs_in_order_of_mixed_block :
    ∃ db db', acceptingProcessor.validateAndCommit LevelDB.Open (.configTxEnvelope oneNodeGenesis) = .ok db ∧
      (validateDataBlock (dataTxQuerier acceptingProcessor.codecs.user db)
          (acceptingProcessor.dataSigVerifier db) db exampleDataTxs).map (List.map ValidationInfo.flag) =
        .ok [.VALID, .INVALID_DATABASE_DOES_NOT_EXIST, .VALID] ∧
      acceptingProcessor.validateAndCommit db (.dataTxEnvelopes exampleDataTxs) = .ok db' ∧
      ∃ validationInfo,
        validateDataBlock (dataTxQuerier acceptingProcessor.codecs.user db)
          (acceptingProcessor.dataSigVerifier db) db exampleDataTxs = .ok validationInfo ∧
        ∀ dbName, (∀ name, IndexDB name ≠ dbName) →
          (db'.dbs dbName).isSome = (db.dbs dbName).isSome ∧
          ∀ key, db'.entry dbName key = applyUpdates (fun k => db.entry k.1 k.2)
            (blockUpdates (db.Height + 1) (validTxs 0 exampleDataTxs validationInfo)) (dbName, key) := by
  have hrun : (do
      let db ← acceptingProcessor.validateAndCommit LevelDB.Open (.configTxEnvelope oneNodeGenesis)
      let flags ← (validateDataBlock (dataTxQuerier acceptingProcessor.codecs.user db)
        (acceptingProcessor.dataSigVerifier db) db exampleDataTxs).map (List.map ValidationInfo.flag)
      let db' ← acceptingProcessor.validateAndCommit db (.dataTxEnvelopes exampleDataTxs)
      pure flags) = .ok [.VALID, .INVALID_DATABASE_DOES_NOT_EXIST, .VALID] := by
    decide +kernel
  obtain ⟨db, hdb, hrun⟩ := Except.bind_eq_ok.1 hrun
  obtain ⟨flags, hflags, hrun⟩ := Except.bind_eq_ok.1 hrun
  obtain ⟨db', hdb', hrun⟩ := Except.bind_eq_ok.1 hrun
  cases hrun
  exact ⟨db, db', hdb, hflags, hdb', data_block_commits_valid_txs_in_order hdb'⟩

end Data

end Orion.BlockProcessor
