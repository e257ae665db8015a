import Orion.TxValidation.DataTxValidator
import Orion.Lib.PointUpdate

/-!
# Validation of a block of data transactions (`internal/txvalidation/validator.go`)

`ValidateBlock` checks the signatures of every transaction of a block
(`parallelSigValidation`), then validates the transactions in block order. The writes
and deletes of each valid transaction are recorded in `pendingOperations`, against which
the reads, writes and deletes of the later transactions are checked.

What is proved: for every committed state and whatever the identity querier and the
signature verifier answer, the valid transactions of a block, in block order
(`validTxs`, the list the committer takes), are isolated from one another
(`BlockIsolation`): no (database, key) is written or deleted twice, every read is of a
key no earlier valid transaction modifies and at its committed version, every delete is
of a stored key, and so the point updates the committer makes for them give one state in
every order. The step lemma is `validate_isolated` (one valid transaction against the
pending keys), the run lemma `validateDataTxs_chain`.

Modelled is the `Block_DataTxEnvelopes` case of `ValidateBlock`; the other cases call the
validators of user, database and configuration transactions, which are not modelled here.
A block of data transactions is never block 1, which is the genesis configuration block.
Marshalling a payload for its signature check does not fail.
-/

namespace Orion.Types

open Orion.State Orion.WorldState

/-! ### What a transaction writes -/

/-- The (database, key) pairs one database's operations write or delete. -/
def DBOperation.modifiedKeys (ops : DBOperation) : List (String × String) :=
  ops.dataWrites.map (fun w => (ops.dbName, w.key)) ++ ops.dataDeletes.map fun d => (ops.dbName, d.key)

/-- The (database, key) pairs a transaction writes or deletes. -/
def DataTx.modifiedKeys (tx : DataTx) : List (String × String) :=
  tx.dbOperations.flatMap DBOperation.modifiedKeys

/-- The point updates of the world state that `AddDBEntriesForDataTx` makes for a transaction
committed at `version`: a key written gets the new value, with the version and the access
control as its metadata; a key deleted is removed. -/
def DataTx.updates (tx : DataTx) (version : Version) :
    List ((String × String) × Option ValueWithMetadata) :=
  tx.dbOperations.flatMap fun ops =>
    ops.dataWrites.map (fun w => ((ops.dbName, w.key), some ⟨w.value, some ⟨some version, w.acl⟩⟩)) ++
      ops.dataDeletes.map fun d => ((ops.dbName, d.key), none)

@[simp] theorem DataTx.map_fst_updates (tx : DataTx) (version : Version) :
    (tx.updates version).map Prod.fst = tx.modifiedKeys := by
  unfold DataTx.updates DataTx.modifiedKeys
  rw [List.map_flatMap]
  congr 1
  funext ops
  simp [DBOperation.modifiedKeys, Function.comp_def]

theorem DBOperation.fst_of_mem_modifiedKeys {ops : DBOperation} {k : String × String}
    (h : k ∈ ops.modifiedKeys) : k.1 = ops.dbName := by
  simp only [DBOperation.modifiedKeys, List.mem_append, List.mem_map] at h
  rcases h with ⟨w, -, rfl⟩ | ⟨d, -, rfl⟩ <;> rfl

/-- A key of one database's operations is a key written or deleted there. -/
theorem DBOperation.mem_modifiedKeys {ops : DBOperation} {k : String × String}
    (h : k ∈ ops.modifiedKeys) :
    (∃ w ∈ ops.dataWrites, k = (ops.dbName, w.key)) ∨ ∃ d ∈ ops.dataDeletes, k = (ops.dbName, d.key) := by
  simp only [DBOperation.modifiedKeys, List.mem_append, List.mem_map] at h
  rcases h with ⟨w, hw, rfl⟩ | ⟨d, hd, rfl⟩
  · exact .inl ⟨w, hw, rfl⟩
  · exact .inr ⟨d, hd, rfl⟩

end Orion.Types

namespace Orion.TxValidation

open Orion.State Orion.Types Orion.WorldState Orion.Lib

/-! ### The model -/

/-- `parallelSigValidation`: per transaction, the users whose signature verifies and the result
of the signature check. Each goroutine writes its own slot, so this is the check of each
transaction in turn. -/
def parallelSigValidation (sv : SignatureVerifier) (dataTxEnvs : List DataTxEnvelope) :
    List (List String × ValidationInfo) :=
  dataTxEnvs.map (validateSignatures sv)

/-- The loops after a `VALID` result: `addWrite` of each key written and `addDelete` of each key
deleted, database by database. -/
def addOps (pendingOps : PendingOperations) (tx : DataTx) : PendingOperations :=
  tx.dbOperations.foldl (fun p ops =>
    let p := ops.dataWrites.foldl (fun p w => p.addWrite ops.dbName w.key) p
    ops.dataDeletes.foldl (fun p d => p.addDelete ops.dbName d.key) p) pendingOps

/-- The loop of `ValidateBlock` over the transactions, each with the outcome of its signature
check. A transaction whose signature check failed keeps that result; the others are validated
against `pendingOps`, which each valid one extends. -/
def validateDataTxs (iq : IdentityQuerier) (db : LevelDB) (pendingOps : PendingOperations) :
    List (DataTxEnvelope × List String × ValidationInfo) → Except String (List ValidationInfo)
  | [] => .ok []
  | (txEnv, usersWithValidSig, sigRes) :: rest => do
    if sigRes.flag != .VALID then
      return sigRes :: (← validateDataTxs iq db pendingOps rest)
    let valRes ← (validate iq db txEnv usersWithValidSig pendingOps).mapError
      fun e => "error while validating data transaction: " ++ e
    if valRes.flag != .VALID then
      return valRes :: (← validateDataTxs iq db pendingOps rest)
    return valRes :: (← validateDataTxs iq db (addOps pendingOps txEnv.payload) rest)

/-- The `Block_DataTxEnvelopes` case of `ValidateBlock`: a result per transaction. -/
def validateDataBlock (iq : IdentityQuerier) (sv : SignatureVerifier) (db : LevelDB)
    (dataTxEnvs : List DataTxEnvelope) : Except String (List ValidationInfo) :=
  validateDataTxs iq db PendingOperations.new (dataTxEnvs.zip (parallelSigValidation sv dataTxEnvs))

/-- The transactions whose result is `VALID`, with their number in the block counted from
`txNum`: the loop of `constructDBAndProvenanceEntries` over the block's validation results. -/
def validTxs : Nat → List DataTxEnvelope → List ValidationInfo → List (Nat × DataTx)
  | txNum, txEnv :: dataTxEnvs, r :: results =>
    if r.flag = .VALID then (txNum, txEnv.payload) :: validTxs (txNum + 1) dataTxEnvs results
    else validTxs (txNum + 1) dataTxEnvs results
  | _, _, _ => []

/-- The point updates of the valid transactions of block `blockNum`, transaction by transaction
in block order; a transaction's version is its number in the block. -/
def blockUpdates (blockNum : UInt64) (txs : List (Nat × DataTx)) :
    List ((String × String) × Option ValueWithMetadata) :=
  txs.flatMap fun x => x.2.updates ⟨blockNum, x.1.toUInt64⟩

theorem map_fst_blockUpdates (blockNum : UInt64) (txs : List (Nat × DataTx)) :
    (blockUpdates blockNum txs).map Prod.fst = txs.flatMap fun x => x.2.modifiedKeys := by
  simp [blockUpdates, List.map_flatMap]

/-! ### What isolation means

The abstract statement: the valid transactions `txs` of a block, in block order, against the
committed state `db`. -/

/-- Intra-block isolation of the valid transactions `txs` of block `blockNum`. -/
structure BlockIsolation (db : LevelDB) (blockNum : UInt64) (txs : List (Nat × DataTx)) : Prop where
  /-- No (database, key) is written or deleted twice, within a transaction or across two. -/
  modifiedOnce : (txs.flatMap fun x => x.2.modifiedKeys).Nodup
  /-- A read is of a key that no valid transaction before modifies, at its committed version. -/
  readsCommitted : ∀ pre txNum tx post, txs = pre ++ (txNum, tx) :: post →
    ∀ ops ∈ tx.dbOperations, ∀ r ∈ ops.dataReads,
      (ops.dbName, r.key) ∉ pre.flatMap (fun x => x.2.modifiedKeys) ∧
        db.GetVersion ops.dbName r.key = .ok r.version
  /-- A delete is of a key stored in the committed state. -/
  deletesStored : ∀ x ∈ txs, ∀ ops ∈ x.2.dbOperations, ∀ d ∈ ops.dataDeletes,
    ∃ v, db.entry ops.dbName d.key = some v
  /-- The writes and deletes give the same state in every order as in block order. -/
  orderIrrelevant : ∀ us, us.Perm (blockUpdates blockNum txs) →
    applyUpdates (fun k => db.entry k.1 k.2) us =
      applyUpdates (fun k => db.entry k.1 k.2) (blockUpdates blockNum txs)

/-! ### Pending operations -/

/-- `pendingOps` records as written or deleted every pair of `keys`. -/
def Covers (pendingOps : PendingOperations) (keys : List (String × String)) : Prop :=
  ∀ k ∈ keys, pendingOps.exist k.1 k.2 = true

theorem covers_addWrite {p : PendingOperations} {keys : List (String × String)} (h : Covers p keys)
    (dbName key : String) : Covers (p.addWrite dbName key) (keys ++ [(dbName, key)]) := by
  intro k hk
  rcases List.mem_append.1 hk with hk | hk
  · have hp := h k hk
    by_cases hck : constructCompositeKey k.1 k.2 = constructCompositeKey dbName key
    · simp [PendingOperations.exist, PendingOperations.addWrite, hck]
    · simpa [PendingOperations.exist, PendingOperations.addWrite, hck] using hp
  · rw [List.mem_singleton] at hk
    subst hk
    simp [PendingOperations.exist, PendingOperations.addWrite]

theorem covers_addDelete {p : PendingOperations} {keys : List (String × String)} (h : Covers p keys)
    (dbName key : String) : Covers (p.addDelete dbName key) (keys ++ [(dbName, key)]) := by
  intro k hk
  rcases List.mem_append.1 hk with hk | hk
  · have hp := h k hk
    by_cases hck : constructCompositeKey k.1 k.2 = constructCompositeKey dbName key
    · simp [PendingOperations.exist, PendingOperations.addDelete, hck]
    · simpa [PendingOperations.exist, PendingOperations.addDelete, hck] using hp
  · rw [List.mem_singleton] at hk
    subst hk
    simp [PendingOperations.exist, PendingOperations.addDelete]

/-- The loops of `addOps` over one database's writes, or its deletes, record each key. -/
theorem covers_foldl {α : Type} (add : PendingOperations → String → String → PendingOperations)
    (hadd : ∀ p keys dbName key, Covers p keys → Covers (add p dbName key) (keys ++ [(dbName, key)]))
    (dbName : String) (key : α → String) (xs : List α) {p : PendingOperations}
    {keys : List (String × String)} (h : Covers p keys) :
    Covers (xs.foldl (fun p x => add p dbName (key x)) p) (keys ++ xs.map fun x => (dbName, key x)) := by
  induction xs generalizing p keys with
  | nil => simpa using h
  | cons x xs ih =>
    have hstep := hadd p keys dbName (key x) h
    simpa using ih hstep

theorem covers_addOps {p : PendingOperations} {keys : List (String × String)} (h : Covers p keys)
    (tx : DataTx) : Covers (addOps p tx) (keys ++ tx.modifiedKeys) := by
  unfold addOps DataTx.modifiedKeys
  induction tx.dbOperations generalizing p keys with
  | nil => simpa using h
  | cons ops rest ih =>
    have hw := covers_foldl PendingOperations.addWrite (fun _ _ _ _ h => covers_addWrite h _ _)
      ops.dbName DataWrite.key ops.dataWrites h
    have hd := covers_foldl PendingOperations.addDelete (fun _ _ _ _ h => covers_addDelete h _ _)
      ops.dbName DataDelete.key ops.dataDeletes hw
    simpa [DBOperation.modifiedKeys] using ih hd

/-! ### One valid transaction -/

theorem OpsValid.modifiedKeys_nodup {db : LevelDB} {p : PendingOperations} {ops : DBOperation}
    (h : OpsValid db p ops) : ops.modifiedKeys.Nodup := by
  have hpair : Function.Injective fun key : String => (ops.dbName, key) :=
    fun _ _ hk => (Prod.mk.inj hk).2
  have hw : (ops.dataWrites.map fun w => (ops.dbName, w.key)).Nodup := by
    simpa [List.map_map, Function.comp_def] using h.writesUnique.map hpair
  have hd : (ops.dataDeletes.map fun d => (ops.dbName, d.key)).Nodup := by
    simpa [List.map_map, Function.comp_def] using h.deletesUnique.map hpair
  refine List.nodup_append.2 ⟨hw, hd, ?_⟩
  intro a ha b hb hab
  obtain ⟨w, hw', rfl⟩ := List.mem_map.1 ha
  obtain ⟨d, hd', rfl⟩ := List.mem_map.1 hb
  exact h.writeDeleteDisjoint d hd' (List.mem_map.2 ⟨w, hw', (Prod.mk.inj hab).2⟩)

/-- A key of a valid transaction's operations on one database is not pending. -/
theorem OpsValid.not_exist_of_mem {db : LevelDB} {p : PendingOperations} {ops : DBOperation}
    (h : OpsValid db p ops) {k : String × String} (hk : k ∈ ops.modifiedKeys) :
    p.exist k.1 k.2 = false := by
  rcases DBOperation.mem_modifiedKeys hk with ⟨w, hw, rfl⟩ | ⟨d, hd, rfl⟩
  · exact h.writesFresh w hw
  · exact h.deletesFresh d hd

/-- What the validator establishes of one valid transaction, against the keys `prior` that the
valid transactions before it write or delete. -/
structure TxIsolated (db : LevelDB) (prior : List (String × String)) (tx : DataTx) : Prop where
  keysUnique : tx.modifiedKeys.Nodup
  keysFresh : ∀ k ∈ tx.modifiedKeys, k ∉ prior
  readsFresh : ∀ ops ∈ tx.dbOperations, ∀ r ∈ ops.dataReads,
    (ops.dbName, r.key) ∉ prior ∧ db.GetVersion ops.dbName r.key = .ok r.version
  deletesPresent : ∀ ops ∈ tx.dbOperations, ∀ d ∈ ops.dataDeletes,
    ∃ v, db.entry ops.dbName d.key = some v

/-- Distinct databases of a transaction modify disjoint keys. -/
theorem modifiedKeys_pairwise_disjoint {opsList : List DBOperation}
    (h : (opsList.map DBOperation.dbName).Nodup) :
    opsList.Pairwise (Function.onFun List.Disjoint DBOperation.modifiedKeys) := by
  refine (List.pairwise_map.1 h).imp fun {a b} hab => ?_
  intro k hka hkb
  exact hab ((DBOperation.fst_of_mem_modifiedKeys hka).symm.trans
    (DBOperation.fst_of_mem_modifiedKeys hkb))

/-- **Step lemma.** A transaction `validate` finds valid, while `pendingOps` records the keys
`prior`, is isolated from `prior`. -/
theorem validate_isolated {iq : IdentityQuerier} {db : LevelDB} {txEnv : DataTxEnvelope}
    {userIDs : List String} {pendingOps : PendingOperations} {prior : List (String × String)}
    (h : Passes (validate iq db txEnv userIDs pendingOps)) (hc : Covers pendingOps prior) :
    TxIsolated db prior txEnv.payload := by
  obtain ⟨hnames, hops⟩ := validate_valid h
  -- a pending pair is recorded, and a valid transaction's pairs are not
  have hfresh : ∀ ops ∈ txEnv.payload.dbOperations, ∀ k ∈ ops.modifiedKeys, k ∉ prior :=
    fun ops hops' k hk hprior => by
      have hnot := (hops ops hops').not_exist_of_mem hk
      rw [hc k hprior] at hnot
      cases hnot
  refine ⟨?_, ?_, ?_, ?_⟩
  · exact List.nodup_flatMap.2 ⟨fun ops hops' => (hops ops hops').modifiedKeys_nodup,
      modifiedKeys_pairwise_disjoint hnames⟩
  · intro k hk
    obtain ⟨ops, hops', hk'⟩ := List.mem_flatMap.1 hk
    exact hfresh ops hops' k hk'
  · intro ops hops' r hr
    obtain ⟨hnot, hversion⟩ := (hops ops hops').readsFresh r hr
    refine ⟨fun hprior => ?_, hversion⟩
    have hexist := hc _ hprior
    rw [hnot] at hexist
    cases hexist
  · intro ops hops' d hd
    exact (hops ops hops').deletesPresent d hd

/-! ### The whole block -/

/-- The valid transactions of a block in order, each isolated from `prior` and from the valid
transactions before it. -/
def IsolatedChain (db : LevelDB) : List (String × String) → List (Nat × DataTx) → Prop
  | _, [] => True
  | prior, x :: txs => TxIsolated db prior x.2 ∧ IsolatedChain db (prior ++ x.2.modifiedKeys) txs

/-- **Step lemma.** One turn of the loop of `ValidateBlock`: the transaction's result comes first
and the later ones from the loop over the rest. An invalid result leaves `pendingOps` as it was;
a valid one passed the signature check and `validate`, and the transaction's keys join
`pendingOps`. -/
theorem validateDataTxs_cons {iq : IdentityQuerier} {db : LevelDB} {pendingOps : PendingOperations}
    {txEnv : DataTxEnvelope} {usersWithValidSig : List String} {sigRes : ValidationInfo}
    {rest : List (DataTxEnvelope × List String × ValidationInfo)} {results : List ValidationInfo}
    (h : validateDataTxs iq db pendingOps ((txEnv, usersWithValidSig, sigRes) :: rest) = .ok results) :
    ∃ res rs, results = res :: rs ∧
      (res.flag ≠ .VALID ∧ validateDataTxs iq db pendingOps rest = .ok rs ∨
        res.flag = .VALID ∧ sigRes.flag = .VALID ∧
          validate iq db txEnv usersWithValidSig pendingOps = .ok res ∧
          validateDataTxs iq db (addOps pendingOps txEnv.payload) rest = .ok rs) := by
  simp only [validateDataTxs] at h
  split at h
  · -- the signature check failed: its result is the transaction's
    rename_i hsig
    obtain ⟨rs, hrest, hrs⟩ := Except.bind_eq_ok.1 h
    cases hrs
    exact ⟨sigRes, rs, rfl, .inl ⟨by simpa using hsig, hrest⟩⟩
  · rename_i hsigValid
    obtain ⟨valRes, hval, hloop⟩ := Except.bind_eq_ok.1 h
    rw [Except.mapError_eq_ok] at hval
    split at hloop
    · rename_i hinvalid
      obtain ⟨rs, hrest, hrs⟩ := Except.bind_eq_ok.1 hloop
      cases hrs
      exact ⟨valRes, rs, rfl, .inl ⟨by simpa using hinvalid, hrest⟩⟩
    · rename_i hvalid
      obtain ⟨rs, hrest, hrs⟩ := Except.bind_eq_ok.1 hloop
      cases hrs
      exact ⟨valRes, rs, rfl, .inr ⟨by simpa using hvalid, by simpa using hsigValid, hval, hrest⟩⟩

/-- **Run lemma.** When the loop of `ValidateBlock` runs from a `pendingOps` that records `prior`,
its valid transactions form an isolated chain from `prior`. -/
theorem validateDataTxs_chain {iq : IdentityQuerier} {db : LevelDB}
    {items : List (DataTxEnvelope × List String × ValidationInfo)} {pendingOps : PendingOperations}
    {prior : List (String × String)} {results : List ValidationInfo}
    (h : validateDataTxs iq db pendingOps items = .ok results) (hc : Covers pendingOps prior)
    (txNum : Nat) : IsolatedChain db prior (validTxs txNum (items.map Prod.fst) results) := by
  induction items generalizing pendingOps prior results txNum with
  | nil =>
    cases h
    simp [validTxs, IsolatedChain]
  | cons item rest ih =>
    obtain ⟨txEnv, usersWithValidSig, sigRes⟩ := item
    obtain ⟨res, rs, rfl, ⟨hinvalid, hrest⟩ | ⟨hvalid, -, hval, hrest⟩⟩ := validateDataTxs_cons h
    · -- the transaction is invalid: `pendingOps` is unchanged
      simpa [validTxs, hinvalid] using ih hrest hc (txNum + 1)
    · -- the transaction is valid: its keys join `pendingOps`
      have hstep := validate_isolated ⟨res, hval, hvalid⟩ hc
      have hchain := ih hrest (covers_addOps hc txEnv.payload) (txNum + 1)
      simpa [validTxs, hvalid, IsolatedChain] using And.intro hstep hchain

theorem IsolatedChain.nodup {db : LevelDB} {prior : List (String × String)}
    {txs : List (Nat × DataTx)} (h : IsolatedChain db prior txs) (hprior : prior.Nodup) :
    (prior ++ txs.flatMap fun x => x.2.modifiedKeys).Nodup := by
  induction txs generalizing prior with
  | nil => simpa using hprior
  | cons x txs ih =>
    obtain ⟨hx, hrest⟩ := h
    have hnext : (prior ++ x.2.modifiedKeys).Nodup :=
      List.nodup_append.2 ⟨hprior, hx.keysUnique, fun a ha b hb hab =>
        hx.keysFresh b hb (hab ▸ ha)⟩
    simpa using ih hrest hnext

theorem IsolatedChain.readsFresh {db : LevelDB} {prior : List (String × String)}
    {txs : List (Nat × DataTx)} (h : IsolatedChain db prior txs) (pre : List (Nat × DataTx))
    (txNum : Nat) (tx : DataTx) (post : List (Nat × DataTx)) (hsplit : txs = pre ++ (txNum, tx) :: post) :
    ∀ ops ∈ tx.dbOperations, ∀ r ∈ ops.dataReads,
      (ops.dbName, r.key) ∉ prior ++ pre.flatMap (fun x => x.2.modifiedKeys) ∧
        db.GetVersion ops.dbName r.key = .ok r.version := by
  induction pre generalizing prior txs with
  | nil =>
    subst hsplit
    simpa using h.1.readsFresh
  | cons y pre ih =>
    subst hsplit
    simpa using ih h.2 rfl

theorem IsolatedChain.deletesPresent {db : LevelDB} {prior : List (String × String)}
    {txs : List (Nat × DataTx)} (h : IsolatedChain db prior txs) :
    ∀ x ∈ txs, ∀ ops ∈ x.2.dbOperations, ∀ d ∈ ops.dataDeletes,
      ∃ v, db.entry ops.dbName d.key = some v := by
  induction txs generalizing prior with
  | nil => simp
  | cons y txs ih =>
    intro x hx
    rcases List.mem_cons.1 hx with rfl | hx
    · exact h.1.deletesPresent
    · exact ih h.2 x hx

/-- An isolated chain from no pending keys is isolated in the sense of `BlockIsolation`. -/
theorem IsolatedChain.blockIsolation {db : LevelDB} {txs : List (Nat × DataTx)}
    (h : IsolatedChain db [] txs) (blockNum : UInt64) : BlockIsolation db blockNum txs := by
  have hnodup : (txs.flatMap fun x => x.2.modifiedKeys).Nodup := by
    simpa using h.nodup List.nodup_nil
  refine ⟨hnodup, fun pre txNum tx post hsplit => ?_, h.deletesPresent, fun us hperm => ?_⟩
  · simpa using h.readsFresh pre txNum tx post hsplit
  · have hkeys : ((blockUpdates blockNum txs).map Prod.fst).Nodup := by
      rw [map_fst_blockUpdates]
      exact hnodup
    exact applyUpdates_perm hperm.symm hkeys _ |>.symm

/-- **Intra-block isolation.** Whatever the committed state and whatever the identity querier and
the signature verifier answer, the transactions `ValidateBlock` marks valid in a block of data
transactions are isolated from one another. -/
theorem ValidateBlock_isolates_valid_txs (iq : IdentityQuerier) (sv : SignatureVerifier)
    (db : LevelDB) (blockNum : UInt64) (dataTxEnvs : List DataTxEnvelope)
    (results : List ValidationInfo) (h : validateDataBlock iq sv db dataTxEnvs = .ok results) :
    BlockIsolation db blockNum (validTxs 0 dataTxEnvs results) := by
  have hlen : dataTxEnvs.length ≤ (parallelSigValidation sv dataTxEnvs).length := by
    simp [parallelSigValidation]
  have hnone : Covers PendingOperations.new [] := fun _ hk => nomatch hk
  have hchain := validateDataTxs_chain h hnone 0
  rw [List.map_fst_zip hlen] at hchain
  exact hchain.blockIsolation blockNum

/-- Two transactions of user `alice` on database `bdb`: the first reads `k` at its committed
version and writes `a`, the second reads `a` and is invalid. -/
theorem ValidateBlock_isolates_valid_txs_of_conflicting_block : BlockIsolation
    ⟨fun name => if name = "bdb" then some fun key =>
        if key = "k" then some ⟨[1], some ⟨some ⟨1, 0⟩, none⟩⟩ else none else none, some 1⟩ 2
    (validTxs 0
      [⟨⟨["alice"], "t0", [⟨"bdb", [⟨"k", some ⟨1, 0⟩⟩], [⟨"a", [2], none⟩], []⟩]⟩, [("alice", [0])]⟩,
       ⟨⟨["alice"], "t1", [⟨"bdb", [⟨"a", none⟩], [], []⟩]⟩, [("alice", [0])]⟩]
      [.valid, invalid .INVALID_MVCC_CONFLICT_WITHIN_BLOCK
        "mvcc conflict has occurred within the block for the key [a] in database [bdb]"]) :=
  ValidateBlock_isolates_valid_txs ⟨fun _ _ => .ok true, fun _ => .ok true⟩ ⟨fun _ _ _ => none⟩ _ 2 _ _
    (by decide)

/-! ### The order of the `Signatures` map

Go ranges over a map in an order it picks afresh on every run, and a signatures list here is one
such order. `validateSignatures` stops at the first must-sign user whose signature fails and names
that user in the reason, so with two such users the reason depends on the order. -/

/-- **Two iteration orders of one `Signatures` map, two results.** `alice` and `bob` must both
sign and neither signature verifies; the reason names whichever the loop meets first. Whatever
the identities and the world state, two replicas validating the block record different
`ValidationInfo`s. -/
theorem ValidateBlock_reason_depends_on_signature_order (iq : IdentityQuerier) (db : LevelDB) :
    validateDataBlock iq ⟨fun _ _ _ => some "x509: certificate signed by unknown authority"⟩ db
        [⟨⟨["alice", "bob"], "tx1", []⟩, [("alice", [1]), ("bob", [2])]⟩] =
      .ok [invalid .INVALID_UNAUTHORISED
        "signature of the must sign user [alice] is not valid (maybe the certificate got changed)"] ∧
    validateDataBlock iq ⟨fun _ _ _ => some "x509: certificate signed by unknown authority"⟩ db
        [⟨⟨["alice", "bob"], "tx1", []⟩, [("bob", [2]), ("alice", [1])]⟩] =
      .ok [invalid .INVALID_UNAUTHORISED
        "signature of the must sign user [bob] is not valid (maybe the certificate got changed)"] :=
  ⟨rfl, rfl⟩

/-- **Run lemma.** Each transaction that the loop of `ValidateBlock` marks valid passed
`validate` against the committed state. -/
theorem validateDataTxs_passes {iq : IdentityQuerier} {db : LevelDB}
    {items : List (DataTxEnvelope × List String × ValidationInfo)} {pendingOps : PendingOperations}
    {results : List ValidationInfo} (h : validateDataTxs iq db pendingOps items = .ok results)
    (txNum : Nat) :
    ∀ x ∈ validTxs txNum (items.map Prod.fst) results, ∃ txEnv userIDs p,
      txEnv.payload = x.2 ∧ Passes (validate iq db txEnv userIDs p) := by
  induction items generalizing pendingOps results txNum with
  | nil =>
    cases h
    simp [validTxs]
  | cons item rest ih =>
    obtain ⟨txEnv, usersWithValidSig, sigRes⟩ := item
    obtain ⟨res, rs, rfl, ⟨hinvalid, hrest⟩ | ⟨hvalid, -, hval, hrest⟩⟩ := validateDataTxs_cons h
    · -- the transaction is not among the valid ones
      simpa [validTxs, hinvalid] using ih hrest (txNum + 1)
    · -- the transaction is valid: it passed `validate`, and so did the valid ones after it
      intro x hx
      simp only [List.map_cons, validTxs, hvalid, if_true, List.mem_cons] at hx
      rcases hx with rfl | hx
      · exact ⟨txEnv, usersWithValidSig, pendingOps, rfl, res, hval, hvalid⟩
      · exact ih hrest (txNum + 1) x hx

/-! ### Authorisation of the valid transactions

`validateSignatures` checks the signatures the envelope holds; a must-sign user is looked at only
when a signature of that user is present and fails. That every must-sign user signed is checked
before: the HTTP handler of the node a transaction is submitted to refuses a transaction without
a signature of each must-sign user, and only what it accepts reaches a block. -/

/-- The users whose signature in the envelope verifies. -/
def verifiedSigners (sv : SignatureVerifier) (txEnv : DataTxEnvelope) : List String :=
  (txEnv.signatures.filter fun s => (sv.Verify s.1 s.2 txEnv.payload).isNone).map Prod.fst

/-- A data transaction is authorised: every must-sign user's signature verifies, and its
operations on each database are authorised for the users whose signature verifies. -/
structure TxAuthorised (iq : IdentityQuerier) (sv : SignatureVerifier) (db : LevelDB)
    (txEnv : DataTxEnvelope) : Prop where
  mustSign : ∀ u ∈ txEnv.payload.mustSignUserIds, u ∈ verifiedSigners sv txEnv
  ops : ∀ ops ∈ txEnv.payload.dbOperations, OpsAuthorised iq db (verifiedSigners sv txEnv) ops

theorem sigValidate_flag {sv : SignatureVerifier} {user : String} {signature : Bytes}
    {payload : DataTx} :
    (sigValidate sv user signature payload).flag = .VALID ↔ (sv.Verify user signature payload).isNone := by
  unfold sigValidate
  cases sv.Verify user signature payload <;> simp

/-- **Step and run of the signature loop.** When the loop ends `VALID`, it added each signer
whose signature verifies, and no signature of a must-sign user failed. -/
theorem validateSignaturesLoop_valid {sv : SignatureVerifier} {txEnv : DataTxEnvelope} :
    ∀ (acc : List String) (sigs : List (String × Bytes)),
      (validateSignaturesLoop sv txEnv acc sigs).2.flag = .VALID →
      (validateSignaturesLoop sv txEnv acc sigs).1 =
          acc ++ (sigs.filter fun s => (sv.Verify s.1 s.2 txEnv.payload).isNone).map Prod.fst ∧
        ∀ s ∈ sigs, s.1 ∈ txEnv.payload.mustSignUserIds → (sv.Verify s.1 s.2 txEnv.payload).isNone
  | acc, [], _ => by simp [validateSignaturesLoop]
  | acc, (userID, signature) :: rest, h => by
    by_cases hverify : (sv.Verify userID signature txEnv.payload).isNone
    · -- the signer is added, and the loop goes on
      have hsig : ((sigValidate sv userID signature txEnv.payload).flag != .VALID) = false := by
        simpa using sigValidate_flag.2 hverify
      simp only [validateSignaturesLoop, hsig, Bool.false_eq_true, if_false] at h ⊢
      obtain ⟨hsigners, hmust⟩ := validateSignaturesLoop_valid (acc ++ [userID]) rest h
      refine ⟨by simp [hsigners, hverify], fun s hs hmem => ?_⟩
      rcases List.mem_cons.1 hs with rfl | hs
      · exact hverify
      · exact hmust s hs hmem
    · have hsig : ((sigValidate sv userID signature txEnv.payload).flag != .VALID) = true := by
        simpa using mt sigValidate_flag.1 hverify
      by_cases hmustSign : userID ∈ txEnv.payload.mustSignUserIds
      · -- a must-sign user's signature failed: the result is not `VALID`
        simp [validateSignaturesLoop, hsig, hmustSign] at h
      · simp only [validateSignaturesLoop, hsig, hmustSign, if_true, if_false] at h ⊢
        obtain ⟨hsigners, hmust⟩ := validateSignaturesLoop_valid acc rest h
        refine ⟨by simp [hsigners, hverify], fun s hs hmem => ?_⟩
        rcases List.mem_cons.1 hs with rfl | hs
        · exact absurd hmem hmustSign
        · exact hmust s hs hmem

/-- A `VALID` signature check returns the users whose signature verifies; when each must-sign
user signed, each is among them. -/
theorem validateSignatures_valid {sv : SignatureVerifier} {txEnv : DataTxEnvelope}
    (hsigned : ∀ u ∈ txEnv.payload.mustSignUserIds, u ∈ txEnv.signatures.map Prod.fst)
    (h : (validateSignatures sv txEnv).2.flag = .VALID) :
    (validateSignatures sv txEnv).1 = verifiedSigners sv txEnv ∧
      ∀ u ∈ txEnv.payload.mustSignUserIds, u ∈ verifiedSigners sv txEnv := by
  obtain ⟨hsigners, hmust⟩ := validateSignaturesLoop_valid [] txEnv.signatures h
  refine ⟨hsigners, fun u hu => ?_⟩
  obtain ⟨s, hs, rfl⟩ := List.mem_map.1 (hsigned u hu)
  exact List.mem_map.2 ⟨s, List.mem_filter.2 ⟨hs, hmust s hs hu⟩, rfl⟩

/-- **Run lemma.** A transaction the loop of `ValidateBlock` marks valid passed its signature
check and `validate`, with the signers that check returned. -/
theorem validateDataTxs_valid_at {iq : IdentityQuerier} {db : LevelDB} :
    ∀ {items : List (DataTxEnvelope × List String × ValidationInfo)} {pendingOps : PendingOperations}
      {results : List ValidationInfo}, validateDataTxs iq db pendingOps items = .ok results →
      ∀ (i : Nat) (item : DataTxEnvelope × List String × ValidationInfo) (r : ValidationInfo),
        items[i]? = some item → results[i]? = some r → r.flag = .VALID →
        item.2.2.flag = .VALID ∧ ∃ p, Passes (validate iq db item.1 item.2.1 p)
  | [], _, results, h, i, item, r, hitem, _, _ => by simp at hitem
  | (txEnv, usersWithValidSig, sigRes) :: rest, pendingOps, results, h, i, item, r, hitem, hr, hvalid => by
    obtain ⟨res, rs, rfl, hstep⟩ := validateDataTxs_cons h
    cases i with
    | zero =>
      cases hitem
      cases hr
      rcases hstep with ⟨hinvalid, -⟩ | ⟨-, hsig, hval, -⟩
      · exact absurd hvalid hinvalid
      · exact ⟨hsig, pendingOps, _, hval, hvalid⟩
    | succ i =>
      -- whether the transaction is valid or not, the later results come from the rest of the loop
      rcases hstep with ⟨-, hrest⟩ | ⟨-, -, -, hrest⟩
      · exact validateDataTxs_valid_at hrest i item r hitem hr hvalid
      · exact validateDataTxs_valid_at hrest i item r hitem hr hvalid

/-- **Authorisation.** Whatever the committed state and whatever the identity querier and the
signature verifier answer, a transaction of a block that `ValidateBlock` marks `VALID`, and that
carries a signature of each of its must-sign users, as the HTTP handler requires, is authorised:
each must-sign user's signature verifies, and on each database it operates on, the database
exists and is not a system database, some signer may write to it, and the access control of
each key it reads, writes or deletes admits the signers who may write to the database. -/
theorem ValidateBlock_authorises_valid_data_txs {iq : IdentityQuerier} {sv : SignatureVerifier}
    {db : LevelDB} {envs : List DataTxEnvelope} {results : List ValidationInfo}
    (h : validateDataBlock iq sv db envs = .ok results) :
    ∀ (i : Nat) (txEnv : DataTxEnvelope) (r : ValidationInfo), envs[i]? = some txEnv →
      results[i]? = some r → (∀ u ∈ txEnv.payload.mustSignUserIds, u ∈ txEnv.signatures.map Prod.fst) →
      r.flag = .VALID → TxAuthorised iq sv db txEnv := by
  intro i txEnv r henv hr hsigned hvalid
  have hitem : (envs.zip (parallelSigValidation sv envs))[i]? =
      some (txEnv, validateSignatures sv txEnv) := by
    rw [parallelSigValidation, List.getElem?_zip_eq_some]
    exact ⟨henv, by simp [henv]⟩
  obtain ⟨hsig, p, hpasses⟩ := validateDataTxs_valid_at h i _ r hitem hr hvalid
  obtain ⟨hsigners, hmust⟩ := validateSignatures_valid hsigned hsig
  refine ⟨hmust, ?_⟩
  rw [← hsigners]
  exact validate_authorised hpasses

/-- `alice` and `bob` must sign, and both did; both may write to `bdb`. The transaction, which
writes a key of `bdb`, is valid and authorised. -/
theorem ValidateBlock_authorises_valid_data_txs_of_two_signers :
    validateDataBlock ⟨fun _ _ => .ok true, fun _ => .ok true⟩ ⟨fun _ _ _ => none⟩
        ⟨fun name => if name = "bdb" then some fun _ => none else none, some 1⟩
        [⟨⟨["alice", "bob"], "tx1", [⟨"bdb", [], [⟨"k", [1], none⟩], []⟩]⟩,
          [("alice", [0]), ("bob", [1])]⟩] = .ok [.valid] ∧
      (∀ u ∈ ["alice", "bob"], u ∈ [("alice", ([0] : Bytes)), ("bob", [1])].map Prod.fst) ∧
      TxAuthorised ⟨fun _ _ => .ok true, fun _ => .ok true⟩ ⟨fun _ _ _ => none⟩
        ⟨fun name => if name = "bdb" then some fun _ => none else none, some 1⟩
        ⟨⟨["alice", "bob"], "tx1", [⟨"bdb", [], [⟨"k", [1], none⟩], []⟩]⟩,
          [("alice", [0]), ("bob", [1])]⟩ :=
  have h : validateDataBlock ⟨fun _ _ => .ok true, fun _ => .ok true⟩ ⟨fun _ _ _ => none⟩
      ⟨fun name => if name = "bdb" then some fun _ => none else none, some 1⟩
      [⟨⟨["alice", "bob"], "tx1", [⟨"bdb", [], [⟨"k", [1], none⟩], []⟩]⟩,
        [("alice", [0]), ("bob", [1])]⟩] = .ok [.valid] := by decide
  ⟨h, by decide, ValidateBlock_authorises_valid_data_txs h 0 _ _ rfl rfl (by decide) rfl⟩

/-- **Without the handler's check, a must-sign user need not sign.** `alice` and `bob` must
sign; only `alice` did, and she may write to `bdb`. `ValidateBlock` marks the transaction
`VALID`: the presence of each must-sign user's signature rests on the handler alone. -/
theorem ValidateBlock_accepts_missing_must_sign_user :
    validateDataBlock ⟨fun _ _ => .ok true, fun _ => .ok true⟩ ⟨fun _ _ _ => none⟩
        ⟨fun name => if name = "bdb" then some fun _ => none else none, some 1⟩
        [⟨⟨["alice", "bob"], "tx1", [⟨"bdb", [], [⟨"k", [1], none⟩], []⟩]⟩, [("alice", [0])]⟩] =
      .ok [.valid] := by
  decide

end Orion.TxValidation
