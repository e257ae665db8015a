import Orion.TxValidation.UserAdminTxValidator
import Orion.TxValidation.DBAdminTxValidator
import Orion.Identity.DBEntries
import Orion.BlockProcessor.ConfigRun
import Mathlib.Logic.Relation

/-!
# The block processor on the world state (`internal/blockprocessor/processor.go`)

A node processes the blocks of the ledger in order: `validateAndCommit` asks the validator for a
result per transaction (`ValidateBlock`), then the committer builds the updates of each database
(`constructDBAndProvenanceEntries`, the committer's own, on a block with those results) and
commits them to the world state, with the updates of the index databases they cause
(`commitToStateDB`). A block holds data transactions, or one user
administration, database administration or configuration transaction. Block `1` is the genesis
block, whose configuration transaction is checked on its own.

This is the processor's part on the world state: the block store, the state trie and the
provenance store, which `commitBlock` also writes, are left out, as nothing here reads them. The
next block is the one after the committed height, as the replication layer delivers them. What
the signature verifiers answer is a parameter, and may differ from one world state to the next.

## What is proved

* `validateAndCommit_data`, `validateAndCommit_userAdmin`, `validateAndCommit_dbAdmin`,
  `validateAndCommit_config` — what processing a block of each kind consists of.
* `commitToStateDB_dbs_system`, `commitToStateDB_dbs_of_frame`, `commitToStateDB_isSome` — the
  updates of index databases never touch a database of a new world state.
* `dataTxEntries_not_system` — a data block updates no system database.
-/

namespace Orion.BlockProcessor

open Orion.State Orion.Types Orion.WorldState Orion.StateIndex Orion.TxValidation Orion.Identity

/-- The block processor apart from the world state: the wire forms, the libraries that check
certificates, and what the signature verifiers answer on each world state. -/
structure Processor where
  codecs : Codecs
  libs : ConfigLibs
  dataSigVerifier : LevelDB → SignatureVerifier
  verifyUserAdminTx : LevelDB → String → Bytes → UserAdministrationTx → Option String
  verifyDBAdminTx : LevelDB → String → Bytes → DBAdministrationTx → Option String
  verifyConfigTx : LevelDB → String → Bytes → ConfigTx → Option String

namespace Processor

variable (p : Processor)

/-- The user administration validator of the world state `db`. -/
def userAdminValidator (db : LevelDB) : userAdminTxValidator :=
  ⟨db, p.codecs, p.libs, p.verifyUserAdminTx db⟩

/-- The database administration validator of the world state `db`. -/
def dbAdminValidator (db : LevelDB) : dbAdminTxValidator :=
  ⟨db, p.codecs.user, p.verifyDBAdminTx db⟩

/-- `ValidateBlock` of block `blockNum` on the committed world state `db`. The genesis block is
checked on its own; one that holds no configuration transaction is a `nil` envelope, which Go
dereferences. -/
def ValidateBlock (db : LevelDB) (blockNum : UInt64) (payload : Payload) :
    Except String (List ValidationInfo) :=
  if blockNum = 1 then
    match payload with
    | .configTxEnvelope env =>
      (configTxValidator p.codecs p.libs (p.verifyConfigTx db) db).validateGenesis env
    | _ => .error runtimeNilDereference
  else
    match payload with
    | .dataTxEnvelopes envs =>
      validateDataBlock (dataTxQuerier p.codecs.user db) (p.dataSigVerifier db) db envs
    | .userAdministrationTxEnvelope env =>
      (fun valRes => [valRes]) <$> ((p.userAdminValidator db).validate env).mapError
        ("error while validating user administrative transaction: " ++ ·)
    | .dbAdministrationTxEnvelope env =>
      (fun valRes => [valRes]) <$> ((p.dbAdminValidator db).validate env).mapError
        ("error while validating db administrative transaction: " ++ ·)
    | .configTxEnvelope env =>
      (fun valRes => [valRes]) <$>
        ((configTxValidator p.codecs p.libs (p.verifyConfigTx db) db).Validate db env).mapError
          ("error while validating config transaction: " ++ ·)

/-- `constructDBAndProvenanceEntries` without the provenance entries: the updates of each
database for block `blockNum`, with the validator's results. -/
def constructDBEntries (db : LevelDB) (blockNum : UInt64) (payload : Payload)
    (validationInfo : List ValidationInfo) : Except String DBsUpdates :=
  Prod.fst <$> constructDBAndProvenanceEntries p.codecs db ⟨⟨blockNum, validationInfo, []⟩, payload⟩

/-- `validateAndCommit` on the world state: the block after the committed one is validated, and
its updates committed. -/
def validateAndCommit (db : LevelDB) (payload : Payload) : Except String LevelDB := do
  let blockNum := db.Height + 1
  let validationInfo ← p.ValidateBlock db blockNum payload
  let dbsUpdates ← (p.constructDBEntries db blockNum payload validationInfo).mapError fun e =>
    "error while constructing database and provenance entries for block " ++ toString blockNum ++
      ": " ++ e
  commitToStateDB db blockNum dbsUpdates

/-- The world states a new node reaches by processing blocks. -/
def Reachable : LevelDB → Prop :=
  Relation.ReflTransGen (fun db db' => ∃ payload, p.validateAndCommit db payload = .ok db')
    LevelDB.Open

end Processor

/-! ### The commit of a block's updates -/

section CommitToStateDB

variable {db db' : LevelDB} {blockNum : UInt64} {dbsUpdates : DBsUpdates}

/-- The commit sets the batches of index databases over the block's updates. -/
theorem commitToStateDB_ok (h : commitToStateDB db blockNum dbsUpdates = .ok db') :
    ∃ indexUpdates : DBsUpdates, (∀ e ∈ indexUpdates, ∃ dbName, e.1 = IndexDB dbName) ∧
      db.Commit (indexUpdates.foldl (fun m e => m.set e.1 e.2) dbsUpdates) blockNum = .ok db' := by
  unfold commitToStateDB at h
  obtain ⟨indexUpdates, hindex, hcommit⟩ := Except.bind_eq_ok.1 h
  rw [Except.mapError_eq_ok] at hindex hcommit
  exact ⟨indexUpdates, ConstructIndexEntries_names hindex, hcommit⟩

/-- Without updates of `_dbs`, a database that is not an index database gets the block's
batches: the index updates set index databases only. -/
theorem commitToStateDB_dbs_of_not_index {dbName : String}
    (h : commitToStateDB db blockNum dbsUpdates = .ok db') (hindex : ∀ name, IndexDB name ≠ dbName)
    (hne : ∀ e ∈ dbsUpdates, e.1 ≠ DatabasesDBName) :
    db'.dbs dbName = applyBatches db.dbs dbsUpdates dbName := by
  obtain ⟨indexUpdates, hnames, hcommit⟩ := commitToStateDB_ok h
  have hall : ∀ e ∈ indexUpdates.foldl (fun m e => m.set e.1 e.2) dbsUpdates,
      e.1 ≠ DatabasesDBName := by
    intro e he
    rcases mem_foldl_set (fun _ _ => rfl) he with he | he
    · exact hne e he
    · obtain ⟨name, hname⟩ := hnames e he
      rw [hname]
      exact IndexDB_ne_of_mem_preCreateDBs (by decide)
  rw [LevelDB.dbs_of_Commit hall hcommit]
  refine applyBatches_foldl_set_of_ne (fun _ _ => rfl) fun e he => ?_
  obtain ⟨name, hname⟩ := hnames e he
  rw [hname]
  exact hindex name

/-- Without updates of `_dbs`, a database of a new world state gets the block's batches. -/
theorem commitToStateDB_dbs_system {dbName : String}
    (h : commitToStateDB db blockNum dbsUpdates = .ok db') (hsystem : dbName ∈ LevelDB.preCreateDBs)
    (hne : ∀ e ∈ dbsUpdates, e.1 ≠ DatabasesDBName) :
    db'.dbs dbName = applyBatches db.dbs dbsUpdates dbName :=
  commitToStateDB_dbs_of_not_index h (fun _ => IndexDB_ne_of_mem_preCreateDBs hsystem) hne

/-- A database of a new world state that the block's batches do not name, and that `_dbs` does
not delete, is left as it is. -/
theorem commitToStateDB_dbs_of_frame {dbName : String}
    (h : commitToStateDB db blockNum dbsUpdates = .ok db') (hsystem : dbName ∈ LevelDB.preCreateDBs)
    (hframe : ∀ e ∈ dbsUpdates, e.1 ≠ dbName ∧ (e.1 = DatabasesDBName → dbName ∉ e.2.deletes))
    (hsome : (db.dbs dbName).isSome) : db'.dbs dbName = db.dbs dbName := by
  obtain ⟨indexUpdates, hnames, hcommit⟩ := commitToStateDB_ok h
  refine LevelDB.Commit_dbs_of_frame hcommit (fun e he => ?_) hsome
  rcases mem_foldl_set (fun _ _ => rfl) he with he | he
  · exact hframe e he
  · -- an index database is neither `dbName` nor `_dbs`
    obtain ⟨name, hname⟩ := hnames e he
    rw [hname]
    exact ⟨IndexDB_ne_of_mem_preCreateDBs hsystem,
      fun hdbs => absurd hdbs (IndexDB_ne_of_mem_preCreateDBs (by decide))⟩

/-- A database of a new world state that `_dbs` does not delete keeps existing. -/
theorem commitToStateDB_isSome {dbName : String}
    (h : commitToStateDB db blockNum dbsUpdates = .ok db')
    (hdel : ∀ e ∈ dbsUpdates, e.1 = DatabasesDBName → dbName ∉ e.2.deletes)
    (hsome : (db.dbs dbName).isSome) : (db'.dbs dbName).isSome := by
  obtain ⟨indexUpdates, hnames, hcommit⟩ := commitToStateDB_ok h
  refine LevelDB.Commit_isSome hcommit (fun e he hdbs => ?_) hsome
  rcases mem_foldl_set (fun _ _ => rfl) he with he | he
  · exact hdel e he hdbs
  · obtain ⟨name, hname⟩ := hnames e he
    exact absurd (hname.symm.trans hdbs) (IndexDB_ne_of_mem_preCreateDBs (by decide))

/-- A commit without updates leaves every database of a new world state as it was. -/
theorem commitToStateDB_nil_system (h : commitToStateDB db blockNum [] = .ok db') :
    ∀ dbName ∈ LevelDB.preCreateDBs, db'.dbs dbName = db.dbs dbName := fun _ hpre =>
  commitToStateDB_dbs_system h hpre fun _ he => absurd he List.not_mem_nil

/-- The commit sets the height to the block's number. -/
theorem commitToStateDB_Height (h : commitToStateDB db blockNum dbsUpdates = .ok db') :
    db'.Height = blockNum := by
  obtain ⟨indexUpdates, -, hcommit⟩ := commitToStateDB_ok h
  exact LevelDB.Height_of_Commit hcommit

/-- Without index definitions for the databases it updates, the commit is the world state's
`Commit`. -/
theorem commitToStateDB_of_no_index
    (h : ∀ e ∈ dbsUpdates, ∃ metadata, db.GetIndexDefinition e.1 = .ok ([], metadata)) :
    commitToStateDB db blockNum dbsUpdates = (db.Commit dbsUpdates blockNum).mapError
      fun e => "failed to commit block " ++ toString blockNum ++ " to state database: " ++ e := by
  simp only [commitToStateDB, ConstructIndexEntries_of_no_index h]
  rfl

end CommitToStateDB

/-! ### The updates of a data block -/

/-- The entries of a data transaction are of its databases, or were there. -/
theorem mem_AddDBEntriesForDataTx {tx : DataTx} {version : Version} {m : DBsUpdates}
    {e : String × DBUpdates} (he : e ∈ AddDBEntriesForDataTx tx version m) :
    e ∈ m ∨ ∃ ops ∈ tx.dbOperations, e.1 = ops.dbName := by
  unfold AddDBEntriesForDataTx at he
  generalize tx.dbOperations = opsList at he ⊢
  -- each operation sets the entry of its database
  induction opsList generalizing m with
  | nil => exact .inl he
  | cons ops rest ih =>
    rw [List.foldl_cons] at he
    rcases ih he with he | ⟨ops', hops', hname⟩
    · dsimp only at he
      rcases DBsUpdates.mem_set he with rfl | ⟨he, -⟩
      · exact .inr ⟨ops, List.mem_cons_self, rfl⟩
      · exact .inl he
    · exact .inr ⟨ops', List.mem_cons_of_mem _ hops', hname⟩

/-- A data block updates the databases its valid transactions operate on. -/
theorem dataTxEntries_names {blockNum : UInt64} {envs : List DataTxEnvelope}
    {validationInfo : List ValidationInfo} {e : String × DBUpdates}
    (he : e ∈ dataTxEntries blockNum envs validationInfo) :
    ∃ x ∈ validTxs 0 envs validationInfo, ∃ ops ∈ x.2.dbOperations, e.1 = ops.dbName := by
  unfold dataTxEntries at he
  generalize validTxs 0 envs validationInfo = txs at he ⊢
  suffices hloop : ∀ m : DBsUpdates, e ∈ txs.foldl
      (fun dbsUpdates x => AddDBEntriesForDataTx x.2 ⟨blockNum, x.1.toUInt64⟩ dbsUpdates) m →
      e ∈ m ∨ ∃ x ∈ txs, ∃ ops ∈ x.2.dbOperations, e.1 = ops.dbName by
    rcases hloop [] he with he | hx
    · exact absurd he List.not_mem_nil
    · exact hx
  clear he
  induction txs with
  | nil => exact fun _ he => .inl he
  | cons x rest ih =>
    intro m he
    rw [List.foldl_cons] at he
    rcases ih _ he with he | ⟨x', hx', hops⟩
    · rcases mem_AddDBEntriesForDataTx he with he | hops
      · exact .inl he
      · exact .inr ⟨x, List.mem_cons_self, hops⟩
    · exact .inr ⟨x', List.mem_cons_of_mem _ hx', hops⟩

/-- The databases the valid transactions of a data block operate on passed `validateDBName`:
each has a valid name, exists, and is not a system database. -/
theorem validTxs_dbNames {iq : IdentityQuerier} {sv : SignatureVerifier} {db : LevelDB}
    {envs : List DataTxEnvelope} {validationInfo : List ValidationInfo}
    (h : validateDataBlock iq sv db envs = .ok validationInfo) :
    ∀ x ∈ validTxs 0 envs validationInfo, ∀ ops ∈ x.2.dbOperations,
      ValidDBName ops.dbName = true ∧ db.Exist ops.dbName = true ∧ IsSystemDB ops.dbName = false := by
  intro x hx ops hops
  have hlen : envs.length ≤ (parallelSigValidation sv envs).length := by
    simp [parallelSigValidation]
  have hpasses := validateDataTxs_passes h 0
  rw [List.map_fst_zip hlen] at hpasses
  obtain ⟨txEnv, userIDs, pendingOps, hpayload, hvalid⟩ := hpasses x hx
  rw [← hpayload] at hops
  exact validateDBName_valid (validate_dbNames hvalid ops hops)

/-- **A data block updates no system database.** The databases of its valid transactions passed
`validateDBName`. -/
theorem dataTxEntries_not_system {iq : IdentityQuerier} {sv : SignatureVerifier} {db : LevelDB}
    {envs : List DataTxEnvelope} {validationInfo : List ValidationInfo} (blockNum : UInt64)
    (h : validateDataBlock iq sv db envs = .ok validationInfo) :
    ∀ e ∈ dataTxEntries blockNum envs validationInfo, IsSystemDB e.1 = false := by
  intro e he
  obtain ⟨x, hx, ops, hops, hname⟩ := dataTxEntries_names he
  rw [hname]
  exact (validTxs_dbNames h x hx ops hops).2.2

/-! ### Processing one block -/

namespace Processor

variable {p : Processor} {db db' : LevelDB}

/-- A block that is processed was validated, and its updates built and committed. -/
theorem validateAndCommit_ok {payload : Payload} (h : p.validateAndCommit db payload = .ok db') :
    ∃ validationInfo dbsUpdates, p.ValidateBlock db (db.Height + 1) payload = .ok validationInfo ∧
      p.constructDBEntries db (db.Height + 1) payload validationInfo = .ok dbsUpdates ∧
      commitToStateDB db (db.Height + 1) dbsUpdates = .ok db' := by
  obtain ⟨validationInfo, hvalidate, h⟩ := Except.bind_eq_ok.1 h
  obtain ⟨dbsUpdates, hentries, hcommit⟩ := Except.bind_eq_ok.1 h
  exact ⟨validationInfo, dbsUpdates, hvalidate, Except.mapError_eq_ok.1 hentries, hcommit⟩

/-- A user administration block's updates are those of the committer's branch for it. -/
theorem constructDBEntries_userAdmin {blockNum : UInt64} {env : UserAdministrationTxEnvelope}
    {validationInfo : List ValidationInfo} :
    p.constructDBEntries db blockNum (.userAdministrationTxEnvelope env) validationInfo =
      userAdminTxEntries p.codecs.user blockNum env validationInfo := by
  simp [constructDBEntries, constructDBAndProvenanceEntries]

/-- A configuration block's updates are those of the committer's branch for it. -/
theorem constructDBEntries_config {blockNum : UInt64} {env : ConfigTxEnvelope}
    {validationInfo : List ValidationInfo} :
    p.constructDBEntries db blockNum (.configTxEnvelope env) validationInfo =
      configTxEntries p.codecs db blockNum env validationInfo := by
  simp [constructDBEntries, constructDBAndProvenanceEntries]

/-- A block other than a configuration block is never the genesis block. -/
theorem ValidateBlock_not_genesis {blockNum : UInt64} {payload : Payload}
    {validationInfo : List ValidationInfo} (h : p.ValidateBlock db blockNum payload = .ok validationInfo)
    (hpayload : ∀ env, payload ≠ .configTxEnvelope env) : blockNum ≠ 1 := by
  intro hone
  unfold ValidateBlock at h
  rw [if_pos hone] at h
  split at h
  · exact hpayload _ rfl
  · cases h

/-- **A data block.** Its transactions are validated, and the entries of the valid ones are
committed. -/
theorem validateAndCommit_data {envs : List DataTxEnvelope}
    (h : p.validateAndCommit db (.dataTxEnvelopes envs) = .ok db') :
    ∃ validationInfo,
      validateDataBlock (dataTxQuerier p.codecs.user db) (p.dataSigVerifier db) db envs =
        .ok validationInfo ∧
      commitToStateDB db (db.Height + 1) (dataTxEntries (db.Height + 1) envs validationInfo) = .ok db' := by
  obtain ⟨validationInfo, dbsUpdates, hvalidate, hentries, hcommit⟩ := validateAndCommit_ok h
  have hgenesis := ValidateBlock_not_genesis hvalidate fun _ hpayload => nomatch hpayload
  unfold ValidateBlock at hvalidate
  rw [if_neg hgenesis] at hvalidate
  simp only [constructDBEntries, constructDBAndProvenanceEntries, Except.map_eq_ok,
    Except.ok.injEq] at hentries
  obtain ⟨_, rfl, rfl⟩ := hentries
  exact ⟨validationInfo, hvalidate, hcommit⟩

/-- **A user administration block.** The transaction is validated; a valid one has its entries
in `_users` committed, an invalid one nothing. -/
theorem validateAndCommit_userAdmin {env : UserAdministrationTxEnvelope}
    (h : p.validateAndCommit db (.userAdministrationTxEnvelope env) = .ok db') :
    ∃ valRes, (p.userAdminValidator db).validate env = .ok valRes ∧
      ((valRes.flag ≠ .VALID ∧ commitToStateDB db (db.Height + 1) [] = .ok db') ∨
        (valRes.flag = .VALID ∧ ∃ entries,
          ConstructDBEntriesForUserAdminTx p.codecs.user env.payload ⟨db.Height + 1, 0⟩ = .ok entries ∧
          commitToStateDB db (db.Height + 1) [(UsersDBName, entries)] = .ok db')) := by
  obtain ⟨validationInfo, dbsUpdates, hvalidate, hentries, hcommit⟩ := validateAndCommit_ok h
  have hgenesis := ValidateBlock_not_genesis hvalidate fun _ hpayload => nomatch hpayload
  unfold ValidateBlock at hvalidate
  rw [if_neg hgenesis] at hvalidate
  obtain ⟨valRes, hvalRes, rfl⟩ := Except.map_eq_ok.1 hvalidate
  refine ⟨valRes, Except.mapError_eq_ok.1 hvalRes, ?_⟩
  rw [constructDBEntries_userAdmin] at hentries
  simp only [userAdminTxEntries, userAdminTxIndex, List.getElem?_cons_zero] at hentries
  split_ifs at hentries with hflag
  · cases hentries
    exact .inl ⟨by simpa using hflag, hcommit⟩
  · split at hentries
    · cases hentries
    · rename_i entries hconstruct
      cases hentries
      exact .inr ⟨by simpa using hflag, entries, hconstruct, hcommit⟩

/-- **A database administration block.** The transaction is validated; a valid one has its
entries in `_dbs` committed, an invalid one nothing. -/
theorem validateAndCommit_dbAdmin {env : DBAdministrationTxEnvelope}
    (h : p.validateAndCommit db (.dbAdministrationTxEnvelope env) = .ok db') :
    ∃ valRes, (p.dbAdminValidator db).validate env = .ok valRes ∧
      ((valRes.flag ≠ .VALID ∧ commitToStateDB db (db.Height + 1) [] = .ok db') ∨
        (valRes.flag = .VALID ∧ commitToStateDB db (db.Height + 1)
          [(DatabasesDBName, (constructDBEntriesForDBAdminTx env.payload ⟨db.Height + 1, 0⟩ db).1)] =
            .ok db')) := by
  obtain ⟨validationInfo, dbsUpdates, hvalidate, hentries, hcommit⟩ := validateAndCommit_ok h
  have hgenesis := ValidateBlock_not_genesis hvalidate fun _ hpayload => nomatch hpayload
  unfold ValidateBlock at hvalidate
  rw [if_neg hgenesis] at hvalidate
  obtain ⟨valRes, hvalRes, rfl⟩ := Except.map_eq_ok.1 hvalidate
  refine ⟨valRes, Except.mapError_eq_ok.1 hvalRes, ?_⟩
  simp only [constructDBEntries, constructDBAndProvenanceEntries, dbAdminTxIndex,
    List.getElem?_cons_zero] at hentries
  split_ifs at hentries with hflag
  · obtain ⟨w, hw, hfst⟩ := Except.map_eq_ok.1 hentries
    cases hw
    subst hfst
    exact .inl ⟨by simpa using hflag, hcommit⟩
  · obtain ⟨w, hw, hfst⟩ := Except.map_eq_ok.1 hentries
    cases hw
    subst hfst
    exact .inr ⟨by simpa using hflag, hcommit⟩

/-- **A configuration block.** The genesis block or a later one, its one result is `VALID` only
for a valid configuration, and the entries built with it are committed. -/
theorem validateAndCommit_config {env : ConfigTxEnvelope}
    (h : p.validateAndCommit db (.configTxEnvelope env) = .ok db') :
    ∃ info dbsUpdates, configTxEntries p.codecs db (db.Height + 1) env [info] = .ok dbsUpdates ∧
      commitToStateDB db (db.Height + 1) dbsUpdates = .ok db' ∧
      (info.flag = .VALID → ∃ newConfig, env.payload.newConfig = some newConfig ∧
        (validateConfig p.libs newConfig).flag = .VALID) := by
  obtain ⟨validationInfo, dbsUpdates, hvalidate, hentries, hcommit⟩ := validateAndCommit_ok h
  rw [constructDBEntries_config] at hentries
  unfold ValidateBlock at hvalidate
  split_ifs at hvalidate
  · -- the genesis block: its one result is `VALID`, for a valid configuration
    obtain ⟨newConfig, hnew, hvalid, rfl⟩ := ConfigTxValidator.validateGenesis_ok hvalidate
    exact ⟨.valid, dbsUpdates, hentries, hcommit, fun _ => ⟨newConfig, hnew, hvalid⟩⟩
  · obtain ⟨valRes, hvalRes, rfl⟩ := Except.map_eq_ok.1 hvalidate
    refine ⟨valRes, dbsUpdates, hentries, hcommit, fun hflag => ?_⟩
    obtain ⟨newConfig, hnew, hvalid, -⟩ :=
      ConfigTxValidator.Validate_valid (Except.mapError_eq_ok.1 hvalRes) hflag
    exact ⟨newConfig, hnew, hvalid⟩

/-- A configuration block after the genesis block is validated against the committed state. -/
theorem validateAndCommit_config_of_ne_genesis {env : ConfigTxEnvelope} (hgenesis : db.Height + 1 ≠ 1)
    (h : p.validateAndCommit db (.configTxEnvelope env) = .ok db') :
    ∃ valRes dbsUpdates,
      (configTxValidator p.codecs p.libs (p.verifyConfigTx db) db).Validate db env = .ok valRes ∧
      configTxEntries p.codecs db (db.Height + 1) env [valRes] = .ok dbsUpdates ∧
      commitToStateDB db (db.Height + 1) dbsUpdates = .ok db' := by
  obtain ⟨validationInfo, dbsUpdates, hvalidate, hentries, hcommit⟩ := validateAndCommit_ok h
  rw [constructDBEntries_config] at hentries
  unfold ValidateBlock at hvalidate
  rw [if_neg hgenesis] at hvalidate
  obtain ⟨valRes, hvalRes, rfl⟩ := Except.map_eq_ok.1 hvalidate
  exact ⟨valRes, dbsUpdates, Except.mapError_eq_ok.1 hvalRes, hentries, hcommit⟩

/-- The genesis block is a configuration block with a valid configuration, and its one result
is `VALID`. -/
theorem ValidateBlock_genesis {payload : Payload} {validationInfo : List ValidationInfo}
    (h : p.ValidateBlock db 1 payload = .ok validationInfo) :
    ∃ env newConfig, payload = .configTxEnvelope env ∧ env.payload.newConfig = some newConfig ∧
      (validateConfig p.libs newConfig).flag = .VALID ∧ validationInfo = [.valid] := by
  unfold ValidateBlock at h
  rw [if_pos rfl] at h
  split at h
  · rename_i env
    obtain ⟨newConfig, hnew, hvalid, rfl⟩ := ConfigTxValidator.validateGenesis_ok h
    exact ⟨env, newConfig, rfl, hnew, hvalid, rfl⟩
  · cases h

/-- Each block is committed as the one after the committed height. -/
theorem validateAndCommit_Height {payload : Payload} (h : p.validateAndCommit db payload = .ok db') :
    db'.Height = db.Height + 1 := by
  obtain ⟨validationInfo, dbsUpdates, -, -, hcommit⟩ := validateAndCommit_ok h
  exact commitToStateDB_Height hcommit

/-- **Progress of the genesis block.** A new node commits a genesis block whose configuration is
valid. -/
theorem validateAndCommit_genesis_of_valid {env : ConfigTxEnvelope} {newConfig : ClusterConfig}
    (hnew : env.payload.newConfig = some newConfig)
    (hvalid : (validateConfig p.libs newConfig).flag = .VALID) :
    ∃ db', p.validateAndCommit LevelDB.Open (.configTxEnvelope env) = .ok db' := by
  obtain ⟨cc, hcc, hv⟩ := validateConfig_valid hvalid
  obtain ⟨rc, hrc⟩ := Option.isSome_iff_exists.1 hv.raftConfig_isSome
  have hvalidate : p.ValidateBlock LevelDB.Open 1 (.configTxEnvelope env) = .ok [.valid] := by
    unfold ValidateBlock ConfigTxValidator.validateGenesis
    rw [if_pos rfl]
    dsimp only
    rw [hnew]
    dsimp only
    rw [if_neg (by simp [configTxValidator, hvalid])]
  obtain ⟨entries, hentries⟩ : ∃ entries, constructDBEntriesForConfigTx p.codecs env.payload default
      ⟨1, Nat.toUInt64 0⟩ = .ok entries := by
    unfold constructDBEntriesForConfigTx
    rw [hnew]
    simp only [setMaxRaftId, hcc, hrc]
    exact ⟨_, rfl⟩
  have hentries' := configTxEntries_valid (LevelDB.GetConfig_Open p.codecs.config) hentries
  -- a new node has the two databases the block updates, and no index definition
  have hbatches : ∀ e ∈ configTxDBsUpdates entries,
      e.1 ≠ DatabasesDBName ∧ (LevelDB.Open.dbs e.1).isSome := by
    intro e he
    rcases configTxDBsUpdates_names e he with hname | hname
    · rw [hname]
      decide
    · rw [hname]
      decide
  obtain ⟨db', hdb'⟩ := LevelDB.Commit_of_isSome 1 hbatches (by decide)
  refine ⟨db', ?_⟩
  have hone : LevelDB.Open.Height + 1 = 1 := rfl
  simp only [validateAndCommit, hone, hvalidate, Except.ok_bind, constructDBEntries_config, hentries',
    Except.mapError, commitToStateDB_of_no_index fun e _ => ⟨none, LevelDB.GetIndexDefinition_Open e.1⟩,
    hdb']

end Processor

/-- A node whose libraries accept every certificate and whose verifiers accept every signature. -/
def acceptingProcessor : Processor :=
  ⟨exampleCodecs, acceptingLibs, fun _ => ⟨fun _ _ _ => none⟩, fun _ _ _ _ => none,
    fun _ _ _ _ => none, fun _ _ _ _ => none⟩

/-- Such a node commits the genesis block of the one-node cluster. -/
theorem acceptingProcessor_genesis :
    ∃ db, acceptingProcessor.validateAndCommit LevelDB.Open (.configTxEnvelope oneNodeGenesis) = .ok db :=
  Processor.validateAndCommit_genesis_of_valid rfl (by decide)

end Orion.BlockProcessor
