import Orion.TxValidation.ConfigTxValidator
import Orion.WorldState.Commit

/-!
# Committing a configuration block (`internal/blockprocessor/committer.go`, `internal/identity/db_entries.go`)

A valid configuration transaction is committed as three sets of updates
(`constructDBEntriesForConfigTx`): the cluster admins as users of `_users`
(`ConstructDBEntriesForClusterAdmins`), the nodes under their IDs in `_config`
(`ConstructDBEntriesForNodes`), and the new configuration under `config` in `_config`. The
committer does not take the `MaxRaftId` the transaction carries: it stores the largest of the
committed one and the Raft IDs of the new members. An invalid transaction commits nothing but the
block's number.

The committer's branch for a configuration block is `configTxEntries`, and `commitConfigBlock`
commits its entries to the world state (`LevelDB`); the messages are stored in their wire forms
(`Codecs`). The runs of such blocks are in `ConfigRun.lean`.

## What is proved

* `commitConfigBlock_valid`, `commitConfigBlock_invalid` — after a valid block `GetConfig` reads
  the new configuration with the committer's `MaxRaftId`; an invalid one leaves it.
* `RaftHistory.cons`, `committedConsensus_of_clone`, `safeConfigChange_of_clone` — the Raft
  membership invariant of a history of committed configurations, and that a configuration the
  committer stores after the transition rules accepted it extends it.
-/

namespace Orion.BlockProcessor

open Orion.State Orion.Types Orion.WorldState Orion.TxValidation Orion.Replication Orion.Lib

/-- The wire forms of the messages the committer stores. -/
structure Codecs where
  user : ProtoCodec User
  node : ProtoCodec NodeConfig
  config : ProtoCodec ClusterConfig

/-- `UserNamespace`: the byte `0` before a user's ID in `_users`. -/
def UserNamespace : String := "\x00"

/-- `NodeNamespace`: the byte `0` before a node's ID in `_config`. -/
def NodeNamespace : String := "\x00"

/-- One old identity in the loop of `constructIdentityEntries`: still there and unchanged, it
leaves the map of the new identities by ID; with its ID gone, it is deleted. -/
def identityEntriesStep {α : Type} [DecidableEq α] (id : α → String) (ns : String)
    (acc : (String → Option α) × List String) (old : α) : (String → Option α) × List String :=
  match acc.1 (id old) with
  | some new => (if old = new then Function.update acc.1 (id old) none else acc.1, acc.2)
  | none => (acc.1, acc.2 ++ [ns ++ id old])

/-- The entries of identities stored one per ID under a namespace, from the old list and the new
one: a write for each identity that is new or changed, a delete for each ID no longer there,
`nil` when nothing changes. The map of the new identities by ID is ranged over in the order of
their IDs. -/
def constructIdentityEntries {α : Type} [DecidableEq α] (id : α → String) (ns : String)
    (value : α → Bytes) (oldIdentities newIdentities : List α) (version : Version) :
    Option DBUpdates :=
  let newIds : String → Option α :=
    applyUpdates (fun _ => none) (newIdentities.map fun a => (id a, some a))
  let (newIds, deletes) := oldIdentities.foldl (identityEntriesStep id ns) (newIds, [])
  let kvWrites : List KVWithMetadata := ((newIdentities.map id).dedup.filterMap newIds).map fun a =>
    ⟨ns ++ id a, value a, some ⟨some version, none⟩⟩
  if kvWrites = [] ∧ deletes = [] then none else some ⟨kvWrites, deletes⟩

/-- `ConstructDBEntriesForClusterAdmins`: each admin is stored as a user with the admin privilege.
Marshalling does not fail. -/
def ConstructDBEntriesForClusterAdmins (userCodec : ProtoCodec User) (oldAdmins newAdmins : List Admin)
    (version : Version) : Option DBUpdates :=
  constructIdentityEntries Admin.id UserNamespace
    (fun admin => userCodec.Marshal ⟨admin.id, admin.certificate, some ⟨[], true⟩⟩)
    oldAdmins newAdmins version

/-- `ConstructDBEntriesForNodes`. -/
def ConstructDBEntriesForNodes (nodeCodec : ProtoCodec NodeConfig) (oldNodes newNodes : List NodeConfig)
    (version : Version) : Option DBUpdates :=
  constructIdentityEntries NodeConfig.id NodeNamespace nodeCodec.Marshal oldNodes newNodes version

/-- The `MaxRaftId` the committer stores: the largest of the committed one and the Raft IDs of
the new members. -/
def newMaxRaftId (oldConfig newConfig : ClusterConfig) : UInt64 :=
  newConfig.GetMembers.foldl (fun maxID m => if m.raftId > maxID then m.raftId else maxID)
    oldConfig.GetMaxRaftId

/-- `newConfigClone.ConsensusConfig.RaftConfig.MaxRaftId = maxID`: a `nil` consensus or Raft
configuration is dereferenced. -/
def setMaxRaftId (config : ClusterConfig) (maxID : UInt64) : Except String ClusterConfig :=
  match config.consensusConfig with
  | none => .error runtimeNilDereference
  | some consensusConfig =>
    match consensusConfig.raftConfig with
    | none => .error runtimeNilDereference
    | some raftConfig =>
      .ok { config with
        consensusConfig := some { consensusConfig with
          raftConfig := some { raftConfig with maxRaftId := maxID } } }

/-- `dbEntriesForConfigTx`. -/
structure dbEntriesForConfigTx where
  adminUpdates : Option DBUpdates
  nodeUpdates : Option DBUpdates
  configUpdates : DBUpdates

section Committer

variable (codecs : Codecs)

/-- `constructDBEntriesForConfigTx`. A transaction without a configuration is dereferenced. -/
def constructDBEntriesForConfigTx (tx : ConfigTx) (oldConfig : ClusterConfig) (version : Version) :
    Except String dbEntriesForConfigTx :=
  match tx.newConfig with
  | none => .error runtimeNilDereference
  | some newConfig => do
    let adminUpdates := ConstructDBEntriesForClusterAdmins codecs.user oldConfig.admins newConfig.admins version
    let nodeUpdates := ConstructDBEntriesForNodes codecs.node oldConfig.nodes newConfig.nodes version
    let newConfigClone ← setMaxRaftId newConfig (newMaxRaftId oldConfig newConfig)
    pure ⟨adminUpdates, nodeUpdates,
      ⟨[⟨ConfigKey, codecs.config.Marshal newConfigClone, some ⟨some version, none⟩⟩], []⟩⟩

/-- The updates of `_config` for a valid configuration transaction: the configuration, then the
node updates. -/
def configDBUpdates (entries : dbEntriesForConfigTx) : DBUpdates :=
  match entries.nodeUpdates with
  | some nodeUpdates =>
    ⟨entries.configUpdates.writes ++ nodeUpdates.writes,
      entries.configUpdates.deletes ++ nodeUpdates.deletes⟩
  | none => entries.configUpdates

/-- The updates of each database for a valid configuration transaction (the config branch of
`constructDBAndProvenanceEntries`). -/
def configTxDBsUpdates (entries : dbEntriesForConfigTx) : DBsUpdates :=
  let dbsUpdates := DBsUpdates.set [] ConfigDBName (configDBUpdates entries)
  match entries.adminUpdates with
  | some adminUpdates => DBsUpdates.set dbsUpdates UsersDBName adminUpdates
  | none => dbsUpdates

/-- `configTxIndex`. -/
def configTxIndex : Nat := 0

/-- The configuration branch of `constructDBAndProvenanceEntries`: no updates for an invalid
transaction, else the configuration with the admins and the nodes that changed, built from the
committed configuration. -/
def configTxEntries (db : LevelDB) (blockNum : UInt64) (env : ConfigTxEnvelope)
    (validationInfo : List ValidationInfo) : Except String DBsUpdates :=
  match validationInfo[configTxIndex]? with
  | none => .error "panic: index out of range [0] with length 0"
  | some info =>
    if info.flag != .VALID then .ok []
    else
      match db.GetConfig codecs.config with
      | .error err => .error ("error while fetching committed configuration: " ++ err)
      | .ok (committedConfig, _) =>
        match constructDBEntriesForConfigTx codecs env.payload committedConfig
            ⟨blockNum, configTxIndex.toUInt64⟩ with
        | .error err => .error ("error while constructing entries for the config transaction: " ++ err)
        | .ok entries => .ok (configTxDBsUpdates entries)

/-- `commitBlock` on the world state for a block of one configuration transaction, number
`blockNum`, with the validator's results: its entries, committed. `_config` and `_users` have no
index definition, so the commit has no index updates to add. -/
def commitConfigBlock (db : LevelDB) (blockNum : UInt64) (env : ConfigTxEnvelope)
    (validationInfo : List ValidationInfo) : Except String LevelDB := do
  let dbsUpdates ← configTxEntries codecs db blockNum env validationInfo
  db.Commit dbsUpdates blockNum

end Committer

/-! ### The entries of a configuration transaction -/

section Entries

variable {α : Type} [DecidableEq α] {id : α → String} {ns : String}

/-- The loop over the old identities deletes only keys of the namespace. -/
theorem identityEntriesStep_deletes :
    ∀ (olds : List α) (acc : (String → Option α) × List String),
      (∀ k ∈ acc.2, ∃ i, k = ns ++ i) →
      ∀ k ∈ (olds.foldl (identityEntriesStep id ns) acc).2, ∃ i, k = ns ++ i
  | [], _, hacc => hacc
  | old :: olds, acc, hacc => by
    refine identityEntriesStep_deletes olds _ ?_
    unfold identityEntriesStep
    split
    · exact hacc
    · intro k hk
      rcases List.mem_append.1 hk with hk | hk
      · exact hacc k hk
      · exact ⟨id old, List.mem_singleton.1 hk⟩

/-- Every key the entries of identities write or delete is in their namespace. -/
theorem constructIdentityEntries_keys {value : α → Bytes} {olds news : List α} {version : Version}
    {updates : DBUpdates} (h : constructIdentityEntries id ns value olds news version = some updates) :
    (∀ kv ∈ updates.writes, ∃ i, kv.key = ns ++ i) ∧ ∀ k ∈ updates.deletes, ∃ i, k = ns ++ i := by
  unfold constructIdentityEntries at h
  have hdeletes := @identityEntriesStep_deletes _ _ id ns olds
    (applyUpdates (fun _ => none) (news.map fun a => (id a, some a)), [])
    (fun _ hk => absurd hk List.not_mem_nil)
  dsimp only at h
  split_ifs at h
  cases h
  refine ⟨fun kv hkv => ?_, hdeletes⟩
  obtain ⟨a, -, rfl⟩ := List.mem_map.1 hkv
  exact ⟨id a, rfl⟩

end Entries

/-- The namespaced keys of nodes are not the configuration's key. -/
theorem NodeNamespace_append_ne_ConfigKey (i : String) : NodeNamespace ++ i ≠ ConfigKey := by
  intro h
  have hchars := congrArg String.toList h
  simp [NodeNamespace, ConfigKey] at hchars

theorem ConfigDBName_ne_UsersDBName : ConfigDBName ≠ UsersDBName := by decide

/-- A configuration transaction updates `_config` and `_users` only. -/
theorem configTxDBsUpdates_names {entries : dbEntriesForConfigTx} :
    ∀ e ∈ configTxDBsUpdates entries, e.1 = ConfigDBName ∨ e.1 = UsersDBName := by
  unfold configTxDBsUpdates
  split
  · simp only [DBsUpdates.set, List.any_nil, Bool.false_eq_true, if_false, List.nil_append,
      List.any_cons, Bool.or_false, beq_iff_eq, ConfigDBName_ne_UsersDBName]
    intro e he
    rcases List.mem_append.1 he with he | he
    · exact .inl (congrArg Prod.fst (List.mem_singleton.1 he))
    · exact .inr (congrArg Prod.fst (List.mem_singleton.1 he))
  · simp [DBsUpdates.set]

/-- `_config` gets the batch `configDBUpdates`. -/
theorem applyBatches_configTxDBsUpdates (dbs : String → Option KVStore) (entries : dbEntriesForConfigTx) :
    applyBatches dbs (configTxDBsUpdates entries) ConfigDBName =
      (dbs ConfigDBName).map (applyBatch · (configDBUpdates entries)) := by
  unfold configTxDBsUpdates
  split
  · simp only [DBsUpdates.set, List.any_nil, Bool.false_eq_true, if_false, List.nil_append,
      List.any_cons, Bool.or_false, beq_iff_eq, ConfigDBName_ne_UsersDBName,
      List.cons_append, applyBatches, List.foldl_cons, List.foldl_nil]
    rw [Function.update_of_ne ConfigDBName_ne_UsersDBName, Function.update_self]
  · simp [DBsUpdates.set, applyBatches]

/-- What `constructDBEntriesForConfigTx` builds: the new configuration with the new `MaxRaftId`
under `config`, and the node updates. -/
theorem constructDBEntriesForConfigTx_ok {codecs : Codecs} {tx : ConfigTx} {oldConfig : ClusterConfig}
    {version : Version} {entries : dbEntriesForConfigTx}
    (h : constructDBEntriesForConfigTx codecs tx oldConfig version = .ok entries) :
    ∃ newConfig newConfigClone, tx.newConfig = some newConfig ∧
      setMaxRaftId newConfig (newMaxRaftId oldConfig newConfig) = .ok newConfigClone ∧
      entries.configUpdates =
        ⟨[⟨ConfigKey, codecs.config.Marshal newConfigClone, some ⟨some version, none⟩⟩], []⟩ ∧
      entries.nodeUpdates = ConstructDBEntriesForNodes codecs.node oldConfig.nodes newConfig.nodes version := by
  unfold constructDBEntriesForConfigTx at h
  split at h
  · cases h
  · rename_i newConfig hnew
    obtain ⟨newConfigClone, hclone, hentries⟩ := Except.bind_eq_ok.1 h
    cases hentries
    exact ⟨newConfig, newConfigClone, hnew, hclone, rfl, rfl⟩

/-- The updates of a configuration block: none for an invalid one, else those of
`configTxDBsUpdates`, built from the committed configuration. -/
theorem configTxEntries_ok {codecs : Codecs} {db : LevelDB} {blockNum : UInt64}
    {env : ConfigTxEnvelope} {info : ValidationInfo} {dbsUpdates : DBsUpdates}
    (h : configTxEntries codecs db blockNum env [info] = .ok dbsUpdates) :
    (info.flag ≠ .VALID ∧ dbsUpdates = []) ∨
      (info.flag = .VALID ∧ ∃ committedConfig metadata entries,
        db.GetConfig codecs.config = .ok (committedConfig, metadata) ∧
        constructDBEntriesForConfigTx codecs env.payload committedConfig ⟨blockNum, 0⟩ = .ok entries ∧
        dbsUpdates = configTxDBsUpdates entries) := by
  simp only [configTxEntries, configTxIndex, List.getElem?_cons_zero] at h
  split_ifs at h with hflag
  · cases h
    exact .inl ⟨by simpa using hflag, rfl⟩
  · split at h
    · cases h
    · rename_i committedConfig metadata hget
      split at h
      · cases h
      · rename_i entries hentries
        cases h
        exact .inr ⟨by simpa using hflag, committedConfig, metadata, entries, hget, hentries, rfl⟩

/-- A valid configuration transaction has the entries built from the committed configuration. -/
theorem configTxEntries_valid {codecs : Codecs} {db : LevelDB} {blockNum : UInt64}
    {env : ConfigTxEnvelope} {committedConfig : ClusterConfig} {metadata : Option Metadata}
    {entries : dbEntriesForConfigTx} (hget : db.GetConfig codecs.config = .ok (committedConfig, metadata))
    (hentries : constructDBEntriesForConfigTx codecs env.payload committedConfig ⟨blockNum, 0⟩ = .ok entries) :
    configTxEntries codecs db blockNum env [.valid] = .ok (configTxDBsUpdates entries) := by
  simp only [configTxEntries, configTxIndex, List.getElem?_cons_zero, valid_flag, bne_self_eq_false,
    Bool.false_eq_true, if_false, hget]
  rw [show (Nat.toUInt64 0) = 0 from rfl, hentries]

/-- The configuration is the last value of its key in the batch of `_config`: the node updates
never name it. -/
theorem applyBatch_configDBUpdates {entries : dbEntriesForConfigTx} {value : Bytes}
    {metadata : Option Metadata}
    (hconfig : entries.configUpdates = ⟨[⟨ConfigKey, value, metadata⟩], []⟩)
    (hnodes : ∀ u, entries.nodeUpdates = some u →
      (∀ kv ∈ u.writes, ∃ i, kv.key = NodeNamespace ++ i) ∧ ∀ k ∈ u.deletes, ∃ i, k = NodeNamespace ++ i)
    (db : KVStore) :
    applyBatch db (configDBUpdates entries) ConfigKey = some ⟨value, metadata⟩ := by
  unfold configDBUpdates
  split
  · rename_i u hu
    obtain ⟨hwrites, hdeletes⟩ := hnodes u hu
    have hpost : ConfigKey ∉ u.writes.map (·.key) := by
      intro hmem
      obtain ⟨kv, hkv, hkey⟩ := List.mem_map.1 hmem
      obtain ⟨i, hi⟩ := hwrites kv hkv
      exact NodeNamespace_append_ne_ConfigKey i (hi ▸ hkey)
    have hdel : ConfigKey ∉ entries.configUpdates.deletes ++ u.deletes := by
      rw [hconfig, List.nil_append]
      intro hmem
      obtain ⟨i, hi⟩ := hdeletes _ hmem
      exact NodeNamespace_append_ne_ConfigKey i hi.symm
    have hlast : applyBatch db ⟨[] ++ ⟨ConfigKey, value, metadata⟩ :: u.writes,
        entries.configUpdates.deletes ++ u.deletes⟩ ConfigKey = some ⟨value, metadata⟩ :=
      applyBatch_of_last_write hpost hdel
    rw [hconfig] at hlast ⊢
    exact hlast
  · rw [hconfig]
    have hlast : applyBatch db ⟨[] ++ [⟨ConfigKey, value, metadata⟩], []⟩ ConfigKey =
        some ⟨value, metadata⟩ :=
      applyBatch_of_last_write List.not_mem_nil List.not_mem_nil
    exact hlast

variable {codecs : Codecs}

/-- **A valid configuration block.** The committed configuration is read, and after the commit
`GetConfig` reads the new configuration with the new `MaxRaftId`. -/
theorem commitConfigBlock_valid {db db' : LevelDB} {blockNum : UInt64} {env : ConfigTxEnvelope}
    {info : ValidationInfo} (hvalid : info.flag = .VALID)
    (h : commitConfigBlock codecs db blockNum env [info] = .ok db') :
    ∃ committedConfig metadata newConfig newConfigClone,
      db.GetConfig codecs.config = .ok (committedConfig, metadata) ∧
      env.payload.newConfig = some newConfig ∧
      setMaxRaftId newConfig (newMaxRaftId committedConfig newConfig) = .ok newConfigClone ∧
      db'.GetConfig codecs.config = .ok (newConfigClone, some ⟨some ⟨blockNum, 0⟩, none⟩) := by
  obtain ⟨dbsUpdates, hentries, hcommit⟩ := Except.bind_eq_ok.1 h
  rcases configTxEntries_ok hentries with ⟨hinvalid, -⟩ |
    ⟨-, committedConfig, metadata, entries, hget, hconstruct, rfl⟩
  · exact absurd hvalid hinvalid
  obtain ⟨newConfig, newConfigClone, hnew, hclone, hconfig, hnodes⟩ :=
    constructDBEntriesForConfigTx_ok hconstruct
  refine ⟨committedConfig, metadata, newConfig, newConfigClone, hget, hnew, hclone, ?_⟩
  -- the commit touches `_config` and `_users`, neither of which is `_dbs`
  have hnames : ∀ e ∈ configTxDBsUpdates entries, e.1 ≠ DatabasesDBName := by
    intro e he
    rcases configTxDBsUpdates_names e he with hname | hname
    · rw [hname]
      decide
    · rw [hname]
      decide
  have hdbs := LevelDB.dbs_of_Commit hnames hcommit
  obtain ⟨db₀, hdb₀⟩ := LevelDB.configDB_of_GetConfig hget
  apply LevelDB.GetConfig_of_entry
  rw [LevelDB.entry, hdbs, applyBatches_configTxDBsUpdates, hdb₀, Option.map_some, Option.bind_some]
  exact applyBatch_configDBUpdates hconfig (fun u hu => constructIdentityEntries_keys (hnodes ▸ hu)) db₀

/-- An invalid configuration block leaves the configuration as it was. -/
theorem commitConfigBlock_invalid {db db' : LevelDB} {blockNum : UInt64} {env : ConfigTxEnvelope}
    {info : ValidationInfo} (hinvalid : info.flag ≠ .VALID)
    (h : commitConfigBlock codecs db blockNum env [info] = .ok db') :
    db'.GetConfig codecs.config = db.GetConfig codecs.config := by
  obtain ⟨dbsUpdates, hentries, hcommit⟩ := Except.bind_eq_ok.1 h
  rcases configTxEntries_ok hentries with ⟨-, rfl⟩ | ⟨hvalid, -⟩
  · exact LevelDB.GetConfig_congr
      (LevelDB.dbs_of_Commit (fun _ he => absurd he List.not_mem_nil) hcommit)
  · exact absurd hvalid hinvalid

/-! ### The Raft membership history -/

/-- The committer's running maximum is at least where it starts and every Raft ID it reads. -/
theorem le_foldl_raftId (members : List PeerConfig) : ∀ init : UInt64,
    init ≤ members.foldl (fun maxID m => if m.raftId > maxID then m.raftId else maxID) init ∧
      ∀ m ∈ members,
        m.raftId ≤ members.foldl (fun maxID m => if m.raftId > maxID then m.raftId else maxID) init := by
  induction members with
  | nil => exact fun init => ⟨UInt64.le_refl init, fun _ h => absurd h List.not_mem_nil⟩
  | cons m rest ih =>
    intro init
    rw [List.foldl_cons]
    obtain ⟨hstart, hrest⟩ := ih (if m.raftId > init then m.raftId else init)
    -- one step of the running maximum
    have hinit : init ≤ (if m.raftId > init then m.raftId else init) := by
      split_ifs with hgt
      · exact UInt64.le_of_lt hgt
      · exact UInt64.le_refl init
    have hm : m.raftId ≤ (if m.raftId > init then m.raftId else init) := by
      split_ifs with hgt
      · exact UInt64.le_refl _
      · exact UInt64.not_lt.1 hgt
    refine ⟨UInt64.le_trans hinit hstart, fun x hx => ?_⟩
    rcases List.mem_cons.1 hx with rfl | hx
    · exact UInt64.le_trans hm hstart
    · exact hrest x hx

theorem GetMaxRaftId_le_newMaxRaftId (oldConfig newConfig : ClusterConfig) :
    oldConfig.GetMaxRaftId ≤ newMaxRaftId oldConfig newConfig :=
  (le_foldl_raftId _ _).1

theorem raftId_le_newMaxRaftId {oldConfig newConfig : ClusterConfig} {m : PeerConfig}
    (hm : m ∈ newConfig.GetMembers) : m.raftId ≤ newMaxRaftId oldConfig newConfig :=
  (le_foldl_raftId _ _).2 m hm

/-- The clone the committer stores: the configuration with only its `MaxRaftId` replaced. -/
theorem setMaxRaftId_ok {config newConfigClone : ClusterConfig} {maxID : UInt64}
    (h : setMaxRaftId config maxID = .ok newConfigClone) :
    ∃ cc rc, config.consensusConfig = some cc ∧ cc.raftConfig = some rc ∧
      newConfigClone = { config with
        consensusConfig := some { cc with raftConfig := some { rc with maxRaftId := maxID } } } := by
  unfold setMaxRaftId at h
  split at h
  · cases h
  · rename_i cc hcc
    split at h
    · cases h
    · rename_i rc hrc
      cases h
      exact ⟨cc, rc, hcc, hrc, rfl⟩

theorem GetMembers_of_consensusConfig {c : ClusterConfig} {cc : ConsensusConfig}
    (h : c.consensusConfig = some cc) : c.GetMembers = cc.members := by
  simp [ClusterConfig.GetMembers, h]

theorem GetPeers_of_consensusConfig {c : ClusterConfig} {cc : ConsensusConfig}
    (h : c.consensusConfig = some cc) : c.GetPeers = cc.members ++ cc.observers := by
  simp [ClusterConfig.GetPeers, h]

theorem GetMaxRaftId_of_raftConfig {c : ClusterConfig} {cc : ConsensusConfig} {rc : RaftConfig}
    (h : c.consensusConfig = some cc) (hrc : cc.raftConfig = some rc) :
    c.GetMaxRaftId = rc.maxRaftId := by
  simp [ClusterConfig.GetMaxRaftId, h, hrc]

theorem mem_GetPeers_of_mem_GetMembers {c : ClusterConfig} {m : PeerConfig}
    (hm : m ∈ c.GetMembers) : m ∈ c.GetPeers := by
  cases hcc : c.consensusConfig with
  | none => simp [ClusterConfig.GetMembers, hcc] at hm
  | some cc =>
    rw [GetMembers_of_consensusConfig hcc] at hm
    rw [GetPeers_of_consensusConfig hcc]
    exact List.mem_append_left _ hm

/-- No member of a list is new to it. -/
theorem addedMembers_self (members : List PeerConfig) : addedMembers members members = [] := by
  refine List.filter_eq_nil_iff.2 fun m hm => ?_
  simpa using List.mem_map_of_mem (f := (·.nodeId)) hm

/-- What each committed configuration satisfies on its own. -/
structure CommittedConsensus (c : ClusterConfig) : Prop where
  /-- A valid consensus configuration. -/
  valid : ∃ cc, c.consensusConfig = some cc ∧ ConsensusValid cc
  /-- Its `MaxRaftId` bounds its own Raft IDs. -/
  raftId_le : ∀ p ∈ c.GetPeers, p.raftId ≤ c.GetMaxRaftId

/-- A committed configuration after the one before it. -/
structure SafeConfigChange (newer older : ClusterConfig) : Prop where
  /-- `MaxRaftId` does not go down. -/
  maxRaftId_le : older.GetMaxRaftId ≤ newer.GetMaxRaftId
  /-- A node that stays a member keeps its Raft ID. -/
  keepsRaftId : ∀ m ∈ older.GetMembers, ∀ m' ∈ newer.GetMembers,
    m.nodeId = m'.nodeId → m.raftId = m'.raftId
  /-- A new member's Raft ID is above the `MaxRaftId` before it. -/
  newRaftId : ∀ m' ∈ newer.GetMembers, m'.nodeId ∉ older.GetMembers.map (·.nodeId) →
    older.GetMaxRaftId < m'.raftId
  /-- At most one member added or removed. -/
  oneChange : (addedMembers older.GetMembers newer.GetMembers).length +
    (addedMembers newer.GetMembers older.GetMembers).length ≤ 1

/-- The Raft membership invariant of the committed configurations, newest first. -/
structure RaftHistory (configs : List ClusterConfig) : Prop where
  committed : ∀ c ∈ configs, CommittedConsensus c
  chain : configs.IsChain SafeConfigChange
  /-- The `MaxRaftId` of each bounds the Raft IDs of all before it. -/
  bounded : configs.Pairwise fun newer older => ∀ p ∈ older.GetPeers, p.raftId ≤ newer.GetMaxRaftId
  /-- A Raft ID names one node over the whole history. -/
  raftId_nodeId : ∀ c ∈ configs, ∀ c' ∈ configs, ∀ m ∈ c.GetMembers, ∀ m' ∈ c'.GetMembers,
    m.raftId = m'.raftId → m.nodeId = m'.nodeId

/-- A configuration read again: nothing changed. -/
theorem SafeConfigChange.refl {c : ClusterConfig} (h : CommittedConsensus c) : SafeConfigChange c c := by
  obtain ⟨cc, hcc, hvalid⟩ := h.valid
  refine ⟨UInt64.le_refl _, fun m hm m' hm' hid => ?_, fun m' hm' hnew => ?_, ?_⟩
  · rw [GetMembers_of_consensusConfig hcc] at hm hm'
    rw [List.inj_on_of_nodup_map hvalid.nodeIds_nodup hm hm' hid]
  · exact absurd (List.mem_map_of_mem hm') hnew
  · rw [addedMembers_self]
    decide

namespace RaftHistory

/-- Within one configuration a Raft ID names one member. -/
theorem raftId_nodeId_single {c : ClusterConfig} (h : CommittedConsensus c) {m m' : PeerConfig}
    (hm : m ∈ c.GetMembers) (hm' : m' ∈ c.GetMembers) (hraft : m.raftId = m'.raftId) :
    m.nodeId = m'.nodeId := by
  obtain ⟨cc, hcc, hvalid⟩ := h.valid
  rw [GetMembers_of_consensusConfig hcc] at hm hm'
  rw [List.inj_on_of_nodup_map hvalid.raftIds_nodup hm hm' hraft]

/-- The history of the genesis configuration. -/
theorem single {c : ClusterConfig} (h : CommittedConsensus c) : RaftHistory [c] where
  committed := fun _ hc => List.mem_singleton.1 hc ▸ h
  chain := List.isChain_singleton c
  bounded := List.pairwise_singleton _ c
  raftId_nodeId := by
    intro c₁ hc₁ c₂ hc₂ m hm m' hm' hraft
    rw [List.mem_singleton.1 hc₁] at hm
    rw [List.mem_singleton.1 hc₂] at hm'
    exact raftId_nodeId_single h hm hm' hraft

/-- The newest configuration's `MaxRaftId` bounds every Raft ID of the history. -/
theorem bounded_head {c : ClusterConfig} {older : List ClusterConfig} (h : RaftHistory (c :: older)) :
    ∀ d ∈ c :: older, ∀ p ∈ d.GetPeers, p.raftId ≤ c.GetMaxRaftId := by
  intro d hd
  rcases List.mem_cons.1 hd with rfl | hd
  · exact (h.committed d List.mem_cons_self).raftId_le
  · exact (List.pairwise_cons.1 h.bounded).1 d hd

variable {new old : ClusterConfig} {rest : List ClusterConfig}

/-- A member of a new configuration shares its Raft ID only with its own node: it kept the Raft ID
of its node, or took one above every Raft ID before. -/
theorem raftId_nodeId_new (h : RaftHistory (old :: rest)) (hnew : CommittedConsensus new)
    (hsafe : SafeConfigChange new old) :
    ∀ m ∈ new.GetMembers, ∀ d ∈ new :: old :: rest, ∀ m' ∈ d.GetMembers,
      m.raftId = m'.raftId → m.nodeId = m'.nodeId := by
  intro m hm d hd m' hm' hraft
  rcases List.mem_cons.1 hd with rfl | hd
  · exact raftId_nodeId_single hnew hm hm' hraft
  by_cases hstay : m.nodeId ∈ old.GetMembers.map (·.nodeId)
  · -- the node was a member before, with the same Raft ID
    obtain ⟨m'', hm'', hid⟩ := List.mem_map.1 hstay
    have hkeep : m''.raftId = m.raftId := hsafe.keepsRaftId m'' hm'' m hm hid
    rw [← hid]
    exact h.raftId_nodeId old List.mem_cons_self d hd m'' hm'' m' hm' (hkeep.trans hraft)
  · -- a new member's Raft ID is above every Raft ID before it
    have hlt : old.GetMaxRaftId < m.raftId := hsafe.newRaftId m hm hstay
    have hle : m'.raftId ≤ old.GetMaxRaftId :=
      h.bounded_head d hd m' (mem_GetPeers_of_mem_GetMembers hm')
    rw [← hraft] at hle
    exact absurd hle (UInt64.not_le.2 hlt)

/-- **The step.** A new committed configuration after a safe change keeps the invariant. -/
theorem cons (h : RaftHistory (old :: rest)) (hnew : CommittedConsensus new)
    (hsafe : SafeConfigChange new old) : RaftHistory (new :: old :: rest) where
  committed := by
    intro c hc
    rcases List.mem_cons.1 hc with rfl | hc
    · exact hnew
    · exact h.committed c hc
  chain := List.isChain_cons_cons.2 ⟨hsafe, h.chain⟩
  bounded := by
    refine List.pairwise_cons.2 ⟨fun d hd p hp => ?_, h.bounded⟩
    exact UInt64.le_trans (h.bounded_head d hd p hp) hsafe.maxRaftId_le
  raftId_nodeId := by
    intro c hc c' hc' m hm m' hm' hraft
    rcases List.mem_cons.1 hc with rfl | hcOld
    · exact h.raftId_nodeId_new hnew hsafe m hm c' hc' m' hm' hraft
    rcases List.mem_cons.1 hc' with rfl | hcOld'
    · exact (h.raftId_nodeId_new hnew hsafe m' hm' c (List.mem_cons_of_mem _ hcOld) m hm
        hraft.symm).symm
    · exact h.raftId_nodeId c hcOld c' hcOld' m hm m' hm' hraft

end RaftHistory

/-- The configuration the committer stores for a valid new configuration is a committed one. -/
theorem committedConsensus_of_clone {oldConfig newConfig newConfigClone : ClusterConfig}
    {cc : ConsensusConfig} (hcc : newConfig.consensusConfig = some cc) (hvalid : ConsensusValid cc)
    (hclone : setMaxRaftId newConfig (newMaxRaftId oldConfig newConfig) = .ok newConfigClone) :
    CommittedConsensus newConfigClone := by
  obtain ⟨cc', rc, hcc', -, rfl⟩ := setMaxRaftId_ok hclone
  rw [hcc] at hcc'
  cases hcc'
  refine ⟨⟨_, rfl, hvalid.nodeIds_nodup, hvalid.raftIds_nodup, hvalid.observers_raftId, rfl⟩, ?_⟩
  intro p hp
  rw [GetPeers_of_consensusConfig rfl] at hp
  rw [GetMaxRaftId_of_raftConfig rfl rfl]
  rcases List.mem_append.1 hp with hp | hp
  · -- a member: the committer's maximum read its Raft ID
    exact raftId_le_newMaxRaftId (by rw [GetMembers_of_consensusConfig hcc]; exact hp)
  · -- an observer has no Raft ID
    rw [hvalid.observers_raftId p hp]
    exact UInt64.zero_le

/-- The change from the committed configuration to the one the committer stores is safe, when
the transition rules accepted it. -/
theorem safeConfigChange_of_clone {oldConfig newConfig newConfigClone : ClusterConfig}
    {cc : ConsensusConfig} (hold : CommittedConsensus oldConfig) (hcc : newConfig.consensusConfig = some cc)
    (hclone : setMaxRaftId newConfig (newMaxRaftId oldConfig newConfig) = .ok newConfigClone)
    (hrules : oldConfig.consensusConfig = newConfig.consensusConfig ∨
      VerifyConsensusReConfig oldConfig.consensusConfig newConfig.consensusConfig = .ok ()) :
    SafeConfigChange newConfigClone oldConfig := by
  obtain ⟨cc', rc, hcc', -, rfl⟩ := setMaxRaftId_ok hclone
  rw [hcc] at hcc'
  cases hcc'
  obtain ⟨ccOld, hccOld, hvOld⟩ := hold.valid
  -- what the rules guarantee of the members, unchanged or changed
  have hfacts : (∀ m ∈ ccOld.members, ∀ m' ∈ cc.members, m.nodeId = m'.nodeId → m.raftId = m'.raftId) ∧
      (∀ m' ∈ cc.members, m'.nodeId ∉ ccOld.members.map (·.nodeId) →
        ∃ rc, ccOld.raftConfig = some rc ∧ rc.maxRaftId < m'.raftId) ∧
      (addedMembers ccOld.members cc.members).length +
        (addedMembers cc.members ccOld.members).length ≤ 1 := by
    rcases hrules with hsame | hverify
    · rw [hccOld, hcc] at hsame
      cases hsame
      refine ⟨fun m hm m' hm' hid => ?_, fun m' hm' hnew => absurd (List.mem_map_of_mem hm') hnew, ?_⟩
      · rw [List.inj_on_of_nodup_map hvOld.nodeIds_nodup hm hm' hid]
      · rw [addedMembers_self]
        decide
    · rw [hccOld, hcc] at hverify
      exact VerifyConsensusReConfig_ok hvOld.nodeIds_nodup hverify
  obtain ⟨hkeep, hnewId, hcount⟩ := hfacts
  have hmembers : ({ newConfig with consensusConfig := some { cc with
      raftConfig := some { rc with maxRaftId := newMaxRaftId oldConfig newConfig } } } :
        ClusterConfig).GetMembers = cc.members := rfl
  have hmembersOld : oldConfig.GetMembers = ccOld.members := GetMembers_of_consensusConfig hccOld
  refine ⟨?_, ?_, ?_, ?_⟩
  · -- the stored `MaxRaftId` is the committer's maximum
    exact GetMaxRaftId_le_newMaxRaftId _ _
  · rw [hmembersOld, hmembers]
    exact hkeep
  · rw [hmembersOld, hmembers]
    intro m' hm' hnotin
    obtain ⟨rcOld, hrcOld, hlt⟩ := hnewId m' hm' hnotin
    rw [GetMaxRaftId_of_raftConfig hccOld hrcOld]
    exact hlt
  · rw [hmembersOld, hmembers]
    exact hcount

/-- **Progress.** A valid configuration transaction is committed on a world state that holds a
configuration, the users and the metadata. -/
theorem commitConfigBlock_progress {db : LevelDB} {committedConfig : ClusterConfig}
    {metadata : Option Metadata} {blockNum : UInt64} {env : ConfigTxEnvelope} {newConfig : ClusterConfig}
    {cc : ConsensusConfig} (hget : db.GetConfig codecs.config = .ok (committedConfig, metadata))
    (husers : (db.dbs UsersDBName).isSome) (hmeta : (db.dbs MetadataDBName).isSome)
    (hnew : env.payload.newConfig = some newConfig) (hcc : newConfig.consensusConfig = some cc)
    (hrc : cc.raftConfig.isSome) :
    ∃ db', commitConfigBlock codecs db blockNum env [.valid] = .ok db' := by
  obtain ⟨rc, hrc⟩ := Option.isSome_iff_exists.1 hrc
  obtain ⟨db₀, hdb₀⟩ := LevelDB.configDB_of_GetConfig hget
  obtain ⟨entries, hentries⟩ : ∃ entries, constructDBEntriesForConfigTx codecs env.payload
      committedConfig ⟨blockNum, Nat.toUInt64 0⟩ = .ok entries := by
    unfold constructDBEntriesForConfigTx
    rw [hnew]
    simp only [setMaxRaftId, hcc, hrc]
    exact ⟨_, rfl⟩
  -- both databases of the commit exist, and neither is `_dbs`
  have hbatches : ∀ e ∈ configTxDBsUpdates entries, e.1 ≠ DatabasesDBName ∧ (db.dbs e.1).isSome := by
    intro e he
    rcases configTxDBsUpdates_names e he with hname | hname
    · rw [hname, hdb₀]
      exact ⟨by decide, rfl⟩
    · rw [hname]
      exact ⟨by decide, husers⟩
  obtain ⟨db', hdb'⟩ := LevelDB.Commit_of_isSome blockNum hbatches hmeta
  refine ⟨db', ?_⟩
  rw [commitConfigBlock, configTxEntries_valid hget hentries, Except.ok_bind]
  exact hdb'


/-- Libraries that accept every certificate, address and duration. -/
def acceptingLibs : ConfigLibs where
  CACertCollection := Unit
  NewCACertCollection _ _ := .ok ()
  VerifyCollection _ := none
  VerifyLeafCert _ _ := none
  ParseIP _ := true
  urlHostname host := .ok host
  ParseDuration _ := .ok 1

/-! ### An example cluster

A cluster of one node, `node1`, that `node2` joins as a second Raft member. The configurations
as committed carry the `MaxRaftId` the committer computes. -/

/-- The first node and its Raft peer. -/
def node1 : NodeConfig := ⟨"node1", "10.0.0.1", 6001, [1]⟩
def peer1 : PeerConfig := ⟨"node1", 1, "10.0.0.1", 7001⟩

/-- The second node and its Raft peer. -/
def node2 : NodeConfig := ⟨"node2", "10.0.0.2", 6002, [4]⟩
def peer2 : PeerConfig := ⟨"node2", 2, "10.0.0.2", 7002⟩

/-- The cluster admin, and the user it is stored as. -/
def clusterAdmin : Admin := ⟨"admin", [2]⟩
def clusterAdminUser : User := ⟨"admin", [2], some ⟨[], true⟩⟩

/-- The Raft settings, with a `MaxRaftId`. -/
def exampleRaftConfig (maxRaftId : UInt64) : RaftConfig := ⟨"100ms", 10, 1, 50, 0, maxRaftId⟩

/-- A cluster of one node, which is its only Raft member, as the genesis block gives it. -/
def oneNodeConfig : ClusterConfig :=
  ⟨[node1], [clusterAdmin], some ⟨[[3]], []⟩, some ⟨"raft", [peer1], [], some (exampleRaftConfig 0)⟩⟩

/-- The same cluster as committed. -/
def oneNodeCommitted : ClusterConfig :=
  ⟨[node1], [clusterAdmin], some ⟨[[3]], []⟩, some ⟨"raft", [peer1], [], some (exampleRaftConfig 1)⟩⟩

/-- The cluster with `node2` as a second member, as the admin writes it after reading the
committed one. -/
def twoNodeConfig : ClusterConfig :=
  ⟨[node1, node2], [clusterAdmin], some ⟨[[3]], []⟩,
    some ⟨"raft", [peer1, peer2], [], some (exampleRaftConfig 1)⟩⟩

/-- The same cluster as committed. -/
def twoNodeCommitted : ClusterConfig :=
  ⟨[node1, node2], [clusterAdmin], some ⟨[[3]], []⟩,
    some ⟨"raft", [peer1, peer2], [], some (exampleRaftConfig 2)⟩⟩

/-- The genesis transaction of the one-node cluster. -/
def oneNodeGenesis : ConfigTxEnvelope := ⟨⟨"admin", "genesis", none, some oneNodeConfig⟩, []⟩

/-- The configuration transaction by which `node2` joins, written by the admin against the
configuration of block `1`. -/
def joinNode2 : ConfigTxEnvelope := ⟨⟨"admin", "join-node2", some ⟨1, 0⟩, some twoNodeConfig⟩, []⟩

/-- The wire forms of the example cluster's messages, which number its admin's user, its nodes
and its committed configurations. -/
def exampleCodecs : Codecs :=
  ⟨.numbered User [clusterAdminUser], .numbered NodeConfig [node1, node2],
    .numbered ClusterConfig [oneNodeCommitted, twoNodeCommitted]⟩

end Orion.BlockProcessor
