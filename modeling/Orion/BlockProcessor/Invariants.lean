import Orion.BlockProcessor.Processor

/-!
# What every world state a node reaches holds

The identities of a cluster are stored twice: in the configuration, under `config` in `_config`,
and as entries of their own, the admins as users with the admin privilege in `_users` and the
nodes in `_config`. Only a configuration block changes the configuration, and it writes the
difference of the admins and of the nodes with it; a user administration block may write users
but, when valid, none with the admin privilege and none that is an admin.

`IdentitiesMirrored` says that the two agree: each admin of the configuration is stored as its
user, a stored user that decodes to one with the admin privilege is an admin of the
configuration, each node is stored under its ID, and nothing else is stored under the node
namespace. `WorldStateInv` adds that the system databases and the default one exist.

## What is proved

* `Processor.Reachable.worldStateInv` — the invariant holds of every world state a node reaches,
  whatever blocks it processes: each kind of block keeps it (`WorldStateInv.step`), the
  configuration block because the difference it writes moves the mirror to the new configuration
  (`IdentitiesMirrored.config_step`).
-/

namespace Orion.BlockProcessor

open Orion.State Orion.Types Orion.WorldState Orion.StateIndex Orion.TxValidation Orion.Identity

/-- The user a cluster admin is stored as (`ConstructDBEntriesForClusterAdmins`). -/
def adminUser (admin : Admin) : User := ⟨admin.id, admin.certificate, some ⟨[], true⟩⟩

/-- An admin's user is never stored as the empty value, which would read as no user. -/
theorem Marshal_adminUser_ne_nil (userCodec : ProtoCodec User) (admin : Admin) :
    userCodec.Marshal (adminUser admin) ≠ [] :=
  -- the empty message has no privilege
  userCodec.Marshal_ne_nil fun h => nomatch congrArg User.privilege h

/-- The identities the world state stores mirror the configuration `config`. -/
structure IdentitiesMirrored (codecs : Codecs) (db : LevelDB) (config : ClusterConfig) : Prop where
  /-- The admins of the configuration have distinct IDs. -/
  adminsUnique : (config.admins.map Admin.id).Nodup
  /-- The nodes of the configuration have distinct, non-empty IDs. -/
  nodesUnique : (config.nodes.map NodeConfig.id).Nodup
  nodesNamed : ∀ n ∈ config.nodes, n.id ≠ ""
  /-- Each admin is stored as its user. -/
  admins : ∀ a ∈ config.admins, (db.entry UsersDBName (UserNamespace ++ a.id)).map (·.value) =
    some (codecs.user.Marshal (adminUser a))
  /-- A stored user with the admin privilege is an admin of the configuration. -/
  onlyAdmins : ∀ key v user, db.entry UsersDBName key = some v →
    codecs.user.Unmarshal v.value = .ok user → (user.privilege.map Privilege.admin).getD false = true →
    ∃ a ∈ config.admins, key = UserNamespace ++ a.id
  /-- Each node is stored under its ID. -/
  nodes : ∀ n ∈ config.nodes, (db.entry ConfigDBName (NodeNamespace ++ n.id)).map (·.value) =
    some (codecs.node.Marshal n)
  /-- Nothing else is stored under the node namespace. -/
  onlyNodes : ∀ i v, db.entry ConfigDBName (NodeNamespace ++ i) = some v →
    i ∈ config.nodes.map NodeConfig.id

/-- The invariant of the world state: the databases of a new world state exist, and the
configuration it holds is mirrored by its identities. -/
structure WorldStateInv (codecs : Codecs) (db : LevelDB) : Prop where
  systemDBs : ∀ dbName ∈ LevelDB.preCreateDBs, (db.dbs dbName).isSome
  identities : ∃ config metadata, db.GetConfig codecs.config = .ok (config, metadata) ∧
    IdentitiesMirrored codecs db config

/-! ### The mirror -/

section Mirrored

variable {codecs : Codecs} {db db' : LevelDB} {config : ClusterConfig}

/-- A new world state holds the empty configuration, and no identity. -/
theorem IdentitiesMirrored.Open : IdentitiesMirrored codecs LevelDB.Open default := by
  have hentry : ∀ dbName key, LevelDB.Open.entry dbName key = none := by
    intro dbName key
    cases hdb : LevelDB.Open.dbs dbName with
    | none => simp [LevelDB.entry, hdb]
    | some s => simp [LevelDB.entry, hdb, LevelDB.Open_dbs_empty dbName s hdb]
  refine ⟨List.nodup_nil, List.nodup_nil, fun n hn => absurd hn List.not_mem_nil,
    fun a ha => absurd ha List.not_mem_nil, fun key v user hv => ?_,
    fun n hn => absurd hn List.not_mem_nil, fun i v hv => ?_⟩
  · rw [hentry] at hv
    cases hv
  · rw [hentry] at hv
    cases hv

/-- The mirror depends on the admins and the nodes of the configuration only. -/
theorem IdentitiesMirrored.of_identities {config' : ClusterConfig}
    (h : IdentitiesMirrored codecs db config) (hadmins : config'.admins = config.admins)
    (hnodes : config'.nodes = config.nodes) : IdentitiesMirrored codecs db config' := by
  obtain ⟨hau, hnu, hnn, ha, hoa, hn, hon⟩ := h
  rw [← hadmins] at hau ha hoa
  rw [← hnodes] at hnu hnn hn hon
  exact ⟨hau, hnu, hnn, ha, hoa, hn, hon⟩

/-- A world state whose `_users` and `_config` are as they were mirrors the same configuration. -/
theorem IdentitiesMirrored.of_frame (h : IdentitiesMirrored codecs db config)
    (husers : db'.dbs UsersDBName = db.dbs UsersDBName)
    (hconfig : db'.dbs ConfigDBName = db.dbs ConfigDBName) : IdentitiesMirrored codecs db' config := by
  have hu : ∀ key, db'.entry UsersDBName key = db.entry UsersDBName key := by
    intro key
    simp only [LevelDB.entry, husers]
  have hc : ∀ key, db'.entry ConfigDBName key = db.entry ConfigDBName key := by
    intro key
    simp only [LevelDB.entry, hconfig]
  refine ⟨h.adminsUnique, h.nodesUnique, h.nodesNamed, fun a ha => ?_, fun key v user hv => ?_,
    fun n hn => ?_, fun i v hv => ?_⟩
  · rw [hu]
    exact h.admins a ha
  · rw [hu] at hv
    exact h.onlyAdmins key v user hv
  · rw [hc]
    exact h.nodes n hn
  · rw [hc] at hv
    exact h.onlyNodes i v hv

/-- Each admin of the mirrored configuration has the admin privilege. -/
theorem IdentitiesMirrored.admin_privilege (h : IdentitiesMirrored codecs db config) {a : Admin}
    (ha : a ∈ config.admins) : Identity.HasAdministrationPrivilege codecs.user db a.id = .ok true := by
  obtain ⟨v, hentry, hvalue⟩ := Option.map_eq_some_iff.1 (h.admins a ha)
  have hval : v.value ≠ [] := by
    rw [hvalue]
    exact Marshal_adminUser_ne_nil codecs.user a
  have hdec : codecs.user.Unmarshal v.value = .ok (adminUser a) := by
    rw [hvalue]
    exact codecs.user.Unmarshal_Marshal (adminUser a)
  exact Identity.HasAdministrationPrivilege_eq_ok.2
    ⟨adminUser a, v.metadata, GetUser_of_entry hentry hval hdec, rfl⟩

/-- **A user administration block keeps the mirror.** A valid transaction writes no user with the
admin privilege and touches no admin: the admins' entries stay, and the users it writes never
decode to an admin. -/
theorem IdentitiesMirrored.userAdmin_step (h : IdentitiesMirrored codecs db config)
    {tx : UserAdministrationTx} {users : List User} (hvalid : UserWritesValid codecs.user db tx users)
    {version : Version} {entries : DBUpdates}
    (hentries : ConstructDBEntriesForUserAdminTx codecs.user tx version = .ok entries)
    (husers : db'.dbs UsersDBName = (db.dbs UsersDBName).map (applyBatch · entries))
    (hconfig : db'.dbs ConfigDBName = db.dbs ConfigDBName) : IdentitiesMirrored codecs db' config := by
  obtain ⟨hwrites, -, hdeletes⟩ := ConstructDBEntriesForUserAdminTx_ok hentries
  have hentry : ∀ key, db'.entry UsersDBName key =
      (db.dbs UsersDBName).bind fun s => applyBatch s entries key := by
    intro key
    simp only [LevelDB.entry, husers, Option.bind_map, Function.comp_def]
  -- each write is of one of the transaction's users, under its ID
  have hwritten : ∀ kv ∈ entries.writes, ∃ u ∈ users,
      kv.key = UserNamespace ++ u.id ∧ kv.value = codecs.user.Marshal u := by
    intro kv hkv
    obtain ⟨w, hw, u, hwu, rfl⟩ := hwrites kv hkv
    have hsome : some u ∈ users.map some := by
      rw [← hvalid.writtenUsers, ← hwu]
      exact List.mem_map_of_mem hw
    obtain ⟨u', hu', hu'u⟩ := List.mem_map.1 hsome
    cases hu'u
    exact ⟨_, hu', rfl, rfl⟩
  -- the key of an admin is neither written nor deleted
  have hadminKey : ∀ a ∈ config.admins, UserNamespace ++ a.id ∉ entries.writes.map (·.key) ∧
      UserNamespace ++ a.id ∉ entries.deletes := by
    intro a ha
    have hpriv := h.admin_privilege ha
    constructor
    · intro hmem
      obtain ⟨kv, hkv, hkey⟩ := List.mem_map.1 hmem
      obtain ⟨u, hu, hukey, -⟩ := hwritten kv hkv
      have hid : u.id = a.id := (String.append_right_inj _).1 (hukey.symm.trans hkey)
      exact hvalid.targetsNotAdmin u hu (hid ▸ hpriv)
    · intro hmem
      rw [hdeletes] at hmem
      obtain ⟨d, hd, hkey⟩ := List.mem_map.1 hmem
      have hid : d.userId = a.id := (String.append_right_inj _).1 hkey
      have hnot := hvalid.deleteTargetsNotAdmin d hd
      rw [hid, hpriv] at hnot
      cases hnot
  refine ⟨h.adminsUnique, h.nodesUnique, h.nodesNamed, fun a ha => ?_,
    fun key v user hv hdec hadmin => ?_, fun n hn => ?_, fun i v hv => ?_⟩
  · obtain ⟨hw, hd⟩ := hadminKey a ha
    rw [hentry]
    simpa only [LevelDB.entry, applyBatch_of_not_mem hw hd] using h.admins a ha
  · rw [hentry] at hv
    obtain ⟨s, hs, hv⟩ := Option.bind_eq_some_iff.1 hv
    rcases applyBatch_cases s entries key with ⟨-, hnone⟩ | ⟨kv, hkv, -, hsome⟩ | hsame
    · rw [hnone] at hv
      cases hv
    · -- a user the transaction writes, none of which is an admin
      obtain ⟨u, hu, -, hvalue⟩ := hwritten kv hkv
      rw [hsome] at hv
      cases hv
      simp only [hvalue, codecs.user.Unmarshal_Marshal, Except.ok.injEq] at hdec
      subst hdec
      rw [hvalid.notAdmin _ hu] at hadmin
      cases hadmin
    · rw [hsame] at hv
      exact h.onlyAdmins key v user (by simp only [LevelDB.entry, hs, Option.bind_some, hv]) hdec hadmin
  · simp only [LevelDB.entry, hconfig]
    exact h.nodes n hn
  · simp only [LevelDB.entry, hconfig] at hv
    exact h.onlyNodes i v hv

end Mirrored

/-! ### The updates of a configuration block -/

/-- `_users` gets the admin entries of a configuration block. -/
theorem applyBatches_configTxDBsUpdates_users (dbs : String → Option KVStore)
    (entries : dbEntriesForConfigTx) :
    applyBatches dbs (configTxDBsUpdates entries) UsersDBName =
      (dbs UsersDBName).map (applyIdentityEntries · entries.adminUpdates) := by
  unfold configTxDBsUpdates applyIdentityEntries
  split
  · rename_i adminUpdates hadmin
    rw [hadmin, applyBatches_apply]
    simp [DBsUpdates.set, ConfigDBName_ne_UsersDBName]
  · rename_i hadmin
    rw [hadmin, applyBatches_of_not_mem (by simp [DBsUpdates.set, Ne.symm ConfigDBName_ne_UsersDBName])]
    simp

/-- Away from the configuration's key, `_config` gets the node entries. -/
theorem applyBatch_configDBUpdates_of_ne {entries : dbEntriesForConfigTx} {value : Bytes}
    {metadata : Option Metadata} (hconfig : entries.configUpdates = ⟨[⟨ConfigKey, value, metadata⟩], []⟩)
    {key : String} (hkey : key ≠ ConfigKey) (store : KVStore) :
    applyBatch store (configDBUpdates entries) key = applyIdentityEntries store entries.nodeUpdates key := by
  unfold configDBUpdates applyIdentityEntries
  rw [hconfig]
  split
  · rename_i u hu
    rw [hu, Option.elim_some, applyBatch_eq, applyBatch_eq, List.nil_append]
    -- the configuration's write is before the node writes, at another key
    refine Lib.applyUpdates_congr_at ?_ _
    rw [List.map_append, Lib.applyUpdates_append]
    refine Lib.applyUpdates_congr_at ?_ _
    simp [Function.update_of_ne hkey]
  · rename_i hu
    rw [hu]
    exact applyBatch_of_not_mem (by simpa using hkey) List.not_mem_nil

/-- A configuration transaction writes the difference of the admins. -/
theorem constructDBEntriesForConfigTx_adminUpdates {codecs : Codecs} {tx : ConfigTx}
    {oldConfig newConfig : ClusterConfig} {version : Version} {entries : dbEntriesForConfigTx}
    (h : constructDBEntriesForConfigTx codecs tx oldConfig version = .ok entries)
    (hnew : tx.newConfig = some newConfig) :
    entries.adminUpdates =
      ConstructDBEntriesForClusterAdmins codecs.user oldConfig.admins newConfig.admins version := by
  unfold constructDBEntriesForConfigTx at h
  rw [hnew] at h
  obtain ⟨newConfigClone, -, hentries⟩ := Except.bind_eq_ok.1 h
  cases hentries
  rfl

section Commit

variable {db db' : LevelDB}

/-- The commit of a valid configuration transaction's updates: `_users` gets the admin entries,
`_config` the configuration and the node entries, and every database of a new world state keeps
existing. -/
theorem commitToStateDB_configTxDBsUpdates {blockNum : UInt64} {entries : dbEntriesForConfigTx}
    (hcommit : commitToStateDB db blockNum (configTxDBsUpdates entries) = .ok db') :
    db'.dbs UsersDBName = (db.dbs UsersDBName).map (applyIdentityEntries · entries.adminUpdates) ∧
      db'.dbs ConfigDBName = (db.dbs ConfigDBName).map (applyBatch · (configDBUpdates entries)) ∧
      ∀ dbName ∈ LevelDB.preCreateDBs, (db.dbs dbName).isSome → (db'.dbs dbName).isSome := by
  have hne : ∀ e ∈ configTxDBsUpdates entries, e.1 ≠ DatabasesDBName := by
    intro e he
    rcases configTxDBsUpdates_names e he with hname | hname
    · rw [hname]
      decide
    · rw [hname]
      decide
  refine ⟨?_, ?_, fun dbName _ => commitToStateDB_isSome hcommit fun e he hdbs => absurd hdbs (hne e he)⟩
  · rw [commitToStateDB_dbs_system hcommit (by decide) hne, applyBatches_configTxDBsUpdates_users]
  · rw [commitToStateDB_dbs_system hcommit (by decide) hne, applyBatches_configTxDBsUpdates]

/-- After a valid configuration transaction, `GetConfig` reads its configuration with the
committer's `MaxRaftId`. -/
theorem GetConfig_of_configDBUpdates {codecs : Codecs} {tx : ConfigTx} {committedConfig : ClusterConfig}
    {version : Version} {entries : dbEntriesForConfigTx} {sc : KVStore}
    (hconstruct : constructDBEntriesForConfigTx codecs tx committedConfig version = .ok entries)
    (hsc : db.dbs ConfigDBName = some sc)
    (hconfig : db'.dbs ConfigDBName = (db.dbs ConfigDBName).map (applyBatch · (configDBUpdates entries))) :
    ∃ newConfig newConfigClone, tx.newConfig = some newConfig ∧
      setMaxRaftId newConfig (newMaxRaftId committedConfig newConfig) = .ok newConfigClone ∧
      db'.GetConfig codecs.config = .ok (newConfigClone, some ⟨some version, none⟩) := by
  obtain ⟨newConfig, newConfigClone, htx, hclone, hconfigUpdates, hnodes⟩ :=
    constructDBEntriesForConfigTx_ok hconstruct
  refine ⟨newConfig, newConfigClone, htx, hclone, LevelDB.GetConfig_of_entry ?_⟩
  rw [LevelDB.entry, hconfig, hsc, Option.map_some, Option.bind_some]
  exact applyBatch_configDBUpdates hconfigUpdates
    (fun u hu => constructIdentityEntries_keys (hnodes ▸ hu)) sc

end Commit

section Config

variable {codecs : Codecs} {db db' : LevelDB} {committedConfig : ClusterConfig}

/-- **A valid configuration block moves the mirror to the new configuration.** The admins and
the nodes it writes are the difference from the committed ones: the new identities hold their
values, those kept their entries, and no other entry is an admin's or under the node
namespace. -/
theorem IdentitiesMirrored.config_step (h : IdentitiesMirrored codecs db committedConfig)
    {su sc : KVStore} (hsu : db.dbs UsersDBName = some su) (hsc : db.dbs ConfigDBName = some sc)
    {tx : ConfigTx} {newConfig : ClusterConfig} {version : Version} {entries : dbEntriesForConfigTx}
    (htx : tx.newConfig = some newConfig)
    (hnewIds : (newConfig.admins.map Admin.id).Nodup ∧ (newConfig.nodes.map NodeConfig.id).Nodup ∧
      ∀ n ∈ newConfig.nodes, n.id ≠ "")
    (hentries : constructDBEntriesForConfigTx codecs tx committedConfig version = .ok entries)
    (husers : db'.dbs UsersDBName = (db.dbs UsersDBName).map (applyIdentityEntries · entries.adminUpdates))
    (hconfig : db'.dbs ConfigDBName = (db.dbs ConfigDBName).map (applyBatch · (configDBUpdates entries))) :
    IdentitiesMirrored codecs db' newConfig := by
  obtain ⟨newConfig', newConfigClone, htx', hclone, hconfigUpdates, hnodes⟩ :=
    constructDBEntriesForConfigTx_ok hentries
  rw [htx, Option.some.injEq] at htx'
  subst htx'
  -- Go's loops compute the differences, the IDs of both lists being distinct
  have hadmins : entries.adminUpdates = identityDiff Admin.id UserNamespace
      (fun a => codecs.user.Marshal (adminUser a)) committedConfig.admins newConfig.admins version := by
    rw [constructDBEntriesForConfigTx_adminUpdates hentries htx]
    exact constructIdentityEntries_eq h.adminsUnique hnewIds.1
  have hnodes' : entries.nodeUpdates = identityDiff NodeConfig.id NodeNamespace codecs.node.Marshal
      committedConfig.nodes newConfig.nodes version := by
    rw [hnodes]
    exact constructIdentityEntries_eq h.nodesUnique hnewIds.2.1
  -- the entries of both databases, before and after
  have hu : ∀ key, db.entry UsersDBName key = su key := by
    intro key
    simp [LevelDB.entry, hsu]
  have hu' : ∀ key, db'.entry UsersDBName key = applyIdentityEntries su entries.adminUpdates key := by
    intro key
    simp [LevelDB.entry, husers, hsu]
  have hc : ∀ key, db.entry ConfigDBName key = sc key := by
    intro key
    simp [LevelDB.entry, hsc]
  have hc' : ∀ i, db'.entry ConfigDBName (NodeNamespace ++ i) =
      applyIdentityEntries sc entries.nodeUpdates (NodeNamespace ++ i) := by
    intro i
    simp only [LevelDB.entry, hconfig, hsc, Option.map_some, Option.bind_some]
    exact applyBatch_configDBUpdates_of_ne hconfigUpdates (NodeNamespace_append_ne_ConfigKey i) sc
  refine ⟨hnewIds.1, hnewIds.2.1, hnewIds.2.2, fun a ha => ?_, fun key v user hv hdec hadmin => ?_,
    fun n hn => ?_, fun i v hv => ?_⟩
  · rw [hu', hadmins]
    refine applyIdentityDiff_mirror hnewIds.1 su (fun o ho => ?_) a ha
    rw [← hu]
    exact h.admins o ho
  · rw [hu', hadmins] at hv
    refine applyIdentityDiff_only
      (P := fun _ v => ∃ user, codecs.user.Unmarshal v.value = .ok user ∧
        (user.privilege.map Privilege.admin).getD false = true) su (fun k v hv hP => ?_)
      key v hv ⟨user, hdec, hadmin⟩
    obtain ⟨user', hdec', hadmin'⟩ := hP
    rw [← hu] at hv
    exact h.onlyAdmins k v user' hv hdec' hadmin'
  · rw [hc', hnodes']
    refine applyIdentityDiff_mirror hnewIds.2.1 sc (fun o ho => ?_) n hn
    rw [← hc]
    exact h.nodes o ho
  · rw [hc', hnodes'] at hv
    -- only old nodes were under the node namespace
    have honly : ∀ k v, sc k = some v → (∃ j, k = NodeNamespace ++ j) →
        ∃ o ∈ committedConfig.nodes, k = NodeNamespace ++ o.id := by
      rintro k v hv ⟨j, rfl⟩
      rw [← hc] at hv
      obtain ⟨o, ho, hoj⟩ := List.mem_map.1 (h.onlyNodes j v hv)
      exact ⟨o, ho, by rw [hoj]⟩
    obtain ⟨n, hn, hkey⟩ := applyIdentityDiff_only (P := fun k _ => ∃ j, k = NodeNamespace ++ j) sc
      honly _ v hv ⟨i, rfl⟩
    rw [(String.append_right_inj _).1 hkey]
    exact List.mem_map_of_mem hn

end Config

/-! ### Each block keeps the invariant -/

/-- The databases of a new world state are the system databases and the default one. -/
theorem preCreateDBs_reserved :
    ∀ dbName ∈ LevelDB.preCreateDBs, IsSystemDB dbName = true ∨ IsDefaultWorldStateDB dbName = true := by
  decide

/-- A database administration transaction deletes index databases only besides those it names. -/
theorem createEntriesForIndexUpdates_deletes {dbsIndex : List (String × DBIndex)} {db : LevelDB}
    {version : Version} :
    ∀ dbName ∈ (createEntriesForIndexUpdates dbsIndex db version).2, ∃ name, dbName = IndexDB name := by
  unfold createEntriesForIndexUpdates
  have hstart : ∀ dbName ∈ (([], []) : List KVWithMetadata × List String).2,
      ∃ name, dbName = IndexDB name := fun _ h => absurd h List.not_mem_nil
  generalize (([], []) : List KVWithMetadata × List String) = acc at hstart ⊢
  -- each step deletes the index database of its database, or nothing
  induction dbsIndex generalizing acc with
  | nil => exact hstart
  | cons x rest ih =>
    rw [List.foldl_cons]
    refine ih _ fun dbName hmem => ?_
    obtain ⟨name, dbIndex⟩ := x
    obtain ⟨indexForExistingDBs, toDeleteDBs⟩ := acc
    dsimp only at hmem hstart
    split_ifs at hmem
    · exact hstart dbName hmem
    · rcases List.mem_append.1 hmem with hmem | hmem
      · exact hstart dbName hmem
      · exact ⟨name, List.mem_singleton.1 hmem⟩
    · exact hstart dbName hmem
    · exact hstart dbName hmem

theorem constructDBEntriesForDBAdminTx_deletes (tx : DBAdministrationTx) (version : Version)
    (db : LevelDB) : (constructDBEntriesForDBAdminTx tx version db).1.deletes =
      tx.deleteDbs ++
        (createEntriesForIndexUpdates (createEntriesForNewDBs tx.createDbs tx.dbsIndex version).2 db
          version).2 := rfl

/-- A new world state holds the invariant. -/
theorem WorldStateInv.Open (codecs : Codecs) : WorldStateInv codecs LevelDB.Open :=
  ⟨by decide, default, none, LevelDB.GetConfig_Open codecs.config, IdentitiesMirrored.Open⟩

/-! ### What each block leaves as it was -/

section Frame

variable {p : Processor} {db db' : LevelDB}

/-- **A data block leaves the system databases as they were**, and every database of a new
world state existing. -/
theorem validateAndCommit_data_frame {envs : List DataTxEnvelope}
    (h : p.validateAndCommit db (.dataTxEnvelopes envs) = .ok db') :
    (∀ dbName ∈ LevelDB.preCreateDBs, IsSystemDB dbName = true → db'.dbs dbName = db.dbs dbName) ∧
      ∀ dbName ∈ LevelDB.preCreateDBs, (db.dbs dbName).isSome → (db'.dbs dbName).isSome := by
  obtain ⟨validationInfo, hvalidate, hcommit⟩ := Processor.validateAndCommit_data h
  have hsystem := dataTxEntries_not_system (db.Height + 1) hvalidate
  have hnot : ∀ dbName, IsSystemDB dbName = true →
      dbName ∉ (dataTxEntries (db.Height + 1) envs validationInfo).map Prod.fst := by
    intro dbName hsys hmem
    obtain ⟨e, he, rfl⟩ := List.mem_map.1 hmem
    rw [hsystem e he] at hsys
    cases hsys
  have hne : ∀ e ∈ dataTxEntries (db.Height + 1) envs validationInfo, e.1 ≠ DatabasesDBName := by
    intro e he hdbs
    refine hnot DatabasesDBName (by decide) ?_
    rw [← hdbs]
    exact List.mem_map_of_mem he
  refine ⟨fun dbName hpre hsys => ?_, fun dbName _ =>
    commitToStateDB_isSome hcommit fun e he hdbs => absurd hdbs (hne e he)⟩
  rw [commitToStateDB_dbs_system hcommit hpre hne, applyBatches_of_not_mem (hnot dbName hsys)]

/-- The commit of a user administration transaction's entries: `_users` gets them, and every
other database of a new world state is as it was. -/
theorem commitToStateDB_users {blockNum : UInt64} {entries : DBUpdates}
    (hcommit : commitToStateDB db blockNum [(UsersDBName, entries)] = .ok db') :
    db'.dbs UsersDBName = (db.dbs UsersDBName).map (applyBatch · entries) ∧
      (∀ dbName ∈ LevelDB.preCreateDBs, dbName ≠ UsersDBName → db'.dbs dbName = db.dbs dbName) ∧
      ∀ dbName ∈ LevelDB.preCreateDBs, (db.dbs dbName).isSome → (db'.dbs dbName).isSome := by
  have hne : ∀ e ∈ [(UsersDBName, entries)], e.1 ≠ DatabasesDBName := by
    intro e he
    rw [List.mem_singleton.1 he]
    exact (by decide : UsersDBName ≠ DatabasesDBName)
  refine ⟨?_, fun dbName hpre hname => ?_, fun dbName _ =>
    commitToStateDB_isSome hcommit fun e he hdbs => absurd hdbs (hne e he)⟩
  · rw [commitToStateDB_dbs_system hcommit (by decide) hne, applyBatches_cons_self List.not_mem_nil]
  · rw [commitToStateDB_dbs_system hcommit hpre hne, applyBatches_of_not_mem (by simpa using hname)]

/-- **A user administration block leaves `_config` as it was.** -/
theorem validateAndCommit_userAdmin_configDB {env : UserAdministrationTxEnvelope}
    (h : p.validateAndCommit db (.userAdministrationTxEnvelope env) = .ok db') :
    db'.dbs ConfigDBName = db.dbs ConfigDBName := by
  obtain ⟨valRes, -, ⟨-, hcommit⟩ | ⟨-, entries, -, hcommit⟩⟩ :=
    Processor.validateAndCommit_userAdmin h
  · exact commitToStateDB_nil_system hcommit _ (by decide)
  · exact (commitToStateDB_users hcommit).2.1 _ (by decide) ConfigDBName_ne_UsersDBName

/-- **A database administration block leaves the databases of a new world state other than
`_dbs` as they were**, and all of them existing: it deletes neither a system database nor the
default one. -/
theorem validateAndCommit_dbAdmin_frame (hsystem : ∀ dbName ∈ LevelDB.preCreateDBs, (db.dbs dbName).isSome)
    {env : DBAdministrationTxEnvelope}
    (h : p.validateAndCommit db (.dbAdministrationTxEnvelope env) = .ok db') :
    (∀ dbName ∈ LevelDB.preCreateDBs, dbName ≠ DatabasesDBName → db'.dbs dbName = db.dbs dbName) ∧
      ∀ dbName ∈ LevelDB.preCreateDBs, (db'.dbs dbName).isSome := by
  obtain ⟨valRes, hvalidate, ⟨-, hcommit⟩ | ⟨hflag, hcommit⟩⟩ := Processor.validateAndCommit_dbAdmin h
  · have hsame := commitToStateDB_nil_system hcommit
    refine ⟨fun dbName hpre _ => hsame dbName hpre, fun dbName hpre => ?_⟩
    rw [hsame dbName hpre]
    exact hsystem dbName hpre
  obtain ⟨-, hvalid⟩ := dbAdminTxValidator.validate_valid ⟨valRes, hvalidate, hflag⟩
  -- the one batch is of `_dbs`, and deletes no database of a new world state
  have hdel : ∀ dbName ∈ LevelDB.preCreateDBs,
      dbName ∉ (constructDBEntriesForDBAdminTx env.payload ⟨db.Height + 1, 0⟩ db).1.deletes := by
    intro dbName hpre hmem
    rw [constructDBEntriesForDBAdminTx_deletes] at hmem
    rcases List.mem_append.1 hmem with hmem | hmem
    · obtain ⟨-, hsys, hdefault, -⟩ := hvalid.deletes dbName hmem
      rcases preCreateDBs_reserved dbName hpre with hreserved | hreserved
      · rw [hreserved] at hsys
        cases hsys
      · rw [hreserved] at hdefault
        cases hdefault
    · obtain ⟨name, rfl⟩ := createEntriesForIndexUpdates_deletes _ hmem
      exact IndexDB_ne_of_mem_preCreateDBs hpre rfl
  refine ⟨fun dbName hpre hne => ?_, fun dbName hpre => ?_⟩
  · refine commitToStateDB_dbs_of_frame hcommit hpre (fun e he => ?_) (hsystem dbName hpre)
    rw [List.mem_singleton.1 he]
    exact ⟨Ne.symm hne, fun _ => hdel dbName hpre⟩
  · refine commitToStateDB_isSome hcommit (fun e he _ => ?_) (hsystem dbName hpre)
    rw [List.mem_singleton.1 he]
    exact hdel dbName hpre

end Frame

section Step

variable {p : Processor} {db db' : LevelDB}

/-- A block that leaves `_users` and `_config` as they were, and every database of a new world
state existing, keeps the invariant. -/
theorem WorldStateInv.of_frame (hinv : WorldStateInv p.codecs db)
    (husers : db'.dbs UsersDBName = db.dbs UsersDBName)
    (hconfig : db'.dbs ConfigDBName = db.dbs ConfigDBName)
    (hsome : ∀ dbName ∈ LevelDB.preCreateDBs, (db'.dbs dbName).isSome) : WorldStateInv p.codecs db' := by
  obtain ⟨config, metadata, hget, hmirror⟩ := hinv.identities
  refine ⟨hsome, config, metadata, ?_, hmirror.of_frame husers hconfig⟩
  rw [LevelDB.GetConfig_congr_configDB hconfig]
  exact hget

/-- A block without updates keeps the invariant. -/
theorem WorldStateInv.of_nil (hinv : WorldStateInv p.codecs db)
    (hcommit : commitToStateDB db (db.Height + 1) [] = .ok db') : WorldStateInv p.codecs db' := by
  have hsame := commitToStateDB_nil_system hcommit
  refine hinv.of_frame (hsame _ (by decide)) (hsame _ (by decide)) fun dbName hpre => ?_
  rw [hsame dbName hpre]
  exact hinv.systemDBs dbName hpre

/-- **A data block keeps the invariant**: it writes no system database. -/
theorem WorldStateInv.data_step (hinv : WorldStateInv p.codecs db) {envs : List DataTxEnvelope}
    (h : p.validateAndCommit db (.dataTxEnvelopes envs) = .ok db') : WorldStateInv p.codecs db' := by
  obtain ⟨hsame, hsome⟩ := validateAndCommit_data_frame h
  exact hinv.of_frame (hsame _ (by decide) (by decide)) (hsame _ (by decide) (by decide))
    fun dbName hpre => hsome dbName hpre (hinv.systemDBs dbName hpre)

/-- **A user administration block keeps the invariant.** -/
theorem WorldStateInv.userAdmin_step (hinv : WorldStateInv p.codecs db)
    {env : UserAdministrationTxEnvelope}
    (h : p.validateAndCommit db (.userAdministrationTxEnvelope env) = .ok db') :
    WorldStateInv p.codecs db' := by
  have hconfig := validateAndCommit_userAdmin_configDB h
  obtain ⟨valRes, hvalidate, ⟨-, hcommit⟩ | ⟨hflag, entries, hentries, hcommit⟩⟩ :=
    Processor.validateAndCommit_userAdmin h
  · exact hinv.of_nil hcommit
  obtain ⟨config, metadata, hget, hmirror⟩ := hinv.identities
  obtain ⟨-, users, hvalid⟩ := userAdminTxValidator.validate_valid ⟨valRes, hvalidate, hflag⟩
  obtain ⟨husers, -, hsome⟩ := commitToStateDB_users hcommit
  refine ⟨fun dbName hpre => hsome dbName hpre (hinv.systemDBs dbName hpre), config, metadata, ?_,
    hmirror.userAdmin_step hvalid hentries husers hconfig⟩
  rw [LevelDB.GetConfig_congr_configDB hconfig]
  exact hget

/-- **A database administration block keeps the invariant**: it writes `_dbs` only, and deletes
neither a system database nor the default one. -/
theorem WorldStateInv.dbAdmin_step (hinv : WorldStateInv p.codecs db)
    {env : DBAdministrationTxEnvelope}
    (h : p.validateAndCommit db (.dbAdministrationTxEnvelope env) = .ok db') :
    WorldStateInv p.codecs db' := by
  obtain ⟨hsame, hsome⟩ := validateAndCommit_dbAdmin_frame hinv.systemDBs h
  exact hinv.of_frame (hsame _ (by decide) (by decide)) (hsame _ (by decide) (by decide)) hsome

/-- **A configuration block keeps the invariant**: a valid one moves the mirror to the
configuration it commits. -/
theorem WorldStateInv.config_step (hinv : WorldStateInv p.codecs db) {env : ConfigTxEnvelope}
    (h : p.validateAndCommit db (.configTxEnvelope env) = .ok db') : WorldStateInv p.codecs db' := by
  obtain ⟨info, dbsUpdates, hentries, hcommit, hconfigValid⟩ := Processor.validateAndCommit_config h
  rcases configTxEntries_ok hentries with ⟨-, rfl⟩ |
    ⟨hflag, committedConfig, metadata, entries, hget, hconstruct, rfl⟩
  · exact hinv.of_nil hcommit
  obtain ⟨config, metadata', hget', hmirror⟩ := hinv.identities
  rw [hget'] at hget
  obtain ⟨rfl, -⟩ := Prod.mk.inj (Except.ok.inj hget)
  obtain ⟨newConfig, htx, hvalid⟩ := hconfigValid hflag
  obtain ⟨husers, hconfig, hsome⟩ := commitToStateDB_configTxDBsUpdates hcommit
  obtain ⟨su, hsu⟩ := Option.isSome_iff_exists.1 (hinv.systemDBs UsersDBName (by decide))
  obtain ⟨sc, hsc⟩ := Option.isSome_iff_exists.1 (hinv.systemDBs ConfigDBName (by decide))
  have hmirror' := hmirror.config_step hsu hsc htx (validateConfig_identities hvalid) hconstruct
    husers hconfig
  -- `GetConfig` reads the new configuration, whose identities are those of the transaction's
  obtain ⟨newConfig', newConfigClone, htx', hclone, hgetNew⟩ :=
    GetConfig_of_configDBUpdates hconstruct hsc hconfig
  rw [htx, Option.some.injEq] at htx'
  subst htx'
  obtain ⟨cc, rc, -, -, rfl⟩ := setMaxRaftId_ok hclone
  exact ⟨fun dbName hpre => hsome dbName hpre (hinv.systemDBs dbName hpre), _, _, hgetNew,
    hmirror'.of_identities rfl rfl⟩

/-- **Step lemma.** Every block a node processes keeps the invariant. -/
theorem WorldStateInv.step (hinv : WorldStateInv p.codecs db) {payload : Payload}
    (h : p.validateAndCommit db payload = .ok db') : WorldStateInv p.codecs db' := by
  cases payload with
  | dataTxEnvelopes envs => exact hinv.data_step h
  | userAdministrationTxEnvelope env => exact hinv.userAdmin_step h
  | dbAdministrationTxEnvelope env => exact hinv.dbAdmin_step h
  | configTxEnvelope env => exact hinv.config_step h

end Step

/-- **The run.** Every world state a node reaches holds the invariant. -/
theorem Processor.Reachable.worldStateInv {p : Processor} {db : LevelDB} (h : p.Reachable db) :
    WorldStateInv p.codecs db := by
  induction h with
  | refl => exact WorldStateInv.Open p.codecs
  | tail _ hstep ih =>
    obtain ⟨payload, hpayload⟩ := hstep
    exact ih.step hpayload

/-! ### The identities a node reads -/

section Reachable

variable {p : Processor} {db : LevelDB}

/-- **The system databases are never lost.** In every world state a node reaches, `_users`,
`_dbs`, `_config`, `_metadata` and the default database exist. -/
theorem system_databases_exist (h : p.Reachable db) :
    ∀ dbName ∈ LevelDB.preCreateDBs, db.Exist dbName = true :=
  h.worldStateInv.systemDBs

theorem system_databases_exist_after_genesis :
    ∃ db, acceptingProcessor.Reachable db ∧ ∀ dbName ∈ LevelDB.preCreateDBs, db.Exist dbName = true := by
  obtain ⟨db, hdb⟩ := acceptingProcessor_genesis
  have h : acceptingProcessor.Reachable db := .single ⟨_, hdb⟩
  exact ⟨db, h, system_databases_exist h⟩

/-- **The stored admins are the configuration's.** In every world state a node reaches, a stored
user has the admin privilege exactly when it is stored under the ID of an admin of the
configuration the world state holds, as that admin's user. -/
theorem admin_entries_are_config_admins (h : p.Reachable db) :
    ∃ config metadata, db.GetConfig p.codecs.config = .ok (config, metadata) ∧
      ∀ key user, (∃ v, db.entry UsersDBName key = some v ∧
          p.codecs.user.Unmarshal v.value = .ok user ∧
          (user.privilege.map Privilege.admin).getD false = true) ↔
        ∃ a ∈ config.admins, key = UserNamespace ++ a.id ∧ user = adminUser a := by
  obtain ⟨config, metadata, hget, hmirror⟩ := h.worldStateInv.identities
  refine ⟨config, metadata, hget, fun key user => ⟨?_, ?_⟩⟩
  · rintro ⟨v, hv, hdec, hadmin⟩
    obtain ⟨a, ha, rfl⟩ := hmirror.onlyAdmins key v user hv hdec hadmin
    -- the entry under an admin's ID holds that admin's user
    obtain ⟨v', hv', hvalue⟩ := Option.map_eq_some_iff.1 (hmirror.admins a ha)
    rw [hv, Option.some.injEq] at hv'
    subst hv'
    rw [hvalue, p.codecs.user.Unmarshal_Marshal, Except.ok.injEq] at hdec
    exact ⟨a, ha, rfl, hdec.symm⟩
  · rintro ⟨a, ha, rfl, rfl⟩
    obtain ⟨v, hv, hvalue⟩ := Option.map_eq_some_iff.1 (hmirror.admins a ha)
    refine ⟨v, hv, ?_, rfl⟩
    rw [hvalue]
    exact p.codecs.user.Unmarshal_Marshal (adminUser a)

theorem admin_entries_are_config_admins_after_genesis :
    ∃ db, acceptingProcessor.Reachable db ∧
      ∃ config metadata, db.GetConfig acceptingProcessor.codecs.config = .ok (config, metadata) ∧
        ∀ key user, (∃ v, db.entry UsersDBName key = some v ∧
            acceptingProcessor.codecs.user.Unmarshal v.value = .ok user ∧
            (user.privilege.map Privilege.admin).getD false = true) ↔
          ∃ a ∈ config.admins, key = UserNamespace ++ a.id ∧ user = adminUser a := by
  obtain ⟨db, hdb⟩ := acceptingProcessor_genesis
  have h : acceptingProcessor.Reachable db := .single ⟨_, hdb⟩
  exact ⟨db, h, admin_entries_are_config_admins h⟩

/-- **The querier's admins are the configuration's.** In every world state a node reaches, the
admin check of the validators accepts exactly the admins of the configuration it holds. -/
theorem HasAdministrationPrivilege_iff_config_admin (h : p.Reachable db) :
    ∃ config metadata, db.GetConfig p.codecs.config = .ok (config, metadata) ∧
      ∀ userID, Identity.HasAdministrationPrivilege p.codecs.user db userID = .ok true ↔
        userID ∈ config.admins.map Admin.id := by
  obtain ⟨config, metadata, hget, hmirror⟩ := h.worldStateInv.identities
  refine ⟨config, metadata, hget, fun userID => ⟨fun hadmin => ?_, fun hmem => ?_⟩⟩
  · obtain ⟨user, m, hgetUser, hflag⟩ := Identity.HasAdministrationPrivilege_eq_ok.1 hadmin
    obtain ⟨v, hv, -, hdec⟩ := entry_of_GetUser hgetUser
    obtain ⟨a, ha, hkey⟩ := hmirror.onlyAdmins _ v user hv hdec hflag
    rw [(String.append_right_inj _).1 hkey]
    exact List.mem_map_of_mem ha
  · obtain ⟨a, ha, rfl⟩ := List.mem_map.1 hmem
    exact hmirror.admin_privilege ha

theorem HasAdministrationPrivilege_iff_config_admin_after_genesis :
    ∃ db, acceptingProcessor.Reachable db ∧
      ∃ config metadata, db.GetConfig acceptingProcessor.codecs.config = .ok (config, metadata) ∧
        ∀ userID, Identity.HasAdministrationPrivilege acceptingProcessor.codecs.user db userID = .ok true ↔
          userID ∈ config.admins.map Admin.id := by
  obtain ⟨db, hdb⟩ := acceptingProcessor_genesis
  have h : acceptingProcessor.Reachable db := .single ⟨_, hdb⟩
  exact ⟨db, h, HasAdministrationPrivilege_iff_config_admin h⟩

/-- **The stored nodes are the configuration's.** In every world state a node reaches, `GetNode`
finds a node exactly under the ID of a node of the configuration the world state holds, and
finds that node. -/
theorem GetNode_iff_config_node (h : p.Reachable db) :
    ∃ config metadata, db.GetConfig p.codecs.config = .ok (config, metadata) ∧
      ∀ nodeID node, (∃ m, GetNode p.codecs.node db nodeID = .ok (node, m)) ↔
        node ∈ config.nodes ∧ node.id = nodeID := by
  obtain ⟨config, metadata, hget, hmirror⟩ := h.worldStateInv.identities
  refine ⟨config, metadata, hget, fun nodeID node => ⟨?_, ?_⟩⟩
  · rintro ⟨m, hnode⟩
    obtain ⟨v, hv, -, hdec⟩ := entry_of_getIdentity hnode
    obtain ⟨n, hn, rfl⟩ := List.mem_map.1 (hmirror.onlyNodes nodeID v hv)
    -- the entry under a node's ID holds that node
    obtain ⟨v', hv', hvalue⟩ := Option.map_eq_some_iff.1 (hmirror.nodes n hn)
    rw [hv, Option.some.injEq] at hv'
    subst hv'
    rw [hvalue, p.codecs.node.Unmarshal_Marshal, Except.ok.injEq] at hdec
    subst hdec
    exact ⟨hn, rfl⟩
  · rintro ⟨hn, rfl⟩
    obtain ⟨v, hv, hvalue⟩ := Option.map_eq_some_iff.1 (hmirror.nodes node hn)
    have hval : v.value ≠ [] := by
      rw [hvalue]
      -- the empty node has no ID
      exact p.codecs.node.Marshal_ne_nil fun hdefault =>
        hmirror.nodesNamed node hn (congrArg NodeConfig.id hdefault)
    have hdec : p.codecs.node.Unmarshal v.value = .ok node := by
      rw [hvalue]
      exact p.codecs.node.Unmarshal_Marshal node
    exact ⟨v.metadata, getIdentity_of_entry hv hval hdec⟩

theorem GetNode_iff_config_node_after_genesis :
    ∃ db, acceptingProcessor.Reachable db ∧
      ∃ config metadata, db.GetConfig acceptingProcessor.codecs.config = .ok (config, metadata) ∧
        ∀ nodeID node, (∃ m, GetNode acceptingProcessor.codecs.node db nodeID = .ok (node, m)) ↔
          node ∈ config.nodes ∧ node.id = nodeID := by
  obtain ⟨db, hdb⟩ := acceptingProcessor_genesis
  have h : acceptingProcessor.Reachable db := .single ⟨_, hdb⟩
  exact ⟨db, h, GetNode_iff_config_node h⟩

end Reachable

end Orion.BlockProcessor
