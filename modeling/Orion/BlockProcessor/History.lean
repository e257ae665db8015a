import Orion.BlockProcessor.Invariants

/-!
# The configurations a node holds over its runs

`ConfigRun` follows a node through configuration blocks only. A node processes every kind of
block, and each may be valid or not; this module follows it through all of them.
`Processor.History` is a run of the processor from the genesis block, with the configuration
`GetConfig` reads after each block.

A block other than a configuration block leaves `_config` as it was: a data block writes no
system database, a user administration block writes `_users` only, and a database
administration block writes `_dbs` and deletes neither a system database nor the default one.
An invalid configuration block commits nothing. A valid one after the genesis block was checked
against the committed configuration by the transition rules.

## What is proved

* `Processor.configuration_step` — after the genesis block, every block leaves the configuration
  or commits a committed consensus configuration that is a safe change from the one before.
* `processor_raft_membership_history_safe` — over every run of the processor the configurations
  form a safe Raft history, as over runs of configuration blocks alone.

## Honest scope

Block numbers are `UInt64`s, and the next block is the one after the committed height. After
`2 ^ 64` blocks that number comes round to `1`, and the block would be checked as a genesis
block, with no transition rule; the run theorem is for runs shorter than that.
-/

namespace Orion.BlockProcessor

open Orion.State Orion.Types Orion.WorldState Orion.TxValidation Orion.Replication

namespace Processor

variable (p : Processor)

/-- A run of the processor from the genesis block of a new node, with the configuration
`GetConfig` reads after each block, newest first. -/
inductive History : LevelDB → List ClusterConfig → Prop
  /-- The genesis block. -/
  | genesis {payload : Payload} {db : LevelDB} {config : ClusterConfig}
      {metadata : Option Metadata} :
      p.validateAndCommit LevelDB.Open payload = .ok db →
      db.GetConfig p.codecs.config = .ok (config, metadata) →
      History db [config]
  /-- The next block, of any kind. -/
  | block {db db' : LevelDB} {configs : List ClusterConfig} {payload : Payload}
      {config : ClusterConfig} {metadata : Option Metadata} :
      History db configs →
      p.validateAndCommit db payload = .ok db' →
      db'.GetConfig p.codecs.config = .ok (config, metadata) →
      History db' (config :: configs)

end Processor

section Step

variable {p : Processor} {db db' : LevelDB} {config config' : ClusterConfig}
  {metadata metadata' : Option Metadata}

/-- The configuration `GetConfig` reads after a valid configuration transaction is its valid
configuration with the committer's `MaxRaftId`: a committed consensus configuration. -/
theorem committedConsensus_of_configDBUpdates {codecs : Codecs} {libs : ConfigLibs} {tx : ConfigTx}
    {newConfig : ClusterConfig} {version : Version} {entries : dbEntriesForConfigTx} {sc : KVStore}
    (hnew : tx.newConfig = some newConfig) (hvalid : (validateConfig libs newConfig).flag = .VALID)
    (hconstruct : constructDBEntriesForConfigTx codecs tx config version = .ok entries)
    (hsc : db.dbs ConfigDBName = some sc)
    (hconfig : db'.dbs ConfigDBName = (db.dbs ConfigDBName).map (applyBatch · (configDBUpdates entries)))
    (hget' : db'.GetConfig codecs.config = .ok (config', metadata')) :
    ∃ cc, newConfig.consensusConfig = some cc ∧
      setMaxRaftId newConfig (newMaxRaftId config newConfig) = .ok config' ∧
      CommittedConsensus config' := by
  obtain ⟨newConfig', newConfigClone, hnew', hclone, hgetNew⟩ :=
    GetConfig_of_configDBUpdates hconstruct hsc hconfig
  rw [hnew, Option.some.injEq] at hnew'
  subst hnew'
  rw [hgetNew] at hget'
  obtain ⟨rfl, -⟩ := Prod.mk.inj (Except.ok.inj hget')
  obtain ⟨cc, hcc, hv⟩ := validateConfig_valid hvalid
  exact ⟨cc, hcc, hclone, committedConsensus_of_clone hcc hv hclone⟩

/-- **The genesis block** commits a committed consensus configuration. -/
theorem Processor.genesis_configuration {payload : Payload}
    (h : p.validateAndCommit LevelDB.Open payload = .ok db) :
    ∃ config metadata, db.GetConfig p.codecs.config = .ok (config, metadata) ∧
      CommittedConsensus config := by
  obtain ⟨validationInfo, dbsUpdates, hvalidate, hentries, hcommit⟩ := Processor.validateAndCommit_ok h
  have hone : LevelDB.Open.Height + 1 = 1 := rfl
  rw [hone] at hvalidate hentries hcommit
  obtain ⟨env, newConfig, rfl, hnew, hvalid, rfl⟩ := Processor.ValidateBlock_genesis hvalidate
  rw [Processor.constructDBEntries_config] at hentries
  rcases configTxEntries_ok hentries with ⟨hinvalid, -⟩ |
    ⟨-, committedConfig, md, entries, hcommitted, hconstruct, rfl⟩
  · exact absurd valid_flag hinvalid
  rw [LevelDB.GetConfig_Open] at hcommitted
  obtain ⟨rfl, -⟩ := Prod.mk.inj (Except.ok.inj hcommitted)
  obtain ⟨-, hconfig, -⟩ := commitToStateDB_configTxDBsUpdates hcommit
  obtain ⟨sc, hsc⟩ := Option.isSome_iff_exists.1
    (show (LevelDB.Open.dbs ConfigDBName).isSome = true by decide)
  obtain ⟨newConfig', newConfigClone, -, -, hgetNew⟩ := GetConfig_of_configDBUpdates hconstruct hsc hconfig
  obtain ⟨-, -, -, hcommitted⟩ :=
    committedConsensus_of_configDBUpdates hnew hvalid hconstruct hsc hconfig hgetNew
  exact ⟨newConfigClone, _, hgetNew, hcommitted⟩

/-- A valid configuration block after the genesis block commits a committed consensus
configuration that is a safe change from the committed one, which the validator read and the
transition rules accepted the change from. -/
theorem config_block_safe (hinv : WorldStateInv p.codecs db)
    (hget : db.GetConfig p.codecs.config = .ok (config, metadata)) (hold : CommittedConsensus config)
    {env : ConfigTxEnvelope} {valRes : ValidationInfo} {blockNum : UInt64} {entries : dbEntriesForConfigTx}
    (hvalidate : (configTxValidator p.codecs p.libs (p.verifyConfigTx db) db).Validate db env = .ok valRes)
    (hflag : valRes.flag = .VALID)
    (hconstruct : constructDBEntriesForConfigTx p.codecs env.payload config ⟨blockNum, 0⟩ = .ok entries)
    (hcommit : commitToStateDB db blockNum (configTxDBsUpdates entries) = .ok db')
    (hget' : db'.GetConfig p.codecs.config = .ok (config', metadata')) :
    CommittedConsensus config' ∧ SafeConfigChange config' config := by
  obtain ⟨newConfig, hnew, hvalid, currentConfig, md, hcurrent, hrules⟩ :=
    ConfigTxValidator.Validate_valid hvalidate hflag
  -- the validator read the committed configuration
  have hcurrent' : db.GetConfig p.codecs.config = .ok (currentConfig, md) := hcurrent
  rw [hget] at hcurrent'
  obtain ⟨rfl, -⟩ := Prod.mk.inj (Except.ok.inj hcurrent')
  obtain ⟨-, hconfig, -⟩ := commitToStateDB_configTxDBsUpdates hcommit
  obtain ⟨sc, hsc⟩ := Option.isSome_iff_exists.1 (hinv.systemDBs ConfigDBName (by decide))
  obtain ⟨cc, hcc, hclone, hcommitted⟩ :=
    committedConsensus_of_configDBUpdates hnew hvalid hconstruct hsc hconfig hget'
  exact ⟨hcommitted, safeConfigChange_of_clone hold hcc hclone
    (ConfigTxValidator.validateConfigTransitionRules_valid hrules hflag)⟩

/-- **Step lemma.** After the genesis block, a block of any kind leaves the configuration as it
was, or commits a committed consensus configuration that is a safe change from it. -/
theorem Processor.configuration_step (hinv : WorldStateInv p.codecs db)
    (hget : db.GetConfig p.codecs.config = .ok (config, metadata)) (hold : CommittedConsensus config)
    (hgenesis : db.Height + 1 ≠ 1) {payload : Payload} (h : p.validateAndCommit db payload = .ok db')
    (hget' : db'.GetConfig p.codecs.config = .ok (config', metadata')) :
    CommittedConsensus config' ∧ SafeConfigChange config' config := by
  -- a block that leaves `_config` leaves the configuration
  have hsame : db'.dbs ConfigDBName = db.dbs ConfigDBName →
      CommittedConsensus config' ∧ SafeConfigChange config' config := by
    intro hconfig
    rw [LevelDB.GetConfig_congr_configDB hconfig, hget] at hget'
    obtain ⟨rfl, -⟩ := Prod.mk.inj (Except.ok.inj hget')
    exact ⟨hold, SafeConfigChange.refl hold⟩
  cases payload with
  | dataTxEnvelopes envs => exact hsame ((validateAndCommit_data_frame h).1 _ (by decide) (by decide))
  | userAdministrationTxEnvelope env => exact hsame (validateAndCommit_userAdmin_configDB h)
  | dbAdministrationTxEnvelope env =>
    exact hsame ((validateAndCommit_dbAdmin_frame hinv.systemDBs h).1 _ (by decide) (by decide))
  | configTxEnvelope env =>
    obtain ⟨valRes, dbsUpdates, hvalidate, hentries, hcommit⟩ :=
      Processor.validateAndCommit_config_of_ne_genesis hgenesis h
    rcases configTxEntries_ok hentries with ⟨-, rfl⟩ |
      ⟨hflag, committedConfig, md, entries, hcommitted, hconstruct, rfl⟩
    · exact hsame (commitToStateDB_nil_system hcommit _ (by decide))
    rw [hget] at hcommitted
    obtain ⟨rfl, -⟩ := Prod.mk.inj (Except.ok.inj hcommitted)
    exact config_block_safe hinv hget hold hvalidate hflag hconstruct hcommit hget'

end Step

/-! ### The run -/

section Run

variable {p : Processor} {db : LevelDB} {configs : List ClusterConfig}

/-- **The run.** A run of the processor reaches its world state, one block per configuration
recorded, and the configurations it records form a safe Raft history whose newest is the one the
world state holds. -/
theorem Processor.History.raftHistory (h : p.History db configs) (hlen : configs.length < 2 ^ 64) :
    p.Reachable db ∧ db.Height.toNat = configs.length ∧ RaftHistory configs ∧
      ∃ c older metadata, configs = c :: older ∧ db.GetConfig p.codecs.config = .ok (c, metadata) := by
  induction h with
  | genesis hdb hget =>
    obtain ⟨config, metadata, hget', hcommitted⟩ := Processor.genesis_configuration hdb
    rw [hget'] at hget
    obtain ⟨rfl, -⟩ := Prod.mk.inj (Except.ok.inj hget)
    refine ⟨.single ⟨_, hdb⟩, ?_, RaftHistory.single hcommitted, _, [], _, rfl, hget'⟩
    rw [Processor.validateAndCommit_Height hdb, LevelDB.Height_Open]
    rfl
  | @block db db' configs payload config metadata _ hstep hget ih =>
    have hlen' : configs.length + 1 < 2 ^ 64 := hlen
    obtain ⟨hreach, hheight, hhistory, c, older, md, rfl, hgetOld⟩ := ih (by omega)
    -- the block's number has not come round to the genesis block's
    have hnext : (db.Height + 1).toNat = (c :: older).length + 1 := by
      rw [UInt64.toNat_add, hheight, UInt64.toNat_one, Nat.mod_eq_of_lt hlen']
    have hgenesis : db.Height + 1 ≠ 1 := by
      intro hone
      rw [hone, UInt64.toNat_one, List.length_cons] at hnext
      omega
    obtain ⟨hcommitted, hsafe⟩ := Processor.configuration_step hreach.worldStateInv hgetOld
      (hhistory.committed c List.mem_cons_self) hgenesis hstep hget
    refine ⟨hreach.tail ⟨_, hstep⟩, ?_, hhistory.cons hcommitted hsafe, _, _, _, rfl, hget⟩
    rw [Processor.validateAndCommit_Height hstep, hnext]
    rfl

/-- **Raft membership history is safe over every run of the processor.** Whatever blocks a node
processes after the genesis block (data, user administration, database administration or
configuration blocks, valid or not), its world state is one a new node reaches, at the height of
the number of blocks, and over the configurations it holds after each block, newest first: each
is a committed consensus configuration; each is a safe change from the one before; each
configuration's `MaxRaftId` bounds the Raft IDs of every configuration before it; a Raft ID names
one node over the whole history; and the newest is the one the node holds. -/
theorem processor_raft_membership_history_safe (h : p.History db configs)
    (hlen : configs.length < 2 ^ 64) :
    p.Reachable db ∧ db.Height.toNat = configs.length ∧
      (∀ c ∈ configs, CommittedConsensus c) ∧
      configs.IsChain SafeConfigChange ∧
      (configs.Pairwise fun newer older => ∀ p ∈ older.GetPeers, p.raftId ≤ newer.GetMaxRaftId) ∧
      (∀ c ∈ configs, ∀ c' ∈ configs, ∀ m ∈ c.GetMembers, ∀ m' ∈ c'.GetMembers,
        m.raftId = m'.raftId → m.nodeId = m'.nodeId) ∧
      ∃ c older metadata, configs = c :: older ∧ db.GetConfig p.codecs.config = .ok (c, metadata) := by
  obtain ⟨hreach, hheight, hhistory, hnewest⟩ := h.raftHistory hlen
  exact ⟨hreach, hheight, hhistory.committed, hhistory.chain, hhistory.bounded,
    hhistory.raftId_nodeId, hnewest⟩

/-- The genesis block of the one-node cluster, then the block that makes `node2` a member, on a
node that accepts every certificate and signature. -/
theorem acceptingProcessor_joinNode2 :
    ∃ db₁ db₂, acceptingProcessor.validateAndCommit LevelDB.Open (.configTxEnvelope oneNodeGenesis) = .ok db₁ ∧
      db₁.GetConfig exampleCodecs.config = .ok (oneNodeCommitted, some ⟨some ⟨1, 0⟩, none⟩) ∧
      acceptingProcessor.validateAndCommit db₁ (.configTxEnvelope joinNode2) = .ok db₂ ∧
      db₂.GetConfig exampleCodecs.config = .ok (twoNodeCommitted, some ⟨some ⟨2, 0⟩, none⟩) := by
  have hrun : (do
      let db₁ ← acceptingProcessor.validateAndCommit LevelDB.Open (.configTxEnvelope oneNodeGenesis)
      let config₁ ← db₁.GetConfig exampleCodecs.config
      let db₂ ← acceptingProcessor.validateAndCommit db₁ (.configTxEnvelope joinNode2)
      let config₂ ← db₂.GetConfig exampleCodecs.config
      pure (config₁, config₂)) =
      Except.ok ((oneNodeCommitted, some ⟨some ⟨1, 0⟩, none⟩),
        (twoNodeCommitted, some ⟨some ⟨2, 0⟩, none⟩)) := by
    decide +kernel
  exact Except.step_read_step_read_eq_ok hrun

/-- `node2` joins the one-node cluster: a run of the processor of two configuration blocks, the
second a valid change that adds one Raft member. -/
theorem processor_raft_membership_history_safe_one_member_joins :
    ∃ db, acceptingProcessor.History db [twoNodeCommitted, oneNodeCommitted] ∧
      [twoNodeCommitted, oneNodeCommitted].length < 2 ^ 64 ∧
      (acceptingProcessor.Reachable db ∧ db.Height.toNat = [twoNodeCommitted, oneNodeCommitted].length ∧
        (∀ c ∈ [twoNodeCommitted, oneNodeCommitted], CommittedConsensus c) ∧
        [twoNodeCommitted, oneNodeCommitted].IsChain SafeConfigChange ∧
        ([twoNodeCommitted, oneNodeCommitted].Pairwise fun newer older =>
          ∀ p ∈ older.GetPeers, p.raftId ≤ newer.GetMaxRaftId) ∧
        (∀ c ∈ [twoNodeCommitted, oneNodeCommitted], ∀ c' ∈ [twoNodeCommitted, oneNodeCommitted],
          ∀ m ∈ c.GetMembers, ∀ m' ∈ c'.GetMembers, m.raftId = m'.raftId → m.nodeId = m'.nodeId) ∧
        ∃ c older metadata, [twoNodeCommitted, oneNodeCommitted] = c :: older ∧
          db.GetConfig acceptingProcessor.codecs.config = .ok (c, metadata)) := by
  obtain ⟨db₁, db₂, h₁, hget₁, h₂, hget₂⟩ := acceptingProcessor_joinNode2
  have hhistory : acceptingProcessor.History db₂ [twoNodeCommitted, oneNodeCommitted] :=
    .block (.genesis h₁ hget₁) h₂ hget₂
  exact ⟨db₂, hhistory, by decide, processor_raft_membership_history_safe hhistory (by decide)⟩

end Run

end Orion.BlockProcessor
