import Orion.Identity.Querier

/-!
# Runs of configuration blocks (`internal/blockprocessor`, `internal/txvalidation/config_tx_validator.go`)

The block processor on configuration blocks: the genesis block is checked by `validateGenesis`
and committed to the world state of a new node, each later one is checked by `Validate` against
the committed state and committed after it (`commitConfigBlock`). The validator asks the identity
querier whether the submitter is a cluster admin. `ConfigRun` is a run of such blocks with the
configuration `GetConfig` reads after each, newest first. The block store and the state trie,
which a configuration block also reaches, are left out: neither is read here.

## What is proved

`ConfigRun.raftHistory`: over every run, each committed consensus configuration is valid and its
`MaxRaftId` bounds every Raft ID committed up to it, a Raft ID names one node over the whole
history, a member keeps its Raft ID while it stays a member, and two consecutive configurations
differ by at most one member added or removed.
-/

namespace Orion.BlockProcessor

open Orion.State Orion.Types Orion.WorldState Orion.TxValidation Orion.Replication Orion.Lib

section Committer

variable (codecs : Codecs)

variable (libs : ConfigLibs) (Verify : String → Bytes → ConfigTx → Option String)

/-- The configuration validator of a node whose world state is `db`: its admin check is the
identity querier's `HasAdministrationPrivilege`, with the querier's errors as text. -/
def configTxValidator (db : LevelDB) : ConfigTxValidator :=
  ⟨libs, codecs.config, Verify, fun userID =>
    (Identity.HasAdministrationPrivilege codecs.user db userID).mapError Identity.QuerierError.Error⟩

/-- The genesis block, which a new node creates: `validateGenesis`, then committed as block `1`. -/
def processGenesisBlock (env : ConfigTxEnvelope) : Except String LevelDB := do
  let validationInfo ← (configTxValidator codecs libs Verify LevelDB.Open).validateGenesis env
  commitConfigBlock codecs LevelDB.Open 1 env validationInfo

/-- A later configuration block, the one after the committed state: `Validate`, then committed. -/
def processConfigBlock (db : LevelDB) (env : ConfigTxEnvelope) : Except String LevelDB := do
  let valRes ← ((configTxValidator codecs libs Verify db).Validate db env).mapError
    ("error while validating config transaction: " ++ ·)
  commitConfigBlock codecs db (db.Height + 1) env [valRes]

/-- A run of configuration blocks from the genesis block: the world state after the last one, and
the configuration `GetConfig` reads after each block, newest first. -/
inductive ConfigRun : LevelDB → List ClusterConfig → Prop
  /-- The genesis block. -/
  | genesis {env : ConfigTxEnvelope} {db : LevelDB} {config : ClusterConfig}
      {metadata : Option Metadata} :
      processGenesisBlock codecs libs Verify env = .ok db →
      db.GetConfig codecs.config = .ok (config, metadata) →
      ConfigRun db [config]
  /-- The next configuration block. -/
  | block {db db' : LevelDB} {configs : List ClusterConfig} {env : ConfigTxEnvelope}
      {config : ClusterConfig} {metadata : Option Metadata} :
      ConfigRun db configs →
      processConfigBlock codecs libs Verify db env = .ok db' →
      db'.GetConfig codecs.config = .ok (config, metadata) →
      ConfigRun db' (config :: configs)

end Committer

section Run

variable {codecs : Codecs} {libs : ConfigLibs} {Verify : String → Bytes → ConfigTx → Option String}

/-- **Progress of the genesis block.** A valid configuration is committed on a new node, and
`GetConfig` reads it back. -/
theorem processGenesisBlock_of_valid {env : ConfigTxEnvelope} {newConfig : ClusterConfig}
    (hnew : env.payload.newConfig = some newConfig)
    (hvalid : (validateConfig libs newConfig).flag = .VALID) :
    ∃ db config metadata, processGenesisBlock codecs libs Verify env = .ok db ∧
      db.GetConfig codecs.config = .ok (config, metadata) := by
  obtain ⟨cc, hcc, hv⟩ := validateConfig_valid hvalid
  have hgenesis : (configTxValidator codecs libs Verify LevelDB.Open).validateGenesis env =
      .ok [.valid] := by
    unfold ConfigTxValidator.validateGenesis
    rw [hnew]
    dsimp only
    rw [if_neg (by simp [configTxValidator, hvalid])]
  obtain ⟨db, hdb⟩ := commitConfigBlock_progress (LevelDB.GetConfig_Open codecs.config)
    (by decide) (by decide) hnew hcc hv.raftConfig_isSome
  obtain ⟨-, -, -, newConfigClone, -, -, -, hget⟩ := commitConfigBlock_valid rfl hdb
  refine ⟨db, newConfigClone, _, ?_, hget⟩
  rw [processGenesisBlock, hgenesis, Except.ok_bind]
  exact hdb

theorem processConfigBlock_ok {db db' : LevelDB} {env : ConfigTxEnvelope}
    (h : processConfigBlock codecs libs Verify db env = .ok db') :
    ∃ valRes, (configTxValidator codecs libs Verify db).Validate db env = .ok valRes ∧
      commitConfigBlock codecs db (db.Height + 1) env [valRes] = .ok db' := by
  obtain ⟨valRes, hvalidate, hcommit⟩ := Except.bind_eq_ok.1 h
  exact ⟨valRes, Except.mapError_eq_ok.1 hvalidate, hcommit⟩

/-- **The run.** Over every run of configuration blocks the committed configurations keep the
Raft membership invariant, and the newest is the one the world state holds. -/
theorem ConfigRun.raftHistory {db : LevelDB} {configs : List ClusterConfig}
    (hrun : ConfigRun codecs libs Verify db configs) :
    RaftHistory configs ∧
      ∃ c older metadata, configs = c :: older ∧ db.GetConfig codecs.config = .ok (c, metadata) := by
  induction hrun with
  | genesis hgenesis hget =>
    obtain ⟨validationInfo, hvalidate, hcommit⟩ := Except.bind_eq_ok.1 hgenesis
    obtain ⟨newConfig, hnew, hvalid, rfl⟩ := ConfigTxValidator.validateGenesis_ok hvalidate
    obtain ⟨committedConfig, -, newConfig', newConfigClone, -, hnew', hclone, hget'⟩ :=
      commitConfigBlock_valid rfl hcommit
    rw [hnew] at hnew'
    cases hnew'
    rw [hget'] at hget
    cases hget
    obtain ⟨cc, hcc, hv⟩ := validateConfig_valid hvalid
    exact ⟨RaftHistory.single (committedConsensus_of_clone hcc hv hclone), _, _, _, rfl, hget'⟩
  | block _ hblock hget ih =>
    obtain ⟨hhistory, c, older, metadata, rfl, hgetOld⟩ := ih
    obtain ⟨valRes, hvalidate, hcommit⟩ := processConfigBlock_ok hblock
    have hold : CommittedConsensus c := hhistory.committed c List.mem_cons_self
    by_cases hvalid : valRes.flag = .VALID
    · obtain ⟨newConfig, hnew, hconfig, currentConfig, md, hcurrent, hrules⟩ :=
        ConfigTxValidator.Validate_valid hvalidate hvalid
      obtain ⟨committedConfig, md', newConfig', newConfigClone, hcommitted, hnew', hclone, hget'⟩ :=
        commitConfigBlock_valid hvalid hcommit
      -- the validator and the committer read the same committed configuration, the newest
      have hcurrent' : LevelDB.GetConfig codecs.config _ = .ok (currentConfig, md) := hcurrent
      rw [hgetOld] at hcurrent' hcommitted
      cases hcurrent'
      cases hcommitted
      rw [hnew] at hnew'
      cases hnew'
      rw [hget'] at hget
      cases hget
      obtain ⟨cc, hcc, hv⟩ := validateConfig_valid hconfig
      have hrules' := ConfigTxValidator.validateConfigTransitionRules_valid hrules hvalid
      exact ⟨hhistory.cons (committedConsensus_of_clone hcc hv hclone)
        (safeConfigChange_of_clone hold hcc hclone hrules'), _, _, _, rfl, hget'⟩
    · -- an invalid transaction leaves the configuration as it was
      have hsame := commitConfigBlock_invalid hvalid hcommit
      rw [hsame, hgetOld] at hget
      cases hget
      exact ⟨hhistory.cons hold (SafeConfigChange.refl hold), _, _, _, rfl, hsame ▸ hgetOld⟩

/-- **Raft membership history is safe.** Over every run of configuration blocks, with the
committed configurations newest first: each configuration's `MaxRaftId` bounds the Raft IDs of
its peers and of every configuration before it; a Raft ID names one node over the whole history;
and from one configuration to the next a member keeps its Raft ID and at most one member is added
or removed. -/
theorem raft_membership_history_safe {db : LevelDB} {configs : List ClusterConfig}
    (hrun : ConfigRun codecs libs Verify db configs) :
    (∀ c ∈ configs, ∀ p ∈ c.GetPeers, p.raftId ≤ c.GetMaxRaftId) ∧
      (configs.Pairwise fun newer older => ∀ p ∈ older.GetPeers, p.raftId ≤ newer.GetMaxRaftId) ∧
      (∀ c ∈ configs, ∀ c' ∈ configs, ∀ m ∈ c.GetMembers, ∀ m' ∈ c'.GetMembers,
        m.raftId = m'.raftId → m.nodeId = m'.nodeId) ∧
      configs.IsChain fun newer older =>
        (∀ m ∈ older.GetMembers, ∀ m' ∈ newer.GetMembers, m.nodeId = m'.nodeId → m.raftId = m'.raftId) ∧
        (addedMembers older.GetMembers newer.GetMembers).length +
          (addedMembers newer.GetMembers older.GetMembers).length ≤ 1 := by
  obtain ⟨h, -⟩ := hrun.raftHistory
  refine ⟨fun c hc => (h.committed c hc).raftId_le, h.bounded, h.raftId_nodeId, ?_⟩
  exact h.chain.imp fun _ _ hsafe => ⟨hsafe.keepsRaftId, hsafe.oneChange⟩

end Run

/-- The example cluster's run: the genesis block of the one-node cluster, then the block by which
`node2` joins. -/
theorem joinNode2_run :
    ∃ db₁ db₂, processGenesisBlock exampleCodecs acceptingLibs (fun _ _ _ => none) oneNodeGenesis = .ok db₁ ∧
      db₁.GetConfig exampleCodecs.config = .ok (oneNodeCommitted, some ⟨some ⟨1, 0⟩, none⟩) ∧
      processConfigBlock exampleCodecs acceptingLibs (fun _ _ _ => none) db₁ joinNode2 = .ok db₂ ∧
      db₂.GetConfig exampleCodecs.config = .ok (twoNodeCommitted, some ⟨some ⟨2, 0⟩, none⟩) := by
  have hrun : (do
      let db₁ ← processGenesisBlock exampleCodecs acceptingLibs (fun _ _ _ => none) oneNodeGenesis
      let config₁ ← db₁.GetConfig exampleCodecs.config
      let db₂ ← processConfigBlock exampleCodecs acceptingLibs (fun _ _ _ => none) db₁ joinNode2
      let config₂ ← db₂.GetConfig exampleCodecs.config
      pure (config₁, config₂)) =
      Except.ok ((oneNodeCommitted, some ⟨some ⟨1, 0⟩, none⟩),
        (twoNodeCommitted, some ⟨some ⟨2, 0⟩, none⟩)) := by
    decide +kernel
  exact Except.step_read_step_read_eq_ok hrun

/-- `node2` joins the one-node cluster: a run of two configuration blocks whose second adds a
Raft member. -/
theorem raft_membership_history_safe_one_member_joins :
    ∃ db, ConfigRun exampleCodecs acceptingLibs (fun _ _ _ => none) db [twoNodeCommitted, oneNodeCommitted] ∧
      ((∀ c ∈ [twoNodeCommitted, oneNodeCommitted], ∀ p ∈ c.GetPeers, p.raftId ≤ c.GetMaxRaftId) ∧
        ([twoNodeCommitted, oneNodeCommitted].Pairwise fun newer older =>
          ∀ p ∈ older.GetPeers, p.raftId ≤ newer.GetMaxRaftId) ∧
        (∀ c ∈ [twoNodeCommitted, oneNodeCommitted], ∀ c' ∈ [twoNodeCommitted, oneNodeCommitted],
          ∀ m ∈ c.GetMembers, ∀ m' ∈ c'.GetMembers, m.raftId = m'.raftId → m.nodeId = m'.nodeId) ∧
        [twoNodeCommitted, oneNodeCommitted].IsChain fun newer older =>
          (∀ m ∈ older.GetMembers, ∀ m' ∈ newer.GetMembers, m.nodeId = m'.nodeId → m.raftId = m'.raftId) ∧
          (addedMembers older.GetMembers newer.GetMembers).length +
            (addedMembers newer.GetMembers older.GetMembers).length ≤ 1) := by
  obtain ⟨db₁, db₂, h₁, hget₁, h₂, hget₂⟩ := joinNode2_run
  have hrun := ConfigRun.block (ConfigRun.genesis h₁ hget₁) h₂ hget₂
  exact ⟨db₂, hrun, raft_membership_history_safe hrun⟩

end Orion.BlockProcessor
