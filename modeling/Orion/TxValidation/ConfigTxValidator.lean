import Orion.TxValidation.DataTxValidator
import Orion.Replication.Utils

/-!
# Validation of a configuration transaction (`internal/txvalidation/config_tx_validator.go`)

A new cluster configuration is valid on its own (`validateConfig`) when its certificate
authorities verify, its nodes and admins have non-empty unique IDs and certificates signed by
those authorities, its consensus configuration is a Raft configuration whose members have unique
node IDs, Raft IDs and endpoints, whose observers have no Raft ID, and whose Raft parameters are
set, and when every member is a node with a different endpoint. A configuration transaction is
then valid (`Validate`) when its signature verifies, its submitter is a cluster admin, it read the
committed configuration, and the change of the consensus configuration is one Raft can make
(`validateConfigTransitionRules`, `VerifyConsensusReConfig`). The genesis block's configuration is
only checked on its own (`validateGenesis`).

The libraries the checks call (`certificateauthority`, `net`, `url`, `time`) are given functions
(`ConfigLibs`), and so are the signature verifier and the identity querier; the results proved
here hold whatever they answer. Go's loops that remember the IDs seen so far are recursions with
the lists of those IDs.

What is proved: a valid consensus configuration has one member per node ID and per Raft ID,
observers without a Raft ID and a Raft configuration (`validateConsensusConfig_valid`), and a
valid transaction carries such a configuration, reached from the committed one by a change that
`VerifyConsensusReConfig` accepts, unless the consensus configuration is unchanged
(`Validate_valid`).
-/

namespace Orion.TxValidation

open Orion.State Orion.Types Orion.WorldState Orion.Replication Orion.Lib

/-- What the configuration checks ask of the libraries they call. An error is its text. -/
structure ConfigLibs where
  /-- `certificateauthority.CACertCollection`. -/
  CACertCollection : Type
  /-- `NewCACertCollection(roots, intermediates)`. -/
  NewCACertCollection : List Bytes → List Bytes → Except String CACertCollection
  /-- `VerifyCollection()`, `none` when the collection verifies. -/
  VerifyCollection : CACertCollection → Option String
  /-- `VerifyLeafCert(certificate)`, `none` when the certificate verifies. -/
  VerifyLeafCert : CACertCollection → Bytes → Option String
  /-- `net.ParseIP(host) != nil`. -/
  ParseIP : String → Bool
  /-- `url.Parse(rawURL)`, then the URL's `Hostname()`. -/
  urlHostname : String → Except String String
  /-- `time.ParseDuration`, in nanoseconds. -/
  ParseDuration : String → Except String Int

section Checks

variable (libs : ConfigLibs)

/-- `fmt.Sprintf("%s:%d", host, port)`. -/
def hostPortString (host : String) (port : UInt32) : String := host ++ ":" ++ toString port

/-- `validateHostPort`: the error's text, `none` for a valid endpoint. -/
def validateHostPort (host : String) (port : UInt32) : Option String :=
  if host = "" then some "an empty host"
  -- either an IP address, or a host name that a URL reads back
  else if !libs.ParseIP host &&
      (match libs.urlHostname ("bogus://" ++ host) with
        | .error _ => true
        | .ok hostname => hostname != host) then
    some ("an invalid host [" ++ host ++ "]")
  else if port = 0 ∨ port ≥ 65536 then some ("an invalid port number [" ++ toString port ++ "]")
  else none

/-- `validateCAConfig`: the certificate collection, or the invalid result. -/
def validateCAConfig : Option CAConfig → Except ValidationInfo libs.CACertCollection
  | none => .error (invalid .INVALID_INCORRECT_ENTRIES
      "CA config is empty. At least one root CA is required")
  | some caConfig =>
    if caConfig.roots = [] then
      .error (invalid .INVALID_INCORRECT_ENTRIES
        "CA config Roots is empty. At least one root CA is required")
    else
      match libs.NewCACertCollection caConfig.roots caConfig.intermediates with
      | .error err => .error (invalid .INVALID_INCORRECT_ENTRIES
          ("CA certificate collection cannot be created: " ++ err))
      | .ok caCertCollection =>
        match libs.VerifyCollection caCertCollection with
        | some err => .error (invalid .INVALID_INCORRECT_ENTRIES
            ("CA certificate collection is invalid: " ++ err))
        | none => .ok caCertCollection

/-- The loop of `validateNodeConfig`, with the node IDs and endpoints seen so far. -/
def validateNodes (caCertCollection : libs.CACertCollection) :
    List String → List String → List NodeConfig → ValidationInfo
  | _, _, [] => .valid
  | nodeIDsSet, hostPortSet, n :: rest =>
    if n.id = "" then
      invalid .INVALID_INCORRECT_ENTRIES
        "there is a node in the node config with an empty ID. A valid nodeID must be an non-empty string"
    else
      match libs.VerifyLeafCert caCertCollection n.certificate with
      | some err => invalid .INVALID_INCORRECT_ENTRIES
          ("the node [" ++ n.id ++ "] has an invalid certificate: " ++ err)
      | none =>
        match validateHostPort libs n.address n.port with
        | some err => invalid .INVALID_INCORRECT_ENTRIES ("the node [" ++ n.id ++ "] has " ++ err)
        | none =>
          if n.id ∈ nodeIDsSet then
            invalid .INVALID_INCORRECT_ENTRIES ("there are two nodes with the same ID [" ++ n.id ++
              "] in the node config. The node IDs must be unique")
          else
            let hostPort := hostPortString n.address n.port
            if hostPort ∈ hostPortSet then
              invalid .INVALID_INCORRECT_ENTRIES ("there are two nodes with the same Host:Port [" ++
                hostPort ++ "] in the node config. Endpoints must be unique")
            else validateNodes caCertCollection (n.id :: nodeIDsSet) (hostPort :: hostPortSet) rest

/-- `validateNodeConfig`. -/
def validateNodeConfig (nodes : List NodeConfig) (caCertCollection : libs.CACertCollection) :
    ValidationInfo :=
  if nodes = [] then
    invalid .INVALID_INCORRECT_ENTRIES
      "node config is empty. There must be at least single node in the cluster"
  else validateNodes libs caCertCollection [] [] nodes

/-- The loop of `validateAdminConfig`, with the admin IDs seen so far. -/
def validateAdmins (caCertCollection : libs.CACertCollection) :
    List String → List Admin → ValidationInfo
  | _, [] => .valid
  | adminIDs, a :: rest =>
    if a.id = "" then
      invalid .INVALID_INCORRECT_ENTRIES
        "there is an admin in the admin config with an empty ID. A valid adminID must be an non-empty string"
    else
      match libs.VerifyLeafCert caCertCollection a.certificate with
      | some err => invalid .INVALID_INCORRECT_ENTRIES
          ("the admin [" ++ a.id ++ "] has an invalid certificate: " ++ err)
      | none =>
        if a.id ∈ adminIDs then
          invalid .INVALID_INCORRECT_ENTRIES ("there are two admins with the same ID [" ++ a.id ++
            "] in the admin config. The admin IDs must be unique")
        else validateAdmins caCertCollection (a.id :: adminIDs) rest

/-- `validateAdminConfig`. -/
def validateAdminConfig (admins : List Admin) (caCertCollection : libs.CACertCollection) :
    ValidationInfo :=
  if admins = [] then
    invalid .INVALID_INCORRECT_ENTRIES
      "admin config is empty. There must be at least single admin in the cluster"
  else validateAdmins libs caCertCollection [] admins

/-- The loop of `validateConsensusConfig` over the members, with the node IDs, endpoints and Raft
IDs seen so far; the node IDs and endpoints are then checked against the observers'. -/
def validateMembers :
    List String → List String → List UInt64 → List PeerConfig →
      Except ValidationInfo (List String × List String)
  | nodeIDsSet, hostPortSet, _, [] => .ok (nodeIDsSet, hostPortSet)
  | nodeIDsSet, hostPortSet, raftIDSet, m :: rest =>
    if m.nodeId = "" then
      .error (invalid .INVALID_INCORRECT_ENTRIES
        "Consensus config has a member with an empty ID. A valid nodeID must be an non-empty string.")
    else if m.raftId = 0 then
      .error (invalid .INVALID_INCORRECT_ENTRIES
        ("Consensus config has a member [" ++ m.nodeId ++ "] with Raft ID 0, must be >0."))
    else
      match validateHostPort libs m.peerHost m.peerPort with
      | some err => .error (invalid .INVALID_INCORRECT_ENTRIES
          ("Consensus config has a member [" ++ m.nodeId ++ "] with " ++ err))
      | none =>
        if m.nodeId ∈ nodeIDsSet then
          .error (invalid .INVALID_INCORRECT_ENTRIES ("Consensus config has two members with the same ID [" ++
            m.nodeId ++ "], the node IDs must be unique."))
        else if m.raftId ∈ raftIDSet then
          .error (invalid .INVALID_INCORRECT_ENTRIES
            ("Consensus config has two members with the same Raft ID [" ++ toString m.raftId ++
              "], Raft IDs must be unique."))
        else
          let hostPort := hostPortString m.peerHost m.peerPort
          if hostPort ∈ hostPortSet then
            .error (invalid .INVALID_INCORRECT_ENTRIES
              ("Consensus config has two members with the same Host:Port [" ++ hostPort ++
                "], endpoints must be unique."))
          else
            validateMembers (m.nodeId :: nodeIDsSet) (hostPort :: hostPortSet) (m.raftId :: raftIDSet) rest

/-- The loop of `validateConsensusConfig` over the observers. -/
def validateObservers : List String → List String → List PeerConfig → ValidationInfo
  | _, _, [] => .valid
  | nodeIDsSet, hostPortSet, o :: rest =>
    if o.nodeId = "" then
      invalid .INVALID_INCORRECT_ENTRIES
        "Consensus config has an observer with an empty ID. A valid nodeID must be an non-empty string."
    else if o.raftId ≠ 0 then
      invalid .INVALID_INCORRECT_ENTRIES
        ("Consensus config has an observer [" ++ o.nodeId ++ "] with Raft ID >0.")
    else
      match validateHostPort libs o.peerHost o.peerPort with
      | some err => invalid .INVALID_INCORRECT_ENTRIES
          ("Consensus config has an observer [" ++ o.nodeId ++ "] with " ++ err)
      | none =>
        if o.nodeId ∈ nodeIDsSet then
          invalid .INVALID_INCORRECT_ENTRIES ("Consensus config has two peers with the same ID [" ++
            o.nodeId ++ "], the node IDs must be unique.")
        else
          let hostPort := hostPortString o.peerHost o.peerPort
          if hostPort ∈ hostPortSet then
            invalid .INVALID_INCORRECT_ENTRIES ("Consensus config has two peers with the same Host:Port [" ++
              hostPort ++ "], endpoints must be unique.")
          else validateObservers (o.nodeId :: nodeIDsSet) (hostPort :: hostPortSet) rest

/-- The checks of `validateConsensusConfig` on the Raft parameters. -/
def validateRaftConfig : Option RaftConfig → ValidationInfo
  | none => invalid .INVALID_INCORRECT_ENTRIES "Consensus config RaftConfig is empty."
  | some raftConfig =>
    if raftConfig.tickInterval = "" then
      invalid .INVALID_INCORRECT_ENTRIES "Consensus config RaftConfig.TickInterval is empty."
    else if raftConfig.heartbeatTicks = 0 then
      invalid .INVALID_INCORRECT_ENTRIES "Consensus config RaftConfig.HeartbeatTicks is 0."
    else if raftConfig.electionTicks = 0 then
      invalid .INVALID_INCORRECT_ENTRIES "Consensus config RaftConfig.ElectionTicks is 0."
    else
      match libs.ParseDuration raftConfig.tickInterval with
      | .error err => invalid .INVALID_INCORRECT_ENTRIES
          ("Consensus config RaftConfig.TickInterval is invalid: " ++ err)
      | .ok d =>
        if d ≤ 0 then
          invalid .INVALID_INCORRECT_ENTRIES
            ("Consensus config RaftConfig.TickInterval is invalid: " ++ raftConfig.tickInterval)
        else .valid

/-- `validateConsensusConfig`: the internal consistency of the consensus configuration. -/
def validateConsensusConfig : Option ConsensusConfig → ValidationInfo
  | none => invalid .INVALID_INCORRECT_ENTRIES "Consensus config is empty."
  | some consensusConf =>
    if consensusConf.algorithm ≠ "raft" then
      invalid .INVALID_INCORRECT_ENTRIES
        ("Consensus config Algorithm \x27" ++ consensusConf.algorithm ++ "\x27 is not supported.")
    else if consensusConf.members = [] then
      invalid .INVALID_INCORRECT_ENTRIES
        "Consensus config has no member peers. At least one member peer is required."
    else
      match validateMembers libs [] [] [] consensusConf.members with
      | .error vi => vi
      | .ok (nodeIDsSet, hostPortSet) =>
        let vi := validateObservers libs nodeIDsSet hostPortSet consensusConf.observers
        if vi.flag != .VALID then vi else validateRaftConfig libs consensusConf.raftConfig

/-- The check of `validateMembersNodesMatch` on one member, against the nodes by ID. -/
def memberNodeMismatch (nodesMap : String → Option NodeConfig) (m : PeerConfig) :
    Option ValidationInfo :=
  match nodesMap m.nodeId with
  | none => some (invalid .INVALID_INCORRECT_ENTRIES
      ("ClusterConfig.Nodes set does not include ClusterConfig.ConsensusConfig.Members peer [" ++
        m.nodeId ++ "], Nodes set must include all Members."))
  | some n =>
    let nHostPort := hostPortString n.address n.port
    if nHostPort = hostPortString m.peerHost m.peerPort then
      some (invalid .INVALID_INCORRECT_ENTRIES ("ClusterConfig node [" ++ m.nodeId ++
        "] and respective peer have the same endpoint [" ++ nHostPort ++
        "], node and peer endpoints must be unique."))
    else none

/-- `validateMembersNodesMatch`. -/
def validateMembersNodesMatch (members : List PeerConfig) (nodes : List NodeConfig) : ValidationInfo :=
  if nodes.length ≠ members.length then
    invalid .INVALID_INCORRECT_ENTRIES ("ClusterConfig.Nodes must be the same length as " ++
      "ClusterConfig.ConsensusConfig.Members, and Nodes set must include all Members")
  else
    let nodesMap := applyUpdates (fun _ => none) (nodes.map fun n => (n.id, some n))
    match members.findSome? (memberNodeMismatch nodesMap) with
    | some vi => vi
    | none => .valid

/-- `validateConfig`: the checks of a configuration on its own, in Go's order. -/
def validateConfig (config : ClusterConfig) : ValidationInfo :=
  match validateCAConfig libs config.certAuthConfig with
  | .error vi => vi
  | .ok caCertCollection =>
    let vi := validateNodeConfig libs config.nodes caCertCollection
    if vi.flag != .VALID then vi
    else
      let vi := validateAdminConfig libs config.admins caCertCollection
      if vi.flag != .VALID then vi
      else
        let vi := validateConsensusConfig libs config.consensusConfig
        if vi.flag != .VALID then vi
        -- the consensus configuration is not `nil` here
        else validateMembersNodesMatch config.GetMembers config.nodes

end Checks

/-- `ConfigTxValidator`: the libraries, the wire form of the committed configuration, and what
the validator asks of the signature verifier (`Verify(user, signature, marshal(payload))`, `none`
when it verifies) and of the identity querier. -/
structure ConfigTxValidator where
  libs : ConfigLibs
  codec : ProtoCodec ClusterConfig
  Verify : String → Bytes → ConfigTx → Option String
  HasAdministrationPrivilege : String → Except String Bool

namespace ConfigTxValidator

/-- `mvccValidation`: the configuration was read at its committed version. -/
def mvccValidation (readOldConfigVersion : Option Version) (currentConfigMetadata : Option Metadata) :
    ValidationInfo :=
  if currentConfigMetadata.bind Metadata.version ≠ readOldConfigVersion then
    invalid .INVALID_MVCC_CONFLICT_WITH_COMMITTED_STATE
      "mvcc conflict has occurred as the read old configuration does not match the committed version"
  else .valid

/-- `validateConfigTransitionRules`: a change of the consensus configuration must pass
`VerifyConsensusReConfig`; the other changes are only logged. -/
def validateConfigTransitionRules (currentConfig updatedConfig : ClusterConfig) :
    Except String ValidationInfo :=
  let (_, consensus, _, _) := ClassifyClusterReConfig currentConfig updatedConfig
  if consensus then
    match VerifyConsensusReConfig currentConfig.consensusConfig updatedConfig.consensusConfig with
    | .ok () => .ok .valid
    | .error err =>
      -- a `nil` configuration is dereferenced: Go panics, and nothing recovers
      if err = runtimeNilDereference then .error err
      else .ok (invalid .INVALID_INCORRECT_ENTRIES ("error in ConsensusConfig: " ++ err))
  else .ok .valid

/-- `Validate`: the checks of a configuration transaction against the committed state, in Go's
order. -/
def Validate (v : ConfigTxValidator) (db : LevelDB) (txEnv : ConfigTxEnvelope) :
    Except String ValidationInfo :=
  let valInfo := match v.Verify txEnv.payload.userId txEnv.signature txEnv.payload with
    | none => ValidationInfo.valid
    | some err => invalid .INVALID_UNAUTHORISED ("signature verification failed: " ++ err)
  if valInfo.flag != .VALID then .ok valInfo
  else
    let tx := txEnv.payload
    match v.HasAdministrationPrivilege tx.userId with
    | .error err => .error ("error while checking cluster administrative privilege for user [" ++
        tx.userId ++ "]: " ++ err)
    | .ok false => .ok (invalid .INVALID_NO_PERMISSION ("the user [" ++ tx.userId ++
        "] has no privilege to perform cluster administrative operations"))
    | .ok true =>
      match tx.newConfig with
      | none => .ok (invalid .INVALID_INCORRECT_ENTRIES
          "new config is empty. There must be at least single node and an admin in the cluster")
      | some newConfig =>
        let vi := validateConfig v.libs newConfig
        if vi.flag != .VALID then .ok vi
        else
          match db.GetConfig v.codec with
          | .error err => .error err
          | .ok (clusterConfig, configMetadata) =>
            let vi := mvccValidation tx.readOldConfigVersion configMetadata
            if vi.flag != .VALID then .ok vi
            else validateConfigTransitionRules clusterConfig newConfig

/-- `validateGenesis`: the genesis block's configuration, checked on its own. A genesis block
without a configuration is dereferenced. -/
def validateGenesis (v : ConfigTxValidator) (txEnv : ConfigTxEnvelope) :
    Except String (List ValidationInfo) :=
  match txEnv.payload.newConfig with
  | none => .error runtimeNilDereference
  | some newConfig =>
    let vi := validateConfig v.libs newConfig
    if vi.flag != .VALID then
      .error ("genesis block cannot be invalid: reason for invalidation [" ++ vi.reasonIfInvalid ++ "]")
    else .ok [.valid]

end ConfigTxValidator

end Orion.TxValidation

namespace Orion.TxValidation

open Orion.State Orion.Types Orion.WorldState Orion.Replication Orion.Lib

/-! ### What a `VALID` configuration guarantees -/

/-- Go's `if vi.Flag != VALID { return vi }` before the rest: a valid answer passed both. -/
theorem valid_of_check {vi rest : ValidationInfo}
    (h : (if (vi.flag != .VALID) = true then vi else rest).flag = .VALID) :
    vi.flag = .VALID ∧ rest.flag = .VALID := by
  by_cases hvi : vi.flag = .VALID
  · rw [if_neg (by simp [hvi])] at h
    exact ⟨hvi, h⟩
  · rw [if_pos (by simpa using hvi)] at h
    exact absurd h hvi

/-- A check that fails with an invalid result: a valid answer passed it. -/
theorem valid_of_ite_invalid {c : Prop} [Decidable c] {reason : String} {rest : ValidationInfo}
    (h : (if c then invalid .INVALID_INCORRECT_ENTRIES reason else rest).flag = .VALID) :
    ¬c ∧ rest.flag = .VALID := by
  by_cases hc : c
  · rw [if_pos hc] at h
    cases h
  · rw [if_neg hc] at h
    exact ⟨hc, h⟩

section Checks

variable {libs : ConfigLibs}

/-- One member the loop accepts: its node ID and Raft ID are new, and the loop goes on with them. -/
theorem validateMembers_cons {nodeIDsSet hostPortSet : List String} {raftIDSet : List UInt64}
    {m : PeerConfig} {rest : List PeerConfig} {r : List String × List String}
    (h : validateMembers libs nodeIDsSet hostPortSet raftIDSet (m :: rest) = .ok r) :
    m.nodeId ∉ nodeIDsSet ∧ m.raftId ∉ raftIDSet ∧
      validateMembers libs (m.nodeId :: nodeIDsSet) (hostPortString m.peerHost m.peerPort :: hostPortSet)
        (m.raftId :: raftIDSet) rest = .ok r := by
  unfold validateMembers at h
  obtain ⟨-, h⟩ := Except.ite_error_eq_ok.1 h
  obtain ⟨-, h⟩ := Except.ite_error_eq_ok.1 h
  split at h
  · cases h
  · obtain ⟨hnode, h⟩ := Except.ite_error_eq_ok.1 h
    obtain ⟨hraft, h⟩ := Except.ite_error_eq_ok.1 h
    obtain ⟨-, h⟩ := Except.ite_error_eq_ok.1 h
    exact ⟨hnode, hraft, h⟩

/-- The members the loop accepts have pairwise distinct node IDs and Raft IDs, new to the sets it
started with. -/
theorem validateMembers_ok :
    ∀ {nodeIDsSet hostPortSet : List String} {raftIDSet : List UInt64} {members : List PeerConfig}
      {r : List String × List String},
      validateMembers libs nodeIDsSet hostPortSet raftIDSet members = .ok r →
      ((members.map (·.nodeId)).Nodup ∧ ∀ m ∈ members, m.nodeId ∉ nodeIDsSet) ∧
        ((members.map (·.raftId)).Nodup ∧ ∀ m ∈ members, m.raftId ∉ raftIDSet)
  | _, _, _, [], _, _ =>
    ⟨⟨List.nodup_nil, fun _ h => absurd h List.not_mem_nil⟩,
      ⟨List.nodup_nil, fun _ h => absurd h List.not_mem_nil⟩⟩
  | _, _, _, _ :: _, _, h => by
    obtain ⟨hnode, hraft, hrest⟩ := validateMembers_cons h
    obtain ⟨hnodes, hrafts⟩ := validateMembers_ok hrest
    exact ⟨fresh_cons hnode hnodes, fresh_cons hraft hrafts⟩

/-- The loop over the members fails only with an invalid result. -/
theorem validateMembers_error :
    ∀ {nodeIDsSet hostPortSet : List String} {raftIDSet : List UInt64} {members : List PeerConfig}
      {vi : ValidationInfo},
      validateMembers libs nodeIDsSet hostPortSet raftIDSet members = .error vi →
      vi.flag = .INVALID_INCORRECT_ENTRIES
  | _, _, _, [], _, h => by cases h
  | _, _, _, _ :: _, _, h => by
    unfold validateMembers at h
    dsimp only at h
    -- each check fails with its own message; the last case is the rest of the loop
    repeat' split at h
    all_goals first
      | (cases h; rfl)
      | exact validateMembers_error h

/-- The observers the loop accepts have no Raft ID. -/
theorem validateObservers_valid :
    ∀ {nodeIDsSet hostPortSet : List String} {observers : List PeerConfig},
      (validateObservers libs nodeIDsSet hostPortSet observers).flag = .VALID →
      ∀ o ∈ observers, o.raftId = 0
  | _, _, [], _ => fun _ h => absurd h List.not_mem_nil
  | _, _, o :: rest, h => by
    unfold validateObservers at h
    obtain ⟨-, h⟩ := valid_of_ite_invalid h
    obtain ⟨hraft, h⟩ := valid_of_ite_invalid h
    split at h
    · cases h
    · obtain ⟨-, h⟩ := valid_of_ite_invalid h
      obtain ⟨-, h⟩ := valid_of_ite_invalid h
      intro x hx
      rcases List.mem_cons.1 hx with rfl | hx
      · exact not_not.1 hraft
      · exact validateObservers_valid h x hx

/-- The Raft parameters of a valid consensus configuration are there. -/
theorem validateRaftConfig_valid {raftConfig : Option RaftConfig}
    (h : (validateRaftConfig libs raftConfig).flag = .VALID) : raftConfig.isSome := by
  cases raftConfig with
  | none => cases h
  | some _ => rfl

/-- The certificate authorities fail only with an invalid result. -/
theorem validateCAConfig_error {caConfig : Option CAConfig} {vi : ValidationInfo}
    (h : validateCAConfig libs caConfig = .error vi) : vi.flag = .INVALID_INCORRECT_ENTRIES := by
  unfold validateCAConfig at h
  repeat' split at h
  all_goals cases h
  all_goals rfl

/-- What a valid consensus configuration guarantees the Raft members. -/
structure ConsensusValid (c : ConsensusConfig) : Prop where
  /-- One member per node. -/
  nodeIds_nodup : (c.members.map (·.nodeId)).Nodup
  /-- One member per Raft ID. -/
  raftIds_nodup : (c.members.map (·.raftId)).Nodup
  /-- Observers have no Raft ID. -/
  observers_raftId : ∀ o ∈ c.observers, o.raftId = 0
  /-- The Raft parameters are there. -/
  raftConfig_isSome : c.raftConfig.isSome

theorem validateConsensusConfig_valid :
    ∀ {consensusConf : Option ConsensusConfig},
      (validateConsensusConfig libs consensusConf).flag = .VALID →
      ∃ c, consensusConf = some c ∧ ConsensusValid c
  | none, h => by cases h
  | some c, h => by
    simp only [validateConsensusConfig] at h
    obtain ⟨-, h⟩ := valid_of_ite_invalid h
    obtain ⟨-, h⟩ := valid_of_ite_invalid h
    split at h
    · -- a member the loop rejects
      rename_i vi hmembers
      rw [validateMembers_error hmembers] at h
      cases h
    · rename_i nodeIDsSet hostPortSet hmembers
      obtain ⟨hobservers, hraft⟩ := valid_of_check h
      obtain ⟨⟨hnodes, -⟩, ⟨hrafts, -⟩⟩ := validateMembers_ok hmembers
      exact ⟨c, rfl, hnodes, hrafts, validateObservers_valid hobservers, validateRaftConfig_valid hraft⟩

/-- A valid configuration has a valid consensus configuration. -/
theorem validateConfig_valid {config : ClusterConfig} (h : (validateConfig libs config).flag = .VALID) :
    ∃ c, config.consensusConfig = some c ∧ ConsensusValid c := by
  unfold validateConfig at h
  split at h
  · rename_i vi hca
    rw [validateCAConfig_error hca] at h
    cases h
  · obtain ⟨-, h⟩ := valid_of_check h
    obtain ⟨-, h⟩ := valid_of_check h
    obtain ⟨hconsensus, -⟩ := valid_of_check h
    exact validateConsensusConfig_valid hconsensus

/-- One node the node loop accepts: its ID is non-empty and new, and the loop goes on with it. -/
theorem validateNodes_cons {caCertCollection : libs.CACertCollection} {nodeIDsSet hostPortSet : List String}
    {n : NodeConfig} {rest : List NodeConfig}
    (h : (validateNodes libs caCertCollection nodeIDsSet hostPortSet (n :: rest)).flag = .VALID) :
    n.id ≠ "" ∧ n.id ∉ nodeIDsSet ∧
      (validateNodes libs caCertCollection (n.id :: nodeIDsSet)
        (hostPortString n.address n.port :: hostPortSet) rest).flag = .VALID := by
  unfold validateNodes at h
  obtain ⟨hnamed, h⟩ := valid_of_ite_invalid h
  split at h
  · cases h
  split at h
  · cases h
  obtain ⟨hnew, h⟩ := valid_of_ite_invalid h
  obtain ⟨-, h⟩ := valid_of_ite_invalid h
  exact ⟨hnamed, hnew, h⟩

/-- The node loop passes only with non-empty node IDs, pairwise distinct and new to those it
started with. -/
theorem validateNodes_ids {caCertCollection : libs.CACertCollection} :
    ∀ {nodeIDsSet hostPortSet : List String} {nodes : List NodeConfig},
      (validateNodes libs caCertCollection nodeIDsSet hostPortSet nodes).flag = .VALID →
        (∀ n ∈ nodes, n.id ≠ "") ∧ (nodes.map NodeConfig.id).Nodup ∧ ∀ n ∈ nodes, n.id ∉ nodeIDsSet
  | _, _, [], _ => ⟨fun _ h => absurd h List.not_mem_nil, List.nodup_nil, fun _ h => absurd h List.not_mem_nil⟩
  | _, _, n :: _, h => by
    obtain ⟨hnamed, hnew, h⟩ := validateNodes_cons h
    obtain ⟨hrestNamed, hrest⟩ := validateNodes_ids h
    refine ⟨fun m hm => ?_, fresh_cons hnew hrest⟩
    rcases List.mem_cons.1 hm with rfl | hm
    · exact hnamed
    · exact hrestNamed m hm

/-- The admin loop passes only with admin IDs pairwise distinct and new to those it started
with. -/
theorem validateAdmins_ids {caCertCollection : libs.CACertCollection} :
    ∀ {adminIDs : List String} {admins : List Admin},
      (validateAdmins libs caCertCollection adminIDs admins).flag = .VALID →
        (admins.map Admin.id).Nodup ∧ ∀ a ∈ admins, a.id ∉ adminIDs
  | _, [], _ => ⟨List.nodup_nil, fun _ h => absurd h List.not_mem_nil⟩
  | _, a :: _, h => by
    unfold validateAdmins at h
    obtain ⟨-, h⟩ := valid_of_ite_invalid h
    split at h
    · cases h
    obtain ⟨hnew, h⟩ := valid_of_ite_invalid h
    exact fresh_cons hnew (validateAdmins_ids h)

/-- A valid configuration names each admin once, and each node once and by a non-empty ID. -/
theorem validateConfig_identities {config : ClusterConfig}
    (h : (validateConfig libs config).flag = .VALID) :
    (config.admins.map Admin.id).Nodup ∧ (config.nodes.map NodeConfig.id).Nodup ∧
      ∀ n ∈ config.nodes, n.id ≠ "" := by
  unfold validateConfig at h
  split at h
  · rename_i vi hca
    rw [validateCAConfig_error hca] at h
    cases h
  · obtain ⟨hnodes, h⟩ := valid_of_check h
    obtain ⟨hadmins, -⟩ := valid_of_check h
    unfold validateNodeConfig at hnodes
    unfold validateAdminConfig at hadmins
    obtain ⟨-, hnodes⟩ := valid_of_ite_invalid hnodes
    obtain ⟨-, hadmins⟩ := valid_of_ite_invalid hadmins
    obtain ⟨hnamed, hnodup, -⟩ := validateNodes_ids hnodes
    exact ⟨(validateAdmins_ids hadmins).1, hnodup, hnamed⟩

end Checks

namespace ConfigTxValidator

/-- A change the transition rules accept leaves the consensus configuration as it is, or is one
`VerifyConsensusReConfig` accepts. -/
theorem validateConfigTransitionRules_valid {currentConfig updatedConfig : ClusterConfig}
    {vi : ValidationInfo} (h : validateConfigTransitionRules currentConfig updatedConfig = .ok vi)
    (hvi : vi.flag = .VALID) :
    currentConfig.consensusConfig = updatedConfig.consensusConfig ∨
      VerifyConsensusReConfig currentConfig.consensusConfig updatedConfig.consensusConfig = .ok () := by
  unfold validateConfigTransitionRules ClassifyClusterReConfig at h
  dsimp only at h
  split at h
  · -- the consensus configuration changed
    refine .inr ?_
    split at h
    · rename_i hverify
      exact hverify
    · -- an error of `VerifyConsensusReConfig` makes the transaction invalid, or panics
      split at h
      · cases h
      · cases h
        cases hvi
  · rename_i hsame
    exact .inl (by simpa using hsame)

/-- **What a valid configuration transaction guarantees.** It carries a valid configuration, the
committed configuration can be read, and the change from it passes the transition rules. -/
theorem Validate_valid {v : ConfigTxValidator} {db : LevelDB} {txEnv : ConfigTxEnvelope}
    {vi : ValidationInfo} (h : v.Validate db txEnv = .ok vi) (hvi : vi.flag = .VALID) :
    ∃ newConfig, txEnv.payload.newConfig = some newConfig ∧
      (validateConfig v.libs newConfig).flag = .VALID ∧
      ∃ currentConfig metadata, db.GetConfig v.codec = .ok (currentConfig, metadata) ∧
        validateConfigTransitionRules currentConfig newConfig = .ok vi := by
  unfold Validate at h
  dsimp only at h
  split_ifs at h with hsig
  · -- the signature does not verify
    cases h
    simp [hvi] at hsig
  split at h
  · cases h
  · -- not an admin
    cases h
    cases hvi
  split at h
  · cases h
    cases hvi
  rename_i newConfig hnew
  split_ifs at h with hconfig
  · cases h
    simp [hvi] at hconfig
  split at h
  · cases h
  rename_i currentConfig metadata hget
  split_ifs at h with hmvcc
  · cases h
    simp [hvi] at hmvcc
  exact ⟨newConfig, hnew, by simpa using hconfig, currentConfig, metadata, hget, h⟩

/-- The genesis block passes only with a valid configuration. -/
theorem validateGenesis_ok {v : ConfigTxValidator} {txEnv : ConfigTxEnvelope}
    {vis : List ValidationInfo} (h : v.validateGenesis txEnv = .ok vis) :
    ∃ newConfig, txEnv.payload.newConfig = some newConfig ∧
      (validateConfig v.libs newConfig).flag = .VALID ∧ vis = [.valid] := by
  unfold validateGenesis at h
  split at h
  · cases h
  · rename_i newConfig hnew
    dsimp only at h
    split_ifs at h with hconfig
    cases h
    exact ⟨newConfig, hnew, by simpa using hconfig, rfl⟩

end ConfigTxValidator

end Orion.TxValidation
