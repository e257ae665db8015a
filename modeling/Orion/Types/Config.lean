import Orion.Types.Transaction
import Orion.Lib.Encoding
import Mathlib.Tactic.DeriveEncodable

/-!
# The cluster configuration (`pkg/types/configuration.proto`)

The messages of a configuration transaction, which the world state keeps under the key `config`
of the database `_config`: the nodes and their certificates, the cluster admins, the certificate
authorities, and the consensus configuration, whose members are the Raft peers and whose
observers are nodes outside Raft. A message field that may be `nil` is an `Option`, and the
elements of a repeated field are never `nil` in a decoded message, so they are plain values.

Go's generated getters read a `nil` message as the empty one; `GetMembers` and `GetMaxRaftId`
are the getter chains the code uses. `LedgerConfig`, which no modelled function reads, is left
out of `ClusterConfig`. A `User` is what the database `_users` keeps of a user; its access
control is kept in the metadata of its entry. A message's protobuf encoding is a `ProtoCodec`,
of which the model needs only that decoding reads back what encoding wrote, and reads no bytes
as the empty message (`default`). `ProtoCodec.ofEncodable` is one such encoding, and
`ProtoCodec.numbered` one whose decoding of a few known messages can be evaluated.
-/

namespace Orion.Types

open Orion.State

/-- `NodeConfig`: a node of the cluster, with the endpoint of its server. -/
structure NodeConfig where
  id : String
  address : String
  port : UInt32
  certificate : Bytes
  deriving DecidableEq, Repr

/-- `Admin`: a cluster admin. -/
structure Admin where
  id : String
  certificate : Bytes
  deriving DecidableEq, Repr

/-- `CAConfig`: the root and intermediate certificate authorities. -/
structure CAConfig where
  roots : List Bytes
  intermediates : List Bytes
  deriving DecidableEq, Repr

/-- `PeerConfig`: a Raft peer, with the endpoint of its replication server. -/
structure PeerConfig where
  nodeId : String
  raftId : UInt64
  peerHost : String
  peerPort : UInt32
  deriving DecidableEq, Repr

/-- `RaftConfig`. `maxRaftId` is the largest Raft ID the cluster has ever had; the committer
computes it and clients only read it. -/
structure RaftConfig where
  tickInterval : String
  electionTicks : UInt32
  heartbeatTicks : UInt32
  maxInflightBlocks : UInt32
  snapshotIntervalSize : UInt64
  maxRaftId : UInt64
  deriving DecidableEq, Repr

/-- `ConsensusConfig`. -/
structure ConsensusConfig where
  algorithm : String
  members : List PeerConfig
  observers : List PeerConfig
  raftConfig : Option RaftConfig
  deriving DecidableEq, Repr

/-- `ClusterConfig`. -/
structure ClusterConfig where
  nodes : List NodeConfig
  admins : List Admin
  certAuthConfig : Option CAConfig
  consensusConfig : Option ConsensusConfig
  deriving DecidableEq, Repr

/-- The members and then the observers of the consensus configuration. -/
def ClusterConfig.GetPeers (c : ClusterConfig) : List PeerConfig :=
  (c.consensusConfig.map fun cc => cc.members ++ cc.observers).getD []

/-- The empty `ClusterConfig`, which `GetConfig` reads before the genesis block is committed. -/
def ClusterConfig.empty : ClusterConfig := ⟨[], [], none, none⟩

/-- `GetConsensusConfig().GetMembers()`. -/
def ClusterConfig.GetMembers (c : ClusterConfig) : List PeerConfig :=
  (c.consensusConfig.map (·.members)).getD []

/-- `GetConsensusConfig().GetRaftConfig().GetMaxRaftId()`. -/
def ClusterConfig.GetMaxRaftId (c : ClusterConfig) : UInt64 :=
  ((c.consensusConfig.bind (·.raftConfig)).map (·.maxRaftId)).getD 0

/-- `Privilege_Access`. -/
inductive PrivilegeAccess where
  | Read
  | ReadWrite
  deriving DecidableEq, Repr

/-- `Privilege`: the access of a user to each database, by name, and whether it is an admin. -/
structure Privilege where
  dbPermission : List (String × PrivilegeAccess)
  admin : Bool
  deriving DecidableEq, Repr

/-- `User`. -/
structure User where
  id : String
  certificate : Bytes
  privilege : Option Privilege
  deriving DecidableEq, Repr

/-- A protobuf message's wire form: `proto.Marshal`, and `proto.Unmarshal`, which reads back what
`Marshal` wrote and reads no bytes as the empty message. -/
structure ProtoCodec (α : Type) [Inhabited α] where
  Marshal : α → Bytes
  Unmarshal : Bytes → Except String α
  Unmarshal_Marshal : ∀ a, Unmarshal (Marshal a) = .ok a
  Unmarshal_nil : Unmarshal [] = .ok default

/-- Only the empty message is marshalled to no bytes. -/
theorem ProtoCodec.Marshal_ne_nil {α : Type} [Inhabited α] (codec : ProtoCodec α) {a : α}
    (h : a ≠ default) : codec.Marshal a ≠ [] := by
  intro hnil
  have hdec := codec.Unmarshal_Marshal a
  rw [hnil, codec.Unmarshal_nil] at hdec
  exact h (Except.ok.inj hdec).symm

instance : Inhabited NodeConfig := ⟨⟨"", "", 0, []⟩⟩

instance : Inhabited ClusterConfig := ⟨ClusterConfig.empty⟩

instance : Inhabited User := ⟨⟨"", [], none⟩⟩

deriving instance Encodable for NodeConfig, Admin, CAConfig, PeerConfig, RaftConfig,
  ConsensusConfig, ClusterConfig, PrivilegeAccess, Privilege, User

open Orion.Lib in
/-- A wire form for any message type with a code: the bytes of the code (`encodeBytes`). -/
def ProtoCodec.ofEncodable (α : Type) [Inhabited α] [Encodable α] [DecidableEq α] : ProtoCodec α where
  Marshal := encodeBytes default
  Unmarshal bs := match decodeBytes default bs with
    | some a => .ok a
    | none => .error "proto: cannot parse invalid wire-format data"
  Unmarshal_Marshal a := by simp only [decodeBytes_encodeBytes]
  Unmarshal_nil := by simp only [decodeBytes_nil]

/-- A wire form that sends a message of `table` as the byte `0` and as many zeros as its place in
the table, and any other message as the byte `1` and its code. Reading back a message of the
table is a lookup, so a run whose messages are all in it can be evaluated. -/
def ProtoCodec.numbered (α : Type) [Inhabited α] [Encodable α] [DecidableEq α] (table : List α) :
    ProtoCodec α where
  Marshal a := if a ∈ table then 0 :: List.replicate (table.idxOf a) 0
    else 1 :: (ProtoCodec.ofEncodable α).Marshal a
  Unmarshal
    | [] => .ok default
    | tag :: rest =>
      if tag = 0 then
        match table[rest.length]? with
        | some a => .ok a
        | none => .error "proto: cannot parse invalid wire-format data"
      else (ProtoCodec.ofEncodable α).Unmarshal rest
  Unmarshal_Marshal a := by
    by_cases ha : a ∈ table
    · simp only [if_pos ha, if_true, List.length_replicate, List.getElem?_idxOf ha]
    · -- the tag of a code is not the tag of a place
      simp only [if_neg ha, if_neg (show (1 : UInt8) ≠ 0 by decide), ProtoCodec.Unmarshal_Marshal]
  Unmarshal_nil := rfl

/-- The message of Go's panic on a nil pointer dereference. -/
def runtimeNilDereference : String :=
  "runtime error: invalid memory address or nil pointer dereference"

/-- `ConfigTx`: a new configuration, written by an admin who read the configuration at
`readOldConfigVersion`. -/
structure ConfigTx where
  userId : String
  txId : String
  readOldConfigVersion : Option Version
  newConfig : Option ClusterConfig
  deriving DecidableEq, Repr

/-- `ConfigTxEnvelope`. -/
structure ConfigTxEnvelope where
  payload : ConfigTx
  signature : Bytes
  deriving DecidableEq, Repr

end Orion.Types
