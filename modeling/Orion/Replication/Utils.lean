import Orion.Types.Config
import Orion.Lib.PointUpdate
import Orion.Lib.Except

/-!
# Checking a change of the consensus configuration (`internal/replication/utils.go`)

`VerifyConsensusReConfig` decides whether the Raft members may go from one consensus
configuration to the next. `detectPeerConfigChanges` compares the members by node ID: a member
of both may change its endpoint but not its Raft ID; a new member must have a Raft ID above the
current `MaxRaftId`; the members of the current configuration only are removed. At most one
member may be added or removed, and endpoints may not change along with a membership change.
`ClassifyClusterReConfig` tells which parts of a cluster configuration changed.

Go's maps keyed by node ID are point updates applied in order (`peersByNodeId`), so the last
peer of a node ID wins; the range over the current peers goes through their node IDs once each.

What is proved: the spec of an accepted change (`VerifyConsensusReConfig_ok`). A member of both
configurations keeps its Raft ID, a new member's Raft ID is above `MaxRaftId`, and the members
added and removed, counted by node ID (`addedMembers`), are at most one.
-/

namespace Orion.Replication

open Orion.Types Orion.Lib

/-- The peers by node ID, as Go's loop `m[p.NodeId] = p` builds the map. -/
def peersByNodeId (peers : List PeerConfig) : String → Option PeerConfig :=
  applyUpdates (fun _ => none) (peers.map fun m => (m.nodeId, some m))

/-- The loop of `detectPeerConfigChanges` over the updated members, against the current peers:
the peers added and the peers whose endpoint changed, in order, or the error of the first
member whose change is not allowed. -/
def classifyUpdatedPeers (currentConfig : ConsensusConfig) (currPeers : String → Option PeerConfig) :
    List PeerConfig → Except String (List PeerConfig × List PeerConfig)
  | [] => .ok ([], [])
  | updtMember :: rest =>
    match currPeers updtMember.nodeId with
    | some currMember =>
      -- an existing peer
      if updtMember = currMember then classifyUpdatedPeers currentConfig currPeers rest
      else if updtMember.raftId ≠ currMember.raftId then
        .error ("cannot change the RaftId of an existing peer: NodeId=" ++ currMember.nodeId ++
          ", current=" ++ toString currMember.raftId ++ ", updated=" ++ toString updtMember.raftId)
      else do
        let (addedPeers, changedPeers) ← classifyUpdatedPeers currentConfig currPeers rest
        pure (addedPeers, updtMember :: changedPeers)
    | none =>
      -- an added peer, read against `currentConfig.RaftConfig.MaxRaftId`
      match currentConfig.raftConfig with
      | none => .error runtimeNilDereference
      | some raftConfig =>
        if updtMember.raftId ≤ raftConfig.maxRaftId then
          .error ("the RaftId of a new peer must be unique,  > MaxRaftId [" ++
            toString raftConfig.maxRaftId ++ "]; but: NodeId=" ++ updtMember.nodeId ++ ", RaftID=" ++
            toString updtMember.raftId)
        else do
          let (addedPeers, changedPeers) ← classifyUpdatedPeers currentConfig currPeers rest
          pure (updtMember :: addedPeers, changedPeers)

/-- `detectPeerConfigChanges`: the peers added, removed and changed. -/
def detectPeerConfigChanges (currentConfig updatedConfig : ConsensusConfig) :
    Except String (List PeerConfig × List PeerConfig × List PeerConfig) := do
  let currPeers := peersByNodeId currentConfig.members
  let updtPeers := peersByNodeId updatedConfig.members
  let (addedPeers, changedPeers) ← classifyUpdatedPeers currentConfig currPeers updatedConfig.members
  let removedPeers := (currentConfig.members.map (·.nodeId)).dedup.filterMap fun nodeId =>
    if (updtPeers nodeId).isNone then currPeers nodeId else none
  pure (addedPeers, removedPeers, changedPeers)

/-- `VerifyConsensusReConfig`. A `nil` configuration is dereferenced. -/
def VerifyConsensusReConfig (currentConfig updatedConfig : Option ConsensusConfig) :
    Except String Unit :=
  match currentConfig, updatedConfig with
  | some currentConfig, some updatedConfig => do
    let (addedPeers, removedPeers, changedPeers) ←
      detectPeerConfigChanges currentConfig updatedConfig
    if addedPeers.length + removedPeers.length > 1 then
      throw ("cannot make more than one membership change at a time: " ++
        toString addedPeers.length ++ " added, " ++ toString removedPeers.length ++ " removed")
    if addedPeers.length + removedPeers.length = 1 ∧ changedPeers.length > 1 then
      throw ("cannot update peer endpoints while making membership changes: " ++
        toString addedPeers.length ++ " added, " ++ toString removedPeers.length ++ " removed, " ++
        toString changedPeers.length ++ " updated")
    pure ()
  | _, _ => .error runtimeNilDereference

/-- Whether a list of messages changed: its length, or an element no longer found
(`changedAdmins`, `changedNodes`). -/
def changedElems {α : Type} [DecidableEq α] (cur upd : List α) : Bool :=
  cur.length ≠ upd.length || cur.any fun c => !upd.contains c

/-- `changedAdmins`. -/
def changedAdmins (curAdmins updAdmins : List Admin) : Bool := changedElems curAdmins updAdmins

/-- `changedNodes`. -/
def changedNodes (curNodes updNodes : List NodeConfig) : Bool := changedElems curNodes updNodes

/-- `ClassifyClusterReConfig`: whether the nodes, the consensus configuration, the CA
configuration and the admins changed. -/
def ClassifyClusterReConfig (currentConfig updatedConfig : ClusterConfig) :
    Bool × Bool × Bool × Bool :=
  (changedNodes currentConfig.nodes updatedConfig.nodes,
    currentConfig.consensusConfig ≠ updatedConfig.consensusConfig,
    currentConfig.certAuthConfig ≠ updatedConfig.certAuthConfig,
    changedAdmins currentConfig.admins updatedConfig.admins)

/-! ### Peers by node ID -/

/-- The members of `new` whose node is not a member of `old`. -/
def addedMembers (old new : List PeerConfig) : List PeerConfig :=
  new.filter fun m => m.nodeId ∉ old.map (·.nodeId)

theorem peersByNodeId_eq_none {peers : List PeerConfig} {nodeId : String} :
    peersByNodeId peers nodeId = none ↔ nodeId ∉ peers.map (·.nodeId) := by
  have hkeys : (peers.map fun m => (m.nodeId, some m)).map Prod.fst = peers.map (·.nodeId) := by
    rw [List.map_map]
    rfl
  constructor
  · intro h hmem
    have hin := applyUpdates_mem_of_mem (hkeys ▸ hmem) (fun _ => none)
    rw [← peersByNodeId, h] at hin
    obtain ⟨m, -, hm⟩ := List.mem_map.1 hin
    cases (Prod.mk.inj hm).2
  · intro h
    exact applyUpdates_of_not_mem (hkeys ▸ h) _

theorem peersByNodeId_of_mem {peers : List PeerConfig} (hd : (peers.map (·.nodeId)).Nodup)
    {m : PeerConfig} (hm : m ∈ peers) : peersByNodeId peers m.nodeId = some m := by
  have hkeys : ((peers.map fun m => (m.nodeId, some m)).map Prod.fst).Nodup := by
    rw [List.map_map]
    exact hd
  exact applyUpdates_of_mem hkeys (List.mem_map_of_mem (f := fun m => (m.nodeId, some m)) hm) _

/-! ### The spec of an accepted change -/

/-- One member of the loop over the updated members: it keeps the Raft ID of the current peer of
its node, or it is new, with a Raft ID above `MaxRaftId`, and added. -/
theorem classifyUpdatedPeers_cons {currentConfig : ConsensusConfig}
    {currPeers : String → Option PeerConfig} {m : PeerConfig} {rest addedPeers changedPeers : List PeerConfig}
    (h : classifyUpdatedPeers currentConfig currPeers (m :: rest) = .ok (addedPeers, changedPeers)) :
    ∃ added changed, classifyUpdatedPeers currentConfig currPeers rest = .ok (added, changed) ∧
      ((∃ c, currPeers m.nodeId = some c ∧ c.raftId = m.raftId ∧ addedPeers = added) ∨
        (currPeers m.nodeId = none ∧
          (∃ rc, currentConfig.raftConfig = some rc ∧ rc.maxRaftId < m.raftId) ∧
          addedPeers = m :: added)) := by
  unfold classifyUpdatedPeers at h
  split at h
  · rename_i c hc
    split_ifs at h with heq hne
    · -- the same peer
      exact ⟨addedPeers, changedPeers, h, .inl ⟨c, hc, heq ▸ rfl, rfl⟩⟩
    · -- a new endpoint for the same Raft ID
      obtain ⟨⟨added, changed⟩, hrest, hp⟩ := Except.bind_eq_ok.1 h
      injection hp with hp
      obtain ⟨rfl, -⟩ := Prod.mk.inj hp
      exact ⟨added, changed, hrest, .inl ⟨c, hc, (not_not.1 hne).symm, rfl⟩⟩
  · rename_i hc
    split at h
    · cases h
    · rename_i rc hrc
      split_ifs at h with hle
      obtain ⟨⟨added, changed⟩, hrest, hp⟩ := Except.bind_eq_ok.1 h
      injection hp with hp
      obtain ⟨rfl, -⟩ := Prod.mk.inj hp
      exact ⟨added, changed, hrest, .inr ⟨hc, ⟨rc, hrc, UInt64.not_le.1 hle⟩, rfl⟩⟩

/-- What the loop over the updated members accepts: each member keeps the Raft ID of the current
peer of its node, or is new with a Raft ID above `MaxRaftId`; the new ones are the added peers. -/
theorem classifyUpdatedPeers_ok {currentConfig : ConsensusConfig}
    {currPeers : String → Option PeerConfig} :
    ∀ {updated addedPeers changedPeers : List PeerConfig},
      classifyUpdatedPeers currentConfig currPeers updated = .ok (addedPeers, changedPeers) →
      (∀ m ∈ updated, (∃ c, currPeers m.nodeId = some c ∧ c.raftId = m.raftId) ∨
        (currPeers m.nodeId = none ∧
          ∃ rc, currentConfig.raftConfig = some rc ∧ rc.maxRaftId < m.raftId)) ∧
      addedPeers = updated.filter fun m => (currPeers m.nodeId).isNone
  | [], _, _, h => by
    cases h
    exact ⟨fun _ hm => absurd hm List.not_mem_nil, rfl⟩
  | m :: rest, addedPeers, changedPeers, h => by
    obtain ⟨added, changed, hrest, hm⟩ := classifyUpdatedPeers_cons h
    obtain ⟨hall, hadded⟩ := classifyUpdatedPeers_ok hrest
    rcases hm with ⟨c, hc, hid, rfl⟩ | ⟨hc, hrc, rfl⟩
    · refine ⟨?_, ?_⟩
      · intro x hx
        rcases List.mem_cons.1 hx with rfl | hx
        · exact .inl ⟨c, hc, hid⟩
        · exact hall x hx
      · rw [List.filter_cons_of_neg (by simp [hc]), hadded]
    · refine ⟨?_, ?_⟩
      · intro x hx
        rcases List.mem_cons.1 hx with rfl | hx
        · exact .inr ⟨hc, hrc⟩
        · exact hall x hx
      · rw [List.filter_cons_of_pos (by simp [hc]), hadded]

/-- What `detectPeerConfigChanges` returns: the loop's added and changed peers, and the peers of
the current configuration whose node is not updated. -/
theorem detectPeerConfigChanges_ok {cur upd : ConsensusConfig}
    {addedPeers removedPeers changedPeers : List PeerConfig}
    (h : detectPeerConfigChanges cur upd = .ok (addedPeers, removedPeers, changedPeers)) :
    classifyUpdatedPeers cur (peersByNodeId cur.members) upd.members = .ok (addedPeers, changedPeers) ∧
      removedPeers = (cur.members.map (·.nodeId)).dedup.filterMap fun nodeId =>
        if (peersByNodeId upd.members nodeId).isNone then peersByNodeId cur.members nodeId else none := by
  obtain ⟨⟨added, changed⟩, hclassify, hp⟩ := Except.bind_eq_ok.1 h
  injection hp with hp
  simp only [Prod.mk.injEq] at hp
  obtain ⟨rfl, rfl, rfl⟩ := hp
  exact ⟨hclassify, rfl⟩

/-- With one current member per node, the removed peers are the current members whose node is
not updated. -/
theorem removedPeers_eq {cur upd : List PeerConfig} (hcur : (cur.map (·.nodeId)).Nodup) :
    ((cur.map (·.nodeId)).dedup.filterMap fun nodeId =>
      if (peersByNodeId upd nodeId).isNone then peersByNodeId cur nodeId else none) =
      addedMembers upd cur := by
  rw [List.Nodup.dedup hcur, List.filterMap_map, addedMembers, ← List.filterMap_eq_filter]
  refine List.filterMap_congr fun m hm => ?_
  simp only [Function.comp, peersByNodeId_of_mem hcur hm, Option.isNone_iff_eq_none,
    peersByNodeId_eq_none, Option.guard, decide_eq_true_eq]

/-- **The spec of an accepted change of the consensus configuration.** When the current members
have one member per node, a member of both configurations keeps its Raft ID, a new member's Raft
ID is above the current `MaxRaftId`, and at most one member is added or removed. -/
theorem VerifyConsensusReConfig_ok {cur upd : ConsensusConfig}
    (hcur : (cur.members.map (·.nodeId)).Nodup)
    (h : VerifyConsensusReConfig (some cur) (some upd) = .ok ()) :
    (∀ m ∈ cur.members, ∀ m' ∈ upd.members, m.nodeId = m'.nodeId → m.raftId = m'.raftId) ∧
      (∀ m' ∈ upd.members, m'.nodeId ∉ cur.members.map (·.nodeId) →
        ∃ rc, cur.raftConfig = some rc ∧ rc.maxRaftId < m'.raftId) ∧
      (addedMembers cur.members upd.members).length +
        (addedMembers upd.members cur.members).length ≤ 1 := by
  obtain ⟨⟨addedPeers, removedPeers, changedPeers⟩, hdetect, hchecks⟩ := Except.bind_eq_ok.1 h
  obtain ⟨hclassify, hremoved⟩ := detectPeerConfigChanges_ok hdetect
  obtain ⟨hall, hadded⟩ := classifyUpdatedPeers_ok hclassify
  -- the two counts are Go's, read by node ID
  have haddedEq : addedPeers = addedMembers cur.members upd.members := by
    rw [hadded, addedMembers]
    refine List.filter_congr fun m _ => ?_
    rw [Bool.eq_iff_iff, Option.isNone_iff_eq_none, peersByNodeId_eq_none]
    simp
  have hcount : addedPeers.length + removedPeers.length ≤ 1 := by
    -- more than one membership change is rejected
    by_contra hgt
    dsimp only at hchecks
    rw [if_pos (by omega)] at hchecks
    cases hchecks
  refine ⟨?_, ?_, ?_⟩
  · intro m hm m' hm' hid
    rcases hall m' hm' with ⟨c, hc, hraft⟩ | ⟨hnone, -⟩
    · rw [← hid, peersByNodeId_of_mem hcur hm] at hc
      cases hc
      exact hraft
    · rw [← hid, peersByNodeId_of_mem hcur hm] at hnone
      cases hnone
  · intro m' hm' hnew
    rcases hall m' hm' with ⟨c, hc, -⟩ | ⟨-, hrc⟩
    · rw [peersByNodeId_eq_none.2 hnew] at hc
      cases hc
    · exact hrc
  · rwa [← haddedEq, ← removedPeers_eq hcur, ← hremoved]

end Orion.Replication
