import Orion.Types.Config
import Orion.Lib.GoIO
import Orion.Lib.Except

/-!
# Applying committed Raft entries (`internal/replication/blockreplicator.go`)

`deliverEntries` applies a batch of entries Raft has committed. A normal entry with data is a
block; it counts towards `accDataSize` and is committed unless its index is at or below
`appliedIndex`. A `ConfChange` entry changes the configuration; a `ConfChangeV2` entry does
too, after committing the block it carries in its context, if any, unless it was applied
already. After each entry `appliedIndex` moves up to its index. When `accDataSize` has
reached `sizeLimit`, a snapshot is taken at `appliedIndex`, holding the block of the entry
at `position`: the last normal entry with data in the batch, or the first entry of the batch
when there is none.

Raft's messages are read through their protobuf codecs and its node through
`ApplyConfChange`; the ledger is any state `commitBlock` changes, and a failed commit stops
the replicator (`return false`). `Panicf` is an error here. Go's `Data` is `nil` when empty,
and the `%+v` of an entry in a panic message is left out. What `TakeSnapshot` saves is kept in
`snapshots`, in order.
-/

namespace Orion.Replication

open Orion.State Orion.Types GoIO

/-- `raftpb.EntryType`. -/
inductive EntryType where
  | EntryNormal
  | EntryConfChange
  | EntryConfChangeV2
  deriving DecidableEq, Repr

/-- `raftpb.Entry`. -/
structure Entry where
  term : UInt64
  index : UInt64
  type : EntryType
  data : Bytes
  deriving DecidableEq, Repr

/-- `raftpb.ConfChangeType`. -/
inductive ConfChangeType where
  | ConfChangeAddNode
  | ConfChangeRemoveNode
  | ConfChangeUpdateNode
  | ConfChangeAddLearnerNode
  deriving DecidableEq, Repr

/-- `raftpb.ConfState`: the voters. -/
structure ConfState where
  voters : List UInt64
  deriving DecidableEq, Repr

/-- A snapshot `TakeSnapshot(i, cs, data)` saves. -/
structure Snapshot where
  index : UInt64
  confState : ConfState
  data : Bytes
  deriving DecidableEq, Repr

/-- What `deliverEntries` reads of Raft and of the ledger: the codecs of blocks and of the two
kinds of configuration change, the type and the context of a change, the node's
`ApplyConfChange`, `commitBlock` with the entry's term and index, and a block's number. -/
structure RaftEnv (Block CC CCV2 σ : Type) [Inhabited Block] [Inhabited CC] [Inhabited CCV2] where
  blockCodec : ProtoCodec Block
  confChangeCodec : ProtoCodec CC
  confChangeV2Codec : ProtoCodec CCV2
  confChangeType : CC → ConfChangeType
  context : CCV2 → Option Bytes
  applyConfChange : ConfState → CC → ConfState
  applyConfChangeV2 : ConfState → CCV2 → ConfState
  commitBlock : σ → Block → UInt64 → UInt64 → Except String σ
  blockNumber : Block → UInt64

/-- The fields of `BlockReplicator` `deliverEntries` reads and writes. -/
structure BlockReplicator (σ : Type) where
  appliedIndex : UInt64
  accDataSize : UInt64
  sizeLimit : UInt64
  confState : ConfState
  raftID : UInt64
  lastSnapBlockNum : UInt64
  ledger : σ
  snapshots : List Snapshot

/-- How the loop goes on after an entry: it stops (`return false`), skips the update of
`appliedIndex` (`continue`), or goes on to it. -/
inductive EntryStep (σ : Type) where
  | stop (br : BlockReplicator σ)
  | skip (position : Nat) (br : BlockReplicator σ)
  | next (position : Nat) (br : BlockReplicator σ)

variable {Block CC CCV2 σ : Type} [Inhabited Block] [Inhabited CC] [Inhabited CCV2]
variable (env : RaftEnv Block CC CCV2 σ)

/-- The panic on a block that does not unmarshal. -/
def unmarshalPanic (i : Nat) (err : String) : String :=
  "Error unmarshaling entry [#" ++ toString i ++ "], error: " ++ err

/-- The block of the `i`-th entry, unmarshalled from `data` and committed with the entry's
term and index; `none` when the commit fails and the replicator stops. -/
def commitEntryBlock (i : Nat) (e : Entry) (data : Bytes) (br : BlockReplicator σ) :
    Except String (Option (BlockReplicator σ)) :=
  match env.blockCodec.Unmarshal data with
  | .error err => .error (unmarshalPanic i err)
  | .ok block =>
    match env.commitBlock br.ledger block e.term e.index with
    | .error _ => .ok none
    | .ok ledger => .ok (some { br with ledger := ledger })

/-- The `switch` of `deliverEntries` on the `i`-th entry. -/
def processEntry (i : Nat) (e : Entry) (position : Nat) (br : BlockReplicator σ) :
    Except String (EntryStep σ) :=
  match e.type with
  | .EntryNormal =>
    if e.data = [] then .ok (.next position br)
    else
      let br := { br with accDataSize := br.accDataSize + e.data.length.toUInt64 }
      if e.index ≤ br.appliedIndex then .ok (.next i br)
      else do
        match ← commitEntryBlock env i e e.data br with
        | none => pure (.stop br)
        | some br => pure (.next i br)
  | .EntryConfChange =>
    match env.confChangeCodec.Unmarshal e.data with
    | .error _ => .ok (.skip position br)
    | .ok cc =>
      let br := { br with confState := env.applyConfChange br.confState cc }
      match env.confChangeType cc with
      | .ConfChangeAddNode | .ConfChangeRemoveNode => .ok (.next position br)
      | _ => .error "Programming error, encountered unsupported raft config change"
  | .EntryConfChangeV2 =>
    match env.confChangeV2Codec.Unmarshal e.data with
    | .error _ => .ok (.skip position br)
    | .ok ccV2 => do
      let skipCommit := decide (e.index ≤ br.appliedIndex)
      let committed ← match skipCommit, env.context ccV2 with
        | false, some ctx => commitEntryBlock env i e ctx br
        | _, _ => pure (some br)
      match committed with
      | none => pure (.stop br)
      | some br =>
        let br := { br with confState := env.applyConfChangeV2 br.confState ccV2 }
        if br.raftID ∈ br.confState.voters then pure (.next position br) else pure (.stop br)

/-- The loop of `deliverEntries` from the `i`-th entry: whether the replicator goes on, the
last `position`, and the replicator. -/
def deliverLoop : Nat → List Entry → Nat → BlockReplicator σ →
    Except String (Bool × Nat × BlockReplicator σ)
  | _, [], position, br => .ok (true, position, br)
  | i, e :: rest, position, br => do
    match ← processEntry env i e position br with
    | .stop br => pure (false, position, br)
    | .skip position br => deliverLoop (i + 1) rest position br
    | .next position br =>
      let br := if br.appliedIndex < e.index then { br with appliedIndex := e.index } else br
      deliverLoop (i + 1) rest position br

/-- The block of the entry at `position`, for the snapshot: the data of a normal entry, or
the context of a `ConfChangeV2` entry; `none` for any other entry or a `nil` one. -/
def snapshotBlock (position : Nat) (e : Entry) : Except String (Option (Bytes × Block)) :=
  match e.type with
  | .EntryNormal =>
    match env.blockCodec.Unmarshal e.data with
    | .error err => .error ("Error unmarshaling Normal entry [#" ++ toString position ++ "], error: " ++ err)
    | .ok block => .ok (if e.data = [] then none else some (e.data, block))
  | .EntryConfChangeV2 =>
    match env.confChangeV2Codec.Unmarshal e.data with
    | .error err =>
      .error ("Error unmarshaling ConfChangeV2 entry [#" ++ toString position ++ "], error: " ++ err)
    | .ok ccV2 =>
      match env.context ccV2 with
      | none => .ok none
      | some ctx =>
        match env.blockCodec.Unmarshal ctx with
        | .error err => .error (unmarshalPanic position err)
        | .ok block => .ok (some (ctx, block))
  | .EntryConfChange => .ok none

/-- The snapshot at the end of `deliverEntries`, once `accDataSize` reached `sizeLimit`. -/
def takeSnapshot (committedEntries : List Entry) (position : Nat) (br : BlockReplicator σ) :
    Except String (BlockReplicator σ) :=
  if br.accDataSize ≥ br.sizeLimit then
    match committedEntries[position]? with
    | none => .error (indexOutOfRange position committedEntries.length)
    | some e => do
      match ← snapshotBlock env position e with
      | none => pure br
      | some (snapData, snapBlock) =>
        pure { br with
          snapshots := br.snapshots ++ [⟨br.appliedIndex, br.confState, snapData⟩]
          accDataSize := 0
          lastSnapBlockNum := env.blockNumber snapBlock }
  else .ok br

/-- `deliverEntries`: whether the replicator goes on, and the replicator after the batch. -/
def deliverEntries (br : BlockReplicator σ) (committedEntries : List Entry) :
    Except String (Bool × BlockReplicator σ) :=
  match committedEntries with
  | [] => .ok (true, br)
  | first :: _ =>
    if first.index > br.appliedIndex + 1 then
      .error ("First index of committed entry [" ++ toString first.index ++
        "] should <= appliedIndex [" ++ toString br.appliedIndex ++ "]+1")
    else do
      let (goOn, position, br) ← deliverLoop env 0 committedEntries 0 br
      if !goOn then return (false, br)
      let br ← takeSnapshot env committedEntries position br
      pure (true, br)

/-! ### A snapshot that holds an earlier block -/

/-- The next two indices after `n`, when they do not wrap. -/
theorem index_lt_add {n : UInt64} (h : n.toNat + 2 < 2 ^ 64) :
    n < n + 1 ∧ n + 1 < n + 2 := by
  have h1 : (n + 1).toNat = n.toNat + 1 := by
    rw [UInt64.toNat_add]
    exact Nat.mod_eq_of_lt (by simp; omega)
  have h2 : (n + 2).toNat = n.toNat + 2 := by
    rw [UInt64.toNat_add]
    exact Nat.mod_eq_of_lt (by simp; omega)
  simp only [UInt64.lt_iff_toNat_lt, h1, h2]
  omega

variable {env} {i position : Nat} {e : Entry} {br : BlockReplicator σ} {l : σ}

/-- A normal entry with a new block commits it, and becomes the snapshot's `position`. -/
theorem processEntry_normal {block : Block} (htype : e.type = .EntryNormal) (hdata : e.data ≠ [])
    (hindex : br.appliedIndex < e.index) (hblock : env.blockCodec.Unmarshal e.data = .ok block)
    (hcommit : env.commitBlock br.ledger block e.term e.index = .ok l) :
    processEntry env i e position br =
      .ok (.next i { br with accDataSize := br.accDataSize + e.data.length.toUInt64, ledger := l }) := by
  simp only [processEntry, htype, hdata, if_false, UInt64.not_le.2 hindex, commitEntryBlock, hblock, hcommit]
  rfl

/-- A `ConfChangeV2` entry with a new block commits it and applies the change; `position`
stays where it was. -/
theorem processEntry_confChangeV2 {ccV2 : CCV2} {ctx : Bytes} {block : Block}
    (htype : e.type = .EntryConfChangeV2) (hcc : env.confChangeV2Codec.Unmarshal e.data = .ok ccV2)
    (hindex : br.appliedIndex < e.index) (hctx : env.context ccV2 = some ctx)
    (hblock : env.blockCodec.Unmarshal ctx = .ok block)
    (hcommit : env.commitBlock br.ledger block e.term e.index = .ok l)
    (hself : br.raftID ∈ (env.applyConfChangeV2 br.confState ccV2).voters) :
    processEntry env i e position br =
      .ok (.next position { br with ledger := l, confState := env.applyConfChangeV2 br.confState ccV2 }) := by
  simp only [processEntry, htype, hcc, decide_eq_false (UInt64.not_le.2 hindex), hctx, commitEntryBlock, hblock,
    hcommit, Except.ok_bind]
  rw [if_pos hself]
  rfl

/-- The snapshot of a normal entry with a block holds that entry's data. -/
theorem snapshotBlock_normal {block : Block} (htype : e.type = .EntryNormal) (hdata : e.data ≠ [])
    (hblock : env.blockCodec.Unmarshal e.data = .ok block) :
    snapshotBlock env position e = .ok (some (e.data, block)) := by
  simp only [snapshotBlock, htype, hblock, hdata, if_false]

/-- **A snapshot that holds an earlier block.** A normal entry with block `b₁` and, after it, a
`ConfChangeV2` entry whose context is the block `b₂`: the batch commits both, and once
`accDataSize` reaches `sizeLimit`, the snapshot at the index of the second entry holds `b₁`,
the block of the entry at `position`, which only normal entries move. -/
theorem deliverEntries_snapshots_block_of_earlier_entry {t₁ t₂ : UInt64}
    {b₁ d₂ b₂ : Bytes} {block₁ block₂ : Block} {ccV2 : CCV2} {l₁ l₂ : σ}
    (hb₁ : b₁ ≠ []) (hblock₁ : env.blockCodec.Unmarshal b₁ = .ok block₁)
    (hcc : env.confChangeV2Codec.Unmarshal d₂ = .ok ccV2) (hctx : env.context ccV2 = some b₂)
    (hblock₂ : env.blockCodec.Unmarshal b₂ = .ok block₂)
    (hcommit₁ : env.commitBlock br.ledger block₁ t₁ (br.appliedIndex + 1) = .ok l₁)
    (hcommit₂ : env.commitBlock l₁ block₂ t₂ (br.appliedIndex + 2) = .ok l₂)
    (hself : br.raftID ∈ (env.applyConfChangeV2 br.confState ccV2).voters)
    (hindex : br.appliedIndex.toNat + 2 < 2 ^ 64)
    (hsize : br.sizeLimit ≤ br.accDataSize + b₁.length.toUInt64) :
    ∃ br', deliverEntries env br [⟨t₁, br.appliedIndex + 1, .EntryNormal, b₁⟩,
        ⟨t₂, br.appliedIndex + 2, .EntryConfChangeV2, d₂⟩] = .ok (true, br') ∧
      br'.snapshots = br.snapshots ++
        [⟨br.appliedIndex + 2, env.applyConfChangeV2 br.confState ccV2, b₁⟩] := by
  obtain ⟨h₀₁, h₁₂⟩ := index_lt_add hindex
  let br₁ : BlockReplicator σ :=
    { br with
      appliedIndex := br.appliedIndex + 1
      accDataSize := br.accDataSize + b₁.length.toUInt64
      ledger := l₁ }
  have hstep₂ : processEntry env (0 + 1) ⟨t₂, br.appliedIndex + 2, .EntryConfChangeV2, d₂⟩ 0 br₁ =
      .ok (.next 0 { br₁ with ledger := l₂, confState := env.applyConfChangeV2 br₁.confState ccV2 }) :=
    processEntry_confChangeV2 rfl hcc h₁₂ hctx hblock₂ hcommit₂ hself
  rw [deliverEntries, if_neg (UInt64.lt_irrefl _), deliverLoop,
    processEntry_normal rfl hb₁ h₀₁ hblock₁ hcommit₁, Except.ok_bind]
  dsimp only
  rw [if_pos h₀₁, deliverLoop]
  rw [hstep₂]
  dsimp only [br₁]
  rw [Except.ok_bind]
  dsimp only
  rw [if_pos h₁₂, deliverLoop, Except.ok_bind]
  dsimp only
  rw [Bool.not_true, if_neg Bool.false_ne_true, takeSnapshot, if_pos hsize, List.getElem?_cons_zero]
  dsimp only
  rw [snapshotBlock_normal rfl hb₁ hblock₁, Except.ok_bind]
  exact ⟨_, rfl, rfl⟩

/-- Raw bytes as their own encoding. -/
def rawCodec : ProtoCodec Bytes := ⟨id, .ok, fun _ => rfl, rfl⟩

/-- A node whose blocks and changes are raw bytes, a `ConfChangeV2` being its own context,
changes that keep the voters, and a ledger that lists the committed blocks. -/
def rawEnv : RaftEnv Bytes Bytes Bytes (List Bytes) where
  blockCodec := rawCodec
  confChangeCodec := rawCodec
  confChangeV2Codec := rawCodec
  confChangeType _ := .ConfChangeAddNode
  context d := if d = [] then none else some d
  applyConfChange cs _ := cs
  applyConfChangeV2 cs _ := cs
  commitBlock ledger block _ _ := .ok (ledger ++ [block])
  blockNumber _ := 0

/-- Node `1`, the only voter, has applied index `5`; one byte of data reaches its size limit. -/
def rawReplicator : BlockReplicator (List Bytes) :=
  ⟨5, 0, 1, ⟨[1]⟩, 1, 0, [], []⟩

/-- Block `[1]` at index `6` and a change carrying block `[2]` at index `7`: both are committed,
and the snapshot at index `7` holds `[1]`. -/
theorem deliverEntries_snapshot_at_seven :
    ([1] : Bytes) ≠ [] ∧ rawEnv.blockCodec.Unmarshal [1] = .ok [1] ∧
      rawEnv.confChangeV2Codec.Unmarshal [2] = .ok [2] ∧ rawEnv.context [2] = some [2] ∧
      rawEnv.blockCodec.Unmarshal [2] = .ok [2] ∧
      rawEnv.commitBlock rawReplicator.ledger [1] 3 (rawReplicator.appliedIndex + 1) = .ok [[1]] ∧
      rawEnv.commitBlock [[1]] [2] 3 (rawReplicator.appliedIndex + 2) = .ok [[1], [2]] ∧
      rawReplicator.raftID ∈ (rawEnv.applyConfChangeV2 rawReplicator.confState [2]).voters ∧
      rawReplicator.appliedIndex.toNat + 2 < 2 ^ 64 ∧
      rawReplicator.sizeLimit ≤ rawReplicator.accDataSize + ([1] : Bytes).length.toUInt64 ∧
      ∃ br', deliverEntries rawEnv rawReplicator [⟨3, rawReplicator.appliedIndex + 1, .EntryNormal, [1]⟩,
          ⟨3, rawReplicator.appliedIndex + 2, .EntryConfChangeV2, [2]⟩] = .ok (true, br') ∧
        br'.snapshots = rawReplicator.snapshots ++
          [⟨rawReplicator.appliedIndex + 2, rawEnv.applyConfChangeV2 rawReplicator.confState [2], [1]⟩] :=
  ⟨by decide, rfl, rfl, rfl, rfl, rfl, rfl, by decide, by decide, by decide,
    deliverEntries_snapshots_block_of_earlier_entry (by decide) rfl rfl rfl rfl rfl rfl (by decide) (by decide)
      (by decide)⟩

end Orion.Replication
