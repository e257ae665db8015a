import Orion.BlockProcessor.Committer

/-!
# Starting a node (`internal/blockprocessor/processor.go`)

`commitBlock` stores the block before it commits the world state and the trie, so a node that
stops in between restarts with a block store one block ahead. `Start` brings the other two up
to it: `recoverWorldStateDBIfNeeded` commits the updates of the last stored block to the world
state when it is one block behind, and `initAndRecoverStateTrieIfNeeded` loads the trie of the
last block the trie store committed (`loadStateTrie`) and applies and commits the last stored
block when the trie store is one block behind. Both compute the updates again from the stored
block and the world state as they are at restart.

What survives a stop is the world state, the block store and the trie store's database; the
trie store's memory is lost (`RollbackChanges`). The main result is that a successful `Start`
leaves the three at one height.
-/

namespace Orion.BlockProcessor

open Orion.State Orion.Types Orion.WorldState Orion.StateIndex Orion.Trie Orion.TxValidation

variable (H : Bytes → Bytes) (codecs : Codecs)

/-! ### The world state -/

/-- `recoverWorldStateDBIfNeeded`: when the world state is one block behind the block store,
the updates of the last stored block, computed again, committed to it. -/
def recoverWorldStateDBIfNeeded (db : LevelDB) (blockStore : BlockStore) : Except String LevelDB := do
  let blockStoreHeight := blockStore.Height
  let stateDBHeight := db.Height
  if stateDBHeight = blockStoreHeight then return db
  if stateDBHeight > blockStoreHeight then
    throw ("the height of state database [" ++ toString stateDBHeight ++
      "] is higher than the height of block store [" ++ toString blockStoreHeight ++
      "]. The node cannot be recovered")
  if blockStoreHeight - stateDBHeight > 1 then
    throw ("the difference between the height of the block store [" ++ toString blockStoreHeight ++
      "] and the state database [" ++ toString stateDBHeight ++
      "] cannot be greater than 1 block. The node cannot be recovered")
  let block ← blockStore.Get blockStoreHeight
  let (dbsUpdates, _) ← constructDBAndProvenanceEntries codecs db block
  commitToStateDB db block.header.number dbsUpdates

/-! ### The state trie -/

/-- `loadStateTrie`: the trie of the last block the trie store committed, with the heights of
the trie store and of the block store. -/
def loadStateTrie (store : Store) (blockStore : BlockStore) :
    Except String (UInt64 × UInt64 × MPTrie) := do
  let blockStoreHeight := blockStore.Height
  if blockStoreHeight = 0 then
    let trie ← NewTrie H [] store
    return (0, 0, trie)
  match store.Height with
  | .error _ =>
    -- the trie store has never committed
    let trie ← NewTrie H [] store
    return (0, blockStoreHeight, trie)
  | .ok trieStoreHeight =>
    if trieStoreHeight > blockStoreHeight then
      throw ("height of block store (" ++ toString blockStoreHeight ++
        ") is smalled that height of trie store (" ++ toString trieStoreHeight ++
        "), check underline database")
    let height := min trieStoreHeight blockStoreHeight
    let lastTrieBlockHeader ← blockStore.GetHeader height
    let trie ← NewTrie H lastTrieBlockHeader.stateMerkelTreeRootHash store
    return (height, blockStoreHeight, trie)

/-- `initAndRecoverStateTrieIfNeeded`: the loaded trie, with the last stored block applied and
committed when the trie store is one block behind. -/
def initAndRecoverStateTrieIfNeeded (db : LevelDB) (blockStore : BlockStore) (store : Store) :
    Except String MPTrie := do
  let (trieStoreHeight, blockStoreHeight, stateTrie) ← loadStateTrie H store blockStore
  if blockStoreHeight = trieStoreHeight then return stateTrie
  if trieStoreHeight + 1 = blockStoreHeight then
    let block ← blockStore.Get blockStoreHeight
    let (dbsUpdates, _) ← constructDBAndProvenanceEntries codecs db block
    let stateTrie ← ApplyBlockOnStateTrie H stateTrie dbsUpdates
    stateTrie.Commit H trieCommitFuel blockStoreHeight
  else
    throw ("the difference between the height of the block store [" ++ toString blockStoreHeight ++
      "] and the state trie store [" ++ toString trieStoreHeight ++
      "] cannot be greater than 1 block. The node cannot be recovered")

/-- `Start`, up to the loop over new blocks: the world state recovered, then the state trie. -/
def Start (db : LevelDB) (blockStore : BlockStore) (store : Store) : Except String Committer := do
  let db ← recoverWorldStateDBIfNeeded codecs db blockStore
  -- Go leaves a disabled trie `nil`; nothing reads its root
  if store.disabled then return ⟨db, blockStore, ⟨.branch BranchNode.new, store⟩⟩
  let stateTrie ← initAndRecoverStateTrieIfNeeded H codecs db blockStore store
  pure ⟨db, blockStore, stateTrie⟩

/-- A node stops: what it restarts from is the world state, the block store, and the trie
store without its memory. -/
def Committer.restart (c : Committer) : Except String Committer :=
  Start H codecs c.db c.blockStore c.stateTrie.store.RollbackChanges

/-- A new node: an empty world state, block store and trie store, started. -/
def Committer.new : Except String Committer := Start H codecs LevelDB.Open ⟨[], 0⟩ Store.empty

/-- Block 1 is the genesis block of a one-node cluster, and block 2 creates `db1` with an index
on the string attribute `a`. Committed in full, block 2 leaves `IndexDB db1` in the world state
and the trie at the root its header holds. A node that stops right after storing it recovers from
the stored block, whose transaction `commitBlock` has stripped of the index: `db1` has no index
definition, the world state has no `IndexDB db1`, and the trie is not at the header's root. -/
theorem restart_after_block_store_commit_drops_index :
    (do
      let c ← Committer.new tagHash exampleCodecs
      let c ← commitBlock tagHash exampleCodecs c ⟨⟨1, [.valid], []⟩, .configTxEnvelope oneNodeGenesis⟩
      let block : Block := ⟨⟨2, [.valid], []⟩, .dbAdministrationTxEnvelope
        ⟨⟨"admin", "tx2", ["db1"], [], [("db1", ⟨[("a", .STRING)]⟩)]⟩, []⟩⟩
      let committed ← commitBlock tagHash exampleCodecs c block
      let (stopped, _, stored) ← commitToBlockStoreSteps tagHash exampleCodecs c block
      let restarted ← stopped.restart tagHash exampleCodecs
      let root := stored.header.stateMerkelTreeRootHash
      let indexDef (l : LevelDB) := (l.entry DatabasesDBName "db1").map ValueWithMetadata.value
      pure ((indexDef committed.db == some (marshalIndexDef [("a", .STRING)]),
          committed.db.Exist (IndexDB "db1"), committed.stateTrie.Hash tagHash == root),
        (indexDef restarted.db == some [], restarted.db.Exist (IndexDB "db1"),
          restarted.stateTrie.Hash tagHash == root))) =
      .ok ((true, true, true), (true, false, false)) := by
  decide +kernel

end Orion.BlockProcessor
