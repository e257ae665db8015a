import Orion.Trie.Commit
import Orion.Trie.Proof
import Orion.StateIndex.IndexEntries
import Orion.TxValidation.Validator
import Orion.Identity.DBEntries

/-!
# Committing a block (`internal/blockprocessor/committer.go`, `processor.go`)

`commitBlock` turns a validated block into the updates of each database
(`constructDBAndProvenanceEntries`), applies them to the state trie under hashed composite keys
(`ApplyBlockOnStateTrie`), puts the trie's root hash in the block's header, stores the block
(`BlockStore.Commit`), adds the updates of the index databases and commits the world state
(`commitToStateDB`), and last persists the trie (`MPTrie.Commit`).

A block holds data transactions, or one user administration, database administration or
configuration transaction. The block store refuses a block that is not the next one, a block
without transactions and a transaction without an ID (`BlockPayloadToTxIDs`), and panics on a
block with fewer results than transactions; its files and its index databases are left out, and
so are their write errors, as is the provenance store. The updates of a data block are read off
the results that have a transaction, the ones Go's validator gives. A trie whose keys are SHA-256
digests has paths of at most 65 nodes; `trieCommitFuel` is more than that.
-/

namespace Orion.BlockProcessor

open Orion.State Orion.Types Orion.WorldState Orion.StateIndex Orion.Trie Orion.TxValidation Orion.Identity

/-! ### Blocks -/

/-- `DBIndex`: the attributes of an index and their types; an empty map is Go's `nil`. -/
structure DBIndex where
  attributeAndType : IndexDef
  deriving DecidableEq, Repr

/-- `DBAdministrationTx`, with the fields the validator and the committer read. `dbsIndex` is a
Go map in one iteration order. -/
structure DBAdministrationTx where
  userId : String
  txId : String
  createDbs : List String
  deleteDbs : List String
  dbsIndex : List (String × DBIndex)
  deriving DecidableEq, Repr

/-- `DBAdministrationTxEnvelope`. -/
structure DBAdministrationTxEnvelope where
  payload : DBAdministrationTx
  signature : Bytes
  deriving DecidableEq, Repr

/-- `Block.Payload`: the transactions of a block. -/
inductive Payload where
  | dataTxEnvelopes (envs : List DataTxEnvelope)
  | userAdministrationTxEnvelope (env : UserAdministrationTxEnvelope)
  | dbAdministrationTxEnvelope (env : DBAdministrationTxEnvelope)
  | configTxEnvelope (env : ConfigTxEnvelope)
  deriving DecidableEq, Repr

/-- `BlockHeader`, with the fields the committer reads and writes. -/
structure BlockHeader where
  number : UInt64
  validationInfo : List ValidationInfo
  stateMerkelTreeRootHash : Bytes
  deriving DecidableEq, Repr

/-- `Block`. -/
structure Block where
  header : BlockHeader
  payload : Payload
  deriving DecidableEq, Repr

/-- The block store: the blocks committed, oldest first, and the number of the last one. -/
structure BlockStore where
  blocks : List Block
  lastCommittedBlockNum : UInt64

namespace BlockStore

/-- `Height`. -/
def Height (s : BlockStore) : UInt64 := s.lastCommittedBlockNum

/-- `utils.BlockPayloadToTxIDs`: the IDs of a block's transactions. A block of no data
transactions, or a transaction without an ID, is refused. An envelope here always has a payload,
so Go's error for a `nil` one does not arise; the envelope Go prints after each message is left
out. -/
def BlockPayloadToTxIDs : Payload → Except String (List String)
  | .dataTxEnvelopes envs => do
    let txIDs ← (List.range envs.length).zip envs |>.mapM fun (i, env) =>
      if env.payload.txId = "" then .error ("missing TxId in index [" ++ toString i ++ "]")
      else .ok env.payload.txId
    if txIDs = [] then throw "empty payload in"
    pure txIDs
  | .userAdministrationTxEnvelope env =>
    if env.payload.txId = "" then .error "missing TxId in" else .ok [env.payload.txId]
  | .dbAdministrationTxEnvelope env =>
    if env.payload.txId = "" then .error "missing TxId in" else .ok [env.payload.txId]
  | .configTxEnvelope env =>
    if env.payload.txId = "" then .error "missing TxId in" else .ok [env.payload.txId]

/-- The transactions of a payload: its data transactions, or its one other transaction. -/
def txCount : Payload → Nat
  | .dataTxEnvelopes envs => envs.length
  | _ => 1

/-- `Commit`: the block must be the next one. `storeMetadataInDB` then runs, side by side,
`storeBlockValidationInfo`, which reads the result of each transaction by its place and so panics
past the end of the results, and `storeBlockHeaders`, which fails when `BlockPayloadToTxIDs`
does; a panic stops the node whatever the other returns. -/
def Commit (s : BlockStore) (block : Block) : Except String BlockStore := do
  if block.header.number != s.lastCommittedBlockNum + 1 then
    throw ("expected block number [" ++ toString (s.lastCommittedBlockNum + 1) ++
      "] but received [" ++ toString block.header.number ++ "]")
  if block.header.validationInfo.length < txCount block.payload then
    throw ("panic: index out of range [" ++ toString block.header.validationInfo.length ++
      "] with length " ++ toString block.header.validationInfo.length)
  let _ ← (BlockPayloadToTxIDs block.payload).mapError
    fun e => "can't access block tx ids \x7b" ++ toString block.header.number ++ "\x7d: " ++ e
  pure ⟨s.blocks ++ [block], block.header.number⟩

/-- `Get`. -/
def Get (s : BlockStore) (blockNumber : UInt64) : Except String Block :=
  if blockNumber > s.lastCommittedBlockNum then
    if s.lastCommittedBlockNum = 0 then .error "block store is empty"
    else .error ("requested block number [" ++ toString blockNumber ++
      "] cannot be greater than the last committed block number [" ++
      toString s.lastCommittedBlockNum ++ "]")
  else
    match s.blocks.find? (·.header.number == blockNumber) with
    | some b => .ok b
    | none => .error ("block not found: " ++ toString blockNumber)

/-- `GetHeader`. -/
def GetHeader (s : BlockStore) (blockNumber : UInt64) : Except String BlockHeader :=
  match s.blocks.find? (·.header.number == blockNumber) with
  | some b => .ok b.header
  | none => .error ("block not found: " ++ toString blockNumber)

end BlockStore

/-! ### The updates of a block -/

/-- `AddDBEntriesForDataTx`: the writes of a transaction, with its version and access control
as metadata, and its deletes, appended to the updates of their database. -/
def AddDBEntriesForDataTx (tx : DataTx) (version : Version) (dbsUpdates : DBsUpdates) : DBsUpdates :=
  tx.dbOperations.foldl (fun dbsUpdates ops =>
    let updates := (dbsUpdates.lookup ops.dbName).getD ⟨[], []⟩
    dbsUpdates.set ops.dbName
      { writes := updates.writes ++ ops.dataWrites.map fun w => ⟨w.key, w.value, some ⟨some version, w.acl⟩⟩
        deletes := updates.deletes ++ ops.dataDeletes.map (·.key) }) dbsUpdates

/-- The data branch of `constructDBAndProvenanceEntries`: the entries of each valid transaction,
in block order, its version its number in the block. -/
def dataTxEntries (blockNum : UInt64) (envs : List DataTxEnvelope)
    (validationInfo : List ValidationInfo) : DBsUpdates :=
  (validTxs 0 envs validationInfo).foldl
    (fun dbsUpdates x => AddDBEntriesForDataTx x.2 ⟨blockNum, x.1.toUInt64⟩ dbsUpdates) []

/-- The metadata of a database's entry in `_dbs`. -/
def dbEntryMetadata (version : Version) : Option Metadata := some ⟨some version, none⟩

/-- `createEntriesForNewDBs`: an entry in `_dbs` for each new database, holding its index
definition if the transaction gives one, and then an entry for its index database. Go deletes
each definition it uses from the transaction's map: the map that is left is returned. -/
def createEntriesForNewDBs (newDBs : List String) (dbsIndex : List (String × DBIndex))
    (version : Version) : List KVWithMetadata × List (String × DBIndex) :=
  newDBs.foldl (fun (toCreateDBs, dbsIndex) dbName =>
    match dbsIndex.lookup dbName with
    | some dbIndex =>
      (toCreateDBs ++ [⟨dbName, marshalIndexDef dbIndex.attributeAndType, dbEntryMetadata version⟩,
          ⟨IndexDB dbName, [], dbEntryMetadata version⟩],
        dbsIndex.filter (·.1 != dbName))
    | none => (toCreateDBs ++ [⟨dbName, [], dbEntryMetadata version⟩], dbsIndex))
    ([], dbsIndex)

/-- `createEntriesForIndexUpdates`: for a database that exists, a new index definition, with its
index database created if there was none, or the index database deleted when the definition is
empty. -/
def createEntriesForIndexUpdates (dbsIndex : List (String × DBIndex)) (db : LevelDB)
    (version : Version) : List KVWithMetadata × List String :=
  dbsIndex.foldl (fun (indexForExistingDBs, toDeleteDBs) (dbName, dbIndex) =>
    let indexExist := db.Exist (IndexDB dbName)
    let deleteExistingIndex := dbIndex.attributeAndType.isEmpty
    let updateDBIndex : KVWithMetadata := ⟨dbName, [], dbEntryMetadata version⟩
    let withIndex : KVWithMetadata :=
      { updateDBIndex with value := marshalIndexDef dbIndex.attributeAndType }
    if !indexExist && deleteExistingIndex then (indexForExistingDBs, toDeleteDBs)
    else if indexExist && deleteExistingIndex then
      (indexForExistingDBs ++ [updateDBIndex], toDeleteDBs ++ [IndexDB dbName])
    else if indexExist then (indexForExistingDBs ++ [withIndex], toDeleteDBs)
    else
      (indexForExistingDBs ++ [⟨IndexDB dbName, [], dbEntryMetadata version⟩, withIndex], toDeleteDBs))
    ([], [])

/-- `constructDBEntriesForDBAdminTx`: the updates of `_dbs`, and the transaction as Go leaves it. -/
def constructDBEntriesForDBAdminTx (tx : DBAdministrationTx) (version : Version) (db : LevelDB) :
    DBUpdates × DBAdministrationTx :=
  let (toCreateDBs, dbsIndex) := createEntriesForNewDBs tx.createDbs tx.dbsIndex version
  let (indexForExistingDBs, toDeleteIndexDBs) := createEntriesForIndexUpdates dbsIndex db version
  (⟨toCreateDBs ++ indexForExistingDBs, tx.deleteDbs ++ toDeleteIndexDBs⟩, { tx with dbsIndex := dbsIndex })

/-- `dbAdminTxIndex`. -/
def dbAdminTxIndex : Nat := 0

/-- `userAdminTxIndex`. -/
def userAdminTxIndex : Nat := 0

/-- The user administration branch of `constructDBAndProvenanceEntries`: no updates for an
invalid transaction, else the entries of `_users`. -/
def userAdminTxEntries (userCodec : ProtoCodec User) (blockNum : UInt64)
    (env : UserAdministrationTxEnvelope) (validationInfo : List ValidationInfo) :
    Except String DBsUpdates :=
  match validationInfo[userAdminTxIndex]? with
  | none => .error "panic: index out of range [0] with length 0"
  | some info =>
    if info.flag != .VALID then .ok []
    else
      match ConstructDBEntriesForUserAdminTx userCodec env.payload
          ⟨blockNum, userAdminTxIndex.toUInt64⟩ with
      | .error err => .error ("error while creating entries for the user admin transaction: " ++ err)
      | .ok entries => .ok [(UsersDBName, entries)]

/-- `constructDBAndProvenanceEntries`, without the provenance entries: the updates of each
database, and the block as Go leaves it, a database administration transaction having lost the
index definitions of the databases it creates. -/
def constructDBAndProvenanceEntries (codecs : Codecs) (db : LevelDB) (block : Block) :
    Except String (DBsUpdates × Block) :=
  match block.payload with
  | .dataTxEnvelopes envs =>
    .ok (dataTxEntries block.header.number envs block.header.validationInfo, block)
  | .userAdministrationTxEnvelope env =>
    (·, block) <$> userAdminTxEntries codecs.user block.header.number env block.header.validationInfo
  | .dbAdministrationTxEnvelope env =>
    match block.header.validationInfo[dbAdminTxIndex]? with
    | none => .error "panic: index out of range [0] with length 0"
    | some info =>
      if info.flag != .VALID then .ok ([], block)
      else
        let (updates, tx) := constructDBEntriesForDBAdminTx env.payload ⟨block.header.number, 0⟩ db
        .ok ([(DatabasesDBName, updates)],
          { block with payload := .dbAdministrationTxEnvelope { env with payload := tx } })
  | .configTxEnvelope env =>
    (·, block) <$> configTxEntries codecs db block.header.number env block.header.validationInfo

/-! ### The state trie -/

variable (H : Bytes → Bytes)

/-- `ApplyBlockOnStateTrie`: each write is an `Update` and each delete a `Delete` of the
composite key of its database and key. -/
def ApplyBlockOnStateTrie (trie : MPTrie) (worldStateUpdates : DBsUpdates) : Except String MPTrie :=
  worldStateUpdates.foldlM (fun trie (dbName, dbUpdate) => do
    let trie ← dbUpdate.writes.foldlM
      (fun trie dbWrite => trie.Update H (ConstructCompositeKey H dbName dbWrite.key) dbWrite.value) trie
    dbUpdate.deletes.foldlM
      (fun trie dbDelete => Prod.snd <$> trie.Delete H (ConstructCompositeKey H dbName dbDelete)) trie) trie

/-- The fuel `MPTrie.Commit` is given: more than the depth of a trie of SHA-256 keys. -/
def trieCommitFuel : Nat := 256

/-! ### The committer -/

variable (codecs : Codecs)

/-- What the committer writes: the world state, the block store and the state trie, whose
store is the trie store. -/
structure Committer where
  db : LevelDB
  blockStore : BlockStore
  stateTrie : MPTrie

/-- `commitToStateDB`: the block's updates and the updates of the index databases they cause,
committed to the world state. -/
def commitToStateDB (db : LevelDB) (blockNum : UInt64) (dbsUpdates : DBsUpdates) :
    Except String LevelDB := do
  let indexUpdates ← (ConstructIndexEntries dbsUpdates db).mapError
    fun e => "failed to create index updates: " ++ e
  let dbsUpdates := indexUpdates.foldl (fun m (indexDB, updates) => m.set indexDB updates) dbsUpdates
  (db.Commit dbsUpdates blockNum).mapError
    fun e => "failed to commit block " ++ toString blockNum ++ " to state database: " ++ e

/-- The steps of `commitBlock` up to and including the block store's commit: the updates, the
trie with them applied, and the block as stored, with the trie's root hash in its header. -/
def commitToBlockStoreSteps (c : Committer) (block : Block) :
    Except String (Committer × DBsUpdates × Block) := do
  let blockNum := block.header.number
  let (dbsUpdates, block) ← (constructDBAndProvenanceEntries codecs c.db block).mapError
    fun e => "error while constructing database and provenance entries for block " ++
      toString blockNum ++ ": " ++ e
  let stateTrie ← if c.stateTrie.store.disabled then pure c.stateTrie
    else (ApplyBlockOnStateTrie H c.stateTrie dbsUpdates).mapError fun e => "panic: " ++ e
  -- a disabled trie is Go's `nil`, whose hash is `nil`
  let stateTrieRootHash := if c.stateTrie.store.disabled then [] else stateTrie.Hash H
  let block := { block with header := { block.header with stateMerkelTreeRootHash := stateTrieRootHash } }
  let blockStore ← (c.blockStore.Commit block).mapError
    fun e => "error while committing block " ++ toString blockNum ++ " to the block store: " ++
      "failed to commit block " ++ toString blockNum ++ " to block store: " ++ e
  pure (⟨c.db, blockStore, stateTrie⟩, dbsUpdates, block)

/-- `commitBlock`: the block store's commit, then the world state's, then the trie's. -/
def commitBlock (c : Committer) (block : Block) : Except String Committer := do
  let (c, dbsUpdates, block) ← commitToBlockStoreSteps H codecs c block
  let blockNum := block.header.number
  let db ← commitToStateDB c.db blockNum dbsUpdates
  let stateTrie ← if c.stateTrie.store.disabled then pure c.stateTrie
    else c.stateTrie.Commit H trieCommitFuel blockNum
  pure ⟨db, c.blockStore, stateTrie⟩

end Orion.BlockProcessor
