import Orion.Trie.Node
import Orion.Lib.NodeStore

/-!
# The trie store (`internal/mptrie/store`)

`Store` keeps trie nodes and values by pointer in three layers, searched in this
order: the in-memory maps the trie writes to (`PutNode`, `PutValue`), the maps of
what is marked for the next commit (`PersistNode`, `PersistValue`), and the
leveldb database `trieDataDB`. `CommitChanges` writes the marked entries and the
block number to the database in one batch and empties all four maps;
`RollbackChanges` empties them without writing.

Go keys every map by the base64 text of the pointer, which is injective, so the
maps here are keyed by the pointer itself. Go keeps a node serialized with
protobuf and returns a fresh copy from `GetNode`; the round trip gives back the
node that was written (the store turns the empty chunks protobuf makes of `nil`
children back into `nil`), so a map here holds the node itself. A lookup that
misses every layer is leveldb's `ErrNotFound`. Writes to leveldb are taken to
succeed.
-/

namespace Orion.Trie

open Orion.State

/-- The leveldb database `triedata`: nodes, values and the last committed block. -/
structure TrieDataDB where
  nodes : Bytes → Option TrieNode
  values : Bytes → Option Bytes
  lastBlock : Option UInt64

/-- Go's `store.Store`. -/
structure Store where
  disabled : Bool
  trieDataDB : TrieDataDB
  inMemoryNodes : Bytes → Option TrieNode
  inMemoryValues : Bytes → Option Bytes
  nodesToPersist : Bytes → Option TrieNode
  valuesToPersist : Bytes → Option Bytes

/-- The message of leveldb's `ErrNotFound`. -/
def errNotFound : String := "leveldb: not found"

namespace Store

/-- `GetNode`: memory, then the marked nodes, then the database. -/
def GetNode (s : Store) (nodePtr : Bytes) : Except String TrieNode :=
  match s.inMemoryNodes nodePtr with
  | some n => .ok n
  | none =>
    match s.nodesToPersist nodePtr with
    | some n => .ok n
    | none =>
      match s.trieDataDB.nodes nodePtr with
      | some n => .ok n
      | none => .error errNotFound

/-- `GetValue`: the same search for a value. -/
def GetValue (s : Store) (valuePtr : Bytes) : Except String Bytes :=
  match s.inMemoryValues valuePtr with
  | some v => .ok v
  | none =>
    match s.valuesToPersist valuePtr with
    | some v => .ok v
    | none =>
      match s.trieDataDB.values valuePtr with
      | some v => .ok v
      | none => .error errNotFound

/-- `PutNode`: into memory. -/
def PutNode (s : Store) (nodePtr : Bytes) (node : TrieNode) : Store :=
  { s with inMemoryNodes := Function.update s.inMemoryNodes nodePtr (some node) }

/-- `PutValue`: into memory. -/
def PutValue (s : Store) (valuePtr value : Bytes) : Store :=
  { s with inMemoryValues := Function.update s.inMemoryValues valuePtr (some value) }

/-- `PersistNode`: mark a node of memory for the next commit; whether it was in memory. -/
def PersistNode (s : Store) (nodePtr : Bytes) : Bool × Store :=
  match s.inMemoryNodes nodePtr with
  | some n => (true, { s with nodesToPersist := Function.update s.nodesToPersist nodePtr (some n) })
  | none => (false, s)

/-- `PersistValue`: mark a value of memory for the next commit. -/
def PersistValue (s : Store) (valuePtr : Bytes) : Bool × Store :=
  match s.inMemoryValues valuePtr with
  | some v => (true, { s with valuesToPersist := Function.update s.valuesToPersist valuePtr (some v) })
  | none => (false, s)

/-- `Height`: the last committed block. -/
def Height (s : Store) : Except String UInt64 :=
  match s.trieDataDB.lastBlock with
  | some n => .ok n
  | none => .error errNotFound

/-- `CommitChanges`: the block number and the marked nodes and values go to the
database in one batch; then all four maps are emptied. -/
def CommitChanges (s : Store) (blockNum : UInt64) : Store :=
  { s with
    trieDataDB :=
      { nodes := Orion.Lib.overlay s.nodesToPersist s.trieDataDB.nodes
        values := Orion.Lib.overlay s.valuesToPersist s.trieDataDB.values
        lastBlock := some blockNum }
    inMemoryNodes := fun _ => none
    inMemoryValues := fun _ => none
    nodesToPersist := fun _ => none
    valuesToPersist := fun _ => none }

/-- `RollbackChanges`: all four maps are emptied, nothing is written. -/
def RollbackChanges (s : Store) : Store :=
  { s with
    inMemoryNodes := fun _ => none
    inMemoryValues := fun _ => none
    nodesToPersist := fun _ => none
    valuesToPersist := fun _ => none }

/-- A store opened on an empty database (`openNewStore`). -/
def empty : Store :=
  ⟨false, ⟨fun _ => none, fun _ => none, none⟩, fun _ => none, fun _ => none, fun _ => none, fun _ => none⟩

end Store

end Orion.Trie
