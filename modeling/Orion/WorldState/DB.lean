import Orion.Types.Config
import Orion.Lib.Except

/-!
# The world state (`internal/worldstate`, `worldstate/leveldb`)

The world state is a set of named leveldb databases, each a map from keys to
values with metadata. `LevelDB` keeps them by name (`l.dbs`); a database exists
when it has an entry there. `Commit` applies, database by database in the order
the caller's map is ranged over, a batch of writes and deletes; the batch of the
system database `_dbs` also creates the databases it writes and deletes those it
deletes. The last committed block number, which Go stores in the `_metadata`
database, is a field here.

Values are stored serialized with their metadata; `Get` gives back the value and
the metadata that were written, and `nil` for both when the key is absent (an
empty value is `nil` after the protobuf round trip). Database names are checked
against the pattern `^[0-9a-zA-Z_\-\.]+$` (`ValidDBName`). The cluster configuration is the
value of the key `config` of `_config` (`GetConfig`).
-/

namespace Orion.WorldState

open Orion.State Orion.Types

/-- `UsersDBName`. -/
def UsersDBName : String := "_users"
/-- `DatabasesDBName`. -/
def DatabasesDBName : String := "_dbs"
/-- `ConfigDBName`. -/
def ConfigDBName : String := "_config"
/-- `MetadataDBName`. -/
def MetadataDBName : String := "_metadata"
/-- `DefaultDBName`. -/
def DefaultDBName : String := "bdb"

/-- `IsSystemDB`. -/
def IsSystemDB (dbName : String) : Bool :=
  dbName == UsersDBName || dbName == DatabasesDBName || dbName == ConfigDBName ||
    dbName == MetadataDBName

/-- The names `IsSystemDB` rejects. -/
theorem IsSystemDB_eq_false {dbName : String} :
    IsSystemDB dbName = false ↔ dbName ≠ UsersDBName ∧ dbName ≠ DatabasesDBName ∧
      dbName ≠ ConfigDBName ∧ dbName ≠ MetadataDBName := by
  simp only [IsSystemDB, Bool.or_eq_false_iff, beq_eq_false_iff_ne, and_assoc]

/-- `IsDefaultWorldStateDB`. -/
def IsDefaultWorldStateDB (dbName : String) : Bool := dbName == DefaultDBName

/-- A character the pattern `[0-9a-zA-Z_\-\.]` allows. -/
def allowedCharInDBName (c : Char) : Bool :=
  c.isAlphanum || c == '_' || c == '-' || c == '.'

/-- `ValidDBName`: the name matches `^[0-9a-zA-Z_\-\.]+$`. -/
def ValidDBName (dbName : String) : Bool :=
  !dbName.isEmpty && dbName.toList.all allowedCharInDBName

/-- `types.ValueWithMetadata`, as a database stores it. -/
structure ValueWithMetadata where
  value : Bytes
  metadata : Option Metadata
  deriving DecidableEq, Repr

/-- One leveldb database. -/
abbrev KVStore := String → Option ValueWithMetadata

/-- Go's `LevelDB`: the databases by name and the last committed block. -/
structure LevelDB where
  dbs : String → Option KVStore
  height : Option UInt64

/-- `ConfigKey`: the key of the cluster configuration in `_config`. -/
def ConfigKey : String := "config"

namespace LevelDB

/-- `Exist`. -/
def Exist (l : LevelDB) (dbName : String) : Bool := (l.dbs dbName).isSome

/-- `DBNotFoundErr`'s message. -/
def dbNotFound (dbName : String) : String := "database " ++ dbName ++ " does not exist"

/-- `Get`: the value and metadata of a key, both `nil` when the key is absent. -/
def Get (l : LevelDB) (dbName key : String) : Except String (Bytes × Option Metadata) :=
  match l.dbs dbName with
  | none => .error (dbNotFound dbName)
  | some db =>
    match db key with
    | none => .ok ([], none)
    | some v => .ok (v.value, v.metadata)

/-- `GetVersion`. -/
def GetVersion (l : LevelDB) (dbName key : String) : Except String (Option Version) :=
  (l.Get dbName key).map fun (_, m) => m.bind Metadata.version

/-- `GetACL`. -/
def GetACL (l : LevelDB) (dbName key : String) : Except String (Option AccessControl) :=
  (l.Get dbName key).map fun (_, m) => m.bind Metadata.accessControl

/-- The stored entry of a key, `none` when the database or the key is absent. -/
def entry (l : LevelDB) (dbName key : String) : Option ValueWithMetadata :=
  (l.dbs dbName).bind fun db => db key

/-- A `Get` that finds a value or metadata has read a stored entry. -/
theorem entry_of_Get {l : LevelDB} {dbName key : String} {val : Bytes} {m : Option Metadata}
    (h : l.Get dbName key = .ok (val, m)) (hne : ¬(val = [] ∧ m = none)) :
    ∃ v, l.entry dbName key = some v := by
  unfold Get at h
  split at h
  · cases h
  · rename_i db hdb
    split at h
    · cases h
      exact absurd ⟨rfl, rfl⟩ hne
    · rename_i v hv
      exact ⟨v, by simp [entry, hdb, hv]⟩

/-- A stored entry is what `Get` reads. -/
theorem Get_of_entry {l : LevelDB} {dbName key : String} {v : ValueWithMetadata}
    (h : l.entry dbName key = some v) : l.Get dbName key = .ok (v.value, v.metadata) := by
  obtain ⟨db, hdb, hkey⟩ := Option.bind_eq_some_iff.1 h
  simp only [Get, hdb, hkey]

/-- A `Get` that reads a value has read a stored entry, with its metadata. -/
theorem entry_of_Get_ne_nil {l : LevelDB} {dbName key : String} {val : Bytes} {m : Option Metadata}
    (h : l.Get dbName key = .ok (val, m)) (hval : val ≠ []) :
    ∃ v, l.entry dbName key = some v ∧ v.value = val ∧ v.metadata = m := by
  obtain ⟨v, hv⟩ := entry_of_Get h fun hnil => hval hnil.1
  rw [Get_of_entry hv] at h
  cases h
  exact ⟨v, hv, rfl, rfl⟩

/-- `GetConfig`: the committed cluster configuration and its metadata. Before the genesis block
there is no value, which reads as the empty configuration. -/
def GetConfig (codec : ProtoCodec ClusterConfig) (l : LevelDB) :
    Except String (ClusterConfig × Option Metadata) := do
  let (configSerialized, metadata) ← l.Get ConfigDBName ConfigKey
  match codec.Unmarshal configSerialized with
  | .ok config => pure (config, metadata)
  | .error err => throw ("error while unmarshaling committed cluster configuration: " ++ err)

/-- The configuration a commit wrote is the one `GetConfig` reads. -/
theorem GetConfig_of_entry {codec : ProtoCodec ClusterConfig} {l : LevelDB} {config : ClusterConfig}
    {metadata : Option Metadata}
    (h : l.entry ConfigDBName ConfigKey = some ⟨codec.Marshal config, metadata⟩) :
    GetConfig codec l = .ok (config, metadata) := by
  obtain ⟨db, hdb, hkey⟩ := Option.bind_eq_some_iff.1 h
  simp only [GetConfig, Get, hdb, hkey, Except.ok_bind, codec.Unmarshal_Marshal]
  rfl

/-- A configuration read from a world state: its `_config` exists. -/
theorem configDB_of_GetConfig {codec : ProtoCodec ClusterConfig} {l : LevelDB}
    {config : ClusterConfig} {metadata : Option Metadata}
    (h : GetConfig codec l = .ok (config, metadata)) : ∃ db, l.dbs ConfigDBName = some db := by
  cases hdb : l.dbs ConfigDBName with
  | none =>
    simp only [GetConfig, Get, hdb, Except.error_bind] at h
    cases h
  | some db => exact ⟨db, rfl⟩

/-- `GetConfig` reads only the databases. -/
theorem GetConfig_congr {codec : ProtoCodec ClusterConfig} {l l' : LevelDB} (h : l'.dbs = l.dbs) :
    GetConfig codec l' = GetConfig codec l := by
  unfold GetConfig Get
  rw [h]

/-- `GetConfig` reads only `_config`. -/
theorem GetConfig_congr_configDB {codec : ProtoCodec ClusterConfig} {l l' : LevelDB}
    (h : l'.dbs ConfigDBName = l.dbs ConfigDBName) : GetConfig codec l' = GetConfig codec l := by
  unfold GetConfig Get
  rw [h]

/-- `Has`: whether a key is stored. The database of a name that does not exist is a `nil` one,
which Go dereferences. -/
def Has (l : LevelDB) (dbName key : String) : Except String Bool :=
  (l.dbs dbName).elim (.error runtimeNilDereference) fun db => .ok (db key).isSome

end LevelDB

end Orion.WorldState
