import Orion.WorldState.Commit
import Orion.Lib.Json
import Mathlib.Data.List.Dedup

/-!
# Index entries of JSON values (`internal/stateindex`)

A database with an index definition (a map from attribute names to `NUMBER`, `STRING` or
`BOOLEAN`, stored as JSON in `_dbs`) has an index database `IndexDB(dbName)`. Its keys are
index entries: for each key of the database whose value is a JSON object, and each attribute of
the definition found in the object (at any depth) with a value of the defined type, the JSON
text of an `IndexEntry` naming the attribute, its type, the value (a number through
`EncodeInt64`, whose text orders as the number does) and the key. `ConstructIndexEntries`
computes, for the updates of a block, the entries to write (of the new values) and to delete (of
the values they replace or that are deleted), from the committed values, leaving out entries
that are both (`removeDuplicateIndexEntries`).

Go ranges over maps here in an order it does not fix; the lists below are one such order. The
messages of `encoding/json`'s errors are not reproduced.
-/

namespace Orion.StateIndex

open Orion.State Orion.Types Orion.WorldState GoJson

/-- `indexDBPrefix`. -/
def indexDBPrefix : String := "_index_"

/-- `IndexDB`: the name of a database's index database. -/
def IndexDB (dbName : String) : String := indexDBPrefix ++ dbName

/-- `types.IndexAttributeType`. -/
inductive IndexAttributeType where
  | NUMBER
  | STRING
  | BOOLEAN
  deriving DecidableEq, Repr

/-- The protobuf number of a type, which is what `json.Marshal` writes for it. -/
def IndexAttributeType.code : IndexAttributeType → Int
  | .NUMBER => 0
  | .STRING => 1
  | .BOOLEAN => 2

/-- The type of a number read back; a code the database administration validator refuses is
never stored, and is an error here. -/
def IndexAttributeType.ofCode? (n : Int) : Option IndexAttributeType :=
  if n = 0 then some .NUMBER else if n = 1 then some .STRING else if n = 2 then some .BOOLEAN
  else none

/-- An index definition, `map[string]types.IndexAttributeType`. -/
abbrev IndexDef := List (String × IndexAttributeType)

/-- `json.Marshal` of an index definition; a `nil` map, which is what an empty definition
decodes to, is `null`. -/
def marshalIndexDef (index : IndexDef) : Bytes :=
  let text := marshalNumberMap (if index.isEmpty then none else some (index.map fun (a, t) => (a, t.code)))
  text.toUTF8.toList

/-- The value of a list of decimal digits. -/
def decimalValue (ds : List Char) : Nat := ds.foldl (fun n d => 10 * n + (d.toNat - '0'.toNat)) 0

/-- `strconv.ParseInt(text, 10, 64)`: an optional sign, then decimal digits, within 64 bits. -/
def parseInt64 (text : String) : Option Int :=
  let (neg, ds) := match text.toList with
    | '-' :: ds => (true, ds)
    | '+' :: ds => (false, ds)
    | ds => (false, ds)
  if ds.isEmpty || !ds.all Char.isDigit then none
  else
    let n : Int := if neg then -(decimalValue ds : Int) else decimalValue ds
    if -2 ^ 63 ≤ n ∧ n < 2 ^ 63 then some n else none

/-- `json.Unmarshal` of an index definition: an object of attribute types, or `null` for none. -/
def unmarshalIndexDef (indexDef : Bytes) : Except String IndexDef :=
  match unmarshal indexDef with
  | some .null => .ok []
  | some (.object members) =>
    members.mapM fun (attr, v) =>
      match v with
      | .number text =>
        match parseInt64 text >>= IndexAttributeType.ofCode? with
        | some t => .ok (attr, t)
        | none => .error "json: cannot unmarshal number into Go value of type types.IndexAttributeType"
      | _ => .error "json: cannot unmarshal into Go value of type types.IndexAttributeType"
  | some _ => .error "json: cannot unmarshal into Go value of type map[string]types.IndexAttributeType"
  | none => .error "invalid character in index definition"

/-! ### The order-preserving encoding of numbers (`encoding.go`) -/

/-- `hextable`. -/
def hextable (n : Nat) : Char := hexDigit n

/-- The eight bytes of a 64-bit number, most significant first. -/
def bytesBE (n : Nat) : List Nat := (List.range 8).map fun r => n / 256 ^ (7 - r) % 256

/-- Two hexadecimal digits per byte. -/
def hexBytes (bs : List Nat) : List Char := bs.flatMap fun b => [hextable (b / 16), hextable (b % 16)]

/-- `encodeOrderPreservingVarUint64`: `1`, the number of bytes left after the leading zero
bytes are dropped, and those bytes in hexadecimal. -/
def encodeOrderPreservingVarUint64 (n : Nat) : String :=
  let rest := (bytesBE n).dropWhile (· = 0)
  String.ofList ('1' :: hextable rest.length :: hexBytes rest)

/-- `encodeReverseOrderVarUint64`: `0`, the number of leading `0xff` bytes of `MaxUint64 - n`,
and the bytes after them in hexadecimal. -/
def encodeReverseOrderVarUint64 (n : Nat) : String :=
  let bs := bytesBE (2 ^ 64 - 1 - n)
  let rest := bs.dropWhile (· = 0xff)
  String.ofList ('0' :: hextable (8 - rest.length) :: hexBytes rest)

/-- `EncodeInt64`. -/
def EncodeInt64 (n : Int) : String :=
  if n < 0 then encodeReverseOrderVarUint64 n.natAbs else encodeOrderPreservingVarUint64 n.toNat

/-! ### Index entries -/

/-- `Beginning`, `Existing` and `Ending`: where a range bound stands relative to a value or key. -/
def Beginning : Int := 1
def Existing : Int := 2
def Ending : Int := 3

/-- The value an index entry holds, `IndexEntry.Value`: `nil`, a string (a string attribute, or
a number's encoding) or a boolean. -/
inductive IndexValue where
  | nil
  | string (s : String)
  | bool (b : Bool)
  deriving DecidableEq, Repr

/-- The JSON text `json.Marshal` writes for a value. -/
def IndexValue.marshal : IndexValue → String
  | .nil => "null"
  | .string s => quote s
  | .bool b => if b then "true" else "false"

/-- `IndexEntry`; Go's zero values are the defaults. `attr` is Go's `Attribute`. -/
structure IndexEntry where
  attr : String
  type : IndexAttributeType
  valuePosition : Int := 0
  value : IndexValue := .nil
  keyPosition : Int := 0
  key : String := ""
  deriving DecidableEq, Repr

/-- `IndexEntry.Load`, of the fields the executor reads: the value and the key of the entry a
string of the index database holds. -/
def IndexEntry.Load (entry : String) : Except String (IndexValue × String) :=
  match unmarshal entry.toUTF8.toList with
  | some v =>
    let value := match v.member? "v" with
      | some (.string s) => some (IndexValue.string s)
      | some (.bool b) => some (.bool b)
      | some .null | none => some .nil
      | some _ => none
    let key := match v.member? "k" with
      | some (.string s) => some s
      | none => some ""
      | some _ => none
    match value, key with
    | some value, some key => .ok (value, key)
    | _, _ => .error "json: cannot unmarshal into Go struct field IndexEntry"
  | none => .error "invalid character in index entry"

/-- `IndexEntry.String`: `json.Marshal` of the entry, its fields in declaration order. -/
def IndexEntry.String (e : IndexEntry) : String :=
  "\x7b\"a\":" ++ quote e.attr ++ ",\"t\":" ++ toString e.type.code ++
    ",\"vp\":" ++ toString e.valuePosition ++ ",\"v\":" ++ e.value.marshal ++
    ",\"kp\":" ++ toString e.keyPosition ++ ",\"k\":" ++ quote e.key ++ "\x7d"

/-- `isTypeSame` and `GetValue`: the value an attribute of the defined type indexes, if its
JSON value has that type. A number must be an integer within 64 bits. -/
def indexedValue (v : Value) (t : IndexAttributeType) : Option IndexValue :=
  match v, t with
  | .number text, .NUMBER => (parseInt64 text).map fun n => .string (EncodeInt64 n)
  | .string s, .STRING => some (.string s)
  | .bool b, .BOOLEAN => some (.bool b)
  | _, _ => none

mutual

/-- `partialIndexEntriesForValue`: the entries, without their key, of the indexed attributes of
an object, at any depth: a member holding an object is searched in turn. -/
def partialIndexEntriesForValue (index : IndexDef) : Value → List IndexEntry
  | .object members => partialIndexEntriesForMembers index members
  | _ => []

/-- The loop of `partialIndexEntriesForValue` over the members of an object. -/
def partialIndexEntriesForMembers (index : IndexDef) : List (String × Value) → List IndexEntry
  | [] => []
  | (attr, v) :: rest =>
    let here := match v with
      -- a string, a `json.Number` or a boolean is indexed if the definition names the attribute
      | .string _ | .number _ | .bool _ =>
        match index.lookup attr with
        | some t =>
          match indexedValue v t with
          | some value =>
            [{ attr := attr, type := t, valuePosition := Existing, value := value,
               keyPosition := Existing }]
          | none => []
        | none => []
      | _ => partialIndexEntriesForValue index v
    here ++ partialIndexEntriesForMembers index rest

end

/-- `decodeJSONAndConstructIndexEntries`: the entries of one key's value; none when the value
is not a JSON object. -/
def decodeJSONAndConstructIndexEntries (key : String) (value : Bytes) (index : IndexDef) :
    List IndexEntry :=
  match decode value with
  | some (.object members) =>
    (partialIndexEntriesForValue index (.object members)).map fun e => { e with key := key }
  | _ => []

/-- `toStrings`. -/
def toStrings (entries : List IndexEntry) : List String := entries.map IndexEntry.String

/-! ### An entry's text determines the entry -/

/-- `removeDuplicateIndexEntries`: the entries to create and to delete, without those in both.
When nothing is dropped, the lists come back as they were. -/
def removeDuplicateIndexEntries (indexOfNewValues indexOfExistingValues : List String) :
    List String × List String :=
  let newIndexEntries := indexOfNewValues.dedup.filter (· ∉ indexOfExistingValues)
  let existingIndexEntries := indexOfExistingValues.dedup.filter (· ∉ indexOfNewValues)
  if indexOfNewValues.length = newIndexEntries.length then (indexOfNewValues, indexOfExistingValues)
  else (newIndexEntries, existingIndexEntries)

/-- What `removeDuplicateIndexEntries` keeps: the new entries that are not old, and the old
entries that are not new. -/
theorem mem_removeDuplicateIndexEntries (news olds : List String) (x : String) :
    (x ∈ (removeDuplicateIndexEntries news olds).1 ↔ x ∈ news ∧ x ∉ olds) ∧
      (x ∈ (removeDuplicateIndexEntries news olds).2 ↔ x ∈ olds ∧ x ∉ news) := by
  unfold removeDuplicateIndexEntries
  dsimp only
  split_ifs with hlen
  · -- nothing was dropped, so no new entry is an old one
    have hle : (news.dedup.filter (· ∉ olds)).length ≤ news.dedup.length := List.length_filter_le _ _
    have hle' : news.dedup.length ≤ news.length := (List.dedup_sublist news).length_le
    have hall : ∀ a ∈ news.dedup, decide (a ∉ olds) = true :=
      List.length_filter_eq_length_iff.1 (by omega)
    have hdisj : ∀ a ∈ news, a ∉ olds := fun a ha => by simpa using hall a (List.mem_dedup.2 ha)
    exact ⟨⟨fun h => ⟨h, hdisj x h⟩, And.left⟩, ⟨fun h => ⟨h, fun hn => hdisj x hn h⟩, And.left⟩⟩
  · simp [List.mem_filter, List.mem_dedup]

/-- `indexEntriesOfExistingValue`: the entries of the committed values of `keys`. -/
def indexEntriesOfExistingValue (keys : List String) (index : IndexDef) (db : LevelDB)
    (dbName : String) : Except String (List IndexEntry) := do
  let entries ← keys.mapM fun k => do
    let (v, _) ← db.Get dbName k
    pure (decodeJSONAndConstructIndexEntries k v index)
  pure entries.flatten

/-- `indexEntriesForWrites`: the entries of the new values to create and of the replaced values
to delete. -/
def indexEntriesForWrites (writes : List KVWithMetadata) (index : IndexDef) (db : LevelDB)
    (dbName : String) : Except String (List String × List String) := do
  let newIndexEntries := writes.flatMap fun kv => decodeJSONAndConstructIndexEntries kv.key kv.value index
  let existingIndexEntries ← indexEntriesOfExistingValue (writes.map (·.key)) index db dbName
  pure (removeDuplicateIndexEntries (toStrings newIndexEntries) (toStrings existingIndexEntries))

/-- `indexEntriesForDeletes`: the entries of the deleted values. -/
def indexEntriesForDeletes (deletes : List String) (index : IndexDef) (db : LevelDB)
    (dbName : String) : Except String (List String) :=
  toStrings <$> indexEntriesOfExistingValue deletes index db dbName

/-- `ConstructIndexEntries`: for each database with an index definition, the updates of its index
database, when there are any. -/
def ConstructIndexEntries (updates : DBsUpdates) (db : LevelDB) : Except String DBsUpdates :=
  updates.foldlM (fun indexEntries (dbName, update) => do
    let (indexDef, _) ← db.GetIndexDefinition dbName
    if indexDef = [] then return indexEntries
    let index ← unmarshalIndexDef indexDef
    let (newIndexToBeCreated, oldIndexToBeDeleted) ← indexEntriesForWrites update.writes index db dbName
    let toBeDeletedIndexEntries ← indexEntriesForDeletes update.deletes index db dbName
    let dbUpdates : DBUpdates :=
      { writes := newIndexToBeCreated.map fun ind => ⟨ind, [], none⟩
        deletes := oldIndexToBeDeleted ++ toBeDeletedIndexEntries }
    if dbUpdates.writes.length > 0 || dbUpdates.deletes.length > 0 then
      return indexEntries.set (IndexDB dbName) dbUpdates
    return indexEntries) []

/-! ### The databases the index updates name -/

/-- An index database is never one of the databases a new world state has. -/
theorem IndexDB_ne_of_mem_preCreateDBs {dbName name : String} (h : name ∈ LevelDB.preCreateDBs) :
    IndexDB dbName ≠ name := by
  intro heq
  -- the names differ in their first two characters
  have hchars := congrArg (fun s => s.toList.take 2) heq
  simp only [LevelDB.preCreateDBs, List.mem_cons, List.not_mem_nil, or_false] at h
  rcases h with rfl | rfl | rfl | rfl | rfl <;>
    simp [IndexDB, indexDBPrefix, UsersDBName, DatabasesDBName, ConfigDBName, MetadataDBName,
      DefaultDBName] at hchars

/-- `ConstructIndexEntries` updates index databases only. -/
theorem ConstructIndexEntries_names {updates indexUpdates : DBsUpdates} {db : LevelDB}
    (h : ConstructIndexEntries updates db = .ok indexUpdates) :
    ∀ e ∈ indexUpdates, ∃ dbName, e.1 = IndexDB dbName := by
  unfold ConstructIndexEntries at h
  refine Except.foldlM_invariant (P := fun acc : DBsUpdates => ∀ e ∈ acc, ∃ dbName, e.1 = IndexDB dbName)
    ?_ (fun _ he => absurd he List.not_mem_nil) h
  -- one step returns the entries so far, or sets the index database of its database
  rintro acc ⟨dbName, update⟩ acc' hacc hstep
  obtain ⟨⟨indexDef, _⟩, -, hstep⟩ := Except.bind_eq_ok.1 hstep
  dsimp only at hstep
  split_ifs at hstep with hempty
  · cases hstep
    exact hacc
  obtain ⟨index, -, hstep⟩ := Except.bind_eq_ok.1 hstep
  obtain ⟨⟨newIndex, oldIndex⟩, -, hstep⟩ := Except.bind_eq_ok.1 hstep
  obtain ⟨deleted, -, hstep⟩ := Except.bind_eq_ok.1 hstep
  dsimp only at hstep
  split_ifs at hstep
  · cases hstep
    intro e he
    rcases DBsUpdates.mem_set he with rfl | ⟨he, -⟩
    · exact ⟨dbName, rfl⟩
    · exact hacc e he
  · cases hstep
    exact hacc

/-- Databases without an index definition cause no index updates. -/
theorem ConstructIndexEntries_of_no_index {updates : DBsUpdates} {db : LevelDB}
    (h : ∀ e ∈ updates, ∃ metadata, db.GetIndexDefinition e.1 = .ok ([], metadata)) :
    ConstructIndexEntries updates db = .ok [] := by
  unfold ConstructIndexEntries
  generalize ([] : DBsUpdates) = acc
  -- each step finds no definition and returns the entries so far
  induction updates generalizing acc with
  | nil => rfl
  | cons e rest ih =>
    obtain ⟨metadata, hdef⟩ := h e List.mem_cons_self
    obtain ⟨dbName, update⟩ := e
    rw [List.foldlM_cons]
    simp only [hdef, Except.ok_bind, if_pos]
    exact ih (fun e he => h e (List.mem_cons_of_mem _ he)) acc

end Orion.StateIndex
