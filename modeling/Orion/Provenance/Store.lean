import Mathlib.Data.List.Sort
import Orion.WorldState.Commit
import Orion.Lib.QuadStore
import Orion.Lib.Encoding
import Orion.Lib.GoIO
import Orion.Lib.Except

/-!
# The provenance store (`internal/provenance/commit_and_query.go`)

The provenance store keeps the history of the ledger as a graph. For each transaction of a
block, `Commit` writes an edge from the transaction's location to its id (`INCLUDES`) and, for
a valid transaction, edges from its user to its id (`SUBMITTED`), from its id to each value it
read, wrote and deleted (`READS`, `WRITES`, `DELETES`), from the composite key `db$key` to each
value written, labelled with the JSON of the value's version, and both ways between a value and
the value it replaced (`PREVIOUS`, `NEXT`). A value is a vertex: the JSON of the
`KVWithMetadata` written, its key made composite. The queries walk the graph back: `GetValues`
along every edge from a composite key; the user queries from a user through `SUBMITTED` and on
along one predicate (`outEdgesFrom`), splitting each value's key at the `$`s
(`splitCompositeKey`).

The graph is a set of quads (`Orion.Lib.QuadStore`), and a query lists what it reaches in the
order the quads were added; Cayley lists it in the order of its indexes, which no caller relies
on. The batch of a block is written when it is closed, so every lookup `Commit` makes reads the
graph as it was before the block, and a failed `Commit` writes nothing. The JSON of a value is
any encoding that `json.Unmarshal` reads back (`TextCodec`); the JSON of a version and of a
location are written out as `json.Marshal` writes them. A read of a value that is not in the
graph adds no edge: Cayley is handed a `nil` object there. `FollowRecursive` lists the vertices
reachable within the depth bound, with no bound for a negative limit. `sort.Slice` is taken to
keep values of equal versions in order. A Go map is a list of entries in one iteration order.
`GetTxIDLocation`, which parses a location back, is left out.
-/

namespace Orion.Provenance

open Orion.State Orion.Types Orion.WorldState Orion.Lib GoIO

/-- `SUBMITTED`: from a user to the id of a transaction it submitted. -/
def SUBMITTED : String := "s"

/-- `INCLUDES`: from a location in a block to the id of the transaction there. -/
def INCLUDES : String := "i"

/-- `WRITES`: from a transaction's id to a value it wrote. -/
def WRITES : String := "w"

/-- `READS`: from a transaction's id to a value it read. -/
def READS : String := "r"

/-- `DELETES`: from a transaction's id to a value it deleted. -/
def DELETES : String := "d"

/-- `NEXT`: from a value to the value that replaced it. -/
def NEXT : String := "n"

/-- `PREVIOUS`: from a value to the value it replaced. -/
def PREVIOUS : String := "p"

/-- The Cayley graph. -/
abbrev Graph := QuadStore String

/-- A text encoding of `α` whose `Unmarshal` reads back what `Marshal` wrote: `json.Marshal`
and `json.Unmarshal`. -/
structure TextCodec (α : Type) where
  Marshal : α → String
  Unmarshal : String → Except String α
  Unmarshal_Marshal : ∀ a, Unmarshal (Marshal a) = .ok a

/-- A text encoding for any type with a code: the bytes of the code (`encodeBytes`), one
character for each. -/
def TextCodec.ofEncodable (α : Type) [Inhabited α] [Encodable α] [DecidableEq α] : TextCodec α where
  Marshal a := String.ofList ((encodeBytes default a).map fun b => Char.ofNat b.toNat)
  Unmarshal s := (decodeBytes default (s.toList.map fun c => c.toNat.toUInt8)).elim
    (.error "invalid character looking for beginning of value") .ok
  Unmarshal_Marshal a := by
    have hbyte : ∀ b : UInt8, (Char.ofNat b.toNat).toNat.toUInt8 = b := by
      intro b
      have hchar : (Char.ofNat b.toNat).toNat = b.toNat := by
        rw [Char.ofNat, dif_pos (by unfold Nat.isValidChar; have := b.toNat_lt; omega)]
        rfl
      rw [hchar, Nat.toUInt8_eq, UInt8.ofNat_toNat]
    simp only [String.toList_ofList, List.map_map, Function.comp_def, hbyte, List.map_id',
      decodeBytes_encodeBytes, Option.elim_some]

/-- `KeyWithVersion`. -/
structure KeyWithVersion where
  key : String
  version : Option Version
  deriving DecidableEq, Repr

/-- `TxDataForProvenance`: the transaction data the committer hands over; `Deletes` and
`OldVersionOfWrites` are maps from a key to its version. -/
structure TxDataForProvenance where
  isValid : Bool
  dbName : String
  userID : String
  txID : String
  reads : List KeyWithVersion
  writes : List KVWithMetadata
  deletes : List (String × Option Version)
  oldVersionOfWrites : List (String × Option Version)
  deriving DecidableEq, Repr

/-- `TxIDLocation`. -/
structure TxIDLocation where
  blockNum : UInt64
  txIndex : Nat
  deriving DecidableEq, Repr

/-! ### JSON texts and composite keys -/

/-- `json.Marshal` of a `*types.Version`: `null` for `nil`, otherwise the fields that are not
zero (`omitempty`). -/
def versionText : Option Version → String
  | none => "null"
  | some v =>
    "\x7b" ++ ",".intercalate ((if v.blockNum = 0 then [] else ["\"block_num\":" ++ toString v.blockNum]) ++
      (if v.txNum = 0 then [] else ["\"tx_num\":" ++ toString v.txNum])) ++ "\x7d"

/-- `json.Marshal` of a `TxIDLocation`. -/
def locationText (loc : TxIDLocation) : String :=
  "\x7b\"block_num\":" ++ toString loc.blockNum ++ ",\"tx_index\":" ++ toString loc.txIndex ++ "\x7d"

/-- `separator`. -/
def separator : String := "$"

/-- `constructCompositeKey`. -/
def constructCompositeKey (dbName key : String) : String := dbName ++ separator ++ key

/-- `strings.Split(s, separator)`: the pieces of `s` between the `$`s (the separator is one
character). -/
def splitSeparator (s : String) : List String := (s.toList.splitOn '$').map String.ofList

/-- `splitCompositeKey`: the first two pieces of the key; Go panics on `strs[1]` when there is no
`$`. -/
def splitCompositeKey (dbNameKey : String) : Except String (String × String) :=
  match splitSeparator dbNameKey with
  | dbName :: key :: _ => .ok (dbName, key)
  | strs => .error (indexOutOfRange 1 strs.length)

/-- The part of a key before its first `$`. -/
def firstPiece (key : String) : String := String.ofList (key.toList.takeWhile (· != '$'))

/-! ### Commit -/

/-- `getValueVertex`: the value written to `key` of `dbName` at `version`, if any. -/
def getValueVertex (g : Graph) (dbName key : String) (version : Option Version) : Option String :=
  (g.out (constructCompositeKey dbName key) (versionText version)).head?

/-- The version of a value, which Go dereferences without a check. -/
def versionOf (v : ValueWithMetadata) : Except String Version :=
  match v.metadata with
  | some ⟨some version, _⟩ => .ok version
  | _ => .error runtimeNilDereference

section Codec

variable (json : TextCodec KVWithMetadata)

/-- `vertexToValue`. -/
def vertexToValue (qv : String) : Except String ValueWithMetadata := do
  let kv ← json.Unmarshal qv
  pure ⟨kv.value, kv.metadata⟩

/-- `verticesToValues`. -/
def verticesToValues (qvs : List String) : Except String (List ValueWithMetadata) :=
  qvs.mapM (vertexToValue json)

/-- `getDeletedValuesWithoutLock`: each value of the key, once for every edge that deletes it
(`Out().Tag(..).In(DELETES).Back(..)`). -/
def getDeletedValuesWithoutLock (g : Graph) (dbName key : String) :
    Except String (List ValueWithMetadata) :=
  verticesToValues json ((g.outAll (constructCompositeKey dbName key)).flatMap fun v =>
    (g.inP v DELETES).map fun _ => v)

/-- `getLastDeletedVersion`: the version of the deleted value of the highest block, the last
one of that block in the order listed; `nil` when the block is `0`. -/
def getLastDeletedVersion (g : Graph) (dbName key : String) : Except String (Option Version) := do
  let valuesWithMetadata ← (getDeletedValuesWithoutLock json g dbName key).mapError
    fun err => "error finding the last deleted version: " ++ err
  let lastVer ← valuesWithMetadata.foldlM (fun (lastVer : Version) val => do
    let version ← versionOf val
    if lastVer.blockNum > version.blockNum then pure lastVer else pure ⟨version.blockNum, version.txNum⟩)
    ⟨0, 0⟩
  if lastVer.blockNum = 0 then pure none else pure (some lastVer)

/-- `addReads`: an edge from the transaction to each value it read. -/
def addReads (g : Graph) (tx : TxDataForProvenance) : List (Quad String) :=
  tx.reads.filterMap fun read =>
    (getValueVertex g tx.dbName read.key read.version).map fun value => ⟨tx.txID, READS, value⟩

/-- One write of `addWrites`: the edges from the composite key and from the transaction to the
new value and, when the key had a value before (in the state, or deleted), the edges between
the two values. -/
def addWrite (g : Graph) (tx : TxDataForProvenance) (write : KVWithMetadata) :
    Except String (List (Quad String)) := do
  let actualKey := write.key
  let write := { write with key := constructCompositeKey tx.dbName write.key }
  let newValue := json.Marshal write
  let newVersion ← match write.metadata with
    | none => throw runtimeNilDereference
    | some metadata => pure (versionText metadata.version)
  let written : List (Quad String) := [⟨write.key, newVersion, newValue⟩, ⟨tx.txID, WRITES, newValue⟩]
  let oldVersion ← match tx.oldVersionOfWrites.lookup actualKey with
    | some oldVersion => pure (some oldVersion)
    | none => do
      let lastVer ← getLastDeletedVersion json g tx.dbName actualKey
      pure (lastVer.map some)
  match oldVersion with
  | none => pure written
  | some oldVersion =>
    match getValueVertex g tx.dbName actualKey oldVersion with
    | none => throw ("error while finding the previous version of the key[" ++ write.key ++ "]")
    | some oldValue => pure (written ++ [⟨newValue, PREVIOUS, oldValue⟩, ⟨oldValue, NEXT, newValue⟩])

/-- `addWrites`. -/
def addWrites (g : Graph) (tx : TxDataForProvenance) : Except String (List (Quad String)) := do
  let quads ← tx.writes.mapM (addWrite json g tx)
  pure quads.flatten

/-- `addDeletes`: an edge from the transaction to each value it deleted. -/
def addDeletes (g : Graph) (tx : TxDataForProvenance) : List (Quad String) :=
  tx.deletes.filterMap fun d =>
    (getValueVertex g tx.dbName d.1 d.2).map fun value => ⟨tx.txID, DELETES, value⟩

/-- The edges of the `txNum`-th transaction of block `blockNum`, in the order the loop of
`Commit` writes them. -/
def txQuads (g : Graph) (blockNum : UInt64) (txNum : Nat) (tx : TxDataForProvenance) :
    Except String (List (Quad String)) := do
  let includes : Quad String := ⟨locationText ⟨blockNum, txNum⟩, INCLUDES, tx.txID⟩
  if !tx.isValid then return [includes]
  let writes ← addWrites json g tx
  pure (includes :: ⟨tx.userID, SUBMITTED, tx.txID⟩ :: (addReads g tx ++ writes ++ addDeletes g tx))

/-- `Commit`: the edges of every transaction of the block, written as one batch. -/
def Commit (g : Graph) (blockNum : UInt64) (txsData : List TxDataForProvenance) : Except String Graph := do
  let quads ← txsData.zipIdx.mapM fun e => txQuads json g blockNum e.2 e.1
  pure (g.addQuads quads.flatten)

/-! ### Queries -/

/-- `GetValues`: the values at the end of every edge from the composite key. -/
def GetValues (g : Graph) (dbName key : String) : Except String (List ValueWithMetadata) :=
  verticesToValues json (g.outAll (constructCompositeKey dbName key))

/-- `getValuesRecursively`: the values reached from the value at `version` along `predicate`. -/
def getValuesRecursively (g : Graph) (dbName key : String) (version : Option Version)
    (predicate : String) (limit : Int) : Except String (List ValueWithMetadata) :=
  match getValueVertex g dbName key version with
  | none => pure []
  | some valueVertex =>
    let depth := if limit < 0 then g.quads.length else limit.toNat
    verticesToValues json (g.followRecursive predicate depth [valueVertex] [])

/-- `GetPreviousValues`. -/
def GetPreviousValues (g : Graph) (dbName key : String) (version : Option Version) (limit : Int) :
    Except String (List ValueWithMetadata) :=
  getValuesRecursively json g dbName key version PREVIOUS limit

/-- `GetNextValues`. -/
def GetNextValues (g : Graph) (dbName key : String) (version : Option Version) (limit : Int) :
    Except String (List ValueWithMetadata) :=
  getValuesRecursively json g dbName key version NEXT limit

/-- `GetValueAt`. -/
def GetValueAt (g : Graph) (dbName key : String) (version : Option Version) :
    Except String (Option ValueWithMetadata) :=
  match getValueVertex g dbName key version with
  | none => pure none
  | some valueVertex => some <$> vertexToValue json valueVertex

/-- `GetDeletedValues`. -/
def GetDeletedValues (g : Graph) (dbName key : String) : Except String (List ValueWithMetadata) :=
  getDeletedValuesWithoutLock json g dbName key

end Codec

/-- `GetTxIDsSubmittedByUser`. -/
def GetTxIDsSubmittedByUser (g : Graph) (userID : String) : List String := g.out userID SUBMITTED

/-- A Go `map[string]uint32` of counts, its entries in the order they were made. -/
def countVertices (vertices : List String) : List (String × UInt32) :=
  vertices.foldl (fun userIDs v =>
    if userIDs.any (·.1 == v) then userIDs.map fun e => if e.1 = v then (e.1, e.2 + 1) else e
    else userIDs ++ [(v, 1)]) []

/-- `GetReaders`: the users whose transactions read a value of the key, with how often. -/
def GetReaders (g : Graph) (dbName key : String) : List (String × UInt32) :=
  countVertices ((g.outAll (constructCompositeKey dbName key)).flatMap fun v =>
    (g.inP v READS).flatMap fun txID => g.inP txID SUBMITTED)

/-- `GetWriters`: the users whose transactions wrote a value of the key, with how often. -/
def GetWriters (g : Graph) (dbName key : String) : List (String × UInt32) :=
  countVertices ((g.outAll (constructCompositeKey dbName key)).flatMap fun v =>
    (g.inP v WRITES).flatMap fun txID => g.inP txID SUBMITTED)

/-- A Go `map[string]*types.KVsWithMetadata`, its entries in the order they were made. -/
abbrev DBsKVs := List (String × List KVWithMetadata)

/-- `m[db].KVs = append(m[db].KVs, kvs...)`, making the entry when there is none. -/
def DBsKVs.append (m : DBsKVs) (db : String) (kvs : List KVWithMetadata) : DBsKVs :=
  if m.any (·.1 == db) then m.map fun e => if e.1 = db then (e.1, e.2 ++ kvs) else e
  else m ++ [(db, kvs)]

section Codec

variable (json : TextCodec KVWithMetadata)

/-- One vertex of `verticesToKVs`: the value, under the database its composite key names, with
the key split off. -/
def addVertexKV (DBsKV : DBsKVs) (qv : String) : Except String DBsKVs := do
  let kv ← json.Unmarshal qv
  let (dbName, key) ← splitCompositeKey kv.key
  pure (DBsKV.append dbName [{ kv with key := key }])

/-- `verticesToKVs`: the values, by the database their composite key names. -/
def verticesToKVs (qvs : List String) : Except String DBsKVs :=
  qvs.foldlM (addVertexKV json) []

/-- `outEdgesFrom`: the values at the end of the edges labelled `predicate` from each vertex,
by database. -/
def outEdgesFrom (g : Graph) (verticies : List String) (predicate : String) : Except String DBsKVs :=
  verticies.foldlM (fun values vertex => do
    let DBsKV ← verticesToKVs json (g.out vertex predicate)
    pure (DBsKV.foldl (fun values e => values.append e.1 e.2) values)) []

/-- `GetValuesReadByUser`. -/
def GetValuesReadByUser (g : Graph) (userID : String) : Except String DBsKVs :=
  outEdgesFrom json g (GetTxIDsSubmittedByUser g userID) READS

/-- `GetValuesWrittenByUser`. -/
def GetValuesWrittenByUser (g : Graph) (userID : String) : Except String DBsKVs :=
  outEdgesFrom json g (GetTxIDsSubmittedByUser g userID) WRITES

/-- `GetValuesDeletedByUser`. -/
def GetValuesDeletedByUser (g : Graph) (userID : String) : Except String DBsKVs :=
  outEdgesFrom json g (GetTxIDsSubmittedByUser g userID) DELETES

/-- The order of `sort.Slice` in `GetMostRecentValueAtOrBelow`: the later version first. -/
def laterVersion (a b : Version) : Bool :=
  a.blockNum > b.blockNum || (a.blockNum == b.blockNum && a.txNum > b.txNum)

/-- The test of the loop of `GetMostRecentValueAtOrBelow`: `valVersion` is at or below
`version`. -/
def atOrBelow (valVersion version : Version) : Bool :=
  if valVersion.blockNum > version.blockNum then false
  else (valVersion.blockNum == version.blockNum && valVersion.txNum ≤ version.txNum) ||
    valVersion.blockNum < version.blockNum

/-- `GetMostRecentValueAtOrBelow`: the values of the key, the later version first, and the first
of them at or below `version`. -/
def GetMostRecentValueAtOrBelow (g : Graph) (dbName key : String) (version : Version) :
    Except String (Option ValueWithMetadata) := do
  let values ← GetValues json g dbName key
  if values.length = 0 then return none
  let versioned ← values.mapM fun v => do pure (← versionOf v, v)
  let sorted := versioned.insertionSort fun a b => laterVersion b.1 a.1 = false
  pure ((sorted.find? fun e => atOrBelow e.1 version).map Prod.snd)

end Codec

end Orion.Provenance
