import Orion.StateIndex.Consistency

/-!
# JSON queries over the state index (`internal/queryexecutor`)

`ExecuteQuery` reads a selector, `{"selector": {...}}`, whose conditions name indexed attributes
and compare them with `$eq`, `$neq`, `$gt`, `$gte`, `$lt` and `$lte`, combined by `$and`, `$or`
or, by default, `$and`. `validateAndDisectConditions` checks each attribute against the index
definition and turns each value into the form index entries hold (`EncodeInt64` for a number).
For each attribute `createQueryPlan` gives a start and an end entry whose texts bound the index
entries the conditions select, and values to skip for `$neq`; `execute` scans the index database
between the two texts in leveldb's order, seeking past the entries of each skipped value, and
collects the keys the entries name. `executeAND` intersects the attributes' keys, `executeOR`
joins them.

Leveldb orders keys by their bytes, here their UTF-8 encodings (`bytesLt`). A snapshot is
modelled by its databases' entries, finitely many, each key once; the executor's goroutines run
one after another, in the map's order, and the context is never cancelled.

`QueryHolds` is the meaning the queries are meant to have: a key is selected when an index entry
of its value satisfies the conditions on the entry's attribute, strings compared by their bytes,
numbers as integers, `false` before `true`. The run after it is a key the scan misses: an entry's
text quotes its value, and a quote (byte `0x22`) that closes a value sorts after a space, so the
text of `"a b"` sorts before the text that bounds the values above `"a"`.
-/

namespace Orion.QueryExecutor

open Orion.State Orion.Types Orion.WorldState Orion.StateIndex GoJson

/-! ### The snapshot -/

/-- Leveldb's order on keys: their UTF-8 encodings compared byte by byte. -/
def bytesLt (a b : String) : Bool := decide (a.toUTF8.toList < b.toUTF8.toList)

/-- A snapshot of the world state (`worldstate.DBsSnapshot`): each database by name, with its
entries. -/
structure DBsSnapshot where
  dbs : List (String × List (String × ValueWithMetadata))

namespace DBsSnapshot

/-- The snapshot as a world state, for the readers it shares with one. -/
def levelDB (s : DBsSnapshot) : LevelDB :=
  ⟨fun name => (s.dbs.lookup name).map fun kvs key => kvs.lookup key, none⟩

/-- `GetIndexDefinition`. -/
def GetIndexDefinition (s : DBsSnapshot) (dbName : String) : Except String (Bytes × Option Metadata) :=
  s.levelDB.GetIndexDefinition dbName

/-- `GetIterator`: the entries from `startKey` on and below `endKey`, in leveldb's order. An
empty `endKey` sets no bound (`r.Limit = nil`); an empty `startKey` is below every key anyway. -/
def GetIterator (s : DBsSnapshot) (dbName startKey endKey : String) :
    Except String (List (String × ValueWithMetadata)) :=
  match s.dbs.lookup dbName with
  | none => .error ("database " ++ dbName ++ " does not exist")
  | some kvs =>
    let inRange := kvs.filter fun kv => !bytesLt kv.1 startKey && (endKey == "" || bytesLt kv.1 endKey)
    .ok (inRange.insertionSort fun a b => !bytesLt b.1 a.1)

end DBsSnapshot

/-! ### The conditions (`executor.go`) -/

/-- `constants.QueryFieldSelector` and the operators. -/
def QueryFieldSelector : String := "selector"
def QueryOpAnd : String := "$and"
def QueryOpOr : String := "$or"
def QueryOpEqual : String := "$eq"
def QueryOpNotEqual : String := "$neq"
def QueryOpGreaterThan : String := "$gt"
def QueryOpLesserThan : String := "$lt"
def QueryOpGreaterThanOrEqual : String := "$gte"
def QueryOpLesserThanOrEqual : String := "$lte"

/-- The value of a condition as the planner takes it: one value, or the values `$neq` skips. -/
inductive InternalValue where
  | value (v : IndexValue)
  | strings (s : List String)
  | bools (b : List Bool)
  deriving DecidableEq, Repr

/-- `attributeTypeAndConditions`: an attribute's type and its conditions by operator. -/
structure AttributeTypeAndConditions where
  valueType : IndexAttributeType
  conditions : List (String × InternalValue)
  deriving DecidableEq, Repr

/-- `attributeToConditions`. -/
abbrev AttributeToConditions := List (String × AttributeTypeAndConditions)

/-- `m[k] = v` on a Go map kept as a list. -/
def setEntry {α : Type} (m : List (String × α)) (k : String) (v : α) : List (String × α) :=
  if m.any (·.1 == k) then m.map fun e => if e.1 = k then (k, v) else e else m ++ [(k, v)]

/-- `strings.ToLower(t.String())`. -/
def typeName : IndexAttributeType → String
  | .NUMBER => "number"
  | .STRING => "string"
  | .BOOLEAN => "boolean"

/-- The error of `json.Number.Int64` on a number that is not a 64-bit integer. -/
def parseIntError (text : String) : String :=
  let digits := match text.toList with
    | '-' :: ds => ds
    | ds => ds
  if !digits.isEmpty && digits.all Char.isDigit then
    "strconv.ParseInt: parsing " ++ quote text ++ ": value out of range"
  else "strconv.ParseInt: parsing " ++ quote text ++ ": invalid syntax"

/-- `isValidLogicalOperator`. -/
def isValidLogicalOperator (opt : String) : Bool :=
  opt == QueryOpEqual || opt == QueryOpNotEqual || opt == QueryOpGreaterThan ||
    opt == QueryOpLesserThan || opt == QueryOpGreaterThanOrEqual || opt == QueryOpLesserThanOrEqual

/-- The error of a value whose JSON type is not the attribute's. -/
def typeMismatch (t : IndexAttributeType) (provided : String) : String :=
  "the actual type [" ++ typeName t ++ "] does not match the provided type [" ++ provided ++ "]"

/-- `constructInternalValueForNonSliceType`. A `null` makes Go call `Kind` on a `nil` type. -/
def constructInternalValueForNonSliceType (v : Value) (t : IndexAttributeType) :
    Except String InternalValue :=
  match v with
  | .number text =>
    if t = .NUMBER then
      match parseInt64 text with
      | some n => .ok (.value (.string (EncodeInt64 n)))
      | none => .error (parseIntError text)
    else .error (typeMismatch t "number")
  | .string s => if t = .STRING then .ok (.value (.string s)) else .error (typeMismatch t "string")
  | .bool b => if t = .BOOLEAN then .ok (.value (.bool b)) else .error (typeMismatch t "bool")
  | .array _ => .error (typeMismatch t "slice")
  | .object _ => .error (typeMismatch t "map")
  | .null => .error "panic: runtime error: invalid memory address or nil pointer dereference"

/-- One item of a `$neq` array, added to the strings or the booleans collected so far. -/
def addSliceItem (t : IndexAttributeType) (acc : List String × List Bool) (item : Value) :
    Except String (List String × List Bool) :=
  match t, item with
  | .STRING, .string i => .ok (acc.1 ++ [i], acc.2)
  | .BOOLEAN, .bool i => .ok (acc.1, acc.2 ++ [i])
  | .NUMBER, .number text =>
    match parseInt64 text with
    | some n => .ok (acc.1 ++ [EncodeInt64 n], acc.2)
    | none => .error ("the actual type [" ++ typeName t ++ "] does not match the provided type")
  | _, _ => .error ("the actual type [" ++ typeName t ++ "] does not match the provided type")

/-- `constructInternalValueForSliceType`: the values of a `$neq` array, `nil` for an empty one. -/
def constructInternalValueForSliceType (v : Value) (t : IndexAttributeType) :
    Except String (Option InternalValue) :=
  match v with
  | .array items => do
    let (s, b) ← items.foldlM (addSliceItem t) ([], [])
    if !s.isEmpty then return some (.strings s)
    else if !b.isEmpty then return some (.bools b)
    return none
  | _ => .error "query syntex error: array should be used for $neq condition"

/-- `validateAttrConditions`. -/
def validateAttrConditions (conds : List (String × InternalValue)) : Except String Unit := do
  let has (op : String) := (conds.lookup op).isSome
  if has QueryOpEqual && conds.length > 1 then
    throw ("with [" ++ QueryOpEqual ++ "] condition, no other condition should be provided")
  if has QueryOpGreaterThan && has QueryOpGreaterThanOrEqual then
    throw ("use either [" ++ QueryOpGreaterThan ++ "] or [" ++ QueryOpGreaterThanOrEqual ++
      "] but not both")
  if has QueryOpLesserThan && has QueryOpLesserThanOrEqual then
    throw ("use either [" ++ QueryOpLesserThan ++ "] or [" ++ QueryOpLesserThanOrEqual ++
      "] but not both")

/-- The loop of `validateAndDisectConditions` over one attribute's operators. -/
def disectOperator (attr : String) (attrType : IndexAttributeType)
    (conds : List (String × InternalValue)) (oprV : String × Value) :
    Except String (List (String × InternalValue)) := do
  let (opr, v) := oprV
  if !isValidLogicalOperator opr then
    throw ("invalid logical operator [" ++ opr ++ "] provided for the attribute [" ++ attr ++ "]")
  let internalVal ←
    if opr = QueryOpNotEqual then
      (constructInternalValueForSliceType v attrType).mapError fun e =>
        "attribute [" ++ attr ++ "] is indexed but incorrect value type provided in the query: " ++ e
    else
      (some <$> constructInternalValueForNonSliceType v attrType).mapError fun e =>
        "attribute [" ++ attr ++
          "] is indexed but the value type provided in the query does not match the actual indexed type: " ++ e
  match internalVal with
  | some iv => pure (setEntry conds opr iv)
  | none => pure conds

/-- One attribute of `validateAndDisectConditions`. -/
def disectAttribute (indexDef : IndexDef) (attrC : String × Value) :
    Except String (String × AttributeTypeAndConditions) := do
  let (attr, c) := attrC
  let some attrType := indexDef.lookup attr
    | throw ("attribute [" ++ attr ++ "] given in the query condition is not indexed")
  let .object cond := c
    | throw ("query syntax error near the attribute [" ++ attr ++ "]")
  if cond.isEmpty then
    throw ("no condition provided for the attribute [" ++ attr ++
      "]. All given attributes must have a condition")
  let conds ← cond.foldlM (disectOperator attr attrType) []
  (validateAttrConditions conds).mapError fun e => "query syntax error near attribute [" ++ attr ++ "]: " ++ e
  pure (attr, ⟨attrType, conds⟩)

/-- `validateAndDisectConditions`. -/
def validateAndDisectConditions (s : DBsSnapshot) (dbName : String) (conditions : List (String × Value)) :
    Except String AttributeToConditions := do
  let (marshledIndexDef, _) ← s.GetIndexDefinition dbName
  if marshledIndexDef = [] then throw ("no index has been defined on the database " ++ dbName)
  let indexDef ← unmarshalIndexDef marshledIndexDef
  conditions.mapM (disectAttribute indexDef)

/-! ### The plan (`range_query_planner.go`) -/

/-- `rangeQueryPlan`: the entries whose texts bound the scan, and the entry to seek to past
each skipped value. -/
structure RangeQueryPlan where
  startKey : IndexEntry
  endKey : IndexEntry
  excludeKeys : List (IndexValue × IndexEntry)
  deriving Repr

/-- The entries of `$neq`: the end of each value's entries, `KeyPosition = Ending`. -/
def excludeKeysOf (attr : String) (t : IndexAttributeType) (v : InternalValue) :
    List (IndexValue × IndexEntry) :=
  let entry (value : IndexValue) : IndexEntry :=
    { attr := attr, type := t, valuePosition := Existing, value := value, keyPosition := Ending }
  let values : List IndexValue := match t, v with
    | .BOOLEAN, .bools items => items.map .bool
    | .STRING, .strings items | .NUMBER, .strings items => items.map .string
    -- the validator gives `$neq` the slice of its attribute's type
    | _, _ => []
  values.foldl (fun m value => if m.any (·.1 == value) then m else m ++ [(value, entry value)]) []

/-- `setPlanForSingleCondition`. -/
def setPlanForSingleCondition (c : String) (v : IndexValue) (p : RangeQueryPlan) : RangeQueryPlan :=
  if c = QueryOpEqual then
    { p with startKey := { p.startKey with valuePosition := Existing, value := v, keyPosition := Beginning }
             endKey := { p.endKey with valuePosition := Existing, value := v, keyPosition := Ending } }
  else if c = QueryOpGreaterThan then
    { p with startKey := { p.startKey with valuePosition := Existing, value := v, keyPosition := Ending }
             endKey := { p.endKey with valuePosition := Ending } }
  else if c = QueryOpGreaterThanOrEqual then
    { p with startKey := { p.startKey with valuePosition := Existing, value := v, keyPosition := Beginning }
             endKey := { p.endKey with valuePosition := Ending } }
  else if c = QueryOpLesserThan then
    { p with startKey := { p.startKey with valuePosition := Beginning }
             endKey := { p.endKey with valuePosition := Existing, value := v, keyPosition := Beginning } }
  else if c = QueryOpLesserThanOrEqual then
    { p with startKey := { p.startKey with valuePosition := Beginning }
             endKey := { p.endKey with valuePosition := Existing, value := v, keyPosition := Ending } }
  else p

/-- One condition of `setPlanForMultipleConditions`. -/
def setPlanForCondition (p : RangeQueryPlan) (cv : String × IndexValue) : RangeQueryPlan :=
  let (c, v) := cv
  let p := { p with startKey := { p.startKey with valuePosition := Existing }
                    endKey := { p.endKey with valuePosition := Existing } }
  if c = QueryOpGreaterThan then
    { p with startKey := { p.startKey with value := v, keyPosition := Ending } }
  else if c = QueryOpGreaterThanOrEqual then
    { p with startKey := { p.startKey with value := v, keyPosition := Beginning } }
  else if c = QueryOpLesserThan then
    { p with endKey := { p.endKey with value := v, keyPosition := Beginning } }
  else if c = QueryOpLesserThanOrEqual then
    { p with endKey := { p.endKey with value := v, keyPosition := Ending } }
  else p

/-- The value a condition other than `$neq` holds. -/
def InternalValue.single : InternalValue → IndexValue
  | .value v => v
  | _ => .nil

/-- `createQueryPlan`: `$neq` becomes the values to skip; the other conditions bound the scan. -/
def createQueryPlan (attr : String) (conds : AttributeTypeAndConditions) : RangeQueryPlan :=
  let excludeKeys := match conds.conditions.lookup QueryOpNotEqual with
    | some v => excludeKeysOf attr conds.valueType v
    | none => []
  let others := (conds.conditions.filter (·.1 != QueryOpNotEqual)).map fun (c, v) => (c, v.single)
  let p : RangeQueryPlan :=
    { startKey := { attr := attr, type := conds.valueType }
      endKey := { attr := attr, type := conds.valueType }
      excludeKeys := [] }
  if !excludeKeys.isEmpty && others.isEmpty then
    -- a full scan of the attribute's entries, seeking past the skipped values
    { p with startKey := { p.startKey with valuePosition := Beginning }
             endKey := { p.endKey with valuePosition := Ending }
             excludeKeys := excludeKeys }
  else
    let p := match others with
      | [(c, v)] => setPlanForSingleCondition c v p
      | _ => others.foldl setPlanForCondition p
    { p with excludeKeys := excludeKeys }

/-! ### The scan (`execute_conditions.go`) -/

/-- `Seek`: the keys of the range from the first one not below `key` on. -/
def seek (all : List String) (key : String) : List String := all.dropWhile fun k => bytesLt k key

/-- The inner loop of `execute` at the entry `entry` the iterator is on: while the entry's value is
skipped, seek to the end of that value's entries, drop the value, and load the entry there. The
key to collect, if any, the values still skipped, and the keys after the iterator. A failed seek
leaves the iterator exhausted. Each round drops a value, so `fuel` one more than their number
suffices. -/
def skipExcluded (all : List String) :
    Nat → List (IndexValue × IndexEntry) → IndexValue × String → List String →
      Except String (Option String × List (IndexValue × IndexEntry) × List String)
  | 0, _, _, _ => .error "more seeks than skipped values"
  | fuel + 1, excludeKeys, (value, key), rest =>
    match excludeKeys.lookup value with
    | none => .ok (some key, excludeKeys, rest)
    | some seekKey =>
      match seek all seekKey.String with
      | [] => .ok (none, excludeKeys, [])
      | k :: rest' => do
        let entry ← IndexEntry.Load k
        skipExcluded all fuel (excludeKeys.filter (·.1 != value)) entry rest'

/-- The outer loop of `execute` over the keys `Next` returns, `rest`, collecting the keys the
entries name in `keys`. -/
def scanRange (all : List String) :
    Nat → List (IndexValue × IndexEntry) → List String → List String → Except String (List String)
  | 0, _, _, _ => .error "the scan did not end"
  | _ + 1, _, [], keys => .ok keys
  | fuel + 1, excludeKeys, k :: rest, keys => do
    let entry ← IndexEntry.Load k
    if excludeKeys.isEmpty then scanRange all fuel excludeKeys rest (keys.insert entry.2)
    else
      let (added, excludeKeys, rest) ← skipExcluded all (excludeKeys.length + 1) excludeKeys entry rest
      scanRange all fuel excludeKeys rest (match added with | some key => keys.insert key | none => keys)

/-- `execute`: the keys of the entries the plan of an attribute's conditions selects. Between two
seeks the scan moves forward, and there is at most one seek per skipped value. -/
def execute (s : DBsSnapshot) (dbName attr : String) (conds : AttributeTypeAndConditions) :
    Except String (List String) := do
  let plan := createQueryPlan attr conds
  let all := (← s.GetIterator (IndexDB dbName) plan.startKey.String plan.endKey.String).map Prod.fst
  scanRange all ((plan.excludeKeys.length + 1) * (all.length + 1) + 1) plan.excludeKeys all []

/-- `executeAllConditions`: each attribute's keys. -/
def executeAllConditions (s : DBsSnapshot) (dbName : String) (attrsConds : AttributeToConditions) :
    Except String (List (String × List String)) :=
  attrsConds.mapM fun (attr, conds) => do
    let keys ← execute s dbName attr conds
    pure (attr, keys)

/-- `intersection`: the keys of the attribute with fewest keys that every attribute has. -/
def intersection (attrToKeys : List (String × List String)) : List String :=
  let smallest := attrToKeys.foldl (fun (acc : Option (String × List String)) (attr, keys) =>
    match acc with
    | none => some (attr, keys)
    | some (_, minKeys) => if minKeys.length > keys.length then some (attr, keys) else acc) none
  match smallest with
  | none => []
  | some (minKeysAttr, minKeys) =>
    minKeys.filter fun k => attrToKeys.all fun (attr, keys) => attr == minKeysAttr || keys.contains k

/-- `union`. -/
def union (attrToKeys : List (String × List String)) : List String :=
  attrToKeys.foldl (fun acc (_, keys) => keys.foldl (fun acc k => acc.insert k) acc) []

/-- `executeAND`. -/
def executeAND (s : DBsSnapshot) (dbName : String) (attrsConds : AttributeToConditions) :
    Except String (List String) :=
  intersection <$> executeAllConditions s dbName attrsConds

/-- `executeOR`. -/
def executeOR (s : DBsSnapshot) (dbName : String) (attrsConds : AttributeToConditions) :
    Except String (List String) :=
  union <$> executeAllConditions s dbName attrsConds

/-- `ExecuteQuery`: the keys whose values the selector selects. -/
def ExecuteQuery (s : DBsSnapshot) (dbName : String) (selector : Bytes) : Except String (List String) := do
  let query ← match decode selector with
    | some (.object members) => pure members
    | some .null => pure []
    | some _ => throw "error decoding the query: json: cannot unmarshal into Go value of type map[string]interface {}"
    | none => throw "error decoding the query: invalid character in the query"
  let some sel := query.lookup QueryFieldSelector
    | throw "selector field is missing in the query"
  let .object query := sel
    | throw ("query syntax error near " ++ QueryFieldSelector)
  if query.isEmpty then throw "query conditions cannot be empty"
  let and := (query.lookup QueryOpAnd).isSome
  let or := (query.lookup QueryOpOr).isSome
  if !and && !or then
    -- the default is `$and`
    let disectedConditions ← validateAndDisectConditions s dbName query
    executeAND s dbName disectedConditions
  else if and && or then throw "there must be a single upper level combination operator"
  else if and then
    let some (.object c) := query.lookup QueryOpAnd | throw "query syntax error near $and"
    let disectedConditions ← validateAndDisectConditions s dbName c
    executeAND s dbName disectedConditions
  else
    let some (.object c) := query.lookup QueryOpOr | throw "query syntax error near $or"
    let disectedConditions ← validateAndDisectConditions s dbName c
    executeOR s dbName disectedConditions

/-! ### What a query means -/

/-- The order queries compare values in: strings by their bytes, numbers as the integers their
encodings stand for, `false` before `true`. -/
def ValueLt : IndexAttributeType → IndexValue → IndexValue → Prop
  | .STRING, .string a, .string b => a.toUTF8.toList < b.toUTF8.toList
  | .NUMBER, .string a, .string b => ∃ m n, a = EncodeInt64 m ∧ b = EncodeInt64 n ∧ m < n
  | .BOOLEAN, .bool a, .bool b => a = false ∧ b = true
  | _, _, _ => False

/-- A condition, by its operator, holds of a value. -/
def CondHolds (t : IndexAttributeType) : String × InternalValue → IndexValue → Prop
  | (op, .value v), x =>
    (op = QueryOpEqual ∧ x = v) ∨ (op = QueryOpGreaterThan ∧ ValueLt t v x) ∨
      (op = QueryOpGreaterThanOrEqual ∧ (x = v ∨ ValueLt t v x)) ∨
      (op = QueryOpLesserThan ∧ ValueLt t x v) ∨ (op = QueryOpLesserThanOrEqual ∧ (x = v ∨ ValueLt t x v))
  | (_, .strings vs), x => ∀ s ∈ vs, x ≠ .string s
  | (_, .bools vs), x => ∀ b ∈ vs, x ≠ .bool b

/-- An attribute's conditions hold of a key: one entry of the key's value for the attribute has
a value all of them hold of. -/
def AttrHolds (s : DBsSnapshot) (dbName : String) (index : IndexDef) (key : String)
    (ac : String × AttributeTypeAndConditions) : Prop :=
  ∃ v, s.levelDB.entry dbName key = some v ∧
    ∃ e ∈ decodeJSONAndConstructIndexEntries key v.value index, e.attr = ac.1 ∧
      ∀ c ∈ ac.2.conditions, CondHolds ac.2.valueType c e.value

/-- A query holds of a key: every attribute's conditions (`$and`) or one attribute's (`$or`). -/
def QueryHolds (s : DBsSnapshot) (dbName : String) (index : IndexDef) (isOr : Bool)
    (conds : AttributeToConditions) (key : String) : Prop :=
  if isOr then ∃ ac ∈ conds, AttrHolds s dbName index key ac
  else ∀ ac ∈ conds, AttrHolds s dbName index key ac

theorem lookup_eq_some_iff_mem {β : Type} {l : List (String × β)} (h : (l.map Prod.fst).Nodup)
    {k : String} {v : β} : l.lookup k = some v ↔ (k, v) ∈ l := by
  induction l with
  | nil => simp
  | cons p l ih =>
    obtain ⟨k', v'⟩ := p
    simp only [List.map_cons, List.nodup_cons, List.mem_map] at h
    by_cases hk : k = k'
    · subst hk
      have hnot : (k, v) ∉ l := fun hm => h.1 ⟨(k, v), hm, rfl⟩
      simp [hnot, eq_comm]
    · have hne : (k == k') = false := by simpa using hk
      simp [List.lookup_cons, hne, hk, ih h.2]

/-- A snapshot's index database is consistent with a database whose keys are given once when
its keys are the entries of the database's values. -/
theorem indexConsistent_of_keys {s : DBsSnapshot} {dbName : String} {index : IndexDef}
    {kvs idx : List (String × ValueWithMetadata)} (hdb : s.dbs.lookup dbName = some kvs)
    (hidx : s.dbs.lookup (IndexDB dbName) = some idx) (hnodup : (kvs.map Prod.fst).Nodup)
    (hkeys : ∀ entry, entry ∈ idx.map Prod.fst ↔
      entry ∈ kvs.flatMap fun kv => toStrings (decodeJSONAndConstructIndexEntries kv.1 kv.2.value index)) :
    IndexConsistent s.levelDB dbName index := by
  intro entry
  have hentry : (s.levelDB.entry (IndexDB dbName) entry).isSome ↔ entry ∈ idx.map Prod.fst := by
    simp [DBsSnapshot.levelDB, LevelDB.entry, hidx]
  rw [hentry, hkeys, List.mem_flatMap]
  constructor
  · rintro ⟨⟨key, v⟩, hmem, hs⟩
    exact ⟨key, v, by simpa [DBsSnapshot.levelDB, LevelDB.entry, hdb] using
      (lookup_eq_some_iff_mem hnodup).2 hmem, hs⟩
  · rintro ⟨key, v, hv, hs⟩
    simp only [DBsSnapshot.levelDB, LevelDB.entry, hdb, Option.map_some, Option.bind_some] at hv
    exact ⟨(key, v), (lookup_eq_some_iff_mem hnodup).1 hv, hs⟩

/-- A database `db1` indexed on the string attribute `name`, whose only key `k1` holds
`{"name":"a b"}`, and its index database with the one entry of that value. -/
def prefixSnapshot : DBsSnapshot :=
  ⟨[(DatabasesDBName, [("db1", ⟨marshalIndexDef [("name", .STRING)], none⟩)]),
    ("db1", [("k1", ⟨"\x7b\"name\":\"a b\"\x7d".toUTF8.toList, none⟩)]),
    (IndexDB "db1", [(IndexEntry.String
      ⟨"name", .STRING, Existing, .string "a b", Existing, "k1"⟩, ⟨[], none⟩)])]⟩

/-- On `prefixSnapshot`, whose index is consistent, `{"selector":{"name":{"$gt":"a"}}}` holds of
`k1`, since `"a"` is a prefix of `"a b"`, but `ExecuteQuery` returns no key: the text of the entry
of `"a b"` sorts below the start of the scan, the text of the entry that ends the value `"a"`. -/
theorem ExecuteQuery_misses_value_extending_bound :
    IndexConsistent prefixSnapshot.levelDB "db1" [("name", .STRING)] ∧
    validateAndDisectConditions prefixSnapshot "db1" [("name", .object [("$gt", .string "a")])] =
      .ok [("name", ⟨.STRING, [("$gt", .value (.string "a"))]⟩)] ∧
    QueryHolds prefixSnapshot "db1" [("name", .STRING)] false
      [("name", ⟨.STRING, [("$gt", .value (.string "a"))]⟩)] "k1" ∧
    ExecuteQuery prefixSnapshot "db1"
      "\x7b\"selector\":\x7b\"name\":\x7b\"$gt\":\"a\"\x7d\x7d\x7d".toUTF8.toList = .ok [] := by
  refine ⟨?_, by decide +kernel, ?_, by decide +kernel⟩
  · -- the index database holds exactly the entry of `k1`'s value
    have hkeys : ([(IndexEntry.String ⟨"name", .STRING, Existing, .string "a b", Existing, "k1"⟩,
          (⟨[], none⟩ : ValueWithMetadata))].map Prod.fst) =
        [("k1", (⟨"\x7b\"name\":\"a b\"\x7d".toUTF8.toList, none⟩ : ValueWithMetadata))].flatMap
          fun kv => toStrings (decodeJSONAndConstructIndexEntries kv.1 kv.2.value [("name", .STRING)]) := by
      decide +kernel
    exact indexConsistent_of_keys rfl rfl (by decide) fun _ => by rw [hkeys]
  · -- the entry of `"a b"` is above `"a"`
    have he : decodeJSONAndConstructIndexEntries "k1" "\x7b\"name\":\"a b\"\x7d".toUTF8.toList
        [("name", .STRING)] = [⟨"name", .STRING, Existing, .string "a b", Existing, "k1"⟩] := by
      decide +kernel
    intro ac hac
    simp only [List.mem_singleton] at hac
    subst hac
    refine ⟨_, rfl, _, by rw [he]; exact List.mem_singleton_self _, rfl, ?_⟩
    intro c hc
    simp only [List.mem_singleton] at hc
    subst hc
    have hlt : ValueLt .STRING (.string "a") (.string "a b") := by
      simp only [ValueLt]
      decide +kernel
    exact .inr (.inl ⟨rfl, hlt⟩)

end Orion.QueryExecutor
