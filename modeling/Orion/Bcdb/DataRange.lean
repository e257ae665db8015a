import Orion.QueryExecutor.Executor
import Orion.Lib.SortedKeys
import Orion.Lib.ByteOrder
import Mathlib.Algebra.Order.BigOperators.Group.List

/-!
# Range queries on a database (`internal/bcdb/worldstate_query_processor.go`)

`getDataRange` answers one page of a range query: after refusing system databases and users
without read access on the database, it walks the database's iterator from `startKey` to
`endKey` (`GetIterator`, leveldb's order) and collects the entries the querier may read. An
entry with an access control list is readable by the users it lists as readers or
writers; one without is readable by all. The page ends before the entry that would pass
the count limit (when `limit > 0`) or the response size limit, counted as the bytes of the
key and of the stored value; that entry's key is handed back as the next start key. An
entry over the size limit on an empty page is an error.

Go sums the sizes and counts the entries in `uint64`, and so does the model; the results are
for databases of fewer than `2 ^ 64` entries and bytes, where the counters do not wrap. Stored values
are the protobuf encodings (`codec.Marshal`) of the values of the snapshot. `GetIterator`
fails only on a missing database, where it returns a `nil` iterator, and the deferred
`itr.Release()` panics before the error is checked.

`getDataRangePages` is the client the pagination is for: it calls `getDataRange` again from
`NextStartKey` while `PendingResult` is set. `getDataRangePages_complete` says what it returns:
the readable entries of the range, in leveldb's order, each once, in pages within both limits,
after at most one call more than the database has entries.
-/

namespace Orion.Bcdb

open Orion.State Orion.Types Orion.WorldState Orion.QueryExecutor Orion.Lib

/-- `types.KVWithMetadata`. -/
structure KVWithMetadata where
  key : String
  value : Bytes
  metadata : Option Metadata
  deriving DecidableEq, Repr

/-- `types.GetDataRangeResponse`. -/
structure GetDataRangeResponse where
  kVs : List KVWithMetadata
  pendingResult : Bool
  nextStartKey : String
  deriving DecidableEq, Repr

instance : Inhabited ValueWithMetadata := ⟨⟨[], none⟩⟩

/-- What `getDataRange` reads of `worldstateQueryProcessor`: the world state, the response size
limit of its configuration, and the identity querier's `HasReadAccessOnDataDB`. -/
structure WorldstateQueryProcessor where
  db : DBsSnapshot
  responseSizeLimitInBytes : UInt64
  HasReadAccessOnDataDB : String → String → Except String Bool

/-- The check of an entry's access control list in `getDataRange`. -/
def readableBy (querierUserID : String) (v : ValueWithMetadata) : Bool :=
  match v.metadata.bind Metadata.accessControl with
  | none => true
  | some acl => lookupBool acl.readUsers querierUserID || lookupBool acl.readWriteUsers querierUserID

/-- The `ServerRestrictionError` of an entry over the size limit on an empty page. -/
def sizeLimitError (responseSizeLimitInBytes size : Nat) : String :=
  "response size limit for queries is configured as " ++ toString responseSizeLimitInBytes ++
    " bytes but a single record size itself is " ++ toString size ++
    " bytes. Increase the query response size limit at the server"

variable (codec : ProtoCodec ValueWithMetadata)

/-- The loop of `getDataRange` over the entries the iterator has left, with the page so far
`kvs` and the `uint64` counters `resultCount` and `size`. -/
def getDataRangeLoop (querierUserID : String) (limit responseSizeLimitInBytes : UInt64) :
    List (String × ValueWithMetadata) → List KVWithMetadata → UInt64 → UInt64 →
      Except String GetDataRangeResponse
  | [], kvs, _, _ => .ok ⟨kvs, false, ""⟩
  | (k, stored) :: rest, kvs, resultCount, size => do
    let value := codec.Marshal stored
    let v ← codec.Unmarshal value
    if !readableBy querierUserID v then
      getDataRangeLoop querierUserID limit responseSizeLimitInBytes rest kvs resultCount size
    else
      let resultCount := if limit > 0 then resultCount + 1 else resultCount
      if limit > 0 && resultCount > limit then pure ⟨kvs, true, k⟩
      else
        let size := size + (k.utf8ByteSize + value.length).toUInt64
        if size > responseSizeLimitInBytes then
          if kvs.length != 0 then pure ⟨kvs, true, k⟩
          else throw (sizeLimitError responseSizeLimitInBytes.toNat size.toNat)
        else
          getDataRangeLoop querierUserID limit responseSizeLimitInBytes rest
            (kvs ++ [⟨k, v.value, v.metadata⟩]) resultCount size

/-- `getDataRange`. -/
def getDataRange (q : WorldstateQueryProcessor) (dbName querierUserID startKey endKey : String)
    (limit : UInt64) : Except String GetDataRangeResponse := do
  if IsSystemDB dbName then
    throw ("no user can directly read from a system database [" ++ dbName ++ "]. " ++
      "To read from a system database, use /config, /user, /db rest endpoints instead of /data")
  let hasPerm ← q.HasReadAccessOnDataDB querierUserID dbName
  if !hasPerm then
    throw ("the user [" ++ querierUserID ++ "] has no permission to read from database [" ++
      dbName ++ "]")
  match q.db.GetIterator dbName startKey endKey with
  | .error _ => throw runtimeNilDereference
  | .ok entries =>
    getDataRangeLoop codec querierUserID limit q.responseSizeLimitInBytes entries [] 0 0

/-- The client of the pagination: `getDataRange` from `startKey`, then again from
`NextStartKey` while `PendingResult` is set, at most `fuel` times; the pages it got. -/
def getDataRangePages (q : WorldstateQueryProcessor) (dbName querierUserID endKey : String)
    (limit : UInt64) : Nat → String → Except String (List (List KVWithMetadata))
  | 0, _ => .error "the pages did not end"
  | fuel + 1, startKey => do
    let resp ← getDataRange codec q dbName querierUserID startKey endKey limit
    if resp.pendingResult then
      let rest ← getDataRangePages q dbName querierUserID endKey limit fuel resp.nextStartKey
      pure (resp.kVs :: rest)
    else pure [resp.kVs]

/-! ### One page -/

/-- The page entry of an iterator entry. -/
def toKV (e : String × ValueWithMetadata) : KVWithMetadata := ⟨e.1, e.2.value, e.2.metadata⟩

/-- The bytes an entry counts towards the response size limit: its key and its stored value. -/
def recordSize (kv : KVWithMetadata) : Nat :=
  kv.key.utf8ByteSize + (codec.Marshal ⟨kv.value, kv.metadata⟩).length

/-- The entries of `es` that `querierUserID` may read, as pages hold them. -/
def readableKVs (querierUserID : String) (es : List (String × ValueWithMetadata)) :
    List KVWithMetadata :=
  (es.filter fun e => readableBy querierUserID e.2).map toKV

/-- A page within both limits. -/
structure Bounded (limit responseSizeLimitInBytes : UInt64) (page : List KVWithMetadata) : Prop where
  length_le : limit > 0 → page.length ≤ limit.toNat
  size_le : (page.map (recordSize codec)).sum ≤ responseSizeLimitInBytes.toNat

/-- The loop's counters for the page `kvs` so far. -/
structure Accumulated (limit responseSizeLimitInBytes : UInt64) (kvs : List KVWithMetadata)
    (resultCount size : UInt64) : Prop extends Bounded codec limit responseSizeLimitInBytes kvs where
  resultCount_eq : resultCount.toNat = if limit > 0 then kvs.length else 0
  size_eq : size.toNat = (kvs.map (recordSize codec)).sum

/-- The page so far and the readable entries `rest` still to come hold fewer than `2 ^ 64`
entries and bytes, so the loop's counters do not wrap. -/
structure Room (kvs rest : List KVWithMetadata) : Prop where
  count_lt : kvs.length + rest.length < 2 ^ 64
  size_lt : (kvs.map (recordSize codec)).sum + (rest.map (recordSize codec)).sum < 2 ^ 64

/-- Where the page the loop returns ends: before the `j`-th entry of `es`, which is the next
start key if the result is pending, or at the end of `es`. A pending page is not empty. -/
structure PageEnd (querierUserID : String) (es : List (String × ValueWithMetadata))
    (kvs : List KVWithMetadata) (j : Nat) (resp : GetDataRangeResponse) : Prop where
  le_length : j ≤ es.length
  kVs_eq : resp.kVs = kvs ++ readableKVs querierUserID (es.take j)
  of_done : resp.pendingResult = false → j = es.length
  of_pending : resp.pendingResult = true →
    ∃ h : j < es.length, resp.nextStartKey = es[j].1 ∧ resp.kVs ≠ []

theorem recordSize_toKV (e : String × ValueWithMetadata) :
    recordSize codec (toKV e) = e.1.utf8ByteSize + (codec.Marshal e.2).length := rfl

theorem readableKVs_cons_of_readable {querierUserID : String} {e : String × ValueWithMetadata}
    (h : readableBy querierUserID e.2 = true) (es : List (String × ValueWithMetadata)) :
    readableKVs querierUserID (e :: es) = toKV e :: readableKVs querierUserID es := by
  simp only [readableKVs, List.filter_cons, h, if_true, List.map_cons]

theorem readableKVs_cons_of_not_readable {querierUserID : String} {e : String × ValueWithMetadata}
    (h : readableBy querierUserID e.2 = false) (es : List (String × ValueWithMetadata)) :
    readableKVs querierUserID (e :: es) = readableKVs querierUserID es := by
  simp only [readableKVs, List.filter_cons, h, Bool.false_eq_true, if_false]

variable {codec}

/-- An entry the querier may not read is passed over. -/
theorem PageEnd.skip {querierUserID : String} {e : String × ValueWithMetadata}
    {es : List (String × ValueWithMetadata)} {kvs : List KVWithMetadata} {j : Nat}
    {resp : GetDataRangeResponse} (he : readableBy querierUserID e.2 = false)
    (h : PageEnd querierUserID es kvs j resp) : PageEnd querierUserID (e :: es) kvs (j + 1) resp where
  le_length := by simpa using h.le_length
  kVs_eq := by rw [h.kVs_eq, List.take_succ_cons, readableKVs_cons_of_not_readable he]
  of_done hp := by simpa using h.of_done hp
  of_pending hp := by
    obtain ⟨hj, hkey, hne⟩ := h.of_pending hp
    exact ⟨by simpa using hj, by simpa using hkey, hne⟩

/-- A page cut at the entry `e` of the iterator. -/
theorem PageEnd.cut {querierUserID : String} {e : String × ValueWithMetadata}
    {es : List (String × ValueWithMetadata)} {kvs : List KVWithMetadata} (hne : kvs ≠ []) :
    PageEnd querierUserID (e :: es) kvs 0 ⟨kvs, true, e.1⟩ where
  le_length := Nat.zero_le _
  kVs_eq := by simp [readableKVs]
  of_done hp := Bool.noConfusion hp
  of_pending _ := ⟨by simp, rfl, hne⟩

/-- A readable entry added to the page. -/
theorem PageEnd.add {querierUserID : String} {e : String × ValueWithMetadata}
    {es : List (String × ValueWithMetadata)} {kvs : List KVWithMetadata} {j : Nat}
    {resp : GetDataRangeResponse} (he : readableBy querierUserID e.2 = true)
    (h : PageEnd querierUserID es (kvs ++ [toKV e]) j resp) :
    PageEnd querierUserID (e :: es) kvs (j + 1) resp where
  le_length := by simpa using h.le_length
  kVs_eq := by
    rw [h.kVs_eq, List.take_succ_cons, readableKVs_cons_of_readable he, List.append_assoc,
      List.singleton_append]
  of_done hp := by simpa using h.of_done hp
  of_pending hp := by
    obtain ⟨hj, hkey, hne⟩ := h.of_pending hp
    exact ⟨by simpa using hj, by simpa using hkey, hne⟩

section Loop

variable {limit responseSizeLimitInBytes : UInt64} {kvs : List KVWithMetadata} {resultCount size : UInt64}

/-- A `uint64` sum that stays below `2 ^ 64` is the sum of the `Nat`s. -/
theorem counter_toNat_add {a b : UInt64} (h : a.toNat + b.toNat < 2 ^ 64) :
    (a + b).toNat = a.toNat + b.toNat := by
  rw [UInt64.toNat_add, Nat.mod_eq_of_lt h]

theorem counter_toNat_toUInt64 {n : Nat} (h : n < 2 ^ 64) : n.toUInt64.toNat = n := by
  rw [Nat.toUInt64_eq, UInt64.toNat_ofNat', Nat.mod_eq_of_lt h]

/-- The next entry moves from the entries to come to the page. -/
theorem Room.add {kv : KVWithMetadata} {rest : List KVWithMetadata} (h : Room codec kvs (kv :: rest)) :
    Room codec (kvs ++ [kv]) rest where
  count_lt := by
    have := h.count_lt
    simp only [List.length_append, List.length_cons, List.length_nil] at this ⊢
    omega
  size_lt := by
    have := h.size_lt
    simp only [List.map_append, List.sum_append, List.map_cons, List.sum_cons, List.map_nil,
      List.sum_nil] at this ⊢
    omega

theorem Accumulated.empty : Accumulated codec limit responseSizeLimitInBytes [] 0 0 where
  length_le _ := Nat.zero_le _
  size_le := Nat.zero_le _
  resultCount_eq := by split <;> rfl
  size_eq := rfl

/-- The count after one more entry, while the page and the entries to come have room. -/
theorem Accumulated.resultCount_succ {kv : KVWithMetadata} {rest : List KVWithMetadata}
    (hacc : Accumulated codec limit responseSizeLimitInBytes kvs resultCount size)
    (hroom : Room codec kvs (kv :: rest)) (hpos : limit > 0) :
    (resultCount + 1).toNat = kvs.length + 1 := by
  have hcount := hacc.resultCount_eq
  have hlt := hroom.count_lt
  rw [if_pos hpos] at hcount
  rw [List.length_cons] at hlt
  rw [counter_toNat_add (by rw [hcount, UInt64.toNat_one]; omega), hcount, UInt64.toNat_one]

/-- The size after one more entry, while the page and the entries to come have room. -/
theorem Accumulated.size_add {kv : KVWithMetadata} {rest : List KVWithMetadata}
    (hacc : Accumulated codec limit responseSizeLimitInBytes kvs resultCount size)
    (hroom : Room codec kvs (kv :: rest)) :
    (size + (recordSize codec kv).toUInt64).toNat = (kvs.map (recordSize codec)).sum + recordSize codec kv := by
  have hsize := hacc.size_eq
  have hlt := hroom.size_lt
  rw [List.map_cons, List.sum_cons] at hlt
  have hkv : (recordSize codec kv).toUInt64.toNat = recordSize codec kv :=
    counter_toNat_toUInt64 (by omega)
  rw [counter_toNat_add (by rw [hkv, hsize]; omega), hkv, hsize]

/-- A page cut by the count limit holds `limit ≥ 1` entries. -/
theorem Accumulated.ne_nil_of_count {kv : KVWithMetadata} {rest : List KVWithMetadata}
    (hacc : Accumulated codec limit responseSizeLimitInBytes kvs resultCount size)
    (hroom : Room codec kvs (kv :: rest))
    (h : limit > 0 ∧ (if limit > 0 then resultCount + 1 else resultCount) > limit) : kvs ≠ [] := by
  have hpos : 0 < limit.toNat := UInt64.lt_iff_toNat_lt.1 h.1
  have hover := UInt64.lt_iff_toNat_lt.1 h.2
  rw [if_pos h.1, hacc.resultCount_succ hroom h.1] at hover
  intro hnil
  rw [hnil, List.length_nil] at hover
  omega

/-- A page cut by the size limit is not empty when the entry alone fits. -/
theorem Accumulated.ne_nil_of_size {kv : KVWithMetadata} {rest : List KVWithMetadata}
    (hacc : Accumulated codec limit responseSizeLimitInBytes kvs resultCount size)
    (hroom : Room codec kvs (kv :: rest)) (hfit : recordSize codec kv ≤ responseSizeLimitInBytes.toNat)
    (h : size + (recordSize codec kv).toUInt64 > responseSizeLimitInBytes) : kvs ≠ [] := by
  have hover := UInt64.lt_iff_toNat_lt.1 h
  rw [hacc.size_add hroom] at hover
  intro hnil
  rw [hnil, List.map_nil, List.sum_nil] at hover
  omega

/-- An entry added within both limits. -/
theorem Accumulated.add {kv : KVWithMetadata} {rest : List KVWithMetadata}
    (hacc : Accumulated codec limit responseSizeLimitInBytes kvs resultCount size)
    (hroom : Room codec kvs (kv :: rest))
    (hcount : ¬(limit > 0 ∧ (if limit > 0 then resultCount + 1 else resultCount) > limit))
    (hsize : ¬size + (recordSize codec kv).toUInt64 > responseSizeLimitInBytes) :
    Accumulated codec limit responseSizeLimitInBytes (kvs ++ [kv])
      (if limit > 0 then resultCount + 1 else resultCount) (size + (recordSize codec kv).toUInt64) where
  length_le hpos := by
    have hle : ¬(resultCount + 1).toNat > limit.toNat := fun h =>
      hcount ⟨hpos, by rw [if_pos hpos]; exact UInt64.lt_iff_toNat_lt.2 h⟩
    rw [hacc.resultCount_succ hroom hpos] at hle
    rw [List.length_append, List.length_singleton]
    omega
  size_le := by
    have hle : ¬(size + (recordSize codec kv).toUInt64).toNat > responseSizeLimitInBytes.toNat :=
      fun h => hsize (UInt64.lt_iff_toNat_lt.2 h)
    rw [hacc.size_add hroom] at hle
    rw [List.map_append, List.sum_append, List.map_singleton, List.sum_singleton]
    omega
  resultCount_eq := by
    by_cases hpos : limit > 0
    · rw [if_pos hpos, if_pos hpos, hacc.resultCount_succ hroom hpos, List.length_append,
        List.length_singleton]
    · rw [if_neg hpos, if_neg hpos, hacc.resultCount_eq, if_neg hpos]
  size_eq := by
    rw [hacc.size_add hroom, List.map_append, List.sum_append, List.map_singleton, List.sum_singleton]

variable {querierUserID : String}

/-- **The loop's page.** With every readable entry fitting the size limit alone, and room for
the counters, the loop returns a page that ends at an entry of `es` or at its end, within both
limits. By induction on the entries left, one case for each way the loop treats an entry. -/
theorem getDataRangeLoop_page :
    ∀ {es : List (String × ValueWithMetadata)} {kvs : List KVWithMetadata} {resultCount size : UInt64},
      (∀ e ∈ es, readableBy querierUserID e.2 = true →
        recordSize codec (toKV e) ≤ responseSizeLimitInBytes.toNat) →
      Room codec kvs (readableKVs querierUserID es) →
      Accumulated codec limit responseSizeLimitInBytes kvs resultCount size →
      ∃ j resp, getDataRangeLoop codec querierUserID limit responseSizeLimitInBytes es kvs
          resultCount size = .ok resp ∧
        PageEnd querierUserID es kvs j resp ∧ Bounded codec limit responseSizeLimitInBytes resp.kVs
  | [], kvs, _, _, _, _, hacc =>
    ⟨0, ⟨kvs, false, ""⟩, rfl, ⟨le_rfl, by simp [readableKVs], fun _ => rfl, fun h => Bool.noConfusion h⟩,
      hacc.toBounded⟩
  | (k, stored) :: rest, kvs, resultCount, size, hfit, hroom, hacc => by
    have hrest : ∀ e ∈ rest, readableBy querierUserID e.2 = true →
        recordSize codec (toKV e) ≤ responseSizeLimitInBytes.toNat :=
      fun e he => hfit e (List.mem_cons_of_mem _ he)
    cases hr : readableBy querierUserID stored
    case false =>
      rw [readableKVs_cons_of_not_readable hr] at hroom
      obtain ⟨j, resp, hrun, hpage, hb⟩ := getDataRangeLoop_page hrest hroom hacc
      refine ⟨j + 1, resp, ?_, hpage.skip hr, hb⟩
      simp only [getDataRangeLoop, codec.Unmarshal_Marshal, Except.ok_bind, hr, Bool.not_false,
        ↓reduceIte]
      exact hrun
    case true =>
      rw [readableKVs_cons_of_readable hr] at hroom
      have hsize := hfit (k, stored) List.mem_cons_self hr
      simp only [getDataRangeLoop, codec.Unmarshal_Marshal, Except.ok_bind, hr, Bool.not_true,
        Bool.false_eq_true, if_false, Bool.and_eq_true, decide_eq_true_eq]
      by_cases hcount : limit > 0 ∧ (if limit > 0 then resultCount + 1 else resultCount) > limit
      · rw [if_pos hcount]
        exact ⟨0, _, rfl, PageEnd.cut (hacc.ne_nil_of_count hroom hcount), hacc.toBounded⟩
      rw [if_neg hcount]
      -- the size the loop adds is the entry's record size
      have hrecord : k.utf8ByteSize + (codec.Marshal stored).length = recordSize codec (toKV (k, stored)) :=
        rfl
      rw [hrecord]
      by_cases hover : size + (recordSize codec (toKV (k, stored))).toUInt64 > responseSizeLimitInBytes
      · have hne := hacc.ne_nil_of_size hroom hsize hover
        rw [if_pos hover, if_pos (by simpa using hne)]
        exact ⟨0, _, rfl, PageEnd.cut hne, hacc.toBounded⟩
      rw [if_neg hover]
      obtain ⟨j, resp, hrun, hpage, hb⟩ :=
        getDataRangeLoop_page hrest hroom.add (hacc.add hroom hcount hover)
      exact ⟨j + 1, resp, hrun, hpage.add hr, hb⟩

end Loop

/-! ### Starting the iterator again -/

/-- Leveldb's order on keys, as a key into the lexicographic order of `List ℕ`. -/
def byteKey (s : String) : List ℕ := s.toUTF8.toList.map UInt8.toNat

theorem bytesLt_eq_decide (a b : String) : bytesLt a b = decide (byteKey a < byteKey b) := by
  rw [bytesLt, byteKey, byteKey]
  exact decide_eq_decide.2 ByteOrder.map_toNat_lt_map_toNat_iff.symm

theorem byteKey_injective : Function.Injective byteKey := fun a b h => by
  have hbytes : a.toUTF8.toList = b.toUTF8.toList :=
    List.map_injective_iff.2 (fun _ _ h => UInt8.toNat_inj.1 h) h
  exact String.toByteArray_inj.1 (ByteOrder.toList_injective hbytes)

/-- The order `GetIterator` sorts by is "not greater in `byteKey`". -/
theorem getIterator_order (a b : String × ValueWithMetadata) :
    (!bytesLt b.1 a.1) = true ↔ ¬byteKey b.1 < byteKey a.1 := by
  rw [bytesLt_eq_decide]
  simp

/-- **Starting again at a key the iterator returned.** Over a database with each key once, the
iterator from the key of its `j`-th entry is the iterator from the `j`-th entry on. -/
theorem GetIterator_restart {s : DBsSnapshot} {dbName startKey endKey : String}
    {kvs es : List (String × ValueWithMetadata)} (hdb : s.dbs.lookup dbName = some kvs)
    (hkeys : (kvs.map Prod.fst).Nodup) (hes : s.GetIterator dbName startKey endKey = .ok es)
    {j : Nat} (hj : j < es.length) : s.GetIterator dbName es[j].1 endKey = .ok (es.drop j) := by
  simp only [DBsSnapshot.GetIterator, hdb, Except.ok.injEq] at hes ⊢
  set inRange := kvs.filter fun kv => !bytesLt kv.1 startKey && (endKey == "" || bytesLt kv.1 endKey)
  have hnodup : ((inRange.map Prod.fst).map byteKey).Nodup :=
    (hkeys.sublist (List.filter_sublist.map Prod.fst)).map byteKey_injective
  rw [List.map_map] at hnodup
  have hsorted : (inRange.insertionSort fun a b => !bytesLt b.1 a.1).Pairwise
      fun a b => (byteKey ∘ Prod.fst) a < (byteKey ∘ Prod.fst) b :=
    pairwise_lt_insertionSort getIterator_order hnodup
  rw [hes] at hsorted
  -- the key of the `j`-th entry is not below `startKey`, so neither is any key not below it
  have hstart : bytesLt es[j].1 startKey = false := by
    have hsub : ∀ x ∈ es, x ∈ inRange := by
      rw [← hes]
      exact fun x hx => (List.perm_insertionSort _ _).subset hx
    have hmem := hsub _ (List.getElem_mem hj)
    simp only [inRange, List.mem_filter, Bool.and_eq_true, Bool.not_eq_eq_eq_not, Bool.not_true] at hmem
    exact hmem.2.1
  have hfilter : (kvs.filter fun kv => !bytesLt kv.1 es[j].1 && (endKey == "" || bytesLt kv.1 endKey)) =
      inRange.filter fun kv => !decide ((byteKey ∘ Prod.fst) kv < (byteKey ∘ Prod.fst) es[j]) := by
    rw [List.filter_filter]
    refine List.filter_congr fun kv _ => ?_
    rw [bytesLt_eq_decide] at hstart ⊢
    rw [bytesLt_eq_decide kv.1 startKey]
    by_cases hlt : byteKey kv.1 < byteKey es[j].1
    · simp [hlt]
    · have hge : ¬byteKey kv.1 < byteKey startKey := fun h =>
        absurd (lt_of_lt_of_le h (not_lt.1 (by simpa using hstart))) hlt
      simp [hlt, hge]
  rw [hfilter, insertionSort_filter getIterator_order hnodup, hes]
  convert filter_not_lt_eq_drop hsorted hj

/-! ### All pages -/

/-- The sizes of some of the entries, in any order, sum to at most the sizes of all. -/
theorem sum_map_le_of_subperm {α : Type} (f : α → Nat) {l₁ l₂ : List α} (h : l₁.Subperm l₂) :
    (l₁.map f).sum ≤ (l₂.map f).sum := by
  obtain ⟨l, hperm, hsub⟩ := h
  rw [← (hperm.map f).sum_eq]
  exact (hsub.map f).sum_le_sum fun _ _ => Nat.zero_le _

/-- Entries drawn from a database of fewer than `2 ^ 64` entries and bytes leave the counters
room. -/
theorem room_of_subperm {querierUserID : String} {es kvs : List (String × ValueWithMetadata)}
    (hsub : es.Subperm kvs)
    (hbound : kvs.length < 2 ^ 64 ∧ (kvs.map fun e => recordSize codec (toKV e)).sum < 2 ^ 64) :
    Room codec [] (readableKVs querierUserID es) where
  count_lt := by
    have hle : (readableKVs querierUserID es).length ≤ kvs.length := by
      rw [readableKVs, List.length_map]
      exact (List.filter_sublist.subperm.trans hsub).length_le
    rw [List.length_nil, Nat.zero_add]
    omega
  size_lt := by
    have hle : ((readableKVs querierUserID es).map (recordSize codec)).sum ≤
        (kvs.map fun e => recordSize codec (toKV e)).sum := by
      rw [readableKVs, List.map_map]
      exact sum_map_le_of_subperm _ (List.filter_sublist.subperm.trans hsub)
    rw [List.map_nil, List.sum_nil, Nat.zero_add]
    omega

theorem readableKVs_append (querierUserID : String) (l l' : List (String × ValueWithMetadata)) :
    readableKVs querierUserID (l ++ l') = readableKVs querierUserID l ++ readableKVs querierUserID l' := by
  simp only [readableKVs, List.filter_append, List.map_append]

section Pages

variable {q : WorldstateQueryProcessor} {dbName querierUserID endKey : String} {limit : UInt64}

/-- Past its checks, `getDataRange` is its loop over the iterator. -/
theorem getDataRange_eq_loop (hsys : IsSystemDB dbName = false)
    (hperm : q.HasReadAccessOnDataDB querierUserID dbName = .ok true) {startKey : String}
    {es : List (String × ValueWithMetadata)} (hes : q.db.GetIterator dbName startKey endKey = .ok es) :
    getDataRange codec q dbName querierUserID startKey endKey limit =
      getDataRangeLoop codec querierUserID limit q.responseSizeLimitInBytes es [] 0 0 := by
  simp only [getDataRange, hsys, hperm, hes, Bool.false_eq_true, if_false, Except.ok_bind, Bool.not_true]

variable {kvs : List (String × ValueWithMetadata)}

/-- **Run lemma** of the pagination: from any start key whose iterator has fewer entries than
the fuel, the pages are the readable entries of the iterator, each page within both limits.
By induction on the fuel; each pending page ends at an entry the next call starts from. -/
theorem getDataRangePages_of_iterator (hsys : IsSystemDB dbName = false)
    (hperm : q.HasReadAccessOnDataDB querierUserID dbName = .ok true)
    (hdb : q.db.dbs.lookup dbName = some kvs) (hkeys : (kvs.map Prod.fst).Nodup)
    (hfit : ∀ e ∈ kvs, readableBy querierUserID e.2 = true →
      recordSize codec (toKV e) ≤ q.responseSizeLimitInBytes.toNat)
    (hbound : kvs.length < 2 ^ 64 ∧ (kvs.map fun e => recordSize codec (toKV e)).sum < 2 ^ 64) :
    ∀ (fuel : Nat) (startKey : String) (es : List (String × ValueWithMetadata)),
      q.db.GetIterator dbName startKey endKey = .ok es → es.length < fuel →
      ∃ pages, getDataRangePages codec q dbName querierUserID endKey limit fuel startKey = .ok pages ∧
        pages.flatten = readableKVs querierUserID es ∧
        ∀ page ∈ pages, Bounded codec limit q.responseSizeLimitInBytes page
  | 0, _, _, _, hlt => absurd hlt (Nat.not_lt_zero _)
  | fuel + 1, startKey, es, hes, hlt => by
    -- the iterator's entries are some of the database's, sorted
    have hsub : es.Subperm kvs := by
      simp only [DBsSnapshot.GetIterator, hdb, Except.ok.injEq] at hes
      rw [← hes]
      exact (List.perm_insertionSort _ _).subperm.trans List.filter_sublist.subperm
    have hloop : ∃ j resp, getDataRangeLoop codec querierUserID limit q.responseSizeLimitInBytes es [] 0 0 =
        .ok resp ∧ PageEnd querierUserID es [] j resp ∧
        Bounded codec limit q.responseSizeLimitInBytes resp.kVs :=
      getDataRangeLoop_page (fun e he => hfit e (hsub.subset he)) (room_of_subperm hsub hbound)
        Accumulated.empty
    obtain ⟨j, resp, hrun, hpage, hb⟩ := hloop
    have hcall := (getDataRange_eq_loop hsys hperm hes).trans hrun
    have hkVs := hpage.kVs_eq
    rw [List.nil_append] at hkVs
    cases hpending : resp.pendingResult
    case false =>
      have hj := hpage.of_done hpending
      refine ⟨[resp.kVs], ?_, ?_, ?_⟩
      · simp only [getDataRangePages, hcall, Except.ok_bind, hpending]
        rfl
      · rw [List.flatten_singleton, hkVs, hj, List.take_length]
      · intro page hpage'
        rw [List.mem_singleton.1 hpage']
        exact hb
    case true =>
      obtain ⟨hj, hnext, hne⟩ := hpage.of_pending hpending
      have hj0 : j ≠ 0 := by
        rintro rfl
        exact hne (by rw [hkVs, List.take_zero]; rfl)
      have hrestart := GetIterator_restart hdb hkeys hes hj
      rw [← hnext] at hrestart
      obtain ⟨rest, hrest, hflat, hbounded⟩ := getDataRangePages_of_iterator hsys hperm hdb hkeys hfit hbound
        fuel resp.nextStartKey (es.drop j) hrestart (by rw [List.length_drop]; omega)
      refine ⟨resp.kVs :: rest, ?_, ?_, ?_⟩
      · simp only [getDataRangePages, hcall, Except.ok_bind, hpending, if_true, hrest]
        rfl
      · rw [List.flatten_cons, hflat, hkVs, ← readableKVs_append, List.take_append_drop]
      · intro page hpage'
        rcases List.mem_cons.1 hpage' with rfl | hmem
        · exact hb
        · exact hbounded page hmem

/-- The range test of `GetIterator`. -/
theorem inRange_iff {k startKey endKey : String} :
    (!bytesLt k startKey && (endKey == "" || bytesLt k endKey)) = true ↔
      bytesLt k startKey = false ∧ (endKey = "" ∨ bytesLt k endKey = true) := by
  simp

variable (codec) in
/-- **Pagination is complete and duplicate-free.** For a data database the querier may read, with
each key once, every entry the querier may read fitting the response size limit alone, and fewer
than `2 ^ 64` entries and bytes in all, the client gets, within `kvs.length + 1` calls, the entries of `[startKey, endKey)` (no upper bound
for an empty `endKey`) that the querier may read, in leveldb's order and each once, in pages of
at most `limit` entries (when `limit > 0`) and at most `ResponseSizeLimitInBytes` bytes. -/
theorem getDataRangePages_complete {startKey : String} (hsys : IsSystemDB dbName = false)
    (hperm : q.HasReadAccessOnDataDB querierUserID dbName = .ok true)
    (hdb : q.db.dbs.lookup dbName = some kvs) (hkeys : (kvs.map Prod.fst).Nodup)
    (hfit : ∀ e ∈ kvs, readableBy querierUserID e.2 = true →
      e.1.utf8ByteSize + (codec.Marshal e.2).length ≤ q.responseSizeLimitInBytes.toNat)
    (hbound : kvs.length < 2 ^ 64 ∧
      (kvs.map fun e => e.1.utf8ByteSize + (codec.Marshal e.2).length).sum < 2 ^ 64) :
    ∃ pages, getDataRangePages codec q dbName querierUserID endKey limit (kvs.length + 1) startKey =
        .ok pages ∧
      (pages.flatten.map KVWithMetadata.key).Pairwise (fun a b => bytesLt a b = true) ∧
      (∀ kv, kv ∈ pages.flatten ↔ ∃ e ∈ kvs, bytesLt e.1 startKey = false ∧
        (endKey = "" ∨ bytesLt e.1 endKey = true) ∧ readableBy querierUserID e.2 = true ∧ kv = toKV e) ∧
      ∀ page ∈ pages, (limit > 0 → page.length ≤ limit.toNat) ∧
        (page.map (recordSize codec)).sum ≤ q.responseSizeLimitInBytes.toNat := by
  set inRange := kvs.filter fun kv => !bytesLt kv.1 startKey && (endKey == "" || bytesLt kv.1 endKey)
  set es := inRange.insertionSort fun a b => !bytesLt b.1 a.1
  have hes : q.db.GetIterator dbName startKey endKey = .ok es := by
    simp only [DBsSnapshot.GetIterator, hdb]
    rfl
  have hlen : es.length < kvs.length + 1 := by
    rw [List.length_insertionSort]
    exact Nat.lt_succ_of_le (List.length_filter_le _ _)
  obtain ⟨pages, hrun, hflat, hbounded⟩ :=
    getDataRangePages_of_iterator hsys hperm hdb hkeys hfit hbound _ startKey es hes hlen
  have hnodup : (inRange.map (byteKey ∘ Prod.fst)).Nodup := by
    rw [← List.map_map]
    exact (hkeys.sublist (List.filter_sublist.map Prod.fst)).map byteKey_injective
  have hsorted : es.Pairwise fun a b => (byteKey ∘ Prod.fst) a < (byteKey ∘ Prod.fst) b :=
    pairwise_lt_insertionSort getIterator_order hnodup
  refine ⟨pages, hrun, ?_, fun kv => ?_, fun page hpage => ⟨(hbounded page hpage).length_le,
    (hbounded page hpage).size_le⟩⟩
  · rw [hflat, readableKVs, List.map_map, List.pairwise_map]
    refine (hsorted.filter _).imp fun h => ?_
    rw [bytesLt_eq_decide]
    exact decide_eq_true h
  · rw [hflat, readableKVs, List.mem_map]
    constructor
    · rintro ⟨e, he, rfl⟩
      obtain ⟨hes', hr⟩ := List.mem_filter.1 he
      obtain ⟨hkv, hrange⟩ := List.mem_filter.1 ((List.perm_insertionSort _ _).subset hes')
      exact ⟨e, hkv, (inRange_iff.1 hrange).1, (inRange_iff.1 hrange).2, hr, rfl⟩
    · rintro ⟨e, hkv, hstart, hend, hr, rfl⟩
      refine ⟨e, List.mem_filter.2 ⟨(List.perm_insertionSort _ _).symm.subset ?_, hr⟩, rfl⟩
      exact List.mem_filter.2 ⟨hkv, inRange_iff.2 ⟨hstart, hend⟩⟩

end Pages

deriving instance Encodable for Version, AccessControlPolicy, AccessControl, Metadata, ValueWithMetadata

/-- Two entries, out of order, the first readable only by `bob`; the querier is `alice`. -/
def twoKeyEntries : List (String × ValueWithMetadata) :=
  [("b", ⟨[2], some ⟨none, some ⟨[("bob", true)], [], .ANY⟩⟩⟩), ("a", ⟨[1], none⟩)]

/-- A wire form that sends each value of `twoKeyEntries` as a few bytes. -/
def twoKeyCodec : ProtoCodec ValueWithMetadata := .numbered ValueWithMetadata (twoKeyEntries.map Prod.snd)

/-- The database `db1` of `twoKeyEntries` behind a limit of 64 bytes, for a querier with read
access. -/
def twoKeyProcessor : WorldstateQueryProcessor :=
  ⟨⟨[("db1", twoKeyEntries)]⟩, 64, fun _ _ => .ok true⟩

theorem getDataRangePages_complete_two_keys :
    IsSystemDB "db1" = false ∧ twoKeyProcessor.HasReadAccessOnDataDB "alice" "db1" = .ok true ∧
      twoKeyProcessor.db.dbs.lookup "db1" = some twoKeyEntries ∧ (twoKeyEntries.map Prod.fst).Nodup ∧
      (∀ e ∈ twoKeyEntries, readableBy "alice" e.2 = true →
        e.1.utf8ByteSize + (twoKeyCodec.Marshal e.2).length ≤
          twoKeyProcessor.responseSizeLimitInBytes.toNat) ∧
      (twoKeyEntries.length < 2 ^ 64 ∧ (twoKeyEntries.map fun e =>
        e.1.utf8ByteSize + (twoKeyCodec.Marshal e.2).length).sum < 2 ^ 64) ∧
      ∃ pages, getDataRangePages twoKeyCodec twoKeyProcessor "db1" "alice"
          "" 1 (twoKeyEntries.length + 1) "" = .ok pages ∧
        (pages.flatten.map KVWithMetadata.key).Pairwise (fun a b => bytesLt a b = true) ∧
        (∀ kv, kv ∈ pages.flatten ↔ ∃ e ∈ twoKeyEntries, bytesLt e.1 "" = false ∧
          ("" = "" ∨ bytesLt e.1 "" = true) ∧ readableBy "alice" e.2 = true ∧ kv = toKV e) ∧
        ∀ page ∈ pages, (1 > 0 → page.length ≤ (1 : UInt64).toNat) ∧
          (page.map (recordSize twoKeyCodec)).sum ≤
            twoKeyProcessor.responseSizeLimitInBytes.toNat := by
  have hsys : IsSystemDB "db1" = false := by decide
  have hperm : twoKeyProcessor.HasReadAccessOnDataDB "alice" "db1" = .ok true := rfl
  have hdb : twoKeyProcessor.db.dbs.lookup "db1" = some twoKeyEntries := rfl
  have hkeys : (twoKeyEntries.map Prod.fst).Nodup := by decide
  have hfit : ∀ e ∈ twoKeyEntries, readableBy "alice" e.2 = true →
      e.1.utf8ByteSize + (twoKeyCodec.Marshal e.2).length ≤
        twoKeyProcessor.responseSizeLimitInBytes.toNat := by
    decide
  have hbound : twoKeyEntries.length < 2 ^ 64 ∧ (twoKeyEntries.map fun e =>
      e.1.utf8ByteSize + (twoKeyCodec.Marshal e.2).length).sum < 2 ^ 64 := by
    decide
  exact ⟨hsys, hperm, hdb, hkeys, hfit, hbound,
    getDataRangePages_complete twoKeyCodec hsys hperm hdb hkeys hfit hbound⟩

/-- The database `db1` of one key without an access control list, for a querier without read
access on `db1`. -/
def noAccessProcessor : WorldstateQueryProcessor :=
  ⟨⟨[("db1", [("k", ⟨[1], none⟩)])]⟩, 64, fun _ _ => .ok false⟩

/-- A querier without read access on the database gets no page, though the key's own access
control lets everyone read it. -/
theorem getDataRangePages_without_database_access :
    readableBy "alice" ⟨[1], none⟩ = true ∧
      getDataRangePages (ProtoCodec.ofEncodable ValueWithMetadata) noAccessProcessor "db1" "alice" "" 0
        1 "" =
        .error "the user [alice] has no permission to read from database [db1]" := by
  refine ⟨rfl, ?_⟩
  have hsys : IsSystemDB "db1" = false := by decide
  simp only [getDataRangePages, getDataRange, hsys, noAccessProcessor, Bool.false_eq_true, if_false,
    Except.ok_bind, Bool.not_false, if_true]
  rfl

end Orion.Bcdb
