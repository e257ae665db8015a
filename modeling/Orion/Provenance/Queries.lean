import Orion.Provenance.Store
import Orion.Bcdb.DataRange

/-!
# What the provenance queries return after a commit

A transaction of a block, once `Commit` has written it, is found again by the queries that walk
the graph back. Two walks go wrong.

* **User queries cut keys at `$`.** `verticesToKVs` splits the composite key `db$key` of every
  value at each `$` and keeps the second piece, so a key that holds a `$` comes back cut before
  its first `$` (`splitCompositeKey_constructCompositeKey`). `GetValuesWrittenByUser_cuts_keys`
  says it of a user's writes after any commit of a new transaction.
* **A transaction id is read as a key.** `GetValues` follows every edge from the vertex
  `db$key`; a transaction id is a vertex of the same graph, and `$` may stand in one. When a
  transaction's id is `db$key`, its `WRITES` edges are read as the values of `key`, which no
  transaction wrote (`GetMostRecentValueAtOrBelow_of_txID_as_key`).

The commit lemmas say which edges a valid transaction adds when none of the keys it writes had
a value before: the edges of `Commit` are new (`select_Commit`), and the queries read them
(`GetTxIDsSubmittedByUser_Commit`, `out_Commit_writes`, `outAll_Commit_txID`).
-/

namespace Orion.Provenance

open Orion.State Orion.Types Orion.WorldState Orion.Lib GoIO

/-! ### Composite keys -/

theorem toList_constructCompositeKey (dbName key : String) :
    (constructCompositeKey dbName key).toList = dbName.toList ++ '$' :: key.toList := by
  simp [constructCompositeKey, separator, String.toList_append]

/-- The first piece of a list split at `c` is the list up to the first `c`. -/
theorem head_splitOn (c : Char) :
    ∀ l : List Char, ∃ rest, l.splitOn c = l.takeWhile (· != c) :: rest
  | [] => ⟨[], rfl⟩
  | a :: l => by
    obtain ⟨rest, hrest⟩ := head_splitOn c l
    simp only [List.splitOn] at hrest ⊢
    rw [List.splitOnP_cons_eq_if_modifyHead, List.takeWhile_cons]
    by_cases ha : a = c
    · subst ha
      exact ⟨List.splitOnP (· == a) l, by simp⟩
    · exact ⟨rest, by simp [ha, hrest]⟩

/-- **A composite key split back.** Of `db$key`, with no `$` in `db`, `splitCompositeKey`
returns `db` and the part of `key` before its first `$`. -/
theorem splitCompositeKey_constructCompositeKey {dbName : String} (hdb : '$' ∉ dbName.toList)
    (key : String) :
    splitCompositeKey (constructCompositeKey dbName key) = .ok (dbName, firstPiece key) := by
  have hsplit : (constructCompositeKey dbName key).toList.splitOn '$' =
      dbName.toList :: key.toList.splitOn '$' := by
    rw [toList_constructCompositeKey, List.splitOn, List.splitOnP_append_cons_of_forall_mem
      (fun x hx => by simpa using ne_of_mem_of_not_mem hx hdb) '$' (by simp)]
    rfl
  obtain ⟨rest, hrest⟩ := head_splitOn '$' key.toList
  rw [splitCompositeKey, splitSeparator, hsplit, hrest]
  simp [firstPiece]

theorem firstPiece_eq_self_iff (key : String) : firstPiece key = key ↔ '$' ∉ key.toList := by
  rw [firstPiece, ← String.toList_inj, String.toList_ofList, List.takeWhile_eq_self_iff]
  simp only [bne_iff_ne, ne_eq]
  exact ⟨fun h hm => h _ hm rfl, fun h x hx hxe => h (hxe ▸ hx)⟩

/-- A valid database name has no `$`. -/
theorem dollar_not_mem_of_ValidDBName {dbName : String} (hdb : ValidDBName dbName = true) :
    '$' ∉ dbName.toList := by
  intro hmem
  have hall := (Bool.and_eq_true_iff.1 hdb).2
  have : allowedCharInDBName '$' = true := List.all_eq_true.1 hall '$' hmem
  exact absurd this (by decide)

theorem constructCompositeKey_injective (dbName : String) :
    Function.Injective (constructCompositeKey dbName) := by
  intro k₁ k₂ h
  rw [constructCompositeKey, constructCompositeKey, String.append_right_inj] at h
  exact h

/-! ### Predicates -/

theorem toList_brace_append (s : String) : ("\x7b" ++ s).toList = '\x7b' :: s.toList := by
  simp [String.toList_append]

/-- The JSON of a version is `null` or an object: never a one-letter predicate. -/
theorem versionText_ne_singleton (v : Option Version) {c : Char} (hb : c ≠ '\x7b') :
    versionText v ≠ String.singleton c := by
  intro h
  cases v with
  | none =>
    have htext := congrArg String.toList h
    simp [versionText] at htext
  | some v =>
    have hhead := congrArg (fun s => s.toList.head?) h
    simp only [versionText, String.append_assoc, toList_brace_append, String.toList_singleton,
      List.head?_cons, Option.some.injEq] at hhead
    exact hb hhead.symm

theorem versionText_ne_WRITES (v : Option Version) : versionText v ≠ WRITES :=
  versionText_ne_singleton v (c := 'w') (by decide)

theorem versionText_ne_SUBMITTED (v : Option Version) : versionText v ≠ SUBMITTED :=
  versionText_ne_singleton v (c := 's') (by decide)

/-- A location is a JSON object; a composite key starts with the database's name. -/
theorem locationText_ne_constructCompositeKey {dbName : String} (hdb : ValidDBName dbName = true)
    (loc : TxIDLocation) (key : String) : locationText loc ≠ constructCompositeKey dbName key := by
  obtain ⟨hne, hall⟩ := Bool.and_eq_true_iff.1 hdb
  obtain ⟨c, cs, hcs⟩ : ∃ c cs, dbName.toList = c :: cs := by
    cases h : dbName.toList with
    | nil =>
      rw [String.toList_eq_nil_iff.1 h] at hne
      exact absurd hne (by decide)
    | cons c cs => exact ⟨c, cs, rfl⟩
  have hc : allowedCharInDBName c = true := List.all_eq_true.1 hall c (by simp [hcs])
  have hlit : "\x7b\"block_num\":" = "\x7b" ++ "\"block_num\":" := rfl
  intro h
  -- unfolding by δ: generating the equation lemma of this literal-heavy definition is slow
  delta locationText at h
  have hhead := congrArg (fun s => s.toList.head?) h
  simp only [hlit, String.append_assoc, toList_brace_append, toList_constructCompositeKey, hcs,
    List.cons_append, List.head?_cons, Option.some.injEq] at hhead
  rw [← hhead] at hc
  exact absurd hc (by decide)

/-! ### The edges of a commit -/

theorem TextCodec.Marshal_injective {α : Type} (c : TextCodec α) : Function.Injective c.Marshal := by
  intro a b h
  have hu := congrArg c.Unmarshal h
  rw [c.Unmarshal_Marshal, c.Unmarshal_Marshal, Except.ok.injEq] at hu
  exact hu

section Commit

variable (json : TextCodec KVWithMetadata)

/-- The vertex of a value written to `dbName`: the JSON of the write, its key made composite. -/
def valueVertex (dbName : String) (write : KVWithMetadata) : String :=
  json.Marshal { write with key := constructCompositeKey dbName write.key }

/-- The two edges of a write to a key that had no value before: from the composite key, labelled
with the version, and from the transaction. -/
def writeQuads (tx : TxDataForProvenance) (write : KVWithMetadata) : List (Quad String) :=
  [⟨constructCompositeKey tx.dbName write.key, versionText (write.metadata.bind (·.version)),
      valueVertex json tx.dbName write⟩,
    ⟨tx.txID, WRITES, valueVertex json tx.dbName write⟩]

/-- The edges of a valid transaction, its writes' edges being `writes`. -/
def validTxQuads (blockNum : UInt64) (txNum : Nat) (g : Graph) (tx : TxDataForProvenance)
    (writes : List (Quad String)) : List (Quad String) :=
  ⟨locationText ⟨blockNum, txNum⟩, INCLUDES, tx.txID⟩ :: ⟨tx.userID, SUBMITTED, tx.txID⟩ ::
    (addReads g tx ++ writes ++ addDeletes g tx)

variable {json} {g : Graph} {tx : TxDataForProvenance}

theorem valueVertex_injective (dbName : String) : Function.Injective (valueVertex json dbName) := by
  intro w₁ w₂ h
  have hkv := json.Marshal_injective h
  cases w₁
  cases w₂
  simp only [KVWithMetadata.mk.injEq] at hkv ⊢
  exact ⟨constructCompositeKey_injective _ hkv.1, hkv.2.1, hkv.2.2⟩

/-- A key with no edges has no deleted value. -/
theorem getLastDeletedVersion_of_outAll_nil {dbName key : String}
    (h : g.outAll (constructCompositeKey dbName key) = []) :
    getLastDeletedVersion json g dbName key = .ok none := by
  simp [getLastDeletedVersion, getDeletedValuesWithoutLock, h, verticesToValues, Except.mapError]
  rfl

/-- A write to a key with no value before, in the state or deleted, adds its two edges. -/
theorem addWrite_of_new_key {w : KVWithMetadata} (hmeta : w.metadata.isSome)
    (hold : tx.oldVersionOfWrites.lookup w.key = none)
    (hkey : g.outAll (constructCompositeKey tx.dbName w.key) = []) :
    addWrite json g tx w = .ok (writeQuads json tx w) := by
  obtain ⟨m, hm⟩ := Option.isSome_iff_exists.1 hmeta
  simp [addWrite, hm, hold, getLastDeletedVersion_of_outAll_nil hkey, writeQuads, valueVertex]
  rfl

/-- The writes of a transaction to keys with no value before. -/
def NewKeys (g : Graph) (tx : TxDataForProvenance) : Prop :=
  ∀ w ∈ tx.writes, w.metadata.isSome ∧ tx.oldVersionOfWrites.lookup w.key = none ∧
    g.outAll (constructCompositeKey tx.dbName w.key) = []

instance (g : Graph) (tx : TxDataForProvenance) : Decidable (NewKeys g tx) :=
  inferInstanceAs (Decidable (∀ w ∈ tx.writes, w.metadata.isSome ∧
    tx.oldVersionOfWrites.lookup w.key = none ∧ g.outAll (constructCompositeKey tx.dbName w.key) = []))

theorem addWrites_of_newKeys (h : NewKeys g tx) :
    addWrites json g tx = .ok (tx.writes.map (writeQuads json tx)).flatten := by
  have hmap : tx.writes.mapM (addWrite json g tx) = .ok (tx.writes.map (writeQuads json tx)) :=
    Except.mapM_eq_ok_map fun w hw => addWrite_of_new_key (h w hw).1 (h w hw).2.1 (h w hw).2.2
  rw [addWrites, hmap, Except.ok_bind]
  rfl

/-- `Commit` of a block of one valid transaction. -/
theorem Commit_of_valid {writes : List (Quad String)} (hvalid : tx.isValid = true)
    (hwrites : addWrites json g tx = .ok writes) (blockNum : UInt64) :
    Commit json g blockNum [tx] = .ok (g.addQuads (validTxQuads blockNum 0 g tx writes)) := by
  simp [Commit, txQuads, hvalid, hwrites, validTxQuads]

theorem mem_addReads {q : Quad String} (h : q ∈ addReads g tx) :
    q.subject = tx.txID ∧ q.predicate = READS := by
  simp only [addReads, List.mem_filterMap, Option.map_eq_some_iff] at h
  obtain ⟨_, _, _, _, rfl⟩ := h
  exact ⟨rfl, rfl⟩

theorem mem_addDeletes {q : Quad String} (h : q ∈ addDeletes g tx) :
    q.subject = tx.txID ∧ q.predicate = DELETES := by
  simp only [addDeletes, List.mem_filterMap, Option.map_eq_some_iff] at h
  obtain ⟨_, _, _, _, rfl⟩ := h
  exact ⟨rfl, rfl⟩

/-- A write's edges: from its composite key, labelled with a version, or from the transaction,
labelled `WRITES`. -/
theorem mem_writeQuads {q : Quad String} :
    q ∈ (tx.writes.map (writeQuads json tx)).flatten →
      ∃ w ∈ tx.writes, (q.subject = constructCompositeKey tx.dbName w.key ∧
        q.predicate = versionText (w.metadata.bind (·.version))) ∨
        q = ⟨tx.txID, WRITES, valueVertex json tx.dbName w⟩ := by
  intro h
  obtain ⟨l, hl, hq⟩ := List.mem_flatten.1 h
  obtain ⟨w, hw, rfl⟩ := List.mem_map.1 hl
  refine ⟨w, hw, ?_⟩
  simp only [writeQuads, List.mem_cons, List.not_mem_nil, or_false] at hq
  rcases hq with rfl | rfl
  · exact Or.inl ⟨rfl, rfl⟩
  · exact Or.inr rfl

/-- A query that skips the edges from a write's composite key and takes those from the
transaction finds the written values. -/
theorem select_writeQuads {sel : Quad String → Bool} :
    ∀ {ws : List KVWithMetadata},
      (∀ w ∈ ws, sel ⟨constructCompositeKey tx.dbName w.key, versionText (w.metadata.bind (·.version)),
        valueVertex json tx.dbName w⟩ = false) →
      (∀ w ∈ ws, sel ⟨tx.txID, WRITES, valueVertex json tx.dbName w⟩ = true) →
      select sel Quad.object (ws.map (writeQuads json tx)).flatten = ws.map (valueVertex json tx.dbName)
  | [], _, _ => rfl
  | w :: ws, hkey, htx => by
    rw [List.map_cons, List.flatten_cons, select_append, writeQuads,
      select_cons_of_not_sel _ _ (hkey w List.mem_cons_self),
      select_cons_of_sel _ _ (htx w List.mem_cons_self), select_nil,
      select_writeQuads (fun w' hw' => hkey w' (List.mem_cons_of_mem _ hw'))
        (fun w' hw' => htx w' (List.mem_cons_of_mem _ hw'))]
    rfl

/-- The edges of a transaction past the two first carry `p` only when its writes' edges do. -/
theorem predicate_ne_of_mem_body {p : String} (hr : READS ≠ p) (hd : DELETES ≠ p)
    {writes : List (Quad String)} (hw : ∀ q ∈ writes, q.predicate ≠ p) :
    ∀ q ∈ addReads g tx ++ writes ++ addDeletes g tx, q.predicate ≠ p := by
  intro q hq
  simp only [List.mem_append] at hq
  rcases hq with (hq | hq) | hq
  · rw [(mem_addReads hq).2]
    exact hr
  · exact hw q hq
  · rw [(mem_addDeletes hq).2]
    exact hd

/-- **The submitting user.** After the commit of a valid transaction by a user who had
submitted nothing, the user's transactions are this one. -/
theorem GetTxIDsSubmittedByUser_Commit {writes : List (Quad String)}
    (hwrites : ∀ q ∈ writes, q.predicate ≠ SUBMITTED) (huser : g.out tx.userID SUBMITTED = [])
    (blockNum : UInt64) (txNum : Nat) :
    GetTxIDsSubmittedByUser (g.addQuads (validTxQuads blockNum txNum g tx writes)) tx.userID =
      [tx.txID] := by
  have hsel : select (fromWith tx.userID SUBMITTED) Quad.object (validTxQuads blockNum txNum g tx writes) =
      [tx.txID] := by
    rw [validTxQuads, select_cons_of_not_sel _ _ (by simp [fromWith, INCLUDES, SUBMITTED]),
      select_cons_of_sel _ _ (by simp [fromWith]),
      select_fromWith_eq_nil _ (predicate_ne_of_mem_body (by decide) (by decide) hwrites)]
  have hnew : ∀ q ∈ validTxQuads blockNum txNum g tx writes, fromWith tx.userID SUBMITTED q = true →
      q ∉ g.quads := fun _ _ hq => QuadStore.not_mem_of_select_eq_nil huser hq
  rw [GetTxIDsSubmittedByUser, QuadStore.out, QuadStore.select_addQuads hnew (hsel ▸ List.nodup_singleton _),
    hsel]
  exact congrArg (· ++ [tx.txID]) huser

/-- **The values a transaction wrote.** After the commit of a valid transaction whose id had
no `WRITES` edge, its `WRITES` edges lead to the values of its writes. -/
theorem out_Commit_writes (htx : g.out tx.txID WRITES = []) (hnodup : tx.writes.Nodup)
    (blockNum : UInt64) (txNum : Nat) :
    (g.addQuads (validTxQuads blockNum txNum g tx (tx.writes.map (writeQuads json tx)).flatten)).out
      tx.txID WRITES = tx.writes.map (valueVertex json tx.dbName) := by
  have hws : select (fromWith tx.txID WRITES) Quad.object (tx.writes.map (writeQuads json tx)).flatten =
      tx.writes.map (valueVertex json tx.dbName) :=
    select_writeQuads (fun w _ => by simp [fromWith, versionText_ne_WRITES]) (fun w _ => by simp [fromWith])
  have hsel : select (fromWith tx.txID WRITES) Quad.object
      (validTxQuads blockNum txNum g tx (tx.writes.map (writeQuads json tx)).flatten) =
      tx.writes.map (valueVertex json tx.dbName) := by
    rw [validTxQuads, select_cons_of_not_sel _ _ (by simp [fromWith, INCLUDES, WRITES]),
      select_cons_of_not_sel _ _ (by simp [fromWith, SUBMITTED, WRITES]), select_append, select_append,
      hws, select_fromWith_eq_nil _ fun q hq => (mem_addReads hq).2 ▸ by decide,
      select_fromWith_eq_nil _ fun q hq => (mem_addDeletes hq).2 ▸ by decide, List.nil_append,
      List.append_nil]
  have hnew : ∀ q ∈ validTxQuads blockNum txNum g tx (tx.writes.map (writeQuads json tx)).flatten,
      fromWith tx.txID WRITES q = true → q ∉ g.quads :=
    fun _ _ hq => QuadStore.not_mem_of_select_eq_nil htx hq
  have hnd : (tx.writes.map (valueVertex json tx.dbName)).Nodup := hnodup.map (valueVertex_injective _)
  rw [QuadStore.out, QuadStore.select_addQuads hnew (hsel ▸ hnd), hsel]
  exact congrArg (· ++ _) htx

theorem DBsKVs.append_nil (db : String) (kvs : List KVWithMetadata) :
    DBsKVs.append [] db kvs = [(db, kvs)] := rfl

theorem DBsKVs.append_single (db : String) (pre kvs : List KVWithMetadata) :
    DBsKVs.append [(db, pre)] db kvs = [(db, pre ++ kvs)] := by
  simp [DBsKVs.append]

/-- The value of a write, read back: its key split off at the first `$`. -/
theorem addVertexKV_valueVertex {dbName : String} (hdb : '$' ∉ dbName.toList) (acc : DBsKVs)
    (w : KVWithMetadata) :
    addVertexKV json acc (valueVertex json dbName w) = .ok (acc.append dbName [{ w with key := firstPiece w.key }]) := by
  rw [addVertexKV, valueVertex, json.Unmarshal_Marshal, Except.ok_bind,
    splitCompositeKey_constructCompositeKey hdb, Except.ok_bind]
  rfl

/-- **The values of a database read back.** The values written to one database, read back by
`verticesToKVs`, come under that database with their keys cut at the first `$`. -/
theorem verticesToKVs_valueVertex {dbName : String} (hdb : '$' ∉ dbName.toList) :
    ∀ {ws : List KVWithMetadata}, ws ≠ [] →
      verticesToKVs json (ws.map (valueVertex json dbName)) =
        .ok [(dbName, ws.map fun w => { w with key := firstPiece w.key })]
  | w :: ws, _ => by
    -- after the first value the entry of the database is there, and each value goes to its end
    have hrest : ∀ (ws : List KVWithMetadata) (pre : List KVWithMetadata),
        (ws.map (valueVertex json dbName)).foldlM (addVertexKV json) [(dbName, pre)] =
          .ok [(dbName, pre ++ ws.map fun w => { w with key := firstPiece w.key })] := by
      intro ws
      induction ws with
      | nil =>
        intro pre
        rw [List.map_nil, List.foldlM_nil, List.map_nil, List.append_nil]
        rfl
      | cons w' ws ih =>
        intro pre
        rw [List.map_cons, List.foldlM_cons, addVertexKV_valueVertex hdb, Except.ok_bind,
          DBsKVs.append_single, ih]
        simp
    rw [verticesToKVs, List.map_cons, List.foldlM_cons, addVertexKV_valueVertex hdb, Except.ok_bind,
      DBsKVs.append_nil, hrest, List.map_cons]
    rfl

/-- **The values a user wrote, keys cut at `$`.** Take any graph, and a valid transaction of a
valid database whose user had submitted nothing, whose id had written nothing, and whose
distinct writes go to keys that had no value before. The block of this transaction commits,
and `GetValuesWrittenByUser` then returns its writes under its database, each key cut before
its first `$`: a key with a `$` comes back as another key. -/
theorem GetValuesWrittenByUser_cuts_keys (blockNum : UInt64) (hvalid : tx.isValid = true)
    (hdb : ValidDBName tx.dbName = true) (huser : g.out tx.userID SUBMITTED = [])
    (htx : g.out tx.txID WRITES = []) (hnew : NewKeys g tx) (hne : tx.writes ≠ [])
    (hnodup : tx.writes.Nodup) :
    ∃ g', Commit json g blockNum [tx] = .ok g' ∧
      GetValuesWrittenByUser json g' tx.userID =
        .ok [(tx.dbName, tx.writes.map fun w => { w with key := firstPiece w.key })] := by
  refine ⟨_, Commit_of_valid hvalid (addWrites_of_newKeys hnew) blockNum, ?_⟩
  have hsub : ∀ q ∈ (tx.writes.map (writeQuads json tx)).flatten, q.predicate ≠ SUBMITTED := by
    intro q hq
    obtain ⟨w, -, ⟨-, hp⟩ | rfl⟩ := mem_writeQuads hq
    · rw [hp]
      exact versionText_ne_SUBMITTED _
    · show WRITES ≠ SUBMITTED
      decide
  rw [GetValuesWrittenByUser, GetTxIDsSubmittedByUser_Commit hsub huser, outEdgesFrom, List.foldlM_cons,
    verticesToKVs, ← verticesToKVs, out_Commit_writes htx hnodup,
    verticesToKVs_valueVertex (dollar_not_mem_of_ValidDBName hdb) hne, Except.ok_bind]
  rfl

/-- **The edges from a transaction id.** After the commit of a valid transaction that reads and
deletes nothing, whose id had no edges and is neither its user nor the composite key of a key
it writes, the edges from the id lead to the values of its writes: also when the id is itself
the composite key of a key of a valid database. -/
theorem outAll_Commit_txID {dbName key : String} (hdb : ValidDBName dbName = true)
    (hid : tx.txID = constructCompositeKey dbName key) (huser : tx.userID ≠ tx.txID)
    (hreads : tx.reads = []) (hdeletes : tx.deletes = [])
    (hkeys : ∀ w ∈ tx.writes, constructCompositeKey tx.dbName w.key ≠ tx.txID)
    (hfresh : g.outAll tx.txID = []) (hnodup : tx.writes.Nodup) (blockNum : UInt64) (txNum : Nat) :
    (g.addQuads (validTxQuads blockNum txNum g tx (tx.writes.map (writeQuads json tx)).flatten)).outAll
      tx.txID = tx.writes.map (valueVertex json tx.dbName) := by
  have hws : select (fromAny tx.txID) Quad.object (tx.writes.map (writeQuads json tx)).flatten =
      tx.writes.map (valueVertex json tx.dbName) :=
    select_writeQuads (fun w hw => by simp [fromAny, hkeys w hw]) (fun w _ => by simp [fromAny])
  have hloc : fromAny tx.txID ⟨locationText ⟨blockNum, txNum⟩, INCLUDES, tx.txID⟩ = false := by
    rw [fromAny, decide_eq_false_iff_not, hid]
    exact locationText_ne_constructCompositeKey hdb _ _
  have hsel : select (fromAny tx.txID) Quad.object
      (validTxQuads blockNum txNum g tx (tx.writes.map (writeQuads json tx)).flatten) =
      tx.writes.map (valueVertex json tx.dbName) := by
    rw [validTxQuads, select_cons_of_not_sel _ _ hloc, select_cons_of_not_sel _ _ (by simp [fromAny, huser]),
      select_append, select_append, hws]
    simp [addReads, addDeletes, hreads, hdeletes]
  have hnew : ∀ q ∈ validTxQuads blockNum txNum g tx (tx.writes.map (writeQuads json tx)).flatten,
      fromAny tx.txID q = true → q ∉ g.quads :=
    fun _ _ hq => QuadStore.not_mem_of_select_eq_nil hfresh hq
  have hnd : (tx.writes.map (valueVertex json tx.dbName)).Nodup := hnodup.map (valueVertex_injective _)
  rw [QuadStore.outAll, QuadStore.select_addQuads hnew (hsel ▸ hnd), hsel]
  exact congrArg (· ++ _) hfresh

theorem vertexToValue_valueVertex (dbName : String) (w : KVWithMetadata) :
    vertexToValue json (valueVertex json dbName w) = .ok ⟨w.value, w.metadata⟩ := by
  rw [vertexToValue, valueVertex, json.Unmarshal_Marshal, Except.ok_bind]
  rfl

/-- **A transaction id read as a key.** Take any graph where the vertex `db$key`, of a valid
database `db`, has no edges: no value of `key` was ever written. A valid transaction whose id
is `db$key`, and which writes one value, of version `v`, to another key that had no value
before, commits; afterwards `GetMostRecentValueAtOrBelow(db, key, version)`, for any `version`
at or above `v`, returns the value of that other key. -/
theorem GetMostRecentValueAtOrBelow_of_txID_as_key (blockNum : UInt64) {dbName key : String}
    {w : KVWithMetadata} {v version : Version} {acl : Option AccessControl}
    (hvalid : tx.isValid = true) (hdb : ValidDBName dbName = true)
    (hid : tx.txID = constructCompositeKey dbName key) (hfresh : g.outAll tx.txID = [])
    (huser : tx.userID ≠ tx.txID) (hreads : tx.reads = []) (hdeletes : tx.deletes = [])
    (hwrites : tx.writes = [w]) (hmeta : w.metadata = some ⟨some v, acl⟩)
    (hold : tx.oldVersionOfWrites.lookup w.key = none)
    (hkey : g.outAll (constructCompositeKey tx.dbName w.key) = [])
    (hother : constructCompositeKey tx.dbName w.key ≠ tx.txID) (hle : atOrBelow v version = true) :
    ∃ g', Commit json g blockNum [tx] = .ok g' ∧
      GetMostRecentValueAtOrBelow json g' dbName key version = .ok (some ⟨w.value, w.metadata⟩) := by
  have hnew : NewKeys g tx := by
    intro w' hw'
    rw [hwrites, List.mem_singleton] at hw'
    subst hw'
    exact ⟨by simp [hmeta], hold, hkey⟩
  have hkeys : ∀ w' ∈ tx.writes, constructCompositeKey tx.dbName w'.key ≠ tx.txID := by
    intro w' hw'
    rw [hwrites, List.mem_singleton] at hw'
    exact hw' ▸ hother
  refine ⟨_, Commit_of_valid hvalid (addWrites_of_newKeys hnew) blockNum, ?_⟩
  have hvalues : GetValues json (g.addQuads (validTxQuads blockNum 0 g tx
      (tx.writes.map (writeQuads json tx)).flatten)) dbName key = .ok [⟨w.value, w.metadata⟩] := by
    rw [GetValues, ← hid, outAll_Commit_txID hdb hid huser hreads hdeletes hkeys hfresh
      (hwrites ▸ List.nodup_singleton w), hwrites, List.map_singleton, verticesToValues, List.mapM_cons,
      vertexToValue_valueVertex, Except.ok_bind, List.mapM_nil]
    rfl
  rw [GetMostRecentValueAtOrBelow, hvalues, Except.ok_bind]
  simp [versionOf, hmeta, hle]

end Commit

/-! ### Two commits of one transaction -/

deriving instance Encodable for KVWithMetadata

instance : Inhabited KVWithMetadata := ⟨⟨"", [], none⟩⟩

/-- Alice's transaction `tx1` writes `[1]` to the key `a$b` of `bdb`, in block `1`. -/
def dollarKeyTx : TxDataForProvenance :=
  ⟨true, "bdb", "alice", "tx1", [], [⟨"a$b", [1], some ⟨some ⟨1, 0⟩, none⟩⟩], [], []⟩

/-- After the commit of `dollarKeyTx` into an empty graph, Alice's writes come back with the key
`a`. -/
theorem GetValuesWrittenByUser_of_dollar_key :
    dollarKeyTx.isValid = true ∧ ValidDBName dollarKeyTx.dbName = true ∧
      QuadStore.empty.out dollarKeyTx.userID SUBMITTED = [] ∧ QuadStore.empty.out dollarKeyTx.txID WRITES = [] ∧
      NewKeys QuadStore.empty dollarKeyTx ∧ dollarKeyTx.writes ≠ [] ∧ dollarKeyTx.writes.Nodup ∧
      firstPiece "a$b" = "a" ∧
      ∃ g', Commit (TextCodec.ofEncodable KVWithMetadata) QuadStore.empty 1 [dollarKeyTx] = .ok g' ∧
        GetValuesWrittenByUser (TextCodec.ofEncodable KVWithMetadata) g' dollarKeyTx.userID =
          .ok [(dollarKeyTx.dbName, dollarKeyTx.writes.map fun w => { w with key := firstPiece w.key })] :=
  ⟨rfl, by decide, rfl, rfl, by decide, by decide, by decide, by decide,
    GetValuesWrittenByUser_cuts_keys 1 rfl (by decide) rfl rfl (by decide) (by decide) (by decide)⟩

/-- Alice's transaction with the id `bdb$k` writes `[1]` to the key `j` of `bdb`, in block `1`. -/
def txIDAsKeyTx : TxDataForProvenance :=
  ⟨true, "bdb", "alice", "bdb$k", [], [⟨"j", [1], some ⟨some ⟨1, 0⟩, none⟩⟩], [], []⟩

/-- After the commit of `txIDAsKeyTx` into an empty graph, the most recent value of the key `k`
of `bdb`, which nothing wrote, is the value of `j`. -/
theorem GetMostRecentValueAtOrBelow_of_txID_bdb_k :
    txIDAsKeyTx.isValid = true ∧ ValidDBName "bdb" = true ∧
      txIDAsKeyTx.txID = constructCompositeKey "bdb" "k" ∧ QuadStore.empty.outAll txIDAsKeyTx.txID = [] ∧
      txIDAsKeyTx.userID ≠ txIDAsKeyTx.txID ∧ txIDAsKeyTx.reads = [] ∧ txIDAsKeyTx.deletes = [] ∧
      txIDAsKeyTx.writes = [⟨"j", [1], some ⟨some ⟨1, 0⟩, none⟩⟩] ∧
      txIDAsKeyTx.oldVersionOfWrites.lookup "j" = none ∧
      QuadStore.empty.outAll (constructCompositeKey txIDAsKeyTx.dbName "j") = [] ∧
      constructCompositeKey txIDAsKeyTx.dbName "j" ≠ txIDAsKeyTx.txID ∧ atOrBelow ⟨1, 0⟩ ⟨1, 0⟩ = true ∧
      ∃ g', Commit (TextCodec.ofEncodable KVWithMetadata) QuadStore.empty 1 [txIDAsKeyTx] = .ok g' ∧
        GetMostRecentValueAtOrBelow (TextCodec.ofEncodable KVWithMetadata) g' "bdb" "k" ⟨1, 0⟩ =
          .ok (some ⟨[1], some ⟨some ⟨1, 0⟩, none⟩⟩) :=
  ⟨rfl, by decide, by decide, rfl, by decide, rfl, rfl, rfl, rfl, rfl, by decide, by decide,
    GetMostRecentValueAtOrBelow_of_txID_as_key 1 (w := ⟨"j", [1], some ⟨some ⟨1, 0⟩, none⟩⟩) rfl (by decide)
      (by decide) rfl (by decide) rfl rfl rfl rfl rfl rfl (by decide) (by decide)⟩

end Orion.Provenance
