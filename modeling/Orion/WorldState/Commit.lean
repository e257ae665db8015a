import Orion.WorldState.DB
import Orion.Lib.PointUpdate

/-!
# Committing a block's updates to the world state (`worldstate/leveldb/commit_and_query.go`)

`Commit` takes the updates of a block, database by database in the order its map is ranged
over, and writes each database's batch (`commitToDB`): the writes, then the deletes, in one
leveldb batch. The batch of the system database `_dbs` also creates the database each write
names and deletes the database each delete names (`create`, `delete`). Last, the block number
is stored as the height. A crash between two batches leaves the batches before it written
(`commitBatches` over a prefix of the map's order).

A database `create` opens is empty: `delete` removes a database's files with it. Writes to
leveldb are taken to succeed; an update of a database that does not exist fails the commit,
with Go's message.
-/

namespace Orion.WorldState

open Orion.State Orion.Types Orion.Lib

/-- `KVWithMetadata`: a key written, with its value and metadata. -/
structure KVWithMetadata where
  key : String
  value : Bytes
  metadata : Option Metadata
  deriving DecidableEq, Repr

/-- `DBUpdates`: the writes and the deletes of one database. -/
structure DBUpdates where
  writes : List KVWithMetadata
  deletes : List String
  deriving DecidableEq, Repr

/-- A Go `map[string]*DBUpdates`, its entries in one iteration order, each name once. -/
abbrev DBsUpdates := List (String × DBUpdates)

/-- `m[dbName] = updates`: the entry replaced where it is, or added at the end. -/
def DBsUpdates.set (m : DBsUpdates) (dbName : String) (updates : DBUpdates) : DBsUpdates :=
  if m.any (·.1 == dbName) then m.map fun e => if e.1 = dbName then (dbName, updates) else e
  else m ++ [(dbName, updates)]

/-- After `m[dbName] = updates`, an entry is the one set or an entry of another database that
was there. -/
theorem DBsUpdates.mem_set {m : DBsUpdates} {dbName : String} {updates : DBUpdates}
    {e : String × DBUpdates} (he : e ∈ m.set dbName updates) :
    e = (dbName, updates) ∨ (e ∈ m ∧ e.1 ≠ dbName) := by
  unfold DBsUpdates.set at he
  split_ifs at he with hany
  · obtain ⟨e', he', rfl⟩ := List.mem_map.1 he
    by_cases hname : e'.1 = dbName
    · exact .inl (if_pos hname)
    · rw [if_neg hname]
      exact .inr ⟨he', hname⟩
  · rcases List.mem_append.1 he with he | he
    · refine .inr ⟨he, fun hname => hany ?_⟩
      exact List.any_eq_true.2 ⟨e, he, by simp [hname]⟩
    · exact .inl (List.mem_singleton.1 he)

/-- Setting another database leaves the first entry where it is. -/
theorem DBsUpdates.set_cons_of_ne {dbName dbName' : String} (hne : dbName ≠ dbName')
    (updates updates' : DBUpdates) (m : DBsUpdates) :
    DBsUpdates.set ((dbName, updates) :: m) dbName' updates' = (dbName, updates) :: m.set dbName' updates' := by
  have hbeq : (dbName == dbName') = false := by simpa using hne
  unfold DBsUpdates.set
  simp only [List.any_cons, hbeq, Bool.false_or, List.map_cons, if_neg hne, List.cons_append]
  split_ifs <;> rfl

/-- `m[dbName] = updates` names each database once when `m` does. -/
theorem DBsUpdates.nodup_set {m : DBsUpdates} (h : (m.map Prod.fst).Nodup) (dbName : String)
    (updates : DBUpdates) : ((m.set dbName updates).map Prod.fst).Nodup := by
  unfold DBsUpdates.set
  split_ifs with hany
  · -- the names are those of `m`
    have hnames : (m.map fun e => if e.1 = dbName then (dbName, updates) else e).map Prod.fst =
        m.map Prod.fst := by
      rw [List.map_map]
      refine List.map_congr_left fun e _ => ?_
      by_cases he : e.1 = dbName
      · simp [he]
      · simp [he]
    rw [hnames]
    exact h
  · have hnot : ∀ e ∈ m, e.1 ≠ dbName := fun e he hname =>
      hany (List.any_eq_true.2 ⟨e, he, by simp [hname]⟩)
    rw [List.map_append, List.nodup_append]
    refine ⟨h, List.nodup_singleton _, fun a ha b hb hab => ?_⟩
    obtain ⟨e, he, rfl⟩ := List.mem_map.1 ha
    rw [List.map_singleton, List.mem_singleton] at hb
    exact hnot e he (hab.trans hb)

/-- A database named once has one entry: the one `lookup` finds. -/
theorem DBsUpdates.filter_eq_lookup {m : DBsUpdates} (h : (m.map Prod.fst).Nodup) (dbName : String) :
    m.filter (·.1 = dbName) = ((m.lookup dbName).map fun updates => (dbName, updates)).toList := by
  induction m with
  | nil => rfl
  | cons e rest ih =>
    obtain ⟨name, updates⟩ := e
    rw [List.map_cons, List.nodup_cons] at h
    by_cases hname : name = dbName
    · subst hname
      -- no later entry is of the same database
      have hrest : rest.filter (·.1 = name) = [] := by
        refine List.filter_eq_nil_iff.2 fun e he heq => h.1 ?_
        show name ∈ rest.map Prod.fst
        rw [← of_decide_eq_true heq]
        exact List.mem_map_of_mem he
      rw [List.filter_cons_of_pos (by simp), hrest, List.lookup_cons_self]
      rfl
    · rw [List.filter_cons_of_neg (by simpa using hname), ih h.2, List.lookup_cons]
      have hbeq : (dbName == name) = false := by simpa using Ne.symm hname
      rw [hbeq]

/-- After `m[dbName] = updates`, the database has that one entry. -/
theorem DBsUpdates.filter_set_self {m : DBsUpdates} (h : (m.map Prod.fst).Nodup) (dbName : String)
    (updates : DBUpdates) : (m.set dbName updates).filter (·.1 = dbName) = [(dbName, updates)] := by
  induction m with
  | nil => simp [DBsUpdates.set]
  | cons e rest ih =>
    rw [List.map_cons, List.nodup_cons] at h
    by_cases hname : e.1 = dbName
    · -- the first entry is replaced, and no later one is of the database
      have hnot : ∀ e' ∈ rest, e'.1 ≠ dbName := fun e' he' hname' =>
        h.1 (hname ▸ hname' ▸ List.mem_map_of_mem he')
      have hany : (e :: rest).any (·.1 == dbName) = true := by simp [hname]
      unfold DBsUpdates.set
      rw [if_pos hany, List.map_cons, if_pos hname, List.filter_cons_of_pos (by simp),
        List.filter_eq_nil_iff.2]
      intro e' he' heq
      obtain ⟨e'', he'', rfl⟩ := List.mem_map.1 he'
      rw [if_neg (hnot e'' he'')] at heq
      exact hnot e'' he'' (of_decide_eq_true heq)
    · obtain ⟨name, updates'⟩ := e
      rw [DBsUpdates.set_cons_of_ne hname, List.filter_cons_of_neg (by simpa using hname)]
      exact ih h.2

section SetAll

-- the loop of `commitToStateDB` that sets the batch of each index database
variable {setAll : DBsUpdates → String × DBUpdates → DBsUpdates}
  (hset : ∀ m e, setAll m e = m.set e.1 e.2)
include hset

/-- After setting a list of batches, each entry was there or is one of them. -/
theorem mem_foldl_set : ∀ {us m : DBsUpdates} {e : String × DBUpdates}, e ∈ us.foldl setAll m →
    e ∈ m ∨ e ∈ us
  | [], _, _, he => .inl he
  | u :: us, m, e, he => by
    rw [List.foldl_cons] at he
    rcases mem_foldl_set he with he | he
    · rw [hset] at he
      rcases DBsUpdates.mem_set he with rfl | ⟨he, -⟩
      · exact .inr List.mem_cons_self
      · exact .inl he
    · exact .inr (List.mem_cons_of_mem _ he)

/-- Setting batches of other databases leaves the first entry where it is. -/
theorem foldl_set_cons {dbName : String} {updates : DBUpdates} :
    ∀ {us m : DBsUpdates}, (∀ e ∈ us, e.1 ≠ dbName) →
      us.foldl setAll ((dbName, updates) :: m) = (dbName, updates) :: us.foldl setAll m
  | [], _, _ => rfl
  | u :: us, m, hne => by
    rw [List.foldl_cons, List.foldl_cons, hset, hset,
      DBsUpdates.set_cons_of_ne (Ne.symm (hne u List.mem_cons_self))]
    exact foldl_set_cons fun e he => hne e (List.mem_cons_of_mem _ he)

end SetAll

/-- The batch of `commitToDB` on one database: each write puts the value with its metadata,
then each delete removes its key. -/
def applyBatch (db : KVStore) (updates : DBUpdates) : KVStore :=
  let db : KVStore := updates.writes.foldl
    (fun (db : KVStore) kv => Function.update db kv.key (some ⟨kv.value, kv.metadata⟩)) db
  updates.deletes.foldl (fun (db : KVStore) key => Function.update db key none) db

/-- The point updates of a batch: its writes, then its deletes. -/
def DBUpdates.pointUpdates (updates : DBUpdates) : List (String × Option ValueWithMetadata) :=
  updates.writes.map (fun kv => (kv.key, some ⟨kv.value, kv.metadata⟩)) ++
    updates.deletes.map fun key => (key, none)

/-- The databases after the batches of databases other than `_dbs`: each batch applied to its
database, in order. -/
def applyBatches (dbs : String → Option KVStore) (dbsUpdates : DBsUpdates) : String → Option KVStore :=
  dbsUpdates.foldl (fun dbs e => Function.update dbs e.1 ((dbs e.1).map (applyBatch · e.2))) dbs

namespace LevelDB

/-- `Height`: the last committed block, `0` before the first. -/
def Height (l : LevelDB) : UInt64 := l.height.getD 0

/-- `GetIndexDefinition`: the value `_dbs` holds for a database, `nil` when it has no index. -/
def GetIndexDefinition (l : LevelDB) (dbName : String) : Except String (Bytes × Option Metadata) :=
  l.Get DatabasesDBName dbName

/-- `create`: a new empty database, unless one of that name exists. -/
def create (l : LevelDB) (dbName : String) : LevelDB :=
  if (l.dbs dbName).isSome then l
  else { l with dbs := Function.update l.dbs dbName (some fun _ => none) }

/-- `preCreateDBs`: the system databases and the default database. -/
def preCreateDBs : List String :=
  [UsersDBName, DatabasesDBName, ConfigDBName, MetadataDBName, DefaultDBName]

/-- `Open` on an empty directory: the databases of `preCreateDBs`, empty, and no height. -/
def Open : LevelDB := preCreateDBs.foldl create ⟨fun _ => none, none⟩

/-- `delete`: the database and its files are gone; nothing happens when it does not exist. -/
def delete (l : LevelDB) (dbName : String) : LevelDB :=
  { l with dbs := Function.update l.dbs dbName none }

/-- `commitToDB`: the batch of one database; for `_dbs`, then the databases its writes create
and its deletes delete. -/
def commitToDB (l : LevelDB) (dbName : String) (db : KVStore) (updates : DBUpdates) : LevelDB :=
  let l := { l with dbs := Function.update l.dbs dbName (some (applyBatch db updates)) }
  if dbName != DatabasesDBName then l
  else
    let l := updates.writes.foldl (fun l kv => l.create kv.key) l
    updates.deletes.foldl (fun l dbName => l.delete dbName) l

/-- The loop of `Commit` over the databases' batches. -/
def commitBatches (l : LevelDB) (dbsUpdates : DBsUpdates) : Except String LevelDB :=
  dbsUpdates.foldlM (fun l (dbName, updates) =>
    match l.dbs dbName with
    | none => .error ("database " ++ dbName ++ " does not exist")
    | some db => .ok (l.commitToDB dbName db updates)) l

/-- `Commit`: every batch, then the block number as the height. -/
def Commit (l : LevelDB) (dbsUpdates : DBsUpdates) (blockNumber : UInt64) : Except String LevelDB := do
  let l ← l.commitBatches dbsUpdates
  if (l.dbs MetadataDBName).isNone then throw "metadata database does not exist"
  pure { l with height := some blockNumber }

/-! ### What a commit does to each database -/

/-- Batches of existing databases other than `_dbs` are each applied to their database. -/
theorem commitBatches_eq : ∀ {l : LevelDB} {dbsUpdates : DBsUpdates},
    (∀ e ∈ dbsUpdates, e.1 ≠ DatabasesDBName ∧ (l.dbs e.1).isSome) →
      l.commitBatches dbsUpdates = .ok { l with dbs := applyBatches l.dbs dbsUpdates }
  | _, [], _ => rfl
  | l, (dbName, updates) :: rest, h => by
    obtain ⟨hne, hsome⟩ := h _ List.mem_cons_self
    obtain ⟨db, hdb⟩ := Option.isSome_iff_exists.1 hsome
    -- the first batch, then the rest on a world state whose databases all still exist
    let l₁ : LevelDB := { l with dbs := Function.update l.dbs dbName (some (applyBatch db updates)) }
    have hfirst : l.commitToDB dbName db updates = l₁ := by
      rw [commitToDB, if_pos (by simpa using hne)]
    have hrest : ∀ e ∈ rest, e.1 ≠ DatabasesDBName ∧ (l₁.dbs e.1).isSome := by
      intro e he
      refine ⟨(h e (List.mem_cons_of_mem _ he)).1, ?_⟩
      by_cases hname : e.1 = dbName
      · simp only [l₁, hname, Function.update_self, Option.isSome_some]
      · simp only [l₁, Function.update_of_ne hname]
        exact (h e (List.mem_cons_of_mem _ he)).2
    have hstep := commitBatches_eq hrest
    rw [commitBatches, List.foldlM_cons]
    simp only [hdb, hfirst, Except.ok_bind]
    rw [← commitBatches, hstep]
    simp only [applyBatches, List.foldl_cons, hdb, Option.map_some, l₁]

/-- A commit of batches of databases other than `_dbs` that succeeds applied each batch to its
database. -/
theorem commitBatches_of_ok : ∀ {l l' : LevelDB} {dbsUpdates : DBsUpdates},
    (∀ e ∈ dbsUpdates, e.1 ≠ DatabasesDBName) → l.commitBatches dbsUpdates = .ok l' →
      l' = { l with dbs := applyBatches l.dbs dbsUpdates }
  | _, _, [], _, h => by
    cases h
    rfl
  | l, l', (dbName, updates) :: rest, hne, h => by
    have hne₁ : dbName ≠ DatabasesDBName := hne _ List.mem_cons_self
    rw [commitBatches, List.foldlM_cons] at h
    cases hdb : l.dbs dbName with
    | none =>
      -- a batch of a database that does not exist fails the commit
      simp only [hdb, Except.error_bind] at h
      cases h
    | some db =>
      simp only [hdb, Except.ok_bind] at h
      rw [← commitBatches] at h
      rw [commitBatches_of_ok (fun e he => hne e (List.mem_cons_of_mem _ he)) h, commitToDB,
        if_pos (by simpa using hne₁)]
      simp only [applyBatches, List.foldl_cons, hdb, Option.map_some]

/-- The databases after a commit that succeeds. -/
theorem dbs_of_Commit {l l' : LevelDB} {dbsUpdates : DBsUpdates} {blockNumber : UInt64}
    (hne : ∀ e ∈ dbsUpdates, e.1 ≠ DatabasesDBName) (h : l.Commit dbsUpdates blockNumber = .ok l') :
    l'.dbs = applyBatches l.dbs dbsUpdates := by
  obtain ⟨l₁, hbatches, hheight⟩ := Except.bind_eq_ok.1 h
  rw [commitBatches_of_ok hne hbatches] at hheight
  split_ifs at hheight
  · -- without the metadata database the commit fails
    simp [throw, throwThe, MonadExceptOf.throw] at hheight
  · simp only [pure, Except.pure, Except.ok.injEq] at hheight
    rw [← hheight]

/-- Batches never create or drop a database. -/
theorem isSome_applyBatches (dbs : String → Option KVStore) :
    ∀ (dbsUpdates : DBsUpdates) (dbName : String),
      (applyBatches dbs dbsUpdates dbName).isSome = (dbs dbName).isSome := by
  intro dbsUpdates
  induction dbsUpdates generalizing dbs with
  | nil => exact fun _ => rfl
  | cons e rest ih =>
    intro dbName
    rw [applyBatches, List.foldl_cons, ← applyBatches, ih]
    by_cases hname : dbName = e.1
    · rw [hname, Function.update_self, Option.isSome_map]
    · rw [Function.update_of_ne hname]

/-- `create` adds only empty databases. -/
theorem create_dbs_empty {l : LevelDB} (hl : ∀ n db, l.dbs n = some db → db = fun _ => none)
    (dbName : String) : ∀ n db, (l.create dbName).dbs n = some db → db = fun _ => none := by
  intro n db h
  unfold create at h
  split_ifs at h
  · exact hl n db h
  · dsimp only at h
    by_cases hn : n = dbName
    · rw [hn, Function.update_self] at h
      exact (Option.some.inj h).symm
    · rw [Function.update_of_ne hn] at h
      exact hl n db h

/-- The databases of a new world state are empty. -/
theorem Open_dbs_empty : ∀ n db, Open.dbs n = some db → db = fun _ => none := by
  -- each database the loop creates is empty
  have hloop : ∀ (names : List String) (l : LevelDB),
      (∀ n db, l.dbs n = some db → db = fun _ => none) →
      ∀ n db, (names.foldl create l).dbs n = some db → db = fun _ => none := by
    intro names
    induction names with
    | nil => exact fun _ hl => hl
    | cons name names ih => exact fun l hl => ih _ (create_dbs_empty hl name)
  exact hloop _ _ fun _ _ h => nomatch h

/-- Before the genesis block, `GetConfig` reads the empty configuration. -/
theorem GetConfig_Open (codec : ProtoCodec ClusterConfig) : Open.GetConfig codec = .ok (default, none) := by
  obtain ⟨db, hdb⟩ := Option.isSome_iff_exists.1
    (show (Open.dbs ConfigDBName).isSome = true by decide)
  have hempty := Open_dbs_empty _ _ hdb
  simp only [GetConfig, Get, hdb, hempty, Except.ok_bind, codec.Unmarshal_nil]
  rfl

/-- A new world state has committed no block. -/
theorem Height_Open : Open.Height = 0 := rfl

/-- A new world state has no index definition. -/
theorem GetIndexDefinition_Open (dbName : String) : Open.GetIndexDefinition dbName = .ok ([], none) := by
  obtain ⟨db, hdb⟩ := Option.isSome_iff_exists.1
    (show (Open.dbs DatabasesDBName).isSome = true by decide)
  simp only [GetIndexDefinition, Get, hdb, Open_dbs_empty _ _ hdb]

end LevelDB

/-- A batch is the point updates of its writes, then of its deletes. -/
theorem applyBatch_eq (db : KVStore) (updates : DBUpdates) :
    applyBatch db updates = applyUpdates
      (applyUpdates db (updates.writes.map fun kv => (kv.key, some ⟨kv.value, kv.metadata⟩)))
      (updates.deletes.map fun key => (key, none)) := by
  simp only [applyBatch, applyUpdates, List.foldl_map]

/-- A batch is the point updates of its writes and deletes, in one list. -/
theorem applyBatch_eq_applyUpdates (db : KVStore) (updates : DBUpdates) :
    applyBatch db updates = applyUpdates db updates.pointUpdates := by
  rw [applyBatch_eq, DBUpdates.pointUpdates, applyUpdates_append]

/-- Writes and deletes appended to a batch give its point updates and theirs, the writes moved
before the batch's deletes. -/
theorem DBUpdates.pointUpdates_append (u : DBUpdates) (writes : List KVWithMetadata)
    (deletes : List String) :
    (⟨u.writes ++ writes, u.deletes ++ deletes⟩ : DBUpdates).pointUpdates.Perm
      (u.pointUpdates ++ (⟨writes, deletes⟩ : DBUpdates).pointUpdates) := by
  simp only [DBUpdates.pointUpdates, List.map_append, List.append_assoc]
  exact List.Perm.append_left _ (List.perm_append_comm_assoc _ _ _)

/-- A key no delete names holds the value of its last write. -/
theorem applyBatch_of_last_write {db : KVStore} {pre post : List KVWithMetadata}
    {kv : KVWithMetadata} {deletes : List String} (hpost : kv.key ∉ post.map (·.key))
    (hdel : kv.key ∉ deletes) :
    applyBatch db ⟨pre ++ kv :: post, deletes⟩ kv.key = some ⟨kv.value, kv.metadata⟩ := by
  have hpost' : kv.key ∉ (post.map fun kv => (kv.key, some (⟨kv.value, kv.metadata⟩ :
      ValueWithMetadata))).map Prod.fst := by
    rwa [List.map_map]
  have hdel' : kv.key ∉ (deletes.map fun key => (key, (none : Option ValueWithMetadata))).map
      Prod.fst := by
    simpa [List.map_map, Function.comp_def] using hdel
  rw [applyBatch_eq, applyUpdates_of_not_mem hdel', List.map_append, List.map_cons]
  exact applyUpdates_last hpost' db

/-- A deleted key has no value. -/
theorem applyBatch_of_mem_deletes {db : KVStore} {updates : DBUpdates} {key : String}
    (h : key ∈ updates.deletes) : applyBatch db updates key = none := by
  have hmem : key ∈ (updates.deletes.map fun key => (key, (none : Option ValueWithMetadata))).map
      Prod.fst := by
    simpa [List.map_map, Function.comp_def] using h
  rw [applyBatch_eq]
  obtain ⟨key', -, hkey⟩ := List.mem_map.1 (applyUpdates_mem_of_mem hmem _)
  exact (congrArg Prod.snd hkey).symm

/-- A key the batch neither writes nor deletes keeps its value. -/
theorem applyBatch_of_not_mem {db : KVStore} {updates : DBUpdates} {key : String}
    (hw : key ∉ updates.writes.map (·.key)) (hd : key ∉ updates.deletes) :
    applyBatch db updates key = db key := by
  rw [applyBatch_eq, applyUpdates_of_not_mem (by simpa [List.map_map, Function.comp_def] using hd),
    applyUpdates_of_not_mem (by simpa [List.map_map, Function.comp_def] using hw)]

/-- A key written once and not deleted holds the value written. -/
theorem applyBatch_of_mem_writes {db : KVStore} {updates : DBUpdates} {kv : KVWithMetadata}
    (hnodup : (updates.writes.map (·.key)).Nodup) (hkv : kv ∈ updates.writes)
    (hd : kv.key ∉ updates.deletes) :
    applyBatch db updates kv.key = some ⟨kv.value, kv.metadata⟩ := by
  rw [applyBatch_eq, applyUpdates_of_not_mem (by simpa [List.map_map, Function.comp_def] using hd)]
  refine applyUpdates_of_mem ?_
    (List.mem_map_of_mem (f := fun kv => (kv.key, some (⟨kv.value, kv.metadata⟩ : ValueWithMetadata))) hkv) db
  simpa [List.map_map, Function.comp_def] using hnodup

/-- After a batch, a key is deleted, holds a value written to it, or keeps its value. -/
theorem applyBatch_cases (db : KVStore) (updates : DBUpdates) (key : String) :
    (key ∈ updates.deletes ∧ applyBatch db updates key = none) ∨
      (∃ kv ∈ updates.writes, kv.key = key ∧ applyBatch db updates key = some ⟨kv.value, kv.metadata⟩) ∨
      applyBatch db updates key = db key := by
  by_cases hd : key ∈ updates.deletes
  · exact .inl ⟨hd, applyBatch_of_mem_deletes hd⟩
  by_cases hw : key ∈ updates.writes.map (·.key)
  · -- the value is that of one of the writes to the key
    have hw' : key ∈ (updates.writes.map fun kv =>
        (kv.key, some (⟨kv.value, kv.metadata⟩ : ValueWithMetadata))).map Prod.fst := by
      simpa [List.map_map, Function.comp_def] using hw
    obtain ⟨kv, hkv, hkey⟩ := List.mem_map.1 (applyUpdates_mem_of_mem hw' db)
    refine .inr (.inl ⟨kv, hkv, congrArg Prod.fst hkey, ?_⟩)
    rw [applyBatch_eq, applyUpdates_of_not_mem (by simpa [List.map_map, Function.comp_def] using hd)]
    exact (congrArg Prod.snd hkey).symm
  · exact .inr (.inr (applyBatch_of_not_mem hw hd))

/-- A database gets the batches of its entries, in order. -/
theorem applyBatches_apply (dbs : String → Option KVStore) (dbsUpdates : DBsUpdates) (dbName : String) :
    applyBatches dbs dbsUpdates dbName =
      (dbsUpdates.filter (·.1 = dbName)).foldl (fun db e => db.map (applyBatch · e.2)) (dbs dbName) := by
  induction dbsUpdates generalizing dbs with
  | nil => rfl
  | cons e rest ih =>
    rw [applyBatches, List.foldl_cons, ← applyBatches, ih]
    by_cases hname : e.1 = dbName
    · rw [List.filter_cons_of_pos (by simpa using hname), List.foldl_cons, ← hname,
        Function.update_self]
    · rw [List.filter_cons_of_neg (by simpa using hname), Function.update_of_ne (Ne.symm hname)]

/-- A database gets the point updates of its batches, in order. -/
theorem applyBatches_eq_applyUpdates (dbs : String → Option KVStore) (dbsUpdates : DBsUpdates)
    (dbName : String) : applyBatches dbs dbsUpdates dbName = (dbs dbName).map fun db =>
      applyUpdates db ((dbsUpdates.filter (·.1 = dbName)).flatMap fun e => e.2.pointUpdates) := by
  rw [applyBatches_apply]
  generalize dbsUpdates.filter (·.1 = dbName) = batches
  generalize dbs dbName = store
  induction batches generalizing store with
  | nil => cases store <;> rfl
  | cons e rest ih =>
    rw [List.foldl_cons, ih, Option.map_map, List.flatMap_cons]
    congr 1
    funext db
    rw [Function.comp_apply, applyBatch_eq_applyUpdates, applyUpdates_append]

/-- Setting the batch of another database leaves the entries of a database as they are. -/
theorem DBsUpdates.filter_set_of_ne {m : DBsUpdates} {dbName dbName' : String} (hne : dbName' ≠ dbName)
    (updates : DBUpdates) : (m.set dbName' updates).filter (·.1 = dbName) = m.filter (·.1 = dbName) := by
  unfold DBsUpdates.set
  split_ifs
  · rw [List.filter_map]
    -- the replaced entries are of `dbName'`, which the filter drops either way
    have hkeep : ((fun e : String × DBUpdates => decide (e.1 = dbName)) ∘
        fun e => if e.1 = dbName' then (dbName', updates) else e) = fun e => decide (e.1 = dbName) := by
      funext e
      by_cases he : e.1 = dbName'
      · simp [he, hne]
      · simp [he]
    rw [hkeep]
    refine (List.map_congr_left fun e he => ?_).trans (List.map_id _)
    have hname : e.1 = dbName := by simpa using (List.mem_filter.1 he).2
    rw [if_neg (by rw [hname]; exact Ne.symm hne)]
    rfl
  · rw [List.filter_append]
    simp [hne]

section SetAll

variable {setAll : DBsUpdates → String × DBUpdates → DBsUpdates}
  (hset : ∀ m e, setAll m e = m.set e.1 e.2)
include hset

/-- Setting batches of other databases leaves what a database gets as it is. -/
theorem applyBatches_foldl_set_of_ne {dbs : String → Option KVStore} {dbName : String} :
    ∀ {us m : DBsUpdates}, (∀ e ∈ us, e.1 ≠ dbName) →
      applyBatches dbs (us.foldl setAll m) dbName = applyBatches dbs m dbName
  | [], _, _ => rfl
  | u :: us, m, hne => by
    rw [List.foldl_cons, applyBatches_foldl_set_of_ne fun e he => hne e (List.mem_cons_of_mem _ he),
      hset, applyBatches_apply, applyBatches_apply,
      DBsUpdates.filter_set_of_ne (hne u List.mem_cons_self)]

end SetAll

/-- Batches of other databases leave a database as it is. -/
theorem applyBatches_of_not_mem {dbName : String} :
    ∀ {dbs : String → Option KVStore} {dbsUpdates : DBsUpdates}, dbName ∉ dbsUpdates.map Prod.fst →
      applyBatches dbs dbsUpdates dbName = dbs dbName
  | _, [], _ => rfl
  | dbs, e :: rest, h => by
    rw [List.map_cons, List.mem_cons, not_or] at h
    rw [applyBatches, List.foldl_cons, ← applyBatches, applyBatches_of_not_mem h.2,
      Function.update_of_ne h.1]

/-- A database with one batch, the first, gets that batch. -/
theorem applyBatches_cons_self {dbs : String → Option KVStore} {dbName : String}
    {updates : DBUpdates} {rest : DBsUpdates} (h : dbName ∉ rest.map Prod.fst) :
    applyBatches dbs ((dbName, updates) :: rest) dbName = (dbs dbName).map (applyBatch · updates) := by
  rw [applyBatches, List.foldl_cons, ← applyBatches, applyBatches_of_not_mem h, Function.update_self]

/-! ### What a commit leaves as it is -/

namespace LevelDB

/-- A successful commit is its batches, then the height. -/
theorem Commit_ok {l l' : LevelDB} {dbsUpdates : DBsUpdates} {blockNumber : UInt64}
    (h : l.Commit dbsUpdates blockNumber = .ok l') :
    ∃ l₁, l.commitBatches dbsUpdates = .ok l₁ ∧ l' = { l₁ with height := some blockNumber } := by
  obtain ⟨l₁, hbatches, hheight⟩ := Except.bind_eq_ok.1 h
  refine ⟨l₁, hbatches, ?_⟩
  split_ifs at hheight
  · simp [throw, throwThe, MonadExceptOf.throw] at hheight
  · simp only [pure, Except.pure, Except.ok.injEq] at hheight
    exact hheight.symm

/-- A commit sets the height to the block's number. -/
theorem Height_of_Commit {l l' : LevelDB} {dbsUpdates : DBsUpdates} {blockNumber : UInt64}
    (h : l.Commit dbsUpdates blockNumber = .ok l') : l'.Height = blockNumber := by
  obtain ⟨l₁, -, rfl⟩ := Commit_ok h
  rfl

/-- **Progress.** Batches of existing databases other than `_dbs` are committed when `_metadata`
exists. -/
theorem Commit_of_isSome {l : LevelDB} {dbsUpdates : DBsUpdates} (blockNumber : UInt64)
    (hbatches : ∀ e ∈ dbsUpdates, e.1 ≠ DatabasesDBName ∧ (l.dbs e.1).isSome)
    (hmeta : (l.dbs MetadataDBName).isSome) : ∃ l', l.Commit dbsUpdates blockNumber = .ok l' := by
  have hmeta' : (applyBatches l.dbs dbsUpdates MetadataDBName).isNone = false := by
    rw [Option.isNone_eq_false_iff, isSome_applyBatches]
    exact hmeta
  simp only [Commit, commitBatches_eq hbatches, Except.ok_bind, hmeta', Bool.false_eq_true, if_false]
  exact ⟨_, rfl⟩

/-- `create` leaves an existing database as it is. -/
theorem create_dbs_of_isSome {l : LevelDB} {n : String} (h : (l.dbs n).isSome) (dbName : String) :
    (l.create dbName).dbs n = l.dbs n := by
  unfold create
  split_ifs with hc
  · rfl
  · have hne : n ≠ dbName := by
      rintro rfl
      exact hc h
    exact Function.update_of_ne hne _ _

theorem foldl_create_dbs_of_isSome {α : Type} (key : α → String) {n : String} :
    ∀ (xs : List α) {l : LevelDB}, (l.dbs n).isSome →
      (xs.foldl (fun l x => l.create (key x)) l).dbs n = l.dbs n
  | [], _, _ => rfl
  | x :: xs, l, h => by
    have hcreate := create_dbs_of_isSome h (key x)
    rw [List.foldl_cons, foldl_create_dbs_of_isSome key xs (by rwa [hcreate]), hcreate]

theorem foldl_delete_dbs_of_not_mem {n : String} :
    ∀ {names : List String} {l : LevelDB}, n ∉ names →
      (names.foldl (fun l dbName => l.delete dbName) l).dbs n = l.dbs n
  | [], _, _ => rfl
  | dbName :: names, l, h => by
    rw [List.mem_cons, not_or] at h
    rw [List.foldl_cons, foldl_delete_dbs_of_not_mem h.2]
    exact Function.update_of_ne h.1 _ _

/-- The commit of one database leaves another existing one as it is, unless `_dbs` deletes it. -/
theorem commitToDB_dbs_of_ne {l : LevelDB} {dbName n : String} {db : KVStore} {updates : DBUpdates}
    (hne : n ≠ dbName) (hdel : dbName = DatabasesDBName → n ∉ updates.deletes)
    (h : (l.dbs n).isSome) : (l.commitToDB dbName db updates).dbs n = l.dbs n := by
  -- the batch of `dbName` is set first, and `n` is another database
  have hset : Function.update l.dbs dbName (some (applyBatch db updates)) n = l.dbs n :=
    Function.update_of_ne hne _ _
  unfold commitToDB
  dsimp only
  split_ifs with hdbs
  · exact hset
  · have hdbs : dbName = DatabasesDBName := by simpa using hdbs
    rw [foldl_delete_dbs_of_not_mem (hdel hdbs), foldl_create_dbs_of_isSome _ _ (by simpa [hset] using h)]
    exact hset

/-- The database committed exists after its commit, unless `_dbs` deletes it. -/
theorem commitToDB_isSome_self {l : LevelDB} {dbName : String} {db : KVStore} {updates : DBUpdates}
    (hdel : dbName = DatabasesDBName → dbName ∉ updates.deletes) :
    ((l.commitToDB dbName db updates).dbs dbName).isSome := by
  unfold commitToDB
  dsimp only
  split_ifs with hdbs
  · simp
  · have hdbs : dbName = DatabasesDBName := by simpa using hdbs
    rw [foldl_delete_dbs_of_not_mem (hdel hdbs), foldl_create_dbs_of_isSome _ _ (by simp)]
    simp

/-- Over a commit's batches, a database that none of them names and `_dbs` does not delete is
left as it is. -/
theorem commitBatches_dbs_of_frame {n : String} :
    ∀ {dbsUpdates : DBsUpdates} {l l' : LevelDB}, l.commitBatches dbsUpdates = .ok l' →
      (∀ e ∈ dbsUpdates, e.1 ≠ n ∧ (e.1 = DatabasesDBName → n ∉ e.2.deletes)) →
        (l.dbs n).isSome → l'.dbs n = l.dbs n
  | [], _, _, h, _, _ => by
    cases h
    rfl
  | (dbName, updates) :: rest, l, l', h, hframe, hsome => by
    rw [commitBatches, List.foldlM_cons] at h
    cases hdb : l.dbs dbName with
    | none =>
      simp only [hdb, Except.error_bind] at h
      cases h
    | some db =>
      simp only [hdb, Except.ok_bind] at h
      rw [← commitBatches] at h
      obtain ⟨hne, hdel⟩ := hframe _ List.mem_cons_self
      have hstep : (l.commitToDB dbName db updates).dbs n = l.dbs n :=
        commitToDB_dbs_of_ne (Ne.symm hne) hdel hsome
      rw [commitBatches_dbs_of_frame h (fun e he => hframe e (List.mem_cons_of_mem _ he))
        (by rwa [hstep]), hstep]

/-- Over a commit's batches, a database that `_dbs` does not delete keeps existing. -/
theorem commitBatches_isSome {n : String} :
    ∀ {dbsUpdates : DBsUpdates} {l l' : LevelDB}, l.commitBatches dbsUpdates = .ok l' →
      (∀ e ∈ dbsUpdates, e.1 = DatabasesDBName → n ∉ e.2.deletes) →
        (l.dbs n).isSome → (l'.dbs n).isSome
  | [], _, _, h, _, hsome => by
    cases h
    exact hsome
  | (dbName, updates) :: rest, l, l', h, hframe, hsome => by
    rw [commitBatches, List.foldlM_cons] at h
    cases hdb : l.dbs dbName with
    | none =>
      simp only [hdb, Except.error_bind] at h
      cases h
    | some db =>
      simp only [hdb, Except.ok_bind] at h
      rw [← commitBatches] at h
      have hdel := hframe _ List.mem_cons_self
      -- the database committed, or another one
      have hstep : ((l.commitToDB dbName db updates).dbs n).isSome := by
        by_cases hn : n = dbName
        · subst hn
          exact commitToDB_isSome_self hdel
        · rw [commitToDB_dbs_of_ne hn hdel hsome]
          exact hsome
      exact commitBatches_isSome h (fun e he => hframe e (List.mem_cons_of_mem _ he)) hstep

/-- A commit leaves a database that no batch names and `_dbs` does not delete as it is. -/
theorem Commit_dbs_of_frame {l l' : LevelDB} {dbsUpdates : DBsUpdates} {blockNumber : UInt64}
    {n : String} (h : l.Commit dbsUpdates blockNumber = .ok l')
    (hframe : ∀ e ∈ dbsUpdates, e.1 ≠ n ∧ (e.1 = DatabasesDBName → n ∉ e.2.deletes))
    (hsome : (l.dbs n).isSome) : l'.dbs n = l.dbs n := by
  obtain ⟨l₁, hbatches, rfl⟩ := Commit_ok h
  exact (commitBatches_dbs_of_frame hbatches hframe hsome : l₁.dbs n = l.dbs n)

/-- After a commit, a database that `_dbs` does not delete still exists. -/
theorem Commit_isSome {l l' : LevelDB} {dbsUpdates : DBsUpdates} {blockNumber : UInt64}
    {n : String} (h : l.Commit dbsUpdates blockNumber = .ok l')
    (hframe : ∀ e ∈ dbsUpdates, e.1 = DatabasesDBName → n ∉ e.2.deletes)
    (hsome : (l.dbs n).isSome) : (l'.dbs n).isSome := by
  obtain ⟨l₁, hbatches, rfl⟩ := Commit_ok h
  exact (commitBatches_isSome hbatches hframe hsome : (l₁.dbs n).isSome)

end LevelDB

end Orion.WorldState
