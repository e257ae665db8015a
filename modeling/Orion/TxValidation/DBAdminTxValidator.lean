import Orion.BlockProcessor.Committer
import Orion.Identity.Querier

/-!
# Validation of a database administration transaction (`internal/txvalidation/dbadmin_tx_validator.go`)

A database administration transaction creates and deletes databases and defines the indexes of
the databases it creates. It is valid when its signature verifies, its submitter is an admin,
every database it creates or deletes has a valid name that is neither a system database nor the
default one, is named once, and does not exist (to be created) or exists (to be deleted), and
every index it defines is of a database it creates.

The checks of the create list and of the delete list are one loop with different texts and the
opposite existence (`validateDBEntries`). Go also checks the type of each indexed attribute
against the three types an index may have; `IndexAttributeType` has only those three, so that
check always passes here and is left out.

## What is proved

`validate_valid`: a `VALID` transaction was submitted by an admin, and its lists are
`DBAdminTxValid`: no system or default database is created or deleted, no database is created
that exists or deleted that does not, no name occurs twice in a list, and the index definitions
are of databases it creates.
-/

namespace Orion.TxValidation

open Orion.State Orion.Types Orion.WorldState Orion.BlockProcessor Orion.Identity

/-- The texts of the loop over a list of database names, and whether each must exist. -/
structure DBEntriesCheck where
  emptyName : String
  systemDB : String → String
  defaultDB : String → String
  mustExist : Bool
  existence : String → String
  duplicated : String → String

/-- The loop of `validateCreateDBEntries` and `validateDeleteDBEntries`, with the names seen so
far. -/
def validateDBEntries (db : LevelDB) (c : DBEntriesCheck) : List String → List String → ValidationInfo
  | _, [] => .valid
  | seen, dbName :: rest =>
    if dbName = "" then invalid .INVALID_INCORRECT_ENTRIES c.emptyName
    else if !ValidDBName dbName then
      invalid .INVALID_INCORRECT_ENTRIES ("the database name [" ++ dbName ++ "] is not valid")
    else if IsSystemDB dbName then invalid .INVALID_INCORRECT_ENTRIES (c.systemDB dbName)
    else if IsDefaultWorldStateDB dbName then invalid .INVALID_INCORRECT_ENTRIES (c.defaultDB dbName)
    else if db.Exist dbName != c.mustExist then invalid .INVALID_INCORRECT_ENTRIES (c.existence dbName)
    else if dbName ∈ seen then invalid .INVALID_INCORRECT_ENTRIES (c.duplicated dbName)
    else validateDBEntries db c (dbName :: seen) rest

/-- `validateCreateDBEntries`. -/
def validateCreateDBEntries (db : LevelDB) (toCreateDBs : List String) : ValidationInfo :=
  validateDBEntries db
    { emptyName := "the name of the database to be created cannot be empty"
      systemDB := fun dbName => "the database [" ++ dbName ++
        "] is a system database which cannot be created as it exist by default"
      defaultDB := fun dbName => "the database [" ++ dbName ++
        "] is the system created default database for storing states and it cannot be created as it exist by default"
      mustExist := false
      existence := fun dbName => "the database [" ++ dbName ++
        "] already exists in the cluster and hence, it cannot be created"
      duplicated := fun dbName => "the database [" ++ dbName ++ "] is duplicated in the create list" }
    [] toCreateDBs

/-- `validateDeleteDBEntries`. -/
def validateDeleteDBEntries (db : LevelDB) (toDeleteDBs : List String) : ValidationInfo :=
  validateDBEntries db
    { emptyName := "the name of the database to be deleted cannot be empty"
      systemDB := fun dbName => "the database [" ++ dbName ++ "] is a system database which cannot be deleted"
      defaultDB := fun dbName => "the database [" ++ dbName ++
        "] is the system created default database to store states and it cannot be deleted"
      mustExist := true
      existence := fun dbName => "the database [" ++ dbName ++
        "] does not exist in the cluster and hence, it cannot be deleted"
      duplicated := fun dbName => "the database [" ++ dbName ++ "] is duplicated in the delete list" }
    [] toDeleteDBs

/-- `validateIndexEntries`: an index may be defined only for a database the transaction creates. -/
def validateIndexEntries (db : LevelDB) (dbsIndex : List (String × DBIndex))
    (toCreateDBs toDeleteDBs : List String) : ValidationInfo :=
  match dbsIndex with
  | [] => .valid
  | (dbName, _) :: rest =>
    if !db.Exist dbName && dbName ∉ toCreateDBs then
      invalid .INVALID_INCORRECT_ENTRIES ("index definion provided for database [" ++ dbName ++
        "] cannot be processed as the database neither exists nor is in the create DB list")
    else if db.Exist dbName && dbName ∈ toDeleteDBs then
      invalid .INVALID_INCORRECT_ENTRIES ("index definion provided for database [" ++ dbName ++
        "] cannot be processed as the database is present in the delete list")
    else if db.Exist dbName then
      invalid .INVALID_INCORRECT_ENTRIES "index update to an existing database is not allowed"
    else validateIndexEntries db rest toCreateDBs toDeleteDBs

/-- `dbAdminTxValidator`: the committed state, the wire form of the users, and what the validator
asks of the signature verifier (`none` when the signature verifies). -/
structure dbAdminTxValidator where
  db : LevelDB
  userCodec : ProtoCodec User
  Verify : String → Bytes → DBAdministrationTx → Option String

namespace dbAdminTxValidator

variable (v : dbAdminTxValidator)

/-- `validate`: the checks in Go's order. -/
def validate (txEnv : DBAdministrationTxEnvelope) : Except String ValidationInfo := do
  let valInfo := (v.Verify txEnv.payload.userId txEnv.signature txEnv.payload).elim .valid
    fun err => invalid .INVALID_UNAUTHORISED ("signature verification failed: " ++ err)
  if valInfo.flag != .VALID then return valInfo
  let tx := txEnv.payload
  let hasPerm ← (HasAdministrationPrivilege v.userCodec v.db tx.userId).mapError fun err =>
    "error while checking database administrative privilege for user [" ++ tx.userId ++ "]: " ++ err.Error
  if !hasPerm then
    return invalid .INVALID_NO_PERMISSION ("the user [" ++ tx.userId ++
      "] has no privilege to perform database administrative operations")
  let r := validateCreateDBEntries v.db tx.createDbs
  if r.flag != .VALID then return r
  let r := validateDeleteDBEntries v.db tx.deleteDbs
  if r.flag != .VALID then return r
  pure (validateIndexEntries v.db tx.dbsIndex tx.createDbs tx.deleteDbs)

end dbAdminTxValidator

/-! ### What a `VALID` result guarantees -/

/-- A list of names passes the loop when each is a valid name, neither a system database nor the
default one, with the existence asked, and new to the names seen and to the others. -/
theorem validateDBEntries_valid {db : LevelDB} {c : DBEntriesCheck} :
    ∀ {seen names : List String}, (validateDBEntries db c seen names).flag = .VALID →
      names.Nodup ∧ ∀ dbName ∈ names, ValidDBName dbName = true ∧ IsSystemDB dbName = false ∧
        IsDefaultWorldStateDB dbName = false ∧ db.Exist dbName = c.mustExist ∧ dbName ∉ seen
  | _, [], _ => by simp
  | seen, dbName :: rest, h => by
    unfold validateDBEntries at h
    split_ifs at h with hempty hvalid hsystem hdefault hexist hseen <;> try simp at h
    obtain ⟨hnodup, hrest⟩ := validateDBEntries_valid h
    refine ⟨List.nodup_cons.2 ⟨fun hmem => ((hrest dbName hmem).2.2.2.2) List.mem_cons_self, hnodup⟩, ?_⟩
    intro name hname
    rcases List.mem_cons.1 hname with rfl | hname
    · refine ⟨by simpa using hvalid, by simpa using hsystem, by simpa using hdefault, by simpa using hexist,
        hseen⟩
    · obtain ⟨hv, hs, hd, he, hnot⟩ := hrest name hname
      exact ⟨hv, hs, hd, he, fun hmem => hnot (List.mem_cons_of_mem _ hmem)⟩

/-- Index definitions pass only for databases that the transaction creates and that do not
exist. -/
theorem validateIndexEntries_valid {db : LevelDB} {toCreateDBs toDeleteDBs : List String} :
    ∀ {dbsIndex : List (String × DBIndex)},
      (validateIndexEntries db dbsIndex toCreateDBs toDeleteDBs).flag = .VALID →
        ∀ e ∈ dbsIndex, e.1 ∈ toCreateDBs ∧ db.Exist e.1 = false
  | [], _, _, he => absurd he List.not_mem_nil
  | (dbName, dbIndex) :: rest, h, e, he => by
    unfold validateIndexEntries at h
    split_ifs at h with hneither hdeleted hexists <;> try simp at h
    rcases List.mem_cons.1 he with rfl | he
    · have hexist : db.Exist dbName = false := by simpa using hexists
      refine ⟨?_, hexist⟩
      simpa [hexist] using hneither
    · exact validateIndexEntries_valid h e he

/-- What a `VALID` database administration transaction says of its lists, against the committed
state `db`. -/
structure DBAdminTxValid (db : LevelDB) (tx : DBAdministrationTx) : Prop where
  /-- The databases created are named once, and exist neither as a system database, the default
  one, nor at all. -/
  createsUnique : tx.createDbs.Nodup
  creates : ∀ dbName ∈ tx.createDbs, ValidDBName dbName = true ∧ IsSystemDB dbName = false ∧
    IsDefaultWorldStateDB dbName = false ∧ db.Exist dbName = false
  /-- The databases deleted are named once, exist, and are neither a system database nor the
  default one. -/
  deletesUnique : tx.deleteDbs.Nodup
  deletes : ∀ dbName ∈ tx.deleteDbs, ValidDBName dbName = true ∧ IsSystemDB dbName = false ∧
    IsDefaultWorldStateDB dbName = false ∧ db.Exist dbName = true
  /-- Indexes are defined only for databases created. -/
  indexes : ∀ e ∈ tx.dbsIndex, e.1 ∈ tx.createDbs ∧ db.Exist e.1 = false

namespace dbAdminTxValidator

variable {v : dbAdminTxValidator}

/-- **What a `VALID` database administration transaction guarantees.** Its submitter is an
admin, and its lists are `DBAdminTxValid`. -/
theorem validate_valid {txEnv : DBAdministrationTxEnvelope} (h : Passes (v.validate txEnv)) :
    HasAdministrationPrivilege v.userCodec v.db txEnv.payload.userId = .ok true ∧
      DBAdminTxValid v.db txEnv.payload := by
  simp only [validate, passes_if_check,
    passes_bind_bool (by decide : Flag.INVALID_NO_PERMISSION ≠ .VALID), Except.mapError_eq_ok,
    passes_pure] at h
  obtain ⟨-, hadmin, hcreate, hdelete, hindex⟩ := h
  obtain ⟨hcnodup, hcreates⟩ := validateDBEntries_valid hcreate
  obtain ⟨hdnodup, hdeletes⟩ := validateDBEntries_valid hdelete
  refine ⟨hadmin, hcnodup, fun dbName h => ?_, hdnodup, fun dbName h => ?_, validateIndexEntries_valid hindex⟩
  · obtain ⟨hv, hs, hd, he, -⟩ := hcreates dbName h
    exact ⟨hv, hs, hd, he⟩
  · obtain ⟨hv, hs, hd, he, -⟩ := hdeletes dbName h
    exact ⟨hv, hs, hd, he⟩

end dbAdminTxValidator

end Orion.TxValidation
