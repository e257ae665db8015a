import Orion.WorldState.DB
import Orion.Lib.Except
import Mathlib.Data.List.Nodup
import Mathlib.Data.List.Sort

/-!
# Validation of a data transaction (`internal/txvalidation/data_tx_validator.go`)

A data transaction is valid when its signatures verify, every database it names
once exists and is not a system database, some signer may write to it, its
entries are well formed, the access control on each key it touches allows the
signers, and its reads and writes do not conflict with the committed state or
with the transactions before it in the block (`pendingOperations`).

Every check returns a `ValidationInfo`; the first check that is not `VALID`
decides. A check that reads the world state may also fail with an error, which
fails the whole block. The loop Go writes again and again, check each item and
return the first result that is not `VALID`, is `checkEach`.

The identity querier and the signature verifier are taken as given functions
(`IdentityQuerier`, `SignatureVerifier`): the results proved here hold whatever
they answer. A Go map the validator ranges over is a list, in one of its
iteration orders.
-/

namespace Orion.TxValidation

open Orion.State Orion.Types Orion.WorldState

/-- What the validator asks of `identity.Querier`. -/
structure IdentityQuerier where
  /-- `HasReadWriteAccess(userID, dbName)`. -/
  HasReadWriteAccess : String → String → Except String Bool
  /-- `DoesUserExist(userID)`. -/
  DoesUserExist : String → Except String Bool

/-- What the validator asks of `cryptoservice.SignatureVerifier`: `Verify(user, signature,
marshal(payload))`, `none` when the signature verifies and the error's text otherwise. -/
structure SignatureVerifier where
  Verify : String → Bytes → DataTx → Option String

/-- `pendingOperations`: the keys written and deleted by the valid transactions so far,
by composite key. -/
structure PendingOperations where
  pendingWrites : String → Bool
  pendingDeletes : String → Bool

/-- `constructCompositeKey`: `dbName~key`. -/
def constructCompositeKey (dbName key : String) : String := dbName ++ "~" ++ key

namespace PendingOperations

/-- `newPendingOperations`. -/
def new : PendingOperations := ⟨fun _ => false, fun _ => false⟩

/-- `addWrite`. -/
def addWrite (p : PendingOperations) (dbName key : String) : PendingOperations :=
  { p with pendingWrites := Function.update p.pendingWrites (constructCompositeKey dbName key) true }

/-- `addDelete`. -/
def addDelete (p : PendingOperations) (dbName key : String) : PendingOperations :=
  { p with pendingDeletes := Function.update p.pendingDeletes (constructCompositeKey dbName key) true }

/-- `existDelete`. -/
def existDelete (p : PendingOperations) (dbName key : String) : Bool :=
  p.pendingDeletes (constructCompositeKey dbName key)

/-- `exist`: written or deleted. -/
def exist (p : PendingOperations) (dbName key : String) : Bool :=
  p.pendingWrites (constructCompositeKey dbName key) || p.pendingDeletes (constructCompositeKey dbName key)

end PendingOperations

/-- Check each item in order; the first result that is not `VALID` is the answer. -/
def checkEach {α : Type} (check : α → Except String ValidationInfo) :
    List α → Except String ValidationInfo
  | [] => .ok .valid
  | x :: xs => do
    let r ← check x
    if r.flag != .VALID then pure r else checkEach check xs

/-- An invalid result with its flag and reason. -/
def invalid (flag : Flag) (reason : String) : ValidationInfo := ⟨flag, reason⟩

/-- `strings.Join`. -/
def join (elems : List String) (sep : String) : String := sep.intercalate elems

/-- `sort.Strings`: byte-wise order, which is the order of code points on valid UTF-8. The
order is total, so every sort gives this list. -/
def sortStrings (xs : List String) : List String := xs.insertionSort (· ≤ ·)

/-- `txSigValidator.validate`. -/
def sigValidate (sv : SignatureVerifier) (user : String) (signature : Bytes) (payload : DataTx) :
    ValidationInfo :=
  match sv.Verify user signature payload with
  | none => .valid
  | some err => invalid .INVALID_UNAUTHORISED ("signature verification failed: " ++ err)

/-- The loop of `validateSignatures` over the signatures, with the users whose
signature verified so far. -/
def validateSignaturesLoop (sv : SignatureVerifier) (txEnv : DataTxEnvelope) :
    List String → List (String × Bytes) → List String × ValidationInfo
  | userIDsWithValidSign, [] => (userIDsWithValidSign, .valid)
  | userIDsWithValidSign, (userID, signature) :: rest =>
    if (sigValidate sv userID signature txEnv.payload).flag != .VALID then
      if userID ∈ txEnv.payload.mustSignUserIds then
        ([], invalid .INVALID_UNAUTHORISED ("signature of the must sign user [" ++ userID ++
          "] is not valid (maybe the certificate got changed)"))
      else validateSignaturesLoop sv txEnv userIDsWithValidSign rest
    else validateSignaturesLoop sv txEnv (userIDsWithValidSign ++ [userID]) rest

/-- `validateSignatures`: the users whose signature verifies; invalid when a must-sign
user's does not. -/
def validateSignatures (sv : SignatureVerifier) (txEnv : DataTxEnvelope) :
    List String × ValidationInfo :=
  validateSignaturesLoop sv txEnv [] txEnv.signatures

/-- `validateDBName`. -/
def validateDBName (db : LevelDB) (dbName : String) : ValidationInfo :=
  if !ValidDBName dbName then
    invalid .INVALID_INCORRECT_ENTRIES ("the database name [" ++ dbName ++ "] is not valid")
  else if !db.Exist dbName then
    invalid .INVALID_DATABASE_DOES_NOT_EXIST ("the database [" ++ dbName ++ "] does not exist in the cluster")
  else if IsSystemDB dbName then
    invalid .INVALID_NO_PERMISSION ("the database [" ++ dbName ++ "] is a system database and no user can write to a " ++
      "system database via data transaction. Use appropriate transaction type to modify the system database")
  else .valid

/-- The users an access control names, readers then writers, each once: the users the
loops over `ReadUsers` and `ReadWriteUsers` put in `userToCheck`. -/
def aclUsers (acl : AccessControl) : List String :=
  ((acl.readUsers ++ acl.readWriteUsers).map Prod.fst).dedup

/-- `validateFieldsInDataWrites`, with the users already found to exist: every user an
access control names must exist. -/
def validateFieldsInDataWrites (iq : IdentityQuerier) (existingUser : List String) :
    List DataWrite → Except String ValidationInfo
  | [] => .ok .valid
  | w :: ws =>
    match w.acl with
    | none => validateFieldsInDataWrites iq existingUser ws
    | some acl => do
      let userToCheck := (aclUsers acl).filter (· ∉ existingUser)
      let r ← checkEach (fun user => do
        let exist ← (iq.DoesUserExist user).mapError
          (fun e => "error while validating access control definition: " ++ e)
        if !exist then
          pure (invalid .INVALID_INCORRECT_ENTRIES ("the user [" ++ user ++
            "] defined in the access control for the key [" ++ w.key ++ "] does not exist"))
        else pure .valid) userToCheck
      if r.flag != .VALID then pure r
      else validateFieldsInDataWrites iq (existingUser ++ userToCheck) ws

/-- `validateFieldsInDataDeletes`: a key may be deleted once in a block, and only if it
exists in the committed state. -/
def validateFieldsInDataDeletes (db : LevelDB) (dbName : String) (dataDeletes : List DataDelete)
    (pendingOps : PendingOperations) : Except String ValidationInfo :=
  checkEach (fun d => do
    if pendingOps.existDelete dbName d.key then
      return invalid .INVALID_MVCC_CONFLICT_WITHIN_BLOCK ("the key [" ++ d.key ++
        "] is already deleted by some previous transaction in the block")
    let (val, metadata) ← (db.Get dbName d.key).mapError
      (fun e => "error while validating delete entries: " ++ e)
    if val = [] ∧ metadata = none then
      return invalid .INVALID_INCORRECT_ENTRIES ("the key [" ++ d.key ++
        "] does not exist in the database and hence, it cannot be deleted")
    return .valid) dataDeletes

/-- The write loop of `validateUniquenessInDataWritesAndDeletes`: the keys written, or the
first duplicate. -/
def uniqueWriteKeys (writeKeys : List String) : List DataWrite → Except ValidationInfo (List String)
  | [] => .ok writeKeys
  | w :: ws =>
    if w.key ∈ writeKeys then
      .error (invalid .INVALID_INCORRECT_ENTRIES ("the key [" ++ w.key ++
        "] is duplicated in the write list. The keys in the write list must be unique"))
    else uniqueWriteKeys (writeKeys ++ [w.key]) ws

/-- The delete loop: a key deleted twice, or deleted and written, is the answer. -/
def uniqueDeleteKeys (writeKeys deleteKeys : List String) : List DataDelete → Option ValidationInfo
  | [] => none
  | d :: ds =>
    if d.key ∈ deleteKeys then
      some (invalid .INVALID_INCORRECT_ENTRIES ("the key [" ++ d.key ++
        "] is duplicated in the delete list. The keys in the delete list must be unique"))
    else if d.key ∈ writeKeys then
      some (invalid .INVALID_INCORRECT_ENTRIES ("the key [" ++ d.key ++
        "] is being updated as well as deleted. Only one operation per key is allowed within a transaction"))
    else uniqueDeleteKeys writeKeys (deleteKeys ++ [d.key]) ds

/-- `validateUniquenessInDataWritesAndDeletes`. -/
def validateUniquenessInDataWritesAndDeletes (dataWrites : List DataWrite)
    (dataDeletes : List DataDelete) : ValidationInfo :=
  match uniqueWriteKeys [] dataWrites with
  | .error r => r
  | .ok writeKeys => (uniqueDeleteKeys writeKeys [] dataDeletes).getD .valid

/-- `validateACLOnDataReads`: some signer may read each key read. -/
def validateACLOnDataReads (db : LevelDB) (userIDs : List String) (dbName : String)
    (reads : List DataRead) : Except String ValidationInfo :=
  checkEach (fun r => do
    let acl ← (db.GetACL dbName r.key).mapError
      (fun e => "error while validating ACL on the key [" ++ r.key ++ "] in the reads: " ++ e)
    match acl with
    | none => pure .valid
    | some acl =>
      if userIDs.any (fun u => lookupBool acl.readUsers u || lookupBool acl.readWriteUsers u) then
        pure .valid
      else pure (invalid .INVALID_NO_PERMISSION ("none of the user in [" ++ join userIDs "," ++
        "] has a read permission on key [" ++ r.key ++ "] present in the database [" ++ dbName ++ "]"))) reads

/-- `validateACLForWriteOrDelete`: the signers may write the key under its access control. -/
def validateACLForWriteOrDelete (db : LevelDB) (userIDs : List String) (dbName key : String) :
    Except String ValidationInfo := do
  match ← db.GetACL dbName key with
  | none => pure .valid
  | some acl =>
    if acl.readWriteUsers.length = 0 then
      return invalid .INVALID_NO_PERMISSION ("no user can write or delete the key [" ++ key ++ "]")
    match acl.signPolicyForWrite with
    | .ANY =>
      if userIDs.any (lookupBool acl.readWriteUsers) then pure .valid
      else pure (invalid .INVALID_NO_PERMISSION ("none of the user in [" ++ join userIDs "," ++
        "] has a write/delete permission on key [" ++ key ++ "] present in the database [" ++ dbName ++ "]"))
    | .ALL =>
      if (acl.readWriteUsers.map Prod.fst).all (· ∈ userIDs) then pure .valid
      else pure (invalid .INVALID_NO_PERMISSION ("not all required users in [" ++
        join (sortStrings (acl.readWriteUsers.map Prod.fst)) "," ++
        "] have signed the transaction to write/delete key [" ++ key ++ "] present in the database [" ++
        dbName ++ "]"))

/-- `validateACLOnDataWrites` and `validateACLOnDataDeletes`: each key written, resp.
deleted, passes `validateACLForWriteOrDelete`. -/
def validateACLOnKeys (db : LevelDB) (userIDs : List String) (dbName : String) (keys : List String) :
    Except String ValidationInfo :=
  checkEach (validateACLForWriteOrDelete db userIDs dbName) keys

/-- `validateACLOnDataWrites`. -/
def validateACLOnDataWrites (db : LevelDB) (userIDs : List String) (dbName : String)
    (writes : List DataWrite) : Except String ValidationInfo :=
  validateACLOnKeys db userIDs dbName (writes.map DataWrite.key)

/-- `validateACLOnDataDeletes`. -/
def validateACLOnDataDeletes (db : LevelDB) (userIDs : List String) (dbName : String)
    (deletes : List DataDelete) : Except String ValidationInfo :=
  validateACLOnKeys db userIDs dbName (deletes.map DataDelete.key)

/-- `mvccValidation`: each key read is untouched by the transactions before in the block
and still at the version read; each key written or deleted is untouched before. -/
def mvccValidation (db : LevelDB) (dbName : String) (txOps : DBOperation)
    (pendingOps : PendingOperations) : Except String ValidationInfo := do
  let r ← checkEach (fun r => do
    if pendingOps.exist dbName r.key then
      return invalid .INVALID_MVCC_CONFLICT_WITHIN_BLOCK ("mvcc conflict has occurred within the block for the key [" ++
        r.key ++ "] in database [" ++ dbName ++ "]")
    let committedVersion ← db.GetVersion dbName r.key
    if r.version = committedVersion then return .valid
    return invalid .INVALID_MVCC_CONFLICT_WITH_COMMITTED_STATE ("mvcc conflict has occurred as the committed state for the key [" ++
      r.key ++ "] in database [" ++ dbName ++ "] changed")) txOps.dataReads
  if r.flag != .VALID then return r
  let modified (key : String) : ValidationInfo :=
    if pendingOps.exist dbName key then
      invalid .INVALID_MVCC_CONFLICT_WITHIN_BLOCK ("mvcc conflict has occurred within the block for the key [" ++
        key ++ "] in database [" ++ dbName ++ "]. Within a block, a key can be modified only once")
    else .valid
  let r ← checkEach (fun w => pure (modified (DataWrite.key w))) txOps.dataWrites
  if r.flag != .VALID then return r
  checkEach (fun d => pure (modified (DataDelete.key d))) txOps.dataDeletes

/-- `validateOps`: the checks of one database's operations, in Go's order. -/
def validateOps (iq : IdentityQuerier) (db : LevelDB) (userIDs : List String) (txOps : DBOperation)
    (pendingOps : PendingOperations) : Except String ValidationInfo := do
  let dbName := txOps.dbName
  let r ← validateFieldsInDataWrites iq [] txOps.dataWrites
  if r.flag != .VALID then return r
  let r ← validateFieldsInDataDeletes db txOps.dbName txOps.dataDeletes pendingOps
  if r.flag != .VALID then return r
  let r := validateUniquenessInDataWritesAndDeletes txOps.dataWrites txOps.dataDeletes
  if r.flag != .VALID then return r
  let r ← validateACLOnDataReads db userIDs dbName txOps.dataReads
  if r.flag != .VALID then return r
  let r ← validateACLOnDataWrites db userIDs dbName txOps.dataWrites
  if r.flag != .VALID then return r
  let r ← validateACLOnDataDeletes db userIDs dbName txOps.dataDeletes
  if r.flag != .VALID then return r
  mvccValidation db dbName txOps pendingOps

/-- The first database named twice in the operations, if any (the `dbs` loop of `validate`). -/
def firstRepeatedDB (seen : List String) : List DBOperation → Option String
  | [] => none
  | ops :: rest => if ops.dbName ∈ seen then some ops.dbName else firstRepeatedDB (seen ++ [ops.dbName]) rest

/-- `dataTxValidator.validate`: each database once, then for each database its name, the
signers with read-write access to it, and `validateOps` with those signers. -/
def validate (iq : IdentityQuerier) (db : LevelDB) (txEnv : DataTxEnvelope)
    (userIDsWithValidSign : List String) (pendingOps : PendingOperations) :
    Except String ValidationInfo := do
  if let some dbName := firstRepeatedDB [] txEnv.payload.dbOperations then
    return invalid .INVALID_INCORRECT_ENTRIES ("the database [" ++ dbName ++
      "] occurs more than once in the operations. The database present in the operations should be unique")
  checkEach (fun ops => do
    let valRes := validateDBName db ops.dbName
    if valRes.flag != .VALID then return valRes
    let signers := sortStrings userIDsWithValidSign
    let usersWithDBAccess ← signers.filterM fun userID => iq.HasReadWriteAccess userID ops.dbName
    if usersWithDBAccess.length = 0 then
      return invalid .INVALID_NO_PERMISSION ("none of the user in [" ++ join signers ", " ++
        "] has read-write permission on the database [" ++ ops.dbName ++ "]")
    validateOps iq db usersWithDBAccess ops pendingOps) txEnv.payload.dbOperations

/-! ### What a `VALID` result guarantees

Each check is read backwards: from a `VALID` answer to the facts about the transaction
and the committed state that the check established. -/

/-- A check that ran without error and found the transaction valid. -/
def Passes (x : Except String ValidationInfo) : Prop := ∃ r, x = .ok r ∧ r.flag = .VALID

@[simp] theorem invalid_flag (flag : Flag) (reason : String) : (invalid flag reason).flag = flag := rfl

@[simp] theorem valid_flag : ValidationInfo.valid.flag = .VALID := rfl

@[simp] theorem passes_pure (r : ValidationInfo) : Passes (pure r) ↔ r.flag = .VALID := by
  constructor
  · rintro ⟨r', h, hv⟩
    cases h
    exact hv
  · intro h
    exact ⟨r, rfl, h⟩

@[simp] theorem not_passes_error (e : String) : ¬Passes (.error e) := by
  rintro ⟨_, h, _⟩
  cases h

/-- Go's `if r.Flag != VALID { return r }` on a result already at hand. -/
theorem passes_if_check {r : ValidationInfo} {y : Except String ValidationInfo} :
    Passes (if (r.flag != .VALID) = true then pure r else y) ↔ r.flag = .VALID ∧ Passes y := by
  by_cases hr : r.flag = .VALID
  · simp [hr]
  · simp [hr]

/-- A check, then Go's `if r.Flag != VALID { return r }`, then the rest: both must pass. -/
theorem passes_bind_check {x y : Except String ValidationInfo} :
    Passes (x >>= fun r => if (r.flag != .VALID) = true then pure r else y) ↔
      Passes x ∧ Passes y := by
  cases x with
  | error e => simp
  | ok r =>
    rw [Except.ok_bind, passes_if_check]
    simp [Passes]

@[simp] theorem passes_mapError {x : Except String ValidationInfo} {f : String → String} :
    Passes (x.mapError f) ↔ Passes x := by
  simp only [Passes, Except.mapError_eq_ok]

/-- Go's `if !hasPerm { return invalid }` after a query: the query answered `true`, and the rest
passed. -/
theorem passes_bind_bool {x : Except String Bool} {flag : Flag} (hflag : flag ≠ .VALID)
    {reason : String} {y : Except String ValidationInfo} :
    Passes (x >>= fun b => if (!b) = true then pure (invalid flag reason) else y) ↔
      x = .ok true ∧ Passes y := by
  cases x with
  | error e => simp
  | ok b => cases b <;> simp [hflag]

theorem checkEach_passes {α : Type} (check : α → Except String ValidationInfo) (xs : List α) :
    Passes (checkEach check xs) ↔ ∀ x ∈ xs, Passes (check x) := by
  induction xs with
  | nil => exact ⟨fun _ _ h => (nomatch h), fun _ => ⟨.valid, rfl, rfl⟩⟩
  | cons x xs ih =>
    rw [checkEach, passes_bind_check, ih, List.forall_mem_cons]

/-- The checks of `validateOps`, in Go's order. -/
theorem validateOps_passes {iq : IdentityQuerier} {db : LevelDB} {userIDs : List String}
    {txOps : DBOperation} {pendingOps : PendingOperations} :
    Passes (validateOps iq db userIDs txOps pendingOps) ↔
      Passes (validateFieldsInDataWrites iq [] txOps.dataWrites) ∧
      Passes (validateFieldsInDataDeletes db txOps.dbName txOps.dataDeletes pendingOps) ∧
      (validateUniquenessInDataWritesAndDeletes txOps.dataWrites txOps.dataDeletes).flag = .VALID ∧
      Passes (validateACLOnDataReads db userIDs txOps.dbName txOps.dataReads) ∧
      Passes (validateACLOnDataWrites db userIDs txOps.dbName txOps.dataWrites) ∧
      Passes (validateACLOnDataDeletes db userIDs txOps.dbName txOps.dataDeletes) ∧
      Passes (mvccValidation db txOps.dbName txOps pendingOps) := by
  simp only [validateOps, passes_bind_check, passes_if_check]

/-- A key passes the delete check only if no transaction before deleted it and it is
stored in the committed state. -/
theorem validateFieldsInDataDeletes_passes {db : LevelDB} {dbName : String}
    {dataDeletes : List DataDelete} {pendingOps : PendingOperations}
    (h : Passes (validateFieldsInDataDeletes db dbName dataDeletes pendingOps)) :
    ∀ d ∈ dataDeletes, pendingOps.existDelete dbName d.key = false ∧
      ∃ v, db.entry dbName d.key = some v := by
  intro d hd
  have hcheck := (checkEach_passes _ _).1 h d hd
  cases hdel : pendingOps.existDelete dbName d.key
  · refine ⟨rfl, ?_⟩
    cases hget : db.Get dbName d.key with
    | error e => simp [hdel, hget, Except.mapError] at hcheck
    | ok entry =>
      obtain ⟨val, metadata⟩ := entry
      by_cases hempty : val = [] ∧ metadata = none
      · simp [hdel, hget, Except.mapError, hempty] at hcheck
      · exact LevelDB.entry_of_Get hget hempty
  · simp [hdel] at hcheck

/-! #### Uniqueness of the keys of one database's operations -/

theorem uniqueWriteKeys_ok {writeKeys keys : List String} {ws : List DataWrite}
    (h : uniqueWriteKeys writeKeys ws = .ok keys) :
    keys = writeKeys ++ ws.map DataWrite.key ∧ (ws.map DataWrite.key).Nodup ∧
      ∀ w ∈ ws, w.key ∉ writeKeys := by
  induction ws generalizing writeKeys with
  | nil =>
    cases h
    simp
  | cons w ws ih =>
    simp only [uniqueWriteKeys] at h
    split at h
    · cases h
    · rename_i hw
      obtain ⟨hkeys, hnodup, hfresh⟩ := ih h
      refine ⟨by simp [hkeys], ?_, ?_⟩
      · refine List.nodup_cons.2 ⟨fun hmem => ?_, hnodup⟩
        obtain ⟨w', hw', hkey⟩ := List.mem_map.1 hmem
        exact hfresh w' hw' (by simp [hkey])
      · intro w' hw'
        rcases List.mem_cons.1 hw' with rfl | hw'
        · exact hw
        · exact fun hmem => hfresh w' hw' (List.mem_append_left _ hmem)

theorem uniqueWriteKeys_error {writeKeys : List String} {ws : List DataWrite} {r : ValidationInfo}
    (h : uniqueWriteKeys writeKeys ws = .error r) : r.flag = .INVALID_INCORRECT_ENTRIES := by
  induction ws generalizing writeKeys with
  | nil => cases h
  | cons w ws ih =>
    simp only [uniqueWriteKeys] at h
    split at h
    · cases h
      rfl
    · exact ih h

theorem uniqueDeleteKeys_none {writeKeys deleteKeys : List String} {ds : List DataDelete}
    (h : uniqueDeleteKeys writeKeys deleteKeys ds = none) :
    (ds.map DataDelete.key).Nodup ∧ ∀ d ∈ ds, d.key ∉ deleteKeys ∧ d.key ∉ writeKeys := by
  induction ds generalizing deleteKeys with
  | nil => simp
  | cons d ds ih =>
    simp only [uniqueDeleteKeys] at h
    split at h
    · cases h
    · rename_i hdel
      split at h
      · cases h
      · rename_i hwrite
        obtain ⟨hnodup, hfresh⟩ := ih h
        refine ⟨List.nodup_cons.2 ⟨fun hmem => ?_, hnodup⟩, ?_⟩
        · obtain ⟨d', hd', hkey⟩ := List.mem_map.1 hmem
          exact (hfresh d' hd').1 (by simp [hkey])
        · intro d' hd'
          rcases List.mem_cons.1 hd' with rfl | hd'
          · exact ⟨hdel, hwrite⟩
          · exact ⟨fun hmem => (hfresh d' hd').1 (List.mem_append_left _ hmem), (hfresh d' hd').2⟩

theorem uniqueDeleteKeys_some {writeKeys deleteKeys : List String} {ds : List DataDelete}
    {r : ValidationInfo} (h : uniqueDeleteKeys writeKeys deleteKeys ds = some r) :
    r.flag = .INVALID_INCORRECT_ENTRIES := by
  induction ds generalizing deleteKeys with
  | nil => cases h
  | cons d ds ih =>
    simp only [uniqueDeleteKeys] at h
    split at h
    · cases h
      rfl
    · split at h
      · cases h
        rfl
      · exact ih h

/-- A `VALID` uniqueness check: no key written twice, none deleted twice, none both. -/
theorem validateUniquenessInDataWritesAndDeletes_valid {ws : List DataWrite} {ds : List DataDelete}
    (h : (validateUniquenessInDataWritesAndDeletes ws ds).flag = .VALID) :
    (ws.map DataWrite.key).Nodup ∧ (ds.map DataDelete.key).Nodup ∧
      ∀ d ∈ ds, d.key ∉ ws.map DataWrite.key := by
  unfold validateUniquenessInDataWritesAndDeletes at h
  split at h
  · rename_i r hw
    rw [uniqueWriteKeys_error hw] at h
    cases h
  · rename_i writeKeys hw
    obtain ⟨hkeys, hwnodup, -⟩ := uniqueWriteKeys_ok hw
    cases hd : uniqueDeleteKeys writeKeys [] ds with
    | some r =>
      rw [hd, Option.getD_some, uniqueDeleteKeys_some hd] at h
      cases h
    | none =>
      obtain ⟨hdnodup, hfresh⟩ := uniqueDeleteKeys_none hd
      refine ⟨hwnodup, hdnodup, fun d hd' => ?_⟩
      simpa [hkeys] using (hfresh d hd').2

/-! #### Multi-version concurrency control -/

/-- The read check of `mvccValidation` for one key. -/
theorem mvcc_read_passes {db : LevelDB} {dbName : String} {pendingOps : PendingOperations}
    {r : DataRead} :
    Passes (if pendingOps.exist dbName r.key = true then
        pure (invalid .INVALID_MVCC_CONFLICT_WITHIN_BLOCK ("mvcc conflict has occurred within the block for the key [" ++
          r.key ++ "] in database [" ++ dbName ++ "]"))
      else do
        let committedVersion ← db.GetVersion dbName r.key
        if r.version = committedVersion then pure ValidationInfo.valid
        else pure (invalid .INVALID_MVCC_CONFLICT_WITH_COMMITTED_STATE ("mvcc conflict has occurred as the committed state for the key [" ++
          r.key ++ "] in database [" ++ dbName ++ "] changed"))) ↔
      pendingOps.exist dbName r.key = false ∧ db.GetVersion dbName r.key = .ok r.version := by
  cases hp : pendingOps.exist dbName r.key
  · cases hv : db.GetVersion dbName r.key with
    | error e => simp
    | ok v =>
      by_cases hrv : r.version = v
      · simp [hrv]
      · simp [hrv, Ne.symm hrv]
  · simp

/-- A `VALID` concurrency check: each key read is untouched by the transactions before and
still at the version read, and each key written or deleted is untouched before. -/
theorem mvccValidation_passes {db : LevelDB} {dbName : String} {txOps : DBOperation}
    {pendingOps : PendingOperations} (h : Passes (mvccValidation db dbName txOps pendingOps)) :
    (∀ r ∈ txOps.dataReads, pendingOps.exist dbName r.key = false ∧
        db.GetVersion dbName r.key = .ok r.version) ∧
      (∀ w ∈ txOps.dataWrites, pendingOps.exist dbName w.key = false) ∧
      ∀ d ∈ txOps.dataDeletes, pendingOps.exist dbName d.key = false := by
  simp only [mvccValidation, passes_bind_check, checkEach_passes] at h
  obtain ⟨hreads, hwrites, hdeletes⟩ := h
  refine ⟨fun r hr => mvcc_read_passes.1 (hreads r hr), fun w hw => ?_, fun d hd => ?_⟩
  · have := hwrites w hw
    by_cases hp : pendingOps.exist dbName w.key = true <;> simp_all
  · have := hdeletes d hd
    by_cases hp : pendingOps.exist dbName d.key = true <;> simp_all

/-! #### The whole transaction -/

/-- What a `VALID` result says of one database's operations, against the committed state
`db` and the keys `pendingOps` holds for the valid transactions before. -/
structure OpsValid (db : LevelDB) (pendingOps : PendingOperations) (txOps : DBOperation) : Prop where
  writesUnique : (txOps.dataWrites.map DataWrite.key).Nodup
  deletesUnique : (txOps.dataDeletes.map DataDelete.key).Nodup
  writeDeleteDisjoint : ∀ d ∈ txOps.dataDeletes, d.key ∉ txOps.dataWrites.map DataWrite.key
  readsFresh : ∀ r ∈ txOps.dataReads, pendingOps.exist txOps.dbName r.key = false ∧
    db.GetVersion txOps.dbName r.key = .ok r.version
  writesFresh : ∀ w ∈ txOps.dataWrites, pendingOps.exist txOps.dbName w.key = false
  deletesFresh : ∀ d ∈ txOps.dataDeletes, pendingOps.exist txOps.dbName d.key = false
  deletesPresent : ∀ d ∈ txOps.dataDeletes, ∃ v, db.entry txOps.dbName d.key = some v

theorem validateOps_valid {iq : IdentityQuerier} {db : LevelDB} {userIDs : List String}
    {txOps : DBOperation} {pendingOps : PendingOperations}
    (h : Passes (validateOps iq db userIDs txOps pendingOps)) : OpsValid db pendingOps txOps := by
  obtain ⟨-, hdeletes, hunique, -, -, -, hmvcc⟩ := validateOps_passes.1 h
  obtain ⟨hwu, hdu, hdisj⟩ := validateUniquenessInDataWritesAndDeletes_valid hunique
  obtain ⟨hreads, hwrites, hdels⟩ := mvccValidation_passes hmvcc
  exact ⟨hwu, hdu, hdisj, hreads, hwrites, hdels,
    fun d hd => (validateFieldsInDataDeletes_passes hdeletes d hd).2⟩

theorem firstRepeatedDB_none {seen : List String} {ops : List DBOperation}
    (h : firstRepeatedDB seen ops = none) (hseen : seen.Nodup) :
    (seen ++ ops.map DBOperation.dbName).Nodup := by
  induction ops generalizing seen with
  | nil => simpa using hseen
  | cons op ops ih =>
    simp only [firstRepeatedDB] at h
    split at h
    · cases h
    · rename_i hnew
      have hseen' : (seen ++ [op.dbName]).Nodup := by
        refine List.nodup_append.2 ⟨hseen, List.nodup_singleton _, fun a ha b hb hab => hnew ?_⟩
        rw [List.mem_singleton] at hb
        rw [← hb, ← hab]
        exact ha
      simpa using ih h hseen'

/-- A `VALID` data transaction names each database once, and its operations on each pass
`OpsValid`. -/
theorem validate_valid {iq : IdentityQuerier} {db : LevelDB} {txEnv : DataTxEnvelope}
    {userIDsWithValidSign : List String} {pendingOps : PendingOperations}
    (h : Passes (validate iq db txEnv userIDsWithValidSign pendingOps)) :
    (txEnv.payload.dbOperations.map DBOperation.dbName).Nodup ∧
      ∀ txOps ∈ txEnv.payload.dbOperations, OpsValid db pendingOps txOps := by
  unfold validate at h
  split at h
  · simp at h
  · rename_i hnone
    have hfirst : firstRepeatedDB [] txEnv.payload.dbOperations = none :=
      Option.eq_none_iff_forall_ne_some.2 hnone
    refine ⟨by simpa using firstRepeatedDB_none hfirst List.nodup_nil, fun txOps hops => ?_⟩
    have hbody := (checkEach_passes _ _).1 h txOps hops
    simp only at hbody
    split at hbody
    · simp_all
    · cases hfilter : List.filterM (fun userID => iq.HasReadWriteAccess userID txOps.dbName)
          (sortStrings userIDsWithValidSign) with
      | error e => simp [hfilter] at hbody
      | ok users =>
        rw [hfilter, Except.ok_bind] at hbody
        split at hbody
        · simp at hbody
        · exact validateOps_valid hbody

/-- A database name that passes is valid, exists and is not a system database. -/
theorem validateDBName_valid {db : LevelDB} {dbName : String}
    (h : (validateDBName db dbName).flag = .VALID) :
    ValidDBName dbName = true ∧ db.Exist dbName = true ∧ IsSystemDB dbName = false := by
  unfold validateDBName at h
  split_ifs at h with hvalid hexist hsystem
  · cases h
  · cases h
  · cases h
  · exact ⟨by simpa using hvalid, by simpa using hexist, by simpa using hsystem⟩

/-- A `VALID` data transaction operates on databases whose names pass `validateDBName`. -/
theorem validate_dbNames {iq : IdentityQuerier} {db : LevelDB} {txEnv : DataTxEnvelope}
    {userIDsWithValidSign : List String} {pendingOps : PendingOperations}
    (h : Passes (validate iq db txEnv userIDsWithValidSign pendingOps)) :
    ∀ txOps ∈ txEnv.payload.dbOperations, (validateDBName db txOps.dbName).flag = .VALID := by
  unfold validate at h
  split at h
  · simp at h
  · intro txOps hops
    have hbody := (checkEach_passes _ _).1 h txOps hops
    simp only at hbody
    split at hbody
    · simp_all
    · rename_i hname
      simpa using hname

/-! #### Authorisation

What a `VALID` result says of who may do what: the spec of the access checks. -/

/-- The users `writers` may write or delete a key under its access control `acl`: someone may,
and with policy `ANY` one of `writers` is a writer of the key, with `ALL` every writer of the key
is one of `writers`. -/
structure WriteAuthorised (writers : String → Prop) (acl : AccessControl) : Prop where
  nonempty : acl.readWriteUsers ≠ []
  any : acl.signPolicyForWrite = .ANY → ∃ u, writers u ∧ lookupBool acl.readWriteUsers u = true
  all : acl.signPolicyForWrite = .ALL → ∀ u ∈ acl.readWriteUsers.map Prod.fst, writers u

theorem WriteAuthorised.mono {P Q : String → Prop} {acl : AccessControl} (h : WriteAuthorised P acl)
    (hPQ : ∀ u, P u → Q u) : WriteAuthorised Q acl where
  nonempty := h.nonempty
  any hany := by
    obtain ⟨u, hu, hw⟩ := h.any hany
    exact ⟨u, hPQ u hu, hw⟩
  all hall u hu := hPQ u (h.all hall u hu)

/-- One database's operations, for the users `signers` whose signature verifies: the database
exists and is not a system database, some signer may write to it, and the access control of each
key read, written or deleted admits the signers who may write to the database. -/
structure OpsAuthorised (iq : IdentityQuerier) (db : LevelDB) (signers : List String)
    (ops : DBOperation) : Prop where
  exist : db.Exist ops.dbName = true
  notSystem : IsSystemDB ops.dbName = false
  someWriter : ∃ u ∈ signers, iq.HasReadWriteAccess u ops.dbName = .ok true
  reads : ∀ r ∈ ops.dataReads, ∀ acl, db.GetACL ops.dbName r.key = .ok (some acl) →
    ∃ u ∈ signers, iq.HasReadWriteAccess u ops.dbName = .ok true ∧
      (lookupBool acl.readUsers u || lookupBool acl.readWriteUsers u) = true
  writes : ∀ key ∈ ops.dataWrites.map DataWrite.key ++ ops.dataDeletes.map DataDelete.key,
    ∀ acl, db.GetACL ops.dbName key = .ok (some acl) →
      WriteAuthorised (fun u => u ∈ signers ∧ iq.HasReadWriteAccess u ops.dbName = .ok true) acl

/-- A key read passes its access check only if one of `userIDs` may read it. -/
theorem validateACLOnDataReads_valid {db : LevelDB} {userIDs : List String} {dbName : String}
    {reads : List DataRead} (h : Passes (validateACLOnDataReads db userIDs dbName reads)) :
    ∀ r ∈ reads, ∀ acl, db.GetACL dbName r.key = .ok (some acl) →
      ∃ u ∈ userIDs, (lookupBool acl.readUsers u || lookupBool acl.readWriteUsers u) = true := by
  intro r hr acl hacl
  have hcheck := (checkEach_passes _ _).1 h r hr
  simp only [hacl, Except.mapError, Except.ok_bind] at hcheck
  by_cases hany : userIDs.any (fun u => lookupBool acl.readUsers u || lookupBool acl.readWriteUsers u) = true
  · exact List.any_eq_true.1 hany
  · simp [hany] at hcheck

/-- A key written or deleted passes its access check only if `userIDs` may write it. -/
theorem validateACLForWriteOrDelete_valid {db : LevelDB} {userIDs : List String}
    {dbName key : String} {acl : AccessControl}
    (h : Passes (validateACLForWriteOrDelete db userIDs dbName key))
    (hacl : db.GetACL dbName key = .ok (some acl)) : WriteAuthorised (· ∈ userIDs) acl := by
  simp only [validateACLForWriteOrDelete, hacl, Except.ok_bind] at h
  -- the writers' check comes first; then the policy decides which check follows
  have hnonempty : acl.readWriteUsers ≠ [] := by
    intro hnil
    simp [hnil] at h
  have hlen : (acl.readWriteUsers.length = 0) = False := by
    simpa [List.length_eq_zero_iff] using hnonempty
  simp only [hlen, if_false] at h
  refine ⟨hnonempty, fun hany => ?_, fun hall => ?_⟩
  · rw [hany] at h
    by_cases hsome : userIDs.any (lookupBool acl.readWriteUsers) = true
    · obtain ⟨u, hu, hw⟩ := List.any_eq_true.1 hsome
      exact ⟨u, hu, hw⟩
    · simp [hsome] at h
  · rw [hall] at h
    by_cases hevery : (acl.readWriteUsers.map Prod.fst).all (· ∈ userIDs) = true
    · intro u hu
      simpa using List.all_eq_true.1 hevery u hu
    · simp [hevery] at h

/-- The keys `validateACLOnKeys` passes are keys `userIDs` may write. -/
theorem validateACLOnKeys_valid {db : LevelDB} {userIDs : List String} {dbName : String}
    {keys : List String} (h : Passes (validateACLOnKeys db userIDs dbName keys)) :
    ∀ key ∈ keys, ∀ acl, db.GetACL dbName key = .ok (some acl) → WriteAuthorised (· ∈ userIDs) acl :=
  fun key hkey _ hacl => validateACLForWriteOrDelete_valid ((checkEach_passes _ _).1 h key hkey) hacl

theorem mem_sortStrings {xs : List String} {u : String} : u ∈ sortStrings xs ↔ u ∈ xs :=
  (List.perm_insertionSort _ xs).mem_iff

/-- **A `VALID` data transaction is authorised** on each database it operates on, for the
signers `validate` was given. -/
theorem validate_authorised {iq : IdentityQuerier} {db : LevelDB} {txEnv : DataTxEnvelope}
    {userIDsWithValidSign : List String} {pendingOps : PendingOperations}
    (h : Passes (validate iq db txEnv userIDsWithValidSign pendingOps)) :
    ∀ ops ∈ txEnv.payload.dbOperations, OpsAuthorised iq db userIDsWithValidSign ops := by
  intro ops hops
  obtain ⟨hvalidName, hexist, hsystem⟩ := validateDBName_valid (validate_dbNames h ops hops)
  unfold validate at h
  split at h
  · simp at h
  have hbody := (checkEach_passes _ _).1 h ops hops
  simp only at hbody
  split at hbody
  · simp_all
  cases hfilter : List.filterM (fun userID => iq.HasReadWriteAccess userID ops.dbName)
      (sortStrings userIDsWithValidSign) with
  | error e => simp [hfilter] at hbody
  | ok users =>
    rw [hfilter, Except.ok_bind] at hbody
    split at hbody
    · simp at hbody
    rename_i hlen
    -- the users the checks ran with are signers who may write to the database
    have husers : ∀ u ∈ users, u ∈ userIDsWithValidSign ∧ iq.HasReadWriteAccess u ops.dbName = .ok true := by
      intro u hu
      obtain ⟨hsorted, haccess⟩ := Except.mem_of_filterM_eq_ok hfilter hu
      exact ⟨mem_sortStrings.1 hsorted, haccess⟩
    obtain ⟨-, -, -, hreads, hwrites, hdeletes, -⟩ := validateOps_passes.1 hbody
    refine ⟨hexist, hsystem, ?_, fun r hr acl hacl => ?_, fun key hkey acl hacl => ?_⟩
    · obtain ⟨u, hu⟩ := List.exists_mem_of_length_pos (Nat.pos_of_ne_zero hlen)
      exact ⟨u, (husers u hu).1, (husers u hu).2⟩
    · obtain ⟨u, hu, hread⟩ := validateACLOnDataReads_valid hreads r hr acl hacl
      exact ⟨u, (husers u hu).1, (husers u hu).2, hread⟩
    · rcases List.mem_append.1 hkey with hkey | hkey
      · exact (validateACLOnKeys_valid hwrites key hkey acl hacl).mono husers
      · exact (validateACLOnKeys_valid hdeletes key hkey acl hacl).mono husers

end Orion.TxValidation
