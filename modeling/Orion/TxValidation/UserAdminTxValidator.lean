import Orion.Identity.Querier
import Orion.Types.UserAdmin

/-!
# Validation of a user administration transaction (`internal/txvalidation/useradmin_tx_validator.go`)

A user administration transaction is valid when its signature verifies, its submitter is an
admin, every user it writes is well formed (an ID, no admin privilege, permissions only on
databases that exist, a certificate the cluster's certificate authorities sign), every user it
deletes is named, no user is written or deleted twice or both, the access control of every user
it reads, writes or deletes lets the submitter do so, no admin is written or deleted, and every
user it read is still at the version it read. As for data transactions, every check returns a
`ValidationInfo`, the first that is not `VALID` decides, and a check that fails to read the world
state fails the block.

A check that asks the identity querier about a user tells a missing user (`NotFoundErr`) apart
from the other errors: a write or a read of a missing user is checked no further, a delete of one
is invalid, and any other error fails the check (`onQuerierError`).

## What is proved

`validate_valid`: a `VALID` transaction was submitted by an admin, and its writes and deletes are
`UserWritesValid`: each write is of a user that is not an admin, and whose ID names no admin in the
committed state; each delete names a user that exists and is not an admin; the IDs are pairwise
distinct.
-/

namespace Orion.TxValidation

open Orion.State Orion.Types Orion.WorldState Orion.BlockProcessor Orion.Identity

/-- `userAdminTxValidator`: the committed state, the wire forms of the users and the
configuration, the certificate authority library, and what the validator asks of the signature
verifier (`none` when the signature verifies). -/
structure userAdminTxValidator where
  db : LevelDB
  codecs : Codecs
  libs : ConfigLibs
  Verify : String → Bytes → UserAdministrationTx → Option String

/-- Go's `if _, ok := err.(*identity.NotFoundErr); !ok { return nil, err }`: a missing user gives
`onNotFound`, any other error is returned. -/
def onQuerierError (onNotFound : ValidationInfo) : QuerierError → Except String ValidationInfo
  | .notFound _ => .ok onNotFound
  | .other err => .error err

/-- `validateFieldsInUserDeletes`. -/
def validateFieldsInUserDeletes : List UserDelete → ValidationInfo
  | [] => .valid
  | d :: rest =>
    if d.userId = "" then
      invalid .INVALID_INCORRECT_ENTRIES
        "there is an user in the delete list with an empty ID. A valid userID must be an non-empty string"
    else validateFieldsInUserDeletes rest

/-- The loop of `validateUniquenessInUserWritesAndDeletes` over the deletes, with the IDs written
and the IDs deleted so far. -/
def validateUniquenessInUserDeletes (writeUserIDs : List String) :
    List String → List UserDelete → ValidationInfo
  | _, [] => .valid
  | deleteUserIDs, d :: rest =>
    if d.userId ∈ deleteUserIDs then
      invalid .INVALID_INCORRECT_ENTRIES ("there are two users with the same userID [" ++ d.userId ++
        "] in the delete list. The userIDs in the delete list must be unique")
    else if d.userId ∈ writeUserIDs then
      invalid .INVALID_INCORRECT_ENTRIES ("the user [" ++ d.userId ++
        "] is present in both write and delete list. Only one operation per key is allowed within a transaction")
    else validateUniquenessInUserDeletes writeUserIDs (d.userId :: deleteUserIDs) rest

/-- The loop of `validateUniquenessInUserWritesAndDeletes` over the writes, with the IDs written so
far, and then the loop over the deletes. -/
def validateUniquenessInUserWrites (userDeletes : List UserDelete) :
    List String → List UserWrite → Except String ValidationInfo
  | writeUserIDs, [] => .ok (validateUniquenessInUserDeletes writeUserIDs [] userDeletes)
  | writeUserIDs, w :: rest => do
    let id ← w.userId
    if id ∈ writeUserIDs then
      pure (invalid .INVALID_INCORRECT_ENTRIES ("there are two users with the same userID [" ++ id ++
        "] in the write list. The userIDs in the write list must be unique"))
    else validateUniquenessInUserWrites userDeletes (id :: writeUserIDs) rest

/-- `validateUniquenessInUserWritesAndDeletes`. -/
def validateUniquenessInUserWritesAndDeletes (userWrites : List UserWrite)
    (userDeletes : List UserDelete) : Except String ValidationInfo :=
  validateUniquenessInUserWrites userDeletes [] userWrites

namespace userAdminTxValidator

variable (v : userAdminTxValidator)

/-- `txSigValidator.validate` of the transaction. -/
def sigValidate (user : String) (signature : Bytes) (payload : UserAdministrationTx) : ValidationInfo :=
  (v.Verify user signature payload).elim .valid
    fun err => invalid .INVALID_UNAUTHORISED ("signature verification failed: " ++ err)

/-- The checks of one write in `validateFieldsInUserWrites`, against the collection of the
cluster's certificate authorities. -/
def validateFieldsInUserWrite (caCertCollection : v.libs.CACertCollection) (w : UserWrite) :
    ValidationInfo :=
  match w.user with
  | none => invalid .INVALID_INCORRECT_ENTRIES "there is an empty user entry in the write list"
  | some user =>
    if user.id = "" then
      invalid .INVALID_INCORRECT_ENTRIES
        "there is an user in the write list with an empty ID. A valid userID must be an non-empty string"
    else
      let privilegeCheck : Option ValidationInfo := user.privilege.bind fun privilege =>
        if privilege.admin then
          some (invalid .INVALID_NO_PERMISSION ("the user [" ++ user.id ++
            "] is marked as admin user. Only via a cluster configuration transaction, the [" ++
            user.id ++ "] can be added as admin"))
        else
          ((privilege.dbPermission.map Prod.fst).find? fun dbName => !v.db.Exist dbName).map
            fun dbName => invalid .INVALID_DATABASE_DOES_NOT_EXIST ("the database [" ++ dbName ++
              "] present in the db permission list does not exist in the cluster")
      privilegeCheck.getD <|
        (v.libs.VerifyLeafCert caCertCollection user.certificate).elim .valid fun err =>
          invalid .INVALID_INCORRECT_ENTRIES ("the user [" ++ user.id ++
            "] in the write list has an invalid certificate: Error = " ++ err)

/-- `validateFieldsInUserWrites`: the certificate authorities of the committed configuration,
then each write. A configuration without them is a `nil` pointer, dereferenced. -/
def validateFieldsInUserWrites (userWrites : List UserWrite) : Except String ValidationInfo := do
  let committed ← (v.db.GetConfig v.codecs.config).mapError ("cannot get config: " ++ ·)
  let caConfig ← committed.1.certAuthConfig.elim (.error runtimeNilDereference) .ok
  let caCertCollection ← (v.libs.NewCACertCollection caConfig.roots caConfig.intermediates).mapError
    ("cannot build CA certificate collection: " ++ ·)
  checkEach (fun w => pure (v.validateFieldsInUserWrite caCertCollection w)) userWrites

/-- `validateACLOnUserReads`: a missing user is not checked. -/
def validateACLOnUserReads (operatingUser : String) (reads : List UserRead) :
    Except String ValidationInfo :=
  checkEach (fun r =>
    match HasReadAccessOnTargetUser v.codecs.user v.db operatingUser r.userId with
    | .error err => onQuerierError .valid err
    | .ok hasPerm =>
      if !hasPerm then
        .ok (invalid .INVALID_NO_PERMISSION ("the user [" ++ operatingUser ++
          "] has no read permission on the user [" ++ r.userId ++ "]"))
      else .ok .valid) reads

/-- One write of `validateACLOnUserWrites`: a missing user is not checked; an admin may not be
written. -/
def validateACLOnUserWrite (operatingUser : String) (w : UserWrite) : Except String ValidationInfo := do
  let targetUser ← w.userId
  match HasAdministrationPrivilege v.codecs.user v.db targetUser with
  | .error err => onQuerierError .valid err
  | .ok true =>
    pure (invalid .INVALID_NO_PERMISSION ("the user [" ++ targetUser ++
      "] is an admin user. Only via a cluster configuration transaction, the [" ++ targetUser ++
      "] can be modified"))
  | .ok false =>
    let hasPerm ← (HasReadWriteAccessOnTargetUser v.codecs.user v.db operatingUser targetUser).mapError
      QuerierError.Error
    if !hasPerm then
      pure (invalid .INVALID_NO_PERMISSION ("the user [" ++ operatingUser ++
        "] has no write permission on the user [" ++ targetUser ++ "]"))
    else pure .valid

/-- `validateACLOnUserWrites`. -/
def validateACLOnUserWrites (operatingUser : String) (writes : List UserWrite) :
    Except String ValidationInfo :=
  checkEach (v.validateACLOnUserWrite operatingUser) writes

/-- One delete of `validateACLOnUserDeletes`: the user must exist and not be an admin. -/
def validateACLOnUserDelete (operatingUser : String) (d : UserDelete) : Except String ValidationInfo := do
  let targetUser := d.userId
  match HasAdministrationPrivilege v.codecs.user v.db targetUser with
  | .error err =>
    onQuerierError (invalid .INVALID_INCORRECT_ENTRIES ("the user [" ++ targetUser ++
      "] present in the delete list does not exist")) err
  | .ok true =>
    pure (invalid .INVALID_NO_PERMISSION ("the user [" ++ targetUser ++
      "] is an admin user. Only via a cluster configuration transaction, the [" ++ targetUser ++
      "] can be deleted"))
  | .ok false =>
    let hasPerm ← (HasReadWriteAccessOnTargetUser v.codecs.user v.db operatingUser targetUser).mapError
      QuerierError.Error
    if !hasPerm then
      pure (invalid .INVALID_NO_PERMISSION ("the user [" ++ operatingUser ++
        "] has no write permission on the user [" ++ targetUser ++
        "]. Hence, the delete operation cannot be performed"))
    else pure .valid

/-- `validateACLOnUserDeletes`. -/
def validateACLOnUserDeletes (operatingUser : String) (deletes : List UserDelete) :
    Except String ValidationInfo :=
  checkEach (v.validateACLOnUserDelete operatingUser) deletes

/-- `mvccValidation`: each user read is at its committed version, `nil` for a missing user. -/
def mvccValidation (userReads : List UserRead) : Except String ValidationInfo :=
  checkEach (fun r => do
    let committedVersion ← match GetUserVersion v.codecs.user v.db r.userId with
      | .error (.notFound _) => .ok none
      | .error (.other err) => .error err
      | .ok version => .ok version
    if r.version = committedVersion then pure .valid
    else pure (invalid .INVALID_MVCC_CONFLICT_WITH_COMMITTED_STATE
      ("mvcc conflict has occurred as the committed state for the user [" ++ r.userId ++
        "] has changed"))) userReads

/-- `validate`: the checks in Go's order. -/
def validate (txEnv : UserAdministrationTxEnvelope) : Except String ValidationInfo := do
  let valInfo := v.sigValidate txEnv.payload.userId txEnv.signature txEnv.payload
  if valInfo.flag != .VALID then return valInfo
  let tx := txEnv.payload
  let hasPerm ← (HasAdministrationPrivilege v.codecs.user v.db tx.userId).mapError fun err =>
    "error while checking user administrative privilege for user [" ++ tx.userId ++ "]: " ++ err.Error
  if !hasPerm then
    return invalid .INVALID_NO_PERMISSION ("the user [" ++ tx.userId ++
      "] has no privilege to perform user administrative operations")
  let r ← (v.validateFieldsInUserWrites tx.userWrites).mapError
    ("error while validating fields in user writes: " ++ ·)
  if r.flag != .VALID then return r
  let r := validateFieldsInUserDeletes tx.userDeletes
  if r.flag != .VALID then return r
  let r ← validateUniquenessInUserWritesAndDeletes tx.userWrites tx.userDeletes
  if r.flag != .VALID then return r
  let r ← (v.validateACLOnUserReads tx.userId tx.userReads).mapError
    ("error while validating ACL on reads: " ++ ·)
  if r.flag != .VALID then return r
  let r ← (v.validateACLOnUserWrites tx.userId tx.userWrites).mapError
    ("error while validating ACL on writes: " ++ ·)
  if r.flag != .VALID then return r
  let r ← (v.validateACLOnUserDeletes tx.userId tx.userDeletes).mapError
    ("error while validating ACL on deletes: " ++ ·)
  if r.flag != .VALID then return r
  v.mvccValidation tx.userReads

end userAdminTxValidator

/-! ### What a `VALID` result guarantees -/

/-- A missing user passes exactly when `onNotFound` does; any other error never passes. -/
theorem passes_onQuerierError {onNotFound : ValidationInfo} {err : QuerierError} :
    Passes (onQuerierError onNotFound err) ↔ ∃ id, err = .notFound id ∧ onNotFound.flag = .VALID := by
  cases err <;> simp [onQuerierError, Passes]

/-- A delete list passes the field check when every user it names has an ID. -/
theorem validateFieldsInUserDeletes_valid :
    ∀ {ds : List UserDelete}, (validateFieldsInUserDeletes ds).flag = .VALID → ∀ d ∈ ds, d.userId ≠ ""
  | [], _, _, hd => absurd hd List.not_mem_nil
  | d :: ds, h, d', hd' => by
    unfold validateFieldsInUserDeletes at h
    split_ifs at h with hid
    · simp at h
    · rcases List.mem_cons.1 hd' with rfl | hd'
      · exact hid
      · exact validateFieldsInUserDeletes_valid h d' hd'

/-- The loop over the deletes passes when their IDs are pairwise distinct, new to those deleted
before and not written. -/
theorem validateUniquenessInUserDeletes_valid {writeUserIDs : List String} :
    ∀ {deleteUserIDs : List String} {ds : List UserDelete},
      (validateUniquenessInUserDeletes writeUserIDs deleteUserIDs ds).flag = .VALID →
        (ds.map UserDelete.userId).Nodup ∧ ∀ d ∈ ds, d.userId ∉ deleteUserIDs ∧ d.userId ∉ writeUserIDs
  | _, [], _ => by simp
  | deleteUserIDs, d :: ds, h => by
    unfold validateUniquenessInUserDeletes at h
    split_ifs at h with hdel hwrite
    · simp at h
    · simp at h
    · obtain ⟨hnodup, hfresh⟩ := validateUniquenessInUserDeletes_valid h
      obtain ⟨hnodup', hfresh'⟩ := Orion.Lib.fresh_cons hdel
        ⟨hnodup, fun d' hd' => (hfresh d' hd').1⟩
      refine ⟨hnodup', fun d' hd' => ⟨hfresh' d' hd', ?_⟩⟩
      rcases List.mem_cons.1 hd' with rfl | hd'
      · exact hwrite
      · exact (hfresh d' hd').2

/-- The loop over the writes passes when every write has a user, their IDs are pairwise distinct
and new to those written before, and the deletes pass against all of them. -/
theorem validateUniquenessInUserWrites_valid {userDeletes : List UserDelete} :
    ∀ {writeUserIDs : List String} {ws : List UserWrite},
      Passes (validateUniquenessInUserWrites userDeletes writeUserIDs ws) →
        ∃ users : List User, ws.map UserWrite.user = users.map some ∧ (users.map User.id).Nodup ∧
          (∀ u ∈ users, u.id ∉ writeUserIDs) ∧ (userDeletes.map UserDelete.userId).Nodup ∧
            ∀ d ∈ userDeletes, d.userId ∉ writeUserIDs ∧ ∀ u ∈ users, u.id ≠ d.userId
  | writeUserIDs, [], h => by
    obtain ⟨hnodup, hfresh⟩ := validateUniquenessInUserDeletes_valid ((passes_pure _).1 h)
    exact ⟨[], rfl, List.nodup_nil, by simp, hnodup, fun d hd => ⟨(hfresh d hd).2, by simp⟩⟩
  | writeUserIDs, w :: ws, h => by
    unfold validateUniquenessInUserWrites at h
    obtain ⟨r, hr, hvalid⟩ := h
    obtain ⟨id, hid, hr⟩ := Except.bind_eq_ok.1 hr
    obtain ⟨user, huser, rfl⟩ : ∃ user, w.user = some user ∧ user.id = id := by
      cases hw : w.user with
      | none => simp [UserWrite.userId, hw] at hid
      | some user =>
        simp only [UserWrite.userId, hw, Option.elim_some, Except.ok.injEq] at hid
        exact ⟨user, rfl, hid⟩
    split_ifs at hr with hseen
    · cases hr
      simp at hvalid
    · obtain ⟨users, hmap, hnodup, hfresh, hdnodup, hdfresh⟩ :=
        validateUniquenessInUserWrites_valid ⟨r, hr, hvalid⟩
      have hnew : ((user :: users).map User.id).Nodup ∧ ∀ u ∈ user :: users, u.id ∉ writeUserIDs :=
        Orion.Lib.fresh_cons hseen ⟨hnodup, hfresh⟩
      obtain ⟨hnodup', hfresh'⟩ := hnew
      refine ⟨user :: users, by simp [huser, hmap], hnodup', hfresh', hdnodup, fun d hd => ?_⟩
      obtain ⟨hwrite, hne⟩ := hdfresh d hd
      refine ⟨fun hmem => hwrite (List.mem_cons_of_mem _ hmem), fun u hu => ?_⟩
      rcases List.mem_cons.1 hu with rfl | hu
      · exact fun heq => hwrite (heq ▸ List.mem_cons_self)
      · exact hne u hu

namespace userAdminTxValidator

variable {v : userAdminTxValidator}

/-- A write passes the field check only with a user, with an ID and without the admin privilege. -/
theorem validateFieldsInUserWrite_valid {caCertCollection : v.libs.CACertCollection} {w : UserWrite}
    (h : (v.validateFieldsInUserWrite caCertCollection w).flag = .VALID) :
    ∃ user, w.user = some user ∧ user.id ≠ "" ∧ (user.privilege.map Privilege.admin).getD false = false := by
  unfold validateFieldsInUserWrite at h
  cases hw : w.user with
  | none => simp [hw] at h
  | some user =>
    simp only [hw] at h
    split_ifs at h with hid
    · simp at h
    refine ⟨user, rfl, hid, ?_⟩
    cases hp : user.privilege with
    | none => rfl
    | some privilege =>
      cases hadmin : privilege.admin
      · simp [hadmin]
      · simp [hp, hadmin] at h

/-- The writes pass the field check only if each does. -/
theorem validateFieldsInUserWrites_valid {ws : List UserWrite}
    (h : Passes (v.validateFieldsInUserWrites ws)) :
    ∀ w ∈ ws, ∃ user, w.user = some user ∧ user.id ≠ "" ∧
      (user.privilege.map Privilege.admin).getD false = false := by
  obtain ⟨r, hr, hvalid⟩ := h
  unfold validateFieldsInUserWrites at hr
  obtain ⟨committed, -, hr⟩ := Except.bind_eq_ok.1 hr
  obtain ⟨caConfig, -, hr⟩ := Except.bind_eq_ok.1 hr
  obtain ⟨caCertCollection, -, hr⟩ := Except.bind_eq_ok.1 hr
  intro w hw
  have hcheck := (checkEach_passes _ ws).1 ⟨r, hr, hvalid⟩ w hw
  exact validateFieldsInUserWrite_valid ((passes_pure _).1 hcheck)

/-- A write passes the access control check only if its user is not an admin. -/
theorem validateACLOnUserWrite_valid {operatingUser : String} {w : UserWrite} {user : User}
    (h : Passes (v.validateACLOnUserWrite operatingUser w)) (huser : w.user = some user) :
    HasAdministrationPrivilege v.codecs.user v.db user.id ≠ .ok true := by
  intro hadmin
  simp only [validateACLOnUserWrite, UserWrite.userId, huser, Option.elim_some, Except.ok_bind,
    hadmin] at h
  simp at h

/-- A delete passes the access control check only if its user exists and is not an admin. -/
theorem validateACLOnUserDelete_valid {operatingUser : String} {d : UserDelete}
    (h : Passes (v.validateACLOnUserDelete operatingUser d)) :
    HasAdministrationPrivilege v.codecs.user v.db d.userId = .ok false := by
  cases hadmin : HasAdministrationPrivilege v.codecs.user v.db d.userId with
  | error err =>
    simp only [validateACLOnUserDelete, hadmin] at h
    obtain ⟨_, -, hflag⟩ := passes_onQuerierError.1 h
    simp at hflag
  | ok admin =>
    cases admin
    · rfl
    · simp only [validateACLOnUserDelete, hadmin] at h
      simp at h

/-- The checks of `validate`, in Go's order. -/
theorem validate_passes {txEnv : UserAdministrationTxEnvelope} :
    Passes (v.validate txEnv) ↔
      (v.sigValidate txEnv.payload.userId txEnv.signature txEnv.payload).flag = .VALID ∧
      HasAdministrationPrivilege v.codecs.user v.db txEnv.payload.userId = .ok true ∧
      Passes (v.validateFieldsInUserWrites txEnv.payload.userWrites) ∧
      (validateFieldsInUserDeletes txEnv.payload.userDeletes).flag = .VALID ∧
      Passes (validateUniquenessInUserWritesAndDeletes txEnv.payload.userWrites txEnv.payload.userDeletes) ∧
      Passes (v.validateACLOnUserReads txEnv.payload.userId txEnv.payload.userReads) ∧
      Passes (v.validateACLOnUserWrites txEnv.payload.userId txEnv.payload.userWrites) ∧
      Passes (v.validateACLOnUserDeletes txEnv.payload.userId txEnv.payload.userDeletes) ∧
      Passes (v.mvccValidation txEnv.payload.userReads) := by
  simp only [validate, passes_if_check, passes_bind_check, passes_mapError,
    passes_bind_bool (by decide : Flag.INVALID_NO_PERMISSION ≠ .VALID), Except.mapError_eq_ok]

end userAdminTxValidator

/-- What a `VALID` user administration transaction says of its writes and deletes, against the
committed state `db`. -/
structure UserWritesValid (userCodec : ProtoCodec User) (db : LevelDB) (tx : UserAdministrationTx)
    (users : List User) : Prop where
  /-- The users written, one per write. -/
  writtenUsers : tx.userWrites.map UserWrite.user = users.map some
  /-- Every user written has an ID. -/
  named : ∀ u ∈ users, u.id ≠ ""
  /-- No user written is an admin. -/
  notAdmin : ∀ u ∈ users, (u.privilege.map Privilege.admin).getD false = false
  /-- No user written is an admin in the committed state. -/
  targetsNotAdmin : ∀ u ∈ users, HasAdministrationPrivilege userCodec db u.id ≠ .ok true
  /-- Every user deleted exists and is not an admin. -/
  deleteTargetsNotAdmin : ∀ d ∈ tx.userDeletes, HasAdministrationPrivilege userCodec db d.userId = .ok false
  /-- The IDs written are pairwise distinct. -/
  writesUnique : (users.map User.id).Nodup
  /-- The IDs deleted are pairwise distinct. -/
  deletesUnique : (tx.userDeletes.map UserDelete.userId).Nodup
  /-- No user is both written and deleted. -/
  disjoint : ∀ d ∈ tx.userDeletes, ∀ u ∈ users, u.id ≠ d.userId

namespace userAdminTxValidator

variable {v : userAdminTxValidator}

/-- **What a `VALID` user administration transaction guarantees.** Its submitter is an admin,
and its writes and deletes are `UserWritesValid`. -/
theorem validate_valid {txEnv : UserAdministrationTxEnvelope} (h : Passes (v.validate txEnv)) :
    HasAdministrationPrivilege v.codecs.user v.db txEnv.payload.userId = .ok true ∧
      ∃ users, UserWritesValid v.codecs.user v.db txEnv.payload users := by
  obtain ⟨-, hadmin, hfields, -, hunique, -, hwrites, hdeletes, -⟩ := validate_passes.1 h
  obtain ⟨users, hmap, hnodup, -, hdnodup, hdisj⟩ := validateUniquenessInUserWrites_valid hunique
  have hmem : ∀ u ∈ users, ∃ w ∈ txEnv.payload.userWrites, w.user = some u := by
    intro u hu
    have hsome : some u ∈ txEnv.payload.userWrites.map UserWrite.user := hmap ▸ List.mem_map_of_mem hu
    obtain ⟨w, hw, hwu⟩ := List.mem_map.1 hsome
    exact ⟨w, hw, hwu⟩
  -- the field check of a written user's write
  have hfield : ∀ u ∈ users, u.id ≠ "" ∧ (u.privilege.map Privilege.admin).getD false = false := by
    intro u hu
    obtain ⟨w, hw, hwu⟩ := hmem u hu
    obtain ⟨user, huser, hnamed, hnotAdmin⟩ := validateFieldsInUserWrites_valid hfields w hw
    rw [hwu] at huser
    cases huser
    exact ⟨hnamed, hnotAdmin⟩
  refine ⟨hadmin, users, ⟨hmap, fun u hu => (hfield u hu).1, fun u hu => (hfield u hu).2,
    fun u hu => ?_, fun d hd => ?_, hnodup, hdnodup, fun d hd => (hdisj d hd).2⟩⟩
  · obtain ⟨w, hw, hwu⟩ := hmem u hu
    exact validateACLOnUserWrite_valid ((checkEach_passes _ _).1 hwrites w hw) hwu
  · exact validateACLOnUserDelete_valid ((checkEach_passes _ _).1 hdeletes d hd)

end userAdminTxValidator

end Orion.TxValidation
