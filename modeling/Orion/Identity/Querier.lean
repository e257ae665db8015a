import Orion.BlockProcessor.ConfigTx

/-!
# The identity querier (`internal/identity/querier.go`)

The querier reads users from `_users`, each under the byte `0` followed by its ID
(`UserNamespace`), and nodes from `_config` under `NodeNamespace`. A missing user or node is the
error `NotFoundErr`, which callers tell apart from the other errors by its type; here the errors
are `QuerierError`, whose text is Go's. What a user may do follows from the user alone: an admin
may do everything, the others what their database permissions give (`hasPrivilege`), and the
access control on a user's entry says who may read and write that user.

`GetCertificate`, which parses a certificate with `x509`, is left out.

## What is proved

* `getIdentity_eq_ok` — `GetUser` and `GetNode`, one lookup under two namespaces, find exactly
  the stored identities that decode.
* `hasPrivilege_mono` — a user with a privilege on a database has every lower one.
-/

namespace Orion.Types

/-- `Privilege_Access` as the protobuf number Go compares. -/
def PrivilegeAccess.number : PrivilegeAccess → Nat
  | .Read => 0
  | .ReadWrite => 1

end Orion.Types

namespace Orion.Identity

open Orion.State Orion.Types Orion.WorldState Orion.BlockProcessor

/-- The errors of the querier. -/
inductive QuerierError where
  /-- `NotFoundErr`: nothing is stored under the ID. -/
  | notFound (id : String)
  /-- Any other error, by its text. -/
  | other (err : String)
  deriving DecidableEq, Repr

/-- `Error()`. -/
def QuerierError.Error : QuerierError → String
  | .notFound id => "the user [" ++ id ++ "] does not exist"
  | .other err => err

/-- The lookup of `GetUser` and `GetNode`: the identity stored under its ID in a namespace of a
database, named `kind` in the errors. An empty value is `nil` after the round trip through the
world state, and reads as no identity. -/
def getIdentity {α : Type} [Inhabited α] (codec : ProtoCodec α) (db : LevelDB) (dbName ns kind : String)
    (id : String) : Except QuerierError (α × Option Metadata) := do
  let stored ← (db.Get dbName (ns ++ id)).mapError
    fun err => .other ("error while fetching " ++ kind ++ " [" ++ id ++ "]: " ++ err)
  if stored.1 = [] then throw (.notFound id)
  let identity ← (codec.Unmarshal stored.1).mapError
    fun err => .other ("error while unmarshaling persisted value of " ++ kind ++ " [" ++ id ++ "]: " ++ err)
  pure (identity, stored.2)

section Users

variable (userCodec : ProtoCodec User) (db : LevelDB)

/-- `DoesUserExist`. -/
def DoesUserExist (userID : String) : Except String Bool :=
  (db.Has UsersDBName (UserNamespace ++ userID)).mapError
    fun err => "error while checking the existance of the userID [" ++ userID ++ "]: " ++ err

/-- `GetUser`: the user stored under its ID, with the metadata of its entry. -/
def GetUser (userID : String) : Except QuerierError (User × Option Metadata) :=
  getIdentity userCodec db UsersDBName UserNamespace "userID" userID

/-- `GetAccessControl`: the access control on the user's entry, `nil` when it has none. -/
def GetAccessControl (userID : String) : Except QuerierError (Option AccessControl) :=
  (fun found => found.2.bind Metadata.accessControl) <$> GetUser userCodec db userID

/-- `GetUserVersion`: the version of the user's entry. Go reads the field of the metadata, which
an entry without metadata has as a `nil` pointer. -/
def GetUserVersion (userID : String) : Except QuerierError (Option Version) := do
  let found ← GetUser userCodec db userID
  found.2.elim (throw (.other runtimeNilDereference)) fun metadata => pure metadata.version

/-- `hasPrivilege`: an admin has every privilege; another user the one its permission on the
database gives, and none on a database it has no permission on. -/
def hasPrivilege (userID dbName : String) (privilege : PrivilegeAccess) : Except QuerierError Bool := do
  let found ← GetUser userCodec db userID
  let user := found.1
  if (user.privilege.map Privilege.admin).getD false then return true
  pure <| ((user.privilege.map Privilege.dbPermission).getD [] |>.lookup dbName).elim false
    fun p => p.number ≥ privilege.number

/-- `HasReadAccessOnDataDB`. -/
def HasReadAccessOnDataDB (userID dbName : String) : Except QuerierError Bool :=
  hasPrivilege userCodec db userID dbName .Read

/-- `HasReadWriteAccess`. -/
def HasReadWriteAccess (userID dbName : String) : Except QuerierError Bool :=
  hasPrivilege userCodec db userID dbName .ReadWrite

/-- `HasAdministrationPrivilege`: `user.GetPrivilege().GetAdmin()`. -/
def HasAdministrationPrivilege (userID : String) : Except QuerierError Bool :=
  (fun found => (found.1.privilege.map Privilege.admin).getD false) <$> GetUser userCodec db userID

/-- `HasReadAccessOnTargetUser`: a user without access control may be read by everyone. -/
def HasReadAccessOnTargetUser (srcUser targetUser : String) : Except QuerierError Bool :=
  (fun acl => acl.elim true fun acl => lookupBool acl.readUsers srcUser ||
    lookupBool acl.readWriteUsers srcUser) <$> GetAccessControl userCodec db targetUser

/-- `HasReadWriteAccessOnTargetUser`: a user without access control may be written by everyone. -/
def HasReadWriteAccessOnTargetUser (srcUser targetUser : String) : Except QuerierError Bool :=
  (fun acl => acl.elim true fun acl => lookupBool acl.readWriteUsers srcUser) <$>
    GetAccessControl userCodec db targetUser

/-- `HasLedgerAccess`: every user may read the ledger. -/
def HasLedgerAccess (userID : String) : Except String Bool := DoesUserExist db userID

/-- What the data transaction validator asks of the querier of the world state `db`. -/
def dataTxQuerier : Orion.TxValidation.IdentityQuerier where
  HasReadWriteAccess userID dbName := (HasReadWriteAccess userCodec db userID dbName).mapError QuerierError.Error
  DoesUserExist := DoesUserExist db

end Users

section Nodes

variable (nodeCodec : ProtoCodec NodeConfig) (db : LevelDB)

/-- `GetNode`: the node stored under its ID in `_config`, with the metadata of its entry. -/
def GetNode (nodeID : String) : Except QuerierError (NodeConfig × Option Metadata) :=
  getIdentity nodeCodec db ConfigDBName NodeNamespace "nodeID" nodeID

/-- `GetNodeVersion`. -/
def GetNodeVersion (nodeID : String) : Except QuerierError (Option Version) := do
  let found ← GetNode nodeCodec db nodeID
  found.2.elim (throw (.other runtimeNilDereference)) fun metadata => pure metadata.version

end Nodes

/-! ### Reading identities -/

section Lookup

variable {α : Type} [Inhabited α] {codec : ProtoCodec α} {db : LevelDB} {dbName ns kind : String}

/-- The lookup finds an identity exactly when a non-empty value that decodes to it is stored under
its ID. -/
theorem getIdentity_eq_ok {id : String} {x : α} {metadata : Option Metadata} :
    getIdentity codec db dbName ns kind id = .ok (x, metadata) ↔
      ∃ val, db.Get dbName (ns ++ id) = .ok (val, metadata) ∧ val ≠ [] ∧ codec.Unmarshal val = .ok x := by
  unfold getIdentity
  cases hget : db.Get dbName (ns ++ id) with
  | error err => simp [Except.mapError]
  | ok stored =>
    obtain ⟨val, m⟩ := stored
    by_cases hval : val = []
    · simp [hval, Except.mapError, throw, throwThe, MonadExceptOf.throw]
    · cases hdec : codec.Unmarshal val <;>
        simp [hval, hdec, Except.mapError, Functor.map, Except.map]
      exact and_comm

/-- A stored identity that decodes is found, with its metadata. -/
theorem getIdentity_of_entry {id : String} {v : ValueWithMetadata} {x : α}
    (hentry : db.entry dbName (ns ++ id) = some v) (hval : v.value ≠ [])
    (hdec : codec.Unmarshal v.value = .ok x) :
    getIdentity codec db dbName ns kind id = .ok (x, v.metadata) :=
  getIdentity_eq_ok.2 ⟨v.value, LevelDB.Get_of_entry hentry, hval, hdec⟩

/-- An identity found is stored, with a non-empty value that decodes to it. -/
theorem entry_of_getIdentity {id : String} {x : α} {metadata : Option Metadata}
    (h : getIdentity codec db dbName ns kind id = .ok (x, metadata)) :
    ∃ v, db.entry dbName (ns ++ id) = some v ∧ v.value ≠ [] ∧ codec.Unmarshal v.value = .ok x := by
  obtain ⟨val, hget, hval, hdec⟩ := getIdentity_eq_ok.1 h
  obtain ⟨v, hv, hvalue, -⟩ := LevelDB.entry_of_Get_ne_nil hget hval
  exact ⟨v, hv, hvalue ▸ hval, hvalue ▸ hdec⟩

end Lookup

section Lemmas

variable {userCodec : ProtoCodec User} {db : LevelDB}

/-- `GetUser` finds a user exactly when `_users` holds a non-empty value under its ID that
decodes to it. -/
theorem GetUser_eq_ok {userID : String} {user : User} {metadata : Option Metadata} :
    GetUser userCodec db userID = .ok (user, metadata) ↔
      ∃ val, db.Get UsersDBName (UserNamespace ++ userID) = .ok (val, metadata) ∧ val ≠ [] ∧
        userCodec.Unmarshal val = .ok user :=
  getIdentity_eq_ok

/-- A stored user that decodes is found, with its metadata. -/
theorem GetUser_of_entry {userID : String} {v : ValueWithMetadata} {user : User}
    (hentry : db.entry UsersDBName (UserNamespace ++ userID) = some v) (hval : v.value ≠ [])
    (hdec : userCodec.Unmarshal v.value = .ok user) :
    GetUser userCodec db userID = .ok (user, v.metadata) :=
  getIdentity_of_entry hentry hval hdec

/-- A user found is stored, with a non-empty value that decodes to it. -/
theorem entry_of_GetUser {userID : String} {user : User} {metadata : Option Metadata}
    (h : GetUser userCodec db userID = .ok (user, metadata)) :
    ∃ v, db.entry UsersDBName (UserNamespace ++ userID) = some v ∧ v.value ≠ [] ∧
      userCodec.Unmarshal v.value = .ok user :=
  entry_of_getIdentity h

/-- `HasAdministrationPrivilege` reads the admin flag of the stored user. -/
theorem HasAdministrationPrivilege_eq_ok {userID : String} {admin : Bool} :
    HasAdministrationPrivilege userCodec db userID = .ok admin ↔
      ∃ user metadata, GetUser userCodec db userID = .ok (user, metadata) ∧
        (user.privilege.map Privilege.admin).getD false = admin := by
  unfold HasAdministrationPrivilege
  rw [Except.map_eq_ok]
  constructor
  · rintro ⟨⟨user, metadata⟩, hget, hadmin⟩
    exact ⟨user, metadata, hget, hadmin⟩
  · rintro ⟨user, metadata, hget, hadmin⟩
    exact ⟨(user, metadata), hget, hadmin⟩

/-- A lower privilege is implied by a higher one: every user with read-write access to a
database may read it. -/
theorem hasPrivilege_mono {userID dbName : String} {p q : PrivilegeAccess}
    (hpq : p.number ≤ q.number) (h : hasPrivilege userCodec db userID dbName q = .ok true) :
    hasPrivilege userCodec db userID dbName p = .ok true := by
  unfold hasPrivilege at h ⊢
  obtain ⟨⟨user, metadata⟩, hget, h⟩ := Except.bind_eq_ok.1 h
  rw [hget, Except.ok_bind]
  dsimp only at h ⊢
  by_cases hadmin : (user.privilege.map Privilege.admin).getD false = true
  · simp only [hadmin, if_true]
    rfl
  · simp only [hadmin, Bool.false_eq_true, if_false] at h ⊢
    cases hperm : ((user.privilege.map Privilege.dbPermission).getD []).lookup dbName with
    | none => simp [hperm, pure, Except.pure] at h
    | some r =>
      simp only [hperm, Option.elim_some, pure, Except.pure, Except.ok.injEq,
        decide_eq_true_eq] at h ⊢
      omega

end Lemmas

end Orion.Identity
