import Orion.Types.Config

/-!
# User administration transactions (`pkg/types/block_and_transaction.proto`)

A user administration transaction reads users at versions, writes users with their access
control, and deletes users, all in `_users`. As for the other messages, a field that may be
`nil` is an `Option` (the user of a write), and the elements of a repeated field are plain
values.
-/

namespace Orion.Types

open Orion.State

/-- `UserRead`: a user read, at the version it was read (`nil` for a user that did not exist). -/
structure UserRead where
  userId : String
  version : Option Version
  deriving DecidableEq, Repr

/-- `UserWrite`: a user written, with the access control on its entry. -/
structure UserWrite where
  user : Option User
  acl : Option AccessControl
  deriving DecidableEq, Repr

/-- `UserDelete`: a user deleted. -/
structure UserDelete where
  userId : String
  deriving DecidableEq, Repr

/-- `UserAdministrationTx`. -/
structure UserAdministrationTx where
  userId : String
  txId : String
  userReads : List UserRead
  userWrites : List UserWrite
  userDeletes : List UserDelete
  deriving DecidableEq, Repr

/-- `UserAdministrationTxEnvelope`. -/
structure UserAdministrationTxEnvelope where
  payload : UserAdministrationTx
  signature : Bytes
  deriving DecidableEq, Repr

/-- `w.User.Id`: the user of a write that has none is a `nil` pointer, which Go dereferences. -/
def UserWrite.userId (w : UserWrite) : Except String String :=
  w.user.elim (.error runtimeNilDereference) fun user => .ok user.id

end Orion.Types
