import Orion.State.Proof

/-!
# Transactions and their metadata (`pkg/types`)

The protobuf messages the validator and the committer read, with the fields they
read. A message pointer that may be `nil` is an `Option`; the elements of a
repeated message field are never `nil` in a decoded block, so they are plain
values. A Go map the code only looks up in is a list of entries with a lookup
(`lookupBool`); the order of the list is one iteration order of the map.
-/

namespace Orion.Types

open Orion.State

/-- `Version`: the block and the position in it of the transaction that wrote a value. -/
structure Version where
  blockNum : UInt64
  txNum : UInt64
  deriving DecidableEq, Repr

/-- `AccessControlWritePolicy`: which of the writers must sign a write. -/
inductive AccessControlPolicy where
  | ANY
  | ALL
  deriving DecidableEq, Repr

/-- A Go `map[string]bool` as a list of entries. -/
abbrev BoolMap := List (String × Bool)

/-- `m[k]` of a `map[string]bool`: `false` when absent. -/
def lookupBool (m : BoolMap) (k : String) : Bool := (m.lookup k).getD false

/-- `AccessControl`: who may read and who may write a key, and how many writers must sign. -/
structure AccessControl where
  readUsers : BoolMap
  readWriteUsers : BoolMap
  signPolicyForWrite : AccessControlPolicy
  deriving DecidableEq, Repr

/-- `Metadata` of a stored value. -/
structure Metadata where
  version : Option Version
  accessControl : Option AccessControl
  deriving DecidableEq, Repr

/-- `Flag` of a validation result. -/
inductive Flag where
  | VALID
  | INVALID_MVCC_CONFLICT_WITHIN_BLOCK
  | INVALID_MVCC_CONFLICT_WITH_COMMITTED_STATE
  | INVALID_DATABASE_DOES_NOT_EXIST
  | INVALID_NO_PERMISSION
  | INVALID_INCORRECT_ENTRIES
  | INVALID_UNAUTHORISED
  | INVALID_MISSING_SIGNATURE
  deriving DecidableEq, Repr

/-- `ValidationInfo`: the flag of a transaction and why it is invalid. -/
structure ValidationInfo where
  flag : Flag
  reasonIfInvalid : String := ""
  deriving DecidableEq, Repr

/-- The result of a check that passed. -/
def ValidationInfo.valid : ValidationInfo := { flag := .VALID }

/-- `DataRead`: a key read and the version it was read at (`nil` for an absent key). -/
structure DataRead where
  key : String
  version : Option Version
  deriving DecidableEq, Repr

/-- `DataWrite`: a key written, its new value and access control. -/
structure DataWrite where
  key : String
  value : Bytes
  acl : Option AccessControl
  deriving DecidableEq, Repr

/-- `DataDelete`: a key deleted. -/
structure DataDelete where
  key : String
  deriving DecidableEq, Repr

/-- `DBOperation`: what a transaction does to one database. -/
structure DBOperation where
  dbName : String
  dataReads : List DataRead
  dataWrites : List DataWrite
  dataDeletes : List DataDelete
  deriving DecidableEq, Repr

/-- `DataTx`: the payload of a data transaction. -/
structure DataTx where
  mustSignUserIds : List String
  txId : String
  dbOperations : List DBOperation
  deriving DecidableEq, Repr

/-- `DataTxEnvelope`: the payload and the signatures, by user. -/
structure DataTxEnvelope where
  payload : DataTx
  signatures : List (String × Bytes)
  deriving DecidableEq, Repr

end Orion.Types
