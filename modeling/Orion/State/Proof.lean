import Mathlib.Data.List.Basic

/-!
# Hashes and trie proofs (`pkg/state`)

The package `state` holds what a client needs to check a proof of a value in the
state trie: how a trie node is hashed (`CalcHash`), how a key and value are
hashed into the trie's value pointer (`CalculateKeyValueHash`), how a database
and a key become a trie key (`ConstructCompositeKey`), and `Proof.Verify`.

SHA-256 (`crypto.ComputeSHA256Hash`, which never fails) is a parameter `H` of
every definition: nothing here depends on what it computes, and the theorems
that need it to be collision free say so.

A Go `[]byte` is a `List UInt8`. Every function modelled here tests a slice by
its length or compares it by content (`bytes.Equal`), so a `nil` slice and an
empty one are both `[]`. Go strings are byte strings, and the keys and database
names that reach these functions are the UTF-8 bytes of Lean strings.
-/

namespace Orion.State

/-- Go's `[]byte`. -/
abbrev Bytes := List UInt8

variable (H : Bytes → Bytes)

/-- `KeyDeleteMarkerBytes`: the chunk a tombstoned node adds to what it hashes. -/
def KeyDeleteMarkerBytes : Bytes := [1]

/-- `CalcHash`: the chunks are concatenated, with no lengths between them, and hashed. -/
def CalcHash (bytes : List Bytes) : Bytes := H bytes.flatten

/-- `ConstructCompositeKey`: the trie key of `key` in database `dbName`, the hash of the
hashes of the two names, an empty name contributing nothing. -/
def ConstructCompositeKey (dbName key : String) : Bytes :=
  H ((if dbName.utf8ByteSize > 0 then H dbName.toUTF8.toList else []) ++
    (if key.utf8ByteSize > 0 then H key.toUTF8.toList else []))

/-- `CalculateKeyValueHash`: the value pointer of `key ↦ value`, the hash of the key
followed by the hash of the value (an empty value contributes nothing). -/
def CalculateKeyValueHash (key value : Bytes) : Bytes :=
  H ((if key.length > 0 then key else []) ++ (if value.length > 0 then H value else []))

/-- `types.MPTrieProofElement`: the chunks (`Hashes`) one node hashes. -/
abbrev MPTrieProofElement := List Bytes

/-- `Proof`: the path from the node holding a value up to the root, each node given by
the chunks it hashes. -/
structure Proof where
  path : List MPTrieProofElement

/-- `NewProof`. -/
def NewProof (path : List MPTrieProofElement) : Proof := ⟨path⟩

/-- The loop of `Verify` from element `i` on: each element must contain the running hash,
which then becomes the element's own hash; at the end the running hash must be the root. -/
def verifyPath (rootHash : Bytes) : List MPTrieProofElement → Bytes → Bool
  | [], hashToFind => rootHash == hashToFind
  | hashes :: rest, hashToFind =>
    if hashes.contains hashToFind then verifyPath rootHash rest (CalcHash H hashes) else false

/-- `Proof.Verify`. With `isDeleted` set, the first element must also contain the
one-byte marker `KeyDeleteMarkerBytes`; with it unset, nothing is checked about the marker. -/
def Proof.Verify (p : Proof) (valueHash rootHash : Bytes) (isDeleted : Bool) :
    Except String Bool :=
  match p.path with
  | [] => .error "proof can't be empty"
  | first :: rest =>
    if isDeleted && !first.contains KeyDeleteMarkerBytes then .ok false
    else .ok (verifyPath H rootHash (first :: rest) valueHash)

/-- A stand-in for SHA-256 on concrete inputs: a zero byte in front. It is injective, and
longer than its input, so no list of chunks can contain the hash of its own concatenation. -/
def tagHash (x : Bytes) : Bytes := 0 :: x

theorem tagHash_injective : Function.Injective tagHash := fun _ _ h => List.cons_injective h

end Orion.State
