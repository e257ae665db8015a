import Orion.State.Proof

/-!
# Trie nodes (`internal/mptrie/node.go`)

The Merkle-Patricia trie keeps its keys as hex digits, one per half byte
(`convertByteToHex`). It has four kinds of node:

* `BranchNode`: sixteen child pointers, one per next digit, an optional value
  pointer for the key that ends here, and the tombstone `Deleted`;
* `ExtensionNode`: a run of digits shared by everything below, and one child;
* `ValueNode`: the rest of a key, its value pointer and the tombstone;
* `EmptyNode`: a placeholder for a missing child, never stored or hashed.

A pointer is the hash of a node (`hash`), that is `CalcHash` of the chunks
`bytes` lists. These are the chunks a proof element carries, so the order and the
optional chunks follow `node.go` exactly: a branch lists all sixteen children, a
missing one as an empty chunk; the value pointer, the key and the delete marker
appear only when non-empty or set.

A hex digit is a `Fin 16` (`Nibble`): `convertByteToHex` produces only digits
below sixteen, so a digit out of range cannot be built. In the chunks a digit is
the byte of the same value, as in Go. The children of a branch are a function
from digits, Go's slice of length sixteen; a missing child is `none`, Go's `nil`.
-/

namespace Orion.Trie

open Orion.State

/-- A hex digit of a trie key. -/
abbrev Nibble := Fin 16

/-- The byte Go stores for a digit. -/
def Nibble.toByte (n : Nibble) : UInt8 := n.val.toUInt8

theorem UInt8.toNat_shiftRight_four_lt (v : UInt8) : (v >>> 4).toNat < 16 := by
  rw [UInt8.toNat_shiftRight]
  have := v.toNat_lt
  simp only [UInt8.reduceToNat, Nat.reduceMod, Nat.shiftRight_eq_div_pow]
  omega

theorem UInt8.toNat_and_fifteen_lt (v : UInt8) : (v &&& 0x0f).toNat < 16 := by
  rw [UInt8.toNat_and]
  exact Nat.lt_of_le_of_lt Nat.and_le_right (by decide)

/-- `convertByteToHex`: each byte `v` becomes the digits `v >> 4` and `v & 0x0f`. -/
def convertByteToHex (b : Bytes) : List Nibble :=
  b.flatMap fun (v : UInt8) =>
    [⟨(v >>> 4).toNat, UInt8.toNat_shiftRight_four_lt v⟩, ⟨(v &&& 0x0f).toNat, UInt8.toNat_and_fifteen_lt v⟩]

@[simp] theorem length_convertByteToHex (b : Bytes) : (convertByteToHex b).length = 2 * b.length := by
  induction b with
  | nil => simp [convertByteToHex]
  | cons v b ih => simp [convertByteToHex] at ih ⊢; omega

/-- `findCommonPrefix`: the digits the two keys share from the start. -/
def findCommonPrefix : List Nibble → List Nibble → List Nibble
  | a :: as, b :: bs => if a = b then a :: findCommonPrefix as bs else []
  | _, _ => []

/-- Go's `BranchNode`. -/
structure BranchNode where
  /-- `Children`: the pointer of the child for each next digit, `none` for `nil`. -/
  children : Nibble → Option Bytes
  /-- `ValuePtr`: the value pointer of the key that ends here, `[]` for `nil`. -/
  valuePtr : Bytes
  /-- `Deleted`: the value was deleted. -/
  deleted : Bool

/-- Go's `ExtensionNode`. -/
structure ExtensionNode where
  /-- `Key`: the digits every key below shares. -/
  key : List Nibble
  /-- `Child`: the pointer of the node below. -/
  child : Bytes

/-- Go's `ValueNode`. -/
structure ValueNode where
  /-- `Key`: the rest of the key. -/
  key : List Nibble
  /-- `ValuePtr`: the value pointer. -/
  valuePtr : Bytes
  /-- `Deleted`: the value was deleted. -/
  deleted : Bool

/-- The `TrieNode` interface, by its four implementations. -/
inductive TrieNode where
  | branch (n : BranchNode)
  | extension (n : ExtensionNode)
  | value (n : ValueNode)
  | empty

/-- A branch with no child and no value, the root of a new trie. -/
def BranchNode.new : BranchNode := ⟨fun _ => none, [], false⟩

/-- The digits of a key as the bytes Go keeps. -/
def keyBytes (key : List Nibble) : Bytes := key.map Nibble.toByte

/-- `BranchNode.bytes`: the sixteen children (a missing one as an empty chunk), then the
value pointer if there is one, then the marker if the value is deleted. -/
def BranchNode.bytes (m : BranchNode) : List Bytes :=
  List.ofFn (fun i => (m.children i).getD []) ++
    (if m.valuePtr.length > 0 then [m.valuePtr] else []) ++
    (if m.deleted then [KeyDeleteMarkerBytes] else [])

/-- `ExtensionNode.bytes`: the key and the child, each if non-empty. -/
def ExtensionNode.bytes (m : ExtensionNode) : List Bytes :=
  (if m.key.length > 0 then [keyBytes m.key] else []) ++
    (if m.child.length > 0 then [m.child] else [])

/-- `ValueNode.bytes`: the key and the value pointer, each if non-empty, then the marker
if the value is deleted. -/
def ValueNode.bytes (m : ValueNode) : List Bytes :=
  (if m.key.length > 0 then [keyBytes m.key] else []) ++
    (if m.valuePtr.length > 0 then [m.valuePtr] else []) ++
    (if m.deleted then [KeyDeleteMarkerBytes] else [])

/-- `bytes()` of any node. Go panics on an `EmptyNode`, which is never hashed. -/
def TrieNode.bytes : TrieNode → List Bytes
  | .branch n => n.bytes
  | .extension n => n.bytes
  | .value n => n.bytes
  | .empty => []

variable (H : Bytes → Bytes)

/-- `hash()`: the node's pointer. -/
def TrieNode.hash (n : TrieNode) : Bytes := CalcHash H n.bytes

/-- `getValuePtr()` of a node with a value (`TrieNodeWithValue`). -/
def TrieNode.getValuePtr : TrieNode → Bytes
  | .branch n => n.valuePtr
  | .value n => n.valuePtr
  | _ => []

/-- `isDeleted()` of a node with a value. -/
def TrieNode.isDeleted : TrieNode → Bool
  | .branch n => n.deleted
  | .value n => n.deleted
  | _ => false

end Orion.Trie
