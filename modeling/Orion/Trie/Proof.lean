import Orion.Trie.MPTrie

/-!
# Proofs of trie entries (`internal/mptrie/proof.go`)

`GetProof` lists, for every node on a key's path from the node holding the value
up to the root, the chunks the node hashes; `Proof.Verify` (`pkg/state`) climbs
that list, checking that each element contains the hash found so far.

Two things are shown about the pair on concrete tries. `GetProof` answers for
every path that ends at a branch, also a branch that holds no value, which is
where the path of a key ends when two longer keys diverge just below it. And the
tombstone is checked only one way: `Verify` with `isDeleted` unset never looks
for the marker, so the proof of a deleted entry passes as the proof of a live
one; with `isDeleted` set it looks for the one-byte chunk `[1]` anywhere in the
first element, and a value node whose remaining key is the single digit `1`
carries that chunk as its key.
-/

namespace Orion.Trie

open Orion.State

variable (H : Bytes → Bytes)

/-- `GetProof`: the chunks of the nodes on the key's path, from the node holding the
value up to the root; `nil` when the path ends nowhere or the node's tombstone is not
`isDeleted`. -/
def MPTrie.GetProof (t : MPTrie) (key : Bytes) (isDeleted : Bool) : Except String (Option Proof) := do
  let (path, node) ← t.getPath (convertByteToHex key)
  match node with
  | none => pure none
  | some node =>
    if node.isDeleted != isDeleted then pure none
    else pure (some (NewProof (path.reverse.map TrieNode.bytes)))

/-- **A proof for a key that was never set.** Keys `0x61 0x62` and `0x61 0x72` diverge
at their third digit, so the update of the second puts a valueless branch at the end
of the path of key `0x61`. `GetProof` returns a proof there, and `Get` fails reading the
missing value pointer. -/
theorem GetProof_at_valueless_branch :
    ((MPTrie.empty tagHash).bind fun t => t.applyAll tagHash
        [.update [0x61, 0x62] [1], .update [0x61, 0x72] [2]]).bind
        (fun t => (t.GetProof [0x61] false).map Option.isSome) = .ok true ∧
      ((MPTrie.empty tagHash).bind fun t => t.applyAll tagHash
        [.update [0x61, 0x62] [1], .update [0x61, 0x72] [2]]).bind (·.Get [0x61]) =
        .error errNotFound := by
  decide

/-- The entry of `key` in `t` is tombstoned exactly when `deleted` is, and a proof `GetProof`
gives for the tombstone `proofFlag` verifies with `verifyFlag` against `t`'s root. -/
def verifiesWithFlag (t : MPTrie) (key value : Bytes) (deleted proofFlag verifyFlag : Bool) :
    Except String Bool := do
  let node ← t.getNode (convertByteToHex key)
  let proof ← t.GetProof key proofFlag
  match node, proof with
  | some node, some proof =>
    let ok ← proof.Verify H (CalculateKeyValueHash H key value) (t.Hash H) verifyFlag
    pure (node.isDeleted == deleted && ok)
  | _, _ => pure false

/-- **The tombstone is not bound by `Verify`.** With an injective hash: after key `0x61`
is set and deleted, the proof of its tombstoned entry verifies as a proof of a live
entry; and while the key is live, with its value node holding the remaining digit `1`,
the proof of the live entry verifies as a proof of a deleted one. -/
theorem Verify_ignores_tombstone :
    Function.Injective tagHash ∧
      ((MPTrie.empty tagHash).bind fun t => t.applyAll tagHash [.update [0x61] [1], .delete [0x61]]).bind
        (verifiesWithFlag tagHash · [0x61] [1] true true false) = .ok true ∧
      ((MPTrie.empty tagHash).bind fun t => t.applyAll tagHash [.update [0x61] [1]]).bind
        (verifiesWithFlag tagHash · [0x61] [1] false false true) = .ok true :=
  ⟨tagHash_injective, by decide, by decide⟩

end Orion.Trie
