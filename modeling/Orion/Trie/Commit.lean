import Orion.Trie.MPTrie

/-!
# Persisting the trie (`MPTrie.Commit`, `persistSubtrie`)

`Commit` marks for the next `CommitChanges` every node of the trie that is in the store's
memory, going down from the root, and the values those nodes point to; a node that is not in
memory (`PersistNode` answers `false`) stops the descent there, its subtree taken to be in the
database already. Then `CommitChanges` writes what was marked and empties the memory.

The descent goes one node down per step; `fuel` bounds the number of steps, and running out is
the error `errFuel`. A path of a trie whose keys have `n` bytes has at most `2 * n + 1` nodes.
-/

namespace Orion.Trie

open Orion.State

/-- `PersistNode` inside `StoreM`. -/
def persistNodeM (nodePtr : Bytes) : StoreM Bool := do
  let (wasChanged, s) := (← get).PersistNode nodePtr
  set s
  pure wasChanged

/-- `PersistValue` inside `StoreM`. -/
def persistValueM (valuePtr : Bytes) : StoreM Unit := do
  let (_, s) := (← get).PersistValue valuePtr
  set s

/-- `persistSubtrie` with `fuel` steps left. -/
def persistSubtrie : Nat → Bytes → StoreM Unit
  | 0, _ => throw errFuel
  | fuel + 1, nodePtr => do
    let wasChanged ← persistNodeM nodePtr
    -- a node that was not changed is in the database with all it points to
    if !wasChanged then return
    match ← getNodeM nodePtr with
    | .branch n =>
      (List.finRange 16).forM fun i =>
        match n.children i with
        | none => pure ()
        | some childPtr => persistSubtrie fuel childPtr
      if n.valuePtr ≠ [] then persistValueM n.valuePtr
    | .extension n => persistSubtrie fuel n.child
    | .value n => persistValueM n.valuePtr
    | .empty => throw "unrecognized node type in trie"

variable (H : Bytes → Bytes)

/-- `Commit`: persist the subtrie of the root, then `CommitChanges`. -/
def MPTrie.Commit (fuel : Nat) (t : MPTrie) (blockNum : UInt64) : Except String MPTrie :=
  match ((persistSubtrie fuel (t.root.hash H)).run).run t.store with
  | (.ok (), s) => .ok { t with store := s.CommitChanges blockNum }
  | (.error e, _) => .error e

end Orion.Trie
