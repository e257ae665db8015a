import Orion.Trie.Store

/-!
# The Merkle-Patricia trie (`internal/mptrie/mptrie.go`)

`MPTrie` holds its root node in memory and every other node in the store. The
root is always a branch. `Update` rewrites the path of a key bottom up: each
function below returns the new node and its pointer, and saves the node in the
store (`saveNode`). `Delete` is an update that sets the tombstone on the node
holding the value, after checking that the key has one; `Get` walks the path
(`getPath`) and reads the value unless the node is tombstoned.

Go mutates the store in place, so what an operation wrote before an error stays
written: the operations here run in `StoreM`, errors over a state of the store
that is kept when an error is thrown. This matters in one place,
`updateExtensionNode`, where the error of the recursive update is dropped and
the child pointer left `nil`.

Go's recursion and its `getPath` loop go down one node per step and stop by
themselves on a trie whose extension keys are non-empty, after at most one step
more than the key has digits. The model gives them that many steps as fuel;
running out is an error Go does not have, which a well-formed trie never
reaches. A type assertion that would panic in Go is an error here too.
-/

namespace Orion.Trie

open Orion.State

/-- Go's methods on the trie: they read and write the store and may fail, keeping
what they wrote. -/
abbrev StoreM := ExceptT String (StateM Store)

/-- The error the model gives when its fuel runs out. -/
def errFuel : String := "trie deeper than the key"

/-- `t.store.GetNode` inside `StoreM`. -/
def getNodeM (nodePtr : Bytes) : StoreM TrieNode := do
  match (← get).GetNode nodePtr with
  | .ok n => pure n
  | .error e => throw e

variable (H : Bytes → Bytes)

/-- `saveNode`: put the node under its hash and return the hash. -/
def saveNode (node : TrieNode) : StoreM Bytes := do
  let nodePtr := node.hash H
  modify fun s => s.PutNode nodePtr node
  pure nodePtr

/-- The signature of `t.update`: node, rest of the key, value pointer, tombstone. -/
abbrev UpdateFn := TrieNode → List Nibble → Bytes → Bool → StoreM (TrieNode × Bytes)

/-- A branch with one child, as the split cases build it. -/
def BranchNode.single (c : Nibble) (ptr valuePtr : Bytes) : BranchNode :=
  ⟨Function.update (fun _ => none) c (some ptr), valuePtr, false⟩

/-- `updateBranchNode`: an empty key sets the value and the tombstone of the branch;
otherwise the child for the next digit (an `EmptyNode` if missing) is updated with the
rest of the key. -/
def updateBranchNode (update : UpdateFn) (node : BranchNode) (hexKey : List Nibble)
    (valuePtr : Bytes) (isDeleted : Bool) : StoreM (TrieNode × Bytes) := do
  let node ← match hexKey with
    | [] => pure { node with valuePtr := valuePtr, deleted := isDeleted }
    | c :: rest => do
      let childNode ← match node.children c with
        | none => pure TrieNode.empty
        | some childPtr => getNodeM childPtr
      let (_, updateChildNodePtr) ← update childNode rest valuePtr isDeleted
      pure { node with children := Function.update node.children c (some updateChildNodePtr) }
  let nodePtr ← saveNode H (.branch node)
  pure (.branch node, nodePtr)

/-- `updateEmptyNode`: a new value node with the rest of the key. -/
def updateEmptyNode (hexKey : List Nibble) (valuePtr : Bytes) : StoreM (TrieNode × Bytes) := do
  let newNode := TrieNode.value ⟨hexKey, valuePtr, false⟩
  let newNodePtr ← saveNode H newNode
  pure (newNode, newNodePtr)

/-- `splitPathToValueNode`, for `keyLeft = k0 :: kRest`: a branch holding `newValuePtr`
with the value node `kRest ↦ orgValuePtr` under digit `k0`, behind an extension with
the common prefix if there is one. The new value node is not tombstoned. -/
def splitPathToValueNode (k0 : Nibble) (kRest : List Nibble) (newValuePtr orgValuePtr : Bytes)
    (commonPrefix : List Nibble) : StoreM TrieNode := do
  let newValueNodePtr ← saveNode H (.value ⟨kRest, orgValuePtr, false⟩)
  let newBranchNode := BranchNode.single k0 newValueNodePtr newValuePtr
  if commonPrefix.length > 0 then
    let newBranchNodePtr ← saveNode H (.branch newBranchNode)
    pure (.extension ⟨commonPrefix, newBranchNodePtr⟩)
  else
    pure (.branch newBranchNode)

/-- `updateValueNode`. The keys are compared past their common prefix: the same key
updates the node in place; otherwise a delete fails, and an update splits the node
(`splitPathToValueNode` when one key ends first, a valueless branch over two value
nodes when they diverge). No split keeps the old node's tombstone. -/
def updateValueNode (node : ValueNode) (hexKey : List Nibble) (valuePtr : Bytes)
    (isDeleted : Bool) : StoreM (TrieNode × Bytes) := do
  let commonPrefix := findCommonPrefix hexKey node.key
  let nodeKeyLeft := node.key.drop commonPrefix.length
  let valueKeyLeft := hexKey.drop commonPrefix.length
  let newNode ← match valueKeyLeft, nodeKeyLeft, isDeleted with
    | [], [], _ => pure (TrieNode.value { node with valuePtr := valuePtr, deleted := isDeleted })
    | _, _, true => throw "can't delete non existing node"
    | [], n0 :: nRest, false => splitPathToValueNode H n0 nRest valuePtr node.valuePtr commonPrefix
    | v0 :: vRest, [], false => splitPathToValueNode H v0 vRest node.valuePtr valuePtr commonPrefix
    | v0 :: vRest, n0 :: nRest, false => do
      let newValueNodePtr1 ← saveNode H (.value ⟨nRest, node.valuePtr, false⟩)
      let newValueNodePtr2 ← saveNode H (.value ⟨vRest, valuePtr, false⟩)
      let newBranchNode : BranchNode :=
        ⟨Function.update (Function.update (fun _ => none) n0 (some newValueNodePtr1)) v0
          (some newValueNodePtr2), [], false⟩
      if commonPrefix.length > 0 then
        let newBranchNodePtr ← saveNode H (.branch newBranchNode)
        pure (.extension ⟨commonPrefix, newBranchNodePtr⟩)
      else
        pure (.branch newBranchNode)
  let newNodePtr ← saveNode H newNode
  pure (newNode, newNodePtr)

/-- `updateExtensionNode`. The same key goes on to the branch below; a key that ends
inside the extension splits it around a new branch holding the value; a key that goes
past it goes on to the child, **with the child's error dropped** (Go reassigns `err`
and never checks it), leaving a `nil` child; a key that diverges inside it splits it
around a valueless branch. -/
def updateExtensionNode (update : UpdateFn) (node : ExtensionNode) (hexKey : List Nibble)
    (valuePtr : Bytes) (isDeleted : Bool) : StoreM (TrieNode × Bytes) := do
  let commonPrefix := findCommonPrefix hexKey node.key
  let nodeKeyLeft := node.key.drop commonPrefix.length
  let valueKeyLeft := hexKey.drop commonPrefix.length
  let newNode ← match valueKeyLeft, nodeKeyLeft with
    | [], [] => do
      let branchNode ← getNodeM node.child
      let (_, childPtr) ← update branchNode valueKeyLeft valuePtr isDeleted
      pure (TrieNode.extension { node with child := childPtr })
    | [], n0 :: nRest => do
      let childOfBranch ← if nRest.length > 0 then
          saveNode H (.extension ⟨nRest, node.child⟩)
        else pure node.child
      let newBranchNode := BranchNode.single n0 childOfBranch valuePtr
      if commonPrefix.length > 0 then
        let newBranchNodePtr ← saveNode H (.branch newBranchNode)
        pure (.extension ⟨commonPrefix, newBranchNodePtr⟩)
      else
        pure (.branch newBranchNode)
    | _ :: _, [] => do
      let childNode ← getNodeM node.child
      let (_, newChildPtr) ← tryCatch (update childNode valueKeyLeft valuePtr isDeleted)
        fun _ => pure (TrieNode.empty, [])
      pure (TrieNode.extension { node with child := newChildPtr })
    | v0 :: vRest, n0 :: nRest => do
      let newValueNodePtr ← saveNode H (.value ⟨vRest, valuePtr, false⟩)
      let secondChildPtr ← if nRest.length = 0 then pure node.child
        else saveNode H (.extension ⟨nRest, node.child⟩)
      let newBranchNode : BranchNode :=
        ⟨Function.update (Function.update (fun _ => none) v0 (some newValueNodePtr)) n0
          (some secondChildPtr), [], false⟩
      if commonPrefix.length > 0 then
        let newBranchNodePtr ← saveNode H (.branch newBranchNode)
        pure (.extension ⟨commonPrefix, newBranchNodePtr⟩)
      else
        pure (.branch newBranchNode)
  let newNodePtr ← saveNode H newNode
  pure (newNode, newNodePtr)

/-- `update`: dispatch on the kind of node, with `fuel` steps left. -/
def update : Nat → UpdateFn
  | 0 => fun _ _ _ _ => throw errFuel
  | fuel + 1 => fun node hexKey valuePtr isDeleted =>
    match node with
    | .branch n => updateBranchNode H (update fuel) n hexKey valuePtr isDeleted
    | .extension n => updateExtensionNode H (update fuel) n hexKey valuePtr isDeleted
    | .value n => updateValueNode H n hexKey valuePtr isDeleted
    | .empty => updateEmptyNode H hexKey valuePtr

/-- Go's `MPTrie`: the root node and the store. -/
structure MPTrie where
  root : TrieNode
  store : Store

/-- `NewTrie`: a trie with an empty branch as root when `rootHash` is `nil`, else the
trie whose root is the node stored under `rootHash`. -/
def NewTrie (rootHash : Bytes) (store : Store) : Except String MPTrie :=
  if rootHash = [] then
    let root := TrieNode.branch BranchNode.new
    .ok ⟨root, store.PutNode (root.hash H) root⟩
  else
    match store.GetNode rootHash with
    | .ok root => .ok ⟨root, store⟩
    | .error e => .error e

/-- `Hash`: the hash of the root. -/
def MPTrie.Hash (t : MPTrie) : Bytes := t.root.hash H

/-- The loop of `getPath` with `fuel` steps left: the nodes visited so far are `res`,
the current node `node`, and the digits still to match `hexKey`. -/
def getPathLoop (s : Store) : Nat → List TrieNode → TrieNode → List Nibble →
    Except String (List TrieNode × Option TrieNode)
  | 0, _, _, _ => .error errFuel
  | fuel + 1, res, node, hexKey =>
    let res := res ++ [node]
    match hexKey, node with
    | [], .extension _ =>
      .error "impossible state - path can't end at extension node, it means extension node with nil key"
    | [], .empty => .error "panic: EmptyNode is not a TrieNodeWithValue"
    | [], _ => .ok (res, some node)
    | c :: rest, .branch n =>
      match n.children c with
      | none => .ok (res, none)
      | some childPtr => do getPathLoop s fuel res (← s.GetNode childPtr) rest
    | hexKey, .extension n =>
      if n.key.length > hexKey.length then .ok (res, none)
      else
        let commonKey := findCommonPrefix hexKey n.key
        if commonKey.length < n.key.length then .ok (res, none)
        else if n.child = [] then
          .error "impossible state - extension node can't exist without following branch node"
        else do getPathLoop s fuel res (← s.GetNode n.child) (hexKey.drop commonKey.length)
    | hexKey, .value n => if hexKey = n.key then .ok (res, some node) else .ok (res, none)
    | _ :: _, .empty => .error "Unknown trie node type"

/-- `getPath`: the nodes from the root down the key's path, and the node holding the
key's value if the path reaches one (a branch or a value node). -/
def MPTrie.getPath (t : MPTrie) (hexKey : List Nibble) :
    Except String (List TrieNode × Option TrieNode) :=
  getPathLoop t.store (hexKey.length + 1) [] t.root hexKey

/-- `getNode`: the node `getPath` ends at. -/
def MPTrie.getNode (t : MPTrie) (hexKey : List Nibble) : Except String (Option TrieNode) :=
  (t.getPath hexKey).map Prod.snd

/-- `Get`: the value of `key`, `nil` when the path ends nowhere or at a tombstone. -/
def MPTrie.Get (t : MPTrie) (key : Bytes) : Except String Bytes := do
  match ← t.getNode (convertByteToHex key) with
  | none => pure []
  | some node => if node.isDeleted then pure [] else t.store.GetValue node.getValuePtr

/-- Run `updateBranchNode` on the root, as `Update` and `Delete` do; Go's type assertion
`t.root.(*BranchNode)` panics on any other root. -/
def MPTrie.updateRoot (t : MPTrie) (hexKey : List Nibble) (valuePtr : Bytes) (isDeleted : Bool) :
    Except String MPTrie :=
  match t.root with
  | .branch root =>
    match ((updateBranchNode H (update H (hexKey.length + 1)) root hexKey valuePtr isDeleted).run).run
        t.store with
    | (.ok (root', _), s) => .ok ⟨root', s⟩
    | (.error e, _) => .error e
  | _ => .error "panic: the root is not a *BranchNode"

/-- `Update`: set `key ↦ value`; the value is stored under its pointer afterwards. -/
def MPTrie.Update (t : MPTrie) (key value : Bytes) : Except String MPTrie := do
  if key.length = 0 then throw "can't update element with empty key"
  let valuePtr := CalculateKeyValueHash H key value
  let t ← t.updateRoot H (convertByteToHex key) valuePtr false
  pure { t with store := t.store.PutValue valuePtr value }

/-- `Delete`: tombstone the node holding `key`'s value and return the value; nothing
happens, and `nil` is returned, when the path ends nowhere. -/
def MPTrie.Delete (t : MPTrie) (key : Bytes) : Except String (Bytes × MPTrie) := do
  if key.length = 0 then throw "can't delete element with empty key"
  let hexKey := convertByteToHex key
  match ← t.getNode hexKey with
  | none => pure ([], t)
  | some node =>
    let valuePtr := node.getValuePtr
    let value ← t.store.GetValue valuePtr
    let t ← t.updateRoot H hexKey valuePtr true
    pure (value, t)

/-- An operation on the state trie, as `ApplyBlockOnStateTrie` issues them. -/
inductive TrieOp where
  | update (key value : Bytes)
  | delete (key : Bytes)

/-- Apply one operation. -/
def MPTrie.apply (t : MPTrie) : TrieOp → Except String MPTrie
  | .update key value => t.Update H key value
  | .delete key => (t.Delete H key).map Prod.snd

/-- Apply operations in order, stopping at the first error. -/
def MPTrie.applyAll (t : MPTrie) (ops : List TrieOp) : Except String MPTrie :=
  ops.foldlM (fun t op => t.apply H op) t

/-- The trie `NewTrie(nil, store)` makes on an empty store. -/
def MPTrie.empty : Except String MPTrie := NewTrie H [] Store.empty

/-- **A delete undone by an update of another key.** Key `0x61` is set, deleted, and
then key `0x62` is set: the two keys share their first digit, so the second update
splits the tombstoned value node of `0x61` into a branch with two value nodes, and the
new value node of `0x61` is not tombstoned. `Get` then returns the deleted value. -/
theorem Get_after_delete_and_sibling_update :
    ((MPTrie.empty tagHash).bind fun t => t.applyAll tagHash
        [.update [0x61] [1], .delete [0x61], .update [0x62] [2]]).bind (·.Get [0x61]) =
      .ok [1] := by
  decide

/-- **The root hash depends on the order of a delete and an update of another key.**
From the trie holding `0x61 ↦ [1]`, deleting `0x61` and setting `0x62` gives a different
hash than the same two operations the other way round: the split drops the tombstone
in one order and not in the other. -/
theorem Hash_depends_on_order_of_delete_and_update :
    ((MPTrie.empty tagHash).bind fun t => t.applyAll tagHash
        [.update [0x61] [1], .delete [0x61], .update [0x62] [2]]).map (·.Hash tagHash) ≠
      ((MPTrie.empty tagHash).bind fun t => t.applyAll tagHash
        [.update [0x61] [1], .update [0x62] [2], .delete [0x61]]).map (·.Hash tagHash) := by
  decide

end Orion.Trie
