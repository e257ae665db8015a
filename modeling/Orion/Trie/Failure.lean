import Orion.Trie.MPTrie
import Orion.Lib.Triple

/-!
# Failed reads under an extension node (`internal/mptrie/mptrie.go`)

`updateExtensionNode` hands a key that goes past the extension to the child's update,
and Go reassigns `err` there without checking it: when the child's update fails, the
extension is saved with a `nil` child and the update goes on as if it had succeeded.
The failure is that of a node read, `t.store.GetNode`, below the extension.

The lemmas below say this for every extension and every key past it
(`updateExtensionNode_drops_error`), and that a lookup through an extension with a `nil`
child fails (`getPathLoop_extension_nil`). The theorem at the end puts the two together
on a trie of two keys whose store fails to read one node: `Update` of one key returns
without error, and the other key, whose value nothing touched, can no longer be read.
-/

namespace Orion.Trie

open Orion.State Std.Do

set_option mvcgen.warning false

/-- A key that starts with `K` shares all of `K` with it. -/
theorem findCommonPrefix_append_self (l : List Nibble) :
    ∀ K : List Nibble, findCommonPrefix (K ++ l) K = K
  | [] => by cases l <;> rfl
  | a :: K => by simp [findCommonPrefix, findCommonPrefix_append_self l K]

variable (H : Bytes → Bytes)

/-- **The child's error is dropped.** For a key that goes past the extension, if the child
is read and its update then fails, ending in `s₁`, the extension's update does not fail:
it saves the extension with a `nil` child over `s₁`. -/
theorem updateExtensionNode_drops_error {upd : UpdateFn} {node : ExtensionNode} {c : Nibble}
    {rest : List Nibble} {valuePtr : Bytes} {isDeleted : Bool} {child : TrieNode} {s₀ s₁ : Store}
    (hget : s₀.GetNode node.child = .ok child)
    (hupd : ⦃fun s => ⌜s = s₀⌝⦄ upd child (c :: rest) valuePtr isDeleted
      ⦃post⟨fun _ _ => ⌜False⌝, fun _ s => ⌜s = s₁⌝⟩⦄) :
    ⦃fun s => ⌜s = s₀⌝⦄ updateExtensionNode H upd node (node.key ++ c :: rest) valuePtr isDeleted
    ⦃post⟨fun r s => ⌜r.1 = .extension { node with child := [] } ∧ s = s₁.PutNode r.2 r.1⌝,
      fun _ _ => ⌜False⌝⟩⦄ := by
  -- the key is the extension's key and more: the third case of the match
  have hprefix := findCommonPrefix_append_self (c :: rest) node.key
  simp only [updateExtensionNode, hprefix, List.drop_left, List.drop_length]
  mvcgen [getNodeM]
  case vc1.h_1 s hs n hn =>
    subst hs
    obtain rfl : n = child := Except.ok.inj (hn.symm.trans hget)
    mvcgen [hupd, saveNode]
    -- the child's update fails in state `s₁`; the handler goes on with a `nil` child
    case post.except.handle =>
      obtain rfl := ‹_ = s₁›
      exact ⟨trivial, rfl⟩
  case vc2.h_2 s hs e he =>
    subst hs
    rw [hget] at he
    cases he

/-- A lookup that goes past an extension whose child is `nil` fails. -/
theorem getPathLoop_extension_nil (s : Store) (fuel : Nat) (res : List TrieNode) (K : List Nibble)
    (c : Nibble) (l : List Nibble) :
    getPathLoop s (fuel + 1) res (.extension ⟨K, []⟩) (K ++ c :: l) =
      .error "impossible state - extension node can't exist without following branch node" := by
  obtain ⟨d, ds, hds⟩ : ∃ d ds, K ++ c :: l = d :: ds := by cases K <;> simp
  have hprefix := findCommonPrefix_append_self (c :: l) K
  have hlen : K.length ≤ ds.length + 1 := by
    have := congrArg List.length hds
    simp only [List.length_append, List.length_cons] at this
    omega
  rw [hds] at hprefix ⊢
  simp only [getPathLoop, hprefix]
  rw [if_neg (by simp only [List.length_cons]; omega), if_neg (by omega), if_pos trivial]

/-! ### A store that fails one read -/

/-- The trie of `0x1234 ↦ [1]` and `0x1235 ↦ [2]`: under the root's digit `1`, an extension
on `2 3` leads to a branch with value nodes under the digits `4` and `5`. -/
def twoKeyTrie : Except String MPTrie :=
  (MPTrie.empty tagHash).bind fun t =>
    t.applyAll tagHash [.update [0x12, 0x34] [1], .update [0x12, 0x35] [2]]

/-- The value node of `0x1234` in `twoKeyTrie`, below the extension. -/
def lostValueNode : TrieNode :=
  .value ⟨[], CalculateKeyValueHash tagHash [0x12, 0x34] [1], false⟩

/-- The trie over a store whose read of `p` fails with `ErrNotFound`. -/
def MPTrie.loseNode (t : MPTrie) (p : Bytes) : MPTrie :=
  { t with store := { t.store with inMemoryNodes := Function.update t.store.inMemoryNodes p none } }

/-- **A failed read swallowed into a lost subtree.** With the read of `lostValueNode` failing,
`0x1235` reads `[2]`; `Update` of `0x1234` then succeeds, and afterwards `0x1235` cannot be
read, also once the failed node can be read again: the extension lost its child. -/
theorem Update_over_failed_read_loses_sibling :
    twoKeyTrie.map (fun t => (t.loseNode (lostValueNode.hash tagHash)).Get [0x12, 0x35]) =
        .ok (.ok [2]) ∧
      (twoKeyTrie.bind fun t =>
        (t.loseNode (lostValueNode.hash tagHash)).Update tagHash [0x12, 0x34] [3]).toBool ∧
      (twoKeyTrie.bind fun t =>
        ((t.loseNode (lostValueNode.hash tagHash)).Update tagHash [0x12, 0x34] [3]).bind
          (·.Get [0x12, 0x35])) =
        .error "impossible state - extension node can't exist without following branch node" ∧
      (twoKeyTrie.bind fun t =>
        ((t.loseNode (lostValueNode.hash tagHash)).Update tagHash [0x12, 0x34] [3]).bind fun t' =>
          { t' with store := t'.store.PutNode (lostValueNode.hash tagHash) lostValueNode }.Get
            [0x12, 0x35]) =
        .error "impossible state - extension node can't exist without following branch node" := by
  decide

end Orion.Trie
