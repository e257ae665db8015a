import Orion.MTree.Tree

/-!
# The proofs of a block's Merkle tree fold to its root

Every node `buildNextTreeLevel` builds answers `findPath` as the tree over its run of leaves
should: for an index in its range, a path ending at the node whose first node has the leaf's hash
and whose siblings fold to the node's hash; for any other index, a `NotFoundErr` (`Spans`). A
leaf spans itself (`Spans.leaf`), a node over one child spans what the child spans
(`Spans.one`), a node over a pair spans both runs (`Spans.two`, where `ConcatenateHashes_comm`
makes the right child's fold meet the parent's hash); a level is a list of nodes spanning
consecutive runs (`Level`), pairing keeps it one (`Level.pairNodes`), and so the root spans
every leaf (`buildNextTreeLevel_spans`).
-/

namespace Orion.MTree

open Orion.State

variable (H : Bytes → Bytes)

/-! ### Paths through a node -/

/-- Telling a node its sibling changes only the node itself at the top of its paths. -/
theorem Node.findPath_setSibling (n : Node) (sib : Bytes) (i : Int) :
    (n.setSibling sib).findPath i = (n.findPath i).map fun p => p.dropLast ++ [n.setSibling sib] := by
  cases n with
  | leaf h index s =>
    simp only [Node.setSibling, Node.findPath]
    split <;> rfl
  | one left h st en s =>
    simp only [Node.setSibling, Node.findPath]
    split
    · rfl
    · split
      · cases left.findPath i <;> simp [Except.map]
      · rfl
  | two left right h st en s =>
    simp only [Node.setSibling, Node.findPath]
    split
    · rfl
    · split
      · cases left.findPath i <;> simp [Except.map]
      · cases right.findPath i <;> simp [Except.map]

/-- The proof read off a path ending at `n`. -/
theorem computeProofFromPath_append_singleton (below : List Node) (n : Node) :
    computeProofFromPath (below ++ [n]) =
      (below.head?.map Node.hash).getD n.hash :: below.filterMap Node.sibling := by
  cases below with
  | nil => simp [computeProofFromPath]
  | cons b rest =>
    rw [List.cons_append, computeProofFromPath, ← List.cons_append, List.dropLast_concat]
    rfl

theorem head?_append_singleton_hash (below : List Node) (a : Node) (d : Bytes) :
    ((below ++ [a]).head?.map Node.hash).getD d = (below.head?.map Node.hash).getD a.hash := by
  cases below <;> simp

/-- `n` is the tree over the leaf hashes `hs`, numbered from `s`: its range is theirs, each of
them is found along a path whose siblings fold from the leaf's hash to `n`'s, and every other
index is not found. -/
structure Spans (n : Node) (hs : List Bytes) (s : Int) : Prop where
  ne : hs ≠ []
  start : n.startIndex = s
  finish : n.endIndex = s + hs.length - 1
  found : ∀ j (hj : j < hs.length), ∃ below, n.findPath (s + j) = .ok (below ++ [n]) ∧
    (below.head?.map Node.hash).getD n.hash = hs[j] ∧
    (below.filterMap Node.sibling).foldl (ConcatenateHashes H) hs[j] = n.hash
  notFound : ∀ i, (i < s ∨ s + hs.length ≤ i) → ∃ msg, n.findPath i = .error (.notFound msg)

variable {H}

theorem Spans.leaf (h : Bytes) (i : Int) : Spans H (.leaf h i none) [h] i := by
  refine ⟨by simp, rfl, by simp [Node.endIndex], fun j hj => ?_, fun k hk => ?_⟩
  · obtain rfl : j = 0 := by simpa using hj
    exact ⟨[], by simp [Node.findPath], by simp [Node.hash], by simp [Node.hash]⟩
  · have hne : i ≠ k := by simp at hk; omega
    exact ⟨_, by simp only [Node.findPath, if_neg hne]; rfl⟩

theorem Spans.setSibling {n : Node} {hs : List Bytes} {s : Int} (h : Spans H n hs s)
    (sib : Bytes) : Spans H (n.setSibling sib) hs s := by
  refine ⟨h.ne, by simp [h.start], by simp [h.finish], fun j hj => ?_, fun i hi => ?_⟩
  · obtain ⟨below, hpath, hhead, hfold⟩ := h.found j hj
    refine ⟨below, ?_, by simpa using hhead, by simpa using hfold⟩
    rw [Node.findPath_setSibling, hpath]
    simp [Except.map]
  · obtain ⟨msg, hmsg⟩ := h.notFound i hi
    exact ⟨msg, by rw [Node.findPath_setSibling, hmsg]; rfl⟩

/-- A node over a node alone spans what its child spans: the child has no sibling, and its hash
is the parent's. -/
theorem Spans.one {a : Node} {hs : List Bytes} {s : Int} (ha : Spans H a hs s)
    (hsib : a.sibling = none) :
    Spans H (.one a (ConcatenateHashes H a.hash []) a.startIndex a.endIndex none) hs s := by
  have hlen := List.length_pos_iff.2 ha.ne
  refine ⟨ha.ne, ha.start, ha.finish, fun j hj => ?_, fun i hi => ?_⟩
  · obtain ⟨below, hpath, hhead, hfold⟩ := ha.found j hj
    have hrange : ¬(a.startIndex > s + j ∨ a.endIndex < s + j) := by
      rw [ha.start, ha.finish]
      omega
    have hleft : a.endIndex ≥ s + j := by
      rw [ha.finish]
      omega
    refine ⟨below ++ [a], ?_, ?_, ?_⟩
    · simp only [Node.findPath, if_neg hrange, if_pos hleft, hpath]
      rfl
    · rw [head?_append_singleton_hash]
      exact hhead
    · simp [List.filterMap_append, hsib, hfold, Node.hash]
  · have hout : a.startIndex > i ∨ a.endIndex < i := by
      rw [ha.start, ha.finish]
      omega
    exact ⟨_, by simp only [Node.findPath, if_pos hout]; rfl⟩

/-- A node over a pair spans both runs: a leaf of the left run folds to the left child's hash and
then meets the right one's, a leaf of the right run the other way round. -/
theorem Spans.two {a b : Node} {hsa hsb : List Bytes} {s : Int} (ha : Spans H a hsa s)
    (hb : Spans H b hsb (s + hsa.length)) :
    Spans H (.two (a.setSibling b.hash) (b.setSibling a.hash) (ConcatenateHashes H a.hash b.hash)
      a.startIndex b.endIndex none) (hsa ++ hsb) s := by
  have hla := List.length_pos_iff.2 ha.ne
  have hlb := List.length_pos_iff.2 hb.ne
  have ha' := ha.setSibling b.hash
  have hb' := hb.setSibling a.hash
  refine ⟨by simp [ha.ne], ha.start, ?_, fun j hj => ?_, fun i hi => ?_⟩
  · show b.endIndex = s + ↑(hsa ++ hsb).length - 1
    rw [hb.finish, List.length_append]
    omega
  · have hrange : ¬(a.startIndex > s + j ∨ b.endIndex < s + j) := by
      rw [ha.start, hb.finish]
      simp only [List.length_append] at hj
      omega
    by_cases hj' : j < hsa.length
    · -- a leaf of the left run
      obtain ⟨below, hpath, hhead, hfold⟩ := ha'.found j hj'
      have hleft : (a.setSibling b.hash).endIndex ≥ s + j := by
        rw [ha'.finish]
        omega
      have hget : (hsa ++ hsb)[j] = hsa[j] := List.getElem_append_left hj'
      refine ⟨below ++ [a.setSibling b.hash], ?_, ?_, ?_⟩
      · simp only [Node.findPath, if_neg hrange, if_pos hleft, hpath]
        rfl
      · rw [head?_append_singleton_hash, hget]
        exact hhead
      · rw [hget, List.filterMap_append, List.foldl_append, hfold]
        simp only [List.filterMap_cons, Node.sibling_setSibling, List.filterMap_nil,
          List.foldl_cons, List.foldl_nil, Node.hash_setSibling]
        rfl
    · -- a leaf of the right run
      have hk : j - hsa.length < hsb.length := by
        simp only [List.length_append] at hj
        omega
      obtain ⟨below, hpath, hhead, hfold⟩ := hb'.found (j - hsa.length) hk
      have hidx : s + ↑hsa.length + ↑(j - hsa.length) = s + j := by omega
      rw [hidx] at hpath
      have hright : ¬(a.setSibling b.hash).endIndex ≥ s + j := by
        rw [ha'.finish]
        omega
      have hget : (hsa ++ hsb)[j] = hsb[j - hsa.length] :=
        List.getElem_append_right (by omega)
      refine ⟨below ++ [b.setSibling a.hash], ?_, ?_, ?_⟩
      · simp only [Node.findPath, if_neg hrange, if_neg hright, hpath]
        rfl
      · rw [head?_append_singleton_hash, hget]
        exact hhead
      · rw [hget, List.filterMap_append, List.foldl_append, hfold]
        simp only [List.filterMap_cons, Node.sibling_setSibling, List.filterMap_nil,
          List.foldl_cons, List.foldl_nil, Node.hash_setSibling]
        exact ConcatenateHashes_comm H b.hash a.hash
  · have hout : a.startIndex > i ∨ b.endIndex < i := by
      rw [ha.start, hb.finish]
      simp only [List.length_append] at hi
      omega
    exact ⟨_, by simp only [Node.findPath, if_pos hout]; rfl⟩

/-! ### Levels -/

variable (H)

/-- A level: nodes without a sibling yet, spanning consecutive runs of leaves from `s`. -/
inductive Level : List Node → List Bytes → Int → Prop
  | nil (s : Int) : Level [] [] s
  | cons {n : Node} {ns : List Node} {hs hs' : List Bytes} {s : Int} :
      Spans H n hs s → n.sibling = none → Level ns hs' (s + hs.length) → Level (n :: ns) (hs ++ hs') s

variable {H}

/-- Pairing the nodes of a level gives a level over the same leaves. -/
theorem Level.pairNodes {ns : List Node} {hs : List Bytes} {s : Int} :
    Level H ns hs s → Level H (pairNodes H ns) hs s := by
  -- one case for each equation of `pairNodes`: no node, a last node alone, a pair
  induction ns using MTree.pairNodes.induct generalizing hs s with
  | case1 =>
    intro h
    cases h
    exact .nil s
  | case2 a =>
    intro h
    cases h with
    | cons ha hsib hrest =>
      cases hrest
      exact .cons (ha.one hsib) rfl (.nil _)
  | case3 a b rest ih =>
    intro h
    cases h with
    | cons ha _ h' =>
      cases h' with
      | cons hb _ hrest =>
        rw [MTree.pairNodes, ← List.append_assoc]
        refine .cons (ha.two hb) rfl ?_
        simpa [Int.add_assoc] using ih hrest

theorem Level.spans_of_singleton {n : Node} {hs : List Bytes} {s : Int}
    (h : Level H [n] hs s) : Spans H n hs s := by
  cases h with
  | cons hn _ hrest =>
    cases hrest
    simpa using hn

theorem Level.ne_nil {ns : List Node} {hs : List Bytes} {s : Int} (h : Level H ns hs s)
    (hne : hs ≠ []) : ns ≠ [] := by
  cases h with
  | nil => exact absurd rfl hne
  | cons => exact List.cons_ne_nil _ _

/-- **The root spans every leaf.** By induction on the number of nodes of the level. -/
theorem buildNextTreeLevel_spans {hs : List Bytes} {s : Int} :
    ∀ ns : List Node, Level H ns hs s → ns ≠ [] →
      ∃ root, buildNextTreeLevel H ns = some root ∧ Spans H root hs s
  | ns, hl, hne => by
    have hl' := hl.pairNodes
    have hlen := length_pairNodes H ns
    have hpos := List.length_pos_iff.2 hne
    rw [buildNextTreeLevel]
    split
    · -- one node left: it is the root
      rename_i hle
      obtain ⟨root, hroot⟩ : ∃ root, pairNodes H ns = [root] :=
        List.length_eq_one_iff.1 (by omega)
      rw [hroot] at hl'
      exact ⟨root, by simp [hroot], hl'.spans_of_singleton⟩
    · rename_i hgt
      exact buildNextTreeLevel_spans _ hl' (List.ne_nil_of_length_pos (by omega))
termination_by ns => ns.length
decreasing_by
  have := length_pairNodes H ns
  have := List.length_pos_iff.2 hne
  omega

/-- The leaves, numbered from `s`, are a level. -/
theorem level_leaves : ∀ (hashes : List Bytes) (s : Int) (f : Nat → Int), (∀ i, f i = s + i) →
    Level H (hashes.mapIdx fun i h => .leaf h (f i) none) hashes s
  | [], s, _, _ => .nil s
  | h :: hashes, s, f, hf => by
    have h0 : f 0 = s := by simpa using hf 0
    have hrest := level_leaves hashes (s + ([h] : List Bytes).length) (fun i => f (i + 1))
      fun i => by simp only [hf, List.length_singleton]; omega
    simp only [List.mapIdx_cons, h0]
    exact .cons (Spans.leaf h s) rfl hrest

/-! ### The block's tree -/

variable (H)

/-- With a validation result for each envelope, `calculateBlockTxHashes` hashes each envelope
with its result. -/
theorem calculateBlockTxHashes_zipIdx (vals : List Bytes) :
    ∀ (envs : List Bytes) (k : Nat), (∀ j < envs.length, k + j < vals.length) →
      ∃ hs : List Bytes, (envs.zipIdx k).mapM (fun (env, i) =>
          match vals[i]? with
          | some v => Except.ok (calculateTxHash H env v)
          | none => .error (Error.other "runtime error: index out of range")) = .ok hs ∧
        hs.length = envs.length ∧
        ∀ j (hj : j < hs.length), ∃ (he : j < envs.length) (hv : k + j < vals.length),
          hs[j] = calculateTxHash H envs[j] vals[k + j]
  | [], _, _ => ⟨[], rfl, rfl, fun j hj => absurd hj (by simp)⟩
  | env :: envs, k, hk => by
    have hk0 : k < vals.length := by simpa using hk 0 (by simp)
    obtain ⟨hs, hmap, hlen, hget⟩ := calculateBlockTxHashes_zipIdx vals envs (k + 1)
      fun j hj => by simpa [Nat.add_assoc, Nat.add_comm 1] using hk (j + 1) (by simpa using hj)
    refine ⟨calculateTxHash H env vals[k] :: hs, ?_, by simp [hlen], fun j hj => ?_⟩
    · simp only [List.zipIdx_cons, List.mapM_cons, getElem?_pos vals k hk0, hmap]
      rfl
    · cases j with
      | zero => exact ⟨by simp, by omega, by simp⟩
      | succ j =>
        obtain ⟨he, hv, hj'⟩ := hget j (by simpa using hj)
        exact ⟨by simpa using he, by omega, by simpa [Nat.add_assoc, Nat.add_comm 1] using hj'⟩

/-- **The proof of every transaction folds to the root.** For every block with at least one
transaction and a validation result for each, `Proof(j)` of the block's tree starts with the hash
of transaction `j` with its validation result, and folding `ConcatenateHashes` over the rest
gives the root's hash; every index outside the block is not found. -/
theorem BuildTreeForBlockTx_proof (envelopes validationInfo : List Bytes) (hne : envelopes ≠ [])
    (hval : envelopes.length ≤ validationInfo.length) :
    ∃ root, BuildTreeForBlockTx H envelopes validationInfo = .ok (some root) ∧
      (∀ j (hj : j < envelopes.length), ∃ rest,
        Proof (some root) j = .ok (calculateTxHash H envelopes[j] validationInfo[j] :: rest) ∧
        rest.foldl (ConcatenateHashes H) (calculateTxHash H envelopes[j] validationInfo[j]) =
          root.hash) ∧
      ∀ i : Int, (i < 0 ∨ envelopes.length ≤ i) →
        ∃ msg, Proof (some root) i = .error (.notFound msg) := by
  obtain ⟨hs, hmap, hlen, hget⟩ :=
    calculateBlockTxHashes_zipIdx H validationInfo envelopes 0 fun j hj => by omega
  have hleaves := @level_leaves H hs 0 (fun i => (i : Int)) fun i => by simp
  have hsne : hs ≠ [] := by
    intro h
    simp [h, eq_comm] at hlen
    exact hne hlen
  obtain ⟨root, hroot, hspans⟩ := buildNextTreeLevel_spans _ hleaves (hleaves.ne_nil hsne)
  have hcalc : calculateBlockTxHashes H envelopes validationInfo = .ok hs := hmap
  have hbuild : BuildTreeForBlockTx H envelopes validationInfo = .ok (some root) := by
    rw [BuildTreeForBlockTx, hcalc, ← hroot]
    rfl
  refine ⟨root, hbuild, fun j hj => ?_, fun i hi => ?_⟩
  · obtain ⟨below, hpath, hhead, hfold⟩ := hspans.found j (by omega)
    obtain ⟨he, hv, hj'⟩ := hget j (by omega)
    simp only [Nat.zero_add] at hj'
    rw [Int.zero_add] at hpath
    refine ⟨below.filterMap Node.sibling, ?_, ?_⟩
    · simp only [Proof, hpath, Except.map, computeProofFromPath_append_singleton, hhead, hj']
    · rw [← hj']
      exact hfold
  · obtain ⟨msg, hmsg⟩ := hspans.notFound i (by omega)
    exact ⟨msg, by simp only [Proof, hmsg]; rfl⟩

/-- A block of three transactions, each with its validation result, meets the hypotheses. -/
theorem BuildTreeForBlockTx_proof_of_three_txs :
    ([[1], [2], [3]] : List Bytes) ≠ [] ∧ ([[1], [2], [3]] : List Bytes).length ≤ [[0], [0], [0]].length ∧
    ∃ root, BuildTreeForBlockTx tagHash [[1], [2], [3]] [[0], [0], [0]] = .ok (some root) ∧
      (∀ j (hj : j < ([[1], [2], [3]] : List Bytes).length), ∃ rest,
        Proof (some root) j = .ok (calculateTxHash tagHash ([[1], [2], [3]] : List Bytes)[j]
          ([[0], [0], [0]] : List Bytes)[j] :: rest) ∧
        rest.foldl (ConcatenateHashes tagHash) (calculateTxHash tagHash
          ([[1], [2], [3]] : List Bytes)[j] ([[0], [0], [0]] : List Bytes)[j]) = root.hash) ∧
      ∀ i : Int, (i < 0 ∨ ([[1], [2], [3]] : List Bytes).length ≤ i) →
        ∃ msg, Proof (some root) i = .error (.notFound msg) :=
  ⟨by decide, by decide, BuildTreeForBlockTx_proof tagHash _ _ (by decide) (by decide)⟩

end Orion.MTree
