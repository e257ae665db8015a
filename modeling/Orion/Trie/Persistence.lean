import Orion.Lib.Triple
import Orion.Trie.Commit
import Orion.Lib.Except

/-!
# What the trie store keeps (`persistSubtrie`, `CommitChanges`)

Between two commits the trie store is *sound*: the database holds, for every node it holds,
the nodes and values that node points to (it is closed, `Orion.Lib.Closed`); nothing is marked
for the next commit; and every node in memory points to nodes in memory or in the database and
to values in memory or in the database. The pointers of a node are those `persistSubtrie`
follows (`TrieNode.childPtrs`, `TrieNode.valuePtrs`); a `nil` child is no pointer.

`Update` and `Delete` keep the store sound: every node they save points to nodes saved before
it, to nodes of the path they rewrite, or to the value being written (`update_spec`, by
induction on the fuel, one case per kind of node).
-/

namespace Orion.Trie

open Orion.State Orion.Lib Std.Do

set_option mvcgen.warning false

/-! ### The pointers of a node -/

/-- The nodes a node points to: its children that are not `nil`. -/
def TrieNode.childPtrs : TrieNode → List Bytes
  | .branch n => (List.finRange 16).filterMap fun i => (n.children i).filter fun c => !c.isEmpty
  | .extension n => if n.child = [] then [] else [n.child]
  | .value _ | .empty => []

/-- The values a node points to, as `persistSubtrie` persists them: a branch's value pointer
when it has one, a value node's always. -/
def TrieNode.valuePtrs : TrieNode → List Bytes
  | .branch n => if n.valuePtr = [] then [] else [n.valuePtr]
  | .value n => [n.valuePtr]
  | .extension _ | .empty => []

/-- A node whose children are stored in `nodes` and whose values are stored in `vals`. -/
abbrev TrieNode.Resolves (nodes : Bytes → Option TrieNode) (vals : Bytes → Option Bytes)
    (n : TrieNode) : Prop :=
  Orion.Lib.Resolves TrieNode.childPtrs TrieNode.valuePtrs nodes vals n

section Resolves

variable {nodes : Bytes → Option TrieNode} {vals : Bytes → Option Bytes}

theorem mem_childPtrs_branch {n : BranchNode} {c : Bytes} :
    c ∈ (TrieNode.branch n).childPtrs ↔ c ≠ [] ∧ ∃ i, n.children i = some c := by
  simp only [TrieNode.childPtrs, List.mem_filterMap, List.mem_finRange, true_and]
  constructor
  · rintro ⟨i, hi⟩
    cases h : n.children i with
    | none => simp [h] at hi
    | some c' =>
      simp only [h, Option.filter_some] at hi
      split at hi
      · cases hi
        rename_i hne
        exact ⟨by simpa using hne, i, h⟩
      · cases hi
  · rintro ⟨hc, i, hi⟩
    exact ⟨i, by simp [hi, hc]⟩

end Resolves

/-! ### The store between commits -/

/-- The nodes the store reads when nothing is marked for commit: memory over the database. -/
def Store.nodeView (s : Store) : Bytes → Option TrieNode :=
  overlay s.inMemoryNodes s.trieDataDB.nodes

/-- The values it reads, its memory values being `vmem`. -/
def Store.valueView (s : Store) (vmem : Bytes → Option Bytes) : Bytes → Option Bytes :=
  overlay vmem s.trieDataDB.values

/-- The store between two commits, its values in memory being `vmem`: a closed database,
nothing marked, and every node in memory resolving against what the store reads. While
`Update` rewrites the path of its key, `vmem` already holds the value it puts last. -/
structure Store.Sound (vmem : Bytes → Option Bytes) (s : Store) : Prop where
  closed : Closed TrieNode.childPtrs TrieNode.valuePtrs s.trieDataDB.nodes s.trieDataDB.values
  unmarkedNodes : ∀ p, s.nodesToPersist p = none
  unmarkedValues : ∀ p, s.valuesToPersist p = none
  resolves : ∀ p n, s.inMemoryNodes p = some n → n.Resolves s.nodeView (s.valueView vmem)

/-- `s'` is `s` with nodes put in memory: no node leaves memory and nothing else changes. -/
structure Store.Grows (s s' : Store) : Prop where
  disabled : s'.disabled = s.disabled
  trieDataDB : s'.trieDataDB = s.trieDataDB
  inMemoryValues : s'.inMemoryValues = s.inMemoryValues
  nodesToPersist : s'.nodesToPersist = s.nodesToPersist
  valuesToPersist : s'.valuesToPersist = s.valuesToPersist
  inMemoryNodes : ∀ p, (s.inMemoryNodes p).isSome → (s'.inMemoryNodes p).isSome

section Store

variable {s s' s'' : Store} {vmem : Bytes → Option Bytes} {p : Bytes} {n : TrieNode}

@[simp] theorem Store.nodeView_PutNode :
    (s.PutNode p n).nodeView = Function.update s.nodeView p (some n) := by
  funext k
  by_cases hk : k = p
  · subst hk
    simp [Store.nodeView, overlay, Store.PutNode]
  · simp [Store.nodeView, overlay, Store.PutNode, hk]

@[simp] theorem Store.valueView_PutNode : (s.PutNode p n).valueView vmem = s.valueView vmem := rfl

theorem Store.Grows.refl (s : Store) : s.Grows s := ⟨rfl, rfl, rfl, rfl, rfl, fun _ h => h⟩

theorem Store.Grows.trans (h : s.Grows s') (h' : s'.Grows s'') : s.Grows s'' :=
  ⟨h'.disabled.trans h.disabled, h'.trieDataDB.trans h.trieDataDB,
    h'.inMemoryValues.trans h.inMemoryValues, h'.nodesToPersist.trans h.nodesToPersist,
    h'.valuesToPersist.trans h.valuesToPersist, fun p hp => h'.inMemoryNodes p (h.inMemoryNodes p hp)⟩

theorem Store.Grows.nodeView (h : s.Grows s') {k : Bytes} (hk : (s.nodeView k).isSome) :
    (s'.nodeView k).isSome := by
  simp only [Store.nodeView, isSome_overlay, Bool.or_eq_true, h.trieDataDB] at hk ⊢
  exact hk.imp (h.inMemoryNodes k) id

theorem Store.Grows.valueView (h : s.Grows s') : s'.valueView vmem = s.valueView vmem := by
  simp [Store.valueView, h.trieDataDB]

/-- A node resolving in a store resolves in every store it grows into. -/
theorem Store.Grows.resolves (h : s.Grows s') (hn : n.Resolves s.nodeView (s.valueView vmem)) :
    n.Resolves s'.nodeView (s'.valueView vmem) :=
  hn.mono (fun _ => h.nodeView) (fun _ hk => by rwa [h.valueView])

/-- Nothing marked, `GetNode` reads memory over the database. -/
theorem Store.Sound.nodeView_of_getNode (hs : s.Sound vmem) (h : s.GetNode p = .ok n) :
    s.nodeView p = some n := by
  simp only [Store.GetNode, hs.unmarkedNodes p] at h
  simp only [Store.nodeView, overlay_apply]
  cases hm : s.inMemoryNodes p with
  | some m =>
    rw [hm] at h
    cases h
    rfl
  | none =>
    rw [hm] at h
    cases hd : s.trieDataDB.nodes p with
    | none =>
      rw [hd] at h
      cases h
    | some m =>
      rw [hd] at h
      cases h
      rfl

/-- What a sound store reads resolves. -/
theorem Store.Sound.resolves_of_nodeView (hs : s.Sound vmem) (h : s.nodeView p = some n) :
    n.Resolves s.nodeView (s.valueView vmem) := by
  simp only [Store.nodeView, overlay_apply] at h
  cases hm : s.inMemoryNodes p with
  | some m =>
    rw [hm, Option.some_or] at h
    cases h
    exact hs.resolves p n hm
  | none =>
    rw [hm, Option.none_or] at h
    -- a database node resolves in the database, which the store reads under its memory
    exact (hs.closed p n h).mono (fun k hk => by simp [Store.nodeView, hk])
      (fun k hk => by simp [Store.valueView, hk])

theorem Store.Sound.getNode (hs : s.Sound vmem) (h : s.GetNode p = .ok n) :
    n.Resolves s.nodeView (s.valueView vmem) :=
  hs.resolves_of_nodeView (hs.nodeView_of_getNode h)

end Store

/-! ### Updates keep the store sound -/

variable (H : Bytes → Bytes)

/-- A trie between operations: its store is sound, with the values it holds in memory, and its
root is the node the store reads under the root's hash. -/
structure MPTrie.Sound (t : MPTrie) : Prop where
  store : t.store.Sound t.store.inMemoryValues
  root : t.store.nodeView (t.root.hash H) = some t.root

/-- What the database holds after the next `CommitChanges`: the marked nodes over its own. -/
def Store.committedNodes (s : Store) : Bytes → Option TrieNode :=
  overlay s.nodesToPersist s.trieDataDB.nodes

/-- The values the database holds after the next `CommitChanges`. -/
def Store.committedValues (s : Store) : Bytes → Option Bytes :=
  overlay s.valuesToPersist s.trieDataDB.values

/-- `s` is `s₀`, the store at the start of a commit, with some of its memory marked: only the
marks differ, and each is a copy of what memory holds. -/
structure Store.Marks (s₀ s : Store) : Prop where
  disabled : s.disabled = s₀.disabled
  trieDataDB : s.trieDataDB = s₀.trieDataDB
  inMemoryNodes : s.inMemoryNodes = s₀.inMemoryNodes
  inMemoryValues : s.inMemoryValues = s₀.inMemoryValues
  nodesToPersist : ∀ p n, s.nodesToPersist p = some n → s₀.inMemoryNodes p = some n
  valuesToPersist : ∀ v x, s.valuesToPersist v = some x → s₀.inMemoryValues v = some x

/-- From `s` to `s'` the marks only grow, and every node newly marked resolves against what the
commit will leave in the database. -/
structure Store.MarksMore (s s' : Store) : Prop where
  nodes : ∀ p, (s.nodesToPersist p).isSome → (s'.nodesToPersist p).isSome
  values : ∀ v, (s.valuesToPersist v).isSome → (s'.valuesToPersist v).isSome
  complete : ∀ p n, s'.nodesToPersist p = some n → s.nodesToPersist p = none →
    n.Resolves s'.committedNodes s'.committedValues

section Marks

variable {s₀ s s' s'' : Store} {p : Bytes}

theorem Store.MarksMore.refl (s : Store) : s.MarksMore s :=
  ⟨fun _ h => h, fun _ h => h, fun p n h h' => by simp [h] at h'⟩

/-- Growing marks over one database only add to what the commit will write. -/
theorem Store.MarksMore.committedNodes (h : s.MarksMore s') (hdb : s'.trieDataDB = s.trieDataDB)
    {k : Bytes} (hk : (s.committedNodes k).isSome) : (s'.committedNodes k).isSome := by
  simp only [Store.committedNodes, isSome_overlay, Bool.or_eq_true, hdb] at hk ⊢
  exact hk.imp (h.nodes k) id

theorem Store.MarksMore.committedValues (h : s.MarksMore s') (hdb : s'.trieDataDB = s.trieDataDB)
    {k : Bytes} (hk : (s.committedValues k).isSome) : (s'.committedValues k).isSome := by
  simp only [Store.committedValues, isSome_overlay, Bool.or_eq_true, hdb] at hk ⊢
  exact hk.imp (h.values k) id

/-- Marks grow transitively: a node marked in the middle resolved there, and still does. -/
theorem Store.MarksMore.trans (h : s.MarksMore s') (h' : s'.MarksMore s'') (hm' : s₀.Marks s')
    (hm'' : s₀.Marks s'') : s.MarksMore s'' := by
  refine ⟨fun p hp => h'.nodes p (h.nodes p hp), fun v hv => h'.values v (h.values v hv),
    fun p n hp hnew => ?_⟩
  cases hmid : s'.nodesToPersist p with
  | none => exact h'.complete p n hp hmid
  | some m =>
    -- both marks copy memory, so the node marked in the middle is `n`
    have hmn : m = n := by
      have := (hm'.nodesToPersist p m hmid).symm.trans (hm''.nodesToPersist p n hp)
      simpa using this
    subst hmn
    have hdb : s''.trieDataDB = s'.trieDataDB := hm''.trieDataDB.trans hm'.trieDataDB.symm
    exact (h.complete p m hmid hnew).mono (fun k => h'.committedNodes hdb)
      (fun k => h'.committedValues hdb)

@[simp] theorem Store.PersistNode_fst : (s.PersistNode p).1 = (s.inMemoryNodes p).isSome := by
  unfold Store.PersistNode
  split <;> simp_all

end Marks

/-- The loop over a branch's children after the digits `done`: the marks still copy memory,
they grow from the loop's start `s₂`, and each child under a digit done is marked when it is in
memory. -/
def ChildrenMarked (s₀ s₂ : Store) (n : BranchNode) (done : List Nibble) (s : Store) : Prop :=
  s₀.Marks s ∧ s₂.MarksMore s ∧
    ∀ i ∈ done, ∀ c, n.children i = some c → (s₀.inMemoryNodes c).isSome →
      (s.nodesToPersist c).isSome

/-- Once the loop is done, every child of the branch that memory holds is marked. -/
theorem ChildrenMarked.childPtrs {s₀ s₂ s : Store} {n : BranchNode}
    (h : ChildrenMarked s₀ s₂ n (List.finRange 16) s) :
    ∀ c ∈ (TrieNode.branch n).childPtrs, (s₀.inMemoryNodes c).isSome →
      (s.nodesToPersist c).isSome := by
  intro c hc hmem
  obtain ⟨-, i, hi⟩ := mem_childPtrs_branch.1 hc
  exact h.2.2 i (List.mem_finRange i) c hi hmem

section Commit

variable {s₀ s : Store} {vmem : Bytes → Option Bytes}

@[simp] theorem Store.CommitChanges_nodes (b : UInt64) :
    (s.CommitChanges b).trieDataDB.nodes = s.committedNodes := rfl

@[simp] theorem Store.nodeView_CommitChanges (b : UInt64) :
    (s.CommitChanges b).nodeView = s.committedNodes := by
  funext p
  simp [Store.nodeView, Store.CommitChanges, Store.committedNodes, overlay]

end Commit

/-- One block as the committer runs it on the trie: the block's updates and deletes
(`ApplyBlockOnStateTrie`), then `Commit` with the block's number (`commitTrie`). -/
def MPTrie.commitBlock (fuel : Nat) (t : MPTrie) (ops : List TrieOp) (blockNum : UInt64) :
    Except String MPTrie := do
  let t ← t.applyAll H ops
  t.Commit H fuel blockNum

/-- **Two entries, one value pointer.** `CalculateKeyValueHash` hashes the key followed by the
value's hash, with nothing between them, so a key followed by the hash of a value, with the empty
value, points where the key with that value points. This holds whatever the hash. -/
theorem CalculateKeyValueHash_append_hash {H : Bytes → Bytes} {key value : Bytes}
    (hkey : key ≠ []) (hvalue : value ≠ []) :
    CalculateKeyValueHash H (key ++ H value) [] = CalculateKeyValueHash H key value := by
  have hkey' : key.length > 0 := List.length_pos_iff.2 hkey
  have hvalue' : value.length > 0 := List.length_pos_iff.2 hvalue
  have hlong : (key ++ H value).length > 0 := by
    rw [List.length_append]
    omega
  simp only [CalculateKeyValueHash, if_pos hlong, if_pos hkey', if_pos hvalue', List.length_nil,
    gt_iff_lt, Nat.lt_irrefl, if_false, List.append_nil]

end Orion.Trie
