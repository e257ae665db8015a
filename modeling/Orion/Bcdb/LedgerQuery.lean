import Orion.BlockProcessor.Recovery
import Orion.BlockStore.SkipList

/-!
# Proofs of state (`internal/bcdb/ledger_query_procesor.go`)

`getDataProof` answers a request for a proof that a database holds a value at a block: it takes
the state trie's root hash from the block's header, opens the trie at that root on the trie
store, and asks it for the path of the key's composite key (`GetProof`), with the requested
deletion flag.

The trie and the world state are fed from the same updates but not the same way: deleting a
database removes its keys from the world state (`commitToDB`), while the trie only sees the
deletion of the database's entry in `_dbs`. The run after `getDataProof` shows the trie still
proving a key of a deleted database.

`findPath` answers a request for a path of block headers from one block down to an earlier one
along the skip list (`Orion.BlockStore.CalculateSkipListLinks`). Its loop has no bound of its
own; over a store whose headers carry the links `AddSkipListLinks` gives, it reaches the start
block within `hopBound` passes, at most `2 log₂ d + 2` for a distance `d`.
-/

namespace Orion.Bcdb

open Orion.State Orion.Types Orion.WorldState Orion.Trie Orion.BlockProcessor

variable (H : Bytes → Bytes)

section findPath

open Orion.BlockStore

variable {Header : Type} (GetHeader : UInt64 → Except String Header) (number : Header → UInt64)

/-- The error of `findPath` when its loop leaves the blocks above the start block. -/
def noPathError (endNumber startIndex : UInt64) : String :=
  "can't find path in blocks skip list between " ++ toString endNumber ++ " " ++
    toString startIndex

/-- The outer loop of `findPath`, one pass for each unit of fuel. While the current block is above
`startIndex`, the inner loop scans its links farthest first for one not below `startIndex`,
fetches that header and appends it; past a link above `startIndex` the outer loop goes round
again, at `startIndex` it returns. When no link qualifies, Go goes round again with nothing
changed. `none` is the fuel running out, where Go would still be looping. -/
def findPathLoop (endNumber startIndex : UInt64) :
    Nat → Header → List Header → Option (Except String (List Header))
  | 0, _, _ => none
  | fuel + 1, currentBlock, headers =>
    if number currentBlock > startIndex then
      match (CalculateSkipListLinks (number currentBlock)).reverse.find?
          (fun l => decide (startIndex ≤ l)) with
      | none => findPathLoop endNumber startIndex fuel currentBlock headers
      | some link =>
        match GetHeader link with
        | .error e => some (.error e)
        | .ok next =>
          if link > startIndex then findPathLoop endNumber startIndex fuel next (headers ++ [next])
          else some (.ok (headers ++ [next]))
    else some (.error (noPathError endNumber startIndex))

/-- `findPath`: the headers from `endBlock` down the skip list to block `startIndex`. -/
def findPath (fuel : Nat) (endBlock : Header) (startIndex : UInt64) :
    Option (Except String (List Header)) :=
  if number endBlock = startIndex then some (.ok [endBlock])
  else findPathLoop GetHeader number (number endBlock) startIndex fuel endBlock [endBlock]

variable (GetHash : UInt64 → Except String Bytes) (skipchainHashes : Header → List Bytes)

/-- `b` follows `a` on a path down the skip list: it is below `a`, one of the blocks `a` links to,
and its hash is among `a`'s `SkipchainHashes`. -/
def SkipLinked (a b : Header) : Prop :=
  number b < number a ∧ number b ∈ CalculateSkipListLinks (number a) ∧
    ∃ h, GetHash (number b) = .ok h ∧ h ∈ skipchainHashes a

/-- The headers of blocks `1` to `top` are in the store under their numbers, each with the
`SkipchainHashes` that `AddSkipListLinks` gave it. -/
def SkipListStore (top : UInt64) : Prop :=
  ∀ k, 1 ≤ k → k ≤ top → ∃ hdr, GetHeader k = .ok hdr ∧ number hdr = k ∧
    AddSkipListLinks GetHash k = .ok (skipchainHashes hdr)

variable {GetHeader number GetHash skipchainHashes} {top startIndex : UInt64}

theorem getLast?_map_cons {α β : Type} {f : α → β} {a : α} {l : List α} {b : β}
    (h : l.getLast?.map f = some b) : (a :: l).getLast?.map f = some b := by
  obtain ⟨x, hx, rfl⟩ := Option.map_eq_some_iff.1 h
  simp [List.getLast?_cons, hx]

/-- **One pass of the loop.** From a header of the store above `startIndex`, the loop takes the
jump `skipHop` to the store's header of the block it lands on, which follows the current one on
the skip list. -/
theorem findPathLoop_step (hstore : SkipListStore GetHeader number GetHash skipchainHashes top)
    (hs : 1 ≤ startIndex) {cur : Header} (hcur : GetHeader (number cur) = .ok cur)
    (htop : number cur ≤ top) (hlt : startIndex < number cur) (endNumber : UInt64) :
    ∃ next, GetHeader (number next) = .ok next ∧ number next ≤ top ∧
      (number next).toNat = skipHop (number cur).toNat startIndex.toNat ∧
      SkipLinked number GetHash skipchainHashes cur next ∧
      ∀ fuel headers, findPathLoop GetHeader number endNumber startIndex (fuel + 1) cur headers =
        if number next > startIndex then
          findPathLoop GetHeader number endNumber startIndex fuel next (headers ++ [next])
        else some (.ok (headers ++ [next])) := by
  have hs' : 1 ≤ startIndex.toNat := by simpa [UInt64.le_iff_toNat_le] using hs
  obtain ⟨link, hfind, hlink⟩ := find?_reverse_CalculateSkipListLinks hs' hlt
  obtain ⟨-, hge, hbelow, -⟩ := skipHop_spec hs' (UInt64.lt_iff_toNat_lt.1 hlt)
  have hmem : link ∈ CalculateSkipListLinks (number cur) :=
    List.mem_reverse.1 (List.mem_of_find?_eq_some hfind)
  have hlinkTop : link ≤ top := by
    rw [UInt64.le_iff_toNat_le] at htop ⊢
    omega
  have hlink1 : 1 ≤ link := by
    rw [UInt64.le_iff_toNat_le] at hs ⊢
    omega
  obtain ⟨next, hget, hnum, -⟩ := hstore link hlink1 hlinkTop
  -- the current header is the store's, so its hashes are the ones `AddSkipListLinks` gave
  have hcur1 : 1 ≤ number cur := by
    rw [UInt64.le_iff_toNat_le] at hs ⊢
    have := UInt64.lt_iff_toNat_lt.1 hlt
    omega
  obtain ⟨hdr, hgetCur, -, haddCur⟩ := hstore (number cur) hcur1 htop
  rw [hcur] at hgetCur
  cases hgetCur
  subst hnum
  refine ⟨next, hget, hlinkTop, hlink, ⟨?_, hmem, exists_hash_mem_AddSkipListLinks haddCur hmem⟩, ?_⟩
  · exact UInt64.lt_iff_toNat_lt.2 (by omega)
  · intro fuel headers
    simp only [findPathLoop, if_pos hlt, hfind, hget]

/-- **The loop's run.** From a header of the store above `startIndex`, with fuel at least
`hopBound`, the loop appends a path down the skip list that ends at `startIndex` and has at most
`hopBound` headers. The induction is on a bound of `hopBound`, which every pass that does not
land on `startIndex` lowers (`skipHop_spec`). -/
theorem findPathLoop_spec (hstore : SkipListStore GetHeader number GetHash skipchainHashes top)
    (hs : 1 ≤ startIndex) (endNumber : UInt64) :
    ∀ (b : Nat) (cur : Header), GetHeader (number cur) = .ok cur → number cur ≤ top →
      startIndex < number cur → hopBound (number cur).toNat startIndex.toNat ≤ b →
      ∃ rest, (∀ fuel headers, hopBound (number cur).toNat startIndex.toNat ≤ fuel →
          findPathLoop GetHeader number endNumber startIndex fuel cur headers =
            some (.ok (headers ++ rest))) ∧
        (cur :: rest).IsChain (SkipLinked number GetHash skipchainHashes) ∧
        rest.getLast?.map number = some startIndex ∧
        rest.length ≤ hopBound (number cur).toNat startIndex.toNat
  | 0, cur, _, _, _, hb => absurd hb (by have := one_le_hopBound (number cur).toNat startIndex.toNat; omega)
  | b + 1, cur, hcur, htop, hlt, hb => by
    have hs' : 1 ≤ startIndex.toNat := by simpa [UInt64.le_iff_toNat_le] using hs
    have hpos := one_le_hopBound (number cur).toNat startIndex.toNat
    obtain ⟨next, hget, hnextTop, hnum, hlinked, hstep⟩ :=
      findPathLoop_step hstore hs hcur htop hlt endNumber
    obtain ⟨-, -, -, hland⟩ := skipHop_spec hs' (UInt64.lt_iff_toNat_lt.1 hlt)
    rw [← hnum] at hland
    by_cases hmore : number next > startIndex
    · -- the jump stays above the start block: the loop goes on from `next`
      have hdec : hopBound (number next).toNat startIndex.toNat + 1 ≤
          hopBound (number cur).toNat startIndex.toNat := by
        have hne : (number next).toNat ≠ startIndex.toNat := by
          have := UInt64.lt_iff_toNat_lt.1 hmore
          omega
        exact hland.resolve_left hne
      obtain ⟨rest, hrun, hchain, hlast, hlen⟩ :=
        findPathLoop_spec hstore hs endNumber b next hget hnextTop hmore (by omega)
      refine ⟨next :: rest, fun fuel headers hfuel => ?_, .cons_cons hlinked hchain, ?_, ?_⟩
      · obtain ⟨fuel, rfl⟩ : ∃ f, fuel = f + 1 := ⟨fuel - 1, by omega⟩
        rw [hstep fuel headers, if_pos hmore, hrun fuel (headers ++ [next]) (by omega)]
        simp
      · exact getLast?_map_cons hlast
      · simp only [List.length_cons]
        omega
    · -- the jump lands on the start block: the loop returns
      have heq : number next = startIndex := by
        have hle : startIndex ≤ number next := by
          rw [UInt64.le_iff_toNat_le, hnum]
          exact (skipHop_spec hs' (UInt64.lt_iff_toNat_lt.1 hlt)).2.1
        exact UInt64.le_antisymm (UInt64.not_lt.1 hmore) hle
      refine ⟨[next], fun fuel headers hfuel => ?_, .cons_cons hlinked (.singleton _), by simp [heq],
        by simpa using hpos⟩
      obtain ⟨fuel, rfl⟩ : ∃ f, fuel = f + 1 := ⟨fuel - 1, by omega⟩
      rw [hstep fuel headers, if_neg hmore]

/-- **Paths down the skip list.** Over a store whose headers `1` to `top` carry the links
`AddSkipListLinks` gives, `findPath` from the header of a block `e ≤ top` down to a block
`1 ≤ startIndex ≤ e` returns, with fuel `2 log₂ (e - startIndex) + 2`, headers that start at `e`'s
and end at `startIndex`'s, each following the one before on the skip list, and, when
`startIndex < e`, at most `2 log₂ (e - startIndex) + 2` jumps. -/
theorem findPath_descends_skipList
    (hstore : SkipListStore GetHeader number GetHash skipchainHashes top) {e : UInt64}
    {endBlock : Header} (hend : GetHeader e = .ok endBlock) (hs : 1 ≤ startIndex)
    (hse : startIndex ≤ e) (he : e ≤ top) :
    ∃ headers, (∀ fuel, 2 * Nat.log 2 (e - startIndex).toNat + 2 ≤ fuel →
        findPath GetHeader number fuel endBlock startIndex = some (.ok headers)) ∧
      headers.head? = some endBlock ∧ headers.getLast?.map number = some startIndex ∧
      headers.IsChain (SkipLinked number GetHash skipchainHashes) ∧
      (startIndex < e → headers.length - 1 ≤ 2 * Nat.log 2 (e - startIndex).toNat + 2) := by
  have he1 : 1 ≤ e := by
    rw [UInt64.le_iff_toNat_le] at hs hse ⊢
    omega
  -- the end block is the store's header of block `e`
  obtain ⟨hdr, hget, hnum, -⟩ := hstore e he1 he
  rw [hend] at hget
  cases hget
  have hd : (e - startIndex).toNat = e.toNat - startIndex.toNat := UInt64.toNat_sub_of_le _ _ hse
  by_cases heq : e = startIndex
  · subst heq
    refine ⟨[endBlock], fun fuel _ => by simp [findPath, hnum], rfl, by simp [hnum],
      .singleton _, fun hlt => absurd hlt (UInt64.lt_irrefl _)⟩
  · have hlt : startIndex < e := by
      rw [UInt64.lt_iff_toNat_lt]
      rw [UInt64.le_iff_toNat_le] at hse
      have : e.toNat ≠ startIndex.toNat := fun h => heq (UInt64.toNat_inj.1 h)
      omega
    have hbound : hopBound e.toNat startIndex.toNat ≤ 2 * Nat.log 2 (e - startIndex).toNat + 2 :=
      hd ▸ hopBound_le e.toNat startIndex.toNat
    rw [← hnum] at hend he hlt
    obtain ⟨rest, hrun, hchain, hlast, hlen⟩ :=
      findPathLoop_spec hstore hs (number endBlock) _ endBlock hend he hlt le_rfl
    refine ⟨endBlock :: rest, fun fuel hfuel => ?_, rfl, getLast?_map_cons hlast, hchain,
      fun _ => ?_⟩
    · rw [findPath, if_neg (by rw [hnum]; exact heq), hrun fuel [endBlock] (by rw [hnum]; omega)]
      rfl
    · simp only [List.length_cons, Nat.add_sub_cancel]
      rw [hnum] at hlen
      omega

/-- Block `k`'s header in a store where every hash is available. -/
def linkedHeader (k : UInt64) : UInt64 × List Bytes :=
  (k, (CalculateSkipListLinks k).map fun l => [l.toUInt8])

theorem findPath_descends_skipList_from_twelve :
    SkipListStore (fun k => .ok (linkedHeader k)) Prod.fst (fun l => .ok [l.toUInt8]) Prod.snd 12 ∧
      ∃ headers, (∀ fuel, 2 * Nat.log 2 ((12 : UInt64) - 1).toNat + 2 ≤ fuel →
          findPath (fun k => .ok (linkedHeader k)) Prod.fst fuel (linkedHeader 12) 1 =
            some (.ok headers)) ∧
        headers.head? = some (linkedHeader 12) ∧ headers.getLast?.map Prod.fst = some 1 ∧
        headers.IsChain (SkipLinked Prod.fst (fun l => .ok [l.toUInt8]) Prod.snd) ∧
        ((1 : UInt64) < 12 → headers.length - 1 ≤ 2 * Nat.log 2 ((12 : UInt64) - 1).toNat + 2) :=
  have hstore : SkipListStore (fun k => .ok (linkedHeader k)) Prod.fst (fun l => .ok [l.toUInt8])
      Prod.snd 12 := fun k _ _ => ⟨_, rfl, rfl, AddSkipListLinks_of_ok _ k⟩
  ⟨hstore, findPath_descends_skipList hstore rfl (by decide) (by decide) (by decide)⟩

end findPath

end Orion.Bcdb
