import Orion.Lib.Except
import Orion.State.Proof
import Mathlib.NumberTheory.Padics.PadicVal.Basic
import Mathlib.Data.Nat.Log

/-!
# The skip list of block headers (`internal/blockstore`, `CalculateSkipListLinks`)

Each block header carries the hashes of earlier blocks: block `n` links to `n - 1`, `n - 2`,
`n - 4`, ..., `n - 2^h` where `h` is the number of times `2` divides `n - 1`
(`skipListHeight`). A walk down the list that always takes the farthest link not below its goal
(`skipHop`, what `findPath` of the ledger query does) first takes longer and longer jumps, while
the jumps still fit, then shorter and shorter ones, so it reaches its goal in at most
`2 log₂ d + 2` jumps for a distance `d`: `hopBound` counts what is left, and every jump lowers it
(`skipHop_spec`).

Block numbers are `UInt64`, as in Go; `map_toNat_CalculateSkipListLinks` reads the links as
natural numbers (`skipLinks`), where the arithmetic of the walk is done.
-/

namespace Orion.BlockStore

open Orion.State

/-- `SkipListBase`. -/
def SkipListBase : UInt64 := 2

/-- `skipListHeight`: one more than the number of times `SkipListBase` divides `blockNum`. Go
recurses without end on `0`, which no caller passes; it has height `0` here. -/
def skipListHeight (blockNum : UInt64) : Nat :=
  if blockNum = 0 then 0
  else if blockNum % SkipListBase ≠ 0 then 1
  else 1 + skipListHeight (blockNum / SkipListBase)
termination_by blockNum.toNat
decreasing_by
  rename_i hzero _
  have hpos : 0 < blockNum.toNat := by
    rcases Nat.eq_zero_or_pos blockNum.toNat with h | h
    · exact absurd (UInt64.toNat_inj.1 (by simpa using h)) hzero
    · exact h
  simp [UInt64.toNat_div, SkipListBase]
  omega

/-- The loop of `CalculateSkipListLinks`: `k` more links, the next one `distance` below
`blockNum`, the distance doubling each time. -/
def linksLoop (blockNum : UInt64) : Nat → UInt64 → List UInt64
  | 0, _ => []
  | k + 1, distance => (blockNum - distance) :: linksLoop blockNum k (distance * SkipListBase)

/-- `CalculateSkipListLinks`: the blocks block `blockNum` links to, nearest first. -/
def CalculateSkipListLinks (blockNum : UInt64) : List UInt64 :=
  if blockNum > 1 then linksLoop blockNum (skipListHeight (blockNum - 1)) 1 else []

/-- `AddSkipListLinks`, with the store's `GetHash`: the hashes of the blocks a block links to,
which it puts in its header's `SkipchainHashes`. -/
def AddSkipListLinks (GetHash : UInt64 → Except String Bytes) (blockNum : UInt64) :
    Except String (List Bytes) :=
  (CalculateSkipListLinks blockNum).mapM GetHash

/-- A header built by `AddSkipListLinks` holds the hash of each block it links to. -/
theorem exists_hash_mem_AddSkipListLinks {GetHash : UInt64 → Except String Bytes}
    {blockNum link : UInt64} {hashes : List Bytes}
    (hadd : AddSkipListLinks GetHash blockNum = .ok hashes)
    (hlink : link ∈ CalculateSkipListLinks blockNum) :
    ∃ h, GetHash link = .ok h ∧ h ∈ hashes :=
  Except.exists_mem_of_mapM_eq_ok hadd hlink

/-! ### The links as natural numbers -/

/-- The links of block `n`: `n - 2^i` for each `i` up to the number of times `2` divides
`n - 1`, nearest first. -/
def skipLinks (n : Nat) : List Nat :=
  if 1 < n then (List.range (padicValNat 2 (n - 1) + 1)).map (n - 2 ^ ·) else []

theorem skipListHeight_eq (m : UInt64) (hm : m ≠ 0) :
    skipListHeight m = padicValNat 2 m.toNat + 1 := by
  have hpos : m.toNat ≠ 0 := fun h => hm (UInt64.toNat_inj.1 (by simpa using h))
  rw [skipListHeight, if_neg hm]
  split
  · -- odd: `2` does not divide it
    rename_i hodd
    have hndvd : ¬2 ∣ m.toNat := by
      intro hdvd
      apply hodd
      apply UInt64.toNat_inj.1
      simp [SkipListBase, UInt64.toNat_mod, Nat.mod_eq_zero_of_dvd hdvd]
    rw [padicValNat.eq_zero_of_not_dvd hndvd]
  · -- even: one more than its half
    rename_i heven
    have hdvd : 2 ∣ m.toNat := by
      have h := congrArg UInt64.toNat (not_not.1 heven)
      simp only [SkipListBase, UInt64.toNat_mod, UInt64.toNat_ofNat] at h
      exact Nat.dvd_of_mod_eq_zero (by simpa using h)
    have hhalf : m / SkipListBase ≠ 0 := by
      intro h
      have h' := congrArg UInt64.toNat h
      simp [UInt64.toNat_div, SkipListBase] at h'
      omega
    rw [skipListHeight_eq _ hhalf]
    have hval : padicValNat 2 (m / SkipListBase).toNat = padicValNat 2 m.toNat - 1 := by
      simp only [UInt64.toNat_div, SkipListBase, UInt64.toNat_ofNat]
      exact padicValNat.div hdvd
    have hone : 1 ≤ padicValNat 2 m.toNat :=
      one_le_padicValNat_of_dvd hpos hdvd
    omega
termination_by m.toNat
decreasing_by
  simp [UInt64.toNat_div, SkipListBase]
  omega

/-- The loop's links as numbers: the `i`-th is `2^(j + i)` below `blockNum`, while the distances
fit below it. -/
theorem map_toNat_linksLoop (blockNum : UInt64) :
    ∀ (k j : Nat) (distance : UInt64), (k ≠ 0 → distance.toNat = 2 ^ j) →
      (k ≠ 0 → 2 ^ (j + k - 1) ≤ blockNum.toNat) →
      (linksLoop blockNum k distance).map UInt64.toNat =
        (List.range k).map fun i => blockNum.toNat - 2 ^ (j + i)
  | 0, _, _, _, _ => rfl
  | k + 1, j, distance, hd, hk => by
    have hd := hd (Nat.succ_ne_zero k)
    have hk := hk (Nat.succ_ne_zero k)
    have hle : distance ≤ blockNum := by
      rw [UInt64.le_iff_toNat_le, hd]
      exact le_trans (Nat.pow_le_pow_right (by norm_num) (by omega)) hk
    have hnext := map_toNat_linksLoop blockNum k (j + 1) (distance * SkipListBase)
      (fun hk0 => by
        have hlt : 2 ^ (j + 1) < 2 ^ 64 :=
          lt_of_le_of_lt (le_trans (Nat.pow_le_pow_right (by norm_num) (by omega)) hk)
            (UInt64.toNat_lt blockNum)
        rw [UInt64.toNat_mul, hd]
        simp only [SkipListBase, UInt64.toNat_ofNat]
        rw [← pow_succ, Nat.mod_eq_of_lt hlt])
      (fun _ => by
        have : j + 1 + k - 1 = j + (k + 1) - 1 := by omega
        rw [this]
        exact hk)
    rw [linksLoop, List.map_cons, hnext, List.range_succ_eq_map, List.map_cons, List.map_map]
    simp only [UInt64.toNat_sub_of_le _ _ hle, hd, Nat.add_zero]
    congr 1
    apply List.map_congr_left
    intro i _
    simp [Nat.add_assoc, Nat.add_comm 1]

/-- `CalculateSkipListLinks`, read as numbers, is `skipLinks`. -/
theorem map_toNat_CalculateSkipListLinks (n : UInt64) :
    (CalculateSkipListLinks n).map UInt64.toNat = skipLinks n.toNat := by
  unfold CalculateSkipListLinks skipLinks
  by_cases hn : n > 1
  · have hn' : 1 < n.toNat := UInt64.lt_iff_toNat_lt.1 hn
    have hsub : (n - 1).toNat = n.toNat - 1 :=
      UInt64.toNat_sub_of_le _ _ (UInt64.le_iff_toNat_le.2 (by simp; omega))
    have hne : n - 1 ≠ 0 := fun h => by
      have := congrArg UInt64.toNat h
      simp only [hsub, UInt64.toNat_zero] at this
      omega
    rw [if_pos hn, if_pos hn', skipListHeight_eq _ hne, hsub]
    refine (map_toNat_linksLoop n _ 0 1 (fun _ => rfl) fun _ => ?_).trans (by simp)
    -- the farthest link: `2^v` divides `n - 1`, so it is at most `n - 1`
    have hdvd : 2 ^ padicValNat 2 (n.toNat - 1) ∣ n.toNat - 1 := pow_padicValNat_dvd
    have := Nat.le_of_dvd (by omega) hdvd
    simp only [Nat.zero_add, Nat.add_sub_cancel]
    omega
  · have hn' : ¬1 < n.toNat := fun h => hn (UInt64.lt_iff_toNat_lt.2 (by simpa using h))
    rw [if_neg hn, if_neg hn']
    rfl

/-! ### The walk down the list -/

/-- The jump `findPath` takes from block `n` towards block `s`: the farthest link not below `s`. -/
def skipHop (n s : Nat) : Nat := n - 2 ^ min (padicValNat 2 (n - 1)) (Nat.log 2 (n - s))

/-- What is left of a walk from `n` down to `s`: while the jumps from `n` still fit in the
distance, twice the distance's logarithm less the size of the next jump, plus two; after, the
distance's logarithm plus one. -/
def hopBound (n s : Nat) : Nat :=
  if 2 ^ padicValNat 2 (n - 1) ≤ n - s then 2 * Nat.log 2 (n - s) - padicValNat 2 (n - 1) + 2
  else Nat.log 2 (n - s) + 1

theorem hopBound_le (n s : Nat) : hopBound n s ≤ 2 * Nat.log 2 (n - s) + 2 := by
  unfold hopBound
  split <;> omega

theorem one_le_hopBound (n s : Nat) : 1 ≤ hopBound n s := by
  unfold hopBound
  split <;> omega

/-- The links below `n` that are not below `s` are those `2^i` below with `2^i ≤ n - s`; the
farthest of them comes first in the reversed list. -/
theorem find?_reverse_skipLinks {n s : Nat} (hs : 1 ≤ s) (hn : s < n) :
    (skipLinks n).reverse.find? (fun l => decide (s ≤ l)) = some (skipHop n s) := by
  have hn1 : 1 < n := by omega
  unfold skipLinks skipHop
  rw [if_pos hn1]
  -- induction on the number of links, the farthest one first
  suffices h : ∀ k, ((List.range (k + 1)).map (n - 2 ^ ·)).reverse.find? (fun l => decide (s ≤ l)) =
      some (n - 2 ^ min k (Nat.log 2 (n - s))) from h _
  intro k
  induction k with
  | zero => simp; omega
  | succ k ih =>
    rw [List.range_succ, List.map_append, List.reverse_append, List.map_singleton,
      List.reverse_singleton, List.singleton_append, List.find?_cons]
    by_cases hfit : 2 ^ (k + 1) ≤ n - s
    · have hlog : k + 1 ≤ Nat.log 2 (n - s) := (Nat.le_log_iff_pow_le (by norm_num) (by omega)).2 hfit
      have hle : s ≤ n - 2 ^ (k + 1) := by omega
      simp [hle, Nat.min_eq_left hlog]
    · have hlog : Nat.log 2 (n - s) < k + 1 := by
        by_contra hge
        exact hfit ((Nat.le_log_iff_pow_le (by norm_num) (by omega)).1 (by omega))
      have hlt : ¬s ≤ n - 2 ^ (k + 1) := by
        have : n - s < 2 ^ (k + 1) := by omega
        omega
      simp only [hlt, decide_false, ih]
      rw [Nat.min_eq_right (by omega), Nat.min_eq_right (by omega)]

/-- Taking `2^v` off a number that `2` divides exactly `v` times leaves one that `2` divides more
often. -/
theorem succ_le_padicValNat_sub {m : Nat} (hlt : 2 ^ padicValNat 2 m < m) :
    padicValNat 2 m + 1 ≤ padicValNat 2 (m - 2 ^ padicValNat 2 m) := by
  have hpos := Nat.two_pow_pos (padicValNat 2 m)
  have hnot : ¬2 ^ (padicValNat 2 m + 1) ∣ m := pow_succ_padicValNat_not_dvd (by omega)
  obtain ⟨q, hq⟩ : 2 ^ padicValNat 2 m ∣ m := pow_padicValNat_dvd
  generalize padicValNat 2 m = v at hlt hnot hq ⊢
  subst hq
  -- `m = 2^v q` with `q` odd, so `m - 2^v = 2^(v+1) ((q - 1) / 2)`
  have hodd : q % 2 = 1 := by
    by_contra hq2
    apply hnot
    rw [pow_succ]
    exact Nat.mul_dvd_mul_left _ (Nat.dvd_of_mod_eq_zero (show q % 2 = 0 by omega))
  have hsub : 2 ^ v * q - 2 ^ v = 2 ^ (v + 1) * ((q - 1) / 2) := by
    have hhalf : 2 * ((q - 1) / 2) = q - 1 := by omega
    rw [pow_succ, Nat.mul_assoc, hhalf, Nat.mul_sub, Nat.mul_one]
  rw [← padicValNat_dvd_iff_le (by omega), hsub]
  exact Nat.dvd_mul_right _ _

/-- Taking `2^k` off a number that `2^k` divides leaves one that `2^k` still divides. -/
theorem le_padicValNat_sub {m k : Nat} (hk : k ≤ padicValNat 2 m) (hlt : 2 ^ k < m) :
    k ≤ padicValNat 2 (m - 2 ^ k) := by
  have hpos := Nat.two_pow_pos k
  have hdvd : 2 ^ k ∣ m := (padicValNat_dvd_iff_le (by omega)).2 hk
  exact (padicValNat_dvd_iff_le (by omega)).1 (Nat.dvd_sub hdvd dvd_rfl)

/-- The jump is no longer than the distance. -/
theorem skipHop_jump_le (n s : Nat) (hn : s < n) :
    2 ^ min (padicValNat 2 (n - 1)) (Nat.log 2 (n - s)) ≤ n - s :=
  le_trans (Nat.pow_le_pow_right (by norm_num) (min_le_right _ _))
    (Nat.pow_log_le_self 2 (by omega))

/-- A jump that does not land on `s` leaves less to walk. While the jumps fit, the next block's
predecessor is divisible by a higher power of `2`, so its first jump is longer; once they no
longer fit, the distance is less than the jump just taken, and so are all jumps after. -/
theorem hopBound_skipHop {n s : Nat} (hs : 1 ≤ s) (hn : s < n) (hland : s < skipHop n s) :
    hopBound (skipHop n s) s + 1 ≤ hopBound n s := by
  obtain ⟨v, hv⟩ : ∃ v, padicValNat 2 (n - 1) = v := ⟨_, rfl⟩
  obtain ⟨L, hL⟩ : ∃ L, Nat.log 2 (n - s) = L := ⟨_, rfl⟩
  have hjump := skipHop_jump_le n s hn
  rw [hv, hL] at hjump
  have hpos := Nat.two_pow_pos (min v L)
  have hLd : 2 ^ L ≤ n - s := hL ▸ Nat.pow_log_le_self 2 (by omega)
  have hdL : n - s < 2 ^ (L + 1) := hL ▸ Nat.lt_pow_succ_log_self (by norm_num) _
  have hhop : skipHop n s = n - 2 ^ min v L := by rw [skipHop, hv, hL]
  have hlog' : Nat.log 2 (skipHop n s - s) ≤ L := hL ▸ Nat.log_mono_right (by omega)
  unfold hopBound
  rw [hv, hL]
  by_cases hasc : 2 ^ v ≤ n - s
  · -- still climbing: the jump is `2^v`
    have hvL : v ≤ L := by
      rw [← hL]
      exact (Nat.le_log_iff_pow_le (by norm_num) (by omega)).2 hasc
    have hhopv : skipHop n s = n - 2 ^ v := by rw [hhop, Nat.min_eq_left hvL]
    have hv' : v + 1 ≤ padicValNat 2 (skipHop n s - 1) := by
      have hsub : skipHop n s - 1 = (n - 1) - 2 ^ padicValNat 2 (n - 1) := by
        rw [hhopv, hv]
        omega
      rw [hsub, ← hv]
      exact succ_le_padicValNat_sub (by rw [hv]; omega)
    have hfit : 2 ^ padicValNat 2 (skipHop n s - 1) ≤ skipHop n s - s →
        padicValNat 2 (skipHop n s - 1) ≤ Nat.log 2 (skipHop n s - s) := fun h =>
      (Nat.le_log_iff_pow_le (by norm_num) (by omega)).2 h
    rw [if_pos hasc]
    split <;> omega
  · -- coming down: the jump is `2^L`, and what is left is shorter than it
    have hLv : L < v := by
      by_contra hge
      exact hasc (le_trans (Nat.pow_le_pow_right (by norm_num) (by omega)) hLd)
    have hv' : L ≤ padicValNat 2 (skipHop n s - 1) := by
      have hsub : skipHop n s - 1 = (n - 1) - 2 ^ L := by
        rw [hhop, Nat.min_eq_right hLv.le]
        omega
      rw [hsub]
      exact le_padicValNat_sub (hv ▸ hLv.le) (by omega)
    have hsmall : skipHop n s - s < 2 ^ L := by
      rw [pow_succ] at hdL
      rw [hhop, Nat.min_eq_right hLv.le]
      omega
    have hlog'' : Nat.log 2 (skipHop n s - s) < L := Nat.log_lt_of_lt_pow (by omega) hsmall
    have hnofit : ¬2 ^ padicValNat 2 (skipHop n s - 1) ≤ skipHop n s - s := fun h =>
      absurd (le_trans (Nat.pow_le_pow_right (by norm_num) hv') h) (by omega)
    rw [if_neg hasc, if_neg hnofit]
    omega

/-- **A jump of the walk.** From `n` above `s ≥ 1`, the jump lands on a link of `n`, not below
`s`, and either on `s` or with less left to walk. -/
theorem skipHop_spec {n s : Nat} (hs : 1 ≤ s) (hn : s < n) :
    skipHop n s ∈ skipLinks n ∧ s ≤ skipHop n s ∧ skipHop n s < n ∧
      (skipHop n s = s ∨ hopBound (skipHop n s) s + 1 ≤ hopBound n s) := by
  have hfind := find?_reverse_skipLinks hs hn
  have hjump := skipHop_jump_le n s hn
  have hpos := Nat.two_pow_pos (min (padicValNat 2 (n - 1)) (Nat.log 2 (n - s)))
  have hhop : skipHop n s = n - 2 ^ min (padicValNat 2 (n - 1)) (Nat.log 2 (n - s)) := rfl
  refine ⟨List.mem_reverse.1 (List.mem_of_find?_eq_some hfind), by omega, by omega, ?_⟩
  by_cases hland : skipHop n s = s
  · exact .inl hland
  · exact .inr (hopBound_skipHop hs hn (by omega))

/-- The farthest link of block `n` not below `s`, found as the ledger query scans the links
(farthest first), is the jump `skipHop`. -/
theorem find?_reverse_CalculateSkipListLinks {n s : UInt64} (hs : 1 ≤ s.toNat) (hn : s < n) :
    ∃ link, (CalculateSkipListLinks n).reverse.find? (fun l => decide (s ≤ l)) = some link ∧
      link.toNat = skipHop n.toNat s.toNat := by
  have hnat := find?_reverse_skipLinks hs (UInt64.lt_iff_toNat_lt.1 hn)
  rw [← map_toNat_CalculateSkipListLinks, ← List.map_reverse, List.find?_map] at hnat
  obtain ⟨link, hfind, hlink⟩ := Option.map_eq_some_iff.1 hnat
  refine ⟨link, ?_, hlink⟩
  rw [← hfind]
  -- the scan compares block numbers, which compare as their values do
  rfl

/-- With every hash available, `AddSkipListLinks` gives the hash of each link. -/
theorem AddSkipListLinks_of_ok (hash : UInt64 → Bytes) (blockNum : UInt64) :
    AddSkipListLinks (fun l => .ok (hash l)) blockNum =
      .ok ((CalculateSkipListLinks blockNum).map hash) := by
  unfold AddSkipListLinks
  induction CalculateSkipListLinks blockNum with
  | nil => rfl
  | cons l links ih => simp [List.mapM_cons, ih]

end Orion.BlockStore
