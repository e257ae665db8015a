import Orion.BlockProcessor.ConfigTx
import Orion.Types.UserAdmin

/-!
# The world state entries of identities (`internal/identity/db_entries.go`)

A user administration transaction is stored as it is: a write of each user under its ID, with the
access control of the write and the transaction's version, and a delete of each user it deletes
(`ConstructDBEntriesForUserAdminTx`).

The admins and the nodes of a new configuration are stored as the difference from the committed
one (`constructIdentityEntries`, with `ConstructDBEntriesForClusterAdmins` and
`ConstructDBEntriesForNodes` its two uses). Go computes it with a map of the new identities by ID,
from which the loop over the old ones removes those unchanged. `identityDiff` says what that
computes, as a difference of lists: a write of each new identity that was not there, a delete of
each old ID that is gone.

## What is proved

* `constructIdentityEntries_eq` — when the IDs of each list are pairwise distinct, which the
  configuration validator checks, Go's loop computes `identityDiff`.
* `applyIdentityDiff_new`, `applyIdentityDiff_kept`, `applyIdentityDiff_removed`,
  `applyIdentityDiff_other` — what the difference does to the database it is committed to: a new
  or changed identity holds its value, an unchanged one keeps its entry, a removed one has none,
  and every other key is untouched.
-/

namespace Orion.Identity

open Orion.State Orion.Types Orion.WorldState Orion.BlockProcessor Orion.Lib

/-- `ConstructDBEntriesForUserAdminTx`: each user written under its ID, with the access control of
the write; each user deleted by its ID. A write without a user is a `nil` pointer, dereferenced. -/
def ConstructDBEntriesForUserAdminTx (userCodec : ProtoCodec User) (tx : UserAdministrationTx)
    (version : Version) : Except String DBUpdates := do
  let userWrites ← tx.userWrites.mapM fun w =>
    w.user.elim (.error runtimeNilDereference) fun user =>
      .ok ⟨UserNamespace ++ user.id, userCodec.Marshal user, some ⟨some version, w.acl⟩⟩
  pure ⟨userWrites, tx.userDeletes.map fun d => UserNamespace ++ d.userId⟩

/-- The entries of a user administration transaction: a write of each user written, under its
ID and with the access control of its write, and a delete of each user deleted. -/
theorem ConstructDBEntriesForUserAdminTx_ok {userCodec : ProtoCodec User} {tx : UserAdministrationTx}
    {version : Version} {updates : DBUpdates}
    (h : ConstructDBEntriesForUserAdminTx userCodec tx version = .ok updates) :
    (∀ kv ∈ updates.writes, ∃ w ∈ tx.userWrites, ∃ user, w.user = some user ∧
        kv = ⟨UserNamespace ++ user.id, userCodec.Marshal user, some ⟨some version, w.acl⟩⟩) ∧
      (∀ w ∈ tx.userWrites, ∃ user, w.user = some user ∧
        (⟨UserNamespace ++ user.id, userCodec.Marshal user, some ⟨some version, w.acl⟩⟩ :
          KVWithMetadata) ∈ updates.writes) ∧
      updates.deletes = tx.userDeletes.map fun d => UserNamespace ++ d.userId := by
  unfold ConstructDBEntriesForUserAdminTx at h
  obtain ⟨userWrites, hwrites, hpure⟩ := Except.bind_eq_ok.1 h
  simp only [pure, Except.pure, Except.ok.injEq] at hpure
  subst hpure
  -- the entry of one write is that of its user
  have hentry : ∀ (w : UserWrite) (kv : KVWithMetadata), (w.user.elim (.error runtimeNilDereference) fun user =>
      (.ok ⟨UserNamespace ++ user.id, userCodec.Marshal user, some ⟨some version, w.acl⟩⟩ :
        Except String KVWithMetadata)) = .ok kv →
      ∃ user, w.user = some user ∧
        kv = ⟨UserNamespace ++ user.id, userCodec.Marshal user, some ⟨some version, w.acl⟩⟩ := by
    intro w kv hw
    cases huser : w.user with
    | none => simp [huser] at hw
    | some user =>
      simp only [huser, Option.elim_some, Except.ok.injEq] at hw
      exact ⟨user, rfl, hw.symm⟩
  refine ⟨fun kv hkv => ?_, fun w hw => ?_, rfl⟩
  · obtain ⟨w, hw, hfw⟩ := Except.mem_of_mapM_eq_ok hwrites hkv
    exact ⟨w, hw, hentry w kv hfw⟩
  · obtain ⟨kv, hfw, hkv⟩ := Except.exists_mem_of_mapM_eq_ok hwrites hw
    obtain ⟨user, huser, rfl⟩ := hentry w kv hfw
    exact ⟨user, huser, hkv⟩

section Diff

variable {α : Type} [DecidableEq α] (id : α → String) (ns : String) (value : α → Bytes)

/-- The entries of identities as a difference of lists: a write of each new identity that is not
among the old ones, a delete of each old ID that no new identity has, `nil` when there are none. -/
def identityDiff (olds news : List α) (version : Version) : Option DBUpdates :=
  let writes := (news.filter (· ∉ olds)).map fun a =>
    (⟨ns ++ id a, value a, some ⟨some version, none⟩⟩ : KVWithMetadata)
  let deletes := (olds.filter fun o => id o ∉ news.map id).map fun o => ns ++ id o
  if writes = [] ∧ deletes = [] then none else some ⟨writes, deletes⟩

/-- A database after the entries of identities: their batch, if there is one. -/
def applyIdentityEntries (store : KVStore) (entries : Option DBUpdates) : KVStore :=
  entries.elim store (applyBatch store)

end Diff

/-! ### Go's loop computes the difference -/

section Loop

variable {α : Type} [DecidableEq α] {id : α → String} {ns : String}

theorem identityEntriesStep_fst (acc : (String → Option α) × List String) (old : α) :
    (identityEntriesStep id ns acc old).1 =
      if acc.1 (id old) = some old then Function.update acc.1 (id old) none else acc.1 := by
  unfold identityEntriesStep
  split
  · rename_i new hnew
    by_cases hold : old = new
    · subst hold
      simp [hnew]
    · simp [hold, hnew, Ne.symm hold]
  · rename_i hnone
    simp [hnone]

theorem identityEntriesStep_snd (acc : (String → Option α) × List String) (old : α) :
    (identityEntriesStep id ns acc old).2 =
      acc.2 ++ if acc.1 (id old) = none then [ns ++ id old] else [] := by
  unfold identityEntriesStep
  split
  · rename_i new hnew
    simp [hnew]
  · rename_i hnone
    simp [hnone]

/-- The loop leaves the map alone at IDs no old identity has. -/
theorem foldl_identityEntriesStep_fst_of_not_mem :
    ∀ {olds : List α} {acc : (String → Option α) × List String} {i : String},
      i ∉ olds.map id → (olds.foldl (identityEntriesStep id ns) acc).1 i = acc.1 i
  | [], _, _, _ => rfl
  | o :: olds, acc, i, hi => by
    rw [List.map_cons, List.mem_cons, not_or] at hi
    rw [List.foldl_cons, foldl_identityEntriesStep_fst_of_not_mem hi.2, identityEntriesStep_fst]
    split_ifs
    · exact Function.update_of_ne hi.1 _ _
    · rfl

/-- At the ID of an old identity, the loop removes the new identity if it is the same. -/
theorem foldl_identityEntriesStep_fst_of_mem :
    ∀ {olds : List α} {acc : (String → Option α) × List String} {o : α}, (olds.map id).Nodup →
      o ∈ olds → (olds.foldl (identityEntriesStep id ns) acc).1 (id o) =
        if acc.1 (id o) = some o then none else acc.1 (id o)
  | [], _, _, _, ho => absurd ho List.not_mem_nil
  | o' :: olds, acc, o, hnodup, ho => by
    rw [List.map_cons, List.nodup_cons] at hnodup
    rw [List.foldl_cons]
    rcases List.mem_cons.1 ho with rfl | ho
    · rw [foldl_identityEntriesStep_fst_of_not_mem hnodup.1, identityEntriesStep_fst]
      split_ifs <;> simp
    · -- a later identity: the first step changed the map only at another ID
      have hne : id o ≠ id o' := fun h => hnodup.1 (h ▸ List.mem_map_of_mem ho)
      have hfirst : (identityEntriesStep id ns acc o').1 (id o) = acc.1 (id o) := by
        rw [identityEntriesStep_fst]
        split_ifs
        · exact Function.update_of_ne hne _ _
        · rfl
      rw [foldl_identityEntriesStep_fst_of_mem hnodup.2 ho, hfirst]

/-- The loop deletes each old ID the map has no identity at. -/
theorem foldl_identityEntriesStep_snd :
    ∀ {olds : List α} {acc : (String → Option α) × List String}, (olds.map id).Nodup →
      (olds.foldl (identityEntriesStep id ns) acc).2 =
        acc.2 ++ (olds.filter fun o => acc.1 (id o) = none).map fun o => ns ++ id o
  | [], _, _ => by simp
  | o :: olds, acc, hnodup => by
    rw [List.map_cons, List.nodup_cons] at hnodup
    rw [List.foldl_cons, foldl_identityEntriesStep_snd hnodup.2, identityEntriesStep_snd]
    -- the later identities see the map of the first step, which differs only at `id o`
    have hsame : ∀ o' ∈ olds, (identityEntriesStep id ns acc o).1 (id o') = acc.1 (id o') := by
      intro o' ho'
      have hne : id o' ≠ id o := fun h => hnodup.1 (h ▸ List.mem_map_of_mem ho')
      rw [identityEntriesStep_fst]
      split_ifs
      · exact Function.update_of_ne hne _ _
      · rfl
    rw [List.filter_congr fun o' ho' => by rw [hsame o' ho']]
    by_cases hnone : acc.1 (id o) = none <;> simp [hnone]

/-- **Go's loop computes the difference.** With the IDs of each list pairwise distinct,
`constructIdentityEntries` is `identityDiff`. -/
theorem constructIdentityEntries_eq {value : α → Bytes} {olds news : List α} {version : Version}
    (hold : (olds.map id).Nodup) (hnew : (news.map id).Nodup) :
    constructIdentityEntries id ns value olds news version = identityDiff id ns value olds news version := by
  -- the map of the new identities by ID
  set newIds : String → Option α := applyUpdates (fun _ => none) (news.map fun a => (id a, some a))
    with hnewIds
  have hkeys : ((news.map fun a => (id a, some a)).map Prod.fst).Nodup := by
    rwa [List.map_map]
  have hat : ∀ a ∈ news, newIds (id a) = some a := fun a ha =>
    applyUpdates_of_mem hkeys (List.mem_map_of_mem ha) _
  have hoff : ∀ i, i ∉ news.map id → newIds i = none := fun i hi =>
    applyUpdates_of_not_mem (by rwa [List.map_map]) _
  -- at a new identity's ID the loop leaves the identity, unless it was already there
  have hfinal : ∀ a ∈ news, (olds.foldl (identityEntriesStep id ns) (newIds, [])).1 (id a) =
      if a ∈ olds then none else some a := by
    intro a ha
    by_cases hid : id a ∈ olds.map id
    · obtain ⟨o, ho, hoa⟩ := List.mem_map.1 hid
      have hsame : a ∈ olds ↔ o = a := by
        constructor
        · intro hmem
          exact List.inj_on_of_nodup_map hold ho hmem hoa
        · rintro rfl
          exact ho
      rw [← hoa, foldl_identityEntriesStep_fst_of_mem hold ho, hoa]
      simp only [hat a ha]
      by_cases hoa' : o = a
      · simp [hoa', hsame.2 hoa']
      · simp [Ne.symm hoa', hsame, hoa']
    · have hnot : a ∉ olds := fun hmem => hid (List.mem_map_of_mem hmem)
      rw [foldl_identityEntriesStep_fst_of_not_mem hid]
      dsimp only
      rw [hat a ha, if_neg hnot]
  have hdeletes : (olds.filter fun o => newIds (id o) = none) = olds.filter fun o => id o ∉ news.map id := by
    refine List.filter_congr fun o _ => ?_
    by_cases hid : id o ∈ news.map id
    · obtain ⟨a, ha, hida⟩ := List.mem_map.1 hid
      have hsome : newIds (id o) ≠ none := by
        rw [← hida, hat a ha]
        exact Option.some_ne_none a
      simp [hid, hsome]
    · simp [hid, hoff _ hid]
  have hwrites : (news.map id).dedup.filterMap (olds.foldl (identityEntriesStep id ns) (newIds, [])).1 =
      news.filter (· ∉ olds) := by
    rw [hnew.dedup, List.filterMap_map, ← List.filterMap_eq_filter]
    refine List.filterMap_congr fun a ha => ?_
    rw [Function.comp_apply, hfinal a ha]
    by_cases hmem : a ∈ olds <;> simp [hmem, Option.guard]
  have hsnd : (olds.foldl (identityEntriesStep id ns) (newIds, [])).2 =
      [] ++ (olds.filter fun o => newIds (id o) = none).map fun o => ns ++ id o :=
    foldl_identityEntriesStep_snd hold
  unfold constructIdentityEntries identityDiff
  dsimp only
  rw [hwrites, hsnd, List.nil_append, hdeletes]

end Loop

/-! ### What the difference does to a database -/

section Effect

variable {α : Type} [DecidableEq α] {id : α → String} {ns : String} {value : α → Bytes}
  {olds news : List α} {version : Version}

/-- The difference is always its batch: without writes or deletes the batch changes nothing. -/
theorem applyIdentityEntries_identityDiff (store : KVStore) :
    applyIdentityEntries store (identityDiff id ns value olds news version) =
      applyBatch store ⟨(news.filter (· ∉ olds)).map fun a => ⟨ns ++ id a, value a, some ⟨some version, none⟩⟩,
        (olds.filter fun o => id o ∉ news.map id).map fun o => ns ++ id o⟩ := by
  unfold identityDiff applyIdentityEntries
  dsimp only
  split_ifs with hempty
  · rw [hempty.1, hempty.2]
    rfl
  · rfl

variable (hnew : (news.map id).Nodup)
include hnew

omit [DecidableEq α] in
/-- A key of the namespace names at most one new identity. -/
theorem eq_of_mem_news {a b : α} (ha : a ∈ news) (hb : b ∈ news) (h : ns ++ id a = ns ++ id b) :
    a = b :=
  List.inj_on_of_nodup_map hnew ha hb ((String.append_right_inj ns).1 h)

/-- A new identity that was not there holds its value. -/
theorem applyIdentityDiff_new {a : α} (ha : a ∈ news) (hold : a ∉ olds) (store : KVStore) :
    applyIdentityEntries store (identityDiff id ns value olds news version) (ns ++ id a) =
      some ⟨value a, some ⟨some version, none⟩⟩ := by
  rw [applyIdentityEntries_identityDiff]
  have hids : ((news.filter (· ∉ olds)).map id).Nodup := hnew.sublist (List.filter_sublist.map id)
  have hnodup : (((news.filter (· ∉ olds)).map fun a =>
      (⟨ns ++ id a, value a, some ⟨some version, none⟩⟩ : KVWithMetadata)).map (·.key)).Nodup := by
    have hkeys := hids.map fun x y h => (String.append_right_inj ns).1 h
    simpa [List.map_map, Function.comp_def] using hkeys
  have hdel : ns ++ id a ∉ (olds.filter fun o => id o ∉ news.map id).map fun o => ns ++ id o := by
    intro hmem
    obtain ⟨o, ho, hkey⟩ := List.mem_map.1 hmem
    have hgone := (List.mem_filter.1 ho).2
    rw [(String.append_right_inj ns).1 hkey] at hgone
    exact absurd (List.mem_map_of_mem ha) (by simpa using hgone)
  have hmem : (⟨ns ++ id a, value a, some ⟨some version, none⟩⟩ : KVWithMetadata) ∈
      (news.filter (· ∉ olds)).map fun a => ⟨ns ++ id a, value a, some ⟨some version, none⟩⟩ :=
    List.mem_map_of_mem (List.mem_filter.2 ⟨ha, by simpa using hold⟩)
  exact @applyBatch_of_mem_writes store _ ⟨ns ++ id a, value a, some ⟨some version, none⟩⟩ hnodup hmem hdel

/-- A new identity that was already there keeps its entry. -/
theorem applyIdentityDiff_kept {a : α} (ha : a ∈ news) (hold : a ∈ olds) (store : KVStore) :
    applyIdentityEntries store (identityDiff id ns value olds news version) (ns ++ id a) =
      store (ns ++ id a) := by
  rw [applyIdentityEntries_identityDiff]
  refine applyBatch_of_not_mem (fun hmem => ?_) (fun hmem => ?_)
  · -- the only new identity at that key is the one already there
    obtain ⟨kv, hkv, hkey⟩ := List.mem_map.1 hmem
    obtain ⟨b, hb, rfl⟩ := List.mem_map.1 hkv
    obtain ⟨hb, hbold⟩ := List.mem_filter.1 hb
    rw [eq_of_mem_news hnew hb ha hkey] at hbold
    simp [hold] at hbold
  · obtain ⟨o, ho, hkey⟩ := List.mem_map.1 hmem
    have hgone := (List.mem_filter.1 ho).2
    rw [(String.append_right_inj ns).1 hkey] at hgone
    exact absurd (List.mem_map_of_mem ha) (by simpa using hgone)

/-- Where each old identity holds its value, after the difference each new one does. -/
theorem applyIdentityDiff_mirror (store : KVStore)
    (hstore : ∀ o ∈ olds, (store (ns ++ id o)).map (·.value) = some (value o)) :
    ∀ a ∈ news, (applyIdentityEntries store (identityDiff id ns value olds news version)
      (ns ++ id a)).map (·.value) = some (value a) := by
  intro a ha
  by_cases hold : a ∈ olds
  · rw [applyIdentityDiff_kept hnew ha hold]
    exact hstore a hold
  · rw [applyIdentityDiff_new hnew ha hold]
    rfl

omit hnew in
/-- An old identity whose ID is gone has no entry. -/
theorem applyIdentityDiff_removed {o : α} (ho : o ∈ olds) (hgone : id o ∉ news.map id) (store : KVStore) :
    applyIdentityEntries store (identityDiff id ns value olds news version) (ns ++ id o) = none := by
  rw [applyIdentityEntries_identityDiff]
  exact applyBatch_of_mem_deletes (List.mem_map_of_mem (List.mem_filter.2 ⟨ho, by simpa using hgone⟩))

omit hnew in
/-- A key of no old or new identity is untouched. -/
theorem applyIdentityDiff_other {k : String} (hk : ∀ x ∈ olds ++ news, k ≠ ns ++ id x) (store : KVStore) :
    applyIdentityEntries store (identityDiff id ns value olds news version) k = store k := by
  rw [applyIdentityEntries_identityDiff]
  refine applyBatch_of_not_mem (fun hmem => ?_) (fun hmem => ?_)
  · obtain ⟨kv, hkv, rfl⟩ := List.mem_map.1 hmem
    obtain ⟨b, hb, rfl⟩ := List.mem_map.1 hkv
    exact hk b (List.mem_append_right _ (List.mem_filter.1 hb).1) rfl
  · obtain ⟨o, ho, rfl⟩ := List.mem_map.1 hmem
    exact hk o (List.mem_append_left _ (List.mem_filter.1 ho).1) rfl

omit hnew in
/-- After the difference, a key is a new identity's, has no entry, or keeps its entry and is no
old identity's. -/
theorem applyIdentityDiff_cases (store : KVStore) (k : String) :
    (∃ a ∈ news, k = ns ++ id a) ∨
      applyIdentityEntries store (identityDiff id ns value olds news version) k = none ∨
      (applyIdentityEntries store (identityDiff id ns value olds news version) k = store k ∧
        ∀ o ∈ olds, k ≠ ns ++ id o) := by
  by_cases hnewk : ∃ a ∈ news, k = ns ++ id a
  · exact .inl hnewk
  push Not at hnewk
  by_cases holdk : ∃ o ∈ olds, k = ns ++ id o
  · -- the key of an old identity whose ID no new identity has
    obtain ⟨o, ho, rfl⟩ := holdk
    have hgone : id o ∉ news.map id := by
      intro hmem
      obtain ⟨a, ha, hid⟩ := List.mem_map.1 hmem
      exact hnewk a ha (by rw [hid])
    exact .inr (.inl (applyIdentityDiff_removed ho hgone store))
  · push Not at holdk
    refine .inr (.inr ⟨applyIdentityDiff_other (fun x hx => ?_) store, holdk⟩)
    rcases List.mem_append.1 hx with hx | hx
    · exact holdk x hx
    · exact hnewk x hx

omit hnew in
/-- A property of stored entries that only old identities' entries had holds after the
difference only of new identities' entries. -/
theorem applyIdentityDiff_only {P : String → ValueWithMetadata → Prop} (store : KVStore)
    (honly : ∀ k v, store k = some v → P k v → ∃ o ∈ olds, k = ns ++ id o) :
    ∀ k v, applyIdentityEntries store (identityDiff id ns value olds news version) k = some v →
      P k v → ∃ a ∈ news, k = ns ++ id a := by
  intro k v hv hP
  rcases @applyIdentityDiff_cases _ _ id ns value olds news version store k with
    hnewk | hnone | ⟨hsame, hnotold⟩
  · exact hnewk
  · rw [hnone] at hv
    cases hv
  · -- an entry the difference leaves is an old one, of no old identity
    rw [hsame] at hv
    obtain ⟨o, ho, hk⟩ := honly k v hv hP
    exact absurd hk (hnotold o ho)

end Effect

end Orion.Identity
