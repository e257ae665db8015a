import Orion.Lib.GoIO
import Orion.State.Proof

/-!
# Block numbers in keys (`internal/blockstore/encoding.go`)

The block store's leveldb keys for a block are a one-byte namespace and then the block number as
`encodeOrderPreservingVarUint64` writes it: the number of its big-endian bytes left after the
leading zero bytes are dropped, as a varint (one byte, since it is at most `8`), and then those
bytes. `decodeOrderPreservingVarUint64` reads a number back from the front of some bytes and says
how many it read.

## What is proved

`encodeOrderPreservingVarUint64_eq` is what the encoder computes; it never panics. A number is read
back, with the length of its encoding, whatever bytes follow it, and numbers order as their
encodings do, a proper prefix first (`encodeOrderPreservingVarUint64_round_trip_and_order`): the
length byte orders numbers of different lengths, and the bytes after it those of one length. The
keys of one namespace therefore sort by block number (`blockNumKey_lt_iff`).
-/

namespace Orion.BlockStore

open Orion.State GoIO ByteOrder

/-- The loop of `encodeOrderPreservingVarUint64` over the eight bytes: the index of the first
non-zero byte and the number of bytes from it on, or `(0, 0)` when all are zero. -/
def startingIndexAndSize (bytes : Bytes) : Nat × Nat :=
  match bytes.findIdx? (· != 0) with
  | some i => (i, 8 - i)
  | none => (0, 0)

/-- `encodeOrderPreservingVarUint64`: the length byte, then the bytes of `number` from its first
non-zero byte on (`copy` fills the `size` bytes after the first). -/
def encodeOrderPreservingVarUint64 (number : UInt64) : Except String Bytes :=
  let bytes := PutUint64 number
  let startingIndex := (startingIndexAndSize bytes).1
  let size := (startingIndexAndSize bytes).2
  let sizeBytes := EncodeVarint size.toUInt64
  if sizeBytes.length > 1 then
    .error ("[]sizeBytes should not be more than one byte because the max number it needs to hold is 8. size=" ++
      toString size)
  else
    match sizeBytes with
    | [] => .error (indexOutOfRange 0 0)
    | b :: _ => .ok (b :: (bytes.drop startingIndex).take size)

/-- `decodeOrderPreservingVarUint64`: the number at the front of `bytes` and the number of bytes it
takes. -/
def decodeOrderPreservingVarUint64 (bytes : Bytes) : Except String (UInt64 × Nat) :=
  let (s, numBytes) := DecodeVarint bytes
  if numBytes ≠ 1 then
    .error ("number of consumed bytes from DecodeVarint is invalid, expected 1, but got " ++
      toString numBytes)
  else if s > 8 then
    .error ("decoded size from DecodeVarint is invalid, expected <=8, but got " ++ toString s)
  else if (s : Int) > (bytes.length : Int) - 1 then
    .error ("decoded size (" ++ toString s ++ ") from DecodeVarint is more than available bytes (" ++
      toString ((bytes.length : Int) - 1) ++ ")")
  else do
    let size := s
    -- `copy(decodedBytes[8-size:], bytes[1:size+1])` into eight zero bytes
    let decodedBytes := List.replicate (8 - size) 0 ++ (bytes.drop 1).take size
    let v ← Uint64 decodedBytes
    pure (v, size + 1)

/-- The big-endian bytes of a number from its first non-zero byte on. -/
def significantBytes (number : UInt64) : Bytes := (PutUint64 number).dropWhile (· = 0)

example : significantBytes 0x0102 = [1, 2] := by decide

theorem length_significantBytes_le (number : UInt64) : (significantBytes number).length ≤ 8 := by
  rw [← length_PutUint64 number]
  exact List.length_dropWhile_le _ _

/-- The encoder's loop finds where the significant bytes start, and how many there are. -/
theorem startingIndexAndSize_spec (number : UInt64) :
    ((PutUint64 number).drop (startingIndexAndSize (PutUint64 number)).1).take
        (startingIndexAndSize (PutUint64 number)).2 = significantBytes number ∧
      (startingIndexAndSize (PutUint64 number)).2 = (significantBytes number).length := by
  have hdrop := dropWhile_eq_drop_findIdx (p := fun b : UInt8 => decide (b = 0))
    (q := (· != 0)) (fun x => by simp [bne, beq_eq_decide]) (PutUint64 number)
  unfold startingIndexAndSize
  split
  · rename_i i hi
    obtain ⟨-, hidx⟩ := List.findIdx?_eq_some_iff_findIdx_eq.1 hi
    rw [hidx] at hdrop
    have hlen : (significantBytes number).length = 8 - i := by
      rw [significantBytes, hdrop, List.length_drop, length_PutUint64]
    refine ⟨?_, hlen.symm⟩
    rw [← hlen, significantBytes, ← hdrop, List.take_length]
  · rename_i hnone
    have hzero : significantBytes number = [] := by
      rw [significantBytes, List.dropWhile_eq_nil_iff]
      intro x hx
      simpa using List.findIdx?_eq_none_iff.1 hnone x hx
    rw [hzero]
    exact ⟨rfl, rfl⟩

/-- **What the encoder computes**: the number of significant bytes, then those bytes. -/
theorem encodeOrderPreservingVarUint64_eq (number : UInt64) :
    encodeOrderPreservingVarUint64 number =
      .ok ((significantBytes number).length.toUInt8 :: significantBytes number) := by
  have hle := length_significantBytes_le number
  obtain ⟨hbytes, hsize⟩ := startingIndexAndSize_spec number
  have hvarint : EncodeVarint (significantBytes number).length.toUInt64 =
      [(significantBytes number).length.toUInt8] := by
    have hsmall : (significantBytes number).length % 18446744073709551616 =
        (significantBytes number).length :=
      Nat.mod_eq_of_lt (by omega)
    rw [EncodeVarint, putUvarint_eq, if_pos (by simp; omega)]
    simp [hsmall]
  unfold encodeOrderPreservingVarUint64
  dsimp only
  rw [hsize, hvarint, if_neg (by simp)]
  dsimp only
  rw [← hsize, hbytes]

/-- The length byte is read back by `DecodeVarint` as itself, in one byte. -/
theorem DecodeVarint_length_cons {k : Nat} (hk : k ≤ 8) (rest : Bytes) :
    DecodeVarint (k.toUInt8 :: rest) = (k, 1) := by
  have hval : k.toUInt8.toNat = k := by
    simp only [Nat.toUInt8_eq, UInt8.toNat_ofNat']
    omega
  have hlt : k.toUInt8 < 0x80 := UInt8.lt_iff_toNat_lt.2 (by rw [hval]; simp; omega)
  rw [DecodeVarint, decodeFrom, if_neg (by omega), if_pos hlt, hval]

/-- The significant bytes after the leading zeros give back the eight bytes. -/
theorem replicate_append_significantBytes (number : UInt64) :
    List.replicate (8 - (significantBytes number).length) 0 ++ significantBytes number =
      PutUint64 number := by
  have h := replicate_append_dropWhile (0 : UInt8) (PutUint64 number)
  rw [length_PutUint64] at h
  exact h

/-- The encoding is read back, with its length, whatever follows it. -/
theorem decodeOrderPreservingVarUint64_encoded (number : UInt64) (rest : Bytes) :
    decodeOrderPreservingVarUint64
        ((significantBytes number).length.toUInt8 :: significantBytes number ++ rest) =
      .ok (number, (significantBytes number).length + 1) := by
  have hle := length_significantBytes_le number
  have hdecoded : List.replicate (8 - (significantBytes number).length) 0 ++
      ((significantBytes number ++ rest).take (significantBytes number).length) =
        PutUint64 number := by
    rw [List.take_left' rfl, replicate_append_significantBytes]
  unfold decodeOrderPreservingVarUint64
  rw [List.cons_append, DecodeVarint_length_cons hle]
  dsimp only
  rw [if_neg (by decide), if_neg (by omega), if_neg (by simp), List.drop_one,
    List.tail_cons, hdecoded, Uint64_PutUint64]
  rfl


/-- The significant bytes, as numbers, are the base-256 digits after the leading zeros. -/
theorem map_toNat_significantBytes (number : UInt64) :
    (significantBytes number).map UInt8.toNat =
      (beDigits 256 8 number.toNat).dropWhile (· = 0) := by
  rw [← map_toNat_PutUint64, List.dropWhile_map, significantBytes]
  congr 2
  funext x
  simp [Function.comp_apply, ← UInt8.toNat_inj]

/-- Numbers order as their significant digits: by their number, then the digits themselves. -/
theorem lt_iff_significant (a b : UInt64) :
    a < b ↔ (significantBytes a).length < (significantBytes b).length ∨
      (significantBytes a).length = (significantBytes b).length ∧
        (significantBytes a).map UInt8.toNat < (significantBytes b).map UInt8.toNat := by
  have hbound : ∀ n : UInt64, n.toNat < 256 ^ 8 := fun n => lt_of_lt_of_eq n.toNat_lt (by norm_num)
  rw [UInt64.lt_iff_toNat_lt, lt_iff_dropWhile_zero (by norm_num) (hbound a) (hbound b),
    ← map_toNat_significantBytes, ← map_toNat_significantBytes, List.length_map, List.length_map]

/-- Numbers order as their encodings. -/
theorem lt_iff_encoded_lt (a b : UInt64) :
    a < b ↔ (significantBytes a).length.toUInt8 :: significantBytes a <
      (significantBytes b).length.toUInt8 :: significantBytes b := by
  have hla := length_significantBytes_le a
  have hlb := length_significantBytes_le b
  have hk : ∀ n : UInt64, (significantBytes n).length.toUInt8.toNat = (significantBytes n).length := by
    intro n
    have := length_significantBytes_le n
    simp only [Nat.toUInt8_eq, UInt8.toNat_ofNat']
    omega
  rw [← map_toNat_lt_map_toNat_iff, List.map_cons, List.map_cons, List.cons_lt_cons_iff, hk a, hk b,
    lt_iff_significant]

theorem encodeOrderPreservingVarUint64_round_trip_and_order :
    (∀ a : UInt64, ∃ ea, encodeOrderPreservingVarUint64 a = .ok ea ∧
      ∀ s : Bytes, decodeOrderPreservingVarUint64 (ea ++ s) = .ok (a, ea.length)) ∧
    ∀ a b : UInt64, ∃ ea eb, encodeOrderPreservingVarUint64 a = .ok ea ∧
      encodeOrderPreservingVarUint64 b = .ok eb ∧ (a < b ↔ ea < eb) := by
  constructor
  · intro a
    refine ⟨_, encodeOrderPreservingVarUint64_eq a, fun s => ?_⟩
    rw [decodeOrderPreservingVarUint64_encoded, List.length_cons]
  · intro a b
    exact ⟨_, _, encodeOrderPreservingVarUint64_eq a, encodeOrderPreservingVarUint64_eq b,
      lt_iff_encoded_lt a b⟩

/-! ### Keys -/

/-- `headerBytesNs`. -/
def headerBytesNs : Bytes := [0]

/-- `headerHashNs`. -/
def headerHashNs : Bytes := [1]

/-- `headerBaseHashNs`. -/
def headerBaseHashNs : Bytes := [3]

/-- `blockTxsIDNs`. -/
def blockTxsIDNs : Bytes := [4]

/-- The key of block `blockNum` in namespace `ns`: `append(ns, encodeOrderPreservingVarUint64(blockNum)...)`. -/
def blockNumKey (ns : Bytes) (blockNum : UInt64) : Except String Bytes :=
  (encodeOrderPreservingVarUint64 blockNum).map (ns ++ ·)

/-- `constructHeaderBaseHashKey`. -/
def constructHeaderBaseHashKey (blockNum : UInt64) : Except String Bytes :=
  blockNumKey headerBaseHashNs blockNum

/-- `constructHeaderBytesKey`. -/
def constructHeaderBytesKey (blockNum : UInt64) : Except String Bytes :=
  blockNumKey headerBytesNs blockNum

/-- `constructHeaderHashKey`. -/
def constructHeaderHashKey (blockNum : UInt64) : Except String Bytes :=
  blockNumKey headerHashNs blockNum

/-- `constructBlockTxsIDKey`. -/
def constructBlockTxsIDKey (blockNum : UInt64) : Except String Bytes :=
  blockNumKey blockTxsIDNs blockNum

/-- The keys of one namespace sort by block number. -/
theorem blockNumKey_lt_iff (ns : Bytes) (a b : UInt64) :
    ∃ ka kb, blockNumKey ns a = .ok ka ∧ blockNumKey ns b = .ok kb ∧ (a < b ↔ ka < kb) := by
  refine ⟨ns ++ ((significantBytes a).length.toUInt8 :: significantBytes a),
    ns ++ ((significantBytes b).length.toUInt8 :: significantBytes b), ?_, ?_, ?_⟩
  · rw [blockNumKey, encodeOrderPreservingVarUint64_eq]
    rfl
  · rw [blockNumKey, encodeOrderPreservingVarUint64_eq]
    rfl
  · rw [ByteOrder.append_lt_append_left_iff]
    exact lt_iff_encoded_lt a b

end Orion.BlockStore
