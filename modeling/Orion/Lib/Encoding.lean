import Mathlib.Data.Nat.Digits.Lemmas
import Mathlib.Logic.Equiv.List

/-!
# Values as bytes

A wire format that reads back what it writes is all most proofs about a serializing component
need of it. For any countable type one exists: a value is written as the little-endian base-256
digits of its code (`Encodable.encode`), and read back by decoding the number those digits
spell. The empty byte string is kept for one chosen value, the way protobuf reads no bytes as the
empty message.

The `Encodable` instances of the base types here let such a format be built for records of
strings and fixed-width integers.
-/

namespace Orion.Lib

/-- The little-endian base-256 digits of a number, as bytes. -/
def natToBytes (n : Nat) : List UInt8 := (Nat.digits 256 n).map Nat.toUInt8

/-- The number the bytes spell as little-endian base-256 digits. -/
def bytesToNat (bs : List UInt8) : Nat := Nat.ofDigits 256 (bs.map UInt8.toNat)

theorem bytesToNat_natToBytes (n : Nat) : bytesToNat (natToBytes n) = n := by
  -- every digit is below the base, so it survives the trip through `UInt8`
  have hdigit : ∀ d ∈ Nat.digits 256 n, (Nat.toUInt8 d).toNat = d := by
    intro d hd
    have hlt := Nat.digits_lt_base (by decide) hd
    simp [Nat.mod_eq_of_lt hlt]
  rw [bytesToNat, natToBytes, List.map_map]
  rw [List.map_congr_left (f := UInt8.toNat ∘ Nat.toUInt8) (g := id) hdigit, List.map_id]
  exact Nat.ofDigits_digits 256 n

theorem natToBytes_eq_nil {n : Nat} : natToBytes n = [] ↔ n = 0 := by
  rw [natToBytes, List.map_eq_nil_iff]
  exact Nat.digits_eq_nil_iff_eq_zero

instance encodableChar : Encodable Char :=
  Encodable.ofLeftInjection Char.toNat (fun n => some (Char.ofNat n)) (fun c => by simp)

instance encodableString : Encodable String :=
  Encodable.ofLeftInjection String.toList (fun l => some (String.ofList l)) (fun s => by simp)

instance encodableUInt8 : Encodable UInt8 :=
  Encodable.ofLeftInjection UInt8.toNat (fun n => some (UInt8.ofNat n)) (fun c => by simp)

instance encodableUInt32 : Encodable UInt32 :=
  Encodable.ofLeftInjection UInt32.toNat (fun n => some (UInt32.ofNat n)) (fun c => by simp)

instance encodableUInt64 : Encodable UInt64 :=
  Encodable.ofLeftInjection UInt64.toNat (fun n => some (UInt64.ofNat n)) (fun c => by simp)

section Bytes

variable {α : Type} [Encodable α] [DecidableEq α] (empty : α)

/-- A value as bytes: none for `empty`, otherwise the bytes of one more than its code. -/
def encodeBytes (a : α) : List UInt8 :=
  if a = empty then [] else natToBytes (Encodable.encode a + 1)

/-- Bytes read back as a value: no bytes are `empty`. -/
def decodeBytes (bs : List UInt8) : Option α :=
  if bs = [] then some empty else Encodable.decode (bytesToNat bs - 1)

omit [DecidableEq α] in
theorem decodeBytes_nil : decodeBytes empty [] = some empty := if_pos rfl

theorem decodeBytes_encodeBytes (a : α) : decodeBytes empty (encodeBytes empty a) = some a := by
  unfold encodeBytes
  by_cases ha : a = empty
  · rw [if_pos ha, ha, decodeBytes_nil]
  · have hne : natToBytes (Encodable.encode a + 1) ≠ [] := by
      rw [ne_eq, natToBytes_eq_nil]
      omega
    rw [if_neg ha, decodeBytes, if_neg hne, bytesToNat_natToBytes, Nat.add_sub_cancel]
    exact Encodable.encodek a

end Bytes

end Orion.Lib
