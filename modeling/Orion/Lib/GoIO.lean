import Mathlib.Data.List.Basic
import Orion.Lib.ByteOrder

/-!
# Byte-level I/O of Go's standard library

Three pieces of Go's library that a store of framed records rests on.

* `encoding/binary`'s `PutUvarint` writes a number seven bits a byte, lowest first, with the top
  bit set on every byte but the last. `protowire.ConsumeVarint` (behind `proto.DecodeVarint`) and
  `binary.ReadUvarint` read one back from the front of some bytes: at most ten bytes, of which the
  tenth may only hold the 64th bit. The two differ only in how they report failure, so both are
  `decodeFrom` read their way (`DecodeVarint`, `ReadUvarint`). A varint is read back from any
  bytes it starts (`decodeFrom_putUvarint_append`), and a proper prefix of one is reported as
  cut short (`decodeFrom_take_putUvarint`).
* `(*os.File).Write` on a file opened without `O_APPEND` writes at the file's IO offset, over what
  is there (`writeAt`); `Truncate` cuts or extends a file (`truncate`).
* `encoding/binary`'s `BigEndian` writes a 64-bit number as eight bytes, most significant
  first (`PutUint64`), and reads it back (`Uint64`): the bytes are the number's fixed-width
  base-256 digits (`map_toNat_PutUint64`).
* A `bufio.Reader` reads ahead: how far into the file its reads have gone once its user has taken
  some bytes (`bufioReadFullEnd`), which is where the file's IO offset is left.
-/

namespace GoIO

/-! ### Unsigned varints -/

theorem toNat_shiftRight_seven (x : UInt64) : (x >>> 7).toNat = x.toNat / 128 := by
  simp [UInt64.toNat_shiftRight, Nat.shiftRight_eq_div_pow]

/-- `binary.PutUvarint`. -/
def putUvarint (x : UInt64) : List UInt8 :=
  if x ≥ 0x80 then (x.toUInt8 ||| 0x80) :: putUvarint (x >>> 7) else [x.toUInt8]
termination_by x.toNat
decreasing_by
  rename_i hx
  rw [toNat_shiftRight_seven]
  have : 128 ≤ x.toNat := UInt64.le_iff_toNat_le.1 hx
  omega

theorem toNat_or_high (b : UInt8) : (b ||| 0x80).toNat = b.toNat % 128 + 128 := by
  have h := (by decide +kernel : ∀ i : Fin 256, (i.val ||| 128) = i.val % 128 + 128) ⟨b.toNat, b.toNat_lt⟩
  rw [UInt8.toNat_or]
  exact h

/-- One byte of `putUvarint`, on the value as a number. -/
theorem putUvarint_eq (x : UInt64) :
    putUvarint x = if x.toNat < 128 then [UInt8.ofNat x.toNat]
      else UInt8.ofNat (x.toNat % 128 + 128) :: putUvarint (x >>> 7) := by
  rw [putUvarint]
  by_cases hx : x.toNat < 128
  · have hlt : ¬x ≥ 0x80 := fun h => absurd (UInt64.le_iff_toNat_le.1 h) (by simpa using hx)
    rw [if_neg hlt, if_pos hx]
    rfl
  · have hge : x ≥ 0x80 := UInt64.le_iff_toNat_le.2 (by simpa using hx)
    rw [if_pos hge, if_neg hx]
    congr 1
    apply UInt8.toNat_inj.1
    rw [toNat_or_high, UInt8.toNat_ofNat']
    simp only [UInt64.toNat_toUInt8]
    omega

theorem putUvarint_ne_nil (x : UInt64) : putUvarint x ≠ [] := by
  rw [putUvarint_eq]
  split <;> simp

/-- A value below `2^(7k)` takes at most `k` bytes. -/
theorem length_putUvarint_le (x : UInt64) (k : Nat) (hk : 1 ≤ k) (hx : x.toNat < 2 ^ (7 * k)) :
    (putUvarint x).length ≤ k := by
  rw [putUvarint_eq]
  split
  · simpa using hk
  · rename_i hbig
    -- the rest holds the value's high bits, seven fewer
    have hk' : 2 ≤ k := by
      by_contra hlt
      have : k = 1 := by omega
      subst this
      omega
    have hrest := length_putUvarint_le (x >>> 7) (k - 1) (by omega) (by
      rw [toNat_shiftRight_seven, Nat.div_lt_iff_lt_mul (by decide)]
      have : 2 ^ (7 * k) = 2 ^ (7 * (k - 1)) * 128 := by
        rw [show 7 * k = 7 * (k - 1) + 7 by omega, Nat.pow_add]
      omega)
    simp only [List.length_cons]
    omega
termination_by x.toNat
decreasing_by
  rw [toNat_shiftRight_seven]
  omega

theorem length_putUvarint_le_ten (x : UInt64) : (putUvarint x).length ≤ 10 :=
  length_putUvarint_le x 10 (by decide) (Nat.lt_of_lt_of_le x.toNat_lt (by decide))

/-- What reading a varint off the front of some bytes gives: its value and length, or the bytes
ran out after `read` of them, or the tenth byte holds more than the 64th bit. -/
inductive Decoded where
  | ok (value length : Nat)
  | truncated (read : Nat)
  | overflow
  deriving DecidableEq, Repr

/-- The decoding loop of `protowire.ConsumeVarint` and `binary.ReadUvarint`, after `i` bytes: a
byte without the top bit ends the varint; the tenth byte must be `0` or `1`. -/
def decodeFrom : Nat → List UInt8 → Decoded
  | i, [] => .truncated i
  | i, b :: rest =>
    if 9 ≤ i then (if b < 2 then .ok b.toNat 1 else .overflow)
    else if b < 0x80 then .ok b.toNat 1
    else match decodeFrom (i + 1) rest with
      | .ok v n => .ok (b.toNat - 0x80 + 128 * v) (n + 1)
      | r => r

/-- `proto.DecodeVarint`: the value and the number of bytes read, or `(0, 0)`. -/
def DecodeVarint (b : List UInt8) : Nat × Nat :=
  match decodeFrom 0 b with
  | .ok v n => (v, n)
  | _ => (0, 0)

/-- `proto.EncodeVarint`: the bytes `binary.PutUvarint` writes. -/
def EncodeVarint (x : UInt64) : List UInt8 := putUvarint x

/-- `binary.ReadUvarint`, reading from the given bytes: the value and the number of bytes read, or
`io.EOF` when there is no byte, `io.ErrUnexpectedEOF` when the bytes stop inside the varint, and
its overflow error. -/
def ReadUvarint (b : List UInt8) : Except String (Nat × Nat) :=
  match decodeFrom 0 b with
  | .ok v n => .ok (v, n)
  | .truncated 0 => .error "EOF"
  | .truncated _ => .error "unexpected EOF"
  | .overflow => .error "binary: varint overflows a 64-bit integer"

/-- A varint is read back, whatever follows it, from any point of the loop at which it still
fits in the 64 bits. -/
theorem decodeFrom_putUvarint_append (x : UInt64) (rest : List UInt8) (i : Nat) (hi : i ≤ 9)
    (hx : x.toNat < 2 ^ (64 - 7 * i)) :
    decodeFrom i (putUvarint x ++ rest) = .ok x.toNat (putUvarint x).length := by
  rw [putUvarint_eq]
  split
  · rename_i hsmall
    have hb : (UInt8.ofNat x.toNat).toNat = x.toNat := by
      rw [UInt8.toNat_ofNat']
      omega
    by_cases hlast : 9 ≤ i
    · -- the tenth byte: the value is below `2`
      have h2 : x.toNat < 2 := by
        have : 64 - 7 * i ≤ 1 := by omega
        exact Nat.lt_of_lt_of_le hx (Nat.pow_le_pow_right (by decide) this)
      have hlt : UInt8.ofNat x.toNat < 2 := UInt8.lt_iff_toNat_lt.2 (by rw [hb]; simpa using h2)
      rw [List.singleton_append, decodeFrom, if_pos hlast, if_pos hlt, hb]
      rfl
    · have hlt : UInt8.ofNat x.toNat < 0x80 :=
        UInt8.lt_iff_toNat_lt.2 (by rw [hb]; simpa using hsmall)
      rw [List.singleton_append, decodeFrom, if_neg hlast, if_pos hlt, hb]
      rfl
  · rename_i hbig
    have hi8 : i ≤ 8 := by
      by_contra h9
      have : 64 - 7 * i ≤ 7 := by omega
      have := Nat.lt_of_lt_of_le hx (Nat.pow_le_pow_right (by decide) this)
      omega
    have hb : (UInt8.ofNat (x.toNat % 128 + 128)).toNat = x.toNat % 128 + 128 := by
      rw [UInt8.toNat_ofNat']
      omega
    have hge : ¬UInt8.ofNat (x.toNat % 128 + 128) < 0x80 := fun h => by
      have := UInt8.lt_iff_toNat_lt.1 h
      rw [hb] at this
      simp only [UInt8.reduceToNat] at this
      omega
    have hrest := decodeFrom_putUvarint_append (x >>> 7) rest (i + 1) (by omega) (by
      rw [toNat_shiftRight_seven, Nat.div_lt_iff_lt_mul (by decide)]
      have : 2 ^ (64 - 7 * i) = 2 ^ (64 - 7 * (i + 1)) * 128 := by
        rw [show 64 - 7 * i = 64 - 7 * (i + 1) + 7 by omega, Nat.pow_add]
      omega)
    rw [List.cons_append, decodeFrom, if_neg (by omega), if_neg hge, hrest, hb,
      toNat_shiftRight_seven]
    simp only [List.length_cons, Decoded.ok.injEq, and_true]
    omega
termination_by x.toNat
decreasing_by
  rw [toNat_shiftRight_seven]
  omega

/-- A proper prefix of a varint is reported as cut short, having read all of it. -/
theorem decodeFrom_take_putUvarint (x : UInt64) (m i : Nat) (hi : i + m ≤ 9)
    (hm : m < (putUvarint x).length) :
    decodeFrom i ((putUvarint x).take m) = .truncated (i + m) := by
  rw [putUvarint_eq] at hm ⊢
  split
  · rename_i hsmall
    rw [if_pos hsmall] at hm
    have : m = 0 := by simpa using hm
    subst this
    rfl
  · rename_i hbig
    rw [if_neg hbig] at hm
    cases m with
    | zero => rfl
    | succ m =>
      have hb : (UInt8.ofNat (x.toNat % 128 + 128)).toNat = x.toNat % 128 + 128 := by
        rw [UInt8.toNat_ofNat']
        omega
      have hge : ¬UInt8.ofNat (x.toNat % 128 + 128) < 0x80 := fun h => by
        have := UInt8.lt_iff_toNat_lt.1 h
        rw [hb] at this
        simp only [UInt8.reduceToNat] at this
        omega
      have hrest := decodeFrom_take_putUvarint (x >>> 7) m (i + 1) (by omega)
        (by simpa using hm)
      rw [List.take_succ_cons, decodeFrom, if_neg (by omega), if_neg hge, hrest]
      dsimp only
      congr 1
      omega
termination_by x.toNat
decreasing_by
  rw [toNat_shiftRight_seven]
  omega

theorem DecodeVarint_putUvarint_append (x : UInt64) (rest : List UInt8) :
    DecodeVarint (putUvarint x ++ rest) = (x.toNat, (putUvarint x).length) := by
  rw [DecodeVarint, decodeFrom_putUvarint_append x rest 0 (by decide) (by simpa using x.toNat_lt)]

theorem ReadUvarint_putUvarint_append (x : UInt64) (rest : List UInt8) :
    ReadUvarint (putUvarint x ++ rest) = .ok (x.toNat, (putUvarint x).length) := by
  rw [ReadUvarint, decodeFrom_putUvarint_append x rest 0 (by decide) (by simpa using x.toNat_lt)]

/-- `proto.DecodeVarint` reads nothing from a proper prefix of a varint. -/
theorem DecodeVarint_take_putUvarint (x : UInt64) (m : Nat) (hm : m < (putUvarint x).length) :
    (DecodeVarint ((putUvarint x).take m)).2 = 0 := by
  have hten := length_putUvarint_le_ten x
  rw [DecodeVarint, decodeFrom_take_putUvarint x m 0 (by omega) hm]

/-! ### Big-endian integers -/

/-- The message of Go's panic on an index out of range. -/
def indexOutOfRange (i n : Nat) : String :=
  "runtime error: index out of range [" ++ toString i ++ "] with length " ++ toString n

/-- `binary.BigEndian.PutUint64`: `b[i] = byte(v >> (56 - 8i))`. -/
def PutUint64 (v : UInt64) : List UInt8 :=
  (List.range 8).map fun i => (v >>> (56 - 8 * i).toUInt64).toUInt8

/-- `binary.BigEndian.Uint64`: `uint64(b[7]) | uint64(b[6])<<8 | ... | uint64(b[0])<<56`; the
bounds check on `b[7]` panics on fewer than eight bytes. -/
def Uint64 (b : List UInt8) : Except String UInt64 :=
  if b.length < 8 then .error (indexOutOfRange 7 b.length)
  else .ok ((b.take 8).foldl (fun v x => (v <<< 8) ||| x.toUInt64) 0)

theorem length_PutUint64 (v : UInt64) : (PutUint64 v).length = 8 := by
  rw [PutUint64, List.length_map, List.length_range]

/-- The bytes of `PutUint64` are the eight base-256 digits of the number. -/
theorem map_toNat_PutUint64 (v : UInt64) :
    (PutUint64 v).map UInt8.toNat = ByteOrder.beDigits 256 8 v.toNat := by
  rw [PutUint64, ByteOrder.beDigits, List.map_map]
  apply List.map_congr_left
  intro i hi
  have hi8 : i < 8 := List.mem_range.1 hi
  have hshift : (56 - 8 * i).toUInt64.toNat % 64 = 56 - 8 * i := by
    rw [Nat.toUInt64_eq, UInt64.toNat_ofNat', Nat.mod_eq_of_lt (by omega), Nat.mod_eq_of_lt (by omega)]
  have hpow : 2 ^ (56 - 8 * i) = 256 ^ (8 - 1 - i) := by
    rw [show 56 - 8 * i = 8 * (8 - 1 - i) by omega, pow_mul]
    rfl
  simp only [Function.comp_apply, UInt64.toNat_toUInt8, UInt64.toNat_shiftRight, hshift,
    Nat.shiftRight_eq_div_pow, hpow]

/-- One step of `Uint64`: shift the value a byte up and put the next byte in the low one. -/
theorem toNat_shiftLeft_or (v : UInt64) (x : UInt8) :
    ((v <<< 8) ||| x.toUInt64).toNat = (v.toNat * 256 + x.toNat) % 2 ^ 64 := by
  have hx := x.toNat_lt
  have hlow : (v.toNat * 256) % 2 ^ 64 = 2 ^ 8 * (v.toNat % 2 ^ 56) := by omega
  rw [UInt64.toNat_or, UInt64.toNat_shiftLeft, UInt8.toNat_toUInt64, Nat.shiftLeft_eq]
  rw [show (8 : UInt64).toNat % 64 = 8 from rfl, hlow, ← Nat.two_pow_add_eq_or_of_lt hx]
  omega

theorem toNat_foldl_shiftLeft_or (l : List UInt8) (v : UInt64) :
    (l.foldl (fun (v : UInt64) (x : UInt8) => (v <<< 8) ||| x.toUInt64) v).toNat =
      (v.toNat * 256 ^ l.length + Nat.ofDigits 256 (l.map UInt8.toNat).reverse) % 2 ^ 64 := by
  induction l generalizing v with
  | nil => simp
  | cons x l ih =>
    rw [List.foldl_cons, ih, toNat_shiftLeft_or, List.map_cons, ByteOrder.ofDigits_reverse_cons,
      List.length_map, List.length_cons, pow_succ]
    rw [Nat.add_mod, Nat.mul_mod, Nat.mod_mod, ← Nat.mul_mod, ← Nat.add_mod]
    congr 1
    ring

/-- `Uint64` reads back what `PutUint64` wrote. -/
theorem Uint64_PutUint64 (v : UInt64) : Uint64 (PutUint64 v) = .ok v := by
  have hval : Nat.ofDigits 256 ((PutUint64 v).map UInt8.toNat).reverse = v.toNat := by
    rw [map_toNat_PutUint64, ByteOrder.ofDigits_reverse_beDigits,
      Nat.mod_eq_of_lt (lt_of_lt_of_eq v.toNat_lt (by norm_num))]
  rw [Uint64, if_neg (by rw [length_PutUint64]; decide), List.take_of_length_le (by rw [length_PutUint64])]
  congr 1
  apply UInt64.toNat_inj.1
  rw [toNat_foldl_shiftLeft_or, hval]
  simp

/-! ### Files -/

/-- `f.Write(content)` on a file opened without `O_APPEND`, at its IO offset `pos`: the bytes go
over what is there, the file grows if they pass its end, and a gap before them reads as zeros. -/
def writeAt (file : List UInt8) (pos : Nat) (content : List UInt8) : List UInt8 :=
  file.take pos ++ List.replicate (pos - file.length) 0 ++ content ++ file.drop (pos + content.length)

/-- Writing at the end of a file appends. -/
@[simp] theorem writeAt_length (file content : List UInt8) :
    writeAt file file.length content = file ++ content := by
  simp [writeAt]

/-- What follows an offset of a file still starts the same once the file grows. -/
theorem prefix_drop_append {l file more : List UInt8} {o : Nat} (h : l <+: file.drop o) :
    l <+: (file ++ more).drop o := by
  rw [List.drop_append]
  exact h.trans (List.prefix_append _ _)

theorem prefix_of_eq {l₁ l₂ : List UInt8} (h : l₁ = l₂) : l₁ <+: l₂ := h ▸ List.prefix_refl l₁

/-- `f.Truncate(size)`: the file cut to `size` bytes, or extended with zeros. -/
def truncate (file : List UInt8) (size : Nat) : List UInt8 :=
  file.take size ++ List.replicate (size - file.length) 0

/-- How many bytes of a file with `avail` bytes left a `bufio.Reader` with a buffer of `bufSize`
bytes has read once its user took `k` bytes with `ReadByte` and then asked `io.ReadFull` for `n`
more. The first `ReadByte` fills the buffer with one read; `ReadFull` empties the buffer, then
reads what is still missing straight into its slice when that is a buffer's worth or more, and
with one more fill otherwise. No read goes past the end of the file. -/
def bufioReadFullEnd (bufSize avail k n : Nat) : Nat :=
  let first := min bufSize avail
  if k + n ≤ first then first
  else if bufSize ≤ k + n - first then min avail (k + n)
  else min avail (first + bufSize)

/-- Reading everything up to the end of the file leaves the reader at its end. -/
theorem bufioReadFullEnd_of_eq (bufSize avail k n : Nat) (h : k + n = avail) :
    bufioReadFullEnd bufSize avail k n = avail := by
  unfold bufioReadFullEnd
  dsimp only
  split
  · omega
  · split <;> omega

end GoIO
