import Orion.StateIndex.IndexEntries
import Orion.Lib.GoIO
import Mathlib.Data.List.GetD

/-!
# Decoding the order-preserving encoding of numbers (`internal/stateindex/encoding.go`)

`EncodeInt64` (in `IndexEntries`) writes a number as text whose byte order is the order of the
numbers: a non-negative number as `1`, the hexadecimal digit of the number of its bytes left after
the leading zero bytes are dropped, and those bytes in hexadecimal; a negative one as `0`, then the
same for `MaxUint64 - |n|` with its leading `0xff` bytes dropped, whose count is the digit. The
decoders read the digit and the bytes back by their positions in the text.

## What is proved

`EncodeInt64_order_embedding`: for all `int64` values `a` and `b`, `a < b` exactly when the bytes
of `EncodeInt64 a` are below those of `EncodeInt64 b`, and `decodeInt64` reads back every value,
`math.MinInt64` (whose absolute value wraps to itself) included. The order rests on `ByteOrder`:
the tag orders the signs, the digit the lengths, and the bytes in hexadecimal the rest.
-/

namespace Orion.StateIndex

open Orion.State GoJson GoIO ByteOrder

/-- `normalOrder`. -/
def normalOrder : Char := '1'

/-- `reverseOrder`. -/
def reverseOrder : Char := '0'

/-- `math.MaxUint64`. -/
def MaxUint64 : UInt64 := 0xFFFFFFFFFFFFFFFF

/-- `b[i]`; Go panics when `i` is out of range. -/
def byteAt (b : Bytes) (i : Nat) : Except String UInt8 :=
  match b[i]? with
  | some x => .ok x
  | none => .error (indexOutOfRange i b.length)

/-- `fromHexChar`. -/
def fromHexChar (c : UInt8) : Except String UInt8 :=
  if '0'.toUInt8 ≤ c ∧ c ≤ '9'.toUInt8 then .ok (c - '0'.toUInt8)
  else if 'a'.toUInt8 ≤ c ∧ c ≤ 'f'.toUInt8 then .ok (c - 'a'.toUInt8 + 10)
  else if 'A'.toUInt8 ≤ c ∧ c ≤ 'F'.toUInt8 then .ok (c - 'A'.toUInt8 + 10)
  else .error ("invalid hex character [" ++ String.singleton (Char.ofNat c.toNat) ++ "]")

/-- `convertHexAtLocationToBinary`. -/
def convertHexAtLocationToBinary (b : Bytes) (location : Nat) : Except String UInt8 := do
  let firstChar ← fromHexChar (← byteAt b location)
  let secondChar ← fromHexChar (← byteAt b (location + 1))
  pure ((firstChar <<< 4) ||| secondChar)

/-- Go's `x << s` on `uint64`: `0` once the count reaches `64`. -/
def shiftLeft64 (x : UInt64) (s : Nat) : UInt64 := if s < 64 then x <<< s.toUInt64 else 0

/-- Round `i` of the loop both decoders share, with `k = 7 - i`: the byte at
`location = (size - (7 - i)) * 2 = (size - k) * 2` goes `56 - i*8 = 8k` bits up. -/
def decodeRound (bs : Bytes) (size : Nat) (v : UInt64) (k : Nat) : Except String UInt64 := do
  let b ← convertHexAtLocationToBinary bs ((size - k) * 2)
  pure (v ||| shiftLeft64 b.toUInt64 (8 * k))

/-- The loop both decoders share, `for i := 7; i >= 8-size; i--`. -/
def decodeLoop (bs : Bytes) (size : Nat) : Except String UInt64 :=
  (List.range size).foldlM (decodeRound bs size) 0

/-- `decodeOrderPreservingVarUint64`. -/
def decodeOrderPreservingVarUint64 (bs : Bytes) : Except String UInt64 := do
  let sizeByte ← convertHexAtLocationToBinary bs 0
  decodeLoop bs sizeByte.toNat

/-- `decodeReverseOrderVarUint64`. Go's `size := 8 - int(bytePosition)` may be negative; the loop
then runs no round, as it does here on the truncated `8 - bytePosition`. The loop leaves
`i = 7 - size`, and `for j := i; j >= 0; j--` sets the bytes above to `0xff`. -/
def decodeReverseOrderVarUint64 (bs : Bytes) : Except String UInt64 := do
  let bytePosition ← convertHexAtLocationToBinary bs 0
  let size := 8 - bytePosition.toNat
  let v ← decodeLoop bs size
  let v := (List.range (8 - size)).foldl (fun v j => v ||| shiftLeft64 0xff (56 - 8 * j)) v
  pure (MaxUint64 - v)

/-- `decodeVarUint64`: the tag, then the decoder it names on the text with its tag set to `0`. -/
def decodeVarUint64 (s : String) : Except String (UInt64 × Char) := do
  let bs := s.toUTF8.toList
  let encodingType ← byteAt bs 0
  if encodingType = normalOrder.toUInt8 then
    let n ← decodeOrderPreservingVarUint64 (bs.set 0 '0'.toUInt8)
    pure (n, normalOrder)
  else if encodingType = reverseOrder.toUInt8 then
    let n ← decodeReverseOrderVarUint64 (bs.set 0 '0'.toUInt8)
    pure (n, reverseOrder)
  else .error ("unexpected prefix [" ++ String.singleton (Char.ofNat encodingType.toNat) ++ "]")

/-- Go's conversion of an integer to `int64`: the value mod `2^64`, in `[-2^63, 2^63)`. -/
def toInt64 (x : Int) : Int := x.bmod (2 ^ 64)

/-- `decodeInt64`: `int64(n)`, or `-int64(n)` for the reverse encoding. -/
def decodeInt64 (s : String) : Except String Int := do
  let (n, o) ← decodeVarUint64 s
  if o = normalOrder then pure (toInt64 n.toNat) else pure (toInt64 (-toInt64 n.toNat))

/-! ### Hexadecimal digits -/

theorem hextable_lt_iff {x y : Nat} (hx : x < 16) (hy : y < 16) :
    (hextable x).toNat < (hextable y).toNat ↔ x < y := by
  have h := (by decide : ∀ i j : Fin 16, (hextable i).toNat < (hextable j).toNat ↔ i < j)
  exact h ⟨x, hx⟩ ⟨y, hy⟩

theorem hextable_eq_iff {x y : Nat} (hx : x < 16) (hy : y < 16) :
    (hextable x).toNat = (hextable y).toNat ↔ x = y := by
  have h := (by decide : ∀ i j : Fin 16, (hextable i).toNat = (hextable j).toNat ↔ i = j)
  exact (h ⟨x, hx⟩ ⟨y, hy⟩).trans Fin.mk.inj_iff

theorem hextable_val_le (n : Nat) : (hextable n).val ≤ 127 := by
  rcases lt_or_ge n 16 with h | h
  · have hall := (by decide : ∀ i : Fin 16, (hextable i).val ≤ 127)
    exact hall ⟨n, h⟩
  · have hlen : "0123456789abcdef".toList.length ≤ n := by
      rw [show "0123456789abcdef".toList.length = 16 by decide]
      exact h
    rw [hextable, hexDigit, List.getD_eq_default _ _ hlen]
    decide

/-- `fromHexChar` reads back the digits `hextable` writes. -/
theorem fromHexChar_hextable {d : Nat} (hd : d < 16) :
    fromHexChar (hextable d).val.toUInt8 = .ok d.toUInt8 := by
  have h := (by decide : ∀ i : Fin 16, fromHexChar (hextable i).val.toUInt8 = .ok (i : Nat).toUInt8)
  exact h ⟨d, hd⟩

/-- A byte is its high digit shifted up, or-ed with its low digit. -/
theorem shiftLeft_four_or (x : Nat) (hx : x < 256) :
    ((x / 16).toUInt8 <<< 4) ||| (x % 16).toUInt8 = x.toUInt8 := by
  have h := (by decide +kernel :
    ∀ i : Fin 256, (((i : Nat) / 16).toUInt8 <<< 4) ||| ((i : Nat) % 16).toUInt8 = (i : Nat).toUInt8)
  exact h ⟨x, hx⟩

/-! ### Reading the bytes back -/

/-- The text the decoders read: `0` in place of the tag, the digit `d`, then the bytes `r` in
hexadecimal. -/
def hexText (d : Nat) (r : List Nat) : Bytes :=
  ('0' :: hextable d :: hexBytes r).map fun c => c.val.toUInt8

theorem hexBytes_cons (x : Nat) (r : List Nat) :
    hexBytes (x :: r) = hextable (x / 16) :: hextable (x % 16) :: hexBytes r := rfl

/-- Byte `i` of `r` is written at `2i` and `2i + 1`. -/
theorem getElem?_hexBytes : ∀ (r : List Nat) (i : Nat) (hi : i < r.length),
    (hexBytes r)[2 * i]? = some (hextable (r[i] / 16)) ∧
      (hexBytes r)[2 * i + 1]? = some (hextable (r[i] % 16))
  | _ :: _, 0, _ => ⟨rfl, rfl⟩
  | x :: r, i + 1, hi => by
    rw [hexBytes_cons, show 2 * (i + 1) = 2 * i + 1 + 1 by ring]
    simp only [List.getElem?_cons_succ, List.getElem_cons_succ]
    exact getElem?_hexBytes r i (by simpa using hi)

/-- The digit is read at location `0`. -/
theorem convertHexAtLocationToBinary_hexText_zero {d : Nat} (hd : d < 16) (r : List Nat) :
    convertHexAtLocationToBinary (hexText d r) 0 = .ok d.toUInt8 := by
  have hzero : ('0' : Char) = hextable 0 := by decide
  have hcombine := shiftLeft_four_or d (by omega)
  rw [Nat.div_eq_of_lt hd, Nat.mod_eq_of_lt hd] at hcombine
  simp only [convertHexAtLocationToBinary, byteAt, hexText, List.map_cons, List.getElem?_cons_zero,
    List.getElem?_cons_succ, Except.ok_bind]
  rw [hzero, fromHexChar_hextable (by decide), fromHexChar_hextable hd]
  simp only [Except.ok_bind]
  rw [hcombine]
  rfl

/-- Byte `i` of `r` is read at location `2 (i + 1)`. -/
theorem convertHexAtLocationToBinary_hexText {d : Nat} {r : List Nat} (hr : ∀ x ∈ r, x < 256)
    {i : Nat} (hi : i < r.length) :
    convertHexAtLocationToBinary (hexText d r) (2 * (i + 1)) = .ok r[i].toUInt8 := by
  obtain ⟨hhi, hlo⟩ := getElem?_hexBytes r i hi
  have hx := hr r[i] (List.getElem_mem hi)
  have hpos : 2 * (i + 1) = 2 * i + 1 + 1 := by ring
  simp only [convertHexAtLocationToBinary, byteAt, hexText, List.map_cons, hpos,
    List.getElem?_cons_succ, List.getElem?_map, hhi, hlo, Option.map_some, Except.ok_bind]
  rw [fromHexChar_hextable (by omega), fromHexChar_hextable (Nat.mod_lt _ (by decide))]
  simp only [Except.ok_bind]
  rw [shiftLeft_four_or _ hx]
  rfl

/-- A byte put above a value that fits below it adds to the value. -/
theorem toNat_or_shiftLeft64 {v : UInt64} {b : UInt8} {j : Nat} (hj : j < 8)
    (hv : v.toNat < 256 ^ j) :
    (v ||| shiftLeft64 b.toUInt64 (8 * j)).toNat = v.toNat + 256 ^ j * b.toNat := by
  have hb := b.toNat_lt
  have hpow : (256 : Nat) ^ j = 2 ^ (8 * j) := by rw [pow_mul]; norm_num
  have hcount : (8 * j).toUInt64.toNat % 64 = 8 * j := by
    rw [Nat.toUInt64_eq, UInt64.toNat_ofNat', Nat.mod_eq_of_lt (by omega), Nat.mod_eq_of_lt (by omega)]
  have hfits : b.toNat * 2 ^ (8 * j) < 2 ^ 64 :=
    calc b.toNat * 2 ^ (8 * j) < 2 ^ 8 * 2 ^ (8 * j) := Nat.mul_lt_mul_of_pos_right hb (by positivity)
      _ = 2 ^ (8 * j + 8) := by rw [← pow_add, add_comm]
      _ ≤ 2 ^ 64 := Nat.pow_le_pow_right (by decide) (by omega)
  have hshift : (shiftLeft64 b.toUInt64 (8 * j)).toNat = 2 ^ (8 * j) * b.toNat := by
    rw [shiftLeft64, if_pos (by omega), UInt64.toNat_shiftLeft, UInt8.toNat_toUInt64, hcount,
      Nat.shiftLeft_eq, Nat.mod_eq_of_lt hfits, mul_comm]
  rw [UInt64.toNat_or, hshift, Nat.or_comm, ← Nat.two_pow_add_eq_or_of_lt (hpow ▸ hv), hpow]
  ring

/-- Round `k` reads byte `k` from the end of `r`. -/
theorem decodeRound_hexText {d : Nat} {r : List Nat} (hr : ∀ x ∈ r, x < 256) (v : UInt64)
    {k : Nat} (hk : k < r.reverse.length) :
    decodeRound (hexText d r) r.length v k =
      .ok (v ||| shiftLeft64 r.reverse[k].toUInt8.toUInt64 (8 * k)) := by
  rw [List.length_reverse] at hk
  have hloc : (r.length - k) * 2 = 2 * ((r.length - 1 - k) + 1) := by omega
  rw [decodeRound, hloc, convertHexAtLocationToBinary_hexText hr (by omega), Except.ok_bind,
    List.getElem_reverse]
  rfl

/-- After `j` rounds the loop holds the value of the last `j` bytes of `r`. -/
theorem foldlM_decodeRound_hexText {d : Nat} {r : List Nat} (hr : ∀ x ∈ r, x < 256)
    (hlen : r.length ≤ 8) :
    ∀ j ≤ r.length, (List.range j).foldlM (decodeRound (hexText d r) r.length) 0 =
      .ok (Nat.ofDigits 256 (r.reverse.take j)).toUInt64
  | 0, _ => rfl
  | j + 1, hj => by
    have hrev : ∀ x ∈ r.reverse, x < 256 := fun x hx => hr x (List.mem_reverse.1 hx)
    have hval : Nat.ofDigits 256 (r.reverse.take j) < 256 ^ j := by
      have h := Nat.ofDigits_lt_base_pow_length (l := r.reverse.take j) (by decide)
        (fun x hx => hrev x (List.mem_of_mem_take hx))
      rwa [List.length_take, List.length_reverse, Nat.min_eq_left (by omega)] at h
    have hsmall : Nat.ofDigits 256 (r.reverse.take j) < 2 ^ 64 :=
      lt_of_lt_of_le hval (by rw [show (2 : Nat) ^ 64 = 256 ^ 8 by norm_num]; exact Nat.pow_le_pow_right (by decide) (by omega))
    have hjlt : j < r.reverse.length := by simp only [List.length_reverse]; omega
    rw [List.range_succ, List.foldlM_append, foldlM_decodeRound_hexText hr hlen j (by omega),
      Except.ok_bind, List.foldlM_cons, decodeRound_hexText hr _ hjlt, Except.ok_bind,
      List.foldlM_nil]
    show Except.ok _ = Except.ok _
    congr 1
    apply UInt64.toNat_inj.1
    have hbyte : r.reverse[j] < 256 := hrev _ (List.getElem_mem hjlt)
    rw [toNat_or_shiftLeft64 (by omega) (by rw [UInt64.toNat_ofNat', Nat.mod_eq_of_lt hsmall]; exact hval)]
    have hsum : Nat.ofDigits 256 (r.reverse.take j) + 256 ^ j * r.reverse[j] < 2 ^ 64 :=
      calc Nat.ofDigits 256 (r.reverse.take j) + 256 ^ j * r.reverse[j]
          < 256 ^ j + 256 ^ j * 255 := Nat.add_lt_add_of_lt_of_le hval (Nat.mul_le_mul_left _ (by omega))
        _ = 256 ^ (j + 1) := by ring
        _ ≤ 2 ^ 64 := by
          rw [show (2 : Nat) ^ 64 = 256 ^ 8 by norm_num]
          exact Nat.pow_le_pow_right (by decide) (by omega)
    rw [List.take_add_one, List.getElem?_eq_getElem hjlt, Option.toList_some,
      Nat.ofDigits_append, Nat.ofDigits_singleton, List.length_take, Nat.min_eq_left hjlt.le]
    rw [Nat.toUInt64_eq, Nat.toUInt64_eq, UInt64.toNat_ofNat', UInt64.toNat_ofNat', Nat.toUInt8_eq,
      UInt8.toNat_ofNat', Nat.mod_eq_of_lt hsmall, Nat.mod_eq_of_lt hsum, Nat.mod_eq_of_lt hbyte]

/-- The loop reads the value of `r`. -/
theorem decodeLoop_hexText {d : Nat} {r : List Nat} (hr : ∀ x ∈ r, x < 256) (hlen : r.length ≤ 8) :
    decodeLoop (hexText d r) r.length = .ok (Nat.ofDigits 256 r.reverse).toUInt64 := by
  rw [decodeLoop, foldlM_decodeRound_hexText hr hlen r.length le_rfl,
    List.take_of_length_le (by rw [List.length_reverse])]

theorem decodeOrderPreservingVarUint64_hexText {r : List Nat} (hr : ∀ x ∈ r, x < 256)
    (hlen : r.length ≤ 8) :
    decodeOrderPreservingVarUint64 (hexText r.length r) = .ok (Nat.ofDigits 256 r.reverse).toUInt64 := by
  have hsize : r.length.toUInt8.toNat = r.length := by
    rw [Nat.toUInt8_eq, UInt8.toNat_ofNat', Nat.mod_eq_of_lt (by omega)]
  rw [decodeOrderPreservingVarUint64, convertHexAtLocationToBinary_hexText_zero (by omega),
    Except.ok_bind, hsize, decodeLoop_hexText hr hlen]

/-- An or-fold from `v` is `v` or-ed with the fold from `0`. -/
theorem foldl_or (g : Nat → UInt64) :
    ∀ (l : List Nat) (v : UInt64), l.foldl (fun v j => v ||| g j) v = v ||| l.foldl (fun v j => v ||| g j) 0
  | [], _ => UInt64.or_zero.symm
  | j :: l, v => by
    rw [List.foldl_cons, List.foldl_cons, foldl_or g l (v ||| g j), foldl_or g l (0 ||| g j),
      UInt64.zero_or, UInt64.or_assoc]

/-- The second loop of the reverse decoder sets the top `k` bytes. -/
theorem toNat_foldl_topBytes : ∀ k : Fin 9,
    ((List.range k).foldl (fun v j => v ||| shiftLeft64 0xff (56 - 8 * j)) 0).toNat =
      2 ^ 64 - 2 ^ (64 - 8 * (k : Nat)) := by
  decide

theorem decodeReverseOrderVarUint64_hexText {r : List Nat} (hr : ∀ x ∈ r, x < 256)
    (hlen : r.length ≤ 8) :
    decodeReverseOrderVarUint64 (hexText (8 - r.length) r) =
      .ok (UInt64.ofNat (2 ^ (8 * r.length) - 1 - Nat.ofDigits 256 r.reverse)) := by
  have hv : Nat.ofDigits 256 r.reverse < 2 ^ (8 * r.length) := by
    have h256 : (2 : Nat) ^ (8 * r.length) = 256 ^ r.length := by rw [pow_mul]; norm_num
    rw [h256]
    exact ofDigits_reverse_lt (by decide) hr
  have hsize : 8 - (8 - r.length).toUInt8.toNat = r.length := by
    rw [Nat.toUInt8_eq, UInt8.toNat_ofNat', Nat.mod_eq_of_lt (by omega)]
    omega
  have hpow : 2 ^ (8 * r.length) * 2 ^ (64 - 8 * r.length) = 2 ^ 64 := by
    rw [← pow_add, Nat.add_sub_cancel' (by omega)]
  have htop := toNat_foldl_topBytes ⟨8 - r.length, by omega⟩
  simp only [show 64 - 8 * (8 - r.length) = 8 * r.length by omega] at htop
  have htop' : 2 ^ 64 - 2 ^ (8 * r.length) = 2 ^ (8 * r.length) * (2 ^ (64 - 8 * r.length) - 1) := by
    rw [Nat.mul_sub, mul_one, hpow]
  have hsmall : Nat.ofDigits 256 r.reverse < 2 ^ 64 :=
    lt_of_lt_of_le hv (Nat.pow_le_pow_right (by decide) (by omega))
  have hor : ((Nat.ofDigits 256 r.reverse).toUInt64 |||
      (List.range (8 - r.length)).foldl (fun v j => v ||| shiftLeft64 0xff (56 - 8 * j)) 0).toNat =
        2 ^ 64 - 2 ^ (8 * r.length) + Nat.ofDigits 256 r.reverse := by
    rw [UInt64.toNat_or, htop, htop', Nat.toUInt64_eq, UInt64.toNat_ofNat', Nat.mod_eq_of_lt hsmall,
      Nat.or_comm, ← Nat.two_pow_add_eq_or_of_lt hv]
  rw [decodeReverseOrderVarUint64, convertHexAtLocationToBinary_hexText_zero (by omega), Except.ok_bind]
  rw [hsize]
  extract_lets size
  rw [show size = r.length from rfl, decodeLoop_hexText hr hlen, Except.ok_bind, foldl_or]
  show Except.ok _ = Except.ok _
  refine congrArg Except.ok (UInt64.toNat_inj.1 ?_)
  have hmax : MaxUint64.toNat = 2 ^ 64 - 1 := rfl
  have hP : 2 ^ (8 * r.length) ≤ 2 ^ 64 := Nat.pow_le_pow_right (by decide) (by omega)
  have hle : (Nat.ofDigits 256 r.reverse).toUInt64 |||
      (List.range (8 - r.length)).foldl (fun v j => v ||| shiftLeft64 0xff (56 - 8 * j)) 0 ≤ MaxUint64 :=
    UInt64.le_iff_toNat_le.2 (by rw [hor, hmax]; omega)
  rw [UInt64.toNat_sub_of_le _ _ hle, hor, hmax, UInt64.toNat_ofNat']
  generalize 2 ^ (8 * r.length) = P at hv hP ⊢
  rw [Nat.mod_eq_of_lt (by omega)]
  omega

/-! ### The text of `EncodeInt64` -/

theorem bytesBE_eq (n : Nat) : bytesBE n = beDigits 256 8 n := rfl

theorem hexBytes_eq_map (r : List Nat) : hexBytes r = (splitDigits 16 r).map hextable := by
  induction r with
  | nil => rfl
  | cons x r ih =>
    show hextable (x / 16) :: hextable (x % 16) :: hexBytes r =
      hextable (x / 16) :: hextable (x % 16) :: (splitDigits 16 r).map hextable
    rw [ih]

theorem splitDigits_lt {r : List Nat} (hr : ∀ x ∈ r, x < 256) : ∀ y ∈ splitDigits 16 r, y < 16 := by
  intro y hy
  obtain ⟨x, hx, hy⟩ := List.mem_flatMap.1 hy
  have := hr x hx
  simp only [List.mem_cons, List.not_mem_nil, or_false] at hy
  omega

/-- The text of an encoding: a tag, the digit `d`, and the bytes `r` in hexadecimal. -/
def encodedText (tag : Char) (d : Nat) (r : List Nat) : String :=
  String.ofList (tag :: hextable d :: hexBytes r)

/-- The bytes of an encoding are its characters. -/
theorem toUTF8_encodedText {tag : Char} (htag : tag.val ≤ 127) (d : Nat) (r : List Nat) :
    (encodedText tag d r).toUTF8.toList =
      (tag :: hextable d :: hexBytes r).map fun c => c.val.toUInt8 := by
  apply toUTF8_ofList_of_ascii
  intro c hc
  rcases List.mem_cons.1 hc with rfl | hc
  · exact htag
  rcases List.mem_cons.1 hc with rfl | hc
  · exact hextable_val_le d
  rw [hexBytes_eq_map] at hc
  obtain ⟨y, -, rfl⟩ := List.mem_map.1 hc
  exact hextable_val_le y

/-- The bytes of an encoding, as numbers: the tag, then the codes of the digits. -/
theorem map_toNat_toUTF8_encodedText {tag : Char} (htag : tag.val ≤ 127) (d : Nat) (r : List Nat) :
    (encodedText tag d r).toUTF8.toList.map UInt8.toNat =
      tag.toNat :: (d :: splitDigits 16 r).map fun x => (hextable x).toNat := by
  have hbyte : ∀ c : Char, c.val ≤ 127 → c.val.toUInt8.toNat = c.toNat := by
    intro c hc
    have hlt : c.val.toNat < 256 := by
      have := UInt32.le_iff_toNat_le.1 hc
      simp only [UInt32.reduceToNat] at this
      omega
    rw [UInt32.toNat_toUInt8, Nat.mod_eq_of_lt hlt]
    rfl
  rw [toUTF8_encodedText htag, hexBytes_eq_map, List.map_map, List.map_cons, List.map_cons,
    List.map_cons, List.map_map]
  refine congrArg₂ List.cons (by simp only [Function.comp_apply, hbyte tag htag]) ?_
  refine congrArg₂ List.cons (by simp only [Function.comp_apply, hbyte _ (hextable_val_le d)]) ?_
  apply List.map_congr_left
  intro x _
  simp only [Function.comp_apply, hbyte _ (hextable_val_le x)]

/-- Two encodings with one tag order as their digits, then their bytes. -/
theorem encodedText_lt_iff {tag : Char} (htag : tag.val ≤ 127) {d d' : Nat} {r r' : List Nat}
    (hd : d < 16) (hd' : d' < 16) (hr : ∀ x ∈ r, x < 256) (hr' : ∀ x ∈ r', x < 256) :
    (encodedText tag d r).toUTF8.toList < (encodedText tag d' r').toUTF8.toList ↔
      d < d' ∨ d = d' ∧ r < r' := by
  have hdigits : ∀ {e : Nat} {t : List Nat}, e < 16 → (∀ x ∈ t, x < 256) →
      ∀ y ∈ e :: splitDigits 16 t, y ∈ {y : Nat | y < 16} := by
    intro e t he ht y hy
    rcases List.mem_cons.1 hy with rfl | hy
    · exact he
    · exact splitDigits_lt ht y hy
  rw [← map_toNat_lt_map_toNat_iff, map_toNat_toUTF8_encodedText htag,
    map_toNat_toUTF8_encodedText htag, List.cons_lt_cons_iff]
  simp only [lt_irrefl, false_or, true_and]
  rw [map_lt_map_iff (fun x hx y hy => hextable_lt_iff hx hy) (fun x hx y hy => hextable_eq_iff hx hy)
    (hdigits hd hr) (hdigits hd' hr'), List.cons_lt_cons_iff, splitDigits_lt_iff]

/-- The significant bytes of a number: its big-endian bytes after the leading zeros. -/
def significantBytes (n : Nat) : List Nat := (beDigits 256 8 n).dropWhile (· = 0)

/-- The bytes of a number after its leading `0xff` bytes. -/
def bytesAfterTop (n : Nat) : List Nat := (beDigits 256 8 n).dropWhile (· = 0xff)

theorem EncodeInt64_of_nonneg {n : Int} (h : 0 ≤ n) :
    EncodeInt64 n = encodedText '1' (significantBytes n.toNat).length (significantBytes n.toNat) := by
  rw [EncodeInt64, if_neg (not_lt.2 h)]
  rfl

theorem EncodeInt64_of_neg {n : Int} (h : n < 0) :
    EncodeInt64 n = encodedText '0' (8 - (bytesAfterTop (2 ^ 64 - 1 - n.natAbs)).length)
      (bytesAfterTop (2 ^ 64 - 1 - n.natAbs)) := by
  rw [EncodeInt64, if_pos h]
  rfl

/-! ### Decoding what was encoded -/

/-- `int64(x)` is `x` on the values of `int64`. -/
theorem toInt64_of_mem {x : Int} (h0 : -2 ^ 63 ≤ x) (h : x < 2 ^ 63) : toInt64 x = x := by
  rw [toInt64, Int.bmod_def]
  push_cast
  split_ifs <;> omega

/-- `-int64(x)` is `-x` for `1 ≤ x ≤ 2^63`; at `2^63`, both conversions wrap. -/
theorem toInt64_neg_toInt64 {x : Nat} (h1 : 1 ≤ x) (h : x ≤ 2 ^ 63) :
    toInt64 (-toInt64 x) = -x := by
  rw [toInt64, toInt64, Int.bmod_def, Int.bmod_def (x : Int)]
  push_cast
  split_ifs <;> omega

theorem significantBytes_lt (n : Nat) : ∀ x ∈ significantBytes n, x < 256 :=
  fun x hx => beDigits_lt (by decide) 8 n x ((List.dropWhile_sublist _).subset hx)

theorem bytesAfterTop_lt (n : Nat) : ∀ x ∈ bytesAfterTop n, x < 256 :=
  fun x hx => beDigits_lt (by decide) 8 n x ((List.dropWhile_sublist _).subset hx)

/-- The bytes `decodeVarUint64` hands to a decoder: the tag set to `0`. -/
theorem set_toUTF8_encodedText {tag : Char} (htag : tag.val ≤ 127) (d : Nat) (r : List Nat) :
    (encodedText tag d r).toUTF8.toList.set 0 '0'.toUInt8 = hexText d r := by
  rw [toUTF8_encodedText htag, List.map_cons, List.set_cons_zero, hexText, List.map_cons]
  rfl

theorem byteAt_toUTF8_encodedText {tag : Char} (htag : tag.val ≤ 127) (d : Nat) (r : List Nat) :
    byteAt (encodedText tag d r).toUTF8.toList 0 = .ok tag.toUInt8 := by
  rw [toUTF8_encodedText htag, byteAt, List.map_cons, List.getElem?_cons_zero]
  rfl

theorem decodeVarUint64_encodedText_normalOrder (d : Nat) (r : List Nat) :
    decodeVarUint64 (encodedText normalOrder d r) =
      (do let n ← decodeOrderPreservingVarUint64 (hexText d r); pure (n, normalOrder)) := by
  have hnormal : normalOrder.val ≤ 127 := by decide
  simp only [decodeVarUint64, byteAt_toUTF8_encodedText hnormal, Except.ok_bind, if_true,
    set_toUTF8_encodedText hnormal]

theorem decodeVarUint64_encodedText_reverseOrder (d : Nat) (r : List Nat) :
    decodeVarUint64 (encodedText reverseOrder d r) =
      (do let n ← decodeReverseOrderVarUint64 (hexText d r); pure (n, reverseOrder)) := by
  have hreverse : reverseOrder.val ≤ 127 := by decide
  have hne : reverseOrder.toUInt8 ≠ normalOrder.toUInt8 := by decide
  simp only [decodeVarUint64, byteAt_toUTF8_encodedText hreverse, Except.ok_bind, if_neg hne,
    if_true, set_toUTF8_encodedText hreverse]

theorem decodeInt64_EncodeInt64_of_nonneg {n : Int} (h0 : 0 ≤ n) (h : n < 2 ^ 63) :
    decodeInt64 (EncodeInt64 n) = .ok n := by
  have hlen : (significantBytes n.toNat).length ≤ 8 := length_dropWhile_beDigits_le 0 256 8 _
  have hval : Nat.ofDigits 256 (significantBytes n.toNat).reverse = n.toNat := by
    rw [significantBytes, ofDigits_reverse_dropWhile_zero, Nat.mod_eq_of_lt (by omega)]
  rw [EncodeInt64_of_nonneg h0, show ('1' : Char) = normalOrder from rfl, decodeInt64,
    decodeVarUint64_encodedText_normalOrder,
    decodeOrderPreservingVarUint64_hexText (significantBytes_lt _) hlen, hval]
  simp only [Except.ok_bind, pure, Except.pure, if_true]
  have hsmall : n.toNat % 2 ^ 64 = n.toNat := Nat.mod_eq_of_lt (by omega)
  rw [Nat.toUInt64_eq, UInt64.toNat_ofNat', hsmall, Int.toNat_of_nonneg h0,
    toInt64_of_mem (by omega) h]

theorem decodeInt64_EncodeInt64_of_neg {n : Int} (h0 : -2 ^ 63 ≤ n) (h : n < 0) :
    decodeInt64 (EncodeInt64 n) = .ok n := by
  set r := bytesAfterTop (2 ^ 64 - 1 - n.natAbs) with hr
  have hlen : r.length ≤ 8 := length_dropWhile_beDigits_le 255 256 8 _
  have htop := ofDigits_reverse_dropWhile_top (b := 256) (c := 255) rfl 8 (2 ^ 64 - 1 - n.natAbs)
  rw [← bytesAfterTop, ← hr, Nat.mod_eq_of_lt (by omega)] at htop
  have hv : Nat.ofDigits 256 r.reverse < 256 ^ r.length :=
    ofDigits_reverse_lt (by decide) (bytesAfterTop_lt _)
  have hpow : 256 ^ r.length * 256 ^ (8 - r.length) = 2 ^ 64 := by
    rw [← pow_add, Nat.add_sub_cancel' hlen]
    norm_num
  -- the decoder's `2^(8 len) - 1 - v` is the magnitude that was encoded
  have habs : 2 ^ (8 * r.length) - 1 - Nat.ofDigits 256 r.reverse = n.natAbs := by
    have hsplit : 256 ^ r.length * (256 ^ (8 - r.length) - 1) = 2 ^ 64 - 256 ^ r.length := by
      rw [Nat.mul_sub, mul_one, hpow]
    have hP : 256 ^ r.length ≤ 2 ^ 64 := by
      rw [← hpow]
      exact Nat.le_mul_of_pos_right _ (Nat.pow_pos (by decide))
    rw [hsplit] at htop
    rw [pow_mul, show (2 : Nat) ^ 8 = 256 from rfl]
    generalize 256 ^ r.length = P at hv hP htop ⊢
    omega
  rw [EncodeInt64_of_neg h, show ('0' : Char) = reverseOrder from rfl, decodeInt64, ← hr,
    decodeVarUint64_encodedText_reverseOrder,
    decodeReverseOrderVarUint64_hexText (bytesAfterTop_lt _) hlen, habs]
  simp only [Except.ok_bind, pure, Except.pure, if_neg (show reverseOrder ≠ normalOrder by decide)]
  rw [UInt64.toNat_ofNat', Nat.mod_eq_of_lt (by omega), toInt64_neg_toInt64 (by omega) (by omega)]
  congr 1
  omega

/-! ### Order of the encodings -/

/-- Every negative number sorts before every non-negative one: the tags are `'0' < '1'`. -/
theorem toUTF8_encodedText_reverseOrder_lt (d : Nat) (r : List Nat) (d' : Nat) (r' : List Nat) :
    (encodedText reverseOrder d r).toUTF8.toList < (encodedText normalOrder d' r').toUTF8.toList := by
  rw [toUTF8_encodedText (by decide), toUTF8_encodedText (by decide), List.map_cons, List.map_cons]
  exact List.cons_lt_cons_iff.2 (Or.inl (by decide))

theorem EncodeInt64_lt_iff_of_nonneg {a b : Int} (ha : 0 ≤ a) (hb : 0 ≤ b) (ha' : a < 2 ^ 63)
    (hb' : b < 2 ^ 63) :
    a < b ↔ (EncodeInt64 a).toUTF8.toList < (EncodeInt64 b).toUTF8.toList := by
  have hlen : ∀ m, (significantBytes m).length < 16 :=
    fun m => (length_dropWhile_beDigits_le 0 256 8 m).trans_lt (by decide)
  rw [EncodeInt64_of_nonneg ha, EncodeInt64_of_nonneg hb,
    encodedText_lt_iff (by decide) (hlen _) (hlen _) (significantBytes_lt _) (significantBytes_lt _),
    significantBytes, significantBytes,
    ← lt_iff_dropWhile_zero (w := 8) (by decide) (by omega) (by omega)]
  omega

/-- Among negative numbers the order of `MaxUint64 - |n|` is the order of `n`. -/
theorem EncodeInt64_lt_iff_of_neg {a b : Int} (ha : a < 0) (hb : b < 0) (ha' : -2 ^ 63 ≤ a)
    (hb' : -2 ^ 63 ≤ b) :
    a < b ↔ (EncodeInt64 a).toUTF8.toList < (EncodeInt64 b).toUTF8.toList := by
  rw [EncodeInt64_of_neg ha, EncodeInt64_of_neg hb,
    encodedText_lt_iff (by decide) (by omega) (by omega) (bytesAfterTop_lt _) (bytesAfterTop_lt _),
    bytesAfterTop, bytesAfterTop,
    ← lt_iff_dropWhile_top (w := 8) (by decide) (show 255 + 1 = 256 from rfl) (by omega) (by omega)]
  omega

theorem EncodeInt64_lt_iff {a b : Int} (ha : -2 ^ 63 ≤ a) (ha' : a < 2 ^ 63) (hb : -2 ^ 63 ≤ b)
    (hb' : b < 2 ^ 63) :
    a < b ↔ (EncodeInt64 a).toUTF8.toList < (EncodeInt64 b).toUTF8.toList := by
  rcases lt_or_ge a 0 with ha0 | ha0 <;> rcases lt_or_ge b 0 with hb0 | hb0
  case inl.inl => exact EncodeInt64_lt_iff_of_neg ha0 hb0 ha hb
  case inr.inr => exact EncodeInt64_lt_iff_of_nonneg ha0 hb0 ha' hb'
  case inl.inr =>
    refine iff_of_true (by omega) ?_
    rw [EncodeInt64_of_neg ha0, EncodeInt64_of_nonneg hb0]
    exact toUTF8_encodedText_reverseOrder_lt _ _ _ _
  case inr.inl =>
    refine iff_of_false (by omega) (List.lt_asymm ?_)
    rw [EncodeInt64_of_neg hb0, EncodeInt64_of_nonneg ha0]
    exact toUTF8_encodedText_reverseOrder_lt _ _ _ _

theorem EncodeInt64_order_embedding :
    (∀ a b : Int64, a < b ↔ (EncodeInt64 a.toInt).toUTF8.toList < (EncodeInt64 b.toInt).toUTF8.toList) ∧
      ∀ a : Int64, decodeInt64 (EncodeInt64 a.toInt) = .ok a.toInt := by
  refine ⟨fun a b => ?_, fun a => ?_⟩
  · rw [Int64.lt_iff_toInt_lt]
    exact EncodeInt64_lt_iff a.le_toInt a.toInt_lt b.le_toInt b.toInt_lt
  · rcases lt_or_ge a.toInt 0 with h | h
    · exact decodeInt64_EncodeInt64_of_neg a.le_toInt h
    · exact decodeInt64_EncodeInt64_of_nonneg h a.toInt_lt

end Orion.StateIndex
