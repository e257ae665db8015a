import Orion.BlockStore.Store

/-!
# Reading the chunk files back (`internal/blockstore/block_file_stream.go`)

`blockfileStream` reads frames one after another from a location on. `readNextBlockSize` peeks at
up to ten bytes (`binary.MaxVarintLen64`) and decodes the varint of the next frame's length;
`nextBlockWithLocation` then reads that many bytes and decodes the block. At the end of a chunk it
goes on to the next chunk, if there is one and it is not empty. A frame cut short is reported as
`ErrUnexpectedEndOfBlockfile`: when fewer than ten bytes are left and they hold no whole varint,
or when fewer bytes are left than the varint announces. Recovery tells a crash in the middle of a
write by that error.

## What is proved

`blockfileStream_round_trip`: after any run of commits from a new store, a stream started right
after a committed block returns the blocks committed after it, in order, each with the location
the index holds for it, and then no block; when the next block's frame was cut short by a crash,
it returns the same blocks and then `ErrUnexpectedEndOfBlockfile`; and `readBlockFromFile` at the
location of each committed block reads that block. One call of the stream reads a frame
(`next_frame`), moves on to the next chunk (`next_move`), finds the end (`next_end`) or a cut
frame (`next_cut`); `readAllBlocks_follows` carries these along the frames `Follows` describes.
-/

namespace Orion.BlockStore

open Orion.State GoIO

/-- `ErrUnexpectedEndOfBlockfile`. -/
def ErrUnexpectedEndOfBlockfile : String := "unexpected end of blockfile"

/-- `binary.MaxVarintLen64`. -/
def MaxVarintLen64 : Nat := 10

/-- The name of chunk file `c`. -/
def chunkFileName (c : UInt64) : String := "chunk_" ++ toString c

/-- Go's `%#v` of a byte slice. -/
def goSyntaxBytes (b : List UInt8) : String :=
  "[]byte\x7b" ++ ", ".intercalate (b.map fun x => "0x" ++ String.ofList (Nat.toDigits 16 x.toNat)) ++
    "\x7d"

/-- `int64(length)` of a `uint64`. -/
def toInt64 (v : Nat) : Int := if v < 2 ^ 63 then v else (v : Int) - 2 ^ 64

/-- `blockfileStream`: the chunk it reads, its offset there, and how many bytes of the chunk are
left after it. -/
structure BlockfileStream where
  fileChunkNum : UInt64
  currentOffset : Nat
  remainingBytes : Int

/-- `blockAndLocation`. -/
structure BlockAndLocation (Block : Type) where
  block : Block
  fileChunkNum : UInt64
  blockStartOffset : Nat
  blockEndOffset : Nat

/-- `newBlockfileStream`: chunk `startLocation.FileChunkNum`, opened read-only and seeked to
`startLocation.Offset`. -/
def newBlockfileStream (chunks : List Bytes) (startLocation : BlockLocation) :
    Except String BlockfileStream :=
  match chunks[startLocation.fileChunkNum.toNat]? with
  | none =>
    let path := chunkFileName startLocation.fileChunkNum
    .error ("error opening block file " ++ path ++ ": open " ++ path ++
      ": no such file or directory")
  | some file =>
    .ok ⟨startLocation.fileChunkNum, startLocation.offset,
      (file.length : Int) - startLocation.offset⟩

namespace BlockfileStream

/-- `moveToNextFileChunkIfExist`: the next chunk from its start, if it exists and is not empty. -/
def moveToNextFileChunkIfExist (chunks : List Bytes) (st : BlockfileStream) :
    Option BlockfileStream :=
  match chunks[(st.fileChunkNum + 1).toNat]? with
  | none => none
  | some file => if file.length = 0 then none else some ⟨st.fileChunkNum + 1, 0, file.length⟩

/-- `readNextBlockSize`: the varint of the next frame's length, read from the bytes peeked at, and
the stream past it. -/
def readNextBlockSize (chunks : List Bytes) (st : BlockfileStream) :
    Except String (Int × BlockfileStream) :=
  let moreContentAvailable := !decide (st.remainingBytes < MaxVarintLen64)
  let peekBytes : Int :=
    if st.remainingBytes < MaxVarintLen64 then st.remainingBytes else MaxVarintLen64
  let avail := (chunkAt chunks st.fileChunkNum).drop st.currentOffset
  if peekBytes < 0 then
    .error ("error peeking [" ++ toString peekBytes ++
      "] bytes from block file: bufio: negative count")
  else if (avail.length : Int) < peekBytes then
    .error ("error peeking [" ++ toString peekBytes ++ "] bytes from block file: EOF")
  else
    let lenBytes := avail.take peekBytes.toNat
    let (length, n) := DecodeVarint lenBytes
    if n = 0 then
      if !moreContentAvailable then .error ErrUnexpectedEndOfBlockfile
      else .error ("error in decoding varint bytes [" ++ goSyntaxBytes lenBytes ++
        "] representing the block length")
    else
      .ok (toInt64 length,
        { st with remainingBytes := st.remainingBytes - n, currentOffset := st.currentOffset + n })

variable {Block : Type} (codec : BlockCodec Block)

/-- `nextBlockWithLocation` in a chunk with bytes left: the next frame read and its block decoded.
A negative length makes Go's `make` panic. -/
def readFrame (chunks : List Bytes) (st : BlockfileStream) :
    Except String (BlockAndLocation Block × BlockfileStream) := do
  let startOffsetOfNextBlock := st.currentOffset
  let (blockSize, st) ← readNextBlockSize chunks st
  if blockSize > st.remainingBytes then throw ErrUnexpectedEndOfBlockfile
  if blockSize < 0 then throw "runtime error: makeslice: len out of range"
  let blockBytes := ((chunkAt chunks st.fileChunkNum).drop st.currentOffset).take blockSize.toNat
  if blockBytes.length < blockSize.toNat then
    throw ("error while reading block from the file: " ++
      (if blockBytes = [] then "EOF" else "unexpected EOF"))
  let st := { st with
    currentOffset := st.currentOffset + blockSize.toNat
    remainingBytes := st.remainingBytes - blockSize }
  let block ← codec.decode blockBytes
  return (⟨block, st.fileChunkNum, startOffsetOfNextBlock, st.currentOffset⟩, st)

/-- `nextBlockWithLocation`: at the end of a chunk, on to the next one, or no block when there is
none. -/
def nextBlockWithLocation (chunks : List Bytes) (st : BlockfileStream) :
    Except String (Option (BlockAndLocation Block × BlockfileStream)) :=
  if st.remainingBytes = 0 then
    match moveToNextFileChunkIfExist chunks st with
    | none => .ok none
    | some st => some <$> readFrame codec chunks st
  else some <$> readFrame codec chunks st

/-- The stream read to its end, with at most `fuel` calls of `nextBlockWithLocation`: the blocks
returned, and the error that ended it, if one did; `none` when the fuel runs out first. -/
def readAllBlocks (chunks : List Bytes) :
    Nat → BlockfileStream → Option (List (BlockAndLocation Block) × Option String)
  | 0, _ => none
  | fuel + 1, st =>
    match nextBlockWithLocation codec chunks st with
    | .error e => some ([], some e)
    | .ok none => some ([], none)
    | .ok (some (bl, st')) => (readAllBlocks chunks fuel st').map fun r => (bl :: r.1, r.2)

/-! ### One call of the stream -/

variable {chunks : List Bytes}

/-- A whole varint is read from the bytes peeked at, whatever follows it. -/
theorem readNextBlockSize_putUvarint {st : BlockfileStream} {x : UInt64} {rest : Bytes}
    (havail : (chunkAt chunks st.fileChunkNum).drop st.currentOffset = putUvarint x ++ rest)
    (hrem : st.remainingBytes = ((putUvarint x).length + rest.length : Nat))
    (hx : x.toNat < 2 ^ 63) :
    readNextBlockSize chunks st = .ok (x.toNat,
      { st with remainingBytes := st.remainingBytes - (putUvarint x).length,
                currentOffset := st.currentOffset + (putUvarint x).length }) := by
  have hten := length_putUvarint_le_ten x
  have hpos : 0 < (putUvarint x).length := List.length_pos_iff.2 (putUvarint_ne_nil x)
  -- the bytes peeked at hold the whole varint
  have htake : ∀ p : Nat, (putUvarint x).length ≤ p →
      DecodeVarint ((putUvarint x ++ rest).take p) = (x.toNat, (putUvarint x).length) := by
    intro p hp
    rw [List.take_append, List.take_of_length_le hp, DecodeVarint_putUvarint_append]
  have hint : toInt64 x.toNat = x.toNat := by rw [toInt64, if_pos hx]
  have hlen : ((putUvarint x ++ rest).length : Int) = st.remainingBytes := by
    rw [hrem, List.length_append]
  unfold readNextBlockSize
  dsimp only
  rw [havail]
  by_cases hsmall : st.remainingBytes < (MaxVarintLen64 : Int)
  · rw [if_pos hsmall, if_neg (by omega), if_neg (by omega),
      htake _ (by omega), if_neg (by omega), hint]
  · rw [if_neg hsmall, if_neg (by omega), if_neg (by simp only [MaxVarintLen64] at *; omega),
      htake _ (by simp only [MaxVarintLen64] at *; omega), if_neg (by omega), hint]

/-- Fewer bytes than a whole varint, and fewer than ten: the frame was cut short. -/
theorem readNextBlockSize_take_putUvarint {st : BlockfileStream} {x : UInt64} {k : Nat}
    (havail : (chunkAt chunks st.fileChunkNum).drop st.currentOffset = (putUvarint x).take k)
    (hrem : st.remainingBytes = k) (hk : k < (putUvarint x).length) :
    readNextBlockSize chunks st = .error ErrUnexpectedEndOfBlockfile := by
  have hten := length_putUvarint_le_ten x
  have hdec : DecodeVarint ((putUvarint x).take k) =
      ((DecodeVarint ((putUvarint x).take k)).1, 0) :=
    Prod.ext rfl (DecodeVarint_take_putUvarint x k hk)
  have hsmall : st.remainingBytes < (MaxVarintLen64 : Int) := by
    simp only [MaxVarintLen64]
    omega
  unfold readNextBlockSize
  dsimp only
  have hk10 : ¬MaxVarintLen64 ≤ k := by
    simp only [MaxVarintLen64]
    omega
  rw [havail, if_pos hsmall, if_neg (by omega), if_neg (by simp; omega), hrem, Int.toNat_natCast,
    List.take_take, Nat.min_self, hdec]
  simp [hk10]

/-- A whole frame is read as its block, with its location. -/
theorem readFrame_frame {st : BlockfileStream} {b : Block} {rest : Bytes}
    (havail : (chunkAt chunks st.fileChunkNum).drop st.currentOffset = frame codec b ++ rest)
    (hrem : st.remainingBytes = ((frame codec b).length + rest.length : Nat)) :
    readFrame codec chunks st =
      .ok (⟨b, st.fileChunkNum, st.currentOffset, st.currentOffset + (frame codec b).length⟩,
        { st with currentOffset := st.currentOffset + (frame codec b).length,
                  remainingBytes := st.remainingBytes - (frame codec b).length }) := by
  have hx := length_encode_toUInt64 codec b
  have hlt := codec.length_encode_lt b
  have havail' : (chunkAt chunks st.fileChunkNum).drop st.currentOffset =
      putUvarint (codec.encode b).length.toUInt64 ++ (codec.encode b ++ rest) := by
    rw [havail, frame, List.append_assoc]
  have hsize := readNextBlockSize_putUvarint havail'
    (by rw [hrem, frame]; simp only [List.length_append]; omega) (by omega)
  -- the block's bytes follow the varint
  have hbytes : (chunkAt chunks st.fileChunkNum).drop
      (st.currentOffset + (putUvarint (codec.encode b).length.toUInt64).length) =
      codec.encode b ++ rest := by
    rw [← List.drop_drop, havail', List.drop_left]
  unfold readFrame
  rw [hsize, hx]
  simp only [Except.ok_bind]
  rw [if_neg (by simp only [frame, List.length_append] at hrem; omega),
    if_neg (by omega)]
  simp [hbytes, codec.decode_encode, frame, Nat.add_assoc]
  omega

/-- A frame cut short, inside its varint or inside its block, is reported as such. -/
theorem readFrame_cut {st : BlockfileStream} {b : Block} {k : Nat}
    (havail : (chunkAt chunks st.fileChunkNum).drop st.currentOffset = (frame codec b).take k)
    (hrem : st.remainingBytes = k) (hk : k < (frame codec b).length) :
    readFrame codec chunks st = .error ErrUnexpectedEndOfBlockfile := by
  have hx := length_encode_toUInt64 codec b
  have hlt := codec.length_encode_lt b
  unfold readFrame
  by_cases hvar : k < (putUvarint (codec.encode b).length.toUInt64).length
  · -- the cut is inside the varint
    have havail' : (chunkAt chunks st.fileChunkNum).drop st.currentOffset =
        (putUvarint (codec.encode b).length.toUInt64).take k := by
      rw [havail, frame, List.take_append_of_le_length (Nat.le_of_lt hvar)]
    rw [readNextBlockSize_take_putUvarint havail' hrem hvar]
    rfl
  · -- the varint is whole, and fewer bytes follow it than it announces
    have havail' : (chunkAt chunks st.fileChunkNum).drop st.currentOffset =
        putUvarint (codec.encode b).length.toUInt64 ++
          (codec.encode b).take (k - (putUvarint (codec.encode b).length.toUInt64).length) := by
      rw [havail, frame, List.take_append, List.take_of_length_le (by omega)]
    have hfr : (frame codec b).length =
        (putUvarint (codec.encode b).length.toUInt64).length + (codec.encode b).length := by
      rw [frame, List.length_append]
    rw [readNextBlockSize_putUvarint havail' (by rw [hrem, List.length_take]; omega) (by omega), hx]
    simp only [Except.ok_bind]
    rw [if_pos (by omega)]
    rfl

end BlockfileStream

open BlockfileStream

/-- A stream at offset `o` of chunk `c`, with the rest of that chunk left to read. -/
def streamAt (chunks : List Bytes) (c o : Nat) : BlockfileStream :=
  ⟨c.toUInt64, o, ((chunkAt chunks c.toUInt64).length : Int) - o⟩

/-- Where the stream returns a block read at a location. -/
def BlockLocation.streamed {Block : Type} (p : Block × BlockLocation) : BlockAndLocation Block :=
  ⟨p.1, p.2.fileChunkNum, p.2.offset, p.2.offset + p.2.length⟩

variable {Block : Type} (codec : BlockCodec Block) {chunks : List Bytes}

theorem getElem?_of_chunkAt_ne_nil {c : UInt64} (h : chunkAt chunks c ≠ []) :
    chunks[c.toNat]? = some (chunkAt chunks c) := by
  unfold chunkAt at *
  cases hc : chunks[c.toNat]? with
  | none => rw [hc] at h; exact absurd rfl h
  | some file => rfl

/-- A stream at a whole frame reads it. -/
theorem readFrame_streamAt {c o : Nat} {b : Block} {rest : Bytes}
    (hframe : (chunkAt chunks c.toUInt64).drop o = frame codec b ++ rest) :
    readFrame codec chunks (streamAt chunks c o) =
      .ok (⟨b, c.toUInt64, o, o + (frame codec b).length⟩,
        streamAt chunks c (o + (frame codec b).length)) := by
  have hlen : (chunkAt chunks c.toUInt64).length = o + ((frame codec b).length + rest.length) := by
    have := congrArg List.length hframe
    simp only [List.length_drop, List.length_append] at this
    have := frame_ne_nil codec b
    have : 0 < (frame codec b).length := List.length_pos_iff.2 this
    omega
  rw [readFrame_frame codec hframe (by simp only [streamAt]; omega)]
  simp only [streamAt]
  congr 3
  omega

/-- **Reading a frame.** -/
theorem next_frame {c o : Nat} {b : Block} {rest : Bytes}
    (hframe : (chunkAt chunks c.toUInt64).drop o = frame codec b ++ rest) :
    nextBlockWithLocation codec chunks (streamAt chunks c o) =
      .ok (some (⟨b, c.toUInt64, o, o + (frame codec b).length⟩,
        streamAt chunks c (o + (frame codec b).length))) := by
  have hpos : 0 < ((chunkAt chunks c.toUInt64).drop o).length := by
    rw [hframe, List.length_append]
    have := List.length_pos_iff.2 (frame_ne_nil codec b)
    omega
  unfold nextBlockWithLocation
  rw [if_neg (by simp only [streamAt, List.length_drop] at hpos ⊢; omega),
    readFrame_streamAt codec hframe]
  rfl

/-- **Moving on.** At the end of a chunk, a stream goes on to the next one when it is not
empty. -/
theorem next_move {c o : Nat} (hend : (chunkAt chunks c.toUInt64).length = o)
    (hnext : chunkAt chunks (c + 1).toUInt64 ≠ []) :
    nextBlockWithLocation codec chunks (streamAt chunks c o) =
      some <$> readFrame codec chunks (streamAt chunks (c + 1) 0) := by
  have hfile := getElem?_of_chunkAt_ne_nil hnext
  unfold nextBlockWithLocation moveToNextFileChunkIfExist
  rw [if_pos (by simp only [streamAt]; omega)]
  simp only [streamAt, toUInt64_add_one, hfile, List.length_eq_zero_iff, hnext, if_false,
    Int.natCast_zero, Int.sub_zero]

/-- **The end.** At the end of a chunk with no next chunk, or an empty one, there is no block. -/
theorem next_end {c o : Nat} (hend : (chunkAt chunks c.toUInt64).length = o)
    (hnext : chunkAt chunks (c + 1).toUInt64 = []) :
    nextBlockWithLocation codec chunks (streamAt chunks c o) = .ok none := by
  unfold nextBlockWithLocation moveToNextFileChunkIfExist
  rw [if_pos (by simp only [streamAt]; omega)]
  simp only [streamAt, toUInt64_add_one]
  unfold chunkAt at hnext
  cases hc : chunks[(c + 1).toUInt64.toNat]? with
  | none => rfl
  | some file =>
    rw [hc] at hnext
    simp [show file = [] from hnext]

/-- A cut frame in a chunk with bytes left. -/
theorem next_cut {c o : Nat} {b : Block} {m : Nat}
    (hcut : (chunkAt chunks c.toUInt64).drop o = (frame codec b).take m) (hm0 : 0 < m)
    (hm : m < (frame codec b).length) :
    nextBlockWithLocation codec chunks (streamAt chunks c o) = .error ErrUnexpectedEndOfBlockfile := by
  have hlen : (chunkAt chunks c.toUInt64).length - o = m := by
    rw [← List.length_drop, hcut, List.length_take]
    omega
  have hrem : (streamAt chunks c o).remainingBytes = m := by
    simp only [streamAt]
    omega
  unfold nextBlockWithLocation
  rw [if_neg (by omega), readFrame_cut codec hcut hrem hm]
  rfl

/-- `newBlockfileStream` at a chunk that holds bytes. -/
theorem newBlockfileStream_streamAt {c o len : Nat} (hne : chunkAt chunks c.toUInt64 ≠ []) :
    newBlockfileStream chunks ⟨c.toUInt64, o, len⟩ = .ok (streamAt chunks c o) := by
  unfold newBlockfileStream
  rw [getElem?_of_chunkAt_ne_nil hne]
  rfl

/-! ### Runs of the stream -/

/-- **Reading frames that follow each other**, one call of the stream for each. -/
theorem readAllBlocks_follows {c o c' o' : Nat} {placed : List (Block × BlockLocation)}
    (h : Follows codec chunks c o placed c' o') (fuel : Nat) :
    readAllBlocks codec chunks (placed.length + fuel) (streamAt chunks c o) =
      (readAllBlocks codec chunks fuel (streamAt chunks c' o')).map
        fun r => (placed.map BlockLocation.streamed ++ r.1, r.2) := by
  induction h with
  | nil => simp
  | @here c o b rest c' o' hf _ ih =>
    obtain ⟨t, ht⟩ := hf
    rw [List.length_cons, Nat.add_right_comm, readAllBlocks, next_frame codec ht.symm]
    simp only [ih, Option.map_map]
    rfl
  | @next c o b rest c' o' hend hf _ ih =>
    obtain ⟨t, ht⟩ := hf
    have hne : chunkAt chunks (c + 1).toUInt64 ≠ [] := by
      rw [← ht]
      exact List.append_ne_nil_of_left_ne_nil (frame_ne_nil codec b) t
    have hread : readFrame codec chunks (streamAt chunks (c + 1) 0) =
        .ok (⟨b, (c + 1).toUInt64, 0, (frame codec b).length⟩,
          streamAt chunks (c + 1) (frame codec b).length) := by
      rw [readFrame_streamAt codec (by rw [List.drop_zero]; exact ht.symm), Nat.zero_add]
    rw [List.length_cons, Nat.add_right_comm, readAllBlocks, next_move codec hend hne, hread]
    simp only [Functor.map, Except.map, ih, Option.map_map]
    -- the location read back ends at `0 + length`, which is the frame's length
    congr 1
    funext r
    simp [BlockLocation.streamed]

/-- Frames that follow each other up to a point where the stream stops are read in order, and then
the stream stops as it does there. -/
theorem readAllBlocks_follows_stop {c o c' o' : Nat} {placed : List (Block × BlockLocation)}
    (h : Follows codec chunks c o placed c' o') {stop : Option String}
    (hstop : ∀ fuel, readAllBlocks codec chunks (fuel + 1) (streamAt chunks c' o') = some ([], stop))
    {fuel : Nat} (hfuel : placed.length < fuel) :
    readAllBlocks codec chunks fuel (streamAt chunks c o) =
      some (placed.map BlockLocation.streamed, stop) := by
  obtain ⟨k, rfl⟩ : ∃ k, fuel = placed.length + (k + 1) := ⟨fuel - placed.length - 1, by omega⟩
  rw [readAllBlocks_follows codec h, hstop]
  simp

/-- A stream started right after frame `i` of frames laid from the start of chunk `0` reads the
frames after it, each at its location, and then stops as it does at their end. -/
theorem stream_after {cE oE : Nat} {placed : List (Block × BlockLocation)}
    (h : Follows codec chunks 0 0 placed cE oE) {stop : Option String}
    (hstop : ∀ fuel, readAllBlocks codec chunks (fuel + 1) (streamAt chunks cE oE) = some ([], stop))
    {i : Nat} (hi : i < placed.length) :
    ∃ st, newBlockfileStream chunks
        ⟨placed[i].2.fileChunkNum, placed[i].2.offset + placed[i].2.length, 0⟩ = .ok st ∧
      ∀ fuel, placed.length - i ≤ fuel →
        readAllBlocks codec chunks fuel st = some ((placed.drop (i + 1)).map BlockLocation.streamed, stop) := by
  obtain ⟨c', o', hc, ho, ⟨t, ht⟩, hrest⟩ := h.after hi
  have hne : chunkAt chunks placed[i].2.fileChunkNum ≠ [] := by
    intro hnil
    rw [hnil, List.drop_nil] at ht
    exact frame_ne_nil codec _ (List.append_eq_nil_iff.1 ht).1
  rw [hc] at hne
  refine ⟨streamAt chunks c' o', by rw [hc, ho]; exact newBlockfileStream_streamAt hne, ?_⟩
  intro fuel hfuel
  exact readAllBlocks_follows_stop codec hrest hstop (by rw [List.length_drop]; omega)

namespace FramesLaid

variable {codec} {s : Store} {placed : List (Block × BlockLocation)}

/-- After the last frame of a laid-out store the stream finds no block. -/
theorem next_last (h : FramesLaid codec s placed) (hn : placed.length < 2 ^ 64) :
    nextBlockWithLocation codec s.chunks
      (streamAt s.chunks (s.chunks.length - 1) s.currentOffset) = .ok none := by
  have hL := h.length_chunks
  have hpos : 0 < s.chunks.length := List.length_pos_iff.2 h.chunks_ne
  refine next_end codec h.length_last ?_
  rw [Nat.sub_add_cancel hpos]
  rcases Nat.lt_or_ge s.chunks.length (2 ^ 64) with h64 | h64
  · -- the chunk after the last does not exist
    unfold chunkAt
    rw [toNat_toUInt64_of_lt h64, List.getElem?_eq_none (Nat.le_refl _)]
    rfl
  · -- with 2^64 chunks the number after the last is chunk 0's, which every frame moved past
    have h0 := h.follows.first_ends (by omega) (by omega)
    rw [show s.chunks.length = 2 ^ 64 by omega]
    exact List.length_eq_zero_iff.1 h0

/-- **A crash in the next commit.** The frames laid before stay where they were, and after them
the stream finds the cut frame, in the current chunk or at the start of the next. -/
theorem crash (h : FramesLaid codec s placed) (hn : placed.length + 1 < 2 ^ 64) {b : Block}
    {m : Nat} (hm0 : 0 < m) (hm : m < (frame codec b).length) :
    Follows codec (s.crashInCommit codec b m) 0 0 placed (s.chunks.length - 1) s.currentOffset ∧
      nextBlockWithLocation codec (s.crashInCommit codec b m)
        (streamAt (s.crashInCommit codec b m) (s.chunks.length - 1) s.currentOffset) =
        .error ErrUnexpectedEndOfBlockfile := by
  have hL := h.length_chunks
  have hpos : 0 < s.chunks.length := List.length_pos_iff.2 h.chunks_ne
  have hcut : (frame codec b).take m ≠ [] := by
    rw [ne_eq, List.take_eq_nil_iff, not_or]
    exact ⟨by omega, frame_ne_nil codec b⟩
  unfold Store.crashInCommit Store.chunkFor
  split
  · -- the cut frame went to the end of the current chunk
    rw [h.chunks_appendBlock (by omega)]
    refine ⟨h.follows_set_last (by omega) _, next_cut codec ?_ hm0 hm⟩
    rw [chunkAt_set_self (by omega) (by omega), ← h.length_last, List.drop_left]
  · -- the cut frame started the next chunk
    rw [h.chunks_moveToNextFileChunk_appendBlock hn]
    have hnext : chunkAt (s.chunks ++ [(frame codec b).take m]) (s.chunks.length - 1 + 1).toUInt64 =
        (frame codec b).take m := by
      rw [Nat.sub_add_cancel hpos, chunkAt_append_length (by omega)]
    have hend : (chunkAt (s.chunks ++ [(frame codec b).take m]) (s.chunks.length - 1).toUInt64).length =
        s.currentOffset := by
      rw [chunkAt_append_of_lt (by omega) (by omega), h.length_last]
    refine ⟨h.follows_append_chunk (by omega) _, ?_⟩
    rw [next_move codec hend (by rw [hnext]; exact hcut),
      readFrame_cut codec (by simp only [streamAt]; rw [hnext, List.drop_zero])
        (by simp only [streamAt]; rw [hnext, List.length_take]; omega) hm]
    rfl

end FramesLaid

/-! ### The round trip -/

/-- **Block file framing round trip.** After a run of commits of `blocks` from a new store, each
committed block has a location (`placed` pairs them), which the index holds for it and at which
`readBlockFromFile` reads it. A stream started right after any committed block returns the blocks
committed after it, in order, each at its location, and then no block; after a crash that cut the
next block's frame short, it returns the same blocks and then `ErrUnexpectedEndOfBlockfile`. -/
theorem blockfileStream_round_trip {blocks : List Block} {s : Store} (hn : blocks.length < 2 ^ 64)
    (hrun : openNewStore.commitAll codec blocks = .ok s) :
    ∃ placed : List (Block × BlockLocation), placed.map Prod.fst = blocks ∧
      ∀ i (hi : i < placed.length),
        getLocation s.blockIndex (codec.number placed[i].1) = .ok placed[i].2 ∧
        (readBlockFromFile codec (chunkAt s.chunks placed[i].2.fileChunkNum)
          placed[i].2.offset).1 = .ok placed[i].1 ∧
        (∃ st, newBlockfileStream s.chunks
            ⟨placed[i].2.fileChunkNum, placed[i].2.offset + placed[i].2.length, 0⟩ = .ok st ∧
          ∀ fuel, placed.length - i ≤ fuel →
            readAllBlocks codec s.chunks fuel st =
              some ((placed.drop (i + 1)).map BlockLocation.streamed, none)) ∧
        (blocks.length + 1 < 2 ^ 64 → ∀ b m, 0 < m → m < (frame codec b).length →
          ∃ st, newBlockfileStream (s.crashInCommit codec b m)
              ⟨placed[i].2.fileChunkNum, placed[i].2.offset + placed[i].2.length, 0⟩ = .ok st ∧
            ∀ fuel, placed.length - i ≤ fuel →
              readAllBlocks codec (s.crashInCommit codec b m) fuel st =
                some ((placed.drop (i + 1)).map BlockLocation.streamed,
                  some ErrUnexpectedEndOfBlockfile)) := by
  obtain ⟨placed, hl, hmap⟩ := commitAll_laid codec (laid_openNewStore codec)
    (by rw [List.length_nil, Nat.zero_add]; exact hn) hrun
  rw [List.nil_append] at hl
  have hlen : placed.length = blocks.length := by rw [← hmap, List.length_map]
  refine ⟨placed, hmap, fun i hi => ⟨hl.getLocation_eq (by omega) hi, ?_, ?_, ?_⟩⟩
  · obtain ⟨_, _, _, _, ⟨t, ht⟩, _⟩ := hl.follows.after hi
    exact readBlockFromFile_frame codec ht.symm
  · exact stream_after codec hl.follows
      (fun fuel => by rw [readAllBlocks, hl.next_last (by omega)]) hi
  · intro hn1 b m hm0 hm
    obtain ⟨hfollows, hnext⟩ := hl.crash (by omega) hm0 hm
    exact stream_after codec hfollows (fun fuel => by rw [readAllBlocks, hnext]) hi

/-- Blocks of one byte, which is both their number and their encoding. -/
def byteCodec : BlockCodec UInt8 where
  number b := b.toUInt64
  encode b := [b]
  decode
    | [b] => .ok b
    | _ => .error "not a block"
  decode_encode _ := rfl
  encode_ne_nil _ := List.cons_ne_nil _ _
  length_encode_lt _ := by simp

theorem blockfileStream_round_trip_two_blocks :
    ∃ s, openNewStore.commitAll byteCodec [1, 2] = .ok s ∧
    ∃ placed : List (UInt8 × BlockLocation), placed.map Prod.fst = [1, 2] ∧
      ∀ i (hi : i < placed.length),
        getLocation s.blockIndex (byteCodec.number placed[i].1) = .ok placed[i].2 ∧
        (readBlockFromFile byteCodec (chunkAt s.chunks placed[i].2.fileChunkNum)
          placed[i].2.offset).1 = .ok placed[i].1 ∧
        (∃ st, newBlockfileStream s.chunks
            ⟨placed[i].2.fileChunkNum, placed[i].2.offset + placed[i].2.length, 0⟩ = .ok st ∧
          ∀ fuel, placed.length - i ≤ fuel →
            readAllBlocks byteCodec s.chunks fuel st =
              some ((placed.drop (i + 1)).map BlockLocation.streamed, none)) ∧
        ([1, 2].length + 1 < 2 ^ 64 → ∀ b m, 0 < m → m < (frame byteCodec b).length →
          ∃ st, newBlockfileStream (s.crashInCommit byteCodec b m)
              ⟨placed[i].2.fileChunkNum, placed[i].2.offset + placed[i].2.length, 0⟩ = .ok st ∧
            ∀ fuel, placed.length - i ≤ fuel →
              readAllBlocks byteCodec (s.crashInCommit byteCodec b m) fuel st =
                some ((placed.drop (i + 1)).map BlockLocation.streamed,
                  some ErrUnexpectedEndOfBlockfile)) := by
  have hrun : openNewStore.commitAll byteCodec [1, 2] =
      .ok ⟨[[1, 1, 1, 2]], 0, 4, 4, 2, [(1, ⟨0, 0, 2⟩), (2, ⟨0, 2, 2⟩)]⟩ := by
    simp [Store.commitAll, Store.Commit, frame, byteCodec, putUvarint, Store.chunkFor,
      Store.canCurrentFileChunkHold, Store.appendBlock, Store.storeMetadataInDB, openNewStore,
      writeAt, chunkAt, putIndex, chunkSizeLimit]
  exact ⟨_, hrun, blockfileStream_round_trip byteCodec (by decide) hrun⟩

end Orion.BlockStore
