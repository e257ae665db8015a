import Orion.BlockStore.Stream

/-!
# Opening an existing block store (`internal/blockstore/open.go`)

`openExistingStore` opens the last chunk file for writing, takes its size as the offset where the
next frame goes, and calls `recover`, which brings the store back in line with its files after a
crash in `Commit`. `recover` reads the last entry of the block index and starts a
`blockfileStream` right after that block's frame, or at the start of the current chunk when the
index is empty. The stream's first answer tells three scenarios apart:

1. no block: the index is in sync with the files. The last indexed block's metadata is stored
   again, or, when the crash came right after a new chunk was created, that chunk is removed.
2. a block, and nothing after it: its frame was written but not indexed, and it is indexed now.
3. `ErrUnexpectedEndOfBlockfile`: a frame was cut short. The chunk is truncated to the end of the
   last indexed frame, or the new chunk that holds the cut frame is removed.

## The model

The store of `Store.lean`. The chunk directory is a list of files without gaps, and the chunk that
recovery removes is always the last one. Where Go dereferences a nil pointer it panics; the model
returns the runtime's message as an error.

## What is proved

`recover_panics_after_first_frame_cut`: when the very first `Commit` of a new store crashes after a
proper, non-empty part of the block's frame reached the file, the store cannot be opened again:
the index is empty, so there is no last indexed location, the stream finds the cut frame, and
Scenario 3 dereferences the missing location.
-/

namespace Orion.BlockStore

open Orion.State GoIO BlockfileStream

/-- The message of Go's panic on a nil pointer dereference. -/
def nilPointerDereference : String :=
  "runtime error: invalid memory address or nil pointer dereference"

/-- `getLastBlockLocationInIndex`: the number and location of the index's last entry (its keys
sort as the numbers do), or `(0, nil)` when the index is empty. -/
def getLastBlockLocationInIndex (index : List (UInt64 × BlockLocation)) :
    UInt64 × Option BlockLocation :=
  match index.getLast? with
  | some (blockNumber, blockLocation) => (blockNumber, some blockLocation)
  | none => (0, none)

/-- `fileops.RemoveAll` of chunk `c`, which recovery only calls on the last chunk. -/
def removeFileChunk (chunks : List Bytes) (c : UInt64) : List Bytes :=
  if c.toNat + 1 = chunks.length then chunks.dropLast else chunks

variable {Block : Type} (codec : BlockCodec Block)

namespace Store

/-- `moveToChunk`: chunk `chunkNum` opened for writing, with the offset of the next frame at `0`. -/
def moveToChunk (s : Store) (chunkNum : UInt64) : Store :=
  { s with
    chunks := openFileChunk s.chunks chunkNum
    currentChunkNum := chunkNum
    currentOffset := 0
    filePos := 0 }

/-- `recover`. -/
def recover (s : Store) : Except String Store :=
  let (lastBlockNumberInIndex, lastBlockLocation) := getLastBlockLocationInIndex s.blockIndex
  let startBlockLocation : BlockLocation :=
    match lastBlockLocation with
    | none => ⟨s.currentChunkNum, 0, 0⟩
    | some l => ⟨l.fileChunkNum, l.offset + l.length, 0⟩
  match newBlockfileStream s.chunks startBlockLocation with
  | .error e => .error e
  | .ok chunkFileStream =>
    match nextBlockWithLocation codec s.chunks chunkFileStream with
    -- Scenario 1
    | .ok none =>
      if lastBlockNumberInIndex = 0 then .ok s
      else
        let s := { s with lastCommittedBlockNum := lastBlockNumberInIndex }
        match lastBlockLocation with
        | none => .error nilPointerDereference
        | some l =>
          if s.currentChunkNum - 1 = l.fileChunkNum then
            let moved := s.moveToChunk l.fileChunkNum
            .ok { moved with chunks := removeFileChunk moved.chunks s.currentChunkNum }
          else
            let s := { s with currentOffset := l.offset + l.length }
            match s.Get codec lastBlockNumberInIndex with
            | (.error e, _) => .error e
            | (.ok block, s) => .ok (s.storeMetadataInDB (codec.number block) l)
    -- Scenario 2
    | .ok (some (nextBlockAndLocation, chunkFileStream)) =>
      match nextBlockWithLocation codec s.chunks chunkFileStream with
      | .error e => .error e
      | .ok (some _) =>
        .error ("the block store can have exactly one fully committed block " ++
          "which is not indexed or exaclty one partially written block. Any other case is " ++
          "an unexpected behavior")
      | .ok none =>
        let location : BlockLocation := ⟨nextBlockAndLocation.fileChunkNum,
          nextBlockAndLocation.blockStartOffset,
          nextBlockAndLocation.blockEndOffset - nextBlockAndLocation.blockStartOffset⟩
        let s := s.storeMetadataInDB (codec.number nextBlockAndLocation.block) location
        .ok { s with
          lastCommittedBlockNum := codec.number nextBlockAndLocation.block
          currentOffset := nextBlockAndLocation.blockEndOffset }
    | .error e =>
      -- Scenario 3
      if e = ErrUnexpectedEndOfBlockfile then
        let s := { s with lastCommittedBlockNum := lastBlockNumberInIndex }
        match lastBlockLocation with
        | none => .error nilPointerDereference
        | some l =>
          let s := { s with currentOffset := l.offset + l.length }
          if s.currentChunkNum - 1 = l.fileChunkNum then
            let moved := s.moveToChunk l.fileChunkNum
            .ok { moved with chunks := removeFileChunk moved.chunks s.currentChunkNum }
          else
            -- `fileops.Truncate` cuts the current chunk and seeks the handle to the new end
            .ok { s with
              chunks := s.chunks.set s.currentChunkNum.toNat
                (truncate (chunkAt s.chunks s.currentChunkNum) s.currentOffset)
              filePos := s.currentOffset }
      else .error ("error while recovering block store: " ++ e)

end Store

/-- `openExistingStore` on the chunk files and the block index left on disk: the last chunk
(`findAndOpenLastFileChunk`, numbered `len(files) - 1`) opened for writing, its size as the offset
of the next frame, nothing committed yet, then `recover`. -/
def openExistingStore (chunks : List Bytes) (blockIndex : List (UInt64 × BlockLocation)) :
    Except String Store :=
  let currentChunkNum := chunks.length.toUInt64 - 1
  let chunks := openFileChunk chunks currentChunkNum
  Store.recover codec ⟨chunks, currentChunkNum, (chunkAt chunks currentChunkNum).length, 0, 0,
    blockIndex⟩

/-! ### A cut frame and an empty index -/

/-- With an empty index and a frame cut short at the start of the last chunk, `recover` takes
Scenario 3 and dereferences the location of a last indexed block that does not exist. -/
theorem openExistingStore_of_cut_frame {pre : List Bytes} {b : Block} {m : Nat}
    (hpre : pre.length + 1 < 2 ^ 64) (hm0 : 0 < m) (hm : m < (frame codec b).length) :
    openExistingStore codec (pre ++ [(frame codec b).take m]) [] = .error nilPointerDereference := by
  have hcur : (pre ++ [(frame codec b).take m]).length.toUInt64 - 1 = pre.length.toUInt64 := by
    rw [List.length_append, List.length_singleton, ← toUInt64_add_one, UInt64.add_sub_cancel]
  have hopen : openFileChunk (pre ++ [(frame codec b).take m]) pre.length.toUInt64 =
      pre ++ [(frame codec b).take m] := by
    rw [openFileChunk, if_pos (by rw [toNat_toUInt64_of_lt (by omega)]; simp)]
  have hlast : chunkAt (pre ++ [(frame codec b).take m]) pre.length.toUInt64 =
      (frame codec b).take m := chunkAt_append_length (by omega)
  have hcut : (frame codec b).take m ≠ [] := by
    rw [ne_eq, List.take_eq_nil_iff, not_or]
    exact ⟨by omega, frame_ne_nil codec b⟩
  -- the stream starts at the cut frame and finds it cut
  have hstream : newBlockfileStream (pre ++ [(frame codec b).take m]) ⟨pre.length.toUInt64, 0, 0⟩ =
      .ok (streamAt (pre ++ [(frame codec b).take m]) pre.length 0) :=
    newBlockfileStream_streamAt (by rw [hlast]; exact hcut)
  have hnext : nextBlockWithLocation codec (pre ++ [(frame codec b).take m])
      (streamAt (pre ++ [(frame codec b).take m]) pre.length 0) = .error ErrUnexpectedEndOfBlockfile :=
    next_cut codec (by rw [hlast, List.drop_zero]) hm0 hm
  unfold openExistingStore Store.recover
  simp only [hcur, hopen, getLastBlockLocationInIndex, List.getLast?_nil, hstream, hnext]
  rfl

/-- The files after a crash in the first `Commit` of a new store: the cut frame is the last chunk,
after at most the empty `chunk_0`. -/
theorem crashInCommit_openNewStore (b : Block) (m : Nat) :
    ∃ pre : List Bytes, pre.length ≤ 1 ∧
      openNewStore.crashInCommit codec b m = pre ++ [(frame codec b).take m] := by
  have h := (laid_openNewStore codec).toFramesLaid
  unfold Store.crashInCommit Store.chunkFor
  split
  · -- the frame goes to `chunk_0`, which is empty
    refine ⟨[], Nat.zero_le _, ?_⟩
    rw [h.chunks_appendBlock (by rw [List.length_nil]; decide)]
    rfl
  · -- the frame goes to a new `chunk_1`
    exact ⟨[[]], Nat.le_refl _, h.chunks_moveToNextFileChunk_appendBlock
      (by rw [List.length_nil]; decide) _ _⟩

/-- **Recovery after a crash in the first commit.** When the first `Commit` of a new store stops
after a proper, non-empty part of the frame reached the file, opening the store again panics. -/
theorem recover_panics_after_first_frame_cut {b : Block} {m : Nat} (hm0 : 0 < m)
    (hm : m < (frame codec b).length) :
    openExistingStore codec (openNewStore.crashInCommit codec b m) [] =
      .error nilPointerDereference := by
  obtain ⟨pre, hpre, hcrash⟩ := crashInCommit_openNewStore codec b m
  rw [hcrash]
  exact openExistingStore_of_cut_frame codec (by omega) hm0 hm

theorem recover_panics_after_first_frame_cut_of_one_byte :
    0 < 1 ∧ 1 < (frame byteCodec 1).length ∧
      openExistingStore byteCodec (openNewStore.crashInCommit byteCodec 1 1) [] =
        .error nilPointerDereference := by
  have hlen : 1 < (frame byteCodec 1).length := by simp [frame, byteCodec, putUvarint]
  exact ⟨Nat.one_pos, hlen, recover_panics_after_first_frame_cut byteCodec Nat.one_pos hlen⟩

end Orion.BlockStore
