import Orion.Lib.Except
import Orion.Lib.GoIO
import Orion.State.Proof

/-!
# The block store's files (`internal/blockstore`: `open.go`, `commit_and_query.go`)

`Commit` appends each block to a chunk file as a frame, the varint of the length of the block's
encoding (`snappy.Encode(proto.Marshal(block))`) followed by the encoding, and stores the frame's
location (chunk number, offset, length) in the block index under the block's number. A chunk
holds less than `chunkSizeLimit` bytes: a frame that would pass the limit goes to a new chunk
(`moveToNextFileChunk`). `Get` finds a block's location in the index and reads its frame back
(`readBlockFromFile`).

## The model

A block is of any type, with a `BlockCodec`: its number, its encoding, and a decoding that reads
the encoding back. The store is its chunk files, the in-memory state of `Store` and the block
index. The chunk directory holds `chunk_0`, `chunk_1`, ... without gaps, as the store makes it
(it only ever creates the chunk after the last and removes the last), so it is a list of files.
The store keeps the current chunk open for writing; `filePos` is that handle's IO offset, where
`Write` puts the bytes (the file is opened without `O_APPEND`). `Get` on a block of the current
chunk seeks that same handle and reads through a `bufio.Reader`, which moves the offset.

The block index is a LevelDB keyed by `encodeOrderPreservingVarUint64(number)`, whose byte order
is the numbers' order; it is a list of entries sorted by number. The block header and transaction
validation databases, which `storeMetadataInDB` also writes, are not modelled. File operations
do not fail, and offsets, which Go keeps in `int64`, are natural numbers.

## What is proved

Over every run of commits from a new store (`commitAll_laid`), the frames of the committed blocks
lie one after another from the start of chunk `0`, each at the location the index holds for it,
a chunk ending where its last frame ends (`Laid`, `Follows`). `readBlockFromFile_frame`: the frame
at a location is read back as its block.
-/

namespace Orion.BlockStore

open Orion.State GoIO

/-- What the block store needs of a block: its number, its encoding, and the decoding that reads
the encoding back. -/
structure BlockCodec (Block : Type) where
  /-- `block.GetHeader().GetBaseHeader().GetNumber()`. -/
  number : Block → UInt64
  /-- `snappy.Encode(nil, proto.Marshal(block))`. -/
  encode : Block → Bytes
  /-- `snappy.Decode`, then `proto.Unmarshal`, with the errors the store wraps them in. -/
  decode : Bytes → Except String Block
  decode_encode : ∀ b, decode (encode b) = .ok b
  /-- Snappy writes the length of what it encodes first. -/
  encode_ne_nil : ∀ b, encode b ≠ []
  /-- The length of a Go slice is an `int`. -/
  length_encode_lt : ∀ b, (encode b).length < 2 ^ 63

/-- `BlockLocation`. -/
structure BlockLocation where
  fileChunkNum : UInt64
  offset : Nat
  length : Nat
  deriving DecidableEq, Repr

/-- The block store: its chunk files, the chunk open for writing with the offset where the next
frame goes and the handle's IO offset, the number of the last committed block, and the block
index. -/
structure Store where
  chunks : List Bytes
  currentChunkNum : UInt64
  currentOffset : Nat
  filePos : Nat
  lastCommittedBlockNum : UInt64
  blockIndex : List (UInt64 × BlockLocation)

/-- `chunkSizeLimit`. -/
def chunkSizeLimit : Nat := 64 * 1024 * 1024

/-- `bufio`'s default buffer size. -/
def bufioSize : Nat := 4096

/-- The contents of chunk file `c`; a missing file reads as empty. -/
def chunkAt (chunks : List Bytes) (c : UInt64) : Bytes := (chunks[c.toNat]?).getD []

/-- `openFileChunk`, which opens chunk `c` for reading and writing and creates it if it does not
exist: in a directory without gaps, the chunk after the last. -/
def openFileChunk (chunks : List Bytes) (c : UInt64) : List Bytes :=
  if c.toNat < chunks.length then chunks else chunks ++ [[]]

/-- The store `openNewStore` opens: an empty `chunk_0` and nothing committed. -/
def openNewStore : Store := ⟨[[]], 0, 0, 0, 0, []⟩

/-- `storeIndexForBlock`'s `Put`: the index with `number`'s entry set. -/
def putIndex : List (UInt64 × BlockLocation) → UInt64 → BlockLocation →
    List (UInt64 × BlockLocation)
  | [], k, v => [(k, v)]
  | (k', v') :: rest, k, v =>
    if k < k' then (k, v) :: (k', v') :: rest
    else if k = k' then (k, v) :: rest
    else (k', v') :: putIndex rest k v

/-- `getLocation`. -/
def getLocation (index : List (UInt64 × BlockLocation)) (blockNumber : UInt64) :
    Except String BlockLocation :=
  match index.lookup blockNumber with
  | some location => .ok location
  | none => .error ("block not found: " ++ toString blockNumber)

variable {Block : Type} (codec : BlockCodec Block)

/-- The frame `Commit` writes for a block: `binary.PutUvarint` of the length of its encoding,
then the encoding. -/
def frame (b : Block) : Bytes :=
  putUvarint (codec.encode b).length.toUInt64 ++ codec.encode b

namespace Store

/-- `canCurrentFileChunkHold`. -/
def canCurrentFileChunkHold (s : Store) (toBeAddedBytesLength : Nat) : Bool :=
  s.currentOffset + toBeAddedBytesLength < chunkSizeLimit

/-- `moveToNextFileChunk`: the next chunk opened for writing, from its start. -/
def moveToNextFileChunk (s : Store) : Store :=
  { s with
    chunks := openFileChunk s.chunks (s.currentChunkNum + 1)
    currentChunkNum := s.currentChunkNum + 1
    currentOffset := 0
    filePos := 0 }

/-- The chunk a frame of `len` bytes goes to: the current one if it can hold it, else the next. -/
def chunkFor (s : Store) (len : Nat) : Store :=
  if s.canCurrentFileChunkHold len then s else s.moveToNextFileChunk

/-- `appendBlock`: the frame written at the current chunk's IO offset; its location is where the
store expected the chunk to end. -/
def appendBlock (s : Store) (number : UInt64) (content : Bytes) : Store × BlockLocation :=
  ({ s with
      chunks := s.chunks.set s.currentChunkNum.toNat
        (writeAt (chunkAt s.chunks s.currentChunkNum) s.filePos content)
      currentOffset := s.currentOffset + content.length
      filePos := s.filePos + content.length
      lastCommittedBlockNum := number },
    ⟨s.currentChunkNum, s.currentOffset, content.length⟩)

/-- `storeMetadataInDB`, of which the model keeps the block index. -/
def storeMetadataInDB (s : Store) (number : UInt64) (location : BlockLocation) : Store :=
  { s with blockIndex := putIndex s.blockIndex number location }

/-- `Commit`. -/
def Commit (s : Store) (block : Block) : Except String Store :=
  let blockNumber := codec.number block
  if blockNumber ≠ s.lastCommittedBlockNum + 1 then
    .error ("expected block number [" ++ toString (s.lastCommittedBlockNum + 1) ++
      "] but received [" ++ toString blockNumber ++ "]")
  else
    let content := frame codec block
    let (s, blockLocation) := (s.chunkFor content.length).appendBlock blockNumber content
    .ok (s.storeMetadataInDB blockNumber blockLocation)

/-- Commits of several blocks, in order. -/
def commitAll (s : Store) (blocks : List Block) : Except String Store :=
  blocks.foldlM (fun s b => s.Commit codec b) s

/-- The chunk files after a crash in `Commit s block` once the first `m` bytes of the block's
frame reached the file: the move to the next chunk done if the frame needed one, the write cut
short, nothing stored in the databases. -/
def crashInCommit (s : Store) (block : Block) (m : Nat) : List Bytes :=
  ((s.chunkFor (frame codec block).length).appendBlock (codec.number block)
    ((frame codec block).take m)).1.chunks

/-- `Height`. -/
def Height (s : Store) : UInt64 := s.lastCommittedBlockNum

end Store

/-- `readBlockFromFile` on a file seeked to `offset`: the block, and where the reads of its
`bufio.Reader` leave the file's IO offset. A length too large to allocate, on which Go panics,
reads as running out of bytes. -/
def readBlockFromFile (file : Bytes) (offset : Nat) : Except String Block × Nat :=
  let avail := file.drop offset
  match ReadUvarint avail with
  | .error e =>
    (.error ("error while reading the length of the stored block: " ++ e),
      offset + min bufioSize avail.length)
  | .ok (blockSize, k) =>
    let buf := (avail.drop k).take blockSize
    let pos := offset + bufioReadFullEnd bufioSize avail.length k blockSize
    if buf.length < blockSize then
      (.error ("error while reading block from the file: " ++
        (if buf = [] then "EOF" else "unexpected EOF")), pos)
    else (codec.decode buf, pos)

namespace Store

/-- `Get`. A block of the current chunk is read through the store's own handle, whose IO offset
the read moves; `currentOffset` is put back. Another chunk is opened, and created if missing. -/
def Get (s : Store) (blockNumber : UInt64) : Except String Block × Store :=
  if blockNumber > s.lastCommittedBlockNum then
    (.error (if s.lastCommittedBlockNum = 0 then "block store is empty"
      else "requested block number [" ++ toString blockNumber ++
        "] cannot be greater than the last committed block number [" ++
        toString s.lastCommittedBlockNum ++ "]"), s)
  else
    match getLocation s.blockIndex blockNumber with
    | .error e => (.error e, s)
    | .ok location =>
      if s.currentChunkNum = location.fileChunkNum then
        let (r, pos) := readBlockFromFile codec (chunkAt s.chunks location.fileChunkNum)
          location.offset
        (r, { s with filePos := pos })
      else
        let chunks := openFileChunk s.chunks location.fileChunkNum
        ((readBlockFromFile codec (chunkAt chunks location.fileChunkNum) location.offset).1,
          { s with chunks := chunks })

end Store

/-! ### Frames -/

theorem frame_ne_nil (b : Block) : frame codec b ≠ [] := by
  simp [frame, putUvarint_ne_nil]

theorem length_encode_toUInt64 (b : Block) :
    (codec.encode b).length.toUInt64.toNat = (codec.encode b).length := by
  have := codec.length_encode_lt b
  rw [Nat.toUInt64_eq, UInt64.toNat_ofNat']
  omega

/-- The frame at a location is read back as its block. -/
theorem readBlockFromFile_frame {file : Bytes} {offset : Nat} {b : Block} {rest : Bytes}
    (hframe : file.drop offset = frame codec b ++ rest) :
    (readBlockFromFile codec file offset).1 = .ok b := by
  have hread := ReadUvarint_putUvarint_append (codec.encode b).length.toUInt64
    (codec.encode b ++ rest)
  rw [length_encode_toUInt64] at hread
  unfold readBlockFromFile
  rw [hframe, frame, List.append_assoc]
  dsimp only
  rw [hread]
  simp [codec.decode_encode]

/-! ### Where the frames lie -/

/-- `Follows chunks c o placed c' o'`: reading chunk `c` from offset `o` on, the frames of the
blocks of `placed` come one after another, each at its location, going on at the start of the
next chunk where a chunk ends exactly; the last ends at offset `o'` of chunk `c'`. Chunks are numbered by
natural numbers here; their `UInt64` numbers are what the files and locations carry. -/
inductive Follows (chunks : List Bytes) :
    Nat → Nat → List (Block × BlockLocation) → Nat → Nat → Prop
  | nil (c o : Nat) : Follows chunks c o [] c o
  | here {c o : Nat} {b : Block} {rest : List (Block × BlockLocation)} {c' o' : Nat} :
      frame codec b <+: (chunkAt chunks c.toUInt64).drop o →
      Follows chunks c (o + (frame codec b).length) rest c' o' →
      Follows chunks c o ((b, ⟨c.toUInt64, o, (frame codec b).length⟩) :: rest) c' o'
  | next {c o : Nat} {b : Block} {rest : List (Block × BlockLocation)} {c' o' : Nat} :
      (chunkAt chunks c.toUInt64).length = o →
      frame codec b <+: chunkAt chunks (c + 1).toUInt64 →
      Follows chunks (c + 1) (frame codec b).length rest c' o' →
      Follows chunks c o ((b, ⟨(c + 1).toUInt64, 0, (frame codec b).length⟩) :: rest) c' o'

namespace Follows

variable {codec} {chunks : List Bytes}

theorem le {c o c' o' : Nat} {placed : List (Block × BlockLocation)}
    (h : Follows codec chunks c o placed c' o') : c ≤ c' := by
  induction h with
  | nil => exact Nat.le_refl _
  | here _ _ ih => exact ih
  | next _ _ _ ih => omega

theorem append {c o c' o' c'' o'' : Nat} {A B : List (Block × BlockLocation)}
    (hA : Follows codec chunks c o A c' o') (hB : Follows codec chunks c' o' B c'' o'') :
    Follows codec chunks c o (A ++ B) c'' o'' := by
  induction hA with
  | nil => exact hB
  | here hf _ ih => exact .here hf (ih hB)
  | next hend hf _ ih => exact .next hend hf (ih hB)

/-- One frame at the start of the chunk after one that ends. -/
theorem single_next {c o c₁ : Nat} {b : Block} (hend : (chunkAt chunks c.toUInt64).length = o)
    (hf : frame codec b <+: chunkAt chunks c₁.toUInt64) (hc : c + 1 = c₁) :
    Follows codec chunks c o [(b, ⟨c₁.toUInt64, 0, (frame codec b).length⟩)] c₁
      (frame codec b).length := by
  subst hc
  exact .next hend hf (.nil _ _)

/-- Frames that follow each other still do once the chunk where they end grows and the chunks
before it stay as they are. -/
theorem extend {chunks' : List Bytes} {c o c' o' : Nat} {placed : List (Block × BlockLocation)}
    (h : Follows codec chunks c o placed c' o')
    (hbefore : ∀ x, x < c' → chunkAt chunks' x.toUInt64 = chunkAt chunks x.toUInt64)
    (hlast : chunkAt chunks c'.toUInt64 <+: chunkAt chunks' c'.toUInt64) :
    Follows codec chunks' c o placed c' o' := by
  induction h with
  | nil => exact .nil _ _
  | @here c o b rest c' o' hf hrest ih =>
    refine .here ?_ (ih hbefore hlast)
    -- the frame's chunk is the last one or one before it
    have hc := hrest.le
    rcases Nat.lt_or_eq_of_le hc with hlt | rfl
    · rw [hbefore c hlt]
      exact hf
    · obtain ⟨t, ht⟩ := hlast
      rw [← ht]
      exact prefix_drop_append hf
  | @next c o b rest c' o' hend hf hrest ih =>
    have hc := hrest.le
    refine .next ?_ ?_ (ih hbefore hlast)
    · rw [hbefore c (by omega)]
      exact hend
    · rcases Nat.lt_or_eq_of_le hc with hlt | heq
      · rw [hbefore (c + 1) hlt]
        exact hf
      · rw [heq] at hf ⊢
        exact hf.trans hlast

/-- Frames that follow each other split at any block. -/
theorem split {c o c'' o'' : Nat} {B : List (Block × BlockLocation)} :
    ∀ {A : List (Block × BlockLocation)}, Follows codec chunks c o (A ++ B) c'' o'' →
      ∃ c' o', Follows codec chunks c o A c' o' ∧ Follows codec chunks c' o' B c'' o''
  | [], h => ⟨c, o, .nil c o, h⟩
  | _ :: _, h => by
    rw [List.cons_append] at h
    cases h with
    | here hf hrest =>
      obtain ⟨c', o', hA, hB⟩ := split hrest
      exact ⟨c', o', .here hf hA, hB⟩
    | next hend hf hrest =>
      obtain ⟨c', o', hA, hB⟩ := split hrest
      exact ⟨c', o', .next hend hf hA, hB⟩

/-- Where a single frame lies: at its location, and it ends where the frames after it start. -/
theorem single {c o c' o' : Nat} {b : Block} {loc : BlockLocation}
    (h : Follows codec chunks c o [(b, loc)] c' o') :
    loc.fileChunkNum = c'.toUInt64 ∧ loc.offset + loc.length = o' ∧
      frame codec b <+: (chunkAt chunks loc.fileChunkNum).drop loc.offset := by
  cases h with
  | here hf hrest =>
    cases hrest
    exact ⟨rfl, rfl, hf⟩
  | next _ hf hrest =>
    cases hrest
    exact ⟨rfl, Nat.zero_add _, hf⟩

/-- The frame of block `i` lies at its location, and the frames after it follow from its end. -/
theorem after {c o cE oE : Nat} {placed : List (Block × BlockLocation)}
    (h : Follows codec chunks c o placed cE oE) {i : Nat} (hi : i < placed.length) :
    ∃ c' o', placed[i].2.fileChunkNum = c'.toUInt64 ∧
      placed[i].2.offset + placed[i].2.length = o' ∧
      frame codec placed[i].1 <+: (chunkAt chunks placed[i].2.fileChunkNum).drop placed[i].2.offset ∧
      Follows codec chunks c' o' (placed.drop (i + 1)) cE oE := by
  rw [← List.take_append_drop (i + 1) placed] at h
  obtain ⟨c', o', hA, hB⟩ := h.split
  rw [← List.take_append_getElem hi] at hA
  obtain ⟨_, _, _, hlast⟩ := hA.split
  obtain ⟨hc, ho, hf⟩ := hlast.single
  exact ⟨c', o', hc, ho, hf, hB⟩

/-- Each frame moves on by at most one chunk. -/
theorem le_add_length {c o c' o' : Nat} {placed : List (Block × BlockLocation)}
    (h : Follows codec chunks c o placed c' o') : c' ≤ c + placed.length := by
  induction h with
  | nil => omega
  | here _ _ ih =>
    rw [List.length_cons]
    omega
  | next _ _ _ ih =>
    rw [List.length_cons]
    omega

/-- Frames that each move on by a chunk start with the end of the first chunk. -/
theorem first_ends {c o c' o' : Nat} {placed : List (Block × BlockLocation)}
    (h : Follows codec chunks c o placed c' o') (hc : c' = c + placed.length)
    (hp : 0 < placed.length) : (chunkAt chunks c.toUInt64).length = o := by
  cases h with
  | nil => exact absurd hp (Nat.lt_irrefl 0)
  | here _ hrest =>
    have := hrest.le_add_length
    rw [List.length_cons] at hc
    omega
  | next hend _ _ => exact hend

end Follows

/-! ### Runs of commits -/

/-- The index after putting a number above every number in it. -/
theorem putIndex_of_lt {k : UInt64} {v : BlockLocation} :
    ∀ {index : List (UInt64 × BlockLocation)}, (∀ e ∈ index, e.1 < k) →
      putIndex index k v = index ++ [(k, v)]
  | [], _ => rfl
  | (k', v') :: rest, hlt => by
    have hk : k' < k := hlt (k', v') List.mem_cons_self
    have hne : k ≠ k' := by
      intro h
      rw [h] at hk
      exact UInt64.lt_irrefl _ hk
    rw [putIndex, if_neg (UInt64.not_lt.2 (UInt64.le_of_lt hk)), if_neg hne,
      putIndex_of_lt fun e he => hlt e (List.mem_cons_of_mem _ he)]
    rfl

/-! ### Chunk files -/

theorem toNat_toUInt64_of_lt {x : Nat} (h : x < 2 ^ 64) : x.toUInt64.toNat = x := by
  rw [Nat.toUInt64_eq]
  exact UInt64.toNat_ofNat_of_lt' h

theorem toUInt64_add_one (x : Nat) : x.toUInt64 + 1 = (x + 1).toUInt64 := by
  apply UInt64.toNat_inj.1
  simp only [UInt64.toNat_add, Nat.toUInt64_eq, UInt64.toNat_ofNat', UInt64.toNat_one]
  omega

theorem chunkAt_set_ne {chunks : List Bytes} {i : Nat} {v : Bytes} {x : Nat} (hx : x < 2 ^ 64)
    (hne : x ≠ i) : chunkAt (chunks.set i v) x.toUInt64 = chunkAt chunks x.toUInt64 := by
  unfold chunkAt
  rw [toNat_toUInt64_of_lt hx, List.getElem?_set_ne (Ne.symm hne)]

theorem chunkAt_set_self {chunks : List Bytes} {i : Nat} {v : Bytes} (hi : i < chunks.length)
    (h64 : i < 2 ^ 64) : chunkAt (chunks.set i v) i.toUInt64 = v := by
  unfold chunkAt
  rw [toNat_toUInt64_of_lt h64, List.getElem?_set_self hi]
  rfl

theorem chunkAt_append_of_lt {chunks more : List Bytes} {x : Nat} (hx : x < chunks.length)
    (h64 : x < 2 ^ 64) : chunkAt (chunks ++ more) x.toUInt64 = chunkAt chunks x.toUInt64 := by
  unfold chunkAt
  rw [toNat_toUInt64_of_lt h64, List.getElem?_append_left hx]

theorem chunkAt_append_length {chunks : List Bytes} {v : Bytes} (h64 : chunks.length < 2 ^ 64) :
    chunkAt (chunks ++ [v]) chunks.length.toUInt64 = v := by
  unfold chunkAt
  rw [toNat_toUInt64_of_lt h64]
  simp

/-! ### Runs of commits -/

/-- The chunk files of a store laid out by a run of commits from a new store: the frames of the
blocks of `placed` follow each other from the start of chunk `0` to the end of the last chunk,
which is the one open for writing, with its handle at its end. -/
structure FramesLaid (s : Store) (placed : List (Block × BlockLocation)) : Prop where
  follows : Follows codec s.chunks 0 0 placed (s.chunks.length - 1) s.currentOffset
  chunks_ne : s.chunks ≠ []
  length_chunks : s.chunks.length ≤ placed.length + 1
  current : s.currentChunkNum = (s.chunks.length - 1).toUInt64
  current_end : (chunkAt s.chunks s.currentChunkNum).length = s.currentOffset
  filePos : s.filePos = s.currentOffset

/-- A store laid out by a run of commits from a new store: its files hold the frames of the
committed blocks `1` to `n`, and the index holds each block's location. -/
structure Laid (s : Store) (placed : List (Block × BlockLocation)) : Prop
    extends FramesLaid codec s placed where
  index : s.blockIndex = placed.map fun p => (codec.number p.1, p.2)
  numbers : ∀ i (hi : i < placed.length), codec.number placed[i].1 = (i + 1).toUInt64
  last : s.lastCommittedBlockNum = placed.length.toUInt64

theorem laid_openNewStore : Laid codec openNewStore [] where
  follows := .nil 0 0
  chunks_ne := by simp [openNewStore]
  length_chunks := by simp [openNewStore]
  current := rfl
  current_end := rfl
  filePos := rfl
  index := rfl
  numbers := fun _ hi => absurd hi (Nat.not_lt_zero _)
  last := rfl

namespace FramesLaid

variable {codec} {s : Store} {placed : List (Block × BlockLocation)}

/-- The current chunk, by its natural number. -/
theorem currentChunkNum_toNat (h : FramesLaid codec s placed) (hn : placed.length < 2 ^ 64) :
    s.currentChunkNum.toNat = s.chunks.length - 1 := by
  rw [h.current, toNat_toUInt64_of_lt (by have := h.length_chunks; omega)]

theorem length_last (h : FramesLaid codec s placed) :
    (chunkAt s.chunks (s.chunks.length - 1).toUInt64).length = s.currentOffset :=
  h.current ▸ h.current_end

/-- The handle is at the end of the current chunk, so a write there appends to it. -/
theorem chunks_appendBlock (h : FramesLaid codec s placed) (hn : placed.length < 2 ^ 64)
    (num : UInt64) (content : Bytes) :
    (s.appendBlock num content).1.chunks = s.chunks.set (s.chunks.length - 1)
      (chunkAt s.chunks (s.chunks.length - 1).toUInt64 ++ content) := by
  show s.chunks.set s.currentChunkNum.toNat
    (writeAt (chunkAt s.chunks s.currentChunkNum) s.filePos content) = _
  rw [h.currentChunkNum_toNat hn, h.filePos, ← h.current_end, writeAt_length, h.current]

theorem currentChunkNum_add_one (h : FramesLaid codec s placed) :
    s.currentChunkNum + 1 = s.chunks.length.toUInt64 := by
  have hpos : 0 < s.chunks.length := List.length_pos_iff.2 h.chunks_ne
  rw [h.current, toUInt64_add_one, Nat.sub_add_cancel hpos]

/-- The chunk after the last does not exist yet: moving there creates it empty, and the write is
all it holds. -/
theorem chunks_moveToNextFileChunk_appendBlock (h : FramesLaid codec s placed)
    (hn : placed.length + 1 < 2 ^ 64) (num : UInt64) (content : Bytes) :
    (s.moveToNextFileChunk.appendBlock num content).1.chunks = s.chunks ++ [content] := by
  have hL := h.length_chunks
  have hnext := h.currentChunkNum_add_one
  have hnextNat : s.chunks.length.toUInt64.toNat = s.chunks.length :=
    toNat_toUInt64_of_lt (by omega)
  have hmove : s.moveToNextFileChunk.chunks = s.chunks ++ [[]] := by
    show openFileChunk s.chunks (s.currentChunkNum + 1) = _
    rw [openFileChunk, hnext, hnextNat, if_neg (Nat.lt_irrefl _)]
  show s.moveToNextFileChunk.chunks.set (s.currentChunkNum + 1).toNat
    (writeAt (chunkAt s.moveToNextFileChunk.chunks (s.currentChunkNum + 1)) 0 content) = _
  rw [hmove, hnext, chunkAt_append_length (by omega), hnextNat,
    List.set_append_right _ _ (Nat.le_refl _), Nat.sub_self]
  simp [writeAt]

/-- The frames still follow each other once the last chunk grows... -/
theorem follows_set_last (h : FramesLaid codec s placed) (hn : placed.length < 2 ^ 64)
    (more : Bytes) :
    Follows codec (s.chunks.set (s.chunks.length - 1)
      (chunkAt s.chunks (s.chunks.length - 1).toUInt64 ++ more)) 0 0 placed
      (s.chunks.length - 1) s.currentOffset := by
  have hL := h.length_chunks
  have hpos : 0 < s.chunks.length := List.length_pos_iff.2 h.chunks_ne
  refine h.follows.extend (fun x hx => chunkAt_set_ne (by omega) (by omega)) ?_
  rw [chunkAt_set_self (by omega) (by omega)]
  exact List.prefix_append _ _

/-- ... and once a chunk is added after it. -/
theorem follows_append_chunk (h : FramesLaid codec s placed) (hn : placed.length < 2 ^ 64)
    (more : Bytes) :
    Follows codec (s.chunks ++ [more]) 0 0 placed (s.chunks.length - 1) s.currentOffset := by
  have hL := h.length_chunks
  have hpos : 0 < s.chunks.length := List.length_pos_iff.2 h.chunks_ne
  refine h.follows.extend (fun x hx => chunkAt_append_of_lt (by omega) (by omega)) ?_
  exact prefix_of_eq (chunkAt_append_of_lt (by omega) (by omega)).symm

/-- A frame the current chunk can hold is appended to it. -/
theorem append_same (h : FramesLaid codec s placed) (hn : placed.length + 1 < 2 ^ 64)
    (num : UInt64) (b : Block) :
    FramesLaid codec (s.appendBlock num (frame codec b)).1
      (placed ++ [(b, (s.appendBlock num (frame codec b)).2)]) := by
  have hL := h.length_chunks
  have hpos : 0 < s.chunks.length := List.length_pos_iff.2 h.chunks_ne
  have hchunks := h.chunks_appendBlock (by omega) num (frame codec b)
  have hlast : chunkAt (s.appendBlock num (frame codec b)).1.chunks
      (s.chunks.length - 1).toUInt64 =
      chunkAt s.chunks (s.chunks.length - 1).toUInt64 ++ frame codec b := by
    rw [hchunks]
    exact chunkAt_set_self (by omega) (by omega)
  have hlen : (s.appendBlock num (frame codec b)).1.chunks.length = s.chunks.length := by
    rw [hchunks, List.length_set]
  have hloc : (s.appendBlock num (frame codec b)).2 =
      ⟨(s.chunks.length - 1).toUInt64, s.currentOffset, (frame codec b).length⟩ := by
    simp only [Store.appendBlock, h.current]
  refine ⟨?_, ?_, ?_, ?_, ?_, ?_⟩
  · rw [hlen, hloc, hchunks]
    refine (h.follows_set_last (by omega) _).append (.here ?_ (.nil _ _))
    exact prefix_of_eq
      (by rw [chunkAt_set_self (by omega) (by omega), ← h.length_last, List.drop_left])
  · rw [hchunks]
    simpa using h.chunks_ne
  · rw [hlen, List.length_append]
    omega
  · rw [hlen]
    exact h.current
  · show (chunkAt (s.appendBlock num (frame codec b)).1.chunks s.currentChunkNum).length =
      s.currentOffset + (frame codec b).length
    rw [h.current, hlast, List.length_append, h.length_last]
  · show s.filePos + (frame codec b).length = s.currentOffset + (frame codec b).length
    rw [h.filePos]

/-- A frame the current chunk cannot hold starts the next chunk. -/
theorem append_next (h : FramesLaid codec s placed) (hn : placed.length + 1 < 2 ^ 64)
    (num : UInt64) (b : Block) :
    FramesLaid codec (s.moveToNextFileChunk.appendBlock num (frame codec b)).1
      (placed ++ [(b, (s.moveToNextFileChunk.appendBlock num (frame codec b)).2)]) := by
  have hL := h.length_chunks
  have hpos : 0 < s.chunks.length := List.length_pos_iff.2 h.chunks_ne
  have hnext := h.currentChunkNum_add_one
  have hchunks := h.chunks_moveToNextFileChunk_appendBlock hn num (frame codec b)
  have hlast : chunkAt (s.moveToNextFileChunk.appendBlock num (frame codec b)).1.chunks
      s.chunks.length.toUInt64 = frame codec b := by
    rw [hchunks]
    exact chunkAt_append_length (by omega)
  have hloc : (s.moveToNextFileChunk.appendBlock num (frame codec b)).2 =
      ⟨s.chunks.length.toUInt64, 0, (frame codec b).length⟩ := by
    simp only [Store.appendBlock, Store.moveToNextFileChunk, hnext]
  have hoff : (s.moveToNextFileChunk.appendBlock num (frame codec b)).1.currentOffset =
      (frame codec b).length := Nat.zero_add _
  have hc : s.chunks.length - 1 + 1 = s.chunks.length := Nat.sub_add_cancel hpos
  refine ⟨?_, by rw [hchunks]; simp, by rw [hchunks]; simp; omega, ?_, ?_, rfl⟩
  · rw [hchunks, List.length_append, List.length_singleton, Nat.add_sub_cancel, hloc, hoff]
    refine (h.follows_append_chunk (by omega) _).append (Follows.single_next ?_ ?_ hc)
    · rw [chunkAt_append_of_lt (by omega) (by omega), h.length_last]
    · exact prefix_of_eq (chunkAt_append_length (by omega)).symm
  · rw [hchunks, List.length_append, List.length_singleton, Nat.add_sub_cancel]
    exact hnext
  · show (chunkAt (s.moveToNextFileChunk.appendBlock num (frame codec b)).1.chunks
      (s.currentChunkNum + 1)).length = _
    rw [hnext, hlast, hoff]

/-- The block index is not part of the files. -/
theorem storeMetadataInDB (h : FramesLaid codec s placed) (num : UInt64) (loc : BlockLocation) :
    FramesLaid codec (s.storeMetadataInDB num loc) placed :=
  ⟨h.follows, h.chunks_ne, h.length_chunks, h.current, h.current_end, h.filePos⟩

end FramesLaid

namespace Laid

variable {codec} {s : Store} {placed : List (Block × BlockLocation)}

/-- The numbers in the index are below the next block's. -/
theorem index_lt (h : Laid codec s placed) (hn : placed.length + 1 < 2 ^ 64) :
    ∀ e ∈ s.blockIndex, e.1 < (placed.length + 1).toUInt64 := by
  intro e he
  rw [h.index, List.mem_map] at he
  obtain ⟨p, hp, rfl⟩ := he
  obtain ⟨i, hi, rfl⟩ := List.getElem_of_mem hp
  rw [h.numbers i hi, UInt64.lt_iff_toNat_lt, toNat_toUInt64_of_lt (by omega),
    toNat_toUInt64_of_lt hn]
  omega

/-- **A commit.** The next block is committed, its frame laid after the others and its location
put in the index. -/
theorem commit (h : Laid codec s placed) (hn : placed.length + 1 < 2 ^ 64) {b : Block}
    (hnum : codec.number b = s.lastCommittedBlockNum + 1) :
    ∃ loc s', s.Commit codec b = .ok s' ∧ Laid codec s' (placed ++ [(b, loc)]) := by
  have hnum' : codec.number b = (placed.length + 1).toUInt64 := by
    rw [hnum, h.last, toUInt64_add_one]
  obtain ⟨s₂, loc, hs₂⟩ : ∃ s₂ loc, (s.chunkFor (frame codec b).length).appendBlock
      (codec.number b) (frame codec b) = (s₂, loc) := ⟨_, _, rfl⟩
  have hframes : FramesLaid codec s₂ (placed ++ [(b, loc)]) := by
    have hcases : FramesLaid codec ((s.chunkFor (frame codec b).length).appendBlock
        (codec.number b) (frame codec b)).1 (placed ++ [(b, ((s.chunkFor (frame codec b).length).appendBlock
        (codec.number b) (frame codec b)).2)]) := by
      unfold Store.chunkFor
      split
      · exact h.toFramesLaid.append_same hn _ _
      · exact h.toFramesLaid.append_next hn _ _
    rw [hs₂] at hcases
    exact hcases
  have hlast : s₂.lastCommittedBlockNum = codec.number b := by
    have := congrArg (fun p => p.1.lastCommittedBlockNum) hs₂
    simp only [Store.appendBlock] at this
    exact this.symm
  refine ⟨loc, s₂.storeMetadataInDB (codec.number b) loc, ?_, ?_⟩
  · unfold Store.Commit
    rw [if_neg (fun hne => hne hnum)]
    simp only [hs₂]
  · refine ⟨hframes.storeMetadataInDB _ _, ?_, ?_, ?_⟩
    · -- the new number is above every number in the index, so its entry goes last
      show putIndex s₂.blockIndex (codec.number b) loc = _
      have hidx : s₂.blockIndex = s.blockIndex := by
        have := congrArg (fun p => p.1.blockIndex) hs₂
        unfold Store.chunkFor at this
        split at this <;> exact this.symm
      rw [hidx, hnum', putIndex_of_lt (h.index_lt hn), h.index, List.map_append]
      simp [hnum']
    · intro i hi
      rw [List.length_append, List.length_singleton] at hi
      rcases Nat.lt_or_eq_of_le (Nat.le_of_lt_succ hi) with hi | rfl
      · rw [List.getElem_append_left hi]
        exact h.numbers i hi
      · rw [List.getElem_append_right (Nat.le_refl _)]
        simpa using hnum'
    · show s₂.lastCommittedBlockNum = _
      rw [hlast, hnum', List.length_append, List.length_singleton]

/-- The index gives each committed block the location its frame was laid at. -/
theorem getLocation_eq (h : Laid codec s placed) (hn : placed.length < 2 ^ 64) {i : Nat}
    (hi : i < placed.length) :
    getLocation s.blockIndex (codec.number placed[i].1) = .ok placed[i].2 := by
  -- the entries before block `i`'s hold smaller numbers
  have hbefore : ∀ e ∈ (placed.take i).map (fun p => (codec.number p.1, p.2)),
      (codec.number placed[i].1 != e.1) = true := by
    intro e he
    rw [List.mem_map] at he
    obtain ⟨p, hp, rfl⟩ := he
    obtain ⟨j, hj, rfl⟩ := List.getElem_of_mem hp
    rw [List.length_take] at hj
    rw [List.getElem_take, h.numbers i hi, h.numbers j (by omega), bne_iff_ne, ne_eq,
      ← UInt64.toNat_inj, toNat_toUInt64_of_lt (by omega), toNat_toUInt64_of_lt (by omega)]
    omega
  have hsplit : placed.map (fun p => (codec.number p.1, p.2)) =
      (placed.take i).map (fun p => (codec.number p.1, p.2)) ++
        (codec.number placed[i].1, placed[i].2) ::
          (placed.drop (i + 1)).map (fun p => (codec.number p.1, p.2)) := by
    conv_lhs => rw [← List.take_append_drop i placed, List.drop_eq_getElem_cons hi]
    simp only [List.map_append, List.map_cons]
  unfold getLocation
  rw [h.index, hsplit, List.lookup_append, List.lookup_eq_none_iff.2 hbefore, Option.none_or]
  simp

end Laid

/-- **Runs of commits.** Committing blocks one after another lays them out, each with its
location in the index. -/
theorem commitAll_laid : ∀ {blocks : List Block} {s s' : Store} {placed : List (Block × BlockLocation)},
    Laid codec s placed → placed.length + blocks.length < 2 ^ 64 →
    s.commitAll codec blocks = .ok s' →
    ∃ placed', Laid codec s' (placed ++ placed') ∧ placed'.map Prod.fst = blocks
  | [], s, s', placed, h, _, hrun => by
    cases hrun
    exact ⟨[], by simpa using h, rfl⟩
  | b :: bs, s, s', placed, h, hn, hrun => by
    rw [Store.commitAll, List.foldlM_cons] at hrun
    obtain ⟨s₁, h1, hrest⟩ := Except.bind_eq_ok.1 hrun
    -- the commit went through, so the block had the next number
    have hnum : codec.number b = s.lastCommittedBlockNum + 1 := by
      by_contra hne
      unfold Store.Commit at h1
      rw [if_pos hne] at h1
      cases h1
    obtain ⟨loc, s₁', hc, hl⟩ := h.commit (by simp at hn; omega) hnum
    rw [hc] at h1
    cases h1
    obtain ⟨placed', hl', hmap⟩ := commitAll_laid hl (by simp at hn ⊢; omega) hrest
    exact ⟨(b, loc) :: placed', by simpa using hl', by simp [hmap]⟩

end Orion.BlockStore
