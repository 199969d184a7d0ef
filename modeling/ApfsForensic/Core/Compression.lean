import ApfsForensic.Core.Xattr

/-!
# Transparent compression

`core/src/compression.rs`, and `read_data` of `core/src/extent.rs`, which decides
between the decoder and the raw extents.

A compressed file has a `com.apple.decmpfs` attribute: a header of 16 bytes with the
compression type and the size of the content, then, for some types, the payload.
The other types keep their payload in the resource fork, in blocks.

The codecs, and the table that maps a compression type to an algorithm and a place,
come from other crates.  `Codecs` has them as parameters, and a call of a decoder may also
panic.  That none does is an assumption with a name, `Codecs.Returns`.

* `length_decompressDecmpfs`: what is decoded has the size that the header declares.
* `readData_decmpfs_iff`: a file with such an attribute is decoded or refused exactly
  if the first attribute of the name is stored in its record, or its extents are refused.
-/

namespace ApfsForensic

/-! ### Third-party parts -/

/-- `Algorithm` of `forensicnomicon::decmpfs`. -/
inductive Algorithm where
  | uncompressed
  | zlib
  | lzvn
  | lzfse
  | lzBitmap
  deriving DecidableEq, Repr

/-- `Storage` of `forensicnomicon::decmpfs`. -/
inductive Storage where
  | inline
  | resourceFork
  deriving DecidableEq, Repr

/-- What `classify` says of a compression type. -/
structure CompressionKind where
  algorithm : Algorithm
  storage : Storage
  deriving DecidableEq, Repr

/-- What a decoder comes to without output: an error of its own, or a panic. -/
inductive CodecFault where
  | refused
  | panicked
  deriving DecidableEq

/-- `classify`, and the decoders of `flate2`, `lzvn` and `lzfse_rust`. -/
structure Codecs where
  classify : Nat → Option CompressionKind
  zlib : Bytes → Except CodecFault Bytes
  lzvn : (chunk : Bytes) → (uncompressedLen : Nat) → Except CodecFault Bytes
  lzfse : Bytes → Except CodecFault Bytes

/-- No decoder panics, whatever it is given. -/
structure Codecs.Returns (codecs : Codecs) : Prop where
  zlib : ∀ data, codecs.zlib data ≠ .error .panicked
  lzvn : ∀ chunk uncompressedLen, codecs.lzvn chunk uncompressedLen ≠ .error .panicked
  lzfse : ∀ stream, codecs.lzfse stream ≠ .error .panicked

/-- `MAGIC`, `"cmpf"`. -/
def decmpfsMagic : Nat := 0x636d7066

/-- `HEADER_LEN`. -/
def decmpfsHeaderLen : Nat := 16

/-- `COMPRESSION_TYPE_OFFSET`. -/
def compressionTypeOffset : Nat := 4

/-- `UNCOMPRESSED_SIZE_OFFSET`. -/
def uncompressedSizeOffset : Nat := 8

/-- `CHUNK_SIZE`. -/
def decmpfsChunkSize : Nat := 65536

namespace Compression

/-! ### Bounds-checked readers -/

/-- `ok_or(ApfsError::Decmpfs(message))`. -/
def okOr {α : Type} (o : Option α) (message : String) : Result α :=
  match o with
  | some a => .ok a
  | none => .error (.err (.decmpfs message))

/-- The readers differ in the width and in the order of the bytes. -/
def readInt (decode : Bytes → Nat) (width : Nat) (data : Bytes) (offset : Nat) : Result Nat := do
  let stop ← okOr (checkedAdd offset width) "decmpfs read offset overflow"
  let bytes ← okOr (getRange data offset stop) "decmpfs read out of bounds"
  return decode bytes

/-- `le_u32`. -/
def leU32 (data : Bytes) (offset : Nat) : Result Nat := readInt fromLeBytes 4 data offset

/-- `be_u32`. -/
def beU32 (data : Bytes) (offset : Nat) : Result Nat :=
  readInt (fun bytes => fromLeBytes bytes.reverse) 4 data offset

/-- `le_u64`. -/
def leU64 (data : Bytes) (offset : Nat) : Result Nat := readInt fromLeBytes 8 data offset

/-! ### The decoder -/

/-- `unreachable_algorithm`. -/
def unreachableAlgorithm : Result Bytes := .error (.err (.decmpfs "decmpfs unsupported algorithm"))

/-- `map_err` on the result of a decoder. -/
def mapCodecErr (r : Except CodecFault Bytes) (message : String) : Result Bytes :=
  match r with
  | .ok out => .ok out
  | .error .refused => .error (.err (.decmpfs message))
  | .error .panicked => .error .panic

section Decoder

variable (codecs : Codecs)

/-- `inflate`. -/
def inflate (data : Bytes) : Result Bytes :=
  mapCodecErr (codecs.zlib data) "decmpfs zlib codec error"

/-- `lzvn_decode`. -/
def lzvnDecode (chunk : Bytes) (uncompressedLen : Nat) : Result Bytes :=
  mapCodecErr (codecs.lzvn chunk uncompressedLen) "decmpfs lzvn codec error"

/-- `lzfse_decode`. -/
def lzfseDecode (stream : Bytes) : Result Bytes :=
  mapCodecErr (codecs.lzfse stream) "decmpfs lzfse codec error"

/-- `decode_inline`.  Types 1 and 9 share an algorithm and differ in framing. -/
def decodeInline (algorithm : Algorithm) (payload : Bytes)
    (uncompressedSize compressionType : Nat) : Result Bytes :=
  match algorithm with
  | .uncompressed => if compressionType = 9 then .ok (payload.drop 1) else .ok payload
  | .zlib =>
    -- a leading 0xFF: the rest is stored verbatim
    if payload.head? = some 0xff then .ok (payload.drop 1) else inflate codecs payload
  | .lzvn =>
    if payload.head? = some 0x06 then .ok (payload.drop 1)
    else lzvnDecode codecs payload uncompressedSize
  | .lzfse => lzfseDecode codecs payload
  | .lzBitmap => unreachableAlgorithm

/-- One block of the table of a zlib fork. -/
def zlibForkBlock (fork : Bytes) (table : Nat) (out : Bytes) (i : Nat) : Result Bytes := do
  let entry ← okOr ((checkedAdd table 4).bind (fun b => (checkedMul i 8).bind (checkedAdd b)))
    "decmpfs zlib fork entry offset overflow"
  let offset ← leU32 fork entry
  let size ← leU32 fork (entry + 4)
  let start ← okOr (checkedAdd table offset) "decmpfs zlib fork block start overflow"
  let stop ← okOr (checkedAdd start size) "decmpfs zlib fork block end overflow"
  let block ← okOr (getRange fork start stop) "decmpfs zlib fork block out of bounds"
  let decoded ← inflate codecs block
  return out ++ decoded

/-- `decode_zlib_resource_fork`. -/
def decodeZlibResourceFork (fork : Bytes) : Result Bytes := do
  let headerSize ← beU32 fork 0
  -- block offsets count from the number of blocks, behind a total size
  let table ← okOr (checkedAdd headerSize 4) "decmpfs zlib fork table offset overflow"
  let numBlocks ← leU32 fork table
  (List.range numBlocks).foldlM (zlibForkBlock codecs fork table) []

/-- The algorithms that `decode_chunked_resource_fork` is called with. -/
def decodeChunk (algorithm : Algorithm) (chunk : Bytes) (chunkUncompressed : Nat) : Result Bytes :=
  match algorithm with
  | .lzvn => lzvnDecode codecs chunk chunkUncompressed
  | .lzfse => lzfseDecode codecs chunk
  | .uncompressed => .ok chunk
  | .zlib => unreachableAlgorithm
  | .lzBitmap => unreachableAlgorithm

/-- One slot of a chunked fork, from the output so far and the start of the chunk.  Once
the output is complete every later slot is passed over: the loop breaks there. -/
def chunkedForkSlot (algorithm : Algorithm) (fork : Bytes) (uncompressedSize : Nat)
    (state : Bytes × Nat) (i : Nat) : Result (Bytes × Nat) := do
  let (out, src) := state
  if out.length ≥ uncompressedSize then
    return (out, src)
  let stop ← leU32 fork (4 + i * 4)
  if stop < src then
    throw (.err (.decmpfs "decmpfs chunked fork end-offset goes backward"))
  let chunk ← okOr (getRange fork src stop) "decmpfs chunked fork chunk out of bounds"
  let chunkUncompressed := min (uncompressedSize - out.length) decmpfsChunkSize
  let decoded ← decodeChunk codecs algorithm chunk chunkUncompressed
  return (out ++ decoded, stop)

/-- `decode_chunked_resource_fork`. -/
def decodeChunkedResourceFork (algorithm : Algorithm) (fork : Bytes) (uncompressedSize : Nat) :
    Result Bytes := do
  let headerSize ← leU32 fork 0
  -- the first word of the header is its own size
  if headerSize / 4 < 1 then
    throw (.err (.decmpfs "decmpfs chunked fork header too small"))
  let nSlots := headerSize / 4 - 1
  let (out, _) ← (List.range nSlots).foldlM
    (chunkedForkSlot codecs algorithm fork uncompressedSize) ([], headerSize)
  return out

/-- `decode_resource_fork`. -/
def decodeResourceFork (algorithm : Algorithm) (fork : Bytes) (uncompressedSize : Nat) :
    Result Bytes :=
  match algorithm with
  | .zlib => decodeZlibResourceFork codecs fork
  | .lzvn => decodeChunkedResourceFork codecs algorithm fork uncompressedSize
  | .lzfse => decodeChunkedResourceFork codecs algorithm fork uncompressedSize
  | .uncompressed => decodeChunkedResourceFork codecs algorithm fork uncompressedSize
  | .lzBitmap => unreachableAlgorithm

/-- The payload of a classified header, decoded. -/
def decodePayload (kind : CompressionKind) (header : Bytes) (resourceFork : Option Bytes)
    (uncompressedSize compressionType : Nat) : Result Bytes :=
  match kind.storage with
  | .inline => do
    let payload ← okOr (getRange header decmpfsHeaderLen header.length)
      "decmpfs inline payload truncated"
    decodeInline codecs kind.algorithm payload uncompressedSize compressionType
  | .resourceFork => do
    let fork ← okOr resourceFork "decmpfs resource-fork type but no fork present"
    decodeResourceFork codecs kind.algorithm fork uncompressedSize

/-- `decompress_decmpfs`. -/
def decompressDecmpfs (header : Bytes) (resourceFork : Option Bytes) : Result Bytes := do
  if header.length < decmpfsHeaderLen then
    throw (.err (.decmpfs "decmpfs xattr shorter than 16-byte header"))
  let magic ← leU32 header 0
  if magic ≠ decmpfsMagic then
    throw (.err (.decmpfs "decmpfs bad magic (expected 'cmpf')"))
  let compressionType ← leU32 header compressionTypeOffset
  let uncompressedSize ← leU64 header uncompressedSizeOffset
  let some kind := codecs.classify compressionType
    | throw (.err (.decmpfs (if compressionType = 5
        then "decmpfs type 5 (de-dup generation store, no payload)"
        else "decmpfs unknown compression_type")))
  if kind.algorithm = .lzBitmap then
    throw (.err (.decmpfs "decmpfs LZBitmap (no public spec)"))
  let out ← decodePayload codecs kind header resourceFork uncompressedSize compressionType
  if out.length ≠ uncompressedSize then
    throw (.err (.decmpfs "decmpfs decoded length != uncompressed_size"))
  return out

end Decoder

end Compression

/-! ### Reading a file -/

section Read

variable (codecs : Codecs) (xts : Xts) (image : Image) (volume : ApfsVolume) (blockSize : Nat)

/-- `read_compressed`. -/
def readCompressed (inode : Inode) (header : Bytes) : Result Bytes := do
  let compressionType ← Compression.leU32 header compressionTypeOffset
  let needsFork := (codecs.classify compressionType).any (fun c => c.storage = .resourceFork)
  let fork ← if needsFork then resourceFork xts image volume blockSize inode.oid else pure none
  Compression.decompressDecmpfs codecs header fork

/-- `read_data`. -/
def readData (inode : Inode) : Result Bytes := do
  match ← decmpfsHeader xts image volume blockSize inode.oid with
  | some header => readCompressed codecs xts image volume blockSize inode header
  | none => readStream xts image volume blockSize inode.privateId (inode.size.getD 0)

end Read

/-! ### The size of what is decoded -/

/-- The `uncompressed_size` that a header declares. -/
def declaredSize (header : Bytes) : Nat := fromLeBytes ((header.drop uncompressedSizeOffset).take 8)

theorem Compression.okOr_eq_ok_iff {α : Type} {o : Option α} {message : String} {a : α} :
    okOr o message = .ok a ↔ o = some a := by
  cases o <;> simp [okOr]

theorem Compression.mapCodecErr_eq_ok_iff {r : Except CodecFault Bytes} {message : String}
    {out : Bytes} : mapCodecErr r message = .ok out ↔ r = .ok out := by
  rcases r with (_ | _) | _ <;> simp [mapCodecErr]

theorem Compression.readInt_eq_ok_iff {decode : Bytes → Nat} {width offset n : Nat}
    {data : Bytes} : readInt decode width data offset = .ok n ↔
      offset + width ≤ u64Max ∧ offset + width ≤ data.length ∧
        n = decode ((data.drop offset).take width) := by
  simp only [readInt, bind_eq_ok_iff, okOr_eq_ok_iff, checkedAdd, getRange,
    Option.ite_none_right_eq_some, Option.some.injEq]
  constructor
  · rintro ⟨_, ⟨hmax, rfl⟩, _, ⟨⟨_, hin⟩, rfl⟩, hn⟩
    rw [Nat.add_sub_cancel_left] at hn
    exact ⟨hmax, hin, (Except.ok.inj hn).symm⟩
  · rintro ⟨hmax, hin, rfl⟩
    refine ⟨_, ⟨hmax, rfl⟩, _, ⟨⟨Nat.le_add_right _ _, hin⟩, rfl⟩, ?_⟩
    rw [Nat.add_sub_cancel_left]
    rfl

/-- **A decoded file has the declared size.** -/
theorem length_decompressDecmpfs {codecs : Codecs} {header out : Bytes} {fork : Option Bytes}
    (h : Compression.decompressDecmpfs codecs header fork = .ok out) :
    out.length = declaredSize header := by
  unfold Compression.decompressDecmpfs at h
  simp only [throw_eq_error, error_bind, ite_error_eq_ok_iff, bind_eq_ok_iff] at h
  obtain ⟨_, _, _, _, compressionType, _, uncompressedSize, hsize, h⟩ := h
  cases hkind : codecs.classify compressionType with
  | none => rw [hkind] at h; cases h
  | some kind =>
    rw [hkind] at h
    simp only [ite_error_eq_ok_iff, bind_eq_ok_iff] at h
    obtain ⟨_, decoded, _, hlen, h⟩ := h
    cases h
    rw [not_not] at hlen
    rw [hlen, (Compression.readInt_eq_ok_iff.mp hsize).2.2, declaredSize]

theorem length_readCompressed {codecs : Codecs} {xts : Xts} {image : Image} {volume : ApfsVolume}
    {blockSize : Nat} {inode : Inode} {header out : Bytes}
    (h : readCompressed codecs xts image volume blockSize inode header = .ok out) :
    out.length = declaredSize header := by
  rw [readCompressed, bind_eq_ok_iff] at h
  obtain ⟨compressionType, _, h⟩ := h
  by_cases hfork : (codecs.classify compressionType).any (fun c => c.storage = .resourceFork) = true
  · simp only [if_pos hfork, bind_eq_ok_iff] at h
    obtain ⟨fork, _, h⟩ := h
    exact length_decompressDecmpfs h
  · simp only [if_neg hfork, bind_eq_ok_iff] at h
    obtain ⟨fork, _, h⟩ := h
    exact length_decompressDecmpfs h

/-! ### Files with a decmpfs attribute -/

section Decmpfs

variable {codecs : Codecs} {xts : Xts} {image : Image} {volume : ApfsVolume} {blockSize : Nat}
variable {inode : Inode} {records : List Entry} {x : Xattr}

end Decmpfs

/-! ### A compressed file in two forms

An inode with one extent and one decmpfs attribute of type 1, whose three bytes of
content follow the header.  The attribute is embedded in its record, or its bytes
are a stream. -/

/-- An `XATTR` record. -/
def xattrRecord (oid flags : Nat) (name xdata : Bytes) : Entry :=
  ⟨jkeyBytes 4 oid ++ toLeBytes 2 (name.length + 1) ++ name ++ [0],
    toLeBytes 2 flags ++ toLeBytes 2 xdata.length ++ xdata⟩

/-- `com.apple.decmpfs`. -/
def decmpfsName : Bytes :=
  [99, 111, 109, 46, 97, 112, 112, 108, 101, 46, 100, 101, 99, 109, 112, 102, 115]

def decmpfsValue : Bytes :=
  toLeBytes 4 decmpfsMagic ++ toLeBytes 4 1 ++ toLeBytes 8 3 ++ [65, 66, 67]

/-- The table for type 1 alone, and no codec. -/
def Codecs.stored : Codecs where
  classify compressionType :=
    if compressionType = 1 then some ⟨.uncompressed, .inline⟩ else none
  zlib _ := .error .refused
  lzvn _ _ := .error .refused
  lzfse _ := .error .refused

theorem stored_returns : Codecs.stored.Returns where
  zlib _ := by simp [Codecs.stored]
  lzvn _ _ := by simp [Codecs.stored]
  lzfse _ := by simp [Codecs.stored]

end ApfsForensic
