import ApfsForensic.Core.Reader

/-!
# Calls that do not panic

A `Result` tells an error from a panic.  This module follows the calls of the adapter through
the crate and finds three places that can panic: the cap of an error in `read_stream`, which
divides by the block size, the cipher, and the decoders of the other crates.  A volume without a
key reaches no cipher, so on such a volume with a block size the calls do not panic if the
decoders do not (`ApfsFs.serve_ne_panic`).

`NoPanic` is closed under the steps that the functions are made of; each function then has one
lemma, along its definition.
-/

namespace ApfsForensic

/-- The call returns, with a value or with an error. -/
def NoPanic {α : Type} (r : Result α) : Prop := r ≠ .error .panic

namespace NoPanic

variable {α β σ : Type}

theorem ok (a : α) : NoPanic (.ok a) := nofun

theorem err (e : ApfsError) : NoPanic (.error (.err e) : Result α) := nofun

/-- The second call may count on what the first returned. -/
theorem bind_ok {x : Result α} {f : α → Result β} (hx : NoPanic x)
    (hf : ∀ a, x = .ok a → NoPanic (f a)) : NoPanic (x >>= f) := by
  intro h
  obtain h | ⟨a, ha, h⟩ := bind_eq_error_iff.mp h
  · exact hx h
  · exact hf a ha h

theorem bind {x : Result α} {f : α → Result β} (hx : NoPanic x) (hf : ∀ a, NoPanic (f a)) :
    NoPanic (x >>= f) :=
  hx.bind_ok fun a _ => hf a

theorem ite {c : Prop} {dec : Decidable c} {x y : Result α} (hx : NoPanic x) (hy : NoPanic y) :
    NoPanic (if c then x else y) := by
  by_cases h : c
  · rwa [if_pos h]
  · rwa [if_neg h]

theorem foldlM {f : σ → α → Result σ} (hf : ∀ s a, NoPanic (f s a)) :
    ∀ (l : List α) (s : σ), NoPanic (l.foldlM f s) := by
  intro l
  induction l with
  | nil => intro s; exact ok s
  | cons a l ih =>
    intro s
    rw [List.foldlM_cons]
    exact bind (hf s a) ih

theorem okOr (o : Option α) (message : String) : NoPanic (Compression.okOr o message) := by
  cases o with
  | none => exact err _
  | some a => exact ok a

end NoPanic

open NoPanic

/-! ### Blocks and trees -/

section Trees

variable {σ : Type} {image : Image}

theorem noPanic_readExact (offset n : Nat) : NoPanic (image.readExact offset n) := by
  rw [Image.readExact]
  cases image.readAt offset n with
  | ok s => exact ok s
  | error kind => exact err _

theorem noPanic_verifyChecksum (buf : Bytes) (block : Nat) : NoPanic (verifyChecksum buf block) :=
  .ite (err _) (ok _)

theorem noPanic_readVerifiedNode (paddr blockSize : Nat) :
    NoPanic (readVerifiedNode image paddr blockSize) := by
  unfold readVerifiedNode
  cases checkedMul paddr blockSize with
  | none => exact ok _
  | some offset =>
    exact (noPanic_readExact offset blockSize).bind fun buf =>
      (noPanic_verifyChecksum buf _).bind fun _ => ok _

theorem noPanic_findLeafFrom (blockSize : Nat) (subtype : BTreeSubtype) (cmp : Bytes → Ordering)
    (visit : σ → Bytes → Bytes → σ) : ∀ (levels paddr : Nat) (visited : List Nat) (acc : σ),
    NoPanic (findLeafFrom image blockSize subtype cmp visit levels paddr visited acc) := by
  intro levels
  induction levels with
  | zero => intro _ _ _; exact err _
  | succ levels ih =>
    intro paddr visited acc
    refine .ite (err _) ((noPanic_readVerifiedNode paddr blockSize).bind fun buf => ?_)
    cases buf with
    | none => exact ok _
    | some buf =>
      dsimp only
      cases parseNodeHeader buf with
      | none => exact ok _
      | some hdr =>
        refine .ite (ok _) ?_
        cases nodeEntries buf subtype with
        | nil => exact ok _
        | cons first rest => exact ih _ _ _

theorem noPanic_resolve (omap : ObjectMap) (oid xid blockSize : Nat) :
    NoPanic (omap.resolve image oid xid blockSize) := by
  refine (noPanic_findLeafFrom blockSize .omap (omapCmp oid xid) (omapVisit oid xid) _ _ _
    _).bind fun best => ?_
  cases best with
  | none => exact err _
  | some entry => exact ok entry

theorem noPanic_readObjectMap (omapOid blockSize : Nat) :
    NoPanic (readObjectMap image omapOid blockSize) := by
  refine (noPanic_readExact _ _).bind fun buf => ?_
  rw [ObjectMap.parse]
  refine .ite (err _) ?_
  cases ObjPhys.parse buf with
  | none => exact err _
  | some hdr => exact .ite (err _) ((noPanic_verifyChecksum _ _).bind fun _ => ok _)

/-- Without a key the cipher is not called. -/
theorem noPanic_readVirtualNode (xts : Xts) (omap : ObjectMap) (xid blockSize oid : Nat) :
    NoPanic (readVirtualNode xts image omap none xid blockSize oid) := by
  refine (noPanic_resolve omap oid xid blockSize).bind fun entry =>
    (noPanic_readExact _ _).bind fun buf => ?_
  have hplain : decryptNode xts none blockSize entry buf = .ok buf := by
    rw [decryptNode]
    split <;> rfl
  rw [hplain, ok_bind]
  exact (noPanic_verifyChecksum _ _).bind fun _ => ok _

theorem noPanic_descendVirtual (xts : Xts) (omap : ObjectMap) (xid blockSize : Nat)
    (targetOid : Option Nat) (visit : σ → Bytes → Bytes → σ) :
    ∀ (levels nodeOid : Nat) (s : List Nat × σ),
      NoPanic (descendVirtual xts image omap none xid blockSize targetOid visit levels nodeOid
        s) := by
  intro levels
  induction levels with
  | zero => intro _ _; exact err _
  | succ levels ih =>
    rintro nodeOid ⟨visited, acc⟩
    refine .ite (err _) ?_
    refine (noPanic_readVirtualNode xts omap xid blockSize nodeOid).bind fun buf => ?_
    cases parseNodeHeader buf with
    | none => exact ok _
    | some hdr =>
      exact .ite (ok _) (.foldlM (fun s e => .ite (ok _) (ih _ s)) _ _)

end Trees

/-! ### Navigation and content -/

section Volume

variable {σ : Type} (xts : Xts) {image : Image} {volume : ApfsVolume} {blockSize : Nat}

theorem noPanic_walkFsTree (hvek : volume.vek = none) (targetOid : Option Nat)
    (visit : σ → Bytes → Bytes → σ) (acc : σ) :
    NoPanic (walkFsTree xts image volume blockSize targetOid visit acc) := by
  rw [walkFsTree, hvek]
  exact (noPanic_readObjectMap _ _).bind fun omap =>
    (noPanic_descendVirtual xts omap _ _ _ _ _ _ _).bind fun _ => ok _

theorem noPanic_loadInode (hvek : volume.vek = none) (oid : Nat) :
    NoPanic (loadInode xts image volume blockSize oid) := by
  refine (noPanic_walkFsTree xts hvek _ _ _).bind fun value => ?_
  cases value with
  | none => exact err _
  | some value => exact ok _

theorem noPanic_getXattr (hvek : volume.vek = none) (inodeOid : Nat) (name : String) :
    NoPanic (getXattr xts image volume blockSize inodeOid name) :=
  (noPanic_walkFsTree xts hvek _ _ _).bind fun _ => ok _

theorem noPanic_listExtents (hvek : volume.vek = none) (streamOid : Nat) :
    NoPanic (listExtents xts image volume blockSize streamOid) :=
  (noPanic_walkFsTree xts hvek _ _ _).bind fun _ => ok _

/-- With a block size the cap of the error can be computed. -/
theorem noPanic_fillExtent (hbs : blockSize ≠ 0) (size : Nat) (out : Bytes) (ext : FileExtent) :
    NoPanic (fillExtent xts image none blockSize size out ext) := by
  rw [fillExtent]
  refine .ite (ok _) ?_
  rw [if_neg hbs]
  cases checkedMul ext.physBlockNum blockSize with
  | none => exact err _
  | some byteOff => exact (noPanic_readExact _ _).bind fun _ => ok _

theorem noPanic_readStream (hvek : volume.vek = none) (hbs : blockSize ≠ 0)
    (streamOid logicalSize : Nat) :
    NoPanic (readStream xts image volume blockSize streamOid logicalSize) := by
  rw [readStream, hvek]
  exact .ite (err _) ((noPanic_listExtents xts hvek streamOid).bind fun _ =>
    .foldlM (noPanic_fillExtent xts hbs logicalSize) _ _)

theorem noPanic_readXattrValue (hvek : volume.vek = none) (hbs : blockSize ≠ 0)
    (value : XattrValue) : NoPanic (readXattrValue xts image volume blockSize value) := by
  cases value with
  | embedded bytes => exact ok bytes
  | stream dstreamOid size => exact noPanic_readStream xts hvek hbs dstreamOid size

theorem noPanic_resourceFork (hvek : volume.vek = none) (hbs : blockSize ≠ 0) (inodeOid : Nat) :
    NoPanic (resourceFork xts image volume blockSize inodeOid) := by
  refine (noPanic_getXattr xts hvek inodeOid _).bind fun value => ?_
  cases value with
  | none => exact ok _
  | some value => exact (noPanic_readXattrValue xts hvek hbs value).bind fun _ => ok _

theorem noPanic_decmpfsHeader (hvek : volume.vek = none) (inodeOid : Nat) :
    NoPanic (decmpfsHeader xts image volume blockSize inodeOid) := by
  refine (noPanic_getXattr xts hvek inodeOid _).bind fun value => ?_
  rcases value with _ | _ | _ <;> exact ok _

end Volume

/-! ### The decoder -/

namespace Compression

variable {codecs : Codecs} (hcodecs : codecs.Returns)

theorem noPanic_readInt (decode : Bytes → Nat) (width : Nat) (data : Bytes) (offset : Nat) :
    NoPanic (readInt decode width data offset) :=
  (NoPanic.okOr _ _).bind fun _ => (NoPanic.okOr _ _).bind fun _ => ok _

theorem noPanic_mapCodecErr {r : Except CodecFault Bytes} (h : r ≠ .error .panicked)
    (message : String) : NoPanic (mapCodecErr r message) := by
  rcases r with (_ | _) | out
  · exact err _
  · exact absurd rfl h
  · exact ok out

include hcodecs

theorem noPanic_decodeInline (algorithm : Algorithm) (payload : Bytes)
    (uncompressedSize compressionType : Nat) :
    NoPanic (decodeInline codecs algorithm payload uncompressedSize compressionType) := by
  cases algorithm with
  | uncompressed => exact .ite (ok _) (ok _)
  | zlib => exact .ite (ok _) (noPanic_mapCodecErr (hcodecs.zlib _) _)
  | lzvn => exact .ite (ok _) (noPanic_mapCodecErr (hcodecs.lzvn _ _) _)
  | lzfse => exact noPanic_mapCodecErr (hcodecs.lzfse _) _
  | lzBitmap => exact err _

theorem noPanic_zlibForkBlock (fork : Bytes) (table : Nat) (out : Bytes) (i : Nat) :
    NoPanic (zlibForkBlock codecs fork table out i) :=
  (NoPanic.okOr _ _).bind fun entry => (noPanic_readInt _ _ fork entry).bind fun _ =>
    (noPanic_readInt _ _ fork (entry + 4)).bind fun _ => (NoPanic.okOr _ _).bind fun _ =>
    (NoPanic.okOr _ _).bind fun _ => (NoPanic.okOr _ _).bind fun block =>
    (noPanic_mapCodecErr (hcodecs.zlib block) _).bind fun _ => ok _

theorem noPanic_chunkedForkSlot (algorithm : Algorithm) (fork : Bytes) (uncompressedSize : Nat)
    (state : Bytes × Nat) (i : Nat) :
    NoPanic (chunkedForkSlot codecs algorithm fork uncompressedSize state i) := by
  obtain ⟨out, src⟩ := state
  refine .ite (ok _) ((noPanic_readInt _ _ fork (4 + i * 4)).bind fun stop => .ite (err _) ?_)
  refine (NoPanic.okOr _ _).bind fun chunk => .bind ?_ fun _ => ok _
  cases algorithm with
  | uncompressed => exact ok _
  | zlib => exact err _
  | lzvn => exact noPanic_mapCodecErr (hcodecs.lzvn _ _) _
  | lzfse => exact noPanic_mapCodecErr (hcodecs.lzfse _) _
  | lzBitmap => exact err _

theorem noPanic_decodeChunkedResourceFork (algorithm : Algorithm) (fork : Bytes)
    (uncompressedSize : Nat) :
    NoPanic (decodeChunkedResourceFork codecs algorithm fork uncompressedSize) :=
  (noPanic_readInt _ _ fork 0).bind fun _ => .ite (err _)
    ((NoPanic.foldlM (noPanic_chunkedForkSlot hcodecs algorithm fork uncompressedSize) _ _).bind
      fun _ => ok _)

theorem noPanic_decodeResourceFork (algorithm : Algorithm) (fork : Bytes)
    (uncompressedSize : Nat) :
    NoPanic (decodeResourceFork codecs algorithm fork uncompressedSize) := by
  cases algorithm with
  | zlib =>
    exact (noPanic_readInt _ _ fork 0).bind fun _ => (NoPanic.okOr _ _).bind fun table =>
      (noPanic_readInt _ _ fork table).bind fun _ =>
      .foldlM (noPanic_zlibForkBlock hcodecs fork table) _ _
  | lzBitmap => exact err _
  | _ => exact noPanic_decodeChunkedResourceFork hcodecs _ fork uncompressedSize

theorem noPanic_decompressDecmpfs (header : Bytes) (fork : Option Bytes) :
    NoPanic (decompressDecmpfs codecs header fork) := by
  refine .ite (err _) ((noPanic_readInt _ _ header 0).bind fun magic => .ite (err _) ?_)
  refine (noPanic_readInt _ _ header compressionTypeOffset).bind fun compressionType =>
    (noPanic_readInt _ _ header uncompressedSizeOffset).bind fun uncompressedSize => ?_
  cases codecs.classify compressionType with
  | none => exact err _
  | some kind =>
    refine .ite (err _) (.bind ?_ fun out => .ite (err _) (ok _))
    rw [decodePayload]
    cases kind.storage with
    | inline =>
      exact (NoPanic.okOr _ _).bind fun payload =>
        noPanic_decodeInline hcodecs kind.algorithm payload uncompressedSize compressionType
    | resourceFork =>
      exact (NoPanic.okOr _ _).bind fun fork =>
        noPanic_decodeResourceFork hcodecs kind.algorithm fork uncompressedSize

end Compression

theorem noPanic_readData {codecs : Codecs} (hcodecs : codecs.Returns) (xts : Xts) {image : Image}
    {volume : ApfsVolume} {blockSize : Nat} (hvek : volume.vek = none) (hbs : blockSize ≠ 0)
    (inode : Inode) :
    NoPanic (readData codecs xts image volume blockSize inode) := by
  refine (noPanic_decmpfsHeader xts hvek inode.oid).bind fun header => ?_
  cases header with
  | none => exact noPanic_readStream xts hvek hbs _ _
  | some header =>
    refine (Compression.noPanic_readInt _ _ header compressionTypeOffset).bind fun _ => ?_
    refine .ite ((noPanic_resourceFork xts hvek hbs inode.oid).bind fun _ => ?_) ?_
    · exact Compression.noPanic_decompressDecmpfs hcodecs header _
    · exact Compression.noPanic_decompressDecmpfs hcodecs header _

/-! ### The space manager -/

section Spaceman

variable {image : Image} {blockSize : Nat}

theorem noPanic_readObjBlock (paddr : Nat) : NoPanic (readObjBlock image paddr blockSize) :=
  (noPanic_readExact _ _).bind fun buf => (noPanic_verifyChecksum buf _).bind fun _ => ok _

theorem noPanic_scanChunks (g : SpacemanGeometry) (cib : Bytes) (cibIdx : Nat) :
    ∀ (remaining within : Nat) (runs : List (Nat × Nat)),
      NoPanic (scanChunks image blockSize g cib cibIdx remaining within runs) := by
  intro remaining
  induction remaining with
  | zero => intro _ _; exact ok _
  | succ remaining ih =>
    intro within runs
    refine .ite (ok _) (.ite (ok _) (.bind ?_ fun runs => ih _ runs))
    exact .ite (ok _) ((noPanic_readExact _ _).bind fun _ => ok _)

theorem noPanic_freeBlockRuns (spacemanPaddr : Nat) :
    NoPanic (freeBlockRuns image blockSize spacemanPaddr) :=
  (noPanic_readObjBlock spacemanPaddr).bind fun _ => .ite (err _) (.ite (err _)
    (.foldlM (fun runs _ => (noPanic_readObjBlock _).bind fun cib =>
      noPanic_scanChunks _ cib _ _ _ runs) _ _))

end Spaceman

end ApfsForensic
