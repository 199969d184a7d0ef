import ApfsForensic.Core.SnapshotMount
import ApfsForensic.Core.Spaceman
import ApfsForensic.Shared.Script

/-!
# The reader and its position

The crate reads from a `Read + Seek`: a position that `seek` sets and `read_exact` moves.  The
other modules take a seek with the read behind it as one read at an offset, and the image as a
value.  Here the reader is a device with that position for its state, and every call of the
adapter is a script for it.

A script is built along the function that it belongs to, and carries the proof that it returns
what the function returns, from any position.  That there is such a script for each function
is what makes the one handle safe to share: no call relies on where the last one left the
position.

Where `read_exact` leaves the position when it fails is not specified; it is a parameter.
-/

namespace ApfsForensic

open Shared

/-- The operations of `Read + Seek` that are called. -/
inductive ReaderOp where
  | seek (offset : Nat)
  | readExact (n : Nat)

def ReaderOp.Resp : ReaderOp → Type
  | .seek _ => Unit
  | .readExact _ => Except IoErrorKind Bytes

/-- The reader of an image.  After a read that fails its position is `lost`. -/
def Image.reader (image : Image) (lost : Nat → Nat → Nat) : Device where
  State := Nat
  Op := ReaderOp
  Resp := ReaderOp.Resp
  step position
    | .seek offset => (offset, ())
    | .readExact n =>
      let s := (image.bytes.drop position).take n
      if s.length = n then (position + n, .ok s) else (lost position n, .error .unexpectedEof)

/-! ### Free space through the adapter -/

/-- `unallocated_runs`. -/
def unallocatedRuns (runs : List (Nat × Nat)) (blockSize : Nat) : List RunInfo :=
  runs.map fun r =>
    { run := { imageOffset := saturatingMul r.1 blockSize, len := saturatingMul r.2 blockSize
               sparse := false }
      alloc := .unallocated }

/-- The part of `unallocated` under the lock. -/
def ApfsFs.unallocatedAt (fs : ApfsFs) (smPaddr : Nat) : VfsResult (List RunInfo) := do
  let runs ← viaVfs (freeBlockRuns fs.reader fs.blockSize smPaddr)
  return unallocatedRuns runs fs.blockSize

namespace Reads

open Steady

/-! ### Blocks and trees -/

section Trees

variable {σ : Type} {image : Image} {lost : Nat → Nat → Nat}

/-- A seek to the offset, then the read. -/
def readAt (offset n : Nat) : Steady (image.reader lost) (image.readAt offset n) where
  script := .call (ReaderOp.seek offset) fun _ => .call (ReaderOp.readExact n) .done
  run_eq position := by
    simp only [Script.run, Image.reader, Image.readAt]
    split <;> rfl

/-- The error of the reader, passed on by `?`. -/
def passOn : Except IoErrorKind Bytes → Result Bytes
  | .ok s => .ok s
  | .error kind => .error (.err (.io kind))

def readExact (offset n : Nat) : Steady (image.reader lost) (image.readExact offset n) :=
  (readAt offset n).map passOn

def readBlock (paddr blockSize : Nat) :
    Steady (image.reader lost) (image.readBlock paddr blockSize) :=
  readExact _ _

def readVerifiedNode (paddr blockSize : Nat) :
    Steady (image.reader lost) (ApfsForensic.readVerifiedNode image paddr blockSize) := by
  delta ApfsForensic.readVerifiedNode
  cases checkedMul paddr blockSize with
  | none => exact pure _
  | some offset => exact (readExact offset blockSize).bind fun _ => pure _

def findLeafFrom (blockSize : Nat) (subtype : BTreeSubtype) (cmp : Bytes → Ordering)
    (visit : σ → Bytes → Bytes → σ) : (levels paddr : Nat) → (visited : List Nat) → (acc : σ) →
    Steady (image.reader lost)
      (ApfsForensic.findLeafFrom image blockSize subtype cmp visit levels paddr visited acc)
  | 0, _, _, _ => pure _
  | levels + 1, paddr, visited, acc => by
    refine .ite (pure _) ((readVerifiedNode paddr blockSize).bind fun buf => ?_)
    cases buf with
    | none => exact pure _
    | some buf =>
      dsimp only
      cases parseNodeHeader buf with
      | none => exact pure _
      | some hdr =>
        refine .ite (pure _) ?_
        cases nodeEntries buf subtype with
        | nil => exact pure _
        | cons first rest => exact findLeafFrom blockSize subtype cmp visit levels _ _ _

def resolve (omap : ObjectMap) (oid xid blockSize : Nat) :
    Steady (image.reader lost) (omap.resolve image oid xid blockSize) :=
  (findLeafFrom blockSize .omap (omapCmp oid xid) (omapVisit oid xid) maxBtreeDepth omap.treeOid []
    none).bind fun _ => pure _

def readObjectMap (omapOid blockSize : Nat) :
    Steady (image.reader lost) (ApfsForensic.readObjectMap image omapOid blockSize) :=
  (readBlock omapOid blockSize).bind fun _ => pure _

def readVirtualNode (xts : Xts) (omap : ObjectMap) (vek : Option Vek) (xid blockSize oid : Nat) :
    Steady (image.reader lost)
      (ApfsForensic.readVirtualNode xts image omap vek xid blockSize oid) :=
  (resolve omap oid xid blockSize).bind fun entry =>
    (readBlock entry.paddr blockSize).bind fun _ => pure _

def descendVirtual (xts : Xts) (omap : ObjectMap) (vek : Option Vek) (xid blockSize : Nat)
    (targetOid : Option Nat) (visit : σ → Bytes → Bytes → σ) :
    (levels nodeOid : Nat) → (s : List Nat × σ) →
      Steady (image.reader lost) (ApfsForensic.descendVirtual xts image omap vek xid blockSize
        targetOid visit levels nodeOid s)
  | 0, _, _ => pure _
  | levels + 1, nodeOid, (visited, acc) => by
    refine .ite (pure _) ((readVirtualNode xts omap vek xid blockSize nodeOid).bind fun buf => ?_)
    cases parseNodeHeader buf with
    | none => exact pure _
    | some hdr =>
      refine .ite (pure _) (.foldlM (fun s e => ?_) _ _)
      exact .ite (pure _) (descendVirtual xts omap vek xid blockSize targetOid visit levels _ s)

end Trees

/-! ### Navigation and content -/

section Volume

variable {σ : Type} (codecs : Codecs) (xts : Xts) {image : Image} {lost : Nat → Nat → Nat}
variable (volume : ApfsVolume) (blockSize : Nat)

def walkFsTree (targetOid : Option Nat) (visit : σ → Bytes → Bytes → σ) (acc : σ) :
    Steady (image.reader lost)
      (ApfsForensic.walkFsTree xts image volume blockSize targetOid visit acc) :=
  (readObjectMap volume.omapOid blockSize).bind fun omap =>
    (descendVirtual xts omap volume.vek volume.xid blockSize targetOid visit maxFstreeDepth
      volume.rootTreeOid ([], acc)).bind fun _ => pure _

def listDir (parentOid : Nat) :
    Steady (image.reader lost) (ApfsForensic.listDir xts image volume blockSize parentOid) :=
  walkFsTree xts volume blockSize (some parentOid) _ _

def lookupChild (parentOid : Nat) (name : String) : Steady (image.reader lost)
    (ApfsForensic.lookupChild xts image volume blockSize parentOid name) :=
  walkFsTree xts volume blockSize (some parentOid) _ _

def loadInode (oid : Nat) :
    Steady (image.reader lost) (ApfsForensic.loadInode xts image volume blockSize oid) :=
  (walkFsTree xts volume blockSize (some oid) _ _).bind fun _ => pure _

def listXattrs (inodeOid : Nat) :
    Steady (image.reader lost) (ApfsForensic.listXattrs xts image volume blockSize inodeOid) :=
  walkFsTree xts volume blockSize (some inodeOid) _ _

def getXattr (inodeOid : Nat) (name : String) : Steady (image.reader lost)
    (ApfsForensic.getXattr xts image volume blockSize inodeOid name) :=
  (listXattrs xts volume blockSize inodeOid).bind fun _ => pure _

def listExtents (streamOid : Nat) :
    Steady (image.reader lost) (ApfsForensic.listExtents xts image volume blockSize streamOid) :=
  (walkFsTree xts volume blockSize (some streamOid) _ _).bind fun _ => pure _

/-- One seek, and one read behind it: of the bytes, or of the blocks around them. -/
def readExtent (ext : FileExtent) (byteOff copyLen : Nat) : (vek : Option Vek) →
    Steady (image.reader lost)
      (ApfsForensic.readExtent xts image vek blockSize ext byteOff copyLen)
  | none => readExact byteOff copyLen
  | some _ => .ite ((readExact byteOff _).bind fun _ => pure _) (readExact byteOff copyLen)

def fillExtent (size : Nat) (out : Bytes) (ext : FileExtent) : Steady (image.reader lost)
    (ApfsForensic.fillExtent xts image volume.vek blockSize size out ext) := by
  refine .ite (pure _) (.ite (pure _) ?_)
  dsimp only
  cases checkedMul ext.physBlockNum blockSize with
  | none => exact pure _
  | some byteOff => exact (readExtent xts blockSize ext byteOff _ volume.vek).bind fun _ => pure _

def readStream (streamOid logicalSize : Nat) : Steady (image.reader lost)
    (ApfsForensic.readStream xts image volume blockSize streamOid logicalSize) :=
  .ite (pure _) ((listExtents xts volume blockSize streamOid).bind fun _ =>
    .foldlM (fillExtent xts volume blockSize logicalSize) _ _)

def readXattrValue : (value : XattrValue) → Steady (image.reader lost)
    (ApfsForensic.readXattrValue xts image volume blockSize value)
  | .embedded _ => pure _
  | .stream dstreamOid size => readStream xts volume blockSize dstreamOid size

def decmpfsHeader (inodeOid : Nat) :
    Steady (image.reader lost) (ApfsForensic.decmpfsHeader xts image volume blockSize inodeOid) :=
  (getXattr xts volume blockSize inodeOid xattrNameDecmpfs).bind fun _ => pure _

def resourceFork (inodeOid : Nat) :
    Steady (image.reader lost) (ApfsForensic.resourceFork xts image volume blockSize inodeOid) :=
  (getXattr xts volume blockSize inodeOid xattrNameResourceFork).bind fun
    | some value => (readXattrValue xts volume blockSize value).bind fun _ => pure _
    | none => pure _

def readCompressed (inode : Inode) (header : Bytes) : Steady (image.reader lost)
    (ApfsForensic.readCompressed codecs xts image volume blockSize inode header) :=
  (pure (Compression.leU32 header compressionTypeOffset)).bind fun _ =>
    .ite ((resourceFork xts volume blockSize inode.oid).bind fun _ => pure _) (pure _)

def readData (inode : Inode) :
    Steady (image.reader lost) (ApfsForensic.readData codecs xts image volume blockSize inode) :=
  (decmpfsHeader xts volume blockSize inode.oid).bind fun
    | some header => readCompressed codecs xts volume blockSize inode header
    | none => readStream xts volume blockSize inode.privateId (inode.size.getD 0)

end Volume

/-! ### The space manager -/

section Spaceman

variable {image : Image} {lost : Nat → Nat → Nat} (blockSize : Nat)

def readObjBlock (paddr : Nat) :
    Steady (image.reader lost) (ApfsForensic.readObjBlock image paddr blockSize) :=
  (readBlock paddr blockSize).bind fun _ => pure _

def chunkRuns (bitmapAddr chunkBase blocksInChunk : Nat) (runs : List (Nat × Nat)) :
    Steady (image.reader lost)
      (ApfsForensic.chunkRuns image blockSize bitmapAddr chunkBase blocksInChunk runs) :=
  .ite (pure _) ((readBlock bitmapAddr blockSize).bind fun _ => pure _)

def scanChunks (g : SpacemanGeometry) (cib : Bytes) (cibIdx : Nat) :
    (remaining within : Nat) → (runs : List (Nat × Nat)) → Steady (image.reader lost)
      (ApfsForensic.scanChunks image blockSize g cib cibIdx remaining within runs)
  | 0, _, _ => pure _
  | remaining + 1, within, runs =>
    .ite (pure _) (.ite (pure _) ((chunkRuns blockSize _ _ _ runs).bind fun runs =>
      scanChunks g cib cibIdx remaining (within + 1) runs))

def freeBlockRuns (spacemanPaddr : Nat) :
    Steady (image.reader lost) (ApfsForensic.freeBlockRuns image blockSize spacemanPaddr) :=
  (readObjBlock blockSize spacemanPaddr).bind fun _ =>
    .ite (pure _) (.ite (pure _) (.foldlM (fun runs cibIdx =>
      (readObjBlock blockSize _).bind fun cib =>
        scanChunks blockSize _ cib cibIdx (ciCount cib) 0 runs) _ _))

end Spaceman

/-! ### The calls of the adapter -/

section Adapter

variable (codecs : Codecs) (xts : Xts) (fs : ApfsFs) {lost : Nat → Nat → Nat}

def readDir (ino : FileId) : Steady (fs.reader.reader lost) (fs.readDir xts ino) :=
  (pure (oidOf ino)).bind fun parent =>
    ((listDir xts fs.volume fs.blockSize parent).map viaVfs).bind fun _ => pure _

def extents (ino : FileId) (stream : StreamId) :
    Steady (fs.reader.reader lost) (fs.extents xts ino stream) :=
  (pure (oidOf ino)).bind fun node =>
    (pure (requireDefaultStream stream)).bind fun _ =>
    ((loadInode xts fs.volume fs.blockSize node).map viaVfs).bind fun inode =>
    ((listExtents xts fs.volume fs.blockSize inode.privateId).map viaVfs).bind fun _ => pure _

def lookup (parent : FileId) (name : Bytes) :
    Steady (fs.reader.reader lost) (fs.lookup xts parent name) := by
  refine (pure (oidOf parent)).bind fun parent => ?_
  cases String.fromUTF8? ⟨name.toArray⟩ with
  | none => exact pure _
  | some name =>
    exact ((lookupChild xts fs.volume fs.blockSize parent name).map viaVfs).bind fun _ => pure _

def metaOf (ino : FileId) : Steady (fs.reader.reader lost) (fs.metaOf xts ino) :=
  (pure (oidOf ino)).bind fun node =>
    ((loadInode xts fs.volume fs.blockSize node).map viaVfs).bind fun _ => pure _

def dataStreams (ino : FileId) : Steady (fs.reader.reader lost) (fs.dataStreams xts ino) :=
  (pure (oidOf ino)).bind fun node =>
    ((loadInode xts fs.volume fs.blockSize node).map viaVfs).bind fun _ =>
    ((listXattrs xts fs.volume fs.blockSize node).map viaVfs).bind fun _ => pure _

def readXattrAt (node idx off bufLen : Nat) :
    Steady (fs.reader.reader lost) (fs.readXattrAt xts node idx off bufLen) := by
  refine ((listXattrs xts fs.volume fs.blockSize node).map viaVfs).bind fun list => ?_
  cases list[idx]? with
  | none => exact pure _
  | some x =>
    exact ((readXattrValue xts fs.volume fs.blockSize x.value).map viaVfs).bind fun _ => pure _

def readAtStream (ino : FileId) (off bufLen : Nat) : (stream : StreamId) →
    Steady (fs.reader.reader lost) (fs.readAt codecs xts ino stream off bufLen)
  | .xattr idx => (pure (oidOf ino)).bind fun node => readXattrAt xts fs node idx off bufLen
  | .foreign _ => (pure (oidOf ino)).bind fun _ => pure _
  | .default => (pure (oidOf ino)).bind fun node =>
    ((loadInode xts fs.volume fs.blockSize node).map viaVfs).bind fun inode =>
    ((readData codecs xts fs.volume fs.blockSize inode).map viaVfs).bind fun _ => pure _

def unallocatedAt (smPaddr : Nat) :
    Steady (fs.reader.reader lost) (fs.unallocatedAt smPaddr) :=
  ((freeBlockRuns fs.blockSize smPaddr).map viaVfs).bind fun _ => pure _

end Adapter

end Reads

end ApfsForensic
