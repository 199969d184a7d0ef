import ApfsForensic.Core.Compression
import ApfsForensic.Walk.Drain

/-!
# The file-system adapter

`core/src/vfs.rs`: the reads of a mounted volume.  A node is named by a `FileId`, an
oid with the transaction id of the mount.  It has a default stream and one stream
for each extended attribute.  `read_at` reads a whole stream and returns the part
that the buffer asks for, so a stream can be read through buffers of any lengths
(`Walk/Drain.lean`).

The types of `forensic_vfs` are given with the variants that this code builds or
tells apart.  `readAt` returns the bytes it puts at the front of the buffer; their
number is what the source returns.  The lock around the reader is left out, and
with it the error of a poisoned lock.

* `readAt_default`, `readAt_xattr`: what the two kinds of streams serve.
* `stream_sizes`: a stream reads as many bytes as `data_streams` says, unless it is
  the default stream of a compressed file: that one reads as many as the header
  declares, whatever `data_streams` says.
-/

namespace ApfsForensic

open Walk

/-! ### Types of the adapter -/

/-- `FileId`: an APFS oid, or an id of another domain with its `Debug` text. -/
inductive FileId where
  | apfsOid (oid xid : Nat)
  | foreign (debug : String)
  deriving DecidableEq, Repr

/-- `StreamId`: the kinds that `read_at` serves, or another with its `Debug` text. -/
inductive StreamId where
  | default
  | xattr (index : Nat)
  | foreign (debug : String)
  deriving DecidableEq, Repr

/-- `VfsError`.  A `Decode` error carries the error in place of its text. -/
inductive VfsError where
  | io (op : String) (kind : IoErrorKind)
  | decode (layer : String) (offset : Nat) (detail : ApfsError)
  | unsupported (layer scheme : String)
  deriving DecidableEq, Repr

inductive VfsFault where
  | err (e : VfsError)
  | panic
  deriving DecidableEq, Repr

abbrev VfsResult (α : Type) := Except VfsFault α

/-- `NodeKind`. -/
inductive NodeKind where
  | dir
  | file
  | symlink
  | other
  deriving DecidableEq, Repr

/-- `ResidencyKind`. -/
inductive ResidencyKind where
  | resident (inlineLen : Nat)
  | nonResident
  deriving DecidableEq, Repr

/-- `StreamKind`. -/
inductive StreamKind where
  | apfsNamed
  | xattr
  deriving DecidableEq, Repr

/-- `StreamInfo`. -/
structure StreamInfo where
  id : StreamId
  name : Option Bytes
  size : Nat
  residency : ResidencyKind
  kind : StreamKind
  deriving DecidableEq

/-- `MacbTimes`, in nanoseconds; every time has the source `InodeTable`. -/
structure MacbTimes where
  born : Option Int
  modified : Option Int
  changed : Option Int
  accessed : Option Int
  deriving DecidableEq, Repr

/-- `FsMeta`, without the fields that `build_meta` fills with constants. -/
structure FsMeta where
  ino : Nat
  kind : NodeKind
  size : Nat
  nlink : Nat
  uid : Option Nat
  gid : Option Nat
  mode : Option Nat
  times : MacbTimes
  deriving DecidableEq, Repr

/-- `DirEntry` of `forensic_vfs`. -/
structure VfsDirEntry where
  name : Bytes
  id : FileId
  kind : NodeKind
  deriving DecidableEq, Repr

/-- `ByteRun`, with the flag that this code sets. -/
structure ByteRun where
  imageOffset : Nat
  len : Nat
  sparse : Bool
  deriving DecidableEq, Repr

/-- `RunAlloc`. -/
inductive RunAlloc where
  | allocated
  | unallocated
  deriving DecidableEq, Repr

/-- `RunInfo`. -/
structure RunInfo where
  run : ByteRun
  alloc : RunAlloc
  deriving DecidableEq, Repr

/-- `ApfsFs`. -/
structure ApfsFs where
  reader : Image
  volume : ApfsVolume
  blockSize : Nat
  rootXid : Nat
  spacemanPaddr : Option Nat

/-! ### Helpers -/

/-- `map_err`. -/
def mapErr : ApfsError → VfsError
  | .io kind => .io "apfs read" kind
  | other => .decode "apfs" 0 other

/-- A call of the core through the adapter. -/
def viaVfs {α : Type} : Result α → VfsResult α
  | .ok a => .ok a
  | .error (.err e) => .error (.err (mapErr e))
  | .error .panic => .error .panic

/-- `oid_of`. -/
def oidOf : FileId → VfsResult Nat
  | .apfsOid oid _ => .ok oid
  | .foreign debug => .error (.err (.unsupported "apfs file-id" debug))

/-- `require_default_stream`. -/
def requireDefaultStream : StreamId → VfsResult Unit
  | .default => .ok ()
  | .xattr index => .error (.err (.unsupported "apfs stream" s!"Xattr({index})"))
  | .foreign debug => .error (.err (.unsupported "apfs stream" debug))

/-- `dt_to_kind`. -/
def dtToKind (flags : Nat) : NodeKind :=
  match flags &&& 0x0f with
  | 4 => .dir
  | 8 => .file
  | 10 => .symlink
  | _ => .other

/-- `mode_to_kind`. -/
def modeToKind (mode : Nat) : NodeKind :=
  match mode &&& 0xf000 with
  | 0x4000 => .dir
  | 0x8000 => .file
  | 0xa000 => .symlink
  | _ => .other

/-- `build_meta`. -/
def buildMeta (inode : Inode) : FsMeta :=
  { ino := inode.oid
    kind := modeToKind inode.mode
    size := inode.size.getD 0
    nlink := (max inode.nlinkOrNchildren 0).toNat
    uid := some inode.uid
    gid := some inode.gid
    mode := some inode.mode
    times :=
      { born := some inode.createTime
        modified := some inode.modTime
        changed := some inode.changeTime
        accessed := some inode.accessTime } }

/-- The slice of a stream that goes into a buffer of `bufLen` bytes. -/
def windowAt (data : Bytes) (off bufLen : Nat) : Bytes :=
  if off ≥ data.length then [] else (data.drop off).take (min bufLen (data.length - off))

/-- The `StreamInfo` of attribute `i`. -/
def xattrStreamInfo (p : Xattr × Nat) : StreamInfo :=
  let (size, residency) :=
    match p.1.value with
    | .embedded b => (b.length, ResidencyKind.resident (min b.length 0xffffffff))
    | .stream _ size => (size, .nonResident)
  { id := .xattr (min p.2 0xffff), name := some p.1.name.toUTF8.toList, size, residency
    kind := .xattr }

namespace ApfsFs

variable (codecs : Codecs) (xts : Xts) (fs : ApfsFs)

/-- `root`. -/
def root : FileId := .apfsOid rootDirInoNum fs.rootXid

/-- `read_dir`. -/
def readDir (ino : FileId) : VfsResult (List VfsDirEntry) := do
  let parent ← oidOf ino
  let entries ← viaVfs (listDir xts fs.reader fs.volume fs.blockSize parent)
  return entries.map fun e =>
    { kind := dtToKind e.flags, name := e.name.toUTF8.toList, id := .apfsOid e.fileId fs.rootXid }

/-- `extents`. -/
def extents (ino : FileId) (stream : StreamId) : VfsResult (List RunInfo) := do
  let node ← oidOf ino
  requireDefaultStream stream
  let inode ← viaVfs (loadInode xts fs.reader fs.volume fs.blockSize node)
  let exts ← viaVfs (listExtents xts fs.reader fs.volume fs.blockSize inode.privateId)
  return exts.map fun x =>
    { run := { imageOffset := saturatingMul x.physBlockNum fs.blockSize, len := x.len
               sparse := x.physBlockNum = 0 }
      alloc := .allocated }

/-- `lookup`.  A name that is no UTF-8 is not there. -/
def lookup (parent : FileId) (name : Bytes) : VfsResult (Option FileId) := do
  let parent ← oidOf parent
  let some name := String.fromUTF8? ⟨name.toArray⟩ | return none
  let found ← viaVfs (lookupChild xts fs.reader fs.volume fs.blockSize parent name)
  return found.map (.apfsOid · fs.rootXid)

/-- `meta`. -/
def metaOf (ino : FileId) : VfsResult FsMeta := do
  let node ← oidOf ino
  let inode ← viaVfs (loadInode xts fs.reader fs.volume fs.blockSize node)
  return buildMeta inode

/-- `data_streams`. -/
def dataStreams (ino : FileId) : VfsResult (List StreamInfo) := do
  let node ← oidOf ino
  let inode ← viaVfs (loadInode xts fs.reader fs.volume fs.blockSize node)
  let xattrs ← viaVfs (listXattrs xts fs.reader fs.volume fs.blockSize node)
  return { id := .default, name := none, size := inode.size.getD 0, residency := .nonResident
           kind := .apfsNamed } :: xattrs.zipIdx.map xattrStreamInfo

/-- `read_xattr_at`. -/
def readXattrAt (node idx off bufLen : Nat) : VfsResult Bytes := do
  let list ← viaVfs (listXattrs xts fs.reader fs.volume fs.blockSize node)
  match list[idx]? with
  | none => return []
  | some x =>
    let data ← viaVfs (readXattrValue xts fs.reader fs.volume fs.blockSize x.value)
    return windowAt data off bufLen

/-- `read_at`. -/
def readAt (ino : FileId) (stream : StreamId) (off bufLen : Nat) : VfsResult Bytes := do
  let node ← oidOf ino
  match stream with
  | .xattr idx => fs.readXattrAt xts node idx off bufLen
  | .foreign debug => throw (.err (.unsupported "apfs stream" debug))
  | .default =>
    let inode ← viaVfs (loadInode xts fs.reader fs.volume fs.blockSize node)
    let data ← viaVfs (readData codecs xts fs.reader fs.volume fs.blockSize inode)
    return windowAt data off bufLen

end ApfsFs

/-! ### Inversion -/

@[simp] theorem vfs_ok_bind {α β : Type} (a : α) (f : α → VfsResult β) :
    (Except.ok a >>= f) = f a := rfl

@[simp] theorem viaVfs_ok {α : Type} (a : α) : viaVfs (.ok a) = .ok a := rfl

theorem vfs_bind_eq_ok_iff {α β : Type} {x : VfsResult α} {f : α → VfsResult β} {b : β} :
    (x >>= f) = .ok b ↔ ∃ a, x = .ok a ∧ f a = .ok b := by
  cases x <;> simp [bind, Except.bind]

theorem viaVfs_eq_ok_iff {α : Type} {r : Result α} {a : α} : viaVfs r = .ok a ↔ r = .ok a := by
  rcases r with (e | _) | a' <;> simp [viaVfs]

/-- The two tests of the source only guard the slice. -/
theorem windowAt_eq (data : Bytes) (off bufLen : Nat) :
    windowAt data off bufLen = (data.drop off).take bufLen := by
  rw [windowAt]
  by_cases hoff : off ≥ data.length
  · rw [if_pos hoff, List.drop_eq_nil_of_le hoff, List.take_nil]
  · rw [if_neg hoff, ← List.length_drop, ← List.take_take, List.take_length]

/-! ### What the streams serve -/

section Streams

variable {codecs : Codecs} {xts : Xts} {fs : ApfsFs} {node xid : Nat}

theorem readAt_default {inode : Inode} {data : Bytes}
    (hinode : loadInode xts fs.reader fs.volume fs.blockSize node = .ok inode)
    (hdata : readData codecs xts fs.reader fs.volume fs.blockSize inode = .ok data) :
    ServesWindows (fs.readAt codecs xts (.apfsOid node xid) .default) data := by
  intro off n
  rw [← windowAt_eq]
  simp only [ApfsFs.readAt, oidOf, vfs_ok_bind, hinode, viaVfs_ok, hdata]
  rfl

theorem readAt_xattr {xattrs : List Xattr} {i : Nat} {x : Xattr} {data : Bytes}
    (hlist : listXattrs xts fs.reader fs.volume fs.blockSize node = .ok xattrs)
    (hx : xattrs[i]? = some x)
    (hdata : readXattrValue xts fs.reader fs.volume fs.blockSize x.value = .ok data) :
    ServesWindows (fs.readAt codecs xts (.apfsOid node xid) (.xattr i)) data := by
  intro off n
  rw [← windowAt_eq]
  simp only [ApfsFs.readAt, oidOf, ApfsFs.readXattrAt, vfs_ok_bind, hlist, viaVfs_ok, hx, hdata]
  rfl

/-- The length of an attribute is the size that is reported for it. -/
theorem length_readXattrValue {x : Xattr} {i : Nat} {data : Bytes}
    (h : readXattrValue xts fs.reader fs.volume fs.blockSize x.value = .ok data) :
    data.length = (xattrStreamInfo (x, i)).size := by
  unfold xattrStreamInfo
  cases hvalue : x.value with
  | embedded bytes =>
    rw [hvalue] at h
    cases h
    rfl
  | stream dstreamOid size =>
    rw [hvalue] at h
    exact length_readStream h

/-- The length of a file: what the header of a compressed one declares, else the size of
its inode. -/
theorem length_readData {inode : Inode} {header : Option Bytes} {data : Bytes}
    (hheader : decmpfsHeader xts fs.reader fs.volume fs.blockSize inode.oid = .ok header)
    (h : readData codecs xts fs.reader fs.volume fs.blockSize inode = .ok data) :
    data.length = (header.map declaredSize).getD (inode.size.getD 0) := by
  rw [readData, hheader, ok_bind] at h
  cases header with
  | none => exact length_readStream h
  | some header => exact length_readCompressed h

theorem oid_of_loadInode {inode : Inode}
    (h : loadInode xts fs.reader fs.volume fs.blockSize node = .ok inode) : inode.oid = node := by
  rw [loadInode, bind_eq_ok_iff] at h
  obtain ⟨value, _, h⟩ := h
  cases value with
  | none => cases h
  | some value =>
    cases h
    rfl

/-- The bytes that a stream of a node has: as many as the header declares, for the default
stream of a compressed file, and else as many as are reported. -/
def ApfsFs.readableSize (xts : Xts) (fs : ApfsFs) (node : Nat) (s : StreamInfo) : Nat :=
  match s.id, decmpfsHeader xts fs.reader fs.volume fs.blockSize node with
  | .default, .ok (some header) => declaredSize header
  | _, _ => s.size

theorem readsExactly_default {inode : Inode} {s : StreamInfo} (hid : s.id = .default)
    (hinode : loadInode xts fs.reader fs.volume fs.blockSize node = .ok inode)
    (hsize : s.size = inode.size.getD 0)
    (hread : ∃ off n bytes, fs.readAt codecs xts (.apfsOid node xid) .default off n = .ok bytes) :
    ReadsExactly (fs.readAt codecs xts (.apfsOid node xid) .default)
      (fs.readableSize xts node s) := by
  obtain ⟨off, n, bytes, hread⟩ := hread
  simp only [ApfsFs.readAt, oidOf, vfs_ok_bind, hinode, viaVfs_ok, vfs_bind_eq_ok_iff,
    viaVfs_eq_ok_iff] at hread
  obtain ⟨data, hdata, _⟩ := hread
  obtain ⟨header, hheader, _⟩ := bind_eq_ok_iff.mp hdata
  have hlen := length_readData hheader hdata
  rw [oid_of_loadInode hinode] at hheader
  have hreadable : fs.readableSize xts node s = data.length := by
    rw [ApfsFs.readableSize, hid, hheader, hlen, ← hsize]
    cases header <;> rfl
  rw [hreadable]
  exact (readAt_default hinode hdata).readsExactly

theorem readsExactly_xattr {xattrs : List Xattr} {x : Xattr} {i : Nat}
    (hlist : listXattrs xts fs.reader fs.volume fs.blockSize node = .ok xattrs)
    (hx : xattrs[i]? = some x)
    (hread : ∃ off n bytes,
      fs.readAt codecs xts (.apfsOid node xid) (.xattr i) off n = .ok bytes) :
    ReadsExactly (fs.readAt codecs xts (.apfsOid node xid) (.xattr i))
      (xattrStreamInfo (x, i)).size := by
  obtain ⟨off, n, bytes, hread⟩ := hread
  simp only [ApfsFs.readAt, oidOf, ApfsFs.readXattrAt, vfs_ok_bind, hlist, viaVfs_ok, hx,
    vfs_bind_eq_ok_iff, viaVfs_eq_ok_iff] at hread
  obtain ⟨data, hdata, _⟩ := hread
  have hlen : data.length = (xattrStreamInfo (x, i)).size := length_readXattrValue hdata
  rw [← hlen]
  exact (readAt_xattr hlist hx hdata).readsExactly

/-- **Sizes and what can be read.**  `meta` gives the size of the default stream.  A stream
that can be read gives, through non-empty buffers of any lengths, exactly the bytes
that are reported for it; only the default stream of a compressed file gives the
bytes that its decmpfs header declares. -/
theorem stream_sizes {streams : List StreamInfo}
    (hstreams : fs.dataStreams xts (.apfsOid node xid) = .ok streams)
    (hcount : streams.length ≤ 65537) :
    (∃ m s, fs.metaOf xts (.apfsOid node xid) = .ok m ∧ streams.head? = some s ∧
      s.id = .default ∧ m.size = s.size) ∧
    ∀ s ∈ streams,
      (∃ off n bytes, fs.readAt codecs xts (.apfsOid node xid) s.id off n = .ok bytes) →
      ReadsExactly (fs.readAt codecs xts (.apfsOid node xid) s.id) (fs.readableSize xts node s) := by
  simp only [ApfsFs.dataStreams, oidOf, vfs_ok_bind, vfs_bind_eq_ok_iff, viaVfs_eq_ok_iff]
    at hstreams
  obtain ⟨inode, hinode, xattrs, hxattrs, hstreams⟩ := hstreams
  cases hstreams
  constructor
  · refine ⟨buildMeta inode, _, ?_, rfl, rfl, rfl⟩
    simp only [ApfsFs.metaOf, oidOf, vfs_ok_bind, hinode, viaVfs_ok]
    rfl
  · intro s hs hread
    rcases List.mem_cons.mp hs with rfl | hs
    · exact readsExactly_default rfl hinode rfl hread
    · obtain ⟨⟨x, i⟩, hmem, rfl⟩ := List.mem_map.mp hs
      rw [List.mk_mem_zipIdx_iff_getElem?] at hmem
      obtain ⟨hi, _⟩ := List.getElem?_eq_some_iff.mp hmem
      rw [List.length_cons, List.length_map, List.length_zipIdx] at hcount
      -- the index of an attribute is a `u16`
      have hid : (xattrStreamInfo (x, i)).id = .xattr i := by
        show StreamId.xattr (min i 0xffff) = .xattr i
        rw [Nat.min_eq_left (by omega)]
      rw [hid] at hread ⊢
      have hsize : fs.readableSize xts node (xattrStreamInfo (x, i))
          = (xattrStreamInfo (x, i)).size := by
        rw [ApfsFs.readableSize, hid]
      rw [hsize]
      exact readsExactly_xattr hxattrs hmem hread

end Streams

/-! ### A compressed file without a data stream

The inode has no size, so `0` is reported for the default stream; its content is the
three bytes that the decmpfs attribute holds. -/

def compressedRecords : List Entry :=
  [⟨jkeyBytes 3 5, List.replicate 92 0⟩, xattrRecord 5 2 decmpfsName decmpfsValue]

def compressedFs : ApfsFs where
  reader := .ofBytes (omapBlock 512 0 1 ++ btreeNode 512 1 1 0x7 0 [omapRecord 10 1 0 2] ++
    btreeNode 512 10 1 0x3 0 compressedRecords)
  volume := .ofRoots 1 0 10 0
  blockSize := 512
  rootXid := 1
  spacemanPaddr := none

theorem stream_sizes_compressedFs :
    ReadsExactly (compressedFs.readAt .stored .uncalled (.apfsOid 5 1) .default) 3 ∧
      ReadsExactly (compressedFs.readAt .stored .uncalled (.apfsOid 5 1) (.xattr 0)) 19 := by
  have hstreams : compressedFs.dataStreams .uncalled (.apfsOid 5 1)
      = .ok [⟨.default, none, 0, .nonResident, .apfsNamed⟩,
          ⟨.xattr 0, some decmpfsName, 19, .resident 19, .xattr⟩] := by
    decide +kernel
  have hread : compressedFs.readAt .stored .uncalled (.apfsOid 5 1) .default 0 1 = .ok [65] ∧
      compressedFs.readAt .stored .uncalled (.apfsOid 5 1) (.xattr 0) 0 1 = .ok [102] := by
    decide +kernel
  have hheader : decmpfsHeader .uncalled compressedFs.reader compressedFs.volume
      compressedFs.blockSize 5 = .ok (some decmpfsValue) := by
    decide +kernel
  have hsizes := (@stream_sizes .stored .uncalled compressedFs 5 1 _ hstreams (by decide)).2
  have hdefault := hsizes _ List.mem_cons_self ⟨0, 1, [65], hread.1⟩
  have hxattr := hsizes ⟨.xattr 0, some decmpfsName, 19, .resident 19, .xattr⟩
    (List.mem_cons_of_mem _ (List.mem_singleton_self _)) ⟨0, 1, [102], hread.2⟩
  rw [ApfsFs.readableSize, hheader] at hdefault
  exact ⟨hdefault, hxattr⟩

/-- Nothing is reported, three bytes are read. -/
theorem dataStreams_compressedFs :
    (compressedFs.dataStreams .uncalled (.apfsOid 5 1)).map (List.map fun s => (s.id, s.size))
        = .ok [(.default, 0), (.xattr 0, 19)] ∧
      compressedFs.readAt .stored .uncalled (.apfsOid 5 1) .default 0 8 = .ok [65, 66, 67] ∧
      compressedFs.readAt .stored .uncalled (.apfsOid 5 1) .default 3 8 = .ok [] := by
  decide +kernel

end ApfsForensic
