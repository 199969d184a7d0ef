import ApfsForensic.Core.ApfsContainer
import ApfsForensic.Core.Snapshot
import ApfsForensic.Core.TreeWalks
import ApfsForensic.Core.Vfs
import ApfsForensic.Walk.Trace

/-!
# Mounting a snapshot

`ApfsFs::open` and `open_snapshot` of `core/src/vfs.rs`, and the transaction ids that
the reads of a mounted volume use.

Three transaction ids meet in a mounted snapshot: the one that was asked for, which
goes into every `FileId`; the one in the key of the record that was found for it; and
the one in the superblock that this record points to.  The reads resolve oids at the
last.

* `Resolutions`: what a call of the adapter asks the object map, as a trace of the
  function that models it (`Walk/Trace.lean`).  `resolutions_at`: all of it is asked
  at the transaction of the volume.
* `snapshot_mount_iff`: mounts at `x` read at `x` and refuse a superblock of another
  transaction, exactly if there is no such superblock behind the record for `x`.

`read_link` and `deleted` return constants and `unallocated` reads the space manager
by block numbers; none of them asks an object map.
-/

namespace ApfsForensic

open Walk ApfsContainer

/-! ### Opening -/

namespace ApfsFs

/-- `open_first_volume`. -/
def openFirstVolume (image : Image) : Result (ApfsVolume × Nat × Option Nat) := do
  let container ← openContainer image
  let blockSize := container.superblock.blockSize
  let addrs ← volumeSuperblockAddrs image container
  let some vaddr := addrs.head? | throw (.err (.noValidSuperblock 0 0))
  let buf ← image.readBlock vaddr blockSize
  let volume ← ApfsVolume.parse buf
  return (volume, blockSize, container.spacemanPaddr)

/-- `open`. -/
def openLive (image : Image) : Result ApfsFs := do
  let (volume, blockSize, spacemanPaddr) ← openFirstVolume image
  return { reader := image, volume, blockSize, rootXid := volume.xid, spacemanPaddr }

/-- `open_snapshot`. -/
def openSnapshot (image : Image) (xid : Nat) : Result ApfsFs := do
  let (live, blockSize, spacemanPaddr) ← openFirstVolume image
  if xid = live.xid then
    return { reader := image, volume := live, blockSize, rootXid := xid, spacemanPaddr }
  let snaps ← listSnapshots image live blockSize
  let some snapshot := snaps.find? (fun s => s.xid = xid) | throw (.err (.snapshotNotFound xid))
  let volume ← mountSnapshot image live blockSize snapshot
  return { reader := image, volume, blockSize, rootXid := xid, spacemanPaddr }

end ApfsFs

theorem openFirstVolume_of_addr {image : Image} {container : ApfsContainer} {volume : ApfsVolume}
    {vaddr blockSize : Nat} {addrs : List Nat} {buf : Bytes}
    (hopen : openContainer image = .ok container)
    (haddrs : volumeSuperblockAddrs image container = .ok (vaddr :: addrs))
    (hsize : container.superblock.blockSize = blockSize)
    (hread : image.readBlock vaddr blockSize = .ok buf) (hparse : ApfsVolume.parse buf = .ok volume) :
    ApfsFs.openFirstVolume image = .ok (volume, blockSize, container.spacemanPaddr) := by
  simp only [ApfsFs.openFirstVolume, hopen, ok_bind, haddrs, hsize, List.head?_cons, hread, hparse]
  rfl

/-! ### What the reads ask the object map -/

/-- A call of `omap.resolve`. -/
structure Resolution where
  oid : Nat
  xid : Nat
  deriving DecidableEq, Repr

abbrev Resolutions {ε α : Type} (r : Except ε α) := Trace Resolution r

namespace Resolutions

open Trace

section Core

variable {σ : Type} (codecs : Codecs) (xts : Xts) (image : Image) (volume : ApfsVolume)
variable (blockSize : Nat)

def resolve (omap : ObjectMap) (oid xid : Nat) :
    Resolutions (omap.resolve image oid xid blockSize) :=
  step ⟨oid, xid⟩ _

def readVirtualNode (omap : ObjectMap) (vek : Option Vek) (xid oid : Nat) :
    Resolutions (ApfsForensic.readVirtualNode xts image omap vek xid blockSize oid) :=
  (resolve image blockSize omap oid xid).bind fun _ => silent _

/-- The nodes that the descent reads, one after the other. -/
def descendVirtual (omap : ObjectMap) (targetOid : Option Nat) (visit : σ → Bytes → Bytes → σ)
    (acc : σ) :
    Resolutions (ApfsForensic.descendVirtual xts image omap volume.vek volume.xid blockSize
      targetOid visit maxFstreeDepth volume.rootTreeOid ([], acc)) :=
  ⟨(fsTreeRun image blockSize xts omap volume targetOid visit acc).1.flatMap fun oid =>
    (readVirtualNode xts image blockSize omap volume.vek volume.xid oid).log⟩

def walkFsTree (targetOid : Option Nat) (visit : σ → Bytes → Bytes → σ) (acc : σ) :
    Resolutions (ApfsForensic.walkFsTree xts image volume blockSize targetOid visit acc) :=
  (silent (readObjectMap image volume.omapOid blockSize)).bind fun omap =>
    (descendVirtual xts image volume blockSize omap targetOid visit acc).bind fun _ => silent _

def listDir (parentOid : Nat) : Resolutions (ApfsForensic.listDir xts image volume blockSize parentOid) :=
  walkFsTree xts image volume blockSize (some parentOid) _ _

def lookupChild (parentOid : Nat) (name : String) :
    Resolutions (ApfsForensic.lookupChild xts image volume blockSize parentOid name) :=
  walkFsTree xts image volume blockSize (some parentOid) _ _

def loadInode (oid : Nat) : Resolutions (ApfsForensic.loadInode xts image volume blockSize oid) :=
  (walkFsTree xts image volume blockSize (some oid) _ _).bind fun _ => silent _

def listXattrs (inodeOid : Nat) :
    Resolutions (ApfsForensic.listXattrs xts image volume blockSize inodeOid) :=
  walkFsTree xts image volume blockSize (some inodeOid) _ _

def getXattr (inodeOid : Nat) (name : String) :
    Resolutions (ApfsForensic.getXattr xts image volume blockSize inodeOid name) :=
  (listXattrs xts image volume blockSize inodeOid).bind fun _ => silent _

def listExtents (streamOid : Nat) :
    Resolutions (ApfsForensic.listExtents xts image volume blockSize streamOid) :=
  (walkFsTree xts image volume blockSize (some streamOid) _ _).bind fun _ => silent _

def readStream (streamOid logicalSize : Nat) :
    Resolutions (ApfsForensic.readStream xts image volume blockSize streamOid logicalSize) :=
  Trace.ite _ (silent _) ((listExtents xts image volume blockSize streamOid).bind fun _ => silent _)

def readXattrValue : (value : XattrValue) →
    Resolutions (ApfsForensic.readXattrValue xts image volume blockSize value)
  | .embedded _ => silent _
  | .stream dstreamOid size => readStream xts image volume blockSize dstreamOid size

def decmpfsHeader (inodeOid : Nat) :
    Resolutions (ApfsForensic.decmpfsHeader xts image volume blockSize inodeOid) :=
  (getXattr xts image volume blockSize inodeOid xattrNameDecmpfs).bind fun _ => silent _

def resourceFork (inodeOid : Nat) :
    Resolutions (ApfsForensic.resourceFork xts image volume blockSize inodeOid) :=
  (getXattr xts image volume blockSize inodeOid xattrNameResourceFork).bind fun
    | some value => (readXattrValue xts image volume blockSize value).bind fun _ => silent _
    | none => silent _

def readCompressed (inode : Inode) (header : Bytes) :
    Resolutions (ApfsForensic.readCompressed codecs xts image volume blockSize inode header) :=
  (silent (Compression.leU32 header compressionTypeOffset)).bind fun _ =>
    Trace.ite _ ((resourceFork xts image volume blockSize inode.oid).bind fun _ => silent _)
      (silent _)

def readData (inode : Inode) :
    Resolutions (ApfsForensic.readData codecs xts image volume blockSize inode) :=
  (decmpfsHeader xts image volume blockSize inode.oid).bind fun
    | some header => readCompressed codecs xts image volume blockSize inode header
    | none => readStream xts image volume blockSize inode.privateId (inode.size.getD 0)

end Core

section Adapter

variable (codecs : Codecs) (xts : Xts) (fs : ApfsFs)

def readDir (ino : FileId) : Resolutions (fs.readDir xts ino) :=
  (silent (oidOf ino)).bind fun parent =>
    ((listDir xts fs.reader fs.volume fs.blockSize parent).through viaVfs).bind fun _ => silent _

def extents (ino : FileId) (stream : StreamId) : Resolutions (fs.extents xts ino stream) :=
  (silent (oidOf ino)).bind fun node =>
    (silent (requireDefaultStream stream)).bind fun _ =>
    ((loadInode xts fs.reader fs.volume fs.blockSize node).through viaVfs).bind fun inode =>
    ((listExtents xts fs.reader fs.volume fs.blockSize inode.privateId).through viaVfs).bind
      fun _ => silent _

def lookup (parent : FileId) (name : Bytes) : Resolutions (fs.lookup xts parent name) :=
  (silent (oidOf parent)).bind fun parent =>
    match String.fromUTF8? ⟨name.toArray⟩ with
    | none => silent _
    | some name =>
      ((lookupChild xts fs.reader fs.volume fs.blockSize parent name).through viaVfs).bind
        fun _ => silent _

def metaOf (ino : FileId) : Resolutions (fs.metaOf xts ino) :=
  (silent (oidOf ino)).bind fun node =>
    ((loadInode xts fs.reader fs.volume fs.blockSize node).through viaVfs).bind fun _ => silent _

def dataStreams (ino : FileId) : Resolutions (fs.dataStreams xts ino) :=
  (silent (oidOf ino)).bind fun node =>
    ((loadInode xts fs.reader fs.volume fs.blockSize node).through viaVfs).bind fun _ =>
    ((listXattrs xts fs.reader fs.volume fs.blockSize node).through viaVfs).bind fun _ => silent _

def readXattrAt (node idx off bufLen : Nat) :
    Resolutions (fs.readXattrAt xts node idx off bufLen) :=
  ((listXattrs xts fs.reader fs.volume fs.blockSize node).through viaVfs).bind fun list =>
    match list[idx]? with
    | none => silent _
    | some x =>
      ((readXattrValue xts fs.reader fs.volume fs.blockSize x.value).through viaVfs).bind
        fun _ => silent _

def readAt (ino : FileId) (stream : StreamId) (off bufLen : Nat) :
    Resolutions (fs.readAt codecs xts ino stream off bufLen) :=
  (silent (oidOf ino)).bind fun node =>
    match stream with
    | .xattr idx => readXattrAt xts fs node idx off bufLen
    | .foreign _ => silent _
    | .default =>
      ((loadInode xts fs.reader fs.volume fs.blockSize node).through viaVfs).bind fun inode =>
      ((readData codecs xts fs.reader fs.volume fs.blockSize inode).through viaVfs).bind
        fun _ => silent _

end Adapter

end Resolutions

/-- A read of a mounted volume. -/
inductive VfsCall where
  | readDir (ino : FileId)
  | extents (ino : FileId) (stream : StreamId)
  | lookup (parent : FileId) (name : Bytes)
  | metaOf (ino : FileId)
  | dataStreams (ino : FileId)
  | readAt (ino : FileId) (stream : StreamId) (off bufLen : Nat)

namespace ApfsFs

variable (codecs : Codecs) (xts : Xts) (fs : ApfsFs)

/-- What a call asks the object map, in order. -/
def resolutions : VfsCall → List Resolution
  | .readDir ino => (Resolutions.readDir xts fs ino).log
  | .extents ino stream => (Resolutions.extents xts fs ino stream).log
  | .lookup parent name => (Resolutions.lookup xts fs parent name).log
  | .metaOf ino => (Resolutions.metaOf xts fs ino).log
  | .dataStreams ino => (Resolutions.dataStreams xts fs ino).log
  | .readAt ino stream off bufLen => (Resolutions.readAt codecs xts fs ino stream off bufLen).log

/-- The identities that a call returns. -/
def minted : VfsCall → List FileId
  | .readDir ino =>
    match fs.readDir xts ino with
    | .ok entries => entries.map VfsDirEntry.id
    | .error _ => []
  | .lookup parent name =>
    match fs.lookup xts parent name with
    | .ok found => found.toList
    | .error _ => []
  | _ => []

end ApfsFs

/-! ### All of it is asked at the transaction of the volume -/

/-- The resolution is made at `xid`. -/
def Resolution.At (xid : Nat) (res : Resolution) : Prop := res.xid = xid

namespace Resolutions

open Trace

variable {σ : Type} {codecs : Codecs} {xts : Xts} {image : Image} {volume : ApfsVolume}
variable {blockSize : Nat}

theorem readVirtualNode_at (omap : ObjectMap) (vek : Option Vek) (xid oid : Nat) :
    (readVirtualNode xts image blockSize omap vek xid oid).All (Resolution.At xid) := by
  have hat : Resolution.At xid ⟨oid, xid⟩ := rfl
  exact (all_step hat _).bind fun _ => all_silent _

theorem walkFsTree_at (targetOid : Option Nat) (visit : σ → Bytes → Bytes → σ) (acc : σ) :
    (walkFsTree xts image volume blockSize targetOid visit acc).All (Resolution.At volume.xid) := by
  refine (all_silent _).bind fun omap => All.bind ?_ fun _ => all_silent _
  intro res hres
  obtain ⟨oid, _, hres⟩ := List.mem_flatMap.mp hres
  exact readVirtualNode_at omap volume.vek volume.xid oid res hres

/-- The first node that a walk reads is the root. -/
theorem root_mem_walkFsTree (xts : Xts) (image : Image) (volume : ApfsVolume) (blockSize : Nat)
    {omap : ObjectMap} (homap : readObjectMap image volume.omapOid blockSize = .ok omap)
    (targetOid : Option Nat) (visit : σ → Bytes → Bytes → σ) (acc : σ) :
    ⟨volume.rootTreeOid, volume.xid⟩
      ∈ (walkFsTree xts image volume blockSize targetOid visit acc).log := by
  refine mem_bind_right homap (mem_bind_left ?_)
  exact List.mem_flatMap.mpr ⟨volume.rootTreeOid, root_mem_loggedWalk _ _ _ _ 63 _ _,
    mem_bind_left List.mem_cons_self⟩

theorem loadInode_at (oid : Nat) :
    (loadInode xts image volume blockSize oid).All (Resolution.At volume.xid) :=
  (walkFsTree_at _ _ _).bind fun _ => all_silent _

theorem listXattrs_at (inodeOid : Nat) :
    (listXattrs xts image volume blockSize inodeOid).All (Resolution.At volume.xid) :=
  walkFsTree_at _ _ _

theorem getXattr_at (inodeOid : Nat) (name : String) :
    (getXattr xts image volume blockSize inodeOid name).All (Resolution.At volume.xid) :=
  (listXattrs_at inodeOid).bind fun _ => all_silent _

theorem listExtents_at (streamOid : Nat) :
    (listExtents xts image volume blockSize streamOid).All (Resolution.At volume.xid) :=
  (walkFsTree_at _ _ _).bind fun _ => all_silent _

theorem readStream_at (streamOid logicalSize : Nat) :
    (readStream xts image volume blockSize streamOid logicalSize).All (Resolution.At volume.xid) :=
  (all_silent _).ite ((listExtents_at streamOid).bind fun _ => all_silent _)

theorem readXattrValue_at (value : XattrValue) :
    (readXattrValue xts image volume blockSize value).All (Resolution.At volume.xid) := by
  cases value with
  | embedded bytes => exact all_silent _
  | stream dstreamOid size => exact readStream_at dstreamOid size

theorem resourceFork_at (inodeOid : Nat) :
    (resourceFork xts image volume blockSize inodeOid).All (Resolution.At volume.xid) := by
  refine (getXattr_at inodeOid _).bind fun value => ?_
  cases value with
  | none => exact all_silent _
  | some value => exact (readXattrValue_at value).bind fun _ => all_silent _

theorem readData_at (inode : Inode) :
    (readData codecs xts image volume blockSize inode).All (Resolution.At volume.xid) := by
  refine ((getXattr_at inode.oid _).bind fun _ => all_silent _).bind fun header => ?_
  cases header with
  | none => exact readStream_at inode.privateId (inode.size.getD 0)
  | some header =>
    have hfork := @resourceFork_at xts image volume blockSize inode.oid
    exact (all_silent _).bind fun _ => (hfork.bind fun _ => all_silent _).ite (all_silent _)

section Adapter

variable {fs : ApfsFs}

theorem readDir_at (ino : FileId) :
    (readDir xts fs ino).All (Resolution.At fs.volume.xid) :=
  (all_silent _).bind fun _ => ((walkFsTree_at _ _ _).through _).bind fun _ => all_silent _

theorem extents_at (ino : FileId) (stream : StreamId) :
    (extents xts fs ino stream).All (Resolution.At fs.volume.xid) :=
  (all_silent _).bind fun node => (all_silent _).bind fun _ =>
    ((loadInode_at node).through _).bind fun inode =>
    ((listExtents_at inode.privateId).through _).bind fun _ => all_silent _

theorem lookup_at (parent : FileId) (name : Bytes) :
    (lookup xts fs parent name).All (Resolution.At fs.volume.xid) := by
  refine (all_silent _).bind fun parentOid => ?_
  cases String.fromUTF8? ⟨name.toArray⟩ with
  | none => exact all_silent _
  | some name => exact ((walkFsTree_at _ _ _).through _).bind fun _ => all_silent _

theorem metaOf_at (ino : FileId) : (metaOf xts fs ino).All (Resolution.At fs.volume.xid) :=
  (all_silent _).bind fun node => ((loadInode_at node).through _).bind fun _ => all_silent _

theorem dataStreams_at (ino : FileId) :
    (dataStreams xts fs ino).All (Resolution.At fs.volume.xid) :=
  (all_silent _).bind fun node => ((loadInode_at node).through _).bind fun _ =>
    ((listXattrs_at node).through _).bind fun _ => all_silent _

theorem readXattrAt_at (node idx off bufLen : Nat) :
    (readXattrAt xts fs node idx off bufLen).All (Resolution.At fs.volume.xid) := by
  refine ((listXattrs_at node).through _).bind fun list => ?_
  cases list[idx]? with
  | none => exact all_silent _
  | some x => exact ((readXattrValue_at x.value).through _).bind fun _ => all_silent _

theorem readAt_at (ino : FileId) (stream : StreamId) (off bufLen : Nat) :
    (readAt codecs xts fs ino stream off bufLen).All (Resolution.At fs.volume.xid) := by
  refine (all_silent _).bind fun node => ?_
  cases stream with
  | default =>
    exact ((loadInode_at node).through _).bind fun inode =>
      ((readData_at inode).through _).bind fun _ => all_silent _
  | xattr idx => exact readXattrAt_at node idx off bufLen
  | foreign debug => exact all_silent _

end Adapter

end Resolutions

/-- **Every call resolves at the transaction of the volume.** -/
theorem resolutions_at (codecs : Codecs) (xts : Xts) (fs : ApfsFs) (call : VfsCall) :
    ∀ res ∈ fs.resolutions codecs xts call, res.xid = fs.volume.xid := by
  cases call with
  | readDir ino => exact Resolutions.readDir_at ino
  | extents ino stream => exact Resolutions.extents_at ino stream
  | lookup parent name => exact Resolutions.lookup_at parent name
  | metaOf ino => exact Resolutions.metaOf_at ino
  | dataStreams ino => exact Resolutions.dataStreams_at ino
  | readAt ino stream off bufLen => exact Resolutions.readAt_at ino stream off bufLen

theorem root_mem_metaOf (codecs : Codecs) (xts : Xts) (fs : ApfsFs) {omap : ObjectMap}
    (homap : readObjectMap fs.reader fs.volume.omapOid fs.blockSize = .ok omap) :
    ⟨fs.volume.rootTreeOid, fs.volume.xid⟩ ∈ fs.resolutions codecs xts (.metaOf fs.root) := by
  have hoid : oidOf fs.root = .ok rootDirInoNum := rfl
  refine Trace.mem_bind_right hoid (Trace.mem_bind_left (Trace.mem_bind_left ?_))
  exact Resolutions.root_mem_walkFsTree xts fs.reader fs.volume fs.blockSize homap _ _ _

/-- The identities carry the transaction that was asked for. -/
theorem minted_at (xts : Xts) (fs : ApfsFs) (call : VfsCall) :
    ∀ id ∈ fs.minted xts call, ∃ oid, id = .apfsOid oid fs.rootXid := by
  intro id hid
  cases call with
  | readDir ino =>
    rw [ApfsFs.minted] at hid
    cases hdir : fs.readDir xts ino with
    | error e => rw [hdir] at hid; cases hid
    | ok entries =>
      rw [hdir] at hid
      simp only [ApfsFs.readDir, vfs_bind_eq_ok_iff] at hdir
      obtain ⟨_, _, dirEntries, _, hentries⟩ := hdir
      cases hentries
      simp only [List.map_map, List.mem_map] at hid
      obtain ⟨e, _, rfl⟩ := hid
      exact ⟨e.fileId, rfl⟩
  | lookup parent name =>
    rw [ApfsFs.minted] at hid
    cases hlook : fs.lookup xts parent name with
    | error e => rw [hlook] at hid; cases hid
    | ok found =>
      rw [hlook, Option.mem_toList] at hid
      rw [ApfsFs.lookup, vfs_bind_eq_ok_iff] at hlook
      obtain ⟨parentOid, _, hlook⟩ := hlook
      cases hname : String.fromUTF8? ⟨name.toArray⟩ with
      | none =>
        rw [hname] at hlook
        cases hlook
        cases hid
      | some name =>
        rw [hname] at hlook
        simp only [vfs_bind_eq_ok_iff] at hlook
        obtain ⟨child, _, hfound⟩ := hlook
        cases hfound
        obtain ⟨oid, _, rfl⟩ := Option.map_eq_some_iff.mp hid
        exact ⟨oid, rfl⟩
  | _ => cases hid

/-! ### Mounts at a transaction -/

/-- The mounted volume is read, and its nodes are named, at transaction `xid`. -/
structure ApfsFs.MountedAt (fs : ApfsFs) (xid : Nat) : Prop where
  resolves : ∀ codecs xts call, ∀ res ∈ fs.resolutions codecs xts call, res.xid = xid
  mints : ∀ xts call id, id = fs.root ∨ id ∈ fs.minted xts call → ∃ oid, id = .apfsOid oid xid

/-- The first snapshot record for `xid` points to a volume superblock of another
transaction. -/
def PointsElsewhere (image : Image) (xid : Nat) : Prop :=
  ∃ live blockSize spacemanPaddr snaps snapshot frozen,
    ApfsFs.openFirstVolume image = .ok (live, blockSize, spacemanPaddr) ∧
    listSnapshots image live blockSize = .ok snaps ∧
    snaps.find? (fun s => s.xid = xid) = some snapshot ∧
    mountSnapshot image live blockSize snapshot = .ok frozen ∧ frozen.xid ≠ xid

theorem mountedAt_of_xid {fs : ApfsFs} {xid : Nat} (hvol : fs.volume.xid = xid)
    (hroot : fs.rootXid = xid) : fs.MountedAt xid where
  resolves codecs xts call res hres := hvol ▸ resolutions_at codecs xts fs call res hres
  mints xts call id hid := by
    subst hroot
    rcases hid with rfl | hid
    · exact ⟨rootDirInoNum, rfl⟩
    · exact minted_at xts fs call id hid

/-- What `open_snapshot` mounts. -/
theorem mounted_of_openSnapshot {image : Image} {xid : Nat} {fs : ApfsFs}
    (h : ApfsFs.openSnapshot image xid = .ok fs) :
    fs.MountedAt xid ∨ PointsElsewhere image xid := by
  rw [ApfsFs.openSnapshot, bind_eq_ok_iff] at h
  obtain ⟨⟨live, blockSize, spacemanPaddr⟩, hfirst, h⟩ := h
  by_cases hlive : xid = live.xid
  · simp only [if_pos hlive] at h
    cases h
    exact Or.inl (mountedAt_of_xid hlive.symm rfl)
  · simp only [if_neg hlive, bind_eq_ok_iff] at h
    obtain ⟨snaps, hsnaps, h⟩ := h
    cases hfind : snaps.find? (fun s => s.xid = xid) with
    | none => rw [hfind] at h; cases h
    | some snapshot =>
      rw [hfind] at h
      simp only [bind_eq_ok_iff] at h
      obtain ⟨frozen, hmount, h⟩ := h
      cases h
      by_cases hxid : frozen.xid = xid
      · exact Or.inl (mountedAt_of_xid hxid rfl)
      · exact Or.inr ⟨live, blockSize, spacemanPaddr, snaps, snapshot, frozen, hfirst, hsnaps,
          hfind, hmount, hxid⟩

/-- A record for the transaction is mounted, whatever superblock it points to. -/
theorem openSnapshot_of_record {image : Image} {live frozen : ApfsVolume} {blockSize xid : Nat}
    {spacemanPaddr : Option Nat} {snaps : List Snapshot} {snapshot : Snapshot}
    (hfirst : ApfsFs.openFirstVolume image = .ok (live, blockSize, spacemanPaddr))
    (hlive : xid ≠ live.xid) (hsnaps : listSnapshots image live blockSize = .ok snaps)
    (hfind : snaps.find? (fun s => s.xid = xid) = some snapshot)
    (hmount : mountSnapshot image live blockSize snapshot = .ok frozen) :
    ApfsFs.openSnapshot image xid = .ok ⟨image, frozen, blockSize, xid, spacemanPaddr⟩ := by
  simp only [ApfsFs.openSnapshot, hfirst, ok_bind, if_neg hlive, hsnaps, hfind, hmount]
  rfl

theorem openSnapshot_of_pointsElsewhere {image : Image} {xid : Nat}
    (h : PointsElsewhere image xid) : ∃ fs, ApfsFs.openSnapshot image xid = .ok fs := by
  obtain ⟨live, blockSize, spacemanPaddr, snaps, snapshot, frozen, hfirst, hsnaps, hfind, hmount,
    _⟩ := h
  by_cases hlive : xid = live.xid
  · rw [ApfsFs.openSnapshot, hfirst, ok_bind]
    simp only [if_pos hlive]
    exact ⟨_, rfl⟩
  · exact ⟨_, openSnapshot_of_record hfirst hlive hsnaps hfind hmount⟩

/-- **When a mount at `xid` is one.**  A volume that `open_snapshot` mounts is read at `xid`,
and a record for `xid` that points to a superblock of another transaction is refused,
exactly if there is no such record. -/
theorem snapshot_mount_iff (image : Image) (xid : Nat) :
    (∀ fs, ApfsFs.openSnapshot image xid = .ok fs → fs.MountedAt xid) ∧
        (PointsElsewhere image xid → ∀ fs, ApfsFs.openSnapshot image xid ≠ .ok fs) ↔
      ¬ PointsElsewhere image xid := by
  constructor
  · rintro ⟨_, hrefused⟩ helse
    obtain ⟨fs, hfs⟩ := openSnapshot_of_pointsElsewhere helse
    exact hrefused helse fs hfs
  · intro hnot
    refine ⟨fun fs hfs => ?_, fun helse => absurd helse hnot⟩
    exact (mounted_of_openSnapshot hfs).resolve_right hnot

/-! ### A record that points to another transaction

The volume stands at transaction `2`.  Its only snapshot record is for transaction
`1` and points to a superblock of transaction `7`. -/

def elsewhereRecords : List Entry := [⟨jkeyBytes 1 1, toLeBytes 8 0 ++ toLeBytes 8 6⟩]

def elsewhereBlocks : List Bytes :=
  oneVolumeBlocks 4096 1026 volumeTree
    [apsbBlock 4096 1026 2 2 1028 5, btreeNode 4096 5 2 0x3 0 elsewhereRecords,
      apsbBlock 4096 1026 7 2 1028 0]

def elsewhereImage : Image := .ofBlocks elsewhereBlocks

/-- What the blocks of the volume say. -/
def ElsewhereHeaders : Prop :=
  (ApfsVolume.parse (apsbBlock 4096 1026 2 2 1028 5) = .ok (soleVolume 2 5) ∧
    ApfsVolume.parse (apsbBlock 4096 1026 7 2 1028 0) = .ok (soleVolume 7 0)) ∧
  nodeView (btreeNode 4096 5 2 0x3 0 elsewhereRecords) .fsTree = .leaf elsewhereRecords

instance : Decidable ElsewhereHeaders := inferInstanceAs (Decidable (_ ∧ _))

theorem elsewhereHeaders : ElsewhereHeaders := by decide +kernel

theorem hasBlocks_elsewhereImage : elsewhereImage.HasBlocks 4096 elsewhereBlocks := by
  refine Image.hasBlocks_ofBlocks (length_oneVolumeBlocks le_rfl (length_btreeNode (by decide) ..)
    ?_) (by decide)
  intro b hb
  simp only [List.mem_cons, List.not_mem_nil, or_false] at hb
  rcases hb with rfl | rfl | rfl
  · exact length_apsbBlock (by decide) ..
  · exact length_btreeNode (by decide) ..
  · exact length_apsbBlock (by decide) ..

theorem openFirstVolume_elsewhereImage : ∃ spacemanPaddr,
    ApfsFs.openFirstVolume elsewhereImage = .ok (soleVolume 2 5, 4096, spacemanPaddr) := by
  obtain ⟨container, hopen, hsb, _, haddrs⟩ := openContainer_volumeTree hasBlocks_elsewhereImage
  have hsize : container.superblock.blockSize = 4096 := by rw [hsb]; rfl
  have hapsb : elsewhereBlocks[4]? = some (apsbBlock 4096 1026 2 2 1028 5) := rfl
  exact ⟨container.spacemanPaddr, openFirstVolume_of_addr hopen haddrs hsize
    (hasBlocks_elsewhereImage.readBlock hapsb) elsewhereHeaders.1.1⟩

theorem readObjectMap_elsewhereImage :
    readObjectMap elsewhereImage 2 4096 = .ok ⟨0, 0x40000002, 3, 0⟩ :=
  readObjectMap_oneVolume hasBlocks_elsewhereImage oneVolumeHeaders_4096

theorem mountSnapshot_elsewhereImage :
    mountSnapshot elsewhereImage (soleVolume 2 5) 4096
        (parseSnapMetadata 1 (toLeBytes 8 0 ++ toLeBytes 8 6))
      = .ok (soleVolume 7 0) := by
  have hfrozen : elsewhereBlocks[6]? = some (apsbBlock 4096 1026 7 2 1028 0) := rfl
  have hsblock : (parseSnapMetadata 1 (toLeBytes 8 0 ++ toLeBytes 8 6)).sblockOid = 6 := by
    decide +kernel
  rw [mountSnapshot, hsblock, hasBlocks_elsewhereImage.readBlock hfrozen, ok_bind,
    elsewhereHeaders.1.2]
  rfl

theorem listSnapshots_elsewhereImage :
    listSnapshots elsewhereImage (soleVolume 2 5) 4096
      = .ok [parseSnapMetadata 1 (toLeBytes 8 0 ++ toLeBytes 8 6)] := by
  have hroot : elsewhereBlocks[5]? = some (btreeNode 4096 5 2 0x3 0 elsewhereRecords) := rfl
  have hread := hasBlocks_elsewhereImage.readBlock hroot
  have hvalid : ValidSnapTree elsewhereImage (soleVolume 2 5) 4096 ⟨0, 0x40000002, 3, 0⟩
      (.leaf (.root 5) elsewhereRecords) :=
    validSnapTree_leaf readObjectMap_elsewhereImage hread (btreeNode_verifies ..)
      elsewhereHeaders.2
  rw [listSnapshots_ok hvalid (by simp [Tree.nodes])]
  decide +kernel

/-- The mounted volume names its nodes at transaction `1` and is read at `7`. -/
theorem openSnapshot_elsewhereImage :
    PointsElsewhere elsewhereImage 1 ∧
    ∃ fs, ApfsFs.openSnapshot elsewhereImage 1 = .ok fs ∧ fs.root = .apfsOid 2 1 ∧
      ∀ codecs xts, ⟨1028, 7⟩ ∈ fs.resolutions codecs xts (.metaOf fs.root) := by
  obtain ⟨spacemanPaddr, hfirst⟩ := openFirstVolume_elsewhereImage
  have hlist := listSnapshots_elsewhereImage
  have hfind : [parseSnapMetadata 1 (toLeBytes 8 0 ++ toLeBytes 8 6)].find?
      (fun s => s.xid = 1) = some (parseSnapMetadata 1 (toLeBytes 8 0 ++ toLeBytes 8 6)) := rfl
  have hmount := mountSnapshot_elsewhereImage
  have hlive : 1 ≠ (soleVolume 2 5).xid := by decide
  refine ⟨⟨_, _, _, _, _, _, hfirst, hlist, hfind, hmount, by decide⟩, _,
    openSnapshot_of_record hfirst hlive hlist hfind hmount, rfl, ?_⟩
  intro codecs xts
  exact root_mem_metaOf codecs xts ⟨elsewhereImage, soleVolume 7 0, 4096, 1, spacemanPaddr⟩
    readObjectMap_elsewhereImage

end ApfsForensic
