import ApfsForensic.Core.SnapshotMount

/-!
# Identities and points in time

A `FileId` of `core/src/vfs.rs` has the transaction of the mount that minted it beside
the oid.  No call of a mounted volume looks at it: `oid_of` takes the oid, and that is all
a call has of the identity (`answer_eq_of_oid`).

* `foreign_ids_refused_iff`: a call refuses an identity of another transaction exactly
  if it refuses its own identity of the same oid, and no mount refuses all of them.
-/

namespace ApfsForensic

open Walk ApfsContainer

/-! ### Calls on an identity -/

/-- A call that takes an identity, without it. -/
inductive IdCall where
  | readDir
  | lookup (name : Bytes)
  | metaOf
  | extents (stream : StreamId)
  | dataStreams
  | readAt (stream : StreamId) (off bufLen : Nat)

/-- The call on this identity. -/
def IdCall.on : IdCall → FileId → VfsCall
  | readDir, id => .readDir id
  | lookup name, id => .lookup id name
  | metaOf, id => .metaOf id
  | extents stream, id => .extents id stream
  | dataStreams, id => .dataStreams id
  | readAt stream off bufLen, id => .readAt id stream off bufLen

/-- What a call answers. -/
inductive VfsAnswer where
  | entries (entries : List VfsDirEntry)
  | runs (runs : List RunInfo)
  | found (id : Option FileId)
  | node (node : FsMeta)
  | streams (streams : List StreamInfo)
  | bytes (bytes : Bytes)

namespace ApfsFs

variable (codecs : Codecs) (xts : Xts) (fs : ApfsFs)

def answer : VfsCall → VfsResult VfsAnswer
  | .readDir ino => (fs.readDir xts ino).map .entries
  | .extents ino stream => (fs.extents xts ino stream).map .runs
  | .lookup parent name => (fs.lookup xts parent name).map .found
  | .metaOf ino => (fs.metaOf xts ino).map .node
  | .dataStreams ino => (fs.dataStreams xts ino).map .streams
  | .readAt ino stream off bufLen => (fs.readAt codecs xts ino stream off bufLen).map .bytes

/-- The call is refused with an error. -/
def Refuses (call : VfsCall) : Prop := ∃ e, fs.answer codecs xts call = .error (.err e)

/-- The identity is the root's or one that a call has returned. -/
def Mints (id : FileId) : Prop := id = fs.root ∨ ∃ call, id ∈ fs.minted xts call

/-- The volume is a mount of the image, live or at a transaction. -/
def MountOf (image : Image) : Prop :=
  openLive image = .ok fs ∨ ∃ xid, openSnapshot image xid = .ok fs

end ApfsFs

/-- Two mounts of an image at different transactions. -/
structure TwoMounts (image : Image) (a b : ApfsFs) : Prop where
  first : a.MountOf image
  second : b.MountOf image
  apart : a.rootXid ≠ b.rootXid

section Answers

variable {codecs : Codecs} {xts : Xts} {fs : ApfsFs}

/-- **A call sees of an identity only its oid.** -/
theorem answer_eq_of_oid (op : IdCall) (oid x y : Nat) :
    fs.answer codecs xts (op.on (.apfsOid oid x))
      = fs.answer codecs xts (op.on (.apfsOid oid y)) := by
  cases op with
  | readDir => rfl
  | lookup name => rfl
  | metaOf => rfl
  | extents stream => rfl
  | dataStreams => rfl
  | readAt stream off bufLen => rfl

theorem exists_oid_of_mints {id : FileId} (h : fs.Mints xts id) :
    ∃ oid, id = .apfsOid oid fs.rootXid := by
  rcases h with rfl | ⟨call, hid⟩
  · exact ⟨rootDirInoNum, rfl⟩
  · exact minted_at xts fs call id hid

theorem metaOf_of_loadInode {oid xid : Nat} {inode : Inode}
    (h : loadInode xts fs.reader fs.volume fs.blockSize oid = .ok inode) :
    fs.metaOf xts (.apfsOid oid xid) = .ok (buildMeta inode) := by
  simp only [ApfsFs.metaOf, oidOf, vfs_ok_bind, h, viaVfs_ok]
  rfl

/-- A name that is no UTF-8 is looked up without a look at the parent. -/
theorem not_refuses_lookup (oid xid : Nat) :
    ¬ fs.Refuses codecs xts ((IdCall.lookup [0xff]).on (.apfsOid oid xid)) := by
  intro h
  obtain ⟨e, he⟩ := h
  have hname : String.fromUTF8? ⟨[(0xff : UInt8)].toArray⟩ = none := by decide +kernel
  have hanswer : fs.answer codecs xts ((IdCall.lookup [0xff]).on (.apfsOid oid xid))
      = .ok (.found none) := by
    simp only [IdCall.on, ApfsFs.answer, ApfsFs.lookup, oidOf, vfs_ok_bind, hname]
    rfl
  rw [hanswer] at he
  cases he

end Answers

/-- **When an identity of another point in time is refused.**  Of two mounts at different
transactions, a call on the second refuses an identity of the first exactly if it refuses
the identity that the second one would use for the same oid; and some call refuses none. -/
theorem foreign_ids_refused_iff {image : Image} {a b : ApfsFs} (h : TwoMounts image a b)
    (codecs : Codecs) (xts : Xts) :
    (∀ id, a.Mints xts id → ∃ oid, id = .apfsOid oid a.rootXid ∧ id ≠ .apfsOid oid b.rootXid ∧
      ∀ op : IdCall, b.Refuses codecs xts (op.on id) ↔
        b.Refuses codecs xts (op.on (.apfsOid oid b.rootXid))) ∧
    ¬ ∀ id, a.Mints xts id → ∀ op : IdCall, b.Refuses codecs xts (op.on id) := by
  refine ⟨fun id hid => ?_, fun hall => ?_⟩
  · obtain ⟨oid, rfl⟩ := exists_oid_of_mints hid
    refine ⟨oid, rfl, fun heq => h.apart (FileId.apfsOid.inj heq).2, fun op => ?_⟩
    rw [ApfsFs.Refuses, ApfsFs.Refuses, answer_eq_of_oid op oid a.rootXid b.rootXid]
  · exact not_refuses_lookup _ _ (hall a.root (Or.inl rfl) (.lookup [0xff]))

/-! ### A volume and its snapshot

The volume stands at transaction `2`, its snapshot at transaction `1`.  Both have their
own version of the root of the fs-tree, a leaf. -/

/-- The snapshot, whose superblock is block seven. -/
def mountSnapRecord : Entry := ⟨jkeyBytes 1 1, toLeBytes 8 0 ++ toLeBytes 8 7⟩

def mountTree : Bytes :=
  btreeNode 4096 3 2 0x7 0 [omapRecord 1026 2 0 4, omapRecord 1028 1 0 6, omapRecord 1028 2 0 8]

/-- The root of the fs-tree at a transaction. -/
def mountRoot (xid : Nat) (records : List Entry) : Bytes := btreeNode 4096 1028 xid 0x3 0 records

def mountBlocks (frozen live : List Entry) (data : List Bytes) : List Bytes :=
  oneVolumeBlocks 4096 1026 mountTree
    (apsbBlock 4096 1026 2 2 1028 5 :: btreeNode 4096 5 2 0x3 0 [mountSnapRecord] ::
      mountRoot 1 frozen :: apsbBlock 4096 1026 1 2 1028 0 :: mountRoot 2 live :: data)

/-- What the blocks say whatever the files are. -/
def MountHeaders : Prop :=
  (ApfsVolume.parse (apsbBlock 4096 1026 2 2 1028 5) = .ok (soleVolume 2 5) ∧
    ApfsVolume.parse (apsbBlock 4096 1026 1 2 1028 0) = .ok (soleVolume 1 0)) ∧
  nodeView (btreeNode 4096 5 2 0x3 0 [mountSnapRecord]) .fsTree = .leaf [mountSnapRecord] ∧
  (parseNodeHeader mountTree).map BTreeNodeHeader.isLeaf = some true ∧
  omapScan 1026 2 (nodeEntries mountTree .omap) = some ⟨1026, 2, 4, 4096, 0⟩ ∧
  omapScan 1028 1 (nodeEntries mountTree .omap) = some ⟨1028, 1, 6, 4096, 0⟩ ∧
  omapScan 1028 2 (nodeEntries mountTree .omap) = some ⟨1028, 2, 8, 4096, 0⟩

instance : Decidable MountHeaders := inferInstanceAs (Decidable (_ ∧ _))

theorem mountHeaders : MountHeaders := by decide +kernel

/-- The records fit the root, and stand there. -/
def IsMountRoot (xid : Nat) (records : List Entry) : Prop :=
  (mountRoot xid records).length = 4096 ∧ nodeView (mountRoot xid records) .fsTree = .leaf records

instance (xid : Nat) (records : List Entry) : Decidable (IsMountRoot xid records) :=
  inferInstanceAs (Decidable (_ ∧ _))

section Mounts

variable {frozen live : List Entry} {data : List Bytes}

theorem hasBlocks_mountBlocks (hfrozen : IsMountRoot 1 frozen) (hlive : IsMountRoot 2 live)
    (hdata : ∀ b ∈ data, b.length = 4096) (hsize : data.length ≤ 1000) :
    (Image.ofBlocks (mountBlocks frozen live data)).HasBlocks 4096
      (mountBlocks frozen live data) := by
  refine Image.hasBlocks_ofBlocks (length_oneVolumeBlocks le_rfl (length_btreeNode (by decide) ..)
    fun b hb => ?_) ?_
  · simp only [List.mem_cons] at hb
    rcases hb with rfl | rfl | rfl | rfl | rfl | hb
    · exact length_apsbBlock (by decide) ..
    · exact length_btreeNode (by decide) ..
    · exact hfrozen.1
    · exact length_apsbBlock (by decide) ..
    · exact hlive.1
    · exact hdata b hb
  · simp only [mountBlocks, oneVolumeBlocks, List.length_cons, u64Max]
    omega

variable {image : Image} (hblocks : image.HasBlocks 4096 (mountBlocks frozen live data))

include hblocks

theorem readObjectMap_mount : readObjectMap image 2 4096 = .ok ⟨0, 0x40000002, 3, 0⟩ :=
  readObjectMap_oneVolume hblocks oneVolumeHeaders_4096

theorem resolve_mount {oid xid : Nat} {entry : OmapEntry}
    (hscan : omapScan oid xid (nodeEntries mountTree .omap) = some entry) :
    (⟨0, 0x40000002, 3, 0⟩ : ObjectMap).resolve image oid xid 4096 = .ok entry := by
  have hsum : fletcher64Stored mountTree = fletcher64Checksum mountTree := by
    rw [mountTree, btreeNode_verifies]
  exact resolve_oneVolume hblocks hsum mountHeaders.2.2.1 hscan

theorem openFirstVolume_mount :
    ∃ spacemanPaddr, ApfsFs.openFirstVolume image = .ok (soleVolume 2 5, 4096, spacemanPaddr) := by
  have hbs : 4096 ≤ 4096 ∧ 4096 ≤ 65536 := by decide
  obtain ⟨container, hopen, hsb, _⟩ := openContainer_oneVolume hbs hblocks oneVolumeHeaders_4096
  have haddrs := volumeSuperblockAddrs_oneVolume hbs hblocks oneVolumeHeaders_4096 hsb (by decide)
    (resolve_mount hblocks mountHeaders.2.2.2.1)
  have hsize : container.superblock.blockSize = 4096 := by rw [hsb]; rfl
  have hapsb : (mountBlocks frozen live data)[4]? = some (apsbBlock 4096 1026 2 2 1028 5) := rfl
  exact ⟨container.spacemanPaddr, openFirstVolume_of_addr hopen haddrs hsize
    (hblocks.readBlock hapsb) mountHeaders.1.1⟩

theorem openLive_mount : ∃ spacemanPaddr,
    ApfsFs.openLive image = .ok ⟨image, soleVolume 2 5, 4096, 2, spacemanPaddr⟩ := by
  obtain ⟨spacemanPaddr, hfirst⟩ := openFirstVolume_mount hblocks
  refine ⟨spacemanPaddr, ?_⟩
  rw [ApfsFs.openLive, hfirst]
  rfl

theorem openSnapshot_mount : ∃ spacemanPaddr,
    ApfsFs.openSnapshot image 1 = .ok ⟨image, soleVolume 1 0, 4096, 1, spacemanPaddr⟩ := by
  obtain ⟨spacemanPaddr, hfirst⟩ := openFirstVolume_mount hblocks
  have hroot : (mountBlocks frozen live data)[5]?
      = some (btreeNode 4096 5 2 0x3 0 [mountSnapRecord]) := rfl
  have hapsb : (mountBlocks frozen live data)[7]? = some (apsbBlock 4096 1026 1 2 1028 0) := rfl
  have hvalid : ValidSnapTree image (soleVolume 2 5) 4096 ⟨0, 0x40000002, 3, 0⟩
      (.leaf (.root 5) [mountSnapRecord]) :=
    validSnapTree_leaf (readObjectMap_mount hblocks) (hblocks.readBlock hroot)
      (btreeNode_verifies ..) mountHeaders.2.1
  have hlist : listSnapshots image (soleVolume 2 5) 4096
      = .ok [parseSnapMetadata 1 mountSnapRecord.value] := by
    rw [listSnapshots_ok hvalid (by simp [Walk.Tree.nodes])]
    decide +kernel
  have hsblock : (parseSnapMetadata 1 mountSnapRecord.value).sblockOid = 7 := by decide +kernel
  have hmount : mountSnapshot image (soleVolume 2 5) 4096
      (parseSnapMetadata 1 mountSnapRecord.value) = .ok (soleVolume 1 0) := by
    rw [mountSnapshot, hsblock, hblocks.readBlock hapsb, ok_bind, mountHeaders.1.2]
    rfl
  exact ⟨spacemanPaddr, openSnapshot_of_record hfirst (by decide) hlist rfl hmount⟩

/-- A walk of the volume visits the records of the root at its transaction. -/
theorem walkFsTree_mount {σ : Type} {xid paddr snapMetaTreeOid : Nat} {records : List Entry}
    (hscan : omapScan 1028 xid (nodeEntries mountTree .omap) = some ⟨1028, xid, paddr, 4096, 0⟩)
    (hget : (mountBlocks frozen live data)[paddr]? = some (mountRoot xid records))
    (hroot : IsMountRoot xid records) (xts : Xts) (targetOid : Option Nat)
    (visit : σ → Bytes → Bytes → σ) (acc : σ) :
    walkFsTree xts image (soleVolume xid snapMetaTreeOid) 4096 targetOid visit acc
      = .ok (records.foldl (fun a e => visit a e.key e.value) acc) := by
  have hsum : verifyChecksum (mountRoot xid records) (headerOidOr (mountRoot xid records) paddr)
      = .ok () := by
    rw [verifyChecksum_eq_ok_iff, mountRoot, btreeNode_verifies]
  have hfetch : fetchVirtual xts image ⟨0, 0x40000002, 3, 0⟩ none xid 4096 1028
      = .ok (.leaf records) := by
    rw [fetchVirtual, readVirtualNode, resolve_mount hblocks hscan, ok_bind]
    simp only [hblocks.readBlock hget, ok_bind, decryptNode]
    rw [if_neg (by decide), ok_bind, hsum, ok_bind, ← hroot.2]
    rfl
  have homap : readObjectMap image (soleVolume xid snapMetaTreeOid).omapOid 4096
      = .ok ⟨0, 0x40000002, 3, 0⟩ := readObjectMap_mount hblocks
  exact walkFsTree_of_root_leaf _ _ homap hfetch targetOid visit acc

/-- An inode of the root at a transaction. -/
theorem loadInode_mount {xid paddr snapMetaTreeOid oid : Nat} {records : List Entry} {value : Bytes}
    (hscan : omapScan 1028 xid (nodeEntries mountTree .omap) = some ⟨1028, xid, paddr, 4096, 0⟩)
    (hget : (mountBlocks frozen live data)[paddr]? = some (mountRoot xid records))
    (hroot : IsMountRoot xid records) (xts : Xts)
    (hvalue : records.foldl (fun value e => if value.isSome then value
      else if jkeyType e.key = some .inode ∧ jkeyOid e.key = oid then some e.value else value) none
        = some value) :
    loadInode xts image (soleVolume xid snapMetaTreeOid) 4096 oid = .ok (.parse oid value) := by
  rw [loadInode, forEachFsRecordForOid, walkFsTree_mount hblocks hscan hget hroot, ok_bind, hvalue]
  rfl

end Mounts

/-- The inode of the root directory, of this owner. -/
def rootInode (uid : Nat) : Bytes := List.replicate 72 0 ++ toLeBytes 4 uid ++ List.replicate 16 0

/-- The root directory belongs to `501` in the snapshot and to `0` since. -/
def chownedBlocks : List Bytes :=
  mountBlocks [⟨jkeyBytes 3 2, rootInode 501⟩] [⟨jkeyBytes 3 2, rootInode 0⟩] []

def chownedImage : Image := .ofBlocks chownedBlocks

theorem isMountRoot_chowned : IsMountRoot 1 [⟨jkeyBytes 3 2, rootInode 501⟩] ∧
    IsMountRoot 2 [⟨jkeyBytes 3 2, rootInode 0⟩] := by decide +kernel

theorem hasBlocks_chownedImage : chownedImage.HasBlocks 4096 chownedBlocks :=
  hasBlocks_mountBlocks isMountRoot_chowned.1 isMountRoot_chowned.2 (by simp) (by simp)

theorem twoMounts_chownedImage : ∃ spacemanPaddr spacemanPaddr',
    TwoMounts chownedImage ⟨chownedImage, soleVolume 1 0, 4096, 1, spacemanPaddr⟩
      ⟨chownedImage, soleVolume 2 5, 4096, 2, spacemanPaddr'⟩ := by
  obtain ⟨spacemanPaddr, hsnap⟩ := openSnapshot_mount hasBlocks_chownedImage
  obtain ⟨spacemanPaddr', hlive⟩ := openLive_mount hasBlocks_chownedImage
  have hxid : 1 ≠ 2 := by decide
  exact ⟨spacemanPaddr, spacemanPaddr', Or.inr ⟨1, hsnap⟩, Or.inl hlive, hxid⟩

theorem foreign_ids_chownedImage :
    ∃ snap live, TwoMounts chownedImage snap live ∧ ∀ codecs xts,
      ¬ ∀ id, snap.Mints xts id → ∀ op : IdCall, live.Refuses codecs xts (op.on id) := by
  obtain ⟨spacemanPaddr, spacemanPaddr', hmounts⟩ := twoMounts_chownedImage
  exact ⟨_, _, hmounts, fun codecs xts => (foreign_ids_refused_iff hmounts codecs xts).2⟩

/-- The live volume answers for the root of the snapshot, with the owner of its own. -/
theorem live_answers_snapshot_root :
    ∃ snap live, TwoMounts chownedImage snap live ∧ snap.root = .apfsOid 2 1 ∧
      ∀ xts, live.metaOf xts snap.root = .ok (buildMeta (.parse 2 (rootInode 0))) ∧
        snap.metaOf xts snap.root = .ok (buildMeta (.parse 2 (rootInode 501))) ∧
        (buildMeta (.parse 2 (rootInode 0))).uid ≠ (buildMeta (.parse 2 (rootInode 501))).uid := by
  obtain ⟨spacemanPaddr, spacemanPaddr', hmounts⟩ := twoMounts_chownedImage
  refine ⟨_, _, hmounts, rfl, fun xts => ⟨metaOf_of_loadInode ?_, metaOf_of_loadInode ?_,
    by decide +kernel⟩⟩
  · exact loadInode_mount hasBlocks_chownedImage mountHeaders.2.2.2.2.2 rfl isMountRoot_chowned.2
      xts (by decide +kernel)
  · exact loadInode_mount hasBlocks_chownedImage mountHeaders.2.2.2.2.1 rfl isMountRoot_chowned.1
      xts (by decide +kernel)

end ApfsForensic
