import ApfsForensic.Core.Written

/-!
# A volume and its past

A snapshot keeps the superblock of its time and shares the object map of the live volume, which
keeps the mappings of that time too.  `WrittenSnapshots` is the tree of snapshots in the terms of
a writer, like the rest of a written container.

`written_timeline_reads_back`: the snapshots are listed as they were written, each can be mounted
and shows the contents of its time, and no other time can.
-/

namespace ApfsForensic

open Walk

/-- `ApfsFs::snapshots`. -/
def ApfsFs.snapshots (image : Image) : Result (List Snapshot) := do
  let (volume, blockSize, _) ← ApfsFs.openFirstVolume image
  listSnapshots image volume blockSize

/-! ### The tree of snapshots -/

/-- The node stands where its reference leads: the root at its block, any other node where the
object map has its oid. -/
def SnapNodeAt (image : Image) (es : List OmapEntry) (xid blockSize : Nat) :
    SnapRef → NodeView Bytes SnapRef Entry → Prop
  | .root paddr, view =>
    ∃ node, NodeAt image blockSize .fsTree paddr node ∧ node.mapRefs .child = view
  | .child oid, view => ∃ e node, OmapEntry.Current e es oid xid ∧
    NodeAt image blockSize .fsTree e.paddr node ∧ node.mapRefs .child = view

/-- The snapshots of a volume, and what their writer chose.  Their records are in the order of
their xids. -/
structure WrittenSnapshots (image : Image) (live : ApfsVolume) (blockSize : Nat)
    (snaps : List Snapshot) where
  entries : List OmapEntry
  omap : WrittenOmap image blockSize live.omapOid entries
  objects : List SnapObject
  fits : ∀ o ∈ objects, o.Fits
  tree : SnapTree
  root : tree.key = .root live.snapMetaTreeOid
  nodes : tree.All (SnapNodeAt image entries live.xid blockSize)
  height_le : tree.height ≤ maxSnapTreeDepth
  distinct : tree.nodes.Nodup
  apart : ∀ oid, .child oid ∈ tree.nodes → oid ≠ live.snapMetaTreeOid
  records : tree.records = objects.map SnapObject.record
  snapshots_eq : objects.filterMap SnapObject.snapshot = snaps
  ordered : snaps.Pairwise (fun a b => a.xid < b.xid)

namespace WrittenSnapshots

variable {image : Image} {live : ApfsVolume} {blockSize : Nat} {snaps : List Snapshot}

theorem fetchSnap (w : WrittenSnapshots image live blockSize snaps) {ref : SnapRef}
    {view : NodeView Bytes SnapRef Entry}
    (h : SnapNodeAt image w.entries live.xid blockSize ref view) :
    fetchSnap image w.omap.omap live.xid blockSize ref = .ok view := by
  cases ref with
  | root paddr =>
    obtain ⟨node, ⟨block, hblock, hnode⟩, rfl⟩ := h
    obtain ⟨hsum, rfl, -⟩ := hnode.spec
    exact fetchSnap_root_of_block _ _ _ _ (readBlock_of_blockInside hblock) hsum
  | child oid =>
    obtain ⟨e, node, hcurrent, ⟨block, hblock, hnode⟩, rfl⟩ := h
    obtain ⟨hsum, rfl, -⟩ := hnode.spec
    exact fetchSnap_child_of_block _ _ _ _ (w.omap.resolve hcurrent)
      (readBlock_of_blockInside hblock) hsum

theorem validSnapTree (w : WrittenSnapshots image live blockSize snaps) :
    ValidSnapTree image live blockSize w.omap.omap w.tree where
  omap_ok := w.omap.readObjectMap
  root := w.root
  stored := w.nodes.stored fun _ _ h => w.fetchSnap h
  height_le := w.height_le
  distinct := w.distinct

/-- **Written snapshots are listed.** -/
theorem listSnapshots (w : WrittenSnapshots image live blockSize snaps) :
    listSnapshots image live blockSize = .ok snaps := by
  have hsorted : snaps.Pairwise (fun a b => a.xid ≤ b.xid) :=
    w.ordered.imp fun hlt => le_of_lt hlt
  rw [listSnapshots_ok w.validSnapTree w.apart, w.records, SnapObject.snapshotsOf_records w.fits,
    w.snapshots_eq, hsorted.insertionSort_eq]

theorem find_xid (w : WrittenSnapshots image live blockSize snaps) {s : Snapshot}
    (hs : s ∈ snaps) : snaps.find? (fun s' => s'.xid = s.xid) = some s := by
  have hordered := w.ordered
  clear w
  induction snaps with
  | nil => cases hs
  | cons s₀ snaps ih =>
    rw [List.pairwise_cons] at hordered
    rcases List.mem_cons.mp hs with rfl | hs
    · rw [List.find?_cons_of_pos (by simp)]
    · have hlt := hordered.1 s hs
      rw [List.find?_cons_of_neg (by simpa using Nat.ne_of_lt hlt)]
      exact ih hs hordered.2

end WrittenSnapshots

/-- The superblock that a snapshot has frozen stands in its block. -/
structure FrozenAt (image : Image) (blockSize paddr : Nat) (frozen : ApfsVolume) where
  base : Bytes
  storage : UInt16
  length_base : apsbMinLen ≤ base.length
  fits : frozen.Fits
  stands : image.blockInside blockSize paddr = some (frozen.write base storage)

theorem FrozenAt.mountSnapshot {image : Image} {live frozen : ApfsVolume} {blockSize : Nat}
    {s : Snapshot} (h : FrozenAt image blockSize s.sblockOid frozen) :
    mountSnapshot image live blockSize s = .ok (frozen.withOmapOid live.omapOid) := by
  rw [ApfsForensic.mountSnapshot, readBlock_of_blockInside h.stands, ok_bind,
    ApfsVolume.parse_write h.length_base h.fits]
  rfl

/-- **A written timeline reads back.**  A container was written, and its volume has these
snapshots.  Then they are listed.  The xid of the volume mounts the volume as it is, that of a
snapshot mounts what the snapshot has frozen: whatever names are followed lead to a node exactly
if they did so at that time, and a file that is not compressed and of at most `MAX_FILE_BYTES` has
the metadata and the bytes of that time.  Any other xid is refused by name. -/
theorem written_timeline_reads_back (codecs : Codecs) {xts : Xts} {image : Image}
    {live : ApfsVolume} {blockSize : Nat} {snaps : List Snapshot}
    (container : WrittenContainer image live blockSize)
    (timeline : WrittenSnapshots image live blockSize snaps) :
    ApfsFs.snapshots image = .ok snaps ∧
    ApfsFs.openSnapshot image live.xid = ApfsFs.openLive image ∧
    (∀ s ∈ snaps, s.xid ≠ live.xid → ∀ (frozen : ApfsVolume) (c : Contents),
      FrozenAt image blockSize s.sblockOid frozen →
      WrittenVolume xts image (frozen.withOmapOid live.omapOid) blockSize c →
      ∃ fs, ApfsFs.openSnapshot image s.xid = .ok fs ∧
        (∀ names id, Follows (fs.lookup xts) fs.root (names.map utf8Bytes) id ↔
          ∃ oid, Follows c.graph rootDirInoNum names oid ∧ FileId.apfsOid oid s.xid = id) ∧
        ∀ names oid inode frags, HasFile xts image none blockSize c names oid inode frags →
          fs.metaOf xts (.apfsOid oid s.xid) = .ok (buildMeta inode) ∧
          ServesWindows (fs.readAt codecs xts (.apfsOid oid s.xid) .default)
            (fillTo (inode.size.getD 0) (frags.flatMap Fragment.content))) ∧
    ∀ xid, xid ≠ live.xid → (∀ s ∈ snaps, s.xid ≠ xid) →
      ApfsFs.openSnapshot image xid = .error (.err (.snapshotNotFound xid)) := by
  obtain ⟨spacemanPaddr, hfirst⟩ := container.openFirstVolume
  have hlist := timeline.listSnapshots
  refine ⟨?_, ?_, fun s hs hne frozen c hfrozen written => ?_, fun xid hne hnone => ?_⟩
  · rw [ApfsFs.snapshots, hfirst]
    exact hlist
  · simp only [ApfsFs.openSnapshot, ApfsFs.openLive, hfirst, ok_bind, if_true]
  · have hopen := openSnapshot_of_record hfirst hne hlist (timeline.find_xid hs)
      hfrozen.mountSnapshot
    exact ⟨_, hopen, ApfsFs.reads_back codecs ⟨_, _, _, _, _⟩ written.holds hfrozen.fits.vek⟩
  · have hfind : snaps.find? (fun s => s.xid = xid) = none :=
      List.find?_eq_none.mpr fun s hs => by simpa using hnone s hs
    simp only [ApfsFs.openSnapshot, hfirst, ok_bind, if_neg hne, hlist, hfind]
    rfl

/-! ### The past of the small container -/

theorem earlySnapshot_fits : earlySnapshot.Fits := by
  constructor <;> decide +kernel

theorem chestObjects_fit : ∀ o ∈ chestSnapObjects, o.Fits :=
  List.forall_mem_cons.mpr ⟨earlySnapshot_fits, List.forall_mem_singleton.mpr trivial⟩

theorem chestObjects_at : SnapNodeAt chestImage chestNodes chestVolume.xid 4096 (.root 11)
    (.leaf (chestSnapObjects.map SnapObject.record)) :=
  ⟨.leaf _, ⟨_, chestImage_block (i := 11) rfl, .mk (packNode room_chestSnapObjects) rfl
    length_blankBlock ⟨rfl, map_entry_packSlots _ 0 0⟩⟩, rfl⟩

def chestTimeline : WrittenSnapshots chestImage chestVolume 4096 [earlySnapshot] where
  entries := chestNodes
  omap := chestWritten.omap
  objects := chestSnapObjects
  fits := chestObjects_fit
  tree := .leaf (.root 11) (chestSnapObjects.map SnapObject.record)
  root := rfl
  nodes := chestObjects_at
  height_le := Nat.one_le_iff_ne_zero.mpr (Nat.succ_ne_zero _)
  distinct := List.nodup_singleton _
  apart := fun _ h => absurd (List.mem_singleton.mp h) SnapRef.noConfusion
  records := rfl
  snapshots_eq := rfl
  ordered := List.pairwise_singleton _ _

def earlyFrozen : FrozenAt chestImage 4096 earlySnapshot.sblockOid earlyVolume where
  base := blankBlock
  storage := 0
  length_base := by
    rw [length_blankBlock]
    decide
  fits := earlyVolume_fits
  stands := chestImage_block (i := 12) rfl

theorem earlyRoot_at : VirtualNodeAt .shift chestImage (earlyVolume.withOmapOid 5) chestNodes
    4096 13 (.leaf (earlyContents.map FsObject.record)) :=
  ⟨⟨13, 1, 13, 4096, 0⟩, _, _, ⟨by decide, rfl, by decide, by decide⟩,
    chestImage_block (i := 13) rfl, .clear (.inl rfl),
    .mk (packNode room_earlyContents) rfl length_blankBlock ⟨rfl, map_entry_packSlots _ 0 0⟩⟩

def earlyWritten :
    WrittenVolume .shift chestImage (earlyVolume.withOmapOid 5) 4096 earlyContents where
  entries := chestNodes
  omap := chestWritten.omap
  tree := .leaf 13 (earlyContents.map FsObject.record)
  root := rfl
  nodes := earlyRoot_at
  height_le := Nat.one_le_iff_ne_zero.mpr (Nat.succ_ne_zero _)
  distinct := List.nodup_singleton _
  ranges := trivial
  records := rfl

theorem early_hasFile : HasFile .shift chestImage none 4096 earlyContents ["é"] 6
    letterInode.inode chestFragments where
  path := .cons (by decide +kernel) (.nil 6)
  inode_eq := by decide +kernel
  plain := by decide +kernel
  size_le := by decide
  stream := ⟨.of_eq (by decide +kernel), chest_hasFile.stream.stored⟩

/-- In the snapshot the file is found at the top and read; no snapshot was taken at xid 7. -/
theorem written_timeline_chest : ApfsFs.snapshots chestImage = .ok [earlySnapshot] ∧
    (∃ fs, ApfsFs.openSnapshot chestImage 1 = .ok fs ∧
      Follows (fs.lookup .shift) fs.root (["é"].map utf8Bytes) (.apfsOid 6 1) ∧
      ServesWindows (fs.readAt .stored .shift (.apfsOid 6 1) .default) (List.replicate 1300 7)) ∧
    ApfsFs.openSnapshot chestImage 7 = .error (.err (.snapshotNotFound 7)) := by
  obtain ⟨hlist, -, hsnaps, hnone⟩ :=
    @written_timeline_reads_back .stored .shift _ _ _ _ chestContainer chestTimeline
  obtain ⟨fs, hopen, hpaths, hfiles⟩ := hsnaps earlySnapshot (List.mem_singleton_self _) (by decide)
    earlyVolume earlyContents earlyFrozen earlyWritten
  refine ⟨hlist, ⟨fs, hopen, (hpaths _ _).mpr ⟨6, early_hasFile.path, rfl⟩, ?_⟩, ?_⟩
  · rw [← fillTo_chestFragments]
    exact (hfiles _ _ _ _ early_hasFile).2
  · exact hnone 7 (by decide) (List.forall_mem_singleton.mpr (by decide))

end ApfsForensic
