import ApfsForensic.Core.FileContent
import ApfsForensic.Core.PackedNode
import ApfsForensic.Core.Resolve
import ApfsForensic.Core.SnapshotMount
import ApfsForensic.Core.SnapshotRecords
import ApfsForensic.Core.Superblocks

/-!
# A container as its writer leaves it

Everything a reader relies on is stated here in the terms of a writer: which blocks were laid
out, where they were put, and which of them were encrypted.  No function of the reader occurs in
these statements.

* `NodePlan.sealed`: a node that is laid out can be sealed, and reads as its records or as its
  separators and children (`NodePlan.nodeView_block`).
* `WrittenOmap`: an object map in a tree of any shape.  `WrittenOmap.resolve`: the reader finds
  the newest mapping of an oid that is not too new.
* `WrittenVolume`: a file-system tree of any shape, whose nodes stand where the object map says,
  in clear or encrypted.  `WrittenVolume.holds`: the image stores the contents.
* `WrittenContainer`: block zero, the ring, the object map of the container and the superblock of
  its first volume.

`written_container_reads_back`: the container is mounted, the paths of the mounted volume are
those of its contents, and each file reads as its fragments.
-/

namespace ApfsForensic

open Walk ApfsContainer Fragment

/-! ### Blocks of an image -/

section Blocks

variable {image : Image} {blockSize paddr : Nat} {block : Bytes}

theorem blockInside_eq_some_iff : image.blockInside blockSize paddr = some block ↔
    (paddr + 1) * blockSize ≤ image.bytes.length ∧ chunk blockSize image.bytes paddr = block := by
  unfold Image.blockInside
  split <;> simp [*]

theorem readExact_of_blockInside (h : image.blockInside blockSize paddr = some block) :
    paddr * blockSize ≤ u64Max ∧ image.readExact (paddr * blockSize) blockSize = .ok block := by
  obtain ⟨hin, rfl⟩ := blockInside_eq_some_iff.mp h
  have hlen := image.length_lt
  rw [Nat.add_one_mul] at hin
  refine ⟨by unfold u64Max; omega, ?_⟩
  exact Image.readExact_eq_ok_iff.mpr ⟨Or.inr hin, rfl⟩

theorem readBlock_of_blockInside (h : image.blockInside blockSize paddr = some block) :
    image.readBlock paddr blockSize = .ok block := by
  obtain ⟨hmul, hread⟩ := readExact_of_blockInside h
  rw [Image.readBlock, saturatingMul_of_le hmul, hread]

theorem fetchNode_of_blockInside (h : image.blockInside blockSize paddr = some block)
    (hsum : Verifies block) (subtype : BTreeSubtype) :
    fetchNode image blockSize subtype paddr = .ok (nodeView block subtype) := by
  obtain ⟨hmul, hread⟩ := readExact_of_blockInside h
  have hverified : readVerifiedNode image paddr blockSize = .ok (some block) := by
    rw [readVerifiedNode, checkedMul_of_le hmul]
    simp only [hread, ok_bind, verifyChecksum_eq_ok_iff.mpr hsum]
    rfl
  rw [fetchNode, hverified]

end Blocks

/-! ### Nodes -/

namespace NodeShape

variable (s : NodeShape)

/-- Everything that is written into the block. -/
def allPieces : List (Piece UInt8) := s.headerPiece :: s.tocPiece :: s.dataPieces

/-- The same node in another block. -/
def rebase (base : Bytes) : NodeShape := { s with base }

variable {s}

/-- Where the parts stand depends on the length of the block only. -/
theorem layout_rebase {base : Bytes} (hlen : base.length = s.base.length) :
    (s.rebase base).layout = s.layout := by
  simp only [layout, rebase, header, hlen]
  rfl

theorem allPieces_rebase {base : Bytes} (hlen : base.length = s.base.length) :
    (s.rebase base).allPieces = s.allPieces := by
  have hlayout := layout_rebase hlen
  have htoc : (s.rebase base).tocRecord = s.tocRecord := by
    funext slot
    rw [tocRecord, tocRecord, hlayout]
  have hkey : (s.rebase base).keyPiece = s.keyPiece := by
    funext slot
    rw [keyPiece, keyPiece, hlayout]
  have hvalue : (s.rebase base).valuePiece = s.valuePiece := by
    funext slot
    rw [valuePiece, valuePiece, hlayout]
  rw [allPieces, allPieces, tocPiece, tocPiece, dataPieces, dataPieces, htoc, hkey, hvalue, hlayout]
  rfl

theorem fits_rebase {base : Bytes} (hlen : base.length = s.base.length) {slot : NodeSlot}
    (h : s.Fits slot) : (s.rebase base).Fits slot := by
  have hlayout := layout_rebase hlen
  constructor
  case keyOff_lt => exact h.keyOff_lt
  case valOff_lt => exact h.valOff_lt
  case keyLen_lt => exact h.keyLen_lt
  case valLen_lt => exact h.valLen_lt
  case value_le => exact h.value_le
  all_goals rw [hlayout]
  case key_le => exact h.key_le
  case valOff_le => exact h.valOff_le
  case sizes => exact h.sizes

end NodeShape

namespace NodePlan

variable (plan : NodePlan)

theorem eight_le : 8 ≤ plan.base.length := by
  have harea := plan.keyArea_le
  have hbase := NodeShape.valBase_le (s := plan.toNodeShape)
  have hdata : btnDataOff ≤ plan.layout.keyArea :=
    Nat.le_trans (Nat.le_add_right _ _) plan.tocStart_le
  have : 8 ≤ btnDataOff := by decide
  omega

theorem length_sealBase : (sealBase plan.base plan.allPieces).length = plan.base.length :=
  ApfsForensic.length_sealBase plan.eight_le _

/-- The same node with the checksum of its block. -/
def sealed : NodePlan where
  toNodeShape := plan.rebase (sealBase plan.base plan.allPieces)
  flags_lt := plan.flags_lt
  level_lt := plan.level_lt
  tocOff_lt := plan.tocOff_lt
  tocLen_lt := plan.tocLen_lt
  toc_le := by
    rw [NodeShape.layout_rebase plan.length_sealBase]
    exact plan.toc_le
  keyArea_le := by
    rw [NodeShape.layout_rebase plan.length_sealBase]
    exact plan.keyArea_le
  fits := fun slot hslot => NodeShape.fits_rebase plan.length_sealBase (plan.fits slot hslot)
  disjoint := by
    have hpieces := NodeShape.allPieces_rebase plan.length_sealBase
    have hdata := congrArg (fun ps => ps.tail.tail) hpieces
    exact (show (plan.rebase _).dataPieces = plan.dataPieces from hdata) ▸ plan.disjoint

theorem block_sealed : plan.sealed.block = writeSealed plan.base plan.allPieces := by
  show layOut _ (plan.rebase _).allPieces = _
  rw [NodeShape.allPieces_rebase plan.length_sealBase]
  rfl

theorem verifies_sealed : Verifies plan.sealed.block := by
  rw [block_sealed]
  refine verifies_writeSealed plan.eight_le fun p hp => ⟨?_, plan.pieces_inside p hp⟩
  have hdata : 8 ≤ plan.tocPiece.start :=
    Nat.le_trans (by decide : 8 ≤ btnDataOff) (Nat.le_add_right _ _)
  have htoc := plan.tocStart_le
  rcases List.mem_cons.mp hp with rfl | hp
  · exact (by decide : 8 ≤ 32)
  · rcases List.mem_cons.mp hp with rfl | hp
    · exact hdata
    · have := (plan.between_of_mem hp).1
      omega

/-- The node a plan lays out: a leaf with its records, or an index node in which a value is the
reference of a child. -/
def Shows : NodeView Bytes Nat Entry → Prop
  | .leaf rs => plan.header.isLeaf = true ∧ plan.slots.map NodeSlot.entry = rs
  | .index es => plan.header.isLeaf = false ∧
      plan.slots.map NodeSlot.entry = es.map (fun e => childRecord e.1 e.2) ∧
      ∀ e ∈ es, e.2 < 2 ^ 64

/-- **A node reads as it was laid out.** -/
theorem nodeView_block {view : NodeView Bytes Nat Entry} (h : plan.Shows view) :
    nodeView plan.block plan.subtype = view := by
  have hentries : nodeEntries plan.block plan.subtype = plan.slots.map NodeSlot.entry := by
    obtain ⟨rest, hdrop⟩ := plan.exists_drop_block (List.mem_cons_of_mem _ List.mem_cons_self)
    have hend := plan.stop_tocPiece_le
    rw [Piece.stop, NodeShape.length_tocPiece] at hend
    have hcap : min plan.header.nkeys maxBtnNkeys = plan.slots.length :=
      Nat.min_eq_left (le_trans plan.slots_length_lt.le (by decide))
    rw [nodeEntries, plan.read_header.1]
    simp only [nodeLayout_block, hcap]
    apply plan.tocEntries_block plan.slots 0 rest (fun _ h => h)
    · rw [Nat.zero_mul, Nat.add_zero]
      exact hdrop
    · rw [Nat.zero_add]
      exact hend
  rw [nodeView, plan.read_header.1]
  cases view with
  | leaf rs =>
    simp only [h.1, if_true, hentries, h.2]
  | index es =>
    obtain ⟨hleaf, hslots, hlt⟩ := h
    have hchild :
        ∀ e ∈ es, ((childRecord e.1 e.2).key, leU64 (childRecord e.1 e.2).value 0) = e := by
      intro e he
      have hread : leU64 (toLeBytes 8 e.2) 0 = e.2 := by
        have hwhole := leUInt_append_zero (length_toLeBytes 8 e.2) []
        rw [List.append_nil] at hwhole
        exact hwhole.trans (fromLeBytes_toLeBytes 8 e.2 (hlt e he))
      rw [childRecord, hread]
    simp only [hleaf, Bool.false_eq_true, if_false, hentries, hslots, List.map_map]
    exact congrArg NodeView.index ((List.map_congr_left hchild).trans (List.map_id es))

end NodePlan

/-- A block in which a node of this kind was laid out and sealed. -/
inductive NodeBlock (blockSize : Nat) (subtype : BTreeSubtype) (view : NodeView Bytes Nat Entry) :
    Bytes → Prop
  | mk (plan : NodePlan) (hsub : plan.subtype = subtype) (hlen : plan.base.length = blockSize)
      (hshows : plan.Shows view) : NodeBlock blockSize subtype view plan.sealed.block

theorem NodeBlock.spec {blockSize : Nat} {subtype : BTreeSubtype}
    {view : NodeView Bytes Nat Entry} {block : Bytes}
    (h : NodeBlock blockSize subtype view block) :
    Verifies block ∧ nodeView block subtype = view ∧ block.length = blockSize := by
  cases h with
  | mk plan hsub hlen hshows =>
    refine ⟨plan.verifies_sealed, ?_, ?_⟩
    · rw [← hsub]
      exact plan.sealed.nodeView_block hshows
    · rw [plan.sealed.length_block, ← hlen]
      exact plan.length_sealBase

/-- The node stands at a block address. -/
def NodeAt (image : Image) (blockSize : Nat) (subtype : BTreeSubtype) (paddr : Nat)
    (view : NodeView Bytes Nat Entry) : Prop :=
  ∃ block, image.blockInside blockSize paddr = some block ∧
    NodeBlock blockSize subtype view block

theorem NodeAt.fetchNode {image : Image} {blockSize paddr : Nat} {subtype : BTreeSubtype}
    {view : NodeView Bytes Nat Entry} (h : NodeAt image blockSize subtype paddr view) :
    fetchNode image blockSize subtype paddr = .ok view := by
  obtain ⟨block, hblock, hnode⟩ := h
  obtain ⟨hsum, hview, -⟩ := hnode.spec
  rw [fetchNode_of_blockInside hblock hsum, hview]

/-! ### Object maps -/

namespace OmapEntry

/-- The numbers of a mapping fit their fields. -/
structure Fits (e : OmapEntry) : Prop where
  oid_lt : e.oid < 2 ^ 64
  xid_lt : e.xid < 2 ^ 64
  paddr_lt : e.paddr < 2 ^ 64
  size_lt : e.size < 2 ^ 32
  flags_lt : e.flags < 2 ^ 32

/-- `omap_key_t` and `omap_val_t`. -/
def record (e : OmapEntry) : Entry :=
  ⟨toLeBytes 8 e.oid ++ (toLeBytes 8 e.xid ++ []),
    toLeBytes 4 e.flags ++ (toLeBytes 4 e.size ++ (toLeBytes 8 e.paddr ++ []))⟩

theorem omapEntry_record {e : OmapEntry} (h : e.Fits) : e.record.omapEntry = e := by
  have hkey : e.record.key.drop 0 = toLeBytes 8 e.oid ++ (toLeBytes 8 e.xid ++ []) := rfl
  have hkeyLen : e.record.key.length = 16 := by simp [record, length_toLeBytes]
  have hvalue : e.record.value.drop 0
      = toLeBytes 4 e.flags ++ (toLeBytes 4 e.size ++ (toLeBytes 8 e.paddr ++ [])) := rfl
  have hvalueLen : e.record.value.length = 16 := by simp [record, length_toLeBytes]
  obtain ⟨hoid, hkey⟩ := leUInt_step h.oid_lt (by omega) hkey
  obtain ⟨hxid, -⟩ := leUInt_step h.xid_lt (by omega) hkey
  obtain ⟨hflags, hvalue⟩ := leUInt_step h.flags_lt (by omega) hvalue
  obtain ⟨hsize, hvalue⟩ := leUInt_step h.size_lt (by omega) hvalue
  obtain ⟨hpaddr, -⟩ := leUInt_step h.paddr_lt (by omega) hvalue
  simp only [Entry.omapEntry, decodeOmapEntry, leU64, leU32, hoid, hxid, hflags, hsize, hpaddr]

/-- The mapping that an oid has at a transaction: the newest that is not newer. -/
structure Current (e : OmapEntry) (es : List OmapEntry) (oid xid : Nat) : Prop where
  mem : e ∈ es
  oid_eq : e.oid = oid
  xid_le : e.xid ≤ xid
  newest : ∀ e' ∈ es, e'.oid = oid → e'.xid ≤ xid → e'.xid ≤ e.xid

end OmapEntry

/-- An object map with these mappings, and what its writer chose. -/
structure WrittenOmap (image : Image) (blockSize omapOid : Nat) (es : List OmapEntry) where
  omap : ObjectMap
  base : Bytes
  storage : UInt16
  header_len : 64 ≤ base.length
  fits : omap.Fits
  header : image.blockInside blockSize omapOid = some (omap.write base storage)
  tree : NodeTree
  root : tree.key = omap.treeOid
  nodes : tree.All (NodeAt image blockSize .omap)
  height_le : tree.height ≤ maxBtreeDepth
  unshared : tree.nodes.Nodup
  separators : tree.Keyed omapKey (fun e => omapKey e.key)
  records : tree.records = es.map OmapEntry.record
  entry_fits : ∀ e ∈ es, e.Fits
  sorted : es.Pairwise (fun a b => toLex (a.oid, a.xid) < toLex (b.oid, b.xid))

namespace WrittenOmap

variable {image : Image} {blockSize omapOid : Nat} {es : List OmapEntry}

theorem omapEntries_eq (w : WrittenOmap image blockSize omapOid es) :
    w.tree.records.map Entry.omapEntry = es := by
  rw [w.records, List.map_map]
  exact (List.map_congr_left fun e he => OmapEntry.omapEntry_record (w.entry_fits e he)).trans
    (List.map_id es)

theorem wellFormed (w : WrittenOmap image blockSize omapOid es) :
    WellFormedOmap image blockSize w.omap w.tree where
  root := w.root
  stored := w.nodes.stored fun _ _ h => h.fetchNode
  height_le := w.height_le
  unshared := w.unshared
  sorted := by
    have hsorted := w.sorted
    rw [← w.omapEntries_eq, List.pairwise_map] at hsorted
    exact hsorted
  separators := w.separators

theorem readObjectMap (w : WrittenOmap image blockSize omapOid es) :
    readObjectMap image omapOid blockSize = .ok w.omap := by
  rw [ApfsForensic.readObjectMap, readBlock_of_blockInside w.header, ok_bind]
  exact ObjectMap.parse_write w.header_len w.fits

/-- **The reader finds the current mapping.** -/
theorem resolve (w : WrittenOmap image blockSize omapOid es) {oid xid : Nat} {e : OmapEntry}
    (h : e.Current es oid xid) : w.omap.resolve image oid xid blockSize = .ok e := by
  have hscan : omapScan oid xid w.tree.records = some e := by
    rw [omapScan_eq_some_iff w.wellFormed.sorted]
    simp only [mem_omapCandidates, w.omapEntries_eq]
    exact ⟨⟨h.mem, h.oid_eq, h.xid_le⟩, fun e' he' => h.newest e' he'.1 he'.2.1 he'.2.2⟩
  rw [resolve_eq_omapScan w.wellFormed, hscan]
  rfl

end WrittenOmap

/-! ### Volumes -/

/-- How a node stands in its block: in clear, or encrypted under the address of the block. -/
inductive AtRest (xts : Xts) (vek : Option Vek) (blockSize : Nat) (e : OmapEntry) (plain : Bytes) :
    Bytes → Prop
  | clear (hclear : vek = none ∨ e.flags &&& omapValEncrypted = 0) :
      AtRest xts vek blockSize e plain plain
  | encrypted {key : Vek} (c : SectorCipher xts key) (hvek : vek = some key)
      (hflag : e.flags &&& omapValEncrypted ≠ 0) (sectors : apfsCryptoSector ∣ blockSize)
      (sector_le : apfsCryptoSector ≤ blockSize) (paddr_ne : e.paddr ≠ 0)
      (no_overflow : e.paddr * (blockSize / apfsCryptoSector) ≤ u64Max) :
      AtRest xts vek blockSize e plain (c.encryptBlock blockSize e.paddr plain)

theorem AtRest.decryptNode {xts : Xts} {vek : Option Vek} {blockSize : Nat} {e : OmapEntry}
    {plain stored : Bytes} (h : AtRest xts vek blockSize e plain stored)
    (hlen : plain.length = blockSize) : decryptNode xts vek blockSize e stored = .ok plain := by
  cases h with
  | clear hclear =>
    unfold ApfsForensic.decryptNode
    rcases hclear with rfl | hflag
    · split <;> rfl
    · rw [if_neg (not_not.mpr hflag)]
  | encrypted c hvek hflag sectors sector_le paddr_ne no_overflow =>
    subst hvek
    rw [ApfsForensic.decryptNode, if_pos hflag]
    exact decryptVolumeArea_encryptBlock c hlen sectors sector_le paddr_ne no_overflow

/-- The node stands where the object map has its oid. -/
def VirtualNodeAt (xts : Xts) (image : Image) (volume : ApfsVolume) (es : List OmapEntry)
    (blockSize oid : Nat) (view : NodeView Bytes Nat Entry) : Prop :=
  ∃ (e : OmapEntry) (stored plain : Bytes), e.Current es oid volume.xid ∧
    image.blockInside blockSize e.paddr = some stored ∧
    AtRest xts volume.vek blockSize e plain stored ∧ NodeBlock blockSize .fsTree view plain

/-- A volume with these contents, and what its writer chose. -/
structure WrittenVolume (xts : Xts) (image : Image) (volume : ApfsVolume) (blockSize : Nat)
    (c : Contents) where
  entries : List OmapEntry
  omap : WrittenOmap image blockSize volume.omapOid entries
  tree : NodeTree
  root : tree.key = volume.rootTreeOid
  nodes : tree.All (VirtualNodeAt xts image volume entries blockSize)
  height_le : tree.height ≤ maxFstreeDepth
  distinct : tree.nodes.Nodup
  ranges : tree.Bracketed jkeyOid (fun e => jkeyOid e.key)
  records : tree.records = c.map FsObject.record

namespace WrittenVolume

variable {xts : Xts} {image : Image} {volume : ApfsVolume} {blockSize : Nat} {c : Contents}

theorem fetchVirtual (w : WrittenVolume xts image volume blockSize c) {oid : Nat}
    {view : NodeView Bytes Nat Entry}
    (h : VirtualNodeAt xts image volume w.entries blockSize oid view) :
    fetchVirtual xts image w.omap.omap volume.vek volume.xid blockSize oid = .ok view := by
  obtain ⟨e, stored, plain, hcurrent, hstored, hrest, hnode⟩ := h
  obtain ⟨hsum, hview, hlen⟩ := hnode.spec
  have hread : readVirtualNode xts image w.omap.omap volume.vek volume.xid blockSize oid
      = .ok plain := by
    rw [readVirtualNode, w.omap.resolve hcurrent, ok_bind, readBlock_of_blockInside hstored,
      ok_bind, hrest.decryptNode hlen, ok_bind, verifyChecksum_eq_ok_iff.mpr hsum]
    rfl
  rw [ApfsForensic.fetchVirtual, hread, ← hview]
  rfl

/-- **A written volume holds its contents.** -/
theorem holds (w : WrittenVolume xts image volume blockSize c) :
    Holds xts image volume blockSize c :=
  ⟨w.omap.omap, w.tree,
    { wellFormed :=
        { omap_ok := w.omap.readObjectMap
          root := w.root
          stored := w.nodes.stored fun _ _ h => w.fetchVirtual h
          ranges := w.ranges }
      height_le := w.height_le
      distinct := w.distinct
      records := w.records }⟩

end WrittenVolume

/-! ### Containers -/

/-- A container whose first volume has this superblock, and what its writer chose.  Block zero
and the newest superblock of the ring may differ in everything but the block size. -/
structure WrittenContainer (image : Image) (volume : ApfsVolume) (blockSize : Nat) where
  boot : NxSuperblock
  bootBase : Bytes
  bootStorage : UInt16
  bootSlots : List Nat
  boot_fits : boot.Fits bootSlots
  length_bootBase : bootBase.length = nxMinimumBlockSize
  length_le : nxMinimumBlockSize ≤ image.bytes.length
  blockZero : image.bytes.take nxMinimumBlockSize = boot.write bootBase bootStorage bootSlots
  no_fusion : isFusion boot = false
  contiguous : boot.descIsTree = false
  boot_size : boot.blockSize = blockSize
  size_ge : nxMinimumBlockSize ≤ blockSize
  size_le : blockSize ≤ nxMaximumBlockSize
  ring_le : boot.xpDescBase + boot.xpDescBlocks ≤ 2 ^ 64
  live : NxSuperblock
  livePaddr : Nat
  liveBase : Bytes
  liveStorage : UInt16
  liveSlots : List Nat
  live_fits : live.Fits liveSlots
  in_ring : boot.xpDescBase ≤ livePaddr ∧ livePaddr < boot.xpDescBase + boot.xpDescBlocks
  live_stands : image.blockInside blockSize livePaddr
    = some (live.write liveBase liveStorage liveSlots)
  length_liveBase : liveBase.length = blockSize
  newest : ∀ paddr xid, boot.xpDescBase ≤ paddr → paddr < boot.xpDescBase + boot.xpDescBlocks →
    RingSuperblock image blockSize paddr xid → xid ≤ live.xid ∧ (xid = live.xid → livePaddr ≤ paddr)
  live_size : live.blockSize = blockSize
  entries : List OmapEntry
  omap : WrittenOmap image blockSize live.omapOid entries
  home : Nat → OmapEntry
  home_current : ∀ oid ∈ live.fsOids, (home oid).Current entries oid live.xid
  fsOid : Nat
  others : List Nat
  fsOids_eq : live.fsOids = fsOid :: others
  volumeBase : Bytes
  volumeStorage : UInt16
  length_volumeBase : volumeBase.length = blockSize
  volume_fits : volume.Fits
  volume_stands : image.blockInside blockSize (home fsOid).paddr
    = some (volume.write volumeBase volumeStorage)

namespace WrittenContainer

variable {image : Image} {volume : ApfsVolume} {blockSize : Nat}

theorem boot_eq (w : WrittenContainer image volume blockSize) :
    IsNxSuperblock (image.bytes.take nxMinimumBlockSize) ∧ bootstrapOf image = w.boot := by
  obtain ⟨hsb, hfields, -⟩ := NxSuperblock.parse_write (le_of_eq w.length_bootBase.symm)
    w.boot_fits
  rw [bootstrapOf, w.blockZero]
  exact ⟨hsb, hfields⟩

/-- The newest superblock of the ring is the live one. -/
theorem newest_live (w : WrittenContainer image volume blockSize) :
    w.boot.Newest image w.live.xid w.livePaddr ∧
      NxSuperblock.fields (chunk blockSize image.bytes w.livePaddr) = w.live := by
  obtain ⟨hin, hchunk⟩ := blockInside_eq_some_iff.mp w.live_stands
  obtain ⟨hsb, hfields, htype⟩ := NxSuperblock.parse_write
    (le_trans w.size_ge (le_of_eq w.length_liveBase.symm)) w.live_fits
  rw [← hchunk] at hsb hfields htype
  have hxid : leU64 (chunk blockSize image.bytes w.livePaddr) 16 = w.live.xid :=
    congrArg NxSuperblock.xid hfields
  rw [NxSuperblock.Newest, w.boot_size]
  exact ⟨⟨w.in_ring, ⟨hin, htype, hsb, hxid⟩, w.newest⟩, hfields⟩

theorem openContainer (w : WrittenContainer image volume blockSize) :
    ∃ container, openContainer image = .ok container ∧ container.superblock = w.live := by
  obtain ⟨hsb, hboot⟩ := w.boot_eq
  obtain ⟨hnewest, hfields⟩ := w.newest_live
  have hsize : w.boot.blockSizeInRange = true := by
    rw [blockSizeInRange_iff, w.boot_size]
    exact ⟨w.size_ge, w.size_le⟩
  rcases resolveLiveCheckpoint_cases image w.contiguous hsize w.ring_le with
    ⟨live, hlive, hnewest'⟩ | ⟨-, hnone⟩
  · obtain ⟨-, hpaddr⟩ := hnewest'.unique hnewest
    refine ⟨_, openContainer_eq_ok_iff.mpr ⟨⟨w.length_le, hsb, ?_⟩, live, ?_, rfl⟩, ?_⟩
    · rw [hboot]
      exact w.no_fusion
    · rw [hboot]
      exact hlive
    · rw [hboot, w.boot_size, hpaddr]
      exact hfields
  · have hring := hnewest.2.1
    exact absurd hring (hnone w.livePaddr w.live.xid w.in_ring.1 w.in_ring.2)

theorem volumeSuperblockAddrs (w : WrittenContainer image volume blockSize)
    {container : ApfsContainer} (hsb : container.superblock = w.live) :
    volumeSuperblockAddrs image container
      = .ok (w.live.fsOids.map fun oid => (w.home oid).paddr) := by
  have hsize : w.live.blockSizeInRange = true := by
    rw [blockSizeInRange_iff, w.live_size]
    exact ⟨w.size_ge, w.size_le⟩
  simp only [ApfsContainer.volumeSuperblockAddrs, hsb, hsize, Bool.not_true, Bool.false_eq_true,
    if_false, w.live_size, w.omap.readObjectMap, ok_bind]
  refine mapM_eq_ok fun oid hoid => ?_
  rw [w.omap.resolve (w.home_current oid hoid)]
  rfl

/-- Its first volume is found. -/
theorem openFirstVolume (w : WrittenContainer image volume blockSize) :
    ∃ spacemanPaddr, ApfsFs.openFirstVolume image = .ok (volume, blockSize, spacemanPaddr) := by
  obtain ⟨container, hopen, hsb⟩ := w.openContainer
  have haddrs := w.volumeSuperblockAddrs hsb
  rw [w.fsOids_eq, List.map_cons] at haddrs
  have hparse : ApfsVolume.parse (volume.write w.volumeBase w.volumeStorage) = .ok volume := by
    refine ApfsVolume.parse_write ?_ w.volume_fits
    rw [w.length_volumeBase]
    exact le_trans (by decide) w.size_ge
  exact ⟨_, openFirstVolume_of_addr hopen haddrs (hsb ▸ w.live_size)
    (readBlock_of_blockInside w.volume_stands) hparse⟩

/-- **A written container is mounted.** -/
theorem openLive (w : WrittenContainer image volume blockSize) :
    ∃ spacemanPaddr, ApfsFs.openLive image
      = .ok ⟨image, volume, blockSize, volume.xid, spacemanPaddr⟩ := by
  obtain ⟨spacemanPaddr, hfirst⟩ := w.openFirstVolume
  refine ⟨spacemanPaddr, ?_⟩
  rw [ApfsFs.openLive, hfirst]
  rfl

end WrittenContainer

/-! ### Reading back -/

/-- The contents have a file at the end of these names: a node with this inode, uncompressed and
of a size that is read, whose data stream is stored in these fragments. -/
structure HasFile (xts : Xts) (image : Image) (vek : Option Vek) (blockSize : Nat) (c : Contents)
    (names : List String) (oid : Nat) (inode : Inode) (frags : List Fragment) : Prop where
  path : Follows c.graph rootDirInoNum names oid
  inode_eq : c.inode oid = some inode
  plain : c.xattr oid xattrNameDecmpfs = none
  size_le : inode.size.getD 0 ≤ maxFileBytes
  stream : StoredStream xts image vek blockSize c inode.privateId frags

theorem HasFile.readData {xts : Xts} {image : Image} {volume : ApfsVolume} {blockSize : Nat}
    {c : Contents} {names : List String} {oid : Nat} {inode : Inode} {frags : List Fragment}
    (h : HasFile xts image volume.vek blockSize c names oid inode frags)
    (hc : Holds xts image volume blockSize c) (codecs : Codecs) :
    loadInode xts image volume blockSize oid = .ok inode ∧
      readData codecs xts image volume blockSize inode
        = .ok (fillTo (inode.size.getD 0) (frags.flatMap Fragment.content)) := by
  have hload : loadInode xts image volume blockSize oid = .ok inode := by
    rw [hc.loadInode, h.inode_eq]
  have hoid : inode.oid = oid := @oid_of_loadInode xts ⟨image, volume, blockSize, 0, none⟩ _ _ hload
  refine ⟨hload, ?_⟩
  rw [ApfsForensic.readData, hoid, decmpfsHeader, hc.getXattr, h.plain, ok_bind]
  exact h.stream.readStream hc h.size_le

/-- The adapter's lookups follow the names as the contents do. -/
theorem Holds.follows_lookup_iff {xts : Xts} (fs : ApfsFs) {c : Contents}
    (hc : Holds xts fs.reader fs.volume fs.blockSize c) (names : List String) (id : FileId) :
    Follows (fs.lookup xts) fs.root (names.map utf8Bytes) id ↔
      ∃ oid, Follows c.graph rootDirInoNum names oid ∧ FileId.apfsOid oid fs.rootXid = id := by
  simp only [← hc.follows_iff]
  exact follows_map_iff (f := fun oid => FileId.apfsOid oid fs.rootXid) (g := utf8Bytes)
    fs_lookup_eq_some_iff

/-- What a mount serves, whichever volume is mounted and under whatever xid. -/
theorem ApfsFs.reads_back (codecs : Codecs) {xts : Xts} (fs : ApfsFs) {c : Contents}
    (hc : Holds xts fs.reader fs.volume fs.blockSize c) (hvek : fs.volume.vek = none) :
    (∀ names id, Follows (fs.lookup xts) fs.root (names.map utf8Bytes) id ↔
      ∃ oid, Follows c.graph rootDirInoNum names oid ∧ FileId.apfsOid oid fs.rootXid = id) ∧
    ∀ names oid inode frags, HasFile xts fs.reader none fs.blockSize c names oid inode frags →
      fs.metaOf xts (.apfsOid oid fs.rootXid) = .ok (buildMeta inode) ∧
      ServesWindows (fs.readAt codecs xts (.apfsOid oid fs.rootXid) .default)
        (fillTo (inode.size.getD 0) (frags.flatMap Fragment.content)) := by
  refine ⟨fun names id => Holds.follows_lookup_iff fs hc names id, ?_⟩
  intro names oid inode frags hfile
  rw [← hvek] at hfile
  obtain ⟨hload, hdata⟩ := hfile.readData hc codecs
  exact ⟨metaOf_eq_ok_iff.mpr ⟨inode, hload, rfl⟩, readAt_default hload hdata⟩

/-- **A written container reads back.**  An image was written as a container: block zero, a ring
of checkpoints, object maps and a file-system tree of any shape, nodes of any layout, and a volume
superblock.  Then the image is mounted, and whatever names are followed by the adapter, they lead
to a node exactly if they do so in the contents.  For a file that is not compressed and of at most
`MAX_FILE_BYTES`, the metadata is that of its inode, and every read delivers the part of its
fragments that is asked for. -/
theorem written_container_reads_back (codecs : Codecs) {xts : Xts} {image : Image}
    {volume : ApfsVolume} {blockSize : Nat} {c : Contents}
    (container : WrittenContainer image volume blockSize)
    (written : WrittenVolume xts image volume blockSize c) :
    ∃ fs, ApfsFs.openLive image = .ok fs ∧
      (∀ names id, Follows (fs.lookup xts) fs.root (names.map utf8Bytes) id ↔
        ∃ oid, Follows c.graph rootDirInoNum names oid ∧ FileId.apfsOid oid volume.xid = id) ∧
      ∀ names oid inode frags, HasFile xts image none blockSize c names oid inode frags →
        fs.metaOf xts (.apfsOid oid volume.xid) = .ok (buildMeta inode) ∧
        ServesWindows (fs.readAt codecs xts (.apfsOid oid volume.xid) .default)
          (fillTo (inode.size.getD 0) (frags.flatMap Fragment.content)) := by
  obtain ⟨spacemanPaddr, hopen⟩ := container.openLive
  exact ⟨_, hopen, ApfsFs.reads_back codecs ⟨_, _, _, _, _⟩ written.holds container.volume_fits.vek⟩

/-! ### A small container

The volume of the letters, in blocks of 4096 bytes: two superblocks of the container, an object
map for it and one for the volume, each a header and a leaf, the superblock of the volume, three
nodes of its file-system tree, and a block of a file.  Behind them stand a snapshot, the superblock
it has frozen and the tree of that time. -/

theorem Image.HasBlocks.blockInside {image : Image} {blockSize i : Nat} {blocks : List Bytes}
    {b : Bytes} (h : image.HasBlocks blockSize blocks) (hb : blocks[i]? = some b) :
    image.blockInside blockSize i = some b := by
  refine blockInside_eq_some_iff.mpr ⟨?_, h.chunk_eq hb⟩
  rw [Nat.add_one_mul]
  exact h.end_le hb

theorem Image.HasBlocks.stands {image : Image} {blockSize i : Nat} {blocks : List Bytes}
    {b : Bytes} (h : image.HasBlocks blockSize blocks) (hb : blocks[i]? = some b) :
    b <+: image.bytes.drop (i * blockSize) := by
  rw [← h.chunk_eq hb, chunk]
  exact List.take_prefix _ _

def blankBlock : Bytes := List.replicate 4096 0

theorem length_blankBlock : blankBlock.length = 4096 := List.length_replicate

/-- An object map of one leaf, at `omapOid` and `treePaddr`. -/
def oneLeafOmap {image : Image} {base : Bytes} {blockSize omapOid treePaddr : Nat}
    {es : List OmapEntry} (room : Room base .omap 0x7 0 (es.map OmapEntry.record))
    (hheader : image.blockInside blockSize omapOid
      = some ((⟨0, 0x40000002, treePaddr, 0⟩ : ObjectMap).write base 0))
    (hleaf : image.blockInside blockSize treePaddr = some (packNode room).sealed.block)
    (hbase : base.length = blockSize) (hlen : 64 ≤ blockSize) (htree : treePaddr < 2 ^ 64)
    (hfits : ∀ e ∈ es, e.Fits)
    (hsorted : es.Pairwise (fun a b => toLex (a.oid, a.xid) < toLex (b.oid, b.xid))) :
    WrittenOmap image blockSize omapOid es where
  omap := ⟨0, 0x40000002, treePaddr, 0⟩
  base := base
  storage := 0
  header_len := hlen.trans hbase.ge
  fits := ⟨Nat.two_pow_pos 32, (by decide : 0x40000002 < 2 ^ 32), htree, Nat.two_pow_pos 64⟩
  header := hheader
  tree := .leaf treePaddr (es.map OmapEntry.record)
  root := rfl
  nodes := ⟨_, hleaf, .mk (packNode room) rfl hbase
    ⟨(by decide : (0x7 &&& 0x2 != 0 || 0 == 0) = true), map_entry_packSlots _ 0 0⟩⟩
  height_le := (by decide : 1 ≤ maxBtreeDepth)
  unshared := List.nodup_singleton _
  separators := trivial
  records := rfl
  entry_fits := hfits
  sorted := hsorted

/-- The superblock of block zero, or that of the ring. -/
def chestSuperblock (xid : Nat) : NxSuperblock :=
  { pairSuperblock xid 4096 0 with omapOid := 2, fsOids := [1026] }

def chestVolume : ApfsVolume :=
  { ApfsVolume.ofRoots 2 5 10 11 with oid := 1026, uuid := List.replicate 16 3, name := "chest" }

def chestEntries : List OmapEntry := [⟨1026, 2, 4, 4096, 0⟩]

def chestNodes : List OmapEntry :=
  [⟨10, 1, 7, 4096, 0⟩, ⟨11, 2, 8, 4096, 0⟩, ⟨12, 2, 9, 4096, 0⟩, ⟨13, 1, 13, 4096, 0⟩]

theorem letterEntry_parent_lt : letterEntry.parent < 2 ^ 60 := by
  decide

def chestRight : Contents :=
  [.drec letterEntry false letterEntry_parent_lt, .inode letterInode,
    .extent (letterExtent ⟨0, 4096, 10, 0⟩ (by decide))]

/-- Before it was put among the letters, the file was at the top. -/
def earlyEntry : DrecRecord := { letterEntry with parent := 2 }

theorem earlyEntry_parent_lt : earlyEntry.parent < 2 ^ 60 := by
  decide

def earlyContents : Contents :=
  [.inode topInode, .drec earlyEntry true earlyEntry_parent_lt, .inode letterInode,
    .extent (letterExtent ⟨0, 4096, 10, 0⟩ (by decide))]

def earlySnapshot : Snapshot := ⟨1, "early", 5, 5, 12, 0, 0, 0⟩

def earlyVolume : ApfsVolume :=
  { chestVolume with xid := 1, omapOid := 0, rootTreeOid := 13, snapMetaTreeOid := 0 }

def chestSnapObjects : List SnapObject :=
  [.metadata earlySnapshot, .named earlySnapshot.cname earlySnapshot.xid]

def chestIndex : List (Bytes × Nat) := [(jkeyBytes 3 2, 11), (jkeyBytes 9 5, 12)]

theorem room_chestEntries : Room blankBlock .omap 0x7 0 (chestEntries.map OmapEntry.record) := by
  constructor <;> decide +kernel

theorem room_chestNodes : Room blankBlock .omap 0x7 0 (chestNodes.map OmapEntry.record) := by
  constructor <;> decide +kernel

theorem room_chestIndex :
    Room blankBlock .fsTree 0x1 1 (chestIndex.map fun e => childRecord e.1 e.2) := by
  constructor <;> decide +kernel

theorem room_chestLeft : Room blankBlock .fsTree 0x2 0 (lettersLeft.map FsObject.record) := by
  constructor <;> decide +kernel

theorem room_chestRight : Room blankBlock .fsTree 0x2 0 (chestRight.map FsObject.record) := by
  constructor <;> decide +kernel

theorem room_chestSnapObjects :
    Room blankBlock .fsTree 0x3 0 (chestSnapObjects.map SnapObject.record) := by
  constructor <;> decide +kernel

theorem room_earlyContents :
    Room blankBlock .fsTree 0x3 0 (earlyContents.map FsObject.record) := by
  constructor <;> decide +kernel

def chestBlocks : List Bytes :=
  [(chestSuperblock 1).write blankBlock 0x8000 [1026],
    (chestSuperblock 2).write blankBlock 0x8000 [1026],
    (⟨0, 0x40000002, 3, 0⟩ : ObjectMap).write blankBlock 0,
    (packNode room_chestEntries).sealed.block,
    chestVolume.write blankBlock 0,
    (⟨0, 0x40000002, 6, 0⟩ : ObjectMap).write blankBlock 0,
    (packNode room_chestNodes).sealed.block,
    (packNode room_chestIndex).sealed.block,
    (packNode room_chestLeft).sealed.block,
    (packNode room_chestRight).sealed.block,
    List.replicate 4096 7,
    (packNode room_chestSnapObjects).sealed.block,
    earlyVolume.write blankBlock 0,
    (packNode room_earlyContents).sealed.block]

def chestImage : Image := .ofBlocks chestBlocks

theorem chestSuperblock_fits {xid : Nat} (h : xid < 2 ^ 64) :
    (chestSuperblock xid).Fits [1026] := by
  constructor
  case xid_lt => exact h
  case length_uuid => exact List.length_replicate
  case blockSize_lt => exact (by decide : 4096 < 2 ^ 32)
  case xpDescBase_lt | xpDescBlocks_lt => exact Nat.one_lt_two_pow (by decide)
  case omapOid_lt => exact (by decide : 2 < 2 ^ 64)
  case fsOids_eq => rfl
  case slot_lt | slots_le => decide
  all_goals exact Nat.two_pow_pos _

theorem chestVolume_fits : chestVolume.Fits := by
  constructor <;> decide +kernel

theorem earlyVolume_fits : earlyVolume.Fits := by
  constructor <;> decide +kernel

theorem length_packed {subtype : BTreeSubtype} {flags level : Nat} {es : List Entry}
    (room : Room blankBlock subtype flags level es) :
    (packNode room).sealed.block.length = 4096 := by
  rw [NodePlan.length_block]
  exact (NodePlan.length_sealBase _).trans length_blankBlock

theorem hasBlocks_chestImage : chestImage.HasBlocks 4096 chestBlocks := by
  refine Image.hasBlocks_ofBlocks ?_ (show 14 * 4096 ≤ u64Max by decide)
  have hblank : (4096 : Nat) ≤ blankBlock.length := length_blankBlock.ge
  have hnx : ∀ xid < 2 ^ 64, ((chestSuperblock xid).write blankBlock 0x8000 [1026]).length = 4096 :=
    fun xid h => (NxSuperblock.length_write _ hblank (chestSuperblock_fits h)).trans
      length_blankBlock
  have homap : ∀ omap : ObjectMap, (omap.write blankBlock 0).length = 4096 :=
    fun omap => (omap.length_write 0 (le_trans (by decide) hblank)).trans length_blankBlock
  have hvolume : ∀ volume : ApfsVolume, volume.Fits → (volume.write blankBlock 0).length = 4096 :=
    fun volume h => (ApfsVolume.length_write 0 (le_trans (by decide) hblank) h).trans
      length_blankBlock
  simp only [chestBlocks, List.forall_mem_cons, hnx 1 (by decide), hnx 2 (by decide), homap,
    hvolume _ chestVolume_fits, hvolume _ earlyVolume_fits, length_packed, List.length_replicate,
    List.not_mem_nil, false_imp_iff, implies_true, and_self]

theorem chestImage_block {i : Nat} {b : Bytes} (hb : chestBlocks[i]? = some b) :
    chestImage.blockInside 4096 i = some b :=
  hasBlocks_chestImage.blockInside hb

def chestContainer : WrittenContainer chestImage chestVolume 4096 where
  boot := chestSuperblock 1
  bootBase := blankBlock
  bootStorage := 0x8000
  bootSlots := [1026]
  boot_fits := chestSuperblock_fits (by decide)
  length_bootBase := length_blankBlock
  length_le := by
    rw [hasBlocks_chestImage.length_bytes]
    decide
  blockZero := hasBlocks_chestImage.chunk_eq (i := 0) rfl
  no_fusion := by decide
  contiguous := rfl
  boot_size := rfl
  size_ge := le_rfl
  size_le := by decide
  ring_le := by decide
  live := chestSuperblock 2
  livePaddr := 1
  liveBase := blankBlock
  liveStorage := 0x8000
  liveSlots := [1026]
  live_fits := chestSuperblock_fits (by decide)
  in_ring := by decide
  live_stands := chestImage_block rfl
  length_liveBase := length_blankBlock
  newest := by
    intro paddr xid hlo hhi hring
    have hpaddr : paddr = 1 := by
      have hlo : 1 ≤ paddr := hlo
      have hhi : paddr < 1 + 1 := hhi
      omega
    subst hpaddr
    have hxid := hring.2.2.2
    obtain ⟨-, hfields, -⟩ := @NxSuperblock.parse_write (chestSuperblock 2) blankBlock 0x8000 [1026]
      length_blankBlock.ge (chestSuperblock_fits (by decide))
    rw [hasBlocks_chestImage.chunk_eq (i := 1) rfl, ← NxSuperblock.fields_xid, hfields] at hxid
    exact ⟨le_of_eq hxid.symm, fun _ => le_rfl⟩
  live_size := rfl
  entries := chestEntries
  omap := oneLeafOmap room_chestEntries (chestImage_block rfl) (chestImage_block rfl)
    length_blankBlock (by decide) (by decide)
    (by simp only [chestEntries, List.forall_mem_cons]; exact ⟨by constructor <;> decide, by simp⟩)
    (List.pairwise_singleton _ _)
  home := fun _ => ⟨1026, 2, 4, 4096, 0⟩
  home_current := by
    intro oid hoid
    cases List.mem_singleton.mp hoid
    exact ⟨List.mem_singleton_self _, rfl, le_rfl, by decide⟩
  fsOid := 1026
  others := []
  fsOids_eq := rfl
  volumeBase := blankBlock
  volumeStorage := 0
  length_volumeBase := length_blankBlock
  volume_fits := chestVolume_fits
  volume_stands := chestImage_block rfl

def chestTree : NodeTree :=
  .index 10 (.cons (jkeyBytes 3 2) (.leaf 11 (lettersLeft.map FsObject.record))
    (.cons (jkeyBytes 9 5) (.leaf 12 (chestRight.map FsObject.record)) .nil))

theorem chestTree_bracketed : chestTree.Bracketed jkeyOid (fun e => jkeyOid e.key) := by
  simp only [chestTree, Tree.Bracketed, Forest.Bracketed]
  decide +kernel

def chestWritten :
    WrittenVolume .shift chestImage chestVolume 4096 (lettersLeft ++ chestRight) where
  entries := chestNodes
  omap := oneLeafOmap room_chestNodes (chestImage_block rfl) (chestImage_block rfl)
    length_blankBlock (by decide) (by decide)
    (by
      simp only [chestNodes, List.forall_mem_cons]
      refine ⟨?_, ?_, ?_, ?_, by simp⟩ <;> constructor <;> decide)
    (by decide)
  tree := chestTree
  root := rfl
  nodes := by
    refine ⟨⟨⟨10, 1, 7, 4096, 0⟩, _, _, ⟨by decide, rfl, by decide, by decide⟩,
      chestImage_block rfl, .clear (.inl rfl),
      .mk (packNode room_chestIndex) rfl length_blankBlock ?_⟩, ?_, ?_, trivial⟩
    · exact ⟨by decide, map_entry_packSlots _ 0 0, by decide⟩
    · exact ⟨⟨11, 2, 8, 4096, 0⟩, _, _, ⟨by decide, rfl, by decide, by decide⟩,
        chestImage_block rfl, .clear (.inl rfl),
        .mk (packNode room_chestLeft) rfl length_blankBlock ⟨rfl, map_entry_packSlots _ 0 0⟩⟩
    · exact ⟨⟨12, 2, 9, 4096, 0⟩, _, _, ⟨by decide, rfl, by decide, by decide⟩,
        chestImage_block rfl, .clear (.inl rfl),
        .mk (packNode room_chestRight) rfl length_blankBlock ⟨rfl, map_entry_packSlots _ 0 0⟩⟩
  height_le := by decide
  distinct := by decide
  ranges := chestTree_bracketed
  records := rfl

def chestFragments : List Fragment := [⟨List.replicate 4096 7, 10, 0, by decide⟩]

theorem chest_hasFile : HasFile .shift chestImage none 4096 (lettersLeft ++ chestRight)
    ["letters", "é"] 6 letterInode.inode chestFragments where
  path := .cons (b := 5) (by decide +kernel) (.cons (by decide +kernel) (.nil 6))
  inode_eq := by decide +kernel
  plain := by decide +kernel
  size_le := by decide
  stream :=
    { extents := .of_eq (by decide +kernel)
      stored := by
        refine List.forall_mem_singleton.mpr (.clear (by decide) (.inl rfl) ?_)
        exact hasBlocks_chestImage.stands (i := 10) rfl }

theorem fillTo_chestFragments :
    fillTo (letterInode.inode.size.getD 0) (chestFragments.flatMap Fragment.content)
      = List.replicate 1300 7 := by
  decide +kernel

/-- The file is found by its path and read to its size. -/
theorem chest_reads_back : ∃ fs, ApfsFs.openLive chestImage = .ok fs ∧
    Follows (fs.lookup .shift) fs.root (["letters", "é"].map utf8Bytes) (.apfsOid 6 2) ∧
    ServesWindows (fs.readAt .stored .shift (.apfsOid 6 2) .default) (List.replicate 1300 7) := by
  obtain ⟨fs, hopen, hpaths, hfiles⟩ :=
    written_container_reads_back .stored chestContainer chestWritten
  refine ⟨fs, hopen, (hpaths _ _).mpr ⟨6, chest_hasFile.path, rfl⟩, ?_⟩
  rw [← fillTo_chestFragments]
  exact (hfiles _ _ _ _ chest_hasFile).2

end ApfsForensic
