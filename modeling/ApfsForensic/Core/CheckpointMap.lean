import ApfsForensic.Core.ApfsContainer

/-!
# Checkpoint maps

The second loop of `resolve_live_checkpoint` in `core/src/checkpoint.rs`.  A map block
declares how many `checkpoint_mapping_t`s of 40 bytes it holds.  The declared count is
cut to `MAX_CPM_COUNT`, which no block has room for, and a read past the end of the
block is zero.

* `liveSlots`: the places that the loop decodes, as block and offset;
  `mappings_eq_slots`: **the mappings are what is read there**, in order.
* `checkpoint_mappings_stored_iff`: the places lie inside their blocks exactly if no map
  of the live checkpoint declares more mappings than it has room for.
-/

namespace ApfsForensic

open ApfsContainer

/-! ### The decoded places -/

/-- The block at `paddr` lies inside the image and is a verified checkpoint map of this
xid. -/
def RingMap (image : Image) (blockSize paddr xid : Nat) : Prop :=
  (paddr + 1) * blockSize ≤ image.bytes.length ∧
    leU32 (chunk blockSize image.bytes paddr) 24 &&& 0xffff = objectTypeCheckpointMap ∧
    leU64 (chunk blockSize image.bytes paddr) 16 = xid ∧
    fletcher64Stored (chunk blockSize image.bytes paddr)
      = fletcher64Checksum (chunk blockSize image.bytes paddr)

instance (image : Image) (blockSize paddr xid : Nat) :
    Decidable (RingMap image blockSize paddr xid) := inferInstanceAs (Decidable (_ ∧ _))

/-- The `checkpoint_mapping_t` at an offset. -/
def mappingAt (buf : Bytes) (off : Nat) : CheckpointMapping where
  objType := leU32 buf off
  subtype := leU32 buf (off + 4)
  oid := leU64 buf (off + 24)
  paddr := leU64 buf (off + 32)

/-- The offsets that are decoded in a map block. -/
def mapSlots (buf : Bytes) : List Nat :=
  (List.range (min (leU32 buf 36) maxCpmCount)).map (fun m => 40 + m * 40)

/-- The block and the offset of every mapping of the checkpoint `xid`. -/
def liveSlots (image : Image) (boot : NxSuperblock) (xid : Nat) : List (Nat × Nat) :=
  (List.range boot.xpDescBlocks).flatMap fun i =>
    if RingMap image boot.blockSize (boot.xpDescBase + i) xid then
      (mapSlots (chunk boot.blockSize image.bytes (boot.xpDescBase + i))).map
        (boot.xpDescBase + i, ·)
    else []

/-- The mapping at a place. -/
def readSlot (image : Image) (blockSize : Nat) (s : Nat × Nat) : CheckpointMapping :=
  mappingAt (chunk blockSize image.bytes s.1) s.2

theorem mapEntries_eq (buf : Bytes) : mapEntries buf = (mapSlots buf).map (mappingAt buf) := by
  rw [mapSlots, List.map_map]
  rfl

section Slots

variable {image : Image} {boot : NxSuperblock} {blockSize xid : Nat}

/-- One round of the loop. -/
theorem collectMappings_eq (hbs : objPhysLen ≤ blockSize) (paddr : Nat)
    (mappings : List CheckpointMapping) :
    (image.blockInside blockSize paddr).elim mappings (collectMappings xid mappings)
      = mappings ++ if RingMap image blockSize paddr xid then
          mapEntries (chunk blockSize image.bytes paddr) else [] := by
  unfold Image.blockInside
  by_cases hin : (paddr + 1) * blockSize ≤ image.bytes.length
  · have hlen : ¬ (chunk blockSize image.bytes paddr).length < objPhysLen := by
      rw [length_chunk hin]
      omega
    rw [if_pos hin, Option.elim, collectMappings, ObjPhys.parse, if_neg hlen]
    simp only [ObjPhys.objType]
    by_cases hmap : RingMap image blockSize paddr xid
    · rw [if_pos hmap]
      obtain ⟨_, htype, hxid, hsum⟩ := hmap
      simp only [htype, hxid, hsum, ne_eq, not_true_eq_false, or_self, if_false]
    · rw [if_neg hmap, List.append_nil]
      by_cases hkind : leU32 (chunk blockSize image.bytes paddr) 24 &&& 0xffff
          ≠ objectTypeCheckpointMap ∨ leU64 (chunk blockSize image.bytes paddr) 16 ≠ xid
      · exact if_pos hkind
      · have hsum : fletcher64Stored (chunk blockSize image.bytes paddr)
            ≠ fletcher64Checksum (chunk blockSize image.bytes paddr) := by
          rw [not_or, not_not, not_not] at hkind
          exact fun hsum => hmap ⟨hin, hkind.1, hkind.2, hsum⟩
        exact (if_neg hkind).trans (if_pos hsum)
  · rw [if_neg hin, if_neg fun hmap => hin hmap.1, Option.elim, List.append_nil]

theorem blockSizeInRange_of_resolve {live : LiveCheckpoint}
    (h : resolveLiveCheckpoint image boot = .ok live) : boot.blockSizeInRange = true := by
  simp only [resolveLiveCheckpoint, throw_eq_error, error_bind, ite_error_eq_ok_iff] at h
  simpa using h.2.1

/-- **The mappings are what is read at the places.** -/
theorem mappings_eq_slots {live : LiveCheckpoint}
    (h : resolveLiveCheckpoint image boot = .ok live) :
    live.mappings
      = (liveSlots image boot live.xid).map (readSlot image boot.blockSize) := by
  have hsize := (blockSizeInRange_iff.mp (blockSizeInRange_of_resolve h)).1
  have hbs : objPhysLen ≤ boot.blockSize := le_trans (by decide) hsize
  have hpos : 0 < boot.blockSize := lt_of_lt_of_le (by decide) hsize
  rw [foldl_of_forEachRingBlock hpos (mappings_of_resolve h)]
  simp only [collectMappings_eq hbs]
  rw [List.foldl_append_eq_append, List.nil_append, ← List.flatMap_def, liveSlots,
    List.map_flatMap]
  refine List.flatMap_congr fun i _ => ?_
  by_cases hmap : RingMap image boot.blockSize (boot.xpDescBase + i) live.xid
  · rw [if_pos hmap, if_pos hmap, mapEntries_eq, List.map_map]
    rfl
  · rw [if_neg hmap, if_neg hmap, List.map_nil]

/-- The 40 bytes of a place lie inside a map of the ring, of this xid. -/
def StoredSlot (image : Image) (boot : NxSuperblock) (xid : Nat) (s : Nat × Nat) : Prop :=
  (boot.xpDescBase ≤ s.1 ∧ s.1 < boot.xpDescBase + boot.xpDescBlocks) ∧
    RingMap image boot.blockSize s.1 xid ∧ s.2 + 40 ≤ boot.blockSize

theorem mem_liveSlots {s : Nat × Nat} :
    s ∈ liveSlots image boot xid ↔
      ((boot.xpDescBase ≤ s.1 ∧ s.1 < boot.xpDescBase + boot.xpDescBlocks) ∧
        RingMap image boot.blockSize s.1 xid) ∧
      s.2 ∈ mapSlots (chunk boot.blockSize image.bytes s.1) := by
  obtain ⟨paddr, off⟩ := s
  simp only [liveSlots, List.mem_flatMap, List.mem_range]
  constructor
  · rintro ⟨i, hi, hmem⟩
    by_cases hmap : RingMap image boot.blockSize (boot.xpDescBase + i) xid
    · rw [if_pos hmap, List.mem_map] at hmem
      obtain ⟨off', hoff, heq⟩ := hmem
      cases heq
      exact ⟨⟨⟨by omega, by omega⟩, hmap⟩, hoff⟩
    · rw [if_neg hmap] at hmem
      cases hmem
  · rintro ⟨⟨⟨hlo, hhi⟩, hmap⟩, hoff⟩
    obtain ⟨i, rfl⟩ := Nat.exists_eq_add_of_le hlo
    refine ⟨i, by omega, ?_⟩
    rw [if_pos hmap]
    exact List.mem_map_of_mem hoff

/-- The places of a block lie inside it exactly if it has room for what it declares. -/
theorem mapSlots_inside_iff {buf : Bytes}
    (hbs : nxMinimumBlockSize ≤ blockSize ∧ blockSize ≤ nxMaximumBlockSize) :
    (∀ off ∈ mapSlots buf, off + 40 ≤ blockSize) ↔ leU32 buf 36 ≤ (blockSize - 40) / 40 := by
  unfold nxMinimumBlockSize nxMaximumBlockSize at hbs
  simp only [mapSlots, maxCpmCount, List.forall_mem_map, List.mem_range]
  constructor
  · intro h
    by_contra hgt
    have hlast := h ((blockSize - 40) / 40) (by omega)
    omega
  · intro h m hm
    omega

/-- **When no mapping is invented.**  The mappings of a live checkpoint are read from its
maps, block by block.  What is read lies inside the maps, and so does every address that
`resolve_ephemeral` returns, exactly if no map of the checkpoint declares more mappings
than its block has room for. -/
theorem checkpoint_mappings_stored_iff {live : LiveCheckpoint}
    (h : resolveLiveCheckpoint image boot = .ok live) :
    live.mappings = (liveSlots image boot live.xid).map (readSlot image boot.blockSize) ∧
    (((∀ s ∈ liveSlots image boot live.xid, StoredSlot image boot live.xid s) ∧
        ∀ container : ApfsContainer, container.checkpointMappings = live.mappings →
          ∀ oid paddr, container.resolveEphemeral oid = some paddr →
            ∃ s ∈ liveSlots image boot live.xid, StoredSlot image boot live.xid s ∧
              leU64 (chunk boot.blockSize image.bytes s.1) (s.2 + 24) = oid ∧
              leU64 (chunk boot.blockSize image.bytes s.1) (s.2 + 32) = paddr) ↔
      ∀ paddr, boot.xpDescBase ≤ paddr → paddr < boot.xpDescBase + boot.xpDescBlocks →
        RingMap image boot.blockSize paddr live.xid →
        leU32 (chunk boot.blockSize image.bytes paddr) 36 ≤ (boot.blockSize - 40) / 40) := by
  have hbs := blockSizeInRange_iff.mp (blockSizeInRange_of_resolve h)
  refine ⟨mappings_eq_slots h, ?_, ?_⟩
  · rintro ⟨hstored, _⟩ paddr hlo hhi hmap
    refine (mapSlots_inside_iff hbs).mp fun off hoff => ?_
    exact (hstored (paddr, off) (mem_liveSlots.mpr ⟨⟨⟨hlo, hhi⟩, hmap⟩, hoff⟩)).2.2
  · intro hroom
    have hstored : ∀ s ∈ liveSlots image boot live.xid, StoredSlot image boot live.xid s := by
      intro s hs
      obtain ⟨⟨hring, hmap⟩, hoff⟩ := mem_liveSlots.mp hs
      exact ⟨hring, hmap,
        (mapSlots_inside_iff hbs).mpr (hroom s.1 hring.1 hring.2 hmap) s.2 hoff⟩
    refine ⟨hstored, fun container hcontainer oid paddr hresolve => ?_⟩
    rw [resolveEphemeral, hcontainer, mappings_eq_slots h, Option.map_eq_some_iff] at hresolve
    obtain ⟨m, hfind, rfl⟩ := hresolve
    obtain ⟨s, hs, rfl⟩ := List.mem_map.mp (List.mem_of_find?_eq_some hfind)
    have hoid := List.find?_some hfind
    rw [decide_eq_true_eq] at hoid
    exact ⟨s, hs, hstored s hs, hoid, rfl⟩

end Slots

/-! ### Maps of one block

Block zero is the only superblock of a ring of two blocks.  The other one is a map with
room for 101 mappings, which declares `n`.  Behind its header every byte is one. -/

def countedFront (n : Nat) : Bytes := objHdr 3 2 0x4000000c 0 ++ toLeBytes 4 1 ++ toLeBytes 4 n

def countedMap (n : Nat) : Bytes := sealBlock (countedFront n ++ List.replicate 4056 1)

def countedBlocks (n : Nat) : List Bytes := [nxBlock 4096 2 4096 0 0 2, countedMap n]

def countedImage (n : Nat) : Image := .ofBlocks (countedBlocks n)

/-- The superblock, with both blocks in its ring. -/
def countedSuperblock : NxSuperblock :=
  { pairSuperblock 2 4096 0 with xpDescBase := 0, xpDescBlocks := 2 }

/-- What the headers say. -/
def CountedHeaders (n : Nat) : Prop :=
  (NxSuperblock.fields (nxBlock 4096 2 4096 0 0 2) = countedSuperblock ∧
    leU32 (nxBlock 4096 2 4096 0 0 2) 24 &&& 0xffff = objectTypeNxSuperblock ∧
    leU32 (nxBlock 4096 2 4096 0 0 2) 32 = nxMagic) ∧
  leU32 (countedMap n) 24 &&& 0xffff = objectTypeCheckpointMap ∧ leU64 (countedMap n) 16 = 2 ∧
    leU32 (countedMap n) 36 = n

instance (n : Nat) : Decidable (CountedHeaders n) := inferInstanceAs (Decidable (_ ∧ _))

section Counted

theorem length_countedFront (n : Nat) : (countedFront n).length = 32 := rfl

theorem length_countedMap (n : Nat) : (countedMap n).length = 4096 := by
  rw [countedMap, length_sealBlock, List.length_append, List.length_replicate,
    length_countedFront]

theorem hasBlocks_countedImage (n : Nat) : (countedImage n).HasBlocks 4096 (countedBlocks n) := by
  refine Image.hasBlocks_ofBlocks ?_ (show 2 * 4096 ≤ u64Max by decide)
  intro b hb
  simp only [countedBlocks, List.mem_cons, List.not_mem_nil, or_false] at hb
  rcases hb with rfl | rfl
  · exact length_nxBlock (by decide) ..
  · exact length_countedMap n

variable {n : Nat} (hh : CountedHeaders n)

theorem chunk_countedImage_zero :
    chunk 4096 (countedImage n).bytes 0 = nxBlock 4096 2 4096 0 0 2 :=
  (hasBlocks_countedImage n).chunk_eq rfl

theorem chunk_countedImage_one : chunk 4096 (countedImage n).bytes 1 = countedMap n :=
  (hasBlocks_countedImage n).chunk_eq rfl

theorem le_length_countedImage : (1 + 1) * 4096 ≤ (countedImage n).bytes.length :=
  (hasBlocks_countedImage n).length_bytes.ge

include hh

theorem ringSuperblock_countedImage : RingSuperblock (countedImage n) 4096 0 2 := by
  have hlen := @le_length_countedImage n
  refine ⟨by omega, ?_⟩
  rw [chunk_countedImage_zero]
  refine ⟨hh.1.2.1, ⟨hh.1.2.2, sealBlock_verifies _⟩, ?_⟩
  rw [← NxSuperblock.fields_xid, hh.1.1]
  rfl

theorem ringMap_countedImage {paddr : Nat} (hpaddr : paddr < 2) :
    RingMap (countedImage n) 4096 paddr 2 ↔ paddr = 1 := by
  constructor
  · rintro ⟨_, htype, _⟩
    by_contra hne
    rw [show paddr = 0 by omega, chunk_countedImage_zero, hh.1.2.1] at htype
    exact absurd htype (by decide)
  · rintro rfl
    refine ⟨le_length_countedImage, ?_⟩
    rw [chunk_countedImage_one]
    exact ⟨hh.2.1, hh.2.2.1, sealBlock_verifies _⟩

theorem resolve_countedImage :
    ∃ live, resolveLiveCheckpoint (countedImage n) countedSuperblock = .ok live ∧
      live.superblockPaddr = 0 ∧ live.xid = 2 := by
  have hsuper := ringSuperblock_countedImage hh
  have hbs : countedSuperblock.blockSizeInRange = true := rfl
  have hring : countedSuperblock.xpDescBase + countedSuperblock.xpDescBlocks ≤ 2 ^ 64 := by decide
  rcases resolveLiveCheckpoint_cases (countedImage n) rfl hbs hring
    with ⟨live, hlive, ⟨_, hhi⟩, hnewest, _⟩ | ⟨_, hno⟩
  · refine ⟨live, hlive, ?_⟩
    have hlt : live.superblockPaddr < 0 + 2 := hhi
    have hzero : live.superblockPaddr = 0 := by
      by_contra hne
      have htype : leU32 (chunk 4096 (countedImage n).bytes live.superblockPaddr) 24 &&& 0xffff
          = objectTypeNxSuperblock := hnewest.2.1
      rw [show live.superblockPaddr = 1 by omega, chunk_countedImage_one, hh.2.1] at htype
      exact absurd htype (by decide)
    rw [hzero] at hnewest
    exact ⟨hzero, hnewest.xid_eq hsuper⟩
  · exact absurd hsuper (hno 0 2 (by decide) (by decide))

theorem liveSlots_countedImage :
    liveSlots (countedImage n) countedSuperblock 2 = (mapSlots (countedMap n)).map (1, ·) := by
  have hmap := (ringMap_countedImage hh (show 0 + 1 < 2 by decide)).mpr rfl
  have hsuper : ¬ RingMap (countedImage n) 4096 (0 + 0) 2 := fun h =>
    absurd ((ringMap_countedImage hh (by decide)).mp h) (by decide)
  show List.flatMap (fun i => if RingMap (countedImage n) 4096 (0 + i) 2 then
    (mapSlots (chunk 4096 (countedImage n).bytes (0 + i))).map (0 + i, ·) else []) [0, 1] = _
  rw [List.flatMap_cons, List.flatMap_singleton, if_neg hsuper, if_pos hmap, List.nil_append,
    Nat.zero_add, chunk_countedImage_one]

theorem openContainer_countedImage : ∃ container, openContainer (countedImage n) = .ok container ∧
    container.superblock = countedSuperblock ∧
    container.checkpointMappings = mapEntries (countedMap n) := by
  obtain ⟨live, hlive, hpaddr, hxid⟩ := resolve_countedImage hh
  have hbs : countedSuperblock.blockSize = 4096 := rfl
  have htake : (countedImage n).bytes.take nxMinimumBlockSize = nxBlock 4096 2 4096 0 0 2 :=
    chunk_countedImage_zero
  have hboot : bootstrapOf (countedImage n) = countedSuperblock := by
    rw [bootstrapOf, htake, hh.1.1]
  have hsize : nxMinimumBlockSize ≤ (countedImage n).bytes.length :=
    le_trans (by decide) le_length_countedImage
  have hzeroth : IsNxSuperblock ((countedImage n).bytes.take nxMinimumBlockSize) := by
    rw [htake]
    exact ⟨hh.1.2.2, sealBlock_verifies _⟩
  have hfusion : isFusion (bootstrapOf (countedImage n)) = false := by
    rw [hboot]
    rfl
  refine ⟨_, openContainer_eq_ok_iff.mpr
    ⟨⟨hsize, hzeroth, hfusion⟩, live, by rw [hboot, hlive], rfl⟩, ?_, ?_⟩
  · show NxSuperblock.fields (chunk (bootstrapOf (countedImage n)).blockSize _ _) = _
    rw [hboot, hpaddr, hbs, chunk_countedImage_zero, hh.1.1]
  · show live.mappings = _
    rw [mappings_eq_slots hlive, hxid, liveSlots_countedImage hh, List.map_map, mapEntries_eq]
    refine List.map_congr_left fun off _ => ?_
    show mappingAt (chunk 4096 (countedImage n).bytes 1) off = _
    rw [chunk_countedImage_one]

end Counted

theorem countedHeaders_full : CountedHeaders 101 := by decide +kernel

theorem countedHeaders_crowded : CountedHeaders 102 := by decide +kernel

/-- A map that is full: the last of its mappings is resolved to the address stored there. -/
theorem mappings_stored_countedImage :
    ∃ live, resolveLiveCheckpoint (countedImage 101) countedSuperblock = .ok live ∧
      (1, 4040) ∈ liveSlots (countedImage 101) countedSuperblock live.xid ∧
      ∀ s ∈ liveSlots (countedImage 101) countedSuperblock live.xid,
        StoredSlot (countedImage 101) countedSuperblock live.xid s := by
  obtain ⟨live, hlive, _, hxid⟩ := resolve_countedImage countedHeaders_full
  refine ⟨live, hlive, ?_, ((checkpoint_mappings_stored_iff hlive).2.mpr ?_).1⟩
  · rw [hxid, liveSlots_countedImage countedHeaders_full, mapSlots, countedHeaders_full.2.2.2]
    exact List.mem_map_of_mem (List.mem_map.mpr ⟨100, by decide, rfl⟩)
  · intro paddr _ hhi hmap
    rw [hxid] at hmap
    have hpaddr := (ringMap_countedImage countedHeaders_full hhi).mp hmap
    subst hpaddr
    show leU32 (chunk 4096 (countedImage 101).bytes 1) 36 ≤ (4096 - 40) / 40
    rw [chunk_countedImage_one, countedHeaders_full.2.2.2]

/-! One mapping more, and the last has no room for its oid and its address. -/

theorem leUInt_replicate {front : Bytes} {n w off : Nat} {b : UInt8} (hlo : front.length ≤ off)
    (hhi : off + w ≤ front.length + n) :
    leUInt w (front ++ List.replicate n b) off = fromLeBytes (List.replicate w b) := by
  have hin : off ≤ off + w ∧ off + w ≤ (front ++ List.replicate n b).length := by
    rw [List.length_append, List.length_replicate]
    omega
  obtain ⟨d, rfl⟩ := Nat.exists_eq_add_of_le hlo
  rw [leUInt, getRange, if_pos hin, ← List.drop_drop, List.drop_left, List.drop_replicate,
    List.take_replicate, Nat.add_sub_cancel_left, Nat.min_eq_left (by omega)]

theorem mappingAt_countedMap_last (n : Nat) :
    (mappingAt (countedMap n) 4080).oid = 0 ∧ (mappingAt (countedMap n) 4080).paddr = 0 := by
  simp only [mappingAt, leU64, leUInt, getRange, length_countedMap]
  exact ⟨rfl, rfl⟩

theorem mappingAt_countedMap_ne (n : Nat) {m : Nat} (hm : m < 101) :
    (mappingAt (countedMap n) (40 + m * 40)).oid ≠ 0 := by
  have hfront : (toLeBytes 8 (fletcher64Checksum (List.replicate 8 0 ++
      (countedFront n ++ List.replicate 4056 1))) ++ countedFront n).length = 40 := by
    rw [List.length_append, length_toLeBytes, length_countedFront]
  show leU64 (countedMap n) (40 + m * 40 + 24) ≠ 0
  rw [leU64, countedMap, sealBlock, ← List.append_assoc,
    leUInt_replicate (by rw [hfront]; omega) (by rw [hfront]; omega)]
  decide

theorem find?_crowded :
    (mapEntries (countedMap 102)).find? (fun m => m.oid = 0)
      = some (mappingAt (countedMap 102) 4080) := by
  have hslots : mapSlots (countedMap 102)
      = (List.range 101).map (fun m => 40 + m * 40) ++ [4080] := by
    rw [mapSlots, countedHeaders_crowded.2.2.2, show min 102 maxCpmCount = 101 + 1 from rfl,
      List.range_succ, List.map_append]
    rfl
  have hnone : (((List.range 101).map fun m => 40 + m * 40).map
      (mappingAt (countedMap 102))).find? (fun m => m.oid = 0) = none := by
    rw [List.find?_eq_none, List.map_map, List.forall_mem_map]
    intro m hm hoid
    exact mappingAt_countedMap_ne 102 (List.mem_range.mp hm) (of_decide_eq_true hoid)
  rw [mapEntries_eq, hslots, List.map_append, List.find?_append, hnone, Option.none_or,
    List.map_singleton, List.find?_cons, (mappingAt_countedMap_last 102).1, decide_eq_true rfl]

/-- The place of the last mapping runs past its block.  No mapping inside the block has the
oid zero, and the container resolves it, for its reaper, to block zero. -/
theorem reaper_invented_countedImage :
    (∃ live, resolveLiveCheckpoint (countedImage 102) countedSuperblock = .ok live ∧
      (1, 4080) ∈ liveSlots (countedImage 102) countedSuperblock live.xid ∧
      ¬ StoredSlot (countedImage 102) countedSuperblock live.xid (1, 4080)) ∧
    (∀ m < 101, (mappingAt (countedMap 102) (40 + m * 40)).oid ≠ 0) ∧
    ∃ container, openContainer (countedImage 102) = .ok container ∧
      container.reaperPaddr = some 0 := by
  refine ⟨?_, fun m hm => mappingAt_countedMap_ne 102 hm, ?_⟩
  · obtain ⟨live, hlive, _, hxid⟩ := resolve_countedImage countedHeaders_crowded
    refine ⟨live, hlive, ?_, fun hstored => absurd hstored.2.2 (by decide)⟩
    rw [hxid, liveSlots_countedImage countedHeaders_crowded, mapSlots,
      countedHeaders_crowded.2.2.2]
    exact List.mem_map_of_mem (List.mem_map.mpr ⟨101, by decide, rfl⟩)
  · obtain ⟨container, hopen, hsb, hmappings⟩ := openContainer_countedImage countedHeaders_crowded
    have hreaper : countedSuperblock.reaperOid = 0 := rfl
    refine ⟨container, hopen, ?_⟩
    rw [reaperPaddr, resolveEphemeral, hsb, hreaper, hmappings, find?_crowded, Option.map_some,
      (mappingAt_countedMap_last 102).2]

end ApfsForensic
