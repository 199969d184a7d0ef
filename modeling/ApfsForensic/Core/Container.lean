import ApfsForensic.Core.Object

/-!
# Container superblocks

`core/src/container.rs` and `is_fusion` of `core/src/fusion.rs`.  A block is a
superblock if it has the magic and its checksum matches (`parse_eq_ok_iff`); its
fields are read only then.  All of them stand in the first 4096 bytes
(`NxSuperblock.fields_take`), whatever the block size.
-/

namespace ApfsForensic

/-- `NX_MAGIC`. -/
def nxMagic : Nat := 0x4253584E

/-- `NX_INCOMPAT_FUSION`. -/
def nxIncompatFusion : Nat := 0x100

/-- `NX_MINIMUM_BLOCK_SIZE`. -/
def nxMinimumBlockSize : Nat := 4096

/-- `NX_MAXIMUM_BLOCK_SIZE`. -/
def nxMaximumBlockSize : Nat := 65536

/-- `NX_MAX_FILE_SYSTEMS`. -/
def nxMaxFileSystems : Nat := 100

/-- `XP_BLOCKS_TREE_FLAG`. -/
def xpBlocksTreeFlag : Nat := 0x80000000

/-- `NxSuperblock`. -/
structure NxSuperblock where
  xid : Nat
  uuid : Bytes
  blockSize : Nat
  blockCount : Nat
  incompatibleFeatures : Nat
  xpDescBase : Nat
  xpDescBlocks : Nat
  xpDataBase : Nat
  xpDataBlocks : Nat
  omapOid : Nat
  spacemanOid : Nat
  reaperOid : Nat
  fsOids : List Nat
  descIsTree : Bool
  dataIsTree : Bool
  deriving DecidableEq, Repr

namespace NxSuperblock

/-- The geometry of a block that has passed both gates.  `!XP_BLOCKS_TREE_FLAG` on
`u32` is the low 31 bits. -/
def fields (block : Bytes) : NxSuperblock :=
  let descBlocksRaw := leU32 block 104
  let dataBlocksRaw := leU32 block 108
  let maxFs := min (leU32 block 180) nxMaxFileSystems
  { xid := leU64 block 16
    uuid := arr 16 block 72
    blockSize := leU32 block 36
    blockCount := leU64 block 40
    incompatibleFeatures := leU64 block 64
    xpDescBase := leU64 block 112
    xpDescBlocks := descBlocksRaw &&& (xpBlocksTreeFlag - 1)
    xpDataBase := leU64 block 120
    xpDataBlocks := dataBlocksRaw &&& (xpBlocksTreeFlag - 1)
    omapOid := leU64 block 160
    spacemanOid := leU64 block 152
    reaperOid := leU64 block 168
    fsOids := ((List.range maxFs).map (fun i => leU64 block (184 + i * 8))).filter (· ≠ 0)
    descIsTree := descBlocksRaw &&& xpBlocksTreeFlag ≠ 0
    dataIsTree := dataBlocksRaw &&& xpBlocksTreeFlag ≠ 0 }

/-- `NxSuperblock::parse`. -/
def parse (block : Bytes) : Result NxSuperblock := do
  if block.length < 36 then
    throw (.err (.noValidSuperblock 1 0))
  let magic := leU32 block 32
  if magic ≠ nxMagic then
    throw (.err (.noValidSuperblock 1 magic))
  verifyChecksum block (leU64 block 8)
  return fields block

/-- The range of `nx_block_size` that is trusted. -/
def blockSizeInRange (sb : NxSuperblock) : Bool :=
  nxMinimumBlockSize ≤ sb.blockSize ∧ sb.blockSize ≤ nxMaximumBlockSize

end NxSuperblock

/-- `is_fusion`. -/
def isFusion (sb : NxSuperblock) : Bool := sb.incompatibleFeatures &&& nxIncompatFusion ≠ 0

/-! ### What a parsed superblock is -/

/-- The magic and the checksum of the block are right. -/
def IsNxSuperblock (block : Bytes) : Prop :=
  leU32 block 32 = nxMagic ∧ fletcher64Stored block = fletcher64Checksum block

instance (block : Bytes) : Decidable (IsNxSuperblock block) := inferInstanceAs (Decidable (_ ∧ _))

theorem parse_of_isNxSuperblock {block : Bytes} (hlen : 36 ≤ block.length)
    (h : IsNxSuperblock block) : NxSuperblock.parse block = .ok (.fields block) := by
  rw [NxSuperblock.parse, if_neg (by omega)]
  simp only [h.1, ne_eq, not_true_eq_false, if_false]
  rw [verifyChecksum_eq_ok_iff.mpr h.2]
  rfl

theorem NxSuperblock.parse_eq_ok_iff {block : Bytes} (hlen : 36 ≤ block.length)
    {sb : NxSuperblock} :
    NxSuperblock.parse block = .ok sb ↔ IsNxSuperblock block ∧ sb = .fields block := by
  constructor
  · intro h
    have hblock : IsNxSuperblock block := by
      rw [NxSuperblock.parse, if_neg (by omega)] at h
      by_cases hmagic : leU32 block 32 = nxMagic
      · refine ⟨hmagic, ?_⟩
        simp only [hmagic, ne_eq, not_true_eq_false, if_false] at h
        by_contra hsum
        rw [verifyChecksum, if_pos hsum] at h
        exact absurd h (by simp)
      · simp only [hmagic, ne_eq, not_false_eq_true, if_true] at h
        exact absurd h (by simp)
    rw [parse_of_isNxSuperblock hlen hblock, Except.ok.injEq] at h
    exact ⟨hblock, h.symm⟩
  · rintro ⟨hblock, rfl⟩
    exact parse_of_isNxSuperblock hlen hblock

/-! ### Fields and the length of the block -/

theorem NxSuperblock.fields_xid (block : Bytes) :
    (NxSuperblock.fields block).xid = leU64 block 16 := rfl

/-- The fields of a superblock all sit in its first 4096 bytes. -/
theorem NxSuperblock.fields_take {data : Bytes} {n : Nat} (h : nxMinimumBlockSize ≤ n) :
    NxSuperblock.fields (data.take n) = .fields data := by
  have hn : 4096 ≤ n := h
  have h32 : ∀ off, off + 4 ≤ 4096 → leU32 (data.take n) off = leU32 data off :=
    fun off hoff => leUInt_take (by omega)
  have h64 : ∀ off, off + 8 ≤ 4096 → leU64 (data.take n) off = leU64 data off :=
    fun off hoff => leUInt_take (by omega)
  have huuid : arr 16 (data.take n) 72 = arr 16 data 72 := by
    rw [arr, arr, getRange_take (by omega)]
  have hfs : ∀ m ≤ nxMaxFileSystems,
      (List.range m).map (fun i => leU64 (data.take n) (184 + i * 8))
        = (List.range m).map (fun i => leU64 data (184 + i * 8)) := by
    intro m hm
    apply List.map_congr_left
    intro i hi
    rw [List.mem_range] at hi
    unfold nxMaxFileSystems at hm
    exact h64 _ (by omega)
  simp only [NxSuperblock.fields, h32 36 (by omega), h32 104 (by omega), h32 108 (by omega),
    h32 180 (by omega), h64 16 (by omega), h64 40 (by omega), h64 64 (by omega),
    h64 112 (by omega), h64 120 (by omega), h64 152 (by omega), h64 160 (by omega),
    h64 168 (by omega), huuid, hfs _ (Nat.min_le_right _ _)]

end ApfsForensic
