import ApfsForensic.Core.Checkpoint
import ApfsForensic.Core.ChecksumStrength
import ApfsForensic.Core.DirNames
import ApfsForensic.Core.Encode
import ApfsForensic.Core.Omap
import ApfsForensic.Core.Volume
import ApfsForensic.Walk.Pieces
import Mathlib.Data.Nat.Bitwise

/-!
# Headers as they are written

The three blocks that a reader finds its way by have their fields at fixed places: the
superblock of the container, that of a volume, and the header of an object map.  `write` puts
the fields into a block, leaves the rest of it as it was (`base`) and seals it, so counters and
whatever a later version keeps in the gaps are arbitrary.

* `verifies_writeSealed`: a block that is written in pieces and sealed passes its checksum.
* `parse_write`, for each of the three: parsing gives back what was written.  The type field has
  storage flags in its upper half, which are arbitrary too.
-/

namespace ApfsForensic

open Walk

/-! ### Fields -/

@[simp] theorem stop_mk (start : Nat) (content : Bytes) :
    (⟨start, content⟩ : Piece UInt8).stop = start + content.length := rfl

/-- A number of `width` bytes at `off`. -/
def numberPiece (width off value : Nat) : Piece UInt8 := ⟨off, toLeBytes width value⟩

@[simp] theorem start_numberPiece (width off value : Nat) :
    (numberPiece width off value).start = off := rfl

@[simp] theorem stop_numberPiece (width off value : Nat) :
    (numberPiece width off value).stop = off + width := by
  rw [Piece.stop, numberPiece, length_toLeBytes]

/-! ### Sealing -/

/-- The block with the checksum in it that the block will have once the pieces are written. -/
def sealBase (base : Bytes) (pieces : List (Piece UInt8)) : Bytes :=
  toLeBytes 8 (fletcher64Checksum (layOut base pieces)) ++ base.drop 8

/-- The block with the pieces written into it and its checksum in front. -/
def writeSealed (base : Bytes) (pieces : List (Piece UInt8)) : Bytes :=
  layOut (sealBase base pieces) pieces

section Sealed

variable {base : Bytes} {pieces : List (Piece UInt8)}

theorem length_sealBase (hlen : 8 ≤ base.length) (pieces : List (Piece UInt8)) :
    (sealBase base pieces).length = base.length := by
  rw [sealBase, List.length_append, length_toLeBytes, List.length_drop]
  omega

/-- **A sealed block passes its checksum.**  The pieces leave the stored checksum alone, and the
checksum does not look at it. -/
theorem verifies_writeSealed (hlen : 8 ≤ base.length)
    (hin : ∀ p ∈ pieces, 8 ≤ p.start ∧ p.stop ≤ base.length) :
    Verifies (writeSealed base pieces) := by
  have hbase := length_sealBase hlen pieces
  have hin' : ∀ p ∈ pieces, p.stop ≤ (sealBase base pieces).length := by
    intro p hp
    rw [hbase]
    exact (hin p hp).2
  have hlength : (writeSealed base pieces).length = (layOut base pieces).length := by
    rw [writeSealed, length_layOut hin', length_layOut fun p hp => (hin p hp).2, hbase]
  have hsum : fletcher64Checksum (writeSealed base pieces)
      = fletcher64Checksum (layOut base pieces) := by
    apply checksum_eq_of_stored hlength
    intro k hne
    by_contra hk
    refine hne (getElem?_layOut_congr hin' hbase ?_)
    rw [sealBase, List.getElem?_append_right (by rw [length_toLeBytes]; omega), length_toLeBytes,
      List.getElem?_drop]
    congr 1
    omega
  have hstored : fletcher64Stored (writeSealed base pieces)
      = fletcher64Stored (sealBase base pieces) := by
    apply leUInt_congr (length_layOut hin')
    intro k _ hk
    refine getElem?_layOut_of_not_covers hin' fun p hp hcovers => ?_
    have hstart := (hin p hp).1
    have hle := hcovers.1
    omega
  rw [Verifies, hsum, hstored, fletcher64Stored, leU64, sealBase,
    leUInt_append_zero (length_toLeBytes 8 _)]
  exact fromLeBytes_toLeBytes 8 _ (fletcher64Checksum_lt _)

end Sealed

/-! ### Fields in order -/

section Fields

variable {base : Bytes} {pieces : List (Piece UInt8)}

theorem Walk.Piece.InOrder.eight_le (h : Piece.InOrder base.length 8 pieces) : 8 ≤ base.length := by
  cases pieces with
  | nil => exact h
  | cons p pieces =>
    have hp := h.between p List.mem_cons_self
    have : p.start ≤ p.stop := Nat.le_add_right _ _
    omega

theorem Walk.Piece.InOrder.verifies (h : Piece.InOrder base.length 8 pieces) :
    Verifies (writeSealed base pieces) :=
  verifies_writeSealed h.eight_le h.between

theorem Walk.Piece.InOrder.inside (h : Piece.InOrder base.length 8 pieces) :
    ∀ p ∈ pieces, p.stop ≤ (sealBase base pieces).length := by
  intro p hp
  rw [length_sealBase h.eight_le]
  exact (h.between p hp).2

theorem Walk.Piece.InOrder.length_eq (h : Piece.InOrder base.length 8 pieces) :
    (writeSealed base pieces).length = base.length := by
  rw [writeSealed, length_layOut h.inside, length_sealBase h.eight_le]

theorem Walk.Piece.InOrder.exists_drop (h : Piece.InOrder base.length 8 pieces) {p : Piece UInt8}
    (hp : p ∈ pieces) : ∃ rest, (writeSealed base pieces).drop p.start = p.content ++ rest :=
  exists_drop_layOut h.inside h.disjoint hp

theorem Walk.Piece.InOrder.start_le (h : Piece.InOrder base.length 8 pieces) {p : Piece UInt8}
    (hp : p ∈ pieces) : p.start ≤ (writeSealed base pieces).length := by
  rw [h.length_eq]
  exact le_trans (Nat.le_add_right _ _) (h.between p hp).2

theorem Walk.Piece.InOrder.getRange (h : Piece.InOrder base.length 8 pieces) {p : Piece UInt8}
    (hp : p ∈ pieces) : getRange (writeSealed base pieces) p.start p.stop = some p.content := by
  obtain ⟨rest, hrest⟩ := h.exists_drop hp
  exact getRange_of_drop (h.start_le hp) hrest

/-- A number is read back from its field. -/
theorem Walk.Piece.InOrder.leUInt (h : Piece.InOrder base.length 8 pieces) {width off value : Nat}
    (hp : numberPiece width off value ∈ pieces) (hv : value < 256 ^ width) :
    leUInt width (writeSealed base pieces) off = value := by
  obtain ⟨rest, hrest⟩ := h.exists_drop hp
  exact leUInt_of_drop hv (h.start_le hp) hrest

theorem Walk.Piece.InOrder.arr (h : Piece.InOrder base.length 8 pieces) {off : Nat}
    {content : Bytes} (hp : ⟨off, content⟩ ∈ pieces) :
    arr content.length (writeSealed base pieces) off = content := by
  have hrange := h.getRange hp
  rw [Piece.stop] at hrange
  rw [ApfsForensic.arr, hrange, Option.getD_some]

end Fields

/-- `o_type`: the type under the storage flags. -/
def typeField (storage : UInt16) (objType : Nat) : Nat := storage.toNat * 2 ^ 16 + objType

theorem typeField_and {storage : UInt16} {objType : Nat} (h : objType < 2 ^ 16) :
    typeField storage objType &&& 0xffff = objType := by
  have hmask : ∀ n : Nat, n &&& 0xffff = n % 2 ^ 16 := fun n => Nat.and_two_pow_sub_one_eq_mod n 16
  rw [hmask, typeField]
  omega

theorem typeField_lt {storage : UInt16} {objType : Nat} (h : objType < 2 ^ 16) :
    typeField storage objType < 256 ^ 4 := by
  have : (256 : Nat) ^ 4 = 2 ^ 32 := rfl
  have hstorage : storage.toNat < 2 ^ 16 := storage.toNat_lt
  rw [typeField]
  omega

theorem objPhys_of_fields {block : Bytes} {storage : UInt16} {objType : Nat}
    (hlen : objPhysLen ≤ block.length) (htype : leU32 block 24 = typeField storage objType) :
    ObjPhys.parse block = some
      ⟨leU64 block 0, leU64 block 8, leU64 block 16, typeField storage objType,
        leU32 block 28⟩ := by
  rw [ObjPhys.parse, if_neg (Nat.not_lt.mpr hlen), htype]

/-! ### Object maps -/

namespace ObjectMap

/-- The numbers of the header fit their fields. -/
structure Fits (omap : ObjectMap) : Prop where
  flags_lt : omap.flags < 2 ^ 32
  treeType_lt : omap.treeType < 2 ^ 32
  treeOid_lt : omap.treeOid < 2 ^ 64
  snapshotTreeOid_lt : omap.snapshotTreeOid < 2 ^ 64

/-- `omap_phys_t`. -/
def pieces (omap : ObjectMap) (storage : UInt16) : List (Piece UInt8) :=
  [numberPiece 4 24 (typeField storage objectTypeOmap), numberPiece 4 32 omap.flags,
    numberPiece 4 40 omap.treeType, numberPiece 8 48 omap.treeOid,
    numberPiece 8 56 omap.snapshotTreeOid]

/-- The block with the header written into it and its checksum. -/
def write (omap : ObjectMap) (base : Bytes) (storage : UInt16) : Bytes :=
  writeSealed base (omap.pieces storage)

variable {omap : ObjectMap} {base : Bytes} {storage : UInt16}

theorem inOrder_pieces (omap : ObjectMap) (storage : UInt16) (hlen : 64 ≤ base.length) :
    Piece.InOrder base.length 8 (omap.pieces storage) := by
  simp [pieces, Piece.InOrder]
  omega

theorem length_write (omap : ObjectMap) (storage : UInt16) (hlen : 64 ≤ base.length) :
    (omap.write base storage).length = base.length :=
  (omap.inOrder_pieces storage hlen).length_eq

/-- **A written object map is parsed back.** -/
theorem parse_write (hlen : 64 ≤ base.length) (hfits : omap.Fits) :
    ObjectMap.parse (omap.write base storage) = .ok omap := by
  have hin := omap.inOrder_pieces storage hlen
  have hwritten := omap.length_write storage hlen
  have hsum : Verifies (omap.write base storage) := hin.verifies
  have htype : leU32 (omap.write base storage) 24 = typeField storage objectTypeOmap :=
    hin.leUInt (by simp [pieces]) (typeField_lt (by decide))
  have hflags : leU32 (omap.write base storage) 32 = omap.flags :=
    hin.leUInt (by simp [pieces]) hfits.flags_lt
  have htree : leU32 (omap.write base storage) 40 = omap.treeType :=
    hin.leUInt (by simp [pieces]) hfits.treeType_lt
  have hoid : leU64 (omap.write base storage) 48 = omap.treeOid :=
    hin.leUInt (by simp [pieces]) hfits.treeOid_lt
  have hsnap : leU64 (omap.write base storage) 56 = omap.snapshotTreeOid :=
    hin.leUInt (by simp [pieces]) hfits.snapshotTreeOid_lt
  have hmin : ¬ (omap.write base storage).length < omapPhysMinLen := by
    unfold omapPhysMinLen
    omega
  have hhdr := objPhys_of_fields (by unfold objPhysLen; omega) htype
  rw [ObjectMap.parse, if_neg hmin, hhdr]
  simp only [ObjPhys.objType, typeField_and (by decide : objectTypeOmap < 2 ^ 16), ne_eq,
    not_true_eq_false, if_false, verifyChecksum_eq_ok_iff.mpr hsum, hflags, htree, hoid, hsnap]
  rfl

end ObjectMap

/-! ### Volume superblocks -/

namespace ApfsVolume

/-- The fields fit, and there is no key in a superblock. -/
structure Fits (volume : ApfsVolume) : Prop where
  oid_lt : volume.oid < 2 ^ 64
  xid_lt : volume.xid < 2 ^ 64
  fsIndex_lt : volume.fsIndex < 2 ^ 32
  features_lt : volume.features < 2 ^ 64
  readonly_lt : volume.readonlyCompatibleFeatures < 2 ^ 64
  incompatible_lt : volume.incompatibleFeatures < 2 ^ 64
  rootTreeType_lt : volume.rootTreeType < 2 ^ 32
  omapOid_lt : volume.omapOid < 2 ^ 64
  rootTreeOid_lt : volume.rootTreeOid < 2 ^ 64
  extentrefTreeOid_lt : volume.extentrefTreeOid < 2 ^ 64
  snapMetaTreeOid_lt : volume.snapMetaTreeOid < 2 ^ 64
  length_uuid : volume.uuid.length = 16
  fsFlags_lt : volume.fsFlags < 2 ^ 64
  no_nul : 0 ∉ utf8Bytes volume.name
  length_name : (utf8Bytes volume.name).length ≤ 256
  vek : volume.vek = none

/-- `apfs_superblock_t`, as far as it is read. -/
def pieces (volume : ApfsVolume) (storage : UInt16) : List (Piece UInt8) :=
  [numberPiece 8 8 volume.oid, numberPiece 8 16 volume.xid,
    numberPiece 4 24 (typeField storage objectTypeFs), numberPiece 4 32 apfsMagic,
    numberPiece 4 36 volume.fsIndex, numberPiece 8 40 volume.features,
    numberPiece 8 48 volume.readonlyCompatibleFeatures,
    numberPiece 8 56 volume.incompatibleFeatures, numberPiece 4 116 volume.rootTreeType,
    numberPiece 8 128 volume.omapOid, numberPiece 8 136 volume.rootTreeOid,
    numberPiece 8 144 volume.extentrefTreeOid, numberPiece 8 152 volume.snapMetaTreeOid,
    ⟨240, volume.uuid⟩, numberPiece 8 256 volume.fsFlags,
    ⟨704, padTo 256 (utf8Bytes volume.name)⟩]

/-- The block with the superblock written into it and its checksum. -/
def write (volume : ApfsVolume) (base : Bytes) (storage : UInt16) : Bytes :=
  writeSealed base (volume.pieces storage)

variable {volume : ApfsVolume} {base : Bytes} {storage : UInt16}

theorem inOrder_pieces (storage : UInt16) (hlen : apsbMinLen ≤ base.length) (hfits : volume.Fits) :
    Piece.InOrder base.length 8 (volume.pieces storage) := by
  have hname : (padTo 256 (utf8Bytes volume.name)).length = 256 := length_padTo hfits.length_name
  unfold apsbMinLen at hlen
  simp [pieces, Piece.InOrder, hname, hfits.length_uuid]
  omega

theorem length_write (storage : UInt16) (hlen : apsbMinLen ≤ base.length) (hfits : volume.Fits) :
    (volume.write base storage).length = base.length :=
  (inOrder_pieces storage hlen hfits).length_eq

/-- The name ends at the padding, or with the field. -/
theorem decodeCstr_padTo {s : String} (h : 0 ∉ utf8Bytes s) (n : Nat) :
    decodeCstr (padTo n (utf8Bytes s)) = s := by
  have htake : (padTo n (utf8Bytes s)).takeWhile (· != 0) = utf8Bytes s := by
    rw [padTo, List.takeWhile_append_of_pos]
    · cases n - (utf8Bytes s).length <;> simp [List.replicate_succ]
    · intro b hb
      rw [bne_iff_ne]
      rintro rfl
      exact h hb
  rw [decodeCstr, htake, fromUtf8Lossy_utf8Bytes]

/-- **A written volume superblock is parsed back.** -/
theorem parse_write (hlen : apsbMinLen ≤ base.length) (hfits : volume.Fits) :
    ApfsVolume.parse (volume.write base storage) = .ok volume := by
  have hin := inOrder_pieces storage hlen hfits
  have hsum : Verifies (volume.write base storage) := hin.verifies
  have hmin : ¬ (volume.write base storage).length < apsbMinLen := by
    rw [length_write storage hlen hfits]
    omega
  have h32 : ∀ off value : Nat, numberPiece 4 off value ∈ volume.pieces storage →
      value < 2 ^ 32 → leU32 (volume.write base storage) off = value :=
    fun _ _ hp hv => hin.leUInt hp hv
  have h64 : ∀ off value : Nat, numberPiece 8 off value ∈ volume.pieces storage →
      value < 2 ^ 64 → leU64 (volume.write base storage) off = value :=
    fun _ _ hp hv => hin.leUInt hp hv
  have htype := h32 24 (typeField storage objectTypeFs) (by simp [pieces])
    (typeField_lt (by decide))
  have huuid : arr 16 (volume.write base storage) 240 = volume.uuid := by
    rw [← hfits.length_uuid]
    exact hin.arr (by simp [pieces])
  have hname : decodeVolname (volume.write base storage) 704 256 = volume.name := by
    have hrange := hin.getRange
      (p := ⟨704, padTo 256 (utf8Bytes volume.name)⟩) (by simp [pieces])
    rw [Piece.stop, length_padTo hfits.length_name] at hrange
    rw [decodeVolname, write, hrange]
    exact decodeCstr_padTo hfits.no_nul 256
  have hhdr := objPhys_of_fields (by unfold apsbMinLen at hmin; unfold objPhysLen; omega) htype
  rw [ApfsVolume.parse, if_neg hmin, hhdr]
  simp only [ObjPhys.objType, typeField_and (by decide : objectTypeFs < 2 ^ 16), ne_eq,
    not_true_eq_false, if_false, h32 32 apfsMagic (by simp [pieces]) (by decide),
    verifyChecksum_eq_ok_iff.mpr hsum, huuid, hname,
    h64 8 _ (by simp [pieces]) hfits.oid_lt,
    h64 16 _ (by simp [pieces]) hfits.xid_lt,
    h32 36 _ (by simp [pieces]) hfits.fsIndex_lt,
    h64 40 _ (by simp [pieces]) hfits.features_lt,
    h64 48 _ (by simp [pieces]) hfits.readonly_lt,
    h64 56 _ (by simp [pieces]) hfits.incompatible_lt,
    h32 116 _ (by simp [pieces]) hfits.rootTreeType_lt,
    h64 128 _ (by simp [pieces]) hfits.omapOid_lt,
    h64 136 _ (by simp [pieces]) hfits.rootTreeOid_lt,
    h64 144 _ (by simp [pieces]) hfits.extentrefTreeOid_lt,
    h64 152 _ (by simp [pieces]) hfits.snapMetaTreeOid_lt,
    h64 256 _ (by simp [pieces]) hfits.fsFlags_lt]
  show Except.ok _ = Except.ok volume
  rw [← hfits.vek]

end ApfsVolume

/-! ### Container superblocks -/

namespace NxSuperblock

/-- The fields fit.  `slots` is the table of volumes, in which a zero stands for none. -/
structure Fits (sb : NxSuperblock) (slots : List Nat) : Prop where
  xid_lt : sb.xid < 2 ^ 64
  length_uuid : sb.uuid.length = 16
  blockSize_lt : sb.blockSize < 2 ^ 32
  blockCount_lt : sb.blockCount < 2 ^ 64
  incompatible_lt : sb.incompatibleFeatures < 2 ^ 64
  xpDescBase_lt : sb.xpDescBase < 2 ^ 64
  xpDescBlocks_lt : sb.xpDescBlocks < 2 ^ 31
  xpDataBase_lt : sb.xpDataBase < 2 ^ 64
  xpDataBlocks_lt : sb.xpDataBlocks < 2 ^ 31
  omapOid_lt : sb.omapOid < 2 ^ 64
  spacemanOid_lt : sb.spacemanOid < 2 ^ 64
  reaperOid_lt : sb.reaperOid < 2 ^ 64
  fsOids_eq : sb.fsOids = slots.filter (· ≠ 0)
  slot_lt : ∀ oid ∈ slots, oid < 2 ^ 64
  slots_le : slots.length ≤ nxMaxFileSystems

/-- A count of blocks with the flag of an area kept in a tree. -/
def blocksField (blocks : Nat) (isTree : Bool) : Nat :=
  if isTree then xpBlocksTreeFlag + blocks else blocks

/-- `nx_superblock_t`, as far as it is read. -/
def pieces (sb : NxSuperblock) (storage : UInt16) (slots : List Nat) : List (Piece UInt8) :=
  [numberPiece 8 16 sb.xid, numberPiece 4 24 (typeField storage objectTypeNxSuperblock),
    numberPiece 4 32 nxMagic, numberPiece 4 36 sb.blockSize, numberPiece 8 40 sb.blockCount,
    numberPiece 8 64 sb.incompatibleFeatures, ⟨72, sb.uuid⟩,
    numberPiece 4 104 (blocksField sb.xpDescBlocks sb.descIsTree),
    numberPiece 4 108 (blocksField sb.xpDataBlocks sb.dataIsTree),
    numberPiece 8 112 sb.xpDescBase, numberPiece 8 120 sb.xpDataBase,
    numberPiece 8 152 sb.spacemanOid, numberPiece 8 160 sb.omapOid, numberPiece 8 168 sb.reaperOid,
    numberPiece 4 180 slots.length, ⟨184, slots.flatMap (toLeBytes 8)⟩]

/-- The block with the superblock written into it and its checksum. -/
def write (sb : NxSuperblock) (base : Bytes) (storage : UInt16) (slots : List Nat) : Bytes :=
  writeSealed base (sb.pieces storage slots)

variable {sb : NxSuperblock} {base : Bytes} {storage : UInt16} {slots : List Nat}

theorem inOrder_pieces (storage : UInt16) (hlen : nxMinimumBlockSize ≤ base.length)
    (hfits : sb.Fits slots) :
    Piece.InOrder base.length 8 (sb.pieces storage slots) := by
  have htable : (slots.flatMap (toLeBytes 8)).length = slots.length * 8 :=
    length_flatMap_of_length fun oid _ => length_toLeBytes 8 oid
  have hslots := hfits.slots_le
  unfold nxMinimumBlockSize at hlen
  unfold nxMaxFileSystems at hslots
  simp [pieces, Piece.InOrder, htable, hfits.length_uuid]
  omega

theorem length_write (storage : UInt16) (hlen : nxMinimumBlockSize ≤ base.length)
    (hfits : sb.Fits slots) :
    (sb.write base storage slots).length = base.length :=
  (inOrder_pieces storage hlen hfits).length_eq

/-- The flag and the count are told apart again. -/
theorem blocksField_spec {blocks : Nat} (h : blocks < 2 ^ 31) (isTree : Bool) :
    blocksField blocks isTree < 2 ^ 32 ∧
      blocksField blocks isTree &&& (xpBlocksTreeFlag - 1) = blocks ∧
      decide (blocksField blocks isTree &&& xpBlocksTreeFlag ≠ 0) = isTree := by
  have hmask : ∀ n : Nat, n &&& (xpBlocksTreeFlag - 1) = n % 2 ^ 31 :=
    fun n => Nat.and_two_pow_sub_one_eq_mod n 31
  have hflag : ∀ n : Nat, n &&& xpBlocksTreeFlag = (n.testBit 31).toNat * 2 ^ 31 :=
    fun n => Nat.and_two_pow n 31
  rw [hmask, hflag]
  cases isTree with
  | false =>
    have hbit : blocks.testBit 31 = false := Nat.testBit_lt_two_pow h
    simp only [blocksField, Bool.false_eq_true, if_false, hbit]
    exact ⟨by omega, Nat.mod_eq_of_lt h, by decide⟩
  | true =>
    have hbit : (2 ^ 31 + blocks).testBit 31 = true := by
      rw [Nat.testBit_two_pow_add_eq, Nat.testBit_lt_two_pow h]
      rfl
    simp only [blocksField, if_true, show xpBlocksTreeFlag = 2 ^ 31 from rfl, hbit]
    exact ⟨by omega, by omega, by decide⟩

/-- The table of volumes is read slot by slot. -/
theorem map_leU64_slots {block : Bytes} : ∀ {slots : List Nat} {off : Nat} {rest : Bytes},
    (∀ oid ∈ slots, oid < 2 ^ 64) → off ≤ block.length →
    block.drop off = slots.flatMap (toLeBytes 8) ++ rest →
    (List.range slots.length).map (fun i => leU64 block (off + i * 8)) = slots := by
  intro slots
  induction slots with
  | nil => intros; rfl
  | cons oid slots ih =>
    intro off rest hlt hoff hdrop
    rw [List.forall_mem_cons] at hlt
    rw [List.flatMap_cons, List.append_assoc] at hdrop
    have hlen := length_of_drop hoff hdrop
    rw [length_toLeBytes] at hlen
    obtain ⟨hfirst, hnext⟩ := leUInt_step hlt.1 hoff hdrop
    have hrest := ih hlt.2 (by omega) hnext
    rw [List.length_cons, List.range_succ_eq_map, List.map_cons, List.map_map, Nat.zero_mul,
      Nat.add_zero]
    refine List.cons_eq_cons.mpr ⟨hfirst, ?_⟩
    rw [← hrest, List.length_map, List.length_range]
    refine List.map_congr_left fun i _ => ?_
    show leU64 block (off + (i + 1) * 8) = _
    rw [Nat.add_one_mul, Nat.add_comm (i * 8), Nat.add_assoc]

/-- **A written container superblock is parsed back**, and the ring takes it for one. -/
theorem parse_write (hlen : nxMinimumBlockSize ≤ base.length) (hfits : sb.Fits slots) :
    IsNxSuperblock (sb.write base storage slots) ∧
      NxSuperblock.fields (sb.write base storage slots) = sb ∧
      leU32 (sb.write base storage slots) 24 &&& 0xffff = objectTypeNxSuperblock := by
  have hin := inOrder_pieces storage hlen hfits
  have h32 : ∀ off value : Nat, numberPiece 4 off value ∈ sb.pieces storage slots →
      value < 2 ^ 32 → leU32 (sb.write base storage slots) off = value :=
    fun _ _ hp hv => hin.leUInt hp hv
  have h64 : ∀ off value : Nat, numberPiece 8 off value ∈ sb.pieces storage slots →
      value < 2 ^ 64 → leU64 (sb.write base storage slots) off = value :=
    fun _ _ hp hv => hin.leUInt hp hv
  obtain ⟨hdescLt, hdesc, hdescTree⟩ := blocksField_spec hfits.xpDescBlocks_lt sb.descIsTree
  obtain ⟨hdataLt, hdata, hdataTree⟩ := blocksField_spec hfits.xpDataBlocks_lt sb.dataIsTree
  have huuid : arr 16 (sb.write base storage slots) 72 = sb.uuid := by
    rw [← hfits.length_uuid]
    exact hin.arr (by simp [pieces])
  have hcount : leU32 (sb.write base storage slots) 180 = slots.length := by
    exact h32 _ _ (by simp [pieces]) (lt_of_le_of_lt hfits.slots_le (by decide))
  have hslots : (List.range (min slots.length nxMaxFileSystems)).map
      (fun i => leU64 (sb.write base storage slots) (184 + i * 8)) = slots := by
    have hmem : ⟨184, slots.flatMap (toLeBytes 8)⟩ ∈ sb.pieces storage slots := by simp [pieces]
    obtain ⟨rest, hrest⟩ := hin.exists_drop hmem
    rw [Nat.min_eq_left hfits.slots_le]
    exact map_leU64_slots hfits.slot_lt (hin.start_le hmem) hrest
  refine ⟨⟨h32 32 nxMagic (by simp [pieces]) (by decide), hin.verifies⟩, ?_, ?_⟩
  · simp only [fields, hcount, hslots, huuid, ← hfits.fsOids_eq,
      h64 16 _ (by simp [pieces]) hfits.xid_lt,
      h32 36 _ (by simp [pieces]) hfits.blockSize_lt,
      h64 40 _ (by simp [pieces]) hfits.blockCount_lt,
      h64 64 _ (by simp [pieces]) hfits.incompatible_lt,
      h32 104 _ (by simp [pieces]) hdescLt, h32 108 _ (by simp [pieces]) hdataLt,
      h64 112 _ (by simp [pieces]) hfits.xpDescBase_lt,
      h64 120 _ (by simp [pieces]) hfits.xpDataBase_lt,
      h64 152 _ (by simp [pieces]) hfits.spacemanOid_lt,
      h64 160 _ (by simp [pieces]) hfits.omapOid_lt,
      h64 168 _ (by simp [pieces]) hfits.reaperOid_lt, hdesc, hdata, hdescTree, hdataTree]
  · rw [h32 24 (typeField storage objectTypeNxSuperblock) (by simp [pieces])
      (typeField_lt (by decide))]
    exact typeField_and (by decide)

end NxSuperblock

end ApfsForensic
