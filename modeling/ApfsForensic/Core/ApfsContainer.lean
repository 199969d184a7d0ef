import ApfsForensic.Core.Checkpoint
import ApfsForensic.Core.Encode
import ApfsForensic.Core.Omap
import ApfsForensic.Core.Volume

/-!
# Opening a container

`ApfsContainer` of `core/src/lib.rs`.  `open` parses a superblock from the first 4096
bytes, walks the checkpoint ring it describes, and parses the superblock chosen
there once more, as the state it keeps.

* `openContainer_eq_ok_iff`: what an accepted image is.  The kept superblock is the
  newest of the ring.
* `resolve_live_checkpoint_newest`: the ring is resolved to its newest superblock,
  and `open` keeps that one.
* `openContainer_iff_bootstrap_checksum`: block zero is verified over 4096 bytes,
  so a container with larger blocks opens only if the checksum of the whole block
  is the one of its beginning too.
* `live_superblock_iff`: the block size and the Fusion bit that `open` checks are
  those of block zero; they say nothing about the kept superblock.
-/

namespace ApfsForensic

/-- `ApfsContainer`.  The reader is the image. -/
structure ApfsContainer where
  superblock : NxSuperblock
  liveSuperblockPaddr : Nat
  checkpointMappings : List CheckpointMapping
  deriving DecidableEq, Repr

namespace ApfsContainer

/-- The read of block zero: short images have no superblock. -/
def readBlockZero (image : Image) : Result Bytes :=
  match image.readAt 0 nxMinimumBlockSize with
  | .ok block0 => .ok block0
  | .error .unexpectedEof => .error (.err (.noValidSuperblock 0 0))
  | .error kind => .error (.err (.io kind))

/-- `ApfsContainer::open`. -/
def openContainer (image : Image) : Result ApfsContainer := do
  let block0 ← readBlockZero image
  let bootstrap ← NxSuperblock.parse block0
  if isFusion bootstrap then
    throw (.err .unsupportedFusion)
  let live ← resolveLiveCheckpoint image bootstrap
  let buf ← image.readBlock live.superblockPaddr bootstrap.blockSize
  let superblock ← NxSuperblock.parse buf
  return { superblock, liveSuperblockPaddr := live.superblockPaddr
           checkpointMappings := live.mappings }

/-- `resolve_ephemeral`. -/
def resolveEphemeral (container : ApfsContainer) (oid : Nat) : Option Nat :=
  (container.checkpointMappings.find? (fun m => m.oid = oid)).map CheckpointMapping.paddr

/-- `spaceman_paddr`. -/
def spacemanPaddr (container : ApfsContainer) : Option Nat :=
  container.resolveEphemeral container.superblock.spacemanOid

/-- `reaper_paddr`. -/
def reaperPaddr (container : ApfsContainer) : Option Nat :=
  container.resolveEphemeral container.superblock.reaperOid

/-- `volume_superblock_addrs`. -/
def volumeSuperblockAddrs (image : Image) (container : ApfsContainer) : Result (List Nat) := do
  let sb := container.superblock
  if !sb.blockSizeInRange then
    throw (.err (.fieldOutOfRange "nx_superblock" "nx_block_size" sb.blockSize nxMaximumBlockSize))
  let omap ← readObjectMap image sb.omapOid sb.blockSize
  sb.fsOids.mapM (fun fsOid => do
    let entry ← omap.resolve image fsOid sb.xid sb.blockSize
    return entry.paddr)

end ApfsContainer

open ApfsContainer

/-! ### What an accepted image is -/

/-- The superblock that the first 4096 bytes describe. -/
def bootstrapOf (image : Image) : NxSuperblock :=
  .fields (image.bytes.take nxMinimumBlockSize)

theorem readBlockZero_of_le {image : Image} (h : nxMinimumBlockSize ≤ image.bytes.length) :
    readBlockZero image = .ok (image.bytes.take nxMinimumBlockSize) := by
  have hread : image.readAt 0 nxMinimumBlockSize = .ok (image.bytes.take nxMinimumBlockSize) :=
    Image.readAt_eq_ok_iff.mpr ⟨Or.inr (by omega), by rw [List.drop_zero]⟩
  rw [readBlockZero, hread]

theorem length_le_of_readBlockZero {image : Image} {block0 : Bytes}
    (h : readBlockZero image = .ok block0) : nxMinimumBlockSize ≤ image.bytes.length := by
  by_contra hlt
  have hread : image.readAt 0 nxMinimumBlockSize = .error .unexpectedEof :=
    Image.readAt_eq_error_iff.mpr ⟨⟨by decide, by omega⟩, rfl⟩
  rw [readBlockZero, hread] at h
  exact absurd h (by simp)

/-- The block that the ring chose is read and parsed again without fail. -/
theorem reread_newest {image : Image} {boot : NxSuperblock} {xid paddr : Nat}
    (hbs : boot.blockSizeInRange = true) (h : boot.Newest image xid paddr) :
    image.readBlock paddr boot.blockSize = .ok (chunk boot.blockSize image.bytes paddr) ∧
      NxSuperblock.parse (chunk boot.blockSize image.bytes paddr)
        = .ok (.fields (chunk boot.blockSize image.bytes paddr)) := by
  obtain ⟨_, ⟨hin, _, hsb, _⟩, _⟩ := h
  have hsize := (blockSizeInRange_iff.mp hbs).1
  have hlen := image.length_lt
  have hend : (paddr + 1) * boot.blockSize = paddr * boot.blockSize + boot.blockSize :=
    Nat.succ_mul _ _
  have hmul : paddr * boot.blockSize ≤ u64Max := by unfold u64Max; omega
  constructor
  · rw [Image.readBlock, saturatingMul_of_le hmul, Image.readExact_eq_ok_iff]
    exact ⟨Or.inr (by omega), rfl⟩
  · apply parse_of_isNxSuperblock _ hsb
    rw [length_chunk hin]
    exact le_trans (by decide) hsize

theorem xpDescBase_lt_of_parse {block : Bytes} {sb : NxSuperblock}
    (h : NxSuperblock.parse block = .ok sb) : sb.xpDescBase < 2 ^ 64 := by
  simp only [NxSuperblock.parse, throw_eq_error, error_bind, ite_error_eq_ok_iff,
    bind_eq_ok_iff] at h
  obtain ⟨_, _, _, _, h⟩ := h
  cases h
  exact leU64_lt _ _

theorem bootstrapOf_xpDescBase_lt (image : Image) : (bootstrapOf image).xpDescBase < 2 ^ 64 :=
  leU64_lt _ _

/-- **What an accepted image is.**  Block zero passes its gates over 4096 bytes, and
the ring it describes has a live checkpoint; the superblock there is kept. -/
theorem openContainer_eq_ok_iff {image : Image} {container : ApfsContainer} :
    openContainer image = .ok container ↔
      (nxMinimumBlockSize ≤ image.bytes.length ∧
        IsNxSuperblock (image.bytes.take nxMinimumBlockSize) ∧
        isFusion (bootstrapOf image) = false) ∧
      ∃ live, resolveLiveCheckpoint image (bootstrapOf image) = .ok live ∧
        container = {
          superblock := .fields (chunk (bootstrapOf image).blockSize image.bytes
            live.superblockPaddr)
          liveSuperblockPaddr := live.superblockPaddr
          checkpointMappings := live.mappings } := by
  have hblock0 : nxMinimumBlockSize ≤ image.bytes.length →
      36 ≤ (image.bytes.take nxMinimumBlockSize).length := by
    intro hlen
    rw [List.length_take]
    unfold nxMinimumBlockSize at *
    omega
  have hreread : ∀ {live : LiveCheckpoint},
      resolveLiveCheckpoint image (bootstrapOf image) = .ok live → _ :=
    fun hlive =>
      have h := newest_of_resolve (bootstrapOf_xpDescBase_lt image) hlive
      reread_newest h.1.2.1 h.2
  constructor
  · intro h
    rw [openContainer, bind_eq_ok_iff] at h
    obtain ⟨block0, h0, h⟩ := h
    have hlen := length_le_of_readBlockZero h0
    rw [readBlockZero_of_le hlen, Except.ok.injEq] at h0
    subst h0
    rw [bind_eq_ok_iff] at h
    obtain ⟨boot, hparse, h⟩ := h
    obtain ⟨hsb, rfl⟩ := (NxSuperblock.parse_eq_ok_iff (hblock0 hlen)).mp hparse
    by_cases hf : isFusion (bootstrapOf image) = true
    · rw [bootstrapOf] at hf
      rw [if_pos hf] at h
      exact absurd h (by simp)
    · refine ⟨⟨hlen, hsb, by simpa using hf⟩, ?_⟩
      rw [bootstrapOf] at hf
      rw [if_neg hf] at h
      simp only at h
      rw [bind_eq_ok_iff] at h
      obtain ⟨live, hlive, h⟩ := h
      obtain ⟨hread, hagain⟩ := hreread hlive
      rw [bootstrapOf] at hread hagain
      rw [hread, ok_bind, hagain, ok_bind] at h
      exact ⟨live, hlive, (Except.ok.inj h).symm⟩
  · rintro ⟨⟨hlen, hsb, hf⟩, live, hlive, rfl⟩
    obtain ⟨hread, hagain⟩ := hreread hlive
    rw [openContainer, readBlockZero_of_le hlen, ok_bind,
      parse_of_isNxSuperblock (hblock0 hlen) hsb, ok_bind]
    show (if isFusion (bootstrapOf image) = true then _ else _) = _
    rw [if_neg (by simp [hf])]
    show (resolveLiveCheckpoint image (bootstrapOf image) >>= _) = _
    rw [hlive, ok_bind]
    show (image.readBlock live.superblockPaddr (bootstrapOf image).blockSize >>= _) = _
    rw [hread, ok_bind, hagain]
    rfl

/-! ### Containers of two blocks

Block zero, and a ring of one block whose superblock declares a block size and
features of its own. -/

def pairSuperblock (xid declared features : Nat) : NxSuperblock :=
  { xid, uuid := List.replicate 16 0, blockSize := declared, blockCount := 0
    incompatibleFeatures := features, xpDescBase := 1, xpDescBlocks := 1, xpDataBase := 0
    xpDataBlocks := 0, omapOid := 0, spacemanOid := 0, reaperOid := 0, fsOids := []
    descIsTree := false, dataIsTree := false }

def pairBytes (blockSize declared features : Nat) : Bytes :=
  nxBlock blockSize 1 blockSize 0 1 1 ++ nxBlock blockSize 2 declared features 1 1

def pairImage (blockSize declared features : Nat) (h : 120 ≤ blockSize ∧ blockSize ≤ 65536) :
    Image where
  bytes := pairBytes blockSize declared features
  length_lt := by
    rw [pairBytes, List.length_append, length_nxBlock h.1, length_nxBlock h.1]
    omega

section Pair

variable {blockSize declared features : Nat} (h : 120 ≤ blockSize ∧ blockSize ≤ 65536)

theorem length_pairImage :
    (pairImage blockSize declared features h).bytes.length = blockSize + blockSize := by
  show (nxBlock _ _ _ _ _ _ ++ nxBlock _ _ _ _ _ _).length = _
  rw [List.length_append, length_nxBlock h.1, length_nxBlock h.1]

theorem take_pairImage : (pairImage blockSize declared features h).bytes.take blockSize
    = nxBlock blockSize 1 blockSize 0 1 1 := by
  exact List.take_left' (length_nxBlock h.1 _ _ _ _ _)

theorem chunk_pairImage : chunk blockSize (pairImage blockSize declared features h).bytes 1
    = nxBlock blockSize 2 declared features 1 1 := by
  have hlen := length_nxBlock h.1 2 declared features 1 1
  show chunk blockSize (nxBlock _ _ _ _ _ _ ++ nxBlock _ _ _ _ _ _) (0 + 1) = _
  rw [chunk_succ_append (length_nxBlock h.1 _ _ _ _ _), chunk, Nat.zero_mul, List.drop_zero,
    List.take_of_length_le (le_of_eq hlen)]

/-- What the two blocks say, once they are laid out. -/
def PairHeaders (blockSize declared features : Nat) : Prop :=
  (NxSuperblock.fields (nxBlock blockSize 1 blockSize 0 1 1)
      = pairSuperblock 1 blockSize 0 ∧
    leU32 (nxBlock blockSize 1 blockSize 0 1 1) 24 &&& 0xffff = objectTypeNxSuperblock ∧
    leU32 (nxBlock blockSize 1 blockSize 0 1 1) 32 = nxMagic) ∧
  NxSuperblock.fields (nxBlock blockSize 2 declared features 1 1)
      = pairSuperblock 2 declared features ∧
    leU32 (nxBlock blockSize 2 declared features 1 1) 24 &&& 0xffff = objectTypeNxSuperblock ∧
    leU32 (nxBlock blockSize 2 declared features 1 1) 32 = nxMagic

instance : Decidable (PairHeaders blockSize declared features) :=
  inferInstanceAs (Decidable (_ ∧ _))

theorem bootstrapOf_pairImage (hh : PairHeaders blockSize declared features)
    (hsize : nxMinimumBlockSize ≤ blockSize) :
    bootstrapOf (pairImage blockSize declared features h)
      = pairSuperblock 1 blockSize 0 := by
  rw [← hh.1.1, ← take_pairImage h, bootstrapOf, NxSuperblock.fields_take le_rfl,
    NxSuperblock.fields_take hsize]

theorem ringSuperblock_pairImage (hh : PairHeaders blockSize declared features) :
    RingSuperblock (pairImage blockSize declared features h) blockSize 1 2 := by
  obtain ⟨_, hfields, htype, hmagic⟩ := hh
  refine ⟨by rw [length_pairImage]; omega, ?_, ?_, ?_⟩
  · rw [chunk_pairImage, htype]
  · rw [chunk_pairImage]
    exact ⟨hmagic, sealBlock_verifies _⟩
  · rw [chunk_pairImage, ← NxSuperblock.fields_xid, hfields]
    rfl

end Pair

/-! ### The live superblock -/

/-- **The ring is resolved to its newest superblock.**  For a contiguous ring of `u64`
addresses there is a live checkpoint exactly if some block of the ring is a
superblock inside the image.  It is the highest xid at its lowest address; without
one the error is `NoValidSuperblock`.  An opened container has that xid. -/
theorem resolve_live_checkpoint_newest (image : Image) (boot : NxSuperblock)
    (htree : boot.descIsTree = false)
    (hbs : nxMinimumBlockSize ≤ boot.blockSize ∧ boot.blockSize ≤ nxMaximumBlockSize)
    (hring : boot.xpDescBase + boot.xpDescBlocks ≤ 2 ^ 64) :
    ((∃ live, resolveLiveCheckpoint image boot = .ok live) ↔
      ∃ paddr xid, (boot.xpDescBase ≤ paddr ∧ paddr < boot.xpDescBase + boot.xpDescBlocks) ∧
        RingSuperblock image boot.blockSize paddr xid) ∧
    (∀ live, resolveLiveCheckpoint image boot = .ok live →
      boot.Newest image live.xid live.superblockPaddr) ∧
    (∀ f, resolveLiveCheckpoint image boot = .error f →
      ∃ checked lastMagic, f = .err (.noValidSuperblock checked lastMagic)) ∧
    (∀ container, openContainer image = .ok container → boot = bootstrapOf image →
      boot.Newest image container.superblock.xid container.liveSuperblockPaddr) := by
  have hcases := resolveLiveCheckpoint_cases image htree
    (blockSizeInRange_iff.mpr hbs) hring
  refine ⟨⟨?_, ?_⟩, ?_, ?_, ?_⟩
  · rintro ⟨live, hlive⟩
    rcases hcases with ⟨live', _, hin, hsb, _⟩ | ⟨⟨_, _, herr⟩, _⟩
    · exact ⟨live'.superblockPaddr, live'.xid, hin, hsb⟩
    · rw [herr] at hlive
      exact absurd hlive (by simp)
  · rintro ⟨paddr, xid, hin, hsb⟩
    rcases hcases with ⟨live, hlive, _⟩ | ⟨_, hno⟩
    · exact ⟨live, hlive⟩
    · exact absurd hsb (hno paddr xid hin.1 hin.2)
  · intro live hlive
    rcases hcases with ⟨live', hlive', hnewest⟩ | ⟨⟨_, _, herr⟩, _⟩
    · rw [hlive', Except.ok.injEq] at hlive
      rwa [← hlive]
    · rw [herr] at hlive
      exact absurd hlive (by simp)
  · intro f hf
    rcases hcases with ⟨live, hlive, _⟩ | ⟨⟨checked, lastMagic, herr⟩, _⟩
    · rw [hlive] at hf
      exact absurd hf (by simp)
    · rw [herr, Except.error.injEq] at hf
      exact ⟨checked, lastMagic, hf.symm⟩
  · rintro container hopen rfl
    obtain ⟨_, live, hlive, rfl⟩ := openContainer_eq_ok_iff.mp hopen
    obtain ⟨_, hnewest⟩ := newest_of_resolve (bootstrapOf_xpDescBase_lt image) hlive
    -- the block was chosen by the xid that it is parsed to
    have hxid : leU64 (chunk (bootstrapOf image).blockSize image.bytes live.superblockPaddr) 16
        = live.xid := hnewest.2.1.2.2.2
    show (bootstrapOf image).Newest image (leU64 _ 16) live.superblockPaddr
    rw [hxid]
    exact hnewest

def plainPair : Image := pairImage 4096 4096 0 (by decide)

theorem pairHeaders_plain : PairHeaders 4096 4096 0 := by
  decide +kernel

/-- A newer superblock of which only the first half was written. -/
def tornBlock : Bytes := (nxBlock 4096 9 4096 0 1 5).take 2048 ++ List.replicate 2048 0xaa

/-- A ring of five blocks: the torn superblock, an old one, the live one, a block of something
else, and one past the end of the image. -/
def mixedRingBlocks : List Bytes :=
  [nxBlock 4096 1 4096 0 1 5, tornBlock, nxBlock 4096 3 4096 0 1 5, nxBlock 4096 7 4096 0 1 5,
    padTo 4096 [65, 66, 67]]

def mixedRing : Image := .ofBlocks mixedRingBlocks

def MixedRingHeaders : Prop :=
  NxSuperblock.fields (nxBlock 4096 1 4096 0 1 5)
      = { pairSuperblock 1 4096 0 with xpDescBlocks := 5 } ∧
    (tornBlock.length = 4096 ∧ fletcher64Stored tornBlock ≠ fletcher64Checksum tornBlock) ∧
    leU64 (nxBlock 4096 3 4096 0 1 5) 16 = 3 ∧
    (leU32 (nxBlock 4096 7 4096 0 1 5) 24 &&& 0xffff = objectTypeNxSuperblock ∧
      leU32 (nxBlock 4096 7 4096 0 1 5) 32 = nxMagic ∧ leU64 (nxBlock 4096 7 4096 0 1 5) 16 = 7) ∧
    (padTo 4096 [65, 66, 67]).length = 4096 ∧
      leU32 (padTo 4096 [65, 66, 67]) 24 &&& 0xffff ≠ objectTypeNxSuperblock

instance : Decidable MixedRingHeaders := inferInstanceAs (Decidable (_ ∧ _))

theorem mixedRingHeaders : MixedRingHeaders := by decide +kernel

theorem hasBlocks_mixedRing : mixedRing.HasBlocks 4096 mixedRingBlocks := by
  refine Image.hasBlocks_ofBlocks (fun b hb => ?_) (by decide)
  obtain ⟨_, ⟨htorn, _⟩, _, _, hforeign, _⟩ := mixedRingHeaders
  simp only [mixedRingBlocks, List.mem_cons, List.not_mem_nil, or_false] at hb
  rcases hb with rfl | rfl | rfl | rfl | rfl
  · exact length_nxBlock (by decide) ..
  · exact htorn
  · exact length_nxBlock (by decide) ..
  · exact length_nxBlock (by decide) ..
  · exact hforeign

theorem bootstrapOf_mixedRing :
    bootstrapOf mixedRing = { pairSuperblock 1 4096 0 with xpDescBlocks := 5 } := by
  have hzero : mixedRing.bytes.take 4096 = nxBlock 4096 1 4096 0 1 5 := by
    have h := hasBlocks_mixedRing.chunk_eq (i := 0) rfl
    rwa [chunk, Nat.zero_mul, List.drop_zero] at h
  rw [← mixedRingHeaders.1, ← hzero]
  rfl

theorem resolve_mixedRing : ∃ live,
    resolveLiveCheckpoint mixedRing (bootstrapOf mixedRing) = .ok live ∧ live.xid = 7 ∧
      live.superblockPaddr = 3 := by
  obtain ⟨_, ⟨_, htorn⟩, hold, ⟨htype, hmagic, hxid⟩, _, hforeign⟩ := mixedRingHeaders
  have hchunk : ∀ {i : Nat} {b : Bytes}, mixedRingBlocks[i]? = some b →
      chunk 4096 mixedRing.bytes i = b := hasBlocks_mixedRing.chunk_eq
  have hseven : RingSuperblock mixedRing 4096 3 7 := by
    have hend := hasBlocks_mixedRing.end_le (i := 3) rfl
    refine ⟨by omega, ?_⟩
    rw [hchunk rfl]
    exact ⟨htype, ⟨hmagic, sealBlock_verifies _⟩, hxid⟩
  rw [bootstrapOf_mixedRing]
  obtain ⟨hiff, hnewest, _, _⟩ := resolve_live_checkpoint_newest mixedRing
    { pairSuperblock 1 4096 0 with xpDescBlocks := 5 } rfl (by decide) (by decide)
  obtain ⟨live, hlive⟩ := hiff.mpr ⟨3, 7, by decide, hseven⟩
  obtain ⟨⟨hlo, hhi⟩, ⟨hin, htype', hsb, hxid'⟩, hmax⟩ := hnewest live hlive
  have hge : 7 ≤ live.xid := (hmax 3 7 (by decide) (by decide) hseven).1
  refine ⟨live, hlive, ?_⟩
  change 1 ≤ live.superblockPaddr at hlo
  change live.superblockPaddr < 1 + 5 at hhi
  change (live.superblockPaddr + 1) * 4096 ≤ mixedRing.bytes.length at hin
  change leU32 (chunk 4096 mixedRing.bytes live.superblockPaddr) 24 &&& 0xffff = _ at htype'
  change IsNxSuperblock (chunk 4096 mixedRing.bytes live.superblockPaddr) at hsb
  change leU64 (chunk 4096 mixedRing.bytes live.superblockPaddr) 16 = live.xid at hxid'
  have hcases : live.superblockPaddr = 1 ∨ live.superblockPaddr = 2 ∨ live.superblockPaddr = 3 ∨
      live.superblockPaddr = 4 ∨ live.superblockPaddr = 5 := by omega
  rcases hcases with hp | hp | hp | hp | hp <;> rw [hp] at hin htype' hsb hxid'
  · rw [hchunk (i := 1) rfl] at hsb
    exact absurd hsb.2 htorn
  · rw [hchunk (i := 2) rfl, hold] at hxid'
    omega
  · rw [hchunk (i := 3) rfl, hxid] at hxid'
    exact ⟨hxid'.symm, hp⟩
  · rw [hchunk (i := 4) rfl] at htype'
    exact absurd htype' hforeign
  · rw [hasBlocks_mixedRing.length_bytes] at hin
    exact absurd hin (by decide)

/-! ### The sums of the ring -/

/-- **When the ring is walked without an overflow.**  The address of a ring block is
`desc_base + i`, unchecked.  The walk returns, with a checkpoint or an error, exactly if the
area that a valid bootstrap describes ends at the last `u64` address or before. -/
theorem resolve_live_checkpoint_returns_iff (image : Image) {block : Bytes} {boot : NxSuperblock}
    (hparse : NxSuperblock.parse block = .ok boot) (hcontiguous : boot.descIsTree = false)
    (hbs : nxMinimumBlockSize ≤ boot.blockSize ∧ boot.blockSize ≤ nxMaximumBlockSize) :
    ((∃ live, resolveLiveCheckpoint image boot = .ok live) ∨
      ∃ e, resolveLiveCheckpoint image boot = .error (.err e)) ↔
    boot.xpDescBase + boot.xpDescBlocks ≤ 2 ^ 64 := by
  have hbase : boot.xpDescBase < 2 ^ 64 := xpDescBase_lt_of_parse hparse
  have hrange := blockSizeInRange_iff.mpr hbs
  constructor
  · intro h
    by_contra hover
    have hpanic := resolveLiveCheckpoint_eq_panic image hcontiguous hrange hbase (by omega)
    rcases h with ⟨live, h⟩ | ⟨e, h⟩ <;> rw [hpanic] at h <;> cases h
  · intro hring
    rcases resolveLiveCheckpoint_cases image hcontiguous hrange hring with
      ⟨live, hlive, _⟩ | ⟨⟨checked, lastMagic, herr⟩, _⟩
    · exact Or.inl ⟨live, hlive⟩
    · exact Or.inr ⟨_, herr⟩

theorem resolve_returns_plainPair :
    (∃ live, resolveLiveCheckpoint plainPair (pairSuperblock 1 4096 0) = .ok live) ∨
      ∃ e, resolveLiveCheckpoint plainPair (pairSuperblock 1 4096 0) = .error (.err e) := by
  have hparse : NxSuperblock.parse (nxBlock 4096 1 4096 0 1 1) = .ok (pairSuperblock 1 4096 0) := by
    rw [← pairHeaders_plain.1.1]
    apply parse_of_isNxSuperblock
    · rw [length_nxBlock (by decide)]
      decide
    · exact ⟨pairHeaders_plain.1.2.2, sealBlock_verifies _⟩
  exact (resolve_live_checkpoint_returns_iff plainPair hparse rfl (by decide)).mpr (by decide)

/-- A valid block zero with a ring of two blocks from the last `u64` address on. -/
def overflowBlock : Bytes := nxBlock 4096 1 4096 0 (2 ^ 64 - 1) 2

def overflowImage : Image where
  bytes := overflowBlock
  length_lt := by
    rw [overflowBlock, length_nxBlock (by decide)]
    decide

/-- The ring of two blocks, and what lets block zero through. -/
def OverflowHeaders (block : Bytes) : Prop :=
  leU32 block 32 = nxMagic ∧ isFusion (.fields block) = false ∧
    (NxSuperblock.fields block).descIsTree = false ∧
    (NxSuperblock.fields block).blockSizeInRange = true ∧
    (NxSuperblock.fields block).xpDescBase = 2 ^ 64 - 1 ∧
    (NxSuperblock.fields block).xpDescBlocks = 2

instance (block : Bytes) : Decidable (OverflowHeaders block) := inferInstanceAs (Decidable (_ ∧ _))

/-- The sum for the second block overflows: `open` does not return. -/
theorem open_overflowImage :
    (∃ boot, NxSuperblock.parse overflowBlock = .ok boot ∧ boot.descIsTree = false ∧
      (nxMinimumBlockSize ≤ boot.blockSize ∧ boot.blockSize ≤ nxMaximumBlockSize) ∧
      resolveLiveCheckpoint overflowImage boot = .error .panic) ∧
    openContainer overflowImage = .error .panic := by
  have hheaders : OverflowHeaders overflowBlock := by decide +kernel
  obtain ⟨hmagic, hfusion, htree, hrange, hbase, hblocks⟩ := hheaders
  have hlen : overflowBlock.length = 4096 := length_nxBlock (by decide) _ _ _ _ _
  have hparse : NxSuperblock.parse overflowBlock = .ok (.fields overflowBlock) :=
    parse_of_isNxSuperblock (by rw [hlen]; decide) ⟨hmagic, sealBlock_verifies _⟩
  have hpanic : resolveLiveCheckpoint overflowImage (.fields overflowBlock) = .error .panic :=
    resolveLiveCheckpoint_eq_panic overflowImage htree hrange
      (xpDescBase_lt_of_parse hparse) (by rw [hbase, hblocks]; decide)
  refine ⟨⟨_, hparse, htree, blockSizeInRange_iff.mp hrange, hpanic⟩, ?_⟩
  have hzero : readBlockZero overflowImage = .ok overflowBlock := by
    have hle : nxMinimumBlockSize ≤ overflowImage.bytes.length := hlen.ge
    rw [readBlockZero_of_le hle]
    exact congrArg Except.ok (List.take_of_length_le hlen.le)
  rw [openContainer, hzero, ok_bind, hparse, ok_bind, if_neg (by rw [hfusion]; decide)]
  simp only [hpanic, error_bind]

/-! ### Block zero and the block size -/

/-- A container of block size `B`: block zero is a superblock over its `B` bytes that
declares `B` and no Fusion, and its contiguous descriptor area, inside the image,
has a superblock that declares `B`. -/
structure LegalContainer (image : Image) (B : Nat) : Prop where
  power : ∃ k, B = 2 ^ k
  size : nxMinimumBlockSize ≤ B ∧ B ≤ nxMaximumBlockSize
  inside : B ≤ image.bytes.length
  objType : leU32 (image.bytes.take B) 24 &&& 0xffff = objectTypeNxSuperblock
  superblock : IsNxSuperblock (image.bytes.take B)
  declares : (NxSuperblock.fields (image.bytes.take B)).blockSize = B
  not_fusion : isFusion (.fields (image.bytes.take B)) = false
  contiguous : (NxSuperblock.fields (image.bytes.take B)).descIsTree = false
  ring_inside : ((NxSuperblock.fields (image.bytes.take B)).xpDescBase
    + (NxSuperblock.fields (image.bytes.take B)).xpDescBlocks) * B ≤ image.bytes.length
  ring : ∃ paddr xid, ((NxSuperblock.fields (image.bytes.take B)).xpDescBase ≤ paddr ∧
      paddr < (NxSuperblock.fields (image.bytes.take B)).xpDescBase
        + (NxSuperblock.fields (image.bytes.take B)).xpDescBlocks) ∧
    RingSuperblock image B paddr xid ∧
    (NxSuperblock.fields (chunk B image.bytes paddr)).blockSize = B

/-- **Block zero is verified over 4096 bytes.**  A legal container opens exactly if
the checksum it stores is that of its first 4096 bytes as well. -/
theorem openContainer_iff_bootstrap_checksum {image : Image} {B : Nat}
    (h : LegalContainer image B) :
    (∃ container, openContainer image = .ok container) ↔
      fletcher64Stored (image.bytes.take nxMinimumBlockSize)
        = fletcher64Checksum (image.bytes.take nxMinimumBlockSize) := by
  have hboot : NxSuperblock.fields (image.bytes.take B) = bootstrapOf image := by
    rw [bootstrapOf, NxSuperblock.fields_take h.size.1, NxSuperblock.fields_take le_rfl]
  have hdeclares := h.declares
  have hfusion := h.not_fusion
  have htree := h.contiguous
  have hinside := h.ring_inside
  have hring := h.ring
  rw [hboot] at hdeclares hfusion htree hinside hring
  constructor
  · rintro ⟨container, hopen⟩
    exact (openContainer_eq_ok_iff.mp hopen).1.2.1.2
  · intro hsum
    have hmagic : leU32 (image.bytes.take nxMinimumBlockSize) 32 = nxMagic := by
      have hB := h.superblock.1
      have hsize := h.size.1
      unfold nxMinimumBlockSize at *
      rw [leU32, leUInt_take (by omega)] at hB ⊢
      exact hB
    have hrange : (bootstrapOf image).blockSizeInRange = true := by
      rw [blockSizeInRange_iff, hdeclares]
      exact h.size
    have haddr : (bootstrapOf image).xpDescBase + (bootstrapOf image).xpDescBlocks ≤ 2 ^ 64 := by
      have hpos : 0 < B := lt_of_lt_of_le (by decide) h.size.1
      have hle := Nat.le_mul_of_pos_right
        ((bootstrapOf image).xpDescBase + (bootstrapOf image).xpDescBlocks) hpos
      have := image.length_lt
      omega
    rcases resolveLiveCheckpoint_cases image htree hrange haddr with ⟨live, hlive, _⟩ | ⟨_, hno⟩
    · exact ⟨_, openContainer_eq_ok_iff.mpr
        ⟨⟨le_trans h.size.1 h.inside, ⟨hmagic, hsum⟩, hfusion⟩, live, hlive, rfl⟩⟩
    · obtain ⟨paddr, xid, hin, hsb, _⟩ := hring
      rw [← hdeclares] at hsb
      exact absurd hsb (hno paddr xid hin.1 hin.2)

/-- Two superblocks that declare their size are a legal container. -/
theorem legalContainer_of_blocks {image : Image} {B : Nat} {zero live : Bytes}
    (hblocks : image.HasBlocks B [zero, live])
    (hzero : NxSuperblock.fields zero = pairSuperblock 1 B 0 ∧
      leU32 zero 24 &&& 0xffff = objectTypeNxSuperblock ∧ IsNxSuperblock zero)
    (hlive : NxSuperblock.fields live = pairSuperblock 2 B 0 ∧
      leU32 live 24 &&& 0xffff = objectTypeNxSuperblock ∧ IsNxSuperblock live)
    (hpower : ∃ k, B = 2 ^ k) (hsize : nxMinimumBlockSize ≤ B ∧ B ≤ nxMaximumBlockSize) :
    LegalContainer image B := by
  have hlen : image.bytes.length = 2 * B := hblocks.length_bytes
  have hchunk : chunk B image.bytes 1 = live := hblocks.chunk_eq (i := 1) rfl
  have htake : image.bytes.take B = zero := by
    have h := hblocks.chunk_eq (i := 0) rfl
    rwa [chunk, Nat.zero_mul, List.drop_zero] at h
  refine ⟨hpower, hsize, by omega, ?_, ?_, ?_, ?_, ?_, ?_, 1, 2, ?_, ⟨by omega, ?_⟩, ?_⟩
  · rw [htake, hzero.2.1]
  · rw [htake]
    exact hzero.2.2
  · rw [htake, hzero.1]
    rfl
  · rw [htake, hzero.1]
    simp [isFusion, pairSuperblock]
  · rw [htake, hzero.1]
    rfl
  · rw [htake, hzero.1, hlen]
    exact le_rfl
  · rw [htake, hzero.1]
    exact ⟨le_rfl, Nat.lt_succ_self 1⟩
  · rw [hchunk]
    refine ⟨hlive.2.1, hlive.2.2, ?_⟩
    rw [← NxSuperblock.fields_xid, hlive.1]
    rfl
  · rw [hchunk, hlive.1]
    rfl

/-- A superblock of 8192 bytes whose words add up to zero: its second half is empty, and the
Fletcher-64 of the whole is that of the first half. -/
def balancedBlock : Bytes :=
  sealBlock (padTo 8184 (padTo 992 (nxFields 1 8192 0 1 1) ++ toLeBytes 4 0x3dac87ac))

def balancedPair : Image := .ofBlocks [balancedBlock, nxBlock 8192 2 8192 0 1 1]

def BalancedHeaders : Prop :=
  (NxSuperblock.fields balancedBlock = pairSuperblock 1 8192 0 ∧
    leU32 balancedBlock 24 &&& 0xffff = objectTypeNxSuperblock ∧
    leU32 balancedBlock 32 = nxMagic) ∧
  balancedBlock.length = 8192 ∧
  fletcher64Stored (balancedBlock.take 4096) = fletcher64Checksum (balancedBlock.take 4096)

instance : Decidable BalancedHeaders := inferInstanceAs (Decidable (_ ∧ _))

theorem balancedHeaders : BalancedHeaders := by decide +kernel

theorem pairHeaders_wide : PairHeaders 8192 8192 0 := by decide +kernel

theorem openContainer_balancedPair :
    ∃ container, openContainer balancedPair = .ok container := by
  obtain ⟨⟨hfields, htype, hmagic⟩, hlen, hsum⟩ := balancedHeaders
  obtain ⟨hfields', htype', hmagic'⟩ := pairHeaders_wide.2
  have hblocks : balancedPair.HasBlocks 8192 [balancedBlock, nxBlock 8192 2 8192 0 1 1] := by
    refine Image.hasBlocks_ofBlocks (fun b hb => ?_) (by decide)
    simp only [List.mem_cons, List.not_mem_nil, or_false] at hb
    rcases hb with rfl | rfl
    · exact hlen
    · exact length_nxBlock (by decide) ..
  have hlegal : LegalContainer balancedPair 8192 :=
    legalContainer_of_blocks hblocks ⟨hfields, htype, hmagic, sealBlock_verifies _⟩
      ⟨hfields', htype', hmagic', sealBlock_verifies _⟩ ⟨13, rfl⟩ (by decide)
  refine (openContainer_iff_bootstrap_checksum hlegal).mpr ?_
  have htake : balancedPair.bytes.take nxMinimumBlockSize = balancedBlock.take 4096 := by
    have h := hblocks.chunk_eq (i := 0) rfl
    rw [chunk, Nat.zero_mul, List.drop_zero] at h
    rw [← h, List.take_take]
    rfl
  rw [htake, hsum]

/-- With blocks of 8192 bytes the same container is refused. -/
def widePair : Image := pairImage 8192 8192 0 (by decide)

theorem hasBlocks_widePair : widePair.HasBlocks 8192
    [nxBlock 8192 1 8192 0 1 1, nxBlock 8192 2 8192 0 1 1] where
  bytes_eq := by
    rw [List.flatten_cons, List.flatten_singleton]
    rfl
  length_eq b hb := by
    simp only [List.mem_cons, List.not_mem_nil, or_false] at hb
    rcases hb with rfl | rfl <;> exact length_nxBlock (by decide) ..

theorem openContainer_widePair :
    LegalContainer widePair 8192 ∧ ¬ ∃ container, openContainer widePair = .ok container := by
  obtain ⟨⟨hfields, htype, hmagic⟩, hfields', htype', hmagic'⟩ := pairHeaders_wide
  refine ⟨legalContainer_of_blocks hasBlocks_widePair
    ⟨hfields, htype, hmagic, sealBlock_verifies _⟩
    ⟨hfields', htype', hmagic', sealBlock_verifies _⟩ ⟨13, rfl⟩ (by decide), ?_⟩
  rintro ⟨container, hopen⟩
  have hsum := (openContainer_eq_ok_iff.mp hopen).1.2.1.2
  exact absurd hsum (by decide +kernel)

/-! ### The kept superblock -/

/-- **What `open` checks is block zero.**  The kept superblock has the block size the
ring was read with, in range, and no Fusion bit, exactly if the newest superblock
of the ring says so itself. -/
theorem live_superblock_iff {image : Image} {container : ApfsContainer}
    (h : openContainer image = .ok container) :
    (container.superblock.blockSizeInRange = true ∧
      container.superblock.blockSize = (bootstrapOf image).blockSize ∧
      isFusion container.superblock = false) ↔
    ∀ xid paddr, (bootstrapOf image).Newest image xid paddr →
      leU32 (chunk (bootstrapOf image).blockSize image.bytes paddr) 36 = leU32 image.bytes 36 ∧
        leU64 (chunk (bootstrapOf image).blockSize image.bytes paddr) 64 &&& nxIncompatFusion
          = 0 := by
  obtain ⟨_, live, hlive, rfl⟩ := openContainer_eq_ok_iff.mp h
  obtain ⟨⟨_, hrange, _⟩, hnewest⟩ := newest_of_resolve (bootstrapOf_xpDescBase_lt image) hlive
  have hsize : (bootstrapOf image).blockSize = leU32 image.bytes 36 :=
    leUInt_take (by decide)
  have hfusion : ∀ block : Bytes, isFusion (.fields block) = false ↔
      leU64 block 64 &&& nxIncompatFusion = 0 := by
    intro block
    simp [isFusion, NxSuperblock.fields]
  constructor
  · rintro ⟨_, hsame, hnof⟩ xid paddr hnew
    obtain ⟨_, rfl⟩ := hnew.unique hnewest
    exact ⟨hsame.trans hsize, (hfusion _).mp hnof⟩
  · intro hall
    obtain ⟨hsame, hnof⟩ := hall live.xid live.superblockPaddr hnewest
    have hkept : (NxSuperblock.fields (chunk (bootstrapOf image).blockSize image.bytes
        live.superblockPaddr)).blockSize = (bootstrapOf image).blockSize := hsame.trans hsize.symm
    refine ⟨?_, hkept, (hfusion _).mpr hnof⟩
    rw [blockSizeInRange_iff, hkept]
    exact blockSizeInRange_iff.mp hrange

/-- The newest superblock of a ring of one block. -/
theorem newest_pairImage {blockSize declared features : Nat}
    (h : 120 ≤ blockSize ∧ blockSize ≤ 65536) (hh : PairHeaders blockSize declared features)
    (hsize : nxMinimumBlockSize ≤ blockSize) {xid paddr : Nat}
    (hnew : (bootstrapOf (pairImage blockSize declared features h)).Newest
      (pairImage blockSize declared features h) xid paddr) : paddr = 1 := by
  rw [bootstrapOf_pairImage h hh hsize] at hnew
  have hlo : 1 ≤ paddr := hnew.1.1
  have hhi : paddr < 1 + 1 := hnew.1.2
  omega

/-- A ring of one block: `open` keeps the superblock that it is, and no mappings. -/
theorem openContainer_of_ring {image : Image} {boot : NxSuperblock} {paddr xid : Nat}
    (hboot : bootstrapOf image = boot)
    (hblock0 : nxMinimumBlockSize ≤ image.bytes.length ∧
      IsNxSuperblock (image.bytes.take nxMinimumBlockSize) ∧ isFusion boot = false)
    (hring : boot.descIsTree = false ∧ boot.xpDescBase = paddr ∧ boot.xpDescBlocks = 1)
    (hbs : boot.blockSizeInRange = true) (hpaddr : paddr < 2 ^ 64)
    (hsb : RingSuperblock image boot.blockSize paddr xid) :
    ∃ container, openContainer image = .ok container ∧
      container.superblock = .fields (chunk boot.blockSize image.bytes paddr) ∧
      container.checkpointMappings = [] := by
  subst hboot
  obtain ⟨htree, hbase, hblocks⟩ := hring
  rcases resolveLiveCheckpoint_cases image htree hbs (by omega) with ⟨live, hlive, hnew⟩ | ⟨_, hno⟩
  · refine ⟨_, openContainer_eq_ok_iff.mpr ⟨hblock0, live, hlive, rfl⟩, ?_, ?_⟩
    · have hlo := hnew.1.1
      have hhi := hnew.1.2
      have hlast : live.superblockPaddr = paddr := by omega
      rw [hlast]
    · have hpos : 0 < (bootstrapOf image).blockSize :=
        lt_of_lt_of_le (by decide) (blockSizeInRange_iff.mp hbs).1
      have hmappings := mappings_of_resolve hlive
      rw [hbase, hblocks, forEachRingBlock_eq image hpos (by omega), List.range_one,
        List.foldl_cons, List.foldl_nil, Nat.add_zero, Image.blockInside, if_pos hsb.1,
        Option.elim_some, collectMappings_superblock hsb, Except.ok.injEq] at hmappings
      exact hmappings.symm
  · exact absurd hsb (hno paddr xid (by omega) (by omega))

theorem openContainer_pairImage {declared features : Nat} (h : 120 ≤ 4096 ∧ 4096 ≤ 65536)
    (hh : PairHeaders 4096 declared features) :
    ∃ container, openContainer (pairImage 4096 declared features h) = .ok container ∧
      container.superblock
        = pairSuperblock 2 declared features := by
  have hblock0 : IsNxSuperblock ((pairImage 4096 declared features h).bytes.take 4096) := by
    rw [take_pairImage]
    exact ⟨hh.1.2.2, sealBlock_verifies _⟩
  obtain ⟨container, hopen, hkept, _⟩ := openContainer_of_ring (bootstrapOf_pairImage h hh le_rfl)
    ⟨by rw [length_pairImage]; decide, hblock0, rfl⟩ ⟨rfl, rfl, rfl⟩ rfl (by decide)
    (ringSuperblock_pairImage h hh)
  refine ⟨container, hopen, hkept.trans ?_⟩
  show NxSuperblock.fields (chunk 4096 (pairImage 4096 declared features h).bytes 1) = _
  rw [chunk_pairImage, hh.2.1]

theorem live_superblock_plainPair : ∃ container, openContainer plainPair = .ok container ∧
    container.superblock.blockSizeInRange = true ∧
    container.superblock.blockSize = (bootstrapOf plainPair).blockSize ∧
    isFusion container.superblock = false := by
  obtain ⟨container, hopen, _⟩ := openContainer_pairImage (by decide) pairHeaders_plain
  refine ⟨container, hopen, (live_superblock_iff hopen).mpr ?_⟩
  intro xid paddr hnew
  have hbs : (bootstrapOf (pairImage 4096 4096 0 (by decide))).blockSize = 4096 := by
    rw [bootstrapOf_pairImage _ pairHeaders_plain le_rfl]
    rfl
  rw [newest_pairImage _ pairHeaders_plain le_rfl hnew, hbs, chunk_pairImage]
  decide +kernel

/-- A ring whose superblock declares blocks of 512 bytes and a Fusion container. -/
def craftedPair : Image := pairImage 4096 512 nxIncompatFusion (by decide)

theorem live_superblock_craftedPair : ∃ container, openContainer craftedPair = .ok container ∧
    container.superblock.blockSize = 512 ∧ isFusion container.superblock = true ∧
    (bootstrapOf craftedPair).blockSize = 4096 ∧
    volumeSuperblockAddrs craftedPair container
      = .error (.err (.fieldOutOfRange "nx_superblock" "nx_block_size" 512 65536)) := by
  have hh : PairHeaders 4096 512 nxIncompatFusion := by decide +kernel
  obtain ⟨container, hopen, hsb⟩ := openContainer_pairImage (by decide) hh
  refine ⟨container, hopen, by rw [hsb]; rfl, by rw [hsb]; rfl, ?_, ?_⟩
  · rw [show bootstrapOf craftedPair = pairSuperblock 1 4096 0 from
      bootstrapOf_pairImage _ hh le_rfl]
    rfl
  · rw [volumeSuperblockAddrs, hsb]
    rfl

/-! ### Containers with one volume

Block zero, a ring of one block, an object map and the leaf its tree consists of;
the other blocks belong to the volume.  Both superblocks have one slot for a volume,
which is empty if `fsOid` is zero. -/

def oneVolumeSuperblock (xid blockSize fsOid : Nat) : NxSuperblock :=
  { pairSuperblock xid blockSize 0 with omapOid := 2, fsOids := [fsOid].filter (· ≠ 0) }

/-- The volume `1026` of such a container, with the object map of the container and the fs-tree
`1028`, at a transaction. -/
def soleVolume (xid snapMetaTreeOid : Nat) : ApfsVolume :=
  .ofApsb 1026 xid 2 1028 snapMetaTreeOid

def oneVolumeBlocks (blockSize fsOid : Nat) (tree : Bytes) (rest : List Bytes) : List Bytes :=
  padTo blockSize (nxVolumeBlock 4096 1 blockSize 2 fsOid) ::
    nxVolumeBlock blockSize 2 blockSize 2 fsOid :: omapBlock blockSize 2 3 :: tree :: rest

/-- What the superblocks and the object map say. -/
def OneVolumeHeaders (blockSize fsOid : Nat) : Prop :=
  (NxSuperblock.fields (nxVolumeBlock 4096 1 blockSize 2 fsOid)
      = oneVolumeSuperblock 1 blockSize fsOid ∧
    leU32 (nxVolumeBlock 4096 1 blockSize 2 fsOid) 32 = nxMagic) ∧
  (NxSuperblock.fields (nxVolumeBlock blockSize 2 blockSize 2 fsOid)
      = oneVolumeSuperblock 2 blockSize fsOid ∧
    leU32 (nxVolumeBlock blockSize 2 blockSize 2 fsOid) 24 &&& 0xffff = objectTypeNxSuperblock ∧
    leU32 (nxVolumeBlock blockSize 2 blockSize 2 fsOid) 32 = nxMagic) ∧
  ObjectMap.parse (omapBlock blockSize 2 3) = .ok ⟨0, 0x40000002, 3, 0⟩

instance (blockSize fsOid : Nat) : Decidable (OneVolumeHeaders blockSize fsOid) :=
  inferInstanceAs (Decidable (_ ∧ _))

section OneVolume

variable {blockSize fsOid : Nat} {tree : Bytes} {rest : List Bytes}

theorem length_oneVolumeBlocks (hbs : 4096 ≤ blockSize) (htree : tree.length = blockSize)
    (hrest : ∀ b ∈ rest, b.length = blockSize) :
    ∀ b ∈ oneVolumeBlocks blockSize fsOid tree rest, b.length = blockSize := by
  have hnx := length_nxVolumeBlock (by decide : 192 ≤ 4096) 1 blockSize 2 fsOid
  intro b hb
  simp only [oneVolumeBlocks, List.mem_cons] at hb
  rcases hb with rfl | rfl | rfl | rfl | hb
  · exact length_padTo (by omega)
  · exact length_nxVolumeBlock (by omega) ..
  · exact length_omapBlock (by omega) ..
  · exact htree
  · exact hrest b hb

variable {image : Image} (hbs : 4096 ≤ blockSize ∧ blockSize ≤ 65536)
variable (hblocks : image.HasBlocks blockSize (oneVolumeBlocks blockSize fsOid tree rest))
variable (hh : OneVolumeHeaders blockSize fsOid)

include hblocks hh

theorem readObjectMap_oneVolume :
    readObjectMap image 2 blockSize = .ok ⟨0, 0x40000002, 3, 0⟩ := by
  have homap : (oneVolumeBlocks blockSize fsOid tree rest)[2]? = some (omapBlock blockSize 2 3) :=
    rfl
  rw [readObjectMap, hblocks.readBlock homap, ok_bind, hh.2.2]

omit hh in
theorem resolve_oneVolume {oid xid : Nat} {entry : OmapEntry}
    (hsum : fletcher64Stored tree = fletcher64Checksum tree)
    (hleaf : (parseNodeHeader tree).map BTreeNodeHeader.isLeaf = some true)
    (hscan : omapScan oid xid (nodeEntries tree .omap) = some entry) :
    (⟨0, 0x40000002, 3, 0⟩ : ObjectMap).resolve image oid xid blockSize = .ok entry := by
  have htree : (oneVolumeBlocks blockSize fsOid tree rest)[3]? = some tree := rfl
  obtain ⟨hdr, hhdr, hleaf⟩ := Option.map_eq_some_iff.mp hleaf
  have hroot : (⟨0, 0x40000002, 3, 0⟩ : ObjectMap).treeOid = 3 := rfl
  exact resolve_of_leaf hroot (hblocks.readVerifiedNode htree hsum) hhdr hleaf hscan

include hbs

/-- The container opens, and keeps the superblock of its ring. -/
theorem openContainer_oneVolume : ∃ container, openContainer image = .ok container ∧
    container.superblock = oneVolumeSuperblock 2 blockSize fsOid ∧
    container.checkpointMappings = [] := by
  have hnx := length_nxVolumeBlock (by decide : 192 ≤ 4096) 1 blockSize 2 fsOid
  have htake : image.bytes.take nxMinimumBlockSize = nxVolumeBlock 4096 1 blockSize 2 fsOid := by
    rw [hblocks.bytes_eq, oneVolumeBlocks, List.flatten_cons, padTo, List.append_assoc]
    exact List.take_left' hnx
  have hboot : bootstrapOf image = oneVolumeSuperblock 1 blockSize fsOid := by
    rw [bootstrapOf, htake, hh.1.1]
  have hring : (oneVolumeBlocks blockSize fsOid tree rest)[1]?
      = some (nxVolumeBlock blockSize 2 blockSize 2 fsOid) := rfl
  have hinside := hblocks.end_le hring
  have hchunk := hblocks.chunk_eq hring
  have hsuper : RingSuperblock image blockSize 1 2 := by
    refine ⟨by omega, ?_, ?_, ?_⟩ <;> rw [hchunk]
    · exact hh.2.1.2.1
    · exact ⟨hh.2.1.2.2, sealBlock_verifies _⟩
    · rw [← NxSuperblock.fields_xid, hh.2.1.1]
      rfl
  have hblock0 : IsNxSuperblock (image.bytes.take nxMinimumBlockSize) := by
    rw [htake]
    exact ⟨hh.1.2, sealBlock_verifies _⟩
  have hsize : nxMinimumBlockSize ≤ image.bytes.length := by
    unfold nxMinimumBlockSize
    omega
  have hfusion : isFusion (oneVolumeSuperblock 1 blockSize fsOid) = false := by
    simp [isFusion, oneVolumeSuperblock, pairSuperblock]
  obtain ⟨container, hopen, hkept, hmappings⟩ := openContainer_of_ring hboot
    ⟨hsize, hblock0, hfusion⟩ ⟨rfl, show _ = 1 from rfl, rfl⟩ (blockSizeInRange_iff.mpr hbs)
    (by decide) hsuper
  refine ⟨container, hopen, ?_, hmappings⟩
  rw [hkept, ← hh.2.1.1, ← hchunk]
  rfl

theorem volumeSuperblockAddrs_eq {container : ApfsContainer}
    (hsb : container.superblock = oneVolumeSuperblock 2 blockSize fsOid) :
    volumeSuperblockAddrs image container
      = ([fsOid].filter (· ≠ 0)).mapM fun oid =>
          (⟨0, 0x40000002, 3, 0⟩ : ObjectMap).resolve image oid 2 blockSize >>= fun entry =>
            pure entry.paddr := by
  have hrange : (oneVolumeSuperblock 2 blockSize fsOid).blockSizeInRange = true :=
    blockSizeInRange_iff.mpr hbs
  rw [volumeSuperblockAddrs, hsb]
  simp only [hrange, Bool.not_true, Bool.false_eq_true, if_false]
  show (readObjectMap image 2 blockSize >>= fun omap =>
    ([fsOid].filter (· ≠ 0)).mapM fun oid => omap.resolve image oid 2 blockSize >>= fun entry =>
      pure entry.paddr) = _
  rw [readObjectMap_oneVolume hblocks hh, ok_bind]

/-- The address of the volume is the one in the object map. -/
theorem volumeSuperblockAddrs_oneVolume {container : ApfsContainer} {entry : OmapEntry}
    (hsb : container.superblock = oneVolumeSuperblock 2 blockSize fsOid) (hslot : fsOid ≠ 0)
    (hresolve : (⟨0, 0x40000002, 3, 0⟩ : ObjectMap).resolve image fsOid 2 blockSize = .ok entry) :
    volumeSuperblockAddrs image container = .ok [entry.paddr] := by
  rw [volumeSuperblockAddrs_eq hbs hblocks hh hsb, List.filter_cons_of_pos (by simpa using hslot),
    List.filter_nil, List.mapM_cons, hresolve]
  rfl

end OneVolume

/-! The volume `1026`, with its superblock in block four. -/

def volumeTree : Bytes := btreeNode 4096 3 2 0x7 0 [omapRecord 1026 2 0 4]

theorem oneVolumeHeaders_4096 : OneVolumeHeaders 4096 1026 := by decide +kernel

theorem volumeTree_leaf :
    (parseNodeHeader volumeTree).map BTreeNodeHeader.isLeaf = some true ∧
      omapScan 1026 2 (nodeEntries volumeTree .omap) = some ⟨1026, 2, 4, 4096, 0⟩ := by
  decide +kernel

theorem openContainer_volumeTree {image : Image} {rest : List Bytes}
    (hblocks : image.HasBlocks 4096 (oneVolumeBlocks 4096 1026 volumeTree rest)) :
    ∃ container, openContainer image = .ok container ∧
      container.superblock = oneVolumeSuperblock 2 4096 1026 ∧
      container.checkpointMappings = [] ∧
      volumeSuperblockAddrs image container = .ok [4] := by
  have hbs : 4096 ≤ 4096 ∧ 4096 ≤ 65536 := by decide
  have hsum : fletcher64Stored volumeTree = fletcher64Checksum volumeTree := by
    rw [volumeTree, btreeNode_verifies]
  obtain ⟨container, hopen, hsb, hmappings⟩ := openContainer_oneVolume hbs hblocks
    oneVolumeHeaders_4096
  exact ⟨container, hopen, hsb, hmappings,
    volumeSuperblockAddrs_oneVolume hbs hblocks oneVolumeHeaders_4096 hsb (by decide)
      (resolve_oneVolume hblocks hsum volumeTree_leaf.1 volumeTree_leaf.2)⟩

end ApfsForensic
