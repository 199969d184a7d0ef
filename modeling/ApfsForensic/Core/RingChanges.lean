import ApfsForensic.Core.CheckpointMap
import Mathlib.Logic.Relation

/-!
# The checkpoint ring while it changes

The ring is written block after block, and an image may have been taken at any moment.  Here an
image and its live checkpoint change together, one block of the ring at a time (`RingStep`):

* `overwrite`: a block outside the live checkpoint comes to hold anything that is no superblock
  of this xid or a later one and no map of this xid: a stale block, a map of the next
  checkpoint, one half of a torn write.
* `commit`: a valid superblock of a later xid appears.

`ring_refines_commits`: however many steps are taken, `resolve_live_checkpoint` returns the
checkpoint that was committed last, with its own mappings and no others.
-/

namespace ApfsForensic

/-- The images have the same length and differ in one block only. -/
structure ChangedAt (blockSize paddr : Nat) (image image' : Image) : Prop where
  length_eq : image'.bytes.length = image.bytes.length
  chunk_eq : ∀ q, q ≠ paddr → chunk blockSize image'.bytes q = chunk blockSize image.bytes q

/-- The address lies in the ring. -/
def NxSuperblock.InRing (boot : NxSuperblock) (paddr : Nat) : Prop :=
  boot.xpDescBase ≤ paddr ∧ paddr < boot.xpDescBase + boot.xpDescBlocks

/-- The checkpoint of a superblock, with the mappings that the maps of its xid hold. -/
def checkpointAt (image : Image) (boot : NxSuperblock) (paddr xid : Nat) : LiveCheckpoint where
  superblockPaddr := paddr
  xid := xid
  mappings := (liveSlots image boot xid).map (readSlot image boot.blockSize)

theorem checkpointAt_mappings (image : Image) (boot : NxSuperblock) (paddr xid : Nat) :
    (checkpointAt image boot paddr xid).mappings
      = (liveSlots image boot (checkpointAt image boot paddr xid).xid).map
          (readSlot image boot.blockSize) := rfl

/-- One block of the ring changes. -/
inductive RingStep (boot : NxSuperblock) : Image × LiveCheckpoint → Image × LiveCheckpoint → Prop
  | overwrite {image image' : Image} {live : LiveCheckpoint} {paddr : Nat}
      (changed : ChangedAt boot.blockSize paddr image image')
      (not_superblock : ¬ RingSuperblock image boot.blockSize paddr live.xid)
      (not_map : ¬ RingMap image boot.blockSize paddr live.xid)
      (not_newer : ∀ xid, live.xid ≤ xid → ¬ RingSuperblock image' boot.blockSize paddr xid)
      (not_map' : ¬ RingMap image' boot.blockSize paddr live.xid) :
      RingStep boot (image, live) (image', live)
  | commit {image image' : Image} {live : LiveCheckpoint} {paddr xid : Nat}
      (changed : ChangedAt boot.blockSize paddr image image')
      (in_ring : boot.InRing paddr)
      (newer : live.xid < xid)
      (superblock : RingSuperblock image' boot.blockSize paddr xid)
      (not_map : ¬ RingMap image boot.blockSize paddr xid) :
      RingStep boot (image, live) (image', checkpointAt image boot paddr xid)

section Changes

variable {boot : NxSuperblock} {image image' : Image} {blockSize paddr q xid : Nat}

theorem ChangedAt.ringSuperblock_iff (h : ChangedAt blockSize paddr image image') (hq : q ≠ paddr) :
    RingSuperblock image' blockSize q xid ↔ RingSuperblock image blockSize q xid := by
  rw [RingSuperblock, RingSuperblock, h.length_eq, h.chunk_eq q hq]

theorem ChangedAt.ringMap_iff (h : ChangedAt blockSize paddr image image') (hq : q ≠ paddr) :
    RingMap image' blockSize q xid ↔ RingMap image blockSize q xid := by
  rw [RingMap, RingMap, h.length_eq, h.chunk_eq q hq]

/-- A change that adds and takes away no map of a checkpoint leaves its mappings. -/
theorem ChangedAt.mappings_eq (h : ChangedAt boot.blockSize paddr image image')
    (hold : ¬ RingMap image boot.blockSize paddr xid)
    (hnew : ¬ RingMap image' boot.blockSize paddr xid) :
    (liveSlots image' boot xid).map (readSlot image' boot.blockSize)
      = (liveSlots image boot xid).map (readSlot image boot.blockSize) := by
  rw [liveSlots, liveSlots, List.map_flatMap, List.map_flatMap]
  apply List.flatMap_congr
  intro i _
  by_cases hi : boot.xpDescBase + i = paddr
  · rw [hi, if_neg hold, if_neg hnew]
    rfl
  · have hmap : RingMap image' boot.blockSize (boot.xpDescBase + i) xid ↔
        RingMap image boot.blockSize (boot.xpDescBase + i) xid := h.ringMap_iff hi
    by_cases hlive : RingMap image boot.blockSize (boot.xpDescBase + i) xid
    · rw [if_pos hlive, if_pos (hmap.mpr hlive), h.chunk_eq _ hi, List.map_map, List.map_map]
      apply List.map_congr_left
      intro off _
      show mappingAt (chunk _ image'.bytes _) off = mappingAt (chunk _ image.bytes _) off
      rw [h.chunk_eq _ hi]
    · rw [if_neg hlive, if_neg fun h' => hlive (hmap.mp h')]
      rfl

/-- A superblock is no map. -/
theorem RingSuperblock.not_ringMap {xid' : Nat} (h : RingSuperblock image blockSize paddr xid) :
    ¬ RingMap image blockSize paddr xid' := by
  intro hmap
  have htype := h.2.1.symm.trans hmap.2.1
  exact absurd htype (by decide)

/-- The ring is resolved to its newest superblock, with the maps of its xid. -/
theorem resolve_of_newest {live : LiveCheckpoint} (htree : boot.descIsTree = false)
    (hbs : boot.blockSizeInRange = true) (hring : boot.xpDescBase + boot.xpDescBlocks ≤ 2 ^ 64)
    (hnewest : boot.Newest image live.xid live.superblockPaddr)
    (hmappings :
      live.mappings = (liveSlots image boot live.xid).map (readSlot image boot.blockSize)) :
    resolveLiveCheckpoint image boot = .ok live := by
  rcases resolveLiveCheckpoint_cases image htree hbs hring with
    ⟨found, hfound, hnewest'⟩ | ⟨_, hnone⟩
  · obtain ⟨hxid, hpaddr⟩ := hnewest.unique hnewest'
    have hslots := mappings_eq_slots hfound
    rw [← hxid, ← hmappings] at hslots
    cases live
    cases found
    cases hxid
    cases hpaddr
    cases hslots
    exact hfound
  · exact absurd hnewest.2.1 (hnone _ _ hnewest.1.1 hnewest.1.2)

/-- **One step.** -/
theorem RingStep.resolve {live live' : LiveCheckpoint} (hbase : boot.xpDescBase < 2 ^ 64)
    (hstep : RingStep boot (image, live) (image', live'))
    (hlive : resolveLiveCheckpoint image boot = .ok live) :
    resolveLiveCheckpoint image' boot = .ok live' := by
  obtain ⟨⟨htree, hbs, hring⟩, hin, hsuper, hmax⟩ := newest_of_resolve hbase hlive
  cases hstep with
  | @overwrite _ _ _ paddr changed not_superblock not_map not_newer not_map' =>
    have hne : live.superblockPaddr ≠ paddr := by
      intro h
      exact not_superblock (h ▸ hsuper)
    refine resolve_of_newest htree hbs hring ⟨hin, ?_, ?_⟩ ?_
    · exact (changed.ringSuperblock_iff hne).mpr hsuper
    · intro q xid hlo hhi hq
      by_cases hqp : q = paddr
      · subst hqp
        have hlt : xid < live.xid := by
          by_contra hge
          exact not_newer xid (by omega) hq
        exact ⟨hlt.le, fun h => absurd h (by omega)⟩
      · exact hmax q xid hlo hhi ((changed.ringSuperblock_iff hqp).mp hq)
    · rw [changed.mappings_eq not_map not_map', ← mappings_eq_slots hlive]
  | @commit _ _ _ paddr xid changed in_ring newer superblock not_map =>
    refine resolve_of_newest htree hbs hring ⟨in_ring, superblock, ?_⟩ ?_
    · intro q xid' hlo hhi hq
      by_cases hqp : q = paddr
      · subst hqp
        rw [superblock.xid_eq hq]
        exact ⟨le_rfl, fun _ => le_rfl⟩
      · have hold := hmax q xid' hlo hhi ((changed.ringSuperblock_iff hqp).mp hq)
        have hlt : xid' < xid := lt_of_le_of_lt hold.1 newer
        exact ⟨hlt.le, fun h => absurd h hlt.ne⟩
    · exact (changed.mappings_eq not_map superblock.not_ringMap).symm

end Changes

/-- **The reader sees the last commit.**  From an image whose ring is resolved, through any
number of overwritten blocks and commits in any order, the ring is resolved at every moment,
and to the checkpoint that was committed last. -/
theorem ring_refines_commits {boot : NxSuperblock} (hbase : boot.xpDescBase < 2 ^ 64)
    {image image' : Image} {live live' : LiveCheckpoint}
    (hlive : resolveLiveCheckpoint image boot = .ok live)
    (hsteps : Relation.ReflTransGen (RingStep boot) (image, live) (image', live')) :
    resolveLiveCheckpoint image' boot = .ok live' := by
  generalize hend : (image', live') = state at hsteps
  induction hsteps generalizing image' live' with
  | refl =>
    cases hend
    exact hlive
  | @tail mid state _ hstep ih =>
    subst hend
    exact hstep.resolve hbase (ih rfl)

/-! ### A ring of two blocks

Block zero is a superblock of xid `2`.  The other block is empty, then torn, then a
superblock of xid `3`. -/

open ApfsContainer

def turnImage (other : Bytes) : Image := .ofBlocks [nxBlock 4096 2 4096 0 0 2, other]

theorem hasBlocks_turnImage {other : Bytes} (hlen : other.length = 4096) :
    (turnImage other).HasBlocks 4096 [nxBlock 4096 2 4096 0 0 2, other] := by
  refine Image.hasBlocks_ofBlocks ?_ (show 2 * 4096 ≤ u64Max by decide)
  intro b hb
  simp only [List.mem_cons, List.not_mem_nil, or_false] at hb
  rcases hb with rfl | rfl
  · exact length_nxBlock (by decide) ..
  · exact hlen

section Turn

variable {other other' : Bytes}

theorem changedAt_turnImage (hlen : other.length = 4096) (hlen' : other'.length = 4096) :
    ChangedAt 4096 1 (turnImage other) (turnImage other') where
  length_eq := by
    rw [(hasBlocks_turnImage hlen).length_bytes, (hasBlocks_turnImage hlen').length_bytes]
    rfl
  chunk_eq q hq := by
    rcases Nat.lt_or_ge q 2 with hlt | hge
    · obtain rfl : q = 0 := by omega
      rw [(hasBlocks_turnImage hlen').chunk_eq rfl, (hasBlocks_turnImage hlen).chunk_eq rfl]
    · have hend : ∀ {b : Bytes}, b.length = 4096 → chunk 4096 (turnImage b).bytes q = [] := by
        intro b hb
        have hbytes : (turnImage b).bytes.length = 2 * 4096 := (hasBlocks_turnImage hb).length_bytes
        rw [chunk, List.drop_eq_nil_of_le, List.take_nil]
        rw [hbytes]
        exact Nat.mul_le_mul_right _ hge
      rw [hend hlen', hend hlen]

/-- The other block is neither a superblock nor a map. -/
def Idle (other : Bytes) : Prop :=
  other.length = 4096 ∧ leU32 other 24 &&& 0xffff ≠ objectTypeNxSuperblock ∧
    leU32 other 24 &&& 0xffff ≠ objectTypeCheckpointMap

theorem Idle.not_superblock (h : Idle other) (xid : Nat) :
    ¬ RingSuperblock (turnImage other) 4096 1 xid := by
  rintro ⟨_, htype, _⟩
  rw [(hasBlocks_turnImage h.1).chunk_eq rfl] at htype
  exact h.2.1 htype

theorem Idle.not_map (h : Idle other) (xid : Nat) : ¬ RingMap (turnImage other) 4096 1 xid := by
  rintro ⟨_, htype, _⟩
  rw [(hasBlocks_turnImage h.1).chunk_eq rfl] at htype
  exact h.2.2 htype

theorem ringSuperblock_turnImage {i xid : Nat} (hlen : other.length = 4096)
    (hblock : [nxBlock 4096 2 4096 0 0 2, other][i]? = some (nxBlock 4096 xid 4096 0 0 2))
    (htype : leU32 (nxBlock 4096 xid 4096 0 0 2) 24 &&& 0xffff = objectTypeNxSuperblock)
    (hmagic : leU32 (nxBlock 4096 xid 4096 0 0 2) 32 = nxMagic)
    (hxid : leU64 (nxBlock 4096 xid 4096 0 0 2) 16 = xid) :
    RingSuperblock (turnImage other) 4096 i xid := by
  have hend := (hasBlocks_turnImage hlen).end_le hblock
  refine ⟨by omega, ?_⟩
  rw [(hasBlocks_turnImage hlen).chunk_eq hblock]
  exact ⟨htype, ⟨hmagic, sealBlock_verifies _⟩, hxid⟩

theorem resolve_turnImage (h : Idle other) :
    resolveLiveCheckpoint (turnImage other) countedSuperblock
      = .ok (checkpointAt (turnImage other) countedSuperblock 0 2) := by
  have hsuper : RingSuperblock (turnImage other) 4096 0 2 :=
    ringSuperblock_turnImage h.1 rfl (by decide +kernel) (by decide +kernel) (by decide +kernel)
  have hring : countedSuperblock.xpDescBase + countedSuperblock.xpDescBlocks ≤ 2 ^ 64 := by decide
  refine resolve_of_newest rfl rfl hring ⟨⟨le_rfl, Nat.zero_lt_two⟩, hsuper, ?_⟩
    (checkpointAt_mappings ..)
  intro q xid _ hhi hq
  have hlt : q < 0 + 2 := hhi
  rcases Nat.lt_or_ge q 1 with hzero | hone
  · obtain rfl : q = 0 := by omega
    rw [hq.xid_eq hsuper]
    exact ⟨le_rfl, fun _ => le_rfl⟩
  · obtain rfl : q = 1 := by omega
    exact absurd hq (h.not_superblock xid)

end Turn

theorem ring_refines_commits_turnImage :
    ∃ live, resolveLiveCheckpoint (turnImage (List.replicate 4096 1)) countedSuperblock = .ok live ∧
      live.xid = 2 ∧
    ∃ live', resolveLiveCheckpoint (turnImage (nxBlock 4096 3 4096 0 0 2)) countedSuperblock
        = .ok live' ∧ live'.xid = 3 ∧ live'.superblockPaddr = 1 := by
  have hempty : Idle (List.replicate 4096 0) :=
    ⟨List.length_replicate, by decide +kernel, by decide +kernel⟩
  have htorn : Idle (List.replicate 4096 1) :=
    ⟨List.length_replicate, by decide +kernel, by decide +kernel⟩
  have hlen : (nxBlock 4096 3 4096 0 0 2).length = 4096 := length_nxBlock (by decide) ..
  have htear : RingStep countedSuperblock
      (turnImage (List.replicate 4096 0),
        checkpointAt (turnImage (List.replicate 4096 0)) countedSuperblock 0 2)
      (turnImage (List.replicate 4096 1), _) :=
    .overwrite (changedAt_turnImage hempty.1 htorn.1) (hempty.not_superblock 2) (hempty.not_map 2)
      (fun xid _ => htorn.not_superblock xid) (htorn.not_map 2)
  have hcommit : RingStep countedSuperblock
      (turnImage (List.replicate 4096 1),
        checkpointAt (turnImage (List.replicate 4096 0)) countedSuperblock 0 2)
      (turnImage (nxBlock 4096 3 4096 0 0 2), _) :=
    .commit (changedAt_turnImage htorn.1 hlen) ⟨by decide, by decide⟩ (show 2 < 3 by decide)
      (ringSuperblock_turnImage hlen rfl (by decide +kernel) (by decide +kernel)
        (by decide +kernel)) (htorn.not_map 3)
  have hbase : countedSuperblock.xpDescBase < 2 ^ 64 := by decide
  exact ⟨_, ring_refines_commits hbase (resolve_turnImage hempty) (.single htear), rfl,
    _, ring_refines_commits hbase (resolve_turnImage hempty) (.tail (.single htear) hcommit),
    rfl, rfl⟩

end ApfsForensic
