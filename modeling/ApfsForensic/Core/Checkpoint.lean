import ApfsForensic.Core.Container

/-!
# The checkpoint ring

`core/src/checkpoint.rs`.  The descriptor area is a ring of blocks with old and new
superblocks, checkpoint maps and whatever a torn write left.  The live superblock
is the valid one with the highest xid.

`RingSuperblock image bs paddr xid` says that the block at `paddr` lies inside the
image and is a superblock of that xid.  A block that is not is passed over by the
scan.  `IsNewest` is what the scan keeps: the highest xid so far, at its lowest
address (`examine_best` for one block, `bestOf_scan` for all of them).
`resolveLiveCheckpoint_cases` says when there is a live checkpoint.
-/

namespace ApfsForensic

/-- `OBJECT_TYPE_NX_SUPERBLOCK`. -/
def objectTypeNxSuperblock : Nat := 0x1

/-- `OBJECT_TYPE_CHECKPOINT_MAP`. -/
def objectTypeCheckpointMap : Nat := 0xc

/-- `MAX_CPM_COUNT`. -/
def maxCpmCount : Nat := 4096

/-- `CheckpointMapping`. -/
structure CheckpointMapping where
  oid : Nat
  paddr : Nat
  objType : Nat
  subtype : Nat
  deriving DecidableEq, Repr

/-- `LiveCheckpoint`. -/
structure LiveCheckpoint where
  superblockPaddr : Nat
  xid : Nat
  mappings : List CheckpointMapping
  deriving DecidableEq, Repr

/-- What the scan has seen: the best `(xid, paddr)`, the number of blocks read and the
last magic. -/
structure RingScan where
  best : Option (Nat × Nat)
  checked : Nat
  lastMagic : Nat
  deriving DecidableEq, Repr

/-- `checkpoint::read_block`: a block past the end of the image is a miss, not an
error. -/
def Checkpoint.readBlock (image : Image) (paddr blockSize : Nat) : Result (Option Bytes) :=
  match checkedMul paddr blockSize with
  | none => .ok none
  | some offset =>
    match image.readAt offset blockSize with
    | .ok buf => .ok (some buf)
    | .error .unexpectedEof => .ok none
    | .error kind => .error (.err (.io kind))

/-- A loop over the ring.  `desc_base + i` is an unchecked sum. -/
def forEachRingBlock {σ : Type} (image : Image) (descBase descBlocks blockSize : Nat)
    (f : σ → Nat → Bytes → σ) (acc : σ) : Result σ :=
  (List.range descBlocks).foldlM (fun s i => do
    if descBase + i > u64Max then
      throw .panic
    match ← Checkpoint.readBlock image (descBase + i) blockSize with
    | none => return s
    | some buf => return f s (descBase + i) buf) acc

/-- The body of the first loop: is the block a superblock, and newer than the best? -/
def RingScan.examine (scan : RingScan) (paddr : Nat) (buf : Bytes) : RingScan :=
  let scan := { scan with checked := scan.checked + 1 }
  match ObjPhys.parse buf with
  | none => scan
  | some hdr =>
    if hdr.objType ≠ objectTypeNxSuperblock then scan
    else
      let scan := { scan with lastMagic := leU32 buf 32 }
      if leU32 buf 32 ≠ nxMagic then scan
      else if fletcher64Stored buf ≠ fletcher64Checksum buf then scan
      else if scan.best.all (fun b => decide (hdr.xid > b.1)) then
        { scan with best := some (hdr.xid, paddr) }
      else scan

/-- The `checkpoint_mapping_t`s of a map block. -/
def mapEntries (buf : Bytes) : List CheckpointMapping :=
  (List.range (min (leU32 buf 36) maxCpmCount)).map (fun m =>
    let off := 40 + m * 40
    { objType := leU32 buf off
      subtype := leU32 buf (off + 4)
      oid := leU64 buf (off + 24)
      paddr := leU64 buf (off + 32) })

/-- The body of the second loop: the mappings of the maps of this xid. -/
def collectMappings (xid : Nat) (mappings : List CheckpointMapping) (buf : Bytes) :
    List CheckpointMapping :=
  match ObjPhys.parse buf with
  | none => mappings
  | some hdr =>
    if hdr.objType ≠ objectTypeCheckpointMap ∨ hdr.xid ≠ xid then mappings
    else if fletcher64Stored buf ≠ fletcher64Checksum buf then mappings
    else mappings ++ mapEntries buf

/-- `resolve_live_checkpoint`. -/
def resolveLiveCheckpoint (image : Image) (bootstrap : NxSuperblock) : Result LiveCheckpoint := do
  if bootstrap.descIsTree then
    throw (.err (.checkpointTreeUnsupported "descriptor"))
  if !bootstrap.blockSizeInRange then
    throw (.err (.fieldOutOfRange "nx_superblock" "nx_block_size" bootstrap.blockSize
      nxMaximumBlockSize))
  let scan ← forEachRingBlock image bootstrap.xpDescBase bootstrap.xpDescBlocks
    bootstrap.blockSize RingScan.examine ⟨none, 0, 0⟩
  match scan.best with
  | none => throw (.err (.noValidSuperblock scan.checked scan.lastMagic))
  | some (xid, superblockPaddr) => do
    let mappings ← forEachRingBlock image bootstrap.xpDescBase bootstrap.xpDescBlocks
      bootstrap.blockSize (fun mappings _ buf => collectMappings xid mappings buf) []
    return { superblockPaddr, xid, mappings }

/-! ### Reading the ring -/

/-- The block at `paddr`, if it lies inside the image. -/
def Image.blockInside (image : Image) (blockSize paddr : Nat) : Option Bytes :=
  if (paddr + 1) * blockSize ≤ image.bytes.length then some (chunk blockSize image.bytes paddr)
  else none

theorem Checkpoint.readBlock_eq (image : Image) (paddr : Nat) {blockSize : Nat}
    (hbs : 0 < blockSize) :
    Checkpoint.readBlock image paddr blockSize = .ok (image.blockInside blockSize paddr) := by
  have hlen := image.length_lt
  have hend : (paddr + 1) * blockSize = paddr * blockSize + blockSize := Nat.succ_mul _ _
  unfold Checkpoint.readBlock Image.blockInside
  by_cases hin : (paddr + 1) * blockSize ≤ image.bytes.length
  · have hmul : paddr * blockSize ≤ u64Max := by unfold u64Max; omega
    have hread : image.readAt (paddr * blockSize) blockSize
        = .ok (chunk blockSize image.bytes paddr) :=
      Image.readAt_eq_ok_iff.mpr ⟨Or.inr (by omega), rfl⟩
    simp only [if_pos hin, checkedMul_of_le hmul, hread]
  · rw [if_neg hin]
    by_cases hmul : paddr * blockSize ≤ u64Max
    · have hread : image.readAt (paddr * blockSize) blockSize = .error .unexpectedEof :=
        Image.readAt_eq_error_iff.mpr ⟨⟨by omega, by omega⟩, rfl⟩
      simp only [checkedMul_of_le hmul, hread]
    · rw [checkedMul_of_lt (by omega)]

/-- The loop over a ring whose addresses are `u64`s always ends with a result. -/
theorem forEachRingBlock_eq {σ : Type} (image : Image) {base blocks blockSize : Nat}
    (hbs : 0 < blockSize) (hring : base + blocks ≤ 2 ^ 64) (f : σ → Nat → Bytes → σ) (acc : σ) :
    forEachRingBlock image base blocks blockSize f acc
      = .ok ((List.range blocks).foldl (fun s i =>
          (image.blockInside blockSize (base + i)).elim s (f s (base + i))) acc) := by
  unfold forEachRingBlock
  induction blocks with
  | zero => rfl
  | succ blocks ih =>
    have hsum : ¬ base + blocks > u64Max := by unfold u64Max; omega
    rw [List.range_succ, List.foldlM_append, ih (by omega), List.foldl_append, ok_bind,
      List.foldlM_cons, if_neg hsum]
    simp only [Checkpoint.readBlock_eq image _ hbs, ok_bind, List.foldl_cons, List.foldl_nil]
    cases image.blockInside blockSize (base + blocks) <;> rfl

/-- What a loop that came to its end has done. -/
theorem foldl_of_forEachRingBlock {σ : Type} {image : Image} {base blockSize : Nat}
    (hbs : 0 < blockSize) {f : σ → Nat → Bytes → σ} {acc : σ} :
    ∀ {blocks : Nat} {acc' : σ}, forEachRingBlock image base blocks blockSize f acc = .ok acc' →
      acc' = (List.range blocks).foldl (fun s i =>
        (image.blockInside blockSize (base + i)).elim s (f s (base + i))) acc := by
  intro blocks
  induction blocks with
  | zero =>
    intro acc' h
    cases h
    rfl
  | succ blocks ih =>
    intro acc' h
    rw [forEachRingBlock, List.range_succ, List.foldlM_append, bind_eq_ok_iff] at h
    obtain ⟨mid, hmid, hlast⟩ := h
    rw [List.range_succ, List.foldl_append, ← ih hmid, List.foldl_cons, List.foldl_nil]
    rw [List.foldlM_cons] at hlast
    simp only [throw_eq_error, error_bind, ite_error_eq_ok_iff, bind_eq_ok_iff,
      Checkpoint.readBlock_eq image _ hbs, ok_bind] at hlast
    obtain ⟨last, ⟨_, hlast⟩, hnil⟩ := hlast
    cases hnil
    cases hb : image.blockInside blockSize (base + blocks) with
    | none => rw [hb] at hlast; cases hlast; rfl
    | some buf => rw [hb] at hlast; cases hlast; rfl

/-- The first sum past `u64::MAX` ends the loop in a panic. -/
theorem forEachRingBlock_eq_panic {σ : Type} (image : Image) {base blocks blockSize : Nat}
    (hbs : 0 < blockSize) (hbase : base < 2 ^ 64) (hover : 2 ^ 64 < base + blocks)
    (f : σ → Nat → Bytes → σ) (acc : σ) :
    forEachRingBlock image base blocks blockSize f acc = .error .panic := by
  obtain ⟨n, hn⟩ : ∃ n, base + n = 2 ^ 64 := ⟨2 ^ 64 - base, by omega⟩
  obtain ⟨rest, rfl⟩ : ∃ rest, blocks = n + (rest + 1) := ⟨blocks - n - 1, by omega⟩
  have hsum : base + n > u64Max := by unfold u64Max; omega
  have hhead := forEachRingBlock_eq image hbs (Nat.le_of_eq hn) f acc
  rw [forEachRingBlock] at hhead ⊢
  rw [List.range_add, List.foldlM_append, hhead, ok_bind, List.range_succ_eq_map, List.map_cons,
    List.foldlM_cons, Nat.add_zero, if_pos hsum]
  rfl

/-- A ring that was read to its end has `u64` addresses only. -/
theorem ring_le_of_forEachRingBlock {σ : Type} {image : Image} {base blocks blockSize : Nat}
    {f : σ → Nat → Bytes → σ} {acc acc' : σ} (hbs : 0 < blockSize)
    (h : forEachRingBlock image base blocks blockSize f acc = .ok acc') (hbase : base < 2 ^ 64) :
    base + blocks ≤ 2 ^ 64 := by
  by_contra hover
  rw [forEachRingBlock_eq_panic image hbs hbase (by omega)] at h
  exact absurd h (by simp)

/-! ### The newest superblock -/

/-- The block at `paddr` lies inside the image and is a superblock of this xid. -/
def RingSuperblock (image : Image) (blockSize paddr xid : Nat) : Prop :=
  (paddr + 1) * blockSize ≤ image.bytes.length ∧
    leU32 (chunk blockSize image.bytes paddr) 24 &&& 0xffff = objectTypeNxSuperblock ∧
    IsNxSuperblock (chunk blockSize image.bytes paddr) ∧
    leU64 (chunk blockSize image.bytes paddr) 16 = xid

/-- `(xid, paddr)` is the highest xid among the superblocks at `base`, `base + 1`, ...,
`base + n - 1`, at its lowest address. -/
def IsNewest (image : Image) (blockSize base n xid paddr : Nat) : Prop :=
  (base ≤ paddr ∧ paddr < base + n) ∧ RingSuperblock image blockSize paddr xid ∧
    ∀ paddr' xid', base ≤ paddr' → paddr' < base + n → RingSuperblock image blockSize paddr' xid' →
      xid' ≤ xid ∧ (xid' = xid → paddr ≤ paddr')

section Scan

variable {image : Image} {blockSize base : Nat}

theorem RingSuperblock.xid_eq {paddr xid xid' : Nat} (h : RingSuperblock image blockSize paddr xid)
    (h' : RingSuperblock image blockSize paddr xid') : xid = xid' :=
  h.2.2.2.symm.trans h'.2.2.2

/-- A superblock is no checkpoint map. -/
theorem collectMappings_superblock {paddr xid : Nat}
    (h : RingSuperblock image blockSize paddr xid) (live : Nat) (mappings : List CheckpointMapping) :
    collectMappings live mappings (chunk blockSize image.bytes paddr) = mappings := by
  obtain ⟨_, htype, _⟩ := h
  rw [collectMappings, ObjPhys.parse]
  by_cases hlen : (chunk blockSize image.bytes paddr).length < objPhysLen
  · rw [if_pos hlen]
  · rw [if_neg hlen]
    simp [ObjPhys.objType, htype, objectTypeNxSuperblock, objectTypeCheckpointMap]

/-- The examined block is kept exactly if it is a superblock newer than the best. -/
theorem examine_best (hbs : objPhysLen ≤ blockSize) {paddr : Nat}
    (hin : (paddr + 1) * blockSize ≤ image.bytes.length) (scan : RingScan) :
    (∀ xid, RingSuperblock image blockSize paddr xid →
      (scan.examine paddr (chunk blockSize image.bytes paddr)).best
        = if scan.best.all (fun b => decide (xid > b.1)) then some (xid, paddr) else scan.best) ∧
    ((∀ xid, ¬ RingSuperblock image blockSize paddr xid) →
      (scan.examine paddr (chunk blockSize image.bytes paddr)).best = scan.best) := by
  have hlen : ¬ (chunk blockSize image.bytes paddr).length < objPhysLen := by
    rw [length_chunk hin]
    omega
  constructor
  · rintro xid ⟨_, htype, ⟨hmagic, hsum⟩, hxid⟩
    simp only [RingScan.examine, ObjPhys.parse, if_neg hlen, ObjPhys.objType, htype, hmagic, hsum,
      hxid, ne_eq, not_true_eq_false, if_false]
    split <;> rfl
  · intro hno
    simp only [RingScan.examine, ObjPhys.parse, if_neg hlen, ObjPhys.objType]
    by_cases htype : leU32 (chunk blockSize image.bytes paddr) 24 &&& 0xffff
        = objectTypeNxSuperblock
    · by_cases hmagic : leU32 (chunk blockSize image.bytes paddr) 32 = nxMagic
      · have hsum : fletcher64Stored (chunk blockSize image.bytes paddr)
            ≠ fletcher64Checksum (chunk blockSize image.bytes paddr) :=
          fun hsum => hno _ ⟨hin, htype, ⟨hmagic, hsum⟩, rfl⟩
        simp only [htype, hmagic, ne_eq, not_true_eq_false, if_false, hsum, not_false_eq_true,
          if_true]
      · simp only [htype, ne_eq, not_true_eq_false, if_false, hmagic, not_false_eq_true, if_true]
    · simp only [ne_eq, htype, not_false_eq_true, if_true]

/-- What the best of the first `n` blocks is. -/
def BestOf (image : Image) (blockSize base n : Nat) : Option (Nat × Nat) → Prop
  | none => ∀ paddr xid, base ≤ paddr → paddr < base + n →
      ¬ RingSuperblock image blockSize paddr xid
  | some (xid, paddr) => IsNewest image blockSize base n xid paddr

/-- A block that is no superblock leaves the best as it is. -/
theorem BestOf.skip {n : Nat} {best : Option (Nat × Nat)} (h : BestOf image blockSize base n best)
    (hno : ∀ xid, ¬ RingSuperblock image blockSize (base + n) xid) :
    BestOf image blockSize base (n + 1) best := by
  cases best with
  | none =>
    intro paddr xid hlo hhi hsb
    by_cases hlast : paddr = base + n
    · subst hlast
      exact hno xid hsb
    · exact h paddr xid hlo (by omega) hsb
  | some b =>
    obtain ⟨hin, hsb, hmax⟩ := h
    refine ⟨by omega, hsb, fun paddr' xid' hlo hhi hsb' => ?_⟩
    by_cases hlast : paddr' = base + n
    · subst hlast
      exact absurd hsb' (hno xid')
    · exact hmax paddr' xid' hlo (by omega) hsb'

/-- A superblock at the next address takes the place of the best if its xid is
higher, and not if it is the same. -/
theorem BestOf.meet {n xid : Nat} {best : Option (Nat × Nat)}
    (h : BestOf image blockSize base n best)
    (hnew : RingSuperblock image blockSize (base + n) xid) :
    BestOf image blockSize base (n + 1)
      (if best.all (fun b => decide (xid > b.1)) then some (xid, base + n) else best) := by
  have hlast : ∀ {paddr' xid'}, RingSuperblock image blockSize paddr' xid' → paddr' = base + n →
      xid' = xid := by
    rintro paddr' xid' hsb' rfl
    exact hsb'.xid_eq hnew
  cases best with
  | none =>
    refine ⟨by omega, hnew, fun paddr' xid' hlo hhi hsb' => ?_⟩
    have hp : paddr' = base + n := by
      by_contra hp
      exact h paddr' xid' hlo (by omega) hsb'
    exact ⟨le_of_eq (hlast hsb' hp), fun _ => le_of_eq hp.symm⟩
  | some b =>
    obtain ⟨hin, hsb, hmax⟩ := h
    by_cases hgt : xid > b.1
    · rw [if_pos (by simpa using hgt)]
      refine ⟨by omega, hnew, fun paddr' xid' hlo hhi hsb' => ?_⟩
      by_cases hp : paddr' = base + n
      · exact ⟨le_of_eq (hlast hsb' hp), fun _ => le_of_eq hp.symm⟩
      · have hle := (hmax paddr' xid' hlo (by omega) hsb').1
        exact ⟨by omega, fun heq => by omega⟩
    · rw [if_neg (by simpa using hgt)]
      refine ⟨by omega, hsb, fun paddr' xid' hlo hhi hsb' => ?_⟩
      by_cases hp : paddr' = base + n
      · have hx := hlast hsb' hp
        exact ⟨by omega, fun _ => by omega⟩
      · exact hmax paddr' xid' hlo (by omega) hsb'

/-- One round of the scan. -/
theorem bestOf_examine (hbs : objPhysLen ≤ blockSize) {n : Nat} {scan : RingScan}
    (h : BestOf image blockSize base n scan.best) :
    BestOf image blockSize base (n + 1)
      ((image.blockInside blockSize (base + n)).elim scan (scan.examine (base + n))).best := by
  by_cases hin : (base + n + 1) * blockSize ≤ image.bytes.length
  · obtain ⟨hkeep, hpass⟩ := examine_best hbs hin scan
    rw [Image.blockInside, if_pos hin, Option.elim]
    by_cases hsb : ∃ xid, RingSuperblock image blockSize (base + n) xid
    · obtain ⟨xid, hsb⟩ := hsb
      rw [hkeep xid hsb]
      exact h.meet hsb
    · have hno : ∀ xid, ¬ RingSuperblock image blockSize (base + n) xid :=
        fun xid hx => hsb ⟨xid, hx⟩
      rw [hpass hno]
      exact h.skip hno
  · rw [Image.blockInside, if_neg hin, Option.elim]
    exact h.skip (fun xid hsb => hin hsb.1)

/-- The best after the whole ring. -/
theorem bestOf_scan (hbs : objPhysLen ≤ blockSize) : ∀ n : Nat,
    BestOf image blockSize base n ((List.range n).foldl (fun scan i =>
      (image.blockInside blockSize (base + i)).elim scan (scan.examine (base + i)))
      (⟨none, 0, 0⟩ : RingScan)).best := by
  intro n
  induction n with
  | zero => intro paddr xid hlo hhi; omega
  | succ n ih =>
    rw [List.range_succ, List.foldl_append]
    exact bestOf_examine hbs ih

end Scan

/-! ### The live checkpoint -/

section Resolve

variable {image : Image} {boot : NxSuperblock}

theorem blockSizeInRange_iff : boot.blockSizeInRange = true ↔
    nxMinimumBlockSize ≤ boot.blockSize ∧ boot.blockSize ≤ nxMaximumBlockSize :=
  decide_eq_true_iff

/-- `IsNewest` over the ring that a superblock describes. -/
def NxSuperblock.Newest (image : Image) (boot : NxSuperblock) (xid paddr : Nat) : Prop :=
  IsNewest image boot.blockSize boot.xpDescBase boot.xpDescBlocks xid paddr

theorem NxSuperblock.Newest.unique {xid paddr xid' paddr' : Nat}
    (h : boot.Newest image xid paddr) (h' : boot.Newest image xid' paddr') :
    xid = xid' ∧ paddr = paddr' := by
  obtain ⟨hin, hsb, hmax⟩ := h
  obtain ⟨hin', hsb', hmax'⟩ := h'
  obtain ⟨hle, hlow⟩ := hmax paddr' xid' hin'.1 hin'.2 hsb'
  obtain ⟨hle', hlow'⟩ := hmax' paddr xid hin.1 hin.2 hsb
  have hx : xid = xid' := by omega
  have := hlow hx.symm
  have := hlow' hx
  exact ⟨hx, by omega⟩

/-- The scan and the collection of the mappings, on a ring whose addresses are
`u64`s. -/
theorem resolveLiveCheckpoint_cases (image : Image) (htree : boot.descIsTree = false)
    (hbs : boot.blockSizeInRange = true) (hring : boot.xpDescBase + boot.xpDescBlocks ≤ 2 ^ 64) :
    (∃ live, resolveLiveCheckpoint image boot = .ok live ∧
      boot.Newest image live.xid live.superblockPaddr) ∨
    (∃ checked lastMagic, resolveLiveCheckpoint image boot
        = .error (.err (.noValidSuperblock checked lastMagic))) ∧
      ∀ paddr xid, boot.xpDescBase ≤ paddr → paddr < boot.xpDescBase + boot.xpDescBlocks →
        ¬ RingSuperblock image boot.blockSize paddr xid := by
  have hsize := (blockSizeInRange_iff.mp hbs).1
  have hpos : 0 < boot.blockSize := lt_of_lt_of_le (by decide) hsize
  have hhdr : objPhysLen ≤ boot.blockSize := le_trans (by decide) hsize
  have hbest : BestOf image boot.blockSize boot.xpDescBase boot.xpDescBlocks _ :=
    bestOf_scan hhdr boot.xpDescBlocks
  rw [resolveLiveCheckpoint, if_neg (by simp [htree]), if_neg (by simp [hbs])]
  simp only [forEachRingBlock_eq image hpos hring, ok_bind]
  generalize (List.range boot.xpDescBlocks).foldl (fun scan i =>
    (image.blockInside boot.blockSize (boot.xpDescBase + i)).elim scan
      (scan.examine (boot.xpDescBase + i))) (⟨none, 0, 0⟩ : RingScan) = scan at hbest
  obtain ⟨best, checked, lastMagic⟩ := scan
  cases best with
  | none => exact Or.inr ⟨⟨checked, lastMagic, rfl⟩, hbest⟩
  | some b => exact Or.inl ⟨_, rfl, hbest⟩

/-- The second loop gives the mappings of a live checkpoint. -/
theorem mappings_of_resolve {live : LiveCheckpoint}
    (h : resolveLiveCheckpoint image boot = .ok live) :
    forEachRingBlock image boot.xpDescBase boot.xpDescBlocks boot.blockSize
      (fun mappings _ buf => collectMappings live.xid mappings buf) [] = .ok live.mappings := by
  unfold resolveLiveCheckpoint at h
  simp only [throw_eq_error, error_bind, ite_error_eq_ok_iff, bind_eq_ok_iff] at h
  obtain ⟨_, _, scan, _, h⟩ := h
  cases hbest : scan.best with
  | none => rw [hbest] at h; cases h
  | some best =>
    rw [hbest] at h
    simp only [bind_eq_ok_iff] at h
    obtain ⟨mappings, hmappings, h⟩ := h
    cases h
    exact hmappings

/-- A ring that runs past the last `u64` address is not resolved at all. -/
theorem resolveLiveCheckpoint_eq_panic (image : Image) (htree : boot.descIsTree = false)
    (hbs : boot.blockSizeInRange = true) (hbase : boot.xpDescBase < 2 ^ 64)
    (hover : 2 ^ 64 < boot.xpDescBase + boot.xpDescBlocks) :
    resolveLiveCheckpoint image boot = .error .panic := by
  have hpos : 0 < boot.blockSize := lt_of_lt_of_le (by decide) (blockSizeInRange_iff.mp hbs).1
  rw [resolveLiveCheckpoint, if_neg (by simp [htree]), if_neg (by simp [hbs])]
  simp only [forEachRingBlock_eq_panic image hpos hbase hover, error_bind]

/-- A live checkpoint is the newest of a contiguous ring of `u64` addresses. -/
theorem newest_of_resolve {live : LiveCheckpoint} (hbase : boot.xpDescBase < 2 ^ 64)
    (h : resolveLiveCheckpoint image boot = .ok live) :
    (boot.descIsTree = false ∧ boot.blockSizeInRange = true ∧
      boot.xpDescBase + boot.xpDescBlocks ≤ 2 ^ 64) ∧
    boot.Newest image live.xid live.superblockPaddr := by
  have hgates : boot.descIsTree = false ∧ boot.blockSizeInRange = true ∧
      boot.xpDescBase + boot.xpDescBlocks ≤ 2 ^ 64 := by
    rw [resolveLiveCheckpoint] at h
    by_cases htree : boot.descIsTree = true
    · rw [if_pos htree] at h
      exact absurd h (by simp)
    by_cases hbs : boot.blockSizeInRange = true
    · rw [if_neg htree, if_neg (by simp [hbs])] at h
      simp only at h
      rw [bind_eq_ok_iff] at h
      obtain ⟨scan, hscan, _⟩ := h
      have hpos : 0 < boot.blockSize :=
        lt_of_lt_of_le (by decide) (blockSizeInRange_iff.mp hbs).1
      exact ⟨by simpa using htree, hbs, ring_le_of_forEachRingBlock hpos hscan hbase⟩
    · rw [if_neg htree, if_pos (by simpa using hbs)] at h
      exact absurd h (by simp)
  refine ⟨hgates, ?_⟩
  rcases resolveLiveCheckpoint_cases image hgates.1 hgates.2.1 hgates.2.2 with
    ⟨live', hlive', hnewest⟩ | ⟨⟨checked, lastMagic, herr⟩, _⟩
  · rw [hlive', Except.ok.injEq] at h
    rwa [← h]
  · rw [herr] at h
    exact absurd h (by simp)

end Resolve

end ApfsForensic
