import ApfsForensic.Core.Encode
import ApfsForensic.Walk.Runs

/-!
# The space manager

`core/src/spaceman.rs`.  Two queries of the allocation bitmaps: `isBlockFree` for one
block, `freeBlockRuns` for the device.  The first finds the entry of a block by
division; the second enumerates the entries and multiplies.

* `inRuns_freeBlockRuns`: a block is in a run exactly if **some** entry listed for its
  chunk has it free (`FreedBy`).  A chunk-info block with more entries than
  `chunks_per_cib` lists chunks that the next ones list too.
* `isBlockFree_inv`: the single query reads the one entry that division finds.
* `free_queries_agree_iff`: so the two agree except where the entry's bitmap is too
  short for the bit, or an earlier chunk-info block has another opinion.
-/

namespace ApfsForensic

open Walk

/-- `read_obj_block`. -/
def readObjBlock (image : Image) (paddr blockSize : Nat) : Result Bytes := do
  let buf ← image.readBlock paddr blockSize
  verifyChecksum buf (leU64 buf 8)
  return buf

/-- The fields of `spaceman_phys_t` and its main device that the queries read. -/
structure SpacemanGeometry where
  blocksPerChunk : Nat
  chunksPerCib : Nat
  blockCount : Nat
  chunkCount : Nat
  cibCount : Nat
  cabCount : Nat
  addrOffset : Nat
  chunksPerCib_lt : chunksPerCib < 2 ^ 32
  cibCount_lt : cibCount < 2 ^ 32
  blockCount_lt : blockCount < 2 ^ 64

def SpacemanGeometry.parse (sm : Bytes) : SpacemanGeometry where
  blocksPerChunk := leU32 sm 36
  chunksPerCib := leU32 sm 40
  blockCount := leU64 sm 48
  chunkCount := leU64 sm 56
  cibCount := leU32 sm 64
  cabCount := leU32 sm 68
  addrOffset := leU32 sm 80
  chunksPerCib_lt := leU32_lt _ _
  cibCount_lt := leU32_lt _ _
  blockCount_lt := leU64_lt _ _

/-- The `range` closure. -/
def spacemanRange (field : String) (value cap : Nat) : Fault :=
  .err (.fieldOutOfRange "spaceman_phys" field value cap)

/-- The inline array of chunk-info block addresses. -/
def cibPaddr (sm : Bytes) (cibIdx : Nat) : Nat :=
  leU64 sm ((SpacemanGeometry.parse sm).addrOffset + cibIdx * 8)

/-- `cib_chunk_info_count`. -/
def ciCount (cib : Bytes) : Nat := leU32 cib 36

/-- `ci_bitmap_addr` of an entry. -/
def ciBitmapAddr (cib : Bytes) (within : Nat) : Nat := leU64 cib (40 + within * 32 + 24)

/-- `byte & (1 << k) != 0`. -/
def bitIsSet (byte : UInt8) (k : Nat) : Bool := byte &&& (1 <<< UInt8.ofNat k) != 0

/-- `is_block_free`. -/
def isBlockFree (image : Image) (spacemanPaddr block blockSize : Nat) : Result Bool := do
  let sm ← readObjBlock image spacemanPaddr blockSize
  let g := SpacemanGeometry.parse sm
  if g.blocksPerChunk = 0 ∨ g.chunksPerCib = 0 then
    throw (spacemanRange "sm_blocks_per_chunk/sm_chunks_per_cib" 0 1)
  if block ≥ g.blockCount then
    throw (spacemanRange "block" block g.blockCount)
  if g.cabCount ≠ 0 then
    throw (.err (.unsupportedSpacemanCab g.cabCount))
  let chunkIndex := block / g.blocksPerChunk
  if chunkIndex ≥ g.chunkCount then
    throw (spacemanRange "chunk_index" chunkIndex g.chunkCount)
  let cibIdx := chunkIndex / g.chunksPerCib
  let withinCib := chunkIndex % g.chunksPerCib
  if cibIdx ≥ g.cibCount then
    throw (spacemanRange "cib_index" cibIdx g.cibCount)
  let cib ← readObjBlock image (cibPaddr sm cibIdx) blockSize
  if withinCib ≥ ciCount cib then
    throw (spacemanRange "chunk_info_index" withinCib (ciCount cib))
  if ciBitmapAddr cib withinCib = 0 then
    return true
  let bitmap ← image.readBlock (ciBitmapAddr cib withinCib) blockSize
  let bit := block % g.blocksPerChunk
  return !bitmap[bit / 8]?.any (fun byte => bitIsSet byte (bit % 8))

/-- The test in the loop of `free_runs`.  A missing byte reads as allocated. -/
def bitIsFree (bitmap : Bytes) (freeBitIsOne : Bool) (i : Nat) : Bool :=
  let allocatedFill := if freeBitIsOne then 0x00 else 0xff
  bitIsSet (bitmap[i / 8]?.getD allocatedFill) (i % 8) == freeBitIsOne

/-- `free_runs`.  Its loop over `runs` and `start` is `scanRuns`. -/
def freeRuns (bitmap : Bytes) (blocks : Nat) (freeBitIsOne : Bool) : List (Nat × Nat) :=
  scanRuns (bitIsFree bitmap freeBitIsOne) blocks

/-- `push_free_run`. -/
def pushFreeRun (runs : List (Nat × Nat)) (first len : Nat) : List (Nat × Nat) :=
  if len = 0 then runs
  else
    match runs.getLast? with
    | some last =>
      if saturatingAdd last.1 last.2 = first then
        runs.dropLast ++ [(last.1, saturatingAdd last.2 len)]
      else runs ++ [(first, len)]
    | none => runs ++ [(first, len)]

section Enumeration

variable (image : Image) (blockSize : Nat)

/-- The free runs of one chunk. -/
def chunkRuns (bitmapAddr chunkBase blocksInChunk : Nat) (runs : List (Nat × Nat)) :
    Result (List (Nat × Nat)) := do
  if bitmapAddr = 0 then
    return pushFreeRun runs chunkBase blocksInChunk
  let bitmap ← image.readBlock bitmapAddr blockSize
  return (freeRuns bitmap blocksInChunk false).foldl
    (fun runs r => pushFreeRun runs (chunkBase + r.1) r.2) runs

/-- The loop over the entries of a chunk-info block, with `remaining` of them to go.
The two early returns are its `break`s. -/
def scanChunks (g : SpacemanGeometry) (cib : Bytes) (cibIdx : Nat) :
    (remaining within : Nat) → List (Nat × Nat) → Result (List (Nat × Nat))
  | 0, _, runs => return runs
  | remaining + 1, within, runs => do
    let chunkIndex := saturatingMul cibIdx g.chunksPerCib + within
    if chunkIndex ≥ g.chunkCount then
      return runs
    let chunkBase := saturatingMul chunkIndex g.blocksPerChunk
    if chunkBase ≥ g.blockCount then
      return runs
    let runs ← chunkRuns image blockSize (ciBitmapAddr cib within) chunkBase
      (min g.blocksPerChunk (g.blockCount - chunkBase)) runs
    scanChunks g cib cibIdx remaining (within + 1) runs

/-- `free_block_runs`. -/
def freeBlockRuns (spacemanPaddr : Nat) : Result (List (Nat × Nat)) := do
  let sm ← readObjBlock image spacemanPaddr blockSize
  let g := SpacemanGeometry.parse sm
  if g.blocksPerChunk = 0 ∨ g.chunksPerCib = 0 then
    throw (spacemanRange "sm_blocks_per_chunk/sm_chunks_per_cib" 0 1)
  if g.cabCount ≠ 0 then
    throw (.err (.unsupportedSpacemanCab g.cabCount))
  (List.range g.cibCount).foldlM (fun runs cibIdx => do
    let cib ← readObjBlock image (cibPaddr sm cibIdx) blockSize
    scanChunks image blockSize g cib cibIdx (ciCount cib) 0 runs) []

end Enumeration

/-! ### Runs that fit `u64` -/

/-- No run reaches past `u64::MAX`, so no saturating sum of `push_free_run` saturates. -/
def RunsFit (runs : List (Nat × Nat)) : Prop := ∀ r ∈ runs, r.1 + r.2 ≤ u64Max

theorem RunsFit.snoc {runs : List (Nat × Nat)} {first len : Nat} (h : RunsFit runs)
    (hfit : first + len ≤ u64Max) : RunsFit (runs ++ [(first, len)]) := by
  intro r hr
  rcases List.mem_append.mp hr with hr | hr
  · exact h r hr
  · rw [List.mem_singleton] at hr
    subst hr
    exact hfit

/-- Coalesced or not, the new run is added and nothing else. -/
theorem pushFreeRun_spec {runs : List (Nat × Nat)} {first len : Nat} (h : RunsFit runs)
    (hfit : first + len ≤ u64Max) :
    RunsFit (pushFreeRun runs first len) ∧
      ∀ i, InRuns (pushFreeRun runs first len) i ↔
        InRuns runs i ∨ (first ≤ i ∧ i < first + len) := by
  have happend : RunsFit (runs ++ [(first, len)]) ∧ ∀ i, InRuns (runs ++ [(first, len)]) i ↔
      InRuns runs i ∨ (first ≤ i ∧ i < first + len) :=
    ⟨h.snoc hfit, fun i => by rw [inRuns_append, inRuns_singleton]⟩
  unfold pushFreeRun
  by_cases hlen : len = 0
  · rw [if_pos hlen]
    refine ⟨h, fun i => ?_⟩
    constructor
    · exact Or.inl
    · rintro (hi | hi)
      · exact hi
      · omega
  rw [if_neg hlen]
  cases hlast : runs.getLast? with
  | none => exact happend
  | some last =>
    have hsplit : runs.dropLast ++ [last] = runs :=
      List.dropLast_append_getLast? last (by rw [hlast]; rfl)
    have hmem : last ∈ runs := by
      rw [← hsplit]
      simp
    have hle := h last hmem
    simp only
    rw [saturatingAdd_of_le hle]
    by_cases hmeet : last.1 + last.2 = first
    · have hsum : saturatingAdd last.2 len = last.2 + len := saturatingAdd_of_le (by omega)
      have hinit : RunsFit runs.dropLast := fun r hr => h r ((List.dropLast_sublist runs).subset hr)
      rw [if_pos hmeet, hsum]
      refine ⟨hinit.snoc (by omega), fun i => ?_⟩
      have hruns : InRuns runs i ↔ InRuns runs.dropLast i ∨ last.1 ≤ i ∧ i < last.1 + last.2 := by
        conv_lhs => rw [← hsplit]
        rw [inRuns_append, inRuns_singleton]
      rw [inRuns_append, inRuns_singleton, hruns, or_assoc]
      refine or_congr Iff.rfl ?_
      omega
    · rw [if_neg hmeet]
      exact happend

theorem foldl_pushFreeRun_spec (base : Nat) : ∀ (new runs : List (Nat × Nat)), RunsFit runs →
    (∀ r ∈ new, base + r.1 + r.2 ≤ u64Max) →
    RunsFit (new.foldl (fun runs r => pushFreeRun runs (base + r.1) r.2) runs) ∧
      ∀ i, InRuns (new.foldl (fun runs r => pushFreeRun runs (base + r.1) r.2) runs) i ↔
        InRuns runs i ∨ (base ≤ i ∧ InRuns new (i - base)) := by
  intro new
  induction new with
  | nil => intro runs h _; exact ⟨h, fun i => by simp⟩
  | cons r new ih =>
    intro runs h hnew
    obtain ⟨hfit, hin⟩ := pushFreeRun_spec h (hnew r List.mem_cons_self)
    obtain ⟨hfit', hin'⟩ := ih _ hfit (fun r' hr' => hnew r' (List.mem_cons_of_mem _ hr'))
    refine ⟨hfit', fun i => ?_⟩
    rw [List.foldl_cons, hin', hin, inRuns_cons, or_assoc, and_or_left]
    refine or_congr Iff.rfl (or_congr ?_ Iff.rfl)
    omega

/-! ### What an entry frees -/

section Entries

variable (image : Image) (blockSize : Nat)

/-- The entry's bitmap has the bit, and it is clear; or there is no bitmap. -/
def BitFree (bitmapAddr bit : Nat) : Prop :=
  bitmapAddr = 0 ∨ ∃ bitmap byte, image.readBlock bitmapAddr blockSize = .ok bitmap ∧
    bitmap[bit / 8]? = some byte ∧ bitIsSet byte (bit % 8) = false

/-- Entry `within` of chunk-info block `cibIdx` is the one of the chunk of `b`, and has
`b` free. -/
def EntryFrees (g : SpacemanGeometry) (cib : Bytes) (cibIdx within b : Nat) : Prop :=
  (cibIdx * g.chunksPerCib + within = b / g.blocksPerChunk ∧ b / g.blocksPerChunk < g.chunkCount ∧
      b < g.blockCount) ∧
    BitFree image blockSize (ciBitmapAddr cib within) (b % g.blocksPerChunk)

variable {image blockSize}

/-- The byte that stands for a missing one has no free bit. -/
theorem bitIsSet_fill : ∀ freeBitIsOne : Bool, ∀ k < 8,
    bitIsSet (if freeBitIsOne then 0x00 else 0xff) k = !freeBitIsOne := by decide

theorem bitIsFree_iff {bitmap : Bytes} {freeBitIsOne : Bool} {i : Nat} :
    bitIsFree bitmap freeBitIsOne i = true ↔
      ∃ byte, bitmap[i / 8]? = some byte ∧ bitIsSet byte (i % 8) = freeBitIsOne := by
  have hfill := bitIsSet_fill freeBitIsOne (i % 8) (Nat.mod_lt i (by decide))
  unfold bitIsFree
  cases hb : bitmap[i / 8]? with
  | none => simp [hfill]
  | some byte => simp

theorem chunkRuns_spec {bitmapAddr base blocks : Nat} {runs runs' : List (Nat × Nat)}
    (h : chunkRuns image blockSize bitmapAddr base blocks runs = .ok runs') (hfit : RunsFit runs)
    (hbase : base + blocks ≤ u64Max) :
    RunsFit runs' ∧ ∀ i, InRuns runs' i ↔ InRuns runs i ∨
      ((base ≤ i ∧ i < base + blocks) ∧ BitFree image blockSize bitmapAddr (i - base)) := by
  unfold chunkRuns at h
  by_cases hzero : bitmapAddr = 0
  · rw [if_pos hzero] at h
    cases h
    obtain ⟨hfit', hin⟩ := pushFreeRun_spec hfit hbase
    refine ⟨hfit', fun i => ?_⟩
    rw [hin]
    simp [BitFree, hzero]
  · rw [if_neg hzero, bind_eq_ok_iff] at h
    obtain ⟨bitmap, hread, h⟩ := h
    cases h
    have hbound : ∀ r ∈ freeRuns bitmap blocks false, base + r.1 + r.2 ≤ u64Max := by
      intro r hr
      have := (scanRuns_bound hr).2
      omega
    obtain ⟨hfit', hin⟩ := foldl_pushFreeRun_spec base _ runs hfit hbound
    refine ⟨hfit', fun i => ?_⟩
    have hfree : BitFree image blockSize bitmapAddr (i - base) ↔
        bitIsFree bitmap false (i - base) = true := by
      rw [bitIsFree_iff, BitFree, hread]
      simp [hzero]
    rw [hin, freeRuns, inRuns_scanRuns, hfree, and_assoc]
    refine or_congr Iff.rfl ?_
    constructor
    · rintro ⟨hlo, hhi, hf⟩
      exact ⟨hlo, by omega, hf⟩
    · rintro ⟨hlo, hhi, hf⟩
      exact ⟨hlo, by omega, hf⟩

/-- The blocks of a chunk, cut at the end of the device. -/
theorem mem_chunk_iff {bpc blockCount ci b : Nat} (hbpc : 0 < bpc) (hbase : ci * bpc < blockCount) :
    (ci * bpc ≤ b ∧ b < ci * bpc + min bpc (blockCount - ci * bpc)) ↔
      ci = b / bpc ∧ b < blockCount := by
  have hdiv := Nat.div_add_mod b bpc
  have hmod := Nat.mod_lt b hbpc
  constructor
  · rintro ⟨hlo, hhi⟩
    refine ⟨(Nat.div_eq_of_lt_le hlo ?_).symm, by omega⟩
    rw [Nat.succ_mul]
    omega
  · rintro ⟨rfl, hb⟩
    rw [Nat.mul_comm] at hdiv
    omega

/-- The index of the first chunk of a chunk-info block does not saturate. -/
theorem saturatingMul_cib {g : SpacemanGeometry} {cibIdx : Nat} (hcib : cibIdx < g.cibCount) :
    saturatingMul cibIdx g.chunksPerCib = cibIdx * g.chunksPerCib := by
  apply saturatingMul_of_le
  have h1 := g.chunksPerCib_lt
  have h2 := g.cibCount_lt
  have h3 : cibIdx * g.chunksPerCib ≤ (2 ^ 32 - 1) * (2 ^ 32 - 1) :=
    Nat.mul_le_mul (by omega) (by omega)
  exact le_trans h3 (by decide)

/-- A base address that lies on the device has not saturated. -/
theorem saturatingMul_of_lt_blockCount {g : SpacemanGeometry} {ci : Nat}
    (h : saturatingMul ci g.blocksPerChunk < g.blockCount) :
    saturatingMul ci g.blocksPerChunk = ci * g.blocksPerChunk := by
  apply saturatingMul_of_le
  by_contra hgt
  have hsat : saturatingMul ci g.blocksPerChunk = u64Max := Nat.min_eq_right (by omega)
  have hcount := g.blockCount_lt
  rw [hsat] at h
  unfold u64Max at h
  omega

/-- What an entry frees, by the addresses of its chunk. -/
theorem entryFrees_iff {g : SpacemanGeometry} {cib : Bytes} {cibIdx within b : Nat}
    (hbpc : 0 < g.blocksPerChunk) (hchunk : cibIdx * g.chunksPerCib + within < g.chunkCount)
    (hbase : (cibIdx * g.chunksPerCib + within) * g.blocksPerChunk < g.blockCount) :
    EntryFrees image blockSize g cib cibIdx within b ↔
      ((cibIdx * g.chunksPerCib + within) * g.blocksPerChunk ≤ b ∧
        b < (cibIdx * g.chunksPerCib + within) * g.blocksPerChunk + min g.blocksPerChunk
          (g.blockCount - (cibIdx * g.chunksPerCib + within) * g.blocksPerChunk)) ∧
      BitFree image blockSize (ciBitmapAddr cib within)
        (b - (cibIdx * g.chunksPerCib + within) * g.blocksPerChunk) := by
  rw [mem_chunk_iff hbpc hbase, EntryFrees]
  have hbit : cibIdx * g.chunksPerCib + within = b / g.blocksPerChunk →
      b - (cibIdx * g.chunksPerCib + within) * g.blocksPerChunk = b % g.blocksPerChunk := by
    intro heq
    have hdiv := Nat.div_add_mod b g.blocksPerChunk
    rw [heq, Nat.mul_comm]
    omega
  constructor
  · rintro ⟨⟨heq, _, hlt⟩, hfree⟩
    exact ⟨⟨heq, hlt⟩, by rwa [hbit heq]⟩
  · rintro ⟨⟨heq, hlt⟩, hfree⟩
    exact ⟨⟨heq, by omega, hlt⟩, by rwa [hbit heq] at hfree⟩

/-- One round: the loop ends behind the last chunk or the end of the device, or pushes the
runs of a chunk that starts before both. -/
theorem scanChunks_succ {g : SpacemanGeometry} {cib : Bytes} {cibIdx remaining within : Nat}
    {runs runs' : List (Nat × Nat)} (hcib : cibIdx < g.cibCount)
    (h : scanChunks image blockSize g cib cibIdx (remaining + 1) within runs = .ok runs') :
    (runs' = runs ∧ (g.chunkCount ≤ cibIdx * g.chunksPerCib + within ∨
      g.blockCount ≤ (cibIdx * g.chunksPerCib + within) * g.blocksPerChunk)) ∨
    ∃ mid, cibIdx * g.chunksPerCib + within < g.chunkCount ∧
      (cibIdx * g.chunksPerCib + within) * g.blocksPerChunk < g.blockCount ∧
      chunkRuns image blockSize (ciBitmapAddr cib within)
        ((cibIdx * g.chunksPerCib + within) * g.blocksPerChunk)
        (min g.blocksPerChunk
          (g.blockCount - (cibIdx * g.chunksPerCib + within) * g.blocksPerChunk)) runs = .ok mid ∧
      scanChunks image blockSize g cib cibIdx remaining (within + 1) mid = .ok runs' := by
  rw [scanChunks, saturatingMul_cib hcib] at h
  by_cases hchunk : cibIdx * g.chunksPerCib + within ≥ g.chunkCount
  · rw [if_pos hchunk] at h
    cases h
    exact Or.inl ⟨rfl, Or.inl hchunk⟩
  rw [if_neg hchunk] at h
  by_cases hbase : saturatingMul (cibIdx * g.chunksPerCib + within) g.blocksPerChunk
      ≥ g.blockCount
  · rw [if_pos hbase] at h
    cases h
    exact Or.inl ⟨rfl, Or.inr (le_trans hbase (Nat.min_le_left _ _))⟩
  rw [if_neg hbase, bind_eq_ok_iff] at h
  obtain ⟨mid, hmid, hrest⟩ := h
  rw [saturatingMul_of_lt_blockCount (Nat.not_le.mp hbase)] at hmid hbase
  exact Or.inr ⟨mid, Nat.not_le.mp hchunk, Nat.not_le.mp hbase, hmid, hrest⟩

/-- The entries from `within` on are enumerated, each with the blocks it frees. -/
theorem scanChunks_spec {g : SpacemanGeometry} {cib : Bytes} {cibIdx : Nat}
    (hbpc : 0 < g.blocksPerChunk) (hcib : cibIdx < g.cibCount) :
    ∀ (remaining within : Nat) (runs runs' : List (Nat × Nat)), RunsFit runs →
      scanChunks image blockSize g cib cibIdx remaining within runs = .ok runs' →
      RunsFit runs' ∧ ∀ b, InRuns runs' b ↔ InRuns runs b ∨
        ∃ w, (within ≤ w ∧ w < within + remaining) ∧
          EntryFrees image blockSize g cib cibIdx w b := by
  intro remaining
  induction remaining with
  | zero =>
    intro within runs runs' hfit h
    cases h
    refine ⟨hfit, fun b => ?_⟩
    constructor
    · exact Or.inl
    · rintro (hb | ⟨w, hw, _⟩)
      · exact hb
      · omega
  | succ remaining ih =>
    intro within runs runs' hfit h
    rcases scanChunks_succ hcib h with ⟨rfl, hpast⟩ | ⟨mid, hchunk, hbase, hmid, hrest⟩
    · -- no block from here on is of an existing chunk and on the device
      refine ⟨hfit, fun b => ⟨Or.inl, ?_⟩⟩
      rintro (hb | ⟨w, hw, ⟨heq, hlt, hdevice⟩, _⟩)
      · exact hb
      · have hle : (cibIdx * g.chunksPerCib + within) * g.blocksPerChunk ≤ b :=
          le_trans (Nat.mul_le_mul_right _ (by omega)) (Nat.div_mul_le_self b g.blocksPerChunk)
        omega
    · have hcount := g.blockCount_lt
      obtain ⟨hfit', hin⟩ := chunkRuns_spec hmid hfit (by unfold u64Max; omega)
      obtain ⟨hfit'', hin'⟩ := ih (within + 1) mid runs' hfit' hrest
      refine ⟨hfit'', fun b => ?_⟩
      rw [hin', hin, ← entryFrees_iff hbpc hchunk hbase, or_assoc]
      refine or_congr Iff.rfl ⟨?_, ?_⟩
      · rintro (hnow | ⟨w, hw, hlater⟩)
        · exact ⟨within, by omega, hnow⟩
        · exact ⟨w, by omega, hlater⟩
      · rintro ⟨w, hw, hfrees⟩
        by_cases hnow : w = within
        · subst hnow
          exact Or.inl hfrees
        · exact Or.inr ⟨w, by omega, hfrees⟩

end Entries

/-! ### The two queries -/

section Queries

variable (image : Image) (blockSize : Nat)

/-- Entry `within` of chunk-info block `cibIdx` is listed for the chunk of `b`, and has
`b` free. -/
def FreedBy (sm : Bytes) (cibIdx within b : Nat) : Prop :=
  cibIdx < (SpacemanGeometry.parse sm).cibCount ∧
    ∃ cib, readObjBlock image (cibPaddr sm cibIdx) blockSize = .ok cib ∧ within < ciCount cib ∧
      EntryFrees image blockSize (.parse sm) cib cibIdx within b

variable {image blockSize}

/-- The chunk-info blocks below `n` are enumerated, each with all its entries. -/
theorem foldlM_scanChunks_spec {sm : Bytes} (hbpc : 0 < (SpacemanGeometry.parse sm).blocksPerChunk) :
    ∀ (n : Nat) (runs : List (Nat × Nat)), n ≤ (SpacemanGeometry.parse sm).cibCount →
      (List.range n).foldlM (fun runs cibIdx => do
        let cib ← readObjBlock image (cibPaddr sm cibIdx) blockSize
        scanChunks image blockSize (.parse sm) cib cibIdx (ciCount cib) 0 runs) [] = .ok runs →
      RunsFit runs ∧ ∀ b, InRuns runs b ↔
        ∃ cibIdx within, cibIdx < n ∧ FreedBy image blockSize sm cibIdx within b := by
  intro n
  induction n with
  | zero =>
    intro runs _ h
    cases h
    exact ⟨fun r hr => absurd hr (by simp), fun b => by simp⟩
  | succ n ih =>
    intro runs hn h
    rw [List.range_succ, List.foldlM_append, bind_eq_ok_iff] at h
    obtain ⟨mid, hmid, hlast⟩ := h
    obtain ⟨hfit, hin⟩ := ih mid (by omega) hmid
    rw [List.foldlM_cons, bind_eq_ok_iff] at hlast
    obtain ⟨runs', hcib, hdone⟩ := hlast
    cases hdone
    rw [bind_eq_ok_iff] at hcib
    obtain ⟨cib, hread, hscan⟩ := hcib
    obtain ⟨hfit', hin'⟩ := scanChunks_spec hbpc (by omega) (ciCount cib) 0 mid runs hfit hscan
    refine ⟨hfit', fun b => ?_⟩
    rw [hin', hin]
    constructor
    · rintro (⟨cibIdx, within, hlt, hf⟩ | ⟨w, hw, hf⟩)
      · exact ⟨cibIdx, within, by omega, hf⟩
      · exact ⟨n, w, by omega, by omega, cib, hread, by omega, hf⟩
    · rintro ⟨cibIdx, within, hlt, hf⟩
      by_cases hnew : cibIdx = n
      · subst hnew
        obtain ⟨_, cib', hread', hw, hfrees⟩ := hf
        rw [hread, Except.ok.injEq] at hread'
        subst hread'
        exact Or.inr ⟨within, by omega, hfrees⟩
      · exact Or.inl ⟨cibIdx, within, by omega, hf⟩

/-- **A block is in a run exactly if some entry frees it.** -/
theorem inRuns_freeBlockRuns {spacemanPaddr : Nat} {sm : Bytes} {runs : List (Nat × Nat)}
    (hsm : readObjBlock image spacemanPaddr blockSize = .ok sm)
    (h : freeBlockRuns image blockSize spacemanPaddr = .ok runs) (b : Nat) :
    InRuns runs b ↔ ∃ cibIdx within, FreedBy image blockSize sm cibIdx within b := by
  rw [freeBlockRuns, hsm] at h
  simp only [ok_bind, throw_eq_error, error_bind, ite_error_eq_ok_iff] at h
  obtain ⟨hgeom, _, hloop⟩ := h
  rw [(foldlM_scanChunks_spec (by omega) _ runs le_rfl hloop).2 b]
  constructor
  · rintro ⟨cibIdx, within, _, hf⟩
    exact ⟨cibIdx, within, hf⟩
  · rintro ⟨cibIdx, within, hf⟩
    exact ⟨cibIdx, within, hf.1, hf⟩

/-- The chunk-info block and the entry that division finds for a block. -/
def ownCib (sm : Bytes) (b : Nat) : Nat :=
  b / (SpacemanGeometry.parse sm).blocksPerChunk / (SpacemanGeometry.parse sm).chunksPerCib

def ownWithin (sm : Bytes) (b : Nat) : Nat :=
  b / (SpacemanGeometry.parse sm).blocksPerChunk % (SpacemanGeometry.parse sm).chunksPerCib

/-- The single query: the geometry it has checked, and the entry it has read. -/
theorem isBlockFree_inv {spacemanPaddr b : Nat} {sm : Bytes} {f : Bool}
    (hsm : readObjBlock image spacemanPaddr blockSize = .ok sm)
    (h : isBlockFree image spacemanPaddr b blockSize = .ok f) :
    (0 < (SpacemanGeometry.parse sm).blocksPerChunk ∧ 0 < (SpacemanGeometry.parse sm).chunksPerCib ∧
      b < (SpacemanGeometry.parse sm).blockCount ∧
      b / (SpacemanGeometry.parse sm).blocksPerChunk < (SpacemanGeometry.parse sm).chunkCount ∧
      ownCib sm b < (SpacemanGeometry.parse sm).cibCount) ∧
    ∃ cib, readObjBlock image (cibPaddr sm (ownCib sm b)) blockSize = .ok cib ∧
      ownWithin sm b < ciCount cib ∧
      (ciBitmapAddr cib (ownWithin sm b) = 0 ∧ f = true ∨
        ciBitmapAddr cib (ownWithin sm b) ≠ 0 ∧
          ∃ bitmap, image.readBlock (ciBitmapAddr cib (ownWithin sm b)) blockSize = .ok bitmap ∧
            f = !bitmap[b % (SpacemanGeometry.parse sm).blocksPerChunk / 8]?.any (fun byte =>
              bitIsSet byte (b % (SpacemanGeometry.parse sm).blocksPerChunk % 8))) := by
  rw [isBlockFree, hsm] at h
  simp only [ok_bind, throw_eq_error, error_bind, ite_error_eq_ok_iff, bind_eq_ok_iff] at h
  obtain ⟨hgeom, hblock, _, hchunk, hcib, cib, hread, hwithin, h⟩ := h
  refine ⟨⟨by omega, by omega, by omega, by omega, ?_⟩, cib, hread, Nat.not_le.mp hwithin, ?_⟩
  · exact Nat.not_le.mp hcib
  · by_cases hzero : ciBitmapAddr cib (ownWithin sm b) = 0
    · have hzero' := hzero
      unfold ownWithin at hzero'
      rw [if_pos hzero'] at h
      exact Or.inl ⟨hzero, (Except.ok.inj h).symm⟩
    · have hzero' := hzero
      unfold ownWithin at hzero'
      rw [if_neg hzero', bind_eq_ok_iff] at h
      obtain ⟨bitmap, hbitmap, h⟩ := h
      exact Or.inr ⟨hzero, bitmap, hbitmap, (Except.ok.inj h).symm⟩

end Queries

/-! ### Where they agree -/

section Agreement

variable (image : Image) (blockSize : Nat)

/-- The bitmap of the entry that division finds has this byte, or none, for the bit
of `b`. -/
def OwnByte (sm : Bytes) (b : Nat) (byte : Option UInt8) : Prop :=
  ∃ cib bitmap, readObjBlock image (cibPaddr sm (ownCib sm b)) blockSize = .ok cib ∧
    ciBitmapAddr cib (ownWithin sm b) ≠ 0 ∧
    image.readBlock (ciBitmapAddr cib (ownWithin sm b)) blockSize = .ok bitmap ∧
    bitmap[b % (SpacemanGeometry.parse sm).blocksPerChunk / 8]? = byte

/-- An earlier chunk-info block, longer than `chunks_per_cib`, frees `b` as well. -/
def EarlierFrees (sm : Bytes) (b : Nat) : Prop :=
  ∃ cibIdx within, cibIdx < ownCib sm b ∧ FreedBy image blockSize sm cibIdx within b

variable {image blockSize}

/-- An entry listed for the chunk of `b` is the one that division finds, or stands in
an earlier chunk-info block. -/
theorem freedBy_own_or_earlier {sm : Bytes} {cibIdx within b : Nat}
    (hcpc : 0 < (SpacemanGeometry.parse sm).chunksPerCib)
    (h : FreedBy image blockSize sm cibIdx within b) :
    (cibIdx = ownCib sm b ∧ within = ownWithin sm b) ∨ cibIdx < ownCib sm b := by
  obtain ⟨_, _, _, _, ⟨heq, _, _⟩, _⟩ := h
  have hle : cibIdx ≤ ownCib sm b := by
    rw [ownCib, Nat.le_div_iff_mul_le hcpc]
    omega
  by_cases hown : cibIdx = ownCib sm b
  · refine Or.inl ⟨hown, ?_⟩
    have hdiv := Nat.div_add_mod (b / (SpacemanGeometry.parse sm).blocksPerChunk)
      (SpacemanGeometry.parse sm).chunksPerCib
    subst hown
    rw [ownCib, Nat.mul_comm] at heq
    rw [ownWithin]
    omega
  · exact Or.inr (by omega)

/-- The entry that division finds is one of those enumerated, so the runs hold a block
if that entry frees it or an earlier one does. -/
theorem inRuns_iff_own_or_earlier {spacemanPaddr b : Nat} {sm cib : Bytes}
    {runs : List (Nat × Nat)} (hsm : readObjBlock image spacemanPaddr blockSize = .ok sm)
    (hruns : freeBlockRuns image blockSize spacemanPaddr = .ok runs)
    (hcpc : 0 < (SpacemanGeometry.parse sm).chunksPerCib)
    (hchunk : b / (SpacemanGeometry.parse sm).blocksPerChunk
      < (SpacemanGeometry.parse sm).chunkCount ∧ b < (SpacemanGeometry.parse sm).blockCount)
    (hcib : ownCib sm b < (SpacemanGeometry.parse sm).cibCount)
    (hread : readObjBlock image (cibPaddr sm (ownCib sm b)) blockSize = .ok cib)
    (hwithin : ownWithin sm b < ciCount cib) :
    InRuns runs b ↔
      BitFree image blockSize (ciBitmapAddr cib (ownWithin sm b))
        (b % (SpacemanGeometry.parse sm).blocksPerChunk) ∨ EarlierFrees image blockSize sm b := by
  rw [inRuns_freeBlockRuns hsm hruns]
  constructor
  · rintro ⟨cibIdx, within, hf⟩
    rcases freedBy_own_or_earlier hcpc hf with ⟨rfl, rfl⟩ | hlt
    · obtain ⟨_, cib', hread', _, _, hbit⟩ := hf
      rw [hread, Except.ok.injEq] at hread'
      subst hread'
      exact Or.inl hbit
    · exact Or.inr ⟨cibIdx, within, hlt, hf⟩
  · rintro (hbit | ⟨cibIdx, within, _, hf⟩)
    · refine ⟨_, _, hcib, cib, hread, hwithin, ⟨?_, hchunk⟩, hbit⟩
      rw [ownCib, ownWithin, Nat.mul_comm]
      exact Nat.div_add_mod _ _
    · exact ⟨cibIdx, within, hf⟩

theorem not_ownByte {sm cib : Bytes} {b : Nat} {byte : Option UInt8}
    (hread : readObjBlock image (cibPaddr sm (ownCib sm b)) blockSize = .ok cib)
    (hzero : ciBitmapAddr cib (ownWithin sm b) = 0) : ¬ OwnByte image blockSize sm b byte := by
  rintro ⟨cib', bitmap, hread', hne, _⟩
  rw [hread, Except.ok.injEq] at hread'
  subst hread'
  exact hne hzero

theorem ownByte_iff {sm cib bitmap : Bytes} {b : Nat} {byte : Option UInt8}
    (hread : readObjBlock image (cibPaddr sm (ownCib sm b)) blockSize = .ok cib)
    (hne : ciBitmapAddr cib (ownWithin sm b) ≠ 0)
    (hbitmap : image.readBlock (ciBitmapAddr cib (ownWithin sm b)) blockSize = .ok bitmap) :
    OwnByte image blockSize sm b byte ↔
      bitmap[b % (SpacemanGeometry.parse sm).blocksPerChunk / 8]? = byte := by
  constructor
  · rintro ⟨cib', bitmap', hread', _, hbitmap', hbyte⟩
    rw [hread, Except.ok.injEq] at hread'
    subst hread'
    rw [hbitmap, Except.ok.injEq] at hbitmap'
    subst hbitmap'
    exact hbyte
  · intro hbyte
    exact ⟨cib, bitmap, hread, hne, hbitmap, hbyte⟩

/-- **Where the two queries agree.**  They differ on a block exactly if the bitmap of
its entry has no byte for it and no earlier chunk-info block frees it, or its bit is
set and an earlier one does. -/
theorem free_queries_agree_iff {spacemanPaddr b : Nat} {sm : Bytes} {runs : List (Nat × Nat)}
    {f : Bool} (hsm : readObjBlock image spacemanPaddr blockSize = .ok sm)
    (hruns : freeBlockRuns image blockSize spacemanPaddr = .ok runs)
    (hfree : isBlockFree image spacemanPaddr b blockSize = .ok f) :
    (f = true ↔ InRuns runs b) ↔
      (OwnByte image blockSize sm b none → EarlierFrees image blockSize sm b) ∧
      (∀ byte, OwnByte image blockSize sm b (some byte) →
        bitIsSet byte (b % (SpacemanGeometry.parse sm).blocksPerChunk % 8) = true →
        ¬ EarlierFrees image blockSize sm b) := by
  obtain ⟨⟨_, hcpc, hblock, hchunk, hcib⟩, cib, hread, hwithin, hcases⟩ :=
    isBlockFree_inv hsm hfree
  rw [inRuns_iff_own_or_earlier hsm hruns hcpc ⟨hchunk, hblock⟩ hcib hread hwithin]
  rcases hcases with ⟨hzero, rfl⟩ | ⟨hne, bitmap, hbitmap, rfl⟩
  · -- no bitmap: free for both
    have hbit : BitFree image blockSize (ciBitmapAddr cib (ownWithin sm b))
        (b % (SpacemanGeometry.parse sm).blocksPerChunk) := Or.inl hzero
    simp [hbit, not_ownByte hread hzero]
  · rw [BitFree, hbitmap]
    simp only [ownByte_iff hread hne hbitmap, hne, false_or]
    cases hbyte : bitmap[b % (SpacemanGeometry.parse sm).blocksPerChunk / 8]? with
    | none =>
      -- past the end of the bitmap: free for one, allocated for the other
      simp [hbyte]
    | some byte =>
      cases hset : bitIsSet byte (b % (SpacemanGeometry.parse sm).blocksPerChunk % 8) <;>
        simp [hbyte, hset]

end Agreement

/-! ### A bitmap that is too short

A chunk of 1032 blocks over a bitmap block of 128 bytes, all of it clear. -/

def spacemanBlock (blockSize blocksPerChunk chunksPerCib blockCount chunkCount : Nat)
    (cibs : List Nat) : Bytes :=
  sealBlock (padTo (blockSize - 8) (objHdr 1 1 0x80000005 0 ++ toLeBytes 4 blockSize ++
    toLeBytes 4 blocksPerChunk ++ toLeBytes 4 chunksPerCib ++ toLeBytes 4 0 ++
    toLeBytes 8 blockCount ++ toLeBytes 8 chunkCount ++ toLeBytes 4 cibs.length ++ toLeBytes 4 0 ++
    toLeBytes 8 0 ++ toLeBytes 4 88 ++ toLeBytes 4 0 ++ cibs.flatMap (toLeBytes 8)))

def cibBlock (blockSize : Nat) (bitmapAddrs : List Nat) : Bytes :=
  sealBlock (padTo (blockSize - 8) (objHdr 2 1 0x40000007 0 ++ toLeBytes 4 0 ++
    toLeBytes 4 bitmapAddrs.length ++
    bitmapAddrs.flatMap (fun a => List.replicate 24 0 ++ toLeBytes 8 a)))

def shortSpaceman : Bytes := spacemanBlock 128 1032 1 1032 1 [1]

def shortBitmapImage : Image :=
  ⟨shortSpaceman ++ cibBlock 128 [2] ++ List.replicate 128 0, by decide +kernel⟩

theorem freeBlockRuns_shortBitmap : freeBlockRuns shortBitmapImage 128 0 = .ok [(0, 1024)] := by
  decide +kernel

/-- Inside the bitmap the queries agree. -/
theorem free_queries_agree_in_bitmap :
    isBlockFree shortBitmapImage 0 5 128 = .ok true ∧ (true = true ↔ InRuns [(0, 1024)] 5) := by
  have hsm : readObjBlock shortBitmapImage 0 128 = .ok shortSpaceman := by decide +kernel
  have hfree : isBlockFree shortBitmapImage 0 5 128 = .ok true := by decide +kernel
  have hcib : readObjBlock shortBitmapImage (cibPaddr shortSpaceman (ownCib shortSpaceman 5)) 128
      = .ok (cibBlock 128 [2]) := by
    decide +kernel
  have hbitmap : shortBitmapImage.readBlock
      (ciBitmapAddr (cibBlock 128 [2]) (ownWithin shortSpaceman 5)) 128
      = .ok (List.replicate 128 0) := by
    decide +kernel
  have hown : ∀ byte, OwnByte shortBitmapImage 128 shortSpaceman 5 byte → byte = some 0 := by
    rintro byte ⟨cib, bitmap, hcib', _, hbitmap', hbyte⟩
    rw [hcib, Except.ok.injEq] at hcib'
    subst hcib'
    rw [hbitmap, Except.ok.injEq] at hbitmap'
    subst hbitmap'
    rw [← hbyte]
    decide +kernel
  refine ⟨hfree, (free_queries_agree_iff hsm freeBlockRuns_shortBitmap hfree).mpr ⟨?_, ?_⟩⟩
  · intro hnone
    exact absurd (hown none hnone) (by simp)
  · intro byte hbyte hset
    have hzero : byte = 0 := by simpa using hown _ hbyte
    subst hzero
    exact absurd hset (by decide +kernel)

/-- Block `1030` is free by the one query and in no run of the other. -/
theorem free_queries_differ :
    isBlockFree shortBitmapImage 0 1030 128 = .ok true ∧
      freeBlockRuns shortBitmapImage 128 0 = .ok [(0, 1024)] ∧ ¬ InRuns [(0, 1024)] 1030 := by
  refine ⟨?_, freeBlockRuns_shortBitmap, ?_⟩ <;> decide +kernel

end ApfsForensic
