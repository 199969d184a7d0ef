import ApfsForensic.Core.Spaceman
import Mathlib.Data.Nat.Bitwise

/-!
# Free space

What the two queries of `core/src/spaceman.rs` return, against the entries that are
stored.

`free_runs` returns the maximal runs of the free bits of one bitmap, and a bit beyond the
end of the bitmap is not free (`free_runs_canonical`).

`free_block_runs` pushes the runs of one chunk after the other.  `Apart` and `EndBy` are
the invariant of its loops: the runs so far are apart, and end where the next chunk starts
or before.  It holds as long as no chunk-info block lists more chunks than its share;
then the result is the list of maximal runs (`free_block_runs_maximal`).

`is_block_free` reads the address of a chunk-info block, an entry of it and a bit.  A read
past the end of a block yields zero, and zero means free (`free_not_fabricated_iff`).
-/

namespace ApfsForensic

open Walk

/-! ### The runs of one bitmap -/

/-- Bit `i` of a bitmap, the least significant bit of a byte first. -/
def bitAt (bitmap : Bytes) (i : Nat) : Option Bool :=
  bitmap[i / 8]?.map (fun byte => byte.toNat.testBit (i % 8))

theorem bitIsSet_eq_testBit (byte : UInt8) {k : Nat} (hk : k < 8) :
    bitIsSet byte k = byte.toNat.testBit k := by
  have hone : (1 <<< UInt8.ofNat k : UInt8).toNat = 2 ^ k := by
    rw [UInt8.toNat_shiftLeft, UInt8.toNat_ofNat', UInt8.toNat_one, Nat.one_shiftLeft,
      Nat.mod_eq_of_lt (by omega : k < 2 ^ 8), Nat.mod_eq_of_lt hk,
      Nat.mod_eq_of_lt (Nat.pow_lt_pow_right (by decide) hk)]
  rw [bitIsSet, Bool.eq_iff_iff, bne_iff_ne, ne_eq, ← UInt8.toNat_inj, UInt8.toNat_and, hone,
    Nat.and_two_pow]
  cases byte.toNat.testBit k <;> simp

theorem bitIsFree_iff_bitAt {bitmap : Bytes} {freeBitIsOne : Bool} {i : Nat} :
    bitIsFree bitmap freeBitIsOne i = true ↔ bitAt bitmap i = some freeBitIsOne := by
  have hk : i % 8 < 8 := Nat.mod_lt i (by decide)
  simp only [bitIsFree_iff, bitAt, Option.map_eq_some_iff, bitIsSet_eq_testBit _ hk]

/-- **The runs of `free_runs` are the maximal runs of the free bits.**  Of all lists of runs
it is the one whose runs are ascending, not empty and never adjacent, and cover the indices
below `blocks` whose bit lies inside the bitmap and has the free polarity. -/
theorem free_runs_canonical (bitmap : Bytes) (blocks : Nat) (freeBitIsOne : Bool)
    (runs : List (Nat × Nat)) :
    runs = freeRuns bitmap blocks freeBitIsOne ↔
      MaximalRuns (fun i => i < blocks ∧ bitAt bitmap i = some freeBitIsOne) runs := by
  have hmax : MaximalRuns (fun i => i < blocks ∧ bitAt bitmap i = some freeBitIsOne)
      (freeRuns bitmap blocks freeBitIsOne) := by
    refine ⟨scanRuns_apart _ blocks, fun i => ?_⟩
    rw [freeRuns, inRuns_scanRuns, bitIsFree_iff_bitAt]
  constructor
  · rintro rfl
    exact hmax
  · intro h
    exact h.unique hmax

/-! ### Runs in order -/

/-- A run pushed behind all others keeps them apart. -/
theorem pushFreeRun_apart {runs : List (Nat × Nat)} {first len : Nat} (h : Apart runs)
    (hend : EndBy first runs) (hfit : first + len ≤ u64Max) :
    Apart (pushFreeRun runs first len) ∧ EndBy (first + len) (pushFreeRun runs first len) := by
  have hend' : EndBy (first + len) runs := hend.mono (by omega)
  unfold pushFreeRun
  by_cases hlen : len = 0
  · rw [if_pos hlen]
    exact ⟨h, hend'⟩
  rw [if_neg hlen]
  cases hlast : runs.getLast? with
  | none =>
    rw [List.getLast?_eq_none_iff] at hlast
    subst hlast
    exact ⟨h.snoc (by simp) (by omega), hend'.snoc le_rfl⟩
  | some last =>
    obtain ⟨init, rfl⟩ := List.getLast?_eq_some_iff.mp hlast
    have hle : last.1 + last.2 ≤ first := hend last (by simp)
    have hpos : 0 < last.2 := h.length_pos last (by simp)
    obtain ⟨hinit, hbefore⟩ := h.init
    simp only
    rw [saturatingAdd_of_le (by omega), List.dropLast_concat]
    by_cases hmeet : last.1 + last.2 = first
    · have hsum : saturatingAdd last.2 len = last.2 + len := saturatingAdd_of_le (by omega)
      rw [if_pos hmeet, hsum]
      refine ⟨hinit.snoc hbefore (by omega), EndBy.snoc ?_ (by omega)⟩
      exact fun r hr => hend' r (List.mem_append_left _ hr)
    · rw [if_neg hmeet]
      refine ⟨h.snoc ?_ (by omega), hend'.snoc le_rfl⟩
      intro r hr
      rcases List.mem_append.mp hr with hr | hr
      · have := hbefore r hr
        omega
      · rw [List.mem_singleton] at hr
        subst hr
        omega

theorem foldl_pushFreeRun_apart {base top : Nat} (htop : top ≤ u64Max) :
    ∀ {new runs : List (Nat × Nat)} {low : Nat}, Apart new → (∀ r ∈ new, low ≤ r.1) →
      EndBy top (new.map (fun r => (base + r.1, r.2))) → Apart runs → EndBy (base + low) runs →
      base + low ≤ top →
      Apart (new.foldl (fun runs r => pushFreeRun runs (base + r.1) r.2) runs) ∧
        EndBy top (new.foldl (fun runs r => pushFreeRun runs (base + r.1) r.2) runs) := by
  intro new
  induction new with
  | nil => intro runs low _ _ _ h hend hle; exact ⟨h, hend.mono hle⟩
  | cons r new ih =>
    intro runs low hnew hlow hin h hend hle
    have hr : base + r.1 + r.2 ≤ top := hin _ List.mem_cons_self
    have hfirst : EndBy (base + r.1) runs :=
      hend.mono (Nat.add_le_add_left (hlow r List.mem_cons_self) base)
    obtain ⟨h', hend'⟩ := pushFreeRun_apart h hfirst (show base + r.1 + r.2 ≤ u64Max by omega)
    rw [List.foldl_cons]
    -- the others start behind this one
    refine ih hnew.tail (fun r' hr' => ?_) (fun r' hr' => hin r' (List.mem_cons_of_mem _ hr')) h'
      (hend'.mono (by omega)) (show base + (r.1 + r.2) ≤ top by omega)
    have := (List.pairwise_cons.mp hnew.gap).1 r' hr'
    omega

section Loops

variable {image : Image} {blockSize : Nat}

theorem chunkRuns_apart {bitmapAddr base blocks : Nat} {runs runs' : List (Nat × Nat)}
    (h : chunkRuns image blockSize bitmapAddr base blocks runs = .ok runs') (hruns : Apart runs)
    (hend : EndBy base runs) (hfit : base + blocks ≤ u64Max) :
    Apart runs' ∧ EndBy (base + blocks) runs' := by
  unfold chunkRuns at h
  by_cases hzero : bitmapAddr = 0
  · rw [if_pos hzero] at h
    cases h
    exact pushFreeRun_apart hruns hend hfit
  · rw [if_neg hzero, bind_eq_ok_iff] at h
    obtain ⟨bitmap, _, h⟩ := h
    cases h
    refine foldl_pushFreeRun_apart hfit (scanRuns_apart _ _) (fun r _ => Nat.zero_le r.1) ?_ hruns
      hend (Nat.le_add_right base blocks)
    intro r hr
    obtain ⟨r', hr', rfl⟩ := List.mem_map.mp hr
    have := (scanRuns_bound hr').2
    show base + r'.1 + r'.2 ≤ base + blocks
    omega

/-- The entries from `within` on push the runs of their chunks. -/
theorem scanChunks_apart {g : SpacemanGeometry} {cib : Bytes} {cibIdx : Nat}
    (hcib : cibIdx < g.cibCount) :
    ∀ (remaining within : Nat) (runs runs' : List (Nat × Nat)), Apart runs →
      EndBy ((cibIdx * g.chunksPerCib + within) * g.blocksPerChunk) runs →
      scanChunks image blockSize g cib cibIdx remaining within runs = .ok runs' →
      Apart runs' ∧
        EndBy ((cibIdx * g.chunksPerCib + (within + remaining)) * g.blocksPerChunk) runs' := by
  intro remaining
  induction remaining with
  | zero =>
    intro within runs runs' hruns hend h
    cases h
    exact ⟨hruns, hend⟩
  | succ remaining ih =>
    intro within runs runs' hruns hend h
    rcases scanChunks_succ hcib h with ⟨rfl, _⟩ | ⟨mid, _, hbase, hmid, hrest⟩
    · exact ⟨hruns, hend.mono (Nat.mul_le_mul_right _ (by omega))⟩
    · have hcount := g.blockCount_lt
      obtain ⟨hmid', hendmid⟩ := chunkRuns_apart hmid hruns hend (by unfold u64Max; omega)
      have hnext : (cibIdx * g.chunksPerCib + within) * g.blocksPerChunk
            + min g.blocksPerChunk
              (g.blockCount - (cibIdx * g.chunksPerCib + within) * g.blocksPerChunk)
          ≤ (cibIdx * g.chunksPerCib + (within + 1)) * g.blocksPerChunk := by
        rw [← Nat.add_assoc, Nat.succ_mul]
        omega
      have hdone := ih (within + 1) mid runs' hmid' (hendmid.mono hnext) hrest
      rwa [Nat.add_assoc within 1 remaining, Nat.add_comm 1 remaining] at hdone

/-- The chunk-info blocks below `n`, none of them with more than its share. -/
theorem foldlM_scanChunks_apart {sm : Bytes} :
    ∀ (n : Nat) (runs : List (Nat × Nat)), n ≤ (SpacemanGeometry.parse sm).cibCount →
      (∀ cibIdx < n, ∀ cib, readObjBlock image (cibPaddr sm cibIdx) blockSize = .ok cib →
        ciCount cib ≤ (SpacemanGeometry.parse sm).chunksPerCib) →
      (List.range n).foldlM (fun runs cibIdx => do
        let cib ← readObjBlock image (cibPaddr sm cibIdx) blockSize
        scanChunks image blockSize (.parse sm) cib cibIdx (ciCount cib) 0 runs) [] = .ok runs →
      Apart runs ∧ EndBy (n * (SpacemanGeometry.parse sm).chunksPerCib
        * (SpacemanGeometry.parse sm).blocksPerChunk) runs := by
  intro n
  induction n with
  | zero =>
    intro runs _ _ h
    cases h
    exact ⟨Apart.nil, fun r hr => absurd hr (by simp)⟩
  | succ n ih =>
    intro runs hn hshare h
    rw [List.range_succ, List.foldlM_append, bind_eq_ok_iff] at h
    obtain ⟨mid, hmid, hlast⟩ := h
    obtain ⟨hapart, hend⟩ := ih mid (by omega) (fun i hi => hshare i (by omega)) hmid
    rw [List.foldlM_cons, bind_eq_ok_iff] at hlast
    obtain ⟨runs', hcib, hdone⟩ := hlast
    cases hdone
    rw [bind_eq_ok_iff] at hcib
    obtain ⟨cib, hread, hscan⟩ := hcib
    obtain ⟨hapart', hend'⟩ := scanChunks_apart (by omega) (ciCount cib) 0 mid runs hapart hend hscan
    refine ⟨hapart', hend'.mono (Nat.mul_le_mul_right _ ?_)⟩
    have := hshare n (by omega) cib hread
    rw [Nat.succ_mul]
    omega

end Loops

/-! ### The maximal runs -/

section Maximal

variable (image : Image) (blockSize : Nat)

/-- The chunk of `b` is described by the entry of a chunk-info block, and that entry has no
bitmap or a clear bit for `b`. -/
def DescribedFree (sm : Bytes) (b : Nat) : Prop :=
  b < min (SpacemanGeometry.parse sm).blockCount
      ((SpacemanGeometry.parse sm).chunkCount * (SpacemanGeometry.parse sm).blocksPerChunk) ∧
    ownCib sm b < (SpacemanGeometry.parse sm).cibCount ∧
    ∃ cib, readObjBlock image (cibPaddr sm (ownCib sm b)) blockSize = .ok cib ∧
      ownWithin sm b < ciCount cib ∧
      BitFree image blockSize (ciBitmapAddr cib (ownWithin sm b))
        (b % (SpacemanGeometry.parse sm).blocksPerChunk)

variable {image blockSize}

/-- A chunk-info block that keeps to its share lists no chunk of another one. -/
theorem freedBy_iff_describedFree {sm : Bytes} {b : Nat}
    (hgeom : 0 < (SpacemanGeometry.parse sm).blocksPerChunk ∧
      0 < (SpacemanGeometry.parse sm).chunksPerCib)
    (hshare : ∀ cibIdx < (SpacemanGeometry.parse sm).cibCount, ∀ cib,
      readObjBlock image (cibPaddr sm cibIdx) blockSize = .ok cib →
      ciCount cib ≤ (SpacemanGeometry.parse sm).chunksPerCib) :
    (∃ cibIdx within, FreedBy image blockSize sm cibIdx within b) ↔
      DescribedFree image blockSize sm b := by
  constructor
  · rintro ⟨cibIdx, within, hfreed⟩
    have hown := freedBy_own_or_earlier hgeom.2 hfreed
    obtain ⟨hcib, cib, hread, hwithin, ⟨hchunk, hcount, hblock⟩, hbit⟩ := hfreed
    have hlt := hshare cibIdx hcib cib hread
    have hsame : cibIdx = ownCib sm b ∧ within = ownWithin sm b := by
      rcases hown with hsame | hearlier
      · exact hsame
      · -- the chunk would lie behind the share of the earlier block
        rw [ownCib, ← hchunk, Nat.mul_comm, Nat.mul_add_div hgeom.2,
          Nat.div_eq_of_lt (by omega)] at hearlier
        omega
    obtain ⟨rfl, rfl⟩ := hsame
    rw [Nat.div_lt_iff_lt_mul hgeom.1] at hcount
    exact ⟨by omega, hcib, cib, hread, hwithin, hbit⟩
  · rintro ⟨hb, hcib, cib, hread, hwithin, hbit⟩
    refine ⟨_, _, hcib, cib, hread, hwithin, ⟨?_, ?_, by omega⟩, hbit⟩
    · rw [ownCib, ownWithin, Nat.mul_comm]
      exact Nat.div_add_mod _ _
    · rw [Nat.div_lt_iff_lt_mul hgeom.1]
      omega

/-- **The free runs are the maximal ones.**  If no chunk-info block declares more than
`sm_chunks_per_cib` entries, the runs are non-empty, ascending and never adjacent, and cover
exactly the blocks that an entry describes as free; no other list does.  They end on the
device. -/
theorem free_block_runs_maximal {spacemanPaddr : Nat} {sm : Bytes} {runs : List (Nat × Nat)}
    (hsm : readObjBlock image spacemanPaddr blockSize = .ok sm)
    (hruns : freeBlockRuns image blockSize spacemanPaddr = .ok runs)
    (hshare : ∀ cibIdx < (SpacemanGeometry.parse sm).cibCount, ∀ cib,
      readObjBlock image (cibPaddr sm cibIdx) blockSize = .ok cib →
      ciCount cib ≤ (SpacemanGeometry.parse sm).chunksPerCib) :
    MaximalRuns (DescribedFree image blockSize sm) runs ∧
      (∀ runs', MaximalRuns (DescribedFree image blockSize sm) runs' → runs' = runs) ∧
      ∀ r ∈ runs, r.1 + r.2 ≤ (SpacemanGeometry.parse sm).blockCount := by
  have hinv := hruns
  rw [freeBlockRuns, hsm] at hinv
  simp only [ok_bind, throw_eq_error, error_bind, ite_error_eq_ok_iff] at hinv
  obtain ⟨hgeom, _, hloop⟩ := hinv
  have hcovers : ∀ b, InRuns runs b ↔ DescribedFree image blockSize sm b := by
    intro b
    rw [inRuns_freeBlockRuns hsm hruns, freedBy_iff_describedFree (by omega) hshare]
  have hapart := (foldlM_scanChunks_apart _ runs le_rfl hshare hloop).1
  have hmax : MaximalRuns (DescribedFree image blockSize sm) runs := ⟨hapart, hcovers⟩
  refine ⟨hmax, fun runs' hmax' => hmax'.unique hmax, fun r hr => ?_⟩
  -- the last block of a run is one of the device
  have hpos := hapart.length_pos r hr
  have hlast := ((hcovers (r.1 + r.2 - 1)).mp ⟨r, hr, by omega, by omega⟩).1
  omega

end Maximal

/-! ### Three chunks of eight blocks

The chunk-info block at block one lists a chunk without a bitmap and one with its first
four bits clear; the next one a chunk without a bitmap, cut to four blocks by the end of
the device.  The first run goes over a chunk boundary. -/

def threeChunkSpaceman : Bytes := spacemanBlock 128 8 2 20 3 [1, 2]

def threeChunkImage : Image :=
  ⟨threeChunkSpaceman ++ cibBlock 128 [0, 3] ++ cibBlock 128 [0] ++ (0xf0 :: List.replicate 127 0),
    by decide +kernel⟩

theorem free_block_runs_threeChunkImage :
    MaximalRuns (DescribedFree threeChunkImage 128 threeChunkSpaceman) [(0, 12), (16, 4)] := by
  have hsm : readObjBlock threeChunkImage 0 128 = .ok threeChunkSpaceman := by decide +kernel
  have hruns : freeBlockRuns threeChunkImage 128 0 = .ok [(0, 12), (16, 4)] := by decide +kernel
  have hcount : (SpacemanGeometry.parse threeChunkSpaceman).cibCount = 2 ∧
      (SpacemanGeometry.parse threeChunkSpaceman).chunksPerCib = 2 := by
    decide +kernel
  have hcibs : ∀ i < 2, (readObjBlock threeChunkImage (cibPaddr threeChunkSpaceman i) 128).toOption.all
      (fun cib => ciCount cib ≤ 2) := by
    decide +kernel
  refine (free_block_runs_maximal hsm hruns ?_).1
  intro cibIdx hlt cib hread
  rw [hcount.1] at hlt
  have hcib := hcibs cibIdx hlt
  rw [hread] at hcib
  rw [hcount.2]
  simpa [Except.toOption] using hcib

/-! ### What a free answer rests on -/

section Backed

variable (image : Image) (blockSize spacemanPaddr b : Nat)

/-- The space manager and the chunk-info block that `is_block_free` has come to for a block,
with all its checks passed. -/
structure Consulted (sm cib : Bytes) : Prop where
  read_sm : readObjBlock image spacemanPaddr blockSize = .ok sm
  geometry : 0 < (SpacemanGeometry.parse sm).blocksPerChunk ∧
    0 < (SpacemanGeometry.parse sm).chunksPerCib ∧ (SpacemanGeometry.parse sm).cabCount = 0
  block_lt : b < (SpacemanGeometry.parse sm).blockCount
  chunk_lt : b / (SpacemanGeometry.parse sm).blocksPerChunk < (SpacemanGeometry.parse sm).chunkCount
  cib_lt : ownCib sm b < (SpacemanGeometry.parse sm).cibCount
  read_cib : readObjBlock image (cibPaddr sm (ownCib sm b)) blockSize = .ok cib
  within_lt : ownWithin sm b < ciCount cib

/-- The eight bytes of the address of the chunk-info block lie inside the space manager. -/
def SlotInside (sm : Bytes) : Prop :=
  (SpacemanGeometry.parse sm).addrOffset + ownCib sm b * 8 + 8 ≤ sm.length

/-- The `chunk_info_t` lies inside the chunk-info block. -/
def EntryInside (sm cib : Bytes) : Prop := 40 + ownWithin sm b * 32 + 32 ≤ cib.length

/-- The bitmap of the entry, if it has one, has the bit of the block. -/
def BitInside (sm cib : Bytes) : Prop :=
  ciBitmapAddr cib (ownWithin sm b) ≠ 0 → ∀ bitmap,
    image.readBlock (ciBitmapAddr cib (ownWithin sm b)) blockSize = .ok bitmap →
    b % (SpacemanGeometry.parse sm).blocksPerChunk / 8 < bitmap.length

/-- The entry has no bitmap, or a clear bit for the block. -/
def OwnBitFree (sm cib : Bytes) : Prop :=
  BitFree image blockSize (ciBitmapAddr cib (ownWithin sm b))
    (b % (SpacemanGeometry.parse sm).blocksPerChunk)

/-- A free answer that was read from the blocks. -/
def Backed : Prop :=
  ∃ sm cib, Consulted image blockSize spacemanPaddr b sm cib ∧ SlotInside b sm ∧
    EntryInside b sm cib ∧ OwnBitFree image blockSize b sm cib

variable {image blockSize spacemanPaddr b}

theorem Consulted.unique {sm cib sm' cib' : Bytes}
    (h : Consulted image blockSize spacemanPaddr b sm cib)
    (h' : Consulted image blockSize spacemanPaddr b sm' cib') : sm = sm' ∧ cib = cib' := by
  obtain rfl : sm = sm' := Except.ok.inj (h.read_sm.symm.trans h'.read_sm)
  exact ⟨rfl, Except.ok.inj (h.read_cib.symm.trans h'.read_cib)⟩

/-- An answer comes out of what was consulted. -/
theorem exists_consulted {f : Bool} (h : isBlockFree image spacemanPaddr b blockSize = .ok f) :
    ∃ sm cib, Consulted image blockSize spacemanPaddr b sm cib := by
  rw [isBlockFree, bind_eq_ok_iff] at h
  obtain ⟨sm, hsm, h⟩ := h
  simp only [throw_eq_error, error_bind, ite_error_eq_ok_iff, bind_eq_ok_iff] at h
  obtain ⟨hgeom, hblock, hcab, hchunk, hcib, cib, hread, hwithin, _⟩ := h
  exact ⟨sm, cib, hsm, ⟨by omega, by omega, not_not.mp hcab⟩, Nat.not_le.mp hblock,
    Nat.not_le.mp hchunk, Nat.not_le.mp hcib, hread, Nat.not_le.mp hwithin⟩

/-- The answer, once everything was consulted: a bit that is missing reads as clear. -/
theorem isBlockFree_eq_true_iff {sm cib : Bytes}
    (h : Consulted image blockSize spacemanPaddr b sm cib) :
    isBlockFree image spacemanPaddr b blockSize = .ok true ↔
      ciBitmapAddr cib (ownWithin sm b) = 0 ∨ ∃ bitmap,
        image.readBlock (ciBitmapAddr cib (ownWithin sm b)) blockSize = .ok bitmap ∧
        ∀ byte, bitmap[b % (SpacemanGeometry.parse sm).blocksPerChunk / 8]? = some byte →
          bitIsSet byte (b % (SpacemanGeometry.parse sm).blocksPerChunk % 8) = false := by
  obtain ⟨hsm, ⟨hbpc, hcpc, hcab⟩, hblock, hchunk, hcib, hread, hwithin⟩ := h
  have hzeros : ¬ ((SpacemanGeometry.parse sm).blocksPerChunk = 0 ∨
      (SpacemanGeometry.parse sm).chunksPerCib = 0) := by omega
  rw [isBlockFree, hsm, ok_bind, if_neg hzeros]
  simp only [ge_iff_le, Nat.not_le.mpr hblock, hcab, ne_eq, not_true_eq_false, Nat.not_le.mpr hchunk,
    if_false]
  show (if _ ≤ ownCib sm b then _ else (readObjBlock image (cibPaddr sm (ownCib sm b)) blockSize >>=
    _)) = _ ↔ _
  rw [if_neg (Nat.not_le.mpr hcib), hread, ok_bind]
  show (if _ ≤ ownWithin sm b then _ else if ciBitmapAddr cib (ownWithin sm b) = 0 then _ else _) = _ ↔ _
  rw [if_neg (Nat.not_le.mpr hwithin)]
  by_cases hzero : ciBitmapAddr cib (ownWithin sm b) = 0
  · rw [if_pos hzero]
    exact iff_of_true rfl (Or.inl hzero)
  · rw [if_neg hzero, bind_eq_ok_iff, or_iff_right hzero]
    refine exists_congr fun bitmap => and_congr_right fun _ => ?_
    show Except.ok (!_) = Except.ok true ↔ _
    rw [Except.ok.injEq]
    cases bitmap[b % (SpacemanGeometry.parse sm).blocksPerChunk / 8]? with
    | none => simp
    | some byte => simp

theorem ciBitmapAddr_of_outside {sm cib : Bytes} (h : ¬ EntryInside b sm cib) :
    ciBitmapAddr cib (ownWithin sm b) = 0 := by
  unfold EntryInside at h
  rw [ciBitmapAddr, leU64, leUInt, getRange, if_neg (by omega)]

theorem isBlockFree_of_ownBitFree {sm cib : Bytes}
    (h : Consulted image blockSize spacemanPaddr b sm cib)
    (hbit : OwnBitFree image blockSize b sm cib) :
    isBlockFree image spacemanPaddr b blockSize = .ok true := by
  rw [isBlockFree_eq_true_iff h]
  rcases hbit with hzero | ⟨bitmap, byte, hbitmap, hbyte, hclear⟩
  · exact Or.inl hzero
  · refine Or.inr ⟨bitmap, hbitmap, fun byte' hbyte' => ?_⟩
    rw [hbyte, Option.some.injEq] at hbyte'
    rwa [← hbyte']

/-- Where the bitmap has the bit, a free answer is the bit. -/
theorem ownBitFree_of_bitInside {sm cib : Bytes}
    (h : Consulted image blockSize spacemanPaddr b sm cib)
    (hinside : BitInside image blockSize b sm cib)
    (hfree : isBlockFree image spacemanPaddr b blockSize = .ok true) :
    OwnBitFree image blockSize b sm cib := by
  by_cases hzero : ciBitmapAddr cib (ownWithin sm b) = 0
  · exact Or.inl hzero
  · obtain ⟨bitmap, hbitmap, hclear⟩ := ((isBlockFree_eq_true_iff h).mp hfree).resolve_left hzero
    have hlt := hinside hzero bitmap hbitmap
    exact Or.inr ⟨bitmap, _, hbitmap, List.getElem?_eq_getElem hlt,
      hclear _ (List.getElem?_eq_getElem hlt)⟩

/-- A bit past the end of the bitmap block reads as clear, and is not there. -/
theorem bitInside_of_ownBitFree {sm cib : Bytes}
    (h : Consulted image blockSize spacemanPaddr b sm cib)
    (hown : isBlockFree image spacemanPaddr b blockSize = .ok true →
      OwnBitFree image blockSize b sm cib) :
    BitInside image blockSize b sm cib := by
  intro hne bitmap hbitmap
  by_contra hout
  have hnone : bitmap[b % (SpacemanGeometry.parse sm).blocksPerChunk / 8]? = none :=
    List.getElem?_eq_none (Nat.not_lt.mp hout)
  have hfree := (isBlockFree_eq_true_iff h).mpr
    (Or.inr ⟨bitmap, hbitmap, fun byte hbyte => absurd (hnone.symm.trans hbyte) (by simp)⟩)
  rcases hown hfree with hzero | ⟨bitmap', byte, hbitmap', hbyte, _⟩
  · exact hne hzero
  · rw [hbitmap, Except.ok.injEq] at hbitmap'
    subst hbitmap'
    exact absurd (hnone.symm.trans hbyte) (by simp)

/-- **When free space is not fabricated.**  A free answer was read from the blocks exactly if
the entry lies inside the chunk-info block, its bitmap has the bit, and the address of the
chunk-info block lies inside the space manager or leads to a bit that is set. -/
theorem free_not_fabricated_iff (image : Image) (blockSize spacemanPaddr b : Nat) :
    (isBlockFree image spacemanPaddr b blockSize = .ok true →
      Backed image blockSize spacemanPaddr b) ↔
    ∀ sm cib, Consulted image blockSize spacemanPaddr b sm cib →
      EntryInside b sm cib ∧ BitInside image blockSize b sm cib ∧
        (SlotInside b sm ∨ ¬ OwnBitFree image blockSize b sm cib) := by
  constructor
  · intro hbacked sm cib hcons
    -- a free answer rests on these two blocks
    have hown : isBlockFree image spacemanPaddr b blockSize = .ok true →
        SlotInside b sm ∧ EntryInside b sm cib ∧ OwnBitFree image blockSize b sm cib := by
      intro hfree
      obtain ⟨sm', cib', hcons', hrest⟩ := hbacked hfree
      obtain ⟨rfl, rfl⟩ := hcons.unique hcons'
      exact hrest
    refine ⟨?_, bitInside_of_ownBitFree hcons fun hfree => (hown hfree).2.2, ?_⟩
    · by_contra hout
      have hfree := (isBlockFree_eq_true_iff hcons).mpr (Or.inl (ciBitmapAddr_of_outside hout))
      exact hout (hown hfree).2.1
    · by_cases hfree : isBlockFree image spacemanPaddr b blockSize = .ok true
      · exact Or.inl (hown hfree).1
      · exact Or.inr fun hbit => hfree (isBlockFree_of_ownBitFree hcons hbit)
  · intro hinside hfree
    obtain ⟨sm, cib, hcons⟩ := exists_consulted hfree
    obtain ⟨hentry, hbit, hslot⟩ := hinside sm cib hcons
    have hown := ownBitFree_of_bitInside hcons hbit hfree
    exact ⟨sm, cib, hcons, hslot.resolve_right (not_not.mpr hown), hentry, hown⟩

end Backed

/-! ### A chunk-info block that declares too much

Ten entries in a block with room for two.  The entry of block `40` would lie behind its
end. -/

def overfullSpaceman : Bytes := spacemanBlock 128 8 10 80 10 [1]

def overfullCib : Bytes :=
  sealBlock (padTo 120 (objHdr 2 1 0x40000007 0 ++ toLeBytes 4 0 ++ toLeBytes 4 10))

def overfullImage : Image := ⟨overfullSpaceman ++ overfullCib, by decide +kernel⟩

theorem free_fabricated_overfullImage :
    isBlockFree overfullImage 0 40 128 = .ok true ∧ ¬ Backed overfullImage 128 0 40 := by
  refine ⟨by decide +kernel, ?_⟩
  rintro ⟨sm, cib, hcons, _, hentry, _⟩
  have hsm : readObjBlock overfullImage 0 128 = .ok overfullSpaceman := by decide +kernel
  obtain rfl : overfullSpaceman = sm := Except.ok.inj (hsm.symm.trans hcons.read_sm)
  have hcib : readObjBlock overfullImage (cibPaddr overfullSpaceman (ownCib overfullSpaceman 40)) 128
      = .ok overfullCib := by decide +kernel
  obtain rfl : overfullCib = cib := Except.ok.inj (hcib.symm.trans hcons.read_cib)
  have hout : ¬ EntryInside 40 overfullSpaceman overfullCib := by
    unfold EntryInside
    decide +kernel
  exact hout hentry

end ApfsForensic
