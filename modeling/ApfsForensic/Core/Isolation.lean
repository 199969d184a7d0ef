import ApfsForensic.Core.Extent
import ApfsForensic.Core.Snapshot
import Mathlib.Algebra.Order.Floor.Div

/-!
# A snapshot reads the same whatever comes after it

Two images that have the history of a volume up to the transaction `X` in common:
their object map trees hold the same entries up to `X` and agree on the blocks of
those entries.  Later entries, the shape of the two trees and all other blocks are
free.

Whatever is read through a view at `X` is then the same on both
(`snapshot_isolation`).  The floor that `resolve` takes does not see the later
entries (`resolve_eq_of_sameHistory`), so the walks of the fs-tree run through the
same nodes (`readVirtualNode_eq`).
-/

namespace ApfsForensic

open Walk

/-! ### Images that agree -/

/-- The images agree on the `n` bytes from `off` on. -/
def AgreeOn (image image' : Image) (off n : Nat) : Prop :=
  ∀ j, off ≤ j → j < off + n → image.bytes[j]? = image'.bytes[j]?

theorem agreeOn_iff {image image' : Image} {off n : Nat} :
    AgreeOn image image' off n ↔
      (image.bytes.drop off).take n = (image'.bytes.drop off).take n := by
  constructor
  · intro h
    apply List.ext_getElem?
    intro i
    rw [List.getElem?_take, List.getElem?_take, List.getElem?_drop, List.getElem?_drop]
    by_cases hi : i < n
    · rw [if_pos hi, if_pos hi, h (off + i) (by omega) (by omega)]
    · rw [if_neg hi, if_neg hi]
  · intro h j hlo hhi
    have hj := congrArg (fun l => l[j - off]?) h
    simp only [List.getElem?_take, List.getElem?_drop] at hj
    rwa [if_pos (by omega), if_pos (by omega), Nat.add_sub_cancel' hlo] at hj

instance (image image' : Image) (off n : Nat) : Decidable (AgreeOn image image' off n) :=
  decidable_of_iff _ agreeOn_iff.symm

/-- A block that both images have at one address. -/
theorem agreeOn_of_hasBlocks {image image' : Image} {blockSize i : Nat}
    {blocks blocks' : List Bytes} {b : Bytes} (h : image.HasBlocks blockSize blocks)
    (h' : image'.HasBlocks blockSize blocks') (hb : blocks[i]? = some b)
    (hb' : blocks'[i]? = some b) : AgreeOn image image' (i * blockSize) blockSize :=
  agreeOn_iff.mpr ((h.chunk_eq hb).trans (h'.chunk_eq hb').symm)

/-- A read of bytes on which the images agree has one outcome. -/
theorem readExact_congr {image image' : Image} {off n : Nat} (h : AgreeOn image image' off n) :
    image.readExact off n = image'.readExact off n := by
  simp only [Image.readExact, Image.readAt, agreeOn_iff.mp h]

theorem readBlock_congr {image image' : Image} {paddr blockSize : Nat}
    (h : AgreeOn image image' (paddr * blockSize) blockSize) :
    image.readBlock paddr blockSize = image'.readBlock paddr blockSize := by
  unfold Image.readBlock
  by_cases hmul : paddr * blockSize ≤ u64Max
  · rw [saturatingMul_of_le hmul]
    exact readExact_congr h
  · -- an address that saturates is past the end of either image
    have hsat : saturatingMul paddr blockSize = u64Max := Nat.min_eq_right (by omega)
    apply readExact_congr
    intro j hlo _
    have hlen := image.length_lt
    have hlen' := image'.length_lt
    rw [hsat] at hlo
    unfold u64Max at hlo
    rw [List.getElem?_eq_none (by omega), List.getElem?_eq_none (by omega)]

/-! ### The same history -/

/-- The two images store well-formed object maps with the same entries up to `X`,
and agree on the blocks these entries point at. -/
structure SameHistory (image image' : Image) (blockSize omapOid omapOid' X : Nat)
    (omap omap' : ObjectMap) (t t' : NodeTree) : Prop where
  omap_ok : readObjectMap image omapOid blockSize = .ok omap
  omap_ok' : readObjectMap image' omapOid' blockSize = .ok omap'
  wellFormed : WellFormedOmap image blockSize omap t
  wellFormed' : WellFormedOmap image' blockSize omap' t'
  same_entries : ∀ e : OmapEntry, e.xid ≤ X →
    (e ∈ t.records.map Entry.omapEntry ↔ e ∈ t'.records.map Entry.omapEntry)
  same_blocks : ∀ e ∈ t.records.map Entry.omapEntry, e.xid ≤ X →
    AgreeOn image image' (e.paddr * blockSize) blockSize

section Isolation

variable {xts : Xts} {image image' : Image} {blockSize omapOid omapOid' X : Nat}
variable {omap omap' : ObjectMap} {t t' : NodeTree}

theorem SameHistory.mem_omapCandidates_iff
    (h : SameHistory image image' blockSize omapOid omapOid' X omap omap' t t') (oid : Nat)
    (e : OmapEntry) : e ∈ omapCandidates oid X t.records ↔ e ∈ omapCandidates oid X t'.records := by
  rw [mem_omapCandidates, mem_omapCandidates]
  constructor
  · rintro ⟨hmem, ho, hx⟩
    exact ⟨(h.same_entries e hx).mp hmem, ho, hx⟩
  · rintro ⟨hmem, ho, hx⟩
    exact ⟨(h.same_entries e hx).mpr hmem, ho, hx⟩

/-- The floor at `X` does not see what is later than `X`. -/
theorem resolve_eq_of_sameHistory
    (h : SameHistory image image' blockSize omapOid omapOid' X omap omap' t t') (oid : Nat) :
    omap.resolve image oid X blockSize = omap'.resolve image' oid X blockSize := by
  rw [resolve_eq_omapScan h.wellFormed, resolve_eq_omapScan h.wellFormed']
  congr 1
  cases hscan : omapScan oid X t'.records with
  | none =>
    rw [omapScan_eq_none_iff] at hscan ⊢
    intro e he ho hx
    exact hscan e ((h.same_entries e hx).mp he) ho hx
  | some e =>
    obtain ⟨hmem, hmax⟩ := (omapScan_eq_some_iff h.wellFormed'.sorted).mp hscan
    rw [omapScan_eq_some_iff h.wellFormed.sorted]
    refine ⟨(h.mem_omapCandidates_iff oid e).mpr hmem, fun e' he' => ?_⟩
    exact hmax e' ((h.mem_omapCandidates_iff oid e').mp he')

/-- A resolved entry is one of the shared history. -/
theorem mem_of_resolve (h : WellFormedOmap image blockSize omap t) {oid : Nat} {entry : OmapEntry}
    (hr : omap.resolve image oid X blockSize = .ok entry) :
    entry ∈ t.records.map Entry.omapEntry ∧ entry.xid ≤ X := by
  rw [resolve_eq_omapScan h] at hr
  cases hscan : omapScan oid X t.records with
  | none => rw [hscan] at hr; exact absurd hr (by simp [resolved])
  | some e =>
    rw [hscan] at hr
    cases hr
    obtain ⟨hmem, _⟩ := (omapScan_eq_some_iff h.sorted).mp hscan
    obtain ⟨hin, _, hx⟩ := mem_omapCandidates.mp hmem
    exact ⟨hin, hx⟩

theorem readVirtualNode_eq
    (h : SameHistory image image' blockSize omapOid omapOid' X omap omap' t t') (vek : Option Vek)
    (oid : Nat) :
    readVirtualNode xts image omap vek X blockSize oid
      = readVirtualNode xts image' omap' vek X blockSize oid := by
  unfold readVirtualNode
  rw [← resolve_eq_of_sameHistory h]
  cases hr : omap.resolve image oid X blockSize with
  | error f => rfl
  | ok entry =>
    obtain ⟨hmem, hx⟩ := mem_of_resolve h.wellFormed hr
    rw [ok_bind, ok_bind, readBlock_congr (h.same_blocks entry hmem hx)]

/-- **A walk at `X` visits the same records on both images**, for any target. -/
theorem fsRecords_eq_of_sameHistory
    (h : SameHistory image image' blockSize omapOid omapOid' X omap omap' t t')
    {view : ApfsVolume} (hx : view.xid = X) (target : Option Nat) :
    fsRecords xts image (view.withOmapOid omapOid) blockSize target
      = fsRecords xts image' (view.withOmapOid omapOid') blockSize target := by
  have hfetch : fetchPruned xts image omap view.vek X blockSize target
      = fetchPruned xts image' omap' view.vek X blockSize target := by
    funext oid
    rw [fetchPruned, fetchPruned, fetchVirtual, fetchVirtual, readVirtualNode_eq h]
  unfold fsRecords walkFsTree
  simp only [ApfsVolume.withOmapOid_omapOid, ApfsVolume.withOmapOid_xid,
    ApfsVolume.withOmapOid_rootTreeOid, ApfsVolume.withOmapOid_vek, h.omap_ok, h.omap_ok', ok_bind,
    hx, descendVirtual_eq_guardedWalk, hfetch]

/-! ### File content -/

/-- The images agree on every block that the extent points at. -/
def AgreeOnExtent (image image' : Image) (blockSize : Nat) (ext : FileExtent) : Prop :=
  ext.physBlockNum ≠ 0 → ∀ i < ext.len ⌈/⌉ blockSize,
    AgreeOn image image' ((ext.physBlockNum + i) * blockSize) blockSize

instance (image image' : Image) (blockSize : Nat) (ext : FileExtent) :
    Decidable (AgreeOnExtent image image' blockSize ext) :=
  inferInstanceAs (Decidable (_ → ∀ i < _, _))

/-- Agreement on consecutive blocks is agreement on the bytes they hold. -/
theorem agreeOn_of_blocks (hbs : 0 < blockSize) {p k n : Nat}
    (h : ∀ i < k, AgreeOn image image' ((p + i) * blockSize) blockSize) (hn : n ≤ k * blockSize) :
    AgreeOn image image' (p * blockSize) n := by
  intro j hlo hhi
  -- byte `j` is in block `p + (j - p * blockSize) / blockSize`
  have hdiv := Nat.div_add_mod (j - p * blockSize) blockSize
  have hmod := Nat.mod_lt (j - p * blockSize) hbs
  have hi : (j - p * blockSize) / blockSize < k :=
    Nat.div_lt_of_lt_mul (by rw [Nat.mul_comm blockSize]; omega)
  have hoff : (p + (j - p * blockSize) / blockSize) * blockSize
      = p * blockSize + blockSize * ((j - p * blockSize) / blockSize) := by
    rw [Nat.add_mul, Nat.mul_comm blockSize]
  apply h _ hi j
  · omega
  · omega

theorem readExtent_congr (hbs : 0 < blockSize) {ext : FileExtent} (hphys : ext.physBlockNum ≠ 0)
    (h : AgreeOnExtent image image' blockSize ext) (vek : Option Vek) {n : Nat}
    (hn : n ≤ ext.len) :
    readExtent xts image vek blockSize ext (ext.physBlockNum * blockSize) n
      = readExtent xts image' vek blockSize ext (ext.physBlockNum * blockSize) n := by
  have hcover : ext.len ≤ ext.len ⌈/⌉ blockSize * blockSize := by
    rw [Nat.mul_comm]
    exact (ceilDiv_le_iff_le_mul hbs).mp le_rfl
  have hblocks : (n + blockSize - 1) / blockSize ≤ ext.len ⌈/⌉ blockSize :=
    Nat.div_le_div_right (by omega)
  have hplain := readExact_congr (agreeOn_of_blocks hbs (h hphys) (by omega : n ≤ _))
  have hwhole := readExact_congr (agreeOn_of_blocks hbs (h hphys)
    (Nat.mul_le_mul_right blockSize hblocks))
  cases vek with
  | none => rw [readExtent, readExtent, hplain]
  | some vek => simp only [readExtent, hplain, hwhole]

theorem fillExtent_congr (hbs : 0 < blockSize) {ext : FileExtent}
    (h : AgreeOnExtent image image' blockSize ext) (vek : Option Vek) (size : Nat) (out : Bytes) :
    fillExtent xts image vek blockSize size out ext
      = fillExtent xts image' vek blockSize size out ext := by
  by_cases hskip : ext.logicalOffset ≥ size ∨ ext.physBlockNum = 0
  · rw [fillExtent_skip hskip, fillExtent_skip hskip]
  · have hphys : ext.physBlockNum ≠ 0 := by omega
    rw [fillExtent, fillExtent, if_neg hskip, if_neg hskip]
    by_cases hmul : ext.physBlockNum * blockSize ≤ u64Max
    · simp only [checkedMul_of_le hmul, readExtent_congr hbs hphys h vek (Nat.min_le_left _ _)]
    · simp only [checkedMul_of_lt (Nat.not_le.mp hmul)]

theorem foldlM_fillExtent_congr (hbs : 0 < blockSize) (vek : Option Vek) (size : Nat) :
    ∀ (exts : List FileExtent), (∀ ext ∈ exts, AgreeOnExtent image image' blockSize ext) →
      ∀ out : Bytes, exts.foldlM (fillExtent xts image vek blockSize size) out
        = exts.foldlM (fillExtent xts image' vek blockSize size) out := by
  intro exts
  induction exts with
  | nil => intro _ out; rfl
  | cons ext exts ih =>
    intro h out
    rw [List.foldlM_cons, List.foldlM_cons, fillExtent_congr hbs (h ext List.mem_cons_self)]
    exact congrArg _ (funext (ih (fun e he => h e (List.mem_cons_of_mem _ he))))

/-! ### Through a view at `X` -/

theorem listExtents_eq_of_sameHistory
    (h : SameHistory image image' blockSize omapOid omapOid' X omap omap' t t')
    {view : ApfsVolume} (hx : view.xid = X) (streamOid : Nat) :
    listExtents xts image (view.withOmapOid omapOid) blockSize streamOid
      = listExtents xts image' (view.withOmapOid omapOid') blockSize streamOid := by
  rw [listExtents_eq, listExtents_eq, fsRecords_eq_of_sameHistory h hx]

theorem readStream_eq_of_sameHistory
    (h : SameHistory image image' blockSize omapOid omapOid' X omap omap' t t')
    {view : ApfsVolume} (hx : view.xid = X) (streamOid size : Nat)
    (hext : ∀ exts, listExtents xts image (view.withOmapOid omapOid) blockSize streamOid = .ok exts →
      ∀ ext ∈ exts, AgreeOnExtent image image' blockSize ext) :
    readStream xts image (view.withOmapOid omapOid) blockSize streamOid size
      = readStream xts image' (view.withOmapOid omapOid') blockSize streamOid size := by
  rw [readStream, readStream, ← listExtents_eq_of_sameHistory h hx]
  by_cases hsize : size > maxFileBytes
  · rw [if_pos hsize, if_pos hsize]
    rfl
  · rw [if_neg hsize, if_neg hsize]
    cases hl : listExtents xts image (view.withOmapOid omapOid) blockSize streamOid with
    | error f => rfl
    | ok exts =>
      have hbs : 0 < blockSize := Nat.pos_of_ne_zero (blockSize_ne_zero_of_listExtents hl)
      exact foldlM_fillExtent_congr hbs view.vek size exts (hext exts hl) _

/-- **A snapshot reads the same whatever comes after it.**  Over two images with the
same history up to `X`, every walk through a view at `X` visits the same records;
and a snapshot frozen at `X` mounts on both, with the same directories, inodes and
file contents. -/
theorem snapshot_isolation (xts : Xts) (live live' : ApfsVolume)
    (h : SameHistory image image' blockSize live.omapOid live'.omapOid X omap omap' t t') :
    (∀ view : ApfsVolume, view.xid = X → ∀ target,
      fsRecords xts image (view.withOmapOid live.omapOid) blockSize target
        = fsRecords xts image' (view.withOmapOid live'.omapOid) blockSize target) ∧
    (∀ (snapshot : Snapshot) (volume : ApfsVolume),
      AgreeOn image image' (snapshot.sblockOid * blockSize) blockSize →
      mountSnapshot image live blockSize snapshot = .ok volume → volume.xid = X →
      ∃ volume', mountSnapshot image' live' blockSize snapshot = .ok volume' ∧
        (∀ oid, listDir xts image volume blockSize oid = listDir xts image' volume' blockSize oid) ∧
        (∀ oid, loadInode xts image volume blockSize oid
          = loadInode xts image' volume' blockSize oid) ∧
        ∀ streamOid size,
          (∀ exts, listExtents xts image volume blockSize streamOid = .ok exts →
            ∀ ext ∈ exts, AgreeOnExtent image image' blockSize ext) →
          readStream xts image volume blockSize streamOid size
            = readStream xts image' volume' blockSize streamOid size) := by
  refine ⟨fun view hx target => fsRecords_eq_of_sameHistory h hx target, ?_⟩
  intro snapshot volume hblock hmount hx
  rw [mountSnapshot, readBlock_congr hblock, bind_eq_ok_iff] at hmount
  obtain ⟨buf, hread, hmount⟩ := hmount
  rw [bind_eq_ok_iff] at hmount
  obtain ⟨frozen, hparse, hgraft⟩ := hmount
  have hvolume : frozen.withOmapOid live.omapOid = volume := Except.ok.inj hgraft
  subst hvolume
  have hxid : frozen.xid = X := hx
  have hrecords : ∀ target, fsRecords xts image (frozen.withOmapOid live.omapOid) blockSize target
      = fsRecords xts image' (frozen.withOmapOid live'.omapOid) blockSize target :=
    fsRecords_eq_of_sameHistory h hxid
  refine ⟨frozen.withOmapOid live'.omapOid, ?_, fun oid => ?_, fun oid => ?_, ?_⟩
  · rw [mountSnapshot, hread, ok_bind, hparse]
    rfl
  · rw [listDir, listDir, forEachFsRecordForOid, forEachFsRecordForOid, walkFsTree_eq,
      walkFsTree_eq, hrecords]
  · rw [loadInode, loadInode, forEachFsRecordForOid, forEachFsRecordForOid, walkFsTree_eq,
      walkFsTree_eq, hrecords]
    rfl
  · intro streamOid size hext
    exact readStream_eq_of_sameHistory h hxid streamOid size hext

end Isolation

/-! ### A transaction after the snapshot

Transaction `9` rewrites the root of the fs-tree, and with its entry the object map
no longer fits its one leaf.  A snapshot at `1` does not see any of that. -/

def frozenOmapTree : NodeTree := .leaf 1 [omapRecord 10 1 0 2]

def laterOmapTree : NodeTree :=
  .index 1 (.cons (omapRecord 10 1 0 0).key (.leaf 5 [omapRecord 10 1 0 2])
    (.cons (omapRecord 10 9 0 0).key (.leaf 6 [omapRecord 10 9 0 7]) .nil))

/-- The root of the fs-tree, the frozen superblock and a block of file content. -/
def keptBlocks : List Bytes :=
  [btreeNode 1024 10 1 0x3 0 [extentRecord 5 ⟨0, 1024, 4, 0⟩], apsbBlock 1024 20 1 0 10 0,
    List.replicate 1024 9]

def frozenBlocks : List Bytes :=
  omapBlock 1024 0 1 :: btreeNode 1024 1 1 0x7 0 [omapRecord 10 1 0 2] :: keptBlocks

def laterBlocks : List Bytes :=
  omapBlock 1024 0 1 ::
    btreeNode 1024 1 9 0x5 1 [childRecord (omapRecord 10 1 0 0).key 5,
      childRecord (omapRecord 10 9 0 0).key 6] :: keptBlocks ++
    [btreeNode 1024 5 9 0x6 0 [omapRecord 10 1 0 2], btreeNode 1024 6 9 0x6 0 [omapRecord 10 9 0 7],
      btreeNode 1024 10 9 0x3 0 []]

def frozenImage : Image := .ofBlocks frozenBlocks

def laterImage : Image := .ofBlocks laterBlocks

theorem length_keptBlocks : ∀ b ∈ keptBlocks, b.length = 1024 := by
  intro b hb
  simp only [keptBlocks, List.mem_cons, List.not_mem_nil, or_false] at hb
  rcases hb with rfl | rfl | rfl
  · exact length_btreeNode (by decide) ..
  · exact length_apsbBlock (by decide) ..
  · exact List.length_replicate ..

theorem hasBlocks_laterImage : laterImage.HasBlocks 1024 laterBlocks := by
  refine Image.hasBlocks_ofBlocks (fun b hb => ?_) (by decide)
  simp only [laterBlocks, List.cons_append, List.mem_cons, List.mem_append, List.not_mem_nil,
    or_false] at hb
  rcases hb with rfl | rfl | hb | rfl | rfl | rfl
  · exact length_omapBlock (by decide) ..
  · exact length_btreeNode (by decide) ..
  · exact length_keptBlocks b hb
  · exact length_btreeNode (by decide) ..
  · exact length_btreeNode (by decide) ..
  · exact length_btreeNode (by decide) ..

theorem hasBlocks_frozenImage : frozenImage.HasBlocks 1024 frozenBlocks := by
  refine Image.hasBlocks_ofBlocks (fun b hb => ?_) (by decide)
  simp only [frozenBlocks, List.mem_cons] at hb
  rcases hb with rfl | rfl | hb
  · exact length_omapBlock (by decide) ..
  · exact length_btreeNode (by decide) ..
  · exact length_keptBlocks b hb

theorem frozen_later_sameHistory :
    SameHistory frozenImage laterImage 1024 0 0 1 ⟨0, 0x40000002, 1, 0⟩ ⟨0, 0x40000002, 1, 0⟩
      frozenOmapTree laterOmapTree where
  omap_ok := by
    rw [readObjectMap, hasBlocks_frozenImage.readBlock (show _[0]? = _ from rfl), ok_bind]
    decide +kernel
  omap_ok' := by
    rw [readObjectMap, hasBlocks_laterImage.readBlock (show _[0]? = _ from rfl), ok_bind]
    decide +kernel
  wellFormed :=
    { root := rfl
      stored := by
        refine (hasBlocks_frozenImage.fetchNode rfl (btreeNode_verifies _ _ _ _ _ _) _).trans ?_
        exact congrArg _ (by decide +kernel)
      height_le := by decide +kernel
      unshared := by decide +kernel
      sorted := by decide +kernel
      separators := by
        simp only [frozenOmapTree, Tree.Keyed] }
  wellFormed' :=
    { root := rfl
      stored := by
        refine ⟨?_, ?_, ?_, trivial⟩
        all_goals
          refine (hasBlocks_laterImage.fetchNode rfl (btreeNode_verifies _ _ _ _ _ _) _).trans ?_
          exact congrArg _ (by decide +kernel)
      height_le := by decide +kernel
      unshared := by decide +kernel
      sorted := by decide +kernel
      separators := by
        simp only [laterOmapTree, Tree.Keyed, Forest.Keyed]
        decide +kernel }
  same_entries := by
    have ht : frozenOmapTree.records.map Entry.omapEntry = [⟨10, 1, 2, 4096, 0⟩] := by
      decide +kernel
    have ht' : laterOmapTree.records.map Entry.omapEntry
        = [⟨10, 1, 2, 4096, 0⟩, ⟨10, 9, 7, 4096, 0⟩] := by
      decide +kernel
    intro e hx
    rw [ht, ht', List.mem_singleton, List.mem_cons, List.mem_singleton]
    constructor
    · exact Or.inl
    · rintro (rfl | rfl)
      · rfl
      · exact absurd hx (by decide)
  same_blocks := by
    intro e he _
    have ht : frozenOmapTree.records.map Entry.omapEntry = [⟨10, 1, 2, 4096, 0⟩] := by
      decide +kernel
    rw [ht, List.mem_singleton] at he
    rw [he]
    exact agreeOn_of_hasBlocks hasBlocks_frozenImage hasBlocks_laterImage rfl rfl

/-- The record of the snapshot: its superblock is block `3`. -/
def frozenSnapshot : Snapshot := parseSnapMetadata 1 (toLeBytes 8 0 ++ toLeBytes 8 3)

def frozenVolume : ApfsVolume := .ofApsb 20 1 0 10 0

theorem snapshot_before_rewrite :
    mountSnapshot frozenImage (.ofRoots 1 0 10 0) 1024 frozenSnapshot = .ok frozenVolume ∧
      ∃ volume', mountSnapshot laterImage (.ofRoots 9 0 10 0) 1024 frozenSnapshot = .ok volume' ∧
        readStream .uncalled frozenImage frozenVolume 1024 5 600
          = readStream .uncalled laterImage volume' 1024 5 600 := by
  have hsblock : frozenSnapshot.sblockOid = 3 := by decide
  have hparse : ApfsVolume.parse (apsbBlock 1024 20 1 0 10 0) = .ok frozenVolume := by
    decide +kernel
  have hmount : mountSnapshot frozenImage (.ofRoots 1 0 10 0) 1024 frozenSnapshot
      = .ok frozenVolume := by
    rw [mountSnapshot, hsblock, hasBlocks_frozenImage.readBlock (show _[3]? = _ from rfl), ok_bind,
      hparse]
    rfl
  have hexts : listExtents .uncalled frozenImage frozenVolume 1024 5 = .ok [⟨0, 1024, 4, 0⟩] := by
    decide +kernel
  have hblock : AgreeOn frozenImage laterImage (frozenSnapshot.sblockOid * 1024) 1024 := by
    rw [hsblock]
    exact agreeOn_of_hasBlocks hasBlocks_frozenImage hasBlocks_laterImage rfl rfl
  have hcontent : AgreeOnExtent frozenImage laterImage 1024 ⟨0, 1024, 4, 0⟩ := by
    intro _ i hi
    have hzero : i = 0 := Nat.lt_one_iff.mp (lt_of_lt_of_eq hi (by decide))
    rw [hzero]
    exact agreeOn_of_hasBlocks hasBlocks_frozenImage hasBlocks_laterImage rfl rfl
  obtain ⟨_, hsnap⟩ := snapshot_isolation .uncalled (.ofRoots 1 0 10 0) (.ofRoots 9 0 10 0)
    frozen_later_sameHistory
  obtain ⟨volume', hmount', _, _, hread⟩ := hsnap frozenSnapshot frozenVolume hblock hmount rfl
  refine ⟨hmount, volume', hmount', hread 5 600 ?_⟩
  intro exts hl e he
  rw [hexts, Except.ok.injEq] at hl
  rw [← hl, List.mem_singleton] at he
  rw [he]
  exact hcontent

end ApfsForensic
