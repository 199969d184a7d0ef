import ApfsForensic.Core.ChecksumStrength
import ApfsForensic.Core.FileIds
import ApfsForensic.Core.Isolation
import ApfsForensic.Core.Navigation
import ApfsForensic.Core.RingChanges
import ApfsForensic.Core.RunList
import ApfsForensic.Core.SharedHandle
import ApfsForensic.Walk.Degrade

/-!
# Reading a damaged image

The headers, the trees and the tables that the reader follows are behind a checksum gate, and a
gate that closes ends the call with an error.  So a volume whose image has lost such a block
answers a call as before, or not at all (`Degrades`): no answer is made up from damaged metadata.
Two kinds of blocks have no gate, the content of files and the bitmaps of the space manager.

* `Overwritten`: up to two neighbouring words of a verified block have changed, and not just
  between zeros and ones; this the checksum sees (`Overwritten.damaged`).  The words are both the
  stored checksum or both behind it: a change of word 1 together with word 2 can go unseen.
* `Gated`: a parser behind the checksum.
* `overwritten_block_never_misleads`: on a plain volume, every call of the adapter and both
  snapshot queries keep their answer or fail, as long as the block holds no file content and,
  for `unallocated`, is no bitmap.
-/

namespace ApfsForensic

open Walk

/-! ### Damage -/

/-- One block has changed, and does not pass the gate. -/
structure Damaged (blockSize paddr : Nat) (image image' : Image) : Prop extends
    ChangedAt blockSize paddr image image' where
  broken : ¬ Verifies (chunk blockSize image'.bytes paddr)

/-- Words `i` and `i + 1` of a block that passed the gate have been overwritten, and one of them
not just by zeros in place of ones or ones in place of zeros.  They are the stored checksum,
words 0 and 1, or lie behind it. -/
structure Overwritten (blockSize paddr i : Nat) (image image' : Image) : Prop extends
    ChangedAt blockSize paddr image image' where
  verified : Verifies (chunk blockSize image.bytes paddr)
  aligned : i = 0 ∨ 2 ≤ i
  within : ∀ k, (chunk blockSize image.bytes paddr)[k]? ≠ (chunk blockSize image'.bytes paddr)[k]? →
    4 * i ≤ k ∧ k < 4 * (i + 2)
  seen : ∃ j, leU32 (chunk blockSize image.bytes paddr) (4 * j)
      ≠ leU32 (chunk blockSize image'.bytes paddr) (4 * j) ∧
    ¬ ZerosAndOnes (leU32 (chunk blockSize image.bytes paddr) (4 * j))
      (leU32 (chunk blockSize image'.bytes paddr) (4 * j))

section Blocks

variable {a b : Bytes}

theorem fromLeBytes_append (x y : Bytes) :
    fromLeBytes (x ++ y) = fromLeBytes x + 256 ^ x.length * fromLeBytes y := by
  induction x with
  | nil => simp [fromLeBytes]
  | cons c x ih =>
    rw [List.cons_append, fromLeBytes, fromLeBytes, ih, List.length_cons, Nat.pow_succ,
      Nat.mul_add, Nat.add_assoc, Nat.mul_comm (256 ^ x.length) 256, Nat.mul_assoc]

/-- The stored checksum is the first two words. -/
theorem stored_eq_words (h : 8 ≤ a.length) :
    fletcher64Stored a = leU32 a 0 + 2 ^ 32 * leU32 a 4 := by
  have hsplit : a.take 8 = a.take 4 ++ (a.drop 4).take 4 := by
    rw [show 8 = 4 + 4 from rfl, List.take_add]
  have hfirst : leU32 a 0 = fromLeBytes (a.take 4) := by
    rw [leU32, leUInt, getRange, if_pos (by omega)]
    rfl
  have hsecond : leU32 a 4 = fromLeBytes ((a.drop 4).take 4) := by
    rw [leU32, leUInt, getRange, if_pos (by omega)]
  have hboth : fletcher64Stored a = fromLeBytes (a.take 8) := by
    rw [fletcher64Stored, leU64, leUInt, getRange, if_pos (by omega)]
    rfl
  rw [hboth, hfirst, hsecond, hsplit, fromLeBytes_append, List.length_take,
    Nat.min_eq_left (by omega), show 256 ^ 4 = 2 ^ 32 from rfl]

/-- A block that passes the gate holds a checksum. -/
theorem Verifies.length_le (h : Verifies a) : 8 ≤ a.length := by
  by_contra hshort
  have hzero : fletcher64Stored a = 0 := by
    rw [fletcher64Stored, leU64, leUInt, getRange, if_neg (by omega)]
  have hne := (halves_ne_zero a).2
  rw [← h, hzero] at hne
  exact hne rfl

/-- A change of the stored checksum is seen. -/
theorem not_verifies_of_stored (ha : Verifies a) (hlen : a.length = b.length)
    (hsame : ∀ k, a[k]? ≠ b[k]? → k < 8) {j : Nat} (hne : leU32 a (4 * j) ≠ leU32 b (4 * j)) :
    ¬ Verifies b := by
  intro hb
  have hstored : fletcher64Stored a = fletcher64Stored b := by
    rw [ha, hb, checksum_eq_of_stored hlen hsame]
  rw [stored_eq_words ha.length_le, stored_eq_words hb.length_le] at hstored
  have ha₀ := leU32_lt a 0
  have hb₀ := leU32_lt b 0
  have hj : 2 ≤ j := by
    by_contra hlt
    obtain rfl | rfl : j = 0 ∨ j = 1 := by omega
    · exact hne (show leU32 a 0 = leU32 b 0 by omega)
    · exact hne (show leU32 a 4 = leU32 b 4 by omega)
  refine hne (leUInt_congr hlen fun k hk _ => ?_)
  by_contra hk'
  have := hsame k hk'
  omega

/-- So is a change of two neighbouring words behind it, unless the words only go between zeros
and ones. -/
theorem not_verifies_of_words (ha : Verifies a) (hlen : a.length = b.length) {i : Nat}
    (hi : 2 ≤ i) (hsame : ∀ k, a[k]? ≠ b[k]? → 4 * i ≤ k ∧ k < 4 * (i + 2)) {j : Nat}
    (hne : leU32 a (4 * j) ≠ leU32 b (4 * j))
    (hseen : ¬ ZerosAndOnes (leU32 a (4 * j)) (leU32 b (4 * j))) : ¬ Verifies b := by
  intro hb
  have hstored : fletcher64Stored a = fletcher64Stored b := by
    refine leUInt_congr hlen fun k _ hk => ?_
    by_contra hk'
    have := hsame k hk'
    omega
  have hsum : fletcher64Checksum a = fletcher64Checksum b := by rw [← ha, ← hb, hstored]
  exact hseen ((checksum_eq_iff hlen hi hsame).mp hsum j hne)

end Blocks

section Images

variable {blockSize paddr i : Nat} {image image' : Image}

theorem ChangedAt.length_chunk (h : ChangedAt blockSize paddr image image') (q : Nat) :
    (chunk blockSize image.bytes q).length = (chunk blockSize image'.bytes q).length := by
  rw [chunk, chunk, List.length_take, List.length_take, List.length_drop, List.length_drop,
    h.length_eq]

/-- **The checksum sees what was overwritten.** -/
theorem Overwritten.damaged (h : Overwritten blockSize paddr i image image') :
    Damaged blockSize paddr image image' := by
  refine ⟨h.toChangedAt, ?_⟩
  obtain ⟨j, hne, hseen⟩ := h.seen
  have hlen := h.length_chunk paddr
  rcases h.aligned with rfl | hi
  · exact not_verifies_of_stored h.verified hlen (fun k hk => (h.within k hk).2) hne
  · exact not_verifies_of_words h.verified hlen hi h.within hne hseen

theorem ChangedAt.agreeOn (h : ChangedAt blockSize paddr image image') {q : Nat} (hq : q ≠ paddr) :
    AgreeOn image image' (q * blockSize) blockSize :=
  agreeOn_iff.mpr (h.chunk_eq q hq).symm

end Images

/-! ### Gates -/

/-- What fails on a block that does not pass the checksum gate. -/
def Gated {α : Type} (parse : Bytes → Result α) : Prop :=
  ∀ block, ¬ Verifies block → ∃ f, parse block = .error f

section Gates

variable {α : Type}

theorem verifyChecksum_of_not {buf : Bytes} (h : ¬ Verifies buf) (block : Nat) :
    verifyChecksum buf block = .error (.err (.checksumMismatch block (fletcher64Stored buf)
      (fletcher64Checksum buf))) :=
  if_pos h

theorem gated_verifyChecksum (block : Bytes → Nat) (rest : Bytes → Unit → Result α) :
    Gated fun buf => verifyChecksum buf (block buf) >>= rest buf := by
  intro buf hbuf
  show ∃ f, verifyChecksum buf (block buf) >>= rest buf = .error f
  rw [verifyChecksum_of_not hbuf, error_bind]
  exact ⟨_, rfl⟩

theorem gated_parseObjectMap : Gated ObjectMap.parse := by
  intro buf hbuf
  rw [ObjectMap.parse]
  by_cases hlen : buf.length < omapPhysMinLen
  · exact ⟨_, if_pos hlen⟩
  · rw [if_neg hlen]
    cases ObjPhys.parse buf with
    | none => exact ⟨_, rfl⟩
    | some hdr =>
      by_cases htype : hdr.objType ≠ objectTypeOmap
      · exact ⟨_, if_pos htype⟩
      · exact ⟨_, (if_neg htype).trans (by rw [verifyChecksum_of_not hbuf]; rfl)⟩

variable {blockSize paddr : Nat} {image image' : Image}

/-- What a read of a block returns. -/
theorem chunk_of_readBlock {q : Nat} {buf : Bytes} (h : image.readBlock q blockSize = .ok buf) :
    buf = chunk blockSize image.bytes q := by
  rw [Image.readBlock, Image.readExact_eq_ok_iff] at h
  have hlen := image.length_lt
  by_cases hmul : q * blockSize ≤ u64Max
  · rw [saturatingMul_of_le hmul] at h
    exact h.2
  · -- an address that saturates is past the end
    have hsat : saturatingMul q blockSize = u64Max := Nat.min_eq_right (by omega)
    rw [hsat] at h
    have hzero : blockSize = 0 := by
      unfold u64Max at h
      omega
    rw [hzero] at hmul
    exact absurd (Nat.zero_le _) hmul

/-- A block behind a gate is the one it was, or is refused. -/
theorem Damaged.readBlock (h : Damaged blockSize paddr image image') {parse : Bytes → Result α}
    (hparse : Gated parse) (q : Nat) :
    Degrades (image.readBlock q blockSize >>= parse) (image'.readBlock q blockSize >>= parse) := by
  by_cases hq : q = paddr
  · subst hq
    cases hread : image'.readBlock q blockSize with
    | error f => exact .fail _ f
    | ok buf =>
      obtain ⟨f, hf⟩ := hparse buf (chunk_of_readBlock hread ▸ h.broken)
      rw [ok_bind, hf]
      exact .fail _ f
  · rw [readBlock_congr (h.agreeOn hq)]
    exact .refl _

end Gates

/-! ### Trees -/

section Trees

variable {blockSize paddr : Nat} {image image' : Image}

theorem Damaged.readVerifiedNode (h : Damaged blockSize paddr image image') (q : Nat) :
    Degrades (readVerifiedNode image q blockSize) (readVerifiedNode image' q blockSize) := by
  rw [ApfsForensic.readVerifiedNode, ApfsForensic.readVerifiedNode]
  by_cases hmul : q * blockSize ≤ u64Max
  · have hread := h.readBlock (gated_verifyChecksum (fun buf => headerOidOr buf q)
      fun buf _ => .ok (some buf)) q
    rw [Image.readBlock, Image.readBlock, saturatingMul_of_le hmul] at hread
    rw [checkedMul_of_le hmul]
    exact hread
  · rw [checkedMul_of_lt (Nat.not_le.mp hmul)]
    exact .refl _

theorem Damaged.fetchNode (h : Damaged blockSize paddr image image') (subtype : BTreeSubtype)
    (q : Nat) :
    Degrades (fetchNode image blockSize subtype q) (fetchNode image' blockSize subtype q) := by
  rw [ApfsForensic.fetchNode, ApfsForensic.fetchNode]
  rcases h.readVerifiedNode q with heq | ⟨f, heq⟩
  · rw [heq]
    exact .refl _
  · rw [heq]
    exact .fail _ f

theorem Damaged.resolve (h : Damaged blockSize paddr image image') (omap : ObjectMap)
    (oid xid : Nat) :
    Degrades (omap.resolve image oid xid blockSize) (omap.resolve image' oid xid blockSize) := by
  rw [ObjectMap.resolve, ObjectMap.resolve, findLeaf, findLeaf, findLeafFrom_eq_searchWalk,
    findLeafFrom_eq_searchWalk]
  exact ((searchWalk_degrades (h.fetchNode .omap) _ _ _ _ _ _).map _).bind fun _ _ => .refl _

theorem Damaged.readObjectMap (h : Damaged blockSize paddr image image') (omapOid : Nat) :
    Degrades (readObjectMap image omapOid blockSize) (readObjectMap image' omapOid blockSize) :=
  h.readBlock gated_parseObjectMap omapOid

/-- Without a key a node is verified as it is read. -/
theorem Damaged.readVirtualNode (h : Damaged blockSize paddr image image') (xts : Xts)
    (omap : ObjectMap) (xid oid : Nat) :
    Degrades (readVirtualNode xts image omap none xid blockSize oid)
      (readVirtualNode xts image' omap none xid blockSize oid) := by
  refine (h.resolve omap oid xid).bind fun entry _ => ?_
  have hplain : ∀ buf, decryptNode xts none blockSize entry buf = .ok buf := by
    intro buf
    rw [decryptNode]
    split <;> rfl
  simp only [hplain, ok_bind]
  exact h.readBlock (gated_verifyChecksum (fun buf => headerOidOr buf entry.paddr)
    fun buf _ => .ok buf) entry.paddr

theorem Damaged.fsRecords (h : Damaged blockSize paddr image image') (xts : Xts)
    {volume : ApfsVolume} (hvek : volume.vek = none) (target : Option Nat) :
    Degrades (fsRecords xts image volume blockSize target)
      (fsRecords xts image' volume blockSize target) := by
  rw [ApfsForensic.fsRecords, ApfsForensic.fsRecords, walkFsTree, walkFsTree, hvek]
  refine (h.readObjectMap volume.omapOid).bind fun omap _ => ?_
  simp only [descendVirtual_eq_guardedWalk]
  have hfetch : ∀ oid, Degrades (fetchPruned xts image omap none volume.xid blockSize target oid)
      (fetchPruned xts image' omap none volume.xid blockSize target oid) :=
    fun oid => ((h.readVirtualNode xts omap volume.xid oid).map _).map _
  exact (guardedWalk_degrades hfetch _ _ _ _ _ _).bind fun _ _ => .refl _

theorem Damaged.readSnapRecords (h : Damaged blockSize paddr image image') (volume : ApfsVolume) :
    Degrades (readSnapRecords image volume blockSize)
      (readSnapRecords image' volume blockSize) := by
  rw [ApfsForensic.readSnapRecords, ApfsForensic.readSnapRecords, forEachSnapRecord,
    forEachSnapRecord]
  refine (h.readObjectMap volume.omapOid).bind fun omap _ => ?_
  have hnode : ∀ isRoot oid, Degrades (readSnapNode image omap volume.xid blockSize isRoot oid)
      (readSnapNode image' omap volume.xid blockSize isRoot oid) := by
    intro isRoot oid
    have hblock : ∀ q, Degrades _ _ := fun q => h.readBlock
      (gated_verifyChecksum (fun buf => headerOidOr buf q) fun buf _ => .ok buf) q
    cases isRoot with
    | true => exact hblock oid
    | false => exact ((h.resolve omap oid volume.xid).map OmapEntry.paddr).bind fun q _ => hblock q
  have hfetch : ∀ ref, Degrades (fetchSnap image omap volume.xid blockSize ref)
      (fetchSnap image' omap volume.xid blockSize ref) :=
    fun ref => (hnode ref.isRoot ref.number).map _
  have hwalk : ∀ img : Image, descendSnap img omap volume.xid blockSize
      (fun out key value => out ++ [(⟨key, value⟩ : Entry)]) maxSnapTreeDepth true
      volume.snapMetaTreeOid ([], []) = _ :=
    fun img => descendSnap_eq_guardedWalk img omap volume.xid blockSize _ maxSnapTreeDepth
      (.root volume.snapMetaTreeOid) ([], [])
  rw [hwalk, hwalk]
  exact (guardedWalk_degrades hfetch _ _ _ _ _ _).bind fun _ _ => .refl _

end Trees

/-! ### Free space -/

/-- The block is a bitmap that `free_block_runs` reads. -/
def IsBitmap (image : Image) (blockSize smPaddr paddr : Nat) : Prop :=
  ∃ sm cibIdx cib within, readObjBlock image smPaddr blockSize = .ok sm ∧
    cibIdx < (SpacemanGeometry.parse sm).cibCount ∧
    readObjBlock image (cibPaddr sm cibIdx) blockSize = .ok cib ∧ within < ciCount cib ∧
    ciBitmapAddr cib within ≠ 0 ∧ ciBitmapAddr cib within = paddr

section FreeSpace

variable {blockSize paddr : Nat} {image image' : Image}

theorem Damaged.readObjBlock (h : Damaged blockSize paddr image image') (q : Nat) :
    Degrades (readObjBlock image q blockSize) (readObjBlock image' q blockSize) :=
  h.readBlock (gated_verifyChecksum (fun buf => leU64 buf 8) fun buf _ => .ok buf) q

/-- A bitmap has no gate: here it must be another block. -/
theorem Damaged.chunkRuns (h : Damaged blockSize paddr image image') {bitmapAddr : Nat}
    (haddr : bitmapAddr ≠ 0 → bitmapAddr ≠ paddr) (base blocks : Nat) (runs : List (Nat × Nat)) :
    chunkRuns image blockSize bitmapAddr base blocks runs
      = chunkRuns image' blockSize bitmapAddr base blocks runs := by
  rw [ApfsForensic.chunkRuns, ApfsForensic.chunkRuns]
  by_cases hzero : bitmapAddr = 0
  · rw [if_pos hzero, if_pos hzero]
  · rw [if_neg hzero, if_neg hzero, readBlock_congr (h.agreeOn (haddr hzero))]

theorem Damaged.scanChunks (h : Damaged blockSize paddr image image') {g : SpacemanGeometry}
    {cib : Bytes} {cibIdx : Nat} : ∀ {remaining within : Nat},
    (∀ w, within ≤ w → w < within + remaining →
      ciBitmapAddr cib w ≠ 0 → ciBitmapAddr cib w ≠ paddr) → ∀ runs,
    scanChunks image blockSize g cib cibIdx remaining within runs
      = scanChunks image' blockSize g cib cibIdx remaining within runs := by
  intro remaining
  induction remaining with
  | zero => intro within _ runs; rfl
  | succ remaining ih =>
    intro within haddr runs
    have htail := @ih (within + 1) fun w hw hlt => haddr w (by omega) (by omega)
    simp only [ApfsForensic.scanChunks, h.chunkRuns (haddr within le_rfl (by omega)), htail]

theorem Damaged.freeBlockRuns (h : Damaged blockSize paddr image image') {smPaddr : Nat}
    (hbitmap : ¬ IsBitmap image blockSize smPaddr paddr) :
    Degrades (freeBlockRuns image blockSize smPaddr) (freeBlockRuns image' blockSize smPaddr) := by
  refine (h.readObjBlock smPaddr).bind fun sm hsm => ?_
  refine .ite (.refl _) (.ite (.refl _) (.foldlM (fun cibIdx hcibIdx runs => ?_) _))
  refine (h.readObjBlock (cibPaddr sm cibIdx)).bind fun cib hcib => ?_
  rw [h.scanChunks]
  · exact .refl _
  · intro w _ hw hne heq
    rw [Nat.zero_add] at hw
    exact hbitmap ⟨sm, cibIdx, cib, w, hsm, List.mem_range.mp hcibIdx, hcib, hw, hne, heq⟩

end FreeSpace

/-! ### A volume -/

/-- The extent points at the block. -/
def FileExtent.PointsAt (ext : FileExtent) (blockSize paddr : Nat) : Prop :=
  ext.physBlockNum ≠ 0 ∧ ext.physBlockNum ≤ paddr ∧
    paddr < ext.physBlockNum + ext.len ⌈/⌉ blockSize

instance (ext : FileExtent) (blockSize paddr : Nat) : Decidable (ext.PointsAt blockSize paddr) :=
  inferInstanceAs (Decidable (_ ∧ _))

/-- No stream of the volume has content in the block. -/
def FreeOfContent (xts : Xts) (image : Image) (volume : ApfsVolume) (blockSize paddr : Nat) :
    Prop :=
  ∀ streamOid exts, listExtents xts image volume blockSize streamOid = .ok exts →
    ∀ ext ∈ exts, ¬ ext.PointsAt blockSize paddr

theorem ChangedAt.agreeOnExtent {blockSize paddr : Nat} {image image' : Image} {ext : FileExtent}
    (h : ChangedAt blockSize paddr image image') (hext : ¬ ext.PointsAt blockSize paddr) :
    AgreeOnExtent image image' blockSize ext := by
  intro hphys i hi
  refine h.agreeOn fun heq => hext ⟨hphys, ?_, ?_⟩
  · omega
  · omega

namespace Damaged

section Volume

variable {blockSize paddr : Nat} {image image' : Image} {volume : ApfsVolume} (xts : Xts)

theorem listDir (h : Damaged blockSize paddr image image') (hvek : volume.vek = none)
    (parentOid : Nat) : Degrades (listDir xts image volume blockSize parentOid)
      (listDir xts image' volume blockSize parentOid) := by
  rw [listDir_eq, listDir_eq]
  exact (h.fsRecords xts hvek _).map _

theorem lookupChild (h : Damaged blockSize paddr image image') (hvek : volume.vek = none)
    (parentOid : Nat) (name : String) :
    Degrades (lookupChild xts image volume blockSize parentOid name)
      (lookupChild xts image' volume blockSize parentOid name) := by
  rw [lookupChild_eq, lookupChild_eq]
  exact (h.listDir xts hvek parentOid).map _

theorem loadInode (h : Damaged blockSize paddr image image') (hvek : volume.vek = none)
    (oid : Nat) : Degrades (loadInode xts image volume blockSize oid)
      (loadInode xts image' volume blockSize oid) := by
  rw [loadInode_eq, loadInode_eq]
  exact (h.fsRecords xts hvek _).bind fun _ _ => .refl _

theorem listXattrs (h : Damaged blockSize paddr image image') (hvek : volume.vek = none)
    (inodeOid : Nat) : Degrades (listXattrs xts image volume blockSize inodeOid)
      (listXattrs xts image' volume blockSize inodeOid) := by
  rw [listXattrs_eq, listXattrs_eq]
  exact (h.fsRecords xts hvek _).map _

theorem getXattr (h : Damaged blockSize paddr image image') (hvek : volume.vek = none)
    (inodeOid : Nat) (name : String) : Degrades (getXattr xts image volume blockSize inodeOid name)
      (getXattr xts image' volume blockSize inodeOid name) :=
  (h.listXattrs xts hvek inodeOid).bind fun _ _ => .refl _

theorem listExtents (h : Damaged blockSize paddr image image') (hvek : volume.vek = none)
    (streamOid : Nat) : Degrades (listExtents xts image volume blockSize streamOid)
      (listExtents xts image' volume blockSize streamOid) := by
  rw [listExtents_eq, listExtents_eq]
  exact (h.fsRecords xts hvek _).map _

/-- The content itself is not verified: here the damaged block must not be part of it. -/
theorem readStream (h : Damaged blockSize paddr image image') (hvek : volume.vek = none)
    (hfree : FreeOfContent xts image volume blockSize paddr) (streamOid size : Nat) :
    Degrades (readStream xts image volume blockSize streamOid size)
      (readStream xts image' volume blockSize streamOid size) := by
  refine .ite (.refl _) ((h.listExtents xts hvek streamOid).bind fun exts hexts => ?_)
  have hbs : 0 < blockSize := Nat.pos_of_ne_zero (blockSize_ne_zero_of_listExtents hexts)
  rw [foldlM_fillExtent_congr hbs volume.vek size exts fun ext hext =>
    h.agreeOnExtent (hfree streamOid exts hexts ext hext)]
  exact .refl _

theorem readXattrValue (h : Damaged blockSize paddr image image') (hvek : volume.vek = none)
    (hfree : FreeOfContent xts image volume blockSize paddr) (value : XattrValue) :
    Degrades (readXattrValue xts image volume blockSize value)
      (readXattrValue xts image' volume blockSize value) := by
  cases value with
  | embedded bytes => exact .refl _
  | stream dstreamOid size => exact h.readStream xts hvek hfree dstreamOid size

theorem resourceFork (h : Damaged blockSize paddr image image') (hvek : volume.vek = none)
    (hfree : FreeOfContent xts image volume blockSize paddr) (inodeOid : Nat) :
    Degrades (resourceFork xts image volume blockSize inodeOid)
      (resourceFork xts image' volume blockSize inodeOid) := by
  refine (h.getXattr xts hvek inodeOid _).bind fun value _ => ?_
  cases value with
  | none => exact .refl _
  | some value => exact (h.readXattrValue xts hvek hfree value).bind fun _ _ => .refl _

theorem readData (h : Damaged blockSize paddr image image') (codecs : Codecs)
    (hvek : volume.vek = none) (hfree : FreeOfContent xts image volume blockSize paddr)
    (inode : Inode) : Degrades (readData codecs xts image volume blockSize inode)
      (readData codecs xts image' volume blockSize inode) := by
  have hheader : Degrades (decmpfsHeader xts image volume blockSize inode.oid)
      (decmpfsHeader xts image' volume blockSize inode.oid) :=
    (h.getXattr xts hvek inode.oid _).bind fun _ _ => .refl _
  refine hheader.bind fun header _ => ?_
  cases header with
  | none => exact h.readStream xts hvek hfree _ _
  | some header =>
    refine Degrades.bind (.refl _) fun compressionType _ => ?_
    exact .ite ((h.resourceFork xts hvek hfree inode.oid).bind fun _ _ => .refl _) (.refl _)

end Volume

/-! ### The calls of the adapter -/

section Adapter

variable {paddr : Nat} {image' : Image} {fs : ApfsFs} (xts : Xts)

theorem viaVfs {α : Type} {r r' : Result α} (h : Degrades r r') :
    Degrades (viaVfs r) (viaVfs r') := by
  refine h.comp fun f => ?_
  cases f with
  | err e => exact ⟨_, rfl⟩
  | panic => exact ⟨_, rfl⟩

theorem readAt (h : Damaged fs.blockSize paddr fs.reader image') (codecs : Codecs)
    (hvek : fs.volume.vek = none)
    (hfree : FreeOfContent xts fs.reader fs.volume fs.blockSize paddr) (ino : FileId)
    (stream : StreamId) (off bufLen : Nat) :
    Degrades (fs.readAt codecs xts ino stream off bufLen)
      (ApfsFs.readAt codecs xts { fs with reader := image' } ino stream off bufLen) := by
  refine Degrades.bind (.refl _) fun node _ => ?_
  cases stream with
  | xattr idx =>
    refine (viaVfs (h.listXattrs xts hvek node)).bind fun xattrs _ => ?_
    cases xattrs[idx]? with
    | none => exact .refl _
    | some x => exact (viaVfs (h.readXattrValue xts hvek hfree x.value)).bind fun _ _ => .refl _
  | foreign debug => exact .refl _
  | default =>
    refine (viaVfs (h.loadInode xts hvek node)).bind fun inode _ => ?_
    exact (viaVfs (h.readData xts codecs hvek hfree inode)).bind fun _ _ => .refl _

theorem answer (h : Damaged fs.blockSize paddr fs.reader image') (codecs : Codecs)
    (hvek : fs.volume.vek = none)
    (hfree : FreeOfContent xts fs.reader fs.volume fs.blockSize paddr) (call : VfsCall) :
    Degrades (fs.answer codecs xts call)
      (ApfsFs.answer codecs xts { fs with reader := image' } call) := by
  cases call with
  | readDir ino =>
    refine Degrades.map (Degrades.bind (.refl _) fun parent _ => ?_) _
    exact (viaVfs (h.listDir xts hvek parent)).bind fun _ _ => .refl _
  | extents ino stream =>
    refine Degrades.map (Degrades.bind (.refl _) fun node _ =>
      Degrades.bind (.refl _) fun _ _ => ?_) _
    exact (viaVfs (h.loadInode xts hvek node)).bind fun inode _ =>
      (viaVfs (h.listExtents xts hvek inode.privateId)).bind fun _ _ => .refl _
  | lookup parent name =>
    refine Degrades.map (Degrades.bind (.refl _) fun node _ => ?_) _
    cases String.fromUTF8? ⟨name.toArray⟩ with
    | none => exact .refl _
    | some name => exact (viaVfs (h.lookupChild xts hvek node name)).bind fun _ _ => .refl _
  | metaOf ino =>
    refine Degrades.map (Degrades.bind (.refl _) fun node _ => ?_) _
    exact (viaVfs (h.loadInode xts hvek node)).bind fun _ _ => .refl _
  | dataStreams ino =>
    refine Degrades.map (Degrades.bind (.refl _) fun node _ => ?_) _
    exact (viaVfs (h.loadInode xts hvek node)).bind fun _ _ =>
      (viaVfs (h.listXattrs xts hvek node)).bind fun _ _ => .refl _
  | readAt ino stream off bufLen =>
    exact (h.readAt xts codecs hvek hfree ino stream off bufLen).map _

theorem asHandleResult {r r' : VfsResult VfsAnswer} (h : Degrades r r') :
    Degrades (asHandleResult r) (asHandleResult r') :=
  h.comp fun f => ⟨.vfs f, rfl⟩

theorem unallocated (h : Damaged fs.blockSize paddr fs.reader image')
    (hbitmap : ∀ smPaddr ∈ fs.spacemanPaddr, ¬ IsBitmap fs.reader fs.blockSize smPaddr paddr) :
    Degrades (fs.unallocated fs.spacemanPaddr)
      (ApfsFs.unallocated { fs with reader := image' } fs.spacemanPaddr) := by
  cases hsm : fs.spacemanPaddr with
  | none => exact .refl _
  | some smPaddr =>
    refine asHandleResult (Degrades.map ?_ _)
    exact (viaVfs (h.freeBlockRuns (hbitmap smPaddr hsm))).bind fun _ _ => .refl _

end Adapter

end Damaged

/-- **Damaged metadata never misleads.**  Let up to two neighbouring words of a verified block
be overwritten so that the checksum sees it, both of the stored checksum or both behind it.  On a
volume without a key, with no file content in the block, every call of the adapter then answers
as before the damage, or with an error; and so do the snapshot queries.  The call `unallocated`
also reads the bitmaps as they are: for it the block must be none of them. -/
theorem overwritten_block_never_misleads {codecs : Codecs} {xts : Xts} {fs : ApfsFs}
    {image' : Image} {paddr i : Nat} (hover : Overwritten fs.blockSize paddr i fs.reader image')
    (hvek : fs.volume.vek = none)
    (hfree : FreeOfContent xts fs.reader fs.volume fs.blockSize paddr) :
    (∀ call : HandleCall, (call = .unallocated → ∀ smPaddr ∈ fs.spacemanPaddr,
        ¬ IsBitmap fs.reader fs.blockSize smPaddr paddr) →
      Degrades (fs.serve codecs xts call)
        (ApfsFs.serve codecs xts { fs with reader := image' } call)) ∧
    Degrades (listSnapshots fs.reader fs.volume fs.blockSize)
      (listSnapshots image' fs.volume fs.blockSize) ∧
    ∀ name, Degrades (resolveSnapshotXid fs.reader fs.volume fs.blockSize name)
      (resolveSnapshotXid image' fs.volume fs.blockSize name) := by
  have hdamaged := hover.damaged
  have hrecords := hdamaged.readSnapRecords fs.volume
  refine ⟨fun call hbitmap => ?_, ?_, fun name => ?_⟩
  · cases call with
    | read call => exact Damaged.asHandleResult (hdamaged.answer xts codecs hvek hfree call)
    | unallocated => exact hdamaged.unallocated (hbitmap rfl)
  · rw [listSnapshots, listSnapshots, forEachSnapRecord_eq_map, forEachSnapRecord_eq_map]
    exact (hrecords.map _).bind fun _ _ => .refl _
  · rw [resolveSnapshotXid, resolveSnapshotXid, forEachSnapRecord_eq_map, forEachSnapRecord_eq_map]
    exact hrecords.map _

/-! One byte of the file-system tree is overwritten. -/

/-- The image with another byte at this place. -/
def Image.poke (image : Image) (n : Nat) (v : UInt8) : Image :=
  ⟨image.bytes.set n v, by rw [List.length_set]; exact image.length_lt⟩

section Poke

variable {blockSize paddr k : Nat} {image : Image} {v : UInt8}

theorem chunk_poke_self : chunk blockSize (image.poke (paddr * blockSize + k) v).bytes paddr
    = (chunk blockSize image.bytes paddr).set k v := by
  rw [chunk, chunk, Image.poke, List.drop_set, if_neg (by omega), Nat.add_sub_cancel_left,
    List.take_set]

theorem chunk_poke_of_ne (hk : k < blockSize) {q : Nat} (hq : q ≠ paddr) :
    chunk blockSize (image.poke (paddr * blockSize + k) v).bytes q
      = chunk blockSize image.bytes q := by
  rw [chunk, chunk, Image.poke, List.drop_set]
  rcases Nat.lt_or_gt_of_ne hq with hlt | hgt
  · -- the byte is behind the block
    have hle : (q + 1) * blockSize ≤ paddr * blockSize := Nat.mul_le_mul_right _ hlt
    rw [Nat.add_one_mul] at hle
    rw [if_neg (by omega), List.take_set, List.set_eq_of_length_le]
    rw [List.length_take]
    omega
  · have hle : (paddr + 1) * blockSize ≤ q * blockSize := Nat.mul_le_mul_right _ hgt
    rw [Nat.add_one_mul] at hle
    rw [if_pos (by omega)]

theorem overwritten_poke (hk : k < blockSize) (hstored : 8 ≤ k) {block : Bytes}
    (hblock : chunk blockSize image.bytes paddr = block) (hverified : Verifies block)
    (hne : leU32 block (4 * (k / 4)) ≠ leU32 (block.set k v) (4 * (k / 4)))
    (hseen : ¬ ZerosAndOnes (leU32 block (4 * (k / 4))) (leU32 (block.set k v) (4 * (k / 4)))) :
    Overwritten blockSize paddr (k / 4) image (image.poke (paddr * blockSize + k) v) where
  length_eq := List.length_set
  chunk_eq _ hq := chunk_poke_of_ne hk hq
  verified := hblock ▸ hverified
  aligned := Or.inr (by omega)
  within m hm := by
    rw [chunk_poke_self] at hm
    have heq : m = k := by
      by_contra hmk
      exact hm (List.getElem?_set_ne (Ne.symm hmk)).symm
    omega
  seen := by
    rw [chunk_poke_self, hblock]
    exact ⟨k / 4, hne, hseen⟩

end Poke

/-- The volume of the file with a hole, in a container with a space manager: the chunk-info block
11 has one chunk of 16 blocks, with block 12 for its bitmap. -/
def surveyedBlocks : List Bytes :=
  mountBlocks [] tailHoleRecords [List.replicate 4096 7, spacemanBlock 4096 16 1 16 1 [11],
    cibBlock 4096 [12], padTo 4096 [0xff, 0x1f]]

def surveyedFs : ApfsFs where
  reader := .ofBlocks surveyedBlocks
  volume := soleVolume 2 5
  blockSize := 4096
  rootXid := 2
  spacemanPaddr := some 10

/-- What the extents, the space manager and byte 100 of the chunk-info block say. -/
def SurveyedWords : Prop :=
  (leU32 (cibBlock 4096 [12]) 100 = 0 ∧ leU32 ((cibBlock 4096 [12]).set 100 1) 100 = 1) ∧
  ((spacemanBlock 4096 16 1 16 1 [11]).length = 4096 ∧ (cibBlock 4096 [12]).length = 4096 ∧
    (padTo 4096 [0xff, 0x1f]).length = 4096) ∧
  ((SpacemanGeometry.parse (spacemanBlock 4096 16 1 16 1 [11])).cibCount = 1 ∧
    cibPaddr (spacemanBlock 4096 16 1 16 1 [11]) 0 = 11) ∧
  (ciCount (cibBlock 4096 [12]) = 1 ∧ ciBitmapAddr (cibBlock 4096 [12]) 0 = 12) ∧
  ∀ e ∈ tailHoleRecords, jkeyType e.key = some .fileExtent →
    ¬ (decodeFileExtent e.key e.value).PointsAt 4096 11

instance : Decidable SurveyedWords := inferInstanceAs (Decidable (_ ∧ _))

theorem surveyedWords : SurveyedWords := by decide +kernel

theorem hasBlocks_surveyed : (Image.ofBlocks surveyedBlocks).HasBlocks 4096 surveyedBlocks := by
  refine hasBlocks_mountBlocks tailHoleHeaders.1.1 tailHoleHeaders.1.2 ?_ (by decide)
  obtain ⟨hsm, hcib, hbitmap⟩ := surveyedWords.2.1
  simp only [List.forall_mem_cons, List.length_replicate, hsm, hcib, hbitmap, List.not_mem_nil,
    false_imp_iff, implies_true, and_self]

theorem freeOfContent_surveyed (xts : Xts) :
    FreeOfContent xts (.ofBlocks surveyedBlocks) (soleVolume 2 5) 4096 11 := by
  intro streamOid exts hexts ext hext
  rw [listExtents_eq, fsRecords, walkFsTree_mount hasBlocks_surveyed mountHeaders.2.2.2.2.2 rfl
    tailHoleHeaders.1.2] at hexts
  cases hexts
  have hmem : ext ∈ fileExtents streamOid tailHoleRecords :=
    (List.perm_insertionSort _ _).mem_iff.mp hext
  obtain ⟨e, he, rfl⟩ := List.mem_map.mp hmem
  rw [List.mem_filter, decide_eq_true_eq] at he
  exact surveyedWords.2.2.2.2 e he.1 he.2.1

/-- A sealed block of a laid out image. -/
theorem readObjBlock_of_sealed {image : Image} {blocks : List Bytes} {blockSize i : Nat}
    (h : image.HasBlocks blockSize blocks) {body : Bytes}
    (hb : blocks[i]? = some (sealBlock body)) :
    readObjBlock image i blockSize = .ok (sealBlock body) := by
  rw [readObjBlock, h.readBlock hb, ok_bind,
    verifyChecksum_eq_ok_iff.mpr (sealBlock_verifies body), ok_bind]
  rfl

/-- The chunk-info block is not the bitmap. -/
theorem not_isBitmap_surveyed : ¬ IsBitmap (.ofBlocks surveyedBlocks) 4096 10 11 := by
  rintro ⟨sm, cibIdx, cib, within, hsm, hcibIdx, hcib, hwithin, _, haddr⟩
  obtain ⟨_, _, ⟨hcount, hpaddr⟩, ⟨hentries, hbitmap⟩, _⟩ := surveyedWords
  cases (readObjBlock_of_sealed (i := 10) hasBlocks_surveyed rfl).symm.trans hsm
  change cibIdx < (SpacemanGeometry.parse (spacemanBlock 4096 16 1 16 1 [11])).cibCount at hcibIdx
  rw [hcount] at hcibIdx
  obtain rfl : cibIdx = 0 := by omega
  change readObjBlock _ (cibPaddr (spacemanBlock 4096 16 1 16 1 [11]) 0) 4096 = .ok cib at hcib
  rw [hpaddr] at hcib
  cases (readObjBlock_of_sealed (i := 11) hasBlocks_surveyed rfl).symm.trans hcib
  change within < ciCount (cibBlock 4096 [12]) at hwithin
  rw [hentries] at hwithin
  obtain rfl : within = 0 := by omega
  change ciBitmapAddr (cibBlock 4096 [12]) 0 = 11 at haddr
  rw [hbitmap] at haddr
  cases haddr

theorem overwritten_surveyedFs :
    Degrades (surveyedFs.serve .stored .uncalled .unallocated)
        (ApfsFs.serve .stored .uncalled
          { surveyedFs with reader := (Image.ofBlocks surveyedBlocks).poke (11 * 4096 + 100) 1 }
          .unallocated) ∧
      Degrades
        (surveyedFs.serve .stored .uncalled (.read (.readAt (.apfsOid 5 2) .default 0 100)))
        (ApfsFs.serve .stored .uncalled
          { surveyedFs with reader := (Image.ofBlocks surveyedBlocks).poke (11 * 4096 + 100) 1 }
          (.read (.readAt (.apfsOid 5 2) .default 0 100))) := by
  have hcib : surveyedBlocks[11]? = some (cibBlock 4096 [12]) := rfl
  have hover : Overwritten 4096 11 (100 / 4) (.ofBlocks surveyedBlocks)
      ((Image.ofBlocks surveyedBlocks).poke (11 * 4096 + 100) 1) := by
    refine overwritten_poke (by decide) (by decide) (hasBlocks_surveyed.chunk_eq hcib)
      (sealBlock_verifies _) ?_ ?_
    · rw [show 4 * (100 / 4) = 100 from rfl, surveyedWords.1.1, surveyedWords.1.2]
      decide
    · rw [show 4 * (100 / 4) = 100 from rfl, surveyedWords.1.1, surveyedWords.1.2]
      unfold ZerosAndOnes
      decide
  obtain ⟨hserve, _⟩ := @overwritten_block_never_misleads .stored .uncalled surveyedFs _ 11 _ hover
    rfl (freeOfContent_surveyed .uncalled)
  refine ⟨hserve .unallocated fun _ smPaddr hsm => ?_, hserve (.read _) fun h => by cases h⟩
  cases hsm
  exact not_isBitmap_surveyed

end ApfsForensic
