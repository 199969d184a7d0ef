import ApfsForensic.Core.ApfsContainer
import ApfsForensic.Core.EncryptedExtent
import ApfsForensic.Core.TreeWalks
import ApfsForensic.Walk.Logged
import Mathlib.Order.CompletePartialOrder
import Mathlib.Order.Interval.Set.Disjoint

/-!
# The areas that are decrypted

`decrypt_volume_area` is called by `descend_virtual` for a node and by `read_stream`
for the blocks of an extent.  The runs of this file are those functions with the
list of the calls they make (`walkFsTreeRun_snd`, `readStreamRun_snd`).

Every call is made on one block, and block `i` of an extent is decrypted under the
tweak `crypto_id + i` after the blocks before it (`Orderly`).  So the areas are
whole sectors exactly if blocks are, and blocks are apart as long as the sector
numbers do not saturate (`whole_sectors_iff`).  Neither is checked by `open`, which
takes any block size between 4096 and 65536.
-/

namespace ApfsForensic

open Walk ApfsContainer

/-! ### Calls -/

/-- What an area is decrypted for. -/
inductive AreaOwner
  | node (oid : Nat)
  | block (ext : FileExtent) (i : Nat)
  deriving DecidableEq, Repr

/-- A call of `decrypt_volume_area`. -/
structure AreaCall where
  owner : AreaOwner
  data : Bytes
  tweakBlock : Nat
  deriving DecidableEq, Repr

namespace AreaCall

/-- The area is a positive number of sectors. -/
def Whole (call : AreaCall) : Prop :=
  0 < call.data.length ∧ apfsCryptoSector ∣ call.data.length

/-- `first_sector`. -/
def firstSector (blockSize : Nat) (call : AreaCall) : Nat :=
  saturatingMul call.tweakBlock (blockSize / apfsCryptoSector)

/-- The sector numbers that the area routine takes its tweaks from: one for each
sector of the area, a last partial one included. -/
def sectors (blockSize : Nat) (call : AreaCall) : Set Nat :=
  Set.Ico (call.firstSector blockSize)
    (call.firstSector blockSize + (call.data.length + apfsCryptoSector - 1) / apfsCryptoSector)

/-- The call as a run. -/
def run (xts : Xts) (vek : Vek) (blockSize : Nat) (call : AreaCall) :
    List AreaCall × Result Bytes :=
  ([call], decryptVolumeArea xts call.data vek call.tweakBlock blockSize)

end AreaCall

/-! ### The runs -/

section Runs

variable {σ : Type} (xts : Xts) (image : Image) (blockSize : Nat)

/-- `readVirtualNode` with its calls. -/
def readVirtualNodeRun (omap : ObjectMap) (vek : Option Vek) (xid oid : Nat) :
    List AreaCall × Result Bytes :=
  andThen ([], omap.resolve image oid xid blockSize) fun entry =>
  andThen ([], image.readBlock entry.paddr blockSize) fun buf =>
  andThen
    (if entry.flags &&& omapValEncrypted ≠ 0 then
      match vek with
      | some vek => AreaCall.run xts vek blockSize ⟨.node oid, buf, entry.paddr⟩
      | none => ([], .ok buf)
    else ([], .ok buf)) fun buf =>
  andThen ([], verifyChecksum buf (headerOidOr buf entry.paddr)) fun _ => ([], .ok buf)

/-- `walkFsTree` with its calls. -/
def walkFsTreeRun (volume : ApfsVolume) (targetOid : Option Nat)
    (visit : σ → Bytes → Bytes → σ) (acc : σ) : List AreaCall × Result σ :=
  andThen ([], readObjectMap image volume.omapOid blockSize) fun omap =>
    let descent := fsTreeRun image blockSize xts omap volume targetOid visit acc
    (descent.1.flatMap (fun oid =>
        (readVirtualNodeRun xts image blockSize omap volume.vek volume.xid oid).1),
      descent.2.map Prod.snd)

/-- The call for block `i` of the whole blocks `tmp` of an extent. -/
def blockCall (ext : FileExtent) (tmp : Bytes) (i : Nat) : AreaCall :=
  ⟨.block ext i, chunk blockSize tmp i, saturatingAdd ext.cryptoId i⟩

/-- `decryptBlocks` with its calls. -/
def decryptBlocksRun (vek : Vek) (ext : FileExtent) (nblocks : Nat) (tmp : Bytes) :
    List AreaCall × Result (List Bytes) :=
  foldLogged (fun blocks i =>
    andThen ((blockCall blockSize ext tmp i).run xts vek blockSize) fun block =>
      ([], .ok (blocks ++ [block]))) (List.range nblocks) []

/-- `readExtent` with its calls. -/
def readExtentRun (vek : Option Vek) (ext : FileExtent) (byteOff copyLen : Nat) :
    List AreaCall × Result Bytes :=
  match vek with
  | some vek =>
    if ext.cryptoId ≠ 0 then
      let nblocks := (copyLen + blockSize - 1) / blockSize
      andThen ([], image.readExact byteOff (nblocks * blockSize)) fun tmp =>
      andThen (decryptBlocksRun xts blockSize vek ext nblocks tmp) fun blocks =>
      ([], .ok (blocks.flatten.take copyLen))
    else ([], image.readExact byteOff copyLen)
  | none => ([], image.readExact byteOff copyLen)

/-- `fillExtent` with its calls. -/
def fillExtentRun (vek : Option Vek) (size : Nat) (out : Bytes) (ext : FileExtent) :
    List AreaCall × Result Bytes :=
  let start := ext.logicalOffset
  if start ≥ size ∨ ext.physBlockNum = 0 then ([], .ok out)
  else if blockSize = 0 then ([], .error .panic)
  else
    match checkedMul ext.physBlockNum blockSize with
    | none => ([], .error (.err (.fieldOutOfRange "j_file_extent" "phys_block_num"
        ext.physBlockNum (u64Max / blockSize))))
    | some byteOff =>
      andThen (readExtentRun xts image blockSize vek ext byteOff (min ext.len (size - start)))
        fun s => ([], .ok (writeAt out start s))

/-- `listExtents` with its calls. -/
def listExtentsRun (volume : ApfsVolume) (streamOid : Nat) :
    List AreaCall × Result (List FileExtent) :=
  andThen (walkFsTreeRun xts image blockSize volume (some streamOid) (fun out key value =>
      if jkeyType key ≠ some .fileExtent ∨ jkeyOid key ≠ streamOid then out
      else out ++ [decodeFileExtent key value]) []) fun out =>
    ([], .ok (out.insertionSort (fun a b => a.logicalOffset ≤ b.logicalOffset)))

/-- `readStream` with its calls. -/
def readStreamRun (volume : ApfsVolume) (streamOid logicalSize : Nat) :
    List AreaCall × Result Bytes :=
  if logicalSize > maxFileBytes then
    ([], .error (.err (.fieldOutOfRange "j_dstream" "size" logicalSize maxFileBytes)))
  else
    andThen (listExtentsRun xts image blockSize volume streamOid) fun extents =>
    foldLogged (fillExtentRun xts image blockSize volume.vek logicalSize) extents
      (List.replicate logicalSize 0)

end Runs

/-! ### The log changes nothing -/

section Erase

variable {σ : Type} (xts : Xts) (image : Image) (blockSize : Nat)

theorem walkFsTreeRun_snd (volume : ApfsVolume) (targetOid : Option Nat)
    (visit : σ → Bytes → Bytes → σ) (acc : σ) :
    (walkFsTreeRun xts image blockSize volume targetOid visit acc).2
      = walkFsTree xts image volume blockSize targetOid visit acc := by
  rw [walkFsTreeRun, andThen_snd]
  cases homap : readObjectMap image volume.omapOid blockSize with
  | error f =>
    rw [walkFsTree, homap, error_bind, error_bind]
  | ok omap =>
    rw [walkFsTree_eq_run image blockSize homap]
    rfl

theorem readVirtualNodeRun_snd (omap : ObjectMap) (vek : Option Vek) (xid oid : Nat) :
    (readVirtualNodeRun xts image blockSize omap vek xid oid).2
      = readVirtualNode xts image omap vek xid blockSize oid := by
  rw [readVirtualNodeRun, readVirtualNode, andThen_snd]
  congr 1
  funext entry
  rw [andThen_snd]
  congr 1
  funext buf
  rw [andThen_snd]
  congr 1
  · unfold decryptNode
    by_cases hflag : entry.flags &&& omapValEncrypted ≠ 0
    · rw [if_pos hflag, if_pos hflag]
      cases vek <;> rfl
    · rw [if_neg hflag, if_neg hflag]
  · funext plain
    rw [andThen_snd]
    rfl

theorem foldlM_map_snoc {f : Nat → Result Bytes} : ∀ (l : List Nat) (out : List Bytes),
    l.foldlM (fun out i => f i >>= fun s => .ok (out ++ [s])) out
      = l.mapM f >>= fun rest => .ok (out ++ rest) := by
  intro l
  induction l with
  | nil => intro out; simp [List.foldlM_nil, pure, Except.pure]
  | cons i l ih =>
    intro out
    rw [List.foldlM_cons, List.mapM_cons]
    cases f i with
    | error e => rfl
    | ok s =>
      rw [ok_bind, ok_bind, ok_bind, ih]
      cases l.mapM f with
      | error e => rfl
      | ok rest => simp [ok_bind, pure, Except.pure]

theorem decryptBlocksRun_snd (vek : Vek) (ext : FileExtent) (nblocks : Nat) (tmp : Bytes) :
    (decryptBlocksRun xts blockSize vek ext nblocks tmp).2.map List.flatten
      = decryptBlocks xts blockSize vek ext.cryptoId nblocks tmp := by
  rw [decryptBlocksRun, foldLogged_snd (fun _ _ => andThen_snd _ _), decryptBlocks]
  show Except.map _ (List.foldlM (fun out i => decryptVolumeArea xts (chunk blockSize tmp i) vek
    (saturatingAdd ext.cryptoId i) blockSize >>= fun s => .ok (out ++ [s])) [] _) = _
  rw [foldlM_map_snoc]
  cases (List.range nblocks).mapM (fun i => decryptVolumeArea xts (chunk blockSize tmp i) vek
    (saturatingAdd ext.cryptoId i) blockSize) <;> rfl

theorem readExtentRun_snd (vek : Option Vek) (ext : FileExtent) (byteOff copyLen : Nat) :
    (readExtentRun xts image blockSize vek ext byteOff copyLen).2
      = readExtent xts image vek blockSize ext byteOff copyLen := by
  cases vek with
  | none => rfl
  | some vek =>
    rw [readExtentRun, readExtent]
    by_cases hc : ext.cryptoId ≠ 0
    · rw [if_pos hc, if_pos hc, andThen_snd]
      congr 1
      funext tmp
      rw [andThen_snd, ← decryptBlocksRun_snd]
      cases (decryptBlocksRun xts blockSize vek ext ((copyLen + blockSize - 1) / blockSize) tmp).2
        <;> rfl
    · rw [if_neg hc, if_neg hc]

theorem fillExtentRun_snd (vek : Option Vek) (size : Nat) (out : Bytes) (ext : FileExtent) :
    (fillExtentRun xts image blockSize vek size out ext).2
      = fillExtent xts image vek blockSize size out ext := by
  unfold fillExtentRun fillExtent
  by_cases hskip : ext.logicalOffset ≥ size ∨ ext.physBlockNum = 0
  · simp only [if_pos hskip]
    rfl
  · simp only [if_neg hskip]
    by_cases hbs : blockSize = 0
    · simp only [if_pos hbs]
      rfl
    · simp only [if_neg hbs]
      cases checkedMul ext.physBlockNum blockSize with
      | none => rfl
      | some byteOff =>
        simp only [andThen_snd, readExtentRun_snd]
        rfl

theorem listExtentsRun_snd (volume : ApfsVolume) (streamOid : Nat) :
    (listExtentsRun xts image blockSize volume streamOid).2
      = listExtents xts image volume blockSize streamOid := by
  rw [listExtentsRun, andThen_snd, walkFsTreeRun_snd, listExtents, forEachFsRecordForOid]
  rfl

theorem readStreamRun_snd (volume : ApfsVolume) (streamOid logicalSize : Nat) :
    (readStreamRun xts image blockSize volume streamOid logicalSize).2
      = readStream xts image volume blockSize streamOid logicalSize := by
  rw [readStreamRun, readStream]
  by_cases hsize : logicalSize > maxFileBytes
  · rw [if_pos hsize, if_pos hsize]
    rfl
  · rw [if_neg hsize, if_neg hsize, andThen_snd, listExtentsRun_snd]
    congr 1
    funext extents
    exact foldLogged_snd (fun _ _ => fillExtentRun_snd ..) _ _

end Erase

/-! ### What is called -/

/-- Each of these calls is on one block, for a node. -/
def NodeCalls (blockSize : Nat) (calls : List AreaCall) : Prop :=
  ∀ call ∈ calls, call.data.length = blockSize ∧ ∃ oid, call.owner = .node oid

theorem NodeCalls.nil {blockSize : Nat} : NodeCalls blockSize [] :=
  fun _ h => absurd h List.not_mem_nil

theorem NodeCalls.append {blockSize : Nat} {l l' : List AreaCall} (h : NodeCalls blockSize l)
    (h' : NodeCalls blockSize l') : NodeCalls blockSize (l ++ l') :=
  fun call hc => (List.mem_append.mp hc).elim (h call) (h' call)

/-- Each of these calls is on one block, and block `i + 1` of an extent comes with
block `i`. -/
structure Orderly (blockSize : Nat) (calls : List AreaCall) : Prop where
  length_eq : ∀ call ∈ calls, call.data.length = blockSize
  tweak_eq : ∀ call ∈ calls, ∀ ext i, call.owner = .block ext i →
    call.tweakBlock = saturatingAdd ext.cryptoId i
  pred : ∀ call ∈ calls, ∀ ext i, call.owner = .block ext (i + 1) →
    ∃ prev ∈ calls, prev.owner = .block ext i

namespace Orderly

variable {blockSize : Nat}

theorem nil : Orderly blockSize [] :=
  ⟨fun _ h => absurd h List.not_mem_nil, fun _ h => absurd h List.not_mem_nil,
    fun _ h => absurd h List.not_mem_nil⟩

theorem append {l l' : List AreaCall} (h : Orderly blockSize l) (h' : Orderly blockSize l') :
    Orderly blockSize (l ++ l') where
  length_eq call hc := (List.mem_append.mp hc).elim (h.length_eq call) (h'.length_eq call)
  tweak_eq call hc := (List.mem_append.mp hc).elim (h.tweak_eq call) (h'.tweak_eq call)
  pred call hc ext i howner := by
    rcases List.mem_append.mp hc with hc | hc
    · obtain ⟨prev, hp, hprev⟩ := h.pred call hc ext i howner
      exact ⟨prev, List.mem_append_left _ hp, hprev⟩
    · obtain ⟨prev, hp, hprev⟩ := h'.pred call hc ext i howner
      exact ⟨prev, List.mem_append_right _ hp, hprev⟩

theorem of_nodes {calls : List AreaCall} (h : NodeCalls blockSize calls) :
    Orderly blockSize calls where
  length_eq call hc := (h call hc).1
  tweak_eq call hc ext i howner := by
    obtain ⟨_, oid, hoid⟩ := h call hc
    rw [hoid] at howner
    cases howner
  pred call hc ext i howner := by
    obtain ⟨_, oid, hoid⟩ := h call hc
    rw [hoid] at howner
    cases howner

/-- The calls for the first blocks of an extent. -/
theorem blocks {ext : FileExtent} {tmp : Bytes} {n : Nat} (htmp : n * blockSize ≤ tmp.length) :
    Orderly blockSize ((List.range n).map (blockCall blockSize ext tmp)) where
  length_eq call hc := by
    obtain ⟨i, hi, rfl⟩ := List.mem_map.mp hc
    have hle : (i + 1) * blockSize ≤ n * blockSize :=
      Nat.mul_le_mul_right _ (List.mem_range.mp hi)
    exact length_chunk (hle.trans htmp)
  tweak_eq call hc ext' i howner := by
    obtain ⟨j, _, rfl⟩ := List.mem_map.mp hc
    cases howner
    rfl
  pred call hc ext' i howner := by
    obtain ⟨j, hj, rfl⟩ := List.mem_map.mp hc
    cases howner
    have hi : i ∈ List.range n := List.mem_range.mpr (by have := List.mem_range.mp hj; omega)
    exact ⟨_, List.mem_map_of_mem hi, rfl⟩

end Orderly

section Orderly

variable {σ : Type} {xts : Xts} {image : Image} {blockSize : Nat}

theorem nodeCalls_readVirtualNodeRun (omap : ObjectMap) (vek : Option Vek) (xid oid : Nat) :
    NodeCalls blockSize (readVirtualNodeRun xts image blockSize omap vek xid oid).1 := by
  refine andThen_fst_induction .append .nil fun entry _ => ?_
  refine andThen_fst_induction .append .nil fun buf hbuf => ?_
  refine andThen_fst_induction .append ?_ fun _ _ => ?_
  · by_cases hflag : entry.flags &&& omapValEncrypted ≠ 0
    · rw [if_pos hflag]
      cases vek with
      | none => exact .nil
      | some vek =>
        intro call hc
        rw [List.mem_singleton.mp hc]
        exact ⟨Image.length_of_readBlock hbuf, oid, rfl⟩
    · rw [if_neg hflag]
      exact .nil
  · exact andThen_fst_induction .append .nil fun _ _ => .nil

theorem nodeCalls_walkFsTreeRun (volume : ApfsVolume) (targetOid : Option Nat)
    (visit : σ → Bytes → Bytes → σ) (acc : σ) :
    NodeCalls blockSize (walkFsTreeRun xts image blockSize volume targetOid visit acc).1 := by
  refine andThen_fst_induction .append .nil fun omap _ => ?_
  exact flatMap_induction .append .nil (fun oid => nodeCalls_readVirtualNodeRun omap _ _ oid) _

theorem nodeCalls_listExtentsRun (volume : ApfsVolume) (streamOid : Nat) :
    NodeCalls blockSize (listExtentsRun xts image blockSize volume streamOid).1 :=
  andThen_fst_induction .append (nodeCalls_walkFsTreeRun _ _ _ _) fun _ _ => .nil

/-- One round of the loop makes the call for its block. -/
theorem blockCall_logged (vek : Vek) (ext : FileExtent) (tmp : Bytes) (blocks : List Bytes)
    (i : Nat) :
    (andThen ((blockCall blockSize ext tmp i).run xts vek blockSize) fun block =>
      ([], .ok (blocks ++ [block]))).1 = [blockCall blockSize ext tmp i] := by
  rw [AreaCall.run]
  cases decryptVolumeArea xts (blockCall blockSize ext tmp i).data vek
    (blockCall blockSize ext tmp i).tweakBlock blockSize <;> rfl

/-- The loop ends at the first block that cannot be decrypted. -/
theorem decryptBlocksRun_fst (xts : Xts) (blockSize : Nat) (vek : Vek) (ext : FileExtent)
    (nblocks : Nat) (tmp : Bytes) :
    ∃ n ≤ nblocks, (decryptBlocksRun xts blockSize vek ext nblocks tmp).1
      = (List.range n).map (blockCall blockSize ext tmp) := by
  obtain ⟨n, hn⟩ := foldLogged_fst_eq_take (blockCall_logged vek ext tmp) (List.range nblocks) []
  rw [List.take_range] at hn
  exact ⟨min n nblocks, Nat.min_le_right _ _, hn⟩

theorem orderly_decryptBlocksRun (vek : Vek) (ext : FileExtent) {nblocks : Nat} {tmp : Bytes}
    (htmp : tmp.length = nblocks * blockSize) :
    Orderly blockSize (decryptBlocksRun xts blockSize vek ext nblocks tmp).1 := by
  obtain ⟨n, hle, hn⟩ := decryptBlocksRun_fst xts blockSize vek ext nblocks tmp
  rw [hn]
  refine .blocks ?_
  rw [htmp]
  exact Nat.mul_le_mul_right _ hle

theorem orderly_readExtentRun (vek : Option Vek) (ext : FileExtent) (byteOff copyLen : Nat) :
    Orderly blockSize (readExtentRun xts image blockSize vek ext byteOff copyLen).1 := by
  cases vek with
  | none => exact .nil
  | some vek =>
    rw [readExtentRun]
    by_cases hc : ext.cryptoId ≠ 0
    · rw [if_pos hc]
      refine andThen_fst_induction .append .nil fun tmp htmp => ?_
      refine andThen_fst_induction .append ?_ fun _ _ => .nil
      exact orderly_decryptBlocksRun vek ext (Image.length_of_readExact htmp)
    · rw [if_neg hc]
      exact .nil

theorem orderly_fillExtentRun (vek : Option Vek) (size : Nat) (out : Bytes) (ext : FileExtent) :
    Orderly blockSize (fillExtentRun xts image blockSize vek size out ext).1 := by
  unfold fillExtentRun
  by_cases hskip : ext.logicalOffset ≥ size ∨ ext.physBlockNum = 0
  · simp only [if_pos hskip]
    exact .nil
  · simp only [if_neg hskip]
    by_cases hbs : blockSize = 0
    · simp only [if_pos hbs]
      exact .nil
    · simp only [if_neg hbs]
      cases checkedMul ext.physBlockNum blockSize with
      | none => exact .nil
      | some byteOff =>
        exact andThen_fst_induction .append (orderly_readExtentRun ..) fun _ _ => .nil

theorem orderly_readStreamRun (volume : ApfsVolume) (streamOid logicalSize : Nat) :
    Orderly blockSize (readStreamRun xts image blockSize volume streamOid logicalSize).1 := by
  rw [readStreamRun]
  by_cases hsize : logicalSize > maxFileBytes
  · rw [if_pos hsize]
    exact .nil
  · rw [if_neg hsize]
    refine andThen_fst_induction .append (.of_nodes (nodeCalls_listExtentsRun _ _)) fun extents _ => ?_
    exact foldLogged_fst_induction .append .nil (fun _ _ _ => orderly_fillExtentRun ..) _

end Orderly

/-- Each of these calls is for a node, or for a block that one of the extents has. -/
def OwnedBy (blockSize : Nat) (exts : List FileExtent) (calls : List AreaCall) : Prop :=
  ∀ call ∈ calls, (∃ oid, call.owner = .node oid) ∨
    ∃ ext ∈ exts, ∃ i, i * blockSize < ext.len ∧ call.owner = .block ext i

section Owners

variable {xts : Xts} {image : Image} {blockSize : Nat} {exts : List FileExtent}

theorem OwnedBy.nil : OwnedBy blockSize exts [] := fun _ h => absurd h List.not_mem_nil

theorem OwnedBy.append {l l' : List AreaCall} (h : OwnedBy blockSize exts l)
    (h' : OwnedBy blockSize exts l') : OwnedBy blockSize exts (l ++ l') :=
  fun call hc => (List.mem_append.mp hc).elim (h call) (h' call)

theorem OwnedBy.of_nodes {calls : List AreaCall} (h : NodeCalls blockSize calls) :
    OwnedBy blockSize exts calls :=
  fun call hc => Or.inl (h call hc).2

theorem ownedBy_readExtentRun (vek : Option Vek) {ext : FileExtent} (hext : ext ∈ exts)
    (byteOff : Nat) {copyLen : Nat} (hlen : copyLen ≤ ext.len) :
    OwnedBy blockSize exts (readExtentRun xts image blockSize vek ext byteOff copyLen).1 := by
  cases vek with
  | none => exact .nil
  | some vek =>
    rw [readExtentRun]
    by_cases hc : ext.cryptoId ≠ 0
    · rw [if_pos hc]
      refine andThen_fst_induction .append .nil fun tmp _ => ?_
      refine andThen_fst_induction .append ?_ fun _ _ => .nil
      obtain ⟨n, hle, hn⟩ := decryptBlocksRun_fst xts blockSize vek ext
        ((copyLen + blockSize - 1) / blockSize) tmp
      rw [hn]
      intro call hcall
      obtain ⟨i, hi, rfl⟩ := List.mem_map.mp hcall
      have hlt : i + 1 ≤ (copyLen + blockSize - 1) / blockSize :=
        (List.mem_range.mp hi).trans_le hle
      have hmul := (Nat.mul_le_mul_right blockSize hlt).trans (Nat.div_mul_le_self _ _)
      rw [Nat.add_one_mul] at hmul
      have hpos : 0 < blockSize := by
        by_contra hzero
        rw [Nat.eq_zero_of_not_pos hzero, Nat.div_zero] at hlt
        omega
      exact Or.inr ⟨ext, hext, i, by omega, rfl⟩
    · rw [if_neg hc]
      exact .nil

theorem ownedBy_fillExtentRun (vek : Option Vek) (size : Nat) (out : Bytes) {ext : FileExtent}
    (hext : ext ∈ exts) :
    OwnedBy blockSize exts (fillExtentRun xts image blockSize vek size out ext).1 := by
  unfold fillExtentRun
  by_cases hskip : ext.logicalOffset ≥ size ∨ ext.physBlockNum = 0
  · simp only [if_pos hskip]
    exact .nil
  · simp only [if_neg hskip]
    by_cases hbs : blockSize = 0
    · simp only [if_pos hbs]
      exact .nil
    · simp only [if_neg hbs]
      cases checkedMul ext.physBlockNum blockSize with
      | none => exact .nil
      | some byteOff =>
        refine andThen_fst_induction .append ?_ fun _ _ => .nil
        exact ownedBy_readExtentRun vek hext byteOff (Nat.min_le_left _ _)

/-- The blocks of an extent that is read under a key are decrypted, each of them. -/
theorem mem_fillExtentRun {key : Vek} {size : Nat} {out out' : Bytes} {ext : FileExtent}
    (hok : (fillExtentRun xts image blockSize (some key) size out ext).2 = .ok out')
    (hstored : ext.Stored size) (hcrypto : ext.cryptoId ≠ 0) {i : Nat}
    (hi : i * blockSize < min ext.len (size - ext.logicalOffset)) :
    ∃ call ∈ (fillExtentRun xts image blockSize (some key) size out ext).1,
      call.owner = .block ext i := by
  obtain ⟨hphys, hlt⟩ := hstored
  have hskip : ¬ (ext.logicalOffset ≥ size ∨ ext.physBlockNum = 0) := by omega
  unfold fillExtentRun at hok ⊢
  simp only [if_neg hskip] at hok ⊢
  by_cases hbs : blockSize = 0
  · rw [if_pos hbs] at hok
    cases hok
  · rw [if_neg hbs] at hok ⊢
    cases hmul : checkedMul ext.physBlockNum blockSize with
    | none => rw [hmul] at hok; cases hok
    | some byteOff =>
      rw [hmul] at hok
      simp only [andThen_snd, bind_eq_ok_iff, readExtentRun, if_pos hcrypto] at hok
      obtain ⟨_, ⟨tmp, htmp, blocks, hblocks, _⟩, _⟩ := hok
      refine ⟨blockCall blockSize ext tmp i, ?_, rfl⟩
      refine mem_andThen_of_mem ?_
      simp only [readExtentRun, if_pos hcrypto]
      refine mem_andThen_of_ok htmp (mem_andThen_of_mem ?_)
      have hlog : (decryptBlocksRun xts blockSize key ext
          ((min ext.len (size - ext.logicalOffset) + blockSize - 1) / blockSize) tmp).1 = _ :=
        foldLogged_fst_eq_map (blockCall_logged key ext tmp) hblocks
      rw [hlog]
      refine List.mem_map_of_mem (List.mem_range.mpr ?_)
      have hpos : 0 < blockSize := Nat.pos_of_ne_zero hbs
      refine (Nat.le_div_iff_mul_le hpos).mpr ?_
      rw [Nat.succ_mul]
      omega

end Owners

/-! ### Sectors -/

/-- A call that walking the fs-tree of a volume or reading one of its streams makes. -/
inductive VolumeCall (xts : Xts) (image : Image) (volume : ApfsVolume) (blockSize : Nat)
    (call : AreaCall) : Prop
  | walk {σ : Type} (targetOid : Option Nat) (visit : σ → Bytes → Bytes → σ) (acc : σ)
      (mem : call ∈ (walkFsTreeRun xts image blockSize volume targetOid visit acc).1)
  | stream (streamOid logicalSize : Nat)
      (mem : call ∈ (readStreamRun xts image blockSize volume streamOid logicalSize).1)

namespace VolumeCall

variable {xts : Xts} {image : Image} {volume : ApfsVolume} {blockSize : Nat} {call : AreaCall}

/-- Every call belongs to an orderly log. -/
theorem exists_orderly (h : VolumeCall xts image volume blockSize call) :
    ∃ calls, call ∈ calls ∧ Orderly blockSize calls ∧
      ∀ c ∈ calls, VolumeCall xts image volume blockSize c := by
  cases h with
  | walk targetOid visit acc mem =>
    exact ⟨_, mem, .of_nodes (nodeCalls_walkFsTreeRun _ _ _ _),
      fun c hc => .walk targetOid visit acc hc⟩
  | stream streamOid logicalSize mem =>
    exact ⟨_, mem, orderly_readStreamRun .., fun c hc => .stream streamOid logicalSize hc⟩

theorem length_eq (h : VolumeCall xts image volume blockSize call) :
    call.data.length = blockSize := by
  obtain ⟨calls, hmem, horderly, _⟩ := h.exists_orderly
  exact horderly.length_eq call hmem

theorem tweak_eq (h : VolumeCall xts image volume blockSize call) {ext : FileExtent} {i : Nat}
    (howner : call.owner = .block ext i) : call.tweakBlock = saturatingAdd ext.cryptoId i := by
  obtain ⟨calls, hmem, horderly, _⟩ := h.exists_orderly
  exact horderly.tweak_eq call hmem ext i howner

theorem pred (h : VolumeCall xts image volume blockSize call) {ext : FileExtent} {i : Nat}
    (howner : call.owner = .block ext (i + 1)) :
    ∃ prev, VolumeCall xts image volume blockSize prev ∧ prev.owner = .block ext i := by
  obtain ⟨calls, hmem, horderly, hall⟩ := h.exists_orderly
  obtain ⟨prev, hp, hprev⟩ := horderly.pred call hmem ext i howner
  exact ⟨prev, hall prev hp, hprev⟩

/-- The sectors of a block of an extent. -/
theorem sectors_eq (h : VolumeCall xts image volume blockSize call) {ext : FileExtent} {i : Nat}
    (howner : call.owner = .block ext i) {spb : Nat} (hbs : blockSize = apfsCryptoSector * spb) :
    call.sectors blockSize
      = Set.Ico (saturatingMul (saturatingAdd ext.cryptoId i) spb)
          (saturatingMul (saturatingAdd ext.cryptoId i) spb + spb) := by
  have hdiv : blockSize / apfsCryptoSector = spb := by
    rw [hbs, Nat.mul_div_cancel_left _ (by decide)]
  have hceil : (blockSize + apfsCryptoSector - 1) / apfsCryptoSector = spb := by
    rw [hbs]
    unfold apfsCryptoSector
    omega
  rw [AreaCall.sectors, AreaCall.firstSector, h.length_eq, h.tweak_eq howner, hdiv, hceil]

/-- What is decrypted is a node, or a block of a listed extent. -/
theorem owner_cases (h : VolumeCall xts image volume blockSize call) :
    (∃ oid, call.owner = .node oid) ∨
      ∃ streamOid exts, listExtents xts image volume blockSize streamOid = .ok exts ∧
        ∃ ext ∈ exts, ∃ i, i * blockSize < ext.len ∧ call.owner = .block ext i := by
  cases h with
  | walk targetOid visit acc mem => exact Or.inl (nodeCalls_walkFsTreeRun _ _ _ _ call mem).2
  | stream streamOid logicalSize mem =>
    rw [readStreamRun] at mem
    by_cases hsize : logicalSize > maxFileBytes
    · rw [if_pos hsize] at mem
      cases mem
    · rw [if_neg hsize] at mem
      have hnodes := @nodeCalls_listExtentsRun xts image blockSize volume streamOid
      cases hexts : listExtents xts image volume blockSize streamOid with
      | error f =>
        have howned : OwnedBy blockSize [] (andThen (listExtentsRun xts image blockSize volume
            streamOid) fun extents => foldLogged (fillExtentRun xts image blockSize volume.vek
              logicalSize) extents (List.replicate logicalSize 0)).1 := by
          refine andThen_fst_induction .append (.of_nodes hnodes) fun extents hext => ?_
          rw [listExtentsRun_snd, hexts] at hext
          cases hext
        rcases howned call mem with hnode | ⟨ext, hext, _⟩
        · exact Or.inl hnode
        · cases hext
      | ok exts =>
        have howned : OwnedBy blockSize exts (andThen (listExtentsRun xts image blockSize volume
            streamOid) fun extents => foldLogged (fillExtentRun xts image blockSize volume.vek
              logicalSize) extents (List.replicate logicalSize 0)).1 := by
          refine andThen_fst_induction .append (.of_nodes hnodes) fun extents hext => ?_
          rw [listExtentsRun_snd, hexts] at hext
          cases hext
          exact foldLogged_fst_induction .append .nil
            (fun out ext hmem => ownedBy_fillExtentRun _ _ out hmem) _
        exact (howned call mem).imp_right fun howner => ⟨streamOid, exts, hexts, howner⟩

/-- A stream that is read under a key has the blocks of its encrypted extents decrypted. -/
theorem of_readStream {key : Vek} {streamOid size : Nat} {bytes : Bytes} {exts : List FileExtent}
    (hvek : volume.vek = some key)
    (hread : readStream xts image volume blockSize streamOid size = .ok bytes)
    (hexts : listExtents xts image volume blockSize streamOid = .ok exts) {ext : FileExtent}
    (hext : ext ∈ exts) (hstored : ext.Stored size) (hcrypto : ext.cryptoId ≠ 0) {i : Nat}
    (hi : i * blockSize < min ext.len (size - ext.logicalOffset)) :
    ∃ call, VolumeCall xts image volume blockSize call ∧ call.owner = .block ext i := by
  have hsize : ¬ size > maxFileBytes := by
    intro hgt
    rw [readStream, if_pos hgt] at hread
    cases hread
  have hlist := (listExtentsRun_snd xts image blockSize volume streamOid).trans hexts
  have hfold : (foldLogged (fillExtentRun xts image blockSize volume.vek size) exts
      (List.replicate size 0)).2 = .ok bytes := by
    rw [readStream, if_neg hsize, hexts, ok_bind] at hread
    rw [foldLogged_snd fun _ _ => fillExtentRun_snd ..]
    exact hread
  obtain ⟨out, out', hok, hmem⟩ := mem_foldLogged_of_ok hfold hext
  rw [hvek] at hok hmem hfold
  obtain ⟨call, hcall, howner⟩ := mem_fillExtentRun hok hstored hcrypto hi
  refine ⟨call, .stream streamOid size ?_, howner⟩
  rw [readStreamRun, if_neg hsize, hvek]
  exact mem_andThen_of_ok hlist (hmem call hcall)

end VolumeCall

/-- A flagged node that can be read is passed to the cipher. -/
theorem mem_readVirtualNodeRun {xts : Xts} {image : Image} {blockSize : Nat} {omap : ObjectMap}
    {vek : Vek} {xid oid : Nat} {entry : OmapEntry} {buf : Bytes}
    (hentry : omap.resolve image oid xid blockSize = .ok entry)
    (hread : image.readBlock entry.paddr blockSize = .ok buf)
    (hflag : entry.flags &&& omapValEncrypted ≠ 0) :
    ⟨.node oid, buf, entry.paddr⟩
      ∈ (readVirtualNodeRun xts image blockSize omap (some vek) xid oid).1 := by
  rw [readVirtualNodeRun, hentry, andThen_nil_ok, hread, andThen_nil_ok, if_pos hflag]
  exact mem_andThen_of_mem (List.mem_singleton.mpr rfl)

/-- The scaled tweak of a block, with both roundings. -/
theorem saturating_sector {c i spb : Nat} (hspb : 0 < spb) :
    saturatingMul (saturatingAdd c i) spb = min ((c + i) * spb) u64Max := by
  unfold saturatingMul saturatingAdd
  by_cases hi : c + i ≤ u64Max
  · rw [Nat.min_eq_left hi]
  · have hle : u64Max ≤ u64Max * spb := Nat.le_mul_of_pos_right _ hspb
    have hmono : u64Max * spb ≤ (c + i) * spb := Nat.mul_le_mul_right _ (by omega)
    rw [Nat.min_eq_right (by omega : u64Max ≤ c + i)]
    omega

/-- Two blocks have their sectors apart if the number of the later one is not cut
off; for consecutive blocks, only if. -/
theorem disjoint_sectors {c i j spb : Nat} (hspb : 0 < spb) (hij : i < j)
    (hfit : (c + j) * spb ≤ u64Max) :
    Disjoint
      (Set.Ico (saturatingMul (saturatingAdd c i) spb) (saturatingMul (saturatingAdd c i) spb + spb))
      (Set.Ico (saturatingMul (saturatingAdd c j) spb)
        (saturatingMul (saturatingAdd c j) spb + spb)) := by
  have hle : (c + i + 1) * spb ≤ (c + j) * spb := Nat.mul_le_mul_right _ (by omega)
  have hsucc : (c + i + 1) * spb = (c + i) * spb + spb := Nat.succ_mul _ _
  rw [saturating_sector hspb, saturating_sector hspb, Set.Ico_disjoint_Ico]
  omega

theorem fit_of_disjoint_sectors {c i spb : Nat} (hspb : 0 < spb)
    (h : Disjoint
      (Set.Ico (saturatingMul (saturatingAdd c i) spb) (saturatingMul (saturatingAdd c i) spb + spb))
      (Set.Ico (saturatingMul (saturatingAdd c (i + 1)) spb)
        (saturatingMul (saturatingAdd c (i + 1)) spb + spb))) :
    (c + (i + 1)) * spb ≤ u64Max := by
  have hsucc : (c + (i + 1)) * spb = (c + i) * spb + spb := by
    rw [← Nat.add_assoc, Nat.succ_mul]
  rw [saturating_sector hspb, saturating_sector hspb, Set.Ico_disjoint_Ico, hsucc] at h
  omega

/-- **Only whole sectors are decrypted exactly if blocks are whole sectors.**  For a
container whose block size is in range and any volume, every area is a positive
number of sectors and the blocks of an extent use sector numbers of their own,
exactly if, as soon as anything is decrypted, `512` divides the block size, and no
block after the first has a sector number past `u64::MAX`. -/
theorem whole_sectors_iff (xts : Xts) (image : Image) {container : ApfsContainer}
    (hrange : container.superblock.blockSizeInRange = true) (volume : ApfsVolume) :
    ((∀ call, VolumeCall xts image volume container.superblock.blockSize call → call.Whole) ∧
      ∀ a b, VolumeCall xts image volume container.superblock.blockSize a →
        VolumeCall xts image volume container.superblock.blockSize b →
        ∀ ext i j, a.owner = .block ext i → b.owner = .block ext j → i ≠ j →
          Disjoint (a.sectors container.superblock.blockSize)
            (b.sectors container.superblock.blockSize)) ↔
    ∀ call, VolumeCall xts image volume container.superblock.blockSize call →
      apfsCryptoSector ∣ container.superblock.blockSize ∧
        ∀ ext i, call.owner = .block ext (i + 1) →
          (ext.cryptoId + (i + 1)) * (container.superblock.blockSize / apfsCryptoSector)
            ≤ u64Max := by
  have hmin : nxMinimumBlockSize ≤ container.superblock.blockSize :=
    (blockSizeInRange_iff.mp hrange).1
  generalize container.superblock.blockSize = blockSize at hmin ⊢
  have hpos : 0 < blockSize := lt_of_lt_of_le (by decide) hmin
  have hspb : 0 < blockSize / apfsCryptoSector :=
    Nat.div_pos (le_trans (by decide) hmin) (by decide)
  have hmul : apfsCryptoSector ∣ blockSize →
      blockSize = apfsCryptoSector * (blockSize / apfsCryptoSector) :=
    fun hdvd => (Nat.mul_div_cancel' hdvd).symm
  constructor
  · rintro ⟨hwhole, hapart⟩ call hcall
    have hdvd : apfsCryptoSector ∣ blockSize := hcall.length_eq ▸ (hwhole call hcall).2
    refine ⟨hdvd, fun ext i howner => ?_⟩
    obtain ⟨prev, hprev, hpowner⟩ := hcall.pred howner
    have hdisj := hapart prev call hprev hcall ext i (i + 1) hpowner howner (by omega)
    rw [hprev.sectors_eq hpowner (hmul hdvd), hcall.sectors_eq howner (hmul hdvd)] at hdisj
    exact fit_of_disjoint_sectors hspb hdisj
  · intro hcond
    refine ⟨fun call hcall => ?_, ?_⟩
    · rw [AreaCall.Whole, hcall.length_eq]
      exact ⟨hpos, (hcond call hcall).1⟩
    -- the later block of the two has the larger sector numbers
    have hlt : ∀ a b, VolumeCall xts image volume blockSize a →
        VolumeCall xts image volume blockSize b → ∀ ext i j, a.owner = .block ext i →
        b.owner = .block ext j → i < j → Disjoint (a.sectors blockSize) (b.sectors blockSize) := by
      intro a b ha hb ext i j hai hbj hij
      obtain ⟨j, rfl⟩ : ∃ k, j = k + 1 := ⟨j - 1, by omega⟩
      have hdvd := (hcond b hb).1
      rw [ha.sectors_eq hai (hmul hdvd), hb.sectors_eq hbj (hmul hdvd)]
      exact disjoint_sectors hspb hij ((hcond b hb).2 ext j hbj)
    intro a b ha hb ext i j hai hbj hne
    rcases Nat.lt_or_gt_of_ne hne with hij | hji
    · exact hlt a b ha hb ext i j hai hbj hij
    · exact (hlt b a hb ha ext j i hbj hai hji).symm

/-! ### A container with an encrypted tree

The object map of the container serves its only volume too.  The root of the
fs-tree, a leaf, is flagged as encrypted. -/

def sectorTree (blockSize : Nat) : Bytes :=
  btreeNode blockSize 3 2 0x7 0 [omapRecord 1026 2 0 4, omapRecord 1028 2 omapValEncrypted 5]

def sectorRoot (blockSize : Nat) (records : List Entry) : Bytes :=
  btreeNode blockSize 1028 2 0x3 0 records

def sectorBlocks (blockSize : Nat) (records : List Entry) (data : List Bytes) : List Bytes :=
  oneVolumeBlocks blockSize 1026 (sectorTree blockSize)
    (apsbBlock blockSize 1026 2 2 1028 0 :: sectorRoot blockSize records :: data)

def sectorImage (blockSize : Nat) (records : List Entry) (data : List Bytes) : Image :=
  .ofBlocks (sectorBlocks blockSize records data)

/-- What the blocks say, once they are laid out. -/
def SectorHeaders (blockSize : Nat) (records : List Entry) : Prop :=
  OneVolumeHeaders blockSize 1026 ∧
  ((parseNodeHeader (sectorTree blockSize)).map BTreeNodeHeader.isLeaf = some true ∧
    omapScan 1026 2 (nodeEntries (sectorTree blockSize) .omap) = some ⟨1026, 2, 4, 4096, 0⟩ ∧
    omapScan 1028 2 (nodeEntries (sectorTree blockSize) .omap)
      = some ⟨1028, 2, 5, 4096, omapValEncrypted⟩) ∧
  ApfsVolume.parse (apsbBlock blockSize 1026 2 2 1028 0) = .ok (soleVolume 2 0) ∧
  (sectorRoot blockSize records).length = blockSize ∧
    nodeView (sectorRoot blockSize records) .fsTree = .leaf records

instance (blockSize : Nat) (records : List Entry) : Decidable (SectorHeaders blockSize records) :=
  inferInstanceAs (Decidable (_ ∧ _))

section SectorImage

variable {blockSize : Nat} {records : List Entry} {data : List Bytes} {image : Image}
variable (hblocks : image.HasBlocks blockSize (sectorBlocks blockSize records data))
  (hh : SectorHeaders blockSize records)

theorem hasBlocks_sectorImage (hbs : 4096 ≤ blockSize ∧ blockSize ≤ 65536)
    (hh : SectorHeaders blockSize records) (hdata : ∀ b ∈ data, b.length = blockSize)
    (hcount : data.length ≤ 1000) :
    (sectorImage blockSize records data).HasBlocks blockSize
      (sectorBlocks blockSize records data) := by
  refine Image.hasBlocks_ofBlocks (length_oneVolumeBlocks hbs.1
    (length_btreeNode (le_trans (by decide) hbs.1) ..) fun b hb => ?_) ?_
  · simp only [List.mem_cons] at hb
    rcases hb with rfl | rfl | hb
    · exact length_apsbBlock (by omega) ..
    · exact hh.2.2.2.1
    · exact hdata b hb
  · have hlen : (sectorBlocks blockSize records data).length = data.length + 6 := rfl
    have hmul : (data.length + 6) * blockSize ≤ 1006 * 65536 :=
      Nat.mul_le_mul (by omega) hbs.2
    rw [hlen, u64Max]
    omega

include hblocks hh

theorem resolve_sectorImage {oid : Nat} {entry : OmapEntry}
    (hscan : omapScan oid 2 (nodeEntries (sectorTree blockSize) .omap) = some entry) :
    (⟨0, 0x40000002, 3, 0⟩ : ObjectMap).resolve image oid 2 blockSize = .ok entry := by
  have hsum : fletcher64Stored (sectorTree blockSize) = fletcher64Checksum (sectorTree blockSize) := by
    rw [sectorTree, btreeNode_verifies]
  exact resolve_oneVolume hblocks hsum hh.2.1.1 hscan

/-- The container opens, and the volume is found. -/
theorem openContainer_sectorImage (hbs : 4096 ≤ blockSize ∧ blockSize ≤ 65536) :
    ∃ container, openContainer image = .ok container ∧
      container.superblock = oneVolumeSuperblock 2 blockSize 1026 ∧
      volumeSuperblockAddrs image container = .ok [4] := by
  obtain ⟨container, hopen, hsb, _⟩ := openContainer_oneVolume hbs hblocks hh.1
  exact ⟨container, hopen, hsb, volumeSuperblockAddrs_oneVolume hbs hblocks hh.1 hsb (by decide)
    (resolve_sectorImage hblocks hh hh.2.1.2.1)⟩

theorem parse_sectorImage :
    (image.readBlock 4 blockSize >>= ApfsVolume.parse) = .ok (soleVolume 2 0) := by
  have hapsb : (sectorBlocks blockSize records data)[4]?
      = some (apsbBlock blockSize 1026 2 2 1028 0) := rfl
  rw [hblocks.readBlock hapsb, ok_bind, hh.2.2.1]

/-- The walk of the volume decrypts the root of its tree. -/
theorem volumeCall_sectorImage (xts : Xts) (vek : Vek) :
    VolumeCall xts image ((soleVolume 2 0).setVek vek) blockSize
      ⟨.node 1028, sectorRoot blockSize records, 5⟩ := by
  refine .walk none (fun () _ _ => ()) () ?_
  have homap : readObjectMap image ((soleVolume 2 0).setVek vek).omapOid blockSize
      = .ok ⟨0, 0x40000002, 3, 0⟩ := readObjectMap_oneVolume hblocks hh.1
  have hroot : (sectorBlocks blockSize records data)[5]?
      = some (sectorRoot blockSize records) := rfl
  rw [walkFsTreeRun, homap]
  refine List.mem_flatMap.mpr ⟨1028, root_mem_loggedWalk .., ?_⟩
  exact mem_readVirtualNodeRun (resolve_sectorImage hblocks hh hh.2.1.2.2)
    (hblocks.readBlock hroot) (by decide)

end SectorImage

/-- The area routine with nothing for a cipher: it panics on a last sector of less
than one cipher block, as the real one does. -/
def Xts.copy : Xts where
  decryptArea _ _ data sectorSize _ :=
    if 0 < data.length % sectorSize ∧ data.length % sectorSize < 16 then .error .panic
    else .ok data
  length_eq h := by
    rw [ite_error_eq_ok_iff] at h
    cases h.2
    rfl

theorem decryptVolumeArea_copy {blockSize tweakBlock : Nat} {data : Bytes} {vek : Vek}
    (hbs : apfsCryptoSector ≤ blockSize) (htweak : tweakBlock ≠ 0) :
    decryptVolumeArea .copy data vek tweakBlock blockSize
      = if 0 < data.length % apfsCryptoSector ∧ data.length % apfsCryptoSector < 16
        then .error .panic else .ok data := by
  rw [decryptVolumeArea, if_neg (by omega)]
  rfl

/-- Blocks of whole sectors are all decrypted. -/
theorem decryptBlocks_copy {blockSize cryptoId nblocks : Nat} {tmp : Bytes} {vek : Vek}
    (hpos : 0 < blockSize) (hdvd : apfsCryptoSector ∣ blockSize) (hcrypto : cryptoId ≠ 0)
    (hlen : tmp.length = nblocks * blockSize) :
    ∃ plain, decryptBlocks .copy blockSize vek cryptoId nblocks tmp = .ok plain := by
  have hplain : ∀ i ∈ List.range nblocks, decryptVolumeArea .copy (chunk blockSize tmp i) vek
      (saturatingAdd cryptoId i) blockSize = .ok (chunk blockSize tmp i) := by
    intro i hi
    have htweak : saturatingAdd cryptoId i ≠ 0 := by
      unfold saturatingAdd u64Max
      omega
    have hinside : (i + 1) * blockSize ≤ tmp.length := by
      rw [hlen]
      exact Nat.mul_le_mul_right _ (List.mem_range.mp hi)
    rw [decryptVolumeArea_copy (Nat.le_of_dvd hpos hdvd) htweak, length_chunk hinside,
      Nat.mod_eq_zero_of_dvd hdvd, if_neg (by decide)]
  rw [decryptBlocks, mapM_eq_ok hplain, ok_bind]
  exact ⟨_, rfl⟩

section Root

variable {blockSize : Nat} {records : List Entry} {data : List Bytes} {image : Image}
variable (hbs : 4096 ≤ blockSize)
  (hblocks : image.HasBlocks blockSize (sectorBlocks blockSize records data))
  (hh : SectorHeaders blockSize records) (vek : Vek)

include hbs hblocks hh

/-- The root of the tree, as the cipher leaves it. -/
theorem fetchVirtual_sectorRoot :
    fetchVirtual .copy image ⟨0, 0x40000002, 3, 0⟩ (some vek) 2 blockSize 1028
      = if 0 < blockSize % apfsCryptoSector ∧ blockSize % apfsCryptoSector < 16
        then .error .panic else .ok (.leaf records) := by
  have hroot : (sectorBlocks blockSize records data)[5]?
      = some (sectorRoot blockSize records) := rfl
  have hsum : verifyChecksum (sectorRoot blockSize records)
      (headerOidOr (sectorRoot blockSize records) 5) = .ok () := by
    rw [verifyChecksum_eq_ok_iff, sectorRoot, btreeNode_verifies]
  have hflag : omapValEncrypted &&& omapValEncrypted ≠ 0 := by decide
  rw [fetchVirtual, readVirtualNode, resolve_sectorImage hblocks hh hh.2.1.2.2, ok_bind]
  simp only [hblocks.readBlock hroot, ok_bind, decryptNode, if_pos hflag]
  rw [decryptVolumeArea_copy (le_trans (by decide) hbs) (by decide), hh.2.2.2.1]
  by_cases hshort : 0 < blockSize % apfsCryptoSector ∧ blockSize % apfsCryptoSector < 16
  · rw [if_pos hshort, if_pos hshort]
    rfl
  · rw [if_neg hshort, if_neg hshort, ok_bind, hsum, ok_bind, ← hh.2.2.2.2]
    rfl

theorem fsRecords_sectorImage (targetOid : Option Nat) :
    fsRecords .copy image ((soleVolume 2 0).setVek vek) blockSize targetOid
      = if 0 < blockSize % apfsCryptoSector ∧ blockSize % apfsCryptoSector < 16
        then .error .panic else .ok records := by
  have homap : readObjectMap image ((soleVolume 2 0).setVek vek).omapOid blockSize
      = .ok ⟨0, 0x40000002, 3, 0⟩ := readObjectMap_oneVolume hblocks hh.1
  have hroot := fetchVirtual_sectorRoot hbs hblocks hh vek
  rw [fsRecords]
  by_cases hshort : 0 < blockSize % apfsCryptoSector ∧ blockSize % apfsCryptoSector < 16
  · rw [if_pos hshort] at hroot ⊢
    exact walkFsTree_of_root_error _ _ homap hroot targetOid _ _
  · rw [if_neg hshort] at hroot ⊢
    refine (walkFsTree_of_root_leaf _ _ homap hroot targetOid _ _).trans ?_
    rw [foldl_snoc, List.nil_append]

end Root

/-- A stream of two blocks, encrypted from crypto id `7` on. -/
def sectorExtent : FileExtent := ⟨0, 8192, 6, 7⟩

def sectorData : List Bytes := [List.replicate 4096 1, List.replicate 4096 2]

def streamedSectors : Image := sectorImage 4096 [extentRecord 5 sectorExtent] sectorData

theorem sectorHeaders_streamed : SectorHeaders 4096 [extentRecord 5 sectorExtent] := by
  decide +kernel

theorem hasBlocks_streamedSectors : streamedSectors.HasBlocks 4096
    (sectorBlocks 4096 [extentRecord 5 sectorExtent] sectorData) := by
  refine hasBlocks_sectorImage (by decide) sectorHeaders_streamed ?_ (by decide)
  simp only [sectorData, List.forall_mem_cons, List.length_replicate, List.not_mem_nil,
    false_imp_iff, implies_true, and_self]

theorem fileExtents_streamed :
    (fileExtents 5 [extentRecord 5 sectorExtent] = [sectorExtent]) ∧
      decodeFileExtent (extentRecord 5 sectorExtent).key (extentRecord 5 sectorExtent).value
        = sectorExtent := by
  decide +kernel

theorem listExtents_streamedSectors {streamOid : Nat} {exts : List FileExtent}
    (h : listExtents .copy streamedSectors ((soleVolume 2 0).setVek shiftVek) 4096 streamOid
      = .ok exts) : ∀ ext ∈ exts, ext = sectorExtent := by
  rw [listExtents_eq, fsRecords_sectorImage le_rfl hasBlocks_streamedSectors
    sectorHeaders_streamed, if_neg (by decide)] at h
  cases h
  intro ext hext
  have hmem : ext ∈ fileExtents streamOid [extentRecord 5 sectorExtent] :=
    (List.perm_insertionSort _ _).mem_iff.mp hext
  obtain ⟨record, hrecord, rfl⟩ := List.mem_map.mp hmem
  obtain rfl := List.mem_singleton.mp (List.mem_of_mem_filter hrecord)
  exact fileExtents_streamed.2

theorem readStream_streamedSectors :
    listExtents .copy streamedSectors ((soleVolume 2 0).setVek shiftVek) 4096 5
        = .ok [sectorExtent] ∧
      ∃ bytes, readStream .copy streamedSectors ((soleVolume 2 0).setVek shiftVek) 4096 5 8192
        = .ok bytes := by
  have hlist : listExtents .copy streamedSectors ((soleVolume 2 0).setVek shiftVek) 4096 5
      = .ok [sectorExtent] := by
    rw [listExtents_eq, fsRecords_sectorImage le_rfl hasBlocks_streamedSectors
      sectorHeaders_streamed, if_neg (by decide), Except.map, fileExtents_streamed.1]
    rfl
  refine ⟨hlist, ?_⟩
  rw [readStream, if_neg (by decide), hlist, ok_bind, foldlM_fillExtent_ok_iff (by decide)]
  intro ext hext
  obtain rfl := List.mem_singleton.mp hext
  have hlen : streamedSectors.bytes.length = 32768 := hasBlocks_streamedSectors.length_bytes
  have hasked : sectorExtent.asked (some shiftVek) 4096 8192 = 8192 := by decide
  refine fun _ => ⟨?_, ?_⟩
  · rintro (hpast | ⟨_, hpast⟩)
    · exact absurd hpast (by decide)
    · change _ < _ + sectorExtent.asked (some shiftVek) 4096 8192 at hpast
      rw [hasked, hlen] at hpast
      exact absurd hpast (by decide)
  · change ∃ plain, decryptBlocks .copy 4096 shiftVek 7
      (sectorExtent.asked (some shiftVek) 4096 8192 / 4096)
      ((streamedSectors.bytes.drop (6 * 4096)).take
        (sectorExtent.asked (some shiftVek) 4096 8192)) = .ok plain
    rw [hasked]
    refine decryptBlocks_copy (by decide) (by decide) (by decide) ?_
    rw [List.length_take, List.length_drop, hlen]
    decide

/-- No sector number of the stream leaves `u64`. -/
theorem sectors_le_streamedSectors {call : AreaCall} (hcall : VolumeCall .copy streamedSectors
    ((soleVolume 2 0).setVek shiftVek) 4096 call) {ext : FileExtent} {i : Nat}
    (howner : call.owner = .block ext (i + 1)) :
    (ext.cryptoId + (i + 1)) * (4096 / apfsCryptoSector) ≤ u64Max := by
  rcases hcall.owner_cases with ⟨oid, hnode⟩ | ⟨streamOid, exts, hexts, ext', hext', j, hj, hblock⟩
  · rw [hnode] at howner
    cases howner
  · rw [hblock] at howner
    cases howner
    obtain rfl := listExtents_streamedSectors hexts _ hext'
    change (i + 1) * 4096 < 8192 at hj
    show (7 + (i + 1)) * 8 ≤ u64Max
    unfold u64Max
    omega

/-- Blocks of 4096 bytes: the tree is read, a block at a time, and the two blocks of the
extent have sectors of their own. -/
theorem whole_sectors_streamedSectors :
    ∃ container, openContainer streamedSectors = .ok container ∧
      volumeSuperblockAddrs streamedSectors container = .ok [4] ∧
      (streamedSectors.readBlock 4 4096 >>= ApfsVolume.parse) = .ok (soleVolume 2 0) ∧
      container.superblock.blockSizeInRange = true ∧
      VolumeCall .copy streamedSectors ((soleVolume 2 0).setVek shiftVek)
        container.superblock.blockSize
        ⟨.node 1028, sectorRoot 4096 [extentRecord 5 sectorExtent], 5⟩ ∧
      (∀ call, VolumeCall .copy streamedSectors ((soleVolume 2 0).setVek shiftVek)
        container.superblock.blockSize call → call.Whole) ∧
      ∃ a b, (VolumeCall .copy streamedSectors ((soleVolume 2 0).setVek shiftVek)
            container.superblock.blockSize a ∧ a.owner = .block sectorExtent 0) ∧
        (VolumeCall .copy streamedSectors ((soleVolume 2 0).setVek shiftVek)
            container.superblock.blockSize b ∧ b.owner = .block sectorExtent 1) ∧
        Disjoint (a.sectors container.superblock.blockSize)
          (b.sectors container.superblock.blockSize) := by
  have hblocks := hasBlocks_streamedSectors
  have hh := sectorHeaders_streamed
  obtain ⟨container, hopen, hsb, haddrs⟩ := openContainer_sectorImage hblocks hh (by decide)
  have hsize : container.superblock.blockSize = 4096 := by rw [hsb]; rfl
  have hrange : container.superblock.blockSizeInRange = true := by rw [hsb]; rfl
  obtain ⟨hlist, bytes, hread⟩ := readStream_streamedSectors
  have hcalls : ∀ i < 2, ∃ call, VolumeCall .copy streamedSectors
      ((soleVolume 2 0).setVek shiftVek) 4096 call ∧ call.owner = .block sectorExtent i := by
    intro i hi
    refine VolumeCall.of_readStream rfl hread hlist List.mem_cons_self
      ⟨by decide, by decide⟩ (by decide) ?_
    show i * 4096 < 8192
    omega
  obtain ⟨a, ha, haowner⟩ := hcalls 0 (by decide)
  obtain ⟨b, hb, hbowner⟩ := hcalls 1 (by decide)
  obtain ⟨hwhole, hapart⟩ := (whole_sectors_iff .copy streamedSectors hrange
    ((soleVolume 2 0).setVek shiftVek)).mpr (by
      intro call hcall
      rw [hsize] at hcall ⊢
      exact ⟨by decide, fun ext i howner => sectors_le_streamedSectors hcall howner⟩)
  refine ⟨container, hopen, haddrs, parse_sectorImage hblocks hh, hrange, ?_⟩
  rw [hsize] at hwhole hapart ⊢
  exact ⟨volumeCall_sectorImage hblocks hh _ _, hwhole, a, b, ⟨ha, haowner⟩, ⟨hb, hbowner⟩,
    hapart a b ha hb _ 0 1 haowner hbowner (by decide)⟩

/-- Blocks of 4100 bytes: the container opens and its volume is found, and the walk
passes 4100 bytes to the cipher, which panics on the last four. -/
theorem short_sector_sectorImage :
    ∃ container, openContainer (sectorImage 4100 [] []) = .ok container ∧
      container.superblock.blockSize = 4100 ∧
      volumeSuperblockAddrs (sectorImage 4100 [] []) container = .ok [4] ∧
      ((sectorImage 4100 [] []).readBlock 4 4100 >>= ApfsVolume.parse) = .ok (soleVolume 2 0) ∧
      VolumeCall .copy (sectorImage 4100 [] []) ((soleVolume 2 0).setVek shiftVek) 4100
        ⟨.node 1028, sectorRoot 4100 [], 5⟩ ∧
      ¬ AreaCall.Whole ⟨.node 1028, sectorRoot 4100 [], 5⟩ ∧
      fsRecords .copy (sectorImage 4100 [] []) ((soleVolume 2 0).setVek shiftVek) 4100 none
        = .error .panic := by
  have hbs : 4096 ≤ 4100 ∧ 4100 ≤ 65536 := by decide
  have hh : SectorHeaders 4100 [] := by decide +kernel
  have hblocks : (sectorImage 4100 [] []).HasBlocks 4100 (sectorBlocks 4100 [] []) :=
    hasBlocks_sectorImage hbs hh (by simp) (by simp)
  obtain ⟨container, hopen, hsb, haddrs⟩ := openContainer_sectorImage hblocks hh hbs
  refine ⟨container, hopen, by rw [hsb]; rfl, haddrs, parse_sectorImage hblocks hh,
    volumeCall_sectorImage hblocks hh _ _, ?_, ?_⟩
  · rintro ⟨_, hdvd⟩
    have hcall := volumeCall_sectorImage hblocks hh .copy shiftVek
    rw [hcall.length_eq] at hdvd
    exact absurd hdvd (by decide)
  · rw [fsRecords_sectorImage hbs.1 hblocks hh, if_pos (by decide)]

end ApfsForensic
