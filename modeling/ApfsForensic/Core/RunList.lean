import ApfsForensic.Core.FileIds

/-!
# The run list and the bytes

`extents` and `read_at` of `core/src/vfs.rs` are two renderings of the extents of a file.
The one lists the runs of the image, in the order of the extents, and keeps neither the
logical offsets nor the size.  The other fills a buffer of zeros by offset, and cuts
the last extent at the size.

Where the extents follow on each other the loop of `read_stream` has, at any time, the
bytes of the runs so far and then zeros (`fillExtent_next`), so it ends with the bytes of
all runs, cut to the size (`foldlM_fillExtent_tiles`).

The walk may visit the extents in any order, and sorts them by offset.  An empty extent has
the offset of the one behind it, and the two may change places; it also has no bytes
(`filter_eq_of_tiles`).

* `runs_agree_with_read_at`: the bytes of the runs, cut to the size, are what `read_at`
  delivers.
-/

namespace ApfsForensic

open Walk

/-! ### The bytes of a run -/

/-- The bytes that a run stands for. -/
def RunInfo.bytes (image : Image) (info : RunInfo) : Bytes :=
  if info.run.sparse then List.replicate info.run.len 0
  else (image.bytes.drop info.run.imageOffset).take info.run.len

namespace FileExtent

/-- The bytes that an extent stands for, up to its length. -/
def bytes (image : Image) (blockSize : Nat) (ext : FileExtent) : Bytes :=
  if ext.physBlockNum = 0 then List.replicate ext.len 0
  else (image.bytes.drop (ext.physBlockNum * blockSize)).take ext.len

/-- The extent is a hole, or lies in the image. -/
def Inside (image : Image) (blockSize : Nat) (ext : FileExtent) : Prop :=
  ext.physBlockNum ≠ 0 → ext.physBlockNum * blockSize + ext.len ≤ image.bytes.length

instance (image : Image) (blockSize : Nat) (ext : FileExtent) :
    Decidable (ext.Inside image blockSize) := inferInstanceAs (Decidable (_ → _))

/-- The `RunInfo` that `extents` makes of it. -/
def toRun (blockSize : Nat) (ext : FileExtent) : RunInfo :=
  { run := { imageOffset := saturatingMul ext.physBlockNum blockSize, len := ext.len
             sparse := ext.physBlockNum = 0 }
    alloc := .allocated }

/-- Each extent starts where the one before it ends, from `a` on, and the last one ends
at `T`. -/
def TilesFrom (a : Nat) : List FileExtent → (T : Nat) → Prop
  | [], T => a = T
  | ext :: exts, T => ext.logicalOffset = a ∧ TilesFrom (a + ext.len) exts T

variable {image : Image} {blockSize : Nat} {ext : FileExtent}

theorem Inside.mul_le (h : ext.Inside image blockSize) (hphys : ext.physBlockNum ≠ 0) :
    ext.physBlockNum * blockSize ≤ u64Max := by
  have hlen := image.length_lt
  have hin := h hphys
  unfold u64Max
  omega

theorem length_bytes (h : ext.Inside image blockSize) :
    (ext.bytes image blockSize).length = ext.len := by
  rw [bytes]
  by_cases hphys : ext.physBlockNum = 0
  · rw [if_pos hphys, List.length_replicate]
  · have hin := h hphys
    rw [if_neg hphys, List.length_take, List.length_drop]
    omega

theorem bytes_toRun (h : ext.Inside image blockSize) :
    (ext.toRun blockSize).bytes image = ext.bytes image blockSize := by
  rw [RunInfo.bytes, bytes, toRun]
  by_cases hphys : ext.physBlockNum = 0
  · simp only [hphys, decide_true, if_true]
  · simp only [hphys, decide_false, Bool.false_eq_true, if_false]
    rw [saturatingMul_of_le (h.mul_le hphys)]

end FileExtent

open FileExtent

/-! ### The loop over extents that follow on each other -/

section Tiles

variable {xts : Xts} {image : Image} {blockSize size : Nat}

/-- A buffer of `size` bytes that begins with `content`. -/
def fillTo (size : Nat) (content : Bytes) : Bytes :=
  content.take size ++ List.replicate (size - content.length) 0

theorem fillTo_of_le {content : Bytes} (h : size ≤ content.length) :
    fillTo size content = content.take size := by
  rw [fillTo, Nat.sub_eq_zero_of_le h, List.replicate_zero, List.append_nil]

theorem fillTo_append {content s : Bytes} (h : content.length ≤ size) :
    fillTo size (content ++ s) = content ++ s.take (size - content.length)
      ++ List.replicate (size - content.length - s.length) 0 := by
  rw [fillTo, List.take_append, List.take_of_length_le h, List.length_append, Nat.sub_add_eq]

theorem fillTo_of_lt {content : Bytes} (h : content.length ≤ size) :
    fillTo size content = content ++ List.replicate (size - content.length) 0 := by
  rw [fillTo, List.take_of_length_le h]

/-- The next bytes are written behind those that are there. -/
theorem writeAt_fillTo {content s : Bytes} (h : content.length + s.length ≤ size) :
    writeAt (fillTo size content) content.length s = fillTo size (content ++ s) := by
  rw [fillTo_of_lt (by omega), fillTo_append (by omega), writeAt, List.take_left,
    List.take_of_length_le (by omega), List.drop_append, List.drop_eq_nil_of_le (by omega),
    List.nil_append, List.drop_replicate]
  congr 2
  omega

/-- **One round**: an extent that begins where the bytes so far end adds its bytes. -/
theorem fillExtent_next {content : Bytes} {ext : FileExtent} (hbs : blockSize ≠ 0)
    (hstart : ext.logicalOffset = content.length) (hin : ext.Inside image blockSize) :
    fillExtent xts image none blockSize size (fillTo size content) ext
      = .ok (fillTo size (content ++ ext.bytes image blockSize)) := by
  by_cases hpast : size ≤ content.length
  · -- the buffer is full
    rw [fillExtent_skip (Or.inl (by omega)), fillTo_of_le hpast, fillTo_of_le (by simp; omega),
      List.take_append_of_le_length hpast]
  have hlt : content.length ≤ size := by omega
  by_cases hphys : ext.physBlockNum = 0
  · -- the zeros of a hole are there already
    rw [fillExtent_skip (Or.inr hphys), fillTo_of_lt hlt, fillTo_append hlt, FileExtent.bytes,
      if_pos hphys, List.length_replicate, List.take_replicate, List.append_assoc,
      List.replicate_append_replicate]
    congr 3
    omega
  · have hend := hin hphys
    have hread : image.readExact (ext.physBlockNum * blockSize)
        (min ext.len (size - ext.logicalOffset))
        = .ok ((ext.bytes image blockSize).take (size - content.length)) := by
      refine Image.readExact_eq_ok_iff.mpr ⟨Or.inr (by omega), ?_⟩
      rw [FileExtent.bytes, if_neg hphys, List.take_take, hstart, Nat.min_comm]
    have hlen := length_bytes hin
    rw [fillExtent_plain hbs (by omega) hphys (hin.mul_le hphys), hread, Except.map, hstart,
      writeAt_fillTo (by rw [List.length_take]; omega), fillTo_append hlt, fillTo_append hlt,
      List.take_take, Nat.min_self, List.length_take]
    congr 3
    omega

/-- **The whole loop**, from the bytes so far on. -/
theorem foldlM_fillExtent_tiles (hbs : blockSize ≠ 0) :
    ∀ {exts : List FileExtent} {content : Bytes} {T : Nat},
      TilesFrom content.length exts T → (∀ ext ∈ exts, ext.Inside image blockSize) →
      exts.foldlM (fillExtent xts image none blockSize size) (fillTo size content)
          = .ok (fillTo size (content ++ exts.flatMap (FileExtent.bytes image blockSize))) ∧
        (content ++ exts.flatMap (FileExtent.bytes image blockSize)).length = T := by
  intro exts
  induction exts with
  | nil =>
    intro content T htiles _
    rw [List.flatMap_nil, List.append_nil]
    exact ⟨rfl, htiles⟩
  | cons ext exts ih =>
    intro content T htiles hin
    rw [List.forall_mem_cons] at hin
    obtain ⟨hstart, htiles⟩ := htiles
    have hnext : (content ++ ext.bytes image blockSize).length = content.length + ext.len := by
      rw [List.length_append, length_bytes hin.1]
    rw [← hnext] at htiles
    rw [List.foldlM_cons, fillExtent_next hbs hstart hin.1, ok_bind, List.flatMap_cons,
      ← List.append_assoc]
    exact ih htiles hin.2

end Tiles

/-! ### Empty extents -/

section Empty

variable {xts : Xts} {image : Image} {blockSize size : Nat}

theorem writeAt_nil (out : Bytes) (start : Nat) : writeAt out start [] = out := by
  rw [writeAt, List.append_nil, List.length_nil, Nat.add_zero, List.take_append_drop]

/-- An empty extent changes nothing. -/
theorem fillExtent_empty {out : Bytes} {ext : FileExtent} (hbs : blockSize ≠ 0)
    (hin : ext.Inside image blockSize) (hlen : ext.len = 0) :
    fillExtent xts image none blockSize size out ext = .ok out := by
  by_cases hskip : ext.logicalOffset ≥ size ∨ ext.physBlockNum = 0
  · exact fillExtent_skip hskip
  · have hphys : ext.physBlockNum ≠ 0 := fun h => hskip (Or.inr h)
    have hread : image.readExact (ext.physBlockNum * blockSize)
        (min ext.len (size - ext.logicalOffset)) = .ok [] := by
      rw [hlen, Nat.zero_min]
      exact Image.readExact_eq_ok_iff.mpr ⟨Or.inl rfl, List.take_zero.symm⟩
    rw [fillExtent_plain hbs (by omega) hphys (hin.mul_le hphys), hread, Except.map, writeAt_nil]

theorem foldlM_fillExtent_filter (hbs : blockSize ≠ 0) : ∀ {exts : List FileExtent},
    (∀ ext ∈ exts, ext.Inside image blockSize) → ∀ out,
      exts.foldlM (fillExtent xts image none blockSize size) out
        = (exts.filter (fun ext => ext.len ≠ 0)).foldlM
            (fillExtent xts image none blockSize size) out := by
  intro exts
  induction exts with
  | nil => intro _ out; rfl
  | cons ext exts ih =>
    intro hin out
    rw [List.forall_mem_cons] at hin
    by_cases hlen : ext.len = 0
    · rw [List.filter_cons_of_neg (by simpa using hlen), List.foldlM_cons,
        fillExtent_empty hbs hin.1 hlen, ok_bind, ih hin.2]
    · rw [List.filter_cons_of_pos (by simpa using hlen), List.foldlM_cons, List.foldlM_cons]
      simp only [ih hin.2]

theorem flatMap_bytes_filter : ∀ {exts : List FileExtent},
    (∀ ext ∈ exts, ext.Inside image blockSize) →
      exts.flatMap (FileExtent.bytes image blockSize)
        = (exts.filter (fun ext => ext.len ≠ 0)).flatMap (FileExtent.bytes image blockSize) := by
  intro exts
  induction exts with
  | nil => intro _; rfl
  | cons ext exts ih =>
    intro hin
    rw [List.forall_mem_cons] at hin
    by_cases hlen : ext.len = 0
    · have hnil : ext.bytes image blockSize = [] :=
        List.eq_nil_of_length_eq_zero ((length_bytes hin.1).trans hlen)
      rw [List.filter_cons_of_neg (by simpa using hlen), List.flatMap_cons, hnil, List.nil_append,
        ih hin.2]
    · rw [List.filter_cons_of_pos (by simpa using hlen), List.flatMap_cons, List.flatMap_cons,
        ih hin.2]

/-- Without the empty ones the extents still follow on each other, now at growing offsets. -/
theorem tiles_filter : ∀ {exts : List FileExtent} {a T : Nat}, TilesFrom a exts T →
    TilesFrom a (exts.filter (fun ext => ext.len ≠ 0)) T ∧
      (exts.filter (fun ext => ext.len ≠ 0)).Pairwise
        (fun e e' => e.logicalOffset < e'.logicalOffset) ∧
      ∀ ext ∈ exts.filter (fun ext => ext.len ≠ 0), a ≤ ext.logicalOffset := by
  intro exts
  induction exts with
  | nil => intro a T h; exact ⟨h, .nil, by simp⟩
  | cons ext exts ih =>
    intro a T h
    obtain ⟨hstart, h⟩ := h
    obtain ⟨htiles, hsorted, hfrom⟩ := ih h
    by_cases hlen : ext.len = 0
    · rw [List.filter_cons_of_neg (by simpa using hlen)]
      rw [hlen, Nat.add_zero] at htiles hfrom
      exact ⟨htiles, hsorted, hfrom⟩
    · rw [List.filter_cons_of_pos (by simpa using hlen)]
      refine ⟨⟨hstart, htiles⟩, List.pairwise_cons.mpr ⟨fun e he => ?_, hsorted⟩, ?_⟩
      · have hle := hfrom e he
        omega
      · refine List.forall_mem_cons.mpr ⟨hstart.ge, fun e he => ?_⟩
        have hle := hfrom e he
        omega

/-- Sorting brings the extents into their order, but for empty ones. -/
theorem filter_eq_of_tiles {exts tiling : List FileExtent} {T : Nat}
    (hsorted : exts.Pairwise (fun e e' => e.logicalOffset ≤ e'.logicalOffset))
    (hperm : tiling.Perm exts) (htiles : TilesFrom 0 tiling T) :
    exts.filter (fun ext => ext.len ≠ 0) = tiling.filter (fun ext => ext.len ≠ 0) := by
  obtain ⟨_, hstrict, _⟩ := tiles_filter htiles
  have hperm' := (hperm.filter (fun ext => ext.len ≠ 0)).symm
  refine hperm'.eq_of_pairwise (fun e e' he he' hle hle' => ?_) (hsorted.filter _)
    (hstrict.imp Nat.le_of_lt)
  -- two extents of one offset are one extent
  have hnodup : ((tiling.filter (fun ext => ext.len ≠ 0)).map logicalOffset).Nodup :=
    List.pairwise_map.mpr (hstrict.imp Nat.ne_of_lt)
  exact List.inj_on_of_nodup_map hnodup (hperm'.mem_iff.mp he) he' (Nat.le_antisymm hle hle')

end Empty

/-! ### The two renderings -/

section Renderings

variable {codecs : Codecs} {xts : Xts} {fs : ApfsFs} {node xid size : Nat} {inode : Inode}
variable {exts tiling : List FileExtent} {T : Nat}

theorem extents_eq (hinode : loadInode xts fs.reader fs.volume fs.blockSize node = .ok inode)
    (hexts : listExtents xts fs.reader fs.volume fs.blockSize inode.privateId = .ok exts) :
    fs.extents xts (.apfsOid node xid) .default = .ok (exts.map (toRun fs.blockSize)) := by
  simp only [ApfsFs.extents, oidOf, requireDefaultStream, vfs_ok_bind, hinode, viaVfs_ok, hexts]
  rfl

theorem pairwise_of_listExtents {image : Image} {volume : ApfsVolume} {blockSize streamOid : Nat}
    (h : listExtents xts image volume blockSize streamOid = .ok exts) :
    exts.Pairwise (fun e e' => e.logicalOffset ≤ e'.logicalOffset) := by
  rw [listExtents, bind_eq_ok_iff] at h
  obtain ⟨out, _, h⟩ := h
  cases h
  have htotal : Std.Total (fun a b : FileExtent => a.logicalOffset ≤ b.logicalOffset) :=
    ⟨fun a b => Nat.le_total a.logicalOffset b.logicalOffset⟩
  have htrans : IsTrans FileExtent (fun a b => a.logicalOffset ≤ b.logicalOffset) :=
    ⟨fun _ _ _ => Nat.le_trans⟩
  exact List.pairwise_insertionSort _ _

/-- The walk that finds an inode comes by its attributes. -/
theorem listXattrs_of_loadInode
    (hinode : loadInode xts fs.reader fs.volume fs.blockSize node = .ok inode) :
    ∃ xattrs, listXattrs xts fs.reader fs.volume fs.blockSize node = .ok xattrs := by
  rw [loadInode, forEachFsRecordForOid, walkFsTree_eq] at hinode
  rw [listXattrs_eq]
  cases hwalk : fsRecords xts fs.reader fs.volume fs.blockSize (some node) with
  | ok records => exact ⟨_, rfl⟩
  | error f => rw [hwalk] at hinode; cases hinode

/-- A file without a decmpfs attribute is its stream. -/
theorem readData_plain (hinode : loadInode xts fs.reader fs.volume fs.blockSize node = .ok inode)
    (hplain : ∀ xattrs, listXattrs xts fs.reader fs.volume fs.blockSize node = .ok xattrs →
      ∀ x ∈ xattrs, x.name ≠ xattrNameDecmpfs) :
    readData codecs xts fs.reader fs.volume fs.blockSize inode
      = readStream xts fs.reader fs.volume fs.blockSize inode.privateId (inode.size.getD 0) := by
  obtain ⟨xattrs, hxattrs⟩ := listXattrs_of_loadInode hinode
  have hnone : xattrs.find? (fun x => x.name = xattrNameDecmpfs) = none :=
    List.find?_eq_none.mpr fun x hx => by simpa using hplain xattrs hxattrs x hx
  rw [readData, oid_of_loadInode hinode, decmpfsHeader, getXattr, hxattrs, ok_bind, hnone]
  rfl

/-- **What a stream of consecutive extents reads as.** -/
theorem readStream_tiles {image : Image} {volume : ApfsVolume} {blockSize streamOid : Nat}
    (hvek : volume.vek = none) (hsize : size ≤ maxFileBytes)
    (hexts : listExtents xts image volume blockSize streamOid = .ok exts)
    (hperm : tiling.Perm exts) (htiles : TilesFrom 0 tiling T) (hT : size ≤ T)
    (hin : ∀ ext ∈ exts, ext.Inside image blockSize) :
    readStream xts image volume blockSize streamOid size
      = .ok ((exts.flatMap (FileExtent.bytes image blockSize)).take size) := by
  have hbs := blockSize_ne_zero_of_listExtents hexts
  have hfilter := filter_eq_of_tiles (pairwise_of_listExtents hexts) hperm htiles
  have htiles' : TilesFrom ([] : Bytes).length (exts.filter (fun ext => ext.len ≠ 0)) T := by
    rw [hfilter]
    exact (tiles_filter htiles).1
  have hin' : ∀ ext ∈ exts.filter (fun ext => ext.len ≠ 0), ext.Inside image blockSize :=
    fun ext hext => hin ext (List.mem_of_mem_filter hext)
  obtain ⟨hloop, hlen⟩ := @foldlM_fillExtent_tiles xts image blockSize size hbs _ [] T htiles' hin'
  rw [List.nil_append, ← flatMap_bytes_filter hin] at hloop hlen
  have hempty : fillTo size [] = List.replicate size 0 := by
    rw [fillTo, List.take_nil, List.nil_append, List.length_nil, Nat.sub_zero]
  rw [readStream, if_neg (by omega), hexts, hvek]
  rw [hempty, ← foldlM_fillExtent_filter hbs hin, fillTo_of_le (by omega)] at hloop
  exact hloop

end Renderings

/-- **The run list agrees with the byte reader.**  On a volume without a key, take a file
without a decmpfs attribute whose extents, in some order, cover a range from `0` to at
least its size, one after the other.  If no extent runs out of the image, the bytes of the
runs, cut to the size, are those that `read_at` delivers. -/
theorem runs_agree_with_read_at (codecs : Codecs) (xts : Xts) {fs : ApfsFs} {node T : Nat}
    {inode : Inode} {exts tiling : List FileExtent} (hvek : fs.volume.vek = none)
    (hinode : loadInode xts fs.reader fs.volume fs.blockSize node = .ok inode)
    (hplain : ∀ xattrs, listXattrs xts fs.reader fs.volume fs.blockSize node = .ok xattrs →
      ∀ x ∈ xattrs, x.name ≠ xattrNameDecmpfs)
    (hexts : listExtents xts fs.reader fs.volume fs.blockSize inode.privateId = .ok exts)
    (hperm : tiling.Perm exts) (htiles : TilesFrom 0 tiling T) (hT : inode.size.getD 0 ≤ T)
    (hsize : inode.size.getD 0 ≤ 2 ^ 34)
    (hin : ∀ ext ∈ exts, ext.Inside fs.reader fs.blockSize) (xid : Nat) :
    ∃ runs, fs.extents xts (.apfsOid node xid) .default = .ok runs ∧
      ServesWindows (fs.readAt codecs xts (.apfsOid node xid) .default)
        ((runs.flatMap (RunInfo.bytes fs.reader)).take (inode.size.getD 0)) := by
  refine ⟨_, extents_eq hinode hexts, readAt_default hinode ?_⟩
  have hruns : (exts.map (toRun fs.blockSize)).flatMap (RunInfo.bytes fs.reader)
      = exts.flatMap (FileExtent.bytes fs.reader fs.blockSize) := by
    rw [List.flatMap_map]
    exact List.flatMap_congr fun ext hext => bytes_toRun (hin ext hext)
  rw [readData_plain hinode hplain, hruns]
  exact readStream_tiles hvek hsize hexts hperm htiles hT hin

/-! A file of 5000 bytes: a block of the image, and a hole that is longer than what is left. -/

/-- The inode of stream `5`, with a size in its data-stream field. -/
def tailHoleInode : Bytes :=
  List.replicate 8 0 ++ toLeBytes 8 5 ++ List.replicate 76 0 ++ toLeBytes 2 1 ++ toLeBytes 2 40 ++
    [8, 0] ++ toLeBytes 2 40 ++ toLeBytes 8 5000 ++ List.replicate 32 0

def tailHoleExtents : List FileExtent := [⟨0, 4096, 9, 0⟩, ⟨4096, 4096, 0, 0⟩]

def tailHoleRecords : List Entry :=
  ⟨jkeyBytes 3 5, tailHoleInode⟩ :: tailHoleExtents.map (extentRecord 5)

def tailHoleBlocks : List Bytes := mountBlocks [] tailHoleRecords [List.replicate 4096 7]

def tailHoleImage : Image := .ofBlocks tailHoleBlocks

/-- What the records say. -/
def TailHoleHeaders : Prop :=
  (IsMountRoot 1 [] ∧ IsMountRoot 2 tailHoleRecords) ∧
  ((Inode.parse 5 tailHoleInode).privateId = 5 ∧ (Inode.parse 5 tailHoleInode).size = some 5000) ∧
  ((fileExtents 5 tailHoleRecords).insertionSort (fun a b => a.logicalOffset ≤ b.logicalOffset)
      = tailHoleExtents ∧ xattrsOf 5 tailHoleRecords = []) ∧
  tailHoleRecords.foldl (fun value e => if value.isSome then value
    else if jkeyType e.key = some .inode ∧ jkeyOid e.key = 5 then some e.value else value) none
      = some tailHoleInode

instance : Decidable TailHoleHeaders := inferInstanceAs (Decidable (_ ∧ _))

theorem tailHoleHeaders : TailHoleHeaders := by decide +kernel

theorem hasBlocks_tailHoleImage : tailHoleImage.HasBlocks 4096 tailHoleBlocks :=
  hasBlocks_mountBlocks tailHoleHeaders.1.1 tailHoleHeaders.1.2
    (fun b hb => by rw [List.mem_singleton.mp hb, List.length_replicate])
    (show 1 ≤ 1000 by decide)

theorem fsRecords_tailHoleImage (xts : Xts) (target : Option Nat) :
    fsRecords xts tailHoleImage (soleVolume 2 5) 4096 target = .ok tailHoleRecords := by
  rw [fsRecords, walkFsTree_mount hasBlocks_tailHoleImage mountHeaders.2.2.2.2.2 rfl
    tailHoleHeaders.1.2]
  rfl

theorem runs_agree_tailHoleImage :
    ∃ fs, ApfsFs.openLive tailHoleImage = .ok fs ∧ ∀ codecs xts, ∃ runs,
      fs.extents xts (.apfsOid 5 2) .default = .ok runs ∧
      ServesWindows (fs.readAt codecs xts (.apfsOid 5 2) .default)
        ((runs.flatMap (RunInfo.bytes tailHoleImage)).take 5000) := by
  obtain ⟨spacemanPaddr, hopen⟩ := openLive_mount hasBlocks_tailHoleImage
  refine ⟨_, hopen, fun codecs xts => ?_⟩
  have hinode : loadInode xts tailHoleImage (soleVolume 2 5) 4096 5
      = .ok (.parse 5 tailHoleInode) :=
    loadInode_mount hasBlocks_tailHoleImage mountHeaders.2.2.2.2.2 rfl tailHoleHeaders.1.2 xts
      tailHoleHeaders.2.2.2
  have hexts : listExtents xts tailHoleImage (soleVolume 2 5) 4096
      (Inode.parse 5 tailHoleInode).privateId = .ok tailHoleExtents := by
    rw [tailHoleHeaders.2.1.1, listExtents_eq, fsRecords_tailHoleImage, Except.map,
      tailHoleHeaders.2.2.1.1]
  have hplain : ∀ xattrs, listXattrs xts tailHoleImage (soleVolume 2 5) 4096 5 = .ok xattrs →
      ∀ x ∈ xattrs, x.name ≠ xattrNameDecmpfs := by
    intro xattrs h
    rw [listXattrs_eq, fsRecords_tailHoleImage, Except.map, tailHoleHeaders.2.2.1.2] at h
    cases h
    simp
  have hin : ∀ ext ∈ tailHoleExtents, ext.Inside tailHoleImage 4096 := by
    have hblock : tailHoleBlocks[9]? = some (List.replicate 4096 7) := rfl
    have hend := hasBlocks_tailHoleImage.end_le hblock
    intro ext hext hphys
    rcases List.mem_pair.mp hext with rfl | rfl
    · exact hend
    · exact absurd rfl hphys
  have hsize : (Inode.parse 5 tailHoleInode).size.getD 0 = 5000 := by
    rw [tailHoleHeaders.2.1.2]
    rfl
  have htiles : TilesFrom 0 tailHoleExtents 8192 := ⟨rfl, rfl, rfl⟩
  obtain ⟨runs, hruns, hserves⟩ := @runs_agree_with_read_at codecs xts
    ⟨tailHoleImage, soleVolume 2 5, 4096, 2, spacemanPaddr⟩ 5 8192 _ _ _ rfl hinode hplain hexts
    (.refl _) htiles (by rw [hsize]; decide) (by rw [hsize]; decide) hin 2
  rw [hsize] at hserves
  exact ⟨runs, hruns, hserves⟩

end ApfsForensic
