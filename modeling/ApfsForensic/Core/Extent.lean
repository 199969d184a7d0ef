import ApfsForensic.Core.Dir
import ApfsForensic.Walk.Pieces
import Mathlib.Data.List.Sort

/-!
# File extents and file content

`core/src/extent.rs`.  A data stream is a set of extents: a logical offset, a
length and a physical block, `0` for a hole.  `readStream` fills a zeroed buffer
of the logical size, extent after extent.

Without a key an extent is one exact read into the buffer, so the content of a
stream can be told byte by byte (`readStream_content`): under an extent it is the
byte of the image that the extent points at, and anywhere else `0`.  One step of
the loop changes the bytes its extent covers and no others
(`fillExtent_getElem?`).  Where the extents are disjoint the last word on a byte
is the only word (`foldlM_fillExtent_covered`).

The crypto id of an extent plays no part in that: without a key an encrypted extent
is read like any other (`readStream_refuses_iff`).  Whether a round fails depends on its
extent and not on the buffer, with or without a key, so the extents tell when a stream is
refused (`readStream_err_iff`).
-/

namespace ApfsForensic

/-- `J_FILE_EXTENT_LEN_MASK`. -/
def jFileExtentLenMask : Nat := 0x00ffffffffffffff

/-- `MAX_FILE_BYTES`. -/
def maxFileBytes : Nat := 2 ^ 34

/-- `FileExtent`. -/
structure FileExtent where
  logicalOffset : Nat
  len : Nat
  physBlockNum : Nat
  cryptoId : Nat
  deriving DecidableEq, Repr

/-- A `FILE_EXTENT` record. -/
def decodeFileExtent (key value : Bytes) : FileExtent :=
  { logicalOffset := leU64 key 8
    len := leU64 value 0 &&& jFileExtentLenMask
    physBlockNum := leU64 value 8
    cryptoId := leU64 value 16 }

/-- `&mut out[start..start + s.len()]` overwritten with `s`. -/
def writeAt (out : Bytes) (start : Nat) (s : Bytes) : Bytes :=
  out.take start ++ s ++ out.drop (start + s.length)

section Stream

variable (xts : Xts) (image : Image) (vek : Option Vek) (blockSize : Nat)

/-- The `chunks_mut(block_size)` loop: block `i` has the tweak `crypto_id + i`. -/
def decryptBlocks (vek : Vek) (cryptoId nblocks : Nat) (tmp : Bytes) : Result Bytes := do
  let blocks ← (List.range nblocks).mapM (fun i =>
    decryptVolumeArea xts (chunk blockSize tmp i) vek (saturatingAdd cryptoId i) blockSize)
  return blocks.flatten

/-- The bytes of an extent that go into the buffer. -/
def readExtent (ext : FileExtent) (byteOff copyLen : Nat) : Result Bytes :=
  match vek with
  | some vek =>
    if ext.cryptoId ≠ 0 then do
      -- a partial sector cannot be decrypted: read whole blocks, then slice
      let nblocks := (copyLen + blockSize - 1) / blockSize
      let tmp ← image.readExact byteOff (nblocks * blockSize)
      let plain ← decryptBlocks xts blockSize vek ext.cryptoId nblocks tmp
      return plain.take copyLen
    else image.readExact byteOff copyLen
  | none => image.readExact byteOff copyLen

/-- One round of the loop of `read_stream`. -/
def fillExtent (size : Nat) (out : Bytes) (ext : FileExtent) : Result Bytes := do
  let start := ext.logicalOffset
  if start ≥ size ∨ ext.physBlockNum = 0 then
    return out
  let copyLen := min ext.len (size - start)
  -- the error is built before it is needed, and its cap divides by the block size
  if blockSize = 0 then
    throw .panic
  let some byteOff := checkedMul ext.physBlockNum blockSize
    | throw (.err (.fieldOutOfRange "j_file_extent" "phys_block_num" ext.physBlockNum
        (u64Max / blockSize)))
  let s ← readExtent xts image vek blockSize ext byteOff copyLen
  return writeAt out start s

end Stream

section Stream

variable (xts : Xts) (image : Image) (volume : ApfsVolume) (blockSize : Nat)

/-- `list_extents`: the walk, then `sort_by_key` on the logical offset. -/
def listExtents (streamOid : Nat) : Result (List FileExtent) := do
  let out ← forEachFsRecordForOid xts image volume blockSize streamOid (fun out key value =>
    if jkeyType key ≠ some .fileExtent ∨ jkeyOid key ≠ streamOid then out
    else out ++ [decodeFileExtent key value]) []
  return out.insertionSort (fun a b => a.logicalOffset ≤ b.logicalOffset)

/-- `read_stream`. -/
def readStream (streamOid logicalSize : Nat) : Result Bytes := do
  if logicalSize > maxFileBytes then
    throw (.err (.fieldOutOfRange "j_dstream" "size" logicalSize maxFileBytes))
  let extents ← listExtents xts image volume blockSize streamOid
  extents.foldlM (fillExtent xts image volume.vek blockSize logicalSize)
    (List.replicate logicalSize 0)

end Stream

/-! ### The extents of a stream -/

/-- The extents among the records a walk visits. -/
def fileExtents (streamOid : Nat) (records : List Entry) : List FileExtent :=
  (records.filter (fun e => jkeyType e.key = some .fileExtent ∧ jkeyOid e.key = streamOid)).map
    (fun e => decodeFileExtent e.key e.value)

/-- `list_extents` sorts the extents that the walk visits. -/
theorem listExtents_eq (xts : Xts) (image : Image) (volume : ApfsVolume)
    (blockSize streamOid : Nat) :
    listExtents xts image volume blockSize streamOid
      = (fsRecords xts image volume blockSize (some streamOid)).map (fun records =>
          (fileExtents streamOid records).insertionSort
            (fun a b => a.logicalOffset ≤ b.logicalOffset)) := by
  rw [listExtents, forEachFsRecordForOid, walkFsTree_eq]
  cases fsRecords xts image volume blockSize (some streamOid) with
  | error f => rfl
  | ok records =>
    simp only [Except.map, ok_bind, ne_eq, ← not_and_or, ite_not, foldl_filter_snoc,
      List.nil_append]
    rfl

/-! ### One extent -/

theorem length_writeAt {out s : Bytes} {start : Nat} (h : start + s.length ≤ out.length) :
    (writeAt out start s).length = out.length :=
  Walk.length_overwrite h

theorem getElem?_writeAt {out s : Bytes} {start : Nat} (h : start + s.length ≤ out.length)
    (i : Nat) : (writeAt out start s)[i]?
      = if start ≤ i ∧ i < start + s.length then s[i - start]? else out[i]? :=
  Walk.getElem?_overwrite h i

namespace FileExtent

/-- The extent covers byte `i` of the stream. -/
def Covers (ext : FileExtent) (i : Nat) : Prop :=
  ext.logicalOffset ≤ i ∧ i < ext.logicalOffset + ext.len

instance (ext : FileExtent) (i : Nat) : Decidable (ext.Covers i) :=
  inferInstanceAs (Decidable (_ ∧ _))

/-- No byte of the stream is covered by both. -/
def Disjoint (a b : FileExtent) : Prop := ∀ i, a.Covers i → ¬ b.Covers i

theorem Disjoint.symm {a b : FileExtent} (h : a.Disjoint b) : b.Disjoint a :=
  fun i hb ha => h i ha hb

end FileExtent

section Rounds

variable {xts : Xts} {image : Image} {blockSize size : Nat}

theorem length_mapM {f : Nat → Result Bytes} {n : Nat} : ∀ {l : List Nat} {out : List Bytes},
    (∀ i ∈ l, ∀ s, f i = .ok s → s.length = n) → l.mapM f = .ok out →
    out.flatten.length = l.length * n := by
  intro l
  induction l with
  | nil => intro out _ h; cases h; simp
  | cons i l ih =>
    intro out hf h
    rw [List.mapM_cons, bind_eq_ok_iff] at h
    obtain ⟨s, hs, h⟩ := h
    rw [bind_eq_ok_iff] at h
    obtain ⟨rest, hrest, h⟩ := h
    cases h
    rw [List.flatten_cons, List.length_append, hf i List.mem_cons_self s hs,
      ih (fun j hj => hf j (List.mem_cons_of_mem _ hj)) hrest, List.length_cons, Nat.succ_mul,
      Nat.add_comm]

/-- The slice that goes into the buffer has the length asked for, decrypted or not. -/
theorem length_readExtent {vek : Option Vek} {ext : FileExtent} {byteOff n : Nat} {s : Bytes}
    (hbs : 0 < blockSize) (h : readExtent xts image vek blockSize ext byteOff n = .ok s) :
    s.length = n := by
  unfold readExtent at h
  split at h
  · rename_i vek
    split at h
    · rw [bind_eq_ok_iff] at h
      obtain ⟨tmp, htmp, h⟩ := h
      rw [bind_eq_ok_iff] at h
      obtain ⟨plain, hplain, h⟩ := h
      cases h
      rw [decryptBlocks, bind_eq_ok_iff] at hplain
      obtain ⟨blocks, hblocks, hplain⟩ := hplain
      cases hplain
      have hlen : blocks.flatten.length = (n + blockSize - 1) / blockSize * blockSize := by
        rw [length_mapM (n := blockSize) ?_ hblocks, List.length_range]
        intro i hi s hs
        rw [length_decryptVolumeArea hs, length_chunk]
        rw [Image.length_of_readExact htmp]
        exact Nat.mul_le_mul_right _ (List.mem_range.mp hi)
      have hcover := Nat.lt_div_mul_add hbs (a := n + blockSize - 1)
      rw [List.length_take, hlen]
      omega
    · exact Image.length_of_readExact h
  · exact Image.length_of_readExact h

theorem fillExtent_skip {vek : Option Vek} {out : Bytes} {ext : FileExtent}
    (h : ext.logicalOffset ≥ size ∨ ext.physBlockNum = 0) :
    fillExtent xts image vek blockSize size out ext = .ok out := by
  rw [fillExtent, if_pos h]
  rfl

/-- A round keeps the length of the buffer, with or without a key. -/
theorem length_fillExtent {vek : Option Vek} {out out' : Bytes} {ext : FileExtent}
    (hlen : out.length = size)
    (h : fillExtent xts image vek blockSize size out ext = .ok out') : out'.length = size := by
  by_cases hskip : ext.logicalOffset ≥ size ∨ ext.physBlockNum = 0
  · rw [fillExtent_skip hskip, Except.ok.injEq] at h
    rw [← h, hlen]
  · rw [fillExtent, if_neg hskip] at h
    by_cases hbs : blockSize = 0
    · rw [if_pos hbs] at h
      exact absurd h (by simp)
    rw [if_neg hbs] at h
    by_cases hmul : ext.physBlockNum * blockSize ≤ u64Max
    · simp only [checkedMul_of_le hmul] at h
      rw [bind_eq_ok_iff] at h
      obtain ⟨s, hs, h⟩ := h
      have hslen := length_readExtent (Nat.pos_of_ne_zero hbs) hs
      cases h
      rw [length_writeAt (by omega), hlen]
    · simp only [checkedMul_of_lt (Nat.not_le.mp hmul)] at h
      exact absurd h (by simp)

/-- Without a key a round is one exact read, of the bytes up to the logical size. -/
theorem fillExtent_plain {out : Bytes} {ext : FileExtent} (hbs : blockSize ≠ 0)
    (hlt : ext.logicalOffset < size) (hphys : ext.physBlockNum ≠ 0)
    (hmul : ext.physBlockNum * blockSize ≤ u64Max) :
    fillExtent xts image none blockSize size out ext
      = (image.readExact (ext.physBlockNum * blockSize)
          (min ext.len (size - ext.logicalOffset))).map (writeAt out ext.logicalOffset) := by
  rw [fillExtent, if_neg (by omega), if_neg hbs, checkedMul_of_le hmul]
  simp only [readExtent]
  cases image.readExact (ext.physBlockNum * blockSize)
    (min ext.len (size - ext.logicalOffset)) <;> rfl

/-- What a round without a key does: it passes over the extent, fails on its address or
on the end of the image, or writes the bytes of the image. -/
theorem fillExtent_cases {out : Bytes} {ext : FileExtent} (hbs : blockSize ≠ 0) :
    (ext.logicalOffset ≥ size ∨ ext.physBlockNum = 0) ∧
        fillExtent xts image none blockSize size out ext = .ok out ∨
      (ext.logicalOffset < size ∧ ext.physBlockNum ≠ 0) ∧
        ((u64Max < ext.physBlockNum * blockSize ∨
            0 < min ext.len (size - ext.logicalOffset) ∧
              image.bytes.length < ext.physBlockNum * blockSize
                + min ext.len (size - ext.logicalOffset)) ∧
          (∃ e, fillExtent xts image none blockSize size out ext = .error (.err e)) ∨
        (min ext.len (size - ext.logicalOffset) = 0 ∨ ext.physBlockNum * blockSize
            + min ext.len (size - ext.logicalOffset) ≤ image.bytes.length) ∧
          fillExtent xts image none blockSize size out ext
            = .ok (writeAt out ext.logicalOffset
                ((image.bytes.drop (ext.physBlockNum * blockSize)).take
                  (min ext.len (size - ext.logicalOffset))))) := by
  by_cases hskip : ext.logicalOffset ≥ size ∨ ext.physBlockNum = 0
  · exact Or.inl ⟨hskip, fillExtent_skip hskip⟩
  have hlt : ext.logicalOffset < size := by omega
  have hphys : ext.physBlockNum ≠ 0 := by omega
  refine Or.inr ⟨⟨hlt, hphys⟩, ?_⟩
  by_cases hmul : ext.physBlockNum * blockSize ≤ u64Max
  · rw [fillExtent_plain hbs hlt hphys hmul]
    cases hr : image.readExact (ext.physBlockNum * blockSize)
        (min ext.len (size - ext.logicalOffset)) with
    | error f =>
      obtain ⟨rfl, hn, hpast⟩ := Image.readExact_error hr
      exact Or.inl ⟨Or.inr ⟨by omega, hpast⟩, _, rfl⟩
    | ok s =>
      obtain ⟨hin, rfl⟩ := Image.readExact_eq_ok_iff.mp hr
      exact Or.inr ⟨hin, rfl⟩
  · rw [fillExtent, if_neg hskip, if_neg hbs, checkedMul_of_lt (by omega)]
    exact Or.inl ⟨Or.inl (by omega), _, rfl⟩

/-- **A round writes the bytes its extent covers, and no others.** -/
theorem fillExtent_getElem? {out out' : Bytes} {ext : FileExtent} (hbs : blockSize ≠ 0)
    (hlen : out.length = size)
    (h : fillExtent xts image none blockSize size out ext = .ok out') {i : Nat} (hi : i < size) :
    out'[i]? = if ext.physBlockNum ≠ 0 ∧ ext.Covers i then
          image.bytes[ext.physBlockNum * blockSize + (i - ext.logicalOffset)]?
        else out[i]? := by
  unfold FileExtent.Covers
  rcases fillExtent_cases hbs with ⟨hskip, hok⟩ | ⟨⟨hlt, hphys⟩, ⟨_, e, herr⟩ | ⟨hin, hok⟩⟩
  · rw [hok, Except.ok.injEq] at h
    rw [← h, if_neg (by omega)]
  · rw [herr] at h
    exact absurd h (by simp)
  · rw [hok, Except.ok.injEq] at h
    have hslen : ((image.bytes.drop (ext.physBlockNum * blockSize)).take
        (min ext.len (size - ext.logicalOffset))).length
        = min ext.len (size - ext.logicalOffset) := by
      rw [List.length_take, List.length_drop]
      omega
    rw [← h, getElem?_writeAt (by omega), hslen]
    by_cases hcov : ext.logicalOffset ≤ i ∧ i < ext.logicalOffset + ext.len
    · rw [if_pos ⟨by omega, by omega⟩, if_pos ⟨hphys, hcov⟩, List.getElem?_take_of_lt (by omega),
        List.getElem?_drop]
    · rw [if_neg (by omega), if_neg (fun hc => hcov hc.2)]

/-- A round fails only on an address that leaves `u64` or a read past the image. -/
theorem fillExtent_error {out : Bytes} {ext : FileExtent} {f : Fault} (hbs : blockSize ≠ 0)
    (h : fillExtent xts image none blockSize size out ext = .error f) :
    (∃ e, f = .err e) ∧ ext.physBlockNum ≠ 0 ∧ ext.logicalOffset < size ∧
      (u64Max < ext.physBlockNum * blockSize ∨
        0 < min ext.len (size - ext.logicalOffset) ∧
          image.bytes.length < ext.physBlockNum * blockSize
            + min ext.len (size - ext.logicalOffset)) := by
  rcases fillExtent_cases hbs with ⟨_, hok⟩ | ⟨⟨hlt, hphys⟩, ⟨hbad, e, herr⟩ | ⟨_, hok⟩⟩
  · rw [hok] at h
    exact absurd h (by simp)
  · rw [herr, Except.error.injEq] at h
    exact ⟨⟨e, h.symm⟩, hphys, hlt, hbad⟩
  · rw [hok] at h
    exact absurd h (by simp)

/-! ### All extents -/

theorem length_foldlM_fillExtent {vek : Option Vek} :
    ∀ (exts : List FileExtent) (out out' : Bytes), out.length = size →
      exts.foldlM (fillExtent xts image vek blockSize size) out = .ok out' →
      out'.length = size := by
  intro exts
  induction exts with
  | nil => intro out out' hlen h; cases h; exact hlen
  | cons ext exts ih =>
    intro out out' hlen h
    rw [List.foldlM_cons, bind_eq_ok_iff] at h
    obtain ⟨mid, hstep, hrest⟩ := h
    exact ih mid out' (length_fillExtent hlen hstep) hrest

/-- A byte that no extent covers keeps its value through the loop. -/
theorem foldlM_fillExtent_not_covered (hbs : blockSize ≠ 0) {i : Nat} (hi : i < size) :
    ∀ (exts : List FileExtent) (out out' : Bytes), out.length = size →
      exts.foldlM (fillExtent xts image none blockSize size) out = .ok out' →
      (∀ ext ∈ exts, ext.physBlockNum ≠ 0 → ¬ ext.Covers i) → out'[i]? = out[i]? := by
  intro exts
  induction exts with
  | nil => intro out out' _ h _; cases h; rfl
  | cons ext exts ih =>
    intro out out' hlen h hcov
    rw [List.foldlM_cons, bind_eq_ok_iff] at h
    obtain ⟨mid, hstep, hrest⟩ := h
    have hmid := length_fillExtent hlen hstep
    rw [ih mid out' hmid hrest (fun e he => hcov e (List.mem_cons_of_mem _ he)),
      fillExtent_getElem? hbs hlen hstep hi,
      if_neg (fun hc => hcov ext List.mem_cons_self hc.1 hc.2)]

/-- A byte under one of the disjoint extents is the byte that extent points at. -/
theorem foldlM_fillExtent_covered (hbs : blockSize ≠ 0) {i : Nat} (hi : i < size) :
    ∀ (exts : List FileExtent) (out out' : Bytes), out.length = size →
      exts.foldlM (fillExtent xts image none blockSize size) out = .ok out' →
      exts.Pairwise FileExtent.Disjoint →
      ∀ ext ∈ exts, ext.physBlockNum ≠ 0 → ext.Covers i →
        out'[i]? = image.bytes[ext.physBlockNum * blockSize + (i - ext.logicalOffset)]? := by
  intro exts
  induction exts with
  | nil => intro out out' _ _ _ ext hext; exact absurd hext (by simp)
  | cons e exts ih =>
    intro out out' hlen h hdisj ext hext hphys hcov
    rw [List.foldlM_cons, bind_eq_ok_iff] at h
    obtain ⟨mid, hstep, hrest⟩ := h
    have hmid := length_fillExtent hlen hstep
    rw [List.pairwise_cons] at hdisj
    rcases List.mem_cons.mp hext with rfl | hext
    · -- written now, and the extents that follow leave it alone
      rw [foldlM_fillExtent_not_covered hbs hi exts mid out' hmid hrest
          (fun e' he' _ => hdisj.1 e' he' i hcov), fillExtent_getElem? hbs hlen hstep hi,
        if_pos ⟨hphys, hcov⟩]
    · exact ih mid out' hmid hrest hdisj.2 ext hext hphys hcov

theorem foldlM_fillExtent_error (hbs : blockSize ≠ 0) {f : Fault} :
    ∀ (exts : List FileExtent) (out : Bytes),
      exts.foldlM (fillExtent xts image none blockSize size) out = .error f →
      (∃ e, f = .err e) ∧ ∃ ext ∈ exts, ext.physBlockNum ≠ 0 ∧ ext.logicalOffset < size ∧
        (u64Max < ext.physBlockNum * blockSize ∨
          0 < min ext.len (size - ext.logicalOffset) ∧
            image.bytes.length < ext.physBlockNum * blockSize
              + min ext.len (size - ext.logicalOffset)) := by
  intro exts
  induction exts with
  | nil => intro out h; exact absurd h (by simp [pure, Except.pure])
  | cons ext exts ih =>
    intro out h
    rw [List.foldlM_cons] at h
    cases hstep : fillExtent xts image none blockSize size out ext with
    | error g =>
      rw [hstep, error_bind, Except.error.injEq] at h
      subst h
      obtain ⟨he, hext⟩ := fillExtent_error hbs hstep
      exact ⟨he, ext, List.mem_cons_self, hext⟩
    | ok mid =>
      rw [hstep, ok_bind] at h
      obtain ⟨he, ext', hmem, hext'⟩ := ih mid h
      exact ⟨he, ext', List.mem_cons_of_mem _ hmem, hext'⟩

end Rounds

/-- A walk that succeeds has read an object map header, so its blocks are not
empty. -/
theorem blockSize_ne_zero_of_fsRecords {xts : Xts} {image : Image} {volume : ApfsVolume}
    {blockSize : Nat} {target : Option Nat} {records : List Entry}
    (h : fsRecords xts image volume blockSize target = .ok records) : blockSize ≠ 0 := by
  rw [fsRecords, walkFsTree, bind_eq_ok_iff] at h
  obtain ⟨omap, homap, _⟩ := h
  rw [readObjectMap, bind_eq_ok_iff] at homap
  obtain ⟨buf, hbuf, hparse⟩ := homap
  have hlen := ObjectMap.parse_length hparse
  rw [Image.length_of_readBlock hbuf] at hlen
  unfold omapPhysMinLen at hlen
  omega

theorem blockSize_ne_zero_of_listExtents {xts : Xts} {image : Image} {volume : ApfsVolume}
    {blockSize streamOid : Nat} {exts : List FileExtent}
    (h : listExtents xts image volume blockSize streamOid = .ok exts) : blockSize ≠ 0 := by
  rw [listExtents_eq] at h
  cases hwalk : fsRecords xts image volume blockSize (some streamOid) with
  | error f => rw [hwalk] at h; exact absurd h (by simp [Except.map])
  | ok records => exact blockSize_ne_zero_of_fsRecords hwalk

/-- A stream that is read has its logical size, whatever the volume. -/
theorem length_readStream {xts : Xts} {image : Image} {volume : ApfsVolume}
    {blockSize streamOid size : Nat} {bytes : Bytes}
    (h : readStream xts image volume blockSize streamOid size = .ok bytes) :
    bytes.length = size := by
  rw [readStream] at h
  simp only [throw_eq_error, error_bind, ite_error_eq_ok_iff, bind_eq_ok_iff] at h
  obtain ⟨_, exts, _, hfill⟩ := h
  exact length_foldlM_fillExtent exts _ bytes List.length_replicate hfill

/-- **What a stream reads as.**  On a volume without a key, over extents that do not
overlap, `read_stream` gives the logical size in bytes: those under an extent come
from the image, all others are `0`.  It fails only on an extent whose address
leaves `u64` or which needs bytes past the end of the image. -/
theorem readStream_content {xts : Xts} {image : Image} {volume : ApfsVolume}
    {streamOid blockSize size : Nat} {records : List Entry} (hvek : volume.vek = none)
    (hsize : size ≤ maxFileBytes)
    (hwalk : fsRecords xts image volume blockSize (some streamOid) = .ok records)
    (hdisj : (fileExtents streamOid records).Pairwise FileExtent.Disjoint) :
    (∀ bytes, readStream xts image volume blockSize streamOid size = .ok bytes →
      bytes.length = size ∧ ∀ i, i < size →
        (∀ ext ∈ fileExtents streamOid records, ext.physBlockNum ≠ 0 → ext.Covers i →
          bytes[i]? = image.bytes[ext.physBlockNum * blockSize + (i - ext.logicalOffset)]?) ∧
        ((∀ ext ∈ fileExtents streamOid records, ext.physBlockNum ≠ 0 → ¬ ext.Covers i) →
          bytes[i]? = some 0)) ∧
    (∀ f, readStream xts image volume blockSize streamOid size = .error f →
      (∃ e, f = .err e) ∧ ∃ ext ∈ fileExtents streamOid records,
        ext.physBlockNum ≠ 0 ∧ ext.logicalOffset < size ∧
          (u64Max < ext.physBlockNum * blockSize ∨
            0 < min ext.len (size - ext.logicalOffset) ∧
              image.bytes.length < ext.physBlockNum * blockSize
                + min ext.len (size - ext.logicalOffset))) := by
  have hbs := blockSize_ne_zero_of_fsRecords hwalk
  have hperm := List.perm_insertionSort
    (fun a b : FileExtent => a.logicalOffset ≤ b.logicalOffset) (fileExtents streamOid records)
  have hread : readStream xts image volume blockSize streamOid size
      = ((fileExtents streamOid records).insertionSort
          (fun a b => a.logicalOffset ≤ b.logicalOffset)).foldlM
          (fillExtent xts image none blockSize size) (List.replicate size 0) := by
    rw [readStream, if_neg (by omega), listExtents_eq, hwalk, hvek]
    rfl
  generalize (fileExtents streamOid records).insertionSort
    (fun a b => a.logicalOffset ≤ b.logicalOffset) = sorted at hperm hread
  have hsorted : sorted.Pairwise FileExtent.Disjoint :=
    (hperm.pairwise_iff FileExtent.Disjoint.symm).mpr hdisj
  have hlen : (List.replicate size (0 : UInt8)).length = size := List.length_replicate
  constructor
  · intro bytes hok
    refine ⟨length_readStream hok, fun i hi => ?_⟩
    rw [hread] at hok
    constructor
    · intro ext hext hphys hcov
      exact foldlM_fillExtent_covered hbs hi sorted _ bytes hlen hok hsorted ext
        (hperm.mem_iff.mpr hext) hphys hcov
    · intro hnone
      rw [foldlM_fillExtent_not_covered hbs hi sorted _ bytes hlen hok
        (fun ext hext => hnone ext (hperm.mem_iff.mp hext)), List.getElem?_replicate, if_pos hi]
  · intro f herr
    rw [hread] at herr
    obtain ⟨he, ext, hext, hbad⟩ := foldlM_fillExtent_error hbs sorted _ herr
    exact ⟨he, ext, hperm.mem_iff.mp hext, hbad⟩

/-! ### A hole and a cut extent

Stream `5` has its data extent before its hole in the leaf, and the logical size
ends inside the data. -/

/-- A `FILE_EXTENT` record. -/
def extentRecord (streamOid : Nat) (ext : FileExtent) : Entry :=
  ⟨jkeyBytes 8 streamOid ++ toLeBytes 8 ext.logicalOffset,
    toLeBytes 8 ext.len ++ toLeBytes 8 ext.physBlockNum ++ toLeBytes 8 ext.cryptoId⟩

def holeRecords : List Entry := [extentRecord 5 ⟨256, 256, 3, 0⟩, extentRecord 5 ⟨0, 256, 0, 0⟩]

def holeImage : Image :=
  ⟨omapBlock 256 0 1 ++ btreeNode 256 1 1 0x7 0 [omapRecord 10 1 0 2] ++
    btreeNode 256 10 1 0x3 0 holeRecords ++ List.replicate 256 9, by decide +kernel⟩

theorem fileExtents_holeRecords :
    fileExtents 5 holeRecords = [⟨256, 256, 3, 0⟩, ⟨0, 256, 0, 0⟩] := by
  decide +kernel

theorem readStream_hole_then_data :
    ∃ bytes, readStream .uncalled holeImage (.ofRoots 1 0 10 0) 256 5 300 = .ok bytes ∧
      bytes.length = 300 ∧ bytes[255]? = some 0 ∧ bytes[256]? = some 9 := by
  have hwalk : fsRecords .uncalled holeImage (.ofRoots 1 0 10 0) 256 (some 5) = .ok holeRecords := by
    decide +kernel
  have hdisj : (fileExtents 5 holeRecords).Pairwise FileExtent.Disjoint := by
    rw [fileExtents_holeRecords, List.pairwise_pair]
    rintro i ⟨hlo, _⟩ ⟨_, hhi⟩
    exact absurd hlo (Nat.not_le.mpr hhi)
  obtain ⟨hok, herr⟩ := readStream_content rfl (show 300 ≤ maxFileBytes by decide) hwalk hdisj
  rw [fileExtents_holeRecords] at hok herr
  cases h : readStream .uncalled holeImage (.ofRoots 1 0 10 0) 256 5 300 with
  | error f =>
    obtain ⟨_, hext⟩ := herr f h
    exact absurd hext (by decide +kernel)
  | ok bytes =>
    obtain ⟨hlen, hbyte⟩ := hok bytes h
    refine ⟨bytes, rfl, hlen, (hbyte 255 (by decide)).2 (by decide), ?_⟩
    rw [(hbyte 256 (by decide)).1 ⟨256, 256, 3, 0⟩ (by decide) (by decide) (by decide)]
    decide +kernel

/-! ### Ciphertext without a key

A volume without a key reads every extent as it stands, whatever its crypto id.  A
stream with encrypted extents is refused only where something else fails. -/

namespace FileExtent

/-- The extent is encrypted and holds bytes below the logical size. -/
def EncryptedBelow (ext : FileExtent) (size : Nat) : Prop :=
  (ext.physBlockNum ≠ 0 ∧ ext.cryptoId ≠ 0) ∧ ext.logicalOffset < size ∧ 0 < ext.len

/-- The extent starts below the logical size and cannot be read: its byte offset
leaves `u64`, or it needs bytes past the end of the image. -/
def Unreadable (ext : FileExtent) (image : Image) (blockSize size : Nat) : Prop :=
  ext.physBlockNum ≠ 0 ∧ ext.logicalOffset < size ∧
    (u64Max < ext.physBlockNum * blockSize ∨
      0 < min ext.len (size - ext.logicalOffset) ∧
        image.bytes.length < ext.physBlockNum * blockSize
          + min ext.len (size - ext.logicalOffset))

instance (ext : FileExtent) (size : Nat) : Decidable (ext.EncryptedBelow size) :=
  inferInstanceAs (Decidable (_ ∧ _))

instance (ext : FileExtent) (image : Image) (blockSize size : Nat) :
    Decidable (ext.Unreadable image blockSize size) :=
  inferInstanceAs (Decidable (_ ∧ _ ∧ _))

/-- The bytes that the read of the extent asks for: those below the logical size, and where
they are decrypted whole blocks of them. -/
def asked (ext : FileExtent) (vek : Option Vek) (blockSize size : Nat) : Nat :=
  let copyLen := min ext.len (size - ext.logicalOffset)
  if vek.isSome ∧ ext.cryptoId ≠ 0 then (copyLen + blockSize - 1) / blockSize * blockSize
  else copyLen

/-- What the cipher makes of these bytes; without a key, or where they are not encrypted, they
stay as they are. -/
def deciphered (ext : FileExtent) (xts : Xts) (image : Image) (vek : Option Vek)
    (blockSize size : Nat) : Result Bytes :=
  let stored := (image.bytes.drop (ext.physBlockNum * blockSize)).take
    (ext.asked vek blockSize size)
  match vek with
  | some key =>
    if ext.cryptoId ≠ 0 then
      decryptBlocks xts blockSize key ext.cryptoId (ext.asked vek blockSize size / blockSize) stored
    else .ok stored
  | none => .ok stored

/-- The extent has bytes below the logical size, and is no hole. -/
def Stored (ext : FileExtent) (size : Nat) : Prop :=
  ext.physBlockNum ≠ 0 ∧ ext.logicalOffset < size

/-- Its byte offset leaves `u64`, or the bytes asked for are not all on the image. -/
def Absent (ext : FileExtent) (image : Image) (vek : Option Vek) (blockSize size : Nat) : Prop :=
  u64Max < ext.physBlockNum * blockSize ∨
    0 < ext.asked vek blockSize size ∧
      image.bytes.length < ext.physBlockNum * blockSize + ext.asked vek blockSize size

/-- The extent is read: it is passed over, or its bytes are there and the cipher takes them. -/
def Readable (ext : FileExtent) (xts : Xts) (image : Image) (vek : Option Vek)
    (blockSize size : Nat) : Prop :=
  ext.Stored size → ¬ ext.Absent image vek blockSize size ∧
    ∃ plain, ext.deciphered xts image vek blockSize size = .ok plain

end FileExtent

section Refusals

variable {xts : Xts} {image : Image} {vek : Option Vek} {blockSize size : Nat}

/-- The read of an extent, then the cipher, then the slice. -/
theorem readExtent_eq {ext : FileExtent} (hbs : blockSize ≠ 0) :
    readExtent xts image vek blockSize ext (ext.physBlockNum * blockSize)
        (min ext.len (size - ext.logicalOffset))
      = image.readExact (ext.physBlockNum * blockSize) (ext.asked vek blockSize size) >>= fun _ =>
        (ext.deciphered xts image vek blockSize size).map
          (List.take (min ext.len (size - ext.logicalOffset))) := by
  have hread : ∀ n, image.readExact (ext.physBlockNum * blockSize) n
      = image.readExact (ext.physBlockNum * blockSize) n >>= fun _ =>
        .ok (((image.bytes.drop (ext.physBlockNum * blockSize)).take n).take n) := by
    intro n
    cases hr : image.readExact (ext.physBlockNum * blockSize) n with
    | error f => rfl
    | ok s => rw [(Image.readExact_eq_ok_iff.mp hr).2, ok_bind, List.take_take, Nat.min_self]
  unfold readExtent FileExtent.deciphered FileExtent.asked
  cases vek with
  | none => exact hread _
  | some key =>
    by_cases hcrypto : ext.cryptoId = 0
    · simp only [hcrypto, ne_eq, not_true_eq_false, if_false, and_false]
      exact hread _
    · simp only [ne_eq, hcrypto, not_false_eq_true, if_true, Option.isSome_some, and_self,
        Nat.mul_div_cancel _ (Nat.pos_of_ne_zero hbs)]
      cases hr : image.readExact (ext.physBlockNum * blockSize)
          ((min ext.len (size - ext.logicalOffset) + blockSize - 1) / blockSize * blockSize) with
      | error f => rfl
      | ok tmp =>
        rw [ok_bind, ok_bind, (Image.readExact_eq_ok_iff.mp hr).2]
        cases decryptBlocks xts blockSize key ext.cryptoId _ _ <;> rfl

/-- A round that is not passed over: an extent whose bytes are there is what the cipher makes
of it. -/
theorem fillExtent_stored (xts : Xts) (image : Image) (vek : Option Vek) (out : Bytes)
    {ext : FileExtent} (hbs : blockSize ≠ 0) (hstored : ext.Stored size) :
    (ext.Absent image vek blockSize size ∧
        ∃ e, fillExtent xts image vek blockSize size out ext = .error (.err e)) ∨
      ¬ ext.Absent image vek blockSize size ∧
        fillExtent xts image vek blockSize size out ext
          = (ext.deciphered xts image vek blockSize size).map (fun plain =>
              writeAt out ext.logicalOffset
                (plain.take (min ext.len (size - ext.logicalOffset)))) := by
  obtain ⟨hphys, hlt⟩ := hstored
  rw [fillExtent, if_neg (by omega), if_neg hbs]
  by_cases hmul : ext.physBlockNum * blockSize ≤ u64Max
  · rw [checkedMul_of_le hmul]
    simp only [readExtent_eq hbs]
    cases hr : image.readExact (ext.physBlockNum * blockSize) (ext.asked vek blockSize size) with
    | error f =>
      obtain ⟨rfl, hn, hpast⟩ := Image.readExact_error hr
      exact Or.inl ⟨Or.inr ⟨by omega, hpast⟩, _, rfl⟩
    | ok s =>
      have hin := (Image.readExact_eq_ok_iff.mp hr).1
      refine Or.inr ⟨?_, ?_⟩
      · rintro (hpast | hpast)
        · omega
        · omega
      · rw [ok_bind]
        cases ext.deciphered xts image vek blockSize size <;> rfl
  · rw [checkedMul_of_lt (by omega)]
    exact Or.inl ⟨Or.inl (by omega), _, rfl⟩

theorem fillExtent_ok_iff {out : Bytes} {ext : FileExtent} (hbs : blockSize ≠ 0) :
    (∃ out', fillExtent xts image vek blockSize size out ext = .ok out') ↔
      ext.Readable xts image vek blockSize size := by
  by_cases hstored : ext.Stored size
  · rw [FileExtent.Readable, imp_iff_right hstored]
    rcases fillExtent_stored xts image vek out hbs hstored with
      ⟨habsent, e, herr⟩ | ⟨hhere, hround⟩
    · simp [herr, habsent]
    · rw [hround]
      cases ext.deciphered xts image vek blockSize size <;> simp [Except.map, hhere]
  · refine iff_of_true ⟨out, fillExtent_skip ?_⟩ fun h => absurd h hstored
    unfold FileExtent.Stored at hstored
    omega

/-- The loop goes through exactly if every extent is read. -/
theorem foldlM_fillExtent_ok_iff (hbs : blockSize ≠ 0) : ∀ {exts : List FileExtent} {out : Bytes},
    (∃ out', exts.foldlM (fillExtent xts image vek blockSize size) out = .ok out') ↔
      ∀ ext ∈ exts, ext.Readable xts image vek blockSize size := by
  intro exts
  induction exts with
  | nil => intro out; exact iff_of_true ⟨out, rfl⟩ (by simp)
  | cons ext exts ih =>
    intro out
    rw [List.foldlM_cons, List.forall_mem_cons, ← @fillExtent_ok_iff _ _ _ _ _ out ext hbs]
    cases hstep : fillExtent xts image vek blockSize size out ext with
    | error f => simp
    | ok mid => simpa using ih

end Refusals

section Locked

variable {xts : Xts} {image : Image} {blockSize size : Nat}

/-- Without a key the loop fails exactly if one of the extents cannot be read. -/
theorem foldlM_fillExtent_error_iff (hbs : blockSize ≠ 0) (exts : List FileExtent) (out : Bytes) :
    (∃ e, exts.foldlM (fillExtent xts image none blockSize size) out = .error (.err e)) ↔
      ∃ ext ∈ exts, ext.Unreadable image blockSize size := by
  constructor
  · rintro ⟨e, herr⟩
    exact (foldlM_fillExtent_error hbs exts out herr).2
  · rintro ⟨ext, hext, hphys, hlt, habsent⟩
    cases hrun : exts.foldlM (fillExtent xts image none blockSize size) out with
    | error f =>
      obtain ⟨⟨e, rfl⟩, _⟩ := foldlM_fillExtent_error hbs exts out hrun
      exact ⟨e, rfl⟩
    | ok bytes =>
      have hread := (foldlM_fillExtent_ok_iff hbs).mp ⟨bytes, hrun⟩ ext hext
      exact absurd habsent (hread ⟨hphys, hlt⟩).1

/-- **When a volume without a key refuses a stream with encrypted extents.**  Exactly
if the logical size is above the cap, or some extent cannot be read at all. -/
theorem readStream_refuses_iff {volume : ApfsVolume} {streamOid : Nat}
    (hvek : volume.vek = none) :
    (∀ exts, listExtents xts image volume blockSize streamOid = .ok exts →
      (∃ ext ∈ exts, ext.EncryptedBelow size) →
      ∃ e, readStream xts image volume blockSize streamOid size = .error (.err e)) ↔
    ∀ exts, listExtents xts image volume blockSize streamOid = .ok exts →
      (∃ ext ∈ exts, ext.EncryptedBelow size) →
      maxFileBytes < size ∨ ∃ ext ∈ exts, ext.Unreadable image blockSize size := by
  have hread : ∀ exts, listExtents xts image volume blockSize streamOid = .ok exts →
      ((∃ e, readStream xts image volume blockSize streamOid size = .error (.err e)) ↔
        maxFileBytes < size ∨ ∃ ext ∈ exts, ext.Unreadable image blockSize size) := by
    intro exts hexts
    rw [readStream, hexts, hvek]
    by_cases hsize : size > maxFileBytes
    · simp [hsize]
    · rw [if_neg hsize, ok_bind,
        foldlM_fillExtent_error_iff (blockSize_ne_zero_of_listExtents hexts)]
      simp [hsize]
  exact forall_congr' fun exts => forall_congr' fun hexts => imp_congr_right fun _ =>
    hread exts hexts

end Locked

/-- One encrypted extent of one block, behind a tree that is not encrypted. -/
def cipherImage (phys : Nat) : Bytes :=
  omapBlock 256 0 1 ++ btreeNode 256 1 1 0x7 0 [omapRecord 10 1 0 2] ++
    btreeNode 256 10 1 0x3 0 [extentRecord 5 ⟨0, 256, phys, 7⟩] ++ List.replicate 256 9

def lockedImage : Image := ⟨cipherImage 3, by decide +kernel⟩

def cutOffImage : Image := ⟨cipherImage 4, by decide +kernel⟩

/-- An extent past the end of the image is refused. -/
theorem readStream_refuses_cutOffImage :
    ∃ e, readStream .uncalled cutOffImage (.ofRoots 1 0 10 0) 256 5 100 = .error (.err e) := by
  have hexts : listExtents .uncalled cutOffImage (.ofRoots 1 0 10 0) 256 5
      = .ok [⟨0, 256, 4, 7⟩] := by
    decide +kernel
  refine (readStream_refuses_iff rfl).mpr ?_ _ hexts (by decide)
  intro exts h _
  rw [hexts, Except.ok.injEq] at h
  subst h
  exact Or.inr (by decide +kernel)

/-- An encrypted extent inside the image is served as it stands. -/
theorem readStream_serves_lockedImage :
    listExtents .uncalled lockedImage (.ofRoots 1 0 10 0) 256 5 = .ok [⟨0, 256, 3, 7⟩] ∧
      FileExtent.EncryptedBelow ⟨0, 256, 3, 7⟩ 100 ∧
      readStream .uncalled lockedImage (.ofRoots 1 0 10 0) 256 5 100
        = .ok (List.replicate 100 9) := by
  refine ⟨by decide +kernel, by decide, by decide +kernel⟩

end ApfsForensic
