import ApfsForensic.Core.Contents
import ApfsForensic.Core.RunList

/-!
# File content

The content of a file is cut into fragments, and each of them is put somewhere: in clear,
encrypted block by block, or nowhere if it is a hole.  `extentsFrom` gives the extents that
describe such a layout.

`Fragment.Stored` says that the image has the fragment.  What is used of it is that every
prefix of the fragment can be read (`Fragment.readExtent`), whichever way it is stored; the
rounds of `read_stream` then add fragment after fragment to the buffer
(`fillExtent_fragment`).

* `file_round_trip`: `read_at` delivers what the fragments hold, for any fragmentation and any
  order of the extents in the tree, cut or filled up with zeros to the size of the file; an
  attribute in a stream of its own is delivered in the same way.
-/

namespace ApfsForensic

open Walk

/-! ### Fragments -/

/-- A part of a file: its bytes, and the block and crypto id of its extent. -/
structure Fragment where
  content : Bytes
  physBlockNum : Nat
  cryptoId : Nat
  nonempty : content ≠ []

namespace Fragment

/-- The extents of fragments that follow on each other from `offset` on. -/
def extentsFrom : Nat → List Fragment → List FileExtent
  | _, [] => []
  | offset, f :: fs =>
    ⟨offset, f.content.length, f.physBlockNum, f.cryptoId⟩ ::
      extentsFrom (offset + f.content.length) fs

/-- The three ways in which an image has a fragment. -/
inductive Stored (xts : Xts) (image : Image) (vek : Option Vek) (blockSize : Nat) (f : Fragment) :
    Prop
  | hole (phys : f.physBlockNum = 0) (zeros : f.content = List.replicate f.content.length 0)
  | clear (phys : f.physBlockNum ≠ 0) (key : vek = none ∨ f.cryptoId = 0)
      (stands : f.content <+: image.bytes.drop (f.physBlockNum * blockSize))
  | encrypted {key : Vek} (c : SectorCipher xts key) (hvek : vek = some key)
      (phys : f.physBlockNum ≠ 0) (crypto : f.cryptoId ≠ 0)
      (sectors : apfsCryptoSector ∣ blockSize) (sector_le : apfsCryptoSector ≤ blockSize)
      (whole : blockSize ∣ f.content.length)
      (inside : f.physBlockNum * blockSize + f.content.length ≤ image.bytes.length)
      (blocks : ∀ i < f.content.length / blockSize,
        image.blockAt blockSize (f.physBlockNum + i)
          = c.encryptBlock blockSize (f.cryptoId + i) (chunk blockSize f.content i))
      (no_overflow : ∀ i < f.content.length / blockSize,
        (f.cryptoId + i) * (blockSize / apfsCryptoSector) ≤ u64Max)

end Fragment

open Fragment

/-! ### One fragment -/

section Read

variable {xts : Xts} {image : Image} {vek : Option Vek} {blockSize : Nat} {f : Fragment}

/-- The loop over blocks undoes the encryption of each. -/
theorem decryptBlocks_eq {key : Vek} (c : SectorCipher xts key) {cryptoId k : Nat}
    {stored plain : Bytes} (hdvd : apfsCryptoSector ∣ blockSize)
    (hge : apfsCryptoSector ≤ blockSize) (hcrypto : cryptoId ≠ 0)
    (hlen : plain.length = k * blockSize)
    (hover : ∀ i < k, (cryptoId + i) * (blockSize / apfsCryptoSector) ≤ u64Max)
    (hblock : ∀ i < k, chunk blockSize stored i
      = c.encryptBlock blockSize (cryptoId + i) (chunk blockSize plain i)) :
    decryptBlocks xts blockSize key cryptoId k stored = .ok plain := by
  have hspb : 1 ≤ blockSize / apfsCryptoSector := (Nat.one_le_div_iff (by decide)).mpr hge
  have hstep : ∀ i ∈ List.range k,
      decryptVolumeArea xts (chunk blockSize stored i) key (saturatingAdd cryptoId i) blockSize
        = .ok (chunk blockSize plain i) := by
    intro i hi
    rw [List.mem_range] at hi
    have htweak : cryptoId + i ≤ u64Max :=
      le_trans (Nat.le_mul_of_pos_right _ hspb) (hover i hi)
    have hchunk : (chunk blockSize plain i).length = blockSize :=
      length_chunk (hlen ▸ Nat.mul_le_mul_right _ hi)
    rw [saturatingAdd_of_le htweak, hblock i hi]
    exact decryptVolumeArea_encryptBlock c hchunk hdvd hge (by omega) (hover i hi)
  have hwhole : (List.range k).flatMap (chunk blockSize plain) = plain := by
    rw [flatMap_chunk, List.take_of_length_le (by omega)]
  rw [decryptBlocks, mapM_eq_ok hstep, ok_bind]
  exact congrArg Except.ok hwhole

theorem Fragment.Stored.mul_le (h : f.Stored xts image vek blockSize)
    (hphys : f.physBlockNum ≠ 0) : f.physBlockNum * blockSize ≤ u64Max := by
  have himage := image.length_lt
  have hpos : 0 < f.content.length := List.length_pos_iff.mpr f.nonempty
  unfold u64Max
  cases h with
  | hole phys _ => exact absurd phys hphys
  | clear _ _ stands =>
    have hle := stands.length_le
    rw [List.length_drop] at hle
    omega
  | encrypted _ _ _ _ _ _ _ inside _ _ => omega

/-- Every prefix of a stored fragment can be read. -/
theorem Fragment.Stored.readExtent (h : f.Stored xts image vek blockSize)
    (hphys : f.physBlockNum ≠ 0) {ext : FileExtent} (hext : ext.cryptoId = f.cryptoId) {n : Nat}
    (hn : n ≤ f.content.length) :
    readExtent xts image vek blockSize ext (f.physBlockNum * blockSize) n
      = .ok (f.content.take n) := by
  cases h with
  | hole phys _ => exact absurd phys hphys
  | clear _ key stands =>
    have hread : image.readExact (f.physBlockNum * blockSize) n = .ok (f.content.take n) := by
      have hle := stands.length_le
      rw [List.length_drop] at hle
      obtain ⟨rest, hrest⟩ := stands
      refine Image.readExact_eq_ok_iff.mpr ⟨by omega, ?_⟩
      rw [← hrest, List.take_append_of_le_length hn]
    cases vek with
    | none => exact hread
    | some vek =>
      obtain hvek | hcrypto := key
      · cases hvek
      · rw [ApfsForensic.readExtent, hext, if_neg (not_not.mpr hcrypto)]
        exact hread
  | @encrypted key c hvek _ crypto sectors sector_le whole inside blocks no_overflow =>
    subst hvek
    -- whole blocks are read, as many as cover the prefix
    have hbs : 0 < blockSize := lt_of_lt_of_le (by decide) sector_le
    have hlen : f.content.length / blockSize * blockSize = f.content.length :=
      Nat.div_mul_cancel whole
    have hceil : (n + blockSize - 1) / blockSize = n ⌈/⌉ blockSize :=
      (Nat.ceilDiv_eq_add_pred_div n blockSize).symm
    have hblocks : n ⌈/⌉ blockSize ≤ f.content.length / blockSize := by
      rw [ceilDiv_le_iff_le_mul hbs, Nat.mul_comm, hlen]
      exact hn
    have hcover : n ≤ n ⌈/⌉ blockSize * blockSize := by
      rw [Nat.mul_comm]
      exact (ceilDiv_le_iff_le_mul hbs).mp le_rfl
    have hin : n ⌈/⌉ blockSize * blockSize ≤ f.content.length :=
      le_trans (Nat.mul_le_mul_right _ hblocks) (le_of_eq hlen)
    have hread : image.readExact (f.physBlockNum * blockSize) (n ⌈/⌉ blockSize * blockSize)
        = .ok ((image.bytes.drop (f.physBlockNum * blockSize)).take
            (n ⌈/⌉ blockSize * blockSize)) :=
      Image.readExact_eq_ok_iff.mpr ⟨Or.inr (by omega), rfl⟩
    have hdecrypt : decryptBlocks xts blockSize key f.cryptoId (n ⌈/⌉ blockSize)
        ((image.bytes.drop (f.physBlockNum * blockSize)).take (n ⌈/⌉ blockSize * blockSize))
        = .ok (f.content.take (n ⌈/⌉ blockSize * blockSize)) := by
      refine decryptBlocks_eq c sectors sector_le crypto (by rw [List.length_take]; omega)
        (fun i hi => no_overflow i (by omega)) (fun i hi => ?_)
      rw [chunk_take _ hi, chunk_take _ hi, chunk_drop]
      exact blocks i (by omega)
    rw [ApfsForensic.readExtent, hext]
    simp only [if_pos crypto, hceil, hread, ok_bind, hdecrypt]
    show Except.ok _ = _
    rw [List.take_take, Nat.min_eq_left hcover]

/-- **One round** adds a fragment to the bytes so far. -/
theorem fillExtent_fragment (hbs : blockSize ≠ 0) (h : f.Stored xts image vek blockSize)
    (size : Nat) (content : Bytes) :
    fillExtent xts image vek blockSize size (fillTo size content)
        ⟨content.length, f.content.length, f.physBlockNum, f.cryptoId⟩
      = .ok (fillTo size (content ++ f.content)) := by
  by_cases hpast : size ≤ content.length
  · -- the buffer is full
    rw [fillExtent_skip (Or.inl hpast), fillTo_of_le hpast, fillTo_of_le (by simp; omega),
      List.take_append_of_le_length hpast]
  have hlt : content.length ≤ size := by omega
  by_cases hphys : f.physBlockNum = 0
  · cases h with
    | hole _ zeros =>
      -- the zeros of a hole are there already
      rw [fillExtent_skip (Or.inr hphys), fillTo_of_lt hlt, fillTo_append hlt, zeros,
        List.length_replicate, List.take_replicate, List.append_assoc,
        List.replicate_append_replicate]
      congr 3
      omega
    | clear phys _ _ => exact absurd hphys phys
    | encrypted _ _ phys _ _ _ _ _ _ _ => exact absurd hphys phys
  · have hskip : ¬ (content.length ≥ size ∨ f.physBlockNum = 0) := by omega
    have hread : readExtent xts image vek blockSize
        ⟨content.length, f.content.length, f.physBlockNum, f.cryptoId⟩
        (f.physBlockNum * blockSize) (min f.content.length (size - content.length))
          = .ok (f.content.take (min f.content.length (size - content.length))) :=
      h.readExtent hphys rfl (Nat.min_le_left ..)
    rw [Nat.min_comm, ← List.take_take, List.take_length] at hread
    rw [fillExtent, if_neg hskip, if_neg hbs, checkedMul_of_le (h.mul_le hphys)]
    simp only [Nat.min_comm f.content.length, hread, ok_bind]
    show Except.ok _ = _
    rw [writeAt_fillTo (by rw [List.length_take]; omega), fillTo_append hlt, fillTo_append hlt,
      List.take_take, Nat.min_self, List.length_take]
    congr 3
    omega

/-- **All rounds**, from the bytes so far on. -/
theorem foldlM_fillExtent_fragments (hbs : blockSize ≠ 0) (size : Nat) :
    ∀ (fs : List Fragment), (∀ f ∈ fs, f.Stored xts image vek blockSize) → ∀ content : Bytes,
      (extentsFrom content.length fs).foldlM (fillExtent xts image vek blockSize size)
          (fillTo size content)
        = .ok (fillTo size (content ++ fs.flatMap Fragment.content)) := by
  intro fs
  induction fs with
  | nil =>
    intro _ content
    rw [List.flatMap_nil, List.append_nil]
    rfl
  | cons f fs ih =>
    intro hstored content
    rw [List.forall_mem_cons] at hstored
    rw [extentsFrom, List.foldlM_cons, fillExtent_fragment hbs hstored.1, ok_bind,
      ← List.length_append, ih hstored.2, List.flatMap_cons, List.append_assoc]

end Read

/-! ### The extents of a layout -/

theorem le_of_mem_extentsFrom : ∀ {fs : List Fragment} {offset : Nat} {ext : FileExtent},
    ext ∈ extentsFrom offset fs → offset ≤ ext.logicalOffset := by
  intro fs
  induction fs with
  | nil => intro offset ext h; cases h
  | cons f fs ih =>
    intro offset ext h
    rw [extentsFrom, List.mem_cons] at h
    obtain rfl | h := h
    · exact le_rfl
    · exact le_trans (Nat.le_add_right _ _) (ih h)

/-- No fragment is empty, so the offsets grow. -/
theorem pairwise_extentsFrom : ∀ (fs : List Fragment) (offset : Nat),
    (extentsFrom offset fs).Pairwise (fun a b => a.logicalOffset < b.logicalOffset) := by
  intro fs
  induction fs with
  | nil => intro offset; exact .nil
  | cons f fs ih =>
    intro offset
    have hpos : 0 < f.content.length := List.length_pos_iff.mpr f.nonempty
    refine List.pairwise_cons.mpr ⟨fun ext hext => ?_, ih _⟩
    have hle := le_of_mem_extentsFrom hext
    show offset < ext.logicalOffset
    omega

/-- Sorting brings the extents of a layout into their order. -/
theorem eq_extentsFrom_of_perm {exts : List FileExtent} {fs : List Fragment}
    (hsorted : exts.Pairwise (fun a b => a.logicalOffset ≤ b.logicalOffset))
    (hperm : exts.Perm (extentsFrom 0 fs)) : exts = extentsFrom 0 fs := by
  have hstrict := pairwise_extentsFrom fs 0
  refine hperm.eq_of_pairwise (fun a b ha hb hle hle' => ?_) hsorted (hstrict.imp Nat.le_of_lt)
  have hnodup : ((extentsFrom 0 fs).map FileExtent.logicalOffset).Nodup :=
    List.pairwise_map.mpr (hstrict.imp Nat.ne_of_lt)
  exact List.inj_on_of_nodup_map hnodup (hperm.mem_iff.mp ha) hb (Nat.le_antisymm hle hle')

/-! ### Streams -/

/-- The stream is stored in fragments: the volume has their extents, in any order, and the
image their bytes. -/
structure StoredStream (xts : Xts) (image : Image) (vek : Option Vek) (blockSize : Nat)
    (c : Contents) (stream : Nat) (fs : List Fragment) : Prop where
  extents : (c.extents stream).Perm (extentsFrom 0 fs)
  stored : ∀ f ∈ fs, f.Stored xts image vek blockSize

/-- **A stream reads as its fragments**, cut or filled up to the size. -/
theorem StoredStream.readStream {xts : Xts} {image : Image} {volume : ApfsVolume}
    {blockSize : Nat} {c : Contents} (hc : Holds xts image volume blockSize c) {stream : Nat}
    {fs : List Fragment} (h : StoredStream xts image volume.vek blockSize c stream fs) {size : Nat}
    (hsize : size ≤ maxFileBytes) :
    readStream xts image volume blockSize stream size
      = .ok (fillTo size (fs.flatMap Fragment.content)) := by
  have hlist := hc.listExtents stream
  have hsorted := eq_extentsFrom_of_perm (pairwise_of_listExtents hlist)
    ((List.perm_insertionSort _ _).trans h.extents)
  have hloop := foldlM_fillExtent_fragments (blockSize_ne_zero_of_listExtents hlist) size fs
    h.stored []
  have hempty : fillTo size [] = List.replicate size 0 := by
    rw [fillTo, List.take_nil, List.nil_append, List.length_nil, Nat.sub_zero]
  rw [hempty] at hloop
  rw [ApfsForensic.readStream, if_neg (by omega), hlist, ok_bind, hsorted]
  exact hloop

/-- **The content of a file is read back.**  A volume holds an inode without a decmpfs
attribute and of at most `MAX_FILE_BYTES`, and its data stream is stored in fragments: in clear,
encrypted or as holes, with any number of extents of any lengths.  Then every read of the default
stream delivers the part of the content that it asks for.  A size below the length of the
fragments cuts the content, a size above it adds zeros.  An attribute in a stream of at most that
size is read back in the same way. -/
theorem file_round_trip (codecs : Codecs) {xts : Xts} {fs : ApfsFs} {c : Contents}
    (hc : Holds xts fs.reader fs.volume fs.blockSize c) (oid xid : Nat) :
    (∀ inode frags, c.inode oid = some inode → c.xattr oid xattrNameDecmpfs = none →
      inode.size.getD 0 ≤ maxFileBytes →
      StoredStream xts fs.reader fs.volume.vek fs.blockSize c inode.privateId frags →
      ServesWindows (fs.readAt codecs xts (.apfsOid oid xid) .default)
        (fillTo (inode.size.getD 0) (frags.flatMap Fragment.content))) ∧
    ∀ index name flags stream size frags,
      (c.xattrs oid)[index]? = some ⟨name, flags, .stream stream size⟩ → size ≤ maxFileBytes →
      StoredStream xts fs.reader fs.volume.vek fs.blockSize c stream frags →
      ServesWindows (fs.readAt codecs xts (.apfsOid oid xid) (.xattr index))
        (fillTo size (frags.flatMap Fragment.content)) := by
  constructor
  · intro inode frags hinode hplain hsize hstored
    have hload : loadInode xts fs.reader fs.volume fs.blockSize oid = .ok inode := by
      rw [hc.loadInode, hinode]
    have hoid : inode.oid = oid := oid_of_loadInode hload
    have hdata : readData codecs xts fs.reader fs.volume fs.blockSize inode
        = .ok (fillTo (inode.size.getD 0) (frags.flatMap Fragment.content)) := by
      rw [readData, hoid, decmpfsHeader, hc.getXattr, hplain, ok_bind]
      exact hstored.readStream hc hsize
    exact readAt_default hload hdata
  · intro index name flags stream size frags hxattr hsize hstored
    exact readAt_xattr (hc.listXattrs oid) hxattr (hstored.readStream hc hsize)

/-- The file of the small volume: a hole and two encrypted blocks. -/
def letterFragments : List Fragment :=
  [⟨List.replicate 512 0, 0, 0, by decide⟩, ⟨List.replicate 1024 7, 5, 9, by decide⟩]

def lettersFs : ApfsFs := ⟨lettersImage, lettersVolume, 512, 1, none⟩

theorem letter_stored : StoredStream .shift lettersImage (some shiftVek) 512
    (lettersLeft ++ lettersRight) 7 letterFragments where
  extents := .of_eq (by decide +kernel)
  stored := by
    refine List.forall_mem_cons.mpr ⟨.hole rfl (by decide +kernel), ?_⟩
    refine List.forall_mem_cons.mpr ⟨?_, by simp⟩
    exact .encrypted (shiftCipher shiftVek) rfl (by decide) (by decide) (by decide) (by decide)
      (by decide +kernel) (by decide +kernel) (by decide +kernel) (by decide +kernel)

theorem file_round_trip_letter :
    ServesWindows (lettersFs.readAt .stored .shift (.apfsOid 6 1) .default)
      (List.replicate 512 0 ++ List.replicate 788 7) := by
  have hserve := (@file_round_trip .stored _ lettersFs _ lettersImage_holds 6 1).1
    letterInode.inode letterFragments (by decide +kernel) (by decide +kernel) (by decide)
    letter_stored
  have hcontent : fillTo (letterInode.inode.size.getD 0)
      (letterFragments.flatMap Fragment.content)
        = List.replicate 512 0 ++ List.replicate 788 7 := by
    decide +kernel
  rwa [hcontent] at hserve

end ApfsForensic
