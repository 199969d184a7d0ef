import ApfsForensic.Core.Extent
import Mathlib.Algebra.Order.Floor.Div

/-!
# Encrypted content reads as its plaintext

With a key and a crypto id, `read_stream` reads an extent in another way: whole
blocks into a temporary, each block decrypted under its own tweak, then a slice.

`SectorCipher xts vek` is what is assumed of AES-XTS: under this key each sector of
512 bytes is decrypted on its own, by the inverse of an encryption that depends
on the sector number.  `Encrypts` relates an image of plain extents to the image
that stores them encrypted.  Then both ways of reading give the same bytes,
wherever the logical size cuts the last block (`readStream_encrypted`).
-/

namespace ApfsForensic

/-- The block at `paddr`. -/
def Image.blockAt (image : Image) (blockSize paddr : Nat) : Bytes :=
  chunk blockSize image.bytes paddr

/-- Under `vek` the cipher works sector by sector, and `decrypt` undoes `encrypt`. -/
structure SectorCipher (xts : Xts) (vek : Vek) where
  encrypt : Nat → Bytes → Bytes
  decrypt : Nat → Bytes → Bytes
  length_encrypt : ∀ {n : Nat} {s : Bytes}, s.length = apfsCryptoSector →
    (encrypt n s).length = apfsCryptoSector
  decrypt_encrypt : ∀ {n : Nat} {s : Bytes}, s.length = apfsCryptoSector →
    decrypt n (encrypt n s) = s
  decryptArea_eq : ∀ {k first : Nat} {data : Bytes}, data.length = k * apfsCryptoSector →
    xts.decryptArea (vek.bytes.take 16) (vek.bytes.drop 16) data apfsCryptoSector first
      = .ok ((List.range k).flatMap (fun s => decrypt (first + s) (chunk apfsCryptoSector data s)))

section Cipher

variable {xts : Xts} {vek : Vek} (c : SectorCipher xts vek)

/-- A block encrypted under the tweak `t`: its sectors are numbered from
`t * (block_size / 512)` on. -/
def SectorCipher.encryptBlock (blockSize t : Nat) (block : Bytes) : Bytes :=
  (List.range (blockSize / apfsCryptoSector)).flatMap (fun s =>
    c.encrypt (t * (blockSize / apfsCryptoSector) + s) (chunk apfsCryptoSector block s))

theorem length_sector {blockSize s : Nat} {block : Bytes} (hlen : block.length = blockSize)
    (hs : s < blockSize / apfsCryptoSector) :
    (chunk apfsCryptoSector block s).length = apfsCryptoSector := by
  apply length_chunk
  have hle : (s + 1) * apfsCryptoSector ≤ blockSize / apfsCryptoSector * apfsCryptoSector :=
    Nat.mul_le_mul_right _ hs
  have := Nat.div_mul_le_self blockSize apfsCryptoSector
  omega

theorem length_encryptBlock {blockSize : Nat} {block : Bytes} (hlen : block.length = blockSize)
    (hdvd : apfsCryptoSector ∣ blockSize) (t : Nat) :
    (c.encryptBlock blockSize t block).length = blockSize := by
  have hsector : ∀ s < blockSize / apfsCryptoSector,
      (c.encrypt (t * (blockSize / apfsCryptoSector) + s)
        (chunk apfsCryptoSector block s)).length = apfsCryptoSector :=
    fun s hs => c.length_encrypt (length_sector hlen hs)
  rw [SectorCipher.encryptBlock, length_flatMap_range hsector, Nat.div_mul_cancel hdvd]

/-- Decrypting a block under its tweak undoes its encryption. -/
theorem decryptVolumeArea_encryptBlock {blockSize t : Nat} {block : Bytes}
    (hlen : block.length = blockSize) (hdvd : apfsCryptoSector ∣ blockSize)
    (hge : apfsCryptoSector ≤ blockSize) (ht : t ≠ 0)
    (hmul : t * (blockSize / apfsCryptoSector) ≤ u64Max) :
    decryptVolumeArea xts (c.encryptBlock blockSize t block) vek t blockSize = .ok block := by
  have hwhole : blockSize / apfsCryptoSector * apfsCryptoSector = blockSize :=
    Nat.div_mul_cancel hdvd
  have hsmall : ¬ (t = 0 ∨ blockSize < apfsCryptoSector) := by omega
  have hsector : ∀ s < blockSize / apfsCryptoSector,
      (c.encrypt (t * (blockSize / apfsCryptoSector) + s)
        (chunk apfsCryptoSector block s)).length = apfsCryptoSector :=
    fun s hs => c.length_encrypt (length_sector hlen hs)
  have henc : (c.encryptBlock blockSize t block).length
      = blockSize / apfsCryptoSector * apfsCryptoSector :=
    (length_encryptBlock c hlen hdvd t).trans hwhole.symm
  simp only [decryptVolumeArea, if_neg hsmall, saturatingMul_of_le hmul]
  rw [c.decryptArea_eq henc]
  congr 1
  calc (List.range (blockSize / apfsCryptoSector)).flatMap (fun s =>
          c.decrypt (t * (blockSize / apfsCryptoSector) + s)
            (chunk apfsCryptoSector (c.encryptBlock blockSize t block) s))
      = (List.range (blockSize / apfsCryptoSector)).flatMap (chunk apfsCryptoSector block) := by
        apply List.flatMap_congr
        intro s hs
        rw [List.mem_range] at hs
        rw [SectorCipher.encryptBlock, chunk_flatMap hsector hs,
          c.decrypt_encrypt (length_sector hlen hs)]
    _ = block := by rw [flatMap_chunk, hwhole, List.take_of_length_le (by omega)]

/-! ### Plain and encrypted images -/

/-- `encrypted` stores the extents that `plain` has in clear: block `i` of an extent
with a crypto id is encrypted under the tweak `crypto_id + i`, a block of any other
extent is the same in both.  The rest of the images is free; the trees that list
the extents, once with and once without crypto ids, stand there. -/
structure Encrypts (blockSize : Nat) (exts : List FileExtent) (plain encrypted : Image) :
    Prop where
  sectors : apfsCryptoSector ∣ blockSize
  sector_le : apfsCryptoSector ≤ blockSize
  length_eq : encrypted.bytes.length = plain.bytes.length
  whole_blocks : ∀ ext ∈ exts, blockSize ∣ ext.len
  inside : ∀ ext ∈ exts, ext.physBlockNum ≠ 0 →
    ext.physBlockNum * blockSize + ext.len ≤ plain.bytes.length
  clear : ∀ ext ∈ exts, ext.physBlockNum ≠ 0 → ext.cryptoId = 0 → ∀ i < ext.len / blockSize,
    encrypted.blockAt blockSize (ext.physBlockNum + i)
      = plain.blockAt blockSize (ext.physBlockNum + i)
  cipher : ∀ ext ∈ exts, ext.physBlockNum ≠ 0 → ext.cryptoId ≠ 0 → ∀ i < ext.len / blockSize,
    encrypted.blockAt blockSize (ext.physBlockNum + i)
      = c.encryptBlock blockSize (ext.cryptoId + i)
          (plain.blockAt blockSize (ext.physBlockNum + i))
  no_overflow : ∀ ext ∈ exts, ∀ i < ext.len / blockSize,
    (ext.cryptoId + i) * (blockSize / apfsCryptoSector) ≤ u64Max

end Cipher

theorem chunk_take {n k i : Nat} (data : Bytes) (hi : i < k) :
    chunk n (data.take (k * n)) i = chunk n data i := by
  have hle : (i + 1) * n ≤ k * n := Nat.mul_le_mul_right n hi
  rw [Nat.succ_mul] at hle
  rw [chunk, chunk, List.drop_take, List.take_take, Nat.min_eq_left (by omega)]

theorem chunk_drop (n p : Nat) (data : Bytes) (i : Nat) :
    chunk n (data.drop (p * n)) i = chunk n data (p + i) := by
  rw [chunk, chunk, List.drop_drop, Nat.add_mul]

/-- The blocks from `p` on are the bytes from the offset of `p` on. -/
theorem flatMap_blockAt (image : Image) (blockSize p k : Nat) :
    (List.range k).flatMap (fun i => image.blockAt blockSize (p + i))
      = (image.bytes.drop (p * blockSize)).take (k * blockSize) := by
  rw [← flatMap_chunk]
  apply List.flatMap_congr
  intro i _
  rw [chunk_drop, Image.blockAt]

theorem mapM_eq_ok {α β : Type} {f : α → Result β} {g : α → β} :
    ∀ {l : List α}, (∀ a ∈ l, f a = .ok (g a)) → l.mapM f = .ok (l.map g) := by
  intro l
  induction l with
  | nil => intro _; rfl
  | cons a l ih =>
    intro h
    rw [List.mapM_cons, h a List.mem_cons_self, ok_bind,
      ih (fun b hb => h b (List.mem_cons_of_mem _ hb)), ok_bind, List.map_cons]
    rfl

section Read

variable {xts : Xts} {vek : Vek} {c : SectorCipher xts vek} {blockSize : Nat}
variable {exts : List FileExtent} {plain encrypted : Image}

/-- The block-wise loop decrypts a run of encrypted blocks. -/
theorem decryptBlocks_encrypted {p cryptoId k : Nat} (hdvd : apfsCryptoSector ∣ blockSize)
    (hge : apfsCryptoSector ≤ blockSize) (hcrypto : cryptoId ≠ 0)
    (hinside : (p + k) * blockSize ≤ plain.bytes.length)
    (hover : ∀ i < k, (cryptoId + i) * (blockSize / apfsCryptoSector) ≤ u64Max)
    (hblock : ∀ i < k, encrypted.blockAt blockSize (p + i)
      = c.encryptBlock blockSize (cryptoId + i) (plain.blockAt blockSize (p + i))) :
    decryptBlocks xts blockSize vek cryptoId k
        ((encrypted.bytes.drop (p * blockSize)).take (k * blockSize))
      = .ok ((plain.bytes.drop (p * blockSize)).take (k * blockSize)) := by
  have hspb : 1 ≤ blockSize / apfsCryptoSector :=
    (Nat.one_le_div_iff (by decide)).mpr hge
  have hstep : ∀ i ∈ List.range k,
      decryptVolumeArea xts (chunk blockSize
          ((encrypted.bytes.drop (p * blockSize)).take (k * blockSize)) i) vek
          (saturatingAdd cryptoId i) blockSize
        = .ok (plain.blockAt blockSize (p + i)) := by
    intro i hi
    rw [List.mem_range] at hi
    have htweak : cryptoId + i ≤ u64Max :=
      le_trans (Nat.le_mul_of_pos_right _ hspb) (hover i hi)
    have hlen : (plain.blockAt blockSize (p + i)).length = blockSize :=
      length_chunk (le_trans (Nat.mul_le_mul_right _ (by omega)) hinside)
    rw [chunk_take _ hi, chunk_drop, saturatingAdd_of_le htweak]
    show decryptVolumeArea xts (encrypted.blockAt blockSize (p + i)) vek _ _ = _
    rw [hblock i hi]
    exact decryptVolumeArea_encryptBlock c hlen hdvd hge (by omega) (hover i hi)
  rw [decryptBlocks, mapM_eq_ok hstep, ok_bind, ← flatMap_blockAt, List.flatMap]
  rfl

/-- A read inside an extent gives the bytes of the plain image, decrypted or not. -/
theorem readExtent_encrypted (h : Encrypts c blockSize exts plain encrypted) {ext : FileExtent}
    (hext : ext ∈ exts) (hphys : ext.physBlockNum ≠ 0) {n : Nat} (hn : n ≤ ext.len) :
    readExtent xts encrypted (some vek) blockSize ext (ext.physBlockNum * blockSize) n
      = .ok ((plain.bytes.drop (ext.physBlockNum * blockSize)).take n) := by
  have hbs : 0 < blockSize := lt_of_lt_of_le (by decide) h.sector_le
  have hin := h.inside ext hext hphys
  have hover := h.no_overflow ext hext
  have hlen : ext.len / blockSize * blockSize = ext.len :=
    Nat.div_mul_cancel (h.whole_blocks ext hext)
  have hend : encrypted.bytes.length = plain.bytes.length := h.length_eq
  by_cases hcrypto : ext.cryptoId = 0
  · have hsame : (encrypted.bytes.drop (ext.physBlockNum * blockSize)).take ext.len
        = (plain.bytes.drop (ext.physBlockNum * blockSize)).take ext.len := by
      rw [← hlen, ← flatMap_blockAt, ← flatMap_blockAt]
      apply List.flatMap_congr
      intro i hi
      exact h.clear ext hext hphys hcrypto i (List.mem_range.mp hi)
    rw [readExtent, if_neg (by simpa using hcrypto), Image.readExact_eq_ok_iff]
    refine ⟨Or.inr (by omega), ?_⟩
    rw [← Nat.min_eq_left hn, ← List.take_take, ← List.take_take, hsame]
  · -- the blocks that are read cover the slice and are blocks of the extent
    have hceil : (n + blockSize - 1) / blockSize = n ⌈/⌉ blockSize :=
      (Nat.ceilDiv_eq_add_pred_div n blockSize).symm
    have hblocks : n ⌈/⌉ blockSize ≤ ext.len / blockSize := by
      rw [ceilDiv_le_iff_le_mul hbs, Nat.mul_comm, hlen]
      exact hn
    have hcover : n ≤ n ⌈/⌉ blockSize * blockSize := by
      rw [Nat.mul_comm]
      exact (ceilDiv_le_iff_le_mul hbs).mp le_rfl
    have hread : n ⌈/⌉ blockSize * blockSize ≤ ext.len :=
      le_trans (Nat.mul_le_mul_right _ hblocks) (le_of_eq hlen)
    have hinside : (ext.physBlockNum + n ⌈/⌉ blockSize) * blockSize ≤ plain.bytes.length := by
      rw [Nat.add_mul]
      omega
    have hdec := decryptBlocks_encrypted h.sectors h.sector_le hcrypto hinside
      (fun i hi => hover i (by omega))
      (fun i hi => h.cipher ext hext hphys hcrypto i (by omega))
    have htmp : encrypted.readExact (ext.physBlockNum * blockSize) (n ⌈/⌉ blockSize * blockSize)
        = .ok ((encrypted.bytes.drop (ext.physBlockNum * blockSize)).take
            (n ⌈/⌉ blockSize * blockSize)) :=
      Image.readExact_eq_ok_iff.mpr ⟨Or.inr (by omega), rfl⟩
    simp only [readExtent, if_pos hcrypto, hceil, htmp, ok_bind, hdec]
    show Except.ok _ = _
    rw [List.take_take, Nat.min_eq_left hcover]

/-- The record of the same extent on the volume without encryption. -/
def FileExtent.clear (ext : FileExtent) : FileExtent := { ext with cryptoId := 0 }

/-- A round over the encrypted image succeeds, with the result of the round over the
plain one. -/
theorem fillExtent_encrypted (h : Encrypts c blockSize exts plain encrypted) {ext : FileExtent}
    (hext : ext ∈ exts) (size : Nat) (out : Bytes) :
    ∃ out', fillExtent xts encrypted (some vek) blockSize size out ext = .ok out' ∧
      fillExtent xts plain none blockSize size out ext.clear = .ok out' := by
  by_cases hskip : ext.logicalOffset ≥ size ∨ ext.physBlockNum = 0
  · have hskip' : ext.clear.logicalOffset ≥ size ∨ ext.clear.physBlockNum = 0 := hskip
    exact ⟨out, fillExtent_skip hskip, fillExtent_skip hskip'⟩
  · have hlt : ext.logicalOffset < size := by omega
    have hphys : ext.physBlockNum ≠ 0 := by omega
    have hbs : blockSize ≠ 0 := by
      have := h.sector_le
      unfold apfsCryptoSector at this
      omega
    have hin := h.inside ext hext hphys
    have hmul : ext.physBlockNum * blockSize ≤ u64Max := by
      have := plain.length_lt
      unfold u64Max
      omega
    have hn : min ext.len (size - ext.logicalOffset) ≤ ext.len := Nat.min_le_left _ _
    refine ⟨writeAt out ext.logicalOffset ((plain.bytes.drop (ext.physBlockNum * blockSize)).take
      (min ext.len (size - ext.logicalOffset))), ?_, ?_⟩
    · rw [fillExtent, if_neg hskip, if_neg hbs, checkedMul_of_le hmul]
      simp only [readExtent_encrypted h hext hphys hn, ok_bind]
      rfl
    · have hread : plain.readExact (ext.physBlockNum * blockSize)
          (min ext.len (size - ext.logicalOffset))
          = .ok ((plain.bytes.drop (ext.physBlockNum * blockSize)).take
              (min ext.len (size - ext.logicalOffset))) :=
        Image.readExact_eq_ok_iff.mpr ⟨Or.inr (by omega), rfl⟩
      have hfill : fillExtent xts plain none blockSize size out ext.clear
          = (plain.readExact (ext.physBlockNum * blockSize)
              (min ext.len (size - ext.logicalOffset))).map (writeAt out ext.logicalOffset) :=
        fillExtent_plain hbs hlt hphys hmul
      rw [hfill, hread]
      rfl

theorem foldlM_fillExtent_encrypted (h : Encrypts c blockSize exts plain encrypted) (size : Nat) :
    ∀ (es : List FileExtent), (∀ ext ∈ es, ext ∈ exts) → ∀ out : Bytes,
      ∃ out', es.foldlM (fillExtent xts encrypted (some vek) blockSize size) out = .ok out' ∧
        (es.map FileExtent.clear).foldlM (fillExtent xts plain none blockSize size) out
          = .ok out' := by
  intro es
  induction es with
  | nil => intro _ out; exact ⟨out, rfl, rfl⟩
  | cons ext es ih =>
    intro hsub out
    obtain ⟨mid, hmid, hmid'⟩ := fillExtent_encrypted h (hsub ext List.mem_cons_self) size out
    obtain ⟨out', hout, hout'⟩ := ih (fun e he => hsub e (List.mem_cons_of_mem _ he)) mid
    refine ⟨out', ?_, ?_⟩
    · rw [List.foldlM_cons, hmid, ok_bind, hout]
    · rw [List.map_cons, List.foldlM_cons, hmid', ok_bind, hout']

/-- **Encrypted content reads as its plaintext.**  The stream of a volume with the
key and the stream of a volume without, over the same extents without their crypto
ids, are the same; and up to the size cap both reads succeed. -/
theorem readStream_encrypted (h : Encrypts c blockSize exts plain encrypted)
    {volume volume' : ApfsVolume} {streamOid streamOid' : Nat} (hvek : volume.vek = some vek)
    (hvek' : volume'.vek = none)
    (hexts : listExtents xts encrypted volume blockSize streamOid = .ok exts)
    (hexts' : listExtents xts plain volume' blockSize streamOid'
      = .ok (exts.map FileExtent.clear)) (size : Nat) :
    readStream xts encrypted volume blockSize streamOid size
        = readStream xts plain volume' blockSize streamOid' size ∧
      (size ≤ maxFileBytes →
        ∃ bytes, readStream xts encrypted volume blockSize streamOid size = .ok bytes) := by
  rw [readStream, readStream]
  by_cases hsize : size > maxFileBytes
  · rw [if_pos hsize, if_pos hsize]
    exact ⟨rfl, fun hle => absurd hle (Nat.not_le.mpr hsize)⟩
  · obtain ⟨out, hout, hout'⟩ := foldlM_fillExtent_encrypted h size exts (fun _ he => he)
      (List.replicate size 0)
    rw [if_neg hsize, if_neg hsize, hexts, hexts', hvek, hvek']
    simp only [ok_bind, hout, hout', true_and]
    exact fun _ => ⟨out, rfl⟩

end Read

/-! ### A cipher and a file

A stand-in for AES-XTS that adds the sector number to every byte, and a stream of
two encrypted blocks whose size ends inside the second. -/

def shiftSector (n : Nat) (s : Bytes) : Bytes := s.map (· - UInt8.ofNat n)

def shiftArea (data : Bytes) (sectorSize firstSector : Nat) : Bytes :=
  (List.range (data.length / sectorSize)).flatMap (fun s =>
    shiftSector (firstSector + s) (chunk sectorSize data s))

theorem length_shiftArea (data : Bytes) (sectorSize firstSector : Nat) :
    (shiftArea data sectorSize firstSector).length
      = data.length / sectorSize * sectorSize := by
  rw [shiftArea, length_flatMap_range]
  intro j hj
  rw [shiftSector, List.length_map]
  apply length_chunk
  exact le_trans (Nat.mul_le_mul_right _ hj) (Nat.div_mul_le_self _ _)

def Xts.shift : Xts where
  decryptArea _ _ data sectorSize firstSector :=
    if sectorSize ∣ data.length then .ok (shiftArea data sectorSize firstSector)
    else .error .panic
  length_eq {_ _ data sectorSize firstSector out} h := by
    by_cases hd : sectorSize ∣ data.length
    · rw [if_pos hd, Except.ok.injEq] at h
      rw [← h, length_shiftArea, Nat.div_mul_cancel hd]
    · rw [if_neg hd] at h
      exact absurd h (by simp)

def shiftCipher (vek : Vek) : SectorCipher .shift vek where
  encrypt n s := s.map (· + UInt8.ofNat n)
  decrypt := shiftSector
  length_encrypt h := by rw [List.length_map, h]
  decrypt_encrypt {n s} _ := by
    rw [shiftSector, List.map_map]
    exact (List.map_congr_left (fun b _ => UInt8.add_sub_cancel b _)).trans (List.map_id s)
  decryptArea_eq {k first data} h := by
    have hdiv : data.length / apfsCryptoSector = k := by
      rw [h, Nat.mul_div_cancel _ (by decide)]
    show (if apfsCryptoSector ∣ data.length then _ else _) = _
    rw [if_pos (h ▸ Nat.dvd_mul_left _ _), shiftArea, hdiv]

def shiftVek : Vek := ⟨List.replicate 32 1, by decide⟩

def shiftExtents : List FileExtent := [⟨0, 1024, 3, 7⟩]

/-- The file's two blocks behind the trees that list its extents. -/
def streamImage (exts : List FileExtent) (content : Bytes) : Bytes :=
  omapBlock 512 0 1 ++ btreeNode 512 1 1 0x7 0 [omapRecord 10 1 0 2] ++
    btreeNode 512 10 1 0x3 0 (exts.map (extentRecord 5)) ++ content

def shiftPlain : Image :=
  ⟨streamImage (shiftExtents.map .clear) (List.replicate 1024 9), by decide +kernel⟩

def shiftEncrypted : Image :=
  ⟨streamImage shiftExtents (List.replicate 512 16 ++ List.replicate 512 17), by decide +kernel⟩

theorem shiftEncrypted_encrypts :
    Encrypts (shiftCipher shiftVek) 512 shiftExtents shiftPlain shiftEncrypted where
  sectors := by decide
  sector_le := by decide
  length_eq := by decide +kernel
  whole_blocks := by decide
  inside := by decide +kernel
  clear := by decide +kernel
  cipher := by decide +kernel
  no_overflow := by decide +kernel

theorem readStream_shiftEncrypted :
    readStream .shift shiftEncrypted ((ApfsVolume.ofRoots 1 0 10 0).setVek shiftVek) 512 5 700
        = readStream .shift shiftPlain (.ofRoots 1 0 10 0) 512 5 700 ∧
      ∃ bytes, readStream .shift shiftEncrypted
        ((ApfsVolume.ofRoots 1 0 10 0).setVek shiftVek) 512 5 700 = .ok bytes := by
  have hexts : listExtents .shift shiftEncrypted ((ApfsVolume.ofRoots 1 0 10 0).setVek shiftVek)
      512 5 = .ok shiftExtents := by
    decide +kernel
  have hclear : listExtents .shift shiftPlain (.ofRoots 1 0 10 0) 512 5
      = .ok (shiftExtents.map .clear) := by
    decide +kernel
  obtain ⟨hsame, hok⟩ := readStream_encrypted shiftEncrypted_encrypts rfl rfl hexts hclear 700
  exact ⟨hsame, hok (by decide)⟩

end ApfsForensic
