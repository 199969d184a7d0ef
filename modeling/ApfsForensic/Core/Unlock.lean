import ApfsForensic.Core.EncryptedExtent
import ApfsForensic.Core.KeybagWalk

/-!
# From an image and a password to a volume key

`decrypt_container_keybag` and `unlock_volume` of `core/src/encryption.rs`: the keybag of the
container, found through the superblock and encrypted under the uuid of the container; in it
the records of a volume; the keybag of that volume, encrypted under its own uuid; in that one
the wrapped KEK, which the password opens.

`SealedVolume` is an image in which all of this has been written.  Then `unlock_volume` comes
back to the volume key with every password that derives the same key, and with a password
that does not unwrap the KEK it returns the error of the integrity check
(`unlock_volume_round_trip`).
-/

namespace ApfsForensic

/-- `[u8; 16]`. -/
structure Uuid where
  bytes : Bytes
  length_eq : bytes.length = 16
  deriving DecidableEq

/-- `try_into` of a slice. -/
def Uuid.tryFrom (s : Bytes) : Option Uuid :=
  if h : s.length = 16 then some ⟨s, h⟩ else none

theorem Uuid.tryFrom_bytes (uuid : Uuid) : Uuid.tryFrom uuid.bytes = some uuid :=
  dif_pos uuid.length_eq

theorem Uuid.tryFrom_eq_some_iff {s : Bytes} {uuid : Uuid} :
    Uuid.tryFrom s = some uuid ↔ s = uuid.bytes := by
  constructor
  · intro h
    rw [Uuid.tryFrom] at h
    by_cases hlen : s.length = 16
    · rw [dif_pos hlen] at h
      cases h
      rfl
    · rw [dif_neg hlen] at h
      cases h
  · rintro rfl
    exact uuid.tryFrom_bytes

/-- `NX_BLOCK_SIZE`. -/
def nxBlockSizeOff : Nat := 0x024

/-- `NX_CONTAINER_UUID`. -/
def nxContainerUuidOff : Nat := 0x048

/-- `NX_KEYBAG_BLOCK`. -/
def nxKeybagBlockOff : Nat := 0x510

/-- `NX_KEYBAG_BLOCKS`. -/
def nxKeybagBlocksOff : Nat := 0x518

/-- `KEYBAG_SECTOR`. -/
def keybagSector : Nat := 512

/-- `b"NXSB"`. -/
def nxsbBytes : Bytes := [0x4e, 0x58, 0x53, 0x42]

/-- The names that the errors about an extent have. -/
structure ExtentNames where
  structureName : String
  offset : String
  length : String
  stop : String
  pastImage : String

def ExtentNames.bad (names : ExtentNames) (field : String) (value cap : Nat) : Fault :=
  .err (.fieldOutOfRange names.structureName field value cap)

def keylockerNames : ExtentNames :=
  ⟨"nx_keylocker", "keybag_offset", "keybag_length", "keybag_end", "keybag_past_image"⟩

def volumeKeybagNames : ExtentNames :=
  ⟨"unlock_volume", "vkb_offset", "vkb_length", "vkb_end", "vkb_past_image"⟩

/-- `ok_or_else`. -/
def okOrElse {α : Type} (o : Option α) (e : Fault) : Result α :=
  match o with
  | some a => .ok a
  | none => .error e

theorem okOrElse_eq_ok_iff {α : Type} {o : Option α} {e : Fault} {a : α} :
    okOrElse o e = .ok a ↔ o = some a := by
  cases o <;> simp [okOrElse]

/-- The bytes of an extent, and the offset they start at. -/
def areaOf (names : ExtentNames) (image : Image) (paddr blocks blockSize : Nat) :
    Result (Nat × Bytes) := do
  let start ← okOrElse (checkedMul paddr blockSize) (names.bad names.offset paddr blockSize)
  let len ← okOrElse (checkedMul blocks blockSize) (names.bad names.length blocks blockSize)
  let stop ← okOrElse (checkedAdd start len) (names.bad names.stop start len)
  let ct ← okOrElse (getRange image.bytes start stop)
    (names.bad names.pastImage stop image.bytes.length)
  return (start, ct)

section Source

variable (xts : Xts) (crypto : KeyCrypto)

/-- `xts_decrypt_area`: the uuid is both keys. -/
def xtsDecryptArea (ct : Bytes) (uuid : Uuid) (firstSector : Nat) : Result Bytes :=
  xts.decryptArea uuid.bytes uuid.bytes ct keybagSector firstSector

/-- `decrypt_keybag_area`. -/
def decryptKeybagArea (ct : Bytes) (uuid : Uuid) (firstSector : Nat) : Result Bytes :=
  xtsDecryptArea xts ct uuid firstSector

/-- `decrypt_container_keybag_with_uuid`. -/
def decryptContainerKeybagWithUuid (image : Image) (uuid : Uuid) : Result Bytes :=
  let blockSize := leU32 image.bytes nxBlockSizeOff
  let paddr := leU64 image.bytes nxKeybagBlockOff
  let blocks := leU64 image.bytes nxKeybagBlocksOff
  if getRange image.bytes 32 36 ≠ some nxsbBytes then
    .error (keylockerNames.bad "magic" 0 1)
  else if blockSize = 0 ∨ blockSize % keybagSector ≠ 0 then
    .error (keylockerNames.bad "block_size" blockSize keybagSector)
  else if paddr = 0 ∨ blocks = 0 then
    .error (keylockerNames.bad "keylocker_extent" paddr blocks)
  else do
    let (start, ct) ← areaOf keylockerNames image paddr blocks blockSize
    decryptKeybagArea xts ct uuid (start / keybagSector)

/-- `decrypt_container_keybag`. -/
def decryptContainerKeybag (image : Image) : Result Bytes :=
  match (getRange image.bytes nxContainerUuidOff (nxContainerUuidOff + 16)).bind Uuid.tryFrom with
  | some uuid => decryptContainerKeybagWithUuid xts image uuid
  | none => .error (.err (.fieldOutOfRange "nx_superblock" "container_uuid" image.bytes.length
      (nxContainerUuidOff + 16)))

/-- `unlock_volume`: the volume key. -/
def unlockVolume (image : Image) (volumeUuid : Uuid) (password : String) : Result Bytes := do
  let containerKb ← decryptContainerKeybag xts image
  let records ← volumeRecords containerKb volumeUuid.bytes
  let blockSize := leU32 image.bytes nxBlockSizeOff
  let (start, ct) ← areaOf volumeKeybagNames image records.volumeKeybagBlock
    records.volumeKeybagBlocks blockSize
  let volumeKb ← decryptKeybagArea xts ct volumeUuid (start / keybagSector)
  unlockWithVolumeKeybag crypto volumeKb records password

end Source

/-! ### The links of the chain -/

theorem checkedMul_eq_some_iff {a b c : Nat} :
    checkedMul a b = some c ↔ a * b ≤ u64Max ∧ a * b = c := by
  rw [checkedMul, Option.ite_none_right_eq_some, Option.some.injEq]

theorem checkedAdd_eq_some_iff {a b c : Nat} :
    checkedAdd a b = some c ↔ a + b ≤ u64Max ∧ a + b = c := by
  rw [checkedAdd, Option.ite_none_right_eq_some, Option.some.injEq]

/-- No offset inside an image overflows. -/
theorem areaOf_eq_ok_iff {names : ExtentNames} {image : Image} {paddr blocks blockSize start : Nat}
    {ct : Bytes} : areaOf names image paddr blocks blockSize = .ok (start, ct) ↔
      start = paddr * blockSize ∧ start + blocks * blockSize ≤ image.bytes.length ∧
        ct = (image.bytes.drop start).take (blocks * blockSize) := by
  have hlt := image.length_lt
  simp only [areaOf, bind_eq_ok_iff, okOrElse_eq_ok_iff, checkedMul_eq_some_iff,
    checkedAdd_eq_some_iff, getRange_eq_some_iff]
  constructor
  · rintro ⟨_, ⟨_, rfl⟩, _, ⟨_, rfl⟩, _, ⟨_, rfl⟩, _, ⟨⟨_, hle⟩, rfl⟩, hret⟩
    cases hret
    exact ⟨rfl, hle, by rw [Nat.add_sub_cancel_left]⟩
  · rintro ⟨rfl, hle, rfl⟩
    have hmax : paddr * blockSize + blocks * blockSize ≤ u64Max := by
      unfold u64Max
      omega
    refine ⟨_, ⟨by omega, rfl⟩, _, ⟨by omega, rfl⟩, _, ⟨hmax, rfl⟩, _,
      ⟨⟨Nat.le_add_right _ _, hle⟩, rfl⟩, ?_⟩
    rw [Nat.add_sub_cancel_left]
    rfl

/-- What the superblock says about the keybag of the container. -/
structure Keylocker (image : Image) (uuid : Uuid) (blockSize paddr blocks : Nat) : Prop where
  uuid_eq : getRange image.bytes nxContainerUuidOff (nxContainerUuidOff + 16) = some uuid.bytes
  magic : getRange image.bytes 32 36 = some nxsbBytes
  blockSize_eq : leU32 image.bytes nxBlockSizeOff = blockSize
  paddr_eq : leU64 image.bytes nxKeybagBlockOff = paddr
  blocks_eq : leU64 image.bytes nxKeybagBlocksOff = blocks
  blockSize_ne : blockSize ≠ 0
  sectors : keybagSector ∣ blockSize
  paddr_ne : paddr ≠ 0
  blocks_ne : blocks ≠ 0

section Chain

variable {xts : Xts} {crypto : KeyCrypto} {image : Image}

theorem decryptContainerKeybag_eq_ok_iff {keybag : Bytes} :
    decryptContainerKeybag xts image = .ok keybag ↔
      ∃ uuid blockSize paddr blocks start ct, Keylocker image uuid blockSize paddr blocks ∧
        areaOf keylockerNames image paddr blocks blockSize = .ok (start, ct) ∧
        decryptKeybagArea xts ct uuid (start / keybagSector) = .ok keybag := by
  have hdvd : ∀ n, n % keybagSector = 0 ↔ keybagSector ∣ n :=
    fun n => (Nat.dvd_iff_mod_eq_zero ..).symm
  rw [decryptContainerKeybag]
  constructor
  · intro h
    cases huuid : (getRange image.bytes nxContainerUuidOff (nxContainerUuidOff + 16)).bind
        Uuid.tryFrom with
    | none => rw [huuid] at h; cases h
    | some uuid =>
      obtain ⟨s, hs, hfrom⟩ := Option.bind_eq_some_iff.mp huuid
      rw [huuid] at h
      simp only [decryptContainerKeybagWithUuid, ite_error_eq_ok_iff, bind_eq_ok_iff, Prod.exists,
        not_or, not_not, ne_eq, hdvd] at h
      obtain ⟨hmagic, ⟨hbs, hsectors⟩, ⟨hpaddr, hblocks⟩, start, ct, hct, hkeybag⟩ := h
      rw [Uuid.tryFrom_eq_some_iff.mp hfrom] at hs
      exact ⟨uuid, _, _, _, start, ct, ⟨hs, hmagic, rfl, rfl, rfl, hbs, hsectors, hpaddr, hblocks⟩,
        hct, hkeybag⟩
  · rintro ⟨uuid, _, _, _, start, ct, ⟨hs, hmagic, rfl, rfl, rfl, hbs, hsectors, hpaddr, hblocks⟩,
      hct, hkeybag⟩
    rw [hs, Option.bind_some, uuid.tryFrom_bytes]
    simp only [decryptContainerKeybagWithUuid, ite_error_eq_ok_iff, bind_eq_ok_iff, Prod.exists,
      not_or, not_not, ne_eq, hdvd]
    exact ⟨hmagic, ⟨hbs, hsectors⟩, ⟨hpaddr, hblocks⟩, start, ct, hct, hkeybag⟩

theorem unlockVolume_eq {volumeUuid : Uuid} {password : String} {keybag volumeKb ct : Bytes}
    {records : VolumeRecords} {start : Nat}
    (hkeybag : decryptContainerKeybag xts image = .ok keybag)
    (hrecords : volumeRecords keybag volumeUuid.bytes = .ok records)
    (hct : areaOf volumeKeybagNames image records.volumeKeybagBlock records.volumeKeybagBlocks
      (leU32 image.bytes nxBlockSizeOff) = .ok (start, ct))
    (hvolumeKb : decryptKeybagArea xts ct volumeUuid (start / keybagSector) = .ok volumeKb) :
    unlockVolume xts crypto image volumeUuid password
      = unlockWithVolumeKeybag crypto volumeKb records password := by
  simp only [unlockVolume, hkeybag, hrecords, hct, hvolumeKb, ok_bind]

end Chain

/-! ### Encrypted areas -/

/-- The uuid as both keys. -/
def Uuid.doubled (uuid : Uuid) : Vek :=
  ⟨uuid.bytes ++ uuid.bytes, by rw [List.length_append, uuid.length_eq]⟩

theorem Uuid.take_doubled (uuid : Uuid) : uuid.doubled.bytes.take 16 = uuid.bytes := by
  rw [Uuid.doubled, List.take_left' uuid.length_eq]

theorem Uuid.drop_doubled (uuid : Uuid) : uuid.doubled.bytes.drop 16 = uuid.bytes := by
  rw [Uuid.doubled, List.drop_left' uuid.length_eq]

section Areas

variable {xts : Xts} {vek : Vek} (c : SectorCipher xts vek)

/-- Sector after sector, numbered from `first` on. -/
def SectorCipher.encryptArea (first : Nat) (data : Bytes) : Bytes :=
  (List.range (data.length / apfsCryptoSector)).flatMap (fun s =>
    c.encrypt (first + s) (chunk apfsCryptoSector data s))

variable {c} {first : Nat} {data : Bytes}

theorem length_sector_encryptArea : ∀ s < data.length / apfsCryptoSector,
    (c.encrypt (first + s) (chunk apfsCryptoSector data s)).length = apfsCryptoSector :=
  fun _ hs => c.length_encrypt (length_sector rfl hs)

theorem length_encryptArea (hdvd : apfsCryptoSector ∣ data.length) :
    (c.encryptArea first data).length = data.length := by
  rw [SectorCipher.encryptArea, length_flatMap_range length_sector_encryptArea,
    Nat.div_mul_cancel hdvd]

theorem decryptArea_encryptArea (hdvd : apfsCryptoSector ∣ data.length) :
    xts.decryptArea (vek.bytes.take 16) (vek.bytes.drop 16) (c.encryptArea first data)
      apfsCryptoSector first = .ok data := by
  have hwhole := Nat.div_mul_cancel hdvd
  rw [c.decryptArea_eq ((length_encryptArea hdvd).trans hwhole.symm)]
  congr 1
  calc (List.range (data.length / apfsCryptoSector)).flatMap (fun s =>
          c.decrypt (first + s) (chunk apfsCryptoSector (c.encryptArea first data) s))
      = (List.range (data.length / apfsCryptoSector)).flatMap (chunk apfsCryptoSector data) := by
        apply List.flatMap_congr
        intro s hs
        rw [List.mem_range] at hs
        rw [SectorCipher.encryptArea, chunk_flatMap length_sector_encryptArea hs,
          c.decrypt_encrypt (length_sector rfl hs)]
    _ = data := by rw [flatMap_chunk, hwhole, List.take_of_length_le le_rfl]

end Areas

/-- A keybag that stands encrypted in the blocks from `paddr` on. -/
structure KeybagAt (xts : Xts) (image : Image) (uuid : Uuid) (blockSize paddr blocks : Nat)
    (keybag : Bytes) where
  cipher : SectorCipher xts uuid.doubled
  sectors : keybagSector ∣ blockSize
  length_eq : keybag.length = blocks * blockSize
  inside : paddr * blockSize + keybag.length ≤ image.bytes.length
  stands : cipher.encryptArea (paddr * blockSize / keybagSector) keybag
    <+: image.bytes.drop (paddr * blockSize)

section Keybags

variable {xts : Xts} {image : Image} {uuid : Uuid} {blockSize paddr blocks : Nat} {keybag : Bytes}

theorem KeybagAt.areaOf (h : KeybagAt xts image uuid blockSize paddr blocks keybag)
    (names : ExtentNames) :
    areaOf names image paddr blocks blockSize
      = .ok (paddr * blockSize,
          h.cipher.encryptArea (paddr * blockSize / keybagSector) keybag) := by
  have hdvd : apfsCryptoSector ∣ keybag.length :=
    h.length_eq ▸ Dvd.dvd.mul_left h.sectors blocks
  rw [areaOf_eq_ok_iff]
  refine ⟨rfl, h.length_eq ▸ h.inside, ?_⟩
  have hprefix := h.stands
  rw [List.prefix_iff_eq_take, length_encryptArea hdvd, h.length_eq] at hprefix
  exact hprefix

theorem KeybagAt.decrypt (h : KeybagAt xts image uuid blockSize paddr blocks keybag) :
    decryptKeybagArea xts (h.cipher.encryptArea (paddr * blockSize / keybagSector) keybag) uuid
      (paddr * blockSize / keybagSector) = .ok keybag := by
  have hdvd : apfsCryptoSector ∣ keybag.length :=
    h.length_eq ▸ Dvd.dvd.mul_left h.sectors blocks
  have hdec : xts.decryptArea (uuid.doubled.bytes.take 16) (uuid.doubled.bytes.drop 16)
      (h.cipher.encryptArea (paddr * blockSize / keybagSector) keybag) apfsCryptoSector
      (paddr * blockSize / keybagSector) = .ok keybag := decryptArea_encryptArea hdvd
  rwa [uuid.take_doubled, uuid.drop_doubled] at hdec

end Keybags

/-! ### A volume under a password -/

/-- A keybag and the records in it. -/
structure KeybagContents where
  head : Bytes
  tail : Bytes
  records : List KeybagRecord
  trailing : Bytes
  length_head : head.length = klNkeys
  length_tail : tail.length = 12
  count_le : records.length ≤ maxKeybagEntries

namespace KeybagContents

def bytes (k : KeybagContents) : Bytes := keybagOf k.head k.tail k.records k.trailing

/-- The wrapped key of a volume, from its last record of that kind. -/
def wrappedVek (k : KeybagContents) (uuid : Bytes) : Option Bytes :=
  (lastRecord uuid 0x02 k.records).bind (fun r => (volumeKeyOf r.data).toOption)

/-- Where the keybag of a volume stands. -/
def extent (k : KeybagContents) (uuid : Bytes) : Option (Nat × Nat) :=
  (lastRecord uuid 0x03 k.records).bind (fun r => (unlockExtentOf r.data).toOption)

/-- The first object that holds a KEK. -/
def kek (k : KeybagContents) : Option Bytes :=
  (k.records.filter (fun r => r.tag = 0x01 ∨ r.tag = 0x03)).findSome? (fun r => nestedObject r.data)

theorem volumeRecords_bytes (k : KeybagContents) {uuid key : Bytes} {block blocks : Nat}
    (hwf : ∀ r ∈ k.records, r.uuid = uuid → r.WellFormed) (hkey : k.wrappedVek uuid = some key)
    (hextent : k.extent uuid = some (block, blocks)) :
    volumeRecords k.bytes uuid = .ok ⟨key, block, blocks⟩ := by
  unfold wrappedVek at hkey
  unfold extent at hextent
  rw [bytes, volumeRecords_keybagOf k.length_head k.length_tail k.count_le hwf, hkey, hextent]

theorem findKekObject_bytes (k : KeybagContents) : findKekObject k.bytes = k.kek := by
  rw [findKekObject, bytes, keybagEntries_keybagOf k.length_head k.length_tail k.count_le,
    findSome?_placed, kek]

end KeybagContents

/-- An image that holds the key `vek` of a volume under a password. -/
structure SealedVolume (xts : Xts) (crypto : KeyCrypto) (image : Image) (uuid : Uuid)
    (password : String) (vek : Bytes) where
  containerUuid : Uuid
  blockSize : Nat
  paddr : Nat
  blocks : Nat
  keylocker : Keylocker image containerUuid blockSize paddr blocks
  container : KeybagContents
  containerAt : KeybagAt xts image containerUuid blockSize paddr blocks container.bytes
  wellFormed : ∀ r ∈ container.records, r.uuid = uuid.bytes → r.WellFormed
  records : VolumeRecords
  wrappedVek : container.wrappedVek uuid.bytes = some records.wrappedVek
  extent : container.extent uuid.bytes
    = some (records.volumeKeybagBlock, records.volumeKeybagBlocks)
  volume : KeybagContents
  volumeAt : KeybagAt xts image uuid blockSize records.volumeKeybagBlock
    records.volumeKeybagBlocks volume.bytes
  object : Bytes
  kek : volume.kek = some object
  opens : Opens crypto records password object vek

section Sealed

variable {xts : Xts} {crypto : KeyCrypto} {image : Image} {uuid : Uuid} {password : String}
  {vek : Bytes}

/-- The chain up to the password. -/
theorem SealedVolume.unlockVolume_eq (v : SealedVolume xts crypto image uuid password vek)
    (attempt : String) : unlockVolume xts crypto image uuid attempt
      = unlockWithVolumeKeybag crypto v.volume.bytes v.records attempt := by
  have hkeybag : decryptContainerKeybag xts image = .ok v.container.bytes :=
    decryptContainerKeybag_eq_ok_iff.mpr ⟨_, _, _, _, _, _, v.keylocker,
      v.containerAt.areaOf keylockerNames, v.containerAt.decrypt⟩
  have hrecords := v.container.volumeRecords_bytes v.wellFormed v.wrappedVek v.extent
  refine ApfsForensic.unlockVolume_eq hkeybag hrecords ?_ v.volumeAt.decrypt
  rw [v.keylocker.blockSize_eq]
  exact v.volumeAt.areaOf volumeKeybagNames

/-- A password from which the stored salt and count derive the same key gets in. -/
theorem SealedVolume.unlocks (v : SealedVolume xts crypto image uuid password vek)
    {info : WrappedKek} (hinfo : parseWrappedKek v.object = .ok info) {attempt : String}
    (hsame : deriveKeyFromPassword crypto attempt.toUTF8.toList info.salt info.iterations 32
      = deriveKeyFromPassword crypto password.toUTF8.toList info.salt info.iterations 32) :
    unlockVolume xts crypto image uuid attempt = .ok vek := by
  obtain ⟨info', derived, kek, hinfo', rfl, hlen, hkek, hlenKek, hlenVek, hvek⟩ := v.opens
  cases hinfo.symm.trans hinfo'
  rw [v.unlockVolume_eq, unlock_eq_ok_iff]
  exact ⟨v.object, v.volume.findKekObject_bytes.trans v.kek, info, _, kek, hinfo, rfl,
    hsame ▸ hlen, hsame ▸ hkek, hlenKek, hlenVek, hvek⟩

/-- The password it was sealed under gets in. -/
theorem SealedVolume.unlocks_self (v : SealedVolume xts crypto image uuid password vek) :
    unlockVolume xts crypto image uuid password = .ok vek := by
  obtain ⟨_, _, _, hinfo, _⟩ := v.opens
  exact v.unlocks hinfo rfl

/-- **Unlocking undoes sealing.**  Where an image holds a volume key under a password, through
both keybags, `unlock_volume` returns that key for every password that the stored salt and
count derive the same key from.  A password with a derived key that does not unwrap the stored
KEK is refused by the integrity check; no other error and no other key comes of it. -/
theorem unlock_volume_round_trip (v : SealedVolume xts crypto image uuid password vek)
    {info : WrappedKek} (hinfo : parseWrappedKek v.object = .ok info) (attempt : String) :
    (deriveKeyFromPassword crypto attempt.toUTF8.toList info.salt info.iterations 32
        = deriveKeyFromPassword crypto password.toUTF8.toList info.salt info.iterations 32 →
      unlockVolume xts crypto image uuid attempt = .ok vek) ∧
    ((deriveKeyFromPassword crypto attempt.toUTF8.toList info.salt info.iterations 32).length = 32 →
      crypto.unwrap (deriveKeyFromPassword crypto attempt.toUTF8.toList info.salt info.iterations
        32) info.wrappedKey = none →
      unlockVolume xts crypto image uuid attempt
        = .error (.err (.fieldOutOfRange "aes_key_wrap" "integrity_check" 0 1))) := by
  refine ⟨v.unlocks hinfo, fun hlen hnone => ?_⟩
  have hobject : findKekObject v.volume.bytes = some v.object :=
    v.volume.findKekObject_bytes.trans v.kek
  have hderived : ∀ field, tryInto 32 field (deriveKeyFromPassword crypto
      attempt.toUTF8.toList info.salt info.iterations 32) = .ok _ :=
    fun _ => tryInto_eq_ok_iff.mpr ⟨hlen, rfl⟩
  have hwrapped : ∀ field, tryInto 40 field info.wrappedKey = .ok info.wrappedKey :=
    fun _ => tryInto_eq_ok_iff.mpr ⟨length_wrappedKey hinfo, rfl⟩
  simp only [v.unlockVolume_eq, unlockWithVolumeKeybag, hobject, hinfo, ok_bind, hderived,
    hwrapped, aesKeyUnwrap, hnone, error_bind]

end Sealed

/-! ### A small container

Block `3` is the keybag of the container and block `4` that of its only volume, which user
`a` can open. -/

def boxUuid : Uuid := ⟨List.replicate 16 6, by decide⟩

theorem length_ownUuid : ownUuid.length = 16 := by
  decide

def boxVolumeUuid : Uuid := ⟨ownUuid, length_ownUuid⟩

def boxRecords : VolumeRecords := ⟨List.replicate 8 7 ++ List.replicate 32 9, 4, 1⟩

def boxRecord (uuid : Bytes) (tag : Nat) (data padding : Bytes)
    (h : (uuid.length = 16 ∧ tag < 2 ^ 16) ∧ data.length ≤ 65535 ∧
      keHeaderLen + data.length + padding.length = paddedLength data.length) : KeybagRecord where
  uuid := uuid
  tag := tag
  reserved := toLeBytes 4 0
  data := data
  padding := padding
  length_uuid := h.1.1
  tag_lt := h.1.2
  length_reserved := length_toLeBytes 4 0
  length_data := h.2.1
  length_padding := h.2.2

def boxContainer : KeybagContents where
  head := List.replicate 24 0 ++ [0x73, 0x79, 0x65, 0x6b] ++ List.replicate 6 0
  tail := List.replicate 12 0
  records :=
    [boxRecord ownUuid 0x02 (tlv 0x30 (tlv 0xa3 (tlv 0x83 boxRecords.wrappedVek)))
        (List.replicate 10 0) (by decide),
      boxRecord ownUuid 0x03 (toLeBytes 8 4 ++ toLeBytes 8 1) (List.replicate 8 0) (by decide)]
  trailing := List.replicate 336 0
  length_head := by decide
  length_tail := by decide
  count_le := by decide

def boxVolume : KeybagContents where
  head := List.replicate 24 0 ++ [0x73, 0x63, 0x65, 0x72] ++ List.replicate 6 0
  tail := List.replicate 12 0
  records := [boxRecord (List.replicate 16 97) 0x03 (tlv 0x30 (tlv 0xa3 (userObject 97)))
    (List.replicate 5 0) (by decide)]
  trailing := List.replicate 368 0
  length_head := by decide
  length_tail := by decide
  count_le := by decide

def boxBytes : Bytes :=
  List.replicate 32 0 ++ nxsbBytes ++ toLeBytes 4 512 ++ List.replicate 32 0 ++ boxUuid.bytes ++
    List.replicate 1208 0 ++ toLeBytes 8 3 ++ toLeBytes 8 1 ++ List.replicate 224 0 ++
    (shiftCipher boxUuid.doubled).encryptArea 3 boxContainer.bytes ++
    (shiftCipher boxVolumeUuid.doubled).encryptArea 4 boxVolume.bytes ++ List.replicate 2048 0

def boxImage : Image := ⟨boxBytes, by decide +kernel⟩

theorem boxImage_fields :
    (getRange boxImage.bytes nxContainerUuidOff (nxContainerUuidOff + 16) = some boxUuid.bytes ∧
      getRange boxImage.bytes 32 36 = some nxsbBytes) ∧
    leU32 boxImage.bytes nxBlockSizeOff = 512 ∧ leU64 boxImage.bytes nxKeybagBlockOff = 3 ∧
      leU64 boxImage.bytes nxKeybagBlocksOff = 1 := by
  decide +kernel

theorem boxImage_keylocker : Keylocker boxImage boxUuid 512 3 1 where
  uuid_eq := boxImage_fields.1.1
  magic := boxImage_fields.1.2
  blockSize_eq := boxImage_fields.2.1
  paddr_eq := boxImage_fields.2.2.1
  blocks_eq := boxImage_fields.2.2.2
  blockSize_ne := by decide
  sectors := by decide
  paddr_ne := by decide
  blocks_ne := by decide

/-- Both keybags stand in the image, each in a block of its own. -/
theorem boxImage_keybags :
    (3 * 512 + boxContainer.bytes.length ≤ boxImage.bytes.length ∧
      ((shiftCipher boxUuid.doubled).encryptArea (3 * 512 / keybagSector)
        boxContainer.bytes).isPrefixOf (boxImage.bytes.drop (3 * 512)) = true) ∧
    boxRecords.volumeKeybagBlock * 512 + boxVolume.bytes.length ≤ boxImage.bytes.length ∧
      ((shiftCipher boxVolumeUuid.doubled).encryptArea
        (boxRecords.volumeKeybagBlock * 512 / keybagSector) boxVolume.bytes).isPrefixOf
        (boxImage.bytes.drop (boxRecords.volumeKeybagBlock * 512)) = true := by
  decide +kernel

theorem boxContainer_wellFormed :
    ∀ r ∈ boxContainer.records, r.uuid = boxVolumeUuid.bytes → r.WellFormed := by
  refine List.forall_mem_cons.mpr ⟨fun _ => ⟨fun _ => ⟨boxRecords.wrappedVek, ?_⟩, ?_⟩, ?_⟩
  · decide +kernel
  · intro h
    exact absurd h (by decide)
  · refine List.forall_mem_cons.mpr
      ⟨fun _ => ⟨fun h => absurd h (by decide), fun _ => ⟨(4, 1), ?_⟩⟩, by simp⟩
    decide +kernel

def boxSealed :
    SealedVolume .shift headCrypto boxImage boxVolumeUuid "a" (List.replicate 32 9) where
  containerUuid := boxUuid
  blockSize := 512
  paddr := 3
  blocks := 1
  keylocker := boxImage_keylocker
  container := boxContainer
  containerAt := ⟨shiftCipher _, by decide, by decide +kernel, boxImage_keybags.1.1,
    List.isPrefixOf_iff_prefix.mp boxImage_keybags.1.2⟩
  wellFormed := boxContainer_wellFormed
  records := boxRecords
  wrappedVek := by decide +kernel
  extent := by decide +kernel
  volume := boxVolume
  volumeAt := ⟨shiftCipher _, by decide, by decide +kernel, boxImage_keybags.2.1,
    List.isPrefixOf_iff_prefix.mp boxImage_keybags.2.2⟩
  object := userObject 97
  kek := by decide +kernel
  opens := ⟨⟨97 :: List.replicate 7 1 ++ List.replicate 32 7, 1, List.replicate 16 1⟩, _,
    List.replicate 32 7, by decide +kernel, rfl, by decide +kernel⟩

/-- User `a` comes in, user `b` does not. -/
theorem unlock_volume_round_trip_box :
    unlockVolume .shift headCrypto boxImage boxVolumeUuid "a" = .ok (List.replicate 32 9) ∧
      unlockVolume .shift headCrypto boxImage boxVolumeUuid "b"
        = .error (.err (.fieldOutOfRange "aes_key_wrap" "integrity_check" 0 1)) := by
  have hinfo : parseWrappedKek boxSealed.object
      = .ok ⟨97 :: List.replicate 7 1 ++ List.replicate 32 7, 1, List.replicate 16 1⟩ := by
    decide +kernel
  exact ⟨(unlock_volume_round_trip boxSealed hinfo "a").1 rfl,
    (unlock_volume_round_trip boxSealed hinfo "b").2 (by decide +kernel) (by decide +kernel)⟩

end ApfsForensic
