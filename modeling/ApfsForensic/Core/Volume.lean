import ApfsForensic.Core.FsRecord
import ApfsForensic.Core.Object

/-!
# Volume superblocks and the volume key

`core/src/volume.rs` and `decrypt_volume_area` of `core/src/encryption.rs`.

AES-XTS comes from the crate `xts_mode`, which is not part of the repository.
`Xts` is its `decrypt_area` as a parameter.  A call may panic, as the crate does
on a last sector that is too short for a cipher block.
-/

namespace ApfsForensic

/-- `[u8; 32]`: the volume encryption key. -/
structure Vek where
  bytes : Bytes
  length_eq : bytes.length = 32
  deriving DecidableEq

/-- `ApfsVolume`. -/
structure ApfsVolume where
  oid : Nat
  xid : Nat
  fsIndex : Nat
  features : Nat
  readonlyCompatibleFeatures : Nat
  incompatibleFeatures : Nat
  rootTreeType : Nat
  omapOid : Nat
  rootTreeOid : Nat
  extentrefTreeOid : Nat
  snapMetaTreeOid : Nat
  uuid : Bytes
  fsFlags : Nat
  name : String
  vek : Option Vek
  deriving DecidableEq

/-- `APFS_MAGIC`. -/
def apfsMagic : Nat := 0x42535041

/-- `OBJECT_TYPE_FS`. -/
def objectTypeFs : Nat := 0xd

/-- `apsb_bad_type`. -/
def apsbBadType (expected found : Nat) : ApfsError :=
  .unexpectedObjectType "apfs_superblock" expected found

/-- `decode_volname`. -/
def decodeVolname (block : Bytes) (offset len : Nat) : String :=
  match getRange block offset (offset + len) with
  | none => ""
  | some field => decodeCstr field

/-- `APSB_MIN_LEN`. -/
def apsbMinLen : Nat := 960

namespace ApfsVolume

/-- `ApfsVolume::parse`. -/
def parse (block : Bytes) : Result ApfsVolume := do
  if block.length < apsbMinLen then
    throw (.err (apsbBadType apfsMagic 0))
  let some hdr := ObjPhys.parse block | throw (.err (apsbBadType apfsMagic 0))
  if hdr.objType ≠ objectTypeFs then
    throw (.err (apsbBadType objectTypeFs hdr.objTypeRaw))
  let magic := leU32 block 32
  if magic ≠ apfsMagic then
    throw (.err (apsbBadType apfsMagic magic))
  verifyChecksum block hdr.oid
  return {
    oid := hdr.oid
    xid := hdr.xid
    fsIndex := leU32 block 36
    features := leU64 block 40
    readonlyCompatibleFeatures := leU64 block 48
    incompatibleFeatures := leU64 block 56
    rootTreeType := leU32 block 116
    omapOid := leU64 block 128
    rootTreeOid := leU64 block 136
    extentrefTreeOid := leU64 block 144
    snapMetaTreeOid := leU64 block 152
    uuid := arr 16 block 240
    fsFlags := leU64 block 256
    name := decodeVolname block 704 256
    vek := none }

/-- `set_vek`. -/
def setVek (volume : ApfsVolume) (vek : Vek) : ApfsVolume := { volume with vek := some vek }

/-- `with_omap_oid`. -/
def withOmapOid (volume : ApfsVolume) (omapOid : Nat) : ApfsVolume := { volume with omapOid }

/-- A volume with these navigation roots and nothing else, for concrete runs. -/
def ofRoots (xid omapOid rootTreeOid snapMetaTreeOid : Nat) : ApfsVolume :=
  { oid := 0, xid, fsIndex := 0, features := 0, readonlyCompatibleFeatures := 0
    incompatibleFeatures := 0, rootTreeType := 0, omapOid, rootTreeOid, extentrefTreeOid := 0
    snapMetaTreeOid, uuid := [], fsFlags := 0, name := "", vek := none }

/-- The same with an oid, and with the uuid that zeros are. -/
def ofApsb (oid xid omapOid rootTreeOid snapMetaTreeOid : Nat) : ApfsVolume :=
  { ofRoots xid omapOid rootTreeOid snapMetaTreeOid with oid, uuid := List.replicate 16 0 }

@[simp] theorem withOmapOid_omapOid (volume : ApfsVolume) (o : Nat) :
    (volume.withOmapOid o).omapOid = o := rfl

@[simp] theorem withOmapOid_xid (volume : ApfsVolume) (o : Nat) :
    (volume.withOmapOid o).xid = volume.xid := rfl

@[simp] theorem withOmapOid_rootTreeOid (volume : ApfsVolume) (o : Nat) :
    (volume.withOmapOid o).rootTreeOid = volume.rootTreeOid := rfl

@[simp] theorem withOmapOid_vek (volume : ApfsVolume) (o : Nat) :
    (volume.withOmapOid o).vek = volume.vek := rfl

@[simp] theorem setVek_omapOid (volume : ApfsVolume) (vek : Vek) :
    (volume.setVek vek).omapOid = volume.omapOid := rfl

@[simp] theorem setVek_xid (volume : ApfsVolume) (vek : Vek) :
    (volume.setVek vek).xid = volume.xid := rfl

@[simp] theorem setVek_rootTreeOid (volume : ApfsVolume) (vek : Vek) :
    (volume.setVek vek).rootTreeOid = volume.rootTreeOid := rfl

@[simp] theorem setVek_vek (volume : ApfsVolume) (vek : Vek) :
    (volume.setVek vek).vek = some vek := rfl

/-- A parsed superblock holds no key. -/
theorem parse_vek {block : Bytes} {volume : ApfsVolume} (h : parse block = .ok volume) :
    volume.vek = none := by
  unfold parse at h
  simp only [throw_eq_error, error_bind, ite_error_eq_ok_iff] at h
  obtain ⟨_, h⟩ := h
  cases hhdr : ObjPhys.parse block with
  | none => rw [hhdr] at h; cases h
  | some hdr =>
    rw [hhdr] at h
    simp only [ite_error_eq_ok_iff, bind_eq_ok_iff] at h
    obtain ⟨_, _, _, _, h⟩ := h
    cases h
    rfl

end ApfsVolume

/-! ### Decryption -/

/-- `Xts128::decrypt_area` at the default tweak: data key, tweak key, data, sector
size and number of the first sector.  The data is decrypted in place. -/
structure Xts where
  decryptArea : (k₁ k₂ data : Bytes) → (sectorSize firstSector : Nat) → Result Bytes
  length_eq : ∀ {k₁ k₂ data : Bytes} {sectorSize firstSector : Nat} {out : Bytes},
    decryptArea k₁ k₂ data sectorSize firstSector = .ok out → out.length = data.length

/-- The cipher of a run that never decrypts. -/
def Xts.uncalled : Xts where
  decryptArea _ _ _ _ _ := .error .panic
  length_eq h := absurd h (by simp)

/-- `OMAP_VAL_ENCRYPTED`. -/
def omapValEncrypted : Nat := 0x4

/-- `APFS_CRYPTO_SECTOR`. -/
def apfsCryptoSector : Nat := 512

/-- `decrypt_volume_area`. -/
def decryptVolumeArea (xts : Xts) (data : Bytes) (vek : Vek) (tweakBlock blockSize : Nat) :
    Result Bytes :=
  if tweakBlock = 0 ∨ blockSize < apfsCryptoSector then .ok data
  else
    let sectorsPerBlock := blockSize / apfsCryptoSector
    let firstSector := saturatingMul tweakBlock sectorsPerBlock
    xts.decryptArea (vek.bytes.take 16) (vek.bytes.drop 16) data apfsCryptoSector firstSector

theorem length_decryptVolumeArea {xts : Xts} {data out : Bytes} {vek : Vek}
    {tweakBlock blockSize : Nat}
    (h : decryptVolumeArea xts data vek tweakBlock blockSize = .ok out) :
    out.length = data.length := by
  unfold decryptVolumeArea at h
  split at h
  · cases h; rfl
  · exact xts.length_eq h

end ApfsForensic
