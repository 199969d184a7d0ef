import ApfsForensic.Core.Damage
import ApfsForensic.Core.Superblocks
import ApfsForensic.Forensic.Report

/-!
# The seal of a volume and the times of an inode

Two detectors look at one structure each.  The seal of a system volume is recorded as broken in
its `integrity_meta_phys_t`; the four times of an inode are compared with zero and with each
other.

* `IntegrityMeta.parse_write`: the integrity metadata is parsed back, so `mem_sealedAudit_write`:
  what was recorded about the seal is what is reported.
* `IntegrityMeta.refused_of_overwritten`: a recorded break is not taken back in place.  Once two
  neighbouring words of the block are overwritten it is refused, unless zeros took the place of
  ones or ones that of zeros.
* `timestampAnomalies_eq_nil_iff`: the times that give no lead.
-/

namespace ApfsForensic

open Walk

/-! ### The seal -/

/-- The fields of `integrity_meta_phys_t` that are read. -/
structure IntegrityMeta where
  version : Nat
  flags : Nat
  hashType : Nat
  brokenXid : Nat
  deriving DecidableEq, Repr

/-- `INTEGRITY_META_MIN_LEN`. -/
def integrityMetaMinLen : Nat := 56

/-- `IntegrityMeta::parse`. -/
def IntegrityMeta.parse (block : Bytes) : Result IntegrityMeta := do
  if block.length < integrityMetaMinLen then
    throw (.err (.fieldOutOfRange "integrity_meta_phys" "block.len" block.length
      integrityMetaMinLen))
  verifyChecksum block (leU64 block 8)
  return {
    version := leU32 block 32
    flags := leU32 block 36
    hashType := leU32 block 40
    brokenXid := leU64 block 48 }

/-- `sealed_anomalies`. -/
def sealedAnomalies (brokenXid : Nat) : List AnomalyKind :=
  if brokenXid ≠ 0 then [.sealedVolumeBroken brokenXid] else []

/-- `sealed::audit`, which looks neither at the reader nor at the volume. -/
def sealedAudit (im : IntegrityMeta) : List AnomalyKind := sealedAnomalies im.brokenXid

theorem mem_sealedAnomalies_iff {brokenXid : Nat} {k : AnomalyKind} :
    k ∈ sealedAnomalies brokenXid ↔ brokenXid ≠ 0 ∧ k = .sealedVolumeBroken brokenXid := by
  rw [sealedAnomalies, List.mem_ite_nil_right, List.mem_singleton]

namespace IntegrityMeta

/-- The numbers fit their fields. -/
structure Fits (im : IntegrityMeta) : Prop where
  version_lt : im.version < 2 ^ 32
  flags_lt : im.flags < 2 ^ 32
  hashType_lt : im.hashType < 2 ^ 32
  brokenXid_lt : im.brokenXid < 2 ^ 64

def pieces (im : IntegrityMeta) : List (Piece UInt8) :=
  [numberPiece 4 32 im.version, numberPiece 4 36 im.flags, numberPiece 4 40 im.hashType,
    numberPiece 8 48 im.brokenXid]

/-- The block with the metadata written into it and its checksum. -/
def write (im : IntegrityMeta) (base : Bytes) : Bytes := writeSealed base im.pieces

variable {im : IntegrityMeta} {base : Bytes}

theorem inOrder_pieces (im : IntegrityMeta) (hlen : 56 ≤ base.length) :
    Piece.InOrder base.length 8 im.pieces := by
  simp [pieces, Piece.InOrder]
  omega

theorem parse_of_verifies {block : Bytes} (hlen : 56 ≤ block.length) (h : Verifies block) :
    parse block = .ok ⟨leU32 block 32, leU32 block 36, leU32 block 40, leU64 block 48⟩ := by
  have hmin : ¬ block.length < integrityMetaMinLen := Nat.not_lt.mpr hlen
  rw [parse, if_neg hmin, verifyChecksum_eq_ok_iff.mpr h]
  rfl

/-- **Written integrity metadata is parsed back.** -/
theorem parse_write (hlen : 56 ≤ base.length) (hfits : im.Fits) :
    parse (im.write base) = .ok im := by
  have hin := im.inOrder_pieces hlen
  have hwritten : (im.write base).length = base.length := hin.length_eq
  have hsum : Verifies (im.write base) := hin.verifies
  have hversion : leU32 (im.write base) 32 = im.version :=
    hin.leUInt (by simp [pieces]) hfits.version_lt
  have hflags : leU32 (im.write base) 36 = im.flags :=
    hin.leUInt (by simp [pieces]) hfits.flags_lt
  have hhash : leU32 (im.write base) 40 = im.hashType :=
    hin.leUInt (by simp [pieces]) hfits.hashType_lt
  have hbroken : leU64 (im.write base) 48 = im.brokenXid :=
    hin.leUInt (by simp [pieces]) hfits.brokenXid_lt
  rw [parse_of_verifies (hlen.trans_eq hwritten.symm) hsum, hversion, hflags, hhash, hbroken]

/-- A finding is reported exactly if the seal was recorded as broken, and it names the xid. -/
theorem mem_sealedAudit_write (hlen : 56 ≤ base.length) (hfits : im.Fits) {k : AnomalyKind} :
    (∃ read, parse (im.write base) = .ok read ∧ k ∈ sealedAudit read) ↔
      im.brokenXid ≠ 0 ∧ k = .sealedVolumeBroken im.brokenXid := by
  rw [parse_write hlen hfits]
  constructor
  · rintro ⟨read, hread, hk⟩
    cases hread
    exact mem_sealedAnomalies_iff.mp hk
  · intro hk
    exact ⟨im, rfl, mem_sealedAnomalies_iff.mpr hk⟩

/-- **A recorded break is not taken back in place.**  Words `i` and `i + 1` of a written block are
overwritten, in a way the checksum can see.  The block is then refused. -/
theorem refused_of_overwritten (hlen : 56 ≤ base.length) {block : Bytes}
    (hblock : (im.write base).length = block.length) {i j : Nat} (hi : 2 ≤ i)
    (hsame : ∀ k, (im.write base)[k]? ≠ block[k]? → 4 * i ≤ k ∧ k < 4 * (i + 2))
    (hne : leU32 (im.write base) (4 * j) ≠ leU32 block (4 * j))
    (hseen : ¬ ZerosAndOnes (leU32 (im.write base) (4 * j)) (leU32 block (4 * j))) :
    parse block = .error (.err (.checksumMismatch (leU64 block 8) (fletcher64Stored block)
      (fletcher64Checksum block))) := by
  have hin := im.inOrder_pieces hlen
  have hbroken : fletcher64Stored block ≠ fletcher64Checksum block :=
    not_verifies_of_words hin.verifies hblock hi hsame hne hseen
  have hmin : ¬ block.length < integrityMetaMinLen := by
    have hwritten : (im.write base).length = base.length := hin.length_eq
    unfold integrityMetaMinLen
    omega
  rw [parse, if_neg hmin, verifyChecksum, if_pos hbroken]
  rfl

end IntegrityMeta

/-! ### The times -/

/-- `timestamp_anomalies`. -/
def timestampAnomalies (oid create modify change access : Nat) : List AnomalyKind :=
  let ts := [create, modify, change, access]
  (if ts.any (· ≠ 0) ∧ 0 ∈ ts then [.timestampZeroed oid] else []) ++
    if (change ≠ 0 ∧ create ≠ 0 ∧ change < create) ∨ (access ≠ 0 ∧ create ≠ 0 ∧ access < create)
    then [.timestampOrder oid] else []

/-- `timestamps::audit`. -/
def timestampsAudit (inode : Inode) : List AnomalyKind :=
  timestampAnomalies inode.oid inode.createTime inode.modTime inode.changeTime inode.accessTime

section Times

variable {oid create modify change access : Nat}

theorem mem_timestampAnomalies_iff {k : AnomalyKind} :
    k ∈ timestampAnomalies oid create modify change access ↔
      (k = .timestampZeroed oid ∧ (∃ t ∈ [create, modify, change, access], t ≠ 0) ∧
        0 ∈ [create, modify, change, access]) ∨
      (k = .timestampOrder oid ∧ create ≠ 0 ∧ ∃ t ∈ [change, access], t ≠ 0 ∧ t < create) := by
  rw [timestampAnomalies, List.mem_append, List.mem_ite_nil_right, List.mem_ite_nil_right,
    List.mem_singleton, List.mem_singleton, and_comm, and_comm (b := k = .timestampOrder oid)]
  apply or_congr
  · apply and_congr_right
    intro _
    simp only [List.any_eq_true, decide_eq_true_eq]
  · apply and_congr_right
    intro _
    simp only [List.exists_mem_cons_iff, List.not_mem_nil, false_and, exists_false, or_false]
    tauto

/-- **The times that give no lead**: none is set, or all are and the inode was neither changed nor
read before it was created. -/
theorem timestampAnomalies_eq_nil_iff :
    timestampAnomalies oid create modify change access = [] ↔
      (∀ t ∈ [create, modify, change, access], t = 0) ∨
      (0 ∉ [create, modify, change, access] ∧ create ≤ change ∧ create ≤ access) := by
  simp only [List.eq_nil_iff_forall_not_mem, mem_timestampAnomalies_iff]
  constructor
  · intro h
    have hzeroed := h (.timestampZeroed oid)
    have horder := h (.timestampOrder oid)
    simp at hzeroed horder ⊢
    omega
  · rintro (hall | ⟨hset, hchange, haccess⟩) k (⟨-, ⟨t, ht, hne⟩, hzero⟩ | ⟨-, hne, t, ht, -, hlt⟩)
    · exact hne (hall t ht)
    · exact hne (hall create List.mem_cons_self)
    · exact hset hzero
    · simp only [List.mem_cons, List.not_mem_nil, or_false] at ht
      omega

/-- A lead is no finding: it is graded as information, and it names the inode. -/
theorem severity_of_mem_timestampsAudit {inode : Inode} {k : AnomalyKind}
    (h : k ∈ timestampsAudit inode) :
    k.severity = .info ∧ (k = .timestampZeroed inode.oid ∨ k = .timestampOrder inode.oid) := by
  obtain ⟨rfl, -⟩ | ⟨rfl, -⟩ := mem_timestampAnomalies_iff.mp h
  · exact ⟨rfl, .inl rfl⟩
  · exact ⟨rfl, .inr rfl⟩

end Times

end ApfsForensic
