import ApfsForensic.Core.Panic
import ApfsForensic.Forensic.Integrity
import ApfsForensic.Forensic.Snapshots
import ApfsForensic.Text.Numerals

/-!
# What a report says

`forensic/src/lib.rs`: the codes, grades and notes of the findings, and what stands behind the
findings of `audit_container`.

* `report_identifies_finding`: the code and the note of a finding tell which finding it is.
* `audit_reports_evidence`: the audit returns exactly if everything it asks for can be read, and
  its findings are then those with evidence in the container (`Evidence`), none more and none
  less; the only finding of grade high is an object with two addresses.
-/

namespace ApfsForensic

open ApfsContainer Text

/-! ### Codes, grades and notes -/

/-- `AnomalyKind::code`. -/
def AnomalyKind.code : AnomalyKind → String
  | .objectChecksumMismatch _ _ _ => "APFS-OBJECT-CKSUM-MISMATCH"
  | .omapInconsistent _ _ => "APFS-OMAP-INCONSISTENT"
  | .omapOrphanMapping _ => "APFS-OMAP-ORPHAN-MAPPING"
  | .checkpointRingMalformed _ => "APFS-CHECKPOINT-RING-MALFORMED"
  | .checkpointSupersededState _ => "APFS-CHECKPOINT-SUPERSEDED-STATE"
  | .snapshotXidDisorder _ => "APFS-SNAPSHOT-XID-DISORDER"
  | .snapshotMissingMetadata _ => "APFS-SNAPSHOT-MISSING-METADATA"
  | .snapshotDivergence _ => "APFS-SNAPSHOT-DIVERGENCE"
  | .sealedVolumeHashMismatch _ => "APFS-SEALED-VOLUME-HASH-MISMATCH"
  | .sealedVolumeBroken _ => "APFS-SEALED-VOLUME-BROKEN"
  | .deletedInodeRecoverable _ => "APFS-DELETED-INODE-RECOVERABLE"
  | .deletedExtentCarveCandidate _ => "APFS-DELETED-EXTENT-CARVE-CANDIDATE"
  | .reaperPendingObject _ => "APFS-REAPER-PENDING-OBJECT"
  | .cloneSharedExtent _ _ => "APFS-CLONE-SHARED-EXTENT"
  | .cloneFlagWithoutSharing _ => "APFS-CLONE-FLAG-WITHOUT-SHARING"
  | .encryptionLocked => "APFS-ENCRYPTION-LOCKED"
  | .encryptionState _ => "APFS-ENCRYPTION-STATE"
  | .encryptionKeybagAnomaly _ _ => "APFS-ENCRYPTION-KEYBAG-ANOMALY"
  | .timestampZeroed _ => "APFS-TIMESTAMP-ZEROED"
  | .timestampOrder _ => "APFS-TIMESTAMP-ORDER"
  | .xidReuse _ _ => "APFS-XID-REUSE"
  | .orphanInode _ => "APFS-ORPHAN-INODE"
  | .volumeRoleMismatch _ => "APFS-VOLUME-ROLE-MISMATCH"

/-- `Severity`. -/
inductive Severity where
  | info
  | low
  | medium
  | high
  deriving DecidableEq, Repr

/-- `severity` of the `Observation`, which is always there. -/
def AnomalyKind.severity : AnomalyKind → Severity
  | .objectChecksumMismatch _ _ _ | .omapInconsistent _ _ | .checkpointRingMalformed _
  | .sealedVolumeHashMismatch _ | .sealedVolumeBroken _ | .xidReuse _ _ => .high
  | .snapshotMissingMetadata _ | .deletedInodeRecoverable _ | .encryptionKeybagAnomaly _ _ =>
    .medium
  | .deletedExtentCarveCandidate _ | .reaperPendingObject _ | .cloneFlagWithoutSharing _
  | .orphanInode _ => .low
  | .omapOrphanMapping _ | .checkpointSupersededState _ | .snapshotXidDisorder _
  | .snapshotDivergence _ | .cloneSharedExtent _ _ | .encryptionLocked | .encryptionState _
  | .timestampZeroed _ | .timestampOrder _ | .volumeRoleMismatch _ => .info

/-- `AnomalyKind::note`. -/
def AnomalyKind.note : AnomalyKind → String
  | .objectChecksumMismatch block stored computed =>
    "object at block " ++ toString block ++ " has stored Fletcher-64 " ++ hex 16 stored ++
      " but its body computes " ++ hex 16 computed ++
      "; consistent with structural corruption or tampering"
  | .omapInconsistent oid xid =>
    "object-map entry for oid " ++ toString oid ++ " at xid " ++ toString xid ++
      " resolves to a block whose object oid/xid/type disagrees; consistent with omap" ++
      " inconsistency"
  | .omapOrphanMapping oid =>
    "object-map entry for oid " ++ toString oid ++
      " targets a block not reachable from any live tree examined; consistent with an" ++
      " orphaned mapping (reachability not exhaustively modelled)"
  | .checkpointRingMalformed detail =>
    "checkpoint ring is structurally invalid: " ++ detail ++
      "; consistent with a malformed or truncated checkpoint area"
  | .checkpointSupersededState xid =>
    "a non-latest checkpoint at xid " ++ toString xid ++
      " references objects absent from the latest; consistent with normal copy-on-write" ++
      " residue (a recovery lead)"
  | .snapshotXidDisorder xid =>
    "snapshot xid " ++ toString xid ++
      " is not ordered consistently with its create_time; a lead for the examiner"
  | .snapshotMissingMetadata name =>
    "snapshot \"" ++ name ++
      "\" appears in one of the snap-metadata / snap-name trees but not the other;" ++
      " consistent with a structural snapshot inconsistency"
  | .snapshotDivergence inode =>
    "a snapshot's view of inode " ++ toString inode ++
      " differs from the live volume; a history lead, not an anomaly in itself"
  | .sealedVolumeHashMismatch inode =>
    "sealed-volume file-info hash for inode " ++ toString inode ++
      " does not match the recomputed content hash; consistent with a hash-metadata" ++
      " mismatch (not a trust-chain verdict)"
  | .sealedVolumeBroken brokenXid =>
    "integrity_meta_phys.im_broken_xid is set to " ++ toString brokenXid ++
      "; consistent with the seal having been broken at that transaction"
  | .deletedInodeRecoverable oid =>
    "inode/dir record for oid " ++ toString oid ++
      " is superseded but still present in an older checkpoint or unreaped block;" ++
      " consistent with recoverable residue"
  | .deletedExtentCarveCandidate block =>
    "a deleted file's extent block " ++ toString block ++
      " is marked free in the allocation bitmap; a carve candidate only (free does not" ++
      " guarantee recoverable content)"
  | .reaperPendingObject oid =>
    "object oid " ++ toString oid ++
      " is queued in the reaper (logically deleted, still physically present); a" ++
      " residue lead"
  | .cloneSharedExtent inodeA inodeB =>
    "inodes " ++ toString inodeA ++ " and " ++ toString inodeB ++
      " share one or more physical extents; consistent with a clonefile/dedup" ++
      " provenance link"
  | .cloneFlagWithoutSharing inode =>
    "inode " ++ toString inode ++
      " has INODE_WAS_CLONED set but no shared extent was found; consistent with a" ++
      " clone-flag inconsistency"
  | .encryptionLocked =>
    "volume is encrypted and no key is available; content is not readable (a state," ++
      " not a verdict)"
  | .encryptionState detail =>
    "observed encryption state: " ++ detail ++ " (raw fields; software-vs-hardware not inferred)"
  | .encryptionKeybagAnomaly rawTag offset =>
    "keybag entry at offset " ++ toString offset ++ " carries an unexpected or malformed tag " ++
      hex 2 rawTag ++ "; consistent with a keybag anomaly"
  | .timestampZeroed inode =>
    "inode " ++ toString inode ++
      " has one timestamp zeroed while its siblings are set; an Info lead (possible" ++ " wipe)"
  | .timestampOrder inode =>
    "inode " ++ toString inode ++
      " has timestamps out of expected order (e.g. change_time before create_time); an" ++
      " FP-prone Info lead"
  | .xidReuse oid xid =>
    "two distinct live objects claim the same (oid " ++ toString oid ++ ", xid " ++ toString xid ++
      "); impossible under copy-on-write, consistent with tampering"
  | .orphanInode oid =>
    "inode " ++ toString oid ++
      " has no DIR_REC referencing it and is not in the private directory; consistent" ++
      " with deleted-but-linked residue"
  | .volumeRoleMismatch detail =>
    "volume role flag is inconsistent with content: " ++ detail ++ "; a structural lead"

/-- The codes, in the order of the kinds. -/
def anomalyCodes : List String :=
  ["APFS-OBJECT-CKSUM-MISMATCH", "APFS-OMAP-INCONSISTENT", "APFS-OMAP-ORPHAN-MAPPING",
   "APFS-CHECKPOINT-RING-MALFORMED", "APFS-CHECKPOINT-SUPERSEDED-STATE",
   "APFS-SNAPSHOT-XID-DISORDER", "APFS-SNAPSHOT-MISSING-METADATA", "APFS-SNAPSHOT-DIVERGENCE",
   "APFS-SEALED-VOLUME-HASH-MISMATCH", "APFS-SEALED-VOLUME-BROKEN",
   "APFS-DELETED-INODE-RECOVERABLE", "APFS-DELETED-EXTENT-CARVE-CANDIDATE",
   "APFS-REAPER-PENDING-OBJECT", "APFS-CLONE-SHARED-EXTENT", "APFS-CLONE-FLAG-WITHOUT-SHARING",
   "APFS-ENCRYPTION-LOCKED", "APFS-ENCRYPTION-STATE", "APFS-ENCRYPTION-KEYBAG-ANOMALY",
   "APFS-TIMESTAMP-ZEROED", "APFS-TIMESTAMP-ORDER", "APFS-XID-REUSE", "APFS-ORPHAN-INODE",
   "APFS-VOLUME-ROLE-MISMATCH"]

theorem AnomalyKind.ctorIdx_of_code {a b : AnomalyKind} (h : a.code = b.code) :
    a.ctorIdx = b.ctorIdx := by
  have hcode : ∀ k : AnomalyKind, anomalyCodes[k.ctorIdx]? = some k.code := by
    intro k
    cases k <;> rfl
  have hnodup : anomalyCodes.Nodup := by decide +kernel
  have hlt : a.ctorIdx < anomalyCodes.length := (List.getElem?_eq_some_iff.mp (hcode a)).1
  exact (List.getElem?_inj hlt hnodup).mp (by rw [hcode, hcode, h])

theorem AnomalyKind.note_inj {a b : AnomalyKind} (h : a.ctorIdx = b.ctorIdx) :
    a.note = b.note ↔ a = b := by
  cases a
  case' objectChecksumMismatch => refine objectChecksumMismatch.elim b h.symm fun _ _ _ => ?_
  case' omapInconsistent => refine omapInconsistent.elim b h.symm fun _ _ => ?_
  case' omapOrphanMapping => refine omapOrphanMapping.elim b h.symm fun _ => ?_
  case' checkpointRingMalformed => refine checkpointRingMalformed.elim b h.symm fun _ => ?_
  case' checkpointSupersededState => refine checkpointSupersededState.elim b h.symm fun _ => ?_
  case' snapshotXidDisorder => refine snapshotXidDisorder.elim b h.symm fun _ => ?_
  case' snapshotMissingMetadata => refine snapshotMissingMetadata.elim b h.symm fun _ => ?_
  case' snapshotDivergence => refine snapshotDivergence.elim b h.symm fun _ => ?_
  case' sealedVolumeHashMismatch => refine sealedVolumeHashMismatch.elim b h.symm fun _ => ?_
  case' sealedVolumeBroken => refine sealedVolumeBroken.elim b h.symm fun _ => ?_
  case' deletedInodeRecoverable => refine deletedInodeRecoverable.elim b h.symm fun _ => ?_
  case' deletedExtentCarveCandidate => refine deletedExtentCarveCandidate.elim b h.symm fun _ => ?_
  case' reaperPendingObject => refine reaperPendingObject.elim b h.symm fun _ => ?_
  case' cloneSharedExtent => refine cloneSharedExtent.elim b h.symm fun _ _ => ?_
  case' cloneFlagWithoutSharing => refine cloneFlagWithoutSharing.elim b h.symm fun _ => ?_
  case' encryptionLocked => refine encryptionLocked.elim b h.symm ?_
  case' encryptionState => refine encryptionState.elim b h.symm fun _ => ?_
  case' encryptionKeybagAnomaly => refine encryptionKeybagAnomaly.elim b h.symm fun _ _ => ?_
  case' timestampZeroed => refine timestampZeroed.elim b h.symm fun _ => ?_
  case' timestampOrder => refine timestampOrder.elim b h.symm fun _ => ?_
  case' xidReuse => refine xidReuse.elim b h.symm fun _ _ => ?_
  case' orphanInode => refine orphanInode.elim b h.symm fun _ => ?_
  case' volumeRoleMismatch => refine volumeRoleMismatch.elim b h.symm fun _ => ?_
  all_goals
    unfold AnomalyKind.note
    simp (disch := decide) only [String.append_assoc, String.append_right_inj,
      String.append_left_inj, decimal_inj, decimal_append_inj, hex_inj, hex_append_inj]
  all_goals grind

/-- **The code and the note tell the finding.**  No two findings share both, whatever their
numbers and texts. -/
theorem report_identifies_finding (a b : AnomalyKind) :
    a.code = b.code ∧ a.note = b.note ↔ a = b := by
  constructor
  · rintro ⟨hcode, hnote⟩
    exact (AnomalyKind.note_inj (AnomalyKind.ctorIdx_of_code hcode)).mp hnote
  · rintro rfl
    exact ⟨rfl, rfl⟩

/-! ### Evidence -/

/-- The snapshots with their creation times. -/
def creationTimes (records : List Entry) : List (Nat × Nat) :=
  (snapshotsOf records).map fun s => (s.xid, s.createTime)

/-- What in the records of a snapshot tree supports a finding. -/
inductive SnapEvidence (records : List Entry) : AnomalyKind → Prop where
  | nameAstray {s : Snapshot} (hs : s ∈ snapshotsOf records)
      (hne : xidOfName s.name records ≠ some s.xid) :
      SnapEvidence records (.snapshotMissingMetadata s.name)
  | predates {xid : Nat} (hprev : PredatesPrevious (creationTimes records) xid) :
      SnapEvidence records (.snapshotXidDisorder xid)

/-- There is a volume at the address, with these records in its snapshot tree. -/
def HasSnapRecords (image : Image) (blockSize paddr : Nat) (records : List Entry) : Prop :=
  ∃ volume, HasVolume image blockSize paddr volume ∧
    readSnapRecords image volume blockSize = .ok records

/-- What in the container supports a finding. -/
inductive Evidence (image : Image) (blockSize : Nat) (container : ApfsContainer)
    (addrs : List Nat) : AnomalyKind → Prop where
  | twoAddresses {m m' : CheckpointMapping} (hm : m ∈ container.checkpointMappings)
      (hm' : m' ∈ container.checkpointMappings) (hoid : m.oid = m'.oid) (hne : m.paddr ≠ m'.paddr) :
      Evidence image blockSize container addrs (.xidReuse m.oid container.superblock.xid)
  | snapshot {paddr : Nat} {records : List Entry} {k : AnomalyKind} (hmem : paddr ∈ addrs)
      (hrecords : HasSnapRecords image blockSize paddr records) (hk : SnapEvidence records k) :
      Evidence image blockSize container addrs k
  | pending {reaperPaddr : Nat} {objects : List ReapPending} {object : ReapPending}
      (hreaper : container.reaperPaddr = some reaperPaddr)
      (hpending : pendingObjects image reaperPaddr container.checkpointMappings blockSize
        = .ok objects) (hmem : object ∈ objects) :
      Evidence image blockSize container addrs (.reaperPendingObject object.oid)

/-- The block at the address can be read, and the snapshot tree of a volume there too. -/
def AddrReadable (image : Image) (blockSize paddr : Nat) : Prop :=
  (∃ block, image.readBlock paddr blockSize = .ok block) ∧
    ∀ volume, HasVolume image blockSize paddr volume →
      ∃ records, readSnapRecords image volume blockSize = .ok records

/-- Everything the audit asks for can be read. -/
def Auditable (image : Image) (blockSize : Nat) (container : ApfsContainer) (addrs : List Nat) :
    Prop :=
  (∀ paddr ∈ addrs, AddrReadable image blockSize paddr) ∧
    ∀ reaperPaddr, container.reaperPaddr = some reaperPaddr →
      ∃ objects, pendingObjects image reaperPaddr container.checkpointMappings blockSize
        = .ok objects

/-- No two snapshots of a volume have one xid. -/
def DistinctXids (image : Image) (blockSize : Nat) (addrs : List Nat) : Prop :=
  ∀ paddr ∈ addrs, ∀ records, HasSnapRecords image blockSize paddr records →
    ((snapshotsOf records).map Snapshot.xid).Nodup

/-! ### The findings of a volume -/

section Volume

variable {image : Image} {volume : ApfsVolume} {blockSize : Nat} {records : List Entry}
  {out : List AnomalyKind} {k : AnomalyKind}

theorem auditVolume_eq :
    auditVolume image volume blockSize = snapshotsAudit image volume blockSize := by
  rw [auditVolume]
  cases snapshotsAudit image volume blockSize with
  | error f => rfl
  | ok out => exact congrArg Except.ok (List.append_nil out)

/-- The audit returns exactly if the snapshot tree can be walked. -/
theorem auditVolume_returns_iff : (∃ out, auditVolume image volume blockSize = .ok out) ↔
    ∃ records, readSnapRecords image volume blockSize = .ok records := by
  rw [auditVolume_eq]
  constructor
  · rintro ⟨out, h⟩
    rw [snapshotsAudit, bind_eq_ok_iff] at h
    obtain ⟨snaps, hsnaps, -⟩ := h
    rw [listSnapshots, forEachSnapRecord_eq_map] at hsnaps
    cases hrecords : readSnapRecords image volume blockSize with
    | ok records => exact ⟨records, rfl⟩
    | error f =>
      rw [hrecords] at hsnaps
      cases hsnaps
  · rintro ⟨records, h⟩
    obtain ⟨snaps, _, haudit⟩ := snapshotsAudit_of_records h
    exact ⟨_, haudit⟩

theorem mem_auditVolume_iff (hrecords : readSnapRecords image volume blockSize = .ok records)
    (hdistinct : ((snapshotsOf records).map Snapshot.xid).Nodup)
    (haudit : auditVolume image volume blockSize = .ok out) :
    k ∈ out ↔ SnapEvidence records k := by
  obtain ⟨snaps, hperm, hout⟩ := snapshotsAudit_of_records hrecords
  rw [auditVolume_eq, hout] at haudit
  cases haudit
  have hnodup : ((creationTimes records).map Prod.fst).Nodup := by
    rw [creationTimes, List.map_map]
    exact hdistinct
  have htimes : (snaps.map fun s => (s.xid, s.createTime)).Perm (creationTimes records) :=
    hperm.map _
  rw [snapshotXidDisorder_of_perm hnodup htimes, List.mem_append]
  constructor
  · rintro (hmem | hmem)
    · obtain ⟨s, hs, rfl⟩ := List.mem_map.mp hmem
      rw [List.mem_filter, decide_eq_true_eq] at hs
      exact .nameAstray (hperm.mem_iff.mp hs.1) hs.2
    · obtain ⟨xid, rfl⟩ := snapshotXidDisorder_kind hmem
      exact .predates ((mem_snapshotXidDisorder_iff hnodup xid).mp hmem)
  · rintro (⟨hs, hne⟩ | ⟨hprev⟩)
    · left
      refine List.mem_map.mpr ⟨_, ?_, rfl⟩
      exact List.mem_filter.mpr ⟨hperm.mem_iff.mpr hs, decide_eq_true hne⟩
    · right
      exact (mem_snapshotXidDisorder_iff hnodup _).mpr hprev

end Volume

/-! ### The findings of the loop -/

section Loop

variable {image : Image} {blockSize paddr : Nat} {addrs : List Nat}
  {out out' : List AnomalyKind} {k : AnomalyKind}

theorem noPanic_parseVolume (block : Bytes) : NoPanic (ApfsVolume.parse block) := by
  rw [ApfsVolume.parse]
  refine .ite (.err _) ?_
  cases ObjPhys.parse block with
  | none => exact .err _
  | some hdr =>
    refine .ite (.err _) (.ite (.err _) ?_)
    exact (noPanic_verifyChecksum block hdr.oid).bind fun _ => .ok _

theorem auditAddr_returns_iff (out : List AnomalyKind) :
    (∃ out', auditAddr image blockSize out paddr = .ok out') ↔
      AddrReadable image blockSize paddr := by
  constructor
  · rintro ⟨out', h⟩
    have hread : ∃ block, image.readBlock paddr blockSize = .ok block := by
      rw [auditAddr, bind_eq_ok_iff] at h
      obtain ⟨block, hread, -⟩ := h
      exact ⟨block, hread⟩
    refine ⟨hread, fun volume hvol => ?_⟩
    obtain ⟨part, -, ⟨volume', hvol', hpart⟩ | ⟨hno, -⟩⟩ := auditAddr_part h
    · cases hvol.symm.trans hvol'
      exact auditVolume_returns_iff.mp ⟨part, hpart⟩
    · exact absurd hvol (hno volume)
  · rintro ⟨⟨block, hread⟩, hsnap⟩
    cases hparse : ApfsVolume.parse block with
    | ok volume =>
      have hvol : HasVolume image blockSize paddr volume := by
        rw [HasVolume, hread, ok_bind, hparse]
      obtain ⟨part, hpart⟩ := auditVolume_returns_iff.mpr (hsnap volume hvol)
      exact ⟨_, auditAddr_of_volume hread hparse hpart⟩
    | error f =>
      cases f with
      | err e => exact ⟨out, auditAddr_of_error hread hparse⟩
      | panic => exact absurd hparse (noPanic_parseVolume block)

theorem mem_auditAddr_iff
    (hdistinct : ∀ records, HasSnapRecords image blockSize paddr records →
      ((snapshotsOf records).map Snapshot.xid).Nodup)
    (h : auditAddr image blockSize out paddr = .ok out') :
    k ∈ out' ↔ k ∈ out ∨
      ∃ records, HasSnapRecords image blockSize paddr records ∧ SnapEvidence records k := by
  obtain ⟨part, rfl, hadds⟩ := auditAddr_part h
  rw [List.mem_append]
  refine or_congr_right ?_
  rcases hadds with ⟨volume, hvol, hpart⟩ | ⟨hno, rfl⟩
  · obtain ⟨records, hrecords⟩ := auditVolume_returns_iff.mp ⟨part, hpart⟩
    have hhas : HasSnapRecords image blockSize paddr records := ⟨volume, hvol, hrecords⟩
    rw [mem_auditVolume_iff hrecords (hdistinct records hhas) hpart]
    constructor
    · intro hk
      exact ⟨records, hhas, hk⟩
    · rintro ⟨records', ⟨volume', hvol', hrecords'⟩, hk⟩
      cases hvol.symm.trans hvol'
      cases hrecords.symm.trans hrecords'
      exact hk
  · constructor
    · intro hk
      exact absurd hk List.not_mem_nil
    · rintro ⟨records, ⟨volume, hvol, _⟩, _⟩
      exact absurd hvol (hno volume)

theorem foldlM_auditAddr_returns_iff : ∀ (addrs : List Nat) (out : List AnomalyKind),
    (∃ out', addrs.foldlM (auditAddr image blockSize) out = .ok out') ↔
      ∀ paddr ∈ addrs, AddrReadable image blockSize paddr := by
  intro addrs
  induction addrs with
  | nil =>
    intro out
    exact iff_of_true ⟨out, rfl⟩ fun _ hmem => absurd hmem List.not_mem_nil
  | cons paddr addrs ih =>
    intro out
    simp only [List.foldlM_cons, List.forall_mem_cons, bind_eq_ok_iff]
    rw [← auditAddr_returns_iff out]
    constructor
    · rintro ⟨out', mid, hfirst, hrest⟩
      exact ⟨⟨mid, hfirst⟩, (ih mid).mp ⟨out', hrest⟩⟩
    · rintro ⟨⟨mid, hfirst⟩, hrest⟩
      obtain ⟨out', hloop⟩ := (ih mid).mpr hrest
      exact ⟨out', mid, hfirst, hloop⟩

/-- **The findings of the loop** are those with evidence at one of the addresses. -/
theorem mem_foldlM_auditAddr_iff : ∀ {addrs : List Nat} {out out' : List AnomalyKind},
    DistinctXids image blockSize addrs → addrs.foldlM (auditAddr image blockSize) out = .ok out' →
    (k ∈ out' ↔ k ∈ out ∨ ∃ paddr ∈ addrs,
      ∃ records, HasSnapRecords image blockSize paddr records ∧ SnapEvidence records k) := by
  intro addrs
  induction addrs with
  | nil =>
    intro out out' _ h
    cases h
    simp
  | cons paddr addrs ih =>
    intro out out' hdistinct h
    rw [List.foldlM_cons, bind_eq_ok_iff] at h
    obtain ⟨mid, hfirst, hrest⟩ := h
    obtain ⟨hhere, hthere⟩ := List.forall_mem_cons.mp hdistinct
    rw [ih hthere hrest, mem_auditAddr_iff hhere hfirst, or_assoc]
    simp only [List.mem_cons, exists_eq_or_imp]

end Loop

/-! ### The report of a container -/

section Report

variable {image : Image} {blockSize : Nat} {container : ApfsContainer} {k : AnomalyKind}

theorem mem_integrityAudit_iff : k ∈ integrityAudit container ↔
    ∃ m ∈ container.checkpointMappings, ∃ m' ∈ container.checkpointMappings,
      m.oid = m'.oid ∧ m.paddr ≠ m'.paddr ∧ k = .xidReuse m.oid container.superblock.xid := by
  rw [integrityAudit, duplicateOidAnomalies_eq, List.mem_map]
  simp only [mem_collisions_iff, TwoAddresses, List.mem_map, Prod.mk.injEq]
  constructor
  · rintro ⟨oid, ⟨p, q, ⟨m, hm, rfl, rfl⟩, ⟨m', hm', hoid, rfl⟩, hne⟩, rfl⟩
    exact ⟨m, hm, m', hm', hoid.symm, hne, rfl⟩
  · rintro ⟨m, hm, m', hm', hoid, hne, rfl⟩
    exact ⟨m.oid, ⟨m.paddr, m'.paddr, ⟨m, hm, rfl, rfl⟩, ⟨m', hm', hoid.symm, rfl⟩, hne⟩, rfl⟩

theorem auditReaper_returns_iff : (∃ leads, auditReaper image blockSize container = .ok leads) ↔
    ∀ reaperPaddr, container.reaperPaddr = some reaperPaddr →
      ∃ objects, pendingObjects image reaperPaddr container.checkpointMappings blockSize
        = .ok objects := by
  rw [auditReaper]
  cases container.reaperPaddr with
  | none => simp
  | some reaperPaddr =>
    simp only [recoveryAudit, bind_eq_ok_iff]
    constructor
    · rintro ⟨leads, objects, hobjects, -⟩ paddr hpaddr
      cases hpaddr
      exact ⟨objects, hobjects⟩
    · intro h
      obtain ⟨objects, hobjects⟩ := h reaperPaddr rfl
      exact ⟨_, objects, hobjects, rfl⟩

theorem mem_auditReaper_iff {leads : List AnomalyKind}
    (h : auditReaper image blockSize container = .ok leads) :
    k ∈ leads ↔ ∃ reaperPaddr objects, container.reaperPaddr = some reaperPaddr ∧
      pendingObjects image reaperPaddr container.checkpointMappings blockSize = .ok objects ∧
      ∃ object ∈ objects, k = .reaperPendingObject object.oid := by
  rw [auditReaper] at h
  cases hreaper : container.reaperPaddr with
  | none =>
    rw [hreaper] at h
    cases h
    simp
  | some reaperPaddr =>
    rw [hreaper] at h
    simp only [recoveryAudit, bind_eq_ok_iff] at h
    obtain ⟨objects, hobjects, h⟩ := h
    cases h
    rw [reaperAnomalies, List.map_map, List.mem_map]
    constructor
    · rintro ⟨object, hmem, rfl⟩
      exact ⟨reaperPaddr, objects, rfl, hobjects, object, hmem, rfl⟩
    · rintro ⟨paddr, objects', hpaddr, hobjects', object, hmem, rfl⟩
      cases hpaddr
      cases hobjects.symm.trans hobjects'
      exact ⟨object, hmem, rfl⟩

theorem auditAddrs_eq_ok_iff {addrs : List Nat} {findings : List AnomalyKind} :
    auditAddrs image blockSize container addrs = .ok findings ↔
      ∃ out leads, addrs.foldlM (auditAddr image blockSize) (integrityAudit container) = .ok out ∧
        auditReaper image blockSize container = .ok leads ∧ findings = out ++ leads := by
  simp only [auditAddrs, bind_eq_ok_iff]
  constructor
  · rintro ⟨out, hout, leads, hleads, h⟩
    exact ⟨out, leads, hout, hleads, (Except.ok.inj h).symm⟩
  · rintro ⟨out, leads, hout, hleads, rfl⟩
    exact ⟨out, hout, leads, hleads, rfl⟩

/-- Only an object with two addresses is graded high. -/
theorem Evidence.severity_eq_high_iff {addrs : List Nat}
    (h : Evidence image blockSize container addrs k) :
    k.severity = .high ↔ ∃ oid, k = .xidReuse oid container.superblock.xid := by
  cases h with
  | twoAddresses => exact iff_of_true rfl ⟨_, rfl⟩
  | snapshot _ _ hk => cases hk <;> exact iff_of_false nofun nofun
  | pending => exact iff_of_false nofun nofun

end Report

/-- **What the audit reports.**  Once the container is open and its volumes are found,
`audit_container` returns exactly if every superblock can be read, the snapshot tree of every
volume can be walked and so can the reaper.  If the snapshots of a volume have distinct xids,
its findings are those with evidence in the container: an object that is mapped to two blocks,
a snapshot whose name leads elsewhere or nowhere, a snapshot that predates the one before it,
and an object that waits in the reaper.  Only the first is graded high. -/
theorem audit_reports_evidence {image : Image} {container : ApfsContainer} {addrs : List Nat}
    {blockSize : Nat} (hopen : openContainer image = .ok container)
    (haddrs : volumeSuperblockAddrs image container = .ok addrs) :
    ((∃ findings, auditContainer image blockSize = .ok findings) ↔
      Auditable image blockSize container addrs) ∧
    (DistinctXids image blockSize addrs →
      ∀ findings, auditContainer image blockSize = .ok findings → ∀ k,
        (k ∈ findings ↔ Evidence image blockSize container addrs k) ∧
        (k ∈ findings →
          (k.severity = .high ↔ ∃ oid, k = .xidReuse oid container.superblock.xid))) := by
  rw [auditContainer_eq hopen haddrs]
  simp only [auditAddrs_eq_ok_iff]
  refine ⟨?_, ?_⟩
  · rw [Auditable, ← foldlM_auditAddr_returns_iff addrs (integrityAudit container),
      ← auditReaper_returns_iff]
    constructor
    · rintro ⟨findings, out, leads, hout, hleads, -⟩
      exact ⟨⟨out, hout⟩, leads, hleads⟩
    · rintro ⟨⟨out, hout⟩, leads, hleads⟩
      exact ⟨out ++ leads, out, leads, hout, hleads, rfl⟩
  · rintro hdistinct findings ⟨out, leads, hout, hleads, rfl⟩ k
    have hmem : k ∈ out ++ leads ↔ Evidence image blockSize container addrs k := by
      rw [List.mem_append, mem_foldlM_auditAddr_iff hdistinct hout, mem_auditReaper_iff hleads,
        mem_integrityAudit_iff]
      constructor
      · rintro ((⟨m, hm, m', hm', hoid, hne, rfl⟩ | ⟨paddr, hpaddr, records, hrecords, hk⟩) |
          ⟨reaperPaddr, objects, hreaper, hobjects, object, hobject, rfl⟩)
        · exact .twoAddresses hm hm' hoid hne
        · exact .snapshot hpaddr hrecords hk
        · exact .pending hreaper hobjects hobject
      · rintro (⟨hm, hm', hoid, hne⟩ | ⟨hpaddr, hrecords, hk⟩ | ⟨hreaper, hobjects, hobject⟩)
        · exact .inl (.inl ⟨_, hm, _, hm', hoid, hne, rfl⟩)
        · exact .inl (.inr ⟨_, hpaddr, _, hrecords, hk⟩)
        · exact .inr ⟨_, _, hreaper, hobjects, _, hobject, rfl⟩
    exact ⟨hmem, fun hk => (hmem.mp hk).severity_eq_high_iff⟩

theorem snapEvidence_nameless :
    SnapEvidence namelessRecords (.snapshotMissingMetadata "") := by
  have hsnaps : snapshotsOf namelessRecords = [parseSnapMetadata 1 (toLeBytes 8 0)] := by
    decide +kernel
  have hempty : (parseSnapMetadata 1 (toLeBytes 8 0)).name = "" := by decide +kernel
  rw [← hempty]
  refine .nameAstray (hsnaps ▸ List.mem_cons_self) ?_
  decide +kernel

/-- The snapshot without a name, once more: its evidence gives the finding. -/
theorem audit_reports_namelessImage :
    ∃ findings, auditContainer namelessImage 4096 = .ok findings ∧
      .snapshotMissingMetadata "" ∈ findings := by
  have hblocks : namelessImage.HasBlocks 4096 _ :=
    hasBlocks_nameless 1026 (length_apsbBlock (by decide) 1026 2 2 1028 5)
  have hapsb : (namelessBlocks 1026 (apsbBlock 4096 1026 2 2 1028 5))[4]?
      = some (apsbBlock 4096 1026 2 2 1028 5) := rfl
  have hread := hblocks.readBlock hapsb
  have hvol : HasVolume namelessImage 4096 4 (soleVolume 2 5) := by
    rw [HasVolume, hread, ok_bind, namelessHeaders.1]
  have hsnap : readSnapRecords namelessImage (soleVolume 2 5) 4096 = .ok namelessRecords :=
    readSnapRecords_snapLeafImage (length_btreeNode (by decide +kernel) ..) namelessHeaders.2.1
  have honly : ∀ records, HasSnapRecords namelessImage 4096 4 records →
      records = namelessRecords := by
    rintro records ⟨volume, hvolume, hrecords⟩
    cases hvol.symm.trans hvolume
    exact Except.ok.inj (hrecords.symm.trans hsnap)
  obtain ⟨container, hopen, _, hmappings, haddrs⟩ := openContainer_volumeTree hblocks
  have hreaper : container.reaperPaddr = none := by
    rw [reaperPaddr, resolveEphemeral, hmappings]
    rfl
  obtain ⟨hreturns, hfindings⟩ := audit_reports_evidence hopen haddrs
  have hreadable : AddrReadable namelessImage 4096 4 := by
    refine ⟨⟨_, hread⟩, fun volume hvolume => ?_⟩
    cases hvol.symm.trans hvolume
    exact ⟨_, hsnap⟩
  obtain ⟨findings, haudit⟩ := hreturns.mpr ⟨List.forall_mem_singleton.mpr hreadable,
    fun reaperPaddr h => by rw [hreaper] at h; cases h⟩
  have hdistinct : DistinctXids namelessImage 4096 [4] := by
    refine List.forall_mem_singleton.mpr fun records hrecords => ?_
    rw [honly records hrecords]
    decide +kernel
  refine ⟨findings, haudit, (hfindings hdistinct findings haudit _).1.mpr ?_⟩
  exact .snapshot List.mem_cons_self ⟨soleVolume 2 5, hvol, hsnap⟩ snapEvidence_nameless

end ApfsForensic
