import ApfsForensic.Core.ApfsContainer
import ApfsForensic.Core.Reaper
import ApfsForensic.Core.Snapshot

/-!
# The audit of a container

`forensic/src/lib.rs`, with the audits that `audit_container` and `audit_volume` call:
`integrity.rs`, `snapshots.rs`, `clones.rs` and `recovery.rs`.

The driver goes through the volume superblocks.  An address that cannot be read and a
volume whose trees cannot be walked end the audit with their error; a block that is no
volume superblock is passed over.

* `auditAddr_part`, `foldlM_auditAddr`: what one address, and all of them, add to the
  findings.
* `audit_container_accounts_iff`: every volume is accounted for in the findings exactly
  if the superblock of every volume parses.
-/

namespace ApfsForensic

open ApfsContainer

/-! ### Anomalies -/

/-- `AnomalyKind`. -/
inductive AnomalyKind where
  | objectChecksumMismatch (block stored computed : Nat)
  | omapInconsistent (oid xid : Nat)
  | omapOrphanMapping (oid : Nat)
  | checkpointRingMalformed (detail : String)
  | checkpointSupersededState (xid : Nat)
  | snapshotXidDisorder (xid : Nat)
  | snapshotMissingMetadata (name : String)
  | snapshotDivergence (inode : Nat)
  | sealedVolumeHashMismatch (inode : Nat)
  | sealedVolumeBroken (brokenXid : Nat)
  | deletedInodeRecoverable (oid : Nat)
  | deletedExtentCarveCandidate (block : Nat)
  | reaperPendingObject (oid : Nat)
  | cloneSharedExtent (inodeA inodeB : Nat)
  | cloneFlagWithoutSharing (inode : Nat)
  | encryptionLocked
  | encryptionState (detail : String)
  | encryptionKeybagAnomaly (rawTag offset : Nat)
  | timestampZeroed (inode : Nat)
  | timestampOrder (inode : Nat)
  | xidReuse (oid xid : Nat)
  | orphanInode (oid : Nat)
  | volumeRoleMismatch (detail : String)
  deriving DecidableEq, Repr

/-! ### The audits -/

/-- `duplicate_oid_anomalies`. -/
def duplicateOidAnomalies (mappings : List (Nat × Nat)) (liveXid : Nat) : List AnomalyKind :=
  (List.range mappings.length).filterMap fun i =>
    match mappings[i]? with
    | none => none
    | some (oid, paddr) =>
      let already := (mappings.take i).any fun m => m.1 = oid
      let collides := (mappings.drop (i + 1)).any fun m => m.1 = oid ∧ m.2 ≠ paddr
      if !already ∧ collides then some (.xidReuse oid liveXid) else none

/-- `integrity::audit`. -/
def integrityAudit (container : ApfsContainer) : List AnomalyKind :=
  duplicateOidAnomalies (container.checkpointMappings.map fun m => (m.oid, m.paddr))
    container.superblock.xid

/-- `snapshot_xid_disorder`. -/
def snapshotXidDisorder (snaps : List (Nat × Nat)) : List AnomalyKind :=
  let sorted := snaps.insertionSort (fun a b => a.1 ≤ b.1)
  (sorted.zip sorted.tail).filterMap fun w =>
    if w.1.2 ≠ 0 ∧ w.2.2 ≠ 0 ∧ w.2.2 < w.1.2 then some (.snapshotXidDisorder w.2.1) else none

/-- `snapshots::audit`. -/
def snapshotsAudit (image : Image) (volume : ApfsVolume) (blockSize : Nat) :
    Result (List AnomalyKind) := do
  let snaps ← listSnapshots image volume blockSize
  let out ← snaps.foldlM (fun out s => do
    let found ← resolveSnapshotXid image volume blockSize s.name
    return if found = some s.xid then out else out ++ [.snapshotMissingMetadata s.name]) []
  return out ++ snapshotXidDisorder (snaps.map fun s => (s.xid, s.createTime))

/-- `clone_anomalies`. -/
def cloneAnomalies (shared : List (Nat × Nat)) (flaggedUnshared : List Nat) : List AnomalyKind :=
  shared.map (fun p => .cloneSharedExtent p.1 p.2) ++ flaggedUnshared.map .cloneFlagWithoutSharing

/-- `clones::audit`: nothing reads the extent references yet. -/
def clonesAudit (_image : Image) (_volume : ApfsVolume) : List AnomalyKind := cloneAnomalies [] []

/-- `reaper_anomalies`. -/
def reaperAnomalies (pendingOids : List Nat) : List AnomalyKind :=
  pendingOids.map .reaperPendingObject

/-- `recovery::audit`. -/
def recoveryAudit (image : Image) (reaperPaddr : Nat) (mappings : List CheckpointMapping)
    (blockSize : Nat) : Result (List AnomalyKind) := do
  let pending ← pendingObjects image reaperPaddr mappings blockSize
  return reaperAnomalies (pending.map ReapPending.oid)

/-- `audit_volume`. -/
def auditVolume (image : Image) (volume : ApfsVolume) (blockSize : Nat) :
    Result (List AnomalyKind) := do
  let out ← snapshotsAudit image volume blockSize
  return out ++ clonesAudit image volume

/-! ### The driver -/

section Driver

variable (image : Image) (blockSize : Nat)

/-- The loop body of `audit_container`. -/
def auditAddr (out : List AnomalyKind) (paddr : Nat) : Result (List AnomalyKind) := do
  let block ← image.readBlock paddr blockSize
  match ApfsVolume.parse block with
  | .ok volume => do
    let findings ← auditVolume image volume blockSize
    return out ++ findings
  | .error (.err _) => return out
  | .error .panic => throw .panic

/-- The last part of `audit_container`. -/
def auditReaper (container : ApfsContainer) : Result (List AnomalyKind) :=
  match container.reaperPaddr with
  | some reaperPaddr => recoveryAudit image reaperPaddr container.checkpointMappings blockSize
  | none => .ok []

/-- `audit_container` from the loop on, for these volume superblocks. -/
def auditAddrs (container : ApfsContainer) (apsbAddrs : List Nat) : Result (List AnomalyKind) := do
  let out ← apsbAddrs.foldlM (auditAddr image blockSize) (integrityAudit container)
  let leads ← auditReaper image blockSize container
  return out ++ leads

/-- `audit_container`. -/
def auditContainer : Result (List AnomalyKind) := do
  let container ← openContainer image
  let apsbAddrs ← volumeSuperblockAddrs image container
  auditAddrs image blockSize container apsbAddrs

end Driver

/-! ### What an address adds -/

/-- There is a volume superblock at the address. -/
def HasVolume (image : Image) (blockSize paddr : Nat) (volume : ApfsVolume) : Prop :=
  (image.readBlock paddr blockSize >>= ApfsVolume.parse) = .ok volume

/-- The volume at the address was audited, and these are its findings. -/
def Audited (image : Image) (blockSize paddr : Nat) (part : List AnomalyKind) : Prop :=
  ∃ volume, HasVolume image blockSize paddr volume ∧ auditVolume image volume blockSize = .ok part

/-- What the driver adds for an address. -/
def Adds (image : Image) (blockSize paddr : Nat) (part : List AnomalyKind) : Prop :=
  Audited image blockSize paddr part ∨
    (∀ volume, ¬ HasVolume image blockSize paddr volume) ∧ part = []

/-- What it should add: a block that is no superblock is worth at least one anomaly. -/
def AccountsFor (image : Image) (blockSize paddr : Nat) (part : List AnomalyKind) : Prop :=
  Audited image blockSize paddr part ∨
    (∀ volume, ¬ HasVolume image blockSize paddr volume) ∧ part ≠ []

/-- The findings account for every volume, in order, between those of the container and
those of the reaper. -/
def Accounted (image : Image) (blockSize : Nat) (container : ApfsContainer) (addrs : List Nat)
    (findings : List AnomalyKind) : Prop :=
  ∃ parts leads, findings = integrityAudit container ++ parts.flatten ++ leads ∧
    List.Forall₂ (AccountsFor image blockSize) addrs parts ∧
    auditReaper image blockSize container = .ok leads

section Parts

variable {image : Image} {blockSize paddr : Nat} {out out' : List AnomalyKind} {addrs : List Nat}

theorem auditAddr_part (h : auditAddr image blockSize out paddr = .ok out') :
    ∃ part, out' = out ++ part ∧ Adds image blockSize paddr part := by
  rw [auditAddr, bind_eq_ok_iff] at h
  obtain ⟨block, hread, h⟩ := h
  have hparse : ∀ volume, HasVolume image blockSize paddr volume ↔
      ApfsVolume.parse block = .ok volume := by
    intro volume
    rw [HasVolume, hread, ok_bind]
  cases hblock : ApfsVolume.parse block with
  | ok volume =>
    rw [hblock] at h
    simp only [bind_eq_ok_iff] at h
    obtain ⟨part, hpart, h⟩ := h
    cases h
    exact ⟨part, rfl, Or.inl ⟨volume, (hparse volume).mpr hblock, hpart⟩⟩
  | error f =>
    cases f with
    | err e =>
      rw [hblock] at h
      cases h
      refine ⟨[], (List.append_nil _).symm, Or.inr ⟨fun volume hvol => ?_, rfl⟩⟩
      rw [hparse, hblock] at hvol
      cases hvol
    | panic => rw [hblock] at h; cases h

/-- **The findings of the loop are those of the addresses, in order.** -/
theorem foldlM_auditAddr :
    ∀ {addrs : List Nat} {out out' : List AnomalyKind},
      addrs.foldlM (auditAddr image blockSize) out = .ok out' →
      ∃ parts, out' = out ++ parts.flatten ∧ List.Forall₂ (Adds image blockSize) addrs parts := by
  intro addrs
  induction addrs with
  | nil =>
    intro out out' h
    cases h
    exact ⟨[], (List.append_nil _).symm, .nil⟩
  | cons paddr addrs ih =>
    intro out out' h
    rw [List.foldlM_cons, bind_eq_ok_iff] at h
    obtain ⟨mid, hfirst, hrest⟩ := h
    obtain ⟨part, rfl, hpart⟩ := auditAddr_part hfirst
    obtain ⟨parts, rfl, hparts⟩ := ih hrest
    exact ⟨part :: parts, by rw [List.flatten_cons, List.append_assoc], .cons hpart hparts⟩

/-- The driver never adds more than it should. -/
theorem Adds.length_le {part part' : List AnomalyKind} (h : Adds image blockSize paddr part)
    (h' : AccountsFor image blockSize paddr part') : part.length ≤ part'.length := by
  rcases h with ⟨volume, hvol, hpart⟩ | ⟨_, rfl⟩
  · rcases h' with ⟨volume', hvol', hpart'⟩ | ⟨hno, _⟩
    · have heq : volume = volume' := Except.ok.inj (hvol.symm.trans hvol')
      subst heq
      rw [Except.ok.inj (hpart.symm.trans hpart')]
    · exact absurd hvol (hno volume)
  · exact Nat.zero_le _

/-- Where the lengths agree there is a superblock behind every address. -/
theorem hasVolume_of_length {parts parts' : List (List AnomalyKind)}
    (h : List.Forall₂ (Adds image blockSize) addrs parts)
    (h' : List.Forall₂ (AccountsFor image blockSize) addrs parts') :
    parts.flatten.length ≤ parts'.flatten.length ∧
      (parts.flatten.length = parts'.flatten.length →
        ∀ paddr ∈ addrs, ∃ volume, HasVolume image blockSize paddr volume) := by
  induction h generalizing parts' with
  | nil =>
    cases h'
    exact ⟨le_rfl, fun _ paddr hmem => absurd hmem List.not_mem_nil⟩
  | @cons paddr part addrs parts hpart _ ih =>
    cases h' with
    | @cons _ part' _ parts' hpart' hparts' =>
      obtain ⟨hle, hall⟩ := ih hparts'
      have hfirst := hpart.length_le hpart'
      rw [List.flatten_cons, List.flatten_cons, List.length_append, List.length_append]
      refine ⟨by omega, fun heq => ?_⟩
      rw [List.forall_mem_cons]
      refine ⟨?_, hall (by omega)⟩
      rcases hpart' with ⟨volume, hvol, _⟩ | ⟨hno, hne⟩
      · exact ⟨volume, hvol⟩
      · -- the driver has added nothing here, so it is behind
        rcases hpart with ⟨volume, hvol, _⟩ | ⟨_, rfl⟩
        · exact ⟨volume, hvol⟩
        · have hpos := List.length_pos_iff.mpr hne
          rw [List.length_nil] at heq hfirst
          omega

theorem hasVolume_of_accounted {container : ApfsContainer} {findings : List AnomalyKind}
    (haudit : auditAddrs image blockSize container addrs = .ok findings)
    (h : Accounted image blockSize container addrs findings) :
    ∀ paddr ∈ addrs, ∃ volume, HasVolume image blockSize paddr volume := by
  simp only [auditAddrs, bind_eq_ok_iff] at haudit
  obtain ⟨out, hloop, leads, hleads, heq⟩ := haudit
  obtain ⟨parts, rfl, hparts⟩ := foldlM_auditAddr hloop
  obtain ⟨parts', leads', rfl, hparts', hleads'⟩ := h
  cases hleads.symm.trans hleads'
  have hlen := congrArg List.length (Except.ok.inj heq)
  simp only [List.length_append] at hlen
  exact (hasVolume_of_length hparts hparts').2 (by omega)

theorem accounted_of_hasVolume {container : ApfsContainer} {findings : List AnomalyKind}
    (haudit : auditAddrs image blockSize container addrs = .ok findings)
    (h : ∀ paddr ∈ addrs, ∃ volume, HasVolume image blockSize paddr volume) :
    Accounted image blockSize container addrs findings := by
  simp only [auditAddrs, bind_eq_ok_iff] at haudit
  obtain ⟨out, hloop, leads, hleads, heq⟩ := haudit
  obtain ⟨parts, rfl, hparts⟩ := foldlM_auditAddr hloop
  refine ⟨parts, leads, (Except.ok.inj heq).symm, ?_, hleads⟩
  refine List.forall₂_iff_zip.mpr ⟨hparts.length_eq, fun {paddr part} hmem => ?_⟩
  rcases (List.forall₂_iff_zip.mp hparts).2 hmem with haudited | ⟨hno, _⟩
  · exact Or.inl haudited
  · obtain ⟨volume, hvol⟩ := h paddr (List.of_mem_zip hmem).1
    exact absurd hvol (hno volume)

/-- Without an address that is passed over the loop does the same. -/
theorem auditAddrs_erase {container : ApfsContainer} {findings : List AnomalyKind}
    {before after : List Nat}
    (haudit : auditAddrs image blockSize container (before ++ paddr :: after) = .ok findings)
    (hno : ∀ volume, ¬ HasVolume image blockSize paddr volume) :
    auditAddrs image blockSize container (before ++ after) = .ok findings := by
  rw [auditAddrs, bind_eq_ok_iff] at haudit
  obtain ⟨out, hloop, hrest⟩ := haudit
  rw [List.foldlM_append, bind_eq_ok_iff] at hloop
  obtain ⟨mid, hbefore, hloop⟩ := hloop
  rw [List.foldlM_cons, bind_eq_ok_iff] at hloop
  obtain ⟨mid', hskip, hafter⟩ := hloop
  have heq : mid' = mid := by
    obtain ⟨part, rfl, ⟨volume, hvol, _⟩ | ⟨_, rfl⟩⟩ := auditAddr_part hskip
    · exact absurd hvol (hno volume)
    · exact List.append_nil _
  subst heq
  rw [auditAddrs, List.foldlM_append, hbefore, ok_bind, hafter, ok_bind]
  exact hrest

end Parts

/-! ### Every volume is accounted for -/

theorem auditContainer_eq {image : Image} {container : ApfsContainer} {addrs : List Nat}
    (hopen : openContainer image = .ok container)
    (haddrs : volumeSuperblockAddrs image container = .ok addrs) (blockSize : Nat) :
    auditContainer image blockSize = auditAddrs image blockSize container addrs := by
  rw [auditContainer, hopen, ok_bind, haddrs, ok_bind]

section Answers

variable {image : Image} {blockSize paddr : Nat} {block : Bytes} {out findings : List AnomalyKind}

theorem auditAddr_of_volume {volume : ApfsVolume}
    (hread : image.readBlock paddr blockSize = .ok block)
    (hparse : ApfsVolume.parse block = .ok volume)
    (hvolume : auditVolume image volume blockSize = .ok findings) :
    auditAddr image blockSize out paddr = .ok (out ++ findings) := by
  rw [auditAddr, hread, ok_bind, hparse]
  simp only [hvolume]
  rfl

theorem auditAddr_of_error {e : ApfsError} (hread : image.readBlock paddr blockSize = .ok block)
    (hparse : ApfsVolume.parse block = .error (.err e)) :
    auditAddr image blockSize out paddr = .ok out := by
  rw [auditAddr, hread, ok_bind, hparse]
  rfl

/-- One snapshot, whose name leads elsewhere or nowhere. -/
theorem auditVolume_of_nameless {volume : ApfsVolume} {s : Snapshot} {found : Option Nat}
    (hsnaps : listSnapshots image volume blockSize = .ok [s])
    (hname : resolveSnapshotXid image volume blockSize s.name = .ok found)
    (hne : found ≠ some s.xid) :
    auditVolume image volume blockSize = .ok [.snapshotMissingMetadata s.name] := by
  rw [auditVolume, snapshotsAudit, hsnaps, ok_bind, List.foldlM_cons, hname]
  simp only [ok_bind, if_neg hne]
  rfl

/-- Without checkpoint mappings only the volumes have findings. -/
theorem auditAddrs_of_mappings_nil {container : ApfsContainer} {addrs : List Nat}
    (h : container.checkpointMappings = []) :
    auditAddrs image blockSize container addrs
      = addrs.foldlM (auditAddr image blockSize) [] := by
  have hintegrity : integrityAudit container = [] := by
    rw [integrityAudit, h]
    rfl
  have hreaper : auditReaper image blockSize container = .ok [] := by
    rw [auditReaper, reaperPaddr, resolveEphemeral, h]
    rfl
  rw [auditAddrs, hintegrity, hreaper]
  cases addrs.foldlM (auditAddr image blockSize) [] with
  | ok out => exact congrArg Except.ok (List.append_nil out)
  | error f => rfl

end Answers

/-- **When no volume is skipped silently.**  The findings account for every volume exactly
if every volume superblock parses; and exactly then no superblock could be missing from the
container without a change of the result. -/
theorem audit_container_accounts_iff {image : Image} {container : ApfsContainer}
    {addrs : List Nat} {findings : List AnomalyKind}
    (hopen : openContainer image = .ok container)
    (haddrs : volumeSuperblockAddrs image container = .ok addrs)
    (haudit : auditContainer image container.superblock.blockSize = .ok findings) :
    (Accounted image container.superblock.blockSize container addrs findings ↔
      ∀ paddr ∈ addrs, ∃ volume,
        HasVolume image container.superblock.blockSize paddr volume) ∧
    ((∀ before paddr after, addrs = before ++ paddr :: after →
        (∀ volume, ¬ HasVolume image container.superblock.blockSize paddr volume) →
        auditAddrs image container.superblock.blockSize container (before ++ after)
          ≠ .ok findings) ↔
      ∀ paddr ∈ addrs, ∃ volume,
        HasVolume image container.superblock.blockSize paddr volume) := by
  rw [auditContainer_eq hopen haddrs] at haudit
  refine ⟨⟨hasVolume_of_accounted haudit, accounted_of_hasVolume haudit⟩, fun h paddr hmem => ?_,
    fun h before paddr after hsplit hno => ?_⟩
  · obtain ⟨before, after, rfl⟩ := List.append_of_mem hmem
    by_contra hno
    rw [not_exists] at hno
    exact h before paddr after rfl hno (auditAddrs_erase haudit hno)
  · obtain ⟨volume, hvol⟩ := h paddr (hsplit ▸ List.mem_append_right _ List.mem_cons_self)
    exact absurd hvol (hno volume)

/-! A volume with one snapshot, whose name has no record. -/

def namelessRecords : List Entry := [⟨jkeyBytes 1 1, toLeBytes 8 0⟩]

/-- The container, with this block for the volume superblock. -/
def namelessBlocks (fsOid : Nat) (apsb : Bytes) : List Bytes :=
  oneVolumeBlocks 4096 fsOid volumeTree [apsb, btreeNode 4096 5 2 0x3 0 namelessRecords]

def namelessImage : Image := .ofBlocks (namelessBlocks 1026 (apsbBlock 4096 1026 2 2 1028 5))

/-- One byte of the superblock is not what was written. -/
def damagedApsb : Bytes := (apsbBlock 4096 1026 2 2 1028 5).set 1000 1

def damagedImage : Image := .ofBlocks (namelessBlocks 1026 damagedApsb)

/-- The slot of the damaged volume is empty. -/
def emptySlotImage : Image := .ofBlocks (namelessBlocks 0 damagedApsb)

/-- What the blocks of the volume say. -/
def NamelessHeaders : Prop :=
  ApfsVolume.parse (apsbBlock 4096 1026 2 2 1028 5) = .ok (soleVolume 2 5) ∧
  nodeView (btreeNode 4096 5 2 0x3 0 namelessRecords) .fsTree = .leaf namelessRecords ∧
  ApfsVolume.parse damagedApsb = .error (.err (.checksumMismatch 1026
    4235179287556540035 4235182611861226364))

instance : Decidable NamelessHeaders := inferInstanceAs (Decidable (_ ∧ _))

theorem namelessHeaders : NamelessHeaders := by decide +kernel

theorem oneVolumeHeaders_empty : OneVolumeHeaders 4096 0 := by decide +kernel

theorem length_damagedApsb : damagedApsb.length = 4096 := by
  rw [damagedApsb, List.length_set, length_apsbBlock (by decide)]

section Runs

variable {image : Image} {apsb : Bytes}

theorem hasBlocks_nameless (fsOid : Nat) (h : apsb.length = 4096) :
    (Image.ofBlocks (namelessBlocks fsOid apsb)).HasBlocks 4096 (namelessBlocks fsOid apsb) := by
  refine Image.hasBlocks_ofBlocks (length_oneVolumeBlocks le_rfl (length_btreeNode (by decide) ..)
    ?_) (show 6 * 4096 ≤ u64Max by decide)
  intro b hb
  simp only [List.mem_cons, List.not_mem_nil, or_false] at hb
  rcases hb with rfl | rfl
  · exact h
  · exact length_btreeNode (by decide) ..

theorem auditVolume_nameless (hblocks : image.HasBlocks 4096 (namelessBlocks 1026 apsb)) :
    auditVolume image (soleVolume 2 5) 4096 = .ok [.snapshotMissingMetadata ""] := by
  have hroot : (namelessBlocks 1026 apsb)[5]?
      = some (btreeNode 4096 5 2 0x3 0 namelessRecords) := rfl
  have hvalid : ValidSnapTree image (soleVolume 2 5) 4096 ⟨0, 0x40000002, 3, 0⟩
      (.leaf (.root 5) namelessRecords) :=
    validSnapTree_leaf (readObjectMap_oneVolume hblocks oneVolumeHeaders_4096)
      (hblocks.readBlock hroot) (btreeNode_verifies ..) namelessHeaders.2.1
  have hne : ∀ oid, .child oid ∈ (Walk.Tree.leaf (.root 5) namelessRecords : SnapTree).nodes →
      oid ≠ (soleVolume 2 5).snapMetaTreeOid := by simp [Walk.Tree.nodes]
  have hsnaps : listSnapshots image (soleVolume 2 5) 4096
      = .ok [parseSnapMetadata 1 (toLeBytes 8 0)] := by
    rw [listSnapshots_ok hvalid hne]
    decide +kernel
  have hname : resolveSnapshotXid image (soleVolume 2 5) 4096
      (parseSnapMetadata 1 (toLeBytes 8 0)).name = .ok none := by
    rw [resolveSnapshotXid, forEachSnapRecord_ok hvalid hne]
    decide +kernel
  have hempty : (parseSnapMetadata 1 (toLeBytes 8 0)).name = "" := by decide +kernel
  rw [← hempty]
  exact auditVolume_of_nameless hsnaps hname (by simp)

end Runs

theorem audit_accounts_namelessImage :
    ∃ container, openContainer namelessImage = .ok container ∧
      Accounted namelessImage container.superblock.blockSize container [4]
        [.snapshotMissingMetadata ""] := by
  have hblocks : namelessImage.HasBlocks 4096 _ :=
    hasBlocks_nameless 1026 (length_apsbBlock (by decide) 1026 2 2 1028 5)
  have hapsb : (namelessBlocks 1026 (apsbBlock 4096 1026 2 2 1028 5))[4]?
      = some (apsbBlock 4096 1026 2 2 1028 5) := rfl
  have hread := hblocks.readBlock hapsb
  obtain ⟨container, hopen, hsb, hmappings, haddrs⟩ := openContainer_volumeTree hblocks
  have hsize : container.superblock.blockSize = 4096 := by rw [hsb]; rfl
  have haudit : auditContainer namelessImage container.superblock.blockSize
      = .ok [.snapshotMissingMetadata ""] := by
    rw [auditContainer_eq hopen haddrs, auditAddrs_of_mappings_nil hmappings, hsize,
      List.foldlM_cons,
      auditAddr_of_volume hread namelessHeaders.1 (auditVolume_nameless hblocks), ok_bind]
    rfl
  refine ⟨container, hopen, (audit_container_accounts_iff hopen haddrs haudit).1.mpr ?_⟩
  rw [List.forall_mem_singleton, hsize]
  exact ⟨soleVolume 2 5, by rw [HasVolume, hread, ok_bind, namelessHeaders.1]⟩

/-- The damaged volume is passed over: the audit finds nothing, as in the container
where its slot is empty. -/
theorem audit_damagedImage :
    (∃ container, openContainer damagedImage = .ok container ∧
      container.superblock.blockSize = 4096 ∧
      volumeSuperblockAddrs damagedImage container = .ok [4] ∧
      (∀ volume, ¬ HasVolume damagedImage 4096 4 volume) ∧
      ¬ Accounted damagedImage 4096 container [4] []) ∧
    auditContainer damagedImage 4096 = .ok [] ∧
    (∃ container, openContainer emptySlotImage = .ok container ∧
      volumeSuperblockAddrs emptySlotImage container = .ok []) ∧
    auditContainer emptySlotImage 4096 = .ok [] := by
  have hblocks : damagedImage.HasBlocks 4096 _ := hasBlocks_nameless 1026 length_damagedApsb
  have hblocks0 : emptySlotImage.HasBlocks 4096 _ := hasBlocks_nameless 0 length_damagedApsb
  have hapsb : (namelessBlocks 1026 damagedApsb)[4]? = some damagedApsb := rfl
  have hread := hblocks.readBlock hapsb
  have hno : ∀ volume, ¬ HasVolume damagedImage 4096 4 volume := by
    intro volume hvol
    rw [HasVolume, hread, ok_bind, namelessHeaders.2.2] at hvol
    cases hvol
  obtain ⟨container, hopen, hsb, hmappings, haddrs⟩ := openContainer_volumeTree hblocks
  have haudit : auditAddrs damagedImage 4096 container [4] = .ok [] := by
    rw [auditAddrs_of_mappings_nil hmappings, List.foldlM_cons,
      auditAddr_of_error hread namelessHeaders.2.2]
    rfl
  obtain ⟨container0, hopen0, hsb0, hmappings0⟩ := openContainer_oneVolume (by decide) hblocks0
    oneVolumeHeaders_empty
  have haddrs0 : volumeSuperblockAddrs emptySlotImage container0 = .ok [] := by
    rw [volumeSuperblockAddrs_eq (by decide) hblocks0 oneVolumeHeaders_empty hsb0]
    rfl
  refine ⟨⟨container, hopen, by rw [hsb]; rfl, haddrs, hno, fun hacc => ?_⟩, ?_,
    ⟨container0, hopen0, haddrs0⟩, ?_⟩
  · obtain ⟨volume, hvol⟩ := hasVolume_of_accounted haudit hacc 4 List.mem_cons_self
    exact hno volume hvol
  · rw [auditContainer_eq hopen haddrs, haudit]
  · rw [auditContainer_eq hopen0 haddrs0, auditAddrs_of_mappings_nil hmappings0]
    rfl

end ApfsForensic
