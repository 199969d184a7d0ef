import ApfsForensic.Core.FsObjects
import ApfsForensic.Core.Snapshot

/-!
# Snapshot records as they are written

The tree of snapshots has two records for a snapshot: its metadata under its xid, and its xid under
its name.  `SnapObject` is such a record, and `snapshotsOf_records` says that of a list of them
the reader finds the snapshots as they were written and passes over the names.
-/

namespace ApfsForensic

namespace Snapshot

/-- The numbers of a snapshot fit their fields, and so does its name. -/
structure Fits (s : Snapshot) : Prop where
  xid_lt : s.xid < 2 ^ 60
  extentrefTreeOid_lt : s.extentrefTreeOid < 2 ^ 64
  sblockOid_lt : s.sblockOid < 2 ^ 64
  createTime_lt : s.createTime < 2 ^ 64
  changeTime_lt : s.changeTime < 2 ^ 64
  inum_lt : s.inum < 2 ^ 64
  flags_lt : s.flags < 2 ^ 32
  no_nul : 0 ∉ utf8Bytes s.name
  length_name : (utf8Bytes s.name).length < maxSnapNameLen

/-- The name with its terminator. -/
def cname (s : Snapshot) : Bytes := utf8Bytes s.name ++ [0]

/-- `j_snap_metadata_val_t`.  The type of the extent-reference tree is not read. -/
def value (s : Snapshot) : Bytes :=
  toLeBytes 8 s.extentrefTreeOid ++ (toLeBytes 8 s.sblockOid ++ (toLeBytes 8 s.createTime ++
    (toLeBytes 8 s.changeTime ++ (toLeBytes 8 s.inum ++ (toLeBytes 4 0 ++ (toLeBytes 4 s.flags ++
      (toLeBytes 2 s.cname.length ++ (s.cname ++ []))))))))

/-- **A written snapshot is parsed back.** -/
theorem parse_value {s : Snapshot} (h : s.Fits) : parseSnapMetadata s.xid s.value = s := by
  have hcname : s.cname.length = (utf8Bytes s.name).length + 1 := List.length_append
  have hname := h.length_name
  unfold maxSnapNameLen at hname
  have hlen : s.value.length = 50 + s.cname.length := by
    simp only [value, List.length_append, length_toLeBytes, List.length_nil]
    omega
  have hdrop : s.value.drop 0 = s.value := List.drop_zero
  obtain ⟨hextentref, hdrop⟩ := leUInt_step h.extentrefTreeOid_lt (by omega) hdrop
  obtain ⟨hsblock, hdrop⟩ := leUInt_step h.sblockOid_lt (by omega) hdrop
  obtain ⟨hcreate, hdrop⟩ := leUInt_step h.createTime_lt (by omega) hdrop
  obtain ⟨hchange, hdrop⟩ := leUInt_step h.changeTime_lt (by omega) hdrop
  obtain ⟨hinum, hdrop⟩ := leUInt_step h.inum_lt (by omega) hdrop
  obtain ⟨-, hdrop⟩ := leUInt_step (by decide : 0 < 256 ^ 4) (by omega) hdrop
  obtain ⟨hflags, hdrop⟩ := leUInt_step h.flags_lt (by omega) hdrop
  obtain ⟨hsize, hdrop⟩ := leUInt_step (by omega : s.cname.length < 256 ^ 2) (by omega) hdrop
  have hrange := getRange_of_drop (by omega) hdrop
  have hdecode : decodeCstr s.cname = s.name := decodeCstr_utf8Bytes h.no_nul
  have hmin : min s.cname.length maxSnapNameLen = s.cname.length := by
    unfold maxSnapNameLen
    omega
  have hsize : leU16 s.value 48 = s.cname.length := hsize
  have hrange : getRange s.value 50 (50 + s.cname.length) = some s.cname := hrange
  simp only [parseSnapMetadata, hsize, hmin, hrange, Option.map_some, Option.getD_some, hdecode]
  rw [show leU64 s.value 16 = s.createTime from hcreate,
    show leU64 s.value 24 = s.changeTime from hchange,
    show leU64 s.value 8 = s.sblockOid from hsblock,
    show leU64 s.value 0 = s.extentrefTreeOid from hextentref,
    show leU64 s.value 32 = s.inum from hinum, show leU32 s.value 44 = s.flags from hflags]

end Snapshot

/-- A record of the tree: a snapshot under its xid, or an xid under a name. -/
inductive SnapObject where
  | metadata (s : Snapshot)
  | named (label : Bytes) (xid : Nat)
  deriving DecidableEq, Repr

namespace SnapObject

def Fits : SnapObject → Prop
  | .metadata s => s.Fits
  | .named _ _ => True

def record : SnapObject → Entry
  | .metadata s => ⟨jkeyBytes 1 s.xid ++ [], s.value⟩
  | .named label xid => ⟨jkeyBytes 11 0 ++ (toLeBytes 2 label.length ++ label), toLeBytes 8 xid⟩

def snapshot : SnapObject → Option Snapshot
  | .metadata s => some s
  | .named _ _ => none

/-- **The reader finds the snapshots as they were written.** -/
theorem snapshotsOf_records {os : List SnapObject} (h : ∀ o ∈ os, o.Fits) :
    snapshotsOf (os.map record) = os.filterMap snapshot := by
  induction os with
  | nil => rfl
  | cons o os ih =>
    rw [List.forall_mem_cons] at h
    have ih := ih h.2
    unfold snapshotsOf at ih ⊢
    cases o with
    | metadata s =>
      have hfits : s.Fits := h.1
      obtain ⟨hoid, htype⟩ := decodeJkey_jkeyBytes (by decide : 1 < 16) hfits.xid_lt []
      have htype : jkeyType (record (.metadata s)).key = some .snapMetadata := htype
      have hoid : jkeyOid (record (.metadata s)).key = s.xid := hoid
      rw [List.map_cons, List.filter_cons_of_pos (by simp [htype]), List.map_cons, ih, hoid]
      exact congrArg (· :: _) (Snapshot.parse_value hfits)
    | named label xid =>
      obtain ⟨-, htype⟩ := decodeJkey_jkeyBytes (by decide : 11 < 16) (by decide : 0 < 2 ^ 60)
        (toLeBytes 2 label.length ++ label)
      have htype : jkeyType (record (.named label xid)).key = some .snapName := htype
      rw [List.map_cons, List.filter_cons_of_neg (by simp [htype]), ih]
      rfl

end SnapObject

end ApfsForensic
