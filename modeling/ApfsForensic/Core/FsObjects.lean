import ApfsForensic.Core.DirNames
import ApfsForensic.Core.Xattr
import ApfsForensic.Core.Xfields

/-!
# Records as they are written

The four kinds of records that navigation reads, written out: inodes, directory records,
extended attributes and file extents.  `FsObject` is a record of any kind, with those that
the reader passes over; `FsObject.record` is the key and the value on disk.

A record structure holds what its decoder returns, the bytes that the decoder does not
look at, and the bounds under which it can be written at all.  So the decoders give back
what was written without a condition (`parse_inode`, `parse_xattr`, `decode_extent`, and
`DrecRecord.parseDirEntry_of_name` for directory records).
-/

namespace ApfsForensic

/-! ### Keys -/

theorem length_jkeyBytes (type oid : Nat) : (jkeyBytes type oid).length = 8 :=
  length_toLeBytes 8 _

/-- The key word splits into the type and the object id. -/
theorem decodeJkey_jkeyBytes {type oid : Nat} (htype : type < 16) (hoid : oid < 2 ^ 60)
    (rest : Bytes) :
    jkeyOid (jkeyBytes type oid ++ rest) = oid ∧
      jkeyType (jkeyBytes type oid ++ rest) = RecordType.fromU4 type := by
  have hword : leU64 (jkeyBytes type oid ++ rest) 0 = type * 2 ^ 60 + oid := by
    rw [leU64, leUInt_append_zero (length_jkeyBytes type oid)]
    exact fromLeBytes_toLeBytes 8 _ (by omega)
  have hmask : objIdMask = 2 ^ 60 - 1 := rfl
  have hnibble : 0xf = 2 ^ 4 - 1 := rfl
  rw [jkeyOid, jkeyType, hword, decodeJkey, hmask, hnibble]
  simp only [Nat.and_two_pow_sub_one_eq_mod, Nat.shiftRight_eq_div_pow]
  constructor
  · omega
  · rw [show (type * 2 ^ 60 + oid) / 2 ^ 60 % 2 ^ 4 = type by omega]

/-! ### Inodes -/

/-- An `i32` cast to `u32`. -/
def asU32 (n : Int) : Nat := (n % 2 ^ 32).toNat

theorem asI32_asU32 {n : Int} (hlo : -2 ^ 31 ≤ n) (hhi : n < 2 ^ 31) : asI32 (asU32 n) = n := by
  unfold asI32 asU32
  split <;> omega

attribute [ext] Inode

/-- The fields are as wide as on disk. -/
structure Inode.InRange (inode : Inode) : Prop where
  oid : inode.oid < 2 ^ 60
  parentId : inode.parentId < 2 ^ 64
  privateId : inode.privateId < 2 ^ 64
  createTime : inode.createTime < 2 ^ 64
  modTime : inode.modTime < 2 ^ 64
  changeTime : inode.changeTime < 2 ^ 64
  accessTime : inode.accessTime < 2 ^ 64
  internalFlags : inode.internalFlags < 2 ^ 64
  nlink_ge : -2 ^ 31 ≤ inode.nlinkOrNchildren
  nlink_lt : inode.nlinkOrNchildren < 2 ^ 31
  bsdFlags : inode.bsdFlags < 2 ^ 32
  uid : inode.uid < 2 ^ 32
  gid : inode.gid < 2 ^ 32
  mode : inode.mode < 2 ^ 16

/-- An inode as it is written, with the two fields of `j_inode_val_t` on either side of the
owner that are not read. -/
structure InodeRecord where
  inode : Inode
  protection : Bytes
  reserved : Bytes
  xfields : Bytes
  inRange : inode.InRange
  length_protection : protection.length = 8
  length_reserved : reserved.length = 10
  name_eq : inode.name = (lastXfield 4 (parseXfields xfields)).map decodeCstr
  size_eq : inode.size = (lastXfield 8 (parseXfields xfields)).map (fun data => leU64 data 0)

namespace InodeRecord

variable (r : InodeRecord)

def key : Bytes := jkeyBytes 3 r.inode.oid

/-- `j_inode_val_t`. -/
def value : Bytes :=
  toLeBytes 8 r.inode.parentId ++ (toLeBytes 8 r.inode.privateId ++
    (toLeBytes 8 r.inode.createTime ++ (toLeBytes 8 r.inode.modTime ++
    (toLeBytes 8 r.inode.changeTime ++ (toLeBytes 8 r.inode.accessTime ++
    (toLeBytes 8 r.inode.internalFlags ++ (toLeBytes 4 (asU32 r.inode.nlinkOrNchildren) ++
    (r.protection ++ (toLeBytes 4 r.inode.bsdFlags ++ (toLeBytes 4 r.inode.uid ++
    (toLeBytes 4 r.inode.gid ++ (toLeBytes 2 r.inode.mode ++ (r.reserved ++
    r.xfields)))))))))))))

theorem length_value : r.value.length = 92 + r.xfields.length := by
  simp only [value, List.length_append, length_toLeBytes, r.length_protection, r.length_reserved]
  omega

theorem parse_inode : Inode.parse r.inode.oid r.value = r.inode := by
  have hrange := r.inRange
  have hlen := r.length_value
  generalize hdata : r.value = data at hlen
  have hnlink : asU32 r.inode.nlinkOrNchildren < 256 ^ 4 := by
    unfold asU32
    omega
  have h : data.drop 0 = r.value := by rw [List.drop_zero, hdata]
  rw [value] at h
  -- the cursor passes field after field
  obtain ⟨hparent, h⟩ := leUInt_step hrange.parentId (by omega) h
  obtain ⟨hprivate, h⟩ := leUInt_step hrange.privateId (by omega) h
  obtain ⟨hcreate, h⟩ := leUInt_step hrange.createTime (by omega) h
  obtain ⟨hmod, h⟩ := leUInt_step hrange.modTime (by omega) h
  obtain ⟨hchange, h⟩ := leUInt_step hrange.changeTime (by omega) h
  obtain ⟨haccess, h⟩ := leUInt_step hrange.accessTime (by omega) h
  obtain ⟨hflags, h⟩ := leUInt_step hrange.internalFlags (by omega) h
  obtain ⟨hlink, h⟩ := leUInt_step hnlink (by omega) h
  have h := drop_add_of_drop h
  rw [r.length_protection] at h
  obtain ⟨hbsd, h⟩ := leUInt_step hrange.bsdFlags (by omega) h
  obtain ⟨huid, h⟩ := leUInt_step hrange.uid (by omega) h
  obtain ⟨hgid, h⟩ := leUInt_step hrange.gid (by omega) h
  obtain ⟨hmode, h⟩ := leUInt_step hrange.mode (by omega) h
  have h := drop_add_of_drop h
  rw [r.length_reserved] at h
  have hxfields : data.drop offXfields = r.xfields := h
  obtain ⟨hname, hsize⟩ := inode_name_size r.inode.oid data
  rw [hxfields, ← r.name_eq] at hname
  rw [hxfields, ← r.size_eq] at hsize
  have hsigned := asI32_asU32 hrange.nlink_ge hrange.nlink_lt
  apply Inode.ext
  · rfl
  · exact hparent
  · exact hprivate
  · exact hcreate
  · exact hmod
  · exact hchange
  · exact haccess
  · exact hflags
  · exact (congrArg asI32 hlink).trans hsigned
  · exact hbsd
  · exact huid
  · exact hgid
  · exact hmode
  · exact hname
  · exact hsize

end InodeRecord

/-! ### Extended attributes -/

def XattrValue.isStream : XattrValue → Bool
  | .embedded _ => false
  | .stream _ _ => true

/-- What stands in the record: the bytes themselves, or the oid and the size of the stream
with the rest of its description. -/
def XattrValue.xdata (rest : Bytes) : XattrValue → Bytes
  | .embedded bytes => bytes
  | .stream dstreamOid size => toLeBytes 8 dstreamOid ++ (toLeBytes 8 size ++ rest)

def XattrValue.InRange : XattrValue → Prop
  | .embedded _ => True
  | .stream dstreamOid size => dstreamOid < 2 ^ 64 ∧ size < 2 ^ 64

/-- An extended attribute as it is written. -/
structure XattrRecord where
  oid : Nat
  xattr : Xattr
  rest : Bytes
  trailing : Bytes
  oid_lt : oid < 2 ^ 60
  flags_lt : xattr.flags < 2 ^ 16
  flags_stream : (xattr.flags &&& xattrDataStream ≠ 0) = xattr.value.isStream
  value_inRange : xattr.value.InRange
  length_xdata : (xattr.value.xdata rest).length < 2 ^ 16
  no_nul : 0 ∉ utf8Bytes xattr.name
  length_name : (utf8Bytes xattr.name).length + 1 < 2 ^ 16

namespace XattrRecord

variable (r : XattrRecord)

def cname : Bytes := utf8Bytes r.xattr.name ++ [0]

def xdata : Bytes := r.xattr.value.xdata r.rest

/-- `j_xattr_key_t`. -/
def key : Bytes := jkeyBytes 4 r.oid ++ (toLeBytes 2 r.cname.length ++ r.cname)

/-- `j_xattr_val_t`. -/
def value : Bytes :=
  toLeBytes 2 r.xattr.flags ++ (toLeBytes 2 r.xdata.length ++ (r.xdata ++ r.trailing))

theorem length_cname : 0 < r.cname.length ∧ r.cname.length < 2 ^ 16 := by
  have h := r.length_name
  rw [cname, List.length_append, List.length_singleton]
  omega

theorem getRange_key : leU16 r.key 8 = r.cname.length ∧
    getRange r.key 10 (10 + r.cname.length) = some r.cname := by
  have hlen := r.length_cname
  have hkey : r.key.length = 10 + r.cname.length := by
    rw [key, List.length_append, List.length_append, length_jkeyBytes, length_toLeBytes]
    omega
  have h : r.key.drop 8 = toLeBytes 2 r.cname.length ++ (r.cname ++ []) := by
    rw [key, List.drop_left' (length_jkeyBytes 4 r.oid), List.append_nil]
  obtain ⟨hsize, h⟩ := leUInt_step hlen.2 (by omega) h
  exact ⟨hsize, getRange_of_drop (by omega) h⟩

theorem getRange_value : leU16 r.value 0 = r.xattr.flags ∧ leU16 r.value 2 = r.xdata.length ∧
    getRange r.value 4 (4 + r.xdata.length) = some r.xdata := by
  have hlen : 4 ≤ r.value.length := by
    simp only [value, List.length_append, length_toLeBytes]
    omega
  have h : r.value.drop 0 = toLeBytes 2 r.xattr.flags ++ (toLeBytes 2 r.xdata.length ++
      (r.xdata ++ r.trailing)) := List.drop_zero
  obtain ⟨hflags, h⟩ := leUInt_step r.flags_lt (by omega) h
  obtain ⟨hsize, h⟩ := leUInt_step r.length_xdata (by omega) h
  exact ⟨hflags, hsize, getRange_of_drop hlen h⟩

/-- A stream is named in the first sixteen bytes. -/
theorem leU64_xdata {dstreamOid size : Nat} (h : r.xattr.value = .stream dstreamOid size) :
    leU64 r.xdata 0 = dstreamOid ∧ leU64 r.xdata 8 = size := by
  have hrange := r.value_inRange
  rw [h] at hrange
  have hdrop : r.xdata.drop 0 = toLeBytes 8 dstreamOid ++ (toLeBytes 8 size ++ r.rest) := by
    rw [List.drop_zero, xdata, h, XattrValue.xdata]
  have hlen := congrArg List.length hdrop
  simp only [List.drop_zero, List.length_append, length_toLeBytes] at hlen
  obtain ⟨hoid, hdrop⟩ := leUInt_step hrange.1 (by omega) hdrop
  obtain ⟨hsize, -⟩ := leUInt_step hrange.2 (by omega) hdrop
  exact ⟨hoid, hsize⟩

theorem parse_xattr : parseXattr r.key r.value = some r.xattr := by
  obtain ⟨hnameLen, hname⟩ := r.getRange_key
  obtain ⟨hflags, hsize, hxdata⟩ := r.getRange_value
  have hpos := r.length_cname.1
  have hstream := r.flags_stream
  have hdecode : decodeCstr r.cname = r.xattr.name := decodeCstr_utf8Bytes r.no_nul
  rw [parseXattr, hnameLen]
  simp only [if_neg (Nat.ne_of_gt hpos), hname, hflags, hsize, hxdata, Option.getD_some, hdecode]
  cases hvalue : r.xattr.value with
  | embedded bytes =>
    rw [hvalue] at hstream
    have hx : r.xdata = bytes := by rw [xdata, hvalue, XattrValue.xdata]
    rw [if_neg (by simp [hstream, XattrValue.isStream]), hx, ← hvalue]
  | stream dstreamOid size =>
    rw [hvalue] at hstream
    obtain ⟨hoid, hlen⟩ := r.leU64_xdata hvalue
    rw [if_pos (by simp [hstream, XattrValue.isStream]), hoid, hlen, ← hvalue]

end XattrRecord

/-! ### File extents -/

attribute [ext] FileExtent

/-- A file extent as it is written: the top byte of the length word holds flags. -/
structure ExtentRecord where
  stream : Nat
  extent : FileExtent
  flags : Nat
  stream_lt : stream < 2 ^ 60
  logicalOffset_lt : extent.logicalOffset < 2 ^ 64
  len_lt : extent.len < 2 ^ 56
  physBlockNum_lt : extent.physBlockNum < 2 ^ 64
  cryptoId_lt : extent.cryptoId < 2 ^ 64
  flags_lt : flags < 2 ^ 8

namespace ExtentRecord

variable (r : ExtentRecord)

/-- `j_file_extent_key_t`. -/
def key : Bytes := jkeyBytes 8 r.stream ++ toLeBytes 8 r.extent.logicalOffset

/-- `j_file_extent_val_t`. -/
def value : Bytes :=
  toLeBytes 8 (r.flags * 2 ^ 56 + r.extent.len) ++ (toLeBytes 8 r.extent.physBlockNum ++
    toLeBytes 8 r.extent.cryptoId)

theorem decode_extent : decodeFileExtent r.key r.value = r.extent := by
  have hlen := r.len_lt
  have hflags := r.flags_lt
  have hvalue : r.value.length = 24 := by simp only [value, List.length_append, length_toLeBytes]
  have hkey : r.key.length = 16 := by
    rw [key, List.length_append, length_jkeyBytes, length_toLeBytes]
  have hk : r.key.drop 8 = toLeBytes 8 r.extent.logicalOffset ++ [] := by
    rw [key, List.drop_left' (length_jkeyBytes 8 r.stream), List.append_nil]
  have hv : r.value.drop 0 = toLeBytes 8 (r.flags * 2 ^ 56 + r.extent.len) ++
      (toLeBytes 8 r.extent.physBlockNum ++ (toLeBytes 8 r.extent.cryptoId ++ [])) := by
    rw [List.drop_zero, value, List.append_nil]
  obtain ⟨hlogical, -⟩ := leUInt_step r.logicalOffset_lt (by omega) hk
  obtain ⟨hword, hv⟩ := leUInt_step
    (by omega : r.flags * 2 ^ 56 + r.extent.len < 256 ^ 8) (by omega) hv
  obtain ⟨hphys, hv⟩ := leUInt_step r.physBlockNum_lt (by omega) hv
  obtain ⟨hcrypto, -⟩ := leUInt_step r.cryptoId_lt (by omega) hv
  have hmask : leU64 r.value 0 &&& jFileExtentLenMask = r.extent.len := by
    rw [leU64, hword, (by rfl : jFileExtentLenMask = 2 ^ 56 - 1), Nat.and_two_pow_sub_one_eq_mod]
    omega
  exact FileExtent.ext hlogical hmask hphys hcrypto

end ExtentRecord

/-! ### Any record -/

/-- A record of the fs-tree.  Of directory records either form of the key may be in use. -/
inductive FsObject where
  | inode (r : InodeRecord)
  | drec (r : DrecRecord) (hashed : Bool) (parent_lt : r.parent < 2 ^ 60)
  | xattr (r : XattrRecord)
  | extent (r : ExtentRecord)
  | other (type oid : Nat) (rest value : Bytes) (type_lt : type < 16) (oid_lt : oid < 2 ^ 60)
      (type_other : type ∉ [3, 4, 8, 9])

namespace FsObject

def oid : FsObject → Nat
  | .inode r => r.inode.oid
  | .drec r _ _ => r.parent
  | .xattr r => r.oid
  | .extent r => r.stream
  | .other _ oid _ _ _ _ _ => oid

/-- The record type, as the four bits of the key. -/
def type : FsObject → Nat
  | .inode _ => 3
  | .drec _ _ _ => 9
  | .xattr _ => 4
  | .extent _ => 8
  | .other type _ _ _ _ _ _ => type

/-- The record on disk. -/
def record : FsObject → Entry
  | .inode r => ⟨r.key, r.value⟩
  | .drec r hashed _ => ⟨if hashed then r.hashedKey else r.unhashedKey, r.value⟩
  | .xattr r => ⟨r.key, r.value⟩
  | .extent r => ⟨r.key, r.value⟩
  | .other type oid rest value _ _ _ => ⟨jkeyBytes type oid ++ rest, value⟩

theorem type_lt (o : FsObject) : o.type < 16 := by
  cases o with
  | other type oid rest value htype => exact htype
  | _ => simp only [type, Nat.reduceLT]

theorem oid_lt (o : FsObject) : o.oid < 2 ^ 60 := by
  cases o with
  | inode r => exact r.inRange.oid
  | drec r hashed h => exact h
  | xattr r => exact r.oid_lt
  | extent r => exact r.stream_lt
  | other type oid rest value htype hoid => exact hoid

theorem exists_key_eq (o : FsObject) : ∃ rest, o.record.key = jkeyBytes o.type o.oid ++ rest := by
  cases o with
  | inode r => exact ⟨[], (List.append_nil _).symm⟩
  | drec r hashed h =>
    cases hashed with
    | true => exact ⟨_, rfl⟩
    | false => exact ⟨_, rfl⟩
  | xattr r => exact ⟨_, rfl⟩
  | extent r => exact ⟨_, rfl⟩
  | other type oid rest value => exact ⟨rest, rfl⟩

@[simp] theorem jkeyOid_record (o : FsObject) : jkeyOid o.record.key = o.oid := by
  obtain ⟨rest, hkey⟩ := o.exists_key_eq
  rw [hkey]
  exact (decodeJkey_jkeyBytes o.type_lt o.oid_lt rest).1

@[simp] theorem jkeyType_record (o : FsObject) :
    jkeyType o.record.key = RecordType.fromU4 o.type := by
  obtain ⟨rest, hkey⟩ := o.exists_key_eq
  rw [hkey]
  exact (decodeJkey_jkeyBytes o.type_lt o.oid_lt rest).2

theorem parseDirEntry_drec (r : DrecRecord) (hashed : Bool) (h : r.parent < 2 ^ 60) :
    parseDirEntry (drec r hashed h).record.key (drec r hashed h).record.value = some r.entry := by
  cases hashed with
  | true => exact r.parseDirEntry_of_name r.decodeDrecName_hashedKey
  | false => exact r.parseDirEntry_of_name r.decodeDrecName_unhashedKey

/-- The other types are none of the four. -/
theorem fromU4_other {type : Nat} (h : type ∉ [3, 4, 8, 9]) :
    RecordType.fromU4 type ≠ some .inode ∧ RecordType.fromU4 type ≠ some .xattr ∧
      RecordType.fromU4 type ≠ some .fileExtent ∧ RecordType.fromU4 type ≠ some .dirRec := by
  simp only [List.mem_cons, List.not_mem_nil, or_false, not_or] at h
  unfold RecordType.fromU4
  split <;> simp_all

end FsObject

end ApfsForensic
