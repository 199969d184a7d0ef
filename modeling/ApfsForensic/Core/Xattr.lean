import ApfsForensic.Core.Extent

/-!
# Extended attributes

`core/src/xattr.rs`.  An attribute is an `XATTR` record of its inode: a name in the
key, and a value whose flags say where the bytes are, in the record itself or in a
data stream of their own.

`xattrsOf` are the attributes among the records of a walk.  `listXattrs_eq` says
that `list_xattrs` returns them, so that `getXattr` is the first of a name.
-/

namespace ApfsForensic

/-- `XATTR_DATA_STREAM`. -/
def xattrDataStream : Nat := 0x0001

/-- `XATTR_NAME_DECMPFS`. -/
def xattrNameDecmpfs : String := "com.apple.decmpfs"

/-- `XATTR_NAME_RESOURCE_FORK`. -/
def xattrNameResourceFork : String := "com.apple.ResourceFork"

/-- `XATTR_NAME_SYMLINK`. -/
def xattrNameSymlink : String := "com.apple.fs.symlink"

/-- `XattrValue`. -/
inductive XattrValue where
  | embedded (bytes : Bytes)
  | stream (dstreamOid size : Nat)
  deriving DecidableEq, Repr

/-- `Xattr`. -/
structure Xattr where
  name : String
  flags : Nat
  value : XattrValue
  deriving DecidableEq, Repr

/-- `parse_xattr`. -/
def parseXattr (key value : Bytes) : Option Xattr :=
  let nameLen := leU16 key 8
  if nameLen = 0 then none
  else
    match getRange key 10 (10 + nameLen) with
    | none => none
    | some nameBytes =>
      let flags := leU16 value 0
      let xdataLen := leU16 value 2
      let xdata := (getRange value 4 (4 + xdataLen)).getD []
      some
        { name := decodeCstr nameBytes
          flags
          value :=
            if flags &&& xattrDataStream ≠ 0 then .stream (leU64 xdata 0) (leU64 xdata 8)
            else .embedded xdata }

section Xattrs

variable (xts : Xts) (image : Image) (volume : ApfsVolume) (blockSize : Nat)

/-- `list_xattrs`. -/
def listXattrs (inodeOid : Nat) : Result (List Xattr) :=
  forEachFsRecordForOid xts image volume blockSize inodeOid (fun out key value =>
    if jkeyType key ≠ some .xattr ∨ jkeyOid key ≠ inodeOid then out
    else
      match parseXattr key value with
      | none => out
      | some x => out ++ [x]) []

/-- `get_xattr`. -/
def getXattr (inodeOid : Nat) (name : String) : Result (Option XattrValue) := do
  let xattrs ← listXattrs xts image volume blockSize inodeOid
  return (xattrs.find? (fun x => x.name = name)).map Xattr.value

/-- `decmpfs_header`. -/
def decmpfsHeader (inodeOid : Nat) : Result (Option Bytes) := do
  match ← getXattr xts image volume blockSize inodeOid xattrNameDecmpfs with
  | some (.embedded bytes) => return some bytes
  | some (.stream _ _) => return none
  | none => return none

/-- The bytes of an attribute, from the record or from its stream. -/
def readXattrValue : XattrValue → Result Bytes
  | .embedded bytes => .ok bytes
  | .stream dstreamOid size => readStream xts image volume blockSize dstreamOid size

/-- `resource_fork`. -/
def resourceFork (inodeOid : Nat) : Result (Option Bytes) := do
  match ← getXattr xts image volume blockSize inodeOid xattrNameResourceFork with
  | some value => do
    let bytes ← readXattrValue xts image volume blockSize value
    return some bytes
  | none => return none

/-- `symlink_target`.  A target that is stored in a stream is not followed. -/
def symlinkTarget (inodeOid : Nat) : Result (Option String) := do
  match ← getXattr xts image volume blockSize inodeOid xattrNameSymlink with
  | some (.embedded bytes) => return some (decodeCstr bytes)
  | some (.stream _ _) => return none
  | none => return none

end Xattrs

/-! ### The attributes among the records -/

/-- The attribute that a record of the inode describes. -/
def xattrOf (inodeOid : Nat) (record : Entry) : Option Xattr :=
  if jkeyType record.key = some .xattr ∧ jkeyOid record.key = inodeOid then
    parseXattr record.key record.value
  else none

def xattrsOf (inodeOid : Nat) (records : List Entry) : List Xattr :=
  records.filterMap (xattrOf inodeOid)

/-- The visitor of `list_xattrs` appends the attributes it comes to. -/
theorem foldl_xattrsOf (inodeOid : Nat) : ∀ (records : List Entry) (out : List Xattr),
    records.foldl (fun out e =>
        if jkeyType e.key ≠ some .xattr ∨ jkeyOid e.key ≠ inodeOid then out
        else
          match parseXattr e.key e.value with
          | none => out
          | some x => out ++ [x]) out
      = out ++ xattrsOf inodeOid records := by
  intro records
  induction records with
  | nil => intro out; rw [List.foldl_nil, xattrsOf, List.filterMap_nil, List.append_nil]
  | cons e records ih =>
    intro out
    rw [List.foldl_cons, ih]
    unfold xattrsOf
    rw [List.filterMap_cons, xattrOf]
    by_cases hkey : jkeyType e.key = some .xattr ∧ jkeyOid e.key = inodeOid
    · rw [if_neg (by simp [hkey.1, hkey.2]), if_pos hkey]
      cases parseXattr e.key e.value with
      | none => rfl
      | some x => rw [List.append_assoc]; rfl
    · rw [if_pos (by rwa [ne_eq, ne_eq, ← not_and_or]), if_neg hkey]

/-- `list_xattrs` returns the attributes that the walk visits. -/
theorem listXattrs_eq (xts : Xts) (image : Image) (volume : ApfsVolume)
    (blockSize inodeOid : Nat) :
    listXattrs xts image volume blockSize inodeOid
      = (fsRecords xts image volume blockSize (some inodeOid)).map (xattrsOf inodeOid) := by
  rw [listXattrs, forEachFsRecordForOid, walkFsTree_eq]
  cases fsRecords xts image volume blockSize (some inodeOid) with
  | error f => rfl
  | ok records => rw [Except.map, Except.map, foldl_xattrsOf, List.nil_append]

end ApfsForensic
