import ApfsForensic.Core.FsRecord
import Mathlib.Algebra.Group.Int.Defs

/-!
# Inode records

`core/src/inode.rs`.  The timestamps stay nanosecond counts; their conversion to
calendar dates is not modelled.
-/

namespace ApfsForensic

/-- `Inode`. -/
structure Inode where
  oid : Nat
  parentId : Nat
  privateId : Nat
  createTime : Nat
  modTime : Nat
  changeTime : Nat
  accessTime : Nat
  internalFlags : Nat
  nlinkOrNchildren : Int
  bsdFlags : Nat
  uid : Nat
  gid : Nat
  mode : Nat
  name : Option String
  size : Option Nat
  deriving DecidableEq, Repr

/-- A `u32` cast to `i32`. -/
def asI32 (n : Nat) : Int := if n < 2 ^ 31 then n else n - 2 ^ 32

/-- `INO_EXT_TYPE_NAME` and `INO_EXT_TYPE_DSTREAM`: the last field of a type wins. -/
def inodeXfield (nameSize : Option String × Option Nat) (field : Nat × Bytes) :
    Option String × Option Nat :=
  match field.1 with
  | 4 => (some (decodeCstr field.2), nameSize.2)
  | 8 => (nameSize.1, some (leU64 field.2 0))
  | _ => nameSize

/-- `OFF_XFIELDS`. -/
def offXfields : Nat := 92

/-- `Inode::parse`, which never fails. -/
def Inode.parse (oid : Nat) (value : Bytes) : Inode :=
  let (name, size) :=
    if value.length > offXfields then
      (parseXfields (value.drop offXfields)).foldl inodeXfield (none, none)
    else (none, none)
  { oid
    parentId := leU64 value 0
    privateId := leU64 value 8
    createTime := leU64 value 16
    modTime := leU64 value 24
    changeTime := leU64 value 32
    accessTime := leU64 value 40
    internalFlags := leU64 value 48
    nlinkOrNchildren := asI32 (leU32 value 56)
    bsdFlags := leU32 value 68
    uid := leU32 value 72
    gid := leU32 value 76
    mode := leU16 value 80
    name
    size }

end ApfsForensic
