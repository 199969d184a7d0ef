import ApfsForensic.Core.Bytes

/-!
# File-system records: keys, names and extended fields

`core/src/fsrecord.rs`, with the decoding of names that `dir.rs`, `inode.rs`,
`snapshot.rs` and `volume.rs` share.

A record's key starts with a word whose top four bits are the record type and
whose low sixty bits are the object id.  Names are NUL-terminated UTF-8, decoded
with `String::from_utf8_lossy`: each maximal ill-formed part becomes one U+FFFD.
-/

namespace ApfsForensic

/-! ### Names -/

/-- A multi-byte character that is not complete: the bytes still owed, the bits
read so far, and the range the next byte must be in. -/
structure Utf8Pending where
  owed : Nat
  bits : Nat
  lo : Nat
  hi : Nat

def replacementChar : Char := Char.ofNat 0xfffd

/-- A byte between two characters. -/
def utf8Start (b : Nat) : List Char × Option Utf8Pending :=
  if b < 0x80 then ([Char.ofNat b], none)
  else if b < 0xc2 then ([replacementChar], none)
  else if b < 0xe0 then ([], some ⟨1, b - 0xc0, 0x80, 0xbf⟩)
  -- the second byte rules out overlong forms, surrogates and values past U+10FFFF
  else if b = 0xe0 then ([], some ⟨2, 0, 0xa0, 0xbf⟩)
  else if b = 0xed then ([], some ⟨2, 0xd, 0x80, 0x9f⟩)
  else if b < 0xf0 then ([], some ⟨2, b - 0xe0, 0x80, 0xbf⟩)
  else if b = 0xf0 then ([], some ⟨3, 0, 0x90, 0xbf⟩)
  else if b < 0xf4 then ([], some ⟨3, b - 0xf0, 0x80, 0xbf⟩)
  else if b = 0xf4 then ([], some ⟨3, 4, 0x80, 0x8f⟩)
  else ([replacementChar], none)

/-- One byte: the characters it completes, and what is still pending. -/
def utf8Step : Option Utf8Pending → Nat → List Char × Option Utf8Pending
  | none, b => utf8Start b
  | some p, b =>
    if p.lo ≤ b ∧ b ≤ p.hi then
      let bits := p.bits * 64 + (b - 0x80)
      if p.owed ≤ 1 then ([Char.ofNat bits], none)
      else ([], some ⟨p.owed - 1, bits, 0x80, 0xbf⟩)
    else
      let (cs, q) := utf8Start b
      (replacementChar :: cs, q)

def utf8LossyFrom : Option Utf8Pending → Bytes → List Char
  | none, [] => []
  | some _, [] => [replacementChar]
  | p, b :: bs =>
    let (cs, q) := utf8Step p b.toNat
    cs ++ utf8LossyFrom q bs

/-- `String::from_utf8_lossy`. -/
def fromUtf8Lossy (data : Bytes) : String := String.ofList (utf8LossyFrom none data)

/-- `decode_cstr`: the bytes before the first NUL. -/
def decodeCstr (data : Bytes) : String := fromUtf8Lossy (data.takeWhile (· != 0))

/-! ### Record keys -/

/-- `RecordType`. -/
inductive RecordType where
  | snapMetadata
  | extent
  | inode
  | xattr
  | siblingLink
  | dstreamId
  | cryptoState
  | fileExtent
  | dirRec
  | dirStats
  | snapName
  | siblingMap
  | fileInfo
  deriving DecidableEq, Repr

/-- `RecordType::from_u4`. -/
def RecordType.fromU4 : Nat → Option RecordType
  | 1 => some snapMetadata
  | 2 => some extent
  | 3 => some inode
  | 4 => some xattr
  | 5 => some siblingLink
  | 6 => some dstreamId
  | 7 => some cryptoState
  | 8 => some fileExtent
  | 9 => some dirRec
  | 10 => some dirStats
  | 11 => some snapName
  | 12 => some siblingMap
  | 13 => some fileInfo
  | _ => none

/-- `OBJ_ID_MASK`. -/
def objIdMask : Nat := 0x0fffffffffffffff

/-- `decode_jkey`. -/
def decodeJkey (objIdAndType : Nat) : Nat × Option RecordType :=
  (objIdAndType &&& objIdMask, RecordType.fromU4 ((objIdAndType >>> 60) &&& 0xf))

/-- The object id of a record key or of a separator. -/
def jkeyOid (key : Bytes) : Nat := (decodeJkey (leU64 key 0)).1

/-- The record type of a key. -/
def jkeyType (key : Bytes) : Option RecordType := (decodeJkey (leU64 key 0)).2

/-! ### Extended fields -/

/-- `MAX_XF_NUM_EXTS`. -/
def maxXfNumExts : Nat := 4096

/-- The loop of `parse_xfields`, `remaining` descriptors from index `i` on. -/
def xfieldsFrom (data : Bytes) : (remaining i valueOff : Nat) → List (Nat × Bytes)
  | 0, _, _ => []
  | remaining + 1, i, valueOff =>
    let d := 4 + i * 4
    let xType := leUInt 1 data d
    let xSize := leU16 data (d + 2)
    match getRange data valueOff (valueOff + xSize) with
    | none => []
    | some value =>
      -- `(x_size + 7) & !7`
      (xType, value) :: xfieldsFrom data remaining (i + 1) (valueOff + (xSize + 7) / 8 * 8)

/-- `parse_xfields`. -/
def parseXfields (data : Bytes) : List (Nat × Bytes) :=
  if data.length < 4 then []
  else
    let num := min (leU16 data 0) maxXfNumExts
    let descEnd := 4 + num * 4
    if descEnd > data.length then [] else xfieldsFrom data num 0 descEnd

end ApfsForensic
