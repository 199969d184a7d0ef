import ApfsForensic.Core.Bytes

/-!
# Object headers and the Fletcher-64 checksum

`core/src/object.rs`.  Every object on disk starts with a 32-byte `obj_phys_t`
whose first eight bytes hold the checksum of the rest.
-/

namespace ApfsForensic

/-- `OBJ_PHYS_LEN`. -/
def objPhysLen : Nat := 32

/-- `fletcher64_stored`. -/
def fletcher64Stored (block : Bytes) : Nat := leU64 block 0

/-- `ObjPhys`. -/
structure ObjPhys where
  cksum : Nat
  oid : Nat
  xid : Nat
  objTypeRaw : Nat
  subtype : Nat
  deriving DecidableEq, Repr

/-- `ObjPhys::parse`. -/
def ObjPhys.parse (block : Bytes) : Option ObjPhys :=
  if block.length < objPhysLen then none
  else some {
    cksum := leU64 block 0
    oid := leU64 block 8
    xid := leU64 block 16
    objTypeRaw := leU32 block 24
    subtype := leU32 block 28 }

/-- `ObjPhys::obj_type`: the type without the storage flags. -/
def ObjPhys.objType (hdr : ObjPhys) : Nat := hdr.objTypeRaw &&& 0xffff

/-! ### Fletcher-64 -/

def fletcherMod : Nat := 0xffffffff

/-- `block.chunks_exact(4)` as numbers; a trailing partial word is dropped. -/
def words : Bytes → List Nat
  | a :: b :: c :: d :: rest => fromLeBytes [a, b, c, d] :: words rest
  | _ => []

/-- The words that are summed: the two that hold the checksum itself count as `0`. -/
def checksumWords (block : Bytes) : List Nat :=
  (words block).zipIdx.map (fun p => if p.2 < 2 then 0 else p.1)

/-- One round: `sum_lo` takes the word, `sum_hi` takes the new `sum_lo`. -/
def fletcherStep (sums : Nat × Nat) (v : Nat) : Nat × Nat :=
  let sumLo := (sums.1 + v) % fletcherMod
  (sumLo, (sums.2 + sumLo) % fletcherMod)

/-- `fletcher64_checksum`. -/
def fletcher64Checksum (block : Bytes) : Nat :=
  let sums := (checksumWords block).foldl fletcherStep (0, 0)
  let checkLo := fletcherMod - (sums.1 + sums.2) % fletcherMod
  let checkHi := fletcherMod - (sums.1 + checkLo) % fletcherMod
  (checkHi <<< 32) ||| checkLo

/-- The block passes the checksum gate. -/
def Verifies (block : Bytes) : Prop := fletcher64Stored block = fletcher64Checksum block

instance (block : Bytes) : Decidable (Verifies block) := inferInstanceAs (Decidable (_ = _))

/-- Checksum before trust: the error a block with the wrong checksum gives, named
by `block`, the object id or address that stands in the error. -/
def verifyChecksum (buf : Bytes) (block : Nat) : Result Unit :=
  if fletcher64Stored buf ≠ fletcher64Checksum buf then
    .error (.err (.checksumMismatch block (fletcher64Stored buf) (fletcher64Checksum buf)))
  else .ok ()

/-- The `block` field of a node's checksum error: the oid of its header, or the
address it was read from. -/
def headerOidOr (buf : Bytes) (paddr : Nat) : Nat :=
  match ObjPhys.parse buf with
  | some hdr => hdr.oid
  | none => paddr

theorem verifyChecksum_eq_ok_iff {buf : Bytes} {block : Nat} :
    verifyChecksum buf block = .ok () ↔ fletcher64Stored buf = fletcher64Checksum buf := by
  unfold verifyChecksum
  split <;> simp_all

end ApfsForensic
