import ApfsForensic.Core.Btree

/-!
# Laying out blocks

The encoders of the test suites (`seal`, `obj_hdr`, `btree_node`, `fixed_node` in
`core/src/snapshot.rs` and `core/tests/btree_descend.rs`), from which the concrete
images of this development are built.

`sealBlock_verifies`: a sealed block passes the checksum gate whatever it holds.
The checksum leaves out the eight bytes it is stored in (`checksumWords_append`),
so storing it does not change it.

`Image.HasBlocks`: an image that is laid out block by block, and what the reads of
the source find in it.
-/

namespace ApfsForensic

/-- `seal`: the stored checksum of a block in front of the rest of it. -/
def sealBlock (body : Bytes) : Bytes :=
  toLeBytes 8 (fletcher64Checksum (List.replicate 8 0 ++ body)) ++ body

/-- The image of these bytes, as far as positions go. -/
def Image.ofBytes (bytes : Bytes) : Image where
  bytes := bytes.take u64Max
  length_lt := by
    rw [List.length_take, u64Max]
    omega

/-- The image whose blocks are these, each as long as a block. -/
def Image.ofBlocks (blocks : List Bytes) : Image := .ofBytes blocks.flatten

/-- Zeros up to a length of `n`. -/
def padTo (n : Nat) (b : Bytes) : Bytes := b ++ List.replicate (n - b.length) 0

/-- `obj_hdr`, from the oid on. -/
def objHdr (oid xid objType subtype : Nat) : Bytes :=
  toLeBytes 8 oid ++ toLeBytes 8 xid ++ toLeBytes 4 objType ++ toLeBytes 4 subtype

/-- The table of contents of a node whose keys are packed forward and whose values
are packed backward. -/
def tocBytes (fixed : Bool) : (koff voff : Nat) → List Entry → Bytes
  | _, _, [] => []
  | koff, voff, e :: es =>
    let voff := voff + e.value.length
    toLeBytes 2 koff ++
      (if fixed then toLeBytes 2 voff
        else toLeBytes 2 e.key.length ++ toLeBytes 2 voff ++ toLeBytes 2 e.value.length) ++
      tocBytes fixed (koff + e.key.length) voff es

/-- `btree_node` and `fixed_node`: a node of `blockSize` bytes with these flags. -/
def btreeNode (blockSize oid xid flags level : Nat) (es : List Entry) : Bytes :=
  let toc := tocBytes (flags &&& 0x4 != 0) 0 0 es
  let vals := es.reverse.flatMap Entry.value
  let footer := if flags &&& 0x1 != 0 then btreeInfoLen else 0
  let front := objHdr oid xid 0x40000002 0xb ++ toLeBytes 2 flags ++ toLeBytes 2 level ++
    toLeBytes 4 es.length ++ toLeBytes 2 0 ++ toLeBytes 2 toc.length ++ List.replicate 12 0 ++
    toc ++ es.flatMap Entry.key
  sealBlock (padTo (blockSize - 8 - footer - vals.length) front ++ vals ++
    List.replicate footer 0)

/-- An object map record: `omap_key` and `omap_leaf_val` of the tests. -/
def omapRecord (oid xid flags paddr : Nat) : Entry :=
  ⟨toLeBytes 8 oid ++ toLeBytes 8 xid, toLeBytes 4 flags ++ toLeBytes 4 4096 ++ toLeBytes 8 paddr⟩

/-- An index entry: a separator and the child it stands for. -/
def childRecord (sep : Bytes) (child : Nat) : Entry := ⟨sep, toLeBytes 8 child⟩

/-- `omap_block`: an object map header whose tree stands at `treeOid`. -/
def omapBlock (blockSize oid treeOid : Nat) : Bytes :=
  sealBlock (padTo (blockSize - 8) (objHdr oid 0 0xb 0 ++ toLeBytes 8 0 ++ toLeBytes 8 0x40000002 ++
    toLeBytes 8 treeOid))

/-- A container superblock, from the oid on: what it declares as block size and incompatible
features, and where its descriptor area stands. -/
def nxFields (xid declared features descBase descBlocks : Nat) : Bytes :=
  objHdr 1 xid 0x80000001 0 ++ toLeBytes 4 0x4253584E ++ toLeBytes 4 declared ++
    List.replicate 24 0 ++ toLeBytes 8 features ++ List.replicate 32 0 ++ toLeBytes 4 descBlocks ++
    toLeBytes 4 0 ++ toLeBytes 8 descBase

def nxBlock (blockSize xid declared features descBase descBlocks : Nat) : Bytes :=
  sealBlock (padTo (blockSize - 8) (nxFields xid declared features descBase descBlocks))

/-- A container superblock of `length` bytes with an object map and one volume.  Its
ring is block one. -/
def nxVolumeBlock (length xid declared omapOid fsOid : Nat) : Bytes :=
  sealBlock (padTo (length - 8) (objHdr 1 xid 0x80000001 0 ++ toLeBytes 4 0x4253584E ++
    toLeBytes 4 declared ++ List.replicate 64 0 ++ toLeBytes 4 1 ++ toLeBytes 4 0 ++
    toLeBytes 8 1 ++ List.replicate 40 0 ++ toLeBytes 8 omapOid ++ List.replicate 12 0 ++
    toLeBytes 4 1 ++ toLeBytes 8 fsOid))

/-- `apsb`: a volume superblock with these roots. -/
def apsbBlock (blockSize oid xid omapOid rootTreeOid snapMetaTreeOid : Nat) : Bytes :=
  sealBlock (padTo (blockSize - 8) (objHdr oid xid 0xd 0 ++ toLeBytes 4 0x42535041 ++
    List.replicate 92 0 ++ toLeBytes 8 omapOid ++ toLeBytes 8 rootTreeOid ++ toLeBytes 8 0 ++
    toLeBytes 8 snapMetaTreeOid))

/-- `jkey`: the key word of a record type and an object id. -/
def jkeyBytes (type oid : Nat) : Bytes := toLeBytes 8 (type * 2 ^ 60 + oid)

/-! ### Sealed blocks verify -/

theorem length_toLeBytes : ∀ w n : Nat, (toLeBytes w n).length = w := by
  intro w
  induction w with
  | zero => intro n; rfl
  | succ w ih => intro n; rw [toLeBytes, List.length_cons, ih]

theorem length_sealBlock (body : Bytes) : (sealBlock body).length = 8 + body.length := by
  rw [sealBlock, List.length_append, length_toLeBytes]

theorem length_padTo {n : Nat} {b : Bytes} (h : b.length ≤ n) : (padTo n b).length = n := by
  rw [padTo, List.length_append, List.length_replicate]
  omega

theorem length_sealBlock_padTo {n : Nat} {b : Bytes} (h : 8 + b.length ≤ n) :
    (sealBlock (padTo (n - 8) b)).length = n := by
  rw [length_sealBlock, length_padTo (by omega)]
  omega

theorem length_nxVolumeBlock {length : Nat} (h : 192 ≤ length) (xid declared omapOid fsOid : Nat) :
    (nxVolumeBlock length xid declared omapOid fsOid).length = length := by
  apply length_sealBlock_padTo
  simp only [objHdr, List.length_append, length_toLeBytes, List.length_replicate]
  omega

theorem length_omapBlock {blockSize : Nat} (h : 56 ≤ blockSize) (oid treeOid : Nat) :
    (omapBlock blockSize oid treeOid).length = blockSize := by
  apply length_sealBlock_padTo
  simp only [objHdr, List.length_append, length_toLeBytes]
  omega

theorem length_apsbBlock {blockSize : Nat} (h : 160 ≤ blockSize)
    (oid xid omapOid rootTreeOid snapMetaTreeOid : Nat) :
    (apsbBlock blockSize oid xid omapOid rootTreeOid snapMetaTreeOid).length = blockSize := by
  apply length_sealBlock_padTo
  simp only [objHdr, List.length_append, length_toLeBytes, List.length_replicate]
  omega

theorem length_btreeNode {blockSize flags : Nat} {es : List Entry}
    (h : 56 + (tocBytes (flags &&& 0x4 != 0) 0 0 es).length + (es.flatMap Entry.key).length +
      (es.reverse.flatMap Entry.value).length + btreeInfoLen ≤ blockSize) (oid xid level : Nat) :
    (btreeNode blockSize oid xid flags level es).length = blockSize := by
  have hfooter : (if flags &&& 0x1 != 0 then btreeInfoLen else 0) ≤ btreeInfoLen := by
    split <;> omega
  rw [btreeNode, length_sealBlock, List.length_append, List.length_append, length_padTo,
    List.length_replicate]
  · omega
  · simp only [objHdr, List.length_append, length_toLeBytes, List.length_replicate]
    omega

theorem length_nxBlock {blockSize : Nat} (h : 120 ≤ blockSize) (xid declared features descBase
    descBlocks : Nat) :
    (nxBlock blockSize xid declared features descBase descBlocks).length = blockSize := by
  apply length_sealBlock_padTo
  simp only [nxFields, objHdr, List.length_append, length_toLeBytes, List.length_replicate]
  omega

theorem fromLeBytes_toLeBytes : ∀ w n : Nat, n < 256 ^ w → fromLeBytes (toLeBytes w n) = n := by
  intro w
  induction w with
  | zero => intro n h; rw [Nat.pow_zero] at h; rw [toLeBytes, fromLeBytes]; omega
  | succ w ih =>
    intro n h
    have hq : n / 256 < 256 ^ w := by
      rw [Nat.pow_succ, Nat.mul_comm] at h
      exact Nat.div_lt_of_lt_mul h
    rw [toLeBytes, fromLeBytes, ih _ hq, UInt8.toNat_ofNat']
    omega

theorem leUInt_append_zero {w : Nat} {s : Bytes} (hs : s.length = w) (rest : Bytes) :
    leUInt w (s ++ rest) 0 = fromLeBytes s := by
  have hrange : getRange (s ++ rest) 0 (0 + w) = some s := by
    rw [getRange, if_pos ⟨Nat.zero_le _, by rw [List.length_append]; omega⟩, List.drop_zero,
      List.take_append_of_le_length (by omega), List.take_of_length_le (by omega)]
  rw [leUInt, hrange]

/-- A number is read back where it was written. -/
theorem leUInt_of_drop {w n off : Nat} {data rest : Bytes} (hn : n < 256 ^ w)
    (hoff : off ≤ data.length) (h : data.drop off = toLeBytes w n ++ rest) :
    leUInt w data off = n := by
  have hrange := getRange_of_drop hoff h
  rw [length_toLeBytes] at hrange
  rw [leUInt, hrange]
  exact fromLeBytes_toLeBytes w n hn

/-- Reading one number off what a writer appended leaves the rest to be read. -/
theorem leUInt_step {w n off : Nat} {data rest : Bytes} (hn : n < 256 ^ w)
    (hoff : off ≤ data.length) (h : data.drop off = toLeBytes w n ++ rest) :
    leUInt w data off = n ∧ data.drop (off + w) = rest := by
  have hnext := drop_add_of_drop h
  rw [length_toLeBytes] at hnext
  exact ⟨leUInt_of_drop hn hoff h, hnext⟩

theorem map_zipIdx_of_two_le : ∀ (l : List Nat) (n : Nat), 2 ≤ n →
    (l.zipIdx n).map (fun p => if p.2 < 2 then 0 else p.1) = l := by
  intro l
  induction l with
  | nil => intro n _; rfl
  | cons v l ih =>
    intro n hn
    rw [List.zipIdx_cons, List.map_cons, if_neg (by omega), ih (n + 1) (by omega)]

/-- The words a checksum sums do not depend on the eight bytes it is stored in. -/
theorem checksumWords_append {a : Bytes} (ha : a.length = 8) (body : Bytes) :
    checksumWords (a ++ body) = 0 :: 0 :: words body := by
  match a, ha with
  | [a₀, a₁, a₂, a₃, a₄, a₅, a₆, a₇], _ =>
    simp only [checksumWords, List.cons_append, List.nil_append, words, List.zipIdx_cons,
      List.map_cons]
    rw [map_zipIdx_of_two_le _ _ (by omega)]
    rfl

theorem fletcher64Checksum_append {a b : Bytes} (ha : a.length = 8) (hb : b.length = 8)
    (body : Bytes) : fletcher64Checksum (a ++ body) = fletcher64Checksum (b ++ body) := by
  unfold fletcher64Checksum
  rw [checksumWords_append ha, checksumWords_append hb]

theorem fletcher64Checksum_lt (block : Bytes) : fletcher64Checksum block < 2 ^ 64 := by
  have hlt : ∀ x : Nat, fletcherMod - x < 2 ^ 32 := by
    intro x
    have : fletcherMod < 2 ^ 32 := by decide
    omega
  unfold fletcher64Checksum
  refine Nat.or_lt_two_pow ?_ (lt_trans (hlt _) (by decide))
  rw [Nat.shiftLeft_eq]
  have := hlt ((((checksumWords block).foldl fletcherStep (0, 0)).1 +
    (fletcherMod - (((checksumWords block).foldl fletcherStep (0, 0)).1 +
      ((checksumWords block).foldl fletcherStep (0, 0)).2) % fletcherMod)) % fletcherMod)
  omega

/-- **A sealed block passes the checksum gate.** -/
theorem sealBlock_verifies (body : Bytes) :
    fletcher64Stored (sealBlock body) = fletcher64Checksum (sealBlock body) := by
  have hstored : fletcher64Stored (sealBlock body)
      = fletcher64Checksum (List.replicate 8 0 ++ body) := by
    rw [fletcher64Stored, leU64, sealBlock, leUInt_append_zero (length_toLeBytes 8 _)]
    exact fromLeBytes_toLeBytes 8 _ (fletcher64Checksum_lt _)
  rw [hstored, sealBlock]
  exact fletcher64Checksum_append (by rw [List.length_replicate]) (length_toLeBytes 8 _) body

theorem btreeNode_verifies (blockSize oid xid flags level : Nat) (es : List Entry) :
    fletcher64Stored (btreeNode blockSize oid xid flags level es)
      = fletcher64Checksum (btreeNode blockSize oid xid flags level es) :=
  sealBlock_verifies _

/-! ### Images of blocks -/

theorem chunk_flatten {n : Nat} : ∀ {blocks : List Bytes}, (∀ b ∈ blocks, b.length = n) →
    ∀ {i : Nat} {b : Bytes}, blocks[i]? = some b → chunk n blocks.flatten i = b := by
  intro blocks
  induction blocks with
  | nil => intro _ i b h; cases h
  | cons a blocks ih =>
    intro hlen i b h
    have ha : a.length = n := hlen a List.mem_cons_self
    cases i with
    | zero =>
      cases h
      rw [List.flatten_cons, chunk, Nat.zero_mul, List.drop_zero, List.take_left' ha]
    | succ i =>
      rw [List.flatten_cons, chunk_succ_append ha]
      exact ih (fun b hb => hlen b (List.mem_cons_of_mem _ hb)) h

theorem length_flatten_blocks {n : Nat} {blocks : List Bytes} (hlen : ∀ b ∈ blocks, b.length = n) :
    blocks.flatten.length = blocks.length * n := by
  rw [← List.flatMap_id]
  exact length_flatMap_of_length hlen

namespace Image

/-- The image is these blocks, one after the other. -/
structure HasBlocks (image : Image) (blockSize : Nat) (blocks : List Bytes) : Prop where
  bytes_eq : image.bytes = blocks.flatten
  length_eq : ∀ b ∈ blocks, b.length = blockSize

theorem hasBlocks_ofBlocks {blockSize : Nat} {blocks : List Bytes}
    (hlen : ∀ b ∈ blocks, b.length = blockSize) (hsize : blocks.length * blockSize ≤ u64Max) :
    (ofBlocks blocks).HasBlocks blockSize blocks :=
  ⟨List.take_of_length_le (by rw [length_flatten_blocks hlen]; exact hsize), hlen⟩

namespace HasBlocks

variable {image : Image} {blockSize i : Nat} {blocks : List Bytes} {b : Bytes}

theorem length_bytes (h : image.HasBlocks blockSize blocks) :
    image.bytes.length = blocks.length * blockSize := by
  rw [h.bytes_eq, length_flatten_blocks h.length_eq]

theorem chunk_eq (h : image.HasBlocks blockSize blocks) (hb : blocks[i]? = some b) :
    chunk blockSize image.bytes i = b := by
  rw [h.bytes_eq, chunk_flatten h.length_eq hb]

theorem end_le (h : image.HasBlocks blockSize blocks) (hb : blocks[i]? = some b) :
    i * blockSize + blockSize ≤ image.bytes.length := by
  obtain ⟨hi, _⟩ := List.getElem?_eq_some_iff.mp hb
  rw [h.length_bytes, ← Nat.succ_mul]
  exact Nat.mul_le_mul_right _ hi

theorem offset_le (h : image.HasBlocks blockSize blocks) (hb : blocks[i]? = some b) :
    i * blockSize ≤ u64Max := by
  have hend := h.end_le hb
  have hlen := image.length_lt
  unfold u64Max
  omega

theorem readExact (h : image.HasBlocks blockSize blocks) (hb : blocks[i]? = some b) :
    image.readExact (i * blockSize) blockSize = .ok b :=
  readExact_eq_ok_iff.mpr ⟨Or.inr (h.end_le hb), (h.chunk_eq hb).symm⟩

theorem readBlock (h : image.HasBlocks blockSize blocks) (hb : blocks[i]? = some b) :
    image.readBlock i blockSize = .ok b := by
  rw [Image.readBlock, saturatingMul_of_le (h.offset_le hb), h.readExact hb]

/-- A node that verifies is read as it stands. -/
theorem readVerifiedNode (h : image.HasBlocks blockSize blocks) (hb : blocks[i]? = some b)
    (hsum : fletcher64Stored b = fletcher64Checksum b) :
    readVerifiedNode image i blockSize = .ok (some b) := by
  rw [ApfsForensic.readVerifiedNode, checkedMul_of_le (h.offset_le hb)]
  simp only [h.readExact hb, ok_bind, verifyChecksum_eq_ok_iff.mpr hsum]
  rfl

theorem fetchNode (h : image.HasBlocks blockSize blocks) (hb : blocks[i]? = some b)
    (hsum : fletcher64Stored b = fletcher64Checksum b) (subtype : BTreeSubtype) :
    fetchNode image blockSize subtype i = .ok (nodeView b subtype) := by
  rw [ApfsForensic.fetchNode, h.readVerifiedNode hb hsum]

end HasBlocks

end Image

end ApfsForensic
