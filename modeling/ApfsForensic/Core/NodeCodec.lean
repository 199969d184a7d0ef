import ApfsForensic.Core.Encode
import ApfsForensic.Walk.Pieces

/-!
# Node decoding inverts the layout of a node

A node on disk has four parts: the fields of its header, the table of contents, keys at
offsets forward from the end of the table, and values at offsets back from the footer on a
root and from the end of the block otherwise.  `NodeShape` names what a writer chooses,
`NodePlan` a choice where everything has room, and `NodeShape.block` is the block written.
What the four parts do not cover is left as it was (`base`), so free space, the object
header and the footer hold anything.

`nodeEntries_block`: `node_entries` gives back the records of a plan, in the order of the
table of contents.
-/

namespace ApfsForensic

open Walk

/-! ### What a writer chooses -/

/-- A record and the offsets the table of contents has for it. -/
structure NodeSlot where
  entry : Entry
  keyOff : Nat
  valOff : Nat

/-- The choices of a writer of a node: the block before the node is written, the fields of
the header and the records in the order of the table of contents. -/
structure NodeShape where
  base : Bytes
  subtype : BTreeSubtype
  flags : Nat
  level : Nat
  tocOff : Nat
  tocLen : Nat
  slots : List NodeSlot

namespace NodeShape

variable (s : NodeShape)

def header : BTreeNodeHeader where
  flags := s.flags
  level := s.level
  nkeys := s.slots.length

/-- Where the parts of the node stand. -/
def layout : NodeLayout where
  tocStart := btnDataOff + s.tocOff
  keyArea := btnDataOff + s.tocOff + s.tocLen
  valBase := if s.header.isRoot then s.base.length - btreeInfoLen else s.base.length
  fixed := s.header.isFixedKv
  keyLen := s.subtype.fixedKeyLen
  valLen := if s.header.isLeaf then s.subtype.fixedLeafValLen else s.subtype.fixedBranchValLen

/-- `btn_flags` to `btn_table_space`. -/
def headerBytes : Bytes :=
  toLeBytes 2 s.flags ++ (toLeBytes 2 s.level ++ (toLeBytes 4 s.slots.length ++
    (toLeBytes 2 s.tocOff ++ toLeBytes 2 s.tocLen)))

/-- `kvoff_t` in a node of fixed sizes, `kvloc_t` otherwise. -/
def tocRecord (slot : NodeSlot) : Bytes :=
  if s.layout.fixed then toLeBytes 2 slot.keyOff ++ toLeBytes 2 slot.valOff
  else toLeBytes 2 slot.keyOff ++ (toLeBytes 2 slot.entry.key.length ++
    (toLeBytes 2 slot.valOff ++ toLeBytes 2 slot.entry.value.length))

def keyPiece (slot : NodeSlot) : Piece UInt8 where
  start := s.layout.keyArea + slot.keyOff
  content := slot.entry.key

def valuePiece (slot : NodeSlot) : Piece UInt8 where
  start := s.layout.valBase - slot.valOff
  content := slot.entry.value

/-- The keys and values of all records. -/
def dataPieces : List (Piece UInt8) :=
  s.slots.flatMap (fun slot => [s.keyPiece slot, s.valuePiece slot])

def headerPiece : Piece UInt8 where
  start := 32
  content := s.headerBytes

def tocPiece : Piece UInt8 where
  start := s.layout.tocStart
  content := s.slots.flatMap s.tocRecord

/-- The block with the node written into it. -/
def block : Bytes := layOut s.base (s.headerPiece :: s.tocPiece :: s.dataPieces)

/-- A record has room: its numbers fit their fields, its key lies in the key area and its
value ends before the footer or the end of the block.  A node of fixed sizes holds records
of these sizes only. -/
structure Fits (slot : NodeSlot) : Prop where
  keyOff_lt : slot.keyOff < 2 ^ 16
  valOff_lt : slot.valOff < 2 ^ 16
  keyLen_lt : slot.entry.key.length < 2 ^ 16
  valLen_lt : slot.entry.value.length < 2 ^ 16
  key_le : s.layout.keyArea + slot.keyOff + slot.entry.key.length ≤ s.layout.valBase
  value_le : slot.entry.value.length ≤ slot.valOff
  valOff_le : s.layout.keyArea + slot.valOff ≤ s.layout.valBase
  sizes : s.layout.fixed = true →
    slot.entry.key.length = s.layout.keyLen ∧ slot.entry.value.length = s.layout.valLen

end NodeShape

/-- A node that can be written: the table of contents has room for its records and perhaps
more, every record has room, and no two keys or values share a byte. -/
structure NodePlan extends NodeShape where
  flags_lt : flags < 2 ^ 16
  level_lt : level < 2 ^ 16
  tocOff_lt : tocOff < 2 ^ 16
  tocLen_lt : tocLen < 2 ^ 16
  toc_le : slots.length * toNodeShape.layout.entryLen ≤ tocLen
  keyArea_le : toNodeShape.layout.keyArea ≤ toNodeShape.layout.valBase
  fits : ∀ slot ∈ slots, toNodeShape.Fits slot
  disjoint : toNodeShape.dataPieces.Pairwise Piece.Disjoint

/-! ### The parts do not meet -/

namespace NodeShape

variable {s : NodeShape}

theorem valBase_le : s.layout.valBase ≤ s.base.length := by
  show (if s.header.isRoot then s.base.length - btreeInfoLen else s.base.length) ≤ s.base.length
  split <;> omega

theorem stop_headerPiece : s.headerPiece.stop = 44 := by
  simp only [Piece.stop, headerPiece, headerBytes, List.length_append, length_toLeBytes]

theorem length_tocRecord (slot : NodeSlot) : (s.tocRecord slot).length = s.layout.entryLen := by
  rw [tocRecord, NodeLayout.entryLen]
  split <;> simp only [List.length_append, length_toLeBytes]

theorem length_tocPiece : s.tocPiece.content.length = s.slots.length * s.layout.entryLen :=
  length_flatMap_of_length fun slot _ => length_tocRecord slot

theorem mem_dataPieces {p : Piece UInt8} :
    p ∈ s.dataPieces ↔ ∃ slot ∈ s.slots, p = s.keyPiece slot ∨ p = s.valuePiece slot := by
  simp only [dataPieces, List.mem_flatMap, List.mem_cons, List.not_mem_nil, or_false]

/-- The data of a record that has room stands between the table of contents and the end of
the value area. -/
theorem Fits.between {slot : NodeSlot} (h : s.Fits slot) {p : Piece UInt8}
    (hp : p = s.keyPiece slot ∨ p = s.valuePiece slot) :
    s.layout.keyArea ≤ p.start ∧ p.stop ≤ s.layout.valBase := by
  have hkey := h.key_le
  have hvalue := h.value_le
  have hoff := h.valOff_le
  rcases hp with rfl | rfl
  · simp only [keyPiece, Piece.stop]
    omega
  · simp only [valuePiece, Piece.stop]
    omega

end NodeShape

namespace NodePlan

variable (plan : NodePlan)

theorem between_of_mem {p : Piece UInt8} (hp : p ∈ plan.dataPieces) :
    plan.layout.keyArea ≤ p.start ∧ p.stop ≤ plan.layout.valBase := by
  obtain ⟨slot, hslot, hp⟩ := NodeShape.mem_dataPieces.mp hp
  exact (plan.fits slot hslot).between hp

theorem stop_tocPiece_le : plan.tocPiece.stop ≤ plan.layout.keyArea := by
  rw [Piece.stop, NodeShape.length_tocPiece]
  exact Nat.add_le_add_left plan.toc_le _

theorem header_le_tocStart : plan.headerPiece.stop ≤ plan.tocPiece.start := by
  rw [NodeShape.stop_headerPiece]
  exact Nat.le_trans (by decide : 44 ≤ btnDataOff) (Nat.le_add_right _ _)

theorem tocStart_le : plan.tocPiece.start ≤ plan.layout.keyArea := Nat.le_add_right _ _

theorem pieces_inside : ∀ p ∈ plan.headerPiece :: plan.tocPiece :: plan.dataPieces,
    p.stop ≤ plan.base.length := by
  have hbase := NodeShape.valBase_le (s := plan.toNodeShape)
  have harea := plan.keyArea_le
  have htoc := plan.stop_tocPiece_le
  intro p hp
  rcases List.mem_cons.mp hp with rfl | hp
  · have hhdr := plan.header_le_tocStart
    have hstart := plan.tocStart_le
    omega
  · rcases List.mem_cons.mp hp with rfl | hp
    · omega
    · have hstop := (plan.between_of_mem hp).2
      omega

/-- The header stands before the table of contents, and the table before all data. -/
theorem pieces_disjoint :
    (plan.headerPiece :: plan.tocPiece :: plan.dataPieces).Pairwise Piece.Disjoint := by
  have hhdr := plan.header_le_tocStart
  have hstart := plan.tocStart_le
  refine List.pairwise_cons.mpr ⟨?_, List.pairwise_cons.mpr ⟨?_, plan.disjoint⟩⟩
  · intro p hp
    apply Piece.disjoint_of_stop_le
    rcases List.mem_cons.mp hp with rfl | hp
    · exact hhdr
    · exact Nat.le_trans (Nat.le_trans hhdr hstart) (plan.between_of_mem hp).1
  · intro p hp
    exact Piece.disjoint_of_stop_le
      (Nat.le_trans plan.stop_tocPiece_le (plan.between_of_mem hp).1)

theorem length_block : plan.block.length = plan.base.length := length_layOut plan.pieces_inside

theorem keyArea_le_length : plan.layout.keyArea ≤ plan.block.length := by
  rw [length_block]
  exact Nat.le_trans plan.keyArea_le NodeShape.valBase_le

/-! ### Reading the parts back -/

theorem exists_drop_block {p : Piece UInt8}
    (hp : p ∈ plan.headerPiece :: plan.tocPiece :: plan.dataPieces) :
    ∃ rest, plan.block.drop p.start = p.content ++ rest :=
  exists_drop_layOut plan.pieces_inside plan.pieces_disjoint hp

theorem getRange_block {p : Piece UInt8} (hp : p ∈ plan.dataPieces) :
    getRange plan.block p.start (p.start + p.content.length) = some p.content := by
  have hmem : p ∈ plan.headerPiece :: plan.tocPiece :: plan.dataPieces :=
    List.mem_cons_of_mem _ (List.mem_cons_of_mem _ hp)
  obtain ⟨rest, hrest⟩ := plan.exists_drop_block hmem
  have hstop : p.stop ≤ plan.block.length := by
    rw [length_block]
    exact plan.pieces_inside p hmem
  exact getRange_of_drop (Nat.le_trans (Nat.le_add_right _ _) hstop) hrest

theorem slots_length_lt : plan.slots.length < 2 ^ 16 := by
  have hfour : 4 ≤ plan.layout.entryLen := by
    rw [NodeLayout.entryLen]
    split <;> omega
  have hmul := Nat.mul_le_mul_left plan.slots.length hfour
  have htoc := plan.toc_le
  have hlt := plan.tocLen_lt
  omega

/-- The header and the table space are read back. -/
theorem read_header : parseNodeHeader plan.block = some plan.header ∧
    leU16 plan.block 40 = plan.tocOff ∧ leU16 plan.block 42 = plan.tocLen := by
  have hmin : btnDataOff ≤ plan.block.length :=
    Nat.le_trans (Nat.le_trans (Nat.le_add_right _ _) plan.tocStart_le) plan.keyArea_le_length
  have hlen : 56 ≤ plan.block.length := hmin
  obtain ⟨rest, h⟩ := plan.exists_drop_block List.mem_cons_self
  simp only [NodeShape.headerPiece, NodeShape.headerBytes, List.append_assoc] at h
  obtain ⟨hflags, h⟩ := leUInt_step plan.flags_lt (by omega) h
  obtain ⟨hlevel, h⟩ := leUInt_step plan.level_lt (by omega) h
  obtain ⟨hnkeys, h⟩ := leUInt_step
    (Nat.lt_trans plan.slots_length_lt (by decide : 2 ^ 16 < 256 ^ 4)) (by omega) h
  obtain ⟨htocOff, h⟩ := leUInt_step plan.tocOff_lt (by omega) h
  obtain ⟨htocLen, -⟩ := leUInt_step plan.tocLen_lt (by omega) h
  refine ⟨?_, htocOff, htocLen⟩
  simp only [parseNodeHeader, if_neg (Nat.not_lt.mpr hmin), leU16, leU32, hflags, hlevel, hnkeys,
    NodeShape.header]

theorem nodeLayout_block : nodeLayout plan.block plan.header plan.subtype = plan.layout := by
  obtain ⟨-, htocOff, htocLen⟩ := plan.read_header
  simp only [nodeLayout, htocOff, htocLen, length_block, NodeShape.layout]

/-- One record of the table of contents gives its record back. -/
theorem tocEntry_block {slot : NodeSlot} (hslot : slot ∈ plan.slots) {e : Nat} {rest : Bytes}
    (he : e + plan.layout.entryLen ≤ plan.block.length)
    (h : plan.block.drop e = plan.tocRecord slot ++ rest) :
    tocEntry plan.block plan.layout e = some slot.entry := by
  have hfits := plan.fits slot hslot
  have hkey := plan.getRange_block (NodeShape.mem_dataPieces.mpr ⟨slot, hslot, .inl rfl⟩)
  have hvalue := plan.getRange_block (NodeShape.mem_dataPieces.mpr ⟨slot, hslot, .inr rfl⟩)
  have hoff : slot.valOff ≤ plan.layout.valBase :=
    Nat.le_trans (Nat.le_add_left _ _) hfits.valOff_le
  simp only [NodeShape.keyPiece, NodeShape.valuePiece] at hkey hvalue
  rw [NodeLayout.entryLen] at he
  by_cases hfixed : plan.layout.fixed = true
  · rw [if_pos hfixed] at he
    rw [NodeShape.tocRecord, if_pos hfixed, List.append_assoc] at h
    obtain ⟨hkeyOff, h⟩ := leUInt_step hfits.keyOff_lt (by omega) h
    obtain ⟨hvalOff, -⟩ := leUInt_step hfits.valOff_lt (by omega) h
    obtain ⟨hkeyLen, hvalLen⟩ := hfits.sizes hfixed
    rw [hkeyLen] at hkey
    rw [hvalLen] at hvalue
    simp only [tocEntry, leU16, hfixed, if_true, hkeyOff, hvalOff, if_pos hoff, hkey, hvalue]
  · rw [if_neg hfixed] at he
    rw [NodeShape.tocRecord, if_neg hfixed] at h
    simp only [List.append_assoc] at h
    obtain ⟨hkeyOff, h⟩ := leUInt_step hfits.keyOff_lt (by omega) h
    obtain ⟨hkeyLen, h⟩ := leUInt_step hfits.keyLen_lt (by omega) h
    obtain ⟨hvalOff, h⟩ := leUInt_step hfits.valOff_lt (by omega) h
    obtain ⟨hvalLen, -⟩ := leUInt_step hfits.valLen_lt (by omega) h
    simp only [tocEntry, leU16, if_neg hfixed, hkeyOff, hkeyLen, hvalOff, hvalLen, if_pos hoff,
      hkey, hvalue]

/-- The walk of the table from record `i` on, with the records `todo` still to come: no
round leaves the table, and none is passed over. -/
theorem tocEntries_block : ∀ (todo : List NodeSlot) (i : Nat) (rest : Bytes),
    (∀ slot ∈ todo, slot ∈ plan.slots) →
    plan.block.drop (plan.layout.tocStart + i * plan.layout.entryLen)
      = todo.flatMap plan.tocRecord ++ rest →
    plan.layout.tocStart + (i + todo.length) * plan.layout.entryLen ≤ plan.layout.keyArea →
    tocEntries plan.block plan.layout todo.length i = todo.map NodeSlot.entry := by
  intro todo
  induction todo with
  | nil => intro i rest _ _ _; rfl
  | cons slot todo ih =>
    intro i rest hmem hdrop hend
    have hnext : i + (slot :: todo).length = i + 1 + todo.length := by
      rw [List.length_cons]
      omega
    have hround : (i + 1) * plan.layout.entryLen ≤ (i + 1 + todo.length) * plan.layout.entryLen :=
      Nat.mul_le_mul_right _ (Nat.le_add_right _ _)
    have hsucc : (i + 1) * plan.layout.entryLen
        = i * plan.layout.entryLen + plan.layout.entryLen := Nat.succ_mul _ _
    have harea := plan.keyArea_le_length
    rw [hnext] at hend
    rw [List.flatMap_cons, List.append_assoc] at hdrop
    have hentry := plan.tocEntry_block (hmem slot List.mem_cons_self) (by omega) hdrop
    have hdrop' := drop_add_of_drop hdrop
    rw [NodeShape.length_tocRecord, Nat.add_assoc, ← hsucc] at hdrop'
    have hrest := ih (i + 1) rest (fun t ht => hmem t (List.mem_cons_of_mem slot ht)) hdrop' hend
    rw [List.length_cons, tocEntries, if_neg (by omega)]
    simp only [hentry, hrest, List.map_cons]

/-- **Node decoding inverts the layout of a node.**  Whatever the block size, the kind of
the node, the place and the slack of the table of contents and the places of the keys and
values, `node_entries` of the block written gives the records in the order of the table. -/
theorem nodeEntries_block :
    nodeEntries plan.block plan.subtype = plan.slots.map NodeSlot.entry := by
  obtain ⟨rest, hdrop⟩ := plan.exists_drop_block (List.mem_cons_of_mem _ List.mem_cons_self)
  have hend := plan.stop_tocPiece_le
  rw [Piece.stop, NodeShape.length_tocPiece] at hend
  have hcap : min plan.header.nkeys maxBtnNkeys = plan.slots.length :=
    Nat.min_eq_left (Nat.le_of_lt
      (Nat.lt_trans plan.slots_length_lt (by decide : 2 ^ 16 < maxBtnNkeys)))
  rw [nodeEntries, plan.read_header.1]
  simp only [nodeLayout_block, hcap]
  apply plan.tocEntries_block plan.slots 0 rest (fun _ h => h)
  · rw [Nat.zero_mul, Nat.add_zero]
    exact hdrop
  · rw [Nat.zero_add]
    exact hend

end NodePlan

/-! ### A node with slack -/

/-- A root leaf of 136 bytes: a table of contents four bytes in with room for three records,
keys out of order, a value that ends at the footer and an empty one. -/
def slackLeaf : NodePlan where
  base := List.replicate 136 0xff
  subtype := .fsTree
  flags := 0x1 ||| 0x2
  level := 0
  tocOff := 4
  tocLen := 24
  slots := [⟨⟨[5, 6], [1, 2, 3]⟩, 1, 3⟩, ⟨⟨[7], []⟩, 0, 0⟩]
  flags_lt := by decide
  level_lt := by decide
  tocOff_lt := by decide
  tocLen_lt := by decide
  toc_le := by decide
  keyArea_le := by decide +kernel
  fits := by
    intro slot hslot
    simp only [List.mem_cons, List.not_mem_nil, or_false] at hslot
    rcases hslot with rfl | rfl <;> constructor <;> decide +kernel
  disjoint := by decide +kernel

example : nodeEntries slackLeaf.block .fsTree = [⟨[5, 6], [1, 2, 3]⟩, ⟨[7], []⟩] := by
  decide +kernel

end ApfsForensic
