import Mathlib.Algebra.GroupWithZero.Nat
import ApfsForensic.Core.NodeCodec

/-!
# Packed nodes

The node of the test suites (`btree_node`, `fixed_node`): a table of contents without slack, keys
packed forward behind it and values packed backward from the end.  `packNode` is that node as a
plan, for every list of records that has room (`Room`).
-/

namespace ApfsForensic

open Walk

/-- The offsets of packed records, from `keyOff` and `valOff` on. -/
def packSlots : (keyOff valOff : Nat) → List Entry → List NodeSlot
  | _, _, [] => []
  | keyOff, valOff, e :: es =>
    ⟨e, keyOff, valOff + e.value.length⟩ ::
      packSlots (keyOff + e.key.length) (valOff + e.value.length) es

def packShape (base : Bytes) (subtype : BTreeSubtype) (flags level : Nat) (es : List Entry) :
    NodeShape where
  base := base
  subtype := subtype
  flags := flags
  level := level
  tocOff := 0
  tocLen := es.length * (if flags &&& 0x4 != 0 then 4 else 8)
  slots := packSlots 0 0 es

def keysLength (es : List Entry) : Nat := (es.map fun e => e.key.length).sum

def valuesLength (es : List Entry) : Nat := (es.map fun e => e.value.length).sum

/-- There is room for the records, and in a node of fixed sizes they have these sizes. -/
structure Room (base : Bytes) (subtype : BTreeSubtype) (flags level : Nat) (es : List Entry) :
    Prop where
  base_le : base.length ≤ 2 ^ 16
  flags_lt : flags < 2 ^ 16
  level_lt : level < 2 ^ 16
  data_le : (packShape base subtype flags level es).layout.keyArea + keysLength es
    + valuesLength es ≤ (packShape base subtype flags level es).layout.valBase
  sizes : (packShape base subtype flags level es).layout.fixed = true → ∀ e ∈ es,
    e.key.length = (packShape base subtype flags level es).layout.keyLen ∧
      e.value.length = (packShape base subtype flags level es).layout.valLen

/-! ### Where the records stand -/

@[simp] theorem length_packSlots : ∀ (es : List Entry) (keyOff valOff : Nat),
    (packSlots keyOff valOff es).length = es.length := by
  intro es
  induction es with
  | nil => intro _ _; rfl
  | cons e es ih => intro _ _; rw [packSlots, List.length_cons, ih, List.length_cons]

@[simp] theorem map_entry_packSlots : ∀ (es : List Entry) (keyOff valOff : Nat),
    (packSlots keyOff valOff es).map NodeSlot.entry = es := by
  intro es
  induction es with
  | nil => intro _ _; rfl
  | cons e es ih => intro _ _; rw [packSlots, List.map_cons, ih]

/-- A packed record stands between the offsets that it is packed from and those that all of them
reach. -/
theorem bounds_of_mem_packSlots : ∀ {es : List Entry} {keyOff valOff : Nat} {slot : NodeSlot},
    slot ∈ packSlots keyOff valOff es → slot.entry ∈ es ∧
      (keyOff ≤ slot.keyOff ∧ slot.keyOff + slot.entry.key.length ≤ keyOff + keysLength es) ∧
      valOff + slot.entry.value.length ≤ slot.valOff ∧
      slot.valOff ≤ valOff + valuesLength es := by
  intro es
  induction es with
  | nil => intro _ _ slot h; exact absurd h List.not_mem_nil
  | cons e es ih =>
    intro keyOff valOff slot h
    have hkeys : keysLength (e :: es) = e.key.length + keysLength es := by simp [keysLength]
    have hvalues : valuesLength (e :: es) = e.value.length + valuesLength es := by
      simp [valuesLength]
    rw [packSlots, List.mem_cons] at h
    rcases h with rfl | h
    · refine ⟨List.mem_cons_self, ⟨le_rfl, ?_⟩, le_rfl, ?_⟩
      · show keyOff + e.key.length ≤ keyOff + keysLength (e :: es)
        omega
      · show valOff + e.value.length ≤ valOff + valuesLength (e :: es)
        omega
    · obtain ⟨hmem, hkey, hvalue⟩ := ih h
      refine ⟨List.mem_cons_of_mem _ hmem, ?_, ?_⟩
      · rw [hkeys]
        omega
      · rw [hvalues]
        omega

/-- A later key stands behind an earlier one, and a later value before an earlier one. -/
theorem pairwise_packSlots : ∀ (es : List Entry) (keyOff valOff : Nat),
    (packSlots keyOff valOff es).Pairwise fun a b =>
      a.keyOff + a.entry.key.length ≤ b.keyOff ∧ a.valOff + b.entry.value.length ≤ b.valOff := by
  intro es
  induction es with
  | nil => intro _ _; exact .nil
  | cons e es ih =>
    intro keyOff valOff
    refine List.pairwise_cons.mpr ⟨fun slot hslot => ?_, ih _ _⟩
    obtain ⟨-, hkey, hvalue⟩ := bounds_of_mem_packSlots hslot
    exact ⟨hkey.1, hvalue.1⟩

/-! ### The plan -/

section Pack

variable {base : Bytes} {subtype : BTreeSubtype} {flags level : Nat} {es : List Entry}

theorem Room.fits (h : Room base subtype flags level es) {slot : NodeSlot}
    (hslot : slot ∈ packSlots 0 0 es) : (packShape base subtype flags level es).Fits slot := by
  obtain ⟨hmem, ⟨-, hkey⟩, hvalue, hoff⟩ := bounds_of_mem_packSlots hslot
  have hdata := h.data_le
  have hbase :=
    le_trans (NodeShape.valBase_le (s := packShape base subtype flags level es)) h.base_le
  have harea : 56 ≤ (packShape base subtype flags level es).layout.keyArea :=
    le_trans (by decide) (le_trans (Nat.le_add_right btnDataOff 0) (Nat.le_add_right _ _))
  constructor
  case sizes => exact fun hfixed => h.sizes hfixed slot.entry hmem
  all_goals omega

theorem Room.disjoint (h : Room base subtype flags level es) :
    (packShape base subtype flags level es).dataPieces.Pairwise Piece.Disjoint := by
  have hdata := h.data_le
  -- every key ends before every value
  have hkeyValue : ∀ a ∈ packSlots 0 0 es, ∀ b ∈ packSlots 0 0 es,
      ((packShape base subtype flags level es).keyPiece a).Disjoint
        ((packShape base subtype flags level es).valuePiece b) := by
    intro a ha b hb
    obtain ⟨-, ⟨-, hkey⟩, -⟩ := bounds_of_mem_packSlots ha
    obtain ⟨-, -, -, hoff⟩ := bounds_of_mem_packSlots hb
    apply Piece.disjoint_of_stop_le
    simp only [Piece.stop, NodeShape.keyPiece, NodeShape.valuePiece]
    omega
  rw [NodeShape.dataPieces, List.pairwise_flatMap]
  constructor
  · intro a ha
    simpa using hkeyValue a ha a ha
  · refine (List.pairwise_of_forall_mem_list fun a ha b hb => And.intro ha hb).and
      (pairwise_packSlots es 0 0) |>.imp ?_
    rintro a b ⟨⟨ha, hb⟩, hkey, hvalue⟩ p hp q hq
    have hoff := (h.fits ha).valOff_le
    have hoff' := (h.fits hb).valOff_le
    simp only [List.mem_cons, List.not_mem_nil, or_false] at hp hq
    rcases hp with rfl | rfl <;> rcases hq with rfl | rfl
    · apply Piece.disjoint_of_stop_le
      simp only [Piece.stop, NodeShape.keyPiece]
      omega
    · exact hkeyValue a ha b hb
    · exact (hkeyValue b hb a ha).symm
    · apply Piece.Disjoint.symm
      apply Piece.disjoint_of_stop_le
      simp only [Piece.stop, NodeShape.valuePiece]
      omega

/-- The packed node of records that have room. -/
def packNode (h : Room base subtype flags level es) : NodePlan where
  toNodeShape := packShape base subtype flags level es
  flags_lt := h.flags_lt
  level_lt := h.level_lt
  tocOff_lt := Nat.two_pow_pos 16
  tocLen_lt := by
    have hdata := h.data_le
    have hbase := le_trans (NodeShape.valBase_le (s := packShape base subtype flags level es))
      h.base_le
    have harea : (packShape base subtype flags level es).layout.keyArea
        = 56 + (packShape base subtype flags level es).tocLen := rfl
    omega
  toc_le := by
    show (packSlots 0 0 es).length * _ ≤ es.length * _
    rw [length_packSlots]
    exact le_rfl
  keyArea_le := by
    have hdata := h.data_le
    omega
  fits := fun _ hslot => h.fits hslot
  disjoint := h.disjoint

end Pack

end ApfsForensic
