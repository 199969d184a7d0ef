import ApfsForensic.Core.Encode
import ApfsForensic.Core.Inode
import Mathlib.Data.List.Induction

/-!
# Extended fields as they are written

`parse_xfields` of `core/src/fsrecord.rs` on blobs that were written field by field, and on
blobs that were cut.

The descriptors stand in a table behind the header, the values behind the table, each padded
to eight bytes.  The walk has two cursors, one in each part; `xfieldsFrom_encode` keeps what
is left to read behind both.  On a cut blob the table is whole or nothing is read, and the
walk ends at the first value that is not whole, so what it gives is the start of what the
whole blob gives (`xfieldsFrom_take`).
-/

namespace ApfsForensic

/-! ### Writing a blob -/

/-- An extended field as it is written.  The padding may hold anything. -/
structure XField where
  type : Nat
  flags : Nat
  value : Bytes
  padding : Bytes
  type_lt : type < 256
  flags_lt : flags < 256
  length_value : value.length ≤ 65535
  length_padding : value.length + padding.length = (value.length + 7) / 8 * 8

namespace XField

/-- `x_field_t`. -/
def descriptor (f : XField) : Bytes :=
  toLeBytes 1 f.type ++ (toLeBytes 1 f.flags ++ toLeBytes 2 f.value.length)

/-- What `parse_xfields` gives for the field. -/
def pair (f : XField) : Nat × Bytes := (f.type, f.value)

theorem length_descriptor (f : XField) : f.descriptor.length = 4 := by
  simp only [descriptor, List.length_append, length_toLeBytes]

end XField

/-- The values with their padding, without that of the last one. -/
def paddedValues : List XField → Bytes
  | [] => []
  | [f] => f.value
  | f :: g :: fields => f.value ++ (f.padding ++ paddedValues (g :: fields))

/-- `xf_blob`, with anything behind it. -/
def xfBlob (usedData : Nat) (fields : List XField) (trailing : Bytes) : Bytes :=
  toLeBytes 2 fields.length ++ (toLeBytes 2 usedData ++
    (fields.flatMap XField.descriptor ++ (paddedValues fields ++ trailing)))

/-! ### Reading it back -/

theorem length_descriptors (fields : List XField) :
    (fields.flatMap XField.descriptor).length = fields.length * 4 :=
  length_flatMap_of_length fun f _ => f.length_descriptor

/-- One descriptor gives the type and the size of its value. -/
theorem read_descriptor {data rest : Bytes} {d : Nat} {f : XField} (hd : d + 4 ≤ data.length)
    (h : data.drop d = f.descriptor ++ rest) :
    leUInt 1 data d = f.type ∧ leU16 data (d + 2) = f.value.length := by
  rw [XField.descriptor, List.append_assoc, List.append_assoc] at h
  have hsize := f.length_value
  obtain ⟨htype, h⟩ := leUInt_step f.type_lt (by omega) h
  obtain ⟨-, h⟩ := leUInt_step f.flags_lt (by omega) h
  obtain ⟨hvalue, -⟩ := leUInt_step (by omega : f.value.length < 256 ^ 2) (by omega) h
  exact ⟨htype, hvalue⟩

/-- The walk over the fields `todo` that are left, with the descriptors at one cursor and the
values at the other. -/
theorem xfieldsFrom_encode {data : Bytes} : ∀ (todo : List XField) (i valueOff : Nat)
    (descriptors values : Bytes),
    4 + (i + todo.length) * 4 ≤ data.length → valueOff ≤ data.length →
    data.drop (4 + i * 4) = todo.flatMap XField.descriptor ++ descriptors →
    data.drop valueOff = paddedValues todo ++ values →
    xfieldsFrom data todo.length i valueOff = todo.map XField.pair := by
  intro todo
  induction todo with
  | nil => intro i valueOff _ _ _ _ _ _; rfl
  | cons f todo ih =>
    intro i valueOff descriptors values hend hoff hdesc hval
    rw [List.length_cons] at hend
    rw [List.flatMap_cons, List.append_assoc] at hdesc
    obtain ⟨htype, hsize⟩ := read_descriptor (by omega) hdesc
    have hnext := drop_add_of_drop hdesc
    rw [f.length_descriptor, (by omega : 4 + i * 4 + 4 = 4 + (i + 1) * 4)] at hnext
    have hpadding := f.length_padding
    cases todo with
    | nil =>
      -- behind the last value nothing is read
      have hvalue := getRange_of_drop hoff hval
      simp only [paddedValues] at hvalue
      simp only [List.length_singleton, xfieldsFrom, htype, hsize, hvalue, List.map_cons,
        List.map_nil, XField.pair]
    | cons g todo =>
      simp only [paddedValues, List.append_assoc] at hval
      have hvalue := getRange_of_drop hoff hval
      have hlen := length_of_drop hoff hval
      have hval' := drop_add_of_drop (drop_add_of_drop hval)
      rw [Nat.add_assoc, hpadding] at hval'
      rw [List.length_append] at hlen
      have hrest := ih (i + 1) (valueOff + (f.value.length + 7) / 8 * 8) descriptors values
        (by omega) (by omega) hnext hval'
      rw [List.length_cons, xfieldsFrom]
      simp only [htype, hsize, hvalue, hrest, List.map_cons, XField.pair]

theorem parseXfields_xfBlob {fields : List XField} (hcount : fields.length ≤ maxXfNumExts)
    (usedData : Nat) (trailing : Bytes) :
    parseXfields (xfBlob usedData fields trailing) = fields.map XField.pair := by
  have hcap : maxXfNumExts = 4096 := rfl
  generalize hdata : xfBlob usedData fields trailing = data
  have h : data.drop 0 = xfBlob usedData fields trailing := by rw [List.drop_zero, hdata]
  rw [xfBlob] at h
  have hlen := congrArg List.length h
  simp only [List.length_append, length_toLeBytes, length_descriptors, List.length_drop] at hlen
  obtain ⟨hnum, h⟩ := leUInt_step (by omega : fields.length < 256 ^ 2) (Nat.zero_le _) h
  have hdesc := drop_add_of_drop h
  have hval := drop_add_of_drop hdesc
  rw [length_toLeBytes] at hdesc hval
  rw [length_descriptors] at hval
  have hrun := xfieldsFrom_encode fields 0 (4 + fields.length * 4) _ _ (by omega) (by omega)
    hdesc hval
  rw [parseXfields, if_neg (by omega), leU16, hnum, Nat.min_eq_left hcount]
  simp only [hrun]
  rw [if_neg (by omega)]

/-! ### Cutting it -/

/-- The walk over a cut blob whose table is whole. -/
theorem xfieldsFrom_take {data : Bytes} {n : Nat} : ∀ (remaining i valueOff : Nat),
    4 + (i + remaining) * 4 ≤ n →
    xfieldsFrom (data.take n) remaining i valueOff <+: xfieldsFrom data remaining i valueOff := by
  intro remaining
  induction remaining with
  | zero => intro i valueOff _; exact List.prefix_rfl
  | succ remaining ih =>
    intro i valueOff hend
    have htype : leUInt 1 (data.take n) (4 + i * 4) = leUInt 1 data (4 + i * 4) :=
      leUInt_take (by omega)
    have hsize : leU16 (data.take n) (4 + i * 4 + 2) = leU16 data (4 + i * 4 + 2) :=
      leUInt_take (by omega)
    simp only [xfieldsFrom, htype, hsize]
    cases hcut : getRange (data.take n) valueOff (valueOff + leU16 data (4 + i * 4 + 2)) with
    | none => exact List.nil_prefix
    | some value =>
      simp only [getRange_of_take hcut]
      exact List.cons_prefix_cons.mpr ⟨rfl, ih _ _ (by omega)⟩

theorem parseXfields_take (data : Bytes) (n : Nat) :
    parseXfields (data.take n) <+: parseXfields data := by
  have hcut : (data.take n).length ≤ n := List.length_take_le n data
  have hle : (data.take n).length ≤ data.length := List.length_take_le' n data
  rw [parseXfields]
  split
  · exact List.nil_prefix
  · have hnum : leU16 (data.take n) 0 = leU16 data 0 := leUInt_take (by omega)
    rw [hnum]
    simp only
    split
    · exact List.nil_prefix
    · rw [parseXfields, if_neg (by omega)]
      simp only
      rw [if_neg (by omega)]
      exact xfieldsFrom_take _ 0 _ (by omega)

/-! ### The name and the size of an inode -/

/-- The value of the last field of a type. -/
def lastXfield (type : Nat) (fields : List (Nat × Bytes)) : Option Bytes :=
  (fields.filter (fun f => f.1 = type)).getLast?.map Prod.snd

theorem lastXfield_concat (type : Nat) (fields : List (Nat × Bytes)) (f : Nat × Bytes) :
    lastXfield type (fields ++ [f])
      = if f.1 = type then some f.2 else lastXfield type fields := by
  rw [lastXfield, lastXfield, getLast?_filter_concat]
  split <;> rfl

/-- What the loop of `Inode::parse` keeps. -/
theorem foldl_inodeXfield (fields : List (Nat × Bytes)) :
    fields.foldl inodeXfield (none, none)
      = ((lastXfield 4 fields).map decodeCstr,
          (lastXfield 8 fields).map (fun data => leU64 data 0)) := by
  induction fields using List.reverseRecOn with
  | nil => rfl
  | append_singleton fields f ih =>
    rw [List.foldl_append, ih, List.foldl_cons, List.foldl_nil, lastXfield_concat,
      lastXfield_concat, inodeXfield]
    split
    · rename_i htype
      rw [if_pos htype, if_neg (by omega)]
      rfl
    · rename_i htype
      rw [if_neg (by omega), if_pos htype]
      rfl
    · rename_i hname hsize
      rw [if_neg hname, if_neg hsize]

theorem inode_name_size (oid : Nat) (value : Bytes) :
    (Inode.parse oid value).name
        = (lastXfield 4 (parseXfields (value.drop offXfields))).map decodeCstr ∧
      (Inode.parse oid value).size
        = (lastXfield 8 (parseXfields (value.drop offXfields))).map
            (fun data => leU64 data 0) := by
  by_cases hlen : value.length > offXfields
  · simp only [Inode.parse, if_pos hlen, foldl_inodeXfield, and_self]
  · have hnone : value.drop offXfields = [] := List.drop_eq_nil_of_le (Nat.le_of_not_lt hlen)
    rw [hnone]
    simp only [Inode.parse, if_neg hlen]
    exact ⟨rfl, rfl⟩

/-- **Extended fields round-trip and degrade to a prefix.**  A blob of at most 4096 fields is
read back whole.  A cut of any byte string gives the start of its fields.  An inode has its
name and size from the last fields of the types `INO_EXT_TYPE_NAME` and
`INO_EXT_TYPE_DSTREAM`. -/
theorem xfields_round_trip :
    (∀ (usedData : Nat) (fields : List XField) (trailing : Bytes), fields.length ≤ 4096 →
      parseXfields (xfBlob usedData fields trailing) = fields.map XField.pair) ∧
    (∀ (data : Bytes) (n : Nat), parseXfields (data.take n) <+: parseXfields data) ∧
    ∀ (oid : Nat) (value : Bytes),
      (Inode.parse oid value).name
          = (lastXfield 4 (parseXfields (value.drop offXfields))).map decodeCstr ∧
        (Inode.parse oid value).size
          = (lastXfield 8 (parseXfields (value.drop offXfields))).map
              (fun data => leU64 data 0) :=
  ⟨fun usedData _ trailing hcount => parseXfields_xfBlob hcount usedData trailing,
    parseXfields_take, inode_name_size⟩

/-! ### A name and two sizes -/

/-- Three fields, of which the second is empty and the last has no padding behind it. -/
def threeXfields : List XField :=
  [⟨8, 0x20, toLeBytes 8 7, [], by decide, by decide, by decide, by decide⟩,
    ⟨8, 0, [], [], by decide, by decide, by decide, by decide⟩,
    ⟨4, 2, [0x41, 0], List.replicate 6 9, by decide, by decide, by decide, by decide⟩]

example : parseXfields (xfBlob 0 threeXfields [1])
    = [(8, toLeBytes 8 7), (8, []), (4, [0x41, 0])] := by decide

end ApfsForensic
