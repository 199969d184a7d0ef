import ApfsForensic.Core.Dir
import ApfsForensic.Core.Encode

/-!
# Names of directory records

`decode_drec_name` of `core/src/dir.rs` reads two forms of a key and is not told which one
it has: it takes the hashed form where the length of that form fits the key.

* `utf8LossyFrom_encodeChar`, `fromUtf8Lossy_utf8Bytes`: the lossy decoder gives valid UTF-8
  back, character by character.
* In an unhashed key the word at offset 8 holds the length in its low bits and the first
  bytes of the name above it.  Read as a hashed key it asks for as many bytes, but two bytes
  further on, and the key ends before (`hashed_misses_unhashedKey`).
* `drec_key_forms`: both forms give the name and the fields of the value.
-/

namespace ApfsForensic

/-! ### Valid UTF-8 -/

/-- The bytes of a string. -/
def utf8Bytes (s : String) : Bytes := s.toUTF8.data.toList

section Decoder

variable {b : UInt8} {rest : Bytes} {owed bits lo hi : Nat}

theorem utf8LossyFrom_more (h : lo ≤ b.toNat ∧ b.toNat ≤ hi) :
    utf8LossyFrom (some ⟨owed + 2, bits, lo, hi⟩) (b :: rest)
      = utf8LossyFrom (some ⟨owed + 1, bits * 64 + (b.toNat - 0x80), 0x80, 0xbf⟩) rest := by
  rw [utf8LossyFrom, utf8Step, if_pos h]
  rfl

theorem utf8LossyFrom_last (h : lo ≤ b.toNat ∧ b.toNat ≤ hi) :
    utf8LossyFrom (some ⟨1, bits, lo, hi⟩) (b :: rest)
      = Char.ofNat (bits * 64 + (b.toNat - 0x80)) :: utf8LossyFrom none rest := by
  rw [utf8LossyFrom, utf8Step, if_pos h]
  rfl

theorem utf8LossyFrom_ascii (h : b.toNat < 0x80) :
    utf8LossyFrom none (b :: rest) = Char.ofNat b.toNat :: utf8LossyFrom none rest := by
  rw [utf8LossyFrom, utf8Step, utf8Start, if_pos h]
  rfl

theorem utf8LossyFrom_lead2 (h : 0xc2 ≤ b.toNat) (h' : b.toNat < 0xe0) :
    utf8LossyFrom none (b :: rest)
      = utf8LossyFrom (some ⟨1, b.toNat - 0xc0, 0x80, 0xbf⟩) rest := by
  rw [utf8LossyFrom, utf8Step, utf8Start, if_neg (by omega), if_neg (by omega), if_pos h']
  rfl

/-- A lead byte of three: the range of the second byte leaves out overlong forms and
surrogates. -/
theorem utf8LossyFrom_lead3 (h : 0xe0 ≤ b.toNat) (h' : b.toNat < 0xf0) :
    utf8LossyFrom none (b :: rest)
      = utf8LossyFrom (some ⟨2, b.toNat - 0xe0, if b.toNat = 0xe0 then 0xa0 else 0x80,
          if b.toNat = 0xed then 0x9f else 0xbf⟩) rest := by
  rw [utf8LossyFrom, utf8Step, utf8Start, if_neg (by omega), if_neg (by omega),
    if_neg (by omega)]
  by_cases he0 : b.toNat = 0xe0
  · rw [if_pos he0, if_pos he0, if_neg (by omega), he0]
    rfl
  · by_cases hed : b.toNat = 0xed
    · rw [if_neg he0, if_neg he0, if_pos hed, if_pos hed, hed]
      rfl
    · rw [if_neg he0, if_neg he0, if_neg hed, if_neg hed, if_pos h']
      rfl

/-- A lead byte of four: the range of the second byte leaves out overlong forms and what lies
past U+10FFFF. -/
theorem utf8LossyFrom_lead4 (h : 0xf0 ≤ b.toNat) (h' : b.toNat ≤ 0xf4) :
    utf8LossyFrom none (b :: rest)
      = utf8LossyFrom (some ⟨3, b.toNat - 0xf0, if b.toNat = 0xf0 then 0x90 else 0x80,
          if b.toNat = 0xf4 then 0x8f else 0xbf⟩) rest := by
  rw [utf8LossyFrom, utf8Step, utf8Start, if_neg (by omega), if_neg (by omega),
    if_neg (by omega), if_neg (by omega), if_neg (by omega), if_neg (by omega)]
  by_cases hf0 : b.toNat = 0xf0
  · rw [if_pos hf0, if_pos hf0, if_neg (by omega), hf0]
    rfl
  · by_cases hf4 : b.toNat = 0xf4
    · rw [if_neg hf0, if_neg hf0, if_neg (by omega), if_pos hf4, if_pos hf4, hf4]
      rfl
    · rw [if_neg hf0, if_neg hf0, if_pos (by omega), if_neg hf4]
      rfl

end Decoder

section Encoded

variable {v : Nat} (rest : Bytes)

theorem toNat_ofNat_of_lt {n : Nat} (h : n < 256) : (UInt8.ofNat n).toNat = n := by
  rw [UInt8.toNat_ofNat']
  omega

theorem utf8LossyFrom_two (hlo : 0x80 ≤ v) (hhi : v ≤ 0x7ff) :
    utf8LossyFrom none (UInt8.ofNat (v / 64 % 32 + 192) :: UInt8.ofNat (v % 64 + 128) :: rest)
      = Char.ofNat v :: utf8LossyFrom none rest := by
  have h0 := toNat_ofNat_of_lt (by omega : v / 64 % 32 + 192 < 256)
  have h1 := toNat_ofNat_of_lt (by omega : v % 64 + 128 < 256)
  have hv : (v / 64 % 32 + 192 - 0xc0) * 64 + (v % 64 + 128 - 0x80) = v := by omega
  rw [utf8LossyFrom_lead2 (by omega) (by omega), utf8LossyFrom_last (by omega), h0, h1, hv]

theorem utf8LossyFrom_three (hlo : 0x800 ≤ v) (hhi : v ≤ 0xffff)
    (hsurrogate : v < 0xd800 ∨ 0xdfff < v) :
    utf8LossyFrom none (UInt8.ofNat (v / 4096 % 16 + 224) :: UInt8.ofNat (v / 64 % 64 + 128) ::
        UInt8.ofNat (v % 64 + 128) :: rest)
      = Char.ofNat v :: utf8LossyFrom none rest := by
  have h0 := toNat_ofNat_of_lt (by omega : v / 4096 % 16 + 224 < 256)
  have h1 := toNat_ofNat_of_lt (by omega : v / 64 % 64 + 128 < 256)
  have h2 := toNat_ofNat_of_lt (by omega : v % 64 + 128 < 256)
  have hv : ((v / 4096 % 16 + 224 - 0xe0) * 64 + (v / 64 % 64 + 128 - 0x80)) * 64
      + (v % 64 + 128 - 0x80) = v := by omega
  rw [utf8LossyFrom_lead3 (by omega) (by omega), h0, utf8LossyFrom_more, utf8LossyFrom_last, h1,
    h2, hv]
  · omega
  · rw [h1]
    constructor <;> split <;> omega

theorem utf8LossyFrom_four (hlo : 0x10000 ≤ v) (hhi : v < 0x110000) :
    utf8LossyFrom none (UInt8.ofNat (v / 262144 % 8 + 240) ::
        UInt8.ofNat (v / 4096 % 64 + 128) :: UInt8.ofNat (v / 64 % 64 + 128) ::
        UInt8.ofNat (v % 64 + 128) :: rest)
      = Char.ofNat v :: utf8LossyFrom none rest := by
  have h0 := toNat_ofNat_of_lt (by omega : v / 262144 % 8 + 240 < 256)
  have h1 := toNat_ofNat_of_lt (by omega : v / 4096 % 64 + 128 < 256)
  have h2 := toNat_ofNat_of_lt (by omega : v / 64 % 64 + 128 < 256)
  have h3 := toNat_ofNat_of_lt (by omega : v % 64 + 128 < 256)
  have hv : (((v / 262144 % 8 + 240 - 0xf0) * 64 + (v / 4096 % 64 + 128 - 0x80)) * 64
      + (v / 64 % 64 + 128 - 0x80)) * 64 + (v % 64 + 128 - 0x80) = v := by omega
  rw [utf8LossyFrom_lead4 (by omega) (by omega), h0, utf8LossyFrom_more, utf8LossyFrom_more,
    utf8LossyFrom_last, h1, h2, h3, hv]
  · omega
  · omega
  · rw [h1]
    constructor <;> split <;> omega

end Encoded

/-- **One character is read back**, whatever follows it. -/
theorem utf8LossyFrom_encodeChar (c : Char) (rest : Bytes) :
    utf8LossyFrom none (String.utf8EncodeChar c ++ rest) = c :: utf8LossyFrom none rest := by
  have hchar : Char.ofNat c.val.toNat = c := Char.ofNat_toNat c
  have hvalid : c.val.toNat < 0xd800 ∨ 0xdfff < c.val.toNat ∧ c.val.toNat < 0x110000 := c.valid
  rw [String.utf8EncodeChar]
  generalize c.val.toNat = v at hchar hvalid ⊢
  rw [← hchar]
  -- the cases are the four lengths of an encoding
  split
  · rw [List.singleton_append, utf8LossyFrom_ascii, toNat_ofNat_of_lt (by omega)]
    rw [toNat_ofNat_of_lt (by omega)]
    omega
  · split
    · exact utf8LossyFrom_two rest (by omega) (by omega)
    · split
      · exact utf8LossyFrom_three rest (by omega) (by omega) (by omega)
      · exact utf8LossyFrom_four rest (by omega) (by omega)

theorem utf8LossyFrom_flatMap : ∀ cs : List Char,
    utf8LossyFrom none (cs.flatMap String.utf8EncodeChar) = cs := by
  intro cs
  induction cs with
  | nil => rfl
  | cons c cs ih => rw [List.flatMap_cons, utf8LossyFrom_encodeChar, ih]

theorem utf8Bytes_eq (s : String) : utf8Bytes s = s.toList.flatMap String.utf8EncodeChar := by
  rw [utf8Bytes, String.toUTF8, ← String.utf8Encode_toList, List.utf8Encode,
    List.toList_data_toByteArray]

/-- **Valid UTF-8 is decoded without loss.** -/
theorem fromUtf8Lossy_utf8Bytes (s : String) : fromUtf8Lossy (utf8Bytes s) = s := by
  rw [fromUtf8Lossy, utf8Bytes_eq, utf8LossyFrom_flatMap, String.ofList_toList]

theorem decodeCstr_utf8Bytes {s : String} (h : 0 ∉ utf8Bytes s) :
    decodeCstr (utf8Bytes s ++ [0]) = s := by
  have htake : (utf8Bytes s ++ [0]).takeWhile (· != 0) = utf8Bytes s := by
    rw [List.takeWhile_append_of_pos]
    · simp
    · intro b hb
      rw [bne_iff_ne]
      rintro rfl
      exact h hb
  rw [decodeCstr, htake, fromUtf8Lossy_utf8Bytes]

/-! ### The two forms of a key -/

/-- A directory record as it is written: its fields fit, and its name with the NUL has a
length of ten bits. -/
structure DrecRecord where
  parent : Nat
  hash : Nat
  entry : DirEntry
  xfields : Bytes
  hash_lt : hash < 2 ^ 22
  fileId_lt : entry.fileId < 2 ^ 64
  dateAdded_lt : entry.dateAdded < 2 ^ 64
  flags_lt : entry.flags < 2 ^ 16
  no_nul : 0 ∉ utf8Bytes entry.name
  length_le : (utf8Bytes entry.name).length + 1 ≤ 1023

namespace DrecRecord

variable (r : DrecRecord)

/-- The name with its NUL. -/
def cname : Bytes := utf8Bytes r.entry.name ++ [0]

/-- `j_drec_hashed_key_t`. -/
def hashedKey : Bytes :=
  jkeyBytes 9 r.parent ++ (toLeBytes 4 (r.hash * 2 ^ 10 + r.cname.length) ++ r.cname)

/-- `j_drec_key_t`. -/
def unhashedKey : Bytes := jkeyBytes 9 r.parent ++ (toLeBytes 2 r.cname.length ++ r.cname)

/-- `j_drec_val_t`, with its extended fields. -/
def value : Bytes :=
  toLeBytes 8 r.entry.fileId ++ (toLeBytes 8 r.entry.dateAdded ++
    (toLeBytes 2 r.entry.flags ++ r.xfields))

theorem length_cname : 0 < r.cname.length ∧ r.cname.length ≤ 1023 := by
  have h := r.length_le
  rw [cname, List.length_append, List.length_singleton]
  omega

theorem length_jkey : (jkeyBytes 9 r.parent).length = 8 := length_toLeBytes 8 _

theorem length_hashedKey : r.hashedKey.length = 12 + r.cname.length := by
  rw [hashedKey, List.length_append, List.length_append, length_jkey, length_toLeBytes]
  omega

theorem length_unhashedKey : r.unhashedKey.length = 10 + r.cname.length := by
  rw [unhashedKey, List.length_append, List.length_append, length_jkey, length_toLeBytes]
  omega

/-- Behind the object id stands the length, then the name. -/
theorem drop_hashedKey : r.hashedKey.drop 8
    = toLeBytes 4 (r.hash * 2 ^ 10 + r.cname.length) ++ (r.cname ++ []) := by
  rw [hashedKey, List.drop_left' r.length_jkey, List.append_nil]

theorem drop_unhashedKey : r.unhashedKey.drop 8
    = toLeBytes 2 r.cname.length ++ (r.cname ++ []) := by
  rw [unhashedKey, List.drop_left' r.length_jkey, List.append_nil]

theorem decodeDrecName_hashedKey : decodeDrecName r.hashedKey = some r.entry.name := by
  obtain ⟨hpos, hle⟩ := r.length_cname
  have hhash := r.hash_lt
  have hlen := r.length_hashedKey
  obtain ⟨hword, hdrop⟩ := leUInt_step
    (by omega : r.hash * 2 ^ 10 + r.cname.length < 256 ^ 4) (by omega) r.drop_hashedKey
  have hlow : leU32 r.hashedKey 8 &&& 0x3ff = r.cname.length := by
    rw [leU32, hword, (by rfl : 0x3ff = 2 ^ 10 - 1), Nat.and_two_pow_sub_one_eq_mod]
    omega
  have hname : getRange r.hashedKey 12 (12 + r.cname.length) = some r.cname :=
    getRange_of_drop (by omega) hdrop
  rw [decodeDrecName, hlow]
  simp only [if_pos hpos, hname]
  rw [cname, decodeCstr_utf8Bytes r.no_nul]

/-- Read as a hashed key, an unhashed one is too short for its own length. -/
theorem hashed_misses_unhashedKey :
    decodeDrecName r.unhashedKey = decodeUnhashedName r.unhashedKey := by
  obtain ⟨hpos, hle⟩ := r.length_cname
  have hlen := r.length_unhashedKey
  obtain ⟨hsize, -⟩ := leUInt_step
    (by omega : r.cname.length < 256 ^ 2) (by omega) r.drop_unhashedKey
  rw [decodeDrecName]
  by_cases hshort : r.unhashedKey.length < 12
  · -- the name is empty, and the key ends inside the word
    have hzero : leU32 r.unhashedKey 8 = 0 := by
      rw [leU32, leUInt, getRange, if_neg (by omega)]
    simp only [hzero, Nat.zero_and, Nat.lt_irrefl, if_false]
  · have hmod : leU32 r.unhashedKey 8 % 2 ^ 16 = r.cname.length :=
      (leU32_mod_of_le (by omega)).trans hsize
    have hlow : leU32 r.unhashedKey 8 &&& 0x3ff = r.cname.length := by
      rw [(by rfl : 0x3ff = 2 ^ 10 - 1), Nat.and_two_pow_sub_one_eq_mod]
      omega
    have hnone : getRange r.unhashedKey 12 (12 + r.cname.length) = none := by
      rw [getRange, if_neg (by omega)]
    simp only [hlow, if_pos hpos, hnone]

theorem decodeDrecName_unhashedKey : decodeDrecName r.unhashedKey = some r.entry.name := by
  obtain ⟨hpos, hle⟩ := r.length_cname
  have hlen := r.length_unhashedKey
  obtain ⟨hsize, hdrop⟩ := leUInt_step
    (by omega : r.cname.length < 256 ^ 2) (by omega) r.drop_unhashedKey
  have hname : getRange r.unhashedKey 10 (10 + r.cname.length) = some r.cname :=
    getRange_of_drop (by omega) hdrop
  rw [hashed_misses_unhashedKey, decodeUnhashedName, leU16, hsize]
  simp only [if_pos hpos, hname, Option.map_some]
  rw [cname, decodeCstr_utf8Bytes r.no_nul]

/-- The fields of the value are read back. -/
theorem read_value : leU64 r.value 0 = r.entry.fileId ∧ leU64 r.value 8 = r.entry.dateAdded ∧
    leU16 r.value 16 = r.entry.flags := by
  have hlen : 18 ≤ r.value.length := by
    simp only [value, List.length_append, length_toLeBytes]
    omega
  have h : r.value.drop 0 = toLeBytes 8 r.entry.fileId ++ (toLeBytes 8 r.entry.dateAdded ++
      (toLeBytes 2 r.entry.flags ++ r.xfields)) := List.drop_zero
  obtain ⟨hfileId, h⟩ := leUInt_step r.fileId_lt (by omega) h
  obtain ⟨hdateAdded, h⟩ := leUInt_step r.dateAdded_lt (by omega) h
  obtain ⟨hflags, -⟩ := leUInt_step r.flags_lt (by omega) h
  exact ⟨hfileId, hdateAdded, hflags⟩

theorem parseDirEntry_of_name {key : Bytes} (h : decodeDrecName key = some r.entry.name) :
    parseDirEntry key r.value = some r.entry := by
  obtain ⟨hfileId, hdateAdded, hflags⟩ := r.read_value
  simp only [parseDirEntry, h, hfileId, hdateAdded, hflags]

/-- **Both key forms give the record back.**  For every parent, every hash, every name
without a NUL that fits, and every value. -/
theorem drec_key_forms : parseDirEntry r.hashedKey r.value = some r.entry ∧
    parseDirEntry r.unhashedKey r.value = some r.entry :=
  ⟨r.parseDirEntry_of_name r.decodeDrecName_hashedKey,
    r.parseDirEntry_of_name r.decodeDrecName_unhashedKey⟩

end DrecRecord

/-- A name with a character of two bytes and one of three. -/
def accentedRecord : DrecRecord where
  parent := 2
  hash := 0x2f0155
  entry := ⟨"é€", 1234567, 7654321, 0x8008⟩
  xfields := [1]
  hash_lt := by decide
  fileId_lt := by decide
  dateAdded_lt := by decide
  flags_lt := by decide
  no_nul := by decide +kernel
  length_le := by decide +kernel

example : parseDirEntry accentedRecord.unhashedKey accentedRecord.value
    = some ⟨"é€", 1234567, 7654321, 0x8008⟩ := by decide +kernel

end ApfsForensic
