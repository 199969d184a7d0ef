import ApfsForensic.Core.WrappedKek

/-!
# Walking an encoded keybag

`read_keybag`, `volume_records` and `find_kek_object` of `core/src/encryption.rs`, on
keybags that were written entry by entry.

A `KeybagRecord` is an entry as it is written: the sizes of its fields, and of the padding
to a multiple of 16 bytes, are fields of the structure.  The other bytes are
arbitrary, those of the padding included.  `keybagOf` puts the records behind the headers.

* `entriesFrom_encode`: **the stride is the padded length**, so the walk comes to the
  records, one after the other, and ends with the last of them.
* `foldlM_recordStepOf`: what `volume_records` keeps is the last record of each tag.
* `keybag_walkers_decode`: the results of the three walkers in terms of the records.
-/

namespace ApfsForensic

/-! ### What is present in a keybag -/

/-- `EncryptionState`. -/
structure EncryptionState where
  encrypted : Bool
  tagsPresent : List KeybagTag
  hasPassphraseHint : Bool
  unknownTags : List (Nat × Nat)
  deriving DecidableEq, Repr

/-- One round of `read_keybag`: the tags so far, and the unknown ones with their
offsets. -/
def tagStep (found : List KeybagTag × List (Nat × Nat)) (entry : KeybagEntry) :
    List KeybagTag × List (Nat × Nat) :=
  let tag := KeybagTag.fromU16 entry.rawTag
  (if found.1.contains tag then found.1 else found.1 ++ [tag],
    if tag = .unknown then found.2 ++ [(entry.rawTag, entry.offset)] else found.2)

/-- `read_keybag`. -/
def readKeybag (keybag : Bytes) : Result EncryptionState :=
  let (tagsPresent, unknownTags) := (keybagEntries keybag).foldl tagStep ([], [])
  .ok {
    encrypted := tagsPresent.any (fun t =>
      t = .wrappingKey ∨ t = .volumeKey ∨ t = .volumeUnlockRecords)
    tagsPresent
    hasPassphraseHint := tagsPresent.contains .volumePassphraseHint
    unknownTags }

/-! ### Records -/

/-- The length of an entry with `n` bytes of data, padded to 16 bytes. -/
def paddedLength (n : Nat) : Nat := (keHeaderLen + n + 15) / 16 * 16

/-- An entry as it is written. -/
structure KeybagRecord where
  uuid : Bytes
  tag : Nat
  reserved : Bytes
  data : Bytes
  padding : Bytes
  length_uuid : uuid.length = 16
  tag_lt : tag < 2 ^ 16
  length_reserved : reserved.length = 4
  length_data : data.length ≤ 65535
  length_padding : keHeaderLen + data.length + padding.length = paddedLength data.length

namespace KeybagRecord

def encode (r : KeybagRecord) : Bytes :=
  r.uuid ++ (toLeBytes 2 r.tag ++ (toLeBytes 2 r.data.length ++ (r.reserved ++
    (r.data ++ r.padding))))

/-- The record at an offset, as the walkers see it. -/
def entry (r : KeybagRecord) (off : Nat) : KeybagEntry := ⟨off, r.uuid, r.tag, some r.data⟩

theorem length_encode (r : KeybagRecord) : r.encode.length = paddedLength r.data.length := by
  have h := r.length_padding
  unfold keHeaderLen at h
  simp only [encode, List.length_append, length_toLeBytes, r.length_uuid, r.length_reserved]
  omega

end KeybagRecord

/-- The records from an offset on, each at its own. -/
def placed : (off : Nat) → List KeybagRecord → List KeybagEntry
  | _, [] => []
  | off, r :: records => r.entry off :: placed (off + r.encode.length) records

/-- A keybag: `head` ends where `kl_nkeys` stands, `tail` is the rest of the `kb_locker`
header. -/
def keybagOf (head tail : Bytes) (records : List KeybagRecord) (trailing : Bytes) : Bytes :=
  head ++ (toLeBytes 2 records.length ++ (tail ++ (records.flatMap KeybagRecord.encode ++ trailing)))

/-! ### The walk -/

section Walk

variable {keybag rest : Bytes} {off : Nat} {r : KeybagRecord}

/-- The fields of the record that the rest of the keybag starts with. -/
theorem entryAt_encode (hoff : off ≤ keybag.length) (h : keybag.drop off = r.encode ++ rest) :
    entryAt keybag off = r.entry off ∧ keKeylen keybag off = r.data.length := by
  have htotal := length_of_drop hoff h
  have hlen := r.length_encode
  have hpad := r.length_padding
  have hdata := r.length_data
  unfold keHeaderLen at hpad
  rw [KeybagRecord.encode] at h
  simp only [List.append_assoc] at h
  -- field after field, each behind the one before
  have huuid := getRange_of_drop hoff h
  have htag := drop_add_of_drop h
  rw [r.length_uuid] at huuid htag
  obtain ⟨htag', hkeylen⟩ := leUInt_step r.tag_lt (by omega) htag
  obtain ⟨hkeylen', hreserved⟩ := leUInt_step (by omega) (by omega) hkeylen
  have hvalue := drop_add_of_drop hreserved
  rw [r.length_reserved] at hvalue
  have hvalue' : getRange keybag (off + 24) (off + 24 + r.data.length) = some r.data :=
    getRange_of_drop (by omega) hvalue
  refine ⟨?_, hkeylen'⟩
  rw [entryAt, keKeylen, huuid, leU16, leU16, htag', hkeylen']
  unfold keHeaderLen
  rw [hvalue']
  rfl

/-- The walk comes to the records and to nothing else, whatever follows them. -/
theorem entriesFrom_encode {trailing : Bytes} : ∀ (records : List KeybagRecord) {off : Nat},
    off ≤ keybag.length → keybag.drop off = records.flatMap KeybagRecord.encode ++ trailing →
    entriesFrom keybag records.length off = placed off records := by
  intro records
  induction records with
  | nil => intro off _ _; rfl
  | cons r records ih =>
    intro off hoff h
    rw [List.flatMap_cons, List.append_assoc] at h
    have htotal := length_of_drop hoff h
    have hlen := r.length_encode
    have hpadded : keHeaderLen ≤ paddedLength r.data.length ∧ 16 ≤ paddedLength r.data.length := by
      unfold paddedLength keHeaderLen
      omega
    obtain ⟨hentry, hkeylen⟩ := entryAt_encode hoff h
    have hstride : max ((keHeaderLen + keKeylen keybag off + 15) / 16 * 16) 16 = r.encode.length := by
      rw [hkeylen, hlen]
      exact Nat.max_eq_left hpadded.2
    rw [List.length_cons, entriesFrom, if_neg (by omega), hentry, hstride, placed]
    rw [ih (by omega) (drop_add_of_drop h)]

theorem keybagEntries_keybagOf {head tail trailing : Bytes} (hhead : head.length = klNkeys)
    (htail : tail.length = 12) {records : List KeybagRecord}
    (hcount : records.length ≤ maxKeybagEntries) :
    keybagEntries (keybagOf head tail records trailing) = placed klEntriesOff records := by
  have hfits : records.length < 256 ^ 2 := lt_of_le_of_lt hcount (by decide)
  have h0 : (keybagOf head tail records trailing).drop 0 = head ++ _ := List.drop_zero
  have htotal := length_of_drop (Nat.zero_le _) h0
  have h1 := drop_add_of_drop h0
  simp only [List.length_append, length_toLeBytes, htail, hhead, Nat.zero_add] at htotal h1
  obtain ⟨hnkeys, h2⟩ := leUInt_step hfits (by omega) h1
  have h3 := drop_add_of_drop h2
  rw [htail] at h3
  rw [keybagEntries, leU16, hnkeys, Nat.min_eq_left hcount]
  exact entriesFrom_encode records (by unfold klNkeys at htotal; unfold klEntriesOff; omega) h3

end Walk

/-! ### The tags -/

theorem mem_foldl_tagStep (tag : KeybagTag) : ∀ (entries : List KeybagEntry)
    (found : List KeybagTag × List (Nat × Nat)),
    tag ∈ (entries.foldl tagStep found).1 ↔
      tag ∈ found.1 ∨ ∃ e ∈ entries, KeybagTag.fromU16 e.rawTag = tag := by
  intro entries
  induction entries with
  | nil => intro found; simp
  | cons e entries ih =>
    intro found
    have hstep : tag ∈ (tagStep found e).1 ↔ tag ∈ found.1 ∨ KeybagTag.fromU16 e.rawTag = tag := by
      unfold tagStep
      by_cases hmem : KeybagTag.fromU16 e.rawTag ∈ found.1
      · simp only [List.contains_iff_mem, hmem, if_true]
        constructor
        · exact Or.inl
        · rintro (h | rfl)
          · exact h
          · exact hmem
      · simp only [List.contains_iff_mem, hmem, if_false, List.mem_append, List.mem_singleton]
        exact or_congr Iff.rfl eq_comm
    rw [List.foldl_cons, ih, hstep, or_assoc]
    simp

theorem mem_placed_tag {tag : KeybagTag} : ∀ {records : List KeybagRecord} {off : Nat},
    (∃ e ∈ placed off records, KeybagTag.fromU16 e.rawTag = tag) ↔
      ∃ r ∈ records, KeybagTag.fromU16 r.tag = tag := by
  intro records
  induction records with
  | nil => intro off; simp [placed]
  | cons r records ih =>
    intro off
    rw [placed, List.exists_mem_cons_iff, List.exists_mem_cons_iff, ih]
    rfl

theorem foldl_tagStep_snd : ∀ (entries : List KeybagEntry)
    (found : List KeybagTag × List (Nat × Nat)),
    (entries.foldl tagStep found).2 = found.2 ++
      (entries.filter (fun e => KeybagTag.fromU16 e.rawTag = .unknown)).map
        (fun e => (e.rawTag, e.offset)) := by
  intro entries
  induction entries with
  | nil => intro found; simp
  | cons e entries ih =>
    intro found
    rw [List.foldl_cons, ih]
    by_cases hunknown : KeybagTag.fromU16 e.rawTag = .unknown
    · simp [tagStep, hunknown]
    · simp [tagStep, hunknown]

/-- No tag is reported twice. -/
theorem nodup_foldl_tagStep : ∀ (entries : List KeybagEntry)
    (found : List KeybagTag × List (Nat × Nat)), found.1.Nodup →
    (entries.foldl tagStep found).1.Nodup := by
  intro entries
  induction entries with
  | nil => intro found h; exact h
  | cons e entries ih =>
    intro found h
    refine ih _ ?_
    unfold tagStep
    by_cases hmem : KeybagTag.fromU16 e.rawTag ∈ found.1
    · simpa only [List.contains_iff_mem, hmem, if_true] using h
    · simp only [List.contains_iff_mem, hmem, if_false]
      exact h.append (List.nodup_singleton _) (by simpa using hmem)

/-! ### The records of a volume -/

/-- The last record of a volume with a tag. -/
def lastRecord (uuid : Bytes) (tag : Nat) (records : List KeybagRecord) : Option KeybagRecord :=
  (records.filter (fun r => r.uuid = uuid ∧ r.tag = tag)).getLast?

theorem lastRecord_concat (uuid : Bytes) (tag : Nat) (records : List KeybagRecord)
    (r : KeybagRecord) : lastRecord uuid tag (records ++ [r])
      = if r.uuid = uuid ∧ r.tag = tag then some r else lastRecord uuid tag records :=
  getLast?_filter_concat (fun r : KeybagRecord => r.uuid = uuid ∧ r.tag = tag) records r

/-- The payload of a record is one that its tag asks for. -/
def KeybagRecord.WellFormed (r : KeybagRecord) : Prop :=
  (r.tag = 0x02 → ∃ key, volumeKeyOf r.data = .ok key) ∧
    (r.tag = 0x03 → ∃ extent, unlockExtentOf r.data = .ok extent)

/-- A wrapped key of 40 bytes in an object in a SEQUENCE is such a payload. -/
theorem volumeKeyOf_encode {outer nested inner : List Tlv} {seq obj key : Tlv}
    (hlen : (encodeTlvs outer).length < 2 ^ 64)
    (hseq : outer.find? (fun t => t.tag = 0x30) = some seq) (hnested : seq.value = encodeTlvs nested)
    (hobj : nested.find? (fun t => t.tag = 0xa3) = some obj) (hinner : obj.value = encodeTlvs inner)
    (hkey : inner.find? (fun t => t.tag = 0x83) = some key) (hsize : key.value.length = 40) :
    volumeKeyOf (encodeTlvs outer) = .ok key.value := by
  have hbound : ∀ t : Tlv, t.value.length < 2 ^ 64 := by
    intro t
    have hform : t.form.bound ≤ 2 ^ 64 := by cases t.form <;> decide
    exact lt_of_lt_of_le t.fits hform
  have h30 : berFind (encodeTlvs outer) 0x30 = some seq.value := by
    rw [show 0x30 = (0x30 : UInt8).toNat from rfl, berFind_encode hlen, hseq]
    rfl
  have ha3 : berFind seq.value 0xa3 = some obj.value := by
    have hlen' : (encodeTlvs nested).length < 2 ^ 64 := hnested ▸ hbound seq
    rw [hnested, show 0xa3 = (0xa3 : UInt8).toNat from rfl, berFind_encode hlen', hobj]
    rfl
  have h83 : berFind obj.value 0x83 = some key.value := by
    have hlen' : (encodeTlvs inner).length < 2 ^ 64 := hinner ▸ hbound obj
    rw [hinner, show 0x83 = (0x83 : UInt8).toNat from rfl, berFind_encode hlen', hkey]
    rfl
  simp only [volumeKeyOf, h30, Option.getD_some, ha3, h83, hsize]
  rfl

theorem fromU16_cases (n : Nat) :
    (KeybagTag.fromU16 n = .volumeKey ↔ n = 0x02) ∧
      (KeybagTag.fromU16 n = .volumeUnlockRecords ↔ n = 0x03) ∧
      (KeybagTag.fromU16 n = .wrappingKey ↔ n = 0x01) := by
  unfold KeybagTag.fromU16
  split <;> simp_all

/-- One round of `volume_records`, on a record. -/
def recordStepOf (uuid : Bytes) (found : Option Bytes × Option (Nat × Nat)) (r : KeybagRecord) :
    Result (Option Bytes × Option (Nat × Nat)) :=
  if r.uuid = uuid then recordStep found (r.entry 0) else return found

theorem foldlM_placed (uuid : Bytes) : ∀ (records : List KeybagRecord) (off : Nat)
    (found : Option Bytes × Option (Nat × Nat)),
    (placed off records).foldlM (fun found entry =>
        if entry.uuid = uuid then recordStep found entry else return found) found
      = records.foldlM (recordStepOf uuid) found := by
  intro records
  induction records with
  | nil => intro off found; rfl
  | cons r records ih =>
    intro off found
    rw [placed, List.foldlM_cons, List.foldlM_cons]
    -- no round looks at the offset
    show (recordStepOf uuid found r >>= _) = (recordStepOf uuid found r >>= _)
    simp only [ih]

/-- A record of another volume or tag leaves what was found, a well-formed one replaces
its part. -/
theorem recordStepOf_eq {uuid : Bytes} {r : KeybagRecord} (hwf : r.uuid = uuid → r.WellFormed)
    (found : Option Bytes × Option (Nat × Nat)) :
    recordStepOf uuid found r = .ok
      (if r.uuid = uuid ∧ r.tag = 0x02 then (volumeKeyOf r.data).toOption else found.1,
        if r.uuid = uuid ∧ r.tag = 0x03 then (unlockExtentOf r.data).toOption else found.2) := by
  unfold recordStepOf
  by_cases huuid : r.uuid = uuid
  · obtain ⟨hkey, hextent⟩ := hwf huuid
    obtain ⟨htag2, htag3, _⟩ := fromU16_cases r.tag
    simp only [huuid, if_true, true_and, recordStep, KeybagRecord.entry]
    by_cases h2 : r.tag = 0x02
    · obtain ⟨key, hkey⟩ := hkey h2
      rw [htag2.mpr h2]
      simp only [h2, if_true, Option.getD_some, hkey]
      rfl
    by_cases h3 : r.tag = 0x03
    · obtain ⟨extent, hextent⟩ := hextent h3
      rw [htag3.mpr h3]
      simp only [h3, if_true, Option.getD_some, hextent]
      rfl
    · rw [if_neg h2, if_neg h3]
      split
      · exact absurd (htag2.mp ‹_›) h2
      · exact absurd (htag3.mp ‹_›) h3
      · rfl
  · simp only [huuid, if_false, false_and]
    rfl

/-- What `volume_records` has found in the end is in the last record of each tag. -/
theorem foldlM_recordStepOf {uuid : Bytes} {records : List KeybagRecord}
    (hwf : ∀ r ∈ records, r.uuid = uuid → r.WellFormed) :
    records.foldlM (recordStepOf uuid) (none, none) = .ok
      ((lastRecord uuid 0x02 records).bind (fun r => (volumeKeyOf r.data).toOption),
        (lastRecord uuid 0x03 records).bind (fun r => (unlockExtentOf r.data).toOption)) := by
  induction records using List.reverseRecOn with
  | nil => rfl
  | append_singleton records r ih =>
    have hlast : r.uuid = uuid → r.WellFormed := hwf r (by simp)
    rw [List.foldlM_append, ih (fun r hr => hwf r (by simp [hr])), ok_bind, List.foldlM_cons,
      recordStepOf_eq hlast, ok_bind, lastRecord_concat, lastRecord_concat]
    by_cases h2 : r.uuid = uuid ∧ r.tag = 0x02
    · have h3 : ¬ (r.uuid = uuid ∧ r.tag = 0x03) := by
        rintro ⟨_, h3⟩
        exact absurd (h2.2.symm.trans h3) (by decide)
      rw [if_pos h2, if_pos h2, if_neg h3, if_neg h3]
      rfl
    · rw [if_neg h2, if_neg h2]
      split <;> rfl

theorem volumeRecords_keybagOf {head tail trailing uuid : Bytes} (hhead : head.length = klNkeys)
    (htail : tail.length = 12) {records : List KeybagRecord}
    (hcount : records.length ≤ maxKeybagEntries)
    (hwf : ∀ r ∈ records, r.uuid = uuid → r.WellFormed) :
    volumeRecords (keybagOf head tail records trailing) uuid =
      match (lastRecord uuid 0x03 records).bind (fun r => (unlockExtentOf r.data).toOption),
        (lastRecord uuid 0x02 records).bind (fun r => (volumeKeyOf r.data).toOption) with
      | none, _ => .error (containerKeybagBad "volume_unlock_records_absent" 0 1)
      | some _, none => .error (containerKeybagBad "volume_key_absent" 0 1)
      | some extent, some wrappedVek => .ok ⟨wrappedVek, extent.1, extent.2⟩ := by
  rw [volumeRecords, keybagEntries_keybagOf hhead htail hcount, foldlM_placed,
    foldlM_recordStepOf hwf, ok_bind]
  cases (lastRecord uuid 0x03 records).bind (fun r => (unlockExtentOf r.data).toOption) with
  | none => rfl
  | some extent =>
    cases (lastRecord uuid 0x02 records).bind (fun r => (volumeKeyOf r.data).toOption) <;> rfl

/-! ### The KEK object -/

/-- The nested object of a payload, inside the SEQUENCE if there is one. -/
def nestedObject (data : Bytes) : Option Bytes := berFind ((berFind data 0x30).getD data) 0xa3

theorem findSome?_placed : ∀ (records : List KeybagRecord) (off : Nat),
    (placed off records).findSome? kekObject
      = (records.filter (fun r => r.tag = 0x01 ∨ r.tag = 0x03)).findSome?
          (fun r => nestedObject r.data) := by
  intro records
  induction records with
  | nil => intro off; rfl
  | cons r records ih =>
    intro off
    obtain ⟨_, htag3, htag1⟩ := fromU16_cases r.tag
    rw [placed, List.findSome?_cons, ih]
    by_cases htag : r.tag = 0x01 ∨ r.tag = 0x03
    · have hkek : kekObject (r.entry off) = nestedObject r.data := by
        have htag' := or_congr htag1 htag3 |>.mpr htag
        exact if_pos htag'
      rw [List.filter_cons_of_pos (by simpa using htag), List.findSome?_cons, hkek]
    · have hkek : kekObject (r.entry off) = none := by
        have htag' := fun h => htag (or_congr htag1 htag3 |>.mp h)
        exact if_neg htag'
      rw [List.filter_cons_of_neg (by simpa using htag), hkek]

/-! ### The walkers -/

/-- **The three walkers decode what was encoded.**  `read_keybag` reports the tags of the
records, and the unknown ones with their offsets; `volume_records` returns the key and the
extent of the last records of a volume, if its records are well-formed and it has both;
`find_kek_object` returns the first nested object of a KEK record. -/
theorem keybag_walkers_decode {head tail : Bytes} (hhead : head.length = 32 + 2)
    (htail : tail.length = 12) (records : List KeybagRecord) (hcount : records.length ≤ 4096)
    (trailing : Bytes) :
    (∃ state, readKeybag (keybagOf head tail records trailing) = .ok state ∧
      state.tagsPresent.Nodup ∧
      (∀ tag, tag ∈ state.tagsPresent ↔ ∃ r ∈ records, KeybagTag.fromU16 r.tag = tag) ∧
      state.unknownTags = ((placed 48 records).filter
        (fun e => KeybagTag.fromU16 e.rawTag = .unknown)).map (fun e => (e.rawTag, e.offset))) ∧
    (∀ uuid, (∀ r ∈ records, r.uuid = uuid → r.WellFormed) →
      (∀ rkey rext key block blocks, lastRecord uuid 0x02 records = some rkey →
        volumeKeyOf rkey.data = .ok key → lastRecord uuid 0x03 records = some rext →
        unlockExtentOf rext.data = .ok (block, blocks) →
        volumeRecords (keybagOf head tail records trailing) uuid = .ok ⟨key, block, blocks⟩) ∧
      (lastRecord uuid 0x02 records = none ∨ lastRecord uuid 0x03 records = none →
        ∃ e, volumeRecords (keybagOf head tail records trailing) uuid = .error (.err e))) ∧
    findKekObject (keybagOf head tail records trailing)
      = (records.filter (fun r => r.tag = 0x01 ∨ r.tag = 0x03)).findSome?
          (fun r => nestedObject r.data) := by
  have hentries : keybagEntries (keybagOf head tail records trailing) = placed 48 records :=
    keybagEntries_keybagOf hhead htail hcount
  refine ⟨⟨_, rfl, ?_, ?_, ?_⟩, ?_, ?_⟩
  · exact nodup_foldl_tagStep _ _ List.nodup_nil
  · intro tag
    show tag ∈ (List.foldl tagStep ([], []) _).1 ↔ _
    rw [hentries, mem_foldl_tagStep, mem_placed_tag]
    simp
  · show (List.foldl tagStep ([], []) _).2 = _
    rw [hentries, foldl_tagStep_snd, List.nil_append]
  · intro uuid hwf
    have hvolume := @volumeRecords_keybagOf head tail trailing uuid hhead htail records hcount hwf
    constructor
    · intro rkey rext key block blocks hrkey hkey hrext hextent
      rw [hvolume, hrkey, hrext, Option.bind_some, Option.bind_some, hkey, hextent]
      rfl
    · rintro (hnone | hnone)
      · rw [hvolume, hnone]
        cases (lastRecord uuid 0x03 records).bind (fun r => (unlockExtentOf r.data).toOption) with
        | none => exact ⟨_, rfl⟩
        | some extent => exact ⟨_, rfl⟩
      · rw [hvolume, hnone]
        exact ⟨_, rfl⟩
  · rw [findKekObject, hentries, findSome?_placed]

/-! ### A keybag of three entries

An entry of another volume with an unknown tag, then a wrapped key and an extent. -/

def keyPayload : List Tlv :=
  [⟨0x30, .short, encodeTlvs [⟨0xa3, .short, encodeTlvs [⟨0x83, .short, List.replicate 40 5,
    by decide⟩], by decide⟩], by decide⟩]

def threeRecords : List KeybagRecord :=
  [⟨List.replicate 16 2, 0x99, List.replicate 4 1, [7, 7, 7], List.replicate 5 9, by decide,
      by decide, by decide, by decide, by decide⟩,
    ⟨ownUuid, 0x02, List.replicate 4 0, encodeTlvs keyPayload, List.replicate 10 0, by decide,
      by decide, by decide, by decide, by decide⟩,
    ⟨ownUuid, 0x03, List.replicate 4 0, toLeBytes 8 77 ++ toLeBytes 8 1, List.replicate 8 0,
      by decide, by decide, by decide, by decide, by decide⟩]

def threeEntryKeybag : Bytes :=
  keybagOf (List.replicate 34 0) (List.replicate 12 0) threeRecords [1]

theorem keybag_walkers_threeEntryKeybag :
    (∃ state, readKeybag threeEntryKeybag = .ok state ∧ state.unknownTags = [(0x99, 48)] ∧
      KeybagTag.volumeKey ∈ state.tagsPresent) ∧
    volumeRecords threeEntryKeybag ownUuid = .ok ⟨List.replicate 40 5, 77, 1⟩ ∧
    findKekObject threeEntryKeybag = none := by
  have hlen : (encodeTlvs keyPayload).length < 2 ^ 64 := by decide
  have hkey : volumeKeyOf (encodeTlvs keyPayload) = .ok (List.replicate 40 5) :=
    volumeKeyOf_encode hlen rfl rfl rfl rfl rfl rfl
  have hextent : unlockExtentOf (toLeBytes 8 77 ++ toLeBytes 8 1) = .ok (77, 1) := by decide
  obtain ⟨⟨state, hstate, _, htags, hunknown⟩, hvolume, hkek⟩ :=
    keybag_walkers_decode (show (List.replicate 34 0).length = 34 from rfl)
      (show (List.replicate 12 0).length = 12 from rfl) threeRecords (by decide) [1]
  have hwf : ∀ r ∈ threeRecords, r.uuid = ownUuid → r.WellFormed := by
    intro r hr huuid
    simp only [threeRecords, List.mem_cons, List.not_mem_nil, or_false] at hr
    rcases hr with rfl | rfl | rfl
    · exact absurd huuid (by decide)
    · exact ⟨fun _ => ⟨_, hkey⟩, fun h => absurd h (by decide)⟩
    · exact ⟨fun h => absurd h (by decide), fun _ => ⟨_, hextent⟩⟩
  refine ⟨⟨state, hstate, hunknown, (htags _).mpr ⟨threeRecords[1], by simp [threeRecords], rfl⟩⟩,
    ?_, ?_⟩
  · exact (hvolume ownUuid hwf).1 _ _ _ _ _ rfl hkey rfl hextent
  · exact hkek.trans (by decide +kernel)

end ApfsForensic
