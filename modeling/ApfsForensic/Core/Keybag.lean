import ApfsForensic.Core.Encode
import Mathlib.Data.List.Sort

/-!
# Keybags

The key material of `core/src/encryption.rs`: the entries of a keybag, the packed
objects in them, and the way from a password to a volume key.

A keybag is a header and then entries, each with the UUID it belongs to, a tag and its
data.  The walkers of the source advance alike, by the padded length of each entry;
`keybagEntries` are the entries they come to.  `volume_records` is a fold over them
and `find_kek_object` a search.

The data of an entry is a packed object in BER.  `berFrom` and `wrappedKekFrom` are
the two loops over it, with fuel for one round per byte, which is more than they
need: every round moves ahead by two bytes at least (`berFrom_fuel`,
`wrappedKekFrom_fuel`).

PBKDF2 and AES key unwrap are those of other crates.  `KeyCrypto` has them as
parameters.

* `volumeRecords_isolated`: the records of a volume depend on its own entries only.
* `unlock_iff_first_opens`: every unlock record works exactly if the first one opens
  what any of them opens.
-/

namespace ApfsForensic

/-! ### Entries -/

/-- `KeybagTag`. -/
inductive KeybagTag where
  | unknown
  | wrappingKey
  | volumeKey
  | volumeUnlockRecords
  | volumePassphraseHint
  | userPayload
  deriving DecidableEq, Repr

/-- `KeybagTag::from_u16`. -/
def KeybagTag.fromU16 : Nat → KeybagTag
  | 0x01 => wrappingKey
  | 0x02 => volumeKey
  | 0x03 => volumeUnlockRecords
  | 0x04 => volumePassphraseHint
  | 0xf8 => userPayload
  | _ => unknown

/-- `KL_NKEYS`, behind the object header. -/
def klNkeys : Nat := 32 + 2

/-- `KL_ENTRIES_OFF`. -/
def klEntriesOff : Nat := 32 + 16

/-- `KE_HEADER_LEN`. -/
def keHeaderLen : Nat := 24

/-- `MAX_KEYBAG_ENTRIES`. -/
def maxKeybagEntries : Nat := 4096

/-- What the walkers read of an entry: its data is missing where the declared length runs
past the keybag. -/
structure KeybagEntry where
  offset : Nat
  uuid : Bytes
  rawTag : Nat
  data : Option Bytes
  deriving DecidableEq, Repr

/-- `ke_keylen`. -/
def keKeylen (keybag : Bytes) (off : Nat) : Nat := leU16 keybag (off + 18)

def entryAt (keybag : Bytes) (off : Nat) : KeybagEntry where
  offset := off
  uuid := (getRange keybag off (off + 16)).getD []
  rawTag := leU16 keybag (off + 16)
  data := getRange keybag (off + keHeaderLen) (off + keHeaderLen + keKeylen keybag off)

/-- The walk, with `remaining` of the declared entries to come. -/
def entriesFrom (keybag : Bytes) : (remaining off : Nat) → List KeybagEntry
  | 0, _ => []
  | remaining + 1, off =>
    if off + keHeaderLen > keybag.length then []
    else
      -- `((KE_HEADER_LEN + keylen + 15) & !15).max(16)`
      entryAt keybag off :: entriesFrom keybag remaining
        (off + max ((keHeaderLen + keKeylen keybag off + 15) / 16 * 16) 16)

/-- The entries of a keybag. -/
def keybagEntries (keybag : Bytes) : List KeybagEntry :=
  entriesFrom keybag (min (leU16 keybag klNkeys) maxKeybagEntries) klEntriesOff

/-! ### Packed objects -/

def byteAt (data : Bytes) (i : Nat) : Option Nat := data[i]?.map UInt8.toNat

/-- The length form of `ber_find`: the length and the offset behind it. -/
def berLength (data : Bytes) (first off : Nat) : Option (Nat × Nat) :=
  if first &&& 0x80 = 0 then some (first, off)
  else if first = 0x81 then do
    let b ← byteAt data off
    some (b, off + 1)
  else if first = 0x82 then do
    let hi ← byteAt data off
    let lo ← byteAt data (off + 1)
    some ((hi <<< 8) ||| lo, off + 2)
  else none

/-- One round of `ber_find`: a tag, its value and the offset behind it. -/
def berStep (data : Bytes) (off : Nat) : Option (Nat × Bytes × Nat) :=
  if off + 2 ≤ data.length then do
    let tag ← byteAt data off
    let first ← byteAt data (off + 1)
    let (len, start) ← berLength data first (off + 2)
    let stop ← checkedAdd start len
    let value ← getRange data start stop
    some (tag, value, stop)
  else none

/-- The loop of `ber_find`. -/
def berFrom (data : Bytes) (wantTag : Nat) : (fuel off : Nat) → Option Bytes
  | 0, _ => none
  | fuel + 1, off =>
    match berStep data off with
    | none => none
    | some (tag, value, stop) =>
      if tag = wantTag then some value else berFrom data wantTag fuel stop

/-- `ber_find`. -/
def berFind (data : Bytes) (wantTag : Nat) : Option Bytes := berFrom data wantTag data.length 0

/-- `WrappedKek`. -/
structure WrappedKek where
  wrappedKey : Bytes
  iterations : Nat
  salt : Bytes
  deriving DecidableEq, Repr

/-- The fields found so far. -/
structure KekFields where
  wrappedKey : Option Bytes := none
  iterations : Option Nat := none
  salt : Option Bytes := none
  deriving DecidableEq, Repr

def wrappedKekBad (field : String) (value cap : Nat) : Fault :=
  .err (.fieldOutOfRange "wrapped_kek_object" field value cap)

/-- `data.get(off)`, or the error for a byte that is missing there. -/
def kekByte (data : Bytes) (field : String) (off reported : Nat) : Result Nat :=
  match byteAt data off with
  | some b => .ok b
  | none => .error (wrappedKekBad field reported data.length)

/-- The length form of `parse_wrapped_kek`. -/
def kekLength (data : Bytes) (first off : Nat) : Result (Nat × Nat) :=
  if first &&& 0x80 = 0 then .ok (first, off)
  else if first = 0x81 then do
    let b ← kekByte data "length_1byte" off off
    return (b, off + 1)
  else if first = 0x82 then do
    let hi ← kekByte data "length_2byte" off off
    let lo ← kekByte data "length_2byte" (off + 1) off
    return ((hi <<< 8) ||| lo, off + 2)
  else .error (wrappedKekBad "ber_length_form" first 0x82)

/-- The value of a tag, as far as this chain knows the tag. -/
def kekField (fields : KekFields) (tag : Nat) (value : Bytes) : Result KekFields :=
  match tag with
  | 0x83 =>
    if value.length ≠ 40 then .error (wrappedKekBad "wrapped_kek_len" value.length 40)
    else .ok { fields with wrappedKey := some value }
  | 0x84 =>
    if value.isEmpty ∨ value.length > 8 then
      .error (wrappedKekBad "iterations_len" value.length 8)
    else
      -- big-endian; a count past `u32` saturates
      let n := value.foldl (fun n b => (n <<< 8) ||| b.toNat) 0
      .ok { fields with iterations := some (min n 0xffffffff) }
  | 0x85 =>
    if value.length ≠ 16 then .error (wrappedKekBad "salt_len" value.length 16)
    else .ok { fields with salt := some value }
  | _ => .ok fields

/-- One round of `parse_wrapped_kek`, up to the value. -/
def kekStep (data : Bytes) (off : Nat) : Result (Nat × Bytes × Nat) := do
  let tag ← kekByte data "tag" off off
  let first ← kekByte data "length" (off + 1) (off + 1)
  let (len, start) ← kekLength data first (off + 2)
  let some stop := checkedAdd start len
    | .error (wrappedKekBad "value_length" len data.length)
  let some value := getRange data start stop
    | .error (wrappedKekBad "value_end" stop data.length)
  return (tag, value, stop)

/-- The loop of `parse_wrapped_kek`. -/
def wrappedKekFrom (data : Bytes) : (fuel off : Nat) → KekFields → Result KekFields
  | 0, _, fields => .ok fields
  | fuel + 1, off, fields =>
    if off < data.length then do
      let (tag, value, stop) ← kekStep data off
      let fields ← kekField fields tag value
      wrappedKekFrom data fuel stop fields
    else .ok fields

/-- `parse_wrapped_kek`. -/
def parseWrappedKek (data : Bytes) : Result WrappedKek := do
  let fields ← wrappedKekFrom data data.length 0 {}
  let some wrappedKey := fields.wrappedKey
    | .error (wrappedKekBad "wrapped_kek_tag_0x83" 0 1)
  let some iterations := fields.iterations
    | .error (wrappedKekBad "iterations_tag_0x84" 0 1)
  let some salt := fields.salt
    | .error (wrappedKekBad "salt_tag_0x85" 0 1)
  return { wrappedKey, iterations, salt }

/-! ### The records of a volume -/

/-- `VolumeRecords`. -/
structure VolumeRecords where
  wrappedVek : Bytes
  volumeKeybagBlock : Nat
  volumeKeybagBlocks : Nat
  deriving DecidableEq, Repr

def containerKeybagBad (field : String) (value cap : Nat) : Fault :=
  .err (.fieldOutOfRange "container_keybag" field value cap)

/-- The wrapped key in a `VolumeKey` entry, two levels down. -/
def volumeKeyOf (data : Bytes) : Result Bytes := do
  let seq := (berFind data 0x30).getD data
  let some obj := berFind seq 0xa3
    | .error (containerKeybagBad "volume_key_missing_0xa3" data.length 0xa3)
  let some inner := berFind obj 0x83
    | .error (containerKeybagBad "volume_key_missing_0x83" obj.length 0x83)
  if inner.length ≠ 40 then
    .error (containerKeybagBad "wrapped_vek_len" inner.length 40)
  else return inner

/-- The extent in a `VolumeUnlockRecords` entry. -/
def unlockExtentOf (data : Bytes) : Result (Nat × Nat) :=
  if data.length < 16 then .error (containerKeybagBad "unlock_records_len" data.length 16)
  else .ok (leU64 data 0, leU64 data 8)

/-- One round of `volume_records`: a later entry of a tag wins. -/
def recordStep (found : Option Bytes × Option (Nat × Nat)) (entry : KeybagEntry) :
    Result (Option Bytes × Option (Nat × Nat)) :=
  match KeybagTag.fromU16 entry.rawTag with
  | .volumeKey => do
    let key ← volumeKeyOf (entry.data.getD [])
    return (some key, found.2)
  | .volumeUnlockRecords => do
    let extent ← unlockExtentOf (entry.data.getD [])
    return (found.1, some extent)
  | _ => return found

/-- `volume_records`. -/
def volumeRecords (keybag volumeUuid : Bytes) : Result VolumeRecords := do
  let (wrappedVek, extent) ← (keybagEntries keybag).foldlM (fun found entry =>
    if entry.uuid = volumeUuid then recordStep found entry else return found) (none, none)
  let some (block, blocks) := extent
    | .error (containerKeybagBad "volume_unlock_records_absent" 0 1)
  let some wrappedVek := wrappedVek
    | .error (containerKeybagBad "volume_key_absent" 0 1)
  return { wrappedVek, volumeKeybagBlock := block, volumeKeybagBlocks := blocks }

/-! ### From a password to a volume key -/

/-- PBKDF2-HMAC-SHA256 and RFC 3394 key unwrap: none is an error. -/
structure KeyCrypto where
  pbkdf2 : (password salt : Bytes) → (iterations outLen : Nat) → Option Bytes
  unwrap : (kek wrapped : Bytes) → Option Bytes

/-- The packed object of a `WrappingKey` or `VolumeUnlockRecords` entry: in the keybag of
a volume both tags mark a KEK. -/
def kekObject (entry : KeybagEntry) : Option Bytes :=
  let tag := KeybagTag.fromU16 entry.rawTag
  if tag = .wrappingKey ∨ tag = .volumeUnlockRecords then do
    let data ← entry.data
    berFind ((berFind data 0x30).getD data) 0xa3
  else none

/-- `find_kek_object`. -/
def findKekObject (keybag : Bytes) : Option Bytes := (keybagEntries keybag).findSome? kekObject

section Unlock

variable (crypto : KeyCrypto)

/-- `derive_key_from_password`. -/
def deriveKeyFromPassword (password salt : Bytes) (iterations outLen : Nat) : Bytes :=
  (crypto.pbkdf2 password salt (max iterations 1) outLen).getD []

/-- `aes_key_unwrap`. -/
def aesKeyUnwrap (kek wrapped : Bytes) : Result Bytes :=
  match crypto.unwrap kek wrapped with
  | some key => .ok key
  | none => .error (.err (.fieldOutOfRange "aes_key_wrap" "integrity_check" 0 1))

def unlockBad (field : String) (value cap : Nat) : Fault :=
  .err (.fieldOutOfRange "unlock_with_volume_keybag" field value cap)

/-- `try_into` to an array of `n` bytes. -/
def tryInto (n : Nat) (field : String) (bytes : Bytes) : Result Bytes :=
  if bytes.length = n then .ok bytes else .error (unlockBad field bytes.length n)

/-- `unlock_with_volume_keybag`: the volume key. -/
def unlockWithVolumeKeybag (volumeKeybag : Bytes) (records : VolumeRecords) (password : String) :
    Result Bytes := do
  let some obj := findKekObject volumeKeybag
    | .error (unlockBad "kek_object_absent" volumeKeybag.length 1)
  let info ← parseWrappedKek obj
  let derived ← tryInto 32 "derived_key_len"
    (deriveKeyFromPassword crypto password.toUTF8.toList info.salt info.iterations 32)
  let wrappedKek ← tryInto 40 "wrapped_kek_len" info.wrappedKey
  let kek ← aesKeyUnwrap crypto derived wrappedKek
  let kek ← tryInto 32 "kek_len" kek
  let wrappedVek ← tryInto 40 "wrapped_vek_len" records.wrappedVek
  aesKeyUnwrap crypto kek wrappedVek

end Unlock

/-! ### The loops end -/

theorem kekLength_le {data : Bytes} {first off len start : Nat}
    (h : kekLength data first off = .ok (len, start)) : off ≤ start := by
  unfold kekLength at h
  by_cases h0 : first &&& 0x80 = 0
  · rw [if_pos h0] at h
    cases h
    exact Nat.le_refl _
  · rw [if_neg h0] at h
    by_cases h1 : first = 0x81
    · simp only [if_pos h1, bind_eq_ok_iff] at h
      obtain ⟨_, _, h⟩ := h
      cases h
      omega
    · rw [if_neg h1] at h
      by_cases h2 : first = 0x82
      · simp only [if_pos h2, bind_eq_ok_iff] at h
        obtain ⟨_, _, _, _, h⟩ := h
        cases h
        omega
      · rw [if_neg h2] at h
        cases h

/-- `ber_find` and `parse_wrapped_kek` read lengths alike. -/
theorem berLength_eq (data : Bytes) (first off : Nat) :
    berLength data first off = (kekLength data first off).toOption := by
  unfold berLength kekLength kekByte
  split
  · rfl
  split
  · cases byteAt data off <;> rfl
  split
  · cases byteAt data off with
    | none => rfl
    | some hi => cases byteAt data (off + 1) <;> rfl
  · rfl

theorem berLength_le {data : Bytes} {first off len start : Nat}
    (h : berLength data first off = some (len, start)) : off ≤ start := by
  rw [berLength_eq] at h
  cases hlen : kekLength data first off with
  | error f => rw [hlen] at h; cases h
  | ok r =>
    rw [hlen] at h
    cases h
    exact kekLength_le hlen

/-- A round ends two bytes further on at least, and inside the object. -/
theorem berStep_bounds {data value : Bytes} {off tag stop : Nat}
    (h : berStep data off = some (tag, value, stop)) : off + 2 ≤ stop ∧ stop ≤ data.length := by
  rw [berStep, Option.ite_none_right_eq_some] at h
  obtain ⟨_, h⟩ := h
  simp only [Option.bind_eq_bind, Option.bind_eq_some_iff, Option.some.injEq, Prod.mk.injEq,
    Prod.exists] at h
  obtain ⟨_, _, first, _, len, start, hlen, stop', hstop, _, hvalue, _, _, rfl⟩ := h
  obtain ⟨hrange, _⟩ := getRange_eq_some_iff.mp hvalue
  have hstart := berLength_le hlen
  omega

/-- Fuel for the bytes that are left is enough. -/
theorem berFrom_fuel {data : Bytes} {wantTag : Nat} : ∀ (fuel off : Nat),
    data.length ≤ off + fuel →
    berFrom data wantTag (fuel + 1) off = berFrom data wantTag fuel off := by
  intro fuel
  induction fuel with
  | zero =>
    intro off h
    have hend : berStep data off = none := by rw [berStep, if_neg (by omega)]
    simp only [berFrom, hend]
  | succ fuel ih =>
    intro off h
    rw [berFrom, berFrom]
    cases hstep : berStep data off with
    | none => rfl
    | some round =>
      obtain ⟨tag, value, stop⟩ := round
      have hbounds := berStep_bounds hstep
      simp only [ih stop (by omega)]

theorem kekStep_bounds {data value : Bytes} {off tag stop : Nat}
    (h : kekStep data off = .ok (tag, value, stop)) : off + 2 ≤ stop ∧ stop ≤ data.length := by
  simp only [kekStep, bind_eq_ok_iff, Prod.exists] at h
  obtain ⟨_, _, first, _, len, start, hlen, h⟩ := h
  cases hstop : checkedAdd start len with
  | none => rw [hstop] at h; cases h
  | some stop' =>
    rw [hstop] at h
    cases hvalue : getRange data start stop' with
    | none => simp only [hvalue] at h; cases h
    | some value' =>
      simp only [hvalue] at h
      cases h
      obtain ⟨hrange, _⟩ := getRange_eq_some_iff.mp hvalue
      have hstart := kekLength_le hlen
      omega

theorem wrappedKekFrom_fuel {data : Bytes} : ∀ (fuel off : Nat) (fields : KekFields),
    data.length ≤ off + fuel →
    wrappedKekFrom data (fuel + 1) off fields = wrappedKekFrom data fuel off fields := by
  intro fuel
  induction fuel with
  | zero =>
    intro off fields h
    simp only [wrappedKekFrom, if_neg (show ¬ off < data.length by omega)]
  | succ fuel ih =>
    intro off fields h
    rw [wrappedKekFrom, wrappedKekFrom]
    by_cases hoff : off < data.length
    · rw [if_pos hoff, if_pos hoff]
      cases hstep : kekStep data off with
      | error f => rfl
      | ok round =>
        obtain ⟨tag, value, stop⟩ := round
        have hbounds := kekStep_bounds hstep
        simp only [ok_bind, ih stop _ (show data.length ≤ stop + fuel by omega)]
    · rw [if_neg hoff, if_neg hoff]

/-! ### The entries of a volume -/

theorem offset_ge_of_mem {keybag : Bytes} {e : KeybagEntry} : ∀ {remaining off : Nat},
    e ∈ entriesFrom keybag remaining off → off ≤ e.offset := by
  intro remaining
  induction remaining with
  | zero => intro off he; exact absurd he List.not_mem_nil
  | succ remaining ih =>
    intro off he
    rw [entriesFrom] at he
    by_cases hend : off + keHeaderLen > keybag.length
    · rw [if_pos hend] at he
      exact absurd he List.not_mem_nil
    · rw [if_neg hend] at he
      rcases List.mem_cons.mp he with rfl | he
      · exact Nat.le_refl _
      · have hnext := ih he
        omega

/-- The walk moves ahead. -/
theorem entriesFrom_sorted {keybag : Bytes} : ∀ (remaining off : Nat),
    (entriesFrom keybag remaining off).Pairwise (fun a b => a.offset < b.offset) := by
  intro remaining
  induction remaining with
  | zero => intro off; exact List.Pairwise.nil
  | succ remaining ih =>
    intro off
    rw [entriesFrom]
    by_cases hend : off + keHeaderLen > keybag.length
    · rw [if_pos hend]
      exact List.Pairwise.nil
    · rw [if_neg hend]
      refine List.Pairwise.cons ?_ (ih _)
      intro e he
      have hnext := offset_ge_of_mem he
      show off < e.offset
      omega

/-- Two walks with the same entries of a volume have them in the same order. -/
theorem filter_keybagEntries_eq {keybag keybag' uuid : Bytes}
    (h : ∀ e : KeybagEntry, e.uuid = uuid → (e ∈ keybagEntries keybag ↔ e ∈ keybagEntries keybag')) :
    (keybagEntries keybag).filter (fun e => e.uuid = uuid)
      = (keybagEntries keybag').filter (fun e => e.uuid = uuid) := by
  have hsorted : ∀ k : Bytes, ((keybagEntries k).filter (fun e => e.uuid = uuid)).Pairwise
      (fun a b => a.offset < b.offset) :=
    fun k => (entriesFrom_sorted _ _).filter _
  have hnodup : ∀ k : Bytes, ((keybagEntries k).filter (fun e => e.uuid = uuid)).Nodup :=
    fun k => (hsorted k).imp (fun hlt heq => absurd hlt (by rw [heq]; exact Nat.lt_irrefl _))
  have hperm := (List.perm_ext_iff_of_nodup (hnodup keybag) (hnodup keybag')).mpr (fun e => by
    simp only [List.mem_filter, decide_eq_true_eq]
    constructor
    · rintro ⟨hmem, huuid⟩
      exact ⟨(h e huuid).mp hmem, huuid⟩
    · rintro ⟨hmem, huuid⟩
      exact ⟨(h e huuid).mpr hmem, huuid⟩)
  refine hperm.eq_of_pairwise ?_ (hsorted keybag) (hsorted keybag')
  intro a b _ _ hab hba
  exact absurd hab (Nat.lt_asymm hba)

/-- `volume_records` folds over the entries of the volume. -/
theorem foldlM_keybagEntries (keybag uuid : Bytes) :
    (keybagEntries keybag).foldlM (fun found entry =>
        if entry.uuid = uuid then recordStep found entry else return found) (none, none)
      = ((keybagEntries keybag).filter (fun e => e.uuid = uuid)).foldlM recordStep (none, none) := by
  rw [List.foldlM_filter]
  simp only [decide_eq_true_eq]

/-- What was found comes out of one of the entries. -/
structure FoundIn (entries : List KeybagEntry) (found : Option Bytes × Option (Nat × Nat)) :
    Prop where
  key : ∀ key, found.1 = some key → ∃ e ∈ entries,
    KeybagTag.fromU16 e.rawTag = .volumeKey ∧ volumeKeyOf (e.data.getD []) = .ok key
  extent : ∀ extent, found.2 = some extent → ∃ e ∈ entries,
    KeybagTag.fromU16 e.rawTag = .volumeUnlockRecords ∧
      unlockExtentOf (e.data.getD []) = .ok extent

theorem FoundIn.step {entries : List KeybagEntry} {found found' : Option Bytes × Option (Nat × Nat)}
    {e : KeybagEntry} (h : FoundIn entries found) (he : e ∈ entries)
    (hstep : recordStep found e = .ok found') : FoundIn entries found' := by
  unfold recordStep at hstep
  cases htag : KeybagTag.fromU16 e.rawTag with
  | volumeKey =>
    rw [htag, bind_eq_ok_iff] at hstep
    obtain ⟨key, hkey, hstep⟩ := hstep
    cases hstep
    refine ⟨?_, h.extent⟩
    rintro _ ⟨⟩
    exact ⟨e, he, htag, hkey⟩
  | volumeUnlockRecords =>
    rw [htag, bind_eq_ok_iff] at hstep
    obtain ⟨extent, hextent, hstep⟩ := hstep
    cases hstep
    refine ⟨h.key, ?_⟩
    rintro _ ⟨⟩
    exact ⟨e, he, htag, hextent⟩
  | unknown => rw [htag] at hstep; cases hstep; exact h
  | wrappingKey => rw [htag] at hstep; cases hstep; exact h
  | volumePassphraseHint => rw [htag] at hstep; cases hstep; exact h
  | userPayload => rw [htag] at hstep; cases hstep; exact h

theorem FoundIn.foldlM {entries : List KeybagEntry} : ∀ {rest : List KeybagEntry}
    {found found' : Option Bytes × Option (Nat × Nat)}, FoundIn entries found →
    (∀ e ∈ rest, e ∈ entries) → rest.foldlM recordStep found = .ok found' →
    FoundIn entries found' := by
  intro rest
  induction rest with
  | nil => intro found found' h _ hrun; cases hrun; exact h
  | cons e rest ih =>
    intro found found' h hsub hrun
    rw [List.forall_mem_cons] at hsub
    rw [List.foldlM_cons, bind_eq_ok_iff] at hrun
    obtain ⟨mid, hstep, hrun⟩ := hrun
    exact ih (h.step hsub.1 hstep) hsub.2 hrun

/-- **The records of a volume are its own.**  Two keybags in which the entries of a volume
are the same, at the same offsets, give the same records or the same error; and
what is returned was taken from entries of the volume. -/
theorem volumeRecords_isolated {keybag keybag' uuid : Bytes}
    (h : ∀ e : KeybagEntry, e.uuid = uuid →
      (e ∈ keybagEntries keybag ↔ e ∈ keybagEntries keybag')) :
    volumeRecords keybag uuid = volumeRecords keybag' uuid ∧
    ∀ records, volumeRecords keybag uuid = .ok records →
      (∃ e ∈ keybagEntries keybag, e.uuid = uuid ∧ KeybagTag.fromU16 e.rawTag = .volumeKey ∧
        volumeKeyOf (e.data.getD []) = .ok records.wrappedVek) ∧
      ∃ e ∈ keybagEntries keybag, e.uuid = uuid ∧
        KeybagTag.fromU16 e.rawTag = .volumeUnlockRecords ∧
        unlockExtentOf (e.data.getD [])
          = .ok (records.volumeKeybagBlock, records.volumeKeybagBlocks) := by
  constructor
  · rw [volumeRecords, volumeRecords, foldlM_keybagEntries, foldlM_keybagEntries,
      filter_keybagEntries_eq h]
  · intro records hrecords
    rw [volumeRecords, foldlM_keybagEntries, bind_eq_ok_iff] at hrecords
    obtain ⟨⟨wrappedVek, extent⟩, hrun, hrecords⟩ := hrecords
    have hnone : FoundIn ((keybagEntries keybag).filter (fun e => e.uuid = uuid)) (none, none) :=
      ⟨fun _ h => absurd h (by simp), fun _ h => absurd h (by simp)⟩
    have hfound := hnone.foldlM (fun e he => he) hrun
    have hown : ∀ e ∈ (keybagEntries keybag).filter (fun e => e.uuid = uuid),
        e ∈ keybagEntries keybag ∧ e.uuid = uuid := by
      intro e he
      simpa using List.mem_filter.mp he
    cases extent with
    | none => cases hrecords
    | some extent =>
      cases wrappedVek with
      | none => cases hrecords
      | some wrappedVek =>
        cases hrecords
        obtain ⟨e, he, htag, hkey⟩ := hfound.key wrappedVek rfl
        obtain ⟨e', he', htag', hextent⟩ := hfound.extent extent rfl
        exact ⟨⟨e, (hown e he).1, (hown e he).2, htag, hkey⟩,
          e', (hown e' he').1, (hown e' he').2, htag', hextent⟩

/-! ### Two volumes in one keybag

The entries of the volume `1` are the same in both keybags.  The entry before them
belongs to the volume `2`: a volume key without any structure, or unlock records
that are too short. -/

/-- An entry, padded to a multiple of 16 bytes. -/
def keybagEntry (uuid : Bytes) (tag : Nat) (data : Bytes) : Bytes :=
  padTo ((keHeaderLen + data.length + 15) / 16 * 16)
    (uuid ++ toLeBytes 2 tag ++ toLeBytes 2 data.length ++ List.replicate 4 0 ++ data)

/-- A keybag: the object header, the `kb_locker` header, the entries. -/
def keybagBytes (entries : List Bytes) : Bytes :=
  List.replicate 34 0 ++ toLeBytes 2 entries.length ++ List.replicate 12 0 ++ entries.flatten

/-- A BER value with a length of one byte. -/
def tlv (tag : UInt8) (value : Bytes) : Bytes := tag :: UInt8.ofNat value.length :: value

def ownUuid : Bytes := List.replicate 16 1

def sharedKeybag (foreignTag : Nat) : Bytes :=
  keybagBytes [keybagEntry (List.replicate 16 2) foreignTag [7, 7, 7],
    keybagEntry ownUuid 2 (tlv 0x30 (tlv 0xa3 (tlv 0x83 (List.replicate 40 5)))),
    keybagEntry ownUuid 3 (toLeBytes 8 77 ++ toLeBytes 8 1)]

theorem volumeRecords_sharedKeybag :
    volumeRecords (sharedKeybag 2) ownUuid = volumeRecords (sharedKeybag 3) ownUuid ∧
      volumeRecords (sharedKeybag 2) ownUuid = .ok ⟨List.replicate 40 5, 77, 1⟩ := by
  have hentries : ∀ tag ∈ [2, 3], keybagEntries (sharedKeybag tag)
      = [⟨48, List.replicate 16 2, tag, some [7, 7, 7]⟩, entryAt (sharedKeybag 2) 80,
          entryAt (sharedKeybag 2) 160] := by
    decide +kernel
  refine ⟨(volumeRecords_isolated ?_).1, by decide +kernel⟩
  intro e he
  have hforeign : ∀ tag data rest, e ∈ ⟨48, List.replicate 16 2, tag, data⟩ :: rest ↔ e ∈ rest := by
    intro tag data rest
    rw [List.mem_cons, or_iff_right]
    rintro rfl
    exact absurd (show List.replicate 16 2 = ownUuid from he) (by decide)
  rw [hentries 2 (by simp), hentries 3 (by simp), hforeign, hforeign]

/-! ### Unlocking -/

/-- A found wrapped key has the length that the format fixes. -/
theorem kekField_length {fields fields' : KekFields} {tag : Nat} {value : Bytes}
    (hlen : ∀ key, fields.wrappedKey = some key → key.length = 40)
    (h : kekField fields tag value = .ok fields') :
    ∀ key, fields'.wrappedKey = some key → key.length = 40 := by
  unfold kekField at h
  split at h
  · rw [ite_error_eq_ok_iff] at h
    obtain ⟨hvalue, h⟩ := h
    cases h
    rintro _ ⟨⟩
    exact not_not.mp hvalue
  · rw [ite_error_eq_ok_iff] at h
    cases h.2
    exact hlen
  · rw [ite_error_eq_ok_iff] at h
    cases h.2
    exact hlen
  · cases h
    exact hlen

theorem wrappedKekFrom_length {data : Bytes} : ∀ {fuel off : Nat} {fields fields' : KekFields},
    (∀ key, fields.wrappedKey = some key → key.length = 40) →
    wrappedKekFrom data fuel off fields = .ok fields' →
    ∀ key, fields'.wrappedKey = some key → key.length = 40 := by
  intro fuel
  induction fuel with
  | zero => intro off fields fields' hlen h; cases h; exact hlen
  | succ fuel ih =>
    intro off fields fields' hlen h
    rw [wrappedKekFrom] at h
    by_cases hoff : off < data.length
    · simp only [if_pos hoff, bind_eq_ok_iff, Prod.exists] at h
      obtain ⟨tag, value, stop, _, mid, hfield, h⟩ := h
      exact ih (kekField_length hlen hfield) h
    · rw [if_neg hoff] at h
      cases h
      exact hlen

theorem length_wrappedKey {data : Bytes} {info : WrappedKek}
    (h : parseWrappedKek data = .ok info) : info.wrappedKey.length = 40 := by
  rw [parseWrappedKek, bind_eq_ok_iff] at h
  obtain ⟨fields, hrun, h⟩ := h
  have hlen := wrappedKekFrom_length (fun _ hkey => absurd hkey (by simp)) hrun
  cases hkey : fields.wrappedKey with
  | none => simp only [hkey] at h; cases h
  | some key =>
    cases hiter : fields.iterations with
    | none => simp only [hkey, hiter] at h; cases h
    | some iterations =>
      cases hsalt : fields.salt with
      | none => simp only [hkey, hiter, hsalt] at h; cases h
      | some salt =>
        simp only [hkey, hiter, hsalt] at h
        cases h
        exact hlen key hkey

/-- The password opens the volume through a KEK object: the key derived with the salt and
count of the object unwraps its KEK, and that unwraps the volume key. -/
def Opens (crypto : KeyCrypto) (records : VolumeRecords) (password : String) (obj vek : Bytes) :
    Prop :=
  ∃ info derived kek, parseWrappedKek obj = .ok info ∧
    derived = deriveKeyFromPassword crypto password.toUTF8.toList info.salt info.iterations 32 ∧
    derived.length = 32 ∧ crypto.unwrap derived info.wrappedKey = some kek ∧ kek.length = 32 ∧
    records.wrappedVek.length = 40 ∧ crypto.unwrap kek records.wrappedVek = some vek

section Unlock

variable {crypto : KeyCrypto} {keybag : Bytes} {records : VolumeRecords} {password : String}

theorem tryInto_eq_ok_iff {n : Nat} {field : String} {bytes out : Bytes} :
    tryInto n field bytes = .ok out ↔ bytes.length = n ∧ bytes = out := by
  rw [tryInto]
  by_cases h : bytes.length = n <;> simp [h]

theorem aesKeyUnwrap_eq_ok_iff {kek wrapped key : Bytes} :
    aesKeyUnwrap crypto kek wrapped = .ok key ↔ crypto.unwrap kek wrapped = some key := by
  rw [aesKeyUnwrap]
  cases crypto.unwrap kek wrapped <;> simp

/-- Only the first KEK object is tried. -/
theorem unlock_eq_ok_iff {vek : Bytes} :
    unlockWithVolumeKeybag crypto keybag records password = .ok vek ↔
      ∃ first, findKekObject keybag = some first ∧ Opens crypto records password first vek := by
  rw [unlockWithVolumeKeybag]
  cases hobj : findKekObject keybag with
  | none => simp
  | some obj =>
    simp only [bind_eq_ok_iff, tryInto_eq_ok_iff, aesKeyUnwrap_eq_ok_iff, Option.some.injEq,
      exists_eq_left', Opens]
    constructor
    · rintro ⟨info, hinfo, _, ⟨hderived, rfl⟩, _, ⟨_, rfl⟩, kek, hkek, _, ⟨hlen, rfl⟩, _,
        ⟨hvek, rfl⟩, hopen⟩
      exact ⟨info, _, kek, hinfo, rfl, hderived, hkek, hlen, hvek, hopen⟩
    · rintro ⟨info, derived, kek, hinfo, rfl, hderived, hkek, hlen, hvek, hopen⟩
      exact ⟨info, hinfo, _, ⟨hderived, rfl⟩, _, ⟨length_wrappedKey hinfo, rfl⟩, kek, hkek, _,
        ⟨hlen, rfl⟩, _, ⟨hvek, rfl⟩, hopen⟩

theorem findKekObject_eq_some_iff {obj : Bytes} :
    findKekObject keybag = some obj ↔ ∃ before first after,
      keybagEntries keybag = before ++ first :: after ∧ (∀ e ∈ before, kekObject e = none) ∧
      kekObject first = some obj := by
  rw [findKekObject, List.findSome?_eq_some_iff]
  constructor
  · rintro ⟨before, first, after, hsplit, hfirst, hbefore⟩
    exact ⟨before, first, after, hsplit, hbefore, hfirst⟩
  · rintro ⟨before, first, after, hsplit, hbefore, hfirst⟩
    exact ⟨before, first, after, hsplit, hfirst, hbefore⟩

/-- An object holds one volume key. -/
theorem Opens.unique {obj vek vek' : Bytes} (h : Opens crypto records password obj vek)
    (h' : Opens crypto records password obj vek') : vek' = vek := by
  obtain ⟨info, _, kek, hinfo, rfl, _, hkek, _, _, hvek⟩ := h
  obtain ⟨info', _, kek', hinfo', rfl, _, hkek', _, _, hvek'⟩ := h'
  cases hinfo.symm.trans hinfo'
  cases hkek.symm.trans hkek'
  exact (Option.some.inj (hvek.symm.trans hvek')).symm

/-- **When every unlock record works.**  Whatever entry the password opens, the volume is
unlocked with its key, exactly if the password opens no entry, or it opens the first entry
that holds a KEK object and gets no other key from a later one. -/
theorem unlock_iff_first_opens :
    (∀ e ∈ keybagEntries keybag, ∀ obj vek, kekObject e = some obj →
      Opens crypto records password obj vek →
      unlockWithVolumeKeybag crypto keybag records password = .ok vek) ↔
    (∀ e ∈ keybagEntries keybag, ∀ obj vek, kekObject e = some obj →
      ¬ Opens crypto records password obj vek) ∨
    ∃ before first after obj vek, keybagEntries keybag = before ++ first :: after ∧
      (∀ e ∈ before, kekObject e = none) ∧ kekObject first = some obj ∧
      Opens crypto records password obj vek ∧
      ∀ e ∈ after, ∀ obj' vek', kekObject e = some obj' →
        Opens crypto records password obj' vek' → vek' = vek := by
  constructor
  · intro h
    refine or_iff_not_imp_left.mpr fun hopen => ?_
    push Not at hopen
    obtain ⟨e, he, obj, vek, hobj, hvek⟩ := hopen
    have hunlock := h e he obj vek hobj hvek
    obtain ⟨obj', hfind, hopens⟩ := unlock_eq_ok_iff.mp hunlock
    obtain ⟨before, first, after, hsplit, hbefore, hfirst⟩ := findKekObject_eq_some_iff.mp hfind
    refine ⟨before, first, after, obj', vek, hsplit, hbefore, hfirst, hopens, ?_⟩
    intro e' he' obj'' vek' hobj' hvek'
    have hmem : e' ∈ keybagEntries keybag := by simp [hsplit, he']
    exact Except.ok.inj ((h e' hmem obj'' vek' hobj' hvek').symm.trans hunlock)
  · rintro (hnone | ⟨before, first, after, obj, vek, hsplit, hbefore, hfirst, hopens, hafter⟩)
      e he obj' vek' hobj hvek
    · exact absurd hvek (hnone e he obj' vek' hobj)
    · have hkey : vek' = vek := by
        rw [hsplit, List.mem_append, List.mem_cons] at he
        rcases he with he | rfl | he
        · cases (hbefore e he).symm.trans hobj
        · cases hfirst.symm.trans hobj
          exact hopens.unique hvek
        · exact hafter e he obj' vek' hobj hvek
      have hfind := findKekObject_eq_some_iff.mpr ⟨before, first, after, hsplit, hbefore, hfirst⟩
      exact unlock_eq_ok_iff.mpr ⟨obj, hfind, hkey ▸ hopens⟩

end Unlock

/-! ### Two users

Stand-ins for the crypto: the derived key starts with the password, and a key unwraps
what starts with the same eight bytes.  The entries of the users `a` and `b` wrap the
same KEK. -/

def headCrypto : KeyCrypto where
  pbkdf2 password salt _ outLen := some ((padTo outLen (password ++ salt)).take outLen)
  unwrap kek wrapped := if kek.take 8 = wrapped.take 8 then some (wrapped.drop 8) else none

def userObject (user : UInt8) : Bytes :=
  tlv 0x83 (user :: List.replicate 7 1 ++ List.replicate 32 7) ++ tlv 0x84 [1] ++
    tlv 0x85 (List.replicate 16 1)

def userEntry (user : UInt8) : Bytes :=
  keybagEntry (List.replicate 16 user) 3 (tlv 0x30 (tlv 0xa3 (userObject user)))

def twoUserKeybag : Bytes := keybagBytes [userEntry 97, userEntry 98]

def twoUserRecords : VolumeRecords := ⟨List.replicate 8 7 ++ List.replicate 32 9, 77, 1⟩

/-- The second user has the key and is told that the password is wrong. -/
theorem unlock_twoUserKeybag :
    (∃ e ∈ keybagEntries twoUserKeybag, kekObject e = some (userObject 98)) ∧
      Opens headCrypto twoUserRecords "b" (userObject 98) (List.replicate 32 9) ∧
      unlockWithVolumeKeybag headCrypto twoUserKeybag twoUserRecords "a"
        = .ok (List.replicate 32 9) ∧
      unlockWithVolumeKeybag headCrypto twoUserKeybag twoUserRecords "b"
        = .error (.err (.fieldOutOfRange "aes_key_wrap" "integrity_check" 0 1)) := by
  refine ⟨by decide +kernel, ?_, by decide +kernel, by decide +kernel⟩
  refine ⟨⟨98 :: List.replicate 7 1 ++ List.replicate 32 7, 1, List.replicate 16 1⟩, _,
    List.replicate 32 7, ?_, rfl, ?_⟩
  · decide +kernel
  · decide +kernel

end ApfsForensic
