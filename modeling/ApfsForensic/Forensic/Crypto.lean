import ApfsForensic.Core.KeybagWalk
import ApfsForensic.Forensic.Audit

/-!
# The audit of the encryption state

`forensic/src/crypto.rs`.  A keybag entry whose tag is not a known one is worth a
finding, with the tag and the offset of the entry.  The tag has 16 bits on disk and 8 in
the finding.

* `keybagFindings_audit`: the findings are the unknown entries of the walk, in its order,
  each with the low byte of its tag.
* `crypto_audit_faithful_iff`: so they carry the tags of the keybag exactly if no unknown
  tag needs its high byte.
-/

namespace ApfsForensic

/-! ### The audit -/

/-- The `Debug` form of a tag. -/
def KeybagTag.debug : KeybagTag → String
  | unknown => "Unknown"
  | wrappingKey => "WrappingKey"
  | volumeKey => "VolumeKey"
  | volumeUnlockRecords => "VolumeUnlockRecords"
  | volumePassphraseHint => "VolumePassphraseHint"
  | userPayload => "UserPayload"

/-- The `detail` of `crypto::audit`. -/
def EncryptionState.detail (state : EncryptionState) : String :=
  "encrypted=" ++ toString state.encrypted ++ ", tags=["
    ++ ", ".intercalate (state.tagsPresent.map KeybagTag.debug)
    ++ "], passphrase_hint=" ++ toString state.hasPassphraseHint

/-- `crypto_anomalies`.  The tag of a finding is a `u8`. -/
def cryptoAnomalies (encrypted : Bool) (detail : String) (unknownTags : List (Nat × Nat)) :
    List AnomalyKind :=
  (if encrypted then [.encryptionLocked, .encryptionState detail] else []) ++
    unknownTags.map fun t => .encryptionKeybagAnomaly (t.1 &&& 0xff) t.2

/-- `crypto::audit`. -/
def cryptoAudit (state : EncryptionState) : List AnomalyKind :=
  cryptoAnomalies state.encrypted state.detail state.unknownTags

/-! ### What is found -/

/-- The tag and the offset of a keybag finding. -/
def AnomalyKind.keybagFinding : AnomalyKind → Option (Nat × Nat)
  | encryptionKeybagAnomaly rawTag offset => some (rawTag, offset)
  | _ => none

/-- The keybag findings among these, in order. -/
def keybagFindings (findings : List AnomalyKind) : List (Nat × Nat) :=
  findings.filterMap AnomalyKind.keybagFinding

/-- The entries that the walk comes to and whose tag is not a known one. -/
def unknownEntries (keybag : Bytes) : List KeybagEntry :=
  (keybagEntries keybag).filter fun e => KeybagTag.fromU16 e.rawTag = .unknown

theorem keybagFindings_cryptoAudit (state : EncryptionState) :
    keybagFindings (cryptoAudit state)
      = state.unknownTags.map fun t => (t.1 &&& 0xff, t.2) := by
  have hstate : (if state.encrypted then [.encryptionLocked, .encryptionState state.detail]
      else []).filterMap AnomalyKind.keybagFinding = [] := by
    cases state.encrypted with
    | true => rfl
    | false => rfl
  rw [cryptoAudit, cryptoAnomalies, keybagFindings, List.filterMap_append, hstate,
    List.nil_append, List.filterMap_map]
  exact congrFun List.filterMap_eq_map _

/-- An entry of the walk has the tag that stands 16 bytes behind its offset. -/
theorem rawTag_of_mem_entriesFrom {keybag : Bytes} : ∀ {remaining off : Nat} {e : KeybagEntry},
    e ∈ entriesFrom keybag remaining off → e.rawTag = leU16 keybag (e.offset + 16) := by
  intro remaining
  induction remaining with
  | zero => intro off e he; cases he
  | succ remaining ih =>
    intro off e he
    rw [entriesFrom] at he
    by_cases hend : off + keHeaderLen > keybag.length
    · rw [if_pos hend] at he
      cases he
    · rw [if_neg hend, List.mem_cons] at he
      rcases he with rfl | he
      · rfl
      · exact ih he

/-- **The findings**: the unknown entries, each with the low byte of its tag. -/
theorem keybagFindings_audit (keybag : Bytes) : ∃ state, readKeybag keybag = .ok state ∧
    keybagFindings (cryptoAudit state)
      = (unknownEntries keybag).map fun e => (leU16 keybag (e.offset + 16) &&& 0xff, e.offset) := by
  refine ⟨_, rfl, ?_⟩
  rw [keybagFindings_cryptoAudit, foldl_tagStep_snd, List.nil_append, List.map_map]
  refine List.map_congr_left fun e he => ?_
  rw [Function.comp_apply, rawTag_of_mem_entriesFrom (List.mem_of_mem_filter he)]

theorem and_0xff_eq_self_iff {n : Nat} : n &&& 0xff = n ↔ n < 256 := by
  rw [show (0xff : Nat) = 2 ^ 8 - 1 from rfl, Nat.and_two_pow_sub_one_eq_mod]
  exact ⟨fun h => h ▸ Nat.mod_lt n (by decide), Nat.mod_eq_of_lt⟩

/-- **When unrecognised tags are reported faithfully.**  The findings are the unknown
entries with the tags that the keybag stores, and none of them names a known tag, exactly if
no unknown tag exceeds a byte. -/
theorem crypto_audit_faithful_iff (keybag : Bytes) : ∃ state, readKeybag keybag = .ok state ∧
    ((keybagFindings (cryptoAudit state)
        = (unknownEntries keybag).map (fun e => (leU16 keybag (e.offset + 16), e.offset)) ∧
      ∀ f ∈ keybagFindings (cryptoAudit state), KeybagTag.fromU16 f.1 = .unknown) ↔
    ∀ e ∈ unknownEntries keybag, leU16 keybag (e.offset + 16) < 256) := by
  obtain ⟨state, hstate, hfound⟩ := keybagFindings_audit keybag
  have hsame : keybagFindings (cryptoAudit state)
        = (unknownEntries keybag).map (fun e => (leU16 keybag (e.offset + 16), e.offset)) ↔
      ∀ e ∈ unknownEntries keybag, leU16 keybag (e.offset + 16) < 256 := by
    rw [hfound, List.map_inj_left]
    refine forall₂_congr fun e _ => ?_
    rw [Prod.mk.injEq, and_iff_left rfl, and_0xff_eq_self_iff]
  refine ⟨state, hstate, fun h => hsame.mp h.1, fun h => ⟨hsame.mpr h, fun f hf => ?_⟩⟩
  rw [hsame.mpr h] at hf
  obtain ⟨e, he, rfl⟩ := List.mem_map.mp hf
  have hmem := List.mem_filter.mp he
  rw [← rawTag_of_mem_entriesFrom hmem.1]
  exact of_decide_eq_true hmem.2

/-- A keybag of one entry, with tag `0x0103`. -/
def highTagKeybag : Bytes :=
  List.replicate 34 0 ++ toLeBytes 2 1 ++ List.replicate 28 0 ++ toLeBytes 2 0x0103
    ++ List.replicate 6 0

/-- The unknown tag is reported as that of the unlock records. -/
theorem crypto_audit_highTagKeybag :
    (unknownEntries highTagKeybag).map (fun e => (e.rawTag, e.offset)) = [(0x0103, 48)] ∧
    ∃ state, readKeybag highTagKeybag = .ok state ∧
      cryptoAudit state = [.encryptionKeybagAnomaly 0x03 48] ∧
      KeybagTag.fromU16 0x03 = .volumeUnlockRecords := by
  refine ⟨by decide +kernel, _, rfl, by decide +kernel, rfl⟩

end ApfsForensic
