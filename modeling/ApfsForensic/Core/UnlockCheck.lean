import ApfsForensic.Core.Panic
import ApfsForensic.Core.Unlock

/-!
# Unlocking from ranged reads

`core/examples/unlock_check.rs`: the tool that tries a password on an image it never loads.  It
reads the superblock and the areas of the keybags, and it tries the volumes that the keybag of
the container names, in turn.  The file is an `Image`; to open it is not modelled.

A round of its loop does not look at the password before the keybag of the volume is
decrypted.  `probe` is the round up to there, so that runs with different passwords can be
compared.

* `unlock_check_agrees`: the tool unlocks a volume exactly if `unlock_volume`, which has the
  whole image, unlocks one that the tool recognises.
* `unlock_volume_never_panics`: `unlock_volume` itself returns on every image.
* `unlock_check_verdict`: a refusal says the same about the image whatever the password was, up
  to a volume that another password opens.
* `unlock_check_reads_little`: a run that comes to an outcome has read the superblock, and at
  most one area of plausible size for the container and for each volume.
-/

namespace ApfsForensic

/-- How `run` ends without an outcome. -/
inductive CheckFault where
  | io (kind : IoErrorKind)
  | other (message : String)
  | panic
  deriving DecidableEq, Repr

abbrev CheckResult (α : Type) := Except CheckFault α

/-- `MAX_KEYBAG_BYTES`. -/
def maxKeybagBytes : Nat := 2 ^ 20

/-- `b"syek"`. -/
def syekBytes : Bytes := [0x73, 0x79, 0x65, 0x6b]

/-- `b"scer"`. -/
def scerBytes : Bytes := [0x73, 0x63, 0x65, 0x72]

/-- The counters of `run`. -/
structure Tally where
  volumesFound : Nat
  volumesTried : Nat
  bytesRead : Nat
  deriving DecidableEq, Repr

/-- `Outcome`: the uuid, the fingerprint and the length of a key that was recovered. -/
structure Outcome where
  tally : Tally
  unlocked : Option (Uuid × Bytes × Nat)
  deriving DecidableEq

def Uuid.isZero (uuid : Uuid) : Bool := uuid.bytes.all (· == 0)

/-- One round of `keybag_uuids`. -/
def uuidStep (out : List Uuid) (entry : KeybagEntry) : List Uuid :=
  match Uuid.tryFrom entry.uuid with
  | some uuid => if !uuid.isZero && !out.contains uuid then out ++ [uuid] else out
  | none => out

/-- `keybag_uuids`: its walk is that of the library. -/
def keybagUuids (keybag : Bytes) : List Uuid := (keybagEntries keybag).foldl uuidStep []

/-- `read_at`. -/
def checkRead (image : Image) (off len : Nat) : CheckResult Bytes :=
  match image.readAt off len with
  | .ok s => .ok s
  | .error kind => .error (.io kind)

/-- `ok_or_else(|| err(message))`. -/
def checkOr {α : Type} (o : Option α) (message : String) : CheckResult α :=
  match o with
  | some a => .ok a
  | none => .error (.other message)

/-- How far a round comes before it needs the password. -/
inductive Probe where
  /-- The keybag of the container has no records of the volume. -/
  | unnamed
  /-- The area of the volume's keybag is implausible, or the file does not have it. -/
  | unread
  /-- The area was read and does not decrypt to a keybag. -/
  | noise (len : Nat)
  | keybag (len : Nat) (records : VolumeRecords) (volumeKb : Bytes)
  deriving DecidableEq

def Tally.after (t : Tally) : Probe → Tally
  | .unnamed => t
  | .unread => { t with volumesFound := t.volumesFound + 1 }
  | .noise len => { t with volumesFound := t.volumesFound + 1, bytesRead := t.bytesRead + len }
  | .keybag len _ _ => ⟨t.volumesFound + 1, t.volumesTried + 1, t.bytesRead + len⟩

section Source

variable (xts : Xts) (crypto : KeyCrypto) (sha256 : Bytes → Bytes) (image : Image)

/-- `decrypt_keybag_area`, which returns or panics. -/
def checkDecrypt (ct : Bytes) (uuid : Uuid) (firstSector : Nat) : CheckResult Bytes :=
  match decryptKeybagArea xts ct uuid firstSector with
  | .ok keybag => .ok keybag
  | .error _ => .error .panic

/-- `run` up to the loop: the block size, the keybag of the container and the bytes read. -/
def openKeybag : CheckResult (Nat × Bytes × Nat) := do
  let sb ← checkRead image 0 4096
  if getRange sb 32 36 ≠ some nxsbBytes then
    .error (.other "no NXSB container superblock at offset 0")
  else
    let blockSize := leU32 sb nxBlockSizeOff
    if blockSize = 0 ∨ blockSize > maxKeybagBytes then
      .error (.other "container block size is not a usable value")
    else
      let containerUuid ← checkOr ((getRange sb nxContainerUuidOff (nxContainerUuidOff + 16)).bind
        Uuid.tryFrom) "short superblock"
      let kbStart ← checkOr (checkedMul (leU64 sb nxKeybagBlockOff) blockSize)
        "keybag offset overflows"
      let kbLen ← checkOr (checkedMul (leU64 sb nxKeybagBlocksOff) blockSize)
        "keybag length overflows"
      if kbStart = 0 ∨ kbLen = 0 then
        .error (.other "this container declares no keybag: it is not encrypted")
      else if kbLen > maxKeybagBytes then
        .error (.other "declared keybag length is implausible")
      else
        let ct ← checkRead image kbStart kbLen
        let containerKb ← checkDecrypt xts ct containerUuid (kbStart / keybagSector)
        if getRange containerKb 24 28 ≠ some syekBytes then
          .error (.other ("the container keybag did not decrypt — the area is damaged, or " ++
            "this is not an APFS-native encrypted container"))
        else return (blockSize, containerKb, 4096 + kbLen)

/-- A round of the loop up to the keybag of the volume. -/
def probe (blockSize : Nat) (containerKb : Bytes) (uuid : Uuid) : CheckResult Probe :=
  match volumeRecords containerKb uuid.bytes with
  | .error _ => .ok .unnamed
  | .ok records =>
    let vs := saturatingMul records.volumeKeybagBlock blockSize
    let vlen := saturatingMul records.volumeKeybagBlocks blockSize
    if vs = 0 ∨ vlen = 0 ∨ vlen > maxKeybagBytes then .ok .unread
    else
      match image.readAt vs vlen with
      | .error _ => .ok .unread
      | .ok vct => do
        let vkb ← checkDecrypt xts vct uuid (vs / keybagSector)
        if getRange vkb 24 28 ≠ some scerBytes then .ok (.noise vlen)
        else .ok (.keybag vlen records vkb)

/-- The password on what a round has come to. -/
def attempt (password : String) : Probe → Option Bytes
  | .keybag _ records vkb => (unlockWithVolumeKeybag crypto vkb records password).toOption
  | _ => none

/-- The loop of `run`. -/
def tryVolumes (password : String) (blockSize : Nat) (containerKb : Bytes) :
    List Uuid → Tally → CheckResult Outcome
  | [], t => .ok ⟨t, none⟩
  | uuid :: rest, t => do
    let p ← probe xts image blockSize containerKb uuid
    match attempt crypto password p with
    | some vek => .ok ⟨t.after p, some (uuid, (sha256 vek).take 8, vek.length)⟩
    | none => tryVolumes password blockSize containerKb rest (t.after p)

/-- `run`. -/
def unlockCheck (password : String) : CheckResult Outcome := do
  let (blockSize, containerKb, bytesRead) ← openKeybag xts image
  tryVolumes xts crypto sha256 image password blockSize containerKb (keybagUuids containerKb)
    ⟨0, 0, bytesRead⟩

end Source

/-! ### The errors that the loop passes over

The loop goes on after every error of `volume_records` and `unlock_with_volume_keybag`.  None of
them is a panic. -/

open NoPanic

theorem noPanic_kekByte (data : Bytes) (field : String) (off reported : Nat) :
    NoPanic (kekByte data field off reported) := by
  unfold kekByte
  cases byteAt data off with
  | none => exact err _
  | some b => exact ok b

theorem noPanic_kekLength (data : Bytes) (first off : Nat) :
    NoPanic (kekLength data first off) := by
  unfold kekLength
  refine ite (ok _) (ite ?_ (ite ?_ (err _)))
  · exact (noPanic_kekByte _ _ _ _).bind fun _ => ok _
  · exact (noPanic_kekByte _ _ _ _).bind fun _ => (noPanic_kekByte _ _ _ _).bind fun _ => ok _

theorem noPanic_kekStep (data : Bytes) (off : Nat) : NoPanic (kekStep data off) := by
  unfold kekStep
  refine (noPanic_kekByte _ _ _ _).bind fun _ => (noPanic_kekByte _ _ _ _).bind fun first =>
    (noPanic_kekLength _ _ _).bind fun p => ?_
  dsimp only
  cases checkedAdd p.2 p.1 with
  | none => exact err _
  | some stop =>
    dsimp only
    cases getRange data p.2 stop with
    | none => exact err _
    | some value => exact ok _

theorem noPanic_kekField (fields : KekFields) (tag : Nat) (value : Bytes) :
    NoPanic (kekField fields tag value) := by
  unfold kekField
  split
  · exact ite (err _) (ok _)
  · exact ite (err _) (ok _)
  · exact ite (err _) (ok _)
  · exact ok _

theorem noPanic_wrappedKekFrom (data : Bytes) : ∀ (fuel off : Nat) (fields : KekFields),
    NoPanic (wrappedKekFrom data fuel off fields) := by
  intro fuel
  induction fuel with
  | zero => intro off fields; exact ok _
  | succ fuel ih =>
    intro off fields
    rw [wrappedKekFrom]
    refine ite ((noPanic_kekStep _ _).bind fun p => ?_) (ok _)
    exact (noPanic_kekField _ _ _).bind fun _ => ih _ _

theorem noPanic_parseWrappedKek (data : Bytes) : NoPanic (parseWrappedKek data) := by
  unfold parseWrappedKek
  refine (noPanic_wrappedKekFrom _ _ _ _).bind fun fields => ?_
  cases fields.wrappedKey with
  | none => exact err _
  | some key =>
    dsimp only
    cases fields.iterations with
    | none => exact err _
    | some iterations =>
      dsimp only
      cases fields.salt with
      | none => exact err _
      | some salt => exact ok _

theorem noPanic_tryInto (n : Nat) (field : String) (bytes : Bytes) :
    NoPanic (tryInto n field bytes) :=
  ite (ok _) (err _)

theorem noPanic_aesKeyUnwrap (crypto : KeyCrypto) (kek wrapped : Bytes) :
    NoPanic (aesKeyUnwrap crypto kek wrapped) := by
  unfold aesKeyUnwrap
  cases crypto.unwrap kek wrapped with
  | none => exact err _
  | some key => exact ok _

theorem noPanic_unlockWithVolumeKeybag (crypto : KeyCrypto) (keybag : Bytes)
    (records : VolumeRecords) (password : String) :
    NoPanic (unlockWithVolumeKeybag crypto keybag records password) := by
  unfold unlockWithVolumeKeybag
  cases findKekObject keybag with
  | none => exact err _
  | some obj =>
    refine (noPanic_parseWrappedKek obj).bind fun _ => (noPanic_tryInto _ _ _).bind fun _ =>
      (noPanic_tryInto _ _ _).bind fun _ => (noPanic_aesKeyUnwrap _ _ _).bind fun _ => ?_
    exact (noPanic_tryInto _ _ _).bind fun _ => (noPanic_tryInto _ _ _).bind fun _ =>
      noPanic_aesKeyUnwrap _ _ _

theorem noPanic_okOrElse {α : Type} (o : Option α) (e : ApfsError) :
    NoPanic (okOrElse o (.err e)) := by
  cases o with
  | none => exact err e
  | some a => exact ok a

theorem noPanic_volumeKeyOf (data : Bytes) : NoPanic (volumeKeyOf data) := by
  unfold volumeKeyOf
  dsimp only
  cases berFind ((berFind data 0x30).getD data) 0xa3 with
  | none => exact err _
  | some obj =>
    dsimp only
    cases berFind obj 0x83 with
    | none => exact err _
    | some inner => exact ite (err _) (ok _)

theorem noPanic_recordStep (found : Option Bytes × Option (Nat × Nat)) (entry : KeybagEntry) :
    NoPanic (recordStep found entry) := by
  unfold recordStep
  split
  · exact (noPanic_volumeKeyOf _).bind fun _ => ok _
  · exact NoPanic.bind (ite (err _) (ok _)) fun _ => ok _
  · exact ok _

theorem noPanic_volumeRecords (keybag uuid : Bytes) : NoPanic (volumeRecords keybag uuid) := by
  unfold volumeRecords
  refine (foldlM (fun _ _ => ite (noPanic_recordStep _ _) (ok _)) _ _).bind fun found => ?_
  obtain ⟨key, extent⟩ := found
  cases extent with
  | none => exact err _
  | some extent =>
    cases key with
    | none => exact err _
    | some key => exact ok _

/-! ### The volumes that a keybag names -/

theorem mem_uuidStep {out : List Uuid} {entry : KeybagEntry} {uuid : Uuid} :
    uuid ∈ uuidStep out entry ↔ uuid ∈ out ∨ uuid.isZero = false ∧ entry.uuid = uuid.bytes := by
  unfold uuidStep
  cases hfrom : Uuid.tryFrom entry.uuid with
  | none =>
    have hne : entry.uuid ≠ uuid.bytes := by
      intro h
      rw [h, uuid.tryFrom_bytes] at hfrom
      cases hfrom
    simp [hne]
  | some found =>
    rw [Uuid.tryFrom_eq_some_iff] at hfrom
    have heq : entry.uuid = uuid.bytes ↔ uuid = found := by
      rw [hfrom]
      constructor
      · intro h
        cases uuid
        cases found
        cases h
        rfl
      · rintro rfl
        rfl
    rw [heq]
    by_cases hnew : (!found.isZero && !out.contains found) = true
    · simp only [hnew, if_true, List.mem_append, List.mem_singleton]
      have hzero : found.isZero = false := by simpa using (Bool.and_eq_true_iff.mp hnew).1
      constructor
      · rintro (h | rfl)
        · exact .inl h
        · exact .inr ⟨hzero, rfl⟩
      · rintro (h | ⟨_, rfl⟩)
        · exact .inl h
        · exact .inr rfl
    · simp only [hnew, if_false, Bool.false_eq_true]
      constructor
      · exact .inl
      · rintro (h | ⟨hzero, rfl⟩)
        · exact h
        · simpa [hzero] using hnew

theorem mem_foldl_uuidStep {uuid : Uuid} : ∀ (entries : List KeybagEntry) (out : List Uuid),
    uuid ∈ entries.foldl uuidStep out ↔
      uuid ∈ out ∨ uuid.isZero = false ∧ ∃ e ∈ entries, e.uuid = uuid.bytes := by
  intro entries
  induction entries with
  | nil => simp
  | cons e entries ih =>
    intro out
    rw [List.foldl_cons, ih, mem_uuidStep, List.exists_mem_cons_iff, or_assoc, ← and_or_left]

theorem mem_keybagUuids {keybag : Bytes} {uuid : Uuid} : uuid ∈ keybagUuids keybag ↔
    uuid.isZero = false ∧ ∃ e ∈ keybagEntries keybag, e.uuid = uuid.bytes := by
  rw [keybagUuids, mem_foldl_uuidStep]
  simp

theorem length_foldl_uuidStep : ∀ (entries : List KeybagEntry) (out : List Uuid),
    (entries.foldl uuidStep out).length ≤ out.length + entries.length := by
  intro entries
  induction entries with
  | nil => intro out; exact le_rfl
  | cons e entries ih =>
    intro out
    have hstep : (uuidStep out e).length ≤ out.length + 1 := by
      unfold uuidStep
      split
      · split
        · rw [List.length_append, List.length_singleton]
        · exact Nat.le_succ _
      · exact Nat.le_succ _
    have hrest := ih (uuidStep out e)
    rw [List.foldl_cons, List.length_cons]
    omega

theorem length_entriesFrom (keybag : Bytes) : ∀ (remaining off : Nat),
    (entriesFrom keybag remaining off).length ≤ remaining := by
  intro remaining
  induction remaining with
  | zero => intro off; exact le_rfl
  | succ remaining ih =>
    intro off
    rw [entriesFrom]
    split
    · exact Nat.zero_le _
    · exact Nat.succ_le_succ (ih _)

theorem length_keybagUuids (keybag : Bytes) : (keybagUuids keybag).length ≤ maxKeybagEntries := by
  have hfold := length_foldl_uuidStep (keybagEntries keybag) []
  have hwalk : (keybagEntries keybag).length ≤ min (leU16 keybag klNkeys) maxKeybagEntries :=
    length_entriesFrom ..
  rw [List.length_nil] at hfold
  unfold keybagUuids
  omega

/-- A volume with records has an entry. -/
theorem exists_entry_of_volumeRecords {keybag uuid : Bytes} {records : VolumeRecords}
    (h : volumeRecords keybag uuid = .ok records) : ∃ e ∈ keybagEntries keybag, e.uuid = uuid := by
  by_contra hnone
  have hempty : (keybagEntries keybag).filter (fun e => e.uuid = uuid) = [] := by
    rw [List.filter_eq_nil_iff]
    intro e he huuid
    exact hnone ⟨e, he, of_decide_eq_true huuid⟩
  rw [volumeRecords, foldlM_keybagEntries, hempty] at h
  cases h

/-! ### The reads -/

theorem check_bind_eq_ok_iff {α β : Type} {x : CheckResult α} {f : α → CheckResult β} {b : β} :
    (x >>= f) = .ok b ↔ ∃ a, x = .ok a ∧ f a = .ok b := by
  cases x with
  | error e =>
    constructor
    · intro h
      cases h
    · rintro ⟨_, h, _⟩
      cases h
  | ok a =>
    constructor
    · intro h
      exact ⟨a, rfl, h⟩
    · rintro ⟨_, ⟨⟩, h⟩
      exact h

theorem check_ite_error_eq_ok_iff {α : Type} {c : Prop} [Decidable c] {e : CheckFault}
    {x : CheckResult α} {a : α} : (if c then .error e else x) = .ok a ↔ ¬ c ∧ x = .ok a := by
  by_cases h : c <;> simp [h]

theorem checkOr_eq_ok_iff {α : Type} {o : Option α} {message : String} {a : α} :
    checkOr o message = .ok a ↔ o = some a := by
  cases o <;> simp [checkOr]

section Reads

variable {xts : Xts} {image : Image}

theorem checkRead_eq_ok_iff {off len : Nat} {s : Bytes} :
    checkRead image off len = .ok s ↔ image.readAt off len = .ok s := by
  unfold checkRead
  cases image.readAt off len <;> simp

theorem checkDecrypt_eq_ok_iff {ct keybag : Bytes} {uuid : Uuid} {first : Nat} :
    checkDecrypt xts ct uuid first = .ok keybag ↔
      decryptKeybagArea xts ct uuid first = .ok keybag := by
  unfold checkDecrypt
  cases decryptKeybagArea xts ct uuid first <;> simp

/-- A ranged read of a nonempty extent is the slice of the image. -/
theorem readAt_eq_ok_iff_areaOf (names : ExtentNames) {paddr blocks blockSize : Nat} {ct : Bytes}
    (hne : blocks * blockSize ≠ 0) :
    image.readAt (paddr * blockSize) (blocks * blockSize) = .ok ct ↔
      areaOf names image paddr blocks blockSize = .ok (paddr * blockSize, ct) := by
  rw [Image.readAt_eq_ok_iff, areaOf_eq_ok_iff]
  simp [hne]

/-- What `run` needs to come to its loop, in terms of the whole image. -/
theorem openKeybag_eq_ok_iff (hsectors : keybagSector ∣ leU32 image.bytes nxBlockSizeOff)
    {blockSize bytesRead : Nat} {keybag : Bytes} :
    openKeybag xts image = .ok (blockSize, keybag, bytesRead) ↔
      4096 ≤ image.bytes.length ∧ leU32 image.bytes nxBlockSizeOff = blockSize ∧
        blockSize ≤ maxKeybagBytes ∧
        leU64 image.bytes nxKeybagBlocksOff * blockSize ≤ maxKeybagBytes ∧
        decryptContainerKeybag xts image = .ok keybag ∧ getRange keybag 24 28 = some syekBytes ∧
        bytesRead = 4096 + leU64 image.bytes nxKeybagBlocksOff * blockSize := by
  -- the fields that are read lie in the first 4096 bytes
  have hmagic : getRange (image.bytes.take 4096) 32 36 = getRange image.bytes 32 36 :=
    getRange_take (by decide)
  have huuid : getRange (image.bytes.take 4096) nxContainerUuidOff (nxContainerUuidOff + 16)
      = getRange image.bytes nxContainerUuidOff (nxContainerUuidOff + 16) :=
    getRange_take (by decide)
  have hbs : leU32 (image.bytes.take 4096) nxBlockSizeOff = leU32 image.bytes nxBlockSizeOff :=
    leUInt_take (by decide)
  have hpaddr : leU64 (image.bytes.take 4096) nxKeybagBlockOff
      = leU64 image.bytes nxKeybagBlockOff := leUInt_take (by decide)
  have hblocks : leU64 (image.bytes.take 4096) nxKeybagBlocksOff
      = leU64 image.bytes nxKeybagBlocksOff := leUInt_take (by decide)
  simp only [openKeybag, check_bind_eq_ok_iff, check_ite_error_eq_ok_iff, checkOr_eq_ok_iff,
    checkedMul_eq_some_iff, Option.bind_eq_some_iff, Uuid.tryFrom_eq_some_iff, checkRead_eq_ok_iff,
    checkDecrypt_eq_ok_iff, decryptContainerKeybag_eq_ok_iff, ne_eq, not_not, not_or]
  constructor
  · rintro ⟨sb, hsb, hnxsb, ⟨hbs0, hbsle⟩, uuid, ⟨_, hs, rfl⟩, _, ⟨_, rfl⟩, _, ⟨_, rfl⟩,
      ⟨hstart0, hlen0⟩, hlenle, ct, hct, kb, hkb, hsyek, hret⟩
    obtain ⟨hlen, rfl⟩ := Image.readAt_eq_ok_iff.mp hsb
    cases hret
    simp only [List.drop_zero, hmagic, huuid, hbs, hpaddr, hblocks]
      at hs hnxsb hbs0 hbsle hstart0 hlen0 hlenle hct hkb ⊢
    have hfactors := Nat.mul_ne_zero_iff.mp hstart0
    have hfactors' := Nat.mul_ne_zero_iff.mp hlen0
    exact ⟨by omega, trivial, by omega, by omega, ⟨uuid, _, _, _, _, ct,
      ⟨hs, hnxsb, rfl, rfl, rfl, hbs0, hsectors, hfactors.1, hfactors'.1⟩,
      (readAt_eq_ok_iff_areaOf keylockerNames hlen0).mp hct, hkb⟩, hsyek, trivial⟩
  · rintro ⟨hlen, rfl, hbsle, hlenle, ⟨uuid, _, _, _, start, ct, ⟨hs, hnxsb, rfl, rfl, rfl, hbs0, _,
      hpaddr0, hblocks0⟩, hct, hkb⟩, hsyek, rfl⟩
    obtain ⟨rfl, hinside, _⟩ := areaOf_eq_ok_iff.mp hct
    have hlt := image.length_lt
    have hmax : u64Max = 2 ^ 64 - 1 := rfl
    have hlen0 := Nat.mul_ne_zero hblocks0 hbs0
    refine ⟨image.bytes.take 4096, Image.readAt_eq_ok_iff.mpr ⟨by omega, rfl⟩, ?_⟩
    simp only [hmagic, huuid, hbs, hpaddr, hblocks]
    exact ⟨hnxsb, ⟨hbs0, by omega⟩, uuid, ⟨_, hs, rfl⟩, _, ⟨by omega, rfl⟩, _, ⟨by omega, rfl⟩,
      ⟨Nat.mul_ne_zero hpaddr0 hbs0, hlen0⟩, by omega, ct,
      (readAt_eq_ok_iff_areaOf keylockerNames hlen0).mpr hct, _, hkb, hsyek, rfl⟩

/-- A round comes to the password exactly if the volume has records, and a keybag of plausible
size that the image holds. -/
theorem probe_eq_keybag_iff {blockSize len : Nat} {containerKb vkb : Bytes} {uuid : Uuid}
    {records : VolumeRecords} :
    probe xts image blockSize containerKb uuid = .ok (.keybag len records vkb) ↔
      volumeRecords containerKb uuid.bytes = .ok records ∧
        records.volumeKeybagBlock * blockSize ≠ 0 ∧ len = records.volumeKeybagBlocks * blockSize ∧
        len ≠ 0 ∧ len ≤ maxKeybagBytes ∧
        ∃ start ct, areaOf volumeKeybagNames image records.volumeKeybagBlock
            records.volumeKeybagBlocks blockSize = .ok (start, ct) ∧
          decryptKeybagArea xts ct uuid (start / keybagSector) = .ok vkb ∧
          getRange vkb 24 28 = some scerBytes := by
  have hlt := image.length_lt
  have hmax : u64Max = 2 ^ 64 - 1 := rfl
  have hcap : maxKeybagBytes = 2 ^ 20 := rfl
  unfold probe
  cases hrecords : volumeRecords containerKb uuid.bytes with
  | error f => simp
  | ok found =>
    simp only [Except.ok.injEq]
    constructor
    · intro h
      split at h
      · cases h
      · rename_i hplausible
        rw [not_or, not_or] at hplausible
        cases hread : image.readAt (saturatingMul found.volumeKeybagBlock blockSize)
            (saturatingMul found.volumeKeybagBlocks blockSize) with
        | error kind => rw [hread] at h; cases h
        | ok vct =>
          rw [hread] at h
          -- a read that succeeds is inside the image, so no product was cut
          obtain ⟨hinside, _⟩ := Image.readAt_eq_ok_iff.mp hread
          have hblock : saturatingMul found.volumeKeybagBlock blockSize
              = found.volumeKeybagBlock * blockSize := by
            unfold saturatingMul at hinside hplausible ⊢
            omega
          have hblocks : saturatingMul found.volumeKeybagBlocks blockSize
              = found.volumeKeybagBlocks * blockSize := by
            unfold saturatingMul at hplausible ⊢
            omega
          rw [hblock, hblocks] at hread hplausible
          simp only [hblock, hblocks, check_bind_eq_ok_iff, checkDecrypt_eq_ok_iff] at h
          obtain ⟨kb, hkb, hret⟩ := h
          split at hret
          · cases hret
          · rename_i hscer
            cases hret
            exact ⟨rfl, hplausible.1, rfl, hplausible.2.1, by omega, _, vct,
              (readAt_eq_ok_iff_areaOf volumeKeybagNames hplausible.2.1).mp hread, hkb,
              not_not.mp hscer⟩
    · rintro ⟨rfl, hstart0, rfl, hlen0, hlenle, start, ct, hct, hkb, hscer⟩
      obtain ⟨rfl, hinside, _⟩ := areaOf_eq_ok_iff.mp hct
      have hread := (readAt_eq_ok_iff_areaOf volumeKeybagNames hlen0).mpr hct
      rw [saturatingMul_of_le (by omega), saturatingMul_of_le (by omega), if_neg (by omega)]
      simp only [hread, check_bind_eq_ok_iff, checkDecrypt_eq_ok_iff]
      exact ⟨vkb, hkb, if_neg (not_not.mpr hscer)⟩

/-- The counters fit together, with `base` bytes read before the loop. -/
structure Tally.Bounded (base : Nat) (t : Tally) : Prop where
  tried_le : t.volumesTried ≤ t.volumesFound
  read_le : t.bytesRead ≤ base + t.volumesFound * maxKeybagBytes

/-- The area that a round has read is no larger than the tool finds plausible. -/
theorem bounded_after_probe {base blockSize : Nat} {containerKb : Bytes} {uuid : Uuid} {p : Probe}
    (h : probe xts image blockSize containerKb uuid = .ok p) {t : Tally} (ht : t.Bounded base) :
    (t.after p).Bounded base := by
  obtain ⟨htried, hread⟩ := ht
  cases p with
  | unnamed => exact ⟨htried, hread⟩
  | unread =>
    constructor
    · exact Nat.le_succ_of_le htried
    · show t.bytesRead ≤ base + (t.volumesFound + 1) * maxKeybagBytes
      rw [Nat.succ_mul]
      omega
  | noise len =>
    have hlen : len ≤ maxKeybagBytes := by
      unfold probe at h
      cases hrecords : volumeRecords containerKb uuid.bytes with
      | error f => rw [hrecords] at h; cases h
      | ok records =>
        simp only [hrecords] at h
        split at h
        · cases h
        · rename_i hplausible
          split at h
          · cases h
          · obtain ⟨vkb, _, hret⟩ := check_bind_eq_ok_iff.mp h
            split at hret
            · cases hret
              omega
            · cases hret
    constructor
    · exact Nat.le_succ_of_le htried
    · show t.bytesRead + len ≤ base + (t.volumesFound + 1) * maxKeybagBytes
      rw [Nat.succ_mul]
      omega
  | keybag len records vkb =>
    obtain ⟨_, _, _, _, hlen, _⟩ := probe_eq_keybag_iff.mp h
    constructor
    · exact Nat.succ_le_succ htried
    · show t.bytesRead + len ≤ base + (t.volumesFound + 1) * maxKeybagBytes
      rw [Nat.succ_mul]
      omega

end Reads

/-! ### The loop -/

/-- No counter is ahead. -/
structure Tally.Le (a b : Tally) : Prop where
  found : a.volumesFound ≤ b.volumesFound
  tried : a.volumesTried ≤ b.volumesTried
  read : a.bytesRead ≤ b.bytesRead

theorem Tally.Le.trans {a b c : Tally} (h : a.Le b) (h' : b.Le c) : a.Le c :=
  ⟨h.found.trans h'.found, h.tried.trans h'.tried, h.read.trans h'.read⟩

theorem Tally.le_after (t : Tally) (p : Probe) : t.Le (t.after p) := by
  cases p with
  | unnamed => exact ⟨le_rfl, le_rfl, le_rfl⟩
  | unread => exact ⟨Nat.le_succ _, le_rfl, le_rfl⟩
  | noise len => exact ⟨Nat.le_succ _, le_rfl, Nat.le_add_right _ _⟩
  | keybag len records vkb => exact ⟨Nat.le_succ _, Nat.le_succ _, Nat.le_add_right _ _⟩

theorem Tally.found_after_le (t : Tally) (p : Probe) :
    (t.after p).volumesFound ≤ t.volumesFound + 1 := by
  cases p with
  | unnamed => exact Nat.le_succ _
  | unread => exact le_rfl
  | noise len => exact le_rfl
  | keybag len records vkb => exact le_rfl

/-- Where a password gets in, it has been tried. -/
theorem tried_lt_of_attempt {crypto : KeyCrypto} {password : String} {p : Probe} {vek : Bytes}
    (h : attempt crypto password p = some vek) (t : Tally) :
    t.volumesTried < (t.after p).volumesTried := by
  cases p with
  | keybag len records vkb => exact Nat.lt_succ_self _
  | unnamed => cases h
  | unread => cases h
  | noise len => cases h

section Loop

variable {xts : Xts} {crypto : KeyCrypto} {sha256 : Bytes → Bytes} {image : Image}
  {password : String} {blockSize : Nat} {containerKb : Bytes}

/-- **One round.** -/
theorem tryVolumes_cons_eq_ok_iff {uuid : Uuid} {rest : List Uuid} {t : Tally} {o : Outcome} :
    tryVolumes xts crypto sha256 image password blockSize containerKb (uuid :: rest) t = .ok o ↔
      ∃ p, probe xts image blockSize containerKb uuid = .ok p ∧
        ((∃ vek, attempt crypto password p = some vek ∧
            o = ⟨t.after p, some (uuid, (sha256 vek).take 8, vek.length)⟩) ∨
          attempt crypto password p = none ∧
            tryVolumes xts crypto sha256 image password blockSize containerKb rest (t.after p)
              = .ok o) := by
  rw [tryVolumes, check_bind_eq_ok_iff]
  refine exists_congr fun p => and_congr_right fun _ => ?_
  cases attempt crypto password p with
  | none => simp
  | some vek => simp [eq_comm]

theorem tryVolumes_unlocked {uuid : Uuid} {fp : Bytes} {len : Nat} : ∀ {uuids : List Uuid}
    {t : Tally} {o : Outcome},
    tryVolumes xts crypto sha256 image password blockSize containerKb uuids t = .ok o →
    o.unlocked = some (uuid, fp, len) → ∃ p vek,
      probe xts image blockSize containerKb uuid = .ok p ∧ attempt crypto password p = some vek ∧
      fp = (sha256 vek).take 8 ∧ len = vek.length := by
  intro uuids
  induction uuids with
  | nil =>
    intro t o h hunlocked
    cases h
    cases hunlocked
  | cons first rest ih =>
    intro t o h hunlocked
    obtain ⟨p, hp, ⟨vek, hvek, rfl⟩ | ⟨_, hrest⟩⟩ := tryVolumes_cons_eq_ok_iff.mp h
    · cases hunlocked
      exact ⟨p, vek, hp, hvek, rfl, rfl⟩
    · exact ih hrest hunlocked

/-- The loop ends with a key exactly if one of the volumes opens. -/
theorem tryVolumes_isSome_iff : ∀ {uuids : List Uuid} {t : Tally},
    (∀ uuid ∈ uuids, ∃ p, probe xts image blockSize containerKb uuid = .ok p) →
    ((∃ o, tryVolumes xts crypto sha256 image password blockSize containerKb uuids t = .ok o ∧
        o.unlocked ≠ none) ↔
      ∃ uuid ∈ uuids, ∃ p vek, probe xts image blockSize containerKb uuid = .ok p ∧
        attempt crypto password p = some vek) := by
  intro uuids
  induction uuids with
  | nil =>
    intro t _
    constructor
    · rintro ⟨o, h, hunlocked⟩
      cases h
      exact absurd rfl hunlocked
    · rintro ⟨uuid, hmem, _⟩
      cases hmem
  | cons first rest ih =>
    intro t hprobe
    obtain ⟨⟨p, hp⟩, hrest⟩ := List.forall_mem_cons.mp hprobe
    have hround : ∀ o, tryVolumes xts crypto sha256 image password blockSize containerKb
        (first :: rest) t = .ok o ↔
          ((∃ vek, attempt crypto password p = some vek ∧
              o = ⟨t.after p, some (first, (sha256 vek).take 8, vek.length)⟩) ∨
            attempt crypto password p = none ∧ tryVolumes xts crypto sha256 image password
              blockSize containerKb rest (t.after p) = .ok o) := by
      intro o
      rw [tryVolumes_cons_eq_ok_iff, hp]
      simp
    simp only [hround, List.exists_mem_cons_iff, hp, Except.ok.injEq]
    cases hattempt : attempt crypto password p with
    | some vek =>
      constructor
      · intro _
        exact .inl ⟨p, vek, rfl, hattempt⟩
      · intro _
        exact ⟨_, .inl ⟨vek, rfl, rfl⟩, nofun⟩
    | none =>
      rw [← ih hrest]
      constructor
      · rintro ⟨o, ⟨_, hvek, _⟩ | ⟨_, h⟩, hunlocked⟩
        · cases hvek
        · exact .inr ⟨o, h, hunlocked⟩
      · rintro (⟨q, vek, rfl, hvek⟩ | ⟨o, h, hunlocked⟩)
        · rw [hattempt] at hvek
          cases hvek
        · exact ⟨o, .inr ⟨rfl, h⟩, hunlocked⟩

/-- The counters over the whole loop. -/
theorem tryVolumes_bounded {base : Nat} : ∀ {uuids : List Uuid} {t : Tally} {o : Outcome},
    tryVolumes xts crypto sha256 image password blockSize containerKb uuids t = .ok o →
    t.Bounded base →
    o.tally.Bounded base ∧ o.tally.volumesFound ≤ t.volumesFound + uuids.length := by
  intro uuids
  induction uuids with
  | nil =>
    intro t o h ht
    cases h
    exact ⟨ht, Nat.le_add_right _ _⟩
  | cons first rest ih =>
    intro t o h ht
    obtain ⟨p, hp, hend⟩ := tryVolumes_cons_eq_ok_iff.mp h
    have hbounded := bounded_after_probe hp ht
    have hfound := t.found_after_le p
    rw [List.length_cons]
    rcases hend with ⟨vek, _, rfl⟩ | ⟨_, hrest⟩
    · refine ⟨hbounded, ?_⟩
      show (t.after p).volumesFound ≤ _
      omega
    · obtain ⟨ho, hle⟩ := ih hrest hbounded
      exact ⟨ho, by omega⟩

theorem tryVolumes_le : ∀ {uuids : List Uuid} {t : Tally} {o : Outcome},
    tryVolumes xts crypto sha256 image password blockSize containerKb uuids t = .ok o →
    t.Le o.tally := by
  intro uuids
  induction uuids with
  | nil =>
    intro t o h
    cases h
    exact ⟨le_rfl, le_rfl, le_rfl⟩
  | cons first rest ih =>
    intro t o h
    obtain ⟨p, _, ⟨_, _, rfl⟩ | ⟨_, hrest⟩⟩ := tryVolumes_cons_eq_ok_iff.mp h
    · exact t.le_after p
    · exact (t.le_after p).trans (ih hrest)

theorem attempt_keybag_eq_some_iff {len : Nat} {records : VolumeRecords}
    {vkb vek : Bytes} : attempt crypto password (.keybag len records vkb) = some vek ↔
      unlockWithVolumeKeybag crypto vkb records password = .ok vek := by
  show (unlockWithVolumeKeybag crypto vkb records password).toOption = some vek ↔ _
  cases unlockWithVolumeKeybag crypto vkb records password <;> simp [Except.toOption]

/-- The volume that tells a password from another one.  The round comes to the keybag of the
volume; the first password is refused there, the other one recovers the key. -/
def TellsApart (xts : Xts) (crypto : KeyCrypto) (image : Image) (blockSize : Nat)
    (containerKb : Bytes) (password other : String) (uuid : Uuid) (vek : Bytes) : Prop :=
  ∃ len records vkb, probe xts image blockSize containerKb uuid = .ok (.keybag len records vkb) ∧
    (∀ key, unlockWithVolumeKeybag crypto vkb records password ≠ .ok key) ∧
    unlockWithVolumeKeybag crypto vkb records other = .ok vek

theorem TellsApart.of_attempt {other : String} {uuid : Uuid} {p : Probe} {vek : Bytes}
    (hp : probe xts image blockSize containerKb uuid = .ok p)
    (hrefused : attempt crypto password p = none) (hother : attempt crypto other p = some vek) :
    TellsApart xts crypto image blockSize containerKb password other uuid vek := by
  cases p with
  | keybag len records vkb =>
    refine ⟨len, records, vkb, hp, fun key hkey => ?_, attempt_keybag_eq_some_iff.mp hother⟩
    rw [attempt_keybag_eq_some_iff.mpr hkey] at hrefused
    cases hrefused
  | unnamed => cases hother
  | unread => cases hother
  | noise len => cases hother

/-- After a refusal, any other password is refused with the same counters, or it gets in at a
volume that tells the two apart. -/
theorem tryVolumes_refused (other : String) : ∀ {uuids : List Uuid} {t : Tally} {o : Outcome},
    tryVolumes xts crypto sha256 image password blockSize containerKb uuids t = .ok o →
    o.unlocked = none →
    tryVolumes xts crypto sha256 image other blockSize containerKb uuids t = .ok o ∨
      ∃ uuid ∈ uuids, ∃ vek tally,
        TellsApart xts crypto image blockSize containerKb password other uuid vek ∧
        tryVolumes xts crypto sha256 image other blockSize containerKb uuids t
          = .ok ⟨tally, some (uuid, (sha256 vek).take 8, vek.length)⟩ ∧
        t.volumesTried < tally.volumesTried ∧ tally.Le o.tally := by
  intro uuids
  induction uuids with
  | nil =>
    intro t o h _
    exact .inl h
  | cons first rest ih =>
    intro t o h hrefused
    obtain ⟨p, hp, ⟨vek, _, rfl⟩ | ⟨hnone, hrest⟩⟩ := tryVolumes_cons_eq_ok_iff.mp h
    · cases hrefused
    · cases hother : attempt crypto other p with
      | some vek =>
        refine .inr ⟨first, List.mem_cons_self, vek, t.after p, .of_attempt hp hnone hother,
          tryVolumes_cons_eq_ok_iff.mpr ⟨p, hp, .inl ⟨vek, hother, rfl⟩⟩, ?_, ?_⟩
        · exact tried_lt_of_attempt hother t
        · exact tryVolumes_le hrest
      | none =>
        obtain hsame | ⟨uuid, hmem, vek, tally, happart, h', htried, hle⟩ := ih hrest hrefused
        · exact .inl (tryVolumes_cons_eq_ok_iff.mpr ⟨p, hp, .inr ⟨hother, hsame⟩⟩)
        · exact .inr ⟨uuid, List.mem_cons_of_mem _ hmem, vek, tally, happart,
            tryVolumes_cons_eq_ok_iff.mpr ⟨p, hp, .inr ⟨hother, h'⟩⟩,
            lt_of_le_of_lt (t.le_after p).tried htried, hle⟩

end Loop

/-! ### The tool and the library -/

/-- What the tool asks of the keybag of a volume beyond what `unlock_volume` asks: a plausible
size, a place behind block zero, and its type. -/
structure PlausibleVolume (xts : Xts) (image : Image) (uuid : Uuid) (records : VolumeRecords) :
    Prop where
  block_ne : records.volumeKeybagBlock ≠ 0
  blocks_ne : records.volumeKeybagBlocks ≠ 0
  length_le : records.volumeKeybagBlocks * leU32 image.bytes nxBlockSizeOff ≤ maxKeybagBytes
  type_eq : ∀ start ct volumeKb, areaOf volumeKeybagNames image records.volumeKeybagBlock
      records.volumeKeybagBlocks (leU32 image.bytes nxBlockSizeOff) = .ok (start, ct) →
    decryptKeybagArea xts ct uuid (start / keybagSector) = .ok volumeKb →
    getRange volumeKb 24 28 = some scerBytes

/-- And what it asks in all: of the image a superblock of 4096 bytes, of the keybag of the
container a plausible size and its type, of the volume a uuid that is not zero. -/
structure Recognised (xts : Xts) (image : Image) (uuid : Uuid) (keybag : Bytes)
    (records : VolumeRecords) : Prop where
  superblock : 4096 ≤ image.bytes.length
  blockSize_le : leU32 image.bytes nxBlockSizeOff ≤ maxKeybagBytes
  keybag_le : leU64 image.bytes nxKeybagBlocksOff * leU32 image.bytes nxBlockSizeOff
    ≤ maxKeybagBytes
  keybag_type : getRange keybag 24 28 = some syekBytes
  uuid_ne : uuid.isZero = false
  volume : PlausibleVolume xts image uuid records

section Tool

variable {xts : Xts} {crypto : KeyCrypto} {sha256 : Bytes → Bytes} {image : Image}

/-- The cipher returns on whole sectors. -/
def Xts.ReturnsOnSectors (xts : Xts) : Prop :=
  ∀ (uuid : Uuid) (ct : Bytes) (first : Nat), keybagSector ∣ ct.length →
    ∃ keybag, decryptKeybagArea xts ct uuid first = .ok keybag

theorem noPanic_areaOf (names : ExtentNames) (paddr blocks blockSize : Nat) :
    NoPanic (areaOf names image paddr blocks blockSize) :=
  (noPanic_okOrElse _ _).bind fun _ => (noPanic_okOrElse _ _).bind fun _ =>
    (noPanic_okOrElse _ _).bind fun _ => (noPanic_okOrElse _ _).bind fun _ => ok _

/-- An area of whole blocks is decrypted without a panic. -/
theorem noPanic_decryptKeybagArea (hxts : xts.ReturnsOnSectors) {names : ExtentNames}
    {paddr blocks blockSize start : Nat} {ct : Bytes} (hsectors : keybagSector ∣ blockSize)
    (harea : areaOf names image paddr blocks blockSize = .ok (start, ct)) (uuid : Uuid)
    (first : Nat) : NoPanic (decryptKeybagArea xts ct uuid first) := by
  obtain ⟨rfl, hinside, rfl⟩ := areaOf_eq_ok_iff.mp harea
  have hdvd : keybagSector ∣ ((image.bytes.drop (paddr * blockSize)).take
      (blocks * blockSize)).length := by
    rw [List.length_take, List.length_drop, Nat.min_eq_left (by omega)]
    exact Dvd.dvd.mul_left hsectors blocks
  obtain ⟨keybag, hkeybag⟩ := hxts uuid _ first hdvd
  rw [hkeybag]
  exact ok keybag

theorem noPanic_decryptContainerKeybag (hxts : xts.ReturnsOnSectors) (image : Image) :
    NoPanic (decryptContainerKeybag xts image) := by
  unfold decryptContainerKeybag
  cases (getRange image.bytes nxContainerUuidOff (nxContainerUuidOff + 16)).bind Uuid.tryFrom with
  | none => exact err _
  | some uuid =>
    dsimp only
    unfold decryptContainerKeybagWithUuid
    by_cases hmagic : getRange image.bytes 32 36 ≠ some nxsbBytes
    · rw [if_pos hmagic]
      exact err _
    by_cases hsize : leU32 image.bytes nxBlockSizeOff = 0 ∨
        leU32 image.bytes nxBlockSizeOff % keybagSector ≠ 0
    · rw [if_neg hmagic, if_pos hsize]
      exact err _
    · rw [if_neg hmagic, if_neg hsize]
      have hsectors : keybagSector ∣ leU32 image.bytes nxBlockSizeOff :=
        Nat.dvd_of_mod_eq_zero (not_not.mp (not_or.mp hsize).2)
      refine ite (err _) ((noPanic_areaOf _ _ _ _).bind_ok fun area harea => ?_)
      exact noPanic_decryptKeybagArea hxts hsectors harea uuid _

/-- **Unlocking never panics**, whatever the image, the volume and the password.  The cipher may
panic on a part of a sector, but it is never given one: the block size is checked before the
keybag of the container is decrypted, and the keybag of the volume has the same blocks. -/
theorem unlock_volume_never_panics (hxts : xts.ReturnsOnSectors) (crypto : KeyCrypto)
    (image : Image) (uuid : Uuid) (password : String) :
    NoPanic (unlockVolume xts crypto image uuid password) := by
  unfold unlockVolume
  refine (noPanic_decryptContainerKeybag hxts image).bind_ok fun keybag hkeybag => ?_
  obtain ⟨_, _, _, _, _, _, hlocker, _, _⟩ := decryptContainerKeybag_eq_ok_iff.mp hkeybag
  have hsectors : keybagSector ∣ leU32 image.bytes nxBlockSizeOff :=
    hlocker.blockSize_eq ▸ hlocker.sectors
  refine (noPanic_volumeRecords keybag uuid.bytes).bind fun records => ?_
  refine (noPanic_areaOf _ _ _ _).bind_ok fun area harea => ?_
  exact (noPanic_decryptKeybagArea hxts hsectors harea uuid _).bind fun volumeKb =>
    noPanic_unlockWithVolumeKeybag crypto volumeKb records password

theorem exists_probe (hxts : xts.ReturnsOnSectors) {blockSize : Nat}
    (hsectors : keybagSector ∣ blockSize) (containerKb : Bytes) (uuid : Uuid) :
    ∃ p, probe xts image blockSize containerKb uuid = .ok p := by
  have hcap : maxKeybagBytes < u64Max := by decide
  unfold probe
  cases volumeRecords containerKb uuid.bytes with
  | error f => exact ⟨_, rfl⟩
  | ok records =>
    dsimp only
    split
    · exact ⟨_, rfl⟩
    · rename_i hplausible
      have hlen : saturatingMul records.volumeKeybagBlocks blockSize
          = records.volumeKeybagBlocks * blockSize := by
        unfold saturatingMul at hplausible ⊢
        omega
      cases hread : image.readAt (saturatingMul records.volumeKeybagBlock blockSize)
          (saturatingMul records.volumeKeybagBlocks blockSize) with
      | error kind => exact ⟨_, rfl⟩
      | ok vct =>
        have hdvd : keybagSector ∣ vct.length := by
          have hread' := Image.readExact_eq_ok_iff.mpr (Image.readAt_eq_ok_iff.mp hread)
          rw [Image.length_of_readExact hread', hlen]
          exact Dvd.dvd.mul_left hsectors _
        obtain ⟨vkb, hvkb⟩ := hxts uuid vct
          (saturatingMul records.volumeKeybagBlock blockSize / keybagSector) hdvd
        have hdecrypt := checkDecrypt_eq_ok_iff.mpr hvkb
        by_cases hscer : getRange vkb 24 28 ≠ some scerBytes
        · exact ⟨_, check_bind_eq_ok_iff.mpr ⟨vkb, hdecrypt, if_pos hscer⟩⟩
        · exact ⟨_, check_bind_eq_ok_iff.mpr ⟨vkb, hdecrypt, if_neg hscer⟩⟩

/-- A password gets in at a round exactly if `unlock_volume` takes it for that volume and the
tool recognises the volume. -/
theorem attempt_iff_unlockVolume {keybag : Bytes} {uuid : Uuid} {password : String} {vek : Bytes}
    (hkeybag : decryptContainerKeybag xts image = .ok keybag) :
    (∃ p, probe xts image (leU32 image.bytes nxBlockSizeOff) keybag uuid = .ok p ∧
        attempt crypto password p = some vek) ↔
      unlockVolume xts crypto image uuid password = .ok vek ∧
        ∃ records, volumeRecords keybag uuid.bytes = .ok records ∧
          PlausibleVolume xts image uuid records := by
  constructor
  · rintro ⟨p, hp, hattempt⟩
    cases p with
    | keybag len records vkb =>
      obtain ⟨hrecords, hstart0, rfl, hlen0, hlenle, start, ct, hct, hvkb, hscer⟩ :=
        probe_eq_keybag_iff.mp hp
      have hvek := attempt_keybag_eq_some_iff.mp hattempt
      refine ⟨(unlockVolume_eq hkeybag hrecords hct hvkb).trans hvek, records, hrecords,
        (Nat.mul_ne_zero_iff.mp hstart0).1, (Nat.mul_ne_zero_iff.mp hlen0).1, hlenle, ?_⟩
      intro start' ct' volumeKb hct' hvkb'
      cases hct.symm.trans hct'
      cases hvkb.symm.trans hvkb'
      exact hscer
    | unnamed => cases hattempt
    | unread => cases hattempt
    | noise len => cases hattempt
  · rintro ⟨hunlock, records, hrecords, hvolume⟩
    obtain ⟨_, _, _, _, _, _, hlocker, _, _⟩ := decryptContainerKeybag_eq_ok_iff.mp hkeybag
    have hbs0 : leU32 image.bytes nxBlockSizeOff ≠ 0 := hlocker.blockSize_eq ▸ hlocker.blockSize_ne
    simp only [unlockVolume, hkeybag, hrecords, ok_bind, bind_eq_ok_iff, Prod.exists] at hunlock
    obtain ⟨start, ct, hct, vkb, hvkb, hvek⟩ := hunlock
    exact ⟨.keybag _ records vkb, probe_eq_keybag_iff.mpr ⟨hrecords,
      Nat.mul_ne_zero hvolume.block_ne hbs0, rfl, Nat.mul_ne_zero hvolume.blocks_ne hbs0,
      hvolume.length_le, start, ct, hct, hvkb, hvolume.type_eq start ct vkb hct hvkb⟩,
      attempt_keybag_eq_some_iff.mpr hvek⟩

/-- **Ranged reads are enough.**  On a container whose block size is a multiple of the sector, a
key that the tool reports is the one `unlock_volume` recovers from the whole image, for that
volume and that password.  And the tool reports a key exactly if `unlock_volume` recovers one
for a volume that the tool recognises. -/
theorem unlock_check_agrees (hxts : xts.ReturnsOnSectors)
    (hsectors : keybagSector ∣ leU32 image.bytes nxBlockSizeOff) (password : String) :
    (∀ o uuid fp len, unlockCheck xts crypto sha256 image password = .ok o →
      o.unlocked = some (uuid, fp, len) →
      ∃ vek, unlockVolume xts crypto image uuid password = .ok vek ∧
        fp = (sha256 vek).take 8 ∧ len = vek.length) ∧
    ((∃ o, unlockCheck xts crypto sha256 image password = .ok o ∧ o.unlocked ≠ none) ↔
      ∃ uuid vek keybag records, unlockVolume xts crypto image uuid password = .ok vek ∧
        decryptContainerKeybag xts image = .ok keybag ∧
        volumeRecords keybag uuid.bytes = .ok records ∧
        Recognised xts image uuid keybag records) := by
  constructor
  · intro o uuid fp len h hunlocked
    obtain ⟨⟨blockSize, keybag, bytesRead⟩, hopen, hloop⟩ := check_bind_eq_ok_iff.mp h
    obtain ⟨_, rfl, _, _, hkeybag, _, _⟩ := (openKeybag_eq_ok_iff hsectors).mp hopen
    obtain ⟨p, vek, hp, hvek, hfp, hlen⟩ := tryVolumes_unlocked hloop hunlocked
    exact ⟨vek, ((attempt_iff_unlockVolume hkeybag).mp ⟨p, hp, hvek⟩).1, hfp, hlen⟩
  · constructor
    · rintro ⟨o, h, hunlocked⟩
      obtain ⟨⟨blockSize, keybag, bytesRead⟩, hopen, hloop⟩ := check_bind_eq_ok_iff.mp h
      obtain ⟨hlen, rfl, hbsle, hkble, hkeybag, hsyek, _⟩ :=
        (openKeybag_eq_ok_iff hsectors).mp hopen
      obtain ⟨uuid, hmem, p, vek, hp, hvek⟩ :=
        (tryVolumes_isSome_iff fun uuid _ => exists_probe hxts hsectors keybag uuid).mp
          ⟨o, hloop, hunlocked⟩
      obtain ⟨hunlock, records, hrecords, hvolume⟩ :=
        (attempt_iff_unlockVolume hkeybag).mp ⟨p, hp, hvek⟩
      exact ⟨uuid, vek, keybag, records, hunlock, hkeybag, hrecords,
        ⟨hlen, hbsle, hkble, hsyek, (mem_keybagUuids.mp hmem).1, hvolume⟩⟩
    · rintro ⟨uuid, vek, keybag, records, hunlock, hkeybag, hrecords, hrec⟩
      have hopen : openKeybag xts image = .ok (_, keybag, _) :=
        (openKeybag_eq_ok_iff hsectors).mpr ⟨hrec.superblock, rfl, hrec.blockSize_le,
          hrec.keybag_le, hkeybag, hrec.keybag_type, rfl⟩
      obtain ⟨p, hp, hvek⟩ :=
        (attempt_iff_unlockVolume hkeybag).mpr ⟨hunlock, records, hrecords, hrec.volume⟩
      have hmem : uuid ∈ keybagUuids keybag :=
        mem_keybagUuids.mpr ⟨hrec.uuid_ne, exists_entry_of_volumeRecords hrecords⟩
      obtain ⟨o, hloop, hunlocked⟩ :=
        (tryVolumes_isSome_iff fun uuid _ => exists_probe hxts hsectors keybag uuid).mpr
          ⟨uuid, hmem, p, vek, hp, hvek⟩
      exact ⟨o, check_bind_eq_ok_iff.mpr ⟨_, hopen, hloop⟩, hunlocked⟩

/-- **What a refusal says.**  Where the tool recovers no key, any other password gives the same
outcome with the same counters, or gets in at a volume of the keybag that tells the two apart:
the tool comes to the keybag of that volume, where the first password is refused and the other
recovers the key that is reported.  So where no volume was tried, no password gets in. -/
theorem unlock_check_verdict {password : String} {o : Outcome}
    (h : unlockCheck xts crypto sha256 image password = .ok o) (hrefused : o.unlocked = none)
    (other : String) :
    (unlockCheck xts crypto sha256 image other = .ok o ∨
      ∃ blockSize keybag bytesRead, openKeybag xts image = .ok (blockSize, keybag, bytesRead) ∧
        ∃ uuid ∈ keybagUuids keybag, ∃ vek tally,
          TellsApart xts crypto image blockSize keybag password other uuid vek ∧
          unlockCheck xts crypto sha256 image other
            = .ok ⟨tally, some (uuid, (sha256 vek).take 8, vek.length)⟩ ∧
          0 < tally.volumesTried ∧ tally.Le o.tally) ∧
    (o.tally.volumesTried = 0 → unlockCheck xts crypto sha256 image other = .ok o) := by
  obtain ⟨⟨blockSize, keybag, bytesRead⟩, hopen, hloop⟩ := check_bind_eq_ok_iff.mp h
  have hrun : ∀ {out}, tryVolumes xts crypto sha256 image other blockSize keybag
      (keybagUuids keybag) ⟨0, 0, bytesRead⟩ = .ok out →
      unlockCheck xts crypto sha256 image other = .ok out :=
    fun hother => check_bind_eq_ok_iff.mpr ⟨_, hopen, hother⟩
  obtain hsame | ⟨uuid, hmem, vek, tally, happart, hother, htried, hle⟩ :=
    tryVolumes_refused other hloop hrefused
  · exact ⟨.inl (hrun hsame), fun _ => hrun hsame⟩
  · refine ⟨.inr ⟨blockSize, keybag, bytesRead, hopen, uuid, hmem, vek, tally, happart,
      hrun hother, htried, hle⟩, fun hzero => ?_⟩
    have := hle.tried
    omega

theorem openKeybag_read_le {blockSize bytesRead : Nat} {keybag : Bytes}
    (h : openKeybag xts image = .ok (blockSize, keybag, bytesRead)) :
    bytesRead ≤ 4096 + maxKeybagBytes := by
  simp only [openKeybag, check_bind_eq_ok_iff, check_ite_error_eq_ok_iff, checkOr_eq_ok_iff] at h
  obtain ⟨_, _, _, _, _, _, _, _, len, _, _, hle, _, _, _, _, _, hret⟩ := h
  cases hret
  omega

/-- **The image is never loaded.**  A run that comes to an outcome, whatever the image and the
password, has tried no more volumes than it found and found no more than a keybag may have
entries; and it has read the superblock, and for the container and for each volume at most one
area of plausible size. -/
theorem unlock_check_reads_little {password : String} {o : Outcome}
    (h : unlockCheck xts crypto sha256 image password = .ok o) :
    o.tally.volumesTried ≤ o.tally.volumesFound ∧ o.tally.volumesFound ≤ maxKeybagEntries ∧
      o.tally.bytesRead ≤ 4096 + (1 + o.tally.volumesFound) * maxKeybagBytes := by
  obtain ⟨⟨blockSize, keybag, bytesRead⟩, hopen, hloop⟩ := check_bind_eq_ok_iff.mp h
  have hbase := openKeybag_read_le hopen
  have hcount := length_keybagUuids keybag
  have hstart : Tally.Bounded bytesRead ⟨0, 0, bytesRead⟩ := ⟨le_rfl, Nat.le_add_right _ _⟩
  obtain ⟨⟨htried, hread⟩, hfound⟩ := tryVolumes_bounded hloop hstart
  refine ⟨htried, ?_, ?_⟩
  · show o.tally.volumesFound ≤ maxKeybagEntries
    have hzero : (⟨0, 0, bytesRead⟩ : Tally).volumesFound = 0 := rfl
    omega
  · rw [Nat.add_mul]
    omega

end Tool

/-! ### The tool on the small container -/

theorem shift_returnsOnSectors : Xts.shift.ReturnsOnSectors :=
  fun _ _ _ hdvd => ⟨_, if_pos hdvd⟩

/-- A password that is refused is refused with an error. -/
theorem unlock_volume_never_panics_box :
    Xts.shift.ReturnsOnSectors ∧
      NoPanic (unlockVolume .shift headCrypto boxImage boxVolumeUuid "b") :=
  ⟨shift_returnsOnSectors,
    unlock_volume_never_panics shift_returnsOnSectors headCrypto boxImage boxVolumeUuid "b"⟩

def boxOutcome (unlocked : Option (Uuid × Bytes × Nat)) : Outcome := ⟨⟨1, 1, 5120⟩, unlocked⟩

theorem unlockCheck_box_a : unlockCheck .shift headCrypto id boxImage "a"
    = .ok (boxOutcome (some (boxVolumeUuid, List.replicate 8 9, 32))) := by
  decide +kernel

theorem unlockCheck_box_b : unlockCheck .shift headCrypto id boxImage "b"
    = .ok (boxOutcome none) := by
  decide +kernel

theorem unlock_check_agrees_box : (∃ vek,
    unlockVolume .shift headCrypto boxImage boxVolumeUuid "a" = .ok vek ∧
      List.replicate 8 9 = (id vek).take 8 ∧ 32 = vek.length) ∧
    ¬ ∃ uuid vek keybag records, unlockVolume .shift headCrypto boxImage uuid "b" = .ok vek ∧
      decryptContainerKeybag .shift boxImage = .ok keybag ∧
      volumeRecords keybag uuid.bytes = .ok records ∧
      Recognised .shift boxImage uuid keybag records := by
  have hsectors : keybagSector ∣ leU32 boxImage.bytes nxBlockSizeOff := by decide +kernel
  constructor
  · exact (unlock_check_agrees shift_returnsOnSectors hsectors "a").1 _ _ _ _ unlockCheck_box_a rfl
  · rw [← (@unlock_check_agrees _ headCrypto id _ shift_returnsOnSectors hsectors "b").2,
      unlockCheck_box_b]
    rintro ⟨_, ⟨⟩, hunlocked⟩
    exact hunlocked rfl

/-- The one volume of the container tells "b" from "a". -/
theorem unlock_check_verdict_box : ∃ blockSize keybag vek,
    TellsApart .shift headCrypto boxImage blockSize keybag "b" "a" boxVolumeUuid vek ∧
      boxVolumeUuid ∈ keybagUuids keybag ∧ List.replicate 8 9 = vek.take 8 ∧ 32 = vek.length := by
  obtain hsame | ⟨blockSize, keybag, _, _, uuid, hmem, vek, tally, happart, hother, _⟩ :=
    (unlock_check_verdict unlockCheck_box_b rfl "a").1
  · rw [unlockCheck_box_a] at hsame
    cases hsame
  · have hout := Except.ok.inj (unlockCheck_box_a.symm.trans hother)
    simp only [boxOutcome, Outcome.mk.injEq, Option.some.injEq, Prod.mk.injEq] at hout
    obtain ⟨_, rfl, hfingerprint, hlen⟩ := hout
    exact ⟨blockSize, keybag, vek, happart, hmem, hfingerprint, hlen⟩

theorem unlock_check_reads_little_box :
    (boxOutcome none).tally.bytesRead ≤ 4096 + (1 + 1) * maxKeybagBytes :=
  (unlock_check_reads_little unlockCheck_box_b).2.2

end ApfsForensic
