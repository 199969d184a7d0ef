import ApfsForensic.Core.Unlock
import ApfsForensic.Core.Written

/-!
# From the password to the file

`unlock_volume` recovers the key of a volume, `set_vek` gives it to the volume, and `open_path`
and `read_data` read through it.  The superblocks and object maps of an encrypted volume are in
clear; the nodes of its file-system tree and its files are encrypted.

`unlocked_volume_reads_back` is the whole chain, for an image that was sealed and written.  It
also says what becomes of a volume without its key: the root of the tree does not pass its
checksum, and every path and every read ends there.
-/

namespace ApfsForensic

open Walk Fragment

/-! ### Without the key -/

/-- A block that does not pass its checksum. -/
def checksumFault (paddr : Nat) (stored : Bytes) : Fault :=
  .err (.checksumMismatch (headerOidOr stored paddr) (fletcher64Stored stored)
    (fletcher64Checksum stored))

section Locked

variable {xts : Xts} {image : Image} {volume : ApfsVolume} {blockSize : Nat}
  {es : List OmapEntry} {e : OmapEntry} {stored : Bytes}

/-- Every walk of the tree ends at its root. -/
theorem fsRecords_locked (w : WrittenOmap image blockSize volume.omapOid es)
    (hvek : volume.vek = none) (he : e.Current es volume.rootTreeOid volume.xid)
    (hstored : image.blockInside blockSize e.paddr = some stored) (hbroken : ¬ Verifies stored)
    (target : Option Nat) :
    fsRecords xts image volume blockSize target = .error (checksumFault e.paddr stored) := by
  have hplain : decryptNode xts none blockSize e stored = .ok stored := by
    unfold decryptNode
    split <;> rfl
  have hsum : verifyChecksum stored (headerOidOr stored e.paddr)
      = .error (checksumFault e.paddr stored) := if_pos hbroken
  have hread : readVirtualNode xts image w.omap none volume.xid blockSize volume.rootTreeOid
      = .error (checksumFault e.paddr stored) := by
    rw [readVirtualNode, w.resolve he, ok_bind, readBlock_of_blockInside hstored, ok_bind, hplain,
      ok_bind, hsum, error_bind]
  rw [fsRecords, walkFsTree, w.readObjectMap, ok_bind, hvek, maxFstreeDepth, descendVirtual,
    if_neg List.not_mem_nil, hread]
  rfl

variable {f : Fault}

theorem openPath_of_fsRecords (h : ∀ target, fsRecords xts image volume blockSize target = .error f)
    (path : String) : openPath xts image volume blockSize (pathComponents path) = .error f := by
  have hload : ∀ oid, loadInode xts image volume blockSize oid = .error f := by
    intro oid
    rw [loadInode_eq, h, error_bind]
  have hlookup : ∀ dir name, lookupChild xts image volume blockSize dir name = .error f := by
    intro dir name
    rw [lookupChild_eq, listDir_eq, h]
    rfl
  rw [openPath_eq]
  cases pathNames path with
  | nil => exact hload rootDirInoNum
  | cons name names => rw [followAll_cons, followOne, hlookup, error_bind, error_bind]

theorem readData_of_fsRecords (h : ∀ target, fsRecords xts image volume blockSize target = .error f)
    (codecs : Codecs) (inode : Inode) :
    readData codecs xts image volume blockSize inode = .error f := by
  have hxattrs : listXattrs xts image volume blockSize inode.oid = .error f := by
    rw [listXattrs, forEachFsRecordForOid, walkFsTree_eq, h]
    rfl
  rw [readData, decmpfsHeader, getXattr, hxattrs, error_bind, error_bind, error_bind]

end Locked

/-- **From the password to the file.**  An image holds the key of a volume under a password, and
the volume was written with its tree and its files encrypted under that key.  Then
`unlock_volume` returns the key, and through it a path opens exactly if its names lead to an inode
in the contents, and to that inode.  A file without a compression attribute, of at most
`MAX_FILE_BYTES`, reads as its fragments.  On the same volume without the key, if the encrypted
root does not pass its checksum, every path and every read is refused with the mismatch. -/
theorem unlocked_volume_reads_back (codecs : Codecs) {xts : Xts} {crypto : KeyCrypto}
    {image : Image} {uuid : Uuid} {password : String} {key : Vek} {volume : ApfsVolume}
    {blockSize : Nat} {c : Contents} (hvek : volume.vek = none)
    (sealedKey : SealedVolume xts crypto image uuid password key.bytes)
    (written : WrittenVolume xts image (volume.setVek key) blockSize c) :
    unlockVolume xts crypto image uuid password = .ok key.bytes ∧
    (∀ path inode,
      openPath xts image (volume.setVek key) blockSize (pathComponents path) = .ok inode ↔
        ∃ oid, Follows c.graph rootDirInoNum (pathNames path) oid ∧ c.inode oid = some inode) ∧
    (∀ names oid inode frags, HasFile xts image (some key) blockSize c names oid inode frags →
      readData codecs xts image (volume.setVek key) blockSize inode
        = .ok (fillTo (inode.size.getD 0) (frags.flatMap Fragment.content))) ∧
    ∀ e stored, OmapEntry.Current e written.entries volume.rootTreeOid volume.xid →
      image.blockInside blockSize e.paddr = some stored → ¬ Verifies stored →
      (∀ path, openPath xts image volume blockSize (pathComponents path)
        = .error (checksumFault e.paddr stored)) ∧
      ∀ inode, readData codecs xts image volume blockSize inode
        = .error (checksumFault e.paddr stored) := by
  have hc := written.holds
  refine ⟨sealedKey.unlocks_self, fun path inode => hc.openPath_eq_ok_iff,
    fun names oid inode frags hfile => ?_, fun e stored he hstored hbroken => ?_⟩
  · rw [← volume.setVek_vek key] at hfile
    exact (hfile.readData hc codecs).2
  · have hlocked : ∀ target, fsRecords xts image volume blockSize target = .error _ :=
      fsRecords_locked written.omap hvek he hstored hbroken
    exact ⟨openPath_of_fsRecords hlocked, readData_of_fsRecords hlocked codecs⟩

/-! ### The small container with a volume in it

Five blocks behind the keybags: the header and the leaf of an object map in clear, then a root
leaf and the two blocks of a file under the key that user `a` unlocks. -/

section Extend

variable {xts : Xts} {image image' : Image} {uuid : Uuid} {blockSize paddr blocks : Nat}

theorem Keylocker.extend (hstart : image.bytes <+: image'.bytes)
    (hlen : nxKeybagBlocksOff + 8 ≤ image.bytes.length)
    (h : Keylocker image uuid blockSize paddr blocks) :
    Keylocker image' uuid blockSize paddr blocks := by
  have hlen : 1312 ≤ image.bytes.length := hlen
  have htake := List.prefix_iff_eq_take.mp hstart
  obtain ⟨huuid, hmagic, hsize, hpaddr, hblocks, hsize0, hsectors, hpaddr0, hblocks0⟩ := h
  rw [htake, getRange_take (by unfold nxContainerUuidOff; omega)] at huuid
  rw [htake, getRange_take (by omega)] at hmagic
  rw [htake, leU32, leUInt_take (by unfold nxBlockSizeOff; omega)] at hsize
  rw [htake, leU64, leUInt_take (by unfold nxKeybagBlockOff; omega)] at hpaddr
  rw [htake, leU64, leUInt_take (by unfold nxKeybagBlocksOff; omega)] at hblocks
  exact ⟨huuid, hmagic, hsize, hpaddr, hblocks, hsize0, hsectors, hpaddr0, hblocks0⟩

def KeybagAt.extend {keybag : Bytes} (hstart : image.bytes <+: image'.bytes)
    (h : KeybagAt xts image uuid blockSize paddr blocks keybag) :
    KeybagAt xts image' uuid blockSize paddr blocks keybag where
  cipher := h.cipher
  sectors := h.sectors
  length_eq := h.length_eq
  inside := h.inside.trans hstart.length_le
  stands := h.stands.trans (hstart.drop _)

/-- What stands behind the keybags does not matter. -/
def SealedVolume.extend {crypto : KeyCrypto} {password : String} {vek : Bytes}
    (hstart : image.bytes <+: image'.bytes) (hlen : nxKeybagBlocksOff + 8 ≤ image.bytes.length)
    (v : SealedVolume xts crypto image uuid password vek) :
    SealedVolume xts crypto image' uuid password vek where
  containerUuid := v.containerUuid
  blockSize := v.blockSize
  paddr := v.paddr
  blocks := v.blocks
  keylocker := v.keylocker.extend hstart hlen
  container := v.container
  containerAt := v.containerAt.extend hstart
  wellFormed := v.wellFormed
  records := v.records
  wrappedVek := v.wrappedVek
  extent := v.extent
  volume := v.volume
  volumeAt := v.volumeAt.extend hstart
  object := v.object
  kek := v.kek
  opens := v.opens

end Extend

def lockerKey : Vek := ⟨List.replicate 32 9, List.length_replicate⟩

def lockerContents : Contents :=
  [.inode topInode, .drec { letterEntry with parent := 2 } true (by decide), .inode letterInode,
    .extent (letterExtent ⟨0, 1024, 12, 9⟩ (by decide))]

def lockerEntries : List OmapEntry := [⟨10, 1, 11, 512, omapValEncrypted⟩]

theorem room_lockerEntries :
    Room (List.replicate 512 0) .omap 0x7 0 (lockerEntries.map OmapEntry.record) := by
  constructor <;> decide +kernel

theorem room_lockerContents :
    Room (List.replicate 512 0) .fsTree 0x3 0 (lockerContents.map FsObject.record) := by
  constructor <;> decide +kernel

def lockerRoot : Bytes := (packNode room_lockerContents).sealed.block

def lockerBlocks : List Bytes :=
  [(⟨0, 0x40000002, 10, 0⟩ : ObjectMap).write (List.replicate 512 0) 0,
    (packNode room_lockerEntries).sealed.block,
    (shiftCipher lockerKey).encryptBlock 512 11 lockerRoot,
    (shiftCipher lockerKey).encryptBlock 512 9 (List.replicate 512 7),
    (shiftCipher lockerKey).encryptBlock 512 10 (List.replicate 512 7)]

theorem length_lockerBlocks : ∀ b ∈ lockerBlocks, b.length = 512 := by
  have hpacked : ∀ {subtype : BTreeSubtype} {flags level : Nat} {es : List Entry}
      (room : Room (List.replicate 512 0) subtype flags level es),
      (packNode room).sealed.block.length = 512 := by
    intro subtype flags level es room
    rw [NodePlan.length_block]
    exact (NodePlan.length_sealBase _).trans List.length_replicate
  have hcipher : ∀ t block, block.length = 512 →
      ((shiftCipher lockerKey).encryptBlock 512 t block).length = 512 :=
    fun t block h => length_encryptBlock _ h (by decide) t
  have homap : ((⟨0, 0x40000002, 10, 0⟩ : ObjectMap).write (List.replicate 512 0) 0).length = 512 :=
    (ObjectMap.length_write _ 0 (by rw [List.length_replicate]; decide)).trans
      List.length_replicate
  simp only [lockerBlocks, List.forall_mem_cons, homap, hpacked,
    hcipher 11 lockerRoot (hpacked _), hcipher 9 _ List.length_replicate,
    hcipher 10 _ List.length_replicate, List.not_mem_nil, false_imp_iff, implies_true, and_self]

theorem length_boxBytes : boxBytes.length = 9 * 512 := by
  decide +kernel

def lockerImage : Image where
  bytes := boxBytes ++ lockerBlocks.flatten
  length_lt := by
    rw [List.length_append, length_boxBytes, length_flatten_blocks length_lockerBlocks]
    decide

theorem drop_append_blocks {a b : Bytes} {k n : Nat} (h : a.length = k * n) (i : Nat) :
    (a ++ b).drop ((k + i) * n) = b.drop (i * n) := by
  rw [Nat.add_mul, ← List.drop_drop, List.drop_left' h]

theorem length_lockerImage : lockerImage.bytes.length = 14 * 512 := by
  show (boxBytes ++ lockerBlocks.flatten).length = _
  rw [List.length_append, length_boxBytes, length_flatten_blocks length_lockerBlocks]
  rfl

/-- The blocks of the volume stand behind the nine of the container. -/
theorem chunk_lockerImage {i : Nat} {b : Bytes} (hb : lockerBlocks[i]? = some b) :
    chunk 512 lockerImage.bytes (9 + i) = b := by
  have hdrop : lockerImage.bytes.drop ((9 + i) * 512) = lockerBlocks.flatten.drop (i * 512) :=
    drop_append_blocks length_boxBytes i
  rw [chunk, hdrop]
  exact chunk_flatten length_lockerBlocks hb

theorem lockerImage_block {i : Nat} {b : Bytes} (hb : lockerBlocks[i]? = some b) :
    lockerImage.blockInside 512 (9 + i) = some b := by
  obtain ⟨hi, -⟩ := List.getElem?_eq_some_iff.mp hb
  have hi : i < 5 := hi
  refine blockInside_eq_some_iff.mpr ⟨?_, chunk_lockerImage hb⟩
  rw [length_lockerImage]
  omega

def lockerSealed :
    SealedVolume .shift headCrypto lockerImage boxVolumeUuid "a" lockerKey.bytes :=
  boxSealed.extend (List.prefix_append _ _) (by
    show _ ≤ boxBytes.length
    rw [length_boxBytes]
    decide)

def lockerVolume : ApfsVolume := .ofRoots 1 9 10 0

def lockerWritten :
    WrittenVolume .shift lockerImage (lockerVolume.setVek lockerKey) 512 lockerContents where
  entries := lockerEntries
  omap := oneLeafOmap room_lockerEntries (lockerImage_block (i := 0) rfl)
    (lockerImage_block (i := 1) rfl) List.length_replicate (by decide) (by decide)
    (List.forall_mem_singleton.mpr (by constructor <;> decide)) (List.pairwise_singleton _ _)
  tree := .leaf 10 (lockerContents.map FsObject.record)
  root := rfl
  nodes := ⟨⟨10, 1, 11, 512, omapValEncrypted⟩, _, lockerRoot,
    ⟨List.mem_singleton_self _, rfl, le_rfl, by decide⟩, lockerImage_block (i := 2) rfl,
    .encrypted (shiftCipher lockerKey) rfl (by decide) (by decide) (by decide) (by decide)
      (by decide),
    .mk (packNode room_lockerContents) rfl List.length_replicate
      ⟨by decide, map_entry_packSlots _ 0 0⟩⟩
  height_le := by decide
  distinct := List.nodup_singleton _
  ranges := trivial
  records := rfl

theorem lockerPlain_ne_nil : (List.replicate 1024 7 : Bytes) ≠ [] :=
  List.replicate_succ_ne_nil

def lockerFragment : Fragment := ⟨List.replicate 1024 7, 12, 9, lockerPlain_ne_nil⟩

theorem lockerFragment_stored : lockerFragment.Stored .shift lockerImage (some lockerKey) 512 := by
  have hlen : lockerFragment.content.length = 1024 := List.length_replicate
  have hblocks : ∀ i < 2, lockerBlocks[3 + i]? = some ((shiftCipher lockerKey).encryptBlock 512
      (9 + i) (chunk 512 lockerFragment.content i)) := by
    decide +kernel
  refine .encrypted (shiftCipher lockerKey) rfl (by decide) (by decide) (by decide) (by decide)
    ?_ ?_ ?_ ?_
  · rw [hlen]
    decide
  · rw [hlen, length_lockerImage]
    decide
  · intro i hi
    rw [hlen] at hi
    show chunk 512 lockerImage.bytes (12 + i) = _
    rw [show 12 + i = 9 + (3 + i) by omega]
    exact chunk_lockerImage (hblocks i hi)
  · intro i hi
    rw [hlen] at hi
    have hi : i < 2 := hi
    show (9 + i) * 1 ≤ u64Max
    unfold u64Max
    omega

theorem locker_hasFile : HasFile .shift lockerImage (some lockerKey) 512 lockerContents
    (pathNames "é") 6 letterInode.inode [lockerFragment] where
  path := by
    rw [show pathNames "é" = ["é"] by decide +kernel]
    exact .cons (by decide +kernel) (.nil 6)
  inode_eq := by decide +kernel
  plain := by decide +kernel
  size_le := by decide
  stream := ⟨.of_eq (by decide +kernel), List.forall_mem_singleton.mpr lockerFragment_stored⟩

/-- With the password of user `a` the file is read; without the key it is not. -/
theorem unlocked_volume_lockerImage :
    (unlockVolume .shift headCrypto lockerImage boxVolumeUuid "a" = .ok lockerKey.bytes ∧
      openPath .shift lockerImage (lockerVolume.setVek lockerKey) 512 (pathComponents "é")
        = .ok letterInode.inode ∧
      readData .stored .shift lockerImage (lockerVolume.setVek lockerKey) 512 letterInode.inode
        = .ok (List.replicate 1024 7 ++ List.replicate 276 0)) ∧
    openPath .shift lockerImage lockerVolume 512 (pathComponents "é")
      = .error (checksumFault 11 ((shiftCipher lockerKey).encryptBlock 512 11 lockerRoot)) := by
  obtain ⟨hunlock, hpaths, hfiles, hlocked⟩ :=
    unlocked_volume_reads_back .stored rfl lockerSealed lockerWritten
  have hcontent : fillTo (letterInode.inode.size.getD 0) ([lockerFragment].flatMap Fragment.content)
      = List.replicate 1024 7 ++ List.replicate 276 0 := by
    decide +kernel
  have hbroken : ¬ Verifies ((shiftCipher lockerKey).encryptBlock 512 11 lockerRoot) := by
    decide +kernel
  have hlocked := hlocked ⟨10, 1, 11, 512, omapValEncrypted⟩ _
    ⟨List.mem_singleton_self _, rfl, le_rfl, by decide⟩ (lockerImage_block (i := 2) rfl) hbroken
  have hfile := locker_hasFile
  exact ⟨⟨hunlock, (hpaths "é" _).mpr ⟨6, hfile.path, hfile.inode_eq⟩,
    hcontent ▸ hfiles _ _ _ _ hfile⟩, hlocked.1 "é"⟩

end ApfsForensic
