import ApfsForensic.Core.EncryptedExtent
import ApfsForensic.Core.Snapshot
import ApfsForensic.Core.TreeWalks

/-!
# The volume key and snapshots

`set_vek` of `core/src/volume.rs` promises that nodes flagged `OMAP_VAL_ENCRYPTED`
and file extents are decrypted on read.  The fs-tree walk does so.  Two ways into a
snapshot do not: the walk of the snapshot-metadata tree passes over the flag, and
`mount_snapshot` builds a volume without the key.

* `virtualNodeBuf`, `snapNodeBuf`: what the two walks hand to the checksum.  Only
  the first is decrypted (`virtualNodeBuf_decrypts`, `snapNodeBuf_decrypts_iff`).
* `snapshot_walk_decrypts_iff`: the two walks treat nodes alike, and a volume lists
  the snapshots of its decrypted twin, exactly if no flagged node of the tree is
  changed by decryption.
* `mounted_navigation_iff`: navigation through a mounted snapshot is that with the
  key exactly if no node and no extent of the snapshot is changed by decryption.
-/

namespace ApfsForensic

open Walk

/-! ### What a checksum is verified on -/

section Nodes

variable (xts : Xts) (image : Image) (omap : ObjectMap) (xid blockSize : Nat)

/-- The block address and the buffer of a node that `descend_virtual` verifies. -/
def virtualNodeBuf (vek : Option Vek) (oid : Nat) : Result (Nat × Bytes) := do
  let entry ← omap.resolve image oid xid blockSize
  let buf ← image.readBlock entry.paddr blockSize
  let buf ← decryptNode xts vek blockSize entry buf
  return (entry.paddr, buf)

/-- The same of `descend_snap`, for a node below the root. -/
def snapNodeBuf (oid : Nat) : Result (Nat × Bytes) := do
  let entry ← omap.resolve image oid xid blockSize
  let buf ← image.readBlock entry.paddr blockSize
  return (entry.paddr, buf)

def verifyNode (node : Nat × Bytes) : Result Bytes := do
  verifyChecksum node.2 (headerOidOr node.2 node.1)
  return node.2

theorem readVirtualNode_eq_verify (vek : Option Vek) (oid : Nat) :
    readVirtualNode xts image omap vek xid blockSize oid
      = virtualNodeBuf xts image omap xid blockSize vek oid >>= verifyNode := by
  rw [readVirtualNode, virtualNodeBuf]
  cases omap.resolve image oid xid blockSize with
  | error f => rfl
  | ok entry =>
    simp only [ok_bind]
    cases image.readBlock entry.paddr blockSize with
    | error f => rfl
    | ok buf =>
      simp only [ok_bind]
      cases decryptNode xts vek blockSize entry buf <;> rfl

theorem readSnapNode_eq_verify (oid : Nat) :
    readSnapNode image omap xid blockSize false oid
      = snapNodeBuf image omap xid blockSize oid >>= verifyNode := by
  rw [readSnapNode, snapNodeBuf]
  cases omap.resolve image oid xid blockSize with
  | error f => rfl
  | ok entry =>
    simp only [Bool.false_eq_true, if_false, Except.map, ok_bind]
    cases image.readBlock entry.paddr blockSize <;> rfl

/-- Behind a flagged entry the buffer is the block decrypted under the key, with the
block's own address as the tweak. -/
def DecryptsFlagged (vek : Vek) (oid : Nat) (node : Result (Nat × Bytes)) : Prop :=
  ∀ entry raw, omap.resolve image oid xid blockSize = .ok entry →
    entry.flags &&& omapValEncrypted ≠ 0 → image.readBlock entry.paddr blockSize = .ok raw →
    node = (decryptVolumeArea xts raw vek entry.paddr blockSize).map (fun buf => (entry.paddr, buf))

/-- Behind a flagged entry stands a block that decryption leaves as it is. -/
def ClearNode (vek : Vek) (oid : Nat) : Prop :=
  ∀ entry raw, omap.resolve image oid xid blockSize = .ok entry →
    entry.flags &&& omapValEncrypted ≠ 0 → image.readBlock entry.paddr blockSize = .ok raw →
    decryptVolumeArea xts raw vek entry.paddr blockSize = .ok raw

theorem virtualNodeBuf_decrypts (vek : Vek) (oid : Nat) :
    DecryptsFlagged xts image omap xid blockSize vek oid
      (virtualNodeBuf xts image omap xid blockSize (some vek) oid) := by
  intro entry raw hentry hflag hread
  rw [virtualNodeBuf, hentry, ok_bind, hread, ok_bind, decryptNode, if_pos hflag]
  cases decryptVolumeArea xts raw vek entry.paddr blockSize <;> rfl

theorem snapNodeBuf_of_block {oid : Nat} {entry : OmapEntry} {raw : Bytes}
    (hentry : omap.resolve image oid xid blockSize = .ok entry)
    (hread : image.readBlock entry.paddr blockSize = .ok raw) :
    snapNodeBuf image omap xid blockSize oid = .ok (entry.paddr, raw) := by
  rw [snapNodeBuf, hentry, ok_bind, hread]
  rfl

theorem snapNodeBuf_decrypts_iff (vek : Vek) (oid : Nat) :
    DecryptsFlagged xts image omap xid blockSize vek oid
        (snapNodeBuf image omap xid blockSize oid)
      ↔ ClearNode xts image omap xid blockSize vek oid := by
  constructor
  · intro h entry raw hentry hflag hread
    have hbuf := h entry raw hentry hflag hread
    rw [snapNodeBuf_of_block _ _ _ _ hentry hread] at hbuf
    cases hdec : decryptVolumeArea xts raw vek entry.paddr blockSize with
    | error f => rw [hdec] at hbuf; cases hbuf
    | ok plain =>
      rw [hdec] at hbuf
      cases hbuf
      rfl
  · intro h entry raw hentry hflag hread
    rw [snapNodeBuf_of_block _ _ _ _ hentry hread, h entry raw hentry hflag hread]
    rfl

/-- Without a key the fs-tree walk reads as the snapshot walk does. -/
theorem virtualNodeBuf_none (oid : Nat) :
    virtualNodeBuf xts image omap xid blockSize none oid
      = snapNodeBuf image omap xid blockSize oid := by
  have hnode : ∀ entry buf, decryptNode xts none blockSize entry buf = .ok buf := by
    intro entry buf
    rw [decryptNode]
    exact ite_self _
  simp only [virtualNodeBuf, snapNodeBuf, hnode, ok_bind]

theorem virtualNodeBuf_of_clear {vek : Vek} {oid : Nat}
    (h : ClearNode xts image omap xid blockSize vek oid) :
    virtualNodeBuf xts image omap xid blockSize (some vek) oid
      = snapNodeBuf image omap xid blockSize oid := by
  rw [virtualNodeBuf, snapNodeBuf]
  cases hentry : omap.resolve image oid xid blockSize with
  | error f => rfl
  | ok entry =>
    simp only [ok_bind]
    cases hread : image.readBlock entry.paddr blockSize with
    | error f => rfl
    | ok raw =>
      have hnode : decryptNode xts (some vek) blockSize entry raw = .ok raw := by
        rw [decryptNode]
        by_cases hflag : entry.flags &&& omapValEncrypted ≠ 0
        · rw [if_pos hflag]
          exact h entry raw hentry hflag hread
        · rw [if_neg hflag]
      rw [ok_bind, hnode, ok_bind]

end Nodes

/-! ### Listing snapshots -/

/-- The entry without its `OMAP_VAL_ENCRYPTED` flag. -/
def OmapEntry.unflagged (entry : OmapEntry) : OmapEntry :=
  { entry with flags := entry.flags ^^^ (entry.flags &&& omapValEncrypted) }

/-- `twin` is the image with the snapshot-metadata tree decrypted: the nodes behind its
root stand at the same blocks in the clear, and their entries are not flagged. -/
structure DecryptedTwin (xts : Xts) (vek : Vek) (volume : ApfsVolume) (blockSize : Nat)
    (image : Image) (omap : ObjectMap) (twin : Image) (omap' : ObjectMap) : Prop where
  omap_ok : readObjectMap twin volume.omapOid blockSize = .ok omap'
  same_root : twin.readBlock volume.snapMetaTreeOid blockSize
    = image.readBlock volume.snapMetaTreeOid blockSize
  node : ∀ oid, Reaches (fetchSnap twin omap' volume.xid blockSize)
      (.root volume.snapMetaTreeOid) (.child oid) →
    ∃ entry, omap.resolve image oid volume.xid blockSize = .ok entry ∧
      omap'.resolve twin oid volume.xid blockSize = .ok entry.unflagged ∧
      twin.readBlock entry.paddr blockSize
        = image.readBlock entry.paddr blockSize >>= decryptNode xts (some vek) blockSize entry

section Listing

variable {xts : Xts} {image twin : Image} {omap omap' : ObjectMap} {volume : ApfsVolume}
variable {blockSize : Nat} {vek : Vek}

/-- Only the root is read by its block address. -/
theorem reaches_fetchSnap {xid : Nat} {root ref : SnapRef}
    (h : Reaches (fetchSnap image omap xid blockSize) root ref) :
    ref = root ∨ ∃ oid, ref = .child oid := by
  induction h with
  | root => exact Or.inl rfl
  | child _ node mem _ => exact Or.inr (fetchSnap_children _ _ _ _ node _ mem)

/-- What the snapshot walk verifies in the twin is what the fs-tree walk would verify. -/
theorem DecryptedTwin.snapNodeBuf_eq
    (h : DecryptedTwin xts vek volume blockSize image omap twin omap') {oid : Nat}
    (hreach : Reaches (fetchSnap twin omap' volume.xid blockSize)
      (.root volume.snapMetaTreeOid) (.child oid)) :
    snapNodeBuf twin omap' volume.xid blockSize oid
      = virtualNodeBuf xts image omap volume.xid blockSize (some vek) oid := by
  obtain ⟨entry, hentry, hentry', hblock⟩ := h.node oid hreach
  rw [snapNodeBuf, virtualNodeBuf, hentry, hentry', ok_bind, ok_bind]
  have hpaddr : entry.unflagged.paddr = entry.paddr := rfl
  rw [hpaddr, hblock]
  cases image.readBlock entry.paddr blockSize <;> rfl

/-- Where decryption changes nothing the twin has the same node. -/
theorem DecryptedTwin.fetchSnap_eq
    (h : DecryptedTwin xts vek volume blockSize image omap twin omap')
    (hclear : ∀ oid, Reaches (fetchSnap image omap volume.xid blockSize)
        (.root volume.snapMetaTreeOid) (.child oid) →
      ClearNode xts image omap volume.xid blockSize vek oid) (ref : SnapRef)
    (hreach : Reaches (fetchSnap image omap volume.xid blockSize)
      (.root volume.snapMetaTreeOid) ref)
    (hreach' : Reaches (fetchSnap twin omap' volume.xid blockSize)
      (.root volume.snapMetaTreeOid) ref) :
    fetchSnap twin omap' volume.xid blockSize ref
      = fetchSnap image omap volume.xid blockSize ref := by
  rw [fetchSnap, fetchSnap]
  congr 1
  cases ref with
  | child oid =>
    show readSnapNode _ _ _ _ false oid = readSnapNode _ _ _ _ false oid
    rw [readSnapNode_eq_verify, readSnapNode_eq_verify, h.snapNodeBuf_eq hreach',
      virtualNodeBuf_of_clear xts image omap volume.xid blockSize (hclear oid hreach)]
  | root paddr =>
    have hroot : paddr = volume.snapMetaTreeOid := by
      rcases reaches_fetchSnap hreach with heq | ⟨oid, heq⟩
      · exact SnapRef.root.inj heq
      · cases heq
    show readSnapNode _ _ _ _ true paddr = readSnapNode _ _ _ _ true paddr
    rw [readSnapNode, readSnapNode, hroot]
    simp only [if_true, pure_bind, h.same_root]

/-- The records are a function of the nodes behind the root. -/
theorem forEachSnapRecord_congr {σ : Type} (homap : readObjectMap image volume.omapOid blockSize
      = .ok omap) (homap' : readObjectMap twin volume.omapOid blockSize = .ok omap')
    (h : ∀ ref, Reaches (fetchSnap image omap volume.xid blockSize)
        (.root volume.snapMetaTreeOid) ref →
      fetchSnap twin omap' volume.xid blockSize ref = fetchSnap image omap volume.xid blockSize ref)
    (visit : σ → Bytes → Bytes → σ) (acc : σ) :
    forEachSnapRecord twin volume blockSize visit acc
      = forEachSnapRecord image volume blockSize visit acc := by
  have hwalk := guardedWalk_congr _ SnapRef.number (.err (.cycleGuard maxSnapTreeDepth))
    (fun a e => visit a e.key e.value) maxSnapTreeDepth (.root volume.snapMetaTreeOid) ([], acc) h
  rw [← descendSnap_eq_guardedWalk, ← descendSnap_eq_guardedWalk] at hwalk
  simp only [SnapRef.isRoot, SnapRef.number] at hwalk
  rw [forEachSnapRecord, forEachSnapRecord, homap, homap', ok_bind, ok_bind, hwalk]

/-- **When decryption is uniform over the two walks.**  For a volume that holds a key the
nodes of the fs-tree are decrypted; those of the snapshot-metadata tree are, and the
volume lists the snapshots of each decrypted twin, exactly if no flagged node of that
tree is changed by decryption. -/
theorem snapshot_walk_decrypts_iff (hvek : volume.vek = some vek)
    (homap : readObjectMap image volume.omapOid blockSize = .ok omap) :
    ((∀ oid, DecryptsFlagged xts image omap volume.xid blockSize vek oid
        (virtualNodeBuf xts image omap volume.xid blockSize volume.vek oid)) ∧
      (∀ oid, Reaches (fetchSnap image omap volume.xid blockSize)
          (.root volume.snapMetaTreeOid) (.child oid) →
        DecryptsFlagged xts image omap volume.xid blockSize vek oid
          (snapNodeBuf image omap volume.xid blockSize oid)) ∧
      ∀ twin omap', DecryptedTwin xts vek volume blockSize image omap twin omap' →
        listSnapshots image volume blockSize = listSnapshots twin volume blockSize) ↔
    ∀ oid, Reaches (fetchSnap image omap volume.xid blockSize)
        (.root volume.snapMetaTreeOid) (.child oid) →
      ClearNode xts image omap volume.xid blockSize vek oid := by
  constructor
  · rintro ⟨_, hsnap, _⟩ oid hreach
    exact (snapNodeBuf_decrypts_iff _ _ _ _ _ _ _).mp (hsnap oid hreach)
  · intro hclear
    refine ⟨?_, ?_, ?_⟩
    · intro oid
      rw [hvek]
      exact virtualNodeBuf_decrypts _ _ _ _ _ _ _
    · intro oid hreach
      exact (snapNodeBuf_decrypts_iff _ _ _ _ _ _ _).mpr (hclear oid hreach)
    · intro twin omap' htwin
      have hfetch := htwin.fetchSnap_eq hclear
      rw [listSnapshots, listSnapshots, forEachSnapRecord_congr homap htwin.omap_ok]
      intro ref hreach
      exact hfetch ref hreach (hreach.congr hfetch)

end Listing

/-! ### A snapshot tree under a key

An index root at block `3` with one child, a leaf that describes snapshot `5`.  The
leaf stands in the clear at block `0`, whose tweak `0` decrypts nothing, and in some
form at block `4`; the entry of the child leads to one of them. -/

def snapLeaf : Bytes := btreeNode 512 9 1 0x2 0 snapRecords

def keyedSnapTree : SnapTree :=
  .index (.root 3) (.cons (jkeyBytes 1 5) (.leaf (.child 9) snapRecords) .nil)

def keyedSnapOmap : ObjectMap := ⟨0, 0x40000002, 2, 0⟩

def unlockedVolume : ApfsVolume := (ApfsVolume.ofRoots 1 1 0 3).setVek shiftVek

def keyedSnapBlocks (flags paddr : Nat) (last : List Bytes) : List Bytes :=
  [snapLeaf, omapBlock 512 1 2, btreeNode 512 2 1 0x7 0 [omapRecord 9 1 flags paddr],
    btreeNode 512 3 1 0x1 1 [childRecord (jkeyBytes 1 5) 9]] ++ last

theorem hasBlocks_keyedSnap (flags paddr : Nat) {last : List Bytes}
    (hlast : ∀ b ∈ last, b.length = 512) (hn : last.length ≤ 1) :
    (Image.ofBlocks (keyedSnapBlocks flags paddr last)).HasBlocks 512
      (keyedSnapBlocks flags paddr last) := by
  refine Image.hasBlocks_ofBlocks (fun b hb => ?_) ?_
  · simp only [keyedSnapBlocks, List.mem_append, List.mem_cons, List.not_mem_nil, or_false] at hb
    rcases hb with (rfl | rfl | rfl | rfl) | hb
    · exact length_btreeNode (by decide) ..
    · exact length_omapBlock (by decide) ..
    · exact length_btreeNode (by
        simp only [tocBytes, omapRecord, List.flatMap_cons, List.flatMap_nil, List.reverse_cons,
          List.reverse_nil, List.nil_append, List.length_append, length_toLeBytes]
        decide) ..
    · exact length_btreeNode (by decide) ..
    · exact hlast b hb
  · rw [keyedSnapBlocks, List.length_append, u64Max]
    show (4 + last.length) * 512 ≤ _
    omega

/-- What the leaf of the object map says, once it is laid out. -/
def KeyedSnapEntry (flags paddr : Nat) : Prop :=
  (parseNodeHeader (btreeNode 512 2 1 0x7 0 [omapRecord 9 1 flags paddr])).map
      BTreeNodeHeader.isLeaf = some true ∧
    omapScan 9 1 (nodeEntries (btreeNode 512 2 1 0x7 0 [omapRecord 9 1 flags paddr]) .omap)
      = some ⟨9, 1, paddr, 4096, flags⟩

instance (flags paddr : Nat) : Decidable (KeyedSnapEntry flags paddr) :=
  inferInstanceAs (Decidable (_ ∧ _))

section KeyedSnap

variable {image : Image} {flags paddr : Nat} {last : List Bytes}
  (h : image.HasBlocks 512 (keyedSnapBlocks flags paddr last))

include h

theorem readObjectMap_keyedSnap : readObjectMap image 1 512 = .ok keyedSnapOmap := by
  have homap : (keyedSnapBlocks flags paddr last)[1]? = some (omapBlock 512 1 2) := rfl
  rw [readObjectMap, h.readBlock homap, ok_bind]
  decide +kernel

theorem resolve_keyedSnap (he : KeyedSnapEntry flags paddr) :
    keyedSnapOmap.resolve image 9 1 512 = .ok ⟨9, 1, paddr, 4096, flags⟩ := by
  have htree : (keyedSnapBlocks flags paddr last)[2]?
      = some (btreeNode 512 2 1 0x7 0 [omapRecord 9 1 flags paddr]) := rfl
  obtain ⟨hdr, hhdr, hleaf⟩ := Option.map_eq_some_iff.mp he.1
  have hread := h.readVerifiedNode htree (btreeNode_verifies _ _ _ _ _ _)
  have hroot : keyedSnapOmap.treeOid = 2 := rfl
  exact resolve_of_leaf hroot hread hhdr hleaf he.2

theorem stored_keyedSnap (he : KeyedSnapEntry flags paddr)
    (hleaf : (keyedSnapBlocks flags paddr last)[paddr]? = some snapLeaf) :
    keyedSnapTree.Stored (fetchSnap image keyedSnapOmap 1 512) := by
  have hroot : (keyedSnapBlocks flags paddr last)[3]?
      = some (btreeNode 512 3 1 0x1 1 [childRecord (jkeyBytes 1 5) 9]) := rfl
  have hindex : nodeView (btreeNode 512 3 1 0x1 1 [childRecord (jkeyBytes 1 5) 9]) .fsTree
      = .index [(jkeyBytes 1 5, 9)] := by decide +kernel
  have hrecords : nodeView snapLeaf .fsTree = .leaf snapRecords := by decide +kernel
  refine ⟨?_, ?_, trivial⟩
  · show fetchSnap image keyedSnapOmap 1 512 (.root 3) = _
    rw [fetchSnap_root_of_block _ _ _ _ (h.readBlock hroot) (btreeNode_verifies _ _ _ _ _ _), hindex]
    rfl
  · show fetchSnap image keyedSnapOmap 1 512 (.child 9) = _
    rw [fetchSnap_child_of_block _ _ _ _ (resolve_keyedSnap h he) (h.readBlock hleaf)
      (btreeNode_verifies _ _ _ _ _ _), hrecords]
    rfl

end KeyedSnap

/-- The root of the tree is the same block in all of them. -/
theorem same_root_keyedSnap {image twin : Image} {flags paddr flags' paddr' : Nat}
    {last last' : List Bytes} (h : image.HasBlocks 512 (keyedSnapBlocks flags paddr last))
    (h' : twin.HasBlocks 512 (keyedSnapBlocks flags' paddr' last')) :
    image.readBlock 3 512 = twin.readBlock 3 512 := by
  have hroot : ∀ (flags paddr : Nat) (last : List Bytes), (keyedSnapBlocks flags paddr last)[3]?
      = some (btreeNode 512 3 1 0x1 1 [childRecord (jkeyBytes 1 5) 9]) := fun _ _ _ => rfl
  rw [h.readBlock (hroot ..), h'.readBlock (hroot ..)]

/-- Over a readable leaf the snapshots of the volume are those of its records. -/
theorem listSnapshots_keyedSnap {image : Image} {flags paddr : Nat} {last : List Bytes}
    (h : image.HasBlocks 512 (keyedSnapBlocks flags paddr last)) (he : KeyedSnapEntry flags paddr)
    (hleaf : (keyedSnapBlocks flags paddr last)[paddr]? = some snapLeaf) :
    listSnapshots image unlockedVolume 512 = .ok (snapshotsOf snapRecords) := by
  have hvalid : ValidSnapTree image unlockedVolume 512 keyedSnapOmap keyedSnapTree :=
    ⟨readObjectMap_keyedSnap h, rfl, stored_keyedSnap h he hleaf, by decide, by decide⟩
  have hne : ∀ oid, .child oid ∈ keyedSnapTree.nodes → oid ≠ unlockedVolume.snapMetaTreeOid := by
    intro oid hmem
    have hoid : oid = 9 := by simpa [keyedSnapTree, Tree.nodes, Forest.nodes] using hmem
    rw [hoid]
    decide
  rw [listSnapshots_ok hvalid hne]
  decide +kernel

theorem oid_of_keyedSnapTree {image : Image} {oid : Nat}
    (hstored : keyedSnapTree.Stored (fetchSnap image keyedSnapOmap 1 512))
    (hreach : Reaches (fetchSnap image keyedSnapOmap 1 512) (.root 3) (.child oid)) : oid = 9 := by
  have hmem := (Tree.mem_nodes_iff_reaches hstored (.child oid)).mpr hreach
  simpa [keyedSnapTree, Tree.nodes, Forest.nodes] using hmem

def tweaklessSnapImage : Image := .ofBlocks (keyedSnapBlocks 4 0 [])

def tweaklessTwin : Image := .ofBlocks (keyedSnapBlocks 0 0 [])

theorem hasBlocks_tweaklessSnap : tweaklessSnapImage.HasBlocks 512 (keyedSnapBlocks 4 0 []) :=
  hasBlocks_keyedSnap 4 0 (by simp) (by simp)

theorem hasBlocks_tweaklessTwin : tweaklessTwin.HasBlocks 512 (keyedSnapBlocks 0 0 []) :=
  hasBlocks_keyedSnap 0 0 (by simp) (by simp)

theorem resolve_tweaklessSnap :
    keyedSnapOmap.resolve tweaklessSnapImage 9 1 512 = .ok ⟨9, 1, 0, 4096, 4⟩ :=
  resolve_keyedSnap hasBlocks_tweaklessSnap (by decide +kernel)

theorem tweakless_decryptedTwin :
    DecryptedTwin .shift shiftVek unlockedVolume 512 tweaklessSnapImage keyedSnapOmap
      tweaklessTwin keyedSnapOmap where
  omap_ok := readObjectMap_keyedSnap hasBlocks_tweaklessTwin
  same_root := same_root_keyedSnap hasBlocks_tweaklessTwin hasBlocks_tweaklessSnap
  node := by
    have he : KeyedSnapEntry 0 0 := by decide +kernel
    intro oid hreach
    obtain rfl := oid_of_keyedSnapTree (stored_keyedSnap hasBlocks_tweaklessTwin he rfl) hreach
    refine ⟨⟨9, 1, 0, 4096, 4⟩, resolve_tweaklessSnap,
      resolve_keyedSnap hasBlocks_tweaklessTwin he, ?_⟩
    have hleaf : (keyedSnapBlocks 4 0 [])[0]? = some snapLeaf := rfl
    have hleaf' : (keyedSnapBlocks 0 0 [])[0]? = some snapLeaf := rfl
    rw [hasBlocks_tweaklessSnap.readBlock hleaf, hasBlocks_tweaklessTwin.readBlock hleaf']
    rfl

theorem snapshot_walk_tweaklessSnapImage :
    listSnapshots tweaklessSnapImage unlockedVolume 512
      = listSnapshots tweaklessTwin unlockedVolume 512 := by
  have homap : readObjectMap tweaklessSnapImage unlockedVolume.omapOid 512 = .ok keyedSnapOmap :=
    readObjectMap_keyedSnap hasBlocks_tweaklessSnap
  have hstored : keyedSnapTree.Stored (fetchSnap tweaklessSnapImage keyedSnapOmap 1 512) :=
    stored_keyedSnap hasBlocks_tweaklessSnap (by decide +kernel) rfl
  have hvek : unlockedVolume.vek = some shiftVek := rfl
  refine ((snapshot_walk_decrypts_iff hvek homap).mpr ?_).2.2 _ _ tweakless_decryptedTwin
  intro oid hreach entry raw hentry _ _
  obtain rfl := oid_of_keyedSnapTree hstored hreach
  have hresolve : keyedSnapOmap.resolve tweaklessSnapImage 9 unlockedVolume.xid 512
      = .ok ⟨9, 1, 0, 4096, 4⟩ := resolve_tweaklessSnap
  rw [hresolve, Except.ok.injEq] at hentry
  rw [← hentry]
  rfl

def lockedSnapImage : Image := .ofBlocks (keyedSnapBlocks 4 4 [snapLeaf.map (· + 4)])

def lockedTwin : Image := .ofBlocks (keyedSnapBlocks 0 4 [snapLeaf])

theorem length_snapLeaf : snapLeaf.length = 512 := length_btreeNode (by decide) ..

theorem hasBlocks_lockedSnap :
    lockedSnapImage.HasBlocks 512 (keyedSnapBlocks 4 4 [snapLeaf.map (· + 4)]) := by
  refine hasBlocks_keyedSnap 4 4 (fun b hb => ?_) le_rfl
  rw [List.mem_singleton.mp hb, List.length_map, length_snapLeaf]

theorem hasBlocks_lockedTwin : lockedTwin.HasBlocks 512 (keyedSnapBlocks 0 4 [snapLeaf]) := by
  refine hasBlocks_keyedSnap 0 4 (fun b hb => ?_) le_rfl
  rw [List.mem_singleton.mp hb, length_snapLeaf]

/-- The volume holds the key, and cannot list the snapshot that its twin lists. -/
theorem snapshot_walk_lockedSnapImage :
    DecryptedTwin .shift shiftVek unlockedVolume 512 lockedSnapImage keyedSnapOmap
        lockedTwin keyedSnapOmap ∧
      virtualNodeBuf .shift lockedSnapImage keyedSnapOmap 1 512 unlockedVolume.vek 9
        = .ok (4, snapLeaf) ∧
      snapNodeBuf lockedSnapImage keyedSnapOmap 1 512 9 = .ok (4, snapLeaf.map (· + 4)) ∧
      listSnapshots lockedSnapImage unlockedVolume 512 = .error (.err (.checksumMismatch
        289360691352306701 3011581185623768644 12054102786138914501)) ∧
      listSnapshots lockedTwin unlockedVolume 512 = .ok (snapshotsOf snapRecords) := by
  have hlocked := hasBlocks_lockedSnap
  have htwin := hasBlocks_lockedTwin
  have he : KeyedSnapEntry 0 4 := by decide +kernel
  have he' : KeyedSnapEntry 4 4 := by decide +kernel
  have hleaf : (keyedSnapBlocks 0 4 [snapLeaf])[4]? = some snapLeaf := rfl
  have hleaf' : (keyedSnapBlocks 4 4 [snapLeaf.map (· + 4)])[4]? = some (snapLeaf.map (· + 4)) := rfl
  have hentry := resolve_keyedSnap hlocked he'
  have hread := hlocked.readBlock hleaf'
  have hdecrypt : decryptNode .shift (some shiftVek) 512 ⟨9, 1, 4, 4096, 4⟩ (snapLeaf.map (· + 4))
      = .ok snapLeaf := by decide +kernel
  refine ⟨⟨readObjectMap_keyedSnap htwin, same_root_keyedSnap htwin hlocked, ?_⟩, ?_,
    snapNodeBuf_of_block _ _ _ _ hentry hread, by decide +kernel,
    listSnapshots_keyedSnap htwin he hleaf⟩
  · intro oid hreach
    obtain rfl := oid_of_keyedSnapTree (stored_keyedSnap htwin he hleaf) hreach
    refine ⟨⟨9, 1, 4, 4096, 4⟩, hentry, resolve_keyedSnap htwin he, ?_⟩
    rw [htwin.readBlock hleaf, hread, ok_bind, hdecrypt]
  · rw [virtualNodeBuf, hentry, ok_bind, hread, ok_bind]
    show decryptNode .shift (some shiftVek) 512 _ _ >>= _ = _
    rw [hdecrypt]
    rfl

/-! ### Navigation in a mounted snapshot -/

/-- The fs-tree walk, `load_inode` and `read_stream` answer alike through two volumes. -/
structure SameNavigation (xts : Xts) (image : Image) (blockSize : Nat) (a b : ApfsVolume) :
    Prop where
  walk : ∀ {σ : Type} (target : Option Nat) (visit : σ → Bytes → Bytes → σ) (acc : σ),
    walkFsTree xts image a blockSize target visit acc
      = walkFsTree xts image b blockSize target visit acc
  inode : ∀ oid, loadInode xts image a blockSize oid = loadInode xts image b blockSize oid
  stream : ∀ streamOid size, readStream xts image a blockSize streamOid size
    = readStream xts image b blockSize streamOid size

/-- The fs-tree nodes and the extents that navigation through `volume` comes to are read
decrypted under `vek`. -/
structure ReadsDecrypted (xts : Xts) (image : Image) (blockSize : Nat) (vek : Vek)
    (volume : ApfsVolume) : Prop where
  nodes : ∀ omap, readObjectMap image volume.omapOid blockSize = .ok omap →
    ∀ oid, Reaches (fetchVirtual xts image omap volume.vek volume.xid blockSize)
      volume.rootTreeOid oid →
    DecryptsFlagged xts image omap volume.xid blockSize vek oid
      (virtualNodeBuf xts image omap volume.xid blockSize volume.vek oid)
  extents : ∀ streamOid exts, listExtents xts image volume blockSize streamOid = .ok exts →
    ∀ e ∈ exts, e.physBlockNum ≠ 0 → e.physBlockNum * blockSize ≤ u64Max → ∀ n ≤ e.len,
    readExtent xts image volume.vek blockSize e (e.physBlockNum * blockSize) n
      = readExtent xts image (some vek) blockSize e (e.physBlockNum * blockSize) n

/-- Decryption changes no fs-tree node and no extent of the volume. -/
structure StoredInClear (xts : Xts) (image : Image) (blockSize : Nat) (vek : Vek)
    (volume : ApfsVolume) : Prop where
  nodes : ∀ omap, readObjectMap image volume.omapOid blockSize = .ok omap →
    ∀ oid, Reaches (fetchVirtual xts image omap volume.vek volume.xid blockSize)
      volume.rootTreeOid oid →
    ClearNode xts image omap volume.xid blockSize vek oid
  extents : ∀ streamOid exts, listExtents xts image volume blockSize streamOid = .ok exts →
    ∀ e ∈ exts, e.physBlockNum ≠ 0 → e.physBlockNum * blockSize ≤ u64Max → ∀ n ≤ e.len,
    ∀ data, image.readExact (e.physBlockNum * blockSize) n = .ok data →
    readExtent xts image (some vek) blockSize e (e.physBlockNum * blockSize) n = .ok data

section Mounted

variable {xts : Xts} {image : Image} {blockSize : Nat} {vek : Vek} {volume : ApfsVolume}

theorem fetchVirtual_of_clear {omap : ObjectMap} {xid oid : Nat}
    (h : ClearNode xts image omap xid blockSize vek oid) :
    fetchVirtual xts image omap (some vek) xid blockSize oid
      = fetchVirtual xts image omap none xid blockSize oid := by
  rw [fetchVirtual, fetchVirtual, readVirtualNode_eq_verify, readVirtualNode_eq_verify,
    virtualNodeBuf_of_clear _ _ _ _ _ h, virtualNodeBuf_none]

/-- With or without the key the walk reads the same nodes. -/
theorem walkFsTree_setVek {σ : Type} (hnone : volume.vek = none)
    (h : StoredInClear xts image blockSize vek volume) (target : Option Nat)
    (visit : σ → Bytes → Bytes → σ) (acc : σ) :
    walkFsTree xts image (volume.setVek vek) blockSize target visit acc
      = walkFsTree xts image volume blockSize target visit acc := by
  rw [walkFsTree, walkFsTree, ApfsVolume.setVek_omapOid]
  cases homap : readObjectMap image volume.omapOid blockSize with
  | error f => rw [error_bind, error_bind]
  | ok omap =>
    have hclear := h.nodes omap homap
    rw [hnone] at hclear
    have hfetch : ∀ oid, Reaches (fetchPruned xts image omap none volume.xid blockSize target)
        volume.rootTreeOid oid →
        fetchPruned xts image omap (some vek) volume.xid blockSize target oid
          = fetchPruned xts image omap none volume.xid blockSize target oid := by
      intro oid hreach
      rw [fetchPruned, fetchPruned, fetchVirtual_of_clear (hclear oid hreach.of_prune)]
    have hwalk := guardedWalk_congr _ id (.err (.cycleGuard maxFstreeDepth))
      (fun a (e : Entry) => visit a e.key e.value) maxFstreeDepth volume.rootTreeOid ([], acc)
      hfetch
    rw [← descendVirtual_eq_guardedWalk, ← descendVirtual_eq_guardedWalk] at hwalk
    simp only [ok_bind, ApfsVolume.setVek_vek, ApfsVolume.setVek_xid,
      ApfsVolume.setVek_rootTreeOid, hnone, hwalk]

/-- Where the image has no bytes for the plain read it has none for the whole blocks. -/
theorem readExtent_of_clear {e : FileExtent} {byteOff n : Nat} (hbs : 0 < blockSize)
    (h : ∀ data, image.readExact byteOff n = .ok data →
      readExtent xts image (some vek) blockSize e byteOff n = .ok data) :
    readExtent xts image (some vek) blockSize e byteOff n
      = readExtent xts image none blockSize e byteOff n := by
  show _ = image.readExact byteOff n
  cases hplain : image.readExact byteOff n with
  | ok data => exact h data hplain
  | error f =>
    obtain ⟨rfl, hn, hpast⟩ := Image.readExact_error hplain
    by_cases hid : e.cryptoId ≠ 0
    · have hcover := Nat.lt_div_mul_add hbs (a := n + blockSize - 1)
      have hwhole : image.readExact byteOff ((n + blockSize - 1) / blockSize * blockSize)
          = .error (.err (.io .unexpectedEof)) := by
        cases hr : image.readExact byteOff ((n + blockSize - 1) / blockSize * blockSize) with
        | error f => rw [(Image.readExact_error hr).1]
        | ok tmp =>
          obtain ⟨hin, _⟩ := Image.readExact_eq_ok_iff.mp hr
          omega
      simp only [readExtent, if_pos hid, hwhole, error_bind]
    · simp only [readExtent, if_neg hid, hplain]

theorem fillExtent_of_clear {e : FileExtent} {size : Nat} {out : Bytes} (hbs : 0 < blockSize)
    (h : e.physBlockNum ≠ 0 → e.physBlockNum * blockSize ≤ u64Max → ∀ n ≤ e.len,
      ∀ data, image.readExact (e.physBlockNum * blockSize) n = .ok data →
      readExtent xts image (some vek) blockSize e (e.physBlockNum * blockSize) n = .ok data) :
    fillExtent xts image (some vek) blockSize size out e
      = fillExtent xts image none blockSize size out e := by
  by_cases hskip : e.logicalOffset ≥ size ∨ e.physBlockNum = 0
  · rw [fillExtent_skip hskip, fillExtent_skip hskip]
  · unfold fillExtent
    rw [if_neg hskip, if_neg hskip, if_neg (Nat.pos_iff_ne_zero.mp hbs),
      if_neg (Nat.pos_iff_ne_zero.mp hbs)]
    rw [not_or] at hskip
    by_cases hmul : e.physBlockNum * blockSize ≤ u64Max
    · simp only [checkedMul_of_le hmul]
      rw [readExtent_of_clear hbs (h hskip.2 hmul _ (Nat.min_le_left _ _))]
    · simp only [checkedMul_of_lt (Nat.not_le.mp hmul)]

theorem sameNavigation_setVek (hnone : volume.vek = none)
    (h : StoredInClear xts image blockSize vek volume) :
    SameNavigation xts image blockSize volume (volume.setVek vek) where
  walk target visit acc := (walkFsTree_setVek hnone h target visit acc).symm
  inode oid := by
    rw [loadInode, loadInode, forEachFsRecordForOid, forEachFsRecordForOid,
      walkFsTree_setVek hnone h]
    rfl
  stream streamOid size := by
    have hlist : listExtents xts image (volume.setVek vek) blockSize streamOid
        = listExtents xts image volume blockSize streamOid := by
      rw [listExtents, listExtents, forEachFsRecordForOid, forEachFsRecordForOid,
        walkFsTree_setVek hnone h]
    rw [readStream, readStream, hlist, hnone]
    cases hexts : listExtents xts image volume blockSize streamOid with
    | error f => rfl
    | ok exts =>
      have hbs := Nat.pos_of_ne_zero (blockSize_ne_zero_of_listExtents hexts)
      have hfill := foldlM_congr_mem
        (f := fillExtent xts image none blockSize size)
        (g := fillExtent xts image (some vek) blockSize size)
        (fun e he out => (fillExtent_of_clear hbs (h.extents streamOid exts hexts e he)).symm)
        (List.replicate size 0)
      simp only [ok_bind, hfill]
      rfl

/-- **When unlocking carries over to a snapshot.**  Through the volume that
`mount_snapshot` returns for a live volume with a key, navigation is that through the
frozen superblock with the live object map and the key, and reads decrypted nodes and
extents, exactly if decryption changes no node and no extent of the snapshot. -/
theorem mounted_navigation_iff {live frozen : ApfsVolume} {snapshot : Snapshot} {block : Bytes}
    (hread : image.readBlock snapshot.sblockOid blockSize = .ok block)
    (hparse : ApfsVolume.parse block = .ok frozen) :
    ∃ mounted, mountSnapshot image (live.setVek vek) blockSize snapshot = .ok mounted ∧
      (SameNavigation xts image blockSize mounted
            ((frozen.withOmapOid live.omapOid).setVek vek) ∧
          ReadsDecrypted xts image blockSize vek mounted ↔
        StoredInClear xts image blockSize vek (frozen.withOmapOid live.omapOid)) := by
  have hnone : (frozen.withOmapOid live.omapOid).vek = none := by
    rw [ApfsVolume.withOmapOid_vek, ApfsVolume.parse_vek hparse]
  refine ⟨frozen.withOmapOid live.omapOid, ?_, ?_, ?_⟩
  · rw [mountSnapshot, hread, ok_bind, hparse]
    rfl
  · rintro ⟨_, hdec⟩
    refine ⟨?_, ?_⟩
    · intro omap homap oid hreach
      have hnode := hdec.nodes omap homap oid hreach
      rw [hnone, virtualNodeBuf_none] at hnode
      exact (snapNodeBuf_decrypts_iff _ _ _ _ _ _ _).mp hnode
    · intro streamOid exts hexts e he hphys hmul n hn data hdata
      rw [← hdec.extents streamOid exts hexts e he hphys hmul n hn, hnone]
      exact hdata
  · intro hclear
    refine ⟨sameNavigation_setVek hnone hclear, ?_, ?_⟩
    · intro omap homap oid hreach
      rw [hnone, virtualNodeBuf_none]
      exact (snapNodeBuf_decrypts_iff _ _ _ _ _ _ _).mpr (hclear.nodes omap homap oid hreach)
    · intro streamOid exts hexts e he hphys hmul n hn
      have hbs := Nat.pos_of_ne_zero (blockSize_ne_zero_of_listExtents hexts)
      rw [hnone]
      exact (readExtent_of_clear hbs
        (hclear.extents streamOid exts hexts e he hphys hmul n hn)).symm

end Mounted

/-! ### A snapshot of an encrypted volume

The frozen superblock is block `3`.  The fs-tree is the one leaf at block `2`, with an
extent of one block. -/

def vaultNode (cryptoId : Nat) : Bytes :=
  btreeNode 1024 10 1 0x3 0 [extentRecord 5 ⟨0, 1024, 4, cryptoId⟩]

def vaultSuperblock : Bytes := apsbBlock 1024 20 1 0 10 0

def vaultVolume : ApfsVolume := .ofApsb 20 1 0 10 0

def vaultSnapshot : Snapshot := parseSnapMetadata 1 (toLeBytes 8 0 ++ toLeBytes 8 3)

def vaultBlocks (flags : Nat) (node content : Bytes) : List Bytes :=
  [omapBlock 1024 0 1, btreeNode 1024 1 1 0x7 0 [omapRecord 10 1 flags 2], node, vaultSuperblock,
    content]

def clearVault : Image := .ofBlocks (vaultBlocks 0 (vaultNode 0) (List.replicate 1024 9))

theorem hasBlocks_vault (flags : Nat) {node content : Bytes} (hnode : node.length = 1024)
    (hcontent : content.length = 1024) :
    (Image.ofBlocks (vaultBlocks flags node content)).HasBlocks 1024
      (vaultBlocks flags node content) := by
  refine Image.hasBlocks_ofBlocks (fun b hb => ?_) ?_
  · simp only [vaultBlocks, List.mem_cons, List.not_mem_nil, or_false] at hb
    rcases hb with rfl | rfl | rfl | rfl | rfl
    · exact length_omapBlock (by decide) ..
    · exact length_btreeNode (by
        simp only [tocBytes, omapRecord, List.flatMap_cons, List.flatMap_nil, List.reverse_cons,
          List.reverse_nil, List.nil_append, List.length_append, length_toLeBytes]
        decide) ..
    · exact hnode
    · exact length_apsbBlock (by decide) ..
    · exact hcontent
  · rw [show (vaultBlocks flags node content).length = 5 from rfl]
    decide

theorem hasBlocks_clearVault :
    clearVault.HasBlocks 1024 (vaultBlocks 0 (vaultNode 0) (List.replicate 1024 9)) :=
  hasBlocks_vault 0 (length_btreeNode (by decide) ..) List.length_replicate

/-- What the leaf of the object map says, once it is laid out. -/
def VaultEntry (flags : Nat) : Prop :=
  (parseNodeHeader (btreeNode 1024 1 1 0x7 0 [omapRecord 10 1 flags 2])).map
      BTreeNodeHeader.isLeaf = some true ∧
    omapScan 10 1 (nodeEntries (btreeNode 1024 1 1 0x7 0 [omapRecord 10 1 flags 2]) .omap)
      = some ⟨10, 1, 2, 4096, flags⟩

instance (flags : Nat) : Decidable (VaultEntry flags) := inferInstanceAs (Decidable (_ ∧ _))

theorem parse_vaultSuperblock : ApfsVolume.parse vaultSuperblock = .ok vaultVolume := by
  decide +kernel

section Vault

variable {image : Image} {flags : Nat} {node content : Bytes}
  (h : image.HasBlocks 1024 (vaultBlocks flags node content))

include h

theorem homap_vault : readObjectMap image 0 1024 = .ok ⟨0, 0x40000002, 1, 0⟩ := by
  have homap : (vaultBlocks flags node content)[0]? = some (omapBlock 1024 0 1) := rfl
  rw [readObjectMap, h.readBlock homap, ok_bind]
  decide +kernel

theorem resolve_vault (he : VaultEntry flags) :
    (⟨0, 0x40000002, 1, 0⟩ : ObjectMap).resolve image 10 1 1024
      = .ok ⟨10, 1, 2, 4096, flags⟩ := by
  have htree : (vaultBlocks flags node content)[1]?
      = some (btreeNode 1024 1 1 0x7 0 [omapRecord 10 1 flags 2]) := rfl
  obtain ⟨hdr, hhdr, hleaf⟩ := Option.map_eq_some_iff.mp he.1
  have hread := h.readVerifiedNode htree (btreeNode_verifies _ _ _ _ _ _)
  have hroot : (⟨0, 0x40000002, 1, 0⟩ : ObjectMap).treeOid = 1 := rfl
  exact resolve_of_leaf hroot hread hhdr hleaf he.2

theorem readBlock_vaultSnapshot :
    image.readBlock vaultSnapshot.sblockOid 1024 = .ok vaultSuperblock := by
  have hsblock : vaultSnapshot.sblockOid = 3 := by decide
  rw [hsblock]
  exact h.readBlock rfl

theorem mountSnapshot_vault :
    mountSnapshot image ((ApfsVolume.ofRoots 1 0 10 0).setVek shiftVek) 1024 vaultSnapshot
      = .ok vaultVolume := by
  rw [mountSnapshot, readBlock_vaultSnapshot h, ok_bind, parse_vaultSuperblock]
  rfl

/-- Without a key the node is verified as it stands. -/
theorem fetchVirtual_vault (he : VaultEntry flags) :
    fetchVirtual .shift image ⟨0, 0x40000002, 1, 0⟩ none 1 1024 10
      = (verifyChecksum node (headerOidOr node 2)).map (fun _ => nodeView node .fsTree) := by
  have hnode : (vaultBlocks flags node content)[2]? = some node := rfl
  have hbuf := snapNodeBuf_of_block _ _ _ _ (resolve_vault h he) (h.readBlock hnode)
  rw [fetchVirtual, readVirtualNode_eq_verify, virtualNodeBuf_none, hbuf, ok_bind, verifyNode]
  cases verifyChecksum node (headerOidOr node 2) <;> rfl

end Vault

theorem homap_clearVault : readObjectMap clearVault 0 1024 = .ok ⟨0, 0x40000002, 1, 0⟩ :=
  homap_vault hasBlocks_clearVault

theorem vaultEntry_clear : VaultEntry 0 := by decide +kernel

theorem resolve_clearVault :
    (⟨0, 0x40000002, 1, 0⟩ : ObjectMap).resolve clearVault 10 1 1024
      = .ok ⟨10, 1, 2, 4096, 0⟩ :=
  resolve_vault hasBlocks_clearVault vaultEntry_clear

theorem fetchVirtual_clearVault :
    fetchVirtual .shift clearVault ⟨0, 0x40000002, 1, 0⟩ none 1 1024 10
      = .ok (.leaf [extentRecord 5 ⟨0, 1024, 4, 0⟩]) := by
  have hview : nodeView (vaultNode 0) .fsTree = .leaf [extentRecord 5 ⟨0, 1024, 4, 0⟩] := by
    decide +kernel
  have hsum : verifyChecksum (vaultNode 0) (headerOidOr (vaultNode 0) 2) = .ok () := by
    rw [verifyChecksum_eq_ok_iff, vaultNode, btreeNode_verifies]
  rw [fetchVirtual_vault hasBlocks_clearVault vaultEntry_clear, hsum, ← hview]
  rfl

/-- The one record of the tree is visited whatever the target. -/
theorem fsRecords_clearVault (target : Option Nat) :
    fsRecords .shift clearVault vaultVolume 1024 target
      = .ok [extentRecord 5 ⟨0, 1024, 4, 0⟩] := by
  have homap : readObjectMap clearVault vaultVolume.omapOid 1024 = .ok ⟨0, 0x40000002, 1, 0⟩ :=
    homap_clearVault
  have hroot : fetchVirtual .shift clearVault ⟨0, 0x40000002, 1, 0⟩ vaultVolume.vek vaultVolume.xid
      1024 vaultVolume.rootTreeOid = .ok (.leaf [extentRecord 5 ⟨0, 1024, 4, 0⟩]) :=
    fetchVirtual_clearVault
  rw [fsRecords, walkFsTree_of_root_leaf _ _ homap hroot]
  rfl

theorem storedInClear_clearVault :
    StoredInClear .shift clearVault 1024 shiftVek vaultVolume where
  nodes := by
    intro omap homap oid hreach entry raw hentry hflag _
    have homap' : readObjectMap clearVault vaultVolume.omapOid 1024
        = .ok ⟨0, 0x40000002, 1, 0⟩ := homap_clearVault
    rw [homap', Except.ok.injEq] at homap
    subst homap
    have hstored : (Tree.leaf 10 [extentRecord 5 ⟨0, 1024, 4, 0⟩] : NodeTree).Stored
        (fetchVirtual .shift clearVault ⟨0, 0x40000002, 1, 0⟩ none 1 1024) :=
      fetchVirtual_clearVault
    have hmem := (Tree.mem_nodes_iff_reaches hstored oid).mpr hreach
    rw [Tree.nodes, List.mem_singleton] at hmem
    subst hmem
    have hresolve : (⟨0, 0x40000002, 1, 0⟩ : ObjectMap).resolve clearVault 10 vaultVolume.xid 1024
        = .ok ⟨10, 1, 2, 4096, 0⟩ := resolve_clearVault
    rw [hresolve, Except.ok.injEq] at hentry
    subst hentry
    exact absurd rfl hflag
  extents := by
    intro streamOid exts hexts e he _ _ n _ data hdata
    rw [listExtents_eq, fsRecords_clearVault, Except.map, Except.ok.injEq] at hexts
    rw [← hexts, List.mem_insertionSort, fileExtents, List.mem_map] at he
    obtain ⟨record, hrecord, rfl⟩ := he
    obtain rfl := List.mem_singleton.mp (List.mem_of_mem_filter hrecord)
    have hid : (decodeFileExtent (extentRecord 5 ⟨0, 1024, 4, 0⟩).key
        (extentRecord 5 ⟨0, 1024, 4, 0⟩).value).cryptoId = 0 := by decide +kernel
    rw [readExtent, if_neg (by rw [hid]; decide)]
    exact hdata

theorem mounted_navigation_clearVault :
    SameNavigation .shift clearVault 1024 vaultVolume (vaultVolume.setVek shiftVek) := by
  obtain ⟨mounted, hmount, hiff⟩ := @mounted_navigation_iff .shift clearVault 1024 shiftVek
    (.ofRoots 1 0 10 0) vaultVolume vaultSnapshot vaultSuperblock
    (readBlock_vaultSnapshot hasBlocks_clearVault) parse_vaultSuperblock
  rw [mountSnapshot_vault hasBlocks_clearVault, Except.ok.injEq] at hmount
  subst hmount
  exact (hiff.mpr storedInClear_clearVault).1

def lockedVaultNode : Bytes := (shiftCipher shiftVek).encryptBlock 1024 2 (vaultNode 7)

def lockedVault : Image :=
  .ofBlocks (vaultBlocks 4 lockedVaultNode
    ((shiftCipher shiftVek).encryptBlock 1024 7 (List.replicate 1024 9)))

theorem hasBlocks_lockedVault : lockedVault.HasBlocks 1024 (vaultBlocks 4 lockedVaultNode
    ((shiftCipher shiftVek).encryptBlock 1024 7 (List.replicate 1024 9))) :=
  hasBlocks_vault 4
    (length_encryptBlock (shiftCipher shiftVek) (length_btreeNode (by decide) ..) (by decide) 2)
    (length_encryptBlock (shiftCipher shiftVek) List.length_replicate (by decide) 7)

/-- The key opens the file in the live volume, and not in the snapshot mounted from it. -/
theorem mounted_navigation_lockedVault :
    mountSnapshot lockedVault ((ApfsVolume.ofRoots 1 0 10 0).setVek shiftVek) 1024 vaultSnapshot
        = .ok vaultVolume ∧
      readStream .shift lockedVault vaultVolume 1024 5 4 = .error (.err (.checksumMismatch
        289360691352306702 3561357727981340615 10216653628056970982)) ∧
      readStream .shift lockedVault (vaultVolume.setVek shiftVek) 1024 5 4
        = .ok [9, 9, 9, 9] := by
  have hlocked := hasBlocks_lockedVault
  have he : VaultEntry 4 := by decide +kernel
  have hsum : verifyChecksum lockedVaultNode (headerOidOr lockedVaultNode 2) = .error (.err
      (.checksumMismatch 289360691352306702 3561357727981340615 10216653628056970982)) := by
    decide +kernel
  have hroot : fetchVirtual .shift lockedVault ⟨0, 0x40000002, 1, 0⟩ vaultVolume.vek
      vaultVolume.xid 1024 vaultVolume.rootTreeOid = .error (.err
      (.checksumMismatch 289360691352306702 3561357727981340615 10216653628056970982)) :=
    (fetchVirtual_vault hlocked he).trans (by rw [hsum]; rfl)
  have homap : readObjectMap lockedVault vaultVolume.omapOid 1024 = .ok ⟨0, 0x40000002, 1, 0⟩ :=
    homap_vault hlocked
  refine ⟨mountSnapshot_vault hlocked, ?_, by decide +kernel⟩
  rw [readStream, if_neg (by decide), listExtents_eq, fsRecords,
    walkFsTree_of_root_error _ _ homap hroot]
  rfl

end ApfsForensic
