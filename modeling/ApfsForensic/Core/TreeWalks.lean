import ApfsForensic.Core.Dir
import ApfsForensic.Walk.Unfold

/-!
# Tree walks on arbitrary images

The walks of `core/src/btree.rs` and `core/src/dir.rs` on images of which nothing is
known: node pointers may form cycles, meet, or point anywhere.

* `leafEntryRun`, `fsTreeRun`: the two walks with the block addresses, or virtual
  oids, that they read.  `tree_walks_safe` is `loggedWalk_safe` for both.
* `leaf_walk_complete_iff`: `for_each_leaf_entry` passes over a block number whose
  byte offset leaves `u64` as if it were an empty leaf.  A walk that returns `Ok`
  is complete exactly if no such number is behind its root.
-/

namespace ApfsForensic

open Walk

/-! ### What the walks read -/

section Runs

variable {σ : Type} (image : Image) (blockSize : Nat)

/-- `for_each_leaf_entry` with the addresses of the blocks it reads. -/
def leafEntryRun (subtype : BTreeSubtype) (rootPaddr : Nat) (visit : σ → Bytes → Bytes → σ)
    (acc : σ) : List Nat × Result (List Nat × σ) :=
  loggedWalk (fetchNode image blockSize subtype) id (.err (.cycleGuard maxBtreeDepth))
    (fun a e => visit a e.key e.value) maxBtreeDepth rootPaddr ([], acc)

/-- The descent of `walk_fs_tree` with the oids of the nodes it reads. -/
def fsTreeRun (xts : Xts) (omap : ObjectMap) (volume : ApfsVolume) (targetOid : Option Nat)
    (visit : σ → Bytes → Bytes → σ) (acc : σ) : List Nat × Result (List Nat × σ) :=
  loggedWalk (fetchPruned xts image omap volume.vek volume.xid blockSize targetOid) id
    (.err (.cycleGuard maxFstreeDepth)) (fun a e => visit a e.key e.value) maxFstreeDepth
    volume.rootTreeOid ([], acc)

theorem leafEntryRun_snd (subtype : BTreeSubtype) (rootPaddr : Nat)
    (visit : σ → Bytes → Bytes → σ) (acc : σ) :
    (leafEntryRun image blockSize subtype rootPaddr visit acc).2
      = descend image blockSize subtype visit maxBtreeDepth rootPaddr ([], acc) := by
  rw [leafEntryRun, loggedWalk_snd, descend_eq_guardedWalk]

theorem fsTreeRun_snd (xts : Xts) (omap : ObjectMap) (volume : ApfsVolume)
    (targetOid : Option Nat) (visit : σ → Bytes → Bytes → σ) (acc : σ) :
    (fsTreeRun image blockSize xts omap volume targetOid visit acc).2
      = descendVirtual xts image omap volume.vek volume.xid blockSize targetOid visit
          maxFstreeDepth volume.rootTreeOid ([], acc) := by
  rw [fsTreeRun, loggedWalk_snd, descendVirtual_eq_guardedWalk]

/-- The outcome of `for_each_leaf_entry` is that of its run. -/
theorem forEachLeafEntry_eq_run (subtype : BTreeSubtype) (rootPaddr : Nat)
    (visit : σ → Bytes → Bytes → σ) (acc : σ) :
    forEachLeafEntry image blockSize subtype rootPaddr visit acc
      = (leafEntryRun image blockSize subtype rootPaddr visit acc).2.map Prod.snd := by
  rw [leafEntryRun_snd, forEachLeafEntry]
  cases descend image blockSize subtype visit maxBtreeDepth rootPaddr ([], acc) <;> rfl

theorem walkFsTree_eq_run {xts : Xts} {omap : ObjectMap} {volume : ApfsVolume}
    (homap : readObjectMap image volume.omapOid blockSize = .ok omap) (targetOid : Option Nat)
    (visit : σ → Bytes → Bytes → σ) (acc : σ) :
    walkFsTree xts image volume blockSize targetOid visit acc
      = (fsTreeRun image blockSize xts omap volume targetOid visit acc).2.map Prod.snd := by
  rw [fsTreeRun_snd, walkFsTree, homap, ok_bind]
  cases descendVirtual xts image omap volume.vek volume.xid blockSize targetOid visit
    maxFstreeDepth volume.rootTreeOid ([], acc) <;> rfl

/-- A walk does not get past a root that cannot be read. -/
theorem walkFsTree_of_root_error {xts : Xts} {omap : ObjectMap} {volume : ApfsVolume} {f : Fault}
    (homap : readObjectMap image volume.omapOid blockSize = .ok omap)
    (hroot : fetchVirtual xts image omap volume.vek volume.xid blockSize volume.rootTreeOid
      = .error f) (targetOid : Option Nat) (visit : σ → Bytes → Bytes → σ) (acc : σ) :
    walkFsTree xts image volume blockSize targetOid visit acc = .error f := by
  rw [walkFsTree_eq_run image blockSize homap, fsTreeRun, maxFstreeDepth, loggedWalk,
    if_neg List.not_mem_nil, fetchPruned, hroot]
  rfl

/-- The root may be a leaf. -/
theorem walkFsTree_of_root_leaf {xts : Xts} {omap : ObjectMap} {volume : ApfsVolume}
    {rs : List Entry} (homap : readObjectMap image volume.omapOid blockSize = .ok omap)
    (hroot : fetchVirtual xts image omap volume.vek volume.xid blockSize volume.rootTreeOid
      = .ok (.leaf rs)) (targetOid : Option Nat) (visit : σ → Bytes → Bytes → σ) (acc : σ) :
    walkFsTree xts image volume blockSize targetOid visit acc
      = .ok (rs.foldl (fun a e => visit a e.key e.value) acc) := by
  rw [walkFsTree_eq_run image blockSize homap, fsTreeRun, maxFstreeDepth, loggedWalk,
    if_neg List.not_mem_nil, fetchPruned, hroot]
  rfl

end Runs

/-- **Tree walks are safe on any image.**  `for_each_leaf_entry` reads no block address
twice and the fs-tree walk no oid.  Where the unfolding of the child pointers comes
to a node that was read before, or to depth 64, the outcome is `CycleGuard`.  A walk
that returns `Ok` has read the nodes of a tree of at most 64 levels. -/
theorem tree_walks_safe {σ : Type} (image : Image) (blockSize : Nat)
    (visit : σ → Bytes → Bytes → σ) (acc : σ) :
    (∀ (subtype : BTreeSubtype) (rootPaddr : Nat),
      SafeRun (fetchNode image blockSize subtype) id (.err (.cycleGuard maxBtreeDepth))
          (fun a e => visit a e.key e.value) maxBtreeDepth rootPaddr acc
          (leafEntryRun image blockSize subtype rootPaddr visit acc) ∧
        forEachLeafEntry image blockSize subtype rootPaddr visit acc
          = (leafEntryRun image blockSize subtype rootPaddr visit acc).2.map Prod.snd) ∧
    (∀ (xts : Xts) (volume : ApfsVolume) (omap : ObjectMap) (targetOid : Option Nat),
      readObjectMap image volume.omapOid blockSize = .ok omap →
      SafeRun (fetchPruned xts image omap volume.vek volume.xid blockSize targetOid) id
          (.err (.cycleGuard maxFstreeDepth)) (fun a e => visit a e.key e.value) maxFstreeDepth
          volume.rootTreeOid acc
          (fsTreeRun image blockSize xts omap volume targetOid visit acc) ∧
        walkFsTree xts image volume blockSize targetOid visit acc
          = (fsTreeRun image blockSize xts omap volume targetOid visit acc).2.map Prod.snd) := by
  constructor
  · intro subtype rootPaddr
    exact ⟨loggedWalk_safe _ _ _ _ _ _ _,
      forEachLeafEntry_eq_run image blockSize subtype rootPaddr visit acc⟩
  · intro xts volume omap targetOid homap
    exact ⟨loggedWalk_safe _ _ _ _ _ _ _,
      walkFsTree_eq_run image blockSize homap targetOid visit acc⟩

/-! ### A cycle of two nodes

Node `10` of the fs-tree has the child `11`, and that one has the child `10`. -/

def cycleImage : Image :=
  ⟨omapBlock 256 0 1 ++
    btreeNode 256 1 1 0x7 0 [omapRecord 10 1 0 2, omapRecord 11 1 0 3] ++
    btreeNode 256 10 1 0x1 1 [childRecord (jkeyBytes 3 2) 11] ++
    btreeNode 256 11 1 0x0 1 [childRecord (jkeyBytes 3 2) 10], by decide +kernel⟩

theorem walkFsTree_cycleImage :
    walkFsTree .uncalled cycleImage (.ofRoots 1 0 10 0) 256 none (fun n _ _ => n + 1) 0
      = .error (.err (.cycleGuard 64)) := by
  have homap : readObjectMap cycleImage 0 256 = .ok ⟨0, 0x40000002, 1, 0⟩ := by decide +kernel
  obtain ⟨hsafe, hrun⟩ := (tree_walks_safe cycleImage 256 (fun n _ _ => n + 1) 0).2 .uncalled
    (.ofRoots 1 0 10 0) ⟨0, 0x40000002, 1, 0⟩ none homap
  have hunfold : Unfolds (fetchPruned .uncalled cycleImage ⟨0, 0x40000002, 1, 0⟩ none 1 256 none)
      [(10, 0)] [10, 11] [(10, 2)] := by
    have h10 : fetchPruned .uncalled cycleImage ⟨0, 0x40000002, 1, 0⟩ none 1 256 none 10
        = .ok (.index [(jkeyBytes 3 2, 11)]) := by decide +kernel
    have h11 : fetchPruned .uncalled cycleImage ⟨0, 0x40000002, 1, 0⟩ none 1 256 none 11
        = .ok (.index [(jkeyBytes 3 2, 10)]) := by decide +kernel
    exact .index h10 (.index h11 (.refl _))
  rw [hrun, hsafe.guarded hunfold (Or.inl (by decide))]
  rfl

/-! ### Completeness -/

/-- The block at the address lies in the image and its checksum matches. -/
def ReadAndVerified (image : Image) (blockSize paddr : Nat) : Prop :=
  ∃ buf, image.readExact (paddr * blockSize) blockSize = .ok buf ∧
    fletcher64Stored buf = fletcher64Checksum buf

/-- The entries `es` are those of all leaves behind the root, in order, and every node
on the way was read and verified. -/
def CompleteWalk (image : Image) (blockSize : Nat) (subtype : BTreeSubtype) (rootPaddr : Nat)
    (es : List Entry) : Prop :=
  ∃ t : NodeTree, t.key = rootPaddr ∧ t.Stored (fetchNode image blockSize subtype) ∧
    (∀ paddr ∈ t.nodes, ReadAndVerified image blockSize paddr) ∧ es = t.records

theorem ReadAndVerified.offset_le {image : Image} {blockSize paddr : Nat} (hbs : blockSize ≠ 0)
    (h : ReadAndVerified image blockSize paddr) : paddr * blockSize ≤ u64Max := by
  obtain ⟨buf, hread, _⟩ := h
  obtain ⟨hin, _⟩ := Image.readExact_eq_ok_iff.mp hread
  have hlen := image.length_lt
  unfold u64Max
  omega

theorem readVerifiedNode_of_le {image : Image} {blockSize paddr : Nat}
    (hfit : paddr * blockSize ≤ u64Max) :
    readVerifiedNode image paddr blockSize = (do
      let buf ← image.readExact (paddr * blockSize) blockSize
      verifyChecksum buf (headerOidOr buf paddr)
      return some buf) := by
  rw [readVerifiedNode, checkedMul_of_le hfit]

/-- A node whose byte offset is a `u64` is found only by reading and verifying it. -/
theorem readAndVerified_of_fetchNode {image : Image} {blockSize paddr : Nat}
    {subtype : BTreeSubtype} {node : NodeView Bytes Nat Entry}
    (hfit : paddr * blockSize ≤ u64Max) (h : fetchNode image blockSize subtype paddr = .ok node) :
    ReadAndVerified image blockSize paddr := by
  cases hr : readVerifiedNode image paddr blockSize with
  | error f => rw [fetchNode, hr] at h; cases h
  | ok o =>
    rw [readVerifiedNode_of_le hfit] at hr
    simp only [bind_eq_ok_iff] at hr
    obtain ⟨buf, hread, _, hsum, _⟩ := hr
    exact ⟨buf, hread, verifyChecksum_eq_ok_iff.mp hsum⟩

/-- The walk collects the records of a tree that is stored behind the root. -/
theorem tree_of_forEachLeafEntry {image : Image} {blockSize rootPaddr : Nat}
    {subtype : BTreeSubtype} {es : List Entry}
    (h : forEachLeafEntry image blockSize subtype rootPaddr
      (fun (es : List Entry) key value => es ++ [⟨key, value⟩]) [] = .ok es) :
    ∃ t : NodeTree, t.key = rootPaddr ∧ t.Stored (fetchNode image blockSize subtype) ∧
      es = t.records := by
  rw [forEachLeafEntry, bind_eq_ok_iff] at h
  obtain ⟨s, hwalk, hs⟩ := h
  rw [descend_eq_guardedWalk] at hwalk
  obtain ⟨t, hkey, hstored, _, _, rfl⟩ := guardedWalk_tree _ _ _ _ _ _ _ _ _ hwalk
  cases hs
  exact ⟨t, hkey, hstored, by rw [foldl_snoc, List.nil_append]⟩

/-- A walk of blocks without bytes fails on the checksum of its root. -/
theorem blockSize_ne_zero_of_forEachLeafEntry {image : Image} {blockSize rootPaddr : Nat}
    {subtype : BTreeSubtype} {σ : Type} {visit : σ → Bytes → Bytes → σ} {acc out : σ}
    (h : forEachLeafEntry image blockSize subtype rootPaddr visit acc = .ok out) :
    blockSize ≠ 0 := by
  rintro rfl
  have hroot : fetchNode image 0 subtype rootPaddr
      = .error (.err (.checksumMismatch rootPaddr 0 (fletcher64Checksum []))) := by
    rw [fetchNode, readVerifiedNode_of_le (by rw [Nat.mul_zero]; exact Nat.zero_le _)]
    have hread : image.readExact (rootPaddr * 0) 0 = .ok [] :=
      Image.readExact_eq_ok_iff.mpr ⟨Or.inl rfl, by rw [List.take_zero]⟩
    rw [hread]
    rfl
  rw [forEachLeafEntry, descend_eq_guardedWalk, maxBtreeDepth, guardedWalk, if_neg (by simp),
    hroot] at h
  cases h

/-- **When a walk that returns `Ok` is complete.**  Exactly if no block number behind the
root, its own included, has a byte offset past `u64`. -/
theorem leaf_walk_complete_iff {image : Image} {blockSize rootPaddr : Nat}
    {subtype : BTreeSubtype} {es : List Entry}
    (hok : forEachLeafEntry image blockSize subtype rootPaddr
      (fun (es : List Entry) key value => es ++ [⟨key, value⟩]) [] = .ok es) :
    CompleteWalk image blockSize subtype rootPaddr es ↔
      ∀ paddr, Reaches (fetchNode image blockSize subtype) rootPaddr paddr →
        paddr * blockSize ≤ u64Max := by
  constructor
  · rintro ⟨t, rfl, hstored, hread, _⟩ paddr hreach
    have hmem := (Tree.mem_nodes_iff_reaches hstored paddr).mpr hreach
    exact (hread paddr hmem).offset_le (blockSize_ne_zero_of_forEachLeafEntry hok)
  · intro hfit
    obtain ⟨t, rfl, hstored, rfl⟩ := tree_of_forEachLeafEntry hok
    refine ⟨t, rfl, hstored, ?_, rfl⟩
    intro paddr hmem
    obtain ⟨node, hnode⟩ := Tree.fetch_ok_of_mem hstored paddr hmem
    exact readAndVerified_of_fetchNode (hfit paddr (Tree.reaches_of_mem hstored paddr hmem)) hnode

theorem leaf_walk_complete_twoLeafImage :
    CompleteWalk twoLeafImage 160 .omap 0 twoLeafTree.records := by
  have hstored := twoLeafTree_wellFormed.stored
  have hfit : ∀ paddr ∈ twoLeafTree.nodes, paddr * 160 ≤ u64Max := by decide
  refine (leaf_walk_complete_iff (forEachLeafEntry_ok twoLeafTree_wellFormed)).mpr ?_
  intro paddr hreach
  exact hfit paddr ((Tree.mem_nodes_iff_reaches hstored paddr).mpr hreach)

/-! ### A lost subtree

The second child pointer of the root is `2 ^ 60`: a number no image has a block for,
and whose byte offset is no `u64`. -/

def lostChildImage : Image :=
  ⟨btreeNode 160 0 9 0x5 1 [childRecord (omapRecord 5 1 0 0).key 1,
      childRecord (omapRecord 5 9 0 0).key (2 ^ 60)] ++
    btreeNode 160 1 9 0x6 0 [omapRecord 5 1 0 100, omapRecord 5 4 0 101], by decide +kernel⟩

/-- The walk returns `Ok` with the entries of the first child. -/
theorem leaf_walk_lostChildImage :
    forEachLeafEntry lostChildImage 160 .omap 0
        (fun (es : List Entry) key value => es ++ [⟨key, value⟩]) []
      = .ok [omapRecord 5 1 0 100, omapRecord 5 4 0 101] ∧
    ¬ CompleteWalk lostChildImage 160 .omap 0 [omapRecord 5 1 0 100, omapRecord 5 4 0 101] := by
  constructor
  · decide +kernel
  · rintro ⟨t, hkey, hstored, hread, _⟩
    have hroot : fetchNode lostChildImage 160 .omap t.key = .ok (.index
        [((omapRecord 5 1 0 0).key, 1), ((omapRecord 5 9 0 0).key, 2 ^ 60)]) := by
      rw [hkey]
      decide +kernel
    have hmem := Tree.child_mem hstored t.key_mem_nodes hroot
      ((omapRecord 5 9 0 0).key, 2 ^ 60) (by simp)
    exact absurd ((hread _ hmem).offset_le (by decide)) (by decide)

end ApfsForensic
