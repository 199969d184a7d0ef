import ApfsForensic.Core.Dir
import Mathlib.Data.List.Sort

/-!
# Snapshots

`core/src/snapshot.rs`.  The snapshots of a volume stand in one B-tree.  Its root is
read at a physical block number, its other nodes by virtual oids, and the walk
keeps the numbers of both kinds in one visited set.

* `SnapRef` keeps the two kinds apart; `SnapRef.number` is what the visited set
  holds of either.  `descendSnap_eq_guardedWalk`: the descent is the library walk
  guarded by `number`.
* `ValidSnapTree`: the tree the image stores, with distinct child oids and at most
  64 levels.
* `forEachSnapRecord_ok`, `forEachSnapRecord_cycle`: the walk of a valid tree goes
  through when no child oid is the number of the root's block, and is refused as a
  cycle when one is.
* `list_and_resolve_iff`: so the two queries answer as they should exactly on the
  former trees.
-/

namespace ApfsForensic

open Walk

/-! ### Records -/

/-- `MAX_SNAP_TREE_DEPTH`. -/
def maxSnapTreeDepth : Nat := 64

/-- `MAX_SNAP_NAME_LEN`. -/
def maxSnapNameLen : Nat := 4096

/-- `Snapshot`. -/
structure Snapshot where
  xid : Nat
  name : String
  createTime : Nat
  changeTime : Nat
  sblockOid : Nat
  extentrefTreeOid : Nat
  inum : Nat
  flags : Nat
  deriving DecidableEq, Repr

/-- `parse_snap_metadata`. -/
def parseSnapMetadata (xid : Nat) (value : Bytes) : Snapshot :=
  let nameLen := min (leU16 value 48) maxSnapNameLen
  { xid
    name := ((getRange value 50 (50 + nameLen)).map decodeCstr).getD ""
    createTime := leU64 value 16
    changeTime := leU64 value 24
    sblockOid := leU64 value 8
    extentrefTreeOid := leU64 value 0
    inum := leU64 value 32
    flags := leU32 value 44 }

/-- `decode_snap_name_key`. -/
def decodeSnapNameKey (key : Bytes) : Option String :=
  let nameLen := min (leU16 key 8) maxSnapNameLen
  if nameLen = 0 then none else (getRange key 10 (10 + nameLen)).map decodeCstr

/-! ### The walk -/

section Walk

variable {σ : Type} (image : Image) (omap : ObjectMap) (xid blockSize : Nat)

/-- A node of the tree: the root is its own block address, any other node is
resolved.  Its checksum is verified before it is used. -/
def readSnapNode (isRoot : Bool) (nodeOid : Nat) : Result Bytes := do
  let paddr ← if isRoot then pure nodeOid
    else (omap.resolve image nodeOid xid blockSize).map OmapEntry.paddr
  let buf ← image.readBlock paddr blockSize
  verifyChecksum buf (headerOidOr buf paddr)
  return buf

/-- `descend_snap`, with `levels` of `maxSnapTreeDepth` left. -/
def descendSnap (visit : σ → Bytes → Bytes → σ) :
    (levels : Nat) → (isRoot : Bool) → (nodeOid : Nat) → List Nat × σ → Result (List Nat × σ)
  | 0, _, _, _ => throw (.err (.cycleGuard maxSnapTreeDepth))
  | levels + 1, isRoot, nodeOid, (visited, acc) => do
    if nodeOid ∈ visited then
      throw (.err (.cycleGuard maxSnapTreeDepth))
    let buf ← readSnapNode image omap xid blockSize isRoot nodeOid
    let some hdr := parseNodeHeader buf | return (nodeOid :: visited, acc)
    if hdr.isLeaf then
      return (nodeOid :: visited,
        (nodeEntries buf .fsTree).foldl (fun a e => visit a e.key e.value) acc)
    (nodeEntries buf .fsTree).foldlM
      (fun s e => descendSnap visit levels false (leU64 e.value 0) s) (nodeOid :: visited, acc)

end Walk

section Queries

variable {σ : Type} (image : Image) (volume : ApfsVolume) (blockSize : Nat)

/-- `for_each_snap_record`. -/
def forEachSnapRecord (visit : σ → Bytes → Bytes → σ) (acc : σ) : Result σ := do
  let omap ← readObjectMap image volume.omapOid blockSize
  let (_, acc) ← descendSnap image omap volume.xid blockSize visit maxSnapTreeDepth true
    volume.snapMetaTreeOid ([], acc)
  return acc

/-- `list_snapshots`: the walk, then `sort_by_key` on the xid. -/
def listSnapshots : Result (List Snapshot) := do
  let out ← forEachSnapRecord image volume blockSize (fun out key value =>
    if jkeyType key = some .snapMetadata then out ++ [parseSnapMetadata (jkeyOid key) value]
    else out) []
  return out.insertionSort (fun a b => a.xid ≤ b.xid)

/-- `resolve_snapshot_xid`. -/
def resolveSnapshotXid (name : String) : Result (Option Nat) :=
  forEachSnapRecord image volume blockSize (fun found key value =>
    if found.isSome then found
    else if jkeyType key ≠ some .snapName then found
    else if decodeSnapNameKey key = some name then some (leU64 value 0)
    else found) none

/-- `mount_snapshot`. -/
def mountSnapshot (snapshot : Snapshot) : Result ApfsVolume := do
  let buf ← image.readBlock snapshot.sblockOid blockSize
  let frozen ← ApfsVolume.parse buf
  return frozen.withOmapOid volume.omapOid

end Queries

/-! ### The descent as a library walk -/

/-- What a node of the tree is read through: the root through a block address, any
other node through a virtual oid. -/
inductive SnapRef where
  | root (paddr : Nat)
  | child (oid : Nat)
  deriving DecidableEq, Repr

/-- The number that the visited set keeps of a node. -/
def SnapRef.number : SnapRef → Nat
  | .root paddr => paddr
  | .child oid => oid

def SnapRef.isRoot : SnapRef → Bool
  | .root _ => true
  | .child _ => false

abbrev SnapTree := Tree Bytes SnapRef Entry

section Walk

variable {σ : Type} (image : Image) (omap : ObjectMap) (xid blockSize : Nat)

/-- The node behind a reference. -/
def fetchSnap (ref : SnapRef) : Result (NodeView Bytes SnapRef Entry) :=
  (readSnapNode image omap xid blockSize ref.isRoot ref.number).map
    (fun buf => (nodeView buf .fsTree).mapRefs .child)

theorem fetchSnap_root_of_block {paddr : Nat} {buf : Bytes}
    (hread : image.readBlock paddr blockSize = .ok buf)
    (hsum : fletcher64Stored buf = fletcher64Checksum buf) :
    fetchSnap image omap xid blockSize (.root paddr)
      = .ok ((nodeView buf .fsTree).mapRefs .child) := by
  rw [fetchSnap, readSnapNode]
  show Except.map _ (image.readBlock paddr blockSize >>= _) = _
  rw [hread, ok_bind, verifyChecksum_eq_ok_iff.mpr hsum]
  rfl

theorem fetchSnap_child_of_block {oid : Nat} {entry : OmapEntry} {buf : Bytes}
    (hentry : omap.resolve image oid xid blockSize = .ok entry)
    (hread : image.readBlock entry.paddr blockSize = .ok buf)
    (hsum : fletcher64Stored buf = fletcher64Checksum buf) :
    fetchSnap image omap xid blockSize (.child oid)
      = .ok ((nodeView buf .fsTree).mapRefs .child) := by
  rw [fetchSnap, readSnapNode]
  show Except.map _ ((omap.resolve image oid xid blockSize).map OmapEntry.paddr >>= _) = _
  rw [hentry]
  show Except.map _ (image.readBlock entry.paddr blockSize >>= _) = _
  rw [hread, ok_bind, verifyChecksum_eq_ok_iff.mpr hsum]
  rfl

theorem descendSnap_eq_guardedWalk (visit : σ → Bytes → Bytes → σ) :
    ∀ (levels : Nat) (ref : SnapRef) (s : List Nat × σ),
      descendSnap image omap xid blockSize visit levels ref.isRoot ref.number s
        = guardedWalk (fetchSnap image omap xid blockSize) SnapRef.number
            (.err (.cycleGuard maxSnapTreeDepth)) (fun a e => visit a e.key e.value) levels ref
            s := by
  intro levels
  induction levels with
  | zero => intro ref s; rfl
  | succ levels ih =>
    intro ref s
    obtain ⟨visited, acc⟩ := s
    rw [descendSnap, guardedWalk]
    by_cases hv : ref.number ∈ visited
    · rw [if_pos hv, if_pos hv]
      rfl
    · rw [if_neg hv, if_neg hv, fetchSnap]
      cases readSnapNode image omap xid blockSize ref.isRoot ref.number with
      | error f => rfl
      | ok buf =>
        cases hh : parseNodeHeader buf with
        | none =>
          simp only [ok_bind, Except.map, nodeView, hh]
          rfl
        | some hdr =>
          by_cases hl : hdr.isLeaf = true
          · simp only [ok_bind, Except.map, nodeView, hh, hl, if_true]
            rfl
          · simp only [ok_bind, Except.map, nodeView, hh, if_neg hl, NodeView.mapRefs, ← ih,
              List.foldlM_map]
            rfl

/-! ### Below the root every reference is virtual -/

theorem mapRefs_child {node : NodeView Bytes Nat Entry} {es : List (Bytes × SnapRef)}
    (h : node.mapRefs SnapRef.child = .index es) : ∀ e ∈ es, ∃ oid, e.2 = .child oid := by
  intro e he
  cases node with
  | leaf rs => exact absurd h (by simp [NodeView.mapRefs])
  | index es' =>
    rw [NodeView.mapRefs, NodeView.index.injEq] at h
    rw [← h, List.mem_map] at he
    obtain ⟨e', _, rfl⟩ := he
    exact ⟨e'.2, rfl⟩

theorem fetchSnap_children {ref : SnapRef} {es : List (Bytes × SnapRef)}
    (h : fetchSnap image omap xid blockSize ref = .ok (.index es)) :
    ∀ e ∈ es, ∃ oid, e.2 = .child oid := by
  unfold fetchSnap at h
  cases hr : readSnapNode image omap xid blockSize ref.isRoot ref.number with
  | error f => rw [hr] at h; exact absurd h (by simp [Except.map])
  | ok buf =>
    rw [hr, Except.map, Except.ok.injEq] at h
    exact mapRefs_child h

mutual

theorem Tree.mem_nodes_of_fetchSnap : ∀ (t : SnapTree),
    t.Stored (fetchSnap image omap xid blockSize) →
    ∀ k ∈ t.nodes, k = t.key ∨ ∃ oid, k = .child oid
  | .leaf r rs, _ => by
    intro k hk
    rw [Tree.nodes, List.mem_singleton] at hk
    exact Or.inl hk
  | .index r cs, hs => by
    intro k hk
    rw [Tree.nodes, List.mem_cons] at hk
    rw [Tree.Stored] at hs
    rcases hk with rfl | hk
    · exact Or.inl rfl
    · exact Or.inr (Forest.mem_nodes_of_fetchSnap cs hs.2
        (fetchSnap_children image omap xid blockSize hs.1) k hk)

theorem Forest.mem_nodes_of_fetchSnap : ∀ (cs : Forest Bytes SnapRef Entry),
    cs.Stored (fetchSnap image omap xid blockSize) →
    (∀ e ∈ cs.entries, ∃ oid, e.2 = .child oid) → ∀ k ∈ cs.nodes, ∃ oid, k = .child oid
  | .nil, _, _ => by
    intro k hk
    exact absurd hk (by simp [Forest.nodes])
  | .cons sep t rest, hs, hc => by
    intro k hk
    rw [Forest.Stored] at hs
    rw [Forest.entries, List.forall_mem_cons] at hc
    rw [Forest.nodes, List.mem_append] at hk
    rcases hk with hk | hk
    · rcases Tree.mem_nodes_of_fetchSnap t hs.1 k hk with rfl | hchild
      · exact hc.1
      · exact hchild
    · exact Forest.mem_nodes_of_fetchSnap rest hs.2 hc.2 k hk

end

end Walk

/-! ### Valid trees -/

/-- The image stores the snapshot-metadata tree `t`: the root at the block of the
volume superblock, every other node behind a virtual oid that resolves at the
volume's xid to a verified block. -/
structure ValidSnapTree (image : Image) (volume : ApfsVolume) (blockSize : Nat)
    (omap : ObjectMap) (t : SnapTree) : Prop where
  omap_ok : readObjectMap image volume.omapOid blockSize = .ok omap
  root : t.key = .root volume.snapMetaTreeOid
  stored : t.Stored (fetchSnap image omap volume.xid blockSize)
  height_le : t.height ≤ maxSnapTreeDepth
  distinct : t.nodes.Nodup

section Valid

variable {σ : Type} {image : Image} {volume : ApfsVolume} {blockSize : Nat} {omap : ObjectMap}
variable {t : SnapTree}

/-- A root that is a leaf. -/
theorem validSnapTree_leaf {block : Bytes} {records : List Entry}
    (homap : readObjectMap image volume.omapOid blockSize = .ok omap)
    (hread : image.readBlock volume.snapMetaTreeOid blockSize = .ok block)
    (hsum : fletcher64Stored block = fletcher64Checksum block)
    (hview : nodeView block .fsTree = .leaf records) :
    ValidSnapTree image volume blockSize omap
      (.leaf (.root volume.snapMetaTreeOid) records) := by
  have hfetch := fetchSnap_root_of_block image omap volume.xid blockSize hread hsum
  rw [hview] at hfetch
  exact ⟨homap, rfl, hfetch, by simp [Walk.Tree.height, maxSnapTreeDepth],
    by simp [Tree.nodes]⟩

/-- The guard sees a node twice only where a child has the number of the root. -/
theorem ValidSnapTree.fresh_iff (h : ValidSnapTree image volume blockSize omap t) :
    Fresh SnapRef.number t.nodes [] ↔
      ∀ oid, .child oid ∈ t.nodes → oid ≠ volume.snapMetaTreeOid := by
  have hkind := Tree.mem_nodes_of_fetchSnap image omap volume.xid blockSize t h.stored
  rw [h.root] at hkind
  have hrootmem : SnapRef.root volume.snapMetaTreeOid ∈ t.nodes := by
    rw [← h.root]
    cases t <;> simp [Tree.nodes]
  rw [Walk.fresh_iff, List.nodup_map_iff_inj_on h.distinct]
  constructor
  · rintro ⟨hinj, _⟩ oid hoid heq
    exact absurd (hinj _ hoid _ hrootmem heq) (by simp)
  · intro hne
    refine ⟨fun x hx y hy hxy => ?_, fun _ _ => List.not_mem_nil⟩
    rcases hkind x hx with rfl | ⟨a, rfl⟩ <;> rcases hkind y hy with rfl | ⟨b, rfl⟩
    · rfl
    · exact absurd hxy.symm (hne b hy)
    · exact absurd hxy (hne a hx)
    · exact congrArg SnapRef.child hxy

theorem forEachSnapRecord_ok (h : ValidSnapTree image volume blockSize omap t)
    (hne : ∀ oid, .child oid ∈ t.nodes → oid ≠ volume.snapMetaTreeOid)
    (visit : σ → Bytes → Bytes → σ) (acc : σ) :
    forEachSnapRecord image volume blockSize visit acc
      = .ok (t.records.foldl (fun a e => visit a e.key e.value) acc) := by
  have hwalk := descendSnap_eq_guardedWalk image omap volume.xid blockSize visit maxSnapTreeDepth
    (.root volume.snapMetaTreeOid) ([], acc)
  rw [← h.root, guardedWalk_ok _ _ _ _ t maxSnapTreeDepth [] acc h.stored h.height_le
    (h.fresh_iff.mpr hne), h.root] at hwalk
  rw [forEachSnapRecord, h.omap_ok, ok_bind]
  simp only [SnapRef.isRoot, SnapRef.number] at hwalk
  rw [hwalk]
  rfl

theorem forEachSnapRecord_cycle (h : ValidSnapTree image volume blockSize omap t)
    (hmeet : .child volume.snapMetaTreeOid ∈ t.nodes)
    (visit : σ → Bytes → Bytes → σ) (acc : σ) :
    forEachSnapRecord image volume blockSize visit acc
      = .error (.err (.cycleGuard maxSnapTreeDepth)) := by
  have hwalk := descendSnap_eq_guardedWalk image omap volume.xid blockSize visit maxSnapTreeDepth
    (.root volume.snapMetaTreeOid) ([], acc)
  rw [← h.root, guardedWalk_error _ _ _ _ t maxSnapTreeDepth [] acc h.stored
    (fun hok => (h.fresh_iff.mp hok.2) _ hmeet rfl), h.root] at hwalk
  rw [forEachSnapRecord, h.omap_ok, ok_bind]
  simp only [SnapRef.isRoot, SnapRef.number] at hwalk
  rw [hwalk]
  rfl

end Valid

/-! ### What the queries answer -/

/-- The snapshots that a list of leaf records describes. -/
def snapshotsOf (records : List Entry) : List Snapshot :=
  (records.filter (fun e => jkeyType e.key = some .snapMetadata)).map
    (fun e => parseSnapMetadata (jkeyOid e.key) e.value)

/-- The xid of the first record that carries the name. -/
def xidOfName (name : String) (records : List Entry) : Option Nat :=
  (records.find? (fun e => jkeyType e.key = some .snapName ∧
    decodeSnapNameKey e.key = some name)).map (fun e => leU64 e.value 0)

/-- The visitor of `resolve_snapshot_xid` keeps the first record that matches. -/
theorem foldl_xidOfName (name : String) : ∀ records : List Entry,
    records.foldl (fun found e =>
        if found.isSome then found
        else if jkeyType e.key ≠ some .snapName then found
        else if decodeSnapNameKey e.key = some name then some (leU64 e.value 0)
        else found) none
      = xidOfName name records := by
  have hkeep : ∀ (records : List Entry) (x : Nat), records.foldl (fun found e =>
      if found.isSome then found
      else if jkeyType e.key ≠ some .snapName then found
      else if decodeSnapNameKey e.key = some name then some (leU64 e.value 0)
      else found) (some x) = some x := by
    intro records x
    induction records with
    | nil => rfl
    | cons e records ih => rw [List.foldl_cons]; exact ih
  intro records
  induction records with
  | nil => rfl
  | cons e records ih =>
    rw [List.foldl_cons, xidOfName, List.find?_cons]
    by_cases ht : jkeyType e.key = some .snapName
    · by_cases hn : decodeSnapNameKey e.key = some name
      · simp only [ht, hn, ne_eq, not_true_eq_false, if_false, if_true, Option.isSome_none,
          Bool.false_eq_true, and_self, decide_true, Option.map_some, hkeep]
      · simp only [ht, hn, ne_eq, not_true_eq_false, if_false, Option.isSome_none,
          Bool.false_eq_true, and_false, decide_false, ih, xidOfName]
    · simp only [ht, ne_eq, not_false_eq_true, if_true, ite_self, false_and, decide_false, ih,
        xidOfName]

/-! ### The records behind the queries -/

section Records

variable {σ : Type} {image : Image} {volume : ApfsVolume} {blockSize : Nat} {records : List Entry}

/-- The leaf records of the tree, in the order of the walk. -/
def readSnapRecords (image : Image) (volume : ApfsVolume) (blockSize : Nat) :
    Result (List Entry) :=
  forEachSnapRecord image volume blockSize (fun out key value => out ++ [⟨key, value⟩]) []

/-- Any walk is one that collects the records and visits them afterwards. -/
theorem forEachSnapRecord_eq_map (visit : σ → Bytes → Bytes → σ) (acc : σ) :
    forEachSnapRecord image volume blockSize visit acc
      = (readSnapRecords image volume blockSize).map
          (List.foldl (fun a e => visit a e.key e.value) acc) := by
  rw [readSnapRecords, forEachSnapRecord, forEachSnapRecord]
  cases readObjectMap image volume.omapOid blockSize with
  | error f => rfl
  | ok omap =>
    have hcollect := descendSnap_eq_guardedWalk image omap volume.xid blockSize
      (fun out key value => out ++ [(⟨key, value⟩ : Entry)]) maxSnapTreeDepth
      (.root volume.snapMetaTreeOid) ([], [])
    have hvisit := descendSnap_eq_guardedWalk image omap volume.xid blockSize visit
      maxSnapTreeDepth (.root volume.snapMetaTreeOid) ([], acc)
    have hmap := guardedWalk_map (fetchSnap image omap volume.xid blockSize) SnapRef.number
      (.err (.cycleGuard maxSnapTreeDepth)) (fun out e => out ++ [(⟨e.key, e.value⟩ : Entry)])
      (fun a e => visit a e.key e.value)
      (fun rs : List Entry => rs.foldl (fun a e => visit a e.key e.value) acc)
      (fun rs e => by rw [List.foldl_append, List.foldl_cons, List.foldl_nil]) maxSnapTreeDepth
      (.root volume.snapMetaTreeOid) ([], [])
    simp only [SnapRef.isRoot, SnapRef.number] at hcollect hvisit
    simp only [List.foldl_nil] at hmap
    rw [ok_bind, ok_bind, hvisit, hcollect, hmap]
    cases guardedWalk (fetchSnap image omap volume.xid blockSize) SnapRef.number
        (.err (.cycleGuard maxSnapTreeDepth)) (fun out e => out ++ [(⟨e.key, e.value⟩ : Entry)])
        maxSnapTreeDepth (.root volume.snapMetaTreeOid) ([], []) <;> rfl

theorem forEachSnapRecord_of_records (h : readSnapRecords image volume blockSize = .ok records)
    (visit : σ → Bytes → Bytes → σ) (acc : σ) :
    forEachSnapRecord image volume blockSize visit acc
      = .ok (records.foldl (fun a e => visit a e.key e.value) acc) := by
  rw [forEachSnapRecord_eq_map, h]
  rfl

theorem listSnapshots_of_records (h : readSnapRecords image volume blockSize = .ok records) :
    listSnapshots image volume blockSize
      = .ok ((snapshotsOf records).insertionSort (fun a b => a.xid ≤ b.xid)) := by
  rw [listSnapshots, forEachSnapRecord_of_records h, ok_bind, foldl_filter_snoc, List.nil_append]
  rfl

theorem resolveSnapshotXid_of_records (h : readSnapRecords image volume blockSize = .ok records)
    (name : String) :
    resolveSnapshotXid image volume blockSize name = .ok (xidOfName name records) := by
  rw [resolveSnapshotXid, forEachSnapRecord_of_records h, foldl_xidOfName]

end Records

theorem listSnapshots_ok {image : Image} {volume : ApfsVolume} {blockSize : Nat}
    {omap : ObjectMap} {t : SnapTree} (h : ValidSnapTree image volume blockSize omap t)
    (hne : ∀ oid, .child oid ∈ t.nodes → oid ≠ volume.snapMetaTreeOid) :
    listSnapshots image volume blockSize
      = .ok ((snapshotsOf t.records).insertionSort (fun a b => a.xid ≤ b.xid)) := by
  rw [listSnapshots, forEachSnapRecord_ok h hne, ok_bind, foldl_filter_snoc, List.nil_append]
  rfl

/-- **When the snapshot queries answer.**  On a valid tree `list_snapshots` gives the
decoded `SNAP_METADATA` records by ascending xid and `resolve_snapshot_xid` the
first record of a name, exactly if no child oid is the block number of the root. -/
theorem list_and_resolve_iff {image : Image} {volume : ApfsVolume} {blockSize : Nat}
    {omap : ObjectMap} {t : SnapTree} (h : ValidSnapTree image volume blockSize omap t) :
    ((∃ out, listSnapshots image volume blockSize = .ok out ∧
        out.Perm (snapshotsOf t.records) ∧ out.Pairwise (fun a b => a.xid ≤ b.xid)) ∧
      ∀ name, resolveSnapshotXid image volume blockSize name = .ok (xidOfName name t.records)) ↔
    ∀ oid, .child oid ∈ t.nodes → oid ≠ volume.snapMetaTreeOid := by
  constructor
  · rintro ⟨⟨out, hlist, _⟩, _⟩ oid hoid rfl
    rw [listSnapshots, forEachSnapRecord_cycle h hoid] at hlist
    exact absurd hlist (by simp)
  · intro hne
    refine ⟨⟨_, listSnapshots_ok h hne, List.perm_insertionSort _ _, ?_⟩, fun name => ?_⟩
    · have htotal : Std.Total (fun a b : Snapshot => a.xid ≤ b.xid) :=
        ⟨fun a b => Nat.le_total a.xid b.xid⟩
      have htrans : IsTrans Snapshot (fun a b => a.xid ≤ b.xid) := ⟨fun _ _ _ => Nat.le_trans⟩
      exact List.pairwise_insertionSort _ _
    · rw [resolveSnapshotXid, forEachSnapRecord_ok h hne, foldl_xidOfName]

/-! ### One number, two address spaces

An index root at block `2` with one child, a leaf that describes snapshot `5`.  The
child's oid is `9`, or else `2`, a virtual oid that has nothing to do with block
`2`. -/

def snapRecords : List Entry :=
  [⟨jkeyBytes 1 5, List.replicate 48 0 ++ toLeBytes 2 2 ++ [65, 0]⟩,
    ⟨jkeyBytes 11 0 ++ toLeBytes 2 2 ++ [65, 0], toLeBytes 8 5⟩]

def snapBytes (child : Nat) : Bytes :=
  omapBlock 256 0 1 ++ btreeNode 256 1 1 0x7 0 [omapRecord child 1 0 3] ++
    btreeNode 256 2 1 0x1 1 [childRecord (jkeyBytes 1 5) child] ++
    btreeNode 256 child 1 0x2 0 snapRecords

def snapTree (child : Nat) : SnapTree :=
  .index (.root 2) (.cons (jkeyBytes 1 5) (.leaf (.child child) snapRecords) .nil)

def apartImage : Image := ⟨snapBytes 9, by decide +kernel⟩

def meetingImage : Image := ⟨snapBytes 2, by decide +kernel⟩

theorem validSnapTree_apart :
    ValidSnapTree apartImage (.ofRoots 1 0 0 2) 256 ⟨0, 0x40000002, 1, 0⟩ (snapTree 9) where
  omap_ok := by decide +kernel
  root := rfl
  stored := by decide +kernel
  height_le := by decide +kernel
  distinct := by decide +kernel

theorem validSnapTree_meeting :
    ValidSnapTree meetingImage (.ofRoots 1 0 0 2) 256 ⟨0, 0x40000002, 1, 0⟩ (snapTree 2) where
  omap_ok := by decide +kernel
  root := rfl
  stored := by decide +kernel
  height_le := by decide +kernel
  distinct := by decide +kernel

theorem snapshot_queries_apart :
    ∃ out, listSnapshots apartImage (.ofRoots 1 0 0 2) 256 = .ok out ∧
      out.Perm (snapshotsOf snapRecords) ∧
      resolveSnapshotXid apartImage (.ofRoots 1 0 0 2) 256 "A" = .ok (some 5) := by
  obtain ⟨⟨out, hlist, hperm, _⟩, hname⟩ :=
    (list_and_resolve_iff validSnapTree_apart).mpr (by
      intro oid hoid
      have : oid = 9 := by simpa [snapTree, Tree.nodes, Forest.nodes] using hoid
      subst this
      decide)
  refine ⟨out, hlist, hperm, ?_⟩
  rw [hname "A"]
  decide +kernel

/-- The same tree behind the other oid is refused as a cycle. -/
theorem snapshot_queries_meeting :
    ValidSnapTree meetingImage (.ofRoots 1 0 0 2) 256 ⟨0, 0x40000002, 1, 0⟩ (snapTree 2) ∧
      (snapshotsOf (snapTree 2).records).map Snapshot.xid = [5] ∧
      listSnapshots meetingImage (.ofRoots 1 0 0 2) 256 = .error (.err (.cycleGuard 64)) ∧
      resolveSnapshotXid meetingImage (.ofRoots 1 0 0 2) 256 "A"
        = .error (.err (.cycleGuard 64)) := by
  refine ⟨validSnapTree_meeting, ?_, ?_, ?_⟩ <;> decide +kernel

end ApfsForensic
