import ApfsForensic.Core.Dir

/-!
# The keyed walk loses no record of its target

A keyed walk decides child by child, from the object ids of two separators,
whether to descend.  A separator is a full key cut to its object id, so the
records of one object may end in one child and go on in the next ones.

`WellFormedFsTree` asks that every record under a child has an object id between
the child's separator and the next one, both included.  That is enough for
`keyed_walk_eq_full_walk`: what the keyed walk visits of its target is what the
full walk visits of it, in the same order.  The order of the records inside a
leaf plays no part.
-/

namespace ApfsForensic

open Walk

/-- The image stores the fs-tree `t` under the volume's root oid, and the
separators of `t` bracket the object ids below them. -/
structure WellFormedFsTree (xts : Xts) (image : Image) (volume : ApfsVolume) (blockSize : Nat)
    (omap : ObjectMap) (t : NodeTree) : Prop where
  omap_ok : readObjectMap image volume.omapOid blockSize = .ok omap
  root : t.key = volume.rootTreeOid
  stored : t.Stored (fetchVirtual xts image omap volume.vek volume.xid blockSize)
  ranges : t.Bracketed jkeyOid (fun e => jkeyOid e.key)

/-- A dropped child holds no record of the target. -/
theorem jkeyOid_ne_of_keepChild {target : Nat} {sep : Bytes} {nextSep : Option Bytes} {e : Entry}
    (hdrop : keepChild (some target) sep nextSep = false) (hlo : jkeyOid sep ≤ jkeyOid e.key)
    (hhi : ∀ next ∈ nextSep, jkeyOid e.key ≤ jkeyOid next) :
    decide (jkeyOid e.key = target) = false := by
  rw [decide_eq_false_iff_not]
  intro he
  cases nextSep with
  | none =>
    simp only [keepChild, childMayContainOid, Option.map_none, Bool.and_true,
      decide_eq_false_iff_not] at hdrop
    omega
  | some next =>
    have hnext := hhi next rfl
    simp only [keepChild, childMayContainOid, Option.map_some, Bool.and_eq_false_iff,
      decide_eq_false_iff_not] at hdrop
    omega

/-- **The keyed walk loses no record of its target.** -/
theorem keyed_walk_eq_full_walk {xts : Xts} {image : Image} {volume : ApfsVolume} {blockSize : Nat}
    {omap : ObjectMap} {t : NodeTree} (h : WellFormedFsTree xts image volume blockSize omap t)
    {full : List Entry} (hfull : fsRecords xts image volume blockSize none = .ok full)
    (target : Nat) :
    ∃ keyed, forEachFsRecordForOid xts image volume blockSize target
        (fun (es : List Entry) key value => es ++ [⟨key, value⟩]) [] = .ok keyed ∧
      keyed.filter (fun e => jkeyOid e.key = target)
        = full.filter (fun e => jkeyOid e.key = target) := by
  -- the full walk went through, so the tree trips no guard
  have hguards : (t.height ≤ maxFstreeDepth ∧ Fresh id t.nodes []) ∧ full = t.records := by
    rw [fsRecords, walkFsTree, h.omap_ok, ok_bind, descendVirtual_eq_guardedWalk, fetchPruned_none,
      ← h.root, bind_eq_ok_iff] at hfull
    obtain ⟨s, hwalk, hs⟩ := hfull
    obtain ⟨hok, rfl⟩ := (guardedWalk_ok_iff _ id _ _ h.stored).mp hwalk
    rw [foldl_snoc, List.nil_append] at hs
    exact ⟨hok, (Except.ok.inj hs).symm⟩
  obtain ⟨⟨hheight, hfresh⟩, rfl⟩ := hguards
  have hcovers := Tree.Bracketed.covers (keepChild (some target))
    (fun e => decide (jkeyOid e.key = target))
    (fun _ _ _ hdrop hlo hhi => jkeyOid_ne_of_keepChild hdrop hlo hhi) t h.ranges
  obtain ⟨hwalk, hsame⟩ := guardedWalk_prune
    (fetchVirtual xts image omap volume.vek volume.xid blockSize) id
    (.err (.cycleGuard maxFstreeDepth)) h.stored hcovers hheight hfresh
    (fun (es : List Entry) e => es ++ [⟨e.key, e.value⟩]) []
  refine ⟨(t.prune (keepChild (some target))).records, ?_, hsame⟩
  rw [forEachFsRecordForOid, walkFsTree, h.omap_ok, ok_bind, descendVirtual_eq_guardedWalk,
    ← h.root]
  simp only [foldl_snoc, List.nil_append] at hwalk
  show (guardedWalk _ id _ _ _ _ _ >>= _) = _
  unfold fetchPruned
  rw [hwalk]
  rfl

/-! ### Records that spill over

Oid `5` has its inode at the end of the first leaf and a directory record at the
start of the second, whose separator has oid `5` too. -/

def spillImage : Image :=
  ⟨omapBlock 256 0 1 ++
    btreeNode 256 1 1 0x7 0 [omapRecord 10 1 0 2, omapRecord 11 1 0 3, omapRecord 12 1 0 4] ++
    btreeNode 256 10 1 0x1 1 [childRecord (jkeyBytes 3 2) 11, childRecord (jkeyBytes 9 5) 12] ++
    btreeNode 256 11 1 0x2 0 [⟨jkeyBytes 3 2, [1]⟩, ⟨jkeyBytes 3 5, [2]⟩] ++
    btreeNode 256 12 1 0x2 0 [⟨jkeyBytes 9 5, [3]⟩, ⟨jkeyBytes 3 7, [4]⟩], by decide +kernel⟩

def spillTree : NodeTree :=
  .index 10 (.cons (jkeyBytes 3 2) (.leaf 11 [⟨jkeyBytes 3 2, [1]⟩, ⟨jkeyBytes 3 5, [2]⟩])
    (.cons (jkeyBytes 9 5) (.leaf 12 [⟨jkeyBytes 9 5, [3]⟩, ⟨jkeyBytes 3 7, [4]⟩]) .nil))

theorem spillTree_wellFormed : WellFormedFsTree .uncalled spillImage (.ofRoots 1 0 10 0) 256
    ⟨0, 0x40000002, 1, 0⟩ spillTree where
  omap_ok := by decide +kernel
  root := rfl
  stored := by decide +kernel
  ranges := by
    simp only [spillTree, Tree.Bracketed, Forest.Bracketed]
    decide +kernel

theorem fsRecords_spillImage :
    fsRecords .uncalled spillImage (.ofRoots 1 0 10 0) 256 none = .ok spillTree.records := by
  decide +kernel

theorem keyed_walk_of_spilled_records :
    ∃ keyed, forEachFsRecordForOid .uncalled spillImage (.ofRoots 1 0 10 0) 256 5
        (fun (es : List Entry) key value => es ++ [⟨key, value⟩]) [] = .ok keyed ∧
      keyed.filter (fun e => jkeyOid e.key = 5)
        = [⟨jkeyBytes 3 5, [2]⟩, ⟨jkeyBytes 9 5, [3]⟩] := by
  obtain ⟨keyed, hwalk, hsame⟩ :=
    keyed_walk_eq_full_walk spillTree_wellFormed fsRecords_spillImage 5
  refine ⟨keyed, hwalk, ?_⟩
  rw [hsame]
  decide +kernel

end ApfsForensic
