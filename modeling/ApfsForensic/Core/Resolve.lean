import ApfsForensic.Core.Encode
import ApfsForensic.Core.Omap

/-!
# One leaf is enough

`ObjectMap::resolve` reads a single path of the object map's tree.  On a
well-formed tree it returns what a scan of every leaf would choose.

`WellFormedOmap image bs omap t` says that `t` is the tree the image stores at
`om_tree_oid`: each node is read and its checksum verified (`Tree.Stored` at
`fetchNode`), no block is used twice, the keys increase from leaf to leaf, and each
separator is the smallest key of its child.

* `resolve_eq_omapScan`: `resolve` is the scan of all records of `t`.
* `resolve_eq_scan_of_all_leaves`: the same, against the entries
  `forEachLeafEntry` delivers, with the entry it returns described.
-/

namespace ApfsForensic

open Walk

/-- The B-trees of an image, read by block address or by oid. -/
abbrev NodeTree := Tree Bytes Nat Entry

/-- The image stores the well-formed object map tree `t` at `om_tree_oid`. -/
structure WellFormedOmap (image : Image) (blockSize : Nat) (omap : ObjectMap) (t : NodeTree) :
    Prop where
  root : t.key = omap.treeOid
  stored : t.Stored (fetchNode image blockSize .omap)
  height_le : t.height ≤ maxBtreeDepth
  unshared : t.nodes.Nodup
  sorted : t.records.Pairwise (fun a b => omapKey a.key < omapKey b.key)
  separators : t.Keyed omapKey (fun e => omapKey e.key)

theorem WellFormedOmap.fresh {image : Image} {blockSize : Nat} {omap : ObjectMap} {t : NodeTree}
    (h : WellFormedOmap image blockSize omap t) : Fresh id t.nodes ([] : List Nat) := by
  rw [fresh_iff, List.map_id]
  exact ⟨h.unshared, by simp⟩

theorem omapCmp_ne_gt_iff (oid xid : Nat) (key : Bytes) :
    (omapCmp oid xid key != .gt) = true ↔ omapKey key ≤ toLex (oid, xid) := by
  rw [omapKey, Prod.Lex.toLex_le_toLex, omapCmp]
  rcases Nat.lt_trichotomy (leU64 key 0) oid with h | h | h
  · simp [Nat.compare_eq_lt.mpr h, h]
  · simp [h, Nat.compare_ne_gt]
  · simp [Nat.compare_eq_gt.mpr h, Nat.lt_asymm h, Nat.ne_of_gt h]

theorem omapKey_le_iff {a b : Entry} :
    omapKey a.key ≤ omapKey b.key ↔ a.omapEntry.oid < b.omapEntry.oid ∨
      a.omapEntry.oid = b.omapEntry.oid ∧ a.omapEntry.xid ≤ b.omapEntry.xid :=
  Prod.Lex.toLex_le_toLex

theorem omapKey_le_target_iff {a : Entry} {oid xid : Nat} :
    omapKey a.key ≤ toLex (oid, xid) ↔ a.omapEntry.oid < oid ∨
      a.omapEntry.oid = oid ∧ a.omapEntry.xid ≤ xid :=
  Prod.Lex.toLex_le_toLex

/-- A part of the sorted records that holds the floor of `(oid, xid)` is scanned to
the same entry as the whole. -/
theorem omapScan_eq_of_floor {oid xid : Nat} {es rs : List Entry} (hsub : rs.Sublist es)
    (hsort : es.Pairwise (fun a b => omapKey a.key < omapKey b.key))
    (hfloor : ∀ r ∈ es, omapKey r.key ≤ toLex (oid, xid) →
      ∃ r' ∈ rs, omapKey r'.key ≤ toLex (oid, xid) ∧ omapKey r.key ≤ omapKey r'.key) :
    omapScan oid xid rs = omapScan oid xid es := by
  have hcand : ∀ e ∈ omapCandidates oid xid rs, e ∈ omapCandidates oid xid es := by
    intro e he
    rw [mem_omapCandidates] at he ⊢
    exact ⟨(hsub.map Entry.omapEntry).subset he.1, he.2⟩
  cases hall : omapScan oid xid es with
  | none =>
    rw [omapScan_eq_none_iff] at hall ⊢
    intro e he
    exact hall e ((hsub.map Entry.omapEntry).subset he)
  | some e =>
    obtain ⟨hmem, hmax⟩ := (omapScan_eq_some_iff hsort).mp hall
    obtain ⟨hin, ho, hx⟩ := mem_omapCandidates.mp hmem
    obtain ⟨r, hr, rfl⟩ := List.mem_map.mp hin
    obtain ⟨r', hr', hle, hge⟩ := hfloor r hr (omapKey_le_target_iff.mpr (Or.inr ⟨ho, hx⟩))
    -- the floor is of the same oid, so it is a candidate and no later than `r`
    rw [omapKey_le_target_iff] at hle
    rw [omapKey_le_iff] at hge
    have ho' : r'.omapEntry.oid = oid := by omega
    have hx' : r'.omapEntry.xid ≤ xid := by omega
    have hr'c : r'.omapEntry ∈ omapCandidates oid xid rs :=
      mem_omapCandidates.mpr ⟨List.mem_map_of_mem hr', ho', hx'⟩
    have hxid : r.omapEntry.xid ≤ r'.omapEntry.xid := by omega
    have hrs : omapScan oid xid rs = some r'.omapEntry := by
      rw [omapScan_eq_some_iff (hsort.sublist hsub)]
      exact ⟨hr'c, fun e' he' => le_trans (hmax e' (hcand e' he')) hxid⟩
    have hes : omapScan oid xid es = some r'.omapEntry := by
      rw [omapScan_eq_some_iff hsort]
      exact ⟨hcand _ hr'c, fun e' he' => le_trans (hmax e' he') hxid⟩
    rw [hrs, ← hes, hall]

/-- What `resolve` makes of a scan. -/
def resolved (oid xid : Nat) : Option OmapEntry → Result OmapEntry
  | some entry => .ok entry
  | none => .error (.err (.omapUnresolved oid xid))

/-- **One leaf is enough.**  On a well-formed tree `resolve` is the scan of all the
records. -/
theorem resolve_eq_omapScan {image : Image} {blockSize : Nat} {omap : ObjectMap} {t : NodeTree}
    (h : WellFormedOmap image blockSize omap t) (oid xid : Nat) :
    omap.resolve image oid xid blockSize = resolved oid xid (omapScan oid xid t.records) := by
  obtain ⟨rs, hwalk, hsub, hfloor⟩ := searchWalk_floor (fetchNode image blockSize .omap) id
    (.err (.cycleGuard maxBtreeDepth)) (omapCmp_ne_gt_iff oid xid) maxBtreeDepth t [] h.stored
    h.height_le h.fresh h.separators h.sorted
  have hleaf : findLeaf image blockSize .omap omap.treeOid (omapCmp oid xid) (omapVisit oid xid)
      none = .ok (omapScan oid xid rs) := by
    rw [findLeaf, findLeafFrom_eq_searchWalk, ← h.root, hwalk]
    rfl
  rw [ObjectMap.resolve, hleaf, ok_bind, omapScan_eq_of_floor hsub h.sorted hfloor]
  cases omapScan oid xid t.records <;> rfl

theorem forEachLeafEntry_ok {image : Image} {blockSize : Nat} {omap : ObjectMap} {t : NodeTree}
    (h : WellFormedOmap image blockSize omap t) :
    forEachLeafEntry image blockSize .omap omap.treeOid
      (fun (es : List Entry) key value => es ++ [⟨key, value⟩]) [] = .ok t.records := by
  rw [forEachLeafEntry, descend_eq_guardedWalk, ← h.root,
    guardedWalk_ok _ id _ _ t maxBtreeDepth [] [] h.stored h.height_le h.fresh]
  show Except.ok _ = _
  rw [foldl_snoc, List.nil_append]

/-- **`resolve` is the scan of all leaves.**  Over a well-formed tree the walk of all
leaves succeeds, and `resolve` returns an entry exactly when it is the one of that
oid with the largest xid not above the requested one; it reports `OmapUnresolved`
exactly when no leaf holds a candidate. -/
theorem resolve_eq_scan_of_all_leaves {image : Image} {blockSize : Nat} {omap : ObjectMap}
    {t : NodeTree} (h : WellFormedOmap image blockSize omap t) (oid xid : Nat) :
    ∃ entries : List Entry,
      forEachLeafEntry image blockSize .omap omap.treeOid
        (fun (es : List Entry) key value => es ++ [⟨key, value⟩]) [] = .ok entries ∧
      (∀ e, omap.resolve image oid xid blockSize = .ok e ↔
        (e ∈ entries.map Entry.omapEntry ∧ e.oid = oid ∧ e.xid ≤ xid) ∧
          ∀ e' ∈ entries.map Entry.omapEntry, e'.oid = oid → e'.xid ≤ xid → e'.xid ≤ e.xid) ∧
      (omap.resolve image oid xid blockSize = .error (.err (.omapUnresolved oid xid)) ↔
        ∀ e ∈ entries.map Entry.omapEntry, e.oid = oid → ¬ e.xid ≤ xid) := by
  refine ⟨t.records, forEachLeafEntry_ok h, ?_, ?_⟩
  · intro e
    have hscan : resolved oid xid (omapScan oid xid t.records) = .ok e ↔
        omapScan oid xid t.records = some e := by
      cases omapScan oid xid t.records <;> simp [resolved]
    rw [resolve_eq_omapScan h, hscan, omapScan_eq_some_iff h.sorted, mem_omapCandidates]
    simp only [mem_omapCandidates, and_imp]
  · have hscan : resolved oid xid (omapScan oid xid t.records)
        = .error (.err (.omapUnresolved oid xid)) ↔ omapScan oid xid t.records = none := by
      cases omapScan oid xid t.records <;> simp [resolved]
    rw [resolve_eq_omapScan h, hscan, omapScan_eq_none_iff]

/-! ### Two leaves

Versions `1`, `4` and `9` of oid `5`, the last in a second leaf. -/

def twoLeafImage : Image :=
  ⟨btreeNode 160 0 9 0x5 1 [childRecord (omapRecord 5 1 0 0).key 1,
      childRecord (omapRecord 5 9 0 0).key 2] ++
    btreeNode 160 1 9 0x6 0 [omapRecord 5 1 0 100, omapRecord 5 4 0 101] ++
    btreeNode 160 2 9 0x6 0 [omapRecord 5 9 0 102, omapRecord 7 2 0 103], by decide +kernel⟩

def twoLeafTree : NodeTree :=
  .index 0 (.cons (omapRecord 5 1 0 0).key (.leaf 1 [omapRecord 5 1 0 100, omapRecord 5 4 0 101])
    (.cons (omapRecord 5 9 0 0).key (.leaf 2 [omapRecord 5 9 0 102, omapRecord 7 2 0 103]) .nil))

theorem twoLeafTree_wellFormed : WellFormedOmap twoLeafImage 160 ⟨0, 0, 0, 0⟩ twoLeafTree where
  root := rfl
  stored := by decide +kernel
  height_le := by decide +kernel
  unshared := by decide +kernel
  sorted := by decide +kernel
  separators := by
    simp only [twoLeafTree, Tree.Keyed, Forest.Keyed]
    decide +kernel

/-- At xid `8` the floor is version `4`, the last record of the first leaf. -/
theorem resolve_between_leaves :
    (⟨0, 0, 0, 0⟩ : ObjectMap).resolve twoLeafImage 5 8 160
      = .ok { oid := 5, xid := 4, paddr := 101, size := 4096, flags := 0 } := by
  obtain ⟨entries, hwalk, hok, _⟩ := resolve_eq_scan_of_all_leaves twoLeafTree_wellFormed 5 8
  rw [forEachLeafEntry_ok twoLeafTree_wellFormed] at hwalk
  cases hwalk
  exact (hok _).mpr (by decide +kernel)

end ApfsForensic
