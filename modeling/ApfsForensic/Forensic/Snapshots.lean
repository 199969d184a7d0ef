import ApfsForensic.Forensic.Audit

/-!
# The audit of the snapshots

`forensic/src/snapshots.rs`.  Two observations are made of the snapshots of a volume: a
name that does not lead back to its snapshot, and a creation time below that of the
snapshot before it.

`snapshotsAudit_of_records` says what the first one reports, in terms of the records
of the tree.  It asks for the name of every snapshot, and a name leads to the first
record that carries it.

* `snapshots_audit_reports_iff`: the report agrees with the correspondence of names and
  snapshots exactly if no name is stale where every snapshot is found, and no two snapshots
  share a name where the correspondence holds.

The second one compares neighbours (`mem_snapshotXidDisorder_iff`), not a snapshot with
every earlier one.

* `snapshot_xid_disorder_iff`: it finds what it should exactly if whatever predates an
  earlier snapshot predates the one just before it.
-/

namespace ApfsForensic

open Walk

/-! ### Names and snapshots -/

/-- The name record is that of the snapshot. -/
def NameLeadsTo (n : Entry) (s : Snapshot) : Prop :=
  decodeSnapNameKey n.key = some s.name ∧ leU64 n.value 0 = s.xid

instance (n : Entry) (s : Snapshot) : Decidable (NameLeadsTo n s) :=
  inferInstanceAs (Decidable (_ ∧ _))

/-- The `SNAP_NAME` records. -/
def snapNames (records : List Entry) : List Entry :=
  records.filter (fun e => jkeyType e.key = some .snapName)

/-- Every snapshot has its name record, and every name record its snapshot. -/
def NamesMatch (records : List Entry) : Prop :=
  (∀ s ∈ snapshotsOf records, ∃ n ∈ snapNames records, NameLeadsTo n s) ∧
    ∀ n ∈ snapNames records, ∃ s ∈ snapshotsOf records, NameLeadsTo n s

instance (records : List Entry) : Decidable (NamesMatch records) :=
  inferInstanceAs (Decidable (_ ∧ _))

/-- A name record is left without its snapshot. -/
def StaleName (records : List Entry) : Prop :=
  ∃ n ∈ snapNames records, ∀ s ∈ snapshotsOf records, ¬ NameLeadsTo n s

/-- The first record of its name, if any, is not that of the snapshot. -/
def NameAstray (records : List Entry) : Prop :=
  ∃ s ∈ snapshotsOf records, xidOfName s.name records ≠ some s.xid

/-- Two snapshots have one name. -/
def SharedName (records : List Entry) : Prop :=
  ∃ s ∈ snapshotsOf records, ∃ s' ∈ snapshotsOf records, s.name = s'.name ∧ s.xid ≠ s'.xid

instance (records : List Entry) : Decidable (SharedName records) :=
  inferInstanceAs (Decidable (∃ _ ∈ _, _))

section Names

variable {records : List Entry} {s : Snapshot}

theorem xidOfName_eq_some {name : String} {xid : Nat} (h : xidOfName name records = some xid) :
    ∃ n ∈ snapNames records, decodeSnapNameKey n.key = some name ∧ leU64 n.value 0 = xid := by
  obtain ⟨n, hfind, hxid⟩ := Option.map_eq_some_iff.mp h
  have hn := List.find?_some hfind
  rw [decide_eq_true_eq] at hn
  have hmem : n ∈ snapNames records :=
    List.mem_filter.mpr ⟨List.mem_of_find?_eq_some hfind, decide_eq_true hn.1⟩
  exact ⟨n, hmem, hn.2, hxid⟩

theorem xidOfName_ne_none {n : Entry} (hn : n ∈ snapNames records) (h : NameLeadsTo n s) :
    ∃ xid, xidOfName s.name records = some xid := by
  rw [snapNames, List.mem_filter, decide_eq_true_eq] at hn
  cases hfind : xidOfName s.name records with
  | some xid => exact ⟨xid, rfl⟩
  | none =>
    rw [xidOfName, Option.map_eq_none_iff, List.find?_eq_none] at hfind
    exact absurd (decide_eq_true ⟨hn.2, h.1⟩) (hfind n hn.1)

/-- A snapshot without a name record is found astray. -/
theorem nameAstray_of_unnamed (hs : s ∈ snapshotsOf records)
    (h : ∀ n ∈ snapNames records, ¬ NameLeadsTo n s) : NameAstray records := by
  refine ⟨s, hs, fun hxid => ?_⟩
  obtain ⟨n, hn, hname⟩ := xidOfName_eq_some hxid
  exact h n hn hname

theorem nameAstray_of_not_namesMatch (hstale : StaleName records → NameAstray records)
    (h : ¬ NamesMatch records) : NameAstray records := by
  rw [NamesMatch, not_and_or] at h
  push Not at h
  rcases h with ⟨s, hs, hno⟩ | hno
  · exact nameAstray_of_unnamed hs hno
  · exact hstale hno

/-- If all is well, only the name of another snapshot leads astray. -/
theorem sharedName_of_nameAstray (h : NamesMatch records) (hastray : NameAstray records) :
    SharedName records := by
  obtain ⟨s, hs, hne⟩ := hastray
  obtain ⟨n, hn, hname⟩ := h.1 s hs
  obtain ⟨xid, hxid⟩ := xidOfName_ne_none hn hname
  obtain ⟨n', hn', hname', rfl⟩ := xidOfName_eq_some hxid
  obtain ⟨s', hs', hlead⟩ := h.2 n' hn'
  have hsame : s.name = s'.name := Option.some.inj (hname'.symm.trans hlead.1)
  exact ⟨s, hs, s', hs', hsame, fun heq => hne (by rw [hxid, hlead.2, heq])⟩

/-- Two snapshots of one name cannot both be found. -/
theorem nameAstray_of_sharedName (h : SharedName records) : NameAstray records := by
  obtain ⟨s, hs, s', hs', hname, hxid⟩ := h
  by_cases hfound : xidOfName s.name records = some s.xid
  · refine ⟨s', hs', fun hfound' => hxid ?_⟩
    rw [hname, hfound'] at hfound
    exact (Option.some.inj hfound).symm
  · exact ⟨s, hs, hfound⟩

end Names

/-! ### What is reported -/

section Audit

variable {image : Image} {volume : ApfsVolume} {blockSize : Nat} {records : List Entry}

theorem snapshotsAudit_of_records (h : readSnapRecords image volume blockSize = .ok records) :
    ∃ snaps : List Snapshot, snaps.Perm (snapshotsOf records) ∧
      snapshotsAudit image volume blockSize
      = .ok ((snaps.filter fun s => xidOfName s.name records ≠ some s.xid).map
            (fun s => .snapshotMissingMetadata s.name)
          ++ snapshotXidDisorder (snaps.map fun s => (s.xid, s.createTime))) := by
  refine ⟨_, List.perm_insertionSort (fun a b => a.xid ≤ b.xid) _, ?_⟩
  have hloop := foldl_filter_snoc (fun s : Snapshot => xidOfName s.name records ≠ some s.xid)
    (fun s => AnomalyKind.snapshotMissingMetadata s.name)
  simp only [ite_not] at hloop
  rw [snapshotsAudit, listSnapshots_of_records h, ok_bind]
  simp only [resolveSnapshotXid_of_records h, ok_bind, List.foldlM_pure, pure_bind, hloop,
    List.nil_append]
  rfl

theorem snapshotXidDisorder_kind {snaps : List (Nat × Nat)} {k : AnomalyKind}
    (h : k ∈ snapshotXidDisorder snaps) : ∃ x, k = .snapshotXidDisorder x := by
  obtain ⟨w, _, hw⟩ := List.mem_filterMap.mp h
  obtain ⟨_, hk⟩ := Option.ite_none_right_eq_some.mp hw
  exact ⟨w.2.1, (Option.some.inj hk).symm⟩

/-- A snapshot is reported exactly if its name leads astray. -/
theorem reported_iff_nameAstray {out : List AnomalyKind}
    (h : readSnapRecords image volume blockSize = .ok records)
    (haudit : snapshotsAudit image volume blockSize = .ok out) :
    (∃ name, .snapshotMissingMetadata name ∈ out) ↔ NameAstray records := by
  obtain ⟨snaps, hperm, hout⟩ := snapshotsAudit_of_records h
  cases haudit.symm.trans hout
  refine ⟨fun hrep => ?_, fun hastray => ?_⟩
  · obtain ⟨name, hmem⟩ := hrep
    rcases List.mem_append.mp hmem with hmem | hmem
    · obtain ⟨s, hs, _⟩ := List.mem_map.mp hmem
      rw [List.mem_filter, decide_eq_true_eq] at hs
      exact ⟨s, hperm.mem_iff.mp hs.1, hs.2⟩
    · obtain ⟨x, hx⟩ := snapshotXidDisorder_kind hmem
      cases hx
  · obtain ⟨s, hs, hne⟩ := hastray
    refine ⟨s.name, List.mem_append_left _ (List.mem_map.mpr ⟨s, ?_, rfl⟩)⟩
    exact List.mem_filter.mpr ⟨hperm.mem_iff.mpr hs, decide_eq_true hne⟩

end Audit

/-- **When the report of missing metadata is right.**  On a readable tree the audit
reports at least one name exactly where names and snapshots do not correspond, if and only
if two cases are excluded: a stale name while every snapshot is found, and two snapshots
of one name while all records correspond. -/
theorem snapshots_audit_reports_iff {image : Image} {volume : ApfsVolume} {blockSize : Nat}
    {records : List Entry} (h : readSnapRecords image volume blockSize = .ok records) :
    ∃ out, snapshotsAudit image volume blockSize = .ok out ∧
      (((∃ name, .snapshotMissingMetadata name ∈ out) ↔ ¬ NamesMatch records) ↔
        (StaleName records → NameAstray records) ∧
          (SharedName records → ¬ NamesMatch records)) := by
  obtain ⟨snaps, _, haudit⟩ := snapshotsAudit_of_records h
  refine ⟨_, haudit, ?_⟩
  rw [reported_iff_nameAstray h haudit]
  refine ⟨fun hiff => ⟨fun hstale => hiff.mpr fun hmatch => ?_, fun hshared => ?_⟩, fun hok => ?_⟩
  · obtain ⟨n, hn, hno⟩ := hstale
    obtain ⟨s, hs, hlead⟩ := hmatch.2 n hn
    exact hno s hs hlead
  · exact hiff.mp (nameAstray_of_sharedName hshared)
  · refine ⟨fun hastray hmatch => ?_, nameAstray_of_not_namesMatch hok.1⟩
    exact hok.2 (sharedName_of_nameAstray hmatch hastray) hmatch

/-! A volume whose snapshot tree is one leaf. -/

def snapLeafBlocks (records : List Entry) : List Bytes :=
  oneVolumeBlocks 4096 1026 volumeTree
    [apsbBlock 4096 1026 2 2 1028 5, btreeNode 4096 5 2 0x3 0 records]

def snapLeafImage (records : List Entry) : Image := .ofBlocks (snapLeafBlocks records)

theorem readSnapRecords_snapLeafImage {records : List Entry}
    (hlen : (btreeNode 4096 5 2 0x3 0 records).length = 4096)
    (hview : nodeView (btreeNode 4096 5 2 0x3 0 records) .fsTree = .leaf records) :
    readSnapRecords (snapLeafImage records) (soleVolume 2 5) 4096 = .ok records := by
  have hlength : ∀ b ∈ snapLeafBlocks records, b.length = 4096 := by
    refine length_oneVolumeBlocks le_rfl (length_btreeNode (by decide) ..) fun b hb => ?_
    rcases List.mem_pair.mp hb with rfl | rfl
    · exact length_apsbBlock (by decide) ..
    · exact hlen
  have hblocks : (snapLeafImage records).HasBlocks 4096 (snapLeafBlocks records) :=
    Image.hasBlocks_ofBlocks hlength (show 6 * 4096 ≤ u64Max by decide)
  have hroot : (snapLeafBlocks records)[5]? = some (btreeNode 4096 5 2 0x3 0 records) := rfl
  have hvalid : ValidSnapTree (snapLeafImage records) (soleVolume 2 5) 4096 ⟨0, 0x40000002, 3, 0⟩
      (.leaf (.root 5) records) :=
    validSnapTree_leaf (readObjectMap_oneVolume hblocks oneVolumeHeaders_4096)
      (hblocks.readBlock hroot) (btreeNode_verifies ..) hview
  have hne : ∀ oid, .child oid ∈ (Walk.Tree.leaf (.root 5) records : SnapTree).nodes →
      oid ≠ (soleVolume 2 5).snapMetaTreeOid := by simp [Walk.Tree.nodes]
  rw [readSnapRecords, forEachSnapRecord_ok hvalid hne]
  have hcollect := foldl_filter_snoc (fun _ : Entry => True) (fun e => e) records []
  simp only [if_true, decide_true, List.filter_true, List.map_id', List.nil_append] at hcollect
  exact congrArg Except.ok hcollect

/-- The metadata of snapshot `xid`, called `A`. -/
def snapMetadataA (xid : Nat) : Entry :=
  ⟨jkeyBytes 1 xid, List.replicate 48 0 ++ toLeBytes 2 2 ++ [65, 0]⟩

/-- A name record of `A`. -/
def snapNameA (xid : Nat) : Entry :=
  ⟨jkeyBytes 11 0 ++ toLeBytes 2 2 ++ [65, 0], toLeBytes 8 xid⟩

/-- Two snapshots called `A`, each with its name record. -/
def twinRecords : List Entry := [snapMetadataA 5, snapMetadataA 6, snapNameA 5, snapNameA 6]

/-- What the leaves of the three volumes say. -/
def SnapLeafViews : Prop :=
  nodeView (btreeNode 4096 5 2 0x3 0 [snapMetadataA 5, snapNameA 5]) .fsTree
      = .leaf [snapMetadataA 5, snapNameA 5] ∧
  nodeView (btreeNode 4096 5 2 0x3 0 [snapNameA 5]) .fsTree = .leaf [snapNameA 5] ∧
  nodeView (btreeNode 4096 5 2 0x3 0 twinRecords) .fsTree = .leaf twinRecords

instance : Decidable SnapLeafViews := inferInstanceAs (Decidable (_ ∧ _))

theorem snapLeafViews : SnapLeafViews := by decide +kernel

theorem snapshots_audit_named :
    ∃ out, snapshotsAudit (snapLeafImage [snapMetadataA 5, snapNameA 5]) (soleVolume 2 5) 4096
        = .ok out ∧ ¬ ∃ name, .snapshotMissingMetadata name ∈ out := by
  have hmatch : NamesMatch [snapMetadataA 5, snapNameA 5] := by decide +kernel
  have hread := readSnapRecords_snapLeafImage (length_btreeNode (by decide +kernel) ..)
    snapLeafViews.1
  obtain ⟨out, haudit, hiff⟩ := snapshots_audit_reports_iff hread
  refine ⟨out, haudit, fun hrep => (hiff.mpr ⟨fun hstale => ?_, ?_⟩).mp hrep hmatch⟩
  · obtain ⟨n, hn, hno⟩ := hstale
    obtain ⟨s, hs, hlead⟩ := hmatch.2 n hn
    exact absurd hlead (hno s hs)
  · decide +kernel

/-- A name that outlived its snapshot is not reported; and of two snapshots called `A`, each
with its name record, the second is. -/
theorem snapshots_audit_stale_and_shared :
    (readSnapRecords (snapLeafImage [snapNameA 5]) (soleVolume 2 5) 4096 = .ok [snapNameA 5] ∧
      ¬ NamesMatch [snapNameA 5] ∧
      snapshotsAudit (snapLeafImage [snapNameA 5]) (soleVolume 2 5) 4096 = .ok []) ∧
    readSnapRecords (snapLeafImage twinRecords) (soleVolume 2 5) 4096 = .ok twinRecords ∧
      NamesMatch twinRecords ∧
      ∃ out, snapshotsAudit (snapLeafImage twinRecords) (soleVolume 2 5) 4096 = .ok out ∧
        ∃ name, .snapshotMissingMetadata name ∈ out := by
  have hstale := readSnapRecords_snapLeafImage (length_btreeNode (by decide +kernel) ..)
    snapLeafViews.2.1
  have htwins := readSnapRecords_snapLeafImage (length_btreeNode (by decide +kernel) ..)
    snapLeafViews.2.2
  refine ⟨⟨hstale, by decide +kernel, ?_⟩, htwins, by decide +kernel, ?_⟩
  · obtain ⟨snaps, hperm, haudit⟩ := snapshotsAudit_of_records hstale
    have hnone : snapshotsOf [snapNameA 5] = [] := by decide +kernel
    rw [hnone, List.perm_nil] at hperm
    rw [haudit, hperm]
    rfl
  · obtain ⟨snaps, _, haudit⟩ := snapshotsAudit_of_records htwins
    refine ⟨_, haudit, (reported_iff_nameAstray htwins haudit).mpr ?_⟩
    exact nameAstray_of_sharedName (by decide +kernel)

/-! ### Neighbours in a sorted list -/

section Neighbours

variable {α ι : Type*} [Preorder ι] {key : α → ι}

/-- In a strictly sorted list nothing lies between the two of a window. -/
theorem gap_of_mem_zip_tail {a b : α} : ∀ {l : List α}, l.Pairwise (fun x y => key x < key y) →
    (a, b) ∈ l.zip l.tail →
      a ∈ l ∧ b ∈ l ∧ key a < key b ∧ ∀ c ∈ l, ¬ (key a < key c ∧ key c < key b) := by
  intro l
  induction l with
  | nil => intro _ hmem; exact absurd hmem List.not_mem_nil
  | cons x l ih =>
    intro hsorted hmem
    obtain ⟨hfirst, htail⟩ := List.pairwise_cons.mp hsorted
    cases l with
    | nil => exact absurd hmem List.not_mem_nil
    | cons y l =>
      rcases List.mem_cons.mp hmem with heq | hmem
      · cases heq
        have hrest := (List.pairwise_cons.mp htail).1
        refine ⟨List.mem_cons_self, List.mem_cons_of_mem _ List.mem_cons_self,
          hfirst b List.mem_cons_self, fun c hc hbetween => ?_⟩
        rcases List.mem_cons.mp hc with rfl | hc
        · exact lt_irrefl _ hbetween.1
        · rcases List.mem_cons.mp hc with rfl | hc
          · exact lt_irrefl _ hbetween.2
          · exact lt_asymm (hrest c hc) hbetween.2
      · obtain ⟨ha, hb, hlt, hgap⟩ := ih htail hmem
        refine ⟨List.mem_cons_of_mem _ ha, List.mem_cons_of_mem _ hb, hlt, fun c hc hbetween => ?_⟩
        rcases List.mem_cons.mp hc with rfl | hc
        · exact lt_asymm (hfirst a ha) hbetween.1
        · exact hgap c hc hbetween

/-- Two elements with nothing between are a window. -/
theorem mem_zip_tail_of_gap {a b : α} : ∀ {l : List α}, l.Pairwise (fun x y => key x < key y) →
    a ∈ l → b ∈ l → key a < key b → (∀ c ∈ l, ¬ (key a < key c ∧ key c < key b)) →
      (a, b) ∈ l.zip l.tail := by
  intro l
  induction l with
  | nil => intro _ ha; exact absurd ha List.not_mem_nil
  | cons x l ih =>
    intro hsorted ha hb hlt hgap
    obtain ⟨hfirst, htail⟩ := List.pairwise_cons.mp hsorted
    -- nothing is below the first element
    have hb' : b ∈ l := by
      rcases List.mem_cons.mp hb with rfl | hb
      · rcases List.mem_cons.mp ha with rfl | ha
        · exact absurd hlt (lt_irrefl _)
        · exact absurd hlt (lt_asymm (hfirst a ha))
      · exact hb
    cases l with
    | nil => exact absurd hb' List.not_mem_nil
    | cons y l =>
      rw [List.tail_cons, List.zip_cons_cons, List.mem_cons]
      rcases List.mem_cons.mp ha with rfl | ha
      · left
        rcases List.mem_cons.mp hb' with rfl | hb'
        · rfl
        · -- the second element is between
          have hy : y ∈ a :: y :: l := List.mem_cons_of_mem a List.mem_cons_self
          exact absurd ⟨hfirst y List.mem_cons_self, (List.pairwise_cons.mp htail).1 b hb'⟩
            (hgap y hy)
      · right
        exact ih htail ha hb' hlt fun c hc => hgap c (List.mem_cons_of_mem x hc)

end Neighbours

/-! ### Creation times -/

/-- The snapshot has a creation time, below that of one with a smaller xid. -/
def Predates (snaps : List (Nat × Nat)) (x : Nat) : Prop :=
  ∃ t, (x, t) ∈ snaps ∧ t ≠ 0 ∧ ∃ e ∈ snaps, e.1 < x ∧ t < e.2

/-- The snapshot has a creation time, below that of the one just before it. -/
def PredatesPrevious (snaps : List (Nat × Nat)) (x : Nat) : Prop :=
  ∃ t, (x, t) ∈ snaps ∧ t ≠ 0 ∧ ∃ e ∈ snaps, e.1 < x ∧ t < e.2 ∧
    ∀ c ∈ snaps, ¬ (e.1 < c.1 ∧ c.1 < x)

theorem PredatesPrevious.predates {snaps : List (Nat × Nat)} {x : Nat}
    (h : PredatesPrevious snaps x) : Predates snaps x := by
  obtain ⟨t, hx, ht, e, he, hlt, htime, _⟩ := h
  exact ⟨t, hx, ht, e, he, hlt, htime⟩

section Disorder

variable {snaps snaps' : List (Nat × Nat)}

/-- Distinct xids are sorted strictly. -/
theorem pairwise_sorted_snaps (h : (snaps.map Prod.fst).Nodup) :
    (snaps.insertionSort (fun a b => a.1 ≤ b.1)).Pairwise (fun a b => a.1 < b.1) := by
  have htotal : Std.Total (fun a b : Nat × Nat => a.1 ≤ b.1) := ⟨fun a b => Nat.le_total a.1 b.1⟩
  have htrans : IsTrans (Nat × Nat) (fun a b => a.1 ≤ b.1) := ⟨fun _ _ _ => Nat.le_trans⟩
  have hle := List.pairwise_insertionSort (fun a b : Nat × Nat => a.1 ≤ b.1) snaps
  have hperm := (List.perm_insertionSort (fun a b : Nat × Nat => a.1 ≤ b.1) snaps).map Prod.fst
  have hne := List.pairwise_map.mp (hperm.nodup_iff.mpr h)
  exact (hle.and hne).imp fun hab => lt_of_le_of_ne hab.1 hab.2

/-- **What is reported**: the snapshots that predate the one just before them. -/
theorem mem_snapshotXidDisorder_iff (h : (snaps.map Prod.fst).Nodup) (x : Nat) :
    .snapshotXidDisorder x ∈ snapshotXidDisorder snaps ↔ PredatesPrevious snaps x := by
  have hsorted := pairwise_sorted_snaps h
  have hmem : ∀ e, e ∈ snaps.insertionSort (fun a b => a.1 ≤ b.1) ↔ e ∈ snaps := fun e =>
    (List.perm_insertionSort (fun a b : Nat × Nat => a.1 ≤ b.1) snaps).mem_iff
  rw [snapshotXidDisorder, List.mem_filterMap]
  refine ⟨fun hrep => ?_, fun hprev => ?_⟩
  · obtain ⟨⟨e, x', t⟩, hw, hx⟩ := hrep
    obtain ⟨htimes, heq⟩ := Option.ite_none_right_eq_some.mp hx
    cases heq
    obtain ⟨he, hxt, hlt, hgap⟩ := gap_of_mem_zip_tail hsorted hw
    refine ⟨t, (hmem _).mp hxt, htimes.2.1, e, (hmem e).mp he, hlt, htimes.2.2, fun c hc => ?_⟩
    exact hgap c ((hmem c).mpr hc)
  · obtain ⟨t, hxt, ht, e, he, hlt, htime, hgap⟩ := hprev
    have hw : (e, (x, t)) ∈ (snaps.insertionSort (fun a b => a.1 ≤ b.1)).zip
        (snaps.insertionSort (fun a b => a.1 ≤ b.1)).tail :=
      mem_zip_tail_of_gap hsorted ((hmem e).mpr he) ((hmem _).mpr hxt) hlt
        fun c hc => hgap c ((hmem c).mp hc)
    have htimes : e.2 ≠ 0 ∧ t ≠ 0 ∧ t < e.2 := ⟨by omega, ht, htime⟩
    exact ⟨_, hw, if_pos htimes⟩

/-- The order of the input does not matter. -/
theorem snapshotXidDisorder_of_perm (h : (snaps.map Prod.fst).Nodup) (hperm : snaps'.Perm snaps) :
    snapshotXidDisorder snaps' = snapshotXidDisorder snaps := by
  have h' : (snaps'.map Prod.fst).Nodup := (hperm.map Prod.fst).nodup_iff.mpr h
  have hsort : snaps'.insertionSort (fun a b => a.1 ≤ b.1)
      = snaps.insertionSort (fun a b => a.1 ≤ b.1) := by
    have hboth := ((List.perm_insertionSort (fun a b : Nat × Nat => a.1 ≤ b.1) snaps').trans
      hperm).trans (List.perm_insertionSort (fun a b : Nat × Nat => a.1 ≤ b.1) snaps).symm
    exact hboth.eq_of_pairwise (fun a b _ _ hab hba => absurd hab (lt_asymm hba))
      (pairwise_sorted_snaps h') (pairwise_sorted_snaps h)
  rw [snapshotXidDisorder, snapshotXidDisorder, hsort]

end Disorder

/-- **When the disorder of the snapshots is found.**  For distinct xids the check reports
the snapshots that predate an earlier one, and the same whatever the order of the input,
exactly if each of them predates the one just before it. -/
theorem snapshot_xid_disorder_iff {snaps : List (Nat × Nat)} (h : (snaps.map Prod.fst).Nodup) :
    ((∀ x, .snapshotXidDisorder x ∈ snapshotXidDisorder snaps ↔ Predates snaps x) ∧
      ∀ snaps', snaps'.Perm snaps → snapshotXidDisorder snaps' = snapshotXidDisorder snaps) ↔
    ∀ x, Predates snaps x → PredatesPrevious snaps x := by
  simp only [mem_snapshotXidDisorder_iff h]
  refine ⟨fun hfound x => (hfound.1 x).mpr, fun hprev => ⟨fun x => ?_, fun snaps' hperm => ?_⟩⟩
  · exact ⟨PredatesPrevious.predates, hprev x⟩
  · exact snapshotXidDisorder_of_perm h hperm

/-- Two snapshots, the later one older. -/
theorem snapshot_xid_disorder_pair :
    (.snapshotXidDisorder 2 ∈ snapshotXidDisorder [(2, 50), (1, 100)] ↔
      Predates [(2, 50), (1, 100)] 2) := by
  refine ((snapshot_xid_disorder_iff (by decide)).mpr fun x hx => ?_).1 2
  obtain ⟨t, hxt, ht, e, he, hlt, htime⟩ := hx
  refine ⟨t, hxt, ht, e, he, hlt, htime, fun c hc hbetween => ?_⟩
  simp only [List.mem_cons, Prod.mk.injEq, List.not_mem_nil, or_false] at hxt he hc
  rcases hxt with ⟨rfl, rfl⟩ | ⟨rfl, rfl⟩ <;> rcases he with rfl | rfl <;>
    rcases hc with rfl | rfl <;> omega

/-- The third snapshot predates the first, but not the second. -/
theorem snapshot_xid_disorder_hidden :
    Predates [(1, 100), (2, 50), (3, 60)] 3 ∧
      snapshotXidDisorder [(1, 100), (2, 50), (3, 60)] = [.snapshotXidDisorder 2] := by
  refine ⟨⟨60, by decide, by decide, (1, 100), by decide, by decide, by decide⟩, by decide⟩

end ApfsForensic
