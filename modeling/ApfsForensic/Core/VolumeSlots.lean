import ApfsForensic.Core.ApfsContainer
import Mathlib.Data.List.DropRight

/-!
# The slots of the volumes

`nx_fs_oid` of a container superblock has a slot for every volume, and a volume knows the
number of its own.  `NxSuperblock::parse` keeps the oids that are not zero, wherever they
stand, and `volume_superblock_addrs` resolves what was kept.

* `exists_of_noGap`: slots without a gap are oids and then zeros, and of these
  dropping the zeros and trimming the end leave the same.
* `volume_slots_iff`: the slots survive the parsing exactly if no empty one stands before
  an occupied one.
-/

namespace ApfsForensic

open ApfsContainer

/-! ### Slots without a gap -/

/-- No empty slot stands before an occupied one. -/
def NoGap (slots : List Nat) : Prop :=
  ∀ i k oid : Nat, i < k → slots[i]? = some 0 → slots[k]? = some oid → oid = 0

theorem exists_of_noGap : ∀ {slots : List Nat}, NoGap slots →
    ∃ oids n, slots = oids ++ List.replicate n 0 ∧ ∀ oid ∈ oids, oid ≠ 0 := by
  intro slots
  induction slots with
  | nil => intro _; exact ⟨[], 0, rfl, by simp⟩
  | cons s slots ih =>
    intro h
    by_cases hs : s = 0
    · -- all the others are empty
      have hzero : slots = List.replicate slots.length 0 := by
        refine List.eq_replicate_iff.mpr ⟨rfl, fun oid hoid => ?_⟩
        obtain ⟨k, hk⟩ := List.mem_iff_getElem?.mp hoid
        apply h 0 (k + 1) oid (Nat.succ_pos k)
        · rw [List.getElem?_cons_zero, hs]
        · rw [List.getElem?_cons_succ, hk]
      refine ⟨[], slots.length + 1, ?_, by simp⟩
      rw [List.nil_append, List.replicate_succ, ← hzero, hs]
    · have htail : NoGap slots := by
        intro i k oid hik hi hk
        apply h (i + 1) (k + 1) oid (Nat.succ_lt_succ hik)
        · rw [List.getElem?_cons_succ, hi]
        · rw [List.getElem?_cons_succ, hk]
      obtain ⟨oids, n, rfl, hoids⟩ := ih htail
      exact ⟨s :: oids, n, rfl, List.forall_mem_cons.mpr ⟨hs, hoids⟩⟩

section Trim

variable {oids : List Nat}

theorem filter_append_zeros (h : ∀ oid ∈ oids, oid ≠ 0) (n : Nat) :
    (oids ++ List.replicate n 0).filter (· ≠ 0) = oids := by
  rw [List.filter_append, List.filter_eq_self.mpr fun oid hoid => decide_eq_true (h oid hoid),
    List.filter_replicate_of_neg (by simp), List.append_nil]

theorem rdropWhile_append_zeros (h : ∀ oid ∈ oids, oid ≠ 0) (n : Nat) :
    (oids ++ List.replicate n 0).rdropWhile (· = 0) = oids := by
  induction n with
  | zero =>
    rw [List.replicate_zero, List.append_nil, List.rdropWhile_eq_self_iff]
    intro hne hlast
    exact h _ (List.getLast_mem hne) (of_decide_eq_true hlast)
  | succ n ih =>
    rw [List.replicate_succ', ← List.append_assoc, List.rdropWhile_concat_pos _ _ _ (by simp), ih]

end Trim

/-! ### What the parser keeps -/

/-- `nx_fs_oid`, cut to `nx_max_file_systems` slots and to a hundred at most. -/
def fsOidSlots (block : Bytes) : List Nat :=
  (List.range (min (leU32 block 180) nxMaxFileSystems)).map fun i => leU64 block (184 + i * 8)

theorem fsOids_of_parse {block : Bytes} {sb : NxSuperblock}
    (h : NxSuperblock.parse block = .ok sb) : sb.fsOids = (fsOidSlots block).filter (· ≠ 0) := by
  have hlen : 36 ≤ block.length := by
    by_contra hlt
    rw [NxSuperblock.parse, if_pos (by omega)] at h
    cases h
  obtain ⟨_, rfl⟩ := (NxSuperblock.parse_eq_ok_iff hlen).mp h
  rfl

/-- A result of the loop stands where its argument stands. -/
theorem getElem?_of_mapM {α β : Type} {f : α → Result β} : ∀ {l : List α} {out : List β},
    l.mapM f = .ok out → ∀ {k : Nat} {a : α}, l[k]? = some a →
      ∃ b, f a = .ok b ∧ out[k]? = some b := by
  intro l
  induction l with
  | nil => intro out _ k a ha; cases ha
  | cons x l ih =>
    intro out h k a ha
    rw [List.mapM_cons, bind_eq_ok_iff] at h
    obtain ⟨y, hy, h⟩ := h
    rw [bind_eq_ok_iff] at h
    obtain ⟨ys, hys, h⟩ := h
    cases h
    cases k with
    | zero =>
      cases ha
      exact ⟨y, hy, rfl⟩
    | succ k =>
      rw [List.getElem?_cons_succ] at ha ⊢
      exact ih hys ha

/-- What the addresses of `volume_superblock_addrs` are. -/
theorem volumeSuperblockAddrs_ok {image : Image} {container : ApfsContainer} {addrs : List Nat}
    (h : volumeSuperblockAddrs image container = .ok addrs) :
    ∃ omap, readObjectMap image container.superblock.omapOid container.superblock.blockSize
        = .ok omap ∧
      container.superblock.fsOids.mapM (fun fsOid => do
        let entry ← omap.resolve image fsOid container.superblock.xid
          container.superblock.blockSize
        return entry.paddr) = .ok addrs := by
  simp only [volumeSuperblockAddrs, throw_eq_error, error_bind, ite_error_eq_ok_iff,
    bind_eq_ok_iff] at h
  obtain ⟨_, omap, homap, haddrs⟩ := h
  exact ⟨omap, homap, haddrs⟩

/-- The oids are the slots with the end trimmed, and a volume is found at the number of
its slot. -/
structure KeepsSlots (block : Bytes) (sb : NxSuperblock) : Prop where
  trimmed : sb.fsOids = (fsOidSlots block).rdropWhile (· = 0)
  same : ∀ i < sb.fsOids.length, sb.fsOids[i]? = (fsOidSlots block)[i]?
  found : ∀ k oid : Nat, (fsOidSlots block)[k]? = some oid → oid ≠ 0 → sb.fsOids[k]? = some oid
  resolved : ∀ (image : Image) (container : ApfsContainer) (addrs : List Nat),
    container.superblock = sb → volumeSuperblockAddrs image container = .ok addrs →
    ∀ k oid : Nat, (fsOidSlots block)[k]? = some oid → oid ≠ 0 →
      ∃ omap entry, readObjectMap image sb.omapOid sb.blockSize = .ok omap ∧
        omap.resolve image oid sb.xid sb.blockSize = .ok entry ∧ addrs[k]? = some entry.paddr

/-- What is found among the oids is found among the addresses. -/
theorem resolved_of_found {image : Image} {container : ApfsContainer} {addrs : List Nat}
    {k oid : Nat} (haddrs : volumeSuperblockAddrs image container = .ok addrs)
    (h : container.superblock.fsOids[k]? = some oid) :
    ∃ omap entry, readObjectMap image container.superblock.omapOid container.superblock.blockSize
        = .ok omap ∧
      omap.resolve image oid container.superblock.xid container.superblock.blockSize
        = .ok entry ∧ addrs[k]? = some entry.paddr := by
  obtain ⟨omap, homap, hmap⟩ := volumeSuperblockAddrs_ok haddrs
  obtain ⟨paddr, hpaddr, hk⟩ := getElem?_of_mapM hmap h
  rw [bind_eq_ok_iff] at hpaddr
  obtain ⟨entry, hentry, hret⟩ := hpaddr
  cases hret
  exact ⟨omap, entry, homap, hentry, hk⟩

/-- **When volumes keep their slots.**  The oids of a superblock are its slots with the
trailing zeros trimmed, and every volume is found at its index, exactly if no empty slot
stands before an occupied one. -/
theorem volume_slots_iff {block : Bytes} {sb : NxSuperblock}
    (h : NxSuperblock.parse block = .ok sb) :
    KeepsSlots block sb ↔ NoGap (fsOidSlots block) := by
  have hkept := fsOids_of_parse h
  refine ⟨fun hkeeps i k oid hik hi hk => ?_, fun hgap => ?_⟩
  · by_contra hne
    have hfound := hkeeps.found k oid hk hne
    have hlt : k < sb.fsOids.length := (List.getElem?_eq_some_iff.mp hfound).1
    have hzero := hkeeps.same i (by omega)
    rw [hi] at hzero
    have hmem := List.mem_of_getElem? hzero
    rw [hkept, List.mem_filter] at hmem
    exact absurd hmem.2 (by decide)
  · obtain ⟨oids, n, hslots, hoids⟩ := exists_of_noGap hgap
    have hfs : sb.fsOids = oids := by rw [hkept, hslots, filter_append_zeros hoids]
    have hfound : ∀ k oid : Nat, (fsOidSlots block)[k]? = some oid → oid ≠ 0 →
        sb.fsOids[k]? = some oid := by
      intro k oid hk hne
      rw [hslots, List.getElem?_append] at hk
      by_cases hlt : k < oids.length
      · rw [if_pos hlt] at hk
        rw [hfs, hk]
      · rw [if_neg hlt] at hk
        exact absurd (List.eq_of_mem_replicate (List.mem_of_getElem? hk)) hne
    refine ⟨?_, fun i hi => ?_, hfound, fun image container addrs hsb haddrs k oid hk hne => ?_⟩
    · rw [hfs, hslots, rdropWhile_append_zeros hoids]
    · rw [hfs] at hi
      rw [hfs, hslots, List.getElem?_append_left hi]
    · subst hsb
      exact resolved_of_found haddrs (hfound k oid hk hne)

/-! Superblocks with two slots. -/

/-- A superblock with these two slots. -/
def twoSlotBlock (first second : Nat) : Bytes :=
  sealBlock (padTo 4088 (objHdr 1 2 0x80000001 0 ++ toLeBytes 4 0x4253584E ++ toLeBytes 4 4096 ++
    List.replicate 64 0 ++ toLeBytes 4 1 ++ toLeBytes 4 0 ++ toLeBytes 8 1 ++
    List.replicate 40 0 ++ toLeBytes 8 2 ++ List.replicate 12 0 ++ toLeBytes 4 2 ++
    toLeBytes 8 first ++ toLeBytes 8 second))

/-- The superblock that the block holds. -/
def twoSlotSuperblock (oids : List Nat) : NxSuperblock :=
  { pairSuperblock 2 4096 0 with omapOid := 2, fsOids := oids }

/-- What the two blocks say. -/
def TwoSlotHeaders : Prop :=
  (NxSuperblock.parse (twoSlotBlock 1026 0) = .ok (twoSlotSuperblock [1026]) ∧
    fsOidSlots (twoSlotBlock 1026 0) = [1026, 0]) ∧
  NxSuperblock.parse (twoSlotBlock 0 1026) = .ok (twoSlotSuperblock [1026]) ∧
    fsOidSlots (twoSlotBlock 0 1026) = [0, 1026]

instance : Decidable TwoSlotHeaders := inferInstanceAs (Decidable (_ ∧ _))

theorem twoSlotHeaders : TwoSlotHeaders := by decide +kernel

theorem volume_slots_first : KeepsSlots (twoSlotBlock 1026 0) (twoSlotSuperblock [1026]) := by
  refine (volume_slots_iff twoSlotHeaders.1.1).mpr fun i k oid hik hi hk => ?_
  rw [twoSlotHeaders.1.2] at hi hk
  cases k with
  | zero => exact absurd hik (Nat.not_lt_zero i)
  | succ k =>
    have hlt : k + 1 < 2 := (List.getElem?_eq_some_iff.mp hk).1
    obtain rfl : k = 0 := by omega
    cases hk
    rfl

/-- The volume of slot one is found at index zero, and nothing at index one. -/
theorem volume_slots_second :
    NxSuperblock.parse (twoSlotBlock 0 1026) = .ok (twoSlotSuperblock [1026]) ∧
      fsOidSlots (twoSlotBlock 0 1026) = [0, 1026] ∧
      ∀ (image : Image) (container : ApfsContainer) (addrs : List Nat),
        container.superblock = twoSlotSuperblock [1026] →
        volumeSuperblockAddrs image container = .ok addrs → addrs[1]? = none := by
  refine ⟨twoSlotHeaders.2.1, twoSlotHeaders.2.2, fun image container addrs hsb haddrs => ?_⟩
  obtain ⟨omap, _, hmap⟩ := volumeSuperblockAddrs_ok haddrs
  rw [hsb] at hmap
  simp only [twoSlotSuperblock, List.mapM_cons, List.mapM_nil, bind_eq_ok_iff] at hmap
  obtain ⟨paddr, _, rest, hrest, hret⟩ := hmap
  cases hrest
  cases hret
  rfl

end ApfsForensic
