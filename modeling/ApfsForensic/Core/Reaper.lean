import ApfsForensic.Core.Checkpoint
import ApfsForensic.Core.Spaceman
import ApfsForensic.Walk.Chain

/-!
# The reaper

`core/src/reaper.rs`.  Objects that are deleted but not yet freed stand on a chain of
reap lists.  The lists are named by ephemeral oids, which the mappings of the live
checkpoint resolve.

The loop over the lists is the `follow` of the library at `fetchReapList`
(`reapListsFrom_eq_follow`).

* `pending_objects_iff`: the lists are read up to the end of the chain, or to the first
  that is defective, and the result is that of the position where the reading ended.
-/

namespace ApfsForensic

open Walk

/-- `ReapPending`. -/
structure ReapPending where
  oid : Nat
  objType : Nat
  deriving DecidableEq, Repr

/-- `MAX_REAP_LISTS`. -/
def maxReapLists : Nat := 4096

/-- The entries of a list that name an object; the count is cut to what a block holds. -/
def reapListEntries (blockSize : Nat) (list : Bytes) : List ReapPending :=
  (List.range (min (leU32 list 48) ((blockSize - 64) / 40))).filterMap fun i =>
    let e := 64 + i * 40
    let oid := leU64 list (e + 24)
    if oid ≠ 0 then some { oid, objType := leU32 list (e + 8) } else none

/-- The loop over the chain, with `left` of `maxReapLists` lists to go.  When none is
left, a further oid is seen already or one too many: both are the cycle guard. -/
def reapListsFrom (image : Image) (mappings : List CheckpointMapping) (blockSize : Nat) :
    (left : Nat) → (seen : List Nat) → (nextOid : Nat) → (out : List ReapPending) →
      Result (List ReapPending)
  | 0, _, nextOid, out =>
    if nextOid = 0 then .ok out else .error (.err (.cycleGuard maxReapLists))
  | left + 1, seen, nextOid, out =>
    if nextOid = 0 then .ok out
    else if nextOid ∈ seen then .error (.err (.cycleGuard maxReapLists))
    else
      match mappings.find? (fun m => m.oid = nextOid) with
      | none => .error (.err (.omapUnresolved nextOid 0))
      | some m => do
        let list ← readObjBlock image m.paddr blockSize
        reapListsFrom image mappings blockSize left (nextOid :: seen) (leU64 list 32)
          (out ++ reapListEntries blockSize list)

/-- `pending_objects`. -/
def pendingObjects (image : Image) (reaperPaddr : Nat) (mappings : List CheckpointMapping)
    (blockSize : Nat) : Result (List ReapPending) := do
  let reaper ← readObjBlock image reaperPaddr blockSize
  let nrOid := leU64 reaper 88
  let out : List ReapPending := if nrOid ≠ 0 then [⟨nrOid, leU32 reaper 72⟩] else []
  reapListsFrom image mappings blockSize maxReapLists [] (leU64 reaper 48) out

/-! ### The chain of reap lists -/

/-- The oid of a list, if there is one. -/
def reapRef (oid : Nat) : Option Nat := if oid = 0 then none else some oid

/-- The list behind an oid, and the reference to the next one. -/
def fetchReapList (image : Image) (mappings : List CheckpointMapping) (blockSize oid : Nat) :
    Result (Bytes × Option Nat) :=
  match mappings.find? (fun m => m.oid = oid) with
  | none => .error (.err (.omapUnresolved oid 0))
  | some m => (readObjBlock image m.paddr blockSize).map fun list =>
      (list, reapRef (leU64 list 32))

section Chain

variable {image : Image} {mappings : List CheckpointMapping} {blockSize : Nat}

theorem reapListsFrom_eq_follow : ∀ (left : Nat) (seen : List Nat) (nextOid : Nat)
    (out : List ReapPending),
    reapListsFrom image mappings blockSize left seen nextOid out
      = (follow (fetchReapList image mappings blockSize) (.err (.cycleGuard maxReapLists)) left
          seen (reapRef nextOid)).map
          (fun lists => out ++ lists.flatMap (reapListEntries blockSize)) := by
  intro left
  induction left with
  | zero =>
    intro seen nextOid out
    rw [reapListsFrom, reapRef]
    by_cases hzero : nextOid = 0
    · rw [if_pos hzero, if_pos hzero, follow_none, Except.map, List.flatMap_nil, List.append_nil]
    · rw [if_neg hzero, if_neg hzero]
      rfl
  | succ left ih =>
    intro seen nextOid out
    rw [reapListsFrom, reapRef]
    by_cases hzero : nextOid = 0
    · rw [if_pos hzero, if_pos hzero, follow_none, Except.map, List.flatMap_nil, List.append_nil]
    rw [if_neg hzero, if_neg hzero, follow]
    by_cases hseen : nextOid ∈ seen
    · rw [if_pos hseen, if_pos hseen]
      rfl
    rw [if_neg hseen, if_neg hseen, fetchReapList]
    cases mappings.find? (fun m => m.oid = nextOid) with
    | none => rfl
    | some m =>
      simp only
      cases readObjBlock image m.paddr blockSize with
      | error f => rfl
      | ok list =>
        simp only [ok_bind, Except.map, ih]
        cases follow (fetchReapList image mappings blockSize) (.err (.cycleGuard maxReapLists)) left
            (nextOid :: seen) (reapRef (leU64 list 32)) with
        | error f => rfl
        | ok lists => simp only [List.flatMap_cons, List.append_assoc]

end Chain

/-! ### What is pending -/

/-- The reap lists of `path`, each with its oid, are chained from `head` to `stop`: every
oid is not zero, mapped by its first mapping and leads to a valid list. -/
inductive ReapChain (image : Image) (mappings : List CheckpointMapping) (blockSize : Nat) :
    Nat → List (Nat × Bytes) → Nat → Prop
  | refl (head : Nat) : ReapChain image mappings blockSize head [] head
  | step {oid stop : Nat} {m : CheckpointMapping} {list : Bytes} {path : List (Nat × Bytes)} :
      oid ≠ 0 → mappings.find? (fun m => m.oid = oid) = some m →
      readObjBlock image m.paddr blockSize = .ok list →
      ReapChain image mappings blockSize (leU64 list 32) path stop →
      ReapChain image mappings blockSize oid ((oid, list) :: path) stop

/-- The object whose reaping is in progress. -/
def inProgress (reaper : Bytes) : List ReapPending :=
  [⟨leU64 reaper 88, leU32 reaper 72⟩].filter (fun p => p.oid ≠ 0)

/-- The `nx_reap_list_entry_t`s of 40 bytes that fit a block behind the header. -/
def reapListCapacity (blockSize : Nat) : Nat := (blockSize - 64) / 40

/-- The entries that a list declares, as far as they fit, without the empty ones. -/
def queuedObjects (blockSize : Nat) (list : Bytes) : List ReapPending :=
  ((List.range (min (leU32 list 48) (reapListCapacity blockSize))).map fun i =>
    (⟨leU64 list (64 + i * 40 + 24), leU32 list (64 + i * 40 + 8)⟩ : ReapPending)).filter
    (fun p => p.oid ≠ 0)

/-- The result, by what stands behind the lists of `path`.  The checks of a position come in
this order. -/
inductive ReapEnd (image : Image) (mappings : List CheckpointMapping) (blockSize : Nat)
    (reaper : Bytes) (path : List (Nat × Bytes)) : Nat → Result (List ReapPending) → Prop
  | finished : ReapEnd image mappings blockSize reaper path 0
      (.ok (inProgress reaper ++ path.flatMap fun l => queuedObjects blockSize l.2))
  | guarded {oid : Nat} : oid ≠ 0 → oid ∈ path.map Prod.fst ∨ path.length = 4096 →
      ReapEnd image mappings blockSize reaper path oid (.error (.err (.cycleGuard 4096)))
  | unmapped {oid : Nat} : oid ≠ 0 → oid ∉ path.map Prod.fst → path.length < 4096 →
      mappings.find? (fun m => m.oid = oid) = none →
      ReapEnd image mappings blockSize reaper path oid (.error (.err (.omapUnresolved oid 0)))
  | unreadable {oid : Nat} {m : CheckpointMapping} {e : ApfsError} : oid ≠ 0 →
      oid ∉ path.map Prod.fst → path.length < 4096 →
      mappings.find? (fun m => m.oid = oid) = some m →
      readObjBlock image m.paddr blockSize = .error (.err e) →
      (∃ kind, e = .io kind) ∨
        (∃ block stored computed, e = .checksumMismatch block stored computed) →
      ReapEnd image mappings blockSize reaper path oid (.error (.err e))

theorem reapListEntries_eq (blockSize : Nat) (list : Bytes) :
    reapListEntries blockSize list = queuedObjects blockSize list := by
  rw [queuedObjects, List.filter_map, ← List.filterMap_eq_map, List.filterMap_filter]
  refine List.filterMap_congr fun i _ => ?_
  simp

/-- An object block fails in one of two ways. -/
theorem readObjBlock_error {image : Image} {paddr blockSize : Nat} {f : Fault}
    (h : readObjBlock image paddr blockSize = .error f) :
    ∃ e, f = .err e ∧ ((∃ kind, e = .io kind) ∨
      ∃ block stored computed, e = .checksumMismatch block stored computed) := by
  rw [readObjBlock] at h
  cases hread : image.readBlock paddr blockSize with
  | error f' =>
    rw [hread] at h
    cases h
    exact ⟨_, (Image.readExact_error hread).1, Or.inl ⟨_, rfl⟩⟩
  | ok buf =>
    rw [hread, ok_bind, verifyChecksum] at h
    by_cases hsum : fletcher64Stored buf ≠ fletcher64Checksum buf
    · rw [if_pos hsum] at h
      cases h
      exact ⟨_, rfl, Or.inr ⟨_, _, _, rfl⟩⟩
    · rw [if_neg hsum] at h
      cases h

section Pending

variable {image : Image} {mappings : List CheckpointMapping} {blockSize : Nat} {reaper : Bytes}
  {path : List (Nat × Bytes)}

theorem reapRef_eq_some_iff {oid k : Nat} : reapRef oid = some k ↔ oid ≠ 0 ∧ k = oid := by
  rw [reapRef]
  by_cases hzero : oid = 0
  · simp [hzero]
  · simp [hzero, eq_comm]

theorem fetchReapList_ok_iff {oid : Nat} {list : Bytes} {next : Option Nat} :
    fetchReapList image mappings blockSize oid = .ok (list, next) ↔
      ∃ m, mappings.find? (fun m => m.oid = oid) = some m ∧
        readObjBlock image m.paddr blockSize = .ok list ∧ next = reapRef (leU64 list 32) := by
  rw [fetchReapList]
  cases mappings.find? (fun m => m.oid = oid) with
  | none => simp
  | some m =>
    simp only [Option.some.injEq, exists_eq_left']
    cases readObjBlock image m.paddr blockSize with
    | error f => simp [Except.map]
    | ok list' =>
      simp only [Except.map, Except.ok.injEq, Prod.mk.injEq]
      constructor
      · rintro ⟨rfl, rfl⟩
        exact ⟨rfl, rfl⟩
      · rintro ⟨rfl, rfl⟩
        exact ⟨rfl, rfl⟩

/-- The library's chain is the chain of lists. -/
theorem links_of_reapChain {head stop : Nat}
    (h : ReapChain image mappings blockSize head path stop) :
    Links (fetchReapList image mappings blockSize) (reapRef head) path (reapRef stop) := by
  induction h with
  | refl head => exact .refl _
  | step hne hmap hread _ ih =>
    rw [reapRef_eq_some_iff.mpr ⟨hne, rfl⟩]
    exact .step (fetchReapList_ok_iff.mpr ⟨_, hmap, hread, rfl⟩) ih

theorem reapChain_of_links {start stop : Option Nat}
    (h : Links (fetchReapList image mappings blockSize) start path stop) :
    ∀ {head : Nat}, start = reapRef head →
      ∃ oid, stop = reapRef oid ∧ ReapChain image mappings blockSize head path oid := by
  induction h with
  | refl start => exact fun {head} hstart => ⟨head, hstart, .refl head⟩
  | step hfetch _ ih =>
    intro head hstart
    obtain ⟨hne, rfl⟩ := reapRef_eq_some_iff.mp hstart.symm
    obtain ⟨m, hmap, hread, rfl⟩ := fetchReapList_ok_iff.mp hfetch
    obtain ⟨oid, hstop, hchain⟩ := ih rfl
    exact ⟨oid, hstop, .step hne hmap hread hchain⟩

/-- What is pending, once the lists are read. -/
def allPending (blockSize : Nat) (reaper : Bytes) (lists : List Bytes) : List ReapPending :=
  inProgress reaper ++ lists.flatMap (reapListEntries blockSize)

theorem pendingObjects_eq (reaperPaddr : Nat)
    (hread : readObjBlock image reaperPaddr blockSize = .ok reaper) :
    pendingObjects image reaperPaddr mappings blockSize
      = (follow (fetchReapList image mappings blockSize) (.err (.cycleGuard maxReapLists))
          maxReapLists [] (reapRef (leU64 reaper 48))).map (allPending blockSize reaper) := by
  have hout : (if leU64 reaper 88 ≠ 0 then [⟨leU64 reaper 88, leU32 reaper 72⟩] else [])
      = inProgress reaper := by
    rw [inProgress]
    by_cases hzero : leU64 reaper 88 = 0 <;> simp [hzero]
  rw [pendingObjects, hread, ok_bind]
  simp only [hout, reapListsFrom_eq_follow]
  rfl

theorem allPending_path :
    allPending blockSize reaper (path.map Prod.snd)
      = inProgress reaper ++ path.flatMap fun l => queuedObjects blockSize l.2 := by
  rw [allPending, List.flatMap_map]
  simp only [reapListEntries_eq]

/-- The position that ends the reading decides the result. -/
theorem reapEnd_iff {stop : Nat} {r : Result (List ReapPending)} :
    ReapEnd image mappings blockSize reaper path stop r ↔
      ∃ lists, ChainEnd (fetchReapList image mappings blockSize) (.err (.cycleGuard maxReapLists))
        maxReapLists path (reapRef stop) lists ∧ r = lists.map (allPending blockSize reaper) := by
  constructor
  · intro h
    cases h with
    | finished => exact ⟨_, .done, by rw [Except.map, allPending_path]⟩
    | guarded hne hguard =>
      rw [reapRef_eq_some_iff.mpr ⟨hne, rfl⟩]
      exact ⟨_, .guarded hguard, rfl⟩
    | unmapped hne hnew hlt hmap =>
      rw [reapRef_eq_some_iff.mpr ⟨hne, rfl⟩]
      exact ⟨_, .failed hnew hlt (by rw [fetchReapList, hmap]), rfl⟩
    | unreadable hne hnew hlt hmap hread _ =>
      rw [reapRef_eq_some_iff.mpr ⟨hne, rfl⟩]
      exact ⟨_, .failed hnew hlt (by simp only [fetchReapList, hmap, hread, Except.map]), rfl⟩
  · rintro ⟨lists, hend, rfl⟩
    generalize hstop : reapRef stop = ref at hend
    cases hend with
    | done =>
      have hzero : stop = 0 := by
        by_contra hne
        rw [reapRef, if_neg hne] at hstop
        cases hstop
      rw [hzero, Except.map, allPending_path]
      exact .finished
    | guarded hguard =>
      obtain ⟨hne, rfl⟩ := reapRef_eq_some_iff.mp hstop
      exact .guarded hne hguard
    | failed hnew hlt hfetch =>
      obtain ⟨hne, hk⟩ := reapRef_eq_some_iff.mp hstop
      rw [hk] at hnew hfetch
      rw [fetchReapList] at hfetch
      cases hmap : mappings.find? (fun m => m.oid = stop) with
      | none =>
        rw [hmap] at hfetch
        cases hfetch
        exact .unmapped hne hnew hlt hmap
      | some m =>
        simp only [hmap] at hfetch
        cases hread : readObjBlock image m.paddr blockSize with
        | ok list => rw [hread] at hfetch; cases hfetch
        | error f =>
          rw [hread] at hfetch
          cases hfetch
          obtain ⟨e, rfl, hkind⟩ := readObjBlock_error hread
          exact .unreadable hne hnew hlt hmap hread hkind

end Pending

/-- **What `pending_objects` returns.**  An invalid reaper block gives its error.  Otherwise
the lists are read, in the order of the chain, up to a position that ends the reading: the
end of the chain gives every object of the reaper and of the lists, any other position
the error of the first check that fails there. -/
theorem pending_objects_iff (image : Image) (reaperPaddr : Nat) (mappings : List CheckpointMapping)
    (blockSize : Nat) (r : Result (List ReapPending)) :
    pendingObjects image reaperPaddr mappings blockSize = r ↔
      (∃ f, readObjBlock image reaperPaddr blockSize = .error f ∧ r = .error f) ∨
      ∃ reaper path stop, readObjBlock image reaperPaddr blockSize = .ok reaper ∧
        ReapChain image mappings blockSize (leU64 reaper 48) path stop ∧
        (path.map Prod.fst).Nodup ∧ path.length ≤ 4096 ∧
        ReapEnd image mappings blockSize reaper path stop r := by
  cases hread : readObjBlock image reaperPaddr blockSize with
  | error f =>
    rw [pendingObjects, hread, error_bind]
    constructor
    · rintro rfl
      exact Or.inl ⟨f, rfl, rfl⟩
    · rintro (⟨f', hf, rfl⟩ | ⟨reaper, path, stop, hreaper, _⟩)
      · cases hf
        rfl
      · cases hreaper
  | ok reaper =>
    rw [pendingObjects_eq reaperPaddr hread]
    generalize hfollow : follow (fetchReapList image mappings blockSize) _ _ _ _ = lists
    constructor
    · rintro rfl
      obtain ⟨path, stop, hlinks, hnodup, hlen, hend⟩ := follow_eq_iff.mp hfollow
      obtain ⟨oid, rfl, hchain⟩ := reapChain_of_links hlinks rfl
      exact Or.inr ⟨reaper, path, oid, rfl, hchain, hnodup, hlen, reapEnd_iff.mpr ⟨_, hend, rfl⟩⟩
    · rintro (⟨f, hf, _⟩ | ⟨reaper', path, stop, hreaper, hchain, hnodup, hlen, hend⟩)
      · cases hf
      · cases hreaper
        obtain ⟨lists', hlists, rfl⟩ := reapEnd_iff.mp hend
        have hlists' := follow_of_chainEnd (links_of_reapChain hchain) hnodup hlen hlists
        exact congrArg _ (hfollow.symm.trans hlists')

end ApfsForensic
