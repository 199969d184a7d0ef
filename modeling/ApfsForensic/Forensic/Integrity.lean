import ApfsForensic.Forensic.Audit

/-!
# The integrity audit

`forensic/src/integrity.rs`.  One object has one block in a checkpoint, so an oid that the
checkpoint maps give two addresses is worth a finding.  The code goes through the mappings
and looks at each oid when it comes to it first.

* `duplicateOidAnomalies_eq`: the findings are those oids, in the order of their first
  sighting.
* `lookup_perm_iff`: a first-match lookup depends on the order of a list exactly if two
  elements of one key have different values.
* `duplicate_oids_and_lookups`: so the audit is silent exactly if `resolve_ephemeral`
  does not depend on the order of the mappings.
-/

namespace ApfsForensic

/-! ### First-match lookups -/

section Lookup

variable {α κ β : Type*} [DecidableEq κ] {key : α → κ} {val : α → β} {l : List α}

/-- Where the key decides the value, the lookup finds what is in the list. -/
theorem lookup_eq_some_iff (h : ∀ a ∈ l, ∀ b ∈ l, key a = key b → val a = val b) {k : κ} {v : β} :
    (l.find? (fun a => key a = k)).map val = some v ↔ ∃ a ∈ l, key a = k ∧ val a = v := by
  rw [Option.map_eq_some_iff]
  refine ⟨fun hfound => ?_, fun hmem => ?_⟩
  · obtain ⟨a, hfind, hval⟩ := hfound
    have hkey := List.find?_some hfind
    rw [decide_eq_true_eq] at hkey
    exact ⟨a, List.mem_of_find?_eq_some hfind, hkey, hval⟩
  · obtain ⟨a, ha, hkey, rfl⟩ := hmem
    cases hfind : l.find? (fun a => key a = k) with
    | none => exact absurd (decide_eq_true hkey) (List.find?_eq_none.mp hfind a ha)
    | some b =>
      have hkey' := List.find?_some hfind
      rw [decide_eq_true_eq] at hkey'
      exact ⟨b, rfl, h b (List.mem_of_find?_eq_some hfind) a ha (hkey'.trans hkey.symm)⟩

/-- **When the order does not matter to a lookup**: the key decides the value. -/
theorem lookup_perm_iff [DecidableEq α] :
    (∀ first second : List α, first.Perm l → second.Perm l → ∀ k,
      (first.find? (fun a => key a = k)).map val = (second.find? (fun a => key a = k)).map val) ↔
    ∀ a ∈ l, ∀ b ∈ l, key a = key b → val a = val b := by
  refine ⟨fun h a ha b hb hkey => ?_, fun h first second hfirst hsecond k => ?_⟩
  · -- either of the two may come first
    have hsame := h _ _ (List.perm_cons_erase ha).symm (List.perm_cons_erase hb).symm (key a)
    rw [List.find?_cons_of_pos (by simp), List.find?_cons_of_pos (by simp [hkey])] at hsame
    exact Option.some.inj hsame
  · have hfun : ∀ {l' : List α}, l'.Perm l →
        ∀ a ∈ l', ∀ b ∈ l', key a = key b → val a = val b :=
      fun hperm a ha b hb => h a (hperm.mem_iff.mp ha) b (hperm.mem_iff.mp hb)
    ext v
    rw [lookup_eq_some_iff (hfun hfirst), lookup_eq_some_iff (hfun hsecond)]
    simp only [hfirst.mem_iff, hsecond.mem_iff]

end Lookup

/-! ### First sightings -/

/-- The list maps the oid to two distinct addresses. -/
def TwoAddresses (mappings : List (Nat × Nat)) (oid : Nat) : Prop :=
  ∃ p q, (oid, p) ∈ mappings ∧ (oid, q) ∈ mappings ∧ p ≠ q

/-- The oid that is reported at a position of the list. -/
def collidingAt (mappings : List (Nat × Nat)) (i : Nat) : Option Nat :=
  match mappings[i]? with
  | none => none
  | some (oid, paddr) =>
    if !((mappings.take i).any fun m => m.1 = oid) ∧
        (mappings.drop (i + 1)).any fun m => m.1 = oid ∧ m.2 ≠ paddr then some oid else none

section Collisions

variable {mappings : List (Nat × Nat)} {i oid : Nat}

/-- It stands there for the first time, and later with another address. -/
theorem collidingAt_eq_some_iff : collidingAt mappings i = some oid ↔
    ∃ before p after, mappings = before ++ (oid, p) :: after ∧ before.length = i ∧
      (∀ m ∈ before, m.1 ≠ oid) ∧ ∃ m ∈ after, m.1 = oid ∧ m.2 ≠ p := by
  rw [collidingAt]
  refine ⟨fun h => ?_, fun h => ?_⟩
  · cases hget : mappings[i]? with
    | none => rw [hget] at h; cases h
    | some m =>
      rw [hget] at h
      obtain ⟨hcond, hoid⟩ := Option.ite_none_right_eq_some.mp h
      cases hoid
      obtain ⟨hi, hm⟩ := List.getElem?_eq_some_iff.mp hget
      refine ⟨mappings.take i, m.2, mappings.drop (i + 1), ?_, List.length_take_of_le hi.le, ?_, ?_⟩
      · rw [Prod.mk.eta, ← hm, ← List.drop_eq_getElem_cons, List.take_append_drop]
      · simpa using hcond.1
      · simpa using hcond.2
  · obtain ⟨before, p, after, rfl, rfl, hfirst, hother⟩ := h
    rw [List.getElem?_append_right le_rfl, Nat.sub_self]
    simp only [List.getElem?_cons_zero, List.take_left, ← List.drop_drop, List.drop_left,
      List.drop_one, List.tail_cons]
    rw [if_pos]
    exact ⟨by simpa using hfirst, by simpa using hother⟩

theorem idxOf_of_collidingAt (h : collidingAt mappings i = some oid) :
    (mappings.map Prod.fst).idxOf oid = i := by
  obtain ⟨before, p, after, rfl, rfl, hfirst, _⟩ := collidingAt_eq_some_iff.mp h
  have hnot : oid ∉ before.map Prod.fst := by
    intro hmem
    obtain ⟨m, hm, hoid⟩ := List.mem_map.mp hmem
    exact hfirst m hm hoid
  rw [List.map_append, List.map_cons, List.idxOf_append_of_notMem hnot, List.idxOf_cons_self,
    List.length_map, Nat.add_zero]

/-- An oid collides at one position exactly if it has two addresses. -/
theorem exists_collidingAt_iff : (∃ i, collidingAt mappings i = some oid) ↔
    TwoAddresses mappings oid := by
  simp only [collidingAt_eq_some_iff]
  refine ⟨fun h => ?_, fun h => ?_⟩
  · obtain ⟨_, before, p, after, rfl, _, _, m, hm, rfl, hne⟩ := h
    exact ⟨p, m.2, by simp, by simp [hm], fun heq => hne heq.symm⟩
  · obtain ⟨p, q, hp, hq, hne⟩ := h
    have hsome : (mappings.find? fun m => m.1 = oid).isSome :=
      List.find?_isSome.mpr ⟨(oid, p), hp, decide_eq_true rfl⟩
    obtain ⟨m, hfind⟩ := Option.isSome_iff_exists.mp hsome
    obtain ⟨hm, before, after, rfl, hfirst⟩ := List.find?_eq_some_iff_append.mp hfind
    rw [decide_eq_true_eq] at hm
    refine ⟨_, before, m.2, after, by rw [← hm], rfl, fun m' hm' => ?_, ?_⟩
    · simpa using hfirst m' hm'
    -- one of the two addresses is not that of the first sighting
    have hlater : ∀ r, (oid, r) ∈ before ++ m :: after → r ≠ m.2 → (oid, r) ∈ after := by
      intro r hr hrm
      rcases List.mem_append.mp hr with hr | hr
      · exact absurd (hfirst _ hr) (by simp)
      · rcases List.mem_cons.mp hr with rfl | hr
        · exact absurd rfl hrm
        · exact hr
    by_cases hpm : p = m.2
    · exact ⟨_, hlater q hq fun hqm => hne (hpm.trans hqm.symm), rfl,
        fun hqm => hne (hpm.trans hqm.symm)⟩
    · exact ⟨_, hlater p hp hpm, rfl, hpm⟩

end Collisions

/-- **The findings**: the oids that collide, position by position. -/
theorem duplicateOidAnomalies_eq (mappings : List (Nat × Nat)) (liveXid : Nat) :
    duplicateOidAnomalies mappings liveXid
      = ((List.range mappings.length).filterMap (collidingAt mappings)).map
          (fun oid => .xidReuse oid liveXid) := by
  rw [duplicateOidAnomalies, List.map_filterMap]
  refine List.filterMap_congr fun i _ => ?_
  rw [collidingAt]
  cases mappings[i]? with
  | none => rfl
  | some m => simp only [apply_ite (Option.map _), Option.map_some, Option.map_none]

theorem mem_collisions_iff {mappings : List (Nat × Nat)} {oid : Nat} :
    oid ∈ (List.range mappings.length).filterMap (collidingAt mappings) ↔
      TwoAddresses mappings oid := by
  rw [← exists_collidingAt_iff, List.mem_filterMap]
  refine ⟨fun h => ?_, fun h => ?_⟩
  · obtain ⟨i, _, hi⟩ := h
    exact ⟨i, hi⟩
  · obtain ⟨i, hi⟩ := h
    refine ⟨i, List.mem_range.mpr ?_, hi⟩
    obtain ⟨before, p, after, rfl, rfl, _⟩ := collidingAt_eq_some_iff.mp hi
    rw [List.length_append, List.length_cons]
    omega

theorem pairwise_collisions (mappings : List (Nat × Nat)) :
    ((List.range mappings.length).filterMap (collidingAt mappings)).Pairwise
      (fun a b => (mappings.map Prod.fst).idxOf a < (mappings.map Prod.fst).idxOf b) := by
  refine List.pairwise_filterMap.mpr (List.pairwise_lt_range.imp fun hij a ha b hb => ?_)
  rw [idxOf_of_collidingAt ha, idxOf_of_collidingAt hb]
  exact hij

/-! ### The audit and the lookups -/

theorem integrityAudit_eq_nil_iff (container : ApfsContainer) :
    integrityAudit container = [] ↔ ∀ m ∈ container.checkpointMappings,
      ∀ m' ∈ container.checkpointMappings, m.oid = m'.oid → m.paddr = m'.paddr := by
  rw [integrityAudit, duplicateOidAnomalies_eq, List.map_eq_nil_iff, List.eq_nil_iff_forall_not_mem]
  simp only [mem_collisions_iff, TwoAddresses, List.mem_map, Prod.mk.injEq]
  refine ⟨fun h m hm m' hm' hoid => ?_, fun h oid htwo => ?_⟩
  · by_contra hne
    exact h m.oid ⟨m.paddr, m'.paddr, ⟨m, hm, rfl, rfl⟩, ⟨m', hm', hoid.symm, rfl⟩, hne⟩
  · obtain ⟨p, q, ⟨m, hm, hoid, rfl⟩, ⟨m', hm', hoid', rfl⟩, hne⟩ := htwo
    exact hne (h m hm m' hm' (hoid.trans hoid'.symm))

/-- **The integrity audit.**  `duplicate_oid_anomalies` reports the oids with two addresses,
each once and in the order of their first occurrence; and the audit is silent exactly if
any two orders of the mappings give the same lookups. -/
theorem duplicate_oids_and_lookups :
    (∀ (mappings : List (Nat × Nat)) (liveXid : Nat), ∃ oids : List Nat,
      duplicateOidAnomalies mappings liveXid = oids.map (fun oid => .xidReuse oid liveXid) ∧
      oids.Nodup ∧ (∀ oid, oid ∈ oids ↔ TwoAddresses mappings oid) ∧
      oids.Pairwise
        (fun a b => (mappings.map Prod.fst).idxOf a < (mappings.map Prod.fst).idxOf b)) ∧
    ∀ container : ApfsContainer, integrityAudit container = [] ↔
      ∀ first second : List CheckpointMapping, first.Perm container.checkpointMappings →
        second.Perm container.checkpointMappings → ∀ oid,
          { container with checkpointMappings := first }.resolveEphemeral oid
            = { container with checkpointMappings := second }.resolveEphemeral oid := by
  refine ⟨fun mappings liveXid => ?_, fun container => ?_⟩
  · have hpairwise := pairwise_collisions mappings
    refine ⟨_, duplicateOidAnomalies_eq mappings liveXid, ?_, fun _ => mem_collisions_iff,
      hpairwise⟩
    refine hpairwise.imp fun hlt heq => ?_
    rw [heq] at hlt
    exact lt_irrefl _ hlt
  · rw [integrityAudit_eq_nil_iff, ← lookup_perm_iff]
    rfl

end ApfsForensic
