import ApfsForensic.Walk.Tree

/-!
# Walking a tree of references under a guard

`guardedWalk` descends from a reference, children in order, and folds `visit`
over the records of the leaves.  Two guards keep it finite on any graph of
references: a cap on the number of levels, and a list of the guard ids met so
far, in which no id may come up twice.  Each failed guard is the same error
`cycle`; an error of `fetch` ends the walk too.

On a stored tree nothing but the guards can fail, and they fail exactly when
the tree is too high or an id comes up twice:

* `guardedWalk_ok`: a stored tree within the cap whose ids are `Fresh` is walked
  to its end, and the result folds `visit` over `t.records`.
* `guardedWalk_error`: any other stored tree gives `cycle`.

The guard id of a reference is `gid k`.  A reader whose references live in more
than one address space may give two references one id; `Fresh` is about ids, so
the two theorems say what that costs.

A keyed walk drops the children that a predicate on the separators rules out
(`pruneEntries`).  It is the walk of the pruned tree (`Tree.prune_stored`), and
`guardedWalk_prune` says that pruning loses no record of interest when no pruned
child holds one (`Tree.Covers`).  Separators that bracket the records below them
(`Tree.Bracketed`) give that for a predicate on keys.
-/

namespace ApfsForensic.Walk

universe u v w

variable {β : Type u} {κ : Type v} {ρ : Type w} {ε ι σ : Type*}

def guardedWalk [DecidableEq ι] (fetch : κ → Except ε (NodeView β κ ρ)) (gid : κ → ι) (cycle : ε)
    (visit : σ → ρ → σ) : Nat → κ → List ι × σ → Except ε (List ι × σ)
  | 0, _, _ => .error cycle
  | levels + 1, k, (visited, acc) =>
    if gid k ∈ visited then .error cycle
    else
      match fetch k with
      | .error e => .error e
      | .ok (.leaf rs) => .ok (gid k :: visited, rs.foldl visit acc)
      | .ok (.index es) =>
        es.foldlM (fun s e => guardedWalk fetch gid cycle visit levels e.2 s) (gid k :: visited, acc)

/-- Whatever the accumulator is mapped to, the walk takes the same path. -/
theorem guardedWalk_map {τ : Type*} [DecidableEq ι] (fetch : κ → Except ε (NodeView β κ ρ))
    (gid : κ → ι) (cycle : ε) (visit : σ → ρ → σ) (visit' : τ → ρ → τ) (f : σ → τ)
    (hf : ∀ a r, f (visit a r) = visit' (f a) r) : ∀ (levels : Nat) (k : κ) (s : List ι × σ),
      guardedWalk fetch gid cycle visit' levels k (s.1, f s.2)
        = (guardedWalk fetch gid cycle visit levels k s).map (fun s => (s.1, f s.2)) := by
  have hleaf : ∀ (rs : List ρ) (a : σ), f (rs.foldl visit a) = rs.foldl visit' (f a) := by
    intro rs
    induction rs with
    | nil => intro a; rfl
    | cons r rs ih => intro a; rw [List.foldl_cons, List.foldl_cons, ih, hf]
  intro levels
  induction levels with
  | zero => intro k s; rfl
  | succ levels ih =>
    intro k s
    obtain ⟨visited, acc⟩ := s
    simp only [guardedWalk]
    split
    · rfl
    · cases fetch k with
      | error e => rfl
      | ok node =>
        cases node with
        | leaf rs => simp only [Except.map, hleaf]
        | index es =>
          -- the children, one after the other
          show es.foldlM _ ((gid k :: visited, acc).1, f (gid k :: visited, acc).2) = _
          generalize (gid k :: visited, acc) = s
          induction es generalizing s with
          | nil => rfl
          | cons e es ihs =>
            simp only [List.foldlM_cons]
            rw [ih e.2 s]
            cases guardedWalk fetch gid cycle visit levels e.2 s with
            | error e => rfl
            | ok s => exact ihs s

/-! ### Guard ids -/

/-- The ids of `ks` are new to `visited`, one after the other. -/
def Fresh (gid : κ → ι) : List κ → List ι → Prop
  | [], _ => True
  | k :: ks, visited => gid k ∉ visited ∧ Fresh gid ks (gid k :: visited)

/-- The guard list after the nodes `ks`. -/
def mark (gid : κ → ι) (ks : List κ) (visited : List ι) : List ι :=
  ks.foldl (fun v k => gid k :: v) visited

theorem mark_append (gid : κ → ι) (ks ks' : List κ) (visited : List ι) :
    mark gid (ks ++ ks') visited = mark gid ks' (mark gid ks visited) := by
  rw [mark, mark, mark, List.foldl_append]

theorem fresh_append (gid : κ → ι) : ∀ (ks ks' : List κ) (visited : List ι),
    Fresh gid (ks ++ ks') visited ↔ Fresh gid ks visited ∧ Fresh gid ks' (mark gid ks visited) := by
  intro ks
  induction ks with
  | nil => intro ks' visited; simp [Fresh, mark]
  | cons k ks ih =>
    intro ks' visited
    rw [List.cons_append, Fresh, Fresh, ih, and_assoc]
    rfl

theorem fresh_iff (gid : κ → ι) : ∀ (ks : List κ) (visited : List ι),
    Fresh gid ks visited ↔ (ks.map gid).Nodup ∧ ∀ k ∈ ks, gid k ∉ visited := by
  intro ks
  induction ks with
  | nil => intro visited; simp [Fresh]
  | cons k ks ih =>
    intro visited
    rw [Fresh, ih, List.map_cons, List.nodup_cons]
    constructor
    · rintro ⟨hk, hnd, hks⟩
      refine ⟨⟨?_, hnd⟩, ?_⟩
      · intro hmem
        obtain ⟨j, hj, he⟩ := List.mem_map.mp hmem
        exact hks j hj (he ▸ List.mem_cons_self)
      · intro j hj
        rcases List.mem_cons.mp hj with rfl | hj
        · exact hk
        · exact fun h => hks j hj (List.mem_cons_of_mem _ h)
    · rintro ⟨⟨hk, hnd⟩, hks⟩
      refine ⟨hks k List.mem_cons_self, hnd, ?_⟩
      intro j hj hmem
      rcases List.mem_cons.mp hmem with he | hmem
      · exact hk (he ▸ List.mem_map_of_mem hj)
      · exact hks j (List.mem_cons_of_mem _ hj) hmem

theorem Fresh.sublist {gid : κ → ι} {ks ks' : List κ} {visited : List ι}
    (h : Fresh gid ks visited) (hs : ks'.Sublist ks) : Fresh gid ks' visited := by
  rw [fresh_iff] at h ⊢
  exact ⟨h.1.sublist (hs.map gid), fun k hk => h.2 k (hs.subset hk)⟩

/-! ### The walk of a stored tree -/

section Stored

variable [DecidableEq ι]
variable (fetch : κ → Except ε (NodeView β κ ρ)) (gid : κ → ι) (cycle : ε) (visit : σ → ρ → σ)

mutual

/-- **A stored tree within the cap, no id twice, is walked to its end.** -/
theorem guardedWalk_ok : ∀ (t : Tree β κ ρ) (levels : Nat) (visited : List ι) (acc : σ),
    t.Stored fetch → t.height ≤ levels → Fresh gid t.nodes visited →
    guardedWalk fetch gid cycle visit levels t.key (visited, acc)
      = .ok (mark gid t.nodes visited, t.records.foldl visit acc)
  | t, 0, visited, acc, _, hh, _ => by
    have := t.height_pos
    omega
  | .leaf k rs, levels + 1, visited, acc, hs, _, hf => by
    rw [Tree.Stored] at hs
    simp only [Tree.nodes, Fresh, and_true] at hf
    simp only [Tree.key_leaf, guardedWalk, if_neg hf, hs, Tree.records, Tree.nodes]
    rfl
  | .index k cs, levels + 1, visited, acc, hs, hh, hf => by
    rw [Tree.Stored] at hs
    rw [Tree.height] at hh
    simp only [Tree.nodes, Fresh] at hf
    simp only [Tree.key_index, guardedWalk, if_neg hf.1, hs.1, Tree.records, Tree.nodes]
    exact foldlM_ok cs levels (gid k :: visited) acc hs.2 (by omega) hf.2

theorem foldlM_ok : ∀ (cs : Forest β κ ρ) (levels : Nat) (visited : List ι) (acc : σ),
    cs.Stored fetch → cs.height ≤ levels → Fresh gid cs.nodes visited →
    cs.entries.foldlM (fun s e => guardedWalk fetch gid cycle visit levels e.2 s) (visited, acc)
      = .ok (mark gid cs.nodes visited, cs.records.foldl visit acc)
  | .nil, _, _, _, _, _, _ => rfl
  | .cons s t r, levels, visited, acc, hs, hh, hf => by
    rw [Forest.Stored] at hs
    rw [Forest.height, max_le_iff] at hh
    rw [Forest.nodes, fresh_append] at hf
    rw [Forest.entries, List.foldlM_cons, guardedWalk_ok t levels visited acc hs.1 hh.1 hf.1,
      Forest.nodes, Forest.records, mark_append, List.foldl_append]
    exact foldlM_ok r levels _ _ hs.2 hh.2 hf.2

end

mutual

/-- **Any other stored tree trips a guard.** -/
theorem guardedWalk_error : ∀ (t : Tree β κ ρ) (levels : Nat) (visited : List ι) (acc : σ),
    t.Stored fetch → ¬ (t.height ≤ levels ∧ Fresh gid t.nodes visited) →
    guardedWalk fetch gid cycle visit levels t.key (visited, acc) = .error cycle
  | _, 0, _, _, _, _ => rfl
  | .leaf k rs, levels + 1, visited, acc, hs, hn => by
    have hk : gid k ∈ visited := by
      by_contra hk
      exact hn ⟨by rw [Tree.height]; omega, by simpa [Tree.nodes, Fresh] using hk⟩
    rw [Tree.key_leaf, guardedWalk, if_pos hk]
  | .index k cs, levels + 1, visited, acc, hs, hn => by
    by_cases hk : gid k ∈ visited
    · rw [Tree.key_index, guardedWalk, if_pos hk]
    · rw [Tree.Stored] at hs
      simp only [Tree.key_index, guardedWalk, if_neg hk, hs.1]
      refine foldlM_error cs levels (gid k :: visited) acc hs.2 ?_
      rintro ⟨hh, hf⟩
      exact hn ⟨by rw [Tree.height]; omega, by simp only [Tree.nodes, Fresh]; exact ⟨hk, hf⟩⟩

theorem foldlM_error : ∀ (cs : Forest β κ ρ) (levels : Nat) (visited : List ι) (acc : σ),
    cs.Stored fetch → ¬ (cs.height ≤ levels ∧ Fresh gid cs.nodes visited) →
    cs.entries.foldlM (fun s e => guardedWalk fetch gid cycle visit levels e.2 s) (visited, acc)
      = .error cycle
  | .nil, _, _, _, _, hn => absurd ⟨Nat.zero_le _, trivial⟩ hn
  | .cons s t r, levels, visited, acc, hs, hn => by
    rw [Forest.Stored] at hs
    rw [Forest.entries, List.foldlM_cons]
    by_cases ht : t.height ≤ levels ∧ Fresh gid t.nodes visited
    · -- the first child is walked to its end, so a guard trips among the rest
      rw [guardedWalk_ok fetch gid cycle visit t levels visited acc hs.1 ht.1 ht.2]
      refine foldlM_error r levels _ _ hs.2 ?_
      rintro ⟨hh, hf⟩
      refine hn ⟨?_, ?_⟩
      · rw [Forest.height]; exact max_le ht.1 hh
      · rw [Forest.nodes, fresh_append]; exact ⟨ht.2, hf⟩
    · rw [guardedWalk_error t levels visited acc hs.1 ht]
      rfl

end

theorem guardedWalk_ok_iff {t : Tree β κ ρ} {levels : Nat} {visited : List ι} {acc : σ}
    {s : List ι × σ} (hs : t.Stored fetch) :
    guardedWalk fetch gid cycle visit levels t.key (visited, acc) = .ok s ↔
      (t.height ≤ levels ∧ Fresh gid t.nodes visited) ∧
        s = (mark gid t.nodes visited, t.records.foldl visit acc) := by
  by_cases h : t.height ≤ levels ∧ Fresh gid t.nodes visited
  · rw [guardedWalk_ok fetch gid cycle visit t levels visited acc hs h.1 h.2]
    simp [h, eq_comm]
  · rw [guardedWalk_error fetch gid cycle visit t levels visited acc hs h]
    simp [h]

end Stored

/-! ### Pruned walks -/

/-- Keep an entry when `keep` accepts its separator and the next one. -/
def pruneEntries {α : Type*} (keep : β → Option β → Bool) : List (β × α) → List (β × α)
  | [] => []
  | e :: rest =>
    if keep e.1 (rest.head?.map Prod.fst) then e :: pruneEntries keep rest
    else pruneEntries keep rest

def NodeView.prune (keep : β → Option β → Bool) : NodeView β κ ρ → NodeView β κ ρ
  | .leaf rs => .leaf rs
  | .index es => .index (pruneEntries keep es)

/-- The separator of the first child. -/
def Forest.firstSep : Forest β κ ρ → Option β
  | .nil => none
  | .cons s _ _ => some s

theorem pruneEntries_true {α : Type*} {keep : β → Option β → Bool} (h : ∀ s n, keep s n = true) :
    ∀ es : List (β × α), pruneEntries keep es = es := by
  intro es
  induction es with
  | nil => rfl
  | cons e es ih => rw [pruneEntries, if_pos (h _ _), ih]

/-- A reader that prunes nothing is the reader itself. -/
theorem map_prune_true {keep : β → Option β → Bool} (h : ∀ s n, keep s n = true)
    (fetch : κ → Except ε (NodeView β κ ρ)) :
    (fun k => (fetch k).map (NodeView.prune keep)) = fetch := by
  funext k
  cases fetch k with
  | error e => rfl
  | ok node =>
    cases node with
    | leaf rs => rfl
    | index es => simp only [Except.map, NodeView.prune, pruneEntries_true h]

mutual

def Tree.prune (keep : β → Option β → Bool) : Tree β κ ρ → Tree β κ ρ
  | .leaf k rs => .leaf k rs
  | .index k cs => .index k (cs.prune keep)

def Forest.prune (keep : β → Option β → Bool) : Forest β κ ρ → Forest β κ ρ
  | .nil => .nil
  | .cons s t r =>
    if keep s r.firstSep then .cons s (t.prune keep) (r.prune keep) else r.prune keep

end

theorem Forest.firstSep_eq (cs : Forest β κ ρ) : cs.firstSep = cs.entries.head?.map Prod.fst := by
  cases cs <;> rfl

@[simp] theorem Tree.prune_key (keep : β → Option β → Bool) (t : Tree β κ ρ) :
    (t.prune keep).key = t.key := by
  cases t <;> simp [Tree.prune]

theorem Forest.prune_entries (keep : β → Option β → Bool) : ∀ cs : Forest β κ ρ,
    (cs.prune keep).entries = pruneEntries keep cs.entries
  | .nil => by simp [prune, entries, pruneEntries]
  | .cons s t r => by
    rw [prune, entries, pruneEntries, ← firstSep_eq]
    split
    · rw [entries, prune_entries keep r, Tree.prune_key]
    · exact prune_entries keep r

mutual

/-- The pruned tree is what a reader that prunes each node finds. -/
theorem Tree.prune_stored (fetch : κ → Except ε (NodeView β κ ρ)) (keep : β → Option β → Bool) :
    ∀ t : Tree β κ ρ, t.Stored fetch →
      (t.prune keep).Stored (fun k => (fetch k).map (NodeView.prune keep))
  | .leaf k rs, h => by
    rw [Tree.Stored] at h
    rw [Tree.prune, Tree.Stored, h]
    rfl
  | .index k cs, h => by
    rw [Tree.Stored] at h
    rw [Tree.prune, Tree.Stored, h.1, Forest.prune_entries]
    exact ⟨rfl, Forest.prune_stored fetch keep cs h.2⟩

theorem Forest.prune_stored (fetch : κ → Except ε (NodeView β κ ρ)) (keep : β → Option β → Bool) :
    ∀ cs : Forest β κ ρ, cs.Stored fetch →
      (cs.prune keep).Stored (fun k => (fetch k).map (NodeView.prune keep))
  | .nil, _ => by rw [Forest.prune, Forest.Stored]; trivial
  | .cons s t r, h => by
    rw [Forest.Stored] at h
    rw [Forest.prune]
    split
    · exact ⟨Tree.prune_stored fetch keep t h.1, Forest.prune_stored fetch keep r h.2⟩
    · exact Forest.prune_stored fetch keep r h.2

end

mutual

theorem Tree.prune_nodes (keep : β → Option β → Bool) : ∀ t : Tree β κ ρ,
    (t.prune keep).nodes.Sublist t.nodes
  | .leaf _ _ => by rw [Tree.prune]
  | .index k cs => by
    rw [Tree.prune, Tree.nodes, Tree.nodes]
    exact (Forest.prune_nodes keep cs).cons_cons k

theorem Forest.prune_nodes (keep : β → Option β → Bool) : ∀ cs : Forest β κ ρ,
    (cs.prune keep).nodes.Sublist cs.nodes
  | .nil => by rw [Forest.prune]
  | .cons s t r => by
    rw [Forest.prune, Forest.nodes]
    split
    · rw [Forest.nodes]
      exact (Tree.prune_nodes keep t).append (Forest.prune_nodes keep r)
    · exact (Forest.prune_nodes keep r).trans (List.sublist_append_right _ _)

end

mutual

theorem Tree.prune_height (keep : β → Option β → Bool) : ∀ t : Tree β κ ρ,
    (t.prune keep).height ≤ t.height
  | .leaf _ _ => by rw [Tree.prune]
  | .index k cs => by
    rw [Tree.prune, Tree.height, Tree.height]
    exact Nat.succ_le_succ (Forest.prune_height keep cs)

theorem Forest.prune_height (keep : β → Option β → Bool) : ∀ cs : Forest β κ ρ,
    (cs.prune keep).height ≤ cs.height
  | .nil => by rw [Forest.prune]
  | .cons s t r => by
    rw [Forest.prune, Forest.height]
    split
    · rw [Forest.height]
      exact max_le_max (Tree.prune_height keep t) (Forest.prune_height keep r)
    · exact le_trans (Forest.prune_height keep r) (le_max_right _ _)

end

mutual

/-- Every child that `keep` drops is free of the records that `want` selects. -/
def Tree.Covers (keep : β → Option β → Bool) (want : ρ → Bool) : Tree β κ ρ → Prop
  | .leaf _ _ => True
  | .index _ cs => cs.Covers keep want

def Forest.Covers (keep : β → Option β → Bool) (want : ρ → Bool) : Forest β κ ρ → Prop
  | .nil => True
  | .cons s t r =>
    (keep s r.firstSep = false → ∀ x ∈ t.records, want x = false) ∧
      t.Covers keep want ∧ r.Covers keep want

end

mutual

theorem Tree.prune_records {keep : β → Option β → Bool} {want : ρ → Bool} :
    ∀ t : Tree β κ ρ, t.Covers keep want →
      (t.prune keep).records.filter want = t.records.filter want
  | .leaf _ _, _ => by rw [Tree.prune]
  | .index k cs, h => by
    rw [Tree.Covers] at h
    rw [Tree.prune, Tree.records, Tree.records]
    exact Forest.prune_records cs h

theorem Forest.prune_records {keep : β → Option β → Bool} {want : ρ → Bool} :
    ∀ cs : Forest β κ ρ, cs.Covers keep want →
      (cs.prune keep).records.filter want = cs.records.filter want
  | .nil, _ => by rw [Forest.prune]
  | .cons s t r, h => by
    rw [Forest.Covers] at h
    obtain ⟨hdrop, ht, hr⟩ := h
    rw [Forest.prune, Forest.records, List.filter_append]
    split
    · rw [Forest.records, List.filter_append, Tree.prune_records t ht, Forest.prune_records r hr]
    · rename_i hk
      have hnone : t.records.filter want = [] := by
        rw [List.filter_eq_nil_iff]
        intro x hx
        simp [hdrop (by simpa using hk) x hx]
      rw [hnone, List.nil_append]
      exact Forest.prune_records r hr

end

mutual

/-- The records under each child lie between its separator and the next one. -/
def Tree.Bracketed {K : Type*} [LE K] (sepKey : β → K) (recKey : ρ → K) : Tree β κ ρ → Prop
  | .leaf _ _ => True
  | .index _ cs => cs.Bracketed sepKey recKey

def Forest.Bracketed {K : Type*} [LE K] (sepKey : β → K) (recKey : ρ → K) : Forest β κ ρ → Prop
  | .nil => True
  | .cons s t r =>
    (∀ x ∈ t.records, sepKey s ≤ recKey x ∧ ∀ next ∈ r.firstSep, recKey x ≤ sepKey next) ∧
      t.Bracketed sepKey recKey ∧ r.Bracketed sepKey recKey

end

section Bracketed

variable {K : Type*} [LE K] {sepKey : β → K} {recKey : ρ → K}
variable (keep : β → Option β → Bool) (want : ρ → Bool)

mutual

/-- A child may be dropped when no record between its two separators is wanted. -/
theorem Tree.Bracketed.covers (hkeep : ∀ s n x, keep s n = false → sepKey s ≤ recKey x →
    (∀ next ∈ n, recKey x ≤ sepKey next) → want x = false) :
    ∀ t : Tree β κ ρ, t.Bracketed sepKey recKey → t.Covers keep want
  | .leaf _ _, _ => trivial
  | .index _ cs, h => Forest.Bracketed.covers hkeep cs h

theorem Forest.Bracketed.covers (hkeep : ∀ s n x, keep s n = false → sepKey s ≤ recKey x →
    (∀ next ∈ n, recKey x ≤ sepKey next) → want x = false) :
    ∀ cs : Forest β κ ρ, cs.Bracketed sepKey recKey → cs.Covers keep want
  | .nil, _ => trivial
  | .cons s t r, h => by
    rw [Forest.Bracketed] at h
    obtain ⟨hrange, ht, hr⟩ := h
    refine ⟨?_, Tree.Bracketed.covers hkeep t ht, Forest.Bracketed.covers hkeep r hr⟩
    intro hdrop x hx
    exact hkeep s r.firstSep x hdrop (hrange x hx).1 (hrange x hx).2

end

end Bracketed

/-- **A pruned walk finds what the full walk finds.**  Where the full walk of a
stored tree succeeds, so does the pruned one, over records that agree with the
full walk's on everything `want` selects. -/
theorem guardedWalk_prune [DecidableEq ι] (fetch : κ → Except ε (NodeView β κ ρ)) (gid : κ → ι) (cycle : ε)
    {keep : β → Option β → Bool} {want : ρ → Bool} {t : Tree β κ ρ} (hs : t.Stored fetch)
    (hc : t.Covers keep want) {levels : Nat} {visited : List ι}
    (hh : t.height ≤ levels) (hf : Fresh gid t.nodes visited) (visit : σ → ρ → σ) (acc : σ) :
    guardedWalk (fun k => (fetch k).map (NodeView.prune keep)) gid cycle visit levels t.key
        (visited, acc)
      = .ok (mark gid (t.prune keep).nodes visited, (t.prune keep).records.foldl visit acc) ∧
    (t.prune keep).records.filter want = t.records.filter want := by
  refine ⟨?_, Tree.prune_records t hc⟩
  rw [← Tree.prune_key keep t]
  exact guardedWalk_ok _ gid cycle visit (t.prune keep) levels visited acc
    (Tree.prune_stored fetch keep t hs) (le_trans (Tree.prune_height keep t) hh)
    (hf.sublist (Tree.prune_nodes keep t))

end ApfsForensic.Walk
