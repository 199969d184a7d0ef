import ApfsForensic.Walk.Guarded

/-!
# What a guarded walk reads

The references behind a reader may form any graph: chains of any length, children
with two parents, cycles.  This file says what `guardedWalk` does there.

`Unfolds fetch todo seen rest` is the unfolding of the references in order, without
a guard: from the references `todo`, each with its depth, the nodes `seen` have been
fetched one after the other and `rest` is still to come.  It need not end.
`loggedWalk` is the walk with the list of the references it fetched
(`loggedWalk_snd`), whatever the outcome.  `loggedWalk_safe` is the summary:

* no guard id is fetched twice;
* a walk whose unfolding comes to an id it has seen, or below the last level, ends
  in `cycle`, no matter what lies behind that reference;
* a walk that goes through has read the nodes of a tree within the cap
  (`guardedWalk_tree`, the converse of `guardedWalk_ok`).

`Reaches fetch root k` says that `k` is behind `root`.  A walk is a function of
what the reader finds at these references (`guardedWalk_congr`).
-/

namespace ApfsForensic.Walk

universe u v w

variable {β : Type u} {κ : Type v} {ρ : Type w} {ε ι σ : Type*}

/-! ### Reachable references -/

/-- `k` is `root` or stands below it. -/
inductive Reaches (fetch : κ → Except ε (NodeView β κ ρ)) (root : κ) : κ → Prop
  | root : Reaches fetch root root
  | child {k : κ} {es : List (β × κ)} {e : β × κ} (prior : Reaches fetch root k)
      (node : fetch k = .ok (.index es)) (mem : e ∈ es) : Reaches fetch root e.2

theorem Reaches.trans {fetch : κ → Except ε (NodeView β κ ρ)} {a b c : κ}
    (hab : Reaches fetch a b) (hbc : Reaches fetch b c) : Reaches fetch a c := by
  induction hbc with
  | root => exact hab
  | child _ node mem ih => exact .child ih node mem

/-- What agreeing readers reach: it is enough that they agree where both arrive. -/
theorem Reaches.congr {fetch fetch' : κ → Except ε (NodeView β κ ρ)} {root k : κ}
    (h : ∀ k, Reaches fetch root k → Reaches fetch' root k → fetch' k = fetch k)
    (hk : Reaches fetch root k) : Reaches fetch' root k := by
  induction hk with
  | root => exact .root
  | child prior node mem ih => exact .child ih ((h _ prior ih).trans node) mem

theorem mem_of_mem_pruneEntries {keep : β → Option β → Bool} {e : β × κ} :
    ∀ {es : List (β × κ)}, e ∈ pruneEntries keep es → e ∈ es := by
  intro es
  induction es with
  | nil => intro he; exact he
  | cons a es ih =>
    intro he
    rw [pruneEntries] at he
    by_cases hkeep : keep a.1 (es.head?.map Prod.fst) = true
    · rw [if_pos hkeep, List.mem_cons] at he
      rw [List.mem_cons]
      exact he.imp_right ih
    · rw [if_neg hkeep] at he
      exact List.mem_cons_of_mem _ (ih he)

/-- Pruning children reaches nothing new. -/
theorem Reaches.of_prune {fetch : κ → Except ε (NodeView β κ ρ)} {keep : β → Option β → Bool}
    {root k : κ} (hk : Reaches (fun k => (fetch k).map (NodeView.prune keep)) root k) :
    Reaches fetch root k := by
  induction hk with
  | root => exact .root
  | @child k es e prior node mem ih =>
    cases hfetch : fetch k with
    | error f => rw [hfetch] at node; cases node
    | ok view =>
      rw [hfetch] at node
      cases view with
      | leaf rs => cases node
      | index es' =>
        cases node
        exact .child ih hfetch (mem_of_mem_pruneEntries mem)

mutual

theorem Tree.reaches_of_mem {fetch : κ → Except ε (NodeView β κ ρ)} :
    ∀ {t : Tree β κ ρ}, t.Stored fetch → ∀ k ∈ t.nodes, Reaches fetch t.key k
  | .leaf _ _, _, k, hk => by
    rw [Tree.nodes, List.mem_singleton] at hk
    exact hk ▸ .root
  | .index j cs, hs, k, hk => by
    rw [Tree.Stored] at hs
    rw [Tree.nodes, List.mem_cons] at hk
    rcases hk with rfl | hk
    · exact .root
    · obtain ⟨e, he, hreach⟩ := Forest.reaches_of_mem hs.2 k hk
      exact (Reaches.child .root hs.1 he).trans hreach

theorem Forest.reaches_of_mem {fetch : κ → Except ε (NodeView β κ ρ)} :
    ∀ {cs : Forest β κ ρ}, cs.Stored fetch → ∀ k ∈ cs.nodes,
      ∃ e ∈ cs.entries, Reaches fetch e.2 k
  | .nil, _, k, hk => by exact absurd hk (by simp [Forest.nodes])
  | .cons s t r, hs, k, hk => by
    rw [Forest.Stored] at hs
    rw [Forest.nodes, List.mem_append] at hk
    rw [Forest.entries]
    rcases hk with hk | hk
    · exact ⟨_, List.mem_cons_self, Tree.reaches_of_mem hs.1 k hk⟩
    · obtain ⟨e, he, hreach⟩ := Forest.reaches_of_mem hs.2 k hk
      exact ⟨e, List.mem_cons_of_mem _ he, hreach⟩

end

theorem Tree.key_mem_nodes (t : Tree β κ ρ) : t.key ∈ t.nodes := by
  cases t <;> simp [Tree.nodes]

theorem Forest.entry_mem_nodes : ∀ {cs : Forest β κ ρ} (e : β × κ), e ∈ cs.entries →
    e.2 ∈ cs.nodes
  | .nil, e, he => by exact absurd he (by simp [Forest.entries])
  | .cons s t r, e, he => by
    rw [Forest.entries, List.mem_cons] at he
    rw [Forest.nodes, List.mem_append]
    rcases he with rfl | he
    · exact Or.inl t.key_mem_nodes
    · exact Or.inr (Forest.entry_mem_nodes e he)

mutual

/-- The children of a node of a stored tree are nodes of the tree. -/
theorem Tree.child_mem {fetch : κ → Except ε (NodeView β κ ρ)} :
    ∀ {t : Tree β κ ρ}, t.Stored fetch → ∀ {k : κ} {es : List (β × κ)}, k ∈ t.nodes →
      fetch k = .ok (.index es) → ∀ e ∈ es, e.2 ∈ t.nodes
  | .leaf j rs, hs, k, es, hk, hnode, e, he => by
    rw [Tree.nodes, List.mem_singleton] at hk
    rw [Tree.Stored, ← hk, hnode] at hs
    exact absurd hs (by simp)
  | .index j cs, hs, k, es, hk, hnode, e, he => by
    rw [Tree.Stored] at hs
    rw [Tree.nodes, List.mem_cons] at hk ⊢
    right
    rcases hk with rfl | hk
    · rw [hs.1, Except.ok.injEq, NodeView.index.injEq] at hnode
      exact Forest.entry_mem_nodes e (hnode ▸ he)
    · exact Forest.child_mem hs.2 hk hnode e he

theorem Forest.child_mem {fetch : κ → Except ε (NodeView β κ ρ)} :
    ∀ {cs : Forest β κ ρ}, cs.Stored fetch → ∀ {k : κ} {es : List (β × κ)}, k ∈ cs.nodes →
      fetch k = .ok (.index es) → ∀ e ∈ es, e.2 ∈ cs.nodes
  | .nil, _, k, es, hk, _, e, _ => by exact absurd hk (by simp [Forest.nodes])
  | .cons s t r, hs, k, es, hk, hnode, e, he => by
    rw [Forest.Stored] at hs
    rw [Forest.nodes, List.mem_append] at hk ⊢
    rcases hk with hk | hk
    · exact Or.inl (Tree.child_mem hs.1 hk hnode e he)
    · exact Or.inr (Forest.child_mem hs.2 hk hnode e he)

end

/-- The nodes of a stored tree are the references behind its root. -/
theorem Tree.mem_nodes_iff_reaches {fetch : κ → Except ε (NodeView β κ ρ)} {t : Tree β κ ρ}
    (hs : t.Stored fetch) (k : κ) : k ∈ t.nodes ↔ Reaches fetch t.key k := by
  constructor
  · exact Tree.reaches_of_mem hs k
  · intro h
    induction h with
    | root => exact t.key_mem_nodes
    | child _ node mem ih => exact Tree.child_mem hs ih node _ mem

mutual

theorem Tree.fetch_ok_of_mem {fetch : κ → Except ε (NodeView β κ ρ)} :
    ∀ {t : Tree β κ ρ}, t.Stored fetch → ∀ k ∈ t.nodes, ∃ node, fetch k = .ok node
  | .leaf j rs, hs, k, hk => by
    rw [Tree.nodes, List.mem_singleton] at hk
    exact ⟨_, hk ▸ hs⟩
  | .index j cs, hs, k, hk => by
    rw [Tree.Stored] at hs
    rw [Tree.nodes, List.mem_cons] at hk
    rcases hk with rfl | hk
    · exact ⟨_, hs.1⟩
    · exact Forest.fetch_ok_of_mem hs.2 k hk

theorem Forest.fetch_ok_of_mem {fetch : κ → Except ε (NodeView β κ ρ)} :
    ∀ {cs : Forest β κ ρ}, cs.Stored fetch → ∀ k ∈ cs.nodes, ∃ node, fetch k = .ok node
  | .nil, _, k, hk => by exact absurd hk (by simp [Forest.nodes])
  | .cons s t r, hs, k, hk => by
    rw [Forest.Stored] at hs
    rw [Forest.nodes, List.mem_append] at hk
    rcases hk with hk | hk
    · exact Tree.fetch_ok_of_mem hs.1 k hk
    · exact Forest.fetch_ok_of_mem hs.2 k hk

end

section Walk

variable [DecidableEq ι]
variable (fetch : κ → Except ε (NodeView β κ ρ)) (gid : κ → ι) (cycle : ε) (visit : σ → ρ → σ)

theorem foldlM_congr_mem {α τ : Type*} {f g : τ → α → Except ε τ} :
    ∀ {l : List α}, (∀ a ∈ l, ∀ s, f s a = g s a) → ∀ s : τ, l.foldlM f s = l.foldlM g s := by
  intro l
  induction l with
  | nil => intro _ s; rfl
  | cons a l ih =>
    intro h s
    rw [List.forall_mem_cons] at h
    rw [List.foldlM_cons, List.foldlM_cons, h.1 s]
    exact congrArg _ (funext (ih h.2))

/-- **A walk depends on what stands at the references behind its root.** -/
theorem guardedWalk_congr {fetch' : κ → Except ε (NodeView β κ ρ)} :
    ∀ (levels : Nat) (root : κ) (s : List ι × σ),
      (∀ k, Reaches fetch root k → fetch' k = fetch k) →
      guardedWalk fetch' gid cycle visit levels root s
        = guardedWalk fetch gid cycle visit levels root s := by
  intro levels
  induction levels with
  | zero => intro root s _; rfl
  | succ levels ih =>
    intro root s h
    obtain ⟨visited, acc⟩ := s
    rw [guardedWalk, guardedWalk, h root .root]
    by_cases hv : gid root ∈ visited
    · rw [if_pos hv, if_pos hv]
    · rw [if_neg hv, if_neg hv]
      cases hnode : fetch root with
      | error e => rfl
      | ok node =>
        cases node with
        | leaf rs => rfl
        | index es =>
          have hchild : ∀ e ∈ es, ∀ s : List ι × σ,
              guardedWalk fetch' gid cycle visit levels e.2 s
                = guardedWalk fetch gid cycle visit levels e.2 s := by
            intro e he s
            exact ih e.2 s (fun k hk => h k ((Reaches.child .root hnode he).trans hk))
          exact foldlM_congr_mem hchild _

/-! ### A walk that goes through has found a tree -/

/-- The nodes that a successful walk has read form a stored tree within the cap, and
no guard id comes up twice in it. -/
theorem guardedWalk_tree : ∀ (levels : Nat) (k : κ) (visited : List ι) (acc : σ)
    (s : List ι × σ), guardedWalk fetch gid cycle visit levels k (visited, acc) = .ok s →
      ∃ t : Tree β κ ρ, t.key = k ∧ t.Stored fetch ∧ t.height ≤ levels ∧
        Fresh gid t.nodes visited ∧ s = (mark gid t.nodes visited, t.records.foldl visit acc) := by
  intro levels
  induction levels with
  | zero => intro k visited acc s h; exact absurd h (by simp [guardedWalk])
  | succ levels ih =>
    -- the children of an index node, one after the other
    have hforest : ∀ (es : List (β × κ)) (visited : List ι) (acc : σ) (s : List ι × σ),
        es.foldlM (fun s e => guardedWalk fetch gid cycle visit levels e.2 s) (visited, acc)
          = .ok s →
        ∃ cs : Forest β κ ρ, cs.entries = es ∧ cs.Stored fetch ∧ cs.height ≤ levels ∧
          Fresh gid cs.nodes visited ∧
            s = (mark gid cs.nodes visited, cs.records.foldl visit acc) := by
      intro es
      induction es with
      | nil =>
        intro visited acc s h
        cases h
        exact ⟨.nil, rfl, trivial, Nat.zero_le _, trivial, rfl⟩
      | cons e es ihs =>
        intro visited acc s h
        rw [List.foldlM_cons] at h
        cases hfirst : guardedWalk fetch gid cycle visit levels e.2 (visited, acc) with
        | error f => rw [hfirst] at h; cases h
        | ok mid =>
          obtain ⟨t, hkey, hs, hh, hf, rfl⟩ := ih e.2 visited acc mid hfirst
          rw [hfirst] at h
          obtain ⟨cs, hes, hcs, hch, hcf, rfl⟩ := ihs _ _ s h
          refine ⟨.cons e.1 t cs, ?_, ⟨hs, hcs⟩, ?_, ?_, ?_⟩
          · rw [Forest.entries, hkey, hes]
          · rw [Forest.height]; exact max_le hh hch
          · rw [Forest.nodes, fresh_append]; exact ⟨hf, hcf⟩
          · rw [Forest.nodes, Forest.records, mark_append, List.foldl_append]
    intro k visited acc s h
    rw [guardedWalk] at h
    by_cases hv : gid k ∈ visited
    · rw [if_pos hv] at h; cases h
    · rw [if_neg hv] at h
      cases hnode : fetch k with
      | error e => rw [hnode] at h; cases h
      | ok node =>
        rw [hnode] at h
        cases node with
        | leaf rs =>
          cases h
          refine ⟨.leaf k rs, rfl, hnode, ?_, ?_, rfl⟩
          · rw [Tree.height]; omega
          · exact ⟨hv, trivial⟩
        | index es =>
          obtain ⟨cs, rfl, hcs, hch, hcf, rfl⟩ := hforest es _ _ s h
          refine ⟨.index k cs, rfl, ⟨hnode, hcs⟩, ?_, ⟨hv, hcf⟩, rfl⟩
          rw [Tree.height]; omega

/-! ### The references a walk fetches -/

/-- `List.foldlM` for steps that keep a log, up to the first one that fails. -/
def foldLogged {α τ : Type*} (f : τ → α → List κ × Except ε τ) :
    List α → τ → List κ × Except ε τ
  | [], s => ([], .ok s)
  | a :: as, s =>
    match f s a with
    | (log, .error e) => (log, .error e)
    | (log, .ok s) => (log ++ (foldLogged f as s).1, (foldLogged f as s).2)

/-- `guardedWalk` with the references it fetched, in order. -/
def loggedWalk : Nat → κ → List ι × σ → List κ × Except ε (List ι × σ)
  | 0, _, _ => ([], .error cycle)
  | levels + 1, k, (visited, acc) =>
    if gid k ∈ visited then ([], .error cycle)
    else
      match fetch k with
      | .error e => ([k], .error e)
      | .ok (.leaf rs) => ([k], .ok (gid k :: visited, rs.foldl visit acc))
      | .ok (.index es) =>
        let children := foldLogged (fun s (e : β × κ) => loggedWalk levels e.2 s) es
          (gid k :: visited, acc)
        (k :: children.1, children.2)

theorem foldLogged_snd {α τ : Type*} {f : τ → α → List κ × Except ε τ}
    {g : τ → α → Except ε τ} (h : ∀ s a, (f s a).2 = g s a) :
    ∀ (l : List α) (s : τ), (foldLogged f l s).2 = l.foldlM g s := by
  intro l
  induction l with
  | nil => intro s; rfl
  | cons a l ih =>
    intro s
    rw [List.foldlM_cons, ← h, foldLogged]
    rcases hf : f s a with ⟨log, _ | s'⟩
    · rfl
    · exact ih s'

/-- The log changes nothing. -/
theorem loggedWalk_snd : ∀ (levels : Nat) (k : κ) (s : List ι × σ),
    (loggedWalk fetch gid cycle visit levels k s).2
      = guardedWalk fetch gid cycle visit levels k s := by
  intro levels
  induction levels with
  | zero => intro k s; rfl
  | succ levels ih =>
    intro k s
    obtain ⟨visited, acc⟩ := s
    rw [loggedWalk, guardedWalk]
    by_cases hv : gid k ∈ visited
    · rw [if_pos hv, if_pos hv]
    · rw [if_neg hv, if_neg hv]
      cases fetch k with
      | error e => rfl
      | ok node =>
        cases node with
        | leaf rs => rfl
        | index es => exact foldLogged_snd (fun s e => ih e.2 s) es _

theorem root_mem_loggedWalk (levels : Nat) (k : κ) (acc : σ) :
    k ∈ (loggedWalk fetch gid cycle visit (levels + 1) k ([], acc)).1 := by
  rw [loggedWalk, if_neg List.not_mem_nil]
  cases fetch k with
  | error e => exact List.mem_cons_self
  | ok node => cases node <;> exact List.mem_cons_self

omit [DecidableEq ι] in
/-- Along a fold the ids stay new, if they do in each step. -/
theorem fresh_foldLogged {α : Type*} {f : List ι × σ → α → List κ × Except ε (List ι × σ)}
    (h : ∀ s a, Fresh gid (f s a).1 s.1 ∧ ∀ s', (f s a).2 = .ok s' → s'.1 = mark gid (f s a).1 s.1) :
    ∀ (l : List α) (s : List ι × σ), Fresh gid (foldLogged f l s).1 s.1 ∧
      ∀ s', (foldLogged f l s).2 = .ok s' → s'.1 = mark gid (foldLogged f l s).1 s.1 := by
  intro l
  induction l with
  | nil =>
    intro s
    refine ⟨trivial, ?_⟩
    intro s' hs
    cases hs
    rfl
  | cons a l ih =>
    intro s
    have hstep := h s a
    rw [foldLogged]
    rcases hf : f s a with ⟨log, e | mid⟩
    · rw [hf] at hstep
      exact ⟨hstep.1, fun s' hs => by cases hs⟩
    · rw [hf] at hstep
      obtain ⟨hfresh, hmark⟩ := ih mid
      rw [hstep.2 mid rfl] at hfresh hmark
      refine ⟨?_, fun s' hs => ?_⟩
      · rw [fresh_append]
        exact ⟨hstep.1, hfresh⟩
      · rw [mark_append]
        exact hmark s' hs

/-- **No id is fetched twice**, however the walk ends. -/
theorem fresh_loggedWalk : ∀ (levels : Nat) (k : κ) (s : List ι × σ),
    Fresh gid (loggedWalk fetch gid cycle visit levels k s).1 s.1 ∧
      ∀ s', (loggedWalk fetch gid cycle visit levels k s).2 = .ok s' →
        s'.1 = mark gid (loggedWalk fetch gid cycle visit levels k s).1 s.1 := by
  intro levels
  induction levels with
  | zero => intro k s; exact ⟨trivial, fun s' hs => by cases hs⟩
  | succ levels ih =>
    intro k s
    obtain ⟨visited, acc⟩ := s
    rw [loggedWalk]
    by_cases hv : gid k ∈ visited
    · rw [if_pos hv]
      exact ⟨trivial, fun s' hs => by cases hs⟩
    · rw [if_neg hv]
      cases fetch k with
      | error e => exact ⟨⟨hv, trivial⟩, fun s' hs => by cases hs⟩
      | ok node =>
        cases node with
        | leaf rs => exact ⟨⟨hv, trivial⟩, fun s' hs => by cases hs; rfl⟩
        | index es =>
          obtain ⟨hfresh, hmark⟩ := fresh_foldLogged gid
            (fun s (e : β × κ) => ih e.2 s) es (gid k :: visited, acc)
          exact ⟨⟨hv, hfresh⟩, hmark⟩

/-! ### The unfolding -/

/-- From the references `todo` with their depths, the unfolding has fetched the nodes
`seen` in order; `rest` is to come. -/
inductive Unfolds : (todo : List (κ × Nat)) → (seen : List κ) → (rest : List (κ × Nat)) → Prop
  | refl (todo : List (κ × Nat)) : Unfolds todo [] todo
  | leaf {k : κ} {d : Nat} {rs : List ρ} {todo rest : List (κ × Nat)} {seen : List κ}
      (node : fetch k = .ok (.leaf rs)) (next : Unfolds todo seen rest) :
      Unfolds ((k, d) :: todo) (k :: seen) rest
  | index {k : κ} {d : Nat} {es : List (β × κ)} {todo rest : List (κ × Nat)} {seen : List κ}
      (node : fetch k = .ok (.index es))
      (next : Unfolds (es.map (fun e => (e.2, d + 1)) ++ todo) seen rest) :
      Unfolds ((k, d) :: todo) (k :: seen) rest

/-- The walk of several references, each at its own depth. -/
def walkAll (cap : Nat) (todo : List (κ × Nat)) (s : List ι × σ) : Except ε (List ι × σ) :=
  todo.foldlM (fun s p => guardedWalk fetch gid cycle visit (cap - p.2) p.1 s) s

variable {fetch}

/-- A walk stops in front of a reference that a guard rules out. -/
theorem walkAll_eq_cycle {cap : Nat} {todo rest : List (κ × Nat)} {seen : List κ} {k : κ}
    {d : Nat} (h : Unfolds fetch todo seen ((k, d) :: rest)) :
    ∀ s : List ι × σ, (gid k ∈ seen.map gid ∨ gid k ∈ s.1) ∨ cap ≤ d →
      walkAll fetch gid cycle visit cap todo s = .error cycle := by
  generalize htarget : (k, d) :: rest = target at h
  induction h with
  | refl todo =>
    intro s hbad
    subst htarget
    obtain ⟨visited, acc⟩ := s
    rw [walkAll, List.foldlM_cons]
    cases hlevels : cap - d with
    | zero => rfl
    | succ levels =>
      have hv : gid k ∈ visited := by
        rcases hbad with (hnil | hv) | hd
        · exact absurd hnil (by simp)
        · exact hv
        · omega
      rw [guardedWalk, if_pos hv]
      rfl
  | @leaf j e rs todo rest' seen node next ih =>
    intro s hbad
    obtain ⟨visited, acc⟩ := s
    rw [walkAll, List.foldlM_cons]
    cases hlevels : cap - e with
    | zero => rfl
    | succ levels =>
      rw [guardedWalk]
      by_cases hv : gid j ∈ visited
      · rw [if_pos hv]; rfl
      · rw [if_neg hv, node]
        apply ih htarget
        rw [List.map_cons, List.mem_cons] at hbad
        rw [List.mem_cons]
        tauto
  | @index j e es todo rest' seen node next ih =>
    intro s hbad
    obtain ⟨visited, acc⟩ := s
    rw [walkAll, List.foldlM_cons]
    cases hlevels : cap - e with
    | zero => rfl
    | succ levels =>
      rw [guardedWalk]
      by_cases hv : gid j ∈ visited
      · rw [if_pos hv]; rfl
      · rw [if_neg hv, node]
        -- the walk of the children, then of what was to do before
        have hnext := ih htarget (gid j :: visited, acc) (by
          rw [List.map_cons, List.mem_cons] at hbad
          rw [List.mem_cons]
          tauto)
        have hpred : cap - (e + 1) = levels := by omega
        rw [walkAll, List.foldlM_append, List.foldlM_map] at hnext
        simp only [hpred] at hnext
        exact hnext

/-! ### Safe runs -/

variable (fetch)

/-- What a walk of at most `cap` levels from `root` does on any graph of references,
`run` being the references it fetched and its outcome. -/
structure SafeRun (cap : Nat) (root : κ) (acc : σ)
    (run : List κ × Except ε (List ι × σ)) : Prop where
  reads_once : (run.1.map gid).Nodup
  guarded : ∀ {seen : List κ} {k : κ} {d : Nat} {rest : List (κ × Nat)},
    Unfolds fetch [(root, 0)] seen ((k, d) :: rest) → gid k ∈ seen.map gid ∨ cap ≤ d →
    run.2 = .error cycle
  tree : ∀ {s : List ι × σ}, run.2 = .ok s → ∃ t : Tree β κ ρ, t.key = root ∧ t.Stored fetch ∧
    t.height ≤ cap ∧ t.nodes.map gid = run.1.map gid ∧ s.2 = t.records.foldl visit acc

omit [DecidableEq ι] in
theorem mark_eq : ∀ (ks : List κ) (visited : List ι),
    mark gid ks visited = (ks.map gid).reverse ++ visited := by
  intro ks
  induction ks with
  | nil => intro visited; rfl
  | cons k ks ih =>
    intro visited
    rw [List.map_cons, List.reverse_cons, List.append_assoc]
    exact ih (gid k :: visited)

/-- **Walks are safe on any graph of references.** -/
theorem loggedWalk_safe (cap : Nat) (root : κ) (acc : σ) :
    SafeRun fetch gid cycle visit cap root acc
      (loggedWalk fetch gid cycle visit cap root ([], acc)) where
  reads_once := by
    have hfresh := (fresh_loggedWalk fetch gid cycle visit cap root ([], acc)).1
    exact ((fresh_iff gid _ _).mp hfresh).1
  guarded := by
    intro seen k d rest hunfold hbad
    rw [loggedWalk_snd]
    have hall := walkAll_eq_cycle gid cycle visit hunfold ([], acc) (hbad.imp_left Or.inl)
    rw [walkAll, List.foldlM_cons, Nat.sub_zero] at hall
    cases hw : guardedWalk fetch gid cycle visit cap root ([], acc) with
    | error e => rw [hw] at hall; exact hall
    | ok s => rw [hw] at hall; cases hall
  tree := by
    intro s hs
    have hmark := (fresh_loggedWalk fetch gid cycle visit cap root ([], acc)).2 s hs
    rw [loggedWalk_snd] at hs
    obtain ⟨t, hkey, hstored, hheight, _, rfl⟩ :=
      guardedWalk_tree fetch gid cycle visit cap root [] acc s hs
    refine ⟨t, hkey, hstored, hheight, ?_, rfl⟩
    rw [mark_eq, mark_eq, List.append_nil, List.append_nil] at hmark
    exact List.reverse_injective hmark

end Walk

end ApfsForensic.Walk
