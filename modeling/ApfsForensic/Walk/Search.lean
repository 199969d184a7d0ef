import ApfsForensic.Walk.Guarded
import Mathlib.Order.Defs.LinearOrder

/-!
# Point lookups

A point lookup reads one path from the root to a leaf.  At an index node it
follows the last child before the first separator that lies above the target
(`pick`), or the first child when every separator does.  `searchWalk` is that
descent, under the same guards as `guardedWalk`, and returns the records of the
leaf it lands on.

`searchWalk_floor`: in a tree whose records increase and whose separators are
the smallest keys below them (`Tree.Keyed`), the landing leaf holds the floor of
the target whenever any leaf does.  A record of another leaf that is at most the
target is never the best one.  To the right of the path the first key is already
above the target.  To the left every key is below the separator the path went
through, and that separator is itself the key of a record under it.
-/

namespace ApfsForensic.Walk

universe u v w

variable {β : Type u} {κ : Type v} {ρ : Type w} {ε ι α K : Type*}

/-- The last entry before the first separator that `p` rejects, `a` if there is
none. -/
def pick (p : β → Bool) : α → List (β × α) → α
  | a, [] => a
  | a, (s, b) :: rest => if p s then pick p b rest else a

def searchWalk [DecidableEq ι] (fetch : κ → Except ε (NodeView β κ ρ)) (gid : κ → ι) (cycle : ε)
    (p : β → Bool) : Nat → κ → List ι → Except ε (List ρ)
  | 0, _, _ => .error cycle
  | levels + 1, k, visited =>
    if gid k ∈ visited then .error cycle
    else
      match fetch k with
      | .error e => .error e
      | .ok (.leaf rs) => .ok rs
      | .ok (.index []) => .ok []
      | .ok (.index ((s, c) :: rest)) =>
        searchWalk fetch gid cycle p levels (pick p c ((s, c) :: rest)) (gid k :: visited)

/-! ### The child a lookup follows -/

theorem pick_map {α' : Type*} (p : β → Bool) (f : α → α') : ∀ (a : α) (l : List (β × α)),
    pick p (f a) (l.map (fun e => (e.1, f e.2))) = f (pick p a l) := by
  intro a l
  induction l generalizing a with
  | nil => rfl
  | cons e l ih =>
    rw [List.map_cons, pick, pick]
    split
    · exact ih e.2
    · rfl

/-- Once a separator is accepted, the lookup stops just before the first one that
is not. -/
theorem pick_split (p : β → Bool) : ∀ (s : β) (a : α) (rest : List (β × α)), p s = true →
    ∃ pre s' post, (s, a) :: rest = pre ++ (s', pick p a rest) :: post ∧ p s' = true ∧
      ∀ q ∈ post.head?, p q.1 = false := by
  intro s a rest
  induction rest generalizing s a with
  | nil => intro hs; exact ⟨[], s, [], rfl, hs, by simp⟩
  | cons e rest ih =>
    obtain ⟨s₁, b⟩ := e
    intro hs
    by_cases h₁ : p s₁ = true
    · obtain ⟨pre, s', post, hsplit, hs', hpost⟩ := ih s₁ b h₁
      refine ⟨(s, a) :: pre, s', post, ?_, hs', hpost⟩
      rw [pick, if_pos h₁, List.cons_append, ← hsplit]
    · refine ⟨[], s, (s₁, b) :: rest, ?_, hs, ?_⟩
      · rw [pick, if_neg h₁, List.nil_append]
      · intro q hq
        obtain rfl : (s₁, b) = q := by simpa using hq
        simpa using h₁

theorem pick_mem (p : β → Bool) (s : β) (a : α) (rest : List (β × α)) :
    ∃ s', (s', pick p a ((s, a) :: rest)) ∈ (s, a) :: rest := by
  by_cases hs : p s = true
  · obtain ⟨pre, s', post, hsplit, _, _⟩ := pick_split p s a rest hs
    refine ⟨s', ?_⟩
    rw [pick, if_pos hs, hsplit]
    simp
  · refine ⟨s, ?_⟩
    rw [pick, if_neg hs]
    exact List.mem_cons_self

/-! ### Separators -/

section Keyed

variable [LinearOrder K] (sepKey : β → K) (recKey : ρ → K)

mutual

/-- Every index node has a child, and every separator is the smallest key of the
records below it, which are not empty. -/
def Tree.Keyed : Tree β κ ρ → Prop
  | .leaf _ _ => True
  | .index _ cs => cs.toList ≠ [] ∧ cs.Keyed

def Forest.Keyed : Forest β κ ρ → Prop
  | .nil => True
  | .cons s t r =>
    ((∃ x ∈ t.records, recKey x = sepKey s) ∧ ∀ x ∈ t.records, sepKey s ≤ recKey x) ∧
      t.Keyed ∧ r.Keyed

end

variable {sepKey recKey}

theorem Forest.keyed_of_mem : ∀ {cs : Forest β κ ρ} {c : β × Tree β κ ρ},
    cs.Keyed sepKey recKey → c ∈ cs.toList →
      ((∃ x ∈ c.2.records, recKey x = sepKey c.1) ∧ ∀ x ∈ c.2.records, sepKey c.1 ≤ recKey x) ∧
        c.2.Keyed sepKey recKey := by
  intro cs c hk hc
  match cs with
  | .nil => simp [toList] at hc
  | .cons s t r =>
    rw [toList, List.mem_cons] at hc
    rw [Keyed] at hk
    rcases hc with rfl | hc
    · exact ⟨hk.1, hk.2.1⟩
    · exact keyed_of_mem hk.2.2 hc

/-- In a list of keyed children whose records increase, the records of every
child but the first lie above the separator of the first. -/
theorem sep_le_of_mem_flatMap {s : β} {t : Tree β κ ρ} {l : List (β × Tree β κ ρ)}
    (hmin : (∃ x ∈ t.records, recKey x = sepKey s) ∧ ∀ x ∈ t.records, sepKey s ≤ recKey x)
    (hsort : (((s, t) :: l).flatMap (fun c => c.2.records)).Pairwise
      (fun a b => recKey a < recKey b)) :
    ∀ x ∈ ((s, t) :: l).flatMap (fun c => c.2.records), sepKey s ≤ recKey x := by
  intro x hx
  rw [List.flatMap_cons] at hx hsort
  rcases List.mem_append.mp hx with hx | hx
  · exact hmin.2 x hx
  · obtain ⟨y, hy, he⟩ := hmin.1
    rw [← he]
    exact ((List.pairwise_append.mp hsort).2.2 y hy x hx).le

/-- The child that the separators select has, for every record up to the target, one that
is at least as high. -/
theorem exists_ge_of_pick {p : β → Bool} {x : K} (hp : ∀ s, p s = true ↔ sepKey s ≤ x)
    {s₀ : β} {t₀ : Tree β κ ρ} {l : List (β × Tree β κ ρ)}
    (hk : ∀ c ∈ (s₀, t₀) :: l,
      (∃ y ∈ c.2.records, recKey y = sepKey c.1) ∧ ∀ y ∈ c.2.records, sepKey c.1 ≤ recKey y)
    (hsort : (((s₀, t₀) :: l).flatMap (fun c => c.2.records)).Pairwise
      (fun a b => recKey a < recKey b)) {r : ρ}
    (hr : r ∈ ((s₀, t₀) :: l).flatMap (fun c => c.2.records)) (hrx : recKey r ≤ x) :
    ∃ y ∈ (pick p t₀ ((s₀, t₀) :: l)).records, recKey y ≤ x ∧ recKey r ≤ recKey y := by
  by_cases h₀ : p s₀ = true
  · obtain ⟨pre, s₁, post, hsplit, hs₁, hpost⟩ := pick_split p s₀ t₀ l h₀
    rw [pick, if_pos h₀]
    generalize pick p t₀ l = c at hsplit
    rw [hsplit] at hk
    rw [hsplit, List.flatMap_append, List.flatMap_cons] at hr hsort
    obtain ⟨_, hright, hcross⟩ := List.pairwise_append.mp hsort
    rcases List.mem_append.mp hr with hleft | hr
    · -- left of the path: the separator's own record is a better candidate
      obtain ⟨y, hy, hye⟩ := (hk (s₁, c) (by simp)).1
      exact ⟨y, hy, hye.le.trans ((hp s₁).mp hs₁),
        (hcross r hleft y (List.mem_append_left _ hy)).le⟩
    · rcases List.mem_append.mp hr with hin | hright'
      · exact ⟨r, hin, hrx, le_rfl⟩
      · -- right of the path: the first key is already above the target
        cases post with
        | nil => exact absurd hright' List.not_mem_nil
        | cons e post =>
          have hle := sep_le_of_mem_flatMap (hk e (by simp))
            (List.pairwise_append.mp hright).2.1 r hright'
          have hrej : p e.1 = false := hpost e (by simp)
          rw [(hp e.1).mpr (le_trans hle hrx)] at hrej
          cases hrej
  · -- every separator is above the target, and so is every record
    have hle := sep_le_of_mem_flatMap (hk (s₀, t₀) List.mem_cons_self) hsort r hr
    exact absurd ((hp s₀).mpr (le_trans hle hrx)) h₀

/-- **The landing leaf holds the floor of the target.** -/
theorem searchWalk_floor [DecidableEq ι] (fetch : κ → Except ε (NodeView β κ ρ)) (gid : κ → ι)
    (cycle : ε) {p : β → Bool} {x : K} (hp : ∀ s, p s = true ↔ sepKey s ≤ x) :
    ∀ (levels : Nat) (t : Tree β κ ρ) (visited : List ι), t.Stored fetch → t.height ≤ levels →
      Fresh gid t.nodes visited → t.Keyed sepKey recKey →
      t.records.Pairwise (fun a b => recKey a < recKey b) →
      ∃ rs, searchWalk fetch gid cycle p levels t.key visited = .ok rs ∧ rs.Sublist t.records ∧
        ∀ r ∈ t.records, recKey r ≤ x → ∃ r' ∈ rs, recKey r' ≤ x ∧ recKey r ≤ recKey r' := by
  intro levels
  induction levels with
  | zero =>
    intro t visited _ hh
    have := t.height_pos
    omega
  | succ levels ih =>
    intro t visited hs hh hf hk hsort
    cases t with
    | leaf k rs =>
      rw [Tree.Stored] at hs
      simp only [Tree.nodes, Fresh, and_true] at hf
      refine ⟨rs, ?_, ?_, ?_⟩
      · simp only [Tree.key_leaf, searchWalk, if_neg hf, hs]
      · rw [Tree.records]
      · intro r hr hrx
        exact ⟨r, hr, hrx, le_rfl⟩
    | index k cs =>
      cases cs with
      | nil => exact absurd rfl hk.1
      | cons s₀ t₀ r₀ =>
        obtain ⟨hfetch, hs⟩ := hs
        rw [Tree.height] at hh
        simp only [Tree.nodes, Fresh] at hf
        replace hk := hk.2
        rw [Tree.records] at hsort
        -- the lookup moves on to the child that the separators select
        generalize hcs : Forest.cons s₀ t₀ r₀ = cs at hfetch hs hh hf hk hsort
        have hlist : cs.toList = (s₀, t₀) :: r₀.toList := by rw [← hcs, Forest.toList]
        have hentries : cs.entries = (s₀, t₀.key) :: r₀.entries := by rw [← hcs, Forest.entries]
        obtain ⟨c, hc⟩ : ∃ c, c = pick p t₀ cs.toList := ⟨_, rfl⟩
        obtain ⟨s', hmem⟩ : ∃ s', (s', c) ∈ cs.toList := by
          rw [hc, hlist]
          exact pick_mem p s₀ t₀ r₀.toList
        have hkey : pick p t₀.key ((s₀, t₀.key) :: r₀.entries) = c.key := by
          rw [← hentries, Forest.entries_eq, pick_map p Tree.key t₀, hc]
        have hck := Forest.keyed_of_mem hk hmem
        obtain ⟨rs, hwalk, hsub, hfloor⟩ := ih c (gid k :: visited) (Forest.stored_of_mem hs hmem)
          (le_trans (Forest.height_le_of_mem hmem) (by omega))
          (hf.2.sublist (Forest.nodes_sublist_of_mem hmem)) hck.2
          (hsort.sublist (Forest.records_sublist_of_mem hmem))
        refine ⟨rs, ?_, hsub.trans (Forest.records_sublist_of_mem hmem), ?_⟩
        · rw [Tree.key_index, searchWalk, if_neg hf.1, hfetch, hentries]
          simp only [hkey, hwalk]
        · intro r hr hrx
          rw [Tree.records, Forest.records_eq, hlist] at hr
          rw [Forest.records_eq, hlist] at hsort
          rw [hc, hlist] at hfloor
          have hkeyed := fun c hc => (Forest.keyed_of_mem hk (hlist.symm ▸ hc : c ∈ cs.toList)).1
          obtain ⟨y, hy, hyx, hry⟩ := exists_ge_of_pick hp hkeyed hsort hr hrx
          obtain ⟨r', hr', hx', hle⟩ := hfloor y hy hyx
          exact ⟨r', hr', hx', le_trans hry hle⟩

end Keyed

end ApfsForensic.Walk
