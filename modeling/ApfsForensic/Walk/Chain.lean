import Mathlib.Data.List.Basic

/-!
# Following a chain of references

A chain is read node by node: `fetch` gives what a node holds and the reference to
the next node, if there is one.  `follow` reads a chain to its end.  Two guards keep it
finite on any graph of references: at most `cap` nodes are read, and no reference is
followed twice.  Each failed guard is the same error `cycle`.

`Links fetch start path stop` says that the nodes of `path` are linked, from `start` on,
and that `stop` comes after them.  Every chain starts with a stretch that `follow` reads
(`exists_stretch`), and what comes after it decides the result (`follow_of_chainEnd`):

* `follow_eq_iff`: the result is that of the `ChainEnd` behind the stretch.
-/

namespace ApfsForensic.Walk

variable {κ α ε : Type*} [DecidableEq κ]

/-- Read the chain from a reference on, with `left` nodes to go. -/
def follow (fetch : κ → Except ε (α × Option κ)) (cycle : ε) :
    (left : Nat) → (seen : List κ) → Option κ → Except ε (List α)
  | _, _, none => .ok []
  | 0, _, some _ => .error cycle
  | left + 1, seen, some k =>
    if k ∈ seen then .error cycle
    else
      match fetch k with
      | .error e => .error e
      | .ok (a, next) => (follow fetch cycle left (k :: seen) next).map (a :: ·)

/-- The nodes of `path`, each with its reference, are linked from `start` to `stop`. -/
inductive Links (fetch : κ → Except ε (α × Option κ)) :
    Option κ → List (κ × α) → Option κ → Prop
  | refl (start : Option κ) : Links fetch start [] start
  | step {k : κ} {a : α} {next stop : Option κ} {path : List (κ × α)} :
      fetch k = .ok (a, next) → Links fetch next path stop →
      Links fetch (some k) ((k, a) :: path) stop

/-- What stands behind a stretch of at most `cap` nodes, and the result it gives. -/
inductive ChainEnd (fetch : κ → Except ε (α × Option κ)) (cycle : ε) (cap : Nat)
    (path : List (κ × α)) : Option κ → Except ε (List α) → Prop
  | done : ChainEnd fetch cycle cap path none (.ok (path.map Prod.snd))
  | guarded {k : κ} : k ∈ path.map Prod.fst ∨ path.length = cap →
      ChainEnd fetch cycle cap path (some k) (.error cycle)
  | failed {k : κ} {e : ε} : k ∉ path.map Prod.fst → path.length < cap → fetch k = .error e →
      ChainEnd fetch cycle cap path (some k) (.error e)

section Follow

variable {fetch : κ → Except ε (α × Option κ)} {cycle : ε}

theorem follow_none (left : Nat) (seen : List κ) : follow fetch cycle left seen none = .ok [] := by
  cases left <;> rfl

/-- A linked stretch of new references is read. -/
theorem follow_of_links {start stop : Option κ} {path : List (κ × α)}
    (h : Links fetch start path stop) : ∀ {left : Nat} {seen : List κ},
      (path.map Prod.fst).Nodup → (∀ k ∈ path.map Prod.fst, k ∉ seen) →
      follow fetch cycle (left + path.length) seen start
        = (follow fetch cycle left ((path.map Prod.fst).reverse ++ seen) stop).map
            (path.map Prod.snd ++ ·) := by
  induction h with
  | refl start =>
    intro left seen _ _
    show follow fetch cycle left seen start
      = (follow fetch cycle left seen start).map ([] ++ ·)
    cases follow fetch cycle left seen start <;> rfl
  | @step k a next stop path hfetch _ ih =>
    intro left seen hnodup hnew
    rw [List.map_cons, List.nodup_cons] at hnodup
    rw [List.map_cons, List.forall_mem_cons] at hnew
    have hnew' : ∀ k' ∈ path.map Prod.fst, k' ∉ k :: seen := by
      intro k' hk'
      rw [List.mem_cons, not_or]
      exact ⟨fun heq => hnodup.1 (heq ▸ hk'), hnew.2 k' hk'⟩
    rw [List.length_cons, ← Nat.add_assoc, follow, if_neg hnew.1, hfetch]
    simp only [ih hnodup.2 hnew', List.map_cons, List.reverse_cons, List.append_assoc,
      List.singleton_append]
    cases follow fetch cycle left ((path.map Prod.fst).reverse ++ k :: seen) stop <;> rfl

/-- A stretch of at most `left` references that are new, and ends where no further node is
read. -/
structure Stretch (fetch : κ → Except ε (α × Option κ)) (left : Nat) (seen : List κ)
    (start stop : Option κ) (path : List (κ × α)) : Prop where
  links : Links fetch start path stop
  nodup : (path.map Prod.fst).Nodup
  fresh : ∀ k ∈ path.map Prod.fst, k ∉ seen
  length_le : path.length ≤ left
  ends : ∀ k, stop = some k → (k ∈ seen ∨ k ∈ path.map Prod.fst) ∨ path.length = left ∨
    ∃ e, fetch k = .error e

omit [DecidableEq κ] in
theorem Stretch.nil {left : Nat} {seen : List κ} {start : Option κ}
    (h : ∀ k, start = some k → k ∈ seen ∨ 0 = left ∨ ∃ e, fetch k = .error e) :
    Stretch fetch left seen start start [] where
  links := .refl start
  nodup := List.nodup_nil
  fresh _ hk := absurd hk List.not_mem_nil
  length_le := Nat.zero_le left
  ends k hk := (h k hk).imp_left Or.inl

omit [DecidableEq κ] in
theorem Stretch.cons {left : Nat} {seen : List κ} {k : κ} {a : α} {next stop : Option κ}
    {path : List (κ × α)} (hnew : k ∉ seen) (hfetch : fetch k = .ok (a, next))
    (h : Stretch fetch left (k :: seen) next stop path) :
    Stretch fetch (left + 1) seen (some k) stop ((k, a) :: path) where
  links := .step hfetch h.links
  nodup := by
    rw [List.map_cons, List.nodup_cons]
    exact ⟨fun hk => h.fresh k hk List.mem_cons_self, h.nodup⟩
  fresh := by
    rw [List.map_cons, List.forall_mem_cons]
    exact ⟨hnew, fun k' hk' hin => h.fresh k' hk' (List.mem_cons_of_mem _ hin)⟩
  length_le := Nat.succ_le_succ h.length_le
  ends k' hk' := by
    rw [List.map_cons, List.mem_cons, List.length_cons]
    rcases h.ends k' hk' with (hin | hin) | hcap | hfail
    · rcases List.mem_cons.mp hin with rfl | hin
      · exact Or.inl (Or.inr (Or.inl rfl))
      · exact Or.inl (Or.inl hin)
    · exact Or.inl (Or.inr (Or.inr hin))
    · exact Or.inr (Or.inl (congrArg (· + 1) hcap))
    · exact Or.inr (Or.inr hfail)

/-- Every chain starts with a stretch. -/
theorem exists_stretch (fetch : κ → Except ε (α × Option κ)) : ∀ (left : Nat) (seen : List κ)
    (start : Option κ), ∃ path stop, Stretch fetch left seen start stop path := by
  intro left
  induction left with
  | zero => exact fun seen start => ⟨[], start, .nil fun _ _ => Or.inr (Or.inl rfl)⟩
  | succ left ih =>
    intro seen start
    cases start with
    | none => exact ⟨[], none, .nil fun k hk => by cases hk⟩
    | some k =>
      by_cases hseen : k ∈ seen
      · exact ⟨[], some k, .nil fun k' hk' => by cases hk'; exact Or.inl hseen⟩
      · cases hfetch : fetch k with
        | error e =>
          exact ⟨[], some k, .nil fun k' hk' => by cases hk'; exact Or.inr (Or.inr ⟨e, hfetch⟩)⟩
        | ok node =>
          obtain ⟨path, stop, hrest⟩ := ih (k :: seen) node.2
          exact ⟨(k, node.1) :: path, stop, .cons hseen hfetch hrest⟩

/-- The result behind a stretch. -/
theorem follow_of_chainEnd {start stop : Option κ} {path : List (κ × α)} {cap : Nat}
    {r : Except ε (List α)} (hlinks : Links fetch start path stop)
    (hnodup : (path.map Prod.fst).Nodup) (hlen : path.length ≤ cap)
    (hend : ChainEnd fetch cycle cap path stop r) : follow fetch cycle cap [] start = r := by
  obtain ⟨left, rfl⟩ := Nat.exists_eq_add_of_le' hlen
  rw [follow_of_links hlinks hnodup (fun _ _ => List.not_mem_nil), List.append_nil]
  cases hend with
  | done => rw [follow_none, Except.map, List.append_nil]
  | @guarded k hguard =>
    cases left with
    | zero => rfl
    | succ left =>
      have hmem : k ∈ (path.map Prod.fst).reverse :=
        List.mem_reverse.mpr (hguard.resolve_right (by omega))
      rw [follow, if_pos hmem, Except.map]
  | @failed k e hnew hlt hfetch =>
    cases left with
    | zero => omega
    | succ left =>
      rw [follow, if_neg fun hmem => hnew (List.mem_reverse.mp hmem), hfetch, Except.map]

/-- **The result of a chain.**  It is read along a stretch of at most `cap` distinct
references, and what stands behind the stretch decides. -/
theorem follow_eq_iff {start : Option κ} {cap : Nat} {r : Except ε (List α)} :
    follow fetch cycle cap [] start = r ↔
      ∃ path stop, Links fetch start path stop ∧ (path.map Prod.fst).Nodup ∧ path.length ≤ cap ∧
        ChainEnd fetch cycle cap path stop r := by
  constructor
  · rintro rfl
    obtain ⟨path, stop, hlinks, hnodup, _, hlen, hstop⟩ := exists_stretch fetch cap [] start
    have hend : ∃ r, ChainEnd fetch cycle cap path stop r := by
      cases stop with
      | none => exact ⟨_, .done⟩
      | some k =>
        by_cases hguard : k ∈ path.map Prod.fst ∨ path.length = cap
        · exact ⟨_, .guarded hguard⟩
        · rw [not_or] at hguard
          rcases hstop k rfl with (hnil | hin) | hcap | ⟨e, hfail⟩
          · cases hnil
          · exact absurd hin hguard.1
          · exact absurd hcap hguard.2
          · exact ⟨_, .failed hguard.1 (by omega) hfail⟩
    obtain ⟨r, hend⟩ := hend
    exact ⟨path, stop, hlinks, hnodup, hlen,
      (follow_of_chainEnd hlinks hnodup hlen hend) ▸ hend⟩
  · rintro ⟨path, stop, hlinks, hnodup, hlen, hend⟩
    exact follow_of_chainEnd hlinks hnodup hlen hend

end Follow

end ApfsForensic.Walk
