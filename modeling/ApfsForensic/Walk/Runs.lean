import Mathlib.Data.List.Basic

/-!
# Runs of positions

A set of positions written as a list of runs `(first, length)`.  `InRuns` is
membership; the runs need not be sorted or apart.

`scanRuns p n` walks the positions below `n` once and writes the maximal runs on
which `p` holds.  The invariant of the walk is `RunsUpTo`: the closed runs and the
one still open cover exactly the positions seen so far that satisfy `p`.  So the
result covers those below `n` (`inRuns_scanRuns`), and no run is empty or reaches
past `n` (`scanRuns_bound`).

`Apart` runs are in order, none is empty, and no two of them meet.  They are the maximal
runs of the set they cover, and the only ones (`MaximalRuns.unique`).  The runs that
`scanRuns` writes are apart (`scanRuns_apart`).
-/

namespace ApfsForensic.Walk

/-- Position `i` lies in one of the runs. -/
def InRuns (runs : List (Nat × Nat)) (i : Nat) : Prop :=
  ∃ r ∈ runs, r.1 ≤ i ∧ i < r.1 + r.2

instance (runs : List (Nat × Nat)) (i : Nat) : Decidable (InRuns runs i) :=
  inferInstanceAs (Decidable (∃ r ∈ runs, _))

@[simp] theorem not_inRuns_nil (i : Nat) : ¬ InRuns [] i := by
  rintro ⟨r, hr, _⟩
  exact absurd hr (by simp)

@[simp] theorem inRuns_append {runs runs' : List (Nat × Nat)} {i : Nat} :
    InRuns (runs ++ runs') i ↔ InRuns runs i ∨ InRuns runs' i := by
  simp only [InRuns, List.mem_append, or_and_right, exists_or]

@[simp] theorem inRuns_singleton {first len i : Nat} :
    InRuns [(first, len)] i ↔ first ≤ i ∧ i < first + len := by
  simp [InRuns]

theorem inRuns_cons {r : Nat × Nat} {runs : List (Nat × Nat)} {i : Nat} :
    InRuns (r :: runs) i ↔ (r.1 ≤ i ∧ i < r.1 + r.2) ∨ InRuns runs i := by
  rw [← List.singleton_append, inRuns_append, inRuns_singleton]

/-! ### The runs of a predicate -/

/-- One position: a run opens, closes, or nothing changes.  The state is the closed
runs and the start of the open one. -/
def runStep (p : Nat → Bool) (s : List (Nat × Nat) × Option Nat) (i : Nat) :
    List (Nat × Nat) × Option Nat :=
  match p i, s.2 with
  | true, none => (s.1, some i)
  | false, some a => (s.1 ++ [(a, i - a)], none)
  | true, some _ => s
  | false, none => s

/-- Close the run that is open at the end. -/
def closeRun (n : Nat) (s : List (Nat × Nat) × Option Nat) : List (Nat × Nat) :=
  match s.2 with
  | none => s.1
  | some a => s.1 ++ [(a, n - a)]

def scanRuns (p : Nat → Bool) (n : Nat) : List (Nat × Nat) :=
  closeRun n ((List.range n).foldl (runStep p) ([], none))

/-- The state after the first `n` positions. -/
structure RunsUpTo (p : Nat → Bool) (n : Nat) (s : List (Nat × Nat) × Option Nat) : Prop where
  covers : ∀ i, (InRuns s.1 i ∨ ∃ a, s.2 = some a ∧ a ≤ i ∧ i < n) ↔ i < n ∧ p i = true
  open_lt : ∀ a, s.2 = some a → a < n
  length_pos : ∀ r ∈ s.1, 0 < r.2

/-- The positions after one more: those before, and the new one if `p` holds of it. -/
theorem lt_succ_and_iff {p : Nat → Bool} {n i : Nat} :
    (i < n + 1 ∧ p i = true) ↔ (i < n ∧ p i = true) ∨ (i = n ∧ p n = true) := by
  constructor
  · rintro ⟨hi, hp⟩
    by_cases hn : i = n
    · exact Or.inr ⟨hn, hn ▸ hp⟩
    · exact Or.inl ⟨by omega, hp⟩
  · rintro (⟨hi, hp⟩ | ⟨rfl, hp⟩)
    · exact ⟨by omega, hp⟩
    · exact ⟨by omega, hp⟩

theorem RunsUpTo.step {p : Nat → Bool} {n : Nat} {s : List (Nat × Nat) × Option Nat}
    (h : RunsUpTo p n s) : RunsUpTo p (n + 1) (runStep p s n) := by
  obtain ⟨runs, start⟩ := s
  obtain ⟨hcov, hopen, hpos⟩ := h
  cases hp : p n with
  | true =>
    cases start with
    | none =>
      -- a run opens
      have hstep : runStep p (runs, none) n = (runs, some n) := by simp only [runStep, hp]
      rw [hstep]
      refine ⟨fun i => ?_, fun a ha => ?_, hpos⟩
      · rw [lt_succ_and_iff, ← hcov i]
        simp only [Option.some.injEq, reduceCtorEq, false_and, exists_false, or_false, hp, and_true]
        constructor
        · rintro (hi | ⟨a, rfl, hlo, hhi⟩)
          · exact Or.inl hi
          · exact Or.inr (by omega)
        · rintro (hi | rfl)
          · exact Or.inl hi
          · exact Or.inr ⟨i, rfl, Nat.le_refl i, Nat.lt_succ_self i⟩
      · cases ha
        exact Nat.lt_succ_self n
    | some a =>
      -- the open run goes on
      have hstep : runStep p (runs, some a) n = (runs, some a) := by simp only [runStep, hp]
      have ha := hopen a rfl
      rw [hstep]
      refine ⟨fun i => ?_, fun a' ha' => Nat.lt_succ_of_lt (hopen a' ha'), hpos⟩
      rw [lt_succ_and_iff, ← hcov i]
      simp only [Option.some.injEq, exists_eq_left', hp, and_true, or_assoc]
      refine or_congr Iff.rfl ?_
      omega
  | false =>
    cases start with
    | none =>
      have hstep : runStep p (runs, none) n = (runs, none) := by simp only [runStep, hp]
      rw [hstep]
      refine ⟨fun i => ?_, fun a ha => absurd ha (by simp), hpos⟩
      rw [lt_succ_and_iff, ← hcov i]
      simp [hp]
    | some a =>
      -- the open run closes
      have hstep : runStep p (runs, some a) n = (runs ++ [(a, n - a)], none) := by
        simp only [runStep, hp]
      have ha := hopen a rfl
      rw [hstep]
      refine ⟨fun i => ?_, fun a' ha' => absurd ha' (by simp), fun r hr => ?_⟩
      · rw [lt_succ_and_iff, ← hcov i]
        simp only [inRuns_append, inRuns_singleton, Option.some.injEq, exists_eq_left',
          reduceCtorEq, false_and, exists_false, or_false, hp, Bool.false_eq_true, and_false]
        refine or_congr Iff.rfl ?_
        omega
      · rcases List.mem_append.mp hr with hr | hr
        · exact hpos r hr
        · rw [List.mem_singleton] at hr
          subst hr
          show 0 < n - a
          omega

theorem runsUpTo_foldl (p : Nat → Bool) : ∀ n : Nat,
    RunsUpTo p n ((List.range n).foldl (runStep p) ([], none)) := by
  intro n
  induction n with
  | zero => exact ⟨by simp, by simp, by simp⟩
  | succ n ih =>
    rw [List.range_succ, List.foldl_append]
    exact ih.step

/-- **The runs cover the positions on which `p` holds.** -/
theorem inRuns_scanRuns {p : Nat → Bool} {n i : Nat} :
    InRuns (scanRuns p n) i ↔ i < n ∧ p i = true := by
  have h := runsUpTo_foldl p n
  rw [scanRuns]
  generalize (List.range n).foldl (runStep p) ([], none) = s at h
  obtain ⟨runs, start⟩ := s
  rw [← h.covers i]
  cases start with
  | none => simp [closeRun]
  | some a =>
    have ha := h.open_lt a rfl
    simp only [closeRun, inRuns_append, inRuns_singleton, Option.some.injEq, exists_eq_left']
    refine or_congr Iff.rfl ?_
    omega

/-- No run is empty, and none reaches past the last position. -/
theorem scanRuns_bound {p : Nat → Bool} {n : Nat} {r : Nat × Nat} (hr : r ∈ scanRuns p n) :
    0 < r.2 ∧ r.1 + r.2 ≤ n := by
  have hpos : 0 < r.2 := by
    have h := runsUpTo_foldl p n
    rw [scanRuns] at hr
    generalize (List.range n).foldl (runStep p) ([], none) = s at h hr
    obtain ⟨runs, start⟩ := s
    cases start with
    | none => exact h.length_pos r hr
    | some a =>
      have ha := h.open_lt a rfl
      rcases List.mem_append.mp hr with hr | hr
      · exact h.length_pos r hr
      · rw [List.mem_singleton] at hr
        subst hr
        show 0 < n - a
        omega
  -- the last position of the run is one of those covered
  have hlast : InRuns (scanRuns p n) (r.1 + r.2 - 1) := ⟨r, hr, by omega, by omega⟩
  have := (inRuns_scanRuns.mp hlast).1
  exact ⟨hpos, by omega⟩

/-! ### Runs apart -/

/-- Runs in order, none empty, with a gap between any two. -/
structure Apart (runs : List (Nat × Nat)) : Prop where
  length_pos : ∀ r ∈ runs, 0 < r.2
  gap : runs.Pairwise (fun r r' => r.1 + r.2 < r'.1)

/-- No run reaches past `n`. -/
def EndBy (n : Nat) (runs : List (Nat × Nat)) : Prop := ∀ r ∈ runs, r.1 + r.2 ≤ n

theorem EndBy.mono {n m : Nat} {runs : List (Nat × Nat)} (h : EndBy n runs) (hle : n ≤ m) :
    EndBy m runs :=
  fun r hr => Nat.le_trans (h r hr) hle

theorem EndBy.snoc {n first len : Nat} {runs : List (Nat × Nat)} (h : EndBy n runs)
    (hlast : first + len ≤ n) : EndBy n (runs ++ [(first, len)]) := by
  intro r hr
  rcases List.mem_append.mp hr with hr | hr
  · exact h r hr
  · rw [List.mem_singleton] at hr
    subst hr
    exact hlast

namespace Apart

variable {runs : List (Nat × Nat)} {r : Nat × Nat} {first len : Nat}

theorem nil : Apart [] := ⟨by simp, List.Pairwise.nil⟩

theorem snoc (h : Apart runs) (hlt : ∀ r ∈ runs, r.1 + r.2 < first) (hlen : 0 < len) :
    Apart (runs ++ [(first, len)]) := by
  refine ⟨fun r hr => ?_, ?_⟩
  · rcases List.mem_append.mp hr with hr | hr
    · exact h.length_pos r hr
    · rw [List.mem_singleton] at hr
      subst hr
      exact hlen
  · rw [List.pairwise_append]
    refine ⟨h.gap, List.pairwise_singleton _ _, fun r hr r' hr' => ?_⟩
    rw [List.mem_singleton] at hr'
    subst hr'
    exact hlt r hr

/-- The runs without the last one, and the gap before it. -/
theorem init (h : Apart (runs ++ [r])) : Apart runs ∧ ∀ r' ∈ runs, r'.1 + r'.2 < r.1 := by
  obtain ⟨hpos, hgap⟩ := h
  obtain ⟨hinit, _, hlast⟩ := List.pairwise_append.mp hgap
  exact ⟨⟨fun r' hr' => hpos r' (List.mem_append_left _ hr'), hinit⟩,
    fun r' hr' => hlast r' hr' r (List.mem_singleton_self r)⟩

theorem tail (h : Apart (r :: runs)) : Apart runs :=
  ⟨fun r' hr' => h.length_pos r' (List.mem_cons_of_mem _ hr'), (List.pairwise_cons.mp h.gap).2⟩

/-- Behind the first run there is a gap, then come the others. -/
theorem lt_of_inRuns_tail (h : Apart (r :: runs)) {i : Nat} (hi : InRuns runs i) :
    r.1 + r.2 < i := by
  obtain ⟨r', hr', hlo, _⟩ := hi
  have := (List.pairwise_cons.mp h.gap).1 r' hr'
  omega

theorem first_inRuns (h : Apart (r :: runs)) : InRuns (r :: runs) r.1 := by
  have hpos := h.length_pos r List.mem_cons_self
  exact inRuns_cons.mpr (Or.inl (by omega))

theorem first_le (h : Apart (r :: runs)) {i : Nat} (hi : InRuns (r :: runs) i) : r.1 ≤ i := by
  rcases inRuns_cons.mp hi with hi | hi
  · exact hi.1
  · have := h.lt_of_inRuns_tail hi
    omega

theorem end_not_inRuns (h : Apart (r :: runs)) : ¬ InRuns (r :: runs) (r.1 + r.2) := by
  intro hi
  rcases inRuns_cons.mp hi with hi | hi
  · omega
  · have := h.lt_of_inRuns_tail hi
    omega

/-- The positions of the other runs are those behind the first one. -/
theorem inRuns_tail_iff (h : Apart (r :: runs)) {i : Nat} :
    InRuns runs i ↔ InRuns (r :: runs) i ∧ r.1 + r.2 ≤ i := by
  rw [inRuns_cons]
  constructor
  · intro hi
    have := h.lt_of_inRuns_tail hi
    exact ⟨Or.inr hi, by omega⟩
  · rintro ⟨hi | hi, hle⟩
    · omega
    · exact hi

/-- The first runs of two lists that cover the same positions. -/
theorem head_eq {r' : Nat × Nat} {runs' : List (Nat × Nat)} (h : Apart (r :: runs))
    (h' : Apart (r' :: runs')) (hcov : ∀ i, InRuns (r :: runs) i ↔ InRuns (r' :: runs') i) :
    r = r' := by
  have hle := h'.first_le ((hcov _).mp h.first_inRuns)
  have hge := h.first_le ((hcov _).mpr h'.first_inRuns)
  have hfirst : r.1 = r'.1 := by omega
  -- the position behind the shorter one would lie in the longer one
  have hend : ¬ r'.2 > r.2 := fun hlt =>
    h.end_not_inRuns ((hcov _).mpr (inRuns_cons.mpr (Or.inl (by omega))))
  have hend' : ¬ r.2 > r'.2 := fun hlt =>
    h'.end_not_inRuns ((hcov _).mp (inRuns_cons.mpr (Or.inl (by omega))))
  exact Prod.ext hfirst (by omega)

theorem eq_of_covers : ∀ {runs runs' : List (Nat × Nat)}, Apart runs → Apart runs' →
    (∀ i, InRuns runs i ↔ InRuns runs' i) → runs = runs' := by
  intro runs
  induction runs with
  | nil =>
    intro runs' _ h' hcov
    cases runs' with
    | nil => rfl
    | cons r' runs' => exact absurd ((hcov _).mpr h'.first_inRuns) (not_inRuns_nil _)
  | cons r runs ih =>
    intro runs' h h' hcov
    cases runs' with
    | nil => exact absurd ((hcov _).mp h.first_inRuns) (not_inRuns_nil _)
    | cons r' runs' =>
      have hhead := h.head_eq h' hcov
      subst hhead
      congr 1
      refine ih h.tail h'.tail (fun i => ?_)
      rw [h.inRuns_tail_iff, h'.inRuns_tail_iff, hcov i]

end Apart

/-- The maximal runs of a set of positions. -/
structure MaximalRuns (p : Nat → Prop) (runs : List (Nat × Nat)) : Prop where
  apart : Apart runs
  covers : ∀ i, InRuns runs i ↔ p i

/-- **There is one list of maximal runs.** -/
theorem MaximalRuns.unique {p : Nat → Prop} {runs runs' : List (Nat × Nat)}
    (h : MaximalRuns p runs) (h' : MaximalRuns p runs') : runs = runs' :=
  h.apart.eq_of_covers h'.apart (fun i => (h.covers i).trans (h'.covers i).symm)

/-- The state after the first `n` positions: the closed runs are apart, and end before
the position that is next or open. -/
structure ApartUpTo (n : Nat) (s : List (Nat × Nat) × Option Nat) : Prop where
  apart : Apart s.1
  closed_lt : ∀ r ∈ s.1, r.1 + r.2 < n
  open_lt : ∀ a, s.2 = some a → a < n ∧ ∀ r ∈ s.1, r.1 + r.2 < a

theorem ApartUpTo.step {p : Nat → Bool} {n : Nat} {s : List (Nat × Nat) × Option Nat}
    (h : ApartUpTo n s) : ApartUpTo (n + 1) (runStep p s n) := by
  obtain ⟨runs, start⟩ := s
  obtain ⟨hapart, hclosed, hopen⟩ := h
  have hkeep : ∀ r ∈ runs, r.1 + r.2 < n + 1 := fun r hr => Nat.lt_succ_of_lt (hclosed r hr)
  cases hp : p n with
  | true =>
    cases start with
    | none =>
      have hstep : runStep p (runs, none) n = (runs, some n) := by simp only [runStep, hp]
      rw [hstep]
      refine ⟨hapart, hkeep, ?_⟩
      rintro _ ⟨⟩
      exact ⟨Nat.lt_succ_self n, hclosed⟩
    | some a =>
      have hstep : runStep p (runs, some a) n = (runs, some a) := by simp only [runStep, hp]
      rw [hstep]
      refine ⟨hapart, hkeep, ?_⟩
      rintro _ ⟨⟩
      exact ⟨Nat.lt_succ_of_lt (hopen a rfl).1, (hopen a rfl).2⟩
  | false =>
    cases start with
    | none =>
      have hstep : runStep p (runs, none) n = (runs, none) := by simp only [runStep, hp]
      rw [hstep]
      exact ⟨hapart, hkeep, fun a ha => absurd ha (by simp)⟩
    | some a =>
      have hstep : runStep p (runs, some a) n = (runs ++ [(a, n - a)], none) := by
        simp only [runStep, hp]
      obtain ⟨ha, hlt⟩ := hopen a rfl
      rw [hstep]
      refine ⟨hapart.snoc hlt (by omega), fun r hr => ?_, fun a' ha' => absurd ha' (by simp)⟩
      rcases List.mem_append.mp hr with hr | hr
      · exact hkeep r hr
      · rw [List.mem_singleton] at hr
        subst hr
        show a + (n - a) < n + 1
        omega

theorem scanRuns_apart (p : Nat → Bool) (n : Nat) : Apart (scanRuns p n) := by
  have h : ApartUpTo n ((List.range n).foldl (runStep p) ([], none)) := by
    induction n with
    | zero => exact ⟨Apart.nil, by simp, by simp⟩
    | succ n ih =>
      rw [List.range_succ, List.foldl_append]
      exact ih.step
  rw [scanRuns]
  generalize (List.range n).foldl (runStep p) ([], none) = s at h
  obtain ⟨runs, start⟩ := s
  cases start with
  | none => exact h.apart
  | some a =>
    obtain ⟨ha, hlt⟩ := h.open_lt a rfl
    exact h.apart.snoc hlt (by omega)

end ApfsForensic.Walk
