import Mathlib.Algebra.BigOperators.Intervals

/-!
# Two running sums

A checksum of Fletcher's kind keeps two sums: one of the values, and one of the first sum
after every value.  So the second counts a value once for every value from it on
(`foldl_sumStep_range`).

Two sequences that differ at two neighbouring places only have the same two sums exactly
where they are equal (`sums_eq_iff`): the difference of the second sums is that of the
first, taken some number of times, and once more the first of the two differences.
-/

namespace ApfsForensic.Walk

open Finset

variable {A : Type*}

/-- One value: the first sum takes it, the second takes the new first sum. -/
def sumStep [Add A] (s : A × A) (v : A) : A × A := (s.1 + v, s.2 + (s.1 + v))

section Monoid

variable [AddCommMonoid A]

theorem weights_succ (f : ℕ → A) (n : ℕ) :
    ∑ i ∈ range (n + 1), (n + 1 - i) • f i
      = ∑ i ∈ range n, (n - i) • f i + ∑ i ∈ range (n + 1), f i := by
  have hterm : ∀ i ∈ range n, (n + 1 - i) • f i = (n - i) • f i + f i := by
    intro i hi
    rw [Nat.succ_sub (mem_range.mp hi).le, succ_nsmul]
  rw [sum_range_succ, sum_range_succ, sum_congr rfl hterm, sum_add_distrib,
    Nat.add_sub_cancel_left, one_nsmul, add_assoc]

/-- **The two sums**: of the values, and of the values weighted from the end. -/
theorem foldl_sumStep_range (f : ℕ → A) : ∀ n : ℕ,
    ((List.range n).map f).foldl sumStep (0, 0)
      = (∑ i ∈ range n, f i, ∑ i ∈ range n, (n - i) • f i) := by
  intro n
  induction n with
  | zero => rfl
  | succ n ih =>
    rw [List.range_succ, List.map_append, List.foldl_append, ih, weights_succ, sum_range_succ]
    rfl

end Monoid

section Group

variable [AddCommGroup A]

/-- The case of a zero sequence: values at two neighbouring places with both sums zero are
zero. -/
theorem eq_zero_of_sums {d : ℕ → A} {n i : ℕ} (hout : ∀ j, j ≠ i → j ≠ i + 1 → d j = 0)
    (hend : ∀ j, n ≤ j → d j = 0) (hsum : ∑ j ∈ range n, d j = 0)
    (hweights : ∑ j ∈ range n, (n - j) • d j = 0) : ∀ j, d j = 0 := by
  have hpair : ∀ w : ℕ → ℕ, ∑ j ∈ range n, w j • d j = w i • d i + w (i + 1) • d (i + 1) := by
    intro w
    apply sum_eq_add i (i + 1) (Nat.succ_ne_self i).symm
    · intro j _ hj
      rw [hout j hj.1 hj.2, nsmul_zero]
    · intro hi
      rw [hend i (by simpa using hi), nsmul_zero]
    · intro hi
      rw [hend (i + 1) (by simpa using hi), nsmul_zero]
  have hone := hpair fun _ => 1
  simp only [one_nsmul] at hone
  rw [hone] at hsum
  rw [hpair fun j => n - j] at hweights
  have hi : d i = 0 := by
    by_cases hlt : i < n
    · have hweight : n - i = n - (i + 1) + 1 := by omega
      rw [hweight, succ_nsmul, add_right_comm, ← nsmul_add, hsum, nsmul_zero, zero_add]
        at hweights
      exact hweights
    · exact hend i (Nat.le_of_not_lt hlt)
  intro j
  by_cases hj : j = i
  · rw [hj, hi]
  · by_cases hj' : j = i + 1
    · rw [hj', ← hsum, hi, zero_add]
    · exact hout j hj hj'

/-- **A change of two neighbours shows in the sums.** -/
theorem sums_eq_iff {f g : ℕ → A} {n i : ℕ} (h : ∀ j < n, j ≠ i → j ≠ i + 1 → f j = g j) :
    (∑ j ∈ range n, f j = ∑ j ∈ range n, g j ∧
        ∑ j ∈ range n, (n - j) • f j = ∑ j ∈ range n, (n - j) • g j) ↔
      ∀ j < n, f j = g j := by
  constructor
  · rintro ⟨hsum, hweights⟩
    -- the differences, continued by zero behind the end
    let d : ℕ → A := fun j => if j < n then f j - g j else 0
    have hd : ∀ j ∈ range n, d j = f j - g j := fun j hj => if_pos (mem_range.mp hj)
    have hzero : ∀ j, d j = 0 := by
      apply eq_zero_of_sums (i := i) (n := n)
      · intro j hj hj'
        by_cases hlt : j < n
        · rw [hd j (mem_range.mpr hlt), h j hlt hj hj', sub_self]
        · exact if_neg hlt
      · intro j hj
        exact if_neg (Nat.not_lt.mpr hj)
      · rw [sum_congr rfl hd, sum_sub_distrib, hsum, sub_self]
      · rw [sum_congr rfl fun j hj => by rw [hd j hj, nsmul_sub], sum_sub_distrib, hweights,
          sub_self]
    intro j hj
    rw [← sub_eq_zero, ← hd j (mem_range.mpr hj), hzero j]
  · intro heq
    have hterm : ∀ j ∈ range n, f j = g j := fun j hj => heq j (mem_range.mp hj)
    exact ⟨sum_congr rfl hterm, sum_congr rfl fun j hj => by rw [hterm j hj]⟩

end Group

end ApfsForensic.Walk
