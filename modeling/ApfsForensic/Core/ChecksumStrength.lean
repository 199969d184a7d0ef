import ApfsForensic.Core.Encode
import ApfsForensic.Walk.RunningSum
import Mathlib.Algebra.BigOperators.Ring.Finset
import Mathlib.Data.ZMod.Basic

/-!
# What the object checksum tells

`fletcher64_checksum` reduces two running sums after every word.  Modulo `2^32 - 1` they
are the sum of the words and the sum weighted by the distance from the end
(`checksum_eq_foldSums`), and the two halves of the checksum determine them
(`foldSums_injective`).  A half is a difference from the modulus, so it is never zero.

A change of two neighbouring words is therefore missed exactly where no word changes modulo
`2^32 - 1`, that is where every changed word goes between all zeros and all ones
(`fletcher64_strength`).
-/

namespace ApfsForensic

open Walk

/-! ### The words of a block -/

/-- Word `i` as the checksum counts it. -/
def countedWord (block : Bytes) (i : Nat) : Nat := if i < 2 then 0 else leU32 block (4 * i)

/-- The sum of the words. -/
def wordSum (block : Bytes) : Nat := ∑ i ∈ Finset.range (block.length / 4), countedWord block i

/-- The sum of the words, a word of `n` taken `n - i` times. -/
def weightedWordSum (block : Bytes) : Nat :=
  ∑ i ∈ Finset.range (block.length / 4), (block.length / 4 - i) * countedWord block i

theorem words_eq : ∀ block : Bytes,
    words block = (List.range (block.length / 4)).map (fun i => leU32 block (4 * i)) := by
  intro block
  fun_induction words block with
  | case1 a b c d rest ih =>
    have hlen : (a :: b :: c :: d :: rest).length / 4 = rest.length / 4 + 1 := by
      simp only [List.length_cons]
      omega
    have hshift : ∀ i, leU32 (a :: b :: c :: d :: rest) (4 * (i + 1)) = leU32 rest (4 * i) := by
      intro i
      rw [Nat.mul_succ]
      simp only [leU32, leUInt_cons]
    have hhead : leU32 (a :: b :: c :: d :: rest) (4 * 0) = fromLeBytes [a, b, c, d] :=
      leUInt_append_zero (s := [a, b, c, d]) rfl rest
    rw [hlen, List.range_succ_eq_map, List.map_cons, List.map_map, hhead, ih]
    congr 1
    exact List.map_congr_left fun i _ => (hshift i).symm
  | case2 block hshort =>
    have hlen : block.length < 4 := by
      by_contra hlong
      obtain ⟨a, b, c, d, rest, rfl⟩ := exists_four_of_le_length (Nat.not_lt.mp hlong)
      exact hshort a b c d rest rfl
    rw [Nat.div_eq_of_lt hlen]
    rfl

theorem checksumWords_eq (block : Bytes) :
    checksumWords block = (List.range (block.length / 4)).map (countedWord block) := by
  apply List.ext_getElem?
  intro i
  rw [checksumWords, words_eq]
  by_cases hi : i < block.length / 4
  · simp [List.getElem?_zipIdx, List.getElem?_range hi, countedWord]
  · simp [hi]

/-- The checksum does not look at the eight bytes it is stored in. -/
theorem checksum_eq_of_stored {a b : Bytes} (hlen : a.length = b.length)
    (hsame : ∀ k, a[k]? ≠ b[k]? → k < 8) : fletcher64Checksum a = fletcher64Checksum b := by
  have hword : ∀ i, countedWord a i = countedWord b i := by
    intro i
    rw [countedWord, countedWord]
    by_cases hi : i < 2
    · rw [if_pos hi, if_pos hi]
    · rw [if_neg hi, if_neg hi]
      apply leUInt_congr hlen
      intro k hk _
      by_contra hne
      have := hsame k hne
      omega
  have hwords : checksumWords a = checksumWords b := by
    rw [checksumWords_eq, checksumWords_eq, hlen]
    exact List.map_congr_left fun i _ => hword i
  rw [fletcher64Checksum, fletcher64Checksum, hwords]

/-! ### The sums modulo `2^32 - 1` -/

instance : NeZero fletcherMod := ⟨by decide⟩

/-- The final fold of the two sums. -/
def foldSums (s : ZMod fletcherMod × ZMod fletcherMod) : Nat :=
  let checkLo := fletcherMod - (s.1 + s.2).val
  let checkHi := fletcherMod - (s.1 + (checkLo : ZMod fletcherMod)).val
  checkHi * 2 ^ 32 + checkLo

/-- The reduced loop, read modulo `2^32 - 1`, is the loop of the two running sums. -/
theorem cast_foldl_fletcherStep : ∀ (vs : List Nat) (s : Nat × Nat),
    (((vs.foldl fletcherStep s).1 : ZMod fletcherMod),
        ((vs.foldl fletcherStep s).2 : ZMod fletcherMod))
      = (vs.map Nat.cast).foldl sumStep ((s.1 : ZMod fletcherMod), (s.2 : ZMod fletcherMod)) := by
  intro vs
  induction vs with
  | nil => intro s; rfl
  | cons v vs ih =>
    intro s
    rw [List.foldl_cons, ih, List.map_cons, List.foldl_cons]
    simp only [fletcherStep, sumStep, ZMod.natCast_mod, Nat.cast_add]

theorem cast_sums (block : Bytes) :
    (((checksumWords block).foldl fletcherStep (0, 0)).1 : ZMod fletcherMod) = wordSum block ∧
      (((checksumWords block).foldl fletcherStep (0, 0)).2 : ZMod fletcherMod)
        = weightedWordSum block := by
  have hfold := cast_foldl_fletcherStep (checksumWords block) (0, 0)
  rw [checksumWords_eq, List.map_map, Nat.cast_zero] at hfold
  rw [checksumWords_eq]
  rw [foldl_sumStep_range, Prod.mk.injEq] at hfold
  rw [hfold.1, hfold.2, wordSum, weightedWordSum, Nat.cast_sum, Nat.cast_sum]
  simp only [Function.comp, nsmul_eq_mul, Nat.cast_mul, and_self]

theorem checksum_eq_foldSums (block : Bytes) :
    fletcher64Checksum block = foldSums (wordSum block, weightedWordSum block) := by
  obtain ⟨hlo, hhi⟩ := cast_sums block
  unfold fletcher64Checksum foldSums
  simp only [← hlo, ← hhi, ← Nat.cast_add, ZMod.val_natCast]
  rw [← Nat.shiftLeft_add_eq_or_of_lt, Nat.shiftLeft_eq]
  exact lt_of_le_of_lt (Nat.sub_le _ _) (by decide)

/-- A half of the checksum. -/
theorem half_bounds (x : ZMod fletcherMod) :
    0 < fletcherMod - x.val ∧ fletcherMod - x.val < 2 ^ 32 := by
  have hval := ZMod.val_lt x
  have hmod : fletcherMod = 2 ^ 32 - 1 := rfl
  omega

theorem eq_of_half_eq {x y : ZMod fletcherMod} (h : fletcherMod - x.val = fletcherMod - y.val) :
    x = y := by
  have hx := ZMod.val_lt x
  have hy := ZMod.val_lt y
  exact ZMod.val_injective fletcherMod (by omega)

/-- **The halves of the checksum determine the sums.** -/
theorem foldSums_injective : Function.Injective foldSums := by
  rintro ⟨a, b⟩ ⟨a', b'⟩ h
  simp only [foldSums] at h
  have hlo := (half_bounds (a + b)).2
  have hlo' := (half_bounds (a' + b')).2
  have hsum : a + b = a' + b' := eq_of_half_eq (by omega)
  rw [hsum] at h
  have hhi : a + ((fletcherMod - (a' + b').val : Nat) : ZMod fletcherMod)
      = a' + ((fletcherMod - (a' + b').val : Nat) : ZMod fletcherMod) := eq_of_half_eq (by omega)
  have ha := add_right_cancel hhi
  rw [ha] at hsum ⊢
  rw [add_left_cancel hsum]

theorem halves_ne_zero (block : Bytes) :
    fletcher64Checksum block % 2 ^ 32 ≠ 0 ∧ fletcher64Checksum block / 2 ^ 32 ≠ 0 := by
  rw [checksum_eq_foldSums, foldSums]
  generalize (wordSum block : ZMod fletcherMod) = a
  generalize (weightedWordSum block : ZMod fletcherMod) = b
  have hlo := half_bounds (a + b)
  have hhi := half_bounds (a + ((fletcherMod - (a + b).val : Nat) : ZMod fletcherMod))
  simp only
  omega

/-! ### Two blocks -/

/-- One word is all zeros, the other all ones. -/
def ZerosAndOnes (x y : Nat) : Prop := (x = 0 ∧ y = 0xffffffff) ∨ (x = 0xffffffff ∧ y = 0)

/-- Two words are equal modulo `2^32 - 1`. -/
theorem cast_eq_cast_iff {x y : Nat} (hx : x < 2 ^ 32) (hy : y < 2 ^ 32) :
    (x : ZMod fletcherMod) = y ↔ x ≠ y → ZerosAndOnes x y := by
  rw [ZMod.natCast_eq_natCast_iff', ZerosAndOnes, fletcherMod]
  omega

theorem leU32_of_outside {block : Bytes} {j : Nat} (h : block.length / 4 ≤ j) :
    leU32 block (4 * j) = 0 := by
  rw [leU32, leUInt, getRange, if_neg (by omega)]

/-- Equal checksums of blocks of one length, where only words `i` and `i + 1` may differ. -/
theorem checksum_eq_iff {a b : Bytes} {i : Nat} (hlen : a.length = b.length) (hi : 2 ≤ i)
    (hsame : ∀ k, a[k]? ≠ b[k]? → 4 * i ≤ k ∧ k < 4 * (i + 2)) :
    fletcher64Checksum a = fletcher64Checksum b ↔
      ∀ j, leU32 a (4 * j) ≠ leU32 b (4 * j) →
        ZerosAndOnes (leU32 a (4 * j)) (leU32 b (4 * j)) := by
  have hword : ∀ j, j ≠ i → j ≠ i + 1 → leU32 a (4 * j) = leU32 b (4 * j) := by
    intro j hj hj'
    apply leUInt_congr hlen
    intro k hk hk'
    by_contra hne
    have := hsame k hne
    omega
  have hcounted : ∀ j < a.length / 4, j ≠ i → j ≠ i + 1 →
      (countedWord a j : ZMod fletcherMod) = countedWord b j := by
    intro j _ hj hj'
    rw [countedWord, countedWord, hword j hj hj']
  have hsums := sums_eq_iff hcounted
  simp only [nsmul_eq_mul, ← Nat.cast_mul, ← Nat.cast_sum] at hsums
  rw [checksum_eq_foldSums, checksum_eq_foldSums, foldSums_injective.eq_iff, Prod.mk.injEq,
    wordSum, wordSum, weightedWordSum, weightedWordSum, ← hlen, hsums]
  refine ⟨fun h j hne => ?_, fun h j _ => ?_⟩
  · -- a word that differs is summed
    have hj : 2 ≤ j := by
      by_contra hlt
      exact hne (hword j (by omega) (by omega))
    have hin : j < a.length / 4 := by
      by_contra hout
      rw [leU32_of_outside (by omega), leU32_of_outside (by omega)] at hne
      exact hne rfl
    have heq := h j hin
    rw [countedWord, countedWord, if_neg (by omega), if_neg (by omega)] at heq
    exact (cast_eq_cast_iff (leU32_lt _ _) (leU32_lt _ _)).mp heq hne
  · rw [countedWord, countedWord]
    split
    · rfl
    · exact (cast_eq_cast_iff (leU32_lt _ _) (leU32_lt _ _)).mpr (h j)

/-- **The strength of the object checksum.**  It is an injective function of the sum of the
words and the sum weighted from the end, modulo `2^32 - 1`.  Neither half of it is zero, so
a block that stores a zero half never verifies.  If two blocks of one length differ at most
in two neighbouring words behind the first eight bytes, the checksum misses the difference
exactly when every word that differs is all zeros in one block and all ones in the other.
A partial word at the end of a block is not summed. -/
theorem fletcher64_strength :
    (∃ f : ZMod fletcherMod × ZMod fletcherMod → Nat, Function.Injective f ∧
      ∀ block, fletcher64Checksum block = f (wordSum block, weightedWordSum block)) ∧
    (∀ block, fletcher64Checksum block < 2 ^ 64 ∧
      fletcher64Checksum block % 2 ^ 32 ≠ 0 ∧ fletcher64Checksum block / 2 ^ 32 ≠ 0) ∧
    (∀ block paddr, fletcher64Stored block % 2 ^ 32 = 0 ∨ fletcher64Stored block / 2 ^ 32 = 0 →
      verifyChecksum block paddr ≠ .ok ()) ∧
    ∀ (a b : Bytes) (i : Nat), a.length = b.length → 2 ≤ i →
      (∀ k, a[k]? ≠ b[k]? → 4 * i ≤ k ∧ k < 4 * (i + 2)) →
      (fletcher64Checksum a = fletcher64Checksum b ↔
        ∀ j, leU32 a (4 * j) ≠ leU32 b (4 * j) →
          ZerosAndOnes (leU32 a (4 * j)) (leU32 b (4 * j))) := by
  refine ⟨⟨foldSums, foldSums_injective, checksum_eq_foldSums⟩,
    fun block => ⟨fletcher64Checksum_lt block, halves_ne_zero block⟩, fun block paddr hzero h => ?_,
    fun a b i hlen hi hsame => checksum_eq_iff hlen hi hsame⟩
  obtain ⟨hlo, hhi⟩ := halves_ne_zero block
  rw [← verifyChecksum_eq_ok_iff.mp h] at hlo hhi
  rcases hzero with hzero | hzero
  · exact hlo hzero
  · exact hhi hzero

-- a word of zeros overwritten by ones goes unseen
example : fletcher64Checksum (List.replicate 12 0)
    = fletcher64Checksum (List.replicate 8 0 ++ List.replicate 4 0xff) := by decide

end ApfsForensic
