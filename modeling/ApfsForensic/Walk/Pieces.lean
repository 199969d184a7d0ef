import Mathlib.Data.List.Basic

/-!
# Laying out pieces in a buffer

An encoder that fills a buffer of fixed length writes pieces of it one after another.
`layOut base pieces` is the buffer after all writes.  Where the pieces lie inside the
buffer and no two of them share a position, the order of the writes does not matter and
every piece is read back whole where it was written (`exists_drop_layOut`).
-/

namespace ApfsForensic.Walk

variable {α : Type*}

/-! ### One write -/

/-- Replace the positions from `start` on by `content`. -/
def overwrite (base : List α) (start : Nat) (content : List α) : List α :=
  base.take start ++ content ++ base.drop (start + content.length)

section Overwrite

variable {base content : List α} {start : Nat}

theorem length_overwrite (h : start + content.length ≤ base.length) :
    (overwrite base start content).length = base.length := by
  rw [overwrite, List.length_append, List.length_append, List.length_take, List.length_drop]
  omega

theorem getElem?_overwrite (h : start + content.length ≤ base.length) (i : Nat) :
    (overwrite base start content)[i]?
      = if start ≤ i ∧ i < start + content.length then content[i - start]? else base[i]? := by
  have htake : (base.take start).length = start := by rw [List.length_take]; omega
  rw [overwrite, List.append_assoc, List.getElem?_append, htake]
  by_cases hlt : i < start
  · rw [if_pos hlt, if_neg (by omega), List.getElem?_take_of_lt hlt]
  · rw [if_neg hlt, List.getElem?_append]
    by_cases hin : i - start < content.length
    · rw [if_pos hin, if_pos ⟨by omega, by omega⟩]
    · rw [if_neg hin, if_neg (by omega), List.getElem?_drop]
      congr 1
      omega

end Overwrite

/-! ### Pieces -/

/-- A stretch of a buffer and what is written there. -/
structure Piece (α : Type*) where
  start : Nat
  content : List α

namespace Piece

/-- The position after the last one. -/
def stop (p : Piece α) : Nat := p.start + p.content.length

def Covers (p : Piece α) (i : Nat) : Prop := p.start ≤ i ∧ i < p.stop

instance (p : Piece α) (i : Nat) : Decidable (p.Covers i) :=
  inferInstanceAs (Decidable (p.start ≤ i ∧ i < p.stop))

/-- No position belongs to both.  An empty piece is disjoint from every other. -/
def Disjoint (p q : Piece α) : Prop := ∀ i, p.Covers i → ¬ q.Covers i

instance (p q : Piece α) : Decidable (p.Disjoint q) :=
  decidable_of_iff (∀ i < p.stop, p.Covers i → ¬ q.Covers i)
    ⟨fun h i hi => h i hi.2 hi, fun h i _ => h i⟩

theorem getElem?_overwrite {p : Piece α} {base : List α} (h : p.stop ≤ base.length) (i : Nat) :
    (overwrite base p.start p.content)[i]?
      = if p.Covers i then p.content[i - p.start]? else base[i]? :=
  Walk.getElem?_overwrite h i

theorem Disjoint.symm {p q : Piece α} (h : p.Disjoint q) : q.Disjoint p :=
  fun i hq hp => h i hp hq

theorem disjoint_of_stop_le {p q : Piece α} (h : p.stop ≤ q.start) : p.Disjoint q :=
  fun _ hp hq => absurd (Nat.lt_of_lt_of_le hp.2 h) (Nat.not_lt.mpr hq.1)

/-- The pieces stand one behind the other between positions `pos` and `n`. -/
def InOrder (n : Nat) : (pos : Nat) → List (Piece α) → Prop
  | pos, [] => pos ≤ n
  | pos, p :: ps => pos ≤ p.start ∧ InOrder n p.stop ps

theorem InOrder.between {n : Nat} : ∀ {pieces : List (Piece α)} {pos : Nat},
    InOrder n pos pieces → ∀ p ∈ pieces, pos ≤ p.start ∧ p.stop ≤ n := by
  intro pieces
  induction pieces with
  | nil => intro pos _ p hp; exact absurd hp List.not_mem_nil
  | cons q pieces ih =>
    intro pos h p hp
    have hend : q.stop ≤ n := by
      cases pieces with
      | nil => exact h.2
      | cons r pieces =>
        have hr := ih h.2 r List.mem_cons_self
        have : r.start ≤ r.stop := Nat.le_add_right _ _
        omega
    have hstart : q.start ≤ q.stop := Nat.le_add_right _ _
    have hpos := h.1
    rcases List.mem_cons.mp hp with rfl | hp
    · exact ⟨hpos, hend⟩
    · have := ih h.2 p hp
      omega

theorem InOrder.disjoint {n : Nat} : ∀ {pieces : List (Piece α)} {pos : Nat},
    InOrder n pos pieces → pieces.Pairwise Piece.Disjoint := by
  intro pieces
  induction pieces with
  | nil => intro pos _; exact .nil
  | cons q pieces ih =>
    intro pos h
    refine List.pairwise_cons.mpr ⟨fun p hp => ?_, ih h.2⟩
    exact disjoint_of_stop_le (h.2.between p hp).1

end Piece

/-! ### All writes -/

/-- The buffer after the pieces were written in order. -/
def layOut (base : List α) (pieces : List (Piece α)) : List α :=
  pieces.foldl (fun b p => overwrite b p.start p.content) base

theorem length_layOut : ∀ {pieces : List (Piece α)} {base : List α},
    (∀ p ∈ pieces, p.stop ≤ base.length) → (layOut base pieces).length = base.length := by
  intro pieces
  induction pieces with
  | nil => intro base _; rfl
  | cons p pieces ih =>
    intro base h
    have hlen : (overwrite base p.start p.content).length = base.length :=
      length_overwrite (h p List.mem_cons_self)
    rw [layOut, List.foldl_cons, ← layOut, ih, hlen]
    intro q hq
    rw [hlen]
    exact h q (List.mem_cons_of_mem p hq)

/-- A position outside of all pieces keeps what it held. -/
theorem getElem?_layOut_of_not_covers {i : Nat} : ∀ {pieces : List (Piece α)} {base : List α},
    (∀ p ∈ pieces, p.stop ≤ base.length) → (∀ p ∈ pieces, ¬ p.Covers i) →
      (layOut base pieces)[i]? = base[i]? := by
  intro pieces
  induction pieces with
  | nil => intro base _ _; rfl
  | cons p pieces ih =>
    intro base h hi
    have hp : p.stop ≤ base.length := h p List.mem_cons_self
    have hrest : ∀ q ∈ pieces, q.stop ≤ (overwrite base p.start p.content).length := by
      intro q hq
      rw [length_overwrite hp]
      exact h q (List.mem_cons_of_mem p hq)
    rw [layOut, List.foldl_cons, ← layOut,
      ih hrest (fun q hq => hi q (List.mem_cons_of_mem p hq)), Piece.getElem?_overwrite hp,
      if_neg (hi p List.mem_cons_self)]

/-- What the buffer held before matters at the same position only. -/
theorem getElem?_layOut_congr {i : Nat} : ∀ {pieces : List (Piece α)} {base base' : List α},
    (∀ p ∈ pieces, p.stop ≤ base.length) → base.length = base'.length → base[i]? = base'[i]? →
      (layOut base pieces)[i]? = (layOut base' pieces)[i]? := by
  intro pieces
  induction pieces with
  | nil => intro base base' _ _ hi; exact hi
  | cons p pieces ih =>
    intro base base' h hlen hi
    have hp : p.stop ≤ base.length := h p List.mem_cons_self
    have hp' : p.stop ≤ base'.length := hlen ▸ hp
    have hlength := length_overwrite hp
    rw [layOut, layOut, List.foldl_cons, List.foldl_cons, ← layOut, ← layOut]
    apply ih
    · intro q hq
      rw [hlength]
      exact h q (List.mem_cons_of_mem p hq)
    · rw [hlength, hlen, length_overwrite hp']
    · rw [Piece.getElem?_overwrite hp, Piece.getElem?_overwrite hp', hi]

/-- A position of a piece holds what the piece has there: the pieces written before it
are overwritten, and those after it do not reach the position. -/
theorem getElem?_layOut_of_mem {p : Piece α} {i : Nat} (hi : p.Covers i) :
    ∀ {pieces : List (Piece α)} {base : List α}, (∀ q ∈ pieces, q.stop ≤ base.length) →
      pieces.Pairwise Piece.Disjoint → p ∈ pieces →
        (layOut base pieces)[i]? = p.content[i - p.start]? := by
  intro pieces
  induction pieces with
  | nil => intro base _ _ hp; exact absurd hp List.not_mem_nil
  | cons q pieces ih =>
    intro base h hdis hp
    have hq : q.stop ≤ base.length := h q List.mem_cons_self
    have hrest : ∀ r ∈ pieces, r.stop ≤ (overwrite base q.start q.content).length := by
      intro r hr
      rw [length_overwrite hq]
      exact h r (List.mem_cons_of_mem q hr)
    rw [List.pairwise_cons] at hdis
    rw [layOut, List.foldl_cons, ← layOut]
    rcases List.mem_cons.mp hp with hpq | hmem
    · subst hpq
      rw [getElem?_layOut_of_not_covers hrest (fun r hr => hdis.1 r hr i hi),
        Piece.getElem?_overwrite hq, if_pos hi]
    · exact ih hrest hdis.2 hmem

/-- **Every piece is read back where it was written.** -/
theorem exists_drop_layOut {pieces : List (Piece α)} {base : List α}
    (h : ∀ q ∈ pieces, q.stop ≤ base.length) (hdis : pieces.Pairwise Piece.Disjoint)
    {p : Piece α} (hp : p ∈ pieces) :
    ∃ rest, (layOut base pieces).drop p.start = p.content ++ rest := by
  refine ⟨((layOut base pieces).drop p.start).drop p.content.length, ?_⟩
  have htake : ((layOut base pieces).drop p.start).take p.content.length = p.content := by
    apply List.ext_getElem?
    intro i
    by_cases hi : i < p.content.length
    · rw [List.getElem?_take_of_lt hi, List.getElem?_drop,
        getElem?_layOut_of_mem ⟨Nat.le_add_right _ _, Nat.add_lt_add_left hi _⟩ h hdis hp,
        Nat.add_sub_cancel_left]
    · rw [List.getElem?_take_eq_none (by omega), List.getElem?_eq_none (by omega)]
  conv_lhs => rw [← List.take_append_drop p.content.length ((layOut base pieces).drop p.start)]
  rw [htake]

end ApfsForensic.Walk
