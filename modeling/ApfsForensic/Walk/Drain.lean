import Mathlib.Data.List.Basic

/-!
# Reading a list through windows

A reader answers `read off n` with at most `n` elements from position `off` on.  A
caller that wants everything asks from `0` on, moves ahead by what it got, and stops
at the first empty answer.  `Drains read off bufs out` is such a run, with `bufs`
the lengths of its buffers.

`ServesWindows read data`: the reader answers with windows of one list.  Then every
run of non-empty buffers gives that list (`Drains.eq_drop`), and every supply of
them comes to an end (`exists_drains`).  `ReadsExactly` says both, with the length.
-/

namespace ApfsForensic.Walk

universe u

variable {α : Type u} {ε : Type*}

/-- From `off` on, buffers of the lengths `bufs` take `out`, and only the last of them
comes back empty. -/
inductive Drains (read : Nat → Nat → Except ε (List α)) :
    (off : Nat) → (bufs : List Nat) → (out : List α) → Prop
  | done {off n : Nat} (empty : read off n = .ok []) : Drains read off [n] []
  | more {off n : Nat} {bufs : List Nat} {s out : List α} (answer : read off n = .ok s)
      (nonempty : s ≠ []) (rest : Drains read (off + s.length) bufs out) :
      Drains read off (n :: bufs) (s ++ out)

/-- The answers are windows of `data`. -/
def ServesWindows (read : Nat → Nat → Except ε (List α)) (data : List α) : Prop :=
  ∀ off n, read off n = .ok ((data.drop off).take n)

/-- Whatever non-empty buffers are offered, the reader gives one list of length `size`
and is then empty. -/
def ReadsExactly (read : Nat → Nat → Except ε (List α)) (size : Nat) : Prop :=
  ∃ data : List α, data.length = size ∧
    (∀ bufs out, (∀ n ∈ bufs, 0 < n) → Drains read 0 bufs out → out = data) ∧
    ∀ bufs : Nat → Nat, (∀ k, 0 < bufs k) → ∃ k, Drains read 0 ((List.range k).map bufs) data

variable {read : Nat → Nat → Except ε (List α)} {data : List α}

theorem take_append_drop_add (l : List α) (off n : Nat) :
    (l.drop off).take n ++ l.drop (off + ((l.drop off).take n).length) = l.drop off := by
  rw [← List.drop_drop, List.length_take]
  rcases Nat.le_total n (l.drop off).length with h | h
  · rw [Nat.min_eq_left h, List.take_append_drop]
  · rw [Nat.min_eq_right h, List.take_of_length_le h, List.drop_length, List.append_nil]

/-- A run of non-empty buffers gives what is left. -/
theorem Drains.eq_drop (h : ServesWindows read data) {off : Nat} {bufs : List Nat} {out : List α}
    (hd : Drains read off bufs out) : (∀ n ∈ bufs, 0 < n) → out = data.drop off := by
  induction hd with
  | @done off n empty =>
    intro hpos
    have hn : 0 < n := hpos n (List.mem_singleton_self n)
    rw [h off n, Except.ok.injEq, List.take_eq_nil_iff] at empty
    rcases empty with hzero | hnil
    · omega
    · exact hnil.symm
  | @more off n bufs s out answer _ _ ih =>
    intro hpos
    rw [List.forall_mem_cons] at hpos
    rw [h off n, Except.ok.injEq] at answer
    rw [ih hpos.2, ← answer, take_append_drop_add]

/-- Non-empty buffers come to an end. -/
theorem exists_drains (h : ServesWindows read data) :
    ∀ (left off : Nat), data.length - off = left → ∀ bufs : Nat → Nat, (∀ k, 0 < bufs k) →
      ∃ k, Drains read off ((List.range k).map bufs) (data.drop off) := by
  intro left
  induction left using Nat.strongRecOn with
  | ind left ih =>
    intro off hleft bufs hpos
    have hanswer := h off (bufs 0)
    by_cases hend : data.length ≤ off
    · rw [List.drop_eq_nil_of_le hend, List.take_nil] at hanswer
      refine ⟨1, ?_⟩
      rw [List.drop_eq_nil_of_le hend]
      exact .done hanswer
    · -- the first buffer takes something, and less is left
      have hlen : ((data.drop off).take (bufs 0)).length = min (bufs 0) (data.length - off) := by
        rw [List.length_take, List.length_drop]
      have hfirst := hpos 0
      have hne : (data.drop off).take (bufs 0) ≠ [] := by
        rw [← List.length_pos_iff, hlen]
        omega
      obtain ⟨k, hk⟩ := ih (data.length - (off + ((data.drop off).take (bufs 0)).length))
        (by omega) _ rfl (fun k => bufs (k + 1)) (fun k => hpos (k + 1))
      refine ⟨k + 1, ?_⟩
      rw [List.range_succ_eq_map, List.map_cons, List.map_map]
      have hrun := Drains.more hanswer hne hk
      rwa [take_append_drop_add] at hrun

theorem ServesWindows.readsExactly (h : ServesWindows read data) :
    ReadsExactly read data.length := by
  refine ⟨data, rfl, ?_, ?_⟩
  · intro bufs out hpos hd
    exact hd.eq_drop h hpos
  · intro bufs hpos
    exact exists_drains h _ 0 rfl bufs hpos

end ApfsForensic.Walk
