import Mathlib.Data.List.Basic

/-!
# Following labels

A labelled graph is given by a lookup `next a l` that may fail, or find nothing.  A walker
starts at `a` and follows a list of labels; where a label leads nowhere it stops with
`missing` of the place it has come to.

`Follows next a ls b`: the labels `ls` lead from `a` to `b`.  The walker returns `b` exactly
then (`followAll_eq_ok_iff`), and `followAll_eq_error_iff` says what every error means: some
of the labels were followed, and the next one failed.
-/

namespace ApfsForensic.Walk

universe u v w

variable {α : Type u} {β : Type v} {ε : Type w}

/-- One label. -/
def followOne (next : α → β → Except ε (Option α)) (missing : α → ε) (a : α) (l : β) :
    Except ε α :=
  match next a l with
  | .error e => .error e
  | .ok none => .error (missing a)
  | .ok (some b) => .ok b

/-- All labels, one after the other. -/
def followAll (next : α → β → Except ε (Option α)) (missing : α → ε) (a : α) (ls : List β) :
    Except ε α :=
  ls.foldlM (followOne next missing) a

/-- The labels `ls` lead from `a` to `b`. -/
inductive Follows (next : α → β → Except ε (Option α)) : α → List β → α → Prop
  | nil (a : α) : Follows next a [] a
  | cons {a b c : α} {l : β} {ls : List β} (step : next a l = .ok (some b))
      (rest : Follows next b ls c) : Follows next a (l :: ls) c

variable {next : α → β → Except ε (Option α)} {missing : α → ε}

theorem followOne_eq_ok_iff {a b : α} {l : β} :
    followOne next missing a l = .ok b ↔ next a l = .ok (some b) := by
  rw [followOne]
  rcases next a l with e | _ | c <;> simp

theorem followOne_eq_error_iff {a : α} {l : β} {e : ε} :
    followOne next missing a l = .error e ↔
      next a l = .error e ∨ next a l = .ok none ∧ missing a = e := by
  rw [followOne]
  rcases next a l with e' | _ | c <;> simp

theorem followAll_cons (a : α) (l : β) (ls : List β) :
    followAll next missing a (l :: ls)
      = followOne next missing a l >>= fun b => followAll next missing b ls :=
  List.foldlM_cons

theorem followAll_eq_ok_iff {ls : List β} : ∀ {a b : α},
    followAll next missing a ls = .ok b ↔ Follows next a ls b := by
  induction ls with
  | nil =>
    intro a b
    constructor
    · intro h
      cases h
      exact .nil a
    · rintro ⟨⟩
      rfl
  | cons l ls ih =>
    intro a b
    rw [followAll_cons]
    constructor
    · intro h
      cases hstep : followOne next missing a l with
      | error e => rw [hstep] at h; cases h
      | ok c =>
        rw [hstep] at h
        exact .cons (followOne_eq_ok_iff.mp hstep) (ih.mp h)
    · rintro (_ | ⟨step, rest⟩)
      rw [followOne_eq_ok_iff.mpr step]
      exact ih.mpr rest

/-- **Why a walk fails.**  Some labels lead to a place where the next one fails. -/
theorem followAll_eq_error_iff {ls : List β} {e : ε} : ∀ {a : α},
    followAll next missing a ls = .error e ↔
      ∃ followed l rest d, ls = followed ++ l :: rest ∧ Follows next a followed d ∧
        (next d l = .error e ∨ next d l = .ok none ∧ missing d = e) := by
  induction ls with
  | nil =>
    intro a
    constructor
    · intro h; cases h
    · rintro ⟨followed, l, rest, d, hls, _⟩
      cases followed <;> cases hls
  | cons l ls ih =>
    intro a
    rw [followAll_cons]
    constructor
    · intro h
      cases hstep : followOne next missing a l with
      | error e' =>
        rw [hstep] at h
        cases h
        exact ⟨[], l, ls, a, rfl, .nil a, followOne_eq_error_iff.mp hstep⟩
      | ok b =>
        rw [hstep] at h
        obtain ⟨followed, l', rest, d, rfl, hfollows, hend⟩ := ih.mp h
        exact ⟨l :: followed, l', rest, d, rfl, .cons (followOne_eq_ok_iff.mp hstep) hfollows, hend⟩
    · rintro ⟨followed, l', rest, d, hls, hfollows, hend⟩
      cases hfollows with
      | nil =>
        cases hls
        rw [followOne_eq_error_iff.mpr hend]
        rfl
      | cons step hrest =>
        cases hls
        rw [followOne_eq_ok_iff.mpr step]
        exact ih.mpr ⟨_, l', rest, d, rfl, hrest, hend⟩

/-- The same graph under other names of its places and labels. -/
theorem follows_map_iff {α' : Type*} {β' : Type*} {ε' : Type*}
    {next' : α' → β' → Except ε' (Option α')} {f : α → α'} {g : β → β'}
    (hstep : ∀ a l a', next' (f a) (g l) = .ok (some a') ↔ ∃ b, next a l = .ok (some b) ∧ f b = a')
    {ls : List β} : ∀ {a : α} {c' : α'},
      Follows next' (f a) (ls.map g) c' ↔ ∃ c, Follows next a ls c ∧ f c = c' := by
  induction ls with
  | nil =>
    intro a c'
    constructor
    · rintro ⟨⟩
      exact ⟨a, .nil a, rfl⟩
    · rintro ⟨c, ⟨⟩, rfl⟩
      exact .nil _
  | cons l ls ih =>
    intro a c'
    constructor
    · rintro (_ | ⟨step, rest⟩)
      obtain ⟨b, hb, rfl⟩ := (hstep a l _).mp step
      obtain ⟨c, hc, rfl⟩ := ih.mp rest
      exact ⟨c, .cons hb hc, rfl⟩
    · rintro ⟨c, _ | ⟨step, rest⟩, rfl⟩
      exact .cons ((hstep a l _).mpr ⟨_, step, rfl⟩) (ih.mpr ⟨c, rest, rfl⟩)

end ApfsForensic.Walk
