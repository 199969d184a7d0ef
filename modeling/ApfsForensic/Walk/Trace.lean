import Mathlib.Data.List.Basic

/-!
# Traces

A trace of a computation is the list of what it did on the way to its outcome.  The
outcome stands in the type: a `Trace κ r` is built along the steps that `r` is built
from, so forgetting the list leaves `r` and nothing has to be proved about it.

`All P t` says that everything in the trace satisfies `P`; there is one rule for each
way to build a trace.
-/

namespace ApfsForensic.Walk

universe u

/-- What a computation with the outcome `r` did. -/
structure Trace (κ : Type*) {ε : Type*} {α : Type u} (r : Except ε α) where
  log : List κ

namespace Trace

variable {κ ε ε' : Type*} {α β : Type u} {r r' : Except ε α} {g : α → Except ε β}

/-- A computation without anything to record. -/
def silent (r : Except ε α) : Trace κ r := ⟨[]⟩

/-- A computation that is one recorded step. -/
def step (c : κ) (r : Except ε α) : Trace κ r := ⟨[c]⟩

/-- The second computation runs only after a first one that goes through. -/
def bind (t : Trace κ r) (f : ∀ a, Trace κ (g a)) : Trace κ (r >>= g) :=
  ⟨t.log ++ match r with
    | .ok a => (f a).log
    | .error _ => []⟩

/-- The outcome is translated afterwards. -/
def through (t : Trace κ r) (F : Except ε α → Except ε' β) : Trace κ (F r) := ⟨t.log⟩

def ite (c : Prop) [Decidable c] (t : Trace κ r) (e : Trace κ r') :
    Trace κ (if c then r else r') :=
  ⟨if c then t.log else e.log⟩

theorem mem_bind_left {t : Trace κ r} {f : ∀ a, Trace κ (g a)} {c : κ} (h : c ∈ t.log) :
    c ∈ (t.bind f).log :=
  List.mem_append_left _ h

/-- What comes after a computation that went through. -/
theorem mem_bind_right {t : Trace κ r} {f : ∀ a, Trace κ (g a)} {c : κ} {a : α}
    (hr : r = .ok a) (h : c ∈ (f a).log) : c ∈ (t.bind f).log := by
  subst hr
  exact List.mem_append_right _ h

/-- Everything in the trace satisfies `P`. -/
def All (P : κ → Prop) (t : Trace κ r) : Prop := ∀ c ∈ t.log, P c

variable {P : κ → Prop}

theorem all_silent (r : Except ε α) : All P (silent r) :=
  fun _ h => absurd h List.not_mem_nil

theorem all_step {c : κ} (h : P c) (r : Except ε α) : All P (step c r) := by
  intro c' hc
  rw [List.mem_singleton.mp hc]
  exact h

theorem All.bind {t : Trace κ r} {f : ∀ a, Trace κ (g a)} (ht : All P t)
    (hf : ∀ a, All P (f a)) : All P (t.bind f) := by
  intro c hc
  rcases List.mem_append.mp hc with hc | hc
  · exact ht c hc
  · cases r with
    | error e => exact absurd hc List.not_mem_nil
    | ok a => exact hf a c hc

theorem All.through {t : Trace κ r} (ht : All P t) (F : Except ε α → Except ε' β) :
    All P (t.through F) := ht

theorem All.ite {c : Prop} [Decidable c] {t : Trace κ r} {e : Trace κ r'} (ht : All P t)
    (he : All P e) : All P (Trace.ite c t e) := by
  intro d (hd : d ∈ if c then t.log else e.log)
  by_cases hc : c
  · rw [if_pos hc] at hd
    exact ht d hd
  · rw [if_neg hc] at hd
    exact he d hd

end Trace

end ApfsForensic.Walk
