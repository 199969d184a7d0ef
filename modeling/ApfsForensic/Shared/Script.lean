import Mathlib.Logic.Function.Basic

/-!
# Scripts for a device with a state

A device has a state, a cursor for one, that every operation moves.  A script calls the
operations one at a time and goes on with the answers.

What a script returns may depend on the state it finds.  A `Steady` script for `a` returns `a`
from every state: whoever used the device before has no influence on it.  Steady scripts are
put together along the definition of the value: a step that calls nothing (`Steady.pure`), one
after the other (`Steady.bind`), a loop (`Steady.foldlM`).
-/

namespace ApfsForensic.Shared

/-- An operation moves the state of the device and is answered. -/
structure Device where
  State : Type
  Op : Type
  Resp : Op → Type
  step : State → (op : Op) → State × Resp op

/-- A program over the operations of a device. -/
inductive Script (d : Device) (α : Type) where
  | done (a : α)
  | call (op : d.Op) (next : d.Resp op → Script d α)

namespace Script

variable {d : Device} {α β : Type}

/-- One script after the other. -/
def bind : Script d α → (α → Script d β) → Script d β
  | done a, f => f a
  | call op next, f => call op fun r => (next r).bind f

/-- The state after a run, and what the script returns. -/
def run : Script d α → d.State → d.State × α
  | done a, s => (s, a)
  | call op next, s => (next (d.step s op).2).run (d.step s op).1

/-- The number of operations that a run calls. -/
def calls : Script d α → d.State → Nat
  | done _, _ => 0
  | call op next, s => (next (d.step s op).2).calls (d.step s op).1 + 1

theorem run_bind (f : α → Script d β) : ∀ (p : Script d α) (s : d.State),
    (p.bind f).run s = (f (p.run s).2).run (p.run s).1 := by
  intro p
  induction p with
  | done a => intro s; rfl
  | call op next ih =>
    intro s
    rw [bind, run, ih]
    rfl

end Script

/-- A script that returns `a` from every state of the device. -/
structure Steady (d : Device) {α : Type} (a : α) where
  script : Script d α
  run_eq : ∀ s, (script.run s).2 = a

namespace Steady

variable {d : Device} {α β ε ε' σ : Type}

/-- Nothing is called. -/
def pure (a : α) : Steady d a := ⟨.done a, fun _ => rfl⟩

def map (f : α → β) {a : α} (p : Steady d a) : Steady d (f a) where
  script := p.script.bind fun b => .done (f b)
  run_eq s := by rw [Script.run_bind, p.run_eq]; rfl

/-- A failure ends the script. -/
def bind {x : Except ε α} {f : α → Except ε β} (p : Steady d x) (q : ∀ a, Steady d (f a)) :
    Steady d (x >>= f) where
  script := p.script.bind fun
    | .ok a => (q a).script
    | .error e => .done (.error e)
  run_eq s := by
    rw [Script.run_bind, p.run_eq]
    cases x with
    | error e => rfl
    | ok a => exact (q a).run_eq _

def ite {c : Prop} {dec : Decidable c} {a b : α} (p : Steady d a) (q : Steady d b) :
    Steady d (if c then a else b) where
  script := if c then p.script else q.script
  run_eq s := by
    by_cases h : c
    · rw [if_pos h, if_pos h, p.run_eq]
    · rw [if_neg h, if_neg h, q.run_eq]

/-- A loop that carries a state of its own. -/
def foldlM {f : σ → α → Except ε σ} (p : ∀ s a, Steady d (f s a)) :
    ∀ (l : List α) (s : σ), Steady d (l.foldlM f s)
  | [], _ => pure _
  | a :: l, s => (p s a).bind (foldlM p l)

end Steady

end ApfsForensic.Shared
