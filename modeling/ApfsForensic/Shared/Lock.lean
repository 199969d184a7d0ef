import ApfsForensic.Shared.Script
import Mathlib.Algebra.BigOperators.Group.Finset.Basic
import Mathlib.Algebra.Order.BigOperators.Group.Finset
import Mathlib.Data.Prod.Lex
import Mathlib.Logic.Relation

/-!
# A device behind a lock

A handle answers calls.  Some calls are answered at once; the others run a script for a device
that all workers share, under a lock that is held from the first operation to the last.  A
script that panics leaves the lock poisoned, and from then on every call that needs the lock is
refused.

`Step` is one step of one worker: the calls of different workers are interleaved at every
single operation of the device.  `Handle.serial` is the handle without concurrency, one call
after the other.

* `Inv.step`, `inv_of_reaches`: in every state that can be reached the calls that are finished
  have the answers that they have one after the other, in the order in which they finished,
  and the calls of each worker finish in its own order.
* `Inv.progress`: a call that is not finished can go on, or another one can.
* `Inv.acc`: no run goes on for ever.

The argument is that a worker inside the lock has a script that returns the right answer from
the device as it is now.  Nobody else moves the device while the lock is held, and a script
that starts is steady, so it does not matter where the worker before it left the device.
-/

namespace ApfsForensic.Shared

/-- What is done for a call. -/
inductive Request (d : Device) (ρ : Type) where
  | direct (answer : ρ)
  | locked {answer : ρ} (body : Steady d answer)

/-- Calls of type `κ` with answers of type `ρ`. -/
structure Handle (κ ρ : Type) where
  device : Device
  request : κ → Request device ρ
  /-- The answer where the lock is poisoned. -/
  refused : ρ
  /-- The call has ended in a panic. -/
  panicked : ρ → Bool

namespace Handle

variable {κ ρ : Type} (h : Handle κ ρ)

/-! ### One call after the other -/

/-- The answer to a call, by the state of the lock. -/
def answer (poisoned : Bool) (k : κ) : ρ :=
  match h.request k with
  | .direct a => a
  | @Request.locked _ _ a _ => if poisoned then h.refused else a

/-- Whether the lock is poisoned after a call. -/
def poisons (poisoned : Bool) (k : κ) : Bool :=
  match h.request k with
  | .direct _ => poisoned
  | @Request.locked _ _ a _ => poisoned || h.panicked a

def poisonedAfter (poisoned : Bool) (ks : List κ) : Bool := ks.foldl h.poisons poisoned

/-- The answers to calls that are made one after the other. -/
def serial : Bool → List κ → List ρ
  | _, [] => []
  | poisoned, k :: ks => h.answer poisoned k :: serial (h.poisons poisoned k) ks

theorem poisonedAfter_snoc (k : κ) (ks : List κ) (poisoned : Bool) :
    h.poisonedAfter poisoned (ks ++ [k]) = h.poisons (h.poisonedAfter poisoned ks) k := by
  rw [poisonedAfter, List.foldl_append]
  rfl

/-- Only a script panics: an answer that is given without the lock is none. -/
structure PanicsInside : Prop where
  direct : ∀ k a, h.request k = .direct a → h.panicked a = false
  refused : h.panicked h.refused = false

variable {h}

theorem PanicsInside.poisons_eq (hin : h.PanicsInside) (poisoned : Bool) (k : κ) :
    h.poisons poisoned k = (poisoned || h.panicked (h.answer poisoned k)) := by
  rw [poisons, answer]
  cases hreq : h.request k with
  | direct a => rw [hin.direct k a hreq, Bool.or_false]
  | locked body => cases poisoned <;> rfl

/-- The lock is poisoned exactly if one of the answers is a panic. -/
theorem PanicsInside.poisonedAfter_eq (hin : h.PanicsInside) : ∀ (ks : List κ) (poisoned : Bool),
    h.poisonedAfter poisoned ks = (poisoned || (h.serial poisoned ks).any h.panicked) := by
  intro ks
  induction ks with
  | nil => intro poisoned; exact (Bool.or_false poisoned).symm
  | cons k ks ih =>
    intro poisoned
    rw [serial, List.any_cons, ← Bool.or_assoc, ← hin.poisons_eq]
    exact ih _

theorem serial_append : ∀ (ks ks' : List κ) (poisoned : Bool),
    h.serial poisoned (ks ++ ks')
      = h.serial poisoned ks ++ h.serial (h.poisonedAfter poisoned ks) ks' := by
  intro ks ks'
  induction ks with
  | nil => intro poisoned; rfl
  | cons k ks ih =>
    intro poisoned
    rw [List.cons_append, serial, ih]
    rfl

/-- An answer in its place among the others. -/
theorem PanicsInside.answer_eq (hin : h.PanicsInside) {before after : List κ} {k : κ}
    {as bs : List ρ} {a : ρ} (hlen : as.length = before.length)
    (hserial : h.serial false (before ++ k :: after) = as ++ a :: bs) :
    a = h.answer (as.any h.panicked) k := by
  have hlen' : ∀ (ks : List κ) (poisoned : Bool), (h.serial poisoned ks).length = ks.length := by
    intro ks
    induction ks with
    | nil => intro _; rfl
    | cons k ks ih => intro _; rw [serial, List.length_cons, List.length_cons, ih]
  rw [serial_append, serial] at hserial
  obtain ⟨has, ha⟩ := List.append_inj hserial ((hlen' before false).trans hlen.symm)
  rw [hin.poisonedAfter_eq, Bool.false_or, has] at ha
  exact (List.cons.inj ha).1.symm

variable (h)

/-- No answer is a panic, as long as the lock is clean. -/
def Calm (ks : List κ) : Prop := ∀ k ∈ ks, h.panicked (h.answer false k) = false

/-- Where nothing panics every call has the answer it has on its own. -/
theorem serial_of_calm : ∀ {ks : List κ}, h.Calm ks →
    h.serial false ks = ks.map (h.answer false) := by
  intro ks
  induction ks with
  | nil => intro _; rfl
  | cons k ks ih =>
    intro hcalm
    obtain ⟨hk, hks⟩ := List.forall_mem_cons.mp hcalm
    have hclean : h.poisons false k = false := by
      cases hreq : h.request k with
      | direct a => rw [poisons, hreq]
      | locked body =>
        rw [answer, hreq] at hk
        rw [poisons, hreq]
        exact hk
    rw [serial, hclean, ih hks, List.map_cons]

end Handle

/-! ### Workers -/

variable {κ ρ : Type} {W : Type}

/-- A worker: the call it is in, with the rest of the script, and the calls to come. -/
structure Worker (h : Handle κ ρ) where
  inside : Option (κ × Script h.device ρ)
  todo : List κ

/-- The calls that are not finished. -/
def Worker.pending {h : Handle κ ρ} (worker : Worker h) : List κ :=
  (worker.inside.map Prod.fst).toList ++ worker.todo

/-- A call that is finished. -/
structure Served (W κ ρ : Type) where
  worker : W
  call : κ
  answer : ρ

/-- The device, the lock, the workers, and the calls that are finished. -/
structure State (W : Type) (h : Handle κ ρ) where
  device : h.device.State
  lockedBy : Option W
  poisoned : Bool
  workers : W → Worker h
  history : List (Served W κ ρ)

variable {h : Handle κ ρ}

/-- The operations that the worker inside has before it, and its release. -/
def State.remaining (S : State W h) : Nat :=
  match S.lockedBy with
  | none => 0
  | some w => ((S.workers w).inside.map (fun kp => kp.2.calls S.device + 1)).getD 0

theorem State.remaining_eq {S : State W h} {w : W} {k : κ} {p : Script h.device ρ} {todo : List κ}
    (hlocked : S.lockedBy = some w) (hw : S.workers w = ⟨some (k, p), todo⟩) :
    S.remaining = p.calls S.device + 1 := by
  rw [State.remaining, hlocked]
  simp only [hw, Option.map_some, Option.getD_some]

variable [DecidableEq W]

/-- The calls of a worker, in the order in which they finished. -/
def callsOf (history : List (Served W κ ρ)) (w : W) : List κ :=
  (history.filter (fun e => e.worker = w)).map Served.call

namespace State

variable (S : State W h)

/-- Worker `w` is now `worker`. -/
def set (w : W) (worker : Worker h) : State W h :=
  { S with workers := Function.update S.workers w worker }

/-- The call of `w` is finished. -/
def log (w : W) (k : κ) (a : ρ) : State W h := { S with history := S.history ++ [⟨w, k, a⟩] }

/-- Before the first step: the lock is free, and every worker has its calls before it. -/
def init (device : h.device.State) (jobs : W → List κ) : State W h :=
  ⟨device, none, false, fun w => ⟨none, jobs w⟩, []⟩

end State

/-- One step of one worker.  A worker whose script panics is gone, unless the panic is
caught. -/
inductive Step : State W h → State W h → Prop
  | answer {S : State W h} {w : W} {k : κ} {rest : List κ} {a : ρ}
      (idle : S.workers w = ⟨none, k :: rest⟩) (direct : h.request k = .direct a) :
      Step S ((S.set w ⟨none, rest⟩).log w k a)
  | acquire {S : State W h} {w : W} {k : κ} {rest : List κ} {a : ρ} {body : Steady h.device a}
      (idle : S.workers w = ⟨none, k :: rest⟩) (locked : h.request k = .locked body)
      (free : S.lockedBy = none) (clean : S.poisoned = false) :
      Step S { S.set w ⟨some (k, body.script), rest⟩ with lockedBy := some w }
  | refuse {S : State W h} {w : W} {k : κ} {rest : List κ} {a : ρ} {body : Steady h.device a}
      (idle : S.workers w = ⟨none, k :: rest⟩) (locked : h.request k = .locked body)
      (free : S.lockedBy = none) (poisoned : S.poisoned = true) :
      Step S ((S.set w ⟨none, rest⟩).log w k h.refused)
  | call {S : State W h} {w : W} {k : κ} {rest : List κ} {op : h.device.Op}
      {next : h.device.Resp op → Script h.device ρ}
      (inside : S.workers w = ⟨some (k, .call op next), rest⟩) :
      Step S { S.set w ⟨some (k, next (h.device.step S.device op).2), rest⟩ with
        device := (h.device.step S.device op).1 }
  | release {S : State W h} {w : W} {k : κ} {rest keep : List κ} {a : ρ}
      (inside : S.workers w = ⟨some (k, .done a), rest⟩)
      (keeps : keep = rest ∨ h.panicked a = true ∧ keep = []) :
      Step S { (S.set w ⟨none, keep⟩).log w k a with
        lockedBy := none, poisoned := S.poisoned || h.panicked a }

/-- Any number of steps of any workers. -/
abbrev Reaches (S S' : State W h) : Prop := Relation.ReflTransGen Step S S'

/-! ### What holds in every state -/

/-- The invariant of the lock. -/
structure Inv (jobs : W → List κ) (S : State W h) : Prop where
  /-- The worker that has the lock is inside, and no other. -/
  holder : ∀ w, (S.workers w).inside.isSome ↔ S.lockedBy = some w
  clean : S.lockedBy.isSome → S.poisoned = false
  /-- From the device as it is now, the script inside returns the answer to its call. -/
  steady : ∀ w k p, (S.workers w).inside = some (k, p) →
    ∃ (a : ρ) (body : Steady h.device a), h.request k = .locked body ∧ (p.run S.device).2 = a
  serial : S.history.map Served.answer = h.serial false (S.history.map Served.call)
  poisoned : S.poisoned = h.poisonedAfter false (S.history.map Served.call)
  order : ∀ w, callsOf S.history w ++ (S.workers w).pending <+: jobs w

section Preservation

variable {jobs : W → List κ} {S S' : State W h}

theorem inv_init (device : h.device.State) (jobs : W → List κ) :
    Inv jobs (State.init device jobs : State W h) where
  holder w := by simp [State.init]
  clean hlocked := by cases hlocked
  steady w k p hinside := by cases hinside
  serial := rfl
  poisoned := rfl
  order w := List.prefix_refl _

/-- No two workers are inside the lock. -/
theorem Inv.exclusive (hinv : Inv jobs S) {v w : W} (hv : (S.workers v).inside.isSome)
    (hw : (S.workers w).inside.isSome) : v = w :=
  Option.some.inj (((hinv.holder v).mp hv).symm.trans ((hinv.holder w).mp hw))

theorem callsOf_log (history : List (Served W κ ρ)) (w v : W) (k : κ) (a : ρ) :
    callsOf (history ++ [⟨w, k, a⟩]) v
      = callsOf history v ++ if w = v then [k] else [] := by
  rw [callsOf, List.filter_append, List.map_append]
  by_cases hv : w = v
  · simp [callsOf, hv]
  · simp [callsOf, hv]

/-- A call of `w` goes from the ones to come to the ones that are finished. -/
theorem order_logged {workers : W → Worker h} {history : List (Served W κ ρ)} {w : W} {k : κ}
    {rest : List κ} {worker : Worker h} (a : ρ) (hw : (workers w).pending = k :: rest)
    (hworker : worker.pending = rest) (v : W) :
    callsOf (history ++ [⟨w, k, a⟩]) v ++ (Function.update workers w worker v).pending
      = callsOf history v ++ (workers v).pending := by
  rw [callsOf_log]
  by_cases hv : w = v
  · subst hv
    rw [if_pos rfl, Function.update_self, List.append_assoc, hw, hworker]
    rfl
  · rw [if_neg hv, List.append_nil, Function.update_of_ne (Ne.symm hv)]

/-- A worker that changes and keeps its calls. -/
theorem order_kept {workers : W → Worker h} {history : List (Served W κ ρ)} {w : W}
    {worker : Worker h} (hw : worker.pending = (workers w).pending) (v : W) :
    callsOf history v ++ (Function.update workers w worker v).pending
      = callsOf history v ++ (workers v).pending := by
  by_cases hv : w = v
  · subst hv
    rw [Function.update_self, hw]
  · rw [Function.update_of_ne (Ne.symm hv)]

/-- A worker that is gone leaves calls that nobody makes. -/
theorem order_lost {workers : W → Worker h} {history : List (Served W κ ρ)} {w : W}
    {keep rest : List κ} (hkeep : keep <+: rest) (v : W) :
    callsOf history v ++ (Function.update workers w ⟨none, keep⟩ v).pending
      <+: callsOf history v ++ (Function.update workers w ⟨none, rest⟩ v).pending := by
  by_cases hv : w = v
  · subst hv
    rw [Function.update_self, Function.update_self]
    exact (List.prefix_append_right_inj _).mpr hkeep
  · rw [Function.update_of_ne (Ne.symm hv), Function.update_of_ne (Ne.symm hv)]

/-- The history after a call that was answered as it is answered one after the other. -/
theorem Inv.serial_log (hinv : Inv jobs S) {w : W} {k : κ} {a : ρ}
    (ha : a = h.answer S.poisoned k) :
    (S.history ++ [Served.mk w k a]).map Served.answer
      = h.serial false ((S.history ++ [Served.mk w k a]).map Served.call) := by
  rw [List.map_append, List.map_append, List.map_singleton, List.map_singleton,
    Handle.serial_append, ← hinv.serial, ← hinv.poisoned, ha]
  rfl

theorem Inv.poisoned_log (hinv : Inv jobs S) {w : W} {k : κ} {a : ρ} :
    h.poisonedAfter false ((S.history ++ [Served.mk w k a]).map Served.call)
      = h.poisons S.poisoned k := by
  rw [List.map_append, List.map_singleton, Handle.poisonedAfter_snoc, ← hinv.poisoned]

/-- An idle worker stays outside. -/
theorem inside_of_idle {w : W} {todo : List κ} (todo' : List κ)
    (hw : S.workers w = ⟨none, todo⟩) (v : W) :
    (Function.update S.workers w ⟨none, todo'⟩ v).inside = (S.workers v).inside := by
  by_cases hv : w = v
  · subst hv
    rw [Function.update_self, hw]
  · rw [Function.update_of_ne (Ne.symm hv)]

/-- A call that an idle worker gets an answer to without the lock: nobody's place changes. -/
theorem Inv.log_idle (hinv : Inv jobs S) {w : W} {k : κ} {rest : List κ} {a : ρ}
    (idle : S.workers w = ⟨none, k :: rest⟩) (hanswer : a = h.answer S.poisoned k)
    (hpoisons : h.poisons S.poisoned k = S.poisoned) :
    Inv jobs ((S.set w ⟨none, rest⟩).log w k a) := by
  have hinside := inside_of_idle rest idle
  refine ⟨fun v => ?_, hinv.clean, fun v k' p hp => ?_, hinv.serial_log hanswer, ?_, ?_⟩
  · show (Function.update S.workers w ⟨none, rest⟩ v).inside.isSome ↔ S.lockedBy = some v
    rw [hinside, hinv.holder]
  · exact hinv.steady v k' p ((hinside v).symm.trans hp)
  · exact (hinv.poisoned_log.trans hpoisons).symm
  · intro v
    calc
      _ = callsOf S.history v ++ (S.workers v).pending := order_logged a (by rw [idle]; rfl) rfl v
      _ <+: jobs v := hinv.order v

/-- **One step keeps the invariant.** -/
theorem Inv.step (hinv : Inv jobs S) (hstep : Step S S') : Inv jobs S' := by
  cases hstep with
  | @answer w k rest a idle direct =>
    refine hinv.log_idle idle (by rw [Handle.answer, direct]) ?_
    rw [Handle.poisons, direct]
  | @acquire w k rest a body idle locked free clean =>
    have houtside : ∀ v, (S.workers v).inside = none := by
      intro v
      rw [← Option.not_isSome_iff_eq_none, hinv.holder v, free]
      simp
    refine ⟨fun v => ?_, fun _ => clean, fun v k' p hp => ?_, hinv.serial, hinv.poisoned, ?_⟩
    · show (Function.update S.workers w _ v).inside.isSome ↔ some w = some v
      by_cases hv : w = v
      · subst hv
        simp
      · rw [Function.update_of_ne (Ne.symm hv), houtside]
        simp [hv]
    · replace hp : (Function.update S.workers w ⟨some (k, body.script), rest⟩ v).inside
          = some (k', p) := hp
      by_cases hv : w = v
      · subst hv
        rw [Function.update_self] at hp
        cases hp
        -- a script that starts is steady
        exact ⟨a, body, locked, body.run_eq _⟩
      · rw [Function.update_of_ne (Ne.symm hv), houtside] at hp
        cases hp
    · intro v
      calc
        _ = callsOf S.history v ++ (S.workers v).pending := order_kept (by rw [idle]; rfl) v
        _ <+: jobs v := hinv.order v
  | @refuse w k rest a body idle locked free poisoned =>
    refine hinv.log_idle idle (by rw [Handle.answer, locked, poisoned]; rfl) ?_
    rw [Handle.poisons, locked, poisoned]
    rfl
  | @call w k rest op next inside =>
    refine ⟨fun v => ?_, hinv.clean, fun v k' p hp => ?_, hinv.serial, hinv.poisoned, ?_⟩
    · show (Function.update S.workers w _ v).inside.isSome ↔ S.lockedBy = some v
      rw [← hinv.holder v]
      by_cases hv : w = v
      · subst hv
        rw [Function.update_self, inside]
        simp
      · rw [Function.update_of_ne (Ne.symm hv)]
    · replace hp : (Function.update S.workers w
          ⟨some (k, next (h.device.step S.device op).2), rest⟩ v).inside = some (k', p) := hp
      by_cases hv : w = v
      · subst hv
        rw [Function.update_self] at hp
        cases hp
        -- the rest of the script, from the state that the operation leaves
        exact hinv.steady w k (.call op next) (by rw [inside])
      · rw [Function.update_of_ne (Ne.symm hv)] at hp
        exact absurd (hinv.exclusive (by rw [inside]; rfl) (by rw [hp]; rfl)) hv
    · intro v
      calc
        _ = callsOf S.history v ++ (S.workers v).pending := order_kept (by rw [inside]; rfl) v
        _ <+: jobs v := hinv.order v
  | @release w k rest keep a inside keeps =>
    obtain ⟨a', body, locked, hrun⟩ := hinv.steady w k (.done a) (by rw [inside])
    have hlocked : S.lockedBy = some w := (hinv.holder w).mp (by rw [inside]; rfl)
    have hclean : S.poisoned = false := hinv.clean (by rw [hlocked]; rfl)
    have ha : a = a' := hrun
    subst ha
    have houtside : ∀ v, (Function.update S.workers w ⟨none, keep⟩ v).inside = none := by
      intro v
      by_cases hv : w = v
      · subst hv
        rw [Function.update_self]
      · rw [Function.update_of_ne (Ne.symm hv), ← Option.not_isSome_iff_eq_none, hinv.holder v,
          hlocked]
        simpa using hv
    refine ⟨fun v => ?_, fun hsome => (by cases hsome), fun v k' p hp => ?_, ?_, ?_, ?_⟩
    · show (Function.update S.workers w ⟨none, keep⟩ v).inside.isSome ↔ none = some v
      rw [houtside]
      simp
    · exact absurd ((houtside v).symm.trans hp) (by simp)
    · exact hinv.serial_log (by rw [Handle.answer, locked, hclean]; rfl)
    · refine Eq.trans ?_ hinv.poisoned_log.symm
      rw [Handle.poisons, locked]
    · have hkeep : keep <+: rest := by
        rcases keeps with rfl | ⟨_, rfl⟩
        · exact List.prefix_refl _
        · exact List.nil_prefix
      intro v
      refine (order_lost hkeep v).trans ?_
      calc
        _ = callsOf S.history v ++ (S.workers v).pending :=
          order_logged a (by rw [inside]; rfl) rfl v
        _ <+: jobs v := hinv.order v

/-- **Every state that is reached has it.** -/
theorem inv_of_reaches {device : h.device.State} (hreach : Reaches (State.init device jobs) S) :
    Inv jobs S := by
  induction hreach with
  | refl => exact inv_init device jobs
  | tail _ hstep ih => exact ih.step hstep

/-- Where no call panics no worker is lost: its calls are finished or still to come. -/
theorem order_of_calm (hcalm : ∀ k, h.panicked (h.answer false k) = false)
    {device : h.device.State} (hreach : Reaches (State.init device jobs) S) (v : W) :
    callsOf S.history v ++ (S.workers v).pending = jobs v := by
  induction hreach with
  | refl => rfl
  | @tail S S' hreach hstep ih =>
    have hinv := inv_of_reaches hreach
    rw [← ih]
    cases hstep with
    | @answer w k rest a idle direct => exact order_logged a (by rw [idle]; rfl) rfl v
    | @acquire w k rest a body idle locked free clean =>
      exact order_kept (by rw [idle]; rfl) v
    | @refuse w k rest a body idle locked free poisoned =>
      exact order_logged _ (by rw [idle]; rfl) rfl v
    | @call w k rest op next inside => exact order_kept (by rw [inside]; rfl) v
    | @release w k rest keep a inside keeps =>
      obtain ⟨a', body, locked, hrun⟩ := hinv.steady w k (.done a) (by rw [inside])
      have ha : a = a' := hrun
      have hnot : h.panicked a = false := by
        have hk := hcalm k
        rw [Handle.answer, locked] at hk
        rwa [ha]
      rcases keeps with rfl | ⟨hpanic, _⟩
      · exact order_logged a (by rw [inside]; rfl) rfl v
      · rw [hnot] at hpanic
        cases hpanic

end Preservation

/-! ### No deadlock, and no endless run -/

section Progress

variable {jobs : W → List κ} {S S' : State W h}

/-- **Progress.**  While a call is not finished, some worker can go on. -/
theorem Inv.progress (hinv : Inv jobs S) {w : W} (hw : (S.workers w).pending ≠ []) :
    ∃ S', Step S S' := by
  cases hlocked : S.lockedBy with
  | some v =>
    -- the worker that has the lock goes on with its script, or is at its end
    have hinside := (hinv.holder v).mpr hlocked
    obtain ⟨⟨k, p⟩, hp⟩ := Option.isSome_iff_exists.mp hinside
    have hv : S.workers v = ⟨some (k, p), (S.workers v).todo⟩ := by rw [← hp]
    cases p with
    | done a => exact ⟨_, .release hv (.inl rfl)⟩
    | call op next => exact ⟨_, .call hv⟩
  | none =>
    have houtside : (S.workers w).inside = none := by
      rw [← Option.not_isSome_iff_eq_none, hinv.holder w, hlocked]
      simp
    cases htodo : (S.workers w).todo with
    | nil => exact absurd (by rw [Worker.pending, houtside, htodo]; rfl) hw
    | cons k rest =>
      have hidle : S.workers w = ⟨none, k :: rest⟩ := by rw [← houtside, ← htodo]
      cases hreq : h.request k with
      | direct a => exact ⟨_, .answer hidle hreq⟩
      | locked body =>
        cases hpoisoned : S.poisoned with
        | false => exact ⟨_, .acquire hidle hreq hlocked hpoisoned⟩
        | true => exact ⟨_, .refuse hidle hreq hlocked hpoisoned⟩

variable [Fintype W]

/-- The calls that are not begun, then what is left of the one that is. -/
def State.weight (S : State W h) : ℕ ×ₗ ℕ :=
  toLex (∑ w, (S.workers w).todo.length, S.remaining)

theorem sum_todo_le {workers : W → Worker h} {w : W} {worker : Worker h}
    (hle : worker.todo.length ≤ (workers w).todo.length) :
    ∑ v, (Function.update workers w worker v).todo.length ≤ ∑ v, (workers v).todo.length := by
  refine Finset.sum_le_sum fun v _ => ?_
  by_cases hv : w = v
  · subst hv
    rwa [Function.update_self]
  · rw [Function.update_of_ne (Ne.symm hv)]

theorem sum_todo_lt {workers : W → Worker h} {w : W} {worker : Worker h}
    (hlt : worker.todo.length < (workers w).todo.length) :
    ∑ v, (Function.update workers w worker v).todo.length < ∑ v, (workers v).todo.length := by
  refine Finset.sum_lt_sum (fun v _ => ?_) ⟨w, Finset.mem_univ w, ?_⟩
  · by_cases hv : w = v
    · subst hv
      rw [Function.update_self]
      exact hlt.le
    · rw [Function.update_of_ne (Ne.symm hv)]
  · rwa [Function.update_self]

/-- Every step makes a state lighter. -/
theorem Inv.weight_lt (hinv : Inv jobs S) (hstep : Step S S') : S'.weight < S.weight := by
  rw [State.weight, State.weight, Prod.Lex.toLex_lt_toLex]
  cases hstep with
  | answer idle _ => exact .inl (sum_todo_lt (by rw [idle]; exact Nat.lt_succ_self _))
  | acquire idle _ _ _ => exact .inl (sum_todo_lt (by rw [idle]; exact Nat.lt_succ_self _))
  | refuse idle _ _ _ => exact .inl (sum_todo_lt (by rw [idle]; exact Nat.lt_succ_self _))
  | @call w k rest op next inside =>
    have hlocked : S.lockedBy = some w := (hinv.holder w).mp (by rw [inside]; rfl)
    have hnext : ({ S.set w ⟨some (k, next (h.device.step S.device op).2), rest⟩ with
        device := (h.device.step S.device op).1 } : State W h).remaining
          = (next (h.device.step S.device op).2).calls (h.device.step S.device op).1 + 1 :=
      State.remaining_eq hlocked (Function.update_self ..)
    rw [State.remaining_eq hlocked inside, hnext]
    have hle : (⟨some (k, next (h.device.step S.device op).2), rest⟩ : Worker h).todo.length
        ≤ (S.workers w).todo.length := by rw [inside]
    rcases (sum_todo_le hle).lt_or_eq with hlt | heq
    · exact .inl hlt
    · exact .inr ⟨heq, Nat.lt_succ_self _⟩
  | @release w k rest keep a inside keeps =>
    have hlocked : S.lockedBy = some w := (hinv.holder w).mp (by rw [inside]; rfl)
    have hremaining : S.remaining = 1 := State.remaining_eq hlocked inside
    have hkeep : keep.length ≤ rest.length := by
      rcases keeps with rfl | ⟨_, rfl⟩
      · exact le_rfl
      · exact Nat.zero_le _
    have hle : (⟨none, keep⟩ : Worker h).todo.length ≤ (S.workers w).todo.length := by
      rw [inside]
      exact hkeep
    rcases (sum_todo_le hle).lt_or_eq with hlt | heq
    · exact .inl hlt
    · exact .inr ⟨heq, by rw [hremaining]; exact Nat.one_pos⟩

/-- **No run goes on for ever.** -/
theorem Inv.acc (hinv : Inv jobs S) : Acc (fun b a : State W h => Step a b) S := by
  induction hweight : S.weight using WellFoundedLT.induction generalizing S with
  | ind x ih =>
    subst hweight
    exact ⟨S, fun S' hstep => ih _ (hinv.weight_lt hstep) (hinv.step hstep) rfl⟩

/-- Every run can be continued to a state in which nobody can go on. -/
theorem Inv.exists_settled (hinv : Inv jobs S) :
    ∃ S', Reaches S S' ∧ ∀ T, ¬ Step S' T := by
  induction hinv.acc with
  | intro S _ ih =>
    by_cases hstuck : ∀ T, ¬ Step S T
    · exact ⟨S, .refl, hstuck⟩
    · simp only [not_forall, not_not] at hstuck
      obtain ⟨T, hstep⟩ := hstuck
      obtain ⟨S', hreach, hsettled⟩ := ih T hstep (hinv.step hstep)
      exact ⟨S', .head hstep hreach, hsettled⟩

end Progress

end ApfsForensic.Shared
