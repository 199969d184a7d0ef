import ApfsForensic.Walk.Unfold

/-!
# Runs with a log

A run that keeps a log is the list of what it logged with its outcome; the list is
there whatever the outcome.  `andThen` puts two runs one after the other,
`foldLogged` a list of them.

Forgetting the log leaves the run (`andThen_snd`, `foldLogged_snd`).  What holds of
the logs of the steps, and of two logs together if it holds of each, holds of the
log of a run (`andThen_fst_induction`, `foldLogged_fst_induction`).  A run that succeeds has
logged all that its steps log (`mem_foldLogged_of_ok`, `foldLogged_fst_eq_map`).
-/

namespace ApfsForensic.Walk

universe u

variable {κ ε τ : Type*} {α β : Type u}

/-- `>>=` for runs that keep a log: a failing run has its own log and nothing more. -/
def andThen (r : List κ × Except ε α) (f : α → List κ × Except ε β) : List κ × Except ε β :=
  match r with
  | (log, .error e) => (log, .error e)
  | (log, .ok a) => (log ++ (f a).1, (f a).2)

@[simp] theorem andThen_snd (r : List κ × Except ε α) (f : α → List κ × Except ε β) :
    (andThen r f).2 = r.2 >>= fun a => (f a).2 := by
  obtain ⟨log, e | a⟩ := r <;> rfl

@[simp] theorem andThen_nil_ok (a : α) (f : α → List κ × Except ε β) :
    andThen ([], .ok a) f = f a := rfl

theorem mem_andThen_of_mem {c : κ} {r : List κ × Except ε α} {f : α → List κ × Except ε β}
    (h : c ∈ r.1) : c ∈ (andThen r f).1 := by
  obtain ⟨log, e | a⟩ := r
  · exact h
  · exact List.mem_append_left _ h

theorem mem_andThen_of_ok {c : κ} {r : List κ × Except ε α} {f : α → List κ × Except ε β} {a : α}
    (hr : r.2 = .ok a) (h : c ∈ (f a).1) : c ∈ (andThen r f).1 := by
  obtain ⟨log, e | a'⟩ := r
  · cases hr
  · cases hr
    exact List.mem_append_right _ h

/-- A fold that succeeds has come through each of its steps. -/
theorem mem_foldLogged_of_ok {f : τ → α → List κ × Except ε τ} {a : α} :
    ∀ {l : List α} {s s' : τ}, (foldLogged f l s).2 = .ok s' → a ∈ l →
      ∃ t t', (f t a).2 = .ok t' ∧ ∀ c ∈ (f t a).1, c ∈ (foldLogged f l s).1 := by
  intro l
  induction l with
  | nil => intro s s' _ ha; cases ha
  | cons b l ih =>
    intro s s' h ha
    rw [foldLogged] at h ⊢
    rcases hfb : f s b with ⟨log, e | t⟩ <;> rw [hfb] at h
    · cases h
    · rcases List.mem_cons.mp ha with rfl | ha
      · refine ⟨s, t, by rw [hfb], fun c hc => ?_⟩
        rw [hfb] at hc
        exact List.mem_append_left _ hc
      · obtain ⟨t₁, t₂, hok, hmem⟩ := ih h ha
        exact ⟨t₁, t₂, hok, fun c hc => List.mem_append_right _ (hmem c hc)⟩

section Logs

variable {P : List κ → Prop} (append : ∀ {l l' : List κ}, P l → P l' → P (l ++ l'))

include append

theorem andThen_fst_induction {r : List κ × Except ε α} {f : α → List κ × Except ε β}
    (hr : P r.1) (hf : ∀ a, r.2 = .ok a → P (f a).1) : P (andThen r f).1 := by
  obtain ⟨log, e | a⟩ := r
  · exact hr
  · exact append hr (hf a rfl)

theorem foldLogged_fst_induction (nil : P []) {f : τ → α → List κ × Except ε τ} {l : List α}
    (hf : ∀ s, ∀ a ∈ l, P (f s a).1) : ∀ s, P (foldLogged f l s).1 := by
  induction l with
  | nil => intro s; exact nil
  | cons a l ih =>
    intro s
    have ha : P (f s a).1 := hf s a List.mem_cons_self
    rw [foldLogged]
    rcases hfa : f s a with ⟨log, e | s'⟩ <;> rw [hfa] at ha
    · exact ha
    · exact append ha (ih (fun s b hb => hf s b (List.mem_cons_of_mem _ hb)) s')

theorem flatMap_induction (nil : P []) {f : α → List κ} (hf : ∀ a, P (f a)) (l : List α) :
    P (l.flatMap f) := by
  induction l with
  | nil => exact nil
  | cons a l ih => exact append (hf a) ih

end Logs

/-- A fold whose steps log one thing each has logged a beginning of its list. -/
theorem foldLogged_fst_eq_take {f : τ → α → List κ × Except ε τ} {c : α → κ}
    (hf : ∀ s a, (f s a).1 = [c a]) :
    ∀ (l : List α) (s : τ), ∃ n, (foldLogged f l s).1 = (l.take n).map c := by
  intro l
  induction l with
  | nil => intro s; exact ⟨0, rfl⟩
  | cons a l ih =>
    intro s
    have ha := hf s a
    rw [foldLogged]
    rcases hfa : f s a with ⟨log, e | s'⟩ <;> rw [hfa] at ha
    · exact ⟨1, ha⟩
    · obtain ⟨n, hn⟩ := ih s'
      refine ⟨n + 1, ?_⟩
      show log ++ (foldLogged f l s').1 = _
      rw [show log = [c a] from ha, hn]
      rfl

/-- If it succeeds it has logged all of it. -/
theorem foldLogged_fst_eq_map {f : τ → α → List κ × Except ε τ} {c : α → κ}
    (hf : ∀ s a, (f s a).1 = [c a]) :
    ∀ {l : List α} {s s' : τ}, (foldLogged f l s).2 = .ok s' → (foldLogged f l s).1 = l.map c := by
  intro l
  induction l with
  | nil => intro s s' _; rfl
  | cons a l ih =>
    intro s s' h
    have ha := hf s a
    rw [foldLogged] at h ⊢
    rcases hfa : f s a with ⟨log, e | t⟩ <;> rw [hfa] at h ha
    · cases h
    · show log ++ (foldLogged f l t).1 = _
      rw [show log = [c a] from ha, ih h]
      rfl

end ApfsForensic.Walk
