import ApfsForensic.Walk.Search

/-!
# Answers that are kept or refused

`Degrades r r'`: the second result is the first one or an error.  A computation over a store that
has lost something degrades in this sense if every read does: it never turns one answer into
another.  The relation is closed under the steps that computations are made of, and a walk
degrades with the nodes that it fetches (`guardedWalk_degrades`, `searchWalk_degrades`).
-/

namespace ApfsForensic.Walk

/-- The second result is the first one, or an error. -/
def Degrades {ε α : Type*} (r r' : Except ε α) : Prop := r' = r ∨ ∃ e, r' = .error e

namespace Degrades

universe u v

variable {ε ε' : Type u} {α β σ : Type v}

theorem refl (r : Except ε α) : Degrades r r := Or.inl rfl

theorem fail (r : Except ε α) (e : ε) : Degrades r (.error e) := Or.inr ⟨e, rfl⟩

theorem bind {x x' : Except ε α} {f f' : α → Except ε β} (hx : Degrades x x')
    (hf : ∀ a, x = .ok a → Degrades (f a) (f' a)) : Degrades (x >>= f) (x' >>= f') := by
  rcases hx with rfl | ⟨e, rfl⟩
  · cases x' with
    | error e => exact refl _
    | ok a => exact hf a rfl
  · exact fail _ e

theorem ite {c : Prop} {dec : Decidable c} {x x' y y' : Except ε α} (hx : Degrades x x')
    (hy : Degrades y y') : Degrades (if c then x else y) (if c then x' else y') := by
  by_cases h : c
  · rwa [if_pos h, if_pos h]
  · rwa [if_neg h, if_neg h]

/-- What turns errors into errors. -/
theorem comp {r r' : Except ε α} {g : Except ε α → Except ε' β} (h : Degrades r r')
    (hg : ∀ e, ∃ e', g (.error e) = .error e') : Degrades (g r) (g r') := by
  rcases h with rfl | ⟨e, rfl⟩
  · exact refl _
  · exact Or.inr (hg e)

theorem map {r r' : Except ε α} (h : Degrades r r') (f : α → β) :
    Degrades (r.map f) (r'.map f) :=
  h.comp fun e => ⟨e, rfl⟩

theorem foldlM {τ : Type*} {f f' : σ → τ → Except ε σ} : ∀ {l : List τ},
    (∀ a ∈ l, ∀ s, Degrades (f s a) (f' s a)) →
      ∀ s : σ, Degrades (l.foldlM f s) (l.foldlM f' s) := by
  intro l
  induction l with
  | nil => intro _ s; exact refl _
  | cons a l ih =>
    intro hf s
    rw [List.foldlM_cons, List.foldlM_cons]
    exact (hf a List.mem_cons_self s).bind fun s' _ =>
      ih (fun b hb => hf b (List.mem_cons_of_mem a hb)) s'

end Degrades

section Walks

universe u v w

variable {β : Type u} {κ : Type v} {ρ : Type w} {ε ι σ : Type*} [DecidableEq ι]
variable {fetch fetch' : κ → Except ε (NodeView β κ ρ)}

theorem guardedWalk_degrades (h : ∀ k, Degrades (fetch k) (fetch' k)) (gid : κ → ι) (cycle : ε)
    (visit : σ → ρ → σ) : ∀ (levels : Nat) (k : κ) (s : List ι × σ),
      Degrades (guardedWalk fetch gid cycle visit levels k s)
        (guardedWalk fetch' gid cycle visit levels k s) := by
  intro levels
  induction levels with
  | zero => intro k s; exact .refl _
  | succ levels ih =>
    rintro k ⟨visited, acc⟩
    rw [guardedWalk, guardedWalk]
    refine .ite (.refl _) ?_
    rcases h k with heq | ⟨e, heq⟩
    · rw [heq]
      cases fetch k with
      | error e => exact .refl _
      | ok node =>
        cases node with
        | leaf rs => exact .refl _
        | index es => exact .foldlM (fun e _ s => ih e.2 s) _
    · rw [heq]
      exact .fail _ e

theorem searchWalk_degrades (h : ∀ k, Degrades (fetch k) (fetch' k)) (gid : κ → ι) (cycle : ε)
    (p : β → Bool) : ∀ (levels : Nat) (k : κ) (visited : List ι),
      Degrades (searchWalk fetch gid cycle p levels k visited)
        (searchWalk fetch' gid cycle p levels k visited) := by
  intro levels
  induction levels with
  | zero => intro k visited; exact .refl _
  | succ levels ih =>
    intro k visited
    rw [searchWalk, searchWalk]
    refine .ite (.refl _) ?_
    rcases h k with heq | ⟨e, heq⟩
    · rw [heq]
      cases fetch k with
      | error e => exact .refl _
      | ok node =>
        cases node with
        | leaf rs => exact .refl _
        | index es =>
          cases es with
          | nil => exact .refl _
          | cons first rest => exact ih _ _
    · rw [heq]
      exact .fail _ e

end Walks

end ApfsForensic.Walk
