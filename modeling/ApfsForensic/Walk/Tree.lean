import Mathlib.Data.List.Basic
import Mathlib.Data.List.Nodup
import Mathlib.Order.MinMax

/-!
# Trees that a reader finds behind node references

A reader turns a node reference `k : κ` into a `NodeView`: the records of a leaf,
or the entries of an index node, each a separator `β` with the reference of a
child.  Nothing says that following the references ends, or that two of them do
not meet.  `Tree β κ ρ` is the shape such a reader unfolds when it does end, and
`Tree.Stored fetch t` says that `fetch` really finds `t` behind `t.key`.

* `Tree.records`: the records of the leaves, in order.
* `Tree.nodes`: the references of the nodes, each node before its children.
* `Tree.height`: the number of levels; a leaf has one.
* `Forest.toList`: the children of an index node with their separators, as a
  list (`Forest.records_eq`, `Forest.entries_eq`).
-/

namespace ApfsForensic.Walk

universe u v w

/-- What a reader finds in one node: the records of a leaf, or the separators and
child references of an index node. -/
inductive NodeView (β : Type u) (κ : Type v) (ρ : Type w) where
  | leaf (records : List ρ)
  | index (entries : List (β × κ))
  deriving DecidableEq, Repr

/-- The same node with its child references renamed. -/
def NodeView.mapRefs {β : Type u} {κ κ' : Type v} {ρ : Type w} (f : κ → κ') :
    NodeView β κ ρ → NodeView β κ' ρ
  | .leaf rs => .leaf rs
  | .index es => .index (es.map (fun e => (e.1, f e.2)))

mutual

/-- A tree of nodes, each with the reference it is read through. -/
inductive Tree (β : Type u) (κ : Type v) (ρ : Type w) where
  | leaf (key : κ) (records : List ρ)
  | index (key : κ) (children : Forest β κ ρ)

/-- The children of an index node, each behind its separator. -/
inductive Forest (β : Type u) (κ : Type v) (ρ : Type w) where
  | nil
  | cons (sep : β) (child : Tree β κ ρ) (rest : Forest β κ ρ)

end

variable {β : Type u} {κ : Type v} {ρ : Type w} {ε : Type*}

/-- The reference the root of the tree is read through. -/
def Tree.key : Tree β κ ρ → κ
  | .leaf k _ => k
  | .index k _ => k

def Forest.toList : Forest β κ ρ → List (β × Tree β κ ρ)
  | .nil => []
  | .cons s t r => (s, t) :: r.toList

/-- The entries an index node with these children holds. -/
def Forest.entries : Forest β κ ρ → List (β × κ)
  | .nil => []
  | .cons s t r => (s, t.key) :: r.entries

mutual

def Tree.records : Tree β κ ρ → List ρ
  | .leaf _ rs => rs
  | .index _ cs => cs.records

def Forest.records : Forest β κ ρ → List ρ
  | .nil => []
  | .cons _ t r => t.records ++ r.records

end

mutual

def Tree.nodes : Tree β κ ρ → List κ
  | .leaf k _ => [k]
  | .index k cs => k :: cs.nodes

def Forest.nodes : Forest β κ ρ → List κ
  | .nil => []
  | .cons _ t r => t.nodes ++ r.nodes

end

mutual

def Tree.height : Tree β κ ρ → Nat
  | .leaf _ _ => 1
  | .index _ cs => cs.height + 1

def Forest.height : Forest β κ ρ → Nat
  | .nil => 0
  | .cons _ t r => max t.height r.height

end

mutual

/-- `fetch` finds this tree behind its references. -/
def Tree.Stored (fetch : κ → Except ε (NodeView β κ ρ)) : Tree β κ ρ → Prop
  | .leaf k rs => fetch k = .ok (.leaf rs)
  | .index k cs => fetch k = .ok (.index cs.entries) ∧ cs.Stored fetch

def Forest.Stored (fetch : κ → Except ε (NodeView β κ ρ)) : Forest β κ ρ → Prop
  | .nil => True
  | .cons _ t r => t.Stored fetch ∧ r.Stored fetch

end

mutual

/-- Every node of the tree is such a node behind its reference. -/
def Tree.All (P : κ → NodeView β κ ρ → Prop) : Tree β κ ρ → Prop
  | .leaf k rs => P k (.leaf rs)
  | .index k cs => P k (.index cs.entries) ∧ cs.All P

def Forest.All (P : κ → NodeView β κ ρ → Prop) : Forest β κ ρ → Prop
  | .nil => True
  | .cons _ t r => t.All P ∧ r.All P

end

@[simp] theorem Tree.key_leaf (k : κ) (rs : List ρ) : (Tree.leaf k rs : Tree β κ ρ).key = k := rfl

@[simp] theorem Tree.key_index (k : κ) (cs : Forest β κ ρ) : (Tree.index k cs).key = k := rfl

theorem Tree.height_pos : ∀ t : Tree β κ ρ, 0 < t.height
  | .leaf _ _ => by rw [Tree.height]; omega
  | .index _ _ => by rw [Tree.height]; omega

/-! ### A forest is the list of its children -/

theorem Forest.entries_eq : ∀ cs : Forest β κ ρ,
    cs.entries = cs.toList.map (fun c => (c.1, c.2.key))
  | .nil => rfl
  | .cons s t r => by rw [entries, toList, List.map_cons, entries_eq r]

theorem Forest.records_eq : ∀ cs : Forest β κ ρ,
    cs.records = cs.toList.flatMap (fun c => c.2.records)
  | .nil => rfl
  | .cons s t r => by rw [records, toList, List.flatMap_cons, records_eq r]

theorem Forest.height_le_of_mem : ∀ {cs : Forest β κ ρ} {c : β × Tree β κ ρ}, c ∈ cs.toList →
    c.2.height ≤ cs.height := by
  intro cs c hc
  match cs with
  | .nil => simp [toList] at hc
  | .cons s t r =>
    rw [toList, List.mem_cons] at hc
    rw [height]
    rcases hc with rfl | hc
    · exact le_max_left _ _
    · exact le_trans (height_le_of_mem hc) (le_max_right _ _)

theorem Forest.stored_of_mem {fetch : κ → Except ε (NodeView β κ ρ)} :
    ∀ {cs : Forest β κ ρ} {c : β × Tree β κ ρ}, cs.Stored fetch → c ∈ cs.toList →
      c.2.Stored fetch := by
  intro cs c hs hc
  match cs with
  | .nil => simp [toList] at hc
  | .cons s t r =>
    rw [toList, List.mem_cons] at hc
    rw [Stored] at hs
    rcases hc with rfl | hc
    · exact hs.1
    · exact stored_of_mem hs.2 hc

theorem Forest.records_sublist_of_mem : ∀ {cs : Forest β κ ρ} {c : β × Tree β κ ρ},
    c ∈ cs.toList → c.2.records.Sublist cs.records := by
  intro cs c hc
  match cs with
  | .nil => simp [toList] at hc
  | .cons s t r =>
    rw [toList, List.mem_cons] at hc
    rw [records]
    rcases hc with rfl | hc
    · exact List.sublist_append_left _ _
    · exact (records_sublist_of_mem hc).trans (List.sublist_append_right _ _)

theorem Forest.nodes_sublist_of_mem : ∀ {cs : Forest β κ ρ} {c : β × Tree β κ ρ},
    c ∈ cs.toList → c.2.nodes.Sublist cs.nodes := by
  intro cs c hc
  match cs with
  | .nil => simp [toList] at hc
  | .cons s t r =>
    rw [toList, List.mem_cons] at hc
    rw [nodes]
    rcases hc with rfl | hc
    · exact List.sublist_append_left _ _
    · exact (nodes_sublist_of_mem hc).trans (List.sublist_append_right _ _)

mutual

/-- A tree is stored if every node of it is found. -/
theorem Tree.All.stored {P : κ → NodeView β κ ρ → Prop} {fetch : κ → Except ε (NodeView β κ ρ)}
    (hfetch : ∀ k v, P k v → fetch k = .ok v) : ∀ {t : Tree β κ ρ}, t.All P → t.Stored fetch
  | .leaf k rs, h => by
    rw [Tree.All] at h
    rw [Tree.Stored]
    exact hfetch k _ h
  | .index k cs, h => by
    rw [Tree.All] at h
    rw [Tree.Stored]
    exact ⟨hfetch k _ h.1, h.2.stored hfetch⟩

theorem Forest.All.stored {P : κ → NodeView β κ ρ → Prop} {fetch : κ → Except ε (NodeView β κ ρ)}
    (hfetch : ∀ k v, P k v → fetch k = .ok v) : ∀ {cs : Forest β κ ρ}, cs.All P → cs.Stored fetch
  | .nil, _ => trivial
  | .cons s t r, h => by
    rw [Forest.All] at h
    rw [Forest.Stored]
    exact ⟨h.1.stored hfetch, h.2.stored hfetch⟩

end

/-! ### Stored trees can be checked -/

section Decide

variable [DecidableEq β] [DecidableEq κ] [DecidableEq ρ] [DecidableEq ε]

mutual

def Tree.decStored (fetch : κ → Except ε (NodeView β κ ρ)) :
    (t : Tree β κ ρ) → Decidable (t.Stored fetch)
  | .leaf k rs => inferInstanceAs (Decidable (fetch k = .ok (.leaf rs)))
  | .index k cs =>
    have := cs.decStored fetch
    inferInstanceAs (Decidable (fetch k = .ok (.index cs.entries) ∧ cs.Stored fetch))

def Forest.decStored (fetch : κ → Except ε (NodeView β κ ρ)) :
    (cs : Forest β κ ρ) → Decidable (cs.Stored fetch)
  | .nil => inferInstanceAs (Decidable True)
  | .cons _ t r =>
    have := t.decStored fetch
    have := r.decStored fetch
    inferInstanceAs (Decidable (t.Stored fetch ∧ r.Stored fetch))

end

instance (fetch : κ → Except ε (NodeView β κ ρ)) (t : Tree β κ ρ) : Decidable (t.Stored fetch) :=
  t.decStored fetch

end Decide

end ApfsForensic.Walk
