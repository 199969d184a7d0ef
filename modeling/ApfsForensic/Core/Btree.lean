import ApfsForensic.Core.Object
import ApfsForensic.Walk.Search

/-!
# B-tree nodes and the two walks of a physical tree

`core/src/btree.rs`.  A node is a block with a table of contents; `nodeEntries`
decodes its key/value pairs.  `forEachLeafEntry` walks a physically stored tree
from its root block, and `findLeaf` follows the one path that a comparison of
keys selects.

A `visit` callback is a function on an accumulator: what the closure captures is
the accumulator's state.  The visited set is the list of the blocks met so far.
The depth counter of the source is the number of levels that are left,
`maxBtreeDepth - depth`, so that the recursion is structural.

Both walks are instances of the library walks at `fetchNode`, the view of one
verified node: `descend_eq_guardedWalk` and `findLeafFrom_eq_searchWalk`.
-/

namespace ApfsForensic

open Walk

/-! ### Node headers -/

/-- `BTreeSubtype`: it fixes the entry sizes of a fixed-size node. -/
inductive BTreeSubtype where
  | omap
  | fsTree
  deriving DecidableEq, Repr

namespace BTreeSubtype

def fixedKeyLen : BTreeSubtype → Nat
  | omap => 16
  | fsTree => 0

def fixedLeafValLen : BTreeSubtype → Nat
  | omap => 16
  | fsTree => 0

def fixedBranchValLen : BTreeSubtype → Nat
  | omap | fsTree => 8

end BTreeSubtype

/-- `BTreeNodeHeader`. -/
structure BTreeNodeHeader where
  flags : Nat
  level : Nat
  nkeys : Nat
  deriving DecidableEq, Repr

namespace BTreeNodeHeader

/-- `BTNODE_LEAF` is set, or `btn_level == 0`. -/
def isLeaf (hdr : BTreeNodeHeader) : Bool := hdr.flags &&& 0x2 != 0 || hdr.level == 0

/-- `BTNODE_ROOT`. -/
def isRoot (hdr : BTreeNodeHeader) : Bool := hdr.flags &&& 0x1 != 0

/-- `BTNODE_FIXED_KV_SIZE`. -/
def isFixedKv (hdr : BTreeNodeHeader) : Bool := hdr.flags &&& 0x4 != 0

end BTreeNodeHeader

/-- `BTN_DATA_OFF`, also the least length of a node. -/
def btnDataOff : Nat := 56

/-- `BTREE_INFO_LEN`. -/
def btreeInfoLen : Nat := 40

/-- `MAX_BTN_NKEYS`. -/
def maxBtnNkeys : Nat := 2 ^ 20

/-- `parse_node_header`. -/
def parseNodeHeader (block : Bytes) : Option BTreeNodeHeader :=
  if block.length < btnDataOff then none
  else some { flags := leU16 block 32, level := leU16 block 34, nkeys := leU32 block 36 }

/-! ### Node entries -/

/-- `Entry`: a key/value pair of a node. -/
structure Entry where
  key : Bytes
  value : Bytes
  deriving DecidableEq, Repr

/-- Where the parts of a node stand, as its header and `btn_table_space` say. -/
structure NodeLayout where
  tocStart : Nat
  keyArea : Nat
  valBase : Nat
  fixed : Bool
  keyLen : Nat
  valLen : Nat

namespace NodeLayout

/-- `TOC_FIXED_LEN` or `TOC_VAR_LEN`. -/
def entryLen (l : NodeLayout) : Nat := if l.fixed then 4 else 8

end NodeLayout

def nodeLayout (block : Bytes) (hdr : BTreeNodeHeader) (subtype : BTreeSubtype) : NodeLayout :=
  let tocStart := btnDataOff + leU16 block 40
  { tocStart := tocStart
    keyArea := tocStart + leU16 block 42
    -- reversed value offsets count from the footer on a root node
    valBase := if hdr.isRoot then block.length - btreeInfoLen else block.length
    fixed := hdr.isFixedKv
    keyLen := subtype.fixedKeyLen
    valLen := if hdr.isLeaf then subtype.fixedLeafValLen else subtype.fixedBranchValLen }

/-- The entry whose table-of-contents record stands at `e`; `none` where an offset
runs out of the node, which the walk of the table passes over. -/
def tocEntry (block : Bytes) (l : NodeLayout) (e : Nat) : Option Entry :=
  let koff := leU16 block e
  let (voff, thisKeyLen, thisValLen) :=
    if l.fixed then (leU16 block (e + 2), l.keyLen, l.valLen)
    else (leU16 block (e + 4), leU16 block (e + 2), leU16 block (e + 6))
  let kstart := l.keyArea + koff
  if voff ≤ l.valBase then
    let vstart := l.valBase - voff
    match getRange block kstart (kstart + thisKeyLen),
        getRange block vstart (vstart + thisValLen) with
    | some key, some value => some { key, value }
    | _, _ => none
  else none

/-- The loop over the table of contents, `remaining` entries from index `i` on.  It
ends early where the table would leave its own area or the node. -/
def tocEntries (block : Bytes) (l : NodeLayout) : (remaining i : Nat) → List Entry
  | 0, _ => []
  | remaining + 1, i =>
    let e := l.tocStart + i * l.entryLen
    if e + l.entryLen > l.keyArea ∨ e + l.entryLen > block.length then []
    else
      match tocEntry block l e with
      | some entry => entry :: tocEntries block l remaining (i + 1)
      | none => tocEntries block l remaining (i + 1)

/-- `node_entries`. -/
def nodeEntries (block : Bytes) (subtype : BTreeSubtype) : List Entry :=
  match parseNodeHeader block with
  | none => []
  | some hdr => tocEntries block (nodeLayout block hdr subtype) (min hdr.nkeys maxBtnNkeys) 0

/-! ### Walks -/

/-- `MAX_BTREE_DEPTH`. -/
def maxBtreeDepth : Nat := 64

/-- `read_verified_node`.  `none` is the product that leaves `u64`. -/
def readVerifiedNode (image : Image) (paddr blockSize : Nat) : Result (Option Bytes) := do
  let some offset := checkedMul paddr blockSize | return none
  let buf ← image.readExact offset blockSize
  verifyChecksum buf (headerOidOr buf paddr)
  return some buf

section Walks

variable {σ : Type} (image : Image) (blockSize : Nat) (subtype : BTreeSubtype)

/-- `descend`, with `levels` of `maxBtreeDepth` left. -/
def descend (visit : σ → Bytes → Bytes → σ) :
    (levels paddr : Nat) → List Nat × σ → Result (List Nat × σ)
  | 0, _, _ => throw (.err (.cycleGuard maxBtreeDepth))
  | levels + 1, paddr, (visited, acc) => do
    if paddr ∈ visited then
      throw (.err (.cycleGuard maxBtreeDepth))
    let some buf ← readVerifiedNode image paddr blockSize | return (paddr :: visited, acc)
    let some hdr := parseNodeHeader buf | return (paddr :: visited, acc)
    if hdr.isLeaf then
      return (paddr :: visited,
        (nodeEntries buf subtype).foldl (fun a e => visit a e.key e.value) acc)
    let children := (nodeEntries buf subtype).map (fun e => leU64 e.value 0)
    children.foldlM (fun s child => descend visit levels child s) (paddr :: visited, acc)

/-- `for_each_leaf_entry`. -/
def forEachLeafEntry (rootPaddr : Nat) (visit : σ → Bytes → Bytes → σ) (acc : σ) : Result σ := do
  let (_, acc) ← descend image blockSize subtype visit maxBtreeDepth rootPaddr ([], acc)
  return acc

/-- The scan of an index node in `find_leaf`: the child of the last entry before
the first whose key orders above the target. -/
def childCovering (cmp : Bytes → Ordering) : (child : Nat) → List Entry → Nat
  | child, [] => child
  | child, e :: rest =>
    if cmp e.key = .gt then child else childCovering cmp (leU64 e.value 0) rest

/-- The loop of `find_leaf`, with `levels` rounds left. -/
def findLeafFrom (cmp : Bytes → Ordering) (visit : σ → Bytes → Bytes → σ) :
    (levels paddr : Nat) → List Nat → σ → Result σ
  | 0, _, _, _ => throw (.err (.cycleGuard maxBtreeDepth))
  | levels + 1, paddr, visited, acc => do
    if paddr ∈ visited then
      throw (.err (.cycleGuard maxBtreeDepth))
    let some buf ← readVerifiedNode image paddr blockSize | return acc
    let some hdr := parseNodeHeader buf | return acc
    if hdr.isLeaf then
      return (nodeEntries buf subtype).foldl (fun a e => visit a e.key e.value) acc
    match nodeEntries buf subtype with
    | [] => return acc
    | first :: rest =>
      let child := childCovering cmp (leU64 first.value 0) (first :: rest)
      findLeafFrom cmp visit levels child (paddr :: visited) acc

/-- `find_leaf`. -/
def findLeaf (rootPaddr : Nat) (cmp : Bytes → Ordering) (visit : σ → Bytes → Bytes → σ)
    (acc : σ) : Result σ :=
  findLeafFrom image blockSize subtype cmp visit maxBtreeDepth rootPaddr [] acc

end Walks

/-! ### The walks as library walks -/

/-- What a verified node says: its records, or its separators and children.  A
block without a node header is an empty leaf, as both walks pass over it. -/
def nodeView (buf : Bytes) (subtype : BTreeSubtype) : NodeView Bytes Nat Entry :=
  match parseNodeHeader buf with
  | none => .leaf []
  | some hdr =>
    if hdr.isLeaf then .leaf (nodeEntries buf subtype)
    else .index ((nodeEntries buf subtype).map (fun e => (e.key, leU64 e.value 0)))

/-- The node at a block address. -/
def fetchNode (image : Image) (blockSize : Nat) (subtype : BTreeSubtype) (paddr : Nat) :
    Result (NodeView Bytes Nat Entry) :=
  match readVerifiedNode image paddr blockSize with
  | .error f => .error f
  | .ok none => .ok (.leaf [])
  | .ok (some buf) => .ok (nodeView buf subtype)

/-! ### What a visitor collects -/

theorem foldl_snoc (es acc : List Entry) :
    es.foldl (fun a e => a ++ [⟨e.key, e.value⟩]) acc = acc ++ es := by
  rw [List.foldl_append_eq_append, ← List.flatMap_def]
  exact congrArg _ (List.flatMap_singleton' es)

/-- A visitor that keeps the records of one kind collects them in order. -/
theorem foldl_filter_snoc {α β : Type} (p : α → Prop) [DecidablePred p] (f : α → β) :
    ∀ (l : List α) (acc : List β),
      l.foldl (fun out a => if p a then out ++ [f a] else out) acc = acc ++ (l.filter p).map f := by
  intro l
  induction l with
  | nil => intro acc; simp
  | cons a l ih =>
    intro acc
    rw [List.foldl_cons, ih]
    by_cases ha : p a
    · rw [if_pos ha, List.filter_cons_of_pos (by simpa using ha), List.map_cons,
        List.append_assoc, List.singleton_append]
    · rw [if_neg ha, List.filter_cons_of_neg (by simpa using ha)]

section Walks

variable {σ : Type} (image : Image) (blockSize : Nat) (subtype : BTreeSubtype)

theorem descend_eq_guardedWalk (visit : σ → Bytes → Bytes → σ) :
    ∀ (levels paddr : Nat) (s : List Nat × σ),
      descend image blockSize subtype visit levels paddr s
        = guardedWalk (fetchNode image blockSize subtype) id (.err (.cycleGuard maxBtreeDepth))
            (fun a e => visit a e.key e.value) levels paddr s := by
  intro levels
  induction levels with
  | zero => intro paddr s; rfl
  | succ levels ih =>
    intro paddr s
    obtain ⟨visited, acc⟩ := s
    rw [descend, guardedWalk]
    by_cases hv : paddr ∈ visited
    · rw [if_pos hv, if_pos (by simpa using hv)]
      rfl
    · rw [if_neg hv, if_neg (by simpa using hv), fetchNode]
      cases hr : readVerifiedNode image paddr blockSize with
      | error f => rfl
      | ok o =>
        cases o with
        | none => rfl
        | some buf =>
          cases hh : parseNodeHeader buf with
          | none =>
            simp only [ok_bind, nodeView, hh]
            rfl
          | some hdr =>
            by_cases hl : hdr.isLeaf = true
            · simp only [ok_bind, nodeView, hh, hl, if_true]
              rfl
            · simp only [ok_bind, nodeView, hh, if_neg hl, List.foldlM_map, ← ih]
              rfl

theorem childCovering_eq_pick (cmp : Bytes → Ordering) : ∀ (child : Nat) (es : List Entry),
    childCovering cmp child es
      = pick (fun s => cmp s != .gt) child (es.map (fun e => (e.key, leU64 e.value 0))) := by
  intro child es
  induction es generalizing child with
  | nil => rfl
  | cons e es ih =>
    rw [childCovering, List.map_cons, pick]
    by_cases h : cmp e.key = .gt
    · rw [if_pos h, if_neg (by simp [h])]
    · rw [if_neg h, if_pos (by simp [h]), ih]

theorem findLeafFrom_eq_searchWalk (cmp : Bytes → Ordering) (visit : σ → Bytes → Bytes → σ)
    (acc : σ) : ∀ (levels paddr : Nat) (visited : List Nat),
      findLeafFrom image blockSize subtype cmp visit levels paddr visited acc
        = (searchWalk (fetchNode image blockSize subtype) id (.err (.cycleGuard maxBtreeDepth))
            (fun s => cmp s != .gt) levels paddr visited).map
            (fun rs => rs.foldl (fun a e => visit a e.key e.value) acc) := by
  intro levels
  induction levels with
  | zero => intro paddr visited; rfl
  | succ levels ih =>
    intro paddr visited
    rw [findLeafFrom, searchWalk]
    by_cases hv : paddr ∈ visited
    · rw [if_pos hv, if_pos (by simpa using hv)]
      rfl
    · rw [if_neg hv, if_neg (by simpa using hv), fetchNode]
      cases hr : readVerifiedNode image paddr blockSize with
      | error f => rfl
      | ok o =>
        cases o with
        | none => rfl
        | some buf =>
          cases hh : parseNodeHeader buf with
          | none =>
            simp only [ok_bind, nodeView, hh]
            rfl
          | some hdr =>
            by_cases hl : hdr.isLeaf = true
            · simp only [ok_bind, nodeView, hh, hl, if_true]
              rfl
            · simp only [ok_bind, nodeView, hh, if_neg hl]
              cases nodeEntries buf subtype with
              | nil => rfl
              | cons first rest =>
                simp only [ih, childCovering_eq_pick, List.map_cons, id]

end Walks

end ApfsForensic
