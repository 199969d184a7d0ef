import ApfsForensic.Core.Inode
import ApfsForensic.Core.Resolve
import ApfsForensic.Core.Volume

/-!
# The file-system tree and directory navigation

`core/src/dir.rs`.  The fs-tree is virtual: a node is named by an oid, resolved
through the volume's object map at the volume's xid.  `walkFsTree` visits its
records.  With a target oid it descends only the children whose separators leave
room for that oid.

* `descendVirtual_eq_guardedWalk`: the descent is the library walk of the pruned
  reader.
* `fsRecords`: the records a walk visits; `walkFsTree_eq` says every walk is a
  fold over them, so that what `listDir`, `lookupChild` and `loadInode` return is
  a function of `fsRecords`.
-/

namespace ApfsForensic

open Walk

/-! ### Directory records -/

/-- `ROOT_DIR_INO_NUM`. -/
def rootDirInoNum : Nat := 2

/-- `MAX_FSTREE_DEPTH`. -/
def maxFstreeDepth : Nat := 64

/-- `DirEntry`. -/
structure DirEntry where
  name : String
  fileId : Nat
  dateAdded : Nat
  flags : Nat
  deriving DecidableEq, Repr

/-- The unhashed form of a directory key: a `u16` length at 8, the name at 10. -/
def decodeUnhashedName (key : Bytes) : Option String :=
  let unhashedLen := leU16 key 8
  if unhashedLen > 0 then (getRange key 10 (10 + unhashedLen)).map decodeCstr else none

/-- `decode_drec_name`: the hashed form where its length fits, else the unhashed. -/
def decodeDrecName (key : Bytes) : Option String :=
  let hashedLen := leU32 key 8 &&& 0x3ff
  if hashedLen > 0 then
    match getRange key 12 (12 + hashedLen) with
    | some name => some (decodeCstr name)
    | none => decodeUnhashedName key
  else decodeUnhashedName key

/-- `parse_dir_entry`. -/
def parseDirEntry (key value : Bytes) : Option DirEntry :=
  match decodeDrecName key with
  | none => none
  | some name => some
      { name, fileId := leU64 value 0, dateAdded := leU64 value 8, flags := leU16 value 16 }

/-! ### The walk -/

/-- `child_may_contain_oid`. -/
def childMayContainOid (sepOid : Nat) (nextSepOid : Option Nat) (target : Nat) : Bool :=
  decide (sepOid ≤ target) &&
    match nextSepOid with
    | none => true
    | some next => decide (next ≥ target)

/-- The `continue` of the loop over an index node: a keyed walk passes over the
children that cannot hold its target. -/
def skipsChild (targetOid : Option Nat) (sepOid : Nat) (nextSepOid : Option Nat) : Bool :=
  match targetOid with
  | none => false
  | some target => !childMayContainOid sepOid nextSepOid target

/-- Each entry of an index node with the object id of the next separator. -/
def withNextSep : List Entry → List (Entry × Option Nat)
  | [] => []
  | e :: rest => (e, rest.head?.map (fun next => jkeyOid next.key)) :: withNextSep rest

section Walk

variable {σ : Type} (xts : Xts) (image : Image) (omap : ObjectMap) (vek : Option Vek)
variable (xid blockSize : Nat)

/-- Decrypt a node that its object map entry flags as encrypted, when there is a
key.  The tweak is the node's own block address. -/
def decryptNode (entry : OmapEntry) (buf : Bytes) : Result Bytes :=
  if entry.flags &&& omapValEncrypted ≠ 0 then
    match vek with
    | some vek => decryptVolumeArea xts buf vek entry.paddr blockSize
    | none => .ok buf
  else .ok buf

/-- The node that a virtual oid names: resolved, read, decrypted, then verified. -/
def readVirtualNode (oid : Nat) : Result Bytes := do
  let entry ← omap.resolve image oid xid blockSize
  let buf ← image.readBlock entry.paddr blockSize
  let buf ← decryptNode xts vek blockSize entry buf
  verifyChecksum buf (headerOidOr buf entry.paddr)
  return buf

/-- `descend_virtual`, with `levels` of `maxFstreeDepth` left. -/
def descendVirtual (targetOid : Option Nat) (visit : σ → Bytes → Bytes → σ) :
    (levels nodeOid : Nat) → List Nat × σ → Result (List Nat × σ)
  | 0, _, _ => throw (.err (.cycleGuard maxFstreeDepth))
  | levels + 1, nodeOid, (visited, acc) => do
    if nodeOid ∈ visited then
      throw (.err (.cycleGuard maxFstreeDepth))
    let buf ← readVirtualNode xts image omap vek xid blockSize nodeOid
    let some hdr := parseNodeHeader buf | return (nodeOid :: visited, acc)
    if hdr.isLeaf then
      return (nodeOid :: visited,
        (nodeEntries buf .fsTree).foldl (fun a e => visit a e.key e.value) acc)
    (withNextSep (nodeEntries buf .fsTree)).foldlM (fun s e =>
        if skipsChild targetOid (jkeyOid e.1.key) e.2 then return s
        else descendVirtual targetOid visit levels (leU64 e.1.value 0) s)
      (nodeOid :: visited, acc)

end Walk

section Navigation

variable {σ : Type} (xts : Xts) (image : Image) (volume : ApfsVolume) (blockSize : Nat)

/-- `walk_fs_tree`. -/
def walkFsTree (targetOid : Option Nat) (visit : σ → Bytes → Bytes → σ) (acc : σ) : Result σ := do
  let omap ← readObjectMap image volume.omapOid blockSize
  let (_, acc) ← descendVirtual xts image omap volume.vek volume.xid blockSize targetOid visit
    maxFstreeDepth volume.rootTreeOid ([], acc)
  return acc

/-- `for_each_fs_record_for_oid`. -/
def forEachFsRecordForOid (targetOid : Nat) (visit : σ → Bytes → Bytes → σ) (acc : σ) : Result σ :=
  walkFsTree xts image volume blockSize (some targetOid) visit acc

/-- `list_dir`. -/
def listDir (parentOid : Nat) : Result (List DirEntry) :=
  forEachFsRecordForOid xts image volume blockSize parentOid (fun out key value =>
    if jkeyType key ≠ some .dirRec ∨ jkeyOid key ≠ parentOid then out
    else
      match parseDirEntry key value with
      | none => out
      | some entry => out ++ [entry]) []

/-- `lookup_child`. -/
def lookupChild (parentOid : Nat) (name : String) : Result (Option Nat) :=
  forEachFsRecordForOid xts image volume blockSize parentOid (fun found key value =>
    if found.isSome then found
    else if jkeyType key ≠ some .dirRec ∨ jkeyOid key ≠ parentOid then found
    else
      match parseDirEntry key value with
      | none => found
      | some entry => if entry.name = name then some entry.fileId else found) none

/-- `load_inode`. -/
def loadInode (oid : Nat) : Result Inode := do
  let value ← forEachFsRecordForOid xts image volume blockSize oid (fun value key val =>
    if value.isSome then value
    else if jkeyType key = some .inode ∧ jkeyOid key = oid then some val else value) none
  match value with
  | none => throw (.err (.omapUnresolved oid volume.xid))
  | some value => return Inode.parse oid value

/-- `path.split('/')`. -/
def pathComponents (path : String) : List String := (path.toList.splitOn '/').map String.ofList

/-- `open_path`, on the components of the path. -/
def openPath (components : List String) : Result Inode := do
  let current ← (components.filter (· ≠ "")).foldlM (fun current component => do
    match ← lookupChild xts image volume blockSize current component with
    | some child => return child
    | none => throw (.err (.omapUnresolved current volume.xid))) rootDirInoNum
  loadInode xts image volume blockSize current

/-- The records a walk of the fs-tree visits, in order. -/
def fsRecords (targetOid : Option Nat) : Result (List Entry) :=
  walkFsTree xts image volume blockSize targetOid (fun es key value => es ++ [⟨key, value⟩]) []

end Navigation

/-! ### The descent as a library walk -/

section Walk

variable {σ : Type} (xts : Xts) (image : Image) (omap : ObjectMap) (vek : Option Vek)
variable (xid blockSize : Nat)

/-- The node behind a virtual oid. -/
def fetchVirtual (oid : Nat) : Result (NodeView Bytes Nat Entry) :=
  (readVirtualNode xts image omap vek xid blockSize oid).map (nodeView · .fsTree)

/-- Which children a walk descends: all of them, or those that may hold the
target. -/
def keepChild (targetOid : Option Nat) (sep : Bytes) (nextSep : Option Bytes) : Bool :=
  match targetOid with
  | none => true
  | some target => childMayContainOid (jkeyOid sep) (nextSep.map jkeyOid) target

/-- The nodes a walk with this target descends through. -/
def fetchPruned (targetOid : Option Nat) (oid : Nat) : Result (NodeView Bytes Nat Entry) :=
  (fetchVirtual xts image omap vek xid blockSize oid).map (NodeView.prune (keepChild targetOid))

theorem fetchPruned_none : fetchPruned xts image omap vek xid blockSize none
    = fetchVirtual xts image omap vek xid blockSize :=
  map_prune_true (fun _ _ => rfl) _

/-- Skipping a child in the loop is dropping its entry beforehand. -/
theorem foldlM_withNextSep (targetOid : Option Nat) (f : Nat → σ → Result σ) :
    ∀ (es : List Entry) (s : σ),
      (withNextSep es).foldlM (fun s e =>
          if skipsChild targetOid (jkeyOid e.1.key) e.2 then return s
          else f (leU64 e.1.value 0) s) s
        = (pruneEntries (keepChild targetOid) (es.map (fun e => (e.key, leU64 e.value 0)))).foldlM
            (fun s e => f e.2 s) s := by
  intro es
  induction es with
  | nil => intro s; rfl
  | cons e es ih =>
    intro s
    have hkeep : keepChild targetOid e.key
          ((es.map (fun e => (e.key, leU64 e.value 0))).head?.map Prod.fst)
        = !skipsChild targetOid (jkeyOid e.key)
            (es.head?.map (fun next => jkeyOid next.key)) := by
      cases targetOid with
      | none => rfl
      | some target => cases es <;> simp [keepChild, skipsChild]
    rw [withNextSep, List.foldlM_cons, List.map_cons, pruneEntries, hkeep]
    by_cases hs : skipsChild targetOid (jkeyOid e.key)
        (es.head?.map (fun next => jkeyOid next.key)) = true
    · rw [if_pos hs, if_neg (by simp [hs])]
      exact ih s
    · rw [if_neg hs, if_pos (by simpa using hs), List.foldlM_cons]
      exact congrArg _ (funext ih)

theorem descendVirtual_eq_guardedWalk (targetOid : Option Nat) (visit : σ → Bytes → Bytes → σ) :
    ∀ (levels nodeOid : Nat) (s : List Nat × σ),
      descendVirtual xts image omap vek xid blockSize targetOid visit levels nodeOid s
        = guardedWalk (fetchPruned xts image omap vek xid blockSize targetOid) id
            (.err (.cycleGuard maxFstreeDepth)) (fun a e => visit a e.key e.value) levels nodeOid
            s := by
  intro levels
  induction levels with
  | zero => intro nodeOid s; rfl
  | succ levels ih =>
    intro nodeOid s
    obtain ⟨visited, acc⟩ := s
    rw [descendVirtual, guardedWalk]
    by_cases hv : nodeOid ∈ visited
    · rw [if_pos hv, if_pos (by simpa using hv)]
      rfl
    · rw [if_neg hv, if_neg (by simpa using hv), fetchPruned, fetchVirtual]
      cases readVirtualNode xts image omap vek xid blockSize nodeOid with
      | error f => rfl
      | ok buf =>
        cases hh : parseNodeHeader buf with
        | none =>
          simp only [ok_bind, Except.map, nodeView, hh]
          rfl
        | some hdr =>
          by_cases hl : hdr.isLeaf = true
          · simp only [ok_bind, Except.map, nodeView, hh, hl, if_true]
            rfl
          · simp only [ok_bind, Except.map, nodeView, hh, if_neg hl, NodeView.prune, ← ih]
            exact foldlM_withNextSep targetOid
              (fun child s => descendVirtual xts image omap vek xid blockSize targetOid visit levels
                child s) _ _

end Walk

section Navigation

variable {σ : Type} (xts : Xts) (image : Image) (volume : ApfsVolume) (blockSize : Nat)

/-- **Every walk of the fs-tree is a fold over the records it visits.** -/
theorem walkFsTree_eq (targetOid : Option Nat) (visit : σ → Bytes → Bytes → σ) (acc : σ) :
    walkFsTree xts image volume blockSize targetOid visit acc
      = (fsRecords xts image volume blockSize targetOid).map
          (fun es => es.foldl (fun a e => visit a e.key e.value) acc) := by
  unfold fsRecords walkFsTree
  cases readObjectMap image volume.omapOid blockSize with
  | error f => rfl
  | ok omap =>
    simp only [ok_bind, descendVirtual_eq_guardedWalk]
    have hfold := guardedWalk_map (fetchPruned xts image omap volume.vek volume.xid blockSize
      targetOid) id (.err (.cycleGuard maxFstreeDepth))
      (fun (es : List Entry) e => es ++ [⟨e.key, e.value⟩]) (fun a e => visit a e.key e.value)
      (fun es => es.foldl (fun a e => visit a e.key e.value) acc)
      (fun es e => by rw [List.foldl_append]; rfl) maxFstreeDepth volume.rootTreeOid ([], [])
    simp only [List.foldl_nil] at hfold
    rw [hfold]
    cases guardedWalk (fetchPruned xts image omap volume.vek volume.xid blockSize targetOid) id
      (.err (.cycleGuard maxFstreeDepth)) (fun es e => es ++ [⟨e.key, e.value⟩]) maxFstreeDepth
      volume.rootTreeOid ([], ([] : List Entry)) <;> rfl

end Navigation

end ApfsForensic
