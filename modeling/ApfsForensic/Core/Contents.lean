import ApfsForensic.Core.EncryptedExtent
import ApfsForensic.Core.FsObjects
import ApfsForensic.Core.KeyedWalk
import ApfsForensic.Core.Navigation

/-!
# What a volume holds

The abstract side of navigation: a volume is a list of records (`Contents`), a directory is
the entries whose parent it is, and a path is followed from entry to entry.  No oid is
resolved here, no node is read and no key is compared.

`Holds` says that an image stores such a list: the records stand, in this order, in the leaves
of a well-formed fs-tree of any shape.  Then every function of navigation computes what the
list says (`navigation_refines`), and `open_path` follows paths in the directories of the list
(`open_path_follows`).

The keyed walk comes by records of other objects too, and not by all of them.  What is kept of
it is `Holds.filterMap_fsRecords`: a decoder that wants records of the target only sees the
same ones in the walk and in the list.
-/

namespace ApfsForensic

open Walk

/-- The records of a volume, in the order of the tree. -/
abbrev Contents := List FsObject

namespace Contents

variable (c : Contents)

/-- The entries of a directory. -/
def entries (dir : Nat) : List DirEntry :=
  c.filterMap fun
    | .drec r _ _ => if r.parent = dir then some r.entry else none
    | _ => none

/-- What a name leads to. -/
def child (dir : Nat) (name : String) : Option Nat :=
  ((c.entries dir).find? (fun d => d.name = name)).map DirEntry.fileId

def inode (oid : Nat) : Option Inode :=
  c.findSome? fun
    | .inode r => if r.inode.oid = oid then some r.inode else none
    | _ => none

def xattrs (oid : Nat) : List Xattr :=
  c.filterMap fun
    | .xattr r => if r.oid = oid then some r.xattr else none
    | _ => none

/-- The extents of a data stream, as they are met. -/
def extents (stream : Nat) : List FileExtent :=
  c.filterMap fun
    | .extent r => if r.stream = stream then some r.extent else none
    | _ => none

/-- The first attribute of a name. -/
def xattr (oid : Nat) (name : String) : Option XattrValue :=
  ((c.xattrs oid).find? (fun x => x.name = name)).map Xattr.value

/-- Where a symbolic link leads. -/
def symlink (oid : Nat) : Option String :=
  match c.xattr oid xattrNameSymlink with
  | some (.embedded bytes) => some (decodeCstr bytes)
  | _ => none

/-- The directories as a labelled graph, in which no lookup fails. -/
def graph (dir : Nat) (name : String) : Except Empty (Option Nat) := .ok (c.child dir name)

end Contents

/-- The image stores the contents in the fs-tree `t` of the volume. -/
structure HoldsIn (xts : Xts) (image : Image) (volume : ApfsVolume) (blockSize : Nat)
    (omap : ObjectMap) (t : NodeTree) (c : Contents) : Prop where
  wellFormed : WellFormedFsTree xts image volume blockSize omap t
  height_le : t.height ≤ maxFstreeDepth
  distinct : t.nodes.Nodup
  records : t.records = c.map FsObject.record

/-- The image stores the contents. -/
def Holds (xts : Xts) (image : Image) (volume : ApfsVolume) (blockSize : Nat) (c : Contents) :
    Prop :=
  ∃ omap t, HoldsIn xts image volume blockSize omap t c

/-! ### The records of one object -/

theorem filterMap_eq_of_filter {α β : Type} {p : α → Bool} {f : α → Option β} {l l' : List α}
    (hf : ∀ a, p a = false → f a = none) (h : l.filter p = l'.filter p) :
    l.filterMap f = l'.filterMap f := by
  have hfilter : ∀ l : List α, l.filterMap f = (l.filter p).filterMap f := by
    intro l
    rw [List.filterMap_filter]
    congr 1
    funext a
    cases hp : p a with
    | true => rw [if_pos rfl]
    | false => rw [hf a hp]; rfl
  rw [hfilter, h, ← hfilter]

section Walks

variable {xts : Xts} {image : Image} {volume : ApfsVolume} {blockSize : Nat} {c : Contents}

/-- What a keyed walk visits of its target is what the contents have of it. -/
theorem Holds.fsRecords_filter (h : Holds xts image volume blockSize c) (target : Nat) :
    ∃ keyed, fsRecords xts image volume blockSize (some target) = .ok keyed ∧
      keyed.filter (fun e => jkeyOid e.key = target)
        = (c.map FsObject.record).filter (fun e => jkeyOid e.key = target) := by
  obtain ⟨omap, t, hin⟩ := h
  have hfresh : Fresh id t.nodes ([] : List Nat) := by
    rw [fresh_iff, List.map_id]
    exact ⟨hin.distinct, by simp⟩
  have hcovers := Tree.Bracketed.covers (keepChild (some target))
    (fun e => decide (jkeyOid e.key = target))
    (fun _ _ _ hdrop hlo hhi => jkeyOid_ne_of_keepChild hdrop hlo hhi) t hin.wellFormed.ranges
  obtain ⟨hwalk, hsame⟩ := guardedWalk_prune
    (fetchVirtual xts image omap volume.vek volume.xid blockSize) id
    (.err (.cycleGuard maxFstreeDepth)) hin.wellFormed.stored hcovers hin.height_le hfresh
    (fun (es : List Entry) e => es ++ [⟨e.key, e.value⟩]) []
  refine ⟨(t.prune (keepChild (some target))).records, ?_, hin.records ▸ hsame⟩
  rw [fsRecords, walkFsTree, hin.wellFormed.omap_ok, ok_bind, descendVirtual_eq_guardedWalk,
    ← hin.wellFormed.root]
  simp only [foldl_snoc, List.nil_append] at hwalk
  unfold fetchPruned
  rw [hwalk]
  rfl

/-- **A decoder of one object sees the contents.** -/
theorem Holds.filterMap_fsRecords {α : Type} (h : Holds xts image volume blockSize c)
    {target : Nat} {f : Entry → Option α} (hf : ∀ e, jkeyOid e.key ≠ target → f e = none) :
    ∃ keyed, fsRecords xts image volume blockSize (some target) = .ok keyed ∧
      keyed.filterMap f = c.filterMap (fun o => f o.record) := by
  obtain ⟨keyed, hwalk, hsame⟩ := h.fsRecords_filter target
  refine ⟨keyed, hwalk, ?_⟩
  rw [filterMap_eq_of_filter (fun e he => hf e (by simpa using he)) hsame, List.filterMap_map]
  rfl

end Walks

/-! ### What the decoders make of a written record -/

namespace FsObject

theorem dirEntryOf_record (dir : Nat) (o : FsObject) : dirEntryOf dir o.record
    = match o with
      | .drec r _ _ => if r.parent = dir then some r.entry else none
      | _ => none := by
  rw [dirEntryOf, jkeyType_record, jkeyOid_record]
  cases o with
  | drec r hashed hparent =>
    by_cases hdir : r.parent = dir
    · rw [if_pos ⟨rfl, hdir⟩, parseDirEntry_drec]
      simp only [if_pos hdir]
    · rw [if_neg (fun h => hdir h.2)]
      simp only [if_neg hdir]
  | other type oid rest value htype hoid hother =>
    exact if_neg fun h => (fromU4_other hother).2.2.2 h.1
  | _ => exact if_neg fun h => absurd h.1 (by simp [FsObject.type, RecordType.fromU4])

theorem inodeValueOf_record (oid : Nat) (o : FsObject) :
    (inodeValueOf oid o.record).map (Inode.parse oid)
      = match o with
        | .inode r => if r.inode.oid = oid then some r.inode else none
        | _ => none := by
  rw [inodeValueOf, jkeyType_record, jkeyOid_record]
  cases o with
  | inode r =>
    by_cases hoid : r.inode.oid = oid
    · rw [if_pos ⟨rfl, hoid⟩]
      simp only [if_pos hoid]
      rw [← hoid]
      exact congrArg some r.parse_inode
    · rw [if_neg (fun h => hoid h.2)]
      simp only [if_neg hoid]
      rfl
  | other type oid rest value htype hoid hother =>
    rw [if_neg fun h => (fromU4_other hother).1 h.1]
    rfl
  | _ =>
    rw [if_neg fun h => absurd h.1 (by simp [FsObject.type, RecordType.fromU4])]
    rfl

theorem xattrOf_record (oid : Nat) (o : FsObject) : xattrOf oid o.record
    = match o with
      | .xattr r => if r.oid = oid then some r.xattr else none
      | _ => none := by
  rw [xattrOf, jkeyType_record, jkeyOid_record]
  cases o with
  | xattr r =>
    by_cases hoid : r.oid = oid
    · rw [if_pos ⟨rfl, hoid⟩]
      simp only [if_pos hoid]
      exact r.parse_xattr
    · rw [if_neg (fun h => hoid h.2)]
      simp only [if_neg hoid]
  | other type oid rest value htype hoid hother =>
    exact if_neg fun h => (fromU4_other hother).2.1 h.1
  | _ => exact if_neg fun h => absurd h.1 (by simp [FsObject.type, RecordType.fromU4])

/-- The extent that a record of the stream describes. -/
def extentOf (stream : Nat) (record : Entry) : Option FileExtent :=
  if jkeyType record.key = some .fileExtent ∧ jkeyOid record.key = stream then
    some (decodeFileExtent record.key record.value)
  else none

theorem fileExtents_eq (stream : Nat) (records : List Entry) :
    fileExtents stream records = records.filterMap (extentOf stream) := by
  rw [fileExtents, ← List.filterMap_eq_map, List.filterMap_filter]
  congr 1
  funext e
  rw [extentOf]
  by_cases hkey : jkeyType e.key = some .fileExtent ∧ jkeyOid e.key = stream
  · rw [if_pos hkey, if_pos (by simpa using hkey)]
    rfl
  · rw [if_neg hkey, if_neg (by simpa using hkey)]

theorem extentOf_record (stream : Nat) (o : FsObject) : extentOf stream o.record
    = match o with
      | .extent r => if r.stream = stream then some r.extent else none
      | _ => none := by
  rw [extentOf, jkeyType_record, jkeyOid_record]
  cases o with
  | extent r =>
    by_cases hstream : r.stream = stream
    · rw [if_pos ⟨rfl, hstream⟩]
      simp only [if_pos hstream]
      exact congrArg some r.decode_extent
    · rw [if_neg (fun h => hstream h.2)]
      simp only [if_neg hstream]
  | other type oid rest value htype hoid hother =>
    exact if_neg fun h => (fromU4_other hother).2.2.1 h.1
  | _ => exact if_neg fun h => absurd h.1 (by simp [FsObject.type, RecordType.fromU4])

end FsObject

/-! ### Navigation -/

section Navigation

variable {xts : Xts} {image : Image} {volume : ApfsVolume} {blockSize : Nat} {c : Contents}

theorem Holds.listDir (h : Holds xts image volume blockSize c) (dir : Nat) :
    listDir xts image volume blockSize dir = .ok (c.entries dir) := by
  obtain ⟨keyed, hwalk, hsame⟩ := h.filterMap_fsRecords (f := dirEntryOf dir)
    (fun e he => if_neg fun hkey => he hkey.2)
  rw [listDir_eq, hwalk, Except.map, hsame]
  simp only [FsObject.dirEntryOf_record]
  rfl

theorem Holds.lookupChild (h : Holds xts image volume blockSize c) (dir : Nat) (name : String) :
    lookupChild xts image volume blockSize dir name = .ok (c.child dir name) := by
  rw [lookupChild_eq, h.listDir]
  rfl

theorem Holds.loadInode (h : Holds xts image volume blockSize c) (oid : Nat) :
    loadInode xts image volume blockSize oid
      = match c.inode oid with
        | none => .error (.err (.omapUnresolved oid volume.xid))
        | some inode => .ok inode := by
  obtain ⟨keyed, hwalk, hsame⟩ := h.filterMap_fsRecords (f := inodeValueOf oid)
    (fun e he => if_neg fun hkey => he hkey.2)
  have hfirst : (keyed.findSome? (inodeValueOf oid)).map (Inode.parse oid) = c.inode oid := by
    rw [← List.head?_filterMap, hsame, List.head?_filterMap, List.map_findSome?]
    simp only [Function.comp_def, FsObject.inodeValueOf_record]
    rfl
  rw [loadInode_eq, hwalk, ok_bind, ← hfirst]
  cases keyed.findSome? (inodeValueOf oid) <;> rfl

theorem Holds.listXattrs (h : Holds xts image volume blockSize c) (oid : Nat) :
    listXattrs xts image volume blockSize oid = .ok (c.xattrs oid) := by
  obtain ⟨keyed, hwalk, hsame⟩ := h.filterMap_fsRecords (f := xattrOf oid)
    (fun e he => if_neg fun hkey => he hkey.2)
  rw [listXattrs_eq, hwalk, Except.map, xattrsOf, hsame]
  simp only [FsObject.xattrOf_record]
  rfl

theorem Holds.getXattr (h : Holds xts image volume blockSize c) (oid : Nat) (name : String) :
    getXattr xts image volume blockSize oid name = .ok (c.xattr oid name) := by
  rw [ApfsForensic.getXattr, h.listXattrs]
  rfl

theorem Holds.symlinkTarget (h : Holds xts image volume blockSize c) (oid : Nat) :
    symlinkTarget xts image volume blockSize oid = .ok (c.symlink oid) := by
  rw [ApfsForensic.symlinkTarget, h.getXattr, ok_bind, Contents.symlink]
  rcases c.xattr oid xattrNameSymlink with _ | _ | _ <;> rfl

theorem Holds.listExtents (h : Holds xts image volume blockSize c) (stream : Nat) :
    listExtents xts image volume blockSize stream
      = .ok ((c.extents stream).insertionSort
          (fun a b => a.logicalOffset ≤ b.logicalOffset)) := by
  obtain ⟨keyed, hwalk, hsame⟩ := h.filterMap_fsRecords (f := FsObject.extentOf stream)
    (fun e he => if_neg fun hkey => he hkey.2)
  rw [listExtents_eq, hwalk, Except.map, FsObject.fileExtents_eq, hsame]
  simp only [FsObject.extentOf_record]
  rfl

/-- **Navigation computes what the volume holds.**  On every image that stores the contents, in
an fs-tree of any shape and with either form of the directory keys, the functions of
navigation return what the list of records says. -/
theorem navigation_refines (h : Holds xts image volume blockSize c) :
    (∀ dir, listDir xts image volume blockSize dir = .ok (c.entries dir)) ∧
    (∀ dir name, lookupChild xts image volume blockSize dir name = .ok (c.child dir name)) ∧
    (∀ oid, loadInode xts image volume blockSize oid
      = match c.inode oid with
        | none => .error (.err (.omapUnresolved oid volume.xid))
        | some inode => .ok inode) ∧
    (∀ oid name, getXattr xts image volume blockSize oid name = .ok (c.xattr oid name)) ∧
    (∀ oid, symlinkTarget xts image volume blockSize oid = .ok (c.symlink oid)) ∧
    ∀ stream, listExtents xts image volume blockSize stream
      = .ok ((c.extents stream).insertionSort (fun a b => a.logicalOffset ≤ b.logicalOffset)) :=
  ⟨h.listDir, h.lookupChild, h.loadInode, h.getXattr, h.symlinkTarget, h.listExtents⟩

theorem Holds.follows_iff (h : Holds xts image volume blockSize c) {names : List String}
    {dir oid : Nat} :
    Follows (ApfsForensic.lookupChild xts image volume blockSize) dir names oid ↔
      Follows c.graph dir names oid := by
  have hstep : ∀ dir name child,
      ApfsForensic.lookupChild xts image volume blockSize dir name = .ok (some child) ↔
        ∃ oid, c.graph dir name = .ok (some oid) ∧ id oid = child := by
    intro dir name child
    rw [h.lookupChild]
    simp [Contents.graph]
  have hmap : Follows (ApfsForensic.lookupChild xts image volume blockSize) dir (names.map id) oid ↔
      ∃ found, Follows c.graph dir names found ∧ id found = oid :=
    follows_map_iff (g := id) hstep
  rw [List.map_id] at hmap
  simpa using hmap

theorem Holds.openPath_eq_ok_iff (h : Holds xts image volume blockSize c) {path : String}
    {inode : Inode} :
    openPath xts image volume blockSize (pathComponents path) = .ok inode ↔
      ∃ oid, Follows c.graph rootDirInoNum (pathNames path) oid ∧ c.inode oid = some inode := by
  rw [ApfsForensic.openPath_eq_ok_iff]
  refine exists_congr fun oid => and_congr h.follows_iff ?_
  rw [h.loadInode]
  cases c.inode oid <;> simp

/-- **Paths.**  `open_path` returns the inode that the names of the path lead to in the
directories of the volume.  It fails in two cases, with the oid it has come to: a directory
has no entry of the next name, or the last oid has no inode. -/
theorem open_path_follows (h : Holds xts image volume blockSize c) (path : String) :
    (∀ inode, openPath xts image volume blockSize (pathComponents path) = .ok inode ↔
      ∃ oid, Follows c.graph rootDirInoNum (pathNames path) oid ∧ c.inode oid = some inode) ∧
    ∀ f, openPath xts image volume blockSize (pathComponents path) = .error f ↔
      ∃ oid, f = .err (.omapUnresolved oid volume.xid) ∧
        ((∃ followed name rest, pathNames path = followed ++ name :: rest ∧
            Follows c.graph rootDirInoNum followed oid ∧ c.child oid name = none) ∨
          Follows c.graph rootDirInoNum (pathNames path) oid ∧ c.inode oid = none) := by
  refine ⟨fun inode => h.openPath_eq_ok_iff, fun f => ?_⟩
  rw [openPath_eq, bind_eq_error_iff, followAll_eq_error_iff]
  simp only [followAll_eq_ok_iff, h.follows_iff, h.lookupChild, h.loadInode]
  constructor
  · rintro (⟨followed, name, rest, oid, hnames, hfollows, hend⟩ | ⟨oid, hfollows, hload⟩)
    · obtain hfail | ⟨hnone, rfl⟩ := hend
      · cases hfail
      · exact ⟨oid, rfl, .inl ⟨followed, name, rest, hnames, hfollows, Except.ok.inj hnone⟩⟩
    · cases hinode : c.inode oid with
      | none =>
        rw [hinode] at hload
        exact ⟨oid, (Except.error.inj hload).symm, .inr ⟨hfollows, hinode⟩⟩
      | some inode => rw [hinode] at hload; cases hload
  · rintro ⟨oid, rfl, ⟨followed, name, rest, hnames, hfollows, hchild⟩ | ⟨hfollows, hinode⟩⟩
    · exact .inl ⟨followed, name, rest, oid, hnames, hfollows, .inr ⟨congrArg _ hchild, rfl⟩⟩
    · exact .inr ⟨oid, hfollows, by rw [hinode]⟩

end Navigation

/-! ### A small volume

Directory `2` has the directory `5` in it, and that one the file `6`, whose name has two
bytes to a character.  The directory records have keys of both forms.  The file has a
symbolic link's target for an attribute, a hole and an encrypted extent. -/

/-- An inode with its extended fields. -/
def inodeWith (inode : Inode) (xfields : Bytes) (h : inode.InRange)
    (hname : inode.name = (lastXfield 4 (parseXfields xfields)).map decodeCstr)
    (hsize : inode.size = (lastXfield 8 (parseXfields xfields)).map (fun data => leU64 data 0)) :
    InodeRecord where
  inode := inode
  protection := List.replicate 8 0
  reserved := List.replicate 10 0
  xfields := xfields
  inRange := h
  length_protection := rfl
  length_reserved := rfl
  name_eq := hname
  size_eq := hsize

def topInode : InodeRecord :=
  inodeWith ⟨2, 1, 2, 1, 2, 3, 4, 0, -1, 0, 501, 20, 0x41ed, none, none⟩ []
    (by constructor <;> decide) (by decide) (by decide)

def lettersInode : InodeRecord :=
  inodeWith ⟨5, 2, 5, 1, 2, 3, 4, 0, 1, 0, 501, 20, 0x41ed, none, none⟩ []
    (by constructor <;> decide) (by decide) (by decide)

/-- The file, with its size in a data-stream field. -/
def letterInode : InodeRecord :=
  inodeWith ⟨6, 5, 7, 1, 2, 3, 4, 0, 1, 0, 501, 20, 0x81a4, none, some 1300⟩
    (toLeBytes 2 1 ++ toLeBytes 2 40 ++ [8, 0] ++ toLeBytes 2 40 ++ toLeBytes 8 1300 ++
      List.replicate 32 0)
    (by constructor <;> decide) (by decide +kernel) (by decide +kernel)

def lettersEntry : DrecRecord where
  parent := 2
  hash := 0x2f0156
  entry := ⟨"letters", 5, 1, 0x8004⟩
  xfields := []
  hash_lt := by decide
  fileId_lt := by decide
  dateAdded_lt := by decide
  flags_lt := by decide
  no_nul := by decide +kernel
  length_le := by decide +kernel

def letterEntry : DrecRecord where
  parent := 5
  hash := 0
  entry := ⟨"é", 6, 1, 8⟩
  xfields := []
  hash_lt := by decide
  fileId_lt := by decide
  dateAdded_lt := by decide
  flags_lt := by decide
  no_nul := by decide +kernel
  length_le := by decide +kernel

def letterXattr : XattrRecord where
  oid := 6
  xattr := ⟨xattrNameSymlink, 2, .embedded [0x61, 0]⟩
  rest := []
  trailing := []
  oid_lt := by decide
  flags_lt := by decide
  flags_stream := by decide
  value_inRange := trivial
  length_xdata := by decide
  no_nul := by decide +kernel
  length_name := by decide +kernel

def letterExtent (ext : FileExtent)
    (h : (ext.logicalOffset < 2 ^ 64 ∧ ext.len < 2 ^ 56) ∧
      ext.physBlockNum < 2 ^ 64 ∧ ext.cryptoId < 2 ^ 64) : ExtentRecord where
  stream := 7
  extent := ext
  flags := 1
  stream_lt := by decide
  logicalOffset_lt := h.1.1
  len_lt := h.1.2
  physBlockNum_lt := h.2.1
  cryptoId_lt := h.2.2
  flags_lt := by decide

def lettersLeft : Contents :=
  [.inode topInode, .drec lettersEntry true (by decide),
    .inode lettersInode]

def lettersRight : Contents :=
  [.drec letterEntry false (by decide), .inode letterInode, .xattr letterXattr,
    .other 6 7 [] [1, 0, 0, 0] (by decide) (by decide) (by decide),
    .extent (letterExtent ⟨0, 512, 0, 0⟩ (by decide)),
    .extent (letterExtent ⟨512, 1024, 5, 9⟩ (by decide))]

/-- The leaf of directory `5` begins with its entry; its inode stands in the leaf before. -/
def lettersTree : NodeTree :=
  .index 10 (.cons (jkeyBytes 3 2) (.leaf 11 (lettersLeft.map FsObject.record))
    (.cons (jkeyBytes 9 5) (.leaf 12 (lettersRight.map FsObject.record)) .nil))

def lettersImage : Image :=
  ⟨omapBlock 512 0 1 ++
    btreeNode 512 1 1 0x7 0 [omapRecord 10 1 0 2, omapRecord 11 1 0 3, omapRecord 12 1 0 4] ++
    btreeNode 512 10 1 0x1 1 [childRecord (jkeyBytes 3 2) 11, childRecord (jkeyBytes 9 5) 12] ++
    btreeNode 512 11 1 0x2 0 (lettersLeft.map FsObject.record) ++
    btreeNode 512 12 1 0x2 0 (lettersRight.map FsObject.record) ++
    (List.replicate 512 (7 + 9) ++ List.replicate 512 (7 + 10)), by decide +kernel⟩

def lettersVolume : ApfsVolume := (ApfsVolume.ofRoots 1 0 10 0).setVek shiftVek

theorem lettersImage_holds :
    Holds .shift lettersImage lettersVolume 512 (lettersLeft ++ lettersRight) :=
  ⟨⟨0, 0x40000002, 1, 0⟩, lettersTree,
    { wellFormed :=
        { omap_ok := by decide +kernel
          root := rfl
          stored := by decide +kernel
          ranges := by
            simp only [lettersTree, Tree.Bracketed, Forest.Bracketed]
            decide +kernel }
      height_le := by decide
      distinct := by decide
      records := rfl }⟩

theorem navigation_lettersImage :
    (listDir .shift lettersImage lettersVolume 512 2 = .ok [⟨"letters", 5, 1, 0x8004⟩] ∧
      lookupChild .shift lettersImage lettersVolume 512 5 "é" = .ok (some 6)) ∧
    (loadInode .shift lettersImage lettersVolume 512 6 = .ok letterInode.inode ∧
      symlinkTarget .shift lettersImage lettersVolume 512 6 = .ok (some "a")) ∧
    listExtents .shift lettersImage lettersVolume 512 7
      = .ok [⟨0, 512, 0, 0⟩, ⟨512, 1024, 5, 9⟩] := by
  obtain ⟨hlist, hlookup, hload, _, hlink, hexts⟩ := navigation_refines lettersImage_holds
  rw [hlist, hlookup, hload, hlink, hexts]
  decide +kernel

/-- A path to the file, and one that ends in its directory. -/
theorem open_path_lettersImage :
    openPath .shift lettersImage lettersVolume 512 (pathComponents "/letters//é")
        = .ok letterInode.inode ∧
      openPath .shift lettersImage lettersVolume 512 (pathComponents "letters/e/x")
        = .error (.err (.omapUnresolved 5 1)) := by
  have hopen := open_path_follows lettersImage_holds
  have hfile : pathNames "/letters//é" = ["letters", "é"] := by decide +kernel
  have hlost : pathNames "letters/e/x" = ["letters", "e", "x"] := by decide +kernel
  constructor
  · refine ((hopen _).1 _).mpr ⟨6, ?_, by decide +kernel⟩
    rw [hfile]
    exact .cons (b := 5) (by decide +kernel) (.cons (by decide +kernel) (.nil 6))
  · refine ((hopen _).2 _).mpr ⟨5, rfl, .inl ⟨["letters"], "e", ["x"], hlost, ?_, ?_⟩⟩
    · exact .cons (by decide +kernel) (.nil 5)
    · decide +kernel

end ApfsForensic
