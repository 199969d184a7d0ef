import ApfsForensic.Core.DirNames
import ApfsForensic.Core.Vfs
import ApfsForensic.Walk.Follow

/-!
# Navigation

`list_dir`, `lookup_child`, `load_inode` and `open_path` of `core/src/dir.rs`, and the calls
of the adapter that go through them.  They walk the fs-tree on their own, each with its own
visitor; here they are brought to the records that one walk visits, so that they can be
compared.

* `lookup_eq_listed`: for every byte string, `lookup` finds the first entry that `read_dir`
  lists under that name.
* `open_path_eq_lookups`: `open_path` and a chain of `lookup`s from the root come to the same
  node.
-/

namespace ApfsForensic

open Walk

/-! ### Visitors -/

/-- A visitor that appends what it finds collects it in order. -/
theorem foldl_eq_append_filterMap {α β : Type} {f : α → Option β} {visit : List β → α → List β}
    (hvisit : ∀ out a, visit out a = out ++ (f a).toList) :
    ∀ (l : List α) (out : List β), l.foldl visit out = out ++ l.filterMap f := by
  intro l
  induction l with
  | nil => intro out; rw [List.foldl_nil, List.filterMap_nil, List.append_nil]
  | cons a l ih =>
    intro out
    rw [List.foldl_cons, ih, hvisit, List.filterMap_cons, List.append_assoc]
    cases f a <;> rfl

/-- A visitor that keeps its first find. -/
theorem foldl_eq_or_findSome? {α β : Type} {f : α → Option β} {visit : Option β → α → Option β}
    (hvisit : ∀ found a, visit found a = found.or (f a)) :
    ∀ (l : List α) (found : Option β), l.foldl visit found = found.or (l.findSome? f) := by
  intro l
  induction l with
  | nil => intro found; rw [List.foldl_nil, List.findSome?_nil, Option.or_none]
  | cons a l ih =>
    intro found
    rw [List.foldl_cons, ih, hvisit, List.findSome?_cons, Option.or_assoc]
    cases f a <;> rfl

/-- The entry that a record of the directory describes. -/
def dirEntryOf (parentOid : Nat) (record : Entry) : Option DirEntry :=
  if jkeyType record.key = some .dirRec ∧ jkeyOid record.key = parentOid then
    parseDirEntry record.key record.value
  else none

/-- The value of the record, if it is the inode. -/
def inodeValueOf (oid : Nat) (record : Entry) : Option Bytes :=
  if jkeyType record.key = some .inode ∧ jkeyOid record.key = oid then some record.value else none

/-- The first entry of a name, as the walk of `lookup_child` sees it. -/
theorem findSome?_named (parentOid : Nat) (name : String) (records : List Entry) :
    records.findSome? (fun e =>
        ((dirEntryOf parentOid e).filter (fun d => d.name = name)).map DirEntry.fileId)
      = ((records.filterMap (dirEntryOf parentOid)).find? (fun d => d.name = name)).map
          DirEntry.fileId := by
  induction records with
  | nil => rfl
  | cons e records ih =>
    rw [List.findSome?_cons, ih, List.filterMap_cons]
    cases dirEntryOf parentOid e with
    | none => rfl
    | some d =>
      by_cases hname : d.name = name
      · simp [hname, Option.filter_some]
      · simp [hname, Option.filter_some]

section Core

variable (xts : Xts) (image : Image) (volume : ApfsVolume) (blockSize : Nat)

theorem listDir_eq (parentOid : Nat) : listDir xts image volume blockSize parentOid
    = (fsRecords xts image volume blockSize (some parentOid)).map
        (List.filterMap (dirEntryOf parentOid)) := by
  rw [listDir, forEachFsRecordForOid, walkFsTree_eq]
  refine congrArg (Except.map · _) (funext fun records => ?_)
  refine (foldl_eq_append_filterMap (f := dirEntryOf parentOid) ?_ records []).trans
    (List.nil_append _)
  intro out e
  rw [dirEntryOf]
  by_cases hkey : jkeyType e.key = some .dirRec ∧ jkeyOid e.key = parentOid
  · rw [if_neg (by simp [hkey.1, hkey.2]), if_pos hkey]
    cases parseDirEntry e.key e.value with
    | none => exact (List.append_nil out).symm
    | some d => rfl
  · rw [if_pos (by rwa [ne_eq, ne_eq, ← not_and_or]), if_neg hkey]
    exact (List.append_nil out).symm

/-- `lookup_child` is the first entry of that name in the listing. -/
theorem lookupChild_eq (parentOid : Nat) (name : String) :
    lookupChild xts image volume blockSize parentOid name
      = (listDir xts image volume blockSize parentOid).map (fun entries =>
          (entries.find? (fun d => d.name = name)).map DirEntry.fileId) := by
  rw [listDir_eq, lookupChild, forEachFsRecordForOid, walkFsTree_eq]
  cases fsRecords xts image volume blockSize (some parentOid) with
  | error f => rfl
  | ok records =>
    refine congrArg Except.ok (Eq.trans ?_ (findSome?_named parentOid name records))
    refine (foldl_eq_or_findSome? (f := fun e =>
      ((dirEntryOf parentOid e).filter (fun d => d.name = name)).map DirEntry.fileId) ?_ records
      none).trans (Option.none_or ..)
    intro found e
    cases found with
    | some oid => rfl
    | none =>
      rw [Option.none_or, dirEntryOf]
      by_cases hkey : jkeyType e.key = some .dirRec ∧ jkeyOid e.key = parentOid
      · rw [if_neg (by simp), if_neg (by simp [hkey.1, hkey.2]), if_pos hkey]
        cases parseDirEntry e.key e.value with
        | none => rfl
        | some d => by_cases hname : d.name = name <;> simp [hname, Option.filter_some]
      · rw [if_neg (by simp), if_pos (by rwa [ne_eq, ne_eq, ← not_and_or]), if_neg hkey]
        rfl

theorem loadInode_eq (oid : Nat) : loadInode xts image volume blockSize oid
    = fsRecords xts image volume blockSize (some oid) >>= fun records =>
        match records.findSome? (inodeValueOf oid) with
        | none => .error (.err (.omapUnresolved oid volume.xid))
        | some value => .ok (Inode.parse oid value) := by
  rw [loadInode, forEachFsRecordForOid, walkFsTree_eq]
  cases fsRecords xts image volume blockSize (some oid) with
  | error f => rfl
  | ok records =>
    have hfold := @foldl_eq_or_findSome? _ _ (inodeValueOf oid) (fun value e =>
      if value.isSome then value
      else if jkeyType e.key = some .inode ∧ jkeyOid e.key = oid then some e.value else value)
      (fun found e => by cases found <;> rfl) records none
    rw [Option.none_or] at hfold
    simp only [Except.map, ok_bind, hfold]
    cases records.findSome? (inodeValueOf oid) <;> rfl

end Core

/-! ### Paths -/

/-- The components of a path that name something. -/
def pathNames (path : String) : List String := (pathComponents path).filter (· ≠ "")

section Paths

variable (xts : Xts) (image : Image) (volume : ApfsVolume) (blockSize : Nat)

/-- What `open_path` reports at a directory without the name it looks for. -/
def missingIn (dir : Nat) : Fault := .err (.omapUnresolved dir volume.xid)

theorem openPath_eq (path : String) : openPath xts image volume blockSize (pathComponents path)
    = followAll (lookupChild xts image volume blockSize) (missingIn volume) rootDirInoNum
        (pathNames path) >>= loadInode xts image volume blockSize := by
  -- the loop of `open_path`, one component after the other
  refine congrArg (fun round => List.foldlM round rootDirInoNum (pathNames path) >>= fun current =>
    loadInode xts image volume blockSize current) (funext fun current => funext fun component => ?_)
  rw [followOne]
  rcases lookupChild xts image volume blockSize current component with f | _ | child <;> rfl

theorem openPath_eq_ok_iff {path : String} {inode : Inode} :
    openPath xts image volume blockSize (pathComponents path) = .ok inode ↔
      ∃ oid, Follows (lookupChild xts image volume blockSize) rootDirInoNum (pathNames path) oid ∧
        loadInode xts image volume blockSize oid = .ok inode := by
  rw [openPath_eq, bind_eq_ok_iff]
  simp only [followAll_eq_ok_iff]

end Paths

/-! ### The adapter -/

theorem toList_loop (b : ByteArray) (i : Nat) (r : Bytes) :
    ByteArray.toList.loop b i r = r.reverse ++ b.data.toList.drop i := by
  have hsize : b.data.toList.length = b.size := by simp
  fun_induction ByteArray.toList.loop b i r with
  | case1 i r hi ih =>
    have hget : b.data.toList[i] = b.get! i := by
      rw [Array.getElem_toList]
      exact (getElem!_pos b.data i hi).symm
    rw [ih, List.reverse_cons, List.append_assoc, List.singleton_append, ← hget,
      ← List.drop_eq_getElem_cons (by omega)]
  | case2 i r hi => rw [List.drop_eq_nil_of_le (by omega), List.append_nil]

theorem toUTF8_toList (s : String) : s.toUTF8.toList = utf8Bytes s := toList_loop _ 0 []

/-- The bytes of a name are read as that name and no other. -/
theorem fromUTF8?_eq_some_iff {name : Bytes} {s : String} :
    String.fromUTF8? ⟨name.toArray⟩ = some s ↔ utf8Bytes s = name := by
  rw [String.fromUTF8?]
  constructor
  · intro h
    split at h
    · cases h
      rfl
    · cases h
  · intro h
    have hbytes : (⟨name.toArray⟩ : ByteArray) = s.toByteArray := by
      rw [← h]
      rfl
    rw [dif_pos (by rw [hbytes]; exact s.isValidUTF8), Option.some.injEq]
    exact String.toByteArray_inj.mp hbytes

/-- **`lookup` and `read_dir` agree.**  For every byte string, `lookup` returns the id of the
first entry that `read_dir` lists under it.  Where the listing fails so does `lookup`, with the
same error; only a name that is no UTF-8 is refused before anything is read. -/
theorem lookup_eq_listed (xts : Xts) (fs : ApfsFs) (ino : FileId) (name : Bytes) :
    fs.lookup xts ino name
      = match oidOf ino, String.fromUTF8? ⟨name.toArray⟩, fs.readDir xts ino with
        | .ok _, none, .error _ => .ok none
        | _, _, listing => listing.map (fun entries =>
            (entries.find? (fun e => e.name = name)).map VfsDirEntry.id) := by
  rw [ApfsFs.lookup, ApfsFs.readDir]
  cases oidOf ino with
  | error f => cases String.fromUTF8? ⟨name.toArray⟩ <;> rfl
  | ok parent =>
    simp only [vfs_ok_bind]
    cases hname : String.fromUTF8? ⟨name.toArray⟩ with
    | none =>
      -- every name that is listed is UTF-8
      have hnot : ∀ d : DirEntry, utf8Bytes d.name ≠ name := by
        intro d h
        rw [fromUTF8?_eq_some_iff.mpr h] at hname
        cases hname
      rcases listDir xts fs.reader fs.volume fs.blockSize parent with (e | _) | entries
      · rfl
      · rfl
      · simp only [viaVfs_ok, vfs_ok_bind, pure, Except.pure, Except.map]
        rw [List.find?_eq_none.mpr]
        · rfl
        · intro e he
          obtain ⟨d, _, rfl⟩ := List.mem_map.mp he
          rw [toUTF8_toList]
          simpa using hnot d
    | some s =>
      have hs := fromUTF8?_eq_some_iff.mp hname
      have hsame : ∀ d : DirEntry, utf8Bytes d.name = name ↔ d.name = s := by
        intro d
        rw [← fromUTF8?_eq_some_iff, hname, Option.some.injEq, eq_comm]
      simp only [lookupChild_eq]
      rcases listDir xts fs.reader fs.volume fs.blockSize parent with (e | _) | entries
      · rfl
      · rfl
      · simp only [Except.map, viaVfs_ok, vfs_ok_bind, pure, Except.pure, List.find?_map,
          Function.comp_def, toUTF8_toList, hsame, Option.map_map]

/-- A step of the adapter is a step of the core. -/
theorem fs_lookup_eq_some_iff {xts : Xts} {fs : ApfsFs} (dir : Nat) (name : String) (id : FileId) :
    fs.lookup xts (.apfsOid dir fs.rootXid) (utf8Bytes name) = .ok (some id) ↔
      ∃ child, lookupChild xts fs.reader fs.volume fs.blockSize dir name = .ok (some child) ∧
        FileId.apfsOid child fs.rootXid = id := by
  rw [ApfsFs.lookup, oidOf, vfs_ok_bind, fromUTF8?_eq_some_iff.mpr rfl]
  simp only [vfs_bind_eq_ok_iff, viaVfs_eq_ok_iff, pure, Except.pure, Except.ok.injEq,
    Option.map_eq_some_iff]
  constructor
  · rintro ⟨_, hfound, child, rfl, hid⟩
    exact ⟨child, hfound, hid⟩
  · rintro ⟨child, hfound, hid⟩
    exact ⟨some child, hfound, child, rfl, hid⟩

theorem metaOf_eq_ok_iff {xts : Xts} {fs : ApfsFs} {oid xid : Nat} {m : FsMeta} :
    fs.metaOf xts (.apfsOid oid xid) = .ok m ↔
      ∃ inode, loadInode xts fs.reader fs.volume fs.blockSize oid = .ok inode ∧
        buildMeta inode = m := by
  rw [ApfsFs.metaOf, oidOf, vfs_ok_bind, vfs_bind_eq_ok_iff]
  simp only [viaVfs_eq_ok_iff, pure, Except.pure, Except.ok.injEq]

/-- **Two ways to a node.**  For every path, the inode that `open_path` loads has the metadata
that the adapter gives for the node its names lead to, one `lookup` after the other from the
root; and where one way comes to an end, so does the other. -/
theorem open_path_eq_lookups (xts : Xts) (fs : ApfsFs) (path : String) (m : FsMeta) :
    (∃ inode, openPath xts fs.reader fs.volume fs.blockSize (pathComponents path) = .ok inode ∧
        buildMeta inode = m) ↔
      ∃ id, Follows (fs.lookup xts) fs.root ((pathNames path).map utf8Bytes) id ∧
        fs.metaOf xts id = .ok m := by
  have hchain : ∀ id, Follows (fs.lookup xts) fs.root ((pathNames path).map utf8Bytes) id ↔
      ∃ oid, Follows (lookupChild xts fs.reader fs.volume fs.blockSize) rootDirInoNum
        (pathNames path) oid ∧ FileId.apfsOid oid fs.rootXid = id := fun id =>
    follows_map_iff (f := fun oid => FileId.apfsOid oid fs.rootXid) (g := utf8Bytes)
      fs_lookup_eq_some_iff
  simp only [openPath_eq_ok_iff, hchain]
  constructor
  · rintro ⟨inode, ⟨oid, hpath, hload⟩, rfl⟩
    exact ⟨_, ⟨oid, hpath, rfl⟩, metaOf_eq_ok_iff.mpr ⟨inode, hload, rfl⟩⟩
  · rintro ⟨id, ⟨oid, hpath, rfl⟩, hmeta⟩
    obtain ⟨inode, hload, rfl⟩ := metaOf_eq_ok_iff.mp hmeta
    exact ⟨inode, ⟨oid, hpath, hload⟩, rfl⟩

end ApfsForensic
