import ApfsForensic.Core.FileIds
import ApfsForensic.Core.Panic
import ApfsForensic.Shared.Lock

/-!
# One handle for many workers

`ApfsFs` keeps its reader behind a `Mutex` and serves calls from many threads through `&self`.
A call checks its arguments, takes the lock, reads, and lets the lock go when it returns; a
call that panics inside leaves the lock poisoned.

`ApfsFs.handle` is that handle, over the library of `Shared/Lock.lean`: `early` is what a call
returns before it takes the lock, and the scripts of `Core/Reader.lean` are what it does under
it.  Workers make any calls in any number, and their steps are interleaved at every `seek` and
every `read_exact`.

* `shared_handle_serial`: whatever the interleaving, the answers are those of the calls one
  after the other.
* `shared_handle_never_poisoned`: on a mounted volume no call panics, so every call has the
  answer it has on its own, and the error of a poisoned lock never comes up.
* `shared_handle_settles`: the workers do not block each other, and they come to an end.
-/

namespace ApfsForensic

open Shared

/-- `VfsError` with its `Bootstrap` errors, and the panic. -/
inductive HandleFault where
  | vfs (f : VfsFault)
  | bootstrap (stage detail : String)
  deriving DecidableEq

abbrev HandleResult := Except HandleFault VfsAnswer

/-- The calls that read.  `read_link` and `deleted` return constants. -/
inductive HandleCall where
  | read (call : VfsCall)
  | unallocated

/-- `poisoned`. -/
def poisonedLock : HandleFault :=
  .bootstrap "apfs reader lock" "interior reader mutex poisoned"

/-- The error of `unallocated` on a container without a space manager. -/
def noSpaceman : HandleFault :=
  .bootstrap "apfs spaceman" "nx_spaceman_oid did not resolve through the checkpoint map"

/-- A result of the adapter. -/
def asHandleResult : VfsResult VfsAnswer → HandleResult
  | .ok a => .ok a
  | .error f => .error (.vfs f)

/-- The early return of a check. -/
def refusal {α : Type} : VfsResult α → Option HandleResult
  | .ok _ => none
  | .error f => some (.error (.vfs f))

namespace ApfsFs

variable (codecs : Codecs) (xts : Xts) (fs : ApfsFs)

/-- `unallocated`, on the block of the space manager. -/
def unallocated : Option Nat → HandleResult
  | none => .error noSpaceman
  | some smPaddr => asHandleResult ((fs.unallocatedAt smPaddr).map .runs)

/-- What a call returns on its own. -/
def serve : HandleCall → HandleResult
  | .read call => asHandleResult (fs.answer codecs xts call)
  | .unallocated => fs.unallocated fs.spacemanPaddr

/-- The check of `read_at`: an attribute is served before the default stream is required. -/
def refusedStream : StreamId → Option HandleResult
  | .xattr _ => none
  | .default => refusal (requireDefaultStream .default)
  | .foreign debug => refusal (requireDefaultStream (.foreign debug))

/-- What a call returns before it takes the lock. -/
def early : HandleCall → Option HandleResult
  | .read (.readDir ino) => refusal (oidOf ino)
  | .read (.extents ino stream) => (refusal (oidOf ino)).or (refusal (requireDefaultStream stream))
  | .read (.lookup parent name) =>
    (refusal (oidOf parent)).or
      (if (String.fromUTF8? ⟨name.toArray⟩).isNone then some (.ok (.found none)) else none)
  | .read (.metaOf ino) => refusal (oidOf ino)
  | .read (.dataStreams ino) => refusal (oidOf ino)
  | .read (.readAt ino stream _ _) => (refusal (oidOf ino)).or (refusedStream stream)
  | .unallocated => if fs.spacemanPaddr.isNone then some (.error noSpaceman) else none

def bodyRead (lost : Nat → Nat → Nat) :
    (call : VfsCall) → Steady (fs.reader.reader lost) (fs.answer codecs xts call)
  | .readDir ino => (Reads.readDir xts fs ino).map (Except.map VfsAnswer.entries)
  | .extents ino stream => (Reads.extents xts fs ino stream).map (Except.map VfsAnswer.runs)
  | .lookup parent name => (Reads.lookup xts fs parent name).map (Except.map VfsAnswer.found)
  | .metaOf ino => (Reads.metaOf xts fs ino).map (Except.map VfsAnswer.node)
  | .dataStreams ino => (Reads.dataStreams xts fs ino).map (Except.map VfsAnswer.streams)
  | .readAt ino stream off bufLen =>
    (Reads.readAtStream codecs xts fs ino off bufLen stream).map (Except.map VfsAnswer.bytes)

def bodyUnallocated (lost : Nat → Nat → Nat) :
    (smPaddr : Option Nat) → Steady (fs.reader.reader lost) (fs.unallocated smPaddr)
  | none => .pure _
  | some smPaddr =>
    ((Reads.unallocatedAt fs smPaddr).map (Except.map VfsAnswer.runs)).map asHandleResult

/-- What a call does under the lock. -/
def body (lost : Nat → Nat → Nat) :
    (call : HandleCall) → Steady (fs.reader.reader lost) (fs.serve codecs xts call)
  | .read call => (fs.bodyRead codecs xts lost call).map asHandleResult
  | .unallocated => fs.bodyUnallocated lost fs.spacemanPaddr

/-- The handle. -/
def handle (lost : Nat → Nat → Nat) : Handle HandleCall HandleResult where
  device := fs.reader.reader lost
  request call :=
    match fs.early call with
    | some answer => .direct answer
    | none => .locked (fs.body codecs xts lost call)
  refused := .error poisonedLock
  panicked answer := match answer with
    | .error (.vfs .panic) => true
    | _ => false

/-! ### What the handle answers -/

variable {codecs xts fs}

theorem refusal_eq_some {α : Type} {r : VfsResult α} {answer : HandleResult}
    (h : refusal r = some answer) : ∃ f, r = .error f ∧ answer = .error (.vfs f) := by
  cases r with
  | ok a => cases h
  | error f => exact ⟨f, rfl, (Option.some.inj h).symm⟩

/-- An early answer is the answer of the call. -/
theorem serve_of_early {call : HandleCall} {answer : HandleResult}
    (h : fs.early call = some answer) : answer = fs.serve codecs xts call := by
  cases call with
  | unallocated =>
    rw [early] at h
    rw [serve]
    cases hsm : fs.spacemanPaddr with
    | none => rw [hsm] at h; exact (Option.some.inj h).symm
    | some smPaddr => rw [hsm] at h; cases h
  | read call =>
    cases call with
    | readDir ino =>
      obtain ⟨f, hf, rfl⟩ := refusal_eq_some h
      rw [serve, ApfsFs.answer, ApfsFs.readDir, hf]
      rfl
    | metaOf ino =>
      obtain ⟨f, hf, rfl⟩ := refusal_eq_some h
      rw [serve, ApfsFs.answer, ApfsFs.metaOf, hf]
      rfl
    | dataStreams ino =>
      obtain ⟨f, hf, rfl⟩ := refusal_eq_some h
      rw [serve, ApfsFs.answer, ApfsFs.dataStreams, hf]
      rfl
    | extents ino stream =>
      rw [early, Option.or_eq_some_iff] at h
      rw [serve, ApfsFs.answer, ApfsFs.extents]
      obtain h | ⟨hnode, h⟩ := h
      · obtain ⟨f, hf, rfl⟩ := refusal_eq_some h
        rw [hf]
        rfl
      · obtain ⟨f, hf, rfl⟩ := refusal_eq_some h
        cases ino with
        | foreign debug => cases hnode
        | apfsOid oid xid => rw [hf]; rfl
    | lookup parent name =>
      rw [early, Option.or_eq_some_iff] at h
      rw [serve, ApfsFs.answer, ApfsFs.lookup]
      obtain h | ⟨hnode, h⟩ := h
      · obtain ⟨f, hf, rfl⟩ := refusal_eq_some h
        rw [hf]
        rfl
      · cases parent with
        | foreign debug => cases hnode
        | apfsOid oid xid =>
          cases hname : String.fromUTF8? ⟨name.toArray⟩ with
          | none => rw [hname] at h; exact (Option.some.inj h).symm
          | some s => rw [hname] at h; cases h
    | readAt ino stream off bufLen =>
      rw [early, Option.or_eq_some_iff] at h
      rw [serve, ApfsFs.answer, ApfsFs.readAt]
      obtain h | ⟨hnode, h⟩ := h
      · obtain ⟨f, hf, rfl⟩ := refusal_eq_some h
        rw [hf]
        rfl
      · cases ino with
        | foreign debug => cases hnode
        | apfsOid oid xid =>
          cases stream with
          | default => cases h
          | xattr idx => cases h
          | foreign debug => exact (Option.some.inj h).symm

theorem refusal_ne_panic {α : Type} {r : VfsResult α} (hr : r ≠ .error .panic)
    {answer : HandleResult} (h : refusal r = some answer) : answer ≠ .error (.vfs .panic) := by
  obtain ⟨f, hf, rfl⟩ := refusal_eq_some h
  intro hpanic
  cases hpanic
  exact hr hf

theorem oidOf_ne_panic (ino : FileId) : oidOf ino ≠ .error .panic := by
  cases ino <;> nofun

theorem requireDefaultStream_ne_panic (stream : StreamId) :
    requireDefaultStream stream ≠ .error .panic := by
  cases stream <;> nofun

/-- Nothing panics before the lock is taken. -/
theorem early_ne_panic {call : HandleCall} {answer : HandleResult}
    (h : fs.early call = some answer) : answer ≠ .error (.vfs .panic) := by
  cases call with
  | unallocated =>
    rw [early] at h
    split at h
    · cases h
      nofun
    · cases h
  | read call =>
    cases call with
    | readDir ino => exact refusal_ne_panic (oidOf_ne_panic ino) h
    | metaOf ino => exact refusal_ne_panic (oidOf_ne_panic ino) h
    | dataStreams ino => exact refusal_ne_panic (oidOf_ne_panic ino) h
    | extents ino stream =>
      obtain h | ⟨_, h⟩ := Option.or_eq_some_iff.mp h
      · exact refusal_ne_panic (oidOf_ne_panic ino) h
      · exact refusal_ne_panic (requireDefaultStream_ne_panic stream) h
    | lookup parent name =>
      obtain h | ⟨_, h⟩ := Option.or_eq_some_iff.mp h
      · exact refusal_ne_panic (oidOf_ne_panic parent) h
      · split at h
        · cases h
          nofun
        · cases h
    | readAt ino stream off bufLen =>
      obtain h | ⟨_, h⟩ := Option.or_eq_some_iff.mp h
      · exact refusal_ne_panic (oidOf_ne_panic ino) h
      · cases stream with
        | xattr idx => cases h
        | default => exact refusal_ne_panic (requireDefaultStream_ne_panic .default) h
        | foreign debug =>
          exact refusal_ne_panic (requireDefaultStream_ne_panic (.foreign debug)) h

/-- With a clean lock the handle answers what the call returns on its own. -/
theorem answer_handle (lost : Nat → Nat → Nat) (call : HandleCall) :
    (fs.handle codecs xts lost).answer false call = fs.serve codecs xts call := by
  rw [Handle.answer]
  simp only [handle]
  cases hearly : fs.early call with
  | none => rfl
  | some answer => exact serve_of_early hearly

/-! ### Mounted volumes do not panic -/

theorem asHandleResult_ne_panic {r : VfsResult VfsAnswer} (h : r ≠ .error .panic) :
    asHandleResult r ≠ .error (.vfs .panic) := by
  rcases r with f | a
  · intro hpanic
    cases hpanic
    exact h rfl
  · nofun

theorem map_ne_panic {α : Type} {wrap : α → VfsAnswer} {r : VfsResult α}
    (h : r ≠ .error .panic) : r.map wrap ≠ .error .panic := by
  rcases r with f | a
  · intro hpanic
    exact h (congrArg Except.error (Except.error.inj hpanic))
  · nofun

theorem viaVfs_ne_panic {α : Type} {r : Result α} (h : NoPanic r) : viaVfs r ≠ .error .panic := by
  rcases r with (e | _) | a
  · nofun
  · exact absurd rfl h
  · nofun

theorem vfs_bind_ne_panic {α β : Type} {x : VfsResult α} {f : α → VfsResult β}
    (hx : x ≠ .error .panic) (hf : ∀ a, f a ≠ .error .panic) : (x >>= f) ≠ .error .panic := by
  rcases x with e | a
  · intro h
    exact hx (congrArg Except.error (Except.error.inj h))
  · exact hf a

/-- The calls do not panic on a volume without a key, if the decoders do not. -/
theorem serve_ne_panic (hcodecs : codecs.Returns) (hvek : fs.volume.vek = none)
    (hbs : fs.blockSize ≠ 0) (call : HandleCall) :
    fs.serve codecs xts call ≠ .error (.vfs .panic) := by
  have hinode : ∀ node,
      viaVfs (loadInode xts fs.reader fs.volume fs.blockSize node) ≠ .error .panic :=
    fun node => viaVfs_ne_panic (noPanic_loadInode xts hvek node)
  have hwalk : ∀ {σ : Type} (target : Option Nat) (visit : σ → Bytes → Bytes → σ) (acc : σ),
      viaVfs (walkFsTree xts fs.reader fs.volume fs.blockSize target visit acc)
        ≠ .error .panic :=
    fun target visit acc => viaVfs_ne_panic (noPanic_walkFsTree xts hvek target visit acc)
  cases call with
  | unallocated =>
    rw [serve]
    cases fs.spacemanPaddr with
    | none => nofun
    | some smPaddr =>
      exact asHandleResult_ne_panic (map_ne_panic (vfs_bind_ne_panic
        (viaVfs_ne_panic (noPanic_freeBlockRuns smPaddr)) fun _ => nofun))
  | read call =>
    refine asHandleResult_ne_panic ?_
    cases call with
    | readDir ino =>
      exact map_ne_panic (vfs_bind_ne_panic (oidOf_ne_panic ino) fun parent =>
        vfs_bind_ne_panic (hwalk _ _ _) fun _ => nofun)
    | metaOf ino =>
      exact map_ne_panic (vfs_bind_ne_panic (oidOf_ne_panic ino) fun node =>
        vfs_bind_ne_panic (hinode node) fun _ => nofun)
    | dataStreams ino =>
      exact map_ne_panic (vfs_bind_ne_panic (oidOf_ne_panic ino) fun node =>
        vfs_bind_ne_panic (hinode node) fun _ => vfs_bind_ne_panic (hwalk _ _ _) fun _ => nofun)
    | extents ino stream =>
      refine map_ne_panic (vfs_bind_ne_panic (oidOf_ne_panic ino) fun node =>
        vfs_bind_ne_panic (requireDefaultStream_ne_panic stream) fun _ =>
        vfs_bind_ne_panic (hinode node) fun inode => vfs_bind_ne_panic ?_ fun _ => nofun)
      exact viaVfs_ne_panic (noPanic_listExtents xts hvek inode.privateId)
    | lookup parent name =>
      refine map_ne_panic (vfs_bind_ne_panic (oidOf_ne_panic parent) fun parent => ?_)
      cases String.fromUTF8? ⟨name.toArray⟩ with
      | none => nofun
      | some name => exact vfs_bind_ne_panic (hwalk _ _ _) fun _ => nofun
    | readAt ino stream off bufLen =>
      refine map_ne_panic (vfs_bind_ne_panic (oidOf_ne_panic ino) fun node => ?_)
      cases stream with
      | foreign debug => nofun
      | default =>
        exact vfs_bind_ne_panic (hinode node) fun inode => vfs_bind_ne_panic
          (viaVfs_ne_panic (noPanic_readData hcodecs xts hvek hbs inode)) fun _ => nofun
      | xattr idx =>
        refine vfs_bind_ne_panic (hwalk _ _ _) fun list => ?_
        cases list[idx]? with
        | none => nofun
        | some x =>
          exact vfs_bind_ne_panic (viaVfs_ne_panic
            (noPanic_readXattrValue xts hvek hbs x.value)) fun _ => nofun

/-- What `open` has of a volume: a block size in range, and no key. -/
theorem of_openFirstVolume {image : Image} {volume : ApfsVolume} {blockSize : Nat}
    {spacemanPaddr : Option Nat}
    (h : openFirstVolume image = .ok (volume, blockSize, spacemanPaddr)) :
    volume.vek = none ∧ blockSize ≠ 0 := by
  simp only [openFirstVolume, bind_eq_ok_iff] at h
  obtain ⟨container, hopen, addrs, haddrs, h⟩ := h
  have hrange : container.superblock.blockSizeInRange = true := by
    rw [ApfsContainer.volumeSuperblockAddrs] at haddrs
    by_contra hnot
    rw [if_pos (by simpa using hnot)] at haddrs
    cases haddrs
  cases hhead : addrs.head? with
  | none => rw [hhead] at h; cases h
  | some vaddr =>
    rw [hhead] at h
    simp only [bind_eq_ok_iff] at h
    obtain ⟨buf, _, parsed, hparse, h⟩ := h
    cases h
    have hle := (blockSizeInRange_iff.mp hrange).1
    unfold nxMinimumBlockSize at hle
    exact ⟨ApfsVolume.parse_vek hparse, by omega⟩

/-- A mounted volume has a block size and no key. -/
theorem MountOf.plain {image : Image} (h : fs.MountOf image) :
    fs.volume.vek = none ∧ fs.blockSize ≠ 0 := by
  rcases h with h | ⟨xid, h⟩
  · rw [openLive, bind_eq_ok_iff] at h
    obtain ⟨⟨volume, blockSize, spacemanPaddr⟩, hfirst, h⟩ := h
    cases h
    exact of_openFirstVolume hfirst
  · rw [openSnapshot, bind_eq_ok_iff] at h
    obtain ⟨⟨live, blockSize, spacemanPaddr⟩, hfirst, h⟩ := h
    have hplain := of_openFirstVolume hfirst
    by_cases hlive : xid = live.xid
    · simp only [if_pos hlive] at h
      cases h
      exact hplain
    · simp only [if_neg hlive, bind_eq_ok_iff] at h
      obtain ⟨snaps, _, h⟩ := h
      cases hfind : snaps.find? (fun s => s.xid = xid) with
      | none => rw [hfind] at h; cases h
      | some snapshot =>
        rw [hfind] at h
        simp only [bind_eq_ok_iff] at h
        obtain ⟨volume, hmount, h⟩ := h
        cases h
        simp only [mountSnapshot, bind_eq_ok_iff] at hmount
        obtain ⟨buf, _, frozen, hparse, hmount⟩ := hmount
        cases hmount
        refine ⟨?_, hplain.2⟩
        rw [ApfsVolume.withOmapOid_vek, ApfsVolume.parse_vek hparse]

end ApfsFs

/-! ### All interleavings -/

section Workers

variable {W : Type} [DecidableEq W] {codecs : Codecs} {xts : Xts} {fs : ApfsFs}
variable {lost : Nat → Nat → Nat} {position : Nat} {jobs : W → List HandleCall}
variable {S : State W (fs.handle codecs xts lost)}

theorem panicked_iff {answer : HandleResult} :
    (fs.handle codecs xts lost).panicked answer = true ↔ answer = .error (.vfs .panic) := by
  constructor
  · intro h
    simp only [ApfsFs.handle] at h
    split at h
    · rfl
    · cases h
  · rintro rfl
    rfl

/-- No check and no refusal is a panic. -/
theorem panicsInside_handle : (fs.handle codecs xts lost).PanicsInside where
  direct call answer hreq := by
    simp only [ApfsFs.handle] at hreq
    cases hearly : fs.early call with
    | none => rw [hearly] at hreq; cases hreq
    | some answer =>
      rw [hearly] at hreq
      cases hreq
      rw [← Bool.not_eq_true, panicked_iff]
      exact ApfsFs.early_ne_panic hearly
  refused := rfl

/-- What the handle answers when its lock is poisoned: what is known without it. -/
theorem answer_poisoned (call : HandleCall) :
    (fs.handle codecs xts lost).answer true call
      = (fs.early call).getD (.error poisonedLock) := by
  rw [Handle.answer]
  simp only [ApfsFs.handle]
  cases fs.early call <;> rfl

/-- **One after the other.**  Workers share a handle, each with any calls, and the steps of
their calls are interleaved in any way.  Every call that has returned has the answer it has on
its own, as long as no call before it has panicked; after a panic the calls that need the lock
return the error of a poisoned lock, and the others are answered as before.  The calls of each
worker return in its own order. -/
theorem shared_handle_serial (hreach : Reaches (State.init position jobs) S) :
    (∀ before e after, S.history = before ++ e :: after →
      ((∀ e' ∈ before, e'.answer ≠ .error (.vfs .panic)) →
        e.answer = fs.serve codecs xts e.call) ∧
      ((∃ e' ∈ before, e'.answer = .error (.vfs .panic)) →
        e.answer = (fs.early e.call).getD (.error poisonedLock))) ∧
    ∀ w, callsOf S.history w <+: jobs w := by
  have hinv := inv_of_reaches hreach
  refine ⟨fun before e after hsplit => ?_, fun w => (List.prefix_append _ _).trans (hinv.order w)⟩
  have hserial := hinv.serial
  rw [hsplit, List.map_append, List.map_append, List.map_cons, List.map_cons] at hserial
  have hanswer := panicsInside_handle.answer_eq (by simp) hserial.symm
  constructor
  · intro hcalm
    have hnone : (before.map Served.answer).any (fs.handle codecs xts lost).panicked = false := by
      rw [List.any_eq_false]
      intro a ha
      obtain ⟨e', he', rfl⟩ := List.mem_map.mp ha
      rw [panicked_iff]
      exact hcalm e' he'
    rw [hanswer, hnone, ApfsFs.answer_handle]
  · rintro ⟨e', he', hpanic⟩
    have hsome : (before.map Served.answer).any (fs.handle codecs xts lost).panicked = true :=
      List.any_eq_true.mpr ⟨_, List.mem_map_of_mem he', panicked_iff.mpr hpanic⟩
    rw [hanswer, hsome, answer_poisoned]

/-- The calls on a mounted volume do not panic. -/
theorem calm_of_mountOf (hcodecs : codecs.Returns) {image : Image} (hmount : fs.MountOf image)
    (call : HandleCall) :
    (fs.handle codecs xts lost).panicked ((fs.handle codecs xts lost).answer false call)
      = false := by
  obtain ⟨hvek, hbs⟩ := hmount.plain
  rw [← Bool.not_eq_true, panicked_iff, ApfsFs.answer_handle]
  exact ApfsFs.serve_ne_panic hcodecs hvek hbs call

/-- **A mounted volume is never poisoned.**  On a handle that `open` or `open_snapshot` has
returned, whatever the workers do, every call returns what it returns on its own; this rests on
decoders that do not panic. -/
theorem shared_handle_never_poisoned (hcodecs : codecs.Returns) {image : Image}
    (hmount : fs.MountOf image) (hreach : Reaches (State.init position jobs) S) :
    S.poisoned = false ∧ ∀ e ∈ S.history, e.answer = fs.serve codecs xts e.call := by
  have hinv := inv_of_reaches hreach
  have hcalm : (fs.handle codecs xts lost).Calm (S.history.map Served.call) :=
    fun call _ => calm_of_mountOf hcodecs hmount call
  have hserial := Handle.serial_of_calm _ hcalm
  constructor
  · rw [hinv.poisoned, panicsInside_handle.poisonedAfter_eq, Bool.false_or, List.any_eq_false,
      hserial]
    intro a ha
    obtain ⟨call, hcall, rfl⟩ := List.mem_map.mp ha
    rw [hcalm call hcall]
    exact Bool.false_ne_true
  · have hanswers := hinv.serial.trans hserial
    rw [List.map_map] at hanswers
    intro e he
    have heach := List.map_inj_left.mp hanswers e he
    rw [heach, Function.comp_apply, ApfsFs.answer_handle]

/-- Where no worker can take a step, the calls are all answered. -/
theorem callsOf_of_stuck (hcodecs : codecs.Returns) {image : Image} (hmount : fs.MountOf image)
    (hreach : Reaches (State.init position jobs) S) (hstuck : ∀ S', ¬ Step S S') (w : W) :
    callsOf S.history w = jobs w := by
  have hdone : (S.workers w).pending = [] := by
    by_contra hpending
    obtain ⟨S', hstep⟩ := (inv_of_reaches hreach).progress hpending
    exact hstuck S' hstep
  have horder := order_of_calm (calm_of_mountOf hcodecs hmount) hreach w
  rwa [hdone, List.append_nil] at horder

/-- **The workers come to an end.**  On a mounted volume, from any state that the workers can
reach, no run goes on for ever; and where no worker can take a step, every worker has all of its
calls answered, in order. -/
theorem shared_handle_settles [Fintype W] (hcodecs : codecs.Returns) {image : Image}
    (hmount : fs.MountOf image) (hreach : Reaches (State.init position jobs) S) :
    Acc (fun b a : State W (fs.handle codecs xts lost) => Step a b) S ∧
      ((∀ S', ¬ Step S S') → ∀ w, callsOf S.history w = jobs w) :=
  ⟨(inv_of_reaches hreach).acc, callsOf_of_stuck hcodecs hmount hreach⟩

end Workers

/-! ### Two workers on a mounted volume -/

def twoJobs : Bool → List HandleCall
  | false => [.read (.metaOf (.apfsOid 2 2)), .read (.readAt (.foreign "Inode(2)") .default 0 1)]
  | true => [.unallocated, .read (.readDir (.apfsOid 2 2))]

/-- A run of the two workers to its end. -/
theorem exists_twoJobs_run (fs : ApfsFs) :
    ∃ S : State Bool (fs.handle .stored .uncalled fun _ _ => 0),
      Reaches (State.init (0 : Nat) twoJobs) S ∧ ∀ S', ¬ Step S S' :=
  (inv_init (h := fs.handle .stored .uncalled fun _ _ => 0) (0 : Nat) twoJobs).exists_settled

theorem shared_handle_serial_twoJobs :
    ∃ (fs : ApfsFs) (S : State Bool (fs.handle .stored .uncalled fun _ _ => 0)),
      ApfsFs.openLive chownedImage = .ok fs ∧ Reaches (State.init (0 : Nat) twoJobs) S ∧
      (callsOf S.history false = twoJobs false ∧ callsOf S.history true = twoJobs true) ∧
      ∀ e ∈ S.history, e.answer = fs.serve .stored .uncalled e.call := by
  obtain ⟨spacemanPaddr, hopen⟩ := openLive_mount hasBlocks_chownedImage
  obtain ⟨S, hreach, hstuck⟩ := exists_twoJobs_run _
  have hmount : ApfsFs.MountOf _ chownedImage := .inl hopen
  have hdone := callsOf_of_stuck stored_returns hmount hreach hstuck
  obtain ⟨hserial, _⟩ := shared_handle_serial hreach
  obtain ⟨hvek, hbs⟩ := hmount.plain
  -- no call before has panicked, as each has the answer it has on its own
  have hcalm : ∀ before after, S.history = before ++ after →
      ∀ e ∈ before, e.answer ≠ .error (.vfs .panic) := by
    intro before
    induction before using List.reverseRecOn with
    | nil => intro after _ e he; cases he
    | append_singleton before last ih =>
      intro after hsplit
      rw [List.append_assoc] at hsplit
      have hbefore := ih _ hsplit
      have hlast := (hserial before last after hsplit).1 hbefore
      rw [List.forall_mem_append, List.forall_mem_singleton, hlast]
      exact ⟨hbefore, ApfsFs.serve_ne_panic stored_returns hvek hbs last.call⟩
  refine ⟨_, S, hopen, hreach, ⟨hdone false, hdone true⟩, fun e he => ?_⟩
  obtain ⟨before, after, hsplit⟩ := List.append_of_mem he
  exact (hserial before e after hsplit).1 (hcalm before _ hsplit)

theorem shared_handle_never_poisoned_twoJobs :
    ∃ (fs : ApfsFs) (S : State Bool (fs.handle .stored .uncalled fun _ _ => 0)),
      ApfsFs.openLive chownedImage = .ok fs ∧ Reaches (State.init (0 : Nat) twoJobs) S ∧
      S.poisoned = false ∧ ∀ e ∈ S.history, e.answer = fs.serve .stored .uncalled e.call := by
  obtain ⟨spacemanPaddr, hopen⟩ := openLive_mount hasBlocks_chownedImage
  obtain ⟨S, hreach, _⟩ := exists_twoJobs_run _
  exact ⟨_, S, hopen, hreach, shared_handle_never_poisoned stored_returns (.inl hopen) hreach⟩

theorem shared_handle_settles_twoJobs :
    ∃ (fs : ApfsFs) (S : State Bool (fs.handle .stored .uncalled fun _ _ => 0)),
      ApfsFs.openLive chownedImage = .ok fs ∧ Reaches (State.init (0 : Nat) twoJobs) S ∧
      callsOf S.history false = twoJobs false ∧ callsOf S.history true = twoJobs true := by
  obtain ⟨spacemanPaddr, hopen⟩ := openLive_mount hasBlocks_chownedImage
  obtain ⟨S, hreach, hstuck⟩ := exists_twoJobs_run _
  obtain ⟨_, hserved⟩ := shared_handle_settles stored_returns (.inl hopen) hreach
  exact ⟨_, S, hopen, hreach, hserved hstuck false, hserved hstuck true⟩

end ApfsForensic
