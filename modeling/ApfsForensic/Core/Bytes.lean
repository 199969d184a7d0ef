import Mathlib.Algebra.Group.Nat.Defs
import Mathlib.Data.List.Basic
import Mathlib.Data.Nat.Basic

/-!
# Images, errors and little-endian reads

`core/src/bytes.rs` and the `ApfsError` of `core/src/lib.rs`.

The reader `R : Read + Seek` is a byte array, `Image`.  A seek never fails on it
and a read past its end is `UnexpectedEof`, so `readAt` joins the two.  Offsets
are `u64`, which bounds the length of an image.

Unsigned machine integers are natural numbers.  A field read from the image is
below its width (`leUInt_lt`); the operations that may leave it are written with
the Rust method's behaviour (`saturatingMul`, `checkedMul`, `saturatingAdd`).  An
unchecked `+` that overflows panics, and `Fault` keeps that outcome apart from
the errors the reader returns.
-/

namespace ApfsForensic

abbrev Bytes := List UInt8

/-! ### Errors -/

inductive IoErrorKind where
  | unexpectedEof
  | other
  deriving DecidableEq, Repr

/-- `ApfsError`. -/
inductive ApfsError where
  | io (kind : IoErrorKind)
  | noValidSuperblock (checked lastMagic : Nat)
  | checksumMismatch (block stored computed : Nat)
  | omapUnresolved (oid xid : Nat)
  | unexpectedObjectType (structureName : String) (expected found : Nat)
  | unsupportedFusion
  | unsupportedSpacemanCab (count : Nat)
  | fieldOutOfRange (structureName field : String) (value cap : Nat)
  | cycleGuard (cap : Nat)
  | checkpointTreeUnsupported (area : String)
  | snapshotNotFound (xid : Nat)
  | decmpfs (message : String)
  deriving DecidableEq, Repr

/-- How a call ends without a result: an `Err`, or a panic. -/
inductive Fault where
  | err (e : ApfsError)
  | panic
  deriving DecidableEq, Repr

abbrev Result (α : Type) := Except Fault α

@[simp] theorem ok_bind {α β : Type} (a : α) (f : α → Result β) : (Except.ok a >>= f) = f a := rfl

@[simp] theorem error_bind {α β : Type} (e : Fault) (f : α → Result β) :
    (Except.error e >>= f) = .error e := rfl

@[simp] theorem throw_eq_error {α : Type} (e : Fault) : (throw e : Result α) = .error e := rfl

theorem bind_eq_ok_iff {α β : Type} {x : Result α} {f : α → Result β} {b : β} :
    (x >>= f) = .ok b ↔ ∃ a, x = .ok a ∧ f a = .ok b := by
  cases x <;> simp

theorem bind_eq_error_iff {α β : Type} {x : Result α} {f : α → Result β} {e : Fault} :
    (x >>= f) = .error e ↔ x = .error e ∨ ∃ a, x = .ok a ∧ f a = .error e := by
  cases x <;> simp

/-- A check that does not fail is passed. -/
theorem ite_error_eq_ok_iff {α : Type} {c : Prop} [Decidable c] {e : Fault} {x : Result α} {a : α} :
    (if c then .error e else x) = .ok a ↔ ¬ c ∧ x = .ok a := by
  by_cases h : c <;> simp [h]

/-! ### Machine integers -/

/-- `u64::MAX`. -/
def u64Max : Nat := 2 ^ 64 - 1

/-- `u64::saturating_mul`. -/
def saturatingMul (a b : Nat) : Nat := min (a * b) u64Max

/-- `u64::saturating_add`. -/
def saturatingAdd (a b : Nat) : Nat := min (a + b) u64Max

/-- `u64::checked_add`. -/
def checkedAdd (a b : Nat) : Option Nat := if a + b ≤ u64Max then some (a + b) else none

/-- `u64::checked_mul`. -/
def checkedMul (a b : Nat) : Option Nat := if a * b ≤ u64Max then some (a * b) else none

theorem saturatingMul_of_le {a b : Nat} (h : a * b ≤ u64Max) : saturatingMul a b = a * b :=
  Nat.min_eq_left h

theorem saturatingAdd_of_le {a b : Nat} (h : a + b ≤ u64Max) : saturatingAdd a b = a + b :=
  Nat.min_eq_left h

theorem checkedAdd_of_le {a b : Nat} (h : a + b ≤ u64Max) : checkedAdd a b = some (a + b) :=
  if_pos h

theorem checkedMul_of_le {a b : Nat} (h : a * b ≤ u64Max) : checkedMul a b = some (a * b) :=
  if_pos h

theorem checkedMul_of_lt {a b : Nat} (h : u64Max < a * b) : checkedMul a b = none :=
  if_neg (Nat.not_le.mpr h)

/-! ### Images -/

/-- The bytes behind the reader.  Every position is a `u64`. -/
structure Image where
  bytes : Bytes
  length_lt : bytes.length < 2 ^ 64

namespace Image

/-- `seek(SeekFrom::Start(offset))` and `read_exact` into a buffer of `n` bytes. -/
def readAt (image : Image) (offset n : Nat) : Except IoErrorKind Bytes :=
  let s := (image.bytes.drop offset).take n
  if s.length = n then .ok s else .error .unexpectedEof

/-- `readAt` with the error passed on by `?`. -/
def readExact (image : Image) (offset n : Nat) : Result Bytes :=
  match image.readAt offset n with
  | .ok s => .ok s
  | .error kind => .error (.err (.io kind))

/-- Read the block at `paddr`, its byte offset a saturating product: the read that
every structure with a physical address starts with. -/
def readBlock (image : Image) (paddr blockSize : Nat) : Result Bytes :=
  image.readExact (saturatingMul paddr blockSize) blockSize

theorem readAt_eq_ok_iff {image : Image} {offset n : Nat} {s : Bytes} :
    image.readAt offset n = .ok s ↔
      (n = 0 ∨ offset + n ≤ image.bytes.length) ∧ s = (image.bytes.drop offset).take n := by
  have hlen : ((image.bytes.drop offset).take n).length = n ↔
      n = 0 ∨ offset + n ≤ image.bytes.length := by
    rw [List.length_take, List.length_drop]
    omega
  unfold readAt
  by_cases h : ((image.bytes.drop offset).take n).length = n
  · simp only [h, if_true, Except.ok.injEq, hlen.mp h, true_and, eq_comm]
  · simp only [h, if_false, reduceCtorEq, false_iff, not_and]
    intro hn
    exact absurd (hlen.mpr hn) h

theorem readAt_eq_error_iff {image : Image} {offset n : Nat} {kind : IoErrorKind} :
    image.readAt offset n = .error kind ↔
      (n ≠ 0 ∧ image.bytes.length < offset + n) ∧ kind = .unexpectedEof := by
  have hlen : ((image.bytes.drop offset).take n).length = n ↔
      n = 0 ∨ offset + n ≤ image.bytes.length := by
    rw [List.length_take, List.length_drop]
    omega
  unfold readAt
  by_cases h : ((image.bytes.drop offset).take n).length = n
  · simp only [h, if_true, reduceCtorEq, false_iff, not_and]
    intro hn
    have := hlen.mp h
    omega
  · simp only [h, if_false, Except.error.injEq, eq_comm (b := kind)]
    constructor
    · intro hk
      refine ⟨?_, hk⟩
      by_contra hn
      exact h (hlen.mpr (by omega))
    · exact fun hk => hk.2

theorem readExact_eq_ok_iff {image : Image} {offset n : Nat} {s : Bytes} :
    image.readExact offset n = .ok s ↔
      (n = 0 ∨ offset + n ≤ image.bytes.length) ∧ s = (image.bytes.drop offset).take n := by
  rw [← readAt_eq_ok_iff, readExact]
  cases image.readAt offset n <;> simp

theorem length_of_readExact {image : Image} {offset n : Nat} {s : Bytes}
    (h : image.readExact offset n = .ok s) : s.length = n := by
  obtain ⟨hn, rfl⟩ := readExact_eq_ok_iff.mp h
  rw [List.length_take, List.length_drop]
  omega

theorem readExact_error {image : Image} {offset n : Nat} {f : Fault}
    (h : image.readExact offset n = .error f) :
    f = .err (.io .unexpectedEof) ∧ n ≠ 0 ∧ image.bytes.length < offset + n := by
  unfold readExact at h
  split at h
  · exact absurd h (by simp)
  · rename_i kind hk
    obtain ⟨hn, rfl⟩ := readAt_eq_error_iff.mp hk
    refine ⟨?_, hn⟩
    simpa using h.symm

theorem length_of_readBlock {image : Image} {paddr blockSize : Nat} {s : Bytes}
    (h : image.readBlock paddr blockSize = .ok s) : s.length = blockSize :=
  length_of_readExact h

end Image

/-! ### Bounds-checked reads -/

/-- `data.get(a..b)`. -/
def getRange (data : Bytes) (a b : Nat) : Option Bytes :=
  if a ≤ b ∧ b ≤ data.length then some ((data.drop a).take (b - a)) else none

/-- Chunk `i` of `data.chunks(n)`. -/
def chunk (n : Nat) (data : Bytes) (i : Nat) : Bytes := (data.drop (i * n)).take n

/-- The number with the given little-endian bytes. -/
def fromLeBytes : Bytes → Nat
  | [] => 0
  | b :: bs => b.toNat + 256 * fromLeBytes bs

/-- Read a little-endian integer of `w` bytes at `offset`; `0` if it would run past
`data`. -/
def leUInt (w : Nat) (data : Bytes) (offset : Nat) : Nat :=
  match getRange data offset (offset + w) with
  | some s => fromLeBytes s
  | none => 0

/-- `le_u16`. -/
def leU16 (data : Bytes) (offset : Nat) : Nat := leUInt 2 data offset

/-- `le_u32`. -/
def leU32 (data : Bytes) (offset : Nat) : Nat := leUInt 4 data offset

/-- `le_u64`. -/
def leU64 (data : Bytes) (offset : Nat) : Nat := leUInt 8 data offset

/-- `arr::<N>`: the `n` bytes at `offset`, zeros where they run past `data`. -/
def arr (n : Nat) (data : Bytes) (offset : Nat) : Bytes :=
  (getRange data offset (offset + n)).getD (List.replicate n 0)

/-- The `w` little-endian bytes of a number. -/
def toLeBytes : Nat → Nat → Bytes
  | 0, _ => []
  | w + 1, n => UInt8.ofNat (n % 256) :: toLeBytes w (n / 256)

theorem length_chunk {n i : Nat} {data : Bytes} (h : (i + 1) * n ≤ data.length) :
    (chunk n data i).length = n := by
  rw [Nat.succ_mul] at h
  rw [chunk, List.length_take, List.length_drop]
  omega

theorem chunk_succ_append {n : Nat} {a : Bytes} (ha : a.length = n) (b : Bytes) (i : Nat) :
    chunk n (a ++ b) (i + 1) = chunk n b i := by
  rw [chunk, chunk, Nat.succ_mul, Nat.add_comm, ← List.drop_drop, List.drop_left' ha]

theorem flatMap_chunk (n : Nat) (data : Bytes) :
    ∀ k : Nat, (List.range k).flatMap (chunk n data) = data.take (k * n) := by
  intro k
  induction k with
  | zero => simp
  | succ k ih =>
    rw [List.range_succ, List.flatMap_append, ih, List.flatMap_singleton, chunk, Nat.succ_mul,
      List.take_add]

/-- Pieces of one length laid end to end. -/
theorem length_flatMap_of_length {α : Type} {n : Nat} {f : α → Bytes} {l : List α}
    (hf : ∀ a ∈ l, (f a).length = n) : (l.flatMap f).length = l.length * n := by
  rw [List.length_flatMap, List.map_congr_left hf, List.map_const', List.sum_replicate_nat]

theorem length_flatMap_range {n k : Nat} {f : Nat → Bytes} (hf : ∀ j < k, (f j).length = n) :
    ((List.range k).flatMap f).length = k * n := by
  rw [length_flatMap_of_length fun j hj => hf j (List.mem_range.mp hj), List.length_range]

theorem chunk_flatMap {n : Nat} {f : Nat → Bytes} :
    ∀ {k i : Nat}, (∀ j < k, (f j).length = n) → i < k →
      chunk n ((List.range k).flatMap f) i = f i := by
  intro k
  induction k with
  | zero => intro i _ hi; omega
  | succ k ih =>
    intro i hf hi
    have hlen := length_flatMap_range (fun j hj => hf j (Nat.lt_succ_of_lt hj))
    rw [List.range_succ, List.flatMap_append, List.flatMap_singleton, chunk]
    by_cases hik : i = k
    · subst hik
      rw [← hlen, List.drop_left, List.take_of_length_le (Nat.le_of_eq (hf i (by omega)))]
    · have hle : (i + 1) * n ≤ k * n := Nat.mul_le_mul_right n (by omega)
      rw [Nat.succ_mul] at hle
      rw [List.drop_append_of_le_length (by omega), List.take_append_of_le_length
        (by rw [List.length_drop]; omega)]
      exact ih (fun j hj => hf j (by omega)) (by omega)

theorem fromLeBytes_lt : ∀ l : Bytes, fromLeBytes l < 256 ^ l.length := by
  intro l
  induction l with
  | nil => simp [fromLeBytes]
  | cons b bs ih =>
    have hb : b.toNat < 256 := b.toNat_lt
    rw [fromLeBytes, List.length_cons, Nat.pow_succ]
    omega

theorem length_of_getRange {data s : Bytes} {a b : Nat} (h : getRange data a b = some s) :
    s.length = b - a := by
  unfold getRange at h
  split at h
  · rename_i hb
    cases h
    rw [List.length_take, List.length_drop]
    omega
  · exact absurd h (by simp)

theorem getRange_eq_some_iff {data value : Bytes} {a b : Nat} :
    getRange data a b = some value ↔ (a ≤ b ∧ b ≤ data.length) ∧
      value = (data.drop a).take (b - a) := by
  rw [getRange, Option.ite_none_right_eq_some, Option.some.injEq, eq_comm (a := value)]

/-! ### Reading what a string starts with

A reader at `off` sees `data.drop off`. -/

section Offset

variable {data xs rest : Bytes} {off : Nat}

theorem drop_add_of_drop (h : data.drop off = xs ++ rest) :
    data.drop (off + xs.length) = rest := by
  rw [← List.drop_drop, h, List.drop_left]

theorem length_of_drop (hoff : off ≤ data.length) (h : data.drop off = xs ++ rest) :
    data.length = off + xs.length + rest.length := by
  have hlen := congrArg List.length h
  rw [List.length_drop, List.length_append] at hlen
  omega

theorem getRange_of_drop (hoff : off ≤ data.length) (h : data.drop off = xs ++ rest) :
    getRange data off (off + xs.length) = some xs := by
  have hlen := length_of_drop hoff h
  rw [getRange_eq_some_iff, h, Nat.add_sub_cancel_left, List.take_left]
  exact ⟨by omega, rfl⟩

theorem drop_of_getRange {stop : Nat} {value : Bytes} (h : getRange data off stop = some value) :
    data.drop off = value ++ data.drop stop ∧ stop = off + value.length := by
  obtain ⟨⟨hle, hstop⟩, rfl⟩ := getRange_eq_some_iff.mp h
  constructor
  · conv_lhs => rw [← List.take_append_drop (stop - off) (data.drop off), List.drop_drop]
    rw [Nat.add_sub_cancel' hle]
  · rw [List.length_take, List.length_drop]
    omega

end Offset

/-! ### Bounds of what is read -/

theorem leUInt_lt (w : Nat) (data : Bytes) (offset : Nat) : leUInt w data offset < 256 ^ w := by
  unfold leUInt
  split
  · rename_i s hs
    have h := fromLeBytes_lt s
    rwa [length_of_getRange hs, Nat.add_sub_cancel_left] at h
  · exact Nat.pow_pos (by omega)

theorem leU32_lt (data : Bytes) (offset : Nat) : leU32 data offset < 2 ^ 32 :=
  leUInt_lt 4 data offset

theorem leU64_lt (data : Bytes) (offset : Nat) : leU64 data offset < 2 ^ 64 :=
  leUInt_lt 8 data offset

/-! ### The same bytes elsewhere -/

theorem getRange_take {a b n : Nat} {data : Bytes} (h : b ≤ n) :
    getRange (data.take n) a b = getRange data a b := by
  unfold getRange
  by_cases hb : a ≤ b ∧ b ≤ data.length
  · rw [if_pos ⟨hb.1, by rw [List.length_take]; omega⟩, if_pos hb, List.drop_take,
      List.take_take, Nat.min_eq_left (by omega)]
  · rw [if_neg (by rw [List.length_take]; omega), if_neg hb]

theorem getRange_of_take {a b n : Nat} {data s : Bytes}
    (h : getRange (data.take n) a b = some s) : getRange data a b = some s := by
  have hb := (getRange_eq_some_iff.mp h).1.2
  rw [List.length_take] at hb
  rwa [getRange_take (by omega)] at h

theorem leUInt_take {w off n : Nat} {data : Bytes} (h : off + w ≤ n) :
    leUInt w (data.take n) off = leUInt w data off := by
  rw [leUInt, leUInt, getRange_take h]

theorem leUInt_cons (w : Nat) (x : UInt8) (data : Bytes) (off : Nat) :
    leUInt w (x :: data) (off + 1) = leUInt w data off := by
  have hrange : getRange (x :: data) (off + 1) (off + 1 + w) = getRange data off (off + w) := by
    rw [getRange, getRange, List.drop_succ_cons, List.length_cons, Nat.add_right_comm off 1 w,
      Nat.add_sub_add_right]
    simp only [Nat.add_le_add_iff_right]
  rw [leUInt, leUInt, hrange]

theorem leUInt_congr {a b : Bytes} {w off : Nat} (hlen : a.length = b.length)
    (h : ∀ k, off ≤ k → k < off + w → a[k]? = b[k]?) : leUInt w a off = leUInt w b off := by
  have hslice : (a.drop off).take w = (b.drop off).take w := by
    apply List.ext_getElem?
    intro k
    by_cases hk : k < w
    · rw [List.getElem?_take_of_lt hk, List.getElem?_take_of_lt hk, List.getElem?_drop,
        List.getElem?_drop, h (off + k) (by omega) (by omega)]
    · rw [List.getElem?_take_eq_none (by omega), List.getElem?_take_eq_none (by omega)]
  rw [leUInt, leUInt, getRange, getRange, hlen, Nat.add_sub_cancel_left, hslice]

theorem exists_four_of_le_length {l : Bytes} (h : 4 ≤ l.length) :
    ∃ a b c d rest, l = a :: b :: c :: d :: rest := by
  rcases l with _ | ⟨a, _ | ⟨b, _ | ⟨c, _ | ⟨d, rest⟩⟩⟩⟩
  · simp at h
  · simp at h
  · simp at h
  · simp at h
  · exact ⟨a, b, c, d, rest, rfl⟩

theorem leU32_mod_of_le {data : Bytes} {off : Nat} (h : off + 4 ≤ data.length) :
    leU32 data off % 2 ^ 16 = leU16 data off := by
  have hfour : 4 ≤ (data.drop off).length := by rw [List.length_drop]; omega
  obtain ⟨a, b, c, d, rest, hdrop⟩ := exists_four_of_le_length hfour
  have hoff : off ≤ data.length := by omega
  have hword : getRange data off (off + 4) = some [a, b, c, d] :=
    getRange_of_drop hoff (show data.drop off = [a, b, c, d] ++ rest from hdrop)
  have hhalf : getRange data off (off + 2) = some [a, b] :=
    getRange_of_drop hoff (show data.drop off = [a, b] ++ c :: d :: rest from hdrop)
  have ha : a.toNat < 256 := a.toNat_lt
  have hb : b.toNat < 256 := b.toNat_lt
  simp only [leU32, leU16, leUInt, hword, hhalf, fromLeBytes]
  omega

/-! ### The last of a kind -/

theorem getLast?_filter_concat {α : Type} (p : α → Prop) [DecidablePred p] (l : List α) (a : α) :
    ((l ++ [a]).filter p).getLast? = if p a then some a else (l.filter p).getLast? := by
  rw [List.filter_append]
  by_cases h : p a
  · rw [if_pos h, List.filter_cons_of_pos (by simpa using h), List.filter_nil,
      List.getLast?_concat]
  · rw [if_neg h, List.filter_cons_of_neg (by simpa using h), List.filter_nil, List.append_nil]

end ApfsForensic
