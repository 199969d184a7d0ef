import ApfsForensic.Core.Compression
import Mathlib.Data.List.Induction

/-!
# Payloads in the resource fork

The layouts that the decoders of `core/src/compression.rs` read.  A file is cut into
chunks of 65536 bytes, the last one shorter, and each chunk is compressed on its own.

* `chunkedFork`: the fork of types 8, 10 and 12.  A table of end offsets, padded with
  zeros, then the compressed chunks one after the other.
* `ZlibFork`: the fork of type 4.  A table of offsets and sizes; the blocks stand
  wherever the table says.
* `resource_fork_reassembly`: from either layout `decompress_decmpfs` returns the
  content, if the codec decodes each chunk.
* `inline_fork_agree_iff`: a payload that the inline types decode is decoded alike
  from a fork, exactly if it is not one of the raw-stored ones.  Only `decode_inline`
  knows their markers.
-/

namespace ApfsForensic

open Compression

/-! ### The other crates -/

/-- The rows of `classify` that are used here. -/
structure Codecs.Table (codecs : Codecs) : Prop where
  type3 : codecs.classify 3 = some ⟨.zlib, .inline⟩
  type4 : codecs.classify 4 = some ⟨.zlib, .resourceFork⟩
  type7 : codecs.classify 7 = some ⟨.lzvn, .inline⟩
  type8 : codecs.classify 8 = some ⟨.lzvn, .resourceFork⟩
  type10 : codecs.classify 10 = some ⟨.uncompressed, .resourceFork⟩
  type12 : codecs.classify 12 = some ⟨.lzfse, .resourceFork⟩

/-- The codec decodes `encoded` to the chunk. -/
def Codecs.Decodes (codecs : Codecs) (algorithm : Algorithm) (encoded chunk : Bytes) : Prop :=
  match algorithm with
  | .uncompressed => encoded = chunk
  | .zlib => codecs.zlib encoded = .ok chunk
  | .lzvn => codecs.lzvn encoded chunk.length = .ok chunk
  | .lzfse => codecs.lzfse encoded = .ok chunk
  | .lzBitmap => False

/-! ### Headers -/

/-- The 16 bytes in front of a payload. -/
def cmpfHeader (compressionType size : Nat) : Bytes :=
  toLeBytes 4 decmpfsMagic ++ toLeBytes 4 compressionType ++ toLeBytes 8 size

namespace Compression

/-- A reader finds the number that stands at the offset. -/
theorem readInt_of_drop {decode : Bytes → Nat} {data word rest : Bytes} {offset width n : Nat}
    (h : data.drop offset = word ++ rest) (hword : word.length = width) (hn : decode word = n)
    (hoff : offset ≤ data.length) (hmax : offset + width ≤ u64Max) :
    readInt decode width data offset = .ok n := by
  have hlen := length_of_drop hoff h
  rw [readInt_eq_ok_iff, h, List.take_left' hword]
  exact ⟨hmax, by omega, hn.symm⟩

theorem leU32_of_drop {data rest : Bytes} {offset n : Nat} (hn : n < 2 ^ 32)
    (h : data.drop offset = toLeBytes 4 n ++ rest) (hoff : offset ≤ data.length)
    (hmax : offset + 4 ≤ u64Max) : leU32 data offset = .ok n :=
  readInt_of_drop h (length_toLeBytes 4 n) (fromLeBytes_toLeBytes 4 n hn) hoff hmax

theorem length_cmpfHeader (t n : Nat) : (cmpfHeader t n).length = 16 := by
  simp only [cmpfHeader, List.length_append, length_toLeBytes]

variable {codecs : Codecs} {kind : CompressionKind} {t n : Nat} {rest out : Bytes}
variable {fork : Option Bytes}

/-- What `decompress_decmpfs` does behind a well-formed header. -/
theorem decompressDecmpfs_cmpfHeader (ht : t < 2 ^ 32) (hn : n < 2 ^ 64)
    (hkind : codecs.classify t = some kind) (hbitmap : kind.algorithm ≠ .lzBitmap) :
    decompressDecmpfs codecs (cmpfHeader t n ++ rest) fork = .ok out ↔
      decodePayload codecs kind (cmpfHeader t n ++ rest) fork n t = .ok out ∧ out.length = n := by
  have hlen : (cmpfHeader t n ++ rest).length = 16 + rest.length := by
    rw [List.length_append, length_cmpfHeader]
  have hdrop0 : (cmpfHeader t n ++ rest).drop 0
      = toLeBytes 4 decmpfsMagic ++ (toLeBytes 4 t ++ (toLeBytes 8 n ++ rest)) := by
    rw [List.drop_zero, cmpfHeader, List.append_assoc, List.append_assoc]
  have hdrop4 := drop_add_of_drop hdrop0
  have hdrop8 := drop_add_of_drop hdrop4
  rw [length_toLeBytes] at hdrop4
  rw [length_toLeBytes, length_toLeBytes] at hdrop8
  have hmagic : leU32 (cmpfHeader t n ++ rest) 0 = .ok decmpfsMagic :=
    leU32_of_drop (by decide) hdrop0 (Nat.zero_le _) (by decide)
  have htype : leU32 (cmpfHeader t n ++ rest) compressionTypeOffset = .ok t :=
    leU32_of_drop ht hdrop4 (by unfold compressionTypeOffset; omega) (by decide)
  have hsize : leU64 (cmpfHeader t n ++ rest) uncompressedSizeOffset = .ok n :=
    readInt_of_drop hdrop8 (length_toLeBytes 8 n) (fromLeBytes_toLeBytes 8 n hn)
      (by unfold uncompressedSizeOffset; omega) (by decide)
  have hshort : ¬ (cmpfHeader t n ++ rest).length < decmpfsHeaderLen := by
    rw [hlen]
    unfold decmpfsHeaderLen
    omega
  unfold decompressDecmpfs
  simp only [if_neg hshort, hmagic, htype, hsize, ok_bind, hkind, if_neg hbitmap, ne_eq,
    not_true_eq_false, if_false, bind_eq_ok_iff, throw_eq_error, error_bind, ite_error_eq_ok_iff,
    not_not]
  constructor
  · rintro ⟨decoded, hdecoded, hlen, hout⟩
    cases hout
    exact ⟨hdecoded, hlen⟩
  · rintro ⟨hdecoded, hlen⟩
    exact ⟨out, hdecoded, hlen, rfl⟩

theorem decodePayload_inline (algorithm : Algorithm) :
    decodePayload codecs ⟨algorithm, .inline⟩ (cmpfHeader t n ++ rest) fork n t
      = decodeInline codecs algorithm rest n t := by
  have hrange : getRange (cmpfHeader t n ++ rest) decmpfsHeaderLen (cmpfHeader t n ++ rest).length
      = some rest := by
    have hdrop : (cmpfHeader t n ++ rest).drop decmpfsHeaderLen = rest ++ [] := by
      rw [List.append_nil]
      exact List.drop_left' (length_cmpfHeader t n)
    have hlen : (cmpfHeader t n ++ rest).length = decmpfsHeaderLen + rest.length := by
      rw [List.length_append, length_cmpfHeader]
      rfl
    have hoff : decmpfsHeaderLen ≤ (cmpfHeader t n ++ rest).length := by omega
    rw [hlen]
    exact getRange_of_drop hoff hdrop
  rw [decodePayload, hrange]
  rfl

end Compression

/-! ### Chunks of a file -/

/-- The content in chunks of 65536 bytes, the last one shorter. -/
def fileChunks (content : Bytes) : List Bytes :=
  (List.range ((content.length + 65535) / 65536)).map (chunk decmpfsChunkSize content)

section FileChunks

variable {content : Bytes} {i : Nat}

theorem length_fileChunks : (fileChunks content).length = (content.length + 65535) / 65536 := by
  rw [fileChunks, List.length_map, List.length_range]

theorem getElem?_fileChunks (hi : i < (fileChunks content).length) :
    (fileChunks content)[i]? = some (chunk decmpfsChunkSize content i) := by
  rw [length_fileChunks] at hi
  rw [fileChunks, List.getElem?_map, List.getElem?_range hi]
  rfl

/-- What the first chunks hold. -/
theorem flatten_take_fileChunks (hi : i ≤ (fileChunks content).length) :
    ((fileChunks content).take i).flatten = content.take (i * 65536) := by
  rw [length_fileChunks] at hi
  rw [fileChunks, ← List.map_take, List.take_range, Nat.min_eq_left hi, ← List.flatMap_def,
    flatMap_chunk]
  rfl

theorem flatten_fileChunks : (fileChunks content).flatten = content := by
  have hall := flatten_take_fileChunks (le_refl (fileChunks content).length)
  rw [List.take_length] at hall
  rw [hall, length_fileChunks]
  exact List.take_of_length_le (by omega)

/-- A chunk is full unless it is the last one. -/
theorem length_chunk_file : (chunk decmpfsChunkSize content i).length
    = min (content.length - i * 65536) decmpfsChunkSize := by
  rw [chunk, List.length_take, List.length_drop, Nat.min_comm]
  rfl

end FileChunks

/-! ### Chunked forks -/

/-- The ends of these blocks, if the first one starts at `base`. -/
def endOffsets : (base : Nat) → List Bytes → List Nat
  | _, [] => []
  | base, block :: blocks => (base + block.length) :: endOffsets (base + block.length) blocks

/-- The `headerSize` of a fork with so many slots. -/
def forkHeaderSize (slots : Nat) : Nat := 4 * (1 + slots)

/-- The slots of a fork: the ends of its blocks, then unused ones. -/
def forkSlots (blocks : List Bytes) (padding : Nat) : List Nat :=
  endOffsets (forkHeaderSize (blocks.length + padding)) blocks ++ List.replicate padding 0

/-- The fork of types 8, 10 and 12. -/
def chunkedFork (blocks : List Bytes) (padding : Nat) : Bytes :=
  toLeBytes 4 (forkHeaderSize (blocks.length + padding)) ++
    (forkSlots blocks padding).flatMap (toLeBytes 4) ++ blocks.flatten

theorem length_endOffsets : ∀ (blocks : List Bytes) (base : Nat),
    (endOffsets base blocks).length = blocks.length := by
  intro blocks
  induction blocks with
  | nil => intro base; rfl
  | cons block blocks ih =>
    intro base
    rw [endOffsets, List.length_cons, List.length_cons, ih]

theorem getElem?_endOffsets : ∀ (blocks : List Bytes) (base i : Nat), i < blocks.length →
    (endOffsets base blocks)[i]? = some (base + ((blocks.take (i + 1)).flatten).length) := by
  intro blocks
  induction blocks with
  | nil => intro base i hi; cases hi
  | cons block blocks ih =>
    intro base i hi
    rw [endOffsets, List.take_succ_cons, List.flatten_cons, List.length_append, ← Nat.add_assoc]
    cases i with
    | zero => simp
    | succ i =>
      rw [List.getElem?_cons_succ]
      exact ih (base + block.length) i (Nat.lt_of_succ_lt_succ hi)

theorem length_words (ws : List Nat) : (ws.flatMap (toLeBytes 4)).length = 4 * ws.length := by
  rw [length_flatMap_of_length fun w _ => length_toLeBytes 4 w, Nat.mul_comm]

/-- Word `i` of a table. -/
theorem drop_words : ∀ (ws : List Nat) (rest : Bytes) {i w : Nat}, ws[i]? = some w →
    (ws.flatMap (toLeBytes 4) ++ rest).drop (i * 4)
      = toLeBytes 4 w ++ ((ws.drop (i + 1)).flatMap (toLeBytes 4) ++ rest) := by
  intro ws
  induction ws with
  | nil => intro rest i w h; cases h
  | cons a ws ih =>
    intro rest i w h
    rw [List.flatMap_cons, List.append_assoc]
    cases i with
    | zero =>
      cases h
      rw [Nat.zero_mul, List.drop_zero]
      rfl
    | succ i =>
      rw [List.getElem?_cons_succ] at h
      rw [Nat.succ_mul, Nat.add_comm, ← List.drop_drop, List.drop_left' (length_toLeBytes 4 a),
        ih rest h]
      rfl

theorem length_forkSlots (blocks : List Bytes) (padding : Nat) :
    (forkSlots blocks padding).length = blocks.length + padding := by
  rw [forkSlots, List.length_append, length_endOffsets, List.length_replicate]

section Chunked

variable {codecs : Codecs} {algorithm : Algorithm} {blocks : List Bytes} {i n : Nat}
variable (padding : Nat) (trailing : Bytes)

/-- Behind its first word a fork has the slots, then the blocks. -/
theorem drop_forkSlots : (chunkedFork blocks padding ++ trailing).drop 4
    = (forkSlots blocks padding).flatMap (toLeBytes 4) ++ (blocks.flatten ++ trailing) := by
  rw [chunkedFork, List.append_assoc, List.append_assoc]
  exact List.drop_left' (length_toLeBytes 4 _)

theorem length_chunkedFork : (chunkedFork blocks padding ++ trailing).length
    = forkHeaderSize (blocks.length + padding) + blocks.flatten.length + trailing.length := by
  rw [List.length_append, chunkedFork, List.length_append, List.length_append, length_toLeBytes,
    length_words, length_forkSlots, forkHeaderSize]
  omega

theorem drop_forkBlocks :
    (chunkedFork blocks padding ++ trailing).drop (forkHeaderSize (blocks.length + padding))
      = blocks.flatten ++ trailing := by
  have hsize : forkHeaderSize (blocks.length + padding)
      = 4 + ((forkSlots blocks padding).flatMap (toLeBytes 4)).length := by
    rw [length_words, length_forkSlots, forkHeaderSize]
    omega
  rw [hsize]
  exact drop_add_of_drop (drop_forkSlots padding trailing)

/-- Block `i` starts where the blocks before it end. -/
theorem drop_forkBlock {block : Bytes} (hb : blocks[i]? = some block) :
    (chunkedFork blocks padding ++ trailing).drop
        (forkHeaderSize (blocks.length + padding) + ((blocks.take i).flatten).length)
      = block ++ ((blocks.drop (i + 1)).flatten ++ trailing) := by
  obtain ⟨hi, hget⟩ := List.getElem?_eq_some_iff.mp hb
  have hsplit : blocks.flatten
      = (blocks.take i).flatten ++ (block ++ (blocks.drop (i + 1)).flatten) := by
    conv_lhs => rw [← List.take_append_drop i blocks, List.flatten_append,
      List.drop_eq_getElem_cons hi, hget, List.flatten_cons]
  refine drop_add_of_drop ?_
  rw [drop_forkBlocks, hsplit, List.append_assoc, List.append_assoc]

variable {padding}

theorem leU32_forkSlot {w : Nat} (hfit : forkHeaderSize (blocks.length + padding) < 2 ^ 32)
    (hw : (forkSlots blocks padding)[i]? = some w) (hlt : w < 2 ^ 32) :
    Compression.leU32 (chunkedFork blocks padding ++ trailing) (4 + i * 4) = .ok w := by
  obtain ⟨hi, _⟩ := List.getElem?_eq_some_iff.mp hw
  rw [length_forkSlots] at hi
  rw [forkHeaderSize] at hfit
  have hdrop := drop_words _ (blocks.flatten ++ trailing) hw
  rw [← drop_forkSlots, List.drop_drop] at hdrop
  refine leU32_of_drop hlt hdrop ?_ ?_
  · rw [length_chunkedFork, forkHeaderSize]
    omega
  · unfold u64Max
    omega

/-- A slot that is still needed decodes its block. -/
theorem chunkedForkSlot_block {block out : Bytes}
    (hfit : forkHeaderSize (blocks.length + padding) + blocks.flatten.length < 2 ^ 32)
    (hb : blocks[i]? = some block) (hout : out.length < n) :
    chunkedForkSlot codecs algorithm (chunkedFork blocks padding ++ trailing) n
        (out, forkHeaderSize (blocks.length + padding) + ((blocks.take i).flatten).length) i
      = decodeChunk codecs algorithm block (min (n - out.length) decmpfsChunkSize) >>= fun decoded =>
          .ok (out ++ decoded,
            forkHeaderSize (blocks.length + padding) + ((blocks.take (i + 1)).flatten).length) := by
  obtain ⟨hi, hget⟩ := List.getElem?_eq_some_iff.mp hb
  have hsucc : ((blocks.take (i + 1)).flatten).length
      = ((blocks.take i).flatten).length + block.length := by
    rw [List.take_add_one, hb, List.flatten_append, List.length_append]
    simp
  have hle : ((blocks.take (i + 1)).flatten).length ≤ blocks.flatten.length := by
    conv_rhs => rw [← List.take_append_drop (i + 1) blocks, List.flatten_append, List.length_append]
    omega
  have hslot : (forkSlots blocks padding)[i]? = some (forkHeaderSize (blocks.length + padding)
      + ((blocks.take (i + 1)).flatten).length) := by
    rw [forkSlots, List.getElem?_append_left (by rw [length_endOffsets]; exact hi),
      getElem?_endOffsets _ _ _ hi]
  have hstop := leU32_forkSlot trailing (by omega) hslot (by omega)
  have hrange := getRange_of_drop (by rw [length_chunkedFork]; omega)
    (drop_forkBlock padding trailing hb)
  rw [Nat.add_assoc, ← hsucc] at hrange
  have hforward : ¬ forkHeaderSize (blocks.length + padding)
      + ((blocks.take (i + 1)).flatten).length
      < forkHeaderSize (blocks.length + padding) + ((blocks.take i).flatten).length := by
    omega
  simp only [chunkedForkSlot, if_neg (Nat.not_le.mpr hout), hstop, ok_bind, if_neg hforward, hrange,
    okOr]
  rfl

/-- Once the output is complete the other slots are passed over. -/
theorem foldlM_chunkedForkSlot_done {fork out : Bytes} (hout : n ≤ out.length) (src : Nat) :
    ∀ slots : List Nat,
      slots.foldlM (chunkedForkSlot codecs algorithm fork n) (out, src) = .ok (out, src) := by
  intro slots
  induction slots with
  | nil => rfl
  | cons i slots ih =>
    rw [List.foldlM_cons, chunkedForkSlot, if_pos hout]
    exact ih

/-- The loop over the slots, the used ones first. -/
theorem decodeChunkedResourceFork_eq
    (hfit : forkHeaderSize (blocks.length + padding) < 2 ^ 32) :
    decodeChunkedResourceFork codecs algorithm (chunkedFork blocks padding ++ trailing) n
      = ((List.range blocks.length).foldlM
          (chunkedForkSlot codecs algorithm (chunkedFork blocks padding ++ trailing) n)
          ([], forkHeaderSize (blocks.length + padding)) >>= fun s =>
        ((List.range padding).map (blocks.length + ·)).foldlM
          (chunkedForkSlot codecs algorithm (chunkedFork blocks padding ++ trailing) n) s).map
        Prod.fst := by
  have hdrop : (chunkedFork blocks padding ++ trailing).drop 0
      = toLeBytes 4 (forkHeaderSize (blocks.length + padding)) ++
        ((forkSlots blocks padding).flatMap (toLeBytes 4) ++ (blocks.flatten ++ trailing)) := by
    rw [List.drop_zero, chunkedFork, List.append_assoc, List.append_assoc]
  have hheader := leU32_of_drop hfit hdrop (Nat.zero_le _) (by decide)
  have hslots : forkHeaderSize (blocks.length + padding) / 4 = 1 + (blocks.length + padding) := by
    rw [forkHeaderSize]
    omega
  have hbig : ¬ 1 + (blocks.length + padding) < 1 := by omega
  simp only [decodeChunkedResourceFork, hheader, ok_bind, hslots, if_neg hbig,
    Nat.add_sub_cancel_left, List.range_add, List.foldlM_append]
  cases (List.range blocks.length).foldlM
      (chunkedForkSlot codecs algorithm (chunkedFork blocks padding ++ trailing) n)
      ([], forkHeaderSize (blocks.length + padding)) with
  | error f => rfl
  | ok s =>
    rw [ok_bind]
    cases ((List.range padding).map (blocks.length + ·)).foldlM
      (chunkedForkSlot codecs algorithm (chunkedFork blocks padding ++ trailing) n) s <;> rfl

/-- The used slots give the content, one chunk after the other. -/
theorem foldlM_chunkedForkSlot_blocks {content : Bytes}
    (hfit : forkHeaderSize (blocks.length + padding) + blocks.flatten.length < 2 ^ 32)
    (hlen : blocks.length = (fileChunks content).length)
    (hdecode : ∀ i block, blocks[i]? = some block →
      decodeChunk codecs algorithm block (chunk decmpfsChunkSize content i).length
        = .ok (chunk decmpfsChunkSize content i)) :
    ∀ k ≤ blocks.length, (List.range k).foldlM (chunkedForkSlot codecs algorithm
          (chunkedFork blocks padding ++ trailing) content.length)
          ([], forkHeaderSize (blocks.length + padding))
        = .ok (content.take (k * 65536),
            forkHeaderSize (blocks.length + padding) + ((blocks.take k).flatten).length) := by
  intro k
  induction k with
  | zero => intro _; simp [pure, Except.pure]
  | succ k ih =>
    intro hk
    have hb : blocks[k]? = some blocks[k] := List.getElem?_eq_getElem hk
    rw [length_fileChunks] at hlen
    have hle : k * 65536 ≤ content.length := by omega
    have hshort : (content.take (k * 65536)).length < content.length := by
      rw [List.length_take]
      omega
    have hsize : min (content.length - (content.take (k * 65536)).length) decmpfsChunkSize
        = (chunk decmpfsChunkSize content k).length := by
      rw [length_chunk_file, List.length_take, Nat.min_eq_left hle]
    have hnext : content.take (k * 65536) ++ chunk decmpfsChunkSize content k
        = content.take ((k + 1) * 65536) := by
      rw [Nat.succ_mul, List.take_add]
      rfl
    rw [List.range_succ, List.foldlM_append, ih (by omega), ok_bind, List.foldlM_cons,
      chunkedForkSlot_block trailing hfit hb hshort, hsize, hdecode k _ hb, ok_bind, ok_bind, hnext]
    rfl

/-- **A chunked fork decodes to the content.** -/
theorem decodeChunkedResourceFork_content {content : Bytes}
    (hfit : forkHeaderSize (blocks.length + padding) + blocks.flatten.length < 2 ^ 32)
    (hlen : blocks.length = (fileChunks content).length)
    (hdecode : ∀ i block, blocks[i]? = some block →
      decodeChunk codecs algorithm block (chunk decmpfsChunkSize content i).length
        = .ok (chunk decmpfsChunkSize content i)) :
    decodeChunkedResourceFork codecs algorithm (chunkedFork blocks padding ++ trailing)
      content.length = .ok content := by
  have hall : content.take (blocks.length * 65536) = content := by
    rw [hlen, ← flatten_take_fileChunks le_rfl, List.take_length, flatten_fileChunks]
  rw [decodeChunkedResourceFork_eq trailing (by omega),
    foldlM_chunkedForkSlot_blocks trailing hfit hlen hdecode _ le_rfl, ok_bind, hall,
    foldlM_chunkedForkSlot_done le_rfl]
  rfl

end Chunked

/-! ### Zlib forks -/

/-- The words of the block table: the number of blocks, then each offset and size. -/
def zlibTable (placed : List (Nat × Bytes)) : List Nat :=
  placed.length :: placed.flatMap fun p => [p.1, p.2.length]

/-- The fork of type 4 that holds these blocks at these offsets.  They may stand in any
order, with gaps between them. -/
structure ZlibFork (fork : Bytes) (headerSize : Nat) (placed : List (Nat × Bytes)) : Prop where
  header_lt : headerSize < 2 ^ 32
  count_lt : placed.length < 2 ^ 32
  entry_lt : ∀ p ∈ placed, p.1 < 2 ^ 32 ∧ p.2.length < 2 ^ 32
  header_eq : getRange fork 0 4 = some (toLeBytes 4 headerSize).reverse
  table_eq : getRange fork (headerSize + 4) (headerSize + 4 + 4 * (1 + 2 * placed.length))
    = some ((zlibTable placed).flatMap (toLeBytes 4))
  block_eq : ∀ p ∈ placed,
    getRange fork (headerSize + 4 + p.1) (headerSize + 4 + p.1 + p.2.length) = some p.2

theorem getElem?_zlibTable : ∀ {placed : List (Nat × Bytes)} {i : Nat} {p : Nat × Bytes},
    placed[i]? = some p →
      (zlibTable placed)[1 + 2 * i]? = some p.1 ∧ (zlibTable placed)[2 + 2 * i]? = some p.2.length := by
  intro placed
  have hwords : ∀ (placed : List (Nat × Bytes)) (i : Nat) (p : Nat × Bytes), placed[i]? = some p →
      (placed.flatMap fun p => [p.1, p.2.length])[2 * i]? = some p.1 ∧
        (placed.flatMap fun p => [p.1, p.2.length])[2 * i + 1]? = some p.2.length := by
    intro placed
    induction placed with
    | nil => intro i p h; cases h
    | cons a placed ih =>
      intro i p h
      rw [List.flatMap_cons]
      cases i with
      | zero => cases h; exact ⟨rfl, rfl⟩
      | succ i => exact ih i p h
  intro i p h
  rw [zlibTable, Nat.add_comm 1, Nat.add_comm 2, List.getElem?_cons_succ, List.getElem?_cons_succ]
  exact hwords placed i p h

/-- A loop over indices is one over the elements. -/
theorem foldlM_range_getElem {α σ : Type} {f : σ → α → Result σ} {g : σ → Nat → Result σ} :
    ∀ {l : List α}, (∀ i a, l[i]? = some a → ∀ s, g s i = f s a) →
      ∀ s, (List.range l.length).foldlM g s = l.foldlM f s := by
  intro l
  induction l using List.reverseRecOn with
  | nil => intro _ s; rfl
  | append_singleton l a ih =>
    intro h s
    have hinit : ∀ i b, l[i]? = some b → ∀ s, g s i = f s b := by
      intro i b hb
      obtain ⟨hi, _⟩ := List.getElem?_eq_some_iff.mp hb
      exact h i b (by rwa [List.getElem?_append_left hi])
    have hlast : ∀ s, g s l.length = f s a := h l.length a (by simp)
    rw [List.length_append, List.length_singleton, List.range_succ, List.foldlM_append,
      List.foldlM_append, ih hinit]
    simp only [List.foldlM_cons, List.foldlM_nil, hlast]

namespace ZlibFork

variable {codecs : Codecs} {fork : Bytes} {headerSize i : Nat} {placed : List (Nat × Bytes)}

theorem beU32_header (h : ZlibFork fork headerSize placed) :
    beU32 fork 0 = .ok headerSize := by
  obtain ⟨hdrop, _⟩ := drop_of_getRange h.header_eq
  refine readInt_of_drop hdrop ?_ ?_ (Nat.zero_le _) (by decide)
  · rw [List.length_reverse, length_toLeBytes]
  · rw [List.reverse_reverse]
    exact fromLeBytes_toLeBytes 4 headerSize h.header_lt

/-- Word `j` of the table. -/
theorem leU32_table (h : ZlibFork fork headerSize placed) {j w : Nat}
    (hw : (zlibTable placed)[j]? = some w) (hlt : w < 2 ^ 32) :
    Compression.leU32 fork (headerSize + 4 + j * 4) = .ok w := by
  obtain ⟨hdrop, _⟩ := drop_of_getRange h.table_eq
  obtain ⟨⟨_, hend⟩, _⟩ := getRange_eq_some_iff.mp h.table_eq
  obtain ⟨hj, _⟩ := List.getElem?_eq_some_iff.mp hw
  have hwords : (zlibTable placed).length = 1 + 2 * placed.length := by
    rw [zlibTable, List.length_cons, List.length_flatMap]
    simp
    omega
  have hcount := h.count_lt
  have hheader := h.header_lt
  have hword := drop_words _ (fork.drop (headerSize + 4 + 4 * (1 + 2 * placed.length))) hw
  rw [← hdrop, List.drop_drop] at hword
  refine leU32_of_drop hlt hword (by omega) ?_
  unfold u64Max
  omega

theorem zlibForkBlock_eq (h : ZlibFork fork headerSize placed) {p : Nat × Bytes}
    (hp : placed[i]? = some p) (out : Bytes) :
    zlibForkBlock codecs fork (headerSize + 4) out i
      = inflate codecs p.2 >>= fun decoded => .ok (out ++ decoded) := by
  obtain ⟨hi, _⟩ := List.getElem?_eq_some_iff.mp hp
  obtain ⟨hoff, hsize⟩ := getElem?_zlibTable hp
  obtain ⟨hoffLt, hsizeLt⟩ := h.entry_lt p (List.mem_of_getElem? hp)
  have hcount := h.count_lt
  have hheader := h.header_lt
  have hentry : (checkedAdd (headerSize + 4) 4).bind
      (fun b => (checkedMul i 8).bind (checkedAdd b)) = some (headerSize + 4 + (1 + 2 * i) * 4) := by
    rw [checkedAdd_of_le (by unfold u64Max; omega), checkedMul_of_le (by unfold u64Max; omega),
      Option.bind_some, Option.bind_some, checkedAdd_of_le (by unfold u64Max; omega)]
    congr 1
    omega
  have hstart := checkedAdd_of_le (show headerSize + 4 + p.1 ≤ u64Max by unfold u64Max; omega)
  have hstop := checkedAdd_of_le
    (show headerSize + 4 + p.1 + p.2.length ≤ u64Max by unfold u64Max; omega)
  have hreadOff := h.leU32_table hoff hoffLt
  have hreadSize := h.leU32_table hsize hsizeLt
  have hnext : headerSize + 4 + (1 + 2 * i) * 4 + 4 = headerSize + 4 + (2 + 2 * i) * 4 := by omega
  have hblock := h.block_eq p (List.mem_of_getElem? hp)
  simp only [zlibForkBlock, hentry, okOr, ok_bind, hreadOff, hnext, hreadSize, hstart, hstop, hblock]
  rfl

/-- **A zlib fork decodes to its blocks, in the order of the table.** -/
theorem decodeZlibResourceFork_eq (h : ZlibFork fork headerSize placed) :
    decodeZlibResourceFork codecs fork
      = placed.foldlM (fun out p => inflate codecs p.2 >>= fun decoded => .ok (out ++ decoded))
          [] := by
  have hheader := h.header_lt
  have htable := checkedAdd_of_le (show headerSize + 4 ≤ u64Max by unfold u64Max; omega)
  have hcount : Compression.leU32 fork (headerSize + 4) = .ok placed.length := by
    have hfirst : (zlibTable placed)[0]? = some placed.length := rfl
    exact h.leU32_table hfirst h.count_lt
  simp only [decodeZlibResourceFork, h.beU32_header, ok_bind, htable, okOr, hcount]
  exact foldlM_range_getElem (fun i p hp out => h.zlibForkBlock_eq hp out) []

end ZlibFork

/-- Blocks that decode to the chunks of a file give its content. -/
theorem foldlM_inflate {codecs : Codecs} {placed : List (Nat × Bytes)} {chunks : List Bytes}
    (h : List.Forall₂ (codecs.Decodes .zlib) (placed.map Prod.snd) chunks) : ∀ out : Bytes,
      placed.foldlM (fun out p => inflate codecs p.2 >>= fun decoded => .ok (out ++ decoded)) out
        = .ok (out ++ chunks.flatten) := by
  induction placed generalizing chunks with
  | nil =>
    intro out
    cases h
    simp [pure, Except.pure]
  | cons p placed ih =>
    intro out
    cases h with
    | @cons _ c _ chunks hp hrest =>
      have hinflate : inflate codecs p.2 = .ok c := mapCodecErr_eq_ok_iff.mpr hp
      rw [List.foldlM_cons, hinflate, ok_bind, ok_bind, ih hrest, List.flatten_cons,
        List.append_assoc]

/-! ### Reassembly -/

/-- The types of the chunked forks. -/
def chunkedForkTypes : List (Nat × Algorithm) := [(8, .lzvn), (10, .uncompressed), (12, .lzfse)]

theorem decodeChunk_of_decodes {codecs : Codecs} {algorithm : Algorithm} {t : Nat}
    {block c : Bytes} (ht : (t, algorithm) ∈ chunkedForkTypes)
    (h : codecs.Decodes algorithm block c) :
    decodeChunk codecs algorithm block c.length = .ok c := by
  simp only [chunkedForkTypes, List.mem_cons, Prod.mk.injEq, List.not_mem_nil, or_false] at ht
  rcases ht with ⟨_, rfl⟩ | ⟨_, rfl⟩ | ⟨_, rfl⟩
  · exact mapCodecErr_eq_ok_iff.mpr h
  · exact congrArg Except.ok h
  · exact mapCodecErr_eq_ok_iff.mpr h

/-- The number of chunks bounds the size of a file. -/
theorem length_lt_of_chunks {content : Bytes} {k : Nat} (hk : k = (fileChunks content).length)
    (hlt : k < 2 ^ 32) : content.length < 2 ^ 64 := by
  rw [length_fileChunks] at hk
  omega

theorem decompressDecmpfs_fork {codecs : Codecs} {algorithm : Algorithm} {t n : Nat}
    {rest fork out : Bytes} (ht : t < 2 ^ 32) (hn : n < 2 ^ 64)
    (hkind : codecs.classify t = some ⟨algorithm, .resourceFork⟩)
    (hbitmap : algorithm ≠ .lzBitmap) :
    decompressDecmpfs codecs (cmpfHeader t n ++ rest) (some fork) = .ok out ↔
      decodeResourceFork codecs algorithm fork n = .ok out ∧ out.length = n := by
  rw [decompressDecmpfs_cmpfHeader ht hn hkind hbitmap]
  rfl

/-- **Reassembly inverts chunking.**  Let the blocks decode to the chunks of the content,
in order.  Whether they stand in a chunked fork of type 8, 10 or 12, with any number
of unused slots, or anywhere in a zlib fork: `decompress_decmpfs` returns the
content. -/
theorem resource_fork_reassembly {codecs : Codecs} (htable : codecs.Table)
    (content rest : Bytes) :
    (∀ t algorithm, (t, algorithm) ∈ chunkedForkTypes → ∀ blocks padding trailing,
      List.Forall₂ (codecs.Decodes algorithm) blocks (fileChunks content) →
      forkHeaderSize (blocks.length + padding) + blocks.flatten.length < 2 ^ 32 →
      decompressDecmpfs codecs (cmpfHeader t content.length ++ rest)
        (some (chunkedFork blocks padding ++ trailing)) = .ok content) ∧
    (∀ fork headerSize placed, ZlibFork fork headerSize placed →
      List.Forall₂ (codecs.Decodes .zlib) (placed.map Prod.snd) (fileChunks content) →
      decompressDecmpfs codecs (cmpfHeader 4 content.length ++ rest) (some fork)
        = .ok content) := by
  constructor
  · intro t algorithm ht blocks padding trailing hblocks hfit
    have hlen := hblocks.length_eq
    have hsize : content.length < 2 ^ 64 := by
      refine length_lt_of_chunks hlen ?_
      rw [forkHeaderSize] at hfit
      omega
    have hdecode : ∀ i block, blocks[i]? = some block →
        decodeChunk codecs algorithm block (chunk decmpfsChunkSize content i).length
          = .ok (chunk decmpfsChunkSize content i) := by
      intro i block hb
      obtain ⟨hi, hget⟩ := List.getElem?_eq_some_iff.mp hb
      have hchunk := getElem?_fileChunks (hlen ▸ hi)
      obtain ⟨hi', hget'⟩ := List.getElem?_eq_some_iff.mp hchunk
      have hi_decodes := hblocks.get hi hi'
      rw [List.get_eq_getElem, List.get_eq_getElem, hget, hget'] at hi_decodes
      exact decodeChunk_of_decodes ht hi_decodes
    have hcontent := decodeChunkedResourceFork_content trailing hfit hlen hdecode
    simp only [chunkedForkTypes, List.mem_cons, Prod.mk.injEq, List.not_mem_nil, or_false] at ht
    rcases ht with ⟨rfl, rfl⟩ | ⟨rfl, rfl⟩ | ⟨rfl, rfl⟩
    · exact (decompressDecmpfs_fork (by decide) hsize htable.type8 (by decide)).mpr ⟨hcontent, rfl⟩
    · exact (decompressDecmpfs_fork (by decide) hsize htable.type10 (by decide)).mpr ⟨hcontent, rfl⟩
    · exact (decompressDecmpfs_fork (by decide) hsize htable.type12 (by decide)).mpr ⟨hcontent, rfl⟩
  · intro fork headerSize placed hfork hblocks
    have hlen := hblocks.length_eq
    rw [List.length_map] at hlen
    have hsize := length_lt_of_chunks hlen hfork.count_lt
    have hcontent : decodeZlibResourceFork codecs fork = .ok content := by
      rw [hfork.decodeZlibResourceFork_eq, foldlM_inflate hblocks, flatten_fileChunks,
        List.nil_append]
    exact (decompressDecmpfs_fork (by decide) hsize htable.type4 (by decide)).mpr ⟨hcontent, rfl⟩

/-! ### A file of two chunks

Each codec is a code for runs of one byte. -/

/-- `[1, b]` is the byte `b`, or as many as LZVN is asked for; `[2, b]` is a full chunk. -/
def Codecs.runLength : Codecs where
  classify compressionType :=
    match compressionType with
    | 3 => some ⟨.zlib, .inline⟩
    | 4 => some ⟨.zlib, .resourceFork⟩
    | 7 => some ⟨.lzvn, .inline⟩
    | 8 => some ⟨.lzvn, .resourceFork⟩
    | 10 => some ⟨.uncompressed, .resourceFork⟩
    | 12 => some ⟨.lzfse, .resourceFork⟩
    | _ => none
  zlib data :=
    match data with
    | [1, b] => .ok [b]
    | [2, b] => .ok (List.replicate 65536 b)
    | _ => .error .refused
  lzvn data n :=
    match data with
    | [1, b] => .ok (List.replicate n b)
    | _ => .error .refused
  lzfse _ := .error .refused

theorem runLength_table : Codecs.runLength.Table := ⟨rfl, rfl, rfl, rfl, rfl, rfl⟩

/-- The block of the last chunk stands first, and a byte lies between the two. -/
def scatteredFork : Bytes :=
  (toLeBytes 4 4).reverse ++ toLeBytes 4 0 ++
    (zlibTable [(23, [2, 7]), (20, [1, 7])]).flatMap (toLeBytes 4) ++ [1, 7, 0, 2, 7]

theorem zlibFork_scattered : ZlibFork scatteredFork 4 [(23, [2, 7]), (20, [1, 7])] where
  header_lt := by decide
  count_lt := by decide
  entry_lt := by decide
  header_eq := by decide +kernel
  table_eq := by decide +kernel
  block_eq := by decide +kernel

theorem fileChunks_run (b : UInt8) :
    fileChunks (List.replicate 65537 b) = [List.replicate 65536 b, [b]] := by
  have hcount : List.range ((65537 + 65535) / 65536) = [0, 1] := rfl
  have hchunk : ∀ i, chunk decmpfsChunkSize (List.replicate 65537 b) i
      = List.replicate (min 65536 (65537 - i * 65536)) b := by
    intro i
    rw [chunk, List.drop_replicate, List.take_replicate]
    rfl
  rw [fileChunks, List.length_replicate, hcount, List.map_cons, List.map_singleton, hchunk, hchunk]
  rfl

theorem reassembly_run :
    decompressDecmpfs .runLength (cmpfHeader 8 65537) (some (chunkedFork [[1, 7], [1, 7]] 1))
        = .ok (List.replicate 65537 7) ∧
      decompressDecmpfs .runLength (cmpfHeader 4 65537) (some scatteredFork)
        = .ok (List.replicate 65537 7) := by
  obtain ⟨hchunked, hzlib⟩ := resource_fork_reassembly runLength_table (List.replicate 65537 7) []
  rw [fileChunks_run, List.length_replicate] at hchunked hzlib
  have hlzvn : List.Forall₂ (Codecs.runLength.Decodes .lzvn) [[1, 7], [1, 7]]
      [List.replicate 65536 7, [7]] := by
    refine .cons ?_ (.cons rfl .nil)
    rw [Codecs.Decodes, List.length_replicate]
    rfl
  have hblocks : List.Forall₂ (Codecs.runLength.Decodes .zlib) [[2, 7], [1, 7]]
      [List.replicate 65536 7, [7]] := .cons rfl (.cons rfl .nil)
  have hfork := hchunked 8 .lzvn (by decide) [[1, 7], [1, 7]] 1 [] hlzvn (by decide)
  rw [List.append_nil, List.append_nil] at hfork
  have hscattered := hzlib scatteredFork 4 _ zlibFork_scattered hblocks
  rw [List.append_nil] at hscattered
  exact ⟨hfork, hscattered⟩

/-! ### Raw-stored payloads

`decode_inline` takes a payload with a leading `0xFF`, or `0x06` for LZVN, as stored
verbatim.  The decoders of the forks hand it to the codec. -/

/-- What the two formats say of the marker bytes: `0xFF` starts no zlib stream, as its
compression method would be 15, and `0x06` is the end of an LZVN stream.  So nothing is decoded
from what follows; whether the decoder refuses it or stops with no output is left open. -/
structure Codecs.MarkersAreRaw (codecs : Codecs) : Prop where
  zlib_nil : ∀ data out, codecs.zlib (0xff :: data) = .ok out → out = []
  lzvn_nil : ∀ data n out, codecs.lzvn (0x06 :: data) n = .ok out → out = []

section Raw

variable {codecs : Codecs} {payload rest : Bytes} {n : Nat}

theorem decompressDecmpfs_inline {algorithm : Algorithm} {t : Nat} {out : Bytes} (ht : t < 2 ^ 32)
    (hn : n < 2 ^ 64) (hkind : codecs.classify t = some ⟨algorithm, .inline⟩)
    (hbitmap : algorithm ≠ .lzBitmap) (fork : Option Bytes) :
    decompressDecmpfs codecs (cmpfHeader t n ++ payload) fork = .ok out ↔
      decodeInline codecs algorithm payload n t = .ok out ∧ out.length = n := by
  rw [decompressDecmpfs_cmpfHeader ht hn hkind hbitmap, decodePayload_inline]

/-- One block in a zlib fork. -/
theorem decodeZlibResourceFork_one {fork : Bytes} {headerSize offset : Nat}
    (h : ZlibFork fork headerSize [(offset, payload)]) :
    decodeZlibResourceFork codecs fork = inflate codecs payload := by
  rw [h.decodeZlibResourceFork_eq, List.foldlM_cons]
  cases inflate codecs payload <;> rfl

/-- An unused slot ends before it starts. -/
theorem chunkedForkSlot_padding {algorithm : Algorithm} {padding src i : Nat}
    {blocks : List Bytes} {out trailing : Bytes}
    (hfit : forkHeaderSize (blocks.length + padding) < 2 ^ 32)
    (hi : blocks.length ≤ i ∧ i < blocks.length + padding) (hout : out.length < n)
    (hsrc : 0 < src) :
    chunkedForkSlot codecs algorithm (chunkedFork blocks padding ++ trailing) n (out, src) i
      = .error (.err (.decmpfs "decmpfs chunked fork end-offset goes backward")) := by
  have hslot : (forkSlots blocks padding)[i]? = some 0 := by
    rw [forkSlots, List.getElem?_append_right (by rw [length_endOffsets]; exact hi.1),
      length_endOffsets, List.getElem?_replicate_of_lt (by omega)]
  have hstop := leU32_forkSlot trailing hfit hslot (by decide)
  simp only [chunkedForkSlot, if_neg (Nat.not_le.mpr hout), hstop, ok_bind, if_pos hsrc]
  rfl

/-- The unused slots: an output of the right length goes through them, and no other does
that is too short. -/
theorem foldlM_chunkedForkSlot_padding {algorithm : Algorithm} {padding src : Nat}
    {blocks : List Bytes} {decoded out trailing : Bytes}
    (hfit : forkHeaderSize (blocks.length + padding) < 2 ^ 32) (hsrc : 0 < src) :
    (((List.range padding).map (blocks.length + ·)).foldlM (chunkedForkSlot codecs algorithm
        (chunkedFork blocks padding ++ trailing) n) (decoded, src)).map Prod.fst = .ok out ∧
        out.length = n ↔
      decoded = out ∧ out.length = n := by
  by_cases hlen : n ≤ decoded.length
  · rw [foldlM_chunkedForkSlot_done hlen, Except.map, Except.ok.injEq]
  · have hne : ¬ (decoded = out ∧ out.length = n) := by
      rintro ⟨rfl, hn⟩
      exact hlen (Nat.le_of_eq hn.symm)
    cases padding with
    | zero => rw [List.range_zero, List.map_nil, List.foldlM_nil]; simp [pure, Except.pure, Except.map]
    | succ padding =>
      have hfirst := @chunkedForkSlot_padding codecs n algorithm (padding + 1) src
        (blocks.length + 0) blocks decoded trailing hfit ⟨le_rfl, by omega⟩ (Nat.not_le.mp hlen) hsrc
      rw [List.range_succ_eq_map, List.map_cons, List.foldlM_cons, hfirst]
      constructor
      · rintro ⟨herr, _⟩
        cases herr
      · exact fun h => absurd h hne

/-- The slot of the only block, on which the whole output depends. -/
theorem foldlM_chunkedForkSlot_one {algorithm : Algorithm} {padding : Nat} (trailing : Bytes)
    (hfit : forkHeaderSize ([payload].length + padding) + [payload].flatten.length < 2 ^ 32)
    (hn : 0 < n ∧ n ≤ 65536) :
    (List.range [payload].length).foldlM
        (chunkedForkSlot codecs algorithm (chunkedFork [payload] padding ++ trailing) n)
        ([], forkHeaderSize ([payload].length + padding))
      = decodeChunk codecs algorithm payload n >>= fun decoded =>
        .ok (decoded, forkHeaderSize ([payload].length + padding)
          + (([payload].take (0 + 1)).flatten).length) := by
  have hempty : ([] : Bytes).length < n := hn.1
  have hblock : [payload][0]? = some payload := rfl
  have hsize : min (n - ([] : Bytes).length) decmpfsChunkSize = n := Nat.min_eq_left hn.2
  have hslot := @chunkedForkSlot_block codecs algorithm _ 0 n padding trailing _ _ hfit hblock
    hempty
  rw [hsize] at hslot
  rw [List.length_singleton, List.range_one, List.foldlM_cons]
  exact (congrArg (· >>= pure) hslot).trans (bind_pure _)

/-- One block in a chunked fork: it is decoded if anything is to be, and must then give
all of it. -/
theorem decodeChunkedResourceFork_one {algorithm : Algorithm} {padding : Nat} {trailing out : Bytes}
    (hfit : forkHeaderSize (1 + padding) + payload.length < 2 ^ 32) (hn : n ≤ 65536) :
    decodeChunkedResourceFork codecs algorithm (chunkedFork [payload] padding ++ trailing) n
        = .ok out ∧ out.length = n ↔
      n = 0 ∧ out = [] ∨
        0 < n ∧ decodeChunk codecs algorithm payload n = .ok out ∧ out.length = n := by
  have hblocks : forkHeaderSize ([payload].length + padding) + [payload].flatten.length < 2 ^ 32 := by
    simpa using hfit
  rw [decodeChunkedResourceFork_eq trailing (by omega)]
  rcases Nat.eq_zero_or_pos n with rfl | hpos
  · rw [foldlM_chunkedForkSlot_done (Nat.zero_le _), ok_bind,
      foldlM_chunkedForkSlot_done (Nat.zero_le _), Except.map, Except.ok.injEq]
    constructor
    · rintro ⟨rfl, _⟩
      exact Or.inl ⟨rfl, rfl⟩
    · rintro (⟨_, rfl⟩ | ⟨hlt, _⟩)
      · exact ⟨rfl, rfl⟩
      · exact absurd hlt (Nat.lt_irrefl 0)
  · have hsrc : 0 < forkHeaderSize ([payload].length + padding)
        + ((([payload].take (0 + 1)).flatten).length) := by
      rw [forkHeaderSize]
      omega
    rw [foldlM_chunkedForkSlot_one trailing hblocks ⟨hpos, hn⟩]
    cases decodeChunk codecs algorithm payload n with
    | error f =>
      constructor
      · rintro ⟨herr, _⟩
        cases herr
      · rintro (⟨hzero, _⟩ | ⟨_, herr, _⟩)
        · omega
        · cases herr
    | ok decoded =>
      have hunused : forkHeaderSize ([payload].length + padding) < 2 ^ 32 := by omega
      rw [ok_bind, ok_bind, foldlM_chunkedForkSlot_padding hunused hsrc, Except.ok.injEq]
      constructor
      · exact fun h => Or.inr ⟨hpos, h⟩
      · rintro (⟨hzero, _⟩ | ⟨_, h⟩)
        · omega
        · exact h

theorem length_of_head {b : UInt8} (h : payload.head? = some b) :
    payload = b :: payload.drop 1 ∧ payload.length = (payload.drop 1).length + 1 := by
  obtain ⟨tail, rfl⟩ := List.head?_eq_some_iff.mp h
  exact ⟨rfl, rfl⟩

/-- The zlib decoders differ on the payloads that are stored raw; on a marker with nothing
behind it they differ if the codec refuses it. -/
theorem inflate_of_inline_iff (hmarkers : codecs.MarkersAreRaw) :
    (∀ out, decodeInline codecs .zlib payload n 3 = .ok out ∧ out.length = n →
        inflate codecs payload = .ok out ∧ out.length = n) ↔
      ¬ (payload.head? = some 0xff ∧ payload.length = n + 1 ∧
        (0 < n ∨ codecs.zlib [0xff] ≠ .ok [])) := by
  by_cases hraw : payload.head? = some 0xff
  · obtain ⟨hcons, hlen⟩ := length_of_head hraw
    simp only [decodeInline, hraw, if_true, Except.ok.injEq, true_and, inflate,
      mapCodecErr_eq_ok_iff]
    constructor
    · rintro h ⟨hn, hseen⟩
      obtain ⟨hdecode, hlen'⟩ := h (payload.drop 1) ⟨rfl, by omega⟩
      rw [hcons] at hdecode
      have hnil : payload.drop 1 = [] := hmarkers.zlib_nil _ _ hdecode
      rw [hnil] at hdecode hlen'
      rcases hseen with hpos | hrefused
      · exact absurd hlen' (Nat.ne_of_lt hpos)
      · exact hrefused hdecode
    · rintro hne out ⟨rfl, hn⟩
      -- the file is empty, and the codec stops with no output
      have hempty : ¬ (0 < n ∨ codecs.zlib [0xff] ≠ .ok []) := fun hseen =>
        hne ⟨by omega, hseen⟩
      obtain ⟨hzero, hlone⟩ := not_or.mp hempty
      have hnil : payload.drop 1 = [] := List.eq_nil_of_length_eq_zero (by omega)
      rw [hcons, hnil]
      exact ⟨not_not.mp hlone, (Nat.eq_zero_of_not_pos hzero).symm⟩
  · simp only [decodeInline, hraw, if_false, false_and, not_false_eq_true, iff_true]
    exact fun out h => h

/-- So do the LZVN decoders, but a fork of an empty file is not decoded at all. -/
theorem lzvn_of_inline_iff (hmarkers : codecs.MarkersAreRaw) :
    (∀ out, decodeInline codecs .lzvn payload n 7 = .ok out ∧ out.length = n →
        n = 0 ∧ out = [] ∨ 0 < n ∧ decodeChunk codecs .lzvn payload n = .ok out ∧ out.length = n) ↔
      ¬ (payload.head? = some 0x06 ∧ payload.length = n + 1 ∧ 0 < n) := by
  have hempty : ∀ {out : Bytes}, out.length = n → n = 0 → n = 0 ∧ out = [] := by
    intro out hlen hzero
    exact ⟨hzero, List.eq_nil_of_length_eq_zero (hlen.trans hzero)⟩
  by_cases hraw : payload.head? = some 0x06
  · obtain ⟨hcons, hlen⟩ := length_of_head hraw
    simp only [decodeInline, hraw, if_true, Except.ok.injEq, true_and]
    constructor
    · rintro h ⟨hn, hpos⟩
      rcases h (payload.drop 1) ⟨rfl, by omega⟩ with ⟨hzero, _⟩ | ⟨_, hdecode, hlen'⟩
      · omega
      · rw [decodeChunk, lzvnDecode, mapCodecErr_eq_ok_iff, hcons] at hdecode
        have hnil : payload.drop 1 = [] := hmarkers.lzvn_nil _ _ _ hdecode
        rw [hnil] at hlen'
        exact absurd hlen' (Nat.ne_of_lt hpos)
    · rintro hne out ⟨rfl, hn⟩
      refine Or.inl (hempty hn ?_)
      by_contra hzero
      exact hne ⟨by omega, by omega⟩
  · simp only [decodeInline, hraw, if_false, false_and, not_false_eq_true, iff_true]
    rintro out ⟨hdecode, hlen⟩
    rcases Nat.eq_zero_or_pos n with hzero | hpos
    · exact Or.inl (hempty hlen hzero)
    · exact Or.inr ⟨hpos, hdecode, hlen⟩

/-- **When a payload decodes alike in both places.**  What the inline types return for a
payload is also returned if the payload is the only block of a fork, exactly if it is
not stored raw.  Of an empty file nothing is stored but the marker: a zlib fork then fails only
if the codec refuses the lone marker, and an LZVN fork is never looked at. -/
theorem inline_fork_agree_iff (htable : codecs.Table) (hmarkers : codecs.MarkersAreRaw)
    (payload rest : Bytes) (hn : n ≤ 65536) :
    (∀ fork headerSize offset, ZlibFork fork headerSize [(offset, payload)] →
      ((∀ out, decompressDecmpfs codecs (cmpfHeader 3 n ++ payload) none = .ok out →
          decompressDecmpfs codecs (cmpfHeader 4 n ++ rest) (some fork) = .ok out) ↔
        ¬ (payload.head? = some 0xff ∧ payload.length = n + 1 ∧
          (0 < n ∨ codecs.zlib [0xff] ≠ .ok [])))) ∧
    (∀ padding trailing, forkHeaderSize (1 + padding) + payload.length < 2 ^ 32 →
      ((∀ out, decompressDecmpfs codecs (cmpfHeader 7 n ++ payload) none = .ok out →
          decompressDecmpfs codecs (cmpfHeader 8 n ++ rest)
            (some (chunkedFork [payload] padding ++ trailing)) = .ok out) ↔
        ¬ (payload.head? = some 0x06 ∧ payload.length = n + 1 ∧ 0 < n))) := by
  have hsize : n < 2 ^ 64 := by omega
  constructor
  · intro fork headerSize offset hfork
    simp only [decompressDecmpfs_inline (by decide) hsize htable.type3 (by decide),
      decompressDecmpfs_fork (by decide) hsize htable.type4 (by decide), decodeResourceFork,
      decodeZlibResourceFork_one hfork]
    exact inflate_of_inline_iff hmarkers
  · intro padding trailing hfit
    simp only [decompressDecmpfs_inline (by decide) hsize htable.type7 (by decide),
      decompressDecmpfs_fork (by decide) hsize htable.type8 (by decide), decodeResourceFork,
      decodeChunkedResourceFork_one hfit hn]
    exact lzvn_of_inline_iff hmarkers

end Raw

theorem runLength_markersAreRaw : Codecs.runLength.MarkersAreRaw where
  zlib_nil data out h := by
    cases data with
    | nil => cases h
    | cons b data => cases data <;> cases h
  lzvn_nil data n out h := by
    cases data with
    | nil => cases h
    | cons b data => cases data <;> cases h

/-- A zlib fork of one block, right behind its table. -/
def singleZlibFork (payload : Bytes) : Bytes :=
  (toLeBytes 4 4).reverse ++ toLeBytes 4 0 ++ (zlibTable [(12, payload)]).flatMap (toLeBytes 4) ++
    payload

theorem inline_fork_agree_run :
    decompressDecmpfs .runLength (cmpfHeader 4 1) (some (singleZlibFork [1, 7])) = .ok [7] ∧
      decompressDecmpfs .runLength (cmpfHeader 8 1) (some (chunkedFork [[1, 7]] 0)) = .ok [7] := by
  obtain ⟨hzlib, hlzvn⟩ := @inline_fork_agree_iff .runLength 1 runLength_table
    runLength_markersAreRaw [1, 7] [] (by decide)
  have hfork : ZlibFork (singleZlibFork [1, 7]) 4 [(12, [1, 7])] :=
    ⟨by decide, by decide, by decide, by decide +kernel, by decide +kernel, by decide +kernel⟩
  have hinline3 : decompressDecmpfs .runLength (cmpfHeader 3 1 ++ [1, 7]) none = .ok [7] := by
    decide +kernel
  have hinline7 : decompressDecmpfs .runLength (cmpfHeader 7 1 ++ [1, 7]) none = .ok [7] := by
    decide +kernel
  have hzlib := (hzlib _ _ _ hfork).mpr (by decide) [7] hinline3
  have hlzvn := (hlzvn 0 [] (by decide)).mpr (by decide) [7] hinline7
  rw [List.append_nil] at hzlib hlzvn
  rw [List.append_nil] at hlzvn
  exact ⟨hzlib, hlzvn⟩

/-- Three bytes that are stored raw are read inline, and refused from either fork. -/
theorem raw_payload_refused :
    decompressDecmpfs .runLength (cmpfHeader 3 3 ++ [0xff, 65, 66, 67]) none
        = .ok [65, 66, 67] ∧
      decompressDecmpfs .runLength (cmpfHeader 4 3) (some (singleZlibFork [0xff, 65, 66, 67]))
        = .error (.err (.decmpfs "decmpfs zlib codec error")) ∧
      decompressDecmpfs .runLength (cmpfHeader 7 3 ++ [0x06, 65, 66, 67]) none
        = .ok [65, 66, 67] ∧
      decompressDecmpfs .runLength (cmpfHeader 8 3) (some (chunkedFork [[0x06, 65, 66, 67]] 0))
        = .error (.err (.decmpfs "decmpfs lzvn codec error")) := by
  decide +kernel

end ApfsForensic
