import ApfsForensic.Core.Keybag
import Mathlib.Data.List.Induction

/-!
# The grammar of packed objects

The packed objects of a keybag are concatenations of BER fields: a tag of one byte, a
length in one of three forms, the value.  `core/src/encryption.rs` reads them with two
loops, `parse_wrapped_kek` and `ber_find`.

`Tlv` is a field with the form of its length; the length fits the form by its own field,
and the form need not be the shortest.  `encodeTlvs` is the concatenation.

* `kekStep_encode`, `tlv_of_kekStep`: one round reads exactly one field.
* `wrappedKekFrom_encode`, `tlvs_of_wrappedKekFrom`: the loop runs to its end on a
  concatenation of fields and on nothing else; what it keeps is the fold of `kekField`.
* `parse_wrapped_kek_grammar`: **the accepted strings**, and the result as the last value
  of each tag.
* `ber_find_agrees`: **the other loop** finds the same values where no tag is repeated.
-/

namespace ApfsForensic

/-! ### Fields -/

/-- A length of one byte, or of one or two bytes behind a marker. -/
inductive LengthForm where
  | short
  | one
  | two
  deriving DecidableEq, Repr

/-- The lengths that a form can hold. -/
def LengthForm.bound : LengthForm → Nat
  | .short => 0x80
  | .one => 0x100
  | .two => 0x10000

/-- The first byte of a length. -/
def LengthForm.first : LengthForm → Nat → UInt8
  | .short, n => UInt8.ofNat n
  | .one, _ => 0x81
  | .two, _ => 0x82

/-- The bytes behind the first one, big-endian. -/
def LengthForm.more : LengthForm → Nat → Bytes
  | .short, _ => []
  | .one, n => [UInt8.ofNat n]
  | .two, n => [UInt8.ofNat (n / 256), UInt8.ofNat (n % 256)]

structure Tlv where
  tag : UInt8
  form : LengthForm
  value : Bytes
  fits : value.length < form.bound
  deriving DecidableEq, Repr

def Tlv.encode (t : Tlv) : Bytes :=
  t.tag :: t.form.first t.value.length :: (t.form.more t.value.length ++ t.value)

def encodeTlvs (tlvs : List Tlv) : Bytes := tlvs.flatMap Tlv.encode

theorem encodeTlvs_cons (t : Tlv) (tlvs : List Tlv) :
    encodeTlvs (t :: tlvs) = t.encode ++ encodeTlvs tlvs := rfl

theorem length_encode (t : Tlv) :
    t.encode.length = 2 + (t.form.more t.value.length).length + t.value.length := by
  rw [Tlv.encode, List.length_cons, List.length_cons, List.length_append]
  omega

/-! ### Reading at an offset -/

section Offset

variable {data rest : Bytes} {off : Nat}

theorem byteAt_of_drop {b : UInt8} (h : data.drop off = b :: rest) :
    byteAt data off = some b.toNat := by
  have hget : data[off]? = (data.drop off)[0]? := by rw [List.getElem?_drop, Nat.add_zero]
  rw [byteAt, hget, h]
  rfl

theorem drop_of_byteAt {n : Nat} (h : byteAt data off = some n) :
    ∃ b : UInt8, b.toNat = n ∧ data.drop off = b :: data.drop (off + 1) := by
  rw [byteAt, Option.map_eq_some_iff] at h
  obtain ⟨b, hb, hn⟩ := h
  obtain ⟨hlt, hget⟩ := List.getElem?_eq_some_iff.mp hb
  exact ⟨b, hn, by rw [List.drop_eq_getElem_cons hlt, hget]⟩

theorem drop_succ_of_drop {b : UInt8} (h : data.drop off = b :: rest) :
    data.drop (off + 1) = rest := by
  have hcons : data.drop off = [b] ++ rest := h
  exact drop_add_of_drop hcons

end Offset

/-! ### Lengths -/

theorem and_0x80_eq_zero_iff {n : Nat} (h : n < 0x100) : n &&& 0x80 = 0 ↔ n < 0x80 := by
  have hall : ∀ m < 0x100, m &&& 0x80 = 0 ↔ m < 0x80 := by decide +kernel
  exact hall n h

theorem shiftLeft_or_byte (n : Nat) (b : UInt8) : (n <<< 8) ||| b.toNat = n * 256 + b.toNat := by
  rw [← Nat.shiftLeft_add_eq_or_of_lt b.toNat_lt, Nat.shiftLeft_eq]

/-- A length that fits its form is read back. -/
theorem kekLength_encode {data rest : Bytes} {off n : Nat} {form : LengthForm}
    (hfits : n < form.bound) (h : data.drop off = form.more n ++ rest) :
    kekLength data (form.first n).toNat off = .ok (n, off + (form.more n).length) := by
  cases form with
  | short =>
    have hn : n < 0x80 := hfits
    have hfirst : (UInt8.ofNat n).toNat = n := UInt8.toNat_ofNat_of_lt' (show n < 256 by omega)
    have hform : n &&& 0x80 = 0 := (and_0x80_eq_zero_iff (by omega)).mpr hn
    rw [LengthForm.first, hfirst, kekLength, if_pos hform]
    rfl
  | one =>
    have hn : n < 0x100 := hfits
    have hb := byteAt_of_drop h
    rw [UInt8.toNat_ofNat_of_lt' hn] at hb
    simp only [LengthForm.first, kekLength, kekByte, hb]
    rfl
  | two =>
    have hn : n < 0x10000 := hfits
    have hhi := byteAt_of_drop h
    have hlo := byteAt_of_drop (drop_succ_of_drop h)
    rw [UInt8.toNat_ofNat_of_lt' (show n / 256 < 256 by omega)] at hhi
    have hvalue : (n / 256) <<< 8 ||| (UInt8.ofNat (n % 256)).toNat = n := by
      rw [shiftLeft_or_byte, UInt8.toNat_ofNat_of_lt' (show n % 256 < 256 by omega)]
      omega
    simp only [LengthForm.first, kekLength, kekByte, hhi, hlo]
    show Except.ok ((n / 256) <<< 8 ||| (UInt8.ofNat (n % 256)).toNat, off + 2) = _
    rw [hvalue]
    rfl

/-- What is read as a length has one of the three forms. -/
theorem form_of_kekLength {data : Bytes} {first : UInt8} {off n start : Nat}
    (h : kekLength data first.toNat off = .ok (n, start)) :
    ∃ form : LengthForm, n < form.bound ∧ form.first n = first ∧
      data.drop off = form.more n ++ data.drop start ∧ start = off + (form.more n).length := by
  have hbyte : ∀ {field : String} {off reported b : Nat},
      kekByte data field off reported = .ok b → byteAt data off = some b := by
    intro field off reported b hb
    unfold kekByte at hb
    cases hat : byteAt data off with
    | none => rw [hat] at hb; cases hb
    | some c => rw [hat] at hb; cases hb; rfl
  unfold kekLength at h
  by_cases h0 : first.toNat &&& 0x80 = 0
  · rw [if_pos h0] at h
    cases h
    refine ⟨.short, (and_0x80_eq_zero_iff first.toNat_lt).mp h0, ?_, rfl, rfl⟩
    exact UInt8.ofNat_toNat
  rw [if_neg h0] at h
  by_cases h1 : first.toNat = 0x81
  · simp only [if_pos h1, bind_eq_ok_iff] at h
    obtain ⟨b, hb, h⟩ := h
    cases h
    obtain ⟨c, rfl, hdrop⟩ := drop_of_byteAt (hbyte hb)
    refine ⟨.one, c.toNat_lt, (UInt8.toNat_inj.mp h1).symm, ?_, rfl⟩
    rw [LengthForm.more, UInt8.ofNat_toNat]
    exact hdrop
  rw [if_neg h1] at h
  by_cases h2 : first.toNat = 0x82
  · simp only [if_pos h2, bind_eq_ok_iff] at h
    obtain ⟨hi, hhi, lo, hlo, h⟩ := h
    cases h
    obtain ⟨c, rfl, hdrop⟩ := drop_of_byteAt (hbyte hhi)
    obtain ⟨d, rfl, hdrop'⟩ := drop_of_byteAt (hbyte hlo)
    have hc := c.toNat_lt
    have hd := d.toNat_lt
    refine ⟨.two, ?_, (UInt8.toNat_inj.mp h2).symm, ?_, rfl⟩
    · rw [shiftLeft_or_byte, LengthForm.bound]
      omega
    · have hquot : (c.toNat * 256 + d.toNat) / 256 = c.toNat := by omega
      have hrem : (c.toNat * 256 + d.toNat) % 256 = d.toNat := by omega
      rw [LengthForm.more, shiftLeft_or_byte, hquot, hrem, UInt8.ofNat_toNat, UInt8.ofNat_toNat,
        hdrop, hdrop']
      rfl
  · rw [if_neg h2] at h
    cases h

/-! ### One round -/

/-- A round reads the field that the rest starts with. -/
theorem kekStep_encode {data rest : Bytes} {off : Nat} {t : Tlv} (hlen : data.length < 2 ^ 64)
    (h : data.drop off = t.encode ++ rest) :
    kekStep data off = .ok (t.tag.toNat, t.value, off + t.encode.length) := by
  have hoff : off ≤ data.length := by
    by_contra hlt
    rw [List.drop_eq_nil_of_le (by omega)] at h
    cases h
  have hdrop : data.drop (off + 2) = t.form.more t.value.length ++ (t.value ++ rest) := by
    rw [← List.append_assoc]
    exact drop_succ_of_drop (drop_succ_of_drop h)
  have htotal := length_of_drop hoff h
  have henc := length_encode t
  have hvalue := drop_add_of_drop hdrop
  have hrange := getRange_of_drop (by omega) hvalue
  have hadd : checkedAdd (off + 2 + (t.form.more t.value.length).length) t.value.length
      = some (off + t.encode.length) := by
    rw [checkedAdd, if_pos (by unfold u64Max; omega), henc]
    congr 1
    omega
  have hstop : off + 2 + (t.form.more t.value.length).length + t.value.length
      = off + t.encode.length := by omega
  rw [hstop] at hrange
  simp only [kekStep, kekByte, byteAt_of_drop h, byteAt_of_drop (drop_succ_of_drop h), ok_bind,
    kekLength_encode t.fits hdrop, hadd, hrange]
  rfl

/-- What a round reads is a field. -/
theorem tlv_of_kekStep {data value : Bytes} {off tag stop : Nat}
    (h : kekStep data off = .ok (tag, value, stop)) :
    ∃ t : Tlv, t.tag.toNat = tag ∧ t.value = value ∧
      data.drop off = t.encode ++ data.drop stop ∧ stop = off + t.encode.length := by
  simp only [kekStep, kekByte, bind_eq_ok_iff, Prod.exists] at h
  obtain ⟨_, htag, _, hfirst, len, start, hform, h⟩ := h
  cases htag' : byteAt data off with
  | none => rw [htag'] at htag; cases htag
  | some b =>
    cases hfirst' : byteAt data (off + 1) with
    | none => rw [hfirst'] at hfirst; cases hfirst
    | some c =>
      rw [htag'] at htag
      rw [hfirst'] at hfirst
      cases htag
      cases hfirst
      obtain ⟨b, rfl, hdrop⟩ := drop_of_byteAt htag'
      obtain ⟨c, rfl, hdrop'⟩ := drop_of_byteAt hfirst'
      obtain ⟨form, hfits, hfirst, hmore, rfl⟩ := form_of_kekLength hform
      cases hadd : checkedAdd (off + 2 + (form.more len).length) len with
      | none => rw [hadd] at h; cases h
      | some stop' =>
        rw [hadd] at h
        cases hrange : getRange data (off + 2 + (form.more len).length) stop' with
        | none => simp only [hrange] at h; cases h
        | some value' =>
          simp only [hrange] at h
          cases h
          obtain ⟨hvalue, hstop⟩ := drop_of_getRange hrange
          have hlen : value.length = len := by
            rw [checkedAdd, Option.ite_none_right_eq_some, Option.some.injEq] at hadd
            omega
          subst hlen
          refine ⟨⟨b, form, value, hfits⟩, rfl, rfl, ?_, ?_⟩
          · rw [hdrop, hdrop', hmore, hvalue, Tlv.encode, hfirst]
            simp only [List.cons_append, List.append_assoc]
          · rw [length_encode, hstop]
            show _ = off + (2 + (form.more value.length).length + value.length)
            omega

/-! ### The loop -/

/-- What the loop keeps of a field. -/
def kekFieldOf (fields : KekFields) (t : Tlv) : Result KekFields :=
  kekField fields t.tag.toNat t.value

/-- On a concatenation of fields the loop folds over them. -/
theorem wrappedKekFrom_encode {data : Bytes} (hlen : data.length < 2 ^ 64) :
    ∀ (tlvs : List Tlv) {fuel off : Nat} (fields : KekFields), off ≤ data.length →
      data.drop off = encodeTlvs tlvs → data.length ≤ off + fuel →
      wrappedKekFrom data fuel off fields = tlvs.foldlM kekFieldOf fields := by
  intro tlvs
  induction tlvs with
  | nil =>
    intro fuel off fields hoff h hfuel
    have hend : ¬ off < data.length := by
      have hnil := List.drop_eq_nil_iff.mp h
      omega
    cases fuel with
    | zero => rfl
    | succ fuel => rw [wrappedKekFrom, if_neg hend]; rfl
  | cons t tlvs ih =>
    intro fuel off fields hoff h hfuel
    rw [encodeTlvs_cons] at h
    have htotal := length_of_drop hoff h
    have hpos := length_encode t
    cases fuel with
    | zero => omega
    | succ fuel =>
      rw [wrappedKekFrom, if_pos (by omega), kekStep_encode hlen h, ok_bind, List.foldlM_cons]
      show (kekFieldOf fields t >>= _) = (kekFieldOf fields t >>= _)
      cases hfield : kekFieldOf fields t with
      | error f => rfl
      | ok fields' => exact ih fields' (by omega) (drop_add_of_drop h) (by omega)

/-- What the loop runs through is a concatenation of fields. -/
theorem tlvs_of_wrappedKekFrom {data : Bytes} : ∀ {fuel off : Nat} {fields fields' : KekFields},
    data.length ≤ off + fuel → wrappedKekFrom data fuel off fields = .ok fields' →
    ∃ tlvs, data.drop off = encodeTlvs tlvs := by
  intro fuel
  induction fuel with
  | zero =>
    intro off fields fields' hfuel _
    exact ⟨[], List.drop_eq_nil_of_le (by omega)⟩
  | succ fuel ih =>
    intro off fields fields' hfuel h
    rw [wrappedKekFrom] at h
    by_cases hoff : off < data.length
    · simp only [if_pos hoff, bind_eq_ok_iff, Prod.exists] at h
      obtain ⟨tag, value, stop, hstep, mid, _, h⟩ := h
      obtain ⟨t, _, _, hdrop, hstop⟩ := tlv_of_kekStep hstep
      have hpos := length_encode t
      obtain ⟨tlvs, htlvs⟩ := ih (by omega) h
      exact ⟨t :: tlvs, by rw [hdrop, htlvs, encodeTlvs_cons]⟩
    · exact ⟨[], List.drop_eq_nil_of_le (by omega)⟩

/-! ### What is kept -/

/-- The number with the given big-endian bytes. -/
def fromBeBytes (bytes : Bytes) : Nat := bytes.foldl (fun n b => n * 256 + b.toNat) 0

/-- The sizes that the format fixes for the three known tags. -/
def Tlv.WellSized (t : Tlv) : Prop :=
  (t.tag = 0x83 → t.value.length = 40) ∧
    (t.tag = 0x84 → 1 ≤ t.value.length ∧ t.value.length ≤ 8) ∧
    (t.tag = 0x85 → t.value.length = 16)

instance (t : Tlv) : Decidable t.WellSized := inferInstanceAs (Decidable (_ ∧ _))

/-- The value of the last field with a tag. -/
def lastValue (tag : UInt8) (tlvs : List Tlv) : Option Bytes :=
  (tlvs.filter (fun t => t.tag = tag)).getLast?.map Tlv.value

/-- The count as a `u32`, saturated. -/
def iterationCount (value : Bytes) : Nat := min (fromBeBytes value) (2 ^ 32 - 1)

/-- The fields after one more. -/
def KekFields.put (fields : KekFields) (t : Tlv) : KekFields where
  wrappedKey := if t.tag = 0x83 then some t.value else fields.wrappedKey
  iterations := if t.tag = 0x84 then some (iterationCount t.value) else fields.iterations
  salt := if t.tag = 0x85 then some t.value else fields.salt

theorem foldl_shiftLeft_or (value : Bytes) : ∀ n : Nat,
    value.foldl (fun n b => (n <<< 8) ||| b.toNat) n
      = value.foldl (fun n b => n * 256 + b.toNat) n := by
  induction value with
  | nil => intro n; rfl
  | cons b value ih =>
    intro n
    rw [List.foldl_cons, List.foldl_cons, shiftLeft_or_byte]
    exact ih _

theorem check_eq_ok_iff {c : Prop} [Decidable c] {e : Fault} {fields fields' : KekFields} :
    (if c then .error e else .ok fields : Result KekFields) = .ok fields' ↔
      ¬ c ∧ fields' = fields := by
  rw [ite_error_eq_ok_iff, Except.ok.injEq, eq_comm (b := fields')]

/-- A field is kept exactly if its size is right. -/
theorem kekFieldOf_eq_ok_iff {fields fields' : KekFields} {t : Tlv} :
    kekFieldOf fields t = .ok fields' ↔ t.WellSized ∧ fields' = fields.put t := by
  obtain ⟨tag, form, value, fits⟩ := t
  have hcount : value.foldl (fun n b => (n <<< 8) ||| b.toNat) 0 = fromBeBytes value :=
    foldl_shiftLeft_or value 0
  by_cases h83 : tag = 0x83
  · subst h83
    have hsized : Tlv.WellSized ⟨0x83, form, value, fits⟩ ↔ value.length = 40 := by
      simp [Tlv.WellSized]
    rw [hsized]
    exact check_eq_ok_iff.trans (and_congr_left' not_not)
  by_cases h84 : tag = 0x84
  · subst h84
    have hsized : Tlv.WellSized ⟨0x84, form, value, fits⟩ ↔
        ¬ (value.isEmpty = true ∨ value.length > 8) := by
      simp [Tlv.WellSized, Nat.one_le_iff_ne_zero]
    rw [hsized]
    refine check_eq_ok_iff.trans ?_
    rw [hcount]
    rfl
  by_cases h85 : tag = 0x85
  · subst h85
    have hsized : Tlv.WellSized ⟨0x85, form, value, fits⟩ ↔ value.length = 16 := by
      simp [Tlv.WellSized]
    rw [hsized]
    exact check_eq_ok_iff.trans (and_congr_left' not_not)
  · have hsized : Tlv.WellSized ⟨tag, form, value, fits⟩ := by simp [Tlv.WellSized, h83, h84, h85]
    have hput : fields.put ⟨tag, form, value, fits⟩ = fields := by
      simp [KekFields.put, h83, h84, h85]
    have hnat : ∀ b : UInt8, tag ≠ b → tag.toNat ≠ b.toNat := fun b hb h => hb (UInt8.toNat_inj.mp h)
    have hother : kekField fields tag.toNat value = .ok fields := by
      unfold kekField
      split
      · exact absurd ‹_› (hnat 0x83 h83)
      · exact absurd ‹_› (hnat 0x84 h84)
      · exact absurd ‹_› (hnat 0x85 h85)
      · rfl
    rw [hput, kekFieldOf, hother, Except.ok.injEq, eq_comm (a := fields)]
    exact (and_iff_right hsized).symm

/-- The fold succeeds exactly if all sizes are right. -/
theorem foldlM_kekFieldOf_eq_ok_iff : ∀ {tlvs : List Tlv} {fields fields' : KekFields},
    tlvs.foldlM kekFieldOf fields = .ok fields' ↔
      (∀ t ∈ tlvs, t.WellSized) ∧ fields' = tlvs.foldl KekFields.put fields := by
  intro tlvs
  induction tlvs with
  | nil =>
    intro fields fields'
    rw [List.foldlM_nil]
    simp [pure, Except.pure, eq_comm]
  | cons t tlvs ih =>
    intro fields fields'
    rw [List.foldlM_cons, bind_eq_ok_iff, List.forall_mem_cons, List.foldl_cons]
    constructor
    · rintro ⟨mid, hmid, h⟩
      obtain ⟨hsized, rfl⟩ := kekFieldOf_eq_ok_iff.mp hmid
      obtain ⟨hrest, rfl⟩ := ih.mp h
      exact ⟨⟨hsized, hrest⟩, rfl⟩
    · rintro ⟨⟨hsized, hrest⟩, rfl⟩
      exact ⟨_, kekFieldOf_eq_ok_iff.mpr ⟨hsized, rfl⟩, ih.mpr ⟨hrest, rfl⟩⟩

theorem lastValue_concat (tag : UInt8) (tlvs : List Tlv) (t : Tlv) :
    lastValue tag (tlvs ++ [t]) = if t.tag = tag then some t.value else lastValue tag tlvs := by
  rw [lastValue, lastValue, getLast?_filter_concat]
  split <;> rfl

/-- What is kept in the end is the last value of each tag. -/
theorem foldl_put (tlvs : List Tlv) :
    tlvs.foldl KekFields.put {} =
      { wrappedKey := lastValue 0x83 tlvs
        iterations := (lastValue 0x84 tlvs).map iterationCount
        salt := lastValue 0x85 tlvs } := by
  induction tlvs using List.reverseRecOn with
  | nil => rfl
  | append_singleton tlvs t ih =>
    rw [List.foldl_append, ih, List.foldl_cons, List.foldl_nil, KekFields.put, lastValue_concat,
      lastValue_concat, lastValue_concat]
    congr 1
    split <;> rfl

theorem lastValue_isSome_iff {tag : UInt8} {tlvs : List Tlv} :
    (∃ value, lastValue tag tlvs = some value) ↔ ∃ t ∈ tlvs, t.tag = tag := by
  rw [← Option.isSome_iff_exists, lastValue, Option.isSome_map, List.getLast?_isSome]
  simp [List.filter_eq_nil_iff]

/-- `parse_wrapped_kek` on a concatenation of fields. -/
theorem parseWrappedKek_encode {tlvs : List Tlv} {kek : WrappedKek}
    (hlen : (encodeTlvs tlvs).length < 2 ^ 64) :
    parseWrappedKek (encodeTlvs tlvs) = .ok kek ↔ (∀ t ∈ tlvs, t.WellSized) ∧
      lastValue 0x83 tlvs = some kek.wrappedKey ∧ lastValue 0x85 tlvs = some kek.salt ∧
      ∃ count, lastValue 0x84 tlvs = some count ∧ kek.iterations = iterationCount count := by
  have hrun := wrappedKekFrom_encode hlen tlvs {} (Nat.zero_le _) List.drop_zero
    (Nat.le_add_left _ 0)
  obtain ⟨key, iterations, salt⟩ := kek
  rw [parseWrappedKek, hrun, bind_eq_ok_iff]
  simp only [foldlM_kekFieldOf_eq_ok_iff, foldl_put, and_assoc, exists_and_left, exists_eq_left]
  refine and_congr_right fun _ => ?_
  cases lastValue 0x83 tlvs with
  | none => simp
  | some key' =>
    cases lastValue 0x84 tlvs with
    | none => simp
    | some count =>
      cases lastValue 0x85 tlvs with
      | none => simp
      | some salt' =>
        simp only [Option.map_some, Option.some.injEq, exists_eq_left']
        constructor
        · rintro ⟨⟩
          exact ⟨rfl, rfl, rfl⟩
        · rintro ⟨rfl, rfl, rfl⟩
          rfl

/-- A concatenation of fields that `parse_wrapped_kek` is made for. -/
structure IsKekObject (tlvs : List Tlv) : Prop where
  sized : ∀ t ∈ tlvs, t.WellSized
  wrappedKey : ∃ t ∈ tlvs, t.tag = 0x83
  iterations : ∃ t ∈ tlvs, t.tag = 0x84
  salt : ∃ t ∈ tlvs, t.tag = 0x85

instance (tlvs : List Tlv) : Decidable (IsKekObject tlvs) :=
  decidable_of_iff ((∀ t ∈ tlvs, t.WellSized) ∧ (∃ t ∈ tlvs, t.tag = 0x83) ∧
      (∃ t ∈ tlvs, t.tag = 0x84) ∧ ∃ t ∈ tlvs, t.tag = 0x85)
    ⟨fun h => ⟨h.1, h.2.1, h.2.2.1, h.2.2.2⟩, fun h => ⟨h.1, h.2, h.3, h.4⟩⟩

/-- **The accepted strings.**  `parse_wrapped_kek` succeeds exactly on the concatenations
of fields in which the three known tags have the right sizes and each occurs.  The result
has the last value of each; the length of a slice is a `usize`. -/
theorem parse_wrapped_kek_grammar (data : Bytes) (hlen : data.length < 2 ^ 64) :
    ((∃ kek, parseWrappedKek data = .ok kek) ↔
      ∃ tlvs, data = encodeTlvs tlvs ∧ IsKekObject tlvs) ∧
    ∀ kek tlvs, parseWrappedKek data = .ok kek → data = encodeTlvs tlvs →
      lastValue 0x83 tlvs = some kek.wrappedKey ∧ lastValue 0x85 tlvs = some kek.salt ∧
      ∃ count, lastValue 0x84 tlvs = some count ∧
        kek.iterations = min (fromBeBytes count) (2 ^ 32 - 1) := by
  refine ⟨⟨?_, ?_⟩, ?_⟩
  · rintro ⟨kek, h⟩
    obtain ⟨fields, hrun, _⟩ := bind_eq_ok_iff.mp h
    obtain ⟨tlvs, htlvs⟩ := tlvs_of_wrappedKekFrom (Nat.le_add_left _ 0) hrun
    rw [List.drop_zero] at htlvs
    subst htlvs
    obtain ⟨hsized, hkey, hsalt, count, hcount, _⟩ := (parseWrappedKek_encode hlen).mp h
    exact ⟨tlvs, rfl, hsized, lastValue_isSome_iff.mp ⟨_, hkey⟩,
      lastValue_isSome_iff.mp ⟨_, hcount⟩, lastValue_isSome_iff.mp ⟨_, hsalt⟩⟩
  · rintro ⟨tlvs, rfl, hsized, hkey, hcount, hsalt⟩
    obtain ⟨key, hkey⟩ := lastValue_isSome_iff.mpr hkey
    obtain ⟨count, hcount⟩ := lastValue_isSome_iff.mpr hcount
    obtain ⟨salt, hsalt⟩ := lastValue_isSome_iff.mpr hsalt
    exact ⟨⟨key, iterationCount count, salt⟩,
      (parseWrappedKek_encode hlen).mpr ⟨hsized, hkey, hsalt, count, hcount, rfl⟩⟩
  · rintro kek tlvs h rfl
    exact ((parseWrappedKek_encode hlen).mp h).2

/-- An object with an unknown field, and lengths in forms that are longer than they need
to be. -/
def plainKek : List Tlv :=
  [⟨0x30, .one, [7, 7], by decide⟩, ⟨0x84, .short, [1], by decide⟩,
    ⟨0x83, .two, List.replicate 40 5, by decide⟩, ⟨0x85, .one, List.replicate 16 6, by decide⟩]

/-- The object with a second count. -/
def recountedKek : List Tlv := plainKek ++ [⟨0x84, .two, [1, 0, 0, 0, 0], by decide⟩]

/-- The second count wins, and saturates. -/
theorem parse_recountedKek : ∃ kek, parseWrappedKek (encodeTlvs recountedKek) = .ok kek ∧
    kek.iterations = 2 ^ 32 - 1 := by
  obtain ⟨haccepts, hresult⟩ := parse_wrapped_kek_grammar (encodeTlvs recountedKek) (by decide)
  obtain ⟨kek, hkek⟩ := haccepts.mpr ⟨recountedKek, rfl, by decide⟩
  obtain ⟨_, _, count, hcount, hiterations⟩ := hresult kek recountedKek hkek rfl
  have hlast : lastValue 0x84 recountedKek = some [1, 0, 0, 0, 0] := by decide
  rw [hlast, Option.some.injEq] at hcount
  refine ⟨kek, hkek, ?_⟩
  rw [hiterations, ← hcount]
  decide

/-! ### The other loop -/

/-- The two loops take the same rounds. -/
theorem berStep_eq (data : Bytes) (off : Nat) : berStep data off = (kekStep data off).toOption := by
  by_cases hoff : off + 2 ≤ data.length
  · simp only [berStep, if_pos hoff, kekStep, kekByte, berLength_eq]
    cases byteAt data off with
    | none => rfl
    | some tag =>
      cases byteAt data (off + 1) with
      | none => rfl
      | some first =>
        simp only [ok_bind, Option.bind_eq_bind, Option.bind_some]
        cases kekLength data first (off + 2) with
        | error f => rfl
        | ok r =>
          obtain ⟨len, start⟩ := r
          simp only [Except.toOption, Option.bind_some, ok_bind]
          cases checkedAdd start len with
          | none => rfl
          | some stop =>
            simp only [Option.bind_some]
            cases getRange data start stop <;> rfl
  · have hnone : byteAt data (off + 1) = none := by
      rw [byteAt, List.getElem?_eq_none (by omega)]
      rfl
    rw [berStep, if_neg hoff, kekStep]
    simp only [kekByte, hnone]
    cases byteAt data off <;> rfl

/-- On a concatenation of fields `ber_find` finds the first field of a tag. -/
theorem berFrom_encode {data : Bytes} (hlen : data.length < 2 ^ 64) (want : Nat) :
    ∀ (tlvs : List Tlv) {fuel off : Nat}, off ≤ data.length →
      data.drop off = encodeTlvs tlvs → data.length ≤ off + fuel →
      berFrom data want fuel off
        = (tlvs.find? (fun t => t.tag.toNat = want)).map Tlv.value := by
  intro tlvs
  induction tlvs with
  | nil =>
    intro fuel off hoff h hfuel
    have hnil := List.drop_eq_nil_iff.mp h
    have hend : berStep data off = none := by rw [berStep, if_neg (by omega)]
    cases fuel with
    | zero => rfl
    | succ fuel => rw [berFrom, hend]; rfl
  | cons t tlvs ih =>
    intro fuel off hoff h hfuel
    rw [encodeTlvs_cons] at h
    have htotal := length_of_drop hoff h
    have hpos := length_encode t
    have hstep : berStep data off = some (t.tag.toNat, t.value, off + t.encode.length) := by
      rw [berStep_eq, kekStep_encode hlen h]
      rfl
    cases fuel with
    | zero => omega
    | succ fuel =>
      rw [berFrom, hstep]
      by_cases htag : t.tag.toNat = want
      · rw [List.find?_cons_of_pos (by simpa using htag)]
        exact if_pos htag
      · rw [List.find?_cons_of_neg (by simpa using htag)]
        refine (if_neg htag).trans ?_
        exact ih (by omega) (drop_add_of_drop h) (by omega)

theorem berFind_encode {tlvs : List Tlv} (hlen : (encodeTlvs tlvs).length < 2 ^ 64) (tag : UInt8) :
    berFind (encodeTlvs tlvs) tag.toNat = (tlvs.find? (fun t => t.tag = tag)).map Tlv.value := by
  rw [berFind, berFrom_encode hlen _ tlvs (Nat.zero_le _) List.drop_zero (Nat.le_add_left _ 0)]
  simp only [UInt8.toNat_inj]

/-- Where a tag is not repeated, its first field is its last. -/
theorem find?_eq_of_nodup : ∀ {tlvs : List Tlv} {t : Tlv}, (tlvs.map Tlv.tag).Nodup → t ∈ tlvs →
    tlvs.find? (fun t' => t'.tag = t.tag) = some t := by
  intro tlvs
  induction tlvs with
  | nil => intro t _ ht; exact absurd ht List.not_mem_nil
  | cons t' tlvs ih =>
    intro t hnodup ht
    rw [List.map_cons, List.nodup_cons] at hnodup
    rcases List.mem_cons.mp ht with rfl | ht
    · exact List.find?_cons_of_pos (by simp)
    · have hne : t'.tag ≠ t.tag := fun heq => hnodup.1 (heq ▸ List.mem_map_of_mem ht)
      rw [List.find?_cons_of_neg (by simpa using hne)]
      exact ih hnodup.2 ht

theorem mem_of_lastValue {tag : UInt8} {tlvs : List Tlv} {value : Bytes}
    (h : lastValue tag tlvs = some value) : ∃ t ∈ tlvs, t.tag = tag ∧ t.value = value := by
  rw [lastValue, Option.map_eq_some_iff] at h
  obtain ⟨t, ht, hvalue⟩ := h
  obtain ⟨hmem, htag⟩ := List.mem_filter.mp (List.mem_of_getLast? ht)
  exact ⟨t, hmem, by simpa using htag, hvalue⟩

/-- **The loops agree.**  Where `parse_wrapped_kek` succeeds and no tag is repeated,
`ber_find` returns the value of each field, and nothing for the other tags; for the three
known tags these are the values that were used. -/
theorem ber_find_agrees {data : Bytes} {kek : WrappedKek} (hlen : data.length < 2 ^ 64)
    (hparse : parseWrappedKek data = .ok kek) {tlvs : List Tlv} (htlvs : data = encodeTlvs tlvs)
    (hnodup : (tlvs.map Tlv.tag).Nodup) :
    berFind data 0x83 = some kek.wrappedKey ∧ berFind data 0x85 = some kek.salt ∧
    (∃ count, berFind data 0x84 = some count ∧
      kek.iterations = min (fromBeBytes count) (2 ^ 32 - 1)) ∧
    (∀ t ∈ tlvs, berFind data t.tag.toNat = some t.value) ∧
    ∀ tag : UInt8, (∀ t ∈ tlvs, t.tag ≠ tag) → berFind data tag.toNat = none := by
  subst htlvs
  have hfound : ∀ t ∈ tlvs, berFind (encodeTlvs tlvs) t.tag.toNat = some t.value := by
    intro t ht
    rw [berFind_encode hlen, find?_eq_of_nodup hnodup ht]
    rfl
  have hlast : ∀ tag value, lastValue tag tlvs = some value →
      berFind (encodeTlvs tlvs) tag.toNat = some value := by
    intro tag value hvalue
    obtain ⟨t, ht, rfl, rfl⟩ := mem_of_lastValue hvalue
    exact hfound t ht
  obtain ⟨_, hkey, hsalt, count, hcount, hiterations⟩ := (parseWrappedKek_encode hlen).mp hparse
  refine ⟨hlast 0x83 _ hkey, hlast 0x85 _ hsalt, ⟨count, hlast 0x84 _ hcount, hiterations⟩, hfound, ?_⟩
  intro tag habsent
  rw [berFind_encode hlen, List.find?_eq_none.mpr (by simpa using habsent)]
  rfl

theorem ber_find_plainKek :
    berFind (encodeTlvs plainKek) 0x83 = some (List.replicate 40 5) ∧
      berFind (encodeTlvs plainKek) 0x30 = some [7, 7] ∧
      berFind (encodeTlvs plainKek) 0xa3 = none := by
  have hparse : parseWrappedKek (encodeTlvs plainKek)
      = .ok ⟨List.replicate 40 5, 1, List.replicate 16 6⟩ := by decide +kernel
  obtain ⟨hkey, _, _, hfound, habsent⟩ := ber_find_agrees (by decide) hparse rfl (by decide)
  exact ⟨hkey, hfound ⟨0x30, .one, [7, 7], by decide⟩ (by decide), habsent 0xa3 (by decide)⟩

end ApfsForensic
