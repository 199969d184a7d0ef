import Mathlib.Data.List.Basic
import Mathlib.Tactic.IntervalCases

/-!
# Numbers inside a text

Decimal and hexadecimal numbers as a formatted text shows them, and how they are read back.  A
number in front of a character that is no digit can be told from what follows it
(`decimal_append_inj`, `hex_append_inj`).
-/

namespace ApfsForensic.Text

/-! ### Hexadecimal digits -/

/-- The value of a digit. -/
def digitValue (c : Char) : Nat :=
  if c.isDigit then c.toNat - 48 else c.toNat - 87

theorem digitValue_digitChar {d : Nat} (h : d < 16) : digitValue d.digitChar = d := by
  interval_cases d <;> rfl

def isHex (c : Char) : Bool := c.isDigit || ('a' ≤ c && c ≤ 'f')

theorem isHex_digitChar {d : Nat} (h : d < 16) : isHex d.digitChar = true := by
  interval_cases d <;> rfl

/-- The number that hexadecimal digits stand for. -/
def readHex (cs : List Char) : Nat := cs.foldl (fun n c => 16 * n + digitValue c) 0

theorem readHex_toDigits (n : Nat) : readHex (Nat.toDigits 16 n) = n := by
  induction n using Nat.strongRecOn with
  | ind n ih =>
    rw [Nat.toDigits_eq_if (by decide)]
    by_cases hn : n < 16
    · rw [if_pos hn]
      exact (Nat.zero_add _).trans (digitValue_digitChar hn)
    · have hmod : n % 16 < 16 := Nat.mod_lt _ (by decide)
      rw [if_neg hn, readHex, List.foldl_append, ← readHex, ih (n / 16) (by omega)]
      show 16 * (n / 16) + digitValue (n % 16).digitChar = n
      rw [digitValue_digitChar hmod]
      omega

theorem readHex_replicate_append (k : Nat) (cs : List Char) :
    readHex (List.replicate k '0' ++ cs) = readHex cs := by
  induction k with
  | zero => rfl
  | succ k ih => exact ih

theorem isHex_of_mem_toDigits (n : Nat) : ∀ c ∈ Nat.toDigits 16 n, isHex c = true := by
  induction n using Nat.strongRecOn with
  | ind n ih =>
    rw [Nat.toDigits_eq_if (by decide)]
    intro c hc
    by_cases hn : n < 16
    · rw [if_pos hn, List.mem_singleton] at hc
      exact hc ▸ isHex_digitChar hn
    · rw [if_neg hn, List.mem_append, List.mem_singleton] at hc
      rcases hc with hc | rfl
      · exact ih (n / 16) (by omega) c hc
      · exact isHex_digitChar (Nat.mod_lt _ (by decide))

/-- At least `width` digits, with zeros in front. -/
def hexDigits (width n : Nat) : List Char := List.leftpad width '0' (Nat.toDigits 16 n)

theorem readHex_hexDigits (width n : Nat) : readHex (hexDigits width n) = n := by
  rw [hexDigits, List.leftpad, readHex_replicate_append, readHex_toDigits]

theorem isHex_of_mem_hexDigits (width n : Nat) : ∀ c ∈ hexDigits width n, isHex c = true := by
  intro c hc
  rw [hexDigits, List.leftpad, List.mem_append] at hc
  rcases hc with hc | hc
  · rw [List.eq_of_mem_replicate hc]
    rfl
  · exact isHex_of_mem_toDigits n c hc

/-- `{:#0wx}`, where the width of the digits is `w - 2`. -/
def hex (width n : Nat) : String := "0x" ++ String.ofList (hexDigits width n)

/-! ### Where a number ends -/

/-- The text begins with a character outside the class. -/
def Stops (p : Char → Bool) (sep : String) : Prop := (sep.toList.head?.any fun c => !p c) = true

instance (p : Char → Bool) (sep : String) : Decidable (Stops p sep) :=
  inferInstanceAs (Decidable (_ = _))

/-- What stands in front of a text that stops the class is determined. -/
theorem append_inj_of_stops {p : Char → Bool} {a b rest rest' : List Char} {sep : String}
    (ha : ∀ c ∈ a, p c = true) (hb : ∀ c ∈ b, p c = true) (hsep : Stops p sep)
    (h : a ++ (sep.toList ++ rest) = b ++ (sep.toList ++ rest')) : a = b ∧ rest = rest' := by
  have hstop : ∀ l, (sep.toList ++ l).takeWhile p = [] := by
    intro l
    rw [Stops] at hsep
    cases hlist : sep.toList with
    | nil =>
      rw [hlist] at hsep
      cases hsep
    | cons c cs =>
      rw [hlist, List.head?_cons, Option.any_some, Bool.not_eq_true'] at hsep
      exact List.takeWhile_cons_of_neg (by rw [hsep]; exact Bool.false_ne_true)
  have htake := congrArg (List.takeWhile p) h
  rw [List.takeWhile_append_of_pos ha, List.takeWhile_append_of_pos hb, hstop, hstop,
    List.append_nil, List.append_nil] at htake
  subst htake
  exact ⟨rfl, List.append_cancel_left (List.append_cancel_left h)⟩

theorem decimal_inj {n m : Nat} : toString n = toString m ↔ n = m := by
  constructor
  · intro h
    have hvalue := congrArg (fun s : String => Nat.ofDigitChars 10 s.toList 0) h
    simp only [Nat.toString_eq_repr, Nat.toList_repr,
      Nat.ofDigitChars_toDigits (by decide : 1 < 10) (by decide : 10 ≤ 10)] at hvalue
    exact hvalue
  · rintro rfl
    rfl

theorem decimal_append_inj {n m : Nat} {sep s t : String} (hsep : Stops Char.isDigit sep) :
    toString n ++ (sep ++ s) = toString m ++ (sep ++ t) ↔ n = m ∧ s = t := by
  constructor
  · intro h
    have hlist := congrArg String.toList h
    simp only [String.toList_append, Nat.toString_eq_repr, Nat.toList_repr] at hlist
    have hdigit : ∀ k, ∀ d ∈ Nat.toDigits 10 k, d.isDigit = true :=
      fun k d hd => Nat.isDigit_of_mem_toDigits (by decide) (by decide) hd
    obtain ⟨hnum, hrest⟩ := append_inj_of_stops (hdigit n) (hdigit m) hsep hlist
    refine ⟨decimal_inj.mp (String.toList_inj.mp ?_), String.toList_inj.mp hrest⟩
    rw [Nat.toString_eq_repr, Nat.toString_eq_repr, Nat.toList_repr, Nat.toList_repr, hnum]
  · rintro ⟨rfl, rfl⟩
    rfl

theorem hex_inj {width n m : Nat} : hex width n = hex width m ↔ n = m := by
  constructor
  · intro h
    have hdigits := String.ofList_injective ((String.append_right_inj _).mp h)
    rw [← readHex_hexDigits width n, hdigits, readHex_hexDigits]
  · rintro rfl
    rfl

theorem hex_append_inj {width n m : Nat} {sep s t : String} (hsep : Stops isHex sep) :
    hex width n ++ (sep ++ s) = hex width m ++ (sep ++ t) ↔ n = m ∧ s = t := by
  constructor
  · intro h
    rw [hex, hex, String.append_assoc, String.append_assoc, String.append_right_inj] at h
    have hlist := congrArg String.toList h
    simp only [String.toList_append, String.toList_ofList] at hlist
    obtain ⟨hnum, hrest⟩ := append_inj_of_stops (isHex_of_mem_hexDigits width n)
      (isHex_of_mem_hexDigits width m) hsep hlist
    refine ⟨?_, String.toList_inj.mp hrest⟩
    rw [← readHex_hexDigits width n, hnum, readHex_hexDigits]
  · rintro ⟨rfl, rfl⟩
    rfl

end ApfsForensic.Text
