import Mathlib.Tactic.Positivity
import Mathlib.Tactic.Zify
import Mpool.Common.StringConvert
import Mpool.Lib.Decimal

/-! Decimal texts: what `StringTo` makes of one, and what `ToString` of
`StringConvert.h` prints. -/

namespace Mpool

open Util (text stringEqualI)

/-- The decimal texts of a number, with leading zeros or without. -/
def IsDecimalText (v : Int) (s : Bytes) : Prop :=
  ∃ digits, digits ≠ [] ∧ (∀ c ∈ digits, isDigit c = true) ∧
    (s = digits ∧ v = decimal digits ∨ s = 45 :: digits ∧ v = -decimal digits ∧ v < 0)

theorem isDigit_iff {c : UInt8} : isDigit c = true ↔ 48 ≤ c.toNat ∧ c.toNat ≤ 57 := by
  simp [isDigit, UInt8.le_iff_toNat_le]

/-- A decimal text begins with a digit or a sign. -/
theorem IsDecimalText.exists_cons {v : Int} {s : Bytes} (h : IsDecimalText v s) :
    ∃ c rest, s = c :: rest ∧ c.toNat ≤ 57 := by
  obtain ⟨digits, hne, hdigits, ⟨rfl, _⟩ | ⟨rfl, _⟩⟩ := h
  · obtain ⟨c, rest, rfl⟩ := List.exists_cons_of_ne_nil hne
    exact ⟨c, rest, rfl, (isDigit_iff.mp (hdigits c List.mem_cons_self)).2⟩
  · exact ⟨45, digits, rfl, by decide⟩

theorem IsDecimalText.no_word {v : Int} {s : Bytes} (h : IsDecimalText v s) (d : UInt8)
    (word : Bytes) (hd : 97 ≤ d.toNat ∧ d.toNat ≤ 122) : stringEqualI s (d :: word) = false := by
  obtain ⟨c, rest, rfl, hc⟩ := h.exists_cons
  have hlower : Util.toLower c = c := by
    rw [Util.toLower, if_neg]
    rintro ⟨hlow, _⟩
    have hle : 65 ≤ c.toNat := UInt8.le_iff_toNat_le.mp hlow
    omega
  have hword : Util.toLower d = d := by
    rw [Util.toLower, if_neg]
    rintro ⟨_, hhigh⟩
    have hle : d.toNat ≤ 90 := UInt8.le_iff_toNat_le.mp hhigh
    omega
  rw [stringEqualI, decide_eq_false_iff_not, List.map_cons, List.map_cons, hlower, hword]
  intro heq
  have hhead := (List.cons.inj heq).1
  rw [hhead] at hc
  omega

theorem stringToBool_of_decimal {v : Int} {s : Bytes} (h : IsDecimalText v s) :
    stringToBool s = if s = text "1" then some true else if s = text "0" then some false
      else none := by
  have hword : ∀ name : String, ∀ d rest, text name = d :: rest → 97 ≤ d.toNat ∧ d.toNat ≤ 122 →
      stringEqualI s (text name) = false := by
    intro name d rest hname hd
    rw [hname]
    exact h.no_word d rest hd
  rw [stringToBool, hword "y" 121 _ rfl (by decide), hword "on" 111 _ rfl (by decide),
    hword "yes" 121 _ rfl (by decide), hword "true" 116 _ rfl (by decide),
    hword "n" 110 _ rfl (by decide), hword "off" 111 _ rfl (by decide),
    hword "no" 110 _ rfl (by decide), hword "false" 102 _ rfl (by decide)]
  simp only [Bool.or_false, decide_eq_true_eq]

theorem stringTo_of_decimal {v : Int} {s : Bytes} (h : IsDecimalText v s) (bits : Nat) :
    stringTo bits s = if 0 ≤ v ∧ v < 2 ^ bits then some v.toNat else none := by
  obtain ⟨digits, hne, hdigits, ⟨heq, rfl⟩ | ⟨rfl, rfl, hneg⟩⟩ := h
  · subst heq
    have hall : s.all isDigit = true := List.all_eq_true.mpr hdigits
    have hlt : (decimal s : Int) < 2 ^ bits ↔ decimal s < 2 ^ bits := by
      exact_mod_cast Iff.rfl
    simp only [stringTo, ne_eq, hne, not_false_eq_true, hall, true_and, hlt, Int.natCast_nonneg,
      Int.toNat_natCast]
  · have hsign : ¬ ((45 :: digits).all isDigit = true) := by
      rw [List.all_cons]
      simp [show isDigit 45 = false by decide]
    rw [stringTo, if_neg (fun hall => hsign hall.2.1), if_neg (by omega)]

theorem stringToSigned_of_decimal {v : Int} {s : Bytes} (h : IsDecimalText v s) (bits : Nat) :
    stringToSigned bits s =
      if -2 ^ (bits - 1) ≤ v ∧ v < 2 ^ (bits - 1) then some v else none := by
  obtain ⟨digits, hne, hdigits, ⟨rfl, rfl⟩ | ⟨rfl, rfl, hneg⟩⟩ := h
  · obtain ⟨c, rest, rfl⟩ := List.exists_cons_of_ne_nil hne
    have hc := isDigit_iff.mp (hdigits c List.mem_cons_self)
    have hsign : c ≠ 45 := by
      rintro rfl
      exact absurd hc.1 (by decide)
    have hlt : (decimal (c :: rest) : Int) < 2 ^ (bits - 1) ↔
        decimal (c :: rest) < 2 ^ (bits - 1) := by
      exact_mod_cast Iff.rfl
    have hlow : -2 ^ (bits - 1) ≤ (decimal (c :: rest) : Int) := by
      have hpow : (0 : Int) ≤ 2 ^ (bits - 1) := by positivity
      omega
    have hall : (c :: rest).all isDigit = true := List.all_eq_true.mpr hdigits
    unfold stringToSigned
    split
    · next digits heq => exact absurd (List.cons.inj heq).1 hsign
    · simp only [hne, hall, hlt, hlow, ne_eq, not_false_eq_true, true_and]
  · have hle : -2 ^ (bits - 1) ≤ -(decimal digits : Int) ↔ decimal digits ≤ 2 ^ (bits - 1) := by
      rw [neg_le_neg_iff]
      exact_mod_cast Iff.rfl
    have hlt : -(decimal digits : Int) < 2 ^ (bits - 1) := by
      have hpow : (0 : Int) ≤ 2 ^ (bits - 1) := by positivity
      omega
    have hall : digits.all isDigit = true := List.all_eq_true.mpr hdigits
    simp only [stringToSigned, ne_eq, hne, not_false_eq_true, hall, true_and, hle, hlt, and_true]

/-! ## What is printed -/

/-- The integer types of `For`, `bool` apart. -/
structure IntegralType where
  signed : Bool
  bits : Nat
  valid : bits ∈ [8, 16, 32, 64]

namespace IntegralType

def Holds (T : IntegralType) (v : Int) : Prop :=
  if T.signed then -2 ^ (T.bits - 1) ≤ v ∧ v < 2 ^ (T.bits - 1) else 0 ≤ v ∧ v < 2 ^ T.bits

/-- `StringTo<T>`. -/
def stringTo (T : IntegralType) (str : Bytes) : Option Int :=
  if T.signed then stringToSigned T.bits str else (Mpool.stringTo T.bits str).map Int.ofNat

end IntegralType

/-- `std::to_chars` into `size` bytes; `none` is `value_too_large`. -/
def toChars (size : Nat) (val : Int) : Option Bytes :=
  if (Decimal.integer val).length ≤ size then some (Decimal.integer val) else none

/-- `ToString` for an integer type, which takes the success of `to_chars` for its failure.
`none` is what a failure leaves in the buffer. -/
def integerToString (val : Int) : Option Bytes :=
  match toChars 20 val with
  | some _ => some []
  | none => none

theorem isDigit_of_numeral {n : Nat} {c : UInt8} (h : c ∈ Decimal.numeral n) :
    isDigit c = true :=
  isDigit_iff.mpr (Decimal.numeral_digits c h)

theorem decimal_append (s : Bytes) (c : UInt8) :
    decimal (s ++ [c]) = 10 * decimal s + (c.toNat - 48) := by
  rw [decimal, List.foldl_append]
  rfl

theorem decimal_numeral (n : Nat) : decimal (Decimal.numeral n) = n := by
  induction n using Nat.strong_induction_on with
  | _ n ih =>
    rcases Nat.lt_or_ge n 10 with hn | hn
    · rw [Decimal.numeral_of_lt hn, decimal, List.foldl_cons, List.foldl_nil,
        Decimal.ofDigit_toNat hn]
      omega
    · have hlast : n % 10 < 10 := Nat.mod_lt n (by omega)
      rw [Decimal.numeral_of_ge hn, decimal_append, ih (n / 10) (by omega),
        Decimal.ofDigit_toNat hlast]
      omega

theorem isDecimalText_integer (v : Int) : IsDecimalText v (Decimal.integer v) := by
  refine ⟨Decimal.numeral v.natAbs, Decimal.numeral_ne_nil _, fun _ => isDigit_of_numeral, ?_⟩
  rw [decimal_numeral, Decimal.integer]
  split
  · next hneg => exact Or.inr ⟨rfl, by omega, hneg⟩
  · exact Or.inl ⟨rfl, by omega⟩

namespace IntegralType

/-- `StringTo` accepts the decimal texts of the numbers of its type. -/
theorem stringTo_of_decimalText (T : IntegralType) {v : Int} {s : Bytes}
    (h : IsDecimalText v s) (hv : T.Holds v) : T.stringTo s = some v := by
  unfold Holds at hv
  unfold stringTo
  split at hv
  · rw [if_pos ‹_›, stringToSigned_of_decimal h, if_pos hv]
  · rw [if_neg ‹_›, stringTo_of_decimal h, if_pos hv, Option.map_some]
    exact congrArg some (Int.toNat_of_nonneg hv.1)

/-- The text in the buffer would be read back. -/
theorem stringTo_integer (T : IntegralType) {v : Int} (hv : T.Holds v) :
    T.stringTo (Decimal.integer v) = some v :=
  T.stringTo_of_decimalText (isDecimalText_integer v) hv

/-- What is accepted is a number of the type. -/
theorem holds_of_stringTo (T : IntegralType) {v : Int} {s : Bytes} (h : T.stringTo s = some v) :
    T.Holds v := by
  obtain ⟨signed, bits, hbits⟩ := T
  have hpow : (1 : Int) ≤ 2 ^ (bits - 1) := by exact_mod_cast Nat.one_le_two_pow
  cases signed with
  | true =>
    simp only [stringTo, Holds, if_true] at h ⊢
    unfold stringToSigned at h
    split at h
    · next digits =>
      split at h
      · next hdigits =>
        obtain ⟨-, -, hle⟩ := hdigits
        have hle' : (decimal digits : Int) ≤ 2 ^ (bits - 1) := by exact_mod_cast hle
        cases h
        omega
      · cases h
    · split at h
      · next hdigits =>
        obtain ⟨-, -, hlt⟩ := hdigits
        have hlt' : (decimal s : Int) < 2 ^ (bits - 1) := by exact_mod_cast hlt
        cases h
        omega
      · cases h
  | false =>
    simp only [stringTo, Holds, Bool.false_eq_true, if_false] at h ⊢
    obtain ⟨n, hn, rfl⟩ := Option.map_eq_some_iff.mp h
    unfold Mpool.stringTo at hn
    split at hn
    · next hdigits =>
      cases hn
      obtain ⟨-, -, hlt⟩ := hdigits
      have hlt' : (decimal s : Int) < 2 ^ bits := by exact_mod_cast hlt
      exact ⟨Int.natCast_nonneg _, hlt'⟩
    · cases hn

/-- 20 bytes are enough for every number, the least one of `int64` with its sign among
them. -/
theorem length_integer_le (T : IntegralType) {v : Int} (hv : T.Holds v) :
    (Decimal.integer v).length ≤ 20 := by
  have hbits : T.bits ≤ 64 := by
    have hmem := T.valid
    simp only [List.mem_cons, List.not_mem_nil, or_false] at hmem
    omega
  have hpow : (2 : Int) ^ T.bits ≤ 2 ^ 64 := pow_le_pow_right₀ (by omega) hbits
  have hhalf : (2 : Int) ^ (T.bits - 1) ≤ 2 ^ 63 := pow_le_pow_right₀ (by omega) (by omega)
  unfold Holds at hv
  rw [Decimal.integer]
  split
  · next hneg =>
    have hlow : v.natAbs < 10 ^ 19 := by
      split at hv <;> omega
    have hlength := (Decimal.numeral_length_le (k := 19) (by omega)).mpr hlow
    rw [List.length_cons]
    omega
  · have hhigh : v.natAbs < 10 ^ 20 := by
      split at hv <;> omega
    exact (Decimal.numeral_length_le (by omega)).mpr hhigh

/-- Whatever is printed is the empty text. -/
theorem integerToString_eq (T : IntegralType) {v : Int} (hv : T.Holds v) :
    integerToString v = some [] := by
  rw [integerToString, toChars, if_pos (T.length_integer_le hv)]

theorem stringTo_nil (T : IntegralType) : T.stringTo [] = none := by
  obtain ⟨signed, bits, hbits⟩ := T
  cases signed <;> rfl

/-- No number is read back, and of no text that is accepted the number is printed. -/
theorem integer_text_lost (T : IntegralType) :
    (∀ v, T.Holds v → (integerToString v).bind T.stringTo ≠ some v) ∧
      ∀ s v, T.stringTo s = some v →
        ¬ ∃ printed, integerToString v = some printed ∧ IsDecimalText v printed := by
  refine ⟨fun v hv => ?_, ?_⟩
  · rw [T.integerToString_eq hv, Option.bind_some, T.stringTo_nil]
    exact nofun
  · rintro s v hs ⟨printed, hprinted, hdecimal⟩
    rw [T.integerToString_eq (T.holds_of_stringTo hs)] at hprinted
    cases hprinted
    obtain ⟨c, rest, hcons, -⟩ := hdecimal.exists_cons
    cases hcons

/-- The least `int64`, and the text of a number with a leading zero. -/
theorem integer_text_lost_int64 :
    (integerToString (-2 ^ 63)).bind (stringTo ⟨true, 64, by decide⟩) ≠ some (-2 ^ 63) ∧
      ¬ ∃ printed, integerToString 7 = some printed ∧ IsDecimalText 7 printed :=
  ⟨(integer_text_lost ⟨true, 64, by decide⟩).1 (-2 ^ 63) (by unfold Holds; decide),
    (integer_text_lost ⟨true, 64, by decide⟩).2 (text "07") 7 (by decide)⟩

theorem seven_lost :
    Holds ⟨false, 8, by decide⟩ 7 ∧ integerToString 7 = some [] ∧
      (integerToString 7).bind (stringTo ⟨false, 8, by decide⟩) ≠ some 7 :=
  ⟨by unfold Holds; decide, by decide, by decide⟩

end IntegralType

end Mpool
