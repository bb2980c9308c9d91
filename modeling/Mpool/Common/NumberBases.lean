import Mpool.Common.DecimalText
import Mpool.Lib.Numerals

/-! `StringTo` for the integer types in any base: `FromString` over `std::from_chars`, and
the base it takes from a prefix when it is given 0. -/

namespace Mpool

open Util (text stringEqualI)
open Numerals (IsNumeral)

/-- The `ec` of a `std::from_chars` that fails. -/
inductive Errc where
  | invalid_argument | result_out_of_range
  deriving DecidableEq

/-- `std::from_chars_result`, with what is left of the string for `ptr`, and the value. -/
structure FromCharsResult where
  ptr : Bytes
  val : Except Errc Int

namespace IntegralType

variable (T : IntegralType)

instance (v : Int) : Decidable (T.Holds v) :=
  inferInstanceAs (Decidable (if T.signed then _ else _))

/-- `std::from_chars`: only a minus is a sign, and only for a signed type. -/
def fromChars (str : Bytes) (base : Nat) : FromCharsResult :=
  let negative := T.signed && str.head? == some 45
  let digits := if negative then str.tail else str
  let (n, rest) := Numerals.scan base 0 digits
  if rest.length = digits.length then ⟨str, .error .invalid_argument⟩
  else
    let val : Int := if negative then -n else n
    ⟨rest, if T.Holds val then .ok val else .error .result_out_of_range⟩

/-- `res.ptr == end` and `res.ec == std::errc()`. -/
def fromCharsAll (str : Bytes) (base : Nat) : Option Int :=
  match T.fromChars str base with
  | ⟨[], .ok val⟩ => some val
  | _ => none

/-- The base a prefix names, with what follows the prefix. -/
def basePrefix (str : Bytes) : Nat × Bytes :=
  if stringEqualI (str.take 2) (text "0x") then (16, str.drop 2)
  else if stringEqualI (str.take 2) (text "0b") then (2, str.drop 2)
  else (10, str)

/-- `For<T>::FromString`. -/
def fromString (str : Bytes) (base : Nat) : Option Int :=
  if base = 0 then
    let (base, str) := basePrefix str
    if str = [] then none else T.fromCharsAll str base
  else T.fromCharsAll str base

/-- The texts of a number in a base: a numeral, behind a minus where the type has signs. -/
def Denotes (base : Nat) (str : Bytes) (v : Int) : Prop :=
  ∃ n : Nat, (IsNumeral base str n ∧ v = n) ∨
    (T.signed = true ∧ ∃ digits, str = 45 :: digits ∧ IsNumeral base digits n ∧ v = -n)

variable {T}

/-- A sign is no digit. -/
theorem not_isNumeral_minus {base : Nat} {digits : Bytes} {n : Nat} :
    ¬ IsNumeral base (45 :: digits) n := by
  rintro ⟨-, _, h, -⟩
  cases h with
  | cons hd =>
    have hvalue : Numerals.digitValue 45 = none := by decide
    rw [hvalue] at hd
    cases hd.1

theorem fromCharsAll_eq_some_iff_digits {base : Nat} {negative : Bool} {str digits : Bytes}
    (hsign : (T.signed && str.head? == some 45) = negative)
    (hdigits : (if negative then str.tail else str) = digits) (v : Int) :
    T.fromCharsAll str base = some v ↔
      T.Holds v ∧ ∃ n : Nat, IsNumeral base digits n ∧ v = if negative then -(n : Int) else n := by
  obtain ⟨n, rest, hscan⟩ : ∃ n rest, Numerals.scan base 0 digits = (n, rest) := ⟨_, _, rfl⟩
  simp only [fromCharsAll, fromChars, hsign, hdigits, hscan]
  by_cases hnumeral : digits ≠ [] ∧ rest = []
  · obtain ⟨hne, rfl⟩ := hnumeral
    have hlength : ([] : Bytes).length ≠ digits.length :=
      fun h => hne (List.length_eq_zero_iff.mp h.symm)
    have hn : ∀ m, IsNumeral base digits m ↔ m = n := by
      intro m
      rw [← Numerals.scan_eq_iff, hscan]
      simp [hne, eq_comm]
    simp only [hlength, if_false, hn, exists_eq_left]
    by_cases hholds : T.Holds (if negative then -(n : Int) else n)
    · simp only [hholds, if_true, Option.some.injEq]
      constructor
      · rintro rfl
        exact ⟨hholds, rfl⟩
      · rintro ⟨-, rfl⟩
        rfl
    · simp only [hholds, if_false, reduceCtorEq, false_iff]
      rintro ⟨hv, rfl⟩
      exact hholds hv
  · have hnot : ¬ ∃ n : Nat, IsNumeral base digits n ∧ v = if negative then -(n : Int) else n := by
      rintro ⟨m, hm, -⟩
      obtain ⟨hne, heq⟩ := Numerals.scan_eq_iff.mpr hm
      rw [hscan] at heq
      exact hnumeral ⟨hne, congrArg Prod.snd heq⟩
    simp only [hnot, and_false, iff_false]
    by_cases hlength : rest.length = digits.length
    · simp [hlength]
    · cases rest with
      | nil => exact absurd ⟨fun hnil => hlength (by rw [hnil]), rfl⟩ hnumeral
      | cons c rest => simp only [hlength, if_false, reduceCtorEq, not_false_eq_true]

/-- All of a string is taken exactly when it denotes a number of the type. -/
theorem fromCharsAll_eq_some_iff {base : Nat} {str : Bytes} {v : Int} :
    T.fromCharsAll str base = some v ↔ T.Holds v ∧ T.Denotes base str v := by
  by_cases hsign : T.signed = true ∧ str.head? = some 45
  · obtain ⟨hsigned, hhead⟩ := hsign
    obtain ⟨digits, rfl⟩ := List.head?_eq_some_iff.mp hhead
    have htrue : (T.signed && (45 :: digits).head? == some 45) = true := by
      rw [hsigned]
      rfl
    rw [fromCharsAll_eq_some_iff_digits htrue rfl]
    simp [Denotes, not_isNumeral_minus, hsigned]
  · have hfalse : (T.signed && str.head? == some 45) = false := by
      simpa using hsign
    have hnone : ∀ digits, ¬ (T.signed = true ∧ str = 45 :: digits) := by
      rintro digits ⟨hsigned, rfl⟩
      exact hsign ⟨hsigned, rfl⟩
    rw [fromCharsAll_eq_some_iff_digits hfalse rfl]
    refine and_congr_right fun _ => exists_congr fun n => ?_
    simp only [Bool.false_eq_true, if_false, iff_self_or]
    rintro ⟨hsigned, digits, hstr, -⟩
    exact absurd ⟨hsigned, hstr⟩ (hnone digits)

/-! ## Decimal digits -/

theorem digitValue_lt_ten_iff {c : UInt8} {d : Nat} :
    Numerals.digitValue c = some d ∧ d < 10 ↔ isDigit c = true ∧ d = c.toNat - 48 := by
  rw [isDigit_iff, Numerals.digitValue]
  simp only [UInt8.le_iff_toNat_le, UInt8.reduceToNat]
  split
  · simp only [Option.some.injEq]
    omega
  · split
    · simp only [Option.some.injEq]
      omega
    · split
      · simp only [Option.some.injEq]
        omega
      · simp only [reduceCtorEq, false_and, false_iff]
        omega

theorem scan_ten {s : Bytes} (h : s.all isDigit = true) (acc : Nat) :
    Numerals.scan 10 acc s = (s.foldl (fun n c => 10 * n + (c.toNat - 48)) acc, []) := by
  induction s generalizing acc with
  | nil => rfl
  | cons c s ih =>
    rw [List.all_cons, Bool.and_eq_true] at h
    rw [Numerals.scan_digit (digitValue_lt_ten_iff.mpr ⟨h.1, rfl⟩), ih h.2, List.foldl_cons]

theorem isNumeral_ten_iff {s : Bytes} {n : Nat} :
    IsNumeral 10 s n ↔ s ≠ [] ∧ s.all isDigit = true ∧ decimal s = n := by
  constructor
  · rintro ⟨hne, digits, hspells, hn⟩
    have hall : s.all isDigit = true := by
      refine List.all_eq_true.mpr fun c hc => ?_
      obtain ⟨d, hd⟩ := hspells.exists_digit hc
      exact (digitValue_lt_ten_iff.mp hd).1
    have hscan := Numerals.scan_eq_iff.mpr ⟨hne, digits, hspells, hn⟩
    rw [scan_ten hall] at hscan
    exact ⟨hne, hall, congrArg Prod.fst hscan.2⟩
  · rintro ⟨hne, hall, rfl⟩
    exact Numerals.scan_eq_iff.mp ⟨hne, scan_ten hall 0⟩

/-! ## The prefixes -/

theorem toLower_eq_zero_iff {x : UInt8} : Util.toLower x = 48 ↔ x = 48 := by
  unfold Util.toLower
  split
  · next h =>
    have hlow : 65 ≤ x.toNat := UInt8.le_iff_toNat_le.mp h.1
    have hhigh : x.toNat ≤ 90 := UInt8.le_iff_toNat_le.mp h.2
    rw [← UInt8.toNat_inj, ← UInt8.toNat_inj, UInt8.toNat_add]
    simp only [UInt8.reduceToNat]
    omega
  · rfl

/-- A small letter is read for both. -/
theorem toLower_eq_letter_iff {x letter : UInt8}
    (hletter : 97 ≤ letter.toNat ∧ letter.toNat ≤ 122) :
    Util.toLower x = letter ↔ x = letter ∨ x = letter - 32 := by
  have hsub : (letter - 32).toNat = letter.toNat - 32 :=
    UInt8.toNat_sub_of_le _ _ (UInt8.le_iff_toNat_le.mpr (by simp only [UInt8.reduceToNat]; omega))
  simp only [Util.toLower, ← UInt8.toNat_inj, UInt8.le_iff_toNat_le, hsub]
  split
  · rw [UInt8.toNat_add]
    simp only [UInt8.reduceToNat] at *
    omega
  · simp only [UInt8.reduceToNat] at *
    omega

/-- The text has the two characters of a prefix. -/
theorem stringEqualI_take_two {str : Bytes} {letter : UInt8}
    (hletter : 97 ≤ letter.toNat ∧ letter.toNat ≤ 122) :
    stringEqualI (str.take 2) [48, letter] = true ↔
      ∃ x digits, str = 48 :: x :: digits ∧ (x = letter ∨ x = letter - 32) := by
  have hsame : Util.toLower letter = letter := (toLower_eq_letter_iff hletter).mpr (.inl rfl)
  have hzero : Util.toLower 48 = 48 := rfl
  rw [stringEqualI, decide_eq_true_eq]
  rcases str with _ | ⟨x, _ | ⟨y, digits⟩⟩
  · simp
  · simp
  · simp [hsame, hzero, toLower_eq_zero_iff, toLower_eq_letter_iff hletter]

/-- Nothing is read behind a prefix alone. -/
theorem not_denotes_nil {base : Nat} {v : Int} : ¬ T.Denotes base [] v := by
  rintro ⟨n, ⟨⟨hne, -⟩, -⟩ | ⟨-, digits, hnil, -⟩⟩
  · exact hne rfl
  · cases hnil

theorem fromString_zero (str : Bytes) :
    T.fromString str 0 = T.fromCharsAll (basePrefix str).2 (basePrefix str).1 := by
  rw [fromString, if_pos rfl]
  obtain ⟨base, rest⟩ := basePrefix str
  by_cases hnil : rest = []
  · subst hnil
    refine (Option.eq_none_iff_forall_ne_some.mpr fun v hv => ?_).symm
    exact not_denotes_nil (fromCharsAll_eq_some_iff.mp hv).2
  · exact if_neg hnil

/-- The letter of a prefix is no decimal digit. -/
theorem not_denotes_letter {x : UInt8} {digits : Bytes} {v : Int} (hx : 58 ≤ x.toNat) :
    ¬ T.Denotes 10 (48 :: x :: digits) v := by
  rintro ⟨n, ⟨hnumeral, -⟩ | ⟨-, _, hcons, -⟩⟩
  · have hall := (isNumeral_ten_iff.mp hnumeral).2.1
    have hdigit := isDigit_iff.mp (List.all_eq_true.mp hall x (by simp))
    omega
  · cases hcons

/-- Without a prefix the number is decimal. -/
theorem fromString_zero_eq_some_iff {str : Bytes} {v : Int} :
    T.fromString str 0 = some v ↔ T.Holds v ∧ (T.Denotes 10 str v ∨
      ∃ x digits, str = 48 :: x :: digits ∧
        ((x = 120 ∨ x = 88) ∧ T.Denotes 16 digits v ∨
          (x = 98 ∨ x = 66) ∧ T.Denotes 2 digits v)) := by
  rw [fromString_zero, fromCharsAll_eq_some_iff]
  refine and_congr_right fun _ => ?_
  have hhexIff : stringEqualI (str.take 2) (text "0x") = true ↔
      ∃ x digits, str = 48 :: x :: digits ∧ (x = 120 ∨ x = 88) :=
    stringEqualI_take_two (by decide)
  have hbinIff : stringEqualI (str.take 2) (text "0b") = true ↔
      ∃ x digits, str = 48 :: x :: digits ∧ (x = 98 ∨ x = 66) :=
    stringEqualI_take_two (by decide)
  by_cases hhex : stringEqualI (str.take 2) (text "0x") = true
  · obtain ⟨x, digits, rfl, hx⟩ := hhexIff.mp hhex
    have hbase : basePrefix (48 :: x :: digits) = (16, digits) := if_pos hhex
    have hdecimal : ¬ T.Denotes 10 (48 :: x :: digits) v :=
      not_denotes_letter (by rcases hx with rfl | rfl <;> decide)
    rw [hbase]
    rcases hx with rfl | rfl <;> simp [hdecimal]
  by_cases hbin : stringEqualI (str.take 2) (text "0b") = true
  · obtain ⟨x, digits, rfl, hx⟩ := hbinIff.mp hbin
    have hbase : basePrefix (48 :: x :: digits) = (2, digits) :=
      (if_neg hhex).trans (if_pos hbin)
    have hdecimal : ¬ T.Denotes 10 (48 :: x :: digits) v :=
      not_denotes_letter (by rcases hx with rfl | rfl <;> decide)
    rw [hbase]
    rcases hx with rfl | rfl <;> simp [hdecimal]
  · have hbase : basePrefix str = (10, str) := (if_neg hhex).trans (if_neg hbin)
    rw [hbase]
    refine ⟨.inl, ?_⟩
    rintro (hdecimal | ⟨x, digits, rfl, ⟨hx, -⟩ | ⟨hx, -⟩⟩)
    · exact hdecimal
    · exact absurd (hhexIff.mpr ⟨x, digits, rfl, hx⟩) hhex
    · exact absurd (hbinIff.mpr ⟨x, digits, rfl, hx⟩) hbin

/-! ## Base 10 -/

/-- `StringTo` as the rest of the program uses it. -/
theorem stringTo_eq_some_iff {str : Bytes} {v : Int} :
    T.stringTo str = some v ↔ T.Holds v ∧ T.Denotes 10 str v := by
  obtain ⟨signed, bits, hbits⟩ := T
  cases signed with
  | false =>
    simp only [stringTo, Holds, Denotes, isNumeral_ten_iff, Mpool.stringTo, Bool.false_eq_true,
      if_false, false_and, or_false, Option.map_eq_some_iff, Option.ite_none_right_eq_some,
      Option.some.injEq]
    constructor
    · rintro ⟨_, ⟨⟨hne, hall, hlt⟩, rfl⟩, rfl⟩
      have hlt' : (decimal str : Int) < 2 ^ bits := by exact_mod_cast hlt
      exact ⟨⟨Int.natCast_nonneg _, hlt'⟩, _, ⟨hne, hall, rfl⟩, rfl⟩
    · rintro ⟨⟨-, hlt⟩, _, ⟨hne, hall, rfl⟩, rfl⟩
      exact ⟨_, ⟨⟨hne, hall, by exact_mod_cast hlt⟩, rfl⟩, rfl⟩
  | true =>
    have hpow : (1 : Int) ≤ 2 ^ (bits - 1) := by exact_mod_cast Nat.one_le_two_pow
    simp only [stringTo, Holds, Denotes, isNumeral_ten_iff, if_true, true_and]
    unfold stringToSigned
    split
    · next digits =>
      have hminus : (45 :: digits).all isDigit = false := rfl
      simp only [hminus, Bool.false_eq_true, false_and, and_false, false_or, List.cons.injEq,
        true_and, exists_eq_left', Option.ite_none_right_eq_some, Option.some.injEq]
      constructor
      · rintro ⟨⟨hne, hall, hle⟩, rfl⟩
        have hle' : (decimal digits : Int) ≤ 2 ^ (bits - 1) := by exact_mod_cast hle
        exact ⟨by omega, _, ⟨hne, hall, rfl⟩, rfl⟩
      · rintro ⟨⟨hlow, -⟩, _, ⟨hne, hall, rfl⟩, rfl⟩
        have hle : (decimal digits : Int) ≤ 2 ^ (bits - 1) := by omega
        exact ⟨⟨hne, hall, by exact_mod_cast hle⟩, rfl⟩
    · next hminus =>
      simp only [Option.ite_none_right_eq_some, Option.some.injEq]
      constructor
      · rintro ⟨⟨hne, hall, hlt⟩, rfl⟩
        have hlt' : (decimal str : Int) < 2 ^ (bits - 1) := by exact_mod_cast hlt
        exact ⟨by omega, _, .inl ⟨⟨hne, hall, rfl⟩, rfl⟩⟩
      · rintro ⟨⟨-, hlt⟩, _, ⟨⟨hne, hall, rfl⟩, rfl⟩ | ⟨digits, hcons, -⟩⟩
        · exact ⟨⟨hne, hall, by exact_mod_cast hlt⟩, rfl⟩
        · exact absurd hcons (hminus digits)

variable (T) in
theorem fromString_ten (str : Bytes) : T.fromString str 10 = T.stringTo str := by
  ext v
  rw [stringTo_eq_some_iff, fromString, if_neg (by decide), fromCharsAll_eq_some_iff]

/-! ## All texts of a number -/

theorem denotes_integer {base : Nat} (hlow : 2 ≤ base) (hhigh : base ≤ 36) {v : Int}
    (hv : T.Holds v) : T.Denotes base (Numerals.integer base v) v := by
  have hnumeral := Numerals.isNumeral_numeral hlow hhigh v.natAbs
  rw [Numerals.integer]
  split
  · next hneg =>
    have hsigned : T.signed = true := by
      by_contra hunsigned
      rw [Holds, if_neg hunsigned] at hv
      omega
    exact ⟨v.natAbs, .inr ⟨hsigned, _, rfl, hnumeral, by omega⟩⟩
  · exact ⟨v.natAbs, .inl ⟨hnumeral, by omega⟩⟩

/-- In each base `FromString` reads the texts of the numbers of its type, every number has
one, and the prefixes name the bases they stand for; base 10 is what the program uses. -/
theorem number_texts (T : IntegralType) :
    (∀ base, 2 ≤ base → base ≤ 36 → ∀ str v,
        T.fromString str base = some v ↔ T.Holds v ∧ T.Denotes base str v) ∧
      (∀ str v, T.fromString str 0 = some v ↔ T.Holds v ∧ (T.Denotes 10 str v ∨
        ∃ x digits, str = 48 :: x :: digits ∧
          ((x = 120 ∨ x = 88) ∧ T.Denotes 16 digits v ∨
            (x = 98 ∨ x = 66) ∧ T.Denotes 2 digits v))) ∧
      (∀ base, 2 ≤ base → base ≤ 36 → ∀ v, T.Holds v →
        T.fromString (Numerals.integer base v) base = some v) ∧
      ∀ str, T.fromString str 10 = T.stringTo str := by
  have hreads : ∀ base, 2 ≤ base → base ≤ 36 → ∀ str v,
      T.fromString str base = some v ↔ T.Holds v ∧ T.Denotes base str v := by
    intro base hlow _ str v
    rw [fromString, if_neg (by omega), fromCharsAll_eq_some_iff]
  refine ⟨hreads, fun _ _ => fromString_zero_eq_some_iff, ?_, T.fromString_ten⟩
  intro base hlow hhigh v hv
  exact (hreads base hlow hhigh _ v).mpr ⟨hv, denotes_integer hlow hhigh hv⟩

/-- A minus may stand behind the prefix, and not before it. -/
example : (IntegralType.mk true 8 (by decide)).fromString (text "0x-7f") 0 = some (-127) ∧
    (IntegralType.mk true 8 (by decide)).fromString (text "-0x7f") 0 = none := by
  decide

end IntegralType

end Mpool
