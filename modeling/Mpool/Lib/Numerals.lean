import Mathlib.Data.List.Forall2
import Mathlib.Data.Nat.Digits.Lemmas
import Mpool.Lib.Bytes

/-! Numerals in the bases up to 36, with the letters for the digits from 10 on, in either
case. `scan` takes digits as far as they go, `IsNumeral` says which number a string
denotes, and `numeral` writes one. -/

namespace Numerals

def digitValue (c : UInt8) : Option Nat :=
  if 48 ≤ c ∧ c ≤ 57 then some (c.toNat - 48)
  else if 65 ≤ c ∧ c ≤ 90 then some (c.toNat - 55)
  else if 97 ≤ c ∧ c ≤ 122 then some (c.toNat - 87)
  else none

/-- The number after the digits at the start of the string, and what follows them. -/
def scan (base acc : Nat) : Bytes → Nat × Bytes
  | [] => (acc, [])
  | c :: s =>
    match digitValue c with
    | some d => if d < base then scan base (base * acc + d) s else (acc, c :: s)
    | none => (acc, c :: s)

/-- The characters are the digits of this base. -/
def Spells (base : Nat) (s : Bytes) (digits : List Nat) : Prop :=
  List.Forall₂ (fun c d => digitValue c = some d ∧ d < base) s digits

/-- The string has digits only, and denotes `n`. -/
def IsNumeral (base : Nat) (s : Bytes) (n : Nat) : Prop :=
  s ≠ [] ∧ ∃ digits, Spells base s digits ∧ n = Nat.ofDigits base digits.reverse

def ofDigit (d : Nat) : UInt8 := UInt8.ofNat (if d < 10 then 48 + d else 87 + d)

/-- The shortest numeral, with small letters. -/
def numeral (base n : Nat) : Bytes :=
  if n = 0 then [ofDigit 0] else ((Nat.digits base n).map ofDigit).reverse

/-- An integer, behind a minus if it is negative. -/
def integer (base : Nat) (v : Int) : Bytes :=
  if v < 0 then 45 :: numeral base v.natAbs else numeral base v.natAbs

theorem digitValue_ofDigit {d : Nat} (h : d < 36) : digitValue (ofDigit d) = some d := by
  interval_cases d <;> rfl

theorem Spells.exists_digit {base : Nat} {s : Bytes} {digits : List Nat}
    (h : Spells base s digits) {c : UInt8} (hc : c ∈ s) :
    ∃ d, digitValue c = some d ∧ d < base := by
  induction h with
  | nil => cases hc
  | @cons _ d _ _ hd _ ih =>
    rcases List.mem_cons.mp hc with rfl | hc
    · exact ⟨d, hd⟩
    · exact ih hc

theorem spells_ofDigit {base : Nat} (hbase : base ≤ 36) {digits : List Nat}
    (h : ∀ d ∈ digits, d < base) : Spells base (digits.map ofDigit) digits := by
  induction digits with
  | nil => exact .nil
  | cons d digits ih =>
    have hd := h d List.mem_cons_self
    exact .cons ⟨digitValue_ofDigit (Nat.lt_of_lt_of_le hd hbase), hd⟩
      (ih fun d hd => h d (List.mem_cons_of_mem _ hd))

theorem isNumeral_numeral {base : Nat} (hlow : 2 ≤ base) (hhigh : base ≤ 36) (n : Nat) :
    IsNumeral base (numeral base n) n := by
  by_cases hn : n = 0
  · subst hn
    refine ⟨List.cons_ne_nil _ _, [0], ?_, by simp⟩
    exact .cons ⟨rfl, by omega⟩ .nil
  · have hdigits : Nat.digits base n ≠ [] := Nat.digits_ne_nil_iff_ne_zero.mpr hn
    refine ⟨by simpa [numeral, hn] using hdigits, (Nat.digits base n).reverse, ?_, ?_⟩
    · rw [numeral, if_neg hn, ← List.map_reverse]
      refine spells_ofDigit hhigh fun d hd => ?_
      exact Nat.digits_lt_base hlow (List.mem_reverse.mp hd)
    · rw [List.reverse_reverse, Nat.ofDigits_digits]

/-! ## Scanning -/

/-- The number after one more digit at the front. -/
theorem ofDigits_front (base acc d : Nat) (digits : List Nat) :
    base ^ digits.length * (base * acc + d) + Nat.ofDigits base digits.reverse =
      base ^ (d :: digits).length * acc + Nat.ofDigits base (d :: digits).reverse := by
  rw [List.reverse_cons, Nat.ofDigits_append, List.length_reverse, Nat.ofDigits_singleton,
    List.length_cons, pow_succ]
  ring

theorem scan_digit {base : Nat} {c : UInt8} {d : Nat} (h : digitValue c = some d ∧ d < base)
    (acc : Nat) (s : Bytes) : scan base acc (c :: s) = scan base (base * acc + d) s := by
  simp only [scan, h.1, h.2, if_true]

/-- A numeral is taken to its end. -/
theorem scan_of_spells {base : Nat} {s : Bytes} {digits : List Nat} (h : Spells base s digits)
    (acc : Nat) : scan base acc s =
      (base ^ digits.length * acc + Nat.ofDigits base digits.reverse, []) := by
  induction h generalizing acc with
  | nil => simp [scan]
  | @cons c d s digits hd _ ih => rw [scan_digit hd, ih, ofDigits_front]

/-- Where nothing is left the string had digits only. -/
theorem spells_of_scan {base acc : Nat} {s : Bytes} (h : (scan base acc s).2 = []) :
    ∃ digits, Spells base s digits := by
  induction s generalizing acc with
  | nil => exact ⟨[], .nil⟩
  | cons c s ih =>
    cases hvalue : digitValue c with
    | none => simp [scan, hvalue] at h
    | some d =>
      by_cases hd : d < base
      · rw [scan_digit ⟨hvalue, hd⟩] at h
        obtain ⟨digits, hspells⟩ := ih h
        exact ⟨d :: digits, .cons ⟨hvalue, hd⟩ hspells⟩
      · simp [scan, hvalue, hd] at h

/-- The scan takes all of a string, and something, exactly when it is a numeral. -/
theorem scan_eq_iff {base : Nat} {s : Bytes} {n : Nat} :
    s ≠ [] ∧ scan base 0 s = (n, []) ↔ IsNumeral base s n := by
  refine and_congr_right fun _ => ⟨fun h => ?_, ?_⟩
  · obtain ⟨digits, hspells⟩ := spells_of_scan (congrArg Prod.snd h)
    rw [scan_of_spells hspells, Nat.mul_zero, Nat.zero_add] at h
    exact ⟨digits, hspells, (congrArg Prod.fst h).symm⟩
  · rintro ⟨digits, hspells, rfl⟩
    rw [scan_of_spells hspells, Nat.mul_zero, Nat.zero_add]

end Numerals
