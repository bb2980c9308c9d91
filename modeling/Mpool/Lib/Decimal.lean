import Mathlib.Data.Nat.Digits.Lemmas
import Mpool.Lib.Bytes

/-! Decimal numerals as byte strings: without leading zeros, the zero as one digit. -/

namespace Decimal

/-- The decimal digit, as a character. -/
def ofDigit (d : Nat) : UInt8 := UInt8.ofNat (48 + d)

/-- A number in decimal. -/
def numeral (n : Nat) : Bytes :=
  if n = 0 then [ofDigit 0] else ((Nat.digits 10 n).map ofDigit).reverse

/-- An integer in decimal. -/
def integer (v : Int) : Bytes := if v < 0 then 45 :: numeral v.natAbs else numeral v.natAbs

theorem ofDigit_toNat {d : Nat} (h : d < 10) : (ofDigit d).toNat = 48 + d :=
  UInt8.toNat_ofNat_of_lt (by change 48 + d < 256; omega)

theorem numeral_of_lt {n : Nat} (h : n < 10) : numeral n = [ofDigit n] := by
  unfold numeral
  split
  · next hzero => rw [hzero]
  · next hne => rw [Nat.digits_of_lt 10 n hne h]; rfl

/-- The last digit of a longer number. -/
theorem numeral_of_ge {n : Nat} (h : 10 ≤ n) :
    numeral n = numeral (n / 10) ++ [ofDigit (n % 10)] := by
  have hn : n ≠ 0 := by omega
  have hdiv : n / 10 ≠ 0 := by omega
  rw [numeral, if_neg hn, numeral, if_neg hdiv, Nat.digits_def' (by omega) (by omega),
    List.map_cons, List.reverse_cons]

theorem numeral_length_le {n k : Nat} (hk : 0 < k) : (numeral n).length ≤ k ↔ n < 10 ^ k := by
  unfold numeral
  split
  · next hzero =>
    subst hzero
    have hpow : 0 < 10 ^ k := Nat.pow_pos (by omega)
    simp only [List.length_singleton, hpow, iff_true]
    omega
  · rw [List.length_reverse, List.length_map, Nat.digits_length_le_iff (by omega)]

/-- The characters of a numeral are digits. -/
theorem numeral_digits {n : Nat} : ∀ c ∈ numeral n, 48 ≤ c.toNat ∧ c.toNat ≤ 57 := by
  intro c hc
  unfold numeral at hc
  split at hc
  · rw [List.mem_singleton] at hc
    subst hc
    decide
  · rw [List.mem_reverse, List.mem_map] at hc
    obtain ⟨d, hd, rfl⟩ := hc
    have hlt : d < 10 := Nat.digits_lt_base (by omega) hd
    rw [ofDigit_toNat hlt]
    omega

theorem numeral_ne_nil (n : Nat) : numeral n ≠ [] := by
  intro hnil
  have hle : (numeral n).length ≤ 0 := by rw [hnil]; exact Nat.le_refl 0
  unfold numeral at hle
  split at hle
  · exact absurd hle (by decide)
  · next hne =>
    rw [List.length_reverse, List.length_map, Nat.digits_length_le_iff (by omega)] at hle
    omega

/-- A number of two digits or more. -/
theorem exists_numeral {n : Nat} (h : 10 ≤ n) : ∃ c d rest, numeral n = c :: d :: rest ∧
    (rest.length ≤ 0 ↔ n < 100) ∧ (rest.length ≤ 1 ↔ n < 1000) ∧
    (rest.length ≤ 2 ↔ n < 10000) := by
  have hone := not_congr (numeral_length_le (n := n) (k := 1) (by omega))
  have htwo := numeral_length_le (n := n) (k := 2) (by omega)
  have hthree := numeral_length_le (n := n) (k := 3) (by omega)
  have hfour := numeral_length_le (n := n) (k := 4) (by omega)
  match hnumeral : numeral n with
  | [] => exact absurd hnumeral (numeral_ne_nil n)
  | [c] =>
    rw [hnumeral] at hone
    exact absurd (hone.mpr (by omega)) (by simp)
  | c :: d :: rest =>
    rw [hnumeral] at htwo hthree hfour
    simp only [List.length_cons] at htwo hthree hfour
    exact ⟨c, d, rest, rfl, by omega, by omega, by omega⟩

end Decimal
