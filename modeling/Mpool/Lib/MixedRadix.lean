import Mathlib.Algebra.Ring.Nat
import Mathlib.Data.List.Forall2
import Mathlib.Tactic.Ring

/-! Mixed-radix numbers, least significant digit first. There is one digit more than there
are radices: the last one is not bounded. -/

namespace MixedRadix

def digits : List Nat → Nat → List Nat
  | [], n => [n]
  | r :: radices, n => n % r :: digits radices (n / r)

/-- What a one is worth at each place, where the first is worth `w`. -/
def weights (w : Nat) : List Nat → List Nat
  | [] => [w]
  | r :: radices => w :: weights (w * r) radices

@[simp] theorem length_digits (radices : List Nat) (n : Nat) :
    (digits radices n).length = radices.length + 1 := by
  induction radices generalizing n with
  | nil => rfl
  | cons r radices ih => rw [digits, List.length_cons, ih, List.length_cons]

@[simp] theorem length_weights (w : Nat) (radices : List Nat) :
    (weights w radices).length = radices.length + 1 := by
  induction radices generalizing w with
  | nil => rfl
  | cons r radices ih => rw [weights, List.length_cons, ih, List.length_cons]

/-- The digits are below their radices. -/
theorem digits_lt {radices : List Nat} (hpos : ∀ r ∈ radices, 0 < r) (n : Nat) :
    List.Forall₂ (· < ·) ((digits radices n).take radices.length) radices := by
  induction radices generalizing n with
  | nil => exact List.Forall₂.nil
  | cons r radices ih =>
    exact List.Forall₂.cons (Nat.mod_lt n (hpos r List.mem_cons_self))
      (ih (fun s hs => hpos s (List.mem_cons_of_mem r hs)) (n / r))

/-- From place `i` on, the digits are worth the number without its rest at that place. -/
theorem sum_drop (radices : List Nat) (w n i : Nat) (hi : i ≤ radices.length) :
    ((List.zipWith (· * ·) (digits radices n) (weights w radices)).drop i).sum =
      w * (n - n % (radices.take i).prod) := by
  induction radices generalizing w n i with
  | nil =>
    obtain rfl : i = 0 := Nat.le_zero.mp hi
    simp [digits, weights, Nat.mod_one, Nat.mul_comm]
  | cons r radices ih =>
    cases i with
    | zero =>
      have htail := ih (w * r) (n / r) 0 (Nat.zero_le _)
      simp only [List.drop_zero, List.take_zero, List.prod_nil, Nat.mod_one, Nat.sub_zero]
        at htail ⊢
      rw [digits, weights, List.zipWith_cons_cons, List.sum_cons, htail]
      calc n % r * w + w * r * (n / r) = w * (n % r + r * (n / r)) := by ring
        _ = w * n := by rw [Nat.mod_add_div]
    | succ i =>
      have htail := ih (w * r) (n / r) i (Nat.le_of_succ_le_succ hi)
      have hrest : n - n % (r * (radices.take i).prod) =
          r * (n / r - n / r % (radices.take i).prod) := by
        have hsplit := Nat.mod_add_div n r
        rw [Nat.mod_mul, Nat.mul_sub]
        omega
      rw [digits, weights, List.zipWith_cons_cons, List.drop_succ_cons, htail,
        List.take_succ_cons, List.prod_cons, hrest, Nat.mul_assoc]

/-- The same, with the most significant digit first. -/
theorem sum_take_reverse (radices : List Nat) (n k : Nat) (hk : k ≤ radices.length) :
    ((List.zipWith (· * ·) (digits radices n) (weights 1 radices)).reverse.take (k + 1)).sum =
      n - n % (radices.take (radices.length - k)).prod := by
  have hlength : (List.zipWith (· * ·) (digits radices n) (weights 1 radices)).length =
      radices.length + 1 := by
    rw [List.length_zipWith, length_digits, length_weights, Nat.min_self]
  have hdrop : radices.length + 1 - (k + 1) = radices.length - k := by omega
  rw [List.take_reverse, List.sum_reverse, hlength, hdrop,
    sum_drop radices 1 n _ (Nat.sub_le _ _), Nat.one_mul]

end MixedRadix
