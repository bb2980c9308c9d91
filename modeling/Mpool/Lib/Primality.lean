import Mathlib.FieldTheory.Finite.Basic

/-! Pocklington's test: prime factors of `n - 1` whose product exceeds the square
root of `n` are enough, so a certificate needs no complete factorisation. -/

namespace Nat

variable {n p : ℕ}

/-- A power that is a unit away from `1` modulo `n` is not `1` modulo any prime
factor of `n`. -/
theorem cast_ne_one_of_isUnit {q : ℕ} [Fact q.Prime] (hq : q ∣ n) {a : ZMod n}
    (h : IsUnit (a - 1)) : ZMod.castHom hq (ZMod q) a ≠ 1 := by
  have hne := (h.map (ZMod.castHom hq (ZMod q))).ne_zero
  rw [map_sub, map_one] at hne
  intro h1
  exact hne (sub_eq_zero.mpr h1)

/-- An element whose `m`-th power is `1` and whose `m / p`-th power is not has
an order that `p` divides. -/
theorem dvd_orderOf {G : Type*} [Monoid G] {b : G} {m : ℕ} (hp : p.Prime) (hpm : p ∣ m)
    (h1 : b ^ m = 1) (hne : b ^ (m / p) ≠ 1) : p ∣ orderOf b := by
  have hord : orderOf b ∣ m / p * p := by
    rw [Nat.div_mul_cancel hpm]
    exact orderOf_dvd_of_pow_eq_one h1
  by_contra hpo
  apply hne
  apply orderOf_dvd_iff_pow_eq_one.mp
  exact ((Nat.Prime.coprime_iff_not_dvd hp).mpr hpo).symm.dvd_of_dvd_mul_right hord

/-- If primes whose product exceeds the square root of `n` divide `n - 1`, and
some `a` has an `n - 1`-st power `1` modulo `n` and `(n - 1) / p`-th powers that
are units away from `1`, then `n` is prime. -/
theorem prime_of_factors (hn : 1 < n) {s : Finset ℕ} (hp : ∀ p ∈ s, p.Prime)
    (hpn : ∀ p ∈ s, p ∣ n - 1) (hbig : n < (∏ p ∈ s, p) ^ 2) (a : ZMod n)
    (h1 : a ^ (n - 1) = 1) (hu : ∀ p ∈ s, IsUnit (a ^ ((n - 1) / p) - 1)) : n.Prime := by
  have hq : n.minFac.Prime := Nat.minFac_prime (by omega)
  have : Fact n.minFac.Prime := ⟨hq⟩
  have htwo := hq.two_le
  let b := ZMod.castHom n.minFac_dvd (ZMod n.minFac) a
  have hb : b ^ (n - 1) = 1 := by
    rw [← map_pow, h1, map_one]
  have hb0 : b ≠ 0 := by
    intro h0
    rw [h0, zero_pow (by omega)] at hb
    exact zero_ne_one hb
  have hdvd : ∀ p ∈ s, p ∣ n.minFac - 1 := by
    intro p hmem
    have hne : b ^ ((n - 1) / p) ≠ 1 := by
      rw [← map_pow]
      exact cast_ne_one_of_isUnit n.minFac_dvd (hu p hmem)
    exact (dvd_orderOf (hp p hmem) (hpn p hmem) hb hne).trans (ZMod.orderOf_dvd_card_sub_one hb0)
  have hprod : ∏ p ∈ s, p ∣ n.minFac - 1 :=
    Finset.prod_primes_dvd _ (fun p hmem => (hp p hmem).prime) hdvd
  have hle : ∏ p ∈ s, p ≤ n.minFac := (Nat.le_of_dvd (by omega) hprod).trans (Nat.sub_le _ _)
  by_contra hcomp
  have hsq : n.minFac ^ 2 ≤ n := Nat.minFac_sq_le_self (by omega) hcomp
  have hpow : (∏ p ∈ s, p) ^ 2 ≤ n.minFac ^ 2 := Nat.pow_le_pow_left hle 2
  omega

end Nat
