import Mpool.Common.SRP6
import Mpool.Lib.Primality
import Mathlib.NumberTheory.LucasPrimality
import Mathlib.Tactic.NormNum.Prime
import Mathlib.Tactic.ReduceModChar

/-! The secret `S` that `VerifyChallengeResponse` computes. Its argument is a
product of a client key and a power of the verifier, and `N` is prime: once
neither factor is a multiple of `N`, no exponent makes the result `0`. -/

namespace Mpool.SRP6

/-! ## `N` is prime

Each prime is certified by a large prime factor of its predecessor. -/

theorem prime_2194081313 : Nat.Prime 2194081313 := by
  have hp : Nat.Prime 6079 := by norm_num
  have hq : Nat.Prime 11279 := by norm_num
  apply Nat.prime_of_factors (s := {6079, 11279})
    (by norm_num) (by simp [hp, hq]) (by simp) (by simp) 2
  · reduce_mod_char
  · intro p hp
    rcases Finset.mem_insert.mp hp with rfl | hp
    · apply IsUnit.of_mul_eq_one 1369642448
      reduce_mod_char
    · rw [Finset.mem_singleton.mp hp]
      apply IsUnit.of_mul_eq_one 1657146425
      reduce_mod_char

theorem prime_6099546050141 : Nat.Prime 6099546050141 := by
  apply Nat.prime_of_factors (s := {2194081313})
    (by norm_num) (by simp [prime_2194081313]) (by simp) (by simp) 2
  · reduce_mod_char
  · intro p hp
    rw [Finset.mem_singleton.mp hp]
    apply IsUnit.of_mul_eq_one 2582555015269
    reduce_mod_char

theorem prime_1573682880936379 : Nat.Prime 1573682880936379 := by
  apply Nat.prime_of_factors (s := {6099546050141})
    (by norm_num) (by simp [prime_6099546050141]) (by simp) (by simp) 2
  · reduce_mod_char
  · intro p hp
    rw [Finset.mem_singleton.mp hp]
    apply IsUnit.of_mul_eq_one 996982822270978
    reduce_mod_char

theorem prime_3345116454683 : Nat.Prime 3345116454683 := by
  have hp : Nat.Prime 6993499 := by norm_num
  apply Nat.prime_of_factors (s := {6993499})
    (by norm_num) (by simp [hp]) (by simp) (by simp) 2
  · reduce_mod_char
  · intro p hp
    rw [Finset.mem_singleton.mp hp]
    apply IsUnit.of_mul_eq_one 137056388837
    reduce_mod_char

theorem prime_cofactor : Nat.Prime 2279079126837977412406933585396045119937459 := by
  apply Nat.prime_of_factors (s := {1573682880936379, 3345116454683})
    (by norm_num) (by simp [prime_1573682880936379, prime_3345116454683]) (by simp) (by simp) 2
  · reduce_mod_char
  · intro p hp
    rcases Finset.mem_insert.mp hp with rfl | hp
    · apply IsUnit.of_mul_eq_one 107985112481952257481138871615578606717626
      reduce_mod_char
    · rw [Finset.mem_singleton.mp hp]
      apply IsUnit.of_mul_eq_one 1159972703279187219847440624093609298416251
      reduce_mod_char

/-- `(N - 1) / 2`. -/
theorem prime_half : Nat.Prime
      31050033254578008671034748070451474931624879168000398464283220585146864324059 := by
  apply Nat.prime_of_factors (s := {2279079126837977412406933585396045119937459})
    (by norm_num) (by simp [prime_cofactor]) (by simp) (by simp) 2
  · reduce_mod_char
  · intro p hp
    rw [Finset.mem_singleton.mp hp]
    apply IsUnit.of_mul_eq_one
      13602639573707913569147509216913392466171507344570586265448762545027988230786
    reduce_mod_char

theorem prime_modulus : Nat.Prime
      62100066509156017342069496140902949863249758336000796928566441170293728648119 := by
  apply Nat.prime_of_factors (s := {31050033254578008671034748070451474931624879168000398464283220585146864324059})
    (by norm_num) (by simp [prime_half]) (by simp) (by simp) 2
  · reduce_mod_char
  · intro p hp
    rw [Finset.mem_singleton.mp hp]
    apply IsUnit.of_mul_eq_one
      20700022169718672447356498713634316621083252778666932309522147056764576216040
    reduce_mod_char

theorem _N_prime : Nat.Prime _N := by
  rw [_N_eq]
  exact prime_modulus

/-! ## The secret of a client key -/

variable (H : Hash)

/-- The `S` of `VerifyChallengeResponse`, before `ToByteArray<32>`. -/
def sharedSecret (srp : SRP6) (A : EphemeralKey) : BigNumber :=
  let _A := BigNumber.ofArray A
  let u := BigNumber.ofArray (H (A.bytes ++ srp.B.bytes))
  BigNumber.modExp (_A * BigNumber.modExp srp.v u _N) srp.b (.ofArray N)

theorem verifyChallengeResponse_multiple (srp : SRP6) (A : EphemeralKey) (clientM : Digest)
    (hu : srp.used = false) (hA : A.value % _N = 0) :
    verifyChallengeResponse H srp A clientM = .ok ({ srp with used := true }, none) := by
  simp [verifyChallengeResponse, hu, BigNumber.ofArray, hA]

/-- Past the check on `A` the answer is made from `sharedSecret` alone. -/
theorem verifyChallengeResponse_secret (srp : SRP6) (A : EphemeralKey) (clientM : Digest)
    (hu : srp.used = false) (hA : A.value % _N ≠ 0) {S : EphemeralKey}
    (hS : BigNumber.toByteArray 32 (sharedSecret H srp A) = some S) :
    verifyChallengeResponse H srp A clientM = .ok ({ srp with used := true },
      if ourM H srp A (sha1Interleave H S) = clientM then some (sha1Interleave H S)
      else none) := by
  simp only [sharedSecret] at hS
  simp only [verifyChallengeResponse, hu, BigNumber.ofArray, hA, Bool.false_eq_true, ↓reduceIte]
  simp only [BigNumber.ofArray] at hS
  rw [hS]
  rfl

theorem not_dvd_modExp {v e : Nat} (hv : ¬ _N ∣ v) : ¬ _N ∣ BigNumber.modExp v e _N := by
  intro h
  apply hv
  apply _N_prime.dvd_of_dvd_pow
  exact (Nat.dvd_mod_iff (dvd_refl _N)).mp h

theorem sharedSecret_lt (srp : SRP6) (A : EphemeralKey) : sharedSecret H srp A < _N :=
  Nat.mod_lt _ _N_pos

/-- A prime divides a power of a product only when it divides a factor. -/
theorem sharedSecret_pos {srp : SRP6} {A : EphemeralKey} (hv : srp.v % _N ≠ 0)
    (hA : A.value % _N ≠ 0) : 0 < sharedSecret H srp A := by
  have hv' : ¬ _N ∣ srp.v := fun h => hv (Nat.mod_eq_zero_of_dvd h)
  have hA' : ¬ _N ∣ A.value := fun h => hA (Nat.mod_eq_zero_of_dvd h)
  apply Nat.pos_of_ne_zero
  intro h0
  have hdvd := _N_prime.dvd_of_dvd_pow (Nat.dvd_of_mod_eq_zero h0)
  rcases _N_prime.dvd_mul.mp hdvd with h | h
  · exact hA' h
  · exact not_dvd_modExp hv' h

/-- No client key forces a trivial secret: a multiple of `N` is turned away
whatever the proof, and every other key gives a secret between `0` and `N`, which
the 32 bytes hold. -/
theorem secret_nontrivial (srp : SRP6) (hu : srp.used = false) (hv : srp.v % _N ≠ 0)
    (A : EphemeralKey) (clientM : Digest) :
    (A.value % _N ≠ 0 →
      0 < sharedSecret H srp A ∧ sharedSecret H srp A < _N ∧
      ∃ S : EphemeralKey, BigNumber.toByteArray 32 (sharedSecret H srp A) = some S ∧
        S.value = sharedSecret H srp A ∧
        verifyChallengeResponse H srp A clientM = .ok ({ srp with used := true },
          if ourM H srp A (sha1Interleave H S) = clientM then some (sha1Interleave H S)
          else none)) ∧
    (A.value % _N = 0 →
      verifyChallengeResponse H srp A clientM = .ok ({ srp with used := true }, none)) := by
  constructor
  · intro hA
    have hlt := sharedSecret_lt H srp A
    have hfit : sharedSecret H srp A < 256 ^ 32 := hlt.trans _N_lt
    have hS := BigNumber.toByteArray_of_lt hfit
    exact ⟨sharedSecret_pos H hv hA, hlt, _, hS, Octets.value_encode hfit,
      verifyChallengeResponse_secret H srp A clientM hu hA hS⟩
  · exact verifyChallengeResponse_multiple H srp A clientM hu

/-- The verifier `1` and the secret `5`, the client keys `2` and `N`, and a hash
that is always zero. -/
theorem secret_nontrivial_two :
    let H : Hash := fun _ => .zero 20
    let srp : SRP6 := { used := false, I := .zero 20, b := 5, v := 1, s := .zero 32, B := .zero 32 }
    (0 < sharedSecret H srp (.encode 32 2) ∧ sharedSecret H srp (.encode 32 2) < _N) ∧
    verifyChallengeResponse H srp N (.zero 20) = .ok ({ srp with used := true }, none) := by
  intro H srp
  constructor
  · obtain ⟨hpos, hlt, -⟩ :=
      (secret_nontrivial H srp rfl (by decide) (.encode 32 2) (.zero 20)).1 (by decide)
    exact ⟨hpos, hlt⟩
  · exact (secret_nontrivial H srp rfl (by decide) N (.zero 20)).2 (by decide)

end Mpool.SRP6
