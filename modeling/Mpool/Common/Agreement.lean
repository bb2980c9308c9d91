import Mpool.Common.SRP6
import Mathlib.Data.Int.ModEq
import Mathlib.Data.Nat.Prime.Basic

/-! The two ends of the SRP6 login agree. `Client` is the other end: it works
on integers, keeps the password and never sees the server secret. -/

namespace Mpool.Agreement

open SRP6

/-! ## The arithmetic of the exchange -/

/-- Both ends raise `g` to the exponent `b * (a + u * x)` modulo `n`. -/
theorem secrets_agree {n g A B v k : Int} {a b u x : Nat}
    (hA : A ≡ g ^ a [ZMOD n]) (hv : v ≡ g ^ x [ZMOD n])
    (hB : B ≡ g ^ b + v * k [ZMOD n]) :
    (B - k * g ^ x) ^ (a + u * x) ≡ (A * v ^ u) ^ b [ZMOD n] := by
  have hbase : B - k * g ^ x ≡ g ^ b [ZMOD n] := by
    have h := hB.sub ((hv.mul_right k).symm)
    simpa [mul_comm] using h
  calc (B - k * g ^ x) ^ (a + u * x)
      ≡ (g ^ b) ^ (a + u * x) [ZMOD n] := hbase.pow _
    _ = (g ^ a * (g ^ x) ^ u) ^ b := by ring
    _ ≡ (A * v ^ u) ^ b [ZMOD n] := ((hA.mul (hv.pow u)).pow b).symm

theorem pow_mod_ne_zero {g n a : Nat} (hg : Nat.Coprime g n) (hn : 1 < n) : g ^ a % n ≠ 0 := by
  intro h
  have hd : n ∣ g ^ a := Nat.dvd_of_mod_eq_zero h
  have hone : n = 1 := (Nat.Coprime.pow_left a hg).symm.eq_one_of_dvd hd
  omega

theorem coprime_g_N : Nat.Coprime _g _N := by rw [_g_eq, _N_eq]; decide

theorem one_lt_N : 1 < _N := by rw [_N_eq]; decide

/-! ## The client -/

namespace Client

variable (H : Hash) (username password : Bytes) (s : Salt) (a : Nat) (B : EphemeralKey)

def x : Nat := (H (s.bytes ++ (H (username ++ Util.text ":" ++ password)).bytes)).value

def A : EphemeralKey := Octets.encode 32 (_g ^ a % _N)

def scramble : Nat := (H ((A a).bytes ++ B.bytes)).value

def S : Nat :=
  ((((B.value : Int) - 3 * (_g : Int) ^ x H username password s) ^
    (a + scramble H a B * x H username password s)) % (_N : Int)).toNat

def K : SessionKey := sha1Interleave H (Octets.encode 32 (S H username password s a B))

def M1 : Digest :=
  H ((bitXor (H N.bytes) (H g.bytes)).bytes ++ (H username).bytes ++ s.bytes ++ (A a).bytes ++
    B.bytes ++ (K H username password s a B).bytes)

end Client

/-! ## Agreement -/

theorem client_A_value (a : Nat) : (Client.A a).value = _g ^ a % _N :=
  Octets.value_encode (mod_N_fits _)

theorem client_A_not_rejected (a : Nat) : (Client.A a).value % _N ≠ 0 := by
  rw [client_A_value, Nat.mod_mod]
  exact pow_mod_ne_zero coprime_g_N one_lt_N

/-- `srp` is the server's end of a login with this password. -/
structure Serves (H : Hash) (username password : Bytes) (srp : SRP6) : Prop where
  I : srp.I = H username
  v : srp.v = _g ^ Client.x H username password srp.s % _N
  B : srp.B.value = (_g ^ srp.b % _N + srp.v * 3) % _N

section

variable {H : Hash} {username password : Bytes} {srp : SRP6}

theorem Serves.secret_eq (h : Serves H username password srp) (a : Nat) :
    Client.S H username password srp.s a srp.B = secretOf H srp (Client.A a) := by
  have hA : ((Client.A a).value : Int) ≡ (_g : Int) ^ a [ZMOD _N] := by
    rw [client_A_value]
    push_cast
    exact Int.mod_modEq _ _
  have hv : (srp.v : Int) ≡ (_g : Int) ^ Client.x H username password srp.s [ZMOD _N] := by
    rw [h.v]
    push_cast
    exact Int.mod_modEq _ _
  have hB : (srp.B.value : Int) ≡ (_g : Int) ^ srp.b + srp.v * 3 [ZMOD _N] := by
    rw [h.B]
    push_cast
    exact (Int.mod_modEq _ _).trans ((Int.mod_modEq _ _).add_right _)
  have hS := secrets_agree (u := Client.scramble H a srp.B) hA hv hB
  rw [Client.S, hS.eq]
  simp only [secretOf, Client.scramble]
  norm_cast

theorem Serves.key_eq (h : Serves H username password srp) (a : Nat) :
    keyOf H srp (Client.A a) = Client.K H username password srp.s a srp.B := by
  rw [keyOf, ← h.secret_eq a, Client.K]

theorem Serves.accepts (h : Serves H username password srp) (a : Nat) :
    verdict H srp (Client.A a) (Client.M1 H username password srp.s a srp.B) =
      some (Client.K H username password srp.s a srp.B) := by
  have hM : ourM H srp (Client.A a) (Client.K H username password srp.s a srp.B) =
      Client.M1 H username password srp.s a srp.B := by
    rw [ourM, h.I, Client.M1]
  rw [verdict, if_neg (client_A_not_rejected a), h.key_eq a, if_pos hM]

end

theorem construct_serves (H : Hash) (username password : Bytes) (s : Salt)
    (secret : Octets 32) :
    ∃ v srp, calculateVerifier H username password s = some v ∧
      construct H username s v secret = some srp ∧ srp.used = false ∧ srp.s = s ∧
      Serves H username password srp := by
  refine ⟨_, _, calculateVerifier_eq H username password s, construct_eq H username s _ secret,
    rfl, rfl, ?_⟩
  exact ⟨rfl, Octets.value_encode (mod_N_fits _), Octets.value_encode (mod_N_fits _)⟩

/-- Completeness and key agreement: the first answer of the server to an honest
client is the client's own session key, and the server's proof of it is the
one the client computes. Each conversion to 32 bytes succeeds, which is what
`some` says of the functions that contain one. -/
theorem srp6_agreement (H : Hash) (username password : Bytes) (s : Salt) (secret : Octets 32)
    (a : Nat) :
    ∃ v srp, calculateVerifier H username password s = some v ∧
      construct H username s v secret = some srp ∧
      (Client.A a).value % _N ≠ 0 ∧
      verifyChallengeResponse H srp (Client.A a) (Client.M1 H username password s a srp.B) =
        .ok ({ srp with used := true }, some (Client.K H username password s a srp.B)) ∧
      getSessionVerifier H (Client.A a) (Client.M1 H username password s a srp.B)
          (Client.K H username password s a srp.B) =
        H ((Client.A a).bytes ++ (Client.M1 H username password s a srp.B).bytes ++
          (Client.K H username password s a srp.B).bytes) := by
  obtain ⟨v, srp, hv, hsrp, hused, rfl, hserves⟩ :=
    construct_serves H username password s secret
  refine ⟨v, srp, hv, hsrp, client_A_not_rejected a, ?_, rfl⟩
  rw [verifyChallengeResponse_unused _ _ _ _ hused, hserves.accepts a]

end Mpool.Agreement
