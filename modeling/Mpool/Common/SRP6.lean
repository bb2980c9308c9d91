import Mpool.Common.Util
import Mpool.Common.BigNumber
import Mathlib.Tactic.Ring

/-! `SRP6.cpp`: the server side of the SRP6 login. `H` stands for SHA1, any
function from byte strings to 20 bytes. -/

namespace Mpool

abbrev Digest := Octets 20
abbrev Hash := Bytes → Digest
abbrev SessionKey := Octets 40

abbrev Salt := Octets 32
abbrev Verifier := Octets 32
abbrev EphemeralKey := Octets 32

/-- `std::transform` with `std::bit_xor` over two arrays of one size. -/
def bitXor {n : Nat} (a b : Octets n) : Octets n :=
  ⟨List.zipWith (· ^^^ ·) a.bytes b.bytes, by simp⟩

structure SRP6 where
  used : Bool
  I : Digest
  b : BigNumber
  v : BigNumber
  s : Salt
  B : EphemeralKey
  deriving DecidableEq

namespace SRP6

/-- The `ASSERT`s `VerifyChallengeResponse` can fail: the one on `_used` and the
one of `ToByteArray<32>`. -/
inductive Assertion where
  | usedOnlyOnce
  | bufferTooSmall
  deriving DecidableEq, Repr

def g : Octets 1 := ⟨[7], rfl⟩

def N : Octets 32 :=
  (Util.hexStrToByteArray 32
    (Util.text "894B645E89E1535BBDAD5B8B290650530801B18EBFBF5E8FAB3C82872A3E9BB7") true).get
    (by decide)

def _g : BigNumber := .ofArray g
def _N : BigNumber := .ofArray N

theorem _g_eq : _g = 7 := by decide

theorem _N_eq : _N = 0x894B645E89E1535BBDAD5B8B290650530801B18EBFBF5E8FAB3C82872A3E9BB7 := by
  decide

theorem _N_pos : 0 < _N := by rw [_N_eq]; decide

theorem _N_lt : _N < 256 ^ 32 := N.value_lt

variable (H : Hash)

def leadingZeros : Bytes → Nat
  | [] => 0
  | b :: r => if b = 0 then leadingZeros r + 1 else 0

/-- The index `p` both hashed halves start from: the first non-zero byte,
rounded up to an even position, halved. -/
def interleaveStart (S : EphemeralKey) : Nat :=
  let p := leadingZeros S.bytes
  (if p % 2 = 1 then p + 1 else p) / 2

def buf0 (S : EphemeralKey) : Bytes := (List.range 16).map fun i => S.get (2 * i)
def buf1 (S : EphemeralKey) : Bytes := (List.range 16).map fun i => S.get (2 * i + 1)

def sha1Interleave (S : EphemeralKey) : SessionKey :=
  let p := interleaveStart S
  let hash0 := H ((buf0 S).drop p)
  let hash1 := H ((buf1 S).drop p)
  ⟨(List.range 20).flatMap fun i => [hash0.get i, hash1.get i], by simp⟩

def calculateVerifier (username password : Bytes) (salt : Salt) : Option Verifier :=
  BigNumber.toByteArray 32
    (BigNumber.modExp _g
      (.ofArray (H (salt.bytes ++ (H (username ++ Util.text ":" ++ password)).bytes))) _N)

def _B (b v : BigNumber) : Option EphemeralKey :=
  BigNumber.toByteArray 32 ((BigNumber.modExp _g b _N + v * 3) % .ofArray N)

/-- The constructor; `secret` is what `GetRandomBytes<32>` returned. -/
def construct (username : Bytes) (salt : Salt) (verifier : Verifier) (secret : Octets 32) :
    Option SRP6 :=
  (_B (.ofArray secret) (.ofArray verifier)).map fun B =>
    { used := false, I := H username, b := .ofArray secret, v := .ofArray verifier,
      s := salt, B := B }

def ourM (srp : SRP6) (A : EphemeralKey) (K : SessionKey) : Digest :=
  let NHash := H N.bytes
  let gHash := H g.bytes
  let NgHash := bitXor NHash gHash
  H (NgHash.bytes ++ srp.I.bytes ++ srp.s.bytes ++ A.bytes ++ srp.B.bytes ++ K.bytes)

def verifyChallengeResponse (srp : SRP6) (A : EphemeralKey) (clientM : Digest) :
    Except Assertion (SRP6 × Option SessionKey) :=
  if srp.used then .error .usedOnlyOnce
  else
    let srp := { srp with used := true }
    let _A := BigNumber.ofArray A
    if _A % _N = 0 then .ok (srp, none)
    else
      let u := BigNumber.ofArray (H (A.bytes ++ srp.B.bytes))
      let S := BigNumber.modExp (_A * BigNumber.modExp srp.v u _N) srp.b (.ofArray N)
      match BigNumber.toByteArray 32 S with
      | none => .error .bufferTooSmall
      | some S =>
        let K := sha1Interleave H S
        .ok (srp, if ourM H srp A K = clientM then some K else none)

def getSessionVerifier (A : EphemeralKey) (clientM : Digest) (K : SessionKey) : Digest :=
  H (A.bytes ++ clientM.bytes ++ K.bytes)

/-! ## What the functions compute -/

theorem mod_N_fits (a : Nat) : a % _N < 256 ^ 32 := (Nat.mod_lt _ _N_pos).trans _N_lt

/-- The shared secret of an instance and a client key, as a number. -/
def secretOf (srp : SRP6) (A : EphemeralKey) : Nat :=
  (A.value * srp.v ^ (H (A.bytes ++ srp.B.bytes)).value) ^ srp.b % _N

def keyOf (srp : SRP6) (A : EphemeralKey) : SessionKey :=
  sha1Interleave H (Octets.encode 32 (secretOf H srp A))

/-- The answer of an unused instance: nothing for a multiple of `N` or a wrong
proof, the session key otherwise. -/
def verdict (srp : SRP6) (A : EphemeralKey) (clientM : Digest) : Option SessionKey :=
  if A.value % _N = 0 then none
  else if ourM H srp A (keyOf H srp A) = clientM then some (keyOf H srp A)
  else none

theorem verdict_eq_some {srp : SRP6} {A : EphemeralKey} {clientM : Digest} {K : SessionKey}
    (h : verdict H srp A clientM = some K) :
    A.value % _N ≠ 0 ∧ K = keyOf H srp A ∧ ourM H srp A K = clientM := by
  unfold verdict at h
  split at h
  · cases h
  · rename_i hA
    split at h
    · rename_i hM
      obtain rfl := Option.some.inj h
      exact ⟨hA, rfl, hM⟩
    · cases h

theorem _B_eq (b v : BigNumber) :
    _B b v = some (Octets.encode 32 ((_g ^ b % _N + v * 3) % _N)) :=
  BigNumber.toByteArray_of_lt (mod_N_fits _)

theorem calculateVerifier_eq (username password : Bytes) (salt : Salt) :
    calculateVerifier H username password salt = some (Octets.encode 32
      (_g ^ (H (salt.bytes ++ (H (username ++ Util.text ":" ++ password)).bytes)).value % _N)) :=
  BigNumber.toByteArray_of_lt (mod_N_fits _)

theorem construct_eq (username : Bytes) (salt : Salt) (verifier : Verifier)
    (secret : Octets 32) :
    construct H username salt verifier secret = some
      { used := false, I := H username, b := secret.value, v := verifier.value, s := salt,
        B := Octets.encode 32 ((_g ^ secret.value % _N + verifier.value * 3) % _N) } := by
  simp only [construct, _B_eq, Option.map_some, BigNumber.ofArray]

theorem secretOf_eq_modExp (srp : SRP6) (A : EphemeralKey) :
    BigNumber.modExp (A.value *
      BigNumber.modExp srp.v (H (A.bytes ++ srp.B.bytes)).value _N) srp.b _N =
      secretOf H srp A := by
  have h : A.value * (srp.v ^ (H (A.bytes ++ srp.B.bytes)).value % _N) ≡
      A.value * srp.v ^ (H (A.bytes ++ srp.B.bytes)).value [MOD _N] :=
    (Nat.mod_modEq _ _).mul_left _
  exact h.pow srp.b

theorem verifyChallengeResponse_unused (srp : SRP6) (A : EphemeralKey) (clientM : Digest)
    (h : srp.used = false) :
    verifyChallengeResponse H srp A clientM =
      .ok ({ srp with used := true }, verdict H srp A clientM) := by
  have hS := secretOf_eq_modExp H srp A
  have hfit := BigNumber.toByteArray_of_lt (mod_N_fits
    ((A.value * srp.v ^ (H (A.bytes ++ srp.B.bytes)).value) ^ srp.b))
  simp only [verifyChallengeResponse, h, Bool.false_eq_true, ↓reduceIte, verdict,
    BigNumber.ofArray]
  by_cases hA : A.value % _N = 0
  · simp only [hA, ↓reduceIte]
  · rw [show Octets.value N = _N from rfl, hS, secretOf, hfit]
    simp only [hA, ↓reduceIte]
    rfl

theorem verifyChallengeResponse_used (srp : SRP6) (A : EphemeralKey) (clientM : Digest)
    (h : srp.used = true) :
    verifyChallengeResponse H srp A clientM = .error .usedOnlyOnce := by
  simp [verifyChallengeResponse, h]

end SRP6

end Mpool
