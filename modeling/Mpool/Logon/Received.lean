import Mpool.Logon.Reading
import Mpool.Logon.Session

/-! When the received bytes alone decide what `handle_read` does. The handler
never compares `transferredBytes` with the bytes it reads, so a packet cut short
is completed from the old contents of `buff`. -/

namespace Mpool.Logon

open AuthLogonChallengeC (nameLen sizeMismatch login)
open AuthLogonProofC (AOf M1Of crcOf)

/-! ## Observations -/

def Call.isStatement : Call → Bool
  | .query .. => true
  | .directExecute .. => true
  | _ => false

/-- The database statements, in order. -/
def Outcome.statements (out : Outcome) : List Call := out.calls.filter Call.isStatement

/-- The verification decisions, in order. -/
def Outcome.decisions (out : Outcome) : List Bool :=
  out.calls.filterMap fun
    | .verifyChallengeResponse _ _ K => some K.isSome
    | .verifyVersion _ _ verdict => some verdict
    | _ => none

/-- `_srp6`, `UserName`, `_os`, `_localizationName` and `_sessionKey`, or the fault. -/
def Outcome.members (out : Outcome) :
    Except Fault (Option SRP6 × Bytes × Bytes × Bytes × SessionKey) :=
  out.result.map fun conn =>
    (conn.srp6, conn.userName, conn.os, conn.localizationName, conn.sessionKey)

structure Alike (out out' : Outcome) : Prop where
  statements : out.statements = out'.statements
  decisions : out.decisions = out'.decisions
  members : out.members = out'.members

theorem Alike.symm {out out' : Outcome} (h : Alike out out') : Alike out' out :=
  ⟨h.statements.symm, h.decisions.symm, h.members.symm⟩

theorem Alike.trans {out out' out'' : Outcome} (h : Alike out out') (h' : Alike out' out'') :
    Alike out out'' :=
  ⟨h.statements.trans h'.statements, h.decisions.trans h'.decisions, h.members.trans h'.members⟩

theorem filter_isStatement_mask (calls : List Call) :
    (calls.map Call.mask).filter Call.isStatement = calls.filter Call.isStatement := by
  induction calls with
  | nil => rfl
  | cons c calls ih => cases c <;> simp [Call.mask, Call.isStatement, List.filter_cons, ih]

/-- The mask takes nothing of an observation away. -/
theorem alike_mask (out : Outcome) : Alike out out.mask where
  statements := (filter_isStatement_mask out.calls).symm
  decisions := by
    simp only [Outcome.decisions, Outcome.mask]
    induction out.calls with
    | nil => rfl
    | cons c calls ih => cases c <;> simp [Call.mask, ih]
  members := by
    cases h : out.result <;> simp [Outcome.members, Outcome.mask, h, Except.map, Conn.withBuff]

variable (H : Hash)

/-- The `n` received bytes decide what is observed, whatever follows them in `buff`. -/
def OnlyReceived (env : Env) (conn : Conn) (n : Nat) : Prop :=
  ∀ buff : Buffer, buff.bytes.take n = conn.buff.bytes.take n →
    Alike (handleRead H env (conn.withBuff buff) false n) (handleRead H env conn false n)

/-- A challenge is settled when its name has arrived, when the length of its
name has arrived and the sizes disagree, or when its size has arrived and no
length of the name agrees with it. -/
def ChallengeReceived (buff : Buffer) (n : Nat) : Prop :=
  34 + nameLen buff ≤ n ∨ 34 ≤ n ∧ AuthLogonChallengeC.sizeOf buff ≠ nameLen buff + 30 ∨
    4 ≤ n ∧ (AuthLogonChallengeC.sizeOf buff < 30 ∨ 285 < AuthLogonChallengeC.sizeOf buff)

/-- A proof is settled when all it is checked against has arrived, when there is
no instance to check it, when `A` has arrived and is refused or the part of `M1`
that has arrived is wrong already, or when `M1` has arrived and the part of
`crc_hash` that has arrived is wrong already. -/
def ProofReceived (conn : Conn) (n : Nat) : Prop :=
  73 ≤ n ∨ ∀ srp, conn.srp6 = some srp → srp.used = false →
    (33 ≤ n ∧ ((AOf conn.buff).value % SRP6._N = 0 ∨
      (M1Of conn.buff).bytes.take (n - 33) ≠
        (srp.ourM H (AOf conn.buff) (srp.keyOf H (AOf conn.buff))).bytes.take (n - 33))) ∨
    (53 ≤ n ∧ ∀ versionHash, versionHashOf conn.os false = some versionHash →
      (crcOf conn.buff).bytes.take (n - 53) ≠
        (H ((AOf conn.buff).bytes ++ versionHash.bytes)).bytes.take (n - 53))

/-- What has arrived of the packet decides its handling. -/
def Received (conn : Conn) (n : Nat) : Prop :=
  (conn.buff.get 0 = AUTH_LOGON_CHALLENGE → ChallengeReceived conn.buff n) ∧
    (conn.buff.get 0 = AUTH_LOGON_PROOF → ProofReceived H conn n)

variable {H}

/-! ## Settled packets -/

theorem sameCourse_of_challengeReceived {conn : Conn} {b b' : Buffer} {n : Nat}
    (h : b.bytes.take n = b'.bytes.take n) (h0 : b.get 0 = AUTH_LOGON_CHALLENGE) (hn : 0 < n)
    (hr : ChallengeReceived b n) : SameCourse H conn b b' := by
  have hmis : sizeMismatch b = true → sizeMismatch b' = true → SameCourse H conn b b' :=
    fun hb hb' => ⟨Octets.get_of_take h hn, fun _ => hb.trans hb'.symm,
      fun _ hf => by simp [hb] at hf,
      fun h1 => by simp [h0, AUTH_LOGON_CHALLENGE, AUTH_LOGON_PROOF] at h1⟩
  have htrue : ∀ c : Buffer, AuthLogonChallengeC.sizeOf c ≠ nameLen c + 30 →
      sizeMismatch c = true := by
    intro c hc
    rw [← Bool.not_eq_false]
    exact fun hf => hc ((AuthLogonChallengeC.sizeMismatch_eq_false_iff c).mp hf)
  rcases hr with hlen | ⟨hn, hs⟩ | ⟨hn, hs⟩
  · apply sameCourse_of_take H conn h
    rw [readLen, if_pos h0]
    exact hlen
  · refine hmis (htrue b hs) (htrue b' ?_)
    rwa [← nameLen_of_take h hn, ← sizeOf_of_take h (by omega)]
  · have hlen : ∀ c : Buffer, nameLen c < 256 := fun c => UInt8.toNat_lt _
    have hb := hlen b
    have hb' := hlen b'
    have hsize := sizeOf_of_take h hn
    exact hmis (htrue b (by omega)) (htrue b' (by omega))

theorem verdict_eq_none {srp : SRP6} {A : EphemeralKey} {M1 : Digest} (k : Nat)
    (h : A.value % SRP6._N = 0 ∨
      M1.bytes.take k ≠ (srp.ourM H A (srp.keyOf H A)).bytes.take k) :
    srp.verdict H A M1 = none := by
  cases hv : srp.verdict H A M1 with
  | none => rfl
  | some K =>
    obtain ⟨hA, rfl, rfl⟩ := SRP6.verdict_eq_some H hv
    simp [hA] at h

theorem verifyVersion_congr {os : Bytes} {A : EphemeralKey} {crc crc' : Digest} (k : Nat)
    (htake : crc.bytes.take k = crc'.bytes.take k)
    (h : ∀ versionHash, versionHashOf os false = some versionHash →
      crc.bytes.take k ≠ (H (A.bytes ++ versionHash.bytes)).bytes.take k) :
    verifyVersion H os A crc false = verifyVersion H os A crc' false := by
  cases hv : versionHashOf os false with
  | none => simp [verifyVersion, hv]
  | some versionHash =>
    have hne := h versionHash hv
    have hcrc : crc ≠ H (A.bytes ++ versionHash.bytes) := fun e => hne (by rw [e])
    have hcrc' : crc' ≠ H (A.bytes ++ versionHash.bytes) := fun e => hne (by rw [htake, e])
    simp [verifyVersion_of_hash H hv, hcrc, hcrc']

theorem sameProof_of_proofReceived {conn : Conn} {buff : Buffer} {n : Nat}
    (h : conn.buff.bytes.take n = buff.bytes.take n) (hr : ∀ srp, conn.srp6 = some srp →
      srp.used = false →
      (33 ≤ n ∧ ((AOf conn.buff).value % SRP6._N = 0 ∨
        (M1Of conn.buff).bytes.take (n - 33) ≠
          (srp.ourM H (AOf conn.buff) (srp.keyOf H (AOf conn.buff))).bytes.take (n - 33))) ∨
      (53 ≤ n ∧ ∀ versionHash, versionHashOf conn.os false = some versionHash →
        (crcOf conn.buff).bytes.take (n - 53) ≠
          (H ((AOf conn.buff).bytes ++ versionHash.bytes)).bytes.take (n - 53))) :
    SameProof H conn conn.buff buff := by
  intro srp hsrp hu
  rcases hr srp hsrp hu with ⟨hn, hrefused⟩ | ⟨hn, hcrc⟩
  · have hA : AOf conn.buff = AOf buff := Octets.slice_of_take h hn _
    have hM : (M1Of conn.buff).bytes.take (n - 33) = (M1Of buff).bytes.take (n - 33) :=
      Octets.take_slice_of_take h _
    refine Or.inl ⟨verdict_eq_none (n - 33) hrefused, verdict_eq_none (n - 33) ?_⟩
    rwa [← hA, ← hM]
  · have hA : AOf conn.buff = AOf buff := Octets.slice_of_take h (show 33 ≤ n by omega) _
    have hM : M1Of conn.buff = M1Of buff := Octets.slice_of_take h hn _
    have hC : (crcOf conn.buff).bytes.take (n - 53) = (crcOf buff).bytes.take (n - 53) :=
      Octets.take_slice_of_take h _
    exact Or.inr ⟨hA, hM, by rw [← hA, verifyVersion_congr (n - 53) hC hcrc]⟩

/-- Whatever follows the bytes that settle a packet, its course is the same. -/
theorem sameCourse_of_received {conn : Conn} {buff : Buffer} {n : Nat} (hn : 0 < n)
    (htake : conn.buff.bytes.take n = buff.bytes.take n) (h : Received H conn n) :
    SameCourse H conn conn.buff buff := by
  by_cases h0 : conn.buff.get 0 = AUTH_LOGON_CHALLENGE
  · exact sameCourse_of_challengeReceived htake h0 hn (h.1 h0)
  · by_cases h1 : conn.buff.get 0 = AUTH_LOGON_PROOF
    · rcases h.2 h1 with h73 | hr
      · apply sameCourse_of_take H conn htake
        rw [readLen, if_neg h0, if_pos h1]
        exact h73
      · exact ⟨Octets.get_of_take htake hn, fun h => absurd h h0, fun h => absurd h h0,
          fun _ => sameProof_of_proofReceived htake hr⟩
    · apply sameCourse_of_take H conn htake
      rw [readLen, if_neg h0, if_neg h1]
      exact hn

theorem onlyReceived_of_received {env : Env} {conn : Conn} {n : Nat} (hn : 0 < n)
    (h : Received H conn n) : OnlyReceived H env conn n := by
  intro buff htake
  have hmask := handleRead_mask H env conn (sameCourse_of_received hn htake.symm h) n n
  rw [Conn.withBuff_self] at hmask
  exact (alike_mask _).trans (hmask ▸ (alike_mask _).symm)

/-! ## Unsettled packets -/

theorem OnlyReceived.alike {env : Env} {conn : Conn} {n : Nat} (h : OnlyReceived H env conn n)
    {b b' : Buffer} (hb : b.bytes.take n = conn.buff.bytes.take n)
    (hb' : b'.bytes.take n = conn.buff.bytes.take n) :
    Alike (handleRead H env (conn.withBuff b) false n)
      (handleRead H env (conn.withBuff b') false n) :=
  (h b hb).trans (h b' hb').symm

theorem statements_of_match (env : Env) (conn : Conn) (n : Nat)
    (h0 : conn.buff.get 0 = AUTH_LOGON_CHALLENGE) (hs : sizeMismatch conn.buff = false) :
    (handleRead H env conn false n).statements =
      [.query (login conn.buff) (env.account (login conn.buff))] := by
  rw [handleRead_challenge H env conn n h0]
  cases ha : env.account (login conn.buff) with
  | none =>
    rw [handleChallenge_unknown H env conn hs ha]
    rfl
  | some row =>
    rw [handleChallenge_challenged H env conn row hs ha]
    rfl

theorem statements_of_mismatch (env : Env) (conn : Conn) (n : Nat)
    (h0 : conn.buff.get 0 = AUTH_LOGON_CHALLENGE) (hs : sizeMismatch conn.buff = true) :
    (handleRead H env conn false n).statements = [] := by
  rw [handleRead_challenge H env conn n h0, handleChallenge_mismatch H env conn hs]
  rfl

/-- A byte `I_len` that has not arrived decides between a match and a mismatch. -/
theorem not_onlyReceived_of_nameLen {env : Env} {conn : Conn} {n : Nat} {c : Buffer}
    (hc : c.bytes.take n = conn.buff.bytes.take n) (h0 : c.get 0 = AUTH_LOGON_CHALLENGE)
    (hn : n ≤ 33) (hlo : 30 ≤ AuthLogonChallengeC.sizeOf c)
    (hhi : AuthLogonChallengeC.sizeOf c ≤ 285) : ¬ OnlyReceived H env conn n := by
  intro h
  have hput : ∀ x : UInt8, ∃ b : Buffer, b.bytes.take n = conn.buff.bytes.take n ∧
      b.get 0 = AUTH_LOGON_CHALLENGE ∧ (sizeMismatch b = false ↔
        AuthLogonChallengeC.sizeOf c = x.toNat + 30) := by
    intro x
    obtain ⟨b, hx, hother, htake⟩ := c.exists_set (show 33 < 1024 by omega) x
    have hsize : AuthLogonChallengeC.sizeOf b = AuthLogonChallengeC.sizeOf c :=
      sizeOf_of_take (htake 33 le_rfl) (by omega)
    have hlen : nameLen b = x.toNat := congrArg UInt8.toNat hx
    refine ⟨b, (htake n hn).trans hc, (hother 0 (by omega)).trans h0, ?_⟩
    rw [AuthLogonChallengeC.sizeMismatch_eq_false_iff, hsize, hlen]
  have hx : (UInt8.ofNat (AuthLogonChallengeC.sizeOf c - 30)).toNat =
      AuthLogonChallengeC.sizeOf c - 30 := by
    rw [UInt8.toNat_ofNat']
    omega
  generalize UInt8.ofNat (AuthLogonChallengeC.sizeOf c - 30) = x at hx
  obtain ⟨b, hb, hb0, hbsize⟩ := hput x
  obtain ⟨b', hb', hb0', hbsize'⟩ := hput (x + 1)
  have hmatch : sizeMismatch b = false := hbsize.mpr (by omega)
  have hmis : sizeMismatch b' = true := by
    rw [← Bool.not_eq_false, hbsize']
    intro e
    have hne : (x + 1).toNat ≠ x.toNat := fun e' => by simpa using UInt8.toNat_inj.mp e'
    omega
  have e := (h.alike hb hb').statements
  rw [statements_of_match env (conn.withBuff b) n hb0 hmatch,
    statements_of_mismatch env (conn.withBuff b') n hb0' hmis] at e
  cases e

/-- A byte of the name that has not arrived changes the query. -/
theorem not_onlyReceived_of_login {env : Env} {conn : Conn} {n : Nat} (hn : 34 ≤ n)
    (h0 : conn.buff.get 0 = AUTH_LOGON_CHALLENGE)
    (hs : AuthLogonChallengeC.sizeOf conn.buff = nameLen conn.buff + 30)
    (hname : n < 34 + nameLen conn.buff) : ¬ OnlyReceived H env conn n := by
  intro h
  have hlen : nameLen conn.buff < 256 := UInt8.toNat_lt _
  obtain ⟨b, hx, hother, htake⟩ := conn.buff.exists_set
    (show 33 + nameLen conn.buff < 1024 by omega) (conn.buff.get (33 + nameLen conn.buff) + 1)
  have hrecv := htake n (by omega)
  have hblen : nameLen b = nameLen conn.buff := nameLen_of_take hrecv hn
  have hmatch : sizeMismatch conn.buff = false :=
    (AuthLogonChallengeC.sizeMismatch_eq_false_iff _).mpr hs
  have hbmatch : sizeMismatch b = false := by
    rw [sizeMismatch_congr (sizeOf_of_take hrecv (by omega)) hblen, hmatch]
  have e := (h b hrecv).statements
  rw [statements_of_match env (conn.withBuff b) n ((hother 0 (by omega)).trans h0) hbmatch,
    statements_of_match env conn n h0 hmatch] at e
  have hlogin : login b = login conn.buff := by
    simp only [List.cons.injEq, Call.query.injEq] at e
    exact e.1.1
  rw [login, login, hblen] at hlogin
  have hlast : b.get (33 + nameLen conn.buff) = conn.buff.get (33 + nameLen conn.buff) := by
    have hidx : 34 + (nameLen conn.buff - 1) = 33 + nameLen conn.buff := by omega
    rw [← hidx, ← Octets.get_slice b (show 34 + nameLen conn.buff ≤ 1024 by omega) (by omega),
      ← Octets.get_slice conn.buff (show 34 + nameLen conn.buff ≤ 1024 by omega) (by omega)]
    exact congrArg (fun l => l.getD (nameLen conn.buff - 1) 0) hlogin
  rw [hx] at hlast
  simp at hlast

theorem challengeReceived_of_onlyReceived {env : Env} {conn : Conn} {n : Nat}
    (h0 : conn.buff.get 0 = AUTH_LOGON_CHALLENGE) (h : OnlyReceived H env conn n) :
    ChallengeReceived conn.buff n := by
  by_contra hr
  simp only [ChallengeReceived, not_or, not_and, not_le, not_lt, ne_eq, not_not] at hr
  obtain ⟨hname, hsizes, hrange⟩ := hr
  by_cases h34 : 34 ≤ n
  · exact not_onlyReceived_of_login h34 h0 (hsizes h34) (by omega) h
  · by_cases h4 : 4 ≤ n
    · obtain ⟨hlo, hhi⟩ := hrange h4
      exact not_onlyReceived_of_nameLen rfl h0 (by omega) hlo hhi h
    · -- some high byte makes a length of the name agree with the low byte
      obtain ⟨c, hc3, hother, htake⟩ := conn.buff.exists_set (show 3 < 1024 by omega)
        (if 30 ≤ (conn.buff.get 2).toNat then 0 else 1)
      have hlow := (conn.buff.get 2).toNat_lt
      have hsize : AuthLogonChallengeC.sizeOf c =
          (conn.buff.get 2).toNat + 256 * (c.get 3).toNat := by
        rw [← hother 2 (by omega)]
        rfl
      have hsum : 30 ≤ AuthLogonChallengeC.sizeOf c ∧ AuthLogonChallengeC.sizeOf c ≤ 285 := by
        rw [hsize, hc3]
        split <;> simp <;> omega
      exact not_onlyReceived_of_nameLen (htake n (by omega)) ((hother 0 (by omega)).trans h0)
        (by omega) hsum.1 hsum.2 h

theorem decisions_rejected (env : Env) (conn : Conn) (n : Nat) {srp : SRP6}
    (h1 : conn.buff.get 0 = AUTH_LOGON_PROOF) (hn : conn.srp6 = some srp)
    (hu : srp.used = false) (hv : srp.verdict H (AOf conn.buff) (M1Of conn.buff) = none) :
    (handleRead H env conn false n).decisions = [false] := by
  rw [handleRead_proof H env conn n h1, handleProof_rejected H env conn srp hn hu hv]
  rfl

theorem decisions_accepted (env : Env) (conn : Conn) (n : Nat) {srp : SRP6} {K : SessionKey}
    (h1 : conn.buff.get 0 = AUTH_LOGON_PROOF) (hn : conn.srp6 = some srp)
    (hu : srp.used = false) (hv : srp.verdict H (AOf conn.buff) (M1Of conn.buff) = some K) :
    (handleRead H env conn false n).decisions =
      true :: (handleVersion H env (acceptedConn conn srp K) (AOf conn.buff)
        (M1Of conn.buff)).decisions := by
  rw [handleRead_proof H env conn n h1, handleProof_accepted H env conn srp K hn hu hv]
  rfl

theorem decisions_version (env : Env) (conn : Conn) (A : EphemeralKey) (M1 : Digest)
    {versionHash : Digest} (hv : versionHashOf conn.os false = some versionHash) :
    (handleVersion H env conn A M1).decisions =
      [decide (crcOf conn.buff = H (A.bytes ++ versionHash.bytes))] := by
  have hver := verifyVersion_of_hash H hv A (crcOf conn.buff)
  cases hd : decide (crcOf conn.buff = H (A.bytes ++ versionHash.bytes)) with
  | false =>
    rw [hd] at hver
    rw [handleVersion_bad H env conn A M1 hver]
    rfl
  | true =>
    rw [hd] at hver
    cases hr : env.remoteAddress with
    | none =>
      rw [handleVersion_lostPeer H env conn A M1 hver hr]
      rfl
    | some address =>
      rw [handleVersion_updated H env conn A M1 hver hr]
      rfl

theorem verdict_ourM {srp : SRP6} {A : EphemeralKey} (hA : A.value % SRP6._N ≠ 0) :
    srp.verdict H A (srp.ourM H A (srp.keyOf H A)) = some (srp.keyOf H A) := by
  simp [SRP6.verdict, hA]

/-- Another last byte makes another digest. -/
theorem slice_ne_of_get (off : Nat) {b b' : Buffer} (h : off + 20 ≤ 1024)
    (hne : b'.get (off + 19) ≠ b.get (off + 19)) : b'.slice off 20 h ≠ b.slice off 20 h := by
  intro e
  have hget := congrArg (fun d => d.get 19) e
  simp only [Octets.get_slice _ h (show 19 < 20 by omega)] at hget
  exact hne hget

/-- Bytes of `M1` that have not arrived decide between a right and a wrong proof. -/
theorem not_onlyReceived_of_M1 {env : Env} {conn : Conn} {n : Nat} {srp : SRP6} {c : Buffer}
    (hsrp : conn.srp6 = some srp) (hu : srp.used = false)
    (hc : c.bytes.take n = conn.buff.bytes.take n) (h1 : c.get 0 = AUTH_LOGON_PROOF)
    (hn : n < 53) (hA : (AOf c).value % SRP6._N ≠ 0)
    (hM : (srp.ourM H (AOf c) (srp.keyOf H (AOf c))).bytes.take (n - 33) =
      (M1Of c).bytes.take (n - 33)) : ¬ OnlyReceived H env conn n := by
  intro h
  obtain ⟨b, hb, htake⟩ := c.exists_field (srp.ourM H (AOf c) (srp.keyOf H (AOf c)))
    (show 33 + 20 ≤ 1024 by omega)
  have hbA : AOf b = AOf c := Octets.slice_of_take (htake 33 rfl) (show 33 ≤ 33 by omega) _
  have hbM : M1Of b = srp.ourM H (AOf c) (srp.keyOf H (AOf c)) := hb
  have hb1 : b.get 0 = AUTH_LOGON_PROOF := (Octets.get_of_take (htake 33 rfl) (by omega)).trans h1
  obtain ⟨b', hx, hother, htake'⟩ := b.exists_set (show 52 < 1024 by omega) (b.get 52 + 1)
  have hbA' : AOf b' = AOf c :=
    (Octets.slice_of_take (htake' 33 (by omega)) (show 33 ≤ 33 by omega) _).trans hbA
  have hbM' : M1Of b' ≠ srp.ourM H (AOf c) (srp.keyOf H (AOf c)) := by
    rw [← hbM]
    exact slice_ne_of_get 33 _ (by rw [hx]; simp)
  have hv : srp.verdict H (AOf b) (M1Of b) = some (srp.keyOf H (AOf c)) := by
    rw [hbA, hbM, verdict_ourM hA]
  have hv' : srp.verdict H (AOf b') (M1Of b') = none := by
    simp [SRP6.verdict, hbA', Ne.symm hbM']
  have hrecv := (htake n hM).trans hc
  have e := (h.alike hrecv ((htake' n (by omega)).trans hrecv)).decisions
  rw [decisions_accepted env (conn.withBuff b) n hb1 hsrp hu hv,
    decisions_rejected env (conn.withBuff b') n ((hother 0 (by omega)).trans hb1) hsrp hu hv'] at e
  cases e

/-- Bytes of `crc_hash` that have not arrived decide the version check. -/
theorem not_onlyReceived_of_crc {env : Env} {conn : Conn} {n : Nat} {srp : SRP6}
    {versionHash : Digest} (hsrp : conn.srp6 = some srp) (hu : srp.used = false)
    (h1 : conn.buff.get 0 = AUTH_LOGON_PROOF) (hlo : 53 ≤ n) (hn : n < 73)
    (hA : (AOf conn.buff).value % SRP6._N ≠ 0)
    (hM : M1Of conn.buff =
      srp.ourM H (AOf conn.buff) (srp.keyOf H (AOf conn.buff)))
    (hos : versionHashOf conn.os false = some versionHash)
    (hcrc : (H ((AOf conn.buff).bytes ++ versionHash.bytes)).bytes.take (n - 53) =
      (crcOf conn.buff).bytes.take (n - 53)) : ¬ OnlyReceived H env conn n := by
  intro h
  obtain ⟨b, hb, htake⟩ := conn.buff.exists_field (H ((AOf conn.buff).bytes ++ versionHash.bytes))
    (show 53 + 20 ≤ 1024 by omega)
  obtain ⟨b', hx, hother, htake'⟩ := b.exists_set (show 72 < 1024 by omega) (b.get 72 + 1)
  have hrecv := htake n hcrc
  have hrecv' := (htake' n (by omega)).trans hrecv
  have hbcrc : crcOf b = H ((AOf conn.buff).bytes ++ versionHash.bytes) := hb
  have hbcrc' : crcOf b' ≠ H ((AOf conn.buff).bytes ++ versionHash.bytes) := by
    rw [← hbcrc]
    exact slice_ne_of_get 53 _ (by rw [hx]; simp)
  have hdecide : ∀ d : Buffer, d.bytes.take n = conn.buff.bytes.take n →
      (handleRead H env (conn.withBuff d) false n).decisions =
        [true, decide (crcOf d = H ((AOf conn.buff).bytes ++ versionHash.bytes))] := by
    intro d hd
    have hdA : AOf d = AOf conn.buff := Octets.slice_of_take hd (show 33 ≤ n by omega) _
    have hdM : M1Of d = M1Of conn.buff := Octets.slice_of_take hd (show 53 ≤ n by omega) _
    have hv : srp.verdict H (AOf d) (M1Of d) = some (srp.keyOf H (AOf conn.buff)) := by
      rw [hdA, hdM, hM, verdict_ourM hA]
    rw [decisions_accepted env (conn.withBuff d) n
      ((Octets.get_of_take hd (by omega)).trans h1) hsrp hu hv]
    rw [decisions_version env (acceptedConn (conn.withBuff d) srp _) _ _ hos, Conn.withBuff_buff,
      hdA]
    rfl
  have e := (h.alike hrecv hrecv').decisions
  rw [hdecide b hrecv, hdecide b' hrecv'] at e
  simp [hbcrc, hbcrc'] at e

/-- Some last byte makes `A` no multiple of `N`. -/
theorem exists_A (c : Buffer) : ∃ b : Buffer, (AOf b).value % SRP6._N ≠ 0 ∧
    ∀ k ≤ 32, b.bytes.take k = c.bytes.take k := by
  obtain ⟨b, hx, hother, htake⟩ := c.exists_set (show 32 < 1024 by omega) 0
  obtain ⟨b', hx', hother', htake'⟩ := c.exists_set (show 32 < 1024 by omega) 1
  by_cases hb : (AOf b).value % SRP6._N = 0
  · refine ⟨b', ?_, htake'⟩
    have hvalue : (AOf b').value = (AOf b).value + 256 ^ 31 := by
      have hlow : (b'.slice 1 32 (by omega)).bytes.take (32 - 1) =
          (b.slice 1 32 (by omega)).bytes.take (32 - 1) :=
        Octets.take_slice_of_take ((htake' 32 le_rfl).trans (htake 32 le_rfl).symm) _
      have hlow' : (AOf b').bytes.take 31 = (AOf b).bytes.take 31 := hlow
      have hlast : (AOf b).get 31 = 0 := (Octets.get_slice b _ (by omega)).trans hx
      have hlast' : (AOf b').get 31 = 1 := (Octets.get_slice b' _ (by omega)).trans hx'
      rw [Octets.value_eq_last (k := 31) (AOf b'), Octets.value_eq_last (k := 31) (AOf b), hlow',
        hlast, hlast']
      simp
    have hN : 256 ^ 31 % SRP6._N ≠ 0 := by rw [SRP6._N_eq]; decide
    rw [hvalue, Nat.add_mod, hb, Nat.zero_add, Nat.mod_mod]
    exact hN
  · exact ⟨b, hb, htake⟩

theorem proofReceived_of_onlyReceived {env : Env} {conn : Conn} {n : Nat} (hn : 0 < n)
    (h1 : conn.buff.get 0 = AUTH_LOGON_PROOF) (h : OnlyReceived H env conn n) :
    ProofReceived H conn n := by
  by_contra hr
  simp only [ProofReceived, not_or, not_le, not_forall] at hr
  obtain ⟨hlen, srp, hsrp, hu, hM1, hcrc⟩ := hr
  rw [not_and, not_or, ne_eq, not_not] at hM1
  rw [not_and] at hcrc
  by_cases h33 : 33 ≤ n
  · obtain ⟨hA, hM⟩ := hM1 h33
    by_cases h53 : 53 ≤ n
    · have hc := hcrc h53
      simp only [not_forall, ne_eq, not_not] at hc
      obtain ⟨versionHash, hos, hC⟩ := hc
      rw [List.take_of_length_le (by simp; omega), List.take_of_length_le (by simp; omega)] at hM
      have hM' : M1Of conn.buff = srp.ourM H (AOf conn.buff) (srp.keyOf H (AOf conn.buff)) :=
        Octets.ext hM
      exact not_onlyReceived_of_crc hsrp hu h1 h53 hlen hA hM' hos hC.symm h
    · exact not_onlyReceived_of_M1 hsrp hu rfl h1 (by omega) hA hM.symm h
  · obtain ⟨c, hA, htake⟩ := exists_A conn.buff
    have hc := htake n (by omega)
    refine not_onlyReceived_of_M1 hsrp hu hc ((Octets.get_of_take hc hn).trans h1) (by omega) hA
      ?_ h
    rw [Nat.sub_eq_zero_of_le (by omega)]
    rfl

variable (H)

/-- The `n` received bytes decide the statements, the verification and the
members exactly when the packet is settled by them. -/
theorem onlyReceived_iff (env : Env) (conn : Conn) (n : Nat) (hn : 0 < n) :
    OnlyReceived H env conn n ↔ Received H conn n :=
  ⟨fun h => ⟨fun h0 => challengeReceived_of_onlyReceived h0 h,
    fun h1 => proofReceived_of_onlyReceived hn h1 h⟩, onlyReceived_of_received hn⟩

theorem onlyReceived_iff_first_byte :
    OnlyReceived zeroHash .sample (.create (.zero 1024)) 1 ↔
      Received zeroHash (.create (.zero 1024)) 1 :=
  onlyReceived_iff zeroHash .sample (.create (.zero 1024)) 1 (by decide)

/-- One received zero byte over the rest of an old challenge is taken for that
challenge, over zeros for one with wrong sizes. -/
theorem leftover_challenge : ¬ OnlyReceived zeroHash .sample (.create (.zero 1024)) 1 := by
  intro h
  have e := (h ((Octets.zero 1024).overwrite (challengePacket osWin (.zero 4) 65)
    (by simp [challengePacket])) (by decide)).statements
  exact absurd (congrArg List.length e) (by decide)

end Mpool.Logon
