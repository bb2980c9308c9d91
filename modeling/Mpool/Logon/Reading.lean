import Mpool.Logon.Connection

/-! Which bytes of `buff` one call of `handle_read` looks at. Two calls that take
the same course over their buffers make the same statements and decisions and
leave the same members; the buffers they leave and hand to `async_write` agree
on the prepared answer. -/

namespace Mpool.Logon

open AuthLogonChallengeC (nameLen sizeMismatch login)
open AuthLogonProofC (AOf M1Of crcOf)

def Conn.withBuff (conn : Conn) (buff : Buffer) : Conn := { conn with buff := buff }

@[simp] theorem Conn.withBuff_buff (conn : Conn) (buff : Buffer) :
    (conn.withBuff buff).buff = buff := rfl

@[simp] theorem Conn.withBuff_self (conn : Conn) : conn.withBuff conn.buff = conn := rfl

/-! ## Outcomes up to the rest of the buffer -/

/-- The call without what it merely copies from `buff`: the arguments of a
verification and the bytes behind the prepared answer. -/
def Call.mask : Call → Call
  | .asyncWrite data_len wire =>
    .asyncWrite data_len ((Octets.zero 1024).overwrite (wire.bytes.take data_len) (by simp))
  | .verifyChallengeResponse _ _ K => .verifyChallengeResponse (.zero 32) (.zero 20) K
  | .verifyVersion _ _ verdict => .verifyVersion (.zero 32) (.zero 20) verdict
  | c => c

/-- The outcome with masked calls and an empty buffer. -/
def Outcome.mask (out : Outcome) : Outcome :=
  ⟨out.calls.map Call.mask, out.result.map (·.withBuff (.zero 1024))⟩

theorem mask_handleWrite_prepare (conn : Conn) (len : Nat) (p : Bytes) (h : p.length ≤ 1024)
    (hl : len ≤ p.length) :
    (handleWrite (conn.prepare len p h)).map Call.mask =
      [.asyncWrite len ((Octets.zero 1024).overwrite (p.take len)
        ((List.length_take_le len p).trans (hl.trans h))), .asyncRead] := by
  have hmin : min len p.length = len := by omega
  simp [handleWrite, Conn.prepare, Call.mask, Octets.overwrite, hmin]

/-! ## Equal courses -/

variable (H : Hash)

/-- An instance that can still answer refuses both packets, or sees the same `A`
and `M1` and comes to the same verdict on the version. -/
def SameProof (conn : Conn) (b b' : Buffer) : Prop :=
  ∀ srp, conn.srp6 = some srp → srp.used = false →
    (srp.verdict H (AOf b) (M1Of b) = none ∧ srp.verdict H (AOf b') (M1Of b') = none) ∨
    (AOf b = AOf b' ∧ M1Of b = M1Of b' ∧ verifyVersion H conn.os (AOf b) (crcOf b) false =
      verifyVersion H conn.os (AOf b') (crcOf b') false)

/-- The handler goes through the same branches with the same values. -/
structure SameCourse (conn : Conn) (b b' : Buffer) : Prop where
  cmd : b.get 0 = b'.get 0
  size : b.get 0 = AUTH_LOGON_CHALLENGE → sizeMismatch b = sizeMismatch b'
  names : b.get 0 = AUTH_LOGON_CHALLENGE → sizeMismatch b = false →
    login b = login b' ∧ osName b = osName b' ∧ localeName b = localeName b'
  proof : b.get 0 = AUTH_LOGON_PROOF → SameProof H conn b b'

theorem handleChallenge_mask (env : Env) (conn : Conn) {b b' : Buffer}
    (hs : sizeMismatch b = sizeMismatch b') (hn : sizeMismatch b = false →
      login b = login b' ∧ osName b = osName b' ∧ localeName b = localeName b') :
    (handleChallenge H env (conn.withBuff b)).mask =
      (handleChallenge H env (conn.withBuff b')).mask := by
  cases hmis : sizeMismatch b with
  | true =>
    rw [handleChallenge_mismatch H env (conn.withBuff b) hmis,
      handleChallenge_mismatch H env (conn.withBuff b') (hs ▸ hmis)]
    rfl
  | false =>
    obtain ⟨hlogin, hos, hloc⟩ := hn hmis
    cases ha : env.account (login b) with
    | none =>
      rw [handleChallenge_unknown H env (conn.withBuff b) hmis ha,
        handleChallenge_unknown H env (conn.withBuff b') (hs ▸ hmis) (hlogin ▸ ha)]
      simp [Outcome.mask, Except.map, unknownConn, mask_handleWrite_prepare, Conn.withBuff,
        hlogin, hos, hloc]
    | some row =>
      rw [handleChallenge_challenged H env (conn.withBuff b) row hmis ha,
        handleChallenge_challenged H env (conn.withBuff b') row (hs ▸ hmis) (hlogin ▸ ha)]
      simp [Outcome.mask, Except.map, challengedConn, mask_handleWrite_prepare, Conn.withBuff,
        hlogin, hos, hloc]

theorem handleVersion_mask (env : Env) (conn : Conn) {b b' : Buffer} (A : EphemeralKey)
    (M1 : Digest) (h : verifyVersion H conn.os A (crcOf b) false =
      verifyVersion H conn.os A (crcOf b') false) :
    (handleVersion H env (conn.withBuff b) A M1).mask =
      (handleVersion H env (conn.withBuff b') A M1).mask := by
  cases hv : verifyVersion H conn.os A (crcOf b) false with
  | error f =>
    rw [handleVersion_error H env (conn.withBuff b) A M1 hv,
      handleVersion_error H env (conn.withBuff b') A M1 (h.symm.trans hv)]
  | ok verdict =>
    cases verdict with
    | false =>
      rw [handleVersion_bad H env (conn.withBuff b) A M1 hv,
        handleVersion_bad H env (conn.withBuff b') A M1 (h.symm.trans hv)]
      simp [Outcome.mask, Call.mask, Except.map, versionConn, mask_handleWrite_prepare,
        Conn.withBuff]
    | true =>
      cases hr : env.remoteAddress with
      | none =>
        rw [handleVersion_lostPeer H env (conn.withBuff b) A M1 hv hr,
          handleVersion_lostPeer H env (conn.withBuff b') A M1 (h.symm.trans hv) hr]
        rfl
      | some address =>
        rw [handleVersion_updated H env (conn.withBuff b) A M1 hv hr,
          handleVersion_updated H env (conn.withBuff b') A M1 (h.symm.trans hv) hr]
        simp [Outcome.mask, Call.mask, Except.map, updatedConn, mask_handleWrite_prepare,
          Conn.withBuff]

theorem handleProof_mask (env : Env) (conn : Conn) {b b' : Buffer} (h : SameProof H conn b b') :
    (handleProof H env (conn.withBuff b)).mask = (handleProof H env (conn.withBuff b')).mask := by
  cases hn : conn.srp6 with
  | none =>
    rw [handleProof_empty H env (conn.withBuff b) hn, handleProof_empty H env (conn.withBuff b') hn]
  | some srp =>
    cases hu : srp.used with
    | true =>
      rw [handleProof_reused H env (conn.withBuff b) srp hn hu,
        handleProof_reused H env (conn.withBuff b') srp hn hu]
    | false =>
      have hrejected : srp.verdict H (AOf b) (M1Of b) = none →
          srp.verdict H (AOf b') (M1Of b') = none →
          (handleProof H env (conn.withBuff b)).mask =
            (handleProof H env (conn.withBuff b')).mask := by
        intro hv hv'
        rw [handleProof_rejected H env (conn.withBuff b) srp hn hu hv,
          handleProof_rejected H env (conn.withBuff b') srp hn hu hv']
        simp [Outcome.mask, Call.mask, Except.map, rejectedConn, mask_handleWrite_prepare,
          Conn.withBuff]
      rcases h srp hn hu with ⟨hv, hv'⟩ | ⟨hA, hM, hver⟩
      · exact hrejected hv hv'
      · cases hv : srp.verdict H (AOf b) (M1Of b) with
        | none => exact hrejected hv (by rw [← hA, ← hM, hv])
        | some K =>
          rw [← hA] at hver
          have hmask := handleVersion_mask H env (acceptedConn conn srp K) (AOf b) (M1Of b) hver
          rw [handleProof_accepted H env (conn.withBuff b) srp K hn hu hv,
            handleProof_accepted H env (conn.withBuff b') srp K hn hu (by
              rw [Conn.withBuff_buff, ← hA, ← hM, hv])]
          simp only [Conn.withBuff_buff, ← hA, ← hM]
          simp only [Outcome.mask, Outcome.mk.injEq] at hmask
          simp only [Outcome.mask, List.map_cons, Outcome.mk.injEq, List.cons.injEq]
          exact ⟨⟨trivial, hmask.1⟩, hmask.2⟩

/-- Over a buffer of the same course the handler does the same. -/
theorem handleRead_mask (env : Env) (conn : Conn) {b b' : Buffer} (h : SameCourse H conn b b')
    (n n' : Nat) :
    (handleRead H env (conn.withBuff b) false n).mask =
      (handleRead H env (conn.withBuff b') false n').mask := by
  by_cases h0 : b.get 0 = AUTH_LOGON_CHALLENGE
  · rw [handleRead_challenge H env (conn.withBuff b) n h0,
      handleRead_challenge H env (conn.withBuff b') n' (h.cmd ▸ h0)]
    exact handleChallenge_mask H env conn (h.size h0) (h.names h0)
  · by_cases h1 : b.get 0 = AUTH_LOGON_PROOF
    · rw [handleRead_proof H env (conn.withBuff b) n h1,
        handleRead_proof H env (conn.withBuff b') n' (h.cmd ▸ h1)]
      exact handleProof_mask H env conn (h.proof h1)
    · rw [handleRead_ignored H env (conn.withBuff b) n h0 h1,
        handleRead_ignored H env (conn.withBuff b') n' (h.cmd ▸ h0) (h.cmd ▸ h1)]
      rfl

/-! ## The bytes a course depends on -/

/-- How far into the buffer the handler for the first byte looks. -/
def readLen (buff : Buffer) : Nat :=
  if buff.get 0 = AUTH_LOGON_CHALLENGE then AuthLogonChallengeC.I + nameLen buff
  else if buff.get 0 = AUTH_LOGON_PROOF then AuthLogonProofC.num_of_keys
  else 1

theorem sizeOf_of_take {m : Nat} {b b' : Buffer} (h : b.bytes.take m = b'.bytes.take m)
    (hm : 4 ≤ m) : AuthLogonChallengeC.sizeOf b = AuthLogonChallengeC.sizeOf b' := by
  have hlo : AuthLogonChallengeC.size < m := by show 2 < m; omega
  have hhi : AuthLogonChallengeC.size + 1 < m := by show 3 < m; omega
  rw [AuthLogonChallengeC.sizeOf, AuthLogonChallengeC.sizeOf, Octets.get_of_take h hlo,
    Octets.get_of_take h hhi]

theorem nameLen_of_take {m : Nat} {b b' : Buffer} (h : b.bytes.take m = b'.bytes.take m)
    (hm : 34 ≤ m) : nameLen b = nameLen b' := by
  simp only [nameLen]
  rw [Octets.get_of_take h (show AuthLogonChallengeC.I_len < m from hm)]

theorem sizeMismatch_congr {b b' : Buffer}
    (hs : AuthLogonChallengeC.sizeOf b = AuthLogonChallengeC.sizeOf b')
    (hn : nameLen b = nameLen b') : sizeMismatch b = sizeMismatch b' := by
  simp only [sizeMismatch, hs, hn]

theorem sameCourse_of_take (conn : Conn) {m : Nat} {b b' : Buffer}
    (h : b.bytes.take m = b'.bytes.take m) (hm : readLen b ≤ m) : SameCourse H conn b b' := by
  by_cases h0 : b.get 0 = AUTH_LOGON_CHALLENGE
  · rw [readLen, if_pos h0, show AuthLogonChallengeC.I = 34 from rfl] at hm
    have hlen := nameLen_of_take h (by omega)
    have hsize := sizeMismatch_congr (sizeOf_of_take h (by omega)) hlen
    have hos : AuthLogonChallengeC.osOf b = AuthLogonChallengeC.osOf b' :=
      Octets.slice_of_take h (show 21 ≤ m by omega) _
    have hcountry : AuthLogonChallengeC.countryOf b = AuthLogonChallengeC.countryOf b' :=
      Octets.slice_of_take h (show 25 ≤ m by omega) _
    refine ⟨Octets.get_of_take h (by omega), fun _ => hsize, fun _ _ => ⟨?_, ?_, ?_⟩, ?_⟩
    · rw [login, login, ← hlen]
      exact Octets.drop_take_of_take h hm
    · rw [osName, osName, hos]
    · rw [localeName, localeName, hcountry]
    · simp [h0, AUTH_LOGON_CHALLENGE, AUTH_LOGON_PROOF]
  · by_cases h1 : b.get 0 = AUTH_LOGON_PROOF
    · rw [readLen, if_neg h0, if_pos h1, show AuthLogonProofC.num_of_keys = 73 from rfl] at hm
      refine ⟨Octets.get_of_take h (by omega), by simp [h0], by simp [h0],
        fun _ srp _ _ => Or.inr ?_⟩
      have hA : AOf b = AOf b' := Octets.slice_of_take h (show 33 ≤ m by omega) _
      have hM : M1Of b = M1Of b' := Octets.slice_of_take h (show 53 ≤ m by omega) _
      have hcrc : crcOf b = crcOf b' := Octets.slice_of_take h (show 73 ≤ m by omega) _
      exact ⟨hA, hM, by rw [hA, hcrc]⟩
    · rw [readLen, if_neg h0, if_neg h1] at hm
      exact ⟨Octets.get_of_take h (by omega), by simp [h0], by simp [h0], by simp [h1]⟩

end Mpool.Logon
