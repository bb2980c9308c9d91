import Mpool.Logon.Reading
import Mpool.Logon.Session

/-! What goes over the wire. `handle_write` hands all 1024 bytes of `buff` to
`async_write`, so every answer carries what lay behind the response, and the
response to a challenge ends in a byte nobody assigned. -/

namespace Mpool.Logon

open AuthLogonChallengeC (nameLen sizeMismatch login)
open AuthLogonProofC (AOf M1Of crcOf)

/-- The bytes of every `async_write`, in order. -/
def Outcome.sent (out : Outcome) : List Bytes :=
  out.calls.filterMap fun
    | .asyncWrite _ wire => some wire.bytes
    | _ => none

variable (H : Hash)

/-- The response behind an accepted `M1`. -/
def versionResponse (env : Env) (conn : Conn) (A : EphemeralKey) (M1 : Digest) : Option Bytes :=
  match verifyVersion H conn.os A (crcOf conn.buff) false with
  | .error _ => none
  | .ok false => some ((proofError env.proofS WOW_FAIL_VERSION_INVALID).encode.take 2)
  | .ok true => env.remoteAddress.map fun _ =>
    (proofSuccess (SRP6.getSessionVerifier H A M1 conn.sessionKey)).encode

/-- The response the branch taken prepares: the first `data_len` bytes of the
packet it fills in. -/
def encodedResponse (env : Env) (conn : Conn) : Option Bytes :=
  if conn.buff.get 0 = AUTH_LOGON_CHALLENGE then
    if sizeMismatch conn.buff then none
    else match env.account (login conn.buff) with
      | none => some ((unknownAccountFeedback env.first_feedback).encode.take 3)
      | some row =>
        some (challengeFeedback env.first_feedback (instanceOf H env.secret row)).encode
  else if conn.buff.get 0 = AUTH_LOGON_PROOF then
    match conn.srp6 with
    | none => none
    | some srp =>
      if srp.used then none
      else match srp.verdict H (AOf conn.buff) (M1Of conn.buff) with
        | none => some ((proofError env.proofS WOW_FAIL_UNKNOWN_ACCOUNT).encode.take 2)
        | some K => versionResponse H env (acceptedConn conn srp K) (AOf conn.buff) (M1Of conn.buff)
  else none

/-- The packet is a challenge that an account answers. -/
def Answerable (env : Env) (conn : Conn) : Prop :=
  conn.buff.get 0 = AUTH_LOGON_CHALLENGE ∧ sizeMismatch conn.buff = false ∧
    env.account (login conn.buff) ≠ none

/-- Exactly the response goes over the wire. -/
def SendsResponse (env : Env) (conn : Conn) (n : Nat) : Prop :=
  (handleRead H env conn false n).sent = (encodedResponse H env conn).toList

/-- Runs on the `n` bytes of one packet, with any bytes behind them in `buff`
and any contents of the uninitialised locals, put the same on the wire. -/
def LeaksNothing (env : Env) (conn : Conn) (n : Nat) : Prop :=
  ∀ (buff : Buffer) (first_feedback : AuthLogonChallengeS) (proofS : AuthLogonProofS),
    buff.bytes.take n = conn.buff.bytes.take n →
    (handleRead H { env with first_feedback := first_feedback, proofS := proofS }
      (conn.withBuff buff) false n).sent = (handleRead H env conn false n).sent

/-! ## What is sent -/

theorem unknownAccountFeedback_take (p : AuthLogonChallengeS) :
    (unknownAccountFeedback p).encode.take 3 =
      [AUTH_LOGON_CHALLENGE, 0x00, WOW_FAIL_UNKNOWN_ACCOUNT] := by
  simp [AuthLogonChallengeS.encode, unknownAccountFeedback]

theorem proofError_take (p : AuthLogonProofS) (error : UInt8) :
    (proofError p error).encode.take 2 = [AUTH_LOGON_PROOF, error] := by
  simp [AuthLogonProofS.encode, proofError]

theorem handleVersion_sent (env : Env) (conn : Conn) (A : EphemeralKey) (M1 : Digest) :
    (handleVersion H env conn A M1).sent =
      (versionResponse H env conn A M1).toList.map fun p => p ++ conn.buff.bytes.drop p.length := by
  have hver := handleVersion_versioned H env conn A M1
  generalize handleVersion H env conn A M1 = out at hver
  cases hver with
  | nullHash hv => simp [versionResponse, hv, Outcome.sent]
  | badVersion hv =>
    simp [versionResponse, hv, Outcome.sent, handleWrite, versionConn, Conn.prepare,
      Octets.overwrite]
  | lostPeer hv hr => simp [versionResponse, hv, hr, Outcome.sent]
  | updated address hv hr =>
    have h : (proofSuccess (SRP6.getSessionVerifier H A M1 conn.sessionKey)).encode.take 32 =
        (proofSuccess (SRP6.getSessionVerifier H A M1 conn.sessionKey)).encode :=
      List.take_of_length_le (by simp)
    simp [versionResponse, hv, hr, Outcome.sent, handleWrite, updatedConn, Conn.prepare,
      Octets.overwrite, h]

/-- An answer is the response and what `buff` holds behind it. -/
theorem handleRead_sent (env : Env) (conn : Conn) (n : Nat) :
    (handleRead H env conn false n).sent =
      (encodedResponse H env conn).toList.map fun p => p ++ conn.buff.bytes.drop p.length := by
  have hout := handleRead_handled H env conn n
  generalize handleRead H env conn false n = out at hout
  cases hout with
  | ignored h0 h1 => simp [encodedResponse, h0, h1, Outcome.sent]
  | mismatch h0 hs => simp [encodedResponse, h0, hs, Outcome.sent]
  | unknown h0 hs ha =>
    simp [encodedResponse, h0, hs, ha, Outcome.sent, handleWrite, unknownConn, Conn.prepare,
      Octets.overwrite]
  | challenged row h0 hs ha =>
    have h : (challengeFeedback env.first_feedback (instanceOf H env.secret row)).encode.take 119 =
        (challengeFeedback env.first_feedback (instanceOf H env.secret row)).encode :=
      List.take_of_length_le (by simp)
    simp [encodedResponse, h0, hs, ha, Outcome.sent, handleWrite, challengedConn, Conn.prepare,
      Octets.overwrite, h]
  | empty h1 hn =>
    simp [encodedResponse, h1, hn, AUTH_LOGON_CHALLENGE, AUTH_LOGON_PROOF, Outcome.sent]
  | reused srp h1 hn hu =>
    simp [encodedResponse, h1, hn, hu, AUTH_LOGON_CHALLENGE, AUTH_LOGON_PROOF, Outcome.sent]
  | rejected srp h1 hn hu hv =>
    simp [encodedResponse, h1, hn, hu, hv, AUTH_LOGON_CHALLENGE, AUTH_LOGON_PROOF,
      Outcome.sent, handleWrite, rejectedConn, Conn.prepare, Octets.overwrite]
  | accepted srp K h1 hn hu hv ho =>
    have hsent := handleVersion_sent H env (acceptedConn conn srp K) (AOf conn.buff)
      (M1Of conn.buff)
    rw [← ho] at hsent
    simpa [encodedResponse, h1, hn, hu, hv, AUTH_LOGON_CHALLENGE, AUTH_LOGON_PROOF,
      Outcome.sent, acceptedConn] using hsent

theorem versionResponse_length {env : Env} {conn : Conn} {A : EphemeralKey} {M1 : Digest}
    {p : Bytes} (h : versionResponse H env conn A M1 = some p) : p.length ∈ [2, 32] := by
  unfold versionResponse at h
  split at h
  · cases h
  · obtain rfl := Option.some.inj h
    simp
  · obtain ⟨address, -, rfl⟩ := Option.map_eq_some_iff.mp h
    simp

theorem encodedResponse_length {env : Env} {conn : Conn} {p : Bytes}
    (h : encodedResponse H env conn = some p) : p.length ∈ [3, 119, 2, 32] := by
  unfold encodedResponse at h
  split at h
  · split at h
    · cases h
    · split at h <;> obtain rfl := Option.some.inj h <;> simp
  · split at h
    · split at h
      · cases h
      · split at h
        · cases h
        · split at h
          · obtain rfl := Option.some.inj h
            simp
          · have hlen := versionResponse_length H h
            simp only [List.mem_cons] at hlen ⊢
            tauto
    · cases h

/-! ## What it depends on -/

/-- Over a buffer of the same course the same response stands. -/
theorem encodedResponse_congr (env : Env) (conn : Conn) {b b' : Buffer}
    (h : SameCourse H conn b b') :
    encodedResponse H env (conn.withBuff b) = encodedResponse H env (conn.withBuff b') := by
  have hcmd := h.cmd
  by_cases h0 : b.get 0 = AUTH_LOGON_CHALLENGE
  · rw [h0] at hcmd
    have hsize := h.size h0
    cases hmis : sizeMismatch b with
    | true =>
      rw [hmis] at hsize
      simp [encodedResponse, h0, ← hcmd, hmis, ← hsize]
    | false =>
      obtain ⟨hlogin, -, -⟩ := h.names h0 hmis
      rw [hmis] at hsize
      simp [encodedResponse, h0, ← hcmd, hmis, ← hsize, hlogin]
  · by_cases h1 : b.get 0 = AUTH_LOGON_PROOF
    · have hproof := h.proof h1
      rw [h1] at hcmd
      simp only [encodedResponse, Conn.withBuff_buff, h1, ← hcmd, AUTH_LOGON_CHALLENGE,
        AUTH_LOGON_PROOF]
      cases hn : conn.srp6 with
      | none => simp [Conn.withBuff, hn]
      | some srp =>
        cases hu : srp.used with
        | true => simp [Conn.withBuff, hn, hu]
        | false =>
          rcases hproof srp hn hu with ⟨hv, hv'⟩ | ⟨hA, hM, hver⟩
          · simp [Conn.withBuff, hn, hu, hv, hv']
          · rw [← hA] at hver
            simp [Conn.withBuff, hn, hu, ← hA, ← hM, versionResponse, acceptedConn, hver]
    · have h0' : b'.get 0 ≠ AUTH_LOGON_CHALLENGE := hcmd ▸ h0
      have h1' : b'.get 0 ≠ AUTH_LOGON_PROOF := hcmd ▸ h1
      simp [encodedResponse, h0, h1, h0', h1']

/-- The locals are assigned wherever the response takes them from, but for the
last byte of the answer to a challenge. -/
theorem encodedResponse_locals {env : Env} {conn : Conn} (h : ¬ Answerable env conn)
    (first_feedback : AuthLogonChallengeS) (proofS : AuthLogonProofS) :
    encodedResponse H { env with first_feedback := first_feedback, proofS := proofS } conn =
      encodedResponse H env conn := by
  by_cases h0 : conn.buff.get 0 = AUTH_LOGON_CHALLENGE
  · cases hmis : sizeMismatch conn.buff with
    | true => simp [encodedResponse, h0, hmis]
    | false =>
      cases ha : env.account (login conn.buff) with
      | none => simp [encodedResponse, h0, hmis, ha, unknownAccountFeedback_take]
      | some row => exact absurd ⟨h0, hmis, by simp [ha]⟩ h
  · simp only [encodedResponse, if_neg h0, versionResponse, proofError_take]

theorem challengeFeedback_ne {p q : AuthLogonChallengeS} (h : p.securityFlags ≠ q.securityFlags)
    (srp : SRP6) : (challengeFeedback p srp).encode ≠ (challengeFeedback q srp).encode := by
  intro e
  simp [AuthLogonChallengeS.encode, challengeFeedback, h] at e

theorem readLen_le (buff : Buffer) : readLen buff ≤ 1023 := by
  have h : AuthLogonChallengeC.I + nameLen buff < 34 + 256 :=
    Nat.add_lt_add_left (buff.get AuthLogonChallengeC.I_len).toNat_lt 34
  unfold readLen
  split
  · omega
  · split <;> decide

/-! ## The leaks -/

theorem not_sendsResponse {env : Env} {conn : Conn} {n : Nat} {p : Bytes}
    (hp : encodedResponse H env conn = some p) : ¬ SendsResponse H env conn n := by
  intro h
  have hlen := encodedResponse_length H hp
  rw [SendsResponse, handleRead_sent, hp] at h
  have e := congrArg (fun l => (l.map List.length).sum) h
  simp at e
  simp at hlen
  omega

theorem leaksNothing_iff {env : Env} {conn : Conn} {n : Nat} {p : Bytes}
    (hp : encodedResponse H env conn = some p) :
    LeaksNothing H env conn n ↔ 1024 ≤ n ∧ ¬ Answerable env conn := by
  constructor
  · intro h
    constructor
    · by_contra hn
      -- a change of the last byte of `buff` is never read and always sent
      let buff := conn.buff.put 1023 [conn.buff.get 1023 + 1] (by simp)
      have htake : ∀ k ≤ 1023, buff.bytes.take k = conn.buff.bytes.take k := fun k hk =>
        Octets.take_put conn.buff _ _ fun i hi hlt => by omega
      have hsent := h buff env.first_feedback env.proofS (htake n (by omega))
      have hsame : SameCourse H conn conn.buff buff :=
        sameCourse_of_take H conn (htake 1023 le_rfl).symm (readLen_le conn.buff)
      have hresp : encodedResponse H env (conn.withBuff buff) = some p := by
        rw [← hp, ← encodedResponse_congr H env conn hsame, Conn.withBuff_self]
      rw [handleRead_sent, handleRead_sent, hresp, hp] at hsent
      have hdrop : buff.bytes.drop p.length = conn.buff.bytes.drop p.length := by
        simpa using hsent
      have hlen := encodedResponse_length H hp
      have hget := Octets.get_of_drop (i := 1023) hdrop (by simp at hlen; omega)
      rw [Octets.get_put, if_pos (by simp)] at hget
      simp at hget
    · rintro ⟨h0, hmis, ha⟩
      obtain ⟨row, ha⟩ := Option.ne_none_iff_exists'.mp ha
      let p' : AuthLogonChallengeS :=
        { env.first_feedback with securityFlags := env.first_feedback.securityFlags + 1 }
      have hsent := h conn.buff p' env.proofS rfl
      rw [handleRead_sent, handleRead_sent] at hsent
      have hne := challengeFeedback_ne (p := p') (q := env.first_feedback) (by simp [p'])
        (instanceOf H env.secret row)
      simp [encodedResponse, h0, hmis, ha] at hsent
      exact hne hsent
  · rintro ⟨hn, ha⟩ buff first_feedback proofS htake
    obtain rfl : buff = conn.buff := by
      ext1
      rwa [List.take_of_length_le (by simpa using hn), List.take_of_length_le (by simpa using hn)]
        at htake
    rw [handleRead_sent, handleRead_sent, Conn.withBuff_self, encodedResponse_locals H ha]

/-- No answer is the response of its branch alone, and an answer is independent
of what stood in `buff` behind the packet and in the locals only where the
packet fills all of `buff` and is no challenge of an existing account. -/
theorem responses_leak (env : Env) (conn : Conn) (n : Nat)
    (h : (handleRead H env conn false n).sent ≠ []) :
    ¬ SendsResponse H env conn n ∧
      (LeaksNothing H env conn n ↔ 1024 ≤ n ∧ ¬ Answerable env conn) := by
  cases hp : encodedResponse H env conn with
  | none => exact absurd (by rw [handleRead_sent, hp]; rfl) h
  | some p => exact ⟨not_sendsResponse H hp, leaksNothing_iff H hp⟩

/-- A connection that has received a challenge for the unknown account `B`. -/
def unknownChallenge (old : Buffer) : Conn :=
  (Conn.create old).receive (Input.challenge osWin (.zero 4) 66).read

theorem responses_leak_unknown :
    ¬ SendsResponse zeroHash .sample (unknownChallenge (.zero 1024)) 35 ∧
      (LeaksNothing zeroHash .sample (unknownChallenge (.zero 1024)) 35 ↔
        1024 ≤ 35 ∧ ¬ Answerable .sample (unknownChallenge (.zero 1024))) :=
  responses_leak zeroHash .sample (unknownChallenge (.zero 1024)) 35 (by decide)

/-- The three bytes of the answer are followed by the packet and by what was in
`buff` before it. -/
theorem old_bytes_sent :
    ¬ SendsResponse zeroHash .sample (unknownChallenge (.zero 1024)) 35 ∧
    encodedResponse zeroHash .sample (unknownChallenge (.zero 1024)) = some [0, 0, 4] ∧
    (handleRead zeroHash .sample (unknownChallenge (.zero 1024)) false 35).sent =
      [[0, 0, 4] ++ (challengePacket osWin (.zero 4) 66).drop 3 ++ List.replicate 989 0] ∧
    (handleRead zeroHash .sample
        (unknownChallenge ⟨List.replicate 1024 1, List.length_replicate⟩) false 35).sent =
      [[0, 0, 4] ++ (challengePacket osWin (.zero 4) 66).drop 3 ++ List.replicate 989 1] := by
  have hp : encodedResponse zeroHash .sample (unknownChallenge (.zero 1024)) = some [0, 0, 4] := by
    decide
  exact ⟨not_sendsResponse zeroHash hp, hp, by decide +kernel, by decide +kernel⟩

end Mpool.Logon
