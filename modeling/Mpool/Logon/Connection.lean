import Mpool.Common.SRP6
import Mpool.Logon.Types

/-! `NetWork.cpp`: the handlers of one client connection. `handleRead` is one
call of `handle_read` on the bytes that lie in `buff`; its outcome is the list
of calls it makes on the database, on SRP6 and on the socket, in order, and the
connection it leaves or the fault that ends the process. -/

namespace Mpool.Logon

open Util (text)

/-- The columns of `LOGIN_SEL_LOGONCHALLENGE` that reach the connection. -/
structure AccountRow where
  username : Bytes
  salt : Salt
  verifier : Verifier

/-- What one call of `handle_read` finds outside the connection: the account
table, the next random secret, the contents its uninitialised locals happen to
have and the peer's address (`remote_endpoint` throws on a lost peer). -/
structure Env where
  account : Bytes → Option AccountRow
  secret : Octets 32
  first_feedback : AuthLogonChallengeS
  proofS : AuthLogonProofS
  remoteAddress : Option Bytes

/-- The members of `CMyTcpConnection` the handlers read and write. -/
structure Conn where
  buff : Buffer
  data_len : Nat
  srp6 : Option SRP6
  sessionKey : SessionKey
  os : Bytes
  localizationName : Bytes
  userName : Bytes

/-- A new connection; the contents of `buff` are not initialised. -/
def Conn.create (buff : Buffer) : Conn where
  buff := buff
  data_len := 0
  srp6 := none
  sessionKey := .zero 40
  os := []
  localizationName := []
  userName := []

/-- How the process ends inside the handler: an empty `_srp6` is dereferenced,
an `ASSERT` of SRP6 fails, a null `versionHash` is dereferenced, or
`remote_endpoint` throws on the I/O thread. -/
inductive Fault where
  | emptySrp6
  | assertion (a : SRP6.Assertion)
  | nullVersionHash
  | remoteEndpoint
  deriving DecidableEq, Repr

inductive Call where
  | query (login : Bytes) (result : Option AccountRow)
  | emplace (userName : Bytes) (salt : Salt) (verifier : Verifier) (secret : Octets 32)
  | verifyChallengeResponse (A : EphemeralKey) (M1 : Digest) (K : Option SessionKey)
  | verifyVersion (A : EphemeralKey) (crc_hash : Digest) (verdict : Bool)
  | directExecute (sessionKey : SessionKey) (address locale os userName : Bytes)
  | asyncWrite (data_len : Nat) (wire : Buffer)
  | asyncRead
  | close

structure Outcome where
  calls : List Call
  result : Except Fault Conn

/-- `async_write` of `buffer(buff, buff_len)`, then `AsyncRead`. -/
def handleWrite (conn : Conn) : List Call := [.asyncWrite conn.data_len conn.buff, .asyncRead]

/-! ## Version check -/

def windowsHash : Digest :=
  (Util.hexStrToByteArray 20 (text "CDCBBD5188315E6B4D19449D492DBCFAF156A347") false).get
    (by decide)

def macHash : Digest :=
  (Util.hexStrToByteArray 20 (text "B706D13FF2F4018839729461E3F8A0E2B5FDC034") false).get
    (by decide)

def versionHashOf (os : Bytes) (isReconnect : Bool) : Option Digest :=
  if isReconnect then some (.zero 20)
  else if os = text "Win" then some windowsHash
  else if os = text "OSX" then some macHash
  else none

variable (H : Hash)

def verifyVersion (os : Bytes) (a : EphemeralKey) (versionProof : Digest)
    (isReconnect : Bool) : Except Fault Bool :=
  match versionHashOf os isReconnect with
  | none => .error .nullVersionHash
  | some versionHash =>
    if !isReconnect && .zero 20 = versionHash then .ok true
    else .ok (versionProof = H (a.bytes ++ versionHash.bytes))

/-! ## `handle_read` -/

/-- `_os = os.data()` over the zero-terminated copy of the four bytes, reversed. -/
def osName (buff : Buffer) : Bytes :=
  ((AuthLogonChallengeC.osOf buff).bytes.takeWhile (· ≠ 0)).reverse

def localeName (buff : Buffer) : Bytes := (AuthLogonChallengeC.countryOf buff).bytes.reverse

def versionChallenge : Octets 16 :=
  ⟨[0xBA, 0xA3, 0x1E, 0x99, 0xA0, 0x0B, 0x21, 0x57,
    0xFC, 0x37, 0x3F, 0xB3, 0x69, 0xCD, 0xD2, 0xF1], rfl⟩

/-- `memcpy(buff, &p, data_len)` of the first `len` bytes of a packet. -/
def Conn.prepare (conn : Conn) (len : Nat) (p : Bytes) (h : p.length ≤ 1024) : Conn :=
  { conn with data_len := len, buff := conn.buff.overwrite (p.take len) (by simp; omega) }

section prepare

variable (conn : Conn) (len : Nat) (p : Bytes) (h : p.length ≤ 1024)

@[simp] theorem Conn.prepare_data_len : (conn.prepare len p h).data_len = len := rfl
@[simp] theorem Conn.prepare_srp6 : (conn.prepare len p h).srp6 = conn.srp6 := rfl
@[simp] theorem Conn.prepare_sessionKey :
    (conn.prepare len p h).sessionKey = conn.sessionKey := rfl
@[simp] theorem Conn.prepare_os : (conn.prepare len p h).os = conn.os := rfl
@[simp] theorem Conn.prepare_localizationName :
    (conn.prepare len p h).localizationName = conn.localizationName := rfl
@[simp] theorem Conn.prepare_userName : (conn.prepare len p h).userName = conn.userName := rfl

end prepare

/-- The answer to a challenge for an unknown account, over the uninitialised
`first_feedback`. -/
def unknownAccountFeedback (p : AuthLogonChallengeS) : AuthLogonChallengeS :=
  { p with cmd := AUTH_LOGON_CHALLENGE, unk2 := 0x00, error := WOW_FAIL_UNKNOWN_ACCOUNT }

/-- The answer to a successful challenge. `N_len` is assigned twice, the second
time in place of `securityFlags`, which keeps its uninitialised value. -/
def challengeFeedback (p : AuthLogonChallengeS) (srp : SRP6) : AuthLogonChallengeS :=
  { p with
    cmd := AUTH_LOGON_CHALLENGE, unk2 := 0x00, error := WOW_SUCCESS, B := srp.B, g_len := 1,
    g := strncpy SRP6.g, N_len := 0, N := strncpy SRP6.N, s := strncpy srp.s,
    unk3 := strncpy versionChallenge }

def handleChallenge (env : Env) (conn : Conn) : Outcome :=
  if AuthLogonChallengeC.sizeMismatch conn.buff then ⟨[], .ok conn⟩
  else
    let login := AuthLogonChallengeC.login conn.buff
    let conn := { conn with os := osName conn.buff, localizationName := localeName conn.buff }
    match env.account login with
    | none =>
      let conn := conn.prepare 3 (unknownAccountFeedback env.first_feedback).encode (by simp)
      ⟨.query login none :: handleWrite conn, .ok conn⟩
    | some row =>
      let conn := { conn with userName := row.username }
      match SRP6.construct H conn.userName row.salt row.verifier env.secret with
      | none => ⟨[.query login (some row)], .error (.assertion .bufferTooSmall)⟩
      | some srp =>
        let conn := { conn with srp6 := some srp }
        let conn := conn.prepare 119 (challengeFeedback env.first_feedback srp).encode (by simp)
        ⟨[.query login (some row), .emplace conn.userName row.salt row.verifier env.secret] ++
          handleWrite conn ++ [.asyncRead], .ok conn⟩

/-- A two-byte answer to a proof. -/
def proofError (p : AuthLogonProofS) (error : UInt8) : AuthLogonProofS :=
  { p with cmd := AUTH_LOGON_PROOF, error := error }

def proofSuccess (M2 : Digest) : AuthLogonProofS where
  cmd := AUTH_LOGON_PROOF
  error := 0
  M2 := M2
  accountFlags := .encode 4 0x00800000
  surveyId := .encode 4 0
  unkFlags := .encode 2 0

/-- The part of the proof branch behind an accepted `M1`. -/
def handleVersion (env : Env) (conn : Conn) (A : EphemeralKey) (M1 : Digest) : Outcome :=
  let crc_hash := AuthLogonProofC.crcOf conn.buff
  match verifyVersion H conn.os A crc_hash false with
  | .error f => ⟨[], .error f⟩
  | .ok false =>
    let conn := conn.prepare 2 (proofError env.proofS WOW_FAIL_VERSION_INVALID).encode (by simp)
    ⟨.verifyVersion A crc_hash false :: handleWrite conn, .ok conn⟩
  | .ok true =>
    match env.remoteAddress with
    | none => ⟨[.verifyVersion A crc_hash true], .error .remoteEndpoint⟩
    | some address =>
      let update := Call.directExecute conn.sessionKey address conn.localizationName conn.os
        conn.userName
      let M2 := SRP6.getSessionVerifier H A M1 conn.sessionKey
      let conn := conn.prepare 32 (proofSuccess M2).encode (by simp)
      ⟨[.verifyVersion A crc_hash true, update] ++ handleWrite conn ++ [.asyncRead], .ok conn⟩

def handleProof (env : Env) (conn : Conn) : Outcome :=
  let A := AuthLogonProofC.AOf conn.buff
  let M1 := AuthLogonProofC.M1Of conn.buff
  match conn.srp6 with
  | none => ⟨[], .error .emptySrp6⟩
  | some srp =>
    match SRP6.verifyChallengeResponse H srp A M1 with
    | .error a => ⟨[], .error (.assertion a)⟩
    | .ok (srp, K?) =>
      let conn := { conn with srp6 := some srp }
      match K? with
      | some K =>
        let out := handleVersion H env { conn with sessionKey := K } A M1
        ⟨.verifyChallengeResponse A M1 (some K) :: out.calls, out.result⟩
      | none =>
        let conn := conn.prepare 2 (proofError env.proofS WOW_FAIL_UNKNOWN_ACCOUNT).encode
          (by simp)
        ⟨.verifyChallengeResponse A M1 none :: handleWrite conn, .ok conn⟩

/-- The handler prints `transferredBytes` and the bytes it counts, and uses it
for nothing else. -/
def handleRead (env : Env) (conn : Conn) (error : Bool) (_transferredBytes : Nat) : Outcome :=
  if error then ⟨[.close], .ok conn⟩
  else if conn.buff.get 0 = AUTH_LOGON_CHALLENGE then handleChallenge H env conn
  else if conn.buff.get 0 = AUTH_LOGON_PROOF then handleProof H env conn
  else ⟨[.asyncRead], .ok conn⟩

/-! ## What one call can do -/

/-- The instance a successful challenge stores. -/
def instanceOf (secret : Octets 32) (row : AccountRow) : SRP6 where
  used := false
  I := H row.username
  b := secret.value
  v := row.verifier.value
  s := row.salt
  B := .encode 32 ((SRP6._g ^ secret.value % SRP6._N + row.verifier.value * 3) % SRP6._N)

def unknownConn (env : Env) (conn : Conn) : Conn :=
  { conn with os := osName conn.buff, localizationName := localeName conn.buff }.prepare 3
    (unknownAccountFeedback env.first_feedback).encode (by simp)

def challengedConn (env : Env) (conn : Conn) (row : AccountRow) : Conn :=
  { conn with
    os := osName conn.buff, localizationName := localeName conn.buff, userName := row.username,
    srp6 := some (instanceOf H env.secret row) }.prepare 119
    (challengeFeedback env.first_feedback (instanceOf H env.secret row)).encode (by simp)

def rejectedConn (env : Env) (conn : Conn) (srp : SRP6) : Conn :=
  { conn with srp6 := some { srp with used := true } }.prepare 2
    (proofError env.proofS WOW_FAIL_UNKNOWN_ACCOUNT).encode (by simp)

/-- `_sessionKey` and `_used` after an accepted `M1`. -/
def acceptedConn (conn : Conn) (srp : SRP6) (K : SessionKey) : Conn :=
  { conn with srp6 := some { srp with used := true }, sessionKey := K }

def versionConn (env : Env) (conn : Conn) : Conn :=
  conn.prepare 2 (proofError env.proofS WOW_FAIL_VERSION_INVALID).encode (by simp)

def updatedConn (conn : Conn) (A : EphemeralKey) (M1 : Digest) : Conn :=
  conn.prepare 32 (proofSuccess (SRP6.getSessionVerifier H A M1 conn.sessionKey)).encode (by simp)

open AuthLogonChallengeC (sizeMismatch login)

/-- The outcomes of `handle_read` on a completed read, with the branch each of
them belongs to. -/
inductive Handled (env : Env) (conn : Conn) : Outcome → Prop
  | ignored (h0 : conn.buff.get 0 ≠ AUTH_LOGON_CHALLENGE)
      (h1 : conn.buff.get 0 ≠ AUTH_LOGON_PROOF) :
      Handled env conn ⟨[.asyncRead], .ok conn⟩
  | mismatch (h0 : conn.buff.get 0 = AUTH_LOGON_CHALLENGE)
      (hs : sizeMismatch conn.buff = true) :
      Handled env conn ⟨[], .ok conn⟩
  | unknown (h0 : conn.buff.get 0 = AUTH_LOGON_CHALLENGE)
      (hs : sizeMismatch conn.buff = false) (ha : env.account (login conn.buff) = none) :
      Handled env conn ⟨.query (login conn.buff) none :: handleWrite (unknownConn env conn),
        .ok (unknownConn env conn)⟩
  | challenged (row : AccountRow) (h0 : conn.buff.get 0 = AUTH_LOGON_CHALLENGE)
      (hs : sizeMismatch conn.buff = false) (ha : env.account (login conn.buff) = some row) :
      Handled env conn ⟨[.query (login conn.buff) (some row),
          .emplace row.username row.salt row.verifier env.secret] ++
        handleWrite (challengedConn H env conn row) ++ [.asyncRead],
        .ok (challengedConn H env conn row)⟩
  | empty (h1 : conn.buff.get 0 = AUTH_LOGON_PROOF) (hn : conn.srp6 = none) :
      Handled env conn ⟨[], .error .emptySrp6⟩
  | reused (srp : SRP6) (h1 : conn.buff.get 0 = AUTH_LOGON_PROOF) (hn : conn.srp6 = some srp)
      (hu : srp.used = true) :
      Handled env conn ⟨[], .error (.assertion .usedOnlyOnce)⟩
  | rejected (srp : SRP6) (h1 : conn.buff.get 0 = AUTH_LOGON_PROOF) (hn : conn.srp6 = some srp)
      (hu : srp.used = false)
      (hv : srp.verdict H (AuthLogonProofC.AOf conn.buff) (AuthLogonProofC.M1Of conn.buff) = none) :
      Handled env conn ⟨.verifyChallengeResponse (AuthLogonProofC.AOf conn.buff)
          (AuthLogonProofC.M1Of conn.buff) none :: handleWrite (rejectedConn env conn srp),
        .ok (rejectedConn env conn srp)⟩
  | accepted (srp : SRP6) (K : SessionKey) (h1 : conn.buff.get 0 = AUTH_LOGON_PROOF)
      (hn : conn.srp6 = some srp) (hu : srp.used = false)
      (hv : srp.verdict H (AuthLogonProofC.AOf conn.buff) (AuthLogonProofC.M1Of conn.buff) =
        some K) {out : Outcome}
      (ho : out = handleVersion H env (acceptedConn conn srp K) (AuthLogonProofC.AOf conn.buff)
        (AuthLogonProofC.M1Of conn.buff)) :
      Handled env conn ⟨.verifyChallengeResponse (AuthLogonProofC.AOf conn.buff)
        (AuthLogonProofC.M1Of conn.buff) (some K) :: out.calls, out.result⟩

/-- The outcomes of the part behind an accepted `M1`. -/
inductive Versioned (env : Env) (conn : Conn) (A : EphemeralKey) (M1 : Digest) : Outcome → Prop
  | nullHash (hv : verifyVersion H conn.os A (AuthLogonProofC.crcOf conn.buff) false =
      .error .nullVersionHash) :
      Versioned env conn A M1 ⟨[], .error .nullVersionHash⟩
  | badVersion (hv : verifyVersion H conn.os A (AuthLogonProofC.crcOf conn.buff) false =
      .ok false) :
      Versioned env conn A M1 ⟨.verifyVersion A (AuthLogonProofC.crcOf conn.buff) false ::
        handleWrite (versionConn env conn), .ok (versionConn env conn)⟩
  | lostPeer (hv : verifyVersion H conn.os A (AuthLogonProofC.crcOf conn.buff) false = .ok true)
      (hr : env.remoteAddress = none) :
      Versioned env conn A M1 ⟨[.verifyVersion A (AuthLogonProofC.crcOf conn.buff) true],
        .error .remoteEndpoint⟩
  | updated (address : Bytes)
      (hv : verifyVersion H conn.os A (AuthLogonProofC.crcOf conn.buff) false = .ok true)
      (hr : env.remoteAddress = some address) :
      Versioned env conn A M1 ⟨[.verifyVersion A (AuthLogonProofC.crcOf conn.buff) true,
          .directExecute conn.sessionKey address conn.localizationName conn.os conn.userName] ++
        handleWrite (updatedConn H conn A M1) ++ [.asyncRead], .ok (updatedConn H conn A M1)⟩

theorem verifyVersion_error {os : Bytes} {a : EphemeralKey} {crc : Digest} {r : Bool} {f : Fault}
    (h : verifyVersion H os a crc r = .error f) : f = .nullVersionHash := by
  unfold verifyVersion at h
  split at h
  · exact (Except.error.inj h).symm
  · split at h <;> cases h

theorem versionHashOf_ne_zero {os : Bytes} {versionHash : Digest}
    (h : versionHashOf os false = some versionHash) : versionHash ≠ .zero 20 := by
  have hwin : windowsHash ≠ .zero 20 := by decide
  have hmac : macHash ≠ .zero 20 := by decide
  simp only [versionHashOf, Bool.false_eq_true, ↓reduceIte] at h
  intro hz
  rw [hz] at h
  split at h
  · exact hwin (Option.some.inj h)
  · split at h
    · exact hmac (Option.some.inj h)
    · cases h

/-- Neither checksum is unset, so a known os always compares the hashes. -/
theorem verifyVersion_of_hash {os : Bytes} {versionHash : Digest}
    (h : versionHashOf os false = some versionHash) (a : EphemeralKey) (crc : Digest) :
    verifyVersion H os a crc false = .ok (crc = H (a.bytes ++ versionHash.bytes)) := by
  have hne := (versionHashOf_ne_zero h).symm
  simp [verifyVersion, h, hne]

section handleVersion

variable (env : Env) (conn : Conn) (A : EphemeralKey) (M1 : Digest)

theorem handleVersion_error {f : Fault}
    (hv : verifyVersion H conn.os A (AuthLogonProofC.crcOf conn.buff) false = .error f) :
    handleVersion H env conn A M1 = ⟨[], .error f⟩ := by
  simp only [handleVersion, hv]

theorem handleVersion_bad
    (hv : verifyVersion H conn.os A (AuthLogonProofC.crcOf conn.buff) false = .ok false) :
    handleVersion H env conn A M1 = ⟨.verifyVersion A (AuthLogonProofC.crcOf conn.buff) false ::
      handleWrite (versionConn env conn), .ok (versionConn env conn)⟩ := by
  simp only [handleVersion, hv]
  rfl

theorem handleVersion_lostPeer
    (hv : verifyVersion H conn.os A (AuthLogonProofC.crcOf conn.buff) false = .ok true)
    (hr : env.remoteAddress = none) :
    handleVersion H env conn A M1 =
      ⟨[.verifyVersion A (AuthLogonProofC.crcOf conn.buff) true], .error .remoteEndpoint⟩ := by
  simp only [handleVersion, hv, hr]

theorem handleVersion_updated {address : Bytes}
    (hv : verifyVersion H conn.os A (AuthLogonProofC.crcOf conn.buff) false = .ok true)
    (hr : env.remoteAddress = some address) :
    handleVersion H env conn A M1 = ⟨[.verifyVersion A (AuthLogonProofC.crcOf conn.buff) true,
        .directExecute conn.sessionKey address conn.localizationName conn.os conn.userName] ++
      handleWrite (updatedConn H conn A M1) ++ [.asyncRead], .ok (updatedConn H conn A M1)⟩ := by
  simp only [handleVersion, hv, hr]
  rfl

theorem handleVersion_versioned :
    Versioned H env conn A M1 (handleVersion H env conn A M1) := by
  cases hv : verifyVersion H conn.os A (AuthLogonProofC.crcOf conn.buff) false with
  | error f =>
    obtain rfl := verifyVersion_error H hv
    rw [handleVersion_error H env conn A M1 hv]
    exact .nullHash hv
  | ok verdict =>
    cases verdict with
    | false =>
      rw [handleVersion_bad H env conn A M1 hv]
      exact .badVersion hv
    | true =>
      cases hr : env.remoteAddress with
      | none =>
        rw [handleVersion_lostPeer H env conn A M1 hv hr]
        exact .lostPeer hv hr
      | some address =>
        rw [handleVersion_updated H env conn A M1 hv hr]
        exact .updated address hv hr

end handleVersion

theorem handleChallenge_mismatch (env : Env) (conn : Conn) (hs : sizeMismatch conn.buff = true) :
    handleChallenge H env conn = ⟨[], .ok conn⟩ := by
  rw [handleChallenge, if_pos hs]

theorem handleChallenge_unknown (env : Env) (conn : Conn) (hs : sizeMismatch conn.buff = false)
    (ha : env.account (login conn.buff) = none) :
    handleChallenge H env conn = ⟨.query (login conn.buff) none ::
      handleWrite (unknownConn env conn), .ok (unknownConn env conn)⟩ := by
  unfold handleChallenge
  simp only [hs, ha]
  rfl

theorem handleChallenge_challenged (env : Env) (conn : Conn) (row : AccountRow)
    (hs : sizeMismatch conn.buff = false) (ha : env.account (login conn.buff) = some row) :
    handleChallenge H env conn = ⟨[.query (login conn.buff) (some row),
      .emplace row.username row.salt row.verifier env.secret] ++
        handleWrite (challengedConn H env conn row) ++ [.asyncRead],
      .ok (challengedConn H env conn row)⟩ := by
  unfold handleChallenge
  simp only [hs, ha, SRP6.construct_eq]
  rfl

theorem handleRead_challenge (env : Env) (conn : Conn) (n : Nat)
    (h0 : conn.buff.get 0 = AUTH_LOGON_CHALLENGE) :
    handleRead H env conn false n = handleChallenge H env conn := by
  simp [handleRead, h0]

theorem handleRead_proof (env : Env) (conn : Conn) (n : Nat)
    (h1 : conn.buff.get 0 = AUTH_LOGON_PROOF) :
    handleRead H env conn false n = handleProof H env conn := by
  simp [handleRead, h1, AUTH_LOGON_CHALLENGE, AUTH_LOGON_PROOF]

theorem handleRead_ignored (env : Env) (conn : Conn) (n : Nat)
    (h0 : conn.buff.get 0 ≠ AUTH_LOGON_CHALLENGE) (h1 : conn.buff.get 0 ≠ AUTH_LOGON_PROOF) :
    handleRead H env conn false n = ⟨[.asyncRead], .ok conn⟩ := by
  simp [handleRead, h0, h1]

theorem handleChallenge_handled (env : Env) (conn : Conn)
    (h0 : conn.buff.get 0 = AUTH_LOGON_CHALLENGE) :
    Handled H env conn (handleChallenge H env conn) := by
  cases hs : sizeMismatch conn.buff with
  | true =>
    rw [handleChallenge_mismatch H env conn hs]
    exact .mismatch h0 hs
  | false =>
    cases ha : env.account (login conn.buff) with
    | none =>
      rw [handleChallenge_unknown H env conn hs ha]
      exact .unknown h0 hs ha
    | some row =>
      rw [handleChallenge_challenged H env conn row hs ha]
      exact .challenged row h0 hs ha

theorem handleProof_empty (env : Env) (conn : Conn) (hn : conn.srp6 = none) :
    handleProof H env conn = ⟨[], .error .emptySrp6⟩ := by
  unfold handleProof
  simp only [hn]

theorem handleProof_reused (env : Env) (conn : Conn) (srp : SRP6) (hn : conn.srp6 = some srp)
    (hu : srp.used = true) :
    handleProof H env conn = ⟨[], .error (.assertion .usedOnlyOnce)⟩ := by
  unfold handleProof
  simp only [hn, SRP6.verifyChallengeResponse_used H srp _ _ hu]

theorem handleProof_rejected (env : Env) (conn : Conn) (srp : SRP6) (hn : conn.srp6 = some srp)
    (hu : srp.used = false)
    (hv : srp.verdict H (AuthLogonProofC.AOf conn.buff) (AuthLogonProofC.M1Of conn.buff) = none) :
    handleProof H env conn = ⟨.verifyChallengeResponse (AuthLogonProofC.AOf conn.buff)
        (AuthLogonProofC.M1Of conn.buff) none :: handleWrite (rejectedConn env conn srp),
      .ok (rejectedConn env conn srp)⟩ := by
  unfold handleProof
  simp only [hn, SRP6.verifyChallengeResponse_unused H srp _ _ hu, hv]
  rfl

theorem handleProof_accepted (env : Env) (conn : Conn) (srp : SRP6) (K : SessionKey)
    (hn : conn.srp6 = some srp) (hu : srp.used = false)
    (hv : srp.verdict H (AuthLogonProofC.AOf conn.buff) (AuthLogonProofC.M1Of conn.buff) =
      some K) :
    handleProof H env conn = ⟨.verifyChallengeResponse (AuthLogonProofC.AOf conn.buff)
        (AuthLogonProofC.M1Of conn.buff) (some K) ::
        (handleVersion H env (acceptedConn conn srp K) (AuthLogonProofC.AOf conn.buff)
          (AuthLogonProofC.M1Of conn.buff)).calls,
      (handleVersion H env (acceptedConn conn srp K) (AuthLogonProofC.AOf conn.buff)
        (AuthLogonProofC.M1Of conn.buff)).result⟩ := by
  unfold handleProof
  simp only [hn, SRP6.verifyChallengeResponse_unused H srp _ _ hu, hv]
  rfl

theorem handleProof_handled (env : Env) (conn : Conn)
    (h1 : conn.buff.get 0 = AUTH_LOGON_PROOF) :
    Handled H env conn (handleProof H env conn) := by
  cases hn : conn.srp6 with
  | none =>
    rw [handleProof_empty H env conn hn]
    exact .empty h1 hn
  | some srp =>
    cases hu : srp.used with
    | true =>
      rw [handleProof_reused H env conn srp hn hu]
      exact .reused srp h1 hn hu
    | false =>
      cases hv : srp.verdict H (AuthLogonProofC.AOf conn.buff)
          (AuthLogonProofC.M1Of conn.buff) with
      | none =>
        rw [handleProof_rejected H env conn srp hn hu hv]
        exact .rejected srp h1 hn hu hv
      | some K =>
        rw [handleProof_accepted H env conn srp K hn hu hv]
        exact .accepted srp K h1 hn hu hv rfl

theorem handleRead_handled (env : Env) (conn : Conn) (n : Nat) :
    Handled H env conn (handleRead H env conn false n) := by
  by_cases h0 : conn.buff.get 0 = AUTH_LOGON_CHALLENGE
  · rw [handleRead_challenge H env conn n h0]
    exact handleChallenge_handled H env conn h0
  · by_cases h1 : conn.buff.get 0 = AUTH_LOGON_PROOF
    · rw [handleRead_proof H env conn n h1]
      exact handleProof_handled H env conn h1
    · rw [handleRead_ignored H env conn n h0 h1]
      exact .ignored h0 h1

end Mpool.Logon
