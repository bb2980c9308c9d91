import Mpool.Common.Agreement
import Mpool.Logon.Challenge
import Mpool.Logon.Parameters
import Mpool.Logon.Segmentation
import Mpool.Logon.Version

/-! A whole login: an account that is registered, a client that knows its password, and the
server between the two packets of that client. The client reads every parameter from what
the server sends. -/

namespace Mpool

/-! ## Registration -/

namespace SRP6

variable (H : Hash)

/-- `MakeRegistrationData`; `salt` is what `GetRandomBytes` returned. -/
def makeRegistrationData (username password : Bytes) (salt : Salt) : Option (Salt × Verifier) :=
  (calculateVerifier H username password salt).map fun verifier => (salt, verifier)

/-- `CheckLogin`. -/
def checkLogin (username password : Bytes) (salt : Salt) (verifier : Verifier) : Option Bool :=
  (calculateVerifier H username password salt).map fun v => verifier = v

/-- The data of a registration passes its own check. -/
theorem checkLogin_registered {username password : Bytes} {random salt : Salt}
    {verifier : Verifier}
    (h : makeRegistrationData H username password random = some (salt, verifier)) :
    checkLogin H username password salt verifier = some true := by
  obtain ⟨v, hv, heq⟩ := Option.map_eq_some_iff.mp h
  obtain ⟨rfl, rfl⟩ := Prod.mk.inj heq
  simp [checkLogin, hv]

end SRP6

namespace Logon

open Runs
open Util (text)

/-! ## The packets of a client -/

/-- `sAuthLogonChallenge_C` as a client fills it in; the sizes follow from the name. -/
structure ChallengePacket where
  error : UInt8
  gamename : Octets 4
  version : Octets 3
  build : Octets 2
  platform : Octets 4
  os : Octets 4
  country : Octets 4
  timezone_bias : Octets 4
  ip : Octets 4
  I : Bytes
  fits : I.length < 256

namespace ChallengePacket

variable (p : ChallengePacket)

/-- The 17 bytes in front of the system. -/
def head : Bytes :=
  [AUTH_LOGON_CHALLENGE, p.error] ++ Bytes.encode 2 (p.I.length + 30) ++ p.gamename.bytes ++
    p.version.bytes ++ p.build.bytes ++ p.platform.bytes

def encode : Bytes :=
  p.head ++ p.os.bytes ++ p.country.bytes ++ p.timezone_bias.bytes ++ p.ip.bytes ++
    [UInt8.ofNat p.I.length] ++ p.I

@[simp] theorem length_head : p.head.length = 17 := by simp [head]

@[simp] theorem length_encode : p.encode.length = p.I.length + 34 := by
  simp [encode]
  omega

theorem fits_buffer : p.encode.length ≤ 1024 := by
  have h := p.fits
  rw [length_encode]
  omega

/-- One `async_read_some` with the whole packet. -/
def read : Read := ⟨p.encode, by simp, p.fits_buffer⟩

/-- The bytes of one field, by what stands before and behind it. -/
theorem field_of_split (front back : Bytes) {packet field : Bytes} {off k : Nat}
    (h : packet = front ++ (field ++ back)) (hoff : front.length = off) (hk : field.length = k) :
    (packet.drop off).take k = field := by
  rw [h, ← hoff, ← hk, List.drop_left, List.take_left]

variable (buff : Buffer)

/-- A field of the packet is a field of the buffer it is read into. -/
theorem slice_overwrite {off k : Nat} (h : off + k ≤ 34) :
    ((buff.overwrite p.encode p.fits_buffer).bytes.drop off).take k =
      (p.encode.drop off).take k := by
  have hlen : off ≤ p.encode.length := by
    rw [length_encode]
    omega
  have hk : k ≤ (p.encode.drop off).length := by
    rw [List.length_drop, length_encode]
    omega
  rw [Octets.overwrite, List.drop_append_of_le_length hlen, List.take_append_of_le_length hk]

theorem get_overwrite {i : Nat} (hi : i < 34) :
    (buff.overwrite p.encode p.fits_buffer).get i = p.encode.getD i 0 := by
  have hlen : i < p.encode.length := by
    rw [length_encode]
    omega
  simp [Octets.get, Octets.overwrite, List.getD_eq_getElem?_getD, List.getElem?_append_left hlen]

theorem nameLen_overwrite :
    AuthLogonChallengeC.nameLen (buff.overwrite p.encode p.fits_buffer) = p.I.length := by
  have hlen : (p.encode.drop 33).take 1 = [UInt8.ofNat p.I.length] :=
    field_of_split (p.head ++ p.os.bytes ++ p.country.bytes ++ p.timezone_bias.bytes ++ p.ip.bytes)
      p.I (by simp [encode]) (by simp) rfl
  have hget : p.encode.getD 33 0 = UInt8.ofNat p.I.length := by
    have hfirst := congrArg (fun l => l.getD 0 0) hlen
    simpa [List.getD_eq_getElem?_getD, List.getElem?_take, List.getElem?_drop] using hfirst
  have hvalue : (UInt8.ofNat p.I.length).toNat = p.I.length := by
    rw [UInt8.toNat_ofNat']
    exact Nat.mod_eq_of_lt p.fits
  rw [AuthLogonChallengeC.nameLen, p.get_overwrite buff (by decide)]
  exact (congrArg UInt8.toNat hget).trans hvalue

theorem sizeOf_overwrite :
    AuthLogonChallengeC.sizeOf (buff.overwrite p.encode p.fits_buffer) = p.I.length + 30 := by
  have hfits := p.fits
  rw [AuthLogonChallengeC.sizeOf, p.get_overwrite buff (by decide),
    p.get_overwrite buff (by decide)]
  simp [encode, head, Bytes.encode, AuthLogonChallengeC.size, AuthLogonChallengeC.error,
    AuthLogonChallengeC.cmd]
  omega

/-- What the server reads from the packet, whatever the buffer held before. -/
theorem decode_encode :
    (buff.overwrite p.encode p.fits_buffer).get 0 = AUTH_LOGON_CHALLENGE ∧
      AuthLogonChallengeC.sizeMismatch (buff.overwrite p.encode p.fits_buffer) = false ∧
      AuthLogonChallengeC.login (buff.overwrite p.encode p.fits_buffer) = p.I ∧
      AuthLogonChallengeC.osOf (buff.overwrite p.encode p.fits_buffer) = p.os ∧
      AuthLogonChallengeC.countryOf (buff.overwrite p.encode p.fits_buffer) = p.country := by
  refine ⟨?_, ?_, ?_, ?_, ?_⟩
  · rw [p.get_overwrite buff (by decide)]
    rfl
  · rw [AuthLogonChallengeC.sizeMismatch_eq_false_iff, p.nameLen_overwrite, p.sizeOf_overwrite]
  · rw [AuthLogonChallengeC.login, p.nameLen_overwrite]
    exact field_of_split (p.head ++ p.os.bytes ++ p.country.bytes ++ p.timezone_bias.bytes ++
      p.ip.bytes ++ [UInt8.ofNat p.I.length]) (buff.bytes.drop p.encode.length)
      (by simp [encode, Octets.overwrite]) (by simp; rfl) rfl
  · ext1
    refine (p.slice_overwrite buff (by decide)).trans ?_
    exact field_of_split p.head (p.country.bytes ++ p.timezone_bias.bytes ++ p.ip.bytes ++
      [UInt8.ofNat p.I.length] ++ p.I) (by simp [encode]) p.length_head p.os.length_bytes
  · ext1
    refine (p.slice_overwrite buff (by decide)).trans ?_
    exact field_of_split (p.head ++ p.os.bytes) (p.timezone_bias.bytes ++ p.ip.bytes ++
      [UInt8.ofNat p.I.length] ++ p.I) (by simp [encode]) (by simp; rfl) p.country.length_bytes

end ChallengePacket

/-! ## The client -/

/-- The systems whose checksum the server knows. -/
inductive ClientSystem where
  | windows
  | mac
  deriving DecidableEq

namespace ClientSystem

def os : ClientSystem → Octets 4
  | windows => osWin
  | mac => osOSX

def name : ClientSystem → Bytes
  | windows => text "Win"
  | mac => text "OSX"

def versionHash : ClientSystem → Digest
  | windows => windowsHash
  | mac => macHash

end ClientSystem

/-- A client with what its user types in and the secret exponent it picks. -/
structure Client where
  username : Bytes
  password : Bytes
  secret : Nat
  system : ClientSystem
  packet : ChallengePacket
  os_eq : packet.os = system.os
  I_eq : packet.I = username

/-- The parameters as they stand in what the server sent. -/
structure ServerParameters where
  B : EphemeralKey
  g : Octets 1
  N : Octets 32
  s : Salt

def ServerParameters.of (wire : Buffer) : ServerParameters :=
  ⟨AuthLogonChallengeS.BOf wire, AuthLogonChallengeS.gOf wire, AuthLogonChallengeS.NOf wire,
    AuthLogonChallengeS.sOf wire⟩

/-- `M2` of `sAuthLogonProof_S` as a client reads it. -/
def AuthLogonProofS.M2Of (wire : Buffer) : Digest := wire.slice 2 20 (by decide)

namespace Client

variable (H : Hash) (client : Client)

def A : EphemeralKey := Agreement.Client.A client.secret

def K (r : ServerParameters) : SessionKey :=
  Agreement.Client.K H client.username client.password r.s client.secret r.B

def M1 (r : ServerParameters) : Digest :=
  Agreement.Client.M1 H client.username client.password r.s client.secret r.B

/-- The answer to a challenge the server accepted; this client knows its group. -/
def answer (wire : Buffer) : Option Bytes :=
  if wire.get 0 = AUTH_LOGON_CHALLENGE ∧ wire.get 2 = WOW_SUCCESS ∧
      (ServerParameters.of wire).g = SRP6.g ∧ (ServerParameters.of wire).N = SRP6.N then
    some (proofPacket client.A (client.M1 H (.of wire))
      (H (client.A.bytes ++ client.system.versionHash.bytes)))
  else none

/-- The server has proved that it has the key. -/
def accepts (r : ServerParameters) (wire : Buffer) : Bool :=
  wire.get 0 = AUTH_LOGON_PROOF && wire.get 1 = WOW_SUCCESS &&
    AuthLogonProofS.M2Of wire = H (client.A.bytes ++ (client.M1 H r).bytes ++ (client.K H r).bytes)

end Client

/-- What both ends hash for `M1`. -/
def proofMessage (H : Hash) (I : Digest) (s : Salt) (A B : EphemeralKey) (K : SessionKey) : Bytes :=
  (bitXor (H SRP6.N.bytes) (H SRP6.g.bytes)).bytes ++ I.bytes ++ s.bytes ++ A.bytes ++ B.bytes ++
    K.bytes

/-- Two messages with different salts differ. -/
theorem proofMessage_ne (H : Hash) (I : Digest) {s s' : Salt} (h : s ≠ s')
    (A A' B B' : EphemeralKey) (K K' : SessionKey) :
    proofMessage H I s A B K ≠ proofMessage H I s' A' B' K' := by
  intro heq
  simp only [proofMessage, List.append_assoc] at heq
  have hrest := List.append_cancel_left (List.append_cancel_left heq)
  exact h (Octets.ext (List.append_inj_left hrest (by simp)))

/-- The buffers handed to `async_write`. -/
def Session.wires (s : Session) : List Buffer :=
  s.calls.filterMap fun
    | .asyncWrite _ wire => some wire
    | _ => none

/-! ## The packets of the proof -/

section

variable (A : EphemeralKey) (M1 crc_hash : Digest) (buff : Buffer)

theorem length_proofPacket : (proofPacket A M1 crc_hash).length = 75 := by simp [proofPacket]

theorem proofPacket_fits : (proofPacket A M1 crc_hash).length ≤ 1024 := by
  rw [length_proofPacket]
  decide

/-- What the server reads from a proof. -/
theorem decode_proofPacket :
    let received := buff.overwrite (proofPacket A M1 crc_hash) (proofPacket_fits A M1 crc_hash)
    received.get 0 = AUTH_LOGON_PROOF ∧ AuthLogonProofC.AOf received = A ∧
      AuthLogonProofC.M1Of received = M1 ∧ AuthLogonProofC.crcOf received = crc_hash := by
  intro received
  have hbytes : received.bytes = [1] ++ (A.bytes ++ (M1.bytes ++ (crc_hash.bytes ++
      ([0, 0] ++ buff.bytes.drop 75)))) := by
    simp [received, Octets.overwrite, proofPacket]
  refine ⟨?_, ?_, ?_, ?_⟩
  · rw [Octets.get, hbytes]
    rfl
  · exact Octets.ext (ChallengePacket.field_of_split [1] _ hbytes rfl A.length_bytes)
  · refine Octets.ext (ChallengePacket.field_of_split ([1] ++ A.bytes) (crc_hash.bytes ++
      ([0, 0] ++ buff.bytes.drop 75)) ?_ (by simp; rfl) M1.length_bytes)
    rw [hbytes]
    simp
  · refine Octets.ext (ChallengePacket.field_of_split ([1] ++ A.bytes ++ M1.bytes)
      ([0, 0] ++ buff.bytes.drop 75) ?_ (by simp; rfl) crc_hash.length_bytes)
    rw [hbytes]
    simp

end

/-! ## The server between the two packets -/

/-- A session that waits for the proof of a client. -/
structure Waiting (client : Client) (srp : SRP6) (s : Session) : Prop where
  live : s.live = true
  srp6 : s.conn.srp6 = some srp
  os : s.conn.os = client.system.name
  localizationName : s.conn.localizationName = client.packet.country.bytes.reverse
  userName : s.conn.userName = client.username

variable (H : Hash)

theorem Session.step_eq {s : Session} (h : s.live = true) (env : Env) (read : Read) :
    s.step H ⟨env, read⟩ = s.after (s.conn.receive read) read.data.length
      (handleRead H env (s.conn.receive read) false read.data.length) := by
  simp only [Session.step, h, if_true]

theorem Session.wires_after (s : Session) (conn : Conn) (n : Nat) (out : Outcome) :
    (s.after conn n out).wires = s.wires ++ out.calls.filterMap fun
      | .asyncWrite _ wire => some wire
      | _ => none := by
  simp [Session.wires]

theorem Session.statements_after (s : Session) (conn : Conn) (n : Nat) (out : Outcome) :
    (s.after conn n out).statements = s.statements ++ out.calls.filter Call.isStatement := by
  simp [Session.statements]

theorem ClientSystem.osOfBytes_os (system : ClientSystem) :
    osOfBytes (some system.os) = system.name := by
  cases system <;> decide

theorem ClientSystem.versionHashOf_name (system : ClientSystem) :
    versionHashOf system.name false = some system.versionHash := by
  cases system with
  | windows => rfl
  | mac =>
    have hne : text "OSX" ≠ text "Win" := by decide
    simp [versionHashOf, ClientSystem.name, ClientSystem.versionHash, hne]

/-- The challenge of a client whose account is there, once it lies in the buffer. -/
theorem Client.challenged_of (client : Client) (s : Session) {conn : Conn} {env : Env}
    {row : AccountRow} (n : Nat) (hcmd : conn.buff.get 0 = AUTH_LOGON_CHALLENGE)
    (hsizes : AuthLogonChallengeC.sizeMismatch conn.buff = false)
    (hlogin : AuthLogonChallengeC.login conn.buff = client.username)
    (hos : AuthLogonChallengeC.osOf conn.buff = client.system.os)
    (hcountry : AuthLogonChallengeC.countryOf conn.buff = client.packet.country)
    (hfound : env.account client.username = some row) (hname : row.username = client.username) :
    let s' := s.after conn n (handleRead H env conn false n)
    Waiting client (instanceOf H env.secret row) s' ∧ s'.wires = s.wires ++ [s'.conn.buff] ∧
      s'.statements = s.statements ++ [.query client.username (some row)] ∧
      s'.conn.buff = (challengedConn H env conn row).buff := by
  have hread := (handleRead_challenge H env conn n hcmd).trans
    (handleChallenge_challenged H env conn row hsizes (by rw [hlogin, hfound]))
  rw [hread, hlogin]
  refine ⟨⟨?_, rfl, ?_, ?_, hname⟩, ?_, ?_, rfl⟩
  · simp [Session.live, Session.after, Call.isAsyncRead, handleWrite]
  · rw [← client.system.osOfBytes_os, ← hos]
    rfl
  · rw [← hcountry]
    rfl
  · rw [Session.wires_after]
    rfl
  · rw [Session.statements_after]
    rfl

/-- The challenge of a client whose account is there. -/
theorem Client.challenged (client : Client) {s : Session} (hlive : s.live = true) {env : Env}
    {row : AccountRow} (hfound : env.account client.username = some row)
    (hname : row.username = client.username) :
    let s' := s.step H ⟨env, client.packet.read⟩
    Waiting client (instanceOf H env.secret row) s' ∧ s'.wires = s.wires ++ [s'.conn.buff] ∧
      s'.statements = s.statements ++ [.query client.username (some row)] ∧
      s'.conn.buff = (challengedConn H env (s.conn.receive client.packet.read) row).buff := by
  obtain ⟨hcmd, hsizes, hlogin, hos, hcountry⟩ := client.packet.decode_encode s.conn.buff
  have hbuff : s.conn.buff.overwrite client.packet.encode client.packet.fits_buffer =
      (s.conn.receive client.packet.read).buff := rfl
  rw [hbuff] at hcmd hsizes hlogin hos hcountry
  rw [s.step_eq H hlive]
  have h := client.challenged_of H s client.packet.read.data.length hcmd hsizes
    (hlogin.trans client.I_eq) (hos.trans client.os_eq) hcountry hfound hname
  exact h

/-- What is neither packet changes nothing a login depends on. -/
theorem Waiting.ignored {client : Client} {srp : SRP6} {s : Session} (h : Waiting client srp s)
    {i : Input} (hi : i.Ignored) :
    Waiting client srp (s.step H i) ∧ (s.step H i).wires = s.wires ∧
      (s.step H i).statements = s.statements := by
  have hget : (s.conn.receive i.read).buff.get 0 = i.read.data.getD 0 0 := by
    simp [Conn.receive, Octets.overwrite, Octets.get, List.getD_eq_getElem?_getD,
      List.getElem?_append_left i.read.pos]
  have hstep : s.step H i = s.after (s.conn.receive i.read) i.read.data.length
      ⟨[.asyncRead], .ok (s.conn.receive i.read)⟩ := by
    rw [← handleRead_ignored H i.env _ i.read.data.length (hget ▸ hi.1) (hget ▸ hi.2)]
    exact s.step_eq H h.live i.env i.read
  rw [hstep]
  refine ⟨⟨?_, h.srp6, h.os, h.localizationName, h.userName⟩, ?_, ?_⟩
  · simp [Session.live, Session.after, Call.isAsyncRead]
  · rw [Session.wires_after]
    exact List.append_nil _
  · rw [Session.statements_after]
    exact List.append_nil _

theorem Waiting.ignored_run {client : Client} {srp : SRP6} {others : List Input}
    (hothers : ∀ i ∈ others, i.Ignored) {s : Session} (h : Waiting client srp s) :
    Waiting client srp (run (Session.step H) s others) ∧
      (run (Session.step H) s others).wires = s.wires ∧
      (run (Session.step H) s others).statements = s.statements := by
  induction others generalizing s with
  | nil => exact ⟨h, rfl, rfl⟩
  | cons i others ih =>
    obtain ⟨hwaiting, hwires, hstatements⟩ := h.ignored H (hothers i List.mem_cons_self)
    obtain ⟨hwaiting', hwires', hstatements'⟩ :=
      ih (fun j hj => hothers j (List.mem_cons_of_mem i hj)) hwaiting
    exact ⟨hwaiting', hwires'.trans hwires, hstatements'.trans hstatements⟩

/-! ## The two answers -/

/-- The client can read the answer to its challenge. -/
theorem Client.answer_challenged (client : Client) (env : Env) (conn : Conn) (row : AccountRow) :
    client.answer H (challengedConn H env conn row).buff = some (proofPacket client.A
      (client.M1 H (.of (challengedConn H env conn row).buff))
      (H (client.A.bytes ++ client.system.versionHash.bytes))) := by
  obtain ⟨-, hg, hN, -⟩ := challengedConn_fields H env conn row
  have hget : ∀ i < 3, (challengedConn H env conn row).buff.get i =
      (challengeFeedback env.first_feedback (instanceOf H env.secret row)).encode.getD i 0 := by
    intro i hi
    have htake := congrArg (fun l => l.getD i 0) (challengedConn_take H env conn row)
    have hlt : i < AuthLogonChallengeS.sizeof := lt_trans hi (by decide)
    simpa [Octets.get, List.getD_eq_getElem?_getD, List.getElem?_take, hlt] using htake
  rw [Client.answer, if_pos]
  exact ⟨hget 0 (by decide), hget 2 (by decide), hg.trans strncpy_g, hN.trans strncpy_N⟩

/-- What the client reads of the parameters. -/
theorem ServerParameters.of_challenged (env : Env) (conn : Conn) (row : AccountRow) :
    (ServerParameters.of (challengedConn H env conn row).buff).B = (instanceOf H env.secret row).B ∧
      (ServerParameters.of (challengedConn H env conn row).buff).s = strncpy row.salt := by
  obtain ⟨hB, -, -, hs⟩ := challengedConn_fields H env conn row
  exact ⟨hB, hs⟩

/-- The fields of an accepted proof in the answer. -/
theorem updatedConn_fields (conn : Conn) (A : EphemeralKey) (M1 : Digest) :
    (updatedConn H conn A M1).buff.get 0 = AUTH_LOGON_PROOF ∧
      (updatedConn H conn A M1).buff.get 1 = WOW_SUCCESS ∧
      AuthLogonProofS.M2Of (updatedConn H conn A M1).buff =
        SRP6.getSessionVerifier H A M1 conn.sessionKey := by
  have hbytes : (updatedConn H conn A M1).buff.bytes = [AUTH_LOGON_PROOF, 0] ++
      ((SRP6.getSessionVerifier H A M1 conn.sessionKey).bytes ++
        ((proofSuccess (SRP6.getSessionVerifier H A M1 conn.sessionKey)).encode.drop 22 ++
          conn.buff.bytes.drop 32)) := by
    simp [updatedConn, Conn.prepare, Octets.overwrite, AuthLogonProofS.encode, proofSuccess,
      List.take_of_length_le]
  refine ⟨?_, ?_, ?_⟩
  · rw [Octets.get, hbytes]
    rfl
  · rw [Octets.get, hbytes]
    rfl
  · exact Octets.ext (ChallengePacket.field_of_split [AUTH_LOGON_PROOF, 0] _ hbytes rfl
      (Octets.length_bytes _))

/-- The second byte of a refusal. -/
theorem rejectedConn_error (env : Env) (conn : Conn) (srp : SRP6) :
    (rejectedConn env conn srp).buff.get 1 = WOW_FAIL_UNKNOWN_ACCOUNT := by
  have hbytes : (rejectedConn env conn srp).buff.bytes =
      [AUTH_LOGON_PROOF, WOW_FAIL_UNKNOWN_ACCOUNT] ++ conn.buff.bytes.drop 2 := by
    simp [rejectedConn, Conn.prepare, Octets.overwrite, AuthLogonProofS.encode, proofError]
  rw [Octets.get, hbytes]
  rfl

/-- A proof that the instance accepts, from a client of a system the server knows. -/
theorem Waiting.proved_of {client : Client} {srp : SRP6} {s : Session} {conn : Conn} {env : Env}
    {address : Bytes} {M1 : Digest} {K : SessionKey} (n : Nat)
    (hcmd : conn.buff.get 0 = AUTH_LOGON_PROOF) (hA : AuthLogonProofC.AOf conn.buff = client.A)
    (hM1 : AuthLogonProofC.M1Of conn.buff = M1)
    (hcrc : AuthLogonProofC.crcOf conn.buff =
      H (client.A.bytes ++ client.system.versionHash.bytes))
    (hsrp : conn.srp6 = some srp) (hu : srp.used = false) (hos : conn.os = client.system.name)
    (hlocale : conn.localizationName = client.packet.country.bytes.reverse)
    (huser : conn.userName = client.username) (haddress : env.remoteAddress = some address)
    (hv : SRP6.verdict H srp client.A M1 = some K) :
    ∃ wire, (s.after conn n (handleRead H env conn false n)).wires = s.wires ++ [wire] ∧
      (s.after conn n (handleRead H env conn false n)).statements = s.statements ++
        [.directExecute K address client.packet.country.bytes.reverse client.system.name
          client.username] ∧
      wire.get 0 = AUTH_LOGON_PROOF ∧ wire.get 1 = WOW_SUCCESS ∧
      AuthLogonProofS.M2Of wire = H (client.A.bytes ++ M1.bytes ++ K.bytes) := by
  have hversion : verifyVersion H (acceptedConn conn srp K).os client.A
      (AuthLogonProofC.crcOf (acceptedConn conn srp K).buff) false = .ok true := by
    rw [show (acceptedConn conn srp K).os = client.system.name from hos,
      verifyVersion_of_hash H client.system.versionHashOf_name,
      show (acceptedConn conn srp K).buff = conn.buff from rfl, hcrc, decide_eq_true rfl]
  have hread := handleRead_proof H env conn n hcmd
  rw [handleProof_accepted H env conn srp K hsrp hu (by rw [hA, hM1, hv]), hA, hM1,
    handleVersion_updated H env _ client.A M1 hversion haddress] at hread
  rw [hread]
  obtain ⟨h0, h1, hM2⟩ := updatedConn_fields H (acceptedConn conn srp K) client.A M1
  refine ⟨(updatedConn H (acceptedConn conn srp K) client.A M1).buff, ?_, ?_, h0, h1, hM2⟩
  · rw [Session.wires_after]
    rfl
  · rw [Session.statements_after, ← hos, ← hlocale, ← huser]
    rfl

/-- A proof that the instance refuses. -/
theorem Waiting.refused_of {client : Client} {srp : SRP6} {s : Session} {conn : Conn} {env : Env}
    {M1 : Digest} (n : Nat) (hcmd : conn.buff.get 0 = AUTH_LOGON_PROOF)
    (hA : AuthLogonProofC.AOf conn.buff = client.A) (hM1 : AuthLogonProofC.M1Of conn.buff = M1)
    (hsrp : conn.srp6 = some srp) (hu : srp.used = false)
    (hv : SRP6.verdict H srp client.A M1 = none) :
    ∃ wire, (s.after conn n (handleRead H env conn false n)).wires = s.wires ++ [wire] ∧
      (s.after conn n (handleRead H env conn false n)).statements = s.statements ∧
      wire.get 1 = WOW_FAIL_UNKNOWN_ACCOUNT := by
  have hread := handleRead_proof H env conn n hcmd
  rw [handleProof_rejected H env conn srp hsrp hu (by rw [hA, hM1, hv])] at hread
  rw [hread]
  refine ⟨(rejectedConn env conn srp).buff, ?_, ?_, rejectedConn_error env conn srp⟩
  · rw [Session.wires_after]
    rfl
  · rw [Session.statements_after]
    exact List.append_nil _

/-! ## The login -/

/-- The instance for a registered account serves the client that knows the password. -/
theorem serves_of_registered {client : Client} {row : AccountRow} {random : Salt}
    (hregistered : SRP6.makeRegistrationData H client.username client.password random =
      some (row.salt, row.verifier)) (hname : row.username = client.username)
    (secret : Octets 32) :
    Agreement.Serves H client.username client.password (instanceOf H secret row) := by
  obtain ⟨v, hv, heq⟩ := Option.map_eq_some_iff.mp hregistered
  obtain ⟨hrandom, rfl⟩ := Prod.mk.inj heq
  rw [SRP6.calculateVerifier_eq] at hv
  refine ⟨congrArg H hname, ?_, Octets.value_encode (SRP6.mod_N_fits _)⟩
  change row.verifier.value = _
  rw [← Option.some.inj hv, Octets.value_encode (SRP6.mod_N_fits _), hrandom]
  rfl

/-- A session that waits for a client gets the client's proof. -/
theorem Waiting.proof {client : Client} {srp : SRP6} {s : Session} (h : Waiting client srp s)
    (hu : srp.used = false) (M1 : Digest) (env : Env) (read : Read)
    (hread : read.data = proofPacket client.A M1
      (H (client.A.bytes ++ client.system.versionHash.bytes))) :
    (SRP6.verdict H srp client.A M1 = none →
      ∃ wire, (s.step H ⟨env, read⟩).wires = s.wires ++ [wire] ∧
        (s.step H ⟨env, read⟩).statements = s.statements ∧
        wire.get 1 = WOW_FAIL_UNKNOWN_ACCOUNT) ∧
      ∀ K address, SRP6.verdict H srp client.A M1 = some K → env.remoteAddress = some address →
        ∃ wire, (s.step H ⟨env, read⟩).wires = s.wires ++ [wire] ∧
          (s.step H ⟨env, read⟩).statements = s.statements ++
            [.directExecute K address client.packet.country.bytes.reverse client.system.name
              client.username] ∧
          wire.get 0 = AUTH_LOGON_PROOF ∧ wire.get 1 = WOW_SUCCESS ∧
          AuthLogonProofS.M2Of wire = H (client.A.bytes ++ M1.bytes ++ K.bytes) := by
  have hdecode := decode_proofPacket client.A M1
    (H (client.A.bytes ++ client.system.versionHash.bytes)) s.conn.buff
  have hbuff : s.conn.buff.overwrite (proofPacket client.A M1
      (H (client.A.bytes ++ client.system.versionHash.bytes))) (proofPacket_fits _ _ _) =
        (s.conn.receive read).buff := by
    simp only [Conn.receive, hread]
  rw [hbuff] at hdecode
  obtain ⟨hcmd, hA, hM1, hcrc⟩ := hdecode
  rw [s.step_eq H h.live env read]
  exact ⟨fun hv => Waiting.refused_of H read.data.length hcmd hA hM1 h.srp6 hu hv,
    fun K address hv haddress => Waiting.proved_of H read.data.length hcmd hA hM1 hcrc h.srp6 hu
      h.os h.localizationName h.userName haddress hv⟩

/-- A client with a registered account logs in over any session that has a read outstanding,
whatever the session did before and whatever is ignored between its two packets. If the salt
survives its copy, the account is updated with the key of the client, and the client accepts
the server's proof of that key. If it does not, the two ends hash different messages, and
unless these collide nothing is updated and the client is refused. -/
theorem honest_login (client : Client) {row : AccountRow} {random : Salt}
    (hregistered : SRP6.makeRegistrationData H client.username client.password random =
      some (row.salt, row.verifier)) (hname : row.username = client.username)
    {s : Session} (hlive : s.live = true) {env env' : Env}
    (hfound : env.account client.username = some row) {address : Bytes}
    (haddress : env'.remoteAddress = some address) {others : List Input}
    (hothers : ∀ i ∈ others, i.Ignored) :
    ∃ wire packet, (s.step H ⟨env, client.packet.read⟩).wires = s.wires ++ [wire] ∧
      client.answer H wire = some packet ∧
      ∀ read : Read, read.data = packet →
        let r := ServerParameters.of wire
        let srp := instanceOf H env.secret row
        let before := run (Session.step H) (s.step H ⟨env, client.packet.read⟩) others
        let finished := before.step H ⟨env', read⟩
        (ZeroTailed row.salt →
          ∃ wire', finished.wires = before.wires ++ [wire'] ∧ client.accepts H r wire' = true ∧
            finished.statements = before.statements ++
              [.directExecute (client.K H r) address client.packet.country.bytes.reverse
                client.system.name client.username]) ∧
        (¬ ZeroTailed row.salt →
          proofMessage H srp.I srp.s client.A srp.B (SRP6.keyOf H srp client.A) ≠
            proofMessage H (H client.username) r.s client.A r.B (client.K H r) ∧
          (H (proofMessage H srp.I srp.s client.A srp.B (SRP6.keyOf H srp client.A)) ≠
              H (proofMessage H (H client.username) r.s client.A r.B (client.K H r)) →
            ∃ wire', finished.wires = before.wires ++ [wire'] ∧
              client.accepts H r wire' = false ∧ finished.statements = before.statements)) := by
  obtain ⟨hwaiting, hwires, -, hbuff⟩ := client.challenged H hlive hfound hname
  obtain ⟨hbefore, -, -⟩ := hwaiting.ignored_run H hothers
  have hserves := serves_of_registered H hregistered hname env.secret
  have hanswer := client.answer_challenged H env (s.conn.receive client.packet.read) row
  obtain ⟨hB, hs⟩ := ServerParameters.of_challenged H env (s.conn.receive client.packet.read) row
  rw [← hbuff] at hanswer hB hs
  refine ⟨_, _, hwires, hanswer, fun read hread => ?_⟩
  intro r srp before finished
  obtain ⟨hrefused, hproved⟩ := hbefore.proof H rfl (client.M1 H r) env' read hread
  constructor
  · intro hzero
    have hsalt : r.s = srp.s := hs.trans ((strncpy_eq_iff _).mpr hzero)
    have hM1 : client.M1 H r = Agreement.Client.M1 H client.username client.password srp.s
        client.secret srp.B := by
      rw [Client.M1, hsalt, hB]
    have hK : client.K H r = Agreement.Client.K H client.username client.password srp.s
        client.secret srp.B := by
      rw [Client.K, hsalt, hB]
    have hv : SRP6.verdict H srp client.A (client.M1 H r) = some (client.K H r) := by
      rw [hM1, hK]
      exact hserves.accepts client.secret
    obtain ⟨wire, hw, hst, h0, h1, hM2⟩ := hproved _ address hv haddress
    exact ⟨wire, hw, by simp [Client.accepts, h0, h1, hM2], hst⟩
  · intro hzero
    have hsalt : srp.s ≠ r.s := fun heq => hzero ((strncpy_eq_iff _).mp (hs.symm.trans heq.symm))
    have hI : srp.I = H client.username := hserves.I
    refine ⟨hI ▸ proofMessage_ne H srp.I hsalt _ _ _ _ _ _, fun hcollide => ?_⟩
    have hv : SRP6.verdict H srp client.A (client.M1 H r) = none :=
      (if_neg (Agreement.client_A_not_rejected client.secret)).trans (if_neg hcollide)
    obtain ⟨wire, hw, hst, h1⟩ := hrefused hv
    exact ⟨wire, hw, by simp [Client.accepts, h1, WOW_FAIL_UNKNOWN_ACCOUNT, WOW_SUCCESS], hst⟩

/-! The user `A` with the password `B`, on a Windows client. -/

def Client.sample : Client where
  username := text "A"
  password := text "B"
  secret := 2
  system := .windows
  packet := ⟨8, .zero 4, .zero 3, .zero 2, .zero 4, osWin, .zero 4, .zero 4, .zero 4, text "A",
    by decide⟩
  os_eq := rfl
  I_eq := rfl

/-- The row that the registration with a zero salt makes. -/
def AccountRow.sample : AccountRow where
  username := text "A"
  salt := .zero 32
  verifier := .encode 32 (SRP6._g ^ Agreement.Client.x zeroHash (text "A") (text "B") (.zero 32) %
    SRP6._N)

/-- A login on a new connection, with a byte between the packets that is no command. -/
theorem honest_login_sample :
    ∃ wire packet, ((Session.start (.zero 1024)).step zeroHash
        ⟨.withRow .sample, Client.sample.packet.read⟩).wires = [wire] ∧
      Client.sample.answer zeroHash wire = some packet ∧
      ∀ read : Read, read.data = packet →
        let before := run (Session.step zeroHash) ((Session.start (.zero 1024)).step zeroHash
          ⟨.withRow .sample, Client.sample.packet.read⟩)
          [⟨.sample, [7], by decide, by decide⟩]
        let finished := before.step zeroHash ⟨.sample, read⟩
        ∃ wire', finished.wires = before.wires ++ [wire'] ∧
          Client.sample.accepts zeroHash (.of wire) wire' = true ∧
          finished.statements = before.statements ++
            [.directExecute (Client.sample.K zeroHash (.of wire)) (text "127.0.0.1")
              [0, 0, 0, 0] (text "Win") (text "A")] := by
  have hregistered : SRP6.makeRegistrationData zeroHash Client.sample.username
      Client.sample.password (.zero 32) =
        some (AccountRow.sample.salt, AccountRow.sample.verifier) := by
    rw [SRP6.makeRegistrationData, SRP6.calculateVerifier_eq]
    rfl
  have hlive : (Session.start (.zero 1024)).live = true := rfl
  have hfound : (Env.withRow .sample).account Client.sample.username = some .sample := rfl
  have haddress : Env.sample.remoteAddress = some (text "127.0.0.1") := rfl
  have hothers : ∀ i ∈ [(⟨.sample, [7], by decide, by decide⟩ : Input)], i.Ignored := by
    intro i hi
    rw [List.mem_singleton.mp hi]
    exact ⟨by decide, by decide⟩
  have hsalt : ZeroTailed AccountRow.sample.salt := fun b hb =>
    List.eq_of_mem_replicate ((List.dropWhile_suffix _).subset hb)
  obtain ⟨wire, packet, hwires, hanswer, hlogin⟩ :=
    honest_login zeroHash .sample hregistered rfl hlive hfound haddress hothers
  refine ⟨wire, packet, hwires, hanswer, fun read hread => ?_⟩
  exact (hlogin read hread).1 hsalt

end Logon

end Mpool
