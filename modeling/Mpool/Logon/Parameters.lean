import Mpool.Logon.Session

/-! The SRP6 parameters in the answer to a challenge. `B` is copied with `memcpy`,
`g`, `N` and `s` with `strncpy`, which stops at the first zero byte of its source
and fills the rest with zeros. -/

namespace Mpool.Logon

/-! ## `sAuthLogonChallenge_S` as a client reads it -/

namespace AuthLogonChallengeS

def offB : Nat := 3
def offG : Nat := offB + 32 + 1
def offN : Nat := offG + 1 + 1
def offS : Nat := offN + 32
def sizeof : Nat := offS + 32 + 16 + 1

def BOf (buff : Buffer) : Octets 32 := buff.slice offB 32 (by decide)
def gOf (buff : Buffer) : Octets 1 := buff.slice offG 1 (by decide)
def NOf (buff : Buffer) : Octets 32 := buff.slice offN 32 (by decide)
def sOf (buff : Buffer) : Octets 32 := buff.slice offS 32 (by decide)

end AuthLogonChallengeS

open AuthLogonChallengeS

/-- The four parameters decoded from `buff` are those of the instance. -/
def CarriesParameters (buff : Buffer) (srp : SRP6) : Prop :=
  BOf buff = srp.B ∧ gOf buff = SRP6.g ∧ NOf buff = SRP6.N ∧ sOf buff = srp.s

/-- Nothing but zeros stands behind the first zero byte. -/
def ZeroTailed {n : Nat} (a : Octets n) : Prop := ∀ b ∈ a.bytes.dropWhile (· ≠ 0), b = 0

instance {n : Nat} (a : Octets n) : Decidable (ZeroTailed a) :=
  inferInstanceAs (Decidable (∀ b ∈ a.bytes.dropWhile (· ≠ 0), b = 0))

/-- The packet in `buff` is a challenge with agreeing sizes for the account `row`. -/
structure Succeeds (env : Env) (conn : Conn) (row : AccountRow) : Prop where
  cmd : conn.buff.get 0 = AUTH_LOGON_CHALLENGE
  sizes : AuthLogonChallengeC.sizeMismatch conn.buff = false
  found : env.account (AuthLogonChallengeC.login conn.buff) = some row

/-! ## The copy of one field -/

section strncpy

variable {n : Nat} (a : Octets n)

theorem strncpy_split :
    (strncpy a).bytes = a.bytes.takeWhile (· ≠ 0) ++
      List.replicate (a.bytes.dropWhile (· ≠ 0)).length 0 := by
  have hlen := congrArg List.length (List.takeWhile_append_dropWhile (p := (· ≠ 0)) (l := a.bytes))
  rw [List.length_append, a.length_bytes] at hlen
  have hrest : n - (a.bytes.takeWhile (· ≠ 0)).length =
      (a.bytes.dropWhile (· ≠ 0)).length := by omega
  rw [← hrest]
  rfl

/-- The copy is faithful exactly on arrays with nothing behind a zero byte. -/
theorem strncpy_eq_iff : strncpy a = a ↔ ZeroTailed a := by
  have hsplit := List.takeWhile_append_dropWhile (p := (· ≠ 0)) (l := a.bytes)
  rw [Octets.ext_iff, strncpy_split]
  constructor
  · intro h
    have htail := List.append_cancel_left (h.trans hsplit.symm)
    intro b hb
    rw [← htail] at hb
    exact List.eq_of_mem_replicate hb
  · intro h
    rw [← List.eq_replicate_of_mem h]
    exact hsplit

end strncpy

theorem strncpy_g : strncpy SRP6.g = SRP6.g := by decide

theorem strncpy_N : strncpy SRP6.N = SRP6.N := by decide

/-! ## The answer -/

variable (H : Hash)

theorem challengedConn_take (env : Env) (conn : Conn) (row : AccountRow) :
    (challengedConn H env conn row).buff.bytes.take sizeof =
      (challengeFeedback env.first_feedback (instanceOf H env.secret row)).encode := by
  have hlen : (challengeFeedback env.first_feedback (instanceOf H env.secret row)).encode.take 119 =
      (challengeFeedback env.first_feedback (instanceOf H env.secret row)).encode :=
    List.take_of_length_le (by simp)
  have hsize : sizeof =
      (challengeFeedback env.first_feedback (instanceOf H env.secret row)).encode.length := by
    rw [AuthLogonChallengeS.length_encode]
    rfl
  simp only [challengedConn, Conn.prepare, Octets.overwrite, hlen]
  rw [hsize, List.take_left]

/-- A field inside the response, read from the response alone. -/
theorem drop_take_response (env : Env) (conn : Conn) (row : AccountRow) {off k : Nat}
    (h : off + k ≤ sizeof) :
    ((challengedConn H env conn row).buff.bytes.drop off).take k =
      ((challengeFeedback env.first_feedback (instanceOf H env.secret row)).encode.drop
        off).take k := by
  rw [← challengedConn_take, List.drop_take, List.take_take, Nat.min_eq_left (by omega)]

theorem challengedConn_fields (env : Env) (conn : Conn) (row : AccountRow) :
    BOf (challengedConn H env conn row).buff = (instanceOf H env.secret row).B ∧
    gOf (challengedConn H env conn row).buff = strncpy SRP6.g ∧
    NOf (challengedConn H env conn row).buff = strncpy SRP6.N ∧
    sOf (challengedConn H env conn row).buff = strncpy row.salt := by
  have hfield : ∀ off k, off + k ≤ sizeof →
      ((challengedConn H env conn row).buff.bytes.drop off).take k =
        ((challengeFeedback env.first_feedback (instanceOf H env.secret row)).encode.drop
          off).take k :=
    fun off k h => drop_take_response H env conn row h
  refine ⟨?_, ?_, ?_, ?_⟩
  all_goals
    ext1
    refine (hfield _ _ (by decide)).trans ?_
    simp [AuthLogonChallengeS.encode, challengeFeedback, instanceOf, offB, offG, offN, offS,
      List.drop_append, List.drop_eq_nil_of_le]

/-- What a successful challenge leaves is what `challengedConn` says. -/
theorem handleRead_succeeds {env : Env} {conn : Conn} {row : AccountRow}
    (h : Succeeds env conn row) (n : Nat) :
    (handleRead H env conn false n).result = .ok (challengedConn H env conn row) := by
  rw [handleRead_challenge H env conn n h.cmd,
    handleChallenge_challenged H env conn row h.sizes h.found]

theorem carriesParameters_iff (env : Env) (conn : Conn) (row : AccountRow) :
    CarriesParameters (challengedConn H env conn row).buff (instanceOf H env.secret row) ↔
      ZeroTailed row.salt := by
  obtain ⟨hB, hg, hN, hs⟩ := challengedConn_fields H env conn row
  rw [CarriesParameters, hB, hg, hN, hs, strncpy_g, strncpy_N, ← strncpy_eq_iff]
  simp [instanceOf]

theorem salt_of_response {env env' : Env} {conn conn' : Conn} {row row' : AccountRow}
    (hz : ZeroTailed row.salt) (hz' : ZeroTailed row'.salt)
    (h : (challengedConn H env conn row).buff.bytes.take sizeof =
      (challengedConn H env' conn' row').buff.bytes.take sizeof) : row.salt = row'.salt := by
  obtain ⟨-, -, -, hs⟩ := challengedConn_fields H env conn row
  obtain ⟨-, -, -, hs'⟩ := challengedConn_fields H env' conn' row'
  rw [(strncpy_eq_iff _).mpr hz] at hs
  rw [(strncpy_eq_iff _).mpr hz'] at hs'
  rw [← hs, ← hs']
  exact Octets.slice_of_take h (by decide) (by decide)

/-- A successful challenge succeeds in any surroundings; its answer carries the
parameters of the instance it created exactly when the salt has nothing but
zeros behind its first zero byte, and answers for two such salts differ. -/
theorem parameters_carried_iff {env : Env} {conn : Conn} {row : AccountRow}
    (h : Succeeds env conn row) (n : Nat) :
    ∃ c srp, (handleRead H env conn false n).result = .ok c ∧ c.srp6 = some srp ∧
      srp.s = row.salt ∧ (CarriesParameters c.buff srp ↔ ZeroTailed row.salt) ∧
      ∀ {env' : Env} {conn' : Conn} {row' : AccountRow} {n' : Nat} {c' : Conn},
        Succeeds env' conn' row' → (handleRead H env' conn' false n').result = .ok c' →
        ZeroTailed row.salt → ZeroTailed row'.salt → row.salt ≠ row'.salt →
        c.buff.bytes.take c.data_len ≠ c'.buff.bytes.take c'.data_len := by
  refine ⟨challengedConn H env conn row, instanceOf H env.secret row,
    handleRead_succeeds H h n, rfl, rfl, carriesParameters_iff H env conn row, ?_⟩
  intro env' conn' row' n' c' h' hc' hz hz' hne heq
  rw [handleRead_succeeds H h' n'] at hc'
  cases hc'
  exact hne (salt_of_response H hz hz' heq)

/-! Two accounts that differ in the third byte of the salt, behind a zero byte. -/

def saltRow (third : UInt8) : AccountRow :=
  ⟨Util.text "A", ⟨[1, 0, third] ++ List.replicate 29 0, rfl⟩, .zero 32⟩

def Env.withRow (row : AccountRow) : Env := { Env.sample with account := fun _ => some row }

/-- A connection that has received a challenge of the name `A`. -/
def challengeReceived : Conn :=
  (Conn.create (.zero 1024)).receive (Input.challenge osWin (.zero 4) 65).read

theorem challengeReceived_succeeds (row : AccountRow) :
    Succeeds (.withRow row) challengeReceived row where
  cmd := by decide
  sizes := by decide
  found := rfl

theorem parameters_carried_zero :
    ∃ c srp, (handleRead zeroHash (.withRow (saltRow 0)) challengeReceived false 35).result =
      .ok c ∧ c.srp6 = some srp ∧ CarriesParameters c.buff srp := by
  obtain ⟨c, srp, hc, hsrp, -, hiff, -⟩ :=
    parameters_carried_iff zeroHash (challengeReceived_succeeds (saltRow 0)) 35
  exact ⟨c, srp, hc, hsrp, hiff.mpr (by decide +kernel)⟩

/-- Both accounts get the same answer, and it does not carry the salt of the first. -/
theorem salt_cut :
    (∃ c srp, (handleRead zeroHash (.withRow (saltRow 7)) challengeReceived false 35).result =
      .ok c ∧ c.srp6 = some srp ∧ ¬ CarriesParameters c.buff srp) ∧
    (saltRow 7).salt ≠ (saltRow 0).salt ∧
    (challengedConn zeroHash (.withRow (saltRow 7)) challengeReceived (saltRow 7)).buff.bytes.take
        sizeof =
      (challengedConn zeroHash (.withRow (saltRow 0)) challengeReceived (saltRow 0)).buff.bytes.take
        sizeof := by
  refine ⟨⟨_, _, handleRead_succeeds zeroHash (challengeReceived_succeeds (saltRow 7)) 35, rfl, ?_⟩,
    by decide, ?_⟩
  · rw [carriesParameters_iff]
    decide
  · have hcut : strncpy (saltRow 7).salt = strncpy (saltRow 0).salt := by decide
    rw [challengedConn_take, challengedConn_take]
    simp only [challengeFeedback, instanceOf, hcut]
    rfl

end Mpool.Logon
