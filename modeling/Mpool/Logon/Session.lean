import Mpool.Lib.Runs
import Mpool.Logon.Connection

/-! A connection over a sequence of completed reads. Each read puts at most 1024
bytes at the front of `buff`, leaves what lies behind them and calls
`handle_read`; the log keeps every call in order. A session ends with a fault,
or when no read is outstanding and the last reference to the connection goes. -/

namespace Mpool.Logon

open Runs
open Util (text)

/-- One completion of `async_read_some`. -/
structure Read where
  data : Bytes
  pos : 0 < data.length
  fits : data.length ≤ 1024

structure Input where
  env : Env
  read : Read

inductive Event where
  | received (buff : Buffer) (transferredBytes : Nat)
  | call (c : Call)

structure Session where
  conn : Conn
  reads : Nat
  fault : Option Fault
  log : List Event

def Conn.receive (conn : Conn) (r : Read) : Conn :=
  { conn with buff := conn.buff.overwrite r.data r.fits }

def Call.isAsyncRead : Call → Bool
  | .asyncRead => true
  | _ => false

namespace Session

/-- `start()` on a new connection. -/
def start (buff : Buffer) : Session where
  conn := .create buff
  reads := 1
  fault := none
  log := []

def live (s : Session) : Bool := s.fault.isNone && decide (0 < s.reads)

/-- The session after a handler call on `conn` with outcome `out`. -/
def after (s : Session) (conn : Conn) (n : Nat) (out : Outcome) : Session where
  conn := match out.result with
    | .ok c => c
    | .error _ => conn
  reads := s.reads - 1 + out.calls.countP Call.isAsyncRead
  fault := match out.result with
    | .ok _ => none
    | .error f => some f
  log := s.log ++ .received conn.buff n :: out.calls.map .call

variable (H : Hash)

def step (s : Session) (i : Input) : Session :=
  if s.live then
    let conn := s.conn.receive i.read
    s.after conn i.read.data.length (handleRead H i.env conn false i.read.data.length)
  else s

theorem step_of_not_live {s : Session} (h : s.live = false) (i : Input) : step H s i = s := by
  simp [step, h]

/-- Every step of a live session is one handler call. -/
theorem step_of_live {s : Session} (h : s.live = true) (i : Input) :
    ∃ out, Handled H i.env (s.conn.receive i.read) out ∧
      step H s i = s.after (s.conn.receive i.read) i.read.data.length out :=
  ⟨_, handleRead_handled H i.env _ i.read.data.length, by simp [step, h]⟩

theorem run_of_not_live {s : Session} (h : s.live = false) (is : List Input) :
    run (step H) s is = s :=
  run_invariant (P := (· = s)) (fun t i ht => by rw [ht, step_of_not_live H h]) rfl is

theorem live_fault {s : Session} (h : s.live = true) : s.fault = none := by
  simp only [live, Bool.and_eq_true, Option.isNone_iff_eq_none] at h
  exact h.1

/-! ## Order of challenges and proofs -/

/-- What a handled packet is for the order of the protocol. -/
inductive Kind where
  | challenge
  | proof
  | other
  deriving DecidableEq, Repr

/-- A challenge counts when its sizes agree and its account exists. -/
def kindOf (env : Env) (buff : Buffer) : Kind :=
  if buff.get 0 = AUTH_LOGON_CHALLENGE then
    if !AuthLogonChallengeC.sizeMismatch buff &&
        (env.account (AuthLogonChallengeC.login buff)).isSome then .challenge
    else .other
  else if buff.get 0 = AUTH_LOGON_PROOF then .proof
  else .other

/-- The packets of a run that `handle_read` is called on. -/
def handled : Session → List Input → List Kind
  | _, [] => []
  | s, i :: is =>
    if s.live then kindOf i.env (s.conn.receive i.read).buff :: handled (step H s i) is else []

/-- Each proof comes after a successful challenge and no other proof comes
between the two; the flag says that such a challenge is already there. -/
def ProofsAnswerChallenges : Bool → List Kind → Prop
  | _, [] => True
  | _, .challenge :: ks => ProofsAnswerChallenges true ks
  | armed, .proof :: ks => armed = true ∧ ProofsAnswerChallenges false ks
  | armed, .other :: ks => ProofsAnswerChallenges armed ks

/-- The session used an empty `_srp6` or asked an instance a second time. -/
def Misused (s : Session) : Prop :=
  s.fault = some .emptySrp6 ∨ s.fault = some (.assertion .usedOnlyOnce)

/-- An instance that has not verified anything yet. -/
def armed (conn : Conn) : Bool :=
  match conn.srp6 with
  | none => false
  | some srp => !srp.used

theorem handled_of_not_live {s : Session} (h : s.live = false) (is : List Input) :
    handled H s is = [] := by
  cases is <;> simp [handled, h]

theorem not_misused_of_fault_none {s : Session} (h : s.fault = none) : ¬ s.Misused := by
  simp [Misused, h]

theorem not_live_of_fault {s : Session} (h : s.fault ≠ none) : s.live = false := by
  cases hf : s.fault with
  | none => exact absurd hf h
  | some f => simp [live, hf]

/-- What one packet of each kind does to a live session. -/
def StepOf (s s' : Session) : Kind → Prop
  | .challenge => s'.fault = none ∧ armed s'.conn = true
  | .other => s'.fault = none ∧ armed s'.conn = armed s.conn
  | .proof =>
    if armed s.conn then
      s'.fault = none ∧ armed s'.conn = false ∨ s'.fault ≠ none ∧ ¬ s'.Misused
    else s'.Misused

/-- After an accepted `M1` the session goes on with a used instance or ends
with another fault. -/
theorem after_accepted {env : Env} {conn : Conn} {srp : SRP6} {A : EphemeralKey} {M1 : Digest}
    {out : Outcome} (s : Session) (c : Conn) (n : Nat) (calls : List Call)
    (hu : conn.srp6 = some { srp with used := true }) (h : Versioned H env conn A M1 out) :
    (s.after c n ⟨calls, out.result⟩).fault = none ∧
        armed (s.after c n ⟨calls, out.result⟩).conn = false ∨
      (s.after c n ⟨calls, out.result⟩).fault ≠ none ∧
        ¬ (s.after c n ⟨calls, out.result⟩).Misused := by
  cases h <;> simp [after, Misused, armed, versionConn, updatedConn, Conn.prepare, hu]

theorem step_kind {s : Session} (h : s.live = true) (i : Input) :
    StepOf s (step H s i) (kindOf i.env (s.conn.receive i.read).buff) := by
  obtain ⟨out, hout, hstep⟩ := step_of_live H h i
  rw [hstep]
  have hsame : (s.conn.receive i.read).srp6 = s.conn.srp6 := rfl
  generalize s.conn.receive i.read = conn at hout hsame
  cases hout with
  | ignored h0 h1 => simp [kindOf, h0, h1, StepOf, after, armed, hsame]
  | mismatch h0 hs => simp [kindOf, h0, hs, StepOf, after, armed, hsame]
  | unknown h0 hs ha =>
    simp [kindOf, h0, hs, ha, StepOf, after, armed, unknownConn, Conn.prepare, hsame]
  | challenged row h0 hs ha =>
    simp [kindOf, h0, hs, ha, StepOf, after, armed, challengedConn, Conn.prepare, instanceOf]
  | empty h1 hn =>
    rw [hsame] at hn
    simp [kindOf, h1, AUTH_LOGON_CHALLENGE, AUTH_LOGON_PROOF, StepOf, armed, hn, after, Misused]
  | reused srp h1 hn hu =>
    rw [hsame] at hn
    simp [kindOf, h1, AUTH_LOGON_CHALLENGE, AUTH_LOGON_PROOF, StepOf, armed, hn, hu, after,
      Misused]
  | rejected srp h1 hn hu hv =>
    rw [hsame] at hn
    simp [kindOf, h1, AUTH_LOGON_CHALLENGE, AUTH_LOGON_PROOF, StepOf, armed, hn, hu, after,
      rejectedConn, Conn.prepare]
  | accepted srp K h1 hn hu hv ho =>
    rw [hsame] at hn
    have hk : kindOf i.env conn.buff = .proof := by
      simp [kindOf, h1, AUTH_LOGON_CHALLENGE, AUTH_LOGON_PROOF]
    have harmed : armed s.conn = true := by simp [armed, hn, hu]
    rw [hk, StepOf, if_pos harmed]
    subst ho
    exact after_accepted H s conn _ _ rfl (handleVersion_versioned H i.env _ _ _)

/-- A run never uses `_srp6` while it is empty and never asks an instance a
second time exactly when every proof it handles answers a challenge of its own. -/
theorem not_misused_iff {s : Session} (h : s.fault = none) (is : List Input) :
    ¬ (run (step H) s is).Misused ↔ ProofsAnswerChallenges (armed s.conn) (handled H s is) := by
  induction is generalizing s with
  | nil => simp [handled, ProofsAnswerChallenges, not_misused_of_fault_none h]
  | cons i is ih =>
    cases hl : s.live with
    | false =>
      rw [run_of_not_live H hl, handled_of_not_live H hl]
      simp [ProofsAnswerChallenges, not_misused_of_fault_none h]
    | true =>
      have hk := step_kind H hl i
      have hstop : (step H s i).fault ≠ none →
          run (step H) (step H s i) is = step H s i ∧ handled H (step H s i) is = [] := by
        intro hf
        have hd := not_live_of_fault hf
        exact ⟨run_of_not_live H hd is, handled_of_not_live H hd is⟩
      rw [run_cons, handled, if_pos hl]
      cases hkind : kindOf i.env (s.conn.receive i.read).buff with
      | challenge =>
        rw [hkind] at hk
        rw [ih hk.1, hk.2, ProofsAnswerChallenges]
      | other =>
        rw [hkind] at hk
        rw [ih hk.1, hk.2, ProofsAnswerChallenges]
      | proof =>
        rw [hkind] at hk
        cases ha : armed s.conn with
        | false =>
          have hm : (step H s i).Misused := by simpa [StepOf, ha] using hk
          have hf : (step H s i).fault ≠ none := fun hn => not_misused_of_fault_none hn hm
          simp [ProofsAnswerChallenges, (hstop hf).1, hm]
        | true =>
          simp only [StepOf, ha, ↓reduceIte] at hk
          rcases hk with ⟨hf, hu⟩ | ⟨hf, hm⟩
          · rw [ih hf, hu]
            simp [ProofsAnswerChallenges]
          · rw [(hstop hf).1, (hstop hf).2]
            simp [ProofsAnswerChallenges, hm]

/-- The proofs of a new connection's run are in order exactly when the run never
dereferences an empty `_srp6` and never fails the `ASSERT` on `_used`. -/
theorem protocol_order_safe_iff (buff : Buffer) (is : List Input) :
    ¬ (run (step H) (start buff) is).Misused ↔
      ProofsAnswerChallenges false (handled H (start buff) is) :=
  not_misused_iff H rfl is

end Session

/-! A sample environment with the one account `A`, and packets for it. -/

def zeroHash : Hash := fun _ => .zero 20

def Env.sample : Env where
  account login := if login = text "A" then some ⟨text "A", .zero 32, .zero 32⟩ else none
  secret := .zero 32
  first_feedback := ⟨0, 0, 0, .zero 32, 0, .zero 1, 0, .zero 32, .zero 32, .zero 16, 0⟩
  proofS := ⟨0, 0, .zero 20, .zero 4, .zero 4, .zero 2⟩
  remoteAddress := some (text "127.0.0.1")

/-- A challenge packet with a one-byte name. -/
def challengePacket (os country : Octets 4) (name : UInt8) : Bytes :=
  [0, 0, 31, 0] ++ List.replicate 13 0 ++ os.bytes ++ country.bytes ++ List.replicate 8 0 ++
    [1, name]

def osWin : Octets 4 := ⟨[110, 105, 87, 0], rfl⟩

/-- A proof packet. -/
def proofPacket (A : EphemeralKey) (M1 crc_hash : Digest) : Bytes :=
  [1] ++ A.bytes ++ M1.bytes ++ crc_hash.bytes ++ [0, 0]

def Input.challenge (os country : Octets 4) (name : UInt8) : Input :=
  ⟨.sample, challengePacket os country name, by simp [challengePacket], by simp [challengePacket]⟩

def Input.proof (A : EphemeralKey) (M1 crc_hash : Digest) : Input :=
  ⟨.sample, proofPacket A M1 crc_hash, by simp [proofPacket], by simp [proofPacket]⟩

/-- A proof as the first packet, and a second proof for one challenge. -/
theorem protocol_order_violated :
    (run (Session.step zeroHash) (.start (.zero 1024))
      [.proof (.encode 32 1) (.zero 20) (.zero 20)]).Misused ∧
    (run (Session.step zeroHash) (.start (.zero 1024))
      [.challenge osWin (.zero 4) 65, .proof (.encode 32 1) (.encode 20 1) (.zero 20),
        .proof (.encode 32 1) (.zero 20) (.zero 20)]).Misused := by
  constructor
  · exact Or.inl (by decide)
  · exact Or.inr (by decide)

end Mpool.Logon
