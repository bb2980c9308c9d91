import Mpool.Logon.Session

/-! The client version check. `_os` is what the last challenge with agreeing
sizes left in it, whether or not its account exists, and only two of its values
give `VerifyVersion` a checksum to compare with. -/

namespace Mpool.Logon

open Runs
open Util (text)

variable (H : Hash)

/-- The check reaches a verdict for every key and hash, and accepts exactly the
hash of the key and the checksum that belongs to the system. -/
def VersionDecided (os : Bytes) : Prop :=
  ∀ (A : EphemeralKey) (crc_hash : Digest), ∃ verdict,
    verifyVersion H os A crc_hash false = .ok verdict ∧
    (verdict = true ↔
      os = text "Win" ∧ crc_hash = H (A.bytes ++ windowsHash.bytes) ∨
      os = text "OSX" ∧ crc_hash = H (A.bytes ++ macHash.bytes))

/-- The four bytes of a client that calls itself `Win` or `OSX`. -/
def KnownOs (os : Octets 4) : Prop :=
  os.bytes = [110, 105, 87, 0] ∨ os.bytes = [88, 83, 79, 0]

/-! ## One check -/

theorem versionHashOf_none {os : Bytes} (hw : os ≠ text "Win") (hm : os ≠ text "OSX") :
    versionHashOf os false = none := by
  simp [versionHashOf, hw, hm]

theorem versionDecided_iff (os : Bytes) :
    VersionDecided H os ↔ os = text "Win" ∨ os = text "OSX" := by
  constructor
  · intro h
    by_contra hos
    rw [not_or] at hos
    obtain ⟨verdict, hv, -⟩ := h (.zero 32) (.zero 20)
    simp [verifyVersion, versionHashOf_none hos.1 hos.2] at hv
  · rintro (rfl | rfl) A crc_hash
    · have hne : text "Win" ≠ text "OSX" := by decide
      have hwindows : versionHashOf (text "Win") false = some windowsHash := rfl
      refine ⟨_, verifyVersion_of_hash H hwindows A crc_hash, ?_⟩
      simp [hne]
    · have hne : text "OSX" ≠ text "Win" := by decide
      have hmac : versionHashOf (text "OSX") false = some macHash := by
        simp [versionHashOf, hne]
      refine ⟨_, verifyVersion_of_hash H hmac A crc_hash, ?_⟩
      simp [hne]

/-! ## Where `_os` comes from -/

/-- The os bytes of a handled challenge with agreeing sizes. -/
def Event.challengeOs : Event → Option (Octets 4)
  | .received buff _ =>
    if buff.get 0 = AUTH_LOGON_CHALLENGE ∧ AuthLogonChallengeC.sizeMismatch buff = false then
      some (AuthLogonChallengeC.osOf buff)
    else none
  | .call _ => none

/-- The os bytes of the last such challenge. -/
def lastOs (log : List Event) : Option (Octets 4) := (log.filterMap Event.challengeOs).getLast?

/-- `_os` after a challenge with these bytes, and before any challenge. -/
def osOfBytes : Option (Octets 4) → Bytes
  | none => []
  | some os => (os.bytes.takeWhile (· ≠ 0)).reverse

theorem lastOs_append_calls (log : List Event) (buff : Buffer) (n : Nat) (calls : List Call) :
    lastOs (log ++ .received buff n :: calls.map .call) =
      ((Event.received buff n).challengeOs).or (lastOs log) := by
  have hcalls : (calls.map Event.call).filterMap Event.challengeOs = [] := by
    induction calls with
    | nil => rfl
    | cons c calls ih => simp [Event.challengeOs]
  cases h : (Event.received buff n).challengeOs with
  | none => simp [lastOs, h, hcalls]
  | some os => simp [lastOs, h, hcalls]

theorem handleVersion_os (env : Env) (conn : Conn) (A : EphemeralKey) (M1 : Digest) {c : Conn}
    (h : (handleVersion H env conn A M1).result = .ok c) : c.os = conn.os := by
  have hver := handleVersion_versioned H env conn A M1
  generalize handleVersion H env conn A M1 = out at h hver
  cases hver <;> cases h <;> rfl

theorem handled_os {env : Env} {conn c : Conn} {out : Outcome} (h : Handled H env conn out)
    (hc : out.result = .ok c) (n : Nat) :
    c.os = match (Event.received conn.buff n).challengeOs with
      | none => conn.os
      | some os => osOfBytes (some os) := by
  have hproof : conn.buff.get 0 = AUTH_LOGON_PROOF → conn.buff.get 0 ≠ AUTH_LOGON_CHALLENGE := by
    intro h1
    rw [h1]
    decide
  cases h with
  | ignored h0 h1 => cases hc; simp [Event.challengeOs, h0]
  | mismatch h0 hs => cases hc; simp [Event.challengeOs, hs]
  | unknown h0 hs ha => cases hc; simp [Event.challengeOs, h0, hs]; rfl
  | challenged row h0 hs ha => cases hc; simp [Event.challengeOs, h0, hs]; rfl
  | empty h1 hn => cases hc
  | reused srp h1 hn hu => cases hc
  | rejected srp h1 hn hu hv => cases hc; simp [Event.challengeOs, hproof h1]; rfl
  | accepted srp K h1 hn hu hv ho =>
    rw [ho] at hc
    rw [handleVersion_os H env _ _ _ hc]
    simp [Event.challengeOs, hproof h1, acceptedConn]

/-- A handler call that ends in a fault was no challenge. -/
theorem handled_fault {env : Env} {conn : Conn} {out : Outcome} (h : Handled H env conn out)
    {f : Fault} (hf : out.result = .error f) (n : Nat) :
    (Event.received conn.buff n).challengeOs = none := by
  have hproof : conn.buff.get 0 = AUTH_LOGON_PROOF →
      (Event.received conn.buff n).challengeOs = none := by
    intro h1
    simp [Event.challengeOs, h1, AUTH_LOGON_PROOF, AUTH_LOGON_CHALLENGE]
  cases h with
  | ignored h0 h1 => cases hf
  | mismatch h0 hs => cases hf
  | unknown h0 hs ha => cases hf
  | challenged row h0 hs ha => cases hf
  | empty h1 hn => exact hproof h1
  | reused srp h1 hn hu => exact hproof h1
  | rejected srp h1 hn hu hv => cases hf
  | accepted srp K h1 hn hu hv ho => exact hproof h1

namespace Session

/-- `_os` is the name in the last challenge with agreeing sizes. -/
def OsFromLog (s : Session) : Prop := s.conn.os = osOfBytes (lastOs s.log)

theorem OsFromLog.step {s : Session} (h : s.OsFromLog) (i : Input) : (s.step H i).OsFromLog := by
  cases hl : s.live with
  | false => rwa [step_of_not_live H hl]
  | true =>
    obtain ⟨out, hout, hstep⟩ := step_of_live H hl i
    have hold : (s.conn.receive i.read).os = osOfBytes (lastOs s.log) := h
    rw [hstep, OsFromLog, after, lastOs_append_calls]
    cases hr : out.result with
    | error f =>
      rw [handled_fault H hout hr]
      exact hold
    | ok c =>
      change c.os = _
      rw [handled_os H hout hr i.read.data.length]
      cases Event.challengeOs (.received (s.conn.receive i.read).buff i.read.data.length) with
      | none => exact hold
      | some os => rfl

theorem osFromLog_run (buff : Buffer) (is : List Input) :
    (run (step H) (start buff) is).OsFromLog :=
  run_invariant (P := OsFromLog) (fun _ i h => h.step H i)
    (show (start buff).OsFromLog from rfl) is

end Session

/-! ## Every reachable connection -/

theorem takeWhile_eq_iff {l w : Bytes} (hl : l.length = w.length + 1) (hw : ∀ b ∈ w, b ≠ 0) :
    l.takeWhile (· ≠ 0) = w ↔ l = w ++ [0] := by
  constructor
  · intro h
    have hsplit : w ++ l.dropWhile (· ≠ 0) = l := by
      rw [← h]
      exact List.takeWhile_append_dropWhile
    have hlen := congrArg List.length hsplit
    rw [List.length_append, hl] at hlen
    obtain ⟨b, hb⟩ := List.length_eq_one_iff.mp (Nat.add_left_cancel hlen)
    have hzero : b = 0 := by
      have hhead := List.head?_dropWhile_not (p := fun b => decide (b ≠ 0)) (l := l)
      rw [hb] at hhead
      simpa using hhead
    rw [← hsplit, hb, hzero]
  · rintro rfl
    rw [List.takeWhile_append_of_pos (by simpa using hw)]
    simp

theorem osOfBytes_eq_iff (os : Octets 4) (name : Bytes) (hlen : name.length = 3)
    (hname : ∀ b ∈ name, b ≠ 0) :
    osOfBytes (some os) = name ↔ os.bytes = name.reverse ++ [0] := by
  rw [osOfBytes, List.reverse_eq_iff]
  exact takeWhile_eq_iff (by simp [hlen]) (by simpa using hname)

theorem osOfBytes_known (os : Option (Octets 4)) :
    osOfBytes os = text "Win" ∨ osOfBytes os = text "OSX" ↔ ∃ bytes, os = some bytes ∧
      KnownOs bytes := by
  cases os with
  | none =>
    have hw : ([] : Bytes) ≠ text "Win" := by decide
    have hm : ([] : Bytes) ≠ text "OSX" := by decide
    simp [osOfBytes, hw, hm]
  | some os =>
    have hw := osOfBytes_eq_iff os (text "Win") (by decide) (by decide +kernel)
    have hm := osOfBytes_eq_iff os (text "OSX") (by decide) (by decide +kernel)
    have hwin : (text "Win").reverse ++ [0] = [110, 105, 87, 0] := by decide
    have hosx : (text "OSX").reverse ++ [0] = [88, 83, 79, 0] := by decide
    rw [hw, hm, hwin, hosx]
    simp [KnownOs]

/-- In every state a connection reaches the version check is total and exact
if and only if the last challenge with agreeing sizes came from a client that
calls itself `Win` or `OSX`. -/
theorem version_decided_iff (buff : Buffer) (is : List Input) :
    VersionDecided H (run (Session.step H) (.start buff) is).conn.os ↔
      ∃ os, lastOs (run (Session.step H) (.start buff) is).log = some os ∧ KnownOs os := by
  rw [versionDecided_iff, Session.osFromLog_run H buff is, osOfBytes_known]

/-- The account `A` logs in from a client whose os bytes are zero: its correct
proof makes the check dereference a null pointer. -/
theorem unknown_os_faults :
    ¬ VersionDecided zeroHash (run (Session.step zeroHash) (.start (.zero 1024))
      [.challenge (.zero 4) (.zero 4) 65]).conn.os ∧
    (run (Session.step zeroHash) (.start (.zero 1024)) [.challenge (.zero 4) (.zero 4) 65,
      .proof (.encode 32 1) (.zero 20) (.zero 20)]).fault = some .nullVersionHash := by
  constructor
  · rw [versionDecided_iff]
    decide
  · decide

end Mpool.Logon
