import Mpool.Logon.Authentication

/-! What a challenge does to the connection as a whole. `_os` and
`_localizationName` are assigned before the account is looked up, `UserName` and
`_srp6` behind it, so a challenge that names no account leaves the members of
two packets side by side. -/

namespace Mpool.Logon

open Runs
open Util (text)

/-- The members a challenge sets, `_srp6` as it was created. -/
def Conn.challengeMembers (conn : Conn) : Option SRP6 × Bytes × Bytes × Bytes :=
  (conn.srp6.map ({ · with used := false }), conn.userName, conn.os, conn.localizationName)

def Origin.challengeMembers (H : Hash) (o : Origin) : Option SRP6 × Bytes × Bytes × Bytes :=
  (some (o.srp6 H), o.row.username, osName o.packet, localeName o.packet)

/-- The packet is a challenge with wrong sizes or without an account. -/
def FailedChallenge (env : Env) (buff : Buffer) : Prop :=
  buff.get 0 = AUTH_LOGON_CHALLENGE ∧
    (AuthLogonChallengeC.sizeMismatch buff = true ∨
      env.account (AuthLogonChallengeC.login buff) = none)

namespace Session

variable (H : Hash)

/-- A challenge that fails in this step leaves the four members as they are. -/
def Untouched (s : Session) (i : Input) : Prop :=
  s.live = true → FailedChallenge i.env (s.conn.receive i.read).buff →
    (step H s i).conn.srp6 = s.conn.srp6 ∧ (step H s i).conn.userName = s.conn.userName ∧
    (step H s i).conn.os = s.conn.os ∧
    (step H s i).conn.localizationName = s.conn.localizationName

/-- The four members come from the last origin, and so do the user, the os and
the locale of every update. -/
structure Whole (s : Session) : Prop where
  members : s.conn.srp6 ≠ none → ∃ o mid, LastOrigin s.log o mid ∧
    s.conn.challengeMembers = o.challengeMembers H
  updates : ∀ pre post K address locale os U,
    s.log = pre ++ .call (.directExecute K address locale os U) :: post →
    ∃ o mid, LastOrigin pre o mid ∧ o.row.username = U ∧ os = osName o.packet ∧
      locale = localeName o.packet

/-- A challenge whose sizes agree and whose account is unknown carries the os
and the country the connection already has. -/
def KeepsNames (s : Session) (i : Input) : Prop :=
  s.live = true → (s.conn.receive i.read).buff.get 0 = AUTH_LOGON_CHALLENGE →
    AuthLogonChallengeC.sizeMismatch (s.conn.receive i.read).buff = false →
    i.env.account (AuthLogonChallengeC.login (s.conn.receive i.read).buff) = none →
    osName (s.conn.receive i.read).buff = s.conn.os ∧
      localeName (s.conn.receive i.read).buff = s.conn.localizationName

/-! ## One step -/

theorem untouched_iff (s : Session) (i : Input) : Untouched H s i ↔ KeepsNames s i := by
  cases hl : s.live with
  | false => simp [Untouched, KeepsNames, hl]
  | true =>
    obtain ⟨out, hout, hstep⟩ := step_of_live H hl i
    have hsrp : (s.conn.receive i.read).srp6 = s.conn.srp6 := rfl
    have huser : (s.conn.receive i.read).userName = s.conn.userName := rfl
    have hos : (s.conn.receive i.read).os = s.conn.os := rfl
    have hloc : (s.conn.receive i.read).localizationName = s.conn.localizationName := rfl
    simp only [Untouched, KeepsNames, FailedChallenge, hl, hstep]
    generalize s.conn.receive i.read = conn at hout hsrp huser hos hloc
    cases hout with
    | ignored h0 h1 => simp [h0]
    | mismatch h0 hs => simp [hs, after, hsrp, huser, hos, hloc]
    | unknown h0 hs ha =>
      simp [h0, hs, ha, after, unknownConn, Conn.prepare, hsrp, huser]
    | challenged row h0 hs ha => simp [h0, hs, ha]
    | empty h1 hn => simp [h1, AUTH_LOGON_CHALLENGE, AUTH_LOGON_PROOF]
    | reused srp h1 hn hu => simp [h1, AUTH_LOGON_CHALLENGE, AUTH_LOGON_PROOF]
    | rejected srp h1 hn hu hv => simp [h1, AUTH_LOGON_CHALLENGE, AUTH_LOGON_PROOF]
    | accepted srp K h1 hn hu hv ho => simp [h1, AUTH_LOGON_CHALLENGE, AUTH_LOGON_PROOF]

theorem Whole.start (buff : Buffer) : Whole H (.start buff) where
  members h := absurd rfl h
  updates pre post K a loc os U h := by cases pre <;> cases h

variable {H}

/-- A step that creates no instance, keeps the four members and writes only them. -/
theorem Whole.keep {s s' : Session} (h : Whole H s) (added : List Event)
    (hlog : s'.log = s.log ++ added) (he : NoEmplace added)
    (hm : s'.conn.challengeMembers = s.conn.challengeMembers)
    (hn : s'.conn.srp6 ≠ none → s.conn.srp6 ≠ none)
    (hu : ∀ K address locale os U, .call (.directExecute K address locale os U) ∈ added →
      s.conn.srp6 ≠ none ∧ U = s.conn.userName ∧ os = s.conn.os ∧
        locale = s.conn.localizationName) : Whole H s' where
  members hs := by
    obtain ⟨o, mid, hlast, ho⟩ := h.members (hn hs)
    refine ⟨o, mid ++ added, ?_, hm.trans ho⟩
    rw [hlog]
    exact hlast.append he
  updates pre post K a loc os U hsplit := by
    rw [hlog] at hsplit
    rcases update_mem_append hsplit with ⟨post', hold⟩ | ⟨pre', rfl, rfl⟩
    · exact h.updates pre post' K a loc os U hold
    · obtain ⟨hs, rfl, rfl, rfl⟩ := hu K a loc os U (by simp)
      obtain ⟨o, mid, hlast, ho⟩ := h.members hs
      have hpre : NoEmplace pre' := by
        simp only [NoEmplace, List.any_append, Bool.or_eq_false_iff] at he
        exact he.1
      simp only [Conn.challengeMembers, Origin.challengeMembers, Prod.mk.injEq] at ho
      exact ⟨o, mid ++ pre', hlast.append hpre, ho.2.1.symm, ho.2.2.1, ho.2.2.2⟩

/-- A step that starts an origin. -/
theorem Whole.challenged {s s' : Session} (h : Whole H s) (o : Origin)
    (hlog : s'.log = s.log ++ o.events)
    (hm : s'.conn.challengeMembers = o.challengeMembers H) : Whole H s' where
  members _ := ⟨o, [], ⟨⟨s.log, by rw [hlog, List.append_nil]⟩, rfl⟩, hm⟩
  updates pre post K a loc os U hsplit := by
    rw [hlog] at hsplit
    rcases update_mem_append hsplit with ⟨post', hold⟩ | ⟨pre', -, hnew⟩
    · exact h.updates pre post' K a loc os U hold
    · exact absurd hnew o.noUpdate_events.not_mem

theorem Whole.step {s : Session} (h : Whole H s) (i : Input) (hk : KeepsNames s i) :
    Whole H (s.step H i) := by
  cases hl : s.live with
  | false => rwa [step_of_not_live H hl]
  | true =>
    obtain ⟨out, hout, hstep⟩ := step_of_live H hl i
    rw [hstep]
    have hsame : (s.conn.receive i.read).srp6 = s.conn.srp6 := rfl
    have hquiet : ∀ {added : List Event}, NoUpdate added → ∀ K address locale os U,
        .call (.directExecute K address locale os U) ∈ added →
        s.conn.srp6 ≠ none ∧ U = s.conn.userName ∧ os = s.conn.os ∧
          locale = s.conn.localizationName := by
      intro added hu K address locale os U hmem
      obtain ⟨pre, post, rfl⟩ := List.append_of_mem hmem
      exact absurd rfl hu.not_mem
    cases hout with
    | ignored h0 h1 => exact h.keep _ rfl rfl rfl id (hquiet rfl)
    | mismatch h0 hs => exact h.keep _ rfl rfl rfl id (hquiet rfl)
    | unknown h0 hs ha =>
      obtain ⟨hos, hloc⟩ := hk hl h0 hs ha
      refine h.keep _ rfl rfl ?_ id (hquiet rfl)
      simpa [after, Conn.challengeMembers, unknownConn, Conn.prepare, Conn.receive]
        using And.intro hos hloc
    | challenged row h0 hs ha =>
      refine h.challenged ⟨(s.conn.receive i.read).buff, i.read.data.length, row, i.env.secret,
        (challengedConn H i.env (s.conn.receive i.read) row).buff⟩ ?_ rfl
      simp [after, Origin.events, handleWrite, challengedConn, Conn.prepare]
    | empty h1 hn => exact h.keep _ rfl rfl rfl id (hquiet rfl)
    | reused srp h1 hn hu => exact h.keep _ rfl rfl rfl id (hquiet rfl)
    | rejected srp h1 hn hu hv =>
      rw [hsame] at hn
      refine h.keep _ rfl rfl ?_ (fun _ => by simp [hn]) (hquiet rfl)
      simp [after, Conn.challengeMembers, rejectedConn, Conn.prepare, Conn.receive, hn]
    | accepted srp K h1 hn hu hv ho =>
      have hver := handleVersion_versioned H i.env (acceptedConn (s.conn.receive i.read) srp K)
        (AuthLogonProofC.AOf (s.conn.receive i.read).buff)
        (AuthLogonProofC.M1Of (s.conn.receive i.read).buff)
      rw [← ho] at hver
      rw [hsame] at hn
      cases hver with
      | nullHash hv' => exact h.keep _ rfl rfl rfl id (hquiet rfl)
      | badVersion hv' =>
        refine h.keep _ rfl rfl ?_ (fun _ => by simp [hn]) (hquiet rfl)
        simp [after, Conn.challengeMembers, versionConn, acceptedConn, Conn.prepare,
          Conn.receive, hn]
      | lostPeer hv' hr => exact h.keep _ rfl rfl rfl id (hquiet rfl)
      | updated address hv' hr =>
        refine h.keep _ rfl rfl ?_ (fun _ => by simp [hn]) ?_
        · simp [after, Conn.challengeMembers, updatedConn, acceptedConn, Conn.prepare,
            Conn.receive, hn]
        · intro K' address' locale os U hmem
          simp [handleWrite, acceptedConn, Conn.receive] at hmem
          simp [hn, hmem]

/-! ## Runs -/

theorem always_whole {buff : Buffer} {is : List Input}
    (h : Along (step H) KeepsNames (start buff) is) : Always (step H) (Whole H) (start buff) is :=
  always_of_along (fun _ i hw hk => hw.step i hk) (.start H buff) h

variable (H)

/-- Challenges are applied as a whole or not at all, and the members and updates
of the connection come from one packet each, exactly in the runs in which every
challenge for an unknown account repeats the os and the country in force. -/
theorem challenge_whole_iff (buff : Buffer) (is : List Input) :
    (Along (step H) (Untouched H) (start buff) is ∧
      Always (step H) (Whole H) (start buff) is) ↔
    Along (step H) KeepsNames (start buff) is := by
  have hiff : Untouched H = KeepsNames := by
    funext s i
    exact propext (untouched_iff H s i)
  rw [hiff]
  exact ⟨And.left, fun h => ⟨h, always_whole h⟩⟩

end Session

def osOSX : Octets 4 := ⟨[88, 83, 79, 0], rfl⟩

/-- The account `A` logs in from `Win`; a challenge for the unknown account `B`
replaces the os and the country, and the proof stores them for `A`. -/
theorem challenge_mixed :
    ¬ Along (Session.step zeroHash) (Session.Untouched zeroHash) (.start (.zero 1024))
      [.challenge osWin (.encode 4 1) 65, .challenge osOSX (.encode 4 2) 66] ∧
    (((run (Session.step zeroHash) (.start (.zero 1024))
      [.challenge osWin (.encode 4 1) 65, .challenge osOSX (.encode 4 2) 66,
        .proof (.encode 32 1) (.zero 20) (.zero 20)]).log.filterMap fun
          | .call (.directExecute _ _ locale os U) => some (U, os, locale)
          | _ => none) = [(text "A", text "OSX", [0, 0, 0, 2])]) := by
  constructor
  · rintro ⟨-, h, -⟩
    have hos := (h (by decide) ⟨by decide, Or.inr (by decide)⟩).2.2.1
    exact absurd hos (by decide)
  · decide

end Mpool.Logon
