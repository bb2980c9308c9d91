import Mpool.Logon.Session

/-! Where an account update comes from. An `Origin` is one successful challenge;
the instance a connection holds, the user it names and the key it derives all
go back to the last origin in the log. -/

namespace Mpool.Logon

open Runs
open Util (text)

/-! ## Origins in a log -/

def Event.isEmplace : Event → Bool
  | .call (.emplace ..) => true
  | _ => false

def Event.isUpdate : Event → Bool
  | .call (.directExecute ..) => true
  | _ => false

/-- No instance is created in this part of a log. -/
def NoEmplace (l : List Event) : Prop := l.any Event.isEmplace = false

/-- No account update is executed in this part of a log. -/
def NoUpdate (l : List Event) : Prop := l.any Event.isUpdate = false

/-- A successful challenge: the packet, the fetched row, the secret drawn for
the instance and the buffer handed to `async_write`. -/
structure Origin where
  packet : Buffer
  transferredBytes : Nat
  row : AccountRow
  secret : Octets 32
  wire : Buffer

def Origin.events (o : Origin) : List Event :=
  [.received o.packet o.transferredBytes,
    .call (.query (AuthLogonChallengeC.login o.packet) (some o.row)),
    .call (.emplace o.row.username o.row.salt o.row.verifier o.secret),
    .call (.asyncWrite 119 o.wire), .call .asyncRead, .call .asyncRead]

def Origin.srp6 (H : Hash) (o : Origin) : SRP6 := instanceOf H o.secret o.row

/-- The answer to the challenge carries `B` behind its first three bytes. -/
def Origin.SendsB (H : Hash) (o : Origin) : Prop :=
  (o.wire.bytes.drop 3).take 32 = (o.srp6 H).B.bytes

/-- `o` is the last origin in `l`, and `mid` is what came after it. -/
structure LastOrigin (l : List Event) (o : Origin) (mid : List Event) : Prop where
  split : ∃ before, l = before ++ o.events ++ mid
  last : NoEmplace mid

theorem NoEmplace.append {l r : List Event} (hl : NoEmplace l) (hr : NoEmplace r) :
    NoEmplace (l ++ r) := by
  unfold NoEmplace at *
  rw [List.any_append, hl, hr, Bool.or_false]

theorem NoUpdate.append {l r : List Event} (hl : NoUpdate l) (hr : NoUpdate r) :
    NoUpdate (l ++ r) := by
  unfold NoUpdate at *
  rw [List.any_append, hl, hr, Bool.or_false]

theorem LastOrigin.append {l : List Event} {o : Origin} {mid r : List Event}
    (h : LastOrigin l o mid) (hr : NoEmplace r) : LastOrigin (l ++ r) o (mid ++ r) := by
  obtain ⟨before, rfl⟩ := h.split
  exact ⟨⟨before, by simp⟩, h.last.append hr⟩

theorem Origin.noUpdate_events (o : Origin) : NoUpdate o.events := rfl

/-- An update in an extended log is in the old part or in the extension. -/
theorem update_mem_append {l r pre post : List Event} {e : Event}
    (h : l ++ r = pre ++ e :: post) :
    (∃ post', l = pre ++ e :: post') ∨ ∃ pre', pre = l ++ pre' ∧ r = pre' ++ e :: post := by
  rcases List.append_eq_append_iff.mp h with ⟨pre', hpre, hr⟩ | ⟨post', hl, hr⟩
  · exact Or.inr ⟨pre', hpre, hr⟩
  · cases post' with
    | nil => exact Or.inr ⟨[], by simpa using hl.symm, by simpa using hr.symm⟩
    | cons x post' =>
      obtain ⟨rfl, -⟩ := List.cons_eq_cons.mp hr
      exact Or.inl ⟨post', hl⟩

theorem NoUpdate.not_mem {l pre post : List Event} {K : SessionKey} {a loc os U : Bytes}
    (h : NoUpdate l) : l ≠ pre ++ .call (.directExecute K a loc os U) :: post := by
  rintro rfl
  simp [NoUpdate, Event.isUpdate] at h

/-! ## Authenticated updates -/

/-- What an update of `U` with key `K` after the log `pre` rests on: the last
origin fetched `U`, its instance has not been used for another update, and the
packet being handled is a proof of `K` for that instance. -/
structure Authenticated (H : Hash) (pre : List Event) (K : SessionKey) (U : Bytes) : Prop where
  origin : ∃ (o : Origin) (mid : List Event) (packet : Buffer) (n : Nat),
    LastOrigin pre o (mid ++ [.received packet n,
      .call (.verifyChallengeResponse (AuthLogonProofC.AOf packet) (AuthLogonProofC.M1Of packet)
        (some K)),
      .call (.verifyVersion (AuthLogonProofC.AOf packet) (AuthLogonProofC.crcOf packet) true)]) ∧
    NoUpdate mid ∧ o.row.username = U ∧ o.SendsB H ∧
    packet.get 0 = AUTH_LOGON_PROOF ∧
    (AuthLogonProofC.AOf packet).value % SRP6._N ≠ 0 ∧
    K = SRP6.sha1Interleave H (.encode 32
      (((AuthLogonProofC.AOf packet).value * o.row.verifier.value ^
        (H ((AuthLogonProofC.AOf packet).bytes ++ (o.srp6 H).B.bytes)).value) ^ o.secret.value %
          SRP6._N)) ∧
    AuthLogonProofC.M1Of packet =
      H ((bitXor (H SRP6.N.bytes) (H SRP6.g.bytes)).bytes ++ (H U).bytes ++ o.row.salt.bytes ++
        (AuthLogonProofC.AOf packet).bytes ++ (o.srp6 H).B.bytes ++ K.bytes)

variable (H : Hash)

/-- The members that belong to an instance go back to the last origin, and an
unused instance has no update behind it. -/
structure Holds (log : List Event) (conn : Conn) (srp : SRP6) : Prop where
  origin : ∃ o mid, LastOrigin log o mid ∧ o.SendsB H ∧ conn.userName = o.row.username ∧
    { srp with used := false } = o.srp6 H ∧ (srp.used = false → NoUpdate mid)

structure Provenance (s : Session) : Prop where
  holds : ∀ srp, s.conn.srp6 = some srp → Holds H s.log s.conn srp
  updates : ∀ pre post K a loc os U,
    s.log = pre ++ .call (.directExecute K a loc os U) :: post → Authenticated H pre K U

theorem challengedConn_buff (env : Env) (conn : Conn) (row : AccountRow) :
    ((challengedConn H env conn row).buff.bytes.drop 3).take 32 =
      (instanceOf H env.secret row).B.bytes := by
  have h : (challengeFeedback env.first_feedback (instanceOf H env.secret row)).encode.take 119 =
      (challengeFeedback env.first_feedback (instanceOf H env.secret row)).encode :=
    List.take_of_length_le (by simp)
  simp only [challengedConn, Conn.prepare, Octets.overwrite, h]
  simp [AuthLogonChallengeS.encode, challengeFeedback]

theorem Provenance.start (buff : Buffer) : Provenance H (.start buff) where
  holds _ h := by cases h
  updates pre post K a loc os U h := by cases pre <;> cases h

/-- A step that creates no instance, executes no update and at most marks the
instance used. -/
theorem Provenance.keep {s s' : Session} (h : Provenance H s) (added : List Event)
    (hlog : s'.log = s.log ++ added) (he : NoEmplace added) (hu : NoUpdate added)
    (huser : s'.conn.userName = s.conn.userName)
    (hsrp : ∀ srp', s'.conn.srp6 = some srp' → ∃ srp, s.conn.srp6 = some srp ∧
      { srp' with used := false } = { srp with used := false } ∧
      (srp'.used = false → srp.used = false)) : Provenance H s' where
  holds srp' hsrp' := by
    obtain ⟨srp, hs, hsame, hused⟩ := hsrp srp' hsrp'
    obtain ⟨o, mid, hlast, hB, hname, hinst, hmid⟩ := (h.holds srp hs).origin
    refine ⟨o, mid ++ added, ?_, hB, huser.trans hname, hsame.trans hinst, ?_⟩
    · rw [hlog]
      exact hlast.append he
    · intro hf
      exact (hmid (hused hf)).append hu
  updates pre post K a loc os U hsplit := by
    rw [hlog] at hsplit
    rcases update_mem_append hsplit with ⟨post', hold⟩ | ⟨pre', -, hnew⟩
    · exact h.updates pre post' K a loc os U hold
    · exact absurd hnew hu.not_mem

/-- A successful challenge starts an origin of its own. -/
theorem Provenance.challenged {s : Session} (h : Provenance H s) (env : Env) (conn : Conn)
    (n : Nat) (row : AccountRow) (o : Outcome)
    (ho : o = ⟨[.query (AuthLogonChallengeC.login conn.buff) (some row),
        .emplace row.username row.salt row.verifier env.secret] ++
      handleWrite (challengedConn H env conn row) ++ [.asyncRead],
      .ok (challengedConn H env conn row)⟩) : Provenance H (s.after conn n o) := by
  let origin : Origin := ⟨conn.buff, n, row, env.secret, (challengedConn H env conn row).buff⟩
  have hlog : (s.after conn n o).log = s.log ++ origin.events := by
    subst ho
    simp [Session.after, origin, Origin.events, handleWrite, challengedConn, Conn.prepare]
  constructor
  · intro srp hs
    subst ho
    have hsrp : srp = instanceOf H env.secret row := (Option.some.inj hs).symm
    refine ⟨origin, [], ⟨⟨s.log, by rw [hlog, List.append_nil]⟩, rfl⟩,
      challengedConn_buff H env conn row, rfl, ?_, fun _ => rfl⟩
    rw [hsrp]
    rfl
  · intro pre post K a loc os U hsplit
    rw [hlog] at hsplit
    rcases update_mem_append hsplit with ⟨post', hold⟩ | ⟨pre', -, hnew⟩
    · exact h.updates pre post' K a loc os U hold
    · exact absurd hnew origin.noUpdate_events.not_mem

/-- An accepted proof of a held, unused instance authenticates an update. -/
theorem Holds.authenticates {log : List Event} {conn : Conn} {srp : SRP6} {K : SessionKey}
    (h : Holds H log conn srp) (hu : srp.used = false) (packet : Buffer) (n : Nat)
    (h1 : packet.get 0 = AUTH_LOGON_PROOF)
    (hv : srp.verdict H (AuthLogonProofC.AOf packet) (AuthLogonProofC.M1Of packet) = some K) :
    Authenticated H (log ++ [.received packet n,
      .call (.verifyChallengeResponse (AuthLogonProofC.AOf packet) (AuthLogonProofC.M1Of packet)
        (some K)),
      .call (.verifyVersion (AuthLogonProofC.AOf packet) (AuthLogonProofC.crcOf packet) true)])
      K conn.userName := by
  obtain ⟨o, mid, hlast, hB, hname, hinst, hmid⟩ := h.origin
  obtain ⟨hA, hK, hM⟩ := SRP6.verdict_eq_some H hv
  have hsrp : srp = o.srp6 H := by
    rw [← hinst]
    cases srp
    simp_all
  subst hsrp
  refine ⟨o, mid, packet, n, hlast.append rfl, hmid hu, hname.symm, hB, h1, hA, hK, ?_⟩
  rw [hname, ← hM]
  rfl

/-- The step that executes an update. -/
theorem Provenance.updated {s : Session} (h : Provenance H s) (i : Input) (srp : SRP6)
    (K : SessionKey) (address : Bytes) (hn : s.conn.srp6 = some srp) (hu : srp.used = false)
    (h1 : (s.conn.receive i.read).buff.get 0 = AUTH_LOGON_PROOF)
    (hv : srp.verdict H (AuthLogonProofC.AOf (s.conn.receive i.read).buff)
      (AuthLogonProofC.M1Of (s.conn.receive i.read).buff) = some K) (n : Nat) (c : Conn)
    (hc : c.srp6 = some { srp with used := true }) (hname : c.userName = s.conn.userName)
    (locale os : Bytes) :
    Provenance H (s.after (s.conn.receive i.read) n
      ⟨.verifyChallengeResponse (AuthLogonProofC.AOf (s.conn.receive i.read).buff)
          (AuthLogonProofC.M1Of (s.conn.receive i.read).buff) (some K) ::
        ([.verifyVersion (AuthLogonProofC.AOf (s.conn.receive i.read).buff)
            (AuthLogonProofC.crcOf (s.conn.receive i.read).buff) true,
          .directExecute K address locale os s.conn.userName] ++ handleWrite c ++ [.asyncRead]),
        .ok c⟩) := by
  generalize hp : (s.conn.receive i.read).buff = packet at *
  have hholds := h.holds srp hn
  have hauth := hholds.authenticates H hu packet n h1 hv
  constructor
  · intro srp' hs'
    obtain rfl : srp' = { srp with used := true } := Option.some.inj (hs'.symm.trans hc)
    obtain ⟨o, mid, hlast, hB, hold, hinst, -⟩ := hholds.origin
    exact ⟨o, _, hlast.append rfl, hB, hname.trans hold, hinst, fun hf => by cases hf⟩
  · intro pre post K' a loc os' U hsplit
    have hlog : (s.log ++ [.received packet n,
        .call (.verifyChallengeResponse (AuthLogonProofC.AOf packet)
          (AuthLogonProofC.M1Of packet) (some K)),
        .call (.verifyVersion (AuthLogonProofC.AOf packet) (AuthLogonProofC.crcOf packet) true)]) ++
        (.call (.directExecute K address locale os s.conn.userName) ::
          (handleWrite c ++ [Call.asyncRead]).map .call) =
        pre ++ .call (.directExecute K' a loc os' U) :: post := by
      rw [← hsplit]
      simp [Session.after, hp]
    rcases update_mem_append hlog with ⟨post', hold⟩ | ⟨pre', rfl, hnew⟩
    · rcases update_mem_append hold with ⟨post'', hlogs⟩ | ⟨pre', -, hfront⟩
      · exact h.updates pre post'' K' a loc os' U hlogs
      · exact absurd hfront (NoUpdate.not_mem rfl)
    · cases pre' with
      | nil =>
        rw [List.nil_append, List.cons.injEq, Event.call.injEq] at hnew
        obtain ⟨heq, -⟩ := hnew
        cases heq
        rw [List.append_nil]
        exact hauth
      | cons x pre' =>
        rw [List.cons_append, List.cons.injEq] at hnew
        exact absurd hnew.2 (NoUpdate.not_mem rfl)

theorem Provenance.step {s : Session} (h : Provenance H s) (i : Input) :
    Provenance H (s.step H i) := by
  cases hl : s.live with
  | false => rwa [Session.step_of_not_live H hl]
  | true =>
    obtain ⟨out, hout, hstep⟩ := Session.step_of_live H hl i
    rw [hstep]
    have hsame : (s.conn.receive i.read).srp6 = s.conn.srp6 := rfl
    cases hout with
    | ignored h0 h1 => exact h.keep H _ rfl rfl rfl rfl fun srp hs => ⟨srp, hs, rfl, id⟩
    | mismatch h0 hs => exact h.keep H _ rfl rfl rfl rfl fun srp hs => ⟨srp, hs, rfl, id⟩
    | unknown h0 hs ha => exact h.keep H _ rfl rfl rfl rfl fun srp hs => ⟨srp, hs, rfl, id⟩
    | challenged row h0 hs ha => exact h.challenged H i.env _ _ row _ rfl
    | empty h1 hn => exact h.keep H _ rfl rfl rfl rfl fun srp hs => ⟨srp, hs, rfl, id⟩
    | reused srp h1 hn hu => exact h.keep H _ rfl rfl rfl rfl fun srp hs => ⟨srp, hs, rfl, id⟩
    | rejected srp h1 hn hu hv =>
      refine h.keep H _ rfl rfl rfl rfl fun srp' hs' => ⟨srp, hsame ▸ hn, ?_, fun _ => hu⟩
      cases hs'
      rfl
    | accepted srp K h1 hn hu hv ho =>
      have hver := handleVersion_versioned H i.env (acceptedConn (s.conn.receive i.read) srp K)
        (AuthLogonProofC.AOf (s.conn.receive i.read).buff)
        (AuthLogonProofC.M1Of (s.conn.receive i.read).buff)
      rw [← ho] at hver
      rw [hsame] at hn
      cases hver with
      | nullHash hv' => exact h.keep H _ rfl rfl rfl rfl fun srp hs => ⟨srp, hs, rfl, id⟩
      | badVersion hv' =>
        refine h.keep H _ rfl rfl rfl rfl fun srp' hs' => ⟨srp, hn, ?_, fun _ => hu⟩
        cases hs'
        rfl
      | lostPeer hv' hr => exact h.keep H _ rfl rfl rfl rfl fun srp hs => ⟨srp, hs, rfl, id⟩
      | updated address hv' hr =>
        exact h.updated H i srp K address hn hu h1 hv _
          (updatedConn H (acceptedConn (s.conn.receive i.read) srp K) _ _) rfl rfl _ _

theorem provenance_run (buff : Buffer) (is : List Input) :
    Provenance H (run (Session.step H) (.start buff) is) :=
  run_invariant (P := Provenance H) (fun _ i h => h.step H i) (.start H buff) is

/-- Authentication safety of the account update: whatever a connection receives,
each executed update of `U` with key `K` rests on a challenge that fetched `U`
and on a correct proof of `K` for the instance of that challenge, and between
two updates an instance was created. -/
theorem update_authenticated (buff : Buffer) (is : List Input) :
    (∀ pre post K address locale os U,
      (run (Session.step H) (.start buff) is).log =
        pre ++ .call (.directExecute K address locale os U) :: post →
      Authenticated H pre K U) ∧
    ∀ pre mid post K address locale os U K' address' locale' os' U',
      (run (Session.step H) (.start buff) is).log =
        pre ++ .call (.directExecute K address locale os U) ::
          (mid ++ .call (.directExecute K' address' locale' os' U') :: post) →
      ¬ NoEmplace mid := by
  have h := (provenance_run H buff is).updates
  refine ⟨h, ?_⟩
  intro pre mid post K address locale os U K' address' locale' os' U' hsplit hmid
  obtain ⟨o, rest, packet, n, ⟨⟨before, hbefore⟩, -⟩, hrest, -⟩ := (h
    (pre ++ .call (.directExecute K address locale os U) :: mid) post K' address' locale' os' U'
    (by rw [hsplit]; simp)).origin
  rw [List.append_assoc] at hbefore
  rcases update_mem_append hbefore.symm with ⟨post', rfl⟩ | ⟨pre', -, hnew⟩
  · rw [List.append_assoc, List.cons_append] at hbefore
    obtain rfl := (List.cons.inj (List.append_cancel_left hbefore)).2
    simp [NoEmplace, Origin.events, Event.isEmplace] at hmid
  · have htail : NoUpdate [.received packet n,
        .call (.verifyChallengeResponse (AuthLogonProofC.AOf packet) (AuthLogonProofC.M1Of packet)
          (some K')),
        .call (.verifyVersion (AuthLogonProofC.AOf packet) (AuthLogonProofC.crcOf packet) true)] :=
      rfl
    exact absurd hnew (o.noUpdate_events.append (hrest.append htail)).not_mem

end Mpool.Logon
