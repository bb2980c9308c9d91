import Mpool.Logon.Received

/-! Packets that arrive in pieces. Each read starts at the front of `buff` and is
handled as a packet of its own, so the pieces of one packet do what the whole
does only if the first piece settles it and the others are ignored. -/

namespace Mpool.Logon

open Runs
open Util (text)
open AuthLogonChallengeC (nameLen sizeMismatch login)

/-! ## Packets and their delivery -/

/-- The two packets of a client: a challenge whose sizes agree with its length,
and a proof. -/
inductive WellFormed (packet : Bytes) : Prop
  | challenge (cmd : packet.getD 0 0 = AUTH_LOGON_CHALLENGE)
      (name : packet.length = AuthLogonChallengeC.I +
        (packet.getD AuthLogonChallengeC.I_len 0).toNat)
      (size : (packet.getD 2 0).toNat + 256 * (packet.getD 3 0).toNat =
        (packet.getD AuthLogonChallengeC.I_len 0).toNat + 30)
  | proof (cmd : packet.getD 0 0 = AUTH_LOGON_PROOF)
      (length : packet.length = AuthLogonProofC.sizeof)

theorem WellFormed.pos {packet : Bytes} (h : WellFormed packet) : 0 < packet.length := by
  cases h with
  | challenge cmd name size =>
    rw [name]
    exact Nat.add_pos_left (by decide) _
  | proof cmd length =>
    rw [length]
    decide

theorem WellFormed.fits {packet : Bytes} (h : WellFormed packet) : packet.length ≤ 1024 := by
  cases h with
  | challenge cmd name size =>
    have hlen := (packet.getD AuthLogonChallengeC.I_len 0).toNat_lt
    rw [name, show AuthLogonChallengeC.I = 34 from rfl]
    omega
  | proof cmd length =>
    rw [length]
    decide

/-- A packet with the environment its handling finds, and the reads TCP makes of
it; the handling of a later piece finds whatever there is by then. -/
structure Delivery where
  packet : Bytes
  wellFormed : WellFormed packet
  env : Env
  first : Read
  rest : List Input
  joined : first.data ++ rest.flatMap (·.read.data) = packet

/-- The packet in one read. -/
def Delivery.whole (d : Delivery) : Input := ⟨d.env, d.packet, d.wellFormed.pos, d.wellFormed.fits⟩

def Delivery.segments (d : Delivery) : List Input := ⟨d.env, d.first⟩ :: d.rest

/-- `handle_read` finds neither command in the first byte of this read. -/
def Input.Ignored (i : Input) : Prop :=
  i.read.data.getD 0 0 ≠ AUTH_LOGON_CHALLENGE ∧ i.read.data.getD 0 0 ≠ AUTH_LOGON_PROOF

/-! ## Observations of a session -/

/-- The prepared bytes of an answer. -/
def Call.response? : Call → Option Bytes
  | .asyncWrite data_len wire => some (wire.bytes.take data_len)
  | _ => none

namespace Session

def calls (s : Session) : List Call :=
  s.log.filterMap fun
    | .call c => some c
    | .received .. => none

/-- The database statements executed so far. -/
def statements (s : Session) : List Call := s.calls.filter Call.isStatement

/-- The responses produced so far. -/
def responses (s : Session) : List Bytes := s.calls.filterMap Call.response?

@[simp] theorem calls_after (s : Session) (conn : Conn) (n : Nat) (out : Outcome) :
    (s.after conn n out).calls = s.calls ++ out.calls := by
  simp [calls, after, List.filterMap_map]

theorem response?_mask (c : Call) : c.mask.response? = c.response? := by
  cases c with
  | asyncWrite data_len wire =>
    have hlen : (wire.bytes.take data_len).length ≤ data_len := by simp
    have hdrop : ((Octets.zero 1024).bytes.drop (wire.bytes.take data_len).length).take
        (data_len - (wire.bytes.take data_len).length) = [] := by
      rw [← List.length_eq_zero_iff]
      simp only [List.length_take, List.length_drop, Octets.length_bytes]
      omega
    simp only [Call.mask, Call.response?, Octets.overwrite, List.take_append, hdrop,
      List.append_nil, List.take_take, min_self]
  | query | emplace | verifyChallengeResponse | verifyVersion | directExecute | asyncRead
    | close => rfl

theorem filterMap_response_mask (cs : List Call) :
    (cs.map Call.mask).filterMap Call.response? = cs.filterMap Call.response? := by
  rw [List.filterMap_map, show Call.response? ∘ Call.mask = Call.response? from
    funext response?_mask]

theorem countP_mask (cs : List Call) :
    (cs.map Call.mask).countP Call.isAsyncRead = cs.countP Call.isAsyncRead := by
  rw [List.countP_map, show Call.isAsyncRead ∘ Call.mask = Call.isAsyncRead from
    funext fun c => by cases c <;> rfl]

/-- Two sessions that differ in their buffers only, with the same statements and
responses behind them. -/
structure Agree (s t : Session) : Prop where
  conn : s.conn.withBuff (.zero 1024) = t.conn.withBuff (.zero 1024)
  reads : s.reads = t.reads
  fault : s.fault = t.fault
  statements : s.statements = t.statements
  responses : s.responses = t.responses

theorem Agree.live {s t : Session} (h : Agree s t) : s.live = t.live := by
  simp only [Session.live, h.reads, h.fault]

/-- Outcomes of one mask keep two sessions together. -/
theorem Agree.after {s t : Session} (h : Agree s t) {c d : Conn} {n m : Nat} {o p : Outcome}
    (hcd : c.withBuff (.zero 1024) = d.withBuff (.zero 1024)) (hop : o.mask = p.mask) :
    Agree (s.after c n o) (t.after d m p) := by
  simp only [Outcome.mask, Outcome.mk.injEq] at hop
  obtain ⟨hcalls, hresult⟩ := hop
  have hcount : o.calls.countP Call.isAsyncRead = p.calls.countP Call.isAsyncRead := by
    rw [← countP_mask, hcalls, countP_mask]
  have hstatements : o.calls.filter Call.isStatement = p.calls.filter Call.isStatement := by
    rw [← filter_isStatement_mask, hcalls, filter_isStatement_mask]
  have hresponses : o.calls.filterMap Call.response? = p.calls.filterMap Call.response? := by
    rw [← filterMap_response_mask, hcalls, filterMap_response_mask]
  have hs : s.calls.filter Call.isStatement = t.calls.filter Call.isStatement := h.statements
  have hr : s.calls.filterMap Call.response? = t.calls.filterMap Call.response? := h.responses
  refine ⟨?_, ?_, ?_, ?_, ?_⟩
  · cases ho : o.result <;> cases hp : p.result <;>
      simp_all [Session.after, Except.map]
  · simp [Session.after, h.reads, hcount]
  · cases ho : o.result <;> cases hp : p.result <;>
      simp_all [Session.after, Except.map]
  · simp [Session.statements, hs, hstatements]
  · simp [Session.responses, hr, hresponses]

/-! ## One packet -/

variable (H : Hash)

/-- In a live session the first read settles the packet and the reads after it
are ignored. -/
def Settled (s : Session) (d : Delivery) : Prop :=
  s.live = true → Received H (s.conn.receive d.whole.read) d.first.data.length ∧
    ∀ i ∈ d.rest, i.Ignored

variable {H}

theorem Agree.withBuff {s t : Session} (h : Agree s t) (b : Buffer) :
    s.conn.withBuff b = t.conn.withBuff b :=
  congrArg (·.withBuff b) h.conn

theorem receive_take (conn : Conn) (r : Read) :
    (conn.receive r).buff.bytes.take r.data.length = r.data :=
  Octets.take_overwrite _ _ r.fits

theorem Agree.first {s t : Session} (h : Agree s t) (d : Delivery) (hl : s.live = true)
    (hr : Received H (s.conn.receive d.whole.read) d.first.data.length) :
    Agree (s.step H d.whole) (t.step H ⟨d.env, d.first⟩) := by
  have htake : (s.conn.receive d.whole.read).buff.bytes.take d.first.data.length =
      (t.conn.receive d.first).buff.bytes.take d.first.data.length := by
    have hpacket : d.packet.take d.first.data.length = d.first.data := by simp [← d.joined]
    have hle : d.first.data.length ≤ d.packet.length := by simp [← d.joined]
    rw [receive_take]
    exact (List.take_append_of_le_length hle).trans hpacket
  have hmask := handleRead_mask H d.env _ (sameCourse_of_received d.first.pos htake hr)
    d.packet.length d.first.data.length
  have hconn : (s.conn.receive d.whole.read).withBuff (t.conn.receive d.first).buff =
      t.conn.receive d.first := h.withBuff _
  rw [Conn.withBuff_self, hconn] at hmask
  simp only [step, hl, ← h.live, ↓reduceIte]
  exact h.after h.conn hmask

theorem Agree.ignored {s t : Session} (h : Agree s t) {i : Input} (hi : i.Ignored) :
    Agree s (t.step H i) := by
  cases hl : t.live with
  | false => rwa [step_of_not_live H hl]
  | true =>
    have hget : (t.conn.receive i.read).buff.get 0 = i.read.data.getD 0 0 := by
      simp [Conn.receive, Octets.overwrite, Octets.get, List.getD_eq_getElem?_getD,
        List.getElem?_append_left i.read.pos]
    have hstep : t.step H i = t.after (t.conn.receive i.read) i.read.data.length
        ⟨[.asyncRead], .ok (t.conn.receive i.read)⟩ := by
      simp only [step, hl, ↓reduceIte]
      rw [handleRead_ignored H i.env _ _ (hget ▸ hi.1) (hget ▸ hi.2)]
    have hreads : 0 < t.reads := by
      simp only [Session.live, Bool.and_eq_true, decide_eq_true_eq] at hl
      exact hl.2
    rw [hstep]
    refine ⟨h.conn, ?_, ?_, ?_, ?_⟩
    · rw [h.reads]
      simp only [Session.after, List.countP_singleton, Call.isAsyncRead, ↓reduceIte]
      omega
    · rw [h.fault, live_fault hl]
      rfl
    · simpa [Session.statements, Call.isStatement] using h.statements
    · have hread : [Call.asyncRead].filterMap Call.response? = [] := rfl
      simpa [Session.responses, hread] using h.responses

theorem Agree.rest {s t : Session} (h : Agree s t) {is : List Input} (hi : ∀ i ∈ is, i.Ignored) :
    Agree s (run (step H) t is) := by
  induction is generalizing t with
  | nil => exact h
  | cons i is ih =>
    exact ih (h.ignored (hi i List.mem_cons_self)) fun j hj => hi j (List.mem_cons_of_mem i hj)

theorem Agree.delivery {s t : Session} (d : Delivery) (h : Agree s t) (hs : Settled H s d) :
    Agree (s.step H d.whole) (run (step H) t d.segments) := by
  cases hl : s.live with
  | false =>
    rwa [step_of_not_live H hl, run_of_not_live H (h.live ▸ hl)]
  | true =>
    obtain ⟨hr, hrest⟩ := hs hl
    exact (h.first d hl hr).rest hrest

/-! ## Sequences of packets -/

variable (H)

/-- The session after packets that arrive in one read each. -/
def wholeRun (s : Session) (ds : List Delivery) : Session :=
  run (fun s d => s.step H d.whole) s ds

/-- The session after packets that arrive as TCP cut them. -/
def segmentedRun (s : Session) (ds : List Delivery) : Session :=
  run (step H) s (ds.flatMap Delivery.segments)

/-- Deliveries whose first reads settle their packets and whose other reads are
ignored execute the statements and produce the responses of whole packets. -/
theorem segmentation_independent (buff : Buffer) (ds : List Delivery)
    (h : Along (fun s d => s.step H d.whole) (Settled H) (start buff) ds) :
    (segmentedRun H (start buff) ds).statements = (wholeRun H (start buff) ds).statements ∧
    (segmentedRun H (start buff) ds).responses = (wholeRun H (start buff) ds).responses := by
  have hstart : Agree (start buff) (start buff) := ⟨rfl, rfl, rfl, rfl, rfl⟩
  have hagree : Agree (wholeRun H (start buff) ds) (segmentedRun H (start buff) ds) :=
    run_simulation Delivery.segments (fun _ _ d hst hs => hst.delivery d hs) hstart h
  exact ⟨hagree.statements.symm, hagree.responses.symm⟩

end Session

/-- A well-formed packet in one read. -/
def Delivery.one (packet : Bytes) (h : WellFormed packet) : Delivery where
  packet := packet
  wellFormed := h
  env := .sample
  first := ⟨packet, h.pos, h.fits⟩
  rest := []
  joined := by simp

/-- A well-formed packet cut in two behind `k` bytes. -/
def Delivery.cut (packet : Bytes) (h : WellFormed packet) (k : Nat) (hk : 0 < k)
    (hlt : k < packet.length) : Delivery where
  packet := packet
  wellFormed := h
  env := .sample
  first := ⟨packet.take k, by simp; omega, by have := h.fits; simp; omega⟩
  rest := [⟨.sample, packet.drop k, by simp; omega, by have := h.fits; simp; omega⟩]
  joined := by simp

theorem wellFormed_challengePacket : WellFormed (challengePacket osWin (.zero 4) 65) :=
  .challenge (by decide) (by decide) (by decide)

/-- A proof packet whose `num_of_keys` is no command. -/
def keyedProofPacket : Bytes := (proofPacket (.encode 32 1) (.zero 20) (.zero 20)).take 73 ++ [2, 0]

theorem wellFormed_keyedProofPacket : WellFormed keyedProofPacket := .proof (by decide) (by decide)

/-- A challenge in one read and a proof whose last two bytes come late. -/
def lateTail : List Delivery :=
  [.one _ wellFormed_challengePacket,
    .cut _ wellFormed_keyedProofPacket 73 (by decide) (by decide)]

theorem segmentation_independent_lateTail :
    (Session.segmentedRun zeroHash (.start (.zero 1024)) lateTail).statements =
      (Session.wholeRun zeroHash (.start (.zero 1024)) lateTail).statements ∧
    (Session.segmentedRun zeroHash (.start (.zero 1024)) lateTail).responses =
      (Session.wholeRun zeroHash (.start (.zero 1024)) lateTail).responses := by
  refine Session.segmentation_independent zeroHash (.zero 1024) lateTail ⟨?_, ?_, trivial⟩
  · intro _
    refine ⟨⟨fun _ => Or.inl (by decide), fun h => absurd h (by decide)⟩, ?_⟩
    intro i hi
    cases hi
  · intro _
    refine ⟨⟨fun h => absurd h (by decide), fun _ => Or.inl (by decide)⟩, ?_⟩
    intro i hi
    obtain rfl := List.mem_singleton.mp hi
    exact ⟨by decide, by decide⟩

/-- A challenge whose first four bytes come alone. -/
def cutChallenge : List Delivery :=
  [.cut _ wellFormed_challengePacket 4 (by decide) (by decide)]

/-- The first piece is dropped as a challenge with wrong sizes, and no read is
outstanding for the rest. -/
theorem cutChallenge_lost :
    (Session.segmentedRun zeroHash (.start (.zero 1024)) cutChallenge).statements ≠
      (Session.wholeRun zeroHash (.start (.zero 1024)) cutChallenge).statements ∧
    (Session.segmentedRun zeroHash (.start (.zero 1024)) cutChallenge).responses = [] ∧
    (Session.wholeRun zeroHash (.start (.zero 1024)) cutChallenge).responses.length = 1 := by
  refine ⟨fun e => ?_, by decide, by decide⟩
  exact absurd (congrArg List.length e) (by decide)

end Mpool.Logon
