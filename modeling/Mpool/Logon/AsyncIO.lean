import Mpool.Logon.Session

/-! The asynchronous operations of one connection. Reads and writes are in
flight from the call that starts them to the completion that calls back, and all
of them use `buff`: a read puts bytes there at any moment, a write takes its
bytes from there at any moments. Completions are handled one at a time, in any
order. -/

namespace Mpool.Logon

open Runs
open AuthLogonChallengeC (sizeMismatch login)

/-- An `async_write` in flight: `buff` as `handle_write` found it, and what has
been sent so far. -/
structure Write where
  prepared : Buffer
  sent : Bytes

/-- The reads in flight carry the number of bytes they have put into `buff`, if
they have done so. -/
structure Machine where
  conn : Conn
  reads : List (Option Nat)
  writes : List Write
  closed : Bool
  fault : Option Fault

/-- What can happen to the operation at a position of its queue. -/
inductive Label where
  | deposit (k : Nat) (data : Read)
  | completeRead (k : Nat) (env : Env)
  | failRead (k : Nat) (env : Env)
  | transmit (k : Nat) (count : Nat)
  | completeWrite (k : Nat)

namespace Machine

/-- `start()` on a new connection. -/
def start (buff : Buffer) : Machine where
  conn := .create buff
  reads := [none]
  writes := []
  closed := false
  fault := none

/-- The calls of the handlers that start or end operations. -/
def issue (m : Machine) : Call → Machine
  | .asyncRead => { m with reads := m.reads ++ [none] }
  | .asyncWrite _ wire => { m with writes := m.writes ++ [⟨wire, []⟩] }
  | .close => { m with closed := true }
  | _ => m

variable (H : Hash)

/-- The completion of the read at `k`: one call of `handle_read`. -/
def complete (m : Machine) (k : Nat) (env : Env) (error : Bool) (n : Nat) : Machine :=
  let out := handleRead H env m.conn error n
  let m := { m with reads := m.reads.eraseIdx k }
  match out.result with
  | .ok conn => out.calls.foldl issue { m with conn := conn }
  | .error f => { out.calls.foldl issue m with fault := some f }

def step (m : Machine) (l : Label) : Machine :=
  if m.fault.isSome then m
  else match l with
  | .deposit k data =>
    if m.closed = false ∧ m.reads[k]? = some none then
      { m with conn := m.conn.receive data, reads := m.reads.set k (some data.data.length) }
    else m
  | .completeRead k env =>
    match m.reads[k]? with
    | some (some n) => m.complete H k env false n
    | _ => m
  | .failRead k env =>
    if m.reads[k]? = some none then m.complete H k env true 0 else m
  | .transmit k count =>
    match m.writes[k]? with
    | some w =>
      if m.closed then m
      else
        let piece := (m.conn.buff.bytes.drop w.sent.length).take count
        { m with writes := m.writes.set k { w with sent := w.sent ++ piece } }
    | none => m
  | .completeWrite k =>
    match m.writes[k]? with
    | some w =>
      if w.sent.length = 1024 ∨ m.closed = true then { m with writes := m.writes.eraseIdx k }
      else m
    | none => m

/-! ## One user of the buffer -/

/-- At most one read is in flight, none while a write is, and every write has
sent what was prepared for it. -/
structure OneUser (m : Machine) : Prop where
  one_read : m.reads.length ≤ 1
  apart : m.writes ≠ [] → m.reads = []
  intact : ∀ w ∈ m.writes, w.sent = w.prepared.bytes.take w.sent.length

/-- A completed read finds no challenge in `buff` whose sizes agree. -/
def Unanswered (m : Machine) (l : Label) : Prop :=
  ∀ k env n, l = .completeRead k env → m.fault = none → m.reads[k]? = some (some n) →
    m.conn.buff.get 0 = AUTH_LOGON_CHALLENGE → sizeMismatch m.conn.buff = true

/-- Before the first answer: no instance, at most one read and no write. -/
structure Quiet (m : Machine) : Prop where
  srp6 : m.conn.srp6 = none
  reads : m.reads.length ≤ 1
  writes : m.writes = []

theorem Quiet.oneUser {m : Machine} (h : Quiet m) : OneUser m where
  one_read := h.reads
  apart hw := absurd h.writes hw
  intact w hw := by
    rw [h.writes] at hw
    cases hw

theorem Quiet.start (buff : Buffer) : Quiet (.start buff) := ⟨rfl, le_rfl, rfl⟩

theorem Quiet.eraseIdx {m : Machine} (h : Quiet m) {k : Nat} {r : Option Nat}
    (hk : m.reads[k]? = some r) : m.reads.eraseIdx k = [] := by
  have hlen := h.reads
  have hlt := (List.getElem?_eq_some_iff.mp hk).1
  rw [← List.length_eq_zero_iff, List.length_eraseIdx, if_pos hlt]
  omega

/-- What a completed read does before the first answer. -/
theorem Quiet.complete {m : Machine} (h : Quiet m) {k : Nat} {r : Option Nat} (env : Env) (n : Nat)
    (hk : m.reads[k]? = some r) (hu : m.conn.buff.get 0 = AUTH_LOGON_CHALLENGE →
      sizeMismatch m.conn.buff = true) : Quiet (m.complete H k env false n) := by
  have hout := handleRead_handled H env m.conn n
  have herase := h.eraseIdx hk
  simp only [Machine.complete]
  generalize handleRead H env m.conn false n = out at hout
  cases hout with
  | ignored h0 h1 => exact ⟨h.srp6, by simp [issue, herase], h.writes⟩
  | mismatch h0 hs => exact ⟨h.srp6, by simp [herase], h.writes⟩
  | unknown h0 hs ha => simp [hu h0] at hs
  | challenged row h0 hs ha => simp [hu h0] at hs
  | empty h1 hn => exact ⟨h.srp6, by simp [herase], h.writes⟩
  | reused srp h1 hn => simp [h.srp6] at hn
  | rejected srp h1 hn => simp [h.srp6] at hn
  | accepted srp K h1 hn => simp [h.srp6] at hn

theorem Quiet.step {m : Machine} (h : Quiet m) (l : Label) (hu : Unanswered m l) :
    Quiet (m.step H l) := by
  unfold Machine.step
  split
  · exact h
  rename_i hf
  have hf : m.fault = none := by simpa using hf
  cases l with
  | deposit k data =>
    dsimp only
    split
    · exact ⟨h.srp6, by simpa using h.reads, h.writes⟩
    · exact h
  | completeRead k env =>
    dsimp only
    split
    · rename_i n hk
      exact h.complete H env n hk (hu k env n rfl hf hk)
    · exact h
  | failRead k env =>
    dsimp only
    split
    · rename_i hk
      have herase := h.eraseIdx hk
      exact ⟨h.srp6, by simp [Machine.complete, handleRead, issue, herase], h.writes⟩
    · exact h
  | transmit k count =>
    simp only [h.writes, List.getElem?_nil]
    exact h
  | completeWrite k =>
    simp only [h.writes, List.getElem?_nil]
    exact h

/-- An answer leaves a write and a read in flight together. -/
theorem not_oneUser_of_answered {m : Machine} {l : Label} (hu : ¬ Unanswered m l) :
    ¬ OneUser (m.step H l) := by
  simp only [Unanswered, not_forall] at hu
  obtain ⟨k, env, n, rfl, hf, hk, h0, hs⟩ := hu
  have hs : sizeMismatch m.conn.buff = false := by simpa using hs
  have hstep : m.step H (.completeRead k env) = m.complete H k env false n := by
    simp only [Machine.step, hf, hk]
    rfl
  intro hone
  have hapart := hone.apart
  rw [hstep] at hapart
  simp only [Machine.complete, handleRead_challenge H env m.conn n h0] at hapart
  cases ha : env.account (login m.conn.buff) with
  | none =>
    rw [handleChallenge_unknown H env m.conn hs ha] at hapart
    simp [handleWrite, issue] at hapart
  | some row =>
    rw [handleChallenge_challenged H env m.conn row hs ha] at hapart
    simp [handleWrite, issue] at hapart

/-- The operations of a connection use `buff` one at a time exactly as long as
no completed read finds a challenge that is answered. -/
theorem one_user_iff (buff : Buffer) (ls : List Label) :
    Always (step H) OneUser (start buff) ls ↔ Along (step H) Unanswered (start buff) ls :=
  always_iff_along (P := Quiet) (fun _ h => h.oneUser) (fun _ l h hu => h.step H l hu)
    (fun _ _ _ hu => not_oneUser_of_answered H hu) (Quiet.start buff) ls

end Machine

/-- A challenge for an unknown account is answered, the client sends on, and the
answer goes out after the next packet has been put over it. -/
theorem answer_overwritten :
    ¬ Always (Machine.step zeroHash) Machine.OneUser (.start (.zero 1024))
      [.deposit 0 (Input.challenge osWin (.zero 4) 66).read, .completeRead 0 .sample] ∧
    (((run (Machine.step zeroHash) (.start (.zero 1024))
      [.deposit 0 (Input.challenge osWin (.zero 4) 66).read, .completeRead 0 .sample,
        .deposit 0 (Input.proof (.encode 32 1) (.zero 20) (.zero 20)).read,
        .transmit 0 3]).writes.map fun w => (w.prepared.bytes.take 3, w.sent)) =
      [([0, 0, 4], [1, 1, 0])]) := by
  constructor
  · intro h
    have hone := h.2.2.apart
    exact absurd (hone (by intro e; exact absurd (congrArg List.length e) (by decide))) (by decide)
  · decide

end Mpool.Logon
