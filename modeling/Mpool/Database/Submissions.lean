import Mpool.Database.Transaction

/-! How often one call of `Execute` or `_Query` submits its statement to a server
that goes on answering for ever. `attempts` counts the failed reconnects behind
one submission; nothing counts the submissions. -/

namespace Mpool.Database

/-- One attempt: the statement is submitted and answered, or a prepared statement
(`binds`) could not be bound and is not submitted. -/
inductive ServerAttempt (binds : Bool) where
  | submitted (answer : Answer)
  | unbound (h : binds = true) (errno : Nat) (opens : List OpenReply)

namespace ServerAttempt

variable {binds : Bool}

def answer : ServerAttempt binds → Answer
  | .submitted answer => answer
  | .unbound _ errno opens => .failure errno opens

def isSubmission : ServerAttempt binds → Bool
  | .submitted _ => true
  | .unbound .. => false

/-- The attempt fails with an error that leads to a reconnect, and the reconnect
succeeds. -/
def Reconnected (a : ServerAttempt binds) : Prop :=
  match a.answer with
  | .success => False
  | .failure errno opens => reconnect false errno 5 opens = .ok .fresh

end ServerAttempt

/-- An infinite behaviour of the server, which answers every call of `Open` that a
failed attempt can lead to. -/
structure Server (binds : Bool) where
  attempt : Nat → ServerAttempt binds
  complete : ∀ i errno opens, (attempt i).answer = .failure errno opens → 5 ≤ opens.length

/-- The submissions among the `n` attempts from attempt `i` on. -/
def Server.submissions {binds : Bool} (s : Server binds) (i n : Nat) : Nat :=
  ((List.range' i n).map s.attempt).countP ServerAttempt.isSubmission

/-- The recursion of `Execute` from attempt `i` on, at most `fuel` calls deep: the
submissions it makes, and its result. -/
def submit {binds : Bool} (c : Command) (s : Server binds) :
    Nat → Nat → World → Nat × Except Stop (World × Bool)
  | 0, _, w => (0, if w.mysql.isNone then .ok (w, false) else .error .silence)
  | fuel + 1, i, w =>
    if w.mysql.isNone then (0, .ok (w, false))
    else
      let submitted := if (s.attempt i).isSubmission then 1 else 0
      match (s.attempt i).answer with
      | .success => (submitted, .ok (w.perform c, true))
      | .failure errno opens =>
        match handleMySQLErrno (w.fail errno) errno 5 opens with
        | .error stop => (submitted, .error stop)
        | .ok (w, again) =>
          if again then
            let rest := submit c s fuel (i + 1) w
            (submitted + rest.1, rest.2)
          else (submitted, .ok (w, false))

def Statement.binds : Statement → Bool
  | .raw _ => false
  | .prepared _ => true

/-- The statement is selected and its parameters fit. -/
def Statement.ready (stmts : List (Option MySQLPreparedStatement)) :
    Statement → Except Stop Unit
  | .raw _ => .ok ()
  | .prepared stmt => do
    let m_mStmt ← stmt.select stmts
    if m_mStmt.paramCount < stmt.statement_data.length then .error .abort else .ok ()

/-- A call of `Execute`, or of `_Query` with the row count of the result that
`mysql_store_result` stores, if it stores one. -/
inductive ConnectionCall where
  | execute (statement : Statement)
  | query (statement : Statement) (stored : Option Nat)

namespace ConnectionCall

def statement : ConnectionCall → Statement
  | .execute statement => statement
  | .query statement _ => statement

/-- What the call returns when its statement succeeds. -/
def returned : ConnectionCall → Bool
  | .query (.raw _) stored => stored.any (· ≠ 0)
  | _ => true

def run (stmts : List (Option MySQLPreparedStatement)) (call : ConnectionCall)
    (s : Server call.statement.binds) (fuel : Nat) (w : World) :
    Nat × Except Stop (World × Bool) :=
  if w.mysql.isNone then (0, .ok (w, false))
  else match call.statement.ready stmts with
    | .error stop => (0, .error stop)
    | .ok () =>
      let out := submit (.query call.statement.data) s fuel 0 w
      (out.1, out.2.map fun r => (r.1, r.2 && call.returned))

/-- The call returns or aborts after at most `bound` submissions. -/
def EndsWithin (stmts : List (Option MySQLPreparedStatement)) (call : ConnectionCall)
    (s : Server call.statement.binds) (w : World) (bound : Nat) : Prop :=
  ∃ fuel, (call.run stmts s fuel w).2 ≠ .error .silence ∧ (call.run stmts s fuel w).1 ≤ bound

/-- The call gets as far as its first attempt. -/
def Starts (stmts : List (Option MySQLPreparedStatement)) (call : ConnectionCall) (w : World) :
    Prop := w.mysql ≠ none ∧ call.statement.ready stmts = .ok ()

end ConnectionCall

/-- Some attempt does not end in a successful reconnect, and the statement is
submitted at most `bound` times up to it. -/
def Server.StopsWithin {binds : Bool} (s : Server binds) (bound : Nat) : Prop :=
  ∃ k, ¬ (s.attempt k).Reconnected ∧ (∀ j < k, (s.attempt j).Reconnected) ∧
    s.submissions 0 (k + 1) ≤ bound

/-! ## The recursion is that of `Execute` -/

section submit

variable {binds : Bool} (c : Command) (s : Server binds)

theorem submit_execute (fuel i : Nat) (w : World) :
    (submit c s fuel i w).2 =
      execute c ((List.range' i fuel).map fun j => (s.attempt j).answer) w := by
  induction fuel generalizing i w with
  | zero => rfl
  | succ fuel ih =>
    simp only [submit, List.range'_succ, List.map_cons, execute]
    split
    · rfl
    · cases (s.attempt i).answer with
      | success => rfl
      | failure errno opens =>
        simp only [bind, Except.bind]
        cases handleMySQLErrno (w.fail errno) errno 5 opens with
        | error stop => rfl
        | ok r =>
          obtain ⟨w', again⟩ := r
          cases again with
          | false => rfl
          | true => exact ih (i + 1) w'

/-- A call of `Execute(PreparedStatementBase*)` is the one of the connection. -/
theorem ConnectionCall.run_prepared (stmts : List (Option MySQLPreparedStatement))
    (stmt : PreparedStatementBase) (s : Server true) (fuel : Nat) (w : World) :
    (ConnectionCall.run stmts (.execute (.prepared stmt)) s fuel w).2 =
      executePrepared stmts stmt ((List.range' 0 fuel).map fun j => (s.attempt j).answer) w := by
  unfold ConnectionCall.run executePrepared
  split
  · rfl
  · simp only [ConnectionCall.statement, Statement.ready, bind, Except.bind]
    cases stmt.select stmts with
    | error stop => rfl
    | ok m_mStmt =>
      by_cases hfit : m_mStmt.paramCount < stmt.statement_data.length
      · simp only [hfit, ↓reduceIte]
      · simp only [hfit, ↓reduceIte, ← submit_execute, ConnectionCall.returned, Bool.and_true,
          Statement.data]
        exact congrFun Except.map_id _

/-! ## The reconnects behind one attempt -/

theorem reconnect_not_silent {closed : Bool} {errNo attempts : Nat} {opens : List OpenReply}
    (h0 : 0 < attempts) (h : attempts ≤ opens.length) :
    reconnect closed errNo attempts opens ≠ .error .silence := by
  induction opens generalizing closed errNo attempts with
  | nil => exact absurd h (by simp; omega)
  | cons reply opens ih =>
    unfold reconnect
    split
    · cases reply with
      | connected prepared => cases prepared <;> simp
      | initFailed =>
        dsimp only
        split
        · simp
        · exact ih (by omega) (by simp at h; omega)
      | refused errno nonzero =>
        dsimp only
        split
        · simp
        · exact ih (by omega) (by simp at h; omega)
    · split <;> simp

variable {w : World}

theorem submit_reconnected (hw : w.mysql ≠ none) {i : Nat} (h : (s.attempt i).Reconnected)
    (fuel : Nat) :
    submit c s (fuel + 1) i w =
      ((if (s.attempt i).isSubmission then 1 else 0) + (submit c s fuel (i + 1) w.connect).1,
        (submit c s fuel (i + 1) w.connect).2) := by
  unfold ServerAttempt.Reconnected at h
  cases ha : (s.attempt i).answer with
  | success => simp [ha] at h
  | failure errno opens =>
    simp only [ha] at h
    have hloop := handleMySQLErrno_eq (w.fail errno) false errno 5 opens
    simp only [Bool.false_eq_true, ↓reduceIte, h, Except.map, Reconnect.leave, decide_true,
      fail_connect] at hloop
    simp [submit, hw, ha, hloop]

theorem submit_stopped (hw : w.mysql ≠ none) {i : Nat} (h : ¬ (s.attempt i).Reconnected)
    (fuel : Nat) :
    (submit c s (fuel + 1) i w).1 = (if (s.attempt i).isSubmission then 1 else 0) ∧
      (submit c s (fuel + 1) i w).2 ≠ .error .silence := by
  unfold ServerAttempt.Reconnected at h
  cases ha : (s.attempt i).answer with
  | success => simp [submit, hw, ha]
  | failure errno opens =>
    simp only [ha] at h
    have hsilent : reconnect false errno 5 opens ≠ .error .silence :=
      reconnect_not_silent (by decide) (s.complete i errno opens ha)
    have hloop := handleMySQLErrno_eq (w.fail errno) false errno 5 opens
    simp only [Bool.false_eq_true, ↓reduceIte] at hloop
    cases hr : reconnect false errno 5 opens with
    | error stop =>
      rw [hr] at hloop hsilent
      simp only [Except.map] at hloop
      simpa [submit, hw, ha, hloop] using hsilent
    | ok r =>
      rw [hr] at h hloop
      have hfresh : r ≠ .fresh := fun hr => h (by rw [hr])
      simp only [Except.map, hfresh, decide_false] at hloop
      simp [submit, hw, ha, hloop]

/-- Submissions from attempt `i` on, the attempt itself first. -/
theorem Server.submissions_succ (i n : Nat) :
    s.submissions i (n + 1) =
      (if (s.attempt i).isSubmission then 1 else 0) + s.submissions (i + 1) n := by
  rw [submissions, List.range'_succ, List.map_cons, List.countP_cons, ← submissions, Nat.add_comm]

/-- The recursion that has come to an end did so at the first attempt that is not
reconnected. -/
theorem submit_ends (hw : w.mysql ≠ none) {fuel i : Nat}
    (h : (submit c s fuel i w).2 ≠ .error .silence) :
    ∃ k, ¬ (s.attempt (i + k)).Reconnected ∧ (∀ j < k, (s.attempt (i + j)).Reconnected) ∧
      (submit c s fuel i w).1 = s.submissions i (k + 1) := by
  induction fuel generalizing i w with
  | zero => simp [submit, hw] at h
  | succ fuel ih =>
    by_cases hr : (s.attempt i).Reconnected
    · rw [submit_reconnected c s hw hr] at h
      obtain ⟨k, hk, hbefore, hcount⟩ := ih (by simp [World.connect]) h
      refine ⟨k + 1, ?_, ?_, ?_⟩
      · rwa [show i + (k + 1) = i + 1 + k by omega]
      · intro j hj
        cases j with
        | zero => exact hr
        | succ j =>
          rw [show i + (j + 1) = i + 1 + j by omega]
          exact hbefore j (by omega)
      · rw [submit_reconnected c s hw hr, hcount, s.submissions_succ i]
    · refine ⟨0, hr, by simp, ?_⟩
      rw [(submit_stopped c s hw hr fuel).1, s.submissions_succ]
      rfl

/-- At the first attempt that is not reconnected the recursion ends. -/
theorem submit_of_stop (hw : w.mysql ≠ none) {k i : Nat}
    (hk : ¬ (s.attempt (i + k)).Reconnected)
    (hbefore : ∀ j < k, (s.attempt (i + j)).Reconnected) :
    (submit c s (k + 1) i w).2 ≠ .error .silence ∧
      (submit c s (k + 1) i w).1 = s.submissions i (k + 1) := by
  induction k generalizing i w with
  | zero =>
    rw [Nat.add_zero] at hk
    obtain ⟨hcount, hend⟩ := submit_stopped c s hw hk 0
    refine ⟨hend, ?_⟩
    rw [hcount, s.submissions_succ]
    rfl
  | succ k ih =>
    have hr : (s.attempt i).Reconnected := hbefore 0 (by omega)
    have hih := ih (i := i + 1) (w := w.connect) (by simp [World.connect])
      (by rwa [show i + 1 + k = i + (k + 1) by omega])
      (fun j hj => by
        rw [show i + 1 + j = i + (j + 1) by omega]
        exact hbefore (j + 1) (by omega))
    rw [submit_reconnected c s hw hr, s.submissions_succ i]
    exact ⟨hih.1, by rw [hih.2]⟩

theorem submit_iff (hw : w.mysql ≠ none) (bound : Nat) :
    (∃ fuel, (submit c s fuel 0 w).2 ≠ .error .silence ∧ (submit c s fuel 0 w).1 ≤ bound) ↔
      s.StopsWithin bound := by
  constructor
  · rintro ⟨fuel, hend, hcount⟩
    obtain ⟨k, hk, hbefore, heq⟩ := submit_ends c s hw hend
    simp only [Nat.zero_add] at hk hbefore
    exact ⟨k, hk, hbefore, by rwa [← heq]⟩
  · rintro ⟨k, hk, hbefore, hcount⟩
    obtain ⟨hend, heq⟩ := submit_of_stop c s hw (i := 0) (by rwa [Nat.zero_add])
      (by simpa using hbefore)
    exact ⟨k + 1, hend, by rwa [heq]⟩

end submit

/-! ## One call -/

theorem map_ne_silence {R S : Type} {r : Except Stop R} (f : R → S) :
    r.map f ≠ .error .silence ↔ r ≠ .error .silence := by
  cases r <;> simp [Except.map]

namespace ConnectionCall

variable (stmts : List (Option MySQLPreparedStatement)) (call : ConnectionCall)

theorem endsWithin_of_not_starts (s : Server call.statement.binds) {w : World} (bound : Nat)
    (hready : call.statement.ready stmts ≠ .error .silence) (h : ¬ call.Starts stmts w) :
    call.EndsWithin stmts s w bound := by
  refine ⟨0, ?_⟩
  unfold run
  cases hw : w.mysql with
  | none => simp
  | some handle =>
    cases hr : call.statement.ready stmts with
    | error stop => simpa [hw, hr] using hready
    | ok u => exact absurd ⟨by simp [hw], hr⟩ h

theorem ready_ne_silence : call.statement.ready stmts ≠ .error .silence := by
  cases call.statement with
  | raw sql => simp [Statement.ready]
  | prepared stmt =>
    have hselect : stmt.select stmts ≠ .error .silence := by
      unfold PreparedStatementBase.select getPreparedStatement
      split
      all_goals
        split
        all_goals simp
    simp only [Statement.ready, bind, Except.bind]
    cases hm : stmt.select stmts with
    | error stop =>
      rw [hm] at hselect
      simpa using hselect
    | ok m_mStmt =>
      dsimp only
      split <;> simp

/-- A call ends after at most `bound` submissions exactly when it makes no attempt
at all, or the server stops answering its attempts with lost connections that can
be reopened before it has submitted the statement more often than that. -/
theorem endsWithin_iff (s : Server call.statement.binds) (w : World) (bound : Nat) :
    call.EndsWithin stmts s w bound ↔ (call.Starts stmts w → s.StopsWithin bound) := by
  by_cases h : call.Starts stmts w
  · have hsubmit := submit_iff (.query call.statement.data) s h.1 bound
    have hrun : ∀ fuel, call.run stmts s fuel w =
        ((submit (.query call.statement.data) s fuel 0 w).1,
          (submit (.query call.statement.data) s fuel 0 w).2.map
            fun r => (r.1, r.2 && call.returned)) := by
      intro fuel
      simp [run, h.1, h.2]
    simp only [EndsWithin, hrun, map_ne_silence, hsubmit, h, forall_const]
  · have hend := endsWithin_of_not_starts stmts call s bound (ready_ne_silence stmts call) h
    exact ⟨fun _ hs => absurd hs h, fun _ => hend⟩

/-- A server that loses every connection and takes every new one. -/
def losing (binds : Bool) : Server binds where
  attempt _ := .submitted (.failure CR_SERVER_LOST (List.replicate 5 (.connected true)))
  complete i errno opens h := by
    cases h
    exact Nat.le_refl 5

/-- Against it no number of submissions is enough. -/
theorem unbounded_submissions :
    ¬ ∃ bound, ∀ (stmts : List (Option MySQLPreparedStatement)) (call : ConnectionCall)
      (s : Server call.statement.binds) (w : World), call.EndsWithin stmts s w bound := by
  rintro ⟨bound, h⟩
  obtain ⟨fuel, hend, -⟩ := h [] (.execute (.raw [68])) (losing false) ⟨[], some ⟨none, 0⟩⟩
  have hend : (submit (.query (Statement.raw [68]).data) (losing false) fuel 0
      ⟨[], some ⟨none, 0⟩⟩).2 ≠ .error .silence := (map_ne_silence _).mp hend
  obtain ⟨k, hk, -⟩ := submit_ends _ _ (by simp) hend
  exact hk rfl

end ConnectionCall

end Mpool.Database
