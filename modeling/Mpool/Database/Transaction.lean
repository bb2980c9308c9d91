import Mpool.Lib.Except
import Mpool.Database.MySQLConnection

/-! Which transactions are atomic. A command whose connection is lost is tried
again on a new connection, which has no transaction: what was done before it is
gone, and what follows is applied statement by statement. -/

namespace Mpool.Database

/-! ## The course of one command -/

/-- What the reconnect loop leaves of `m_Mysql`. -/
inductive Reconnect where
  | kept
  | null
  | fresh
  deriving DecidableEq

def Reconnect.leave : Reconnect → World → World
  | .kept, w => w
  | .null, w => w.close
  | .fresh, w => w.connect

/-- The reconnect loop by its error numbers; `closed` says that the handle it
started with is gone. -/
def reconnect (closed : Bool) (errNo attempts : Nat) (opens : List OpenReply) :
    Except Stop Reconnect :=
  if connectionLost errNo || errNo = CR_CONN_HOST_ERROR then
    match opens with
    | [] => .error .silence
    | .connected prepared :: _ => if prepared then .ok .fresh else .error .abort
    | .initFailed :: opens =>
      if attempts - 1 = 0 then .error .abort
      else reconnect (closed || connectionLost errNo) CR_UNKNOWN_ERROR (attempts - 1) opens
    | .refused errno _ :: opens =>
      if attempts - 1 = 0 then .error .abort else reconnect true errno (attempts - 1) opens
  else if abortsProcess errNo then .error .abort
  else .ok (if closed then .null else .kept)
termination_by structural opens

/-- How the attempts at a command end: the server does it, refuses it, or there
is no connection left. -/
inductive Final where
  | done
  | refused (errno : Nat)
  | gone
  deriving DecidableEq

/-- `retried` says that the command moved to a new connection. -/
structure Course where
  retried : Bool
  final : Final
  deriving DecidableEq

def course : List Answer → Except Stop Course
  | [] => .error .silence
  | .success :: _ => .ok ⟨false, .done⟩
  | .failure errno opens :: answers =>
    match reconnect false errno 5 opens with
    | .error stop => .error stop
    | .ok .kept => .ok ⟨false, .refused errno⟩
    | .ok .null => .ok ⟨false, .gone⟩
    | .ok .fresh => (course answers).map fun c => ⟨true, c.final⟩

/-- The world behind a command, and whether it was done. -/
def Course.leave (c : Course) (command : Command) (w : World) : World × Bool :=
  let w := if c.retried then w.connect else w
  match c.final with
  | .done => (w.perform command, true)
  | .refused errno => (w.fail errno, false)
  | .gone => (w.close, false)

theorem close_if (w : World) (closed lost : Bool) :
    (if lost then (if closed then w.close else w).close else if closed then w.close else w) =
      if closed || lost then w.close else w := by
  cases closed <;> cases lost <;> rfl

theorem connect_if (w : World) (closed : Bool) :
    (if closed then w.close else w).connect = w.connect := by
  cases closed <;> rfl

theorem handleMySQLErrno_eq (w : World) (closed : Bool) (errNo attempts : Nat)
    (opens : List OpenReply) :
    handleMySQLErrno (if closed then w.close else w) errNo attempts opens =
      (reconnect closed errNo attempts opens).map fun r => (r.leave w, decide (r = .fresh)) := by
  induction opens generalizing closed errNo attempts with
  | nil =>
    unfold handleMySQLErrno reconnect
    split
    · rfl
    · split
      · rfl
      · cases closed <;> rfl
  | cons reply opens ih =>
    unfold handleMySQLErrno reconnect
    split
    · simp only [close_if]
      cases reply with
      | connected prepared =>
        simp only [World.open, connect_if, ↓reduceIte, OpenReply.prepared]
        cases prepared <;> rfl
      | initFailed =>
        have h0 : CR_UNKNOWN_ERROR ≠ 0 := by decide
        simp only [World.open, h0, ↓reduceIte]
        split
        · rfl
        · exact ih (closed || connectionLost errNo) CR_UNKNOWN_ERROR (attempts - 1)
      | refused errno nonzero =>
        simp only [World.open, nonzero, ↓reduceIte]
        split
        · rfl
        · have hclose : (if closed || connectionLost errNo then w.close else w).close =
              if true then w.close else w := by
            cases closed || connectionLost errNo <;> rfl
          rw [hclose]
          exact ih true errno (attempts - 1)
    · split
      · rfl
      · cases closed <;> rfl

theorem execute_null (command : Command) (answers : List Answer) (w : World)
    (h : w.mysql = none) : execute command answers w = .ok (w, false) := by
  cases answers <;> simp [execute, h]

theorem Course.leave_connect (f : Final) (command : Command) (w : World) (retried : Bool) :
    (Course.mk retried f).leave command w.connect = (Course.mk true f).leave command w := by
  cases retried <;> rfl

theorem fail_connect (w : World) (errno : Nat) : (w.fail errno).connect = w.connect := rfl

theorem execute_eq (command : Command) (answers : List Answer) {w : World}
    (h : w.mysql ≠ none) :
    execute command answers w = (course answers).map fun c => c.leave command w := by
  induction answers generalizing w with
  | nil => simp [execute, h, course, Except.map]
  | cons answer answers ih =>
    cases answer with
    | success => simp [execute, h, course, Except.map, Course.leave]
    | failure errno opens =>
      have hloop := handleMySQLErrno_eq (w.fail errno) false errno 5 opens
      simp only [Bool.false_eq_true, ↓reduceIte] at hloop
      simp only [execute, Option.isNone_iff_eq_none, h, ↓reduceIte, hloop, course]
      cases reconnect false errno 5 opens with
      | error stop => rfl
      | ok r =>
        cases r with
        | kept => rfl
        | null => rfl
        | fresh =>
          have hih := ih (w := w.connect) (by simp [World.connect])
          simp only [Except.map, Reconnect.leave, fail_connect, bind, Except.bind, decide_true,
            ↓reduceIte, hih]
          cases course answers with
          | error stop => rfl
          | ok c => simp only [Course.leave_connect c.final command w c.retried]

theorem execute_ok {command : Command} {answers : List Answer} {w : World} {r : World × Bool}
    (hw : w.mysql ≠ none) (h : execute command answers w = .ok r) :
    ∃ c, course answers = .ok c ∧ c.leave command w = r := by
  rw [execute_eq command answers hw] at h
  exact Except.map_eq_ok.mp h

/-! ## Kinds of answers -/

/-- The first attempt is answered with success. -/
def AtOnce (answers : List Answer) : Prop := ∃ rest, answers = .success :: rest

/-- The command is done in the end, on whatever connection. -/
def Done (answers : List Answer) : Prop := ∃ retried, course answers = .ok ⟨retried, .done⟩

/-- The command is done after its connection was lost. -/
def Retried (answers : List Answer) : Prop := course answers = .ok ⟨true, .done⟩

/-- There is no connection left. -/
def Gone (answers : List Answer) : Prop := ∃ retried, course answers = .ok ⟨retried, .gone⟩

/-- The error code a failed command is reported with. -/
def Final.code (nullErrno : Nat) : Final → Option Nat
  | .done => none
  | .refused errno => some errno
  | .gone => some nullErrno

def FailsWith (nullErrno : Nat) (answers : List Answer) (code : Nat) : Prop :=
  ∃ retried final, course answers = .ok ⟨retried, final⟩ ∧ final.code nullErrno = some code

theorem course_atOnce {answers : List Answer} :
    AtOnce answers ↔ course answers = .ok ⟨false, .done⟩ := by
  constructor
  · rintro ⟨rest, rfl⟩
    rfl
  · intro h
    cases answers with
    | nil => cases h
    | cons answer answers =>
      cases answer with
      | success => exact ⟨answers, rfl⟩
      | failure errno opens =>
        simp only [course] at h
        split at h
        · cases h
        · cases h
        · cases h
        · cases hc : course answers <;> simp [hc, Except.map] at h

theorem AtOnce.done {answers : List Answer} (h : AtOnce answers) : Done answers :=
  ⟨false, course_atOnce.mp h⟩

theorem Retried.done {answers : List Answer} (h : Retried answers) : Done answers := ⟨true, h⟩

theorem AtOnce.not_retried {answers : List Answer} (h : AtOnce answers) : ¬ Retried answers := by
  intro hr
  simp [Retried, course_atOnce.mp h] at hr

theorem Gone.not_done {answers : List Answer} (h : Gone answers) : ¬ Done answers := by
  rintro ⟨r, hc⟩
  obtain ⟨r', hc'⟩ := h
  rw [hc'] at hc
  cases hc

theorem Done.not_failsWith {answers : List Answer} (h : Done answers) (nullErrno code : Nat) :
    ¬ FailsWith nullErrno answers code := by
  rintro ⟨r, f, hc, hf⟩
  obtain ⟨r', hc'⟩ := h
  rw [hc'] at hc
  cases hc
  cases hf

theorem FailsWith.unique {nullErrno code code' : Nat} {answers : List Answer}
    (h : FailsWith nullErrno answers code) (h' : FailsWith nullErrno answers code') :
    code = code' := by
  obtain ⟨r, f, hc, hf⟩ := h
  obtain ⟨r', f', hc', hf'⟩ := h'
  rw [hc] at hc'
  cases hc'
  exact Option.some.inj (hf.symm.trans hf')

/-! ## What a command leaves -/

theorem Course.leave_durable {c : Course} (h : c.final ≠ .done) (command : Command) (w : World) :
    (c.leave command w).1.durable = w.durable := by
  obtain ⟨retried, final⟩ := c
  cases final with
  | done => exact absurd rfl h
  | refused errno => cases retried <;> rfl
  | gone => cases retried <;> rfl

theorem Course.leave_not_done {c : Course} (h : c.final ≠ .done) (command : Command) (w : World) :
    (c.leave command w).2 = false := by
  obtain ⟨retried, final⟩ := c
  cases final with
  | done => exact absurd rfl h
  | refused errno => rfl
  | gone => rfl

theorem Course.leave_rollback (c : Course) (w : World) :
    (c.leave .rollback w).1.durable = w.durable := by
  obtain ⟨retried, final⟩ := c
  cases final with
  | done =>
    cases retried with
    | false =>
      simp only [Course.leave, World.perform, Bool.false_eq_true, ↓reduceIte]
      cases w.mysql <;> rfl
    | true => rfl
  | refused errno => exact Course.leave_durable (by simp) _ _
  | gone => exact Course.leave_durable (by simp) _ _

theorem Course.leave_code {c : Course} (h : c.final ≠ .done) (command : Command) {w : World}
    (hw : w.mysql ≠ none) (nullErrno : Nat) :
    c.final.code nullErrno = some (getLastError nullErrno (c.leave command w).1) := by
  obtain ⟨handle, hw⟩ := Option.ne_none_iff_exists'.mp hw
  obtain ⟨retried, final⟩ := c
  cases final with
  | done => exact absurd rfl h
  | refused errno => cases retried <;> simp [Final.code, getLastError, Course.leave, World.fail,
      World.connect, hw]
  | gone => cases retried <;> rfl

theorem rollbackTransaction_durable {answers : List Answer} {w w' : World}
    (h : rollbackTransaction answers w = .ok w') : w'.durable = w.durable := by
  by_cases hw : w.mysql = none
  · rw [rollbackTransaction, execute_null _ _ _ hw] at h
    cases h
    rfl
  · obtain ⟨r, hr, rfl⟩ := Except.map_eq_ok.mp h
    obtain ⟨c, -, rfl⟩ := execute_ok hw hr
    rw [Course.leave_rollback]

/-- An element that passes the checks is executed as a query. -/
theorem executeElement_ok {stmts : List (Option MySQLPreparedStatement)} {data : SQLElementData}
    {answers : List Answer} {w : World} {r : World × Bool}
    (h : executeElement stmts data answers w = .ok r) :
    execute (.query data) answers w = .ok r := by
  obtain ⟨element, type⟩ := data
  cases type with
  | SQL_ELEMENT_RAW =>
    cases element with
    | statement stmt => cases h
    | text sql =>
      simp only [executeElement] at h
      split at h
      · cases h
      · exact h
  | SQL_ELEMENT_PREPARED =>
    cases element with
    | text sql => cases h
    | statement stmt =>
      cases stmt with
      | none => cases h
      | some stmt =>
        simp only [executeElement, executePrepared, Option.isNone_iff_eq_none] at h
        split at h
        · rename_i hw
          rw [execute_null _ _ _ hw, h]
        · obtain ⟨m_mStmt, -, h⟩ := Except.bind_eq_ok.mp h
          split at h
          · cases h
          · exact h

/-- One round of the loop: the query is done and the loop goes on, or it fails,
its error is reported and what was done stays as it is. -/
theorem executeQueries_cons {stmts : List (Option MySQLPreparedStatement)} {nullErrno : Nat}
    {finish : List Answer} {data : SQLElementData} {queries : List SQLElementData}
    {answers : Nat → List Answer} {w w' : World} {code : Nat} (hw : w.mysql ≠ none)
    (h : executeQueries stmts nullErrno finish (data :: queries) answers w = .ok (w', code)) :
    (∃ retried, course (answers 0) = .ok ⟨retried, .done⟩ ∧
      executeQueries stmts nullErrno finish queries (fun i => answers (i + 1))
        ((Course.mk retried .done).leave (.query data) w).1 = .ok (w', code)) ∨
    FailsWith nullErrno (answers 0) code ∧ w'.durable = w.durable := by
  obtain ⟨r, he, h⟩ := Except.bind_eq_ok.mp h
  obtain ⟨c, hc, rfl⟩ := execute_ok hw (executeElement_ok he)
  by_cases hf : c.final = .done
  · left
    obtain ⟨retried, final⟩ := c
    obtain rfl : final = .done := hf
    exact ⟨retried, hc, by simpa [Course.leave] using h⟩
  · right
    simp only [Course.leave_not_done hf, Bool.false_eq_true, ↓reduceIte] at h
    obtain ⟨w₁, hr, h⟩ := Except.bind_eq_ok.mp h
    cases h
    refine ⟨⟨c.retried, c.final, hc, Course.leave_code hf _ hw nullErrno⟩, ?_⟩
    rw [rollbackTransaction_durable hr, Course.leave_durable hf]

end Mpool.Database
