import Mpool.Lib.Except
import Mpool.Database.Atomicity

/-! How often one call of `Execute` applies its statement, when a connection can
be lost after the server ran the statement and before its answer arrives. The
client sees the same error number as for a loss before the statement was run,
and executes the statement again on the new connection. -/

namespace Mpool.Database

/-- One attempt: the server answers it, or runs the statement and the connection
is lost before the answer arrives. -/
inductive Attempted where
  | answered (answer : Answer)
  | answerLost (errno : Nat) (lost : connectionLost errno = true) (opens : List OpenReply)

/-- The attempts of `Execute` at one command against such a server. -/
def executeAttempts (c : Command) : List Attempted → World → Except Stop (World × Bool)
  | [], w => if w.mysql.isNone then .ok (w, false) else .error .silence
  | attempt :: attempts, w =>
    if w.mysql.isNone then .ok (w, false)
    else match attempt with
      | .answered .success => .ok (w.perform c, true)
      | .answered (.failure errno opens) => do
        let (w, again) ← handleMySQLErrno (w.fail errno) errno 5 opens
        if again then executeAttempts c attempts w else .ok (w, false)
      | .answerLost errno _ opens => do
        let (w, again) ← handleMySQLErrno ((w.perform c).fail errno) errno 5 opens
        if again then executeAttempts c attempts w else .ok (w, false)

/-- `Execute(std::string_view)` and `Execute(PreparedStatementBase*)`. -/
def executeStatement (stmts : List (Option MySQLPreparedStatement)) (statement : Statement)
    (attempts : List Attempted) (w : World) : Except Stop (World × Bool) :=
  match statement with
  | .raw _ => executeAttempts (.query statement.data) attempts w
  | .prepared stmt =>
    if w.mysql.isNone then .ok (w, false)
    else do
      let m_mStmt ← stmt.select stmts
      if m_mStmt.paramCount < stmt.statement_data.length then .error .abort
      else executeAttempts (.query statement.data) attempts w

/-- Where every answer arrives, these are the attempts of `execute`. -/
theorem executeAttempts_answered (c : Command) (answers : List Answer) (w : World) :
    executeAttempts c (answers.map .answered) w = execute c answers w := by
  induction answers generalizing w with
  | nil => rfl
  | cons answer answers ih =>
    cases answer with
    | success => rfl
    | failure errno opens => simp only [List.map_cons, executeAttempts, execute, ih]

theorem executeStatement_answered (stmts : List (Option MySQLPreparedStatement))
    (stmt : PreparedStatementBase) (answers : List Answer) (w : World) :
    executeStatement stmts (.prepared stmt) (answers.map .answered) w =
      executePrepared stmts stmt answers w := by
  simp only [executeStatement, executePrepared, executeAttempts_answered, Statement.data]

/-! ## Counting the applications -/

/-- The losses behind a run of the statement, among the attempts one call makes. -/
def answersLost : List Attempted → Nat
  | [] => 0
  | .answered .success :: _ => 0
  | .answered (.failure errno opens) :: attempts =>
    match reconnect false errno 5 opens with
    | .ok .fresh => answersLost attempts
    | _ => 0
  | .answerLost errno _ opens :: attempts =>
    match reconnect false errno 5 opens with
    | .ok .fresh => answersLost attempts + 1
    | _ => 1

theorem Autocommit.connect (w : World) : Autocommit w.connect := ⟨0, rfl⟩

theorem Autocommit.perform {w : World} (h : Autocommit w) (data : SQLElementData) :
    w.perform (.query data) = ⟨w.durable ++ [data], some ⟨none, 0⟩⟩ := by
  obtain ⟨errno, hw⟩ := h
  simp only [World.perform, hw]

/-- What the reconnect loop leaves applied is what was applied before it. -/
theorem Reconnect.leave_durable (r : Reconnect) (w : World) : (r.leave w).durable = w.durable := by
  cases r <;> rfl

/-- One failed attempt, by how its reconnect loop ends. -/
theorem handleMySQLErrno_fail (w : World) (errno : Nat) (opens : List OpenReply) :
    handleMySQLErrno (w.fail errno) errno 5 opens = (reconnect false errno 5 opens).map
      fun r => (r.leave (w.fail errno), decide (r = .fresh)) :=
  handleMySQLErrno_eq (w.fail errno) false errno 5 opens

/-- After a failed attempt the rest is run on a new connection, or the call returns
false with nothing more applied. -/
theorem executeAttempts_failed {c : Command} {attempts : List Attempted} {errno : Nat}
    {opens : List OpenReply} {w w' : World} {done : Bool}
    (h : (do
      let (w, again) ← handleMySQLErrno (w.fail errno) errno 5 opens
      if again then executeAttempts c attempts w else .ok (w, false)) = .ok (w', done)) :
    (reconnect false errno 5 opens = .ok .fresh ∧
      executeAttempts c attempts w.connect = .ok (w', done)) ∨
    ∃ r, reconnect false errno 5 opens = .ok r ∧ r ≠ .fresh ∧ done = false ∧
      w'.durable = w.durable := by
  obtain ⟨⟨w₁, again⟩, hloop, h⟩ := Except.bind_eq_ok.mp h
  rw [handleMySQLErrno_fail] at hloop
  obtain ⟨r, hr, hleave⟩ := Except.map_eq_ok.mp hloop
  cases hleave
  by_cases hfresh : r = .fresh
  · subst hfresh
    exact .inl ⟨hr, h⟩
  · simp only [hfresh, decide_false, Bool.false_eq_true, ↓reduceIte] at h
    cases h
    exact .inr ⟨r, hr, hfresh, rfl, Reconnect.leave_durable r _⟩

/-- By induction on the attempts: each loss behind a run adds one application. -/
theorem executeAttempts_durable {data : SQLElementData} {attempts : List Attempted}
    {w w' : World} {done : Bool} (hw : Autocommit w)
    (h : executeAttempts (.query data) attempts w = .ok (w', done)) :
    w'.durable = w.durable ++
      List.replicate (answersLost attempts + if done then 1 else 0) data := by
  induction attempts generalizing w with
  | nil =>
    obtain ⟨errno, hmysql⟩ := hw
    simp [executeAttempts, hmysql] at h
  | cons attempt attempts ih =>
    have hopen : w.mysql.isNone = false := by
      simpa [Option.isSome_iff_ne_none] using hw.isOpen
    simp only [executeAttempts, hopen, Bool.false_eq_true, ↓reduceIte] at h
    cases attempt with
    | answered answer =>
      cases answer with
      | success =>
        cases h
        rw [hw.perform]
        rfl
      | failure errno opens =>
        rcases executeAttempts_failed h with ⟨hr, hrest⟩ | ⟨r, hr, hfresh, rfl, hdurable⟩
        · simp only [answersLost, hr]
          have hdurable := ih (.connect w) hrest
          exact hdurable
        · cases r with
          | fresh => exact absurd rfl hfresh
          | kept => simp [answersLost, hr, hdurable]
          | null => simp [answersLost, hr, hdurable]
    | answerLost errno lost opens =>
      rcases executeAttempts_failed h with ⟨hr, hrest⟩ | ⟨r, hr, hfresh, rfl, hdurable⟩
      · have hdurable := ih (.connect _) hrest
        rw [hw.perform] at hdurable
        simp only [answersLost, hr]
        rw [hdurable, Nat.add_right_comm, List.replicate_succ]
        simp only [World.connect, List.append_assoc, List.cons_append, List.nil_append]
      · rw [hw.perform] at hdurable
        cases r with
        | fresh => exact absurd rfl hfresh
        | kept => simp [answersLost, hr, hdurable]
        | null => simp [answersLost, hr, hdurable]

end Mpool.Database
