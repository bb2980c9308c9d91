import Mpool.Database.Transaction

/-! Which calls into libmysql are given `m_Mysql`, and when it is null. The
functions of `MySQLConnection.cpp` once more, with a log of these calls. -/

namespace Mpool.Database

/-! ## The log -/

/-- The functions of libmysql that are called with `m_Mysql`. -/
inductive LibFunction where
  | mysql_query
  | mysql_errno
  | mysql_error
  | mysql_close
  | mysql_autocommit
  | mysql_set_character_set
  | mysql_stmt_init
  | mysql_store_result
  | mysql_affected_rows
  | mysql_field_count
  | mysql_more_results
  | mysql_next_result
  | mysql_ping
  | mysql_real_escape_string
  deriving DecidableEq

structure LibCall where
  function : LibFunction
  null : Bool

inductive ConnectionFlags where
  | CONNECTION_ASYNC
  | CONNECTION_SYNCH
  | CONNECTION_BOTH
  deriving DecidableEq

def ConnectionFlags.value : ConnectionFlags → Nat
  | .CONNECTION_ASYNC => 0x1
  | .CONNECTION_SYNCH => 0x2
  | .CONNECTION_BOTH => 0x1 ||| 0x2

/-- A connection with the calls made so far; `statements` is the number of
statements that `DoPrepareStatements` prepares on it. -/
structure Handle where
  world : World
  m_connectionFlags : ConnectionFlags
  statements : Nat
  calls : List LibCall

namespace Handle

def call (s : Handle) (function : LibFunction) : Handle :=
  { s with calls := s.calls ++ [⟨function, s.world.mysql.isNone⟩] }

def callAll (s : Handle) (functions : List LibFunction) : Handle := functions.foldl call s

/-- No call so far was made with a null handle. -/
def NoNull (s : Handle) : Prop := ∀ call ∈ s.calls, call.null = false

@[simp] theorem call_world (s : Handle) (function : LibFunction) :
    (s.call function).world = s.world := rfl

@[simp] theorem callAll_world (s : Handle) (functions : List LibFunction) :
    (s.callAll functions).world = s.world := by
  induction functions generalizing s with
  | nil => rfl
  | cons function functions ih => exact ih (s.call function)

theorem noNull_call (s : Handle) (function : LibFunction) :
    (s.call function).NoNull ↔ s.NoNull ∧ s.world.mysql ≠ none := by
  simp only [NoNull, call, List.mem_append, List.mem_singleton]
  constructor
  · intro h
    refine ⟨fun c hc => h c (.inl hc), ?_⟩
    have hlast := h ⟨function, s.world.mysql.isNone⟩ (.inr rfl)
    intro hnull
    simp [hnull] at hlast
  · rintro ⟨h, hopen⟩ c (hc | rfl)
    · exact h c hc
    · simpa [Option.isSome_iff_ne_none] using hopen

theorem noNull_callAll {s : Handle} (h : s.world.mysql ≠ none) (functions : List LibFunction) :
    (s.callAll functions).NoNull ↔ s.NoNull := by
  induction functions generalizing s with
  | nil => rfl
  | cons function functions ih =>
    have hih := ih (s := s.call function) h
    exact hih.trans ((noNull_call s function).trans ⟨fun hs => hs.1, fun hs => ⟨hs, h⟩⟩)

/-! ## The functions of the connection -/

/-- The `mysql_close` of a handle that is lost. -/
def closeLost (s : Handle) (errNo : Nat) : Handle :=
  if connectionLost errNo then
    let s := if s.world.mysql.isSome then s.call .mysql_close else s
    { s with world := s.world.close }
  else s

/-- What follows a successful `mysql_real_connect` in `Open`, and `PrepareStatements`. -/
def connected (s : Handle) : Handle :=
  (s.callAll [.mysql_autocommit, .mysql_set_character_set]).callAll
    (List.replicate s.statements .mysql_stmt_init)

/-- `_HandleMySQLErrno`. -/
def handleMySQLErrno (s : Handle) (errNo attempts : Nat) (opens : List OpenReply) :
    Except Stop (Handle × Bool) :=
  if connectionLost errNo || errNo = CR_CONN_HOST_ERROR then
    let s := s.closeLost errNo
    match opens with
    | [] => .error .silence
    | reply :: opens =>
      let (w, lErrno) := s.world.open reply
      let s := { s with world := w }
      if lErrno = 0 then
        if reply.prepared then .ok (s.connected, true) else .error .abort
      else if attempts - 1 = 0 then .error .abort
      else handleMySQLErrno s lErrno (attempts - 1) opens
  else if abortsProcess errNo then .error .abort
  else .ok (s, false)
termination_by structural opens

/-- The attempts at a command: `attempt` are the calls of one attempt, `report`
those behind a failed one. -/
def attempts (attempt report : List LibFunction) (c : Command) :
    List Answer → Handle → Except Stop (Handle × Bool)
  | [], s => if s.world.mysql.isNone then .ok (s, false) else .error .silence
  | answer :: answers, s =>
    if s.world.mysql.isNone then .ok (s, false)
    else
      let s := s.callAll attempt
      match answer with
      | .success => .ok ({ s with world := s.world.perform c }, true)
      | .failure errno opens => do
        let s := { s with world := s.world.fail errno }.callAll report
        let (s, again) ← s.handleMySQLErrno errno 5 opens
        if again then attempts attempt report c answers s else .ok (s, false)

/-- `Execute(std::string_view)`, and the same loop in `_Query`. -/
def executeText (c : Command) (answers : List Answer) (s : Handle) :
    Except Stop (Handle × Bool) :=
  attempts [.mysql_query] [.mysql_errno, .mysql_error] c answers s

/-- `Execute(PreparedStatementBase*)`, and the same loop in `_Query`; a prepared
statement is bound and executed without the handle. -/
def executePrepared (stmts : List (Option MySQLPreparedStatement)) (stmt : PreparedStatementBase)
    (answers : List Answer) (s : Handle) : Except Stop (Handle × Bool) :=
  if s.world.mysql.isNone then .ok (s, false)
  else do
    let m_mStmt ← stmt.select stmts
    if m_mStmt.paramCount < stmt.statement_data.length then .error .abort
    else
      attempts [] [.mysql_errno] (.query ⟨.statement (some stmt), .SQL_ELEMENT_PREPARED⟩) answers s

/-- `GetLastError`. -/
def getLastError (nullErrno : Nat) (s : Handle) : Handle × Nat :=
  (s.call .mysql_errno, Database.getLastError nullErrno s.world)

def executeElement (stmts : List (Option MySQLPreparedStatement)) (data : SQLElementData)
    (answers : List Answer) (s : Handle) : Except Stop (Handle × Bool) :=
  match data.type, data.element with
  | .SQL_ELEMENT_PREPARED, .statement (some stmt) => s.executePrepared stmts stmt answers
  | .SQL_ELEMENT_PREPARED, .statement none => .error .abort
  | .SQL_ELEMENT_PREPARED, .text _ => .error .abort
  | .SQL_ELEMENT_RAW, .text sql =>
    if sql = [] then .error .abort else s.executeText (.query data) answers
  | .SQL_ELEMENT_RAW, .statement _ => .error .abort

def executeQueries (stmts : List (Option MySQLPreparedStatement)) (nullErrno : Nat)
    (finish : List Answer) : List SQLElementData → (Nat → List Answer) → Handle →
    Except Stop (Handle × Nat)
  | [], _, s => do
    let (s, _) ← s.executeText .commit finish
    .ok (s, 0)
  | data :: queries, answers, s => do
    let (s, done) ← s.executeElement stmts data (answers 0)
    if done then executeQueries stmts nullErrno finish queries (fun i => answers (i + 1)) s
    else
      let (s, errorCode) := s.getLastError nullErrno
      let (s, _) ← s.executeText .rollback finish
      .ok (s, errorCode)

/-- `ExecuteTransaction`. -/
def executeTransaction (stmts : List (Option MySQLPreparedStatement)) (nullErrno : Nat)
    (queries : List SQLElementData) (script : Script) (s : Handle) :
    Except Stop (Handle × Int) :=
  if queries.isEmpty then .ok (s, -1)
  else do
    let (s, _) ← s.executeText .startTransaction script.start
    let (s, errorCode) ← executeQueries stmts nullErrno script.finish queries script.queries s
    .ok (s, errorCode)

/-- `Query(std::string_view)`, with the calls of `_Query` on its result. -/
def queryText (sql : Bytes) (answers : List Answer) (s : Handle) : Except Stop Handle :=
  if sql = [] then .ok s
  else do
    let (s, done) ← s.executeText (.query (Statement.raw sql).data) answers
    if done then
      .ok (s.callAll [.mysql_store_result, .mysql_affected_rows, .mysql_field_count])
    else .ok s

/-- `Query(PreparedStatementBase*)`; `more` is what `mysql_more_results` returns. -/
def queryPrepared (stmts : List (Option MySQLPreparedStatement)) (stmt : PreparedStatementBase)
    (answers : List Answer) (more : Bool) (s : Handle) : Except Stop Handle := do
  let (s, done) ← s.executePrepared stmts stmt answers
  if done then
    let s := s.call .mysql_more_results
    .ok (if more then s.call .mysql_next_result else s)
  else .ok s

/-- `PrepareStatement(std::string_view, ConnectionFlags)`; `init` says whether
`mysql_stmt_init` gives a statement. -/
def prepareStatement (flags : ConnectionFlags) (init : Bool) (s : Handle) : Handle :=
  if s.m_connectionFlags.value &&& flags.value = 0 then s
  else
    let s := s.call .mysql_stmt_init
    if init then s else s.call .mysql_error

end Handle

/-- One operation on the connection, with the server's answers to it. -/
inductive HandleOperation where
  | execute (statement : Statement) (answers : List Answer)
  | query (statement : Statement) (answers : List Answer) (more : Bool)
  | executeTransaction (queries : List SQLElementData) (script : Script)
  | ping
  | escapeString
  | getLastError
  | prepareStatement (flags : ConnectionFlags) (init : Bool)

namespace Handle

variable (stmts : List (Option MySQLPreparedStatement)) (nullErrno : Nat)

def perform (s : Handle) : HandleOperation → Except Stop Handle
  | .execute (.raw sql) answers =>
    (s.executeText (.query (Statement.raw sql).data) answers).map Prod.fst
  | .execute (.prepared stmt) answers => (s.executePrepared stmts stmt answers).map Prod.fst
  | .query (.raw sql) answers _ => s.queryText sql answers
  | .query (.prepared stmt) answers more => s.queryPrepared stmts stmt answers more
  | .executeTransaction queries script =>
    (s.executeTransaction stmts nullErrno queries script).map Prod.fst
  | .ping => .ok (s.call .mysql_ping)
  | .escapeString => .ok (s.call .mysql_real_escape_string)
  | .getLastError => .ok (s.getLastError nullErrno).1
  | .prepareStatement flags init => .ok (s.prepareStatement flags init)

/-- A sequence of operations none of which aborts the process. -/
def performAll : List HandleOperation → Handle → Except Stop Handle
  | [], s => .ok s
  | op :: ops, s => do
    let s ← s.perform stmts nullErrno op
    performAll ops s

/-! ## The log changes nothing -/

variable {stmts nullErrno}

theorem closeLost_world (s : Handle) (errNo : Nat) :
    (s.closeLost errNo).world = if connectionLost errNo then s.world.close else s.world := by
  simp only [closeLost]
  split
  · split <;> rfl
  · rfl

theorem connected_world (s : Handle) : s.connected.world = s.world := by
  rw [connected, callAll_world, callAll_world]

theorem handleMySQLErrno_world (s : Handle) (errNo attempts : Nat) (opens : List OpenReply) :
    (s.handleMySQLErrno errNo attempts opens).map (fun r => (r.1.world, r.2)) =
      Database.handleMySQLErrno s.world errNo attempts opens := by
  induction opens generalizing s errNo attempts with
  | nil =>
    unfold Handle.handleMySQLErrno Database.handleMySQLErrno
    split
    · rfl
    · split <;> rfl
  | cons reply opens ih =>
    unfold Handle.handleMySQLErrno Database.handleMySQLErrno
    split
    · simp only [closeLost_world]
      generalize (if connectionLost errNo then s.world.close else s.world) = w
      split
      · split
        · simp only [Except.map, connected_world]
        · rfl
      · split
        · rfl
        · rw [ih]
    · split <;> rfl

theorem attempts_world (attempt report : List LibFunction) (c : Command) (answers : List Answer)
    (s : Handle) :
    (s.attempts attempt report c answers).map (fun r => (r.1.world, r.2)) =
      Database.execute c answers s.world := by
  induction answers generalizing s with
  | nil =>
    unfold Handle.attempts Database.execute
    split <;> rfl
  | cons answer answers ih =>
    unfold Handle.attempts Database.execute
    split
    · rfl
    · cases answer with
      | success => simp only [Except.map, callAll_world]
      | failure errno opens =>
        simp only [callAll_world]
        have hloop := handleMySQLErrno_world
          ({ s.callAll attempt with world := s.world.fail errno }.callAll report) errno 5 opens
        simp only [callAll_world] at hloop
        rw [← hloop]
        cases handleMySQLErrno ({ s.callAll attempt with
            world := s.world.fail errno }.callAll report) errno 5 opens with
        | error stop => rfl
        | ok r =>
          obtain ⟨s', again⟩ := r
          cases again with
          | false => rfl
          | true => exact ih s'

theorem executePrepared_world (stmt : PreparedStatementBase) (answers : List Answer)
    (s : Handle) :
    (s.executePrepared stmts stmt answers).map (fun r => (r.1.world, r.2)) =
      Database.executePrepared stmts stmt answers s.world := by
  unfold Handle.executePrepared Database.executePrepared
  split
  · rfl
  · cases stmt.select stmts with
    | error stop => rfl
    | ok m_mStmt =>
      simp only [bind, Except.bind]
      split
      · rfl
      · exact attempts_world _ _ _ answers s

theorem executeElement_world (stmts : List (Option MySQLPreparedStatement))
    (data : SQLElementData) (answers : List Answer) (s : Handle) :
    (s.executeElement stmts data answers).map (fun r => (r.1.world, r.2)) =
      Database.executeElement stmts data answers s.world := by
  obtain ⟨element, type⟩ := data
  cases type with
  | SQL_ELEMENT_RAW =>
    cases element with
    | statement stmt => rfl
    | text sql =>
      simp only [Handle.executeElement, Database.executeElement]
      split
      · rfl
      · exact attempts_world _ _ _ answers s
  | SQL_ELEMENT_PREPARED =>
    cases element with
    | text sql => rfl
    | statement stmt =>
      cases stmt with
      | none => rfl
      | some stmt => exact executePrepared_world stmt answers s

theorem executeQueries_world (finish : List Answer) (queries : List SQLElementData)
    (answers : Nat → List Answer) (s : Handle) :
    (s.executeQueries stmts nullErrno finish queries answers).map (fun r => (r.1.world, r.2)) =
      Database.executeQueries stmts nullErrno finish queries answers s.world := by
  induction queries generalizing s answers with
  | nil =>
    unfold Handle.executeQueries Database.executeQueries commitTransaction executeText
    rw [← attempts_world [.mysql_query] [.mysql_errno, .mysql_error]]
    cases s.attempts [.mysql_query] [.mysql_errno, .mysql_error] .commit finish <;> rfl
  | cons data queries ih =>
    unfold Handle.executeQueries Database.executeQueries
    rw [← executeElement_world]
    cases s.executeElement stmts data (answers 0) with
    | error stop => rfl
    | ok r =>
      obtain ⟨s', done⟩ := r
      cases done with
      | true => exact ih _ s'
      | false =>
        simp only [bind, Except.bind, Except.map, Bool.false_eq_true, ↓reduceIte]
        unfold rollbackTransaction executeText Handle.getLastError
        have hroll := attempts_world [.mysql_query] [.mysql_errno, .mysql_error] .rollback finish
          (s'.call .mysql_errno)
        rw [call_world] at hroll
        simp only [← hroll]
        cases (s'.call .mysql_errno).attempts [.mysql_query] [.mysql_errno, .mysql_error]
          .rollback finish <;> rfl

theorem executeTransaction_world (queries : List SQLElementData) (script : Script) (s : Handle) :
    (s.executeTransaction stmts nullErrno queries script).map (fun r => (r.1.world, r.2)) =
      Database.executeTransaction stmts nullErrno queries script s.world := by
  unfold Handle.executeTransaction Database.executeTransaction
  split
  · rfl
  · unfold beginTransaction executeText
    rw [← attempts_world [.mysql_query] [.mysql_errno, .mysql_error]]
    cases s.attempts [.mysql_query] [.mysql_errno, .mysql_error] .startTransaction
        script.start with
    | error stop => rfl
    | ok r =>
      simp only [bind, Except.bind, Except.map]
      rw [← executeQueries_world]
      cases r.1.executeQueries stmts nullErrno script.finish queries script.queries <;> rfl

end Handle

/-! ## How a command ends -/

/-- No query of a transaction that its loop gets to is left without a connection. -/
def NoneGone : List SQLElementData → (Nat → List Answer) → Prop
  | [], _ => True
  | _ :: queries, answers =>
    ¬ Gone (answers 0) ∧ (Done (answers 0) → NoneGone queries fun i => answers (i + 1))

theorem Course.leave_mysql (c : Course) (command : Command) {w : World} (h : w.mysql ≠ none) :
    (c.leave command w).1.mysql = none ↔ c.final = .gone := by
  obtain ⟨handle, hw⟩ := Option.ne_none_iff_exists'.mp h
  obtain ⟨retried, final⟩ := c
  cases final with
  | done =>
    cases retried <;> cases command <;> cases ht : handle.transaction <;>
      simp [Course.leave, World.perform, World.connect, hw, ht]
  | refused errno => cases retried <;> simp [Course.leave, World.fail, World.connect, hw]
  | gone => cases retried <;> simp [Course.leave, World.close]

theorem Course.leave_snd (c : Course) (command : Command) (w : World) :
    (c.leave command w).2 = true ↔ c.final = .done := by
  obtain ⟨retried, final⟩ := c
  cases final <;> simp [Course.leave]

/-- A command on an open connection leaves it without a handle only where it is
gone, and returns true only where it is done. -/
theorem execute_ends {command : Command} {answers : List Answer} {w w' : World} {done : Bool}
    (hopen : w.mysql ≠ none) (h : execute command answers w = .ok (w', done)) :
    (w'.mysql = none ↔ Gone answers) ∧ (done = true ↔ Done answers) := by
  obtain ⟨c, hc, h⟩ := execute_ok hopen h
  have hmysql := c.leave_mysql command hopen
  have hdone := c.leave_snd command w
  rw [h] at hmysql hdone
  rw [hmysql, hdone, Gone, Done, hc]
  obtain ⟨retried, final⟩ := c
  simp

namespace Handle

variable {stmts : List (Option MySQLPreparedStatement)} {nullErrno : Nat}

/-! ## Which calls have no handle -/

theorem noNull_closeLost (s : Handle) (errNo : Nat) : (s.closeLost errNo).NoNull ↔ s.NoNull := by
  simp only [closeLost]
  split
  · split
    · rename_i hopen
      apply (noNull_call s .mysql_close).trans
      rw [Option.isSome_iff_ne_none] at hopen
      exact ⟨fun h => h.1, fun h => ⟨h, hopen⟩⟩
    · rfl
  · rfl

theorem noNull_connected {s : Handle} (h : s.world.mysql ≠ none) :
    s.connected.NoNull ↔ s.NoNull := by
  rw [connected, noNull_callAll (by simpa using h), noNull_callAll h]

theorem noNull_handleMySQLErrno {s s' : Handle} {errNo attempts : Nat} {opens : List OpenReply}
    {again : Bool} (h : s.handleMySQLErrno errNo attempts opens = .ok (s', again)) :
    s'.NoNull ↔ s.NoNull := by
  induction opens generalizing s errNo attempts with
  | nil =>
    unfold Handle.handleMySQLErrno at h
    split at h
    · cases h
    · split at h
      · cases h
      · cases h
        rfl
  | cons reply opens ih =>
    unfold Handle.handleMySQLErrno at h
    split at h
    · rw [← noNull_closeLost s errNo]
      cases reply with
      | connected prepared =>
        simp only [World.open, ↓reduceIte] at h
        split at h
        · cases h
          exact noNull_connected (by simp [World.connect])
        · cases h
      | initFailed =>
        have h0 : CR_UNKNOWN_ERROR ≠ 0 := by decide
        simp only [World.open, h0, ↓reduceIte] at h
        split at h
        · cases h
        · exact ih h
      | refused errno nonzero =>
        simp only [World.open, nonzero, ↓reduceIte] at h
        split at h
        · cases h
        · have hrest := ih h
          exact hrest
    · split at h
      · cases h
      · cases h
        rfl

theorem noNull_attempts {attempt report : List LibFunction} {c : Command} {answers : List Answer}
    {s s' : Handle} {done : Bool}
    (h : s.attempts attempt report c answers = .ok (s', done)) : s'.NoNull ↔ s.NoNull := by
  induction answers generalizing s with
  | nil =>
    unfold attempts at h
    split at h
    · cases h
      rfl
    · cases h
  | cons answer answers ih =>
    unfold attempts at h
    split at h
    · cases h
      rfl
    · rename_i hopen
      have hopen : s.world.mysql ≠ none := by simpa using hopen
      rw [← noNull_callAll hopen attempt]
      cases answer with
      | success =>
        cases h
        rfl
      | failure errno opens =>
        have hfail : (World.fail s.world errno).mysql ≠ none := by simpa [World.fail] using hopen
        have hreport : ({ s.callAll attempt with
            world := s.world.fail errno }.callAll report).NoNull ↔ (s.callAll attempt).NoNull :=
          noNull_callAll hfail report
        rw [← hreport]
        simp only [callAll_world] at h
        obtain ⟨⟨s₁, again⟩, hloop, h⟩ := Except.bind_eq_ok.mp h
        rw [← noNull_handleMySQLErrno hloop]
        cases again with
        | false =>
          cases h
          rfl
        | true => exact ih h

theorem noNull_executePrepared {stmt : PreparedStatementBase} {answers : List Answer}
    {s s' : Handle} {done : Bool}
    (h : s.executePrepared stmts stmt answers = .ok (s', done)) : s'.NoNull ↔ s.NoNull := by
  unfold Handle.executePrepared at h
  split at h
  · cases h
    rfl
  · obtain ⟨m_mStmt, -, h⟩ := Except.bind_eq_ok.mp h
    split at h
    · cases h
    · exact noNull_attempts h

theorem noNull_executeElement {data : SQLElementData} {answers : List Answer} {s s' : Handle}
    {done : Bool} (h : s.executeElement stmts data answers = .ok (s', done)) :
    s'.NoNull ↔ s.NoNull := by
  unfold Handle.executeElement at h
  split at h
  · exact noNull_executePrepared h
  · cases h
  · cases h
  · split at h
    · cases h
    · exact noNull_attempts h
  · cases h

/-- The element leaves the connection without a handle only where it is gone. -/
theorem executeElement_ends {data : SQLElementData} {answers : List Answer} {s s' : Handle}
    {done : Bool} (hopen : s.world.mysql ≠ none)
    (h : s.executeElement stmts data answers = .ok (s', done)) :
    (s'.world.mysql = none ↔ Gone answers) ∧ (done = true ↔ Done answers) := by
  have hworld := executeElement_world stmts data answers s
  rw [h] at hworld
  exact execute_ends hopen (executeElement_ok hworld.symm)

/-- Without a handle the first query fails and its error is asked for. -/
theorem not_noNull_executeQueries {finish : List Answer} {data : SQLElementData}
    {queries : List SQLElementData} {answers : Nat → List Answer} {s s' : Handle} {code : Nat}
    (hnull : s.world.mysql = none)
    (h : s.executeQueries stmts nullErrno finish (data :: queries) answers = .ok (s', code)) :
    ¬ s'.NoNull := by
  unfold Handle.executeQueries at h
  obtain ⟨⟨s₁, done⟩, he, h⟩ := Except.bind_eq_ok.mp h
  have hworld := executeElement_world stmts data (answers 0) s
  rw [he] at hworld
  have hexec := executeElement_ok hworld.symm
  rw [execute_null _ _ _ hnull] at hexec
  cases done with
  | true => simp at hexec
  | false =>
    have hnull₁ : s₁.world.mysql = none := by
      simp only [Except.ok.injEq, Prod.mk.injEq] at hexec
      rw [← hexec.1]
      exact hnull
    obtain ⟨⟨s₂, _⟩, hr, h⟩ := Except.bind_eq_ok.mp h
    cases h
    have hcall := (noNull_attempts hr).trans (noNull_call s₁ .mysql_errno)
    exact fun hs => (hcall.mp hs).2 hnull₁

theorem noNull_executeQueries {finish : List Answer} {queries : List SQLElementData}
    {answers : Nat → List Answer} {s s' : Handle} {code : Nat} (hopen : s.world.mysql ≠ none)
    (h : s.executeQueries stmts nullErrno finish queries answers = .ok (s', code)) :
    s'.NoNull ↔ s.NoNull ∧ NoneGone queries answers := by
  induction queries generalizing s answers with
  | nil =>
    unfold Handle.executeQueries at h
    obtain ⟨⟨s₁, _⟩, hc, h⟩ := Except.bind_eq_ok.mp h
    cases h
    rw [noNull_attempts hc]
    simp [NoneGone]
  | cons data queries ih =>
    unfold Handle.executeQueries at h
    obtain ⟨⟨s₁, done⟩, he, h⟩ := Except.bind_eq_ok.mp h
    obtain ⟨hgone, hdone⟩ := executeElement_ends hopen he
    rw [← noNull_executeElement he]
    cases done with
    | true =>
      have hD : Done (answers 0) := hdone.mp rfl
      have hG : ¬ Gone (answers 0) := fun hG => hG.not_done hD
      have hopen₁ : s₁.world.mysql ≠ none := fun hnull => hG (hgone.mp hnull)
      rw [ih hopen₁ h]
      simp [NoneGone, hD, hG]
    | false =>
      have hD : ¬ Done (answers 0) := fun hD => Bool.false_ne_true (hdone.mpr hD)
      obtain ⟨⟨s₂, _⟩, hr, h⟩ := Except.bind_eq_ok.mp h
      cases h
      have hcall := (noNull_attempts hr).trans (noNull_call s₁ .mysql_errno)
      rw [hcall, ne_eq, hgone]
      simp [NoneGone, hD]

end Handle

/-! ## Guarded operations -/

/-- The operation makes no call without a handle when it starts on `w`: those
without a test of `m_Mysql` need it, and a transaction needs it at its first
query and at every query that fails. -/
def HandleOperation.Guarded (m_connectionFlags : ConnectionFlags) (w : World) :
    HandleOperation → Prop
  | .execute _ _ => True
  | .query _ _ _ => True
  | .executeTransaction queries script =>
    queries = [] ∨ w.mysql ≠ none ∧ ¬ Gone script.start ∧ NoneGone queries script.queries
  | .ping => w.mysql ≠ none
  | .escapeString => w.mysql ≠ none
  | .getLastError => w.mysql ≠ none
  | .prepareStatement flags _ => m_connectionFlags.value &&& flags.value = 0 ∨ w.mysql ≠ none

namespace Handle

variable (stmts : List (Option MySQLPreparedStatement)) (nullErrno : Nat)

/-- Every operation of the sequence starts guarded. -/
def AllGuarded : List HandleOperation → Handle → Prop
  | [], _ => True
  | op :: ops, s => op.Guarded s.m_connectionFlags s.world ∧
    ∀ s', s.perform stmts nullErrno op = .ok s' → AllGuarded ops s'

variable {stmts nullErrno}

theorem noNull_executeTransaction {queries : List SQLElementData} {script : Script}
    {s s' : Handle} {code : Int}
    (h : s.executeTransaction stmts nullErrno queries script = .ok (s', code)) :
    s'.NoNull ↔ s.NoNull ∧
      (HandleOperation.executeTransaction queries script).Guarded s.m_connectionFlags s.world := by
  cases queries with
  | nil =>
    cases h
    simp [HandleOperation.Guarded]
  | cons data queries =>
    unfold Handle.executeTransaction at h
    obtain ⟨⟨s₁, begun⟩, hb, h⟩ := Except.bind_eq_ok.mp h
    obtain ⟨⟨s₂, errorCode⟩, hq, h⟩ := Except.bind_eq_ok.mp h
    cases h
    have hworld := attempts_world [.mysql_query] [.mysql_errno, .mysql_error]
      .startTransaction script.start s
    rw [executeText] at hb
    rw [hb] at hworld
    rw [← noNull_attempts hb]
    by_cases hnull : s.world.mysql = none
    · rw [execute_null _ _ _ hnull] at hworld
      simp only [Except.map, Except.ok.injEq, Prod.mk.injEq] at hworld
      have hnull₁ : s₁.world.mysql = none := by
        rw [hworld.1]
        exact hnull
      simp [HandleOperation.Guarded, hnull, not_noNull_executeQueries hnull₁ hq]
    · have hgone := (execute_ends hnull hworld.symm).1
      by_cases hnull₁ : s₁.world.mysql = none
      · simp [HandleOperation.Guarded, hnull, hgone.mp hnull₁,
          not_noNull_executeQueries hnull₁ hq]
      · have hG : ¬ Gone script.start := fun hG => hnull₁ (hgone.mpr hG)
        rw [noNull_executeQueries hnull₁ hq]
        simp [HandleOperation.Guarded, hnull, hG]

/-- The calls of `_Query` on its result come behind a success, which has a handle. -/
theorem attempts_done {attempt report : List LibFunction} {c : Command} {answers : List Answer}
    {s s' : Handle} (h : s.attempts attempt report c answers = .ok (s', true)) :
    s'.world.mysql ≠ none := by
  have hworld := attempts_world attempt report c answers s
  rw [h] at hworld
  have hopen : s.world.mysql ≠ none := by
    intro hnull
    rw [execute_null _ _ _ hnull] at hworld
    simp [Except.map] at hworld
  obtain ⟨hgone, hdone⟩ := execute_ends hopen hworld.symm
  intro hnull
  exact (hgone.mp hnull).not_done (hdone.mp rfl)

theorem executePrepared_done {stmt : PreparedStatementBase} {answers : List Answer}
    {s s' : Handle} (h : s.executePrepared stmts stmt answers = .ok (s', true)) :
    s'.world.mysql ≠ none := by
  unfold Handle.executePrepared at h
  split at h
  · cases h
  · obtain ⟨m_mStmt, -, h⟩ := Except.bind_eq_ok.mp h
    split at h
    · cases h
    · exact attempts_done h

theorem noNull_queryText {sql : Bytes} {answers : List Answer} {s s' : Handle}
    (h : s.queryText sql answers = .ok s') : s'.NoNull ↔ s.NoNull := by
  unfold queryText at h
  split at h
  · cases h
    rfl
  · obtain ⟨⟨s₁, done⟩, hq, h⟩ := Except.bind_eq_ok.mp h
    rw [← noNull_attempts hq]
    cases done with
    | false =>
      cases h
      rfl
    | true =>
      cases h
      exact noNull_callAll (attempts_done hq) _

theorem noNull_queryPrepared {stmt : PreparedStatementBase} {answers : List Answer} {more : Bool}
    {s s' : Handle} (h : s.queryPrepared stmts stmt answers more = .ok s') :
    s'.NoNull ↔ s.NoNull := by
  unfold queryPrepared at h
  obtain ⟨⟨s₁, done⟩, hq, h⟩ := Except.bind_eq_ok.mp h
  rw [← noNull_executePrepared hq]
  cases done with
  | false =>
    cases h
    rfl
  | true =>
    have hopen := executePrepared_done hq
    cases more with
    | false =>
      cases h
      exact noNull_callAll hopen [.mysql_more_results]
    | true =>
      cases h
      exact noNull_callAll hopen [.mysql_more_results, .mysql_next_result]

theorem noNull_prepareStatement (flags : ConnectionFlags) (init : Bool) (s : Handle) :
    (s.prepareStatement flags init).NoNull ↔ s.NoNull ∧
      (s.m_connectionFlags.value &&& flags.value = 0 ∨ s.world.mysql ≠ none) := by
  unfold prepareStatement
  split
  · rename_i hflags
    simp [hflags]
  · rename_i hflags
    cases init with
    | true => simp [hflags, noNull_call]
    | false =>
      simp only [Bool.false_eq_true, ↓reduceIte, hflags, false_or]
      rw [noNull_call, noNull_call, call_world]
      tauto

theorem noNull_perform {op : HandleOperation} {s s' : Handle}
    (h : s.perform stmts nullErrno op = .ok s') :
    s'.NoNull ↔ s.NoNull ∧ op.Guarded s.m_connectionFlags s.world := by
  cases op with
  | execute statement answers =>
    rw [HandleOperation.Guarded, and_true]
    cases statement with
    | raw sql =>
      obtain ⟨⟨s₁, done⟩, hr, rfl⟩ := Except.map_eq_ok.mp h
      exact noNull_attempts hr
    | prepared stmt =>
      obtain ⟨⟨s₁, done⟩, hr, rfl⟩ := Except.map_eq_ok.mp h
      exact noNull_executePrepared hr
  | query statement answers more =>
    rw [HandleOperation.Guarded, and_true]
    cases statement with
    | raw sql => exact noNull_queryText h
    | prepared stmt => exact noNull_queryPrepared h
  | executeTransaction queries script =>
    obtain ⟨⟨s₁, code⟩, hr, rfl⟩ := Except.map_eq_ok.mp h
    exact noNull_executeTransaction hr
  | ping =>
    cases h
    exact noNull_call s .mysql_ping
  | escapeString =>
    cases h
    exact noNull_call s .mysql_real_escape_string
  | getLastError =>
    cases h
    exact noNull_call s .mysql_errno
  | prepareStatement flags init =>
    cases h
    exact noNull_prepareStatement flags init s

/-- A sequence of operations calls nothing with a null handle exactly when each of
them starts guarded. -/
theorem noNull_performAll {ops : List HandleOperation} {s s' : Handle}
    (h : s.performAll stmts nullErrno ops = .ok s') :
    s'.NoNull ↔ s.NoNull ∧ s.AllGuarded stmts nullErrno ops := by
  induction ops generalizing s with
  | nil =>
    cases h
    simp [AllGuarded]
  | cons op ops ih =>
    obtain ⟨s₁, hp, h⟩ := Except.bind_eq_ok.mp h
    rw [ih h, noNull_perform hp, AllGuarded, hp, and_assoc]
    simp

/-- Whatever the server and the reconnects do, as long as the process is not
aborted: no call is given a null handle exactly when each operation starts
guarded. -/
theorem noNull_iff {w : World} {m_connectionFlags : ConnectionFlags} {statements : Nat}
    {ops : List HandleOperation} {s' : Handle}
    (h : performAll stmts nullErrno ops ⟨w, m_connectionFlags, statements, []⟩ = .ok s') :
    s'.NoNull ↔ AllGuarded stmts nullErrno ops ⟨w, m_connectionFlags, statements, []⟩ := by
  rw [noNull_performAll h]
  simp [NoNull]

/-- An UPDATE is lost with its connection, the reconnect succeeds, and a ping
follows. -/
theorem noNull_iff_reconnected :
    let ops : List HandleOperation :=
      [.execute (.raw [85]) [.failure CR_SERVER_LOST [.connected true], .success], .ping]
    let s : Handle := ⟨⟨[], some ⟨none, 0⟩⟩, .CONNECTION_SYNCH, 2, []⟩
    ∃ s', performAll [] 0 ops s = .ok s' ∧ (s'.NoNull ↔ AllGuarded [] 0 ops s) :=
  ⟨_, rfl, noNull_iff rfl⟩

/-- The reconnect is refused with ER_ACCESS_DENIED_ERROR, which aborts nothing and
leaves the handle null; the next ping uses it. -/
theorem ping_without_handle :
    let ops : List HandleOperation :=
      [.execute (.raw [85]) [.failure CR_SERVER_LOST [.refused 1045 (Nat.succ_ne_zero 1044)]], .ping]
    ∃ s', performAll [] 0 ops ⟨⟨[], some ⟨none, 0⟩⟩, .CONNECTION_SYNCH, 2, []⟩ = .ok s' ∧
      ¬ s'.NoNull := by
  refine ⟨_, rfl, ?_⟩
  intro h
  have hping := h ⟨.mysql_ping, true⟩ (by simp [callAll, call, closeLost, World.fail, World.close])
  cases hping

end Handle

end Mpool.Database
