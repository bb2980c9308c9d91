import Mpool.Lib.Bytes

/-! `MySQLConnection.cpp`: one connection, its reconnect loop and its
transactions, against a server that answers as it likes. The server keeps the
statements it has applied and, per connection, the statements of an open
transaction. Each command comes with the answers to its attempts, in order. -/

namespace Mpool.Database

/-! ## Error numbers -/

def CR_UNKNOWN_ERROR : Nat := 2000
def CR_CONNECTION_ERROR : Nat := 2002
def CR_CONN_HOST_ERROR : Nat := 2003
def CR_SERVER_GONE_ERROR : Nat := 2006
def CR_SERVER_LOST : Nat := 2013
def CR_SERVER_LOST_EXTENDED : Nat := 2055

def ER_BAD_FIELD_ERROR : Nat := 1054
def ER_PARSE_ERROR : Nat := 1064
def ER_NO_SUCH_TABLE : Nat := 1146

/-! ## Statements -/

structure MySQLPreparedStatement where
  paramCount : Nat
  deriving DecidableEq

structure PreparedStatementBase where
  isPrepared : Bool
  index : Nat
  statement_data : List Bytes
  preparedStatement : Option MySQLPreparedStatement
  deriving DecidableEq

inductive SQLElementDataType where
  | SQL_ELEMENT_RAW
  | SQL_ELEMENT_PREPARED
  deriving DecidableEq

/-- The variant of `SQLElementData`; a statement is a pointer. -/
inductive SQLElement where
  | statement (stmt : Option PreparedStatementBase)
  | text (sql : Bytes)
  deriving DecidableEq

structure SQLElementData where
  element : SQLElement
  type : SQLElementDataType
  deriving DecidableEq

/-- A statement for one of the two overloads of `Execute` or `Query`. -/
inductive Statement where
  | raw (sql : Bytes)
  | prepared (stmt : PreparedStatementBase)

/-- The statement as the tables record it. -/
def Statement.data : Statement → SQLElementData
  | .raw sql => ⟨.text sql, .SQL_ELEMENT_RAW⟩
  | .prepared stmt => ⟨.statement (some stmt), .SQL_ELEMENT_PREPARED⟩

/-- What the server is asked: the three texts of the transaction functions, or
one element of a transaction. -/
inductive Command where
  | startTransaction
  | query (data : SQLElementData)
  | commit
  | rollback

/-! ## Server and connection -/

/-- A connection the server holds open: the statements of its open transaction
(autocommit without one) and the error number of its last call. -/
structure MySQLHandle where
  transaction : Option (List SQLElementData)
  errno : Nat

/-- The statements applied to the tables so far, and `m_Mysql`. -/
structure World where
  durable : List SQLElementData
  mysql : Option MySQLHandle

/-- One call of `mysql_real_connect`, with the result of `PrepareStatements`
where it connects; a refused one has an error number. -/
inductive OpenReply where
  | initFailed
  | refused (errno : Nat) (nonzero : errno ≠ 0)
  | connected (prepared : Bool)

/-- One attempt at a command: `mysql_query`, or the binding and execution of a
prepared statement, succeeds or fails with an error number; `opens` are the
calls of `Open` that follow a failure. A command whose answer is an error has no
effect, whether the server refuses it or the connection is lost. -/
inductive Answer where
  | success
  | failure (errno : Nat) (opens : List OpenReply)

/-- The process is aborted, or the server answers no more. -/
inductive Stop where
  | abort
  | silence

namespace World

/-- What the server does for a command on the open connection; without a
transaction a query is applied at once. -/
def perform (w : World) (c : Command) : World :=
  match w.mysql with
  | none => w
  | some h =>
    match c, h.transaction with
    | .startTransaction, t =>
      { durable := w.durable ++ t.getD [], mysql := some ⟨some [], 0⟩ }
    | .query data, some queries => { w with mysql := some ⟨some (queries ++ [data]), 0⟩ }
    | .query data, none => { durable := w.durable ++ [data], mysql := some ⟨none, 0⟩ }
    | .commit, t => { durable := w.durable ++ t.getD [], mysql := some ⟨none, 0⟩ }
    | .rollback, _ => { w with mysql := some ⟨none, 0⟩ }

/-- `mysql_close`, or a handle that is lost: its transaction is never applied. -/
def close (w : World) : World := { w with mysql := none }

/-- A new connection, in autocommit mode. -/
def connect (w : World) : World := { w with mysql := some ⟨none, 0⟩ }

/-- A command that fails on the open connection. -/
def fail (w : World) (errno : Nat) : World :=
  { w with mysql := w.mysql.map fun h => { h with errno := errno } }

/-- `Open()`: the world it leaves and the error number it returns. -/
def «open» (w : World) : OpenReply → World × Nat
  | .initFailed => (w, CR_UNKNOWN_ERROR)
  | .refused errno _ => (w.close, errno)
  | .connected _ => (w.connect, 0)

end World

def OpenReply.prepared : OpenReply → Bool
  | .connected prepared => prepared
  | _ => false

/-- The error numbers after which the handle is closed. -/
def connectionLost (errNo : Nat) : Bool :=
  errNo = CR_SERVER_GONE_ERROR || errNo = CR_SERVER_LOST || errNo = CR_SERVER_LOST_EXTENDED

/-- The error numbers that abort the process. -/
def abortsProcess (errNo : Nat) : Bool :=
  errNo = ER_BAD_FIELD_ERROR || errNo = ER_NO_SUCH_TABLE || errNo = ER_PARSE_ERROR

/-- `_HandleMySQLErrno`: whether to try the command again. -/
def handleMySQLErrno (w : World) (errNo attempts : Nat) (opens : List OpenReply) :
    Except Stop (World × Bool) :=
  if connectionLost errNo || errNo = CR_CONN_HOST_ERROR then
    let w := if connectionLost errNo then w.close else w
    match opens with
    | [] => .error .silence
    | reply :: opens =>
      let (w, lErrno) := w.open reply
      if lErrno = 0 then
        if reply.prepared then .ok (w, true) else .error .abort
      else if attempts - 1 = 0 then .error .abort
      else handleMySQLErrno w lErrno (attempts - 1) opens
  else if abortsProcess errNo then .error .abort
  else .ok (w, false)
termination_by structural opens

/-- The attempts of `Execute` at one command. -/
def execute (c : Command) : List Answer → World → Except Stop (World × Bool)
  | [], w => if w.mysql.isNone then .ok (w, false) else .error .silence
  | answer :: answers, w =>
    if w.mysql.isNone then .ok (w, false)
    else match answer with
      | .success => .ok (w.perform c, true)
      | .failure errno opens => do
        let (w, again) ← handleMySQLErrno (w.fail errno) errno 5 opens
        if again then execute c answers w else .ok (w, false)

/-- `GetPreparedStatement(index)` with the two `ASSERT`s on its result. -/
def getPreparedStatement (stmts : List (Option MySQLPreparedStatement)) (index : Nat) :
    Except Stop MySQLPreparedStatement :=
  match stmts[index]? with
  | some (some stmt) => .ok stmt
  | _ => .error .abort

/-- `m_mStmt`: the statement's own, or the connection's by its index. -/
def PreparedStatementBase.select (stmts : List (Option MySQLPreparedStatement))
    (stmt : PreparedStatementBase) : Except Stop MySQLPreparedStatement :=
  if stmt.isPrepared then
    match stmt.preparedStatement with
    | some s => .ok s
    | none => .error .abort
  else getPreparedStatement stmts stmt.index

/-- `Execute(PreparedStatementBase*)`. `BindParameters` fails an `ASSERT` when
there are more values than parameters. A retry selects and binds again with the
same result, as every reconnect prepares the same texts. -/
def executePrepared (stmts : List (Option MySQLPreparedStatement)) (stmt : PreparedStatementBase)
    (answers : List Answer) (w : World) : Except Stop (World × Bool) :=
  if w.mysql.isNone then .ok (w, false)
  else do
    let m_mStmt ← stmt.select stmts
    if m_mStmt.paramCount < stmt.statement_data.length then .error .abort
    else execute (.query ⟨.statement (some stmt), .SQL_ELEMENT_PREPARED⟩) answers w

def beginTransaction (answers : List Answer) (w : World) : Except Stop World :=
  (execute .startTransaction answers w).map Prod.fst

def rollbackTransaction (answers : List Answer) (w : World) : Except Stop World :=
  (execute .rollback answers w).map Prod.fst

def commitTransaction (answers : List Answer) (w : World) : Except Stop World :=
  (execute .commit answers w).map Prod.fst

/-- `GetLastError`; `nullErrno` is what `mysql_errno` returns for a null handle. -/
def getLastError (nullErrno : Nat) (w : World) : Nat :=
  match w.mysql with
  | none => nullErrno
  | some h => h.errno

/-- The body of the loop over the queries. -/
def executeElement (stmts : List (Option MySQLPreparedStatement)) (data : SQLElementData)
    (answers : List Answer) (w : World) : Except Stop (World × Bool) :=
  match data.type, data.element with
  | .SQL_ELEMENT_PREPARED, .statement (some stmt) => executePrepared stmts stmt answers w
  | .SQL_ELEMENT_PREPARED, .statement none => .error .abort
  | .SQL_ELEMENT_PREPARED, .text _ => .error .abort
  | .SQL_ELEMENT_RAW, .text sql =>
    if sql = [] then .error .abort else execute (.query data) answers w
  | .SQL_ELEMENT_RAW, .statement _ => .error .abort

/-- The server's answers during one call of `ExecuteTransaction`: to BEGIN, to
each query by its position, and to COMMIT or ROLLBACK. -/
structure Script where
  start : List Answer
  queries : Nat → List Answer
  finish : List Answer

/-- The loop over the queries, and COMMIT or ROLLBACK behind it. -/
def executeQueries (stmts : List (Option MySQLPreparedStatement)) (nullErrno : Nat)
    (finish : List Answer) : List SQLElementData → (Nat → List Answer) → World →
    Except Stop (World × Nat)
  | [], _, w => do
    let w ← commitTransaction finish w
    .ok (w, 0)
  | data :: queries, answers, w => do
    let (w, done) ← executeElement stmts data (answers 0) w
    if done then executeQueries stmts nullErrno finish queries (fun i => answers (i + 1)) w
    else
      let errorCode := getLastError nullErrno w
      let w ← rollbackTransaction finish w
      .ok (w, errorCode)

/-- `ExecuteTransaction`: the world it leaves and the code it returns. -/
def executeTransaction (stmts : List (Option MySQLPreparedStatement)) (nullErrno : Nat)
    (queries : List SQLElementData) (script : Script) (w : World) : Except Stop (World × Int) :=
  if queries.isEmpty then .ok (w, -1)
  else do
    let w ← beginTransaction script.start w
    let (w, errorCode) ← executeQueries stmts nullErrno script.finish queries script.queries w
    .ok (w, errorCode)

end Mpool.Database
