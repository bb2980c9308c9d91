import Mathlib.Data.List.Perm.Basic
import Mpool.Lib.Bytes
import Mpool.Lib.Locking
import Mpool.Lib.Runs
import Mpool.Common.PCQueue

/-! The clients of an open `DatabaseWorkerPool`. Every call of the pool is a program
over the locks of the synchronous connections, which are numbered from 0; any
number of callers and of worker threads take steps in any order. What the server
answers is an argument of the call it decides. What a function of a connection does
is any number of libmysql calls over the handles it works with, also when it
reconnects or is called again. A `try_lock` by the thread that holds the mutex
fails like that of any other. -/

namespace Mpool.Database

open Locking Runs

/-! ## Statements and operations -/

/-- A statement without its data. The connection is that of the constructor with a
`MySQLPreparedStatement`, which was prepared there; that constructor leaves
`m_index` as it is. -/
structure PreparedStatement where
  isPrepared : Bool
  index : Nat
  connection : Option Nat
  deriving DecidableEq

namespace PreparedStatement

def ofIndex (index : Nat) : PreparedStatement := ⟨false, index, none⟩

def ofConnection (connection : Nat) : PreparedStatement := ⟨false, 0, some connection⟩

/-- What a caller does to a statement before it passes it on, as in `DBTest`. -/
def setPrepared (stmt : PreparedStatement) : PreparedStatement :=
  { stmt with isPrepared := stmt.connection.isSome }

/-- The connections whose handle `connection->Query(stmt)` and
`connection->Execute(stmt)` use: a statement that `isPrepared` brings its own. -/
def handles (stmt : PreparedStatement) (connection : Nat) : List Nat :=
  if stmt.isPrepared then connection :: stmt.connection.toList else [connection]

/-- Callers set what they obtain, and so it stays with one more statement. -/
theorem prepared_append {stmts : List PreparedStatement} {stmt : PreparedStatement}
    (h : ∀ s ∈ stmts, s.isPrepared = s.connection.isSome) :
    ∀ s ∈ stmts ++ [stmt.setPrepared], s.isPrepared = s.connection.isSome := by
  intro s hs
  rw [List.mem_append, List.mem_singleton] at hs
  rcases hs with hs | rfl
  · exact h s hs
  · rfl

end PreparedStatement

/-- The connections on which the statements obtained by SQL text were prepared. -/
def connections (stmts : List PreparedStatement) : List Nat :=
  stmts.filterMap PreparedStatement.connection

@[simp] theorem connections_nil : connections [] = [] := rfl

@[simp] theorem connections_cons (stmt : PreparedStatement) (stmts : List PreparedStatement) :
    connections (stmt :: stmts) = stmt.connection.toList ++ connections stmts := by
  cases h : stmt.connection <;> simp [connections, h]

@[simp] theorem connections_append (stmts stmts' : List PreparedStatement) :
    connections (stmts ++ stmts') = connections stmts ++ connections stmts' :=
  List.filterMap_append

theorem connections_perm {stmts stmts' : List PreparedStatement} (h : stmts.Perm stmts') :
    (connections stmts).Perm (connections stmts') :=
  h.filterMap _

/-- The tasks of the pool and the statements they own. -/
inductive SQLOperation where
  | basicStatementTask (sql : Bytes)
  | preparedStatementTask (stmt : PreparedStatement)
  | transactionTask (stmts : List PreparedStatement)
  | sqlQueryHolderTask (stmts : List PreparedStatement)
  | pingOperation

def SQLOperation.statements : SQLOperation → List PreparedStatement
  | .basicStatementTask _ => []
  | .preparedStatementTask stmt => [stmt]
  | .transactionTask stmts => stmts
  | .sqlQueryHolderTask stmts => stmts
  | .pingOperation => []

/-! ## The calls -/

/-- What a call has for the caller or the queue when it returns. -/
inductive PoolResult where
  | done
  | statement (stmt : PreparedStatement)
  | enqueued (operations : List SQLOperation)
  | closed

def PoolResult.statements : PoolResult → List PreparedStatement
  | .statement stmt => [stmt]
  | _ => []

def PoolResult.operations : PoolResult → List SQLOperation
  | .enqueued operations => operations
  | _ => []

abbrev PoolProgram := Prog Nat PoolResult

namespace PoolProgram

/-- The connection that the `m`-th round of the loop in `GetFreeConnection` tries,
counted from 0: `++i % num_cons` with an `i` of eight bits. -/
def candidate (size m : Nat) : Nat := (UInt8.ofNat (m + 1)).toNat % size

/-- Without a synchronous connection the remainder is a division by zero. -/
def getFreeConnection (size : Nat) (k : Nat → PoolProgram) : PoolProgram :=
  if size = 0 then .abort else .tryUntil (candidate size) 0 k

/-- `connection->Query("")` returns at once. -/
def querySql (size : Nat) (sql : Bytes) : PoolProgram :=
  getFreeConnection size fun connection =>
    .use (if sql = [] then [] else [connection]) (.unlock connection (.ret .done))

/-- `delete stmt`: the statement holds the last reference to the
`MySQLPreparedStatement`, whose destructor calls `mysql_stmt_close`. -/
def deleteStatement (stmt : PreparedStatement) : PoolProgram :=
  .use stmt.connection.toList (.ret .done)

def query (size : Nat) (stmt : PreparedStatement) : PoolProgram :=
  let queryOn connection :=
    .use (stmt.handles connection) (.unlock connection (deleteStatement stmt))
  if stmt.isPrepared then
    match stmt.connection with
    | none => .abort
    | some connection => queryOn connection
  else getFreeConnection size queryOn

def directExecuteSql (size : Nat) (sql : Bytes) : PoolProgram :=
  if sql = [] then .ret .done
  else getFreeConnection size fun connection => .use [connection] (.unlock connection (.ret .done))

def directExecute (size : Nat) (stmt : PreparedStatement) : PoolProgram :=
  getFreeConnection size fun connection =>
    .use (stmt.handles connection) (.unlock connection (deleteStatement stmt))

def enqueue (operation : SQLOperation) : PoolProgram := .ret (.enqueued [operation])

def executeSql (sql : Bytes) : PoolProgram :=
  if sql = [] then .ret .done else enqueue (.basicStatementTask sql)

def execute (stmt : PreparedStatement) : PoolProgram := enqueue (.preparedStatementTask stmt)

def asyncQuerySql (sql : Bytes) : PoolProgram := enqueue (.basicStatementTask sql)

def asyncQuery (stmt : PreparedStatement) : PoolProgram := enqueue (.preparedStatementTask stmt)

def delayQueryHolder (holder : List PreparedStatement) : PoolProgram :=
  enqueue (.sqlQueryHolderTask holder)

def commitTransaction (transaction : List PreparedStatement) : PoolProgram :=
  enqueue (.transactionTask transaction)

def asyncCommitTransaction (transaction : List PreparedStatement) : PoolProgram :=
  enqueue (.transactionTask transaction)

/-- Where the transaction fails it is cleaned up before the `Unlock`, and otherwise
when the caller lets go of it; each time its statements are deleted. -/
def directCommitTransaction (size : Nat) (transaction : List PreparedStatement) (errorCode : Int) :
    PoolProgram :=
  getFreeConnection size fun connection =>
    .use (connection :: connections transaction)
      (if errorCode = 0 then
        .unlock connection (.use (connections transaction) (.ret .done))
      else .use (connection :: connections transaction) (.unlock connection (.ret .done)))

def getPreparedStatement (index : Nat) : PoolProgram := .ret (.statement (.ofIndex index))

/-- `PrepareStatement` returns null where the server does not prepare the text, and
the call goes on with `mysql_stmt->GetParameterCount()`; more parameters than fit
are an assertion of their own. -/
def getPreparedStatementSql (size : Nat) (prepared : Bool) : PoolProgram :=
  getFreeConnection size fun connection =>
    .use [connection] (if prepared then .ret (.statement (.ofConnection connection)) else .abort)

/-- The overload for a buffer: `_connections[IDX_SYNCH].front()` does not exist
without a synchronous connection. -/
def escapeStringBuffer (size length : Nat) : PoolProgram :=
  if length = 0 then .ret .done
  else if size = 0 then .abort
  else .use [0] (.ret .done)

def escapeString (size : Nat) (str : Bytes) : PoolProgram :=
  if str = [] then .ret .done else escapeStringBuffer size (str.length % 2 ^ 32)

/-- The loop of `KeepAlive` over the synchronous connections. -/
def pingAll : List Nat → PoolProgram → PoolProgram
  | [], k => k
  | connection :: rest, k =>
    .tryLock connection fun ready =>
      if ready then .use [connection] (.unlock connection (pingAll rest k)) else pingAll rest k

/-- An `i` of eight bits never gets to 256 asynchronous connections. -/
def keepAlive (size async : Nat) : PoolProgram :=
  pingAll (List.range size)
    (if async < 256 then .ret (.enqueued (List.replicate async .pingOperation)) else .abort)

def close (size : Nat) : PoolProgram := .use (List.range size) (.ret .closed)

/-- The loop of `PrepareStatements` over the synchronous connections. What
`LockIfReady` returns is not looked at. -/
def prepareAll (size : Nat) (prepared : Nat → Bool) : List Nat → PoolProgram
  | [] => .ret .done
  | connection :: rest =>
    .attempt connection
      (.use [connection]
        (.unlock connection
          (if prepared connection then prepareAll size prepared rest else close size)))

/-- The asynchronous connections come first. -/
def prepareStatements (size : Nat) (asyncPrepared : Bool) (prepared : Nat → Bool) : PoolProgram :=
  if asyncPrepared then prepareAll size prepared (List.range size) else close size

end PoolProgram

open PoolProgram

/-- A call of the pool. -/
inductive PoolCall where
  | querySql (sql : Bytes)
  | query (stmt : PreparedStatement)
  | directExecuteSql (sql : Bytes)
  | directExecute (stmt : PreparedStatement)
  | executeSql (sql : Bytes)
  | execute (stmt : PreparedStatement)
  | asyncQuerySql (sql : Bytes)
  | asyncQuery (stmt : PreparedStatement)
  | delayQueryHolder (holder : List PreparedStatement)
  | commitTransaction (transaction : List PreparedStatement)
  | asyncCommitTransaction (transaction : List PreparedStatement)
  | directCommitTransaction (transaction : List PreparedStatement) (errorCode : Int)
  | getPreparedStatement (index : Nat)
  | getPreparedStatementSql (prepared : Bool)
  | escapeString (str : Bytes)
  | keepAlive
  | prepareStatements (asyncPrepared : Bool) (prepared : Nat → Bool)
  | close

namespace PoolCall

/-- The statements that the caller hands over. -/
def statements : PoolCall → List PreparedStatement
  | .query stmt => [stmt]
  | .directExecute stmt => [stmt]
  | .execute stmt => [stmt]
  | .asyncQuery stmt => [stmt]
  | .delayQueryHolder holder => holder
  | .commitTransaction transaction => transaction
  | .asyncCommitTransaction transaction => transaction
  | .directCommitTransaction transaction _ => transaction
  | _ => []

/-- The program of a call on a pool with so many connections of each kind. -/
def prog (size async : Nat) : PoolCall → PoolProgram
  | .querySql sql => PoolProgram.querySql size sql
  | .query stmt => PoolProgram.query size stmt
  | .directExecuteSql sql => PoolProgram.directExecuteSql size sql
  | .directExecute stmt => PoolProgram.directExecute size stmt
  | .executeSql sql => PoolProgram.executeSql sql
  | .execute stmt => PoolProgram.execute stmt
  | .asyncQuerySql sql => PoolProgram.asyncQuerySql sql
  | .asyncQuery stmt => PoolProgram.asyncQuery stmt
  | .delayQueryHolder holder => PoolProgram.delayQueryHolder holder
  | .commitTransaction transaction => PoolProgram.commitTransaction transaction
  | .asyncCommitTransaction transaction => PoolProgram.asyncCommitTransaction transaction
  | .directCommitTransaction transaction errorCode =>
    PoolProgram.directCommitTransaction size transaction errorCode
  | .getPreparedStatement index => PoolProgram.getPreparedStatement index
  | .getPreparedStatementSql prepared => PoolProgram.getPreparedStatementSql size prepared
  | .escapeString str => PoolProgram.escapeString size str
  | .keepAlive => PoolProgram.keepAlive size async
  | .prepareStatements asyncPrepared prepared =>
    PoolProgram.prepareStatements size asyncPrepared prepared
  | .close => PoolProgram.close size

end PoolCall

/-! ## Callers and workers -/

inductive Thread (T : Type*) where
  | caller (t : T)
  | worker (k : Nat)
  deriving DecidableEq

/-- `statements` are those a caller has obtained and not yet handed over. -/
structure Clients (T : Type*) where
  size : Nat
  async : Nat
  owner : Nat → Option (Thread T)
  prog : Thread T → PoolProgram
  statements : T → List PreparedStatement
  queue : ProducerConsumerQueue SQLOperation

/-- One atomic step. `invoke` makes a call; `rest` are the statements it leaves to
the caller. `libmysql` is a call of the library over the handle of a connection. -/
inductive ClientStep (T : Type*) where
  | invoke (t : T) (call : PoolCall) (rest : List PreparedStatement)
  | returned (t : T)
  | take (k : Nat)
  | next (thread : Thread T)
  | libmysql (thread : Thread T) (connection : Nat)

namespace Clients

variable {T : Type*} [DecidableEq T]

def start (size async : Nat) : Clients T :=
  ⟨size, async, fun _ => none, fun _ => .ret .done, fun _ => [], .create⟩

def setProg (s : Clients T) (thread : Thread T) (prog : PoolProgram) : Clients T :=
  { s with prog := Function.update s.prog thread prog }

/-- The statements that belong to a task or to a transaction in a worker are
executed over their own connection and deleted there. -/
def work (operation : SQLOperation) : PoolProgram :=
  .use (connections operation.statements) (.ret .done)

/-- What a call returns, in the hands of the caller. `Close` has destroyed the
connections, and the first worker among them has cancelled the queue. -/
def collect (s : Clients T) (t : T) : PoolResult → Clients T
  | .done => s
  | .statement stmt =>
    { s.setProg (.caller t) (.ret .done) with
      statements := Function.update s.statements t (s.statements t ++ [stmt.setPrepared]) }
  | .enqueued operations =>
    { s.setProg (.caller t) (.ret .done) with
      queue := operations.foldl ProducerConsumerQueue.push s.queue }
  | .closed =>
    { s.setProg (.caller t) (.ret .done) with
      size := 0
      async := 0
      queue := if s.async = 0 then s.queue else s.queue.cancel }

/-- The caller is free to make the call and hands over what it takes. -/
def Starts (s : Clients T) (t : T) (call : PoolCall) (rest : List PreparedStatement) : Prop :=
  s.prog (.caller t) = .ret .done ∧ (s.statements t).Perm (call.statements ++ rest)

/-- One step; a thread that is elsewhere does not take it. -/
def step (s : Clients T) : ClientStep T → Clients T
  | .invoke t call rest =>
    match s.prog (.caller t) with
    | .ret .done =>
      if (s.statements t).Perm (call.statements ++ rest) then
        { s.setProg (.caller t) (call.prog s.size s.async) with
          statements := Function.update s.statements t rest }
      else s
    | _ => s
  | .returned t =>
    match s.prog (.caller t) with
    | .ret result => s.collect t result
    | _ => s
  | .take k =>
    match s.prog (.worker k), s.queue.waitAndPop with
    | .ret .done, some (some operation, queue) =>
      if k < s.async then { s.setProg (.worker k) (work operation) with queue := queue } else s
    | _, _ => s
  | .next thread =>
    { s.setProg thread ((s.prog thread).next thread s.owner).2 with
      owner := ((s.prog thread).next thread s.owner).1 }
  | .libmysql _ _ => s

theorem step_invoke {s : Clients T} {t : T} {call : PoolCall} {rest : List PreparedStatement}
    (h : s.Starts t call rest) : s.step (.invoke t call rest) =
      { s.setProg (.caller t) (call.prog s.size s.async) with
        statements := Function.update s.statements t rest } := by
  simp only [step, h.1, if_pos h.2]

theorem step_invoke_of_not {s : Clients T} {t : T} {call : PoolCall}
    {rest : List PreparedStatement} (h : ¬ s.Starts t call rest) :
    s.step (.invoke t call rest) = s := by
  simp only [step]
  split
  · next hprog => rw [if_neg fun hperm => h ⟨hprog, hperm⟩]
  · rfl

theorem step_take_cases (s : Clients T) (k : Nat) : s.step (.take k) = s ∨
    ∃ operation queue, s.prog (.worker k) = .ret .done ∧
      s.queue.waitAndPop = some (some operation, queue) ∧
      s.step (.take k) = { s.setProg (.worker k) (work operation) with queue := queue } := by
  simp only [step]
  split
  · next operation queue hprog hpop =>
    split
    · exact .inr ⟨operation, queue, hprog, hpop, rfl⟩
    · exact .inl rfl
  · exact .inl rfl

end Clients

/-- A caller gets a new program and with it a new result to reach. -/
theorem AllSafe.update_caller {T : Type*} [DecidableEq T] {rules : Thread T → Rules Nat}
    {Q Q' : Thread T → PoolResult → Set Nat → Prop} {owner : Nat → Option (Thread T)}
    {prog : Thread T → PoolProgram} (h : AllSafe rules Q owner prog) {t : T} {new : PoolProgram}
    (hnew : new.Safe (rules (.caller t)) (Q' (.caller t)) (held owner (.caller t)))
    (hcallers : ∀ t' ≠ t, Q' (.caller t') = Q (.caller t'))
    (hworkers : ∀ k, Q' (.worker k) = Q (.worker k)) :
    AllSafe rules Q' owner (Function.update prog (.caller t) new) := by
  apply h.update hnew
  intro thread hne
  cases thread with
  | caller t' => exact hcallers t' fun heq => hne (congrArg Thread.caller heq)
  | worker k => exact hworkers k

/-! ## The loop of `GetFreeConnection` -/

namespace PoolProgram

theorem candidate_lt {size : Nat} (hsize : size ≠ 0) (m : Nat) :
    candidate size m < min size 256 := by
  have hmod := Nat.mod_lt (UInt8.ofNat (m + 1)).toNat (Nat.pos_of_ne_zero hsize)
  have hle := Nat.mod_le (UInt8.ofNat (m + 1)).toNat size
  have hlt := (UInt8.ofNat (m + 1)).toNat_lt
  unfold candidate
  omega

/-- The counter comes back to every connection that eight bits can number. -/
theorem candidate_again {size connection : Nat} (h : connection < min size 256) (i : Nat) :
    ∃ j, i ≤ j ∧ candidate size j = connection := by
  refine ⟨connection + 256 * (i + 1) - 1, by omega, ?_⟩
  have hcounter : (UInt8.ofNat (connection + 256 * (i + 1) - 1 + 1)).toNat = connection := by
    rw [UInt8.toNat_ofNat']
    omega
  rw [candidate, hcounter]
  exact Nat.mod_eq_of_lt (by omega)

variable {rules : Rules Nat} {Q : PoolResult → Set Nat → Prop} {H : Set Nat}

theorem getFreeConnection_safe {size : Nat} {k : Nat → PoolProgram}
    (hloop : size ≠ 0 → rules.loop (candidate size) H)
    (hk : ∀ connection ∉ H, (k connection).Safe rules Q (insert connection H)) :
    (getFreeConnection size k).Safe rules Q H := by
  unfold getFreeConnection
  split
  · trivial
  · next hsize => exact ⟨hloop hsize, hk⟩

/-- The common shape of the calls: a free connection is used and given back. -/
theorem getFreeConnection_safe_of_bracket {size : Nat} {handles : Nat → List Nat}
    {k : Nat → PoolProgram} (hloop : size ≠ 0 → rules.loop (candidate size) H)
    (huse : ∀ connection ∉ H, ∀ c ∈ handles connection, rules.use c (insert connection H))
    (hk : ∀ connection, (k connection).Safe rules Q H) :
    (getFreeConnection size fun connection =>
      .use (handles connection) (.unlock connection (k connection))).Safe rules Q H := by
  apply getFreeConnection_safe hloop
  intro connection hfree
  exact Prog.safe_bracket hfree (huse connection hfree) (hk connection)

theorem pingAll_safe {k : PoolProgram} (hk : k.Safe rules Q H)
    (huse : ∀ connection ∉ H, rules.use connection (insert connection H)) (cs : List Nat) :
    (pingAll cs k).Safe rules Q H := by
  induction cs with
  | nil => exact hk
  | cons connection rest ih =>
    refine ⟨?_, ih⟩
    intro hfree
    apply Prog.safe_bracket hfree
    · intro c hc
      rw [List.mem_singleton.mp hc]
      exact huse connection hfree
    · exact ih

theorem keepAlive_safe {size async : Nat}
    (hQ : Q (.enqueued (List.replicate async .pingOperation)) H)
    (huse : ∀ connection ∉ H, rules.use connection (insert connection H)) :
    (keepAlive size async).Safe rules Q H := by
  apply pingAll_safe _ huse
  split
  · exact hQ
  · trivial

end PoolProgram

end Mpool.Database
