import Mathlib.Logic.Function.Basic
import Mpool.Common.PCQueue
import Mpool.Database.MySQLConnection

/-! `DatabaseWorker.cpp` and the opening of a `DatabaseWorkerPool`: every
asynchronous connection has a worker thread of its own, which waits on the one
queue of the pool from the construction of the connection on. -/

namespace Mpool.Database

variable {Op : Type*}

/-! ## Workers -/

/-- `left` says that `WorkerThread` has returned. -/
structure DatabaseWorker where
  cancelationToken : Bool
  left : Bool

namespace DatabaseWorker

def create : DatabaseWorker := ⟨false, false⟩

/-- One round of `WorkerThread`, as far as it gets, and the operation it runs. -/
def wake (worker : DatabaseWorker) (queue : ProducerConsumerQueue Op) :
    DatabaseWorker × ProducerConsumerQueue Op × Option Op :=
  if worker.left then (worker, queue, none)
  else
    match queue.waitAndPop with
    | none => (worker, queue, none)
    | some (operation, queue) =>
      if worker.cancelationToken || operation.isNone then
        ({ worker with left := true }, queue, none)
      else (worker, queue, operation)

/-- The destructor up to the `join`. -/
def cancel (worker : DatabaseWorker) (queue : ProducerConsumerQueue Op) :
    DatabaseWorker × ProducerConsumerQueue Op :=
  ({ worker with cancelationToken := true }, queue.cancel)

/-- The `join` returns: the next round of the thread is its last. -/
theorem cancel_wake_left (worker : DatabaseWorker) (queue : ProducerConsumerQueue Op) :
    ((worker.cancel queue).1.wake (worker.cancel queue).2).1.left = true := by
  obtain ⟨token, left⟩ := worker
  cases left <;> rfl

/-- That round takes nothing. -/
theorem cancel_wake_queue (worker : DatabaseWorker) (queue : ProducerConsumerQueue Op) :
    ((worker.cancel queue).1.wake (worker.cancel queue).2).2.1 = queue.cancel := by
  obtain ⟨token, left⟩ := worker
  cases left <;> rfl

/-- The destructor. -/
def destroy (worker : DatabaseWorker) (queue : ProducerConsumerQueue Op) :
    ProducerConsumerQueue Op :=
  let (worker, queue) := worker.cancel queue
  (worker.wake queue).2.1

end DatabaseWorker

/-! ## Connections -/

inductive InternalIndex where
  | IDX_ASYNC
  | IDX_SYNCH
  deriving DecidableEq

/-- Of a connection the pool only touches the worker. -/
structure MySQLConnection where
  m_worker : Option DatabaseWorker

namespace MySQLConnection

/-- The two constructors. -/
def create : InternalIndex → MySQLConnection
  | .IDX_ASYNC => ⟨some .create⟩
  | .IDX_SYNCH => ⟨none⟩

def wake (connection : MySQLConnection) (queue : ProducerConsumerQueue Op) :
    MySQLConnection × ProducerConsumerQueue Op × Option Op :=
  match connection.m_worker with
  | none => (connection, queue, none)
  | some worker =>
    let (worker, queue, operation) := worker.wake queue
    (⟨some worker⟩, queue, operation)

/-- The destructor: `m_worker.reset()`. -/
def destroy (connection : MySQLConnection) (queue : ProducerConsumerQueue Op) :
    ProducerConsumerQueue Op :=
  match connection.m_worker with
  | none => queue
  | some worker => worker.destroy queue

end MySQLConnection

/-! ## The pool -/

structure DatabaseWorkerPool (Op : Type*) where
  queue : ProducerConsumerQueue Op
  connections : InternalIndex → List MySQLConnection

/-- What happens beside the calls of `Open`: a worker thread gets its turn, or
some thread enqueues an operation. -/
inductive Activity (Op : Type*) where
  | wake (k : Nat)
  | enqueue (operation : Op)

/-- How one attempt at a connection ends: `connection->Open()` returns an error,
the server is too old, or the connection stays. -/
inductive Outcome where
  | failed (error : Nat) (nonzero : error ≠ 0)
  | incompatible
  | opened

/-- One attempt at a connection. `none` among the activities is a turn of the
worker of the new connection, which is not in the pool yet. -/
structure Attempt (Op : Type*) where
  meanwhile : List (Option (Activity Op))
  outcome : Outcome

/-- One call of `Open`: the attempts it makes at each kind of connection. -/
structure OpenCall (Op : Type*) where
  attempts : InternalIndex → Nat → Attempt Op

/-- The options `AddDatabase` lets through. -/
structure ConnectionConfig where
  asyncThreads : Nat
  synchThreads : Nat
  asyncThreads_pos : 1 ≤ asyncThreads
  asyncThreads_le : asyncThreads ≤ 32

namespace ConnectionConfig

/-- The checks of `AddDatabase` on the options of a database. -/
def ofOptions (dbString : Bytes) (asyncThreads synchThreads : UInt8) : Option ConnectionConfig :=
  if dbString = [] then none
  else if h : asyncThreads.toNat < 1 ∨ asyncThreads.toNat > 32 then none
  else some {
    asyncThreads := asyncThreads.toNat
    synchThreads := synchThreads.toNat
    asyncThreads_pos := by omega
    asyncThreads_le := by omega }

def numConnections (config : ConnectionConfig) : InternalIndex → Nat
  | .IDX_ASYNC => config.asyncThreads
  | .IDX_SYNCH => config.synchThreads

end ConnectionConfig

namespace DatabaseWorkerPool

def create : DatabaseWorkerPool Op := ⟨.create, fun _ => []⟩

def enqueue (pool : DatabaseWorkerPool Op) (operation : Op) : DatabaseWorkerPool Op :=
  { pool with queue := pool.queue.push operation }

/-- A turn of the worker of the asynchronous connection `k`, and the operation
it runs. -/
def wake (pool : DatabaseWorkerPool Op) (k : Nat) : DatabaseWorkerPool Op × Option Op :=
  match (pool.connections .IDX_ASYNC)[k]? with
  | none => (pool, none)
  | some connection =>
    let (connection, queue, operation) := connection.wake pool.queue
    ({ queue := queue
       connections :=
        Function.update pool.connections .IDX_ASYNC
          ((pool.connections .IDX_ASYNC).set k connection) },
      operation)

def act (pool : DatabaseWorkerPool Op) : Activity Op → DatabaseWorkerPool Op
  | .wake k => (pool.wake k).1
  | .enqueue operation => pool.enqueue operation

def destroy (pool : DatabaseWorkerPool Op) (connection : MySQLConnection) :
    DatabaseWorkerPool Op :=
  { pool with queue := connection.destroy pool.queue }

/-- `_connections[type].clear()`. -/
def clear (pool : DatabaseWorkerPool Op) (type : InternalIndex) : DatabaseWorkerPool Op :=
  let pool' := (pool.connections type).foldl destroy pool
  { pool' with connections := Function.update pool'.connections type [] }

/-- `_connections[type].push_back(connection)`. -/
def pushBack (pool : DatabaseWorkerPool Op) (type : InternalIndex) (connection : MySQLConnection) :
    DatabaseWorkerPool Op :=
  { pool with
    connections :=
      Function.update pool.connections type (pool.connections type ++ [connection]) }

/-- One activity while `connection` is opened. -/
def actDuring (s : DatabaseWorkerPool Op × MySQLConnection) :
    Option (Activity Op) → DatabaseWorkerPool Op × MySQLConnection
  | some activity => (s.1.act activity, s.2)
  | none =>
    let (connection, queue, _) := s.2.wake s.1.queue
    ({ s.1 with queue := queue }, connection)

/-- `OpenConnections`: the pool it leaves and the error it returns. -/
def openConnections (type : InternalIndex) :
    Nat → (Nat → Attempt Op) → DatabaseWorkerPool Op → DatabaseWorkerPool Op × Nat
  | 0, _, pool => (pool, 0)
  | numConnections + 1, attempts, pool =>
    let (pool, connection) := (attempts 0).meanwhile.foldl actDuring (pool, .create type)
    match (attempts 0).outcome with
    | .failed error _ => ((pool.clear type).destroy connection, error)
    | .incompatible => (pool.destroy connection, 1)
    | .opened =>
      openConnections type numConnections (fun i => attempts (i + 1))
        (pool.pushBack type connection)

/-- `Open`. -/
def openPool (config : ConnectionConfig) (pool : DatabaseWorkerPool Op) (call : OpenCall Op) :
    DatabaseWorkerPool Op × Nat :=
  let (pool, error) :=
    openConnections .IDX_ASYNC config.asyncThreads (call.attempts .IDX_ASYNC) pool
  if error ≠ 0 then (pool, error)
  else openConnections .IDX_SYNCH config.synchThreads (call.attempts .IDX_SYNCH) pool

end DatabaseWorkerPool

end Mpool.Database
