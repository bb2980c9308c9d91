import Mpool.Database.DatabaseWorkerPool

/-! What opening connections does to the queue of the pool. A failed attempt at an
asynchronous connection destroys its worker, which shuts the queue down for good;
until then every worker keeps waiting on it. -/

namespace Mpool.Database

variable {Op : Type*}

/-! ## Workers -/

/-- A turn of a worker leaves the flag of the queue as it is. -/
@[simp] theorem DatabaseWorker.wake_shutdown (worker : DatabaseWorker)
    (queue : ProducerConsumerQueue Op) :
    (worker.wake queue).2.1.shutdown = queue.shutdown := by
  unfold DatabaseWorker.wake
  split
  · rfl
  · split
    · rfl
    · rename_i h
      split
      · exact ProducerConsumerQueue.waitAndPop_keeps h
      · exact ProducerConsumerQueue.waitAndPop_keeps h

@[simp] theorem MySQLConnection.wake_shutdown (connection : MySQLConnection)
    (queue : ProducerConsumerQueue Op) :
    (connection.wake queue).2.1.shutdown = queue.shutdown := by
  obtain ⟨worker⟩ := connection
  cases worker with
  | none => rfl
  | some worker => exact worker.wake_shutdown queue

theorem MySQLConnection.wake_isSome (connection : MySQLConnection)
    (queue : ProducerConsumerQueue Op) :
    (connection.wake queue).1.m_worker.isSome = connection.m_worker.isSome := by
  obtain ⟨worker⟩ := connection
  cases worker <;> rfl

/-- While the queue is open, the worker of a connection stays as it was created. -/
theorem MySQLConnection.wake_create {queue : ProducerConsumerQueue Op}
    (h : queue.shutdown = false) (type : InternalIndex) :
    ((create type).wake queue).1 = create type := by
  obtain ⟨values, shutdown⟩ := queue
  obtain rfl : shutdown = false := h
  cases type with
  | IDX_ASYNC => cases values <;> rfl
  | IDX_SYNCH => rfl

/-- The destructor of a connection with a worker shuts the queue down. -/
theorem MySQLConnection.destroy_shutdown (connection : MySQLConnection)
    (queue : ProducerConsumerQueue Op) :
    (connection.destroy queue).shutdown = (connection.m_worker.isSome || queue.shutdown) := by
  obtain ⟨worker⟩ := connection
  cases worker with
  | none => rfl
  | some worker =>
    simp [MySQLConnection.destroy, DatabaseWorker.destroy, DatabaseWorker.cancel_wake_queue]

namespace DatabaseWorkerPool

variable {pool : DatabaseWorkerPool Op} {type : InternalIndex} {numConnections : Nat}
  {attempts : Nat → Attempt Op}

/-! ## The flag of the queue -/

@[simp] theorem act_shutdown (pool : DatabaseWorkerPool Op) (activity : Activity Op) :
    (pool.act activity).queue.shutdown = pool.queue.shutdown := by
  cases activity with
  | enqueue operation => rfl
  | wake k =>
    simp only [act, wake]
    split
    · rfl
    · exact MySQLConnection.wake_shutdown _ _

@[simp] theorem actDuring_shutdown (s : DatabaseWorkerPool Op × MySQLConnection)
    (activity : Option (Activity Op)) :
    (actDuring s activity).1.queue.shutdown = s.1.queue.shutdown := by
  cases activity with
  | some activity => exact act_shutdown s.1 activity
  | none => exact MySQLConnection.wake_shutdown _ _

@[simp] theorem foldl_actDuring_shutdown (s : DatabaseWorkerPool Op × MySQLConnection)
    (activities : List (Option (Activity Op))) :
    (activities.foldl actDuring s).1.queue.shutdown = s.1.queue.shutdown := by
  induction activities generalizing s with
  | nil => rfl
  | cons activity activities ih => simp [ih]

theorem foldl_actDuring_isSome (s : DatabaseWorkerPool Op × MySQLConnection)
    (activities : List (Option (Activity Op))) :
    (activities.foldl actDuring s).2.m_worker.isSome = s.2.m_worker.isSome := by
  induction activities generalizing s with
  | nil => rfl
  | cons activity activities ih =>
    rw [List.foldl_cons, ih]
    cases activity with
    | some activity => rfl
    | none => exact MySQLConnection.wake_isSome _ _

theorem destroy_shutdown (pool : DatabaseWorkerPool Op) (connection : MySQLConnection) :
    (pool.destroy connection).queue.shutdown =
      (connection.m_worker.isSome || pool.queue.shutdown) :=
  connection.destroy_shutdown pool.queue

theorem foldl_destroy_shutdown (h : pool.queue.shutdown = true)
    (connections : List MySQLConnection) :
    (connections.foldl destroy pool).queue.shutdown = true := by
  induction connections generalizing pool with
  | nil => exact h
  | cons connection connections ih => exact ih (by simp [destroy_shutdown, h])

theorem clear_shutdown (h : pool.queue.shutdown = true) :
    (pool.clear type).queue.shutdown = true :=
  foldl_destroy_shutdown h (pool.connections type)

/-- A queue that is shut down stays so. -/
theorem openConnections_shutdown (h : pool.queue.shutdown = true) :
    (openConnections type numConnections attempts pool).1.queue.shutdown = true := by
  induction numConnections generalizing attempts pool with
  | zero => exact h
  | succ n ih =>
    simp only [openConnections]
    split
    · simp [destroy_shutdown, clear_shutdown, h]
    · simp [destroy_shutdown, h]
    · exact ih (by simpa [pushBack] using h)

/-- A failed attempt at an asynchronous connection shuts the queue down. -/
theorem openConnections_failed (h : ∃ i < numConnections, (attempts i).outcome ≠ .opened) :
    (openConnections .IDX_ASYNC numConnections attempts pool).1.queue.shutdown = true := by
  induction numConnections generalizing attempts pool with
  | zero =>
    obtain ⟨i, hi, -⟩ := h
    exact absurd hi (Nat.not_lt_zero i)
  | succ n ih =>
    have hworker := foldl_actDuring_isSome (pool, MySQLConnection.create .IDX_ASYNC)
      (attempts 0).meanwhile
    simp only [openConnections]
    split
    · rw [destroy_shutdown, hworker]
      rfl
    · rw [destroy_shutdown, hworker]
      rfl
    · rename_i hopened
      obtain ⟨i, hi, hfailed⟩ := h
      cases i with
      | zero => exact absurd hopened hfailed
      | succ i => exact ih ⟨i, by omega, hfailed⟩

/-- `OpenConnections` returns 0 exactly when all its attempts succeed. -/
theorem openConnections_error :
    (openConnections type numConnections attempts pool).2 = 0 ↔
      ∀ i < numConnections, (attempts i).outcome = .opened := by
  induction numConnections generalizing attempts pool with
  | zero => simp [openConnections]
  | succ n ih =>
    simp only [openConnections]
    split
    · rename_i error nonzero houtcome
      exact ⟨fun h => absurd h nonzero, fun h => absurd (h 0 (by omega)) (by simp [houtcome])⟩
    · rename_i houtcome
      exact ⟨fun h => absurd h (by simp), fun h => absurd (h 0 (by omega)) (by simp [houtcome])⟩
    · rename_i houtcome
      rw [ih]
      constructor
      · intro h i hi
        cases i with
        | zero => exact houtcome
        | succ i => exact h i (by omega)
      · exact fun h i hi => h (i + 1) (by omega)

/-! ## A pool that serves -/

/-- The queue is open, and the connections and their workers are as they were
created. -/
structure Serving (pool : DatabaseWorkerPool Op) : Prop where
  isOpen : pool.queue.shutdown = false
  created : ∀ type, ∀ connection ∈ pool.connections type, connection = .create type

theorem serving_create : Serving (create : DatabaseWorkerPool Op) :=
  ⟨rfl, fun _ _ h => by cases h⟩

theorem Serving.act (h : Serving pool) (activity : Activity Op) : Serving (pool.act activity) := by
  refine ⟨by simp [h.isOpen], ?_⟩
  cases activity with
  | enqueue operation => exact h.created
  | wake k =>
    intro type connection hmem
    simp only [DatabaseWorkerPool.act, wake] at hmem
    split at hmem
    · exact h.created type connection hmem
    · rename_i woken hk
      obtain rfl := h.created _ _ (List.mem_of_getElem? hk)
      cases type with
      | IDX_SYNCH => exact h.created .IDX_SYNCH connection (by simpa using hmem)
      | IDX_ASYNC =>
        simp only [Function.update_self] at hmem
        rcases List.mem_or_eq_of_mem_set hmem with hmem | rfl
        · exact h.created .IDX_ASYNC connection hmem
        · exact MySQLConnection.wake_create h.isOpen .IDX_ASYNC

/-- What happens while a connection is opened keeps the pool serving and the new
connection as it was created. -/
theorem Serving.foldl_actDuring (h : Serving pool) (type : InternalIndex)
    (activities : List (Option (Activity Op))) :
    Serving (activities.foldl actDuring (pool, .create type)).1 ∧
      (activities.foldl actDuring (pool, .create type)).2 = .create type := by
  induction activities generalizing pool with
  | nil => exact ⟨h, rfl⟩
  | cons activity activities ih =>
    cases activity with
    | some activity => exact ih (h.act activity)
    | none =>
      rw [List.foldl_cons]
      have hwake : actDuring (pool, MySQLConnection.create type) none =
          ({ pool with queue := ((MySQLConnection.create type).wake pool.queue).2.1 },
            .create type) :=
        Prod.ext rfl (MySQLConnection.wake_create h.isOpen type)
      rw [hwake]
      exact ih ⟨by simpa using h.isOpen, h.created⟩

theorem Serving.pushBack (h : Serving pool) (type : InternalIndex) :
    Serving (pool.pushBack type (.create type)) := by
  refine ⟨h.isOpen, fun type' connection hmem => ?_⟩
  by_cases ht : type' = type
  · subst ht
    simp only [DatabaseWorkerPool.pushBack, Function.update_self, List.mem_append,
      List.mem_singleton] at hmem
    rcases hmem with hmem | rfl
    · exact h.created type' connection hmem
    · rfl
  · simp only [DatabaseWorkerPool.pushBack, Function.update_of_ne ht] at hmem
    exact h.created type' connection hmem

theorem Serving.destroy_synch (h : Serving pool) :
    Serving (pool.destroy (.create .IDX_SYNCH)) := ⟨h.isOpen, h.created⟩

/-- Connections without a worker are destroyed without a trace in the queue. -/
theorem foldl_destroy_synch (pool : DatabaseWorkerPool Op) {connections : List MySQLConnection}
    (h : ∀ connection ∈ connections, connection = .create .IDX_SYNCH) :
    connections.foldl destroy pool = pool := by
  induction connections with
  | nil => rfl
  | cons connection connections ih =>
    obtain rfl := h _ (List.mem_cons_self ..)
    exact ih fun connection hmem => h connection (List.mem_cons_of_mem _ hmem)

theorem Serving.clear_synch (h : Serving pool) : Serving (pool.clear .IDX_SYNCH) := by
  have hpool := foldl_destroy_synch pool (h.created .IDX_SYNCH)
  refine ⟨by simpa [clear, hpool] using h.isOpen, fun type connection hmem => ?_⟩
  simp only [clear, hpool] at hmem
  cases type with
  | IDX_ASYNC => exact h.created .IDX_ASYNC connection (by simpa using hmem)
  | IDX_SYNCH => simp at hmem

/-- Only a failed attempt at an asynchronous connection keeps a pool from serving. -/
theorem Serving.openConnections (h : Serving pool)
    (hopened : type = .IDX_SYNCH ∨ ∀ i < numConnections, (attempts i).outcome = .opened) :
    Serving (openConnections type numConnections attempts pool).1 := by
  induction numConnections generalizing attempts pool with
  | zero => exact h
  | succ n ih =>
    obtain ⟨hserving, hconnection⟩ := h.foldl_actDuring type (attempts 0).meanwhile
    simp only [DatabaseWorkerPool.openConnections, hconnection]
    split
    · rename_i houtcome
      rcases hopened with rfl | hopened
      · exact hserving.clear_synch.destroy_synch
      · exact absurd (hopened 0 (by omega)) (by simp [houtcome])
    · rename_i houtcome
      rcases hopened with rfl | hopened
      · exact hserving.destroy_synch
      · exact absurd (hopened 0 (by omega)) (by simp [houtcome])
    · exact ih (hserving.pushBack type) (hopened.imp_right fun h i hi => h (i + 1) (by omega))

/-! ## How many connections there are -/

theorem wake_length (pool : DatabaseWorkerPool Op) (k : Nat) (type : InternalIndex) :
    ((pool.wake k).1.connections type).length = (pool.connections type).length := by
  unfold wake
  split
  · rfl
  · cases type <;> simp

theorem foldl_actDuring_length (s : DatabaseWorkerPool Op × MySQLConnection)
    (activities : List (Option (Activity Op))) (type : InternalIndex) :
    ((activities.foldl actDuring s).1.connections type).length =
      (s.1.connections type).length := by
  induction activities generalizing s with
  | nil => rfl
  | cons activity activities ih =>
    rw [List.foldl_cons, ih]
    cases activity with
    | none => rfl
    | some activity =>
      cases activity with
      | enqueue operation => rfl
      | wake k => exact wake_length s.1 k type

theorem foldl_destroy_connections (pool : DatabaseWorkerPool Op)
    (connections : List MySQLConnection) :
    (connections.foldl destroy pool).connections = pool.connections := by
  induction connections generalizing pool with
  | nil => rfl
  | cons connection connections ih => exact ih (pool.destroy connection)

/-- The connections of the other kind stay. -/
theorem openConnections_length_of_ne {type' : InternalIndex} (h : type' ≠ type) :
    ((openConnections type numConnections attempts pool).1.connections type').length =
      (pool.connections type').length := by
  induction numConnections generalizing attempts pool with
  | zero => rfl
  | succ n ih =>
    have hmeanwhile := foldl_actDuring_length (pool, MySQLConnection.create type)
      (attempts 0).meanwhile type'
    simp only [openConnections]
    split
    · simpa [clear, destroy, foldl_destroy_connections, Function.update_of_ne h] using hmeanwhile
    · simpa [destroy] using hmeanwhile
    · rw [ih]
      simpa [pushBack, Function.update_of_ne h] using hmeanwhile

/-- Each attempt adds a connection, also to those an earlier call has left. -/
theorem openConnections_length
    (hopened : ∀ i < numConnections, (attempts i).outcome = .opened) :
    ((openConnections type numConnections attempts pool).1.connections type).length =
      (pool.connections type).length + numConnections := by
  induction numConnections generalizing attempts pool with
  | zero => rfl
  | succ n ih =>
    have hmeanwhile := foldl_actDuring_length (pool, MySQLConnection.create type)
      (attempts 0).meanwhile type
    simp only [openConnections, hopened 0 (by omega)]
    rw [ih fun i hi => hopened (i + 1) (by omega)]
    simp only [pushBack, Function.update_self, List.length_append, List.length_singleton,
      hmeanwhile]
    omega

end DatabaseWorkerPool

end Mpool.Database
