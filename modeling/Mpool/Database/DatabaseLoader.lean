import Mpool.Lib.Runs
import Mpool.Database.Serving

/-! `AddDatabase` opens a pool and, while the server cannot be reached, opens it
again. A failed attempt at an asynchronous connection destroys its worker, which
shuts the queue of the pool down for good. -/

namespace Mpool.Database

open Runs

variable {Op : Type*}

/-! ## The loader -/

def ER_BAD_DB_ERROR : Nat := 1049

/-- What happens up to a call of `Open`, and the call. -/
structure Round (Op : Type*) where
  meanwhile : List (Activity Op)
  call : OpenCall Op

namespace DatabaseWorkerPool

def round (config : ConnectionConfig) (pool : DatabaseWorkerPool Op) (r : Round Op) :
    DatabaseWorkerPool Op × Nat :=
  (r.meanwhile.foldl act pool).openPool config r.call

/-- The reconnect loop: `attempts` is what is left of them. -/
def reconnect (config : ConnectionConfig) :
    Nat → (Nat → Round Op) → DatabaseWorkerPool Op → DatabaseWorkerPool Op × Nat
  | 0, _, pool => (pool, CR_CONNECTION_ERROR)
  | attempts + 1, rounds, pool =>
    let (pool, error) := pool.round config (rounds 0)
    if error = CR_CONNECTION_ERROR then
      reconnect config attempts (fun i => rounds (i + 1)) pool
    else (pool, error)

/-- The opening of a pool in `AddDatabase`. -/
def addDatabase (config : ConnectionConfig) (attempts : Nat) (rounds : Nat → Round Op)
    (pool : DatabaseWorkerPool Op) : DatabaseWorkerPool Op × Bool :=
  let (pool, error) := pool.round config (rounds 0)
  let (pool, error) :=
    if error = CR_CONNECTION_ERROR then
      reconnect config attempts (fun i => rounds (i + 1)) pool
    else (pool, error)
  if error = ER_BAD_DB_ERROR then (pool, false)
  else if error ≠ 0 then (pool, false)
  else (pool, true)

end DatabaseWorkerPool

/-! ## Runs -/

inductive PoolEvent (Op : Type*) where
  | openPool (call : OpenCall Op)
  | act (activity : Activity Op)

def Round.events (r : Round Op) : List (PoolEvent Op) :=
  r.meanwhile.map .act ++ [.openPool r.call]

/-- Every attempt of the call succeeds. -/
def OpenCall.Succeeds (config : ConnectionConfig) (call : OpenCall Op) : Prop :=
  ∀ type, ∀ i < config.numConnections type, (call.attempts type i).outcome = .opened

/-- An attempt at an asynchronous connection fails. -/
def OpenCall.FailsAsync (config : ConnectionConfig) (call : OpenCall Op) : Prop :=
  ∃ i < config.asyncThreads, (call.attempts .IDX_ASYNC i).outcome ≠ .opened

namespace DatabaseWorkerPool

variable {pool : DatabaseWorkerPool Op} {config : ConnectionConfig}

def step (config : ConnectionConfig) (pool : DatabaseWorkerPool Op) :
    PoolEvent Op → DatabaseWorkerPool Op
  | .openPool call => (pool.openPool config call).1
  | .act activity => pool.act activity

theorem run_act (config : ConnectionConfig) (pool : DatabaseWorkerPool Op)
    (activities : List (Activity Op)) :
    run (step config) pool (activities.map .act) = activities.foldl act pool := by
  simp [run, List.foldl_map, step]

theorem run_round (config : ConnectionConfig) (pool : DatabaseWorkerPool Op) (r : Round Op) :
    run (step config) pool r.events = (pool.round config r).1 := by
  rw [Round.events, run_append, run_act]
  rfl

/-- What the loader does is a run of the pool. -/
theorem reconnect_run (config : ConnectionConfig) (attempts : Nat) (rounds : Nat → Round Op)
    (pool : DatabaseWorkerPool Op) :
    ∃ n ≤ attempts, (reconnect config attempts rounds pool).1 =
      run (step config) pool ((List.range n).flatMap fun i => (rounds i).events) := by
  induction attempts generalizing rounds pool with
  | zero => exact ⟨0, Nat.le_refl 0, rfl⟩
  | succ attempts ih =>
    simp only [reconnect]
    split
    · obtain ⟨n, hn, hrun⟩ := ih (fun i => rounds (i + 1)) (pool.round config (rounds 0)).1
      refine ⟨n + 1, by omega, ?_⟩
      rw [hrun, List.range_succ_eq_map, List.flatMap_cons, run_append, run_round,
        List.flatMap_map]
    · exact ⟨1, by omega, by simpa using (run_round config pool (rounds 0)).symm⟩

theorem addDatabase_run (config : ConnectionConfig) (attempts : Nat) (rounds : Nat → Round Op)
    (pool : DatabaseWorkerPool Op) :
    ∃ n ≤ attempts + 1, (addDatabase config attempts rounds pool).1 =
      run (step config) pool ((List.range n).flatMap fun i => (rounds i).events) := by
  obtain ⟨n, hn, hrun⟩ := reconnect_run config (attempts + 1) rounds pool
  refine ⟨n, hn, ?_⟩
  rw [← hrun]
  simp only [addDatabase, reconnect]
  split
  · split
    · rfl
    · split <;> rfl
  · split
    · rfl
    · split <;> rfl

/-! ## One call -/

theorem openPool_error (call : OpenCall Op) :
    (pool.openPool config call).2 = 0 ↔ call.Succeeds config := by
  simp only [openPool]
  split
  · rename_i herror
    rw [ne_eq, openConnections_error] at herror
    rw [openConnections_error]
    exact ⟨fun h => absurd h herror, fun h => h .IDX_ASYNC⟩
  · rename_i herror
    rw [ne_eq, not_not, openConnections_error] at herror
    rw [openConnections_error]
    constructor
    · intro h type
      cases type with
      | IDX_ASYNC => exact herror
      | IDX_SYNCH => exact h
    · exact fun h => h .IDX_SYNCH

/-- A call of `Open` leaves a serving pool serving unless it fails at an
asynchronous connection. -/
theorem Serving.openPool (h : Serving pool) {call : OpenCall Op}
    (hasync : ¬ call.FailsAsync config) : Serving (pool.openPool config call).1 := by
  have hopened : ∀ i < config.asyncThreads, (call.attempts .IDX_ASYNC i).outcome = .opened := by
    intro i hi
    by_contra hfailed
    exact hasync ⟨i, hi, hfailed⟩
  have hserving : Serving (DatabaseWorkerPool.openConnections .IDX_ASYNC config.asyncThreads
      (call.attempts .IDX_ASYNC) pool).1 := h.openConnections (Or.inr hopened)
  simp only [DatabaseWorkerPool.openPool]
  split
  · exact hserving
  · exact hserving.openConnections (Or.inl rfl)

theorem openPool_shutdown (h : pool.queue.shutdown = true) (call : OpenCall Op) :
    (pool.openPool config call).1.queue.shutdown = true := by
  simp only [openPool]
  split
  · exact openConnections_shutdown h
  · exact openConnections_shutdown (openConnections_shutdown h)

theorem openPool_failsAsync {call : OpenCall Op} (h : call.FailsAsync config) :
    (pool.openPool config call).1.queue.shutdown = true := by
  simp only [openPool]
  split
  · exact openConnections_failed h
  · exact openConnections_shutdown (openConnections_failed h)

/-- A call that succeeds adds all its connections to those the pool has. -/
theorem openPool_length {call : OpenCall Op} (h : call.Succeeds config) (type : InternalIndex) :
    ((pool.openPool config call).1.connections type).length =
      (pool.connections type).length + config.numConnections type := by
  have hasync : (openConnections .IDX_ASYNC config.asyncThreads
      (call.attempts .IDX_ASYNC) pool).2 = 0 := openConnections_error.mpr (h .IDX_ASYNC)
  simp only [openPool, hasync, ne_eq, not_true_eq_false, ↓reduceIte]
  cases type with
  | IDX_ASYNC =>
    rw [openConnections_length_of_ne (by decide)]
    exact openConnections_length (h .IDX_ASYNC)
  | IDX_SYNCH =>
    have hsynch : ∀ i < config.synchThreads, (call.attempts .IDX_SYNCH i).outcome = .opened :=
      h .IDX_SYNCH
    rw [openConnections_length hsynch, openConnections_length_of_ne (by decide)]
    rfl

theorem openPool_ne_nil {call : OpenCall Op} (h : call.Succeeds config) :
    (pool.openPool config call).1.connections .IDX_ASYNC ≠ [] := by
  rw [← List.length_pos_iff, openPool_length h]
  exact Nat.add_pos_right _ config.asyncThreads_pos

/-! ## Whole runs -/

theorem run_serving (h : Serving pool) {events : List (PoolEvent Op)}
    (hasync : ∀ call, .openPool call ∈ events → ¬ call.FailsAsync config) :
    Serving (run (step config) pool events) := by
  induction events generalizing pool with
  | nil => exact h
  | cons event events ih =>
    refine ih ?_ fun call hmem => hasync call (List.mem_cons_of_mem _ hmem)
    cases event with
    | openPool call => exact h.openPool (hasync call (List.mem_cons_self ..))
    | act activity => exact h.act activity

theorem run_shutdown (h : pool.queue.shutdown = true) (events : List (PoolEvent Op)) :
    (run (step config) pool events).queue.shutdown = true := by
  refine run_invariant (P := fun pool : DatabaseWorkerPool Op => pool.queue.shutdown = true)
    ?_ h events
  intro pool event h
  cases event with
  | openPool call => exact openPool_shutdown h call
  | act activity => simpa [step] using h

/-- After a call that failed at an asynchronous connection the queue is shut down. -/
theorem run_failsAsync {call : OpenCall Op} (h : call.FailsAsync config)
    {events : List (PoolEvent Op)} (hmem : .openPool call ∈ events) :
    (run (step config) pool events).queue.shutdown = true := by
  obtain ⟨before, after, rfl⟩ := List.append_of_mem hmem
  rw [run_append, run_cons]
  exact run_shutdown (openPool_failsAsync h) after

/-! ## Handing operations over -/

/-- Some worker runs `operation` at the end of `n` of its turns. -/
def CanHand (pool : DatabaseWorkerPool Op) (operation : Op) : Prop :=
  ∃ k n, ((Nat.iterate (fun pool => (pool.wake k).1) n pool).wake k).2 = some operation

theorem Serving.wake_cons (h : Serving pool) (hne : pool.connections .IDX_ASYNC ≠ [])
    {operation : Op} {operations : List Op} (hq : pool.queue.queue = operation :: operations) :
    (pool.wake 0).2 = some operation ∧ (pool.wake 0).1.queue.queue = operations := by
  obtain ⟨connection, rest, hconnections⟩ := List.exists_cons_of_ne_nil hne
  obtain rfl := h.created .IDX_ASYNC connection (by simp [hconnections])
  obtain ⟨⟨operations', shutdown⟩, connections⟩ := pool
  obtain rfl : shutdown = false := h.isOpen
  obtain rfl : operations' = operation :: operations := hq
  have hget : (connections .IDX_ASYNC)[0]? = some (.create .IDX_ASYNC) :=
    congrArg (fun l : List MySQLConnection => l[0]?) hconnections
  simp only [wake, hget]
  exact ⟨rfl, rfl⟩

/-- The first worker of a serving pool gets to whatever is in the queue. -/
theorem Serving.iterate_wake (h : Serving pool) (hne : pool.connections .IDX_ASYNC ≠ [])
    {operation : Op} {operations : List Op} (hq : pool.queue.queue = operations)
    (hmem : operation ∈ operations) :
    ∃ n, ((Nat.iterate (fun pool => (pool.wake 0).1) n pool).wake 0).2 = some operation := by
  induction operations generalizing pool with
  | nil => cases hmem
  | cons first operations ih =>
    obtain ⟨hhand, hrest⟩ := h.wake_cons hne hq
    rcases List.mem_cons.mp hmem with rfl | hmem
    · exact ⟨0, hhand⟩
    · have hne' : (pool.wake 0).1.connections .IDX_ASYNC ≠ [] := by
        rw [← List.length_pos_iff] at hne ⊢
        rwa [wake_length]
      obtain ⟨n, hn⟩ := ih (h.act (.wake 0)) hne' hrest hmem
      exact ⟨n + 1, hn⟩

/-- The queue is open, no worker has left, and some worker gets to whatever is
enqueued next. -/
structure Usable (pool : DatabaseWorkerPool Op) : Prop where
  isOpen : pool.queue.shutdown = false
  running : ∀ connection ∈ pool.connections .IDX_ASYNC,
    ∃ worker, connection.m_worker = some worker ∧ worker.left = false
  hands : ∀ operation, (pool.enqueue operation).CanHand operation

theorem Serving.usable (h : Serving pool) (hne : pool.connections .IDX_ASYNC ≠ []) :
    Usable pool where
  isOpen := h.isOpen
  running connection hmem := by
    obtain rfl := h.created .IDX_ASYNC connection hmem
    exact ⟨.create, rfl, rfl⟩
  hands operation := by
    have hserving : Serving (pool.enqueue operation) := h.act (.enqueue operation)
    obtain ⟨n, hn⟩ := hserving.iterate_wake hne rfl
      (show operation ∈ pool.queue.queue ++ [operation] by simp)
    exact ⟨0, n, hn⟩

/-- Over every run of a pool: each `Open` that returns 0 leaves a usable pool
exactly when none that succeeds comes behind one that failed at an asynchronous
connection. -/
theorem open_usable_iff (config : ConnectionConfig) (events : List (PoolEvent Op)) :
    (∀ before call after, events = before ++ .openPool call :: after →
      ((run (step config) create before).openPool config call).2 = 0 →
        Usable ((run (step config) create before).openPool config call).1) ↔
    ∀ before call after, events = before ++ .openPool call :: after → call.Succeeds config →
      ∀ earlier, .openPool earlier ∈ before → ¬ earlier.FailsAsync config := by
  constructor
  · intro h before call after hevents hsucceeds earlier hmem hfails
    have husable := h before call after hevents (openPool_error call |>.mpr hsucceeds)
    have hshutdown : (run (step config) create before).queue.shutdown = true :=
      run_failsAsync hfails hmem
    have hclosed : ((run (step config) create before).openPool config call).1.queue.shutdown =
        true := openPool_shutdown hshutdown call
    rw [husable.isOpen] at hclosed
    cases hclosed
  · intro h before call after hevents herror
    have hsucceeds := (openPool_error call).mp herror
    have hserving := run_serving serving_create (h before call after hevents hsucceeds)
    have hasync : ¬ call.FailsAsync config := by
      rintro ⟨i, hi, hfailed⟩
      exact hfailed (hsucceeds .IDX_ASYNC i hi)
    exact (hserving.openPool hasync).usable (openPool_ne_nil hsucceeds)

def oneThread : ConnectionConfig where
  asyncThreads := 1
  synchThreads := 1
  asyncThreads_pos := by decide
  asyncThreads_le := by decide

/-- The server cannot be reached at the first call and answers from then on. -/
def unreachableOnce : Nat → Round Unit
  | 0 => ⟨[], ⟨fun _ _ => ⟨[], .failed CR_CONNECTION_ERROR (by decide)⟩⟩⟩
  | _ + 1 => ⟨[], ⟨fun _ _ => ⟨[], .opened⟩⟩⟩

/-- The loader reports success for a pool whose queue is shut down. -/
theorem reopened_pool_shut_down :
    (addDatabase oneThread 20 unreachableOnce create).2 = true ∧
      ¬ Usable (addDatabase oneThread 20 unreachableOnce create).1 := by
  refine ⟨rfl, fun h => ?_⟩
  have hopen := h.isOpen
  cases hopen

end DatabaseWorkerPool

end Mpool.Database
