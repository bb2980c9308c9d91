import Mpool.Database.DatabaseLoader

/-! `DatabaseLoader::Load` over any number of databases. A pool is opened by one
or more calls of `Open`, each of which adds to the connections that the calls
before it have left. -/

namespace Mpool.Database

variable {Op : Type*}

/-! ## Calls of `Open` by their outcomes -/

/-- How the connections of one kind fail to open: with an error number, or with
an incompatible server after some that stay open. -/
inductive Failure where
  | refused (error : Nat)
  | incompatible (opened : Nat)
  deriving DecidableEq

def Failure.error : Failure → Nat
  | .refused error => error
  | .incompatible _ => 1

def Failure.later : Failure → Failure
  | .refused error => .refused error
  | .incompatible opened => .incompatible (opened + 1)

/-- The first of `numConnections` attempts that fails, if any. -/
def firstFailure : Nat → (Nat → Attempt Op) → Option Failure
  | 0, _ => none
  | numConnections + 1, attempts =>
    match (attempts 0).outcome with
    | .failed error _ => some (.refused error)
    | .incompatible => some (.incompatible 0)
    | .opened => (firstFailure numConnections fun i => attempts (i + 1)).map Failure.later

theorem Failure.error_ne_zero {numConnections : Nat} {attempts : Nat → Attempt Op}
    {failure : Failure} (h : firstFailure numConnections attempts = some failure) :
    failure.error ≠ 0 := by
  induction numConnections generalizing attempts failure with
  | zero => cases h
  | succ n ih =>
    simp only [firstFailure] at h
    cases houtcome : (attempts 0).outcome with
    | failed error nonzero =>
      simp only [houtcome, Option.some.injEq] at h
      subst h
      exact nonzero
    | incompatible =>
      simp only [houtcome, Option.some.injEq] at h
      subst h
      exact Nat.one_ne_zero
    | opened =>
      simp only [houtcome, Option.map_eq_some_iff] at h
      obtain ⟨failure', hfailure', rfl⟩ := h
      have hne := ih hfailure'
      cases failure' with
      | refused error => exact hne
      | incompatible opened => exact hne

namespace OpenCall

/-- The failure that ends the call, if any, and its kind of connection. -/
def failure (config : ConnectionConfig) (call : OpenCall Op) : Option (InternalIndex × Failure) :=
  match firstFailure config.asyncThreads (call.attempts .IDX_ASYNC) with
  | some failure => some (.IDX_ASYNC, failure)
  | none => (firstFailure config.synchThreads (call.attempts .IDX_SYNCH)).map
      fun failure => (.IDX_SYNCH, failure)

/-- The error number the call returns. -/
def error (config : ConnectionConfig) (call : OpenCall Op) : Nat :=
  match call.failure config with
  | none => 0
  | some (_, failure) => failure.error

theorem error_eq_zero {config : ConnectionConfig} {call : OpenCall Op} :
    call.error config = 0 ↔ call.failure config = none := by
  simp only [error, failure]
  cases hasync : firstFailure config.asyncThreads (call.attempts .IDX_ASYNC) with
  | some failure => simp [Failure.error_ne_zero hasync]
  | none =>
    cases hsynch : firstFailure config.synchThreads (call.attempts .IDX_SYNCH) with
    | some failure => simp [Failure.error_ne_zero hsynch]
    | none => simp

end OpenCall

/-- The numbers of connections of a pool. -/
abbrev Sizes := InternalIndex → Nat

/-- What a failure leaves of the connections of its kind, and what a success adds. -/
def sizeAfter (failure : Option Failure) (numConnections size : Nat) : Nat :=
  match failure with
  | none => size + numConnections
  | some (.refused _) => 0
  | some (.incompatible opened) => size + opened

/-- One call of `Open` on a pool of these sizes. -/
def OpenCall.sizes (config : ConnectionConfig) (call : OpenCall Op) (sizes : Sizes) : Sizes
  | .IDX_ASYNC => sizeAfter (firstFailure config.asyncThreads (call.attempts .IDX_ASYNC))
      config.asyncThreads (sizes .IDX_ASYNC)
  | .IDX_SYNCH =>
    match firstFailure config.asyncThreads (call.attempts .IDX_ASYNC) with
    | some _ => sizes .IDX_SYNCH
    | none => sizeAfter (firstFailure config.synchThreads (call.attempts .IDX_SYNCH))
        config.synchThreads (sizes .IDX_SYNCH)

namespace DatabaseWorkerPool

variable {pool : DatabaseWorkerPool Op} {config : ConnectionConfig}

def sizes (pool : DatabaseWorkerPool Op) : Sizes := fun type => (pool.connections type).length

theorem foldl_act_sizes (pool : DatabaseWorkerPool Op) (activities : List (Activity Op)) :
    (activities.foldl act pool).sizes = pool.sizes := by
  induction activities generalizing pool with
  | nil => rfl
  | cons activity activities ih =>
    rw [List.foldl_cons, ih]
    cases activity with
    | enqueue operation => rfl
    | wake k => exact funext fun type => wake_length pool k type

/-- The connections of one kind after `OpenConnections`, and the error it returns. -/
theorem openConnections_size (type : InternalIndex) (numConnections : Nat)
    (attempts : Nat → Attempt Op) (pool : DatabaseWorkerPool Op) :
    (openConnections type numConnections attempts pool).1.sizes type =
        sizeAfter (firstFailure numConnections attempts) numConnections (pool.sizes type) ∧
      (openConnections type numConnections attempts pool).2 =
        match firstFailure numConnections attempts with
        | none => 0
        | some failure => failure.error := by
  induction numConnections generalizing attempts pool with
  | zero => exact ⟨rfl, rfl⟩
  | succ n ih =>
    have hmeanwhile := foldl_actDuring_length (pool, MySQLConnection.create type)
      (attempts 0).meanwhile type
    simp only [openConnections, firstFailure]
    cases (attempts 0).outcome with
    | failed error nonzero => simp [sizes, clear, destroy, sizeAfter, Failure.error]
    | incompatible =>
      refine ⟨?_, rfl⟩
      simpa [sizes, destroy, sizeAfter] using hmeanwhile
    | opened =>
      obtain ⟨hsize, herror⟩ := ih (fun i => attempts (i + 1))
        (((attempts 0).meanwhile.foldl actDuring (pool, MySQLConnection.create type)).1.pushBack
          type ((attempts 0).meanwhile.foldl actDuring (pool, MySQLConnection.create type)).2)
      have hpushed : (((attempts 0).meanwhile.foldl actDuring
          (pool, MySQLConnection.create type)).1.pushBack type ((attempts 0).meanwhile.foldl
            actDuring (pool, MySQLConnection.create type)).2).sizes type =
          pool.sizes type + 1 := by
        simpa [sizes, pushBack] using hmeanwhile
      simp only [hsize, herror, hpushed]
      cases firstFailure n fun i => attempts (i + 1) with
      | none =>
        refine ⟨?_, rfl⟩
        simp only [Option.map_none, sizeAfter]
        omega
      | some failure =>
        cases failure with
        | refused error => exact ⟨rfl, rfl⟩
        | incompatible opened =>
          refine ⟨?_, rfl⟩
          simp only [Option.map_some, Failure.later, sizeAfter]
          omega

theorem openConnections_size_of_ne {type type' : InternalIndex} (h : type' ≠ type)
    (numConnections : Nat) (attempts : Nat → Attempt Op) (pool : DatabaseWorkerPool Op) :
    (openConnections type numConnections attempts pool).1.sizes type' = pool.sizes type' :=
  openConnections_length_of_ne h

theorem openPool_sizes (config : ConnectionConfig) (pool : DatabaseWorkerPool Op)
    (call : OpenCall Op) :
    (pool.openPool config call).1.sizes = call.sizes config pool.sizes ∧
      (pool.openPool config call).2 = call.error config := by
  obtain ⟨hasync, herror⟩ := openConnections_size .IDX_ASYNC config.asyncThreads
    (call.attempts .IDX_ASYNC) pool
  have hother := openConnections_size_of_ne (show InternalIndex.IDX_SYNCH ≠ .IDX_ASYNC by decide)
    config.asyncThreads (call.attempts .IDX_ASYNC) pool
  simp only [openPool]
  cases hfailure : firstFailure config.asyncThreads (call.attempts .IDX_ASYNC) with
  | some failure =>
    have hne := Failure.error_ne_zero hfailure
    simp only [hfailure] at hasync herror
    rw [herror, if_pos hne]
    refine ⟨funext fun type => ?_, ?_⟩
    · cases type with
      | IDX_ASYNC => simpa [OpenCall.sizes, hfailure] using hasync
      | IDX_SYNCH => simpa [OpenCall.sizes, hfailure] using hother
    · simp [OpenCall.error, OpenCall.failure, hfailure]
  | none =>
    simp only [hfailure] at hasync herror
    obtain ⟨hsynch, herror'⟩ := openConnections_size .IDX_SYNCH config.synchThreads
      (call.attempts .IDX_SYNCH) (openConnections .IDX_ASYNC config.asyncThreads
        (call.attempts .IDX_ASYNC) pool).1
    have hother' := openConnections_size_of_ne
      (show InternalIndex.IDX_ASYNC ≠ .IDX_SYNCH by decide) config.synchThreads
      (call.attempts .IDX_SYNCH) (openConnections .IDX_ASYNC config.asyncThreads
        (call.attempts .IDX_ASYNC) pool).1
    simp only [herror, ne_eq, not_true_eq_false, ↓reduceIte]
    refine ⟨funext fun type => ?_, ?_⟩
    · cases type with
      | IDX_ASYNC => rw [hother', hasync, OpenCall.sizes, hfailure]
      | IDX_SYNCH => rw [hsynch, hother, OpenCall.sizes, hfailure]
    · rw [herror']
      simp only [OpenCall.error, OpenCall.failure, hfailure]
      cases firstFailure config.synchThreads (call.attempts .IDX_SYNCH) <;> rfl

theorem round_sizes (config : ConnectionConfig) (pool : DatabaseWorkerPool Op) (r : Round Op) :
    (pool.round config r).1.sizes = r.call.sizes config pool.sizes ∧
      (pool.round config r).2 = r.call.error config := by
  have h := openPool_sizes config (r.meanwhile.foldl act pool) r.call
  rwa [foldl_act_sizes] at h

/-! ## The calls of one database -/

/-- The sizes of the pool after the first `n` calls. -/
def sizesAfterCalls (config : ConnectionConfig) (rounds : Nat → Round Op) (sizes : Sizes) :
    Nat → Sizes
  | 0 => sizes
  | n + 1 => (rounds n).call.sizes config (sizesAfterCalls config rounds sizes n)

theorem sizesAfterCalls_succ (config : ConnectionConfig) (rounds : Nat → Round Op)
    (sizes : Sizes) (n : Nat) :
    sizesAfterCalls config rounds sizes (n + 1) =
      sizesAfterCalls config (fun i => rounds (i + 1)) ((rounds 0).call.sizes config sizes) n := by
  induction n with
  | zero => rfl
  | succ n ih =>
    rw [sizesAfterCalls, ih]
    rfl

/-- Call `m` is the last one: those before it report that the server cannot be
reached, and it reports something else or there is no attempt left. -/
structure LastCall (config : ConnectionConfig) (attempts : Nat) (rounds : Nat → Round Op)
    (m : Nat) : Prop where
  le : m ≤ attempts
  unreachable : ∀ i < m, (rounds i).call.error config = CR_CONNECTION_ERROR
  last : m = attempts ∨ (rounds m).call.error config ≠ CR_CONNECTION_ERROR

theorem LastCall.unique {attempts : Nat} {rounds : Nat → Round Op} {m m' : Nat}
    (h : LastCall config attempts rounds m) (h' : LastCall config attempts rounds m') :
    m = m' := by
  rcases Nat.lt_trichotomy m m' with hlt | heq | hlt
  · have hle := h'.le
    exact absurd (h'.unreachable m hlt) (h.last.resolve_left (by omega))
  · exact heq
  · have hle := h.le
    exact absurd (h.unreachable m' hlt) (h'.last.resolve_left (by omega))

theorem reconnect_calls (config : ConnectionConfig) (attempts : Nat) (rounds : Nat → Round Op)
    (pool : DatabaseWorkerPool Op) :
    ∃ m, LastCall config attempts rounds m ∧
      (reconnect config (attempts + 1) rounds pool).1.sizes =
        sizesAfterCalls config rounds pool.sizes (m + 1) ∧
      (reconnect config (attempts + 1) rounds pool).2 = (rounds m).call.error config := by
  induction attempts generalizing rounds pool with
  | zero =>
    obtain ⟨hsizes, herror⟩ := round_sizes config pool (rounds 0)
    refine ⟨0, ⟨Nat.le_refl 0, fun i hi => absurd hi (Nat.not_lt_zero i), .inl rfl⟩, ?_⟩
    simp only [reconnect]
    split
    · rename_i hlost
      exact ⟨hsizes, hlost.symm.trans herror⟩
    · exact ⟨hsizes, herror⟩
  | succ attempts ih =>
    obtain ⟨hsizes, herror⟩ := round_sizes config pool (rounds 0)
    rw [reconnect]
    by_cases hlost : (pool.round config (rounds 0)).2 = CR_CONNECTION_ERROR
    · simp only [hlost, ↓reduceIte]
      obtain ⟨m, hm, hpool, hcall⟩ :=
        ih (fun i => rounds (i + 1)) (pool.round config (rounds 0)).1
      have hle := hm.le
      refine ⟨m + 1, ⟨by omega, ?_, ?_⟩, ?_, hcall⟩
      · intro i hi
        cases i with
        | zero => exact herror.symm.trans hlost
        | succ i => exact hm.unreachable i (by omega)
      · exact hm.last.imp (by omega) id
      · rw [hpool, sizesAfterCalls_succ config rounds, hsizes]
    · simp only [hlost, ↓reduceIte]
      refine ⟨0, ⟨Nat.zero_le _, fun i hi => absurd hi (Nat.not_lt_zero i), .inr ?_⟩, hsizes,
        herror⟩
      rwa [← herror]

/-- The first call and the loop behind it are one loop. -/
theorem addDatabase_eq (config : ConnectionConfig) (attempts : Nat) (rounds : Nat → Round Op)
    (pool : DatabaseWorkerPool Op) :
    addDatabase config attempts rounds pool =
      ((reconnect config (attempts + 1) rounds pool).1,
        decide ((reconnect config (attempts + 1) rounds pool).2 = 0)) := by
  have hcheck : ∀ r : DatabaseWorkerPool Op × Nat,
      (if r.2 = ER_BAD_DB_ERROR then (r.1, false) else if r.2 ≠ 0 then (r.1, false)
        else (r.1, true)) = (r.1, decide (r.2 = 0)) := by
    intro r
    have hbad : ER_BAD_DB_ERROR ≠ 0 := by decide
    split
    · rename_i h
      simp [h, hbad]
    · split
      · rename_i h
        simp [h]
      · rename_i h
        simp [not_not.mp h]
  rw [← hcheck]
  rfl

/-- The opening of a pool ends with its last call, which decides its result. -/
theorem addDatabase_calls (config : ConnectionConfig) (attempts : Nat) (rounds : Nat → Round Op)
    (pool : DatabaseWorkerPool Op) :
    ∃ m, LastCall config attempts rounds m ∧
      (addDatabase config attempts rounds pool).1.sizes =
        sizesAfterCalls config rounds pool.sizes (m + 1) ∧
      ((addDatabase config attempts rounds pool).2 = true ↔
        (rounds m).call.failure config = none) := by
  obtain ⟨m, hm, hsizes, herror⟩ := reconnect_calls config attempts rounds pool
  rw [addDatabase_eq]
  refine ⟨m, hm, hsizes, ?_⟩
  rw [decide_eq_true_iff, herror, OpenCall.error_eq_zero]

/-- The call before call `m`, if any, has left no asynchronous connection. -/
def NothingLeft (config : ConnectionConfig) (rounds : Nat → Round Op) : Nat → Prop
  | 0 => True
  | m + 1 => ∃ error, (rounds m).call.failure config = some (.IDX_ASYNC, .refused error)

/-- What calls that cannot reach the server leave behind. -/
theorem sizesAfterCalls_unreachable {config : ConnectionConfig} {rounds : Nat → Round Op}
    {m : Nat} (h : ∀ i < m, (rounds i).call.error config = CR_CONNECTION_ERROR) :
    sizesAfterCalls config rounds (fun _ => 0) m .IDX_SYNCH = 0 ∧
      (sizesAfterCalls config rounds (fun _ => 0) m .IDX_ASYNC = 0 ↔
        NothingLeft config rounds m) := by
  induction m with
  | zero => exact ⟨rfl, fun _ => trivial, fun _ => rfl⟩
  | succ m ih =>
    obtain ⟨hsynch, -⟩ := ih fun i hi => h i (by omega)
    have herror := h m (by omega)
    have hpos := config.asyncThreads_pos
    simp only [OpenCall.error, OpenCall.failure] at herror
    simp only [sizesAfterCalls, OpenCall.sizes, NothingLeft, OpenCall.failure]
    cases hf : firstFailure config.asyncThreads ((rounds m).call.attempts .IDX_ASYNC) with
    | some failure =>
      cases failure with
      | refused error => simp [hsynch, sizeAfter]
      | incompatible opened => simp [hf, Failure.error, CR_CONNECTION_ERROR] at herror
    | none =>
      -- the call failed at a synchronous connection: the asynchronous ones stay
      cases hf' : firstFailure config.synchThreads ((rounds m).call.attempts .IDX_SYNCH) with
      | none => simp [hf, hf', CR_CONNECTION_ERROR] at herror
      | some failure =>
        cases failure with
        | refused error =>
          simp only [sizeAfter, Option.map_some, Option.some.injEq, Prod.mk.injEq, reduceCtorEq,
            false_and, exists_false, iff_false, true_and]
          omega
        | incompatible opened => simp [hf, hf', Failure.error, CR_CONNECTION_ERROR] at herror

/-- What the last call leaves is right: all connections, behind a call that left
none, or none at all. -/
def LastCallClean (config : ConnectionConfig) (rounds : Nat → Round Op) (m : Nat) : Prop :=
  match (rounds m).call.failure config with
  | none => NothingLeft config rounds m
  | some (.IDX_ASYNC, .refused _) => True
  | some (.IDX_ASYNC, .incompatible opened) => opened = 0 ∧ NothingLeft config rounds m
  | some (.IDX_SYNCH, _) => False

theorem sizes_lastCall {config : ConnectionConfig} {attempts : Nat} {rounds : Nat → Round Op}
    {m : Nat} (h : LastCall config attempts rounds m) :
    (if (rounds m).call.failure config = none then
      sizesAfterCalls config rounds (fun _ => 0) (m + 1) = config.numConnections
    else sizesAfterCalls config rounds (fun _ => 0) (m + 1) = fun _ => 0) ↔
      LastCallClean config rounds m := by
  obtain ⟨hsynch, hasync⟩ := sizesAfterCalls_unreachable h.unreachable
  have hpos := config.asyncThreads_pos
  have hext : ∀ sizes sizes' : Sizes, sizes = sizes' ↔
      sizes .IDX_ASYNC = sizes' .IDX_ASYNC ∧ sizes .IDX_SYNCH = sizes' .IDX_SYNCH := by
    intro sizes sizes'
    constructor
    · rintro rfl
      exact ⟨rfl, rfl⟩
    · rintro ⟨hasync, hsynch⟩
      funext type
      cases type with
      | IDX_ASYNC => exact hasync
      | IDX_SYNCH => exact hsynch
  simp only [hext, sizesAfterCalls, OpenCall.sizes, OpenCall.failure, LastCallClean, ← hasync,
    hsynch, ConnectionConfig.numConnections]
  cases firstFailure config.asyncThreads ((rounds m).call.attempts .IDX_ASYNC) with
  | some failure =>
    cases failure with
    | refused error => simp [sizeAfter]
    | incompatible opened =>
      simp [sizeAfter]
      omega
  | none =>
    cases firstFailure config.synchThreads ((rounds m).call.attempts .IDX_SYNCH) with
    | none => simp [sizeAfter]
    | some failure =>
      cases failure <;> simp [sizeAfter] <;> omega

/-! ## Closing and preparing -/

/-- `Close`. -/
def close (pool : DatabaseWorkerPool Op) : DatabaseWorkerPool Op :=
  (pool.clear .IDX_ASYNC).clear .IDX_SYNCH

/-- `PrepareStatements`: `prepared` says of each connection whether its statements
can be prepared. -/
def prepareStatements (prepared : InternalIndex → Nat → Bool) (pool : DatabaseWorkerPool Op) :
    DatabaseWorkerPool Op × Bool :=
  if (List.range (pool.sizes .IDX_ASYNC)).all (prepared .IDX_ASYNC) &&
      (List.range (pool.sizes .IDX_SYNCH)).all (prepared .IDX_SYNCH) then (pool, true)
  else (pool.close, false)

theorem close_sizes (pool : DatabaseWorkerPool Op) : pool.close.sizes = fun _ => 0 := by
  funext type
  cases type <;> simp [sizes, close, clear, foldl_destroy_connections]

end DatabaseWorkerPool

/-! ## The loader -/

open DatabaseWorkerPool

/-- A registered database: its options, what the calls of its open action meet,
what happens to its pool before its statements are prepared, and whether they can
be. -/
structure Registration (Op : Type*) where
  dbString : Bytes
  asyncThreads : UInt8
  synchThreads : UInt8
  reconnectAttempts : UInt8
  rounds : Nat → Round Op
  meanwhile : List (Activity Op)
  prepared : InternalIndex → Nat → Bool

namespace Registration

def config (db : Registration Op) : Option ConnectionConfig :=
  ConnectionConfig.ofOptions db.dbString db.asyncThreads db.synchThreads

/-- The action that `AddDatabase` pushes to `_open`, but for the closer. -/
def openAction (db : Registration Op) (pool : DatabaseWorkerPool Op) :
    DatabaseWorkerPool Op × Bool :=
  match db.config with
  | none => (pool, false)
  | some config => addDatabase config db.reconnectAttempts.toNat db.rounds pool

/-- The action that `AddDatabase` pushes to `_prepare`. -/
def prepareAction (db : Registration Op) (pool : DatabaseWorkerPool Op) :
    DatabaseWorkerPool Op × Bool :=
  (db.meanwhile.foldl act pool).prepareStatements db.prepared

end Registration

/-- The pools by the order of their registration, the stack `_close`, top first,
and the calls of `Close` made from it so far. -/
structure DatabaseLoader (Op : Type*) where
  pools : Nat → DatabaseWorkerPool Op
  closers : List Nat
  closed : List Nat

namespace DatabaseLoader

def start : DatabaseLoader Op := ⟨fun _ => .create, [], []⟩

/-- One closer is called and popped. -/
def closeTop (s : DatabaseLoader Op) (k : Nat) : DatabaseLoader Op :=
  { pools := Function.update s.pools k (s.pools k).close
    closers := s.closers.tail
    closed := s.closed ++ [k] }

def closeAll (s : DatabaseLoader Op) : DatabaseLoader Op := s.closers.foldl closeTop s

/-- `Process`. -/
def process (action : Nat → DatabaseLoader Op → DatabaseLoader Op × Bool) :
    List Nat → DatabaseLoader Op → DatabaseLoader Op × Bool
  | [], s => (s, true)
  | k :: queue, s =>
    let (s, done) := action k s
    if done then process action queue s else (s.closeAll, false)

def openAction (dbs : Nat → Registration Op) (k : Nat) (s : DatabaseLoader Op) :
    DatabaseLoader Op × Bool :=
  let (pool, done) := (dbs k).openAction (s.pools k)
  let s := { s with pools := Function.update s.pools k pool }
  if done then ({ s with closers := k :: s.closers }, true) else (s, false)

def prepareAction (dbs : Nat → Registration Op) (k : Nat) (s : DatabaseLoader Op) :
    DatabaseLoader Op × Bool :=
  let (pool, done) := (dbs k).prepareAction (s.pools k)
  ({ s with pools := Function.update s.pools k pool }, done)

/-- `Load`, with `n` databases registered. -/
def load (dbs : Nat → Registration Op) (n : Nat) : DatabaseLoader Op × Bool :=
  let (s, done) := process (openAction dbs) (List.range n) start
  if done then process (prepareAction dbs) (List.range n) s else (s, false)

/-! ## What `Load` leaves -/

/-- The database is opened, from a new pool. -/
def Opens (db : Registration Op) : Prop := (db.openAction .create).2 = true

instance (db : Registration Op) : Decidable (Opens db) := inferInstanceAs (Decidable (_ = true))

/-- The options are valid, and the last call of the open action has no failure. -/
def Succeeds (db : Registration Op) : Prop :=
  ∃ config, db.config = some config ∧
    ∀ m, LastCall config db.reconnectAttempts.toNat db.rounds m →
      (db.rounds m).call.failure config = none

/-- All connections of a pool of these sizes prepare their statements. -/
def PreparesAt (db : Registration Op) (sizes : Sizes) : Prop :=
  ∀ type, ∀ i < sizes type, db.prepared type i = true

/-- Every connection the pool holds after it was opened prepares its statements. -/
def Prepares (db : Registration Op) : Prop := PreparesAt db (db.openAction .create).1.sizes

/-- The last call of the open action leaves the configured sizes or nothing. -/
def Clean (db : Registration Op) : Prop :=
  ∀ config, db.config = some config →
    ∀ m, LastCall config db.reconnectAttempts.toNat db.rounds m →
      LastCallClean config db.rounds m

/-- The pool holds exactly the configured connections. -/
def Exact (db : Registration Op) (pool : DatabaseWorkerPool Op) : Prop :=
  ∃ config, db.config = some config ∧ pool.sizes = config.numConnections

/-- With success every pool has the configured sizes; without, all pools are
empty, and those that were opened have been closed in reverse order. -/
def AllOrNothing (dbs : Nat → Registration Op) (n : Nat) : Prop :=
  if (load dbs n).2 then ∀ k < n, Exact (dbs k) ((load dbs n).1.pools k)
  else (∀ k, ((load dbs n).1.pools k).sizes = fun _ => 0) ∧
    ∃ m ≤ n, (∀ k < m, Opens (dbs k)) ∧ (m < n → ¬ Opens (dbs m)) ∧
      (load dbs n).1.closed = (List.range m).reverse

theorem foldl_closeTop (s : DatabaseLoader Op) (ks : List Nat) :
    (∀ k, ((ks.foldl closeTop s).pools k).sizes =
      if k ∈ ks then fun _ => 0 else (s.pools k).sizes) ∧
    (ks.foldl closeTop s).closed = s.closed ++ ks := by
  induction ks generalizing s with
  | nil => simp
  | cons j ks ih =>
    obtain ⟨hsizes, hclosed⟩ := ih (s.closeTop j)
    refine ⟨?_, ?_⟩
    · intro k
      rw [List.foldl_cons, hsizes]
      by_cases hk : k ∈ ks
      · simp [hk]
      · by_cases hkj : k = j
        · subst hkj
          simp [hk, closeTop, close_sizes]
        · simp [hk, hkj, closeTop]
    · rw [List.foldl_cons, hclosed]
      simp [closeTop]

/-- All closers are called: the pools on the stack are empty afterwards. -/
theorem closeAll_sizes (s : DatabaseLoader Op) (k : Nat) :
    (s.closeAll.pools k).sizes = if k ∈ s.closers then fun _ => 0 else (s.pools k).sizes :=
  (foldl_closeTop s s.closers).1 k

theorem closeAll_closed (s : DatabaseLoader Op) : s.closeAll.closed = s.closed ++ s.closers :=
  (foldl_closeTop s s.closers).2

/-- The pools after the first `m` databases were opened, each from a new pool. -/
def opened (dbs : Nat → Registration Op) (m : Nat) : DatabaseLoader Op where
  pools k := if k < m then ((dbs k).openAction .create).1 else .create
  closers := (List.range m).reverse
  closed := []

theorem openAction_opened (dbs : Nat → Registration Op) (m : Nat) :
    openAction dbs m (opened dbs m) = if Opens (dbs m) then (opened dbs (m + 1), true)
      else ({ opened dbs m with
        pools := Function.update (opened dbs m).pools m ((dbs m).openAction .create).1 }, false) := by
  have hpool : (opened dbs m).pools m = .create := by simp [opened]
  have hpools : Function.update (opened dbs m).pools m ((dbs m).openAction .create).1 =
      (opened dbs (m + 1)).pools := by
    funext k
    by_cases hk : k = m
    · subst hk
      simp [opened]
    · have hlt : k ≤ m ↔ k < m := by omega
      simp [opened, hk, hlt]
  have hclosers : m :: (opened dbs m).closers = (opened dbs (m + 1)).closers := by
    simp [opened, List.range_succ]
  simp only [openAction, hpool, Opens, hpools, hclosers]
  split <;> rfl

/-- `Process` on `_open`: it opens all databases, or all before the first that is
not opened, and closes these again. -/
theorem process_open (dbs : Nat → Registration Op) (m c : Nat) :
    (∀ k < c, Opens (dbs (m + k))) ∧
      process (openAction dbs) (List.range' m c) (opened dbs m) = (opened dbs (m + c), true) ∨
    ∃ j < c, (∀ k < j, Opens (dbs (m + k))) ∧ ¬ Opens (dbs (m + j)) ∧
      process (openAction dbs) (List.range' m c) (opened dbs m) =
        ({ opened dbs (m + j) with
          pools := Function.update (opened dbs (m + j)).pools (m + j)
            ((dbs (m + j)).openAction .create).1 }.closeAll, false) := by
  induction c generalizing m with
  | zero => exact .inl ⟨fun k hk => absurd hk (Nat.not_lt_zero k), rfl⟩
  | succ c ih =>
    rw [List.range'_succ, process, openAction_opened]
    by_cases ho : Opens (dbs m)
    · simp only [ho, ↓reduceIte]
      rcases ih (m + 1) with ⟨hall, hp⟩ | ⟨j, hj, hall, hnot, hp⟩
      · left
        refine ⟨?_, ?_⟩
        · intro k hk
          cases k with
          | zero => exact ho
          | succ k => simpa [Nat.add_assoc, Nat.add_comm 1] using hall k (by omega)
        · rw [hp]
          congr 2
          omega
      · right
        have hmj : m + 1 + j = m + (j + 1) := by omega
        refine ⟨j + 1, by omega, ?_, hmj ▸ hnot, ?_⟩
        · intro k hk
          cases k with
          | zero => exact ho
          | succ k => simpa [Nat.add_assoc, Nat.add_comm 1] using hall k (by omega)
        · rw [hp, hmj]
    · right
      refine ⟨0, by omega, fun k hk => absurd hk (Nat.not_lt_zero k), ho, ?_⟩
      simp only [ho, ↓reduceIte]
      rfl

theorem openAction_none {db : Registration Op} (h : db.config = none)
    (pool : DatabaseWorkerPool Op) : db.openAction pool = (pool, false) := by
  rw [Registration.openAction, h]

theorem openAction_some {db : Registration Op} {config : ConnectionConfig}
    (h : db.config = some config) (pool : DatabaseWorkerPool Op) :
    db.openAction pool = addDatabase config db.reconnectAttempts.toNat db.rounds pool := by
  rw [Registration.openAction, h]

theorem opens_iff (db : Registration Op) : Opens db ↔ Succeeds db := by
  cases hconfig : db.config with
  | none => simp [Opens, Succeeds, openAction_none hconfig, hconfig]
  | some config =>
    obtain ⟨m, hm, -, hopens⟩ := addDatabase_calls config db.reconnectAttempts.toNat db.rounds
      (DatabaseWorkerPool.create : DatabaseWorkerPool Op)
    rw [Opens, openAction_some hconfig, hopens]
    constructor
    · intro hnone
      refine ⟨config, hconfig, ?_⟩
      intro m' hm'
      rwa [hm'.unique hm]
    · rintro ⟨config', hconfig', hall⟩
      rw [hconfig] at hconfig'
      cases hconfig'
      exact hall m hm

/-- What one open action leaves is right exactly when its calls are. -/
theorem clean_iff (db : Registration Op) :
    (if Opens db then Exact db (db.openAction .create).1
      else (db.openAction .create).1.sizes = fun _ => 0) ↔ Clean db := by
  cases hconfig : db.config with
  | none =>
    have hopens : ¬ Opens db := by simp [Opens, openAction_none hconfig]
    rw [if_neg hopens, openAction_none hconfig, Clean, hconfig]
    simp only [reduceCtorEq, false_implies, implies_true, iff_true]
    rfl
  | some config =>
    obtain ⟨m, hm, hsizes, hopens⟩ := addDatabase_calls config db.reconnectAttempts.toNat db.rounds
      (DatabaseWorkerPool.create : DatabaseWorkerPool Op)
    rw [← openAction_some hconfig] at hsizes hopens
    have hzero : (DatabaseWorkerPool.create : DatabaseWorkerPool Op).sizes = fun _ => 0 := rfl
    rw [hzero] at hsizes
    have hclean : Clean db ↔ LastCallClean config db.rounds m := by
      constructor
      · intro h
        exact h config hconfig m hm
      · rintro h config' hconfig' m' hm'
        rw [hconfig] at hconfig'
        cases hconfig'
        rwa [hm'.unique hm]
    have hexact : ∀ pool : DatabaseWorkerPool Op, Exact db pool ↔
        pool.sizes = config.numConnections := by
      intro pool
      simp [Exact, hconfig]
    rw [hclean, ← sizes_lastCall hm, hexact, hsizes]
    by_cases ho : Opens db
    · rw [if_pos ho, if_pos (hopens.mp ho)]
    · rw [if_neg ho, if_neg fun h => ho (hopens.mpr h)]

theorem prepareAction_sizes (db : Registration Op) (pool : DatabaseWorkerPool Op) :
    ((db.prepareAction pool).2 = true ↔ PreparesAt db pool.sizes) ∧
      ((db.prepareAction pool).2 = true → (db.prepareAction pool).1.sizes = pool.sizes) := by
  have hall : ((List.range (pool.sizes .IDX_ASYNC)).all (db.prepared .IDX_ASYNC) &&
      (List.range (pool.sizes .IDX_SYNCH)).all (db.prepared .IDX_SYNCH)) = true ↔
        PreparesAt db pool.sizes := by
    simp only [Bool.and_eq_true, List.all_eq_true, List.mem_range, PreparesAt]
    constructor
    · rintro ⟨hasync, hsynch⟩ type
      cases type with
      | IDX_ASYNC => exact hasync
      | IDX_SYNCH => exact hsynch
    · intro h
      exact ⟨h .IDX_ASYNC, h .IDX_SYNCH⟩
  simp only [Registration.prepareAction, prepareStatements, foldl_act_sizes, ← hall]
  split
  · rename_i h
    exact ⟨⟨fun _ => h, fun _ => rfl⟩, fun _ => foldl_act_sizes pool db.meanwhile⟩
  · rename_i h
    exact ⟨⟨fun hf => absurd hf (by simp), fun h' => absurd h' h⟩, fun hf => absurd hf (by simp)⟩

/-- `Process` on `_prepare`, for pools that are all on the stack. -/
theorem process_prepare (dbs : Nat → Registration Op) (queue : List Nat) {s : DatabaseLoader Op}
    (hqueue : ∀ k ∈ queue, k ∈ s.closers) :
    ((process (prepareAction dbs) queue s).2 = true ↔
      ∀ k ∈ queue, PreparesAt (dbs k) (s.pools k).sizes) ∧
    ((process (prepareAction dbs) queue s).2 = true →
      ∀ k, ((process (prepareAction dbs) queue s).1.pools k).sizes = (s.pools k).sizes) ∧
    ((process (prepareAction dbs) queue s).2 = false →
      (∀ k, ((process (prepareAction dbs) queue s).1.pools k).sizes =
        if k ∈ s.closers then fun _ => 0 else (s.pools k).sizes) ∧
      (process (prepareAction dbs) queue s).1.closed = s.closed ++ s.closers) := by
  induction queue generalizing s with
  | nil => simp [process]
  | cons j queue ih =>
    obtain ⟨hj, hqueue⟩ := List.forall_mem_cons.mp hqueue
    obtain ⟨hdone, hsame⟩ := prepareAction_sizes (dbs j) (s.pools j)
    simp only [process, prepareAction, List.forall_mem_cons, ← hdone]
    by_cases hr : ((dbs j).prepareAction (s.pools j)).2 = true
    · have hsizes : ∀ k, (Function.update s.pools j ((dbs j).prepareAction (s.pools j)).1 k).sizes =
          (s.pools k).sizes := by
        intro k
        by_cases hk : k = j
        · subst hk
          rw [Function.update_self]
          exact hsame hr
        · rw [Function.update_of_ne hk]
      have hrest := ih (s := { s with
        pools := Function.update s.pools j ((dbs j).prepareAction (s.pools j)).1 }) hqueue
      simp only [hsizes] at hrest
      simpa only [hr, ↓reduceIte, true_and] using hrest
    · simp only [hr, ↓reduceIte, Bool.false_eq_true, false_and, false_implies, true_implies,
        true_and, closeAll_closed, and_true]
      intro k
      rw [closeAll_sizes]
      by_cases hk : k ∈ s.closers
      · rw [if_pos hk, if_pos hk]
      · have hkj : k ≠ j := by
          rintro rfl
          exact hk hj
        simp only [hk, ↓reduceIte, ne_eq, hkj, not_false_eq_true, Function.update_of_ne]

theorem start_eq (dbs : Nat → Registration Op) : start = opened dbs 0 := by
  simp [start, opened]

/-- All databases are opened: what is left to go wrong is `_prepare`. -/
theorem allOrNothing_of_opens {dbs : Nat → Registration Op} {n : Nat}
    (hall : ∀ k < n, Opens (dbs k)) (hload : load dbs n =
      process (prepareAction dbs) (List.range n) (opened dbs n)) :
    AllOrNothing dbs n ↔ (∀ k < n, Clean (dbs k)) ∨ ∃ k < n, ¬ Prepares (dbs k) := by
  have hpool : ∀ k < n, ((opened dbs n).pools k) = ((dbs k).openAction .create).1 := by
    intro k hk
    simp [opened, hk]
  obtain ⟨hdone, hsame, hclosed⟩ := process_prepare dbs (List.range n)
    (s := opened dbs n) (by simp [opened])
  rw [← hload] at hdone hsame hclosed
  have hprepares : (load dbs n).2 = true ↔ ∀ k < n, Prepares (dbs k) := by
    rw [hdone]
    simp only [List.mem_range]
    exact forall₂_congr fun k hk => by rw [hpool k hk, Prepares]
  rw [AllOrNothing]
  by_cases hd : (load dbs n).2 = true
  · rw [if_pos hd]
    have hnone : ¬ ∃ k < n, ¬ Prepares (dbs k) := by
      rintro ⟨k, hk, hnot⟩
      exact hnot (hprepares.mp hd k hk)
    rw [or_iff_left hnone]
    apply forall₂_congr
    intro k hk
    rw [← clean_iff, if_pos (hall k hk)]
    simp only [Exact, hsame hd k, hpool k hk]
  · rw [if_neg hd]
    have hsome : ∃ k < n, ¬ Prepares (dbs k) := by
      by_contra hnone
      push Not at hnone
      exact hd (hprepares.mpr hnone)
    obtain ⟨hempty, hlog⟩ := hclosed (Bool.not_eq_true _ ▸ hd)
    refine ⟨fun _ => .inr hsome, fun _ => ⟨?_, n, Nat.le_refl n, hall,
      fun hlt => absurd hlt (Nat.lt_irrefl n), by simpa [opened] using hlog⟩⟩
    intro k
    rw [hempty k]
    split
    · rfl
    · rename_i hk
      simp only [opened, List.mem_reverse, List.mem_range] at hk
      simp only [opened, hk, ↓reduceIte]
      rfl

/-- Database `j` is the first that is not opened: the others are closed again, and what
it was left with stays. -/
theorem allOrNothing_of_first {dbs : Nat → Registration Op} {n j : Nat} (hj : j < n)
    (hall : ∀ k < j, Opens (dbs k)) (hnot : ¬ Opens (dbs j))
    (hload : load dbs n = ({ opened dbs j with
      pools := Function.update (opened dbs j).pools j
        ((dbs j).openAction .create).1 }.closeAll, false)) :
    AllOrNothing dbs n ↔ Clean (dbs j) := by
  have hsizes : ∀ k, ((load dbs n).1.pools k).sizes =
      if k = j then ((dbs j).openAction .create).1.sizes else fun _ => 0 := by
    intro k
    rw [hload, closeAll_sizes]
    by_cases hkj : k = j
    · subst hkj
      simp [opened]
    · by_cases hlt : k < j
      · simp [opened, hkj, hlt]
      · simp only [opened, hkj, hlt, List.mem_reverse, List.mem_range, ↓reduceIte, ne_eq,
          not_false_eq_true, Function.update_of_ne]
        rfl
  have hclosed : (load dbs n).1.closed = (List.range j).reverse := by
    rw [hload, closeAll_closed]
    rfl
  have hfail : ¬ (load dbs n).2 = true := by simp [hload]
  rw [← clean_iff, if_neg hnot, AllOrNothing, if_neg hfail]
  constructor
  · rintro ⟨hempty, -⟩
    have hj := hempty j
    rwa [hsizes, if_pos rfl] at hj
  · intro hempty
    refine ⟨?_, j, Nat.le_of_lt hj, hall, fun _ => hnot, hclosed⟩
    intro k
    rw [hsizes]
    split
    · exact hempty
    · rfl

theorem first_unique {dbs : Nat → Registration Op} {j j' : Nat} (hall : ∀ k < j, Opens (dbs k))
    (hnot : ¬ Opens (dbs j)) (hall' : ∀ k < j', Opens (dbs k)) (hnot' : ¬ Opens (dbs j')) :
    j' = j := by
  have hle : ¬ j < j' := fun hlt => hnot (hall' j hlt)
  have hge : ¬ j' < j := fun hlt => hnot' (hall j' hlt)
  omega

theorem allOrNothing_iff_opens (dbs : Nat → Registration Op) (n : Nat) :
    AllOrNothing dbs n ↔
      (∃ j < n, (∀ k < j, Opens (dbs k)) ∧ ¬ Opens (dbs j) ∧ Clean (dbs j)) ∨
      (∀ k < n, Opens (dbs k)) ∧ ((∀ k < n, Clean (dbs k)) ∨ ∃ k < n, ¬ Prepares (dbs k)) := by
  have hopen := process_open dbs 0 n
  simp only [Nat.zero_add, ← List.range_eq_range'] at hopen
  rcases hopen with ⟨hall, hp⟩ | ⟨j, hj, hall, hnot, hp⟩
  · have hfirst : ¬ ∃ j < n, (∀ k < j, Opens (dbs k)) ∧ ¬ Opens (dbs j) ∧ Clean (dbs j) := by
      rintro ⟨j, hj, -, hnot, -⟩
      exact hnot (hall j hj)
    rw [or_iff_right hfirst, and_iff_right hall]
    apply allOrNothing_of_opens hall
    rw [load, start_eq dbs, hp]
    rfl
  · have hiff : AllOrNothing dbs n ↔ Clean (dbs j) := by
      apply allOrNothing_of_first hj hall hnot
      rw [load, start_eq dbs, hp]
      rfl
    rw [hiff]
    constructor
    · exact fun hclean => .inl ⟨j, hj, hall, hnot, hclean⟩
    · rintro (⟨j', -, hall', hnot', hclean⟩ | ⟨hopens, -⟩)
      · rwa [first_unique hall hnot hall' hnot'] at hclean
      · exact absurd (hopens j hj) hnot

/-- One thread of each kind; the asynchronous connection opens at every call, the
synchronous one is refused at the first because the server cannot be reached. -/
def refusedOnce : Registration Unit where
  dbString := [59]
  asyncThreads := 1
  synchThreads := 1
  reconnectAttempts := 20
  rounds
    | 0 => ⟨[], ⟨fun type _ => ⟨[], match type with
      | .IDX_ASYNC => .opened
      | .IDX_SYNCH => .failed CR_CONNECTION_ERROR (Nat.succ_ne_zero 2001)⟩⟩⟩
    | _ + 1 => ⟨[], ⟨fun _ _ => ⟨[], .opened⟩⟩⟩
  meanwhile := []
  prepared _ _ := true

end DatabaseLoader

end Mpool.Database
