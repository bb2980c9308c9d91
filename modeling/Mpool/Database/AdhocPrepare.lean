import Mathlib.Logic.Function.Basic
import Mpool.Lib.Runs
import Mpool.Database.Clients
import Mpool.Database.DatabaseWorkerPool
import Mpool.Database.Handle

/-! What becomes of a text that the server does not prepare. The flag
`m_prepareError` of a connection is set by every `PrepareStatement` that fails,
and nothing ever resets it. -/

namespace Mpool.Database

open Runs

/-- The ends of `mysql_stmt_init` and `mysql_stmt_prepare`. -/
inductive PrepareAnswer where
  | initFails
  | prepareFails
  | prepared (paramCount : Nat)
  deriving DecidableEq

def PrepareAnswer.fails : PrepareAnswer → Bool
  | prepared _ => false
  | _ => true

/-- Of a connection what the preparation of a statement touches. -/
structure PreparingConnection where
  m_connectionFlags : ConnectionFlags
  locked : Bool
  m_prepareError : Bool
  m_stmts : List (Option MySQLPreparedStatement)
  deriving DecidableEq

/-- One call of `PrepareStatement(index, sql, flags)` in `DoPrepareStatements`, with
what the server makes of the text. -/
structure PrepareEntry where
  index : Nat
  flags : ConnectionFlags
  answer : PrepareAnswer

namespace PreparingConnection

/-- What `LockIfReady` does to a free connection. -/
def lock (connection : PreparingConnection) : PreparingConnection :=
  { connection with locked := true }

/-- `m_connectionFlags & flags`. -/
def takes (connection : PreparingConnection) (flags : ConnectionFlags) : Bool :=
  connection.m_connectionFlags.value &&& flags.value ≠ 0

/-- `PrepareStatement(sql, flags)`; `none` is the null pointer. -/
def prepareStatement (connection : PreparingConnection) (flags : ConnectionFlags)
    (answer : PrepareAnswer) : Option MySQLPreparedStatement × PreparingConnection :=
  if !connection.takes flags then (none, connection)
  else match answer with
    | .initFails => (none, { connection with m_prepareError := true })
    | .prepareFails => (none, { connection with m_prepareError := true })
    | .prepared paramCount => (some ⟨paramCount⟩, connection)

/-- `PrepareStatement(index, sql, flags)`. -/
def prepareEntry (connection : PreparingConnection) (entry : PrepareEntry) :
    PreparingConnection :=
  if !connection.takes entry.flags then
    { connection with m_stmts := connection.m_stmts.set entry.index none }
  else match entry.answer with
    | .initFails => { connection with m_prepareError := true }
    | .prepareFails => { connection with m_prepareError := true }
    | .prepared paramCount =>
      { connection with m_stmts := connection.m_stmts.set entry.index (some ⟨paramCount⟩) }

/-- `m_stmts.resize(size)`. -/
def resize (connection : PreparingConnection) (size : Nat) : PreparingConnection :=
  { connection with
    m_stmts := (connection.m_stmts ++ List.replicate size none).take size }

/-- `DoPrepareStatements`, which calls `PrepareStatement` for each of its texts. -/
def doPrepareStatements (connection : PreparingConnection) (reconnecting : Bool) (size : Nat)
    (entries : List PrepareEntry) : PreparingConnection :=
  entries.foldl prepareEntry (if reconnecting then connection else connection.resize size)

/-- `PrepareStatements`. -/
def prepareStatements (connection : PreparingConnection) (reconnecting : Bool) (size : Nat)
    (entries : List PrepareEntry) : Bool × PreparingConnection :=
  let connection := connection.doPrepareStatements reconnecting size entries
  (!connection.m_prepareError, connection)

end PreparingConnection

/-! ## The callers -/

/-- How a call ends. `nullUsed` is `mysql_stmt->GetParameterCount()` through a null
pointer, `assertFails` an `ASSERT`. -/
inductive CallEnd (R : Type*) where
  | returned (result : R)
  | nullUsed
  | assertFails
  deriving DecidableEq

/-- Of a task its `m_stmt->isPrepared` and `m_has_result`, and whether the promise
has its value. -/
structure PreparedStatementTask where
  isPrepared : Bool
  m_has_result : Bool
  satisfied : Bool

/-- What the connection answers to a statement that was prepared: the row count of
the result of `Query`, if there is one, and the result of `Execute`. -/
structure StatementAnswer where
  rows : Option Nat
  executes : Bool

namespace PreparedStatementTask

/-- The part of `Execute` that starts with `if (m_has_result)`. -/
def executeStatement (task : PreparedStatementTask) (answer : StatementAnswer) :
    Bool × PreparedStatementTask :=
  if task.m_has_result then
    (answer.rows.getD 0 ≠ 0, { task with satisfied := true })
  else (answer.executes, task)

/-- `Execute` over the connection of the worker. -/
def execute (task : PreparedStatementTask) (connection : PreparingConnection)
    (prepare : PrepareAnswer) (answer : StatementAnswer) :
    CallEnd Bool × PreparedStatementTask × PreparingConnection :=
  if task.isPrepared then
    match connection.prepareStatement .CONNECTION_ASYNC prepare with
    | (none, connection) => (.nullUsed, task, connection)
    | (some mysql_stmt, connection) =>
      if mysql_stmt.paramCount < 255 then
        let (result, task) := task.executeStatement answer
        (.returned result, task, connection)
      else (.assertFails, task, connection)
  else
    let (result, task) := task.executeStatement answer
    (.returned result, task, connection)

end PreparedStatementTask

/-- The connections of a pool by their kind and number. -/
abbrev PreparingPool := InternalIndex × Nat → PreparingConnection

def InternalIndex.flags : InternalIndex → ConnectionFlags
  | IDX_ASYNC => .CONNECTION_ASYNC
  | IDX_SYNCH => .CONNECTION_SYNCH

namespace PreparingPool

/-- The connections as they are constructed. -/
def create : PreparingPool := fun key => ⟨key.1.flags, false, false, []⟩

/-- The loop of `GetFreeConnection`, which after 256 rounds starts again. Without a free
connection it does not end, and without any it divides by zero. -/
def getFreeConnection (pool : PreparingPool) (size : Nat) : Option Nat :=
  if size = 0 then none
  else ((List.range 256).map (PoolProgram.candidate size)).find?
    fun connection => !(pool (.IDX_SYNCH, connection)).locked

/-- `GetPreparedStatement(sql)`, when there is a free connection. The result is a
null pointer, which the code never returns, or the connection that the statement
keeps and the number of its parameters. -/
def getPreparedStatement (pool : PreparingPool) (size : Nat) (answer : PrepareAnswer) :
    Option (CallEnd (Option (Nat × Nat)) × PreparingPool) :=
  (pool.getFreeConnection size).map fun connection =>
    let prepared := (pool (.IDX_SYNCH, connection)).lock.prepareStatement .CONNECTION_SYNCH answer
    (match prepared.1 with
      | none => .nullUsed
      | some mysql_stmt =>
        if mysql_stmt.paramCount < 255 then .returned (some (connection, mysql_stmt.paramCount))
        else .assertFails,
      Function.update pool (.IDX_SYNCH, connection) prepared.2)

end PreparingPool

/-! ## Histories -/

/-- What happens to a pool: the two calls that prepare a text of their own, the
statements of a connection, and the locks taken and released by other calls. -/
inductive PrepareEvent where
  | getPreparedStatement (answer : PrepareAnswer)
  | execute (worker : Nat) (task : PreparedStatementTask) (prepare : PrepareAnswer)
      (answer : StatementAnswer)
  | prepareStatements (key : InternalIndex × Nat) (reconnecting : Bool)
      (entries : List PrepareEntry)
  | setLock (key : InternalIndex × Nat) (locked : Bool)

namespace PreparingPool

/-- `size` is the number of synchronous connections, `statements` the size that
`m_stmts` is given. -/
def step (size statements : Nat) (pool : PreparingPool) : PrepareEvent → PreparingPool
  | .getPreparedStatement answer =>
    match pool.getPreparedStatement size answer with
    | none => pool
    | some (_, pool') => pool'
  | .execute worker task prepare answer =>
    Function.update pool (.IDX_ASYNC, worker)
      (task.execute (pool (.IDX_ASYNC, worker)) prepare answer).2.2
  | .prepareStatements key reconnecting entries =>
    Function.update pool key ((pool key).prepareStatements reconnecting statements entries).2
  | .setLock key locked => Function.update pool key { pool key with locked := locked }

/-- The locks and the flags are as before. -/
def Same (pool pool' : PreparingPool) : Prop :=
  ∀ key, (pool' key).locked = (pool key).locked ∧
    (pool' key).m_prepareError = (pool key).m_prepareError

/-- The connection prepares every text that is for a connection of its kind. -/
def AllPrepared (type : InternalIndex) (entries : List PrepareEntry) : Prop :=
  ∀ entry ∈ entries, type.flags.value &&& entry.flags.value ≠ 0 → entry.answer.fails = false

/-- What is expected of one event: a text that fails is reported and leaves the
locks and the flags, and `PrepareStatements` tells whether its own texts succeed. -/
def Expected (size statements : Nat) (pool : PreparingPool) : PrepareEvent → Prop
  | .getPreparedStatement answer => answer.fails = true →
    ∀ result ∈ pool.getPreparedStatement size answer,
      result.1 = .returned none ∧ Same pool result.2
  | .execute worker task prepare answer => task.isPrepared = true → prepare.fails = true →
    let result := task.execute (pool (.IDX_ASYNC, worker)) prepare answer
    result.1 = .returned false ∧ (task.m_has_result = true → result.2.1.satisfied = true) ∧
      Same pool (Function.update pool (.IDX_ASYNC, worker) result.2.2)
  | .prepareStatements key reconnecting entries =>
    ((pool key).prepareStatements reconnecting statements entries).1 = true ↔
      AllPrepared key.1 entries
  | .setLock _ _ => True

/-- The event prepares no text of its own in vain. -/
def NoFailure (size : Nat) (pool : PreparingPool) : PrepareEvent → Prop
  | .getPreparedStatement answer => answer.fails = true → pool.getFreeConnection size = none
  | .execute _ task prepare _ => task.isPrepared = true → prepare.fails = false
  | _ => True

end PreparingPool

/-! ## The flag of a connection -/

namespace PreparingConnection

theorem prepareEntry_spec (connection : PreparingConnection) (entry : PrepareEntry) :
    (connection.prepareEntry entry).m_connectionFlags = connection.m_connectionFlags ∧
      (connection.prepareEntry entry).m_prepareError =
        (connection.m_prepareError || (connection.takes entry.flags && entry.answer.fails)) := by
  unfold prepareEntry
  cases htakes : connection.takes entry.flags with
  | false => simp
  | true => cases hanswer : entry.answer <;> simp [PrepareAnswer.fails]

theorem foldl_prepareEntry (entries : List PrepareEntry) (connection : PreparingConnection) :
    (entries.foldl prepareEntry connection).m_connectionFlags = connection.m_connectionFlags ∧
      (entries.foldl prepareEntry connection).m_prepareError = (connection.m_prepareError ||
        entries.any fun entry => connection.takes entry.flags && entry.answer.fails) := by
  induction entries generalizing connection with
  | nil => simp
  | cons entry entries ih =>
    obtain ⟨hflags, herror⟩ := prepareEntry_spec connection entry
    obtain ⟨hflags', herror'⟩ := ih (connection.prepareEntry entry)
    have htakes : ∀ flags, (connection.prepareEntry entry).takes flags = connection.takes flags :=
      fun flags => by rw [takes, takes, hflags]
    refine ⟨hflags'.trans hflags, ?_⟩
    rw [List.foldl_cons, herror', herror, List.any_cons, Bool.or_assoc]
    simp only [htakes]

/-- `PrepareStatements` takes the flag for its own result. -/
theorem prepareStatements_spec (connection : PreparingConnection) (reconnecting : Bool)
    (size : Nat) (entries : List PrepareEntry) :
    (connection.prepareStatements reconnecting size entries).2.m_connectionFlags =
        connection.m_connectionFlags ∧
      (connection.prepareStatements reconnecting size entries).1 =
        !(connection.prepareStatements reconnecting size entries).2.m_prepareError ∧
      (connection.prepareStatements reconnecting size entries).2.m_prepareError =
        (connection.m_prepareError ||
          entries.any fun entry => connection.takes entry.flags && entry.answer.fails) := by
  refine ⟨?_, rfl, ?_⟩
  · cases reconnecting
    · exact (foldl_prepareEntry entries (connection.resize size)).1
    · exact (foldl_prepareEntry entries connection).1
  · cases reconnecting
    · exact (foldl_prepareEntry entries (connection.resize size)).2
    · exact (foldl_prepareEntry entries connection).2

theorem prepareStatement_flags (connection : PreparingConnection) (flags : ConnectionFlags)
    (answer : PrepareAnswer) :
    (connection.prepareStatement flags answer).2.m_connectionFlags =
      connection.m_connectionFlags := by
  unfold prepareStatement
  cases connection.takes flags with
  | false => rfl
  | true => cases answer <;> rfl

/-- A text that fails is a null pointer, and sets the flag. -/
theorem prepareStatement_fails {connection : PreparingConnection} {flags : ConnectionFlags}
    {answer : PrepareAnswer} (htakes : connection.takes flags = true)
    (hfails : answer.fails = true) :
    connection.prepareStatement flags answer =
      (none, { connection with m_prepareError := true }) := by
  unfold prepareStatement
  rw [htakes]
  cases answer with
  | initFails => rfl
  | prepareFails => rfl
  | prepared paramCount => cases hfails

/-- A text that the server prepares leaves the connection as it is. -/
theorem prepareStatement_prepared (connection : PreparingConnection) (flags : ConnectionFlags)
    {answer : PrepareAnswer} (hfails : answer.fails = false) :
    (connection.prepareStatement flags answer).2 = connection := by
  unfold prepareStatement
  cases connection.takes flags with
  | false => rfl
  | true => cases answer <;> first | rfl | cases hfails

end PreparingConnection

namespace PreparingPool

theorem flags_meet (type : InternalIndex) :
    decide (type.flags.value &&& type.flags.value ≠ 0) = true := by
  cases type <;> decide

/-- The connections have the flags of their kind. -/
def Typed (pool : PreparingPool) : Prop := ∀ key, (pool key).m_connectionFlags = key.1.flags

theorem typed_create : Typed create := fun _ => rfl

theorem Typed.update {pool : PreparingPool} (h : Typed pool) {key : InternalIndex × Nat}
    {connection : PreparingConnection}
    (hflags : connection.m_connectionFlags = (pool key).m_connectionFlags) :
    Typed (Function.update pool key connection) := by
  intro key'
  by_cases heq : key' = key
  · subst heq
    rw [Function.update_self, hflags, h]
  · rw [Function.update_of_ne heq, h]

theorem execute_flags (task : PreparedStatementTask) (connection : PreparingConnection)
    (prepare : PrepareAnswer) (answer : StatementAnswer) :
    (task.execute connection prepare answer).2.2.m_connectionFlags =
      connection.m_connectionFlags := by
  have hflags := connection.prepareStatement_flags .CONNECTION_ASYNC prepare
  unfold PreparedStatementTask.execute
  split
  · cases hprepare : connection.prepareStatement .CONNECTION_ASYNC prepare with
    | mk result connection' =>
      rw [hprepare] at hflags
      cases result with
      | none => exact hflags
      | some mysql_stmt =>
        simp only
        split
        · exact hflags
        · exact hflags
  · rfl

variable {size statements : Nat} {pool : PreparingPool}

/-- What `GetPreparedStatement` makes of a pool in which it finds a free connection. -/
theorem step_getPreparedStatement {answer : PrepareAnswer} {connection : Nat}
    (hfree : pool.getFreeConnection size = some connection) :
    step size statements pool (.getPreparedStatement answer) =
      Function.update pool (.IDX_SYNCH, connection)
        ((pool (.IDX_SYNCH, connection)).lock.prepareStatement .CONNECTION_SYNCH answer).2 := by
  rw [step, getPreparedStatement, hfree]
  rfl

theorem step_getPreparedStatement_none {answer : PrepareAnswer}
    (hfree : pool.getFreeConnection size = none) :
    step size statements pool (.getPreparedStatement answer) = pool := by
  rw [step, getPreparedStatement, hfree]
  rfl

theorem Typed.step (h : Typed pool) (event : PrepareEvent) :
    Typed (step size statements pool event) := by
  cases event with
  | getPreparedStatement answer =>
    cases hfree : pool.getFreeConnection size with
    | none => rwa [step_getPreparedStatement_none hfree]
    | some connection =>
      rw [step_getPreparedStatement hfree]
      apply h.update
      rw [PreparingConnection.prepareStatement_flags]
      rfl
  | execute worker task prepare answer => exact h.update (execute_flags task _ prepare answer)
  | prepareStatements key reconnecting entries =>
    exact h.update ((pool key).prepareStatements_spec reconnecting statements entries).1
  | setLock key locked => exact h.update rfl

/-! ## Texts that fail -/

/-- The null pointer is used, the lock is kept and the flag set. -/
theorem getPreparedStatement_fails (h : Typed pool) {answer : PrepareAnswer}
    (hfails : answer.fails = true) {connection : Nat}
    (hfree : pool.getFreeConnection size = some connection) :
    pool.getPreparedStatement size answer = some (.nullUsed,
      Function.update pool (.IDX_SYNCH, connection)
        { pool (.IDX_SYNCH, connection) with locked := true, m_prepareError := true }) := by
  have htakes : (pool (.IDX_SYNCH, connection)).lock.takes .CONNECTION_SYNCH = true := by
    unfold PreparingConnection.takes PreparingConnection.lock
    rw [h]
    exact flags_meet .IDX_SYNCH
  rw [getPreparedStatement, hfree, Option.map_some,
    PreparingConnection.prepareStatement_fails htakes hfails]
  rfl

/-- The null pointer is used, the promise stays empty and the flag is set. -/
theorem execute_fails (h : Typed pool) {task : PreparedStatementTask}
    (hprepared : task.isPrepared = true) {prepare : PrepareAnswer} (hfails : prepare.fails = true)
    (worker : Nat) (answer : StatementAnswer) :
    task.execute (pool (.IDX_ASYNC, worker)) prepare answer =
      (.nullUsed, task, { pool (.IDX_ASYNC, worker) with m_prepareError := true }) := by
  have htakes : (pool (.IDX_ASYNC, worker)).takes .CONNECTION_ASYNC = true := by
    unfold PreparingConnection.takes
    rw [h]
    exact flags_meet .IDX_ASYNC
  rw [PreparedStatementTask.execute, if_pos hprepared,
    PreparingConnection.prepareStatement_fails htakes hfails]

theorem expected_getPreparedStatement (h : Typed pool) (answer : PrepareAnswer) :
    Expected size statements pool (.getPreparedStatement answer) ↔
      NoFailure size pool (.getPreparedStatement answer) := by
  constructor
  · intro hexpected hfails
    cases hfree : pool.getFreeConnection size with
    | none => rfl
    | some connection =>
      have hend := (hexpected hfails _ (getPreparedStatement_fails h hfails hfree)).1
      cases hend
  · intro hnone hfails result hresult
    rw [getPreparedStatement, hnone hfails, Option.map_none] at hresult
    cases hresult

theorem expected_execute (h : Typed pool) (worker : Nat) (task : PreparedStatementTask)
    (prepare : PrepareAnswer) (answer : StatementAnswer) :
    Expected size statements pool (.execute worker task prepare answer) ↔
      NoFailure size pool (.execute worker task prepare answer) := by
  constructor
  · intro hexpected hprepared
    cases hfails : prepare.fails with
    | false => rfl
    | true =>
      have hend := (hexpected hprepared hfails).1
      rw [execute_fails h hprepared hfails] at hend
      cases hend
  · intro hnone hprepared hfails
    rw [hnone hprepared] at hfails
    cases hfails

theorem any_fails_iff (h : Typed pool) (key : InternalIndex × Nat) (entries : List PrepareEntry) :
    (entries.any fun entry => (pool key).takes entry.flags && entry.answer.fails) = false ↔
      AllPrepared key.1 entries := by
  simp [AllPrepared, PreparingConnection.takes, h key]

/-- `PrepareStatements` tells of its own texts unless the flag was set before and
they all succeed. -/
theorem expected_prepareStatements (h : Typed pool) (key : InternalIndex × Nat)
    (reconnecting : Bool) (entries : List PrepareEntry) :
    Expected size statements pool (.prepareStatements key reconnecting entries) ↔
      (AllPrepared key.1 entries → (pool key).m_prepareError = false) := by
  obtain ⟨_, hresult, herror⟩ :=
    (pool key).prepareStatements_spec reconnecting statements entries
  rw [Expected, hresult, herror, Bool.not_eq_true', Bool.or_eq_false_iff, any_fails_iff h]
  exact ⟨fun hiff hall => (hiff.mpr hall).1, fun himp => ⟨fun hboth => hboth.2,
    fun hall => ⟨himp hall, hall⟩⟩⟩

/-- A step goes as expected when no text of a caller fails and, where a connection prepares
all its texts, its flag is not set. -/
theorem expected_iff (h : Typed pool) (event : PrepareEvent) :
    Expected size statements pool event ↔ NoFailure size pool event ∧
      ∀ key reconnecting entries, event = .prepareStatements key reconnecting entries →
        AllPrepared key.1 entries → (pool key).m_prepareError = false := by
  cases event with
  | getPreparedStatement answer =>
    rw [expected_getPreparedStatement h]
    exact ⟨fun hnone => ⟨hnone, nofun⟩, And.left⟩
  | execute worker task prepare answer =>
    rw [expected_execute h]
    exact ⟨fun hnone => ⟨hnone, nofun⟩, And.left⟩
  | prepareStatements key reconnecting entries =>
    rw [expected_prepareStatements h]
    constructor
    · intro hclear
      refine ⟨trivial, fun _ _ _ hevent => ?_⟩
      cases hevent
      exact hclear
    · intro hclear
      exact hclear.2 key reconnecting entries rfl
  | setLock key locked => exact ⟨fun _ => ⟨trivial, nofun⟩, fun _ => trivial⟩

/-! ## The flag over a history -/

/-- A call of a caller whose text does not fail leaves the flags. -/
theorem step_update_error {key key' : InternalIndex × Nat} {connection : PreparingConnection}
    (herror : connection.m_prepareError = (pool key').m_prepareError) :
    (Function.update pool key' connection key).m_prepareError = (pool key).m_prepareError := by
  by_cases heq : key = key'
  · subst heq
    rw [Function.update_self, herror]
  · rw [Function.update_of_ne heq]

theorem execute_prepareError {task : PreparedStatementTask} {prepare : PrepareAnswer}
    (hnone : task.isPrepared = true → prepare.fails = false) (connection : PreparingConnection)
    (answer : StatementAnswer) :
    (task.execute connection prepare answer).2.2 = connection := by
  unfold PreparedStatementTask.execute
  split
  · next hprepared =>
    have hsame := connection.prepareStatement_prepared .CONNECTION_ASYNC (hnone hprepared)
    cases hprepare : connection.prepareStatement .CONNECTION_ASYNC prepare with
    | mk result connection' =>
      rw [hprepare] at hsame
      cases result with
      | none => exact hsame
      | some mysql_stmt =>
        simp only
        split
        · exact hsame
        · exact hsame
  · rfl

/-- Without a text of a caller that fails, only the own texts of a connection set
its flag. -/
theorem step_prepareError (h : Typed pool) {event : PrepareEvent}
    (hnone : NoFailure size pool event) (key : InternalIndex × Nat) :
    (step size statements pool event key).m_prepareError = true ↔
      (pool key).m_prepareError = true ∨ ∃ reconnecting entries,
        event = .prepareStatements key reconnecting entries ∧ ¬ AllPrepared key.1 entries := by
  cases event with
  | getPreparedStatement answer =>
    have hsame : (step size statements pool (.getPreparedStatement answer) key).m_prepareError =
        (pool key).m_prepareError := by
      cases hfree : pool.getFreeConnection size with
      | none => rw [step_getPreparedStatement_none hfree]
      | some connection =>
        have hanswer : answer.fails = false := by
          cases hfails : answer.fails with
          | false => rfl
          | true => exact absurd ((hnone hfails).symm.trans hfree) (by simp)
        rw [step_getPreparedStatement hfree,
          PreparingConnection.prepareStatement_prepared _ _ hanswer]
        exact step_update_error rfl
    rw [hsame]
    simp
  | execute worker task prepare answer =>
    rw [step, execute_prepareError hnone, step_update_error rfl]
    simp
  | prepareStatements key' reconnecting entries =>
    obtain ⟨_, _, herror⟩ := (pool key').prepareStatements_spec reconnecting statements entries
    rw [step]
    by_cases heq : key = key'
    · subst heq
      have hany := not_congr (any_fails_iff h key entries)
      rw [Bool.not_eq_false] at hany
      rw [Function.update_self, herror, Bool.or_eq_true, hany]
      constructor
      · rintro (hbefore | hfails)
        · exact Or.inl hbefore
        · exact Or.inr ⟨reconnecting, entries, rfl, hfails⟩
      · rintro (hbefore | ⟨_, _, hevent, hfails⟩)
        · exact Or.inl hbefore
        · cases hevent
          exact Or.inr hfails
    · rw [Function.update_of_ne heq]
      constructor
      · exact Or.inl
      · rintro (hbefore | ⟨_, _, hevent, _⟩)
        · exact hbefore
        · cases hevent
          exact absurd rfl heq
  | setLock key' locked =>
    have hsame : (step size statements pool (.setLock key' locked) key).m_prepareError =
        (pool key).m_prepareError := step_update_error rfl
    rw [hsame]
    simp

theorem run_prepareError (h : Typed pool) {history : List PrepareEvent}
    (hnone : Along (step size statements) (NoFailure size) pool history)
    (key : InternalIndex × Nat) :
    (run (step size statements) pool history key).m_prepareError = true ↔
      (pool key).m_prepareError = true ∨ ∃ reconnecting entries,
        .prepareStatements key reconnecting entries ∈ history ∧ ¬ AllPrepared key.1 entries := by
  induction history generalizing pool with
  | nil => simp
  | cons event history ih =>
    rw [run_cons, ih (h.step event) hnone.2, step_prepareError h hnone.1]
    constructor
    · rintro ((hbefore | ⟨reconnecting, entries, rfl, hfails⟩) |
        ⟨reconnecting, entries, hmem, hfails⟩)
      · exact Or.inl hbefore
      · exact Or.inr ⟨reconnecting, entries, List.mem_cons_self, hfails⟩
      · exact Or.inr ⟨reconnecting, entries, List.mem_cons_of_mem _ hmem, hfails⟩
    · rintro (hbefore | ⟨reconnecting, entries, hmem, hfails⟩)
      · exact Or.inl (Or.inl hbefore)
      · rcases List.mem_cons.mp hmem with rfl | hmem
        · exact Or.inl (Or.inr ⟨reconnecting, entries, rfl, hfails⟩)
        · exact Or.inr ⟨reconnecting, entries, hmem, hfails⟩

/-- A history goes as expected if and only if no caller has a text that the server
does not prepare, and no connection prepares all its texts after it failed to. -/
theorem adhoc_history_iff (size statements : Nat) (history : List PrepareEvent) :
    Along (step size statements) (Expected size statements) create history ↔
      Along (step size statements) (NoFailure size) create history ∧
        ∀ before key reconnecting entries after,
          history = before ++ .prepareStatements key reconnecting entries :: after →
          AllPrepared key.1 entries → ∀ reconnecting' entries',
            .prepareStatements key reconnecting' entries' ∈ before →
              AllPrepared key.1 entries' := by
  have htyped : ∀ events, Typed (run (step size statements) create events) :=
    fun events => run_invariant (fun _ event h => h.step event) typed_create events
  constructor
  · intro hexpected
    rw [along_iff_split] at hexpected
    have hnone : Along (step size statements) (NoFailure size) create history := by
      rw [along_iff_split]
      intro before event after hsplit
      exact ((expected_iff (htyped before) event).mp (hexpected before event after hsplit)).1
    refine ⟨hnone, ?_⟩
    intro before key reconnecting entries after hsplit hall reconnecting' entries' hmem
    have hexpected' := (expected_iff (htyped before) _).mp (hexpected before _ after hsplit)
    have hclear := hexpected'.2 key reconnecting entries rfl hall
    subst hsplit
    have hflag := run_prepareError typed_create (along_append.mp hnone).1 key
    apply Classical.byContradiction
    intro hfails
    rw [hflag.mpr (Or.inr ⟨reconnecting', entries', hmem, hfails⟩)] at hclear
    cases hclear
  · rintro ⟨hnone, horder⟩
    rw [along_iff_split]
    intro before event after hsplit
    have hevent := along_iff_split.mp hnone before event after hsplit
    refine (expected_iff (htyped before) event).mpr ⟨hevent, ?_⟩
    rintro key reconnecting entries rfl hall
    have hearlier := horder before key reconnecting entries after hsplit hall
    subst hsplit
    have hflag := run_prepareError typed_create (along_append.mp hnone).1 key
    rw [← Bool.not_eq_true, hflag]
    rintro (hcreated | ⟨reconnecting', entries', hmem, hfails⟩)
    · cases hcreated
    · exact hfails (hearlier reconnecting' entries' hmem)

end PreparingPool

/-- One connection of each kind and a text with an error in it. Behind the call, a
reconnect that prepares all its texts fails too. -/
theorem misspelt_text_uses_null :
    (PreparingPool.create.getPreparedStatement 1 .prepareFails).map Prod.fst = some .nullUsed ∧
      (PreparingPool.step 1 1 .create (.getPreparedStatement .prepareFails)
        (.IDX_SYNCH, 0)).locked = true ∧
      ((PreparingPool.step 1 1 .create (.getPreparedStatement .prepareFails)
        (.IDX_SYNCH, 0)).prepareStatements true 1
          [⟨0, .CONNECTION_SYNCH, .prepared 1⟩]).1 = false ∧
      (PreparedStatementTask.execute ⟨true, true, false⟩ (PreparingPool.create (.IDX_ASYNC, 0))
        .prepareFails ⟨some 1, true⟩).1 = .nullUsed ∧
      (PreparedStatementTask.execute ⟨true, true, false⟩ (PreparingPool.create (.IDX_ASYNC, 0))
        .prepareFails ⟨some 1, true⟩).2.1.satisfied = false := by
  decide

end Mpool.Database
