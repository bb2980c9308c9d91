import Mpool.Database.Clients

/-! Who is inside a synchronous connection. A thread that holds the lock of a
connection is alone there as long as every libmysql call is made under the lock.
Four things break that: a statement deleted after its connection is unlocked or in
a worker, `EscapeString`, a `LockIfReady` whose result is not looked at, and
`Close`. -/

namespace Mpool.Database

open Locking Runs PoolProgram

/-! ## The calls by what they do under the lock -/

/-- Made by a caller that holds `H`, the call makes its libmysql calls under the lock
of the connection, and so does the task it leaves in the queue. -/
def PoolCall.Guarded (size : Nat) (H : Set Nat) : PoolCall → Prop
  | .query stmt => stmt.connection = none
  | .execute stmt => stmt.connection = none
  | .asyncQuery stmt => stmt.connection = none
  | .delayQueryHolder holder => connections holder = []
  | .commitTransaction transaction => connections transaction = []
  | .asyncCommitTransaction transaction => connections transaction = []
  | .escapeString str => str.length % 2 ^ 32 = 0 ∨ size = 0 ∨ 0 ∈ H
  | .prepareStatements asyncPrepared prepared =>
    if asyncPrepared then ∀ c < size, prepared c = true else ∀ c < size, c ∈ H
  | .close => ∀ c < size, c ∈ H
  | _ => True

/-- Every call is made on a connection whose lock is held. -/
def exclusionRules : Rules Nat := ⟨True, fun c H => c ∈ H, fun _ _ => True⟩

/-- What a caller with these statements has when a call returns to it: the locks that
go with them, and nothing for the queue that owns such a statement. -/
structure Keeps (stmts : List PreparedStatement) (result : PoolResult) (H : Set Nat) : Prop where
  held : ∀ c ∈ connections (stmts ++ result.statements), c ∈ H
  prepared : ∀ stmt ∈ stmts, stmt.isPrepared = stmt.connection.isSome
  operations : ∀ operation ∈ result.operations, connections operation.statements = []

namespace Keeps

variable {stmts : List PreparedStatement} {H : Set Nat}

/-- A result without a connection. -/
theorem of_done (h : Keeps stmts .done H) {result : PoolResult}
    (hresult : connections result.statements = [])
    (hops : ∀ operation ∈ result.operations, connections operation.statements = []) :
    Keeps stmts result H where
  held := by
    intro c hc
    apply h.held c
    rw [connections_append, hresult] at hc
    simpa [PoolResult.statements] using hc
  prepared := h.prepared
  operations := hops

theorem done (hheld : ∀ c ∈ connections stmts, c ∈ H)
    (hprepared : ∀ stmt ∈ stmts, stmt.isPrepared = stmt.connection.isSome) :
    Keeps stmts .done H where
  held := by
    intro c hc
    apply hheld c
    simpa [PoolResult.statements] using hc
  prepared := hprepared
  operations := nofun

theorem mem (h : Keeps stmts .done H) {c : Nat} (hc : c ∈ connections stmts) : c ∈ H := by
  apply h.held c
  simpa [PoolResult.statements] using hc

theorem enqueued (h : Keeps stmts .done H) {operation : SQLOperation}
    (hop : connections operation.statements = []) : (enqueue operation).Safe exclusionRules
      (Keeps stmts) H := by
  apply h.of_done rfl
  intro operation' hmem
  rw [List.mem_singleton.mp hmem]
  exact hop

/-- A call returns with a statement on a connection that was free. -/
theorem lock (h : Keeps stmts .done H) (connection : Nat) :
    Keeps stmts (.statement (.ofConnection connection)) (insert connection H) where
  held := by
    intro c hc
    simp only [connections_append, List.mem_append] at hc
    rcases hc with hc | hc
    · exact Set.mem_insert_of_mem connection (h.mem hc)
    · rw [List.mem_singleton.mp hc]
      exact Set.mem_insert connection H
  prepared := h.prepared
  operations := nofun

/-- The caller receives the statement and sets it. -/
theorem receive {stmt : PreparedStatement} (h : Keeps stmts (.statement stmt) H) :
    Keeps (stmts ++ [stmt.setPrepared]) .done H := by
  apply done
  · intro c hc
    apply h.held c
    simpa [PoolResult.statements, PreparedStatement.setPrepared] using hc
  · exact PreparedStatement.prepared_append h.prepared

theorem perm {stmts' : List PreparedStatement} (h : Keeps stmts .done H)
    (hperm : stmts.Perm stmts') : Keeps stmts' .done H := by
  apply done
  · intro c hc
    exact h.mem ((connections_perm hperm).mem_iff.mpr hc)
  · intro s hs
    exact h.prepared s (hperm.mem_iff.mpr hs)

theorem append_right {stmts' : List PreparedStatement} (h : Keeps (stmts' ++ stmts) .done H) :
    Keeps stmts .done H := by
  apply done
  · intro c hc
    apply h.mem
    rw [connections_append]
    exact List.mem_append_right _ hc
  · intro s hs
    exact h.prepared s (List.mem_append_right stmts' hs)

end Keeps

/-! ## Guarded calls stay under the lock -/

theorem PreparedStatement.mem_handles {stmt : PreparedStatement} {connection c : Nat}
    (h : c ∈ stmt.handles connection) : c = connection ∨ c ∈ stmt.connection.toList := by
  unfold handles at h
  split at h
  · exact List.mem_cons.mp h
  · exact .inl (List.mem_singleton.mp h)

theorem deleteStatement_exclusive {stmt : PreparedStatement} {Q : PoolResult → Set Nat → Prop}
    {H : Set Nat} (hheld : ∀ c ∈ stmt.connection.toList, c ∈ H) (hQ : Q .done H) :
    (deleteStatement stmt).Safe exclusionRules Q H :=
  ⟨hheld, hQ⟩

theorem prepareAll_exclusive {size : Nat} {prepared : Nat → Bool}
    {Q : PoolResult → Set Nat → Prop} {H : Set Nat} (hQ : Q .done H) {cs : List Nat}
    (hprepared : ∀ c ∈ cs, prepared c = true) :
    (prepareAll size prepared cs).Safe exclusionRules Q H := by
  induction cs with
  | nil => exact hQ
  | cons connection rest ih =>
    refine ⟨trivial, ?_⟩
    intro hfree
    apply Prog.safe_bracket hfree
    · intro c hc
      rw [List.mem_singleton.mp hc]
      exact Set.mem_insert connection H
    · rw [if_pos (hprepared connection List.mem_cons_self)]
      exact ih fun c hc => hprepared c (List.mem_cons_of_mem connection hc)

theorem close_exclusive {size : Nat} {stmts : List PreparedStatement} {H : Set Nat}
    (hheld : ∀ c < size, c ∈ H) (h : Keeps stmts .done H) :
    (close size).Safe exclusionRules (Keeps stmts) H :=
  ⟨fun c hc => hheld c (List.mem_range.mp hc), h.of_done rfl nofun⟩

/-- A free connection, and what the caller holds, is used and given back. -/
theorem getFreeConnection_exclusive {size : Nat} {handles : Nat → List Nat}
    {k : Nat → PoolProgram} {Q : PoolResult → Set Nat → Prop} {H : Set Nat}
    (huse : ∀ connection, ∀ c ∈ handles connection, c = connection ∨ c ∈ H)
    (hk : ∀ connection, (k connection).Safe exclusionRules Q H) :
    (getFreeConnection size fun connection =>
      .use (handles connection) (.unlock connection (k connection))).Safe exclusionRules Q H :=
  getFreeConnection_safe_of_bracket (fun _ => trivial)
    (fun connection _ c hc => huse connection c hc) hk

theorem querySql_exclusive {size : Nat} {Q : PoolResult → Set Nat → Prop} {H : Set Nat}
    (hQ : Q .done H) (sql : Bytes) :
    (PoolProgram.querySql size sql).Safe exclusionRules Q H := by
  apply getFreeConnection_exclusive
  · intro connection c hc
    split at hc
    · cases hc
    · exact .inl (List.mem_singleton.mp hc)
  · exact fun _ => hQ

theorem query_exclusive {size : Nat} {stmt : PreparedStatement}
    {Q : PoolResult → Set Nat → Prop} {H : Set Nat} (hQ : Q .done H)
    (hconnection : stmt.connection = none) (hprepared : stmt.isPrepared = stmt.connection.isSome) :
    (PoolProgram.query size stmt).Safe exclusionRules Q H := by
  have hnone : stmt.connection.toList = [] := by
    rw [hconnection]
    rfl
  rw [hconnection] at hprepared
  simp only [PoolProgram.query, hprepared, Option.isSome_none, Bool.false_eq_true, if_false]
  apply getFreeConnection_exclusive
  · intro connection c hc
    exact (PreparedStatement.mem_handles hc).imp_right fun hc => by simp [hnone] at hc
  · intro connection
    apply deleteStatement_exclusive _ hQ
    simp [hnone]

theorem directExecuteSql_exclusive {size : Nat} {Q : PoolResult → Set Nat → Prop} {H : Set Nat}
    (hQ : Q .done H) (sql : Bytes) :
    (PoolProgram.directExecuteSql size sql).Safe exclusionRules Q H := by
  unfold PoolProgram.directExecuteSql
  split
  · exact hQ
  · apply getFreeConnection_exclusive
    · exact fun connection c hc => .inl (List.mem_singleton.mp hc)
    · exact fun _ => hQ

theorem directExecute_exclusive {size : Nat} {stmt : PreparedStatement}
    {Q : PoolResult → Set Nat → Prop} {H : Set Nat} (hQ : Q .done H)
    (hheld : ∀ c ∈ stmt.connection.toList, c ∈ H) :
    (PoolProgram.directExecute size stmt).Safe exclusionRules Q H := by
  apply getFreeConnection_exclusive
  · intro connection c hc
    exact (PreparedStatement.mem_handles hc).imp_right (hheld c)
  · exact fun _ => deleteStatement_exclusive hheld hQ

/-- The statements are deleted while they are held, before the unlock or behind it. -/
theorem directCommitTransaction_exclusive {size : Nat} {transaction : List PreparedStatement}
    {Q : PoolResult → Set Nat → Prop} {H : Set Nat} (hQ : Q .done H)
    (hheld : ∀ c ∈ connections transaction, c ∈ H) (errorCode : Int) :
    (PoolProgram.directCommitTransaction size transaction errorCode).Safe exclusionRules Q H := by
  apply getFreeConnection_safe fun _ => trivial
  intro connection hfree
  have huse : ∀ c ∈ connection :: connections transaction, c ∈ insert connection H := by
    intro c hc
    exact (List.mem_cons.mp hc).imp_right (hheld c)
  split
  · exact Prog.safe_bracket hfree huse ⟨hheld, hQ⟩
  · exact ⟨huse, Prog.safe_bracket hfree huse hQ⟩

/-- The connection stays locked for the statement. -/
theorem getPreparedStatementSql_exclusive {size : Nat} {stmts : List PreparedStatement}
    {H : Set Nat} (h : Keeps stmts .done H) (prepared : Bool) :
    (PoolProgram.getPreparedStatementSql size prepared).Safe exclusionRules (Keeps stmts) H := by
  apply getFreeConnection_safe fun _ => trivial
  intro connection hfree
  refine ⟨?_, ?_⟩
  · intro c hc
    exact .inl (List.mem_singleton.mp hc)
  · cases prepared with
    | true => exact h.lock connection
    | false => trivial

theorem escapeString_exclusive {size : Nat} {str : Bytes} {Q : PoolResult → Set Nat → Prop}
    {H : Set Nat} (hQ : Q .done H)
    (hguarded : str.length % 2 ^ 32 = 0 ∨ size = 0 ∨ 0 ∈ H) :
    (PoolProgram.escapeString size str).Safe exclusionRules Q H := by
  unfold PoolProgram.escapeString PoolProgram.escapeStringBuffer
  split
  · exact hQ
  · split
    · exact hQ
    · next hlength =>
      split
      · trivial
      · next hsize =>
        refine ⟨?_, hQ⟩
        intro c hc
        rw [List.mem_singleton.mp hc]
        exact (hguarded.resolve_left hlength).resolve_left hsize

theorem keepAlive_exclusive {size : Nat} {stmts : List PreparedStatement} {H : Set Nat}
    (h : Keeps stmts .done H) (async : Nat) :
    (PoolProgram.keepAlive size async).Safe exclusionRules (Keeps stmts) H := by
  apply keepAlive_safe
  · apply h.of_done rfl
    intro operation hmem
    rw [List.eq_of_mem_replicate hmem]
    rfl
  · exact fun connection _ => Set.mem_insert connection H

theorem prepareStatements_exclusive {size : Nat} {asyncPrepared : Bool} {prepared : Nat → Bool}
    {stmts : List PreparedStatement} {H : Set Nat} (h : Keeps stmts .done H)
    (hguarded : PoolCall.Guarded size H (.prepareStatements asyncPrepared prepared)) :
    (PoolProgram.prepareStatements size asyncPrepared prepared).Safe exclusionRules
      (Keeps stmts) H := by
  unfold PoolProgram.prepareStatements
  cases asyncPrepared with
  | true =>
    apply prepareAll_exclusive h
    intro c hc
    exact hguarded c (List.mem_range.mp hc)
  | false => exact close_exclusive hguarded h

/-- What the caller keeps it still has behind the call. -/
theorem PoolCall.prog_exclusive {call : PoolCall} {size : Nat} {H : Set Nat}
    (hguarded : call.Guarded size H) {rest : List PreparedStatement}
    (h : Keeps (call.statements ++ rest) .done H) (async : Nat) :
    (call.prog size async).Safe exclusionRules (Keeps rest) H := by
  have hrest : Keeps rest .done H := h.append_right
  have hheld : ∀ c ∈ connections call.statements, c ∈ H := by
    intro c hc
    apply h.mem
    rw [connections_append]
    exact List.mem_append_left _ hc
  cases call with
  | querySql sql => exact querySql_exclusive hrest sql
  | query stmt => exact query_exclusive hrest hguarded (h.prepared stmt List.mem_cons_self)
  | directExecuteSql sql => exact directExecuteSql_exclusive hrest sql
  | directExecute stmt =>
    apply directExecute_exclusive hrest
    simpa [PoolCall.statements] using hheld
  | executeSql sql =>
    simp only [PoolCall.prog, PoolProgram.executeSql]
    split
    · exact hrest
    · exact hrest.enqueued rfl
  | execute stmt =>
    apply hrest.enqueued
    simp only [PoolCall.Guarded] at hguarded
    simp [SQLOperation.statements, hguarded]
  | asyncQuerySql sql => exact hrest.enqueued rfl
  | asyncQuery stmt =>
    apply hrest.enqueued
    simp only [PoolCall.Guarded] at hguarded
    simp [SQLOperation.statements, hguarded]
  | delayQueryHolder holder => exact hrest.enqueued hguarded
  | commitTransaction transaction => exact hrest.enqueued hguarded
  | asyncCommitTransaction transaction => exact hrest.enqueued hguarded
  | directCommitTransaction transaction errorCode =>
    exact directCommitTransaction_exclusive hrest hheld errorCode
  | getPreparedStatement index => exact hrest.of_done rfl nofun
  | getPreparedStatementSql prepared => exact getPreparedStatementSql_exclusive hrest prepared
  | escapeString str => exact escapeString_exclusive hrest hguarded
  | keepAlive => exact keepAlive_exclusive hrest async
  | prepareStatements asyncPrepared prepared => exact prepareStatements_exclusive hrest hguarded
  | close => exact close_exclusive hguarded hrest

/-! ## Guarded steps keep threads apart -/

namespace Clients

variable {T : Type*}

/-- The condition on a step: a guarded call, or a `LockIfReady` that succeeds where
its result is not looked at. -/
def Guarded (s : Clients T) : ClientStep T → Prop
  | .invoke t call rest => s.Starts t call rest → call.Guarded s.size (held s.owner (.caller t))
  | .next thread => ∀ c k, s.prog thread = .attempt c k → s.owner c = none
  | _ => True

def threadKeeps (statements : T → List PreparedStatement) :
    Thread T → PoolResult → Set Nat → Prop
  | .caller t => Keeps (statements t)
  | .worker _ => fun _ _ => True

/-- No thread will make a call without the lock, and no task makes one. -/
structure Excluding (s : Clients T) : Prop where
  threads : AllSafe (fun _ => exclusionRules) (threadKeeps s.statements) s.owner s.prog
  tasks : ∀ operation ∈ s.queue.queue, connections operation.statements = []

theorem excluding_start (size async : Nat) : (start size async : Clients T).Excluding where
  threads := by
    intro thread
    cases thread with
    | caller t => exact ⟨nofun, nofun, nofun⟩
    | worker k => trivial
  tasks := nofun

namespace Excluding

variable [DecidableEq T] {s : Clients T}

theorem invoke (h : s.Excluding) {t : T} {call : PoolCall} {rest : List PreparedStatement}
    (hguarded : s.Guarded (.invoke t call rest)) : (s.step (.invoke t call rest)).Excluding := by
  by_cases hstarts : s.Starts t call rest
  · rw [step_invoke hstarts]
    refine ⟨?_, h.tasks⟩
    apply AllSafe.update_caller h.threads
    · have hkeeps := h.threads (.caller t)
      rw [hstarts.1] at hkeeps
      simp only [threadKeeps, Function.update_self]
      exact PoolCall.prog_exclusive (hguarded hstarts) (Keeps.perm hkeeps hstarts.2) s.async
    · intro t' ht
      simp only [threadKeeps, Function.update_of_ne ht]
    · exact fun _ => rfl
  · rw [step_invoke_of_not hstarts]
    exact h

theorem returned (h : s.Excluding) (t : T) : (s.step (.returned t)).Excluding := by
  simp only [step]
  split
  · next result hprog =>
    have hkeeps := h.threads (.caller t)
    rw [hprog] at hkeeps
    have hdone : result.statements = [] →
        Keeps (s.statements t) .done (held s.owner (.caller t)) := by
      intro hnil
      apply Keeps.done _ hkeeps.prepared
      intro c hc
      apply hkeeps.held c
      rw [hnil, List.append_nil]
      exact hc
    cases result with
    | done => exact h
    | statement stmt =>
      refine ⟨?_, h.tasks⟩
      apply AllSafe.update_caller h.threads
      · simp only [threadKeeps, collect, Function.update_self]
        exact hkeeps.receive
      · intro t' ht
        simp only [threadKeeps, collect, Function.update_of_ne ht]
      · exact fun _ => rfl
    | enqueued operations =>
      refine ⟨AllSafe.update h.threads (hdone rfl) fun _ _ => rfl, ?_⟩
      intro operation hmem
      simp only [collect, ProducerConsumerQueue.queue_pushAll, List.mem_append] at hmem
      rcases hmem with hmem | hmem
      · exact h.tasks operation hmem
      · exact hkeeps.operations operation hmem
    | closed =>
      refine ⟨AllSafe.update h.threads (hdone rfl) fun _ _ => rfl, ?_⟩
      intro operation hmem
      simp only [collect] at hmem
      split at hmem
      · exact h.tasks operation hmem
      · cases hmem
  · exact h

theorem take (h : s.Excluding) (k : Nat) : (s.step (.take k)).Excluding := by
  rcases step_take_cases s k with hsame | ⟨operation, queue, -, hpop, hstep⟩
  · rw [hsame]
    exact h
  · have htasks := h.tasks
    rw [ProducerConsumerQueue.waitAndPop_some hpop] at htasks
    rw [hstep]
    constructor
    · apply AllSafe.update h.threads
      · refine ⟨?_, trivial⟩
        rw [htasks operation List.mem_cons_self]
        exact nofun
      · exact fun _ _ => rfl
    · exact fun operation' hmem => htasks operation' (List.mem_cons_of_mem operation hmem)

/-- A guarded step. -/
theorem step (h : s.Excluding) {i : ClientStep T} (hguarded : s.Guarded i) :
    (s.step i).Excluding := by
  cases i with
  | invoke t call rest => exact h.invoke hguarded
  | returned t => exact h.returned t
  | take k => exact h.take k
  | next thread => exact ⟨AllSafe.next h.threads fun _ => hguarded, h.tasks⟩
  | libmysql thread connection => exact h

end Excluding

/-! ## Mutual exclusion -/

/-- The thread is where it may call libmysql over the handle of the connection. -/
def Inside (s : Clients T) (thread : Thread T) (connection : Nat) : Prop :=
  ∃ cs k, s.prog thread = .use cs k ∧ connection ∈ cs

theorem Excluding.owner_of_inside {s : Clients T} (h : s.Excluding) {thread : Thread T}
    {connection : Nat} (hinside : s.Inside thread connection) :
    s.owner connection = some thread := by
  obtain ⟨cs, k, hprog, hmem⟩ := hinside
  have hsafe := h.threads thread
  rw [hprog] at hsafe
  exact hsafe.1 connection hmem

/-- A libmysql call is made under the lock of its connection. -/
def CallLocked (s : Clients T) : ClientStep T → Prop
  | .libmysql thread connection => s.Inside thread connection → s.owner connection = some thread
  | _ => True

/-- No two threads are inside one connection. -/
def OneInside (s : Clients T) : Prop :=
  ∀ thread thread' connection, s.Inside thread connection → s.Inside thread' connection →
    thread = thread'

theorem Excluding.callLocked {s : Clients T} (h : s.Excluding) (i : ClientStep T) :
    s.CallLocked i := by
  cases i with
  | libmysql thread connection => exact h.owner_of_inside
  | _ => trivial

theorem Excluding.oneInside {s : Clients T} (h : s.Excluding) : s.OneInside := by
  intro thread thread' connection hinside hinside'
  have howner := h.owner_of_inside hinside
  rw [h.owner_of_inside hinside', Option.some.injEq] at howner
  exact howner.symm

/-- A statement by SQL text always gets `Query` to where it closes the statement with
the lock given back. -/
theorem Excluding.query_closes [DecidableEq T] {s : Clients T} (h : s.Excluding) {t : T}
    {stmt : PreparedStatement} {connection : Nat} (hstmt : stmt.connection = some connection)
    {rest : List PreparedStatement} (hstarts : s.Starts t (.query stmt) rest) :
    let s' := run Clients.step s
      [.invoke t (.query stmt) rest, .next (.caller t), .next (.caller t)]
    s'.Inside (.caller t) connection ∧ s'.owner connection = none := by
  have hprepared : stmt.isPrepared = true := by
    have hkeeps := h.threads (.caller t)
    rw [hstarts.1] at hkeeps
    rw [hkeeps.prepared stmt (hstarts.2.mem_iff.mpr List.mem_cons_self), hstmt]
    rfl
  have hprog : PoolCall.prog s.size s.async (.query stmt) = .use (stmt.handles connection)
      (.unlock connection (deleteStatement stmt)) := by
    simp only [PoolCall.prog, PoolProgram.query, hprepared, if_true, hstmt]
  intro s'
  have hs' : s'.prog (.caller t) = deleteStatement stmt ∧
      s'.owner = release s.owner connection := by
    simp only [s', run_cons, run_nil, step_invoke hstarts]
    simp [Clients.step, setProg, hprog, Prog.next]
  refine ⟨⟨stmt.connection.toList, .ret .done, hs'.1, ?_⟩, ?_⟩
  · rw [hstmt]
    exact List.mem_singleton_self connection
  · rw [hs'.2, release, Function.update_self]

/-- Any number of callers and workers, in any order of their steps: while every step
is guarded, each libmysql call is made under the lock of its connection, and no
two threads are ever inside the same one. -/
theorem exclusion_of_guarded [DecidableEq T] {size async : Nat} {steps : List (ClientStep T)}
    (hguarded : Along step Guarded (start size async) steps) :
    Along step CallLocked (start size async) steps ∧
      Always step OneInside (start size async) steps := by
  have halways := always_of_along (P := Excluding) (fun s i h hi => h.step hi)
    (excluding_start size async) hguarded
  exact ⟨halways.along fun s i h => h.callLocked i, halways.imp fun s h => h.oneInside⟩

/-- Two callers query over one connection at the same time; the second finds it
taken. -/
theorem exclusion_of_guarded_queries :
    let steps : List (ClientStep Bool) := [.invoke false (.querySql [83]) [],
      .next (.caller false), .invoke true (.querySql [83]) [], .libmysql (.caller false) 0,
      .next (.caller true)]
    Along step CallLocked (start 1 0) steps ∧ Always step OneInside (start 1 0) steps := by
  intro steps
  apply exclusion_of_guarded
  refine ⟨fun _ => trivial, ?_, fun _ => trivial, trivial, ?_, trivial⟩
  · intro c k h
    cases h
  · intro c k h
    cases h

/-- A statement by SQL text is deleted after its connection is unlocked, while
another caller queries over that connection. -/
theorem statement_closed_without_lock : ∃ steps : List (ClientStep Bool),
    let s := run step (start 1 0) steps
    s.Inside (.caller false) 0 ∧ s.Inside (.caller true) 0 ∧ s.owner 0 = some (.caller true) := by
  refine ⟨[.invoke false (.getPreparedStatementSql true) [], .next (.caller false),
    .next (.caller false), .returned false, .invoke false (.query ⟨true, 0, some 0⟩) [],
    .next (.caller false), .next (.caller false), .invoke true (.querySql [83]) [],
    .next (.caller true)], ?_, ?_, rfl⟩
  · exact ⟨[0], .ret .done, rfl, List.mem_singleton_self 0⟩
  · exact ⟨[0], .unlock 0 (.ret .done), rfl, List.mem_singleton_self 0⟩

end Clients

end Mpool.Database
