import Mpool.Database.Clients

/-! Which locks of the synchronous connections a caller holds. A statement obtained
by SQL text keeps the lock of its connection until it is handed over. `Query` gives
that lock back; `DirectExecute` and `Execute` do not, and nobody else will. -/

namespace Mpool.Database

open Locking Runs PoolProgram

/-! ## The calls by what they do with locks -/

namespace PoolCall

/-- The calls that statements are obtained for, and those beside them that take a
lock. Nothing that was obtained is appended to a transaction. -/
def Listed : PoolCall → Prop
  | .querySql _ => True
  | .query _ => True
  | .directExecuteSql _ => True
  | .directExecute _ => True
  | .executeSql _ => True
  | .execute _ => True
  | .directCommitTransaction transaction _ => transaction = []
  | .getPreparedStatement _ => True
  | .getPreparedStatementSql _ => True
  | .keepAlive => True
  | _ => False

/-- The connections whose locks the call leaves behind. -/
def leaves : PoolCall → List Nat
  | .directExecute stmt => stmt.connection.toList
  | .execute stmt => stmt.connection.toList
  | _ => []

/-- The call goes through `GetFreeConnection`. -/
def GetsFree : PoolCall → Prop
  | .querySql _ => True
  | .query stmt => stmt.isPrepared = false
  | .directExecuteSql sql => sql ≠ []
  | .directExecute _ => True
  | .directCommitTransaction _ _ => True
  | .getPreparedStatementSql _ => True
  | _ => False

theorem prog_of_getsFree {call : PoolCall} (h : call.GetsFree) {size : Nat} (hsize : size ≠ 0)
    (async : Nat) : ∃ k, call.prog size async = .tryUntil (candidate size) 0 k := by
  have hfree : ∀ k, getFreeConnection size k = .tryUntil (candidate size) 0 k :=
    fun k => if_neg hsize
  cases call with
  | querySql sql => exact ⟨_, hfree _⟩
  | query stmt =>
    refine ⟨fun connection =>
      .use (stmt.handles connection) (.unlock connection (deleteStatement stmt)), ?_⟩
    simp only [GetsFree] at h
    simp only [prog, PoolProgram.query, h, Bool.false_eq_true, if_false]
    exact hfree _
  | directExecuteSql sql =>
    refine ⟨fun connection => .use [connection] (.unlock connection (.ret .done)), ?_⟩
    simp only [GetsFree] at h
    simp only [prog, PoolProgram.directExecuteSql, if_neg h]
    exact hfree _
  | directExecute stmt => exact ⟨_, hfree _⟩
  | directCommitTransaction transaction errorCode => exact ⟨_, hfree _⟩
  | getPreparedStatementSql prepared => exact ⟨_, hfree _⟩
  | _ => exact absurd h id

end PoolCall

def ClientStep.Listed {T : Type*} : ClientStep T → Prop
  | .invoke _ call _ => call.Listed
  | _ => True

/-! ## Accounts of one caller -/

/-- A caller that holds `H` holds the locks `kept` that go with its statements, each
of them once, and those it has left behind. -/
structure Holds (kept : List Nat) (leaked H : Set Nat) : Prop where
  nodup : kept.Nodup
  disjoint : ∀ c ∈ kept, c ∉ leaked
  mem_iff : ∀ c, c ∈ H ↔ c ∈ kept ∨ c ∈ leaked

namespace Holds

variable {kept kept' : List Nat} {leaked H : Set Nat} {connection : Nat}

theorem perm (h : Holds kept leaked H) (hperm : kept.Perm kept') : Holds kept' leaked H where
  nodup := hperm.nodup_iff.mp h.nodup
  disjoint c hc := h.disjoint c (hperm.mem_iff.mpr hc)
  mem_iff c := by rw [h.mem_iff, hperm.mem_iff]

/-- A statement is handed over and its lock is kept. -/
theorem leave (h : Holds (kept' ++ kept) leaked H) :
    Holds kept (leaked ∪ {c | c ∈ kept'}) H := by
  obtain ⟨hnodup, hdisjoint, hmem⟩ := h
  simp only [List.nodup_append, List.mem_append] at hnodup hdisjoint hmem
  refine ⟨hnodup.2.1, ?_, ?_⟩
  · rintro c hc (hleaked | hleft)
    · exact hdisjoint c (.inr hc) hleaked
    · exact hnodup.2.2 c hleft c hc rfl
  · intro c
    rw [hmem, Set.mem_union, Set.mem_ofPred_eq]
    tauto

/-- A statement is handed over and its lock is given back. -/
theorem unlock (h : Holds (connection :: kept) leaked H) :
    connection ∈ H ∧ Holds kept leaked (H \ {connection}) := by
  obtain ⟨hnodup, hdisjoint, hmem⟩ := h
  simp only [List.nodup_cons, List.mem_cons] at hnodup hdisjoint hmem
  refine ⟨(hmem connection).mpr (.inl (.inl rfl)), hnodup.2, ?_, ?_⟩
  · intro c hc
    exact hdisjoint c (.inr hc)
  · intro c
    rw [Set.mem_sdiff, hmem, Set.mem_singleton_iff]
    constructor
    · tauto
    · rintro (hc | hc)
      · exact ⟨.inl (.inr hc), fun heq => hnodup.1 (heq ▸ hc)⟩
      · exact ⟨.inr hc, fun heq => hdisjoint connection (.inl rfl) (heq ▸ hc)⟩

/-- A statement is obtained with the lock of a free connection. -/
theorem lock (h : Holds kept leaked H) (hfree : connection ∉ H) :
    Holds (kept ++ [connection]) leaked (insert connection H) := by
  obtain ⟨hnodup, hdisjoint, hmem⟩ := h
  rw [hmem, not_or] at hfree
  refine ⟨?_, ?_, ?_⟩
  · rw [← List.concat_eq_append]
    exact hnodup.concat hfree.1
  · simp only [List.mem_append, List.mem_singleton]
    rintro c (hc | rfl)
    · exact hdisjoint c hc
    · exact hfree.2
  · intro c
    rw [Set.mem_insert_iff, hmem, List.mem_append, List.mem_singleton]
    tauto

end Holds

/-- What a caller with these statements holds when a call returns to it. -/
structure Accounts (stmts : List PreparedStatement) (leaked : Set Nat) (result : PoolResult)
    (H : Set Nat) : Prop where
  holds : Holds (connections (stmts ++ result.statements)) leaked H
  prepared : ∀ stmt ∈ stmts, stmt.isPrepared = stmt.connection.isSome

namespace Accounts

variable {stmts stmts' : List PreparedStatement} {stmt : PreparedStatement} {leaked H : Set Nat}
  {result result' : PoolResult}

theorem perm (h : Accounts stmts leaked .done H) (hperm : stmts.Perm stmts') :
    Accounts stmts' leaked .done H where
  holds := h.holds.perm (connections_perm (hperm.append_right PoolResult.done.statements))
  prepared s hs := h.prepared s (hperm.mem_iff.mpr hs)

/-- Only the connections of the result count. -/
theorem of_result (h : Accounts stmts leaked result H)
    (hresult : connections result'.statements = connections result.statements) :
    Accounts stmts leaked result' H where
  holds := by
    rw [connections_append, hresult, ← connections_append]
    exact h.holds
  prepared := h.prepared

/-- A statement is handed over and its lock, if it has one, is kept. -/
theorem leave (h : Accounts (stmt :: stmts) leaked .done H) :
    Accounts stmts (leaked ∪ {c | c ∈ stmt.connection.toList}) .done H where
  holds := by
    have hholds := h.holds
    rw [List.cons_append, connections_cons] at hholds
    exact hholds.leave
  prepared s hs := h.prepared s (List.mem_cons_of_mem stmt hs)

theorem unlock {connection : Nat} (h : Accounts (stmt :: stmts) leaked .done H)
    (hstmt : stmt.connection = some connection) :
    connection ∈ H ∧ Accounts stmts leaked .done (H \ {connection}) := by
  have hholds := h.holds
  rw [List.cons_append, connections_cons, hstmt] at hholds
  obtain ⟨hmem, hrest⟩ := hholds.unlock
  exact ⟨hmem, hrest, fun s hs => h.prepared s (List.mem_cons_of_mem stmt hs)⟩

/-- A call returns with a statement on a connection that was free. -/
theorem lock {connection : Nat} (h : Accounts stmts leaked .done H) (hfree : connection ∉ H) :
    Accounts stmts leaked (.statement (.ofConnection connection)) (insert connection H) where
  holds := by
    have hholds := h.holds.lock hfree
    simpa [PoolResult.statements, PreparedStatement.ofConnection] using hholds
  prepared := h.prepared

/-- The caller receives the statement and sets it. -/
theorem receive (h : Accounts stmts leaked (.statement stmt) H) :
    Accounts (stmts ++ [stmt.setPrepared]) leaked .done H where
  holds := by
    have hholds := h.holds
    simpa [PoolResult.statements, PreparedStatement.setPrepared] using hholds
  prepared := PreparedStatement.prepared_append h.prepared

end Accounts

/-! ## The calls keep the accounts -/

/-- Of the calls nothing is asked, and `attempt` does not occur. -/
def lockRules (loop : (Nat → Nat) → Set Nat → Prop) : Rules Nat := ⟨False, fun _ _ => True, loop⟩

theorem deleteStatement_safe {loop : (Nat → Nat) → Set Nat → Prop}
    {Q : PoolResult → Set Nat → Prop} {H : Set Nat} (hQ : Q .done H) (stmt : PreparedStatement) :
    (deleteStatement stmt).Safe (lockRules loop) Q H :=
  ⟨fun _ _ => trivial, hQ⟩

/-- After the call the locks of its statements are given back or left behind. -/
theorem PoolCall.prog_safe {call : PoolCall} (hlisted : call.Listed)
    {rest : List PreparedStatement} {leaked H : Set Nat} {size : Nat}
    {loop : (Nat → Nat) → Set Nat → Prop}
    (h : Accounts (call.statements ++ rest) leaked .done H)
    (hloop : call.GetsFree → size ≠ 0 → loop (candidate size) H) (async : Nat) :
    (call.prog size async).Safe (lockRules loop)
      (Accounts rest (leaked ∪ {c | c ∈ call.leaves})) H := by
  have hsame : ∀ {stmts : List PreparedStatement} {H : Set Nat}, Accounts stmts leaked .done H →
      Accounts stmts (leaked ∪ {c | c ∈ ([] : List Nat)}) .done H := by
    intro stmts H hstmts
    simpa using hstmts
  have hbracket : ∀ {handles : Nat → List Nat} {k : Nat → PoolProgram}
      {Q : PoolResult → Set Nat → Prop}, call.GetsFree →
      (∀ connection, (k connection).Safe (lockRules loop) Q H) →
      (getFreeConnection size fun connection =>
        .use (handles connection) (.unlock connection (k connection))).Safe (lockRules loop) Q H :=
    fun hgets hk => getFreeConnection_safe_of_bracket (hloop hgets) (fun _ _ _ _ => trivial) hk
  cases call with
  | querySql sql => exact hbracket trivial fun _ => hsame h
  | query stmt =>
    have hprepared := h.prepared stmt List.mem_cons_self
    simp only [PoolCall.prog, PoolProgram.query]
    cases hconn : stmt.connection with
    | none =>
      rw [hconn] at hprepared
      simp only [hprepared, Option.isSome_none, Bool.false_eq_true, if_false]
      have hleave := h.leave
      rw [hconn] at hleave
      exact hbracket hprepared fun _ => deleteStatement_safe hleave stmt
    | some connection =>
      rw [hconn] at hprepared
      simp only [hprepared, Option.isSome_some, if_true]
      obtain ⟨hmem, hrest⟩ := h.unlock hconn
      exact ⟨fun _ _ => trivial, hmem, deleteStatement_safe (hsame hrest) stmt⟩
  | directExecuteSql sql =>
    simp only [PoolCall.prog, PoolProgram.directExecuteSql]
    split
    · exact hsame h
    · next hsql => exact hbracket hsql fun _ => hsame h
  | directExecute stmt =>
    exact hbracket trivial fun _ => deleteStatement_safe h.leave stmt
  | executeSql sql =>
    simp only [PoolCall.prog, PoolProgram.executeSql]
    split
    · exact hsame h
    · exact (hsame h).of_result rfl
  | execute stmt => exact h.leave.of_result rfl
  | directCommitTransaction transaction errorCode =>
    obtain rfl : transaction = [] := hlisted
    apply getFreeConnection_safe (hloop trivial)
    intro connection hfree
    split
    · exact Prog.safe_bracket hfree (fun _ _ => trivial) ⟨fun _ _ => trivial, hsame h⟩
    · exact ⟨fun _ _ => trivial, Prog.safe_bracket hfree (fun _ _ => trivial) (hsame h)⟩
  | getPreparedStatement index =>
    exact (hsame h).of_result rfl
  | getPreparedStatementSql prepared =>
    apply getFreeConnection_safe (hloop trivial)
    intro connection hfree
    refine ⟨fun _ _ => trivial, ?_⟩
    cases prepared with
    | true => exact (hsame h).lock hfree
    | false => trivial
  | keepAlive =>
    apply keepAlive_safe
    · exact (hsame h).of_result rfl
    · exact fun _ _ => trivial
  | _ => exact absurd hlisted id

/-- A call that goes through `GetFreeConnection` and leaves nothing behind brings no
lock with its statements. -/
theorem PoolCall.connections_of_getsFree {call : PoolCall} (hlisted : call.Listed)
    (hgets : call.GetsFree) (hleaves : call.leaves = [])
    (hprepared : ∀ stmt ∈ call.statements, stmt.isPrepared = stmt.connection.isSome) :
    connections call.statements = [] := by
  cases call with
  | query stmt =>
    have hstmt := hprepared stmt List.mem_cons_self
    simp only [PoolCall.GetsFree] at hgets
    rw [hgets, eq_comm, Option.isSome_eq_false_iff, Option.isNone_iff_eq_none] at hstmt
    simp [PoolCall.statements, hstmt]
  | directExecute stmt =>
    simp only [PoolCall.leaves] at hleaves
    simp [PoolCall.statements, hleaves]
  | directCommitTransaction transaction errorCode =>
    obtain rfl : transaction = [] := hlisted
    rfl
  | querySql sql => rfl
  | directExecuteSql sql => rfl
  | getPreparedStatementSql prepared => rfl
  | _ => exact absurd hgets id

/-! ## The steps keep the accounts -/

namespace Clients

variable {T : Type*}

/-- The locks that a step leaves behind for `t`. -/
def leak (s : Clients T) (t : T) (i : ClientStep T) : Set Nat :=
  {c | ∃ call rest, i = .invoke t call rest ∧ s.Starts t call rest ∧ c ∈ call.leaves}

theorem leak_invoke {s : Clients T} {t : T} {call : PoolCall} {rest : List PreparedStatement}
    (h : s.Starts t call rest) : s.leak t (.invoke t call rest) = {c | c ∈ call.leaves} := by
  ext c
  constructor
  · rintro ⟨call', rest', hi, -, hc⟩
    cases hi
    exact hc
  · intro hc
    exact ⟨call, rest, rfl, h, hc⟩

theorem leak_invoke_other {s : Clients T} {t t' : T} (hne : t' ≠ t) (call : PoolCall)
    (rest : List PreparedStatement) : s.leak t' (.invoke t call rest) = ∅ := by
  apply Set.eq_empty_of_forall_notMem
  rintro c ⟨call', rest', hi, -⟩
  cases hi
  exact hne rfl

theorem leak_of_not_invoke {s : Clients T} {t : T} {i : ClientStep T}
    (h : ∀ call rest, i = .invoke t call rest → ¬ s.Starts t call rest) : s.leak t i = ∅ := by
  apply Set.eq_empty_of_forall_notMem
  rintro c ⟨call, rest, hi, hstarts, -⟩
  exact h call rest hi hstarts

def threadRules (loop : T → (Nat → Nat) → Set Nat → Prop) : Thread T → Rules Nat
  | .caller t => lockRules (loop t)
  | .worker _ => lockRules fun _ _ => True

def threadResult (statements : T → List PreparedStatement) (leaked : T → Set Nat) :
    Thread T → PoolResult → Set Nat → Prop
  | .caller t => Accounts (statements t) (leaked t)
  | .worker _ => fun _ H => H = ∅

/-- All accounts are in order; `leaked t` is what `t` has left behind so far. -/
def Accounted (loop : T → (Nat → Nat) → Set Nat → Prop) (leaked : T → Set Nat) (s : Clients T) :
    Prop :=
  AllSafe (threadRules loop) (threadResult s.statements leaked) s.owner s.prog

theorem accounted_start (loop : T → (Nat → Nat) → Set Nat → Prop) (size async : Nat) :
    (start size async : Clients T).Accounted loop fun _ => ∅ := by
  intro thread
  have hheld : held (start size async : Clients T).owner thread = ∅ :=
    Set.eq_empty_of_forall_notMem fun c hc => by cases hc
  cases thread with
  | caller t =>
    refine ⟨⟨List.nodup_nil, nofun, ?_⟩, nofun⟩
    intro c
    rw [hheld]
    simp [start, PoolResult.statements]
  | worker k => exact hheld

namespace Accounted

variable [DecidableEq T] {loop : T → (Nat → Nat) → Set Nat → Prop} {leaked : T → Set Nat}
  {s : Clients T}

omit [DecidableEq T] in
/-- The accounts of a caller between two calls. -/
theorem idle (h : s.Accounted loop leaked) {t : T} (hprog : s.prog (.caller t) = .ret .done) :
    Accounts (s.statements t) (leaked t) .done (held s.owner (.caller t)) := by
  have hsafe := h (.caller t)
  rw [hprog] at hsafe
  exact hsafe

theorem invoke (h : s.Accounted loop leaked) {t : T} {call : PoolCall}
    {rest : List PreparedStatement} (hlisted : call.Listed)
    (hloop : s.Starts t call rest → call.GetsFree → s.size ≠ 0 →
      loop t (candidate s.size) (held s.owner (.caller t))) :
    (s.step (.invoke t call rest)).Accounted loop
      fun t' => leaked t' ∪ s.leak t' (.invoke t call rest) := by
  by_cases hstarts : s.Starts t call rest
  · rw [step_invoke hstarts]
    apply AllSafe.update_caller h
    · have haccounts := (h.idle hstarts.1).perm hstarts.2
      have hsafe := PoolCall.prog_safe hlisted haccounts (hloop hstarts) s.async
      simp only [threadResult, Function.update_self, leak_invoke hstarts]
      exact hsafe
    · intro t' ht
      simp only [threadResult, Function.update_of_ne ht, leak_invoke_other ht, Set.union_empty]
    · exact fun _ => rfl
  · have hleak : ∀ t', s.leak t' (.invoke t call rest) = ∅ := by
      intro t'
      apply leak_of_not_invoke
      intro call' rest' hi
      cases hi
      exact hstarts
    rw [step_invoke_of_not hstarts]
    simp only [hleak, Set.union_empty]
    exact h

theorem returned (h : s.Accounted loop leaked) (t : T) :
    (s.step (.returned t)).Accounted loop leaked := by
  simp only [step]
  split
  · next result hprog =>
    have hsafe := h (.caller t)
    rw [hprog] at hsafe
    cases result with
    | done => exact h
    | statement stmt =>
      apply AllSafe.update_caller h
      · simp only [threadResult, collect, Function.update_self]
        exact hsafe.receive
      · intro t' ht
        simp only [threadResult, collect, Function.update_of_ne ht]
      · exact fun _ => rfl
    | enqueued operations => exact AllSafe.update h (hsafe.of_result rfl) fun _ _ => rfl
    | closed => exact AllSafe.update h (hsafe.of_result rfl) fun _ _ => rfl
  · exact h

theorem take (h : s.Accounted loop leaked) (k : Nat) :
    (s.step (.take k)).Accounted loop leaked := by
  rcases step_take_cases s k with hsame | ⟨operation, queue, hprog, -, hstep⟩
  · rw [hsame]
    exact h
  · have hsafe := h (.worker k)
    rw [hprog] at hsafe
    rw [hstep]
    exact AllSafe.update h ⟨fun _ _ => trivial, hsafe⟩ fun _ _ => rfl

theorem next (h : s.Accounted loop leaked) (thread : Thread T) :
    (s.step (.next thread)).Accounted loop leaked := by
  apply AllSafe.next h
  intro hattempt
  cases thread with
  | caller t => exact absurd hattempt id
  | worker k => exact absurd hattempt id

/-- A listed step; `hloop` is asked where a call enters `GetFreeConnection`. -/
theorem step (h : s.Accounted loop leaked) {i : ClientStep T} (hlisted : i.Listed)
    (hloop : ∀ t call rest, i = .invoke t call rest → s.Starts t call rest → call.GetsFree →
      s.size ≠ 0 → loop t (candidate s.size) (held s.owner (.caller t))) :
    (s.step i).Accounted loop fun t => leaked t ∪ s.leak t i := by
  have hsame : (∀ t call rest, i ≠ .invoke t call rest) → (s.step i).Accounted loop leaked →
      (s.step i).Accounted loop fun t => leaked t ∪ s.leak t i := by
    intro hnot hi
    have hleak : ∀ t, s.leak t i = ∅ :=
      fun t => leak_of_not_invoke fun call rest hi => absurd hi (hnot t call rest)
    simp only [hleak, Set.union_empty]
    exact hi
  cases i with
  | invoke t call rest => exact h.invoke hlisted (hloop t call rest rfl)
  | returned t => exact hsame nofun (h.returned t)
  | take k => exact hsame nofun (h.take k)
  | next thread => exact hsame nofun (h.next thread)
  | libmysql thread connection => exact hsame nofun h

end Accounted

/-! ## Lock balance -/

/-- The caller is between two calls and has handed over all its statements. -/
def Consumed (s : Clients T) (t : T) : Prop :=
  s.prog (.caller t) = .ret .done ∧ s.statements t = []

/-- No other thread holds a lock, as in a client with a single thread. -/
def Alone (s : Clients T) (t : T) : Prop :=
  ∀ c thread, s.owner c = some thread → thread = .caller t

/-- `Unlock` is only called on what the caller has locked, nothing stays locked once
its statements are consumed, and `GetFreeConnection` ends. -/
structure Balanced (t : T) (s : Clients T) : Prop where
  unlock : ∀ c k, s.prog (.caller t) = .unlock c k → s.owner c = some (.caller t)
  released : s.Consumed t → ∀ c, s.owner c ≠ some (.caller t)
  returns : s.Alone t → (s.prog (.caller t)).Leaves (.caller t) s.owner

/-- `t` hands no statement that keeps a lock to `DirectExecute` or `Execute`, and
enters `GetFreeConnection` only while the statements it still has leave it one of
the connections that the loop comes to. -/
def Careful (t : T) (s : Clients T) (i : ClientStep T) : Prop :=
  ∀ call rest, i = .invoke t call rest → s.Starts t call rest → call.leaves = [] ∧
    (call.GetsFree → s.size ≠ 0 → ∃ c < min s.size 256, c ∉ connections rest)

/-- The loops of `t` come again and again to a connection that `t` does not hold. -/
def ownLoop (t t' : T) (turn : Nat → Nat) (H : Set Nat) : Prop :=
  t' = t → ∃ c ∉ H, ∀ i, ∃ j, i ≤ j ∧ turn j = c

theorem Accounted.balanced {t : T} {leaked : T → Set Nat} {s : Clients T}
    (h : s.Accounted (ownLoop t) leaked) (hleaked : leaked t = ∅) : Balanced t s where
  unlock c k hprog := by
    have hsafe := h (.caller t)
    rw [hprog] at hsafe
    exact hsafe.1
  released := by
    rintro ⟨hprog, hstmts⟩ c hc
    have haccounts := h.idle hprog
    rw [hstmts, hleaked] at haccounts
    rcases (haccounts.holds.mem_iff c).mp hc with hmem | hmem
    · cases hmem
    · exact hmem
  returns := by
    intro halone turn i k hprog
    have hsafe := h (.caller t)
    rw [hprog] at hsafe ⊢
    obtain ⟨c, hfree, hagain⟩ := hsafe.1 rfl
    obtain ⟨j, hij, rfl⟩ := hagain i
    apply Prog.tryUntil_leaves hij
    cases howner : s.owner (turn j) with
    | none => rfl
    | some thread =>
      rw [halone _ thread howner] at howner
      exact absurd howner hfree

theorem Accounted.careful_step [DecidableEq T] {t : T} {leaked : T → Set Nat} {s : Clients T}
    (h : s.Accounted (ownLoop t) leaked) (hleaked : leaked t = ∅) {i : ClientStep T}
    (hlisted : i.Listed) (hcareful : Careful t s i) :
    (s.step i).Accounted (ownLoop t) (fun t' => leaked t' ∪ s.leak t' i) ∧
      leaked t ∪ s.leak t i = ∅ := by
  constructor
  · apply h.step hlisted
    rintro t' call rest rfl hstarts hgets hsize rfl
    obtain ⟨hleaves, hroom⟩ := hcareful call rest rfl hstarts
    obtain ⟨c, hc, hrest⟩ := hroom hgets hsize
    have haccounts := (h.idle hstarts.1).perm hstarts.2
    have hnone : connections call.statements = [] :=
      PoolCall.connections_of_getsFree hlisted hgets hleaves
        fun stmt hstmt => haccounts.prepared stmt (List.mem_append_left rest hstmt)
    refine ⟨c, ?_, candidate_again hc⟩
    rw [haccounts.holds.mem_iff, hleaked]
    simp [hnone, hrest, PoolResult.statements]
  · rw [hleaked, Set.empty_union]
    apply Set.eq_empty_of_forall_notMem
    rintro c ⟨call, rest, hi, hstarts, hc⟩
    rw [(hcareful call rest hi hstarts).1] at hc
    cases hc

/-- A worker never takes a lock. -/
def WorkersAtWork (prog : Thread T → PoolProgram) : Prop :=
  ∀ k, prog (.worker k) = .ret .done ∨ ∃ cs, prog (.worker k) = .use cs (.ret .done)

theorem WorkersAtWork.update [DecidableEq T] {prog : Thread T → PoolProgram}
    (h : WorkersAtWork prog) {thread : Thread T} {new : PoolProgram}
    (hnew : ∀ k, thread = .worker k → new = .ret .done ∨ ∃ cs, new = .use cs (.ret .done)) :
    WorkersAtWork (Function.update prog thread new) := by
  intro k
  simp only [Function.update_apply]
  split
  · next heq => exact hnew k heq.symm
  · exact h k

theorem WorkersAtWork.step [DecidableEq T] {s : Clients T} (h : WorkersAtWork s.prog)
    (i : ClientStep T) : WorkersAtWork (s.step i).prog := by
  have hcaller : ∀ (t : T) new, WorkersAtWork (Function.update s.prog (.caller t) new) := by
    intro t new
    apply h.update
    intro k hk
    cases hk
  cases i with
  | invoke t call rest =>
    by_cases hstarts : s.Starts t call rest
    · rw [step_invoke hstarts]
      exact hcaller t _
    · rw [step_invoke_of_not hstarts]
      exact h
  | returned t =>
    simp only [Clients.step]
    split
    · next result hprog =>
      cases result with
      | done => exact h
      | statement stmt => exact hcaller t _
      | enqueued operations => exact hcaller t _
      | closed => exact hcaller t _
    · exact h
  | take k =>
    rcases step_take_cases s k with hsame | ⟨operation, queue, -, -, hstep⟩
    · rw [hsame]
      exact h
    · rw [hstep]
      exact h.update fun _ _ => .inr ⟨_, rfl⟩
  | next thread =>
    apply h.update
    rintro k rfl
    rcases h k with hprog | ⟨cs, hprog⟩
    · rw [hprog]
      exact .inl rfl
    · rw [hprog]
      exact .inl rfl
  | libmysql thread connection => exact h

theorem Accounted.alone {loop : T → (Nat → Nat) → Set Nat → Prop} {leaked : T → Set Nat}
    {s : Clients T} {t : T} (h : s.Accounted loop leaked) (hworkers : WorkersAtWork s.prog)
    (hone : ∀ t' : T, t' = t) : s.Alone t := by
  intro c thread howner
  cases thread with
  | caller t' => rw [hone t']
  | worker k =>
    have hheld : held s.owner (.worker k) = ∅ := by
      have hsafe := h (.worker k)
      rcases hworkers k with hprog | ⟨cs, hprog⟩
      · rw [hprog] at hsafe
        exact hsafe
      · rw [hprog] at hsafe
        exact hsafe.2
    exact absurd howner (Set.eq_empty_iff_forall_notMem.mp hheld c)

/-- A caller that enters the loop and gets out of it had a connection left. -/
theorem Accounted.room [DecidableEq T] {leaked : T → Set Nat} {s : Clients T} {t : T}
    {call : PoolCall} {rest : List PreparedStatement} (h : s.Accounted (fun _ _ _ => True) leaked)
    (hstarts : s.Starts t call rest) (hgets : call.GetsFree) (hsize : s.size ≠ 0)
    (hleaves : ((s.step (.invoke t call rest)).prog (.caller t)).Leaves (.caller t) s.owner) :
    ∃ c < min s.size 256, c ∉ connections rest := by
  obtain ⟨k, hprog⟩ := PoolCall.prog_of_getsFree hgets hsize s.async
  rw [step_invoke hstarts] at hleaves
  simp only [setProg, Function.update_self, hprog, Prog.leaves_tryUntil_iff] at hleaves
  obtain ⟨j, -, hfree⟩ := hleaves
  refine ⟨candidate s.size j, candidate_lt hsize j, ?_⟩
  intro hmem
  have haccounts := (h.idle hstarts.1).perm hstarts.2
  have hheld := (haccounts.holds.mem_iff (candidate s.size j)).mpr
    (.inl (by simp [connections_append, hmem]))
  exact not_mem_held hfree (.caller t) hheld

/-- Where the only caller ends with nothing left to hand over, balance all along
leaves it no careless step. -/
theorem careful_of_balanced [DecidableEq T] {t : T} (hone : ∀ t' : T, t' = t) {s : Clients T}
    {leaked : T → Set Nat} (h : s.Accounted (fun _ _ _ => True) leaked)
    (hworkers : WorkersAtWork s.prog) {steps : List (ClientStep T)}
    (hlisted : ∀ i ∈ steps, i.Listed)
    (hconsumed : (run step s steps).Consumed t) (hbalanced : Always step (Balanced t) s steps) :
    leaked t = ∅ ∧ Along step (Careful t) s steps := by
  induction steps generalizing s leaked with
  | nil =>
    refine ⟨?_, trivial⟩
    have haccounts := h.idle hconsumed.1
    apply Set.eq_empty_of_forall_notMem
    intro c hc
    exact hbalanced.released hconsumed c ((haccounts.holds.mem_iff c).mpr (.inr hc))
  | cons i is ih =>
    have hstep := h.step (hlisted i List.mem_cons_self) fun _ _ _ _ _ _ _ => trivial
    have hworkers' := hworkers.step i
    obtain ⟨hnone, hrest⟩ := ih hstep hworkers'
      (fun j hj => hlisted j (List.mem_cons_of_mem i hj)) hconsumed hbalanced.2
    rw [Set.union_empty_iff] at hnone
    refine ⟨hnone.1, ?_, hrest⟩
    rintro call rest rfl hstarts
    constructor
    · apply List.eq_nil_iff_forall_not_mem.mpr
      intro c hc
      have hleak := hnone.2
      rw [leak_invoke hstarts] at hleak
      exact Set.eq_empty_iff_forall_notMem.mp hleak c hc
    · intro hgets hsize
      have hleaves := hbalanced.2.head.returns (hstep.alone hworkers' hone)
      have howner : (s.step (.invoke t call rest)).owner = s.owner := by
        rw [step_invoke hstarts]
        rfl
      rw [howner] at hleaves
      exact h.room hstarts hgets hsize hleaves

/-- In a run of listed calls whose steps are all careful, the locks of `t` are in
balance in every state. The only caller of a pool that ends with all its
statements consumed was careful in every step, if they were. -/
theorem lockBalance [DecidableEq T] {size async : Nat} {steps : List (ClientStep T)}
    (hlisted : ∀ i ∈ steps, i.Listed) (t : T) :
    (Along step (Careful t) (start size async) steps →
      Always step (Balanced t) (start size async) steps) ∧
    ((∀ t' : T, t' = t) → (run step (start size async) steps).Consumed t →
      Always step (Balanced t) (start size async) steps →
      Along step (Careful t) (start size async) steps) := by
  constructor
  · intro hcareful
    have hstart : ∃ leaked : T → Set Nat, leaked t = ∅ ∧
        (start size async : Clients T).Accounted (ownLoop t) leaked :=
      ⟨fun _ => ∅, rfl, accounted_start (ownLoop t) size async⟩
    have halways := always_of_along
      (P := fun s => ∃ leaked : T → Set Nat, leaked t = ∅ ∧ s.Accounted (ownLoop t) leaked)
      (fun s i ⟨leaked, hleaked, h⟩ hi =>
        have hstep := h.careful_step hleaked hi.1 hi.2
        ⟨_, hstep.2, hstep.1⟩)
      hstart ((along_of_forall hlisted _).and hcareful)
    exact halways.imp fun s ⟨leaked, hleaked, h⟩ => h.balanced hleaked
  · intro hone hconsumed hbalanced
    have hworkers : WorkersAtWork (start size async : Clients T).prog := fun _ => .inl rfl
    exact (careful_of_balanced hone (accounted_start _ size async) hworkers hlisted hconsumed
      hbalanced).2

/-- On the one connection of a pool: a statement by SQL text, passed to `Query`. -/
theorem lockBalance_query :
    let steps : List (ClientStep Unit) := [.invoke () (.getPreparedStatementSql true) [],
      .next (.caller ()), .next (.caller ()), .returned (),
      .invoke () (.query ⟨true, 0, some 0⟩) [], .next (.caller ()), .next (.caller ()),
      .next (.caller ())]
    (run step (start 1 0) steps).Consumed () ∧
      (Always step (Balanced ()) (start 1 0) steps ↔
        Along step (Careful ()) (start 1 0) steps) := by
  intro steps
  have hlisted : ∀ i ∈ steps, i.Listed := by simp [steps, ClientStep.Listed, PoolCall.Listed]
  have hconsumed : (run step (start 1 0) steps).Consumed () := ⟨rfl, rfl⟩
  have hboth : (Along step (Careful ()) (start 1 0) steps → _) ∧ _ := lockBalance hlisted ()
  exact ⟨hconsumed, hboth.2 (fun _ => rfl) hconsumed, hboth.1⟩

/-- On two connections: a statement by SQL text, passed to `DirectExecute`. -/
theorem directExecute_keeps_lock : ∃ steps : List (ClientStep Unit),
    (∀ i ∈ steps, i.Listed) ∧ (run step (start 2 0) steps).Consumed () ∧
      (run step (start 2 0) steps).owner 1 = some (.caller ()) := by
  refine ⟨[.invoke () (.getPreparedStatementSql true) [], .next (.caller ()), .next (.caller ()),
    .returned (), .invoke () (.directExecute ⟨true, 0, some 1⟩) [], .next (.caller ()),
    .next (.caller ()), .next (.caller ()), .next (.caller ()), .next (.caller ())], ?_, ⟨rfl, rfl⟩,
    rfl⟩
  simp [ClientStep.Listed, PoolCall.Listed]

end Clients

end Mpool.Database
