import Mpool.Database.Delivery

/-! `QueryHolder.cpp`: several statements that one task executes, with a callback that gets
the holder. First what becomes of the statements while a holder is filled, then the task,
one query at a time, beside the thread that polls for its end. -/

namespace Mpool.Database

open Runs

/-- `SQLQueryHolderBase`. A statement is a pointer. -/
structure SQLQueryHolder where
  m_queries : List (Option Nat × Option PreparedResultSet)

namespace SQLQueryHolder

def new : SQLQueryHolder := ⟨[]⟩

/-- `SetSize`. -/
def setSize (holder : SQLQueryHolder) (size : Nat) : SQLQueryHolder :=
  ⟨(holder.m_queries ++ List.replicate size (none, none)).take size⟩

/-- `SetPreparedQueryImpl`, which leaves the statement that was there before. -/
def setPreparedQueryImpl (holder : SQLQueryHolder) (index : Nat) (stmt : Option Nat) :
    Bool × SQLQueryHolder :=
  match holder.m_queries[index]? with
  | none => (false, holder)
  | some query => (true, ⟨holder.m_queries.set index (stmt, query.2)⟩)

/-- `GetPreparedResult`; `none` is the failed `ASSERT`. -/
def getPreparedResult (holder : SQLQueryHolder) (index : Nat) : Option (Option PreparedResultSet) :=
  holder.m_queries[index]?.map Prod.snd

/-- `SetPreparedResult`. -/
def setPreparedResult (holder : SQLQueryHolder) (index : Nat) (result : Option PreparedResultSet) :
    SQLQueryHolder :=
  match holder.m_queries[index]? with
  | none => holder
  | some query =>
    ⟨holder.m_queries.set index (query.1, result.filter fun result => result.m_rowCount ≠ 0)⟩

/-- What the destructor deletes. -/
def statements (holder : SQLQueryHolder) : List Nat := holder.m_queries.filterMap Prod.fst

section execute

-- `m_conn->Query(stmt)`.
variable {σ : Type} (query : σ → Nat → Option PreparedResultSet × σ)

/-- The body of the loop of `SQLQueryHolderTask::Execute`. -/
def executeAt (s : SQLQueryHolder × σ) (i : Nat) : SQLQueryHolder × σ :=
  match s.1.m_queries[i]? with
  | some (some stmt, _) =>
    let (result, connection) := query s.2 stmt
    (s.1.setPreparedResult i result, connection)
  | _ => s

/-- The loop. -/
def execute (holder : SQLQueryHolder) (connection : σ) : SQLQueryHolder × σ :=
  (List.range holder.m_queries.length).foldl (executeAt query) (holder, connection)

/-- The statements in the order of their indices, each on the connection that the statements
before it have left. -/
def answers : List (Option Nat × Option PreparedResultSet) → σ →
    List (Option Nat × Option PreparedResultSet)
  | [], _ => []
  | (none, result) :: queries, connection => (none, result) :: answers queries connection
  | (some stmt, _) :: queries, connection =>
    (some stmt, (query connection stmt).1.filter fun result => result.m_rowCount ≠ 0) ::
      answers queries (query connection stmt).2

end execute

end SQLQueryHolder

/-! ## Filling a holder -/

inductive HolderCall where
  | setSize (size : Nat)
  | setPreparedQuery (index : Nat) (stmt : Option Nat)

/-- A holder with the statements it was given, those whose pointer it has overwritten or cut
off, and those for which it returned `false`. -/
structure HolderRecord where
  holder : SQLQueryHolder
  given : List Nat
  lost : List Nat
  refused : List Nat

namespace HolderRecord

def new : HolderRecord := ⟨.new, [], [], []⟩

def step (r : HolderRecord) : HolderCall → HolderRecord
  | .setSize size =>
    { r with
      holder := r.holder.setSize size
      lost := r.lost ++ (r.holder.m_queries.drop size).filterMap Prod.fst }
  | .setPreparedQuery index stmt =>
    let (accepted, holder) := r.holder.setPreparedQueryImpl index stmt
    { holder
      given := r.given ++ stmt.toList
      lost := r.lost ++ ((r.holder.m_queries[index]?.bind Prod.fst).toList)
      refused := r.refused ++ if accepted then [] else stmt.toList }

/-- The call takes no place that a statement has. -/
def Spares (r : HolderRecord) : HolderCall → Prop
  | .setSize size => ∀ query ∈ r.holder.m_queries.drop size, query.1 = none
  | .setPreparedQuery index _ => ∀ query, r.holder.m_queries[index]? = some query → query.1 = none

/-- The call is for a place of the holder. -/
def Fits (r : HolderRecord) : HolderCall → Prop
  | .setSize _ => True
  | .setPreparedQuery index stmt => index < r.holder.m_queries.length ∨ stmt = none

/-- Every statement is in the holder, lost or refused, as often as it was given. -/
def Accounted (r : HolderRecord) : Prop :=
  ∀ stmt, r.given.count stmt =
    r.holder.statements.count stmt + r.lost.count stmt + r.refused.count stmt

/-- The statements in front of a place, at it and behind it. -/
theorem count_statements_split {queries : List (Option Nat × Option PreparedResultSet)}
    {index : Nat} {query : Option Nat × Option PreparedResultSet}
    (hquery : queries[index]? = some query) (new : Option Nat × Option PreparedResultSet)
    (stmt : Nat) :
    ((queries.set index new).filterMap Prod.fst).count stmt + query.1.toList.count stmt =
      (queries.filterMap Prod.fst).count stmt + new.1.toList.count stmt := by
  induction queries generalizing index with
  | nil => simp at hquery
  | cons first queries ih =>
    have hcons : ∀ (q : Option Nat × Option PreparedResultSet) qs,
        ((q :: qs).filterMap Prod.fst).count stmt =
          q.1.toList.count stmt + (qs.filterMap Prod.fst).count stmt := by
      rintro ⟨q, -⟩ qs
      cases q with
      | none => simp
      | some q => simp [List.count_cons, Nat.add_comm]
    cases index with
    | zero =>
      obtain rfl := Option.some.inj hquery
      rw [List.set_cons_zero, hcons, hcons]
      omega
    | succ index =>
      have hrest := @ih index (by simpa using hquery)
      rw [List.set_cons_succ, hcons, hcons]
      omega

theorem Accounted.step {r : HolderRecord} (h : Accounted r) (call : HolderCall) :
    Accounted (r.step call) := by
  intro stmt
  have hr := h stmt
  cases call with
  | setSize size =>
    have hsplit : r.holder.statements = (r.holder.setSize size).statements ++
        (r.holder.m_queries.drop size).filterMap Prod.fst := by
      have hnone : ∀ k, (List.replicate k ((none, none) :
          Option Nat × Option PreparedResultSet)).filterMap Prod.fst = [] := fun k =>
        List.filterMap_eq_nil_iff.mpr fun query hquery => by rw [List.eq_of_mem_replicate hquery]
      rw [SQLQueryHolder.statements, SQLQueryHolder.statements, SQLQueryHolder.setSize,
        List.take_append, List.filterMap_append, List.take_replicate, hnone, List.append_nil,
        ← List.filterMap_append, List.take_append_drop]
    rw [hsplit, List.count_append] at hr
    simp only [HolderRecord.step, List.count_append]
    omega
  | setPreparedQuery index new =>
    cases hquery : r.holder.m_queries[index]? with
    | none =>
      simp only [HolderRecord.step, SQLQueryHolder.setPreparedQueryImpl, hquery,
        List.count_append, Option.bind_none, Option.toList_none, List.count_nil]
      simp only [Bool.false_eq_true, if_false]
      omega
    | some query =>
      have hset := count_statements_split hquery (new, query.2) stmt
      simp only at hset
      simp only [SQLQueryHolder.statements] at hr ⊢
      simp only [HolderRecord.step, SQLQueryHolder.setPreparedQueryImpl, hquery,
        List.count_append, Option.bind_some, if_true, List.count_nil]
      omega

theorem step_lost (r : HolderRecord) (call : HolderCall) :
    (r.step call).lost = [] ↔ r.lost = [] ∧ r.Spares call := by
  cases call with
  | setSize size => simp [step, Spares, List.filterMap_eq_nil_iff]
  | setPreparedQuery index stmt =>
    cases hquery : r.holder.m_queries[index]? with
    | none => simp [step, Spares, SQLQueryHolder.setPreparedQueryImpl, hquery]
    | some query => simp [step, Spares, SQLQueryHolder.setPreparedQueryImpl, hquery]

theorem step_refused (r : HolderRecord) (call : HolderCall) :
    (r.step call).refused = [] ↔ r.refused = [] ∧ r.Fits call := by
  cases call with
  | setSize size => simp [step, Fits]
  | setPreparedQuery index stmt =>
    cases hquery : r.holder.m_queries[index]? with
    | none =>
      have hlength := List.getElem?_eq_none_iff.mp hquery
      simp [step, Fits, SQLQueryHolder.setPreparedQueryImpl, Nat.not_lt.mpr hlength]
    | some query =>
      have hlt := (List.getElem?_eq_some_iff.mp hquery).1
      simp [step, Fits, SQLQueryHolder.setPreparedQueryImpl, hlt]

/-- A condition that each step keeps or breaks for good. -/
theorem run_iff_of_step {Q : HolderRecord → Prop} {C : HolderRecord → HolderCall → Prop}
    (hstep : ∀ r call, Q (r.step call) ↔ Q r ∧ C r call) {r : HolderRecord} (h : Q r)
    (calls : List HolderCall) : Q (run step r calls) ↔ Along step C r calls :=
  run_iff_along (P := Q) (fun _ h => h) (fun r call hr hc => (hstep r call).mpr ⟨hr, hc⟩)
    (fun r call _ hc hq => hc ((hstep r call).mp hq).2)
    (fun r call hr hq => hr ((hstep r call).mp hq).1) h calls

/-- However a holder is filled, each statement it was given is deleted by it, was lost by it
or was refused, and never two of these for one that was given once. None is lost exactly if no
call took a place that a statement had, and none is refused exactly if every call was for a
place of the holder. -/
theorem statements_accounted (calls : List HolderCall) :
    Accounted (run step new calls) ∧
      ((run step new calls).lost = [] ↔ Along step Spares new calls) ∧
      ((run step new calls).refused = [] ↔ Along step Fits new calls) :=
  ⟨run_invariant (fun _ call h => h.step call) (fun _ => rfl) calls,
    @run_iff_of_step (·.lost = []) Spares step_lost new rfl calls,
    @run_iff_of_step (·.refused = []) Fits step_refused new rfl calls⟩

end HolderRecord

/-! ## The loop of the task -/

namespace SQLQueryHolder

variable {σ : Type} (query : σ → Nat → Option PreparedResultSet × σ)

/-- The connection behind some statements. -/
def asked (connection : σ) (statements : List Nat) : σ :=
  run (fun connection stmt => (query connection stmt).2) connection statements

theorem executeAt_split (front rest : List (Option Nat × Option PreparedResultSet))
    (q : Option Nat × Option PreparedResultSet) (connection : σ) :
    executeAt query (⟨front ++ q :: rest⟩, connection) front.length =
      (⟨front ++ answers query [q] connection ++ rest⟩,
        asked query connection ([q].filterMap Prod.fst)) := by
  obtain ⟨stmt, result⟩ := q
  cases stmt with
  | none => simp [executeAt, answers, asked]
  | some stmt => simp [executeAt, answers, asked, setPreparedResult]

/-- The rounds over the queries behind the first ones. -/
theorem foldl_executeAt (rest front : List (Option Nat × Option PreparedResultSet))
    (connection : σ) :
    (List.range' front.length rest.length).foldl (executeAt query) (⟨front ++ rest⟩, connection) =
      (⟨front ++ answers query rest connection⟩,
        asked query connection (rest.filterMap Prod.fst)) := by
  induction rest generalizing front connection with
  | nil => simp [answers, asked]
  | cons q rest ih =>
    have hlength : (front ++ answers query [q] connection).length = front.length + 1 := by
      obtain ⟨stmt, result⟩ := q
      cases stmt <;> simp [answers]
    rw [List.length_cons, List.range'_succ, List.foldl_cons, executeAt_split, ← hlength, ih]
    obtain ⟨stmt, result⟩ := q
    cases stmt <;> simp [answers, asked]

theorem execute_eq (holder : SQLQueryHolder) (connection : σ) :
    holder.execute query connection =
      (⟨answers query holder.m_queries connection⟩, asked query connection holder.statements) := by
  have h := foldl_executeAt query holder.m_queries [] connection
  rw [List.nil_append, List.nil_append, List.length_nil, ← List.range_eq_range'] at h
  exact h

/-- What stands at one place behind the loop. -/
theorem answers_getElem? (queries : List (Option Nat × Option PreparedResultSet)) (connection : σ)
    (i : Nat) :
    (answers query queries connection)[i]? = queries[i]?.map fun
      | (none, result) => (none, result)
      | (some stmt, _) => (some stmt,
          (query (asked query connection ((queries.take i).filterMap Prod.fst)) stmt).1.filter
            fun result => result.m_rowCount ≠ 0) := by
  induction queries generalizing connection i with
  | nil => rfl
  | cons q queries ih =>
    obtain ⟨stmt, result⟩ := q
    cases i with
    | zero => cases stmt <;> rfl
    | succ i => cases stmt <;> simp [answers, ih, asked]

end SQLQueryHolder

/-! ## The task and its callback -/

/-- Where the worker is with the task; `executing i` has made the rounds before `i`. -/
inductive HolderPhase where
  | queued
  | executing (i : Nat)
  | executed
  | deleted
  deriving DecidableEq

/-- The task, the holder it shares with the callback, and the calls of the callback. -/
structure HolderTask (σ : Type) where
  holder : SQLQueryHolder
  connection : σ
  phase : HolderPhase
  m_result : Promise Unit
  calls : List SQLQueryHolder

/-- `worker` is the next step of the worker thread, `cancel` a `Cancel` of the queue, and `poll`
a pass of the callback processor, which drops the callback once it was called. -/
inductive HolderStep where
  | worker
  | cancel
  | poll
  deriving DecidableEq

namespace HolderTask

variable {σ : Type} (query : σ → Nat → Option PreparedResultSet × σ)

/-- Behind `DelayQueryHolder`. -/
def start (holder : SQLQueryHolder) (connection : σ) : HolderTask σ :=
  ⟨holder, connection, .queued, .pending, []⟩

def step (t : HolderTask σ) : HolderStep → HolderTask σ
  | .worker =>
    match t.phase with
    | .queued => { t with phase := .executing 0 }
    | .executing i =>
      if i < t.holder.m_queries.length then
        let (holder, connection) := SQLQueryHolder.executeAt query (t.holder, t.connection) i
        { t with holder, connection, phase := .executing (i + 1) }
      else { t with phase := .executed, m_result := (t.m_result.setValue ()).getD t.m_result }
    | .executed => { t with phase := .deleted, m_result := t.m_result.destroy }
    | .deleted => t
  | .cancel =>
    match t.phase with
    | .queued => { t with phase := .deleted, m_result := t.m_result.destroy }
    | _ => t
  | .poll =>
    -- `wait_for` also says `ready` of a promise that was broken.
    match t.m_result, t.calls with
    | .pending, _ => t
    | _, [] => { t with calls := [t.holder] }
    | _, _ => t

/-- The rounds before `i`. -/
def rounds (holder : SQLQueryHolder) (connection : σ) (i : Nat) : SQLQueryHolder × σ :=
  (List.range i).foldl (SQLQueryHolder.executeAt query) (holder, connection)

/-- The promise has its value exactly when the last round is made, and is broken only when
none was. -/
def Course (holder : SQLQueryHolder) (connection : σ) (t : HolderTask σ) : Prop :=
  match t.phase with
  | .queued => t = start holder connection
  | .executing i => i ≤ holder.m_queries.length ∧
      (t.holder, t.connection) = rounds query holder connection i ∧ t.m_result = .pending ∧
      t.calls = []
  | .executed => (t.holder, t.connection) = holder.execute query connection ∧
      t.m_result = .value () ∧ (t.calls = [] ∨ t.calls = [t.holder])
  | .deleted => (t.calls = [] ∨ t.calls = [t.holder]) ∧
      ((t.holder, t.connection) = holder.execute query connection ∧ t.m_result = .value () ∨
        (t.holder, t.connection) = (holder, connection) ∧ t.m_result = .broken)

end HolderTask

namespace HolderTask

variable {σ : Type} {query : σ → Nat → Option PreparedResultSet × σ} {holder : SQLQueryHolder}
  {connection : σ}

theorem length_executeAt (s : SQLQueryHolder × σ) (i : Nat) :
    (SQLQueryHolder.executeAt query s i).1.m_queries.length = s.1.m_queries.length := by
  unfold SQLQueryHolder.executeAt
  split
  · simp only [SQLQueryHolder.setPreparedResult]
    split <;> simp
  · rfl

theorem length_rounds (i : Nat) :
    (rounds query holder connection i).1.m_queries.length = holder.m_queries.length := by
  induction i with
  | zero => rfl
  | succ i ih =>
    rw [rounds, List.range_succ, List.foldl_append]
    exact (length_executeAt _ i).trans ih

theorem rounds_succ (i : Nat) :
    rounds query holder connection (i + 1) =
      SQLQueryHolder.executeAt query (rounds query holder connection i) i := by
  rw [rounds, List.range_succ, List.foldl_append]
  rfl

theorem Course.worker {t : HolderTask σ} (h : t.Course query holder connection) :
    (t.step query .worker).Course query holder connection := by
  unfold Course at h
  split at h
  · subst h
    exact ⟨Nat.zero_le _, rfl, rfl, rfl⟩
  · rename_i i hphase
    obtain ⟨hi, hrounds, hpromise, hcalls⟩ := h
    have hlength : t.holder.m_queries.length = holder.m_queries.length := by
      rw [show t.holder = (rounds query holder connection i).1 from congrArg Prod.fst hrounds,
        length_rounds]
    by_cases hlt : i < holder.m_queries.length
    · have hstep : t.step query .worker = { t with
          holder := (SQLQueryHolder.executeAt query (t.holder, t.connection) i).1
          connection := (SQLQueryHolder.executeAt query (t.holder, t.connection) i).2
          phase := .executing (i + 1) } := by
        simp only [step, hphase, hlength, if_pos hlt]
      rw [hstep]
      exact ⟨hlt, by rw [rounds_succ, ← hrounds], hpromise, hcalls⟩
    · have hlast : i = holder.m_queries.length := by omega
      have hstep : t.step query .worker = { t with phase := .executed, m_result := .value () } := by
        simp only [step, hphase, hlength, if_neg hlt, hpromise, Promise.setValue,
          Option.getD_some]
      rw [hstep]
      exact ⟨by rw [hrounds, hlast]; rfl, rfl, .inl hcalls⟩
  · rename_i hphase
    obtain ⟨hexecute, hpromise, hcalls⟩ := h
    have hstep : t.step query .worker = { t with phase := .deleted, m_result := .value () } := by
      simp only [step, hphase, hpromise, Promise.destroy]
    rw [hstep]
    exact ⟨hcalls, .inl ⟨hexecute, rfl⟩⟩
  · rename_i hphase
    have hstep : t.step query .worker = t := by simp only [step, hphase]
    rw [hstep, Course, hphase]
    exact h

theorem Course.cancel {t : HolderTask σ} (h : t.Course query holder connection) :
    (t.step query .cancel).Course query holder connection := by
  cases hphase : t.phase with
  | queued =>
    rw [Course, hphase] at h
    subst h
    exact ⟨.inl rfl, .inr ⟨rfl, rfl⟩⟩
  | executing i => simpa only [step, hphase] using h
  | executed => simpa only [step, hphase] using h
  | deleted => simpa only [step, hphase] using h

theorem Course.poll {t : HolderTask σ} (h : t.Course query holder connection) :
    (t.step query .poll).Course query holder connection := by
  have hcall : ∀ {m_result : Promise Unit}, t.m_result = m_result → m_result ≠ .pending →
      (t.calls = [] ∨ t.calls = [t.holder]) →
      t.step query .poll = { t with calls := [t.holder] } := by
    intro m_result hresult hready hcalls
    rcases hcalls with hcalls | hcalls
    · cases m_result with
      | pending => exact absurd rfl hready
      | value _ => simp only [step, hresult, hcalls]
      | broken => simp only [step, hresult, hcalls]
    · have hsame : { t with calls := [t.holder] } = t := by rw [← hcalls]
      rw [hsame]
      cases m_result with
      | pending => exact absurd rfl hready
      | value _ => simp only [step, hresult, hcalls]
      | broken => simp only [step, hresult, hcalls]
  have hwait : t.m_result = .pending → t.step query .poll = t := by
    intro hresult
    simp only [step, hresult]
  unfold Course at h
  split at h
  · rw [hwait (by rw [h]; rfl), h]
    rfl
  · rename_i i hphase
    rw [hwait h.2.2.1, Course, hphase]
    exact h
  · rename_i hphase
    rw [hcall h.2.1 (by simp) h.2.2, Course]
    simp only [hphase]
    exact ⟨h.1, h.2.1, .inr trivial⟩
  · rename_i hphase
    have hready : ∃ m_result : Promise Unit, t.m_result = m_result ∧ m_result ≠ .pending := by
      rcases h.2 with ⟨-, hresult⟩ | ⟨-, hresult⟩
      · exact ⟨_, hresult, by simp⟩
      · exact ⟨_, hresult, by simp⟩
    obtain ⟨m_result, hresult, hne⟩ := hready
    rw [hcall hresult hne h.1, Course]
    simp only [hphase]
    exact ⟨.inr trivial, h.2⟩

theorem course_run (steps : List HolderStep) :
    (run (step query) (start holder connection) steps).Course query holder connection := by
  have hstart : (start holder connection).Course query holder connection := rfl
  refine run_invariant (fun t i h => ?_) hstart steps
  cases i with
  | worker => exact h.worker
  | cancel => exact h.cancel
  | poll => exact h.poll

theorem statements_answers (queries : List (Option Nat × Option PreparedResultSet))
    (connection : σ) :
    (SQLQueryHolder.answers query queries connection).filterMap Prod.fst =
      queries.filterMap Prod.fst := by
  induction queries generalizing connection with
  | nil => rfl
  | cons q queries ih =>
    obtain ⟨stmt, result⟩ := q
    cases stmt <;> simp [SQLQueryHolder.answers, ih]

/-- In every interleaving the callback is called at most once, and the holder it gets is
complete or untouched. In the first case the connection was asked for the statements in the
order of their indices, once each, and every statement has its own result, null if it has no
rows. The second is a task that a `Cancel` deleted before a worker came to it. -/
theorem callback_all_or_nothing (query : σ → Nat → Option PreparedResultSet × σ)
    (holder : SQLQueryHolder) (connection : σ) (steps : List HolderStep) :
    let t := run (step query) (start holder connection) steps
    t.calls = [] ∨ ∃ result, t.calls = [result] ∧
      (t.m_result = .value () ∧
          t.connection = SQLQueryHolder.asked query connection holder.statements ∧
          (∀ i, result.getPreparedResult i = holder.m_queries[i]?.map fun
            | (none, old) => old
            | (some stmt, _) => (query (SQLQueryHolder.asked query connection
                ((holder.m_queries.take i).filterMap Prod.fst)) stmt).1.filter
                  fun rows => rows.m_rowCount ≠ 0) ∧
          result.statements = holder.statements ∨
        t.m_result = .broken ∧ t.connection = connection ∧ result = holder) := by
  intro t
  have hcourse : t.Course query holder connection := course_run steps
  have hcomplete : ∀ result : SQLQueryHolder,
      (result, t.connection) = holder.execute query connection →
      t.connection = SQLQueryHolder.asked query connection holder.statements ∧
        (∀ i, result.getPreparedResult i = holder.m_queries[i]?.map fun
          | (none, old) => old
          | (some stmt, _) => (query (SQLQueryHolder.asked query connection
              ((holder.m_queries.take i).filterMap Prod.fst)) stmt).1.filter
                fun rows => rows.m_rowCount ≠ 0) ∧
        result.statements = holder.statements := by
    intro result hresult
    rw [SQLQueryHolder.execute_eq] at hresult
    obtain ⟨rfl, hconnection⟩ := Prod.mk.inj hresult
    refine ⟨hconnection, fun i => ?_, ?_⟩
    · rw [SQLQueryHolder.getPreparedResult, SQLQueryHolder.answers_getElem?, Option.map_map]
      refine congrArg (fun f => Option.map f _) (funext ?_)
      rintro ⟨stmt, old⟩
      cases stmt <;> rfl
    · exact statements_answers holder.m_queries connection
  unfold Course at hcourse
  split at hcourse
  · rw [hcourse]
    exact .inl rfl
  · exact .inl hcourse.2.2.2
  · obtain ⟨hexecute, hresult, hcalls⟩ := hcourse
    rcases hcalls with hcalls | hcalls
    · exact .inl hcalls
    · exact .inr ⟨_, hcalls, .inl ⟨hresult, hcomplete _ hexecute⟩⟩
  · obtain ⟨hcalls, hend⟩ := hcourse
    rcases hcalls with hcalls | hcalls
    · exact .inl hcalls
    · refine .inr ⟨_, hcalls, ?_⟩
      rcases hend with ⟨hexecute, hresult⟩ | ⟨huntouched, hresult⟩
      · exact .inl ⟨hresult, hcomplete _ hexecute⟩
      · obtain ⟨hholder, hconnection⟩ := Prod.mk.inj huntouched
        exact .inr ⟨hresult, hconnection, hholder⟩

end HolderTask

end Mpool.Database
