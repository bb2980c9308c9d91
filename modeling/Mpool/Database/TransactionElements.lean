import Mpool.Lib.Except
import Mpool.Lib.Runs
import Mpool.Database.MySQLConnection

/-! The elements of a transaction, from the calls that append them to the two places
that take them apart again. `Execute(sql)` and `DirectExecute(sql)` ignore an empty
text, `Append(sql)` does not, and `ExecuteTransaction` has an `ASSERT` against it. -/

namespace Mpool.Database

open Runs

/-- The branches that no element is meant for. -/
inductive TransactionFault where
  | badVariantAccess
  | nullStatement
  | emptyText
  deriving DecidableEq

/-- `std::get<PreparedStatementBase*>`. -/
def SQLElement.getStatement : SQLElement → Except TransactionFault (Option PreparedStatementBase)
  | .statement stmt => .ok stmt
  | .text _ => .error .badVariantAccess

/-- `std::get<std::string>`. -/
def SQLElement.getText : SQLElement → Except TransactionFault Bytes
  | .statement _ => .error .badVariantAccess
  | .text sql => .ok sql

namespace SQLElementData

/-- The tag says which alternative the variant holds. -/
def Tagged (data : SQLElementData) : Prop :=
  match data.type with
  | .SQL_ELEMENT_PREPARED => ∃ stmt, data.element = .statement stmt
  | .SQL_ELEMENT_RAW => ∃ sql, data.element = .text sql

/-- What the loop of `ExecuteTransaction` gives to `Execute`. -/
def toExecute (data : SQLElementData) : Except TransactionFault Statement :=
  match data.type with
  | .SQL_ELEMENT_PREPARED => do
    match ← data.element.getStatement with
    | none => .error .nullStatement
    | some stmt => .ok (.prepared stmt)
  | .SQL_ELEMENT_RAW => do
    let sql ← data.element.getText
    if sql = [] then .error .emptyText else .ok (.raw sql)

/-- What `Cleanup` makes of an element. The pointer of a deleted statement stays. -/
def clear (data : SQLElementData) : Except TransactionFault SQLElementData :=
  match data.type with
  | .SQL_ELEMENT_PREPARED => do
    match ← data.element.getStatement with
    | none => .error .nullStatement
    | some _ => .ok data
  | .SQL_ELEMENT_RAW => do
    let _ ← data.element.getText
    .ok { data with element := .text [] }

end SQLElementData

structure TransactionBase where
  m_queries : List SQLElementData
  cleanedUp : Bool

/-- How a call of `Execute` on the connection ends: with true, with false and the
error of `GetLastError`, or not at all. -/
inductive ExecuteEnd where
  | done
  | failed (errorCode : Int)
  | stops

/-- The calls of `Execute` in one attempt to commit. -/
structure CommitAnswers where
  start : ExecuteEnd
  queries : Nat → ExecuteEnd

namespace TransactionBase

def create : TransactionBase := ⟨[], false⟩

def append (sql : Bytes) (t : TransactionBase) : TransactionBase :=
  { t with m_queries := t.m_queries ++ [⟨.text sql, .SQL_ELEMENT_RAW⟩] }

def appendPreparedStatement (stmt : Option PreparedStatementBase) (t : TransactionBase) :
    TransactionBase :=
  { t with m_queries := t.m_queries ++ [⟨.statement stmt, .SQL_ELEMENT_PREPARED⟩] }

/-- The loop over the queries; `none` is a call that does not return. -/
def executeQueries : List SQLElementData → (Nat → ExecuteEnd) →
    Except TransactionFault (Option Int)
  | [], _ => .ok (some 0)
  | data :: queries, ends => do
    let _ ← data.toExecute
    match ends 0 with
    | .done => executeQueries queries fun i => ends (i + 1)
    | .failed errorCode => .ok (some errorCode)
    | .stops => .ok none

/-- `ExecuteTransaction`, the code it returns. -/
def executeTransaction (answers : CommitAnswers) (t : TransactionBase) :
    Except TransactionFault (Option Int) :=
  if t.m_queries.isEmpty then .ok (some (-1))
  else match answers.start with
    | .stops => .ok none
    | _ => executeQueries t.m_queries answers.queries

/-- The loop of `Cleanup`, with the fault that ends it. -/
def clearQueries : List SQLElementData → List SQLElementData × Option TransactionFault
  | [] => ([], none)
  | data :: queries =>
    match data.clear with
    | .error fault => (data :: queries, some fault)
    | .ok data =>
      let (queries, fault) := clearQueries queries
      (data :: queries, fault)

def cleanup (t : TransactionBase) : TransactionBase × Option TransactionFault :=
  if t.cleanedUp then (t, none)
  else match clearQueries t.m_queries with
    | (queries, some fault) => ({ t with m_queries := queries }, some fault)
    | (_, none) => (⟨[], true⟩, none)

end TransactionBase

/-! ## The calls of the API -/

/-- A text or a statement, which is not a null pointer. -/
inductive SQLItem where
  | raw (sql : Bytes)
  | prepared (stmt : PreparedStatementBase)

def TransactionBase.appendItem (t : TransactionBase) : SQLItem → TransactionBase
  | .raw sql => t.append sql
  | .prepared stmt => t.appendPreparedStatement (some stmt)

/-- `Execute`: the tasks that are enqueued. -/
def SQLItem.execute : SQLItem → List SQLItem
  | .raw sql => if sql = [] then [] else [.raw sql]
  | .prepared stmt => [.prepared stmt]

/-- `ExecuteOrAppend`, with a null transaction or another one. -/
def executeOrAppend (trans : Option TransactionBase) (item : SQLItem) :
    Option TransactionBase × List SQLItem :=
  match trans with
  | none => (none, item.execute)
  | some t => (some (t.appendItem item), [])

/-- One call that gives an item to the transaction. -/
inductive AppendCall where
  | append (item : SQLItem)
  | executeOrAppend (item : SQLItem)

def AppendCall.item : AppendCall → SQLItem
  | .append item => item
  | .executeOrAppend item => item

inductive TransactionUse where
  | commit (answers : CommitAnswers)
  | cleanup

namespace TransactionBase

def give (t : TransactionBase) : AppendCall → TransactionBase
  | .append item => t.appendItem item
  | .executeOrAppend item => ((Mpool.Database.executeOrAppend (some t) item).1).getD t

/-- The transaction after these calls. -/
def build (calls : List AppendCall) : TransactionBase := calls.foldl give create

/-- An attempt to commit reads the transaction only. -/
def step (t : TransactionBase) : TransactionUse → TransactionBase
  | .commit _ => t
  | .cleanup => t.cleanup.1

/-- The branch that a step gets to. -/
def fault (t : TransactionBase) : TransactionUse → Option TransactionFault
  | .commit answers =>
    match t.executeTransaction answers with
    | .ok _ => none
    | .error fault => some fault
  | .cleanup => t.cleanup.2

/-- A step is as it is meant: the tags are right, and no branch for others is
reached. -/
def Faultless (t : TransactionBase) (step : TransactionUse) : Prop :=
  (∀ data ∈ t.m_queries, data.Tagged) ∧ t.fault step = none

end TransactionBase

/-! ## Elements -/

/-- The element that an item becomes. -/
def SQLItem.data : SQLItem → SQLElementData
  | .raw sql => ⟨.text sql, .SQL_ELEMENT_RAW⟩
  | .prepared stmt => ⟨.statement (some stmt), .SQL_ELEMENT_PREPARED⟩

theorem SQLItem.data_tagged (item : SQLItem) : item.data.Tagged := by
  cases item with
  | raw sql => exact ⟨sql, rfl⟩
  | prepared stmt => exact ⟨some stmt, rfl⟩

theorem SQLItem.data_clear (item : SQLItem) : ∃ data, item.data.clear = .ok data := by
  cases item with
  | raw sql => exact ⟨_, rfl⟩
  | prepared stmt => exact ⟨_, rfl⟩

/-- Of the elements that can be appended only an empty text is not executed. -/
theorem SQLItem.data_toExecute (item : SQLItem) :
    (∃ statement, item.data.toExecute = .ok statement) ↔ item ≠ .raw [] := by
  cases item with
  | raw sql =>
    by_cases hsql : sql = []
    · subst hsql
      simp [SQLItem.data, SQLElementData.toExecute, SQLElement.getText, bind, Except.bind]
    · simp [SQLItem.data, SQLElementData.toExecute, SQLElement.getText, bind, Except.bind, hsql]
  | prepared stmt =>
    simp [SQLItem.data, SQLElementData.toExecute, SQLElement.getStatement, bind, Except.bind]

/-- The body of the loop, as the connection runs it. -/
theorem executeElement_eq (stmts : List (Option MySQLPreparedStatement)) (data : SQLElementData)
    (answers : List Answer) (w : World) :
    executeElement stmts data answers w = match data.toExecute with
      | .error _ => .error .abort
      | .ok (.raw _) => execute (.query data) answers w
      | .ok (.prepared stmt) => executePrepared stmts stmt answers w := by
  obtain ⟨element, type⟩ := data
  cases type with
  | SQL_ELEMENT_RAW =>
    cases element with
    | statement stmt => rfl
    | text sql =>
      by_cases hsql : sql = []
      · subst hsql
        rfl
      · simp [executeElement, SQLElementData.toExecute, SQLElement.getText, bind, Except.bind, hsql]
  | SQL_ELEMENT_PREPARED =>
    cases element with
    | statement stmt => cases stmt <;> rfl
    | text sql => rfl

/-! ## Transactions -/

namespace TransactionBase

theorem appendItem_queries (t : TransactionBase) (item : SQLItem) :
    (t.appendItem item).m_queries = t.m_queries ++ [item.data] := by
  cases item <;> rfl

theorem give_queries (t : TransactionBase) (call : AppendCall) :
    (t.give call).m_queries = t.m_queries ++ [call.item.data] ∧
      (t.give call).cleanedUp = t.cleanedUp := by
  cases call with
  | append item =>
    refine ⟨t.appendItem_queries item, ?_⟩
    cases item <;> rfl
  | executeOrAppend item =>
    refine ⟨t.appendItem_queries item, ?_⟩
    cases item <;> rfl

theorem foldl_give (t : TransactionBase) (calls : List AppendCall) :
    (calls.foldl give t).m_queries = t.m_queries ++ calls.map (fun call => call.item.data) ∧
      (calls.foldl give t).cleanedUp = t.cleanedUp := by
  induction calls generalizing t with
  | nil => simp
  | cons call calls ih =>
    obtain ⟨hqueries, hclean⟩ := ih (t.give call)
    obtain ⟨hqueries', hclean'⟩ := t.give_queries call
    rw [List.foldl_cons]
    refine ⟨?_, hclean.trans hclean'⟩
    rw [hqueries, hqueries', List.map_cons, List.append_assoc, List.singleton_append]

theorem build_queries (calls : List AppendCall) :
    (build calls).m_queries = calls.map (fun call => call.item.data) :=
  (foldl_give create calls).1

theorem executeQueries_ok {items : List SQLItem} (h : ∀ item ∈ items, item ≠ .raw [])
    (ends : Nat → ExecuteEnd) :
    ∃ code, executeQueries (items.map SQLItem.data) ends = .ok code := by
  induction items generalizing ends with
  | nil => exact ⟨_, rfl⟩
  | cons item items ih =>
    obtain ⟨hitem, hitems⟩ := List.forall_mem_cons.mp h
    obtain ⟨statement, hexecute⟩ := item.data_toExecute.mpr hitem
    rw [List.map_cons, executeQueries, hexecute]
    simp only [bind, Except.bind]
    cases ends 0 with
    | done => exact ih hitems fun i => ends (i + 1)
    | failed errorCode => exact ⟨_, rfl⟩
    | stops => exact ⟨_, rfl⟩

/-- When everything before it succeeds, the attempt gets to the empty text. -/
theorem executeQueries_error {items : List SQLItem} (h : .raw [] ∈ items) :
    ∃ fault, executeQueries (items.map SQLItem.data) (fun _ => .done) = .error fault := by
  induction items with
  | nil => cases h
  | cons item items ih =>
    rw [List.map_cons, executeQueries]
    cases hexecute : item.data.toExecute with
    | error fault => exact ⟨fault, rfl⟩
    | ok statement =>
      have hitem : item ≠ .raw [] := item.data_toExecute.mp ⟨statement, hexecute⟩
      exact ih ((List.mem_cons.mp h).resolve_left fun heq => hitem heq.symm)

theorem clearQueries_items (items : List SQLItem) :
    (clearQueries (items.map SQLItem.data)).2 = none := by
  induction items with
  | nil => rfl
  | cons item items ih =>
    obtain ⟨data, hclear⟩ := item.data_clear
    rw [List.map_cons, clearQueries, hclear]
    exact ih

/-- A transaction of such items is cleaned up to an empty one. -/
theorem cleanup_items {t : TransactionBase} {items : List SQLItem}
    (h : t.m_queries = items.map SQLItem.data) :
    t.cleanup.2 = none ∧ (t.cleanup.1 = t ∨ t.cleanup.1.m_queries = []) := by
  have hclear := clearQueries_items items
  rw [← h] at hclear
  unfold cleanup
  split
  · exact ⟨rfl, Or.inl rfl⟩
  · cases hloop : clearQueries t.m_queries with
    | mk queries fault =>
      rw [hloop] at hclear
      simp only at hclear
      subst hclear
      exact ⟨rfl, Or.inr rfl⟩

/-- The queries are items the API appends, none of them an empty text. -/
def Executable (t : TransactionBase) : Prop :=
  ∃ items : List SQLItem, (∀ item ∈ items, item ≠ .raw []) ∧ t.m_queries = items.map SQLItem.data

theorem Executable.faultless {t : TransactionBase} (h : Executable t) (step : TransactionUse) :
    t.Faultless step := by
  obtain ⟨items, hitems, hqueries⟩ := h
  refine ⟨?_, ?_⟩
  · rw [hqueries]
    intro data hdata
    obtain ⟨item, _, rfl⟩ := List.mem_map.mp hdata
    exact item.data_tagged
  · cases step with
    | commit answers =>
      obtain ⟨code, hcode⟩ : ∃ code, t.executeTransaction answers = .ok code := by
        obtain ⟨code, hcode⟩ := executeQueries_ok hitems answers.queries
        rw [← hqueries] at hcode
        unfold executeTransaction
        split
        · exact ⟨_, rfl⟩
        · cases answers.start with
          | stops => exact ⟨_, rfl⟩
          | done => exact ⟨code, hcode⟩
          | failed errorCode => exact ⟨code, hcode⟩
      rw [fault, hcode]
    | cleanup => exact (cleanup_items hqueries).1

theorem Executable.step {t : TransactionBase} (h : Executable t) (step : TransactionUse) :
    Executable (t.step step) := by
  cases step with
  | commit answers => exact h
  | cleanup =>
    obtain ⟨items, hitems, hqueries⟩ := h
    rcases (cleanup_items hqueries).2 with heq | hnil
    · rw [TransactionBase.step, heq]
      exact ⟨items, hitems, hqueries⟩
    · exact ⟨[], by simp, hnil⟩

/-- Over every sequence of attempts to commit and of cleanups: the tags are right and
no branch for other elements is reached if and only if no empty text is appended. -/
theorem transaction_faultless_iff (calls : List AppendCall) :
    (∀ steps, Along TransactionBase.step Faultless (build calls) steps) ↔
      ∀ call ∈ calls, call.item ≠ .raw [] := by
  have hqueries : (build calls).m_queries =
      (calls.map AppendCall.item).map SQLItem.data := by
    rw [build_queries, List.map_map]
    rfl
  constructor
  · intro hall call hcall hempty
    have hmem : SQLItem.raw [] ∈ calls.map AppendCall.item :=
      List.mem_map.mpr ⟨call, hcall, hempty⟩
    obtain ⟨fault, hfault⟩ := executeQueries_error hmem
    have hstep := (hall [.commit ⟨.done, fun _ => .done⟩]).1.2
    have hne : (build calls).m_queries.isEmpty = false := by
      rw [hqueries]
      cases calls with
      | nil => cases hcall
      | cons first rest => rfl
    rw [TransactionBase.fault, executeTransaction, hne] at hstep
    simp only [Bool.false_eq_true, ↓reduceIte, hqueries, hfault] at hstep
    cases hstep
  · intro hnone steps
    have hstart : Executable (build calls) := by
      refine ⟨calls.map AppendCall.item, ?_, hqueries⟩
      intro item hitem
      obtain ⟨call, hcall, rfl⟩ := List.mem_map.mp hitem
      exact hnone call hcall
    have halways : Always TransactionBase.step Executable (build calls) steps :=
      always_of_along (C := fun _ _ => True) (fun t step h _ => h.step step) hstart
        (along_of_forall (fun _ _ => trivial) _)
    exact halways.along fun t step h => h.faultless step

/-- `Append("")` and one attempt to commit. -/
theorem empty_text_asserts :
    (build [.append (.raw [])]).fault (.commit ⟨.done, fun _ => .done⟩) = some .emptyText ∧
      SQLItem.execute (.raw []) = [] :=
  ⟨rfl, rfl⟩

end TransactionBase

end Mpool.Database
