import Mpool.Lib.Cursor
import Mpool.Database.QueryResult

/-! `ResultSet`, the rows of a text query, beside `PreparedResultSet`: the first fetches each
row from libmysql when it is asked for and drops everything at the end, the second has all
rows from the start and counts. To the caller both are a cursor over their rows, up to the
end, where a text result gives a null pointer and a prepared one aborts. -/

namespace Mpool.Database

open Calls

/-- A row of `mysql_fetch_row`, a pointer for each column, with the answer of
`mysql_fetch_lengths` for it. -/
structure TextRow where
  row : Nat → Option Bytes
  lengths : Option (Nat → Nat)

/-- How libmysql answers `MySQLConnection::_Query(sql)` and the fetches after it. -/
structure TextReply where
  queried : Bool
  store_result : Bool
  affected_rows : Nat
  field_count : Nat
  rows : List TextRow

def Field.setStructuredValue (field : Field) (newValue : Option Bytes) (length : Nat) : Field :=
  { field with value := newValue, length := length % 2 ^ 32, raw := false }

/-- `_result` has the rows not fetched yet. -/
structure ResultSet where
  _rowCount : Nat
  _fieldCount : Nat
  _currentRow : Option (List Field)
  _result : Option (List TextRow)

namespace ResultSet

/-- The constructor. -/
def create (s : TextReply) : ResultSet where
  _rowCount := s.affected_rows
  _fieldCount := s.field_count
  _currentRow := some ((List.range s.field_count).map Field.create.setMetadata)
  _result := some s.rows

def cleanUp (r : ResultSet) : ResultSet := { r with _currentRow := none, _result := none }

/-- The loop over the fields of `NextRow`. -/
def setRow (row : Nat → Option Bytes) (lengths : Nat → Nat) (fields : List Field) : List Field :=
  fields.mapIdx fun i field => field.setStructuredValue (row i) (lengths i)

def nextRow (r : ResultSet) : ResultSet × Bool :=
  match r._result with
  | none => (r, false)
  | some [] => (r.cleanUp, false)
  | some (row :: rows) =>
    match row.lengths with
    | none => (r.cleanUp, false)
    | some lengths =>
      ({ r with _result := some rows, _currentRow := r._currentRow.map (setRow row.row lengths) },
        true)

/-- `operator[]`. -/
def cell (r : ResultSet) (index : Nat) : Except ResultFault Field :=
  if index < r._fieldCount then
    match r._currentRow.bind (·[index]?) with
    | some field => .ok field
    | none => .error .outside
  else .error .abort

def call (r : ResultSet) : CursorCall → Except ResultFault (ResultSet × CursorAnswer Field)
  | .fetch => .ok (r, (r._currentRow.map .row).getD .null)
  | .nextRow => .ok (r.nextRow.1, .more r.nextRow.2)
  | .cell index => (r.cell index).map fun field => (r, .cell field)
  | .rowCount => .ok (r, .count r._rowCount)

end ResultSet

/-- `MySQLConnection::Query(std::string_view)`; `none` is a null pointer. -/
def queryText (s : TextReply) : Option ResultSet :=
  if s.queried && s.store_result && s.affected_rows ≠ 0 then some (.create s) else none

/-- `DatabaseWorkerPool::Query(std::string_view)`: the result stands on its first row. The same
test is made by `BasicStatementTask::Execute`. -/
def poolQueryText (s : TextReply) : Option ResultSet :=
  match queryText s with
  | none => none
  | some result =>
    if result._rowCount = 0 then none
    else if result.nextRow.2 then some result.nextRow.1
    else none

namespace PreparedResultSet

/-- `operator[]`. -/
def cell (r : PreparedResultSet) (index : Nat) : Except ResultFault Field :=
  if r.m_rowPosition < r.m_rowCount then
    if index < r.m_fieldCount then
      match r.m_rows[rowStart r.m_rowPosition r.m_fieldCount + index]? with
      | some field => .ok field
      | none => .error .outside
    else .error .abort
  else .error .abort

/-- `Fetch` gives a pointer to the cells of the current row. -/
def call (r : PreparedResultSet) :
    CursorCall → Except ResultFault (PreparedResultSet × CursorAnswer Field)
  | .fetch => do
    let k ← r.fetch
    let row ← r.cellsFrom k r.m_fieldCount
    .ok (r, .row row)
  | .nextRow => .ok (r.nextRow.1, .more r.nextRow.2)
  | .cell index => (r.cell index).map fun field => (r, .cell field)
  | .rowCount => .ok (r, .count r.m_rowCount)

end PreparedResultSet

/-! ## The tables the cursors run over -/

/-- Behind the last row a text result gives a null pointer, which `operator[]` indexes. -/
def textEnd (fieldCount : Nat) : CursorCall → Except ResultFault (CursorAnswer Field)
  | .cell index => if index < fieldCount then .error .outside else .error .abort
  | _ => .ok .null

/-- Behind the last row a prepared result aborts. -/
def preparedEnd : CursorCall → Except ResultFault (CursorAnswer Field) := fun _ => .error .abort

/-- The cells of a row of text. -/
def TextRow.fields (fieldCount : Nat) (row : TextRow) (lengths : Nat → Nat) : List Field :=
  (List.range fieldCount).map fun i =>
    (Field.create.setMetadata i).setStructuredValue (row.row i) (lengths i)

/-- The rows `NextRow` comes to, up to one whose lengths are missing. -/
def textRows (fieldCount : Nat) : List TextRow → List (List Field)
  | [] => []
  | row :: rows =>
    match row.lengths with
    | none => []
    | some lengths => row.fields fieldCount lengths :: textRows fieldCount rows

/-! ## The text result -/

namespace ResultSet

/-- The fields of a result, each with its metadata, whatever row they have. -/
def Shaped (fieldCount : Nat) (fields : List Field) : Prop :=
  ∃ f : Nat → Field, (∀ i, (f i).metaIndex = some i) ∧ fields = (List.range fieldCount).map f

theorem shaped_fields (fieldCount : Nat) (row : TextRow) (lengths : Nat → Nat) :
    Shaped fieldCount (row.fields fieldCount lengths) :=
  ⟨_, fun _ => rfl, rfl⟩

/-- A row that is set replaces all of the one before. -/
theorem Shaped.setRow {fieldCount : Nat} {fields : List Field} (h : Shaped fieldCount fields)
    (row : TextRow) (lengths : Nat → Nat) :
    setRow row.row lengths fields = row.fields fieldCount lengths := by
  obtain ⟨f, hf, rfl⟩ := h
  refine List.ext_getElem? fun i => ?_
  simp only [ResultSet.setRow, TextRow.fields, List.getElem?_mapIdx, List.getElem?_map]
  by_cases hi : i < fieldCount
  · simp [List.getElem?_range hi, Field.setStructuredValue, Field.setMetadata, hf]
  · simp [List.getElem?_eq_none (show (List.range fieldCount).length ≤ i by simp; omega)]

/-- The result stands on the first of `left`, and libmysql has the others. -/
inductive Stands (t : TextReply) : ResultSet → List (List Field) → Prop where
  | on (row : List Field) (rows : List TextRow) (h : Shaped t.field_count row) :
    Stands t ⟨t.affected_rows, t.field_count, some row, some rows⟩
      (row :: textRows t.field_count rows)
  | behind : Stands t ⟨t.affected_rows, t.field_count, none, none⟩ []

theorem Stands.call {t : TextReply} {r : ResultSet} {left : List (List Field)}
    (h : Stands t r left) (call : CursorCall) :
    Agree (Stands t) (r.call call)
      (Cursor.call t.affected_rows (textEnd t.field_count) .abort left call) := by
  cases h with
  | behind =>
    cases call with
    | fetch => exact .answer _ .behind
    | nextRow => exact .answer _ .behind
    | rowCount => exact .answer _ .behind
    | cell index =>
      by_cases hi : index < t.field_count
      · simp only [ResultSet.call, ResultSet.cell, Cursor.call, textEnd, hi, ↓reduceIte,
          Option.bind_none, Except.map]
        exact .fault _
      · simp only [ResultSet.call, ResultSet.cell, Cursor.call, textEnd, hi, ↓reduceIte,
          Except.map]
        exact .fault _
  | on row rows hrow =>
    cases call with
    | fetch => exact .answer _ (.on row rows hrow)
    | rowCount => exact .answer _ (.on row rows hrow)
    | cell index =>
      have hlength : row.length = t.field_count := by
        obtain ⟨f, -, rfl⟩ := hrow
        simp
      by_cases hi : index < t.field_count
      · obtain ⟨field, hfield⟩ : ∃ field, row[index]? = some field :=
          ⟨_, List.getElem?_eq_getElem (hlength ▸ hi)⟩
        simp only [ResultSet.call, ResultSet.cell, Cursor.call, hi, ↓reduceIte, Option.bind_some,
          hfield, Except.map]
        exact .answer _ (.on row rows hrow)
      · have hfield : row[index]? = none := List.getElem?_eq_none (by omega)
        simp only [ResultSet.call, ResultSet.cell, Cursor.call, hi, ↓reduceIte, hfield, Except.map]
        exact .fault _
    | nextRow =>
      cases rows with
      | nil => exact .answer _ .behind
      | cons next rows =>
        cases hlengths : next.lengths with
        | none =>
          simp only [ResultSet.call, ResultSet.nextRow, hlengths, Cursor.call, textRows,
            List.tail_cons]
          exact .answer _ .behind
        | some lengths =>
          simp only [ResultSet.call, ResultSet.nextRow, hlengths, Cursor.call, textRows,
            List.tail_cons, Option.map_some, hrow.setRow]
          exact .answer _ (.on _ rows (shaped_fields _ _ _))

/-- The result the pool gives out stands on the first row. -/
theorem stands_of_poolQueryText {t : TextReply} {r : ResultSet} (h : poolQueryText t = some r) :
    Stands t r (textRows t.field_count t.rows) := by
  have hcreate : Shaped t.field_count ((List.range t.field_count).map Field.create.setMetadata) :=
    ⟨_, fun _ => rfl, rfl⟩
  simp only [poolQueryText, queryText] at h
  split at h
  · cases h
  · rename_i result hquery
    split at hquery
    · cases hquery
      split at h
      · cases h
      · rename_i hcount
        split at h
        · rename_i hmore
          cases h
          cases hrows : t.rows with
          | nil => simp [nextRow, create, hrows] at hmore
          | cons next rows =>
            cases hlengths : next.lengths with
            | none => simp [nextRow, create, hrows, hlengths] at hmore
            | some lengths =>
              simp only [nextRow, create, hrows, hlengths, Option.map_some, hcreate.setRow,
                textRows]
              exact .on _ rows (shaped_fields _ _ _)
        · cases h
    · cases hquery

end ResultSet

/-! ## The prepared result -/

namespace PreparedResultSet

/-- The result represents the fetched rows and stands on the first of `left`. -/
structure Stands (s : StmtReply) (r : PreparedResultSet) (left : List (List Field)) : Prop where
  represents : r.Represents s.fetch
  fieldCount : r.m_fieldCount = s.field_count
  fields : 0 < s.field_count
  rowCount : r.m_rowCount = s.num_rows
  left_eq : left = fetchedRows s.field_count s.fetch (s.num_rows - r.m_rowPosition) r.m_rowPosition

/-- On a row: its cells, and what is left behind it. -/
theorem Stands.on_row {s : StmtReply} {r : PreparedResultSet} {left : List (List Field)}
    (h : Stands s r left) (hpos : r.m_rowPosition < r.m_rowCount) :
    ∃ cells, s.fetch r.m_rowPosition = .row cells ∧
      left = (List.range s.field_count).map (fun i => Field.ofCell i (cells i)) ::
        fetchedRows s.field_count s.fetch (s.num_rows - (r.m_rowPosition + 1))
          (r.m_rowPosition + 1) := by
  obtain ⟨cells, hf, -⟩ := h.represents r.m_rowPosition hpos
  rw [h.rowCount] at hpos
  have hleft : s.num_rows - r.m_rowPosition = s.num_rows - (r.m_rowPosition + 1) + 1 := by omega
  refine ⟨cells, hf, ?_⟩
  rw [h.left_eq, hleft]
  simp only [fetchedRows, hf]

theorem Stands.nil_of_behind {s : StmtReply} {r : PreparedResultSet} {left : List (List Field)}
    (h : Stands s r left) (hpos : ¬ r.m_rowPosition < r.m_rowCount) : left = [] := by
  have hleft : s.num_rows - r.m_rowPosition = 0 := by
    rw [h.rowCount] at hpos
    omega
  rw [h.left_eq, hleft, fetchedRows]

theorem Stands.nextRow {s : StmtReply} {r : PreparedResultSet} {left : List (List Field)}
    (h : Stands s r left) : Stands s r.nextRow.1 left.tail ∧ r.nextRow.2 = !left.tail.isEmpty := by
  have htail : left.tail = fetchedRows s.field_count s.fetch
      (s.num_rows - (r.m_rowPosition + 1)) (r.m_rowPosition + 1) := by
    by_cases hpos : r.m_rowPosition < r.m_rowCount
    · obtain ⟨cells, -, hleft⟩ := h.on_row hpos
      rw [hleft, List.tail_cons]
    · have hrest : s.num_rows - (r.m_rowPosition + 1) = 0 := by
        rw [h.rowCount] at hpos
        omega
      rw [h.nil_of_behind hpos, hrest, fetchedRows, List.tail_nil]
  have hnext : Stands s r.nextRow.1 left.tail :=
    ⟨h.represents, h.fieldCount, h.fields, h.rowCount, htail⟩
  refine ⟨hnext, ?_⟩
  by_cases hpos : r.nextRow.1.m_rowPosition < r.nextRow.1.m_rowCount
  · obtain ⟨cells, -, hleft⟩ := hnext.on_row hpos
    simp only [PreparedResultSet.nextRow] at hpos
    rw [hleft]
    simpa [PreparedResultSet.nextRow] using hpos
  · rw [hnext.nil_of_behind hpos]
    simp only [PreparedResultSet.nextRow, not_lt] at hpos
    simpa [PreparedResultSet.nextRow] using hpos

theorem Stands.call {s : StmtReply} {r : PreparedResultSet} {left : List (List Field)}
    (h : Stands s r left) (call : CursorCall) :
    Agree (Stands s) (r.call call) (Cursor.call s.num_rows preparedEnd .abort left call) := by
  have hfields : 0 < r.m_fieldCount := by
    rw [h.fieldCount]
    exact h.fields
  cases call with
  | nextRow =>
    obtain ⟨hnext, hmore⟩ := h.nextRow
    simp only [PreparedResultSet.call, Cursor.call, hmore]
    exact .answer _ hnext
  | rowCount =>
    simp only [PreparedResultSet.call, Cursor.call, h.rowCount]
    exact .answer _ h
  | fetch =>
    by_cases hpos : r.m_rowPosition < r.m_rowCount
    · obtain ⟨cells, hf, hfetch, hrow⟩ := h.represents.fetch_eq hfields hpos
      obtain ⟨cells', hf', hleft⟩ := h.on_row hpos
      obtain rfl : cells = cells' := Fetched.row.inj (hf.symm.trans hf')
      simp only [PreparedResultSet.call, hfetch, hrow, bind, Except.bind]
      rw [h.fieldCount]
      rw [hleft] at h ⊢
      exact .answer _ h
    · simp only [PreparedResultSet.call, PreparedResultSet.fetch, hpos, ↓reduceIte, bind,
        Except.bind, Cursor.call, h.nil_of_behind hpos, preparedEnd, Except.map]
      exact .fault _
  | cell index =>
    by_cases hpos : r.m_rowPosition < r.m_rowCount
    · obtain ⟨cells, hf, hcells⟩ := h.represents r.m_rowPosition hpos
      obtain ⟨cells', hf', hleft⟩ := h.on_row hpos
      obtain rfl : cells = cells' := Fetched.row.inj (hf.symm.trans hf')
      by_cases hi : index < r.m_fieldCount
      · have hcell : ((List.range s.field_count).map
            fun i => Field.ofCell i (cells i))[index]? = some (.ofCell index (cells index)) := by
          rw [h.fieldCount] at hi
          simp [hi]
        simp only [PreparedResultSet.call, PreparedResultSet.cell, hpos, hi, ↓reduceIte,
          hcells index hi, Except.map]
        rw [hleft] at h ⊢
        simp only [Cursor.call, hcell]
        exact .answer _ h
      · have hcell : ((List.range s.field_count).map
            fun i => Field.ofCell i (cells i))[index]? = none := by
          rw [h.fieldCount] at hi
          simp only [List.getElem?_eq_none_iff, List.length_map, List.length_range]
          omega
        simp only [PreparedResultSet.call, PreparedResultSet.cell, hpos, hi, ↓reduceIte,
          Except.map]
        rw [hleft]
        simp only [Cursor.call, hcell]
        exact .fault _
    · simp only [PreparedResultSet.call, PreparedResultSet.cell, hpos, ↓reduceIte, Cursor.call,
        h.nil_of_behind hpos, preparedEnd, Except.map]
      exact .fault _

theorem stands_of_poolQueryPrepared {s : StmtReply} (hs : s.AllFetched) {r : PreparedResultSet}
    (h : poolQueryPrepared s = .ok (some r)) : Stands s r s.rows := by
  obtain ⟨m_rows, hcreate, hrepresents⟩ := hs.represents
  have hrows : s.rows = fetchedRows s.field_count s.fetch s.num_rows 0 := by
    rw [StmtReply.rows, if_pos hs.1]
  simp only [poolQueryPrepared, queryPrepared, hcreate] at h
  split at h
  · simp only [bind, Except.bind, Except.map] at h
    split at h
    · cases h
    · cases h
      exact ⟨hrepresents, rfl, hs.2.1, rfl, by rw [hrows, Nat.sub_zero]⟩
  · cases h

end PreparedResultSet

/-- Every sequence of calls on a result of the pool is answered as a cursor over the rows of
the result answers it, and the caller's loop sees each row once, in order. -/
theorem results_are_cursors (t : TextReply) {s : StmtReply} (hs : s.AllFetched) :
    (∀ r, poolQueryText t = some r →
      (∀ calls, callAll ResultSet.call r calls =
        callAll (Cursor.call t.affected_rows (textEnd t.field_count) .abort)
          (textRows t.field_count t.rows) calls) ∧
      callAll ResultSet.call r (Cursor.loopCalls (textRows t.field_count t.rows).length) =
        .ok (Cursor.loopAnswers (textRows t.field_count t.rows))) ∧
    ∀ r, poolQueryPrepared s = .ok (some r) →
      (∀ calls, callAll PreparedResultSet.call r calls =
        callAll (Cursor.call s.num_rows preparedEnd .abort) s.rows calls) ∧
      callAll PreparedResultSet.call r (Cursor.loopCalls s.rows.length) =
        .ok (Cursor.loopAnswers s.rows) := by
  constructor
  · intro r hr
    have hcalls := callAll_eq (fun _ _ h call => ResultSet.Stands.call h call)
      (ResultSet.stands_of_poolQueryText hr)
    exact ⟨hcalls, by rw [hcalls, Cursor.callAll_loop]⟩
  · intro r hr
    have hcalls := callAll_eq (fun _ _ h call => PreparedResultSet.Stands.call h call)
      (PreparedResultSet.stands_of_poolQueryPrepared hs hr)
    exact ⟨hcalls, by rw [hcalls, Cursor.callAll_loop]⟩

/-- Two rows of one column, asked for as text and prepared. -/
theorem results_are_cursors_two :
    let t : TextReply := ⟨true, true, 2, 1,
      [⟨fun _ => some [49], some fun _ => 1⟩, ⟨fun _ => none, some fun _ => 0⟩]⟩
    let s : StmtReply := ⟨true, true, 2, 1, false, 2, false,
      fun _ => .row fun _ => ⟨false, [7], 1⟩⟩
    (poolQueryText t).isSome = true ∧ (∃ r, poolQueryPrepared s = .ok (some r) ∧
      callAll PreparedResultSet.call r (Cursor.loopCalls s.rows.length) =
        .ok (Cursor.loopAnswers s.rows)) := by
  intro t s
  have hs : s.AllFetched :=
    ⟨by decide, by decide, by decide, fun i _ => ⟨fun _ => ⟨false, [7], 1⟩, rfl⟩⟩
  obtain ⟨m_rows, hcreate, -⟩ := hs.represents
  have hquery : poolQueryPrepared s = .ok (some ⟨m_rows, s.num_rows, 0, s.field_count⟩) := by
    simp only [poolQueryPrepared, queryPrepared, hcreate]
    rfl
  exact ⟨rfl, _, hquery, ((results_are_cursors t hs).2 _ hquery).2⟩

end Mpool.Database
