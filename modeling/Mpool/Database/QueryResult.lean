import Mathlib.Data.Nat.ModEq
import Mpool.Lib.Bytes
import Mpool.Lib.Except

/-! `PreparedResultSet` of `QueryResult.cpp`: the rows of an executed statement,
copied at construction into one vector of cells, and the loop that reads them.
Positions are 64-bit numbers, indices into the vector are computed in 32 bits. -/

namespace Mpool.Database

/-- What `mysql_stmt_fetch` leaves in the binding of one field. -/
structure BoundCell where
  is_null : Bool
  buffer : Bytes
  length : Nat
  deriving DecidableEq

/-- The answer of `mysql_stmt_fetch`: a row, truncated or not, or none. -/
inductive Fetched where
  | row (cells : Nat → BoundCell)
  | noRow

/-- `value` is a null pointer for NULL; `metaIndex` points into `m_fieldMetadata`. -/
structure Field where
  metaIndex : Option Nat
  value : Option Bytes
  length : Nat
  raw : Bool
  deriving DecidableEq

namespace Field

def create : Field := ⟨none, none, 0, false⟩

def setMetadata (field : Field) (fieldMeta : Nat) : Field :=
  { field with metaIndex := some fieldMeta }

def setByteValue (field : Field) (newValue : Option Bytes) (length : Nat) : Field :=
  { field with value := newValue, length := length % 2 ^ 32, raw := true }

/-- What the constructor makes of one bound cell. -/
def ofCell (fIndex : Nat) (cell : BoundCell) : Field :=
  (create.setMetadata fIndex).setByteValue (if cell.is_null then none else some cell.buffer)
    cell.length

end Field

/-- How libmysql answers `MySQLConnection::Query` and the constructor: whether
the statement is executed, has metadata, can be stored and bound, and what each
fetch gives. -/
structure StmtReply where
  executed : Bool
  result_metadata : Bool
  affected_rows : Nat
  field_count : Nat
  store_result : Bool
  num_rows : Nat
  bind_result : Bool
  fetch : Nat → Fetched

/-- An `ASSERT` fails, or `m_rows` is indexed where it has no element. -/
inductive ResultFault where
  | abort
  | outside
  deriving DecidableEq

structure PreparedResultSet where
  m_rows : List Field
  m_rowCount : Nat
  m_rowPosition : Nat
  m_fieldCount : Nat

/-! ## The constructor -/

/-- `uint32(m_rowPosition) * m_fieldCount`. -/
def rowStart (m_rowPosition m_fieldCount : Nat) : Nat :=
  m_rowPosition % 2 ^ 32 * m_fieldCount % 2 ^ 32

/-- The first `fIndex` rounds of the loop over the fields of a fetched row. -/
def writeRow (m_rowPosition m_fieldCount : Nat) (cells : Nat → BoundCell) :
    Nat → List Field → Except ResultFault (List Field)
  | 0, m_rows => .ok m_rows
  | fIndex + 1, m_rows => do
    let m_rows ← writeRow m_rowPosition m_fieldCount cells fIndex m_rows
    let k := (rowStart m_rowPosition m_fieldCount + fIndex) % 2 ^ 32
    if k < m_rows.length then .ok (m_rows.set k (.ofCell fIndex (cells fIndex)))
    else .error .outside

/-- The loop on `_NextRow()` with `left` rows to go before `m_rowCount`. -/
def fetchRows (m_fieldCount : Nat) (fetch : Nat → Fetched) :
    Nat → Nat → List Field → Except ResultFault (List Field)
  | 0, _, m_rows => .ok m_rows
  | left + 1, m_rowPosition, m_rows =>
    match fetch m_rowPosition with
    | .noRow => .ok m_rows
    | .row cells => do
      let m_rows ← writeRow m_rowPosition m_fieldCount cells m_fieldCount m_rows
      fetchRows m_fieldCount fetch left (m_rowPosition + 1) m_rows

namespace PreparedResultSet

/-- The constructor, with the arguments `_Query` gives it; `store_result` and
`bind_result` are true on failure, as the calls return non-zero. -/
def create (s : StmtReply) : Except ResultFault PreparedResultSet :=
  if !s.result_metadata then .ok ⟨[], s.affected_rows, 0, s.field_count⟩
  else if s.store_result then .ok ⟨[], s.affected_rows, 0, s.field_count⟩
  else if s.bind_result then .ok ⟨[], s.num_rows, 0, s.field_count⟩
  else do
    let m_rows := List.replicate (s.num_rows % 2 ^ 32 * s.field_count % 2 ^ 32) .create
    let m_rows ← fetchRows s.field_count s.fetch s.num_rows 0 m_rows
    .ok ⟨m_rows, s.num_rows, 0, s.field_count⟩

/-! ## The accessors -/

/-- `NextRow`. -/
def nextRow (r : PreparedResultSet) : PreparedResultSet × Bool :=
  ({ r with m_rowPosition := r.m_rowPosition + 1 }, !(r.m_rowPosition + 1 ≥ r.m_rowCount))

/-- `Fetch`: the index in `m_rows` of the cell its result points to. -/
def fetch (r : PreparedResultSet) : Except ResultFault Nat :=
  if r.m_rowPosition < r.m_rowCount then
    let k := rowStart r.m_rowPosition r.m_fieldCount
    if k < r.m_rows.length then .ok k else .error .outside
  else .error .abort

/-- The first `count` cells behind the pointer a `Fetch` returned. -/
def cellsFrom (r : PreparedResultSet) (k : Nat) : Nat → Except ResultFault (List Field)
  | 0 => .ok []
  | count + 1 => do
    let fields ← r.cellsFrom k count
    match r.m_rows[k + count]? with
    | some field => .ok (fields ++ [field])
    | none => .error .outside

/-- The caller's loop `do { Fetch } while (NextRow)`, which reads every field of
every row. -/
def readRows (r : PreparedResultSet) : Except ResultFault (List (List Field)) := do
  let k ← r.fetch
  let row ← r.cellsFrom k r.m_fieldCount
  if r.m_rowPosition + 1 ≥ r.m_rowCount then .ok [row]
  else do
    let rows ← readRows r.nextRow.1
    .ok (row :: rows)
termination_by r.m_rowCount - r.m_rowPosition
decreasing_by simp only [nextRow]; omega

end PreparedResultSet

/-- `MySQLConnection::Query(PreparedStatementBase*)`; `none` is a null pointer. -/
def queryPrepared (s : StmtReply) : Except ResultFault (Option PreparedResultSet) :=
  if s.executed then (PreparedResultSet.create s).map some else .ok none

/-- `DatabaseWorkerPool::Query(PreparedStatement*)`: a result without rows is
given to nobody. -/
def poolQueryPrepared (s : StmtReply) : Except ResultFault (Option PreparedResultSet) := do
  match ← queryPrepared s with
  | none => .ok none
  | some ret => .ok (if ret.m_rowCount = 0 then none else some ret)

/-! ## What the vector holds -/

/-- The rows the fetches gave, in their order, up to the first that gave none. -/
def fetchedRows (m_fieldCount : Nat) (fetch : Nat → Fetched) : Nat → Nat → List (List Field)
  | 0, _ => []
  | left + 1, m_rowPosition =>
    match fetch m_rowPosition with
    | .noRow => []
    | .row cells =>
      (List.range m_fieldCount).map (fun i => Field.ofCell i (cells i)) ::
        fetchedRows m_fieldCount fetch left (m_rowPosition + 1)

/-- At every position below `m_rowCount` the vector has the cells of that row, as
a successful fetch gave them. -/
def PreparedResultSet.Represents (r : PreparedResultSet) (fetch : Nat → Fetched) : Prop :=
  ∀ m_rowPosition < r.m_rowCount, ∃ cells, fetch m_rowPosition = .row cells ∧
    ∀ i < r.m_fieldCount, r.m_rows[rowStart m_rowPosition r.m_fieldCount + i]? =
      some (.ofCell i (cells i))

/-- The cells of the first `n` rows, in a vector without wrapped indices. -/
def Filled (m_fieldCount : Nat) (fetch : Nat → Fetched) (m_rows : List Field) (n : Nat) : Prop :=
  ∀ m_rowPosition < n, ∃ cells, fetch m_rowPosition = .row cells ∧
    ∀ i < m_fieldCount, m_rows[m_rowPosition * m_fieldCount + i]? = some (.ofCell i (cells i))

theorem rowStart_eq {m_rowPosition m_fieldCount : Nat}
    (h : m_rowPosition * m_fieldCount < 2 ^ 32) :
    rowStart m_rowPosition m_fieldCount = m_rowPosition * m_fieldCount := by
  rw [rowStart, Nat.mod_mul_mod, Nat.mod_eq_of_lt h]

theorem writeRow_length {m_rowPosition m_fieldCount : Nat} {cells : Nat → BoundCell} {n : Nat}
    {m_rows m_rows' : List Field}
    (h : writeRow m_rowPosition m_fieldCount cells n m_rows = .ok m_rows') :
    m_rows'.length = m_rows.length := by
  induction n generalizing m_rows' with
  | zero =>
    cases h
    rfl
  | succ n ih =>
    obtain ⟨m_rows₁, hw, h⟩ := Except.bind_eq_ok.mp h
    dsimp only at h
    split at h
    · cases h
      rw [List.length_set]
      exact ih hw
    · cases h

theorem fetchRows_length {m_fieldCount : Nat} {fetch : Nat → Fetched} {left m_rowPosition : Nat}
    {m_rows m_rows' : List Field}
    (h : fetchRows m_fieldCount fetch left m_rowPosition m_rows = .ok m_rows') :
    m_rows'.length = m_rows.length := by
  induction left generalizing m_rowPosition m_rows with
  | zero =>
    cases h
    rfl
  | succ left ih =>
    simp only [fetchRows] at h
    cases hf : fetch m_rowPosition with
    | noRow =>
      simp only [hf] at h
      cases h
      rfl
    | row cells =>
      simp only [hf] at h
      obtain ⟨m_rows₁, hw, h⟩ := Except.bind_eq_ok.mp h
      rw [ih h, writeRow_length hw]

/-- A row that has its place in the vector is written there and nowhere else. -/
theorem writeRow_eq (m_rowPosition m_fieldCount : Nat) (cells : Nat → BoundCell) (n : Nat)
    {m_rows : List Field} (hfit : m_rowPosition * m_fieldCount + n ≤ m_rows.length)
    (hsmall : m_rows.length < 2 ^ 32) :
    ∃ m_rows', writeRow m_rowPosition m_fieldCount cells n m_rows = .ok m_rows' ∧
      ∀ k, m_rows'[k]? =
        if m_rowPosition * m_fieldCount ≤ k ∧ k < m_rowPosition * m_fieldCount + n then
          some (.ofCell (k - m_rowPosition * m_fieldCount)
            (cells (k - m_rowPosition * m_fieldCount)))
        else m_rows[k]? := by
  induction n with
  | zero =>
    refine ⟨m_rows, rfl, ?_⟩
    intro k
    rw [if_neg (by omega)]
  | succ n ih =>
    obtain ⟨m_rows₁, hw, hcell⟩ := ih (by omega)
    have hlen := writeRow_length hw
    have hk : (rowStart m_rowPosition m_fieldCount + n) % 2 ^ 32 =
        m_rowPosition * m_fieldCount + n := by
      rw [rowStart_eq (by omega), Nat.mod_eq_of_lt (by omega)]
    refine ⟨m_rows₁.set (m_rowPosition * m_fieldCount + n) (.ofCell n (cells n)), ?_, ?_⟩
    · simp only [writeRow, hw, bind, Except.bind, hk]
      rw [if_pos (by omega)]
    · intro k
      rw [List.getElem?_set]
      by_cases hkn : m_rowPosition * m_fieldCount + n = k
      · subst hkn
        rw [if_pos rfl, if_pos (by omega), if_pos (by omega), Nat.add_sub_cancel_left]
      · rw [if_neg hkn, hcell k]
        by_cases hin : m_rowPosition * m_fieldCount ≤ k ∧ k < m_rowPosition * m_fieldCount + n
        · rw [if_pos hin, if_pos (by omega)]
        · rw [if_neg hin, if_neg (by omega)]

theorem Filled.writeRow {m_fieldCount : Nat} {fetch : Nat → Fetched} {m_rows m_rows' : List Field}
    {n : Nat} {cells : Nat → BoundCell} (h : Filled m_fieldCount fetch m_rows n)
    (hf : fetch n = .row cells)
    (hcell : ∀ k, m_rows'[k]? =
      if n * m_fieldCount ≤ k ∧ k < n * m_fieldCount + m_fieldCount then
        some (.ofCell (k - n * m_fieldCount) (cells (k - n * m_fieldCount)))
      else m_rows[k]?) : Filled m_fieldCount fetch m_rows' (n + 1) := by
  intro pos hpos
  rcases Nat.lt_succ_iff_lt_or_eq.mp hpos with hlt | rfl
  · obtain ⟨cells', hf', hcells'⟩ := h pos hlt
    refine ⟨cells', hf', ?_⟩
    intro i hi
    -- the cells of an earlier row lie before those of row `n`
    have hbefore : (pos + 1) * m_fieldCount ≤ n * m_fieldCount := Nat.mul_le_mul_right _ hlt
    rw [Nat.succ_mul] at hbefore
    rw [hcell, if_neg (by omega), hcells' i hi]
  · refine ⟨cells, hf, ?_⟩
    intro i hi
    rw [hcell, if_pos (by omega), Nat.add_sub_cancel_left]

/-- The loop fills the vector when every fetch it makes gives a row. -/
theorem fetchRows_filled {m_fieldCount : Nat} {fetch : Nat → Fetched} (left : Nat) {n : Nat}
    {m_rows : List Field} (hrows : ∀ i < n + left, ∃ cells, fetch i = .row cells)
    (hfit : (n + left) * m_fieldCount ≤ m_rows.length) (hsmall : m_rows.length < 2 ^ 32)
    (h : Filled m_fieldCount fetch m_rows n) :
    ∃ m_rows', fetchRows m_fieldCount fetch left n m_rows = .ok m_rows' ∧
      Filled m_fieldCount fetch m_rows' (n + left) := by
  induction left generalizing n m_rows with
  | zero => exact ⟨m_rows, rfl, h⟩
  | succ left ih =>
    obtain ⟨cells, hf⟩ := hrows n (by omega)
    have hrow : (n + 1) * m_fieldCount ≤ (n + (left + 1)) * m_fieldCount :=
      Nat.mul_le_mul_right _ (by omega)
    rw [Nat.succ_mul] at hrow
    obtain ⟨m_rows₁, hw, hcell⟩ := writeRow_eq n m_fieldCount cells m_fieldCount (by omega) hsmall
    have hlen := writeRow_length hw
    have hn : n + 1 + left = n + (left + 1) := by omega
    obtain ⟨m_rows', hrest, hfilled⟩ := ih (by rw [hn]; exact hrows)
      (by rw [hn, hlen]; exact hfit) (by omega) (h.writeRow hf hcell)
    refine ⟨m_rows', ?_, hn ▸ hfilled⟩
    simp only [fetchRows, hf, bind, Except.bind, hw, hrest]

/-! ## What the caller reads -/

namespace PreparedResultSet

theorem cellsFrom_eq {r : PreparedResultSet} {k count : Nat} {fields : Nat → Field}
    (h : ∀ i < count, r.m_rows[k + i]? = some (fields i)) :
    r.cellsFrom k count = .ok ((List.range count).map fields) := by
  induction count with
  | zero => rfl
  | succ count ih =>
    have hih := ih fun i hi => h i (by omega)
    simp only [cellsFrom, hih, bind, Except.bind, h count (by omega), List.range_succ,
      List.map_append, List.map_cons, List.map_nil]

/-- The row under the cursor is read without leaving the vector. -/
theorem Represents.fetch_eq {r : PreparedResultSet} {fetch : Nat → Fetched}
    (h : r.Represents fetch) (hfields : 0 < r.m_fieldCount)
    (hpos : r.m_rowPosition < r.m_rowCount) :
    ∃ cells, fetch r.m_rowPosition = .row cells ∧
      r.fetch = .ok (rowStart r.m_rowPosition r.m_fieldCount) ∧
      r.cellsFrom (rowStart r.m_rowPosition r.m_fieldCount) r.m_fieldCount =
        .ok ((List.range r.m_fieldCount).map fun i => .ofCell i (cells i)) := by
  obtain ⟨cells, hf, hcells⟩ := h r.m_rowPosition hpos
  have hfirst : rowStart r.m_rowPosition r.m_fieldCount < r.m_rows.length :=
    (List.getElem?_eq_some_iff.mp (hcells 0 hfields)).1
  refine ⟨cells, hf, ?_, cellsFrom_eq hcells⟩
  simp only [PreparedResultSet.fetch, hpos, hfirst, ↓reduceIte]

/-- The caller's loop over a set that represents its rows reads them. -/
theorem Represents.readRows_eq {r : PreparedResultSet} {fetch : Nat → Fetched} {left : Nat}
    (h : r.Represents fetch) (hfields : 0 < r.m_fieldCount)
    (hleft : r.m_rowPosition + (left + 1) = r.m_rowCount) :
    r.readRows = .ok (fetchedRows r.m_fieldCount fetch (left + 1) r.m_rowPosition) := by
  induction left generalizing r with
  | zero =>
    obtain ⟨cells, hf, hfetch, hrow⟩ := h.fetch_eq hfields (by omega)
    have hlast : r.m_rowPosition + 1 ≥ r.m_rowCount := by omega
    rw [readRows]
    simp only [hfetch, hrow, bind, Except.bind, hlast, ↓reduceIte, fetchedRows, hf]
  | succ left ih =>
    obtain ⟨cells, hf, hfetch, hrow⟩ := h.fetch_eq hfields (by omega)
    have hmore : ¬ r.m_rowPosition + 1 ≥ r.m_rowCount := by omega
    have hih := ih (r := r.nextRow.1) h hfields (by simp only [nextRow]; omega)
    rw [readRows]
    simp only [hfetch, hrow, bind, Except.bind, hmore, ↓reduceIte, hih]
    simp only [nextRow, fetchedRows, hf]

/-- The loop starts with a `Fetch`, which an empty vector has no cell for. -/
theorem readRows_rows_ne_nil {r : PreparedResultSet} {rows : List (List Field)}
    (h : r.readRows = .ok rows) : r.m_rows ≠ [] := by
  intro hnil
  rw [readRows] at h
  by_cases hpos : r.m_rowPosition < r.m_rowCount
  · simp [PreparedResultSet.fetch, hpos, hnil, bind, Except.bind] at h
  · simp [PreparedResultSet.fetch, hpos, bind, Except.bind] at h

end PreparedResultSet

/-! ## Which replies give a sound result -/

namespace StmtReply

/-- The result is stored, bound and fetched. -/
def Fetches (s : StmtReply) : Prop :=
  s.result_metadata = true ∧ s.store_result = false ∧ s.bind_result = false

instance (s : StmtReply) : Decidable s.Fetches := inferInstanceAs (Decidable (_ ∧ _ ∧ _))

/-- The rows fetched for the result. -/
def rows (s : StmtReply) : List (List Field) :=
  if s.Fetches then fetchedRows s.field_count s.fetch s.num_rows 0 else []

/-- The number of rows the constructor goes by. -/
def rowCount (s : StmtReply) : Nat :=
  if s.result_metadata = true ∧ s.store_result = false then s.num_rows else s.affected_rows

/-- Whatever `Query` returns represents its rows, and whoever is given it by the
pool reads the fetched rows with the loop. -/
def SoundResult (s : StmtReply) : Prop :=
  (∃ ret, queryPrepared s = .ok ret ∧ ∀ r ∈ ret, r.Represents s.fetch) ∧
    ∀ r, poolQueryPrepared s = .ok (some r) → r.readRows = .ok s.rows

/-- All rows are fetched, and their cells can be counted in 32 bits. -/
def AllFetched (s : StmtReply) : Prop :=
  s.Fetches ∧ 0 < s.field_count ∧ s.num_rows * s.field_count < 2 ^ 32 ∧
    ∀ i < s.num_rows, ∃ cells, s.fetch i = .row cells

theorem create_of_not_fetches {s : StmtReply} (h : ¬ s.Fetches) :
    PreparedResultSet.create s = .ok ⟨[], s.rowCount, 0, s.field_count⟩ := by
  simp only [Fetches] at h
  simp only [PreparedResultSet.create, rowCount]
  cases hm : s.result_metadata <;> cases hs : s.store_result <;> cases hb : s.bind_result <;>
    simp_all

theorem create_of_fetches {s : StmtReply} (h : s.Fetches) :
    PreparedResultSet.create s = (fetchRows s.field_count s.fetch s.num_rows 0
      (List.replicate (rowStart s.num_rows s.field_count) .create)).map
        fun m_rows => ⟨m_rows, s.rowCount, 0, s.field_count⟩ := by
  obtain ⟨hm, hs, hb⟩ := h
  simp only [PreparedResultSet.create, hm, hs, hb, rowCount, rowStart, bind, Except.bind,
    Except.map, Bool.not_true, Bool.false_eq_true, and_self, ↓reduceIte]

theorem soundResult_iff_create {s : StmtReply} (hexec : s.executed = true) :
    s.SoundResult ↔ ∃ r, PreparedResultSet.create s = .ok r ∧ r.Represents s.fetch ∧
      (r.m_rowCount ≠ 0 → r.readRows = .ok s.rows) := by
  have hq : queryPrepared s = (PreparedResultSet.create s).map some := by
    rw [queryPrepared, if_pos hexec]
  cases hc : PreparedResultSet.create s with
  | error fault => simp [SoundResult, hq, hc, Except.map]
  | ok r =>
    have hp : poolQueryPrepared s = .ok (if r.m_rowCount = 0 then none else some r) := by
      simp only [poolQueryPrepared, hq, hc, Except.map, bind, Except.bind]
    constructor
    · rintro ⟨⟨ret, hret, hrep⟩, hread⟩
      rw [hq, hc] at hret
      cases hret
      refine ⟨r, rfl, hrep r rfl, ?_⟩
      intro hrows
      apply hread
      rw [hp, if_neg hrows]
    · rintro ⟨_, hr, hrep, hread⟩
      cases hr
      refine ⟨⟨some r, by rw [hq, hc]; rfl, ?_⟩, ?_⟩
      · intro r' hr'
        cases hr'
        exact hrep
      · intro r' hr'
        rw [hp] at hr'
        split at hr'
        · cases hr'
        · rename_i hrows
          cases hr'
          exact hread hrows

/-- Without fetches the vector is empty, and only a count of zero fits it. -/
theorem soundResult_of_not_fetches {s : StmtReply} (hexec : s.executed = true)
    (h : ¬ s.Fetches) : s.SoundResult ↔ s.rowCount = 0 := by
  rw [soundResult_iff_create hexec, create_of_not_fetches h]
  constructor
  · rintro ⟨_, hr, -, hread⟩
    cases hr
    by_contra hrows
    exact PreparedResultSet.readRows_rows_ne_nil (hread hrows) rfl
  · intro hrows
    refine ⟨_, rfl, ?_, fun hne => absurd hrows hne⟩
    intro pos hpos
    simp only [hrows] at hpos
    omega

/-- A vector made for all rows can hold them only if their cells are counted
without wrapping around. -/
theorem num_cells_of_represents {s : StmtReply} {m_rows : List Field}
    (hlen : m_rows.length = rowStart s.num_rows s.field_count) (hfields : 0 < s.field_count)
    (h : PreparedResultSet.Represents ⟨m_rows, s.num_rows, 0, s.field_count⟩ s.fetch) :
    s.num_rows * s.field_count < 2 ^ 32 := by
  by_contra hwrap
  -- the cell whose index is the length of the vector belongs to one of the rows
  let c := rowStart s.num_rows s.field_count
  have hc : c < 2 ^ 32 := Nat.mod_lt _ (by decide)
  have hcell : c / s.field_count * s.field_count + c % s.field_count = c := by
    rw [Nat.mul_comm]
    exact Nat.div_add_mod c s.field_count
  have hrow : c / s.field_count < s.num_rows := by
    rw [Nat.div_lt_iff_lt_mul hfields]
    omega
  obtain ⟨cells, -, hcells⟩ := h (c / s.field_count) hrow
  have hin := hcells (c % s.field_count) (Nat.mod_lt _ hfields)
  simp only [rowStart_eq (show c / s.field_count * s.field_count < 2 ^ 32 by omega), hcell] at hin
  have hlt := (List.getElem?_eq_some_iff.mp hin).1
  omega

theorem AllFetched.represents {s : StmtReply} (h : s.AllFetched) :
    ∃ m_rows, PreparedResultSet.create s = .ok ⟨m_rows, s.num_rows, 0, s.field_count⟩ ∧
      PreparedResultSet.Represents ⟨m_rows, s.num_rows, 0, s.field_count⟩ s.fetch := by
  obtain ⟨hfetches, hfields, hsmall, hrows⟩ := h
  have hlen : (List.replicate (rowStart s.num_rows s.field_count) Field.create).length =
      s.num_rows * s.field_count := by
    rw [List.length_replicate, rowStart_eq hsmall]
  have hnone : Filled s.field_count s.fetch
      (List.replicate (rowStart s.num_rows s.field_count) .create) 0 := by
    intro pos hpos
    omega
  obtain ⟨m_rows, hloop, hfilled⟩ := fetchRows_filled s.num_rows (by simpa using hrows)
    (by rw [hlen, Nat.zero_add]) (by omega) hnone
  rw [Nat.zero_add] at hfilled
  refine ⟨m_rows, ?_, ?_⟩
  · rw [create_of_fetches hfetches, hloop]
    simp only [Except.map, rowCount, hfetches.1, hfetches.2.1, and_self, ↓reduceIte]
  · intro pos hpos
    obtain ⟨cells, hf, hcells⟩ := hfilled pos hpos
    refine ⟨cells, hf, ?_⟩
    have hstart : pos * s.field_count ≤ s.num_rows * s.field_count :=
      Nat.mul_le_mul_right _ (Nat.le_of_lt hpos)
    simp only [rowStart_eq (show pos * s.field_count < 2 ^ 32 by omega)]
    exact hcells

theorem Fetches.rowCount_eq {s : StmtReply} (h : s.Fetches) : s.rowCount = s.num_rows := by
  rw [rowCount, if_pos ⟨h.1, h.2.1⟩]

theorem soundResult_of_fetches {s : StmtReply} (hexec : s.executed = true) (h : s.Fetches) :
    s.SoundResult ↔ s.rowCount = 0 ∨ s.AllFetched := by
  rw [soundResult_iff_create hexec, h.rowCount_eq]
  constructor
  · rintro ⟨r, hc, hrep, hread⟩
    by_cases hnum : s.num_rows = 0
    · exact .inl hnum
    · right
      rw [create_of_fetches h] at hc
      obtain ⟨m_rows, hloop, rfl⟩ := Except.map_eq_ok.mp hc
      rw [h.rowCount_eq] at hrep hread
      have hlen : m_rows.length = rowStart s.num_rows s.field_count := by
        rw [fetchRows_length hloop, List.length_replicate]
      have hfields : 0 < s.field_count := by
        apply Nat.pos_of_ne_zero
        intro hzero
        apply PreparedResultSet.readRows_rows_ne_nil (hread hnum)
        apply List.eq_nil_of_length_eq_zero
        rw [hlen, hzero]
        rfl
      refine ⟨h, hfields, num_cells_of_represents hlen hfields hrep, ?_⟩
      intro i hi
      obtain ⟨cells, hf, -⟩ := hrep i hi
      exact ⟨cells, hf⟩
  · rintro (hnum | hall)
    · refine ⟨_, by rw [create_of_fetches h, hnum]; rfl, ?_, ?_⟩
      · intro pos hpos
        simp only [h.rowCount_eq, hnum] at hpos
        omega
      · intro hne
        exact absurd (h.rowCount_eq.trans hnum) hne
    · obtain ⟨m_rows, hc, hrep⟩ := hall.represents
      refine ⟨_, hc, hrep, ?_⟩
      intro hne
      have hleft : 0 + (s.num_rows - 1 + 1) = s.num_rows := by
        simp only [] at hne
        omega
      rw [hrep.readRows_eq hall.2.1 hleft, rows, if_pos h]
      congr 2
      omega

/-- The result is sound exactly when nothing was executed, when the constructor
goes by a count of zero, or when every row it counts was fetched. -/
theorem soundResult_iff (s : StmtReply) :
    s.SoundResult ↔ s.executed = false ∨ s.rowCount = 0 ∨ s.AllFetched := by
  cases hexec : s.executed with
  | false =>
    simp [SoundResult, poolQueryPrepared, queryPrepared, hexec, bind, Except.bind]
  | true =>
    simp only [Bool.true_eq_false, false_or]
    by_cases h : s.Fetches
    · exact soundResult_of_fetches hexec h
    · rw [soundResult_of_not_fetches hexec h]
      exact ⟨Or.inl, fun hor => hor.resolve_right fun hall => h hall.1⟩

/-- An UPDATE that changed three rows: it has no result set, but the caller is
given one that counts three. -/
theorem update_has_rows : ¬ SoundResult {
    executed := true
    result_metadata := false
    affected_rows := 3
    field_count := 0
    store_result := false
    num_rows := 0
    bind_result := false
    fetch := fun _ => .noRow } := by
  rw [soundResult_of_not_fetches rfl (by decide)]
  decide

end StmtReply

end Mpool.Database
