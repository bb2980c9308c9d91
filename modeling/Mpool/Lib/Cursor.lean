import Mpool.Lib.Calls

/-! A cursor over a table of rows, by the rows from the current one on. What a caller gets
behind the last row, or behind the last cell of a row, is a parameter. -/

/-- The calls a caller has for a result. -/
inductive CursorCall where
  | fetch
  | nextRow
  | cell (index : Nat)
  | rowCount
  deriving DecidableEq

inductive CursorAnswer (α : Type*) where
  | row (cells : List α)
  | null
  | more (more : Bool)
  | cell (value : α)
  | count (rows : Nat)

namespace Cursor

variable {α ε : Type*}

/-- One call on a cursor before the rows `left`, of a table of `count` rows. -/
def call (count : Nat) (atEnd : CursorCall → Except ε (CursorAnswer α)) (outOfRow : ε)
    (left : List (List α)) : CursorCall → Except ε (List (List α) × CursorAnswer α)
  | .fetch =>
    match left with
    | row :: _ => .ok (left, .row row)
    | [] => (atEnd .fetch).map fun answer => ([], answer)
  | .nextRow => .ok (left.tail, .more (!left.tail.isEmpty))
  | .cell index =>
    match left with
    | row :: _ =>
      match row[index]? with
      | some value => .ok (left, .cell value)
      | none => .error outOfRow
    | [] => (atEnd (.cell index)).map fun answer => ([], answer)
  | .rowCount => .ok (left, .count count)

/-- `do { Fetch } while (NextRow)` for a table of `n` rows. -/
def loopCalls (n : Nat) : List CursorCall := (List.replicate n [.fetch, .nextRow]).flatten

/-- The loop sees every row once and in order, and is told of the end behind the last. -/
def loopAnswers : List (List α) → List (CursorAnswer α)
  | [] => []
  | row :: rows => .row row :: .more (!rows.isEmpty) :: loopAnswers rows

theorem callAll_loop (count : Nat) (atEnd : CursorCall → Except ε (CursorAnswer α)) (outOfRow : ε)
    (rows : List (List α)) :
    Calls.callAll (call count atEnd outOfRow) rows (loopCalls rows.length) =
      .ok (loopAnswers rows) := by
  induction rows with
  | nil => rfl
  | cons row rows ih =>
    have hcalls : loopCalls (row :: rows).length = .fetch :: .nextRow :: loopCalls rows.length := by
      simp [loopCalls, List.replicate_succ]
    rw [hcalls]
    simp only [Calls.callAll, call, List.tail_cons, ih, loopAnswers, Except.map]

end Cursor
