import Mathlib.Algebra.Order.BigOperators.Group.List
import Mathlib.Logic.Function.Basic
import Mpool.Lib.Memory
import Mpool.Database.FieldTypes
import Mpool.Database.QueryResult

/-! The one buffer of a `PreparedResultSet`. Every field has a pointer of its own
into it, which goes on by the size of a row with each cell that is not NULL, so
that after some rows the pointers of different fields are in different rows.
Positions are relative to `dataBuffer`. -/

namespace Mpool.Database

open Memory (slot)

/-- The binding of a field, but for its moving pointer. -/
structure BoundField where
  buffer_type : EnumFieldTypes
  buffer_length : Nat
  deriving DecidableEq

/-- What a fetch finds in a cell: a value that it copies as far as the buffer goes,
and what it stores for the length. -/
inductive FetchedCell where
  | null (length : Nat)
  | value (bytes : Bytes) (length : Nat)
  deriving DecidableEq

def FetchedCell.isValue : FetchedCell → Bool
  | null _ => false
  | value _ _ => true

def MYSQL_DATA_TRUNCATED : Nat := 101

/-- One call of `mysql_stmt_fetch`. -/
structure StmtFetch where
  retval : Nat
  cells : Nat → FetchedCell

/-- The pointer and the length of a `Field`. -/
structure PointedField where
  value : Option Nat
  length : Nat
  deriving DecidableEq

/-- `buffers` are the pointers in `m_stmt->bind`. -/
structure FetchState where
  buffers : Nat → Nat
  memory : Nat → UInt8
  m_rows : Nat → PointedField

/-- What the constructor gets from libmysql once the result is stored and bound;
`dataBuffer` is what `new char[]` leaves in the buffer. -/
structure BoundResult where
  fields : List BoundField
  rowCount : Nat
  fetch : Nat → StmtFetch
  dataBuffer : Nat → UInt8

namespace BoundResult

variable (s : BoundResult)

def sizes : List Nat := s.fields.map BoundField.buffer_length

/-- `m_rBind[i].buffer_length`. -/
def buffer_length (i : Nat) : Nat := s.sizes.getD i 0

def rowSize : Nat := s.sizes.sum % 2 ^ 64

/-- The length of `dataBuffer`. -/
def dataSize : Nat := s.rowSize * s.rowCount % 2 ^ 64

/-- The `uint32` that is added up in the loop over the bindings. -/
def offset : Nat → Nat
  | 0 => 0
  | i + 1 => (offset i + s.buffer_length i) % 2 ^ 32

def start : FetchState := ⟨s.offset, s.dataBuffer, fun _ => ⟨none, 0⟩⟩

/-- `_NextRow`, with the cells of the row it finds. -/
def nextRow (row : Nat) : Option (Nat → FetchedCell) :=
  if row ≥ s.rowCount then none
  else if (s.fetch row).retval = 0 ∨ (s.fetch row).retval = MYSQL_DATA_TRUNCATED then
    some (s.fetch row).cells
  else none

/-- The memory after the first `n` cells of a fetch. -/
def copied (cells : Nat → FetchedCell) (t : FetchState) : Nat → Nat → UInt8
  | 0 => t.memory
  | i + 1 =>
    match cells i with
    | .null _ => copied cells t i
    | .value bytes _ =>
      Memory.write (copied cells t i) (t.buffers i) (bytes.take (s.buffer_length i))

def stmtFetch (cells : Nat → FetchedCell) (t : FetchState) : FetchState :=
  { t with memory := s.copied cells t s.fields.length }

/-- The types of which the value is given a terminating zero. -/
def isText (i : Nat) : Bool :=
  match s.fields[i]? with
  | none => false
  | some field => match field.buffer_type with
    | .MYSQL_TYPE_TINY_BLOB | .MYSQL_TYPE_MEDIUM_BLOB | .MYSQL_TYPE_LONG_BLOB
    | .MYSQL_TYPE_BLOB | .MYSQL_TYPE_STRING | .MYSQL_TYPE_VAR_STRING => true
    | _ => false

/-- One round of the loop over the fields of a row. -/
def setField (row : Nat) (cells : Nat → FetchedCell) (t : FetchState) (fIndex : Nat) :
    FetchState :=
  let k := (rowStart row s.fields.length + fIndex) % 2 ^ 32
  match cells fIndex with
  | .null length => { t with m_rows := Function.update t.m_rows k ⟨none, length % 2 ^ 32⟩ }
  | .value _ fetched_length =>
    let buffer := t.buffers fIndex
    { buffers := Function.update t.buffers fIndex (buffer + s.rowSize)
      memory :=
        if s.isText fIndex ∧ fetched_length < s.buffer_length fIndex then
          Memory.write t.memory (buffer + fetched_length) [0]
        else t.memory
      m_rows := Function.update t.m_rows k ⟨some buffer, fetched_length % 2 ^ 32⟩ }

/-- The first `n` rounds. -/
def setFields (row : Nat) (cells : Nat → FetchedCell) (t : FetchState) : Nat → FetchState
  | 0 => t
  | n + 1 => s.setField row cells (setFields row cells t n) n

def oneRow (row : Nat) (cells : Nat → FetchedCell) (t : FetchState) : FetchState :=
  s.setFields row cells (s.stmtFetch cells t) s.fields.length

/-- `while (_NextRow())`, with `left` rows to go before `m_rowCount`. -/
def fetchLoop : Nat → Nat → FetchState → FetchState
  | 0, _, t => t
  | left + 1, row, t =>
    match s.nextRow row with
    | none => t
    | some cells => fetchLoop left (row + 1) (s.oneRow row cells t)

/-- The end of the constructor. -/
def result : FetchState := s.fetchLoop s.rowCount 0 s.start

/-! ## The states on the way -/

/-- All rows up to this one are fetched. -/
def Reaches (row : Nat) : Prop := ∀ i ≤ row, (s.nextRow i).isSome = true

instance (row : Nat) : Decidable (s.Reaches row) :=
  inferInstanceAs (Decidable (∀ i ≤ row, _))

/-- The cell of a row that is fetched. -/
def cellAt (row i : Nat) : FetchedCell :=
  match s.nextRow row with
  | none => .null 0
  | some cells => cells i

/-- The state before row `row`. -/
def rowState : Nat → FetchState
  | 0 => s.start
  | row + 1 =>
    if (s.nextRow row).isSome then s.oneRow row (s.cellAt row) (rowState row) else rowState row

/-- The state in row `row` when the first `n` fields are set. -/
def fieldState (row n : Nat) : FetchState :=
  s.setFields row (s.cellAt row) (s.stmtFetch (s.cellAt row) (s.rowState row)) n

/-- The buffer that is used for a cell. -/
def used (row i : Nat) : Nat := (s.rowState row).buffers i

/-- A cell with a value, in a row that is fetched. -/
structure HasValue (row i : Nat) : Prop where
  reaches : s.Reaches row
  lt : i < s.fields.length
  isValue : (s.cellAt row i).isValue = true

/-- The number of values of field `i` before row `row`. -/
def values (i : Nat) : Nat → Nat
  | 0 => 0
  | row + 1 => values i row + if (s.cellAt row i).isValue then 1 else 0

/-! ## The pointers -/

/-- The sizes are `uint32`s, and the buffer of the last field begins below `2 ^ 32`: no
`offset` wraps. -/
structure NoWrap : Prop where
  size_lt : ∀ size ∈ s.sizes, size < 2 ^ 32
  offset_lt : s.sizes.dropLast.sum < 2 ^ 32

theorem NoWrap.of_sum {s : BoundResult} (hsmall : s.sizes.sum < 2 ^ 32) : s.NoWrap where
  size_lt size hmem := Nat.lt_of_le_of_lt (List.le_sum_of_mem hmem) hsmall
  offset_lt := by
    rw [List.dropLast_eq_take]
    exact Nat.lt_of_le_of_lt (Memory.sum_take_le s.sizes _) hsmall

/-- Only the size of the last field comes to the sum behind the offsets. -/
theorem NoWrap.sum_lt {s : BoundResult} (h : s.NoWrap) : s.sizes.sum < 2 ^ 33 := by
  have hoffset := h.offset_lt
  by_cases hnil : s.sizes = []
  · rw [hnil, List.sum_nil]
    omega
  · have hlast := h.size_lt _ (List.getLast_mem hnil)
    have hsum := congrArg List.sum (List.dropLast_concat_getLast hnil)
    rw [List.sum_append, List.sum_singleton] at hsum
    omega

theorem NoWrap.sum_take_lt {s : BoundResult} (h : s.NoWrap) {i : Nat} (hi : i < s.sizes.length) :
    (s.sizes.take i).sum < 2 ^ 32 := by
  have htake : s.sizes.take i = s.sizes.dropLast.take i := by
    rw [List.dropLast_eq_take, List.take_take, Nat.min_eq_left (by omega)]
  rw [htake]
  exact Nat.lt_of_le_of_lt (Memory.sum_take_le _ i) h.offset_lt

section pointers

variable {s}

theorem setField_buffers (row : Nat) (cells : Nat → FetchedCell) (t : FetchState) (fIndex i : Nat) :
    (s.setField row cells t fIndex).buffers i =
      if i = fIndex ∧ (cells fIndex).isValue = true then t.buffers i + s.rowSize
      else t.buffers i := by
  cases hcell : cells fIndex with
  | null length => simp [setField, hcell, FetchedCell.isValue]
  | value bytes length =>
    by_cases hi : i = fIndex
    · subst hi
      simp [setField, hcell, FetchedCell.isValue]
    · simp [setField, hcell, hi]

theorem setFields_buffers (row : Nat) (cells : Nat → FetchedCell) (t : FetchState) (n i : Nat) :
    (s.setFields row cells t n).buffers i =
      if i < n ∧ (cells i).isValue = true then t.buffers i + s.rowSize else t.buffers i := by
  induction n with
  | zero => simp [setFields]
  | succ n ih =>
    rw [setFields, setField_buffers, ih]
    by_cases hi : i = n
    · subst hi
      simp
    · have hlt : i < n + 1 ↔ i < n := by omega
      simp [hi, hlt]

theorem fieldState_buffers (row n i : Nat) :
    (s.fieldState row n).buffers i =
      if i < n ∧ (s.cellAt row i).isValue = true then s.used row i + s.rowSize
      else s.used row i := setFields_buffers row (s.cellAt row) _ n i

theorem oneRow_buffers (row i : Nat) (hi : i < s.fields.length) :
    s.used (row + 1) i =
      s.used row i + if (s.cellAt row i).isValue then s.rowSize else 0 := by
  rw [used, rowState]
  split
  · rw [oneRow, setFields_buffers]
    simp only [hi, true_and]
    split <;> rfl
  · next hrow =>
    have hnull : (s.cellAt row i).isValue = false := by
      unfold cellAt
      cases hnext : s.nextRow row with
      | none => rfl
      | some cells =>
        rw [hnext] at hrow
        exact absurd rfl hrow
    rw [hnull]
    rfl

/-- Where the sizes of all fields but the last add up to more, the buffer of some field
begins before that of the field in front of it. -/
theorem offset_wraps (hsize : ∀ size ∈ s.sizes, size < 2 ^ 32)
    (hoffset : 2 ^ 32 ≤ s.sizes.dropLast.sum) :
    ∃ i, i + 1 < s.fields.length ∧ s.offset (i + 1) < s.offset i := by
  by_contra hnone
  have hbelow : ∀ i, s.offset i < 2 ^ 32 := by
    intro i
    cases i with
    | zero => exact Nat.two_pow_pos 32
    | succ i => exact Nat.mod_lt _ (Nat.two_pow_pos 32)
  have hsum : ∀ i < s.fields.length, s.offset i = (s.sizes.take i).sum := by
    intro i hi
    induction i with
    | zero => simp [offset]
    | succ i ih =>
      have hlt : i < s.sizes.length := by
        rw [sizes, List.length_map]
        omega
      have hlength : s.buffer_length i = s.sizes[i] := List.getD_eq_getElem _ _ hlt
      have hle : s.offset i ≤ s.offset (i + 1) := by
        by_contra hlater
        exact hnone ⟨i, hi, by omega⟩
      have hi' := hbelow i
      have hi'' := hsize _ (List.getElem_mem hlt)
      rw [Memory.sum_take_succ hlt, ← ih (by omega)]
      rw [offset, hlength] at hle ⊢
      omega
  by_cases hnil : s.fields = []
  · simp [sizes, hnil] at hoffset
  · have hlength := List.length_pos_iff.mpr hnil
    have hlast := hsum (s.fields.length - 1) (by omega)
    rw [List.dropLast_eq_take, sizes, List.length_map, ← sizes] at hoffset
    have hlt := hbelow (s.fields.length - 1)
    omega

variable (hwrap : s.NoWrap)

include hwrap

theorem rowSize_eq : s.rowSize = s.sizes.sum := Nat.mod_eq_of_lt (by
  have hsum := hwrap.sum_lt
  omega)

theorem offset_eq {i : Nat} (hi : i < s.fields.length) : s.offset i = (s.sizes.take i).sum := by
  induction i with
  | zero => simp [offset]
  | succ i ih =>
    have hlast : i + 1 < s.sizes.length := by
      rw [sizes, List.length_map]
      exact hi
    have hlt : i < s.sizes.length := Nat.lt_of_succ_lt hlast
    have hle := hwrap.sum_take_lt hlast
    rw [Memory.sum_take_succ hlt] at hle
    rw [offset, ih (by omega), buffer_length, List.getD_eq_getElem _ _ hlt,
      Nat.mod_eq_of_lt (by omega), Memory.sum_take_succ hlt]

/-- The pointer of a field: the `k`-th value goes to the slot of row `k`. -/
theorem used_eq (row : Nat) {i : Nat} (hi : i < s.fields.length) :
    s.used row i = slot s.sizes i (s.values i row) := by
  induction row with
  | zero =>
    rw [used, rowState, start, values, slot, Nat.zero_mul, Nat.add_zero]
    exact offset_eq hwrap hi
  | succ row ih =>
    rw [oneRow_buffers row i hi, ih, values, rowSize_eq hwrap]
    cases (s.cellAt row i).isValue with
    | false => rfl
    | true =>
      simp only [slot, ↓reduceIte, Nat.succ_mul]
      omega

end pointers

section counts

variable {s}

theorem values_mono (i : Nat) {row row' : Nat} (h : row ≤ row') :
    s.values i row ≤ s.values i row' := by
  induction h with
  | refl => exact Nat.le_refl _
  | step _ ih =>
    rw [values]
    omega

theorem values_le (i row : Nat) : s.values i row ≤ row := by
  induction row with
  | zero => exact Nat.le_refl 0
  | succ row ih =>
    rw [values]
    split <;> omega

theorem HasValue.values_lt {row i row' : Nat} (h : s.HasValue row i) (hlt : row < row') :
    s.values i row < s.values i row' := by
  have hmono := values_mono (s := s) i (Nat.succ_le_of_lt hlt)
  rw [values, if_pos h.isValue] at hmono
  omega

/-- Two different cells with values have different slots. -/
theorem HasValue.slot_ne {row i row' i' : Nat} (h : s.HasValue row i) (h' : s.HasValue row' i')
    (hne : (row, i) ≠ (row', i')) : (i, s.values i row) ≠ (i', s.values i' row') := by
  intro heq
  obtain ⟨rfl, hvalues⟩ := Prod.mk.inj heq
  rcases Nat.lt_trichotomy row row' with hlt | rfl | hlt
  · have hcount := h.values_lt hlt
    omega
  · exact hne rfl
  · have hcount := h'.values_lt hlt
    omega

theorem HasValue.row_lt {row i : Nat} (h : s.HasValue row i) : row < s.rowCount := by
  have hsome := h.reaches row (Nat.le_refl row)
  unfold nextRow at hsome
  split at hsome
  · cases hsome
  · omega

theorem buffer_length_eq {i : Nat} (hi : i < s.sizes.length) : s.buffer_length i = s.sizes[i] :=
  List.getD_eq_getElem _ _ hi

theorem HasValue.lt_sizes {row i : Nat} (h : s.HasValue row i) : i < s.sizes.length := by
  rw [sizes, List.length_map]
  exact h.lt

variable (hwrap : s.NoWrap)

include hwrap

/-- The slot of a cell is inside the buffer. -/
theorem used_inside (hrows : s.rowCount * s.fields.length < 2 ^ 32) {row i : Nat}
    (h : s.HasValue row i) : s.used row i + s.buffer_length i ≤ s.dataSize := by
  have hcount : s.values i row < s.rowCount := Nat.lt_of_le_of_lt (values_le i row) h.row_lt
  have hinside := Memory.slot_inside h.lt_sizes hcount
  have hsize : s.dataSize = s.sizes.sum * s.rowCount := by
    have hsum : s.sizes.sum ≤ s.fields.length * 2 ^ 32 := by
      have hcard := List.sum_le_card_nsmul s.sizes (2 ^ 32)
        fun size hmem => Nat.le_of_lt (hwrap.size_lt size hmem)
      rwa [Nat.nsmul_eq_mul, sizes, List.length_map] at hcard
    have hmul : s.sizes.sum * s.rowCount ≤ s.fields.length * 2 ^ 32 * s.rowCount :=
      Nat.mul_le_mul_right _ hsum
    have hrow : s.fields.length * 2 ^ 32 * s.rowCount =
        2 ^ 32 * (s.rowCount * s.fields.length) := by ring
    rw [dataSize, rowSize_eq hwrap, Nat.mod_eq_of_lt (by omega)]
  rw [used_eq hwrap row h.lt, buffer_length_eq h.lt_sizes, hsize]
  exact hinside

/-- The slots of two cells have no byte in common. -/
theorem used_apart {row i row' i' : Nat} (h : s.HasValue row i) (h' : s.HasValue row' i')
    (hne : (row, i) ≠ (row', i')) :
    s.used row i + s.buffer_length i ≤ s.used row' i' ∨
      s.used row' i' + s.buffer_length i' ≤ s.used row i := by
  rw [used_eq hwrap row h.lt, used_eq hwrap row' h'.lt, buffer_length_eq h.lt_sizes,
    buffer_length_eq h'.lt_sizes]
  exact Memory.slot_apart h.lt_sizes h'.lt_sizes (h.slot_ne h' hne)

end counts

/-! ## What is written -/

/-- The byte is in the buffer that is used for the cell. -/
def InSlot (row i a : Nat) : Prop := s.used row i ≤ a ∧ a < s.used row i + s.buffer_length i

section frames

variable {s}

/-- A fetch writes to the buffers of the values it finds. -/
theorem copied_outside {cells : Nat → FetchedCell} {t : FetchState} {a n m : Nat} (hnm : n ≤ m)
    (h : ∀ i, n ≤ i → i < m → (cells i).isValue = true →
      ¬ (t.buffers i ≤ a ∧ a < t.buffers i + s.buffer_length i)) :
    s.copied cells t m a = s.copied cells t n a := by
  induction hnm with
  | refl => rfl
  | @step m hnm ih =>
    have hlater := ih fun i hi hlt => h i hi (Nat.lt_succ_of_lt hlt)
    rw [copied]
    cases hcell : cells m with
    | null length => exact hlater
    | value bytes length =>
      have hout := h m hnm (Nat.lt_succ_self m) (by rw [hcell]; rfl)
      have hlen : (bytes.take (s.buffer_length m)).length ≤ s.buffer_length m :=
        List.length_take_le _ _
      rw [← hlater]
      exact Memory.write_outside (by omega)

/-- A terminating zero is written to the buffer of its cell. -/
theorem setField_outside {row : Nat} {cells : Nat → FetchedCell} {t : FetchState}
    {fIndex a : Nat} (h : (cells fIndex).isValue = true →
      ¬ (t.buffers fIndex ≤ a ∧ a < t.buffers fIndex + s.buffer_length fIndex)) :
    (s.setField row cells t fIndex).memory a = t.memory a := by
  cases hcell : cells fIndex with
  | null length => simp [setField, hcell]
  | value bytes length =>
    have hout := h (by rw [hcell]; rfl)
    simp only [setField, hcell]
    split
    · next hzero => exact Memory.write_outside (by rw [List.length_singleton]; omega)
    · rfl

theorem fieldState_outside {row a n m : Nat} (hnm : n ≤ m)
    (h : ∀ i, n ≤ i → i < m → (s.cellAt row i).isValue = true → ¬ s.InSlot row i a) :
    (s.fieldState row m).memory a = (s.fieldState row n).memory a := by
  induction hnm with
  | refl => rfl
  | @step m hnm ih =>
    rw [← ih fun i hi hlt => h i hi (Nat.lt_succ_of_lt hlt)]
    apply setField_outside
    intro hvalue
    have hbuffer : (s.fieldState row m).buffers m = s.used row m := by
      rw [fieldState_buffers, if_neg (fun hlt => Nat.lt_irrefl m hlt.1)]
    change ¬ ((s.fieldState row m).buffers m ≤ a ∧
      a < (s.fieldState row m).buffers m + s.buffer_length m)
    rw [hbuffer]
    exact h m hnm (Nat.lt_succ_self m) hvalue

theorem fieldState_zero_outside {row a : Nat}
    (h : ∀ i < s.fields.length, (s.cellAt row i).isValue = true → ¬ s.InSlot row i a) :
    (s.fieldState row 0).memory a = (s.rowState row).memory a :=
  copied_outside (Nat.zero_le _) fun i _ hlt hvalue => h i hlt hvalue

theorem Reaches.rowState_succ {row : Nat} (h : s.Reaches row) :
    s.rowState (row + 1) = s.fieldState row s.fields.length := by
  rw [rowState, if_pos (h row (Nat.le_refl row))]
  rfl

theorem Reaches.of_le {row row' : Nat} (h : s.Reaches row') (hle : row ≤ row') : s.Reaches row :=
  fun i hi => h i (Nat.le_trans hi hle)

variable (hwrap : s.NoWrap)

include hwrap

theorem HasValue.not_inSlot {row i row' i' a : Nat} (h : s.HasValue row i)
    (h' : s.HasValue row' i') (hne : (row, i) ≠ (row', i')) (ha : s.InSlot row i a) :
    ¬ s.InSlot row' i' a := by
  intro ha'
  have hapart := used_apart hwrap h h' hne
  unfold InSlot at ha ha'
  omega

/-- Behind its own row a value stays as it is. -/
theorem HasValue.rowState_memory {row i a : Nat} (h : s.HasValue row i) (ha : s.InSlot row i a)
    {row' : Nat} (hlt : row < row') (hreaches : s.Reaches (row' - 1)) :
    (s.rowState row').memory a = (s.fieldState row (i + 1)).memory a := by
  obtain ⟨next, rfl⟩ : ∃ next, row' = next + 1 := ⟨row' - 1, by omega⟩
  rw [Nat.add_sub_cancel] at hreaches
  rw [hreaches.rowState_succ]
  induction next with
  | zero =>
    obtain rfl : row = 0 := by omega
    apply fieldState_outside h.lt
    intro j hij hj hvalue
    exact h.not_inSlot hwrap ⟨hreaches, hj, hvalue⟩
      (fun heq => by cases heq; omega) ha
  | succ next ih =>
    by_cases heq : row = next + 1
    · subst heq
      apply fieldState_outside h.lt
      intro j hij hj hvalue
      exact h.not_inSlot hwrap ⟨hreaches, hj, hvalue⟩
        (fun heq => by cases heq; omega) ha
    · have hother : ∀ j < s.fields.length, (s.cellAt (next + 1) j).isValue = true →
          ¬ s.InSlot (next + 1) j a := by
        intro j hj hvalue
        exact h.not_inSlot hwrap ⟨hreaches, hj, hvalue⟩
          (fun hpair => heq (congrArg Prod.fst hpair)) ha
      have hbefore : s.Reaches next := hreaches.of_le (Nat.le_succ next)
      rw [fieldState_outside (Nat.zero_le _) (fun j _ hj => hother j hj),
        fieldState_zero_outside hother, hbefore.rowState_succ]
      exact ih (by omega) hbefore

/-- Nothing that happens after a value was set changes its buffer. -/
theorem HasValue.fieldState_memory {row i a : Nat} (h : s.HasValue row i)
    (ha : s.InSlot row i a) {row' n : Nat} (hreaches : s.Reaches row')
    (hn : n ≤ s.fields.length) (hlater : row < row' ∨ (row = row' ∧ i < n)) :
    (s.fieldState row' n).memory a = (s.fieldState row (i + 1)).memory a := by
  rcases hlater with hlt | ⟨rfl, hlt⟩
  · have hother : ∀ j < s.fields.length, (s.cellAt row' j).isValue = true →
        ¬ s.InSlot row' j a := by
      intro j hj hvalue
      exact h.not_inSlot hwrap ⟨hreaches, hj, hvalue⟩
        (fun hpair => absurd (congrArg Prod.fst hpair) (Nat.ne_of_lt hlt)) ha
    rw [fieldState_outside (Nat.zero_le _) (fun j _ hj => hother j (by omega)),
      fieldState_zero_outside hother]
    exact h.rowState_memory hwrap ha hlt (hreaches.of_le (Nat.sub_le row' 1))
  · apply fieldState_outside hlt
    intro j hij hj hvalue
    exact h.not_inSlot hwrap ⟨hreaches, by omega, hvalue⟩ (fun heq => by cases heq; omega) ha

end frames

/-! ## The fields -/

/-- What the loop stores in the `Field` of a cell. -/
def pointed (buffer : Nat) : FetchedCell → PointedField
  | .null length => ⟨none, length % 2 ^ 32⟩
  | .value _ length => ⟨some buffer, length % 2 ^ 32⟩

section rows

variable {s}

theorem Reaches.row_lt {row : Nat} (h : s.Reaches row) : row < s.rowCount := by
  have hsome := h row (Nat.le_refl row)
  unfold nextRow at hsome
  split at hsome
  · cases hsome
  · omega

/-- The loop ends before the first row that is not fetched. -/
theorem fetchLoop_eq (left : Nat) {row : Nat} (hleft : row + left = s.rowCount)
    (hrow : ∀ i < row, (s.nextRow i).isSome = true) :
    ∃ n, (∀ i < n, (s.nextRow i).isSome = true) ∧ s.nextRow n = none ∧
      s.fetchLoop left row (s.rowState row) = s.rowState n := by
  induction left generalizing row with
  | zero =>
    refine ⟨row, hrow, ?_, rfl⟩
    rw [nextRow, if_pos (by omega)]
  | succ left ih =>
    rw [fetchLoop]
    cases hnext : s.nextRow row with
    | none => exact ⟨row, hrow, hnext, rfl⟩
    | some cells =>
      have hcells : s.cellAt row = cells := by
        funext i
        rw [cellAt, hnext]
      have hstate : s.oneRow row cells (s.rowState row) = s.rowState (row + 1) := by
        rw [rowState, hnext, Option.isSome_some, if_pos rfl, hcells]
      simp only [hstate]
      apply ih (by omega)
      intro i hi
      rcases Nat.lt_succ_iff_lt_or_eq.mp hi with hlt | rfl
      · exact hrow i hlt
      · rw [hnext]
        rfl

/-- The constructor ends in the state behind all the rows that are fetched. -/
theorem result_eq : ∃ n, s.result = s.rowState n ∧ (∀ i < n, (s.nextRow i).isSome = true) ∧
    ∀ row, s.Reaches row → row < n := by
  obtain ⟨n, hbefore, hnone, hresult⟩ :=
    s.fetchLoop_eq s.rowCount (Nat.zero_add _) (fun i hi => absurd hi (Nat.not_lt_zero i))
  refine ⟨n, hresult, hbefore, ?_⟩
  intro row hreaches
  by_contra hle
  have hsome := hreaches n (by omega)
  rw [hnone] at hsome
  cases hsome

variable (hrows : s.rowCount * s.fields.length < 2 ^ 32)

include hrows

theorem index_eq {row i : Nat} (hrow : row < s.rowCount) (hi : i < s.fields.length) :
    (rowStart row s.fields.length + i) % 2 ^ 32 = row * s.fields.length + i := by
  have hmul : (row + 1) * s.fields.length ≤ s.rowCount * s.fields.length :=
    Nat.mul_le_mul_right _ hrow
  rw [Nat.succ_mul] at hmul
  rw [rowStart_eq (by omega), Nat.mod_eq_of_lt (by omega)]

theorem fieldState_rows {row n : Nat} (hrow : row < s.rowCount) (hn : n ≤ s.fields.length)
    (k : Nat) :
    (s.fieldState row n).m_rows k =
      if row * s.fields.length ≤ k ∧ k < row * s.fields.length + n then
        pointed (s.used row (k - row * s.fields.length))
          (s.cellAt row (k - row * s.fields.length))
      else (s.rowState row).m_rows k := by
  induction n with
  | zero =>
    rw [if_neg (by omega)]
    rfl
  | succ n ih =>
    have hbuffer : (s.fieldState row n).buffers n = s.used row n := by
      rw [fieldState_buffers, if_neg (fun hlt => Nat.lt_irrefl n hlt.1)]
    have hset : (s.fieldState row (n + 1)).m_rows = Function.update (s.fieldState row n).m_rows
        (row * s.fields.length + n) (pointed (s.used row n) (s.cellAt row n)) := by
      rw [← index_eq hrows hrow (i := n) (by omega), ← hbuffer]
      change (s.setField row (s.cellAt row) (s.fieldState row n) n).m_rows = _
      unfold setField
      cases s.cellAt row n <;> rfl
    rw [hset]
    by_cases hk : k = row * s.fields.length + n
    · subst hk
      rw [Function.update_self, if_pos (by omega), Nat.add_sub_cancel_left]
    · rw [Function.update_of_ne hk, ih (by omega)]
      by_cases hin : row * s.fields.length ≤ k ∧ k < row * s.fields.length + n
      · rw [if_pos hin, if_pos (by omega)]
      · rw [if_neg hin, if_neg (by omega)]

/-- A `Field` is set in its row and in no other one. -/
theorem rowState_rows {row i : Nat} (hi : i < s.fields.length) {n : Nat}
    (hbefore : ∀ j < n, (s.nextRow j).isSome = true) (hlt : row < n) :
    (s.rowState n).m_rows (row * s.fields.length + i) =
      pointed (s.used row i) (s.cellAt row i) := by
  induction n with
  | zero => exact absurd hlt (Nat.not_lt_zero row)
  | succ n ih =>
    have hreaches : s.Reaches n := fun j hj => hbefore j (by omega)
    rw [hreaches.rowState_succ, fieldState_rows hrows hreaches.row_lt (Nat.le_refl _)]
    by_cases heq : row = n
    · subst heq
      rw [if_pos (by omega), Nat.add_sub_cancel_left]
    · have hmul : (row + 1) * s.fields.length ≤ n * s.fields.length :=
        Nat.mul_le_mul_right _ (by omega)
      rw [Nat.succ_mul] at hmul
      rw [if_neg (by omega)]
      exact ih (fun j hj => hbefore j (by omega)) (by omega)

theorem HasValue.result_rows {row i : Nat} (h : s.HasValue row i) :
    s.result.m_rows (row * s.fields.length + i) = pointed (s.used row i) (s.cellAt row i) := by
  obtain ⟨n, hresult, hbefore, hreached⟩ := s.result_eq
  rw [hresult]
  exact rowState_rows hrows h.lt hbefore (hreached row h.reaches)

end rows

/-- At the end every value is as it was set. -/
theorem HasValue.result_memory {s : BoundResult} (hwrap : s.NoWrap) {row i a : Nat}
    (h : s.HasValue row i) (ha : s.InSlot row i a) :
    s.result.memory a = (s.fieldState row (i + 1)).memory a := by
  obtain ⟨n, hresult, hbefore, hreached⟩ := s.result_eq
  have hlt := hreached row h.reaches
  rw [hresult]
  exact h.rowState_memory hwrap ha hlt fun j hj => hbefore j (by omega)

/-- For every layout of the fields, number of rows and pattern of NULLs: the buffer
of a value is inside `dataBuffer`, those of two values have no byte in common, the
`Field` of the value points to it, and nothing that is fetched or written later
changes a byte of it. -/
theorem slots_never_collide (s : BoundResult) (hsmall : s.sizes.sum < 2 ^ 32)
    (hrows : s.rowCount * s.fields.length < 2 ^ 32) {row i : Nat} (h : s.HasValue row i) :
    s.used row i + s.buffer_length i ≤ s.dataSize ∧
      (∀ row' i', s.HasValue row' i' → (row, i) ≠ (row', i') →
        s.used row i + s.buffer_length i ≤ s.used row' i' ∨
          s.used row' i' + s.buffer_length i' ≤ s.used row i) ∧
      (s.result.m_rows (row * s.fields.length + i)).value = some (s.used row i) ∧
      ∀ a, s.InSlot row i a →
        (∀ row' n, s.Reaches row' → n ≤ s.fields.length →
          row < row' ∨ (row = row' ∧ i < n) →
            (s.fieldState row' n).memory a = (s.fieldState row (i + 1)).memory a) ∧
        s.result.memory a = (s.fieldState row (i + 1)).memory a := by
  have hwrap := NoWrap.of_sum hsmall
  refine ⟨used_inside hwrap hrows h, ?_, ?_, ?_⟩
  · intro row' i' h' hne
    exact used_apart hwrap h h' hne
  · rw [h.result_rows hrows]
    have hvalue := h.isValue
    cases hcell : s.cellAt row i with
    | null length =>
      rw [hcell] at hvalue
      cases hvalue
    | value bytes length => rfl
  · intro a ha
    refine ⟨?_, h.result_memory hwrap ha⟩
    intro row' n hreaches hn hlater
    exact h.fieldState_memory hwrap ha hreaches hn hlater

/-- A number and a short text in two rows, with a NULL in each. -/
def twoNulls : BoundResult where
  fields := [⟨.MYSQL_TYPE_LONG, 4⟩, ⟨.MYSQL_TYPE_VAR_STRING, 3⟩]
  rowCount := 2
  fetch
    | 0 => ⟨0, fun i => if i = 0 then .value [7, 0, 0, 0] 4 else .null 0⟩
    | _ + 1 => ⟨0, fun i => if i = 0 then .null 0 else .value [104, 105] 2⟩
  dataBuffer _ := 255

theorem twoNulls_apart : twoNulls.used 0 0 + 4 ≤ twoNulls.used 1 1 ∨
    twoNulls.used 1 1 + 3 ≤ twoNulls.used 0 0 :=
  (slots_never_collide twoNulls (by decide) (by decide) ⟨by decide, by decide, by decide⟩).2.1 1 1
    ⟨by decide, by decide, by decide⟩ (by decide)

end BoundResult

end Mpool.Database
