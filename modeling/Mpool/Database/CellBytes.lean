import Mpool.Database.RowBuffer

/-! The bytes of a cell from the server to its `Field`. The size of the buffer is
the one of the column type, the length is that of the value: where the value is
longer, the fetch answers that it was truncated, which is accepted. -/

namespace Mpool.Database

/-- A prepared result as the server sends it. `fetches` says that the fetch of a row
does not fail. -/
structure SentResult where
  timeSize : Nat
  fields : List MySQLField
  rowCount : Nat
  fetches : Nat → Bool
  sent : Nat → Nat → Option Bytes
  dataBuffer : Nat → UInt8

namespace SentResult

variable (s : SentResult)

/-- A value of the row does not fit into its buffer. -/
def truncates (row : Nat) : Bool :=
  (List.range s.fields.length).any fun i =>
    match s.sent row i, s.fields[i]? with
    | some bytes, some field => sizeForType s.timeSize field < bytes.length
    | _, _ => false

/-- `mysql_stmt_fetch`; 1 is any error. -/
def stmtFetch (row : Nat) : StmtFetch where
  retval := if !s.fetches row then 1 else if s.truncates row then MYSQL_DATA_TRUNCATED else 0
  cells i :=
    match s.sent row i with
    | none => .null 0
    | some bytes => .value bytes bytes.length

/-- The result as the constructor binds it. -/
def bound : BoundResult where
  fields := s.fields.map fun field => ⟨field.type, sizeForType s.timeSize field⟩
  rowCount := s.rowCount
  fetch := s.stmtFetch
  dataBuffer := s.dataBuffer

/-- The `Field` of the cell has a pointer and a length that stay inside the buffer of
the cell, and there are the bytes. -/
def Denotes (row i : Nat) (bytes : Bytes) : Prop :=
  let field := s.bound.result.m_rows (row * s.fields.length + i)
  ∃ p, field.value = some p ∧ s.bound.used row i ≤ p ∧
    p + field.length ≤ s.bound.used row i + s.bound.buffer_length i ∧
    Memory.read s.bound.result.memory p field.length = bytes

variable {s}

theorem bound_length : s.bound.fields.length = s.fields.length := List.length_map _

theorem bound_buffer_length {i : Nat} (hi : i < s.fields.length) :
    s.bound.buffer_length i = sizeForType s.timeSize s.fields[i] := by
  have hlt : i < s.bound.sizes.length := by
    simpa [BoundResult.sizes, bound] using hi
  rw [BoundResult.buffer_length_eq hlt]
  simp [BoundResult.sizes, bound]

theorem sizeForType_lt (timeSize : Nat) (field : MySQLField) :
    sizeForType timeSize field < 2 ^ 32 := by
  unfold sizeForType
  split <;> omega

theorem noWrap (h : s.bound.sizes.dropLast.sum < 2 ^ 32) : s.bound.NoWrap where
  size_lt size hmem := by
    simp only [BoundResult.sizes, bound, List.map_map, List.mem_map] at hmem
    obtain ⟨field, -, rfl⟩ := hmem
    exact sizeForType_lt s.timeSize field
  offset_lt := h

theorem cellAt_eq {row i : Nat} (h : s.bound.Reaches row) {bytes : Bytes}
    (hsent : s.sent row i = some bytes) :
    s.bound.cellAt row i = .value bytes bytes.length := by
  have hsome := h row (Nat.le_refl row)
  unfold BoundResult.cellAt
  cases hnext : s.bound.nextRow row with
  | none =>
    rw [hnext] at hsome
    cases hsome
  | some cells =>
    unfold BoundResult.nextRow at hnext
    split at hnext
    · cases hnext
    · split at hnext
      · cases hnext
        change (match s.sent row i with
          | none => FetchedCell.null 0
          | some bytes => .value bytes bytes.length) = _
        rw [hsent]
      · cases hnext

theorem hasValue {row i : Nat} (h : s.bound.Reaches row) (hi : i < s.fields.length) {bytes : Bytes}
    (hsent : s.sent row i = some bytes) : s.bound.HasValue row i := by
  refine ⟨h, ?_, ?_⟩
  · rwa [bound_length]
  · rw [cellAt_eq h hsent]
    rfl

theorem result_field (hrows : s.rowCount * s.fields.length < 2 ^ 32) {row i : Nat}
    (h : s.bound.Reaches row) (hi : i < s.fields.length) {bytes : Bytes}
    (hsent : s.sent row i = some bytes) :
    s.bound.result.m_rows (row * s.fields.length + i) =
      ⟨some (s.bound.used row i), bytes.length % 2 ^ 32⟩ := by
  have hfield := (hasValue h hi hsent).result_rows (by rwa [bound_length])
  rw [bound_length, cellAt_eq h hsent] at hfield
  exact hfield

/-- The bytes of a value that fits are in its buffer when its `Field` is set. -/
theorem fieldState_read (hwrap : s.bound.NoWrap) {row i : Nat}
    (h : s.bound.Reaches row) (hi : i < s.fields.length) {bytes : Bytes}
    (hsent : s.sent row i = some bytes) (hfits : bytes.length ≤ s.bound.buffer_length i) :
    Memory.read (s.bound.fieldState row (i + 1)).memory (s.bound.used row i) bytes.length =
      bytes := by
  have hcell := cellAt_eq h hsent
  have hvalue := hasValue h hi hsent
  have hother : ∀ a, s.bound.InSlot row i a → ∀ j < s.bound.fields.length, j ≠ i →
      (s.bound.cellAt row j).isValue = true → ¬ s.bound.InSlot row j a := by
    intro a ha j hj hne hjvalue
    exact hvalue.not_inSlot hwrap ⟨h, hj, hjvalue⟩
      (fun heq => hne (congrArg Prod.snd heq).symm) ha
  have hwritten : ∀ a, s.bound.used row i ≤ a → a < s.bound.used row i + bytes.length →
      (s.bound.fieldState row (i + 1)).memory a =
        Memory.write (s.bound.copied (s.bound.cellAt row) (s.bound.rowState row) i)
          (s.bound.used row i) bytes a := by
    intro a hlow hhigh
    have ha : s.bound.InSlot row i a := ⟨hlow, by omega⟩
    have hzero : (s.bound.fieldState row (i + 1)).memory a =
        (s.bound.fieldState row i).memory a := by
      have hbuffer : (s.bound.fieldState row i).buffers i = s.bound.used row i := by
        rw [BoundResult.fieldState_buffers, if_neg (fun hlt => Nat.lt_irrefl i hlt.1)]
      change (s.bound.setField row (s.bound.cellAt row) (s.bound.fieldState row i) i).memory a = _
      simp only [BoundResult.setField, hcell, hbuffer]
      split
      · exact Memory.write_outside (Or.inl (by omega))
      · rfl
    have hcopied : (s.bound.fieldState row 0).memory a =
        s.bound.copied (s.bound.cellAt row) (s.bound.rowState row) (i + 1) a :=
      BoundResult.copied_outside hvalue.lt fun j hij hj =>
        hother a ha j hj (by omega)
    rw [hzero, BoundResult.fieldState_outside (Nat.zero_le i)
      (fun j _ hj => hother a ha j (by have hlt := hvalue.lt; omega) (by omega)), hcopied,
      BoundResult.copied, hcell]
    simp only [List.take_of_length_le hfits]
    rfl
  rw [Memory.read_congr hwritten, Memory.read_write]

/-- A cell with a value denotes the bytes that the server sent for it if and only if
they fit into the buffer for the type of the column. -/
theorem denotes_iff (s : SentResult) (hoffset : s.bound.sizes.dropLast.sum < 2 ^ 32)
    (hrows : s.rowCount * s.fields.length < 2 ^ 32) {row i : Nat} (h : s.bound.Reaches row)
    (hi : i < s.fields.length) {bytes : Bytes} (hsent : s.sent row i = some bytes) :
    s.Denotes row i bytes ↔ bytes.length ≤ sizeForType s.timeSize s.fields[i] := by
  rw [← bound_buffer_length hi]
  unfold Denotes
  rw [result_field hrows h hi hsent]
  constructor
  · rintro ⟨p, hp, _, hinside, hread⟩
    obtain rfl := Option.some.inj hp
    have hlength := congrArg List.length hread
    rw [Memory.length_read] at hlength
    simp only at hinside hlength
    omega
  · intro hfits
    have hvalue := hasValue h hi hsent
    have hwrap := noWrap hoffset
    have hbelow : bytes.length % 2 ^ 32 = bytes.length := by
      have hsize := sizeForType_lt s.timeSize s.fields[i]
      rw [← bound_buffer_length hi] at hsize
      exact Nat.mod_eq_of_lt (by omega)
    refine ⟨s.bound.used row i, rfl, Nat.le_refl _, ?_, ?_⟩
    · simp only [hbelow]
      omega
    · simp only [hbelow]
      rw [← fieldState_read hwrap h hi hsent hfits, Memory.length_read]
      apply Memory.read_congr
      intro a hlow hhigh
      exact hvalue.result_memory hwrap ⟨hlow, by omega⟩

/-- Of a type with a terminating zero every value fits, as `max_length` is the length of
the longest. -/
theorem text_fits {timeSize : Nat} {field : MySQLField} {bytes : Bytes}
    (htype : field.type = .MYSQL_TYPE_VAR_STRING ∨ field.type = .MYSQL_TYPE_STRING ∨
      field.type = .MYSQL_TYPE_TINY_BLOB ∨ field.type = .MYSQL_TYPE_MEDIUM_BLOB ∨
      field.type = .MYSQL_TYPE_LONG_BLOB ∨ field.type = .MYSQL_TYPE_BLOB)
    (hlongest : bytes.length ≤ field.max_length) (hsmall : field.max_length + 1 < 2 ^ 32) :
    bytes.length ≤ sizeForType timeSize field := by
  have hsize : sizeForType timeSize field = (field.max_length + 1) % 2 ^ 32 := by
    rcases htype with h | h | h | h | h | h <;> simp only [sizeForType, h]
  rw [hsize, Nat.mod_eq_of_lt hsmall]
  omega

/-- One row with one value. -/
def oneCell (type : EnumFieldTypes) (bytes : Bytes) : SentResult where
  timeSize := 40
  fields := [⟨type, bytes.length⟩]
  rowCount := 1
  fetches _ := true
  sent _ _ := some bytes
  dataBuffer _ := 255

theorem number_denoted : (oneCell .MYSQL_TYPE_LONG [7, 0, 0, 0]).Denotes 0 0 [7, 0, 0, 0] :=
  (denotes_iff (oneCell .MYSQL_TYPE_LONG [7, 0, 0, 0]) (by decide) (by decide) (by decide)
    (by decide) rfl).mpr (by decide)

/-- The value `{}` of a JSON column: two bytes behind the end of an empty buffer. -/
theorem json_not_denoted :
    (oneCell (.other 245) [123, 125]).bound.result.m_rows 0 = ⟨some 0, 2⟩ ∧
      (oneCell (.other 245) [123, 125]).bound.dataSize = 0 ∧
      ¬ (oneCell (.other 245) [123, 125]).Denotes 0 0 [123, 125] := by
  have hfield : (oneCell (.other 245) [123, 125]).bound.result.m_rows 0 = ⟨some 0, 2⟩ := by decide
  refine ⟨hfield, by decide, ?_⟩
  rintro ⟨p, _, hlow, hhigh, _⟩
  have hempty : (oneCell (.other 245) [123, 125]).bound.buffer_length 0 = 0 := by decide
  have hindex : 0 * (oneCell (.other 245) [123, 125]).fields.length + 0 = 0 := by decide
  rw [hindex, hfield, hempty] at hhigh
  simp only at hhigh
  omega

end SentResult

end Mpool.Database
