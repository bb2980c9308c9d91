import Mpool.Database.BindParameters
import Mpool.Database.CellBytes
import Mpool.Database.IntegerColumns

/-! Values on their way through the database: bound to the parameters of a statement,
read there by the client library, kept by the server, fetched with a result and read
from its `Field`s. -/

namespace Mpool.Database

/-! ## The getters for bytes -/

/-- The `data` of a `Field`, with its length. -/
structure SizedField extends DataField where
  length : Nat

namespace SizedField

/-- `length` bytes from where `value` points. -/
def bytes (field : SizedField) : Bytes :=
  match field.value with
  | none => []
  | some memory => readBytes memory field.length

def isNull (field : SizedField) : Bool := field.value.isNone

def getDataString (field : SizedField) : Bytes := field.bytes

def getDataStringView (field : SizedField) : Bytes := field.bytes

def getDataBinary (field : SizedField) : Bytes :=
  if field.value.isNone || field.length = 0 then [] else field.bytes

/-- `none` is the failed `ASSERT`. -/
def getBinarySizeChecked (field : SizedField) (size : Nat) : Option Bytes :=
  if field.value.isSome && field.length = size then some field.bytes else none

theorem bytes_eq {field : SizedField} {memory value : Bytes} (hvalue : field.value = some memory)
    (hlength : field.length = value.length) (hread : readBytes memory value.length = value) :
    field.bytes = value := by
  rw [bytes, hvalue, hlength]
  exact hread

theorem getDataBinary_eq (field : SizedField) : field.getDataBinary = field.bytes := by
  unfold getDataBinary bytes
  cases field.value with
  | none => rfl
  | some memory =>
    by_cases hlength : field.length = 0
    · simp [hlength, readBytes]
    · simp [hlength]

end SizedField

/-! ## Storing -/

/-- What is bound for one execution, and whether the server takes it. -/
structure Execution where
  parameters : List PreparedStatementData
  succeeds : Bool

namespace BindState

/-- `Execute`, with the values the client library reads from the binds. They are cleared
if the execution fails, too. -/
def executeOnce (s : BindState) (parameters : List PreparedStatementData) :
    Option (BindState × List PreparedStatementData) := do
  let (s, _) ← s.bindParameters parameters
  let row ← (List.range s.paramCount).mapM fun i => (s.view i).decode
  let s ← s.clearParameters
  some (s, row)

/-- The executions of one statement, and the rows they leave. -/
def executeAll (s : BindState) :
    List Execution → Option (BindState × List (List PreparedStatementData))
  | [] => some (s, [])
  | execution :: executions => do
    let (s, row) ← s.executeOnce execution.parameters
    let (s, rows) ← s.executeAll executions
    some (s, if execution.succeeds then row :: rows else rows)

end BindState

/-- The rows of the executions that succeed. -/
def storedRows (executions : List Execution) : List (List PreparedStatementData) :=
  (executions.filter Execution.succeeds).map fun execution =>
    execution.parameters.map PreparedStatementData.received

/-! ## Fetching -/

namespace PreparedStatementData

/-- The bytes of the value in a row of a result. -/
def cell : PreparedStatementData → Option Bytes
  | .bool value => some (Bytes.encode 1 (if value then 1 else 0))
  | .number T bits => some (Bytes.encode T.size bits.toNat)
  | .string value | .vector value => some value
  | .nullptr => none

end PreparedStatementData

/-- The types with a terminating zero. -/
def EnumFieldTypes.IsText (type : EnumFieldTypes) : Prop :=
  type = .MYSQL_TYPE_VAR_STRING ∨ type = .MYSQL_TYPE_STRING ∨ type = .MYSQL_TYPE_TINY_BLOB ∨
    type = .MYSQL_TYPE_MEDIUM_BLOB ∨ type = .MYSQL_TYPE_LONG_BLOB ∨ type = .MYSQL_TYPE_BLOB

/-- The column is of a type for the value; `max_length` is the length of its longest. -/
def MySQLField.Keeps (field : MySQLField) : PreparedStatementData → Prop
  | .bool _ => field.type = .MYSQL_TYPE_TINY
  | .number T _ => field.type = T.mySQLType
  | .string value | .vector value =>
    field.type.IsText ∧ value.length ≤ field.max_length ∧ field.max_length + 1 < 2 ^ 32
  | .nullptr => True

namespace SentResult

/-- The result sends the rows of the table, in columns for their values. -/
structure Selects (result : SentResult) (table : List (List PreparedStatementData)) : Prop where
  rowCount : result.rowCount = table.length
  fetches : ∀ row < table.length, result.fetches row = true
  columns : ∀ (row : Nat) (hrow : row < table.length), table[row].length = result.fields.length
  sent : ∀ (row : Nat) (hrow : row < table.length) (i : Nat) (hi : i < table[row].length),
    result.sent row i = table[row][i].cell
  keeps : ∀ (row : Nat) (hrow : row < table.length) (i : Nat) (hi : i < table[row].length)
    (hi' : i < result.fields.length), result.fields[i].Keeps table[row][i]

/-- `InitializeDatabaseFieldMetadata`, with the names of the columns. -/
def fieldMeta (result : SentResult) (TableName Alias : Nat → Bytes) (i : Nat) :
    QueryResultFieldMetadata :=
  ⟨TableName i, Alias i, mysqlTypeToFieldType (result.fields.getD i ⟨.MYSQL_TYPE_NULL, 0⟩).type⟩

/-- The `Field` of a cell. Its pointer leads to the rest of the buffer. -/
def field (result : SentResult) (TableName Alias : Nat → Bytes) (row i : Nat) : SizedField :=
  let cell := result.bound.result.m_rows (row * result.fields.length + i)
  { value := cell.value.map fun p =>
      Memory.read result.bound.result.memory p (result.bound.dataSize - p)
    raw := true
    fieldMeta := result.fieldMeta TableName Alias i
    length := cell.length }

end SentResult

/-! ## Reading -/

namespace NumberType

def arithType : NumberType → ArithType
  | uint8 => .uint8
  | uint16 => .uint16
  | uint32 => .uint32
  | uint64 => .uint64
  | int8 => .int8
  | int16 => .int16
  | int32 => .int32
  | int64 => .int64
  | float => .float
  | double => .double

/-- The number with the given bits. -/
def arithValue {F : Type} (ops : FloatOps F) (T : NumberType) (bits : BitVec (8 * T.size)) :
    ArithValue F :=
  match T with
  | float | double => .float (ops.ofBytes (Bytes.encode T.size bits.toNat))
  | _ => .int (if T.isUnsigned then (bits.toNat : Int) else bits.toInt)

end NumberType

/-- The getters for the type of the value return it, and a `NULL` is told from every
value. -/
def PreparedStatementData.ReadBack {F : Type} (ops : FloatOps F) (field : SizedField) :
    PreparedStatementData → Prop
  | .bool value => field.isNull = false ∧
    getData ops field.toDataField 1 .bool = some (.value (.bool value))
  | .number T bits => field.isNull = false ∧
    getData ops field.toDataField 1 T.arithType = some (.value (T.arithValue ops bits))
  | .string value => field.isNull = false ∧ field.getDataString = value ∧
    field.getDataStringView = value
  | .vector value => field.isNull = false ∧ field.getDataBinary = value ∧
    field.getBinarySizeChecked value.length = some value
  | .nullptr => field.isNull = true ∧
    (∀ T, getData ops field.toDataField 1 T = some (.value (getDefaultValue ops T))) ∧
    field.getDataString = [] ∧ field.getDataStringView = [] ∧ field.getDataBinary = [] ∧
    ∀ size, field.getBinarySizeChecked size = none

/-! ## What the executions store -/

theorem mapM_range_eq_some {α : Type} {f : Nat → Option α} {l : List α}
    (h : ∀ i (hi : i < l.length), f i = some l[i]) : (List.range l.length).mapM f = some l := by
  induction l generalizing f with
  | nil => rfl
  | cons a l ih =>
    have hhead : f 0 = some a := h 0 (Nat.zero_lt_succ _)
    have htail : (List.range l.length).mapM (f ∘ Nat.succ) = some l :=
      ih fun i hi => h (i + 1) (Nat.succ_lt_succ hi)
    rw [List.length_cons, List.range_succ_eq_map, List.mapM_cons, List.mapM_map, hhead]
    rw [Option.bind_eq_bind, Option.bind_some, htail]
    rfl

namespace BindState

variable {n : Nat} {s : BindState}

theorem Ready.executeOnce (hs : Ready n s) (hn : n ≤ 254) {parameters : List PreparedStatementData}
    (hcount : parameters.length = n) (hfits : ∀ data ∈ parameters, data.Fits) :
    ∃ s', s.executeOnce parameters = some (s', parameters.map PreparedStatementData.received) ∧
      Ready n s' := by
  obtain ⟨bound, hbind, -, hbound⟩ := hs.bindFrom_stored hn parameters 0 (by omega)
  have hready : Ready n bound := hs.bindFrom hbind
  obtain ⟨s', hclear, hs'⟩ := hready.clearParameters
  have hrow : (List.range bound.paramCount).mapM (fun i => (bound.view i).decode) =
      some (parameters.map PreparedStatementData.received) := by
    have hlength : bound.paramCount = (parameters.map PreparedStatementData.received).length := by
      rw [List.length_map, hready.count, hcount]
    rw [hlength]
    apply mapM_range_eq_some
    intro i hi
    rw [List.length_map] at hi
    have hdata : parameters[i].Fits := hfits _ (List.getElem_mem hi)
    have hsignificant := hbound i hi hdata
    rw [Nat.zero_add] at hsignificant
    rw [← BindView.decode_significant, hsignificant, PreparedStatementData.decode_bound _ hdata,
      List.getElem_map]
  refine ⟨s', ?_, hs'⟩
  simp only [BindState.executeOnce, bindParameters, hbind, hrow, hclear, Option.bind_eq_bind,
    Option.bind_some]

/-- The rows are those of the executions that succeed, whatever is executed between
them. -/
theorem Ready.executeAll (hs : Ready n s) (hn : n ≤ 254) {executions : List Execution}
    (hcount : ∀ e ∈ executions, e.parameters.length = n)
    (hfits : ∀ e ∈ executions, ∀ data ∈ e.parameters, data.Fits) :
    ∃ s', s.executeAll executions = some (s', storedRows executions) ∧ Ready n s' := by
  induction executions generalizing s with
  | nil => exact ⟨s, rfl, hs⟩
  | cons e executions ih =>
    obtain ⟨next, honce, hnext⟩ := hs.executeOnce hn (hcount e List.mem_cons_self)
      (hfits e List.mem_cons_self)
    obtain ⟨s', hall, hs'⟩ := ih hnext (fun e' he' => hcount e' (List.mem_cons_of_mem e he'))
      (fun e' he' => hfits e' (List.mem_cons_of_mem e he'))
    refine ⟨s', ?_, hs'⟩
    simp only [BindState.executeAll, honce, hall, Option.bind_eq_bind, Option.bind_some]
    cases hsucceeds : e.succeeds <;> simp [storedRows, hsucceeds]

end BindState

theorem PreparedStatementData.cell_received (data : PreparedStatementData) :
    data.received.cell = data.cell := by
  cases data with
  | bool value => cases value <;> rfl
  | number T bits => rfl
  | string value => rfl
  | vector value => rfl
  | nullptr => rfl

/-! ## The `Field` of a cell -/

namespace SentResult

variable {result : SentResult} {TableName Alias : Nat → Bytes}

theorem Selects.reaches {table : List (List PreparedStatementData)} (h : result.Selects table)
    {row : Nat} (hrow : row < table.length) : result.bound.Reaches row := by
  intro i hi
  have hcount : ¬ i ≥ result.bound.rowCount := by
    change ¬ i ≥ result.rowCount
    rw [h.rowCount]
    omega
  have hfetch : result.fetches i = true := h.fetches i (by omega)
  have hretval : (result.bound.fetch i).retval = 0 ∨
      (result.bound.fetch i).retval = MYSQL_DATA_TRUNCATED := by
    change (result.stmtFetch i).retval = 0 ∨ (result.stmtFetch i).retval = MYSQL_DATA_TRUNCATED
    rw [stmtFetch, hfetch]
    cases result.truncates i <;> simp
  rw [BoundResult.nextRow, if_neg hcount, if_pos hretval]
  rfl

/-- The `Field` of a value that fits into its buffer has the bytes that were sent. -/
theorem field_of_sent (hwrap : result.bound.NoWrap)
    (hrows : result.rowCount * result.fields.length < 2 ^ 32) {row i : Nat}
    (h : result.bound.Reaches row) (hi : i < result.fields.length) {bytes : Bytes}
    (hsent : result.sent row i = some bytes)
    (hfits : bytes.length ≤ sizeForType result.timeSize result.fields[i]) :
    ∃ memory, (result.field TableName Alias row i).value = some memory ∧
      (result.field TableName Alias row i).length = bytes.length ∧
      readBytes memory bytes.length = bytes := by
  rw [← bound_buffer_length hi] at hfits
  have hvalue := hasValue h hi hsent
  have hfield := result_field hrows h hi hsent
  have hrows' : result.bound.rowCount * result.bound.fields.length < 2 ^ 32 := by
    rw [bound_length]
    exact hrows
  have hinside := BoundResult.used_inside hwrap hrows' hvalue
  have hsize := sizeForType_lt result.timeSize result.fields[i]
  rw [← bound_buffer_length hi] at hsize
  have hread : Memory.read result.bound.result.memory (result.bound.used row i) bytes.length =
      bytes := by
    have hset := fieldState_read hwrap h hi hsent hfits
    refine Eq.trans (Memory.read_congr fun a hlow hhigh => ?_) hset
    exact hvalue.result_memory hwrap ⟨hlow, by omega⟩
  refine ⟨_, by rw [field, hfield]; rfl, ?_, ?_⟩
  · rw [field, hfield]
    exact Nat.mod_eq_of_lt (by omega)
  · rw [readBytes, List.take_append_of_le_length (by rw [Memory.length_read]; omega),
      Memory.read_take _ _ (by omega), hread]

/-- The `Field` of a `NULL` has no pointer. -/
theorem field_of_null (hrows : result.rowCount * result.fields.length < 2 ^ 32) {row i : Nat}
    (h : result.bound.Reaches row) (hi : i < result.fields.length)
    (hsent : result.sent row i = none) : (result.field TableName Alias row i).value = none := by
  obtain ⟨n, hresult, hbefore, hreached⟩ := result.bound.result_eq
  have hcell : result.bound.cellAt row i = .null 0 := by
    obtain ⟨cells, hnext⟩ := Option.isSome_iff_exists.mp (h row (Nat.le_refl row))
    rw [BoundResult.cellAt, hnext]
    unfold BoundResult.nextRow at hnext
    split at hnext
    · cases hnext
    · split at hnext
      · cases hnext
        change (match result.sent row i with
          | none => FetchedCell.null 0
          | some bytes => .value bytes bytes.length) = _
        rw [hsent]
      · cases hnext
  have hi' : i < result.bound.fields.length := by rwa [bound_length]
  have hrows' : result.bound.rowCount * result.bound.fields.length < 2 ^ 32 := by
    rw [bound_length]
    exact hrows
  have hset := BoundResult.rowState_rows hrows' hi' hbefore (hreached row h)
  rw [hcell, bound_length, ← hresult] at hset
  rw [field, hset]
  rfl

end SentResult

/-! ## Reading it back -/

section reading

variable {F : Type} (ops : FloatOps F)

/-- Without a function in its alias a raw field is read as it is. -/
theorem getData_raw {field : DataField} {memory : Bytes} (hvalue : field.value = some memory)
    (hraw : field.raw = true) (halias : (40 : UInt8) ∉ field.fieldMeta.Alias) {T : ArithType}
    (htype : T = .double → field.fieldMeta.FieldType ≠ .Decimal) :
    getData ops field 1 T = some (.value (readRaw ops memory T)) := by
  have hfirst : firstResult ops field memory T = some (readRaw ops memory T) := by
    unfold firstResult
    by_cases hT : T = .double
    · subst hT
      simp [hraw, htype rfl]
    · simp [hT, hraw]
  have hnumber : isDbcNumber field memory (some (readRaw ops memory T)) = false := by
    simp [isDbcNumber]
  have hactivation : activation ops field T = .returns (readRaw ops memory T) := by
    rw [activation_plain ops hvalue halias, hfirst, hnumber, Bool.and_false]
    rfl
  rw [getData, hactivation]

theorem getData_null {field : DataField} (hvalue : field.value = none) (T : ArithType) :
    getData ops field 1 T = some (.value (getDefaultValue ops T)) := by
  have hactivation : activation ops field T = .returns (getDefaultValue ops T) := by
    simp only [activation, hvalue]
  rw [getData, hactivation]

theorem NumberType.wrap_arithType {T : NumberType} (hT : T.arithType.isInteger = true) (v : Int) :
    T.arithType.wrap v =
      if T.isUnsigned then v % 2 ^ (8 * T.size) else Int.bmod v (2 ^ (8 * T.size)) := by
  cases T <;> first | exact absurd hT Bool.false_ne_true | rfl

theorem NumberType.arithValue_integer {T : NumberType} (hT : T.arithType.isInteger = true)
    (bits : BitVec (8 * T.size)) : T.arithValue ops bits =
      .int (if T.isUnsigned then (bits.toNat : Int) else bits.toInt) := by
  cases T <;> first | exact absurd hT Bool.false_ne_true | rfl

theorem NumberType.arithValue_float {T : NumberType} (hT : T.arithType.isInteger = false)
    (bits : BitVec (8 * T.size)) :
    T.arithValue ops bits = .float (ops.ofBytes (Bytes.encode T.size bits.toNat)) := by
  cases T <;> first | exact absurd hT.symm Bool.false_ne_true | rfl

/-- The bytes of a number, taken for a value of its type. -/
theorem readRaw_number (T : NumberType) (bits : BitVec (8 * T.size)) {memory : Bytes}
    (h : readBytes memory T.size = Bytes.encode T.size bits.toNat) :
    readRaw ops memory T.arithType = T.arithValue ops bits := by
  have hpow : (2 : Nat) ^ (8 * T.size) = 256 ^ T.size := by rw [pow_mul]; rfl
  have hvalue : Bytes.value (readBytes memory T.size) = bits.toNat := by
    rw [h, Bytes.value_encode (hpow ▸ bits.isLt)]
  cases hT : T.arithType.isInteger with
  | true =>
    have hread : readRaw ops memory T.arithType =
        .int (T.arithType.wrap (Bytes.value (readBytes memory T.size))) := by
      cases T <;> first | exact absurd hT Bool.false_ne_true | rfl
    rw [hread, hvalue, NumberType.wrap_arithType hT, NumberType.arithValue_integer ops hT]
    cases T.isUnsigned with
    | true =>
      have hlt : (bits.toNat : Int) < 2 ^ (8 * T.size) := by exact_mod_cast bits.isLt
      simp only [if_true, Int.emod_eq_of_lt (Int.natCast_nonneg _) hlt]
    | false =>
      rw [BitVec.toInt_eq_toNat_bmod]
      rfl
  | false =>
    have hread : readRaw ops memory T.arithType =
        .float (ops.ofBytes (readBytes memory T.size)) := by
      cases T <;> first | exact absurd hT.symm Bool.false_ne_true | rfl
    rw [hread, h, NumberType.arithValue_float ops hT]

theorem readRaw_truth (value : Bool) {memory : Bytes}
    (h : readBytes memory 1 = Bytes.encode 1 (if value then 1 else 0)) :
    readRaw ops memory .bool = .bool value := by
  have hread : readBytes memory ArithType.bool.size = Bytes.encode 1 (if value then 1 else 0) := h
  unfold readRaw
  cases value <;> simp only [hread] <;> rfl

end reading

/-- A value is no longer than the buffer of a column that keeps it. -/
theorem MySQLField.Keeps.length_le {field : MySQLField} {data : PreparedStatementData}
    (h : field.Keeps data.received) {bytes : Bytes} (hcell : data.cell = some bytes)
    (timeSize : Nat) : bytes.length ≤ sizeForType timeSize field := by
  cases data with
  | bool value =>
    have htype : field.type = .MYSQL_TYPE_TINY := h
    obtain rfl := Option.some.inj hcell
    simp [sizeForType, htype]
  | number T bits =>
    have htype : field.type = T.mySQLType := h
    obtain rfl := Option.some.inj hcell
    have hsize : sizeForType timeSize field = T.size := by
      unfold sizeForType
      rw [htype]
      cases T <;> rfl
    rw [hsize, Bytes.length_encode]
  | string value | vector value =>
    obtain ⟨htext, hlongest, hsmall⟩ := h
    obtain rfl := Option.some.inj hcell
    exact SentResult.text_fits htext hlongest hsmall
  | nullptr => cases hcell

namespace SentResult

variable {result : SentResult} {TableName Alias : Nat → Bytes}

/-- The getters find in the `Field` of a cell the value that was sent for it. -/
theorem readBack {F : Type} (ops : FloatOps F) (hwrap : result.bound.NoWrap)
    (hrows : result.rowCount * result.fields.length < 2 ^ 32)
    (halias : ∀ i, (40 : UInt8) ∉ Alias i) {row i : Nat} (h : result.bound.Reaches row)
    (hi : i < result.fields.length) {data : PreparedStatementData}
    (hsent : result.sent row i = data.cell) (hkeeps : result.fields[i].Keeps data.received) :
    data.ReadBack ops (result.field TableName Alias row i) := by
  have hfit : ∀ bytes, data.cell = some bytes →
      ∃ memory, (result.field TableName Alias row i).value = some memory ∧
        (result.field TableName Alias row i).length = bytes.length ∧
        readBytes memory bytes.length = bytes := fun bytes hcell =>
    field_of_sent hwrap hrows h hi (hsent.trans hcell) (hkeeps.length_le hcell _)
  have hplain : (40 : UInt8) ∉ (result.field TableName Alias row i).fieldMeta.Alias := halias i
  cases data with
  | bool value =>
    obtain ⟨memory, hvalue, -, hread⟩ := hfit _ rfl
    rw [Bytes.length_encode] at hread
    have hget := getData_raw ops hvalue rfl hplain (T := .bool) (fun hT => by cases hT)
    exact ⟨by rw [SizedField.isNull, hvalue]; rfl, by rw [hget, readRaw_truth ops value hread]⟩
  | number T bits =>
    obtain ⟨memory, hvalue, -, hread⟩ := hfit _ rfl
    rw [Bytes.length_encode] at hread
    have htype : T.arithType = .double →
        (result.field TableName Alias row i).fieldMeta.FieldType ≠ .Decimal := by
      intro _
      have hfield : result.fields[i].type = T.mySQLType := hkeeps
      change mysqlTypeToFieldType (result.fields.getD i _).type ≠ .Decimal
      rw [List.getD_eq_getElem _ _ hi, hfield]
      cases T <;> decide
    have hget := getData_raw ops hvalue rfl hplain htype
    exact ⟨by rw [SizedField.isNull, hvalue]; rfl, by rw [hget, readRaw_number ops T bits hread]⟩
  | string value =>
    obtain ⟨memory, hvalue, hlength, hread⟩ := hfit _ rfl
    have hbytes := SizedField.bytes_eq hvalue hlength hread
    exact ⟨by rw [SizedField.isNull, hvalue]; rfl, hbytes, hbytes⟩
  | vector value =>
    obtain ⟨memory, hvalue, hlength, hread⟩ := hfit _ rfl
    have hbytes := SizedField.bytes_eq hvalue hlength hread
    refine ⟨by rw [SizedField.isNull, hvalue]; rfl, ?_, ?_⟩
    · rw [SizedField.getDataBinary_eq, hbytes]
    · simp [SizedField.getBinarySizeChecked, hvalue, hlength, hbytes]
  | nullptr =>
    have hvalue : (result.field TableName Alias row i).value = none :=
      field_of_null hrows h hi hsent
    have hbytes : (result.field TableName Alias row i).bytes = [] := by
      rw [SizedField.bytes, hvalue]
    refine ⟨by rw [SizedField.isNull, hvalue]; rfl, getData_null ops hvalue, hbytes, hbytes, ?_, ?_⟩
    · rw [SizedField.getDataBinary_eq, hbytes]
    · intro size
      simp [SizedField.getBinarySizeChecked, hvalue]

end SentResult

/-- Whatever the statement was bound to before: a run of its executions leaves the rows of
those that succeed, and from a result of these rows, in columns for their values, the
getters read each value that was bound for the row. -/
theorem stored_rows_read_back {F : Type} (ops : FloatOps F) {n : Nat} (hn : n ≤ 254)
    {history : List StatementCall} {s : BindState}
    (hhistory : (BindState.new n).calls history = some s) {executions : List Execution}
    (hcount : ∀ e ∈ executions, e.parameters.length = n)
    (hfits : ∀ e ∈ executions, ∀ data ∈ e.parameters, data.Fits) :
    ∃ s', s.executeAll executions = some (s', storedRows executions) ∧
      ∀ (result : SentResult) (TableName Alias : Nat → Bytes),
        result.Selects (storedRows executions) → result.bound.sizes.dropLast.sum < 2 ^ 32 →
        result.rowCount * result.fields.length < 2 ^ 32 → (∀ i, (40 : UInt8) ∉ Alias i) →
        ∀ (row : Nat) (hrow : row < (executions.filter Execution.succeeds).length) (i : Nat)
          (hi : i < (executions.filter Execution.succeeds)[row].parameters.length),
          ((executions.filter Execution.succeeds)[row].parameters[i]).ReadBack ops
            (result.field TableName Alias row i) := by
  have hs : BindState.Ready n s := (BindState.ready_new n).calls hhistory
  obtain ⟨s', hall, -⟩ := hs.executeAll hn hcount hfits
  refine ⟨s', hall, fun result TableName Alias hselects hoffset hrows halias row hrow i hi => ?_⟩
  have hrow' : row < (storedRows executions).length := by rwa [storedRows, List.length_map]
  have hstored : (storedRows executions)[row] =
      (executions.filter Execution.succeeds)[row].parameters.map
        PreparedStatementData.received := by simp [storedRows]
  have hi' : i < (storedRows executions)[row].length := by rwa [hstored, List.length_map]
  have hcolumn : i < result.fields.length := hselects.columns row hrow' ▸ hi'
  have hdata : (storedRows executions)[row][i] =
      (executions.filter Execution.succeeds)[row].parameters[i].received := by
    simp [storedRows]
  have hwrap := SentResult.noWrap hoffset
  apply SentResult.readBack ops hwrap hrows halias (hselects.reaches hrow') hcolumn
  · rw [hselects.sent row hrow' i hi', hdata, PreparedStatementData.cell_received]
  · rw [← hdata]
    exact hselects.keeps row hrow' i hi' hcolumn

/-- A number and a text, then a `NULL` and the empty text; an execution between them
fails. -/
def twoInserts : List Execution :=
  [⟨[.number .int16 (-2), .string [104, 105]], true⟩, ⟨[.bool true, .nullptr], false⟩,
    ⟨[.nullptr, .string []], true⟩]

def twoRows : SentResult where
  timeSize := 40
  fields := [⟨.MYSQL_TYPE_SHORT, 6⟩, ⟨.MYSQL_TYPE_VAR_STRING, 2⟩]
  rowCount := 2
  fetches _ := true
  sent row i := (((storedRows twoInserts).getD row []).getD i .nullptr).cell
  dataBuffer _ := 255

theorem twoRows_selects : twoRows.Selects (storedRows twoInserts) where
  rowCount := rfl
  fetches _ _ := rfl
  columns := by decide
  sent row hrow i hi := by
    simp only [twoRows, List.getD_eq_getElem _ _ hrow, List.getD_eq_getElem _ _ hi]
  keeps row hrow i hi hi' := by
    have htext : EnumFieldTypes.IsText .MYSQL_TYPE_VAR_STRING := .inl rfl
    have hsmall : 2 + 1 < 2 ^ 32 := by decide
    match row, hrow, i, hi, hi' with
    | 0, _, 0, _, _ => exact rfl
    | 0, _, 1, _, _ => exact ⟨htext, Nat.le_refl 2, hsmall⟩
    | 1, _, 0, _, _ => exact trivial
    | 1, _, 1, _, _ => exact ⟨htext, Nat.zero_le 2, hsmall⟩

theorem stored_rows_read_back_twoRows :
    ∃ s, (BindState.new 2).calls [.bindParameters [.string [97], .string [98, 99]]] = some s ∧
      ∃ s', s.executeAll twoInserts = some (s', storedRows twoInserts) ∧
        getData unitOps (twoRows.field (fun _ => []) (fun _ => []) 0 0).toDataField 1 .int16 =
          some (.value (.int (-2))) ∧
        (twoRows.field (fun _ => []) (fun _ => []) 1 0).isNull = true ∧
        (twoRows.field (fun _ => []) (fun _ => []) 1 1).isNull = false ∧
        (twoRows.field (fun _ => []) (fun _ => []) 1 1).getDataString = [] := by
  have hs : (BindState.new 2).calls [.bindParameters [.string [97], .string [98, 99]]] = some _ :=
    rfl
  have hfits : ∀ e ∈ twoInserts, ∀ data ∈ e.parameters, data.Fits := by
    simp [twoInserts, PreparedStatementData.Fits]
  obtain ⟨s', hall, hread⟩ := stored_rows_read_back unitOps (by decide) hs (by decide) hfits
  have hcell := hread twoRows (fun _ => []) (fun _ => []) twoRows_selects (by decide) (by decide)
    (fun _ => List.not_mem_nil)
  have hnumber := hcell 0 (by decide) 0 (by decide)
  have hnull := hcell 1 (by decide) 0 (by decide)
  have htext := hcell 1 (by decide) 1 (by decide)
  exact ⟨_, hs, s', hall, hnumber.2, hnull.1, htext.1, htext.2.1⟩

end Mpool.Database
