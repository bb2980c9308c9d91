import Mpool.Common.StringConvert

/-! `Field::GetData` of `Field.cpp`, for the eleven arithmetic types it is
instantiated for. An instantiation may call another one, for a `_dbc` table or for
an aggregate function in the aliasName. -/

namespace Mpool.Database

open Util (text stringEqualI)

inductive DatabaseFieldTypes where
  | Null
  | Int8
  | Int16
  | Int32
  | Int64
  | Float
  | Double
  | Decimal
  | Date
  | Binary
  deriving DecidableEq

/-- Of the metadata of a field what `GetData` looks at. -/
structure QueryResultFieldMetadata where
  TableName : Bytes
  Alias : Bytes
  FieldType : DatabaseFieldTypes

/-- `value`: a null pointer, or the bytes from where it points on; behind the bytes
given there are zeros only. -/
structure DataField where
  value : Option Bytes
  raw : Bool
  fieldMeta : QueryResultFieldMetadata

inductive ArithType where
  | bool
  | uint8
  | uint16
  | uint32
  | uint64
  | int8
  | int16
  | int32
  | int64
  | float
  | double
  deriving DecidableEq

/-- A value of one of the types. `indeterminate` is a `bool` that is neither false nor
true, and an integer converted from a number it cannot hold. -/
inductive ArithValue (F : Type) where
  | bool (b : Bool)
  | int (v : Int)
  | float (x : F)
  | indeterminate
  deriving DecidableEq

/-- What is left open of the floating-point numbers. -/
structure FloatOps (F : Type) where
  one : F
  stringToFloat : Bytes → Option F
  ofBytes : Bytes → F
  ofInt : Int → F
  toFloat : F → F
  toInt : F → ArithType → Option Int
  isZero : F → Bool

namespace ArithType

/-- `sizeof`. -/
def size : ArithType → Nat
  | bool | uint8 | int8 => 1
  | uint16 | int16 => 2
  | uint32 | int32 | float => 4
  | uint64 | int64 | double => 8

def isSigned : ArithType → Bool
  | int8 | int16 | int32 | int64 => true
  | _ => false

/-- The value of an integer type that `v` is converted to. -/
def wrap (T : ArithType) (v : Int) : Int :=
  if T.isSigned then Int.bmod v (2 ^ (8 * T.size)) else v % 2 ^ (8 * T.size)

end ArithType

section conversions

variable {F : Type} (ops : FloatOps F)

def getDefaultValue : ArithType → ArithValue F
  | .bool => .bool false
  | .float | .double => .float ops.one
  | _ => .int 0

/-- `n` bytes from where the pointer points on. -/
def readBytes (memory : Bytes) (n : Nat) : Bytes := (memory ++ List.replicate n 0).take n

/-- `*reinterpret_cast<T const*>(data.value)`. -/
def readRaw (memory : Bytes) (T : ArithType) : ArithValue F :=
  let bytes := readBytes memory T.size
  match T with
  | .bool => match Bytes.value bytes with
    | 0 => .bool false
    | 1 => .bool true
    | _ => .indeterminate
  | .float | .double => .float (ops.ofBytes bytes)
  | T => .int (T.wrap (Bytes.value bytes))

/-- The bytes as a C string. -/
def cString (memory : Bytes) : Bytes := memory.takeWhile fun c => c ≠ 0

def stringTo? (T : ArithType) (str : Bytes) : Option (ArithValue F) :=
  match T with
  | .bool => (stringToBool str).map .bool
  | .float | .double => (ops.stringToFloat str).map .float
  | T =>
    if T.isSigned then (stringToSigned (8 * T.size) str).map .int
    else (stringTo (8 * T.size) str).map fun n : Nat => .int n

/-- The conversion of what a nested call returns. -/
def ArithValue.convert (T : ArithType) (v : ArithValue F) : ArithValue F :=
  match T, v with
  | _, .indeterminate => .indeterminate
  | .bool, .bool b => .bool b
  | .bool, .int v => .bool (v ≠ 0)
  | .bool, .float x => .bool (!ops.isZero x)
  | .float, .bool b => .float (ops.ofInt b.toInt)
  | .float, .int v => .float (ops.ofInt v)
  | .float, .float x => .float (ops.toFloat x)
  | .double, .bool b => .float (ops.ofInt b.toInt)
  | .double, .int v => .float (ops.ofInt v)
  | .double, .float x => .float x
  | _, .bool b => .int b.toInt
  | T, .int v => .int (T.wrap v)
  | T, .float x =>
    match ops.toInt x T with
    | some v => .int v
    | none => .indeterminate

end conversions

/-! ## The alias -/

def isCorrectFieldType (T : ArithType) (type : DatabaseFieldTypes) : Bool :=
  match T with
  | .bool | .int8 | .uint8 => type = .Int8
  | .uint16 | .int16 => type = .Int16
  | .uint32 | .int32 => type = .Int32
  | .uint64 | .int64 => type = .Int64
  | .float => type = .Float
  | .double => type = .Double || type = .Decimal

/-- The alias up to its first parenthesis. -/
def getCleanAliasName (aliasName : Bytes) : Option Bytes :=
  if aliasName = [] then none
  else if (40 : UInt8) ∈ aliasName then some (aliasName.takeWhile fun c => c ≠ 40)
  else none

def isAlias (aliasName : Bytes) (name : String) : Bool := stringEqualI aliasName (text name)

def isCorrectAlias (T : ArithType) (type : DatabaseFieldTypes) (aliasName : Bytes) : Bool :=
  match T with
  | .double => (isAlias aliasName "sum" || isAlias aliasName "avg") && type = .Decimal
  | .uint64 => isAlias aliasName "count" && type = .Int64
  | T => (isAlias aliasName "min" || isAlias aliasName "max") && isCorrectFieldType T type

/-- The instantiation that is called for the alias. -/
def aliasCall (field : DataField) (T : ArithType) : Option ArithType :=
  match getCleanAliasName field.fieldMeta.Alias with
  | none => none
  | some aliasName =>
    if (isAlias aliasName "sum" || isAlias aliasName "avg") &&
        !isCorrectAlias T field.fieldMeta.FieldType aliasName then some .double
    else if isAlias aliasName "count" && !isCorrectAlias T field.fieldMeta.FieldType aliasName then
      some .uint64
    else none

/-! ## `GetData` -/

/-- How one activation of `GetData` ends. -/
inductive Activation (F : Type) where
  | returns (v : ArithValue F)
  | aborts
  | calls (T : ArithType)

inductive AccessOutcome (F : Type) where
  | value (v : ArithValue F)
  | abort
  deriving DecidableEq

section getData

variable {F : Type} (ops : FloatOps F)

/-- For `double` the second assignment is the one that counts. -/
def firstResult (field : DataField) (memory : Bytes) (T : ArithType) : Option (ArithValue F) :=
  if T = .double then
    if field.raw && field.fieldMeta.FieldType ≠ .Decimal then some (readRaw ops memory .double)
    else (ops.stringToFloat (cString memory)).map .float
  else if field.raw then some (readRaw ops memory T)
  else stringTo? ops T (cString memory)

/-- A negative number in a `_dbc` table, read as `uint32`. -/
def isDbcNumber (field : DataField) (memory : Bytes) (result : Option (ArithValue F)) : Bool :=
  let tableName := field.fieldMeta.TableName
  4 < tableName.length && (stringToSigned 32 (cString memory)).isSome && result.isNone &&
    tableName.drop (tableName.length - 4) = text "_dbc"

def activation (field : DataField) (T : ArithType) : Activation F :=
  match field.value with
  | none => .returns (getDefaultValue ops T)
  | some memory =>
    let result := firstResult ops field memory T
    if T = .uint32 && isDbcNumber field memory result then .calls .int32
    else match aliasCall field T with
      | some T' => .calls T'
      | none => match result with
        | none => .aborts
        | some v => .returns v

def AccessOutcome.convert (T : ArithType) : AccessOutcome F → AccessOutcome F
  | .value v => .value (v.convert ops T)
  | .abort => .abort

/-- `none` when `fuel` activations are not enough. -/
def getData (field : DataField) : Nat → ArithType → Option (AccessOutcome F)
  | 0, _ => none
  | fuel + 1, T =>
    match activation ops field T with
    | .returns v => some (.value v)
    | .aborts => some .abort
    | .calls T' => (getData field fuel T').map (AccessOutcome.convert ops T)

end getData

/-! ## Which calls return -/

/-- The aggregate functions that have an instantiation of their own. -/
inductive Aggregate where
  | sumOrAvg
  | count
  deriving DecidableEq

def Aggregate.accessor : Aggregate → ArithType
  | .sumOrAvg => .double
  | .count => .uint64

/-- The type of the column by which the instantiation knows the function. -/
def Aggregate.resultType : Aggregate → DatabaseFieldTypes
  | .sumOrAvg => .Decimal
  | .count => .Int64

def aggregate (aliasName : Bytes) : Option Aggregate :=
  if isAlias aliasName "sum" || isAlias aliasName "avg" then some .sumOrAvg
  else if isAlias aliasName "count" then some .count
  else none

theorem isAlias_iff {aliasName : Bytes} {name : String} :
    isAlias aliasName name = true ↔ aliasName.map Util.toLower = (text name).map Util.toLower := by
  simp [isAlias, stringEqualI]

theorem isAlias_false {aliasName : Bytes} {name : String} (h : isAlias aliasName name = true)
    (other : String) (hne : (text name).map Util.toLower ≠ (text other).map Util.toLower) :
    isAlias aliasName other = false := by
  rw [Bool.eq_false_iff]
  intro hother
  exact hne ((isAlias_iff.mp h).symm.trans (isAlias_iff.mp hother))

/-- What `aggregate` tells of the name. -/
theorem aggregate_spec (aliasName : Bytes) :
    match aggregate aliasName with
    | some .sumOrAvg => (isAlias aliasName "sum" || isAlias aliasName "avg") = true ∧
        isAlias aliasName "count" = false ∧ isAlias aliasName "min" = false ∧
        isAlias aliasName "max" = false
    | some .count => (isAlias aliasName "sum" || isAlias aliasName "avg") = false ∧
        isAlias aliasName "count" = true ∧ isAlias aliasName "min" = false ∧
        isAlias aliasName "max" = false
    | none => (isAlias aliasName "sum" || isAlias aliasName "avg") = false ∧
        isAlias aliasName "count" = false := by
  unfold aggregate
  by_cases hsum : isAlias aliasName "sum" = true
  · simp only [hsum, Bool.true_or, ↓reduceIte, true_and]
    exact ⟨isAlias_false hsum _ (by decide), isAlias_false hsum _ (by decide),
      isAlias_false hsum _ (by decide)⟩
  · by_cases havg : isAlias aliasName "avg" = true
    · simp only [havg, Bool.or_true, ↓reduceIte, true_and]
      exact ⟨isAlias_false havg _ (by decide), isAlias_false havg _ (by decide),
        isAlias_false havg _ (by decide)⟩
    · by_cases hcount : isAlias aliasName "count" = true
      · simp only [hsum, havg, hcount, Bool.or_self, Bool.false_eq_true, ↓reduceIte, true_and]
        exact ⟨isAlias_false hcount _ (by decide), isAlias_false hcount _ (by decide)⟩
      · simp [hsum, havg, hcount]

theorem isCorrectAlias_eq {aliasName : Bytes} {A : Aggregate} (h : aggregate aliasName = some A)
    (T : ArithType) (type : DatabaseFieldTypes) :
    isCorrectAlias T type aliasName = decide (T = A.accessor ∧ type = A.resultType) := by
  have hspec := aggregate_spec aliasName
  rw [h] at hspec
  cases A with
  | sumOrAvg =>
    obtain ⟨hsum, hcount, hmin, hmax⟩ := hspec
    cases T <;> simp [isCorrectAlias, Aggregate.accessor, Aggregate.resultType, hsum, hcount, hmin,
      hmax]
  | count =>
    obtain ⟨hsum, hcount, hmin, hmax⟩ := hspec
    cases T <;> simp [isCorrectAlias, Aggregate.accessor, Aggregate.resultType, hsum, hcount, hmin,
      hmax]

def fieldAggregate (field : DataField) : Option Aggregate :=
  (getCleanAliasName field.fieldMeta.Alias).bind aggregate

/-- The call for an aggregate function goes to its instantiation, also from there if
the column is not of the type of the function. -/
theorem aliasCall_eq (field : DataField) (T : ArithType) :
    aliasCall field T = match fieldAggregate field with
      | none => none
      | some A => if T = A.accessor ∧ field.fieldMeta.FieldType = A.resultType then none
          else some A.accessor := by
  unfold aliasCall fieldAggregate
  cases getCleanAliasName field.fieldMeta.Alias with
  | none => rfl
  | some aliasName =>
    have hspec := aggregate_spec aliasName
    simp only [Option.bind_some]
    cases hA : aggregate aliasName with
    | none =>
      rw [hA] at hspec
      simp [hspec.1, hspec.2]
    | some A =>
      have hcorrect := isCorrectAlias_eq hA T field.fieldMeta.FieldType
      rw [hA] at hspec
      by_cases hfit : T = A.accessor ∧ field.fieldMeta.FieldType = A.resultType
      · rw [decide_eq_true hfit] at hcorrect
        simp only [if_pos hfit, hcorrect, Bool.not_true, Bool.and_false, Bool.false_eq_true,
          ↓reduceIte]
      · rw [decide_eq_false hfit] at hcorrect
        simp only [if_neg hfit, hcorrect, Bool.not_false, Bool.and_true]
        cases A with
        | sumOrAvg => rw [if_pos hspec.1, Aggregate.accessor]
        | count =>
          rw [if_neg (by rw [hspec.1]; exact Bool.false_ne_true), if_pos hspec.2.1,
            Aggregate.accessor]

/-- A column with a value whose alias is a function of another type. -/
def Misnamed (field : DataField) : Prop :=
  field.value ≠ none ∧ ∃ A, fieldAggregate field = some A ∧ field.fieldMeta.FieldType ≠ A.resultType

section returns

variable {F : Type} (ops : FloatOps F) {field : DataField}

theorem activation_calls (h : Misnamed field) (T : ArithType) :
    ∃ T', activation ops field T = .calls T' := by
  obtain ⟨hvalue, A, hA, htype⟩ := h
  obtain ⟨memory, hmemory⟩ := Option.ne_none_iff_exists'.mp hvalue
  have halias : aliasCall field T = some A.accessor := by
    rw [aliasCall_eq, hA]
    exact if_neg (fun hfit => htype hfit.2)
  rw [activation, hmemory]
  simp only [halias]
  split
  · exact ⟨_, rfl⟩
  · exact ⟨_, rfl⟩

/-- Some number of activations is enough. -/
def Settles (field : DataField) (T : ArithType) : Prop :=
  ∃ fuel outcome, getData ops field fuel T = some outcome

theorem settles_of_calls {T T' : ArithType} (h : activation ops field T = .calls T')
    (hnext : Settles ops field T') : Settles ops field T := by
  obtain ⟨fuel, outcome, hnext⟩ := hnext
  refine ⟨fuel + 1, outcome.convert ops T, ?_⟩
  rw [getData, h]
  simp only [hnext, Option.map_some]

theorem settles_of_not_calls {T : ArithType} (h : ∀ T', activation ops field T ≠ .calls T') :
    Settles ops field T := by
  refine ⟨1, ?_⟩
  rw [getData]
  cases hend : activation ops field T with
  | returns v => exact ⟨_, rfl⟩
  | aborts => exact ⟨_, rfl⟩
  | calls T' => exact absurd hend (h T')

/-- What an activation can call: `int32` from `uint32`, and what the alias asks for. -/
theorem activation_calls_cases {T T' : ArithType} (h : activation ops field T = .calls T') :
    (T = .uint32 ∧ T' = .int32) ∨ aliasCall field T = some T' := by
  unfold activation at h
  cases hvalue : field.value with
  | none => simp [hvalue] at h
  | some memory =>
    simp only [hvalue] at h
    split at h
    · next hdbc =>
      cases h
      exact Or.inl ⟨by simpa using (Bool.and_eq_true_iff.mp hdbc).1, rfl⟩
    · cases halias : aliasCall field T with
      | some T'' =>
        rw [halias] at h
        cases h
        exact Or.inr rfl
      | none =>
        rw [halias] at h
        cases hresult : firstResult ops field memory T with
        | none => simp [hresult] at h
        | some v => simp [hresult] at h

theorem settles_of_not_misnamed (h : ¬ Misnamed field) (T : ArithType) :
    Settles ops field T := by
  by_cases hvalue : field.value = none
  · exact ⟨1, .value (getDefaultValue ops T), by rw [getData, activation, hvalue]⟩
  have htype : ∀ A, fieldAggregate field = some A →
      field.fieldMeta.FieldType = A.resultType := by
    intro A hA
    apply Decidable.byContradiction
    intro hne
    exact h ⟨hvalue, A, hA, hne⟩
  have halias : ∀ T T', aliasCall field T = some T' →
      ∃ A, fieldAggregate field = some A ∧ T' = A.accessor := by
    intro T T' hcall
    rw [aliasCall_eq] at hcall
    cases hA : fieldAggregate field with
    | none => simp [hA] at hcall
    | some A =>
      simp only [hA] at hcall
      split at hcall
      · cases hcall
      · cases hcall
        exact ⟨A, rfl, rfl⟩
  have haccessor : ∀ A, fieldAggregate field = some A → Settles ops field A.accessor := by
    intro A hA
    apply settles_of_not_calls
    intro T' hcall
    rcases activation_calls_cases ops hcall with ⟨heq, _⟩ | hcall
    · cases A <;> cases heq
    · rw [aliasCall_eq, hA] at hcall
      simp only [htype A hA, and_self, ↓reduceIte] at hcall
      cases hcall
  have hother : ∀ T, T ≠ .uint32 → Settles ops field T := by
    intro T hT
    by_cases hcalls : ∃ T', activation ops field T = .calls T'
    · obtain ⟨T', hcall⟩ := hcalls
      rcases activation_calls_cases ops hcall with ⟨heq, _⟩ | hname
      · exact absurd heq hT
      · obtain ⟨A, hA, rfl⟩ := halias T T' hname
        exact settles_of_calls ops hcall (haccessor A hA)
    · exact settles_of_not_calls ops (not_exists.mp hcalls)
  by_cases hcalls : ∃ T', activation ops field T = .calls T'
  · obtain ⟨T', hcall⟩ := hcalls
    apply settles_of_calls ops hcall
    rcases activation_calls_cases ops hcall with ⟨_, rfl⟩ | hname
    · exact hother .int32 (by decide)
    · obtain ⟨A, hA, rfl⟩ := halias T T' hname
      exact haccessor A hA
  · exact settles_of_not_calls ops (not_exists.mp hcalls)

theorem getData_misnamed (h : Misnamed field) (fuel : Nat) (T : ArithType) :
    getData ops field fuel T = none := by
  induction fuel generalizing T with
  | zero => rfl
  | succ fuel ih =>
    obtain ⟨T', hcall⟩ := activation_calls ops h T
    rw [getData, hcall]
    simp only [ih T', Option.map_none]

/-- An access returns, or aborts, unless the alias is an aggregate function of
another type than the column has: then the instantiation for it calls itself. -/
theorem getData_terminates_iff (field : DataField) (T : ArithType) :
    (∃ fuel outcome, getData ops field fuel T = some outcome) ↔
      (field.value = none ∨ ∀ A, fieldAggregate field = some A →
        field.fieldMeta.FieldType = A.resultType) := by
  constructor
  · rintro ⟨fuel, outcome, hreturn⟩
    apply Decidable.byContradiction
    intro hnot
    rw [not_or] at hnot
    obtain ⟨hvalue, htypes⟩ := hnot
    have hmisnamed : Misnamed field := by
      refine ⟨hvalue, ?_⟩
      cases hA : fieldAggregate field with
      | none => exact absurd (fun A h => by rw [hA] at h; cases h) htypes
      | some A =>
        refine ⟨A, rfl, fun htype => htypes ?_⟩
        intro A' hA'
        cases hA.symm.trans hA'
        exact htype
    rw [getData_misnamed ops hmisnamed] at hreturn
    cases hreturn
  · intro hfits
    apply settles_of_not_misnamed
    rintro ⟨hvalue, A, hA, htype⟩
    rcases hfits with hnone | htypes
    · exact hvalue hnone
    · exact htype (htypes A hA)

end returns

/-- The sum of a `DOUBLE` column, which the server gives as a `DOUBLE`. -/
def doubleSum : DataField where
  value := some (text "1.5")
  raw := false
  fieldMeta := ⟨text "orders", text "SUM(price)", .Double⟩

/-- Arithmetic on no numbers at all. -/
def unitOps : FloatOps Unit where
  one := ()
  stringToFloat _ := some ()
  ofBytes _ := ()
  ofInt _ := ()
  toFloat _ := ()
  toInt _ _ := none
  isZero _ := false

theorem doubleSum_not_read :
    ¬ ∃ fuel outcome, getData unitOps doubleSum fuel .double = some outcome := by
  rintro ⟨fuel, outcome, hreturn⟩
  have hsum : fieldAggregate doubleSum = some .sumOrAvg := by decide
  rw [getData_misnamed unitOps ⟨by decide, _, hsum, by decide⟩] at hreturn
  cases hreturn

end Mpool.Database
