import Mathlib.Tactic.NormNum
import Mathlib.Tactic.Positivity
import Mathlib.Tactic.Zify
import Mpool.Common.DecimalText
import Mpool.Database.FieldTypes

/-! An integer column over the two protocols: as decimal text, which is parsed for
the accessor's type, and as bytes, which are taken for a value of that type. The
text is refused where the type cannot hold the number; the bytes never are. -/

namespace Mpool.Database

open Util (text stringEqualI)

/-- The integer types of a column. -/
inductive IntegerType where
  | TINYINT
  | SMALLINT
  | YEAR
  | MEDIUMINT
  | INT
  | BIGINT
  deriving DecidableEq

namespace IntegerType

def enumType : IntegerType → EnumFieldTypes
  | TINYINT => .MYSQL_TYPE_TINY
  | SMALLINT => .MYSQL_TYPE_SHORT
  | YEAR => .MYSQL_TYPE_YEAR
  | MEDIUMINT => .MYSQL_TYPE_INT24
  | INT => .MYSQL_TYPE_LONG
  | BIGINT => .MYSQL_TYPE_LONGLONG

def bits : IntegerType → Nat
  | TINYINT => 8
  | SMALLINT | YEAR => 16
  | MEDIUMINT => 24
  | INT => 32
  | BIGINT => 64

/-- The numbers a column of the type can store. -/
def Stores (type : IntegerType) (isUnsigned : Bool) (v : Int) : Prop :=
  if isUnsigned then 0 ≤ v ∧ v < 2 ^ type.bits
  else -2 ^ (type.bits - 1) ≤ v ∧ v < 2 ^ (type.bits - 1)

/-- The accessors that the table in `Field.h` lists for the type. -/
def guideline : IntegerType → List ArithType
  | TINYINT => [.bool, .int8, .uint8]
  | SMALLINT | YEAR => [.int16, .uint16]
  | MEDIUMINT | INT => [.int32, .uint32]
  | BIGINT => [.int64, .uint64]

end IntegerType

/-- The numbers of an integer type. -/
def ArithType.Holds (T : ArithType) (v : Int) : Prop :=
  if T.isSigned then -2 ^ (8 * T.size - 1) ≤ v ∧ v < 2 ^ (8 * T.size - 1)
  else 0 ≤ v ∧ v < 2 ^ (8 * T.size)

def ArithType.isInteger : ArithType → Bool
  | .bool | .float | .double => false
  | _ => true

def IsDbcTable (tableName : Bytes) : Prop :=
  4 < tableName.length ∧ tableName.drop (tableName.length - 4) = text "_dbc"

/-- The field that `ResultSet` fills: the text with its terminating zero. -/
def textField (fieldMeta : QueryResultFieldMetadata) (s behind : Bytes) : DataField :=
  ⟨some (s ++ 0 :: behind), false, fieldMeta⟩

/-- The field that `PreparedResultSet` fills: the number in `size` bytes. -/
def binaryField (fieldMeta : QueryResultFieldMetadata) (size : Nat) (v : Int) (behind : Bytes) :
    DataField :=
  ⟨some (Bytes.encode size (v % 256 ^ size).toNat ++ behind), true, fieldMeta⟩

/-! ## Parsing -/

theorem cString_text {v : Int} {s : Bytes} (h : IsDecimalText v s) (behind : Bytes) :
    cString (s ++ 0 :: behind) = s := by
  have hno : ∀ c ∈ s, decide (c ≠ 0) = true := by
    intro c hc
    apply decide_eq_true
    rintro rfl
    obtain ⟨digits, _, hdigits, ⟨rfl, _⟩ | ⟨rfl, _⟩⟩ := h
    · exact absurd (hdigits 0 hc) (by decide)
    · rcases List.mem_cons.mp hc with hzero | hzero
      · cases hzero
      · exact absurd (hdigits 0 hzero) (by decide)
  rw [cString, List.takeWhile_append_of_pos hno, List.takeWhile_cons_of_neg (by decide),
    List.append_nil]

section accessors

variable {F : Type} (ops : FloatOps F)

theorem stringTo?_integer {T : ArithType} (hT : T.isInteger = true) (s : Bytes) :
    stringTo? ops T s = if T.isSigned then (stringToSigned (8 * T.size) s).map .int
      else (stringTo (8 * T.size) s).map fun n : Nat => .int n := by
  cases T <;> first | exact absurd hT Bool.false_ne_true | rfl

/-- An integer accessor takes the text of the numbers its type holds. -/
theorem stringTo?_of_decimal {v : Int} {s : Bytes} (h : IsDecimalText v s) {T : ArithType}
    (hT : T.isInteger = true) :
    (T.Holds v → stringTo? ops T s = some (.int v)) ∧
      (¬ T.Holds v → stringTo? ops T s = none) := by
  unfold ArithType.Holds
  have hsigned := stringToSigned_of_decimal h (8 * T.size)
  have hunsigned := stringTo_of_decimal h (8 * T.size)
  rw [stringTo?_integer ops hT]
  by_cases hsign : T.isSigned = true
  · rw [if_pos hsign, if_pos hsign, hsigned]
    exact ⟨fun hin => by rw [if_pos hin]; rfl, fun hout => by rw [if_neg hout]; rfl⟩
  · rw [if_neg hsign, if_neg hsign, hunsigned]
    refine ⟨fun hin => ?_, fun hout => by rw [if_neg hout]; rfl⟩
    rw [if_pos hin, Option.map_some, Int.toNat_of_nonneg hin.1]

theorem aliasCall_none {field : DataField} (h : (40 : UInt8) ∉ field.fieldMeta.Alias)
    (T : ArithType) : aliasCall field T = none := by
  rw [aliasCall, getCleanAliasName, if_neg h, ite_self]

theorem wrap_eq_of_holds {T : ArithType} {v : Int} (h : T.Holds v) : T.wrap v = v := by
  unfold ArithType.Holds at h
  unfold ArithType.wrap
  split
  · next hsign =>
    rw [if_pos hsign] at h
    have hpow : ((2 ^ (8 * T.size) : Nat) : Int) = 2 ^ (8 * T.size - 1) * 2 := by
      have hsize : 8 * T.size = 8 * T.size - 1 + 1 := by cases T <;> rfl
      rw [hsize, Nat.add_sub_cancel]
      push_cast
      rw [pow_succ]
    apply Int.bmod_eq_of_le_mul_two
    · rw [hpow]
      omega
    · rw [hpow]
      omega
  · next hsign =>
    rw [if_neg hsign] at h
    exact Int.emod_eq_of_lt h.1 h.2

theorem wrap_emod (T : ArithType) (v : Int) :
    T.wrap ((v % 256 ^ T.size).toNat : Int) = T.wrap v := by
  have hpow : ((2 ^ (8 * T.size) : Nat) : Int) = 256 ^ T.size := by
    rw [pow_mul]
    norm_num
  have hnonneg : 0 ≤ v % 256 ^ T.size := Int.emod_nonneg v (by positivity)
  rw [Int.toNat_of_nonneg hnonneg, ArithType.wrap, ArithType.wrap]
  split
  · rw [← hpow, Int.emod_bmod]
  · have hcast : (2 : Int) ^ (8 * T.size) = 256 ^ T.size := by exact_mod_cast hpow
    rw [hcast, Int.emod_emod_of_dvd v (dvd_refl _)]

theorem readBytes_encode (size : Nat) (v : Int) (behind : Bytes) :
    Bytes.value (readBytes (Bytes.encode size (v % 256 ^ size).toNat ++ behind) size) =
      (v % 256 ^ size).toNat := by
  have hnonneg : 0 ≤ v % 256 ^ size := Int.emod_nonneg v (by positivity)
  have hlt : (v % 256 ^ size).toNat < 256 ^ size := by
    have hmod : v % 256 ^ size < 256 ^ size := Int.emod_lt_of_pos v (by positivity)
    zify
    rw [Int.toNat_of_nonneg hnonneg]
    exact hmod
  have htake : readBytes (Bytes.encode size (v % 256 ^ size).toNat ++ behind) size =
      Bytes.encode size (v % 256 ^ size).toNat := by
    rw [readBytes, List.append_assoc]
    exact List.take_left' (Bytes.length_encode _ _)
  rw [htake, Bytes.value_encode hlt]

/-- An integer accessor of the width of the column reads any bytes. -/
theorem readRaw_integer {T : ArithType} (hT : T.isInteger = true) (v : Int) (behind : Bytes) :
    readRaw ops (Bytes.encode T.size (v % 256 ^ T.size).toNat ++ behind) T =
      .int (T.wrap v) := by
  have hvalue := readBytes_encode T.size v behind
  have heq : readRaw ops (Bytes.encode T.size (v % 256 ^ T.size).toNat ++ behind) T =
      .int (T.wrap (Bytes.value (readBytes
        (Bytes.encode T.size (v % 256 ^ T.size).toNat ++ behind) T.size))) := by
    cases T <;> first | exact absurd hT Bool.false_ne_true | rfl
  rw [heq, hvalue, wrap_emod]

theorem isDbcNumber_iff {v : Int} {s : Bytes} (h : IsDecimalText v s)
    (fieldMeta : QueryResultFieldMetadata) (behind : Bytes) (result : Option (ArithValue F)) :
    isDbcNumber (textField fieldMeta s behind) (s ++ 0 :: behind) result = true ↔
      IsDbcTable fieldMeta.TableName ∧ ArithType.int32.Holds v ∧ result = none := by
  have hint : (stringToSigned 32 s).isSome = true ↔ ArithType.int32.Holds v := by
    rw [stringToSigned_of_decimal h]
    change _ ↔ -2 ^ (32 - 1) ≤ v ∧ v < 2 ^ (32 - 1)
    split
    · next hin => exact ⟨fun _ => hin, fun _ => rfl⟩
    · next hout => exact ⟨fun hsome => absurd hsome Bool.false_ne_true, fun hin => absurd hin hout⟩
  unfold isDbcNumber IsDbcTable
  rw [cString_text h]
  simp only [textField, Bool.and_eq_true, hint, Option.isNone_iff_eq_none]
  constructor
  · rintro ⟨⟨⟨hlong, hholds⟩, hnone⟩, hsuffix⟩
    exact ⟨⟨of_decide_eq_true hlong, of_decide_eq_true hsuffix⟩, hholds, hnone⟩
  · rintro ⟨⟨hlong, hsuffix⟩, hholds, hnone⟩
    exact ⟨⟨⟨decide_eq_true hlong, hholds⟩, hnone⟩, decide_eq_true hsuffix⟩

/-- An activation that calls no other one decides what is returned. -/
theorem getData_of_activation {field : DataField} {T : ArithType} {x : ArithValue F}
    (h : activation ops field T = .returns x) (y : ArithValue F) :
    (∃ fuel, getData ops field fuel T = some (.value y)) ↔ x = y := by
  constructor
  · rintro ⟨fuel, hget⟩
    cases fuel with
    | zero => cases hget
    | succ fuel =>
      rw [getData, h] at hget
      cases hget
      rfl
  · rintro rfl
    exact ⟨1, by rw [getData, h]⟩

theorem getData_of_aborts {field : DataField} {T : ArithType}
    (h : activation ops field T = .aborts) (y : ArithValue F) :
    ¬ ∃ fuel, getData ops field fuel T = some (.value y) := by
  rintro ⟨fuel, hget⟩
  cases fuel with
  | zero => cases hget
  | succ fuel =>
    rw [getData, h] at hget
    cases hget

/-- An activation without an aggregate in the alias. -/
theorem activation_plain {field : DataField} {memory : Bytes} (hvalue : field.value = some memory)
    (halias : (40 : UInt8) ∉ field.fieldMeta.Alias) (T : ArithType) :
    activation ops field T =
      if (decide (T = .uint32) && isDbcNumber field memory (firstResult ops field memory T)) = true
      then .calls .int32
      else match firstResult ops field memory T with
        | none => .aborts
        | some x => .returns x := by
  cases hresult : firstResult ops field memory T with
  | none => simp only [activation, hvalue, hresult, aliasCall_none halias]
  | some x => simp only [activation, hvalue, hresult, aliasCall_none halias]

section text

variable {v : Int} {s : Bytes} (h : IsDecimalText v s) {fieldMeta : QueryResultFieldMetadata}
  (halias : (40 : UInt8) ∉ fieldMeta.Alias) (behind : Bytes) {T : ArithType}

include h

theorem firstResult_text (hT : T ≠ .double) :
    firstResult ops (textField fieldMeta s behind) (s ++ 0 :: behind) T = stringTo? ops T s := by
  rw [firstResult, if_neg hT, cString_text h]
  exact if_neg Bool.false_ne_true

include halias

theorem activation_text_value (hT : T ≠ .double) {x : ArithValue F}
    (hparse : stringTo? ops T s = some x) :
    activation ops (textField fieldMeta s behind) T = .returns x := by
  have hnumber : ¬ (isDbcNumber (textField fieldMeta s behind) (s ++ 0 :: behind)
      (some x) = true) := by
    rw [isDbcNumber_iff h]
    rintro ⟨_, _, hnone⟩
    cases hnone
  rw [activation_plain ops rfl halias, firstResult_text ops h behind hT, hparse, if_neg]
  intro hboth
  exact hnumber (Bool.and_eq_true_iff.mp hboth).2

theorem activation_text_aborts (hT : T ≠ .double) (hparse : stringTo? ops T s = none)
    (hplain : ¬ (T = .uint32 ∧ IsDbcTable fieldMeta.TableName)) :
    activation ops (textField fieldMeta s behind) T = .aborts := by
  rw [activation_plain ops rfl halias, firstResult_text ops h behind hT, hparse, if_neg]
  intro hboth
  obtain ⟨huint, hnumber⟩ := Bool.and_eq_true_iff.mp hboth
  rw [isDbcNumber_iff h] at hnumber
  exact hplain ⟨of_decide_eq_true huint, hnumber.1⟩

/-- The exception for a negative number in a `_dbc` table. -/
theorem activation_text_dbc (hparse : stringTo? ops .uint32 s = none)
    (htable : IsDbcTable fieldMeta.TableName) (hint : ArithType.int32.Holds v) :
    activation ops (textField fieldMeta s behind) .uint32 = .calls .int32 := by
  have hnumber : isDbcNumber (textField fieldMeta s behind) (s ++ 0 :: behind)
      (none : Option (ArithValue F)) = true :=
    (isDbcNumber_iff h fieldMeta behind none).mpr ⟨htable, hint, rfl⟩
  rw [activation_plain ops rfl halias, firstResult_text ops h behind (by decide), hparse, if_pos]
  rw [hnumber]
  rfl

end text

/-- Bytes are read without a look at what they are. -/
theorem activation_binary {fieldMeta : QueryResultFieldMetadata}
    (halias : (40 : UInt8) ∉ fieldMeta.Alias) (v : Int) (behind : Bytes) {T : ArithType}
    (hT : T ≠ .double) :
    activation ops (binaryField fieldMeta T.size v behind) T =
      .returns (readRaw ops (Bytes.encode T.size (v % 256 ^ T.size).toNat ++ behind) T) := by
  have hfirst : firstResult ops (binaryField fieldMeta T.size v behind)
      (Bytes.encode T.size (v % 256 ^ T.size).toNat ++ behind) T =
        some (readRaw ops (Bytes.encode T.size (v % 256 ^ T.size).toNat ++ behind) T) := by
    rw [firstResult, if_neg hT]
    rfl
  rw [activation_plain ops rfl halias, hfirst, if_neg]
  rw [isDbcNumber]
  simp

/-- The texts that an accessor takes for its own. -/
def TakesText (T : ArithType) (tableName : Bytes) (v : Int) (s : Bytes) : Prop :=
  if T = .bool then s = text "0" ∨ s = text "1"
  else T.Holds v ∨ (T = .uint32 ∧ IsDbcTable tableName)

theorem guideline_cases {type : IntegerType} {T : ArithType} (h : T ∈ type.guideline) :
    (T = .bool ∨ T.isInteger = true) ∧ T ≠ .double := by
  cases type <;> simp only [IntegerType.guideline, List.mem_cons, List.not_mem_nil, or_false] at h
    <;> obtain rfl | rfl | rfl := h <;> simp [ArithType.isInteger]

/-- The buffer of a column is as wide as the accessors listed for it. -/
theorem guideline_size {type : IntegerType} {T : ArithType} (h : T ∈ type.guideline)
    (timeSize max_length : Nat) : sizeForType timeSize ⟨type.enumType, max_length⟩ = T.size := by
  cases type <;> simp only [IntegerType.guideline, List.mem_cons, List.not_mem_nil, or_false] at h
    <;> obtain rfl | rfl | rfl := h <;> rfl

/-- A stored number that `uint32` cannot hold is a negative `int32`. -/
theorem int32_holds {type : IntegerType} {isUnsigned : Bool} {v : Int}
    (hstores : type.Stores isUnsigned v) (hT : ArithType.uint32 ∈ type.guideline)
    (hout : ¬ ArithType.uint32.Holds v) : ArithType.int32.Holds v := by
  change ¬ (0 ≤ v ∧ v < 2 ^ 32) at hout
  change -2 ^ 31 ≤ v ∧ v < 2 ^ 31
  cases type <;> first | exact absurd hT (by decide) | skip
  all_goals
    cases isUnsigned
    all_goals
      simp only [IntegerType.Stores, IntegerType.bits, Bool.false_eq_true, ↓reduceIte] at hstores
      omega

theorem readRaw_bool {v : Int} (h : v = 0 ∨ v = 1) (behind : Bytes) :
    readRaw ops (Bytes.encode ArithType.bool.size (v % 256 ^ ArithType.bool.size).toNat ++ behind)
      .bool = .bool (v = 1) := by
  have hvalue := readBytes_encode ArithType.bool.size v behind
  unfold readRaw
  simp only [hvalue]
  rcases h with rfl | rfl <;> rfl

theorem decimal_text_bool {v : Int} {s : Bytes} (h : IsDecimalText v s) :
    (s = text "0" → v = 0) ∧ (s = text "1" → v = 1) := by
  obtain ⟨digits, _, _, ⟨rfl, rfl⟩ | ⟨rfl, rfl, _⟩⟩ := h
  · exact ⟨fun hs => by rw [hs]; rfl, fun hs => by rw [hs]; rfl⟩
  · exact ⟨fun hs => absurd (List.cons.inj hs).1 (by decide),
      fun hs => absurd (List.cons.inj hs).1 (by decide)⟩

theorem stringTo?_bool {v : Int} {s : Bytes} (h : IsDecimalText v s) :
    (s = text "0" ∨ s = text "1" → stringTo? ops .bool s = some (.bool (v = 1))) ∧
      (¬ (s = text "0" ∨ s = text "1") → stringTo? ops .bool s = none) := by
  have hbool := stringToBool_of_decimal h
  rw [show stringTo? ops .bool s = (stringToBool s).map .bool from rfl, hbool]
  constructor
  · rintro (rfl | rfl)
    · rw [(decimal_text_bool h).1 rfl]
      rfl
    · rw [(decimal_text_bool h).2 rfl]
      rfl
  · intro hneither
    rw [not_or] at hneither
    rw [if_neg hneither.2, if_neg hneither.1]
    rfl

/-- What both paths return for a text the accessor takes. -/
theorem getData_agree {type : IntegerType} {isUnsigned : Bool} {v : Int} {s : Bytes}
    {T : ArithType} (hstores : type.Stores isUnsigned v) (h : IsDecimalText v s)
    (hT : T ∈ type.guideline) {fieldMeta : QueryResultFieldMetadata}
    (halias : (40 : UInt8) ∉ fieldMeta.Alias) (behind : Bytes)
    (hfits : TakesText T fieldMeta.TableName v s) (behind' : Bytes) :
    ∃ fuel, getData ops (textField fieldMeta s behind) fuel T =
      some (.value (readRaw ops
        (Bytes.encode T.size (v % 256 ^ T.size).toNat ++ behind') T)) := by
  obtain ⟨hbool | hint, hdouble⟩ := guideline_cases hT
  · subst hbool
    rw [TakesText, if_pos rfl] at hfits
    have hbit : v = 0 ∨ v = 1 :=
      hfits.imp (decimal_text_bool h).1 (decimal_text_bool h).2
    rw [readRaw_bool ops hbit]
    have hvalue := activation_text_value ops h halias behind hdouble
      ((stringTo?_bool ops h).1 hfits)
    exact (getData_of_activation ops hvalue _).mpr rfl
  · have hnotbool : T ≠ .bool := by
      rintro rfl
      exact Bool.false_ne_true hint
    rw [TakesText, if_neg hnotbool] at hfits
    rw [readRaw_integer ops hint]
    by_cases hholds : T.Holds v
    · rw [wrap_eq_of_holds hholds]
      exact (getData_of_activation ops (activation_text_value ops h halias behind hdouble
        ((stringTo?_of_decimal ops h hint).1 hholds)) _).mpr rfl
    · -- the call goes on as `int32`, whose value is converted back
      obtain ⟨rfl, htable⟩ := hfits.resolve_left hholds
      have hint32 := int32_holds hstores hT hholds
      have hcall := activation_text_dbc ops h halias behind
        ((stringTo?_of_decimal ops h hint).2 hholds) htable hint32
      have hvalue := activation_text_value ops h halias behind (T := .int32) (by decide)
        ((stringTo?_of_decimal ops h rfl).1 hint32)
      refine ⟨2, ?_⟩
      rw [getData, hcall]
      simp only [getData, hvalue]
      rfl

/-- For a number of the column, in its two forms, a listed accessor returns the same
value just when it takes the text: `bool` takes `0` and `1`, another type the
numbers it holds, and `uint32` any number of a `_dbc` table. -/
theorem integer_column_agrees_iff {type : IntegerType} {isUnsigned : Bool} {v : Int} {s : Bytes}
    {T : ArithType} (hstores : type.Stores isUnsigned v) (h : IsDecimalText v s)
    (hT : T ∈ type.guideline) (TableName : Bytes) {Alias : Bytes}
    (halias : (40 : UInt8) ∉ Alias) (timeSize max_length : Nat) (behind behind' : Bytes) :
    let fieldMeta := ⟨TableName, Alias, mysqlTypeToFieldType type.enumType⟩
    let size := sizeForType timeSize ⟨type.enumType, max_length⟩
    (∃ x fuel fuel', getData ops (textField fieldMeta s behind) fuel T = some (.value x) ∧
        getData ops (binaryField fieldMeta size v behind') fuel' T = some (.value x)) ↔
      TakesText T TableName v s := by
  intro fieldMeta size
  have hsize : size = T.size := guideline_size hT timeSize max_length
  have hplain : (40 : UInt8) ∉ fieldMeta.Alias := halias
  have hbinary := activation_binary ops hplain v behind' (guideline_cases hT).2
  rw [hsize]
  constructor
  · rintro ⟨x, fuel, _, htext, _⟩
    apply Classical.byContradiction
    intro hfits
    obtain ⟨hbool | hint, hdouble⟩ := guideline_cases hT
    · subst hbool
      rw [TakesText, if_pos rfl] at hfits
      have haborts := activation_text_aborts ops h hplain behind hdouble
        ((stringTo?_bool ops h).2 hfits) (fun huint => by cases huint.1)
      exact getData_of_aborts ops haborts x ⟨fuel, htext⟩
    · have hnotbool : T ≠ .bool := by
        rintro rfl
        exact Bool.false_ne_true hint
      rw [TakesText, if_neg hnotbool, not_or] at hfits
      have haborts := activation_text_aborts ops h hplain behind hdouble
        ((stringTo?_of_decimal ops h hint).2 hfits.1) hfits.2
      exact getData_of_aborts ops haborts x ⟨fuel, htext⟩
  · intro hfits
    obtain ⟨fuel, htext⟩ := getData_agree ops hstores h hT hplain behind hfits behind'
    obtain ⟨fuel', hraw⟩ := (getData_of_activation ops hbinary _).mpr rfl
    exact ⟨_, fuel, fuel', htext, hraw⟩

end accessors

/-- A column `id` of a table. -/
def idColumn (TableName : Bytes) (type : IntegerType) : QueryResultFieldMetadata :=
  ⟨TableName, text "id", mysqlTypeToFieldType type.enumType⟩

theorem dbc_number_agrees :
    ∃ x fuel fuel',
      getData unitOps (textField (idColumn (text "map_dbc") .INT) (text "-1") []) fuel .uint32 =
        some (.value x) ∧
      getData unitOps (binaryField (idColumn (text "map_dbc") .INT) 4 (-1) []) fuel' .uint32 =
        some (.value x) := by
  have hstores : IntegerType.INT.Stores false (-1) := by
    change -2 ^ 31 ≤ (-1 : Int) ∧ (-1 : Int) < 2 ^ 31
    decide
  have htext : IsDecimalText (-1) (text "-1") := ⟨text "1", by decide +kernel⟩
  have hplain : (40 : UInt8) ∉ text "id" := by decide
  have htable : IsDbcTable (text "map_dbc") := ⟨by decide, by decide⟩
  exact (integer_column_agrees_iff unitOps hstores htext (T := .uint32) (by decide)
    (text "map_dbc") hplain 40 11 [] []).mpr (Or.inr ⟨rfl, htable⟩)

/-- The text of an unsigned number is refused where the bytes are taken for -56. -/
theorem unsigned_tinyint_differs :
    IntegerType.TINYINT.Stores true 200 ∧ IsDecimalText 200 (text "200") ∧
      ArithType.int8 ∈ IntegerType.TINYINT.guideline ∧
      getData unitOps (textField (idColumn (text "map") .TINYINT) (text "200") []) 1 .int8 =
        some .abort ∧
      getData unitOps (binaryField (idColumn (text "map") .TINYINT) 1 200 []) 1 .int8 =
        some (.value (.int (-56))) := by
  refine ⟨⟨by decide, by decide⟩, ⟨text "200", by decide +kernel⟩, by decide, ?_, ?_⟩
  · decide
  · decide

end Mpool.Database
