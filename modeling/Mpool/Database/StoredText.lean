import Mpool.Database.ResultCursor
import Mpool.Database.StoredRows

/-! The rows of a table over the text protocol, from the server's text of each value to the
getters. What is bound comes back as over the binary protocol, but for the floating-point
numbers, which are parsed in single precision. -/

namespace Mpool.Database

open Calls

namespace PreparedStatementData

/-- The server's text of a stored value. That of a floating-point number is left open, but
for its characters. -/
def SentAs : PreparedStatementData → Option Bytes → Prop
  | .bool value, cell => cell = some (Decimal.integer (if value then 1 else 0))
  | .number T bits, cell =>
    if T.arithType.isInteger then
      cell = some (Decimal.integer (if T.isUnsigned then (bits.toNat : Int) else bits.toInt))
    else ∃ text, cell = some text ∧ (0 : UInt8) ∉ text
  | .string value, cell | .vector value, cell => cell = some value
  | .nullptr, cell => cell = none

/-- The text of a floating-point number, parsed as a `float`, is the number. -/
def ParsesBack {F : Type} (ops : FloatOps F) : PreparedStatementData → Option Bytes → Prop
  | .number T bits, cell => T.arithType.isInteger = false →
    cell.bind ops.stringToFloat = some (ops.ofBytes (Bytes.encode T.size bits.toNat))
  | _, _ => True

end PreparedStatementData

/-- The reply sends the rows of the table. -/
structure TextReply.Selects (t : TextReply) (table : List (List PreparedStatementData)) :
    Prop where
  queried : t.queried = true
  store_result : t.store_result = true
  affected_rows : t.affected_rows = table.length
  rows : t.rows.length = table.length
  columns : ∀ (row : Nat) (hrow : row < table.length), table[row].length = t.field_count
  sent : ∀ (row : Nat) (hrow : row < table.length) (hrow' : row < t.rows.length),
    ∃ lengths, t.rows[row].lengths = some lengths ∧
      ∀ (i : Nat) (hi : i < table[row].length), table[row][i].SentAs (t.rows[row].row i) ∧
        lengths i = ((t.rows[row].row i).getD []).length

/-- The `Field` for its getters: the pointer leads to the text and its terminating zero. -/
def Field.textData (field : Field) (fieldMeta : QueryResultFieldMetadata) (behind : Bytes) :
    SizedField where
  value := field.value.map (· ++ 0 :: behind)
  raw := field.raw
  fieldMeta := fieldMeta
  length := field.length

/-! ## Parsing the text of a value -/

theorem NumberType.holds_value {T : NumberType} (hT : T.arithType.isInteger = true)
    (bits : BitVec (8 * T.size)) :
    T.arithType.Holds (if T.isUnsigned then (bits.toNat : Int) else bits.toInt) := by
  have hholds : ∀ v, T.arithType.Holds v = if T.isUnsigned then 0 ≤ v ∧ v < 2 ^ (8 * T.size)
      else -2 ^ (8 * T.size - 1) ≤ v ∧ v < 2 ^ (8 * T.size - 1) := by
    intro v
    cases T <;> first | exact absurd hT Bool.false_ne_true | rfl
  rw [hholds]
  cases T.isUnsigned with
  | true =>
    have hlt : (bits.toNat : Int) < 2 ^ (8 * T.size) := by exact_mod_cast bits.isLt
    exact ⟨Int.natCast_nonneg _, hlt⟩
  | false => exact ⟨BitVec.le_toInt bits, BitVec.toInt_lt⟩

theorem readBytes_text (text behind : Bytes) :
    readBytes (text ++ 0 :: behind) text.length = text := by
  rw [readBytes, List.append_assoc, List.take_left]

section reading

variable {F : Type} (ops : FloatOps F)

/-- An accessor that parses the text returns its number. -/
theorem getData_text {v : Int} {text : Bytes} (h : IsDecimalText v text)
    {fieldMeta : QueryResultFieldMetadata} (halias : (40 : UInt8) ∉ fieldMeta.Alias)
    (behind : Bytes) {T : ArithType} (hT : T ≠ .double) {x : ArithValue F}
    (hparse : stringTo? ops T text = some x) :
    getData ops (textField fieldMeta text behind) 1 T = some (.value x) := by
  rw [getData, activation_text_value ops h halias behind hT hparse]

/-- A floating-point accessor, `double` too, returns the `float` of the text. -/
theorem getData_floatText {text : Bytes} (htext : (0 : UInt8) ∉ text)
    {fieldMeta : QueryResultFieldMetadata} (halias : (40 : UInt8) ∉ fieldMeta.Alias)
    (behind : Bytes) {T : ArithType} (hT : T = .float ∨ T = .double) (x : F) :
    getData ops (textField fieldMeta text behind) 1 T = some (.value (.float x)) ↔
      ops.stringToFloat text = some x := by
  have hstring : cString (text ++ 0 :: behind) = text := by
    rw [cString, List.takeWhile_append_of_pos, List.takeWhile_cons_of_neg (by decide),
      List.append_nil]
    intro c hc
    exact decide_eq_true fun hzero => htext (hzero ▸ hc)
  have hfirst : firstResult ops (textField fieldMeta text behind) (text ++ 0 :: behind) T =
      (ops.stringToFloat text).map .float := by
    unfold firstResult
    rw [hstring]
    rcases hT with rfl | rfl <;> rfl
  have huint : decide (T = .uint32) = false := by rcases hT with rfl | rfl <;> rfl
  have hactivation : activation ops (textField fieldMeta text behind) T =
      (ops.stringToFloat text).elim .aborts fun x => .returns (.float x) := by
    rw [activation_plain ops rfl halias, hfirst, huint, Bool.false_and,
      if_neg Bool.false_ne_true]
    cases ops.stringToFloat text <;> rfl
  rw [getData, hactivation]
  cases ops.stringToFloat text with
  | none => simp
  | some y => simp

theorem textData_some (fieldMeta : QueryResultFieldMetadata) (behind : Bytes) {field : Field}
    (hraw : field.raw = false) {text : Bytes} (hvalue : field.value = some text) :
    (field.textData fieldMeta behind).toDataField = textField fieldMeta text behind ∧
      (field.textData fieldMeta behind).isNull = false := by
  simp [Field.textData, textField, SizedField.isNull, hvalue, hraw]

theorem textData_bytes (fieldMeta : QueryResultFieldMetadata) (behind : Bytes) {field : Field}
    (hlength : field.length = (field.value.getD []).length % 2 ^ 32) {text : Bytes}
    (hvalue : field.value = some text) (hsmall : text.length < 2 ^ 32) :
    (field.textData fieldMeta behind).bytes = text ∧
      (field.textData fieldMeta behind).length = text.length := by
  have hfield : (field.textData fieldMeta behind).length = text.length := by
    change field.length = text.length
    rw [hlength, hvalue]
    exact Nat.mod_eq_of_lt hsmall
  exact ⟨SizedField.bytes_eq (by rw [Field.textData, hvalue]; rfl) hfield
    (readBytes_text text behind), hfield⟩

theorem integer_bool (value : Bool) :
    Decimal.integer (if value then 1 else 0) = Util.text "0" ∨
      Decimal.integer (if value then 1 else 0) = Util.text "1" := by
  cases value with
  | true =>
    right
    rw [Decimal.integer, if_neg (by decide)]
    exact Decimal.numeral_of_lt (n := 1) (by decide)
  | false =>
    left
    rw [Decimal.integer, if_neg (by decide)]
    exact Decimal.numeral_of_lt (n := 0) (by decide)

theorem readBack_bool {fieldMeta : QueryResultFieldMetadata}
    (halias : (40 : UInt8) ∉ fieldMeta.Alias) (behind : Bytes) {field : Field}
    (hraw : field.raw = false) {value : Bool}
    (hsent : (PreparedStatementData.bool value).SentAs field.value) :
    (PreparedStatementData.bool value).ReadBack ops (field.textData fieldMeta behind) := by
  obtain ⟨htext, hnull⟩ := textData_some fieldMeta behind hraw hsent
  have hdecimal := isDecimalText_integer (if value then 1 else 0)
  have hparse : stringTo? ops .bool (Decimal.integer (if value then 1 else 0)) =
      some (.bool value) := by
    rw [(stringTo?_bool ops hdecimal).1 (integer_bool value)]
    cases value <;> rfl
  have hget := getData_text ops hdecimal halias behind (by decide) hparse
  rw [← htext] at hget
  exact ⟨hnull, hget⟩

theorem readBack_integer {fieldMeta : QueryResultFieldMetadata}
    (halias : (40 : UInt8) ∉ fieldMeta.Alias) (behind : Bytes) {field : Field}
    (hraw : field.raw = false) {T : NumberType} {bits : BitVec (8 * T.size)}
    (hT : T.arithType.isInteger = true)
    (hsent : (PreparedStatementData.number T bits).SentAs field.value) :
    (PreparedStatementData.number T bits).ReadBack ops (field.textData fieldMeta behind) := by
  simp only [PreparedStatementData.SentAs, hT, if_true] at hsent
  obtain ⟨htext, hnull⟩ := textData_some fieldMeta behind hraw hsent
  have hdecimal := isDecimalText_integer
    (if T.isUnsigned then (bits.toNat : Int) else bits.toInt)
  have hdouble : T.arithType ≠ .double := by
    intro heq
    rw [heq] at hT
    cases hT
  have hparse := (stringTo?_of_decimal ops hdecimal hT).1 (NumberType.holds_value hT bits)
  have hget := getData_text ops hdecimal halias behind hdouble hparse
  rw [← htext, ← NumberType.arithValue_integer ops hT] at hget
  exact ⟨hnull, hget⟩

theorem readBack_float {fieldMeta : QueryResultFieldMetadata}
    (halias : (40 : UInt8) ∉ fieldMeta.Alias) (behind : Bytes) {field : Field}
    (hraw : field.raw = false) {T : NumberType} {bits : BitVec (8 * T.size)}
    (hT : T.arithType.isInteger = false)
    (hsent : (PreparedStatementData.number T bits).SentAs field.value) :
    (PreparedStatementData.number T bits).ReadBack ops (field.textData fieldMeta behind) ↔
      (PreparedStatementData.number T bits).ParsesBack ops field.value := by
  simp only [PreparedStatementData.SentAs, hT, Bool.false_eq_true, if_false] at hsent
  obtain ⟨text, hvalue, hzero⟩ := hsent
  obtain ⟨htext, hnull⟩ := textData_some fieldMeta behind hraw hvalue
  have hfloat : T.arithType = .float ∨ T.arithType = .double := by
    cases T <;> simp [NumberType.arithType, ArithType.isInteger] at hT ⊢
  have hget := getData_floatText ops hzero halias behind hfloat
    (ops.ofBytes (Bytes.encode T.size bits.toNat))
  rw [← htext, ← NumberType.arithValue_float ops hT] at hget
  simp only [PreparedStatementData.ReadBack, PreparedStatementData.ParsesBack, hnull, hget, hT,
    hvalue, Option.bind_some, true_and, forall_const]

/-- The getters find in the `Field` of a text the value it was made of. -/
theorem readBack_text {fieldMeta : QueryResultFieldMetadata}
    (halias : (40 : UInt8) ∉ fieldMeta.Alias) (behind : Bytes) {field : Field}
    (hraw : field.raw = false) {data : PreparedStatementData} (hfits : data.Fits)
    (hsent : data.SentAs field.value)
    (hlength : field.length = (field.value.getD []).length % 2 ^ 32) :
    data.ReadBack ops (field.textData fieldMeta behind) ↔ data.ParsesBack ops field.value := by
  cases data with
  | bool value => exact ⟨fun _ => trivial, fun _ => readBack_bool ops halias behind hraw hsent⟩
  | number T bits =>
    cases hT : T.arithType.isInteger with
    | true =>
      constructor
      · intro _ hfloat
        rw [hT] at hfloat
        cases hfloat
      · exact fun _ => readBack_integer ops halias behind hraw hT hsent
    | false => exact readBack_float ops halias behind hraw hT hsent
  | string value =>
    obtain ⟨hread, -⟩ := textData_bytes fieldMeta behind hlength hsent hfits
    exact ⟨fun _ => trivial, fun _ => ⟨(textData_some fieldMeta behind hraw hsent).2, hread, hread⟩⟩
  | vector value =>
    obtain ⟨hread, hfield⟩ := textData_bytes fieldMeta behind hlength hsent hfits
    refine ⟨fun _ => trivial, fun _ => ⟨(textData_some fieldMeta behind hraw hsent).2, ?_, ?_⟩⟩
    · rw [SizedField.getDataBinary_eq, hread]
    · have hvalue : (field.textData fieldMeta behind).value.isSome = true := by
        simp [Field.textData, show field.value = some value from hsent]
      simp [SizedField.getBinarySizeChecked, hvalue, hfield, hread]
  | nullptr =>
    have hvalue : (field.textData fieldMeta behind).value = none := by
      simp [Field.textData, show field.value = none from hsent]
    have hnone : (field.textData fieldMeta behind).bytes = [] := by
      rw [SizedField.bytes, hvalue]
    refine ⟨fun _ => trivial, fun _ => ⟨by rw [SizedField.isNull, hvalue]; rfl,
      getData_null ops hvalue, hnone, hnone, ?_, ?_⟩⟩
    · rw [SizedField.getDataBinary_eq, hnone]
    · intro size
      simp [SizedField.getBinarySizeChecked, hvalue]

end reading

/-! ## The rows of the reply -/

theorem textRows_eq (fieldCount : Nat) {rows : List TextRow}
    (h : ∀ row ∈ rows, row.lengths.isSome = true) :
    textRows fieldCount rows =
      rows.map fun row => row.fields fieldCount (row.lengths.getD fun _ => 0) := by
  induction rows with
  | nil => rfl
  | cons row rows ih =>
    obtain ⟨lengths, hlengths⟩ := Option.isSome_iff_exists.mp (h row List.mem_cons_self)
    have hrest := ih fun row' hrow' => h row' (List.mem_cons_of_mem row hrow')
    simp only [textRows, hlengths, hrest, List.map_cons, Option.getD_some]

namespace TextReply

variable {t : TextReply} {table : List (List PreparedStatementData)}

theorem Selects.lengths (h : t.Selects table) : ∀ row ∈ t.rows, row.lengths.isSome = true := by
  intro row hrow
  obtain ⟨k, hk, rfl⟩ := List.getElem_of_mem hrow
  obtain ⟨lengths, hlengths, -⟩ := h.sent k (h.rows ▸ hk) hk
  rw [hlengths]
  rfl

/-- A table with rows gives a result, and the caller's loop sees the rows of the reply. -/
theorem Selects.loop (h : t.Selects table) (hrows : table ≠ []) :
    ∃ r, poolQueryText t = some r ∧
      callAll ResultSet.call r (Cursor.loopCalls table.length) =
        .ok (Cursor.loopAnswers (textRows t.field_count t.rows)) := by
  obtain ⟨row, rows, hcons⟩ : ∃ row rows, t.rows = row :: rows := by
    cases hcases : t.rows with
    | nil =>
      have hlength := h.rows
      rw [hcases] at hlength
      exact absurd (List.length_eq_zero_iff.mp hlength.symm) hrows
    | cons row rows => exact ⟨row, rows, rfl⟩
  obtain ⟨lengths, hlengths⟩ := Option.isSome_iff_exists.mp
    (h.lengths row (hcons ▸ List.mem_cons_self))
  have haffected : t.affected_rows ≠ 0 := by
    rw [h.affected_rows]
    exact fun hzero => hrows (List.length_eq_zero_iff.mp hzero)
  have hresult : (ResultSet.create t)._rowCount ≠ 0 := haffected
  have hmore : (ResultSet.create t).nextRow.2 = true := by
    simp [ResultSet.nextRow, ResultSet.create, hcons, hlengths]
  have hquery : poolQueryText t = some (ResultSet.create t).nextRow.1 := by
    simp [poolQueryText, queryText, h.queried, h.store_result, haffected, hresult, hmore]
  refine ⟨_, hquery, ?_⟩
  have hcount : table.length = (textRows t.field_count t.rows).length := by
    rw [textRows_eq t.field_count h.lengths, List.length_map, h.rows]
  rw [callAll_eq (fun _ _ h call => ResultSet.Stands.call h call)
    (ResultSet.stands_of_poolQueryText hquery), hcount, Cursor.callAll_loop]

/-- The `Field` that the loop finds in a cell. -/
theorem Selects.field (h : t.Selects table) {row : Nat} (hrow : row < table.length) {i : Nat}
    (hi : i < table[row].length) :
    ∃ cells field, (textRows t.field_count t.rows)[row]? = some cells ∧
      cells[i]? = some field ∧ field.metaIndex = some i ∧ field.raw = false ∧
      table[row][i].SentAs field.value ∧
      field.length = (field.value.getD []).length % 2 ^ 32 := by
  have hrow' : row < t.rows.length := h.rows ▸ hrow
  obtain ⟨lengths, hlengths, hcells⟩ := h.sent row hrow hrow'
  obtain ⟨hsent, hlength⟩ := hcells i hi
  have hcolumn : i < t.field_count := h.columns row hrow ▸ hi
  refine ⟨t.rows[row].fields t.field_count lengths,
    (Field.create.setMetadata i).setStructuredValue (t.rows[row].row i) (lengths i), ?_, ?_, rfl,
    rfl, hsent, ?_⟩
  · rw [textRows_eq t.field_count h.lengths, List.getElem?_map, List.getElem?_eq_getElem hrow',
      Option.map_some, hlengths, Option.getD_some]
  · simp [TextRow.fields, List.getElem?_range hcolumn]
  · change lengths i % 2 ^ 32 = _
    rw [hlength]
    rfl

end TextReply

/-- The text of a value is that of what the server received. -/
theorem PreparedStatementData.sentAs_received (data : PreparedStatementData) (cell : Option Bytes) :
    data.received.SentAs cell ↔ data.SentAs cell := by
  cases data with
  | bool value => cases value <;> exact Iff.rfl
  | number T bits => exact Iff.rfl
  | string value => exact Iff.rfl
  | vector value => exact Iff.rfl
  | nullptr => exact Iff.rfl

/-- The rows that a run of executions leaves, asked for as text: the caller's loop sees each
of them once, in order, and the getters read in each cell the value that was bound for it, a
floating-point number if and only if its text is the number when it is parsed as a `float`. -/
theorem text_rows_read_back {F : Type} (ops : FloatOps F) {n : Nat} (hn : n ≤ 254)
    {history : List StatementCall} {s : BindState}
    (hhistory : (BindState.new n).calls history = some s) {executions : List Execution}
    (hcount : ∀ e ∈ executions, e.parameters.length = n)
    (hfits : ∀ e ∈ executions, ∀ data ∈ e.parameters, data.Fits) :
    ∃ s', s.executeAll executions = some (s', storedRows executions) ∧
      ∀ t : TextReply, t.Selects (storedRows executions) → storedRows executions ≠ [] →
        ∃ r rows, poolQueryText t = some r ∧
          callAll ResultSet.call r (Cursor.loopCalls (storedRows executions).length) =
            .ok (Cursor.loopAnswers rows) ∧
          ∀ (fieldMeta : Nat → QueryResultFieldMetadata) (behind : Bytes),
            (∀ i, (40 : UInt8) ∉ (fieldMeta i).Alias) →
            ∀ (row : Nat) (hrow : row < (executions.filter Execution.succeeds).length) (i : Nat)
              (hi : i < (executions.filter Execution.succeeds)[row].parameters.length),
              ∃ cells field, rows[row]? = some cells ∧ cells[i]? = some field ∧
                field.metaIndex = some i ∧
                (((executions.filter Execution.succeeds)[row].parameters[i]).ReadBack ops
                    (field.textData (fieldMeta i) behind) ↔
                  ((executions.filter Execution.succeeds)[row].parameters[i]).ParsesBack ops
                    field.value) := by
  have hs : BindState.Ready n s := (BindState.ready_new n).calls hhistory
  obtain ⟨s', hall, -⟩ := hs.executeAll hn hcount hfits
  refine ⟨s', hall, fun t hselects hrows => ?_⟩
  obtain ⟨r, hquery, hloop⟩ := hselects.loop hrows
  refine ⟨r, _, hquery, hloop, fun fieldMeta behind halias row hrow i hi => ?_⟩
  have hrow' : row < (storedRows executions).length := by rwa [storedRows, List.length_map]
  have hi' : i < (storedRows executions)[row].length := by simpa [storedRows] using hi
  have hdata : (storedRows executions)[row][i] =
      (executions.filter Execution.succeeds)[row].parameters[i].received := by
    simp [storedRows]
  obtain ⟨cells, field, hcells, hfield, hmeta, hraw, hsent, hlength⟩ := hselects.field hrow' hi'
  rw [hdata, PreparedStatementData.sentAs_received] at hsent
  have hbound : (executions.filter Execution.succeeds)[row].parameters[i].Fits :=
    hfits _ (List.mem_filter.mp (List.getElem_mem hrow)).1 _ (List.getElem_mem hi)
  exact ⟨cells, field, hcells, hfield, hmeta,
    readBack_text ops (halias i) behind hraw hbound hsent hlength⟩

/-- The rows of `twoInserts` as text. -/
def twoTexts : TextReply where
  queried := true
  store_result := true
  affected_rows := 2
  field_count := 2
  rows := [⟨fun i => if i = 0 then some (Decimal.integer (-2)) else some [104, 105],
    some fun _ => 2⟩, ⟨fun i => if i = 0 then none else some [], some fun _ => 0⟩]

theorem twoTexts_selects : twoTexts.Selects (storedRows twoInserts) where
  queried := rfl
  store_result := rfl
  affected_rows := rfl
  rows := rfl
  columns := by decide
  sent row hrow hrow' := by
    have hlength : 2 = (Decimal.integer (-2)).length := by
      rw [Decimal.integer, if_pos (by decide), List.length_cons,
        Decimal.numeral_of_lt (n := (-2 : Int).natAbs) (by decide)]
      rfl
    have htwo : ∀ {i : Nat}, i < 2 → i = 0 ∨ i = 1 := fun hi => by omega
    rcases htwo hrow with rfl | rfl
    · refine ⟨fun _ => 2, rfl, fun i hi => ?_⟩
      rcases htwo hi with rfl | rfl
      · exact ⟨rfl, hlength⟩
      · exact ⟨rfl, rfl⟩
    · refine ⟨fun _ => 0, rfl, fun i hi => ?_⟩
      rcases htwo hi with rfl | rfl
      · exact ⟨rfl, rfl⟩
      · exact ⟨rfl, rfl⟩

theorem text_rows_read_back_twoTexts :
    ∃ r rows, poolQueryText twoTexts = some r ∧
      callAll ResultSet.call r (Cursor.loopCalls 2) = .ok (Cursor.loopAnswers rows) ∧
      ∃ cells field, rows[0]? = some cells ∧ cells[0]? = some field ∧
        getData unitOps (field.textData ⟨[], [], .Int16⟩ []).toDataField 1 .int16 =
          some (.value (.int (-2))) := by
  have hs : (BindState.new 2).calls [.bindParameters [.string [97], .string [98, 99]]] = some _ :=
    rfl
  have hfits : ∀ e ∈ twoInserts, ∀ data ∈ e.parameters, data.Fits := by
    simp [twoInserts, PreparedStatementData.Fits]
  obtain ⟨s', hall, hread⟩ := text_rows_read_back unitOps (by decide) hs (by decide) hfits
  obtain ⟨r, rows, hquery, hloop, hcell⟩ := hread twoTexts twoTexts_selects (by decide)
  obtain ⟨cells, field, hcells, hfield, -, hback⟩ :=
    hcell (fun _ => ⟨[], [], .Int16⟩) [] (fun _ => List.not_mem_nil) 0 (by decide) 0 (by decide)
  have hnumber := hback.mpr fun hfloat => by cases hfloat
  exact ⟨r, rows, hquery, hloop, cells, field, hcells, hfield, hnumber.2⟩

end Mpool.Database
