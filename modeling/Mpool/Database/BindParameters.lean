import Mpool.Database.FieldTypes
import Mpool.Lib.Bytes
import Mpool.Lib.OwnedSlots

/-! `MySQLPreparedStatement.cpp`: the parameters of a statement in its array of
`MYSQL_BIND`s, which is used again for every execution. What is only logged is left
out. -/

namespace Mpool.Database

/-- The types the template of `SetParameter` is used at. -/
inductive NumberType where
  | uint8
  | uint16
  | uint32
  | uint64
  | int8
  | int16
  | int32
  | int64
  | float
  | double
  deriving DecidableEq

namespace NumberType

def size : NumberType → Nat
  | uint8 | int8 => 1
  | uint16 | int16 => 2
  | uint32 | int32 | float => 4
  | uint64 | int64 | double => 8

/-- `std::is_unsigned_v`. -/
def isUnsigned : NumberType → Bool
  | uint8 | uint16 | uint32 | uint64 => true
  | _ => false

/-- `MySQLType<T>::value`. -/
def mySQLType : NumberType → EnumFieldTypes
  | uint8 | int8 => .MYSQL_TYPE_TINY
  | uint16 | int16 => .MYSQL_TYPE_SHORT
  | uint32 | int32 => .MYSQL_TYPE_LONG
  | uint64 | int64 => .MYSQL_TYPE_LONGLONG
  | float => .MYSQL_TYPE_FLOAT
  | double => .MYSQL_TYPE_DOUBLE

end NumberType

/-- The variant. A number is given by the bits of its representation. -/
inductive PreparedStatementData where
  | bool (value : Bool)
  | number (T : NumberType) (bits : BitVec (8 * T.size))
  | string (value : Bytes)
  | vector (value : Bytes)
  | nullptr

/-- The two members of a `MYSQL_BIND` that own memory. -/
inductive BindPointer where
  | buffer
  | length
  deriving DecidableEq

/-- The other members the setters write; `is_null` is never set. -/
structure MySQLBind where
  buffer_type : EnumFieldTypes
  buffer_length : Nat
  is_unsigned : Bool
  is_null_value : Bool

/-- The binds, with their pointers as slots. -/
structure BindState where
  paramCount : Nat
  slots : OwnedSlots Bytes (Nat × BindPointer)
  bind : Nat → MySQLBind

namespace BindState

/-- The constructor: the array is all zero bytes. -/
def new (paramCount : Nat) : BindState where
  paramCount := paramCount
  slots := .empty
  bind _ := ⟨.MYSQL_TYPE_DECIMAL, 0, false, false⟩

/-! ## The setters

`none` is a failed `ASSERT`, or a `delete` of what is not there. -/

def assertValidIndex (s : BindState) (index : Nat) : Option Unit :=
  if index < s.paramCount then some () else none

/-- `SetParameter<T>`; it drops the pointer to the length and does not delete it. -/
def setNumber (s : BindState) (index : Nat) (T : NumberType) (bits : Nat) : Option BindState := do
  s.assertValidIndex index
  let slots ← s.slots.replace (index, .buffer) (Bytes.encode T.size bits)
  some { s with
    slots := slots.forget (index, .length)
    bind := Function.update s.bind index {
      buffer_type := T.mySQLType
      buffer_length := 0
      is_unsigned := T.isUnsigned
      is_null_value := false } }

def setNull (s : BindState) (index : Nat) : Option BindState := do
  s.assertValidIndex index
  let slots ← s.slots.release (index, .buffer)
  let slots ← slots.release (index, .length)
  some { s with
    slots := slots
    bind := Function.update s.bind index { s.bind index with
      buffer_type := .MYSQL_TYPE_NULL
      buffer_length := 0
      is_null_value := true } }

/-- The setters of `std::string` and of `std::vector<uint8>`, which differ in the type. -/
def setBytes (s : BindState) (index : Nat) (type : EnumFieldTypes) (value : Bytes) :
    Option BindState := do
  s.assertValidIndex index
  let len := value.length % 2 ^ 32
  let slots ← s.slots.replace (index, .buffer) (value.take len)
  let slots ← slots.replace (index, .length) (Bytes.encode 8 len)
  some { s with
    slots := slots
    bind := Function.update s.bind index { s.bind index with
      buffer_type := type
      buffer_length := len
      is_null_value := false } }

/-- `SetParameter`, as `std::visit` chooses it. -/
def setParameter (s : BindState) (index : Nat) : PreparedStatementData → Option BindState
  | .bool value => s.setNumber index .uint8 (if value then 1 else 0)
  | .number T bits => s.setNumber index T bits.toNat
  | .string value => s.setBytes index .MYSQL_TYPE_VAR_STRING value
  | .vector value => s.setBytes index .MYSQL_TYPE_BLOB value
  | .nullptr => s.setNull index

/-- The loop of `BindParameters` from a position on, and the position it ends with. -/
def bindFrom (s : BindState) (pos : Nat) : List PreparedStatementData → Option (BindState × Nat)
  | [] => some (s, pos)
  | data :: parameters => do
    let s ← s.setParameter pos data
    s.bindFrom ((pos + 1) % 2 ^ 8) parameters

def bindParameters (s : BindState) (parameters : List PreparedStatementData) :
    Option (BindState × Nat) :=
  s.bindFrom 0 parameters

def clearParameter (s : BindState) (i : Nat) : Option BindState := do
  let slots ← s.slots.release (i, .length)
  let slots ← slots.release (i, .buffer)
  some { s with slots }

def clearParameters (s : BindState) : Option BindState :=
  (List.range s.paramCount).foldlM clearParameter s

end BindState

/-- What `MySQLConnection` calls on a statement between two executions. -/
inductive StatementCall where
  | bindParameters (parameters : List PreparedStatementData)
  | clearParameters

namespace BindState

def call (s : BindState) : StatementCall → Option BindState
  | .bindParameters parameters => (s.bindParameters parameters).map Prod.fst
  | .clearParameters => s.clearParameters

/-- The calls all return. -/
def calls (s : BindState) (history : List StatementCall) : Option BindState :=
  history.foldlM call s

end BindState

/-! ## What the client library reads -/

/-- A bind with what its pointers point to. -/
structure BindView where
  bind : MySQLBind
  buffer : Option Bytes
  length : Option Bytes

def BindState.view (s : BindState) (i : Nat) : BindView :=
  ⟨s.bind i, s.slots.content (i, .buffer), s.slots.content (i, .length)⟩

/-- The C type of a number; a floating-point type has no `is_unsigned`. -/
def numberType : EnumFieldTypes → Bool → Option NumberType
  | .MYSQL_TYPE_TINY, unsigned => some (if unsigned then .uint8 else .int8)
  | .MYSQL_TYPE_SHORT, unsigned => some (if unsigned then .uint16 else .int16)
  | .MYSQL_TYPE_LONG, unsigned => some (if unsigned then .uint32 else .int32)
  | .MYSQL_TYPE_LONGLONG, unsigned => some (if unsigned then .uint64 else .int64)
  | .MYSQL_TYPE_FLOAT, _ => some .float
  | .MYSQL_TYPE_DOUBLE, _ => some .double
  | _, _ => none

namespace BindView

/-- The first `count` bytes of the buffer; `none` is a read outside of it. -/
def read (v : BindView) (count : Nat) : Option Bytes :=
  v.buffer.bind fun buffer => if count ≤ buffer.length then some (buffer.take count) else none

/-- `*length`, or `buffer_length` behind a null pointer. -/
def dataLength (v : BindView) : Nat :=
  match v.length with
  | some length => Bytes.value length
  | none => v.bind.buffer_length

/-- The value of the parameter. Both null indications have to say the same. -/
def decode (v : BindView) : Option PreparedStatementData :=
  match v.bind.buffer_type, v.bind.is_null_value with
  | .MYSQL_TYPE_NULL, true => some .nullptr
  | .MYSQL_TYPE_VAR_STRING, false => (v.read v.dataLength).map .string
  | .MYSQL_TYPE_BLOB, false => (v.read v.dataLength).map .vector
  | type, false =>
    (numberType type v.bind.is_unsigned).bind fun T =>
      (v.read T.size).map fun bytes => .number T (BitVec.ofNat _ (Bytes.value bytes))
  | _, true => none

/-- The view without the sign of a type that has none. -/
def significant (v : BindView) : BindView :=
  match v.bind.buffer_type with
  | .MYSQL_TYPE_TINY | .MYSQL_TYPE_SHORT | .MYSQL_TYPE_LONG | .MYSQL_TYPE_LONGLONG => v
  | _ => { v with bind := { v.bind with is_unsigned := false } }

end BindView

namespace PreparedStatementData

/-- The server has no `bool`. -/
def received : PreparedStatementData → PreparedStatementData
  | .bool value => .number .uint8 (if value then 1 else 0)
  | data => data

/-- The length fits the `uint32`. -/
def Fits : PreparedStatementData → Prop
  | .string value | .vector value => value.length < 2 ^ 32
  | _ => True

/-- What is bound for a value, the value alone. -/
def bound : PreparedStatementData → BindView
  | .bool value =>
    ⟨⟨.MYSQL_TYPE_TINY, 0, true, false⟩, some (Bytes.encode 1 (if value then 1 else 0)), none⟩
  | .number T bits =>
    ⟨⟨T.mySQLType, 0, T.isUnsigned, false⟩, some (Bytes.encode T.size bits.toNat), none⟩
  | .string value =>
    ⟨⟨.MYSQL_TYPE_VAR_STRING, value.length, false, false⟩, some value,
      some (Bytes.encode 8 value.length)⟩
  | .vector value =>
    ⟨⟨.MYSQL_TYPE_BLOB, value.length, false, false⟩, some value,
      some (Bytes.encode 8 value.length)⟩
  | .nullptr => ⟨⟨.MYSQL_TYPE_NULL, 0, false, true⟩, none, none⟩

end PreparedStatementData

/-! ## Decoding what is bound for a value -/

/-- The sign is read for the integer types only. -/
theorem BindView.decode_significant (v : BindView) : v.significant.decode = v.decode := by
  obtain ⟨⟨type, len, unsigned, isNull⟩, buffer, length⟩ := v
  cases type <;> cases isNull <;> rfl

theorem numberType_mySQLType (T : NumberType) : numberType T.mySQLType T.isUnsigned = some T := by
  cases T <;> rfl

theorem BindView.decode_number (T : NumberType) (n : Nat) (h : n < 256 ^ T.size) :
    decode ⟨⟨T.mySQLType, 0, T.isUnsigned, false⟩, some (Bytes.encode T.size n), none⟩ =
      some (.number T (BitVec.ofNat _ n)) := by
  have hread : read ⟨⟨T.mySQLType, 0, T.isUnsigned, false⟩, some (Bytes.encode T.size n), none⟩
      T.size = some (Bytes.encode T.size n) := by
    simp [read, List.take_of_length_le]
  have hdecode : ∀ v : BindView, v.bind.buffer_type = T.mySQLType → v.bind.is_null_value = false →
      v.decode = (numberType T.mySQLType v.bind.is_unsigned).bind fun T =>
        (v.read T.size).map fun bytes => .number T (BitVec.ofNat _ (Bytes.value bytes)) := by
    intro v htype hnull
    rw [decode, htype, hnull]
    cases T <;> rfl
  rw [hdecode _ rfl rfl, numberType_mySQLType, Option.bind_some, hread, Option.map_some,
    Bytes.value_encode h]

/-- A buffer is read to the length that is kept beside it. -/
theorem BindView.read_dataLength {v : BindView} {value : Bytes} (hbuffer : v.buffer = some value)
    (hlength : v.length = some (Bytes.encode 8 value.length)) (h : value.length < 2 ^ 32) :
    v.read v.dataLength = some value := by
  have hvalue : Bytes.value (Bytes.encode 8 value.length) = value.length :=
    Bytes.value_encode (lt_trans h (by norm_num))
  simp only [read, dataLength, hbuffer, hlength, hvalue, Option.bind_some, le_refl, if_true,
    List.take_length]

theorem PreparedStatementData.decode_bound (data : PreparedStatementData) (h : data.Fits) :
    data.bound.decode = some data.received := by
  cases data with
  | bool value =>
    have hdecode := BindView.decode_number .uint8 (if value then 1 else 0)
      (by cases value <;> decide)
    cases value <;> exact hdecode
  | number T bits =>
    have hbits : bits.toNat < 256 ^ T.size := by
      have hpow : (2 : Nat) ^ (8 * T.size) = 256 ^ T.size := by rw [pow_mul]; rfl
      exact hpow ▸ bits.isLt
    rw [bound, BindView.decode_number T _ hbits, BitVec.ofNat_toNat, BitVec.setWidth_eq]
    rfl
  | string value =>
    rw [Fits] at h
    simp only [bound, BindView.decode, received]
    rw [BindView.read_dataLength rfl rfl h, Option.map_some]
  | vector value =>
    rw [Fits] at h
    simp only [bound, BindView.decode, received]
    rw [BindView.read_dataLength rfl rfl h, Option.map_some]
  | nullptr => rfl

/-! ## What one setter does -/

namespace BindState

/-- The setter changes the bind of `index`, to `v`, and no other. -/
structure Stored (s s' : BindState) (index : Nat) (v : BindView) : Prop where
  sound : s'.slots.Sound
  count : s'.paramCount = s.paramCount
  here : s'.view index = v
  elsewhere : ∀ j, j ≠ index → s'.view j = s.view j

variable {s : BindState}

theorem Stored.of_content {s' : BindState} {index : Nat} {bind : MySQLBind}
    {buffer length : Option Bytes} (hsound : s'.slots.Sound)
    (hcount : s'.paramCount = s.paramCount)
    (hbind : s'.bind = Function.update s.bind index bind)
    (hcontent : s'.slots.content = Function.update
      (Function.update s.slots.content (index, .buffer) buffer) (index, .length) length) :
    Stored s s' index ⟨bind, buffer, length⟩ where
  sound := hsound
  count := hcount
  here := by simp [view, hbind, hcontent]
  elsewhere j hj := by simp [view, hbind, hcontent, hj]

theorem setNumber_stored (hs : s.slots.Sound) {index : Nat} (hindex : index < s.paramCount)
    (T : NumberType) (bits : Nat) :
    ∃ s', s.setNumber index T bits = some s' ∧ Stored s s' index
      ⟨⟨T.mySQLType, 0, T.isUnsigned, false⟩, some (Bytes.encode T.size bits), none⟩ := by
  obtain ⟨slots, hreplace, hslots, hcontent⟩ :=
    hs.replace (index, .buffer) (Bytes.encode T.size bits)
  have hvalid : s.assertValidIndex index = some () := if_pos hindex
  refine ⟨_, by rw [setNumber, hvalid, hreplace]; rfl, ?_⟩
  refine .of_content (hslots.forget _) rfl rfl ?_
  rw [OwnedSlots.content_forget, hcontent]

theorem setNull_stored (hs : s.slots.Sound) {index : Nat} (hindex : index < s.paramCount) :
    ∃ s', s.setNull index = some s' ∧ Stored s s' index
      ⟨⟨.MYSQL_TYPE_NULL, 0, (s.bind index).is_unsigned, true⟩, none, none⟩ := by
  obtain ⟨slots, hbuffer, hslots, hcontent⟩ := hs.release (index, .buffer)
  obtain ⟨slots', hlength, hslots', hcontent'⟩ := hslots.release (index, .length)
  have hvalid : s.assertValidIndex index = some () := if_pos hindex
  refine ⟨_, by simp only [setNull, hvalid, hbuffer, hlength, Option.bind_eq_bind,
    Option.bind_some]; rfl, ?_⟩
  refine .of_content hslots' rfl rfl ?_
  rw [hcontent', hcontent]

theorem setBytes_stored (hs : s.slots.Sound) {index : Nat} (hindex : index < s.paramCount)
    (type : EnumFieldTypes) (value : Bytes) :
    ∃ s', s.setBytes index type value = some s' ∧ Stored s s' index
      ⟨⟨type, value.length % 2 ^ 32, (s.bind index).is_unsigned, false⟩,
        some (value.take (value.length % 2 ^ 32)),
        some (Bytes.encode 8 (value.length % 2 ^ 32))⟩ := by
  obtain ⟨slots, hbuffer, hslots, hcontent⟩ :=
    hs.replace (index, .buffer) (value.take (value.length % 2 ^ 32))
  obtain ⟨slots', hlength, hslots', hcontent'⟩ :=
    hslots.replace (index, .length) (Bytes.encode 8 (value.length % 2 ^ 32))
  have hvalid : s.assertValidIndex index = some () := if_pos hindex
  refine ⟨_, by simp only [setBytes, hvalid, hbuffer, hlength, Option.bind_eq_bind,
    Option.bind_some]; rfl, ?_⟩
  refine .of_content hslots' rfl rfl ?_
  rw [hcontent', hcontent]

/-- The setter of a value stores that value, whatever the bind held before; the sign it
leaves alone is not read. -/
theorem setParameter_stored (hs : s.slots.Sound) {index : Nat} (hindex : index < s.paramCount)
    (data : PreparedStatementData) :
    ∃ s' v, s.setParameter index data = some s' ∧ Stored s s' index v ∧
      (data.Fits → v.significant = data.bound) := by
  cases data with
  | bool value =>
    obtain ⟨s', hset, hstored⟩ := setNumber_stored hs hindex .uint8 (if value then 1 else 0)
    exact ⟨s', _, hset, hstored, fun _ => rfl⟩
  | number T bits =>
    obtain ⟨s', hset, hstored⟩ := setNumber_stored hs hindex T bits.toNat
    exact ⟨s', _, hset, hstored, fun _ => by cases T <;> rfl⟩
  | string value =>
    obtain ⟨s', hset, hstored⟩ := setBytes_stored hs hindex .MYSQL_TYPE_VAR_STRING value
    refine ⟨s', _, hset, hstored, fun hfits => ?_⟩
    rw [PreparedStatementData.Fits] at hfits
    simp only [Nat.mod_eq_of_lt hfits, List.take_length, BindView.significant,
      PreparedStatementData.bound]
  | vector value =>
    obtain ⟨s', hset, hstored⟩ := setBytes_stored hs hindex .MYSQL_TYPE_BLOB value
    refine ⟨s', _, hset, hstored, fun hfits => ?_⟩
    rw [PreparedStatementData.Fits] at hfits
    simp only [Nat.mod_eq_of_lt hfits, List.take_length, BindView.significant,
      PreparedStatementData.bound]
  | nullptr =>
    obtain ⟨s', hset, hstored⟩ := setNull_stored hs hindex
    exact ⟨s', _, hset, hstored, fun _ => rfl⟩

/-- Behind the last parameter the assertion fails. -/
theorem setParameter_eq_none {index : Nat} (hindex : ¬ index < s.paramCount)
    (data : PreparedStatementData) : s.setParameter index data = none := by
  cases data <;>
    simp [setParameter, setNumber, setBytes, setNull, assertValidIndex, hindex]

/-! ## What the calls before leave -/

/-- The state of a statement for `n` parameters between two calls. -/
structure Ready (n : Nat) (s : BindState) : Prop where
  sound : s.slots.Sound
  count : s.paramCount = n

theorem ready_new (n : Nat) : Ready n (new n) := ⟨OwnedSlots.sound_empty, rfl⟩

theorem Ready.bindFrom {n : Nat} {parameters : List PreparedStatementData} {pos : Nat}
    {result : BindState × Nat} (hs : Ready n s) (h : s.bindFrom pos parameters = some result) :
    Ready n result.1 := by
  induction parameters generalizing s pos with
  | nil =>
    obtain rfl := Option.some.inj h
    exact hs
  | cons data parameters ih =>
    by_cases hindex : pos < s.paramCount
    · obtain ⟨s', v, hset, hstored, -⟩ := setParameter_stored hs.sound hindex data
      rw [BindState.bindFrom, hset] at h
      exact ih ⟨hstored.sound, hstored.count.trans hs.count⟩ h
    · rw [BindState.bindFrom, setParameter_eq_none hindex] at h
      cases h

theorem Ready.clearParameter {n : Nat} (hs : Ready n s) (i : Nat) :
    ∃ s', s.clearParameter i = some s' ∧ Ready n s' := by
  obtain ⟨slots, hlength, hslots, -⟩ := hs.sound.release (i, .length)
  obtain ⟨slots', hbuffer, hslots', -⟩ := hslots.release (i, .buffer)
  exact ⟨{ s with slots := slots' }, by simp [BindState.clearParameter, hlength, hbuffer],
    ⟨hslots', hs.count⟩⟩

theorem Ready.clearLoop {n : Nat} (hs : Ready n s) (indices : List Nat) :
    ∃ s', indices.foldlM BindState.clearParameter s = some s' ∧ Ready n s' := by
  induction indices generalizing s with
  | nil => exact ⟨s, rfl, hs⟩
  | cons i indices ih =>
    obtain ⟨s', hclear, hs'⟩ := hs.clearParameter i
    obtain ⟨s'', hloop, hs''⟩ := ih hs'
    exact ⟨s'', by rw [List.foldlM_cons, hclear]; exact hloop, hs''⟩

/-- `ClearParameters` never fails. -/
theorem Ready.clearParameters {n : Nat} (hs : Ready n s) :
    ∃ s', s.clearParameters = some s' ∧ Ready n s' :=
  hs.clearLoop _

theorem Ready.call {n : Nat} {s' : BindState} (hs : Ready n s) {call : StatementCall}
    (h : s.call call = some s') : Ready n s' := by
  cases call with
  | bindParameters parameters =>
    obtain ⟨result, hresult, rfl⟩ := Option.map_eq_some_iff.mp h
    exact hs.bindFrom hresult
  | clearParameters =>
    obtain ⟨cleared, hclear, hcleared⟩ := hs.clearParameters
    rw [BindState.call, hclear] at h
    exact Option.some.inj h ▸ hcleared

theorem Ready.calls {n : Nat} {s' : BindState} (hs : Ready n s) {history : List StatementCall}
    (h : s.calls history = some s') : Ready n s' := by
  induction history generalizing s with
  | nil =>
    obtain rfl := Option.some.inj h
    exact hs
  | cons call history ih =>
    obtain ⟨next, hcall, hrest⟩ := Option.bind_eq_some_iff.mp h
    exact ih (hs.call hcall) hrest

/-! ## The whole loop -/

/-- From `pos` on the loop binds one value behind the other and leaves the binds before
alone. -/
theorem Ready.bindFrom_stored {n : Nat} (hs : Ready n s) (hn : n ≤ 254)
    (parameters : List PreparedStatementData) (pos : Nat) (hpos : pos + parameters.length ≤ n) :
    ∃ s', s.bindFrom pos parameters = some (s', pos + parameters.length) ∧
      (∀ j < pos, s'.view j = s.view j) ∧
      ∀ i (hi : i < parameters.length), parameters[i].Fits →
        (s'.view (pos + i)).significant = parameters[i].bound := by
  induction parameters generalizing s pos with
  | nil => exact ⟨s, rfl, fun _ _ => rfl, fun i hi => absurd hi (Nat.not_lt_zero i)⟩
  | cons data parameters ih =>
    rw [List.length_cons] at hpos
    have hindex : pos < s.paramCount := by rw [hs.count]; omega
    have hnext : (pos + 1) % 2 ^ 8 = pos + 1 := Nat.mod_eq_of_lt (by omega)
    obtain ⟨s₁, v, hset, hstored, hv⟩ := setParameter_stored hs.sound hindex data
    have hs₁ : Ready n s₁ := ⟨hstored.sound, hstored.count.trans hs.count⟩
    obtain ⟨s', hloop, hbefore, hbound⟩ := ih hs₁ (pos + 1) (by omega)
    refine ⟨s', ?_, fun j hj => ?_, fun i hi hfits => ?_⟩
    · rw [BindState.bindFrom, hset]
      change s₁.bindFrom ((pos + 1) % 2 ^ 8) parameters = _
      rw [hnext, hloop, List.length_cons, Nat.add_right_comm, Nat.add_assoc]
    · rw [hbefore j (by omega), hstored.elsewhere j (by omega)]
    · cases i with
      | zero =>
        rw [Nat.add_zero, hbefore pos (Nat.lt_succ_self pos), hstored.here]
        exact hv hfits
      | succ i =>
        have hadd : pos + (i + 1) = pos + 1 + i := by omega
        rw [hadd]
        exact hbound i (Nat.lt_of_succ_lt_succ hi) hfits

end BindState

/-- Whatever the statement was bound to before, the client library finds in each bind the
value that is bound now and nothing else, and the position does not wrap. -/
theorem parameters_bound {n : Nat} (hn : n ≤ 254) {history : List StatementCall} {s : BindState}
    (hhistory : (BindState.new n).calls history = some s)
    {parameters : List PreparedStatementData} (hcount : parameters.length = n)
    (hfits : ∀ data ∈ parameters, data.Fits) :
    ∃ s', s.bindParameters parameters = some (s', n) ∧
      ∀ i (hi : i < parameters.length),
        (s'.view i).decode = some parameters[i].received ∧
          (s'.view i).significant = parameters[i].bound := by
  have hs : BindState.Ready n s := (BindState.ready_new n).calls hhistory
  obtain ⟨s', hloop, -, hbound⟩ := hs.bindFrom_stored hn parameters 0 (by omega)
  refine ⟨s', by rw [BindState.bindParameters, hloop, Nat.zero_add, hcount], fun i hi => ?_⟩
  have hi' := hfits _ (List.getElem_mem hi)
  have hsignificant := hbound i hi hi'
  rw [Nat.zero_add] at hsignificant
  refine ⟨?_, hsignificant⟩
  rw [← BindView.decode_significant, hsignificant, PreparedStatementData.decode_bound _ hi']

/-- A number and a string, the other way round without a clear between, a clear, and then a
zero byte in a blob behind a null. -/
theorem parameters_bound_blob :
    ∃ s, (BindState.new 2).calls
        [.bindParameters [.number .uint32 5, .string [97, 98]],
          .bindParameters [.string [], .number .int8 (-1)], .clearParameters] = some s ∧
      ∃ s', s.bindParameters [.nullptr, .vector [0, 1, 0]] = some (s', 2) ∧
        (s'.view 0).decode = some .nullptr ∧ (s'.view 1).decode = some (.vector [0, 1, 0]) := by
  have hs : (BindState.new 2).calls
      [.bindParameters [.number .uint32 5, .string [97, 98]],
        .bindParameters [.string [], .number .int8 (-1)], .clearParameters] = some _ := rfl
  have hfits : ∀ data ∈ [.nullptr, .vector [0, 1, 0]], PreparedStatementData.Fits data := by
    simp [PreparedStatementData.Fits]
  obtain ⟨s', hloop, hdecode⟩ := parameters_bound (by decide) hs rfl hfits
  exact ⟨_, hs, s', hloop, (hdecode 0 (by decide)).1, (hdecode 1 (by decide)).1⟩

end Mpool.Database
