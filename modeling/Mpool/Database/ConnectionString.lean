import Mpool.Database.FieldAccess
import Mpool.Database.MySQLConnection
import Mpool.Database.MySQLConnectionInfo

/-! The first `MySQLConnection::Open` of a pool, from the `DatabaseInfo` string to what
it passes to the client library. -/

namespace Mpool.Database

open Util (text)

inductive SslMode where
  | SSL_MODE_DISABLED
  | SSL_MODE_REQUIRED
  deriving DecidableEq

/-- The options and the arguments of `mysql_real_connect`; an `ssl_mode` of `none` is not
set. -/
structure ConnectArguments where
  endpoint : Endpoint
  user : Bytes
  password : Bytes
  database : Bytes
  ssl_mode : Option SslMode
  deriving DecidableEq

/-- Whether `mysql_init` gives a handle, and the `mysql_errno` where
`mysql_real_connect` gives none. -/
structure ClientLibrary where
  mysql_init : Bool
  mysql_real_connect : ConnectArguments → Option Nat

/-- How `Open` ends: with its return value and what it passed before, or with `*` on an
empty `Optional`. -/
inductive OpenEnd where
  | returns (error : Nat) (passed : Option ConnectArguments)
  | emptyOptional
  deriving DecidableEq

def MySQLConnectionInfo.sslMode (info : MySQLConnectionInfo) : Option SslMode :=
  if info.ssl = [] then none
  else if info.ssl = text "ssl" then some .SSL_MODE_REQUIRED
  else some .SSL_MODE_DISABLED

/-- The strings go over as `c_str()`. -/
def MySQLConnectionInfo.connectArguments (info : MySQLConnectionInfo) (endpoint : Endpoint) :
    ConnectArguments where
  endpoint := { endpoint with
    host := cString endpoint.host
    unix_socket := endpoint.unix_socket.map cString }
  user := cString info.user
  password := cString info.password
  database := cString info.database
  ssl_mode := info.sslMode

/-- `Open` on a connection with this info. -/
def openWith (client : ClientLibrary) (info : MySQLConnectionInfo) : OpenEnd :=
  if client.mysql_init then
    match info.endpoint.2 with
    | none => .emptyOptional
    | some endpoint =>
      let arguments := info.connectArguments endpoint
      .returns ((client.mysql_real_connect arguments).getD 0) (some arguments)
  else .returns CR_UNKNOWN_ERROR none

/-- The first `Open` behind `SetConnectionInfo(infoString)`. -/
def firstOpen (client : ClientLibrary) (infoString : Bytes) : OpenEnd :=
  openWith client (.ofString infoString)

/-! ## What the string says -/

/-- The fields an operator writes, the last of them only for ssl. -/
structure InfoFields where
  host : Bytes
  port_or_socket : Bytes
  user : Bytes
  password : Bytes
  database : Bytes
  ssl : Option Bytes

namespace InfoFields

/-- The fields that are always there. -/
def required (fields : InfoFields) : List Bytes :=
  [fields.host, fields.port_or_socket, fields.user, fields.password, fields.database]

def toList (fields : InfoFields) : List Bytes := fields.required ++ fields.ssl.toList

/-- The string is the `;`-join of the fields, and no field has a `;`. -/
def Joined (fields : InfoFields) (infoString : Bytes) : Prop :=
  infoString = [59].intercalate fields.toList ∧ ∀ field ∈ fields.toList, 59 ∉ field

/-- A socket, or a host with a decimal `uint32`. -/
def PortGiven (fields : InfoFields) : Prop :=
  fields.host = text "." ∨ fields.port_or_socket ≠ [] ∧
    (∀ c ∈ fields.port_or_socket, isDigit c) ∧ decimal fields.port_or_socket < 2 ^ 32

def endpoint (fields : InfoFields) : Endpoint :=
  if fields.host = text "." then
    ⟨.MYSQL_PROTOCOL_SOCKET, text "localhost", 0, some fields.port_or_socket⟩
  else ⟨.default, fields.host, decimal fields.port_or_socket, none⟩

def sslMode (fields : InfoFields) : Option SslMode :=
  match fields.ssl.getD [] with
  | [] => none
  | ssl => if ssl = text "ssl" then some .SSL_MODE_REQUIRED else some .SSL_MODE_DISABLED

/-- What the client library is to get. -/
def arguments (fields : InfoFields) : ConnectArguments :=
  ⟨fields.endpoint, fields.user, fields.password, fields.database, fields.sslMode⟩

end InfoFields

/-- The string is well formed, with these fields. -/
def WellWritten (infoString : Bytes) (fields : InfoFields) : Prop :=
  fields.Joined infoString ∧ fields.PortGiven

/-- A well formed string gets through to the client library as it is, and any other is an
error. -/
structure OpensAsWritten (client : ClientLibrary) (infoString : Bytes) : Prop where
  passed : ∀ fields, WellWritten infoString fields → client.mysql_init = true →
    ∃ error, firstOpen client infoString = .returns error (some fields.arguments)
  refused : (¬ ∃ fields, WellWritten infoString fields) →
    ∃ error passed, error ≠ 0 ∧ firstOpen client infoString = .returns error passed

/-! ## The constructor -/

def InfoFields.info (fields : InfoFields) : MySQLConnectionInfo where
  user := fields.user
  password := fields.password
  database := fields.database
  host := fields.host
  port_or_socket := fields.port_or_socket
  ssl := fields.ssl.getD []

theorem InfoFields.joined_iff {fields : InfoFields} {infoString : Bytes} :
    fields.Joined infoString ↔ infoString.splitOn 59 = fields.toList := by
  constructor
  · rintro ⟨rfl, hapart⟩
    exact List.splitOn_intercalate 59 hapart (by simp [toList, required])
  · intro h
    refine ⟨?_, fun field hfield => ?_⟩
    · rw [← h, List.intercalate_splitOn]
    · exact not_mem_of_mem_splitOn (h ▸ hfield)

/-- The constructor reads the fields, or there are none to read. -/
theorem ofString_joined {fields : InfoFields} {infoString : Bytes}
    (h : fields.Joined infoString) :
    MySQLConnectionInfo.ofString infoString = fields.info := by
  rw [MySQLConnectionInfo.ofString, tokenize_eq_splitOn, InfoFields.joined_iff.mp h]
  obtain ⟨host, port_or_socket, user, password, database, ssl⟩ := fields
  cases ssl <;> rfl

theorem ofString_of_not_joined {infoString : Bytes}
    (h : ∀ fields : InfoFields, ¬ fields.Joined infoString) :
    MySQLConnectionInfo.ofString infoString = .empty := by
  simp only [InfoFields.joined_iff] at h
  rw [MySQLConnectionInfo.ofString, tokenize_eq_splitOn]
  split
  · rename_i host port_or_socket user password database htokens
    exact absurd htokens (h ⟨host, port_or_socket, user, password, database, none⟩)
  · rename_i host port_or_socket user password database ssl htokens
    exact absurd htokens (h ⟨host, port_or_socket, user, password, database, some ssl⟩)
  · rfl

theorem InfoFields.joined_unique {fields fields' : InfoFields} {infoString : Bytes}
    (h : fields.Joined infoString) (h' : fields'.Joined infoString) : fields = fields' := by
  have hlist : fields.toList = fields'.toList := by
    rw [← joined_iff.mp h, joined_iff.mp h']
  obtain ⟨host, port_or_socket, user, password, database, ssl⟩ := fields
  obtain ⟨host', port_or_socket', user', password', database', ssl'⟩ := fields'
  cases ssl <;> cases ssl' <;> simp_all [toList, required]

/-! ## The endpoint -/

theorem InfoFields.info_endpoint (fields : InfoFields) (h : fields.PortGiven) :
    fields.info.endpoint.2 = some fields.endpoint := by
  by_cases hhost : fields.host = text "."
  · rw [fields.info.endpoint_socket hhost, endpoint, if_pos hhost]
    rfl
  · obtain ⟨hne, hdigits, hbound⟩ := h.resolve_left hhost
    have hport : stringTo 32 fields.port_or_socket = some (decimal fields.port_or_socket) :=
      if_pos ⟨hne, List.all_eq_true.mpr hdigits, hbound⟩
    have hinfo : fields.info.host ≠ text "." := hhost
    have hinfoPort : fields.info.port_or_socket = fields.port_or_socket := rfl
    simp only [MySQLConnectionInfo.endpoint, if_neg hinfo, hinfoPort, hport, endpoint,
      if_neg hhost]
    rfl

theorem InfoFields.info_endpoint_none (fields : InfoFields) (h : ¬ fields.PortGiven) :
    fields.info.endpoint.2 = none := by
  have hhost : fields.info.host ≠ text "." := fun heq => h (Or.inl heq)
  have hport : stringTo 32 fields.info.port_or_socket = none := by
    rw [stringTo, if_neg]
    rintro ⟨hne, hdigits, hbound⟩
    exact h (Or.inr ⟨hne, List.all_eq_true.mp hdigits, hbound⟩)
  simp only [MySQLConnectionInfo.endpoint, if_neg hhost, hport]

/-! ## What goes over -/

theorem cString_eq_self_iff (str : Bytes) : cString str = str ↔ 0 ∉ str :=
  Bytes.takeWhile_ne_eq_self_iff

theorem zero_not_mem_of_digits {str : Bytes} (h : ∀ c ∈ str, isDigit c) : 0 ∉ str :=
  fun hzero => absurd (h 0 hzero) (by decide)

theorem InfoFields.info_sslMode (fields : InfoFields) : fields.info.sslMode = fields.sslMode := by
  rw [MySQLConnectionInfo.sslMode, InfoFields.sslMode]
  have hssl : fields.info.ssl = fields.ssl.getD [] := rfl
  rw [hssl]
  cases fields.ssl.getD [] with
  | nil => rfl
  | cons c ssl => rw [if_neg (List.cons_ne_nil c ssl)]

/-- The endpoint goes over as it is when the host and the socket have no zero byte; a port
never has one. -/
theorem InfoFields.endpoint_passed_iff (fields : InfoFields) (h : fields.PortGiven) :
    (cString fields.endpoint.host = fields.endpoint.host ∧
      fields.endpoint.unix_socket.map cString = fields.endpoint.unix_socket) ↔
    0 ∉ fields.host ∧ 0 ∉ fields.port_or_socket := by
  by_cases hhost : fields.host = text "."
  · have hend : fields.endpoint =
        ⟨.MYSQL_PROTOCOL_SOCKET, text "localhost", 0, some fields.port_or_socket⟩ := if_pos hhost
    have hlocal : (0 : UInt8) ∉ text "localhost" := by decide
    have hdot : (0 : UInt8) ∉ text "." := by decide
    rw [hend, hhost]
    simp only [Option.map_some, Option.some.injEq, cString_eq_self_iff, hlocal, hdot,
      not_false_eq_true, true_and]
  · obtain ⟨-, hdigits, -⟩ := h.resolve_left hhost
    have hend : fields.endpoint =
        ⟨.default, fields.host, decimal fields.port_or_socket, none⟩ := if_neg hhost
    rw [hend]
    simp only [cString_eq_self_iff, Option.map_none, and_true, zero_not_mem_of_digits hdigits,
      not_false_eq_true]

/-- The fields are passed exactly, unless a zero byte cuts one. -/
theorem InfoFields.passed_iff (fields : InfoFields) (h : fields.PortGiven) :
    fields.info.connectArguments fields.endpoint = fields.arguments ↔
      ∀ field ∈ fields.required, 0 ∉ field := by
  have hendpoint := fields.endpoint_passed_iff h
  have huser : fields.info.user = fields.user := rfl
  have hpassword : fields.info.password = fields.password := rfl
  have hdatabase : fields.info.database = fields.database := rfl
  rcases hend : fields.endpoint with ⟨protocol, host, port, unix_socket⟩
  rw [hend] at hendpoint
  simp only [MySQLConnectionInfo.connectArguments, arguments, info_sslMode, hend, huser, hpassword,
    hdatabase, ConnectArguments.mk.injEq, Endpoint.mk.injEq, true_and, and_true,
    cString_eq_self_iff] at hendpoint ⊢
  rw [hendpoint]
  simp only [required, List.forall_mem_cons, List.not_mem_nil, false_implies, implies_true,
    and_true, and_assoc]

theorem firstOpen_wellWritten {client : ClientLibrary} {infoString : Bytes} {fields : InfoFields}
    (hinit : client.mysql_init = true) (h : WellWritten infoString fields) :
    ∃ error, firstOpen client infoString =
      .returns error (some (fields.info.connectArguments fields.endpoint)) := by
  simp only [firstOpen, openWith, hinit, if_true, ofString_joined h.1,
    fields.info_endpoint h.2]
  exact ⟨_, rfl⟩

/-- Behind any other string the port is read from no `Optional`. -/
theorem firstOpen_emptyOptional {client : ClientLibrary} {infoString : Bytes}
    (hinit : client.mysql_init = true) (h : ¬ ∃ fields, WellWritten infoString fields) :
    firstOpen client infoString = .emptyOptional := by
  have hnone : (MySQLConnectionInfo.ofString infoString).endpoint.2 = none := by
    by_cases hjoined : ∃ fields : InfoFields, fields.Joined infoString
    · obtain ⟨fields, hfields⟩ := hjoined
      rw [ofString_joined hfields]
      exact fields.info_endpoint_none fun hport => h ⟨fields, hfields, hport⟩
    · rw [ofString_of_not_joined fun fields hfields => hjoined ⟨fields, hfields⟩]
      rfl
  simp only [firstOpen, openWith, hinit, if_true, hnone]

/-- `Open` does as it should for the strings that are well formed and have no zero byte in
what is passed; every string that is not well formed takes the port of an empty
`Optional`. -/
theorem opensAsWritten_iff (client : ClientLibrary) (infoString : Bytes) :
    OpensAsWritten client infoString ↔ client.mysql_init = false ∨
      ∃ fields, WellWritten infoString fields ∧ ∀ field ∈ fields.required, 0 ∉ field := by
  cases hinit : client.mysql_init with
  | false =>
    refine ⟨fun _ => Or.inl rfl, fun _ => ⟨fun _ _ h => ?_, fun _ => ?_⟩⟩
    · rw [hinit] at h
      cases h
    · exact ⟨CR_UNKNOWN_ERROR, none, by decide, by simp [firstOpen, openWith, hinit]⟩
  | true =>
    constructor
    · intro h
      by_cases hwritten : ∃ fields, WellWritten infoString fields
      · obtain ⟨fields, hfields⟩ := hwritten
        obtain ⟨error, hasked⟩ := h.passed fields hfields hinit
        obtain ⟨error', hdone⟩ := firstOpen_wellWritten hinit hfields
        rw [hdone, OpenEnd.returns.injEq, Option.some.injEq] at hasked
        exact Or.inr ⟨fields, hfields, (fields.passed_iff hfields.2).mp hasked.2⟩
      · obtain ⟨error, passed, -, hreturns⟩ := h.refused hwritten
        rw [firstOpen_emptyOptional hinit hwritten] at hreturns
        cases hreturns
    · rintro (h | ⟨fields, hfields, hzero⟩)
      · cases h
      · refine ⟨fun fields' hfields' _ => ?_, fun hnone => absurd ⟨fields, hfields⟩ hnone⟩
        obtain rfl := InfoFields.joined_unique hfields.1 hfields'.1
        obtain ⟨error, hdone⟩ := firstOpen_wellWritten hinit hfields
        exact ⟨error, by rw [hdone, (fields.passed_iff hfields.2).mpr hzero]⟩

/-- Without the name of the database the port of the string is not even looked at. -/
theorem four_fields_dereferenced :
    firstOpen ⟨true, fun _ => none⟩ (text "127.0.0.1;3306;root;secret") = .emptyOptional ∧
      ¬ OpensAsWritten ⟨true, fun _ => none⟩ (text "127.0.0.1;3306;root;secret") := by
  have hend : firstOpen ⟨true, fun _ => none⟩ (text "127.0.0.1;3306;root;secret") =
      .emptyOptional := by decide
  refine ⟨hend, fun h => ?_⟩
  obtain ⟨error, passed, -, hreturns⟩ := h.refused fun ⟨fields, hfields⟩ => by
    have hinit : (⟨true, fun _ => none⟩ : ClientLibrary).mysql_init = true := rfl
    obtain ⟨error, hpassed⟩ := firstOpen_wellWritten hinit hfields
    rw [hend] at hpassed
    cases hpassed
  rw [hend] at hreturns
  cases hreturns

end Mpool.Database
