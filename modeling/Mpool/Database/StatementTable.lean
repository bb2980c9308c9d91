import Mpool.Lib.Except
import Mpool.Database.AdhocPrepare
import Mpool.Database.BindParameters

/-! The statements that every connection of a pool prepares once and that are used by their
index: `DoPrepareStatements` of the login database, `PrepareStatements` of the pool with its
`_preparedStatementSize`, `GetPreparedStatement(index)`, and the executions, with a reconnect
between two attempts. -/

namespace Mpool.Database

inductive LoginDatabaseStatements where
  | LOGIN_SEL_TEST
  | LOGIN_UPD_TEST
  | LOGIN_SEL_LOGONCHALLENGE
  | LOGIN_UPD_LOGONPROOF
  | MAX_LOGINDATABASE_STATEMENTS
  deriving DecidableEq

def LoginDatabaseStatements.value : LoginDatabaseStatements → Nat
  | LOGIN_SEL_TEST => 0
  | LOGIN_UPD_TEST => 1
  | LOGIN_SEL_LOGONCHALLENGE => 2
  | LOGIN_UPD_LOGONPROOF => 3
  | MAX_LOGINDATABASE_STATEMENTS => 4

/-- One call of `PrepareStatement` in `DoPrepareStatements`. -/
structure StatementText where
  index : Nat
  sql : String
  flags : ConnectionFlags

/-- `LoginDatabaseConnection::DoPrepareStatements`. -/
def loginDatabaseTexts : List StatementText :=
  [⟨LoginDatabaseStatements.LOGIN_SEL_LOGONCHALLENGE.value,
      "SELECT id, username, last_ip, salt, verifier FROM account a WHERE username = ? limit 1",
      .CONNECTION_SYNCH⟩,
    ⟨LoginDatabaseStatements.LOGIN_UPD_LOGONPROOF.value,
      "UPDATE account SET session_key = ?, last_ip = ?, last_login = NOW(), locale = ?, " ++
        "os = ? WHERE username = ?",
      .CONNECTION_SYNCH⟩]

/-- The ends of `mysql_stmt_init` and `mysql_stmt_prepare` for a text that is given. -/
inductive PrepareReply where
  | initFails
  | prepareFails
  | prepares
  deriving DecidableEq

/-- The call with its answer; the number of parameters is that of the text. -/
def StatementText.entry (paramCount : String → Nat) (text : StatementText)
    (reply : PrepareReply) : PrepareEntry where
  index := text.index
  flags := text.flags
  answer := match reply with
    | .initFails => .initFails
    | .prepareFails => .prepareFails
    | .prepares => .prepared (paramCount text.sql)

/-- A connection with the binds of the statements in `m_stmts`. -/
structure StatementConnection where
  connection : PreparingConnection
  binds : Nat → BindState

/-- A connection as it is opened. -/
def StatementConnection.new (flags : ConnectionFlags) : StatementConnection :=
  ⟨⟨flags, false, false, []⟩, fun _ => .new 0⟩

/-- How a call of the pool can go wrong: a failed `ASSERT`, or a read behind the end of
`_preparedStatementSize`. -/
inductive StatementFault where
  | assertFails
  | outOfBounds
  deriving DecidableEq

/-- A failed `ASSERT` is `none` where nothing else can go wrong. -/
def StatementFault.assert {R : Type} : Option R → Except StatementFault R
  | some result => .ok result
  | none => .error .assertFails

namespace StatementConnection

/-- `PrepareStatement(index, sql, flags)`: a text that is prepared has new binds. -/
def prepareEntry (c : StatementConnection) (entry : PrepareEntry) : StatementConnection where
  connection := c.connection.prepareEntry entry
  binds := match c.connection.takes entry.flags, entry.answer with
    | true, .prepared paramCount => Function.update c.binds entry.index (.new paramCount)
    | _, _ => c.binds

/-- `PrepareStatements` of a connection for `size` statements. -/
def prepareStatements (paramCount : String → Nat) (texts : List StatementText) (size : Nat)
    (reconnecting : Bool) (replies : Nat → PrepareReply) (c : StatementConnection) :
    Bool × StatementConnection :=
  let c := (texts.map fun text => text.entry paramCount (replies text.index)).foldl prepareEntry
    (if reconnecting then c else { c with connection := c.connection.resize size })
  (!c.connection.m_prepareError, c)

/-- One attempt up to `mysql_stmt_execute`: what it finds in the binds. -/
def attempt (index : Nat) (parameters : List PreparedStatementData) (c : StatementConnection) :
    Option (List BindView × StatementConnection) := do
  let mysql_stmt ← (getPreparedStatement c.connection.m_stmts index).toOption
  let bound ← (c.binds index).bindParameters parameters
  some ((List.range mysql_stmt.paramCount).map bound.1.view,
    { c with binds := Function.update c.binds index bound.1 })

/-- `m_mStmt->ClearParameters()`. -/
def clear (index : Nat) (c : StatementConnection) : Option StatementConnection :=
  (c.binds index).clearParameters.map fun cleared =>
    { c with binds := Function.update c.binds index cleared }

/-- `Execute(stmt)` or `_Query(stmt)`: after an attempt that loses the handle the connection
prepares its statements again, or the process is aborted. The result is what each attempt
finds in the binds. -/
def execute (paramCount : String → Nat) (texts : List StatementText) (size index : Nat)
    (parameters : List PreparedStatementData) :
    List (Nat → PrepareReply) → StatementConnection →
      Option (List (List BindView) × StatementConnection)
  | [], c => do
    let (views, c) ← c.attempt index parameters
    let c ← c.clear index
    some ([views], c)
  | replies :: reconnects, c => do
    let (views, c) ← c.attempt index parameters
    match c.prepareStatements paramCount texts size true replies with
    | (true, c) => do
      let (rest, c) ← execute paramCount texts size index parameters reconnects c
      some (views :: rest, c)
    | (false, _) => none

end StatementConnection

/-! ## The pool -/

/-- The connections by their kind. -/
structure StatementPool where
  _connections : InternalIndex → List StatementConnection
  _preparedStatementSize : List Nat

/-- The loop over the indices, which keeps a size that is not zero. -/
def recordSize (m_stmts : List (Option MySQLPreparedStatement)) (sizes : List Nat) (i : Nat) :
    Option (List Nat) :=
  if sizes.getD i 0 > 0 then some sizes
  else match m_stmts.getD i none with
    | none => some sizes
    | some stmt => if stmt.paramCount < 255 then some (sizes.set i stmt.paramCount) else none

/-- The part of `PrepareStatements` behind one connection. -/
def recordSizes (m_stmts : List (Option MySQLPreparedStatement)) (sizes : List Nat) :
    Option (List Nat) :=
  (List.range m_stmts.length).foldlM (recordSize m_stmts)
    (sizes ++ List.replicate (m_stmts.length - sizes.length) 0)

/-- `statement_data(capacity)`, each a variant without a value given. -/
def statementData (capacity : Nat) : List PreparedStatementData :=
  List.replicate capacity (.bool false)

/-- `SetValidData`. -/
def setValidData (statement_data : List PreparedStatementData)
    (value : Nat × PreparedStatementData) : Option (List PreparedStatementData) :=
  if value.1 < statement_data.length then some (statement_data.set value.1 value.2) else none

/-- What happens to a pool whose statements are prepared: a connection that prepares them
again, or a statement that is got, given its values and executed by one connection. -/
inductive StatementEvent where
  | reconnect (key : InternalIndex × Nat) (replies : Nat → PrepareReply)
  | statement (key : InternalIndex × Nat) (index : Nat)
      (values : List (Nat × PreparedStatementData)) (reconnects : List (Nat → PrepareReply))

namespace StatementPool

variable (paramCount : String → Nat) (texts : List StatementText) (size : Nat)

/-- The pool before `PrepareStatements`. -/
def create (async_threads synch_threads : Nat) : StatementPool where
  _connections
    | .IDX_ASYNC => List.replicate async_threads (.new .CONNECTION_ASYNC)
    | .IDX_SYNCH => List.replicate synch_threads (.new .CONNECTION_SYNCH)
  _preparedStatementSize := []

/-- The inner loop of `PrepareStatements`; it stops, without connections, at the first that
does not prepare its statements. -/
def prepareConnections (replies : Nat → Nat → PrepareReply) :
    List StatementConnection → List Nat → Option (Option (List StatementConnection) × List Nat)
  | [], sizes => some (some [], sizes)
  | c :: connections, sizes =>
    match c.prepareStatements paramCount texts size false (replies 0) with
    | (true, c) => do
      let sizes ← recordSizes c.connection.m_stmts sizes
      let (rest, sizes) ← prepareConnections (fun n => replies (n + 1)) connections sizes
      some (rest.map fun connections => c :: connections, sizes)
    | (false, _) => some (none, sizes)

/-- `PrepareStatements`, which closes the pool when it fails. -/
def prepareStatements (pool : StatementPool) (replies : InternalIndex → Nat → Nat → PrepareReply) :
    Option (Bool × StatementPool) := do
  match ← prepareConnections paramCount texts size (replies .IDX_ASYNC)
      (pool._connections .IDX_ASYNC) pool._preparedStatementSize with
  | (none, sizes) => some (false, ⟨fun _ => [], sizes⟩)
  | (some async, sizes) =>
    match ← prepareConnections paramCount texts size (replies .IDX_SYNCH)
        (pool._connections .IDX_SYNCH) sizes with
    | (none, sizes) => some (false, ⟨fun _ => [], sizes⟩)
    | (some synch, sizes) =>
      some (true, ⟨fun | .IDX_ASYNC => async | .IDX_SYNCH => synch, sizes⟩)

/-- `GetPreparedStatement(index)` and the `SetData` calls on what it returns. -/
def getPreparedStatement (pool : StatementPool) (index : Nat)
    (values : List (Nat × PreparedStatementData)) :
    Except StatementFault (List PreparedStatementData) :=
  match pool._preparedStatementSize[index]? with
  | none => .error .outOfBounds
  | some capacity => StatementFault.assert (values.foldlM setValidData (statementData capacity))

/-- The connection is replaced. -/
def setConnection (pool : StatementPool) (key : InternalIndex × Nat) (c : StatementConnection) :
    StatementPool :=
  { pool with _connections :=
      Function.update pool._connections key.1 ((pool._connections key.1).set key.2 c) }

/-- An event of a connection that there is; the result is what each attempt finds in the
binds. -/
def perform (pool : StatementPool) :
    StatementEvent → Except StatementFault (List (List BindView) × StatementPool)
  | .reconnect key replies =>
    match (pool._connections key.1)[key.2]? with
    | none => .ok ([], pool)
    | some c =>
      match c.prepareStatements paramCount texts size true replies with
      | (true, c) => .ok ([], pool.setConnection key c)
      | (false, _) => .error .assertFails
  | .statement key index values reconnects =>
    match (pool._connections key.1)[key.2]? with
    | none => .ok ([], pool)
    | some c => do
      let parameters ← pool.getPreparedStatement index values
      let (views, c) ← StatementFault.assert
        (c.execute paramCount texts size index parameters reconnects)
      .ok (views, pool.setConnection key c)

/-- The events all return. -/
def performAll (pool : StatementPool) (events : List StatementEvent) :
    Except StatementFault StatementPool :=
  events.foldlM (fun pool event => (pool.perform paramCount texts size event).map Prod.snd) pool

end StatementPool

/-! ## The table of one connection -/

/-- The statement of an answer. -/
def PrepareAnswer.statement : PrepareAnswer → Option MySQLPreparedStatement
  | .prepared paramCount => some ⟨paramCount⟩
  | _ => none

namespace PreparingConnection

variable {connection : PreparingConnection}

@[simp] theorem length_prepareEntry (entry : PrepareEntry) :
    (connection.prepareEntry entry).m_stmts.length = connection.m_stmts.length := by
  unfold prepareEntry
  split
  · simp
  · cases entry.answer <;> simp

theorem prepareEntry_other {entry : PrepareEntry} {i : Nat} (hi : entry.index ≠ i) :
    (connection.prepareEntry entry).m_stmts[i]? = connection.m_stmts[i]? := by
  unfold prepareEntry
  split
  · exact List.getElem?_set_ne hi
  · cases entry.answer with
    | prepared paramCount => exact List.getElem?_set_ne hi
    | initFails => rfl
    | prepareFails => rfl

theorem prepareEntry_self {entry : PrepareEntry} (hindex : entry.index < connection.m_stmts.length)
    (hgood : connection.takes entry.flags = true → entry.answer.fails = false) :
    (connection.prepareEntry entry).m_stmts[entry.index]? =
      some (if connection.takes entry.flags then entry.answer.statement else none) := by
  unfold prepareEntry
  cases htakes : connection.takes entry.flags with
  | false => simp [hindex]
  | true =>
    have hfails := hgood htakes
    cases hanswer : entry.answer with
    | prepared paramCount => simp [hindex, PrepareAnswer.statement]
    | initFails => simp [hanswer, PrepareAnswer.fails] at hfails
    | prepareFails => simp [hanswer, PrepareAnswer.fails] at hfails

/-- Every text finds its index as it was, so the loop leaves there what it prepares. -/
theorem foldl_prepareEntry_stmts {entries : List PrepareEntry}
    (hnodup : (entries.map PrepareEntry.index).Nodup)
    (hindex : ∀ entry ∈ entries, entry.index < connection.m_stmts.length)
    (hgood : ∀ entry ∈ entries, connection.takes entry.flags = true →
      entry.answer.fails = false) :
    (entries.foldl prepareEntry connection).m_stmts.length = connection.m_stmts.length ∧
      (∀ entry ∈ entries, (entries.foldl prepareEntry connection).m_stmts[entry.index]? =
        some (if connection.takes entry.flags then entry.answer.statement else none)) ∧
      ∀ i, (∀ entry ∈ entries, entry.index ≠ i) →
        (entries.foldl prepareEntry connection).m_stmts[i]? = connection.m_stmts[i]? := by
  induction entries generalizing connection with
  | nil => simp
  | cons entry entries ih =>
    obtain ⟨hnot, hrest⟩ := List.nodup_cons.mp hnodup
    have htakes : ∀ flags, (connection.prepareEntry entry).takes flags = connection.takes flags :=
      fun flags => by rw [takes, takes, (prepareEntry_spec connection entry).1]
    have hother : ∀ other ∈ entries, other.index ≠ entry.index := fun other hmem heq =>
      hnot (List.mem_map.mpr ⟨other, hmem, heq⟩)
    obtain ⟨hlength, hplaced, hsame⟩ := @ih (connection.prepareEntry entry) hrest
      (fun other hmem => by
        rw [length_prepareEntry]
        exact hindex other (List.mem_cons_of_mem _ hmem))
      (fun other hmem => by
        rw [htakes]
        exact hgood other (List.mem_cons_of_mem _ hmem))
    refine ⟨by rw [List.foldl_cons, hlength, length_prepareEntry], fun other hmem => ?_,
      fun i hi => ?_⟩
    · rcases List.mem_cons.mp hmem with rfl | hmem
      · rw [List.foldl_cons, hsame _ hother]
        exact prepareEntry_self (hindex _ List.mem_cons_self) (hgood _ List.mem_cons_self)
      · rw [List.foldl_cons, hplaced other hmem, htakes]
    · rw [List.foldl_cons, hsame i fun other hmem => hi other (List.mem_cons_of_mem _ hmem)]
      exact prepareEntry_other (hi entry List.mem_cons_self)

end PreparingConnection

namespace StatementConnection

/-- Every statement is between two executions. -/
def Bound (c : StatementConnection) : Prop :=
  ∀ i stmt, c.connection.m_stmts[i]? = some (some stmt) →
    BindState.Ready stmt.paramCount (c.binds i)

theorem Bound.prepareEntry {c : StatementConnection} (h : Bound c) (entry : PrepareEntry) :
    Bound (c.prepareEntry entry) := by
  intro i stmt hstmt
  simp only [StatementConnection.prepareEntry, PreparingConnection.prepareEntry] at hstmt ⊢
  cases htakes : c.connection.takes entry.flags with
  | false =>
    by_cases hi : entry.index = i
    · simp [htakes, List.getElem?_set, hi] at hstmt
    · rw [htakes] at hstmt
      exact h i stmt (by simpa [List.getElem?_set_ne hi] using hstmt)
  | true =>
    cases hanswer : entry.answer with
    | prepared paramCount =>
      by_cases hi : entry.index = i
      · simp [htakes, hanswer, List.getElem?_set, hi] at hstmt
        obtain ⟨-, rfl⟩ := hstmt
        simp [hi, BindState.ready_new]
      · simp only [htakes, hanswer] at hstmt
        simp only [Function.update_of_ne (Ne.symm hi)]
        exact h i stmt (by simpa [List.getElem?_set_ne hi] using hstmt)
    | initFails => exact h i stmt (by simpa [htakes, hanswer] using hstmt)
    | prepareFails => exact h i stmt (by simpa [htakes, hanswer] using hstmt)

theorem foldl_connection (entries : List PrepareEntry) (c : StatementConnection) :
    (entries.foldl prepareEntry c).connection =
      entries.foldl PreparingConnection.prepareEntry c.connection := by
  induction entries generalizing c with
  | nil => rfl
  | cons entry entries ih => exact ih (c.prepareEntry entry)

theorem Bound.foldl {c : StatementConnection} (h : Bound c) (entries : List PrepareEntry) :
    Bound (entries.foldl StatementConnection.prepareEntry c) := by
  induction entries generalizing c with
  | nil => exact h
  | cons entry entries ih => exact ih (h.prepareEntry entry)

end StatementConnection

/-- The connections of the kind prepare the texts with these flags. -/
def InternalIndex.takes (type : InternalIndex) (flags : ConnectionFlags) : Bool :=
  type.flags.value &&& flags.value ≠ 0

/-- The server prepares every text that is for a connection of the kind. -/
def AllPrepare (texts : List StatementText) (type : InternalIndex)
    (replies : Nat → PrepareReply) : Prop :=
  ∀ text ∈ texts, type.takes text.flags = true → replies text.index = .prepares

variable {paramCount : String → Nat} {texts : List StatementText} {size : Nat}

theorem StatementText.entry_fails (text : StatementText) (reply : PrepareReply) :
    (text.entry paramCount reply).answer.fails = false ↔ reply = .prepares := by
  cases reply <;> simp [StatementText.entry, PrepareAnswer.fails]

namespace StatementConnection

variable (paramCount texts size) in
/-- The statements of a connection are those of the table that are for its kind. -/
structure Prepared (type : InternalIndex) (c : StatementConnection) : Prop where
  flags : c.connection.m_connectionFlags = type.flags
  error : c.connection.m_prepareError = false
  length : c.connection.m_stmts.length = size
  listed : ∀ text ∈ texts, c.connection.m_stmts[text.index]? =
    some (if type.takes text.flags then some ⟨paramCount text.sql⟩ else none)
  unlisted : ∀ i < size, (∀ text ∈ texts, text.index ≠ i) → c.connection.m_stmts[i]? = some none
  bound : c.Bound

/-- Of a connection that is about to prepare its statements what they leave alone. -/
structure Unprepared (texts : List StatementText) (size : Nat) (type : InternalIndex)
    (c : StatementConnection) : Prop where
  flags : c.connection.m_connectionFlags = type.flags
  error : c.connection.m_prepareError = false
  length : c.connection.m_stmts.length = size
  unlisted : ∀ i < size, (∀ text ∈ texts, text.index ≠ i) → c.connection.m_stmts[i]? = some none
  bound : c.Bound

variable {type : InternalIndex} {c : StatementConnection}

theorem Prepared.unprepared (h : Prepared paramCount texts size type c) :
    Unprepared texts size type c := ⟨h.flags, h.error, h.length, h.unlisted, h.bound⟩

variable (paramCount) in
/-- What `prepareStatements` does behind the `resize`. -/
theorem Unprepared.prepare (h : Unprepared texts size type c)
    (hnodup : (texts.map StatementText.index).Nodup) (hindex : ∀ text ∈ texts, text.index < size)
    (replies : Nat → PrepareReply) :
    let result := (texts.map fun text =>
      text.entry paramCount (replies text.index)).foldl prepareEntry c
    (result.connection.m_prepareError = false ↔ AllPrepare texts type replies) ∧
      (AllPrepare texts type replies → Prepared paramCount texts size type result) := by
  intro result
  have htakes : ∀ flags, c.connection.takes flags = type.takes flags := fun flags => by
    rw [PreparingConnection.takes, h.flags]
    rfl
  have hconnection : result.connection = _ := foldl_connection _ c
  obtain ⟨hflags, herror⟩ := PreparingConnection.foldl_prepareEntry
    (texts.map fun text => text.entry paramCount (replies text.index)) c.connection
  have hall : result.connection.m_prepareError = false ↔ AllPrepare texts type replies := by
    rw [hconnection, herror, h.error, Bool.false_or, List.any_eq_false]
    constructor
    · intro hany text hmem htext
      have hentry := hany _ (List.mem_map_of_mem hmem)
      rw [htakes, show (text.entry paramCount (replies text.index)).flags = text.flags from rfl,
        htext, Bool.true_and, Bool.not_eq_true] at hentry
      exact (text.entry_fails _).mp hentry
    · intro hall entry hmem
      obtain ⟨text, htext, rfl⟩ := List.mem_map.mp hmem
      rw [htakes, show (text.entry paramCount (replies text.index)).flags = text.flags from rfl]
      cases hflag : type.takes text.flags with
      | false => simp
      | true => simpa using (text.entry_fails _).mpr (hall text htext hflag)
  refine ⟨hall, fun hprepare => ?_⟩
  have hentries : ((texts.map fun text => text.entry paramCount (replies text.index)).map
      PrepareEntry.index).Nodup := by
    simpa [Function.comp_def, StatementText.entry] using hnodup
  obtain ⟨hlength, hplaced, hsame⟩ := PreparingConnection.foldl_prepareEntry_stmts hentries
    (fun entry hmem => by
      obtain ⟨text, htext, rfl⟩ := List.mem_map.mp hmem
      exact h.length.symm ▸ hindex text htext)
    (fun entry hmem htake => by
      obtain ⟨text, htext, rfl⟩ := List.mem_map.mp hmem
      rw [htakes] at htake
      exact (text.entry_fails _).mpr (hprepare text htext htake))
  rw [← hconnection] at hflags hlength hplaced hsame
  refine ⟨hflags.trans h.flags, hall.mpr hprepare, hlength.trans h.length, fun text htext => ?_,
    fun i hi hnot => ?_, h.bound.foldl _⟩
  · have hentry := hplaced _ (List.mem_map_of_mem htext)
    rw [htakes, show (text.entry paramCount (replies text.index)).flags = text.flags from rfl]
      at hentry
    refine hentry.trans ?_
    cases htake : type.takes text.flags with
    | false => rfl
    | true => simp [StatementText.entry, hprepare text htext htake, PrepareAnswer.statement]
  · rw [hsame i fun entry hmem => ?_]
    · exact h.unlisted i hi hnot
    · obtain ⟨text, htext, rfl⟩ := List.mem_map.mp hmem
      exact hnot text htext

variable (paramCount) (type) in
/-- `PrepareStatements` of a new connection. -/
theorem prepareStatements_new (hnodup : (texts.map StatementText.index).Nodup)
    (hindex : ∀ text ∈ texts, text.index < size) (replies : Nat → PrepareReply) :
    let result := (new type.flags).prepareStatements paramCount texts size false replies
    (result.1 = true ↔ AllPrepare texts type replies) ∧
      (result.1 = true → Prepared paramCount texts size type result.2) := by
  have h : Unprepared texts size type
      { new type.flags with connection := (new type.flags).connection.resize size } := by
    refine ⟨rfl, rfl, by simp [new, PreparingConnection.resize], fun i hi _ => ?_, ?_⟩
    · simp [new, PreparingConnection.resize, hi]
    · intro i stmt hstmt
      simp [new, PreparingConnection.resize, List.getElem?_replicate] at hstmt
  obtain ⟨hall, hprepared⟩ := h.prepare paramCount hnodup hindex replies
  exact ⟨by simpa [prepareStatements] using hall,
    fun hresult => hprepared (hall.mp (by simpa [prepareStatements] using hresult))⟩

/-- `PrepareStatements` of a connection that reconnects. -/
theorem Prepared.prepareStatements (h : Prepared paramCount texts size type c)
    (hnodup : (texts.map StatementText.index).Nodup) (hindex : ∀ text ∈ texts, text.index < size)
    (replies : Nat → PrepareReply) :
    let result := c.prepareStatements paramCount texts size true replies
    (result.1 = true ↔ AllPrepare texts type replies) ∧
      (result.1 = true → Prepared paramCount texts size type result.2) := by
  obtain ⟨hall, hprepared⟩ :=
    h.unprepared.prepare paramCount hnodup hindex replies
  exact ⟨by simpa [StatementConnection.prepareStatements] using hall,
    fun hresult => hprepared
      (hall.mp (by simpa [StatementConnection.prepareStatements] using hresult))⟩

end StatementConnection

/-! ## Executing a statement of the table -/

/-- The binds hold the values, one for one. -/
def Shows (parameters : List PreparedStatementData) (views : List BindView) : Prop :=
  views.length = parameters.length ∧
    ∀ i (hi : i < parameters.length), parameters[i].Fits →
      ∃ view, views[i]? = some view ∧ view.decode = some parameters[i].received

namespace StatementConnection

variable {type : InternalIndex} {c : StatementConnection} {index : Nat}
  {parameters : List PreparedStatementData}

/-- A statement of the table that is for the kind of the connection. -/
structure Listed (texts : List StatementText) (type : InternalIndex) (index : Nat)
    (text : StatementText) : Prop where
  mem : text ∈ texts
  index : text.index = index
  takes : type.takes text.flags = true

theorem Prepared.select (h : Prepared paramCount texts size type c) {text : StatementText}
    (htext : Listed texts type index text) :
    c.connection.m_stmts[index]? = some (some ⟨paramCount text.sql⟩) := by
  have hlisted := h.listed text htext.mem
  rwa [htext.index, htext.takes, if_pos rfl] at hlisted

theorem Prepared.select_none (h : Prepared paramCount texts size type c)
    (hnone : ¬ ∃ text, Listed texts type index text) (stmt : MySQLPreparedStatement) :
    c.connection.m_stmts[index]? ≠ some (some stmt) := by
  intro hstmt
  by_cases hmem : ∃ text ∈ texts, text.index = index
  · obtain ⟨text, hmem, rfl⟩ := hmem
    rw [h.listed text hmem] at hstmt
    cases htakes : type.takes text.flags with
    | false => simp [htakes] at hstmt
    | true => exact hnone ⟨text, hmem, rfl, htakes⟩
  · have hlt : index < size := by
      rw [← h.length]
      exact (List.getElem?_eq_some_iff.mp hstmt).1
    rw [h.unlisted index hlt fun text htext heq => hmem ⟨text, htext, heq⟩] at hstmt
    cases hstmt

/-- New binds for one statement, with its number of parameters. -/
theorem Prepared.bind (h : Prepared paramCount texts size type c) {text : StatementText}
    (htext : Listed texts type index text) {s : BindState}
    (hs : BindState.Ready (paramCount text.sql) s) :
    Prepared paramCount texts size type { c with binds := Function.update c.binds index s } := by
  refine ⟨h.flags, h.error, h.length, h.listed, h.unlisted, fun i stmt hstmt => ?_⟩
  by_cases hi : i = index
  · subst hi
    have hselect := h.select htext
    rw [show c.connection.m_stmts[i]? = some (some stmt) from hstmt] at hselect
    obtain rfl := Option.some.inj (Option.some.inj hselect)
    simpa using hs
  · simpa [hi] using h.bound i stmt hstmt

/-- An attempt finds in the binds what the statement was given. -/
theorem Prepared.attempt (h : Prepared paramCount texts size type c) {text : StatementText}
    (htext : Listed texts type index text) (hcount : parameters.length = paramCount text.sql)
    (hn : paramCount text.sql < 255) :
    ∃ views c', c.attempt index parameters = some (views, c') ∧
      Prepared paramCount texts size type c' ∧ Shows parameters views := by
  have hselect := h.select htext
  have hready := h.bound index _ hselect
  obtain ⟨s, hbind, -, hbound⟩ := hready.bindFrom_stored (Nat.le_of_lt_succ hn) parameters 0
    (by rw [Nat.zero_add]; exact hcount.le)
  refine ⟨(List.range (paramCount text.sql)).map s.view,
    { c with binds := Function.update c.binds index s }, ?_,
    h.bind htext (hready.bindFrom hbind), by simp [hcount], fun i hi hfits => ?_⟩
  · simp [StatementConnection.attempt, Mpool.Database.getPreparedStatement, hselect,
      Except.toOption, BindState.bindParameters, hbind]
  · refine ⟨s.view i, by simp [← hcount, hi], ?_⟩
    have hview := hbound i hi hfits
    rw [Nat.zero_add] at hview
    rw [← BindView.decode_significant, hview, PreparedStatementData.decode_bound _ hfits]

theorem Prepared.attempt_none (h : Prepared paramCount texts size type c)
    (hnone : ¬ ∃ text, Listed texts type index text) : c.attempt index parameters = none := by
  have hselect := h.select_none hnone
  have hget : (Mpool.Database.getPreparedStatement c.connection.m_stmts index).toOption = none := by
    unfold Mpool.Database.getPreparedStatement
    split
    · exact absurd ‹_› (hselect _)
    · rfl
  simp [StatementConnection.attempt, hget]

theorem Prepared.clear (h : Prepared paramCount texts size type c) {text : StatementText}
    (htext : Listed texts type index text) :
    ∃ c', c.clear index = some c' ∧ Prepared paramCount texts size type c' := by
  obtain ⟨s, hclear, hs⟩ := (h.bound index _ (h.select htext)).clearParameters
  exact ⟨_, by rw [StatementConnection.clear, hclear]; rfl, h.bind htext hs⟩

/-- The whole execution: only a reconnect that does not prepare the statements again stops it,
and every attempt finds the same values. -/
theorem Prepared.execute (hnodup : (texts.map StatementText.index).Nodup)
    (hindex : ∀ text ∈ texts, text.index < size) {text : StatementText}
    (htext : Listed texts type index text) (hcount : parameters.length = paramCount text.sql)
    (hn : paramCount text.sql < 255) (reconnects : List (Nat → PrepareReply))
    (h : Prepared paramCount texts size type c) :
    ((c.execute paramCount texts size index parameters reconnects).isSome = true ↔
        ∀ replies ∈ reconnects, AllPrepare texts type replies) ∧
      ∀ result ∈ c.execute paramCount texts size index parameters reconnects,
        Prepared paramCount texts size type result.2 ∧
          result.1.length = reconnects.length + 1 ∧
          ∀ views ∈ result.1, Shows parameters views := by
  induction reconnects generalizing c with
  | nil =>
    obtain ⟨views, c₁, hattempt, hc₁, hshows⟩ := h.attempt htext hcount hn
    obtain ⟨c₂, hclear, hc₂⟩ := hc₁.clear htext
    have hexecute : c.execute paramCount texts size index parameters [] = some ([views], c₂) := by
      simp [StatementConnection.execute, hattempt, hclear]
    rw [hexecute]
    refine ⟨by simp, ?_⟩
    rintro result ⟨⟩
    exact ⟨hc₂, rfl, by simpa using hshows⟩
  | cons replies reconnects ih =>
    obtain ⟨views, c₁, hattempt, hc₁, hshows⟩ := h.attempt htext hcount hn
    obtain ⟨hall, hprepared⟩ := hc₁.prepareStatements hnodup hindex replies
    cases hprepare : c₁.prepareStatements paramCount texts size true replies with
    | mk prepared c₂ =>
      rw [hprepare] at hall hprepared
      cases prepared with
      | false =>
        have hnot : ¬ AllPrepare texts type replies := fun hr => by simpa using hall.mpr hr
        simp [StatementConnection.execute, hattempt, hprepare, hnot]
      | true =>
        obtain ⟨hsome, hrest⟩ := ih (hprepared rfl)
        have hexecute : c.execute paramCount texts size index parameters (replies :: reconnects) =
            (c₂.execute paramCount texts size index parameters reconnects).map
              fun result => (views :: result.1, result.2) := by
          simp only [StatementConnection.execute, hattempt, hprepare, Option.bind_eq_bind,
            Option.bind_some]
          cases c₂.execute paramCount texts size index parameters reconnects <;> rfl
        rw [hexecute]
        refine ⟨by simpa [hall.mp rfl] using hsome, fun result hresult => ?_⟩
        obtain ⟨rest, hmem, rfl⟩ := Option.mem_map.mp hresult
        obtain ⟨hc, hlength, hviews⟩ := hrest rest hmem
        refine ⟨hc, by simp [hlength], fun other hother => ?_⟩
        rcases List.mem_cons.mp hother with rfl | hother
        · exact hshows
        · exact hviews other hother

theorem Prepared.execute_none (h : Prepared paramCount texts size type c)
    (hnone : ¬ ∃ text, Listed texts type index text) (reconnects : List (Nat → PrepareReply)) :
    c.execute paramCount texts size index parameters reconnects = none := by
  cases reconnects <;> simp [StatementConnection.execute, h.attempt_none hnone]

end StatementConnection

/-! ## The sizes -/

variable (paramCount texts) in
/-- No size is wrong: it is zero, or that of the text. -/
def SizesSound (sizes : List Nat) : Prop :=
  ∀ text ∈ texts, ∀ n, sizes[text.index]? = some n →
    n = 0 ∨ n = paramCount text.sql ∧ paramCount text.sql < 255

variable (paramCount) in
/-- The size of the text is there. -/
def Recorded (sizes : List Nat) (text : StatementText) : Prop :=
  sizes[text.index]? = some (paramCount text.sql) ∧ paramCount text.sql < 255

/-- What one pass of the loop can do. -/
theorem recordSize_cases {m_stmts : List (Option MySQLPreparedStatement)} {sizes sizes' : List Nat}
    {i : Nat} (h : recordSize m_stmts sizes i = some sizes') :
    (sizes' = sizes ∧ (0 < sizes.getD i 0 ∨ ∀ stmt, m_stmts[i]? ≠ some (some stmt))) ∨
      ∃ stmt, m_stmts[i]? = some (some stmt) ∧ stmt.paramCount < 255 ∧
        sizes' = sizes.set i stmt.paramCount := by
  unfold recordSize at h
  split at h
  · exact .inl ⟨(Option.some.inj h).symm, .inl ‹_›⟩
  · rw [List.getD_eq_getElem?_getD] at h
    cases hstmt : m_stmts[i]? with
    | none => simp_all
    | some slot =>
      rw [hstmt, Option.getD_some] at h
      cases slot with
      | none => exact .inl ⟨(Option.some.inj h).symm, .inr (by simp)⟩
      | some stmt =>
        simp only [Option.ite_none_right_eq_some, Option.some.injEq] at h
        exact .inr ⟨stmt, rfl, h.1, h.2.symm⟩

section
variable {type : InternalIndex} {c : StatementConnection} {sizes sizes' : List Nat}

theorem StatementConnection.Prepared.recordSize
    (h : StatementConnection.Prepared paramCount texts size type c)
    (hlength : sizes.length = size) (hsound : SizesSound paramCount texts sizes) {i : Nat}
    (hrecord : recordSize c.connection.m_stmts sizes i = some sizes') :
    sizes'.length = size ∧ SizesSound paramCount texts sizes' ∧
      (∀ text ∈ texts, Recorded paramCount sizes text → Recorded paramCount sizes' text) ∧
      ∀ text, i < size → StatementConnection.Listed texts type i text →
        Recorded paramCount sizes' text := by
  rcases recordSize_cases hrecord with ⟨rfl, hkeep⟩ | ⟨stmt, hstmt, hlt, rfl⟩
  · refine ⟨hlength, hsound, fun _ _ h => h, fun text hi htext => ?_⟩
    rcases hkeep with hpos | hnone
    · have hi' : i < sizes'.length := hlength ▸ hi
      have hget : sizes'[text.index]? = some sizes'[i] := by
        rw [htext.index, List.getElem?_eq_getElem hi']
      rw [List.getD_eq_getElem?_getD, List.getElem?_eq_getElem hi', Option.getD_some] at hpos
      rcases hsound text htext.mem _ hget with hzero | ⟨heq, hlt⟩
      · omega
      · exact ⟨by rw [hget, heq], hlt⟩
    · exact absurd (h.select htext) (hnone _)
  · have hcount : ∀ text ∈ texts, text.index = i → stmt.paramCount = paramCount text.sql := by
      intro text hmem hi
      have hlisted := h.listed text hmem
      rw [hi, hstmt] at hlisted
      split at hlisted
      · cases hlisted
        rfl
      · cases hlisted
    have hset : ∀ text ∈ texts, text.index = i → i < size →
        Recorded paramCount (sizes.set i stmt.paramCount) text := by
      intro text hmem hi hisize
      refine ⟨?_, hcount text hmem hi ▸ hlt⟩
      rw [hi, List.getElem?_set_self (hlength ▸ hisize), hcount text hmem hi]
    refine ⟨by simpa using hlength, fun text hmem n hn => ?_, fun text hmem hrecorded => ?_,
      fun text hi htext => hset text htext.mem htext.index hi⟩
    · by_cases hi : text.index = i
      · rw [hi] at hn
        have hisize : i < size := by
          rw [← hlength, ← List.length_set (i := i) (a := stmt.paramCount)]
          exact (List.getElem?_eq_some_iff.mp hn).1
        obtain ⟨hget, hlt⟩ := hset text hmem hi hisize
        rw [hi, hn] at hget
        exact .inr ⟨Option.some.inj hget, hlt⟩
      · exact hsound text hmem n (by rwa [List.getElem?_set_ne (Ne.symm hi)] at hn)
    · by_cases hi : text.index = i
      · refine hset text hmem hi ?_
        rw [← hi, ← hlength]
        exact (List.getElem?_eq_some_iff.mp hrecorded.1).1
      · exact ⟨by rw [List.getElem?_set_ne (Ne.symm hi)]; exact hrecorded.1, hrecorded.2⟩

theorem StatementConnection.Prepared.recordSize_foldlM
    (h : StatementConnection.Prepared paramCount texts size type c) {indices : List Nat}
    (hindices : ∀ i ∈ indices, i < size) (hlength : sizes.length = size)
    (hsound : SizesSound paramCount texts sizes)
    (hrecord : indices.foldlM (Mpool.Database.recordSize c.connection.m_stmts) sizes =
      some sizes') :
    sizes'.length = size ∧ SizesSound paramCount texts sizes' ∧
      (∀ text ∈ texts, Recorded paramCount sizes text → Recorded paramCount sizes' text) ∧
      ∀ text, text.index ∈ indices → StatementConnection.Listed texts type text.index text →
        Recorded paramCount sizes' text := by
  induction indices generalizing sizes with
  | nil =>
    obtain rfl := Option.some.inj hrecord
    exact ⟨hlength, hsound, fun _ _ h => h, fun _ hmem => absurd hmem List.not_mem_nil⟩
  | cons i indices ih =>
    obtain ⟨next, hfirst, hrest⟩ := Option.bind_eq_some_iff.mp hrecord
    obtain ⟨hlength₁, hsound₁, hkeep₁, hhere⟩ := h.recordSize hlength hsound hfirst
    obtain ⟨hlength₂, hsound₂, hkeep₂, hthere⟩ :=
      ih (fun j hj => hindices j (List.mem_cons_of_mem _ hj)) hlength₁ hsound₁ hrest
    refine ⟨hlength₂, hsound₂, fun text hmem hr => hkeep₂ text hmem (hkeep₁ text hmem hr),
      fun text hmem htext => ?_⟩
    rcases List.mem_cons.mp hmem with hi | hmem
    · exact hkeep₂ text htext.mem
        (hhere text (hindices i List.mem_cons_self) (hi ▸ htext))
    · exact hthere text hmem htext

/-- Behind a connection every text of its kind has its size, and those before keep theirs. -/
theorem StatementConnection.Prepared.recordSizes
    (h : StatementConnection.Prepared paramCount texts size type c)
    (hindex : ∀ text ∈ texts, text.index < size)
    (hlength : sizes = [] ∨ sizes.length = size) (hsound : SizesSound paramCount texts sizes)
    (hrecord : recordSizes c.connection.m_stmts sizes = some sizes') :
    sizes'.length = size ∧ SizesSound paramCount texts sizes' ∧
      (∀ text ∈ texts, Recorded paramCount sizes text → Recorded paramCount sizes' text) ∧
      ∀ text ∈ texts, type.takes text.flags = true → Recorded paramCount sizes' text := by
  rw [Mpool.Database.recordSizes, h.length] at hrecord
  have hfull : (sizes ++ List.replicate (size - sizes.length) 0).length = size ∧
      SizesSound paramCount texts (sizes ++ List.replicate (size - sizes.length) 0) ∧
      ∀ text ∈ texts, Recorded paramCount sizes text →
        Recorded paramCount (sizes ++ List.replicate (size - sizes.length) 0) text := by
    rcases hlength with rfl | hlength
    · refine ⟨by simp, fun text _ n hn => ?_, fun text _ hr => by simp [Recorded] at hr⟩
      simp only [List.nil_append, List.getElem?_replicate] at hn
      exact .inl (by simp_all)
    · rw [hlength, Nat.sub_self, List.replicate_zero, List.append_nil]
      exact ⟨hlength, hsound, fun _ _ h => h⟩
  obtain ⟨hlength', hsound', hkeep, hall⟩ :=
    h.recordSize_foldlM (fun i hi => List.mem_range.mp hi) hfull.1 hfull.2.1 hrecord
  exact ⟨hlength', hsound', fun text hmem hr => hkeep text hmem (hfull.2.2 text hmem hr),
    fun text hmem htakes =>
      hall text (List.mem_range.mpr (hindex text hmem)) ⟨hmem, rfl, htakes⟩⟩

end

/-! ## The values of a statement -/

/-- The value that is given last for a position, or the one that is there. -/
def lastGiven (initial : PreparedStatementData) (values : List (Nat × PreparedStatementData))
    (i : Nat) : PreparedStatementData :=
  values.foldl (fun data value => if value.1 = i then value.2 else data) initial

/-- The statement data behind `GetPreparedStatement` and the `SetData` calls. -/
def given (capacity : Nat) (values : List (Nat × PreparedStatementData)) :
    List PreparedStatementData :=
  (List.range capacity).map (lastGiven (.bool false) values)

theorem foldlM_setValidData (values : List (Nat × PreparedStatementData))
    (statement_data : List PreparedStatementData) :
    ((values.foldlM setValidData statement_data).isSome = true ↔
        ∀ value ∈ values, value.1 < statement_data.length) ∧
      ∀ result ∈ values.foldlM setValidData statement_data,
        result.length = statement_data.length ∧
          ∀ i, result[i]? = statement_data[i]?.map fun data => lastGiven data values i := by
  induction values generalizing statement_data with
  | nil => simp [lastGiven]
  | cons value values ih =>
    by_cases hlt : value.1 < statement_data.length
    · obtain ⟨hsome, hresult⟩ := ih (statement_data.set value.1 value.2)
      rw [List.foldlM_cons, setValidData, if_pos hlt, Option.bind_eq_bind, Option.bind_some]
      refine ⟨by simpa [hlt] using hsome, fun result hmem => ?_⟩
      obtain ⟨hlength, hget⟩ := hresult result hmem
      refine ⟨by simpa using hlength, fun i => ?_⟩
      rw [hget]
      by_cases hi : value.1 = i
      · subst hi
        simp [hlt, lastGiven]
      · simp [List.getElem?_set_ne hi, lastGiven, hi]
    · simp [List.foldlM_cons, setValidData, hlt]

/-- All of the values have to be for parameters of the statement. -/
theorem foldlM_statementData (capacity : Nat) (values : List (Nat × PreparedStatementData)) :
    values.foldlM setValidData (statementData capacity) =
      if ∀ value ∈ values, value.1 < capacity then some (given capacity values) else none := by
  obtain ⟨hsome, hresult⟩ := foldlM_setValidData values (statementData capacity)
  rw [show (statementData capacity).length = capacity from List.length_replicate] at hsome
  split
  · rename_i hall
    obtain ⟨result, hmem⟩ := Option.isSome_iff_exists.mp (hsome.mpr hall)
    obtain ⟨-, hget⟩ := hresult result hmem
    rw [hmem]
    refine congrArg some (List.ext_getElem? fun i => ?_)
    rw [hget, statementData, given, List.getElem?_map, List.getElem?_replicate]
    by_cases hi : i < capacity <;> simp [hi]
  · rename_i hall
    rw [← Option.not_isSome_iff_eq_none, hsome]
    exact hall

/-! ## The pool as a whole -/

namespace StatementPool

variable (paramCount texts size) in
/-- Every connection has the statements of its kind, and every text that some connection
takes has its size. -/
structure Prepared (pool : StatementPool) : Prop where
  connections : ∀ type, ∀ c ∈ pool._connections type,
    StatementConnection.Prepared paramCount texts size type c
  recorded : ∀ type, pool._connections type ≠ [] →
    pool._preparedStatementSize.length = size ∧
      ∀ text ∈ texts, type.takes text.flags = true →
        Recorded paramCount pool._preparedStatementSize text

variable (type : InternalIndex) in
/-- One kind of connections, from what the kinds before it have recorded. -/
theorem prepareConnections_spec (hnodup : (texts.map StatementText.index).Nodup)
    (hindex : ∀ text ∈ texts, text.index < size) {number : Nat}
    {replies : Nat → Nat → PrepareReply} {sizes sizes' : List Nat}
    {connections : List StatementConnection} (hlength : sizes = [] ∨ sizes.length = size)
    (hsound : SizesSound paramCount texts sizes)
    (h : prepareConnections paramCount texts size replies
      (List.replicate number (.new type.flags)) sizes = some (some connections, sizes')) :
    (sizes' = [] ∨ sizes'.length = size) ∧ SizesSound paramCount texts sizes' ∧
      (sizes.length = size → sizes'.length = size) ∧
      (∀ text ∈ texts, Recorded paramCount sizes text → Recorded paramCount sizes' text) ∧
      (∀ c ∈ connections, StatementConnection.Prepared paramCount texts size type c) ∧
      (connections ≠ [] → sizes'.length = size ∧
        ∀ text ∈ texts, type.takes text.flags = true → Recorded paramCount sizes' text) := by
  induction number generalizing replies sizes connections with
  | zero =>
    obtain ⟨rfl, rfl⟩ : [] = connections ∧ sizes = sizes' := by
      simpa [prepareConnections] using h
    exact ⟨hlength, hsound, id, fun _ _ h => h, by simp, by simp⟩
  | succ number ih =>
    rw [List.replicate_succ, prepareConnections] at h
    obtain ⟨-, hprepared⟩ := StatementConnection.prepareStatements_new paramCount type
      hnodup hindex (replies 0)
    cases hprepare : (StatementConnection.new type.flags).prepareStatements paramCount texts size
        false (replies 0) with
    | mk prepared c =>
      rw [hprepare] at h hprepared
      cases prepared with
      | false => simp at h
      | true =>
        have hc := hprepared rfl
        obtain ⟨sizes₁, hrecord, h⟩ := Option.bind_eq_some_iff.mp h
        obtain ⟨⟨rest, sizes₂⟩, hrest, h⟩ := Option.bind_eq_some_iff.mp h
        obtain ⟨⟨connections', rfl, rfl⟩, rfl⟩ :
            (∃ connections', rest = some connections' ∧ c :: connections' = connections) ∧
              sizes₂ = sizes' := by
          simpa using h
        obtain ⟨hlength₁, hsound₁, hkeep₁, hall₁⟩ := hc.recordSizes hindex hlength hsound hrecord
        obtain ⟨hlength₂, hsound₂, hstay, hkeep₂, hothers, -⟩ :=
          ih (.inr hlength₁) hsound₁ hrest
        refine ⟨hlength₂, hsound₂, fun _ => hstay hlength₁,
          fun text hmem hr => hkeep₂ text hmem (hkeep₁ text hmem hr), fun other hother => ?_,
          fun _ => ⟨hstay hlength₁, fun text hmem htakes =>
            hkeep₂ text hmem (hall₁ text hmem htakes)⟩⟩
        rcases List.mem_cons.mp hother with rfl | hother
        · exact hc
        · exact hothers other hother

theorem prepareStatements_prepared (hnodup : (texts.map StatementText.index).Nodup)
    (hindex : ∀ text ∈ texts, text.index < size) {async_threads synch_threads : Nat}
    {replies : InternalIndex → Nat → Nat → PrepareReply} {pool : StatementPool}
    (h : (create async_threads synch_threads).prepareStatements paramCount texts size replies =
      some (true, pool)) :
    pool.Prepared paramCount texts size := by
  obtain ⟨⟨first, sizes₁⟩, hfirst, h⟩ := Option.bind_eq_some_iff.mp h
  cases first with
  | none => simp at h
  | some async =>
    obtain ⟨⟨second, sizes₂⟩, hsecond, h⟩ := Option.bind_eq_some_iff.mp h
    cases second with
    | none => simp at h
    | some synch =>
      obtain rfl := (Prod.mk.inj (Option.some.inj h)).2
      obtain ⟨hlength₁, hsound₁, -, -, hasync, hrecorded₁⟩ :=
        prepareConnections_spec .IDX_ASYNC hnodup hindex (.inl rfl)
          (fun text _ n hn => by simp at hn) hfirst
      obtain ⟨-, -, hstay, hkeep, hsynch, hrecorded₂⟩ :=
        prepareConnections_spec .IDX_SYNCH hnodup hindex hlength₁ hsound₁ hsecond
      refine ⟨fun type => ?_, fun type => ?_⟩
      · cases type with
        | IDX_ASYNC => exact hasync
        | IDX_SYNCH => exact hsynch
      · cases type with
        | IDX_ASYNC =>
          intro hne
          obtain ⟨hlength, hall⟩ := hrecorded₁ hne
          exact ⟨hstay hlength, fun text hmem htakes => hkeep text hmem (hall text hmem htakes)⟩
        | IDX_SYNCH => exact hrecorded₂

theorem Prepared.setConnection {pool : StatementPool} (h : pool.Prepared paramCount texts size)
    (key : InternalIndex × Nat) {c : StatementConnection}
    (hc : StatementConnection.Prepared paramCount texts size key.1 c) :
    (pool.setConnection key c).Prepared paramCount texts size := by
  refine ⟨fun type other hother => ?_, fun type hne => h.recorded type fun hnil => hne ?_⟩
  · by_cases htype : type = key.1
    · subst htype
      simp only [StatementPool.setConnection, Function.update_self] at hother
      rcases List.mem_or_eq_of_mem_set hother with hmem | rfl
      · exact h.connections _ other hmem
      · exact hc
    · simp only [StatementPool.setConnection, Function.update_of_ne htype] at hother
      exact h.connections type other hother
  · by_cases htype : type = key.1
    · subst htype
      simp [StatementPool.setConnection, hnil]
    · simp [StatementPool.setConnection, htype, hnil]

end StatementPool

namespace StatementPool

variable {pool : StatementPool} {key : InternalIndex × Nat} {c : StatementConnection} {index : Nat}

/-- The connection is there, so the sizes are. -/
theorem Prepared.at (h : pool.Prepared paramCount texts size)
    (hc : (pool._connections key.1)[key.2]? = some c) :
    StatementConnection.Prepared paramCount texts size key.1 c ∧
      pool._preparedStatementSize.length = size ∧
      ∀ text ∈ texts, key.1.takes text.flags = true →
        Recorded paramCount pool._preparedStatementSize text := by
  have hmem := List.mem_of_getElem? hc
  exact ⟨h.connections key.1 c hmem, h.recorded key.1 (List.ne_nil_of_mem hmem)⟩

/-- A statement event on a connection that there is, with the size of its index. -/
theorem perform_statement (hc : (pool._connections key.1)[key.2]? = some c) {capacity : Nat}
    (hcapacity : pool._preparedStatementSize[index]? = some capacity)
    (values : List (Nat × PreparedStatementData)) (reconnects : List (Nat → PrepareReply)) :
    pool.perform paramCount texts size (.statement key index values reconnects) =
      StatementFault.assert (if ∀ value ∈ values, value.1 < capacity then
        (c.execute paramCount texts size index (given capacity values) reconnects).map
          fun result => (result.1, pool.setConnection key result.2)
      else none) := by
  simp only [perform, hc, getPreparedStatement, hcapacity, foldlM_statementData]
  split
  · cases hexecute : c.execute paramCount texts size index (given capacity values) reconnects with
    | none =>
      simp only [StatementFault.assert, bind, Except.bind, hexecute]
      rfl
    | some result =>
      simp only [StatementFault.assert, bind, Except.bind, hexecute]
      rfl
  · rfl

/-- A statement of the table, on a connection that takes it. -/
theorem Prepared.perform_listed (h : pool.Prepared paramCount texts size)
    (hnodup : (texts.map StatementText.index).Nodup) (hindex : ∀ text ∈ texts, text.index < size)
    (hc : (pool._connections key.1)[key.2]? = some c) {text : StatementText}
    (htext : StatementConnection.Listed texts key.1 index text)
    (values : List (Nat × PreparedStatementData)) (reconnects : List (Nat → PrepareReply)) :
    ((∃ result, pool.perform paramCount texts size (.statement key index values reconnects) =
          .ok result) ↔
        (∀ value ∈ values, value.1 < paramCount text.sql) ∧
          ∀ replies ∈ reconnects, AllPrepare texts key.1 replies) ∧
      ∀ result, pool.perform paramCount texts size (.statement key index values reconnects) =
          .ok result →
        result.2.Prepared paramCount texts size ∧ result.1.length = reconnects.length + 1 ∧
          ∀ views ∈ result.1, Shows (given (paramCount text.sql) values) views := by
  obtain ⟨hprepared, -, hall⟩ := h.at hc
  obtain ⟨hget, hlt⟩ := hall text htext.mem htext.takes
  rw [perform_statement hc (htext.index ▸ hget)]
  by_cases hvalues : ∀ value ∈ values, value.1 < paramCount text.sql
  · have hcount : (given (paramCount text.sql) values).length = paramCount text.sql := by
      simp [given]
    obtain ⟨hsome, hresult⟩ := hprepared.execute hnodup hindex htext hcount hlt reconnects
    rw [if_pos hvalues]
    cases hexecute : c.execute paramCount texts size index (given (paramCount text.sql) values)
        reconnects with
    | none =>
      rw [hexecute] at hsome
      have hnot : ¬ ∀ replies ∈ reconnects, AllPrepare texts key.1 replies := fun hr => by
        simpa using hsome.mpr hr
      refine ⟨⟨?_, fun hr => absurd hr.2 hnot⟩, ?_⟩
      · rintro ⟨result, hresult⟩
        cases hresult
      · rintro result hresult
        cases hresult
    | some result =>
      rw [hexecute] at hsome hresult
      obtain ⟨hc', hlength, hviews⟩ := hresult result rfl
      refine ⟨⟨fun _ => ⟨hvalues, hsome.mp rfl⟩, fun _ => ⟨_, rfl⟩⟩, ?_⟩
      rintro _ ⟨⟩
      exact ⟨h.setConnection key hc', hlength, hviews⟩
  · rw [if_neg hvalues]
    refine ⟨⟨?_, fun hr => absurd hr.1 hvalues⟩, ?_⟩
    · rintro ⟨result, hresult⟩
      cases hresult
    · rintro result hresult
      cases hresult

/-- Any other index below the number of statements fails an `ASSERT`. -/
theorem Prepared.perform_unlisted (h : pool.Prepared paramCount texts size)
    (hc : (pool._connections key.1)[key.2]? = some c)
    (hnone : ¬ ∃ text, StatementConnection.Listed texts key.1 index text)
    (values : List (Nat × PreparedStatementData)) (reconnects : List (Nat → PrepareReply)) :
    pool.perform paramCount texts size (.statement key index values reconnects) =
      .error (if index < size then .assertFails else .outOfBounds) := by
  obtain ⟨hprepared, hlength, -⟩ := h.at hc
  by_cases hlt : index < size
  · rw [perform_statement hc (List.getElem?_eq_getElem (hlength ▸ hlt)),
      hprepared.execute_none hnone, if_pos hlt, Option.map_none, ite_self]
    rfl
  · have hnone' : pool._preparedStatementSize[index]? = none :=
      List.getElem?_eq_none (by omega)
    simp only [perform, hc, getPreparedStatement, hnone', if_neg hlt]
    rfl

theorem Prepared.perform (h : pool.Prepared paramCount texts size)
    (hnodup : (texts.map StatementText.index).Nodup) (hindex : ∀ text ∈ texts, text.index < size)
    {event : StatementEvent} {result : List (List BindView) × StatementPool}
    (hperform : pool.perform paramCount texts size event = .ok result) :
    result.2.Prepared paramCount texts size := by
  cases event with
  | reconnect key replies =>
    cases hc : (pool._connections key.1)[key.2]? with
    | none =>
      simp only [StatementPool.perform, hc, Except.ok.injEq] at hperform
      subst hperform
      exact h
    | some c =>
      obtain ⟨-, hprepared⟩ := (h.at hc).1.prepareStatements hnodup hindex replies
      simp only [StatementPool.perform, hc] at hperform
      cases hprepare : c.prepareStatements paramCount texts size true replies with
      | mk prepared c' =>
        rw [hprepare] at hperform hprepared
        cases prepared with
        | false => cases hperform
        | true =>
          cases hperform
          exact h.setConnection key (hprepared rfl)
  | statement key index values reconnects =>
    cases hc : (pool._connections key.1)[key.2]? with
    | none =>
      simp only [StatementPool.perform, hc, Except.ok.injEq] at hperform
      subst hperform
      exact h
    | some c =>
      by_cases hlisted : ∃ text, StatementConnection.Listed texts key.1 index text
      · obtain ⟨text, htext⟩ := hlisted
        exact ((h.perform_listed hnodup hindex hc htext values reconnects).2 result hperform).1
      · rw [h.perform_unlisted hc hlisted] at hperform
        cases hperform

theorem Prepared.performAll (hnodup : (texts.map StatementText.index).Nodup)
    (hindex : ∀ text ∈ texts, text.index < size) {events : List StatementEvent}
    {pool' : StatementPool} (h : pool.Prepared paramCount texts size)
    (hevents : pool.performAll paramCount texts size events = .ok pool') :
    pool'.Prepared paramCount texts size := by
  induction events generalizing pool with
  | nil =>
    cases hevents
    exact h
  | cons event events ih =>
    obtain ⟨next, hnext, hrest⟩ := Except.bind_eq_ok.mp hevents
    obtain ⟨result, hperform, rfl⟩ := Except.map_eq_ok.mp hnext
    exact ih (h.perform hnodup hindex hperform) hrest

/-- After a `PrepareStatements` that returned `true`, whatever was executed and however often
the connections prepared their statements again: a statement that is got by its index can be
executed on a connection exactly if its text is prepared for the kind of that connection, all
of its values are for parameters of the text and no reconnect fails, and then every attempt
sends for each parameter the value it was given last, or `false`. Any other index of the table
fails an `ASSERT`. -/
theorem statements_by_index (hnodup : (texts.map StatementText.index).Nodup)
    (hindex : ∀ text ∈ texts, text.index < size) {async_threads synch_threads : Nat}
    {replies : InternalIndex → Nat → Nat → PrepareReply} {pool' : StatementPool}
    (hprepare : (create async_threads synch_threads).prepareStatements paramCount texts size
      replies = some (true, pool))
    {events : List StatementEvent}
    (hevents : pool.performAll paramCount texts size events = .ok pool')
    (hc : (pool'._connections key.1)[key.2]? = some c) (hlt : index < size)
    (values : List (Nat × PreparedStatementData)) (reconnects : List (Nat → PrepareReply)) :
    ((¬ ∃ text ∈ texts, text.index = index ∧ key.1.takes text.flags = true) →
        pool'.perform paramCount texts size (.statement key index values reconnects) =
          .error .assertFails) ∧
      ∀ text ∈ texts, text.index = index → key.1.takes text.flags = true →
        ((∃ result, pool'.perform paramCount texts size
              (.statement key index values reconnects) = .ok result) ↔
            (∀ value ∈ values, value.1 < paramCount text.sql) ∧
              ∀ replies ∈ reconnects, AllPrepare texts key.1 replies) ∧
          ∀ result, pool'.perform paramCount texts size
              (.statement key index values reconnects) = .ok result →
            result.1.length = reconnects.length + 1 ∧
              ∀ views ∈ result.1, Shows (given (paramCount text.sql) values) views := by
  have hpool := (prepareStatements_prepared hnodup hindex hprepare).performAll hnodup hindex hevents
  constructor
  · intro hnone
    rw [hpool.perform_unlisted hc, if_pos hlt]
    rintro ⟨text, htext⟩
    exact hnone ⟨text, htext.mem, htext.index, htext.takes⟩
  · intro text hmem heq htakes
    obtain ⟨hiff, hresult⟩ := hpool.perform_listed hnodup hindex hc ⟨hmem, heq, htakes⟩ values
      reconnects
    exact ⟨hiff, fun result hperform => (hresult result hperform).2⟩

/-- The login database with one connection of each kind: the update behind a logon, with a
reconnect between two attempts, and the same on the asynchronous connection. -/
theorem statements_by_index_logon :
    ∃ pool, (create 1 1).prepareStatements (fun sql => sql.toList.count '?') loginDatabaseTexts
        LoginDatabaseStatements.MAX_LOGINDATABASE_STATEMENTS.value (fun _ _ _ => .prepares) =
          some (true, pool) ∧
      (∃ result, pool.perform (fun sql => sql.toList.count '?') loginDatabaseTexts 4
          (.statement (.IDX_SYNCH, 0) 3 [(4, .string [65]), (1, .nullptr), (4, .string [66])]
            [fun _ => .prepares]) = .ok result ∧ result.1.length = 2 ∧
        ∀ views ∈ result.1,
          Shows [.bool false, .nullptr, .bool false, .bool false, .string [66]] views) ∧
      pool.perform (fun sql => sql.toList.count '?') loginDatabaseTexts 4
        (.statement (.IDX_ASYNC, 0) 3 [] []) = .error .assertFails := by
  have hresult : ((create 1 1).prepareStatements (fun sql => sql.toList.count '?')
      loginDatabaseTexts 4 (fun _ _ _ => .prepares)).map (fun result => (result.1,
        (result.2._connections .IDX_ASYNC).length, (result.2._connections .IDX_SYNCH).length)) =
          some (true, 1, 1) := by
    decide +kernel
  obtain ⟨⟨_, pool⟩, hprepare, heq⟩ := Option.map_eq_some_iff.mp hresult
  obtain ⟨rfl, hasync, hsynch⟩ : _ ∧ _ ∧ _ := by simpa using heq
  obtain ⟨c, hc⟩ := List.length_eq_one_iff.mp hsynch
  obtain ⟨d, hd⟩ := List.length_eq_one_iff.mp hasync
  have hnodup : (loginDatabaseTexts.map StatementText.index).Nodup := by decide
  have hindex : ∀ text ∈ loginDatabaseTexts, text.index < 4 := by decide
  have hevents : pool.performAll (fun sql => sql.toList.count '?') loginDatabaseTexts 4 [] =
      .ok pool := rfl
  have hc' : (pool._connections (InternalIndex.IDX_SYNCH, 0).1)[0]? = some c := by simp [hc]
  have hd' : (pool._connections (InternalIndex.IDX_ASYNC, 0).1)[0]? = some d := by simp [hd]
  obtain ⟨-, hlisted⟩ := statements_by_index hnodup hindex hprepare hevents hc'
    (show 3 < 4 by decide) [(4, .string [65]), (1, .nullptr), (4, .string [66])]
    [fun _ => .prepares]
  obtain ⟨hnone, -⟩ := statements_by_index hnodup hindex hprepare hevents hd'
    (show 3 < 4 by decide) [] []
  obtain ⟨hiff, hshows⟩ := hlisted _ (List.mem_cons_of_mem _ List.mem_cons_self) rfl (by decide)
  obtain ⟨result, hok⟩ := hiff.mpr ⟨by decide +kernel, by simp [AllPrepare]⟩
  obtain ⟨hlength, hviews⟩ := hshows result hok
  exact ⟨pool, hprepare, ⟨result, hok, hlength, hviews⟩, hnone (by decide)⟩

end StatementPool

end Mpool.Database
