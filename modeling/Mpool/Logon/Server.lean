import Mpool.Lib.Components
import Mpool.Logon.AsyncIO

/-! `CMyService`: one thread runs the handlers of all connections, one handler at
a time, and an accept is started again before its connection. The connections
share the account table: a challenge selects a row of it, a login updates one. A
fault in any handler ends the process. -/

namespace Mpool.Logon

open Runs
open Components (World Life lives entriesOf)

/-- A row of `account`: what `LOGIN_SEL_LOGONCHALLENGE` selects, and the columns
`LOGIN_UPD_LOGONPROOF` sets but for `last_login`. -/
structure Account where
  row : AccountRow
  session_key : SessionKey
  last_ip : Bytes
  locale : Bytes
  os : Bytes

/-- The calls one step of a connection makes. -/
def Machine.calls (H : Hash) (m : Machine) (l : Label) : List Call :=
  if m.fault.isSome then []
  else match l with
  | .completeRead k env =>
    match m.reads[k]? with
    | some (some n) => (handleRead H env m.conn false n).calls
    | _ => []
  | .failRead k env =>
    if m.reads[k]? = some none then (handleRead H env m.conn true 0).calls else []
  | _ => []

/-- The step with the answers of this account table. -/
def Label.on (account : Bytes → Option AccountRow) : Label → Label
  | .completeRead k env => .completeRead k { env with account := account }
  | .failRead k env => .failRead k { env with account := account }
  | l => l

/-- `same` is how the database compares two user names. -/
def select (same : Bytes → Bytes → Bool) (accounts : List Account) (login : Bytes) :
    Option AccountRow :=
  (accounts.find? fun a => same a.row.username login).map Account.row

/-- Whether the update of a call is for this account. -/
def Account.addressed (same : Bytes → Bytes → Bool) (a : Account) : Call → Bool
  | .directExecute _ _ _ _ userName => same a.row.username userName
  | _ => false

def Account.update (a : Account) : Call → Account
  | .directExecute sessionKey address locale os _ =>
    { a with session_key := sessionKey, last_ip := address, locale := locale, os := os }
  | _ => a

def execute (same : Bytes → Bytes → Bool) (accounts : List Account) (c : Call) : List Account :=
  accounts.map fun a => if a.addressed same c then a.update c else a

/-- The service with the accepts in flight, the connections in the order they
were accepted in, the account table and the calls made so far. -/
structure Service where
  accepts : Nat
  connections : List Machine
  accounts : List Account
  log : List (Nat × Call)

/-- The completion of an accept, or a step of the connection `k`. -/
inductive ServiceEvent where
  | accept (error : Bool) (buff : Buffer)
  | io (k : Nat) (l : Label)

namespace Service

def startAccept (s : Service) : Service := { s with accepts := s.accepts + 1 }

/-- The constructor of `CMyService`. -/
def start (accounts : List Account) : Service :=
  startAccept ⟨0, [], accounts, []⟩

def handleAccept (s : Service) (error : Bool) (buff : Buffer) : Service :=
  let s := s.startAccept
  if error then s else { s with connections := s.connections ++ [.start buff] }

def up (s : Service) : Bool := !s.connections.any fun m => m.fault.isSome

variable (H : Hash) (same : Bytes → Bytes → Bool)

def step (s : Service) (e : ServiceEvent) : Service :=
  if s.up then
    match e with
    | .accept error buff =>
      if 0 < s.accepts then { s with accepts := s.accepts - 1 }.handleAccept error buff else s
    | .io k l =>
      match s.connections[k]? with
      | none => s
      | some m =>
        let l := l.on (select same s.accounts)
        let calls := m.calls H l
        { s with
          connections := s.connections.set k (m.step H l)
          accounts := calls.foldl (execute same) s.accounts
          log := s.log ++ calls.map (k, ·) }
  else s

/-! ## The account table -/

/-- An account after a list of calls: the last update for it counts. -/
def lastUpdate (calls : List Call) (a : Account) : Account :=
  match (calls.filter (a.addressed same)).getLast? with
  | none => a
  | some c => a.update c

theorem row_lastUpdate (calls : List Call) (a : Account) :
    (lastUpdate same calls a).row = a.row := by
  unfold lastUpdate
  split
  · rfl
  · rename_i c _
    cases c <;> rfl

theorem update_lastUpdate (calls : List Call) (a : Account) {c : Call}
    (h : a.addressed same c = true) : (lastUpdate same calls a).update c = a.update c := by
  unfold lastUpdate
  split
  · rfl
  · rename_i d _
    cases c with
    | directExecute sessionKey address locale os userName => cases d <;> rfl
    | _ => cases h

theorem foldl_execute (calls : List Call) (accounts : List Account) :
    calls.foldl (execute same) accounts = accounts.map (lastUpdate same calls) := by
  induction calls using List.reverseRecOn with
  | nil => exact (List.map_id accounts).symm
  | append_singleton calls c ih =>
    rw [List.foldl_append, ih, List.foldl_cons, List.foldl_nil, execute, List.map_map]
    refine List.map_congr_left fun a _ => ?_
    have hrow := row_lastUpdate same calls a
    have haddr : (lastUpdate same calls a).addressed same c = a.addressed same c := by
      cases c <;> simp [Account.addressed, hrow]
    simp only [Function.comp_apply, haddr]
    cases hc : a.addressed same c with
    | false => simp [lastUpdate, hc]
    | true => simp [lastUpdate, hc, ← update_lastUpdate same calls a hc]

/-- No update changes what a challenge selects. -/
theorem select_lastUpdate (calls : List Call) (accounts : List Account) :
    select same (accounts.map (lastUpdate same calls)) = select same accounts := by
  funext login
  simp only [select, List.find?_map, Function.comp_def, row_lastUpdate, Option.map_map]

/-! ## The connections -/

/-- The events of a history, for connections that do not know of each other. -/
def trace (accounts : List Account) : ServiceEvent → List (Components.Event Buffer Label)
  | .accept true _ => []
  | .accept false buff => [.create buff]
  | .io k l => [.input k (l.on (select same accounts))]

def connectionLives (accounts : List Account) (es : List ServiceEvent) :
    List (Life Buffer Label) :=
  lives (es.flatMap (trace same accounts))

/-- One accept is in flight, the connections and the log are those of separate
components, and the table is the first one after the logged calls. -/
structure Serves (accounts : List Account) (s : Service) (w : World Machine Call) : Prop where
  accepts : s.accepts = 1
  connections : s.connections = w.parts
  log : s.log = w.log
  accounts : s.accounts = accounts.map (lastUpdate same (w.log.map Prod.snd))

/-- The connections as components, all of them stopped by a fault of one. -/
abbrev together : World Machine Call → Components.Event Buffer Label → World Machine Call :=
  Components.guarded Machine.start (Machine.step H) (Machine.calls H) fun m => m.fault.isSome

/-- The same without that. -/
abbrev apart : World Machine Call → Components.Event Buffer Label → World Machine Call :=
  Components.act Machine.start (Machine.step H) (Machine.calls H)

variable {same} {accounts : List Account}

theorem Serves.step {s : Service} {w : World Machine Call} (h : Serves same accounts s w)
    (e : ServiceEvent) :
    Serves same accounts (s.step H same e) (run (together H) w (trace same accounts e)) := by
  cases hup : s.up with
  | false =>
    have hdown : (w.parts.any fun m => m.fault.isSome) = true := by
      simpa [up, h.connections] using hup
    have hstay : ∀ e', together H w e' = w := fun e' => by
      simp [Components.guarded, hdown]
    have hw : run (together H) w (trace same accounts e) = w :=
      run_invariant (P := (· = w)) (fun v e' hv => by rw [hv, hstay]) rfl _
    have hs : s.step H same e = s := by simp [Service.step, hup]
    rw [hw, hs]
    exact h
  | true =>
    have hall : (w.parts.any fun m => m.fault.isSome) = false := by
      simpa [up, h.connections] using hup
    have hact : ∀ e', together H w e' = apart H w e' := fun e' => by
      simp [Components.guarded, hall]
    cases e with
    | accept error buff =>
      have hs : s.step H same (.accept error buff) =
          { s with accepts := s.accepts - 1 }.handleAccept error buff := by
        simp [Service.step, hup, h.accepts]
      rw [hs]
      cases error with
      | true => exact ⟨by simp [handleAccept, startAccept, h.accepts], h.connections, h.log,
          h.accounts⟩
      | false =>
        have hw : run (together H) w (trace same accounts (.accept false buff)) =
            { w with parts := w.parts ++ [.start buff] } := hact _
        rw [hw]
        exact ⟨by simp [handleAccept, startAccept, h.accepts],
          congrArg (· ++ [Machine.start buff]) h.connections, h.log, h.accounts⟩
    | io k l =>
      have hsel : select same s.accounts = select same accounts := by
        rw [h.accounts, select_lastUpdate]
      have hw : run (together H) w (trace same accounts (.io k l)) =
          apart H w (.input k (l.on (select same accounts))) := hact _
      rw [hw]
      cases hk : w.parts[k]? with
      | none =>
        have hs : s.step H same (.io k l) = s := by
          simp [Service.step, hup, h.connections, hk]
        rw [hs, apart, Components.act_input_none _ _ _ hk]
        exact h
      | some m =>
        rw [apart, Components.act_input_some _ _ _ hk]
        simp only [Service.step, hup, ↓reduceIte, h.connections, hk, hsel]
        refine ⟨h.accepts, rfl, congrArg (· ++ _) h.log, ?_⟩
        rw [h.accounts, ← foldl_execute, ← foldl_execute, ← List.foldl_append]
        simp [List.map_map, Function.comp_def]

theorem Serves.start (accounts : List Account) :
    Serves same accounts (start accounts) .empty where
  accepts := rfl
  connections := rfl
  log := rfl
  accounts := (List.map_id accounts).symm

variable (same) in
theorem serves_run (accounts : List Account) (es : List ServiceEvent) :
    Serves same accounts (run (Service.step H same) (start accounts) es)
      (run (together H) .empty (es.flatMap (trace same accounts))) :=
  run_simulation (C := fun _ _ => True) (trace same accounts) (fun _ _ e h _ => h.step H e)
    (Serves.start accounts) (along_of_forall (fun _ _ => trivial) _)

variable (same) in
/-- Whatever the interleaving of accepts, reads, writes and closes of all
connections: one accept is in flight; the process is up exactly if no connection
faults in a run of its own, on its own reads and the first account table; as
long as it is up, each connection is where this run leads and has made the
calls of this run; and each account has its last update in the order of all. -/
theorem connections_independent (accounts : List Account) (es : List ServiceEvent) :
    let s := run (Service.step H same) (start accounts) es
    let ls := connectionLives same accounts es
    s.accepts = 1 ∧
      (s.up = true ↔ ∀ l ∈ ls, (l.state Machine.start (Machine.step H)).fault = none) ∧
      (s.up = true → s.connections = ls.map (Life.state Machine.start (Machine.step H)) ∧
        ∀ k, entriesOf k s.log = (ls[k]?.map
          (Life.outputs Machine.start (Machine.step H) (Machine.calls H))).getD []) ∧
      s.accounts = accounts.map (lastUpdate same (s.log.map Prod.snd)) := by
  intro s ls
  have hs := serves_run H same accounts es
  have ht := Components.tracks_run Machine.start (Machine.step H) (Machine.calls H)
    (es.flatMap (trace same accounts))
  have hstays : ∀ (m : Machine) l, m.fault.isSome = true → (m.step H l).fault.isSome = true :=
    fun m l hm => by simp [Machine.step, hm]
  obtain ⟨hany, hsame⟩ := Components.guarded_run Machine.start (Machine.step H) (Machine.calls H)
    hstays .empty (es.flatMap (trace same accounts))
  have hup : s.up = !(run (apart H) .empty (es.flatMap (trace same accounts))).parts.any
      fun m => m.fault.isSome := by
    rw [← hany, ← hs.connections]
    rfl
  refine ⟨hs.accepts, ?_, fun h => ?_, ?_⟩
  · rw [hup, ht.parts]
    simp [ls, connectionLives]
  · have hw := hsame (by simpa [hup] using h)
    refine ⟨?_, fun k => ?_⟩
    · rw [hs.connections, hw]
      exact ht.parts
    · rw [hs.log, hw]
      exact ht.log k
  · rw [hs.log]
    exact hs.accounts

end Service

end Mpool.Logon
