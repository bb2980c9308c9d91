import Mpool.Common.StringConvert
import Mpool.Common.Tokenize
import Mpool.Common.Util

/-! What `MySQLConnection::Open` makes of the connection info, which all the
connections of a pool share by reference: it reads the host and the port, and
for a socket it writes the host. -/

namespace Mpool.Database

open Util (text)

structure MySQLConnectionInfo where
  user : Bytes
  password : Bytes
  database : Bytes
  host : Bytes
  port_or_socket : Bytes
  ssl : Bytes
  deriving DecidableEq

namespace MySQLConnectionInfo

def empty : MySQLConnectionInfo := ⟨[], [], [], [], [], []⟩

/-- The constructor; another number of fields leaves all of them empty. -/
def ofString (infoString : Bytes) : MySQLConnectionInfo :=
  match tokenize infoString 59 true with
  | [host, port_or_socket, user, password, database] =>
    { empty with host, port_or_socket, user, password, database }
  | [host, port_or_socket, user, password, database, ssl] =>
    { host, port_or_socket, user, password, database, ssl }
  | _ => empty

end MySQLConnectionInfo

inductive Protocol where
  | default
  | MYSQL_PROTOCOL_SOCKET
  deriving DecidableEq

/-- Where `mysql_real_connect` is told to connect. -/
structure Endpoint where
  protocol : Protocol
  host : Bytes
  port : Nat
  unix_socket : Option Bytes
  deriving DecidableEq

/-- `Open` up to `mysql_real_connect`, behind a successful `mysql_init`; `none`
is the use of an empty optional port. -/
def MySQLConnectionInfo.endpoint (info : MySQLConnectionInfo) :
    MySQLConnectionInfo × Option Endpoint :=
  if info.host = text "." then
    let info := { info with host := text "localhost" }
    (info, some {
      protocol := .MYSQL_PROTOCOL_SOCKET
      host := info.host
      port := 0
      unix_socket := some info.port_or_socket })
  else
    match stringTo 32 info.port_or_socket with
    | none => (info, none)
    | some port =>
      (info, some { protocol := .default, host := info.host, port := port, unix_socket := none })

/-- The calls of `Open` on connections that share `info`; a call is given by
whether its `mysql_init` succeeds. The result is what each call that gets there
makes of the endpoint. -/
def openEndpoints (info : MySQLConnectionInfo) : List Bool → List (Option Endpoint)
  | [] => []
  | false :: inits => openEndpoints info inits
  | true :: inits => info.endpoint.2 :: openEndpoints info.endpoint.1 inits

/-- Every call connects, and all to the endpoint of the first. -/
def OneEndpoint (endpoints : List (Option Endpoint)) : Prop :=
  ∀ endpoint ∈ endpoints, endpoint ≠ none ∧ endpoints.head? = some endpoint

/-! ## Which calls agree -/

/-- Where the host is no socket, `Open` leaves the info as it is. -/
theorem MySQLConnectionInfo.endpoint_fst {info : MySQLConnectionInfo}
    (h : info.host ≠ text ".") : info.endpoint.1 = info := by
  simp only [endpoint, h, ↓reduceIte]
  split <;> rfl

theorem MySQLConnectionInfo.endpoint_snd_isSome {info : MySQLConnectionInfo}
    (h : info.host ≠ text ".") :
    info.endpoint.2.isSome = (stringTo 32 info.port_or_socket).isSome := by
  simp only [endpoint, h, ↓reduceIte]
  split
  · rename_i hport
    rw [hport]
    rfl
  · rename_i port hport
    rw [hport]
    rfl

theorem openEndpoints_replicate {info : MySQLConnectionInfo} (h : info.host ≠ text ".")
    (inits : List Bool) :
    openEndpoints info inits = List.replicate (inits.count true) info.endpoint.2 := by
  induction inits with
  | nil => rfl
  | cons init inits ih =>
    cases init with
    | false => simpa [openEndpoints] using ih
    | true =>
      rw [openEndpoints, info.endpoint_fst h, ih, List.count_cons_self, List.replicate_succ]

theorem oneEndpoint_replicate (n : Nat) (endpoint : Option Endpoint) :
    OneEndpoint (List.replicate n endpoint) ↔ n = 0 ∨ endpoint ≠ none := by
  cases n with
  | zero => simp [OneEndpoint]
  | succ n =>
    constructor
    · intro h
      exact Or.inr (h endpoint (by simp)).1
    · rintro (h | h) x hx
      · cases h
      · obtain rfl := List.eq_of_mem_replicate hx
        exact ⟨h, rfl⟩

theorem localhost_ne : text "localhost" ≠ text "." := by decide

theorem MySQLConnectionInfo.endpoint_socket {info : MySQLConnectionInfo}
    (h : info.host = text ".") :
    info.endpoint = ({ info with host := text "localhost" },
      some ⟨.MYSQL_PROTOCOL_SOCKET, text "localhost", 0, some info.port_or_socket⟩) := by
  simp [endpoint, h]

/-- The first call for a socket replaces the host, and the others go elsewhere. -/
theorem MySQLConnectionInfo.endpoint_ne {info : MySQLConnectionInfo} (h : info.host = text ".") :
    info.endpoint.1.endpoint.2 ≠ info.endpoint.2 := by
  rw [info.endpoint_socket h]
  simp only [endpoint, localhost_ne, ↓reduceIte]
  split <;> simp

theorem openEndpoints_socket {info : MySQLConnectionInfo} (h : info.host = text ".")
    (inits : List Bool) :
    inits.count true = 0 ∧ openEndpoints info inits = [] ∨
      ∃ n, inits.count true = n + 1 ∧ openEndpoints info inits =
        info.endpoint.2 :: List.replicate n info.endpoint.1.endpoint.2 := by
  induction inits with
  | nil => exact Or.inl ⟨rfl, rfl⟩
  | cons init inits ih =>
    cases init with
    | false => simpa [openEndpoints] using ih
    | true =>
      have hlocal : info.endpoint.1.host ≠ text "." := by
        rw [info.endpoint_socket h]
        exact localhost_ne
      refine Or.inr ⟨inits.count true, by simp, ?_⟩
      rw [openEndpoints, openEndpoints_replicate hlocal]

/-- The calls agree on the endpoint when the host is a host and the port a number,
or when a socket is opened only once. -/
theorem one_endpoint_iff (infoString : Bytes) (inits : List Bool) :
    OneEndpoint (openEndpoints (.ofString infoString) inits) ↔
      inits.count true = 0 ∨
        if (MySQLConnectionInfo.ofString infoString).host = text "." then inits.count true = 1
        else (stringTo 32 (MySQLConnectionInfo.ofString infoString).port_or_socket).isSome := by
  generalize MySQLConnectionInfo.ofString infoString = info
  by_cases hhost : info.host = text "."
  · rw [if_pos hhost]
    rcases openEndpoints_socket hhost inits with ⟨hcount, hnil⟩ | ⟨n, hcount, hcons⟩
    · simp [hnil, hcount, OneEndpoint]
    · rw [hcons, hcount]
      cases n with
      | zero => simp [OneEndpoint, info.endpoint_socket hhost]
      | succ n =>
        constructor
        · intro hone
          have hnext := (hone info.endpoint.1.endpoint.2 (by simp)).2
          exact absurd (Option.some.inj hnext).symm (info.endpoint_ne hhost)
        · rintro (h | h) <;> simp at h
  · rw [if_neg hhost, openEndpoints_replicate hhost, oneEndpoint_replicate,
      ← info.endpoint_snd_isSome hhost, ← Option.isSome_iff_ne_none]

/-- The second connection over a socket takes the path of the socket for a port. -/
theorem second_socket_lost :
    openEndpoints (.ofString (text ".;/tmp/mysql.sock;root;secret;auth")) [true, true] =
        [some ⟨.MYSQL_PROTOCOL_SOCKET, text "localhost", 0, some (text "/tmp/mysql.sock")⟩,
          none] ∧
      ¬ OneEndpoint (openEndpoints
        (.ofString (text ".;/tmp/mysql.sock;root;secret;auth")) [true, true]) := by
  refine ⟨by decide, fun h => ?_⟩
  exact (h none (by decide)).1 rfl

end Mpool.Database
