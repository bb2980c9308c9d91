import Mpool.Common.Config
import Mpool.Common.StringConvert
import Mpool.Database.Clients
import Mpool.Database.Loading

/-! The options of a database from the configuration to the first call of its pool.
The number of worker threads is checked, that of the synchronous connections is
not: a pool without any is opened like another. -/

namespace Mpool

open Util (text)

namespace ConfigMgr

/-- `GetOption<std::string>`. -/
def getOptionString (this : ConfigMgr) (name default : Bytes) : Bytes :=
  match this.configOptions.lookup name with
  | none => default
  | some value => value

/-- `GetOption<uint8>`: what is no such number counts as missing. -/
def getOptionUInt8 (this : ConfigMgr) (name : Bytes) (default : UInt8) : UInt8 :=
  match this.configOptions.lookup name with
  | none => default
  | some value =>
    match stringTo 8 value with
    | none => default
    | some n => UInt8.ofNat n

end ConfigMgr

/-- The texts of the number zero. -/
def IsZeroText (s : Bytes) : Prop := s ≠ [] ∧ ∀ c ∈ s, c = 48

theorem foldl_decimal_eq_zero (s : Bytes) (n : Nat) :
    s.foldl (fun n c => 10 * n + (c.toNat - 48)) n = 0 ↔ n = 0 ∧ ∀ c ∈ s, c.toNat ≤ 48 := by
  induction s generalizing n with
  | nil => simp
  | cons c s ih =>
    rw [List.foldl_cons, ih, List.forall_mem_cons]
    constructor
    · rintro ⟨hn, hs⟩
      exact ⟨by omega, by omega, hs⟩
    · rintro ⟨hn, hc, hs⟩
      exact ⟨by omega, hs⟩

theorem stringTo_eq_zero {bits : Nat} {s : Bytes} : stringTo bits s = some 0 ↔ IsZeroText s := by
  unfold stringTo IsZeroText
  constructor
  · intro h
    split at h
    · next hall =>
      have hzero : decimal s = 0 := Option.some.inj h
      refine ⟨hall.1, ?_⟩
      intro c hc
      have hle := ((foldl_decimal_eq_zero s 0).mp hzero).2 c hc
      have hdigit := List.all_eq_true.mp hall.2.1 c hc
      have hge : 48 ≤ c.toNat := by
        rw [isDigit, Bool.and_eq_true, decide_eq_true_eq] at hdigit
        exact UInt8.le_iff_toNat_le.mp hdigit.1
      exact UInt8.toNat_inj.mp (by change c.toNat = 48; omega)
    · cases h
  · rintro ⟨hne, hall⟩
    have hdigits : s.all isDigit = true := by
      rw [List.all_eq_true]
      intro c hc
      rw [hall c hc]
      decide
    have hzero : decimal s = 0 := by
      refine (foldl_decimal_eq_zero s 0).mpr ⟨rfl, ?_⟩
      intro c hc
      rw [hall c hc]
      decide
    rw [if_pos ⟨hne, hdigits, by rw [hzero]; positivity⟩, hzero]

/-- An option with a positive default is zero only where its text says so. -/
theorem ConfigMgr.getOptionUInt8_eq_zero (this : ConfigMgr) (name : Bytes) {default : UInt8}
    (hdefault : default ≠ 0) :
    (this.getOptionUInt8 name default).toNat = 0 ↔
      ∃ value, this.configOptions.lookup name = some value ∧ IsZeroText value := by
  have hpos : default.toNat ≠ 0 := fun h => hdefault (UInt8.toNat_inj.mp h)
  unfold getOptionUInt8
  cases hlookup : this.configOptions.lookup name with
  | none => simp [hpos]
  | some value =>
    cases hvalue : stringTo 8 value with
    | none =>
      have hnot : ¬ IsZeroText value := by
        rw [← stringTo_eq_zero, hvalue]
        exact nofun
      simp [hvalue, hpos, hnot]
    | some n =>
      have hlt : n < 2 ^ 8 := by
        unfold stringTo at hvalue
        split at hvalue
        · next hall =>
          cases hvalue
          exact hall.2.2
        · cases hvalue
      have hzero : n = 0 ↔ IsZeroText value := by
        rw [← @stringTo_eq_zero 8, hvalue, Option.some_inj]
      have hnat : (UInt8.ofNat n).toNat = n := UInt8.toNat_ofNat_of_lt hlt
      simp only [hvalue, hnat, hzero, Option.some.injEq, exists_eq_left']

namespace Database

/-! ## Registrations -/

/-- What happens to a registered database that the configuration does not tell. -/
structure Behaviour (Op : Type*) where
  rounds : Nat → Round Op
  meanwhile : List (Activity Op)
  prepared : InternalIndex → Nat → Bool

variable {Op : Type*}

/-- The options that `AddDatabase` reads for the database `name`. -/
def registration (this : ConfigMgr) (name : Bytes) (behaviour : Behaviour Op) :
    Registration Op where
  dbString := this.getOptionString (name ++ text "DatabaseInfo") []
  asyncThreads := this.getOptionUInt8 (name ++ text "Database.WorkerThreads") 1
  synchThreads := this.getOptionUInt8 (name ++ text "Database.SynchThreads") 1
  reconnectAttempts := this.getOptionUInt8 (text "Database.Reconnect.Attempts") 20
  rounds := behaviour.rounds
  meanwhile := behaviour.meanwhile
  prepared := behaviour.prepared

namespace DatabaseLoader

open DatabaseWorkerPool

/-- A database that is opened from a new pool has its synchronous connections. -/
theorem opens_synch {db : Registration Op} (h : Opens db) :
    (db.openAction .create).1.sizes .IDX_SYNCH = db.synchThreads.toNat := by
  cases hconfig : db.config with
  | none =>
    rw [Opens, openAction_none hconfig] at h
    cases h
  | some config =>
    obtain ⟨m, hm, hsizes, hopens⟩ := addDatabase_calls config db.reconnectAttempts.toNat db.rounds
      (DatabaseWorkerPool.create : DatabaseWorkerPool Op)
    rw [← openAction_some hconfig] at hsizes hopens
    have hnone := hopens.mp h
    have hthreads : db.synchThreads.toNat = config.synchThreads := by
      unfold Registration.config ConnectionConfig.ofOptions at hconfig
      split at hconfig
      · cases hconfig
      · split at hconfig
        · cases hconfig
        · cases hconfig
          rfl
    have hzero : (DatabaseWorkerPool.create : DatabaseWorkerPool Op).sizes = fun _ => 0 := rfl
    rw [hsizes, hzero, sizesAfterCalls, OpenCall.sizes]
    rw [OpenCall.failure] at hnone
    cases hasync : firstFailure config.asyncThreads ((db.rounds m).call.attempts .IDX_ASYNC) with
    | some failure =>
      rw [hasync] at hnone
      cases hnone
    | none =>
      rw [hasync] at hnone
      have hsynch := Option.map_eq_none_iff.mp hnone
      simp only [hthreads, hsynch, sizeAfter, (sizesAfterCalls_unreachable hm.unreachable).1,
        Nat.zero_add]

/-- With success every pool is as its open action has left it. -/
theorem load_pools {dbs : Nat → Registration Op} {n : Nat} (h : (load dbs n).2 = true) {k : Nat}
    (hk : k < n) :
    Opens (dbs k) ∧ ((load dbs n).1.pools k).sizes = ((dbs k).openAction .create).1.sizes := by
  have hopen := process_open dbs 0 n
  simp only [Nat.zero_add, ← List.range_eq_range'] at hopen
  rcases hopen with ⟨hall, hp⟩ | ⟨j, _, _, _, hp⟩
  · have hload : load dbs n = process (prepareAction dbs) (List.range n) (opened dbs n) := by
      rw [load, start_eq dbs, hp]
      rfl
    have hsame := (process_prepare dbs (List.range n) (s := opened dbs n) (by simp [opened])).2.1
    rw [← hload] at hsame
    refine ⟨hall k hk, ?_⟩
    have hpool : (opened dbs n).pools k = ((dbs k).openAction .create).1 := if_pos hk
    rw [hsame h k, hpool]
  · rw [load, start_eq dbs, hp] at h
    cases h

end DatabaseLoader

/-! ## Calls of the pool -/

/-- The calls that take a synchronous connection from the pool. A statement that
`isPrepared` brings its own; the length of a string is taken in 32 bits. -/
def PoolCall.NeedsConnection : PoolCall → Prop
  | .querySql _ => True
  | .query stmt => stmt.isPrepared = false
  | .directExecuteSql sql => sql ≠ []
  | .directExecute _ => True
  | .directCommitTransaction _ _ => True
  | .getPreparedStatementSql _ => True
  | .escapeString str => str.length % 2 ^ 32 ≠ 0
  | _ => False

/-- The program of a call on a pool with the connections it has. -/
def PoolCall.progOn (pool : DatabaseWorkerPool Op) (call : PoolCall) : PoolProgram :=
  call.prog (pool.sizes .IDX_SYNCH) (pool.sizes .IDX_ASYNC)

/-- Such a call fails at once just when there is no synchronous connection. -/
theorem PoolCall.prog_eq_abort {call : PoolCall} (h : call.NeedsConnection) (size async : Nat) :
    call.prog size async = .abort ↔ size = 0 := by
  have hfree : ∀ k, PoolProgram.getFreeConnection size k = .abort ↔ size = 0 := by
    intro k
    unfold PoolProgram.getFreeConnection
    split <;> simp_all
  cases call with
  | querySql sql => exact hfree _
  | query stmt =>
    have hprepared : stmt.isPrepared = false := h
    simp only [PoolCall.prog, PoolProgram.query, hprepared, Bool.false_eq_true, ↓reduceIte, hfree]
  | directExecuteSql sql =>
    simp only [PoolCall.prog, PoolProgram.directExecuteSql, if_neg h, hfree]
  | directExecute stmt => exact hfree _
  | directCommitTransaction transaction errorCode => exact hfree _
  | getPreparedStatementSql prepared => exact hfree _
  | escapeString str =>
    have hne : str ≠ [] := by
      rintro rfl
      exact h rfl
    simp only [PoolCall.prog, PoolProgram.escapeString, if_neg hne,
      PoolProgram.escapeStringBuffer, if_neg h]
    split <;> simp_all
  | _ => exact absurd h id

/-- Behind a successful `Load`, no call of a pool divides by zero or takes the first
of no connections if and only if no database is configured with zero synchronous
threads. -/
theorem load_serves_iff (this : ConfigMgr) (names : Nat → Bytes) (behaviours : Nat → Behaviour Op)
    (n : Nat) :
    let dbs := fun k => registration this (names k) (behaviours k)
    (DatabaseLoader.load dbs n).2 = true →
      ((∀ k < n, ∀ call : PoolCall, call.NeedsConnection →
        call.progOn ((DatabaseLoader.load dbs n).1.pools k) ≠ .abort) ↔
      ∀ k < n, ¬ ∃ value,
        this.configOptions.lookup (names k ++ text "Database.SynchThreads") = some value ∧
          IsZeroText value) := by
  intro dbs hload
  have hsize : ∀ k < n, ((DatabaseLoader.load dbs n).1.pools k).sizes .IDX_SYNCH =
      (this.getOptionUInt8 (names k ++ text "Database.SynchThreads") 1).toNat := by
    intro k hk
    obtain ⟨hopens, hsizes⟩ := DatabaseLoader.load_pools hload hk
    rw [hsizes]
    exact DatabaseLoader.opens_synch hopens
  have hzero : ∀ k, (this.getOptionUInt8 (names k ++ text "Database.SynchThreads") 1).toNat = 0 ↔
      ∃ value, this.configOptions.lookup (names k ++ text "Database.SynchThreads") = some value ∧
        IsZeroText value := fun k => this.getOptionUInt8_eq_zero _ (by decide)
  apply forall₂_congr
  intro k hk
  rw [← hzero, ← hsize k hk]
  constructor
  · intro hserves hnone
    have hneeds : PoolCall.NeedsConnection (.querySql []) := trivial
    exact hserves (.querySql []) hneeds ((PoolCall.prog_eq_abort hneeds _ _).mpr hnone)
  · intro hsome call hneeds habort
    exact hsome ((PoolCall.prog_eq_abort hneeds _ _).mp habort)

/-- A server that accepts every connection and prepares every statement. -/
def willing : Behaviour Unit := ⟨fun _ => ⟨[], ⟨fun _ _ => ⟨[], .opened⟩⟩⟩, [], fun _ _ => true⟩

/-- A configuration of the login database with so many synchronous threads. -/
def loginConfig (synchThreads : String) : ConfigMgr where
  filename := text "logon.conf"
  configOptions :=
    ((∅ : OptionMap).insert (text "LoginDatabaseInfo")
      (text "127.0.0.1;3306;root;root;auth")).insert (text "LoginDatabase.SynchThreads")
        (text synchThreads)
  usingDistConfig := false
  output := []

theorem one_thread_serves : ∀ k < 1, ∀ call : PoolCall, call.NeedsConnection →
    call.progOn ((DatabaseLoader.load
      (fun _ => registration (loginConfig "1") (text "Login") willing) 1).1.pools k) ≠ .abort := by
  have hload : (DatabaseLoader.load
      (fun _ => registration (loginConfig "1") (text "Login") willing) 1).2 = true := by decide
  have hlookup : (loginConfig "1").configOptions.lookup (text "Login" ++
      text "Database.SynchThreads") = some (text "1") := by decide
  refine (load_serves_iff (loginConfig "1") (fun _ => text "Login") (fun _ => willing) 1
    hload).mpr ?_
  rintro k _ ⟨value, hvalue, _, hall⟩
  obtain rfl : text "1" = value := Option.some.inj (hlookup.symm.trans hvalue)
  exact absurd (hall 49 (by decide)) (by decide)

/-- With `SynchThreads = 0` the pool opens, and its first query divides by zero. -/
theorem zero_threads_open :
    (DatabaseLoader.load
      (fun _ => registration (loginConfig "0") (text "Login") willing) 1).2 = true ∧
    (PoolCall.querySql (text "SELECT 1")).progOn ((DatabaseLoader.load
      (fun _ => registration (loginConfig "0") (text "Login") willing) 1).1.pools 0) = .abort := by
  have hload : (DatabaseLoader.load
      (fun _ => registration (loginConfig "0") (text "Login") willing) 1).2 = true := by decide
  have hneeds : PoolCall.NeedsConnection (.querySql (text "SELECT 1")) := trivial
  refine ⟨hload, (PoolCall.prog_eq_abort hneeds _ _).mpr ?_⟩
  decide

end Database

end Mpool
