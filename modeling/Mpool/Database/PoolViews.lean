import Mpool.Database.Clients
import Mpool.Database.AdhocPrepare
import Mpool.Database.StatementTable

/-! `GetFreeConnection` and `GetPreparedStatement` are modelled as programs over the locks
of the pool, as one step that prepares a text, and with the values a statement is given.
Here the three agree. -/

namespace Mpool.Database

open Locking PoolProgram

/-- The statement in the hands of the caller, or the end of the process. -/
def CallEnd.program : CallEnd (Option (Nat × Nat)) → PoolProgram
  | .returned (some (connection, _)) => .ret (.statement (.ofConnection connection))
  | _ => .abort

def CallEnd.returns {R : Type*} : CallEnd R → Bool
  | .returned _ => true
  | _ => false

/-- The connections that are locked are those somebody holds. -/
def SameLocks {T : Type*} (size : Nat) (pool : PreparingPool)
    (owner : Nat → Option (Thread T)) : Prop :=
  ∀ connection < size, (pool (.IDX_SYNCH, connection)).locked = (owner connection).isSome

theorem PreparingConnection.locked_prepareStatement (connection : PreparingConnection)
    (flags : ConnectionFlags) (answer : PrepareAnswer) :
    (connection.prepareStatement flags answer).2.locked = connection.locked := by
  unfold prepareStatement
  split
  · rfl
  · cases answer <;> rfl

/-! ## `GetFreeConnection` -/

/-- The counter of eight bits starts again. -/
theorem candidate_mod (size m : Nat) : candidate size (m % 256) = candidate size m := by
  have h : (UInt8.ofNat (m % 256 + 1)).toNat = (UInt8.ofNat (m + 1)).toNat := by
    simp only [UInt8.toNat_ofNat']
    omega
  rw [candidate, candidate, h]

namespace SameLocks

variable {T : Type*} {size : Nat} {pool : PreparingPool} {owner : Nat → Option (Thread T)}

theorem owner_none (h : SameLocks size pool owner) (hsize : size ≠ 0) (m : Nat) :
    owner (candidate size m) = none ↔
      (!(pool (.IDX_SYNCH, candidate size m)).locked) = true := by
  have hlt := candidate_lt hsize m
  rw [h (candidate size m) (by omega), Bool.not_eq_true', Option.isSome_eq_false_iff,
    Option.isNone_iff_eq_none]

theorem acquire (h : SameLocks size pool owner) (connection : Nat) (thread : Thread T)
    {locked : PreparingConnection} (hlocked : locked.locked = true) :
    SameLocks size (Function.update pool (.IDX_SYNCH, connection) locked)
      (Locking.acquire owner connection thread) := by
  intro c hc
  rw [Locking.acquire]
  by_cases hcc : c = connection
  · subst hcc
    rw [Function.update_self, Function.update_self, hlocked, Option.isSome_some]
  · have hne : ((InternalIndex.IDX_SYNCH, c) : InternalIndex × Nat) ≠ (.IDX_SYNCH, connection) :=
      fun heq => hcc (Prod.mk.inj heq).2
    rw [Function.update_of_ne hne, Function.update_of_ne hcc]
    exact h c hc

/-- A thread that nobody disturbs takes the connection that the search finds. -/
theorem getFreeConnection (h : SameLocks size pool owner) {connection : Nat}
    (hfree : pool.getFreeConnection size = some connection) (thread : Thread T)
    (k : Nat → PoolProgram) : ∃ m, (PoolProgram.getFreeConnection size k).nexts thread owner m =
      (Locking.acquire owner connection thread, k connection) := by
  unfold PreparingPool.getFreeConnection at hfree
  split at hfree
  · cases hfree
  · next hsize =>
    rw [List.find?_map, Option.map_eq_some_iff] at hfree
    obtain ⟨m, hm, rfl⟩ := hfree
    obtain ⟨hunlocked, -, hlocked⟩ := List.find?_range_eq_some.mp hm
    have htaken : ∀ j < m, owner (candidate size (0 + j)) ≠ none := by
      intro j hj hnone
      rw [Nat.zero_add] at hnone
      have hfirst := hlocked j hj
      rw [Function.comp_apply, (h.owner_none hsize j).mp hnone] at hfirst
      cases hfirst
    have htakes := Prog.tryUntil_takes (t := thread) (k := k) htaken (by
      rw [Nat.zero_add]
      exact (h.owner_none hsize m).mpr hunlocked)
    rw [Nat.zero_add] at htakes
    exact ⟨m + 1, by rw [PoolProgram.getFreeConnection, if_neg hsize]; exact htakes⟩

/-- Where the search finds none the thread stays in the loop, or divides by zero. -/
theorem getFreeConnection_none (h : SameLocks size pool owner)
    (hnone : pool.getFreeConnection size = none) (thread : Thread T) (k : Nat → PoolProgram)
    (m : Nat) : (PoolProgram.getFreeConnection size k).nexts thread owner m =
      (owner, if size = 0 then .abort else .tryUntil (candidate size) m k) := by
  by_cases hsize : size = 0
  · rw [PoolProgram.getFreeConnection, if_pos hsize, if_pos hsize]
    induction m with
    | zero => rfl
    | succ m ih =>
      rw [Prog.nexts] at ih
      rw [Prog.nexts, Function.iterate_succ_apply', ih]
      rfl
  · rw [PoolProgram.getFreeConnection, if_neg hsize, if_neg hsize]
    rw [PreparingPool.getFreeConnection, if_neg hsize, List.find?_map, Option.map_eq_none_iff,
      List.find?_range_eq_none] at hnone
    have htaken : ∀ j, 0 ≤ j → owner (candidate size j) ≠ none := by
      intro j _ hfree
      have hlocked := hnone (j % 256) (Nat.mod_lt j (by decide))
      rw [Function.comp_apply, candidate_mod, (h.owner_none hsize j).mp hfree] at hlocked
      cases hlocked
    rw [Prog.tryUntil_spins htaken, Nat.zero_add]

/-! ## `GetPreparedStatement` -/

/-- The call by text: the program ends as the step does, with the locks it leaves. -/
theorem getPreparedStatement (h : SameLocks size pool owner) {answer : PrepareAnswer}
    {result : CallEnd (Option (Nat × Nat))} {pool' : PreparingPool}
    (hcall : pool.getPreparedStatement size answer = some (result, pool')) (thread : Thread T) :
    ∃ m owner', (PoolProgram.getPreparedStatementSql size result.returns).nexts thread owner m =
      (owner', result.program) ∧ SameLocks size pool' owner' := by
  obtain ⟨connection, hfree, hresult⟩ := Option.map_eq_some_iff.mp hcall
  obtain ⟨hend, rfl⟩ := Prod.mk.inj hresult
  obtain ⟨m, hm⟩ := h.getFreeConnection hfree thread fun connection =>
    .use [connection]
      (if result.returns then .ret (.statement (.ofConnection connection)) else .abort)
  refine ⟨m + 1, Locking.acquire owner connection thread, ?_, ?_⟩
  · rw [Prog.nexts] at hm
    rw [PoolProgram.getPreparedStatementSql, Prog.nexts, Function.iterate_succ_apply', hm,
      Prog.next]
    cases hprepared : ((pool (.IDX_SYNCH, connection)).lock.prepareStatement
        .CONNECTION_SYNCH answer).1 with
    | none =>
      rw [hprepared] at hend
      subst hend
      rfl
    | some mysql_stmt =>
      rw [hprepared] at hend
      subst hend
      simp only
      split <;> rfl
  · apply h.acquire
    exact PreparingConnection.locked_prepareStatement _ _ _

end SameLocks

/-- The call by index: an execution of the statement works with the handle that the
connection selects for it, and finds a value for each parameter of that handle. -/
theorem attempt_of_select {index : Nat} {stmt : PreparedStatement}
    (hget : PoolProgram.getPreparedStatement index = .ret (.statement stmt))
    {base : PreparedStatementBase} (hprepared : base.isPrepared = stmt.isPrepared)
    (hindex : base.index = stmt.index) (c : StatementConnection)
    (parameters : List PreparedStatementData) :
    (base.select c.connection.m_stmts = .error .abort → c.attempt index parameters = none) ∧
      ∀ mysql_stmt, base.select c.connection.m_stmts = .ok mysql_stmt →
        ∀ views c', c.attempt index parameters = some (views, c') →
          views.length = mysql_stmt.paramCount := by
  obtain rfl : PreparedStatement.ofIndex index = stmt := by
    simpa [PoolProgram.getPreparedStatement] using hget
  have hselect : base.select c.connection.m_stmts =
      Mpool.Database.getPreparedStatement c.connection.m_stmts index := by
    simp [PreparedStatementBase.select, hprepared, hindex, PreparedStatement.ofIndex]
  rw [hselect]
  constructor
  · intro hnone
    simp [StatementConnection.attempt, hnone, Except.toOption]
  · intro mysql_stmt hsome views c' hattempt
    simp only [StatementConnection.attempt, hsome, Except.toOption, Option.bind_eq_bind,
      Option.bind_some, Option.bind_eq_some_iff] at hattempt
    obtain ⟨bound, -, hviews⟩ := hattempt
    obtain ⟨rfl, -⟩ := Prod.mk.inj (Option.some.inj hviews)
    rw [List.length_map, List.length_range]

end Mpool.Database
