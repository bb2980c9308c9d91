import Mpool.Database.Transaction

/-! The durable effect of `ExecuteTransaction`, and exactly which answers of the
server make it all or nothing. -/

namespace Mpool.Database

section Loop

variable {stmts : List (Option MySQLPreparedStatement)} {nullErrno : Nat} {finish : List Answer}
  {queries : List SQLElementData} {answers : Nat → List Answer} {w w' : World} {code : Nat}

/-- The connection is open and has no transaction. -/
def Autocommit (w : World) : Prop := ∃ errno, w.mysql = some ⟨none, errno⟩

/-- The connection is open and its transaction holds `queries`. -/
def InTransaction (w : World) (queries : List SQLElementData) : Prop :=
  ∃ errno, w.mysql = some ⟨some queries, errno⟩

theorem Autocommit.isOpen (h : Autocommit w) : w.mysql ≠ none := by
  obtain ⟨errno, h⟩ := h
  simp [h]

theorem InTransaction.isOpen (h : InTransaction w queries) : w.mysql ≠ none := by
  obtain ⟨errno, h⟩ := h
  simp [h]

/-! ## One command -/

theorem Autocommit.query (h : Autocommit w) (data : SQLElementData) (retried : Bool) :
    Autocommit ((Course.mk retried .done).leave (.query data) w).1 ∧
      ((Course.mk retried .done).leave (.query data) w).1.durable = w.durable ++ [data] := by
  obtain ⟨errno, h⟩ := h
  cases retried <;> simp [Course.leave, World.perform, World.connect, Autocommit, h]

/-- A retried query is applied on its own. -/
theorem retried_query (w : World) (data : SQLElementData) :
    Autocommit ((Course.mk true .done).leave (.query data) w).1 ∧
      ((Course.mk true .done).leave (.query data) w).1.durable = w.durable ++ [data] := by
  simp [Course.leave, World.perform, World.connect, Autocommit]

theorem InTransaction.query {buffered : List SQLElementData} (h : InTransaction w buffered)
    (data : SQLElementData) :
    InTransaction ((Course.mk false .done).leave (.query data) w).1 (buffered ++ [data]) ∧
      ((Course.mk false .done).leave (.query data) w).1.durable = w.durable := by
  obtain ⟨errno, h⟩ := h
  simp [Course.leave, World.perform, InTransaction, h]

theorem commitTransaction_ok (hw : w.mysql ≠ none) (h : commitTransaction finish w = .ok w') :
    ∃ c, course finish = .ok c ∧ w' = (c.leave .commit w).1 := by
  obtain ⟨r, hr, rfl⟩ := Except.map_eq_ok.mp h
  obtain ⟨c, hc, rfl⟩ := execute_ok hw hr
  exact ⟨c, hc, rfl⟩

theorem Autocommit.commit (h : Autocommit w) (hc : commitTransaction finish w = .ok w') :
    w'.durable = w.durable := by
  obtain ⟨⟨retried, final⟩, -, rfl⟩ := commitTransaction_ok h.isOpen hc
  obtain ⟨errno, h⟩ := h
  cases final with
  | done => cases retried <;> simp [Course.leave, World.perform, World.connect, h]
  | refused errno => exact Course.leave_durable (by simp) _ _
  | gone => exact Course.leave_durable (by simp) _ _

/-- COMMIT applies the transaction only if it succeeds on the first attempt. -/
theorem InTransaction.commit (h : InTransaction w queries)
    (hc : commitTransaction finish w = .ok w') :
    AtOnce finish ∧ w'.durable = w.durable ++ queries ∨
      ¬ AtOnce finish ∧ w'.durable = w.durable := by
  obtain ⟨⟨retried, final⟩, hcourse, rfl⟩ := commitTransaction_ok h.isOpen hc
  obtain ⟨errno, h⟩ := h
  rw [course_atOnce, hcourse]
  cases final with
  | done => cases retried <;> simp [Course.leave, World.perform, World.connect, h]
  | refused errno =>
    right
    exact ⟨by simp, Course.leave_durable (by simp) _ _⟩
  | gone =>
    right
    exact ⟨by simp, Course.leave_durable (by simp) _ _⟩

/-! ## The loop -/

theorem executeQueries_nil
    (h : executeQueries stmts nullErrno finish [] answers w = .ok (w', code)) :
    commitTransaction finish w = .ok w' ∧ code = 0 := by
  obtain ⟨w₁, hc, h⟩ := Except.bind_eq_ok.mp h
  cases h
  exact ⟨hc, rfl⟩

/-- Without a transaction the queries are applied one by one, up to the first
that fails. -/
theorem executeQueries_autocommit (ha : Autocommit w)
    (h : executeQueries stmts nullErrno finish queries answers w = .ok (w', code)) :
    ((∀ i < queries.length, Done (answers i)) ∧ code = 0 ∧ w'.durable = w.durable ++ queries) ∨
    ∃ k < queries.length, (∀ i < k, Done (answers i)) ∧ FailsWith nullErrno (answers k) code ∧
      w'.durable = w.durable ++ queries.take k := by
  induction queries generalizing answers w with
  | nil =>
    obtain ⟨hc, rfl⟩ := executeQueries_nil h
    exact Or.inl ⟨fun i hi => (by cases hi), rfl, by simpa using ha.commit hc⟩
  | cons data queries ih =>
    rcases executeQueries_cons ha.isOpen h with ⟨retried, hc, hrest⟩ | ⟨hf, hd⟩
    · obtain ⟨ha', hdurable⟩ := ha.query data retried
      rcases ih ha' hrest with ⟨hdone, rfl, hd⟩ | ⟨k, hk, hdone, hf, hd⟩
      · exact Or.inl ⟨Nat.forall_lt_succ_left.mpr ⟨⟨retried, hc⟩, hdone⟩, rfl,
          by simp [hd, hdurable]⟩
      · exact Or.inr ⟨k + 1, by simpa using hk,
          Nat.forall_lt_succ_left.mpr ⟨⟨retried, hc⟩, hdone⟩, hf, by simp [hd, hdurable]⟩
    · exact Or.inr ⟨0, by simp, fun i hi => by omega, hf, by simp [hd]⟩

/-- In a transaction nothing is applied before COMMIT or the first retried query;
from the latter on the queries are applied one by one. -/
theorem executeQueries_transaction {buffered : List SQLElementData}
    (ht : InTransaction w buffered)
    (h : executeQueries stmts nullErrno finish queries answers w = .ok (w', code)) :
    ((∀ i < queries.length, AtOnce (answers i)) ∧ code = 0 ∧
      (AtOnce finish ∧ w'.durable = w.durable ++ (buffered ++ queries) ∨
        ¬ AtOnce finish ∧ w'.durable = w.durable)) ∨
    (∃ k < queries.length, (∀ i < k, AtOnce (answers i)) ∧
      FailsWith nullErrno (answers k) code ∧ w'.durable = w.durable) ∨
    (∃ j < queries.length, (∀ i < j, AtOnce (answers i)) ∧ Retried (answers j) ∧
      (((∀ i < queries.length, Done (answers i)) ∧ code = 0 ∧
        w'.durable = w.durable ++ queries.drop j) ∨
      ∃ k < queries.length, j < k ∧ FailsWith nullErrno (answers k) code ∧
        ∃ applied, applied ≠ [] ∧ applied.length < queries.length ∧
          w'.durable = w.durable ++ applied)) := by
  induction queries generalizing answers w buffered with
  | nil =>
    obtain ⟨hc, rfl⟩ := executeQueries_nil h
    exact Or.inl ⟨fun i hi => (by cases hi), rfl, by simpa using ht.commit hc⟩
  | cons data queries ih =>
    rcases executeQueries_cons ht.isOpen h with ⟨retried, hc, hrest⟩ | ⟨hf, hd⟩
    · cases retried with
      | true =>
        -- the transaction is lost here
        obtain ⟨ha, hdurable⟩ := retried_query w data
        refine Or.inr (Or.inr ⟨0, by simp, fun i hi => by omega, hc, ?_⟩)
        rcases executeQueries_autocommit ha hrest with ⟨hdone, rfl, hd⟩ | ⟨k, hk, hdone, hf, hd⟩
        · exact Or.inl ⟨Nat.forall_lt_succ_left.mpr ⟨Retried.done hc, hdone⟩, rfl,
            by simp [hd, hdurable]⟩
        · refine Or.inr ⟨k + 1, by simpa using hk, by omega, hf, data :: queries.take k,
            by simp, ?_, by simp [hd, hdurable]⟩
          simp
          omega
      | false =>
        obtain ⟨ht', hdurable⟩ := ht.query data
        have h0 : AtOnce (answers 0) := course_atOnce.mpr hc
        have hall : ∀ k, (∀ i < k, AtOnce (answers (i + 1))) → ∀ i < k + 1, AtOnce (answers i) :=
          fun k hk => Nat.forall_lt_succ_left.mpr ⟨h0, hk⟩
        rcases ih ht' hrest with ⟨hdone, rfl, hd⟩ | ⟨k, hk, hdone, hf, hd⟩ |
          ⟨j, hj, hdone, hr, hd⟩
        · refine Or.inl ⟨hall _ hdone, rfl, ?_⟩
          simpa [hdurable] using hd
        · exact Or.inr (Or.inl ⟨k + 1, by simpa using hk, hall k hdone, hf, by rw [hd, hdurable]⟩)
        · refine Or.inr (Or.inr ⟨j + 1, by simpa using hj, hall j hdone, hr, ?_⟩)
          rcases hd with ⟨hdone', rfl, hd⟩ | ⟨k, hk, hjk, hf, applied, hne, hlen, hd⟩
          · exact Or.inl ⟨Nat.forall_lt_succ_left.mpr ⟨h0.done, hdone'⟩, rfl,
              by simp [hd, hdurable]⟩
          · refine Or.inr ⟨k + 1, by simpa using hk, by omega, hf, applied, hne, ?_,
              by rw [hd, hdurable]⟩
            simp
            omega
    · exact Or.inr (Or.inl ⟨0, by simp, fun i hi => by omega, hf, hd⟩)

/-- Without a connection the first query fails and nothing is applied. -/
theorem executeQueries_null (hw : w.mysql = none) (hne : queries ≠ [])
    (h : executeQueries stmts nullErrno finish queries answers w = .ok (w', code)) :
    code = nullErrno ∧ w'.durable = w.durable := by
  cases queries with
  | nil => exact absurd rfl hne
  | cons data queries =>
    obtain ⟨r, he, h⟩ := Except.bind_eq_ok.mp h
    have hexec := executeElement_ok he
    rw [execute_null _ _ _ hw] at hexec
    obtain rfl : (w, false) = r := Except.ok.inj hexec
    obtain ⟨w₁, hr, h⟩ := Except.bind_eq_ok.mp h
    cases h
    exact ⟨by simp [getLastError, hw], rollbackTransaction_durable hr⟩

end Loop

/-! ## All or nothing -/

/-- The code is 0 and all of the queries are applied, or it is not and none is. -/
def AllOrNothing (queries durable : List SQLElementData) (w : World) (code : Int) : Prop :=
  (code = 0 → w.durable = durable ++ queries) ∧ (code ≠ 0 → w.durable = durable)

/-- The server keeps no transaction for BEGIN, and the connection stays. -/
def Refused (answers : List Answer) : Prop :=
  ∃ retried errno, course answers = .ok ⟨retried, .refused errno⟩

/-- The answers to `n` queries in a transaction, and to COMMIT, that make it all
or nothing: no query is tried again and COMMIT succeeds at once, the first query
is the one tried again and none fails, or the first that does not succeed at once
fails for good and is reported. -/
def WholeInTransaction (nullErrno n : Nat) (answers : Nat → List Answer) (finish : List Answer) :
    Prop :=
  (∀ i < n, AtOnce (answers i)) ∧ AtOnce finish ∨
  Retried (answers 0) ∧ (∀ i < n, Done (answers i)) ∨
  ∃ k < n, (∀ i < k, AtOnce (answers i)) ∧ ∃ code ≠ 0, FailsWith nullErrno (answers k) code

/-- The answers to `n` queries without a transaction that make them all or
nothing: none fails, or the first does. -/
def WholeInAutocommit (nullErrno n : Nat) (answers : Nat → List Answer) : Prop :=
  (∀ i < n, Done (answers i)) ∨ ∃ code ≠ 0, FailsWith nullErrno (answers 0) code

section Whole

variable {stmts : List (Option MySQLPreparedStatement)} {nullErrno : Nat} {finish : List Answer}
  {queries : List SQLElementData} {answers : Nat → List Answer} {w w' : World} {code : Nat}

/-! ### What the answers decide -/

theorem wholeInAutocommit_failsWith {n k : Nat} (hk : k < n) (hdone : ∀ i < k, Done (answers i))
    (hf : FailsWith nullErrno (answers k) code) :
    WholeInAutocommit nullErrno n answers ↔ code ≠ 0 ∧ k = 0 := by
  constructor
  · rintro (hall | ⟨code', hcode, hf'⟩)
    · exact absurd hf ((hall k hk).not_failsWith _ _)
    · have hk0 : k = 0 := by
        by_contra hk0
        exact (hdone 0 (by omega)).not_failsWith _ _ hf'
      subst hk0
      exact ⟨hf'.unique hf ▸ hcode, rfl⟩
  · rintro ⟨hcode, rfl⟩
    exact Or.inr ⟨code, hcode, hf⟩

theorem wholeInTransaction_atOnce {n : Nat} (hn : 0 < n) (honce : ∀ i < n, AtOnce (answers i)) :
    WholeInTransaction nullErrno n answers finish ↔ AtOnce finish := by
  constructor
  · rintro (⟨-, hfinish⟩ | ⟨hr, -⟩ | ⟨k, hk, -, code, -, hf⟩)
    · exact hfinish
    · exact absurd hr (honce 0 hn).not_retried
    · exact absurd hf ((honce k hk).done.not_failsWith _ _)
  · exact fun hfinish => Or.inl ⟨honce, hfinish⟩

/-- Query `k` fails for good in the transaction: its code decides. -/
theorem wholeInTransaction_failsWith {n k : Nat} (hk : k < n)
    (honce : ∀ i < k, AtOnce (answers i)) (hf : FailsWith nullErrno (answers k) code) :
    WholeInTransaction nullErrno n answers finish ↔ code ≠ 0 := by
  constructor
  · rintro (⟨hall, -⟩ | ⟨-, hall⟩ | ⟨k', hk', honce', code', hcode, hf'⟩)
    · exact absurd hf ((hall k hk).done.not_failsWith _ _)
    · exact absurd hf ((hall k hk).not_failsWith _ _)
    · rcases Nat.lt_trichotomy k k' with hlt | rfl | hlt
      · exact absurd hf ((honce' k hlt).done.not_failsWith _ _)
      · exact hf'.unique hf ▸ hcode
      · exact absurd hf' ((honce k' hlt).done.not_failsWith _ _)
  · exact fun hcode => Or.inr (Or.inr ⟨k, hk, honce, code, hcode, hf⟩)

/-- Query `j` is tried again and none fails: the queries before `j` are lost. -/
theorem wholeInTransaction_retried {n j : Nat} (hj : j < n) (honce : ∀ i < j, AtOnce (answers i))
    (hr : Retried (answers j)) (hdone : ∀ i < n, Done (answers i)) :
    WholeInTransaction nullErrno n answers finish ↔ j = 0 := by
  constructor
  · rintro (⟨hall, -⟩ | ⟨hr0, -⟩ | ⟨k, hk, -, code, -, hf⟩)
    · exact absurd hr (hall j hj).not_retried
    · by_contra hj0
      exact (honce 0 (by omega)).not_retried hr0
    · exact absurd hf ((hdone k hk).not_failsWith _ _)
  · rintro rfl
    exact Or.inr (Or.inl ⟨hr, hdone⟩)

theorem not_wholeInTransaction {n j k : Nat} (honce : ∀ i < j, AtOnce (answers i))
    (hr : Retried (answers j)) (hk : k < n) (hf : FailsWith nullErrno (answers k) code) :
    ¬ WholeInTransaction nullErrno n answers finish := by
  rintro (⟨hall, -⟩ | ⟨-, hall⟩ | ⟨k', hk', honce', code', -, hf'⟩)
  · exact absurd hf ((hall k hk).done.not_failsWith _ _)
  · exact absurd hf ((hall k hk).not_failsWith _ _)
  · rcases Nat.lt_trichotomy j k' with hlt | rfl | hlt
    · exact absurd hr (honce' j hlt).not_retried
    · exact absurd hf' (hr.done.not_failsWith _ _)
    · exact absurd hf' ((honce k' hlt).done.not_failsWith _ _)

/-! ### What is applied -/

/-- It depends on the code and on what is applied. -/
theorem allOrNothing_iff {applied : List SQLElementData}
    (h : w'.durable = w.durable ++ applied) :
    AllOrNothing queries w.durable w' code ↔
      (code = 0 ∧ applied = queries ∨ code ≠ 0 ∧ applied = []) := by
  simp only [AllOrNothing, h, Int.natCast_eq_zero, ne_eq, List.append_cancel_left_eq,
    List.append_right_eq_self]
  by_cases hcode : code = 0
  · simp [hcode]
  · simp [hcode]

theorem allOrNothing_unapplied (hne : queries ≠ []) (h : w'.durable = w.durable) :
    AllOrNothing queries w.durable w' code ↔ code ≠ 0 := by
  have hnil : w'.durable = w.durable ++ [] := by simpa using h
  rw [allOrNothing_iff hnil]
  simp [hne.symm]

theorem allOrNothing_autocommit (ha : Autocommit w) (hne : queries ≠ [])
    (h : executeQueries stmts nullErrno finish queries answers w = .ok (w', code)) :
    AllOrNothing queries w.durable w' code ↔
      WholeInAutocommit nullErrno queries.length answers := by
  rcases executeQueries_autocommit ha h with ⟨hdone, rfl, hd⟩ | ⟨k, hk, hdone, hf, hd⟩
  · rw [allOrNothing_iff hd]
    exact ⟨fun _ => Or.inl hdone, fun _ => Or.inl ⟨rfl, rfl⟩⟩
  · have htake : queries.take k ≠ queries := fun heq => by
      have := congrArg List.length heq
      simp at this
      omega
    rw [allOrNothing_iff hd, wholeInAutocommit_failsWith hk hdone hf]
    simp [htake, hne]

theorem allOrNothing_transaction (ht : InTransaction w []) (hne : queries ≠ [])
    (h : executeQueries stmts nullErrno finish queries answers w = .ok (w', code)) :
    AllOrNothing queries w.durable w' code ↔
      WholeInTransaction nullErrno queries.length answers finish := by
  have hpos : 0 < queries.length := List.length_pos_iff.mpr hne
  rcases executeQueries_transaction ht h with ⟨honce, rfl, hd⟩ | ⟨k, hk, honce, hf, hd⟩ |
    ⟨j, hj, honce, hr, hd⟩
  · -- every query succeeds at once: COMMIT decides
    rw [wholeInTransaction_atOnce hpos honce]
    rcases hd with ⟨hfinish, hd⟩ | ⟨hfinish, hd⟩
    · rw [allOrNothing_iff hd]
      exact ⟨fun _ => hfinish, fun _ => Or.inl ⟨rfl, rfl⟩⟩
    · rw [allOrNothing_unapplied hne hd]
      exact ⟨fun hcode => absurd rfl hcode, fun hfinish' => absurd hfinish' hfinish⟩
  · rw [allOrNothing_unapplied hne hd, wholeInTransaction_failsWith hk honce hf]
  · -- the transaction is lost at query `j`
    rcases hd with ⟨hdone, rfl, hd⟩ | ⟨k, hk, -, hf, applied, happlied, hlen, hd⟩
    · have hdrop : queries.drop j = queries ↔ j = 0 := by
        constructor
        · intro heq
          have := congrArg List.length heq
          simp at this
          omega
        · rintro rfl
          rfl
      rw [allOrNothing_iff hd, wholeInTransaction_retried hj honce hr hdone, hdrop]
      simp
    · have hshort : applied ≠ queries := fun heq => absurd (heq ▸ hlen) (Nat.lt_irrefl _)
      rw [allOrNothing_iff hd]
      simp [hshort, happlied, not_wholeInTransaction honce hr hk hf]

end Whole

/-! ## The whole call -/

/-- Between two transactions: no connection, or one without a transaction, with
the error number of its last call. -/
def World.idle (durable : List SQLElementData) (handle : Option Nat) : World :=
  ⟨durable, handle.map fun errno => ⟨none, errno⟩⟩

/-- BEGIN opens a transaction, is refused, or loses the connection. -/
theorem beginTransaction_idle {start : List Answer} {durable : List SQLElementData} {errno : Nat}
    {w : World} (h : beginTransaction start (World.idle durable (some errno)) = .ok w) :
    w.durable = durable ∧
      (Done start ∧ InTransaction w [] ∨ Refused start ∧ Autocommit w ∨
        Gone start ∧ w.mysql = none) := by
  obtain ⟨r, hr, rfl⟩ := Except.map_eq_ok.mp h
  obtain ⟨⟨retried, final⟩, hc, rfl⟩ := execute_ok (by simp [World.idle]) hr
  cases final with
  | done =>
    refine ⟨?_, Or.inl ⟨⟨retried, hc⟩, 0, ?_⟩⟩
    · cases retried <;> simp [Course.leave, World.perform, World.connect, World.idle]
    · cases retried <;> simp [Course.leave, World.perform, World.connect, World.idle]
  | refused errno' =>
    refine ⟨Course.leave_durable (by simp) _ _, Or.inr (Or.inl ⟨⟨retried, errno', hc⟩, ?_⟩)⟩
    refine ⟨errno', ?_⟩
    cases retried <;> simp [Course.leave, World.fail, World.connect, World.idle]
  | gone =>
    refine ⟨Course.leave_durable (by simp) _ _, Or.inr (Or.inr ⟨⟨retried, hc⟩, ?_⟩)⟩
    cases retried <;> rfl

/-- When a transaction of `n` queries is all or nothing. -/
def Whole (nullErrno n : Nat) (handle : Option Nat) (script : Script) : Prop :=
  handle = none ∧ nullErrno ≠ 0 ∨
  handle ≠ none ∧
    (Done script.start ∧ WholeInTransaction nullErrno n script.queries script.finish ∨
      Refused script.start ∧ WholeInAutocommit nullErrno n script.queries ∨
      Gone script.start ∧ nullErrno ≠ 0)

theorem Done.not_refused {answers : List Answer} (h : Done answers) : ¬ Refused answers := by
  rintro ⟨r, errno, hc⟩
  obtain ⟨r', hc'⟩ := h
  rw [hc'] at hc
  cases hc

theorem Gone.not_refused {answers : List Answer} (h : Gone answers) : ¬ Refused answers := by
  rintro ⟨r, errno, hc⟩
  obtain ⟨r', hc'⟩ := h
  rw [hc'] at hc
  cases hc

/-- One transaction on a connection that has none open: if `ExecuteTransaction`
returns, what it returns and what is applied agree exactly in these cases. -/
theorem executeTransaction_allOrNothing_iff (stmts : List (Option MySQLPreparedStatement))
    (nullErrno : Nat) {queries : List SQLElementData} (hne : queries ≠ []) {script : Script}
    {durable : List SQLElementData} {handle : Option Nat} {w : World} {code : Int}
    (h : executeTransaction stmts nullErrno queries script (World.idle durable handle) =
      .ok (w, code)) :
    AllOrNothing queries durable w code ↔ Whole nullErrno queries.length handle script := by
  simp only [executeTransaction, List.isEmpty_iff, hne, ↓reduceIte] at h
  obtain ⟨w₁, hb, h⟩ := Except.bind_eq_ok.mp h
  obtain ⟨⟨w₂, errorCode⟩, hq, h⟩ := Except.bind_eq_ok.mp h
  cases h
  cases handle with
  | none =>
    have hw : (World.idle durable none).mysql = none := rfl
    rw [beginTransaction, execute_null _ _ _ hw] at hb
    obtain rfl : World.idle durable none = w₁ := Except.ok.inj hb
    obtain ⟨rfl, hd⟩ := executeQueries_null hw hne hq
    have hall : AllOrNothing queries durable w₂ errorCode ↔ errorCode ≠ 0 :=
      allOrNothing_unapplied hne hd
    simpa [Whole] using hall
  | some errno =>
    obtain ⟨rfl, ⟨hs, ht⟩ | ⟨hs, ha⟩ | ⟨hs, hw⟩⟩ := beginTransaction_idle hb
    · have hg : ¬ Gone script.start := fun hg => hg.not_done hs
      simpa [Whole, hs, hs.not_refused, hg] using allOrNothing_transaction ht hne hq
    · have hdone : ¬ Done script.start := fun hd => hd.not_refused hs
      have hg : ¬ Gone script.start := fun hg => hg.not_refused hs
      simpa [Whole, hs, hdone, hg] using allOrNothing_autocommit ha hne hq
    · obtain ⟨rfl, hd⟩ := executeQueries_null hw hne hq
      simpa [Whole, hs, hs.not_done, hs.not_refused] using allOrNothing_unapplied hne hd

def rawQuery (sql : Bytes) : SQLElementData := ⟨.text sql, .SQL_ELEMENT_RAW⟩

/-- A transaction of one query without any failure is applied. -/
theorem executeTransaction_allOrNothing_iff_one :
    AllOrNothing [rawQuery [97]] [] ⟨[rawQuery [97]], some ⟨none, 0⟩⟩ 0 ↔
      Whole 0 1 (some 0) ⟨[.success], fun _ => [.success], [.success]⟩ := by
  have hrun : executeTransaction [] 0 [rawQuery [97]] ⟨[.success], fun _ => [.success], [.success]⟩
      (World.idle [] (some 0)) = .ok (⟨[rawQuery [97]], some ⟨none, 0⟩⟩, 0) := rfl
  exact executeTransaction_allOrNothing_iff [] 0 (by simp) hrun

/-- The connection is lost under the second of two queries and comes back: the
call returns 0 and only the second query is applied. -/
theorem first_query_lost :
    executeTransaction [] 0 [rawQuery [97], rawQuery [98]]
        ⟨[.success],
          fun i => if i = 1 then [.failure CR_SERVER_GONE_ERROR [.connected true], .success]
            else [.success],
          [.success]⟩
        (World.idle [] (some 0)) =
      .ok (⟨[rawQuery [98]], some ⟨none, 0⟩⟩, 0) ∧
    ¬ AllOrNothing [rawQuery [97], rawQuery [98]] [] ⟨[rawQuery [98]], some ⟨none, 0⟩⟩ 0 := by
  refine ⟨rfl, fun h => ?_⟩
  exact absurd (h.1 rfl) (by decide)

end Mpool.Database
