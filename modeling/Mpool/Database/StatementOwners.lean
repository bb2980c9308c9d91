import Mpool.Lib.OwnedBlocks
import Mpool.Lib.Runs
import Mpool.Database.TransactionElements

/-! Who deletes a prepared statement. A caller obtains it and hands it over once: to
a call that deletes it, to a task, or to a transaction, which several tasks and the
caller may share. A transaction deletes what it has when it is cleaned up, after a
failed commit or in its destructor, but only the first time. A commit is a number of
attempts and the `Cleanup` they may come to, with the steps of the other threads between
them. Nothing locks a transaction, so the callers have to see to it that nobody commits or
appends to one that is being committed. -/

namespace Mpool.Database

open Runs

/-- An element of `m_queries`, with the pointer to its statement. -/
inductive TransactionElement where
  | raw (sql : Bytes)
  | prepared (p : Nat)

def TransactionElement.pointer : TransactionElement → Option Nat
  | .raw _ => none
  | .prepared p => some p

/-- A transaction on the heap; `held` says that the caller has its `shared_ptr`, and
`committing` that a thread is in a commit of it and has one. -/
structure SharedTransaction where
  m_queries : List TransactionElement
  cleanedUp : Bool
  held : Bool
  committing : Bool

def SharedTransaction.used (t : SharedTransaction) : Bool := t.held || t.committing

def SharedTransaction.pointers (t : SharedTransaction) : List Nat :=
  t.m_queries.filterMap TransactionElement.pointer

/-- What it has after it was cleaned up, which nobody deletes. -/
def SharedTransaction.latePointers (t : SharedTransaction) : List Nat :=
  if t.cleanedUp then t.pointers else []

def TransactionElement.data (heap : BlockHeap PreparedStatementBase) :
    TransactionElement → SQLElementData
  | .raw sql => ⟨.text sql, .SQL_ELEMENT_RAW⟩
  | .prepared p => ⟨.statement (heap.load p), .SQL_ELEMENT_PREPARED⟩

/-- The transaction with its statements in place of the pointers. -/
def SharedTransaction.base (heap : BlockHeap PreparedStatementBase) (t : SharedTransaction) :
    TransactionBase where
  m_queries := t.m_queries.map (TransactionElement.data heap)
  cleanedUp := t.cleanedUp

/-- A task up to its `delete`, or up to the commit of its transaction. -/
inductive OwningTask where
  | preparedStatementTask (p : Nat)
  | transactionTask (x : Nat)
  deriving DecidableEq

def OwningTask.pointer : OwningTask → Option Nat
  | .preparedStatementTask p => some p
  | .transactionTask _ => none

/-- `late` are the statements that were appended to a transaction after it was
cleaned up. -/
structure StatementOwners where
  heap : BlockHeap PreparedStatementBase
  caller : List Nat
  tasks : List OwningTask
  transactions : List SharedTransaction
  late : List Nat

/-- What callers and workers do, each in any order. A commit begins with
`directCommitTransaction` or with the `execute` of a task, and ends with the reference
its thread has. A caller uses only what it has. -/
inductive OwnerEvent where
  | getPreparedStatement (stmt : PreparedStatementBase)
  | direct (p : Nat)
  | enqueue (p : Nat)
  | beginTransaction
  | append (x p : Nat)
  | appendRaw (x : Nat) (sql : Bytes)
  | commitTransaction (x : Nat)
  | directCommitTransaction (x : Nat)
  | dropTransaction (x : Nat)
  | execute (k : Nat)
  | executeTransaction (x : Nat)
  | cleanup (x : Nat)
  | endCommit (x : Nat)
  | delete (k : Nat)

namespace StatementOwners

def empty : StatementOwners := ⟨⟨[]⟩, [], [], [], []⟩

/-- A call works with these statements; `none` is the use of a deleted one. -/
def use (o : StatementOwners) (ps : List Nat) : Option StatementOwners :=
  if ps.all fun p => (o.heap.load p).isSome then some o else none

/-- `TransactionBase::Cleanup`. -/
def cleanup (o : StatementOwners) (x : Nat) : Option StatementOwners :=
  match o.transactions[x]? with
  | none => some o
  | some t =>
    if t.cleanedUp then some o
    else (o.heap.deleteAll t.pointers).map fun heap =>
      { o with
        heap := heap
        transactions := o.transactions.set x { t with m_queries := [], cleanedUp := true } }

/-- The end of a reference to the transaction; the last one destroys it. -/
def release (o : StatementOwners) (x : Nat) : Option StatementOwners :=
  match o.transactions[x]? with
  | none => some o
  | some t =>
    if t.used || o.tasks.contains (.transactionTask x) then some o else o.cleanup x

/-- A step of a commit of the transaction, where there is one. -/
def inCommit (o : StatementOwners) (x : Nat)
    (f : SharedTransaction → Option StatementOwners) : Option StatementOwners :=
  match o.transactions[x]? with
  | none => some o
  | some t => if t.committing then f t else some o

/-- A step that needs the transaction for itself. -/
def beforeCommit (o : StatementOwners) (x : Nat)
    (f : SharedTransaction → Option StatementOwners) : Option StatementOwners :=
  match o.transactions[x]? with
  | none => some o
  | some t => if t.committing then some o else f t

def step (o : StatementOwners) : OwnerEvent → Option StatementOwners
  | .getPreparedStatement stmt =>
    let (heap, p) := o.heap.new stmt
    some { o with heap := heap, caller := p :: o.caller }
  | .direct p =>
    -- `Query` and `DirectExecute`
    if p ∈ o.caller then
      (o.use [p]).bind fun o => (o.heap.delete (some p)).map fun heap =>
        { o with heap := heap, caller := o.caller.erase p }
    else some o
  | .enqueue p =>
    -- `Execute` and `AsyncQuery`
    if p ∈ o.caller then
      some { o with caller := o.caller.erase p, tasks := o.tasks ++ [.preparedStatementTask p] }
    else some o
  | .beginTransaction =>
    some { o with transactions := o.transactions ++ [⟨[], false, true, false⟩] }
  | .append x p =>
    o.beforeCommit x fun t =>
      if t.held = true ∧ p ∈ o.caller then
        some { o with
          caller := o.caller.erase p
          transactions := o.transactions.set x { t with m_queries := t.m_queries ++ [.prepared p] }
          late := if t.cleanedUp then p :: o.late else o.late }
      else some o
  | .appendRaw x sql =>
    o.beforeCommit x fun t =>
      if t.held then
        some { o with
          transactions := o.transactions.set x { t with m_queries := t.m_queries ++ [.raw sql] } }
      else some o
  | .commitTransaction x =>
    -- `AsyncCommitTransaction` as well
    match o.transactions[x]? with
    | none => some o
    | some t => some (if t.held then { o with tasks := o.tasks ++ [.transactionTask x] } else o)
  | .directCommitTransaction x =>
    o.beforeCommit x fun t =>
      if t.held then
        some { o with transactions := o.transactions.set x { t with committing := true } }
      else some o
  | .dropTransaction x =>
    match o.transactions[x]? with
    | none => some o
    | some t =>
      { o with transactions := o.transactions.set x { t with held := false } }.release x
  | .execute k =>
    match o.tasks[k]? with
    | none => some o
    | some (.preparedStatementTask p) => o.use [p]
    | some (.transactionTask x) =>
      o.beforeCommit x fun t =>
        some { o with
          tasks := o.tasks.eraseIdx k
          transactions := o.transactions.set x { t with committing := true } }
  | .executeTransaction x => o.inCommit x fun t => o.use t.pointers
  | .cleanup x => o.inCommit x fun _ => o.cleanup x
  | .endCommit x =>
    o.inCommit x fun t =>
      { o with transactions := o.transactions.set x { t with committing := false } }.release x
  | .delete k =>
    match o.tasks[k]? with
    | none => some o
    | some (.preparedStatementTask p) =>
      (o.heap.delete (some p)).map fun heap => { o with heap := heap, tasks := o.tasks.eraseIdx k }
    | some (.transactionTask x) => { o with tasks := o.tasks.eraseIdx k }.release x

/-- A history; `none` is one with a double delete or a use after it. -/
def performAll (o : StatementOwners) : List OwnerEvent → Option StatementOwners
  | [] => some o
  | e :: es => (o.step e).bind fun o => o.performAll es

/-! ## Every statement has one owner -/

def owned (o : StatementOwners) : List Nat :=
  o.caller ++ o.tasks.filterMap OwningTask.pointer ++
    o.transactions.flatMap SharedTransaction.pointers

/-- One owner for each live statement, and what a transaction has after its cleanup
came later. -/
structure Owning (o : StatementOwners) : Prop where
  owned : o.heap.Owned o.owned
  late : o.late.Perm (o.transactions.flatMap SharedTransaction.latePointers)

/-- A transaction that nobody refers to is cleaned up. -/
def Referenced (o : StatementOwners) (x : Nat) : Prop :=
  ∀ t, o.transactions[x]? = some t →
    t.used = true ∨ .transactionTask x ∈ o.tasks ∨ t.cleanedUp = true

structure Sound (o : StatementOwners) : Prop extends Owning o where
  referenced : ∀ x, o.Referenced x

theorem sound_empty : Sound empty where
  owned := BlockHeap.owned_empty
  late := List.Perm.refl _
  referenced x t h := by simp [empty] at h

theorem count_owned (o : StatementOwners) (a : Nat) :
    o.owned.count a = o.caller.count a + (o.tasks.filterMap OwningTask.pointer).count a +
      (o.transactions.flatMap SharedTransaction.pointers).count a := by
  simp only [owned, List.count_append]

/-- Statements that have an owner can be used. -/
theorem Owning.use {o : StatementOwners} (h : Owning o) {ps : List Nat}
    (hps : ∀ p ∈ ps, p ∈ o.owned) : o.use ps = some o := by
  rw [StatementOwners.use, if_pos]
  exact List.all_eq_true.mpr fun p hp => (h.owned.live p).mpr (hps p hp)

theorem mem_owned_of_transaction {o : StatementOwners} {x : Nat} {t : SharedTransaction}
    (h : o.transactions[x]? = some t) {p : Nat} (hp : p ∈ t.pointers) : p ∈ o.owned :=
  List.mem_append_right _ (List.mem_flatMap.mpr ⟨t, List.mem_of_getElem? h, hp⟩)

/-- What `Cleanup` leaves alone. -/
structure Cleaned (x : Nat) (o o' : StatementOwners) : Prop where
  caller : o'.caller = o.caller
  tasks : o'.tasks = o.tasks
  late : o'.late = o.late
  done : ∀ t, o'.transactions[x]? = some t → t.cleanedUp = true
  others : ∀ y, y ≠ x → o'.transactions[y]? = o.transactions[y]?

/-- `Cleanup` deletes what it should, once. -/
theorem Owning.cleanup {o : StatementOwners} (h : Owning o) (x : Nat) :
    ∃ o', o.cleanup x = some o' ∧ Owning o' ∧ Cleaned x o o' := by
  unfold StatementOwners.cleanup
  split
  · rename_i hx
    refine ⟨o, rfl, h, rfl, rfl, rfl, fun t ht => ?_, fun _ _ => rfl⟩
    rw [hx] at ht
    cases ht
  · rename_i t hx
    split
    · rename_i hclean
      refine ⟨o, rfl, h, rfl, rfl, rfl, fun t' ht => ?_, fun _ _ => rfl⟩
      rw [hx] at ht
      cases ht
      exact hclean
    · rename_i hclean
      have hlt := (List.getElem?_eq_some_iff.mp hx).1
      generalize ht' : ({ t with m_queries := [], cleanedUp := true } : SharedTransaction) = t'
      have hempty : t'.pointers = [] := by subst ht'; rfl
      have hnone : t'.latePointers = [] := by subst ht'; rfl
      have hnone' : t.latePointers = [] := if_neg hclean
      have hperm : o.owned.Perm (t.pointers ++ (o.caller ++ o.tasks.filterMap OwningTask.pointer ++
          (o.transactions.set x t').flatMap SharedTransaction.pointers)) := by
        rw [List.perm_iff_count]
        intro a
        have h1 := (List.flatMap_perm_getElem? hx SharedTransaction.pointers).count_eq a
        have h2 := (List.flatMap_set_perm hx t' SharedTransaction.pointers).count_eq a
        simp only [List.count_append, count_owned, hempty, List.count_nil] at h1 h2 ⊢
        omega
      obtain ⟨heap, hall, howned, -⟩ := (h.owned.perm hperm).deleteAll
      refine ⟨{ o with heap := heap, transactions := o.transactions.set x t' },
        by rw [hall, Option.map_some], ⟨howned, ?_⟩, rfl, rfl, rfl, fun u hu => ?_,
        fun y hy => List.getElem?_set_ne (Ne.symm hy)⟩
      · have h1 := List.flatMap_perm_getElem? hx SharedTransaction.latePointers
        have h2 := List.flatMap_set_perm hx t' SharedTransaction.latePointers
        rw [hnone', List.nil_append] at h1
        rw [hnone, List.nil_append] at h2
        exact h.late.trans (h1.trans h2.symm)
      · change (o.transactions.set x t')[x]? = some u at hu
        rw [List.getElem?_set_self hlt] at hu
        cases hu
        subst ht'
        rfl

/-- The tasks and the caller keep what they refer to, so nothing else changes. -/
theorem Cleaned.referenced {x : Nat} {o o' : StatementOwners} (hc : Cleaned x o o')
    (h : ∀ y, y ≠ x → o.Referenced y) (y : Nat) : o'.Referenced y := by
  intro t ht
  by_cases hy : y = x
  · subst hy
    exact .inr (.inr (hc.done t ht))
  · rw [hc.others y hy] at ht
    rw [hc.tasks]
    exact h y hy t ht

/-- A reference less: what is left is in order if all other transactions are. -/
theorem Owning.release {o : StatementOwners} (h : Owning o) (x : Nat)
    (hr : ∀ y, y ≠ x → o.Referenced y) : ∃ o', o.release x = some o' ∧ Sound o' := by
  unfold StatementOwners.release
  split
  · rename_i hx
    refine ⟨o, rfl, h, fun y => ?_⟩
    by_cases hy : y = x
    · subst hy
      intro t ht
      rw [hx] at ht
      cases ht
    · exact hr y hy
  · rename_i t hx
    split
    · rename_i hheld
      refine ⟨o, rfl, h, fun y => ?_⟩
      by_cases hy : y = x
      · subst hy
        intro u hu
        rw [hx] at hu
        cases hu
        rcases Bool.or_eq_true_iff.mp hheld with hheld | htask
        · exact .inl hheld
        · exact .inr (.inl (List.contains_iff_mem.mp htask))
      · exact hr y hy
    · obtain ⟨o', hcleanup, ho, hc⟩ := h.cleanup x
      exact ⟨o', hcleanup, ho, hc.referenced hr⟩

/-! ## The steps -/

/-- The statements change their owners among each other; the transactions stay. -/
theorem Sound.pass {o o' : StatementOwners} (h : Sound o) (hheap : o'.heap = o.heap)
    (howned : o.owned.Perm o'.owned) (hlate : o'.late = o.late)
    (htrans : o'.transactions = o.transactions) (htasks : o.tasks ⊆ o'.tasks) : Sound o' where
  owned := hheap ▸ h.owned.perm howned
  late := by
    rw [hlate, htrans]
    exact h.late
  referenced x t ht := by
    rw [htrans] at ht
    exact (h.referenced x t ht).imp_right fun hr => hr.imp_left fun hmem => htasks hmem

theorem Sound.get {o : StatementOwners} (h : Sound o) (stmt : PreparedStatementBase) :
    Sound { o with heap := (o.heap.new stmt).1, caller := (o.heap.new stmt).2 :: o.caller } where
  owned := h.owned.new stmt
  late := h.late
  referenced := h.referenced

theorem Sound.direct {o : StatementOwners} (h : Sound o) {p : Nat} (hp : p ∈ o.caller) :
    ∃ heap, o.heap.delete (some p) = some heap ∧
      Sound { o with heap := heap, caller := o.caller.erase p } := by
  have hperm : o.owned.Perm
      (p :: ({ o with caller := o.caller.erase p } : StatementOwners).owned) :=
    ((List.perm_cons_erase hp).append_right _).append_right _
  obtain ⟨heap, hdelete, howned, -⟩ := (h.owned.perm hperm).delete
  exact ⟨heap, hdelete, ⟨howned, h.late⟩, h.referenced⟩

theorem Sound.enqueue {o : StatementOwners} (h : Sound o) {p : Nat} (hp : p ∈ o.caller) :
    Sound { o with
      caller := o.caller.erase p, tasks := o.tasks ++ [.preparedStatementTask p] } := by
  refine h.pass rfl ?_ rfl rfl (List.subset_append_left _ _)
  rw [List.perm_iff_count]
  intro a
  have hc := (List.perm_cons_erase hp).count_eq a
  simp only [count_owned, List.filterMap_append, List.count_append, List.count_cons] at hc ⊢
  simp only [OwningTask.pointer, List.filterMap_cons, List.filterMap_nil, List.count_cons,
    List.count_nil]
  omega

theorem Sound.begin {o : StatementOwners} (h : Sound o) :
    Sound { o with transactions := o.transactions ++ [⟨[], false, true, false⟩] } where
  owned := by
    have hnone : SharedTransaction.pointers ⟨[], false, true, false⟩ = [] := rfl
    simpa [StatementOwners.owned, hnone] using h.owned
  late := by
    have hnone : SharedTransaction.latePointers ⟨[], false, true, false⟩ = [] := rfl
    simpa [hnone] using h.late
  referenced x t ht := by
    change (o.transactions ++ [⟨[], false, true, false⟩])[x]? = some t at ht
    rw [List.getElem?_append] at ht
    split at ht
    · exact h.referenced x t ht
    · exact .inl (by rw [List.mem_singleton.mp (List.mem_of_getElem? ht)]; rfl)

/-- A transaction gets other elements, and `late` what of them comes late. -/
theorem Sound.elements {o : StatementOwners} (h : Sound o) {x : Nat} {t : SharedTransaction}
    (hx : o.transactions[x]? = some t) (hheld : t.held = true) (queries : List TransactionElement)
    {caller late : List Nat}
    (hcaller : (o.caller ++ t.pointers).Perm
      (caller ++ { t with m_queries := queries }.pointers))
    (hlate : (late ++ t.latePointers).Perm
      (o.late ++ { t with m_queries := queries }.latePointers)) :
    Sound { o with
      caller := caller, late := late
      transactions := o.transactions.set x { t with m_queries := queries } } where
  owned := by
    refine h.owned.perm ?_
    rw [List.perm_iff_count]
    intro a
    have h1 := (List.flatMap_perm_getElem? hx SharedTransaction.pointers).count_eq a
    have h2 := (List.flatMap_set_perm hx { t with m_queries := queries }
      SharedTransaction.pointers).count_eq a
    have h3 := hcaller.count_eq a
    simp only [List.count_append, count_owned] at h1 h2 h3 ⊢
    omega
  late := by
    rw [List.perm_iff_count]
    intro a
    have h1 := (List.flatMap_perm_getElem? hx SharedTransaction.latePointers).count_eq a
    have h2 := (List.flatMap_set_perm hx { t with m_queries := queries }
      SharedTransaction.latePointers).count_eq a
    have h3 := hlate.count_eq a
    have h4 := h.late.count_eq a
    simp only [List.count_append] at h1 h2 h3 h4 ⊢
    omega
  referenced y u hu := by
    by_cases hy : x = y
    · subst hy
      change (o.transactions.set x { t with m_queries := queries })[x]? = some u at hu
      rw [List.getElem?_set_self (List.getElem?_eq_some_iff.mp hx).1] at hu
      cases hu
      exact .inl (by rw [SharedTransaction.used, hheld, Bool.true_or])
    · change (o.transactions.set x { t with m_queries := queries })[y]? = some u at hu
      rw [List.getElem?_set_ne hy] at hu
      exact h.referenced y u hu

theorem Sound.append {o : StatementOwners} (h : Sound o) {x p : Nat} {t : SharedTransaction}
    (hx : o.transactions[x]? = some t) (hheld : t.held = true) (hp : p ∈ o.caller) :
    Sound { o with
      caller := o.caller.erase p
      transactions := o.transactions.set x { t with m_queries := t.m_queries ++ [.prepared p] }
      late := if t.cleanedUp then p :: o.late else o.late } := by
  have hpointers : ({ t with m_queries := t.m_queries ++ [.prepared p] } :
      SharedTransaction).pointers = t.pointers ++ [p] := by
    simp [SharedTransaction.pointers, TransactionElement.pointer]
  have hcount := fun a => (List.perm_cons_erase hp).count_eq a
  refine h.elements hx hheld _ ?_ ?_
  · rw [hpointers, List.perm_iff_count]
    intro a
    have hc := hcount a
    simp only [List.count_append, List.count_cons, List.count_nil] at hc ⊢
    omega
  · rw [List.perm_iff_count]
    intro a
    simp only [SharedTransaction.latePointers, hpointers]
    cases t.cleanedUp with
    | true =>
      simp only [↓reduceIte, List.count_append, List.count_cons, List.count_nil]
      omega
    | false => rfl

/-- Who refers to a transaction does not matter to its statements. -/
theorem Owning.setReferences {o : StatementOwners} (h : Owning o) {x : Nat}
    {t t' : SharedTransaction} (hx : o.transactions[x]? = some t)
    (hqueries : t'.m_queries = t.m_queries) (hclean : t'.cleanedUp = t.cleanedUp) :
    Owning { o with transactions := o.transactions.set x t' } where
  owned := by
    have hpointers : t'.pointers = t.pointers := by
      rw [SharedTransaction.pointers, SharedTransaction.pointers, hqueries]
    refine h.owned.perm ?_
    have h1 := List.flatMap_perm_getElem? hx SharedTransaction.pointers
    have h2 := List.flatMap_set_perm hx t' SharedTransaction.pointers
    rw [hpointers] at h2
    exact (h1.trans h2.symm).append_left _
  late := by
    have hlate : t'.latePointers = t.latePointers := by
      simp only [SharedTransaction.latePointers, SharedTransaction.pointers, hqueries, hclean]
    have h1 := List.flatMap_perm_getElem? hx SharedTransaction.latePointers
    have h2 := List.flatMap_set_perm hx t' SharedTransaction.latePointers
    rw [hlate] at h2
    exact h.late.trans (h1.trans h2.symm)

theorem referenced_of_set {o : StatementOwners} {x y : Nat} {t' : SharedTransaction} (hy : y ≠ x)
    (h : o.Referenced y) :
    Referenced { o with transactions := o.transactions.set x t' } y := by
  intro u hu
  change (o.transactions.set x t')[y]? = some u at hu
  rw [List.getElem?_set_ne (Ne.symm hy)] at hu
  exact h u hu

/-- A commit begins and has the transaction. -/
theorem Sound.beginCommit {o : StatementOwners} (h : Owning o) {x : Nat} {t : SharedTransaction}
    (hx : o.transactions[x]? = some t) (hr : ∀ y, y ≠ x → o.Referenced y) :
    Sound { o with transactions := o.transactions.set x { t with committing := true } } where
  toOwning := h.setReferences hx rfl rfl
  referenced y := by
    by_cases hy : y = x
    · subst hy
      intro u hu
      change (o.transactions.set y { t with committing := true })[y]? = some u at hu
      rw [List.getElem?_set_self (List.getElem?_eq_some_iff.mp hx).1] at hu
      cases hu
      exact .inl (Bool.or_true _)
    · exact referenced_of_set hy (hr y hy)

/-- The caller or a commit lets go of a transaction. -/
theorem Sound.letGo {o : StatementOwners} (h : Sound o) {x : Nat} {t : SharedTransaction}
    (hx : o.transactions[x]? = some t) (t' : SharedTransaction)
    (hqueries : t'.m_queries = t.m_queries)
    (hclean : t'.cleanedUp = t.cleanedUp) :
    ∃ o', ({ o with transactions := o.transactions.set x t' } : StatementOwners).release x =
      some o' ∧ Sound o' :=
  (h.toOwning.setReferences hx hqueries hclean).release x fun y hy =>
    referenced_of_set hy (h.referenced y)

theorem mem_eraseIdx_other {o : StatementOwners} {k : Nat} {task other : OwningTask}
    (hk : o.tasks[k]? = some task) (hne : other ≠ task) (hmem : other ∈ o.tasks) :
    other ∈ o.tasks.eraseIdx k := by
  obtain ⟨hlt, rfl⟩ := List.getElem?_eq_some_iff.mp hk
  have hcons := (List.getElem_cons_eraseIdx_perm hlt).mem_iff.mpr hmem
  exact (List.mem_cons.mp hcons).resolve_left hne

theorem Sound.deleteTask {o : StatementOwners} (h : Sound o) {k p : Nat}
    (hk : o.tasks[k]? = some (.preparedStatementTask p)) :
    ∃ heap, o.heap.delete (some p) = some heap ∧
      Sound { o with heap := heap, tasks := o.tasks.eraseIdx k } := by
  have hperm : o.owned.Perm
      (p :: ({ o with tasks := o.tasks.eraseIdx k } : StatementOwners).owned) := by
    obtain ⟨hlt, heq⟩ := List.getElem?_eq_some_iff.mp hk
    rw [List.perm_iff_count]
    intro a
    have hc := ((List.getElem_cons_eraseIdx_perm hlt).filterMap OwningTask.pointer).count_eq a
    rw [heq] at hc
    simp only [List.filterMap_cons, OwningTask.pointer, List.count_cons, count_owned] at hc ⊢
    omega
  obtain ⟨heap, hdelete, howned, -⟩ := (h.owned.perm hperm).delete
  refine ⟨heap, hdelete, ⟨howned, h.late⟩, fun x t ht => ?_⟩
  exact (h.referenced x t ht).imp_right fun hr =>
    hr.imp_left (mem_eraseIdx_other hk (by simp))

/-- A task of a transaction leaves the queue. -/
theorem Sound.takeTask {o : StatementOwners} (h : Sound o) {k x : Nat}
    (hk : o.tasks[k]? = some (.transactionTask x)) :
    Owning { o with tasks := o.tasks.eraseIdx k } ∧
      ∀ y, y ≠ x → Referenced { o with tasks := o.tasks.eraseIdx k } y := by
  constructor
  · refine ⟨h.owned.perm ?_, h.late⟩
    obtain ⟨hlt, heq⟩ := List.getElem?_eq_some_iff.mp hk
    have hp := (List.getElem_cons_eraseIdx_perm hlt).filterMap OwningTask.pointer
    rw [heq] at hp
    exact (hp.symm.append_left _).append_right _
  · intro y hy t ht
    refine (h.referenced y t ht).imp_right fun hr => hr.imp_left (mem_eraseIdx_other hk ?_)
    intro heq
    exact hy (OwningTask.transactionTask.inj heq)

/-- The steps that are not for this transaction change nothing. -/
theorem Sound.beforeCommit {o : StatementOwners} (h : Sound o) {x : Nat}
    {f : SharedTransaction → Option StatementOwners}
    (hf : ∀ t, o.transactions[x]? = some t → ∃ o', f t = some o' ∧ Sound o') :
    ∃ o', o.beforeCommit x f = some o' ∧ Sound o' := by
  unfold StatementOwners.beforeCommit
  split
  · exact ⟨o, rfl, h⟩
  · rename_i t hx
    split
    · exact ⟨o, rfl, h⟩
    · exact hf t hx

theorem Sound.inCommit {o : StatementOwners} (h : Sound o) {x : Nat}
    {f : SharedTransaction → Option StatementOwners}
    (hf : ∀ t, o.transactions[x]? = some t → ∃ o', f t = some o' ∧ Sound o') :
    ∃ o', o.inCommit x f = some o' ∧ Sound o' := by
  unfold StatementOwners.inCommit
  split
  · exact ⟨o, rfl, h⟩
  · rename_i t hx
    split
    · exact hf t hx
    · exact ⟨o, rfl, h⟩

theorem Sound.appendRaw {o : StatementOwners} (h : Sound o) (x : Nat) (sql : Bytes) :
    ∃ o', o.step (.appendRaw x sql) = some o' ∧ Sound o' := by
  apply h.beforeCommit
  intro t hx
  by_cases hheld : t.held = true
  · have hsame : ({ t with m_queries := t.m_queries ++ [.raw sql] } :
        SharedTransaction).pointers = t.pointers := by
      simp [SharedTransaction.pointers, TransactionElement.pointer]
    have hlate : ({ t with m_queries := t.m_queries ++ [.raw sql] } :
        SharedTransaction).latePointers = t.latePointers := by
      simp only [SharedTransaction.latePointers, hsame]
    have hs := h.elements hx hheld (t.m_queries ++ [.raw sql]) (by rw [hsame]) (by rw [hlate])
    exact ⟨_, if_pos hheld, hs⟩
  · exact ⟨o, if_neg hheld, h⟩

theorem Sound.commitTransaction {o : StatementOwners} (h : Sound o) (x : Nat) :
    ∃ o', o.step (.commitTransaction x) = some o' ∧ Sound o' := by
  cases hx : o.transactions[x]? with
  | none => exact ⟨o, by simp [StatementOwners.step, hx], h⟩
  | some t =>
    cases hheld : t.held with
    | true =>
      refine ⟨{ o with tasks := o.tasks ++ [.transactionTask x] },
        by simp [StatementOwners.step, hx, hheld],
        h.pass rfl ?_ rfl rfl (List.subset_append_left _ _)⟩
      have hnone : [OwningTask.transactionTask x].filterMap OwningTask.pointer = [] := rfl
      simp only [owned, List.filterMap_append, hnone, List.append_nil]
      exact List.Perm.refl _
    | false => exact ⟨o, by simp [StatementOwners.step, hx, hheld], h⟩

theorem Sound.execute {o : StatementOwners} (h : Sound o) (k : Nat) :
    ∃ o', o.step (.execute k) = some o' ∧ Sound o' := by
  cases hk : o.tasks[k]? with
  | none => exact ⟨o, by simp [StatementOwners.step, hk], h⟩
  | some task =>
    cases task with
    | preparedStatementTask p =>
      have hmem : p ∈ o.tasks.filterMap OwningTask.pointer :=
        List.mem_filterMap.mpr ⟨_, List.mem_of_getElem? hk, rfl⟩
      have huse : o.use [p] = some o := h.use fun q hq => by
        rw [List.mem_singleton.mp hq]
        exact List.mem_append_left _ (List.mem_append_right _ hmem)
      exact ⟨o, by simp [StatementOwners.step, hk, huse], h⟩
    | transactionTask x =>
      obtain ⟨howning, hreferenced⟩ := h.takeTask hk
      simp only [StatementOwners.step, hk]
      exact h.beforeCommit fun t hx => ⟨_, rfl, .beginCommit howning hx hreferenced⟩

theorem Sound.delete {o : StatementOwners} (h : Sound o) (k : Nat) :
    ∃ o', o.step (.delete k) = some o' ∧ Sound o' := by
  cases hk : o.tasks[k]? with
  | none => exact ⟨o, by simp [StatementOwners.step, hk], h⟩
  | some task =>
    cases task with
    | preparedStatementTask p =>
      obtain ⟨heap, hdelete, hs⟩ := h.deleteTask hk
      exact ⟨_, by simp [StatementOwners.step, hk, hdelete], hs⟩
    | transactionTask x =>
      obtain ⟨howning, hreferenced⟩ := h.takeTask hk
      simpa [StatementOwners.step, hk] using howning.release x hreferenced

theorem Sound.step {o : StatementOwners} (h : Sound o) (e : OwnerEvent) :
    ∃ o', o.step e = some o' ∧ Sound o' := by
  cases e with
  | getPreparedStatement stmt => exact ⟨_, rfl, h.get stmt⟩
  | direct p =>
    by_cases hp : p ∈ o.caller
    · have huse : o.use [p] = some o := h.use fun q hq => by
        rw [List.mem_singleton.mp hq]
        exact List.mem_append_left _ (List.mem_append_left _ hp)
      obtain ⟨heap, hdelete, hs⟩ := h.direct hp
      exact ⟨_, by simp [StatementOwners.step, hp, huse, hdelete], hs⟩
    · exact ⟨o, by simp [StatementOwners.step, hp], h⟩
  | enqueue p =>
    by_cases hp : p ∈ o.caller
    · exact ⟨_, by simp [StatementOwners.step, hp], h.enqueue hp⟩
    · exact ⟨o, by simp [StatementOwners.step, hp], h⟩
  | beginTransaction => exact ⟨_, rfl, h.begin⟩
  | append x p =>
    apply h.beforeCommit
    intro t hx
    by_cases hcond : t.held = true ∧ p ∈ o.caller
    · exact ⟨_, if_pos hcond, h.append hx hcond.1 hcond.2⟩
    · exact ⟨o, if_neg hcond, h⟩
  | appendRaw x sql => exact h.appendRaw x sql
  | commitTransaction x => exact h.commitTransaction x
  | directCommitTransaction x =>
    apply h.beforeCommit
    intro t hx
    by_cases hheld : t.held = true
    · exact ⟨_, if_pos hheld, .beginCommit h.toOwning hx fun y _ => h.referenced y⟩
    · exact ⟨o, if_neg hheld, h⟩
  | dropTransaction x =>
    cases hx : o.transactions[x]? with
    | none => exact ⟨o, by simp [StatementOwners.step, hx], h⟩
    | some t =>
      simpa [StatementOwners.step, hx] using h.letGo hx { t with held := false } rfl rfl
  | execute k => exact h.execute k
  | executeTransaction x =>
    apply h.inCommit
    intro t hx
    exact ⟨o, h.use fun p hp => mem_owned_of_transaction hx hp, h⟩
  | cleanup x =>
    apply h.inCommit
    intro t hx
    obtain ⟨o', hcleanup, ho, hc⟩ := h.cleanup x
    exact ⟨o', hcleanup, ho, hc.referenced fun y _ => h.referenced y⟩
  | endCommit x => exact h.inCommit fun t hx => h.letGo hx { t with committing := false } rfl rfl
  | delete k => exact h.delete k

theorem Sound.performAll {o : StatementOwners} (h : Sound o) (es : List OwnerEvent) :
    ∃ o', o.performAll es = some o' ∧ Sound o' := by
  induction es generalizing o with
  | nil => exact ⟨o, rfl, h⟩
  | cons e es ih =>
    obtain ⟨o', hstep, hs⟩ := h.step e
    obtain ⟨o'', hrest, hs'⟩ := ih hs
    exact ⟨o'', by rw [StatementOwners.performAll, hstep, Option.bind_some, hrest], hs'⟩

/-! ## The transaction that the handlers see -/

theorem clearQueries_live {heap : BlockHeap PreparedStatementBase}
    (elements : List TransactionElement)
    (h : ∀ p ∈ elements.filterMap TransactionElement.pointer, (heap.load p).isSome = true) :
    (TransactionBase.clearQueries (elements.map (TransactionElement.data heap))).2 = none := by
  induction elements with
  | nil => rfl
  | cons element elements ih =>
    cases element with
    | raw sql => exact ih h
    | prepared p =>
      have hp := h p (by simp [TransactionElement.pointer])
      obtain ⟨stmt, hstmt⟩ := Option.isSome_iff_exists.mp hp
      have hrest := ih fun q hq => h q (by
        simp only [List.filterMap_cons, TransactionElement.pointer]
        exact List.mem_cons_of_mem p hq)
      simp only [List.map_cons, TransactionElement.data, hstmt, TransactionBase.clearQueries,
        SQLElementData.clear, SQLElement.getStatement]
      exact hrest

/-- The cleanup of the statements is the cleanup by pointers, without a fault. -/
theorem Owning.cleanup_base {o o' : StatementOwners} (h : Owning o) {x : Nat}
    {t : SharedTransaction} (hx : o.transactions[x]? = some t) (hc : o.cleanup x = some o') :
    (t.base o.heap).cleanup = ((t.base o.heap).cleanup.1, none) ∧
      o'.transactions[x]?.map (SharedTransaction.base o'.heap) =
        some (t.base o.heap).cleanup.1 := by
  have hlive := @clearQueries_live o.heap t.m_queries fun p hp =>
    (h.owned.live p).mpr (mem_owned_of_transaction hx hp)
  simp only [StatementOwners.cleanup, hx] at hc
  split at hc
  · rename_i hclean
    cases hc
    simp [hx, TransactionBase.cleanup, SharedTransaction.base, hclean]
  · rename_i hclean
    obtain ⟨heap, -, rfl⟩ := Option.map_eq_some_iff.mp hc
    have hcleared : (t.base o.heap).cleanup = (⟨[], true⟩, none) := by
      have hbase : ¬ (t.base o.heap).cleanedUp = true := hclean
      rw [TransactionBase.cleanup, if_neg hbase]
      have hfault : (TransactionBase.clearQueries (t.base o.heap).m_queries).2 = none := hlive
      generalize TransactionBase.clearQueries (t.base o.heap).m_queries = cleared at hfault
      obtain ⟨queries, fault⟩ := cleared
      cases hfault
      rfl
    rw [hcleared]
    refine ⟨rfl, ?_⟩
    simp only [List.getElem?_set_self (List.getElem?_eq_some_iff.mp hx).1, Option.map_some]
    rfl

/-- Nobody has a statement or a reference to a transaction any more. -/
structure Finished (o : StatementOwners) : Prop where
  caller : o.caller = []
  tasks : o.tasks = []
  transactions : ∀ t ∈ o.transactions, t.used = false

/-- At the end the transactions have only what came late. -/
theorem Sound.owned_finished {o : StatementOwners} (h : Sound o) (hf : Finished o) :
    o.owned.Perm o.late := by
  have hall : ∀ t ∈ o.transactions, t.latePointers = t.pointers := by
    intro t ht
    obtain ⟨x, hx⟩ := List.getElem?_of_mem ht
    have hclean : t.cleanedUp = true := by
      rcases h.referenced x t hx with hheld | htask | hclean
      · rw [hf.transactions t ht] at hheld
        cases hheld
      · rw [hf.tasks] at htask
        cases htask
      · exact hclean
    exact if_pos hclean
  have howned : o.owned = o.transactions.flatMap SharedTransaction.pointers := by
    simp [owned, hf.caller, hf.tasks]
  rw [howned, ← List.flatMap_congr hall]
  exact h.late.symm

/-- However callers and workers interleave, with one commit of a transaction at a time and
no append to it during that: no statement is deleted twice or used after that, each one
that is not deleted has exactly one owner, and no `Cleanup` meets a fault. When all is
over, the statements that are left are those that were appended to a transaction after
its cleanup. -/
theorem statements_have_one_owner (es : List OwnerEvent) :
    ∃ o, empty.performAll es = some o ∧ o.owned.Nodup ∧
      (∀ p, (o.heap.load p).isSome = true ↔ p ∈ o.owned) ∧
      (∀ t ∈ o.transactions, (t.base o.heap).cleanup.2 = none) ∧
      (Finished o → o.late.Nodup ∧ ∀ p, (o.heap.load p).isSome = true ↔ p ∈ o.late) := by
  obtain ⟨o, hall, hs⟩ := sound_empty.performAll es
  refine ⟨o, hall, hs.owned.nodup, hs.owned.live, fun t ht => ?_, fun hf => ?_⟩
  · obtain ⟨x, hx⟩ := List.getElem?_of_mem ht
    obtain ⟨o', hcleanup, -, -⟩ := hs.cleanup x
    rw [(hs.cleanup_base hx hcleanup).1]
  have hperm := hs.owned_finished hf
  exact ⟨hperm.nodup_iff.mp hs.owned.nodup,
    fun p => (hs.owned.live p).trans hperm.mem_iff⟩

end StatementOwners

end Mpool.Database
