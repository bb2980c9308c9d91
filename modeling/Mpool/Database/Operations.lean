import Mpool.Lib.Runs
import Mpool.Database.DatabaseWorkerPool

/-! The way of the enqueued operations. Producers push them, the `n` workers of
the pool take, run and delete them, and the destructors of the workers set the
token, cancel the queue and join the threads, one step of one of them at a time. -/

namespace Mpool.Database

open Runs

/-! ## The steps -/

/-- Where `WorkerThread` stands; the operation is the one it took. -/
inductive ThreadState where
  | waiting
  | testing (operation : Option Nat)
  | executing (operation : Nat)
  | deleting (operation : Nat)
  | returned
  deriving DecidableEq

/-- The thread has taken the operation and not yet executed it. -/
def ThreadState.Holds (thread : ThreadState) (operation : Nat) : Prop :=
  thread = .testing (some operation) ∨ thread = .executing operation

/-- Where the destructor of a worker stands. -/
inductive DestructorState where
  | notCalled
  | tokenSet
  | cancelled
  | joined
  deriving DecidableEq

structure WorkerState where
  thread : ThreadState
  destructor : DestructorState
  cancelationToken : Bool

/-- What happens to an operation; operations are numbered as they are pushed. -/
inductive OperationEvent where
  | executed (operation : Nat)
  | deleted (operation : Nat)
  deriving DecidableEq

def OperationEvent.operation : OperationEvent → Nat
  | .executed operation => operation
  | .deleted operation => operation

@[simp, grind =] theorem OperationEvent.operation_executed (operation : Nat) :
    (executed operation).operation = operation := rfl

@[simp, grind =] theorem OperationEvent.operation_deleted (operation : Nat) :
    (deleted operation).operation = operation := rfl

structure Operations (n : Nat) where
  queue : ProducerConsumerQueue Nat
  /-- The number of operations pushed so far. -/
  count : Nat
  workers : Fin n → WorkerState
  log : List OperationEvent

inductive OperationStep (n : Nat) where
  | push
  | waitAndPop (k : Fin n)
  | test (k : Fin n)
  | execute (k : Fin n)
  | delete (k : Fin n)
  | setToken (k : Fin n)
  | cancel (k : Fin n)
  | join (k : Fin n)

namespace Operations

variable {n : Nat}

def start : Operations n := ⟨.create, 0, fun _ => ⟨.waiting, .notCalled, false⟩, []⟩

def setThread (s : Operations n) (k : Fin n) (thread : ThreadState) : Operations n :=
  { s with workers := Function.update s.workers k { s.workers k with thread := thread } }

def setDestructor (s : Operations n) (k : Fin n) (destructor : DestructorState) : Operations n :=
  { s with workers := Function.update s.workers k { s.workers k with destructor := destructor } }

def setCancelationToken (s : Operations n) (k : Fin n) : Operations n :=
  { s with workers := Function.update s.workers k { s.workers k with cancelationToken := true } }

@[simp] theorem setThread_queue (s : Operations n) (k : Fin n) (thread : ThreadState) :
    (s.setThread k thread).queue = s.queue := rfl

@[simp] theorem setThread_count (s : Operations n) (k : Fin n) (thread : ThreadState) :
    (s.setThread k thread).count = s.count := rfl

@[simp] theorem setThread_log (s : Operations n) (k : Fin n) (thread : ThreadState) :
    (s.setThread k thread).log = s.log := rfl

theorem setThread_thread (s : Operations n) (k j : Fin n) (thread : ThreadState) :
    ((s.setThread k thread).workers j).thread = if j = k then thread else (s.workers j).thread := by
  simp only [setThread, Function.update_apply]
  split <;> rfl

@[simp] theorem setThread_destructor (s : Operations n) (k j : Fin n) (thread : ThreadState) :
    ((s.setThread k thread).workers j).destructor = (s.workers j).destructor := by
  simp only [setThread, Function.update_apply]
  split
  · subst_vars
    rfl
  · rfl

@[simp] theorem setDestructor_thread (s : Operations n) (k j : Fin n)
    (destructor : DestructorState) :
    ((s.setDestructor k destructor).workers j).thread = (s.workers j).thread := by
  simp only [setDestructor, Function.update_apply]
  split
  · subst_vars
    rfl
  · rfl

theorem setDestructor_destructor (s : Operations n) (k j : Fin n) (destructor : DestructorState) :
    ((s.setDestructor k destructor).workers j).destructor =
      if j = k then destructor else (s.workers j).destructor := by
  simp only [setDestructor, Function.update_apply]
  split <;> rfl

@[simp] theorem setCancelationToken_thread (s : Operations n) (k j : Fin n) :
    ((s.setCancelationToken k).workers j).thread = (s.workers j).thread := by
  simp only [setCancelationToken, Function.update_apply]
  split
  · subst_vars
    rfl
  · rfl

@[simp] theorem setCancelationToken_destructor (s : Operations n) (k j : Fin n) :
    ((s.setCancelationToken k).workers j).destructor = (s.workers j).destructor := by
  simp only [setCancelationToken, Function.update_apply]
  split
  · subst_vars
    rfl
  · rfl

/-- One step; a thread that is elsewhere does not take it, and one that has to
wait stays. -/
def step (s : Operations n) : OperationStep n → Operations n
  | .push => { s with queue := s.queue.push s.count, count := s.count + 1 }
  | .waitAndPop k =>
    match (s.workers k).thread, s.queue.waitAndPop with
    | .waiting, some (operation, queue) =>
      { s.setThread k (.testing operation) with queue := queue }
    | _, _ => s
  | .test k =>
    match (s.workers k).thread with
    | .testing none => s.setThread k .returned
    | .testing (some operation) =>
      if (s.workers k).cancelationToken then s.setThread k .returned
      else s.setThread k (.executing operation)
    | _ => s
  | .execute k =>
    match (s.workers k).thread with
    | .executing operation =>
      { s.setThread k (.deleting operation) with log := s.log ++ [.executed operation] }
    | _ => s
  | .delete k =>
    match (s.workers k).thread with
    | .deleting operation =>
      { s.setThread k .waiting with log := s.log ++ [.deleted operation] }
    | _ => s
  | .setToken k =>
    if (s.workers k).destructor = .notCalled then
      (s.setCancelationToken k).setDestructor k .tokenSet
    else s
  | .cancel k =>
    if (s.workers k).destructor = .tokenSet then
      { s.setDestructor k .cancelled with
        queue := s.queue.cancel
        log := s.log ++ s.queue.queue.map .deleted }
    else s
  | .join k =>
    if (s.workers k).destructor = .cancelled ∧ (s.workers k).thread = .returned then
      s.setDestructor k .joined
    else s

/-- The steps that are possible: nobody waits and everybody stands at his step. -/
def Enabled (s : Operations n) : OperationStep n → Prop
  | .push => True
  | .waitAndPop k => (s.workers k).thread = .waiting ∧ s.queue.waitAndPop ≠ none
  | .test k => ∃ operation, (s.workers k).thread = .testing operation
  | .execute k => ∃ operation, (s.workers k).thread = .executing operation
  | .delete k => ∃ operation, (s.workers k).thread = .deleting operation
  | .setToken k => (s.workers k).destructor = .notCalled
  | .cancel k => (s.workers k).destructor = .tokenSet
  | .join k => (s.workers k).destructor = .cancelled ∧ (s.workers k).thread = .returned

/-- What happened to one operation. -/
def life (s : Operations n) (operation : Nat) : List OperationEvent :=
  s.log.filter fun event => event.operation = operation

/-- Executed once and then deleted, or deleted once without being executed. -/
def Settled (s : Operations n) (operation : Nat) : Prop :=
  s.life operation = [.executed operation, .deleted operation] ∨
    s.life operation = [.deleted operation]

def AllJoined (s : Operations n) : Prop := ∀ k, (s.workers k).destructor = .joined

/-! ## Where an operation is -/

inductive Place (n : Nat) where
  | unborn
  | queued
  | taken (k : Fin n)
  | executed (k : Fin n)
  | settled (ran : Bool)
  | forgotten

def Place.life (operation : Nat) : Place n → List OperationEvent
  | .executed _ => [.executed operation]
  | .settled true => [.executed operation, .deleted operation]
  | .settled false => [.deleted operation]
  | _ => []

/-- Every operation is at one place, and its life so far is the one that goes
with it. One that no thread, queue or destructor has any more is forgotten, unless it
is settled. -/
structure Accounts (s : Operations n) (place : Nat → Place n) : Prop where
  unborn : ∀ operation, place operation = .unborn ↔ s.count ≤ operation
  queued : ∀ operation, place operation = .queued ↔ operation ∈ s.queue.queue
  nodup : s.queue.queue.Nodup
  taken : ∀ operation k, place operation = .taken k ↔ (s.workers k).thread.Holds operation
  executed : ∀ operation k, place operation = .executed k ↔
    (s.workers k).thread = .deleting operation
  life : ∀ operation, s.life operation = (place operation).life operation

/-! ## The steps keep the account -/

theorem Accounts.push {s : Operations n} {place : Nat → Place n} (h : Accounts s place) :
    Accounts (s.step .push) (Function.update place s.count .queued) where
  unborn operation := by
    have := h.unborn operation
    simp only [step, Function.update_apply]
    grind
  queued operation := by
    have := h.queued operation
    simp only [step, Function.update_apply, ProducerConsumerQueue.push, List.mem_append,
      List.mem_singleton]
    grind
  nodup := by
    have hnew : s.count ∉ s.queue.queue := by
      rw [← h.queued, (h.unborn s.count).mpr (Nat.le_refl _)]
      simp
    simp only [step, ProducerConsumerQueue.push]
    rw [← List.concat_eq_append]
    exact h.nodup.concat hnew
  taken operation k := by
    have := h.taken operation k
    have := h.unborn operation
    simp only [step, Function.update_apply]
    grind
  executed operation k := by
    have := h.executed operation k
    have := h.unborn operation
    simp only [step, Function.update_apply]
    grind
  life operation := by
    have hlife := h.life operation
    have := h.unborn operation
    simp only [step, Function.update_apply, Operations.life] at hlife ⊢
    rw [hlife]
    grind [Place.life]

/-- A step that moves no operation. -/
theorem Accounts.same {s s' : Operations n} {place : Nat → Place n} (h : Accounts s place)
    (hqueue : s'.queue.queue = s.queue.queue) (hcount : s'.count = s.count)
    (hlog : s'.log = s.log)
    (hholds : ∀ k operation, (s'.workers k).thread.Holds operation ↔
      (s.workers k).thread.Holds operation)
    (hdeleting : ∀ k operation, (s'.workers k).thread = .deleting operation ↔
      (s.workers k).thread = .deleting operation) : Accounts s' place where
  unborn := by simpa only [hcount] using h.unborn
  queued := by simpa only [hqueue] using h.queued
  nodup := by simpa only [hqueue] using h.nodup
  taken := by simpa only [hholds] using h.taken
  executed := by simpa only [hdeleting] using h.executed
  life := by simpa only [Operations.life, hlog] using h.life

/-- A thread that goes on with what it has. -/
theorem Accounts.setThread {s : Operations n} {place : Nat → Place n} (h : Accounts s place)
    {k : Fin n} {thread : ThreadState}
    (hholds : ∀ operation, thread.Holds operation ↔ (s.workers k).thread.Holds operation)
    (hdeleting : ∀ operation, thread = .deleting operation ↔
      (s.workers k).thread = .deleting operation) : Accounts (s.setThread k thread) place := by
  apply h.same
  · rfl
  · rfl
  · rfl
  · intro j operation
    rw [setThread_thread]
    split
    · subst_vars
      exact hholds operation
    · rfl
  · intro j operation
    rw [setThread_thread]
    split
    · subst_vars
      exact hdeleting operation
    · rfl

/-- A worker takes the operation at the front of the queue. -/
theorem Accounts.take {s : Operations n} {place : Nat → Place n} (h : Accounts s place)
    {k : Fin n} {operation : Nat} {rest : List Nat} (hthread : (s.workers k).thread = .waiting)
    (hqueue : s.queue.queue = operation :: rest) :
    Accounts { s.setThread k (.testing (some operation)) with queue := ⟨rest, false⟩ }
      (Function.update place operation (.taken k)) where
  unborn o := by
    have := h.unborn o
    have := h.queued o
    simp only [setThread_count, Function.update_apply]
    grind
  queued o := by
    have := h.queued o
    have := h.nodup
    simp only [Function.update_apply]
    grind
  nodup := by
    have := h.nodup
    grind
  taken o j := by
    have := h.taken o j
    have := h.queued o
    simp only [setThread_thread, Function.update_apply, ThreadState.Holds] at this ⊢
    grind [ThreadState.Holds]
  executed o j := by
    have := h.executed o j
    have := h.queued o
    simp only [setThread_thread, Function.update_apply]
    grind
  life o := by
    have hlife := h.life o
    have := h.queued o
    simp only [setThread_log, Function.update_apply, Operations.life] at hlife ⊢
    rw [hlife]
    grind [Place.life]

/-- A thread that holds an operation returns. -/
theorem Accounts.forget {s : Operations n} {place : Nat → Place n} (h : Accounts s place)
    {k : Fin n} {operation : Nat} (hthread : (s.workers k).thread = .testing (some operation)) :
    Accounts (s.setThread k .returned) (Function.update place operation .forgotten) where
  unborn o := by
    have := h.unborn o
    have := h.taken o k
    simp only [setThread_count, Function.update_apply]
    grind [ThreadState.Holds]
  queued o := by
    have := h.queued o
    have := h.taken o k
    simp only [setThread_queue, Function.update_apply]
    grind [ThreadState.Holds]
  nodup := h.nodup
  taken o j := by
    have := h.taken o j
    have := h.taken o k
    simp only [setThread_thread, Function.update_apply, ThreadState.Holds] at *
    grind
  executed o j := by
    have := h.executed o j
    have := h.taken o k
    simp only [setThread_thread, Function.update_apply, ThreadState.Holds] at *
    grind
  life o := by
    have hlife := h.life o
    have := h.taken o k
    simp only [setThread_log, Function.update_apply, Operations.life, ThreadState.Holds] at *
    grind [Place.life]

theorem Accounts.execute {s : Operations n} {place : Nat → Place n} (h : Accounts s place)
    {k : Fin n} {operation : Nat} (hthread : (s.workers k).thread = .executing operation) :
    Accounts { s.setThread k (.deleting operation) with log := s.log ++ [.executed operation] }
      (Function.update place operation (.executed k)) where
  unborn o := by
    have := h.unborn o
    have := h.taken o k
    simp only [setThread_count, Function.update_apply]
    grind [ThreadState.Holds]
  queued o := by
    have := h.queued o
    have := h.taken o k
    simp only [setThread_queue, Function.update_apply]
    grind [ThreadState.Holds]
  nodup := h.nodup
  taken o j := by
    have := h.taken o j
    have := h.taken o k
    simp only [setThread_thread, Function.update_apply, ThreadState.Holds] at *
    grind
  executed o j := by
    have := h.executed o j
    have := h.taken o k
    simp only [setThread_thread, Function.update_apply, ThreadState.Holds] at *
    grind
  life o := by
    have hlife := h.life o
    have := h.taken o k
    simp only [Function.update_apply, Operations.life, ThreadState.Holds] at *
    grind [Place.life, OperationEvent.operation]

theorem Accounts.delete {s : Operations n} {place : Nat → Place n} (h : Accounts s place)
    {k : Fin n} {operation : Nat} (hthread : (s.workers k).thread = .deleting operation) :
    Accounts { s.setThread k .waiting with log := s.log ++ [.deleted operation] }
      (Function.update place operation (.settled true)) where
  unborn o := by
    have := h.unborn o
    have := h.executed o k
    simp only [setThread_count, Function.update_apply]
    grind
  queued o := by
    have := h.queued o
    have := h.executed o k
    simp only [setThread_queue, Function.update_apply]
    grind
  nodup := h.nodup
  taken o j := by
    have := h.taken o j
    have := h.executed o k
    simp only [setThread_thread, Function.update_apply, ThreadState.Holds] at *
    grind
  executed o j := by
    have := h.executed o j
    have := h.executed o k
    simp only [setThread_thread, Function.update_apply] at *
    grind
  life o := by
    have hlife := h.life o
    have := h.executed o k
    simp only [Function.update_apply, Operations.life] at *
    grind [Place.life, OperationEvent.operation]

/-- What is in the queue is deleted from it. -/
theorem life_cancel (operations : List Nat) (hnodup : operations.Nodup) (operation : Nat) :
    ((operations.map OperationEvent.deleted).filter fun event => event.operation = operation) =
      if operation ∈ operations then [.deleted operation] else [] := by
  induction operations with
  | nil => rfl
  | cons o operations ih =>
    obtain ⟨hnot, hnodup⟩ := List.nodup_cons.mp hnodup
    have hih := ih hnodup
    rw [List.map_cons, List.filter_cons, hih]
    by_cases ho : o = operation
    · subst ho
      simp [hnot]
    · simp [ho, Ne.symm ho]

theorem Accounts.cancel {s : Operations n} {place : Nat → Place n} (h : Accounts s place)
    (k : Fin n) :
    Accounts { s.setDestructor k .cancelled with
        queue := s.queue.cancel
        log := s.log ++ s.queue.queue.map .deleted }
      (fun o => if o ∈ s.queue.queue then .settled false else place o) where
  unborn o := by
    have := h.unborn o
    have := h.queued o
    simp only [setDestructor]
    grind
  queued o := by
    have := h.queued o
    simp only [ProducerConsumerQueue.cancel]
    grind
  nodup := List.nodup_nil
  taken o j := by
    have := h.taken o j
    have := h.queued o
    simp only [setDestructor_thread]
    grind
  executed o j := by
    have := h.executed o j
    have := h.queued o
    simp only [setDestructor_thread]
    grind
  life o := by
    have hlife := h.life o
    have hqueued := h.queued o
    simp only [Operations.life] at hlife
    simp only [Operations.life, List.filter_append, life_cancel _ h.nodup, hlife]
    grind [Place.life]

/-! ## Forgotten operations -/

/-- The one step that lets go of an operation: the thread finds the token set
when it holds one. -/
def Forgets (s : Operations n) : OperationStep n → Prop
  | .test k => (s.workers k).cancelationToken = true ∧
      ∃ operation, (s.workers k).thread = .testing (some operation)
  | _ => False

/-- Some operation is forgotten. -/
def AnyForgotten (place : Nat → Place n) : Prop := ∃ operation, place operation = .forgotten

theorem anyForgotten_update {place : Nat → Place n} {operation : Nat} {p : Place n}
    (hold : place operation ≠ .forgotten) (hnew : p ≠ .forgotten) :
    AnyForgotten (Function.update place operation p) ↔ AnyForgotten place := by
  apply exists_congr
  intro o
  by_cases ho : o = operation
  · rw [ho, Function.update_self]
    exact iff_of_false hnew hold
  · rw [Function.update_of_ne ho]

/-- Each step keeps an account, in which an operation is forgotten if one was before or
if the step forgets one. -/
def StepAccounts (s : Operations n) (place : Nat → Place n) (i : OperationStep n) : Prop :=
  ∃ place', Accounts (s.step i) place' ∧ (AnyForgotten place' ↔ AnyForgotten place ∨ Forgets s i)

section steps

variable {s : Operations n} {place : Nat → Place n}

/-- A step that keeps the account as it is. -/
theorem StepAccounts.same {i : OperationStep n} (h : Accounts (s.step i) place)
    (hi : ¬ Forgets s i) : StepAccounts s place i :=
  ⟨place, h, (or_iff_left hi).symm⟩

/-- A step that moves one operation. -/
theorem StepAccounts.move {i : OperationStep n} {operation : Nat} {p : Place n}
    (hold : place operation ≠ .forgotten) (hnew : p ≠ .forgotten)
    (h : Accounts (s.step i) (Function.update place operation p)) (hi : ¬ Forgets s i) :
    StepAccounts s place i :=
  ⟨_, h, (anyForgotten_update hold hnew).trans (or_iff_left hi).symm⟩

theorem Accounts.waitAndPop (h : Accounts s place) (k : Fin n) :
    StepAccounts s place (.waitAndPop k) := by
  obtain ⟨⟨values, shutdown⟩, count, workers, log⟩ := s
  by_cases hthread : (workers k).thread = .waiting
  · cases shutdown with
    | true =>
      -- the queue is shut down: the thread comes back with nothing
      refine .same ?_ not_false
      simp only [step, hthread, ProducerConsumerQueue.waitAndPop_shutdown]
      apply h.setThread
      · intro o
        simp [hthread, ThreadState.Holds]
      · intro o
        simp [hthread]
    | false =>
      cases values with
      | nil =>
        refine .same ?_ not_false
        simp only [step, hthread, ProducerConsumerQueue.waitAndPop]
        exact h
      | cons value values =>
        have hqueued : place value = .queued := (h.queued value).mpr List.mem_cons_self
        have hold : place value ≠ .forgotten := by simp [hqueued]
        have hnew : Place.taken k ≠ .forgotten := by simp
        refine .move hold hnew ?_ not_false
        simp only [step, hthread, ProducerConsumerQueue.waitAndPop_cons]
        exact h.take hthread rfl
  · refine .same ?_ not_false
    simp only [step]
    split
    · rename_i hwaiting hpop
      exact absurd hwaiting hthread
    · exact h

/-- The test lets go of an operation only where the token is set. -/
theorem Accounts.test (h : Accounts s place) (k : Fin n) : StepAccounts s place (.test k) := by
  cases hthread : (s.workers k).thread with
  | testing taken =>
    cases taken with
    | none =>
      refine .same ?_ (by simp [Forgets, hthread])
      simp only [step, hthread]
      apply h.setThread
      · intro o
        simp [hthread, ThreadState.Holds]
      · intro o
        simp [hthread]
    | some operation =>
      cases htoken : (s.workers k).cancelationToken with
      | false =>
        refine .same ?_ (by simp [Forgets, htoken])
        simp only [step, hthread, htoken, Bool.false_eq_true, if_false]
        apply h.setThread
        · intro o
          simp [hthread, ThreadState.Holds]
        · intro o
          simp [hthread]
      | true =>
        refine ⟨Function.update place operation .forgotten, ?_, ?_⟩
        · simp only [step, hthread, htoken, if_true]
          exact h.forget hthread
        · exact iff_of_true ⟨operation, Function.update_self ..⟩ (.inr ⟨htoken, operation, hthread⟩)
  | _ =>
    refine .same ?_ (by simp [Forgets, hthread])
    simp only [step, hthread]
    exact h

theorem Accounts.step (h : Accounts s place) (i : OperationStep n) : StepAccounts s place i := by
  cases i with
  | push =>
    have hunborn : place s.count = .unborn := (h.unborn s.count).mpr (Nat.le_refl _)
    exact .move (by simp [hunborn]) (by simp) h.push not_false
  | waitAndPop k => exact h.waitAndPop k
  | test k => exact h.test k
  | execute k =>
    cases hthread : (s.workers k).thread with
    | executing operation =>
      have htaken : place operation = .taken k := (h.taken operation k).mpr (.inr hthread)
      have hold : place operation ≠ .forgotten := by simp [htaken]
      have hnew : Place.executed k ≠ .forgotten := by simp
      refine .move hold hnew ?_ not_false
      simp only [Operations.step, hthread]
      exact h.execute hthread
    | _ =>
      refine .same ?_ not_false
      simp only [Operations.step, hthread]
      exact h
  | delete k =>
    cases hthread : (s.workers k).thread with
    | deleting operation =>
      have hexecuted : place operation = .executed k := (h.executed operation k).mpr hthread
      have hold : place operation ≠ .forgotten := by simp [hexecuted]
      have hnew : Place.settled (n := n) true ≠ .forgotten := by simp
      refine .move hold hnew ?_ not_false
      simp only [Operations.step, hthread]
      exact h.delete hthread
    | _ =>
      refine .same ?_ not_false
      simp only [Operations.step, hthread]
      exact h
  | setToken k =>
    refine .same ?_ not_false
    simp only [Operations.step]
    split
    · exact h.same rfl rfl rfl (by simp) (by simp)
    · exact h
  | cancel k =>
    by_cases hdestructor : (s.workers k).destructor = .tokenSet
    · refine ⟨fun o => if o ∈ s.queue.queue then .settled false else place o, ?_, ?_⟩
      · simp only [Operations.step, hdestructor, if_true]
        exact h.cancel k
      · refine Iff.trans (exists_congr fun o => ?_) (or_iff_left not_false).symm
        have hqueued := h.queued o
        dsimp only
        split
        · rename_i hmem
          simp [hqueued.mpr hmem]
        · rfl
    · refine .same ?_ not_false
      simp only [Operations.step, hdestructor, if_false]
      exact h
  | join k =>
    refine .same ?_ not_false
    simp only [Operations.step]
    split
    · exact h.same rfl rfl rfl (by simp) (by simp)
    · exact h

end steps

theorem Accounts.start : Accounts (start : Operations n) fun _ => .unborn := by
  constructor <;>
    simp [Operations.start, ProducerConsumerQueue.create, ThreadState.Holds, Operations.life,
      Place.life]

/-- A run leaves an operation forgotten exactly when one of its steps forgets one. -/
theorem Accounts.run {s : Operations n} {place : Nat → Place n} (h : Accounts s place)
    (steps : List (OperationStep n)) : ∃ place', Accounts (run Operations.step s steps) place' ∧
      (AnyForgotten place' ↔
        AnyForgotten place ∨ ¬ Along Operations.step (fun s i => ¬ Forgets s i) s steps) := by
  induction steps generalizing s place with
  | nil => exact ⟨place, h, (or_iff_left (not_not_intro trivial)).symm⟩
  | cons i steps ih =>
    obtain ⟨next, hnext, hstep⟩ := h.step i
    obtain ⟨place', hplace', hrun⟩ := ih hnext
    refine ⟨place', hplace', hrun.trans ?_⟩
    rw [hstep, or_assoc, Along, not_and_or, not_not]

theorem accounts_run (steps : List (OperationStep n)) :
    ∃ place, Accounts (run step start steps) place ∧
      (¬ AnyForgotten place ↔ Along step (fun s i => ¬ Forgets s i) start steps) := by
  obtain ⟨place, hplace, hforgotten⟩ := Accounts.start.run steps
  refine ⟨place, hplace, ?_⟩
  rw [hforgotten, not_or, not_not]
  refine and_iff_right ?_
  rintro ⟨operation, hunborn⟩
  cases hunborn

/-- Every operation is at one place. -/
def Accounted (s : Operations n) : Prop := ∃ place, Accounts s place

theorem Accounted.start : Accounted (start : Operations n) := ⟨_, .start⟩

theorem Accounted.step {s : Operations n} (h : Accounted s) (i : OperationStep n) :
    Accounted (s.step i) := by
  obtain ⟨place, h⟩ := h
  obtain ⟨place', h', -⟩ := h.step i
  exact ⟨place', h'⟩

theorem Accounted.life {s : Operations n} (h : Accounted s) (o : Nat) :
    s.life o = [] ∨ s.life o = [.executed o] ∨ s.life o = [.executed o, .deleted o] ∨
      s.life o = [.deleted o] := by
  obtain ⟨place, h⟩ := h
  rw [h.life]
  cases place o with
  | settled ran => cases ran <;> simp [Place.life]
  | _ => simp [Place.life]

theorem life_append (s s' : Operations n) (events : List OperationEvent)
    (h : s'.log = s.log ++ events) (o : Nat) :
    s'.life o = s.life o ++ events.filter fun event => event.operation = o := by
  simp only [Operations.life, h, List.filter_append]

/-- In any run whatsoever an operation is executed at most once and deleted at most
once, after its execution if there is one, and no thread works on it behind that. -/
theorem operation_lives (steps : List (OperationStep n)) (o : Nat) :
    ((run step start steps).life o = [] ∨ (run step start steps).life o = [.executed o] ∨
        (run step start steps).life o = [.executed o, .deleted o] ∨
        (run step start steps).life o = [.deleted o]) ∧
      ∀ k, (((run step start steps).workers k).thread.Holds o →
          (run step start steps).life o = []) ∧
        (((run step start steps).workers k).thread = .deleting o →
          (run step start steps).life o = [.executed o]) := by
  obtain ⟨place, h, -⟩ := accounts_run steps
  refine ⟨Accounted.life ⟨place, h⟩ o, fun k => ⟨fun ho => ?_, fun ho => ?_⟩⟩
  · rw [h.life, (h.taken o k).mpr ho]
    rfl
  · rw [h.life, (h.executed o k).mpr ho]
    rfl

/-! ## Operations nobody cancels -/

/-- Behind every push comes a call of `Cancel`. -/
def PushesCancelled : List (OperationStep n) → Prop
  | [] => True
  | .push :: steps => (∃ k, .cancel k ∈ steps) ∧ PushesCancelled steps
  | _ :: steps => PushesCancelled steps

/-- Nothing is taken from the queue any more. -/
def Closed (s : Operations n) : Prop := s.queue.shutdown = true ∨ n = 0

theorem pushesCancelled_cons {i : OperationStep n} (hi : i ≠ .push)
    (steps : List (OperationStep n)) :
    PushesCancelled (i :: steps) ↔ PushesCancelled steps := by
  cases i with
  | push => exact absurd rfl hi
  | _ => rfl

/-- A closed queue changes by `Push` and `Cancel` only. -/
theorem Closed.queue {s : Operations n} (h : Closed s) {i : OperationStep n}
    (hpush : i ≠ .push) (hcancel : ∀ k, i ≠ .cancel k) :
    (s.step i).queue = s.queue := by
  cases i with
  | push => exact absurd rfl hpush
  | cancel k => exact absurd rfl (hcancel k)
  | waitAndPop k =>
    obtain ⟨⟨values, shutdown⟩, count, workers, log⟩ := s
    rcases h with h | rfl
    · obtain rfl : shutdown = true := h
      simp only [Operations.step, ProducerConsumerQueue.waitAndPop_shutdown]
      split
      · rename_i hpop
        cases hpop
        rfl
      · rfl
    · exact k.elim0
  | test k =>
    simp only [Operations.step]
    split
    · rfl
    · split <;> rfl
    · rfl
  | _ =>
    simp only [Operations.step]
    split <;> rfl

theorem queue_of_cancel {s : Operations n} {k : Fin n} (h : s.Enabled (.cancel k)) :
    (s.step (.cancel k)).queue = s.queue.cancel := by
  have hdestructor : (s.workers k).destructor = .tokenSet := h
  simp only [Operations.step, hdestructor, ↓reduceIte]

theorem Closed.step {s : Operations n} (h : Closed s) {i : OperationStep n}
    (hi : s.Enabled i) : Closed (s.step i) := by
  rcases h with h | hzero
  · left
    cases i with
    | push => exact h
    | cancel k =>
      rw [queue_of_cancel hi]
      rfl
    | _ =>
      rw [Closed.queue (.inl h) (by simp) (by simp)]
      exact h
  · exact .inr hzero

/-- From a closed queue on: what is in the queue stays there until a `Cancel`. -/
theorem queue_nil_iff_of_closed {s : Operations n} (hc : Closed s)
    {steps : List (OperationStep n)} (hsteps : Along step Enabled s steps) :
    (run step s steps).queue.queue = [] ↔
      PushesCancelled steps ∧ (s.queue.queue = [] ∨ ∃ k, .cancel k ∈ steps) := by
  induction steps generalizing s with
  | nil => simp [PushesCancelled]
  | cons i steps ih =>
    rw [run_cons, ih (hc.step hsteps.1) hsteps.2]
    cases i with
    | push =>
      have hqueue : (s.step .push).queue.queue ≠ [] := by
        simp [Operations.step, ProducerConsumerQueue.push]
      simp only [PushesCancelled, hqueue, false_or, List.mem_cons, reduceCtorEq]
      tauto
    | cancel k =>
      rw [pushesCancelled_cons (by simp), queue_of_cancel hsteps.1]
      simp [ProducerConsumerQueue.cancel]
    | _ =>
      rw [pushesCancelled_cons (by simp), hc.queue (by simp) (by simp)]
      simp

/-- With a `Cancel` to come, the queue is empty in the end exactly when every push
has one behind it. -/
theorem queue_nil_iff {s : Operations n} {steps : List (OperationStep n)}
    (hsteps : Along step Enabled s steps) (hcancel : ∃ k, .cancel k ∈ steps) :
    (run step s steps).queue.queue = [] ↔ PushesCancelled steps := by
  induction steps generalizing s with
  | nil => simp at hcancel
  | cons i steps ih =>
    rw [run_cons]
    cases i with
    | push =>
      have hcancel : ∃ k, .cancel k ∈ steps := by simpa using hcancel
      rw [ih hsteps.2 hcancel, PushesCancelled]
      exact ⟨fun h => ⟨hcancel, h⟩, fun h => h.2⟩
    | cancel k =>
      have hqueue := queue_of_cancel hsteps.1
      rw [queue_nil_iff_of_closed (.inl (by rw [hqueue]; rfl)) hsteps.2, hqueue,
        pushesCancelled_cons (by simp)]
      simp [ProducerConsumerQueue.cancel]
    | _ =>
      rw [ih hsteps.2 (by simpa using hcancel), pushesCancelled_cons (by simp)]

/-- Before its `Cancel` a destructor has at most set the token. -/
theorem destructor_step {s : Operations n} {k : Fin n} {i : OperationStep n}
    (hs : (s.workers k).destructor = .notCalled ∨ (s.workers k).destructor = .tokenSet)
    (hi : i ≠ .cancel k) :
    ((s.step i).workers k).destructor = .notCalled ∨
      ((s.step i).workers k).destructor = .tokenSet := by
  cases i with
  | push => exact hs
  | test j =>
    simp only [step]
    split
    · simpa using hs
    · split <;> simpa using hs
    · exact hs
  | setToken j =>
    simp only [step]
    split
    · rw [setDestructor_destructor]
      split
      · exact .inr rfl
      · simpa using hs
    · exact hs
  | cancel j =>
    have hjk : k ≠ j := by
      rintro rfl
      exact hi rfl
    simp only [step]
    split
    · rw [setDestructor_destructor, if_neg hjk]
      exact hs
    · exact hs
  | join j =>
    simp only [step]
    split
    · rename_i hjoin
      rw [setDestructor_destructor]
      split
      · subst_vars
        simp [hjoin.1] at hs
      · exact hs
    · exact hs
  | _ =>
    simp only [step]
    split
    · simpa using hs
    · exact hs

/-- A worker that is joined has had its turn at `Cancel`. -/
theorem cancel_of_joined {s : Operations n} {k : Fin n} {steps : List (OperationStep n)}
    (hs : (s.workers k).destructor = .notCalled ∨ (s.workers k).destructor = .tokenSet)
    (h : ((run step s steps).workers k).destructor = .joined) : .cancel k ∈ steps := by
  induction steps generalizing s with
  | nil => simp only [run_nil] at h; simp [h] at hs
  | cons i steps ih =>
    by_cases hi : i = .cancel k
    · exact hi ▸ List.mem_cons_self
    · exact List.mem_cons_of_mem _ (ih (destructor_step hs hi) h)

/-- A worker that is joined has returned. -/
def JoinsReturned (s : Operations n) : Prop :=
  ∀ k, (s.workers k).destructor = .joined → (s.workers k).thread = .returned

theorem JoinsReturned.setThread {s : Operations n} (h : JoinsReturned s) {k : Fin n}
    {thread : ThreadState} (hk : (s.workers k).thread ≠ .returned) :
    JoinsReturned (s.setThread k thread) := by
  intro j hj
  rw [setThread_destructor] at hj
  rw [setThread_thread]
  split
  · subst_vars
    exact absurd (h _ hj) hk
  · exact h j hj

/-- A destructor that is not at its `join` goes on. -/
theorem JoinsReturned.setDestructor {s : Operations n} (h : JoinsReturned s) {k : Fin n}
    {destructor : DestructorState}
    (hk : destructor = .joined → (s.workers k).thread = .returned) :
    JoinsReturned (s.setDestructor k destructor) := by
  intro j hj
  rw [setDestructor_destructor] at hj
  rw [setDestructor_thread]
  split at hj
  · subst_vars
    exact hk rfl
  · exact h j hj

theorem JoinsReturned.step {s : Operations n} (h : JoinsReturned s) (i : OperationStep n) :
    JoinsReturned (s.step i) := by
  cases i with
  | push => exact h
  | waitAndPop k =>
    simp only [Operations.step]
    split
    · rename_i hthread hpop
      exact h.setThread (by simp [hthread])
    · exact h
  | test k =>
    simp only [Operations.step]
    split
    · rename_i hthread
      exact h.setThread (by simp [hthread])
    · rename_i operation hthread
      have hk : (s.workers k).thread ≠ .returned := by simp [hthread]
      split
      · exact h.setThread hk
      · exact h.setThread hk
    · exact h
  | execute k =>
    simp only [Operations.step]
    split
    · rename_i operation hthread
      exact h.setThread (by simp [hthread])
    · exact h
  | delete k =>
    simp only [Operations.step]
    split
    · rename_i operation hthread
      exact h.setThread (by simp [hthread])
    · exact h
  | setToken k =>
    simp only [Operations.step]
    split
    · apply JoinsReturned.setDestructor
      · intro j hj
        rw [setCancelationToken_destructor] at hj
        rw [setCancelationToken_thread]
        exact h j hj
      · simp
    · exact h
  | cancel k =>
    simp only [Operations.step]
    split
    · exact h.setDestructor (by simp)
    · exact h
  | join k =>
    simp only [Operations.step]
    split
    · rename_i hjoin
      exact h.setDestructor fun _ => hjoin.2
    · exact h

/-! ## When nothing is forgotten -/

/-- With all threads gone and the queue empty there is no other place left. -/
theorem Accounts.settled {s : Operations n} {place : Nat → Place n} (h : Accounts s place)
    (hforgotten : ¬ AnyForgotten place) (hqueue : s.queue.queue = [])
    (hreturned : ∀ k, (s.workers k).thread = .returned) {operation : Nat}
    (hpushed : operation < s.count) : s.Settled operation := by
  have hlife := h.life operation
  cases hp : place operation with
  | unborn => exact absurd ((h.unborn operation).mp hp) (Nat.not_le.mpr hpushed)
  | queued =>
    have hmem := (h.queued operation).mp hp
    rw [hqueue] at hmem
    cases hmem
  | taken k =>
    have hholds := (h.taken operation k).mp hp
    rw [hreturned k] at hholds
    simp [ThreadState.Holds] at hholds
  | executed k =>
    have hdeleting := (h.executed operation k).mp hp
    rw [hreturned k] at hdeleting
    cases hdeleting
  | settled ran =>
    rw [hp] at hlife
    cases ran with
    | true => exact .inl hlife
    | false => exact .inr hlife
  | forgotten => exact absurd ⟨operation, hp⟩ hforgotten

/-- An operation of which nothing is logged is not settled. -/
theorem Accounts.life_ne_nil {s : Operations n} {place : Nat → Place n} (h : Accounts s place)
    (hsettled : ∀ operation < s.count, s.Settled operation) {operation : Nat}
    (hplace : place operation ≠ .unborn) : (place operation).life operation ≠ [] := by
  have hpushed : operation < s.count := by
    have := h.unborn operation
    grind
  rw [← h.life]
  rcases hsettled operation hpushed with hs | hs <;> simp [hs]

theorem Accounts.queue_nil {s : Operations n} {place : Nat → Place n} (h : Accounts s place)
    (hsettled : ∀ operation < s.count, s.Settled operation) : s.queue.queue = [] := by
  apply List.eq_nil_iff_forall_not_mem.mpr
  intro operation hmem
  have hplace : place operation = .queued := (h.queued operation).mpr hmem
  have hpushed : place operation ≠ .unborn := by simp [hplace]
  exact h.life_ne_nil hsettled hpushed (by rw [hplace]; rfl)

theorem Accounts.not_forgotten {s : Operations n} {place : Nat → Place n} (h : Accounts s place)
    (hsettled : ∀ operation < s.count, s.Settled operation) : ¬ AnyForgotten place := by
  rintro ⟨operation, hplace⟩
  have hpushed : place operation ≠ .unborn := by simp [hplace]
  exact h.life_ne_nil hsettled hpushed (by rw [hplace]; rfl)

/-- All workers are joined: every operation ever pushed is settled, exactly when
no thread found its token set while it held an operation and every push was
followed by a `Cancel`. -/
theorem settled_iff {steps : List (OperationStep n)} (hsteps : Along step Enabled start steps)
    (hjoined : (run step start steps).AllJoined) :
    (∀ operation < (run step start steps).count, (run step start steps).Settled operation) ↔
      Along step (fun s i => ¬ Forgets s i) start steps ∧ PushesCancelled steps := by
  have hqueue : (run step start steps).queue.queue = [] ↔ PushesCancelled steps := by
    rcases Nat.eq_zero_or_pos n with hn | hn
    · rw [queue_nil_iff_of_closed (.inr hn) hsteps]
      simp [start, ProducerConsumerQueue.create]
    · apply queue_nil_iff hsteps
      exact ⟨⟨0, hn⟩, cancel_of_joined (.inl rfl) (hjoined _)⟩
  have hreturned : ∀ k, ((run step start steps).workers k).thread = .returned := by
    intro k
    have hstart : JoinsReturned (start : Operations n) := by
      intro j hj
      cases hj
    exact run_invariant (P := JoinsReturned) (fun _ i h => h.step i) hstart steps k (hjoined k)
  obtain ⟨place, h, hforgotten⟩ := accounts_run steps
  rw [← hforgotten, ← hqueue]
  constructor
  · intro hsettled
    exact ⟨h.not_forgotten hsettled, h.queue_nil hsettled⟩
  · rintro ⟨hnone, hempty⟩ operation hpushed
    exact h.settled hnone hempty hreturned hpushed

/-- One worker, which executes one operation and is destroyed. -/
theorem settled_iff_one : ∃ steps : List (OperationStep 1),
    Along step Enabled start steps ∧ (run step start steps).AllJoined ∧
    ((∀ operation < (run step start steps).count, (run step start steps).Settled operation) ↔
      Along step (fun s i => ¬ Forgets s i) start steps ∧ PushesCancelled steps) := by
  let steps : List (OperationStep 1) := [.push, .waitAndPop 0, .test 0, .execute 0, .delete 0,
    .setToken 0, .cancel 0, .waitAndPop 0, .test 0, .join 0]
  have hsteps : Along step Enabled start steps :=
    ⟨trivial, ⟨rfl, Option.some_ne_none _⟩, ⟨some 0, rfl⟩, ⟨0, rfl⟩, ⟨0, rfl⟩, rfl, rfl,
      ⟨rfl, Option.some_ne_none _⟩, ⟨none, rfl⟩, ⟨rfl, rfl⟩, trivial⟩
  have hjoined : (run step start steps).AllJoined := by
    intro k
    obtain rfl : k = 0 := Subsingleton.elim k 0
    rfl
  exact ⟨steps, hsteps, hjoined, settled_iff hsteps hjoined⟩

/-- The worker is destroyed between the moment it takes an operation and its test
of the token. -/
theorem operation_forgotten : ∃ steps : List (OperationStep 1),
    Along step Enabled start steps ∧ (run step start steps).AllJoined ∧
    0 < (run step start steps).count ∧ ¬ (run step start steps).Settled 0 := by
  refine ⟨[.push, .waitAndPop 0, .setToken 0, .cancel 0, .test 0, .join 0], ?_, ?_, ?_, ?_⟩
  · exact ⟨trivial, ⟨rfl, Option.some_ne_none _⟩, rfl, rfl, ⟨some 0, rfl⟩, ⟨rfl, rfl⟩, trivial⟩
  · intro k
    obtain rfl : k = 0 := Subsingleton.elim k 0
    rfl
  · exact Nat.one_pos
  · rintro (h | h) <;> cases h

/-! ## Whole rounds -/

/-- The worker as the pool sees it between its rounds. -/
def toWorker (s : Operations n) (k : Fin n) : DatabaseWorker :=
  ⟨(s.workers k).cancelationToken, (s.workers k).thread = .returned⟩

/-- The operation the thread is about to run. -/
def running (s : Operations n) (k : Fin n) : Option Nat :=
  match (s.workers k).thread with
  | .executing operation => some operation
  | _ => none

/-- A round of `WorkerThread` is its `WaitAndPop` and its test. -/
theorem wake_eq_run {s : Operations n} {k : Fin n} (h : (s.workers k).thread = .waiting) :
    (s.toWorker k).wake s.queue =
      ((run step s [.waitAndPop k, .test k]).toWorker k,
        (run step s [.waitAndPop k, .test k]).queue,
        (run step s [.waitAndPop k, .test k]).running k) := by
  obtain ⟨⟨values, shutdown⟩, count, workers, log⟩ := s
  simp only at h
  cases shutdown with
  | true =>
    simp [toWorker, DatabaseWorker.wake, h, step, setThread, running]
  | false =>
    cases values with
    | nil =>
      simp [toWorker, DatabaseWorker.wake, h, step, running, ProducerConsumerQueue.waitAndPop]
    | cons value values =>
      cases htoken : (workers k).cancelationToken <;>
        simp [toWorker, DatabaseWorker.wake, h, htoken, step, setThread, running]

/-- The destructor up to the `join` is its first two steps. -/
theorem cancel_eq_run {s : Operations n} {k : Fin n}
    (h : (s.workers k).destructor = .notCalled) :
    (s.toWorker k).cancel s.queue =
      ((run step s [.setToken k, .cancel k]).toWorker k,
        (run step s [.setToken k, .cancel k]).queue) := by
  simp [toWorker, DatabaseWorker.cancel, h, step, setCancelationToken, setDestructor]

end Operations

end Mpool.Database
