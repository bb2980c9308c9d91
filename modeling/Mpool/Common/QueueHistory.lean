import Mathlib.Data.List.Infix
import Mpool.Lib.Runs
import Mpool.Common.PCQueue

/-! A queue between any number of producers and consumers. Every call takes
`_queueLock` for one step; a consumer inside `WaitAndPop` tests the condition
again at each wake-up, whether it was notified or not. The log keeps what
happened to the values, in order. -/

namespace Mpool.ProducerConsumerQueue

open Runs

variable {T : Type*}

/-- Producers and consumers are numbered. -/
inductive Action (T : Type*) where
  | push (producer : Nat) (value : T)
  | pop (consumer : Nat)
  | waitAndPop (consumer : Nat)
  | wake (consumer : Nat)
  | cancel (thread : Nat)

inductive Record (T : Type*) where
  | pushed (producer : Nat) (value : T)
  | handed (consumer : Nat) (value : T)
  | deleted (value : T)
  | cancelled

structure History (T : Type*) where
  queue : ProducerConsumerQueue T
  /-- The consumers that wait on `_condition`. -/
  waiting : Nat → Bool
  log : List (Record T)

def Record.pushed? : Record T → Option T
  | .pushed _ value => some value
  | _ => none

def Record.handed? : Record T → Option T
  | .handed _ value => some value
  | _ => none

def Record.deleted? : Record T → Option T
  | .deleted value => some value
  | _ => none

def pushed (log : List (Record T)) : List T := log.filterMap Record.pushed?
def handed (log : List (Record T)) : List T := log.filterMap Record.handed?
def deleted (log : List (Record T)) : List T := log.filterMap Record.deleted?

@[simp] theorem pushed_append (log log' : List (Record T)) :
    pushed (log ++ log') = pushed log ++ pushed log' := List.filterMap_append

@[simp] theorem handed_append (log log' : List (Record T)) :
    handed (log ++ log') = handed log ++ handed log' := List.filterMap_append

@[simp] theorem deleted_append (log log' : List (Record T)) :
    deleted (log ++ log') = deleted log ++ deleted log' := List.filterMap_append

@[simp] theorem pushed_nil : pushed ([] : List (Record T)) = [] := rfl

@[simp] theorem handed_nil : handed ([] : List (Record T)) = [] := rfl

@[simp] theorem deleted_nil : deleted ([] : List (Record T)) = [] := rfl

@[simp] theorem pushed_map_deleted (values : List T) : pushed (values.map .deleted) = [] := by
  simp [pushed, Record.pushed?]

@[simp] theorem handed_map_deleted (values : List T) : handed (values.map .deleted) = [] := by
  simp [handed, Record.handed?]

@[simp] theorem deleted_map_deleted (values : List T) :
    deleted (values.map .deleted) = values := by
  induction values with
  | nil => rfl
  | cons value values ih => exact congrArg (value :: ·) ih

@[simp] theorem pushed_cancelled (log : List (Record T)) :
    pushed (.cancelled :: log) = pushed log := rfl

@[simp] theorem handed_cancelled (log : List (Record T)) :
    handed (.cancelled :: log) = handed log := rfl

@[simp] theorem deleted_cancelled (log : List (Record T)) :
    deleted (.cancelled :: log) = deleted log := rfl

namespace History

/-- The constructor of the queue; nobody waits. -/
def start : History T := ⟨.create, fun _ => false, []⟩

/-- The test of `WaitAndPop` and what follows it, at the call or at a wake-up. -/
def test (s : History T) (consumer : Nat) : History T :=
  match s.queue.waitAndPop with
  | none => { s with waiting := Function.update s.waiting consumer true }
  | some (value, queue) =>
    { queue := queue
      waiting := Function.update s.waiting consumer false
      log := s.log ++ (value.map (Record.handed consumer)).toList }

/-- A consumer that waits makes no other call. -/
def step (s : History T) : Action T → History T
  | .push producer value =>
    { s with queue := s.queue.push value, log := s.log ++ [.pushed producer value] }
  | .pop consumer =>
    if s.waiting consumer then s
    else match s.queue.pop with
      | none => s
      | some (value, queue) =>
        { s with queue := queue, log := s.log ++ [.handed consumer value] }
  | .waitAndPop consumer => if s.waiting consumer then s else s.test consumer
  | .wake consumer => if s.waiting consumer then s.test consumer else s
  | .cancel _ =>
    { s with
      queue := s.queue.cancel
      log := s.log ++ s.queue.queue.map .deleted ++ [.cancelled] }

/-! ## The partition of the pushed values -/

/-- What was pushed has been handed out, deleted or is in the queue, in this
order; before the first `Cancel` nothing is deleted, and from it on nothing is
handed out. -/
structure Sound (s : History T) : Prop where
  split : pushed s.log = handed s.log ++ deleted s.log ++ s.queue.queue
  shut : s.queue.shutdown = true ↔ .cancelled ∈ s.log
  kept : s.queue.shutdown = false → deleted s.log = []
  first : ∀ before after, s.log = before ++ .cancelled :: after → .cancelled ∉ before →
    handed after = [] ∧ pushed before = handed before ++ deleted before

theorem Sound.start : Sound (start : History T) where
  split := rfl
  shut := by simp [History.start, create]
  kept _ := rfl
  first before after h := by
    cases before <;> cases h

/-- The first `Cancel` stays where it is when the log grows. -/
theorem first_append {log added : List (Record T)} (h : .cancelled ∈ log)
    {before after : List (Record T)} (hsplit : log ++ added = before ++ .cancelled :: after)
    (hfirst : .cancelled ∉ before) :
    ∃ middle, log = before ++ .cancelled :: middle ∧ after = middle ++ added := by
  rcases List.append_eq_append_iff.mp hsplit with ⟨middle, rfl, hadded⟩ | ⟨middle, rfl, hafter⟩
  · exact absurd (List.mem_append_left middle h) hfirst
  · cases middle with
    | nil => exact absurd (by simpa using h) hfirst
    | cons record middle =>
      obtain ⟨rfl, rfl⟩ := List.cons_eq_cons.mp hafter
      exact ⟨middle, rfl, rfl⟩

/-- A step that does not cancel: what it adds is pushed, or taken from the front
of an open queue. -/
theorem Sound.grow {s s' : History T} (h : Sound s) (added : List (Record T))
    (hlog : s'.log = s.log ++ added) (hshut : s'.queue.shutdown = s.queue.shutdown)
    (hcancel : .cancelled ∉ added) (hdeleted : deleted added = [])
    (hsplit : handed s.log ++ deleted s.log ++ s.queue.queue ++ pushed added =
      handed s.log ++ handed added ++ deleted s.log ++ s'.queue.queue)
    (hhanded : s.queue.shutdown = true → handed added = []) : Sound s' where
  split := by
    rw [hlog, pushed_append, handed_append, deleted_append, hdeleted, h.split, hsplit,
      List.append_nil]
  shut := by
    rw [hlog, hshut, h.shut]
    simp [hcancel]
  kept hopen := by
    rw [hlog, deleted_append, hdeleted, h.kept (hshut ▸ hopen)]
    rfl
  first before after hbefore hfirst := by
    rw [hlog] at hbefore
    have hmem : .cancelled ∈ s.log := by
      have : .cancelled ∈ s.log ++ added := by simp [hbefore]
      exact (List.mem_append.mp this).resolve_right hcancel
    obtain ⟨middle, hmiddle, rfl⟩ := first_append hmem hbefore hfirst
    obtain ⟨hnone, hparts⟩ := h.first before middle hmiddle hfirst
    exact ⟨by rw [handed_append, hnone, hhanded (h.shut.mpr hmem), List.append_nil], hparts⟩

theorem Sound.push {s : History T} (h : Sound s) (producer : Nat) (value : T) :
    Sound (s.step (.push producer value)) := by
  apply h.grow [.pushed producer value]
  · rfl
  · rfl
  · simp
  · rfl
  · simp [History.step, ProducerConsumerQueue.push, handed, pushed, Record.handed?,
      Record.pushed?]
  · intro _
    rfl

/-- A step that hands out the front of an open queue. -/
theorem Sound.hand {s s' : History T} (h : Sound s) {consumer : Nat} {value : T} {values : List T}
    (hqueue : s.queue = ⟨value :: values, false⟩) (hqueue' : s'.queue = ⟨values, false⟩)
    (hlog : s'.log = s.log ++ [.handed consumer value]) : Sound s' := by
  have hkept := h.kept (by rw [hqueue])
  apply h.grow [.handed consumer value] hlog
  · rw [hqueue, hqueue']
  · simp
  · rfl
  · simp [hqueue, hqueue', hkept, handed, pushed, Record.handed?, Record.pushed?]
  · intro hshut
    rw [hqueue] at hshut
    cases hshut

/-- A step that leaves the queue and the log alone. -/
theorem Sound.same {s s' : History T} (h : Sound s) (hqueue : s'.queue = s.queue)
    (hlog : s'.log = s.log) : Sound s' := by
  obtain ⟨queue, waiting, log⟩ := s'
  obtain rfl : queue = s.queue := hqueue
  obtain rfl : log = s.log := hlog
  exact ⟨h.split, h.shut, h.kept, h.first⟩

theorem Sound.test {s : History T} (h : Sound s) (consumer : Nat) : Sound (s.test consumer) := by
  obtain ⟨⟨values, shutdown⟩, waiting, log⟩ := s
  cases shutdown with
  | true =>
    apply h.same
    · simp [History.test]
    · simp [History.test]
  | false =>
    cases values with
    | nil => exact h.same rfl rfl
    | cons value values => exact h.hand rfl rfl rfl

theorem Sound.pop {s : History T} (h : Sound s) (consumer : Nat) :
    Sound (s.step (.pop consumer)) := by
  obtain ⟨⟨values, shutdown⟩, waiting, log⟩ := s
  simp only [History.step]
  split
  · exact h
  · cases values with
    | nil => exact h
    | cons value values =>
      cases shutdown with
      | true => exact h
      | false => exact h.hand rfl rfl rfl

theorem Sound.cancel {s : History T} (h : Sound s) (thread : Nat) :
    Sound (s.step (.cancel thread)) where
  split := by simp [History.step, ProducerConsumerQueue.cancel, h.split]
  shut := by simp [History.step]
  kept hopen := by cases hopen
  first before after hbefore hfirst := by
    simp only [History.step] at hbefore
    by_cases hmem : .cancelled ∈ s.log
    · rw [List.append_assoc] at hbefore
      obtain ⟨middle, hmiddle, rfl⟩ := first_append hmem hbefore hfirst
      obtain ⟨hnone, hparts⟩ := h.first before middle hmiddle hfirst
      exact ⟨by simp [hnone], hparts⟩
    · -- this is the first one: it deletes what is still in the queue
      have hopen : s.queue.shutdown = false := by
        rw [← Bool.not_eq_true, h.shut]
        exact hmem
      have hnone : .cancelled ∉ s.log ++ s.queue.queue.map Record.deleted := by simp [hmem]
      obtain ⟨rfl, -, rfl⟩ :=
        (List.append_cons_inj_of_notMem hnone List.not_mem_nil).mp hbefore
      exact ⟨rfl, by simp [h.split, h.kept hopen]⟩

theorem Sound.step {s : History T} (h : Sound s) (action : Action T) : Sound (s.step action) := by
  cases action with
  | push producer value => exact h.push producer value
  | pop consumer => exact h.pop consumer
  | waitAndPop consumer =>
    simp only [History.step]
    split
    · exact h
    · exact h.test consumer
  | wake consumer =>
    simp only [History.step]
    split
    · exact h.test consumer
    · exact h
  | cancel thread => exact h.cancel thread

theorem sound_run (actions : List (Action T)) : Sound (run step start actions) :=
  run_invariant (fun _ action h => h.step action) .start actions

end History

end Mpool.ProducerConsumerQueue
