import Mathlib.Data.List.Basic

/-! `PCQueue.h`: the queue between the callers and the worker threads. Each
function holds `_queueLock` throughout, so a call is one step. -/

namespace Mpool

structure ProducerConsumerQueue (T : Type*) where
  queue : List T
  shutdown : Bool

namespace ProducerConsumerQueue

variable {T : Type*}

/-- The constructor. -/
def create : ProducerConsumerQueue T := ⟨[], false⟩

def push (q : ProducerConsumerQueue T) (value : T) : ProducerConsumerQueue T :=
  { q with queue := q.queue ++ [value] }

/-- `Pop`: the value it takes, or `none` where it returns `false`. -/
def pop (q : ProducerConsumerQueue T) : Option (T × ProducerConsumerQueue T) :=
  match q.queue with
  | [] => none
  | value :: values => if q.shutdown then none else some (value, { q with queue := values })

/-- `WaitAndPop`: `none` while it waits, and otherwise the value it takes, if
any; a queue that is shut down gives none. -/
def waitAndPop (q : ProducerConsumerQueue T) : Option (Option T × ProducerConsumerQueue T) :=
  if q.queue.isEmpty && !q.shutdown then none
  else if q.queue.isEmpty || q.shutdown then some (none, q)
  else some (q.queue.head?, { q with queue := q.queue.tail })

def cancel (_ : ProducerConsumerQueue T) : ProducerConsumerQueue T := ⟨[], true⟩

@[simp] theorem push_shutdown (q : ProducerConsumerQueue T) (value : T) :
    (q.push value).shutdown = q.shutdown := rfl

@[simp] theorem cancel_shutdown (q : ProducerConsumerQueue T) : q.cancel.shutdown = true := rfl

@[simp] theorem waitAndPop_cons (value : T) (values : List T) :
    waitAndPop ⟨value :: values, false⟩ = some (some value, ⟨values, false⟩) := rfl

/-- A queue that is shut down never waits and never hands anything over. -/
@[simp] theorem waitAndPop_shutdown (values : List T) :
    waitAndPop ⟨values, true⟩ = some (none, ⟨values, true⟩) := by
  cases values <;> rfl

theorem waitAndPop_keeps {q q' : ProducerConsumerQueue T} {value : Option T}
    (h : q.waitAndPop = some (value, q')) : q'.shutdown = q.shutdown := by
  obtain ⟨values, shutdown⟩ := q
  cases shutdown with
  | true =>
    rw [waitAndPop_shutdown] at h
    cases h
    rfl
  | false =>
    cases values with
    | nil => cases h
    | cons value values =>
      rw [waitAndPop_cons] at h
      cases h
      rfl

/-- The value taken was at the front. -/
theorem waitAndPop_some {q q' : ProducerConsumerQueue T} {value : T}
    (h : q.waitAndPop = some (some value, q')) : q.queue = value :: q'.queue := by
  obtain ⟨values, shutdown⟩ := q
  cases shutdown with
  | true =>
    rw [waitAndPop_shutdown] at h
    cases h
  | false =>
    cases values with
    | nil => cases h
    | cons first values =>
      rw [waitAndPop_cons] at h
      cases h
      rfl

theorem queue_pushAll (q : ProducerConsumerQueue T) (values : List T) :
    (values.foldl push q).queue = q.queue ++ values := by
  induction values generalizing q with
  | nil => simp
  | cons value values ih => simp [ih, push]

end ProducerConsumerQueue

end Mpool
