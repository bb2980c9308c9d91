import Mpool.Database.Operations
import Mpool.Database.ResultCursor
import Mpool.Database.TransactionTask

/-! How the result of an asynchronous query reaches its callback. The task of each operation
has the promise, the worker that executes it sets the value, whoever deletes it breaks a
promise that has none, and the caller's thread polls the futures in the passes of its
callback processor, in any interleaving of all of them. A callback may throw, or set a
next query, which then waits in its place. -/

namespace Mpool.Database

open Runs

/-- The classes under `SQLOperation`; `async` is `m_has_result`. -/
inductive AsyncTask where
  | basicStatement (async : Bool)
  | preparedStatement (async : Bool)
  | transaction
  | transactionWithResult
  | queryHolder
  | ping
  deriving DecidableEq

/-- What is given to `set_value`. -/
inductive TaskResult where
  | query (result : Option ResultSet)
  | preparedQuery (result : Option PreparedResultSet)
  | transaction (committed : Bool)
  | queryHolder

/-- What the connection gives to the `Execute` of a task: the answers to its text query, the
result of its statement, and what becomes of its transaction. -/
structure TaskReply where
  text : TextReply
  prepared : Option PreparedResultSet
  startMSTime : Nat
  attempts : List TransactionAttempt

/-- What the pool returns for a task with a promise, each with a processor of its own. -/
inductive CallbackType where
  | queryCallback
  | transactionCallback
  | queryHolderCallback
  deriving DecidableEq

namespace AsyncTask

/-- The kind of the future of an `AsyncQuery`. -/
def isPrepared : AsyncTask → Bool
  | preparedStatement _ => true
  | _ => false

def callbackType : AsyncTask → Option CallbackType
  | basicStatement async | preparedStatement async => if async then some .queryCallback else none
  | transactionWithResult => some .transactionCallback
  | queryHolder => some .queryHolderCallback
  | transaction | ping => none

/-- The value an attempt at a transaction sets, if it is the step that does so. -/
def setValueOf : TransactionStep → Option TaskResult
  | .setValue value => some (.transaction value)
  | _ => none

/-- The calls of `set_value` in `Execute`. -/
def setValues (reply : TaskReply) : AsyncTask → List TaskResult
  | basicStatement async => if async then [.query (poolQueryText reply.text)] else []
  | preparedStatement async =>
    if async then [.preparedQuery (reply.prepared.filter fun result => result.m_rowCount ≠ 0)]
    else []
  | transaction | ping => []
  | transactionWithResult =>
    (TransactionWithResultTask.execute reply.startMSTime reply.attempts).steps.filterMap setValueOf
  | queryHolder => [.queryHolder]

/-- `Execute` comes to an end. -/
def Returns (reply : TaskReply) : AsyncTask → Prop
  | transactionWithResult =>
    (TransactionWithResultTask.execute reply.startMSTime reply.attempts).result ≠ none
  | _ => True

end AsyncTask

/-- The state that a promise shares with its future. -/
inductive Promise (R : Type) where
  | pending
  | value (result : R)
  | broken

namespace Promise

variable {R : Type}

/-- `set_value`; `none` is `promise_already_satisfied`. -/
def setValue : Promise R → R → Option (Promise R)
  | pending, result => some (value result)
  | _, _ => none

/-- The destructor of the promise. -/
def destroy : Promise R → Promise R
  | pending => broken
  | p => p

end Promise

/-- `callbacks` are those of one processor, by their operations, `held` those that the
caller got and has not added, and `pass` what a pass has kept and has still to poll. A call
is made with the value of the future, or without one where the callback of a holder does not
ask for it. `dropped` are the callbacks that went with the vector of a pass that was left by
an exception, and `threw` those whose function threw one. -/
structure Delivery (n : Nat) where
  operations : Operations n
  promises : Nat → Promise TaskResult
  terminated : Bool
  held : List Nat
  callbacks : List Nat
  pass : Option (List Nat × List Nat)
  calls : List (Nat × Option TaskResult)
  dropped : List Nat
  threw : List Nat

/-- How the function of a callback ends. `SetNextQuery` is for a query of the same kind, with
another function registered for it. -/
inductive CallbackEnd where
  | returns
  | throws
  | setsNextQuery (next : Nat)

/-- `enqueue` is one of `AsyncQuery`, `AsyncCommitTransaction` and `DelayQueryHolder`, or
another call that enqueues an operation. -/
inductive DeliveryStep (n : Nat) where
  | enqueue
  | addCallback (o : Nat)
  | worker (i : OperationStep n)
  | beginPass
  | poll (e : CallbackEnd)
  | endPass

namespace Delivery

variable {n : Nat}

def start : Delivery n := ⟨.start, fun _ => .pending, false, [], [], none, [], [], []⟩

section step

-- The type of the callbacks of the processor, the task of each operation, in the order of
-- the pushes, and what it will get to see.
variable (T : CallbackType) (task : Nat → AsyncTask) (reply : Nat → TaskReply)

/-- What an event of an operation does to its promise. -/
def happens (d : Delivery n) : OperationEvent → Delivery n
  | .executed o =>
    match ((task o).setValues (reply o)).foldlM Promise.setValue (d.promises o) with
    | some p => { d with promises := Function.update d.promises o p }
    | none => { d with terminated := true }
  | .deleted o => { d with promises := Function.update d.promises o (d.promises o).destroy }

/-- `InvokeIfReady` of the callback of `o`: the call it makes, or whether `get` throws. -/
def invoke (d : Delivery n) (o : Nat) : Option (Except Unit (Nat × Option TaskResult)) :=
  match d.promises o with
  | .pending => none
  | .value result => some (.ok (o, some result))
  | .broken => some (if T = .queryHolderCallback then .ok (o, none) else .error ())

/-- The end of a call of `InvokeIfReady` for `o`, behind the function of the callback. -/
def complete (d : Delivery n) (kept : List Nat) (o : Nat) (rest : List Nat) :
    CallbackEnd → Delivery n
  | .returns => { d with pass := some (kept, rest) }
  | .throws =>
    { d with dropped := d.dropped ++ (kept ++ rest), threw := d.threw ++ [o], pass := none }
  | .setsNextQuery next =>
    { d with held := d.held.erase next, pass := some (kept ++ [next], rest) }

def poll (d : Delivery n) (e : CallbackEnd) : Delivery n :=
  match d.pass with
  | some (kept, o :: rest) =>
    match d.invoke T o with
    | none => { d with pass := some (kept ++ [o], rest) }
    | some (.ok call) => { d with calls := d.calls ++ [call] }.complete kept o rest e
    | some (.error _) => { d with dropped := d.dropped ++ (kept ++ o :: rest), pass := none }
  | _ => d

def step (d : Delivery n) : DeliveryStep n → Delivery n
  | .enqueue =>
    { d with
      operations := d.operations.step .push
      held := d.held ++
        if (task d.operations.count).callbackType = some T then [d.operations.count] else [] }
  | .addCallback o => { d with callbacks := d.callbacks ++ [o], held := d.held.erase o }
  | .worker i =>
    ((d.operations.step i).log.drop d.operations.log.length).foldl (happens task reply)
      { d with operations := d.operations.step i }
  | .beginPass =>
    match d.pass with
    | none =>
      if d.callbacks.isEmpty then d
      else { d with pass := some ([], d.callbacks), callbacks := [] }
    | some _ => d
  | .poll e => d.poll T e
  | .endPass =>
    match d.pass with
    | some (kept, []) => { d with callbacks := d.callbacks ++ kept, pass := none }
    | _ => d

/-- A worker does one of its own steps, and the caller uses a callback that it holds. The
next query is set by a `QueryCallback`, and it is of its kind. -/
def Enabled (d : Delivery n) : DeliveryStep n → Prop
  | .worker i => i ≠ .push ∧ d.operations.Enabled i
  | .addCallback o => o ∈ d.held
  | .poll (.setsNextQuery next) => next ∈ d.held ∧ T = .queryCallback ∧
    ∀ kept o rest, d.pass = some (kept, o :: rest) → (task next).isPrepared = (task o).isPrepared
  | _ => True

end step

end Delivery

/-! ## Promises -/

theorem Attempts.filterMap_setValueOf {committed : Bool} {steps : List TransactionStep}
    (h : Attempts committed steps) : steps.filterMap AsyncTask.setValueOf = [] := by
  induction h with
  | none => rfl
  | commit => rfl
  | fail errorCode h rest ih => exact ih

/-- An `Execute` that comes to an end has called `set_value` once, if it has a promise. -/
theorem AsyncTask.setValues_eq {task : AsyncTask} {reply : TaskReply} (h : task.Returns reply) :
    if task.callbackType = none then task.setValues reply = []
    else ∃ result, task.setValues reply = [result] := by
  cases task with
  | basicStatement async => cases async <;> simp [callbackType, setValues]
  | preparedStatement async => cases async <;> simp [callbackType, setValues]
  | transaction => simp [callbackType, setValues]
  | ping => simp [callbackType, setValues]
  | queryHolder => simp [callbackType, setValues]
  | transactionWithResult =>
    simp only [callbackType, reduceCtorEq, ↓reduceIte, setValues]
    simp only [Returns, TransactionWithResultTask.execute, executeTask] at h ⊢
    cases hattempts : reply.attempts with
    | nil => simp [hattempts] at h
    | cons attempt attempts =>
      simp only [hattempts] at h ⊢
      split
      · exact ⟨_, rfl⟩
      · rename_i hcode
        split
        · rename_i hdeadlock
          have hnone := (deadlockLoop_attempts reply.startMSTime 0 attempts).filterMap_setValueOf
          rw [if_neg hcode, if_pos hdeadlock] at h
          cases hloop : (deadlockLoop reply.startMSTime 0 attempts).result with
          | none =>
            rw [hloop] at h
            exact absurd rfl h
          | some committed =>
            refine ⟨.transaction committed, ?_⟩
            cases committed <;>
              simp [List.filterMap_cons, List.filterMap_append, hnone, setValueOf]
        · exact ⟨_, rfl⟩

namespace Delivery

variable {n : Nat} {T : CallbackType} {task : Nat → AsyncTask} {reply : Nat → TaskReply}

/-- The promise of an operation by what has happened to the operation. -/
def promiseOf (task : Nat → AsyncTask) (reply : Nat → TaskReply) (o : Nat) :
    List OperationEvent → Promise TaskResult
  | [] => .pending
  | .executed _ :: _ =>
    match (task o).setValues (reply o) with
    | [result] => .value result
    | _ => .pending
  | .deleted _ :: _ => .broken

/-- The four lives an operation can have. -/
def IsLife (o : Nat) (life : List OperationEvent) : Prop :=
  life = [] ∨ life = [.executed o] ∨ life = [.executed o, .deleted o] ∨ life = [.deleted o]

theorem IsLife.before {o : Nat} {life more : List OperationEvent} (h : IsLife o (life ++ more)) :
    IsLife o life := by
  rcases life with _ | ⟨a, _ | ⟨b, _ | ⟨c, life⟩⟩⟩ <;> simp [IsLife] at h ⊢ <;> grind

/-- The promises are where the lives of their operations have brought them. -/
structure Kept (task : Nat → AsyncTask) (reply : Nat → TaskReply) (d : Delivery n)
    (lives : Nat → List OperationEvent) : Prop where
  terminated : d.terminated = false
  promise : ∀ o, (task o).callbackType ≠ none → d.promises o = promiseOf task reply o (lives o)

variable (task reply) in
/-- The components an event leaves. -/
theorem happens_frame (d : Delivery n) (event : OperationEvent) :
    (d.happens task reply event).operations = d.operations ∧
      (d.happens task reply event).held = d.held ∧
      (d.happens task reply event).callbacks = d.callbacks ∧
      (d.happens task reply event).pass = d.pass ∧
      (d.happens task reply event).calls = d.calls ∧
      (d.happens task reply event).dropped = d.dropped ∧
      (d.happens task reply event).threw = d.threw := by
  cases event with
  | executed o =>
    simp only [happens]
    split <;> exact ⟨rfl, rfl, rfl, rfl, rfl, rfl, rfl⟩
  | deleted o => exact ⟨rfl, rfl, rfl, rfl, rfl, rfl, rfl⟩

variable (task reply) in
theorem foldl_happens_frame (events : List OperationEvent) (d : Delivery n) :
    (events.foldl (happens task reply) d).operations = d.operations ∧
      (events.foldl (happens task reply) d).held = d.held ∧
      (events.foldl (happens task reply) d).callbacks = d.callbacks ∧
      (events.foldl (happens task reply) d).pass = d.pass ∧
      (events.foldl (happens task reply) d).calls = d.calls ∧
      (events.foldl (happens task reply) d).dropped = d.dropped ∧
      (events.foldl (happens task reply) d).threw = d.threw := by
  induction events generalizing d with
  | nil => exact ⟨rfl, rfl, rfl, rfl, rfl, rfl, rfl⟩
  | cons event events ih =>
    obtain ⟨h1, h2, h3, h4, h5, h6, h7⟩ := happens_frame task reply d event
    obtain ⟨g1, g2, g3, g4, g5, g6, g7⟩ := ih (d.happens task reply event)
    exact ⟨g1.trans h1, g2.trans h2, g3.trans h3, g4.trans h4, g5.trans h5, g6.trans h6,
      g7.trans h7⟩

/-- One event, which goes on with the life of its operation. -/
theorem Kept.happens {d : Delivery n} {lives : Nat → List OperationEvent}
    (h : Kept task reply d lives) (hreturns : ∀ o, (task o).Returns (reply o))
    (event : OperationEvent)
    (hlife : IsLife event.operation (lives event.operation ++ [event])) :
    Kept task reply (d.happens task reply event) fun o =>
      lives o ++ if event.operation = o then [event] else [] := by
  have hother : ∀ o, o ≠ event.operation →
      (lives o ++ if event.operation = o then [event] else []) = lives o := by
    intro o ho
    rw [if_neg (Ne.symm ho), List.append_nil]
  cases event with
  | executed o =>
    have hempty : lives o = [] := by
      rcases hl : lives o with _ | ⟨a, _ | ⟨b, life⟩⟩ <;> simp_all [IsLife]
    have hset := AsyncTask.setValues_eq (hreturns o)
    by_cases hpromise : (task o).callbackType = none
    · rw [if_pos hpromise] at hset
      simp only [Delivery.happens, hset, List.foldlM_nil]
      refine ⟨h.terminated, fun p hp => ?_⟩
      have hne : p ≠ o := fun heq => hp (heq ▸ hpromise)
      rw [hother p hne]
      simp only [Option.pure_def, Function.update_eq_self]
      exact h.promise p hp
    · rw [if_neg hpromise] at hset
      obtain ⟨result, hset⟩ := hset
      have hpending : d.promises o = .pending := by
        rw [h.promise o hpromise, hempty, promiseOf]
      simp only [Delivery.happens, hset, List.foldlM_cons, List.foldlM_nil, hpending,
        Promise.setValue, Option.pure_def, Option.bind_eq_bind, Option.bind_some]
      refine ⟨h.terminated, fun p hp => ?_⟩
      by_cases hne : p = o
      · subst hne
        simp [hempty, promiseOf, hset]
      · rw [hother p hne]
        simp only [Function.update_of_ne hne]
        exact h.promise p hp
  | deleted o =>
    refine ⟨h.terminated, fun p hp => ?_⟩
    by_cases hne : p = o
    · subst hne
      have hset := AsyncTask.setValues_eq (hreturns p)
      rw [if_neg hp] at hset
      obtain ⟨result, hset⟩ := hset
      have hcase : lives p = [] ∨ lives p = [.executed p] := by
        rcases hl : lives p with _ | ⟨a, _ | ⟨b, life⟩⟩ <;> simp_all [IsLife]
      simp only [Delivery.happens, Function.update_self, h.promise p hp]
      rcases hcase with hl | hl <;> simp [hl, promiseOf, Promise.destroy, hset]
    · rw [hother p hne]
      simp only [Delivery.happens, Function.update_of_ne hne]
      exact h.promise p hp

theorem Kept.foldl_happens {d : Delivery n} {lives : Nat → List OperationEvent}
    (h : Kept task reply d lives) (hreturns : ∀ o, (task o).Returns (reply o))
    (events : List OperationEvent)
    (hlife : ∀ o, IsLife o (lives o ++ events.filter fun event => event.operation = o)) :
    Kept task reply (events.foldl (Delivery.happens task reply) d) fun o =>
      lives o ++ events.filter fun event => event.operation = o := by
  induction events generalizing d lives with
  | nil => simpa using h
  | cons event events ih =>
    have hsplit : ∀ o, lives o ++ (event :: events).filter (fun event => event.operation = o) =
        (lives o ++ if event.operation = o then [event] else []) ++
          events.filter fun event => event.operation = o := by
      intro o
      rw [List.append_assoc]
      by_cases ho : event.operation = o <;> simp [ho]
    simp only [hsplit] at hlife ⊢
    refine ih (h.happens hreturns event ?_) hlife
    have hfirst := (hlife event.operation).before
    rwa [if_pos rfl] at hfirst

/-! ## Callbacks -/

/-- The callbacks in the vector of the pass. -/
def polling (d : Delivery n) : List Nat :=
  match d.pass with
  | none => []
  | some (kept, rest) => kept ++ rest

/-- The call was made with the result of the operation, or, by a holder, for an operation that
was deleted and has none. -/
def Answered (T : CallbackType) (d : Delivery n) : Nat × Option TaskResult → Prop
  | (o, some result) => d.promises o = .value result
  | (o, none) => T = .queryHolderCallback ∧ d.promises o = .broken

/-- Every callback is at one place, once. -/
structure Tracked (T : CallbackType) (task : Nat → AsyncTask) (reply : Nat → TaskReply)
    (d : Delivery n) : Prop where
  accounted : d.operations.Accounted
  kept : Kept task reply d d.operations.life
  perm : (d.held ++ d.callbacks ++ d.polling ++ d.calls.map Prod.fst ++ d.dropped).Perm
    ((List.range d.operations.count).filter fun o => (task o).callbackType = some T)
  answered : ∀ call ∈ d.calls, d.Answered T call
  threw : ∀ o ∈ d.threw, o ∈ d.calls.map Prod.fst
  thrown : d.dropped ≠ [] → d.threw ≠ [] ∨
    T ≠ .queryHolderCallback ∧ ∃ o ∈ d.dropped, d.promises o = .broken

theorem tracked_start : Tracked T task reply (start : Delivery n) where
  accounted := .start
  kept := ⟨rfl, fun _ _ => rfl⟩
  perm := List.Perm.refl _
  answered _ h := by cases h
  threw _ h := by cases h
  thrown h := absurd rfl h

theorem Tracked.type {d : Delivery n} (h : Tracked T task reply d) {o : Nat}
    (ho : o ∈ d.held ++ d.callbacks ++ d.polling ++ d.calls.map Prod.fst ++ d.dropped) :
    o < d.operations.count ∧ (task o).callbackType = some T := by
  have hmem := h.perm.mem_iff.mp ho
  rw [List.mem_filter, List.mem_range] at hmem
  exact ⟨hmem.1, by simpa using hmem.2⟩

/-- A promise that is settled stays as it is. -/
theorem Kept.settled {d d' : Delivery n} {lives lives' : Nat → List OperationEvent}
    (h : Kept task reply d lives) (h' : Kept task reply d' lives') {o : Nat}
    (ho : (task o).callbackType ≠ none) {more : List OperationEvent}
    (hmore : lives' o = lives o ++ more) (hsettled : d.promises o ≠ .pending) :
    d'.promises o = d.promises o := by
  rw [h.promise o ho] at hsettled ⊢
  rw [h'.promise o ho, hmore]
  cases hl : lives o with
  | nil => exact absurd (by rw [hl, promiseOf]) hsettled
  | cons event life => cases event <;> rfl

theorem step_log {s : Operations n} {i : OperationStep n} (hi : i ≠ .push) :
    (s.step i).log = s.log ++ (s.step i).log.drop s.log.length ∧
      (s.step i).count = s.count := by
  have hsplit : ∀ events, s.log ++ events = s.log ++ (s.log ++ events).drop s.log.length := by
    intro events
    rw [List.drop_left]
  have hnone : s.log = s.log ++ s.log.drop s.log.length := by
    rw [List.drop_length, List.append_nil]
  cases i with
  | push => exact absurd rfl hi
  | _ =>
    simp only [Operations.step]
    split <;> (try split) <;> first
      | exact ⟨hsplit _, rfl⟩
      | exact ⟨hnone, rfl⟩

theorem Tracked.worker {d : Delivery n} (h : Tracked T task reply d)
    (hreturns : ∀ o, (task o).Returns (reply o)) {i : OperationStep n}
    (hi : i ≠ .push) :
    Tracked T task reply (d.step T task reply (.worker i)) := by
  obtain ⟨hlog, hcount⟩ := step_log (s := d.operations) hi
  let events := (d.operations.step i).log.drop d.operations.log.length
  have hlife : ∀ o, (d.operations.step i).life o =
      d.operations.life o ++ events.filter fun event => event.operation = o :=
    fun o => Operations.life_append _ _ events hlog o
  obtain ⟨hoperations, hheld, hcallbacks, hpass, hcalls, hdropped, hthrew⟩ :=
    foldl_happens_frame task reply events { d with operations := d.operations.step i }
  have haccounted := h.accounted.step i
  have hkept : Kept task reply (d.step T task reply (.worker i))
      (d.step T task reply (.worker i)).operations.life := by
    have hnow : (d.step T task reply (.worker i)).operations.life = fun o =>
        d.operations.life o ++ events.filter fun event => event.operation = o := by
      funext o
      simp only [step]
      rw [hoperations, hlife]
    rw [hnow]
    refine Kept.foldl_happens (d := { d with operations := d.operations.step i })
      ⟨h.kept.terminated, h.kept.promise⟩ hreturns events fun o => ?_
    rw [← hlife]
    exact haccounted.life o
  -- a promise that a call or an exception has used does not change
  have hsame : ∀ o ∈ d.calls.map Prod.fst ++ d.dropped, d.promises o ≠ .pending →
      (d.step T task reply (.worker i)).promises o = d.promises o := by
    intro o ho hsettled
    have htype := (h.type (o := o) (by
      rw [List.append_assoc _ (d.calls.map Prod.fst)]
      exact List.mem_append_right _ ho)).2
    have hmore : (d.step T task reply (.worker i)).operations.life o =
        d.operations.life o ++ events.filter fun event => event.operation = o := by
      simp only [step]
      rw [hoperations, hlife]
    exact h.kept.settled hkept (by rw [htype]; simp) hmore hsettled
  have hheld' : (d.step T task reply (.worker i)).held = d.held := hheld
  have hcallbacks' : (d.step T task reply (.worker i)).callbacks = d.callbacks := hcallbacks
  have hpass' : (d.step T task reply (.worker i)).pass = d.pass := hpass
  have hcalls' : (d.step T task reply (.worker i)).calls = d.calls := hcalls
  have hdropped' : (d.step T task reply (.worker i)).dropped = d.dropped := hdropped
  have hthrew' : (d.step T task reply (.worker i)).threw = d.threw := hthrew
  have hoperations' : (d.step T task reply (.worker i)).operations = d.operations.step i :=
    hoperations
  constructor
  · rw [hoperations']
    exact haccounted
  · exact hkept
  · rw [polling, hheld', hcallbacks', hpass', hcalls', hdropped', hoperations', hcount]
    exact h.perm
  · rw [hcalls']
    rintro ⟨o, answer⟩ hcall
    have hanswered := h.answered _ hcall
    have ho : o ∈ d.calls.map Prod.fst ++ d.dropped :=
      List.mem_append_left _ (List.mem_map.mpr ⟨_, hcall, rfl⟩)
    cases answer with
    | some result =>
      have hvalue : d.promises o = .value result := hanswered
      exact (hsame o ho (by rw [hvalue]; simp)).trans hvalue
    | none => exact ⟨hanswered.1, (hsame o ho (by rw [hanswered.2]; simp)).trans hanswered.2⟩
  · rw [hthrew', hcalls']
    exact h.threw
  · rw [hdropped', hthrew']
    intro hne
    rcases h.thrown hne with hthrew | ⟨hT, o, ho, hbroken⟩
    · exact .inl hthrew
    · exact .inr ⟨hT, o, ho, (hsame o (List.mem_append_right _ ho)
        (by rw [hbroken]; simp)).trans hbroken⟩

theorem Tracked.enqueue {d : Delivery n} (h : Tracked T task reply d) :
    Tracked T task reply (d.step T task reply .enqueue) := by
  refine ⟨h.accounted.step .push, ⟨h.kept.terminated, h.kept.promise⟩, ?_, h.answered, h.threw,
    h.thrown⟩
  have hperm := h.perm
  rw [List.perm_iff_count] at hperm ⊢
  intro a
  have ha := hperm a
  simp only [step, Operations.step, List.range_succ, List.filter_append, polling,
    List.count_append] at ha ⊢
  by_cases htype : (task d.operations.count).callbackType = some T
  · simp only [htype, ↓reduceIte, decide_true, List.filter_cons_of_pos, List.filter_nil]
    omega
  · simp only [htype, ↓reduceIte, decide_false, Bool.false_eq_true, not_false_eq_true,
      List.filter_cons_of_neg, List.filter_nil, List.count_nil]
    omega

/-- A callback leaves the caller. -/
theorem count_erase_held {d : Delivery n} {o : Nat} (ho : o ∈ d.held) (a : Nat) :
    (d.held.erase o).count a + [o].count a = d.held.count a := by
  rw [← List.count_append]
  exact (((List.perm_cons_erase ho).trans (List.perm_append_singleton o _).symm).count_eq a).symm

theorem Tracked.addCallback {d : Delivery n} (h : Tracked T task reply d) {o : Nat}
    (ho : o ∈ d.held) : Tracked T task reply (d.step T task reply (.addCallback o)) := by
  refine ⟨h.accounted, ⟨h.kept.terminated, h.kept.promise⟩, ?_, h.answered, h.threw, h.thrown⟩
  have hperm := h.perm
  rw [List.perm_iff_count] at hperm ⊢
  intro a
  have herase := count_erase_held ho a
  refine Eq.trans ?_ (hperm a)
  simp only [step, polling, List.count_append]
  omega

theorem Tracked.beginPass {d : Delivery n} (h : Tracked T task reply d) :
    Tracked T task reply (d.step T task reply .beginPass) := by
  simp only [step]
  split
  · rename_i hpass
    split
    · exact h
    · refine ⟨h.accounted, ⟨h.kept.terminated, h.kept.promise⟩, ?_, h.answered, h.threw,
        h.thrown⟩
      have hperm := h.perm
      simp only [polling, hpass] at hperm ⊢
      simpa using hperm
  · exact h

theorem Tracked.endPass {d : Delivery n} (h : Tracked T task reply d) :
    Tracked T task reply (d.step T task reply .endPass) := by
  simp only [step]
  split
  · rename_i kept hpass
    refine ⟨h.accounted, ⟨h.kept.terminated, h.kept.promise⟩, ?_, h.answered, h.threw, h.thrown⟩
    have hperm := h.perm
    simp only [polling, hpass] at hperm ⊢
    simpa using hperm
  · exact h

/-- What the function of the callback `o` is called with, and how it ends. -/
theorem Tracked.complete {d : Delivery n} (h : Tracked T task reply d) {kept : List Nat} {o : Nat}
    {rest : List Nat} (hpass : d.pass = some (kept, o :: rest)) {answer : Option TaskResult}
    (hanswered : d.Answered T (o, answer)) {e : CallbackEnd}
    (henabled : d.Enabled T task (.poll e)) :
    Tracked T task reply
      (({ d with calls := d.calls ++ [(o, answer)] } : Delivery n).complete kept o rest e) := by
  have hcalled : ∀ call ∈ d.calls ++ [(o, answer)], d.Answered T call := by
    intro call hcall
    rcases List.mem_append.mp hcall with hcall | hcall
    · exact h.answered call hcall
    · obtain rfl := List.mem_singleton.mp hcall
      exact hanswered
  have hthrew : ∀ p ∈ d.threw, p ∈ (d.calls ++ [(o, answer)]).map Prod.fst := by
    intro p hp
    rw [List.map_append]
    exact List.mem_append_left _ (h.threw p hp)
  have hperm := h.perm
  rw [List.perm_iff_count] at hperm
  simp only [polling, hpass, List.count_append, List.count_cons] at hperm
  cases e with
  | returns =>
    refine ⟨h.accounted, ⟨h.kept.terminated, h.kept.promise⟩, ?_, hcalled, hthrew, h.thrown⟩
    rw [List.perm_iff_count]
    intro a
    refine Eq.trans ?_ (hperm a)
    simp only [Delivery.complete, polling, List.count_append, List.map_append, List.map_cons,
      List.map_nil, List.count_singleton]
    omega
  | throws =>
    refine ⟨h.accounted, ⟨h.kept.terminated, h.kept.promise⟩, ?_, hcalled, ?_, ?_⟩
    · rw [List.perm_iff_count]
      intro a
      refine Eq.trans ?_ (hperm a)
      simp only [Delivery.complete, polling, List.count_append, List.map_append, List.map_cons,
        List.map_nil, List.count_singleton, List.count_nil]
      omega
    · intro p hp
      rcases List.mem_append.mp hp with hp | hp
      · exact hthrew p hp
      · obtain rfl := List.mem_singleton.mp hp
        simp [Delivery.complete]
    · exact fun _ => .inl (by simp [Delivery.complete])
  | setsNextQuery next =>
    refine ⟨h.accounted, ⟨h.kept.terminated, h.kept.promise⟩, ?_, hcalled, hthrew, h.thrown⟩
    rw [List.perm_iff_count]
    intro a
    have herase := count_erase_held henabled.1 a
    refine Eq.trans ?_ (hperm a)
    simp only [Delivery.complete, polling, List.count_append, List.map_append, List.map_cons,
      List.map_nil, List.count_singleton] at herase ⊢
    omega

theorem Tracked.poll {d : Delivery n} (h : Tracked T task reply d) {e : CallbackEnd}
    (henabled : d.Enabled T task (.poll e)) :
    Tracked T task reply (d.step T task reply (.poll e)) := by
  simp only [step, Delivery.poll]
  split
  · rename_i kept o rest hpass
    have hperm := h.perm
    rw [List.perm_iff_count] at hperm
    simp only [polling, hpass, List.count_append, List.count_cons] at hperm
    cases hpromise : d.promises o with
    | pending =>
      simp only [invoke, hpromise]
      refine ⟨h.accounted, ⟨h.kept.terminated, h.kept.promise⟩, ?_, h.answered, h.threw, h.thrown⟩
      rw [List.perm_iff_count]
      intro a
      refine Eq.trans ?_ (hperm a)
      simp only [polling, List.count_append, List.count_singleton]
      omega
    | value result =>
      have hanswered : d.Answered T (o, some result) := hpromise
      simp only [invoke, hpromise]
      exact h.complete hpass hanswered henabled
    | broken =>
      by_cases hT : T = .queryHolderCallback
      · have hanswered : d.Answered T (o, none) := ⟨hT, hpromise⟩
        simp only [invoke, hpromise, if_pos hT]
        exact h.complete hpass hanswered henabled
      · simp only [invoke, hpromise, if_neg hT]
        refine ⟨h.accounted, ⟨h.kept.terminated, h.kept.promise⟩, ?_, h.answered, h.threw, ?_⟩
        · rw [List.perm_iff_count]
          intro a
          refine Eq.trans ?_ (hperm a)
          simp only [polling, List.count_append, List.count_cons, List.count_nil]
          omega
        · exact fun _ => .inr ⟨hT, o, by simp, hpromise⟩
  · exact h

theorem Tracked.step {d : Delivery n} (h : Tracked T task reply d)
    (hreturns : ∀ o, (task o).Returns (reply o)) {i : DeliveryStep n}
    (henabled : d.Enabled T task i) : Tracked T task reply (d.step T task reply i) := by
  cases i with
  | enqueue => exact h.enqueue
  | addCallback o => exact h.addCallback henabled
  | worker i => exact h.worker hreturns henabled.1
  | beginPass => exact h.beginPass
  | poll e => exact h.poll henabled
  | endPass => exact h.endPass

theorem tracked_run (hreturns : ∀ o, (task o).Returns (reply o)) {steps : List (DeliveryStep n)}
    (henabled : Along (step T task reply) (Enabled T task) start steps) :
    Tracked T task reply (run (step T task reply) start steps) :=
  run_of_along (fun _ _ h hi => h.step hreturns hi) tracked_start henabled

/-- Where the promise stands tells what has happened to the operation. -/
theorem Tracked.of_value {d : Delivery n} (h : Tracked T task reply d)
    (hreturns : ∀ o, (task o).Returns (reply o)) {o : Nat} {result : TaskResult}
    (ho : (task o).callbackType ≠ none) (hvalue : d.promises o = .value result) :
    (task o).setValues (reply o) = [result] ∧ .executed o ∈ d.operations.log := by
  rw [h.kept.promise o ho] at hvalue
  have hset := AsyncTask.setValues_eq (hreturns o)
  rw [if_neg ho] at hset
  obtain ⟨result', hset⟩ := hset
  have hexecuted : OperationEvent.executed o ∈ d.operations.life o := by
    rcases h.accounted.life o with hl | hl | hl | hl <;> simp [hl, promiseOf] at hvalue ⊢
  refine ⟨?_, (List.mem_filter.mp hexecuted).1⟩
  rcases h.accounted.life o with hl | hl | hl | hl <;> simp [hl, promiseOf, hset] at hvalue
  · rw [hset, hvalue]
  · rw [hset, hvalue]

theorem Tracked.of_broken {d : Delivery n} (h : Tracked T task reply d)
    (hreturns : ∀ o, (task o).Returns (reply o)) {o : Nat}
    (ho : (task o).callbackType ≠ none) (hbroken : d.promises o = .broken) :
    d.operations.life o = [.deleted o] := by
  rw [h.kept.promise o ho] at hbroken
  have hset := AsyncTask.setValues_eq (hreturns o)
  rw [if_neg ho] at hset
  obtain ⟨result, hset⟩ := hset
  rcases h.accounted.life o with hl | hl | hl | hl <;> simp [hl, promiseOf, hset] at hbroken ⊢

/-- A text query that finds nothing. -/
def noRows : TaskReply := ⟨⟨true, true, 0, 1, []⟩, none, 0, []⟩

theorem returns_noRows (_ : Nat) : AsyncTask.Returns noRows (.basicStatement true) := trivial

/-- One worker executes the first of two queries, and the callback for it sets the second as
its next query. -/
def chainedQuery : List (DeliveryStep 1) :=
  [.enqueue, .addCallback 0, .enqueue, .worker (.waitAndPop 0), .worker (.test 0),
    .worker (.execute 0), .beginPass, .poll (.setsNextQuery 1), .endPass]

theorem enabled_chainedQuery :
    Along (step .queryCallback (fun _ => .basicStatement true) fun _ => noRows)
      (Enabled .queryCallback fun _ => .basicStatement true) start chainedQuery :=
  ⟨trivial, List.mem_singleton_self 0, trivial, ⟨nofun, rfl, Option.some_ne_none _⟩,
    ⟨nofun, some 0, rfl⟩, ⟨nofun, 0, rfl⟩, trivial,
    ⟨List.mem_singleton_self 1, rfl, fun _ _ _ _ => rfl⟩, trivial, trivial⟩

/-- The steps of the workers and producers in a run. -/
def operationSteps : DeliveryStep n → List (OperationStep n)
  | .enqueue => [.push]
  | .worker i => [i]
  | _ => []

theorem step_operations (d : Delivery n) (i : DeliveryStep n) :
    (d.step T task reply i).operations = run Operations.step d.operations (operationSteps i) := by
  cases i with
  | enqueue => rfl
  | addCallback o => rfl
  | worker i =>
    simp only [step]
    rw [(foldl_happens_frame _ _ _ _).1]
    rfl
  | beginPass =>
    simp only [step]
    split
    · split <;> rfl
    · rfl
  | poll e =>
    simp only [step, poll]
    split
    · split
      · rfl
      · cases e <;> rfl
      · rfl
    · rfl
  | endPass =>
    simp only [step]
    split <;> rfl

/-- A run of the whole is a run of the workers. -/
theorem run_operations {d : Delivery n} {steps : List (DeliveryStep n)}
    (henabled : Along (step T task reply) (Enabled T task) d steps) :
    (run (step T task reply) d steps).operations =
        run Operations.step d.operations (steps.flatMap operationSteps) ∧
      Along Operations.step Operations.Enabled d.operations (steps.flatMap operationSteps) := by
  induction steps generalizing d with
  | nil => exact ⟨rfl, trivial⟩
  | cons i steps ih =>
    obtain ⟨hrun, halong⟩ := ih henabled.2
    rw [step_operations] at hrun halong
    refine ⟨by rw [run_cons, hrun, List.flatMap_cons, run_append], ?_⟩
    rw [List.flatMap_cons, along_append]
    refine ⟨?_, halong⟩
    cases i with
    | enqueue => exact ⟨trivial, trivial⟩
    | worker i => exact ⟨henabled.1.2, trivial⟩
    | _ => trivial

/-- The callback whose `get` throws. -/
def Throws (T : CallbackType) (d : Delivery n) (o : Nat) : Bool :=
  match d.promises o with
  | .broken => T ≠ .queryHolderCallback
  | _ => false

/-- What the callback is called with when it is polled. -/
def answer (d : Delivery n) (o : Nat) : Nat × Option TaskResult :=
  match d.promises o with
  | .value result => (o, some result)
  | _ => (o, none)

/-- Polls behind an exception, and the end of the pass, change nothing. -/
theorem run_idle {d : Delivery n} (hpass : d.pass = none) (m : Nat) :
    run (step T task reply) d (List.replicate m (.poll .returns) ++ [.endPass]) = d := by
  induction m with
  | zero => simp [step, hpass]
  | succ m ih => simpa [List.replicate_succ, step, poll, hpass] using ih

/-- The polls of a pass when all futures are ready. -/
theorem run_polls (rest : List Nat) {d : Delivery n} (hpass : d.pass = some ([], rest))
    (hready : ∀ o ∈ rest, d.promises o ≠ .pending) :
    run (step T task reply) d (List.replicate rest.length (.poll .returns) ++ [.endPass]) =
      { d with
        pass := none
        calls := d.calls ++ (rest.takeWhile fun o => !d.Throws T o).map d.answer
        dropped := d.dropped ++ rest.dropWhile fun o => !d.Throws T o } := by
  induction rest generalizing d with
  | nil => simp [step, hpass]
  | cons o rest ih =>
    rw [List.length_cons, List.replicate_succ, List.cons_append, run_cons]
    have hcall : d.Throws T o = false → d.invoke T o = some (.ok (d.answer o)) := by
      intro hthrows
      have ho := hready o List.mem_cons_self
      simp only [Throws] at hthrows
      simp only [invoke, answer]
      cases hpromise : d.promises o with
      | pending => exact absurd hpromise ho
      | value result => rfl
      | broken =>
        simp only [hpromise, decide_eq_false_iff_not, ne_eq, not_not] at hthrows
        simp only [hthrows, ↓reduceIte]
    cases hthrows : d.Throws T o with
    | false =>
      simp only [step, poll, hpass, hcall hthrows, complete]
      rw [@ih { d with calls := d.calls ++ [d.answer o], pass := some ([], rest) } rfl
        fun o ho => hready o (List.mem_cons_of_mem _ ho)]
      have hsame : ∀ calls, ({ d with calls := calls, pass := some ([], rest) } :
          Delivery n).Throws T = d.Throws T := fun _ => rfl
      have hanswer : ∀ calls, ({ d with calls := calls, pass := some ([], rest) } :
          Delivery n).answer = d.answer := fun _ => rfl
      simp [hsame, hanswer, hthrows]
    | true =>
      have hinvoke : d.invoke T o = some (.error ()) := by
        simp only [Throws] at hthrows
        simp only [invoke]
        split at hthrows
        · rename_i hpromise
          simp only [ne_eq, decide_not, Bool.not_eq_true', decide_eq_false_iff_not] at hthrows
          simp only [hpromise, hthrows, ↓reduceIte]
        · cases hthrows
      simp only [step, poll, hpass, hinvoke, List.nil_append]
      rw [@run_idle _ _ _ _ { d with dropped := d.dropped ++ o :: rest, pass := none } rfl]
      simp [hthrows]

/-- A whole pass when all futures are ready. -/
theorem run_pass {d : Delivery n} (hpass : d.pass = none)
    (hready : ∀ o ∈ d.callbacks, d.promises o ≠ .pending) :
    run (step T task reply) d
        (.beginPass :: (List.replicate d.callbacks.length (.poll .returns) ++ [.endPass])) =
      { d with
        callbacks := []
        calls := d.calls ++ (d.callbacks.takeWhile fun o => !d.Throws T o).map d.answer
        dropped := d.dropped ++ d.callbacks.dropWhile fun o => !d.Throws T o } := by
  rw [run_cons]
  by_cases hempty : d.callbacks = []
  · have hbegin : d.step T task reply .beginPass = d := by simp [step, hpass, hempty]
    rw [hbegin, run_idle hpass]
    obtain ⟨operations, promises, terminated, held, callbacks, pass, calls, dropped, threw⟩ := d
    simp only at hempty
    simp [hempty]
  · have hbegin : d.step T task reply .beginPass =
        { d with pass := some ([], d.callbacks), callbacks := [] } := by
      simp [step, hpass, hempty]
    rw [hbegin, @run_polls _ _ _ _ d.callbacks
      { d with pass := some ([], d.callbacks), callbacks := [] } rfl hready, ← hpass]
    rfl

/-- All workers are joined, no thread forgot what it had and no push came after the last
`Cancel`. Then one pass whose functions return is enough: it calls the callbacks up to the
first whose query was cancelled, in their order, and drops the others; nothing is left
waiting. -/
theorem closed_pool_resolves (hreturns : ∀ o, (task o).Returns (reply o))
    {steps : List (DeliveryStep n)}
    (henabled : Along (step T task reply) (Enabled T task) start steps)
    (hjoined : (run (step T task reply) start steps).operations.AllJoined)
    (hkept : Along Operations.step (fun s i => ¬ Operations.Forgets s i) Operations.start
      (steps.flatMap operationSteps))
    (hcancelled : Operations.PushesCancelled (steps.flatMap operationSteps))
    (hpass : (run (step T task reply) start steps).pass = none) :
    let d := run (step T task reply) start steps
    let d' := run (step T task reply) d
      (.beginPass :: (List.replicate d.callbacks.length (.poll .returns) ++ [.endPass]))
    d'.callbacks = [] ∧ d'.pass = none ∧
      d'.calls = d.calls ++ (d.callbacks.takeWhile fun o => !d.Throws T o).map d.answer ∧
      d'.dropped = d.dropped ++ d.callbacks.dropWhile fun o => !d.Throws T o := by
  intro d d'
  have h : Tracked T task reply d := tracked_run hreturns henabled
  obtain ⟨hrun, hoperations⟩ := run_operations henabled
  have hsettled : ∀ o < d.operations.count, d.operations.Settled o := by
    have hjoined' := hjoined
    rw [hrun] at hjoined'
    have hall := (Operations.settled_iff hoperations hjoined').mpr ⟨hkept, hcancelled⟩
    intro o ho
    have ho' : o < (run (step T task reply) start steps).operations.count := ho
    rw [hrun] at ho'
    have hdone := hall o ho'
    change (run (step T task reply) start steps).operations.Settled o
    rw [hrun]
    exact hdone
  have hready : ∀ o ∈ d.callbacks, d.promises o ≠ .pending := by
    intro o ho
    obtain ⟨hlt, htype⟩ := h.type (List.mem_append_left _ (List.mem_append_left _
      (List.mem_append_left _ (List.mem_append_right _ ho))))
    have hpromise : (task o).callbackType ≠ none := by
      rw [htype]
      simp
    have hset := AsyncTask.setValues_eq (hreturns o)
    rw [if_neg hpromise] at hset
    obtain ⟨result, hset⟩ := hset
    rw [h.kept.promise o hpromise]
    rcases hsettled o hlt with hl | hl <;> simp [hl, promiseOf, hset]
  have hd' : d' = { d with
      callbacks := []
      calls := d.calls ++ (d.callbacks.takeWhile fun o => !d.Throws T o).map d.answer
      dropped := d.dropped ++ d.callbacks.dropWhile fun o => !d.Throws T o } :=
    run_pass hpass hready
  rw [hd']
  exact ⟨rfl, hpass, rfl, rfl⟩

/-- Two queries for one worker, which is destroyed behind the first. -/
def twoQueries : List (DeliveryStep 1) :=
  [.enqueue, .addCallback 0, .enqueue, .addCallback 1, .worker (.waitAndPop 0),
    .worker (.test 0), .worker (.execute 0), .worker (.delete 0), .worker (.setToken 0),
    .worker (.cancel 0), .worker (.waitAndPop 0), .worker (.test 0), .worker (.join 0)]

theorem enabled_twoQueries :
    Along (step .queryCallback (fun _ => .basicStatement true) fun _ => noRows)
      (Enabled .queryCallback fun _ => .basicStatement true) start twoQueries :=
  ⟨trivial, List.mem_singleton_self 0, trivial, List.mem_singleton_self 1,
    ⟨nofun, rfl, Option.some_ne_none _⟩, ⟨nofun, some 0, rfl⟩, ⟨nofun, 0, rfl⟩, ⟨nofun, 0, rfl⟩,
    ⟨nofun, rfl⟩, ⟨nofun, rfl⟩, ⟨nofun, rfl, Option.some_ne_none _⟩, ⟨nofun, none, rfl⟩,
    ⟨nofun, rfl, rfl⟩, trivial⟩

theorem operationSteps_twoQueries : twoQueries.flatMap operationSteps =
    [.push, .push, .waitAndPop 0, .test 0, .execute 0, .delete 0, .setToken 0, .cancel 0,
      .waitAndPop 0, .test 0, .join 0] := rfl

/-- The callback of the first query is called, and the second is dropped by the pass. -/
theorem closed_pool_resolves_two :
    let step := step (n := 1) .queryCallback (fun _ => .basicStatement true) fun _ => noRows
    let d := run step (run step start twoQueries)
      (.beginPass :: (List.replicate 2 (.poll .returns) ++ [.endPass]))
    d.callbacks = [] ∧ d.calls.map Prod.fst = [0] ∧ d.dropped = [1] := by
  intro step d
  have hjoined : (run step start twoQueries).operations.AllJoined := by
    intro k
    obtain rfl : k = 0 := Subsingleton.elim k 0
    rw [(run_operations enabled_twoQueries).1, operationSteps_twoQueries]
    rfl
  have hkept : Along Operations.step (fun s i => ¬ Operations.Forgets s i) Operations.start
      (twoQueries.flatMap operationSteps) := by
    rw [operationSteps_twoQueries]
    simp only [Along, Operations.Forgets, not_false_eq_true, true_and, and_true]
    constructor
    · rintro ⟨htoken, -⟩
      cases htoken
    · rintro ⟨-, o, ho⟩
      cases ho
  have hcancelled : Operations.PushesCancelled (twoQueries.flatMap operationSteps) := by
    rw [operationSteps_twoQueries]
    exact ⟨⟨0, by simp⟩, ⟨0, by simp⟩, trivial⟩
  obtain ⟨hcallbacks, -, hcalls, hdropped⟩ :=
    closed_pool_resolves returns_noRows enabled_twoQueries hjoined hkept hcancelled rfl
  refine ⟨hcallbacks, ?_, hdropped⟩
  exact congrArg (List.map Prod.fst) hcalls

end Delivery

end Mpool.Database
