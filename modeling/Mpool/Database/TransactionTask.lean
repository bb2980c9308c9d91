import Mpool.Common.Timer
import Mpool.Database.MySQLConnection

/-! `Transaction.cpp` and `DirectCommitTransaction`: the three loops around
`ExecuteTransaction`. What an attempt returns and what the clock shows behind it
are given from outside; a call whose attempts are used up has not returned. -/

namespace Mpool.Database

open Timer (GetMSTimeDiff)

def ER_LOCK_DEADLOCK : Nat := 1213

/-- `1min`, in milliseconds. -/
def DEADLOCK_MAX_RETRY_TIME_MS : Nat := 60000

/-- One call of `ExecuteTransaction`: what it returns, and `GetTimeMS()` behind it. -/
structure TransactionAttempt where
  errorCode : Int
  timeMS : Nat

/-- What the callers of `ExecuteTransaction` do. -/
inductive TransactionStep where
  | getFreeConnection
  | attempt (errorCode : Int)
  | cleanup
  | setValue (value : Bool)
  | unlock
  deriving DecidableEq

/-- The steps so far, and the result once there is one. -/
structure Progress (R : Type) where
  steps : List TransactionStep
  result : Option R

/-- The loop under `_deadlockLock`: `true` when an attempt succeeds. -/
def deadlockLoop (startMSTime loopDuration : Nat) (attempts : List TransactionAttempt) :
    Progress Bool :=
  if DEADLOCK_MAX_RETRY_TIME_MS < loopDuration then ⟨[], some false⟩
  else match attempts with
    | [] => ⟨[], none⟩
    | attempt :: attempts =>
      if attempt.errorCode = 0 then ⟨[.attempt 0], some true⟩
      else
        let rest := deadlockLoop startMSTime (GetMSTimeDiff startMSTime attempt.timeMS) attempts
        ⟨.attempt attempt.errorCode :: rest.steps, rest.result⟩
termination_by structural attempts

/-- `Execute` of both tasks, with what they do when the transaction is committed
and when they give up. -/
def executeTask (onSuccess onFailure : List TransactionStep) (startMSTime : Nat) :
    List TransactionAttempt → Progress Bool
  | [] => ⟨[], none⟩
  | attempt :: attempts =>
    if attempt.errorCode = 0 then ⟨.attempt 0 :: onSuccess, some true⟩
    else if attempt.errorCode = ER_LOCK_DEADLOCK then
      let loop := deadlockLoop startMSTime 0 attempts
      let steps := .attempt attempt.errorCode :: loop.steps
      match loop.result with
      | none => ⟨steps, none⟩
      | some true => ⟨steps ++ onSuccess, some true⟩
      | some false => ⟨steps ++ onFailure, some false⟩
    else ⟨.attempt attempt.errorCode :: onFailure, some false⟩

def TransactionTask.execute : Nat → List TransactionAttempt → Progress Bool :=
  executeTask [] [.cleanup]

def TransactionWithResultTask.execute : Nat → List TransactionAttempt → Progress Bool :=
  executeTask [.setValue true] [.cleanup, .setValue false]

/-- The counted loop of `DirectCommitTransaction`. -/
def loopBreaker : Nat → List TransactionAttempt → Progress Unit
  | 0, _ => ⟨[], some ()⟩
  | _ + 1, [] => ⟨[], none⟩
  | left + 1, attempt :: attempts =>
    if attempt.errorCode = 0 then ⟨[.attempt 0], some ()⟩
    else
      let rest := loopBreaker left attempts
      ⟨.attempt attempt.errorCode :: rest.steps, rest.result⟩

def directCommitTransaction : List TransactionAttempt → Progress Unit
  | [] => ⟨[.getFreeConnection], none⟩
  | attempt :: attempts =>
    if attempt.errorCode = 0 then ⟨[.getFreeConnection, .attempt 0, .unlock], some ()⟩
    else if attempt.errorCode = ER_LOCK_DEADLOCK then
      let loop := loopBreaker 5 attempts
      let steps := .getFreeConnection :: .attempt attempt.errorCode :: loop.steps
      match loop.result with
      | none => ⟨steps, none⟩
      | some () => ⟨steps ++ [.cleanup, .unlock], some ()⟩
    else
      ⟨[.getFreeConnection, .attempt attempt.errorCode, .cleanup, .unlock], some ()⟩

def TransactionStep.isAttempt : TransactionStep → Bool
  | .attempt _ => true
  | _ => false

/-- The codes of the attempts, in order. -/
def attemptCodes (steps : List TransactionStep) : List Int :=
  steps.filterMap fun
    | .attempt errorCode => some errorCode
    | _ => none

/-! ## What the loops leave -/

/-- Attempts that fail, and one that commits behind them where `committed`. -/
inductive Attempts : (committed : Bool) → List TransactionStep → Prop where
  | none : Attempts false []
  | commit : Attempts true [.attempt 0]
  | fail {committed : Bool} {steps : List TransactionStep} (errorCode : Int)
      (h : errorCode ≠ 0) (rest : Attempts committed steps) :
      Attempts committed (.attempt errorCode :: steps)

theorem deadlockLoop_attempts (startMSTime loopDuration : Nat)
    (attempts : List TransactionAttempt) :
    Attempts ((deadlockLoop startMSTime loopDuration attempts).result = some true)
      (deadlockLoop startMSTime loopDuration attempts).steps := by
  induction attempts generalizing loopDuration with
  | nil =>
    unfold deadlockLoop
    split
    · exact .none
    · exact .none
  | cons attempt attempts ih =>
    unfold deadlockLoop
    dsimp only
    split
    · exact .none
    · split
      · exact .commit
      · rename_i h
        exact .fail _ h (ih _)

theorem loopBreaker_attempts (left : Nat) (attempts : List TransactionAttempt) :
    ∃ committed, Attempts committed (loopBreaker left attempts).steps := by
  induction left generalizing attempts with
  | zero => exact ⟨false, .none⟩
  | succ left ih =>
    cases attempts with
    | nil => exact ⟨false, .none⟩
    | cons attempt attempts =>
      simp only [loopBreaker]
      split
      · exact ⟨true, .commit⟩
      · rename_i h
        obtain ⟨committed, hrest⟩ := ih attempts
        exact ⟨committed, .fail _ h hrest⟩

theorem loopBreaker_length (left : Nat) (attempts : List TransactionAttempt) :
    (loopBreaker left attempts).steps.length ≤ left := by
  induction left generalizing attempts with
  | zero => exact Nat.le_refl 0
  | succ left ih =>
    cases attempts with
    | nil => exact Nat.zero_le _
    | cons attempt attempts =>
      simp only [loopBreaker]
      split
      · exact Nat.succ_le_succ (Nat.zero_le _)
      · exact Nat.succ_le_succ (ih attempts)

/-! ## At most one commit -/

/-- The steps of one call commit at most once, and make no attempt behind it. -/
structure CommitsOnce (steps : List TransactionStep) : Prop where
  once : steps.count (.attempt 0) ≤ 1
  last : ∀ before after, steps = before ++ .attempt 0 :: after →
    ∀ errorCode, .attempt errorCode ∉ after

theorem CommitsOnce.cons {step : TransactionStep} {steps : List TransactionStep}
    (h : CommitsOnce steps) (hstep : step ≠ .attempt 0) : CommitsOnce (step :: steps) where
  once := by
    rw [List.count_cons_of_ne hstep]
    exact h.once
  last before after hsplit := by
    cases before with
    | nil => exact absurd (List.cons.inj hsplit).1 hstep
    | cons first before => exact h.last before after (List.cons.inj hsplit).2

theorem CommitsOnce.of_quiet {steps : List TransactionStep}
    (h : ∀ errorCode, .attempt errorCode ∉ steps) : CommitsOnce steps where
  once := by simp [List.count_eq_zero_of_not_mem (h 0)]
  last before after hsplit := absurd (by simp [hsplit]) (h 0)

theorem CommitsOnce.commit {steps : List TransactionStep}
    (h : ∀ errorCode, .attempt errorCode ∉ steps) : CommitsOnce (.attempt 0 :: steps) where
  once := by simp [List.count_eq_zero_of_not_mem (h 0)]
  last before after hsplit := by
    cases before with
    | nil =>
      obtain rfl := (List.cons.inj hsplit).2
      exact h
    | cons first before =>
      have htail := (List.cons.inj hsplit).2
      exact absurd (by simp [htail]) (h 0)

/-- Attempts, and what is done behind them. -/
theorem Attempts.commitsOnce {committed : Bool} {steps : List TransactionStep}
    (h : Attempts committed steps) {tail : List TransactionStep}
    (ht : ∀ errorCode, .attempt errorCode ∉ tail) : CommitsOnce (steps ++ tail) := by
  induction h with
  | none => exact .of_quiet ht
  | commit => exact .commit ht
  | fail errorCode hne rest ih => exact ih.cons (by simpa using hne)

theorem Attempts.committed_iff {committed : Bool} {steps : List TransactionStep}
    (h : Attempts committed steps) : .attempt 0 ∈ steps ↔ committed = true := by
  induction h with
  | none => simp
  | commit => simp
  | fail errorCode hne rest ih => simp [ih, Ne.symm hne]

/-- Nothing but attempts. -/
theorem Attempts.mem {committed : Bool} {steps : List TransactionStep}
    (h : Attempts committed steps) {step : TransactionStep} (hmem : step ∈ steps) :
    ∃ errorCode, step = .attempt errorCode := by
  induction h with
  | none => cases hmem
  | commit => exact ⟨0, by simpa using hmem⟩
  | fail errorCode hne rest ih =>
    rcases List.mem_cons.mp hmem with rfl | hmem
    · exact ⟨errorCode, rfl⟩
    · exact ih hmem

theorem Attempts.count_eq_zero {committed : Bool} {steps : List TransactionStep}
    (h : Attempts committed steps) {step : TransactionStep}
    (hstep : ∀ errorCode, step ≠ .attempt errorCode) : steps.count step = 0 := by
  rw [List.count_eq_zero]
  intro hmem
  obtain ⟨errorCode, rfl⟩ := h.mem hmem
  exact hstep errorCode rfl

/-! ## The tasks -/

/-- The course of a task: attempts, and then what it does when it is committed or
gives up. -/
theorem executeTask_attempts (onSuccess onFailure : List TransactionStep) (startMSTime : Nat)
    (attempts : List TransactionAttempt) :
    ∃ steps, Attempts ((executeTask onSuccess onFailure startMSTime attempts).result = some true)
        steps ∧
      (executeTask onSuccess onFailure startMSTime attempts).steps = steps ++
        match (executeTask onSuccess onFailure startMSTime attempts).result with
        | none => []
        | some true => onSuccess
        | some false => onFailure := by
  cases attempts with
  | nil => exact ⟨[], .none, rfl⟩
  | cons attempt attempts =>
    simp only [executeTask]
    split
    · exact ⟨[.attempt 0], .commit, rfl⟩
    · rename_i hcode
      split
      · have hloop := deadlockLoop_attempts startMSTime 0 attempts
        refine ⟨.attempt attempt.errorCode :: (deadlockLoop startMSTime 0 attempts).steps, ?_, ?_⟩
        · split
          all_goals
            rename_i hresult
            rw [hresult] at hloop
            exact .fail _ hcode hloop
        · cases (deadlockLoop startMSTime 0 attempts).result with
          | none => simp
          | some result => cases result <;> rfl
      · exact ⟨[.attempt attempt.errorCode], .fail _ hcode .none, rfl⟩

/-- Both tasks commit at most once, and their result says whether they did. -/
theorem executeTask_commitsOnce (onSuccess onFailure : List TransactionStep)
    (hs : ∀ errorCode, .attempt errorCode ∉ onSuccess)
    (hf : ∀ errorCode, .attempt errorCode ∉ onFailure) (startMSTime : Nat)
    (attempts : List TransactionAttempt) :
    CommitsOnce (executeTask onSuccess onFailure startMSTime attempts).steps ∧
      ((executeTask onSuccess onFailure startMSTime attempts).result = some true ↔
        .attempt 0 ∈ (executeTask onSuccess onFailure startMSTime attempts).steps) := by
  obtain ⟨steps, hsteps, hcourse⟩ :=
    executeTask_attempts onSuccess onFailure startMSTime attempts
  have hcommitted := hsteps.committed_iff
  rw [hcourse]
  generalize (executeTask onSuccess onFailure startMSTime attempts).result = result at *
  cases result with
  | none => exact ⟨hsteps.commitsOnce (by simp), by simpa using hcommitted.symm⟩
  | some committed =>
    cases committed with
    | true => exact ⟨hsteps.commitsOnce hs, by simpa [hs 0] using hcommitted⟩
    | false => exact ⟨hsteps.commitsOnce hf, by simpa [hf 0] using hcommitted⟩

/-- A step that is no attempt is made only behind the last one. -/
theorem mem_executeTask {onSuccess onFailure : List TransactionStep} {startMSTime : Nat}
    {attempts : List TransactionAttempt} {step : TransactionStep}
    (hstep : ∀ errorCode, step ≠ .attempt errorCode) :
    step ∈ (executeTask onSuccess onFailure startMSTime attempts).steps ↔
      step ∈ match (executeTask onSuccess onFailure startMSTime attempts).result with
        | none => []
        | some true => onSuccess
        | some false => onFailure := by
  obtain ⟨steps, hsteps, hcourse⟩ :=
    executeTask_attempts onSuccess onFailure startMSTime attempts
  have hnot : step ∉ steps := List.count_eq_zero.mp (hsteps.count_eq_zero hstep)
  rw [hcourse]
  simp [hnot]

/-- The values a promise is set to. -/
def setValues (steps : List TransactionStep) : List Bool :=
  steps.filterMap fun
    | .setValue value => some value
    | _ => none

theorem Attempts.setValues {committed : Bool} {steps : List TransactionStep}
    (h : Attempts committed steps) : setValues steps = [] := by
  rw [Database.setValues, List.filterMap_eq_nil_iff]
  intro step hmem
  obtain ⟨errorCode, rfl⟩ := h.mem hmem
  rfl

theorem TransactionTask.cleanup_iff (startMSTime : Nat) (attempts : List TransactionAttempt) :
    .cleanup ∈ (TransactionTask.execute startMSTime attempts).steps ↔
      (TransactionTask.execute startMSTime attempts).result = some false := by
  rw [TransactionTask.execute, mem_executeTask (by simp)]
  split <;> simp_all

theorem TransactionWithResultTask.cleanup_iff (startMSTime : Nat)
    (attempts : List TransactionAttempt) :
    .cleanup ∈ (TransactionWithResultTask.execute startMSTime attempts).steps ↔
      (TransactionWithResultTask.execute startMSTime attempts).result = some false := by
  rw [TransactionWithResultTask.execute, mem_executeTask (by simp)]
  split <;> simp_all

/-- The promise is set when the task returns, to what it returns. -/
theorem TransactionWithResultTask.setValues_eq (startMSTime : Nat)
    (attempts : List TransactionAttempt) :
    setValues (TransactionWithResultTask.execute startMSTime attempts).steps =
      (TransactionWithResultTask.execute startMSTime attempts).result.toList := by
  obtain ⟨steps, hsteps, hcourse⟩ :=
    executeTask_attempts [.setValue true] [.cleanup, .setValue false] startMSTime attempts
  rw [TransactionWithResultTask.execute, hcourse, setValues, List.filterMap_append, ← setValues,
    hsteps.setValues]
  generalize (executeTask _ _ startMSTime attempts).result = result
  cases result with
  | none => rfl
  | some committed => cases committed <;> rfl

/-! ## The direct commit -/

theorem directCommitTransaction_attempts (attempts : List TransactionAttempt) :
    ∃ committed steps tail, Attempts committed steps ∧ steps.length ≤ 6 ∧
      (directCommitTransaction attempts).steps = .getFreeConnection :: (steps ++ tail) ∧
      (tail = [] ∧ (directCommitTransaction attempts).result = none ∨
        (tail = [.unlock] ∨ tail = [.cleanup, .unlock]) ∧
          (directCommitTransaction attempts).result = some ()) := by
  cases attempts with
  | nil => exact ⟨false, [], [], .none, by simp, rfl, Or.inl ⟨rfl, rfl⟩⟩
  | cons attempt attempts =>
    simp only [directCommitTransaction]
    split
    · exact ⟨true, [.attempt 0], [.unlock], .commit, by simp, rfl, Or.inr ⟨Or.inl rfl, rfl⟩⟩
    · rename_i hcode
      split
      · obtain ⟨committed, hloop⟩ := loopBreaker_attempts 5 attempts
        have hlength := loopBreaker_length 5 attempts
        have hall := Attempts.fail _ hcode hloop
        cases (loopBreaker 5 attempts).result with
        | none =>
          exact ⟨committed, _, [], hall, Nat.succ_le_succ hlength, by simp, Or.inl ⟨rfl, rfl⟩⟩
        | some u =>
          exact ⟨committed, _, [.cleanup, .unlock], hall, Nat.succ_le_succ hlength, by simp,
            Or.inr ⟨Or.inr rfl, rfl⟩⟩
      · exact ⟨false, [.attempt attempt.errorCode], [.cleanup, .unlock], .fail _ hcode .none,
          by simp, rfl, Or.inr ⟨Or.inr rfl, rfl⟩⟩

/-! ## The attempts -/

@[simp] theorem attemptCodes_attempt (errorCode : Int) (steps : List TransactionStep) :
    attemptCodes (.attempt errorCode :: steps) = errorCode :: attemptCodes steps := rfl

theorem attemptCodes_quiet {tail : List TransactionStep}
    (h : ∀ errorCode, .attempt errorCode ∉ tail) : attemptCodes tail = [] := by
  rw [attemptCodes, List.filterMap_eq_nil_iff]
  intro step hmem
  cases step with
  | attempt errorCode => exact absurd hmem (h errorCode)
  | _ => rfl

theorem attemptCodes_append_quiet {steps tail : List TransactionStep}
    (h : ∀ errorCode, .attempt errorCode ∉ tail) :
    attemptCodes (steps ++ tail) = attemptCodes steps := by
  rw [attemptCodes, List.filterMap_append, ← attemptCodes, ← attemptCodes, attemptCodes_quiet h,
    List.append_nil]

theorem deadlockLoop_prefix (startMSTime loopDuration : Nat)
    (attempts : List TransactionAttempt) :
    attemptCodes (deadlockLoop startMSTime loopDuration attempts).steps <+:
      attempts.map TransactionAttempt.errorCode := by
  induction attempts generalizing loopDuration with
  | nil =>
    unfold deadlockLoop
    split
    · exact List.nil_prefix
    · exact List.nil_prefix
  | cons attempt attempts ih =>
    unfold deadlockLoop
    dsimp only
    split
    · exact List.nil_prefix
    · rw [List.map_cons]
      split
      · next h =>
        rw [h, attemptCodes_attempt, List.cons_prefix_cons]
        exact ⟨rfl, List.nil_prefix⟩
      · rw [attemptCodes_attempt, List.cons_prefix_cons]
        exact ⟨rfl, ih _⟩

theorem loopBreaker_prefix (left : Nat) (attempts : List TransactionAttempt) :
    attemptCodes (loopBreaker left attempts).steps <+:
      attempts.map TransactionAttempt.errorCode := by
  induction left generalizing attempts with
  | zero => exact List.nil_prefix
  | succ left ih =>
    cases attempts with
    | nil => exact List.nil_prefix
    | cons attempt attempts =>
      simp only [loopBreaker]
      rw [List.map_cons]
      split
      · next h =>
        rw [h, attemptCodes_attempt, List.cons_prefix_cons]
        exact ⟨rfl, List.nil_prefix⟩
      · rw [attemptCodes_attempt, List.cons_prefix_cons]
        exact ⟨rfl, ih attempts⟩

/-- The call makes its first attempt, and all of them in the order of `attempts`. -/
structure MakesAttempts (attempts : List TransactionAttempt) (steps : List TransactionStep) :
    Prop where
  first : attempts ≠ [] → attemptCodes steps ≠ []
  inOrder : attemptCodes steps <+: attempts.map TransactionAttempt.errorCode

/-- The course of all three: the first attempt, those of a loop, and what is done
behind them. -/
theorem MakesAttempts.of_course (attempt : TransactionAttempt) {attempts : List TransactionAttempt}
    {loop : List TransactionStep} (tail : List TransactionStep)
    (hloop : attemptCodes loop <+: attempts.map TransactionAttempt.errorCode)
    (ht : ∀ errorCode, .attempt errorCode ∉ tail) :
    MakesAttempts (attempt :: attempts) (.attempt attempt.errorCode :: (loop ++ tail)) where
  first _ := by simp
  inOrder := by
    rw [attemptCodes_attempt, attemptCodes_append_quiet ht, List.map_cons, List.cons_prefix_cons]
    exact ⟨rfl, hloop⟩

theorem executeTask_makesAttempts {onSuccess onFailure : List TransactionStep}
    (hs : ∀ errorCode, .attempt errorCode ∉ onSuccess)
    (hf : ∀ errorCode, .attempt errorCode ∉ onFailure) (startMSTime : Nat)
    (attempts : List TransactionAttempt) :
    MakesAttempts attempts (executeTask onSuccess onFailure startMSTime attempts).steps := by
  cases attempts with
  | nil => exact ⟨fun h => absurd rfl h, List.nil_prefix⟩
  | cons attempt attempts =>
    have hnone : attemptCodes [] <+: attempts.map TransactionAttempt.errorCode := List.nil_prefix
    simp only [executeTask]
    split
    · next hcode =>
      have hmade := MakesAttempts.of_course attempt onSuccess hnone hs
      rwa [hcode] at hmade
    · split
      · have hloop := deadlockLoop_prefix startMSTime 0 attempts
        split
        · simpa using MakesAttempts.of_course attempt [] hloop (by simp)
        · exact .of_course _ _ hloop hs
        · exact .of_course _ _ hloop hf
      · exact .of_course _ _ hnone hf

theorem directCommitTransaction_makesAttempts (attempts : List TransactionAttempt) :
    MakesAttempts attempts (directCommitTransaction attempts).steps := by
  have hconnection : ∀ steps, MakesAttempts attempts steps →
      MakesAttempts attempts (.getFreeConnection :: steps) := fun _ h => ⟨h.first, h.inOrder⟩
  cases attempts with
  | nil => exact hconnection [] ⟨fun h => absurd rfl h, List.nil_prefix⟩
  | cons attempt attempts =>
    have hnone : attemptCodes [] <+: attempts.map TransactionAttempt.errorCode := List.nil_prefix
    simp only [directCommitTransaction]
    split
    · next hcode =>
      have hmade := MakesAttempts.of_course attempt [.unlock] hnone (by simp)
      rw [hcode] at hmade
      exact hconnection _ hmade
    · split
      · have hloop := loopBreaker_prefix 5 attempts
        split
        · apply hconnection
          simpa using MakesAttempts.of_course attempt [] hloop (by simp)
        · exact hconnection _ (.of_course _ _ hloop (by simp))
      · exact hconnection _ (.of_course _ _ hnone (by simp))

/-! ## When the calls return -/

/-- An attempt that ends the loop of a task: it succeeds, or the time is up behind it. -/
def EndsLoop (startMSTime : Nat) (attempt : TransactionAttempt) : Prop :=
  attempt.errorCode = 0 ∨
    DEADLOCK_MAX_RETRY_TIME_MS < GetMSTimeDiff startMSTime attempt.timeMS

/-- There are as many attempts as a task makes. -/
def TaskReturns (startMSTime : Nat) : List TransactionAttempt → Prop
  | [] => False
  | first :: retries =>
    first.errorCode = ER_LOCK_DEADLOCK → ∃ attempt ∈ retries, EndsLoop startMSTime attempt

/-- There are as many attempts as the direct commit makes. -/
def DirectReturns : List TransactionAttempt → Prop
  | [] => False
  | first :: retries =>
    first.errorCode = ER_LOCK_DEADLOCK →
      5 ≤ retries.length ∨ ∃ attempt ∈ retries, attempt.errorCode = 0

theorem deadlockLoop_returns_iff {startMSTime loopDuration : Nat}
    (h : loopDuration ≤ DEADLOCK_MAX_RETRY_TIME_MS) (attempts : List TransactionAttempt) :
    (deadlockLoop startMSTime loopDuration attempts).result ≠ none ↔
      ∃ attempt ∈ attempts, EndsLoop startMSTime attempt := by
  induction attempts generalizing loopDuration with
  | nil =>
    unfold deadlockLoop
    rw [if_neg (by omega)]
    simp
  | cons first attempts ih =>
    unfold deadlockLoop
    dsimp only
    rw [if_neg (by omega), List.exists_mem_cons_iff, EndsLoop]
    split
    · next hcode => simp [hcode]
    · next hcode =>
      by_cases htime : GetMSTimeDiff startMSTime first.timeMS ≤ DEADLOCK_MAX_RETRY_TIME_MS
      · have hnot : ¬ DEADLOCK_MAX_RETRY_TIME_MS < GetMSTimeDiff startMSTime first.timeMS := by
          omega
        simp [ih htime, hcode, hnot]
      · have hover : DEADLOCK_MAX_RETRY_TIME_MS < GetMSTimeDiff startMSTime first.timeMS := by
          omega
        unfold deadlockLoop
        simp [hover]

theorem executeTask_returns_iff (onSuccess onFailure : List TransactionStep) (startMSTime : Nat)
    (attempts : List TransactionAttempt) :
    (executeTask onSuccess onFailure startMSTime attempts).result ≠ none ↔
      TaskReturns startMSTime attempts := by
  cases attempts with
  | nil => simp [executeTask, TaskReturns]
  | cons first retries =>
    simp only [executeTask, TaskReturns]
    split
    · next hcode => simp [hcode, ER_LOCK_DEADLOCK]
    · split
      · next hdeadlock =>
        have hloop : (deadlockLoop startMSTime 0 retries).result ≠ none ↔
            ∃ attempt ∈ retries, EndsLoop startMSTime attempt :=
          deadlockLoop_returns_iff (Nat.zero_le _) retries
        rw [← hloop]
        split
        all_goals
          next hresult => simp [hresult, hdeadlock]
      · next hdeadlock => simp [hdeadlock]

theorem loopBreaker_returns_iff (left : Nat) (attempts : List TransactionAttempt) :
    (loopBreaker left attempts).result = some () ↔
      left ≤ attempts.length ∨ ∃ attempt ∈ attempts, attempt.errorCode = 0 := by
  induction left generalizing attempts with
  | zero => simp [loopBreaker]
  | succ left ih =>
    cases attempts with
    | nil => simp [loopBreaker]
    | cons attempt attempts =>
      simp only [loopBreaker]
      split
      · next hcode => simp [hcode]
      · next hcode => simp [ih, hcode]

theorem directCommitTransaction_returns_iff (attempts : List TransactionAttempt) :
    (directCommitTransaction attempts).result = some () ↔ DirectReturns attempts := by
  cases attempts with
  | nil => simp [directCommitTransaction, DirectReturns]
  | cons first retries =>
    simp only [directCommitTransaction, DirectReturns]
    split
    · next hcode => simp [hcode, ER_LOCK_DEADLOCK]
    · split
      · next hdeadlock =>
        rw [← loopBreaker_returns_iff]
        split
        all_goals
          next hresult => simp [hresult, hdeadlock]
      · next hdeadlock => simp [hdeadlock]

/-! ## All three paths -/

/-- A task makes its attempts, commits at most once, returns whether it did, and
cleans the query list exactly when it returns without. -/
structure ReportsCommit (attempts : List TransactionAttempt) (p : Progress Bool) : Prop where
  attempts : MakesAttempts attempts p.steps
  commits : CommitsOnce p.steps
  committed : p.result = some true ↔ .attempt 0 ∈ p.steps
  cleaned : .cleanup ∈ p.steps ↔ p.result = some false

theorem TransactionTask.reportsCommit (startMSTime : Nat) (attempts : List TransactionAttempt) :
    ReportsCommit attempts (TransactionTask.execute startMSTime attempts) := by
  obtain ⟨hcommits, hresult⟩ :=
    executeTask_commitsOnce [] [.cleanup] (by simp) (by simp) startMSTime attempts
  exact ⟨executeTask_makesAttempts (by simp) (by simp) startMSTime attempts, hcommits, hresult,
    TransactionTask.cleanup_iff startMSTime attempts⟩

theorem TransactionWithResultTask.reportsCommit (startMSTime : Nat)
    (attempts : List TransactionAttempt) :
    ReportsCommit attempts (TransactionWithResultTask.execute startMSTime attempts) := by
  obtain ⟨hcommits, hresult⟩ :=
    executeTask_commitsOnce [.setValue true] [.cleanup, .setValue false] (by simp) (by simp)
      startMSTime attempts
  exact ⟨executeTask_makesAttempts (by simp) (by simp) startMSTime attempts, hcommits, hresult,
    TransactionWithResultTask.cleanup_iff startMSTime attempts⟩

/-- The two tasks differ in what they do behind their attempts only. -/
theorem TransactionWithResultTask.result_eq (startMSTime : Nat)
    (attempts : List TransactionAttempt) :
    (TransactionWithResultTask.execute startMSTime attempts).result =
      (TransactionTask.execute startMSTime attempts).result := by
  rw [TransactionWithResultTask.execute, TransactionTask.execute]
  cases attempts with
  | nil => rfl
  | cons attempt attempts =>
    simp only [executeTask]
    split
    · rfl
    · split
      · split <;> rfl
      · rfl

/-- The direct commit makes its attempts, at most six, commits at most once, and
takes one connection. -/
structure CommitsDirectly (attempts : List TransactionAttempt) (p : Progress Unit) : Prop where
  attempts : MakesAttempts attempts p.steps
  commits : CommitsOnce p.steps
  atMostSix : p.steps.countP TransactionStep.isAttempt ≤ 6
  connection : p.steps.count .getFreeConnection = 1
  released : p.steps.count .unlock = p.result.toList.length

theorem directCommitTransaction_commitsDirectly (attempts : List TransactionAttempt) :
    CommitsDirectly attempts (directCommitTransaction attempts) := by
  obtain ⟨committed, steps, tail, hsteps, hlength, hcourse, htail⟩ :=
    directCommitTransaction_attempts attempts
  have hquiet : ∀ errorCode, .attempt errorCode ∉ tail := by
    rcases htail with ⟨rfl, -⟩ | ⟨rfl | rfl, -⟩
    all_goals simp
  refine ⟨directCommitTransaction_makesAttempts attempts, ?_, ?_, ?_, ?_⟩
  · rw [hcourse]
    exact (hsteps.commitsOnce hquiet).cons (by simp)
  · have htail0 : tail.countP TransactionStep.isAttempt = 0 := by
      rcases htail with ⟨rfl, -⟩ | ⟨rfl | rfl, -⟩
      all_goals rfl
    have hle : steps.countP TransactionStep.isAttempt ≤ steps.length := List.countP_le_length
    rw [hcourse, List.countP_cons, List.countP_append, htail0]
    exact Nat.le_trans hle hlength
  · rw [hcourse, List.count_cons_self, List.count_append, hsteps.count_eq_zero (by simp)]
    rcases htail with ⟨rfl, -⟩ | ⟨rfl | rfl, -⟩
    all_goals rfl
  · rw [hcourse, List.count_cons_of_ne (by simp), List.count_append,
      hsteps.count_eq_zero (by simp)]
    rcases htail with ⟨rfl, hresult⟩ | ⟨rfl | rfl, hresult⟩
    all_goals
      rw [hresult]
      rfl

/-- Whatever the attempts return and the clock shows: the tasks report what was
committed, and the direct commit makes at most six attempts. As soon as there are
enough attempts, and not before, the tasks have returned one value and set the
promise once, to that value, and the direct commit has returned and released its
connection once. -/
theorem commits_reported (startMSTime : Nat) (attempts : List TransactionAttempt) :
    ReportsCommit attempts (TransactionTask.execute startMSTime attempts) ∧
    ReportsCommit attempts (TransactionWithResultTask.execute startMSTime attempts) ∧
    setValues (TransactionWithResultTask.execute startMSTime attempts).steps =
      (TransactionWithResultTask.execute startMSTime attempts).result.toList ∧
    CommitsDirectly attempts (directCommitTransaction attempts) ∧
    (TaskReturns startMSTime attempts ↔ ∃ committed,
      (TransactionTask.execute startMSTime attempts).result = some committed ∧
      (TransactionWithResultTask.execute startMSTime attempts).result = some committed ∧
      setValues (TransactionWithResultTask.execute startMSTime attempts).steps = [committed]) ∧
    (DirectReturns attempts ↔
      (directCommitTransaction attempts).result = some () ∧
      (directCommitTransaction attempts).steps.count .unlock = 1) := by
  have hset := TransactionWithResultTask.setValues_eq startMSTime attempts
  have hresult := TransactionWithResultTask.result_eq startMSTime attempts
  have hdirect := directCommitTransaction_commitsDirectly attempts
  refine ⟨TransactionTask.reportsCommit startMSTime attempts,
    TransactionWithResultTask.reportsCommit startMSTime attempts, hset, hdirect, ?_, ?_⟩
  · rw [← executeTask_returns_iff [] [.cleanup], ← TransactionTask.execute,
      Option.ne_none_iff_exists']
    apply exists_congr
    intro committed
    rw [hset, hresult]
    constructor
    · intro h
      exact ⟨h, h, by rw [h, Option.toList_some]⟩
    · exact And.left
  · rw [← directCommitTransaction_returns_iff, hdirect.released]
    constructor
    · intro h
      exact ⟨h, by rw [h]; rfl⟩
    · exact And.left

/-- A deadlock and a success: both tasks return true, and the connection is back. -/
theorem deadlock_then_commit :
    let attempts : List TransactionAttempt := [⟨1213, 10⟩, ⟨0, 20⟩]
    (∃ committed, (TransactionTask.execute 0 attempts).result = some committed ∧
      (TransactionWithResultTask.execute 0 attempts).result = some committed ∧
      setValues (TransactionWithResultTask.execute 0 attempts).steps = [committed]) ∧
    .attempt 0 ∈ (TransactionTask.execute 0 attempts).steps ∧
    (directCommitTransaction attempts).steps.count .unlock = 1 := by
  intro attempts
  obtain ⟨htask, -, -, -, hreturns, hdirect⟩ := commits_reported 0 attempts
  have htaskReturns : TaskReturns 0 attempts := fun _ => ⟨⟨0, 20⟩, by simp, Or.inl rfl⟩
  have hdirectReturns : DirectReturns attempts := fun _ => Or.inr ⟨⟨0, 20⟩, by simp, rfl⟩
  exact ⟨hreturns.mp htaskReturns, htask.committed.mp rfl, (hdirect.mp hdirectReturns).2⟩

end Mpool.Database
