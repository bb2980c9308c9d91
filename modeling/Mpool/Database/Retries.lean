import Mpool.Database.TransactionTask

/-! Which attempts the three commit paths repeat. All of them look for a deadlock
behind the first attempt only; their loops go on behind any error. -/

namespace Mpool.Database

open Timer (GetMSTimeDiff)

/-- Every attempt but the last returned a deadlock. -/
def RetriesOnlyDeadlocks (steps : List TransactionStep) : Prop :=
  ∀ errorCode ∈ (attemptCodes steps).dropLast, errorCode = ER_LOCK_DEADLOCK

/-- Behind a deadlock at the first attempt, the attempts in `retries` that are not
the last and come before the first that ends the loop are deadlocks too. -/
def DeadlocksRepeat (goesOn : TransactionAttempt → Bool) (first : TransactionAttempt)
    (retries : List TransactionAttempt) : Prop :=
  first.errorCode = ER_LOCK_DEADLOCK →
    ∀ attempt ∈ retries.dropLast.takeWhile goesOn, attempt.errorCode = ER_LOCK_DEADLOCK

/-- The attempt fails and the minute is not over behind it. -/
def failsInTime (startMSTime : Nat) (attempt : TransactionAttempt) : Bool :=
  attempt.errorCode ≠ 0 && GetMSTimeDiff startMSTime attempt.timeMS ≤ DEADLOCK_MAX_RETRY_TIME_MS

def fails (attempt : TransactionAttempt) : Bool := attempt.errorCode ≠ 0

/-- The condition for the two tasks. -/
def TaskDeadlocksRepeat (startMSTime : Nat) : List TransactionAttempt → Prop
  | [] => True
  | first :: retries => DeadlocksRepeat (failsInTime startMSTime) first retries

/-- The condition for the direct commit, whose loop makes five attempts. -/
def DirectDeadlocksRepeat : List TransactionAttempt → Prop
  | [] => True
  | first :: retries => DeadlocksRepeat fails first (retries.take 5)

/-! ## The attempts a loop makes -/

/-- The attempts a loop takes from `attempts`: those it goes on behind, and the
one it ends with. -/
def made (goesOn : TransactionAttempt → Bool) (attempts : List TransactionAttempt) :
    List TransactionAttempt :=
  attempts.takeWhile goesOn ++ (attempts.dropWhile goesOn).take 1

theorem made_cons (goesOn : TransactionAttempt → Bool) (attempt : TransactionAttempt)
    (attempts : List TransactionAttempt) :
    made goesOn (attempt :: attempts) =
      attempt :: if goesOn attempt then made goesOn attempts else [] := by
  cases h : goesOn attempt
  all_goals simp [made, h]

theorem made_ne_nil {goesOn : TransactionAttempt → Bool} {attempts : List TransactionAttempt}
    (h : attempts ≠ []) : made goesOn attempts ≠ [] := by
  obtain ⟨attempt, rest, rfl⟩ := List.exists_cons_of_ne_nil h
  rw [made_cons]
  exact List.cons_ne_nil _ _

theorem dropLast_made (goesOn : TransactionAttempt → Bool) (attempts : List TransactionAttempt) :
    (made goesOn attempts).dropLast = attempts.dropLast.takeWhile goesOn := by
  induction attempts with
  | nil => rfl
  | cons attempt attempts ih =>
    rw [made_cons]
    cases attempts with
    | nil => cases goesOn attempt <;> rfl
    | cons next rest =>
      cases h : goesOn attempt with
      | false => simp [h]
      | true =>
        have hne : made goesOn (next :: rest) ≠ [] := made_ne_nil (List.cons_ne_nil _ _)
        rw [if_pos rfl, List.dropLast_cons_of_ne_nil hne, ih]
        simp [h]

theorem deadlockLoop_codes {startMSTime loopDuration : Nat}
    (h : loopDuration ≤ DEADLOCK_MAX_RETRY_TIME_MS) (attempts : List TransactionAttempt) :
    attemptCodes (deadlockLoop startMSTime loopDuration attempts).steps =
      (made (failsInTime startMSTime) attempts).map TransactionAttempt.errorCode := by
  induction attempts generalizing loopDuration with
  | nil =>
    unfold deadlockLoop
    rw [if_neg (by omega)]
    rfl
  | cons attempt attempts ih =>
    unfold deadlockLoop
    dsimp only
    rw [if_neg (by omega), made_cons]
    by_cases hcode : attempt.errorCode = 0
    · simp [failsInTime, hcode, attemptCodes]
    · by_cases htime :
        GetMSTimeDiff startMSTime attempt.timeMS ≤ DEADLOCK_MAX_RETRY_TIME_MS
      · have hrest := ih htime
        rw [attemptCodes] at hrest
        simp [failsInTime, hcode, htime, attemptCodes, hrest]
      · have hover : deadlockLoop startMSTime (GetMSTimeDiff startMSTime attempt.timeMS) attempts =
            ⟨[], some false⟩ := by
          unfold deadlockLoop
          rw [if_pos (by omega)]
        simp [failsInTime, hcode, htime, attemptCodes, hover]

theorem loopBreaker_codes (left : Nat) (attempts : List TransactionAttempt) :
    attemptCodes (loopBreaker left attempts).steps =
      (made fails (attempts.take left)).map TransactionAttempt.errorCode := by
  induction left generalizing attempts with
  | zero => rfl
  | succ left ih =>
    cases attempts with
    | nil => rfl
    | cons attempt attempts =>
      rw [List.take_succ_cons, made_cons]
      by_cases hcode : attempt.errorCode = 0
      · simp [loopBreaker, fails, hcode, attemptCodes]
      · have hrest := ih attempts
        rw [attemptCodes] at hrest
        simp [loopBreaker, fails, hcode, attemptCodes, hrest]

/-! ## The three paths -/

/-- The codes of a path: its first attempt, and the attempts of its loop behind a
deadlock. -/
def pathCodes (goesOn : TransactionAttempt → Bool) (first : TransactionAttempt)
    (retries : List TransactionAttempt) : List Int :=
  first.errorCode :: if first.errorCode = ER_LOCK_DEADLOCK then
    (made goesOn retries).map TransactionAttempt.errorCode else []

theorem executeTask_codes {onSuccess onFailure : List TransactionStep}
    (hs : ∀ errorCode, .attempt errorCode ∉ onSuccess)
    (hf : ∀ errorCode, .attempt errorCode ∉ onFailure) (startMSTime : Nat)
    (first : TransactionAttempt) (retries : List TransactionAttempt) :
    attemptCodes (executeTask onSuccess onFailure startMSTime (first :: retries)).steps =
      pathCodes (failsInTime startMSTime) first retries := by
  have hcons : ∀ (errorCode : Int) (steps : List TransactionStep),
      attemptCodes (.attempt errorCode :: steps) = errorCode :: attemptCodes steps :=
    fun _ _ => rfl
  have hloop : attemptCodes (deadlockLoop startMSTime 0 retries).steps =
      (made (failsInTime startMSTime) retries).map TransactionAttempt.errorCode :=
    deadlockLoop_codes (Nat.zero_le _) retries
  by_cases h0 : first.errorCode = 0
  · simp only [executeTask, h0, if_pos, hcons, attemptCodes_quiet hs, pathCodes]
    rfl
  · by_cases hd : first.errorCode = ER_LOCK_DEADLOCK
    · simp only [executeTask, if_neg h0, if_pos hd, pathCodes]
      rw [← hloop, ← hcons]
      split
      · rfl
      · exact attemptCodes_append_quiet hs
      · exact attemptCodes_append_quiet hf
    · simp only [executeTask, if_neg h0, if_neg hd, hcons, attemptCodes_quiet hf, pathCodes]

theorem directCommitTransaction_codes (first : TransactionAttempt)
    (retries : List TransactionAttempt) :
    attemptCodes (directCommitTransaction (first :: retries)).steps =
      pathCodes fails first (retries.take 5) := by
  have hloop := loopBreaker_codes 5 retries
  by_cases h0 : first.errorCode = 0
  · simp [directCommitTransaction, h0, pathCodes, attemptCodes, ER_LOCK_DEADLOCK]
  · by_cases hd : first.errorCode = ER_LOCK_DEADLOCK
    · simp only [directCommitTransaction, if_neg h0, if_pos hd, pathCodes]
      rw [← hloop]
      split
      · rfl
      · simp [attemptCodes]
    · simp [directCommitTransaction, if_neg h0, if_neg hd, pathCodes, attemptCodes]

theorem dropLast_pathCodes (goesOn : TransactionAttempt → Bool) (first : TransactionAttempt)
    (retries : List TransactionAttempt) :
    (∀ errorCode ∈ (pathCodes goesOn first retries).dropLast, errorCode = ER_LOCK_DEADLOCK) ↔
      DeadlocksRepeat goesOn first retries := by
  by_cases hd : first.errorCode = ER_LOCK_DEADLOCK
  · cases hmade : made goesOn retries with
    | nil =>
      have hdrop := dropLast_made goesOn retries
      rw [hmade, List.dropLast_nil] at hdrop
      simp [pathCodes, DeadlocksRepeat, hmade, ← hdrop]
    | cons attempt attempts =>
      have hdrop := dropLast_made goesOn retries
      simp only [pathCodes, DeadlocksRepeat, hd, ← hdrop, if_true, forall_const]
      rw [List.dropLast_cons_of_ne_nil (by simp [hmade]), ← List.map_dropLast]
      simp only [List.mem_cons, forall_eq_or_imp, true_and, List.forall_mem_map]
  · simp [pathCodes, DeadlocksRepeat, hd]

theorem executeTask_retries_iff {onSuccess onFailure : List TransactionStep}
    (hs : ∀ errorCode, .attempt errorCode ∉ onSuccess)
    (hf : ∀ errorCode, .attempt errorCode ∉ onFailure) (startMSTime : Nat)
    (attempts : List TransactionAttempt) :
    RetriesOnlyDeadlocks (executeTask onSuccess onFailure startMSTime attempts).steps ↔
      TaskDeadlocksRepeat startMSTime attempts := by
  cases attempts with
  | nil => simp [RetriesOnlyDeadlocks, executeTask, attemptCodes, TaskDeadlocksRepeat]
  | cons first retries =>
    rw [RetriesOnlyDeadlocks, executeTask_codes hs hf, dropLast_pathCodes]
    rfl

/-- Whatever the attempts return and the clock shows: a path retries deadlocks
only, exactly when behind a deadlock at its first attempt no other error comes
inside its loop with an attempt left to follow it. -/
theorem retries_only_deadlocks_iff (startMSTime : Nat) (attempts : List TransactionAttempt) :
    (RetriesOnlyDeadlocks (TransactionTask.execute startMSTime attempts).steps ↔
      TaskDeadlocksRepeat startMSTime attempts) ∧
    (RetriesOnlyDeadlocks (TransactionWithResultTask.execute startMSTime attempts).steps ↔
      TaskDeadlocksRepeat startMSTime attempts) ∧
    (RetriesOnlyDeadlocks (directCommitTransaction attempts).steps ↔
      DirectDeadlocksRepeat attempts) := by
  refine ⟨executeTask_retries_iff (by simp) (by simp) startMSTime attempts,
    executeTask_retries_iff (by simp) (by simp) startMSTime attempts, ?_⟩
  cases attempts with
  | nil => simp [RetriesOnlyDeadlocks, directCommitTransaction, attemptCodes, DirectDeadlocksRepeat]
  | cons first retries =>
    rw [RetriesOnlyDeadlocks, directCommitTransaction_codes, dropLast_pathCodes]
    rfl

/-- A deadlock, a lost connection and a success: every path repeats the lost
connection. -/
theorem lost_connection_retried :
    let attempts : List TransactionAttempt := [⟨1213, 10⟩, ⟨2013, 20⟩, ⟨0, 30⟩]
    ¬ RetriesOnlyDeadlocks (TransactionTask.execute 0 attempts).steps ∧
    ¬ RetriesOnlyDeadlocks (TransactionWithResultTask.execute 0 attempts).steps ∧
    ¬ RetriesOnlyDeadlocks (directCommitTransaction attempts).steps := by
  unfold RetriesOnlyDeadlocks
  decide

end Mpool.Database
