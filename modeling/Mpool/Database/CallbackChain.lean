import Mpool.Database.QueryCallback

/-! A query with its callbacks over any number of polls. As long as all callbacks
are of the kind of the first query, the polls take the invocations of the chain
off one by one; `SetNextQuery` cannot change the kind of a query. -/

namespace Mpool.Database

variable {S P : Type}

/-- One call of the four functions that register a callback. -/
inductive CallbackRegistration (S P : Type) where
  | withCallback (id : Nat)
  | withPreparedCallback (id : Nat)
  | withChainingCallback (callback : CallbackFunction S P)
  | withChainingPreparedCallback (callback : CallbackFunction S P)

namespace CallbackRegistration

def isPrepared : CallbackRegistration S P → Bool
  | .withCallback _ => false
  | .withPreparedCallback _ => true
  | .withChainingCallback _ => false
  | .withChainingPreparedCallback _ => true

def callback : CallbackRegistration S P → CallbackFunction S P
  | .withCallback id => ⟨id, none⟩
  | .withPreparedCallback id => ⟨id, none⟩
  | .withChainingCallback callback => callback
  | .withChainingPreparedCallback callback => callback

/-- The element of the queue it leaves. -/
def data (r : CallbackRegistration S P) : QueryCallbackData S P :=
  .of (if r.isPrepared then .inr (some r.callback) else .inl (some r.callback))

end CallbackRegistration

namespace QueryCallback

def register (this : QueryCallback S P) :
    CallbackRegistration S P → Except CallbackFault (QueryCallback S P)
  | .withCallback id => this.withCallback id
  | .withPreparedCallback id => this.withPreparedCallback id
  | .withChainingCallback callback => this.withChainingCallback callback
  | .withChainingPreparedCallback callback => this.withChainingPreparedCallback callback

def registerAll : List (CallbackRegistration S P) → QueryCallback S P →
    Except CallbackFault (QueryCallback S P)
  | [], this => .ok this
  | r :: rs, this => do
    let this ← this.register r
    registerAll rs this

/-- Each callback but the last hands over a query of the kind of the callback
after it, the last one none. -/
def Linked : List (CallbackRegistration S P) → Prop
  | [] => True
  | [r] => r.callback.next = none
  | r :: r' :: rs =>
    (∃ query, r.callback.next = some query ∧ query.isRight = r'.isPrepared) ∧ Linked (r' :: rs)

/-- Every callback with the query it is registered for: the first query, and then
the ones handed over. -/
def invocations : Query S P → List (CallbackRegistration S P) → List (Invocation S P)
  | _, [] => []
  | query, r :: rs =>
    ⟨r.callback.id, query⟩ :: match r.callback.next with
      | none => []
      | some next => invocations next rs

def queryId : Query S P → Nat
  | .inl f => f.id
  | .inr f => f.id

/-! ## Polls -/

/-- The object, and what each poll so far ran and returned. -/
structure Polled (S P : Type) where
  object : QueryCallback S P
  polls : List (Option (Invocation S P) × Bool)

/-- Poll number `polls.length`, at which `ready` says which results are there. -/
def poll (ready : Nat → Nat → Bool) (s : Polled S P) : Except CallbackFault (Polled S P) := do
  let (object, ran, completed) ← s.object.invokeIfReady (ready s.polls.length)
  .ok ⟨object, s.polls ++ [(ran, completed)]⟩

def pollTimes (ready : Nat → Nat → Bool) : Nat → Polled S P → Except CallbackFault (Polled S P)
  | 0, s => .ok s
  | n + 1, s => do
    let s ← poll ready s
    pollTimes ready n s

/-- The callbacks that were run. -/
def ran (polls : List (Option (Invocation S P) × Bool)) : List (Invocation S P) :=
  polls.filterMap Prod.fst

/-- Whenever the results come and however often the object is polled, no `ASSERT`
fails, the invocations of the chain are made in order and once each, and a poll
returns true exactly if it makes the last one. Once all results are there and
stay, the chain is run to its end. -/
structure RunsInOrder (object : QueryCallback S P) (chain : List (Invocation S P)) : Prop where
  ordered : ∀ ready n, ∃ s, pollTimes ready n ⟨object, []⟩ = .ok s ∧ ran s.polls <+: chain ∧
    ∀ before poll after, s.polls = before ++ poll :: after →
      (poll.2 = true ↔ poll.1 ≠ none ∧ ran (before ++ [poll]) = chain)
  complete : ∀ ready, (∀ i ∈ chain, ∃ t₀, ∀ t ≥ t₀, ready t (queryId i.query) = true) →
    ∃ n s, pollTimes ready n ⟨object, []⟩ = .ok s ∧ ran s.polls = chain

/-! ## Registration -/

/-- A query that waits with its callbacks. -/
def holding (query : Query S P) (rs : List (CallbackRegistration S P)) : QueryCallback S P :=
  { create query with callbacks := rs.map CallbackRegistration.data }

@[simp] theorem holding_nil (query : Query S P) : holding query [] = create query := by
  cases query <;> rfl

/-- A query whose result has been taken and that has no callbacks left. -/
def finished (isPrepared : Bool) : QueryCallback S P :=
  ⟨.of (if isPrepared then .inr none else .inl none), []⟩

/-- Only the first callback has to be of the kind of the query. -/
theorem register_holding (query : Query S P) (rs : List (CallbackRegistration S P))
    (r : CallbackRegistration S P) :
    (holding query rs).register r =
      if rs ≠ [] ∨ r.isPrepared = query.isRight then .ok (holding query (rs ++ [r]))
      else .error (if r.isPrepared then .preparedOnString else .stringOnPrepared) := by
  cases query <;> cases r <;> cases rs
  all_goals
    simp [register, withCallback, withPreparedCallback, withChainingCallback,
      withChainingPreparedCallback, holding, create, CallbackRegistration.isPrepared,
      CallbackRegistration.data, CallbackRegistration.callback]

theorem registerAll_holding (query : Query S P) {rs : List (CallbackRegistration S P)} (h : rs ≠ [])
    (rs' : List (CallbackRegistration S P)) :
    registerAll rs' (holding query rs) = .ok (holding query (rs ++ rs')) := by
  induction rs' generalizing rs with
  | nil => simp [registerAll]
  | cons r rs' ih =>
    rw [registerAll, register_holding, if_pos (Or.inl h)]
    have hne : rs ++ [r] ≠ [] := by simp
    have hrest := ih hne
    simpa [bind, Except.bind] using hrest

/-- What is accepted begins with a callback of the kind of the query. -/
theorem registerAll_eq_ok {query : Query S P} {rs : List (CallbackRegistration S P)}
    {object : QueryCallback S P} (h : registerAll rs (create query) = .ok object) :
    object = holding query rs ∧ ∀ r ∈ rs.head?, r.isPrepared = query.isRight := by
  cases rs with
  | nil =>
    cases h
    exact ⟨(holding_nil query).symm, by simp⟩
  | cons r rs =>
    rw [registerAll, ← holding_nil, register_holding] at h
    by_cases hkind : r.isPrepared = query.isRight
    · have hrest := registerAll_holding query (List.cons_ne_nil r []) rs
      simp only [ne_eq, not_true_eq_false, hkind, or_true, ↓reduceIte, List.nil_append, bind,
        Except.bind, hrest] at h
      cases h
      exact ⟨rfl, by simpa using hkind⟩
    · simp [hkind, bind, Except.bind] at h

/-! ## One poll -/

theorem invokeIfReady_wait {ready : Nat → Bool} {query : Query S P}
    (h : ready (queryId query) = false) (rs : List (CallbackRegistration S P)) :
    (holding query rs).invokeIfReady ready = .ok (holding query rs, none, false) := by
  cases query with
  | inl f =>
    have hf : ready f.id = false := h
    simp [invokeIfReady, holding, create, used, Except.mapError, bind, Except.bind, hf]
  | inr f =>
    have hf : ready f.id = false := h
    simp [invokeIfReady, holding, create, used, Except.mapError, bind, Except.bind, hf]

theorem invokeIfReady_finished (ready : Nat → Bool) (isPrepared : Bool) :
    (finished (S := S) (P := P) isPrepared).invokeIfReady ready =
      .ok (finished isPrepared, none, false) := by
  cases isPrepared <;> rfl

theorem invokeIfReady_empty {ready : Nat → Bool} {query : Query S P}
    (h : ready (queryId query) = true) :
    (create query).invokeIfReady ready = .error .emptyQueue := by
  cases query with
  | inl f =>
    have hf : ready f.id = true := h
    simp [invokeIfReady, create, used, Except.mapError, bind, Except.bind, hf]
  | inr f =>
    have hf : ready f.id = true := h
    simp [invokeIfReady, create, used, Except.mapError, bind, Except.bind, hf]

/-- The object while a callback runs: the future and the function are moved out. -/
def running (isPrepared : Bool) (rs : List (CallbackRegistration S P)) : QueryCallback S P :=
  ⟨(finished isPrepared).query,
    .of (if isPrepared then .inr none else .inl none) :: rs.map CallbackRegistration.data⟩

theorem invokeIfReady_run {ready : Nat → Bool} {query : Query S P} {r : CallbackRegistration S P}
    (h : ready (queryId query) = true) (hkind : r.isPrepared = query.isRight)
    (rs : List (CallbackRegistration S P)) :
    (holding query (r :: rs)).invokeIfReady ready =
      runCallback (running query.isRight rs) (some r.callback) query := by
  cases query with
  | inl f =>
    have hf : ready f.id = true := h
    have hr : r.isPrepared = false := hkind
    simp [invokeIfReady, holding, create, used, Except.mapError, bind, Except.bind, hf,
      CallbackRegistration.data, hr, running, finished]
    rfl
  | inr f =>
    have hf : ready f.id = true := h
    have hr : r.isPrepared = true := hkind
    simp [invokeIfReady, holding, create, used, Except.mapError, bind, Except.bind, hf,
      CallbackRegistration.data, hr, running, finished]
    rfl

theorem hasNext_finished (isPrepared : Bool) (callbacks : List (QueryCallbackData S P)) :
    hasNext ⟨(finished (S := S) (P := P) isPrepared).query, callbacks⟩ = .ok false := by
  cases isPrepared <;> rfl

theorem hasNext_create (query : Query S P) (callbacks : List (QueryCallbackData S P)) :
    hasNext ⟨(create query).query, callbacks⟩ = .ok true := by
  cases query <;> rfl

/-- The next query comes in the place of the one that was taken, if it is of its
kind. -/
theorem setNextQuery_running (isPrepared : Bool) (rs : List (CallbackRegistration S P))
    (next : Query S P) :
    (running isPrepared rs).setNextQuery (create next) =
      if isPrepared = next.isRight then
        .ok ⟨(create next).query, (running isPrepared rs).callbacks⟩
      else .error (.union .tagMismatch) := by
  cases isPrepared <;> cases next <;> rfl

/-- A callback without a next query ends the chain. -/
theorem runCallback_last {r : CallbackRegistration S P} (h : r.callback.next = none)
    (isPrepared : Bool) (query : Query S P) :
    runCallback (running isPrepared []) (some r.callback) query =
      .ok (finished isPrepared, some ⟨r.callback.id, query⟩, true) := by
  simp only [runCallback, CallbackFunction.call, h, checkStateAndReturnCompletion, running,
    bind, Except.bind, List.map_nil, hasNext_finished]
  rfl

theorem runCallback_next {r r' : CallbackRegistration S P} {query next : Query S P}
    (h : r.callback.next = some next) (hnext : next.isRight = r'.isPrepared)
    (hkind : next.isRight = query.isRight) (rs : List (CallbackRegistration S P)) :
    runCallback (running query.isRight (r' :: rs)) (some r.callback) query =
      .ok (holding next (r' :: rs), some ⟨r.callback.id, query⟩, false) := by
  have htag : (create next).query.tag = r'.data.tag := by
    rw [CallbackRegistration.data, TaggedUnion.tag_of, ← hnext]
    cases next <;> rfl
  have hset := setNextQuery_running query.isRight (r' :: rs) next
  rw [if_pos hkind.symm] at hset
  simp only [runCallback, CallbackFunction.call, h, bind, Except.bind, hset]
  simp only [checkStateAndReturnCompletion, running, bind, Except.bind, List.map_cons,
    hasNext_create, Bool.not_true, Bool.false_eq_true, ↓reduceIte, htag]
  rfl

theorem runCallback_mismatch {r : CallbackRegistration S P} {query next : Query S P}
    (h : r.callback.next = some next) (hkind : next.isRight ≠ query.isRight)
    (rs : List (CallbackRegistration S P)) :
    runCallback (running query.isRight rs) (some r.callback) query =
      .error (.union .tagMismatch) := by
  simp only [runCallback, CallbackFunction.call, h, setNextQuery_running, Ne.symm hkind, ↓reduceIte,
    bind, Except.bind]

/-! ## A chain of invocations -/

/-- One poll of a chain: the first invocation is made if its result is there; the
poll returns true if it was the last. -/
def pollChain (ready : Nat → Bool) : List (Invocation S P) →
    List (Invocation S P) × Option (Invocation S P) × Bool
  | [] => ([], none, false)
  | i :: chain => if ready (queryId i.query) then (chain, some i, chain.isEmpty)
    else (i :: chain, none, false)

/-- The object has the invocations of `chain` before it. -/
inductive Pending : QueryCallback S P → List (Invocation S P) → Prop
  | holding (query : Query S P) (rs : List (CallbackRegistration S P)) (hne : rs ≠ [])
      (hlinked : Linked rs) (hkind : ∀ r ∈ rs, r.isPrepared = query.isRight) :
      Pending (holding query rs) (invocations query rs)
  | finished (isPrepared : Bool) : Pending (finished isPrepared) []

/-- A poll of the object is a poll of its chain. -/
theorem Pending.poll {object : QueryCallback S P} {chain : List (Invocation S P)}
    (h : Pending object chain) (ready : Nat → Bool) :
    ∃ object', object.invokeIfReady ready =
        .ok (object', (pollChain ready chain).2.1, (pollChain ready chain).2.2) ∧
      Pending object' (pollChain ready chain).1 := by
  cases h with
  | finished isPrepared =>
    exact ⟨_, invokeIfReady_finished ready isPrepared, .finished isPrepared⟩
  | holding query rs hne hlinked hkind =>
    obtain ⟨r, rs, rfl⟩ := List.exists_cons_of_ne_nil hne
    cases hready : ready (queryId query) with
    | false =>
      have hwait := invokeIfReady_wait hready (r :: rs)
      have hpoll : pollChain ready (invocations query (r :: rs)) =
          (invocations query (r :: rs), none, false) := by
        simp [invocations, pollChain, hready]
      rw [hpoll]
      exact ⟨_, hwait, .holding query _ hne hlinked hkind⟩
    | true =>
      have hr : r.isPrepared = query.isRight := hkind r (by simp)
      have hrun := invokeIfReady_run hready hr rs
      cases rs with
      | nil =>
        have hnext : r.callback.next = none := hlinked
        have hpoll : pollChain ready (invocations query [r]) =
            ([], some ⟨r.callback.id, query⟩, true) := by
          simp [invocations, pollChain, hready, hnext]
        rw [hpoll, hrun]
        exact ⟨_, runCallback_last hnext query.isRight query, .finished query.isRight⟩
      | cons r' rs =>
        obtain ⟨⟨next, hnext, hkind'⟩, hlinked'⟩ := hlinked
        have hsame : next.isRight = query.isRight := hkind'.trans (hkind r' (by simp))
        have hpoll : pollChain ready (invocations query (r :: r' :: rs)) =
            (invocations next (r' :: rs), some ⟨r.callback.id, query⟩, false) := by
          simp [invocations, pollChain, hready, hnext]
        rw [hpoll, hrun]
        refine ⟨_, runCallback_next hnext hkind' hsame rs, ?_⟩
        refine .holding next _ (by simp) hlinked' ?_
        intro r'' hmem
        rw [hsame]
        exact hkind r'' (List.mem_cons_of_mem r hmem)

/-- `n` polls of a chain, the first one being poll number `t`: what they ran and
returned, and what is left. -/
def pollChainTimes (ready : Nat → Nat → Bool) : Nat → Nat → List (Invocation S P) →
    List (Option (Invocation S P) × Bool) × List (Invocation S P)
  | _, 0, chain => ([], chain)
  | t, n + 1, chain =>
    let polled := pollChain (ready t) chain
    let rest := pollChainTimes ready (t + 1) n polled.1
    (polled.2 :: rest.1, rest.2)

theorem Pending.pollTimes {object : QueryCallback S P} {chain : List (Invocation S P)}
    (h : Pending object chain) (ready : Nat → Nat → Bool) (n : Nat)
    (polls : List (Option (Invocation S P) × Bool)) :
    ∃ object', QueryCallback.pollTimes ready n ⟨object, polls⟩ =
      .ok ⟨object', polls ++ (pollChainTimes ready polls.length n chain).1⟩ := by
  induction n generalizing object chain polls with
  | zero => exact ⟨object, by simp [QueryCallback.pollTimes, pollChainTimes]⟩
  | succ n ih =>
    obtain ⟨next, hpoll, hnext⟩ := h.poll (ready polls.length)
    obtain ⟨last, hlast⟩ := ih hnext
      (polls ++ [((pollChain (ready polls.length) chain).2.1,
        (pollChain (ready polls.length) chain).2.2)])
    refine ⟨last, ?_⟩
    simp only [QueryCallback.pollTimes, QueryCallback.poll, hpoll, bind, Except.bind]
    rw [hlast]
    simp [pollChainTimes]

theorem pollChain_split (ready : Nat → Bool) (chain : List (Invocation S P)) :
    (pollChain ready chain).2.1.toList ++ (pollChain ready chain).1 = chain := by
  cases chain with
  | nil => rfl
  | cons i chain =>
    rw [pollChain]
    split <;> rfl

theorem pollChain_completed (ready : Nat → Bool) (chain : List (Invocation S P)) :
    (pollChain ready chain).2.2 = true ↔
      (pollChain ready chain).2.1 ≠ none ∧ (pollChain ready chain).1 = [] := by
  cases chain with
  | nil => simp [pollChain]
  | cons i chain =>
    rw [pollChain]
    split <;> simp

theorem ran_cons (poll : Option (Invocation S P) × Bool)
    (polls : List (Option (Invocation S P) × Bool)) :
    ran (poll :: polls) = poll.1.toList ++ ran polls := by
  obtain ⟨i, completed⟩ := poll
  cases i <;> simp [ran]

/-- What was run and what is left are the chain. -/
theorem ran_pollChainTimes (ready : Nat → Nat → Bool) (t n : Nat) (chain : List (Invocation S P)) :
    ran (pollChainTimes ready t n chain).1 ++ (pollChainTimes ready t n chain).2 = chain := by
  induction n generalizing t chain with
  | zero => rfl
  | succ n ih =>
    rw [pollChainTimes, ran_cons, List.append_assoc, ih]
    exact pollChain_split (ready t) chain

/-- True is returned exactly by the poll that leaves nothing. -/
theorem completed_pollChainTimes {ready : Nat → Nat → Bool} {t n : Nat}
    {chain : List (Invocation S P)} {before after : List (Option (Invocation S P) × Bool)}
    {poll : Option (Invocation S P) × Bool}
    (h : (pollChainTimes ready t n chain).1 = before ++ poll :: after) :
    poll.2 = true ↔ poll.1 ≠ none ∧ ran (before ++ [poll]) = chain := by
  induction n generalizing t chain before with
  | zero => simp [pollChainTimes] at h
  | succ n ih =>
    have hsplit := pollChain_split (ready t) chain
    cases before with
    | nil =>
      obtain ⟨rfl, _⟩ := List.cons.inj h
      rw [pollChain_completed, List.nil_append, ran_cons]
      apply and_congr_right
      intro _
      constructor
      · intro hrest
        rw [hrest] at hsplit
        exact hsplit
      · intro hran
        exact (List.append_cancel_left (hran.trans hsplit.symm)).symm
    | cons first before =>
      obtain ⟨rfl, hrest⟩ := List.cons.inj h
      rw [ih hrest, List.cons_append, ran_cons]
      apply and_congr_right
      intro _
      constructor
      · intro hran
        rw [hran]
        exact hsplit
      · intro hran
        exact List.append_cancel_left (hran.trans hsplit.symm)

theorem pollChainTimes_add (ready : Nat → Nat → Bool) (t m n : Nat)
    (chain : List (Invocation S P)) :
    (pollChainTimes ready t (m + n) chain).2 =
      (pollChainTimes ready (t + m) n (pollChainTimes ready t m chain).2).2 := by
  induction m generalizing t chain with
  | zero => simp [pollChainTimes]
  | succ m ih =>
    have ht : t + 1 + m = t + (m + 1) := by omega
    rw [Nat.add_right_comm, pollChainTimes]
    simp only [ih, pollChainTimes, ht]

/-- Polling until the first result is there takes the first invocation off. -/
theorem exists_pollChain_tail {ready : Nat → Nat → Bool} {i : Invocation S P} {k t : Nat}
    (h : ∀ t' ≥ t + k, ready t' (queryId i.query) = true) (chain : List (Invocation S P)) :
    ∃ n, (pollChainTimes ready t n (i :: chain)).2 = chain := by
  induction k generalizing t with
  | zero => exact ⟨1, by simp [pollChainTimes, pollChain, h t (Nat.le_refl t)]⟩
  | succ k ih =>
    cases hready : ready t (queryId i.query) with
    | true => exact ⟨1, by simp [pollChainTimes, pollChain, hready]⟩
    | false =>
      obtain ⟨n, hn⟩ := ih (t := t + 1) (fun t' ht => h t' (by omega))
      refine ⟨n + 1, ?_⟩
      simpa [pollChainTimes, pollChain, hready] using hn

/-- A chain whose results all come is run to its end. -/
theorem exists_pollChain_nil {ready : Nat → Nat → Bool} {chain : List (Invocation S P)}
    (h : ∀ i ∈ chain, ∃ t₀, ∀ t ≥ t₀, ready t (queryId i.query) = true) (t : Nat) :
    ∃ n, (pollChainTimes ready t n chain).2 = [] := by
  induction chain generalizing t with
  | nil => exact ⟨0, rfl⟩
  | cons i chain ih =>
    obtain ⟨t₀, ht₀⟩ := h i (by simp)
    obtain ⟨m, hm⟩ := exists_pollChain_tail (k := t₀) (t := t)
      (fun t' ht => ht₀ t' (by omega)) chain
    obtain ⟨n, hn⟩ := ih (fun j hj => h j (List.mem_cons_of_mem i hj)) (t + m)
    refine ⟨m + n, ?_⟩
    rw [pollChainTimes_add, hm]
    exact hn

theorem Pending.runsInOrder {object : QueryCallback S P} {chain : List (Invocation S P)}
    (h : Pending object chain) : RunsInOrder object chain where
  ordered := by
    intro ready n
    obtain ⟨object', hrun⟩ := h.pollTimes ready n []
    refine ⟨_, hrun, ?_, ?_⟩
    · exact ⟨_, ran_pollChainTimes ready 0 n chain⟩
    · intro before poll after hpolls
      exact completed_pollChainTimes hpolls
  complete := by
    intro ready hready
    obtain ⟨n, hn⟩ := exists_pollChain_nil hready 0
    obtain ⟨object', hrun⟩ := h.pollTimes ready n []
    refine ⟨n, _, hrun, ?_⟩
    have hran := ran_pollChainTimes ready 0 n chain
    rw [hn, List.append_nil] at hran
    exact hran

/-! ## Chains of both kinds -/

/-- With all results there, a chain whose kinds differ stops at the first query of
the other kind. -/
theorem pollTimes_mismatch {query : Query S P} {rs : List (CallbackRegistration S P)}
    (hlinked : Linked rs) (hhead : ∀ r ∈ rs.head?, r.isPrepared = query.isRight)
    (hmixed : ∃ r ∈ rs, r.isPrepared ≠ query.isRight)
    (polls : List (Option (Invocation S P) × Bool)) :
    ∃ n fault, pollTimes (fun _ _ => true) n ⟨holding query rs, polls⟩ = .error fault := by
  induction rs generalizing query polls with
  | nil =>
    obtain ⟨r, hr, _⟩ := hmixed
    cases hr
  | cons r rs ih =>
    have hr : r.isPrepared = query.isRight := hhead r rfl
    have hrun : (holding query (r :: rs)).invokeIfReady (fun _ => true) =
        runCallback (running query.isRight rs) (some r.callback) query :=
      invokeIfReady_run rfl hr rs
    cases rs with
    | nil =>
      obtain ⟨r', hr', hne⟩ := hmixed
      rw [List.mem_singleton.mp hr'] at hne
      exact absurd hr hne
    | cons r' rs =>
      obtain ⟨⟨next, hnext, hkind⟩, hlinked'⟩ := hlinked
      by_cases hsame : next.isRight = query.isRight
      · rw [runCallback_next hnext hkind hsame] at hrun
        have hmixed' : ∃ r'' ∈ r' :: rs, r''.isPrepared ≠ next.isRight := by
          obtain ⟨r'', hmem, hne⟩ := hmixed
          rcases List.mem_cons.mp hmem with rfl | hmem
          · exact absurd hr hne
          · exact ⟨r'', hmem, hsame ▸ hne⟩
        obtain ⟨n, fault, hfault⟩ := ih hlinked' (by simp [hkind]) hmixed'
          (polls ++ [(some ⟨r.callback.id, query⟩, false)])
        refine ⟨n + 1, fault, ?_⟩
        simp only [pollTimes, poll, hrun, bind, Except.bind]
        exact hfault
      · rw [runCallback_mismatch hnext hsame] at hrun
        refine ⟨1, .union .tagMismatch, ?_⟩
        simp only [pollTimes, poll, hrun, bind, Except.bind]

/-- The callbacks that the registration accepts run in order, once each, exactly
if there is one and all are of the kind of the first query: a mixed chain fails
the `ASSERT` in `MoveFrom`, and without callbacks the result has none to go to. -/
theorem chain_runs_iff {query : Query S P} {rs : List (CallbackRegistration S P)}
    {object : QueryCallback S P} (hlinked : Linked rs)
    (hregister : registerAll rs (create query) = .ok object) :
    RunsInOrder object (invocations query rs) ↔
      rs ≠ [] ∧ ∀ r ∈ rs, r.isPrepared = query.isRight := by
  obtain ⟨rfl, hhead⟩ := registerAll_eq_ok hregister
  constructor
  · intro h
    have hok : ∀ n fault,
        pollTimes (fun _ _ => true) n ⟨holding query rs, []⟩ ≠ .error fault := by
      intro n fault hfault
      obtain ⟨s, hs, _⟩ := h.ordered (fun _ _ => true) n
      rw [hs] at hfault
      cases hfault
    constructor
    · rintro rfl
      apply hok 1 .emptyQueue
      have hempty : (create query).invokeIfReady (fun _ => true) = .error .emptyQueue :=
        invokeIfReady_empty rfl
      rw [holding_nil]
      simp only [pollTimes, poll, hempty, bind, Except.bind]
    · intro r hmem
      apply Decidable.byContradiction
      intro hne
      obtain ⟨n, fault, hfault⟩ := pollTimes_mismatch hlinked hhead ⟨r, hmem, hne⟩ []
      exact hok n fault hfault
  · rintro ⟨hne, hkind⟩
    exact (Pending.holding query rs hne hlinked hkind).runsInOrder

/-- A string query with one chaining callback that hands a second string query to
the callback behind it. -/
theorem chain_runs_twice :
    ∃ object : QueryCallback Unit Unit,
      registerAll [.withChainingCallback ⟨0, some (.inl ⟨1, ()⟩)⟩, .withCallback 1]
        (create (.inl ⟨0, ()⟩)) = .ok object ∧
      RunsInOrder object (invocations (.inl ⟨0, ()⟩)
        [.withChainingCallback ⟨0, some (.inl ⟨1, ()⟩)⟩, .withCallback 1]) := by
  have hlinked : Linked (S := Unit) (P := Unit)
      [.withChainingCallback ⟨0, some (.inl ⟨1, ()⟩)⟩, .withCallback 1] := ⟨⟨_, rfl, rfl⟩, rfl⟩
  exact ⟨_, rfl, (chain_runs_iff hlinked rfl).mpr ⟨by simp, by decide⟩⟩

/-- The same with a prepared query as the second: the registration accepts it, and
the first poll fails the `ASSERT` in `MoveFrom`. -/
theorem mixed_chain_fails :
    ∃ (rs : List (CallbackRegistration Unit Unit)) (object : QueryCallback Unit Unit), Linked rs ∧
      registerAll rs (create (.inl ⟨0, ()⟩)) = .ok object ∧
      ¬ RunsInOrder object (invocations (.inl ⟨0, ()⟩) rs) := by
  refine ⟨[.withChainingCallback ⟨0, some (.inr ⟨1, ()⟩)⟩, .withPreparedCallback 1], _,
    ⟨⟨_, rfl, rfl⟩, rfl⟩, rfl, ?_⟩
  intro h
  obtain ⟨s, hs, _⟩ := h.ordered (fun _ _ => true) 1
  cases hs

end QueryCallback

end Mpool.Database
