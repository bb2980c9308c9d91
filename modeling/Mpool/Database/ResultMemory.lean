import Mpool.Lib.Runs
import Mpool.Lib.SlotLedger
import Mpool.Database.QueryResult

/-! Who frees the memory of prepared results: the arrays each `PreparedResultSet`
allocates, the metadata it is given, and the two arrays it leaves with the statement, over
the whole life of one `MySQLPreparedStatement` and of all results made from it. -/

namespace Mpool.Database

open Runs

/-- The pointers to what is allocated for results: `length` and `is_null` are those of
`m_stmt->bind`, `m_length` and `m_isNull` the locals of the constructor, and the others the
members of the result with that number; `buffer` is `m_rBind->buffer`. -/
inductive ResultSlot where
  | length | is_null
  | m_length | m_isNull
  | m_rBind (result : Nat) | buffer (result : Nat) | m_metadataResult (result : Nat)
  deriving DecidableEq

abbrev ResultOp := SlotOp Unit ResultSlot

/-- `PreparedResultSet::CleanUp`; it frees `m_metadataResult` and does not reset it. -/
def cleanUpOps (result : Nat) : List ResultOp :=
  [.free (.m_metadataResult result),
    .read (.m_rBind result), .free (.buffer result), .free (.m_rBind result),
    .forget (.buffer result), .forget (.m_rBind result)]

/-- What the statement has of an earlier result. -/
@[simp] def releaseOps (bind_result_done : Bool) : List ResultOp :=
  if bind_result_done then [.free .length, .free .is_null] else []

/-- `mysql_stmt_bind_result`. -/
@[simp] def moveOps : List ResultOp := [.move .m_length .length, .move .m_isNull .is_null]

/-- The metadata `_Query` allocates and the constructor that is given it. `copied` says
whether a `mysql_stmt_bind_result` that fails has copied the bindings to the statement. -/
def constructOps (bind_result_done : Bool) (result : Nat) (s : StmtReply) (copied : Bool) :
    List ResultOp :=
  if !s.result_metadata then []
  else
    .assign (.m_metadataResult result) () ::
    releaseOps bind_result_done ++
    ([.assign (.m_rBind result) (), .assign .m_isNull (), .assign .m_length ()] : List ResultOp) ++
    if s.store_result then
      [.free (.m_rBind result), .free .m_isNull, .free .m_length, .forget .m_isNull,
        .forget .m_length]
    else
      .assign (.buffer result) () ::
      if s.bind_result then
        if copied then
          moveOps ++ cleanUpOps result ++ ([.free .is_null, .free .length] : List ResultOp)
        else
          cleanUpOps result ++
            ([.free .m_isNull, .free .m_length, .forget .m_isNull, .forget .m_length] :
              List ResultOp)
      else moveOps

/-- `~PreparedResultSet`, after which its members are gone. -/
def destroyOps (result : Nat) : List ResultOp :=
  cleanUpOps result ++ [.forget (.m_metadataResult result)]

/-- What `~MySQLPreparedStatement` frees of the results, before `mysql_stmt_close`. -/
def closeOps (bind_result_done : Bool) : List ResultOp :=
  releaseOps bind_result_done ++ [.forget .length, .forget .is_null]

/-- `slots` is `none` once something was used or freed that was gone. `alive` has the
numbers of the results that are not destroyed. -/
structure ResultMemory where
  slots : Option (OwnedSlots Unit ResultSlot)
  bind_result_done : Bool
  closed : Bool
  created : Nat
  alive : List Nat

inductive ResultEvent where
  | construct (s : StmtReply) (copied : Bool)
  | destroy (result : Nat)
  | close

namespace ResultMemory

def start : ResultMemory := ⟨some .empty, false, false, 0, []⟩

/-- A successful `mysql_stmt_bind_result` sets `bind_result_done`. -/
def step (m : ResultMemory) : ResultEvent → ResultMemory
  | .construct s copied =>
    { m with
      slots := m.slots.bind (·.performAll (constructOps m.bind_result_done m.created s copied)),
      bind_result_done := m.bind_result_done || decide s.Fetches,
      created := m.created + 1,
      alive := m.created :: m.alive }
  | .destroy result =>
    { m with
      slots := m.slots.bind (·.performAll (destroyOps result)),
      alive := m.alive.filter (· ≠ result) }
  | .close =>
    { m with slots := m.slots.bind (·.performAll (closeOps m.bind_result_done)), closed := true }

/-- The statement is there until it is closed, and each result until it is destroyed. -/
def Enabled (m : ResultMemory) : ResultEvent → Prop
  | .construct _ _ | .close => m.closed = false
  | .destroy result => result ∈ m.alive

end ResultMemory

/-- The result has metadata and `mysql_stmt_store_result` or `mysql_stmt_bind_result` fails. -/
def ResultEvent.Fails : ResultEvent → Prop
  | .construct s _ => s.result_metadata = true ∧ ¬ s.Fetches
  | _ => False

/-! ## While no call fails -/

namespace ResultMemory

/-- The ledger when nothing has failed; `full` tells the results with metadata. -/
def expected (m : ResultMemory) (full : Nat → Bool) : SlotLedger Unit ResultSlot
  | .length | .is_null => if m.bind_result_done && !m.closed then .live () else .null
  | .m_length | .m_isNull => .null
  | .m_rBind r | .buffer r | .m_metadataResult r =>
    if r ∈ m.alive ∧ full r then .live () else .null

structure Intact (m : ResultMemory) (s : OwnedSlots Unit ResultSlot) : Prop where
  slots : m.slots = some s
  tidy : s.Tidy
  held : s.Held
  below : ∀ r ∈ m.alive, r < m.created
  ledger : ∃ full, s.ledger = m.expected full

theorem intact_start : Intact start .empty where
  slots := rfl
  tidy := OwnedSlots.tidy_empty
  held := OwnedSlots.held_empty
  below _ h := by cases h
  ledger := ⟨fun _ => false, by funext k; cases k <;> rfl⟩

/-- A list of operations that runs on the ledger runs on the heap. -/
theorem Intact.performAll {m : ResultMemory} {s : OwnedSlots Unit ResultSlot} (h : m.Intact s)
    {ops : List ResultOp} {ledger : SlotLedger Unit ResultSlot}
    (hops : s.ledger.performAll ops = some ledger) (hkeeps : s.ledger.KeepsAll ops) :
    ∃ s', m.slots.bind (·.performAll ops) = some s' ∧ s'.Tidy ∧ s'.Held ∧ s'.ledger = ledger := by
  have hrun := h.tidy.ledger_performAll ops
  rw [hops, Option.map_eq_some_iff] at hrun
  obtain ⟨s', hs', hledger⟩ := hrun
  refine ⟨s', ?_, h.tidy.performAll hs', h.held.performAll h.tidy hkeeps hs', hledger⟩
  rw [h.slots, Option.bind_some, hs']

/-- The constructor, when no call fails in it. -/
theorem expected_construct {m : ResultMemory} (hm : ∀ r ∈ m.alive, r < m.created)
    (hopen : m.closed = false) {s : StmtReply} {copied : Bool} (full : Nat → Bool)
    (hs : ¬ (ResultEvent.construct s copied).Fails) :
    (m.expected full).performAll (constructOps m.bind_result_done m.created s copied) =
        some ((m.step (.construct s copied)).expected
          (Function.update full m.created s.result_metadata)) ∧
      (m.expected full).KeepsAll (constructOps m.bind_result_done m.created s copied) := by
  have hnew : m.created ∉ m.alive := fun h => absurd (hm _ h) (Nat.lt_irrefl _)
  have hfull : ∀ b r, (r ∈ m.created :: m.alive ∧ Function.update full m.created b r = true) ↔
      (r = m.created ∧ b = true) ∨ (r ∈ m.alive ∧ full r = true) := by
    intro b r
    by_cases hr : r = m.created
    · simp [hr, hnew]
    · simp [hr]
  cases hmeta : s.result_metadata with
  | false =>
    have hfetches : ¬ s.Fetches := fun hf => by simp [hf.1] at hmeta
    simp only [constructOps, hmeta, Bool.not_false, ↓reduceIte, SlotLedger.performAll_nil,
      Option.some.injEq, SlotLedger.KeepsAll, and_true]
    funext k
    cases k <;> simp only [expected, step, hfull, hfetches] <;> simp
  | true =>
    have hfetches : s.Fetches := by
      by_contra hf
      exact hs ⟨hmeta, hf⟩
    have ⟨_, hstore, hbind⟩ := hfetches
    cases hdone : m.bind_result_done <;>
    · simp [constructOps, hmeta, hstore, hbind, SlotLedger.KeepsAll, SlotLedger.Keeps,
        SlotLedger.perform, expected, hnew, hopen, hdone]
      funext k
      cases k <;> simp only [Function.update_apply, expected, step, hfetches, hdone, hopen]
        <;> grind

/-- The destructor of a result that is there. -/
theorem expected_destroy (m : ResultMemory) (full : Nat → Bool) (result : Nat) :
    (m.expected full).performAll (destroyOps result) =
        some ((m.step (.destroy result)).expected full) ∧
      (m.expected full).KeepsAll (destroyOps result) := by
  by_cases hr : result ∈ m.alive ∧ full result = true
  · simp [destroyOps, cleanUpOps, SlotLedger.KeepsAll, SlotLedger.Keeps, SlotLedger.perform,
      expected, hr]
    funext k
    cases k <;> simp only [Function.update_apply, expected, step] <;> grind
  · simp [destroyOps, cleanUpOps, SlotLedger.KeepsAll, SlotLedger.Keeps, SlotLedger.perform,
      expected, hr]
    funext k
    cases k <;> simp only [Function.update_apply, expected, step] <;> grind

theorem expected_close {m : ResultMemory} (hopen : m.closed = false) (full : Nat → Bool) :
    (m.expected full).performAll (closeOps m.bind_result_done) =
        some ((m.step .close).expected full) ∧
      (m.expected full).KeepsAll (closeOps m.bind_result_done) := by
  cases hdone : m.bind_result_done <;>
  · simp [closeOps, SlotLedger.KeepsAll, SlotLedger.Keeps, SlotLedger.perform, expected, hopen,
      hdone]
    funext k
    cases k <;> simp only [Function.update_apply, expected, step] <;> grind

theorem Intact.step {m : ResultMemory} {s : OwnedSlots Unit ResultSlot} (h : m.Intact s)
    {event : ResultEvent} (henabled : m.Enabled event) (hs : ¬ event.Fails) :
    ∃ s', (m.step event).Intact s' := by
  obtain ⟨full, hledger⟩ := h.ledger
  cases event with
  | construct reply copied =>
    obtain ⟨hrun, hkeeps⟩ := expected_construct h.below henabled full hs
    rw [← hledger] at hrun hkeeps
    obtain ⟨s', hs', htidy, hheld, hnext⟩ := h.performAll hrun hkeeps
    refine ⟨s', hs', htidy, hheld, fun r hr => ?_, _, hnext⟩
    rcases List.mem_cons.mp hr with rfl | hr
    · exact Nat.lt_succ_self _
    · exact Nat.lt_succ_of_lt (h.below r hr)
  | destroy result =>
    obtain ⟨hrun, hkeeps⟩ := expected_destroy m full result
    rw [← hledger] at hrun hkeeps
    obtain ⟨s', hs', htidy, hheld, hnext⟩ := h.performAll hrun hkeeps
    exact ⟨s', hs', htidy, hheld, fun r hr => h.below r (List.mem_of_mem_filter hr), _, hnext⟩
  | close =>
    obtain ⟨hrun, hkeeps⟩ := expected_close henabled full
    rw [← hledger] at hrun hkeeps
    obtain ⟨s', hs', htidy, hheld, hnext⟩ := h.performAll hrun hkeeps
    exact ⟨s', hs', htidy, hheld, h.below, _, hnext⟩

/-! ## After a call has failed -/

/-- The destructor of the result will free or read what is gone. -/
def Doomed (s : OwnedSlots Unit ResultSlot) (result : Nat) : Prop :=
  s.ledger (.m_rBind result) = .dangling ∨ s.ledger (.m_metadataResult result) = .dangling

/-- Memory was misused, or a result that is not destroyed yet will do so. -/
def Failed (m : ResultMemory) : Prop :=
  ∀ s, m.slots = some s → s.Tidy ∧ (∀ r ∈ m.alive, r < m.created) ∧
    ∃ r ∈ m.alive, Doomed s r

/-- Operations on other pointers do not save a result. -/
theorem Doomed.performAll {s s' : OwnedSlots Unit ResultSlot} {r : Nat} (h : Doomed s r)
    (hs : s.Tidy) {ops : List ResultOp} (hops : s.performAll ops = some s')
    (hother : ∀ op ∈ ops, ¬ op.Writes (.m_rBind r) ∧ ¬ op.Writes (.m_metadataResult r)) :
    Doomed s' r := by
  have hrun := hs.ledger_performAll ops
  rw [hops, Option.map_some] at hrun
  rw [Doomed, SlotLedger.performAll_other (fun op hop => (hother op hop).1) hrun.symm,
    SlotLedger.performAll_other (fun op hop => (hother op hop).2) hrun.symm]
  exact h

theorem writes_constructOps {bind_result_done : Bool} {result r : Nat} {s : StmtReply}
    {copied : Bool} (hr : r ≠ result) :
    ∀ op ∈ constructOps bind_result_done result s copied,
      ¬ op.Writes (.m_rBind r) ∧ ¬ op.Writes (.m_metadataResult r) := by
  unfold constructOps cleanUpOps
  cases s.result_metadata <;> cases s.store_result <;> cases s.bind_result <;>
    cases copied <;> cases bind_result_done <;> simp [SlotOp.Writes, hr]

theorem writes_destroyOps {result r : Nat} (hr : r ≠ result) :
    ∀ op ∈ destroyOps result, ¬ op.Writes (.m_rBind r) ∧ ¬ op.Writes (.m_metadataResult r) := by
  simp [destroyOps, cleanUpOps, SlotOp.Writes, hr]

theorem writes_closeOps {bind_result_done : Bool} {r : Nat} :
    ∀ op ∈ closeOps bind_result_done,
      ¬ op.Writes (.m_rBind r) ∧ ¬ op.Writes (.m_metadataResult r) := by
  cases bind_result_done <;> simp [closeOps, SlotOp.Writes]

/-- The destructor of a doomed result does not come through. -/
theorem Doomed.destroy {s : OwnedSlots Unit ResultSlot} {r : Nat} (h : Doomed s r)
    (hs : s.Tidy) : s.performAll (destroyOps r) = none := by
  have hrun := hs.ledger_performAll (destroyOps r)
  have hnone : s.ledger.performAll (destroyOps r) = none := by
    rcases h with h | h
    · cases hmeta : s.ledger (.m_metadataResult r) <;>
        simp [destroyOps, cleanUpOps, SlotLedger.perform, h, hmeta]
    · simp [destroyOps, cleanUpOps, SlotLedger.perform, h]
  rw [hnone, Option.map_eq_none_iff] at hrun
  exact hrun

section Fails

variable {bind_result_done copied : Bool} {result : Nat} {reply : StmtReply}
  {ledger ledger' : SlotLedger Unit ResultSlot}

/-- The bindings are freed where the rows are not stored, and `m_rBind` stays. -/
theorem rBind_of_store_fails (hmeta : reply.result_metadata = true)
    (hstore : reply.store_result = true)
    (h : ledger.performAll (constructOps bind_result_done result reply copied) = some ledger') :
    ledger' (.m_rBind result) = .dangling := by
  let middle : List ResultOp := [.assign .m_isNull (), .assign .m_length ()]
  let after : List ResultOp :=
    [.free .m_isNull, .free .m_length, .forget .m_isNull, .forget .m_length]
  have hops : constructOps bind_result_done result reply copied =
      (.assign (.m_metadataResult result) () :: releaseOps bind_result_done) ++
        .assign (.m_rBind result) () :: (middle ++ .free (.m_rBind result) :: after) := by
    simp [constructOps, middle, after, hmeta, hstore]
  rw [hops] at h
  refine SlotLedger.dangling_of_freed ?_ ?_ h
  · simp [middle, SlotOp.Writes]
  · simp [after, SlotOp.Writes]

/-- The metadata is freed where the bindings are refused, and `m_metadataResult` stays. -/
theorem metadata_of_bind_fails (hmeta : reply.result_metadata = true)
    (hstore : reply.store_result = false) (hbind : reply.bind_result = true)
    (h : ledger.performAll (constructOps bind_result_done result reply copied) = some ledger') :
    ledger' (.m_metadataResult result) = .dangling := by
  let bindings : List ResultOp :=
    [.assign (.m_rBind result) (), .assign .m_isNull (), .assign .m_length (),
      .assign (.buffer result) ()]
  let lengths : List ResultOp :=
    if copied then [.free .is_null, .free .length]
    else [.free .m_isNull, .free .m_length, .forget .m_isNull, .forget .m_length]
  have hops : constructOps bind_result_done result reply copied =
      [] ++ .assign (.m_metadataResult result) () ::
        ((releaseOps bind_result_done ++ (bindings ++ if copied then moveOps else [])) ++
          .free (.m_metadataResult result) :: ((cleanUpOps result).tail ++ lengths)) := by
    cases copied <;> simp [constructOps, cleanUpOps, bindings, lengths, hmeta, hstore, hbind]
  rw [hops] at h
  refine SlotLedger.dangling_of_freed ?_ ?_ h
  · cases copied <;> cases bind_result_done <;> simp [bindings, SlotOp.Writes]
  · cases copied <;> simp [cleanUpOps, lengths, SlotOp.Writes]

end Fails

/-- A constructor in which a call fails leaves its result doomed. -/
theorem Intact.construct_fails {m : ResultMemory} {s : OwnedSlots Unit ResultSlot}
    (h : m.Intact s) {reply : StmtReply} {copied : Bool}
    (hfails : (ResultEvent.construct reply copied).Fails) :
    (m.step (.construct reply copied)).Failed := by
  intro s' hs'
  simp only [ResultMemory.step, h.slots, Option.bind_some] at hs'
  refine ⟨h.tidy.performAll hs', fun r hr => ?_, m.created, List.mem_cons_self, ?_⟩
  · rcases List.mem_cons.mp hr with rfl | hr
    · exact Nat.lt_succ_self _
    · exact Nat.lt_succ_of_lt (h.below r hr)
  · have hrun := h.tidy.ledger_performAll (constructOps m.bind_result_done m.created reply copied)
    obtain ⟨hmeta, hfetches⟩ := hfails
    rw [hs', Option.map_some] at hrun
    cases hstore : reply.store_result with
    | true => exact .inl (rBind_of_store_fails hmeta hstore hrun.symm)
    | false =>
      have hbind : reply.bind_result = true := by
        by_contra hbind
        exact hfetches ⟨hmeta, hstore, by simpa using hbind⟩
      exact .inr (metadata_of_bind_fails hmeta hstore hbind hrun.symm)

theorem Failed.step {m : ResultMemory} (h : m.Failed) (event : ResultEvent) :
    (m.step event).Failed := by
  intro s' hs'
  cases hslots : m.slots with
  | none =>
    cases event <;> simp [ResultMemory.step, hslots] at hs'
  | some s =>
    obtain ⟨htidy, hbelow, r, hr, hdoomed⟩ := h s hslots
    cases event with
    | construct reply copied =>
      simp only [ResultMemory.step, hslots, Option.bind_some] at hs'
      have hne : r ≠ m.created := Nat.ne_of_lt (hbelow r hr)
      refine ⟨htidy.performAll hs', fun q hq => ?_, r, List.mem_cons_of_mem _ hr,
        hdoomed.performAll htidy hs' (writes_constructOps hne)⟩
      rcases List.mem_cons.mp hq with rfl | hq
      · exact Nat.lt_succ_self _
      · exact Nat.lt_succ_of_lt (hbelow q hq)
    | destroy result =>
      simp only [ResultMemory.step, hslots, Option.bind_some] at hs'
      have hne : r ≠ result := by
        rintro rfl
        rw [hdoomed.destroy htidy] at hs'
        cases hs'
      exact ⟨htidy.performAll hs', fun q hq => hbelow q (List.mem_of_mem_filter hq), r,
        List.mem_filter.mpr ⟨hr, by simpa using hne⟩,
        hdoomed.performAll htidy hs' (writes_destroyOps hne)⟩
    | close =>
      simp only [ResultMemory.step, hslots, Option.bind_some] at hs'
      exact ⟨htidy.performAll hs', hbelow, r, hr,
        hdoomed.performAll htidy hs' writes_closeOps⟩

/-- Where no call has failed everything is intact; from the first that does, something fails. -/
theorem run_intact_or_failed {events : List ResultEvent} {m : ResultMemory}
    {s : OwnedSlots Unit ResultSlot} (h : m.Intact s)
    (henabled : Along ResultMemory.step Enabled m events) :
    ((∀ event ∈ events, ¬ event.Fails) ∧ ∃ s', (run ResultMemory.step m events).Intact s') ∨
      ((∃ event ∈ events, event.Fails) ∧ (run ResultMemory.step m events).Failed) := by
  induction events generalizing m s with
  | nil => exact .inl ⟨by simp, s, h⟩
  | cons event events ih =>
    by_cases hfails : event.Fails
    · refine .inr ⟨⟨event, List.mem_cons_self, hfails⟩, ?_⟩
      have hnext : (m.step event).Failed := by
        cases event with
        | construct reply copied => exact h.construct_fails hfails
        | destroy result => exact hfails.elim
        | close => exact hfails.elim
      exact run_invariant (fun _ event h => h.step event) hnext events
    · obtain ⟨s', hs'⟩ := h.step henabled.1 hfails
      rcases ih hs' henabled.2 with ⟨hgood, hrest⟩ | ⟨⟨e, he, hbad⟩, hrest⟩
      · refine .inl ⟨fun e he => ?_, hrest⟩
        rcases List.mem_cons.mp he with rfl | he
        · exact hfails
        · exact hgood e he
      · exact .inr ⟨⟨e, List.mem_cons_of_mem _ he, hbad⟩, hrest⟩

/-- Nothing is used or freed twice as long as no result fails to be stored or bound; when the
statement is closed and all results are destroyed, only such a history has come through, and
it has freed everything. -/
theorem results_freed_once {events : List ResultEvent}
    (henabled : Along step Enabled start events) :
    ((∀ event ∈ events, ¬ event.Fails) → (run step start events).slots ≠ none) ∧
      ((run step start events).closed = true → (run step start events).alive = [] →
        ∀ s, (run step start events).slots = some s →
          (∀ event ∈ events, ¬ event.Fails) ∧ ∀ p, s.heap.load p = none) := by
  rcases run_intact_or_failed intact_start henabled with ⟨hgood, s, hs⟩ | ⟨⟨e, he, hbad⟩, hfailed⟩
  · refine ⟨fun _ => by rw [hs.slots]; simp, fun hclosed halive s' hs' => ⟨hgood, ?_⟩⟩
    have heq : s' = s := Option.some.inj (hs'.symm.trans hs.slots)
    subst heq
    refine hs.held.empty_of_ledger fun k block => ?_
    obtain ⟨full, hledger⟩ := hs.ledger
    rw [hledger]
    cases k <;> simp [expected, hclosed, halive]
  · refine ⟨fun hgood => absurd hbad (hgood e he), fun _ halive s hs => ?_⟩
    obtain ⟨-, -, r, hr, -⟩ := hfailed s hs
    rw [halive] at hr
    cases hr

/-- Two results of one statement at a time, and one that cannot be stored. -/
theorem results_freed_once_overlapping :
    let reply : StmtReply := ⟨true, true, 1, 1, false, 1, false, fun _ => .noRow⟩
    (run step start [.construct reply false, .construct reply false, .destroy 0, .destroy 1,
        .close]).slots ≠ none ∧
      (run step start [.construct { reply with store_result := true } false, .destroy 0,
        .close]).slots = none := by
  intro reply
  refine ⟨(results_freed_once ?_).1 ?_, ?_⟩
  · simp [Along, Enabled, step, start]
  · simp [ResultEvent.Fails, StmtReply.Fetches, reply]
  · by_contra hslots
    obtain ⟨s, hs⟩ := Option.ne_none_iff_exists'.mp hslots
    have henabled : Along step Enabled start [.construct { reply with store_result := true } false,
        .destroy 0, .close] := by
      simp [Along, Enabled, step, start]
    have hend : (run step start [.construct { reply with store_result := true } false,
          .destroy 0, .close]).closed = true ∧
        (run step start [.construct { reply with store_result := true } false,
          .destroy 0, .close]).alive = [] := by
      simp [step, start]
    have hgood := ((results_freed_once henabled).2 hend.1 hend.2 s hs).1
    exact hgood _ List.mem_cons_self ⟨rfl, by simp [StmtReply.Fetches, reply]⟩

end ResultMemory

end Mpool.Database
