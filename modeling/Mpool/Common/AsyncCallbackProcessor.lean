import Mathlib.Data.List.Nodup
import Mathlib.Data.List.Perm.Subperm
import Mpool.Lib.Runs

/-! `AsyncCallbackProcessor.h`: a pass polls the callbacks in a vector that has been
moved out, while `AddCallback` may be called from inside a callback. Every callback
carries the number of the `AddCallback` call it came with, so that a history of
calls tells which callback was polled when. -/

namespace Mpool

/-- What `std::remove_if` asks of the elements of a vector: the object assigned to
gets the value of the one moved from, which is left in some state. -/
class MoveAssignable (T : Type) where
  moveAssign : T → T → T × T
  moveAssign_fst : ∀ target right, (moveAssign target right).1 = right

/-- A callback with its number, which moves along with it. -/
structure Numbered (T : Type) where
  number : Nat
  value : T

def Numbered.moveAssign {T : Type} [MoveAssignable T] (target right : Numbered T) :
    Numbered T × Numbered T :=
  let (value, rest) := MoveAssignable.moveAssign target.value right.value
  (⟨right.number, value⟩, ⟨right.number, rest⟩)

@[simp] theorem Numbered.moveAssign_fst {T : Type} [MoveAssignable T] (target right : Numbered T) :
    (target.moveAssign right).1 = right := by
  simp [moveAssign, MoveAssignable.moveAssign_fst]

namespace AsyncCallbackProcessor

variable {σ T : Type}

/-- `polled`: the callback before and after a call of `InvokeIfReady`, and what that
returned. -/
inductive Event (T : Type) where
  | added (callback : Numbered T)
  | polled (number : Nat) (before after : T) (completed : Bool)

/-- One call from outside; a pass has the events that happened in it. -/
inductive Entry (T : Type) where
  | addCallback (callback : Numbered T)
  | pass (events : List (Event T))

end AsyncCallbackProcessor

open AsyncCallbackProcessor in
/-- `added` counts the calls of `AddCallback`; `world` is all that decides which
callbacks are ready. -/
structure AsyncCallbackProcessor (σ T : Type) where
  callbacks : List (Numbered T)
  world : σ
  added : Nat
  history : List (Entry T)

namespace AsyncCallbackProcessor

variable {σ T : Type}

def create (world : σ) : AsyncCallbackProcessor σ T := ⟨[], world, 0, []⟩

def addCallback (this : AsyncCallbackProcessor σ T) (query : T) : AsyncCallbackProcessor σ T :=
  { this with
    callbacks := this.callbacks ++ [⟨this.added, query⟩]
    added := this.added + 1 }

/-- A pass that is running: the processor, and what has happened so far. -/
structure Running (σ T : Type) where
  processor : AsyncCallbackProcessor σ T
  events : List (Event T)

/-- `AddCallback` from inside a callback. -/
def reenter (s : Running σ T) (query : T) : Running σ T :=
  ⟨s.processor.addCallback query, s.events ++ [.added ⟨s.processor.added, query⟩]⟩

section pass

-- `InvokeIfReady`: the callback afterwards, whether it is done, the callbacks it
-- added, and the world afterwards.
variable (invokeIfReady : σ → T → T × Bool × List T × σ)

def poll (s : Running σ T) (callback : Numbered T) : Numbered T × Bool × Running σ T :=
  let (value, completed, queries, world) := invokeIfReady s.processor.world callback.value
  let s := queries.foldl reenter { s with processor := { s.processor with world := world } }
  (⟨callback.number, value⟩, completed,
    { s with events := s.events ++ [.polled callback.number callback.value value completed] })

variable [MoveAssignable T]

/-- `std::remove_if` in place: `kept` are the elements up to the write position,
`holes` those between it and the read position, done or moved from. While there is
no hole the element is not moved. -/
def removeIf (kept holes : List (Numbered T)) : List (Numbered T) → Running σ T →
    List (Numbered T) × Running σ T
  | [], s => (kept, s)
  | callback :: rest, s =>
    let (callback, completed, s) := poll invokeIfReady s callback
    if completed then removeIf kept (holes ++ [callback]) rest s
    else match holes with
      | [] => removeIf (kept ++ [callback]) [] rest s
      | hole :: holes =>
        let (hole, callback) := hole.moveAssign callback
        removeIf (kept ++ [hole]) (holes ++ [callback]) rest s

/-- The processor afterwards, and the events of the pass. -/
def processReadyCallbacks (this : AsyncCallbackProcessor σ T) :
    AsyncCallbackProcessor σ T × List (Event T) :=
  if this.callbacks.isEmpty then (this, [])
  else
    let updateCallbacks := this.callbacks
    let (updateCallbacks, s) :=
      removeIf invokeIfReady [] [] updateCallbacks ⟨{ this with callbacks := [] }, []⟩
    ({ s.processor with callbacks := s.processor.callbacks ++ updateCallbacks }, s.events)

/-- A call from outside. -/
inductive Call (T : Type) where
  | addCallback (query : T)
  | processReadyCallbacks

/-- Every call leaves one entry in the history. -/
def step (this : AsyncCallbackProcessor σ T) : Call T → AsyncCallbackProcessor σ T
  | .addCallback query =>
    { this.addCallback query with
      history := this.history ++ [.addCallback ⟨this.added, query⟩] }
  | .processReadyCallbacks =>
    let (processor, events) := this.processReadyCallbacks invokeIfReady
    { processor with history := this.history ++ [.pass events] }

end pass

/-! ## What the history has to tell -/

section recorded

variable (invokeIfReady : σ → T → T × Bool × List T × σ)

/-- The events of polls made one after the other: each `InvokeIfReady` runs in the
world the one before left, and its additions come before it returns. -/
inductive Polled : σ → List (Event T) → σ → Prop
  | nil (world : σ) : Polled world [] world
  | poll {world world' : σ} {events : List (Event T)} (callback : Numbered T)
      (queries : List (Numbered T))
      (h : queries.map Numbered.value = (invokeIfReady world callback.value).2.2.1)
      (rest : Polled (invokeIfReady world callback.value).2.2.2 events world') :
      Polled world
        (queries.map .added ++ .polled callback.number callback.value
          (invokeIfReady world callback.value).1 (invokeIfReady world callback.value).2.1 ::
            events) world'

/-- One entry for each call, in order, and in a pass what its polls did. -/
inductive Recorded : σ → List (Call T) → List (Entry T) → σ → Prop
  | nil (world : σ) : Recorded world [] [] world
  | addCallback {world world' : σ} {calls : List (Call T)} {history : List (Entry T)}
      (callback : Numbered T) (rest : Recorded world calls history world') :
      Recorded world (.addCallback callback.value :: calls) (.addCallback callback :: history)
        world'
  | pass {world world' world'' : σ} {calls : List (Call T)} {history : List (Entry T)}
      {events : List (Event T)} (h : Polled invokeIfReady world events world')
      (rest : Recorded world' calls history world'') :
      Recorded world (.processReadyCallbacks :: calls) (.pass events :: history) world''

end recorded

def Entry.events : Entry T → List (Event T)
  | .addCallback callback => [.added callback]
  | .pass events => events

def eventsOf (history : List (Entry T)) : List (Event T) := history.flatMap Entry.events

def Event.isPollOf (n : Nat) : Event T → Bool
  | .added _ => false
  | .polled m _ _ _ => m == n

def polls (n : Nat) (events : List (Event T)) : Nat := events.countP (Event.isPollOf n)

/-- Callback `n` was added, and no poll of it returned true. -/
def Outstanding (n : Nat) (events : List (Event T)) : Prop :=
  (∃ value, .added ⟨n, value⟩ ∈ events) ∧ ∀ value value', .polled n value value' true ∉ events

/-- The value an event leaves callback `n` with. -/
def Event.value (n : Nat) : Event T → Option T
  | .added callback => if callback.number = n then some callback.value else none
  | .polled m _ after _ => if m = n then some after else none

def current (n : Nat) (events : List (Event T)) : Option T :=
  (events.filterMap (Event.value n)).getLast?

/-- The callbacks an event sequence adds. -/
def addedIn (events : List (Event T)) : List (Numbered T) :=
  events.filterMap fun
    | .added callback => some callback
    | .polled _ _ _ _ => none

/-- Every pass polls what was added before it and is not done, once each, and
nothing else. Every addition has a number of its own. The poll that returns true is
the last one of its callback; every poll finds the callback as the one before left
it. What is not done is in the vector, once. -/
structure LosesNothing (callbacks : List (Numbered T)) (history : List (Entry T)) : Prop where
  once : ∀ before pass after, history = before ++ .pass pass :: after → ∀ n,
    (Outstanding n (eventsOf before) → polls n pass = 1) ∧
      (¬ Outstanding n (eventsOf before) → polls n pass = 0)
  neverAgain : ∀ n before value value' after,
    eventsOf history = before ++ .polled n value value' true :: after → polls n after = 0
  sameCallback : ∀ n before value value' completed after,
    eventsOf history = before ++ .polled n value value' completed :: after →
      current n before = some value
  numbers : ((addedIn (eventsOf history)).map Numbered.number).Nodup
  kept : ∀ n, n ∈ callbacks.map Numbered.number ↔ Outstanding n (eventsOf history)
  distinct : (callbacks.map Numbered.number).Nodup

/-- What is in both vectors is in the same order in both. -/
def KeepsOrder (callbacks next : List (Numbered T)) : Prop :=
  ((callbacks.map Numbered.number).filter fun n => n ∈ next.map Numbered.number).Sublist
    (next.map Numbered.number)

/-! ## The events of one pass -/

/-- The callbacks an event sequence polls, as they are before the poll. -/
def polledIn (events : List (Event T)) : List (Numbered T) :=
  events.filterMap fun
    | .added _ => none
    | .polled n before _ _ => some ⟨n, before⟩

/-- Those whose poll did not return true, as they are after it. -/
def survivorsIn (events : List (Event T)) : List (Numbered T) :=
  events.filterMap fun
    | .polled n _ after false => some ⟨n, after⟩
    | _ => none

theorem polledIn_append (events new : List (Event T)) :
    polledIn (events ++ new) = polledIn events ++ polledIn new := List.filterMap_append

theorem survivorsIn_append (events new : List (Event T)) :
    survivorsIn (events ++ new) = survivorsIn events ++ survivorsIn new := List.filterMap_append

theorem addedIn_append (events new : List (Event T)) :
    addedIn (events ++ new) = addedIn events ++ addedIn new := List.filterMap_append

@[simp] theorem polledIn_added (queries : List (Numbered T)) :
    polledIn (queries.map .added) = [] := by simp [polledIn]

@[simp] theorem survivorsIn_added (queries : List (Numbered T)) :
    survivorsIn (queries.map .added) = [] := by simp [survivorsIn]

theorem mem_polledIn {c : Numbered T} {events : List (Event T)} :
    c ∈ polledIn events ↔ ∃ after completed, .polled c.number c.value after completed ∈ events := by
  simp only [polledIn, List.mem_filterMap]
  constructor
  · rintro ⟨e, he, hc⟩
    cases e with
    | added callback => cases hc
    | polled n before after completed =>
      cases hc
      exact ⟨after, completed, he⟩
  · rintro ⟨after, completed, he⟩
    exact ⟨_, he, rfl⟩

theorem mem_survivorsIn {c : Numbered T} {events : List (Event T)} :
    c ∈ survivorsIn events ↔ ∃ before, .polled c.number before c.value false ∈ events := by
  simp only [survivorsIn, List.mem_filterMap]
  constructor
  · rintro ⟨e, he, hc⟩
    cases e with
    | added callback => cases hc
    | polled n before after completed =>
      cases completed with
      | true => cases hc
      | false =>
        cases hc
        exact ⟨before, he⟩
  · rintro ⟨before, he⟩
    exact ⟨_, he, rfl⟩

theorem mem_addedIn {c : Numbered T} {events : List (Event T)} :
    c ∈ addedIn events ↔ .added c ∈ events := by
  simp only [addedIn, List.mem_filterMap]
  constructor
  · rintro ⟨e, he, hc⟩
    cases e with
    | added callback =>
      cases hc
      exact he
    | polled n before after completed => cases hc
  · intro he
    exact ⟨_, he, rfl⟩

theorem survivorsIn_sublist (events : List (Event T)) :
    ((survivorsIn events).map Numbered.number).Sublist
      ((polledIn events).map Numbered.number) := by
  induction events with
  | nil => exact List.Sublist.refl _
  | cons e events ih =>
    cases e with
    | added callback => exact ih
    | polled n before after completed =>
      cases completed with
      | true => exact ih.cons n
      | false => exact ih.cons_cons n

theorem polls_eq_count (n : Nat) (events : List (Event T)) :
    polls n events = ((polledIn events).map Numbered.number).count n := by
  induction events with
  | nil => rfl
  | cons e events ih =>
    cases e with
    | added callback =>
      rw [polls, List.countP_cons_of_neg (by simp [Event.isPollOf])]
      exact ih
    | polled m before after completed =>
      have hrest : (polledIn (Event.polled m before after completed :: events)).map
          Numbered.number = m :: (polledIn events).map Numbered.number := rfl
      rw [hrest, List.count_cons, ← ih, polls, List.countP_cons]
      rfl

theorem polls_append (n : Nat) (events events' : List (Event T)) :
    polls n (events ++ events') = polls n events + polls n events' := List.countP_append

@[simp] theorem polls_polled_self (n : Nat) (before after : T) (completed : Bool)
    (events : List (Event T)) :
    polls n (.polled n before after completed :: events) = polls n events + 1 := by
  simp [polls, Event.isPollOf]

theorem polls_eq_zero {n : Nat} {events : List (Event T)}
    (h : events.filterMap (Event.value n) = []) : polls n events = 0 := by
  rw [polls, List.countP_eq_zero]
  rw [List.filterMap_eq_nil_iff] at h
  intro e he hpoll
  have hvalue := h e he
  cases e with
  | added callback => cases hpoll
  | polled m before after completed =>
    have hm : m = n := by simpa [Event.isPollOf] using hpoll
    simp [Event.value, hm] at hvalue

/-- An event that leaves callback `n` with a value is its addition or a poll of it. -/
theorem exists_value_iff {n : Nat} {events : List (Event T)} :
    events.filterMap (Event.value n) ≠ [] ↔
      (∃ value, .added ⟨n, value⟩ ∈ events) ∨ polls n events ≠ 0 := by
  constructor
  · intro h
    obtain ⟨value, hmem⟩ := List.exists_mem_of_ne_nil _ h
    obtain ⟨e, he, hvalue⟩ := List.mem_filterMap.mp hmem
    cases e with
    | added callback =>
      obtain ⟨m, v⟩ := callback
      by_cases hm : m = n
      · exact Or.inl ⟨v, hm ▸ he⟩
      · simp [Event.value, hm] at hvalue
    | polled m before after completed =>
      apply Or.inr
      by_cases hm : m = n
      · intro hzero
        exact List.countP_eq_zero.mp hzero _ he (by simp [Event.isPollOf, hm])
      · simp [Event.value, hm] at hvalue
  · rintro (⟨value, he⟩ | hpolls) hnil
    · have hvalue := List.filterMap_eq_nil_iff.mp hnil _ he
      simp [Event.value] at hvalue
    · exact hpolls (polls_eq_zero hnil)

/-- One callback has one poll in a sequence that polls all numbers once. -/
theorem polled_unique {events : List (Event T)}
    (h : ((polledIn events).map Numbered.number).Nodup) {n : Nat} {v v' w w' : T} {c c' : Bool}
    (he : .polled n v v' c ∈ events) (he' : .polled n w w' c' ∈ events) :
    v = w ∧ v' = w' ∧ c = c' := by
  induction events with
  | nil => cases he
  | cons e events ih =>
    have hmem : ∀ {x x' : T} {d : Bool}, Event.polled n x x' d ∈ events →
        n ∈ (polledIn events).map Numbered.number :=
      fun hx => List.mem_map.mpr ⟨⟨n, _⟩, mem_polledIn.mpr ⟨_, _, hx⟩, rfl⟩
    cases e with
    | added callback =>
      exact ih h ((List.mem_cons.mp he).resolve_left nofun)
        ((List.mem_cons.mp he').resolve_left nofun)
    | polled m before after completed =>
      obtain ⟨hm, hnodup⟩ := List.nodup_cons.mp h
      rcases List.mem_cons.mp he with heq | hin
      · rcases List.mem_cons.mp he' with heq' | hin'
        · cases heq
          cases heq'
          exact ⟨rfl, rfl, rfl⟩
        · cases heq
          exact absurd (hmem hin') hm
      · rcases List.mem_cons.mp he' with heq' | hin'
        · cases heq'
          exact absurd (hmem hin) hm
        · exact ih hnodup hin hin'

/-! ## Passes as such

What a processor is for, without the vector and the moves: a pass polls the
callbacks there are, in order; afterwards there are those added during the pass and
those it left, in order. -/

inductive Passes : List (Numbered T) → Nat → List (Entry T) → Prop
  | empty : Passes [] 0 []
  | add {callbacks : List (Numbered T)} {added : Nat} {history : List (Entry T)} (query : T) :
      Passes callbacks added history →
      Passes (callbacks ++ [⟨added, query⟩]) (added + 1)
        (history ++ [.addCallback ⟨added, query⟩])
  | pass {callbacks : List (Numbered T)} {added : Nat} {history : List (Entry T)}
      (events : List (Event T)) (hpolled : polledIn events = callbacks)
      (hadded : (addedIn events).map Numbered.number = List.range' added (addedIn events).length) :
      Passes callbacks added history →
      Passes (addedIn events ++ survivorsIn events) (added + (addedIn events).length)
        (history ++ [.pass events])

/-- What holds of the callbacks between the calls: the numbers from `added` on are
not used yet, and each callback has the value its last event left it with. -/
structure Tracked (callbacks : List (Numbered T)) (added : Nat) (events : List (Event T)) :
    Prop where
  distinct : (callbacks.map Numbered.number).Nodup
  fresh : ∀ n ≥ added, events.filterMap (Event.value n) = []
  kept : ∀ n, n ∈ callbacks.map Numbered.number ↔ Outstanding n events
  value : ∀ c ∈ callbacks, current c.number events = some c.value

theorem Outstanding.not_fresh {n : Nat} {events : List (Event T)} (h : Outstanding n events) :
    events.filterMap (Event.value n) ≠ [] := by
  apply exists_value_iff.mpr
  exact Or.inl h.1

theorem Tracked.lt_added {callbacks : List (Numbered T)} {added : Nat} {events : List (Event T)}
    (h : Tracked callbacks added events) {n : Nat} (hn : n ∈ callbacks.map Numbered.number) :
    n < added := by
  apply Decidable.byContradiction
  intro hge
  exact ((h.kept n).mp hn).not_fresh (h.fresh n (by omega))

/-- A number that has no event yet has none that completes it. -/
theorem not_completed_of_fresh {n : Nat} {events : List (Event T)}
    (h : events.filterMap (Event.value n) = []) (value value' : T) :
    .polled n value value' true ∉ events := by
  intro hmem
  have hvalue := List.filterMap_eq_nil_iff.mp h _ hmem
  simp [Event.value] at hvalue

theorem eventsOf_append (history history' : List (Entry T)) :
    eventsOf (history ++ history') = eventsOf history ++ eventsOf history' :=
  List.flatMap_append

theorem eventsOf_singleton (entry : Entry T) : eventsOf [entry] = entry.events :=
  List.flatMap_singleton ..

theorem outstanding_append {n : Nat} {events events' : List (Event T)} :
    Outstanding n (events ++ events') ↔
      ((∃ value, .added ⟨n, value⟩ ∈ events) ∨ ∃ value, .added ⟨n, value⟩ ∈ events') ∧
      (∀ value value', .polled n value value' true ∉ events) ∧
        ∀ value value', .polled n value value' true ∉ events' := by
  simp only [Outstanding, List.mem_append, not_or, exists_or, forall_and]

theorem current_append {n : Nat} {events events' : List (Event T)}
    (h : events'.filterMap (Event.value n) = []) :
    current n (events ++ events') = current n events := by
  rw [current, List.filterMap_append, h, List.append_nil, current]

theorem current_append_of_forall {n : Nat} {events events' : List (Event T)} {value : T}
    (hne : events'.filterMap (Event.value n) ≠ [])
    (h : ∀ v ∈ events'.filterMap (Event.value n), v = value) :
    current n (events ++ events') = some value := by
  rw [current, List.filterMap_append, List.getLast?_append_of_ne_nil _ hne,
    List.getLast?_eq_some_getLast hne]
  exact congrArg some (h _ (List.getLast_mem hne))

theorem current_concat {n : Nat} {events : List (Event T)} {e : Event T} {value : T}
    (h : e.value n = some value) : current n (events ++ [e]) = some value := by
  simp [current, h]

theorem Tracked.add {callbacks : List (Numbered T)} {added : Nat} {events : List (Event T)}
    (h : Tracked callbacks added events) (query : T) :
    Tracked (callbacks ++ [⟨added, query⟩]) (added + 1)
      (events ++ [.added ⟨added, query⟩]) where
  distinct := by
    rw [List.map_append, List.map_singleton]
    apply List.Nodup.append h.distinct (List.nodup_singleton added)
    rw [List.disjoint_singleton]
    intro hmem
    exact absurd (h.lt_added hmem) (Nat.lt_irrefl added)
  fresh := by
    intro n hn
    rw [List.filterMap_append, h.fresh n (by omega)]
    have hne : added ≠ n := by omega
    simp [Event.value, hne]
  kept := by
    intro n
    rw [outstanding_append, List.map_append, List.mem_append, h.kept, Outstanding]
    have hfresh := not_completed_of_fresh (h.fresh added (Nat.le_refl added))
    constructor
    · rintro (⟨hadd, hdone⟩ | hn)
      · exact ⟨Or.inl hadd, hdone, by simp⟩
      · have hn : n = added := by simpa using hn
        subst hn
        exact ⟨Or.inr ⟨query, by simp⟩, hfresh, by simp⟩
    · rintro ⟨hadd | ⟨value, hadd⟩, hdone, _⟩
      · exact Or.inl ⟨hadd, hdone⟩
      · cases List.mem_singleton.mp hadd
        exact Or.inr (by simp)
  value := by
    intro c hc
    rcases List.mem_append.mp hc with hold | hnew
    · have hlt := h.lt_added (List.mem_map_of_mem hold)
      have hne : added ≠ c.number := by omega
      rw [current_append (by simp [Event.value, hne])]
      exact h.value c hold
    · rw [List.mem_singleton.mp hnew]
      exact current_concat (by simp [Event.value])

/-! A pass, with the numbers it may use. -/

section onePass

variable {callbacks : List (Numbered T)} {added : Nat} {events new : List (Event T)}

theorem added_mem_pass
    (hadded : (addedIn new).map Numbered.number = List.range' added (addedIn new).length)
    {n : Nat} : (∃ value, .added ⟨n, value⟩ ∈ new) ↔
      added ≤ n ∧ n < added + (addedIn new).length := by
  have hmem : (∃ value, .added ⟨n, value⟩ ∈ new) ↔ n ∈ (addedIn new).map Numbered.number := by
    rw [List.mem_map]
    constructor
    · rintro ⟨value, hv⟩
      exact ⟨_, mem_addedIn.mpr hv, rfl⟩
    · rintro ⟨c, hc, rfl⟩
      exact ⟨c.value, mem_addedIn.mp hc⟩
  rw [hmem, hadded, List.mem_range'_1]

/-- The pass polls the callbacks once each. -/
theorem Tracked.polls_pass (h : Tracked callbacks added events) (hpolled : polledIn new = callbacks)
    (n : Nat) : polls n new = if n ∈ callbacks.map Numbered.number then 1 else 0 := by
  rw [polls_eq_count, hpolled]
  split
  · next hmem => exact List.count_eq_one_of_mem h.distinct hmem
  · next hmem => exact List.count_eq_zero_of_not_mem hmem

/-- Before its poll the pass has no event of a callback there was. -/
theorem Tracked.no_event (h : Tracked callbacks added events) (hpolled : polledIn new = callbacks)
    (hadded : (addedIn new).map Numbered.number = List.range' added (addedIn new).length)
    {n : Nat} {before after : List (Event T)} {v v' : T} {c : Bool}
    (hsplit : new = before ++ .polled n v v' c :: after) :
    before.filterMap (Event.value n) = [] ∧ after.filterMap (Event.value n) = [] := by
  have hin : n ∈ callbacks.map Numbered.number := by
    rw [← hpolled]
    refine List.mem_map.mpr ⟨⟨n, v⟩, mem_polledIn.mpr ⟨v', c, ?_⟩, rfl⟩
    rw [hsplit]
    simp
  have hlt := h.lt_added hin
  have hcount := h.polls_pass hpolled n
  rw [if_pos hin, hsplit, polls_append, polls_polled_self] at hcount
  have hnone : ∀ part : List (Event T), (∀ e ∈ part, e ∈ new) → polls n part = 0 →
      part.filterMap (Event.value n) = [] := by
    intro part hpart hzero
    apply Decidable.byContradiction
    intro hne
    rcases exists_value_iff.mp hne with ⟨value, hmem⟩ | hpolls
    · have hge := ((added_mem_pass hadded).mp ⟨value, hpart _ hmem⟩).1
      omega
    · exact hpolls hzero
  constructor
  · apply hnone before _ (by omega)
    intro e he
    rw [hsplit]
    exact List.mem_append_left _ he
  · apply hnone after _ (by omega)
    intro e he
    rw [hsplit]
    exact List.mem_append_right _ (List.mem_cons_of_mem _ he)

/-- What the vector holds behind the pass is what is still outstanding. -/
theorem Tracked.kept_pass (h : Tracked callbacks added events) (hpolled : polledIn new = callbacks)
    (hadded : (addedIn new).map Numbered.number = List.range' added (addedIn new).length)
    (n : Nat) :
    n ∈ (addedIn new ++ survivorsIn new).map Numbered.number ↔ Outstanding n (events ++ new) := by
  have hnodup : ((polledIn new).map Numbered.number).Nodup := hpolled ▸ h.distinct
  rw [outstanding_append, List.map_append, List.mem_append, hadded, List.mem_range'_1,
    ← added_mem_pass hadded]
  constructor
  · rintro (⟨value, hadd⟩ | hsurvive)
    · have hge := ((added_mem_pass hadded).mp ⟨value, hadd⟩).1
      refine ⟨Or.inr ⟨value, hadd⟩, not_completed_of_fresh (h.fresh n hge), ?_⟩
      intro v v' hmem
      have hin : n ∈ callbacks.map Numbered.number :=
        hpolled ▸ List.mem_map.mpr ⟨⟨n, v⟩, mem_polledIn.mpr ⟨v', true, hmem⟩, rfl⟩
      have hlt := h.lt_added hin
      omega
    · obtain ⟨c, hc, rfl⟩ := List.mem_map.mp hsurvive
      obtain ⟨before, hmem⟩ := mem_survivorsIn.mp hc
      have hin : c.number ∈ callbacks.map Numbered.number :=
        hpolled ▸ (survivorsIn_sublist new).subset hsurvive
      obtain ⟨hadd, hdone⟩ := (h.kept c.number).mp hin
      refine ⟨Or.inl hadd, hdone, ?_⟩
      intro v v' hmem'
      cases (polled_unique hnodup hmem hmem').2.2
  · rintro ⟨hadd | hadd, hdone, hpass⟩
    · have hin : n ∈ (polledIn new).map Numbered.number :=
        hpolled ▸ (h.kept n).mpr ⟨hadd, hdone⟩
      obtain ⟨c, hc, rfl⟩ := List.mem_map.mp hin
      obtain ⟨after, completed, hmem⟩ := mem_polledIn.mp hc
      cases completed with
      | true => exact absurd hmem (hpass _ _)
      | false =>
        exact Or.inr (List.mem_map.mpr ⟨⟨c.number, after⟩, mem_survivorsIn.mpr ⟨_, hmem⟩, rfl⟩)
    · exact Or.inl hadd

theorem Tracked.value_added (h : Tracked callbacks added events)
    (hpolled : polledIn new = callbacks)
    (hadded : (addedIn new).map Numbered.number = List.range' added (addedIn new).length)
    {c : Numbered T} (hnew : c ∈ addedIn new) :
    current c.number (events ++ new) = some c.value := by
  have hmem := mem_addedIn.mp hnew
  have hnodup : ((addedIn new).map Numbered.number).Nodup := hadded ▸ List.nodup_range'
  apply current_append_of_forall (exists_value_iff.mpr (Or.inl ⟨c.value, hmem⟩))
  intro v hv
  obtain ⟨e, he, hvalue⟩ := List.mem_filterMap.mp hv
  cases e with
  | added callback =>
    have hnumber : callback.number = c.number := by
      apply Decidable.byContradiction
      intro hne
      simp [Event.value, hne] at hvalue
    have hc := List.inj_on_of_nodup_map hnodup (mem_addedIn.mpr he) hnew hnumber
    simpa [Event.value, hc] using hvalue.symm
  | polled m before after completed =>
    have hm : m = c.number := by
      apply Decidable.byContradiction
      intro hne
      simp [Event.value, hne] at hvalue
    have hin : m ∈ callbacks.map Numbered.number :=
      hpolled ▸ List.mem_map.mpr ⟨⟨m, before⟩, mem_polledIn.mpr ⟨after, completed, he⟩, rfl⟩
    have hlt := h.lt_added hin
    have hge := ((added_mem_pass hadded).mp ⟨c.value, hmem⟩).1
    omega

theorem Tracked.value_survivor (h : Tracked callbacks added events)
    (hpolled : polledIn new = callbacks)
    (hadded : (addedIn new).map Numbered.number = List.range' added (addedIn new).length)
    {c : Numbered T} (hold : c ∈ survivorsIn new) :
    current c.number (events ++ new) = some c.value := by
  obtain ⟨before, hmem⟩ := mem_survivorsIn.mp hold
  obtain ⟨front, back, hsplit⟩ := List.append_of_mem hmem
  have hback := (h.no_event hpolled hadded hsplit).2
  have hshift : events ++ new =
      (events ++ front ++ [.polled c.number before c.value false]) ++ back := by
    simp [hsplit]
  rw [hshift, current_append hback]
  exact current_concat (by simp [Event.value])

theorem Tracked.pass (h : Tracked callbacks added events) (hpolled : polledIn new = callbacks)
    (hadded : (addedIn new).map Numbered.number = List.range' added (addedIn new).length) :
    Tracked (addedIn new ++ survivorsIn new) (added + (addedIn new).length)
      (events ++ new) where
  distinct := by
    have hsub : ((survivorsIn new).map Numbered.number).Sublist (callbacks.map Numbered.number) :=
      hpolled ▸ survivorsIn_sublist new
    rw [List.map_append, hadded]
    apply List.Nodup.append List.nodup_range' (h.distinct.sublist hsub)
    intro n hnew hold
    have hge := (List.mem_range'_1.mp hnew).1
    have hlt := h.lt_added (hsub.subset hold)
    omega
  fresh := by
    intro n hn
    rw [List.filterMap_append, h.fresh n (by omega), List.nil_append]
    apply Decidable.byContradiction
    intro hne
    rcases exists_value_iff.mp hne with hmem | hpolls
    · have hlt := ((added_mem_pass hadded).mp hmem).2
      omega
    · rw [h.polls_pass hpolled] at hpolls
      have hin : n ∈ callbacks.map Numbered.number := by simpa using hpolls
      have hlt := h.lt_added hin
      omega
  kept := h.kept_pass hpolled hadded
  value := by
    intro c hc
    rcases List.mem_append.mp hc with hnew | hold
    · exact h.value_added hpolled hadded hnew
    · exact h.value_survivor hpolled hadded hold

end onePass

/-! ## Whole histories -/

theorem append_eq_append_cons {α : Type} {l new before after : List α} {x : α}
    (h : l ++ new = before ++ x :: after) :
    (∃ rest, l = before ++ x :: rest ∧ after = rest ++ new) ∨
      ∃ front, before = l ++ front ∧ new = front ++ x :: after := by
  rcases List.append_eq_append_iff.mp h with ⟨front, hbefore, hnew⟩ | ⟨rest, hl, hafter⟩
  · exact Or.inr ⟨front, hbefore, hnew⟩
  · cases rest with
    | nil => exact Or.inr ⟨[], by simpa using hl.symm, by simpa using hafter.symm⟩
    | cons y rest =>
      cases hafter
      exact Or.inl ⟨rest, hl, rfl⟩

/-- The events between which every poll finds its callback as it was left, and no
callback is polled when it is done. -/
structure Proper (events : List (Event T)) : Prop where
  neverAgain : ∀ n before value value' after,
    events = before ++ .polled n value value' true :: after → polls n after = 0
  sameCallback : ∀ n before value value' completed after,
    events = before ++ .polled n value value' completed :: after → current n before = some value

theorem Proper.append {events new : List (Event T)} (h : Proper events)
    (hdone : ∀ n value value', .polled n value value' true ∈ events → polls n new = 0)
    (hnew : ∀ n front value value' completed after,
      new = front ++ .polled n value value' completed :: after →
        polls n after = 0 ∧ current n (events ++ front) = some value) :
    Proper (events ++ new) where
  neverAgain := by
    intro n before value value' after hsplit
    rcases append_eq_append_cons hsplit with ⟨rest, hevents, rfl⟩ | ⟨front, rfl, hpass⟩
    · have hzero := hdone n value value' (by rw [hevents]; simp)
      rw [polls_append, h.neverAgain n before value value' rest hevents, hzero]
    · exact (hnew n front value value' true after hpass).1
  sameCallback := by
    intro n before value value' completed after hsplit
    rcases append_eq_append_cons hsplit with ⟨rest, hevents, rfl⟩ | ⟨front, rfl, hpass⟩
    · exact h.sameCallback n before value value' completed rest hevents
    · exact (hnew n front value value' completed after hpass).2

theorem Tracked.proper_pass {callbacks : List (Numbered T)} {added : Nat}
    {events new : List (Event T)} (h : Tracked callbacks added events)
    (hpolled : polledIn new = callbacks)
    (hadded : (addedIn new).map Numbered.number = List.range' added (addedIn new).length)
    (hproper : Proper events) : Proper (events ++ new) := by
  apply hproper.append
  · intro n value value' hmem
    rw [h.polls_pass hpolled, if_neg]
    intro hin
    exact ((h.kept n).mp hin).2 value value' hmem
  · intro n front value value' completed after hsplit
    obtain ⟨hfront, hafter⟩ := h.no_event hpolled hadded hsplit
    have hmem : (⟨n, value⟩ : Numbered T) ∈ callbacks := by
      rw [← hpolled]
      exact mem_polledIn.mpr ⟨value', completed, by rw [hsplit]; simp⟩
    constructor
    · exact polls_eq_zero hafter
    · rw [current_append hfront]
      exact h.value _ hmem

theorem Passes.tracked {callbacks : List (Numbered T)} {added : Nat} {history : List (Entry T)}
    (h : Passes callbacks added history) : Tracked callbacks added (eventsOf history) := by
  induction h with
  | empty =>
    refine ⟨List.nodup_nil, fun _ _ => rfl, ?_, nofun⟩
    intro n
    constructor
    · intro hmem
      cases hmem
    · rintro ⟨⟨value, hmem⟩, _⟩
      cases hmem
  | add query _ ih =>
    rw [eventsOf_append, eventsOf_singleton]
    exact ih.add query
  | pass events hpolled hadded _ ih =>
    rw [eventsOf_append, eventsOf_singleton]
    exact ih.pass hpolled hadded

theorem Passes.proper {callbacks : List (Numbered T)} {added : Nat} {history : List (Entry T)}
    (h : Passes callbacks added history) : Proper (eventsOf history) := by
  induction h with
  | empty =>
    constructor
    · intro n before value value' after hsplit
      simp [eventsOf] at hsplit
    · intro n before value value' completed after hsplit
      simp [eventsOf] at hsplit
  | add query _ ih =>
    rw [eventsOf_append, eventsOf_singleton]
    apply ih.append
    · intro n value value' _
      rfl
    · intro n front value value' completed after hsplit
      cases front with
      | nil => cases hsplit
      | cons e front =>
        have hlength := congrArg List.length hsplit
        simp [Entry.events] at hlength
  | pass events hpolled hadded hpasses ih =>
    rw [eventsOf_append, eventsOf_singleton]
    exact hpasses.tracked.proper_pass hpolled hadded ih

theorem Passes.once {callbacks : List (Numbered T)} {added : Nat} {history : List (Entry T)}
    (h : Passes callbacks added history) {before after : List (Entry T)} {new : List (Event T)}
    (hsplit : history = before ++ .pass new :: after) (n : Nat) :
    (Outstanding n (eventsOf before) → polls n new = 1) ∧
      (¬ Outstanding n (eventsOf before) → polls n new = 0) := by
  induction h generalizing after with
  | empty => simp at hsplit
  | add query _ ih =>
    rcases append_eq_append_cons hsplit with ⟨rest, hhistory, _⟩ | ⟨front, _, hlast⟩
    · exact ih hhistory
    · cases front <;> simp at hlast
  | pass events hpolled hadded hpasses ih =>
    rcases append_eq_append_cons hsplit with ⟨rest, hhistory, _⟩ | ⟨front, rfl, hlast⟩
    · exact ih hhistory
    · cases front with
      | cons entry front => simp at hlast
      | nil =>
        cases hlast
        rw [List.append_nil, ← hpasses.tracked.kept, hpasses.tracked.polls_pass hpolled]
        exact ⟨fun hin => if_pos hin, fun hout => if_neg hout⟩

/-- The additions are numbered as they come. -/
theorem Passes.numbers {callbacks : List (Numbered T)} {added : Nat} {history : List (Entry T)}
    (h : Passes callbacks added history) :
    (addedIn (eventsOf history)).map Numbered.number = List.range' 0 added := by
  induction h with
  | empty => rfl
  | @add callbacks added history query _ ih =>
    rw [eventsOf_append, eventsOf_singleton, addedIn_append, List.map_append, ih, Entry.events,
      ← List.range'_append_1, Nat.zero_add]
    rfl
  | pass events hpolled hadded _ ih =>
    rw [eventsOf_append, eventsOf_singleton, addedIn_append, List.map_append, ih, Entry.events,
      hadded, ← List.range'_append_1, Nat.zero_add]

theorem Passes.losesNothing {callbacks : List (Numbered T)} {added : Nat}
    {history : List (Entry T)} (h : Passes callbacks added history) :
    LosesNothing callbacks history where
  once _ _ _ hsplit n := h.once hsplit n
  neverAgain := h.proper.neverAgain
  sameCallback := h.proper.sameCallback
  numbers := h.numbers ▸ List.nodup_range'
  kept := h.tracked.kept
  distinct := h.tracked.distinct

/-- What survives a pass is found behind what was added during it, in order. -/
theorem Tracked.keepsOrder {callbacks : List (Numbered T)} {added : Nat}
    {events new : List (Event T)} (h : Tracked callbacks added events)
    (hpolled : polledIn new = callbacks)
    (hadded : (addedIn new).map Numbered.number = List.range' added (addedIn new).length) :
    KeepsOrder callbacks (addedIn new ++ survivorsIn new) := by
  have hsub : ((survivorsIn new).map Numbered.number).Sublist (callbacks.map Numbered.number) :=
    hpolled ▸ survivorsIn_sublist new
  have hmem : ∀ n ∈ callbacks.map Numbered.number,
      (n ∈ (addedIn new ++ survivorsIn new).map Numbered.number ↔
        n ∈ (survivorsIn new).map Numbered.number) := by
    intro n hn
    have hlt := h.lt_added hn
    rw [List.map_append, List.mem_append, hadded, List.mem_range'_1]
    constructor
    · rintro (⟨hge, _⟩ | hin)
      · omega
      · exact hin
    · exact Or.inr
  have hfilter : (callbacks.map Numbered.number).filter
      (fun n => n ∈ (addedIn new ++ survivorsIn new).map Numbered.number) =
        (survivorsIn new).map Numbered.number := by
    have hsubset : ∀ n ∈ (callbacks.map Numbered.number).filter
        (fun n => n ∈ (addedIn new ++ survivorsIn new).map Numbered.number),
          n ∈ (survivorsIn new).map Numbered.number := by
      intro n hn
      obtain ⟨hin, hnext⟩ := List.mem_filter.mp hn
      exact (hmem n hin).mp (of_decide_eq_true hnext)
    have hself : ((survivorsIn new).map Numbered.number).filter
        (fun n => n ∈ (addedIn new ++ survivorsIn new).map Numbered.number) =
          (survivorsIn new).map Numbered.number := by
      apply List.filter_eq_self.mpr
      intro n hn
      exact decide_eq_true ((hmem n (hsub.subset hn)).mpr hn)
    have hle := (List.subperm_of_subset (h.distinct.filter _) hsubset).length_le
    have hsub' := hsub.filter
      (fun n => n ∈ (addedIn new ++ survivorsIn new).map Numbered.number)
    rw [hself] at hsub'
    exact (hsub'.eq_of_length_le hle).symm
  rw [KeepsOrder, hfilter, List.map_append]
  exact List.sublist_append_right _ _

/-! ## The processor makes such passes -/

/-- From `s` to `s'` the events `new` have happened: what they add is in the vector
of the processor. -/
structure Extends (s s' : Running σ T) (new : List (Event T)) : Prop where
  events : s'.events = s.events ++ new
  callbacks : s'.processor.callbacks = s.processor.callbacks ++ addedIn new
  added : s'.processor.added = s.processor.added + (addedIn new).length
  numbers : (addedIn new).map Numbered.number =
    List.range' s.processor.added (addedIn new).length
  history : s'.processor.history = s.processor.history

theorem Extends.refl (s : Running σ T) : Extends s s [] where
  events := (List.append_nil _).symm
  callbacks := (List.append_nil _).symm
  added := rfl
  numbers := rfl
  history := rfl

theorem Extends.trans {s s' s'' : Running σ T} {new new' : List (Event T)}
    (h : Extends s s' new) (h' : Extends s' s'' new') : Extends s s'' (new ++ new') where
  events := by rw [h'.events, h.events, List.append_assoc]
  callbacks := by rw [h'.callbacks, h.callbacks, addedIn_append, List.append_assoc]
  added := by rw [h'.added, h.added, addedIn_append, List.length_append, Nat.add_assoc]
  numbers := by
    rw [addedIn_append, List.map_append, h.numbers, h'.numbers, h.added, List.length_append,
      List.range'_append_1]
  history := h'.history.trans h.history

theorem reenter_extends (s : Running σ T) (query : T) :
    Extends s (reenter s query) [.added ⟨s.processor.added, query⟩] where
  events := rfl
  callbacks := rfl
  added := rfl
  numbers := rfl
  history := rfl

theorem foldl_reenter_extends (queries : List T) (s : Running σ T) :
    ∃ numbered : List (Numbered T),
      Extends s (queries.foldl reenter s) (numbered.map .added) ∧
      numbered.map Numbered.value = queries ∧
      (queries.foldl reenter s).processor.world = s.processor.world := by
  induction queries generalizing s with
  | nil => exact ⟨[], .refl s, rfl, rfl⟩
  | cons query queries ih =>
    obtain ⟨numbered, hnew, hqueries, hworld⟩ := ih (reenter s query)
    exact ⟨⟨s.processor.added, query⟩ :: numbered, (reenter_extends s query).trans hnew,
      congrArg (query :: ·) hqueries, hworld⟩

section pass

variable (invokeIfReady : σ → T → T × Bool × List T × σ)

theorem Polled.append {invokeIfReady : σ → T → T × Bool × List T × σ} {world world' world'' : σ}
    {events events' : List (Event T)} (h : Polled invokeIfReady world events world')
    (h' : Polled invokeIfReady world' events' world'') :
    Polled invokeIfReady world (events ++ events') world'' := by
  induction h with
  | nil world => exact h'
  | poll callback queries hqueries _ ih =>
    rw [List.append_assoc, List.cons_append]
    exact .poll callback queries hqueries (ih h')

theorem poll_extends (s : Running σ T) (callback : Numbered T) :
    ∃ new, Extends s (poll invokeIfReady s callback).2.2 new ∧
      Polled invokeIfReady s.processor.world new
        (poll invokeIfReady s callback).2.2.processor.world ∧
      polledIn new = [callback] ∧
      survivorsIn new = if (poll invokeIfReady s callback).2.1 then []
        else [(poll invokeIfReady s callback).1] := by
  have hpoll : ∀ queries : List (Numbered T),
      queries.map Numbered.value = (invokeIfReady s.processor.world callback.value).2.2.1 →
      Polled invokeIfReady s.processor.world
        (queries.map .added ++ [.polled callback.number callback.value
          (invokeIfReady s.processor.world callback.value).1
          (invokeIfReady s.processor.world callback.value).2.1])
        (invokeIfReady s.processor.world callback.value).2.2.2 :=
    fun queries h => .poll callback queries h (.nil _)
  unfold poll
  generalize invokeIfReady s.processor.world callback.value = result at hpoll ⊢
  obtain ⟨value, completed, queries, world⟩ := result
  have hstart : Extends s { s with processor := { s.processor with world := world } } [] :=
    ⟨(List.append_nil _).symm, (List.append_nil _).symm, rfl, rfl, rfl⟩
  obtain ⟨numbered, hnew, hqueries, hworld⟩ := foldl_reenter_extends queries
    { s with processor := { s.processor with world := world } }
  have hevent : ∀ s' : Running σ T, Extends s'
      { s' with events := s'.events ++ [.polled callback.number callback.value value completed] }
      [.polled callback.number callback.value value completed] :=
    fun s' => ⟨rfl, (List.append_nil _).symm, rfl, rfl, rfl⟩
  refine ⟨_, (hstart.trans hnew).trans (hevent _), ?_, ?_, ?_⟩
  · exact hworld.symm ▸ hpoll numbered hqueries
  · rw [polledIn_append, List.nil_append, polledIn_added]
    rfl
  · rw [survivorsIn_append, List.nil_append, survivorsIn_added]
    cases completed <;> rfl

variable [MoveAssignable T]

/-- The elements polled are `rest`, and those that stay are put behind `kept`,
whether they have to be moved there or not. -/
theorem removeIf_extends (kept holes rest : List (Numbered T)) (s : Running σ T) :
    ∃ new, Extends s (removeIf invokeIfReady kept holes rest s).2 new ∧
      Polled invokeIfReady s.processor.world new
        (removeIf invokeIfReady kept holes rest s).2.processor.world ∧
      polledIn new = rest ∧
      (removeIf invokeIfReady kept holes rest s).1 = kept ++ survivorsIn new := by
  induction rest generalizing kept holes s with
  | nil => exact ⟨[], .refl s, .nil _, rfl, (List.append_nil _).symm⟩
  | cons callback rest ih =>
    obtain ⟨first, hfirst, hpoll, hpolled, hsurvivors⟩ := poll_extends invokeIfReady s callback
    rw [removeIf]
    generalize poll invokeIfReady s callback = polled at *
    obtain ⟨callback', completed, s'⟩ := polled
    have hput : ∀ kept' holes', kept' = kept ++ survivorsIn first →
        ∃ new, Extends s (removeIf invokeIfReady kept' holes' rest s').2 new ∧
          Polled invokeIfReady s.processor.world new
            (removeIf invokeIfReady kept' holes' rest s').2.processor.world ∧
          polledIn new = callback :: rest ∧
          (removeIf invokeIfReady kept' holes' rest s').1 = kept ++ survivorsIn new := by
      intro kept' holes' hkept
      obtain ⟨new, hnew, hpolls, hrest, hresult⟩ := ih kept' holes' s'
      refine ⟨first ++ new, hfirst.trans hnew, hpoll.append hpolls, ?_, ?_⟩
      · rw [polledIn_append, hpolled, hrest]
        rfl
      · rw [hresult, hkept, survivorsIn_append, List.append_assoc]
    cases completed with
    | true =>
      apply hput
      rw [hsurvivors]
      exact (List.append_nil kept).symm
    | false =>
      cases holes with
      | nil =>
        apply hput
        rw [hsurvivors]
        rfl
      | cons hole holes =>
        apply hput
        rw [hsurvivors]
        exact congrArg (fun c => kept ++ [c]) (Numbered.moveAssign_fst hole callback')

theorem processReadyCallbacks_eq (this : AsyncCallbackProcessor σ T) :
    ∃ new, (this.processReadyCallbacks invokeIfReady).2 = new ∧
      Polled invokeIfReady this.world new (this.processReadyCallbacks invokeIfReady).1.world ∧
      polledIn new = this.callbacks ∧
      (addedIn new).map Numbered.number = List.range' this.added (addedIn new).length ∧
      (this.processReadyCallbacks invokeIfReady).1.callbacks = addedIn new ++ survivorsIn new ∧
      (this.processReadyCallbacks invokeIfReady).1.added = this.added + (addedIn new).length := by
  unfold processReadyCallbacks
  split
  · next hempty =>
    have hnil := List.isEmpty_iff.mp hempty
    exact ⟨[], rfl, .nil _, hnil.symm, rfl, hnil, rfl⟩
  · obtain ⟨new, hnew, hpolls, hpolled, hkept⟩ :=
      removeIf_extends invokeIfReady [] [] this.callbacks ⟨{ this with callbacks := [] }, []⟩
    refine ⟨new, hnew.events, hpolls, hpolled, hnew.numbers, ?_, hnew.added⟩
    simp only [hkept, hnew.callbacks, List.nil_append]

theorem Passes.step {this : AsyncCallbackProcessor σ T}
    (h : Passes this.callbacks this.added this.history) (call : Call T) :
    Passes (AsyncCallbackProcessor.step invokeIfReady this call).callbacks
      (AsyncCallbackProcessor.step invokeIfReady this call).added
      (AsyncCallbackProcessor.step invokeIfReady this call).history := by
  cases call with
  | addCallback query => exact .add query h
  | processReadyCallbacks =>
    obtain ⟨new, hevents, -, hpolled, hnumbers, hcallbacks, hadded⟩ :=
      processReadyCallbacks_eq invokeIfReady this
    simp only [AsyncCallbackProcessor.step]
    rw [hcallbacks, hadded, hevents]
    exact .pass new hpolled hnumbers h

theorem Passes.run (world : σ) (calls : List (Call T)) :
    Passes (Runs.run (AsyncCallbackProcessor.step invokeIfReady) (create world) calls).callbacks
      (Runs.run (AsyncCallbackProcessor.step invokeIfReady) (create world) calls).added
      (Runs.run (AsyncCallbackProcessor.step invokeIfReady) (create world) calls).history := by
  apply Runs.run_invariant (P := fun this : AsyncCallbackProcessor σ T =>
    Passes this.callbacks this.added this.history)
  · intro this call h
    exact h.step invokeIfReady call
  · exact .empty

theorem recorded_run (this : AsyncCallbackProcessor σ T) (calls : List (Call T)) :
    ∃ new, (Runs.run (step invokeIfReady) this calls).history = this.history ++ new ∧
      Recorded invokeIfReady this.world calls new
        (Runs.run (step invokeIfReady) this calls).world := by
  induction calls generalizing this with
  | nil => exact ⟨[], (List.append_nil _).symm, .nil _⟩
  | cons call calls ih =>
    rw [Runs.run_cons]
    obtain ⟨new, hhistory, hrest⟩ := ih (step invokeIfReady this call)
    cases call with
    | addCallback query =>
      refine ⟨.addCallback ⟨this.added, query⟩ :: new, ?_, .addCallback ⟨this.added, query⟩ hrest⟩
      rw [hhistory, step, List.append_assoc]
      rfl
    | processReadyCallbacks =>
      obtain ⟨events, hevents, hpolls, -⟩ := processReadyCallbacks_eq invokeIfReady this
      refine ⟨.pass events :: new, ?_, .pass hpolls hrest⟩
      rw [hhistory, step, ← hevents, List.append_assoc]
      rfl

/-- After any calls, with any additions made from inside callbacks and any pattern
of readiness: the history records the calls and what `InvokeIfReady` did in each
pass, nothing is lost or polled twice, and the next pass keeps the order of what it
leaves. -/
theorem processed_exactly_once (world : σ) (calls : List (Call T)) :
    Recorded invokeIfReady world calls
        (Runs.run (step invokeIfReady) (create world) calls).history
        (Runs.run (step invokeIfReady) (create world) calls).world ∧
      LosesNothing (Runs.run (step invokeIfReady) (create world) calls).callbacks
        (Runs.run (step invokeIfReady) (create world) calls).history ∧
      KeepsOrder (Runs.run (step invokeIfReady) (create world) calls).callbacks
        ((Runs.run (step invokeIfReady) (create world) calls).processReadyCallbacks
          invokeIfReady).1.callbacks := by
  have hrun := Passes.run invokeIfReady world calls
  refine ⟨?_, hrun.losesNothing, ?_⟩
  · obtain ⟨new, hhistory, hrecorded⟩ := recorded_run invokeIfReady (create world) calls
    rw [hhistory]
    exact hrecorded
  · obtain ⟨new, -, -, hpolled, hnumbers, hcallbacks, -⟩ := processReadyCallbacks_eq invokeIfReady
      (Runs.run (step invokeIfReady) (create world) calls)
    rw [hcallbacks]
    exact hrun.tracked.keepsOrder hpolled hnumbers

end pass

/-- A callback that is a number is copied. -/
instance : MoveAssignable Nat := ⟨fun _ right => (right, right), fun _ _ => rfl⟩

/-- Callbacks that count their polls down: the one that is ready first adds another
from inside the pass. -/
theorem countdown_polled :
    let invokeIfReady : Unit → Nat → Nat × Bool × List Nat × Unit :=
      fun _ left => (left - 1, left = 0, if left = 0 then [3] else [], ())
    let this := Runs.run (step invokeIfReady) (create ())
      [.addCallback 1, .addCallback 0, .processReadyCallbacks]
    this.history = [.addCallback ⟨0, 1⟩, .addCallback ⟨1, 0⟩,
        .pass [.polled 0 1 0 false, .added ⟨2, 3⟩, .polled 1 0 0 true]] ∧
      LosesNothing this.callbacks this.history ∧
      this.callbacks.map Numbered.number = [2, 0] := by
  intro invokeIfReady this
  exact ⟨rfl, (processed_exactly_once invokeIfReady () _).2.1, rfl⟩

end AsyncCallbackProcessor

end Mpool
