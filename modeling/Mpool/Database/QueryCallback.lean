import Mpool.Lib.TaggedUnion
import Mpool.Common.AsyncCallbackProcessor

/-! `QueryCallback.cpp`: an asynchronous query and the callbacks for it. Both the
query and each callback are of one of two kinds, string or prepared, and stand in
a union with a flag beside it. A callback may hand the next query over. -/

namespace Mpool.Database

/-- The shared state behind a `std::future`, with the result it will hold. -/
structure SharedState (R : Type) where
  id : Nat
  result : R
  deriving DecidableEq

/-- A `std::future`; without a shared state it is not valid. -/
abbrev Future (R : Type) := Option (SharedState R)

/-- The future a `QueryCallback` is made from: string on the left, prepared on the
right. -/
abbrev Query (S P : Type) := SharedState S ⊕ SharedState P

/-- What a callback does apart from its own work: `next` is the query it gives to
`SetNextQuery`. -/
structure CallbackFunction (S P : Type) where
  id : Nat
  next : Option (Query S P)

/-- A `std::function`, which may be empty. -/
abbrev Callback (S P : Type) := Option (CallbackFunction S P)

abbrev QueryCallbackData (S P : Type) := TaggedUnion (Callback S P) (Callback S P)

structure QueryCallback (S P : Type) where
  query : TaggedUnion (Future S) (Future P)
  callbacks : List (QueryCallbackData S P)

/-- The failed `ASSERT`s, and the uses of what is not there. The `ASSERT` of
`MoveFrom` is `.union .tagMismatch`. -/
inductive CallbackFault where
  | union (misuse : TaggedUnion.Misuse)
  | stringOnPrepared
  | preparedOnString
  | nextBehindLast
  | nextOfWrongKind
  | emptyQueue
  | emptyFunction
  deriving DecidableEq

/-- A callback that was run, and the query it got the result of. -/
structure Invocation (S P : Type) where
  callback : Nat
  query : Query S P
  deriving DecidableEq

namespace QueryCallback

variable {S P : Type}

def used {R : Type} (r : Except TaggedUnion.Misuse R) : Except CallbackFault R :=
  r.mapError .union

/-- The two constructors. -/
def create : Query S P → QueryCallback S P
  | .inl f => ⟨.of (.inl (some f)), []⟩
  | .inr f => ⟨.of (.inr (some f)), []⟩

def moveConstruct (right : QueryCallback S P) :
    Except CallbackFault (QueryCallback S P × QueryCallback S P) := do
  let (query, rest) ← used right.query.moveConstruct
  .ok (⟨query, right.callbacks⟩, ⟨rest, []⟩)

/-- `operator=`: the object assigned to and the one moved from. -/
def moveAssign (this right : QueryCallback S P) :
    Except CallbackFault (QueryCallback S P × QueryCallback S P) := do
  let (query, rest) ← used (this.query.moveAssign right.query)
  .ok (⟨query, right.callbacks⟩, ⟨rest, []⟩)

def withChainingCallback (this : QueryCallback S P) (callback : CallbackFunction S P) :
    Except CallbackFault (QueryCallback S P) :=
  if !this.callbacks.isEmpty || !this.query.tag then
    .ok { this with callbacks := this.callbacks ++ [.of (.inl (some callback))] }
  else .error .stringOnPrepared

def withChainingPreparedCallback (this : QueryCallback S P) (callback : CallbackFunction S P) :
    Except CallbackFault (QueryCallback S P) :=
  if !this.callbacks.isEmpty || this.query.tag then
    .ok { this with callbacks := this.callbacks ++ [.of (.inr (some callback))] }
  else .error .preparedOnString

/-- `WithCallback`: the callback does not get the `QueryCallback`. -/
def withCallback (this : QueryCallback S P) (id : Nat) : Except CallbackFault (QueryCallback S P) :=
  this.withChainingCallback ⟨id, none⟩

def withPreparedCallback (this : QueryCallback S P) (id : Nat) :
    Except CallbackFault (QueryCallback S P) :=
  this.withChainingPreparedCallback ⟨id, none⟩

def setNextQuery (this next : QueryCallback S P) : Except CallbackFault (QueryCallback S P) := do
  let (query, _) ← used (this.query.moveFrom next.query)
  .ok { this with query := query }

/-- The call of a callback with the object it belongs to. -/
def CallbackFunction.call (callback : CallbackFunction S P) (this : QueryCallback S P) :
    Except CallbackFault (QueryCallback S P) :=
  match callback.next with
  | none => .ok this
  | some query => this.setNextQuery (create query)

def hasNext (this : QueryCallback S P) : Except CallbackFault Bool :=
  if this.query.tag then (used this.query.right).map Option.isSome
  else (used this.query.left).map Option.isSome

def checkStateAndReturnCompletion (this : QueryCallback S P) :
    Except CallbackFault (QueryCallback S P × Bool) :=
  match this.callbacks with
  | [] => .error .emptyQueue
  | _ :: callbacks => do
    let this := { this with callbacks := callbacks }
    let hasNext ← this.hasNext
    match callbacks with
    | [] => if hasNext then .error .nextBehindLast else .ok (this, true)
    | front :: _ =>
      if !hasNext then .ok (this, true)
      else if this.query.tag = front.tag then .ok (this, false)
      else .error .nextOfWrongKind

/-- `cb(*this, f.get())` and what follows it. -/
def runCallback (this : QueryCallback S P) (cb : Callback S P) (f : Query S P) :
    Except CallbackFault (QueryCallback S P × Option (Invocation S P) × Bool) :=
  match cb with
  | none => .error .emptyFunction
  | some callback => do
    let this ← CallbackFunction.call callback this
    let (this, completed) ← this.checkStateAndReturnCompletion
    .ok (this, some ⟨callback.id, f⟩, completed)

/-- `InvokeIfReady`; `ready` says of which shared states the result is there. The
reference to the front of the queue is used only behind a ready future. -/
def invokeIfReady (ready : Nat → Bool) (this : QueryCallback S P) :
    Except CallbackFault (QueryCallback S P × Option (Invocation S P) × Bool) :=
  if !this.query.tag then do
    match ← used this.query.left with
    | none => .ok (this, none, false)
    | some f =>
      if ready f.id then
        match this.callbacks with
        | [] => .error .emptyQueue
        | callback :: callbacks => do
          let cb ← used callback.left
          runCallback ⟨⟨false, some (.inl none)⟩, ⟨callback.tag, some (.inl none)⟩ :: callbacks⟩
            cb (.inl f)
      else .ok (this, none, false)
  else do
    match ← used this.query.right with
    | none => .ok (this, none, false)
    | some f =>
      if ready f.id then
        match this.callbacks with
        | [] => .error .emptyQueue
        | callback :: callbacks => do
          let cb ← used callback.right
          runCallback ⟨⟨true, some (.inr none)⟩, ⟨callback.tag, some (.inr none)⟩ :: callbacks⟩
            cb (.inr f)
      else .ok (this, none, false)

/-! ## In a vector -/

/-- A query whose flag tells the truth, as the constructors and the assignments
leave it. -/
def Sound (this : QueryCallback S P) : Prop := ∃ member, this.query = .of member

theorem sound_create (query : Query S P) : Sound (create query) := by
  cases query with
  | inl f => exact ⟨.inl (some f), rfl⟩
  | inr f => exact ⟨.inr (some f), rfl⟩

/-- A sound query is moved into the new one, callbacks and all. -/
theorem moveConstruct_sound {right : QueryCallback S P} (h : Sound right) :
    ∃ rest, right.moveConstruct = .ok (right, rest) ∧ Sound rest := by
  obtain ⟨query, callbacks⟩ := right
  obtain ⟨member, rfl⟩ := h
  refine ⟨⟨.of (TaggedUnion.reset member), []⟩, ?_, ⟨_, rfl⟩⟩
  simp only [moveConstruct, TaggedUnion.moveConstruct_of]
  rfl

/-- The assignment between sound queries never fails, whatever their kinds. -/
theorem moveAssign_sound {this right : QueryCallback S P} (h : Sound this) (h' : Sound right) :
    ∃ rest, this.moveAssign right = .ok (right, rest) ∧ Sound rest := by
  obtain ⟨query, callbacks⟩ := this
  obtain ⟨query', callbacks'⟩ := right
  obtain ⟨member, rfl⟩ := h
  obtain ⟨member', rfl⟩ := h'
  refine ⟨⟨.of (TaggedUnion.reset member'), []⟩, ?_, ⟨_, rfl⟩⟩
  simp only [moveAssign, TaggedUnion.moveAssign_of]
  rfl

/-- The elements of a `QueryCallbackProcessor`. -/
instance : MoveAssignable {c : QueryCallback S P // Sound c} where
  moveAssign this right :=
    match h : this.1.moveAssign right.1 with
    | .ok (value, rest) =>
      have hsound : Sound value ∧ Sound rest := by
        obtain ⟨rest', heq, hrest⟩ := moveAssign_sound this.2 right.2
        cases h.symm.trans heq
        exact ⟨right.2, hrest⟩
      (⟨value, hsound.1⟩, ⟨rest, hsound.2⟩)
    | .error _ => (right, this)
  moveAssign_fst := by
    intro this right
    obtain ⟨rest, heq, _⟩ := moveAssign_sound this.2 right.2
    split
    · next value rest' h =>
      cases h.symm.trans heq
      rfl
    · next h => cases h.symm.trans heq

end QueryCallback

end Mpool.Database
