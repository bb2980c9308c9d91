import Mpool.Lib.Except

/-! A union of two types beside a flag that says which member is alive, kept in
step by hand: members are constructed in place, destroyed and moved. A member
that is moved from is left in the state a new one has. -/

universe u

/-- `tag` is the flag; `live` is the member that is really there, if one is. -/
structure TaggedUnion (α β : Type u) where
  tag : Bool
  live : Option (α ⊕ β)

namespace TaggedUnion

variable {α β : Type u}

/-- What can go wrong: a move between unions of different tags, and the use of a
member that is not alive. -/
inductive Misuse where
  | tagMismatch
  | deadMember
  deriving DecidableEq

/-- A union whose flag tells the truth. -/
def of (member : α ⊕ β) : TaggedUnion α β := ⟨member.isRight, some member⟩

def left (u : TaggedUnion α β) : Except Misuse α :=
  match u.live with
  | some (.inl a) => .ok a
  | _ => .error .deadMember

def right (u : TaggedUnion α β) : Except Misuse β :=
  match u.live with
  | some (.inr b) => .ok b
  | _ => .error .deadMember

/-- Ends the life of the member the flag names. -/
def destroyActiveMember (u : TaggedUnion α β) : Except Misuse (TaggedUnion α β) :=
  if u.tag then u.right.map fun _ => { u with live := none }
  else u.left.map fun _ => { u with live := none }

@[simp] theorem tag_of (m : α ⊕ β) : (of m).tag = m.isRight := rfl

@[simp] theorem left_of_inl (a : α) : (of (.inl a : α ⊕ β)).left = .ok a := rfl
@[simp] theorem left_of_inr (b : β) : (of (.inr b : α ⊕ β)).left = .error .deadMember := rfl
@[simp] theorem right_of_inr (b : β) : (of (.inr b : α ⊕ β)).right = .ok b := rfl
@[simp] theorem right_of_inl (a : α) : (of (.inl a : α ⊕ β)).right = .error .deadMember := rfl

section moves

variable [Inhabited α] [Inhabited β]

/-- Starts the life of the member the flag names. -/
def constructActiveMember (u : TaggedUnion α β) : TaggedUnion α β :=
  { u with live := some (if u.tag then .inr default else .inl default) }

/-- `target = std::move(source)`, both as they are afterwards. -/
def moveFrom (target source : TaggedUnion α β) :
    Except Misuse (TaggedUnion α β × TaggedUnion α β) :=
  if target.tag ≠ source.tag then .error .tagMismatch
  else if target.tag then do
    let _ ← target.right
    let b ← source.right
    .ok ({ target with live := some (.inr b) }, { source with live := some (.inr default) })
  else do
    let _ ← target.left
    let a ← source.left
    .ok ({ target with live := some (.inl a) }, { source with live := some (.inl default) })

/-- The move constructor. -/
def moveConstruct (right : TaggedUnion α β) :
    Except Misuse (TaggedUnion α β × TaggedUnion α β) :=
  (constructActiveMember ⟨right.tag, none⟩).moveFrom right

/-- The move assignment, which changes the tag where it has to. -/
def moveAssign (target right : TaggedUnion α β) :
    Except Misuse (TaggedUnion α β × TaggedUnion α β) :=
  if target.tag ≠ right.tag then do
    let target ← target.destroyActiveMember
    (constructActiveMember { target with tag := right.tag }).moveFrom right
  else target.moveFrom right

/-- A member that has been moved from. -/
def reset : α ⊕ β → α ⊕ β
  | .inl _ => .inl default
  | .inr _ => .inr default

theorem constructActiveMember_eq (u : TaggedUnion α β) :
    u.constructActiveMember = of (if u.tag then .inr default else .inl default) := by
  obtain ⟨tag, live⟩ := u
  cases tag <;> rfl

/-- Between unions of one tag a move carries the member over. -/
theorem moveFrom_of (m m' : α ⊕ β) (h : m.isRight = m'.isRight) :
    (of m).moveFrom (of m') = .ok (of m', of (reset m')) := by
  cases m <;> cases m' <;> first | rfl | cases h

theorem moveConstruct_of (m : α ⊕ β) : moveConstruct (of m) = .ok (of m, of (reset m)) := by
  rw [moveConstruct, constructActiveMember_eq]
  apply moveFrom_of
  cases m <;> rfl

/-- The assignment never fails: where the tags differ the old member makes place
for a new one. -/
theorem moveAssign_of (m m' : α ⊕ β) :
    (of m).moveAssign (of m') = .ok (of m', of (reset m')) := by
  cases m <;> cases m' <;> rfl

end moves

end TaggedUnion
