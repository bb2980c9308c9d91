import Mpool.Lib.Calls
import Mpool.Lib.OwnedSlots
import Mpool.Lib.Bytes

/-! `CryptoHash.h`: the objects of `GenericHash`, each with an `EVP_MD_CTX` of its own. They
are copied, moved and assigned in any order; to their users they are values. -/

namespace Mpool

/-! ## The contexts -/

/-- What libcrypto does with an `EVP_MD_CTX`, told by its state. `none` is a result other
than 1, and of `EVP_DigestFinal_ex` a digest of another length as well. -/
structure DigestLibrary (Ctx : Type) (n : Nat) where
  /-- `EVP_MD_CTX_new`. -/
  new : Ctx
  /-- `EVP_DigestInit_ex`. -/
  init : Ctx → Option Ctx
  /-- `EVP_MD_CTX_copy_ex`, with the state that the first context had. -/
  copy : Ctx → Ctx → Option Ctx
  /-- `EVP_DigestUpdate`. -/
  update : Bytes → Ctx → Option Ctx
  /-- `EVP_DigestFinal_ex`. -/
  final : Ctx → Option (Ctx × Octets n)

/-- What is promised of a context that was initialized and not yet finalized, where the
calls succeed: `Hashing data` are the states of one that was given `data`. -/
structure DigestLibrary.Documented {Ctx : Type} {n : Nat} (lib : DigestLibrary Ctx n)
    (hash : Bytes → Octets n) (Hashing : Bytes → Ctx → Prop) : Prop where
  init : ∀ {ctx ctx'}, lib.init ctx = some ctx' → Hashing [] ctx'
  update : ∀ {before data ctx ctx'}, Hashing before ctx → lib.update data ctx = some ctx' →
    Hashing (before ++ data) ctx'
  final : ∀ {data ctx ctx' digest}, Hashing data ctx → lib.final ctx = some (ctx', digest) →
    digest = hash data

/-! ## The objects -/

/-- What a program does with objects, which are told by numbers. -/
inductive HashCall where
  | construct (k : Nat)
  | copyConstruct (k right : Nat)
  | moveConstruct (k right : Nat)
  | copyAssign (k right : Nat)
  | moveAssign (k right : Nat)
  | updateData (k : Nat) (data : Bytes)
  | finalize (k : Nat)
  | getDigest (k : Nat)
  | destroy (k : Nat)
  deriving DecidableEq

namespace HashCall

/-- What a call returns, by the digests of the objects. -/
def answer {n : Nat} (digest : Nat → Option (Octets n)) : HashCall → Option (Octets n)
  | getDigest k => digest k
  | _ => none

def constructed : HashCall → Nat
  | construct _ | copyConstruct _ _ | moveConstruct _ _ => 1
  | _ => 0

def destroyed : HashCall → Nat
  | destroy _ => 1
  | _ => 0

/-- An assignment that leaves the context the object had. -/
def abandoned : HashCall → Nat
  | moveAssign k right => if k = right then 0 else 1
  | _ => 0

end HashCall

/-- A failed `ASSERT`; and a call for an object that is not there, or a constructor for one
that is. -/
inductive HashFault where
  | assert
  | noObject
  deriving DecidableEq

/-- `_ctx` and `_digest` of each object. An object without a context is not there. -/
structure HashObjects (Ctx : Type) (n : Nat) where
  _ctx : OwnedSlots Ctx Nat
  _digest : Nat → Octets n

namespace HashObjects

variable {Ctx : Type} {n : Nat} (lib : DigestLibrary Ctx n)

def empty : HashObjects Ctx n := ⟨.empty, fun _ => .zero n⟩

def there (s : HashObjects Ctx n) (k : Nat) : Bool := (s._ctx.pointer k).isSome

/-- `ASSERT(result == 1)`, with the context the call leaves. -/
def writeContext (s : HashObjects Ctx n) (k : Nat) (result : Option Ctx) :
    Except HashFault (HashObjects Ctx n) :=
  match result.bind (s._ctx.write k) with
  | some slots => .ok { s with _ctx := slots }
  | none => .error .assert

/-- `_ctx(MakeCTX())`, with a digest of zeros. -/
def makeContext (s : HashObjects Ctx n) (k : Nat) : HashObjects Ctx n where
  _ctx := s._ctx.assign k lib.new
  _digest := Function.update s._digest k (.zero n)

/-- `GenericHash()`. -/
def construct (s : HashObjects Ctx n) (k : Nat) : Except HashFault (HashObjects Ctx n) :=
  let s := s.makeContext lib k
  s.writeContext k ((s._ctx.content k).bind lib.init)

/-- `operator=(GenericHash const&)`. -/
def copyAssign (s : HashObjects Ctx n) (k right : Nat) : Except HashFault (HashObjects Ctx n) :=
  if k = right then .ok s
  else do
    let s ← s.writeContext k ((s._ctx.content k).bind fun out =>
      (s._ctx.content right).bind (lib.copy out))
    .ok { s with _digest := Function.update s._digest k (s._digest right) }

/-- `GenericHash(GenericHash const&)`. -/
def copyConstruct (s : HashObjects Ctx n) (k right : Nat) :
    Except HashFault (HashObjects Ctx n) :=
  (s.makeContext lib k).copyAssign lib k right

/-- `operator=(GenericHash&&)`; what `k` had is not destroyed. -/
def moveAssign (s : HashObjects Ctx n) (k right : Nat) : HashObjects Ctx n :=
  if k = right then s
  else
    { _ctx := (s._ctx.pass k right).assign right lib.new
      _digest := Function.update (Function.update s._digest k (s._digest right)) right (.zero n) }

/-- `GenericHash(GenericHash&&)`; `k` has no context before. -/
def moveConstruct (s : HashObjects Ctx n) (k right : Nat) : HashObjects Ctx n :=
  moveAssign lib { s with _digest := Function.update s._digest k (.zero n) } k right

def updateData (s : HashObjects Ctx n) (k : Nat) (data : Bytes) :
    Except HashFault (HashObjects Ctx n) :=
  s.writeContext k ((s._ctx.content k).bind (lib.update data))

def finalize (s : HashObjects Ctx n) (k : Nat) : Except HashFault (HashObjects Ctx n) :=
  match (s._ctx.content k).bind lib.final with
  | some (ctx, digest) => do
    let s ← s.writeContext k (some ctx)
    .ok { s with _digest := Function.update s._digest k digest }
  | none => .error .assert

/-- The destructor. -/
def destroy (s : HashObjects Ctx n) (k : Nat) : Except HashFault (HashObjects Ctx n) :=
  match s._ctx.release k with
  | some slots => .ok { s with _ctx := slots }
  | none => .error .noObject

/-- The objects a call is for are there, and the one it constructs is not. -/
def allows (there : Nat → Bool) : HashCall → Bool
  | .construct k => !there k
  | .copyConstruct k right | .moveConstruct k right => !there k && there right
  | .copyAssign k right | .moveAssign k right => there k && there right
  | .updateData k _ | .finalize k | .getDigest k | .destroy k => there k

def perform (s : HashObjects Ctx n) : HashCall → Except HashFault (HashObjects Ctx n)
  | .construct k => s.construct lib k
  | .copyConstruct k right => s.copyConstruct lib k right
  | .moveConstruct k right => .ok (s.moveConstruct lib k right)
  | .copyAssign k right => s.copyAssign lib k right
  | .moveAssign k right => .ok (s.moveAssign lib k right)
  | .updateData k data => s.updateData lib k data
  | .finalize k => s.finalize lib k
  | .getDigest _ => .ok s
  | .destroy k => s.destroy k

/-- A call, with the digest that `GetDigest` returns. -/
def call (s : HashObjects Ctx n) (c : HashCall) :
    Except HashFault (HashObjects Ctx n × Option (Octets n)) :=
  if allows s.there c then
    (s.perform lib c).map fun s' => (s', c.answer fun k => some (s'._digest k))
  else .error .noObject

end HashObjects

/-! ## The values -/

/-- What an object is to its user: a state of its context, which nobody else has, and the
digest. -/
abbrev HashValue (Ctx : Type) (n : Nat) := Ctx × Octets n

/-- Variables that hold such values, or nothing. -/
abbrev HashVariables (Ctx : Type) (n : Nat) := Nat → Option (HashValue Ctx n)

namespace HashVariables

variable {Ctx : Type} {n : Nat} (lib : DigestLibrary Ctx n)

/-- The variable gets a value, if the call for it succeeds. -/
def store (v : HashVariables Ctx n) (k : Nat) (value : Option (HashValue Ctx n)) :
    Option (HashVariables Ctx n) :=
  value.map fun value => Function.update v k (some value)

/-- A copy, over a context with the state `out`. -/
def copied (v : HashVariables Ctx n) (out : Ctx) (right : Nat) : Option (HashValue Ctx n) :=
  (v right).bind fun (ctx, digest) => (lib.copy out ctx).map fun ctx => (ctx, digest)

/-- What the move takes leaves a new context. -/
def moved (v : HashVariables Ctx n) (k right : Nat) : HashVariables Ctx n :=
  if k = right then v
  else Function.update (Function.update v k (v right)) right (some (lib.new, .zero n))

/-- The variables after a call; `none` is a failed assertion. -/
def perform (v : HashVariables Ctx n) : HashCall → Option (HashVariables Ctx n)
  | .construct k => v.store k ((lib.init lib.new).map fun ctx => (ctx, .zero n))
  | .copyConstruct k right => v.store k (v.copied lib lib.new right)
  | .copyAssign k right =>
    if k = right then some v
    else v.store k ((v k).bind fun (out, _) => v.copied lib out right)
  | .moveConstruct k right | .moveAssign k right => some (v.moved lib k right)
  | .updateData k data =>
    v.store k ((v k).bind fun (ctx, digest) =>
      (lib.update data ctx).map fun ctx => (ctx, digest))
  | .finalize k => v.store k ((v k).bind fun (ctx, _) => lib.final ctx)
  | .getDigest _ => some v
  | .destroy k => some (Function.update v k none)

def call (v : HashVariables Ctx n) (c : HashCall) :
    Except HashFault (HashVariables Ctx n × Option (Octets n)) :=
  if HashObjects.allows (fun k => (v k).isSome) c then
    match v.perform lib c with
    | some v' => .ok (v', c.answer fun k => (v' k).map Prod.snd)
    | none => .error .assert
  else .error .noObject

end HashVariables

/-! ## One call -/

namespace HashObjects

variable {Ctx : Type} {n : Nat} {lib : DigestLibrary Ctx n}

/-- The objects have the values. -/
structure Represents (s : HashObjects Ctx n) (v : HashVariables Ctx n) : Prop where
  sound : s._ctx.Sound
  value : ∀ k, v k = (s._ctx.content k).map fun ctx => (ctx, s._digest k)

variable {s : HashObjects Ctx n} {v : HashVariables Ctx n}

theorem represents_empty : Represents (empty : HashObjects Ctx n) fun _ => none :=
  ⟨OwnedSlots.sound_empty, fun _ => rfl⟩

theorem Represents.there (h : Represents s v) (k : Nat) : s.there k = (v k).isSome := by
  rw [HashObjects.there, ← h.sound.content_isSome, h.value, Option.isSome_map]

theorem Represents.content (h : Represents s v) {k : Nat} {value : HashValue Ctx n}
    (hk : v k = some value) : s._ctx.content k = some value.1 ∧ s._digest k = value.2 := by
  rw [h.value] at hk
  obtain ⟨ctx, hctx, rfl⟩ := Option.map_eq_some_iff.mp hk
  exact ⟨hctx, rfl⟩

/-- The context of an object becomes another one. -/
theorem Represents.writeContext (h : Represents s v) {k : Nat} {value : HashValue Ctx n}
    (hk : v k = some value) (ctx : Ctx) :
    ∃ s', s.writeContext k (some ctx) = .ok s' ∧ s'._digest = s._digest ∧
      Represents s' (Function.update v k (some (ctx, value.2))) ∧
      s'._ctx.count = s._ctx.count := by
  obtain ⟨hcontent, hdigest⟩ := h.content hk
  obtain ⟨slots, hwrite, hsound, hslots, -⟩ := h.sound.write hcontent ctx
  refine ⟨{ s with _ctx := slots }, ?_, rfl, ⟨hsound, fun l => ?_⟩,
    OwnedSlots.count_write hcontent hwrite⟩
  · simp only [HashObjects.writeContext, Option.bind_some, hwrite]
  · by_cases hl : l = k
    · subst hl
      simp [hslots, hdigest]
    · simp only [Function.update_of_ne hl, hslots]
      exact h.value l

theorem Represents.setDigest (h : Represents s v) {k : Nat} {value : HashValue Ctx n}
    (hk : v k = some value) (digest : Octets n) :
    Represents { s with _digest := Function.update s._digest k digest }
      (Function.update v k (some (value.1, digest))) where
  sound := h.sound
  value l := by
    by_cases hl : l = k
    · subst hl
      simp [(h.content hk).1]
    · simp only [Function.update_of_ne hl]
      exact h.value l

/-- The context and the digest of an object become other ones. -/
theorem Represents.writeObject (h : Represents s v) {k : Nat} {value : HashValue Ctx n}
    (hk : v k = some value) (ctx : Ctx) (digest : Octets n) :
    ∃ s', s.writeContext k (some ctx) = .ok s' ∧ s'._digest = s._digest ∧
      Represents { s' with _digest := Function.update s'._digest k digest }
        (Function.update v k (some (ctx, digest))) ∧
      s'._ctx.count = s._ctx.count := by
  obtain ⟨s', hwrite, hsame, hs', hcount⟩ := h.writeContext hk ctx
  have hset := hs'.setDigest (Function.update_self k _ v) digest
  rw [Function.update_idem] at hset
  exact ⟨s', hwrite, hsame, hset, hcount⟩

theorem ne_of_free {k right : Nat} (hk : v k = none) (hright : (v right).isSome = true) :
    k ≠ right := by
  rintro rfl
  rw [hk] at hright
  cases hright

variable (lib) in
/-- A new context for an object that is not there. -/
theorem Represents.makeContext (h : Represents s v) (k : Nat) :
    Represents (s.makeContext lib k) (Function.update v k (some (lib.new, .zero n))) where
  sound := h.sound.assign k _
  value l := by
    by_cases hl : l = k
    · subst hl
      simp [HashObjects.makeContext, h.sound.content_assign]
    · simp only [HashObjects.makeContext, Function.update_of_ne hl, h.sound.content_assign]
      exact h.value l

/-- The result of a call: a failed assertion, or values that the objects have, with
`added` contexts more. -/
inductive Performs (result : Except HashFault (HashObjects Ctx n)) (before added : Nat) :
    Option (HashVariables Ctx n) → Prop where
  | fails (h : result = .error .assert) : Performs result before added none
  | succeeds {s' : HashObjects Ctx n} {v' : HashVariables Ctx n} (h : result = .ok s')
      (hs : Represents s' v') (hcount : s'._ctx.count = before + added) :
      Performs result before added (some v')

/-- Over a context that was made before. -/
theorem Performs.of_made {result : Except HashFault (HashObjects Ctx n)} {before : Nat}
    {v' : Option (HashVariables Ctx n)} (h : Performs result (before + 1) 0 v') :
    Performs result before 1 v' := by
  cases h with
  | fails h => exact .fails h
  | succeeds h hs hcount => exact .succeeds h hs hcount

/-- A call of libcrypto for the context of an object. -/
theorem Represents.performs_writeContext (h : Represents s v) {k : Nat} {value : HashValue Ctx n}
    (hk : v k = some value) (result : Option Ctx) :
    Performs (s.writeContext k result) s._ctx.count 0
      (v.store k (result.map fun ctx => (ctx, value.2))) := by
  cases result with
  | none => exact .fails rfl
  | some ctx =>
    obtain ⟨s', hwrite, -, hs', hcount⟩ := h.writeContext hk ctx
    exact .succeeds hwrite hs' hcount

theorem Represents.construct (h : Represents s v) (k : Nat) :
    Performs (s.construct lib k) s._ctx.count 1 (v.perform lib (.construct k)) := by
  have hmade := h.makeContext lib k
  have hk := Function.update_self k (some (lib.new, Octets.zero n)) v
  have hinit := hmade.performs_writeContext hk (lib.init lib.new)
  have hcount : (s.makeContext lib k)._ctx.count = s._ctx.count + 1 :=
    OwnedSlots.count_assign _ _ _
  have hcall : s.construct lib k = (s.makeContext lib k).writeContext k (lib.init lib.new) := by
    rw [HashObjects.construct, (hmade.content hk).1, Option.bind_some]
  rw [HashVariables.perform, hcall]
  simp only [HashVariables.store, Function.update_idem, hcount, Option.map_map] at hinit ⊢
  exact hinit.of_made

variable (lib) in
/-- An object gets the value of another one, if its context can be copied. -/
theorem Represents.copyAssign (h : Represents s v) {k right : Nat} (hne : k ≠ right)
    {value : HashValue Ctx n} (hk : v k = some value) (hright : (v right).isSome = true) :
    Performs (s.copyAssign lib k right) s._ctx.count 0
      (v.store k (v.copied lib value.1 right)) := by
  obtain ⟨⟨ctx, digest⟩, hvalue⟩ := Option.isSome_iff_exists.mp hright
  obtain ⟨hcontent, hdigest⟩ := h.content hvalue
  rw [HashObjects.copyAssign, if_neg hne, (h.content hk).1, hcontent, Option.bind_some,
    Option.bind_some, HashVariables.copied, hvalue]
  simp only [Option.bind_some]
  cases hcopy : lib.copy value.1 ctx with
  | none => exact .fails rfl
  | some copied =>
    obtain ⟨s', hwrite, hsame, hs', hcount⟩ := h.writeObject hk copied digest
    rw [hwrite]
    refine .succeeds rfl ?_ hcount
    rw [show s'._digest right = digest by rw [hsame, hdigest]]
    exact hs'

theorem Represents.copyConstruct (h : Represents s v) {k right : Nat} (hk : v k = none)
    (hright : (v right).isSome = true) :
    Performs (s.copyConstruct lib k right) s._ctx.count 1
      (v.perform lib (.copyConstruct k right)) := by
  have hne := ne_of_free hk hright
  have hother := Function.update_of_ne hne.symm (some (lib.new, Octets.zero n)) v
  have hcopy := (h.makeContext lib k).copyAssign lib hne (Function.update_self k _ v)
    (hother ▸ hright)
  have hcount : (s.makeContext lib k)._ctx.count = s._ctx.count + 1 :=
    OwnedSlots.count_assign _ _ _
  simp only [HashVariables.store, HashVariables.copied, hother, Function.update_idem,
    hcount] at hcopy
  exact hcopy.of_made

/-- An object gets the value of another one, which is left with a new context. -/
theorem Represents.moveAssign (h : Represents s v) {k right : Nat} (hne : k ≠ right) :
    Represents (s.moveAssign lib k right) (v.moved lib k right) ∧
      (s.moveAssign lib k right)._ctx.count = s._ctx.count + 1 := by
  obtain ⟨hsound, hcontent⟩ := h.sound.pass hne
  simp only [HashObjects.moveAssign, HashVariables.moved, if_neg hne]
  refine ⟨⟨hsound.assign right _, fun l => ?_⟩, OwnedSlots.count_assign _ _ _⟩
  simp only [hsound.content_assign, hcontent]
  by_cases hl : l = right
  · subst hl
    simp
  · by_cases hlk : l = k
    · subst hlk
      simp [hne, h.value right]
    · simp [hl, hlk, h.value l]

theorem Represents.moveConstruct (h : Represents s v) {k right : Nat} (hk : v k = none)
    (hright : (v right).isSome = true) :
    Represents (s.moveConstruct lib k right) (v.moved lib k right) ∧
      (s.moveConstruct lib k right)._ctx.count = s._ctx.count + 1 := by
  have hne := ne_of_free hk hright
  have hempty : s._ctx.content k = none := by
    rwa [h.value, Option.map_eq_none_iff] at hk
  have hset : Represents { s with _digest := Function.update s._digest k (.zero n) } v := by
    refine ⟨h.sound, fun l => ?_⟩
    by_cases hl : l = k
    · subst hl
      rw [hk, hempty]
      rfl
    · simp only [Function.update_of_ne hl]
      exact h.value l
  exact hset.moveAssign hne

theorem Represents.updateData (h : Represents s v) {k : Nat} (hk : (v k).isSome = true)
    (data : Bytes) : Performs (s.updateData lib k data) s._ctx.count 0
      (v.perform lib (.updateData k data)) := by
  obtain ⟨⟨ctx, digest⟩, hvalue⟩ := Option.isSome_iff_exists.mp hk
  rw [HashObjects.updateData, (h.content hvalue).1, Option.bind_some, HashVariables.perform,
    hvalue]
  exact h.performs_writeContext hvalue (lib.update data ctx)

theorem Represents.finalize (h : Represents s v) {k : Nat} (hk : (v k).isSome = true) :
    Performs (s.finalize lib k) s._ctx.count 0 (v.perform lib (.finalize k)) := by
  obtain ⟨⟨ctx, digest⟩, hvalue⟩ := Option.isSome_iff_exists.mp hk
  rw [HashObjects.finalize, (h.content hvalue).1, Option.bind_some, HashVariables.perform, hvalue,
    Option.bind_some]
  simp only
  cases hfinal : lib.final ctx with
  | none => exact .fails rfl
  | some result =>
    obtain ⟨s', hwrite, -, hs', hcount⟩ := h.writeObject hvalue result.1 result.2
    simp only [hwrite]
    exact .succeeds rfl hs' hcount

/-- The context of the object is freed. -/
theorem Represents.destroy (h : Represents s v) {k : Nat} (hk : (v k).isSome = true) :
    ∃ s', s.destroy k = .ok s' ∧ Represents s' (Function.update v k none) ∧
      s'._ctx.count + 1 = s._ctx.count := by
  obtain ⟨value, hvalue⟩ := Option.isSome_iff_exists.mp hk
  obtain ⟨slots, hrelease, hsound, hslots⟩ := h.sound.release k
  refine ⟨{ s with _ctx := slots }, by rw [HashObjects.destroy, hrelease],
    ⟨hsound, fun l => ?_⟩, OwnedSlots.count_release (h.content hvalue).1 hrelease⟩
  by_cases hl : l = k
  · subst hl
    simp [hslots]
  · simp only [Function.update_of_ne hl, hslots]
    exact h.value l

/-- The same, with the contexts that are freed on the other side. -/
inductive Answers (result : Except HashFault (HashObjects Ctx n)) (before : Nat) (c : HashCall) :
    Option (HashVariables Ctx n) → Prop where
  | fails (h : result = .error .assert) : Answers result before c none
  | succeeds {s' : HashObjects Ctx n} {v' : HashVariables Ctx n} (h : result = .ok s')
      (hs : Represents s' v')
      (hcount : s'._ctx.count + c.destroyed = before + (c.constructed + c.abandoned)) :
      Answers result before c (some v')

theorem Performs.answers {result : Except HashFault (HashObjects Ctx n)} {before : Nat}
    {c : HashCall} {v' : Option (HashVariables Ctx n)} (hdestroyed : c.destroyed = 0)
    (h : Performs result before (c.constructed + c.abandoned) v') : Answers result before c v' := by
  cases h with
  | fails h => exact .fails h
  | succeeds h hs hcount => exact .succeeds h hs (by rw [hdestroyed, Nat.add_zero, hcount])

variable (lib) in
/-- What a call does, to the values and to the number of contexts. -/
theorem Represents.perform (h : Represents s v) {c : HashCall}
    (hallow : allows (fun k => (v k).isSome) c = true) :
    Answers (s.perform lib c) s._ctx.count c (v.perform lib c) := by
  cases c with
  | construct k => exact (h.construct k).answers rfl
  | copyConstruct k right =>
    simp only [allows, Bool.and_eq_true, Bool.not_eq_true', Option.isSome_eq_false_iff,
      Option.isNone_iff_eq_none] at hallow
    exact (h.copyConstruct hallow.1 hallow.2).answers rfl
  | moveConstruct k right =>
    simp only [allows, Bool.and_eq_true, Bool.not_eq_true', Option.isSome_eq_false_iff,
      Option.isNone_iff_eq_none] at hallow
    obtain ⟨hs', hcount⟩ := h.moveConstruct hallow.1 hallow.2
    exact .succeeds rfl hs' hcount
  | copyAssign k right =>
    simp only [allows, Bool.and_eq_true] at hallow
    obtain ⟨value, hk⟩ := Option.isSome_iff_exists.mp hallow.1
    by_cases hne : k = right
    · simp only [HashObjects.perform, HashObjects.copyAssign, HashVariables.perform, if_pos hne]
      exact .succeeds rfl h rfl
    · simp only [HashObjects.perform, HashVariables.perform, if_neg hne, hk, Option.bind_some]
      exact (h.copyAssign lib hne hk hallow.2).answers rfl
  | moveAssign k right =>
    by_cases hne : k = right
    · simp only [HashObjects.perform, HashObjects.moveAssign, HashVariables.perform,
        HashVariables.moved, if_pos hne]
      exact .succeeds rfl h (by simp [HashCall.destroyed, HashCall.constructed,
        HashCall.abandoned, hne])
    · obtain ⟨hs', hcount⟩ := h.moveAssign hne
      exact .succeeds rfl hs' (by simp [HashCall.destroyed, HashCall.constructed,
        HashCall.abandoned, hne, hcount])
  | updateData k data => exact (h.updateData hallow data).answers rfl
  | finalize k => exact (h.finalize hallow).answers rfl
  | getDigest k => exact .succeeds rfl h rfl
  | destroy k =>
    obtain ⟨s', hcall, hs', hcount⟩ := h.destroy hallow
    exact .succeeds hcall hs' hcount

/-! ## All calls -/

theorem call_agree (h : Represents s v) (c : HashCall) :
    Calls.Agree Represents (s.call lib c) (v.call lib c) := by
  have hthere : s.there = fun k => (v k).isSome := funext h.there
  simp only [HashObjects.call, HashVariables.call, hthere]
  by_cases hallow : allows (fun k => (v k).isSome) c = true
  · have hperform := h.perform lib hallow
    rw [if_pos hallow, if_pos hallow]
    cases hvalue : v.perform lib c with
    | none =>
      rw [hvalue] at hperform
      cases hperform with
      | fails hcall =>
        rw [hcall]
        exact .fault _
    | some v' =>
      rw [hvalue] at hperform
      cases hperform with
      | @succeeds s' _ hcall hs' _ =>
        have hanswer : c.answer (fun k => some (s'._digest k)) =
            c.answer fun k => (v' k).map Prod.snd := by
          cases c with
          | getDigest k =>
            obtain ⟨value, hk⟩ := Option.isSome_iff_exists.mp hallow
            obtain rfl := Option.some.inj hvalue
            simp only [HashCall.answer, hk, (hs'.content hk).2, Option.map_some]
          | _ => rfl
        simp only [hcall, Except.map, hanswer]
        exact .answer _ hs'
  · rw [if_neg hallow, if_neg hallow]
    exact .fault _

variable (lib) in
/-- The objects after a sequence of calls that all return. -/
def run (s : HashObjects Ctx n) (calls : List HashCall) :
    Except HashFault (HashObjects Ctx n) :=
  calls.foldlM (fun s c => (s.call lib c).map Prod.fst) s

theorem Represents.run (h : Represents s v) {calls : List HashCall} {s' : HashObjects Ctx n}
    (hrun : s.run lib calls = .ok s') :
    (∃ v', Represents s' v') ∧
      s'._ctx.count + (calls.map HashCall.destroyed).sum = s._ctx.count +
        ((calls.map HashCall.constructed).sum + (calls.map HashCall.abandoned).sum) := by
  induction calls generalizing s v with
  | nil =>
    obtain rfl := Except.ok.inj hrun
    exact ⟨⟨v, h⟩, rfl⟩
  | cons c calls ih =>
    simp only [HashObjects.run, List.foldlM_cons] at hrun
    by_cases hallow : allows s.there c = true
    · have hthere : s.there = fun k => (v k).isSome := funext h.there
      have hperform := h.perform lib (hthere ▸ hallow)
      cases hvalue : v.perform lib c with
      | none =>
        rw [hvalue] at hperform
        cases hperform with
        | fails hcall =>
          simp only [HashObjects.call, if_pos hallow, hcall] at hrun
          cases hrun
      | some v' =>
        rw [hvalue] at hperform
        cases hperform with
        | succeeds hcall hnext hcount =>
          simp only [HashObjects.call, if_pos hallow, hcall] at hrun
          obtain ⟨hrepresents, hrest⟩ := ih hnext hrun
          refine ⟨hrepresents, ?_⟩
          simp only [List.map_cons, List.sum_cons]
          omega
    · simp only [HashObjects.call, if_neg hallow] at hrun
      cases hrun

/-- `GetDigestOf`, with a temporary object `k`. -/
def getDigestOf (k : Nat) (pieces : List Bytes) : List HashCall :=
  .construct k :: pieces.map (.updateData k) ++ [.finalize k, .getDigest k, .destroy k]

end HashObjects

namespace HashVariables

variable {Ctx : Type} {n : Nat} {lib : DigestLibrary Ctx n} {hash : Bytes → Octets n}
  {Hashing : Bytes → Ctx → Prop}

/-- The rest of `GetDigestOf` for a context that was given `before`. -/
theorem callAll_updates (hlib : lib.Documented hash Hashing) {v : HashVariables Ctx n} {k : Nat}
    {before : Bytes} {ctx : Ctx} {digest : Octets n} (hk : v k = some (ctx, digest))
    (hctx : Hashing before ctx) (pieces : List Bytes) {answers : List (Option (Octets n))}
    (hcall : Calls.callAll (call lib) v
      (pieces.map (.updateData k) ++ [.finalize k, .getDigest k, .destroy k]) = .ok answers) :
    answers = List.replicate pieces.length none ++
      [none, some (hash (before ++ pieces.flatten)), none] := by
  induction pieces generalizing v before ctx answers with
  | nil =>
    cases hfinal : lib.final ctx with
    | none =>
      simp [Calls.callAll, call, HashObjects.allows, perform, store, hk, hfinal] at hcall
    | some result =>
      have hhash : result.2 = hash before := hlib.final hctx hfinal
      simp [Calls.callAll, call, HashObjects.allows, perform, store, hk, hfinal, HashCall.answer,
        Except.map, hhash] at hcall
      simp [← hcall]
  | cons piece pieces ih =>
    cases hupdate : lib.update piece ctx with
    | none =>
      simp [Calls.callAll, call, HashObjects.allows, perform, store, hk, hupdate] at hcall
    | some ctx' =>
      have hallow : HashObjects.allows (fun l => (v l).isSome) (.updateData k piece) = true := by
        simp [HashObjects.allows, hk]
      have hfirst : call lib v (.updateData k piece) =
          .ok (Function.update v k (some (ctx', digest)), none) := by
        simp only [call, if_pos hallow, perform, store, hk, Option.bind_some, hupdate,
          Option.map_some, HashCall.answer]
      obtain ⟨rest, hrest, rfl⟩ := Calls.callAll_of_answer hfirst hcall
      have hanswers := ih (Function.update_self k _ v) (hlib.update hctx hupdate) hrest
      rw [hanswers, List.flatten_cons, List.append_assoc, List.length_cons, List.replicate_succ,
        List.cons_append]

theorem callAll_getDigestOf (hlib : lib.Documented hash Hashing) {v : HashVariables Ctx n} {k : Nat}
    (hk : v k = none) (pieces : List Bytes) {answers : List (Option (Octets n))}
    (hcall : Calls.callAll (call lib) v (HashObjects.getDigestOf k pieces) = .ok answers) :
    answers = none :: List.replicate pieces.length none ++
      [none, some (hash pieces.flatten), none] := by
  cases hinit : lib.init lib.new with
  | none =>
    simp [HashObjects.getDigestOf, Calls.callAll, call, HashObjects.allows, perform, store, hk,
      hinit] at hcall
  | some ctx =>
    have hnew : call lib v (.construct k) =
        .ok (Function.update v k (some (ctx, .zero n)), none) := by
      simp [call, HashObjects.allows, perform, store, hk, hinit, HashCall.answer]
    obtain ⟨rest, hrest, rfl⟩ := Calls.callAll_of_answer hnew hcall
    rw [callAll_updates hlib (Function.update_self k _ v) (hlib.init hinit) pieces hrest,
      List.nil_append, List.cons_append]

end HashVariables

namespace HashObjects

variable {Ctx : Type} {n : Nat}

/-- For every sequence of calls and whatever libcrypto does with a context: the answers and
faults are those of variables that hold values, and each context is owned by an object or was
abandoned by an assignment that moves. Where libcrypto does what is promised, `GetDigestOf`
returns the hash of its arguments behind one another, from any state that is reached, if it
returns. -/
theorem hash_objects_are_values (lib : DigestLibrary Ctx n) (calls : List HashCall) :
    Calls.callAll (call lib) empty calls =
        Calls.callAll (HashVariables.call lib) (fun _ => none) calls ∧
      ∀ s, run lib empty calls = .ok s →
        s._ctx.count + (calls.map HashCall.destroyed).sum =
            (calls.map HashCall.constructed).sum + (calls.map HashCall.abandoned).sum ∧
          ∀ hash Hashing, lib.Documented hash Hashing → ∀ k pieces answers, s.there k = false →
            Calls.callAll (call lib) s (getDigestOf k pieces) = .ok answers →
              answers = none :: List.replicate pieces.length none ++
                [none, some (hash pieces.flatten), none] := by
  refine ⟨Calls.callAll_eq (R := Represents) (fun _ _ h c => call_agree h c) represents_empty calls,
    fun s hrun => ?_⟩
  obtain ⟨⟨v, hs⟩, hcount⟩ := represents_empty.run hrun
  refine ⟨by simpa [empty, OwnedSlots.count, OwnedSlots.empty] using hcount, ?_⟩
  intro hash Hashing hlib k pieces answers hthere hanswers
  have hk : v k = none := by
    rw [hs.there] at hthere
    exact Option.not_isSome_iff_eq_none.mp (by simp [hthere])
  rw [Calls.callAll_eq (R := Represents) (fun _ _ h c => call_agree h c) hs] at hanswers
  exact HashVariables.callAll_getDigestOf hlib hk pieces hanswers

/-- A byte for the length, in place of a hash. A context is told by its data. -/
def lengthLibrary : DigestLibrary (Option Bytes) 1 where
  new := none
  init _ := some (some [])
  copy _ ctx := some ctx
  update data ctx := ctx.map fun before => some (before ++ data)
  final ctx := ctx.map fun data => (none, ⟨[UInt8.ofNat data.length], rfl⟩)

theorem documented_lengthLibrary : lengthLibrary.Documented
    (fun data => ⟨[UInt8.ofNat data.length], rfl⟩) fun data ctx => ctx = some data where
  init h := (Option.some.inj h).symm
  update := by
    rintro before data _ ctx' rfl h
    exact (Option.some.inj h).symm
  final := by
    rintro data _ ctx' digest rfl h
    exact (congrArg Prod.snd (Option.some.inj h)).symm

/-- An object is moved onto another one and copied; all three are destroyed. -/
def threeObjects : List HashCall :=
  [.construct 0, .updateData 0 [97], .construct 1, .moveAssign 1 0, .updateData 1 [98],
    .copyConstruct 2 1, .destroy 0, .destroy 1, .destroy 2]

/-- One context is left, and the digest that is got beside it is that of three bytes. -/
theorem hash_objects_are_values_three :
    ∃ s, run lengthLibrary empty threeObjects = .ok s ∧ s._ctx.count = 1 ∧
      ∃ answers, Calls.callAll (call lengthLibrary) s (getDigestOf 0 [[1], [2, 3]]) =
          .ok answers ∧
        answers = [none, none, none, none, some ⟨[3], rfl⟩, none] := by
  obtain ⟨s, hrun⟩ : ∃ s, run lengthLibrary empty threeObjects = .ok s := ⟨_, rfl⟩
  obtain ⟨-, hreached⟩ := hash_objects_are_values lengthLibrary threeObjects
  obtain ⟨hcount, hdigest⟩ := hreached s hrun
  obtain ⟨answers, hcall⟩ : ∃ answers, Calls.callAll (call lengthLibrary) s
      (getDigestOf 0 [[1], [2, 3]]) = .ok answers := by
    obtain rfl := Except.ok.inj hrun
    exact ⟨_, rfl⟩
  have hthere : s.there 0 = false := by
    obtain rfl := Except.ok.inj hrun
    rfl
  refine ⟨s, hrun, ?_, answers, hcall, ?_⟩
  · have hdestroyed : (threeObjects.map HashCall.destroyed).sum = 3 := rfl
    have hconstructed : (threeObjects.map HashCall.constructed).sum = 3 := rfl
    have habandoned : (threeObjects.map HashCall.abandoned).sum = 1 := rfl
    omega
  · exact hdigest _ _ documented_lengthLibrary 0 [[1], [2, 3]] answers hthere hcall

end HashObjects

end Mpool
