import Mpool.Lib.OwnedSlots

/-! A ledger of what each pointer of a program is: null, to a live block, or to one that is
gone. A list of memory operations faults on the heap exactly when it faults on the ledger,
so a program that frees and moves pointers is followed on the ledger alone; and when no
operation overwrites a live pointer, every live block has a pointer to it. -/

/-- What is known of a pointer. -/
inductive PointerStatus (β : Type*) where
  | null | live (block : β) | dangling
  deriving DecidableEq

/-- One use of memory, by the pointers it goes through; `read` is guarded by a test for null. -/
inductive SlotOp (β ι : Type*) where
  | free (k : ι)
  | assign (k : ι) (block : β)
  | forget (k : ι)
  | move (k l : ι)
  | read (k : ι)

variable {β ι : Type*}

/-- The pointers the operation may change. -/
def SlotOp.Writes (op : SlotOp β ι) (m : ι) : Prop :=
  match op with
  | .free k | .assign k _ | .forget k => m = k
  | .move k l => m = k ∨ m = l
  | .read _ => False

namespace OwnedSlots

variable [DecidableEq ι]

/-- `delete x`, which leaves `x` as it is. -/
def free (s : OwnedSlots β ι) (k : ι) : Option (OwnedSlots β ι) :=
  (s.heap.delete (s.pointer k)).map fun heap => { s with heap }

/-- `y = x`, with `x` not used again. -/
def move (s : OwnedSlots β ι) (k l : ι) : OwnedSlots β ι :=
  { s with pointer := Function.update (Function.update s.pointer l (s.pointer k)) k none }

def perform (s : OwnedSlots β ι) : SlotOp β ι → Option (OwnedSlots β ι)
  | .free k => s.free k
  | .assign k block => some (s.assign k block)
  | .forget k => some (s.forget k)
  | .move k l => some (s.move k l)
  | .read k => if (s.pointer k).all fun p => (s.heap.load p).isSome then some s else none

def performAll (s : OwnedSlots β ι) (ops : List (SlotOp β ι)) : Option (OwnedSlots β ι) :=
  ops.foldlM perform s

end OwnedSlots

/-- The status of every pointer. -/
abbrev SlotLedger (β ι : Type*) := ι → PointerStatus β

namespace SlotLedger

variable [DecidableEq ι]

def perform (ledger : SlotLedger β ι) : SlotOp β ι → Option (SlotLedger β ι)
  | .free k =>
    match ledger k with
    | .null => some ledger
    | .live _ => some (Function.update ledger k .dangling)
    | .dangling => none
  | .assign k block => some (Function.update ledger k (.live block))
  | .forget k => some (Function.update ledger k .null)
  | .move k l => some (Function.update (Function.update ledger l (ledger k)) k .null)
  | .read k =>
    match ledger k with
    | .dangling => none
    | _ => some ledger

def performAll (ledger : SlotLedger β ι) (ops : List (SlotOp β ι)) :
    Option (SlotLedger β ι) :=
  ops.foldlM perform ledger

/-- The operation loses no live block. -/
def Keeps (ledger : SlotLedger β ι) : SlotOp β ι → Prop
  | .assign k _ | .forget k => ∀ block, ledger k ≠ .live block
  | .move _ l => ∀ block, ledger l ≠ .live block
  | .free _ | .read _ => True

/-- No operation of the list loses a live block. -/
def KeepsAll (ledger : SlotLedger β ι) : List (SlotOp β ι) → Prop
  | [] => True
  | op :: ops =>
    ledger.Keeps op ∧ ∀ ledger', ledger.perform op = some ledger' → KeepsAll ledger' ops

@[simp] theorem performAll_nil (ledger : SlotLedger β ι) : ledger.performAll [] = some ledger :=
  rfl

@[simp] theorem performAll_cons (ledger : SlotLedger β ι) (op : SlotOp β ι)
    (ops : List (SlotOp β ι)) :
    ledger.performAll (op :: ops) = (ledger.perform op).bind (·.performAll ops) := rfl

/-- The other pointers stay what they are. -/
theorem perform_other {ledger ledger' : SlotLedger β ι} {op : SlotOp β ι} {m : ι}
    (hm : ¬ op.Writes m) (h : ledger.perform op = some ledger') : ledger' m = ledger m := by
  cases op with
  | free k =>
    simp only [perform] at h
    split at h <;> cases h
    · rfl
    · exact Function.update_of_ne hm _ _
  | assign k block =>
    cases h
    exact Function.update_of_ne hm _ _
  | forget k =>
    cases h
    exact Function.update_of_ne hm _ _
  | move k l =>
    cases h
    simp only [SlotOp.Writes, not_or] at hm
    rw [Function.update_of_ne hm.1, Function.update_of_ne hm.2]
  | read k =>
    simp only [perform] at h
    split at h <;> cases h
    rfl

theorem performAll_other {ledger ledger' : SlotLedger β ι} {ops : List (SlotOp β ι)} {m : ι}
    (hm : ∀ op ∈ ops, ¬ op.Writes m) (h : ledger.performAll ops = some ledger') :
    ledger' m = ledger m := by
  induction ops generalizing ledger with
  | nil =>
    cases h
    rfl
  | cons op ops ih =>
    rw [performAll_cons, Option.bind_eq_some_iff] at h
    obtain ⟨next, hop, h⟩ := h
    rw [ih (fun op hop => hm op (List.mem_cons_of_mem _ hop)) h,
      perform_other (hm op List.mem_cons_self) hop]

theorem performAll_append (ledger : SlotLedger β ι) (ops ops' : List (SlotOp β ι)) :
    ledger.performAll (ops ++ ops') = (ledger.performAll ops).bind (·.performAll ops') := by
  simp only [performAll, List.foldlM_append]
  rfl

/-- A pointer to what is freed stays dangling while nothing writes it. -/
theorem dangling_of_freed {ledger ledger' : SlotLedger β ι} {k : ι} {block : β}
    {before middle after : List (SlotOp β ι)} (hmiddle : ∀ op ∈ middle, ¬ op.Writes k)
    (hafter : ∀ op ∈ after, ¬ op.Writes k)
    (h : ledger.performAll (before ++ .assign k block :: (middle ++ .free k :: after)) =
      some ledger') : ledger' k = .dangling := by
  simp only [performAll_append, performAll_cons, Option.bind_eq_some_iff] at h
  obtain ⟨_, -, assigned, hassign, held, hheld, freed, hfree, hrest⟩ := h
  obtain rfl := Option.some.inj hassign
  have hlive : held k = .live block := by
    rw [performAll_other hmiddle hheld, Function.update_self]
  simp only [perform, hlive, Option.some.injEq] at hfree
  rw [performAll_other hafter hrest, ← hfree, Function.update_self]

end SlotLedger

namespace OwnedSlots

@[simp] theorem performAll_nil [DecidableEq ι] (s : OwnedSlots β ι) : s.performAll [] = some s :=
  rfl

@[simp] theorem performAll_cons [DecidableEq ι] (s : OwnedSlots β ι) (op : SlotOp β ι)
    (ops : List (SlotOp β ι)) :
    s.performAll (op :: ops) = (s.perform op).bind (·.performAll ops) := rfl

/-- The ledger of the slots. -/
def ledger (s : OwnedSlots β ι) : SlotLedger β ι := fun k =>
  match s.pointer k with
  | none => .null
  | some p =>
    match s.heap.load p with
    | some block => .live block
    | none => .dangling

/-- Pointers come from `new`, and a live block has at most one. -/
structure Tidy (s : OwnedSlots β ι) : Prop where
  below : ∀ k p, s.pointer k = some p → p < s.heap.blocks.length
  apart : ∀ k l p, s.pointer k = some p → s.pointer l = some p → (s.heap.load p).isSome → k = l

/-- Every live block has a pointer to it. -/
def Held (s : OwnedSlots β ι) : Prop :=
  ∀ p, (s.heap.load p).isSome → ∃ k, s.pointer k = some p

theorem tidy_empty : (empty : OwnedSlots β ι).Tidy where
  below _ _ h := by cases h
  apart _ _ _ h := by cases h

theorem held_empty : (empty : OwnedSlots β ι).Held := by
  intro p h
  simp [empty, BlockHeap.load] at h

theorem ledger_eq_null_iff {s : OwnedSlots β ι} {k : ι} :
    s.ledger k = .null ↔ s.pointer k = none := by
  unfold ledger
  split
  · simp_all
  · split <;> simp_all

theorem ledger_eq_live_iff {s : OwnedSlots β ι} {k : ι} {block : β} :
    s.ledger k = .live block ↔ ∃ p, s.pointer k = some p ∧ s.heap.load p = some block := by
  unfold ledger
  split
  · simp_all
  · split <;> simp_all

theorem ledger_eq_dangling_iff {s : OwnedSlots β ι} {k : ι} :
    s.ledger k = .dangling ↔ ∃ p, s.pointer k = some p ∧ s.heap.load p = none := by
  unfold ledger
  split
  · simp_all
  · split <;> simp_all

/-- The blocks after a `delete` that went through. -/
theorem free_eq_some_iff {s s' : OwnedSlots β ι} {k : ι} :
    s.free k = some s' ↔ (s.pointer k = none ∧ s' = s) ∨
      ∃ p, s.pointer k = some p ∧ (s.heap.load p).isSome ∧
        s' = { s with heap := ⟨s.heap.blocks.set p none⟩ } := by
  unfold free
  cases hk : s.pointer k with
  | none => exact ⟨fun h => .inl ⟨rfl, (Option.some.inj h).symm⟩, by rintro (⟨-, rfl⟩ | ⟨p, hp, -⟩)
      <;> first | rfl | cases hp⟩
  | some p =>
    by_cases hp : (s.heap.load p).isSome
    · simp only [BlockHeap.delete, if_pos hp, Option.map_some, Option.some.injEq, reduceCtorEq,
        false_and, false_or]
      exact ⟨fun h => ⟨p, rfl, hp, h.symm⟩, by rintro ⟨q, rfl, -, rfl⟩; rfl⟩
    · simp only [BlockHeap.delete, if_neg hp, Option.map_none, reduceCtorEq, false_and, false_or,
        false_iff]
      rintro ⟨q, hq, hload, -⟩
      exact hp (Option.some.inj hq ▸ hload)

theorem load_set_self (heap : BlockHeap β) (p : Nat) :
    (⟨heap.blocks.set p none⟩ : BlockHeap β).load p = none := by
  simp only [BlockHeap.load, List.getElem?_set_self']
  cases heap.blocks[p]? <;> rfl

theorem load_new_below {heap : BlockHeap β} {p : Nat} (block : β) (h : p < heap.blocks.length) :
    (heap.new block).1.load p = heap.load p := by
  simp only [BlockHeap.load, BlockHeap.new, List.getElem?_append_left h]

theorem Tidy.free {s s' : OwnedSlots β ι} (hs : s.Tidy) {k : ι} (h : s.free k = some s') :
    s'.Tidy := by
  rcases free_eq_some_iff.mp h with ⟨-, rfl⟩ | ⟨p, hp, hsome, rfl⟩
  · exact hs
  · refine ⟨fun l q hq => by simpa using hs.below l q hq, fun l m q hl hm hq => ?_⟩
    by_cases hqp : p = q
    · rw [← hqp, load_set_self] at hq
      cases hq
    · rw [BlockHeap.load_set_other hqp] at hq
      exact hs.apart l m q hl hm hq

/-- With no live pointer left there is no live block left. -/
theorem Held.empty_of_ledger {s : OwnedSlots β ι} (hs : s.Held)
    (h : ∀ k block, s.ledger k ≠ .live block) (p : Nat) : s.heap.load p = none := by
  by_contra hp
  obtain ⟨block, hblock⟩ := Option.ne_none_iff_exists'.mp hp
  obtain ⟨k, hk⟩ := hs p (by rw [hblock]; rfl)
  exact h k block (ledger_eq_live_iff.mpr ⟨p, hk, hblock⟩)

variable [DecidableEq ι]

theorem move_pointer (s : OwnedSlots β ι) (k l m : ι) :
    (s.move k l).pointer m =
      if m = k then none else if m = l then s.pointer k else s.pointer m := by
  simp only [move, Function.update_apply]

theorem Tidy.ledger_free {s : OwnedSlots β ι} (hs : s.Tidy) (k : ι) :
    (s.free k).map ledger = s.ledger.perform (.free k) := by
  cases hk : s.ledger k with
  | null =>
    have hfree : s.free k = some s := free_eq_some_iff.mpr (.inl ⟨ledger_eq_null_iff.mp hk, rfl⟩)
    simp only [SlotLedger.perform, hk, hfree, Option.map_some]
  | dangling =>
    obtain ⟨p, hp, hload⟩ := ledger_eq_dangling_iff.mp hk
    simp [OwnedSlots.free, SlotLedger.perform, hk, hp, hload, BlockHeap.delete]
  | live block =>
    obtain ⟨p, hp, hload⟩ := ledger_eq_live_iff.mp hk
    have hsome : (s.heap.load p).isSome := by rw [hload]; rfl
    have hfree := free_eq_some_iff.mpr (.inr ⟨p, hp, hsome, rfl⟩)
    simp only [SlotLedger.perform, hk, hfree, Option.map_some, Option.some.injEq]
    funext l
    by_cases hl : l = k
    · rw [hl, Function.update_self, ledger_eq_dangling_iff]
      exact ⟨p, hp, load_set_self s.heap p⟩
    · rw [Function.update_of_ne hl]
      unfold ledger
      cases hq : s.pointer l with
      | none => rfl
      | some q =>
        have hqp : p ≠ q := fun heq => hl (hs.apart l k p (heq ▸ hq) hp hsome)
        simp only [BlockHeap.load_set_other hqp]

theorem Tidy.ledger_assign {s : OwnedSlots β ι} (hs : s.Tidy) (k : ι) (block : β) :
    (s.assign k block).ledger = Function.update s.ledger k (.live block) := by
  funext l
  by_cases hl : l = k
  · rw [hl, Function.update_self, ledger_eq_live_iff]
    exact ⟨_, by simp [OwnedSlots.assign], BlockHeap.load_new_self _ _⟩
  · rw [Function.update_of_ne hl]
    simp only [ledger, OwnedSlots.assign, Function.update_of_ne hl]
    cases hq : s.pointer l with
    | none => rfl
    | some q => simp only [load_new_below block (hs.below l q hq)]

theorem ledger_forget (s : OwnedSlots β ι) (k : ι) :
    (s.forget k).ledger = Function.update s.ledger k .null := by
  funext l
  by_cases hl : l = k
  · simp [ledger, OwnedSlots.forget, hl]
  · simp only [ledger, OwnedSlots.forget, Function.update_of_ne hl]

theorem ledger_move (s : OwnedSlots β ι) (k l : ι) :
    (s.move k l).ledger = Function.update (Function.update s.ledger l (s.ledger k)) k .null := by
  funext m
  by_cases hmk : m = k
  · rw [hmk, Function.update_self, ledger_eq_null_iff, move_pointer, if_pos rfl]
  · rw [Function.update_of_ne hmk, Function.update_apply]
    by_cases hml : m = l
    · simp only [ledger, move_pointer, if_neg hmk, if_pos hml]
      rfl
    · simp only [ledger, move_pointer, if_neg hmk, if_neg hml]
      rfl

/-- The heap and the ledger agree on every operation. -/
theorem Tidy.ledger_perform {s : OwnedSlots β ι} (hs : s.Tidy) (op : SlotOp β ι) :
    (s.perform op).map ledger = s.ledger.perform op := by
  cases op with
  | free k => exact hs.ledger_free k
  | assign k block => simp [OwnedSlots.perform, SlotLedger.perform, hs.ledger_assign]
  | forget k => simp [OwnedSlots.perform, SlotLedger.perform, ledger_forget]
  | move k l => simp [OwnedSlots.perform, SlotLedger.perform, ledger_move]
  | read k =>
    cases hk : s.pointer k with
    | none => simp [OwnedSlots.perform, SlotLedger.perform, ledger, hk]
    | some p =>
      cases hp : s.heap.load p with
      | none => simp [OwnedSlots.perform, SlotLedger.perform, ledger, hk, hp]
      | some block => simp [OwnedSlots.perform, SlotLedger.perform, ledger, hk, hp]

theorem Tidy.assign {s : OwnedSlots β ι} (hs : s.Tidy) (k : ι) (block : β) :
    (s.assign k block).Tidy := by
  have hlength : (s.assign k block).heap.blocks.length = s.heap.blocks.length + 1 := by
    simp [OwnedSlots.assign, BlockHeap.new]
  have hpointer : ∀ l p, (s.assign k block).pointer l = some p →
      (l = k ∧ p = s.heap.blocks.length) ∨ (l ≠ k ∧ s.pointer l = some p) := by
    intro l p hl
    by_cases hlk : l = k
    · subst hlk
      simp only [OwnedSlots.assign, BlockHeap.new, Function.update_self, Option.some.injEq] at hl
      exact .inl ⟨rfl, hl.symm⟩
    · simp only [OwnedSlots.assign, Function.update_of_ne hlk] at hl
      exact .inr ⟨hlk, hl⟩
  refine ⟨fun l p hl => ?_, fun l m p hl hm hp => ?_⟩
  · rcases hpointer l p hl with ⟨-, rfl⟩ | ⟨-, hl⟩
    · omega
    · have := hs.below l p hl
      omega
  · rcases hpointer l p hl with ⟨hlk, hpl⟩ | ⟨hlk, hl⟩ <;>
      rcases hpointer m p hm with ⟨hmk, hpm⟩ | ⟨hmk, hm⟩
    · rw [hlk, hmk]
    · exact absurd (hs.below m p hm) (by omega)
    · exact absurd (hs.below l p hl) (by omega)
    · refine hs.apart l m p hl hm ?_
      rwa [OwnedSlots.assign, load_new_below block (hs.below l p hl)] at hp

theorem Tidy.forget {s : OwnedSlots β ι} (hs : s.Tidy) (k : ι) : (s.forget k).Tidy where
  below l p hl := hs.below l p (update_none_eq_some hl).2
  apart l m p hl hm := hs.apart l m p (update_none_eq_some hl).2 (update_none_eq_some hm).2

theorem Tidy.move {s : OwnedSlots β ι} (hs : s.Tidy) (k l : ι) : (s.move k l).Tidy := by
  have hpointer : ∀ m p, (s.move k l).pointer m = some p →
      m ≠ k ∧ ((m = l ∧ s.pointer k = some p) ∨ (m ≠ l ∧ s.pointer m = some p)) := by
    intro m p hm
    rw [move_pointer] at hm
    split at hm
    · cases hm
    · rename_i hmk
      split at hm
      · rename_i hml
        exact ⟨hmk, .inl ⟨hml, hm⟩⟩
      · rename_i hml
        exact ⟨hmk, .inr ⟨hml, hm⟩⟩
  refine ⟨fun m p hm => ?_, fun m n p hm hn hp => ?_⟩
  · rcases hpointer m p hm with ⟨-, ⟨-, h⟩ | ⟨-, h⟩⟩
    · exact hs.below k p h
    · exact hs.below m p h
  · obtain ⟨hmk, hm⟩ := hpointer m p hm
    obtain ⟨hnk, hn⟩ := hpointer n p hn
    rcases hm with ⟨hml, hm⟩ | ⟨hml, hm⟩ <;> rcases hn with ⟨hnl, hn⟩ | ⟨hnl, hn⟩
    · rw [hml, hnl]
    · exact absurd (hs.apart n k p hn hm hp) hnk
    · exact absurd (hs.apart m k p hm hn hp) hmk
    · exact hs.apart m n p hm hn hp

theorem Tidy.perform {s s' : OwnedSlots β ι} (hs : s.Tidy) {op : SlotOp β ι}
    (h : s.perform op = some s') : s'.Tidy := by
  cases op with
  | free k => exact hs.free h
  | assign k block =>
    cases h
    exact hs.assign k block
  | forget k =>
    cases h
    exact hs.forget k
  | move k l =>
    cases h
    exact hs.move k l
  | read k =>
    rw [OwnedSlots.perform] at h
    split at h
    · cases h
      exact hs
    · cases h

/-- A program faults on the heap exactly when it faults on the ledger, and leaves the heap
with the ledger it computes. -/
theorem Tidy.ledger_performAll {s : OwnedSlots β ι} (hs : s.Tidy) (ops : List (SlotOp β ι)) :
    (s.performAll ops).map ledger = s.ledger.performAll ops := by
  induction ops generalizing s with
  | nil => rfl
  | cons op ops ih =>
    rw [performAll_cons, SlotLedger.performAll_cons, ← hs.ledger_perform op]
    cases hop : s.perform op with
    | none => rfl
    | some s' => exact ih (hs.perform hop)

theorem Tidy.performAll {s s' : OwnedSlots β ι} (hs : s.Tidy) {ops : List (SlotOp β ι)}
    (h : s.performAll ops = some s') : s'.Tidy := by
  induction ops generalizing s with
  | nil =>
    cases h
    exact hs
  | cons op ops ih =>
    rw [performAll_cons, Option.bind_eq_some_iff] at h
    obtain ⟨t, hop, h⟩ := h
    exact ih (hs.perform hop) h

/-! ## Leaks -/

theorem Held.perform {s s' : OwnedSlots β ι} (hs : s.Held) {op : SlotOp β ι}
    (hkeeps : s.ledger.Keeps op) (h : s.perform op = some s') : s'.Held := by
  -- a slot that is overwritten points to nothing live
  have hlost : ∀ k p, (∀ block, s.ledger k ≠ .live block) → (s.heap.load p).isSome →
      s.pointer k ≠ some p := by
    intro k p hk hp hpointer
    obtain ⟨block, hblock⟩ := Option.isSome_iff_exists.mp hp
    exact hk block (ledger_eq_live_iff.mpr ⟨p, hpointer, hblock⟩)
  cases op with
  | free k =>
    rcases free_eq_some_iff.mp h with ⟨-, rfl⟩ | ⟨p, -, -, rfl⟩
    · exact hs
    · intro q hq
      by_cases hqp : p = q
      · rw [← hqp, load_set_self] at hq
        cases hq
      · rw [BlockHeap.load_set_other hqp] at hq
        exact hs q hq
  | assign k block =>
    cases h
    intro p hp
    by_cases hlen : p < s.heap.blocks.length
    · rw [OwnedSlots.assign, load_new_below block hlen] at hp
      obtain ⟨l, hl⟩ := hs p hp
      have hlk : l ≠ k := fun heq => hlost k p hkeeps hp (heq ▸ hl)
      exact ⟨l, by simpa [OwnedSlots.assign, Function.update_of_ne hlk] using hl⟩
    · have hlt := BlockHeap.lt_of_load_isSome hp
      have hp : p = s.heap.blocks.length := by
        simp only [OwnedSlots.assign, BlockHeap.new, List.length_append, List.length_singleton]
          at hlt
        omega
      exact ⟨k, by simp [OwnedSlots.assign, BlockHeap.new, hp]⟩
  | forget k =>
    cases h
    intro p hp
    obtain ⟨l, hl⟩ := hs p hp
    have hlk : l ≠ k := fun heq => hlost k p hkeeps hp (heq ▸ hl)
    exact ⟨l, by simpa [OwnedSlots.forget, Function.update_of_ne hlk] using hl⟩
  | move k l =>
    cases h
    intro p hp
    obtain ⟨m, hm⟩ := hs p hp
    have hml : m ≠ l := fun heq => hlost l p hkeeps hp (heq ▸ hm)
    by_cases hmk : m = k
    · have hlk : l ≠ k := fun heq => hml (hmk.trans heq.symm)
      exact ⟨l, by rw [move_pointer, if_neg hlk, if_pos rfl, ← hmk, hm]⟩
    · exact ⟨m, by rw [move_pointer, if_neg hmk, if_neg hml, hm]⟩
  | read k =>
    rw [OwnedSlots.perform] at h
    split at h
    · cases h
      exact hs
    · cases h

theorem Held.performAll {s s' : OwnedSlots β ι} (hs : s.Held) (htidy : s.Tidy)
    {ops : List (SlotOp β ι)} (hkeeps : s.ledger.KeepsAll ops) (h : s.performAll ops = some s') :
    s'.Held := by
  induction ops generalizing s with
  | nil =>
    cases h
    exact hs
  | cons op ops ih =>
    rw [performAll_cons, Option.bind_eq_some_iff] at h
    obtain ⟨t, hop, h⟩ := h
    refine ih (hs.perform hkeeps.1 hop) (htidy.perform hop) (hkeeps.2 t.ledger ?_) h
    rw [← htidy.ledger_perform op, hop, Option.map_some]

end OwnedSlots
