import Mathlib.Logic.Function.Basic

/-! Slots that own what they point to, over a heap with `new` and `delete`. While no two
slots share a block, the slots behave like variables that hold the blocks themselves:
each operation changes the content of its own slot and no other, and no `delete` meets a
block that is gone. -/

/-- The blocks in the order of their `new`; a deleted one is `none`. -/
structure BlockHeap (β : Type*) where
  blocks : List (Option β)

namespace BlockHeap

variable {β : Type*}

def load (heap : BlockHeap β) (p : Nat) : Option β := heap.blocks[p]?.join

/-- The heap with the new block, and its address. -/
def new (heap : BlockHeap β) (block : β) : BlockHeap β × Nat :=
  (⟨heap.blocks ++ [some block]⟩, heap.blocks.length)

/-- `delete`, which takes the null pointer; `none` is a block that is not there. -/
def delete (heap : BlockHeap β) : Option Nat → Option (BlockHeap β)
  | none => some heap
  | some p => if (heap.load p).isSome then some ⟨heap.blocks.set p none⟩ else none

theorem load_new_self (heap : BlockHeap β) (block : β) :
    (heap.new block).1.load (heap.new block).2 = some block := by
  simp [load, new]

theorem lt_of_load_isSome {heap : BlockHeap β} {p : Nat} (h : (heap.load p).isSome) :
    p < heap.blocks.length := by
  by_cases hp : p < heap.blocks.length
  · exact hp
  · rw [load, List.getElem?_eq_none (Nat.le_of_not_lt hp)] at h
    cases h

/-- `new` leaves the blocks that are there, and gives an address where none is. -/
theorem load_new_other {heap : BlockHeap β} {p : Nat} (block : β) (h : (heap.load p).isSome) :
    (heap.new block).1.load p = heap.load p := by
  simp only [load, new, List.getElem?_append_left (lt_of_load_isSome h)]

theorem load_new_address (heap : BlockHeap β) (block : β) :
    heap.load (heap.new block).2 = none := by
  simp [load, new]

theorem load_set_other {heap : BlockHeap β} {p q : Nat} (h : p ≠ q) :
    (⟨heap.blocks.set p none⟩ : BlockHeap β).load q = heap.load q := by
  simp only [load, List.getElem?_set_ne h]

end BlockHeap

/-- A heap and the pointers that own blocks of it. -/
structure OwnedSlots (β ι : Type*) where
  heap : BlockHeap β
  pointer : ι → Option Nat

namespace OwnedSlots

variable {β ι : Type*}

/-- Every pointer is null or the only one to a block that is there. -/
structure Sound (s : OwnedSlots β ι) : Prop where
  live : ∀ k p, s.pointer k = some p → (s.heap.load p).isSome
  apart : ∀ k l p, s.pointer k = some p → s.pointer l = some p → k = l

/-- What the slot points to; `none` for the null pointer. -/
def content (s : OwnedSlots β ι) (k : ι) : Option β := (s.pointer k).bind s.heap.load

/-- A null pointer is told from a block. -/
theorem Sound.content_isSome {s : OwnedSlots β ι} (hs : s.Sound) (k : ι) :
    (s.content k).isSome = (s.pointer k).isSome := by
  unfold content
  cases hk : s.pointer k with
  | none => rfl
  | some p => exact hs.live k p hk

/-- All pointers null. -/
def empty : OwnedSlots β ι := ⟨⟨[]⟩, fun _ => none⟩

theorem sound_empty : (empty : OwnedSlots β ι).Sound where
  live _ _ h := by cases h
  apart _ _ _ h := by cases h

variable [DecidableEq ι]

/-- `x = nullptr`; what `x` had is leaked. -/
def forget (s : OwnedSlots β ι) (k : ι) : OwnedSlots β ι :=
  { s with pointer := Function.update s.pointer k none }

/-- `delete x; x = nullptr`. -/
def release (s : OwnedSlots β ι) (k : ι) : Option (OwnedSlots β ι) :=
  (s.heap.delete (s.pointer k)).map fun heap => ⟨heap, Function.update s.pointer k none⟩

/-- `x = new block`; what `x` had is leaked. -/
def assign (s : OwnedSlots β ι) (k : ι) (block : β) : OwnedSlots β ι :=
  ⟨(s.heap.new block).1, Function.update s.pointer k (some (s.heap.new block).2)⟩

/-- `delete x; x = new block`. -/
def replace (s : OwnedSlots β ι) (k : ι) (block : β) : Option (OwnedSlots β ι) :=
  (s.release k).map fun s => s.assign k block

/-! ## What the operations do to the contents -/

theorem update_none_eq_some {f : ι → Option Nat} {k l : ι} {p : Nat}
    (h : Function.update f k none l = some p) : l ≠ k ∧ f l = some p := by
  by_cases hl : l = k
  · rw [hl, Function.update_self] at h
    cases h
  · rw [Function.update_of_ne hl] at h
    exact ⟨hl, h⟩

theorem Sound.forget {s : OwnedSlots β ι} (hs : s.Sound) (k : ι) : (s.forget k).Sound where
  live l p hl := hs.live l p (update_none_eq_some hl).2
  apart l m p hl hm := hs.apart l m p (update_none_eq_some hl).2 (update_none_eq_some hm).2

theorem content_forget (s : OwnedSlots β ι) (k : ι) :
    (s.forget k).content = Function.update s.content k none := by
  funext l
  by_cases hl : l = k
  · subst hl
    simp [content, OwnedSlots.forget]
  · simp [content, OwnedSlots.forget, Function.update_of_ne hl]

/-- A release of a sound slot succeeds, and the blocks of the others stay. -/
theorem Sound.release {s : OwnedSlots β ι} (hs : s.Sound) (k : ι) :
    ∃ s', s.release k = some s' ∧ s'.Sound ∧
      s'.content = Function.update s.content k none := by
  cases hk : s.pointer k with
  | none =>
    refine ⟨s.forget k, by simp [OwnedSlots.release, hk, BlockHeap.delete, OwnedSlots.forget],
      hs.forget k, content_forget s k⟩
  | some p =>
    have hother : ∀ l, l ≠ k → ∀ q, s.pointer l = some q →
        (⟨s.heap.blocks.set p none⟩ : BlockHeap β).load q = s.heap.load q := by
      intro l hl q hq
      refine BlockHeap.load_set_other fun heq => hl (hs.apart l k q hq ?_)
      rw [hk, heq]
    refine ⟨⟨⟨s.heap.blocks.set p none⟩, Function.update s.pointer k none⟩,
      by simp [OwnedSlots.release, hk, BlockHeap.delete, hs.live k p hk], ⟨?_, ?_⟩, ?_⟩
    · intro l q hl
      obtain ⟨hlk, hq⟩ := update_none_eq_some hl
      rw [hother l hlk q hq]
      exact hs.live l q hq
    · intro l m q hl hm
      exact hs.apart l m q (update_none_eq_some hl).2 (update_none_eq_some hm).2
    · funext l
      by_cases hl : l = k
      · subst hl
        simp [content]
      · simp only [content, Function.update_of_ne hl]
        cases hq : s.pointer l with
        | none => rfl
        | some q => exact hother l hl q hq

theorem Sound.assign {s : OwnedSlots β ι} (hs : s.Sound) (k : ι) (block : β) :
    (s.assign k block).Sound := by
  have hfresh : ∀ l, s.pointer l ≠ some (s.heap.new block).2 := by
    intro l hl
    have hlive := hs.live l _ hl
    rw [BlockHeap.load_new_address] at hlive
    cases hlive
  refine ⟨fun l p hl => ?_, fun l m p hl hm => ?_⟩
  · by_cases hlk : l = k
    · subst hlk
      simp only [OwnedSlots.assign, Function.update_self, Option.some.injEq] at hl ⊢
      rw [← hl, BlockHeap.load_new_self]
      rfl
    · simp only [OwnedSlots.assign, Function.update_of_ne hlk] at hl ⊢
      rw [BlockHeap.load_new_other block (hs.live l p hl)]
      exact hs.live l p hl
  · by_cases hlk : l = k <;> by_cases hmk : m = k
    · rw [hlk, hmk]
    · subst hlk
      simp only [OwnedSlots.assign, Function.update_self, Function.update_of_ne hmk,
        Option.some.injEq] at hl hm
      exact absurd (hl ▸ hm) (hfresh m)
    · subst hmk
      simp only [OwnedSlots.assign, Function.update_self, Function.update_of_ne hlk,
        Option.some.injEq] at hl hm
      exact absurd (hm ▸ hl) (hfresh l)
    · simp only [OwnedSlots.assign, Function.update_of_ne hlk, Function.update_of_ne hmk] at hl hm
      exact hs.apart l m p hl hm

theorem Sound.content_assign {s : OwnedSlots β ι} (hs : s.Sound) (k : ι) (block : β) :
    (s.assign k block).content = Function.update s.content k (some block) := by
  funext l
  by_cases hl : l = k
  · subst hl
    simp [content, OwnedSlots.assign, BlockHeap.load_new_self]
  · simp only [content, OwnedSlots.assign, Function.update_of_ne hl]
    cases hq : s.pointer l with
    | none => rfl
    | some q => exact BlockHeap.load_new_other block (hs.live l q hq)

theorem Sound.replace {s : OwnedSlots β ι} (hs : s.Sound) (k : ι) (block : β) :
    ∃ s', s.replace k block = some s' ∧ s'.Sound ∧
      s'.content = Function.update s.content k (some block) := by
  obtain ⟨s', hrelease, hs', hcontent⟩ := hs.release k
  refine ⟨s'.assign k block, by rw [OwnedSlots.replace, hrelease]; rfl, hs'.assign k block, ?_⟩
  rw [hs'.content_assign, hcontent, Function.update_idem]

/-! ## Writing and passing on -/

/-- `*x = block`; `none` is the null pointer. -/
def write (s : OwnedSlots β ι) (k : ι) (block : β) : Option (OwnedSlots β ι) :=
  (s.pointer k).map fun p => { s with heap := ⟨s.heap.blocks.set p (some block)⟩ }

/-- `x = y; y = nullptr`; what `x` had is leaked. -/
def pass (s : OwnedSlots β ι) (k l : ι) : OwnedSlots β ι :=
  { s with pointer := Function.update (Function.update s.pointer k (s.pointer l)) l none }

theorem Sound.write {s : OwnedSlots β ι} (hs : s.Sound) {k : ι} {old : β}
    (hk : s.content k = some old) (block : β) :
    ∃ s', s.write k block = some s' ∧ s'.Sound ∧
      s'.content = Function.update s.content k (some block) ∧ s'.pointer = s.pointer := by
  obtain ⟨p, hp, hload⟩ := Option.bind_eq_some_iff.mp hk
  have hlt : p < s.heap.blocks.length := BlockHeap.lt_of_load_isSome (by rw [hload]; rfl)
  have hself : (⟨s.heap.blocks.set p (some block)⟩ : BlockHeap β).load p = some block := by
    simp [BlockHeap.load, List.getElem?_set_self hlt]
  have hother : ∀ l, l ≠ k → ∀ q, s.pointer l = some q →
      (⟨s.heap.blocks.set p (some block)⟩ : BlockHeap β).load q = s.heap.load q := by
    intro l hl q hq
    have hne : p ≠ q := fun heq => hl (hs.apart l k q hq (heq ▸ hp))
    simp only [BlockHeap.load, List.getElem?_set_ne hne]
  refine ⟨⟨⟨s.heap.blocks.set p (some block)⟩, s.pointer⟩, by rw [OwnedSlots.write, hp]; rfl,
    ⟨fun l q hl => ?_, hs.apart⟩, ?_, rfl⟩
  · by_cases hlk : l = k
    · subst hlk
      obtain rfl := Option.some.inj (hp.symm.trans hl)
      exact Option.isSome_of_eq_some hself
    · exact (hother l hlk q hl).symm ▸ hs.live l q hl
  · funext l
    by_cases hlk : l = k
    · subst hlk
      simp only [content, hp, Option.bind_some, hself, Function.update_self]
    · simp only [content, Function.update_of_ne hlk]
      cases hq : s.pointer l with
      | none => rfl
      | some q => exact hother l hlk q hq

theorem Sound.pass {s : OwnedSlots β ι} (hs : s.Sound) {k l : ι} (hne : k ≠ l) :
    (s.pass k l).Sound ∧ (s.pass k l).content =
      Function.update (Function.update s.content k (s.content l)) l none := by
  have hpointer : ∀ m p, (s.pass k l).pointer m = some p →
      (m = k ∧ s.pointer l = some p) ∨ (m ≠ k ∧ m ≠ l ∧ s.pointer m = some p) := by
    intro m p hm
    obtain ⟨hml, hm⟩ := update_none_eq_some hm
    by_cases hmk : m = k
    · subst hmk
      rw [Function.update_self] at hm
      exact .inl ⟨rfl, hm⟩
    · rw [Function.update_of_ne hmk] at hm
      exact .inr ⟨hmk, hml, hm⟩
  refine ⟨⟨fun m p hm => ?_, fun m m' p hm hm' => ?_⟩, ?_⟩
  · rcases hpointer m p hm with ⟨-, hp⟩ | ⟨-, -, hp⟩
    · exact hs.live l p hp
    · exact hs.live m p hp
  · rcases hpointer m p hm with ⟨rfl, hp⟩ | ⟨-, hml, hp⟩ <;>
      rcases hpointer m' p hm' with ⟨rfl, hp'⟩ | ⟨-, hml', hp'⟩
    · rfl
    · exact absurd (hs.apart m' l p hp' hp) hml'
    · exact absurd (hs.apart m l p hp hp') hml
    · exact hs.apart m m' p hp hp'
  · funext m
    by_cases hml : m = l
    · subst hml
      simp [content, OwnedSlots.pass]
    · by_cases hmk : m = k
      · subst hmk
        simp [content, OwnedSlots.pass, hne]
      · simp [content, OwnedSlots.pass, hml, hmk]

/-! ## Counting the blocks -/

/-- The number of blocks there are. -/
def count (s : OwnedSlots β ι) : Nat := s.heap.blocks.countP Option.isSome

theorem count_assign (s : OwnedSlots β ι) (k : ι) (block : β) :
    (s.assign k block).count = s.count + 1 := by
  simp [count, OwnedSlots.assign, BlockHeap.new]

theorem countP_set_block {blocks : List (Option β)} {p : Nat} {old : β}
    (h : blocks[p]? = some (some old)) (block : Option β) :
    (blocks.set p block).countP Option.isSome + 1 =
      blocks.countP Option.isSome + if block.isSome then 1 else 0 := by
  obtain ⟨hlt, hp⟩ := List.getElem?_eq_some_iff.mp h
  have hpos : 0 < blocks.countP Option.isSome :=
    List.countP_pos_iff.mpr ⟨some old, hp ▸ List.getElem_mem hlt, rfl⟩
  rw [List.countP_set hlt, hp]
  simp only [Option.isSome_some, if_true]
  omega

omit [DecidableEq ι] in
theorem count_write {s s' : OwnedSlots β ι} {k : ι} {old block : β} (hk : s.content k = some old)
    (h : s.write k block = some s') : s'.count = s.count := by
  obtain ⟨p, hp, hload⟩ := Option.bind_eq_some_iff.mp hk
  rw [OwnedSlots.write, hp] at h
  obtain rfl := Option.some.inj h
  have hblock : s.heap.blocks[p]? = some (some old) := by
    simpa [BlockHeap.load, Option.join_eq_some_iff] using hload
  have hset := countP_set_block hblock (some block)
  simp only [Option.isSome_some, if_true] at hset
  exact Nat.succ.inj hset

theorem count_release {s s' : OwnedSlots β ι} {k : ι} {old : β} (hk : s.content k = some old)
    (h : s.release k = some s') : s'.count + 1 = s.count := by
  obtain ⟨p, hp, hload⟩ := Option.bind_eq_some_iff.mp hk
  have hblock : s.heap.blocks[p]? = some (some old) := by
    simpa [BlockHeap.load, Option.join_eq_some_iff] using hload
  rw [OwnedSlots.release, hp, BlockHeap.delete, hload] at h
  obtain rfl := Option.some.inj h
  exact countP_set_block hblock none


end OwnedSlots
