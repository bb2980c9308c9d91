import Mathlib.Data.List.Perm.Basic
import Mpool.Lib.OwnedSlots

/-! A heap and a list of the pointers that own its blocks, each block owned once.
Passing a block on permutes the list; `new` puts a pointer to it, `delete` takes
one away, and no block is deleted twice. -/

namespace BlockHeap

variable {β : Type*}

/-- `delete`, one pointer after the other. -/
def deleteAll (heap : BlockHeap β) : List Nat → Option (BlockHeap β)
  | [] => some heap
  | p :: ps =>
    match heap.delete (some p) with
    | none => none
    | some heap => heap.deleteAll ps

/-- The blocks there are are the ones the list owns, each of them once. -/
structure Owned (heap : BlockHeap β) (ps : List Nat) : Prop where
  nodup : ps.Nodup
  live : ∀ p, (heap.load p).isSome = true ↔ p ∈ ps

theorem Owned.perm {heap : BlockHeap β} {ps qs : List Nat} (h : Owned heap ps) (hp : ps.Perm qs) :
    Owned heap qs where
  nodup := hp.nodup_iff.mp h.nodup
  live p := (h.live p).trans hp.mem_iff

theorem owned_empty : Owned (⟨[]⟩ : BlockHeap β) [] where
  nodup := List.nodup_nil
  live p := by simp [load]

theorem Owned.new {heap : BlockHeap β} {ps : List Nat} (h : Owned heap ps) (block : β) :
    Owned (heap.new block).1 ((heap.new block).2 :: ps) where
  nodup := by
    refine List.nodup_cons.mpr ⟨fun hmem => ?_, h.nodup⟩
    have hlive := (h.live _).mpr hmem
    rw [load_new_address heap block] at hlive
    cases hlive
  live p := by
    by_cases hp : p = (heap.new block).2
    · subst hp
      simp [load_new_self]
    · rw [List.mem_cons, or_iff_right hp, ← h.live]
      have hne : p ≠ heap.blocks.length := hp
      simp only [load, BlockHeap.new]
      rw [List.getElem?_append]
      split
      · rfl
      · rw [List.getElem?_eq_none (l := heap.blocks) (by omega),
          List.getElem?_eq_none (by simp only [List.length_singleton]; omega)]

theorem Owned.delete {heap : BlockHeap β} {p : Nat} {ps : List Nat} (h : Owned heap (p :: ps)) :
    ∃ heap', heap.delete (some p) = some heap' ∧ Owned heap' ps ∧
      ∀ q ∈ ps, heap'.load q = heap.load q := by
  have hlive := (h.live p).mpr List.mem_cons_self
  obtain ⟨hnot, hnodup⟩ := List.nodup_cons.mp h.nodup
  refine ⟨⟨heap.blocks.set p none⟩, by simp [BlockHeap.delete, hlive], ⟨hnodup, fun q => ?_⟩,
    fun q hq => load_set_other (fun hpq => hnot (hpq ▸ hq))⟩
  by_cases hq : p = q
  · subst hq
    have hlt := lt_of_load_isSome hlive
    simp [load, hnot, hlt]
  · rw [load_set_other hq, h.live, List.mem_cons, or_iff_right (fun e => hq e.symm)]

/-- What is deleted goes, and the rest stays as it is. -/
theorem Owned.deleteAll {heap : BlockHeap β} {ps qs : List Nat} (h : Owned heap (ps ++ qs)) :
    ∃ heap', heap.deleteAll ps = some heap' ∧ Owned heap' qs ∧
      ∀ q ∈ qs, heap'.load q = heap.load q := by
  induction ps generalizing heap with
  | nil => exact ⟨heap, rfl, h, fun _ _ => rfl⟩
  | cons p ps ih =>
    obtain ⟨heap', hdelete, howned, hsame⟩ := h.delete
    obtain ⟨heap'', hall, howned', hsame'⟩ := ih howned
    refine ⟨heap'', ?_, howned', fun q hq => ?_⟩
    · rw [BlockHeap.deleteAll, hdelete]
      exact hall
    · rw [hsame' q hq, hsame q (List.mem_append_right ps hq)]

end BlockHeap

/-! ## Owners in a list -/

namespace List

variable {α β : Type*}

/-- What the owner at an index has, before what the others have. -/
theorem flatMap_perm_getElem? {l : List α} {x : Nat} {t : α} (h : l[x]? = some t)
    (f : α → List β) : (l.flatMap f).Perm (f t ++ (l.eraseIdx x).flatMap f) := by
  obtain ⟨hlt, rfl⟩ := List.getElem?_eq_some_iff.mp h
  exact (List.getElem_cons_eraseIdx_perm hlt).symm.flatMap_right f

theorem flatMap_set_perm {l : List α} {x : Nat} {t : α} (h : l[x]? = some t) (t' : α)
    (f : α → List β) : ((l.set x t').flatMap f).Perm (f t' ++ (l.eraseIdx x).flatMap f) := by
  have hlt := (List.getElem?_eq_some_iff.mp h).1
  have hperm := flatMap_perm_getElem? (List.getElem?_set_self (a := t') hlt) f
  rwa [List.eraseIdx_set_eq] at hperm

end List
