import Mathlib.Algebra.Ring.Nat
import Mathlib.Data.List.GetD

/-! Memory as a function from addresses to cells: ranges that are written and read,
what a write leaves alone, and records that stand one behind the other at a fixed
stride. -/

namespace Memory

variable {α : Type*}

/-- The cells `p`, `p + 1`, .. become those of the list. -/
def write (memory : Nat → α) (p : Nat) (cells : List α) : Nat → α :=
  fun a => if p ≤ a then cells.getD (a - p) (memory a) else memory a

def read (memory : Nat → α) (p n : Nat) : List α := (List.range n).map fun i => memory (p + i)

@[simp] theorem length_read (memory : Nat → α) (p n : Nat) : (read memory p n).length = n := by
  simp [read]

/-- A write changes nothing outside its range. -/
theorem write_outside {memory : Nat → α} {p a : Nat} {cells : List α}
    (h : a < p ∨ p + cells.length ≤ a) : write memory p cells a = memory a := by
  unfold write
  split
  · exact List.getD_eq_default cells _ (by omega)
  · rfl

theorem write_inside {memory : Nat → α} {p i : Nat} {cells : List α} (h : i < cells.length) :
    write memory p cells (p + i) = cells[i] := by
  rw [write, if_pos (Nat.le_add_right p i), Nat.add_sub_cancel_left, List.getD_eq_getElem _ _ h]

theorem read_take (memory : Nat → α) (p : Nat) {m n : Nat} (h : m ≤ n) :
    (read memory p n).take m = read memory p m := by
  rw [read, read, ← List.map_take, List.take_range, Nat.min_eq_left h]

theorem read_write (memory : Nat → α) (p : Nat) (cells : List α) :
    read (write memory p cells) p cells.length = cells := by
  apply List.ext_getElem
  · rw [length_read]
  · intro i hi hi'
    simp only [read, List.getElem_map, List.getElem_range]
    exact write_inside hi'

/-- Two memories that agree on a range read the same there. -/
theorem read_congr {memory memory' : Nat → α} {p n : Nat}
    (h : ∀ a, p ≤ a → a < p + n → memory a = memory' a) :
    read memory p n = read memory' p n := by
  apply List.map_congr_left
  intro i hi
  rw [List.mem_range] at hi
  exact h (p + i) (Nat.le_add_right p i) (by omega)

/-! ## Records at a stride -/

/-- Where item `i` of record `k` begins. -/
def slot (sizes : List Nat) (i k : Nat) : Nat := (sizes.take i).sum + k * sizes.sum

theorem sum_take_succ {sizes : List Nat} {i : Nat} (h : i < sizes.length) :
    (sizes.take (i + 1)).sum = (sizes.take i).sum + sizes[i] := by
  rw [List.take_succ_eq_append_getElem h, List.sum_append, List.sum_singleton]

theorem sum_take_mono (sizes : List Nat) {i j : Nat} (h : i ≤ j) :
    (sizes.take i).sum ≤ (sizes.take j).sum := by
  have hsplit : sizes.take j = sizes.take i ++ (sizes.take j).drop i := by
    have hdrop := List.take_append_drop i (sizes.take j)
    rw [List.take_take, Nat.min_eq_left h] at hdrop
    exact hdrop.symm
  rw [hsplit, List.sum_append]
  exact Nat.le_add_right _ _

theorem sum_take_le (sizes : List Nat) (i : Nat) : (sizes.take i).sum ≤ sizes.sum := by
  by_cases hi : i ≤ sizes.length
  · have hmono := sum_take_mono sizes hi
    rwa [List.take_length] at hmono
  · have hall : sizes.take i = sizes := List.take_of_length_le (by omega)
    exact Nat.le_of_eq (congrArg List.sum hall)

/-- An item ends before the next record begins. -/
theorem slot_end {sizes : List Nat} {i : Nat} (h : i < sizes.length) (k : Nat) :
    slot sizes i k + sizes[i] ≤ (k + 1) * sizes.sum := by
  have hle := sum_take_le sizes (i + 1)
  rw [sum_take_succ h] at hle
  rw [slot, Nat.succ_mul]
  omega

theorem slot_inside {sizes : List Nat} {i k n : Nat} (h : i < sizes.length) (hk : k < n) :
    slot sizes i k + sizes[i] ≤ sizes.sum * n := by
  have hmul : (k + 1) * sizes.sum ≤ n * sizes.sum := Nat.mul_le_mul_right _ hk
  have hend := slot_end h k
  rw [Nat.mul_comm]
  omega

/-- Two items are apart: they are in different records, or they are different items
of one. -/
theorem slot_apart {sizes : List Nat} {i j k l : Nat} (hi : i < sizes.length)
    (hj : j < sizes.length) (hne : (i, k) ≠ (j, l)) :
    slot sizes i k + sizes[i] ≤ slot sizes j l ∨ slot sizes j l + sizes[j] ≤ slot sizes i k := by
  rcases Nat.lt_trichotomy k l with hlt | rfl | hlt
  · left
    have hmul : (k + 1) * sizes.sum ≤ l * sizes.sum := Nat.mul_le_mul_right _ hlt
    have hend := slot_end hi k
    have hstart : l * sizes.sum ≤ slot sizes j l := Nat.le_add_left _ _
    omega
  · rcases Nat.lt_trichotomy i j with hlt | rfl | hlt
    · left
      have hmono := sum_take_mono sizes (Nat.succ_le_of_lt hlt)
      rw [Nat.succ_eq_add_one, sum_take_succ hi] at hmono
      unfold slot
      omega
    · exact absurd rfl hne
    · right
      have hmono := sum_take_mono sizes (Nat.succ_le_of_lt hlt)
      rw [Nat.succ_eq_add_one, sum_take_succ hj] at hmono
      unfold slot
      omega
  · right
    have hmul : (l + 1) * sizes.sum ≤ k * sizes.sum := Nat.mul_le_mul_right _ hlt
    have hend := slot_end hj l
    have hstart : k * sizes.sum ≤ slot sizes i k := Nat.le_add_left _ _
    omega

end Memory
