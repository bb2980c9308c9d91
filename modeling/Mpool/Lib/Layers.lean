import Mathlib.Data.List.Basic

/-! Layered settings. A layer that introduces keys gives its values to all of
them; another layer only changes the values of keys that are there already. -/

namespace Layers

variable {κ υ : Type*}

structure Layer (κ υ : Type*) where
  introduces : Bool
  value : κ → Option υ

/-- The value of a key after this layer, by its value before. -/
def Layer.put (l : Layer κ υ) (key : κ) (old : Option υ) : Option υ :=
  if l.introduces then (l.value key).or old else old.map fun v => (l.value key).getD v

def put (key : κ) (ls : List (Layer κ υ)) (old : Option υ) : Option υ :=
  ls.foldl (fun old l => l.put key old) old

def Layer.brings (key : κ) (l : Layer κ υ) : Bool := l.introduces && (l.value key).isSome

/-- From the layer on that introduces the key, the last layer that has it decides. -/
def decided (ls : List (Layer κ υ)) (key : κ) : Option υ :=
  (ls.dropWhile fun l => !l.brings key).reverse.findSome? fun l => l.value key

@[simp] theorem put_nil (key : κ) (old : Option υ) : put key [] old = old := rfl

@[simp] theorem put_cons (key : κ) (l : Layer κ υ) (ls : List (Layer κ υ)) (old : Option υ) :
    put key (l :: ls) old = put key ls (l.put key old) := rfl

theorem put_append (key : κ) (ls ls' : List (Layer κ υ)) (old : Option υ) :
    put key (ls ++ ls') old = put key ls' (put key ls old) := by
  simp [put]

theorem Layer.put_some (l : Layer κ υ) (key : κ) (v : υ) :
    l.put key (some v) = some ((l.value key).getD v) := by
  unfold Layer.put
  cases l.introduces <;> cases l.value key <;> rfl

/-- A key that is there keeps its value until a layer has it. -/
theorem put_some (key : κ) (ls : List (Layer κ υ)) (v : υ) :
    put key ls (some v) = (ls.reverse.findSome? fun l => l.value key).or (some v) := by
  induction ls generalizing v with
  | nil => rfl
  | cons l ls ih =>
    rw [put_cons, Layer.put_some, ih, List.reverse_cons, List.findSome?_append, Option.or_assoc]
    cases hl : l.value key <;> simp [hl]

theorem put_none (key : κ) (ls : List (Layer κ υ)) : put key ls none = decided ls key := by
  induction ls with
  | nil => rfl
  | cons l ls ih =>
    rw [put_cons, decided, List.dropWhile_cons]
    cases hb : l.brings key with
    | false =>
      have hnone : l.put key none = none := by
        unfold Layer.put
        cases hi : l.introduces with
        | false => rfl
        | true => simpa [Layer.brings, hi] using hb
      rw [hnone, ih]
      rfl
    | true =>
      obtain ⟨hi, hsome⟩ := Bool.and_eq_true_iff.mp hb
      obtain ⟨v, hv⟩ := Option.isSome_iff_exists.mp hsome
      have hput : l.put key none = some v := by simp [Layer.put, hi, hv]
      rw [hput, put_some]
      simp [List.findSome?_append, hv]

end Layers
