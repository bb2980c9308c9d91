import Mathlib.Data.Nat.Find
import Mathlib.Logic.Function.Iterate
import Mathlib.Order.BooleanAlgebra.Set

/-! Threads that share locks which are only ever tried, and the rules for what one
thread may do with them. `Prog.Safe` looks at one thread and the locks it holds;
what the other threads do meanwhile does not change it. -/

namespace Locking

/-- What a thread has still to do, up to its result. `attempt` tries a lock and
goes on either way; `tryUntil` tries the locks `turn i`, `turn (i + 1)`, … until
it gets one; `use` makes any number of calls on what the locks protect. -/
inductive Prog (L R : Type*) where
  | ret (result : R)
  | abort
  | tryLock (lock : L) (k : Bool → Prog L R)
  | attempt (lock : L) (k : Prog L R)
  | tryUntil (turn : Nat → L) (i : Nat) (k : L → Prog L R)
  | use (locks : List L) (k : Prog L R)
  | unlock (lock : L) (k : Prog L R)

variable {T L R : Type*}

/-! ## The rules -/

/-- What a thread that holds `H` may do beside taking a lock and releasing one it
holds: whether an `attempt` may occur (it is then taken to succeed), which calls
it may make and which loops it may enter. -/
structure Rules (L : Type*) where
  attempt : Prop
  use : L → Set L → Prop
  loop : (Nat → L) → Set L → Prop

/-- The program `prog` keeps the rules for a thread that holds `H`, and its
result meets `Q`. -/
def Prog.Safe (rules : Rules L) (Q : R → Set L → Prop) : Prog L R → Set L → Prop
  | .ret result, H => Q result H
  | .abort, _ => True
  | .tryLock lock k, H =>
    (lock ∉ H → Safe rules Q (k true) (insert lock H)) ∧ Safe rules Q (k false) H
  | .attempt lock k, H => rules.attempt ∧ (lock ∉ H → Safe rules Q k (insert lock H))
  | .tryUntil turn _ k, H =>
    rules.loop turn H ∧ ∀ lock ∉ H, Safe rules Q (k lock) (insert lock H)
  | .use locks k, H => (∀ lock ∈ locks, rules.use lock H) ∧ Safe rules Q k H
  | .unlock lock k, H => lock ∈ H ∧ Safe rules Q k (H \ {lock})

namespace Prog

variable {rules : Rules L} {Q : R → Set L → Prop}

@[simp] theorem safe_ret {result : R} {H : Set L} :
    (Prog.ret result).Safe rules Q H ↔ Q result H := Iff.rfl

@[simp] theorem safe_abort {H : Set L} : (Prog.abort : Prog L R).Safe rules Q H := trivial

/-- A lock that is taken and given back leaves what was held before. -/
theorem safe_bracket {lock : L} {locks : List L} {k : Prog L R} {H : Set L} (hfree : lock ∉ H)
    (huse : ∀ l ∈ locks, rules.use l (insert lock H)) (hk : k.Safe rules Q H) :
    (Prog.use locks (.unlock lock k)).Safe rules Q (insert lock H) := by
  refine ⟨huse, Set.mem_insert lock H, ?_⟩
  rw [Set.insert_sdiff_self_of_notMem hfree]
  exact hk

end Prog

/-! ## Who holds what -/

/-- The locks that a thread holds. -/
def held (owner : L → Option T) (t : T) : Set L := {lock | owner lock = some t}

@[simp] theorem mem_held {owner : L → Option T} {t : T} {lock : L} :
    lock ∈ held owner t ↔ owner lock = some t := Iff.rfl

theorem not_mem_held {owner : L → Option T} {lock : L} (h : owner lock = none) (t : T) :
    lock ∉ held owner t := by
  simp [h]

variable [DecidableEq L]

def acquire (owner : L → Option T) (lock : L) (t : T) : L → Option T :=
  Function.update owner lock (some t)

def release (owner : L → Option T) (lock : L) : L → Option T :=
  Function.update owner lock none

theorem held_acquire {owner : L → Option T} {lock : L} (t : T) :
    held (acquire owner lock t) t = insert lock (held owner t) := by
  ext l
  simp only [mem_held, acquire, Function.update_apply, Set.mem_insert_iff]
  split <;> simp_all

theorem held_acquire_other {owner : L → Option T} {lock : L} {t t' : T} (hfree : owner lock = none)
    (hne : t' ≠ t) : held (acquire owner lock t) t' = held owner t' := by
  ext l
  simp only [mem_held, acquire, Function.update_apply]
  split
  · subst_vars
    simp [hfree, hne.symm]
  · rfl

theorem held_release {owner : L → Option T} {lock : L} (t : T) :
    held (release owner lock) t = held owner t \ {lock} := by
  ext l
  simp only [mem_held, release, Function.update_apply, Set.mem_sdiff, Set.mem_singleton_iff]
  split <;> simp_all

theorem held_release_other {owner : L → Option T} {lock : L} {t t' : T}
    (howner : owner lock = some t) (hne : t' ≠ t) :
    held (release owner lock) t' = held owner t' := by
  rw [held_release]
  apply Set.sdiff_singleton_eq_self
  simp [howner, hne.symm]

/-! ## Steps -/

namespace Prog

/-- The next step of a thread: the owners it leaves and what remains to do. The
end of a `use` is a step; the calls made during it change nothing. -/
def next (t : T) (owner : L → Option T) : Prog L R → (L → Option T) × Prog L R
  | .ret result => (owner, .ret result)
  | .abort => (owner, .abort)
  | .tryLock lock k =>
    match owner lock with
    | none => (acquire owner lock t, k true)
    | some _ => (owner, k false)
  | .attempt lock k =>
    match owner lock with
    | none => (acquire owner lock t, k)
    | some _ => (owner, k)
  | .tryUntil turn i k =>
    match owner (turn i) with
    | none => (acquire owner (turn i) t, k (turn i))
    | some _ => (owner, .tryUntil turn (i + 1) k)
  | .use _ k => (owner, k)
  | .unlock lock k => (release owner lock, k)

/-- What a thread makes of a state in `m` steps with nobody else about. -/
def nexts (t : T) (owner : L → Option T) (prog : Prog L R) (m : Nat) :
    (L → Option T) × Prog L R :=
  (fun s => s.2.next t s.1)^[m] (owner, prog)

variable {rules : Rules L} {Q : R → Set L → Prop} {owner : L → Option T} {t t' : T}
  {prog : Prog L R}

/-- A step of the thread itself. -/
theorem Safe.next (h : prog.Safe rules Q (held owner t))
    (hattempt : rules.attempt → ∀ lock k, prog = .attempt lock k → owner lock = none) :
    (prog.next t owner).2.Safe rules Q (held (prog.next t owner).1 t) := by
  cases prog with
  | ret result => exact h
  | abort => trivial
  | tryLock lock k =>
    cases howner : owner lock with
    | none =>
      simp only [Prog.next, howner, held_acquire]
      exact h.1 (not_mem_held howner t)
    | some t' =>
      simp only [Prog.next, howner]
      exact h.2
  | attempt lock k =>
    have howner := hattempt h.1 lock k rfl
    simp only [Prog.next, howner, held_acquire]
    exact h.2 (not_mem_held howner t)
  | tryUntil turn i k =>
    cases howner : owner (turn i) with
    | none =>
      simp only [Prog.next, howner, held_acquire]
      exact h.2 (turn i) (not_mem_held howner t)
    | some t' =>
      simp only [Prog.next, howner]
      exact h
  | use locks k => exact h.2
  | unlock lock k =>
    simp only [Prog.next, held_release]
    exact h.2

/-- What the other threads hold does not change. -/
theorem Safe.next_other (h : prog.Safe rules Q (held owner t)) (hne : t' ≠ t) :
    held (prog.next t owner).1 t' = held owner t' := by
  cases prog with
  | ret result => rfl
  | abort => rfl
  | tryLock lock k =>
    cases howner : owner lock with
    | none => simp only [Prog.next, howner, held_acquire_other howner hne]
    | some t' => simp only [Prog.next, howner]
  | attempt lock k =>
    cases howner : owner lock with
    | none => simp only [Prog.next, howner, held_acquire_other howner hne]
    | some t' => simp only [Prog.next, howner]
  | tryUntil turn i k =>
    cases howner : owner (turn i) with
    | none => simp only [Prog.next, howner, held_acquire_other howner hne]
    | some t' => simp only [Prog.next, howner]
  | use locks k => rfl
  | unlock lock k => exact held_release_other h.1 hne

end Prog

/-! ## All threads together -/

/-- Every thread keeps its rules, with the result it is to have. -/
def AllSafe (rules : T → Rules L) (Q : T → R → Set L → Prop) (owner : L → Option T)
    (prog : T → Prog L R) : Prop :=
  ∀ t, (prog t).Safe (rules t) (Q t) (held owner t)

namespace AllSafe

variable [DecidableEq T] {rules : T → Rules L} {Q Q' : T → R → Set L → Prop}
  {owner : L → Option T} {prog : T → Prog L R}

theorem next (h : AllSafe rules Q owner prog) {t : T}
    (hattempt : (rules t).attempt → ∀ lock k, prog t = .attempt lock k → owner lock = none) :
    AllSafe rules Q ((prog t).next t owner).1
      (Function.update prog t ((prog t).next t owner).2) := by
  intro t'
  by_cases ht : t' = t
  · subst ht
    rw [Function.update_self]
    exact (h t').next hattempt
  · rw [Function.update_of_ne ht, (h t).next_other ht]
    exact h t'

omit [DecidableEq L] in
/-- One thread gets a new program, and with it a new result to reach. -/
theorem update (h : AllSafe rules Q owner prog) {t : T} {new : Prog L R}
    (hnew : new.Safe (rules t) (Q' t) (held owner t)) (hothers : ∀ t' ≠ t, Q' t' = Q t') :
    AllSafe rules Q' owner (Function.update prog t new) := by
  intro t'
  by_cases ht : t' = t
  · subst ht
    rw [Function.update_self]
    exact hnew
  · rw [Function.update_of_ne ht, hothers t' ht]
    exact h t'

end AllSafe

namespace Prog

variable {owner : L → Option T} {t : T}

/-! ## The loop of `tryUntil` -/

variable {turn : Nat → L} {i : Nat} {k : L → Prog L R}

/-- The loop ends with the first lock that is free. -/
theorem tryUntil_takes {d : Nat} (htaken : ∀ m < d, owner (turn (i + m)) ≠ none)
    (hfree : owner (turn (i + d)) = none) : nexts t owner (.tryUntil turn i k) (d + 1) =
      (acquire owner (turn (i + d)) t, k (turn (i + d))) := by
  induction d generalizing i with
  | zero =>
    rw [Nat.add_zero] at hfree
    simp only [nexts, Nat.add_zero, Function.iterate_succ_apply, Function.iterate_zero_apply, next,
      hfree]
  | succ d ih =>
    obtain ⟨t', howner⟩ := Option.ne_none_iff_exists'.mp (htaken 0 (Nat.succ_pos d))
    have hrest := ih (i := i + 1) (fun m hm => by
      rw [Nat.add_right_comm, Nat.add_assoc]
      exact htaken (m + 1) (Nat.succ_lt_succ hm)) (by rwa [Nat.add_right_comm, Nat.add_assoc])
    rw [Nat.add_right_comm, Nat.add_assoc] at hrest
    rw [nexts, Function.iterate_succ_apply]
    simp only [next, show owner (turn i) = some t' from howner]
    exact hrest

/-- With a free lock to come, the loop ends. -/
theorem tryUntil_leaves {j : Nat} (hij : i ≤ j) (hfree : owner (turn j) = none) :
    ∃ m lock, (nexts t owner (.tryUntil turn i k) m).2 = k lock := by
  classical
  have hexists : ∃ d, owner (turn (i + d)) = none := ⟨j - i, by rwa [Nat.add_sub_cancel' hij]⟩
  have htakes := tryUntil_takes (t := t) (k := k) (fun m hm => Nat.find_min hexists hm)
    (Nat.find_spec hexists)
  exact ⟨_, _, congrArg Prod.snd htakes⟩

/-- With none to come, it goes on forever. -/
theorem tryUntil_spins (htaken : ∀ j, i ≤ j → owner (turn j) ≠ none) (m : Nat) :
    nexts t owner (.tryUntil turn i k) m = (owner, .tryUntil turn (i + m) k) := by
  induction m with
  | zero => rfl
  | succ m ih =>
    cases howner : owner (turn (i + m)) with
    | none => exact absurd howner (htaken (i + m) (Nat.le_add_right i m))
    | some t' =>
      rw [nexts] at ih
      rw [nexts, Function.iterate_succ_apply', ih]
      simp only [next, howner]
      rfl

omit [DecidableEq L] in
/-- What follows the loop is not the loop. -/
theorem tryUntil_ne (lock : L) (j : Nat) : k lock ≠ .tryUntil turn j k := by
  suffices ∀ (prog : Prog L R) turn i k, prog = .tryUntil turn i k →
      ∀ lock j, k lock ≠ .tryUntil turn j k from this _ turn j k rfl lock j
  intro prog
  induction prog with
  | tryUntil turn' i' k' ih =>
    intro turn i k h lock j hk
    cases h
    exact ih lock turn' j k' hk lock j hk
  | ret result => exact nofun
  | abort => exact nofun
  | tryLock lock k ih => exact nofun
  | attempt lock k ih => exact nofun
  | use locks k ih => exact nofun
  | unlock lock k ih => exact nofun

/-- The thread gets through the loop it stands in, if it stands in one. -/
def Leaves (t : T) (owner : L → Option T) (prog : Prog L R) : Prop :=
  ∀ turn i k, prog = .tryUntil turn i k → ∃ m lock, (nexts t owner prog m).2 = k lock

theorem leaves_tryUntil_iff : Leaves t owner (.tryUntil turn i k) ↔
    ∃ j, i ≤ j ∧ owner (turn j) = none := by
  constructor
  · intro h
    by_contra hnone
    push Not at hnone
    obtain ⟨m, lock, hm⟩ := h turn i k rfl
    rw [tryUntil_spins hnone] at hm
    exact tryUntil_ne lock (i + m) hm.symm
  · rintro ⟨j, hij, hfree⟩ turn' i' k' h
    cases h
    exact tryUntil_leaves hij hfree

end Prog

end Locking
