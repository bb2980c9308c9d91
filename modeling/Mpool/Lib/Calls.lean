import Mathlib.Tactic.TypeStar

/-! Objects that answer calls: a state, and for each call the next state with the answer, or
a fault that ends the run. Two objects give the same answers to every sequence of calls when
a relation between their states is kept by each call. -/

namespace Calls

variable {σ τ κ α ε : Type*}

/-- The answers to a sequence of calls, up to the first fault. -/
def callAll (call : σ → κ → Except ε (σ × α)) : σ → List κ → Except ε (List α)
  | _, [] => .ok []
  | s, k :: ks =>
    match call s k with
    | .error e => .error e
    | .ok (s, answer) => (callAll call s ks).map (answer :: ·)

/-- The answers behind the first one. -/
theorem callAll_of_answer {call : σ → κ → Except ε (σ × α)} {s s' : σ} {k : κ} {ks : List κ}
    {a : α} {answers : List α} (hfirst : call s k = .ok (s', a))
    (h : callAll call s (k :: ks) = .ok answers) :
    ∃ rest, callAll call s' ks = .ok rest ∧ answers = a :: rest := by
  simp only [callAll, hfirst] at h
  cases hrest : callAll call s' ks with
  | error e =>
    rw [hrest] at h
    cases h
  | ok rest =>
    rw [hrest] at h
    exact ⟨rest, rfl, (Except.ok.inj h).symm⟩

/-- Two results of one call that cannot be told apart, and keep `R`. -/
inductive Agree (R : σ → τ → Prop) : Except ε (σ × α) → Except ε (τ × α) → Prop where
  | fault (e : ε) : Agree R (.error e) (.error e)
  | answer {s : σ} {t : τ} (a : α) (h : R s t) : Agree R (.ok (s, a)) (.ok (t, a))

/-- The simulation rule. -/
theorem callAll_eq {call : σ → κ → Except ε (σ × α)} {call' : τ → κ → Except ε (τ × α)}
    {R : σ → τ → Prop} (hcall : ∀ s t, R s t → ∀ k, Agree R (call s k) (call' t k)) {s : σ}
    {t : τ} (h : R s t) (ks : List κ) : callAll call s ks = callAll call' t ks := by
  induction ks generalizing s t with
  | nil => rfl
  | cons k ks ih =>
    have hk := hcall s t h k
    simp only [callAll]
    revert hk
    generalize call s k = x, call' t k = y
    intro hk
    cases hk with
    | fault e => rfl
    | answer a hnext => simp only [ih hnext]

end Calls
