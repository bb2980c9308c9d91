import Mathlib.Data.List.Basic

/-! Runs of a deterministic system `step : σ → ι → σ` over a list of inputs,
and the induction rules for them. `Always P` holds when `P` is true of the
start and of every state reached; `Along C` holds when every step of the run
meets `C`, a condition on the state before the step and its input. -/

namespace Runs

variable {σ ι : Type*} (step : σ → ι → σ)

def run (s : σ) (is : List ι) : σ := is.foldl step s

@[simp] theorem run_nil (s : σ) : run step s [] = s := rfl

@[simp] theorem run_cons (s : σ) (i : ι) (is : List ι) :
    run step s (i :: is) = run step (step s i) is := rfl

theorem run_append (s : σ) (is js : List ι) :
    run step s (is ++ js) = run step (run step s is) js := by
  simp [run]

/-- `P` holds in every state of the run, the first included. -/
def Always (P : σ → Prop) : σ → List ι → Prop
  | s, [] => P s
  | s, i :: is => P s ∧ Always P (step s i) is

/-- Every step of the run meets `C`. -/
def Along (C : σ → ι → Prop) : σ → List ι → Prop
  | _, [] => True
  | s, i :: is => C s i ∧ Along C (step s i) is

variable {step} {P : σ → Prop} {C : σ → ι → Prop}

theorem Always.head {s : σ} {is : List ι} (h : Always step P s is) : P s := by
  cases is with
  | nil => exact h
  | cons i is => exact h.1

theorem Always.imp {Q : σ → Prop} (hPQ : ∀ s, P s → Q s) {s : σ} {is : List ι}
    (h : Always step P s is) : Always step Q s is := by
  induction is generalizing s with
  | nil => exact hPQ s h
  | cons i is ih => exact ⟨hPQ s h.1, ih h.2⟩

/-- What every state gives for the step taken from it. -/
theorem Always.along (hPC : ∀ s i, P s → C s i) {s : σ} {is : List ι} (h : Always step P s is) :
    Along step C s is := by
  induction is generalizing s with
  | nil => trivial
  | cons i is ih => exact ⟨hPC s i h.1, ih h.2⟩

theorem Along.and {D : σ → ι → Prop} {s : σ} {is : List ι} (hC : Along step C s is)
    (hD : Along step D s is) : Along step (fun s i => C s i ∧ D s i) s is := by
  induction is generalizing s with
  | nil => trivial
  | cons i is ih => exact ⟨⟨hC.1, hD.1⟩, ih hC.2 hD.2⟩

/-- A condition on the inputs alone. -/
theorem along_of_forall {L : ι → Prop} {is : List ι} (h : ∀ i ∈ is, L i) (s : σ) :
    Along step (fun _ i => L i) s is := by
  induction is generalizing s with
  | nil => trivial
  | cons i is ih =>
    exact ⟨h i List.mem_cons_self, ih (fun j hj => h j (List.mem_cons_of_mem i hj)) (step s i)⟩

/-- `Along` by the places where a run can be split. -/
theorem along_iff_split {s : σ} {is : List ι} :
    Along step C s is ↔ ∀ before i after, is = before ++ i :: after →
      C (run step s before) i := by
  induction is generalizing s with
  | nil => exact ⟨fun _ before i after hsplit => by simp at hsplit, fun _ => trivial⟩
  | cons j is ih =>
    constructor
    · rintro ⟨hj, hrest⟩ before i after hsplit
      cases before with
      | nil =>
        obtain ⟨rfl, rfl⟩ := List.cons.inj hsplit
        exact hj
      | cons k before =>
        obtain ⟨rfl, rfl⟩ := List.cons.inj hsplit
        exact ih.mp hrest before i after rfl
    · intro h
      refine ⟨h [] j is rfl, ih.mpr fun before i after hsplit => ?_⟩
      exact h (j :: before) i after (by rw [hsplit, List.cons_append])

theorem along_append {s : σ} {is js : List ι} :
    Along step C s (is ++ js) ↔ Along step C s is ∧ Along step C (run step s is) js := by
  induction is generalizing s with
  | nil => exact ⟨fun h => ⟨trivial, h⟩, fun h => h.2⟩
  | cons i is ih =>
    rw [List.cons_append, Along, ih, Along, run_cons, and_assoc]

/-- The invariant rule: what every step preserves holds at the end. -/
theorem run_invariant (hstep : ∀ s i, P s → P (step s i)) {s : σ} (h : P s)
    (is : List ι) : P (run step s is) := by
  induction is generalizing s with
  | nil => exact h
  | cons i is ih => exact ih (hstep s i h)

/-- The invariant rule for runs whose steps all meet `C`. -/
theorem always_of_along (hstep : ∀ s i, P s → C s i → P (step s i)) {s : σ}
    (h : P s) {is : List ι} (ha : Along step C s is) : Always step P s is := by
  induction is generalizing s with
  | nil => exact h
  | cons i is ih => exact ⟨h, ih (hstep s i h ha.1) ha.2⟩

/-- The same rule for the end of the run. -/
theorem run_of_along (hstep : ∀ s i, P s → C s i → P (step s i)) {s : σ}
    (h : P s) {is : List ι} (ha : Along step C s is) : P (run step s is) := by
  induction is generalizing s with
  | nil => exact h
  | cons i is ih => exact ih (hstep s i h ha.1) ha.2

/-- When an invariant `P` makes `C` exactly what keeps the next state in `Q`,
the runs that stay in `Q` are the runs whose steps meet `C`. -/
theorem always_iff_along {Q : σ → Prop} (hQ : ∀ s, P s → Q s)
    (hstep : ∀ s i, P s → C s i → P (step s i))
    (hleave : ∀ s i, P s → ¬ C s i → ¬ Q (step s i)) {s : σ} (h : P s)
    (is : List ι) : Always step Q s is ↔ Along step C s is := by
  induction is generalizing s with
  | nil => exact ⟨fun _ => trivial, fun _ => hQ s h⟩
  | cons i is ih =>
    constructor
    · rintro ⟨_, ht⟩
      by_cases hc : C s i
      · exact ⟨hc, (ih (hstep s i h hc)).mp ht⟩
      · exact absurd ht.head (hleave s i h hc)
    · rintro ⟨hc, ht⟩
      exact ⟨hQ s h, (ih (hstep s i h hc)).mpr ht⟩

/-- Where a state outside `Q` is never repaired, the end of the run tells whether
all its steps met `C`. -/
theorem run_iff_along {Q : σ → Prop} (hQ : ∀ s, P s → Q s)
    (hstep : ∀ s i, P s → C s i → P (step s i))
    (hleave : ∀ s i, P s → ¬ C s i → ¬ Q (step s i)) (hstays : ∀ s i, ¬ Q s → ¬ Q (step s i))
    {s : σ} (h : P s) (is : List ι) : Q (run step s is) ↔ Along step C s is := by
  induction is generalizing s with
  | nil => exact ⟨fun _ => trivial, fun _ => hQ s h⟩
  | cons i is ih =>
    by_cases hc : C s i
    · rw [run_cons, ih (hstep s i h hc)]
      exact ⟨fun ha => ⟨hc, ha⟩, fun ha => ha.2⟩
    · constructor
      · intro hq
        exact absurd hq (run_invariant hstays (hleave s i h hc) is)
      · intro ha
        exact absurd ha.1 hc

/-- The simulation rule: a system that answers every step taken under `C` with a
run of its own stays related to the end of the whole run. -/
theorem run_simulation {τ κ : Type*} {step' : τ → κ → τ} {R : σ → τ → Prop} (trace : ι → List κ)
    (hstep : ∀ s t i, R s t → C s i → R (step s i) (run step' t (trace i))) {s : σ} {t : τ}
    (h : R s t) {is : List ι} (ha : Along step C s is) :
    R (run step s is) (run step' t (is.flatMap trace)) := by
  induction is generalizing s t with
  | nil => exact h
  | cons i is ih =>
    rw [List.flatMap_cons, run_append]
    exact ih (hstep s t i h ha.1) ha.2

end Runs
