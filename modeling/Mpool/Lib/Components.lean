import Mpool.Lib.Runs

/-! Components that are created one after another and then step on inputs of
their own, in any interleaving. A component has no access to another one, so
what it does is a run of its own. In the guarded version one component that
halts stops them all. -/

namespace Components

open Runs

variable {κ σ ι ω : Type*}

inductive Event (κ ι : Type*) where
  | create (c : κ)
  | input (k : Nat) (i : ι)

/-- The components in the order of their creation, and what they put out. -/
structure World (σ ω : Type*) where
  parts : List σ
  log : List (Nat × ω)

/-- What a component was created from and the inputs it got. -/
structure Life (κ ι : Type*) where
  created : κ
  inputs : List ι

def World.empty : World σ ω := ⟨[], []⟩

/-- The entries of the component `k` in a log. -/
def entriesOf (k : Nat) (log : List (Nat × ω)) : List ω :=
  log.filterMap fun e => if e.1 = k then some e.2 else none

def note (lives : List (Life κ ι)) : Event κ ι → List (Life κ ι)
  | .create c => lives ++ [⟨c, []⟩]
  | .input k i => lives.modify k fun l => ⟨l.created, l.inputs ++ [i]⟩

/-- The lives of the components in a history of events. -/
def lives (es : List (Event κ ι)) : List (Life κ ι) := es.foldl note []

variable (init : κ → σ) (step : σ → ι → σ) (out : σ → ι → List ω) (halts : σ → Bool)

def act (w : World σ ω) : Event κ ι → World σ ω
  | .create c => { w with parts := w.parts ++ [init c] }
  | .input k i =>
    match w.parts[k]? with
    | none => w
    | some s => ⟨w.parts.set k (step s i), w.log ++ (out s i).map (k, ·)⟩

/-- All of them stop once one of them has halted. -/
def guarded (w : World σ ω) (e : Event κ ι) : World σ ω :=
  if w.parts.any halts then w else act init step out w e

/-- What a component puts out in a run of its own. -/
def outputs : σ → List ι → List ω
  | _, [] => []
  | s, i :: is => out s i ++ outputs (step s i) is

def Life.state (l : Life κ ι) : σ := run step (init l.created) l.inputs

def Life.outputs (l : Life κ ι) : List ω := Components.outputs step out (init l.created) l.inputs

/-! ## Every component on its own -/

theorem outputs_append (s : σ) (is js : List ι) :
    outputs step out s (is ++ js) =
      outputs step out s is ++ outputs step out (run step s is) js := by
  induction is generalizing s with
  | nil => rfl
  | cons i is ih => simp [outputs, ih]

theorem entriesOf_append (k j : Nat) (log : List (Nat × ω)) (os : List ω) :
    entriesOf k (log ++ os.map (j, ·)) = entriesOf k log ++ if j = k then os else [] := by
  simp only [entriesOf, List.filterMap_append, List.filterMap_map, Function.comp_def]
  split <;> simp

theorem act_input_none {w : World σ ω} {k : Nat} (h : w.parts[k]? = none) (i : ι) :
    act init step out w (.input k i) = w := by
  simp [act, h]

theorem act_input_some {w : World σ ω} {k : Nat} {s : σ} (h : w.parts[k]? = some s) (i : ι) :
    act init step out w (.input k i) =
      ⟨w.parts.set k (step s i), w.log ++ (out s i).map (k, ·)⟩ := by
  simp [act, h]

/-- The components are those of a history, each in the state its own run leads
to, and the log has the outputs of these runs. -/
structure Tracks (w : World σ ω) (ls : List (Life κ ι)) : Prop where
  parts : w.parts = ls.map (Life.state init step)
  log : ∀ k, entriesOf k w.log = (ls[k]?.map (Life.outputs init step out)).getD []

variable {init step out halts}

theorem Tracks.act {w : World σ ω} {ls : List (Life κ ι)} (h : Tracks init step out w ls)
    (e : Event κ ι) : Tracks init step out (act init step out w e) (note ls e) := by
  cases e with
  | create c =>
    refine ⟨by simp [Components.act, note, h.parts, Life.state], fun k => ?_⟩
    have hk := h.log k
    change entriesOf k w.log = _
    rw [hk, note, List.getElem?_append]
    split
    · rfl
    · rename_i hlt
      -- the new component has put nothing out yet
      rw [List.getElem?_eq_none (by omega)]
      cases hj : k - ls.length with
      | zero => rfl
      | succ j => rfl
  | input j i =>
    have hget : w.parts[j]? = ls[j]?.map (Life.state init step) := by
      rw [h.parts, List.getElem?_map]
    cases hl : ls[j]? with
    | none =>
      rw [hl, Option.map_none] at hget
      have hsame : note ls (.input j i) = ls :=
        List.modify_eq_self (List.getElem?_eq_none_iff.mp hl)
      rw [act_input_none init step out hget, hsame]
      exact h
    | some l =>
      rw [hl, Option.map_some] at hget
      rw [act_input_some init step out hget]
      constructor
      · rw [h.parts, note]
        apply List.ext_getElem?
        intro k
        rw [List.getElem?_set, List.getElem?_map, List.getElem?_map, List.getElem?_modify]
        by_cases hjk : j = k
        · subst hjk
          have hlt := (List.getElem?_eq_some_iff.mp hl).1
          rw [hl]
          simp [hlt, Life.state, run_append]
        · simp [hjk]
      · intro k
        rw [entriesOf_append, h.log k, note, List.getElem?_modify]
        by_cases hjk : j = k
        · subst hjk
          simp [hl, Life.outputs, Life.state, outputs_append, outputs]
        · simp [hjk]

variable (init step out) in
theorem tracks_run (es : List (Event κ ι)) :
    Tracks init step out (run (act init step out) .empty es) (lives es) := by
  suffices h : ∀ (w : World σ ω) (ls : List (Life κ ι)), Tracks init step out w ls →
      Tracks init step out (run (act init step out) w es) (es.foldl note ls) from
    h .empty [] ⟨rfl, fun _ => rfl⟩
  induction es with
  | nil => exact fun _ _ h => h
  | cons e es ih => exact fun w ls h => ih _ _ (h.act e)

/-! ## All together or none -/

theorem act_halted (hstays : ∀ s i, halts s = true → halts (step s i) = true) {w : World σ ω}
    (h : w.parts.any halts = true) (e : Event κ ι) :
    (act init step out w e).parts.any halts = true := by
  obtain ⟨s, hs, hhalt⟩ := List.any_eq_true.mp h
  rw [List.any_eq_true]
  cases e with
  | create c => exact ⟨s, List.mem_append_left _ hs, hhalt⟩
  | input k i =>
    cases hk : w.parts[k]? with
    | none =>
      rw [act_input_none init step out hk]
      exact ⟨s, hs, hhalt⟩
    | some t =>
      obtain ⟨j, hj⟩ := List.getElem?_of_mem hs
      by_cases hjk : k = j
      · subst hjk
        have hst : t = s := Option.some.inj (hk.symm.trans hj)
        subst hst
        have hlt := (List.getElem?_eq_some_iff.mp hk).1
        refine ⟨step t i, ?_, hstays t i hhalt⟩
        rw [act_input_some init step out hk]
        exact List.mem_of_getElem? (List.getElem?_set_self hlt)
      · refine ⟨s, ?_, hhalt⟩
        rw [act_input_some init step out hk]
        exact List.mem_of_getElem? ((List.getElem?_set_ne hjk).trans hj)

variable (init step out) in
/-- The guarded components are all running exactly if each of them is in its own
run, and then they are where these runs lead. -/
theorem guarded_run (hstays : ∀ s i, halts s = true → halts (step s i) = true)
    (w : World σ ω) (es : List (Event κ ι)) :
    (run (guarded init step out halts) w es).parts.any halts =
        (run (act init step out) w es).parts.any halts ∧
      ((run (act init step out) w es).parts.any halts = false →
        run (guarded init step out halts) w es = run (act init step out) w es) := by
  induction es generalizing w with
  | nil => exact ⟨rfl, fun _ => rfl⟩
  | cons e es ih =>
    rw [run_cons, run_cons]
    cases h : w.parts.any halts with
    | false =>
      have hg : guarded init step out halts w e = act init step out w e := by simp [guarded, h]
      rw [hg]
      exact ih _
    | true =>
      have hg : guarded init step out halts w e = w := by simp [guarded, h]
      have hstop : run (guarded init step out halts) w es = w :=
        run_invariant (P := (· = w)) (fun v e' hv => by rw [hv]; simp [guarded, h]) rfl es
      have hact : (run (act init step out) (act init step out w e) es).parts.any halts = true :=
        run_invariant (P := fun v : World σ ω => v.parts.any halts = true)
          (fun _ e' hv => act_halted hstays hv e') (act_halted hstays h e) es
      rw [hg, hstop, h, hact]
      exact ⟨rfl, fun hf => by cases hf⟩

end Components
