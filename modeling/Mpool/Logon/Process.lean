import Mpool.Database.ConfiguredPools
import Mpool.Logon.Server

/-! `main.cpp`: what `main` does before the service starts, and the process from
then on, with the main thread and the threads of the service taking steps in any
order. `Stop` joins every thread. `main` calls it, and the destructor of the
service calls it once more, where the threads are no longer joinable. -/

namespace Mpool

open Util (text)

/-- `GetOption<int32>`. -/
def ConfigMgr.getOptionInt32 (this : ConfigMgr) (name : Bytes) (default : Int) : Int :=
  match this.configOptions.lookup name with
  | none => default
  | some value => (stringToSigned 32 value).getD default

namespace Logon

open Runs Database

inductive Exit where
  | returned (code : Nat)
  | terminated
  deriving DecidableEq

/-- What the main thread does next: it waits in `getchar`, joins the thread at
`k` in a call of `Stop` (from `main` or from the destructor), or is at its end. -/
inductive Point where
  | input
  | join (destructor : Bool) (k : Nat)
  | ended (e : Exit)
  deriving DecidableEq

/-- A `std::thread`: it is joinable until it is joined. -/
inductive Thread where
  | running
  | returned
  | joined
  deriving DecidableEq

/-- `stopDB` counts the calls of `StopDB`, the deleter of `dbHandle`. -/
structure Process where
  point : Point
  threads : List Thread
  stopped : Bool
  service : Service
  stopDB : Nat

/-- A step of the main thread, a handler on a thread of the service, or the
return of one of these threads from `run`. -/
inductive Tick where
  | main
  | handler (e : ServiceEvent)
  | return (k : Nat)

namespace Process

/-- `Start` on a new service. -/
def serving (nThreads : Nat) (accounts : List Account) : Process where
  point := .input
  threads := List.replicate nThreads .running
  stopped := false
  service := .start accounts
  stopDB := 0

/-- The main thread at the thread `k` of the loop in `Stop`. -/
def join (p : Process) (destructor : Bool) (k : Nat) : Process :=
  match p.threads[k]? with
  | some .running => p
  | some .returned =>
    { p with threads := p.threads.set k .joined, point := .join destructor (k + 1) }
  -- `join` throws, out of `main` or of a destructor
  | some .joined => { p with point := .ended .terminated }
  | none =>
    if destructor then { p with point := .ended (.returned 0), stopDB := p.stopDB + 1 }
    else { p with point := .join true 0 }

variable (H : Hash) (same : Bytes → Bytes → Bool)

def handle (p : Process) (e : ServiceEvent) : Process :=
  let service := p.service.step H same e
  { p with service := service, point := if service.up then p.point else .ended .terminated }

def step (p : Process) (t : Tick) : Process :=
  match p.point, t with
  | .ended _, _ => p
  | .input, .main => { p with stopped := true, point := .join false 0 }
  | .join destructor k, .main => p.join destructor k
  | _, .handler e => if !p.stopped && p.threads.contains .running then p.handle H same e else p
  | _, .return k =>
    if p.stopped && p.threads[k]? = some .running then
      { p with threads := p.threads.set k .returned }
    else p

end Process

/-! ## Startup -/

variable {Op : Type*}

/-- How `main` ends without starting the service. -/
structure Ended where
  exit : Exit
  stopDB : Nat

def startDB (this : ConfigMgr) (behaviour : Behaviour Op) : Bool :=
  if this.getOptionString (text "LoginDatabaseInfo") [] = [] then false
  else (DatabaseLoader.load (fun _ => registration this (text "Login") behaviour) 1).2

def serverPort (this : ConfigMgr) : Int := this.getOptionInt32 (text "ServerPort") 1234

def nThreads : Nat := 1

/-- What `main` asks for before it makes the service. -/
structure Checked (this : ConfigMgr) (loaded : Bool) (behaviour : Behaviour Op) : Prop where
  loaded : loaded = true
  startDB : startDB this behaviour = true
  port : ¬ (serverPort this < 0 ∨ 0xFFFF < serverPort this)

/-- `main` up to `getchar`. `listens` tells whether the acceptor can be bound to a
port; where it cannot, the constructor of the service throws. -/
def launch (order : IterationOrder) (files : Bytes → ConfigFile) (behaviour : Behaviour Op)
    (listens : Int → Bool) (accounts : List Account) (configFile : Bytes) :
    Except Ended Process :=
  let (this, loaded) := (ConfigMgr.configure configFile).loadAppConfigs order files false
  if !loaded then .error ⟨.returned 1, 0⟩
  else if !startDB this behaviour then .error ⟨.returned 1, 0⟩
  else if serverPort this < 0 ∨ 0xFFFF < serverPort this then .error ⟨.returned 1, 1⟩
  else if listens (serverPort this) then .ok (.serving nThreads accounts)
  else .error ⟨.terminated, 0⟩

/-! ## Runs of the process -/

namespace Process

/-- What holds at each point of the main thread. -/
def At (p : Process) : Point → Prop
  | .input => p.stopped = false ∧ ∀ t ∈ p.threads, t = .running
  | .join false k => p.stopped = true ∧ ∀ j t, p.threads[j]? = some t → (t = .joined ↔ j < k)
  | .join true k => k = 0 ∧ p.stopped = true ∧ ∀ t ∈ p.threads, t = .joined
  | .ended e => e = .terminated ∧ (p.service.up = false ∨ ∀ t ∈ p.threads, t = .joined)

/-- A process with threads to join, at a point it can be at. -/
structure Valid (p : Process) : Prop where
  threads : p.threads ≠ []
  stopDB : p.stopDB = 0
  at_point : p.At p.point

variable (H : Hash) (same : Bytes → Bytes → Bool)

theorem Valid.serving {n : Nat} (hn : n ≠ 0) (accounts : List Account) :
    Valid (.serving n accounts) where
  threads h := hn (by simpa [Process.serving] using congrArg List.length h)
  stopDB := rfl
  at_point := ⟨rfl, fun _ ht => List.eq_of_mem_replicate ht⟩

theorem Valid.handle {p : Process} (h : Valid p) (hpoint : ∀ e, p.point ≠ .ended e)
    (e : ServiceEvent) : Valid (p.handle H same e) := by
  have hat := h.at_point
  refine ⟨h.threads, h.stopDB, ?_⟩
  cases hup : (p.service.step H same e).up with
  | false => simp [Process.handle, At, hup]
  | true =>
    simp only [Process.handle, hup, ↓reduceIte]
    cases hp : p.point with
    | input => rwa [hp] at hat
    | join d k =>
      rw [hp] at hat
      cases d <;> exact hat
    | ended e => exact absurd hp (hpoint e)

/-- In `main` the threads are joined one after the other, up to the destructor. -/
theorem Valid.join_main {p : Process} {k : Nat} (h : Valid p) (hp : p.point = .join false k) :
    Valid (p.join false k) := by
  obtain ⟨hstop, hall⟩ : p.At (.join false k) := hp ▸ h.at_point
  unfold Process.join
  split
  · exact h
  · rename_i hk
    refine ⟨by simpa using h.threads, h.stopDB, hstop, fun j t hj => ?_⟩
    by_cases hjk : k = j
    · subst hjk
      have hlt := (List.getElem?_eq_some_iff.mp hk).1
      rw [List.getElem?_set_self hlt] at hj
      cases hj
      exact iff_of_true rfl (by omega)
    · rw [List.getElem?_set_ne hjk] at hj
      rw [hall j t hj]
      omega
  · rename_i hk
    exact absurd ((hall k _ hk).mp rfl) (by omega)
  · rename_i hk
    have hlen := List.getElem?_eq_none_iff.mp hk
    rw [if_neg Bool.false_ne_true]
    refine ⟨h.threads, h.stopDB, rfl, hstop, fun t ht => ?_⟩
    obtain ⟨j, hj⟩ := List.getElem?_of_mem ht
    have hlt : j < p.threads.length := (List.getElem?_eq_some_iff.mp hj).1
    exact (hall j t hj).mpr (by omega)

/-- In the destructor the first `join` throws. -/
theorem join_destructor {p : Process} (h : Valid p) {k : Nat} (hp : p.point = .join true k) :
    p.join true k = { p with point := .ended .terminated } := by
  obtain ⟨rfl, -, hall⟩ : p.At (.join true k) := hp ▸ h.at_point
  obtain ⟨t, ts, hts⟩ := List.exists_cons_of_ne_nil h.threads
  have ht : t = .joined := hall t (by rw [hts]; exact List.mem_cons_self)
  simp [join, hts, ht]

theorem Valid.return {p : Process} (h : Valid p) (hstop : p.stopped = true) {k : Nat}
    (hk : p.threads[k]? = some .running) :
    Valid { p with threads := p.threads.set k .returned } := by
  have hat := h.at_point
  have hmem := List.mem_of_getElem? hk
  refine ⟨by simpa using h.threads, h.stopDB, ?_⟩
  change At _ p.point
  cases hp : p.point with
  | input =>
    rw [hp, At, hstop] at hat
    cases hat.1
  | join d i =>
    rw [hp] at hat
    cases d with
    | true => exact absurd (hat.2.2 _ hmem) (by decide)
    | false =>
      refine ⟨hstop, fun j t hj => ?_⟩
      by_cases hkj : k = j
      · subst hkj
        have hlt := (List.getElem?_eq_some_iff.mp hk).1
        rw [List.getElem?_set_self hlt] at hj
        cases hj
        have := hat.2 k _ hk
        simp_all
      · rw [List.getElem?_set_ne hkj] at hj
        exact hat.2 j t hj
  | ended e =>
    rw [hp] at hat
    refine ⟨hat.1, hat.2.imp_right fun hall => absurd (hall _ hmem) (by decide)⟩

theorem Valid.step {p : Process} (h : Valid p) (t : Tick) : Valid (p.step H same t) := by
  unfold Process.step
  split
  · exact h
  · rename_i hp
    have hat := h.at_point
    rw [hp] at hat
    refine ⟨h.threads, h.stopDB, rfl, fun j t hj => ?_⟩
    have hrun := hat.2 t (List.mem_of_getElem? hj)
    simp [hrun]
  · rename_i d k hp
    cases d with
    | false => exact h.join_main hp
    | true =>
      rw [join_destructor h hp]
      obtain ⟨-, -, hall⟩ : p.At (.join true k) := hp ▸ h.at_point
      exact ⟨h.threads, h.stopDB, rfl, .inr hall⟩
  · rename_i hpoint
    split
    · exact h.handle H same (fun e he => hpoint e he) _
    · exact h
  · split
    · rename_i hcond
      simp only [Bool.and_eq_true, decide_eq_true_eq] at hcond
      exact h.return hcond.1 hcond.2
    · exact h

/-! ## The service in the process -/

/-- The events handled before the main thread goes on from `getchar`. -/
def handled (ts : List Tick) : List ServiceEvent :=
  (ts.takeWhile fun t => match t with
    | .main => false
    | _ => true).filterMap fun t => match t with
    | .handler e => some e
    | _ => none

theorem run_ended {p : Process} {e : Exit} (h : p.point = .ended e) (ts : List Tick) :
    run (step H same) p ts = p :=
  run_invariant (P := (· = p)) (fun q t hq => by simp [hq, step, h]) rfl ts

/-- No handler runs after `stop`. -/
theorem step_stopped {p : Process} (h : p.stopped = true) (t : Tick) :
    (p.step H same t).stopped = true ∧ (p.step H same t).service = p.service := by
  unfold step
  split
  · exact ⟨h, rfl⟩
  · exact ⟨rfl, rfl⟩
  · unfold join
    split <;> try exact ⟨h, rfl⟩
    split <;> exact ⟨h, rfl⟩
  · simp [h]
  · split <;> exact ⟨h, rfl⟩

theorem run_stopped {p : Process} (h : p.stopped = true) (ts : List Tick) :
    (run (step H same) p ts).service = p.service :=
  (run_invariant (P := fun q : Process => q.stopped = true ∧ q.service = p.service)
    (fun q t hq => by
      obtain ⟨hs, hserv⟩ := step_stopped H same hq.1 t
      exact ⟨hs, hserv.trans hq.2⟩) ⟨h, rfl⟩ ts).2

theorem run_down {s : Service} (h : s.up = false) (es : List ServiceEvent) :
    run (Service.step H same) s es = s :=
  run_invariant (P := (· = s)) (fun t e ht => by simp [ht, Service.step, h]) rfl es

theorem run_service {p : Process} (hp : p.point = .input) (hstop : p.stopped = false)
    (hrun : p.threads.contains .running = true) (ts : List Tick) :
    (run (step H same) p ts).service = run (Service.step H same) p.service (handled ts) := by
  induction ts generalizing p with
  | nil => rfl
  | cons t ts ih =>
    rw [run_cons]
    cases t with
    | main =>
      have hs : p.step H same .main = { p with stopped := true, point := .join false 0 } := by
        simp [step, hp]
      rw [hs, run_stopped H same rfl]
      rfl
    | handler e =>
      have hs : p.step H same (.handler e) = p.handle H same e := by
        simp only [step, hp, hstop, hrun, Bool.not_false, Bool.and_self, ↓reduceIte]
      have hh : handled (.handler e :: ts) = e :: handled ts := by simp [handled]
      rw [hs, hh, run_cons]
      cases hup : (p.service.step H same e).up with
      | true => exact ih (by simp [handle, hup, hp]) hstop hrun
      | false =>
        rw [run_ended H same (e := .terminated) (by simp [handle, hup]), run_down H same hup]
        rfl
    | «return» k =>
      have hs : p.step H same (.return k) = p := by simp [step, hp, hstop]
      have hh : handled (.return k :: ts) = handled ts := by simp [handled]
      rw [hs, hh]
      exact ih hp hstop hrun

/-! ## The end of the process -/

/-- The character for `getchar`, the return of the one thread and then only the
main thread. -/
def shutdown : List Tick := [.main, .return 0, .main, .main, .main]

theorem run_shutdown {p : Process} (h : Valid p) (hone : p.threads.length = 1) :
    (run (step H same) p shutdown).point = .ended .terminated := by
  obtain ⟨t, ht⟩ := List.length_eq_one_iff.mp hone
  have hat := h.at_point
  cases hp : p.point with
  | input =>
    rw [hp] at hat
    have hrun : t = .running := hat.2 t (by simp [ht])
    simp [shutdown, step, hp, ht, hrun, join]
  | join d k =>
    rw [hp] at hat
    cases d with
    | true =>
      have hs : p.step H same .main = { p with point := .ended .terminated } := by
        rw [← join_destructor h hp]
        simp [step, hp]
      rw [shutdown, run_cons, hs, run_ended H same (e := .terminated) rfl]
    | false =>
      have hjoined := hat.2 0 t (by simp [ht])
      cases k with
      | zero =>
        cases t with
        | running => simp [shutdown, step, hp, ht, join, hat.1]
        | returned => simp [shutdown, step, hp, ht, join]
        | joined => exact absurd (hjoined.mp rfl) (by omega)
      | succ k =>
        have htj : t = .joined := hjoined.mpr (by omega)
        simp [shutdown, step, hp, ht, htj, join]
  | ended e =>
    rw [hp] at hat
    rw [run_ended H same hp, hp, hat.1]

theorem length_step (p : Process) (t : Tick) :
    (p.step H same t).threads.length = p.threads.length := by
  unfold step
  split
  · rfl
  · rfl
  · unfold join
    split
    · rfl
    · simp
    · rfl
    · split <;> rfl
  · split <;> rfl
  · split
    · simp
    · rfl

end Process

open Process

section launch

variable {order : IterationOrder} {files : Bytes → ConfigFile} {behaviour : Behaviour Op}
  {listens : Int → Bool} {accounts : List Account} {configFile : Bytes}

theorem launch_ok {p : Process}
    (h : launch order files behaviour listens accounts configFile = .ok p) :
    let (this, loaded) := (ConfigMgr.configure configFile).loadAppConfigs order files false
    p = .serving nThreads accounts ∧ Checked this loaded behaviour ∧
      listens (serverPort this) = true := by
  simp only [launch] at h
  dsimp only
  split at h
  · cases h
  · rename_i hload
    split at h
    · cases h
    · rename_i hdb
      split at h
      · cases h
      · rename_i hport
        split at h
        · rename_i hlistens
          cases h
          exact ⟨rfl, ⟨by simpa using hload, by simpa using hdb, hport⟩, hlistens⟩
        · cases h

theorem launch_error {e : Ended}
    (h : launch order files behaviour listens accounts configFile = .error e) :
    let (this, loaded) := (ConfigMgr.configure configFile).loadAppConfigs order files false
    (e.exit = .returned 1 ∧ ¬ Checked this loaded behaviour ∨
      e.exit = .terminated ∧ Checked this loaded behaviour ∧
        listens (serverPort this) = false) ∧
    (e.stopDB ≠ 0 ↔ loaded = true ∧ startDB this behaviour = true ∧
      (serverPort this < 0 ∨ 0xFFFF < serverPort this)) := by
  simp only [launch] at h
  dsimp only
  split at h
  · rename_i hload
    cases h
    refine ⟨.inl ⟨rfl, fun hchecked => ?_⟩, by simp_all⟩
    simp [hchecked.loaded] at hload
  · rename_i hload
    split at h
    · rename_i hdb
      cases h
      refine ⟨.inl ⟨rfl, fun hchecked => ?_⟩, by simp_all⟩
      simp [hchecked.startDB] at hdb
    · rename_i hdb
      split at h
      · rename_i hport
        cases h
        exact ⟨.inl ⟨rfl, fun hchecked => hchecked.port hport⟩, by simp_all⟩
      · rename_i hport
        split at h
        · cases h
        · rename_i hlistens
          cases h
          refine ⟨.inr ⟨rfl, ⟨by simpa using hload, by simpa using hdb, hport⟩, ?_⟩, by simp_all⟩
          exact Bool.eq_false_iff.mpr hlistens

end launch

end Logon

end Mpool
