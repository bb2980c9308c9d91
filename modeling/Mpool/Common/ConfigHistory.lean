import Mpool.Lib.Runs
import Mpool.Common.ConfigMerge

/-! Calls of `LoadAppConfigs` one after the other. The options are cleared before
the `.dist` file is read, and the flag for `GetFilename` is set when the main file
does not load and never taken back. -/

namespace Mpool.ConfigMgr

open Util (text)
open Runs

/-- A call, with what the files are at its time. -/
structure LoadCall where
  order : IterationOrder
  files : Bytes → ConfigFile
  isReload : Bool

def loadStep (this : ConfigMgr) (call : LoadCall) : ConfigMgr :=
  (this.loadAppConfigs call.order call.files call.isReload).1

/-- The call applies no option from the main file. -/
def AppliesNone (dist main : ConfigFile) : Prop :=
  ¬ main.Loads ∨ ∀ key, dist.parse key ≠ none → main.parse key = none

/-- What one call should do: nothing if it returns false; otherwise the options and
the name of the file follow from the files alone. -/
structure Transactional (this : ConfigMgr) (call : LoadCall) : Prop where
  failed : (this.loadAppConfigs call.order call.files call.isReload).2 = false →
    (∀ key, (loadStep this call).configOptions.lookup key = this.configOptions.lookup key) ∧
      (loadStep this call).getFilename = this.getFilename
  options : (this.loadAppConfigs call.order call.files call.isReload).2 = true →
    ∀ key, (loadStep this call).configOptions.lookup key =
      if (call.files this.filename).Loads then
        ((call.files this.distName).parse key).map fun value =>
          ((call.files this.filename).parse key).getD value
      else (call.files this.distName).parse key
  filename : (this.loadAppConfigs call.order call.files call.isReload).2 = true →
    ((loadStep this call).getFilename = this.distName ↔
        AppliesNone (call.files this.distName) (call.files this.filename)) ∧
      ((loadStep this call).getFilename = this.filename ↔
        ¬ AppliesNone (call.files this.distName) (call.files this.filename))

/-- The calls that do: a failed one has nothing to clear, and a main file that is
read has a known option exactly if the flag is not set yet. -/
def Lawful (this : ConfigMgr) (call : LoadCall) : Prop :=
  if (call.files this.distName).Loads then
    (call.files this.filename).Loads → (this.usingDistConfig = true ↔
      ∀ key, (call.files this.distName).parse key ≠ none →
        (call.files this.filename).parse key = none)
  else this.configOptions = ∅

theorem filename_ne_distName (this : ConfigMgr) : this.filename ≠ this.distName := by
  intro h
  have hlength := congrArg List.length h
  have hdist : (text ".dist").length = 5 := by decide
  rw [distName, List.length_append, hdist] at hlength
  omega

/-! ## One call -/

theorem eq_empty_iff (options : OptionMap) : options = ∅ ↔ ∀ key, options.lookup key = none := by
  constructor
  · rintro rfl key
    exact AList.lookup_empty key
  · intro h
    apply AList.ext
    apply List.map_eq_nil_iff.mp
    apply List.eq_nil_iff_forall_not_mem.mpr
    intro key hkey
    exact AList.lookup_eq_none.mp (h key) (AList.mem_keys.mpr hkey)

theorem getFilename_eq_distName_iff {this this' : ConfigMgr} (h : this'.filename = this.filename) :
    this'.getFilename = this.distName ↔ this'.usingDistConfig = true := by
  rw [getFilename, h]
  split
  · next hflag => exact ⟨fun _ => hflag, fun _ => rfl⟩
  · next hflag =>
    exact ⟨fun heq => absurd heq (filename_ne_distName this), fun heq => absurd heq hflag⟩

theorem getFilename_eq_filename_iff {this this' : ConfigMgr} (h : this'.filename = this.filename) :
    this'.getFilename = this.filename ↔ ¬ this'.usingDistConfig = true := by
  rw [getFilename, h]
  split
  · next hflag =>
    exact ⟨fun heq => absurd heq.symm (filename_ne_distName this), fun hnot => absurd hflag hnot⟩
  · next hflag => exact ⟨fun _ => hflag, fun _ => rfl⟩

theorem transactional_of_loads_iff {this : ConfigMgr} {call : LoadCall}
    (h : (call.files this.distName).Loads) :
    Transactional this call ↔ ((call.files this.filename).Loads →
      (this.usingDistConfig = true ↔ ∀ key, (call.files this.distName).parse key ≠ none →
        (call.files this.filename).parse key = none)) := by
  obtain ⟨hreturn, hloaded⟩ := loadAppConfigs_loads call.order call.files call.isReload h
  have hdist : (loadStep this call).getFilename = this.distName ↔
      (loadStep this call).usingDistConfig = true := getFilename_eq_distName_iff hloaded.filename
  have hmain : (loadStep this call).getFilename = this.filename ↔
      ¬ (loadStep this call).usingDistConfig = true :=
    getFilename_eq_filename_iff hloaded.filename
  have hflag : (loadStep this call).usingDistConfig =
      if (call.files this.filename).Loads then this.usingDistConfig else true :=
    hloaded.usingDistConfig
  constructor
  · intro htransactional hloads
    have hname := (htransactional.filename hreturn).1
    rw [hdist, hflag, if_pos hloads, AppliesNone] at hname
    simpa [hloads] using hname
  · intro hlawful
    have hname : (loadStep this call).usingDistConfig = true ↔
        AppliesNone (call.files this.distName) (call.files this.filename) := by
      rw [hflag, AppliesNone]
      by_cases hloads : (call.files this.filename).Loads
      · rw [if_pos hloads, hlawful hloads]
        simp [hloads]
      · simp [hloads]
    refine ⟨fun hfalse => ?_, fun _ => hloaded.options, fun _ => ⟨hdist.trans hname, ?_⟩⟩
    · rw [hreturn] at hfalse
      cases hfalse
    · rw [hmain, hname]

theorem transactional_of_not_loads_iff {this : ConfigMgr} {call : LoadCall}
    (h : ¬ (call.files this.distName).Loads) :
    Transactional this call ↔ this.configOptions = ∅ := by
  obtain ⟨output, hload⟩ := loadAppConfigs_not_loads call.order call.files call.isReload h
  have hstep : loadStep this call = { this with configOptions := ∅, output := output } := by
    rw [loadStep, hload]
  have hreturn : (this.loadAppConfigs call.order call.files call.isReload).2 = false := by
    rw [hload]
  rw [eq_empty_iff]
  constructor
  · intro htransactional key
    have hsame := (htransactional.failed hreturn).1 key
    rw [hstep] at hsame
    exact hsame.symm.trans (AList.lookup_empty key)
  · intro hempty
    refine ⟨fun _ => ⟨?_, ?_⟩, fun htrue => ?_, fun htrue => ?_⟩
    · intro key
      rw [hstep, hempty key]
      exact AList.lookup_empty key
    · rw [hstep]
      rfl
    · rw [hreturn] at htrue
      cases htrue
    · rw [hreturn] at htrue
      cases htrue

theorem transactional_iff (this : ConfigMgr) (call : LoadCall) :
    Transactional this call ↔ Lawful this call := by
  unfold Lawful
  split
  · next hloads => exact transactional_of_loads_iff hloads
  · next hloads => exact transactional_of_not_loads_iff hloads

/-! ## Histories -/

/-- A history of calls is transactional and without memory exactly if all its calls
are lawful where they are made. -/
theorem history_transactional_iff (this : ConfigMgr) (calls : List LoadCall) :
    Along loadStep Transactional this calls ↔ Along loadStep Lawful this calls := by
  induction calls generalizing this with
  | nil => exact Iff.rfl
  | cons call calls ih =>
    rw [Along, Along, ih]
    exact and_congr_left fun _ => transactional_iff this call

/-- The main file is missing at first and has the option later: the name that is
reported stays that of the `.dist` file. -/
def lateMainFile : List LoadCall :=
  [⟨insertionOrder, fun name => if name = text "logon.conf.dist"
      then .opened (text "BindIP = 0.0.0.0") false else .missing, false⟩,
    ⟨insertionOrder, fun name => if name = text "logon.conf.dist"
      then .opened (text "BindIP = 0.0.0.0") false
      else .opened (text "BindIP = 127.0.0.1") false, true⟩]

theorem late_main_file_not_reported :
    (run loadStep (configure (text "logon.conf")) lateMainFile).getFilename =
        text "logon.conf.dist" ∧
      ¬ Along loadStep Transactional (configure (text "logon.conf")) lateMainFile := by
  have hname : (run loadStep (configure (text "logon.conf")) lateMainFile).getFilename =
      text "logon.conf.dist" := by decide
  refine ⟨hname, ?_⟩
  rintro ⟨_, hsecond, _⟩
  have happlied : ¬ AppliesNone (.opened (text "BindIP = 0.0.0.0") false)
      (.opened (text "BindIP = 127.0.0.1") false) := by
    rintro (hloads | hnone)
    · exact hloads (by decide)
    · have hlookup := hnone (text "BindIP") (by decide)
      exact absurd hlookup (by decide)
  have hreported := (hsecond.filename (by decide)).2.mpr happlied
  exact absurd (hname.symm.trans hreported) (by decide)

end Mpool.ConfigMgr
