import Mpool.Common.ConfigMerge
import Mpool.Lib.Layers

/-! The configurations of modules: each has a `.dist` file, which may bring new
options, and a file of its own, which may not. All files of the application and
of the modules are layers of one map of options. -/

namespace Mpool

open Util (text)
open Layers (Layer put decided)

def ConfigMgr.print (message : Bytes) (this : ConfigMgr) : ConfigMgr :=
  { this with output := this.output ++ message ++ text "\n" }

/-- The variables of the file that the modules add. -/
structure ModuleConfigs where
  mgr : ConfigMgr
  additionalFiles : List Bytes
  moduleConfigFiles : List Bytes

namespace ModuleConfigs

/-- `Configure` with a list of modules. -/
def configure (initFileName modulesConfigList : Bytes) : ModuleConfigs where
  mgr := .configure initFileName
  additionalFiles :=
    if modulesConfigList = [] then [] else tokenize modulesConfigList 44 false
  moduleConfigFiles := []

/-- The name without the suffix `.dist`; erasing before the beginning of the
string is undefined. -/
def defaultFileName (distFileName : Bytes) : Option Bytes :=
  if distFileName = [] then some []
  else if 5 ≤ distFileName.length then some (distFileName.take (distFileName.length - 5))
  else none

section load

variable (order : IterationOrder) (files : Bytes → ConfigFile) (moduleConfigPath : Bytes)
  (isReload isNeedPrintInfo : Bool)

/-- One turn of the loop; it ends with `false` where the load stops. -/
def loadModule (distFileName : Bytes) (s : ModuleConfigs) : Option (ModuleConfigs × Bool) :=
  match defaultFileName distFileName with
  | none => none
  | some defaultFileName =>
    let file := moduleConfigPath ++ distFileName
    let (mgr, isExistDistConfig) := s.mgr.loadAdditionalFile order (files file) file false isReload
    if !isReload && !isExistDistConfig then
      let message := text "server loading, Config::LoadModulesConfigs: Not found original config '"
        ++ distFileName ++ text "'. stop loading"
      some ({ s with mgr := ConfigMgr.print message mgr }, false)
    else
      let file := moduleConfigPath ++ defaultFileName
      let (mgr, isExistDefaultConfig) :=
        mgr.loadAdditionalFile order (files file) file true isReload
      let found :=
        if isExistDefaultConfig && isExistDistConfig then [defaultFileName]
        else if !isExistDefaultConfig && isExistDistConfig then [distFileName]
        else []
      some ({ s with mgr := mgr, moduleConfigFiles := s.moduleConfigFiles ++ found }, true)

def loadModules : List Bytes → ModuleConfigs → Option (ModuleConfigs × Bool)
  | [], s => some (s, true)
  | distFileName :: rest, s =>
    match loadModule order files moduleConfigPath isReload distFileName s with
    | some (s, true) => loadModules rest s
    | stopped => stopped

def printStart (s : ModuleConfigs) : ModuleConfigs :=
  let mgr := ConfigMgr.print (text "server loading") s.mgr
  { s with mgr := ConfigMgr.print (text "server.loading Loading modules configuration...") mgr }

def printEnd (s : ModuleConfigs) : ModuleConfigs :=
  let mgr :=
    if s.moduleConfigFiles = [] then
      ConfigMgr.print (text "server loading.Not found modules config files") s.mgr
    else
      s.moduleConfigFiles.foldl
        (fun mgr name => ConfigMgr.print (text "server loading." ++ name) mgr)
        (ConfigMgr.print (text "server loading.Using modules configuration:") s.mgr)
  { s with mgr := ConfigMgr.print (text "modules config load end") mgr }

def loadModulesConfigs (s : ModuleConfigs) : Option (ModuleConfigs × Bool) :=
  if s.additionalFiles = [] then some (s, true)
  else
    let s := if isNeedPrintInfo then s.printStart else s
    match loadModules order files moduleConfigPath isReload s.additionalFiles s with
    | some (s, true) => some (if isNeedPrintInfo then s.printEnd else s, true)
    | stopped => stopped

end load

/-- `GetKeysByString`. -/
def getKeysByString (order : IterationOrder) (this : ConfigMgr) (name : Bytes) : List Bytes :=
  ((order.order this.configOptions).filter fun e => e.1.take name.length = name).map Sigma.fst

/-! ## Layers -/

abbrev FileLayer := Layer Bytes Bytes

/-- What a file contributes: nothing if it does not load. -/
def fileLayers (isOptional : Bool) (file : ConfigFile) : List FileLayer :=
  if file.Loads then [⟨!isOptional, file.parse⟩] else []

/-- The two files of the application. -/
def appLayers (dist main : ConfigFile) : List FileLayer :=
  if dist.Loads then fileLayers false dist ++ fileLayers true main else []

/-- The file of a module without its suffix. -/
def defaultFile (files : Bytes → ConfigFile) (moduleConfigPath distFileName : Bytes) :
    ConfigFile :=
  files (moduleConfigPath ++ (defaultFileName distFileName).getD [])

/-- The files of the modules up to the one at which the load stops. -/
def moduleLayers (files : Bytes → ConfigFile) (moduleConfigPath : Bytes) (isReload : Bool) :
    List Bytes → List FileLayer
  | [] => []
  | distFileName :: rest =>
    if isReload || decide (files (moduleConfigPath ++ distFileName)).Loads then
      fileLayers false (files (moduleConfigPath ++ distFileName)) ++
        fileLayers true (defaultFile files moduleConfigPath distFileName) ++
        moduleLayers files moduleConfigPath isReload rest
    else []

/-- The files of the modules whose `.dist` file loads, each under the name it is
listed with. -/
def moduleNames (files : Bytes → ConfigFile) (moduleConfigPath : Bytes) (isReload : Bool) :
    List Bytes → List Bytes
  | [] => []
  | distFileName :: rest =>
    if (files (moduleConfigPath ++ distFileName)).Loads then
      (if (defaultFile files moduleConfigPath distFileName).Loads then
        (defaultFileName distFileName).getD [] else distFileName) ::
        moduleNames files moduleConfigPath isReload rest
    else if isReload then moduleNames files moduleConfigPath isReload rest
    else []

variable (order : IterationOrder)

theorem loadFile_layers (source : ConfigFile) (file : Bytes) (isOptional isReload : Bool)
    (this : ConfigMgr) :
    (ConfigMgr.loadFile order source file isOptional isReload this).2 = decide source.Loads ∧
      ∀ key, (ConfigMgr.loadFile order source file isOptional isReload this).1.configOptions.lookup
        key = put key (fileLayers isOptional source) (this.configOptions.lookup key) := by
  by_cases hl : source.Loads
  · obtain ⟨output, entries, hperm, hload⟩ :=
      ConfigMgr.loadFile_loads order hl file isOptional isReload this
    rw [hload, fileLayers, if_pos hl]
    refine ⟨by simp [hl], fun key => ?_⟩
    obtain ⟨hnodup, hlookup⟩ := ConfigMgr.dlookup_perm hperm key
    cases isOptional with
    | true =>
      rw [ConfigMgr.lookup_addAll_optional file isReload hnodup, hlookup]
      rfl
    | false =>
      rw [ConfigMgr.lookup_addAll file isReload hnodup, hlookup]
      rfl
  · obtain ⟨output, hload⟩ := ConfigMgr.loadFile_not_loads order hl file isOptional isReload this
    rw [hload, fileLayers, if_neg hl]
    exact ⟨by simp [hl], fun key => rfl⟩

section modules

variable (files : Bytes → ConfigFile) (moduleConfigPath : Bytes) (isReload : Bool)

/-- A name that is shorter than its suffix. -/
def Short (distFileName : Bytes) : Prop := distFileName ≠ [] ∧ distFileName.length < 5

/-- What the load of the modules in a list comes to. -/
structure Loaded (ms : List Bytes) (s t : ModuleConfigs) (ok : Bool) : Prop where
  options : ∀ key, t.mgr.configOptions.lookup key =
    put key (moduleLayers files moduleConfigPath isReload ms) (s.mgr.configOptions.lookup key)
  ok_iff : ok = true ↔ isReload = true ∨ ∀ m ∈ ms, (files (moduleConfigPath ++ m)).Loads
  names : t.moduleConfigFiles =
    s.moduleConfigFiles ++ moduleNames files moduleConfigPath isReload ms

theorem defaultFileName_eq_none {distFileName : Bytes} :
    defaultFileName distFileName = none ↔ Short distFileName := by
  unfold defaultFileName Short
  split
  · simp_all
  · split <;> simp_all

theorem loadModule_stops {m : Bytes} (hm : ¬ Short m) (hr : isReload = false)
    (hl : ¬ (files (moduleConfigPath ++ m)).Loads) (s : ModuleConfigs) :
    ∃ t, loadModule order files moduleConfigPath isReload m s = some (t, false) ∧
      (∀ key, t.mgr.configOptions.lookup key = s.mgr.configOptions.lookup key) ∧
      t.moduleConfigFiles = s.moduleConfigFiles := by
  obtain ⟨name, hname⟩ := Option.ne_none_iff_exists'.mp (mt defaultFileName_eq_none.mp hm)
  obtain ⟨hdone, hoptions⟩ := loadFile_layers order (files (moduleConfigPath ++ m))
    (moduleConfigPath ++ m) false isReload s.mgr
  subst hr
  rw [fileLayers, if_neg hl] at hoptions
  simp only [loadModule, hname, ConfigMgr.loadAdditionalFile, hdone, hl, decide_false,
    Bool.not_false, Bool.and_self, ↓reduceIte]
  exact ⟨_, rfl, hoptions, rfl⟩

theorem loadModule_goes_on {m : Bytes} (hm : ¬ Short m)
    (hl : isReload = true ∨ (files (moduleConfigPath ++ m)).Loads) (s : ModuleConfigs) :
    ∃ t, loadModule order files moduleConfigPath isReload m s = some (t, true) ∧
      (∀ key, t.mgr.configOptions.lookup key =
        put key (fileLayers false (files (moduleConfigPath ++ m)) ++
          fileLayers true (defaultFile files moduleConfigPath m))
          (s.mgr.configOptions.lookup key)) ∧
      t.moduleConfigFiles = s.moduleConfigFiles ++
        if (files (moduleConfigPath ++ m)).Loads then
          [if (defaultFile files moduleConfigPath m).Loads then (defaultFileName m).getD [] else m]
        else [] := by
  obtain ⟨name, hname⟩ := Option.ne_none_iff_exists'.mp (mt defaultFileName_eq_none.mp hm)
  obtain ⟨hdone, hoptions⟩ := loadFile_layers order (files (moduleConfigPath ++ m))
    (moduleConfigPath ++ m) false isReload s.mgr
  have hdefault : defaultFile files moduleConfigPath m = files (moduleConfigPath ++ name) := by
    rw [defaultFile, hname, Option.getD_some]
  have hstop : (!isReload && !decide (files (moduleConfigPath ++ m)).Loads) = false := by
    rcases hl with hr | hl
    · rw [hr, Bool.not_true, Bool.false_and]
    · rw [decide_eq_true hl, Bool.not_true, Bool.and_false]
  simp only [loadModule, hname, ConfigMgr.loadAdditionalFile, hdone, hstop, Bool.false_eq_true,
    ↓reduceIte]
  generalize ConfigMgr.loadFile order (files (moduleConfigPath ++ m)) (moduleConfigPath ++ m)
    false isReload s.mgr = loaded at hoptions ⊢
  obtain ⟨hdone', hoptions'⟩ := loadFile_layers order (files (moduleConfigPath ++ name))
    (moduleConfigPath ++ name) true isReload loaded.1
  refine ⟨_, rfl, fun key => ?_, ?_⟩
  · rw [Layers.put_append, ← hoptions, hdefault]
    exact hoptions' key
  · simp only [hdone', hdefault, Option.getD_some]
    by_cases h1 : (files (moduleConfigPath ++ m)).Loads <;>
      by_cases h2 : (files (moduleConfigPath ++ name)).Loads <;> simp [h1, h2]

theorem loadModules_loaded (ms : List Bytes) (s : ModuleConfigs) :
    match loadModules order files moduleConfigPath isReload ms s with
    | none => ∃ m ∈ ms, Short m
    | some (t, ok) => Loaded files moduleConfigPath isReload ms s t ok := by
  induction ms generalizing s with
  | nil => exact ⟨fun key => rfl, by simp, (List.append_nil _).symm⟩
  | cons m ms ih =>
    by_cases hm : Short m
    · have hnone : loadModule order files moduleConfigPath isReload m s = none := by
        simp [loadModule, defaultFileName_eq_none.mpr hm]
      rw [loadModules, hnone]
      exact ⟨m, List.mem_cons_self, hm⟩
    by_cases hl : isReload = true ∨ (files (moduleConfigPath ++ m)).Loads
    · obtain ⟨t, ht, hoptions, hnames⟩ :=
        loadModule_goes_on order files moduleConfigPath isReload hm hl s
      have hcond : (isReload || decide (files (moduleConfigPath ++ m)).Loads) = true := by
        simpa using hl
      have hrest := ih t
      rw [loadModules, ht]
      dsimp only
      split
      · rename_i hload
        rw [hload] at hrest
        obtain ⟨m', hm', hshort⟩ := hrest
        exact ⟨m', List.mem_cons_of_mem m hm', hshort⟩
      · rename_i u ok hload
        rw [hload] at hrest
        refine ⟨fun key => ?_, ?_, ?_⟩
        · rw [hrest.options, hoptions, moduleLayers, if_pos hcond,
            Layers.put_append key (fileLayers false _ ++ fileLayers true _)]
        · rw [hrest.ok_iff, List.forall_mem_cons]
          tauto
        · rw [hrest.names, hnames, moduleNames, List.append_assoc]
          by_cases hloads : (files (moduleConfigPath ++ m)).Loads
          · simp [hloads]
          · simp [hloads, hl.resolve_right hloads]
    · obtain ⟨hr, hloads⟩ := not_or.mp hl
      have hr : isReload = false := by simpa using hr
      obtain ⟨t, ht, hoptions, hnames⟩ :=
        loadModule_stops order files moduleConfigPath isReload hm hr hloads s
      rw [loadModules, ht]
      refine ⟨fun key => ?_, ?_, ?_⟩
      · rw [hoptions, moduleLayers, if_neg (by simp [hr, hloads])]
        rfl
      · simp [hr, hloads]
      · simp [hnames, moduleNames, hloads, hr]

end modules

/-! ## The whole configuration -/

theorem configOptions_printAll (names : List Bytes) (this : ConfigMgr) :
    (names.foldl (fun mgr name => ConfigMgr.print (text "server loading." ++ name) mgr)
      this).configOptions = this.configOptions := by
  induction names generalizing this with
  | nil => rfl
  | cons name names ih => exact ih _

theorem printEnd_options (s : ModuleConfigs) :
    s.printEnd.mgr.configOptions = s.mgr.configOptions := by
  unfold printEnd
  split
  · rfl
  · exact configOptions_printAll _ _

/-- What is printed leaves the options alone. -/
theorem loadModulesConfigs_loaded (files : Bytes → ConfigFile) (moduleConfigPath : Bytes)
    (isReload isNeedPrintInfo : Bool) (s : ModuleConfigs) :
    match loadModulesConfigs order files moduleConfigPath isReload isNeedPrintInfo s with
    | none => ∃ m ∈ s.additionalFiles, Short m
    | some (t, ok) => Loaded files moduleConfigPath isReload s.additionalFiles s t ok := by
  unfold loadModulesConfigs
  by_cases hnil : s.additionalFiles = []
  · rw [if_pos hnil, hnil]
    exact ⟨fun key => rfl, by simp, (List.append_nil _).symm⟩
  rw [if_neg hnil]
  have hfiles : (if isNeedPrintInfo then s.printStart else s).additionalFiles =
      s.additionalFiles := by
    cases isNeedPrintInfo <;> rfl
  dsimp only
  rw [hfiles]
  have hload := loadModules_loaded order files moduleConfigPath isReload s.additionalFiles
    (if isNeedPrintInfo then s.printStart else s)
  have hstart : ∀ (t : ModuleConfigs) ok, Loaded files moduleConfigPath isReload s.additionalFiles
      (if isNeedPrintInfo then s.printStart else s) t ok →
      Loaded files moduleConfigPath isReload s.additionalFiles s t ok := by
    intro t ok h
    cases isNeedPrintInfo with
    | false => exact h
    | true => exact ⟨h.options, h.ok_iff, h.names⟩
  generalize loadModules order files moduleConfigPath isReload s.additionalFiles
    (if isNeedPrintInfo then s.printStart else s) = result at hload ⊢
  match result with
  | none => exact hload
  | some (t, false) => exact hstart t false hload
  | some (t, true) =>
    have h := hstart t true hload
    cases isNeedPrintInfo with
    | false => exact h
    | true => exact ⟨fun key => (congrArg _ (printEnd_options t)).trans (h.options key), h.ok_iff,
        h.names⟩

theorem loadAppConfigs_layers (files : Bytes → ConfigFile) (isReload : Bool) (this : ConfigMgr)
    (key : Bytes) :
    (this.loadAppConfigs order files isReload).1.configOptions.lookup key =
      put key (appLayers (files this.distName) (files this.filename)) none := by
  by_cases hdist : (files this.distName).Loads
  · obtain ⟨-, hloaded⟩ := ConfigMgr.loadAppConfigs_loads order files isReload hdist
    have hfirst : put key (fileLayers false (files this.distName)) none =
        (files this.distName).parse key := by
      simp [fileLayers, hdist, Layer.put]
    rw [hloaded.options key, appLayers, if_pos hdist, Layers.put_append, hfirst, fileLayers]
    split <;> rfl
  · obtain ⟨output, hload⟩ := ConfigMgr.loadAppConfigs_not_loads order files isReload hdist
    rw [hload, appLayers, if_neg hdist]
    rfl

theorem mem_getKeysByString (this : ConfigMgr) (name key : Bytes) :
    key ∈ getKeysByString order this name ↔
      name <+: key ∧ (this.configOptions.lookup key).isSome = true := by
  have hmem : (∃ e ∈ order.order this.configOptions, e.1 = key) ↔
      (this.configOptions.lookup key).isSome = true := by
    rw [AList.lookup_isSome, AList.mem_keys, AList.keys, List.keys, List.mem_map]
    exact exists_congr fun e => and_congr_left fun _ => (order.perm _).mem_iff
  rw [getKeysByString, List.mem_map, ← hmem]
  simp only [List.mem_filter, decide_eq_true_eq, List.prefix_iff_eq_take]
  constructor
  · rintro ⟨e, ⟨he, htake⟩, rfl⟩
    exact ⟨htake.symm, e, he, rfl⟩
  · rintro ⟨htake, e, he, rfl⟩
    exact ⟨e, ⟨he, htake.symm⟩, rfl⟩

theorem nodup_getKeysByString (this : ConfigMgr) (name : Bytes) :
    (getKeysByString order this name).Nodup := by
  have hkeys : ((order.order this.configOptions).map Sigma.fst).Nodup :=
    (List.Perm.map _ (order.perm this.configOptions)).nodup_iff.mpr this.configOptions.keys_nodup
  exact hkeys.sublist (List.Sublist.map _ List.filter_sublist)

/-- The application's files and then the modules' files, whatever they contain and
in whatever order the maps are gone through: an option exists from the first
loaded `.dist` file on that has it, and the last loaded file behind that decides
its value. The load stops at the first module without a `.dist` file, except on
a reload, and is undefined only for a name shorter than the suffix. -/
theorem options_layered (files : Bytes → ConfigFile) (moduleConfigPath : Bytes)
    (isReload isNeedPrintInfo : Bool) (s : ModuleConfigs) :
    let app := (s.mgr.loadAppConfigs order files isReload).1
    let layers := appLayers (files s.mgr.distName) (files s.mgr.filename) ++
      moduleLayers files moduleConfigPath isReload s.additionalFiles
    match loadModulesConfigs order files moduleConfigPath isReload isNeedPrintInfo
        { s with mgr := app } with
    | none => ∃ m ∈ s.additionalFiles, m ≠ [] ∧ m.length < 5
    | some (t, ok) =>
      (∀ key, t.mgr.configOptions.lookup key = decided layers key) ∧
        (∀ name, (getKeysByString order t.mgr name).Nodup ∧ ∀ key,
          key ∈ getKeysByString order t.mgr name ↔
            name <+: key ∧ (decided layers key).isSome = true) ∧
        (ok = true ↔ isReload = true ∨
          ∀ m ∈ s.additionalFiles, (files (moduleConfigPath ++ m)).Loads) ∧
        t.moduleConfigFiles = s.moduleConfigFiles ++
          moduleNames files moduleConfigPath isReload s.additionalFiles := by
  intro app layers
  have happ : ∀ key, app.configOptions.lookup key =
      put key (appLayers (files s.mgr.distName) (files s.mgr.filename)) none :=
    loadAppConfigs_layers order files isReload s.mgr
  have hdecided : ∀ key, put key (moduleLayers files moduleConfigPath isReload s.additionalFiles)
      (app.configOptions.lookup key) = decided layers key := fun key => by
    rw [happ, ← Layers.put_append, Layers.put_none]
  have hend : ∀ t : ModuleConfigs, ∀ ok : Bool,
      Loaded files moduleConfigPath isReload s.additionalFiles { s with mgr := app } t ok →
      (∀ key, t.mgr.configOptions.lookup key = decided layers key) ∧
        (∀ name, (getKeysByString order t.mgr name).Nodup ∧ ∀ key,
          key ∈ getKeysByString order t.mgr name ↔
            name <+: key ∧ (decided layers key).isSome = true) ∧
        (ok = true ↔ isReload = true ∨
          ∀ m ∈ s.additionalFiles, (files (moduleConfigPath ++ m)).Loads) ∧
        t.moduleConfigFiles = s.moduleConfigFiles ++
          moduleNames files moduleConfigPath isReload s.additionalFiles := by
    intro t ok h
    have hoptions : ∀ key, t.mgr.configOptions.lookup key = decided layers key := fun key =>
      (h.options key).trans (hdecided key)
    refine ⟨hoptions, fun name => ⟨nodup_getKeysByString order t.mgr name, fun key => ?_⟩,
      h.ok_iff, h.names⟩
    rw [mem_getKeysByString, hoptions]
  have hload := loadModulesConfigs_loaded order files moduleConfigPath isReload isNeedPrintInfo
    { s with mgr := app }
  split
  · rename_i hnone
    rw [hnone] at hload
    exact hload
  · rename_i t ok hsome
    rw [hsome] at hload
    exact hend t ok hload

end ModuleConfigs

end Mpool
