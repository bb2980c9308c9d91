import Mathlib.Data.List.Dedup
import Mpool.Common.Config

/-! What `LoadAppConfigs` makes of its two files. Within a file the first
occurrence of a key counts; over the files the main file counts, for the keys that
the `.dist` file has. Both counts of options are `uint32`, so that a file with a
multiple of 2 ^ 32 keys passes for an empty one. -/

namespace Mpool

open Util (text isSpace)

/-! ## The entries of a file -/

namespace ConfigMgr

theorem getline_last {rest : Bytes} (h : (10 : UInt8) ∉ rest) : getline rest = (rest, none) := by
  rw [getline, findFrom_eq_none h]

theorem getline_append {line rest : Bytes} (h : (10 : UInt8) ∉ line) :
    getline (line ++ 10 :: rest) = (line, some rest) := by
  rw [getline, findFrom_append h]
  simp [substr]

abbrev OptionEntry := Sigma fun _ : Bytes => Bytes

def ParsedLine.entry : ParsedLine → Option OptionEntry
  | .option entry value => some ⟨entry, value⟩
  | _ => none

/-- The options of a file, line by line. -/
def entriesOf (bytes : Bytes) : List OptionEntry :=
  (bytes.splitOn 10).filterMap fun line => (parseLine line).entry

def insertFirst (map : OptionMap) (e : OptionEntry) : OptionMap := map.emplace e.1 e.2

/-- The counter of the options agrees with the options read. -/
def Counted (s : Parsing) : Prop := s.count = s.fileConfigs.entries.length % 2 ^ 32

theorem fileConfigs_line (file line : Bytes) (s : Parsing) :
    (s.line file line).fileConfigs =
      (parseLine line).entry.toList.foldl insertFirst s.fileConfigs := by
  unfold Parsing.line
  cases parseLine line with
  | skip => rfl
  | failure => rfl
  | option entry value =>
    simp only [ParsedLine.entry, Option.toList_some, List.foldl_cons, List.foldl_nil, insertFirst]
    split
    · next hsome => simp [OptionMap.emplace, hsome]
    · rfl

theorem Counted.line {s : Parsing} (h : Counted s) (file line : Bytes) :
    Counted (s.line file line) := by
  unfold Parsing.line
  cases parseLine line with
  | skip => exact h
  | failure => exact h
  | option entry value =>
    by_cases hsome : (s.fileConfigs.lookup entry).isSome
    · simp only [hsome, ↓reduceIte]
      exact h
    · have hmem : entry ∉ s.fileConfigs := fun hin => hsome (AList.lookup_isSome.mpr hin)
      rw [Counted] at h
      simp only [hsome, Bool.false_eq_true, ↓reduceIte, Counted, OptionMap.emplace,
        AList.entries_insert_of_notMem hmem, List.length_cons, h]
      omega

/-- The loop reads the file to its end. -/
theorem readLoop_spec (file : Bytes) (fuel : Nat) (rest : Bytes) (s : Parsing)
    (hfuel : rest.length < fuel) (hcounted : Counted s) :
    (readLoop file false fuel rest s).2 = none ∧
      (readLoop file false fuel rest s).1.fileConfigs =
        (entriesOf rest).foldl insertFirst s.fileConfigs ∧
      Counted (readLoop file false fuel rest s).1 := by
  induction fuel generalizing rest s with
  | zero => omega
  | succ fuel ih =>
    rw [readLoop]
    by_cases hline : (10 : UInt8) ∈ rest
    · obtain ⟨line, rest, rfl, hnot⟩ := exists_first hline
      have hlength : rest.length < fuel := by
        rw [List.length_append, List.length_cons] at hfuel
        omega
      have hcounted' : Counted { s with lineNumber := (s.lineNumber + 1) % 2 ^ 32 } := hcounted
      obtain ⟨hthrown, hconfigs, hend⟩ := ih rest _ hlength (hcounted'.line file line)
      rw [getline_append hnot]
      refine ⟨hthrown, ?_, hend⟩
      rw [hconfigs, fileConfigs_line, entriesOf, entriesOf,
        List.splitOn_append_cons_self_of_not_mem hnot, List.filterMap_cons]
      cases (parseLine line).entry <;> rfl
    · have hcounted' : Counted { s with lineNumber := (s.lineNumber + 1) % 2 ^ 32 } := hcounted
      rw [getline_last hline]
      refine ⟨rfl, ?_, hcounted'.line file rest⟩
      simp only [Bool.false_eq_true, ↓reduceIte, fileConfigs_line, entriesOf,
        List.splitOn_eq_singleton hline, List.filterMap_cons, List.filterMap_nil]
      cases (parseLine rest).entry <;> rfl

theorem readLoop_fails (file : Bytes) (fuel : Nat) (rest : Bytes) (s : Parsing)
    (hfuel : rest.length < fuel) : (readLoop file true fuel rest s).2 ≠ none := by
  induction fuel generalizing rest s with
  | zero => omega
  | succ fuel ih =>
    rw [readLoop]
    by_cases hline : (10 : UInt8) ∈ rest
    · obtain ⟨line, rest, rfl, hnot⟩ := exists_first hline
      rw [getline_append hnot]
      apply ih
      rw [List.length_append, List.length_cons] at hfuel
      omega
    · rw [getline_last hline]
      simp

end ConfigMgr

open ConfigMgr (OptionEntry entriesOf insertFirst readLoop Counted)

namespace OptionMap

theorem lookup_insertFirst (map : OptionMap) (e : OptionEntry) (key : Bytes) :
    (insertFirst map e).lookup key = (map.lookup key).or ([e].dlookup key) := by
  unfold insertFirst emplace
  by_cases hkey : key = e.1
  · subst hkey
    have hself : [e].dlookup e.1 = some e.2 := List.dlookup_cons_eq _ _ _
    by_cases hsome : (map.lookup e.1).isSome
    · rw [if_pos hsome]
      obtain ⟨value, hvalue⟩ := Option.isSome_iff_exists.mp hsome
      rw [hvalue]
      rfl
    · rw [if_neg hsome, AList.lookup_insert, hself, Option.not_isSome_iff_eq_none.mp hsome]
      rfl
  · have hother : [e].dlookup key = none := List.dlookup_cons_ne _ _ hkey
    rw [hother, Option.or_none]
    split
    · rfl
    · exact AList.lookup_insert_ne hkey

/-- The first of several values for a key is the one that stays. -/
theorem lookup_foldl_insertFirst (entries : List OptionEntry) (map : OptionMap) (key : Bytes) :
    (entries.foldl insertFirst map).lookup key = (map.lookup key).or (entries.dlookup key) := by
  induction entries generalizing map with
  | nil => simp
  | cons e entries ih =>
    have hcons : (e :: entries).dlookup key = ([e].dlookup key).or (entries.dlookup key) :=
      List.dlookup_append [e] entries key
    rw [List.foldl_cons, ih, lookup_insertFirst, hcons, Option.or_assoc]

end OptionMap

namespace ConfigFile

/-- What can be read of a file, which is nothing if reading goes wrong. -/
def entries : ConfigFile → List OptionEntry
  | .opened bytes false => entriesOf bytes
  | _ => []

/-- The file as a map: the first occurrence of a key gives its value. -/
def parse (file : ConfigFile) (key : Bytes) : Option Bytes := file.entries.dlookup key

def distinctKeys (file : ConfigFile) : Nat := file.entries.keys.dedup.length

/-- The counter of the options does not end at 0. -/
def Loads (file : ConfigFile) : Prop := file.distinctKeys % 2 ^ 32 ≠ 0

instance (file : ConfigFile) : Decidable file.Loads :=
  inferInstanceAs (Decidable (file.distinctKeys % 2 ^ 32 ≠ 0))

/-- The map the parser builds. -/
def map (file : ConfigFile) : OptionMap := file.entries.foldl insertFirst ∅

theorem lookup_map (file : ConfigFile) (key : Bytes) : file.map.lookup key = file.parse key := by
  rw [map, OptionMap.lookup_foldl_insertFirst, AList.lookup_empty, Option.none_or]
  rfl

theorem length_map (file : ConfigFile) : file.map.entries.length = file.distinctKeys := by
  have hmem : ∀ key, key ∈ file.map.keys ↔ key ∈ file.entries.keys.dedup := by
    intro key
    rw [← AList.mem_keys, ← AList.lookup_isSome, lookup_map, parse, List.dlookup_isSome,
      List.mem_dedup]
  have hperm : file.map.keys.Perm file.entries.keys.dedup :=
    (List.perm_ext_iff_of_nodup file.map.keys_nodup (List.nodup_dedup _)).mpr hmem
  have hlength := hperm.length_eq
  rw [AList.keys, List.keys, List.length_map] at hlength
  exact hlength

theorem Loads.exists_parse {file : ConfigFile} (h : file.Loads) : ∃ key, file.parse key ≠ none := by
  have hne : file.entries.keys.dedup ≠ [] := by
    intro hnil
    rw [Loads, distinctKeys, hnil] at h
    exact h rfl
  obtain ⟨key, hkey⟩ := List.exists_mem_of_ne_nil _ hne
  refine ⟨key, ?_⟩
  rw [parse, ne_eq, List.dlookup_eq_none, not_not]
  exact List.mem_dedup.mp hkey

end ConfigFile

namespace ConfigMgr

/-! ## One file -/

theorem lookup_emplace_erase (map : OptionMap) (key key' value : Bytes) :
    (OptionMap.emplace (if (map.lookup key).isSome then map.erase key else map) key value).lookup
      key' = if key' = key then some value else map.lookup key' := by
  have hgone : ((if (map.lookup key).isSome then map.erase key else map).lookup key).isSome =
      false := by
    split
    · rw [AList.lookup_erase]
      rfl
    · next h => simpa using h
  rw [OptionMap.emplace, if_neg (by simp [hgone])]
  by_cases hkey : key' = key
  · rw [hkey, AList.lookup_insert, if_pos rfl]
  · rw [AList.lookup_insert_ne hkey, if_neg hkey]
    split
    · exact AList.lookup_erase_ne hkey
    · rfl

theorem configOptions_addKey (key value file : Bytes) (isOptional isReload : Bool)
    (this : ConfigMgr) :
    (this.addKey key value file isOptional isReload).configOptions =
      if isOptional = true ∧ this.configOptions.lookup key = none then this.configOptions
      else OptionMap.emplace (if (this.configOptions.lookup key).isSome then
        this.configOptions.erase key else this.configOptions) key value := by
  unfold addKey
  cases isOptional <;> cases this.configOptions.lookup key <;> simp
  split <;> rfl

theorem lookup_addKey (key value file : Bytes) (isOptional isReload : Bool) (this : ConfigMgr)
    (key' : Bytes) :
    (this.addKey key value file isOptional isReload).configOptions.lookup key' =
      if key' = key ∧ (isOptional = true → (this.configOptions.lookup key).isSome) then some value
      else this.configOptions.lookup key' := by
  rw [configOptions_addKey]
  by_cases hskip : isOptional = true ∧ this.configOptions.lookup key = none
  · have hnot : ¬ (key' = key ∧
        (isOptional = true → (this.configOptions.lookup key).isSome)) := by
      rintro ⟨_, hsome⟩
      simpa [hskip.2] using hsome hskip.1
    rw [if_pos hskip, if_neg hnot]
  · have hadd : isOptional = true → (this.configOptions.lookup key).isSome := by
      intro hoptional
      exact Option.isSome_iff_ne_none.mpr (fun hnone => hskip ⟨hoptional, hnone⟩)
    rw [if_neg hskip, lookup_emplace_erase]
    by_cases hkey : key' = key
    · rw [if_pos hkey, if_pos ⟨hkey, hadd⟩]
    · rw [if_neg hkey, if_neg (fun h => hkey h.1)]

/-- What does not depend on the options. -/
def SameFile (this this' : ConfigMgr) : Prop :=
  this'.filename = this.filename ∧ this'.usingDistConfig = this.usingDistConfig

theorem sameFile_addKey (key value file : Bytes) (isOptional isReload : Bool) (this : ConfigMgr) :
    SameFile this (this.addKey key value file isOptional isReload) := by
  simp only [addKey]
  split
  · split <;> exact ⟨rfl, rfl⟩
  · exact ⟨rfl, rfl⟩

section addAll

variable (file : Bytes) (isReload : Bool)

def addAll (isOptional : Bool) (entries : List OptionEntry) (this : ConfigMgr) : ConfigMgr :=
  entries.foldl (fun this entry => this.addKey entry.1 entry.2 file isOptional isReload) this

theorem sameFile_addAll (isOptional : Bool) (entries : List OptionEntry) (this : ConfigMgr) :
    SameFile this (addAll file isReload isOptional entries this) := by
  induction entries generalizing this with
  | nil => exact ⟨rfl, rfl⟩
  | cons e entries ih =>
    have hfirst := sameFile_addKey e.1 e.2 file isOptional isReload this
    have hrest := ih (this.addKey e.1 e.2 file isOptional isReload)
    exact ⟨hrest.1.trans hfirst.1, hrest.2.trans hfirst.2⟩

/-- Of an optional file the known keys count. -/
theorem lookup_addAll_optional {entries : List OptionEntry} (hnodup : entries.NodupKeys)
    (this : ConfigMgr) (key : Bytes) :
    (addAll file isReload true entries this).configOptions.lookup key =
      (this.configOptions.lookup key).map fun value => (entries.dlookup key).getD value := by
  induction entries generalizing this with
  | nil => simp [addAll]
  | cons e entries ih =>
    have hrest := ih (List.nodupKeys_of_nodupKeys_cons hnodup)
      (this.addKey e.1 e.2 file true isReload)
    rw [addAll, List.foldl_cons]
    rw [addAll] at hrest
    rw [hrest, lookup_addKey]
    by_cases hkey : key = e.1
    · subst hkey
      have hnone : entries.dlookup e.1 = none :=
        List.dlookup_eq_none.mpr (List.notMem_keys_of_nodupKeys_cons hnodup)
      have hself : (e :: entries).dlookup e.1 = some e.2 := List.dlookup_cons_eq _ _ _
      rw [hnone, hself]
      cases this.configOptions.lookup e.1 <;> simp
    · rw [if_neg (fun h => hkey h.1), List.dlookup_cons_ne _ _ hkey]

theorem lookup_addAll {entries : List OptionEntry} (hnodup : entries.NodupKeys)
    (this : ConfigMgr) (key : Bytes) :
    (addAll file isReload false entries this).configOptions.lookup key =
      (entries.dlookup key).or (this.configOptions.lookup key) := by
  induction entries generalizing this with
  | nil => simp [addAll]
  | cons e entries ih =>
    have hrest := ih (List.nodupKeys_of_nodupKeys_cons hnodup)
      (this.addKey e.1 e.2 file false isReload)
    rw [addAll, List.foldl_cons]
    rw [addAll] at hrest
    rw [hrest, lookup_addKey]
    by_cases hkey : key = e.1
    · subst hkey
      have hnone : entries.dlookup e.1 = none :=
        List.dlookup_eq_none.mpr (List.notMem_keys_of_nodupKeys_cons hnodup)
      have hself : (e :: entries).dlookup e.1 = some e.2 := List.dlookup_cons_eq _ _ _
      rw [hnone, hself, if_pos ⟨rfl, nofun⟩]
      rfl
    · rw [if_neg (fun h => hkey h.1), List.dlookup_cons_ne _ _ hkey]

end addAll

/-! ## The two loads -/

section loads

variable (order : IterationOrder)

theorem not_loads_of_entries {source : ConfigFile} (h : source.entries = []) : ¬ source.Loads := by
  intro hloads
  rw [ConfigFile.Loads, ConfigFile.distinctKeys, h] at hloads
  exact hloads rfl

theorem loadFile_not_loads {source : ConfigFile} (h : ¬ source.Loads) (file : Bytes)
    (isOptional isReload : Bool) (this : ConfigMgr) :
    ∃ output, loadFile order source file isOptional isReload this =
      ({ this with output := output }, false) := by
  cases source with
  | missing => cases isOptional <;> exact ⟨_, rfl⟩
  | opened bytes fails =>
    cases fails with
    | true =>
      have hthrown := readLoop_fails file (bytes.length + 1) bytes .init (Nat.lt_succ_self _)
      rw [loadFile, parseFile]
      generalize readLoop file true (bytes.length + 1) bytes .init = read at hthrown ⊢
      obtain ⟨s, _ | message⟩ := read
      · exact absurd rfl hthrown
      · exact ⟨_, rfl⟩
    | false =>
      obtain ⟨hthrown, hconfigs, hcounted⟩ :=
        readLoop_spec file (bytes.length + 1) bytes .init (Nat.lt_succ_self _) rfl
      have hlength := (ConfigFile.opened bytes false).length_map
      rw [loadFile, parseFile]
      generalize readLoop file false (bytes.length + 1) bytes .init = read at *
      obtain ⟨s, thrown⟩ := read
      simp only at hthrown hconfigs hcounted
      subst hthrown
      have hzero : s.count = 0 := by
        rw [hcounted, hconfigs]
        rw [ConfigFile.Loads, ← hlength] at h
        exact not_not.mp h
      cases isOptional <;> simp only [hzero, ↓reduceIte, Bool.false_eq_true] <;> exact ⟨_, rfl⟩

theorem parseFile_loads {source : ConfigFile} (h : source.Loads) (file : Bytes)
    (isOptional isReload : Bool) (this : ConfigMgr) :
    ∃ output entries, entries.Perm source.map.entries ∧
      parseFile order source file isOptional isReload this =
        (addAll file isReload isOptional entries { this with output := output }, .ok true) := by
  cases source with
  | missing => exact absurd h (not_loads_of_entries rfl)
  | opened bytes fails =>
    cases fails with
    | true => exact absurd h (not_loads_of_entries rfl)
    | false =>
      obtain ⟨hthrown, hconfigs, hcounted⟩ :=
        readLoop_spec file (bytes.length + 1) bytes .init (Nat.lt_succ_self _) rfl
      have hlength := (ConfigFile.opened bytes false).length_map
      rw [parseFile]
      generalize readLoop file false (bytes.length + 1) bytes .init = read at *
      obtain ⟨s, thrown⟩ := read
      simp only at hthrown hconfigs hcounted
      subst hthrown
      have hcount : s.count ≠ 0 := by
        rw [hcounted, hconfigs]
        rw [ConfigFile.Loads, ← hlength] at h
        exact h
      have hmap : s.fileConfigs = (ConfigFile.opened bytes false).map := hconfigs
      refine ⟨this.output ++ s.output, order.order s.fileConfigs, hmap ▸ order.perm s.fileConfigs,
        ?_⟩
      simp only [hcount, ↓reduceIte]
      rfl

theorem loadFile_loads {source : ConfigFile} (h : source.Loads) (file : Bytes)
    (isOptional isReload : Bool) (this : ConfigMgr) :
    ∃ output entries, entries.Perm source.map.entries ∧
      loadFile order source file isOptional isReload this =
        (addAll file isReload isOptional entries { this with output := output }, true) := by
  obtain ⟨output, entries, hperm, hparse⟩ :=
    parseFile_loads order h file isOptional isReload this
  refine ⟨output, entries, hperm, ?_⟩
  rw [loadFile, hparse]

theorem dlookup_perm {source : ConfigFile} {entries : List OptionEntry}
    (h : entries.Perm source.map.entries) (key : Bytes) :
    entries.NodupKeys ∧ entries.dlookup key = source.parse key := by
  have hnodup : entries.NodupKeys := (List.perm_nodupKeys h).mpr source.map.nodupKeys
  refine ⟨hnodup, ?_⟩
  rw [List.perm_dlookup key hnodup h, ← source.lookup_map]
  rfl

/-- A `.dist` file that gives no options leaves none. -/
theorem loadAppConfigs_not_loads (files : Bytes → ConfigFile) (isReload : Bool)
    {this : ConfigMgr} (h : ¬ (files this.distName).Loads) :
    ∃ output, loadAppConfigs order files isReload this =
      ({ this with configOptions := ∅, output := output }, false) := by
  obtain ⟨output, hload⟩ := loadFile_not_loads order h this.distName false isReload
    { this with configOptions := ∅ }
  refine ⟨output, ?_⟩
  rw [loadAppConfigs, loadInitial, hload]

/-- What the call makes of the state, when the `.dist` file gives options. -/
structure Loaded (dist main : ConfigFile) (this this' : ConfigMgr) : Prop where
  filename : this'.filename = this.filename
  usingDistConfig : this'.usingDistConfig = if main.Loads then this.usingDistConfig else true
  options : ∀ key, this'.configOptions.lookup key =
    if main.Loads then (dist.parse key).map fun value => (main.parse key).getD value
    else dist.parse key

theorem loadAppConfigs_loads (files : Bytes → ConfigFile) (isReload : Bool)
    {this : ConfigMgr} (h : (files this.distName).Loads) :
    (loadAppConfigs order files isReload this).2 = true ∧
      Loaded (files this.distName) (files this.filename) this
        (loadAppConfigs order files isReload this).1 := by
  obtain ⟨output, entries, hperm, hload⟩ := loadFile_loads order h this.distName false isReload
    { this with configOptions := ∅ }
  generalize hdist : addAll this.distName isReload false entries
    { this with configOptions := ∅, output := output } = loaded at hload
  have hsame := sameFile_addAll this.distName isReload false entries
    { this with configOptions := ∅, output := output }
  rw [hdist] at hsame
  have hname : loaded.filename = this.filename := hsame.1
  have hoptions : ∀ key, loaded.configOptions.lookup key = (files this.distName).parse key := by
    intro key
    obtain ⟨hnodup, hlookup⟩ := dlookup_perm hperm key
    rw [← hdist, lookup_addAll this.distName isReload hnodup, hlookup]
    simp
  rw [loadAppConfigs, loadInitial, hload]
  by_cases hmain : (files loaded.filename).Loads
  · obtain ⟨output', entries', hperm', hload'⟩ := loadFile_loads order hmain loaded.filename true
      isReload loaded
    simp only [loadAdditionalFile, hload']
    have hsame' := sameFile_addAll loaded.filename isReload true entries'
      { loaded with output := output' }
    refine ⟨trivial, hsame'.1.trans hname, ?_, ?_⟩
    · rw [← hname, if_pos hmain]
      exact hsame'.2.trans hsame.2
    · intro key
      obtain ⟨hnodup, hlookup⟩ := dlookup_perm hperm' key
      rw [lookup_addAll_optional loaded.filename isReload hnodup, hlookup, ← hname, if_pos hmain]
      exact congrArg _ (hoptions key)
  · obtain ⟨output', hload'⟩ := loadFile_not_loads order hmain loaded.filename true isReload loaded
    simp only [loadAdditionalFile, hload']
    refine ⟨trivial, hname, ?_, ?_⟩
    · rw [← hname, if_neg hmain]
    · intro key
      rw [← hname, if_neg hmain]
      exact hoptions key

/-! ## The merge -/

/-- What a call of `LoadAppConfigs` should come to. -/
structure Merges (dist main : ConfigFile) (result : ConfigMgr × Bool) : Prop where
  options : result.2 = true → ∀ key, result.1.configOptions.lookup key =
    (dist.parse key).map fun value => (main.parse key).getD value
  fails : result.2 = false ↔ ∀ key, dist.parse key = none

/-- The counter of a file with options ends at 0. -/
def Wraps (file : ConfigFile) : Prop :=
  file.distinctKeys ≠ 0 ∧ 2 ^ 32 ∣ file.distinctKeys

theorem wraps_iff (file : ConfigFile) :
    Wraps file ↔ (∃ key, file.parse key ≠ none) ∧ ¬ file.Loads := by
  have hzero : file.distinctKeys ≠ 0 ↔ ∃ key, file.parse key ≠ none := by
    rw [ConfigFile.distinctKeys, ne_eq, List.length_eq_zero_iff, ← ne_eq,
      ← List.isEmpty_eq_false_iff, List.isEmpty_eq_false_iff_exists_mem]
    simp only [List.mem_dedup, ConfigFile.parse, ne_eq, List.dlookup_eq_none, not_not]
  rw [Wraps, hzero, ConfigFile.Loads, not_not, Nat.dvd_iff_mod_eq_zero]

theorem not_merges_of_wraps (files : Bytes → ConfigFile) (isReload : Bool) (this : ConfigMgr)
    (h : Wraps (files this.distName)) (main : ConfigFile) :
    ¬ Merges (files this.distName) main (loadAppConfigs order files isReload this) := by
  intro hmerges
  obtain ⟨⟨key, hkey⟩, hloads⟩ := (wraps_iff _).mp h
  obtain ⟨output, hload⟩ := loadAppConfigs_not_loads order files isReload hloads
  rw [hload] at hmerges
  exact hkey (hmerges.fails.mp rfl key)

/-- Behind a `.dist` file that gives options, the options are merged unless the counter of
a main file that changes a value wraps. -/
theorem Loaded.merged_iff {dist main : ConfigFile} {this this' : ConfigMgr}
    (h : Loaded dist main this this') :
    (∀ key, this'.configOptions.lookup key =
        (dist.parse key).map fun value => (main.parse key).getD value) ↔
      (Wraps main → ∀ key value value', dist.parse key = some value →
        main.parse key = some value' → value' = value) := by
  constructor
  · intro hmerged hmain key value value' hvalue hvalue'
    have hoption := hmerged key
    rw [h.options key, if_neg ((wraps_iff _).mp hmain).2, hvalue, hvalue'] at hoption
    exact (Option.some.inj hoption).symm
  · intro hsame key
    rw [h.options key]
    by_cases hmain : main.Loads
    · rw [if_pos hmain]
    · rw [if_neg hmain]
      cases hvalue : dist.parse key with
      | none => rfl
      | some value =>
        cases hvalue' : main.parse key with
        | none => rfl
        | some value' =>
          have hmainWraps := (wraps_iff _).mpr ⟨⟨key, by simp [hvalue']⟩, hmain⟩
          rw [hsame hmainWraps key value value' hvalue hvalue']
          rfl

/-- The files are merged as they should be unless a counter wraps: the one of the
`.dist` file, or the one of a main file that changes a value. -/
theorem merges_iff (files : Bytes → ConfigFile) (isReload : Bool) (this : ConfigMgr) :
    Merges (files this.distName) (files this.filename)
        (loadAppConfigs order files isReload this) ↔
      ¬ Wraps (files this.distName) ∧ (Wraps (files this.filename) →
        ∀ key value value', (files this.distName).parse key = some value →
          (files this.filename).parse key = some value' → value' = value) := by
  by_cases hdist : (files this.distName).Loads
  · obtain ⟨hreturn, hloaded⟩ := loadAppConfigs_loads order files isReload hdist
    have hwraps : ¬ Wraps (files this.distName) := fun h => ((wraps_iff _).mp h).2 hdist
    constructor
    · intro hmerges
      exact ⟨hwraps, hloaded.merged_iff.mp (hmerges.options hreturn)⟩
    · rintro ⟨_, hsame⟩
      constructor
      · intro _
        exact hloaded.merged_iff.mpr hsame
      · rw [hreturn]
        obtain ⟨key, hkey⟩ := hdist.exists_parse
        constructor
        · intro hfalse
          cases hfalse
        · intro hnone
          exact absurd (hnone key) hkey
  · obtain ⟨output, hload⟩ := loadAppConfigs_not_loads order files isReload hdist
    constructor
    · intro hmerges
      refine ⟨fun hwraps => not_merges_of_wraps order files isReload this hwraps _ hmerges, ?_⟩
      rw [hload] at hmerges
      intro _ key value value' hvalue
      rw [hmerges.fails.mp rfl key] at hvalue
      cases hvalue
    · rintro ⟨hwraps, _⟩
      rw [hload]
      refine ⟨fun h => ?_, ?_⟩
      · cases h
      · constructor
        · intro _ key
          apply Decidable.byContradiction
          intro hkey
          exact hwraps ((wraps_iff _).mpr ⟨⟨key, hkey⟩, hdist⟩)
        · intro _
          rfl

end loads

/-- The key number `n`: its binary digits. -/
def numberedKey (n : Nat) : Bytes :=
  (Nat.digits 2 (n + 1)).map fun d => if d = 0 then 48 else 49

/-- A file with so many different options without a value. -/
def manyOptions (n : Nat) : Bytes := (List.range n).flatMap fun i => numberedKey i ++ [61, 10]

theorem numberedKey_injective : Function.Injective numberedKey := by
  intro m n h
  have hback : ∀ k, (numberedKey k).map (fun c => if c = 48 then 0 else 1) =
      Nat.digits 2 (k + 1) := by
    intro k
    rw [numberedKey, List.map_map]
    nth_rewrite 2 [← List.map_id (Nat.digits 2 (k + 1))]
    apply List.map_congr_left
    intro d hd
    have hlt : d < 2 := Nat.digits_lt_base (by decide) hd
    have hd : d = 0 ∨ d = 1 := by omega
    rcases hd with rfl | rfl <;> rfl
  have hdigits : Nat.digits 2 (m + 1) = Nat.digits 2 (n + 1) := by
    rw [← hback m, ← hback n, h]
  have hsucc := Nat.digits_inj_iff.mp hdigits
  omega

theorem isKey_numberedKey (n : Nat) : IsKey (numberedKey n) ∧ (10 : UInt8) ∉ numberedKey n := by
  have hmem : ∀ c ∈ numberedKey n, c = 48 ∨ c = 49 := by
    intro c hc
    obtain ⟨d, _, rfl⟩ := List.mem_map.mp hc
    split
    · exact Or.inl rfl
    · exact Or.inr rfl
  have hspace : ∀ c ∈ numberedKey n, isSpace c = false := by
    intro c hc
    rcases hmem c hc with rfl | rfl <;> decide
  have hnot : ∀ c : UInt8, c ≠ 48 ∧ c ≠ 49 → c ∉ numberedKey n := by
    intro c hne hc
    exact (hmem c hc).elim hne.1 hne.2
  refine ⟨⟨?_, ⟨?_, ?_⟩, hnot 35 (by decide), hnot 61 (by decide), ?_⟩, hnot 10 (by decide)⟩
  · rw [numberedKey, ne_eq, List.map_eq_nil_iff, Nat.digits_eq_nil_iff_eq_zero]
    omega
  · intro c hc
    exact hspace c (List.mem_of_head? hc)
  · intro c hc
    exact hspace c (List.mem_of_getLast? hc)
  · intro hc
    exact hnot 91 (by decide) (List.mem_of_head? hc)

theorem entriesOf_append {line : Bytes} (h : (10 : UInt8) ∉ line) (rest : Bytes) :
    entriesOf (line ++ 10 :: rest) = (parseLine line).entry.toList ++ entriesOf rest := by
  rw [entriesOf, entriesOf, List.splitOn_append_cons_self_of_not_mem h, List.filterMap_cons]
  cases (parseLine line).entry <;> rfl

theorem entriesOf_manyOptions (n : Nat) :
    entriesOf (manyOptions n) = (List.range n).map fun i => ⟨numberedKey i, []⟩ := by
  unfold manyOptions
  induction List.range n with
  | nil => decide
  | cons i is ih =>
    obtain ⟨hkey, hline⟩ := isKey_numberedKey i
    have hline' : (10 : UInt8) ∉ numberedKey i ++ [61] := by
      intro hmem
      rcases List.mem_append.mp hmem with hmem | hmem
      · exact hline hmem
      · exact absurd (List.mem_singleton.mp hmem) (by decide)
    have hparse : parseLine (numberedKey i ++ [61]) = .option (numberedKey i) [] := by
      have hrest := parseLine_key (w := []) (u := []) hkey nofun nofun []
      rw [List.nil_append, List.append_nil] at hrest
      exact hrest
    have hshift : ∀ rest : Bytes,
        numberedKey i ++ [61, 10] ++ rest = numberedKey i ++ [61] ++ 10 :: rest := by
      intro rest
      simp
    rw [List.flatMap_cons, hshift, entriesOf_append hline', hparse, ih]
    rfl

theorem distinctKeys_manyOptions (n : Nat) :
    (ConfigFile.opened (manyOptions n) false).distinctKeys = n := by
  have hkeys : (entriesOf (manyOptions n)).keys = (List.range n).map numberedKey := by
    rw [entriesOf_manyOptions, List.keys, List.map_map]
    rfl
  have hnodup : ((List.range n).map numberedKey).Nodup :=
    List.nodup_range.map numberedKey_injective
  rw [ConfigFile.distinctKeys, ConfigFile.entries, hkeys, hnodup.dedup, List.length_map,
    List.length_range]

def insertionOrder : IterationOrder := ⟨fun map => map.entries, fun _ => List.Perm.refl _⟩

/-- A `.dist` file of 2 ^ 32 options is refused as empty. -/
theorem wrapped_file_not_merged :
    ¬ Merges (.opened (manyOptions (2 ^ 32)) false) .missing
      ((configure (text "logon.conf")).loadAppConfigs insertionOrder
        (fun name => if name = text "logon.conf.dist" then .opened (manyOptions (2 ^ 32)) false
          else .missing) false) := by
  have hwraps : Wraps (ConfigFile.opened (manyOptions (2 ^ 32)) false) := by
    rw [Wraps, distinctKeys_manyOptions]
    exact ⟨by decide, dvd_refl _⟩
  generalize ConfigFile.opened (manyOptions (2 ^ 32)) false = file at hwraps ⊢
  have hname : (configure (text "logon.conf")).distName = text "logon.conf.dist" := by decide
  have hnot := not_merges_of_wraps insertionOrder
    (fun name => if name = text "logon.conf.dist" then file else .missing) false
    (configure (text "logon.conf"))
  simp only [hname, ↓reduceIte] at hnot
  exact hnot hwraps .missing

end ConfigMgr

end Mpool
