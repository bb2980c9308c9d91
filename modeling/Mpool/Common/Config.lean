import Mathlib.Data.List.AList
import Mathlib.Data.List.DropRight
import Mpool.Common.Tokenize
import Mpool.Common.Util

/-! `Config.cpp`: the options that the `.dist` file of the application gives, with
the values its main file has for them. -/

namespace Mpool

open Util (text isSpace)

/-- `String::Trim`, in the locale a program starts with. -/
def trim (s : Bytes) : Bytes := (s.dropWhile isSpace).rdropWhile isSpace

/-- `find` of a whole string. -/
def containsText (s : Bytes) (sub : String) : Bool := s.tails.any (text sub).isPrefixOf

/-- A `std::unordered_map` from strings to strings. -/
abbrev OptionMap := AList fun _ : Bytes => Bytes

/-- The order in which a loop over such a map meets its elements. -/
structure IterationOrder where
  order : OptionMap → List (Sigma fun _ : Bytes => Bytes)
  perm : ∀ map, (order map).Perm map.entries

def OptionMap.emplace (map : OptionMap) (key value : Bytes) : OptionMap :=
  if (map.lookup key).isSome then map else map.insert key value

/-- A file as an `ifstream` meets it: `fails` says that reading beyond the bytes is
an error and not the end of the file. -/
inductive ConfigFile where
  | missing
  | opened (bytes : Bytes) (fails : Bool)

/-- The variables of the file and what it has printed. -/
structure ConfigMgr where
  filename : Bytes
  configOptions : OptionMap
  usingDistConfig : Bool
  output : Bytes

namespace ConfigMgr

def configure (initFileName : Bytes) : ConfigMgr := ⟨initFileName, ∅, false, []⟩

def isAppConfig (fileName : Bytes) : Bool := containsText fileName "logon.conf"

def isLoggingSystemOptions (optionName : Bytes) : Bool :=
  containsText optionName "Appender." || containsText optionName "Logger."

/-- What `PrintError` prints. -/
def errorText (filename message : Bytes) : Bytes :=
  if isAppConfig filename then message ++ text "\n"
  else text "server.loading" ++ message ++ text "\n"

def printError (filename message : Bytes) (this : ConfigMgr) : ConfigMgr :=
  { this with output := this.output ++ errorText filename message }

def addKey (optionName optionKey fileName : Bytes) (isOptional isReload : Bool)
    (this : ConfigMgr) : ConfigMgr :=
  let found := (this.configOptions.lookup optionName).isSome
  if isOptional && !found then
    if !isLoggingSystemOptions optionName && !isReload then
      this.printError fileName (text ">Config::LoadFile:Found incorrect option '" ++ optionName ++
        text "' in config file '" ++ fileName ++ text "'.Skip")
    else this
  else
    let options := if found then this.configOptions.erase optionName else this.configOptions
    { this with configOptions := OptionMap.emplace options optionName optionKey }

/-! ## `ParseFile` -/

inductive ParsedLine where
  | skip
  | failure
  | option (entry value : Bytes)
  deriving DecidableEq

/-- The treatment of one line, up to the question of duplicates. -/
def parseLine (line : Bytes) : ParsedLine :=
  let line := trim line
  if line = [] then .skip
  else if line.head? = some 35 ∨ line.head? = some 91 then .skip
  else
    let line := match findFrom line 35 0 with
      | some found => substr line 0 found
      | none => line
    match findFrom line 61 0 with
    | none => .failure
    | some equalPos =>
      if equalPos = line.length then .failure
      else .option (trim (substr line 0 equalPos))
        ((trim (line.drop (equalPos + 1))).filter fun c => c ≠ 34)

/-- `lineNumber` and `count` are of type `uint32`. -/
structure Parsing where
  lineNumber : Nat
  count : Nat
  fileConfigs : OptionMap
  output : Bytes

def Parsing.init : Parsing := ⟨0, 0, ∅, []⟩

def decimalText (n : Nat) : Bytes := text (toString n)

def Parsing.line (file line : Bytes) (s : Parsing) : Parsing :=
  match parseLine line with
  | .skip => s
  | .failure =>
    let message := text "Config::LoadFile: Failure to read line number " ++
      decimalText s.lineNumber ++ text " in file '" ++ file ++ text "'.Skip this line"
    { s with output := s.output ++ errorText file message }
  | .option entry value =>
    if (s.fileConfigs.lookup entry).isSome then
      let message := text "Config::LoadFile: Dublicate key name '" ++ entry ++
        text "' in config file '" ++ file ++ text "'"
      { s with output := s.output ++ errorText file message }
    else
      { s with
        fileConfigs := s.fileConfigs.emplace entry value
        count := (s.count + 1) % 2 ^ 32 }

/-- `std::getline`: the line, and what stands behind its end; `none` if there is no
newline any more. -/
def getline (rest : Bytes) : Bytes × Option Bytes :=
  match findFrom rest 10 0 with
  | some stop => (substr rest 0 stop, some (rest.drop (stop + 1)))
  | none => (rest, none)

/-- `while (in.good())`; the second component is the exception thrown. -/
def readLoop (file : Bytes) (fails : Bool) : Nat → Bytes → Parsing → Parsing × Option Bytes
  | 0, _, s => (s, none)
  | fuel + 1, rest, s =>
    let s := { s with lineNumber := (s.lineNumber + 1) % 2 ^ 32 }
    match getline rest with
    | (line, some rest) => readLoop file fails fuel rest (s.line file line)
    | (line, none) =>
      if fails then
        (s, some (text "Config::LoadFile: Failure  to read line number " ++
          decimalText s.lineNumber ++ text " in file '" ++ file ++ text "'"))
      else (s.line file line, none)

section files

variable (order : IterationOrder)

/-- The exception that is thrown is `.error`. -/
def parseFile (source : ConfigFile) (file : Bytes) (isOptional isReload : Bool)
    (this : ConfigMgr) : ConfigMgr × Except Bytes Bool :=
  match source with
  | .missing =>
    if isOptional then (this, .ok false)
    else (this, .error (text "Config::LoadFile: Failed open " ++
      (if isOptional then text "optional" else []) ++ text " file '" ++ file ++ text "'"))
  | .opened bytes fails =>
    let (s, thrown) := readLoop file fails (bytes.length + 1) bytes .init
    let this := { this with output := this.output ++ s.output }
    match thrown with
    | some message => (this, .error message)
    | none =>
      if s.count = 0 then
        if isOptional then (this, .ok false)
        else (this, .error (text "Config::LoadFile: empty file '" ++ file ++ text "'"))
      else
        ((order.order s.fileConfigs).foldl
          (fun this entry => this.addKey entry.1 entry.2 file isOptional isReload) this, .ok true)

def loadFile (source : ConfigFile) (file : Bytes) (isOptional isReload : Bool)
    (this : ConfigMgr) : ConfigMgr × Bool :=
  match parseFile order source file isOptional isReload this with
  | (this, .ok loaded) => (this, loaded)
  | (this, .error message) => (this.printError file message, false)

def loadInitial (source : ConfigFile) (file : Bytes) (isReload : Bool) (this : ConfigMgr) :
    ConfigMgr × Bool :=
  loadFile order source file false isReload { this with configOptions := ∅ }

def loadAdditionalFile (source : ConfigFile) (file : Bytes) (isOptional isReload : Bool)
    (this : ConfigMgr) : ConfigMgr × Bool :=
  loadFile order source file isOptional isReload this

def distName (this : ConfigMgr) : Bytes := this.filename ++ text ".dist"

/-- `files` is what the two names stand for at the time of the call. -/
def loadAppConfigs (files : Bytes → ConfigFile) (isReload : Bool) (this : ConfigMgr) :
    ConfigMgr × Bool :=
  match this.loadInitial order (files this.distName) this.distName isReload with
  | (this, false) => (this, false)
  | (this, true) =>
    match this.loadAdditionalFile order (files this.filename) this.filename true isReload with
    | (this, false) => ({ this with usingDistConfig := true }, true)
    | (this, true) => (this, true)

end files

def getFilename (this : ConfigMgr) : Bytes :=
  if this.usingDistConfig then this.filename ++ text ".dist" else this.filename

/-! ## Lines -/

def White (s : Bytes) : Prop := ∀ c ∈ s, isSpace c = true

/-- No white space at the ends. -/
def Trimmed (s : Bytes) : Prop :=
  (∀ c ∈ s.head?, isSpace c = false) ∧ ∀ c ∈ s.getLast?, isSpace c = false

theorem White.dropWhile {w : Bytes} (h : White w) (s : Bytes) :
    (w ++ s).dropWhile isSpace = s.dropWhile isSpace :=
  List.dropWhile_append_of_pos h

theorem White.rdropWhile {w : Bytes} (h : White w) (s : Bytes) :
    (s ++ w).rdropWhile isSpace = s.rdropWhile isSpace := by
  have hreverse : White w.reverse := fun c hc => h c (List.mem_reverse.mp hc)
  rw [List.rdropWhile, List.reverse_append, hreverse.dropWhile]
  rfl

theorem Trimmed.dropWhile {s : Bytes} (h : Trimmed s) (rest : Bytes) (hne : s ≠ []) :
    (s ++ rest).dropWhile isSpace = s ++ rest := by
  cases s with
  | nil => exact absurd rfl hne
  | cons c s => exact List.dropWhile_cons_of_neg (by simp [h.1 c rfl])

theorem Trimmed.rdropWhile {s : Bytes} (h : Trimmed s) : s.rdropWhile isSpace = s := by
  rw [List.rdropWhile_eq_self_iff]
  intro hne
  simp [h.2 _ (List.getLast?_eq_some_getLast hne)]

/-- Trimming stops at what is no white space. -/
theorem rdropWhile_append_cons {c : UInt8} (h : isSpace c = false) (s rest : Bytes) :
    (s ++ c :: rest).rdropWhile isSpace = s ++ c :: rest.rdropWhile isSpace := by
  have hcons : ∀ l : Bytes, (l ++ c :: s.reverse).dropWhile isSpace =
      l.dropWhile isSpace ++ c :: s.reverse := by
    intro l
    induction l with
    | nil => exact List.dropWhile_cons_of_neg (by simp [h])
    | cons d l ih =>
      rw [List.cons_append, List.dropWhile_cons, List.dropWhile_cons]
      split
      · exact ih
      · rfl
  have hreverse : (s ++ c :: rest).reverse = rest.reverse ++ c :: s.reverse := by simp
  rw [List.rdropWhile, hreverse, hcons, List.rdropWhile]
  simp

theorem trim_padded {s w w' : Bytes} (h : Trimmed s) (hw : White w) (hw' : White w') :
    trim (w ++ s ++ w') = s := by
  rw [trim, List.append_assoc, hw.dropWhile]
  by_cases hne : s = []
  · have hall := hw'.dropWhile []
    rw [List.append_nil] at hall
    rw [hne, List.nil_append, hall]
    rfl
  · rw [h.dropWhile w' hne, hw'.rdropWhile, h.rdropWhile]

/-- The cut at the first `c`. -/
theorem substr_findFrom (s : Bytes) (c : UInt8) :
    (match findFrom s c 0 with
      | some found => substr s 0 found
      | none => s) = s.takeWhile fun x => x ≠ c := by
  by_cases hmem : c ∈ s
  · obtain ⟨front, rest, rfl, hfront⟩ := exists_first hmem
    have hkeep : ∀ x ∈ front, decide (x ≠ c) = true := by
      intro x hx
      exact decide_eq_true (fun heq => hfront (heq ▸ hx))
    rw [findFrom_append hfront, List.takeWhile_append_of_pos hkeep]
    simp [substr]
  · have hkeep : ∀ x ∈ s, decide (x ≠ c) = true := by
      intro x hx
      exact decide_eq_true (fun heq => hmem (heq ▸ hx))
    rw [findFrom_eq_none hmem, List.takeWhile_eq_self_iff.mpr hkeep]

/-- What a key may be: it is no comment and no section, and the line is split behind
it. -/
structure IsKey (key : Bytes) : Prop where
  ne_nil : key ≠ []
  trimmed : Trimmed key
  no_hash : 35 ∉ key
  no_equal : 61 ∉ key
  no_section : key.head? ≠ some 91

/-- A line with a key: white space, the key, white space, `=`, the rest. -/
theorem parseLine_key {key w u : Bytes} (hkey : IsKey key) (hw : White w) (hu : White u)
    (rest : Bytes) :
    parseLine (w ++ key ++ u ++ 61 :: rest) =
      .option key ((trim ((rest.rdropWhile isSpace).takeWhile fun x => x ≠ 35)).filter
        fun c => c ≠ 34) := by
  have htrim : trim (w ++ key ++ u ++ 61 :: rest) =
      key ++ u ++ 61 :: rest.rdropWhile isSpace := by
    have hshift : w ++ key ++ u ++ 61 :: rest = w ++ (key ++ (u ++ 61 :: rest)) := by simp
    rw [trim, hshift, hw.dropWhile, hkey.trimmed.dropWhile _ hkey.ne_nil, ← List.append_assoc,
      rdropWhile_append_cons (by decide)]
  have hcut : ∀ r : Bytes, (key ++ u ++ 61 :: r).takeWhile (fun x => x ≠ 35) =
      key ++ u ++ 61 :: r.takeWhile fun x => x ≠ 35 := by
    intro r
    have hkeep : ∀ x ∈ key ++ u ++ [61], decide (x ≠ (35 : UInt8)) = true := by
      intro x hx
      apply decide_eq_true
      rintro rfl
      rcases List.mem_append.mp hx with hx | hx
      · rcases List.mem_append.mp hx with hx | hx
        · exact hkey.no_hash hx
        · exact absurd (hu 35 hx) (by decide)
      · exact absurd (List.mem_singleton.mp hx) (by decide)
    have hshift : ∀ r : Bytes, key ++ u ++ 61 :: r = key ++ u ++ [61] ++ r := by
      intro r
      simp
    rw [hshift, List.takeWhile_append_of_pos hkeep, ← hshift]
  have hequal : (61 : UInt8) ∉ key ++ u := by
    intro hmem
    rcases List.mem_append.mp hmem with hmem | hmem
    · exact hkey.no_equal hmem
    · exact absurd (hu 61 hmem) (by decide)
  have hhead : ∀ r : Bytes, (key ++ u ++ 61 :: r).head? = key.head? := by
    intro r
    cases key with
    | nil => exact absurd rfl hkey.ne_nil
    | cons c key => rfl
  have hhash : key.head? ≠ some 35 := by
    intro h
    exact hkey.no_hash (List.mem_of_head? h)
  have hentry : trim (key ++ u) = key := trim_padded (w := []) hkey.trimmed nofun hu
  unfold parseLine
  simp only [htrim, hhead, hhash, hkey.no_section, or_self, ↓reduceIte, substr_findFrom, hcut,
    findFrom_append hequal]
  have hfront : ∀ r : Bytes, substr (key ++ u ++ 61 :: r) 0 (key ++ u).length = key ++ u := by
    intro r
    rw [substr, List.drop_zero, List.take_left]
  have hback : ∀ r : Bytes, (key ++ u ++ 61 :: r).drop ((key ++ u).length + 1) = r := by
    intro r
    rw [← List.drop_drop, List.drop_left]
    rfl
  rw [if_neg (by simp), if_neg (by simp), hfront, hback, hentry]

end ConfigMgr

end Mpool
