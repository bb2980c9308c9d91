import Mpool.Common.ConfigMerge

/-! A value in double quotes. The quotes go last, behind the trimming, so that they
keep the white space inside; but the line is cut at a `#` before anything is known
of quotes. -/

namespace Mpool.ConfigMgr

open Util (text isSpace)

/-- `key = "value"` with white space around the key, the `=` and the quoted value. -/
def quotedLine (w key u v value x : Bytes) : Bytes :=
  w ++ key ++ u ++ 61 :: (v ++ 34 :: value ++ 34 :: x)

/-- White space without an end of line. -/
def Blank (w : Bytes) : Prop := White w ∧ (10 : UInt8) ∉ w

/-- The value that the parser takes from a quoted value. -/
def quotedPart (value : Bytes) : Bytes :=
  if 35 ∈ value then (((value.takeWhile fun c => c ≠ 35).rdropWhile isSpace).filter fun c => c ≠ 34)
  else value

theorem filter_eq_self {s : Bytes} {c : UInt8} (h : c ∉ s) : s.filter (fun x => x ≠ c) = s := by
  rw [List.filter_eq_self]
  intro x hx
  exact decide_eq_true (fun heq => h (heq ▸ hx))

theorem trim_quoted {v : Bytes} (hv : White v) (s : Bytes) :
    trim (v ++ 34 :: s) = 34 :: s.rdropWhile isSpace := by
  rw [trim, hv.dropWhile, List.dropWhile_cons_of_neg (by decide)]
  exact rdropWhile_append_cons (by decide) [] s

theorem parseLine_quoted {w key u v value x : Bytes} (hkey : IsKey key) (hw : White w)
    (hu : White u) (hv : White v) (hx : White x) (hvalue : 34 ∉ value) :
    parseLine (quotedLine w key u v value x) = .option key (quotedPart value) := by
  have hend : (v ++ 34 :: value ++ 34 :: x).rdropWhile isSpace = v ++ 34 :: (value ++ [34]) := by
    have hall := hx.rdropWhile []
    rw [List.nil_append] at hall
    rw [rdropWhile_append_cons (by decide), hall]
    simp
  have hhash : (35 : UInt8) ∉ v := fun hmem => absurd (hv 35 hmem) (by decide)
  have hcut : (v ++ 34 :: (value ++ [34])).takeWhile (fun c => c ≠ 35) =
      v ++ 34 :: (value ++ [34]).takeWhile fun c => c ≠ 35 := by
    rw [List.takeWhile_append_of_pos, List.takeWhile_cons_of_pos (by decide)]
    intro c hc
    exact decide_eq_true (fun heq => hhash (heq ▸ hc))
  rw [quotedLine, parseLine_key hkey hw hu, hend, hcut, trim_quoted hv, quotedPart]
  split
  · next hmem =>
    obtain ⟨front, rest, rfl, hfront⟩ := exists_first hmem
    have htake : ∀ tail : Bytes, (front ++ 35 :: tail).takeWhile (fun c => c ≠ 35) = front := by
      intro tail
      rw [List.takeWhile_append_of_pos, List.takeWhile_cons_of_neg (by decide), List.append_nil]
      intro c hc
      exact decide_eq_true (fun heq => hfront (heq ▸ hc))
    rw [List.append_assoc, List.cons_append, htake, htake, List.filter_cons_of_neg (by decide)]
  · next hmem =>
    have hhash' : (35 : UInt8) ∉ value ++ [34] := by simp [hmem]
    have hquote := rdropWhile_append_cons (c := 34) (by decide) value []
    rw [Bytes.takeWhile_ne_eq_self_iff.mpr hhash', hquote, List.rdropWhile_nil,
      List.filter_cons_of_neg (by decide), List.filter_append, filter_eq_self hvalue]
    simp

theorem quotedPart_eq_iff (value : Bytes) : quotedPart value = value ↔ 35 ∉ value := by
  rw [quotedPart]
  split
  · next hmem =>
    refine ⟨fun heq => absurd heq ?_, fun h => absurd hmem h⟩
    obtain ⟨front, rest, rfl, hfront⟩ := exists_first hmem
    have htake : (front ++ 35 :: rest).takeWhile (fun c => c ≠ 35) = front := by
      rw [List.takeWhile_append_of_pos, List.takeWhile_cons_of_neg (by decide), List.append_nil]
      intro c hc
      exact decide_eq_true (fun heq => hfront (heq ▸ hc))
    intro heq
    have hle := (List.filter_sublist (p := fun c => decide (c ≠ 34))
      (l := front.rdropWhile isSpace)).length_le
    have hprefix := (List.rdropWhile_prefix (p := isSpace) (l := front)).length_le
    have hlength := congrArg List.length heq
    rw [htake, List.length_append, List.length_cons] at hlength
    omega
  · next hmem => exact ⟨fun _ => hmem, fun _ => rfl⟩

/-- A file of one line, with or without a newline behind it. -/
theorem entries_oneLine {line : Bytes} (h : (10 : UInt8) ∉ line) (newline : Bool) :
    (ConfigFile.opened (line ++ if newline then [10] else []) false).entries =
      (parseLine line).entry.toList := by
  cases newline with
  | true =>
    have hempty : entriesOf [] = [] := by decide
    rw [ConfigFile.entries, if_pos rfl, entriesOf_append h, hempty, List.append_nil]
  | false =>
    rw [ConfigFile.entries, if_neg (by decide), List.append_nil, entriesOf,
      List.splitOn_eq_singleton h, List.filterMap_cons]
    cases (parseLine line).entry <;> rfl

/-- The file gives the key its value, and nothing else. -/
def ParsesTo (this : ConfigMgr) (key value : Bytes) (result : ConfigMgr × Except Bytes Bool) :
    Prop :=
  result.2 = .ok true ∧ ∀ key', result.1.configOptions.lookup key' =
    if key' = key then some value else this.configOptions.lookup key'

/-- A quoted value survives exactly if it has no `#`. -/
theorem quoted_value_iff (order : IterationOrder) {w key u v value x : Bytes}
    (hkey : IsKey key) (hline : (10 : UInt8) ∉ key) (hw : Blank w) (hu : Blank u) (hv : Blank v)
    (hx : Blank x) (hquote : 34 ∉ value) (hend : (10 : UInt8) ∉ value) (newline : Bool)
    (file : Bytes) (isReload : Bool) (this : ConfigMgr) :
    ParsesTo this key value (parseFile order (.opened (quotedLine w key u v value x ++
        if newline then [10] else []) false) file false isReload this) ↔ 35 ∉ value := by
  have hnewline : (10 : UInt8) ∉ quotedLine w key u v value x := by
    simp [quotedLine, hline, hw.2, hu.2, hv.2, hx.2, hend]
  have hentries := entries_oneLine hnewline newline
  rw [parseLine_quoted hkey hw.1 hu.1 hv.1 hx.1 hquote] at hentries
  generalize ConfigFile.opened (quotedLine w key u v value x ++ if newline then [10] else [])
    false = source at hentries ⊢
  have hloads : source.Loads := by
    rw [ConfigFile.Loads, ConfigFile.distinctKeys, hentries]
    exact Nat.one_ne_zero
  obtain ⟨output, entries, hperm, hparse⟩ := parseFile_loads order hloads file false isReload this
  have hlookup : ∀ key', (parseFile order source file false isReload this).1.configOptions.lookup
      key' = if key' = key then some (quotedPart value) else this.configOptions.lookup key' := by
    intro key'
    obtain ⟨hnodup, hentry⟩ := dlookup_perm hperm key'
    rw [hparse, lookup_addAll file isReload hnodup, hentry, ConfigFile.parse, hentries]
    have hentry' : ([⟨key, quotedPart value⟩] : List OptionEntry).dlookup key' =
        if key' = key then some (quotedPart value) else none := by
      split
      · next heq => rw [heq, List.dlookup_cons_eq]
      · next hne => rw [List.dlookup_cons_ne _ _ hne, List.dlookup_nil]
    simp only [ParsedLine.entry, Option.toList_some, hentry']
    split <;> rfl
  rw [← quotedPart_eq_iff, ParsesTo]
  constructor
  · rintro ⟨_, hall⟩
    have hvalue := hall key
    rw [hlookup key, if_pos rfl, if_pos rfl] at hvalue
    exact Option.some.inj hvalue
  · intro heq
    refine ⟨by rw [hparse], ?_⟩
    intro key'
    rw [hlookup key', heq]

theorem spaced_value_survives :
    ParsesTo (configure (text "logon.conf")) (text "PidFile") (text " a = b; ")
      (parseFile insertionOrder (.opened (quotedLine [] (text "PidFile") [32] [32]
        (text " a = b; ") [] ++ if true then [10] else []) false) (text "logon.conf.dist") false
        false (configure (text "logon.conf"))) := by
  have hblank : Blank [32] := by
    refine ⟨?_, by decide⟩
    intro c hc
    rw [List.mem_singleton.mp hc]
    decide
  have hnone : Blank [] := ⟨nofun, nofun⟩
  have hkey : IsKey (text "PidFile") :=
    ⟨by decide, ⟨by decide +kernel, by decide +kernel⟩, by decide, by decide, by decide⟩
  exact (quoted_value_iff insertionOrder hkey (by decide) hnone hblank hblank hnone (by decide)
    (by decide) true (text "logon.conf.dist") false (configure (text "logon.conf"))).mpr (by decide)

/-- Of a connection string with a `#` in the password the front is left. -/
theorem hashed_password_lost :
    ((parseFile insertionOrder (.opened (quotedLine [] (text "LoginDatabaseInfo") [32] [32]
        (text "127.0.0.1;3306;root;p#ss;auth") []) false) (text "logon.conf.dist") false false
        (configure (text "logon.conf"))).1.configOptions.lookup (text "LoginDatabaseInfo")) =
          some (text "127.0.0.1;3306;root;p") ∧
      ¬ ParsesTo (configure (text "logon.conf")) (text "LoginDatabaseInfo")
        (text "127.0.0.1;3306;root;p#ss;auth")
        (parseFile insertionOrder (.opened (quotedLine [] (text "LoginDatabaseInfo") [32] [32]
          (text "127.0.0.1;3306;root;p#ss;auth") []) false) (text "logon.conf.dist") false false
          (configure (text "logon.conf"))) := by
  have hlookup : ((parseFile insertionOrder (.opened (quotedLine [] (text "LoginDatabaseInfo")
      [32] [32] (text "127.0.0.1;3306;root;p#ss;auth") []) false) (text "logon.conf.dist") false
      false (configure (text "logon.conf"))).1.configOptions.lookup (text "LoginDatabaseInfo")) =
        some (text "127.0.0.1;3306;root;p") := by
    decide
  refine ⟨hlookup, ?_⟩
  intro h
  have hvalue := h.2 (text "LoginDatabaseInfo")
  rw [hlookup, if_pos rfl] at hvalue
  exact absurd (Option.some.inj hvalue) (by decide)

end Mpool.ConfigMgr
