import Mpool.Lib.Bytes

/-! `Tokenize.cpp`. -/

namespace Mpool

/-- `str.find(sep, start)`; `none` is `npos`. -/
def findFrom (str : Bytes) (sep : UInt8) (start : Nat) : Option Nat :=
  ((str.drop start).findIdx? (· = sep)).map (start + ·)

/-- `str.substr(start, count)`. -/
def substr (str : Bytes) (start count : Nat) : Bytes := (str.drop start).take count

/-- The loop and the token behind it; every round moves `start` on. -/
def tokenizeLoop (str : Bytes) (sep : UInt8) (keepEmpty : Bool) : Nat → Nat → List Bytes
  | 0, _ => []
  | fuel + 1, start =>
    match findFrom str sep start with
    | some stop =>
      let tokens := tokenizeLoop str sep keepEmpty fuel (stop + 1)
      if keepEmpty || start < stop then substr str start (stop - start) :: tokens else tokens
    | none => if keepEmpty || start < str.length then [str.drop start] else []

def tokenize (str : Bytes) (sep : UInt8) (keepEmpty : Bool) : List Bytes :=
  tokenizeLoop str sep keepEmpty (str.length + 1) 0

/-- The same loop, where it shows when `fuel` rounds are not enough. -/
def tokenizeWithin (str : Bytes) (sep : UInt8) (keepEmpty : Bool) :
    Nat → Nat → Option (List Bytes)
  | 0, _ => none
  | fuel + 1, start =>
    match findFrom str sep start with
    | some stop =>
      (tokenizeWithin str sep keepEmpty fuel (stop + 1)).map fun tokens =>
        if keepEmpty || start < stop then substr str start (stop - start) :: tokens else tokens
    | none => some (if keepEmpty || start < str.length then [str.drop start] else [])

theorem findFrom_eq_none {s : Bytes} {c : UInt8} (h : c ∉ s) : findFrom s c 0 = none := by
  rw [findFrom, List.drop_zero, List.findIdx?_eq_none_iff.mpr]
  · rfl
  · intro x hx
    exact decide_eq_false (fun heq => h (heq ▸ hx))

theorem findFrom_append {s rest : Bytes} {c : UInt8} (h : c ∉ s) :
    findFrom (s ++ c :: rest) c 0 = some s.length := by
  have hnone : s.findIdx? (fun x => decide (x = c)) = none := by
    apply List.findIdx?_eq_none_iff.mpr
    intro x hx
    exact decide_eq_false (fun heq => h (heq ▸ hx))
  have hhead : (c :: rest).findIdx? (fun x => decide (x = c)) = some 0 := by
    rw [List.findIdx?_cons, if_pos (decide_eq_true rfl)]
  rw [findFrom, List.drop_zero, List.findIdx?_append, hnone, hhead]
  simp

/-- A string that has `c`, cut at the first one. -/
theorem exists_first {s : Bytes} {c : UInt8} (h : c ∈ s) :
    ∃ front rest, s = front ++ c :: rest ∧ c ∉ front := by
  obtain ⟨front, rest, hs, hfront⟩ := List.eq_append_cons_of_mem h
  exact ⟨front, rest, hs, hfront⟩

/-! ## The tokens, when the empty ones are kept -/

/-- The loop from `start` on is the loop over the rest of the string. -/
theorem tokenizeLoop_drop (str : Bytes) (sep : UInt8) (fuel start : Nat) :
    tokenizeLoop str sep true fuel start = tokenizeLoop (str.drop start) sep true fuel 0 := by
  induction fuel generalizing str start with
  | zero => rfl
  | succ fuel ih =>
    simp only [tokenizeLoop, findFrom, List.drop_zero, Bool.true_or, if_true]
    cases hfind : (str.drop start).findIdx? (fun x => decide (x = sep)) with
    | none => simp
    | some count =>
      have hnext : start + (0 + count + 1) = start + count + 1 := by omega
      have hcount : start + count - start = 0 + count - 0 := by omega
      simp only [Option.map_some, substr, List.drop_zero]
      rw [ih str (start + count + 1), ih (str.drop start) (0 + count + 1), List.drop_drop, hnext,
        hcount]

/-- A round for each byte is enough to split a string at all of its separators. -/
theorem tokenizeLoop_eq_splitOn (sep : UInt8) (fuel : Nat) {str : Bytes}
    (hfuel : str.length < fuel) : tokenizeLoop str sep true fuel 0 = str.splitOn sep := by
  induction fuel generalizing str with
  | zero => omega
  | succ fuel ih =>
    by_cases hsep : sep ∈ str
    · obtain ⟨front, rest, rfl, hfront⟩ := exists_first hsep
      have hrest : rest.length < fuel := by
        simp only [List.length_append, List.length_cons] at hfuel
        omega
      have hdrop : (front ++ sep :: rest).drop (front.length + 1) = rest := by simp
      rw [tokenizeLoop, findFrom_append hfront, List.splitOn_append_cons_self_of_not_mem hfront,
        ← ih hrest]
      simp only [Bool.true_or, if_true, substr]
      rw [tokenizeLoop_drop, hdrop]
      simp
    · rw [tokenizeLoop, findFrom_eq_none hsep, List.splitOn_eq_singleton hsep]
      simp

theorem tokenize_eq_splitOn (str : Bytes) (sep : UInt8) :
    tokenize str sep true = str.splitOn sep :=
  tokenizeLoop_eq_splitOn sep _ (Nat.lt_succ_self _)

/-- No token has the separator. -/
theorem not_mem_of_mem_splitOn {sep : UInt8} {str token : Bytes}
    (h : token ∈ str.splitOn sep) : sep ∉ token := by
  induction hn : str.length using Nat.strong_induction_on generalizing str with
  | _ n ih =>
    by_cases hsep : sep ∈ str
    · obtain ⟨front, rest, rfl, hfront⟩ := exists_first hsep
      rw [List.splitOn_append_cons_self_of_not_mem hfront] at h
      rcases List.mem_cons.mp h with rfl | h
      · exact hfront
      · exact ih rest.length (by simp at hn; omega) h rfl
    · rw [List.splitOn_eq_singleton hsep, List.mem_singleton] at h
      exact h ▸ hsep

/-! ## The loop and the other mode -/

/-- A round finds a separator that is in the string, at `start` or behind. -/
theorem findFrom_bounds {str : Bytes} {sep : UInt8} {start stop : Nat}
    (h : findFrom str sep start = some stop) : start ≤ stop ∧ stop < str.length := by
  obtain ⟨count, hcount, rfl⟩ := Option.map_eq_some_iff.mp h
  have hlt := (List.findIdx?_eq_some_iff_findIdx_eq.mp hcount).1
  rw [List.length_drop] at hlt
  omega

/-- Every round moves `start` on, so that there are no more rounds than bytes. -/
theorem tokenizeWithin_eq (str : Bytes) (sep : UInt8) (keepEmpty : Bool) (fuel start : Nat)
    (hfuel : str.length < fuel + start) (hstart : start ≤ str.length) :
    tokenizeWithin str sep keepEmpty fuel start =
      some (tokenizeLoop str sep keepEmpty fuel start) := by
  induction fuel generalizing start with
  | zero => omega
  | succ fuel ih =>
    rw [tokenizeWithin, tokenizeLoop]
    cases hfind : findFrom str sep start with
    | none => rfl
    | some stop =>
      obtain ⟨hle, hlt⟩ := findFrom_bounds hfind
      simp only [ih (stop + 1) (by omega) (by omega), Option.map_some]

/-- The other mode leaves out the empty tokens and nothing else. -/
theorem tokenizeLoop_false (str : Bytes) (sep : UInt8) (fuel start : Nat) :
    tokenizeLoop str sep false fuel start =
      (tokenizeLoop str sep true fuel start).filter fun token => token ≠ [] := by
  induction fuel generalizing start with
  | zero => rfl
  | succ fuel ih =>
    rw [tokenizeLoop, tokenizeLoop]
    cases hfind : findFrom str sep start with
    | none =>
      have hempty : str.drop start = [] ↔ ¬ start < str.length := by
        rw [List.drop_eq_nil_iff, Nat.not_lt]
      by_cases hlt : start < str.length
      · simp [hlt, hempty]
      · simp [hlt, hempty.mpr hlt]
    | some stop =>
      obtain ⟨-, hstop⟩ := findFrom_bounds hfind
      have hempty : substr str start (stop - start) = [] ↔ ¬ start < stop := by
        rw [← List.length_eq_zero_iff, substr, List.length_take, List.length_drop]
        omega
      by_cases hlt : start < stop
      · simp [hlt, hempty, ih]
      · simp [hlt, hempty.mpr hlt, ih]

theorem length_splitOn (str : Bytes) (sep : UInt8) :
    (str.splitOn sep).length = str.count sep + 1 := by
  induction hn : str.length using Nat.strong_induction_on generalizing str with
  | _ n ih =>
    by_cases hsep : sep ∈ str
    · obtain ⟨front, rest, rfl, hfront⟩ := exists_first hsep
      have hrest := ih rest.length (by simp at hn; omega) rest rfl
      rw [List.splitOn_append_cons_self_of_not_mem hfront, List.length_cons, hrest,
        List.count_append, List.count_eq_zero_of_not_mem hfront, List.count_cons_self]
      omega
    · rw [List.splitOn_eq_singleton hsep, List.count_eq_zero_of_not_mem hsep,
        List.length_singleton]

/-- Tokens and their join are inverse to each other, one token more than there are
separators; the mode without empty tokens gives the others; and the loop ends. -/
theorem tokenize_join (str : Bytes) (sep : UInt8) :
    [sep].intercalate (tokenize str sep true) = str ∧
      (∀ token ∈ tokenize str sep true, sep ∉ token) ∧
      (tokenize str sep true).length = str.count sep + 1 ∧
      (∀ tokens : List Bytes, tokens ≠ [] → (∀ token ∈ tokens, sep ∉ token) →
        tokenize ([sep].intercalate tokens) sep true = tokens) ∧
      tokenize str sep false = (tokenize str sep true).filter (fun token => token ≠ []) ∧
      ∀ keepEmpty, tokenizeWithin str sep keepEmpty (str.length + 1) 0 =
        some (tokenize str sep keepEmpty) := by
  refine ⟨?_, ?_, ?_, ?_, tokenizeLoop_false _ _ _ _, ?_⟩
  · rw [tokenize_eq_splitOn, List.intercalate_splitOn]
  · rw [tokenize_eq_splitOn]
    exact fun token => not_mem_of_mem_splitOn
  · rw [tokenize_eq_splitOn, length_splitOn]
  · intro tokens hne hapart
    rw [tokenize_eq_splitOn, List.splitOn_intercalate sep hapart hne]
  · exact fun keepEmpty => tokenizeWithin_eq str sep keepEmpty _ 0 (by omega) (Nat.zero_le _)

/-- Empty tokens at both ends and in between. -/
theorem tokenize_join_empty : tokenize ([59].intercalate [[], [97], [], []]) 59 true =
    [[], [97], [], []] :=
  (tokenize_join [] 59).2.2.2.1 [[], [97], [], []] (by decide) (by decide)

end Mpool
