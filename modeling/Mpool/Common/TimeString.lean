import Mathlib.Tactic.FinCases
import Mpool.Common.DecimalText
import Mpool.Common.StringFormat
import Mpool.Lib.MixedRadix

/-! `ToTimeString` of `Timer.cpp`: durations as text, by their components from days down to
microseconds. -/

namespace Mpool

open Util (text isSpace)

inductive TimeFormat where
  | fullText
  | shortText
  | numeric
  deriving DecidableEq

inductive TimeOutput where
  | days
  | hours
  | minutes
  | seconds
  | milliseconds
  | microseconds
  deriving DecidableEq

namespace TimeDiff

def MILLISECONDS : Nat := 1000
def SECONDS : Nat := 1000 * MILLISECONDS
def MINUTES : Nat := 60 * SECONDS
def HOURS : Nat := 60 * MINUTES
def DAYS : Nat := 24 * HOURS

end TimeDiff

namespace Time

open TimeDiff

/-! ## `ToTimeString` -/

section Components

variable (durationTime : Nat)

def microsecs : Nat := durationTime % 1000
def millisecs : Nat := durationTime / MILLISECONDS % 1000
def secs : Nat := durationTime / SECONDS % 60
def minutes : Nat := durationTime / MINUTES % 60
def hours : Nat := durationTime / HOURS % 24
def days : Nat := durationTime / DAYS

def components : List Nat :=
  [days durationTime, hours durationTime, minutes durationTime, secs durationTime,
    millisecs durationTime, microsecs durationTime]

end Components

/-- The format with one field and `n` more, each behind a colon and of width two. -/
def colonFormat (n : Nat) : List FormatPiece :=
  .field :: (List.replicate n [.char 58, .padded 2]).flatten

/-- The `Numeric` branch. All formats but the last have a field more than there are
arguments. -/
def numericTimeString (d : Nat) : Bytes :=
  if days d ≠ 0 then
    stringFormatFmt (colonFormat 5) [days d, hours d, minutes d, secs d, millisecs d]
  else if hours d ≠ 0 then
    stringFormatFmt (colonFormat 4) [hours d, minutes d, secs d, millisecs d]
  else if minutes d ≠ 0 then
    stringFormatFmt (colonFormat 3) [minutes d, secs d, millisecs d]
  else if secs d ≠ 0 then
    stringFormatFmt (colonFormat 2) [secs d, millisecs d]
  else if millisecs d ≠ 0 then
    stringFormatFmt (colonFormat 1) [millisecs d]
  else
    stringFormatFmt (colonFormat 0) [microsecs d]

/-- The texts of a component, and the output that ends with it. -/
structure TimeUnit where
  output : TimeOutput
  shortText : Bytes
  fullText1 : Bytes
  fullText : Bytes

def timeUnits : List TimeUnit :=
  [⟨.days, text "d ", text " Day ", text " Days "⟩,
    ⟨.hours, text "h ", text " Hour ", text " Hours "⟩,
    ⟨.minutes, text "m ", text " Minute ", text " Minutes "⟩,
    ⟨.seconds, text "s ", text " Second ", text " Seconds "⟩,
    ⟨.milliseconds, text "ms ", text " Millisecond ", text " Milliseconds "⟩,
    ⟨.microseconds, text "us ", text " MicroSecond ", text " MicroSeconds "⟩]

/-- `GetStringFormat`, whose parameter is a `uint32`. -/
def getStringFormat (timeFormat : TimeFormat) (timeType : Nat) (unit : TimeUnit) : Bytes :=
  let timeType := timeType % 2 ^ 32
  Decimal.numeral timeType ++
    match timeFormat with
    | .shortText => unit.shortText
    | .fullText => if timeType = 1 then unit.fullText1 else unit.fullText
    | .numeric => text "<Unknown time format>"

structure TimeStream where
  ss : Bytes
  stringTime : Bytes

/-- One component: printed unless it is zero, and the stream copied at the chosen output. -/
def TimeStream.component (timeFormat : TimeFormat) (timeOutput : TimeOutput) (s : TimeStream)
    (c : Nat × TimeUnit) : TimeStream :=
  let ss := if c.1 ≠ 0 then s.ss ++ getStringFormat timeFormat c.1 c.2 else s.ss
  ⟨ss, if timeOutput = c.2.output then ss else s.stringTime⟩

/-- `ToTimeString<Microseconds>`. -/
def toTimeString (durationTime : Nat) (timeOutput : TimeOutput) (timeFormat : TimeFormat) :
    Bytes :=
  if timeFormat = .numeric then numericTimeString durationTime
  else
    trimRightInPlace (((components durationTime).zip timeUnits).foldl
      (TimeStream.component timeFormat timeOutput) ⟨[], []⟩).stringTime

/-- `ToTimeString<Seconds>`. -/
def toTimeStringSeconds (durationTime : Nat) (timeOutput : TimeOutput)
    (timeFormat : TimeFormat) : Bytes :=
  toTimeString (durationTime * SECONDS % 2 ^ 64) timeOutput timeFormat

/-! ## What a duration is -/

/-- Its digits, from days down to microseconds. -/
def durationDigits (d : Nat) : List Nat :=
  (MixedRadix.digits [1000, 1000, 60, 60, 24] d).reverse

end Time

namespace TimeOutput

def all : List TimeOutput := [.days, .hours, .minutes, .seconds, .milliseconds, .microseconds]

/-- Its place in `all`. -/
def index : TimeOutput → Nat
  | .days => 0
  | .hours => 1
  | .minutes => 2
  | .seconds => 3
  | .milliseconds => 4
  | .microseconds => 5

/-- The unit, in microseconds. -/
def weight : TimeOutput → Nat
  | .days => 86400000000
  | .hours => 3600000000
  | .minutes => 60000000
  | .seconds => 1000000
  | .milliseconds => 1000
  | .microseconds => 1

def shortName : TimeOutput → Bytes
  | .days => text "d"
  | .hours => text "h"
  | .minutes => text "m"
  | .seconds => text "s"
  | .milliseconds => text "ms"
  | .microseconds => text "us"

def fullName : TimeOutput → Bytes
  | .days => text "Day"
  | .hours => text "Hour"
  | .minutes => text "Minute"
  | .seconds => text "Second"
  | .milliseconds => text "Millisecond"
  | .microseconds => text "MicroSecond"

end TimeOutput

namespace Time

/-- The components that are not zero, down to a unit. -/
def printedComponents (timeOutput : TimeOutput) (d : Nat) : List (Nat × TimeOutput) :=
  (((durationDigits d).zip TimeOutput.all).take (timeOutput.index + 1)).filter
    fun c => c.1 ≠ 0

/-- A component with its unit, in the plural unless it is one. -/
def componentText (timeFormat : TimeFormat) (c : Nat × TimeOutput) : Bytes :=
  Decimal.numeral c.1 ++
    match timeFormat with
    | .fullText => text " " ++ c.2.fullName ++ if c.1 = 1 then [] else text "s"
    | _ => c.2.shortName

/-- The digits from the first one on that is not zero. -/
def numericDigits (d : Nat) : List Nat :=
  let digits := (durationDigits d).dropWhile fun v => v = 0
  if digits = [] then [0] else digits

/-- Decimal texts of the digits, with colons in between. -/
def DenotesNumeric (d : Nat) (s : Bytes) : Prop :=
  ∃ tokens, s = [58].intercalate tokens ∧
    List.Forall₂ (fun (v : Nat) token => IsDecimalText v token) (numericDigits d) tokens

/-- The text says the duration; in `Numeric` no other duration has the same text. -/
def Denotes (d : Nat) (timeOutput : TimeOutput) (timeFormat : TimeFormat) (s : Bytes) : Prop :=
  match timeFormat with
  | .numeric =>
    DenotesNumeric d s ∧ ∀ d' < 2 ^ 64, toTimeString d' timeOutput .numeric = s → d' = d
  | timeFormat =>
    s = [32].intercalate ((printedComponents timeOutput d).map (componentText timeFormat))

open TimeDiff

/-! ## The components -/

theorem components_eq (d : Nat) : components d = durationDigits d := by
  simp only [components, durationDigits, MixedRadix.digits, days, hours, minutes, secs, millisecs,
    microsecs, DAYS, HOURS, MINUTES, SECONDS, MILLISECONDS, Nat.div_div_eq_div_mul,
    List.reverse_cons, List.reverse_nil, List.nil_append, List.cons_append]

theorem durationDigits_lt (d : Nat) :
    List.Forall₂ (· < ·) (durationDigits d).tail [24, 60, 60, 1000, 1000] := by
  have hpos : ∀ r ∈ [1000, 1000, 60, 60, 24], 0 < r := by decide
  exact List.forall₂_reverse_iff.mpr (MixedRadix.digits_lt hpos d)

/-- What is zero adds nothing. -/
theorem sum_filter_ne_zero (l : List (Nat × TimeOutput)) :
    ((l.filter fun c => c.1 ≠ 0).map fun c => c.1 * c.2.weight).sum =
      (l.map fun c => c.1 * c.2.weight).sum := by
  induction l with
  | nil => rfl
  | cons c l ih =>
    by_cases hc : c.1 = 0
    · rw [List.filter_cons_of_neg (by simp [hc]), ih, List.map_cons, List.sum_cons, hc,
        Nat.zero_mul, Nat.zero_add]
    · rw [List.filter_cons_of_pos (by simp [hc]), List.map_cons, List.map_cons, List.sum_cons,
        List.sum_cons, ih]

/-- What is printed adds up to the duration without its rest. -/
theorem sum_printedComponents (timeOutput : TimeOutput) (d : Nat) :
    ((printedComponents timeOutput d).map fun c => c.1 * c.2.weight).sum =
      d - d % timeOutput.weight := by
  have hsum := MixedRadix.sum_take_reverse [1000, 1000, 60, 60, 24] d timeOutput.index
    (by cases timeOutput <;> decide)
  have hterms : (((durationDigits d).zip TimeOutput.all).take (timeOutput.index + 1)).map
      (fun c => c.1 * c.2.weight) = (List.zipWith (· * ·) (MixedRadix.digits [1000, 1000, 60, 60,
        24] d) (MixedRadix.weights 1 [1000, 1000, 60, 60, 24])).reverse.take
          (timeOutput.index + 1) := by
    cases timeOutput <;> rfl
  have hweight : (([1000, 1000, 60, 60, 24] : List Nat).take (5 - timeOutput.index)).prod =
      timeOutput.weight := by
    cases timeOutput <;> rfl
  rw [printedComponents, sum_filter_ne_zero, hterms, hsum]
  exact congrArg (d - d % ·) hweight

/-! ## What is printed -/

/-- The non-zero components of a list, printed one behind the other. -/
def printed (timeFormat : TimeFormat) (l : List (Nat × TimeUnit)) : Bytes :=
  (l.filter fun c => c.1 ≠ 0).flatMap fun c => getStringFormat timeFormat c.1 c.2

variable {timeFormat : TimeFormat} {timeOutput : TimeOutput}

theorem printed_append (l l' : List (Nat × TimeUnit)) :
    printed timeFormat (l ++ l') = printed timeFormat l ++ printed timeFormat l' := by
  rw [printed, List.filter_append, List.flatMap_append]
  rfl

theorem component_ss (s : TimeStream) (c : Nat × TimeUnit) :
    (s.component timeFormat timeOutput c).ss = s.ss ++ printed timeFormat [c] := by
  by_cases hc : c.1 = 0 <;> simp [TimeStream.component, printed, hc]

theorem foldl_component_ss (s : TimeStream) (l : List (Nat × TimeUnit)) :
    (l.foldl (TimeStream.component timeFormat timeOutput) s).ss =
      s.ss ++ printed timeFormat l := by
  induction l generalizing s with
  | nil => exact (List.append_nil _).symm
  | cons c l ih =>
    rw [List.foldl_cons, ih, component_ss, List.append_assoc, ← printed_append]
    rfl

/-- The copy is made at the chosen output. -/
theorem foldl_component_stringTime (timeFormat : TimeFormat) (s : TimeStream)
    (front : List (Nat × TimeUnit)) {back : List (Nat × TimeUnit)} {c : Nat × TimeUnit}
    (hc : timeOutput = c.2.output)
    (hback : ∀ c' ∈ back, timeOutput ≠ c'.2.output) :
    ((front ++ c :: back).foldl (TimeStream.component timeFormat timeOutput) s).stringTime =
      s.ss ++ printed timeFormat (front ++ [c]) := by
  have hrest : ∀ s' : TimeStream, (back.foldl (TimeStream.component timeFormat timeOutput)
      s').stringTime = s'.stringTime := by
    intro s'
    induction back generalizing s' with
    | nil => rfl
    | cons c' back ih =>
      rw [List.foldl_cons, ih fun x hx => hback x (List.mem_cons_of_mem c' hx)]
      exact if_neg (hback c' List.mem_cons_self)
  have hcopy : ∀ s' : TimeStream, (s'.component timeFormat timeOutput c).stringTime =
      (s'.component timeFormat timeOutput c).ss := fun s' => if_pos hc
  rw [List.append_cons, List.foldl_append, hrest, List.foldl_append, List.foldl_cons,
    List.foldl_nil, hcopy, ← foldl_component_ss, List.foldl_append]
  rfl

/-- What is printed of a duration: its components down to the output. -/
theorem stringTime_eq (d : Nat) :
    (((components d).zip timeUnits).foldl (TimeStream.component timeFormat timeOutput)
        ⟨[], []⟩).stringTime =
      printed timeFormat (((components d).zip timeUnits).take (timeOutput.index + 1)) := by
  have hindex : timeOutput.index < ((components d).zip timeUnits).length := by
    change timeOutput.index < 6
    cases timeOutput <;> decide
  have hchosen : timeOutput = ((components d).zip timeUnits)[timeOutput.index].2.output := by
    cases timeOutput <;> rfl
  have hback : ∀ c' ∈ ((components d).zip timeUnits).drop (timeOutput.index + 1),
      timeOutput ≠ c'.2.output := by
    have hunits : ∀ u ∈ timeUnits.drop (timeOutput.index + 1), timeOutput ≠ u.output := by
      cases timeOutput <;> decide
    rintro ⟨value, u⟩ hc'
    rw [List.zip, List.drop_zipWith] at hc'
    exact hunits u (List.of_mem_zip hc').2
  have hcopy := foldl_component_stringTime timeFormat ⟨[], []⟩
    (((components d).zip timeUnits).take timeOutput.index) hchosen hback
  rwa [List.getElem_cons_drop, List.take_append_drop, ← List.take_succ_eq_append_getElem hindex]
    at hcopy

/-! ## The words -/

/-- `GetStringFormat` prints the text of the component and a blank. -/
theorem getStringFormat_eq (hformat : timeFormat ≠ .numeric) {value : Nat}
    (hvalue : value < 2 ^ 32) {unit : TimeUnit} (hunit : unit ∈ timeUnits) :
    getStringFormat timeFormat value unit =
      componentText timeFormat (value, unit.output) ++ [32] := by
  unfold getStringFormat componentText
  rw [Nat.mod_eq_of_lt hvalue, List.append_assoc]
  apply congrArg (Decimal.numeral value ++ ·)
  cases timeFormat with
  | numeric => exact absurd rfl hformat
  | shortText =>
    fin_cases hunit <;> rfl
  | fullText =>
    by_cases hone : value = 1
    · simp only [hone, if_true]
      fin_cases hunit <;> rfl
    · simp only [hone, if_false]
      fin_cases hunit <;> rfl

theorem isWord_componentText (c : Nat × TimeOutput) : IsWord (componentText timeFormat c) := by
  have hshort : IsWord c.2.shortName := by
    cases c.2 <;> exact isWord_of_getLast? rfl (by decide)
  have hfull : IsWord c.2.fullName := by
    cases c.2 <;> exact isWord_of_getLast? rfl (by decide)
  apply IsWord.append
  cases timeFormat with
  | shortText => exact hshort
  | numeric => exact hshort
  | fullText =>
    by_cases hone : c.1 = 1
    · simp only [hone, if_true, List.append_nil]
      exact hfull.append _
    · simp only [hone, if_false]
      exact IsWord.append (isWord_of_getLast? rfl (by decide)) _

/-- The components fit the parameter of `GetStringFormat`. -/
theorem components_lt {d : Nat} (hd : d < 2 ^ 64) : ∀ v ∈ components d, v < 2 ^ 32 := by
  have hdays : days d < 2 ^ 32 := by
    unfold days DAYS HOURS MINUTES SECONDS MILLISECONDS
    omega
  have hbelow : ∀ r, 0 < r → r ≤ 1000 → ∀ n, n % r < 2 ^ 32 := by
    intro r hr hle n
    have hlt := Nat.mod_lt n hr
    omega
  simp only [components, List.mem_cons, List.not_mem_nil, or_false, forall_eq_or_imp, forall_eq]
  refine ⟨hdays, ?_, ?_, ?_, ?_, ?_⟩ <;> exact hbelow _ (by decide) (by decide) _

theorem printedComponents_eq (timeOutput : TimeOutput) (d : Nat) :
    printedComponents timeOutput d =
      ((((components d).zip timeUnits).take (timeOutput.index + 1)).filter fun c => c.1 ≠ 0).map
        fun c => (c.1, c.2.output) := by
  have hall : TimeOutput.all = timeUnits.map TimeUnit.output := rfl
  rw [printedComponents, ← components_eq, hall, List.zip_map_right, ← List.map_take,
    List.filter_map]
  rfl

theorem toTimeString_words (hformat : timeFormat ≠ .numeric) {d : Nat} (hd : d < 2 ^ 64) :
    toTimeString d timeOutput timeFormat =
      [32].intercalate ((printedComponents timeOutput d).map (componentText timeFormat)) := by
  have hwords : ∀ l : List (Nat × TimeUnit), (∀ c ∈ l, c.1 < 2 ^ 32 ∧ c.2 ∈ timeUnits) →
      printed timeFormat l = (((l.filter fun c => c.1 ≠ 0).map fun c => (c.1, c.2.output)).map
        (componentText timeFormat)).flatMap (· ++ [32]) := by
    intro l hl
    rw [List.map_map, List.flatMap_map, printed]
    apply List.flatMap_congr
    intro c hc
    obtain ⟨hlt, hunit⟩ := hl c (List.mem_of_mem_filter hc)
    exact getStringFormat_eq hformat hlt hunit
  rw [toTimeString, if_neg hformat, stringTime_eq, hwords, ← printedComponents_eq,
    trimRight_words]
  · intro w hw
    obtain ⟨c, -, rfl⟩ := List.mem_map.mp hw
    exact isWord_componentText c
  · rintro ⟨value, unit⟩ hc
    have hmem := List.of_mem_zip (List.mem_of_mem_take hc)
    exact ⟨components_lt hd value hmem.1, hmem.2⟩

/-! ## The numeric format -/

theorem numericTimeString_of_lt {d : Nat} (h : d < 1000) :
    numericTimeString d = Decimal.numeral d := by
  have hdays : days d = 0 := Nat.div_eq_of_lt (lt_trans h (by decide))
  have hhours : hours d = 0 := by
    rw [hours, Nat.div_eq_of_lt (lt_trans h (by decide))]
  have hminutes : minutes d = 0 := by
    rw [minutes, Nat.div_eq_of_lt (lt_trans h (by decide))]
  have hsecs : secs d = 0 := by
    rw [secs, Nat.div_eq_of_lt (lt_trans h (by decide))]
  have hmillisecs : millisecs d = 0 := by
    rw [millisecs, Nat.div_eq_of_lt (show d < MILLISECONDS from h)]
  have hmicrosecs : microsecs d = d := Nat.mod_eq_of_lt h
  simp only [numericTimeString, hdays, hhours, hminutes, hsecs, hmillisecs, hmicrosecs, ne_eq,
    not_true_eq_false, if_false]
  exact stringFormatFmt_field d

theorem fieldCount_colonFormat (n : Nat) : fieldCount (colonFormat n) = n + 1 := by
  have hfields : ∀ k,
      fieldCount (List.replicate k [FormatPiece.char 58, .padded 2]).flatten = k := by
    intro k
    induction k with
    | zero => rfl
    | succ k ih =>
      rw [List.replicate_succ, List.flatten_cons, fieldCount_append, ih]
      exact Nat.add_comm 1 k
  rw [colonFormat, ← List.singleton_append, fieldCount_append, hfields]
  exact Nat.add_comm 1 n

/-- A colon for each argument is a field too much. -/
theorem exists_colonFormat_error (args : List Nat) :
    ∃ rest, stringFormatFmt (colonFormat args.length) args = 65 :: rest :=
  exists_stringFormatFmt_error (by rw [fieldCount_colonFormat]; exact Nat.lt_succ_self _)

/-- From a millisecond on there is an argument too few. -/
theorem numericTimeString_of_ge {d : Nat} (h : 1000 ≤ d) :
    ∃ rest, numericTimeString d = 65 :: rest := by
  unfold numericTimeString
  split
  · exact exists_colonFormat_error [days d, hours d, minutes d, secs d, millisecs d]
  split
  · exact exists_colonFormat_error [hours d, minutes d, secs d, millisecs d]
  split
  · exact exists_colonFormat_error [minutes d, secs d, millisecs d]
  split
  · exact exists_colonFormat_error [secs d, millisecs d]
  split
  · exact exists_colonFormat_error [millisecs d]
  · unfold days hours minutes secs millisecs DAYS HOURS MINUTES SECONDS MILLISECONDS at *
    omega

theorem numericDigits_of_lt {d : Nat} (h : d < 1000) : numericDigits d = [d] := by
  have hdigits : durationDigits d = [0, 0, 0, 0, 0, d] := by
    simp [durationDigits, MixedRadix.digits, Nat.div_eq_of_lt h, Nat.mod_eq_of_lt h]
  rw [numericDigits, hdigits]
  by_cases hd : d = 0 <;> simp [hd]

theorem numericDigits_ne_nil (d : Nat) : numericDigits d ≠ [] := by
  unfold numericDigits
  simp only
  split
  · exact nofun
  · assumption

/-- A numeric text begins with a digit. -/
theorem DenotesNumeric.head_le {d : Nat} {c : UInt8} {rest : Bytes}
    (h : DenotesNumeric d (c :: rest)) : c.toNat ≤ 57 := by
  obtain ⟨tokens, hs, hall⟩ := h
  match hdigits : numericDigits d, tokens, hall with
  | [], _, _ => exact absurd hdigits (numericDigits_ne_nil d)
  | v :: digits, token :: tokens, .cons htoken _ =>
    obtain ⟨c', rest', rfl, hc'⟩ := htoken.exists_cons
    rw [List.intercalate_cons_cons_left] at hs
    rw [(List.cons.inj hs).1]
    exact hc'

theorem denotesNumeric_iff (d : Nat) : DenotesNumeric d (numericTimeString d) ↔ d < 1000 := by
  constructor
  · intro h
    by_contra hge
    obtain ⟨rest, hrest⟩ := numericTimeString_of_ge (Nat.le_of_not_lt hge)
    rw [hrest] at h
    exact absurd h.head_le (by decide)
  · intro h
    refine ⟨[Decimal.numeral d], ?_, ?_⟩
    · rw [List.intercalate_singleton, numericTimeString_of_lt h]
    · rw [numericDigits_of_lt h]
      refine .cons ?_ .nil
      have htext := isDecimalText_integer d
      rwa [Decimal.integer, if_neg (by omega), Int.natAbs_natCast] at htext

/-- Below a millisecond no other duration has the same text. -/
theorem numericTimeString_injective {d d' : Nat} (h : d < 1000)
    (heq : numericTimeString d' = numericTimeString d) : d' = d := by
  rw [numericTimeString_of_lt h] at heq
  by_cases hd' : d' < 1000
  · rw [numericTimeString_of_lt hd'] at heq
    rw [← decimal_numeral d', heq, decimal_numeral]
  · obtain ⟨rest, hrest⟩ := numericTimeString_of_ge (Nat.le_of_not_lt hd')
    have hdigit : 65 ∈ Decimal.numeral d := by
      rw [← heq, hrest]
      exact List.mem_cons_self
    exact absurd (Decimal.numeral_digits 65 hdigit).2 (by decide)

/-- The text says the duration unless it is numeric and there is a millisecond or more. The
components are below their bounds, and those printed add up to the duration without its rest
at the output. -/
theorem toTimeString_denotes_iff {d : Nat} (hd : d < 2 ^ 64) (timeOutput : TimeOutput)
    (timeFormat : TimeFormat) :
    (Denotes d timeOutput timeFormat (toTimeString d timeOutput timeFormat) ↔
        timeFormat ≠ .numeric ∨ d < 1000) ∧
      List.Forall₂ (· < ·) (durationDigits d).tail [24, 60, 60, 1000, 1000] ∧
      ((printedComponents timeOutput d).map fun c => c.1 * c.2.weight).sum =
        d - d % timeOutput.weight := by
  refine ⟨?_, durationDigits_lt d, sum_printedComponents timeOutput d⟩
  by_cases hformat : timeFormat = .numeric
  · subst hformat
    have hnumeric : ∀ d, toTimeString d timeOutput .numeric = numericTimeString d :=
      fun d => if_pos rfl
    simp only [Denotes, hnumeric, denotesNumeric_iff, ne_eq, not_true_eq_false, false_or]
    exact and_iff_left_of_imp fun h d' _ => numericTimeString_injective h
  · have hwords : toTimeString d timeOutput timeFormat = [32].intercalate
        ((printedComponents timeOutput d).map (componentText timeFormat)) :=
      toTimeString_words hformat hd
    have hdenotes : Denotes d timeOutput timeFormat (toTimeString d timeOutput timeFormat) := by
      cases timeFormat with
      | numeric => exact absurd rfl hformat
      | fullText => exact hwords
      | shortText => exact hwords
    exact iff_of_true hdenotes (Or.inl hformat)

/-- An hour and a second, down to minutes. -/
theorem toTimeString_denotes_iff_hour :
    (Denotes 3601000000 .minutes .fullText (toTimeString 3601000000 .minutes .fullText) ↔
        TimeFormat.fullText ≠ .numeric ∨ 3601000000 < 1000) ∧
      List.Forall₂ (· < ·) (durationDigits 3601000000).tail [24, 60, 60, 1000, 1000] ∧
      ((printedComponents .minutes 3601000000).map fun c => c.1 * c.2.weight).sum =
        3601000000 - 3601000000 % TimeOutput.minutes.weight :=
  toTimeString_denotes_iff (by decide) .minutes .fullText

/-- One millisecond and two have the same numeric text, which is an error. -/
theorem milliseconds_numeric_error :
    toTimeString 1000 .microseconds .numeric =
        text "An error occurred formatting string \"\x7b\x7d:\x7b:02\x7d\" : argument not found" ∧
      toTimeString 2000 .microseconds .numeric = toTimeString 1000 .microseconds .numeric ∧
      ¬ Denotes 1000 .microseconds .numeric (toTimeString 1000 .microseconds .numeric) := by
  refine ⟨by decide +kernel, by decide +kernel, fun h => ?_⟩
  exact absurd ((denotesNumeric_iff 1000).mp h.1) (by decide)

end Time

end Mpool
