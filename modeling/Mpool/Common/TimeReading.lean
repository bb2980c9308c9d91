import Mpool.Common.TimeString

/-! `TimeStringTo<Seconds>`, and what it makes of the texts `ToTimeString` prints. -/

namespace Mpool.Time

open Util (text)

def MINUTE : Nat := 60
def HOUR : Nat := MINUTE * 60
def DAY : Nat := HOUR * 24

/-- The `switch`; `none` is the default. -/
def timeMultiplier (c : UInt8) : Option Nat :=
  if c = 100 then some DAY
  else if c = 104 then some HOUR
  else if c = 109 then some MINUTE
  else if c = 115 then some 1
  else none

/-- The loop of `TimeStringTo<Seconds>`, over what `uint32` makes of a result. -/
def timeStringLoop {m : Type → Type} [Monad m] (uint32 : Nat → m Nat) (secs buffer : Nat) :
    Bytes → m Nat
  | [] => pure secs
  | itr :: timeString =>
    if isDigit itr then do
      let buffer ← uint32 (buffer * 10)
      let buffer ← uint32 (buffer + (itr.toNat - 48))
      timeStringLoop uint32 secs buffer timeString
    else
      match timeMultiplier itr with
      | none => pure 0
      | some multiplier => do
        let buffer ← uint32 (buffer * multiplier)
        let secs ← uint32 (secs + buffer)
        timeStringLoop uint32 secs 0 timeString

/-- `TimeStringTo<Seconds>`. -/
def timeStringTo (timeString : Bytes) : Nat :=
  Id.run (timeStringLoop (fun n => pure (n % 2 ^ 32)) 0 0 timeString)

/-- `none` is a result that a `uint32` does not hold. -/
def checkedUInt32 (n : Nat) : Option Nat := if n < 2 ^ 32 then some n else none

/-- `ToTimeString<Seconds>` of a text, in the default format. -/
def normalizedTimeString (durationTime : Bytes) : Bytes :=
  toTimeStringSeconds (timeStringTo durationTime) .seconds .shortText

/-! ## Results that fit -/

theorem checkedUInt32_eq_some {n n' : Nat} (h : checkedUInt32 n = some n') :
    n' = n ∧ n < 2 ^ 32 := by
  unfold checkedUInt32 at h
  split at h
  · cases h
    exact ⟨rfl, ‹_›⟩
  · cases h

/-- Where every result fits, nothing wraps. -/
theorem timeStringLoop_of_checked {timeString : Bytes} {secs buffer n : Nat}
    (h : timeStringLoop checkedUInt32 secs buffer timeString = some n) :
    Id.run (timeStringLoop (fun n => pure (n % 2 ^ 32)) secs buffer timeString) = n := by
  induction timeString generalizing secs buffer with
  | nil =>
    cases h
    rfl
  | cons itr timeString ih =>
    rw [timeStringLoop] at h ⊢
    by_cases hdigit : isDigit itr = true
    · rw [if_pos hdigit] at h ⊢
      obtain ⟨n₁, h₁, h⟩ := Option.bind_eq_some_iff.mp h
      obtain ⟨n₂, h₂, h⟩ := Option.bind_eq_some_iff.mp h
      obtain ⟨rfl, hlt₁⟩ := checkedUInt32_eq_some h₁
      obtain ⟨rfl, hlt₂⟩ := checkedUInt32_eq_some h₂
      change Id.run (timeStringLoop _ secs ((buffer * 10 % 2 ^ 32 + (itr.toNat - 48)) % 2 ^ 32)
        timeString) = n
      rw [Nat.mod_eq_of_lt hlt₁, Nat.mod_eq_of_lt hlt₂]
      exact ih h
    · rw [if_neg hdigit] at h ⊢
      cases hmultiplier : timeMultiplier itr with
      | none =>
        rw [hmultiplier] at h
        cases h
        rfl
      | some multiplier =>
        rw [hmultiplier] at h
        obtain ⟨n₁, h₁, h⟩ := Option.bind_eq_some_iff.mp h
        obtain ⟨n₂, h₂, h⟩ := Option.bind_eq_some_iff.mp h
        obtain ⟨rfl, hlt₁⟩ := checkedUInt32_eq_some h₁
        obtain ⟨rfl, hlt₂⟩ := checkedUInt32_eq_some h₂
        change Id.run (timeStringLoop _ ((secs + buffer * multiplier % 2 ^ 32) % 2 ^ 32) 0
          timeString) = n
        rw [Nat.mod_eq_of_lt hlt₁, Nat.mod_eq_of_lt hlt₂]
        exact ih h

theorem timeStringTo_lt (timeString : Bytes) : timeStringTo timeString < 2 ^ 32 := by
  have hloop : ∀ (s : Bytes) (secs buffer : Nat), secs < 2 ^ 32 →
      Id.run (timeStringLoop (fun n => pure (n % 2 ^ 32)) secs buffer s) < 2 ^ 32 := by
    intro s
    induction s with
    | nil => exact fun secs buffer h => h
    | cons itr s ih =>
      intro secs buffer h
      rw [timeStringLoop]
      by_cases hdigit : isDigit itr = true
      · rw [if_pos hdigit]
        exact ih _ _ h
      · rw [if_neg hdigit]
        cases timeMultiplier itr with
        | none => exact Nat.two_pow_pos 32
        | some multiplier => exact ih _ _ (Nat.mod_lt _ (by decide))
  exact hloop timeString 0 0 (by decide)

/-! ## A word -/

theorem le_foldl_digits (s : Bytes) (acc : Nat) :
    acc ≤ s.foldl (fun acc c => 10 * acc + (c.toNat - 48)) acc := by
  induction s generalizing acc with
  | nil => exact Nat.le_refl acc
  | cons c s ih =>
    have hrest := ih (10 * acc + (c.toNat - 48))
    rw [List.foldl_cons]
    omega

/-- Digits gather in the buffer. -/
theorem timeStringLoop_digits {digits : Bytes} (hdigits : ∀ c ∈ digits, isDigit c = true)
    (secs buffer : Nat) (rest : Bytes)
    (hlt : digits.foldl (fun acc c => 10 * acc + (c.toNat - 48)) buffer < 2 ^ 32) :
    timeStringLoop checkedUInt32 secs buffer (digits ++ rest) =
      timeStringLoop checkedUInt32 secs
        (digits.foldl (fun acc c => 10 * acc + (c.toNat - 48)) buffer) rest := by
  induction digits generalizing buffer with
  | nil => rfl
  | cons c digits ih =>
    rw [List.foldl_cons] at hlt ⊢
    have hle := le_foldl_digits digits (10 * buffer + (c.toNat - 48))
    have htimes : checkedUInt32 (buffer * 10) = some (10 * buffer) := by
      rw [checkedUInt32, if_pos (by omega), Nat.mul_comm]
    have hplus : checkedUInt32 (10 * buffer + (c.toNat - 48)) =
        some (10 * buffer + (c.toNat - 48)) := by
      rw [checkedUInt32, if_pos (by omega)]
    rw [List.cons_append, timeStringLoop, if_pos (hdigits c List.mem_cons_self), htimes,
      Option.bind_eq_bind, Option.bind_some, hplus, Option.bind_some,
      ih (fun x hx => hdigits x (List.mem_cons_of_mem c hx)) _ hlt]

theorem not_isDigit_of_timeMultiplier {c : UInt8} {multiplier : Nat}
    (h : timeMultiplier c = some multiplier) : ¬ isDigit c = true := by
  unfold timeMultiplier at h
  split at h
  · subst c; decide
  split at h
  · subst c; decide
  split at h
  · subst c; decide
  split at h
  · subst c; decide
  · cases h

/-- A number and its unit are added to the seconds. -/
theorem timeStringLoop_word {v multiplier secs : Nat} {c : UInt8}
    (hc : timeMultiplier c = some multiplier) (hpos : 0 < multiplier)
    (hlt : secs + v * multiplier < 2 ^ 32) (rest : Bytes) :
    timeStringLoop checkedUInt32 secs 0 (Decimal.numeral v ++ c :: rest) =
      timeStringLoop checkedUInt32 (secs + v * multiplier) 0 rest := by
  have hle : v ≤ v * multiplier := Nat.le_mul_of_pos_right v hpos
  have hvalue : (Decimal.numeral v).foldl (fun acc c => 10 * acc + (c.toNat - 48)) 0 = v :=
    decimal_numeral v
  have htimes : checkedUInt32 (v * multiplier) = some (v * multiplier) := if_pos (by omega)
  have hplus : checkedUInt32 (secs + v * multiplier) = some (secs + v * multiplier) :=
    if_pos hlt
  rw [timeStringLoop_digits (fun _ => isDigit_of_numeral) secs 0 (c :: rest)
    (by rw [hvalue]; omega), hvalue, timeStringLoop, if_neg (not_isDigit_of_timeMultiplier hc), hc]
  simp only [htimes, hplus, Option.bind_eq_bind, Option.bind_some]

/-- A blank ends the reading without a result. -/
theorem timeStringLoop_blank (secs : Nat) (rest : Bytes) :
    timeStringLoop checkedUInt32 secs 0 (32 :: rest) = some 0 :=
  rfl

/-! ## What is printed of seconds -/

/-- The units down to seconds are read back. -/
theorem exists_shortName {u : TimeOutput} (hu : u ∈ TimeOutput.all.take 4) :
    ∃ c multiplier, u.shortName = [c] ∧ timeMultiplier c = some multiplier ∧ 0 < multiplier ∧
      u.weight = multiplier * TimeDiff.SECONDS := by
  fin_cases hu <;> exact ⟨_, _, rfl, rfl, by decide, rfl⟩

/-- Of two words or more, nothing is left. -/
theorem timeStringLoop_words {words : List (Nat × TimeOutput)}
    (hunits : ∀ c ∈ words, c.2 ∈ TimeOutput.all.take 4) {n : Nat} (hn : n < 2 ^ 32)
    (hsum : (words.map fun c => c.1 * c.2.weight).sum = n * TimeDiff.SECONDS) :
    timeStringLoop checkedUInt32 0 0
        ([32].intercalate (words.map (componentText .shortText))) =
      some (if words.length ≤ 1 then n else 0) := by
  have hseconds : 0 < TimeDiff.SECONDS := by decide
  match words with
  | [] =>
    rw [List.map_nil, List.sum_nil] at hsum
    have hzero : n = 0 := by
      rcases Nat.mul_eq_zero.mp hsum.symm with hzero | hzero
      · exact hzero
      · omega
    subst hzero
    rfl
  | ⟨v, u⟩ :: words =>
    obtain ⟨c, multiplier, hname, hc, hpos, hweight⟩ := exists_shortName
      (hunits (v, u) List.mem_cons_self)
    have htext : componentText .shortText (v, u) = Decimal.numeral v ++ [c] :=
      congrArg (Decimal.numeral v ++ ·) hname
    rw [List.map_cons, List.sum_cons] at hsum
    simp only [hweight] at hsum
    have hle : v * multiplier ≤ n := by
      apply Nat.le_of_mul_le_mul_right _ hseconds
      rw [Nat.mul_assoc]
      omega
    match words with
    | [] =>
      rw [List.map_nil, List.sum_nil, Nat.add_zero, ← Nat.mul_assoc] at hsum
      have heq : v * multiplier = n := Nat.eq_of_mul_eq_mul_right hseconds hsum
      have hone : [(v, u)].length ≤ 1 := Nat.le_refl 1
      rw [List.map_singleton, List.intercalate_singleton, htext,
        timeStringLoop_word hc hpos (by omega), heq, Nat.zero_add, timeStringLoop, if_pos hone]
      rfl
    | c' :: words =>
      rw [List.map_cons, List.map_cons, List.intercalate_cons_cons, htext, List.append_assoc,
        List.append_assoc, List.singleton_append, timeStringLoop_word hc hpos (by omega),
        List.singleton_append, timeStringLoop_blank, if_neg (by simp)]

/-- At most one of the days, hours, minutes and seconds is not zero. -/
def SingleComponent (n : Nat) : Prop :=
  ([n / DAY, n / HOUR % 24, n / MINUTE % 60, n % 60].filter fun v => v ≠ 0).length ≤ 1

instance (n : Nat) : Decidable (SingleComponent n) := Nat.decLe _ _

theorem durationDigits_seconds (n : Nat) : durationDigits (n * TimeDiff.SECONDS) =
    [n / DAY, n / HOUR % 24, n / MINUTE % 60, n % 60, 0, 0] := by
  have hsplit : n * 1000000 = n * 1000 * 1000 := by omega
  have hconstants : TimeDiff.SECONDS = 1000000 ∧ DAY = 60 * 60 * 24 ∧ HOUR = 60 * 60 ∧
    MINUTE = 60 := by decide
  have hpos : 0 < 1000 := by decide
  simp only [hconstants, hsplit, durationDigits, MixedRadix.digits, Nat.mul_div_cancel _ hpos,
    Nat.mul_mod_left, Nat.div_div_eq_div_mul, List.reverse_cons, List.reverse_nil,
    List.nil_append, List.cons_append]

theorem length_printedComponents (n : Nat) :
    (printedComponents .seconds (n * TimeDiff.SECONDS)).length ≤ 1 ↔ SingleComponent n := by
  have hmap : (printedComponents .seconds (n * TimeDiff.SECONDS)).map Prod.fst =
      [n / DAY, n / HOUR % 24, n / MINUTE % 60, n % 60].filter fun v => v ≠ 0 := by
    have hfirst : [n / DAY, n / HOUR % 24, n / MINUTE % 60, n % 60] =
        (([n / DAY, n / HOUR % 24, n / MINUTE % 60, n % 60, 0, 0].zip TimeOutput.all).take
          (TimeOutput.seconds.index + 1)).map Prod.fst := rfl
    rw [printedComponents, durationDigits_seconds, hfirst, List.filter_map]
    rfl
  rw [SingleComponent, ← hmap, List.length_map]

theorem printedComponents_units {c : Nat × TimeOutput} {d : Nat}
    (h : c ∈ printedComponents .seconds d) : c.2 ∈ TimeOutput.all.take 4 := by
  have hmem := List.mem_of_mem_filter h
  rw [List.zip, List.take_zipWith] at hmem
  exact (List.of_mem_zip hmem).2

theorem toTimeStringSeconds_words {n : Nat} (hn : n < 2 ^ 32) :
    toTimeStringSeconds n .seconds .shortText = [32].intercalate
      ((printedComponents .seconds (n * TimeDiff.SECONDS)).map (componentText .shortText)) := by
  have hlt : n * TimeDiff.SECONDS < 2 ^ 64 := by
    have hseconds : TimeDiff.SECONDS = 1000000 := rfl
    rw [hseconds]
    omega
  rw [toTimeStringSeconds, Nat.mod_eq_of_lt hlt, toTimeString_words (by decide) hlt]

theorem sum_printedComponents_seconds (n : Nat) :
    ((printedComponents .seconds (n * TimeDiff.SECONDS)).map fun c => c.1 * c.2.weight).sum =
      n * TimeDiff.SECONDS := by
  have hweight : TimeOutput.seconds.weight = TimeDiff.SECONDS := rfl
  rw [sum_printedComponents, hweight, Nat.mul_mod_left, Nat.sub_zero]

/-- The text of some seconds is read back as these seconds, or as none at all; no result on
the way is too large. -/
theorem timeStringLoop_toTimeStringSeconds {n : Nat} (hn : n < 2 ^ 32) :
    timeStringLoop checkedUInt32 0 0 (toTimeStringSeconds n .seconds .shortText) =
      some (if SingleComponent n then n else 0) := by
  rw [toTimeStringSeconds_words hn, timeStringLoop_words
    (fun c hc => printedComponents_units hc) hn (sum_printedComponents_seconds n)]
  simp only [length_printedComponents]

theorem toTimeStringSeconds_zero : toTimeStringSeconds 0 .seconds .shortText = [] := by
  decide +kernel

theorem toTimeStringSeconds_ne_nil {n : Nat} (hn : n < 2 ^ 32) (h : ¬ SingleComponent n) :
    toTimeStringSeconds n .seconds .shortText ≠ [] := by
  rw [toTimeStringSeconds_words hn]
  rw [← length_printedComponents] at h
  match hwords : printedComponents .seconds (n * TimeDiff.SECONDS) with
  | [] =>
    rw [hwords] at h
    exact absurd (Nat.zero_le 1) h
  | [_] =>
    rw [hwords] at h
    exact absurd (Nat.le_refl 1) h
  | c :: c' :: words =>
    rw [List.map_cons, List.map_cons, List.intercalate_cons_cons, List.append_assoc]
    intro hnil
    have hnumeral := (List.append_eq_nil_iff.mp (List.append_eq_nil_iff.mp hnil).1).1
    exact Decimal.numeral_ne_nil c.1 hnumeral

/-- A single component is read back, and of more the reading ends at the first blank with
nothing. Normalized texts stay as they are exactly where a single component is printed. -/
theorem timeStringTo_toTimeString {n : Nat} (hn : n < 2 ^ 32) :
    timeStringTo (toTimeStringSeconds n .seconds .shortText) =
        (if SingleComponent n then n else 0) ∧
      timeStringLoop checkedUInt32 0 0 (toTimeStringSeconds n .seconds .shortText) =
        some (timeStringTo (toTimeStringSeconds n .seconds .shortText)) ∧
      ∀ s, normalizedTimeString (normalizedTimeString s) = normalizedTimeString s ↔
        SingleComponent (timeStringTo s) := by
  have hread : ∀ k < 2 ^ 32, timeStringTo (toTimeStringSeconds k .seconds .shortText) =
      if SingleComponent k then k else 0 :=
    fun k hk => timeStringLoop_of_checked (timeStringLoop_toTimeStringSeconds hk)
  refine ⟨hread n hn, ?_, fun s => ?_⟩
  · rw [hread n hn, timeStringLoop_toTimeStringSeconds hn]
  · have hlt := timeStringTo_lt s
    rw [normalizedTimeString, normalizedTimeString, hread _ hlt]
    by_cases hsingle : SingleComponent (timeStringTo s)
    · rw [if_pos hsingle]
      exact iff_of_true rfl hsingle
    · rw [if_neg hsingle, toTimeStringSeconds_zero]
      exact iff_of_false (toTimeStringSeconds_ne_nil hlt hsingle).symm hsingle

theorem timeStringTo_toTimeString_day :
    timeStringTo (toTimeStringSeconds 86400 .seconds .shortText) =
        (if SingleComponent 86400 then 86400 else 0) ∧
      timeStringLoop checkedUInt32 0 0 (toTimeStringSeconds 86400 .seconds .shortText) =
        some (timeStringTo (toTimeStringSeconds 86400 .seconds .shortText)) ∧
      ∀ s, normalizedTimeString (normalizedTimeString s) = normalizedTimeString s ↔
        SingleComponent (timeStringTo s) :=
  timeStringTo_toTimeString (by decide)

/-- A minute and a second are read back as nothing. -/
theorem minute_and_second_lost :
    toTimeStringSeconds 61 .seconds .shortText = text "1m 1s" ∧
      timeStringTo (toTimeStringSeconds 61 .seconds .shortText) = 0 ∧
      normalizedTimeString (normalizedTimeString (text "61s")) ≠
        normalizedTimeString (text "61s") := by
  decide +kernel

end Mpool.Time
