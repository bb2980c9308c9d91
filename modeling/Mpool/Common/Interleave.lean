import Mpool.Common.SRP6

/-! `SHA1Interleave` with every access to an array checked, against its definition: the
leading zeros go first, and the bytes are dealt out to two halves afterwards. -/

namespace Mpool.SRP6

/-! ## The function, with its accesses -/

/-- `while (p < EPHEMERAL_KEY_LENGTH && !S[p])`; `none` is a read outside of `S`, or too few
rounds. -/
def interleaveScan (S : EphemeralKey) : Nat → Nat → Option Nat
  | 0, _ => none
  | fuel + 1, p =>
    if p < 32 then
      match S.bytes[p]? with
      | none => none
      | some b => if b = 0 then interleaveScan S fuel (p + 1) else some p
    else some p

/-- `count` bytes from `data() + p` on, inside the array. -/
def rangeOf (buf : Bytes) (p count : Nat) : Option Bytes :=
  if p + count ≤ buf.length then some ((buf.drop p).take count) else none

variable (H : Hash)

def sha1InterleaveChecked (S : EphemeralKey) : Option SessionKey := do
  let p ← interleaveScan S 33 0
  let p := (if p % 2 = 1 then p + 1 else p) / 2
  let range0 ← rangeOf (buf0 S) p (16 - p)
  let range1 ← rangeOf (buf1 S) p (16 - p)
  let hash0 := H range0
  let hash1 := H range1
  some ⟨(List.range 20).flatMap fun i => [hash0.get i, hash1.get i], by simp⟩

/-! ## The definition -/

/-- The elements at even positions. -/
def evens {α : Type} : List α → List α
  | [] => []
  | [a] => [a]
  | a :: _ :: l => a :: evens l

/-- The elements at odd positions. -/
def odds {α : Type} : List α → List α
  | [] => []
  | [_] => []
  | _ :: b :: l => b :: odds l

/-- Without its leading zeros, and without one byte more where an odd number is left. -/
def stripped (S : Bytes) : Bytes :=
  let T := S.dropWhile fun b => b = 0
  if T.length % 2 = 1 then T.drop 1 else T

/-! ## Positions -/

theorem evens_getElem? {α : Type} (l : List α) (i : Nat) : (evens l)[i]? = l[2 * i]? := by
  induction l using evens.induct generalizing i with
  | case1 => simp [evens]
  | case2 a => cases i <;> simp [evens, Nat.mul_succ]
  | case3 a b l ih =>
    cases i with
    | zero => rfl
    | succ i => simp [evens, ih, Nat.mul_succ]

theorem odds_getElem? {α : Type} (l : List α) (i : Nat) : (odds l)[i]? = l[2 * i + 1]? := by
  induction l using odds.induct generalizing i with
  | case1 => simp [odds]
  | case2 a => simp [odds]
  | case3 a b l ih =>
    cases i with
    | zero => rfl
    | succ i => simp [odds, ih, Nat.mul_succ]

/-- To skip pairs and then deal out is to deal out and then skip half as many. -/
theorem evens_drop {α : Type} (l : List α) (k : Nat) :
    evens (l.drop (2 * k)) = (evens l).drop k := by
  apply List.ext_getElem?
  intro i
  rw [evens_getElem?, List.getElem?_drop, List.getElem?_drop, evens_getElem?, Nat.mul_add]

theorem odds_drop {α : Type} (l : List α) (k : Nat) :
    odds (l.drop (2 * k)) = (odds l).drop k := by
  apply List.ext_getElem?
  intro i
  rw [odds_getElem?, List.getElem?_drop, List.getElem?_drop, odds_getElem?, Nat.mul_add,
    Nat.add_assoc]

theorem evens_flatMap {α β : Type} (f g : α → β) (l : List α) :
    evens (l.flatMap fun x => [f x, g x]) = l.map f := by
  induction l with
  | nil => rfl
  | cons x l ih => rw [List.flatMap_cons, List.map_cons, ← ih]; rfl

theorem odds_flatMap {α β : Type} (f g : α → β) (l : List α) :
    odds (l.flatMap fun x => [f x, g x]) = l.map g := by
  induction l with
  | nil => rfl
  | cons x l ih => rw [List.flatMap_cons, List.map_cons, ← ih]; rfl

/-! ## The scan and the halves -/

theorem dropWhile_zero (l : Bytes) :
    (l.dropWhile fun b => b = 0) = l.drop (leadingZeros l) := by
  induction l with
  | nil => rfl
  | cons b l ih =>
    by_cases hb : b = 0
    · simp [leadingZeros, hb, ih]
    · simp [leadingZeros, hb]

theorem leadingZeros_le (l : Bytes) : leadingZeros l ≤ l.length := by
  induction l with
  | nil => exact Nat.le_refl 0
  | cons b l ih =>
    by_cases hb : b = 0
    · simp only [leadingZeros, hb, if_true, List.length_cons]
      omega
    · simp [leadingZeros, hb]

/-- The scan never leaves the key, and stops at the first byte that is not zero. -/
theorem interleaveScan_eq (S : EphemeralKey) (fuel p : Nat) (hfuel : 32 < fuel + p)
    (hp : p ≤ 32) : interleaveScan S fuel p = some (p + leadingZeros (S.bytes.drop p)) := by
  induction fuel generalizing p with
  | zero => omega
  | succ fuel ih =>
    rw [interleaveScan]
    by_cases hlt : p < 32
    · have hin : p < S.bytes.length := by
        rw [S.length_bytes]
        exact hlt
      rw [if_pos hlt, List.getElem?_eq_getElem hin, List.drop_eq_getElem_cons hin]
      simp only
      by_cases hb : S.bytes[p] = 0
      · rw [if_pos hb, ih (p + 1) (by omega) (by omega), leadingZeros, if_pos hb]
        exact congrArg some (by omega)
      · rw [if_neg hb, leadingZeros, if_neg hb, Nat.add_zero]
    · have hall : S.bytes.drop p = [] := List.drop_eq_nil_of_le (by rw [S.length_bytes]; omega)
      rw [if_neg hlt, hall, leadingZeros, Nat.add_zero]

/-- A half of the key has its bytes at every second position. -/
theorem half_getElem? (S : EphemeralKey) {off : Nat} (hoff : off < 2) (i : Nat) :
    ((List.range 16).map fun i => S.get (2 * i + off))[i]? = S.bytes[2 * i + off]? := by
  rw [List.getElem?_map]
  by_cases hi : i < 16
  · have hin : 2 * i + off < S.bytes.length := by
      rw [S.length_bytes]
      omega
    rw [List.getElem?_range hi, List.getElem?_eq_getElem hin, Option.map_some,
      Octets.get_eq_getElem S hin]
  · rw [List.getElem?_eq_none (by rw [List.length_range]; omega),
      List.getElem?_eq_none (by rw [S.length_bytes]; omega)]
    rfl

theorem buf0_eq (S : EphemeralKey) : buf0 S = evens S.bytes := by
  apply List.ext_getElem?
  intro i
  rw [evens_getElem?]
  exact half_getElem? S (by decide : 0 < 2) i

theorem buf1_eq (S : EphemeralKey) : buf1 S = odds S.bytes := by
  apply List.ext_getElem?
  intro i
  rw [odds_getElem?]
  exact half_getElem? S (by decide : 1 < 2) i

theorem interleaveStart_le (S : EphemeralKey) : interleaveStart S ≤ 16 := by
  have hle := leadingZeros_le S.bytes
  rw [S.length_bytes] at hle
  unfold interleaveStart
  simp only
  split <;> omega

/-- As the key has an even number of bytes, rounding the start up to an even position drops
the one byte more. -/
theorem stripped_eq (S : EphemeralKey) :
    stripped S.bytes = S.bytes.drop (2 * interleaveStart S) := by
  have hle := leadingZeros_le S.bytes
  rw [S.length_bytes] at hle
  have hlength : (S.bytes.drop (leadingZeros S.bytes)).length = 32 - leadingZeros S.bytes := by
    rw [List.length_drop, S.length_bytes]
  unfold stripped interleaveStart
  simp only [dropWhile_zero, hlength]
  by_cases hodd : leadingZeros S.bytes % 2 = 1
  · rw [if_pos (by omega), if_pos hodd, List.drop_drop]
    exact congrArg (S.bytes.drop ·) (by omega)
  · rw [if_neg (by omega), if_neg hodd]
    exact congrArg (S.bytes.drop ·) (by omega)

theorem rangeOf_rest (buf : Bytes) {p : Nat} (hlength : buf.length = 16)
    (hp : p ≤ 16) : rangeOf buf p (16 - p) = some (buf.drop p) := by
  rw [rangeOf, if_pos (by omega), List.take_of_length_le]
  rw [List.length_drop]
  omega

/-- No access is outside of its array. -/
theorem sha1InterleaveChecked_eq (S : EphemeralKey) :
    sha1InterleaveChecked H S = some (sha1Interleave H S) := by
  have hscan : interleaveScan S 33 0 = some (leadingZeros S.bytes) := by
    rw [interleaveScan_eq S 33 0 (by omega) (by omega), List.drop_zero, Nat.zero_add]
  have hle := interleaveStart_le S
  have hrange0 := rangeOf_rest (buf0 S) (by simp [buf0]) hle
  have hrange1 := rangeOf_rest (buf1 S) (by simp [buf1]) hle
  unfold interleaveStart at hrange0 hrange1
  simp only at hrange0 hrange1
  simp only [sha1InterleaveChecked, hscan, Option.bind_eq_bind, Option.bind_some, hrange0,
    hrange1]
  rfl

theorem get_of_getElem? {n i : Nat} {a : Octets n} {b : UInt8} (h : a.bytes[i]? = some b) :
    a.get i = b := by
  rw [Octets.get, List.getD_eq_getElem?_getD, h]
  rfl

/-- For every key and every hash function the result is that of the definition, and no
access on the way is outside of its array. -/
theorem interleave_eq_definition (S : EphemeralKey) :
    ∃ K, sha1InterleaveChecked H S = some K ∧ K = sha1Interleave H S ∧
      ∀ i < 20, K.get (2 * i) = (H (evens (stripped S.bytes))).get i ∧
        K.get (2 * i + 1) = (H (odds (stripped S.bytes))).get i := by
  refine ⟨sha1Interleave H S, sha1InterleaveChecked_eq H S, rfl, fun i hi => ?_⟩
  rw [stripped_eq, evens_drop, odds_drop, ← buf0_eq, ← buf1_eq]
  constructor
  · apply get_of_getElem?
    rw [← evens_getElem?, sha1Interleave]
    simp only
    rw [evens_flatMap, List.getElem?_map, List.getElem?_range hi]
    rfl
  · apply get_of_getElem?
    rw [← odds_getElem?, sha1Interleave]
    simp only
    rw [odds_flatMap, List.getElem?_map, List.getElem?_range hi]
    rfl

end Mpool.SRP6
