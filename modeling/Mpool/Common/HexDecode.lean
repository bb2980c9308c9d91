import Mpool.Common.BigNumber
import Mpool.Common.Util

/-! `HexStrToByteArray` with every access checked: it ends, fills the array and leaves the
digit pairs of the string in it, in either direction. -/

namespace Mpool.Util

/-! ## The function, with its accesses -/

/-- The conversion of a `size_t` to `int32`. -/
def toInt32 (len : Int) : Int := (len % 2 ^ 64).bmod (2 ^ 32)

/-- `str[i]` for an `int32`; `none` is a read outside of the string. -/
def charAt (str : Bytes) (i : Int) : Option UInt8 :=
  if 0 ≤ i ∧ i < 2 ^ 31 then str[i.toNat]? else none

/-- `out[j] = b`; `none` is a write outside of the array. -/
def store (out : Bytes) (j : Nat) (b : UInt8) : Option Bytes :=
  if j < out.length then some (out.set j b) else none

/-- The loop of `HexStrToByteArray`; `none` also where there are not enough rounds, or where
`i` leaves the `int32`. -/
def hexWriteLoop (str : Bytes) (stop op : Int) : Nat → Int → Nat → Bytes → Option Bytes
  | 0, _, _, _ => none
  | fuel + 1, i, j, out =>
    if i = stop then some out
    else do
      let c ← charAt str i
      let d ← charAt str (i + 1)
      let out ← store out j (UInt8.ofNat (strtoul16 [c, d]))
      if -2 ^ 31 ≤ i + 2 * op ∧ i + 2 * op < 2 ^ 31 then
        hexWriteLoop str stop op fuel (i + 2 * op) (j + 1) out
      else none

def hexWrite (str out : Bytes) (reverse : Bool) : Option Bytes :=
  if str.length = 2 * out.length then
    hexWriteLoop str (if reverse then -2 else toInt32 str.length) (hexOp reverse)
      (out.length + 1) (if reverse then toInt32 (str.length - 2) else 0) 0 out
  else none

/-! ## What a string denotes -/

def digitValue (c : UInt8) : Nat := (hexDigit c).getD 0

/-- The digit pairs, in order. -/
def hexPairs : Bytes → Bytes
  | c :: d :: s => UInt8.ofNat (16 * digitValue c + digitValue d) :: hexPairs s
  | _ => []

/-- The number in base 16. -/
def hexValue (str : Bytes) : Nat := Nat.ofDigits 16 (str.map digitValue).reverse

def hexChar (d : Nat) : UInt8 := UInt8.ofNat (if d < 10 then 48 + d else 87 + d)

def hexEncode (bytes : Bytes) : Bytes :=
  bytes.flatMap fun b => [hexChar (b.toNat / 16), hexChar (b.toNat % 16)]

/-! ## Digits -/

theorem hexDigit_cases {c : UInt8} (h : (hexDigit c).isSome) :
    48 ≤ c.toNat ∧ c.toNat ≤ 57 ∧ digitValue c = c.toNat - 48 ∨
      65 ≤ c.toNat ∧ c.toNat ≤ 70 ∧ digitValue c = c.toNat - 55 ∨
      97 ≤ c.toNat ∧ c.toNat ≤ 102 ∧ digitValue c = c.toNat - 87 := by
  simp only [digitValue]
  unfold hexDigit at h ⊢
  simp only [UInt8.le_iff_toNat_le] at h ⊢
  split at h
  · next hin =>
    rw [if_pos hin]
    exact Or.inl ⟨hin.1, hin.2, rfl⟩
  · split at h
    · next hout hin =>
      rw [if_neg hout, if_pos hin]
      exact Or.inr (Or.inl ⟨hin.1, hin.2, rfl⟩)
    · split at h
      · next hout hout' hin =>
        rw [if_neg hout, if_neg hout', if_pos hin]
        exact Or.inr (Or.inr ⟨hin.1, hin.2, rfl⟩)
      · exact absurd h (by decide)

theorem digitValue_lt {c : UInt8} (h : (hexDigit c).isSome) : digitValue c < 16 := by
  rcases hexDigit_cases h with hc | hc | hc <;> omega

theorem toLower_toNat (c : UInt8) :
    (toLower c).toNat = if 65 ≤ c.toNat ∧ c.toNat ≤ 90 then c.toNat + 32 else c.toNat := by
  have hbounds : (65 : UInt8).toNat = 65 ∧ (90 : UInt8).toNat = 90 ∧ (32 : UInt8).toNat = 32 := by
    decide
  simp only [toLower, UInt8.le_iff_toNat_le, hbounds]
  split
  · rw [UInt8.toNat_add, hbounds.2.2]
    omega
  · rfl

theorem hexChar_toNat {d : Nat} (h : d < 16) :
    (hexChar d).toNat = if d < 10 then 48 + d else 87 + d := by
  apply UInt8.toNat_ofNat_of_lt
  change (if d < 10 then 48 + d else 87 + d) < 256
  split <;> omega

/-- A digit comes back up to its case. -/
theorem toLower_hexChar {c : UInt8} (h : (hexDigit c).isSome) :
    toLower (hexChar (digitValue c)) = toLower c := by
  apply UInt8.toNat_inj.mp
  rw [toLower_toNat, toLower_toNat, hexChar_toNat (digitValue_lt h)]
  rcases hexDigit_cases h with ⟨hlow, hhigh, hd⟩ | ⟨hlow, hhigh, hd⟩ | ⟨hlow, hhigh, hd⟩
  · have hten : digitValue c < 10 := by omega
    rw [if_pos hten, if_neg (by omega), if_neg (by omega)]
    omega
  · have hten : ¬ digitValue c < 10 := by omega
    rw [if_neg hten, if_neg (by omega), if_pos (by omega)]
    omega
  · have hten : ¬ digitValue c < 10 := by omega
    rw [if_neg hten, if_neg (by omega), if_neg (by omega)]
    omega

/-- Two digits are neither blank nor sign, and `strtoul` reads them to the end. -/
theorem strtoul16_digits {c d : UInt8} (hc : (hexDigit c).isSome) (hd : (hexDigit d).isSome) :
    strtoul16 [c, d] = 16 * digitValue c + digitValue d := by
  have hspace : isSpace c = false := by
    unfold isSpace
    rcases hexDigit_cases hc with h | h | h <;>
      simp [UInt8.le_iff_toNat_le, ← UInt8.toNat_inj] <;> omega
  have hsign : c ≠ 45 ∧ c ≠ 43 := by
    rw [Ne, Ne, ← UInt8.toNat_inj, ← UInt8.toNat_inj]
    rcases hexDigit_cases hc with h | h | h <;> simp <;> omega
  obtain ⟨x, hx⟩ := Option.isSome_iff_exists.mp hc
  obtain ⟨y, hy⟩ := Option.isSome_iff_exists.mp hd
  have hskip : [c, d].dropWhile isSpace = [c, d] := by
    rw [List.dropWhile_cons, hspace]
    rfl
  unfold strtoul16
  rw [hskip]
  split
  · next heq => exact absurd (List.cons.inj heq).1 hsign.1
  · next heq => exact absurd (List.cons.inj heq).1 hsign.2
  · simp [hexDigits, digitValue, hx, hy]

/-! ## Pairs -/

/-- Induction over the pairs of a string. -/
@[elab_as_elim] theorem pairs_induction {motive : Nat → Bytes → Prop} (nil : motive 0 [])
    (pair : ∀ n c d s, s.length = 2 * n → motive n s → motive (n + 1) (c :: d :: s))
    {n : Nat} {str : Bytes} (h : str.length = 2 * n) : motive n str := by
  induction n generalizing str with
  | zero =>
    rw [List.length_eq_zero_iff.mp h]
    exact nil
  | succ n ih =>
    match str, h with
    | c :: d :: s, h =>
      have hs : s.length = 2 * n := by
        simp only [List.length_cons] at h
        omega
      exact pair n c d s hs (ih hs)

theorem length_hexPairs {n : Nat} {str : Bytes} (h : str.length = 2 * n) :
    (hexPairs str).length = n := by
  refine pairs_induction rfl (fun n c d s hs ih => ?_) h
  rw [hexPairs, List.length_cons, ih]

/-- Pair `k` stands at `2 * k`. -/
theorem hexPairs_getElem? {n : Nat} {str : Bytes} (h : str.length = 2 * n) {k : Nat}
    (hk : k < n) : ∃ c d, str[2 * k]? = some c ∧ str[2 * k + 1]? = some d ∧
      (hexPairs str)[k]? = some (UInt8.ofNat (16 * digitValue c + digitValue d)) := by
  induction k generalizing n str with
  | zero =>
    match str, h with
    | [], h => simp at h; omega
    | [_], h => simp at h; omega
    | c :: d :: s, _ => exact ⟨c, d, rfl, rfl, rfl⟩
  | succ k ih =>
    match str, h with
    | [], h => simp at h; omega
    | [_], h => simp at h; omega
    | c :: d :: s, h =>
      simp only [List.length_cons] at h
      have hs : s.length = 2 * (n - 1) := by omega
      obtain ⟨c', d', hc, hd, hpair⟩ := ih hs (by omega)
      exact ⟨c', d', hc, hd, hpair⟩

theorem pair_toNat {c d : UInt8} (hc : (hexDigit c).isSome) (hd : (hexDigit d).isSome) :
    (UInt8.ofNat (16 * digitValue c + digitValue d)).toNat =
      16 * digitValue c + digitValue d := by
  have hlt := digitValue_lt hc
  have hlt' := digitValue_lt hd
  apply UInt8.toNat_ofNat_of_lt
  change 16 * digitValue c + digitValue d < 256
  omega

/-- The reversed pairs, least significant byte first, are the digits from the last on. -/
theorem value_reverse_hexPairs {n : Nat} {str : Bytes} (h : str.length = 2 * n)
    (hdigits : ∀ c ∈ str, (hexDigit c).isSome) :
    Bytes.value (hexPairs str).reverse = hexValue str := by
  revert hdigits
  refine pairs_induction (fun _ => rfl) (fun n c d s hs ih hdigits => ?_) h
  have htail := ih fun x hx => hdigits x (by simp [hx])
  have hpair := pair_toNat (hdigits c (by simp)) (hdigits d (by simp))
  have hpow : (256 : Nat) ^ n = 16 ^ (2 * n) := by
    rw [Nat.pow_mul]
  unfold hexValue at htail ⊢
  simp only [hexPairs, List.map_cons, List.reverse_cons, Bytes.value_append,
    Nat.ofDigits_append, Bytes.value_cons, Bytes.value_nil, Nat.ofDigits_singleton,
    List.length_append, List.length_reverse, List.length_map, List.length_singleton, htail,
    hpair, length_hexPairs hs, hs, hpow, Nat.pow_succ]
  ring

/-- Written out again, a string comes back up to the case of its letters. -/
theorem hexEncode_hexPairs {n : Nat} {str : Bytes} (h : str.length = 2 * n)
    (hdigits : ∀ c ∈ str, (hexDigit c).isSome) :
    stringEqualI (hexEncode (hexPairs str)) str = true := by
  rw [stringEqualI, decide_eq_true_iff]
  revert hdigits
  refine pairs_induction (fun _ => rfl) (fun n c d s hs ih hdigits => ?_) h
  have htail := ih fun x hx => hdigits x (by simp [hx])
  have hc := hdigits c (by simp)
  have hd := hdigits d (by simp)
  have hlt := digitValue_lt hd
  have hhigh : (16 * digitValue c + digitValue d) / 16 = digitValue c := by omega
  have hlow : (16 * digitValue c + digitValue d) % 16 = digitValue d := by omega
  unfold hexEncode at htail ⊢
  rw [hexPairs, List.flatMap_cons, List.map_append, htail, pair_toNat hc hd, hhigh, hlow]
  simp only [List.map_cons, List.map_nil, toLower_hexChar hc, toLower_hexChar hd,
    List.cons_append, List.nil_append]

/-! ## The loop -/

theorem charAt_of_lt {str : Bytes} {k : Nat} {c : UInt8} (hk : k < 2 ^ 31)
    (hc : str[k]? = some c) : charAt str k = some c := by
  rw [charAt, if_pos (by omega), Int.toNat_natCast, hc]

/-- In round `j` the pair at `i = position j` goes to `out[j]`; what the array held before
is gone in the end. -/
theorem hexWriteLoop_eq {str result : Bytes} {n : Nat} {op : Int} (position : Nat → Int)
    (hresult : result.length = n)
    (hnext : ∀ j, position (j + 1) = position j + 2 * op)
    (hrange : ∀ j ≤ n, -2 ^ 31 ≤ position j ∧ position j < 2 ^ 31)
    (hrunning : ∀ j < n, position j ≠ position n)
    (hpair : ∀ j < n, ∃ c d, charAt str (position j) = some c ∧
      charAt str (position j + 1) = some d ∧
      result[j]? = some (UInt8.ofNat (strtoul16 [c, d])))
    (fuel j : Nat) (hj : j ≤ n) (hfuel : n < fuel + j) (out : Bytes) (hout : out.length = n) :
    hexWriteLoop str (position n) op fuel (position j) j out =
      some (out.take j ++ result.drop j) := by
  induction fuel generalizing j out with
  | zero => omega
  | succ fuel ih =>
    rw [hexWriteLoop]
    by_cases hend : j = n
    · subst hend
      rw [if_pos rfl, List.take_of_length_le (by omega), List.drop_eq_nil_of_le (by omega),
        List.append_nil]
    · have hlt : j < n := by omega
      obtain ⟨c, d, hc, hd, hbyte⟩ := hpair j hlt
      obtain ⟨hin, hbyte⟩ := List.getElem?_eq_some_iff.mp hbyte
      have hinside := hrange (j + 1) hlt
      rw [hnext] at hinside
      have hstep := ih (j + 1) hlt (by omega) (out.set j (UInt8.ofNat (strtoul16 [c, d])))
        (by rw [List.length_set, hout])
      rw [hnext] at hstep
      rw [if_neg (hrunning j hlt), hc, Option.bind_eq_bind, Option.bind_some, hd,
        Option.bind_eq_bind, Option.bind_some, store, if_pos (by omega), Option.bind_some,
        if_pos hinside, hstep, List.take_succ_eq_append_getElem
          (by rw [List.length_set]; omega), List.take_set_of_le (Nat.le_refl j),
        List.getElem_set_self, List.drop_eq_getElem_cons hin, hbyte, List.append_assoc]
      rfl

/-- The loop as a list of bytes, in the same rounds. -/
theorem hexLoop_eq {str result : Bytes} {n : Nat} {op : Int} (position : Nat → Int)
    (hresult : result.length = n)
    (hnext : ∀ j, position (j + 1) = position j + 2 * op)
    (hrunning : ∀ j < n, position j ≠ position n)
    (hbyte : ∀ j < n, result[j]? = some (hexByte str (position j)))
    (fuel j : Nat) (hj : j ≤ n) (hfuel : n < fuel + j) :
    hexLoop str (position n) op fuel (position j) = result.drop j := by
  induction fuel generalizing j with
  | zero => omega
  | succ fuel ih =>
    rw [hexLoop]
    by_cases hend : j = n
    · subst hend
      rw [if_pos rfl, List.drop_eq_nil_of_le (by omega)]
    · have hlt : j < n := by omega
      obtain ⟨hin, hget⟩ := List.getElem?_eq_some_iff.mp (hbyte j hlt)
      have hstep := ih (j + 1) hlt (by omega)
      rw [hnext] at hstep
      rw [if_neg (hrunning j hlt), hstep, List.drop_eq_getElem_cons hin, hget]

theorem hexByte_of_charAt {str : Bytes} {i : Int} {c d : UInt8} (hc : charAt str i = some c)
    (hd : charAt str (i + 1) = some d) : hexByte str i = UInt8.ofNat (strtoul16 [c, d]) := by
  unfold charAt at hc hd
  split at hc
  · split at hd
    · rw [hexByte, List.getD_eq_getElem?_getD, hc, List.getD_eq_getElem?_getD, hd]
      rfl
    · cases hd
  · cases hc

/-! ## Both directions -/

/-- The bytes in the order in which they are written. -/
def hexResult (str : Bytes) (reverse : Bool) : Bytes :=
  if reverse then (hexPairs str).reverse else hexPairs str

theorem length_hexResult {n : Nat} {str : Bytes} (h : str.length = 2 * n) (reverse : Bool) :
    (hexResult str reverse).length = n := by
  unfold hexResult
  split
  · rw [List.length_reverse, length_hexPairs h]
  · exact length_hexPairs h

/-- Where round `j` reads. -/
def hexPosition (n : Nat) (reverse : Bool) (j : Nat) : Int :=
  if reverse then 2 * n - 2 - 2 * j else 2 * j

theorem hexPosition_succ (n : Nat) (reverse : Bool) (j : Nat) :
    hexPosition n reverse (j + 1) = hexPosition n reverse j + 2 * hexOp reverse := by
  cases reverse <;> simp only [hexPosition, hexOp, if_true, Bool.false_eq_true, if_false] <;>
    push_cast <;> ring

theorem hexPosition_ne {n j : Nat} (reverse : Bool) (h : j < n) :
    hexPosition n reverse j ≠ hexPosition n reverse n := by
  cases reverse <;> simp only [hexPosition, if_true, Bool.false_eq_true, if_false] <;> omega

theorem hexPosition_range {n j : Nat} (reverse : Bool) (h : j ≤ n) (hn : 2 * n < 2 ^ 31) :
    -2 ^ 31 ≤ hexPosition n reverse j ∧ hexPosition n reverse j < 2 ^ 31 := by
  cases reverse <;> simp only [hexPosition, if_true, Bool.false_eq_true, if_false] <;> omega

/-- Round `j` reads the pair that belongs to `out[j]`. -/
theorem hexPosition_pair {n : Nat} {str : Bytes} (h : str.length = 2 * n) (hn : 2 * n < 2 ^ 31)
    (hdigits : ∀ c ∈ str, (hexDigit c).isSome) (reverse : Bool) (j : Nat) (hj : j < n) :
    ∃ c d, charAt str (hexPosition n reverse j) = some c ∧
      charAt str (hexPosition n reverse j + 1) = some d ∧
      (hexResult str reverse)[j]? = some (UInt8.ofNat (strtoul16 [c, d])) := by
  have hat : ∃ k < n, hexPosition n reverse j = 2 * k ∧
      (hexResult str reverse)[j]? = (hexPairs str)[k]? := by
    cases reverse with
    | false => exact ⟨j, hj, rfl, rfl⟩
    | true =>
      refine ⟨n - 1 - j, by omega, ?_, ?_⟩
      · simp only [hexPosition, if_true]
        omega
      · have hlength := length_hexPairs h
        simp only [hexResult, if_true]
        rw [List.getElem?_reverse (by omega), hlength]
  obtain ⟨k, hk, hposition, hresult⟩ := hat
  obtain ⟨c, d, hc, hd, hpair⟩ := hexPairs_getElem? h hk
  refine ⟨c, d, ?_, ?_, ?_⟩
  · rw [hposition]
    exact_mod_cast charAt_of_lt (by omega) hc
  · rw [hposition]
    exact_mod_cast charAt_of_lt (by omega) hd
  · rw [hresult, hpair, strtoul16_digits (hdigits c (List.mem_of_getElem? hc))
      (hdigits d (List.mem_of_getElem? hd))]

theorem toInt32_length {n : Nat} {str : Bytes} (h : str.length = 2 * n) (hn : 2 * n < 2 ^ 31) :
    toInt32 str.length = 2 * n ∧ toInt32 (str.length - 2) = 2 * n - 2 := by
  rw [toInt32, toInt32, h]
  constructor <;> rw [Int.bmod_def] <;> split <;> omega

/-- The loop ends and fills the array, whatever it held before. -/
theorem hexWrite_eq {n : Nat} {str : Bytes} (h : str.length = 2 * n) (hn : 2 * n < 2 ^ 31)
    (hdigits : ∀ c ∈ str, (hexDigit c).isSome) (reverse : Bool) (out : Bytes)
    (hout : out.length = n) : hexWrite str out reverse = some (hexResult str reverse) := by
  have hloop := hexWriteLoop_eq (hexPosition n reverse) (length_hexResult h reverse)
    (hexPosition_succ n reverse) (fun j hj => hexPosition_range reverse hj hn)
    (fun j => hexPosition_ne reverse) (hexPosition_pair h hn hdigits reverse) (n + 1) 0
    (Nat.zero_le n) (by omega) out hout
  obtain ⟨hlength, hlength'⟩ := toInt32_length h hn
  rw [hexWrite, if_pos (by rw [h, hout]), hlength, hlength', hout]
  cases reverse <;>
    simpa [hexPosition, hexOp] using hloop

theorem hexBytes_eq {n : Nat} {str : Bytes} (h : str.length = 2 * n) (hn : 2 * n < 2 ^ 31)
    (hdigits : ∀ c ∈ str, (hexDigit c).isSome) (reverse : Bool) :
    hexBytes str reverse = hexResult str reverse := by
  have hbyte : ∀ j < n,
      (hexResult str reverse)[j]? = some (hexByte str (hexPosition n reverse j)) := by
    intro j hj
    obtain ⟨c, d, hc, hd, hpair⟩ := hexPosition_pair h hn hdigits reverse j hj
    rw [hpair, hexByte_of_charAt hc hd]
  have hloop := hexLoop_eq (hexPosition n reverse) (length_hexResult h reverse)
    (hexPosition_succ n reverse) (fun j => hexPosition_ne reverse) hbyte (2 * n + 1) 0
    (Nat.zero_le n) (by omega)
  rw [hexBytes, h]
  cases reverse <;>
    simpa [hexPosition, hexOp, hexInit, hexEnd] using hloop

/-- A string of `2 * n` digits is decoded into the whole array, forwards or backwards; the
reversed array is the number of the string, and the string can be written out again. -/
theorem hexStrToByteArray_digits {n : Nat} {str : Bytes} (h : str.length = 2 * n)
    (hn : 2 * n < 2 ^ 31) (hdigits : ∀ c ∈ str, (hexDigit c).isSome) :
    ∃ pairs reversed : Octets n,
      (∀ out : Bytes, out.length = n → hexWrite str out false = some pairs.bytes ∧
        hexWrite str out true = some reversed.bytes) ∧
      hexStrToByteArray n str false = some pairs ∧
      hexStrToByteArray n str true = some reversed ∧
      pairs.bytes = hexPairs str ∧ reversed.bytes = (hexPairs str).reverse ∧
      BigNumber.ofArray reversed = hexValue str ∧
      stringEqualI (hexEncode pairs.bytes) str = true := by
  refine ⟨⟨hexResult str false, length_hexResult h false⟩,
    ⟨hexResult str true, length_hexResult h true⟩,
    fun out hout => ⟨hexWrite_eq h hn hdigits false out hout,
      hexWrite_eq h hn hdigits true out hout⟩, ?_, ?_, rfl, rfl,
    value_reverse_hexPairs h hdigits, hexEncode_hexPairs h hdigits⟩
  · simp only [hexStrToByteArray, dif_pos h, hexBytes_eq h hn hdigits]
  · simp only [hexStrToByteArray, dif_pos h, hexBytes_eq h hn hdigits]

theorem hexStrToByteArray_digits_mixed :
    ∃ pairs reversed : Octets 2,
      (∀ out : Bytes, out.length = 2 → hexWrite (text "0aF1") out false = some pairs.bytes ∧
        hexWrite (text "0aF1") out true = some reversed.bytes) ∧
      hexStrToByteArray 2 (text "0aF1") false = some pairs ∧
      hexStrToByteArray 2 (text "0aF1") true = some reversed ∧
      pairs.bytes = hexPairs (text "0aF1") ∧ reversed.bytes = (hexPairs (text "0aF1")).reverse ∧
      BigNumber.ofArray reversed = hexValue (text "0aF1") ∧
      stringEqualI (hexEncode pairs.bytes) (text "0aF1") = true :=
  hexStrToByteArray_digits (by decide) (by decide) (by decide +kernel)

end Mpool.Util
