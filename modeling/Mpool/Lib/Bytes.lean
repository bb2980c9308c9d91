import Mathlib.Data.List.TakeWhile
import Mathlib.Data.Nat.Digits.Lemmas

/-! Byte strings, byte arrays of a fixed length and their little-endian values.
A value is Mathlib's `Nat.ofDigits` in base 256; `encode w` writes a number
with exactly `w` bytes and inverts `value` below `256 ^ w`. -/

abbrev Bytes := List UInt8

namespace Bytes

/-- Up to the first `c` a string is all there is when it has no `c`. -/
theorem takeWhile_ne_eq_self_iff {s : Bytes} {c : UInt8} :
    s.takeWhile (fun x => x ≠ c) = s ↔ c ∉ s := by
  rw [List.takeWhile_eq_self_iff]
  constructor
  · intro h hc
    exact of_decide_eq_true (h c hc) rfl
  · intro h x hx
    exact decide_eq_true fun heq => h (heq ▸ hx)

/-- The number a byte string denotes, least significant byte first. -/
def value (l : Bytes) : Nat := Nat.ofDigits 256 (l.map UInt8.toNat)

/-- The low `w` bytes of `n`, least significant byte first. -/
def encode : Nat → Nat → Bytes
  | 0, _ => []
  | w + 1, n => UInt8.ofNat (n % 256) :: encode w (n / 256)

@[simp] theorem value_nil : value [] = 0 := rfl

@[simp] theorem value_cons (b : UInt8) (l : Bytes) :
    value (b :: l) = b.toNat + 256 * value l := by
  simp [value, Nat.ofDigits_cons]

theorem value_append (l r : Bytes) :
    value (l ++ r) = value l + 256 ^ l.length * value r := by
  simp [value, Nat.ofDigits_append]

theorem value_lt (l : Bytes) : value l < 256 ^ l.length := by
  have h : ∀ x ∈ l.map UInt8.toNat, x < 256 := by
    intro x hx
    obtain ⟨b, _, rfl⟩ := List.mem_map.mp hx
    exact b.toNat_lt
  simpa [value] using Nat.ofDigits_lt_base_pow_length (by omega) h

@[simp] theorem length_encode (w n : Nat) : (encode w n).length = w := by
  induction w generalizing n with
  | zero => rfl
  | succ w ih => simp [encode, ih]

theorem value_encode {w n : Nat} (h : n < 256 ^ w) : value (encode w n) = n := by
  induction w generalizing n with
  | zero => simp at h; simp [encode, h]
  | succ w ih =>
    have hq : n / 256 < 256 ^ w := by
      rw [pow_succ] at h
      exact Nat.div_lt_of_lt_mul (by omega)
    have hb : (UInt8.ofNat (n % 256)).toNat = n % 256 := by
      simp [UInt8.toNat_ofNat']
    rw [encode, value_cons, ih hq, hb]
    omega

theorem encode_value (l : Bytes) : encode l.length (value l) = l := by
  induction l with
  | nil => rfl
  | cons b l ih =>
    have hb : b.toNat < 256 := b.toNat_lt
    have hq : (b.toNat + 256 * value l) / 256 = value l := by omega
    have hr : (b.toNat + 256 * value l) % 256 = b.toNat := by omega
    rw [List.length_cons, encode, value_cons, hq, hr, ih, UInt8.ofNat_toNat]

end Bytes

/-- A byte array of length `n`. -/
@[ext] structure Octets (n : Nat) where
  bytes : Bytes
  length_bytes : bytes.length = n
  deriving DecidableEq

namespace Octets

attribute [simp] length_bytes

def zero (n : Nat) : Octets n := ⟨List.replicate n 0, by simp⟩

def value {n : Nat} (a : Octets n) : Nat := Bytes.value a.bytes

def encode (w n : Nat) : Octets w := ⟨Bytes.encode w n, Bytes.length_encode w n⟩

theorem value_lt {n : Nat} (a : Octets n) : a.value < 256 ^ n := by
  simpa [value] using Bytes.value_lt a.bytes

theorem value_encode {w n : Nat} (h : n < 256 ^ w) : (encode w n).value = n :=
  Bytes.value_encode h

theorem encode_value {n : Nat} (a : Octets n) : encode n a.value = a := by
  ext1
  simpa [encode, value] using Bytes.encode_value a.bytes

/-- The byte at offset `i`; every caller stays below `n`. -/
def get {n : Nat} (a : Octets n) (i : Nat) : UInt8 := a.bytes.getD i 0

/-- The `k` bytes from offset `off` on. -/
def slice {n : Nat} (a : Octets n) (off k : Nat) (h : off + k ≤ n) : Octets k :=
  ⟨(a.bytes.drop off).take k, by simp; omega⟩

/-- `l` copied over the front of `a`; what lies behind it stays. -/
def overwrite {n : Nat} (a : Octets n) (l : Bytes) (h : l.length ≤ n) : Octets n :=
  ⟨l ++ a.bytes.drop l.length, by simp; omega⟩

theorem take_overwrite {n : Nat} (a : Octets n) (l : Bytes) (h : l.length ≤ n) :
    (a.overwrite l h).bytes.take l.length = l := by
  simp [overwrite]

theorem get_of_take {n m i : Nat} {a b : Octets n}
    (h : a.bytes.take m = b.bytes.take m) (hi : i < m) : a.get i = b.get i := by
  have e := congrArg (fun l => l.getD i 0) h
  simpa [get, List.getD_eq_getElem?_getD, List.getElem?_take, hi] using e

theorem drop_take_of_take {n m off k : Nat} {a b : Octets n}
    (h : a.bytes.take m = b.bytes.take m) (hk : off + k ≤ m) :
    (a.bytes.drop off).take k = (b.bytes.drop off).take k := by
  have e := congrArg (fun l => (l.drop off).take k) h
  have hmin : min k (m - off) = k := by omega
  simpa [List.drop_take, List.take_take, hmin] using e

theorem slice_of_take {n m off k : Nat} {a b : Octets n}
    (h : a.bytes.take m = b.bytes.take m) (hk : off + k ≤ m) (hn : off + k ≤ n) :
    a.slice off k hn = b.slice off k hn := by
  ext1
  exact drop_take_of_take h hk

/-- What the first `m` bytes hold of a field. -/
theorem take_slice_of_take {n m off k : Nat} {a b : Octets n}
    (h : a.bytes.take m = b.bytes.take m) (hn : off + k ≤ n) :
    (a.slice off k hn).bytes.take (m - off) = (b.slice off k hn).bytes.take (m - off) := by
  simp only [slice, List.take_take]
  rcases le_total off m with hle | hle
  · exact drop_take_of_take h (by omega)
  · simp [Nat.sub_eq_zero_of_le hle]

theorem get_of_drop {n m i : Nat} {a b : Octets n}
    (h : a.bytes.drop m = b.bytes.drop m) (hi : m ≤ i) : a.get i = b.get i := by
  have e := congrArg (fun l => l.getD (i - m) 0) h
  simpa [get, List.getD_eq_getElem?_getD, List.getElem?_drop, Nat.add_sub_cancel' hi] using e

/-! ### Replacing bytes -/

theorem get_eq_getElem {n i : Nat} (a : Octets n) (h : i < a.bytes.length) :
    a.get i = a.bytes[i] := by
  rw [get, List.getD_eq_getElem?_getD, List.getElem?_eq_getElem h, Option.getD_some]

theorem ext_get {n : Nat} {a b : Octets n} (h : ∀ i < n, a.get i = b.get i) : a = b := by
  ext1
  apply List.ext_getElem (by simp)
  intro i hi hi'
  have e := h i (by simpa using hi)
  rwa [get_eq_getElem a hi, get_eq_getElem b hi'] at e

theorem take_eq_iff {n k : Nat} {a b : Octets n} :
    a.bytes.take k = b.bytes.take k ↔ ∀ i < k, a.get i = b.get i := by
  constructor
  · intro h i hi
    exact get_of_take h hi
  · intro h
    apply List.ext_getElem (by simp)
    intro i hi hi'
    simp only [List.length_take] at hi hi'
    have e := h i (by omega)
    rw [get_eq_getElem a (by omega), get_eq_getElem b (by omega)] at e
    simpa using e

theorem get_slice {n off k i : Nat} (a : Octets n) (h : off + k ≤ n) (hi : i < k) :
    (a.slice off k h).get i = a.get (off + i) := by
  simp [slice, get, List.getD_eq_getElem?_getD, hi]

/-- The last byte of an array is its most significant one. -/
theorem value_eq_last {k : Nat} (a : Octets (k + 1)) :
    a.value = Bytes.value (a.bytes.take k) + 256 ^ k * (a.get k).toNat := by
  have hk : k < a.bytes.length := by simp
  have hsplit : a.bytes = a.bytes.take k ++ [a.get k] := by
    rw [get_eq_getElem a hk, List.take_append_getElem hk, List.take_of_length_le (by simp)]
  calc a.value = Bytes.value (a.bytes.take k ++ [a.get k]) := by rw [value, ← hsplit]
    _ = Bytes.value (a.bytes.take k) + 256 ^ k * (a.get k).toNat := by
      rw [Bytes.value_append]
      simp

/-- `l` in place of the bytes of `a` from offset `off` on. -/
def put {n : Nat} (a : Octets n) (off : Nat) (l : Bytes) (h : off + l.length ≤ n) : Octets n :=
  ⟨a.bytes.take off ++ l ++ a.bytes.drop (off + l.length), by simp; omega⟩

theorem get_put {n off : Nat} (a : Octets n) (l : Bytes) (h : off + l.length ≤ n) (i : Nat) :
    (a.put off l h).get i =
      if off ≤ i ∧ i < off + l.length then l.getD (i - off) 0 else a.get i := by
  have hlen : (a.bytes.take off).length = off := by simp; omega
  simp only [put, get, List.getD_eq_getElem?_getD, List.append_assoc]
  by_cases hlo : off ≤ i
  · rw [List.getElem?_append_right (by omega), hlen]
    by_cases hhi : i < off + l.length
    · rw [List.getElem?_append_left (by omega), if_pos ⟨hlo, hhi⟩]
    · rw [List.getElem?_append_right (by omega), List.getElem?_drop, if_neg (by omega),
        show off + l.length + (i - off - l.length) = i by omega]
  · rw [List.getElem?_append_left (by omega), List.getElem?_take, if_pos (by omega),
      if_neg (by omega)]

theorem slice_put {n off k : Nat} (a : Octets n) (l : Octets k) (h : off + k ≤ n) :
    (a.put off l.bytes (by simpa using h)).slice off k h = l := by
  apply ext_get
  intro i hi
  rw [get_slice _ h hi, get_put, if_pos (by simp; omega), Nat.add_sub_cancel_left]
  rfl

/-- What is put behind the first `k` bytes, or agrees with them, leaves them. -/
theorem take_put {n off k : Nat} (a : Octets n) (l : Bytes) (h : off + l.length ≤ n)
    (hl : ∀ i < l.length, off + i < k → l.getD i 0 = a.get (off + i)) :
    (a.put off l h).bytes.take k = a.bytes.take k := by
  rw [take_eq_iff]
  intro i hi
  rw [get_put]
  split
  · rename_i hin
    rw [hl (i - off) (by omega) (by omega), show off + (i - off) = i by omega]
  · rfl

/-- A byte can be changed behind any `k` bytes that are kept. -/
theorem exists_set {n i : Nat} (a : Octets n) (hi : i < n) (x : UInt8) :
    ∃ b : Octets n, b.get i = x ∧ (∀ j, j ≠ i → b.get j = a.get j) ∧
      ∀ k ≤ i, b.bytes.take k = a.bytes.take k := by
  refine ⟨a.put i [x] (by simpa using hi), ?_, ?_, ?_⟩
  · rw [get_put, if_pos (by simp), Nat.sub_self]
    rfl
  · intro j hj
    rw [get_put, if_neg (by simp; omega)]
  · intro k hk
    exact take_put a _ _ fun j _ hlt => by omega

/-- A field can be set to any value that agrees with the bytes to be kept. -/
theorem exists_field {n off k : Nat} (a : Octets n) (l : Octets k) (h : off + k ≤ n) :
    ∃ b : Octets n, b.slice off k h = l ∧
      ∀ m, l.bytes.take (m - off) = (a.slice off k h).bytes.take (m - off) →
        b.bytes.take m = a.bytes.take m := by
  refine ⟨a.put off l.bytes (by simpa using h), slice_put a l h, fun m hm => ?_⟩
  apply take_put
  intro i hi hlt
  simp only [length_bytes] at hi
  have e := get_of_take hm (show i < m - off by omega)
  rwa [get_slice a h hi] at e

end Octets
