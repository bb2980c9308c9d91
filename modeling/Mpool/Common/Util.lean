import Mpool.Lib.Bytes

/-! `Util.cpp`: decoding of hexadecimal strings. A `std::string` is the list of
its bytes; `text` gives the bytes of an ASCII literal. -/

namespace Mpool.Util

def text (s : String) : Bytes := s.toList.map fun c => UInt8.ofNat c.toNat

def isSpace (c : UInt8) : Bool := c = 32 || (9 ≤ c && c ≤ 13)

def hexDigit (c : UInt8) : Option Nat :=
  if 48 ≤ c ∧ c ≤ 57 then some (c.toNat - 48)
  else if 65 ≤ c ∧ c ≤ 70 then some (c.toNat - 55)
  else if 97 ≤ c ∧ c ≤ 102 then some (c.toNat - 87)
  else none

def hexDigits (acc : Nat) : Bytes → Nat
  | [] => acc
  | c :: s =>
    match hexDigit c with
    | some d => hexDigits (16 * acc + d) s
    | none => acc

/-- `strtoul(s, nullptr, 16)` on at most two characters: blanks, a sign, digits
up to the first other character. In so short a string a `0x` prefix is the
digit 0 followed by another character. -/
def strtoul16 (s : Bytes) : Nat :=
  match s.dropWhile isSpace with
  | 45 :: r => (2 ^ 64 - hexDigits 0 r) % 2 ^ 64
  | 43 :: r => hexDigits 0 r
  | r => hexDigits 0 r

def hexByte (str : Bytes) (i : Int) : UInt8 :=
  UInt8.ofNat (strtoul16 [str.getD i.toNat 0, str.getD (i + 1).toNat 0])

/-- `for (i = init; i != end; i += 2 * op)`, one output byte a pass. -/
def hexLoop (str : Bytes) (stop op : Int) : Nat → Int → Bytes
  | 0, _ => []
  | fuel + 1, i =>
    if i = stop then [] else hexByte str i :: hexLoop str stop op fuel (i + 2 * op)

theorem hexLoop_length (str : Bytes) (stop op : Int) (hop : op ≠ 0) (k f : Nat) :
    (hexLoop str stop op (k + f) (stop - 2 * op * k)).length = k := by
  induction k with
  | zero => cases f <;> simp [hexLoop]
  | succ k ih =>
    have hne : stop - 2 * op * (k + 1 : Nat) ≠ stop := by
      have : 2 * op * ((k + 1 : Nat) : Int) ≠ 0 := by
        simp only [ne_eq, mul_eq_zero, hop, or_false, Nat.cast_eq_zero]
        omega
      omega
    have hnext : stop - 2 * op * ((k + 1 : Nat) : Int) + 2 * op = stop - 2 * op * k := by
      push_cast
      ring
    rw [show k + 1 + f = (k + f) + 1 by omega, hexLoop, if_neg hne, hnext,
      List.length_cons, ih]

def hexInit (len : Nat) (reverse : Bool) : Int := if reverse then len - 2 else 0
def hexEnd (len : Nat) (reverse : Bool) : Int := if reverse then -2 else len
def hexOp (reverse : Bool) : Int := if reverse then -1 else 1

/-- The bytes the loop writes to `out[0 ..]`. -/
def hexBytes (str : Bytes) (reverse : Bool) : Bytes :=
  hexLoop str (hexEnd str.length reverse) (hexOp reverse) (str.length + 1)
    (hexInit str.length reverse)

theorem hexBytes_length (str : Bytes) (n : Nat) (reverse : Bool) (h : str.length = 2 * n) :
    (hexBytes str reverse).length = n := by
  have hop : hexOp reverse ≠ 0 := by cases reverse <;> decide
  have hinit : hexInit str.length reverse =
      hexEnd str.length reverse - 2 * hexOp reverse * n := by
    cases reverse with
    | false =>
      simp [hexInit, hexEnd, hexOp, h]
    | true =>
      simp [hexInit, hexEnd, hexOp, h]
      omega
  have hfuel : str.length + 1 = n + (n + 1) := by omega
  rw [hexBytes, hinit, hfuel]
  exact hexLoop_length _ _ _ hop _ _

/-- `none` is the failed `ASSERT(str.size() == 2 * outlen)`. -/
def hexStrToByteArray (n : Nat) (str : Bytes) (reverse : Bool) : Option (Octets n) :=
  if h : str.length = 2 * n then some ⟨hexBytes str reverse, hexBytes_length str n reverse h⟩
  else none

/-- `std::tolower` in the locale a program starts with. -/
def toLower (c : UInt8) : UInt8 := if 65 ≤ c ∧ c ≤ 90 then c + 32 else c

def stringEqualI (a b : Bytes) : Bool := a.map toLower = b.map toLower

end Mpool.Util
