import Mpool.Common.Util

/-! `StringConvert.h`: `StringTo` for integers in base 10 and for `bool`. -/

namespace Mpool

def isDigit (c : UInt8) : Bool := 48 ≤ c && c ≤ 57

/-- The number a string of decimal digits denotes. -/
def decimal (str : Bytes) : Nat := str.foldl (fun n c => 10 * n + (c.toNat - 48)) 0

/-- `StringTo<T>` for an unsigned `T` of `bits` bits: `from_chars` takes digits
only, and all of the string has to be taken. -/
def stringTo (bits : Nat) (str : Bytes) : Option Nat :=
  if str ≠ [] ∧ str.all isDigit ∧ decimal str < 2 ^ bits then some (decimal str) else none

/-- `StringTo<T>` for a signed `T` of `bits` bits. -/
def stringToSigned (bits : Nat) : Bytes → Option Int
  | 45 :: digits =>
    if digits ≠ [] ∧ digits.all isDigit ∧ decimal digits ≤ 2 ^ (bits - 1) then
      some (-(decimal digits : Int)) else none
  | digits =>
    if digits ≠ [] ∧ digits.all isDigit ∧ decimal digits < 2 ^ (bits - 1) then
      some (decimal digits) else none

open Util (text stringEqualI) in
/-- `StringTo<bool>`, which is not strict by default. -/
def stringToBool (str : Bytes) : Option Bool :=
  if str = text "1" || stringEqualI str (text "y") || stringEqualI str (text "on") ||
      stringEqualI str (text "yes") || stringEqualI str (text "true") then some true
  else if str = text "0" || stringEqualI str (text "n") || stringEqualI str (text "off") ||
      stringEqualI str (text "no") || stringEqualI str (text "false") then some false
  else none

end Mpool
