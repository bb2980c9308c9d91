import Mpool.Lib.Bytes

/-! `BigNumber.cpp` on the numbers the logon server builds. They come from
unsigned words and byte arrays through `+`, `*`, `%` and `ModExp`, so none is
negative and a natural number holds each of them exactly. -/

namespace Mpool

abbrev BigNumber := Nat

namespace BigNumber

/-- `BigNumber(std::array<uint8, n> const&)`, little endian by default. -/
def ofArray {n : Nat} (bytes : Octets n) : BigNumber := bytes.value

def modExp (a e m : BigNumber) : BigNumber := a ^ e % m

/-- `ToByteArray<n>()`; `none` is the failed `ASSERT` on a value that does not
fit in `n` bytes. -/
def toByteArray (n : Nat) (a : BigNumber) : Option (Octets n) :=
  if a < 256 ^ n then some (Octets.encode n a) else none

theorem toByteArray_of_lt {n a : Nat} (h : a < 256 ^ n) :
    toByteArray n a = some (Octets.encode n a) := if_pos h

end BigNumber

end Mpool
