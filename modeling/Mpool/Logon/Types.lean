import Mpool.Lib.Bytes

/-! `types.h`: the four packed packets of the login. Client packets are read in
place from the connection buffer, so each has its field offsets, every one the
previous offset plus the previous field's width; server packets are built as
structures and laid out by `encode`. -/

namespace Mpool.Logon

def AUTH_LOGON_CHALLENGE : UInt8 := 0x00
def AUTH_LOGON_PROOF : UInt8 := 0x01

def WOW_SUCCESS : UInt8 := 0x00
def WOW_FAIL_UNKNOWN_ACCOUNT : UInt8 := 0x04
def WOW_FAIL_VERSION_INVALID : UInt8 := 0x09

def AUTH_LOGON_CHALLENGE_INITIAL_SIZE : Nat := 4

/-- `char buff[1024]`. -/
abbrev Buffer := Octets 1024

/-! ## `sAuthLogonChallenge_C` -/

namespace AuthLogonChallengeC

def cmd : Nat := 0
def error : Nat := cmd + 1
def size : Nat := error + 1
def gamename : Nat := size + 2
def version1 : Nat := gamename + 4
def version2 : Nat := version1 + 1
def version3 : Nat := version2 + 1
def build : Nat := version3 + 1
def platform : Nat := build + 2
def os : Nat := platform + 4
def country : Nat := os + 4
def timezone_bias : Nat := country + 4
def ip : Nat := timezone_bias + 4
def I_len : Nat := ip + 4
def I : Nat := I_len + 1
def sizeof : Nat := I + 1

/-- The body length the packet declares, a little-endian `uint16`. -/
def sizeOf (buff : Buffer) : Nat := (buff.get size).toNat + 256 * (buff.get (size + 1)).toNat

def nameLen (buff : Buffer) : Nat := (buff.get I_len).toNat

def osOf (buff : Buffer) : Octets 4 := buff.slice os 4 (by decide)

def countryOf (buff : Buffer) : Octets 4 := buff.slice country 4 (by decide)

/-- `std::string login((char const*)challenge->I, challenge->I_len)`. -/
def login (buff : Buffer) : Bytes := (buff.bytes.drop I).take (nameLen buff)

/-- The test of the handler, in the `size_t` arithmetic it is made in. -/
def sizeMismatch (buff : Buffer) : Bool :=
  (sizeOf buff + 2 ^ 64 - (sizeof - AUTH_LOGON_CHALLENGE_INITIAL_SIZE - 1)) % 2 ^ 64 ≠
    nameLen buff

theorem sizeMismatch_eq_false_iff (buff : Buffer) :
    sizeMismatch buff = false ↔ sizeOf buff = nameLen buff + 30 := by
  have hlo := (buff.get size).toNat_lt
  have hhi := (buff.get (size + 1)).toNat_lt
  have hlen := (buff.get I_len).toNat_lt
  have hsub : sizeof - AUTH_LOGON_CHALLENGE_INITIAL_SIZE - 1 = 30 := rfl
  simp only [sizeMismatch, hsub, ne_eq, decide_not, Bool.not_eq_false', decide_eq_true_eq]
  simp only [sizeOf, nameLen] at *
  omega

end AuthLogonChallengeC

/-! ## `sAuthLogonProof_C` -/

namespace AuthLogonProofC

def cmd : Nat := 0
def A : Nat := cmd + 1
def M1 : Nat := A + 32
def crc_hash : Nat := M1 + 20
def num_of_keys : Nat := crc_hash + 20
def security_Falgs : Nat := num_of_keys + 1
def sizeof : Nat := security_Falgs + 1

def AOf (buff : Buffer) : Octets 32 := buff.slice A 32 (by decide)
def M1Of (buff : Buffer) : Octets 20 := buff.slice M1 20 (by decide)
def crcOf (buff : Buffer) : Octets 20 := buff.slice crc_hash 20 (by decide)

end AuthLogonProofC

/-! ## Server packets -/

structure AuthLogonChallengeS where
  cmd : UInt8
  unk2 : UInt8
  error : UInt8
  B : Octets 32
  g_len : UInt8
  g : Octets 1
  N_len : UInt8
  N : Octets 32
  s : Octets 32
  unk3 : Octets 16
  securityFlags : UInt8

def AuthLogonChallengeS.encode (p : AuthLogonChallengeS) : Bytes :=
  [p.cmd, p.unk2, p.error] ++ p.B.bytes ++ [p.g_len] ++ p.g.bytes ++ [p.N_len] ++ p.N.bytes ++
    p.s.bytes ++ p.unk3.bytes ++ [p.securityFlags]

@[simp] theorem AuthLogonChallengeS.length_encode (p : AuthLogonChallengeS) :
    p.encode.length = 119 := by simp [encode]

structure AuthLogonProofS where
  cmd : UInt8
  error : UInt8
  M2 : Octets 20
  accountFlags : Octets 4
  surveyId : Octets 4
  unkFlags : Octets 2

def AuthLogonProofS.encode (p : AuthLogonProofS) : Bytes :=
  [p.cmd, p.error] ++ p.M2.bytes ++ p.accountFlags.bytes ++ p.surveyId.bytes ++ p.unkFlags.bytes

@[simp] theorem AuthLogonProofS.length_encode (p : AuthLogonProofS) : p.encode.length = 32 := by
  simp [encode]

/-- `strncpy(dst, src, n)` between two arrays of `n` bytes: what stands before
the first zero byte of `src`, and zeros behind it. -/
def strncpy {n : Nat} (src : Octets n) : Octets n :=
  ⟨src.bytes.takeWhile (· ≠ 0) ++
      List.replicate (n - (src.bytes.takeWhile (· ≠ 0)).length) 0, by
    have h := (List.takeWhile_prefix (l := src.bytes) (· ≠ 0)).length_le
    simp only [Octets.length_bytes] at h
    simp only [List.length_append, List.length_replicate]
    omega⟩

end Mpool.Logon
