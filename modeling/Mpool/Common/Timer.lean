import Mathlib.Algebra.Ring.Nat

/-! `Timer.h`: differences of clock readings, on `Milliseconds` and on the 32-bit counter
of `getMSTime`. -/

namespace Mpool.Timer

/-- `GetMSTimeDiff` on `Milliseconds`. -/
def GetMSTimeDiff (oldMSTime newMSTime : Nat) : Nat :=
  if oldMSTime > newMSTime then oldMSTime - newMSTime else newMSTime - oldMSTime

/-- `getMSTime` at `t` milliseconds. -/
def getMSTime (t : Nat) : UInt32 := UInt32.ofNat t

def getMSTimeDiff (oldMSTime newMSTime : UInt32) : UInt32 :=
  if oldMSTime > newMSTime then (0xFFFFFFFF - oldMSTime) + newMSTime else newMSTime - oldMSTime

/-- Between readings in one round of the counter the difference is exact; where the
counter wraps in between, one millisecond is missing. -/
theorem getMSTimeDiff_toNat {t t' : Nat} (h : t ≤ t') (hspan : t' - t < 2 ^ 32) :
    (getMSTimeDiff (getMSTime t) (getMSTime t')).toNat =
      if t / 2 ^ 32 = t' / 2 ^ 32 then t' - t else t' - t - 1 := by
  have hold : (getMSTime t).toNat = t % 2 ^ 32 := UInt32.toNat_ofNat'
  have hnew : (getMSTime t').toNat = t' % 2 ^ 32 := UInt32.toNat_ofNat'
  have hlast : (0xFFFFFFFF : UInt32).toNat = 2 ^ 32 - 1 := rfl
  rw [getMSTimeDiff]
  by_cases hwrap : getMSTime t > getMSTime t'
  · have hlt : t' % 2 ^ 32 < t % 2 ^ 32 := by
      rw [← hold, ← hnew]
      exact UInt32.lt_iff_toNat_lt.mp hwrap
    have hle : getMSTime t ≤ 0xFFFFFFFF := by
      rw [UInt32.le_iff_toNat_le, hold, hlast]
      omega
    rw [if_pos hwrap, if_neg (by omega), UInt32.toNat_add, UInt32.toNat_sub_of_le _ _ hle, hold,
      hnew, hlast]
    omega
  · have hle : t % 2 ^ 32 ≤ t' % 2 ^ 32 := by
      rw [← hold, ← hnew]
      exact Nat.le_of_not_lt fun hlt => hwrap (UInt32.lt_iff_toNat_lt.mpr hlt)
    have hle' : getMSTime t ≤ getMSTime t' := by
      rw [UInt32.le_iff_toNat_le, hold, hnew]
      exact hle
    rw [if_neg hwrap, if_pos (by omega), UInt32.toNat_sub_of_le _ _ hle', hold, hnew]
    omega

/-- The difference is that of the clock exactly between readings in one round of the
counter. Differences add up in any case: the millisecond is missing on both sides. -/
theorem elapsed_iff {a b c : Nat} (hab : a ≤ b) (hbc : b ≤ c) (hspan : c - a < 2 ^ 32) :
    ((getMSTimeDiff (getMSTime a) (getMSTime b)).toNat = b - a ↔ a / 2 ^ 32 = b / 2 ^ 32) ∧
      getMSTimeDiff (getMSTime a) (getMSTime b) + getMSTimeDiff (getMSTime b) (getMSTime c) =
        getMSTimeDiff (getMSTime a) (getMSTime c) := by
  have hfirst := getMSTimeDiff_toNat hab (by omega)
  have hsecond := getMSTimeDiff_toNat hbc (by omega)
  have hwhole := getMSTimeDiff_toNat (Nat.le_trans hab hbc) hspan
  constructor
  · rw [hfirst]
    split <;> omega
  · apply UInt32.toNat_inj.mp
    rw [UInt32.toNat_add, hfirst, hsecond, hwhole]
    split <;> split <;> split <;> omega

theorem elapsed_iff_wrapped :
    ((getMSTimeDiff (getMSTime (2 ^ 32 - 5)) (getMSTime (2 ^ 32 + 5))).toNat =
        (2 ^ 32 + 5) - (2 ^ 32 - 5) ↔ (2 ^ 32 - 5) / 2 ^ 32 = (2 ^ 32 + 5) / 2 ^ 32) ∧
      getMSTimeDiff (getMSTime (2 ^ 32 - 5)) (getMSTime (2 ^ 32 + 5)) +
          getMSTimeDiff (getMSTime (2 ^ 32 + 5)) (getMSTime (2 ^ 32 + 7)) =
        getMSTimeDiff (getMSTime (2 ^ 32 - 5)) (getMSTime (2 ^ 32 + 7)) :=
  elapsed_iff (by decide) (by decide) (by decide)

/-- Ten milliseconds over the end of a round are taken for nine. -/
theorem wrapped_millisecond_lost :
    (getMSTimeDiff (getMSTime (2 ^ 32 - 5)) (getMSTime (2 ^ 32 + 5))).toNat = 9 ∧
      (2 ^ 32 + 5) - (2 ^ 32 - 5) = 10 := by
  decide

end Mpool.Timer
