import Mathlib.Algebra.Group.Nat.Defs
import Mathlib.Tactic.Common

/-! Arithmetic of `u64` that stops at its bounds. -/

namespace Saturating

def add (a b : UInt64) : UInt64 :=
  if a.toNat + b.toNat < 2 ^ 64 then a + b else UInt64.ofNat (2 ^ 64 - 1)

def sub (a b : UInt64) : UInt64 := if b ≤ a then a - b else 0

@[simp] theorem add_toNat (a b : UInt64) :
    (add a b).toNat = min (a.toNat + b.toNat) (2 ^ 64 - 1) := by
  unfold add
  split
  · rename_i h
    rw [UInt64.toNat_add, Nat.mod_eq_of_lt h]
    omega
  · rw [UInt64.toNat_ofNat']
    omega

@[simp] theorem sub_toNat (a b : UInt64) : (sub a b).toNat = a.toNat - b.toNat := by
  unfold sub
  split
  · rename_i h
    exact UInt64.toNat_sub_of_le a b h
  · rename_i h
    rw [UInt64.le_iff_toNat_le] at h
    rw [UInt64.toNat_zero]
    omega

theorem add_ne_zero {a : UInt64} (h : a ≠ 0) (b : UInt64) : add a b ≠ 0 := by
  intro hadd
  have hnat := congrArg UInt64.toNat hadd
  have ha : a.toNat ≠ 0 := fun h0 => h (UInt64.toNat_inj.mp h0)
  rw [add_toNat, UInt64.toNat_zero] at hnat
  omega

end Saturating
