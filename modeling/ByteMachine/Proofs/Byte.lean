import Mathlib.Data.Nat.Bitwise

/-!
Bytes and the integers that stand for them.
-/

namespace ByteMachine

theorem byte_range (byte : UInt8) : (0 : Int) ≤ byte.toNat ∧ (byte.toNat : Int) ≤ 255 := by
  have := byte.toNat_lt
  omega

theorem toNat_eq_zero_iff (byte : UInt8) : byte.toNat = 0 ↔ byte = 0 := by
  rw [← UInt8.toNat_inj]
  rfl

theorem toNat_ofInt (n : Int) : ((UInt8.ofInt n).toNat : Int) = n % 256 := by
  have hn : 0 ≤ n % 256 ∧ n % 256 < 256 := by omega
  simp only [UInt8.ofInt, UInt8.toNat_ofNat', Nat.reducePow, Int.reducePow]
  omega

@[simp] theorem ofInt_toNat (byte : UInt8) : UInt8.ofInt (byte.toNat : Int) = byte := by
  apply UInt8.toNat_inj.mp
  have h := toNat_ofInt byte.toNat
  have hb := byte_range byte
  omega

theorem ofInt_natCast (n : Nat) : UInt8.ofInt n = .ofNat n := by
  apply UInt8.toNat_inj.mp
  have h := toNat_ofInt n
  rw [UInt8.toNat_ofNat']
  omega

theorem mod_and_byte (n : Nat) (mask : UInt8) : n % 256 &&& mask.toNat = n &&& mask.toNat := by
  have hm : mask.toNat % 2 ^ 8 = mask.toNat := Nat.mod_eq_of_lt mask.toNat_lt
  have hle : n &&& mask.toNat ≤ mask.toNat := Nat.and_le_right
  have hlt : n &&& mask.toNat < 2 ^ 8 := hle.trans_lt mask.toNat_lt
  have h := Nat.and_mod_two_pow (a := n) (b := mask.toNat) (n := 8)
  rw [hm, Nat.mod_eq_of_lt hlt] at h
  exact h.symm

end ByteMachine
