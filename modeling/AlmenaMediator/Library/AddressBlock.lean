import Mathlib.Data.Nat.Bitwise
import Mathlib.Tactic.Ring

/-!
# Blocks of addresses

An address of `width` bits is a number, and a block `base/len` holds the addresses whose first `len`
bits are those of `base`. Code tests for a block with a mask; `and_mask_eq_iff` says that the test
is right.
-/

namespace AddressBlock

/-- The address is in the block `base/len`. -/
def InBlock (width base len n : ℕ) : Prop := n / 2 ^ (width - len) = base / 2 ^ (width - len)

instance (width base len n : ℕ) : Decidable (InBlock width base len n) :=
  inferInstanceAs (Decidable (_ = _))

/-- The mask with the first `len` of `width` bits set. -/
def mask (width len : ℕ) : ℕ := (2 ^ len - 1) * 2 ^ (width - len)

/-- Masking drops the bits after the first `len`. -/
theorem and_mask {width len n : ℕ} (hlen : len ≤ width) (hn : n < 2 ^ width) :
    n &&& mask width len = n / 2 ^ (width - len) * 2 ^ (width - len) := by
  have hpow : 2 ^ width = 2 ^ len * 2 ^ (width - len) := by rw [← pow_add, Nat.add_sub_cancel' hlen]
  have hhigh : n / 2 ^ (width - len) < 2 ^ len := by
    rw [Nat.div_lt_iff_lt_mul (Nat.two_pow_pos _), ← hpow]
    exact hn
  -- the quotient keeps all its bits, the remainder none
  have hdiv : (n &&& mask width len) / 2 ^ (width - len) = n / 2 ^ (width - len) := by
    rw [Nat.and_div_two_pow, mask, Nat.mul_div_cancel _ (Nat.two_pow_pos _),
      Nat.and_two_pow_sub_one_of_lt_two_pow hhigh]
  have hmod : (n &&& mask width len) % 2 ^ (width - len) = 0 := by
    rw [Nat.and_mod_two_pow, mask, Nat.mul_mod_left, Nat.and_zero]
  rw [← Nat.div_add_mod (n &&& mask width len) (2 ^ (width - len)), hdiv, hmod, Nat.mul_comm,
    Nat.add_zero]

/-- An address has the masked bits of `base` exactly when it is in the block. -/
theorem and_mask_eq_iff {width base len n : ℕ} (hlen : len ≤ width) (hn : n < 2 ^ width)
    (hbase : 2 ^ (width - len) ∣ base) :
    n &&& mask width len = base ↔ InBlock width base len n := by
  obtain ⟨high, rfl⟩ := hbase
  rw [and_mask hlen hn, InBlock, Nat.mul_div_cancel_left _ (Nat.two_pow_pos _), Nat.mul_comm,
    Nat.mul_right_inj (Nat.two_pow_pos _).ne']

end AddressBlock
