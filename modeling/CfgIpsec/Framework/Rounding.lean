import Mathlib.Algebra.Ring.Nat
import Mathlib.Data.Nat.Size

/-!
# Rounding to significant bits

A number has `p` bits when it is a multiple of a power of two by a factor below
`2 ^ p`: the integers of a floating-point format of that precision. The others
are rounded to the nearest, ties to even; `roundEven_eq_self_iff` says which
are not.
-/

namespace CfgIpsec.Rounding

/-- `x` has at most `p` significant bits. -/
def HasBits (p x : Nat) : Prop := ∃ m e, m < 2 ^ p ∧ x = m * 2 ^ e

/-- The bits of `x` below its `p` leading ones. -/
def excess (p x : Nat) : Nat := x.size - p

/-- `x` rounded to `p` significant bits, to nearest, ties to even. -/
def roundEven (p x : Nat) : Nat :=
  let unit := 2 ^ excess p x
  let q := x / unit
  let r := x % unit
  if 2 * r < unit ∨ 2 * r = unit ∧ q % 2 = 0 then q * unit else (q + 1) * unit

variable {p x : Nat}

theorem div_excess_lt (p x : Nat) : x / 2 ^ excess p x < 2 ^ p := by
  rw [Nat.div_lt_iff_lt_mul (Nat.two_pow_pos _), ← Nat.pow_add, ← Nat.size_le, excess]
  omega

theorem hasBits_iff_dvd : HasBits p x ↔ 2 ^ excess p x ∣ x := by
  constructor
  · rintro ⟨m, e, hm, rfl⟩
    have hsize : (m * 2 ^ e).size ≤ p + e := by
      rw [Nat.size_le, Nat.pow_add]
      exact Nat.mul_lt_mul_of_pos_right hm (Nat.two_pow_pos e)
    have he : excess p (m * 2 ^ e) ≤ e := by rw [excess]; omega
    exact Nat.dvd_trans (Nat.pow_dvd_pow 2 he) (Nat.dvd_mul_left _ m)
  · intro h
    exact ⟨_, _, div_excess_lt p x, (Nat.div_mul_cancel h).symm⟩

/-- The numbers that rounding keeps are those that have no more bits. -/
theorem roundEven_eq_self_iff : roundEven p x = x ↔ HasBits p x := by
  rw [hasBits_iff_dvd, Nat.dvd_iff_mod_eq_zero]
  have hunit := Nat.two_pow_pos (excess p x)
  have hx := Nat.div_add_mod' x (2 ^ excess p x)
  have hr := Nat.mod_lt x hunit
  rw [roundEven]
  split
  · omega
  · -- A number that is rounded up is not a multiple of the unit.
    rw [Nat.add_mul]
    omega

instance : Decidable (HasBits p x) := decidable_of_iff (roundEven p x = x) roundEven_eq_self_iff

end CfgIpsec.Rounding
