import Mathlib

/-!
# Rounding in two steps

Truncating to a multiple of `1 / n` before rounding does not change the result,
when the rounding offset is itself such a multiple.
-/

variable {k : Type*} [Field k] [LinearOrder k] [IsStrictOrderedRing k] [FloorRing k]

/-- Scaling by `n`, truncating, adding `h` and dividing by `n` rounds `x` with
    the offset `h / n`: the intermediate truncation is harmless. -/
theorem floor_mul_add_ediv (x : k) {n : ℕ} (hn : n ≠ 0) (h : ℤ) :
    (⌊x * n⌋ + h) / n = ⌊x + h / n⌋ := by
  have hn' : (n : k) ≠ 0 := Nat.cast_ne_zero.2 hn
  calc (⌊x * n⌋ + h) / (n : ℤ) = ⌊(x + h / n) * n⌋ / n := by
        rw [← Int.floor_add_intCast, add_mul, div_mul_cancel₀ _ hn']
    _ = ⌊x + h / n⌋ := Int.mul_natCast_floor_div_cancel hn _

/-- The truncated quotient of two natural numbers is the floor of the exact one. -/
theorem natCast_div_eq_floor (a b : ℕ) : ((a / b : ℕ) : ℤ) = ⌊(a : ℚ) / b⌋ :=
  (Rat.floor_natCast_div_natCast a b).symm
