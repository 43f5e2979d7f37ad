import Mathlib

/-!
# Clamped and floating-point numbers

* `clamp`: a value brought between two bounds;
* `Single`: the values of a single-precision number, finite ones being read as
  rationals, with the comparisons of the hardware (nothing compares with a NaN);
* `lround`: rounding to the nearest integer, away from zero in the middle.
-/

section Clamp

variable {α : Type*} [LinearOrder α]

/-- `v`, or the bound it passes. -/
def clamp (v lo hi : α) : α := if v < lo then lo else if hi < v then hi else v

variable {v lo hi : α}

theorem clamp_of_mem (h₁ : lo ≤ v) (h₂ : v ≤ hi) : clamp v lo hi = v := by
  rw [clamp, if_neg h₁.not_gt, if_neg h₂.not_gt]

theorem le_clamp (h : lo ≤ hi) : lo ≤ clamp v lo hi := by
  rw [clamp]
  split_ifs with h₁ h₂
  exacts [le_rfl, h, not_lt.1 h₁]

theorem clamp_le (h : lo ≤ hi) : clamp v lo hi ≤ hi := by
  rw [clamp]
  split_ifs with h₁ h₂
  exacts [h, le_rfl, not_lt.1 h₂]

theorem clamp_clamp (h : lo ≤ hi) : clamp (clamp v lo hi) lo hi = clamp v lo hi :=
  clamp_of_mem (le_clamp h) (clamp_le h)

/-- Raising a value to the lower bound first does not change what it is clamped to. -/
theorem clamp_max_left (h : lo ≤ hi) : clamp (max lo v) lo hi = clamp v lo hi := by
  rcases le_total lo v with hv | hv
  · rw [max_eq_right hv]
  · rw [max_eq_left hv, clamp_of_mem le_rfl h]
    rcases hv.lt_or_eq with hv | rfl
    · rw [clamp, if_pos hv]
    · rw [clamp_of_mem le_rfl h]

end Clamp

/-- A single-precision number: finite, and read as a rational (both zeros as
    `0`), or not. -/
inductive Single
  | finite (q : ℚ)
  | posInf
  | negInf
  | nan
  deriving DecidableEq

namespace Single

/-- The value is neither infinite nor not a number. -/
def IsFinite : Single → Prop
  | finite _ => True
  | _ => False

instance : DecidablePred IsFinite
  | finite _ => .isTrue trivial
  | posInf | negInf | nan => .isFalse not_false

/-- The value of a finite number. -/
def value : Single → ℚ
  | finite q => q
  | _ => 0

@[simp] theorem isFinite_finite (q : ℚ) : (finite q).IsFinite := trivial
@[simp] theorem value_finite (q : ℚ) : (finite q).value = q := rfl

theorem IsFinite.eq {x : Single} (h : x.IsFinite) : x = finite x.value := by
  cases x with
  | finite q => rfl
  | posInf | negInf | nan => exact h.elim

/-- The order `<` of the hardware. -/
def lt : Single → Single → Bool
  | finite p, finite q => p < q
  | negInf, finite _ | negInf, posInf | finite _, posInf => true
  | _, _ => false

/-- The equality `==` of the hardware. -/
def beq : Single → Single → Bool
  | nan, _ => false
  | x, y => x = y

/-- The larger of two numbers, the first one if they do not compare. -/
def max (x y : Single) : Single := if x.lt y then y else x

theorem max_finite (p q : ℚ) : (finite p).max (finite q) = finite (Max.max p q) := by
  rw [max, lt]
  rcases lt_or_ge p q with h | h
  · rw [if_pos (decide_eq_true h), max_eq_right h.le]
  · rw [if_neg (by simpa using h), max_eq_left h]

@[simp] theorem beq_self_of_isFinite {x : Single} (h : x.IsFinite) : x.beq x := by
  rw [h.eq]
  exact decide_eq_true rfl

/-- The number of a bit pattern. -/
def ofBits (bits : UInt32) : Single :=
  let exponent := (bits >>> 23 &&& 0xFF).toNat
  let fraction := (bits &&& 0x7FFFFF).toNat
  let signed (q : ℚ) := if bits >>> 31 = 0 then q else -q
  if exponent = 255 then
    if fraction ≠ 0 then nan else if bits >>> 31 = 0 then posInf else negInf
  else if exponent = 0 then finite (signed (fraction / 2 ^ 149))
  else finite (signed ((2 ^ 23 + fraction) * 2 ^ ((exponent : ℤ) - 150)))

example : ofBits 0xC1200000 = finite (-10) := by decide +kernel

end Single

/-- The nearest integer, away from zero in the middle. -/
def lround (q : ℚ) : ℤ := if 0 ≤ q then ⌊q + 1 / 2⌋ else -⌊-q + 1 / 2⌋

@[simp] theorem lround_intCast (n : ℤ) : lround n = n := by
  have h (m : ℤ) : ⌊(m : ℚ) + 1 / 2⌋ = m := by
    rw [Int.floor_eq_iff]
    constructor <;> linarith
  rw [lround]
  split_ifs
  · exact h n
  · rw [← Int.cast_neg, h, neg_neg]

/-- Rounding adds at most a half. -/
theorem lround_le (q : ℚ) : (lround q : ℚ) ≤ q + 1 / 2 := by
  rw [lround]
  split_ifs
  · exact Int.floor_le _
  · have := Int.lt_floor_add_one (-q + 1 / 2)
    push_cast
    linarith
