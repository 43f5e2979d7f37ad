import Mathlib

/-!
# Addresses in pages

An address of 64 bits in a page of `2 ^ s` bytes: the number of the page above
the bit `s`, the offset below it. Moving inside of the page changes the offset
only.

* `toNat_and_pageMask`: the offset of an address;
* `shiftRight_add`, `and_pageMask_add_ofNat`: moving inside of a page;
* `or_offset`, `or_and_pageMask`: a frame that is aligned, and an offset in it.
-/

/-- The bits of an address below the bit `s`. -/
def pageMask (s : ℕ) : UInt64 := UInt64.ofNat (2 ^ s - 1)

section Pages

variable {s t j : ℕ} {a frame offset : UInt64}

theorem toNat_pageMask (hs : s < 64) : (pageMask s).toNat = 2 ^ s - 1 := by
  rw [pageMask, UInt64.toNat_ofNat']
  have := Nat.pow_lt_pow_right (a := 2) Nat.one_lt_two hs
  exact Nat.mod_eq_of_lt (by omega)

theorem toNat_and_pageMask (hs : s < 64) (a : UInt64) :
    (a &&& pageMask s).toNat = a.toNat % 2 ^ s := by
  rw [UInt64.toNat_and, toNat_pageMask hs, Nat.and_two_pow_sub_one_eq_mod]

/-- The addresses of a page do not wrap, since a page ends where the next begins. -/
theorem toNat_add_of_offset (hs : s < 64) (hj : (a &&& pageMask s).toNat + j < 2 ^ s) :
    (a + UInt64.ofNat j).toNat = a.toNat + j := by
  rw [toNat_and_pageMask hs] at hj
  have hpages : 2 ^ s * (2 ^ (64 - s)) = 2 ^ 64 := by
    rw [← pow_add, Nat.add_sub_cancel' hs.le]
  have hpage : a.toNat / 2 ^ s < 2 ^ (64 - s) := by
    rw [Nat.div_lt_iff_lt_mul (Nat.two_pow_pos s), Nat.mul_comm, hpages]
    exact a.toNat_lt
  have hend : 2 ^ s * (a.toNat / 2 ^ s + 1) ≤ 2 ^ 64 :=
    hpages ▸ Nat.mul_le_mul_left _ (Nat.succ_le_of_lt hpage)
  have hsplit := Nat.div_add_mod a.toNat (2 ^ s)
  rw [Nat.mul_add, Nat.mul_one] at hend
  rw [UInt64.toNat_add, UInt64.toNat_ofNat', Nat.add_mod_mod]
  exact Nat.mod_eq_of_lt (by omega)

/-- The page of an address, and every larger one around it, has room for the offset. -/
theorem shiftRight_add (hs : s < 64) (hst : s ≤ t) (ht : t < 64)
    (hj : (a &&& pageMask s).toNat + j < 2 ^ s) :
    (a + UInt64.ofNat j) >>> UInt64.ofNat t = a >>> UInt64.ofNat t := by
  have hadd := toNat_add_of_offset hs hj
  rw [toNat_and_pageMask hs] at hj
  have hpage : (a.toNat + j) / 2 ^ s = a.toNat / 2 ^ s := by
    have hsplit := Nat.div_add_mod a.toNat (2 ^ s)
    rw [← hsplit, Nat.add_assoc, Nat.mul_add_div (Nat.two_pow_pos s), Nat.div_eq_of_lt hj,
      Nat.mul_add_div (Nat.two_pow_pos s), Nat.div_eq_of_lt (Nat.mod_lt _ (Nat.two_pow_pos s))]
  have hpow : 2 ^ t = 2 ^ s * 2 ^ (t - s) := by rw [← pow_add, Nat.add_sub_cancel' hst]
  refine UInt64.toNat.inj ?_
  rw [UInt64.toNat_shiftRight, UInt64.toNat_shiftRight, hadd, UInt64.toNat_ofNat',
    Nat.mod_eq_of_lt (ht.trans (by decide)), Nat.mod_eq_of_lt ht, Nat.shiftRight_eq_div_pow,
    Nat.shiftRight_eq_div_pow, hpow, ← Nat.div_div_eq_div_mul, ← Nat.div_div_eq_div_mul, hpage]

theorem and_pageMask_add (hs : s < 64) (hj : (a &&& pageMask s).toNat + j < 2 ^ s) :
    ((a + UInt64.ofNat j) &&& pageMask s).toNat = (a &&& pageMask s).toNat + j := by
  have hadd := toNat_add_of_offset hs hj
  rw [toNat_and_pageMask hs] at hj ⊢
  rw [toNat_and_pageMask hs, hadd, Nat.add_mod, Nat.mod_eq_of_lt (show j < 2 ^ s by omega),
    Nat.mod_eq_of_lt hj]

theorem and_pageMask_add_ofNat (hs : s < 64) (hj : (a &&& pageMask s).toNat + j < 2 ^ s) :
    (a + UInt64.ofNat j) &&& pageMask s = (a &&& pageMask s) + UInt64.ofNat j := by
  have hlt : 2 ^ s < 2 ^ 64 := Nat.pow_lt_pow_right Nat.one_lt_two hs
  refine UInt64.toNat.inj ?_
  rw [and_pageMask_add hs hj, UInt64.toNat_add, UInt64.toNat_ofNat', Nat.add_mod_mod,
    Nat.mod_eq_of_lt (hj.trans hlt)]

theorem toNat_aligned (hs : s < 64) (hframe : frame &&& pageMask s = 0) :
    frame.toNat % 2 ^ s = 0 := by
  rw [← toNat_and_pageMask hs, hframe]
  rfl

/-- An aligned frame and an offset in it have no bits in common. -/
theorem toNat_or_offset (hs : s < 64) (hframe : frame &&& pageMask s = 0)
    (hoffset : offset.toNat < 2 ^ s) : (frame ||| offset).toNat = frame.toNat + offset.toNat := by
  obtain ⟨k, hk⟩ := Nat.dvd_of_mod_eq_zero (toNat_aligned hs hframe)
  rw [UInt64.toNat_or, hk, Nat.two_pow_add_eq_or_of_lt hoffset]

theorem or_offset (hs : s < 64) (hframe : frame &&& pageMask s = 0)
    (hoffset : offset.toNat < 2 ^ s) : frame ||| offset = frame + offset := by
  have hor := toNat_or_offset hs hframe hoffset
  refine UInt64.toNat.inj ?_
  rw [UInt64.toNat_add, ← hor, Nat.mod_eq_of_lt (UInt64.toNat_lt _)]

/-- The offset is that of the address that it makes with a frame. -/
theorem or_and_pageMask (hs : s < 64) (hframe : frame &&& pageMask s = 0)
    (hoffset : offset.toNat < 2 ^ s) : (frame ||| offset) &&& pageMask s = offset := by
  refine UInt64.toNat.inj ?_
  rw [toNat_and_pageMask hs, toNat_or_offset hs hframe hoffset, Nat.add_mod,
    toNat_aligned hs hframe, Nat.zero_add, Nat.mod_mod, Nat.mod_eq_of_lt hoffset]

end Pages
