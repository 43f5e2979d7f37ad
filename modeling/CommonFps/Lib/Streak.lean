import Mathlib

/-!
# Streaks of answers

A system that asks a question, at most once in a step, and counts how often in a
row the answer was yes, until something breaks the row. A break is *early* if it
comes before the question of its step, and *late* if it comes after it.

* `Streak`: the last `c` questions before a step were all answered yes, and no
  break came since the first of them: the meaning of the counter between steps;
* `StreakUpTo`: the same of the questions up to that of a step, whose late break
  is still to come: the meaning of the counter within a step;
* `Streak.upTo`, `StreakUpTo.next` and `Streak.skip` follow a counter through the
  steps of a run;
* `UInt32.toNat_succ_of_lt`: a counter below a gate does not wrap;
* `UInt32.toNat_gate`: a gate of at least one.
-/

variable {ask : ℕ → Option Bool} {early late : ℕ → Prop} {n c : ℕ}

/-- The last `c` questions before the step `n` were answered yes, each in a step
    of its own, with no break since. -/
def Streak (ask : ℕ → Option Bool) (early late : ℕ → Prop) (n c : ℕ) : Prop :=
  ∃ ks : Finset ℕ, ks.card = c ∧ ∀ k ∈ ks, k < n ∧ ask k = some true ∧
    (∀ j, k ≤ j → j < n → ask j ≠ none → j ∈ ks) ∧ (∀ j, k < j → j < n → ¬early j) ∧
    ∀ j, k ≤ j → j < n → ¬late j

/-- The last `c` questions up to that of the step `n` were answered yes, each in a
    step of its own, with no break since. -/
def StreakUpTo (ask : ℕ → Option Bool) (early late : ℕ → Prop) (n c : ℕ) : Prop :=
  ∃ ks : Finset ℕ, ks.card = c ∧ ∀ k ∈ ks, k ≤ n ∧ ask k = some true ∧
    (∀ j, k ≤ j → j ≤ n → ask j ≠ none → j ∈ ks) ∧
    (∀ j, k < j → j ≤ n → ¬early j) ∧
    ∀ j, k ≤ j → j < n → ¬late j

namespace Streak

theorem zero (ask : ℕ → Option Bool) (early late : ℕ → Prop) (n : ℕ) : Streak ask early late n 0 :=
  ⟨∅, rfl, fun _ hk => absurd hk (Finset.notMem_empty _)⟩

/-- One more yes. -/
theorem upTo (h : Streak ask early late n c) (he : ¬early n) (hn : ask n = some true) :
    StreakUpTo ask early late n (c + 1) := by
  obtain ⟨ks, hcard, hks⟩ := h
  have hnew : n ∉ ks := fun hk => lt_irrefl n (hks n hk).1
  refine ⟨insert n ks, by rw [Finset.card_insert_of_notMem hnew, hcard], fun k hk => ?_⟩
  rcases Finset.mem_insert.1 hk with rfl | hk
  · refine ⟨le_rfl, hn, fun j hkj hjk _ => ?_, fun j hkj hjk => ?_, fun j hkj hjk => ?_⟩
    · exact le_antisymm hkj hjk ▸ Finset.mem_insert_self k ks
    · exact absurd hkj (not_lt.2 hjk)
    · exact absurd hkj (not_le.2 hjk)
  · obtain ⟨hlt, hyes, hasked, hearly, hlate⟩ := hks k hk
    refine ⟨hlt.le, hyes, fun j hkj hjn ha => ?_, fun j hkj hjn => ?_, hlate⟩
    · rcases hjn.eq_or_lt with rfl | hjn
      · exact Finset.mem_insert_self j ks
      · exact Finset.mem_insert_of_mem (hasked j hkj hjn ha)
    · rcases hjn.eq_or_lt with rfl | hjn
      · exact he
      · exact hearly j hkj hjn

/-- A step without a question or a break. -/
theorem skip (h : Streak ask early late n c) (ha : ask n = none) (he : ¬early n) (hl : ¬late n) :
    Streak ask early late (n + 1) c := by
  obtain ⟨ks, hcard, hks⟩ := h
  refine ⟨ks, hcard, fun k hk => ?_⟩
  obtain ⟨hlt, hyes, hasked, hearly, hlate⟩ := hks k hk
  refine ⟨hlt.trans n.lt_succ_self, hyes, fun j hkj hjn hj => ?_, fun j hkj hjn => ?_, fun j hkj hjn => ?_⟩
  · rcases Nat.lt_succ_iff_lt_or_eq.1 hjn with hjn | rfl
    · exact hasked j hkj hjn hj
    · exact absurd ha hj
  · rcases Nat.lt_succ_iff_lt_or_eq.1 hjn with hjn | rfl
    · exact hearly j hkj hjn
    · exact he
  · rcases Nat.lt_succ_iff_lt_or_eq.1 hjn with hjn | rfl
    · exact hlate j hkj hjn
    · exact hl

end Streak

/-- A first yes, in whatever step. -/
theorem StreakUpTo.first (early late : ℕ → Prop) (hn : ask n = some true) :
    StreakUpTo ask early late n 1 := by
  refine ⟨{n}, Finset.card_singleton n, fun k hk => ?_⟩
  obtain rfl := Finset.mem_singleton.1 hk
  refine ⟨le_rfl, hn, fun j hkj hjk _ => ?_, fun j hkj hjk => ?_, fun j hkj hjk => ?_⟩
  · exact Finset.mem_singleton.2 (le_antisymm hjk hkj)
  · exact absurd hkj (not_lt.2 hjk)
  · exact absurd hkj (not_le.2 hjk)

/-- A step that is not broken after its question. -/
theorem StreakUpTo.next (h : StreakUpTo ask early late n c) (hl : ¬late n) :
    Streak ask early late (n + 1) c := by
  obtain ⟨ks, hcard, hks⟩ := h
  refine ⟨ks, hcard, fun k hk => ?_⟩
  obtain ⟨hle, hyes, hasked, hearly, hlate⟩ := hks k hk
  refine ⟨Nat.lt_succ_of_le hle, hyes, fun j hkj hjn => hasked j hkj (Nat.le_of_lt_succ hjn),
    fun j hkj hjn => hearly j hkj (Nat.le_of_lt_succ hjn), fun j hkj hjn => ?_⟩
  rcases Nat.lt_succ_iff_lt_or_eq.1 hjn with hjn | rfl
  · exact hlate j hkj hjn
  · exact hl

/-! ## Counters -/

/-- A counter below a gate does not wrap. -/
theorem UInt32.toNat_succ_of_lt {c N : UInt32} (h : c < N) : (c + 1).toNat = c.toNat + 1 := by
  have hlt : c.toNat < N.toNat := h
  have hN : N.toNat < 2 ^ 32 := N.toNat_lt
  rw [UInt32.toNat_add, UInt32.toNat_one, Nat.mod_eq_of_lt (by omega)]

/-- A counter goes through its gate exactly. -/
theorem UInt32.succ_eq_of_gate {c N : UInt32} (h : c < N) (hgate : N ≤ c + 1) : c + 1 = N := by
  have hlt : c.toNat < N.toNat := h
  have hle : N.toNat ≤ (c + 1).toNat := hgate
  rw [toNat_succ_of_lt h] at hle
  rw [← UInt32.toNat_inj, toNat_succ_of_lt h]
  omega

/-- A counter that is at its gate or short of it. -/
theorem UInt32.toNat_le_gate {c N : UInt32} {ready : Prop} (hready : ready → c = N)
    (hshort : ¬ready → c < N) : c.toNat ≤ N.toNat := by
  by_cases h : ready
  · exact (congrArg UInt32.toNat (hready h)).le
  · exact (UInt32.lt_iff_toNat_lt.1 (hshort h)).le

theorem UInt32.toNat_gate (N : UInt32) : (if N = 0 then 1 else N).toNat = max 1 N.toNat := by
  split_ifs with h
  · rw [h]
    rfl
  · have hne : N.toNat ≠ 0 := fun h₀ => h (UInt32.toNat_inj.1 h₀)
    exact (max_eq_right (Nat.one_le_iff_ne_zero.2 hne)).symm

theorem UInt32.gate_pos {N M : UInt32} (h : N.toNat = max 1 M.toNat) : 0 < N := by
  rw [UInt32.lt_iff_toNat_lt, h]
  exact Nat.lt_of_lt_of_le Nat.zero_lt_one (le_max_left _ _)
