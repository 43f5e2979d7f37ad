import Mathlib

/-!
# Sliding windows

The latest `w` entries of a growing sequence, kept in `w` slots that a cursor
overwrites in turn, and the median of such a window.

* `Window.Holds`: the slots hold the latest entries, read backwards from the
  cursor; writing at the cursor and advancing it holds one entry more
  (`Window.Holds.push`), whatever the slots held before;
* `Window.Holds.perm`: once there are `w` entries, the slots are a permutation
  of the latest `w`, so that anything symmetric is computed from the slots as
  they lie;
* `median`: the middle of the sorted list, which is one of its entries
  (`median_mem`) and does not depend on their order (`median_perm`).
-/

namespace Window

variable {α : Type*} {w : ℕ} [NeZero w]

/-- The slots hold the latest entries of `xs` (the latest first), backwards
    from the cursor, as many as there are or as fit. -/
def Holds (slots : Fin w → α) (cursor : Fin w) (xs : List α) : Prop :=
  ∀ (k : ℕ) (hk : k < xs.length), k < w → slots (cursor - Fin.ofNat w (k + 1)) = xs[k]

variable {slots : Fin w → α} {cursor : Fin w} {xs : List α}

theorem holds_nil (slots : Fin w → α) (cursor : Fin w) : Holds slots cursor [] :=
  fun _ hk => absurd hk (Nat.not_lt_zero _)

/-- A filled window holds its one value, wherever its cursor is. -/
theorem holds_replicate (a : α) (cursor : Fin w) (n : ℕ) :
    Holds (fun _ => a) cursor (List.replicate n a) :=
  fun _ _ _ => (List.getElem_replicate _).symm

theorem ofNat_succ (k : ℕ) : Fin.ofNat w (k + 1) = Fin.ofNat w k + 1 := by
  apply Fin.ext
  simp [Fin.val_add]

/-- Writing at the cursor and advancing it holds one entry more. -/
theorem Holds.push (h : Holds slots cursor xs) (x : α) :
    Holds (Function.update slots cursor x) (cursor + 1) (x :: xs) := by
  intro k hk hw
  cases k with
  | zero => rw [ofNat_succ, Fin.ofNat_zero, zero_add, add_sub_cancel_right,
      Function.update_self, List.getElem_cons_zero]
  | succ k =>
    have hne : cursor - Fin.ofNat w (k + 1) ≠ cursor := fun e => by
      have h₀ : Fin.ofNat w (k + 1) = 0 := sub_eq_self.1 e
      have h₁ := congrArg Fin.val h₀
      rw [Fin.val_ofNat, Nat.mod_eq_of_lt hw] at h₁
      exact Nat.succ_ne_zero k h₁
    have hback : cursor + 1 - Fin.ofNat w (k + 1 + 1) = cursor - Fin.ofNat w (k + 1) := by
      rw [ofNat_succ (k + 1), add_sub_add_right_eq_sub]
    rw [hback, Function.update_of_ne hne, List.getElem_cons_succ]
    exact h k (by simpa using hk) (by omega)

/-- A full window is a permutation of the latest entries. -/
theorem Holds.perm (h : Holds slots cursor xs) (hw : w ≤ xs.length) :
    (List.ofFn slots).Perm (xs.take w) := by
  -- Reading backwards from the cursor goes through every slot once.
  let back : Equiv.Perm (Fin w) := (Equiv.addRight 1).trans (Equiv.subLeft cursor)
  have hread : xs.take w = List.ofFn (slots ∘ back) := by
    apply List.ext_getElem
    · simp [hw]
    · intro k hk _
      have hkw : k < w := by simp at hk; omega
      have hb : back ⟨k, hkw⟩ = cursor - Fin.ofNat w (k + 1) := by
        rw [ofNat_succ, show Fin.ofNat w k = ⟨k, hkw⟩ from Fin.ofNat_val_eq_self ⟨k, hkw⟩]; rfl
      rw [List.getElem_take, List.getElem_ofFn, Function.comp_apply, hb, ← h k (by omega) hkw]
  rw [hread]
  exact (Equiv.Perm.ofFn_comp_perm back slots).symm

end Window

/-! ## The median -/

/-- The middle of a list, once sorted. -/
def median (l : List ℤ) : ℤ := (l.insertionSort (· ≤ ·)).getD (l.length / 2) 0

theorem median_mem {l : List ℤ} (hl : l ≠ []) : median l ∈ l := by
  have hlt : l.length / 2 < (l.insertionSort (· ≤ ·)).length := by
    rw [List.length_insertionSort]
    exact Nat.div_lt_self (List.length_pos_iff.2 hl) (by decide)
  rw [median, List.getD_eq_getElem _ _ hlt]
  exact (List.mem_insertionSort (· ≤ ·)).1 (List.getElem_mem hlt)

/-- The median does not depend on the order of the list. -/
theorem median_perm {l l' : List ℤ} (h : l.Perm l') : median l = median l' := by
  have hs : l.insertionSort (· ≤ ·) = l'.insertionSort (· ≤ ·) :=
    List.Perm.eq_of_pairwise' (List.pairwise_insertionSort _ l) (List.pairwise_insertionSort _ l')
      ((List.perm_insertionSort _ l).trans (h.trans (List.perm_insertionSort _ l').symm))
  rw [median, median, hs, h.length_eq]
