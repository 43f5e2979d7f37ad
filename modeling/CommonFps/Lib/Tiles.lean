import Mathlib

/-!
# Tilings of a range

A range of bytes handled in chunks: `Tiles a b l` says that the chunks `l`, each
a start and a positive length, tile the range from `a` to `b`, in order and
without gap or overlap.

* `Tiles.unique`: where the chunks end;
* `Tiles.append`: tilings put together;
* `Tiles.length_le`: there are no more chunks than bytes.
-/

/-- The chunks tile the range from `a` to `b`. -/
inductive Tiles : ℕ → ℕ → List (ℕ × ℕ) → Prop
  | nil (a : ℕ) : Tiles a a []
  | cons {a b n : ℕ} {l : List (ℕ × ℕ)} : 0 < n → Tiles (a + n) b l → Tiles a b ((a, n) :: l)

namespace Tiles

variable {a b c n : ℕ} {l l' : List (ℕ × ℕ)}

theorem le (h : Tiles a b l) : a ≤ b := by
  induction h with
  | nil => exact le_rfl
  | cons _ _ ih => exact (Nat.le_add_right _ _).trans ih

theorem unique (h : Tiles a b l) (h' : Tiles a c l) : b = c := by
  induction h with
  | nil =>
    cases h'
    rfl
  | cons _ _ ih =>
    cases h' with
    | cons _ h' => exact ih h'

theorem append (h : Tiles a b l) (h' : Tiles b c l') : Tiles a c (l ++ l') := by
  induction h with
  | nil => exact h'
  | cons hn _ ih => exact .cons hn (ih h')

theorem length_le (h : Tiles a b l) : l.length + a ≤ b := by
  induction h with
  | nil => simp
  | cons hn _ ih =>
    rw [List.length_cons]
    omega

end Tiles
