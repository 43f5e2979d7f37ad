import Mathlib

/-!
# Records that tell their own length

A buffer of records, one after the other, of which each one tells its length
(`Framing`): the records end where the buffer does, or where what follows tells
no length, or one that the buffer does not have.

* `Framing.records`: the records of a buffer;
* `Framing.place`: where each of them begins.
-/

/-- The length of the record at the front of a buffer, if there is one. -/
structure Framing (α : Type*) where
  size : List α → Option ℕ
  size_pos : ∀ {l n}, size l = some n → 0 < n
  size_le : ∀ {l n}, size l = some n → n ≤ l.length

namespace Framing

variable {α : Type*} (f : Framing α)

/-- The records of a buffer, up to the first place where there is none. -/
def records (l : List α) : List (List α) :=
  match _h : f.size l with
  | none => []
  | some n => l.take n :: records (l.drop n)
  termination_by l.length
  decreasing_by
    have := f.size_pos _h
    have := f.size_le _h
    rw [List.length_drop]
    omega

/-- Where the record `k` begins. -/
def place (l : List α) (k : ℕ) : ℕ := ((f.records l).take k).flatten.length

variable {f} {l : List α} {n k : ℕ}

theorem records_of_none (h : f.size l = none) : f.records l = [] := by
  rw [records]
  split
  · rfl
  · next hn => rw [h] at hn; cases hn

theorem records_of_some (h : f.size l = some n) :
    f.records l = l.take n :: f.records (l.drop n) := by
  rw [records]
  split
  · next hn => rw [h] at hn; cases hn
  · next hn =>
    rw [h] at hn
    cases hn
    rfl

/-- The first record, if it tells its own length. -/
theorem records_append {r rest : List α} (h : f.size (r ++ rest) = some r.length) :
    f.records (r ++ rest) = r :: f.records rest := by
  rw [records_of_some h, List.take_left, List.drop_left]

@[simp] theorem place_zero : f.place l 0 = 0 := by simp [place]

theorem place_succ (h : f.size l = some n) : f.place l (k + 1) = n + f.place (l.drop n) k := by
  rw [place, records_of_some h, List.take_succ_cons, List.flatten_cons, List.length_append,
    List.length_take, Nat.min_eq_left (f.size_le h), place]

end Framing
