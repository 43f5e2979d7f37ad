import Mathlib

/-!
# Programs that read a buffer

A program that reads items of a buffer (`BufferReader`): what it returns depends on the
items, and the places that it reads are noted, in their order. What is beyond the
end of the buffer is also read, if a program does so, and noted.

* `BufferReader.byte`, `BufferReader.offset`: one read, and a program that is given a
  pointer into the buffer;
* `BufferReader.Computes`: a program computes a value, and reads only what is before a
  place, with the rules for its parts.
-/

/-- A program that reads a buffer of items `B`: its result and what it read. -/
def BufferReader (B : Type) (α : Type) := (ℕ → B) → α × List ℕ

namespace BufferReader

variable {B α β : Type}

instance : Monad (BufferReader B) where
  pure a _ := (a, [])
  bind m f code := ((f (m code).1 code).1, (m code).2 ++ (f (m code).1 code).2)

/-- The item at a place. -/
def byte (i : ℕ) : BufferReader B B := fun code => (code i, [i])

/-- A program, on the buffer from a place on. -/
def offset (k : ℕ) (m : BufferReader B α) : BufferReader B α := fun code =>
  ((m fun i => code (k + i)).1, (m fun i => code (k + i)).2.map (k + ·))

/-- On a buffer, the program returns the value and reads only places below `n`. -/
structure Computes (m : BufferReader B α) (code : ℕ → B) (n : ℕ) (a : α) : Prop where
  result : (m code).1 = a
  places : ∀ i ∈ (m code).2, i < n

variable {m m' : BufferReader B α} {f : α → BufferReader B β} {code : ℕ → B} {n k : ℕ}
  {a a' : α} {b : β}

theorem Computes.pure : (Pure.pure a : BufferReader B α).Computes code n a :=
  ⟨rfl, fun _ hi => absurd hi List.not_mem_nil⟩

theorem Computes.bind (h : m.Computes code n a) (hf : (f a).Computes code n b) :
    (m >>= f).Computes code n b := by
  obtain ⟨rfl, hplaces⟩ := h
  exact ⟨hf.result, fun i hi => (List.mem_append.1 hi).elim (hplaces i) (hf.places i)⟩

theorem Computes.byte {i : ℕ} (h : i < n) : (byte i).Computes code n (code i) :=
  ⟨rfl, fun _ hj => (List.mem_singleton.1 hj).trans_lt h⟩

theorem Computes.offset (h : m.Computes (fun i => code (k + i)) (n - k) a) (hk : k ≤ n) :
    (m.offset k).Computes code n a := by
  refine ⟨h.result, fun i hi => ?_⟩
  obtain ⟨j, hj, rfl⟩ := List.mem_map.1 hi
  have := h.places j hj
  omega

theorem Computes.ite {c : Prop} [Decidable c] (h : c → m.Computes code n a)
    (h' : ¬c → m'.Computes code n a') :
    (if c then m else m').Computes code n (if c then a else a') := by
  split_ifs with hc
  · exact h hc
  · exact h' hc

end BufferReader
