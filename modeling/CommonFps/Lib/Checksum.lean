import Mathlib

/-!
# Checksums

A checksum takes in a string item by item: from a state and an item, the next
state. Two strings that differ in one place only reach different states there
if a step loses nothing of the item, and these stay apart if no later step loses
anything of the state.

* `DifferOnce`: two strings of one length, with one place where they differ;
* `Lossless`: a step that loses neither the state nor the item;
* `Lossless.foldl_ne`: such steps tell strings that differ once apart;
* `fnv1a`: FNV-1a on 32 bits, whose steps are lossless if its multiplier is
  invertible.
-/

namespace Checksum

section Differ

variable {α : Type*} {l l' m m' : List α} {a b : α}

/-- Two strings of the same length differ in exactly one place. -/
def DifferOnce (l l' : List α) : Prop := l.length = l'.length ∧ ∃! i : ℕ, l[i]? ≠ l'[i]?

theorem DifferOnce.ne (h : DifferOnce l l') : l ≠ l' := by
  rintro rfl
  obtain ⟨-, i, hi, -⟩ := h
  exact hi rfl

/-- One place is overwritten with something else. -/
theorem DifferOnce.set {i : ℕ} (hi : l[i]? = some a) (hne : a ≠ b) : DifferOnce l (l.set i b) := by
  obtain ⟨hlt, -⟩ := List.getElem?_eq_some_iff.1 hi
  refine ⟨List.length_set.symm, i, ?_, fun j hj => ?_⟩
  · simp only [hi, List.getElem?_set_self hlt]
    exact fun h => hne (Option.some_injective _ h)
  · by_contra hji
    exact hj (List.getElem?_set_ne (Ne.symm hji)).symm

/-- Strings that differ elsewhere have the same head. -/
theorem DifferOnce.of_cons (h : DifferOnce (a :: l) (a :: l')) : DifferOnce l l' := by
  obtain ⟨hlength, i, hi, honly⟩ := h
  refine ⟨Nat.succ.inj hlength, ?_⟩
  cases i with
  | zero => exact absurd rfl hi
  | succ i => exact ⟨i, hi, fun j hj => Nat.succ.inj (honly (j + 1) hj)⟩

/-- Strings that differ in their heads have the same tail. -/
theorem DifferOnce.tail_eq (h : DifferOnce (a :: l) (b :: l')) (hab : a ≠ b) : l = l' := by
  obtain ⟨-, i, -, honly⟩ := h
  refine List.ext_getElem? fun j => by_contra fun hj => ?_
  have hzero : 0 = i := honly 0 fun heq => hab (Option.some.inj heq)
  have hsucc : j + 1 = i := honly (j + 1) hj
  exact j.succ_ne_zero (hsucc.trans hzero.symm)

/-- Where two strings end in parts of the same length, the one difference is before
    or in these. -/
theorem DifferOnce.append_cases (h : DifferOnce (l ++ m) (l' ++ m')) (hl : l.length = l'.length) :
    DifferOnce l l' ∧ m = m' ∨ l = l' ∧ m ≠ m' := by
  induction l generalizing l' with
  | nil =>
    obtain rfl : l' = [] := List.length_eq_zero_iff.1 hl.symm
    exact .inr ⟨rfl, h.ne⟩
  | cons a l ih =>
    obtain ⟨b, l', rfl⟩ := List.exists_cons_of_length_eq_add_one hl.symm
    have hl' : l.length = l'.length := Nat.succ.inj hl
    by_cases hab : a = b
    · subst hab
      rcases ih h.of_cons hl' with ⟨⟨hlength, i, hi, honly⟩, hm⟩ | ⟨rfl, hm⟩
      · refine .inl ⟨⟨hl, i + 1, hi, fun j hj => ?_⟩, hm⟩
        cases j with
        | zero => exact absurd rfl hj
        | succ j => exact congrArg Nat.succ (honly j hj)
      · exact .inr ⟨rfl, hm⟩
    · obtain ⟨rfl, rfl⟩ := List.append_inj (h.tail_eq hab) hl'
      refine .inl ⟨⟨rfl, 0, fun heq => hab (Option.some.inj heq), fun j hj => ?_⟩, rfl⟩
      cases j with
      | zero => rfl
      | succ j => exact absurd rfl hj

end Differ

section Fold

variable {S α : Type*} {step : S → α → S}

/-- A step of a checksum that loses nothing: of two states, or of two items, it
    makes two states. -/
structure Lossless (step : S → α → S) : Prop where
  state : ∀ a, Function.Injective fun s => step s a
  item : ∀ s, Function.Injective (step s)

/-- What was different stays different. -/
theorem Lossless.foldl_injective (h : Lossless step) (l : List α) :
    Function.Injective fun s => l.foldl step s := by
  induction l with
  | nil => exact fun _ _ heq => heq
  | cons a l ih => exact fun _ _ heq => h.state a (ih heq)

theorem Lossless.foldl_ne (h : Lossless step) {l l' : List α} (hd : DifferOnce l l') (s : S) :
    l.foldl step s ≠ l'.foldl step s := by
  induction l generalizing l' s with
  | nil =>
    obtain rfl : l' = [] := List.length_eq_zero_iff.1 hd.1.symm
    exact absurd rfl hd.ne
  | cons a l ih =>
    obtain ⟨b, l', rfl⟩ := List.exists_cons_of_length_eq_add_one hd.1.symm
    by_cases hab : a = b
    · subst hab
      exact ih hd.of_cons (step s a)
    · obtain rfl := hd.tail_eq hab
      exact fun heq => hab (h.item s (h.foldl_injective l heq))

end Fold

/-! ## FNV-1a -/

/-- A byte is taken in by "exclusive or" and a multiplication. -/
def fnvStep (prime hash : UInt32) (byte : UInt8) : UInt32 := (hash ^^^ byte.toUInt32) * prime

/-- The checksum of bytes: one step for each of them. -/
def fnv1a (offset prime : UInt32) (bytes : List UInt8) : UInt32 :=
  bytes.foldl (fnvStep prime) offset

section Fnv

variable {offset prime inverse : UInt32}

/-- Multiplication with an invertible number can be undone. -/
theorem mul_prime_injective (h : prime * inverse = 1) :
    Function.Injective fun x : UInt32 => x * prime := by
  refine Function.LeftInverse.injective (g := fun x => x * inverse) fun x => ?_
  calc x * prime * inverse = x * (prime * inverse) := UInt32.mul_assoc ..
    _ = x := by rw [h, UInt32.mul_one]

theorem lossless_fnvStep (h : prime * inverse = 1) : Lossless (fnvStep prime) where
  state byte hash hash' heq := (UInt32.xor_left_inj byte.toUInt32).1 (mul_prime_injective h heq)
  item hash byte byte' heq := by
    have hwide : byte.toUInt32 = byte'.toUInt32 :=
      (UInt32.xor_right_inj hash).1 (mul_prime_injective h heq)
    exact UInt8.toNat_inj.1 (congrArg UInt32.toNat hwide)

/-- Two strings of bytes that differ in exactly one place have different hashes. -/
theorem fnv1a_ne (inverse : UInt32) (h : prime * inverse = 1) {bytes bytes' : List UInt8}
    (hd : DifferOnce bytes bytes') :
    fnv1a offset prime bytes ≠ fnv1a offset prime bytes' :=
  (lossless_fnvStep h).foldl_ne hd offset

end Fnv

end Checksum
