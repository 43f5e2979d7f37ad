import Mathlib

/-!
# Words in memory

A memory of bytes at 64-bit addresses, the least significant byte of a word at
the lowest address.

* `leValue`: the number that bytes stand for, and `numberBytes`, the bytes of a number;
* `readBytes`, `readU32`, `readU64`: what is at an address.
-/

/-- The number of some bytes, the least significant one first. -/
def leValue (bytes : List UInt8) : ℕ := Nat.ofDigits 256 (bytes.map UInt8.toNat)

/-- The `n` least significant bytes of a number, the least significant one first. -/
def numberBytes (n x : ℕ) : List UInt8 := (List.range n).map fun i => UInt8.ofNat (x / 256 ^ i)

@[simp] theorem length_numberBytes (n x : ℕ) : (numberBytes n x).length = n := by
  rw [numberBytes, List.length_map, List.length_range]

theorem lt_of_mem_digits {bytes : List UInt8} {d : ℕ} (h : d ∈ bytes.map UInt8.toNat) : d < 256 := by
  obtain ⟨byte, -, rfl⟩ := List.mem_map.1 h
  exact byte.toNat_lt

theorem leValue_lt (bytes : List UInt8) : leValue bytes < 256 ^ bytes.length := by
  have hlt : ∀ d ∈ bytes.map UInt8.toNat, d < 256 := fun _ => lt_of_mem_digits
  have := Nat.ofDigits_lt_base_pow_length (by decide) hlt
  rwa [List.length_map] at this

/-- A byte of the number that bytes stand for. -/
theorem leValue_div_mod {bytes : List UInt8} {i : ℕ} (hi : i < bytes.length) :
    leValue bytes / 256 ^ i % 256 = bytes[i].toNat := by
  rw [leValue, Nat.ofDigits_div_pow_eq_ofDigits_drop i (by decide) _ fun _ => lt_of_mem_digits,
    ← List.map_drop, List.drop_eq_getElem_cons hi, List.map_cons, Nat.ofDigits_cons,
    Nat.add_mul_mod_self_left]
  exact Nat.mod_eq_of_lt bytes[i].toNat_lt

theorem numberBytes_leValue (bytes : List UInt8) : numberBytes bytes.length (leValue bytes) = bytes := by
  refine List.ext_getElem (length_numberBytes _ _) fun i _ hi => UInt8.toNat_inj.1 ?_
  rw [← leValue_div_mod hi]
  simp [numberBytes]

theorem leValue_numberBytes (n x : ℕ) : leValue (numberBytes n x) = x % 256 ^ n := by
  induction n with
  | zero => simp [numberBytes, leValue, Nat.mod_one]
  | succ n ih =>
    have hsucc : numberBytes (n + 1) x = numberBytes n x ++ [UInt8.ofNat (x / 256 ^ n)] := by
      simp [numberBytes, List.range_succ]
    rw [hsucc, leValue, List.map_append, Nat.ofDigits_append, ← leValue, ih, List.length_map,
      length_numberBytes, pow_succ, Nat.mod_mul]
    simp

/-- The bytes at all addresses. -/
abbrev Memory := UInt64 → UInt8

/-- The bytes from an address on. -/
def readBytes (mem : Memory) (address : UInt64) (n : ℕ) : List UInt8 :=
  (List.range n).map fun i => mem (address + UInt64.ofNat i)

/-- The little-endian number in two bytes. -/
def readU16 (mem : Memory) (address : UInt64) : UInt16 := UInt16.ofNat (leValue (readBytes mem address 2))

/-- The little-endian number in four bytes. -/
def readU32 (mem : Memory) (address : UInt64) : UInt32 := UInt32.ofNat (leValue (readBytes mem address 4))

/-- The little-endian number in eight bytes. -/
def readU64 (mem : Memory) (address : UInt64) : UInt64 := UInt64.ofNat (leValue (readBytes mem address 8))

example : readU32 (fun a => a.toUInt8) 1 = 0x04030201 := by decide +kernel

@[simp] theorem length_readBytes (mem : Memory) (address : UInt64) (n : ℕ) :
    (readBytes mem address n).length = n := by
  rw [readBytes, List.length_map, List.length_range]

theorem getElem_readBytes (mem : Memory) (address : UInt64) {n i : ℕ}
    (h : i < (readBytes mem address n).length) :
    (readBytes mem address n)[i] = mem (address + UInt64.ofNat i) := by
  simp [readBytes]

/-- A part of some bytes in memory. -/
theorem take_drop_readBytes (mem : Memory) (address : UInt64) {n i m : ℕ} (h : i + m ≤ n) :
    ((readBytes mem address n).drop i).take m = readBytes mem (address + UInt64.ofNat i) m := by
  refine List.ext_getElem (by simp; omega) fun j h₁ h₂ => ?_
  rw [List.getElem_take, List.getElem_drop, getElem_readBytes, getElem_readBytes, UInt64.ofNat_add,
    UInt64.add_assoc]
