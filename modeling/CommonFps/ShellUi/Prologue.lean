import Mathlib

/-!
# The prologue of a method

The renderer displaces the first instructions of a method, which an absolute
jump replaces (`commonfps_shellui.cpp`). It decodes them one by one, and refuses
any instruction that it does not know how to move.

* `decodeRelocatableInstruction`: the length of an instruction, `0` if refused;
* `nativePatchLength`: the length of the instructions to displace;
* `nativePatchLength_range`: it is from 14 to 16 bytes, if they can be.
-/

namespace CommonFps

/-- The size of a jump with its target after it. -/
def kAbsoluteJumpSize : ℕ := 14

/-- The size of a patch. -/
def kAtomicPatchSize : ℕ := 16

/-- The prefixes of an instruction: the cursor after them, and what they say. -/
structure Prefixes where
  cursor : ℕ
  rexW : Bool
  operand16 : Bool

/-- A prefix without effect on the length. -/
def isLegacyPrefix (byte : UInt8) : Bool :=
  byte ∈ [0xf0, 0xf2, 0xf3, 0x2e, 0x36, 0x3e, 0x26, 0x64, 0x65]

/-- The prefixes are skipped; an address-size override is refused. -/
def skipPrefixes (code : ℕ → UInt8) (available : ℕ) (p : Prefixes) : Option Prefixes :=
  if p.cursor < available then
    let byte := code p.cursor
    if byte = 0x66 then skipPrefixes code available { p with cursor := p.cursor + 1, operand16 := true }
    else if byte = 0x67 then none
    else if isLegacyPrefix byte then skipPrefixes code available { p with cursor := p.cursor + 1 }
    else if 0x40 ≤ byte ∧ byte ≤ 0x4f then
      skipPrefixes code available { p with cursor := p.cursor + 1, rexW := byte &&& 0x08 ≠ 0 }
    else some p
  else some p
termination_by available - p.cursor

/-- The cursor, unless it is past the end. -/
def within (available cursor : ℕ) : ℕ := if cursor ≤ available then cursor else 0

/-- An opcode with a ModRM byte: the cursor of the latter, and the size of the
    immediate operand. -/
def modrmOpcode (code : ℕ → UInt8) (available cursor : ℕ) (opcode : UInt8) (operand16 : Bool) :
    Option (ℕ × ℕ) :=
  if opcode ∈ [0x01, 0x03, 0x09, 0x0b, 0x21, 0x23, 0x29, 0x2b, 0x31, 0x33, 0x39, 0x3b, 0x63, 0x85, 0x87,
      0x89, 0x8b, 0x8d] then some (cursor, 0)
  else if opcode ∈ [0x80, 0x82, 0x83, 0xc6] then some (cursor, 1)
  else if opcode ∈ [0x81, 0xc7] then some (cursor, if operand16 then 2 else 4)
  else if opcode = 0x0f then
    if cursor ≥ available then none
    else
      let second := code cursor
      if 0x80 ≤ second ∧ second ≤ 0x8f then none
      else if second ∈ [0x1e, 0x1f, 0xb6, 0xb7, 0xbe, 0xbf] then some (cursor + 1, 0)
      else none
  else none

/-- The cursor after the SIB byte, if there is one, and its displacement; an
    operand relative to the instruction is refused. -/
def skipSib (code : ℕ → UInt8) (available cursor : ℕ) (mod rm : UInt8) : Option ℕ :=
  if mod ≠ 3 ∧ rm = 4 then
    if cursor ≥ available then none
    else
      let base := code cursor &&& 7
      if mod = 0 ∧ base = 5 then
        if cursor + 1 + 4 > available then none else some (cursor + 1 + 4)
      else some (cursor + 1)
  else if mod = 0 ∧ rm = 5 then none
  else some cursor

/-- The cursor after the displacement of the ModRM byte. -/
def skipDisplacement (available cursor : ℕ) (mod : UInt8) : Option ℕ :=
  if mod = 1 then if cursor + 1 > available then none else some (cursor + 1)
  else if mod = 2 then if cursor + 4 > available then none else some (cursor + 4)
  else some cursor

/-- The cursor after the operands of an opcode with a ModRM byte, `0` if they are
    refused. -/
def skipOperands (code : ℕ → UInt8) (available cursor immediate : ℕ) : ℕ :=
  if cursor ≥ available then 0
  else
    let modrm := code cursor
    let mod := modrm >>> 6
    match skipSib code available (cursor + 1) mod (modrm &&& 7) with
    | none => 0
    | some cursor =>
      match skipDisplacement available cursor mod with
      | none => 0
      | some cursor => within available (cursor + immediate)

/-- The length of an instruction that can be moved, or 0. -/
def decodeRelocatableInstruction (code : ℕ → UInt8) (available : ℕ) : ℕ :=
  match skipPrefixes code available ⟨0, false, false⟩ with
  | none => 0
  | some p =>
    if p.cursor ≥ available then 0
    else
      let opcode := code p.cursor
      let cursor := p.cursor + 1
      if 0x50 ≤ opcode ∧ opcode ≤ 0x5f ∨ opcode = 0x90 then cursor
      else if opcode = 0x68 then within available (cursor + if p.operand16 then 2 else 4)
      else if opcode = 0x6a then within available (cursor + 1)
      else if 0xb8 ≤ opcode ∧ opcode ≤ 0xbf then
        within available (cursor + if p.rexW then 8 else if p.operand16 then 2 else 4)
      -- Relative control flow is never moved.
      else if opcode = 0xe8 ∨ opcode = 0xe9 ∨ opcode = 0xeb ∨ 0x70 ≤ opcode ∧ opcode ≤ 0x7f ∨
          0xe0 ≤ opcode ∧ opcode ≤ 0xe3 then 0
      else
        match modrmOpcode code available cursor opcode p.operand16 with
        | none => 0
        | some (cursor, immediate) => skipOperands code available cursor immediate

/-- The instructions are decoded from `length` on, until there is room for a jump. -/
def nativePatchLengthFrom (code : ℕ → UInt8) (length : ℕ) : ℕ :=
  if length < kAbsoluteJumpSize then
    let decoded := decodeRelocatableInstruction (fun i => code (length + i)) (kAtomicPatchSize - length)
    if decoded = 0 then 0 else nativePatchLengthFrom code (length + decoded)
  else if length ≤ kAtomicPatchSize then length
  else 0
termination_by kAbsoluteJumpSize - length

/-- The length of the whole instructions that a patch replaces, or 0. -/
def nativePatchLength (code : ℕ → UInt8) : ℕ := nativePatchLengthFrom code 0

theorem nativePatchLengthFrom_range (code : ℕ → UInt8) (length : ℕ)
    (h : nativePatchLengthFrom code length ≠ 0) :
    14 ≤ nativePatchLengthFrom code length ∧ nativePatchLengthFrom code length ≤ 16 := by
  induction length using nativePatchLengthFrom.induct code with
  | case1 length hlt decoded hzero =>
    rw [nativePatchLengthFrom, if_pos hlt, if_pos hzero] at h
    exact absurd rfl h
  | case2 length hlt decoded hne ih =>
    rw [nativePatchLengthFrom, if_pos hlt, if_neg hne] at h ⊢
    exact ih h
  | case3 length hge hle =>
    rw [nativePatchLengthFrom, if_neg hge, if_pos hle]
    exact ⟨not_lt.1 hge, hle⟩
  | case4 length hge hgt =>
    rw [nativePatchLengthFrom, if_neg hge, if_neg hgt] at h
    exact absurd rfl h

/-- The displaced instructions have room for a jump, and fit in the patch. -/
theorem nativePatchLength_range {code : ℕ → UInt8} (h : nativePatchLength code ≠ 0) :
    14 ≤ nativePatchLength code ∧ nativePatchLength code ≤ 16 :=
  nativePatchLengthFrom_range code 0 h

end CommonFps
