import CommonFps.Lib.BufferReader
import CommonFps.ShellUi.Boundaries
import CommonFps.ShellUi.Requests

/-!
# What the decoder of a prologue reads

The decoder of the displaced instructions (`decode_relocatable_instruction`,
`native_patch_length`) once more, with the bytes that it reads: every step
of its cursor has a check of its own, for the prefixes, the second byte of an
opcode, the ModRM and the SIB byte, the displacement and the immediate operand.

* `Traced`: the decoder with its reads;
* `Traced.nativePatchLength_computes`: it computes what the decoder does, and reads
  no byte behind the code;
* `decoder_in_bounds`: nor does it claim any, so that what it displaces is accepted
  and fits in the trampoline.
-/

namespace CommonFps

namespace Traced

open BufferReader

/-- The prefixes of an instruction, read one after the other. -/
def skipPrefixes (available : ℕ) (p : Prefixes) : BufferReader UInt8 (Option Prefixes) :=
  if p.cursor < available then do
    let byte ← byte p.cursor
    if byte = 0x66 then skipPrefixes available { p with cursor := p.cursor + 1, operand16 := true }
    else if byte = 0x67 then pure none
    else if isLegacyPrefix byte then skipPrefixes available { p with cursor := p.cursor + 1 }
    else if 0x40 ≤ byte ∧ byte ≤ 0x4f then
      skipPrefixes available { p with cursor := p.cursor + 1, rexW := byte &&& 0x08 ≠ 0 }
    else pure (some p)
  else pure (some p)
termination_by available - p.cursor

/-- Where the ModRM byte of an opcode is, and the size of the immediate operand. -/
def modrmOpcode (available cursor : ℕ) (opcode : UInt8) (operand16 : Bool) :
    BufferReader UInt8 (Option (ℕ × ℕ)) :=
  if opcode ∈ [0x01, 0x03, 0x09, 0x0b, 0x21, 0x23, 0x29, 0x2b, 0x31, 0x33, 0x39, 0x3b, 0x63, 0x85, 0x87,
      0x89, 0x8b, 0x8d] then pure (some (cursor, 0))
  else if opcode ∈ [0x80, 0x82, 0x83, 0xc6] then pure (some (cursor, 1))
  else if opcode ∈ [0x81, 0xc7] then pure (some (cursor, if operand16 then 2 else 4))
  else if opcode = 0x0f then
    if cursor ≥ available then pure none
    else do
      let second ← byte cursor
      if 0x80 ≤ second ∧ second ≤ 0x8f then pure none
      else if second ∈ [0x1e, 0x1f, 0xb6, 0xb7, 0xbe, 0xbf] then pure (some (cursor + 1, 0))
      else pure none
  else pure none

/-- The cursor after the SIB byte, if there is one. -/
def skipSib (available cursor : ℕ) (mod rm : UInt8) : BufferReader UInt8 (Option ℕ) :=
  if mod ≠ 3 ∧ rm = 4 then
    if cursor ≥ available then pure none
    else do
      let sib ← byte cursor
      let base := sib &&& 7
      if mod = 0 ∧ base = 5 then
        if cursor + 1 + 4 > available then pure none else pure (some (cursor + 1 + 4))
      else pure (some (cursor + 1))
  else if mod = 0 ∧ rm = 5 then pure none
  else pure (some cursor)

/-- The length of an instruction with its operands, or 0. -/
def skipOperands (available cursor immediate : ℕ) : BufferReader UInt8 ℕ :=
  if cursor ≥ available then pure 0
  else do
    let modrm ← byte cursor
    let mod := modrm >>> 6
    match ← skipSib available (cursor + 1) mod (modrm &&& 7) with
    | none => pure 0
    | some cursor =>
      match skipDisplacement available cursor mod with
      | none => pure 0
      | some cursor => pure (within available (cursor + immediate))

/-- The decoder, with the bytes that it reads. -/
def decodeRelocatableInstruction (available : ℕ) : BufferReader UInt8 ℕ := do
  match ← skipPrefixes available ⟨0, false, false⟩ with
  | none => pure 0
  | some p =>
    if p.cursor ≥ available then pure 0
    else
      let opcode ← byte p.cursor
      let cursor := p.cursor + 1
      if 0x50 ≤ opcode ∧ opcode ≤ 0x5f ∨ opcode = 0x90 then pure cursor
      else if opcode = 0x68 then pure (within available (cursor + if p.operand16 then 2 else 4))
      else if opcode = 0x6a then pure (within available (cursor + 1))
      else if 0xb8 ≤ opcode ∧ opcode ≤ 0xbf then
        pure (within available (cursor + if p.rexW then 8 else if p.operand16 then 2 else 4))
      -- Relative control flow is never moved.
      else if opcode = 0xe8 ∨ opcode = 0xe9 ∨ opcode = 0xeb ∨ 0x70 ≤ opcode ∧ opcode ≤ 0x7f ∨
          0xe0 ≤ opcode ∧ opcode ≤ 0xe3 then pure 0
      else
        match ← modrmOpcode available cursor opcode p.operand16 with
        | none => pure 0
        | some (cursor, immediate) => skipOperands available cursor immediate

/-- The instructions from some length on, with the bytes that are read of them. -/
def nativePatchLengthFrom (length : ℕ) : BufferReader UInt8 ℕ :=
  if length < kAbsoluteJumpSize then do
    let decoded ← (decodeRelocatableInstruction (kAtomicPatchSize - length)).offset length
    if decoded = 0 then pure 0 else nativePatchLengthFrom (length + decoded)
  else if length ≤ kAtomicPatchSize then pure length
  else pure 0
termination_by kAbsoluteJumpSize - length

/-- The length of a patch, with the bytes that are read for it. -/
def nativePatchLength : BufferReader UInt8 ℕ := nativePatchLengthFrom 0

/-! ## Reads -/

section Reads

variable (code : ℕ → UInt8) (available : ℕ)

/-- The traced prefixes are the prefixes. -/
theorem skipPrefixes_computes (p : Prefixes) :
    (skipPrefixes available p).Computes code available (CommonFps.skipPrefixes code available p) := by
  induction hleft : available - p.cursor using Nat.strong_induction_on generalizing p with
  | _ left ih =>
    rw [skipPrefixes, CommonFps.skipPrefixes]
    refine .ite (fun hlt => .bind (.byte hlt) ?_) fun _ => .pure
    have hnext : available - (p.cursor + 1) < left := by omega
    exact .ite (fun _ => ih _ hnext _ rfl) fun _ => .ite (fun _ => .pure) fun _ =>
      .ite (fun _ => ih _ hnext _ rfl) fun _ => .ite (fun _ => ih _ hnext _ rfl) fun _ => .pure

/-- So does the table of the opcodes. -/
theorem modrmOpcode_computes (cursor : ℕ) (opcode : UInt8) (operand16 : Bool) :
    (modrmOpcode available cursor opcode operand16).Computes code available
      (CommonFps.modrmOpcode code available cursor opcode operand16) := by
  rw [modrmOpcode, CommonFps.modrmOpcode]
  refine .ite (fun _ => .pure) fun _ => .ite (fun _ => .pure) fun _ => .ite (fun _ => .pure) fun _ =>
    .ite (fun _ => .ite (fun _ => .pure) fun hlt => .bind (.byte (not_le.1 hlt)) ?_) fun _ => .pure
  exact .ite (fun _ => .pure) fun _ => .ite (fun _ => .pure) fun _ => .pure

/-- So does the step over the SIB byte. -/
theorem skipSib_computes (cursor : ℕ) (mod rm : UInt8) :
    (skipSib available cursor mod rm).Computes code available
      (CommonFps.skipSib code available cursor mod rm) := by
  rw [skipSib, CommonFps.skipSib]
  refine .ite (fun _ => .ite (fun _ => .pure) fun hlt => .bind (.byte (not_le.1 hlt)) ?_) fun _ =>
    .ite (fun _ => .pure) fun _ => .pure
  exact .ite (fun _ => .ite (fun _ => .pure) fun _ => .pure) fun _ => .pure

/-- And so does the step over all operands. -/
theorem skipOperands_computes (cursor immediate : ℕ) :
    (skipOperands available cursor immediate).Computes code available
      (CommonFps.skipOperands code available cursor immediate) := by
  rw [skipOperands, CommonFps.skipOperands]
  refine .ite (fun _ => .pure) fun hlt => .bind (.byte (not_le.1 hlt)) ?_
  refine .bind (skipSib_computes code available _ _ _) ?_
  dsimp only
  cases CommonFps.skipSib code available (cursor + 1) (code cursor >>> 6) (code cursor &&& 7) with
  | none => exact .pure
  | some next =>
    dsimp only
    cases skipDisplacement available next (code cursor >>> 6) with
    | none => exact .pure
    | some next => exact .pure

/-- The traced decoder decodes as the decoder does. -/
theorem decodeRelocatableInstruction_computes :
    (decodeRelocatableInstruction available).Computes code available
      (CommonFps.decodeRelocatableInstruction code available) := by
  rw [decodeRelocatableInstruction, CommonFps.decodeRelocatableInstruction]
  refine .bind (skipPrefixes_computes code available _) ?_
  cases CommonFps.skipPrefixes code available ⟨0, false, false⟩ with
  | none => exact .pure
  | some p =>
    refine .ite (fun _ => .pure) fun hlt => .bind (.byte (not_le.1 hlt)) ?_
    refine .ite (fun _ => .pure) fun _ => .ite (fun _ => .pure) fun _ => .ite (fun _ => .pure) fun _ =>
      .ite (fun _ => .pure) fun _ => .ite (fun _ => .pure) fun _ => ?_
    refine .bind (modrmOpcode_computes code available _ _ _) ?_
    cases CommonFps.modrmOpcode code available (p.cursor + 1) (code p.cursor) p.operand16 with
    | none => exact .pure
    | some operands => exact skipOperands_computes code available _ _

end Reads

/-- The loop of the decoder reads the code of a patch only, wherever it is. -/
theorem nativePatchLengthFrom_computes (code : ℕ → UInt8) (length : ℕ) :
    (nativePatchLengthFrom length).Computes code kAtomicPatchSize
      (CommonFps.nativePatchLengthFrom code length) := by
  induction hleft : kAbsoluteJumpSize - length using Nat.strong_induction_on generalizing length with
  | _ left ih =>
    rw [nativePatchLengthFrom, CommonFps.nativePatchLengthFrom]
    refine .ite (fun hlt => ?_) fun _ => .ite (fun _ => .pure) fun _ => .pure
    have hle : length ≤ kAtomicPatchSize := hlt.le.trans (by decide)
    refine .bind ((decodeRelocatableInstruction_computes _ _).offset hle) ?_
    -- An instruction that is not refused has at least one byte.
    exact .ite (fun _ => .pure) fun hne => ih _ (by omega) _ rfl

/-- And so does the traced loop. -/
theorem nativePatchLength_computes (code : ℕ → UInt8) :
    nativePatchLength.Computes code kAtomicPatchSize (CommonFps.nativePatchLength code) :=
  nativePatchLengthFrom_computes code 0

end Traced

/-! ## Bounds -/

/-- An instruction ends in the code that is there. -/
theorem decodeRelocatableInstruction_le (code : ℕ → UInt8) (available : ℕ) :
    decodeRelocatableInstruction code available ≤ available := by
  by_cases hne : decodeRelocatableInstruction code available = 0
  · rw [hne]
    exact Nat.zero_le available
  · obtain ⟨op, h⟩ := copies_of_decoded rfl hne
    exact h.le.trans_eq (length_firstBytes code available)

/-- For any bytes, and any number of them that are available: the decoder reads these
    only, and refuses them or claims some of them. So the length of a patch is read
    from its sixteen bytes, and unless they are refused, it passes the check of the
    controller, and there is room for it and a jump back in the trampoline. -/
theorem decoder_in_bounds :
    (∀ (code : ℕ → UInt8) (available : ℕ),
      (Traced.decodeRelocatableInstruction available).Computes code available
          (decodeRelocatableInstruction code available) ∧
        (decodeRelocatableInstruction code available = 0 ∨
          1 ≤ decodeRelocatableInstruction code available ∧
            decodeRelocatableInstruction code available ≤ available)) ∧
    ∀ code : ℕ → UInt8,
      Traced.nativePatchLength.Computes code kAtomicPatchSize (nativePatchLength code) ∧
        nativePatchLength code ∈ [0, 14, 15, 16] ∧
        (nativePatchLength code ≠ 0 →
          (∀ env expected original,
            14 ≤ (updateRequest env expected (nativePatchLength code) original).displacedSize ∧
              (updateRequest env expected (nativePatchLength code) original).displacedSize ≤ 16) ∧
          prepareTrampoline (nativePatchLength code) = true ∧
            nativePatchLength code + kAbsoluteJumpSize ≤ kTrampolineCapacity) := by
  refine ⟨fun code available => ⟨Traced.decodeRelocatableInstruction_computes code available, ?_⟩,
    fun code => ⟨Traced.nativePatchLength_computes code, ?_, fun hne => ?_⟩⟩
  · rcases Nat.eq_zero_or_pos (decodeRelocatableInstruction code available) with hzero | hpos
    · exact .inl hzero
    · exact .inr ⟨hpos, decodeRelocatableInstruction_le code available⟩
  · by_cases hne : nativePatchLength code = 0
    · rw [hne]
      exact List.mem_cons_self
    · obtain ⟨hmin, hmax⟩ := nativePatchLength_range hne
      simp only [List.mem_cons, List.not_mem_nil, or_false]
      omega
  · have hrange := nativePatchLength_range hne
    have hfits : nativePatchLength code + kAbsoluteJumpSize ≤ kTrampolineCapacity := by
      rw [kAbsoluteJumpSize, kTrampolineCapacity]
      omega
    refine ⟨fun env expected original => ?_, decide_eq_true ⟨hne, hfits⟩, hfits⟩
    have hdisplaced := toNat_displacedSize env expected original hrange.2
    rw [UInt32.le_iff_toNat_le, UInt32.le_iff_toNat_le, hdisplaced]
    exact hrange

end CommonFps
