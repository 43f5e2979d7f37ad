import Mathlib

/-!
# The instructions of x86-64

How bytes divide into instructions in 64-bit mode: prefixes, an opcode of one or
two bytes, an addressing form and an immediate operand. The opcode maps hold the
opcodes of one byte and some general ones of two bytes; the others and the vector
extensions are left out. An instruction that is defined here may still raise an
exception when it is executed.

* `operandSize`, `addressingSize`, `Immediate.size`: the sizes of the parts;
* `decode`: the instruction that bytes start with;
* `Boundary`: where the instructions of bytes start, and where they end.
-/

namespace X86

/-! ## Prefixes -/

/-- A prefix other than REX. -/
def isLegacyPrefix (b : UInt8) : Bool :=
  b ∈ [0xf0, 0xf2, 0xf3, 0x2e, 0x36, 0x3e, 0x26, 0x64, 0x65, 0x66, 0x67]

/-- A REX prefix. -/
def isRex (b : UInt8) : Bool := 0x40 ≤ b && b ≤ 0x4f

/-- The bit of a REX prefix that widens the operands. -/
def hasW (b : UInt8) : Bool := b &&& 8 ≠ 0

/-- A prefix of any kind. -/
def isPrefix (b : UInt8) : Bool := isLegacyPrefix b || isRex b

/-- The prefixes that an instruction starts with. -/
def prefixes (bytes : List UInt8) : List UInt8 := bytes.takeWhile isPrefix

/-- Only a REX prefix immediately before the opcode counts. -/
def rexW (pre : List UInt8) : Bool := pre.getLast?.any fun b => isRex b && hasW b

/-- The operand size in bytes: REX.W overrides the operand-size prefix. -/
def operandSize (pre : List UInt8) : ℕ := if rexW pre then 8 else if 0x66 ∈ pre then 2 else 4

/-! ## Opcodes -/

/-- An opcode of one byte, or of two of which the first is 0F. -/
inductive Opcode
  | one (b : UInt8)
  | two (b : UInt8)

/-- The number of bytes of an opcode. -/
def Opcode.size : Opcode → ℕ
  | one _ => 1
  | two _ => 2

/-- The opcode at a place. -/
def opcodeAt (bytes : List UInt8) (k : ℕ) : Option Opcode :=
  match bytes[k]? with
  | none => none
  | some b => if b = 0x0f then bytes[k + 1]?.map .two else some (.one b)

/-! The fields of a ModRM byte. -/

/-- The addressing mode of a ModRM byte. -/
def mod (modrm : UInt8) : UInt8 := modrm >>> 6

/-- The register field of a ModRM byte, which may extend the opcode. -/
def reg (modrm : UInt8) : UInt8 := (modrm >>> 3) &&& 7

/-- The operand field of a ModRM byte. -/
def rm (modrm : UInt8) : UInt8 := modrm &&& 7

/-- There is such an opcode, with such a ModRM byte if it has one. -/
def Opcode.isDefined : Opcode → UInt8 → Bool
  | one b, modrm =>
    b ∉ [0x06, 0x07, 0x0e, 0x16, 0x17, 0x1e, 0x1f, 0x27, 0x2f, 0x37, 0x3f, 0x60, 0x61, 0x62, 0x82,
        0x9a, 0xc4, 0xc5, 0xce, 0xd4, 0xd5, 0xd6, 0xea] &&
      -- The operand of `lea` is in memory.
      (b != 0x8d || mod modrm != 3) &&
      -- The groups that leave out some operations.
      (b != 0x8f || reg modrm == 0) && (b != 0xfe || reg modrm < 2) && (b != 0xff || reg modrm < 7) &&
      ((b != 0xc6 && b != 0xc7) || reg modrm == 0 || modrm == 0xf8)
  | two b, _ =>
    b ∈ [0x1e, 0x1f, 0xa3, 0xa5, 0xab, 0xad, 0xaf, 0xb0, 0xb1, 0xb3, 0xb6, 0xb7, 0xbb, 0xbc, 0xbd, 0xbe,
        0xbf, 0xc0, 0xc1] ||
      (0x40 ≤ b && b ≤ 0x4f) || (0x80 ≤ b && b ≤ 0x9f)

/-- A ModRM byte follows the opcode. -/
def Opcode.hasModrm : Opcode → Bool
  | one b =>
    (b < 0x40 && b &&& 7 < 4) || (0x80 ≤ b && b ≤ 0x8f) || (0xd0 ≤ b && b ≤ 0xd3) ||
      (0xd8 ≤ b && b ≤ 0xdf) || b ∈ [0x63, 0x69, 0x6b, 0xc0, 0xc1, 0xc6, 0xc7, 0xf6, 0xf7, 0xfe, 0xff]
  | two b => !(0x80 ≤ b && b ≤ 0x8f)

/-- Control flow relative to the instruction; in the group of `0xc7`, the start of
    a transaction. -/
def Opcode.isRelative : Opcode → UInt8 → Bool
  | one b, modrm =>
    (0x70 ≤ b && b ≤ 0x7f) || (0xe0 ≤ b && b ≤ 0xe3) || b ∈ [0xe8, 0xe9, 0xeb] ||
      (b == 0xc7 && modrm == 0xf8)
  | two b, _ => 0x80 ≤ b && b ≤ 0x8f

/-! ## Operands -/

/-- The size of an immediate operand, in itself or by that of the operands. -/
inductive Immediate
  | bytes (n : ℕ)
  /-- As the operands, but at most four bytes. -/
  | operand
  /-- As the operands. -/
  | full
  /-- As an address. -/
  | offset
  deriving DecidableEq

/-- The number of bytes of an immediate operand after these prefixes. -/
def Immediate.size (pre : List UInt8) : Immediate → ℕ
  | bytes n => n
  | operand => min 4 (operandSize pre)
  | full => operandSize pre
  | offset => if 0x67 ∈ pre then 4 else 8

/-- The immediate operand of an opcode, which may depend on the ModRM byte. -/
def Opcode.immediate : Opcode → UInt8 → Immediate
  | one b, modrm =>
    if b < 0x40 then
      if b &&& 7 = 4 then .bytes 1 else if b &&& 7 = 5 then .operand else .bytes 0
    else if (0x70 ≤ b ∧ b ≤ 0x80) ∨ (0xb0 ≤ b ∧ b ≤ 0xb7) ∨ (0xe0 ≤ b ∧ b ≤ 0xe7) ∨
        b ∈ [0x6a, 0x6b, 0x82, 0x83, 0xa8, 0xc0, 0xc1, 0xc6, 0xcd, 0xeb] then .bytes 1
    else if b ∈ [0x68, 0x69, 0x81, 0xa9, 0xc7] then .operand
    else if 0xb8 ≤ b ∧ b ≤ 0xbf then .full
    else if 0xa0 ≤ b ∧ b ≤ 0xa3 then .offset
    else if b ∈ [0xc2, 0xca] then .bytes 2
    else if b = 0xc8 then .bytes 3
    else if b ∈ [0xe8, 0xe9] then .bytes 4
    else if b = 0xf6 ∧ reg modrm < 2 then .bytes 1
    else if b = 0xf7 ∧ reg modrm < 2 then .operand
    else .bytes 0
  | two b, _ => if 0x80 ≤ b ∧ b ≤ 0x8f then .bytes 4 else .bytes 0

/-- A SIB byte follows. -/
def hasSib (modrm : UInt8) : Bool := mod modrm != 3 && rm modrm == 4

/-- The operand is in memory, at an address relative to the instruction. -/
def isRipRelative (modrm : UInt8) : Bool := mod modrm == 0 && rm modrm == 5

/-- The number of bytes of the displacement after the ModRM and SIB bytes. -/
def displacementSize (modrm sib : UInt8) : ℕ :=
  if mod modrm = 1 then 1
  else if mod modrm = 2 then 4
  else if isRipRelative modrm ∨ (hasSib modrm ∧ mod modrm = 0 ∧ sib &&& 7 = 5) then 4
  else 0

/-- The size of an addressing form: the ModRM byte and what belongs to it. -/
def addressingSize (modrm sib : UInt8) : ℕ :=
  1 + (if hasSib modrm then 1 else 0) + displacementSize modrm sib

/-! ## Instructions -/

/-- An instruction, as the architecture decodes it. -/
@[ext]
structure Instruction where
  length : ℕ
  /-- It is control flow relative to itself. -/
  isRelative : Bool
  /-- It has an operand at an address relative to itself. -/
  isRipRelative : Bool
  deriving DecidableEq

/-- The byte after the opcode of bytes: the ModRM byte, if the opcode has one. -/
def modrmByte (bytes : List UInt8) (op : Opcode) : UInt8 :=
  bytes.getD ((prefixes bytes).length + op.size) 0

/-- The size of what precedes an immediate operand. -/
def headSize (bytes : List UInt8) (op : Opcode) : ℕ :=
  (prefixes bytes).length + op.size +
    if op.hasModrm then
      addressingSize (modrmByte bytes op) (bytes.getD ((prefixes bytes).length + op.size + 1) 0)
    else 0

/-- The immediate operand. -/
def immediate (bytes : List UInt8) (op : Opcode) : Immediate := op.immediate (modrmByte bytes op)

/-- The instruction with this opcode, whatever its length. -/
def instruction (bytes : List UInt8) (op : Opcode) : Instruction where
  length := headSize bytes op + (immediate bytes op).size (prefixes bytes)
  isRelative := op.isRelative (modrmByte bytes op)
  isRipRelative := op.hasModrm && X86.isRipRelative (modrmByte bytes op)

/-- The instruction that the bytes start with: it is defined and within them, and
    has at most 15 bytes. -/
def decode (bytes : List UInt8) : Option Instruction :=
  match opcodeAt bytes (prefixes bytes).length with
  | none => none
  | some op =>
    let i := instruction bytes op
    if op.isDefined (modrmByte bytes op) ∧ i.length ≤ bytes.length ∧ i.length ≤ 15 then some i
    else none

/-- The instructions of bytes, one after another from the first byte on, reach a
    place. -/
inductive Boundary (bytes : List UInt8) : ℕ → Prop
  | zero : Boundary bytes 0
  | next {k : ℕ} {i : Instruction} (h : Boundary bytes k) (hi : decode (bytes.drop k) = some i) :
      Boundary bytes (k + i.length)

theorem decode_eq_some {bytes : List UInt8} {op : Opcode}
    (hop : opcodeAt bytes (prefixes bytes).length = some op) {i : Instruction} :
    decode bytes = some i ↔
      (op.isDefined (modrmByte bytes op) ∧ (instruction bytes op).length ≤ bytes.length ∧
        (instruction bytes op).length ≤ 15) ∧ instruction bytes op = i := by
  rw [decode, hop]
  dsimp only
  split_ifs with h
  · rw [Option.some.injEq]
    exact ⟨fun hi => ⟨h, hi⟩, fun hi => hi.2⟩
  · exact iff_of_false nofun fun hi => h hi.1

end X86
