import CommonFps.Lib.X86
import CommonFps.ShellUi.Prologue

/-!
# The boundaries of the displaced instructions

The instructions that the renderer displaces (`decode_relocatable_instruction`,
`native_patch_length`), compared with those that the processor decodes from the
same bytes. They differ where the prefixes of an immediate operand are misread, and
where the opcode is none in 64-bit mode or starts a transaction.

* `Copies`: what an instruction that is not refused is taken for;
* `IsOrdinary`: the instructions that the processor takes for the same;
* `prologue_boundary_iff`: a patch is made of whole instructions, none of them
  relative to its place, exactly if these are ordinary;
* `prologue_boundary_split`: a patch that ends within an instruction.
-/

namespace CommonFps

/-- The bytes of a code. -/
def firstBytes (code : ℕ → UInt8) (n : ℕ) : List UInt8 := (List.range n).map code

theorem length_firstBytes (code : ℕ → UInt8) (n : ℕ) : (firstBytes code n).length = n := by
  rw [firstBytes, List.length_map, List.length_range]

theorem getElem?_firstBytes (code : ℕ → UInt8) (n k : ℕ) :
    (firstBytes code n)[k]? = if k < n then some (code k) else none := by
  rw [firstBytes, List.getElem?_map]
  split_ifs with h
  · rw [List.getElem?_range h]
    rfl
  · rw [List.getElem?_eq_none (by rw [List.length_range]; omega)]
    rfl

theorem getD_firstBytes {code : ℕ → UInt8} {n k : ℕ} (h : k < n) :
    (firstBytes code n).getD k 0 = code k := by
  rw [List.getD_eq_getElem?_getD, getElem?_firstBytes, if_pos h, Option.getD_some]

theorem drop_firstBytes (code : ℕ → UInt8) (n k : ℕ) :
    (firstBytes code n).drop k = firstBytes (fun i => code (k + i)) (n - k) := by
  refine List.ext_getElem? fun i => ?_
  rw [List.getElem?_drop, getElem?_firstBytes, getElem?_firstBytes]
  split_ifs <;> first | rfl | omega

/-! ## Prefixes -/

/-- The last REX prefix widens the operands, wherever it stands. -/
def lastRexW (pre : List UInt8) : Bool := (pre.filter X86.isRex).getLast?.any X86.hasW

theorem drop_firstBytes_cons {code : ℕ → UInt8} {n k : ℕ} (h : k < n) :
    (firstBytes code n).drop k = code k :: (firstBytes code n).drop (k + 1) := by
  rw [List.drop_eq_getElem_cons (by rwa [length_firstBytes])]
  simp only [firstBytes, List.getElem_map, List.getElem_range]

theorem isPrefix_cases {b : UInt8} (h : X86.isPrefix b) :
    b = 0x66 ∨ b = 0x67 ∨ isLegacyPrefix b ∨ 0x40 ≤ b ∧ b ≤ 0x4f := by
  revert b
  decide +kernel

theorem isLegacyPrefix_spec {b : UInt8} (h : isLegacyPrefix b) :
    X86.isPrefix b ∧ X86.isRex b = false ∧ b ≠ 0x66 ∧ b ≠ 0x67 := by
  revert b
  decide +kernel

theorem rexPrefix_spec {b : UInt8} (h : 0x40 ≤ b ∧ b ≤ 0x4f) :
    X86.isPrefix b ∧ X86.isRex b ∧ b ≠ 0x66 ∧ b ≠ 0x67 := by
  revert b
  decide +kernel

/-- What skipping the prefixes finds out, after what it found out before. -/
structure Prefixes.Skips (p q : Prefixes) (pre : List UInt8) : Prop where
  cursor : q.cursor = p.cursor + pre.length
  operand16 : q.operand16 ↔ p.operand16 ∨ 0x66 ∈ pre
  rexW : q.rexW = ((pre.filter X86.isRex).getLast?.map X86.hasW).getD p.rexW
  address : 0x67 ∉ pre

/-- A prefix before others. -/
theorem Prefixes.Skips.cons {p q : Prefixes} {b : UInt8} {pre : List UInt8} {operand16 rexW : Bool}
    (h : Prefixes.Skips ⟨p.cursor + 1, rexW, operand16⟩ q pre)
    (hoperand : operand16 ↔ p.operand16 ∨ 0x66 = b)
    (hrex : rexW = if X86.isRex b then X86.hasW b else p.rexW) (hb : b ≠ 0x67) :
    p.Skips q (b :: pre) where
  cursor := by rw [h.cursor, List.length_cons, Nat.add_assoc, Nat.add_comm 1]
  operand16 := by rw [h.operand16, hoperand, List.mem_cons, or_assoc]
  rexW := by
    rw [h.rexW, hrex]
    split_ifs with hrexByte
    · rw [List.filter_cons_of_pos hrexByte, List.getLast?_cons]
      cases (pre.filter X86.isRex).getLast? <;> rfl
    · rw [List.filter_cons_of_neg hrexByte]
  address := by
    rw [List.mem_cons, not_or]
    exact ⟨Ne.symm hb, h.address⟩

theorem skipPrefixes_spec {code : ℕ → UInt8} {available : ℕ} {p q : Prefixes}
    (h : skipPrefixes code available p = some q) :
    p.Skips q (X86.prefixes ((firstBytes code available).drop p.cursor)) := by
  have hskip {p : Prefixes} (hlt : p.cursor < available) (hpre : X86.isPrefix (code p.cursor)) :
      X86.prefixes ((firstBytes code available).drop p.cursor) =
        code p.cursor :: X86.prefixes ((firstBytes code available).drop (p.cursor + 1)) := by
    rw [drop_firstBytes_cons hlt, X86.prefixes, List.takeWhile_cons_of_pos hpre]
    rfl
  induction p using skipPrefixes.induct code available with
  | case1 p hlt byte h66 ih =>
    rw [skipPrefixes, if_pos hlt, if_pos h66] at h
    have hbyte : code p.cursor = 0x66 := h66
    rw [hskip hlt (by rw [hbyte]; decide), hbyte]
    exact (ih h).cons (by simp) rfl (by decide)
  | case2 p hlt byte h66 h67 =>
    rw [skipPrefixes, if_pos hlt, if_neg h66, if_pos h67] at h
    cases h
  | case3 p hlt byte h66 h67 hlegacy ih =>
    rw [skipPrefixes, if_pos hlt, if_neg h66, if_neg h67, if_pos hlegacy] at h
    obtain ⟨hpre, hrex, hne, hne'⟩ := isLegacyPrefix_spec hlegacy
    rw [hskip hlt hpre]
    exact (ih h).cons (or_iff_left (Ne.symm hne)).symm (by rw [hrex]; rfl) hne'
  | case4 p hlt byte h66 h67 hlegacy hrange ih =>
    rw [skipPrefixes, if_pos hlt, if_neg h66, if_neg h67, if_neg hlegacy, if_pos hrange] at h
    obtain ⟨hpre, hrex, hne, hne'⟩ := rexPrefix_spec hrange
    rw [hskip hlt hpre]
    exact (ih h).cons (or_iff_left (Ne.symm hne)).symm (by rw [if_pos hrex]; rfl) hne'
  | case5 p hlt byte h66 h67 hlegacy hrange =>
    rw [skipPrefixes, if_pos hlt, if_neg h66, if_neg h67, if_neg hlegacy, if_neg hrange] at h
    obtain rfl : p = q := Option.some.inj h
    have hpre : ¬X86.isPrefix (code p.cursor) := by
      intro hpre
      rcases isPrefix_cases hpre with hb | hb | hb | hb
      · exact h66 hb
      · exact h67 hb
      · exact hlegacy hb
      · exact hrange hb
    rw [drop_firstBytes_cons hlt, X86.prefixes, List.takeWhile_cons_of_neg hpre]
    exact ⟨rfl, by simp, rfl, List.not_mem_nil⟩
  | case6 p hge =>
    rw [skipPrefixes, if_neg hge] at h
    obtain rfl : p = q := Option.some.inj h
    rw [List.drop_eq_nil_of_le (by rw [length_firstBytes]; omega)]
    exact ⟨rfl, by simp [X86.prefixes], rfl, List.not_mem_nil⟩

/-! ## Operands -/

theorem within_spec {available cursor n : ℕ} (h : within available cursor = n) (hn : n ≠ 0) :
    n = cursor ∧ n ≤ available := by
  rw [within] at h
  split_ifs at h with hle
  · exact ⟨h.symm, h ▸ hle⟩
  · exact absurd h.symm hn

theorem skipSib_spec {code : ℕ → UInt8} {available cursor next : ℕ} {modrm : UInt8}
    (h : skipSib code available cursor (X86.mod modrm) (X86.rm modrm) = some next) :
    X86.isRipRelative modrm = false ∧ (X86.hasSib modrm → cursor < available) ∧
      next = cursor + (if X86.hasSib modrm then 1 else 0) +
        if X86.hasSib modrm ∧ X86.mod modrm = 0 ∧ code cursor &&& 7 = 5 then 4 else 0 := by
  have hsib : X86.hasSib modrm ↔ X86.mod modrm ≠ 3 ∧ X86.rm modrm = 4 := by
    simp [X86.hasSib]
  have hrip : X86.isRipRelative modrm ↔ X86.mod modrm = 0 ∧ X86.rm modrm = 5 := by
    simp [X86.isRipRelative]
  rw [skipSib] at h
  dsimp only at h
  split_ifs at h <;> cases h
  · grind
  · grind
  · grind

theorem skipDisplacement_spec {available cursor next : ℕ} {mod : UInt8}
    (h : skipDisplacement available cursor mod = some next) :
    next = cursor + if mod = 1 then 1 else if mod = 2 then 4 else 0 := by
  rw [skipDisplacement] at h
  split_ifs at h ⊢ <;> cases h <;> rfl

/-- The operands that are skipped are those of the addressing form. -/
theorem skipOperands_spec {code : ℕ → UInt8} {available cursor immediate n : ℕ}
    (h : skipOperands code available cursor immediate = n) (hn : n ≠ 0) :
    X86.isRipRelative (code cursor) = false ∧ cursor < available ∧ n ≤ available ∧
      n = cursor + X86.addressingSize (code cursor) ((firstBytes code available).getD (cursor + 1) 0) +
        immediate := by
  rw [skipOperands] at h
  split_ifs at h with hcursor
  · exact absurd h.symm hn
  dsimp only at h
  cases hsib : skipSib code available (cursor + 1) (code cursor >>> 6) (code cursor &&& 7) with
  | none =>
    rw [hsib] at h
    exact absurd h.symm hn
  | some next =>
    rw [hsib] at h
    dsimp only at h
    cases hdisp : skipDisplacement available next (code cursor >>> 6) with
    | none =>
      rw [hdisp] at h
      exact absurd h.symm hn
    | some next' =>
      rw [hdisp] at h
      obtain ⟨hlen, hle⟩ := within_spec h hn
      obtain ⟨hrip, hlt, hnext⟩ : X86.isRipRelative (code cursor) = false ∧ _ := skipSib_spec hsib
      have hnext' := skipDisplacement_spec hdisp
      refine ⟨hrip, not_le.1 hcursor, hle, ?_⟩
      have hsibByte : X86.hasSib (code cursor) →
          (firstBytes code available).getD (cursor + 1) 0 = code (cursor + 1) :=
        fun h => getD_firstBytes (hlt h)
      have hmod : code cursor >>> 6 = X86.mod (code cursor) := rfl
      rw [hmod] at hnext'
      -- Both add up the ModRM byte, the SIB byte if there is one, and the displacement.
      rw [X86.addressingSize, X86.displacementSize, hrip]
      grind

/-! ## Opcodes -/

/-- The opcodes that are not refused. -/
def isCopied : X86.Opcode → Bool
  | .one b =>
    (0x50 ≤ b && b ≤ 0x5f) || (0xb8 ≤ b && b ≤ 0xbf) ||
      b ∈ [0x68, 0x6a, 0x90, 0x01, 0x03, 0x09, 0x0b, 0x21, 0x23, 0x29, 0x2b, 0x31, 0x33, 0x39, 0x3b,
        0x63, 0x85, 0x87, 0x89, 0x8b, 0x8d, 0x80, 0x82, 0x83, 0xc6, 0x81, 0xc7]
  | .two b => b ∈ [0x1e, 0x1f, 0xb6, 0xb7, 0xbe, 0xbf]

/-- The size that an immediate operand is taken to have: any operand-size prefix
    counts, and the last REX prefix. -/
def copiedSize (pre : List UInt8) : X86.Immediate → ℕ
  | .bytes n => n
  | .operand => if 0x66 ∈ pre then 2 else 4
  | .full => if lastRexW pre then 8 else if 0x66 ∈ pre then 2 else 4
  | .offset => 0

/-- The first instruction of bytes is taken to have this opcode and this length. -/
structure Copies (bytes : List UInt8) (n : ℕ) (op : X86.Opcode) : Prop where
  opcode : X86.opcodeAt bytes (X86.prefixes bytes).length = some op
  copied : isCopied op
  isRipRelative : (X86.instruction bytes op).isRipRelative = false
  le : n ≤ bytes.length
  length : n = X86.headSize bytes op + copiedSize (X86.prefixes bytes) (X86.immediate bytes op)

/-- The immediate operand of such an opcode does not depend on the byte after it. -/
theorem immediate_eq {op : X86.Opcode} (h : isCopied op) (modrm : UInt8) :
    op.immediate modrm = op.immediate 0 := by
  cases op with
  | one b =>
    have hne : ∀ b : UInt8, isCopied (.one b) → b ≠ 0xf6 ∧ b ≠ 0xf7 := by decide +kernel
    simp only [X86.Opcode.immediate, hne b h, false_and]
  | two b => rfl

section Decoding

variable {code : ℕ → UInt8} {available n : ℕ} {b : UInt8}

/-- An instruction without an addressing form. -/
theorem copies_of_implicit {k : ℕ} (hk : k = (X86.prefixes (firstBytes code available)).length)
    (hlt : k < available) (hb : code k = b) (hcopied : isCopied (.one b))
    (hmodrm : (X86.Opcode.one b).hasModrm = false) (hle : n ≤ available)
    (hn : n = k + 1 + copiedSize (X86.prefixes (firstBytes code available))
      (X86.immediate (firstBytes code available) (.one b))) :
    Copies (firstBytes code available) n (.one b) where
  opcode := by
    have hne : b ≠ 0x0f := by
      rintro rfl
      exact absurd hcopied (by decide)
    rw [X86.opcodeAt, ← hk, getElem?_firstBytes, if_pos hlt, hb]
    exact if_neg hne
  copied := hcopied
  isRipRelative := by simp only [X86.instruction, hmodrm, Bool.false_and]
  le := by rwa [length_firstBytes]
  length := by rw [X86.headSize, hmodrm, if_neg Bool.false_ne_true, ← hk, hn]; rfl

/-- An instruction with an addressing form. -/
theorem copies_of_modrm {op : X86.Opcode} {cursor : ℕ}
    (hop : X86.opcodeAt (firstBytes code available)
      (X86.prefixes (firstBytes code available)).length = some op)
    (hcursor : cursor = (X86.prefixes (firstBytes code available)).length + op.size)
    (hcopied : isCopied op) (hmodrm : op.hasModrm)
    (h : skipOperands code available cursor (copiedSize (X86.prefixes (firstBytes code available))
      (X86.immediate (firstBytes code available) op)) = n) (hn : n ≠ 0) :
    Copies (firstBytes code available) n op := by
  obtain ⟨hrip, hlt, hle, hlen⟩ := skipOperands_spec h hn
  have hbyte : X86.modrmByte (firstBytes code available) op = code cursor := by
    rw [X86.modrmByte, ← hcursor, getD_firstBytes hlt]
  refine ⟨hop, hcopied, ?_, by rwa [length_firstBytes], ?_⟩
  · simp only [X86.instruction, hbyte, hrip, Bool.and_false]
  · rw [X86.headSize, if_pos hmodrm, hbyte, ← hcursor]
    exact hlen

/-- An opcode with an addressing form, and the size that its immediate operand is
    taken to have. -/
theorem modrmOpcode_spec {k cursor size : ℕ} {operand16 : Bool}
    (hk : k = (X86.prefixes (firstBytes code available)).length) (hlt : k < available)
    (hoperand : operand16 ↔ 0x66 ∈ X86.prefixes (firstBytes code available))
    (h : modrmOpcode code available (k + 1) (code k) operand16 = some (cursor, size)) :
    ∃ op, X86.opcodeAt (firstBytes code available)
        (X86.prefixes (firstBytes code available)).length = some op ∧
      cursor = k + op.size ∧ isCopied op ∧ op.hasModrm ∧
      size = copiedSize (X86.prefixes (firstBytes code available)) (op.immediate 0) := by
  have hopcode (b : UInt8) (hb : code k = b) (hne : b ≠ 0x0f) :
      X86.opcodeAt (firstBytes code available) (X86.prefixes (firstBytes code available)).length =
        some (.one b) := by
    rw [X86.opcodeAt, ← hk, getElem?_firstBytes, if_pos hlt, hb]
    exact if_neg hne
  have hoperandSize : (if operand16 then 2 else 4) =
      copiedSize (X86.prefixes (firstBytes code available)) .operand := by
    simp only [copiedSize, hoperand]
  generalize hb : code k = b at h
  rw [modrmOpcode, hoperandSize] at h
  -- Over the 256 opcodes of one byte, each class is decided.
  split_ifs at h with hplain hbyte hoper h0f hend
  · obtain ⟨hne, hspec⟩ : b ≠ 0x0f ∧ isCopied (.one b) ∧ (X86.Opcode.one b).hasModrm ∧
        (X86.Opcode.one b).immediate 0 = .bytes 0 := by
      clear * - hplain
      revert b
      decide +kernel
    cases h
    exact ⟨_, hopcode b hb hne, rfl, hspec.1, hspec.2.1, by rw [hspec.2.2]; rfl⟩
  · obtain ⟨hne, hspec⟩ : b ≠ 0x0f ∧ isCopied (.one b) ∧ (X86.Opcode.one b).hasModrm ∧
        (X86.Opcode.one b).immediate 0 = .bytes 1 := by
      clear * - hbyte
      revert b
      decide +kernel
    cases h
    exact ⟨_, hopcode b hb hne, rfl, hspec.1, hspec.2.1, by rw [hspec.2.2]; rfl⟩
  · obtain ⟨hne, hspec⟩ : b ≠ 0x0f ∧ isCopied (.one b) ∧ (X86.Opcode.one b).hasModrm ∧
        (X86.Opcode.one b).immediate 0 = .operand := by
      clear * - hoper
      revert b
      decide +kernel
    cases h
    exact ⟨_, hopcode b hb hne, rfl, hspec.1, hspec.2.1, by rw [hspec.2.2]⟩
  · rw [h0f] at hb
    dsimp only at h
    split_ifs at h with hjump htwo
    have hop : X86.opcodeAt (firstBytes code available)
        (X86.prefixes (firstBytes code available)).length = some (.two (code (k + 1))) := by
      rw [X86.opcodeAt, ← hk, getElem?_firstBytes, if_pos hlt, hb, getElem?_firstBytes,
        if_pos (not_le.1 hend)]
      rfl
    have hmodrm : (X86.Opcode.two (code (k + 1))).hasModrm ∧
        (X86.Opcode.two (code (k + 1))).immediate 0 = .bytes 0 := by
      generalize code (k + 1) = second at htwo
      clear * - htwo
      revert second
      decide +kernel
    cases h
    exact ⟨_, hop, rfl, decide_eq_true htwo, hmodrm.1, by rw [hmodrm.2]; rfl⟩

/-- An instruction that is not refused is taken to have a length. -/
theorem copies_of_decoded (h : decodeRelocatableInstruction code available = n) (hn : n ≠ 0) :
    ∃ op, Copies (firstBytes code available) n op := by
  rw [decodeRelocatableInstruction] at h
  cases hskip : skipPrefixes code available ⟨0, false, false⟩ with
  | none =>
    rw [hskip] at h
    exact absurd h.symm hn
  | some p =>
    rw [hskip] at h
    obtain ⟨hcursor, hoperand, hrex, -⟩ := skipPrefixes_spec hskip
    rw [List.drop_zero] at hcursor hoperand hrex
    rw [Nat.zero_add] at hcursor
    rw [or_iff_right Bool.false_ne_true] at hoperand
    have hfull : p.rexW = lastRexW (X86.prefixes (firstBytes code available)) := by
      rw [hrex, lastRexW]
      cases ((X86.prefixes (firstBytes code available)).filter X86.isRex).getLast? <;> rfl
    -- The sizes of the operands depend on the prefixes alone.
    have hoperandSize : (if p.operand16 then 2 else 4) =
        copiedSize (X86.prefixes (firstBytes code available)) .operand := by
      simp only [copiedSize, hoperand]
    have hfullSize : (if p.rexW then 8 else if p.operand16 then 2 else 4) =
        copiedSize (X86.prefixes (firstBytes code available)) .full := by
      simp only [copiedSize, hoperand, hfull]
    dsimp only at h
    rw [hfullSize, hoperandSize] at h
    generalize hb : code p.cursor = b at h
    split_ifs at h with hend hnone h68 h6a hb8 hrelative
    · exact absurd h.symm hn
    · obtain ⟨hcopied, hmodrm, himm⟩ : isCopied (.one b) ∧ (X86.Opcode.one b).hasModrm = false ∧
          (X86.Opcode.one b).immediate 0 = .bytes 0 := by
        clear * - hnone
        revert b
        decide +kernel
      refine ⟨_, copies_of_implicit hcursor (not_le.1 hend) hb hcopied hmodrm ?_ ?_⟩
      · omega
      · rw [X86.immediate, immediate_eq hcopied, himm]
        exact h.symm
    · obtain ⟨hlen, hle⟩ := within_spec h hn
      rw [h68] at hb
      exact ⟨_, copies_of_implicit hcursor (not_le.1 hend) hb rfl rfl hle hlen⟩
    · obtain ⟨hlen, hle⟩ := within_spec h hn
      rw [h6a] at hb
      exact ⟨_, copies_of_implicit hcursor (not_le.1 hend) hb rfl rfl hle hlen⟩
    · obtain ⟨hcopied, hmodrm, himm⟩ : isCopied (.one b) ∧ (X86.Opcode.one b).hasModrm = false ∧
          (X86.Opcode.one b).immediate 0 = .full := by
        clear * - hb8
        revert b
        decide +kernel
      obtain ⟨hlen, hle⟩ := within_spec h hn
      refine ⟨_, copies_of_implicit hcursor (not_le.1 hend) hb hcopied hmodrm hle ?_⟩
      rw [X86.immediate, immediate_eq hcopied, himm]
      exact hlen
    · exact absurd h.symm hn
    · cases hmodrm : modrmOpcode code available (p.cursor + 1) b p.operand16 with
      | none =>
        rw [hmodrm] at h
        exact absurd h.symm hn
      | some operands =>
        rw [hmodrm] at h
        rw [← hb] at hmodrm
        obtain ⟨op, hop, hnext, hcopied, hhas, hsize⟩ :=
          modrmOpcode_spec hcursor (not_le.1 hend) hoperand hmodrm
        refine ⟨op, copies_of_modrm hop (hcursor ▸ hnext) hcopied hhas ?_ hn⟩
        rw [X86.immediate, immediate_eq hcopied, ← hsize]
        exact h

end Decoding

/-! ## Lengths -/

/-- The first instruction of bytes, of this opcode, is none of those that are
    taken for another one. -/
structure IsOrdinary (bytes : List UInt8) (op : X86.Opcode) : Prop where
  /-- `0x82` is no opcode in 64-bit mode. -/
  group : op ≠ .one 0x82
  /-- The operand of `lea` is in memory. -/
  address : op = .one 0x8d → X86.mod (X86.modrmByte bytes op) ≠ 3
  /-- The group of `0xc6` has a move and the end of a transaction. -/
  moveByte : op = .one 0xc6 → X86.reg (X86.modrmByte bytes op) = 0 ∨ X86.modrmByte bytes op = 0xf8
  /-- The group of `0xc7` has a move, and the start of a transaction, which is
      control flow. -/
  move : op = .one 0xc7 → X86.reg (X86.modrmByte bytes op) = 0
  /-- REX.W overrides the operand-size prefix. -/
  operand : X86.immediate bytes op = .operand →
    ¬(0x66 ∈ X86.prefixes bytes ∧ X86.rexW (X86.prefixes bytes))
  /-- REX.W stands immediately before the opcode. -/
  full : X86.immediate bytes op = .full →
    lastRexW (X86.prefixes bytes) = X86.rexW (X86.prefixes bytes)
  length : (X86.instruction bytes op).length ≤ 15

theorem isDefined_iff {op : X86.Opcode} (h : isCopied op) (modrm : UInt8) :
    op.isDefined modrm ∧ op.isRelative modrm = false ↔
      op ≠ .one 0x82 ∧ (op = .one 0x8d → X86.mod modrm ≠ 3) ∧
        (op = .one 0xc6 → X86.reg modrm = 0 ∨ modrm = 0xf8) ∧
          (op = .one 0xc7 → X86.reg modrm = 0) := by
  have hstart : X86.reg 0xf8 ≠ 0 := by decide
  cases op with
  | two b =>
    have hplain : ∀ b : UInt8, isCopied (.two b) →
        (X86.Opcode.two b).isDefined 0 ∧ (X86.Opcode.two b).isRelative 0 = false := by decide +kernel
    exact iff_of_true (hplain b h) ⟨nofun, nofun, nofun, nofun⟩
  | one b =>
    -- What the opcode alone decides.
    have hplain : ∀ b : UInt8, isCopied (.one b) → b ≠ 0x82 →
        b ∉ [0x06, 0x07, 0x0e, 0x16, 0x17, 0x1e, 0x1f, 0x27, 0x2f, 0x37, 0x3f, 0x60, 0x61, 0x62, 0x82,
          0x9a, 0xc4, 0xc5, 0xce, 0xd4, 0xd5, 0xd6, 0xea] ∧ b ≠ 0x8f ∧ b ≠ 0xfe ∧ b ≠ 0xff ∧
        ((0x70 ≤ b && b ≤ 0x7f) || (0xe0 ≤ b && b ≤ 0xe3) || b ∈ [0xe8, 0xe9, 0xeb]) = false := by
      decide +kernel
    by_cases hgroup : b = 0x82
    · rw [hgroup]
      exact iff_of_false (fun hd => absurd hd.1 Bool.false_ne_true) fun ho => ho.1 rfl
    · obtain ⟨hdefined, h8f, hfe, hff, hrelative⟩ := hplain b h hgroup
      simp only [X86.Opcode.isDefined, X86.Opcode.isRelative, hrelative, X86.Opcode.one.injEq,
        ne_eq, hgroup, hdefined]
      grind

theorem copiedSize_eq_iff {op : X86.Opcode} (h : isCopied op) (modrm : UInt8) (pre : List UInt8) :
    (op.immediate modrm).size pre = copiedSize pre (op.immediate modrm) ↔
      (op.immediate modrm = .operand → ¬(0x66 ∈ pre ∧ X86.rexW pre)) ∧
        (op.immediate modrm = .full → lastRexW pre = X86.rexW pre) := by
  have hoffset : op.immediate modrm ≠ .offset := by
    rw [immediate_eq h]
    cases op with
    | one b =>
      revert b
      decide +kernel
    | two b =>
      revert b
      decide +kernel
  cases himm : op.immediate modrm with
  | bytes n => exact iff_of_true rfl ⟨nofun, nofun⟩
  | operand =>
    simp only [X86.Immediate.size, X86.operandSize, copiedSize]
    split_ifs <;> simp_all
  | full =>
    simp only [X86.Immediate.size, X86.operandSize, copiedSize]
    split_ifs <;> simp_all
  | offset => exact absurd himm hoffset

/-- An instruction that is not refused is copied as the processor decodes it
    exactly if it is ordinary. -/
theorem Copies.decode_iff {bytes : List UInt8} {n : ℕ} {op : X86.Opcode} (h : Copies bytes n op) :
    X86.decode bytes = some ⟨n, false, false⟩ ↔ IsOrdinary bytes op := by
  have hdefined := isDefined_iff h.copied (X86.modrmByte bytes op)
  have hsize := copiedSize_eq_iff h.copied (X86.modrmByte bytes op) (X86.prefixes bytes)
  have hlength : (X86.instruction bytes op).length = n ↔
      (X86.immediate bytes op).size (X86.prefixes bytes) =
        copiedSize (X86.prefixes bytes) (X86.immediate bytes op) := by
    rw [h.length, X86.instruction]
    exact Nat.add_left_cancel_iff
  rw [X86.decode_eq_some h.opcode]
  constructor
  · rintro ⟨⟨hd, -, hshort⟩, hi⟩
    rw [hi] at hshort
    have hn : (X86.instruction bytes op).length = n := by rw [hi]
    have hrelative : op.isRelative (X86.modrmByte bytes op) = false := congrArg (·.isRelative) hi
    obtain ⟨hgroup, haddress, hmoveByte, hmove⟩ := hdefined.1 ⟨hd, hrelative⟩
    obtain ⟨hoperand, hfull⟩ := hsize.1 (hlength.1 hn)
    exact ⟨hgroup, haddress, hmoveByte, hmove, hoperand, hfull, hn.trans_le hshort⟩
  · intro ho
    obtain ⟨hd, hrelative⟩ := hdefined.2 ⟨ho.group, ho.address, ho.moveByte, ho.move⟩
    have hn := hlength.2 (hsize.2 ⟨ho.operand, ho.full⟩)
    have hi : X86.instruction bytes op = ⟨n, false, false⟩ :=
      X86.Instruction.ext hn hrelative h.isRipRelative
    exact ⟨⟨hd, hn.trans_le h.le, ho.length⟩, hi⟩

/-! ## Patches -/

/-- The places that the displaced instructions are decoded from, and the end of the
    last one. -/
inductive DecodedAt (code : ℕ → UInt8) : ℕ → Prop
  | zero : DecodedAt code 0
  | next {k : ℕ} (h : DecodedAt code k) (hk : k < kAbsoluteJumpSize)
      (hne : decodeRelocatableInstruction (fun i => code (k + i)) (kAtomicPatchSize - k) ≠ 0) :
      DecodedAt code
        (k + decodeRelocatableInstruction (fun i => code (k + i)) (kAtomicPatchSize - k))

/-- The bytes that may be displaced. -/
def patchBytes (code : ℕ → UInt8) : List UInt8 := firstBytes code kAtomicPatchSize

theorem drop_patchBytes (code : ℕ → UInt8) (k : ℕ) :
    (patchBytes code).drop k = firstBytes (fun i => code (k + i)) (kAtomicPatchSize - k) :=
  drop_firstBytes code kAtomicPatchSize k

/-- Each displaced instruction is one that the processor decodes there, which is not
    relative to its place, and together they are whole instructions. -/
structure IsMovable (code : ℕ → UInt8) : Prop where
  whole : X86.Boundary (patchBytes code) (nativePatchLength code)
  decoded : ∀ k, DecodedAt code k → k < kAbsoluteJumpSize →
    X86.decode ((patchBytes code).drop k) = some
      ⟨decodeRelocatableInstruction (fun i => code (k + i)) (kAtomicPatchSize - k), false, false⟩

/-- The first instruction of bytes is ordinary. -/
def StartsOrdinary (bytes : List UInt8) : Prop :=
  ∀ op, X86.opcodeAt bytes (X86.prefixes bytes).length = some op → IsOrdinary bytes op

theorem decode_eq_some_iff_ordinary {code : ℕ → UInt8} {available : ℕ}
    (hne : decodeRelocatableInstruction code available ≠ 0) :
    X86.decode (firstBytes code available) =
        some ⟨decodeRelocatableInstruction code available, false, false⟩ ↔
      StartsOrdinary (firstBytes code available) := by
  obtain ⟨op, h⟩ := copies_of_decoded rfl hne
  rw [h.decode_iff]
  refine ⟨fun ho op' hop' => ?_, fun ho => ho op h.opcode⟩
  obtain rfl : op' = op := Option.some.inj (hop'.symm.trans h.opcode)
  exact ho

/-- What the loop returns from a place on it also returns from the first byte on. -/
theorem DecodedAt.nativePatchLength_eq {code : ℕ → UInt8} {k : ℕ} (h : DecodedAt code k) :
    nativePatchLengthFrom code k = nativePatchLength code := by
  induction h with
  | zero => rfl
  | next _ hk hne ih =>
    rw [nativePatchLengthFrom, if_pos hk] at ih
    exact (if_neg hne).symm.trans ih

theorem nativePatchLengthFrom_decodedAt {code : ℕ → UInt8} {k : ℕ} (h : DecodedAt code k)
    (hne : nativePatchLengthFrom code k ≠ 0) : DecodedAt code (nativePatchLengthFrom code k) := by
  induction k using nativePatchLengthFrom.induct code with
  | case1 k hlt decoded hzero =>
    rw [nativePatchLengthFrom, if_pos hlt, if_pos hzero] at hne
    exact absurd rfl hne
  | case2 k hlt decoded hdecoded ih =>
    rw [nativePatchLengthFrom, if_pos hlt, if_neg hdecoded] at hne ⊢
    exact ih (h.next hlt hdecoded) hne
  | case3 k hge hle =>
    rw [nativePatchLengthFrom, if_neg hge, if_pos hle]
    exact h
  | case4 k hge hgt =>
    rw [nativePatchLengthFrom, if_neg hge, if_neg hgt] at hne
    exact absurd rfl hne

section Patch

variable {code : ℕ → UInt8} (hne : nativePatchLength code ≠ 0)
include hne

/-- No instruction of a patch is refused. -/
theorem DecodedAt.accepted {k : ℕ} (h : DecodedAt code k) (hk : k < kAbsoluteJumpSize) :
    decodeRelocatableInstruction (fun i => code (k + i)) (kAtomicPatchSize - k) ≠ 0 := by
  intro hzero
  rw [← h.nativePatchLength_eq, nativePatchLengthFrom, if_pos hk] at hne
  exact hne (if_pos hzero)

/-- The processor's instructions are the displaced ones, as long as the latter are
    decoded as the processor does. -/
theorem IsMovable.decodedAt (h : IsMovable code) {k : ℕ}
    (hb : X86.Boundary (patchBytes code) k) (hk : k < kAbsoluteJumpSize) : DecodedAt code k := by
  induction hb with
  | zero => exact .zero
  | @next k i _ hi ih =>
    have hlt : k < kAbsoluteJumpSize := by omega
    have hdecoded := h.decoded k (ih hlt) hlt
    obtain rfl := Option.some.inj (hi.symm.trans hdecoded)
    exact (ih hlt).next hlt ((ih hlt).accepted hne hlt)

omit hne in
theorem DecodedAt.boundary
    (ho : ∀ k, X86.Boundary (patchBytes code) k → k < kAbsoluteJumpSize →
      StartsOrdinary ((patchBytes code).drop k))
    {k : ℕ} (h : DecodedAt code k) : X86.Boundary (patchBytes code) k := by
  induction h with
  | zero => exact .zero
  | @next k _ hk hdecoded ih =>
    have hi := ho k ih hk
    rw [drop_patchBytes, ← decode_eq_some_iff_ordinary hdecoded, ← drop_patchBytes] at hi
    exact ih.next hi

/-- The displaced instructions may be moved exactly if the processor's are ordinary. -/
theorem isMovable_iff : IsMovable code ↔ ∀ k, X86.Boundary (patchBytes code) k →
    k < kAbsoluteJumpSize → StartsOrdinary ((patchBytes code).drop k) := by
  constructor
  · intro h k hb hk
    have hdecoded := h.decodedAt hne hb hk
    have hi := h.decoded k hdecoded hk
    rw [drop_patchBytes] at hi ⊢
    exact (decode_eq_some_iff_ordinary (hdecoded.accepted hne hk)).1 hi
  · intro ho
    have hboundary {k : ℕ} (h : DecodedAt code k) := h.boundary ho
    refine ⟨hboundary (nativePatchLengthFrom_decodedAt .zero hne), fun k hk hlt => ?_⟩
    have hi := ho k (hboundary hk) hlt
    rw [drop_patchBytes] at hi ⊢
    exact (decode_eq_some_iff_ordinary (hk.accepted hne hlt)).2 hi

end Patch

/-- An instruction that is not refused has the length that the processor decodes, and
    is not relative to its place, exactly if it is ordinary; so have all those of a
    patch exactly if the processor's instructions are ordinary, as far as the patch
    reaches. -/
theorem prologue_boundary_iff (code : ℕ → UInt8) :
    (∀ available, decodeRelocatableInstruction code available ≠ 0 →
      (X86.decode (firstBytes code available) =
          some ⟨decodeRelocatableInstruction code available, false, false⟩ ↔
        StartsOrdinary (firstBytes code available))) ∧
    (nativePatchLength code ≠ 0 → (IsMovable code ↔
      ∀ k, X86.Boundary (patchBytes code) k → k < kAbsoluteJumpSize →
        StartsOrdinary ((patchBytes code).drop k))) :=
  ⟨fun _ hne => decode_eq_some_iff_ordinary hne, isMovable_iff⟩

/-- Nine `nop`s and a `push` of four bytes, with both an operand-size prefix and
    REX.W. -/
def widePush (i : ℕ) : UInt8 :=
  (List.replicate 9 (0x90 : UInt8) ++ [0x66, 0x48, 0x68, 0x11, 0x22, 0x33, 0x44]).getD i 0

/-- Of this code 14 bytes are displaced, which end within the `push`. -/
theorem prologue_boundary_split :
    nativePatchLength widePush = 14 ∧ ¬X86.Boundary (patchBytes widePush) 14 ∧
      ¬IsMovable widePush := by
  have hlength : nativePatchLength widePush = 14 := by decide +kernel
  have hnop : ∀ k ≤ 8, X86.decode ((patchBytes widePush).drop k) = some ⟨1, false, false⟩ := by
    decide +kernel
  have hpush : X86.decode ((patchBytes widePush).drop 9) = some ⟨7, false, false⟩ := by
    decide +kernel
  have hend : X86.decode ((patchBytes widePush).drop 16) = none := by decide +kernel
  have hboundary : ∀ k, X86.Boundary (patchBytes widePush) k → k ≤ 9 ∨ k = 16 := by
    intro k hk
    induction hk with
    | zero => exact .inl (Nat.zero_le 9)
    | @next k i _ hi ih =>
      rcases ih with hle | rfl
      · rcases Nat.lt_or_eq_of_le hle with hlt | rfl
        · obtain rfl := Option.some.inj ((hnop k (Nat.le_of_lt_succ hlt)).symm.trans hi)
          exact .inl hlt
        · obtain rfl := Option.some.inj (hpush.symm.trans hi)
          exact .inr rfl
      · cases hend.symm.trans hi
  have hnot : ¬X86.Boundary (patchBytes widePush) 14 := fun h => absurd (hboundary 14 h) (by decide)
  refine ⟨hlength, hnot, fun h => hnot ?_⟩
  rw [← hlength]
  exact h.whole

end CommonFps
