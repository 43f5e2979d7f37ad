import CommonFps.ShellUi.ElfLoader

/-!
# The addresses of the renderer

The mirror of an image holds its pages from the first one on, and is copied to
the mapped pages as a whole: a virtual address is then found at its distance
from the first page (`remoteAddress`). The loader computes its offsets and
addresses from virtual addresses alone.

* `OneBase`: its stores lie in the mirror, and its addresses are those;
* `oneBase_iff`: this is so exactly for the images that are linked at `0`.
-/

namespace CommonFps

/-- Where a virtual address is found, once the mirror is copied to `base`. -/
def remoteAddress (pg : PageRounding) (elf : Memory) (base vaddr : UInt64) : UInt64 :=
  base + (vaddr - baseVaddr pg elf)

/-- Every relocation that is applied lies in a segment. -/
def StoresInLoads (elf : Memory) (base : UInt64) (a : ResolveAnswers) : Prop :=
  ∀ store ∈ (commonfpsApplyRelocations elf base a).1, ∃ segment ∈ loads elf,
    segment.Contains store.rela.offset.toNat 8

instance (segment : Phdr) (address size : ℕ) : Decidable (segment.Contains address size) := by
  unfold Phdr.Contains
  infer_instance

instance (elf : Memory) : Decidable (NoOverflow elf) := by
  unfold NoOverflow
  infer_instance

instance (elf : Memory) (base : UInt64) (a : ResolveAnswers) : Decidable (StoresInLoads elf base a) := by
  unfold StoresInLoads
  infer_instance

/-- The symbol of a relocation that has one, in a section of relocations. -/
structure Rela.HasSymbol (elf : Memory) (rela : Rela) (symbol : Sym) : Prop where
  type : rela.type = R_X86_64_64 ∨ rela.type = R_X86_64_GLOB_DAT
  symbol : ∃ s ∈ shdrs elf, s.type = SHT_RELA ∧ rela ∈ relas elf s ∧
    ∃ table, symbolTable (shdrs elf) s = some table ∧
      symbol = readSym elf (table.symOffset + kSymSize * rela.sym.toUInt64)

/-- What a relocation refers to, by its type and its symbol. -/
inductive Rela.RefersTo (elf : Memory) (rela : Rela) : RelocTarget → Prop
  | relative (h : rela.type = R_X86_64_RELATIVE) : RefersTo elf rela .relative
  | absolute {symbol : Sym} (h : rela.HasSymbol elf symbol) (habs : symbol.shndx = SHN_ABS) :
      RefersTo elf rela (.absolute symbol.value)
  | defined {symbol : Sym} (h : rela.HasSymbol elf symbol) (habs : symbol.shndx ≠ SHN_ABS)
      (hdefined : symbol.shndx ≠ SHN_UNDEF) : RefersTo elf rela (.defined symbol.value)
  | external {symbol : Sym} {address : UInt64} (h : rela.HasSymbol elf symbol)
      (hundefined : symbol.shndx = SHN_UNDEF) (hresolved : address ≠ 0) :
      RefersTo elf rela (.external address)

/-- The stores lie in the mirror, and all addresses are computed from one base. -/
structure OneBase (pg : PageRounding) (elf : Memory) (base : UInt64) (a : ResolveAnswers) : Prop where
  store : ∀ store ∈ (commonfpsApplyRelocations elf base a).1,
    store.location = store.rela.offset - baseVaddr pg elf ∧ store.location.toNat + 8 ≤
      (baseSize pg elf).toNat
  target : ∀ store ∈ (commonfpsApplyRelocations elf base a).1, store.rela.RefersTo elf store.target
  relative : ∀ store ∈ (commonfpsApplyRelocations elf base a).1, store.target = .relative →
    store.value = remoteAddress pg elf base store.rela.addend
  defined : ∀ store ∈ (commonfpsApplyRelocations elf base a).1, ∀ value, store.target = .defined value →
    store.value = remoteAddress pg elf base value + store.rela.addend
  segment : ∀ segment ∈ loads elf, segmentAddress base segment = remoteAddress pg elf base segment.vaddr
  entry : entryAddress base elf = remoteAddress pg elf base (readEhdr elf).entry
  /-- What lies in a segment is found in the mapped pages. -/
  inside : ∀ segment ∈ loads elf, ∀ vaddr : UInt64, segment.Contains vaddr.toNat 1 →
    (remoteAddress pg elf base vaddr - base).toNat < (baseSize pg elf).toNat

variable {pg : PageRounding} {elf : Memory} {base : UInt64} {a : ResolveAnswers}

theorem remoteAddress_of_baseVaddr (h : baseVaddr pg elf = 0) (base vaddr : UInt64) :
    remoteAddress pg elf base vaddr = base + vaddr := by
  rw [remoteAddress, h, UInt64.sub_zero]

/-- A relocation that is applied is of its type and symbol. -/
theorem refersTo_of_mem {store : RelocStore} (h : store ∈ (commonfpsApplyRelocations elf base a).1) :
    store.rela.RefersTo elf store.target := by
  obtain ⟨s, hs, hrela, hmem, htarget, -⟩ := section_of_mem_commonfpsApplyRelocations h
  unfold relocationTarget at htarget
  split_ifs at htarget with hrelative hnone htype
  · rw [← Option.some_injective _ (Option.some_injective _ htarget)]
    exact .relative hrelative
  · cases Option.some_injective _ htarget
  · rw [not_and_or, not_not, not_not] at htype
    cases htable : symbolTable (shdrs elf) s with
    | none =>
      rw [htable] at htarget
      cases htarget
    | some table =>
      rw [htable] at htarget
      dsimp only at htarget
      split_ifs at htarget
      obtain ⟨target, hsymbol, htarget⟩ := Option.map_eq_some_iff.1 htarget
      rw [← Option.some_injective _ htarget]
      have hhas : store.rela.HasSymbol elf
          (readSym elf (table.symOffset + kSymSize * store.rela.sym.toUInt64)) :=
        ⟨htype, s, hs, hrela, hmem, table, htable, rfl⟩
      generalize readSym elf (table.symOffset + kSymSize * store.rela.sym.toUInt64) = symbol
        at hsymbol hhas
      rw [symbolTarget] at hsymbol
      dsimp only at hsymbol
      split_ifs at hsymbol with hname habs hdefined hresolved
      · rw [← Option.some_injective _ hsymbol]
        exact .absolute hhas habs
      · rw [← Option.some_injective _ hsymbol]
        exact .defined hhas habs hdefined
      · rw [← Option.some_injective _ hsymbol]
        exact .external hhas (not_not.1 hdefined) hresolved

/-- An image is loaded at one base exactly if its first page is at `0`, and its
    last one is not the last one of all. -/
theorem oneBase_iff (hvalid : commonfpsValidateSharedRenderer elf = true) (hover : NoOverflow elf)
    (hloads : StoresInLoads elf base a) :
    OneBase pg elf base a ↔ baseVaddr pg elf = 0 ∧ maxVaddr elf ≤ pg.roundPg (maxVaddr elf) := by
  constructor
  · intro h
    -- The entry is computed without the first page, which must then be at `0`.
    have hbase : baseVaddr pg elf = 0 := by
      have hentry := h.entry
      rw [entryAddress, remoteAddress, add_right_inj, eq_comm, sub_eq_self] at hentry
      exact hentry
    refine ⟨hbase, ?_⟩
    by_contra hround
    -- If rounding overflowed, there would be no pages to hold the entry.
    obtain ⟨segment, hmem, hentry⟩ := exists_entry_of_valid hvalid
    have hlt := h.inside segment hmem _ hentry.contains
    rw [baseSize_of_overflow hbase hround] at hlt
    exact Nat.not_lt_zero _ hlt
  · rintro ⟨hbase, hround⟩
    exact {
      store := fun store hstore => by
        obtain ⟨segment, hmem, hcontains⟩ := hloads store hstore
        have heq : store.location = store.rela.offset :=
          congrArg RelocStore.location (mem_commonfpsApplyRelocations hstore)
        rw [heq, hbase, UInt64.sub_zero]
        exact ⟨rfl, contains_baseSize hover hbase hround hmem hcontains⟩
      target := fun store hstore => refersTo_of_mem hstore
      relative := fun store hstore htarget => by
        rw [remoteAddress_of_baseVaddr hbase, mem_commonfpsApplyRelocations hstore, RelocStore.of, htarget]
        rfl
      defined := fun store hstore value htarget => by
        rw [remoteAddress_of_baseVaddr hbase, mem_commonfpsApplyRelocations hstore, RelocStore.of, htarget]
        rfl
      segment := fun segment _ => (remoteAddress_of_baseVaddr hbase base segment.vaddr).symm
      entry := (remoteAddress_of_baseVaddr hbase base _).symm
      inside := fun segment hmem vaddr hcontains => by
        rw [remoteAddress_of_baseVaddr hbase, add_sub_cancel_left]
        exact contains_baseSize hover hbase hround hmem hcontains }

/-- An image with a relocation, linked at `0`. -/
theorem oneBase_iff_linked_at_zero :
    let elf := sharedObject 0 [(8, 16)]
    OneBase pages16K elf 0x200000000 ⟨fun _ => none, fun _ _ => 0⟩ ↔
      baseVaddr pages16K elf = 0 ∧ maxVaddr elf ≤ pages16K.roundPg (maxVaddr elf) :=
  oneBase_iff (by decide +kernel) (by decide +kernel) (by decide +kernel)

/-- An image linked at another page: its relocation is stored after the mirror. -/
theorem store_outside_mirror :
    let elf := sharedObject 0x4000 [(0x4000, 0x4000)]
    let a : ResolveAnswers := ⟨fun _ => none, fun _ _ => 0⟩
    (commonfpsValidateSharedRenderer elf = true ∧ NoOverflow elf ∧ StoresInLoads elf 0x200000000 a) ∧
      ¬OneBase pages16K elf 0x200000000 a := by
  intro elf a
  refine ⟨by decide +kernel, fun h => ?_⟩
  have hstores : (commonfpsApplyRelocations elf 0x200000000 a).1 =
      [.of 0x200000000 ⟨0x4000, 8, 0x4000⟩ .relative] := by decide +kernel
  have hsize : baseSize pages16K elf = 0x4000 := by decide +kernel
  obtain ⟨-, hle⟩ := h.store _ (by rw [hstores]; exact List.mem_singleton_self _)
  rw [hsize] at hle
  exact absurd hle (by decide)

end CommonFps
