import CommonFps.Lib.Memory

/-!
# The image of the renderer

The renderer is an ELF shared object in memory (`elf.h`): its header, segments,
sections, relocations and symbols, as the loader (`stable_elfldr_bridge.c`) finds
them through the offsets that the image gives, of which it checks none against
the size of the image. An image is therefore a memory, addressed from its start.

* `commonfpsValidateSharedRenderer`: the images that are loaded;
* `baseVaddr`, `baseSize`: the pages that the segments span.
-/

namespace CommonFps

/-- The header of an image (`Elf64_Ehdr`). -/
structure Ehdr where
  ident : Fin 16 → UInt8
  type : UInt16
  machine : UInt16
  entry : UInt64
  phoff : UInt64
  shoff : UInt64
  phentsize : UInt16
  phnum : UInt16
  shnum : UInt16

/-- A segment (`Elf64_Phdr`). -/
structure Phdr where
  type : UInt32
  flags : UInt32
  offset : UInt64
  vaddr : UInt64
  filesz : UInt64
  memsz : UInt64
  deriving DecidableEq

/-- A section (`Elf64_Shdr`). -/
structure Shdr where
  type : UInt32
  offset : UInt64
  size : UInt64
  link : UInt32
  entsize : UInt64

/-- A symbol (`Elf64_Sym`). -/
structure Sym where
  name : UInt32
  shndx : UInt16
  value : UInt64
  deriving DecidableEq

/-- A relocation (`Elf64_Rela`). -/
structure Rela where
  offset : UInt64
  info : UInt64
  addend : UInt64
  deriving DecidableEq

/-- An entry of a dynamic segment (`Elf64_Dyn`). -/
structure Dyn where
  tag : UInt64
  val : UInt64

namespace Rela

/-- `ELF64_R_TYPE` and `ELF64_R_SYM`. -/
def type (r : Rela) : UInt32 := r.info.toUInt32

/-- The index of the symbol. -/
def sym (r : Rela) : UInt32 := (r.info >>> 32).toUInt32

end Rela

/-- The size of a segment header. -/
def kPhdrSize : UInt64 := 56

/-- The size of a section header. -/
def kShdrSize : UInt64 := 64

/-- The size of a symbol. -/
def kSymSize : UInt64 := 24

/-- The size of a relocation. -/
def kRelaSize : UInt64 := 24

/-- The size of an entry of a dynamic segment. -/
def kDynSize : UInt64 := 16

/-- The type of a shared object. -/
def ET_DYN : UInt16 := 3

/-- The machine that an image is for. -/
def EM_X86_64 : UInt16 := 62

/-- An image of 64 bits. -/
def ELFCLASS64 : UInt8 := 2

/-- The least significant byte comes first. -/
def ELFDATA2LSB : UInt8 := 1

/-- A segment that is loaded. -/
def PT_LOAD : UInt32 := 1

/-- A segment for the dynamic linker. -/
def PT_DYNAMIC : UInt32 := 2

/-- A segment that names an interpreter. -/
def PT_INTERP : UInt32 := 3

/-- The flag of a segment that is executable. -/
def PF_X : UInt32 := 1

/-- The end of a dynamic segment. -/
def DT_NULL : UInt64 := 0

/-- The entry with further flags. -/
def DT_FLAGS_1 : UInt64 := 0x6ffffffb

/-- The flag of an executable, which is no shared object. -/
def DF_1_PIE : UInt64 := 0x08000000

/-! ## Reading an image -/

variable (elf : Memory)

/-- The header at the start of an image. -/
def readEhdr : Ehdr where
  ident := fun i => elf (UInt64.ofNat i)
  type := readU16 elf 16
  machine := readU16 elf 18
  entry := readU64 elf 24
  phoff := readU64 elf 32
  shoff := readU64 elf 40
  phentsize := readU16 elf 54
  phnum := readU16 elf 56
  shnum := readU16 elf 60

/-- The segment header at an offset. -/
def readPhdr (start : UInt64) : Phdr where
  type := readU32 elf start
  flags := readU32 elf (start + 4)
  offset := readU64 elf (start + 8)
  vaddr := readU64 elf (start + 16)
  filesz := readU64 elf (start + 32)
  memsz := readU64 elf (start + 40)

/-- The section header at an offset. -/
def readShdr (start : UInt64) : Shdr where
  type := readU32 elf (start + 4)
  offset := readU64 elf (start + 24)
  size := readU64 elf (start + 32)
  link := readU32 elf (start + 40)
  entsize := readU64 elf (start + 56)

/-- The symbol at an offset. -/
def readSym (start : UInt64) : Sym where
  name := readU32 elf start
  shndx := readU16 elf (start + 6)
  value := readU64 elf (start + 8)

/-- The relocation at an offset. -/
def readRela (start : UInt64) : Rela where
  offset := readU64 elf start
  info := readU64 elf (start + 8)
  addend := readU64 elf (start + 16)

/-- The entry of a dynamic segment at an offset. -/
def readDyn (start : UInt64) : Dyn where
  tag := readU64 elf start
  val := readU64 elf (start + 8)

/-- The entries of a table. -/
def readTable {α : Type*} (read : UInt64 → α) (offset size : UInt64) (count : ℕ) : List α :=
  (List.range count).map fun i => read (offset + size * UInt64.ofNat i)

/-- The segments of an image. -/
def phdrs : List Phdr :=
  readTable (readPhdr elf) (readEhdr elf).phoff kPhdrSize (readEhdr elf).phnum.toNat

/-- The sections of an image. -/
def shdrs : List Shdr :=
  readTable (readShdr elf) (readEhdr elf).shoff kShdrSize (readEhdr elf).shnum.toNat

/-- The entries of a dynamic segment. -/
def dynamic (segment : Phdr) : List Dyn :=
  readTable (readDyn elf) segment.offset kDynSize (segment.filesz / kDynSize).toNat

/-- The segments to be loaded. -/
def loads : List Phdr := (phdrs elf).filter (·.type = PT_LOAD)

/-! ## The images that are loaded -/

/-- The entries up to the end mark have the flag of a position-independent executable. -/
def isPie : List Dyn → Bool
  | [] => false
  | d :: rest =>
    if d.tag = DT_NULL then false
    else if d.tag = DT_FLAGS_1 ∧ d.val &&& DF_1_PIE ≠ 0 then true
    else isPie rest

/-- The entry lies in a segment that is executable. -/
def Phdr.IsEntry (entry : UInt64) (segment : Phdr) : Prop :=
  segment.flags &&& PF_X ≠ 0 ∧ segment.vaddr ≤ entry ∧ entry - segment.vaddr < segment.memsz

instance (entry : UInt64) (segment : Phdr) : Decidable (segment.IsEntry entry) := by
  unfold Phdr.IsEntry
  infer_instance

/-- The loop over the segments: an interpreter and a PIE are refused. -/
def validateSegments (entry : UInt64) : List Phdr → (haveLoad entryIsExecutable : Bool) → Bool
  | [], haveLoad, entryIsExecutable => haveLoad && entryIsExecutable
  | segment :: rest, haveLoad, entryIsExecutable =>
    if segment.type = PT_INTERP then false
    else if segment.type = PT_LOAD then
      validateSegments entry rest true (if segment.IsEntry entry then true else entryIsExecutable)
    else if segment.type ≠ PT_DYNAMIC then validateSegments entry rest haveLoad entryIsExecutable
    else if isPie (dynamic elf segment) then false
    else validateSegments entry rest haveLoad entryIsExecutable

/-- An image is accepted if it is a shared object for this machine, with segments that are. -/
def commonfpsValidateSharedRenderer : Bool :=
  let ehdr := readEhdr elf
  if ehdr.type ≠ ET_DYN ∨ ehdr.machine ≠ EM_X86_64 ∨ ehdr.phentsize.toUInt64 ≠ kPhdrSize ∨
    ehdr.phnum = 0 then false
  else validateSegments elf ehdr.entry (phdrs elf) false false

/-- The image starts as an ELF image of this machine does, and is accepted. -/
def ElfAccepted : Prop :=
  let ident := (readEhdr elf).ident
  ident 0 = 0x7f ∧ ident 1 = 0x45 ∧ ident 2 = 0x4c ∧ ident 3 = 0x46 ∧ ident 4 = ELFCLASS64 ∧
    ident 5 = ELFDATA2LSB ∧ commonfpsValidateSharedRenderer elf = true

instance : Decidable (ElfAccepted elf) := by
  unfold ElfAccepted
  infer_instance

variable {elf}

theorem exists_entry_of_validateSegments {entry : UInt64} {segments : List Phdr} {haveLoad executable : Bool}
    (h : validateSegments elf entry segments haveLoad executable = true) :
    executable = true ∨ ∃ segment ∈ segments, segment.type = PT_LOAD ∧ segment.IsEntry entry := by
  induction segments generalizing haveLoad executable with
  | nil => exact .inl ((Bool.and_eq_true _ _).mp h).2
  | cons segment rest ih =>
    have hrest {haveLoad} (h : validateSegments elf entry rest haveLoad executable = true) :
        executable = true ∨ ∃ s ∈ segment :: rest, s.type = PT_LOAD ∧ s.IsEntry entry :=
      (ih h).imp_right fun ⟨s, hs, hentry⟩ => ⟨s, List.mem_cons_of_mem _ hs, hentry⟩
    rw [validateSegments] at h
    split_ifs at h with _ hload hentry
    · exact .inr ⟨segment, List.mem_cons_self, hload, hentry⟩
    all_goals exact hrest h

/-- The entry of an accepted image lies in a segment that is loaded. -/
theorem exists_entry_of_valid (h : commonfpsValidateSharedRenderer elf = true) :
    ∃ segment ∈ loads elf, segment.IsEntry (readEhdr elf).entry := by
  rw [commonfpsValidateSharedRenderer] at h
  split_ifs at h
  obtain hfalse | ⟨segment, hmem, hload, hentry⟩ := exists_entry_of_validateSegments h
  · exact absurd hfalse Bool.false_ne_true
  · exact ⟨segment, List.mem_filter.2 ⟨hmem, decide_eq_true hload⟩, hentry⟩

/-! ## The pages of an image -/

/-- Rounding to pages (`TRUNC_PG`, `ROUND_PG`), for pages of any size. -/
structure PageRounding where
  bits : ℕ
  bits_lt : bits < 64
  truncPg : UInt64 → UInt64
  roundPg : UInt64 → UInt64
  truncPg_eq (x : UInt64) : (truncPg x).toNat = x.toNat / 2 ^ bits * 2 ^ bits
  /-- Rounding up the last page gives `0`. -/
  roundPg_eq (x : UInt64) :
    (roundPg x).toNat = (x.toNat + (2 ^ bits - 1)) / 2 ^ bits * 2 ^ bits % 2 ^ 64

section Span

variable (pg : PageRounding) (elf : Memory)

/-- The lowest address of a segment that is loaded. -/
def minVaddr : UInt64 :=
  (loads elf).foldl (fun acc segment => if segment.vaddr < acc then segment.vaddr else acc) (-1)

/-- The end of the last one. -/
def maxVaddr : UInt64 :=
  (loads elf).foldl
    (fun acc segment => if acc < segment.vaddr + segment.memsz then segment.vaddr + segment.memsz else acc) 0

/-- The first address of the pages of the segments, and their size. -/
def baseVaddr : UInt64 := pg.truncPg (minVaddr elf)

/-- The size of the pages of the image. -/
def baseSize : UInt64 := pg.roundPg (maxVaddr elf) - baseVaddr pg elf

/-- The end of no segment overflows. -/
def NoOverflow : Prop := ∀ segment ∈ loads elf, segment.vaddr.toNat + segment.memsz.toNat < 2 ^ 64

/-- The bytes from an address on lie in a segment. -/
def Phdr.Contains (segment : Phdr) (address size : ℕ) : Prop :=
  segment.vaddr.toNat ≤ address ∧ address + size ≤ segment.vaddr.toNat + segment.memsz.toNat

variable {pg elf}

theorem Phdr.IsEntry.contains {segment : Phdr} {entry : UInt64} (h : segment.IsEntry entry) :
    segment.Contains entry.toNat 1 := by
  obtain ⟨_, hle, hlt⟩ := h
  have hlt := UInt64.lt_iff_toNat_lt.1 hlt
  rw [UInt64.toNat_sub_of_le _ _ hle] at hlt
  have hle := UInt64.le_iff_toNat_le.1 hle
  exact ⟨hle, by omega⟩

/-- The largest value so far is as large as the first one, and all others. -/
theorem le_foldl_larger {α : Type*} (f : α → UInt64) (l : List α) (acc : UInt64) :
    let larger := l.foldl (fun acc x => if acc < f x then f x else acc) acc
    acc ≤ larger ∧ ∀ x ∈ l, f x ≤ larger := by
  induction l generalizing acc with
  | nil => exact ⟨UInt64.le_refl acc, by simp⟩
  | cons x l ih =>
    obtain ⟨hacc, hmem⟩ := ih (if acc < f x then f x else acc)
    have hstep : acc ≤ (if acc < f x then f x else acc) ∧ f x ≤ (if acc < f x then f x else acc) := by
      split_ifs with hlt
      · exact ⟨UInt64.le_of_lt hlt, UInt64.le_refl _⟩
      · exact ⟨UInt64.le_refl _, UInt64.not_lt.1 hlt⟩
    refine ⟨UInt64.le_trans hstep.1 hacc, fun y hy => ?_⟩
    rcases List.mem_cons.1 hy with rfl | hy
    · exact UInt64.le_trans hstep.2 hacc
    · exact hmem y hy

/-- No segment ends after the last address. -/
theorem end_le_maxVaddr (hover : NoOverflow elf) {segment : Phdr} (h : segment ∈ loads elf) :
    segment.vaddr.toNat + segment.memsz.toNat ≤ (maxVaddr elf).toNat := by
  have hle := (le_foldl_larger (fun segment : Phdr => segment.vaddr + segment.memsz) (loads elf) 0).2 segment h
  have hle := UInt64.le_iff_toNat_le.1 hle
  rwa [UInt64.toNat_add, Nat.mod_eq_of_lt (hover segment h)] at hle

/-- Where the pages start at `0` and end, the segments lie in them. -/
theorem contains_baseSize (hover : NoOverflow elf) (hbase : baseVaddr pg elf = 0)
    (hround : maxVaddr elf ≤ pg.roundPg (maxVaddr elf)) {segment : Phdr} (h : segment ∈ loads elf)
    {address size : ℕ} (hcontains : segment.Contains address size) :
    address + size ≤ (baseSize pg elf).toNat := by
  have hend := end_le_maxVaddr hover h
  have hle := UInt64.le_iff_toNat_le.1 hround
  rw [baseSize, hbase, UInt64.sub_zero]
  exact hcontains.2.trans (hend.trans hle)

/-- Where rounding up overflows, nothing is left of the pages. -/
theorem baseSize_of_overflow (hbase : baseVaddr pg elf = 0)
    (hround : ¬maxVaddr elf ≤ pg.roundPg (maxVaddr elf)) : baseSize pg elf = 0 := by
  rw [baseSize, hbase, UInt64.sub_zero]
  generalize maxVaddr elf = x at hround ⊢
  have heq := pg.roundPg_eq x
  have hlt : (pg.roundPg x).toNat < x.toNat := UInt64.lt_iff_toNat_lt.1 (UInt64.not_le.1 hround)
  have hx : x.toNat < 2 ^ 64 := x.toNat_lt
  -- The pages that `x` needs are all pages there are.
  have hpages : (2 : ℕ) ^ 64 = 2 ^ (64 - pg.bits) * 2 ^ pg.bits := by
    rw [← Nat.pow_add, Nat.sub_add_cancel pg.bits_lt.le]
  have hpos : 0 < 2 ^ pg.bits := Nat.two_pow_pos _
  generalize hq : (x.toNat + (2 ^ pg.bits - 1)) / 2 ^ pg.bits = q at heq
  have hlow : x.toNat ≤ q * 2 ^ pg.bits := by
    rw [← hq]
    have := Nat.div_add_mod (x.toNat + (2 ^ pg.bits - 1)) (2 ^ pg.bits)
    have := Nat.mod_lt (x.toNat + (2 ^ pg.bits - 1)) hpos
    rw [Nat.mul_comm]
    omega
  have hq' : q ≤ 2 ^ (64 - pg.bits) := by
    rw [← hq, Nat.div_le_iff_le_mul_add_pred hpos, ← Nat.mul_comm, ← hpages]
    omega
  have hnot : ¬q < 2 ^ (64 - pg.bits) := fun hq => by
    rw [Nat.mod_eq_of_lt (hpages ▸ Nat.mul_lt_mul_of_pos_right hq hpos)] at heq
    omega
  rw [hq'.antisymm (not_lt.1 hnot), ← hpages, Nat.mod_self] at heq
  exact UInt64.toNat_inj.1 heq

end Span

/-! ## A small shared object -/

/-- An image with a header, one executable segment, which starts with the entry,
    and one section of relative relocations. -/
def sharedObjectBytes (vaddr : ℕ) (relocations : List (ℕ × ℕ)) : List UInt8 :=
  [0x7f, 0x45, 0x4c, 0x46, 2, 1, 1] ++ List.replicate 9 0 ++
    numberBytes 2 3 ++ numberBytes 2 62 ++ numberBytes 4 1 ++ numberBytes 8 vaddr ++ numberBytes 8 64 ++
    numberBytes 8 120 ++ numberBytes 4 0 ++ numberBytes 2 64 ++ numberBytes 2 56 ++ numberBytes 2 1 ++
    numberBytes 2 64 ++ numberBytes 2 1 ++ numberBytes 2 0 ++
    numberBytes 4 1 ++ numberBytes 4 5 ++ numberBytes 8 0 ++ numberBytes 8 vaddr ++ numberBytes 8 0 ++
    numberBytes 8 0 ++ numberBytes 8 0x1000 ++ numberBytes 8 0x4000 ++
    numberBytes 4 0 ++ numberBytes 4 4 ++ numberBytes 8 0 ++ numberBytes 8 0 ++ numberBytes 8 184 ++
    numberBytes 8 (24 * relocations.length) ++ numberBytes 4 0 ++ numberBytes 4 0 ++ numberBytes 8 8 ++
    numberBytes 8 24 ++
    relocations.flatMap fun r => numberBytes 8 r.1 ++ numberBytes 8 8 ++ numberBytes 8 r.2

/-- The image as a memory. -/
def sharedObject (vaddr : ℕ) (relocations : List (ℕ × ℕ)) : Memory := fun address =>
  (sharedObjectBytes vaddr relocations).getD address.toNat 0

/-- Pages of 16 KiB. -/
def pages16K : PageRounding where
  bits := 14
  bits_lt := by decide
  truncPg x := UInt64.ofNat (x.toNat / 2 ^ 14 * 2 ^ 14)
  roundPg x := UInt64.ofNat ((x.toNat + (2 ^ 14 - 1)) / 2 ^ 14 * 2 ^ 14)
  truncPg_eq x := by
    rw [UInt64.toNat_ofNat', Nat.mod_eq_of_lt]
    exact (Nat.div_mul_le_self _ _).trans_lt x.toNat_lt
  roundPg_eq x := UInt64.toNat_ofNat'

example : ElfAccepted (sharedObject 0 [(8, 16)]) ∧ baseSize pages16K (sharedObject 0 [(8, 16)]) = 0x4000 := by
  decide +kernel

end CommonFps
