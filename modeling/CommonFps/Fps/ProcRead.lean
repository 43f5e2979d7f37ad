import CommonFps.Lib.Memory
import CommonFps.Lib.Pages

/-!
# Reading the memory of a game

The sampler reads the memory of another process through the kernel's mapping of
physical memory (`proc_rw_v960.cpp`): it finds the process and its page tables,
walks these for an address (`translate`), and copies chunk by chunk, each up to
the end of the page that it is in (`procRead`).

* `ProcRw.translate_add`: inside of a page, the translation moves with the address;
* `procRead_bytewise`: a read in chunks is a read byte by byte.
-/

namespace CommonFps

namespace ProcRw

/-- The firmware whose kernel is known. -/
def kFw960 : UInt32 := 0x09600000

/-- Where the kernel has its list of processes. -/
def kAllprocFromKdata : UInt64 := 0x02755D50

/-- Where a process has its identifier. -/
def kProcPid : UInt64 := 0xBC

/-- Where it has its address space. -/
def kProcVmspace : UInt64 := 0x200

/-- Where it has the next process. -/
def kProcNext : UInt64 := 0x00

/-- Where an address space has its page tables. -/
def kVmspacePmap : UInt64 := 0x1D8

/-- Where these have the address of the first table. -/
def kPmapPml4Virtual : UInt64 := 0x20

/-- Where they have its place in physical memory. -/
def kPmapPml4Physical : UInt64 := 0x28

/-- Where physical memory is mapped, unless it is known better. -/
def kFixedDmapBase : UInt64 := 0xFFFF873B00000000

/-- The flag of an entry that is there. -/
def kPresent : UInt64 := 1

/-- The flag of an entry for a large page. -/
def kPageSizeBit : UInt64 := (1 : UInt64) <<< 7

/-- The frame of a page of 4 KiB, or of a table. -/
def kMask4K : UInt64 := 0x000FFFFFFFFFF000

/-- The frame of a page of 2 MiB. -/
def kMask2M : UInt64 := 0x000FFFFFFFE00000

/-- The frame of a page of 1 GiB. -/
def kMask1G : UInt64 := 0x000FFFFFC0000000

/-- The number of processes that are looked at. -/
def kMaxProcWalk : ℕ := 1024

/-- The kernel as the sampler sees it: its memory, of which some addresses can be
    read, and what it says of its version. -/
structure KernelView where
  mem : Memory
  readable : UInt64 → Bool
  /-- `KERNEL_ADDRESS_DATA_BASE`. -/
  dataBase : UInt64
  /-- `kernel_get_fw_version`. -/
  fwVersion : UInt32
  /-- The answer to `sysctlbyname` for `kern.sdk_version`. -/
  sdkRc : ℤ := 0
  sdkVersion : UInt32 := 0
  sdkLen : ℕ := 4

namespace KernelView

variable (k : KernelView)

/-- `kernel_copyout` succeeds, on a range as on each of its bytes. -/
def copyout (address : UInt64) (size : ℕ) : Bool :=
  (List.range size).all fun i => k.readable (address + UInt64.ofNat i)

/-- A 32-bit word, if it can be read. -/
def readValueU32 (address : UInt64) : Option UInt32 :=
  if address ≠ 0 ∧ k.copyout address 4 then some (readU32 k.mem address) else none

/-- A 64-bit word, if it can be read. -/
def readValue (address : UInt64) : Option UInt64 :=
  if address ≠ 0 ∧ k.copyout address 8 then some (readU64 k.mem address) else none

/-- A word that is not zero. -/
def readPointer (address : UInt64) : Option UInt64 := (k.readValue address).filter (· ≠ 0)

/-- An entry of a page table that is there. -/
def readPageEntry (address : UInt64) : Option UInt64 :=
  (k.readValue address).filter (· &&& kPresent ≠ 0)

/-- The version of the firmware, or zero. -/
def firmwareSdkVersion : UInt32 :=
  if k.fwVersion ≠ 0 then k.fwVersion
  else if k.sdkRc ≠ 0 ∨ k.sdkLen ≠ 4 then 0
  else k.sdkVersion

/-- The kernel is the one that is known. -/
def firmwareIs960 : Bool := k.firmwareSdkVersion &&& 0xFFFF0000 = kFw960

/-- The walk along the list of processes, of which at most `steps` are left. -/
def findProcFrom (pid : UInt32) : (steps : ℕ) → (current : UInt64) → UInt64
  | 0, _ => 0
  | steps + 1, current =>
    if current = 0 then 0
    else
      match k.readValueU32 (current + kProcPid) with
      | none => 0
      | some candidatePid =>
        if candidatePid = pid then current
        else
          match k.readValue (current + kProcNext) with
          | none => 0
          | some next => if next = current then 0 else findProcFrom pid steps next

/-- The process with an identifier, or zero. -/
def findProc (pid : Int32) : UInt64 :=
  if pid ≤ 0 ∨ k.firmwareIs960 = false ∨ k.dataBase = 0 then 0
  else
    match k.readValue (k.dataBase + kAllprocFromKdata) with
    | none => 0
    | some current => k.findProcFrom pid.toUInt32 kMaxProcWalk current

end KernelView

/-- Where physical memory is mapped: as it was chosen before, as the tables tell, or as it is by
    default. -/
def chooseDmap (gDmapBase pml4Virtual pml4Physical : UInt64) : UInt64 :=
  if gDmapBase ≠ 0 then gDmapBase
  else if pml4Virtual > pml4Physical ∧ pml4Physical < (1 : UInt64) <<< 40 ∧
      (pml4Virtual - pml4Physical) >>> 48 ≠ 0 then pml4Virtual - pml4Physical
  else kFixedDmapBase

/-- Where a copy takes physical memory to be mapped. -/
def dmapBase (gDmapBase : UInt64) : UInt64 :=
  if gDmapBase ≠ 0 then gDmapBase else kFixedDmapBase

/-- The sizes of pages. -/
inductive PageSize
  | page4K
  | page2M
  | page1G
  deriving DecidableEq

namespace PageSize

/-- The size of a page in bytes. -/
def bytes : PageSize → UInt64
  | page4K => 0x1000
  | page2M => 0x200000
  | page1G => 0x40000000

/-- The bit where the number of the page begins. -/
def shift : PageSize → ℕ
  | page4K => 12
  | page2M => 21
  | page1G => 30

theorem shift_lt (p : PageSize) : p.shift < 64 := by
  cases p <;> decide

theorem bytes_sub_one (p : PageSize) : p.bytes - 1 = pageMask p.shift := by
  cases p <;> rfl

theorem toNat_bytes (p : PageSize) : p.bytes.toNat = 2 ^ p.shift := by
  cases p <;> rfl

end PageSize

/-- The page tables of a process: where the first one is, for the kernel and in
    physical memory. -/
def pml4 (k : KernelView) (pid : Int32) : Option (UInt64 × UInt64) := do
  guard (k.findProc pid ≠ 0)
  let vmspace ← k.readPointer (k.findProc pid + kProcVmspace)
  let pmap ← k.readPointer (vmspace + kVmspacePmap)
  let pml4Virtual ← k.readPointer (pmap + kPmapPml4Virtual)
  let pml4Physical ← k.readPointer (pmap + kPmapPml4Physical)
  return (pml4Virtual, pml4Physical)

/-- The index of an address in the page table that begins at a bit of it. -/
def index (remote : UInt64) (bit : ℕ) : UInt64 := (remote >>> UInt64.ofNat bit) &&& 0x1FF

/-- The frame of the page of an address, and its size. -/
def frame (k : KernelView) (dmap pml4Virtual remote : UInt64) : Option (UInt64 × PageSize) := do
  let pml4e ← k.readPageEntry (pml4Virtual + index remote 39 * 8)
  let pdpte ← k.readPageEntry (dmap + (pml4e &&& kMask4K) + index remote 30 * 8)
  if pdpte &&& kPageSizeBit ≠ 0 then return (pdpte &&& kMask1G, .page1G)
  else
    let pde ← k.readPageEntry (dmap + (pdpte &&& kMask4K) + index remote 21 * 8)
    if pde &&& kPageSizeBit ≠ 0 then return (pde &&& kMask2M, .page2M)
    else
      let pte ← k.readPageEntry (dmap + (pde &&& kMask4K) + index remote 12 * 8)
      return (pte &&& kMask4K, .page4K)

/-- What `translate` returns, with the `page_size` (none for zero) and `g_dmap_base`
    that it leaves. -/
structure Translation where
  physical : UInt64 := 0
  pageSize : Option PageSize := none
  gDmapBase : UInt64
  deriving DecidableEq

/-- The place of an address in physical memory. -/
def translate (k : KernelView) (gDmapBase : UInt64) (pid : Int32) (remote : UInt64) : Translation :=
  match pml4 k pid with
  | none => { gDmapBase }
  | some (pml4Virtual, pml4Physical) =>
    let dmap := chooseDmap gDmapBase pml4Virtual pml4Physical
    if dmap = 0 then { gDmapBase := dmap }
    else
      match frame k dmap pml4Virtual remote with
      | none => { gDmapBase := dmap }
      | some (frame, size) =>
        { physical := frame ||| (remote &&& (size.bytes - 1))
          pageSize := some size
          gDmapBase := dmap }

/-- A copy of `size` bytes at an address of the kernel, for those at `remote`, which
    is in a page. -/
structure Copy where
  remote : UInt64
  page : PageSize
  address : UInt64
  size : ℕ
  deriving DecidableEq

/-- What `proc_read` returns and writes, the copies it makes, and the `g_dmap_base`
    that it leaves. -/
structure ReadResult where
  ok : Bool
  output : List UInt8 := []
  copies : List Copy := []
  gDmapBase : UInt64
  deriving DecidableEq

theorem page_room (p : PageSize) (remote : UInt64) :
    (remote &&& (p.bytes - 1)).toNat < p.bytes.toNat ∧
      (p.bytes - (remote &&& (p.bytes - 1))).toNat =
        p.bytes.toNat - (remote &&& (p.bytes - 1)).toNat := by
  have hlt : (remote &&& (p.bytes - 1)).toNat < p.bytes.toNat := by
    rw [p.bytes_sub_one, toNat_and_pageMask p.shift_lt, p.toNat_bytes]
    exact Nat.mod_lt _ (Nat.two_pow_pos _)
  exact ⟨hlt, UInt64.toNat_sub_of_le _ _ (UInt64.le_iff_toNat_le.2 hlt.le)⟩

/-- The loop: the bytes up to the end of a page, and then the others. -/
def procReadLoop (k : KernelView) (pid : Int32) (gDmapBase remote : UInt64) (remaining : ℕ) :
    ReadResult :=
  if remaining = 0 then { ok := true, gDmapBase }
  else
    let translation := translate k gDmapBase pid remote
    match translation.pageSize with
    | none => { ok := false, gDmapBase := translation.gDmapBase }
    | some page =>
      if translation.physical = 0 then { ok := false, gDmapBase := translation.gDmapBase }
      else
        let pageOffset := remote &&& (page.bytes - 1)
        let chunk := min remaining (page.bytes - pageOffset).toNat
        let address := dmapBase translation.gDmapBase + translation.physical
        let copy : Copy := { remote, page, address, size := chunk }
        if k.copyout address chunk = false then
          { ok := false, copies := [copy], gDmapBase := translation.gDmapBase }
        else
          let rest := procReadLoop k pid translation.gDmapBase (remote + UInt64.ofNat chunk)
            (remaining - chunk)
          { rest with
            output := readBytes k.mem address chunk ++ rest.output
            copies := copy :: rest.copies }
  termination_by remaining
  decreasing_by
    have := page_room page remote
    omega

/-- A read of the memory of a process. -/
def procRead (k : KernelView) (gDmapBase : UInt64) (pid : Int32) (remote : UInt64) (size : ℕ) :
    ReadResult :=
  if size = 0 then { ok := true, gDmapBase }
  else if pid ≤ 0 ∨ remote = 0 then { ok := false, gDmapBase }
  else procReadLoop k pid gDmapBase remote size

/-! ## Inside of a page -/

section Page

variable {k : KernelView} {dmap pml4Virtual remote base : UInt64} {p : PageSize} {j t : ℕ}

/-- The offset of an address in its page, `j` bytes further. -/
def InPage (p : PageSize) (remote : UInt64) (j : ℕ) : Prop :=
  (remote &&& pageMask p.shift).toNat + j < 2 ^ p.shift

theorem index_add (hj : InPage p remote j) (hpt : p.shift ≤ t) (ht : t < 64) :
    index (remote + UInt64.ofNat j) t = index remote t := by
  rw [index, index, shiftRight_add p.shift_lt hpt ht hj]

/-- The page tables of an address are those of its page. -/
theorem frame_add (h : frame k dmap pml4Virtual remote = some (base, p)) (hj : InPage p remote j) :
    frame k dmap pml4Virtual (remote + UInt64.ofNat j) = some (base, p) := by
  have hindex {t : ℕ} (hpt : p.shift ≤ t) (ht : t < 64) := index_add hj hpt ht
  have hle : p.shift ≤ 30 := by cases p <;> decide
  simp only [frame, Option.bind_eq_bind, Option.bind_eq_some_iff] at h ⊢
  obtain ⟨pml4e, h₄, pdpte, h₃, h⟩ := h
  refine ⟨pml4e, by rwa [hindex (by omega) (by decide)], pdpte,
    by rwa [hindex hle (by decide)], ?_⟩
  split_ifs at h ⊢ with hbig
  · exact h
  simp only [Option.bind_eq_some_iff] at h ⊢
  obtain ⟨pde, h₂, h⟩ := h
  have hmiddle : p.shift ≤ 21 := by
    split_ifs at h with hlarge
    · cases h
      decide
    · obtain ⟨pte, -, h⟩ := Option.bind_eq_some_iff.1 h
      cases h
      decide
  refine ⟨pde, by rwa [hindex hmiddle (by decide)], ?_⟩
  split_ifs at h ⊢ with hlarge
  · exact h
  · obtain ⟨pte, h₁, h⟩ := Option.bind_eq_some_iff.1 h
    cases h
    refine Option.bind_eq_some_iff.2 ⟨pte, ?_, rfl⟩
    rwa [hindex (show PageSize.page4K.shift ≤ 12 from le_rfl) (by decide)]

theorem aligned_and {mask : UInt64} (e : UInt64) (h : mask &&& pageMask p.shift = 0) :
    e &&& mask &&& pageMask p.shift = 0 := by
  rw [UInt64.and_assoc, h, UInt64.and_zero]

/-- A frame is aligned to its page. -/
theorem frame_aligned (h : frame k dmap pml4Virtual remote = some (base, p)) :
    base &&& pageMask p.shift = 0 := by
  simp only [frame, Option.bind_eq_bind, Option.bind_eq_some_iff] at h
  obtain ⟨pml4e, -, pdpte, -, h⟩ := h
  split_ifs at h
  · cases h
    exact aligned_and _ (by decide)
  obtain ⟨pde, -, h⟩ := Option.bind_eq_some_iff.1 h
  split_ifs at h
  · cases h
    exact aligned_and _ (by decide)
  obtain ⟨pte, -, h⟩ := Option.bind_eq_some_iff.1 h
  cases h
  exact aligned_and _ (by decide)

end Page

/-! ## The translation -/

section Translate

variable {k : KernelView} {g virtual physical remote base : UInt64} {pid : Int32} {p : PageSize}
  {j : ℕ}

theorem chooseDmap_ne_zero (g virtual physical : UInt64) : chooseDmap g virtual physical ≠ 0 := by
  rw [chooseDmap]
  split_ifs with hg hcandidate
  · exact hg
  · intro hzero
    rw [hzero] at hcandidate
    exact absurd hcandidate.2.2 (by decide)
  · decide

/-- The mapping of physical memory is chosen once. -/
theorem chooseDmap_idem (g virtual physical : UInt64) :
    chooseDmap (chooseDmap g virtual physical) virtual physical = chooseDmap g virtual physical :=
  if_pos (chooseDmap_ne_zero g virtual physical)

theorem dmapBase_chooseDmap (g virtual physical : UInt64) :
    dmapBase (chooseDmap g virtual physical) = chooseDmap g virtual physical :=
  if_pos (chooseDmap_ne_zero g virtual physical)

theorem translate_of_none (h : pml4 k pid = none) :
    translate k g pid remote = { gDmapBase := g } := by
  rw [translate, h]

/-- A process with page tables: every address is translated by them, with the one
    mapping of physical memory. -/
theorem translate_of_some (h : pml4 k pid = some (virtual, physical)) :
    translate k g pid remote =
      match frame k (chooseDmap g virtual physical) virtual remote with
      | none => { gDmapBase := chooseDmap g virtual physical }
      | some (base, p) =>
        { physical := base ||| (remote &&& (p.bytes - 1))
          pageSize := some p
          gDmapBase := chooseDmap g virtual physical } := by
  rw [translate, h]
  exact if_neg (chooseDmap_ne_zero g virtual physical)

/-- The translation does not depend on when the mapping is chosen. -/
theorem translate_chosen (h : pml4 k pid = some (virtual, physical)) :
    translate k (chooseDmap g virtual physical) pid remote = translate k g pid remote := by
  rw [translate_of_some h, translate_of_some h, chooseDmap_idem]

theorem translate_gDmapBase (h : pml4 k pid = some (virtual, physical)) :
    (translate k g pid remote).gDmapBase = chooseDmap g virtual physical := by
  rw [translate_of_some h]
  split <;> rfl

/-- A translation is made of a frame and the offset of the address. -/
theorem translate_eq_some (h : (translate k g pid remote).pageSize = some p) :
    ∃ virtual physical base, pml4 k pid = some (virtual, physical) ∧
      frame k (chooseDmap g virtual physical) virtual remote = some (base, p) ∧
      base &&& pageMask p.shift = 0 ∧ translate k g pid remote =
        { physical := base ||| (remote &&& pageMask p.shift)
          pageSize := some p
          gDmapBase := chooseDmap g virtual physical } := by
  cases hpml : pml4 k pid with
  | none => simp [translate_of_none hpml] at h
  | some tables =>
    have htranslate : translate k g pid remote = _ := translate_of_some hpml
    cases hframe : frame k (chooseDmap g tables.1 tables.2) tables.1 remote with
    | none => simp [htranslate, hframe] at h
    | some found =>
      obtain rfl : found.2 = p := by simpa [htranslate, hframe] using h
      refine ⟨_, _, found.1, rfl, hframe, frame_aligned hframe, ?_⟩
      rw [htranslate, hframe, ← PageSize.bytes_sub_one]

theorem offset_lt (remote : UInt64) (p : PageSize) :
    (remote &&& pageMask p.shift).toNat < 2 ^ p.shift := by
  rw [toNat_and_pageMask p.shift_lt]
  exact Nat.mod_lt _ (Nat.two_pow_pos _)

/-- The address that is `j` bytes further in the page is translated to `j` bytes
    further. -/
theorem translate_add (h : (translate k g pid remote).pageSize = some p)
    (hj : InPage p remote j) : translate k g pid (remote + UInt64.ofNat j) =
      { translate k g pid remote with
        physical := (translate k g pid remote).physical + UInt64.ofNat j } := by
  obtain ⟨virtual, physical, base, hpml, hframe, haligned, heq⟩ := translate_eq_some h
  have hoffset : ((remote + UInt64.ofNat j) &&& pageMask p.shift).toNat < 2 ^ p.shift :=
    offset_lt _ p
  rw [heq, translate_of_some hpml, frame_add hframe hj]
  simp only [PageSize.bytes_sub_one, Translation.mk.injEq, and_true]
  rw [or_offset p.shift_lt haligned hoffset, or_offset p.shift_lt haligned (offset_lt _ p),
    and_pageMask_add_ofNat p.shift_lt hj, UInt64.add_assoc]

/-- Nor does it come to zero. -/
theorem physical_add_ne_zero (h : (translate k g pid remote).pageSize = some p)
    (hj : InPage p remote j) (h₀ : (translate k g pid remote).physical ≠ 0) :
    (translate k g pid remote).physical + UInt64.ofNat j ≠ 0 := by
  obtain ⟨virtual, physical, base, -, -, haligned, heq⟩ := translate_eq_some h
  rw [heq] at h₀ ⊢
  have hin : InPage p (base ||| (remote &&& pageMask p.shift)) j := by
    rwa [InPage, or_and_pageMask p.shift_lt haligned (offset_lt _ p)]
  have hadd := toNat_add_of_offset p.shift_lt hin
  have hpos : (base ||| (remote &&& pageMask p.shift)).toNat ≠ 0 :=
    fun hz => h₀ (UInt64.toNat.inj hz)
  intro hzero
  rw [show (base ||| (remote &&& pageMask p.shift)) + UInt64.ofNat j = 0 from hzero] at hadd
  exact hpos (Nat.eq_zero_of_add_eq_zero_right hadd.symm)

end Translate

/-! ## A read, chunk by chunk and byte by byte -/

/-- An address is translated, and the byte there can be read. -/
def Reads (k : KernelView) (g : UInt64) (pid : Int32) (dmap remote : UInt64) : Prop :=
  (translate k g pid remote).pageSize ≠ none ∧ (translate k g pid remote).physical ≠ 0 ∧
    k.readable (dmap + (translate k g pid remote).physical) = true

/-- The byte at an address of the process. -/
def byteAt (k : KernelView) (g : UInt64) (pid : Int32) (dmap remote : UInt64) : UInt8 :=
  k.mem (dmap + (translate k g pid remote).physical)

/-- A read does what reading every byte for itself does, and no copy leaves the page
    that it begins in. -/
structure Bytewise (k : KernelView) (g : UInt64) (pid : Int32) (dmap remote : UInt64) (size : ℕ)
    (r : ReadResult) : Prop where
  ok_iff : r.ok = true ↔ ∀ i < size, Reads k g pid dmap (remote + UInt64.ofNat i)
  output : r.ok = true →
    r.output = (List.range size).map fun i => byteAt k g pid dmap (remote + UInt64.ofNat i)
  copies : ∀ c ∈ r.copies, (translate k g pid c.remote).pageSize = some c.page ∧
    c.address = dmap + (translate k g pid c.remote).physical ∧
    (c.remote &&& (c.page.bytes - 1)).toNat + c.size ≤ c.page.bytes.toNat

/-- The copy of a chunk, which is in a page. -/
def chunkCopy (k : KernelView) (g : UInt64) (pid : Int32) (dmap remote : UInt64) (page : PageSize)
    (size : ℕ) : Copy :=
  { remote, page, address := dmap + (translate k g pid remote).physical, size }

section Loop

variable {k : KernelView} {g dmap remote : UInt64} {pid : Int32} {p : PageSize} {j chunk m : ℕ}

/-- A read that fails where its first byte cannot be read. -/
theorem Bytewise.fail {size : ℕ} (hsize : size ≠ 0) (h : ¬Reads k g pid dmap remote) (g' : UInt64) :
    Bytewise k g pid dmap remote size { ok := false, gDmapBase := g' } where
  ok_iff := by
    refine iff_of_false (by simp) fun hall => h ?_
    simpa using hall 0 (Nat.pos_of_ne_zero hsize)
  output h := by simp at h
  copies c hc := absurd hc List.not_mem_nil

/-- In a page whose translation is not zero, a byte can be read if and only if the
    kernel can read what is as far from the translation. -/
theorem reads_add (h : (translate k g pid remote).pageSize = some p)
    (h₀ : (translate k g pid remote).physical ≠ 0) (hj : InPage p remote j) :
    Reads k g pid dmap (remote + UInt64.ofNat j) ↔
      k.readable (dmap + (translate k g pid remote).physical + UInt64.ofNat j) = true := by
  rw [Reads, translate_add h hj, UInt64.add_assoc]
  simp [h, physical_add_ne_zero h hj h₀]

theorem byteAt_add (h : (translate k g pid remote).pageSize = some p) (hj : InPage p remote j) :
    byteAt k g pid dmap (remote + UInt64.ofNat j) =
      k.mem (dmap + (translate k g pid remote).physical + UInt64.ofNat j) := by
  rw [byteAt, translate_add h hj, UInt64.add_assoc]

/-- One chunk of a page, and a read of the rest. -/
theorem Bytewise.copied {rest : ReadResult} (h : (translate k g pid remote).pageSize = some p)
    (h₀ : (translate k g pid remote).physical ≠ 0)
    (hchunk : (remote &&& (p.bytes - 1)).toNat + chunk ≤ p.bytes.toNat)
    (hcopy : k.copyout (dmap + (translate k g pid remote).physical) chunk = true)
    (hrest : Bytewise k g pid dmap (remote + UInt64.ofNat chunk) m rest) :
    Bytewise k g pid dmap remote (chunk + m) { rest with
      output := readBytes k.mem (dmap + (translate k g pid remote).physical) chunk ++ rest.output
      copies := chunkCopy k g pid dmap remote p chunk :: rest.copies } := by
  have hin {j : ℕ} (hj : j < chunk) : InPage p remote j := by
    rw [p.toNat_bytes, p.bytes_sub_one] at hchunk
    exact (Nat.add_lt_add_left hj _).trans_le hchunk
  have hsplit (i : ℕ) : remote + UInt64.ofNat (chunk + i) =
      remote + UInt64.ofNat chunk + UInt64.ofNat i := by
    rw [UInt64.ofNat_add, UInt64.add_assoc]
  refine ⟨?_, fun hok => ?_, fun c hc => ?_⟩
  · rw [hrest.ok_iff]
    constructor
    · intro hall i hi
      rcases Nat.lt_or_ge i chunk with hlt | hge
      · exact (reads_add h h₀ (hin hlt)).2 (List.all_eq_true.1 hcopy i (List.mem_range.2 hlt))
      · obtain ⟨i, rfl⟩ := Nat.exists_eq_add_of_le hge
        rw [hsplit]
        exact hall i (by omega)
    · intro hall i hi
      rw [← hsplit]
      exact hall (chunk + i) (by omega)
  · rw [hrest.output hok, List.range_add, List.map_append, List.map_map]
    refine congrArg₂ (· ++ ·) ?_ ?_
    · exact List.map_congr_left fun j hj => (byteAt_add h (hin (List.mem_range.1 hj))).symm
    · exact List.map_congr_left fun i _ => congrArg _ (hsplit i).symm
  · rcases List.mem_cons.1 hc with rfl | hc
    · exact ⟨h, rfl, hchunk⟩
    · exact hrest.copies c hc

/-- A chunk that the kernel does not copy. -/
theorem Bytewise.uncopied (h : (translate k g pid remote).pageSize = some p)
    (h₀ : (translate k g pid remote).physical ≠ 0)
    (hchunk : (remote &&& (p.bytes - 1)).toNat + chunk ≤ p.bytes.toNat)
    (hcopy : k.copyout (dmap + (translate k g pid remote).physical) chunk = false) (g' : UInt64) :
    Bytewise k g pid dmap remote (chunk + m)
      { ok := false, copies := [chunkCopy k g pid dmap remote p chunk], gDmapBase := g' } := by
  refine ⟨iff_of_false (by simp) fun hall => ?_, fun hok => by simp at hok, fun c hc => ?_⟩
  · obtain ⟨j, hj, hno⟩ := List.all_eq_false.1 hcopy
    have hj := List.mem_range.1 hj
    have hin : InPage p remote j := by
      rw [p.toNat_bytes, p.bytes_sub_one] at hchunk
      exact (Nat.add_lt_add_left hj _).trans_le hchunk
    exact hno ((reads_add h h₀ hin).1 (hall j (by omega)))
  · obtain rfl := List.mem_singleton.1 hc
    exact ⟨h, rfl, hchunk⟩

end Loop

/-- It does not matter when the mapping of physical memory is chosen. -/
theorem Bytewise.of_chosen {k : KernelView} {g dmap remote virtual physical : UInt64} {pid : Int32}
    {size : ℕ} {r : ReadResult} (h : pml4 k pid = some (virtual, physical))
    (hr : Bytewise k (chooseDmap g virtual physical) pid dmap remote size r) :
    Bytewise k g pid dmap remote size r := by
  have htranslate : translate k (chooseDmap g virtual physical) pid = translate k g pid := by
    funext remote
    exact translate_chosen h
  obtain ⟨hok, houtput, hcopies⟩ := hr
  simp only [Reads, byteAt, htranslate] at hok houtput hcopies
  exact ⟨hok, houtput, hcopies⟩

/-- The loop, from any address and with any number of bytes left: a chunk goes to
    the end of its page, and the next one begins there. -/
theorem procReadLoop_bytewise {k : KernelView} {pid : Int32} {virtual physical : UInt64}
    (h : pml4 k pid = some (virtual, physical)) (g remote : UInt64) (remaining : ℕ) :
    Bytewise k g pid (chooseDmap g virtual physical) remote remaining
      (procReadLoop k pid g remote remaining) ∧
    (remaining ≠ 0 →
      (procReadLoop k pid g remote remaining).gDmapBase = chooseDmap g virtual physical) := by
  induction remaining using Nat.strong_induction_on generalizing g remote with
  | _ remaining ih =>
    rw [procReadLoop]
    by_cases hzero : remaining = 0
    · subst hzero
      exact ⟨⟨by simp, fun _ => rfl, fun c hc => absurd hc List.not_mem_nil⟩,
        fun hn => absurd rfl hn⟩
    have hdmap : (translate k g pid remote).gDmapBase = chooseDmap g virtual physical :=
      translate_gDmapBase h
    rw [if_neg hzero]
    dsimp only
    rw [hdmap, dmapBase_chooseDmap]
    cases hpage : (translate k g pid remote).pageSize with
    | none => exact ⟨.fail hzero (fun hr => hr.1 hpage) _, fun _ => rfl⟩
    | some p =>
      dsimp only
      have hroom := page_room p remote
      -- The first chunk goes up to the end of the page, and `m` bytes are left.
      obtain ⟨m, hm⟩ := Nat.exists_eq_add_of_le
        (min_le_left remaining (p.bytes - (remote &&& (p.bytes - 1))).toNat)
      have hin : (remote &&& (p.bytes - 1)).toNat +
          min remaining (p.bytes - (remote &&& (p.bytes - 1))).toNat ≤ p.bytes.toNat := by omega
      split_ifs with h₀ hcopy
      · exact ⟨.fail hzero (fun hr => hr.2.1 h₀) _, fun _ => rfl⟩
      · have hfail := Bytewise.uncopied (m := m) hpage h₀ hin hcopy (chooseDmap g virtual physical)
        rw [← hm] at hfail
        exact ⟨hfail, fun _ => rfl⟩
      · obtain ⟨hrest, hrest'⟩ := ih m (by omega) (chooseDmap g virtual physical)
          (remote + UInt64.ofNat (min remaining (p.bytes - (remote &&& (p.bytes - 1))).toNat))
        -- The first translation has chosen the mapping for the rest.
        rw [chooseDmap_idem] at hrest hrest'
        have hread := Bytewise.copied hpage h₀ hin (by simpa using hcopy) (hrest.of_chosen h)
        rw [← hm] at hread
        have hleft : remaining - min remaining (p.bytes - (remote &&& (p.bytes - 1))).toNat = m := by
          omega
        rw [hleft]
        refine ⟨hread, fun _ => ?_⟩
        rcases Nat.eq_zero_or_pos m with rfl | hpos
        · rw [procReadLoop]
          rfl
        · exact hrest' hpos.ne'

end ProcRw

/-- For every content of the page tables and every size: a read in chunks succeeds if
    and only if every single byte is translated and can be read, then has read the
    byte at its translation for each of them, and no copy leaves the page that its
    first byte is in. -/
theorem procRead_bytewise (k : ProcRw.KernelView) (g : UInt64) (pid : Int32) (remote : UInt64)
    (size : ℕ) (hremote : remote ≠ 0) :
    ProcRw.Bytewise k g pid (ProcRw.dmapBase (ProcRw.procRead k g pid remote size).gDmapBase)
      remote size (ProcRw.procRead k g pid remote size) := by
  rw [ProcRw.procRead]
  by_cases hsize : size = 0
  · subst hsize
    exact ⟨by simp, fun _ => rfl, fun c hc => absurd hc List.not_mem_nil⟩
  rw [if_neg hsize]
  cases hpml : ProcRw.pml4 k pid with
  | none =>
    -- Nothing is translated, and the loop fails at its first byte, if not before.
    have htranslate : ProcRw.translate k g pid remote = _ := ProcRw.translate_of_none hpml
    have hfail : ∀ dmap, ¬ProcRw.Reads k g pid dmap remote := fun _ hr => by
      simp [ProcRw.Reads, htranslate] at hr
    split_ifs with hbad
    · exact .fail hsize (hfail _) _
    · rw [ProcRw.procReadLoop, if_neg hsize, htranslate]
      exact .fail hsize (hfail _) _
  | some tables =>
    have hpid : ¬(pid ≤ 0 ∨ remote = 0) := by
      rintro (hpid | hzero)
      · simp [ProcRw.pml4, ProcRw.KernelView.findProc, hpid] at hpml
      · exact hremote hzero
    obtain ⟨hread, hdmap⟩ := ProcRw.procReadLoop_bytewise hpml g remote size
    rw [if_neg hpid, hdmap hsize, ProcRw.dmapBase_chooseDmap]
    exact hread

/-- A kernel with one process, which has a small page before a large one. -/
def ProcRw.twoPages : ProcRw.KernelView where
  mem a :=
    -- The words from the list of processes down to the two pages, and their places.
    match [((0x02756D50 : UInt64), (0x10000 : UInt64)), (0x100BC, 5), (0x10200, 0x20000),
      (0x201D8, 0x30000), (0x30020, 0x40000), (0x30028, 0x40000), (0x40000, 0x50001),
      (kFixedDmapBase + 0x50000, 0x60001), (kFixedDmapBase + 0x60000, 0x70001),
      (kFixedDmapBase + 0x60008, 0x40000081), (kFixedDmapBase + 0x70FF8, 0x80001)].find?
        fun w => a - w.1 < 8 with
    | some w => (w.2 >>> (8 * (a - w.1))).toUInt8
    | none => a.toUInt8
  readable _ := true
  dataBase := 0x1000
  fwVersion := 0x09600001

/-- Four bytes, of which the first two are the last ones of the small page. -/
theorem procRead_bytewise_two_pages :
    let r := ProcRw.procRead ProcRw.twoPages 0 5 0x1FFFFE 4
    (r.ok = true ∧ r.output = [0xFE, 0xFF, 0, 1]) ∧
      (ProcRw.translate ProcRw.twoPages 0 5 0x1FFFFE).pageSize = some .page4K ∧
        (ProcRw.translate ProcRw.twoPages 0 5 0x200000).pageSize = some .page2M := by
  intro r
  have hread : ProcRw.Bytewise ProcRw.twoPages 0 5 (ProcRw.dmapBase r.gDmapBase) 0x1FFFFE 4 r :=
    procRead_bytewise ProcRw.twoPages 0 5 0x1FFFFE 4 (by decide)
  have htranslate : ∀ i < 4,
      (ProcRw.translate ProcRw.twoPages 0 5 (0x1FFFFE + UInt64.ofNat i)).pageSize ≠ none ∧
        (ProcRw.translate ProcRw.twoPages 0 5 (0x1FFFFE + UInt64.ofNat i)).physical ≠ 0 := by
    decide +kernel
  have hok : r.ok = true := hread.ok_iff.2 fun i hi => ⟨(htranslate i hi).1, (htranslate i hi).2, rfl⟩
  have htables : ProcRw.pml4 ProcRw.twoPages 5 = some (0x40000, 0x40000) := by decide +kernel
  have hdmap : ProcRw.dmapBase r.gDmapBase = ProcRw.kFixedDmapBase := by
    have hloop := (ProcRw.procReadLoop_bytewise htables 0 0x1FFFFE 4).2 (by decide)
    show ProcRw.dmapBase (ProcRw.procRead ProcRw.twoPages 0 5 0x1FFFFE 4).gDmapBase = _
    rw [ProcRw.procRead, if_neg (by decide), if_neg (by decide), hloop]
    rfl
  have houtput := hread.output hok
  rw [hdmap] at houtput
  exact ⟨⟨hok, houtput.trans (by decide +kernel)⟩, by decide +kernel, by decide +kernel⟩

end CommonFps
