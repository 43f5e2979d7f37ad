import CommonFps.ShellUi.Elf

/-!
# Loading the renderer

The loader of the renderer (`stable_elfldr_bridge.c`): ShellUI, held stopped, is
made to map the pages of the image and then runs on while the image is prepared
in a local mirror; it is stopped again before the mirror is copied, the segments
are protected and the pages synchronised. One error variable goes through all
steps, and one tail cleans up.

The outcomes of the primitives are inputs, and the primitives called are recorded
in order (`Loader.trace`).

* `commonfpsApplyRelocations`: the stores into the mirror;
* `commonfpsStableElfldrLoad`: the steps, and the tail;
* `load_eq`: what is called, and how it ends, whatever fails;
* `load_cleanup`: when an entry is returned, and what is cleaned up.
-/

namespace CommonFps

def SHT_SYMTAB : UInt32 := 2
def SHT_STRTAB : UInt32 := 3
def SHT_RELA : UInt32 := 4
def SHT_DYNSYM : UInt32 := 11
def SHN_UNDEF : UInt16 := 0
def SHN_ABS : UInt16 := 0xfff1
def R_X86_64_NONE : UInt32 := 0
def R_X86_64_64 : UInt32 := 1
def R_X86_64_GLOB_DAT : UInt32 := 6
def R_X86_64_RELATIVE : UInt32 := 8

/-! ## Relocations -/

/-- The libraries in which symbols are looked up, in order. -/
def gResolveLibraries : List String :=
  ["libkernel_sys.sprx", "libkernel.sprx", "libSceLibcInternal.sprx", "libmonosgen-2.0.sprx",
    "libmonosgen-2.0.0.sprx", "libSceNet.sprx", "libSceSystemService.sprx", "libSceSysmodule.sprx",
    "libSceUserService.sprx"]

/-- The answers of the kernel about the libraries of ShellUI, names being those
    at an offset of the image. -/
structure ResolveAnswers where
  dynlibHandle : String → Option UInt32
  dynlibDlsym : UInt32 → UInt64 → UInt64

/-- The address of an external symbol, or `0`. -/
def commonfpsResolveExternal (elf : Memory) (name : UInt64) (a : ResolveAnswers) : UInt64 :=
  if elf name = 0 then 0
  else
    (gResolveLibraries.findSome? fun library =>
      match a.dynlibHandle library with
      | none => none
      | some handle =>
        if handle = 0 ∨ a.dynlibDlsym handle name = 0 then none else some (a.dynlibDlsym handle name)).getD 0

/-- The symbols and names of a section of relocations. -/
structure SymbolTable where
  symOffset : UInt64
  symCount : UInt64
  strOffset : UInt64
  strSize : UInt64

/-- The section with an index, if there is one. -/
def section? (sections : List Shdr) (link : UInt32) : Option Shdr := sections[link.toNat]?

/-- The symbols and their names that a section of relocations is linked to. -/
def symbolTable (sections : List Shdr) (relocations : Shdr) : Option SymbolTable := do
  let symsec ← section? sections relocations.link
  if (symsec.type = SHT_DYNSYM ∨ symsec.type = SHT_SYMTAB) ∧ symsec.entsize = kSymSize then
    let strsec ← section? sections symsec.link
    if strsec.type = SHT_STRTAB then
      some ⟨symsec.offset, symsec.size / kSymSize, strsec.offset, strsec.size⟩
    else none
  else none

/-- What a relocation refers to. -/
inductive RelocTarget
  | relative
  | absolute (value : UInt64)
  | defined (value : UInt64)
  | external (address : UInt64)
  deriving DecidableEq

/-- The address that a target stands for, in an image at the address `base`. -/
def RelocTarget.resolved (base : UInt64) : RelocTarget → UInt64
  | relative => base
  | absolute value => value
  | defined value => base + value
  | external address => address

/-- A store into the mirror, at an offset from its start. -/
structure RelocStore where
  rela : Rela
  target : RelocTarget
  location : UInt64
  value : UInt64
  deriving DecidableEq

/-- The store of a relocation: at its offset, what it refers to plus its addend. -/
def RelocStore.of (base : UInt64) (rela : Rela) (target : RelocTarget) : RelocStore :=
  ⟨rela, target, rela.offset, target.resolved base + rela.addend⟩

/-- The target of a symbol, which may be one that cannot be resolved. -/
def symbolTarget (elf : Memory) (table : SymbolTable) (symbol : Sym) (a : ResolveAnswers) :
    Option RelocTarget :=
  if symbol.name.toUInt64 ≥ table.strSize then none
  else if symbol.shndx = SHN_ABS then some (.absolute symbol.value)
  else if symbol.shndx ≠ SHN_UNDEF then some (.defined symbol.value)
  else
    let resolved := commonfpsResolveExternal elf (table.strOffset + symbol.name.toUInt64) a
    if resolved = 0 then none else some (.external resolved)

/-- A relocation: none, if it cannot be applied; or its target, if it has one. -/
def relocationTarget (elf : Memory) (table : Option SymbolTable) (rela : Rela) (a : ResolveAnswers) :
    Option (Option RelocTarget) :=
  if rela.type = R_X86_64_RELATIVE then some (some .relative)
  else if rela.type = R_X86_64_NONE then some none
  else if rela.type ≠ R_X86_64_64 ∧ rela.type ≠ R_X86_64_GLOB_DAT then none
  else
    match table with
    | none => none
    | some table =>
      if rela.sym.toUInt64 ≥ table.symCount then none
      else
        (symbolTarget elf table (readSym elf (table.symOffset + kSymSize * rela.sym.toUInt64)) a).map some

/-- The relocations of a section, up to one that cannot be applied: the stores,
    and whether all were applied. -/
def applyRelas (elf : Memory) (base : UInt64) (table : Option SymbolTable) (a : ResolveAnswers) :
    List Rela → List RelocStore × Bool
  | [] => ([], true)
  | rela :: rest =>
    match relocationTarget elf table rela a with
    | none => ([], false)
    | some none => applyRelas elf base table a rest
    | some (some target) =>
      let (stores, ok) := applyRelas elf base table a rest
      (.of base rela target :: stores, ok)

/-- The relocations of a section. -/
def relas (elf : Memory) (relocations : Shdr) : List Rela :=
  readTable (readRela elf) relocations.offset kRelaSize (relocations.size / kRelaSize).toNat

/-- The sections of relocations, in order. -/
def applySections (elf : Memory) (base : UInt64) (sections : List Shdr) (a : ResolveAnswers) :
    List Shdr → List RelocStore × Bool
  | [] => ([], true)
  | s :: rest =>
    if s.type ≠ SHT_RELA ∨ s.entsize = 0 then applySections elf base sections a rest
    else
      match applyRelas elf base (symbolTable sections s) a (relas elf s) with
      | (stores, false) => (stores, false)
      | (stores, true) =>
        let (stores', ok) := applySections elf base sections a rest
        (stores ++ stores', ok)

/-- The relocations of all sections, up to one that cannot be applied. -/
def commonfpsApplyRelocations (elf : Memory) (base : UInt64) (a : ResolveAnswers) : List RelocStore × Bool :=
  applySections elf base (shdrs elf) a (shdrs elf)

theorem mem_applyRelas {elf : Memory} {base : UInt64} {table : Option SymbolTable} {a : ResolveAnswers}
    {l : List Rela} {store : RelocStore} (h : store ∈ (applyRelas elf base table a l).1) :
    store.rela ∈ l ∧ relocationTarget elf table store.rela a = some (some store.target) ∧
      store = .of base store.rela store.target := by
  induction l with
  | nil => exact absurd h List.not_mem_nil
  | cons rela rest ih =>
    rw [applyRelas] at h
    rcases htarget : relocationTarget elf table rela a with _ | _ | target <;> rw [htarget] at h
    · exact absurd h List.not_mem_nil
    · exact (ih h).imp_left (List.mem_cons_of_mem rela)
    · rcases List.mem_cons.1 h with rfl | h
      · exact ⟨List.mem_cons_self, htarget, rfl⟩
      · exact (ih h).imp_left (List.mem_cons_of_mem rela)

/-- Every store is for a relocation of a section, with the target that the symbols of
    that section give: at the offset of the relocation, and of what it refers to. -/
theorem section_of_mem_commonfpsApplyRelocations {elf : Memory} {base : UInt64} {a : ResolveAnswers}
    {store : RelocStore} (h : store ∈ (commonfpsApplyRelocations elf base a).1) :
    ∃ s ∈ shdrs elf, s.type = SHT_RELA ∧ store.rela ∈ relas elf s ∧
      relocationTarget elf (symbolTable (shdrs elf) s) store.rela a = some (some store.target) ∧
      store = .of base store.rela store.target := by
  rw [commonfpsApplyRelocations] at h
  suffices ∀ l ⊆ shdrs elf, store ∈ (applySections elf base (shdrs elf) a l).1 →
      ∃ s ∈ shdrs elf, s.type = SHT_RELA ∧
        store ∈ (applyRelas elf base (symbolTable (shdrs elf) s) a (relas elf s)).1 by
    obtain ⟨s, hs, htype, hmem⟩ := this _ (List.Subset.refl _) h
    exact ⟨s, hs, htype, mem_applyRelas hmem⟩
  intro l
  induction l with
  | nil => exact fun _ h => absurd h List.not_mem_nil
  | cons s rest ih =>
    intro hsub h
    have hs := hsub List.mem_cons_self
    have hrest : rest ⊆ shdrs elf := fun t ht => hsub (List.mem_cons_of_mem s ht)
    rw [applySections] at h
    split_ifs at h with hskip
    · exact ih hrest h
    · rw [not_or, not_not] at hskip
      rcases hrelas : applyRelas elf base (symbolTable (shdrs elf) s) a (relas elf s) with ⟨stores, _ | _⟩
      · rw [hrelas] at h
        exact ⟨s, hs, hskip.1, by rw [hrelas]; exact h⟩
      · rw [hrelas] at h
        rcases List.mem_append.1 h with h | h
        · exact ⟨s, hs, hskip.1, by rw [hrelas]; exact h⟩
        · exact ih hrest h

/-- Every store is at the offset of its relocation, and is of what it refers to. -/
theorem mem_commonfpsApplyRelocations {elf : Memory} {base : UInt64} {a : ResolveAnswers} {store : RelocStore}
    (h : store ∈ (commonfpsApplyRelocations elf base a).1) : store = .of base store.rela store.target := by
  obtain ⟨s, -, -, -, -, hof⟩ := section_of_mem_commonfpsApplyRelocations h
  exact hof

/-! ## The steps -/

/-- What the loader uses of the loader that it includes: the rounding to pages,
    and the protection of a segment (`PFLAGS`). -/
structure Elfldr extends PageRounding where
  pflags : UInt32 → ℕ

/-- A primitive called, and whether it succeeded. -/
inductive LoadCall
  | ptMmap (size result : UInt64)
  | ptContinue (ok : Bool)
  | mmap (size : UInt64) (ok : Bool)
  | ptLoad (segment : ℕ) (ok : Bool)
  | applyRelocations (ok : Bool)
  | kill (ok : Bool)
  | waitpid (ok : Bool)
  | ptCopyin (address size : UInt64) (ok : Bool)
  | mprotect (inKernel : Bool) (address size : UInt64) (prot : ℕ) (ok : Bool)
  | ptMsync (address size : UInt64) (ok : Bool)
  | munmap (size : UInt64)
  | ptMunmap (address size : UInt64)
  deriving DecidableEq

namespace LoadCall

/-- The call prepares the mirror. -/
def IsPrepare : LoadCall → Prop
  | ptLoad _ _ | applyRelocations _ => True
  | _ => False

/-- The call is a remote copy, protect or sync. -/
def IsRemote : LoadCall → Prop
  | ptCopyin _ _ _ | mprotect _ _ _ _ _ | ptMsync _ _ _ => True
  | _ => False

end LoadCall

/-- The addresses of a segment and of the entry, in an image at the address `base`. -/
def segmentAddress (base : UInt64) (segment : Phdr) : UInt64 := base + segment.vaddr
def entryAddress (base : UInt64) (elf : Memory) : UInt64 := base + (readEhdr elf).entry

/-- The outcome of stopping the target: `kill`, then `waitpid`. -/
structure StopAnswer where
  kill : Bool
  waitpid : Bool

/-- The outcomes of the primitives; those of the segments by their index. -/
structure LoadAnswers where
  ptMmap : UInt64
  ptContinue : Bool
  mmap : Bool
  ptLoad : ℕ → Bool
  resolve : ResolveAnswers
  stop : StopAnswer
  ptCopyin : Bool
  mprotect : ℕ → Bool
  ptMsync : Bool
  tailStop : StopAnswer

/-- What the loader keeps: the state of the target, an error, and the calls so far. -/
structure Loader where
  continued : Bool := false
  stopped : Bool := false
  error : Bool := false
  trace : List LoadCall := []

namespace Loader

/-- A call is recorded. -/
def log (l : Loader) (call : LoadCall) : Loader := { l with trace := l.trace ++ [call] }

/-- A step that is made only without an error so far. -/
def attempt (l : Loader) (call : Bool → LoadCall) (ok : Bool) : Loader :=
  if l.error then l else { l.log (call ok) with error := !ok }

/-- `commonfps_trace_continue`. -/
def traceContinue (l : Loader) (ok : Bool) : Loader :=
  if ok then { l.log (.ptContinue ok) with continued := true }
  else { l.log (.ptContinue ok) with error := true }

/-- `commonfps_trace_stop`: nothing is to be done for a target that was not
    continued, or is stopped again. -/
def traceStop (l : Loader) (a : StopAnswer) : Loader × Bool :=
  if !l.continued || l.stopped then (l, true)
  else if !a.kill then (l.log (.kill false), false)
  else if !a.waitpid then ((l.log (.kill true)).log (.waitpid false), false)
  else ({ (l.log (.kill true)).log (.waitpid true) with stopped := true }, true)

/-- The mirror, in which the image is prepared, is mapped. -/
def mapMirror (l : Loader) (size : UInt64) (ok : Bool) : Loader :=
  if ok then l.log (.mmap size ok) else { l.log (.mmap size ok) with error := true }

/-- A loop over the segments, up to an error. -/
def forSegments (skip : Phdr → Bool) (call : Phdr → ℕ → Bool → LoadCall) (ok : ℕ → Bool) :
    List (Phdr × ℕ) → Loader → Loader
  | [], l => l
  | (segment, i) :: rest, l =>
    if l.error then l
    else if skip segment then forSegments skip call ok rest l
    else forSegments skip call ok rest (l.attempt (call segment i) (ok i))

/-- The segments are loaded into the mirror. -/
def loadSegments : (ok : ℕ → Bool) → List (Phdr × ℕ) → Loader → Loader :=
  forSegments (fun segment => segment.type ≠ PT_LOAD) fun _ i => .ptLoad i

/-- The segments get their protection. -/
def protectSegments (ld : Elfldr) (base : UInt64) : (ok : ℕ → Bool) → List (Phdr × ℕ) →
    Loader → Loader :=
  forSegments (fun segment => segment.type ≠ PT_LOAD ∨ segment.memsz = 0) fun segment _ =>
    .mprotect (segment.flags &&& PF_X ≠ 0) (segmentAddress base segment) (ld.roundPg segment.memsz)
      (ld.pflags segment.flags)

/-- The mirror is filled, while the target runs. -/
def prepare (elf : Memory) (a : LoadAnswers) (l : Loader) : Loader :=
  (loadSegments a.ptLoad (phdrs elf).zipIdx l).attempt .applyRelocations
    (commonfpsApplyRelocations elf a.ptMmap a.resolve).2

/-- The pages are filled, protected and synchronised. -/
def finish (ld : Elfldr) (elf : Memory) (size : UInt64) (a : LoadAnswers) (l : Loader) : Loader :=
  let l := l.attempt (.ptCopyin a.ptMmap size) a.ptCopyin
  let l := protectSegments ld a.ptMmap a.mprotect (phdrs elf).zipIdx l
  l.attempt (.ptMsync a.ptMmap size) a.ptMsync

/-- The target is stopped again, whatever happened before. -/
def stop (l : Loader) (a : StopAnswer) : Loader :=
  let stopped := l.traceStop a
  if stopped.2 then stopped.1 else { stopped.1 with error := true }

/-- The common tail: the mirror, and after an error the target and the pages. -/
def tail (l : Loader) (mirror : Bool) (base size entry : UInt64) (a : StopAnswer) : Loader × UInt64 :=
  let l := if mirror then l.log (.munmap size) else l
  if l.error then
    let l := if l.continued && !l.stopped then (l.traceStop a).1 else l
    (l.log (.ptMunmap base size), 0)
  else (l, entry)

end Loader

open Loader in
/-- The primitives called, and the entry. -/
def commonfpsStableElfldrLoad (ld : Elfldr) (elf : Memory) (a : LoadAnswers) : List LoadCall × UInt64 :=
  if ¬ElfAccepted elf then ([], 0)
  else
    let size := baseSize ld.toPageRounding elf
    let base := a.ptMmap
    let l : Loader := {}
    let l := l.log (.ptMmap size base)
    if base = -1 then (l.trace, 0)
    else
      let l := l.traceContinue a.ptContinue
      let l := l.mapMirror size a.mmap
      let l := l.prepare elf a
      let l := l.stop a.stop
      let l := l.finish ld elf size a
      let (l, entry) := l.tail a.mmap base size (entryAddress base elf) a.tailStop
      (l.trace, entry)

/-! ## What is called -/

namespace Loader

/-- From `l` to `l'`, only calls as in `P` are made, and none after an error; and
    there is no error if and only if there was none and all goes well. -/
def Runs (P : LoadCall → Prop) (good : Prop) (l l' : Loader) : Prop :=
  ∃ events, l' = { l with error := l'.error, trace := l.trace ++ events } ∧ (∀ e ∈ events, P e) ∧
    (l.error = true → events = []) ∧ (l'.error = false ↔ l.error = false ∧ good)

variable {P : LoadCall → Prop} {good good' : Prop} {l l' l'' : Loader}

theorem Runs.refl (h : good) : Runs P good l l :=
  ⟨[], by simp, by simp, fun _ => rfl, ⟨fun hl => ⟨hl, h⟩, And.left⟩⟩

theorem Runs.trans (h : Runs P good l l') (h' : Runs P good' l' l'') : Runs P (good ∧ good') l l'' := by
  obtain ⟨events, heq, hP, herr, hgood⟩ := h
  obtain ⟨events', heq', hP', herr', hgood'⟩ := h'
  refine ⟨events ++ events', ?_, fun e he => ?_, fun hl => ?_, ?_⟩
  · rw [heq', heq]
    simp
  · rcases List.mem_append.1 he with he | he
    · exact hP e he
    · exact hP' e he
  · have hl' : l'.error = true := by
      by_contra hne
      have := (hgood.1 (by simpa using hne)).1
      exact absurd (hl.symm.trans this) (by decide)
    rw [herr hl, herr' hl', List.append_nil]
  · rw [hgood', hgood, and_assoc]

theorem Runs.congr (h : Runs P good l l') (hgood : good ↔ good') : Runs P good' l l' := propext hgood ▸ h

theorem runs_attempt {call : Bool → LoadCall} {ok : Bool} (h : P (call ok)) :
    Runs P (ok = true) l (l.attempt call ok) := by
  rw [attempt]
  split_ifs with hl
  · exact ⟨[], by simp, by simp, fun _ => rfl, by simp [hl]⟩
  · exact ⟨[call ok], rfl, by simpa using h, fun hl' => absurd hl' hl, by simp [hl]⟩

/-- A loop over the segments makes the calls of those that are not skipped. -/
theorem runs_forSegments (skip : Phdr → Bool) (call : Phdr → ℕ → Bool → LoadCall) (ok : ℕ → Bool)
    (h : ∀ segment i b, P (call segment i b)) (segments : List (Phdr × ℕ)) (l : Loader) :
    Runs P (∀ p ∈ segments, skip p.1 = false → ok p.2 = true) l
      (forSegments skip call ok segments l) := by
  induction segments generalizing l with
  | nil => exact .refl (by simp)
  | cons p rest ih =>
    obtain ⟨segment, i⟩ := p
    rw [forSegments]
    split_ifs with hl hskip
    · exact ⟨[], by simp, by simp, fun _ => rfl, by simp [hl]⟩
    · have hgood : (∀ p ∈ (segment, i) :: rest, skip p.1 = false → ok p.2 = true) ↔
          ∀ p ∈ rest, skip p.1 = false → ok p.2 = true := by simp [hskip]
      rw [hgood]
      exact ih l
    · have hgood : (∀ p ∈ (segment, i) :: rest, skip p.1 = false → ok p.2 = true) ↔
          ok i = true ∧ ∀ p ∈ rest, skip p.1 = false → ok p.2 = true := by simp [hskip]
      rw [hgood]
      exact (runs_attempt (h segment i (ok i))).trans (ih _)

theorem runs_loadSegments (ok : ℕ → Bool) (segments : List (Phdr × ℕ)) (l : Loader) :
    Runs LoadCall.IsPrepare (∀ p ∈ segments, p.1.type = PT_LOAD → ok p.2 = true) l
      (loadSegments ok segments l) :=
  (runs_forSegments _ _ ok (fun _ _ _ => trivial) segments l).congr (by simp)

theorem runs_protectSegments (ld : Elfldr) (base : UInt64) (ok : ℕ → Bool) (segments : List (Phdr × ℕ))
    (l : Loader) :
    Runs LoadCall.IsRemote (∀ p ∈ segments, p.1.type = PT_LOAD → p.1.memsz ≠ 0 → ok p.2 = true) l
      (protectSegments ld base ok segments l) :=
  (runs_forSegments _ _ ok (fun _ _ _ => trivial) segments l).congr (by simp)

theorem runs_prepare (elf : Memory) (a : LoadAnswers) (l : Loader) :
    Runs LoadCall.IsPrepare ((∀ p ∈ (phdrs elf).zipIdx, p.1.type = PT_LOAD → a.ptLoad p.2 = true) ∧
      (commonfpsApplyRelocations elf a.ptMmap a.resolve).2 = true) l (l.prepare elf a) :=
  (runs_loadSegments a.ptLoad _ l).trans (runs_attempt trivial)

theorem runs_finish (ld : Elfldr) (elf : Memory) (size : UInt64) (a : LoadAnswers) (l : Loader) :
    Runs LoadCall.IsRemote ((a.ptCopyin = true ∧ ∀ p ∈ (phdrs elf).zipIdx, p.1.type = PT_LOAD →
      p.1.memsz ≠ 0 →
      a.mprotect p.2 = true) ∧ a.ptMsync = true) l (l.finish ld elf size a) :=
  ((runs_attempt trivial).trans (runs_protectSegments ld a.ptMmap a.mprotect _ _)).trans (runs_attempt trivial)

/-- The calls that stop the target. -/
def stopCalls (a : StopAnswer) : List LoadCall :=
  if a.kill then [.kill true, .waitpid a.waitpid] else [.kill false]

theorem traceStop_eq (a : StopAnswer) (hstopped : l.stopped = false) : l.traceStop a =
    ({ l with
        stopped := l.continued && (a.kill && a.waitpid)
        trace := l.trace ++ if l.continued then stopCalls a else [] },
      !l.continued || (a.kill && a.waitpid)) := by
  obtain ⟨continued, stopped, error, trace⟩ := l
  obtain rfl : stopped = false := hstopped
  obtain ⟨kill, waitpid⟩ := a
  cases continued <;> cases kill <;> cases waitpid <;> simp [traceStop, stopCalls, log]

theorem stop_eq (a : StopAnswer) (hstopped : l.stopped = false) : l.stop a =
    { l with
      stopped := l.continued && (a.kill && a.waitpid)
      error := l.error || (l.continued && !(a.kill && a.waitpid))
      trace := l.trace ++ if l.continued then stopCalls a else [] } := by
  rw [stop, traceStop_eq a hstopped]
  cases l.continued <;> cases a.kill && a.waitpid <;> simp

/-- A target that was not continued is stopped already. -/
theorem stop_error (a : StopAnswer) (hstopped : l.stopped = false) : (l.stop a).error = false ↔
    l.error = false ∧ (l.continued = true → a.kill = true ∧ a.waitpid = true) := by
  rw [stop_eq a hstopped]
  cases l.continued <;> cases a.kill <;> cases a.waitpid <;> simp

/-- Up to the mirror of the pages. -/
theorem mapMirror_eq (size : UInt64) (base : UInt64) (continued mirror : Bool) :
    ((({} : Loader).log (.ptMmap size base)).traceContinue continued).mapMirror size mirror =
      { continued, error := !(continued && mirror),
        trace := [.ptMmap size base, .ptContinue continued, .mmap size mirror] } := by
  cases continued <;> cases mirror <;> rfl

/-- The tail: the mirror, and after an error the target and the pages. -/
theorem tail_eq (l : Loader) (mirror : Bool) (base size entry : UInt64) (a : StopAnswer) :
    (l.tail mirror base size entry a).1.trace = l.trace ++ (if mirror then [.munmap size] else []) ++
        (if l.error then (if l.continued && !l.stopped then stopCalls a else []) ++
        [.ptMunmap base size] else []) ∧
      (l.tail mirror base size entry a).2 = if l.error then 0 else entry := by
  obtain ⟨continued, stopped, error, trace⟩ := l
  cases error
  · cases mirror <;> simp [tail, log]
  · -- The target is stopped only if it was continued and is not stopped.
    cases stopped
    · cases mirror <;> cases continued <;> simp [tail, log, traceStop_eq]
    · cases mirror <;> simp [tail, log]

end Loader

/-- Every step succeeds. -/
structure EveryStep (elf : Memory) (a : LoadAnswers) : Prop where
  ptContinue : a.ptContinue = true
  mmap : a.mmap = true
  ptLoad : ∀ p ∈ (phdrs elf).zipIdx, p.1.type = PT_LOAD → a.ptLoad p.2 = true
  relocations : (commonfpsApplyRelocations elf a.ptMmap a.resolve).2 = true
  stop : a.stop.kill = true ∧ a.stop.waitpid = true
  ptCopyin : a.ptCopyin = true
  mprotect : ∀ p ∈ (phdrs elf).zipIdx, p.1.type = PT_LOAD → p.1.memsz ≠ 0 → a.mprotect p.2 = true
  ptMsync : a.ptMsync = true

/-- The calls up to the stop of the target. -/
def callsBefore (a : LoadAnswers) (size : UInt64) (prepare : List LoadCall) : List LoadCall :=
  [.ptMmap size a.ptMmap, .ptContinue a.ptContinue, .mmap size a.mmap] ++ prepare ++
    if a.ptContinue then Loader.stopCalls a.stop else []

/-- The calls of the tail. -/
def callsAfter (a : LoadAnswers) (size : UInt64) (error : Bool) : List LoadCall :=
  (if a.mmap then [.munmap size] else []) ++
    if error then
      (if a.ptContinue && !(a.stop.kill && a.stop.waitpid) then Loader.stopCalls a.tailStop else []) ++
        [.ptMunmap a.ptMmap size]
    else []

open Loader in
/-- The calls of a load that mapped its pages, and its entry: the target runs
    while the mirror is prepared, is stopped, and then the pages are filled. -/
theorem load_eq (ld : Elfldr) {elf : Memory} {a : LoadAnswers} (h : ElfAccepted elf) (hbase : a.ptMmap ≠ -1) :
    ∃ (prepare remote : List LoadCall) (error : Bool), (∀ e ∈ prepare, e.IsPrepare) ∧
      (∀ e ∈ remote, e.IsRemote) ∧
      (remote ≠ [] → a.ptContinue = true ∧ a.stop.kill = true ∧ a.stop.waitpid = true) ∧
      (error = false ↔ EveryStep elf a) ∧
      let size := baseSize ld.toPageRounding elf
      commonfpsStableElfldrLoad ld elf a =
        (callsBefore a size prepare ++ (remote ++ callsAfter a size error),
          if error then 0 else entryAddress a.ptMmap elf) := by
  rw [commonfpsStableElfldrLoad, if_neg (not_not.2 h)]
  dsimp only
  rw [if_neg hbase]
  generalize baseSize ld.toPageRounding elf = size
  have hstart := mapMirror_eq size a.ptMmap a.ptContinue a.mmap
  generalize ((({} : Loader).log (.ptMmap size a.ptMmap)).traceContinue a.ptContinue).mapMirror size a.mmap = l
    at hstart ⊢
  -- The target, let go before the mirror is mapped, runs through the preparation.
  obtain ⟨prepare, hl₁, hP, -, hgood₁⟩ := runs_prepare elf a l
  generalize l.prepare elf a = l₁ at hl₁ hgood₁ ⊢
  have hstopped : l₁.stopped = false := by rw [hl₁, hstart]
  have hcontinued : l₁.continued = a.ptContinue := by rw [hl₁, hstart]
  have hstop := stop_eq a.stop hstopped
  have herror₂ := stop_error a.stop hstopped
  rw [hcontinued] at herror₂
  generalize l₁.stop a.stop = l₂ at hstop herror₂ ⊢
  obtain ⟨remote, hl₃, hR, herr, hgood₃⟩ := runs_finish ld elf size a l₂
  generalize l₂.finish ld elf size a = l₃ at hl₃ hgood₃ ⊢
  obtain ⟨htrace, hentry⟩ := l₃.tail_eq a.mmap a.ptMmap size (entryAddress a.ptMmap elf) a.tailStop
  have herror : l.error = false ↔ a.ptContinue = true ∧ a.mmap = true := by
    rw [hstart]
    simp
  rw [herror] at hgood₁
  refine ⟨prepare, remote, l₃.error, hP, hR, fun hremote => ?_, ?_, ?_⟩
  · -- Pages are filled only if there was no error up to the stop.
    have hl₂ : l₂.error = false := by
      by_contra hne
      exact hremote (herr (by simpa using hne))
    obtain ⟨hl₁, hstop⟩ := herror₂.1 hl₂
    have hcontinue := (hgood₁.1 hl₁).1.1
    exact ⟨hcontinue, hstop hcontinue⟩
  · rw [hgood₃, herror₂, hgood₁]
    constructor
    · rintro ⟨⟨⟨⟨hcontinue, hmmap⟩, hload, hreloc⟩, hstop⟩, ⟨hcopy, hprotect⟩, hsync⟩
      exact ⟨hcontinue, hmmap, hload, hreloc, hstop hcontinue, hcopy, hprotect, hsync⟩
    · rintro ⟨hcontinue, hmmap, hload, hreloc, hstop, hcopy, hprotect, hsync⟩
      exact ⟨⟨⟨⟨hcontinue, hmmap⟩, hload, hreloc⟩, fun _ => hstop⟩,
        ⟨hcopy, hprotect⟩, hsync⟩
  · have htrace₃ : l₃.trace = [.ptMmap size a.ptMmap, .ptContinue a.ptContinue, .mmap size a.mmap] ++
      prepare ++
        (if a.ptContinue then stopCalls a.stop else []) ++ remote := by
      rw [hl₃, hstop, hcontinued, hl₁, hstart]
    have hcontinued₃ : l₃.continued = a.ptContinue := by rw [hl₃, hstop, hcontinued]
    have hstopped₃ : l₃.stopped = (a.ptContinue && (a.stop.kill && a.stop.waitpid)) := by
      rw [hl₃, hstop, hcontinued]
    have hrunning : (l₃.continued && !l₃.stopped) = (a.ptContinue && !(a.stop.kill && a.stop.waitpid)) := by
      rw [hcontinued₃, hstopped₃]
      cases a.ptContinue <;> simp
    rw [hrunning, htrace₃] at htrace
    refine Prod.ext (htrace.trans ?_) hentry
    simp only [callsBefore, callsAfter, List.append_assoc]

/-! ## Cleaning up -/

/-- The target was continued, and stopped again since. -/
def Restopped (calls : List LoadCall) : Prop :=
  ∃ pre post, calls = pre ++ [.kill true, .waitpid true] ++ post ∧ .ptContinue true ∈ pre ∧
    ∀ ok, .ptContinue ok ∉ post

/-- What a load does to the target and the mappings, whatever fails. -/
structure CleansUp (ld : Elfldr) (elf : Memory) (a : LoadAnswers) : Prop where
  /-- The pages are filled only while the target is stopped. -/
  remote : ∀ pre call post, (commonfpsStableElfldrLoad ld elf a).1 = pre ++ call :: post → call.IsRemote →
    Restopped pre
  /-- There is an entry only if every step succeeded. -/
  entry : (commonfpsStableElfldrLoad ld elf a).2 ≠ 0 → ElfAccepted elf ∧ a.ptMmap ≠ -1 ∧
    EveryStep elf a
  /-- Without an entry, the pages that were mapped are unmapped. -/
  unmapped : (commonfpsStableElfldrLoad ld elf a).2 = 0 → ElfAccepted elf → a.ptMmap ≠ -1 →
    .ptMunmap a.ptMmap (baseSize ld.toPageRounding elf) ∈ (commonfpsStableElfldrLoad ld elf a).1
  /-- Without an entry, a target that was continued has been told to stop. -/
  stopped : (commonfpsStableElfldrLoad ld elf a).2 = 0 →
    .ptContinue true ∈ (commonfpsStableElfldrLoad ld elf a).1 →
      ∃ pre post ok, (commonfpsStableElfldrLoad ld elf a).1 = pre ++ .kill ok :: post ∧
        .ptContinue true ∈ pre
  /-- A mirror is unmapped once. -/
  mirror (size : UInt64) : .mmap size true ∈ (commonfpsStableElfldrLoad ld elf a).1 →
    (commonfpsStableElfldrLoad ld elf a).1.count (.munmap size) = 1

/-- Where no call before satisfies `P`, one that does comes after all of them. -/
theorem split_after {P : LoadCall → Prop} {l r pre post : List LoadCall} {call : LoadCall}
    (hl : ∀ e ∈ l, ¬P e)
    (h : l ++ r = pre ++ call :: post) (hcall : P call) : ∃ mid, pre = l ++ mid ∧
      r = mid ++ call :: post := by
  rcases List.append_eq_append_iff.1 h with ⟨mid, hpre, hr⟩ | ⟨mid, hl', hcons⟩
  · exact ⟨mid, hpre, hr⟩
  · cases mid with
    | nil => exact ⟨[], by simpa using hl'.symm, hcons.symm⟩
    | cons e mid =>
      obtain ⟨rfl, _⟩ := List.cons.inj hcons
      exact absurd hcall (hl call (by rw [hl']; simp))

theorem not_isRemote_of_isPrepare {call : LoadCall} (h : call.IsPrepare) : ¬call.IsRemote := by
  cases call with
  | ptLoad | applyRelocations => exact not_false
  | _ => exact h.elim

theorem mem_stopCalls {a : StopAnswer} {call : LoadCall} (h : call ∈ Loader.stopCalls a) :
    (∃ ok, call = .kill ok) ∨ ∃ ok, call = .waitpid ok := by
  rw [Loader.stopCalls] at h
  split_ifs at h
  · simp only [List.mem_cons, List.not_mem_nil, or_false] at h
    exact h.imp (fun h => ⟨_, h⟩) fun h => ⟨_, h⟩
  · exact .inl ⟨_, List.mem_singleton.1 h⟩

section Mapped

variable {ld : Elfldr} {elf : Memory} {a : LoadAnswers} {size : UInt64} {prepare : List LoadCall} {error : Bool}
  {call : LoadCall}

theorem mem_callsBefore (hprepare : ∀ e ∈ prepare, e.IsPrepare) (h : call ∈ callsBefore a size prepare) :
    call = .ptMmap size a.ptMmap ∨ call = .ptContinue a.ptContinue ∨ call = .mmap size a.mmap ∨
      call.IsPrepare ∨
      (∃ ok, call = .kill ok) ∨ ∃ ok, call = .waitpid ok := by
  rw [callsBefore, List.mem_append, List.mem_append] at h
  rcases h with (h | h) | h
  · simp only [List.mem_cons, List.not_mem_nil, or_false] at h
    rcases h with h | h | h
    · exact .inl h
    · exact .inr (.inl h)
    · exact .inr (.inr (.inl h))
  · exact .inr (.inr (.inr (.inl (hprepare call h))))
  · split_ifs at h
    · exact .inr (.inr (.inr (.inr (mem_stopCalls h))))
    · exact absurd h List.not_mem_nil

theorem mem_callsAfter (h : call ∈ callsAfter a size error) :
    call = .munmap size ∨ call = .ptMunmap a.ptMmap size ∨ (∃ ok, call = .kill ok) ∨ ∃ ok,
      call = .waitpid ok := by
  rw [callsAfter, List.mem_append] at h
  rcases h with h | h
  · split_ifs at h
    · exact .inl (List.mem_singleton.1 h)
    · exact absurd h List.not_mem_nil
  · split_ifs at h
    · rcases List.mem_append.1 h with h | h
      · exact .inr (.inr (mem_stopCalls h))
      · exact .inr (.inl (List.mem_singleton.1 h))
    · exact .inr (.inl (List.mem_singleton.1 h))
    · exact absurd h List.not_mem_nil

theorem not_isRemote_of_mem_callsBefore (hprepare : ∀ e ∈ prepare, e.IsPrepare)
    (h : call ∈ callsBefore a size prepare) : ¬call.IsRemote := by
  rcases mem_callsBefore hprepare h with rfl | rfl | rfl | hcall | ⟨ok, rfl⟩ | ⟨ok, rfl⟩
  case inr.inr.inr.inl => exact not_isRemote_of_isPrepare hcall
  all_goals exact not_false

theorem not_isRemote_of_mem_callsAfter (h : call ∈ callsAfter a size error) : ¬call.IsRemote := by
  rcases mem_callsAfter h with rfl | rfl | ⟨ok, rfl⟩ | ⟨ok, rfl⟩ <;> exact not_false

/-- The target is continued once, before it is stopped. -/
theorem not_ptContinue_of_mem {remote : List LoadCall} {ok : Bool} (hremote : ∀ e ∈ remote, e.IsRemote) :
    .ptContinue ok ∉ remote ++ callsAfter a size error := fun h => by
  rcases List.mem_append.1 h with h | h
  · exact hremote _ h
  · rcases mem_callsAfter h with h | h | ⟨ok, h⟩ | ⟨ok, h⟩ <;> cases h

/-- A mirror is unmapped once, and no other one is. -/
theorem count_munmap {remote : List LoadCall} (hprepare : ∀ e ∈ prepare, e.IsPrepare)
    (hremote : ∀ e ∈ remote, e.IsRemote) (hmmap : a.mmap = true) :
    (callsBefore a size prepare ++ (remote ++ callsAfter a size error)).count (.munmap size) = 1 := by
  have hbefore : .munmap size ∉ callsBefore a size prepare := fun h => by
    rcases mem_callsBefore hprepare h with h | h | h | h | ⟨ok, h⟩ | ⟨ok, h⟩ <;> cases h
  have htail : .munmap size ∉ (if error then
      (if a.ptContinue && !(a.stop.kill && a.stop.waitpid) then Loader.stopCalls a.tailStop else []) ++
        [LoadCall.ptMunmap a.ptMmap size] else []) := fun h => by
    split_ifs at h
    · rcases List.mem_append.1 h with h | h
      · rcases mem_stopCalls h with ⟨ok, h⟩ | ⟨ok, h⟩ <;> cases h
      · cases List.mem_singleton.1 h
    · cases List.mem_singleton.1 h
    · exact List.not_mem_nil h
  have hfill : .munmap size ∉ remote := fun h => hremote _ h
  rw [List.count_append, List.count_append, List.count_eq_zero.2 hbefore, List.count_eq_zero.2 hfill,
    callsAfter, List.count_append, List.count_eq_zero.2 htail, if_pos hmmap]
  simp

/-- A load that mapped its pages fills them only after stopping the target, tells
    a target that was continued to stop, and unmaps its mirror once. -/
theorem load_mapped (ld : Elfldr) (a : LoadAnswers) (h : ElfAccepted elf) (hbase : a.ptMmap ≠ -1) :
    let r := commonfpsStableElfldrLoad ld elf a
    (∀ pre call post, r.1 = pre ++ call :: post → call.IsRemote → Restopped pre) ∧
      (.ptContinue true ∈ r.1 → ∃ pre post ok, r.1 = pre ++ .kill ok :: post ∧
        .ptContinue true ∈ pre) ∧
      (∀ size, .mmap size true ∈ r.1 → r.1.count (.munmap size) = 1) ∧
      ((EveryStep elf a ∧ r.2 = entryAddress a.ptMmap elf ∧ ∀ base size, .ptMunmap base size ∉ r.1) ∨
        (¬EveryStep elf a ∧ r.2 = 0 ∧ .ptMunmap a.ptMmap (baseSize ld.toPageRounding elf) ∈ r.1)) := by
  obtain ⟨prepare, remote, error, hprepare, hremote, hstop, herror, heq⟩ := load_eq ld h hbase
  dsimp only at heq
  rw [heq]
  generalize baseSize ld.toPageRounding elf = size
  refine ⟨fun pre call post hsplit hcall => ?_, fun hcontinue => ?_, fun size' hmirror => ?_, ?_⟩
  · -- A call that fills the pages comes after the stop, with which the calls before it end.
    obtain ⟨mid, rfl, hmid⟩ := split_after (fun _ => not_isRemote_of_mem_callsBefore hprepare) hsplit hcall
    have hmem : call ∈ remote ++ callsAfter a size error := hmid ▸ by simp
    have hfill : call ∈ remote :=
      (List.mem_append.1 hmem).resolve_right fun h => not_isRemote_of_mem_callsAfter h hcall
    obtain ⟨hcontinue, hkill, hwaitpid⟩ := hstop (List.ne_nil_of_mem hfill)
    -- The stop starts with a signal, whatever it returns.
    refine ⟨[.ptMmap size a.ptMmap, .ptContinue a.ptContinue, .mmap size a.mmap] ++ prepare,
      mid, ?_, ?_, ?_⟩
    · rw [callsBefore, if_pos hcontinue, Loader.stopCalls, if_pos hkill, hwaitpid]
    · simp [hcontinue]
    · intro ok hok
      have hrest : .ptContinue ok ∈ remote ++ callsAfter a size error := hmid ▸ List.mem_append_left _ hok
      exact not_ptContinue_of_mem hremote hrest
  · have hbefore : .ptContinue true ∈ callsBefore a size prepare :=
      (List.mem_append.1 hcontinue).resolve_right (not_ptContinue_of_mem hremote)
    have hcontinued : a.ptContinue = true := by
      rcases mem_callsBefore hprepare hbefore with h | h | h | h | ⟨ok, h⟩ | ⟨ok, h⟩
      case inr.inl => exact (LoadCall.ptContinue.inj h).symm
      all_goals cases h
    refine ⟨[.ptMmap size a.ptMmap, .ptContinue a.ptContinue, .mmap size a.mmap] ++ prepare,
      (Loader.stopCalls a.stop).tail ++ (remote ++ callsAfter a size error), a.stop.kill,
        ?_, by simp [hcontinued]⟩
    rw [callsBefore, if_pos hcontinued, Loader.stopCalls]
    cases a.stop.kill <;> simp
  · have hbefore : .mmap size' true ∈ callsBefore a size prepare := by
      refine (List.mem_append.1 hmirror).resolve_right fun h => ?_
      rcases List.mem_append.1 h with h | h
      · exact hremote _ h
      · rcases mem_callsAfter h with h | h | ⟨ok, h⟩ | ⟨ok, h⟩ <;> cases h
    rcases mem_callsBefore hprepare hbefore with h | h | h | h | ⟨ok, h⟩ | ⟨ok, h⟩
    case inr.inr.inl =>
      obtain ⟨rfl, hmmap⟩ := LoadCall.mmap.inj h
      exact count_munmap hprepare hremote hmmap.symm
    all_goals cases h
  · cases error with
    | false =>
      refine .inl ⟨herror.1 rfl, rfl, fun base size' h => ?_⟩
      rcases List.mem_append.1 h with h | h
      · rcases mem_callsBefore hprepare h with h | h | h | h | ⟨ok, h⟩ | ⟨ok, h⟩ <;> cases h
      · rcases List.mem_append.1 h with h | h
        · exact hremote _ h
        · rw [callsAfter] at h
          cases hmmap : a.mmap <;> simp [hmmap] at h
    | true => exact .inr ⟨fun h => absurd (herror.2 h) (by decide), rfl, by simp [callsAfter]⟩

end Mapped

/-- A load that maps nothing calls nothing else. -/
theorem cleansUp_of_unmapped {ld : Elfldr} {elf : Memory} {a : LoadAnswers} {calls : List LoadCall}
    (heq : commonfpsStableElfldrLoad ld elf a = (calls, 0))
    (hcalls : ∀ call ∈ calls, ∃ size result, call = .ptMmap size result)
    (hbase : ElfAccepted elf → a.ptMmap = -1) : CleansUp ld elf a := by
  constructor <;> rw [heq]
  · intro pre call post hsplit hcall
    obtain ⟨size, result, rfl⟩ := hcalls call (by rw [show calls = _ from hsplit]; simp)
    exact hcall.elim
  · exact fun h => absurd rfl h
  · exact fun _ haccepted hne => absurd (hbase haccepted) hne
  · intro _ hmem
    obtain ⟨size, result, h⟩ := hcalls _ hmem
    cases h
  · intro size hmem
    obtain ⟨size, result, h⟩ := hcalls _ hmem
    cases h

/-- A load cleans up, unless every step succeeds and the entry is the address `0`. -/
theorem load_cleanup (ld : Elfldr) (elf : Memory) (a : LoadAnswers) : CleansUp ld elf a ↔
    ¬(ElfAccepted elf ∧ a.ptMmap ≠ -1 ∧ EveryStep elf a ∧ entryAddress a.ptMmap elf = 0) := by
  constructor
  · rintro h ⟨haccepted, hbase, hstep, hentry⟩
    obtain ⟨-, -, -, ⟨-, heq, hnot⟩ | ⟨hfail, -⟩⟩ := load_mapped ld a haccepted hbase
    · exact hnot _ _ (h.unmapped (heq.trans hentry) haccepted hbase)
    · exact hfail hstep
  · intro h
    by_cases haccepted : ElfAccepted elf
    · by_cases hbase : a.ptMmap = -1
      · have heq : commonfpsStableElfldrLoad ld elf a =
            ([.ptMmap (baseSize ld.toPageRounding elf) a.ptMmap], 0) := by
          rw [commonfpsStableElfldrLoad, if_neg (not_not.2 haccepted)]
          exact if_pos hbase
        exact cleansUp_of_unmapped heq (by simp) fun _ => hbase
      · obtain ⟨hremote, hstopped, hmirror, hend⟩ := load_mapped ld a haccepted hbase
        refine ⟨hremote, fun hne => ?_, fun hzero _ _ => ?_, fun _ => hstopped, hmirror⟩
        · rcases hend with ⟨hstep, -⟩ | ⟨-, hzero, -⟩
          · exact ⟨haccepted, hbase, hstep⟩
          · exact absurd hzero hne
        · rcases hend with ⟨hstep, heq, -⟩ | ⟨-, -, hunmapped⟩
          · exact absurd ⟨haccepted, hbase, hstep, heq.symm.trans hzero⟩ h
          · exact hunmapped
    · exact cleansUp_of_unmapped (if_pos haccepted) (by simp) fun h => absurd h haccepted

/-- An entry at the address `0` of the target is taken for a failure by the
    caller, and its pages stay mapped. -/
theorem load_not_cleaned_up :
    let a : LoadAnswers := ⟨0x200000000, true, true, fun _ => true, ⟨fun _ => none, fun _ _ => 0⟩,
      ⟨true, true⟩, true,
      fun _ => true, true, ⟨true, true⟩⟩
    let elf := sharedObject 0xfffffffe00000000 []
    ¬CleansUp ⟨pages16K, fun _ => 0⟩ elf a := by
  intro a elf h
  have haccepted : ElfAccepted elf := by decide +kernel
  have hrelocations : (commonfpsApplyRelocations elf a.ptMmap a.resolve).2 = true := by decide +kernel
  have hstep : EveryStep elf a := ⟨rfl, rfl, fun _ _ _ => rfl, hrelocations, ⟨rfl, rfl⟩, rfl,
    fun _ _ _ _ => rfl, rfl⟩
  have hentry : entryAddress a.ptMmap elf = 0 := by decide +kernel
  obtain ⟨-, -, -, ⟨-, heq, hnot⟩ | ⟨hfail, -⟩⟩ :=
    load_mapped ⟨pages16K, fun _ => 0⟩ a haccepted (by decide)
  · exact hnot _ _ (h.unmapped (heq.trans hentry) haccepted (by decide))
  · exact hfail hstep

end CommonFps
