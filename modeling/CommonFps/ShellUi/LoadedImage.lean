import CommonFps.ShellUi.ElfAddresses
import CommonFps.ShellUi.GuardWrite
import CommonFps.ShellUi.Injection
import CommonFps.Lib.Patches

/-!
# The image in ShellUI

What a load does to ShellUI, as the calls that it makes take effect one after the
other: the memory of ShellUI and the protection of its pages, and the mirror in
which the image is prepared.

* `IsImage`: a memory that holds an image, as its file describes it: the segments
  at their addresses, the relocations applied, and nothing else;
* `LoadCall.effect`: what a call changes;
* `load_calls`: the calls of a load in which every step succeeds;
* `loaded_image`: a load with an entry leaves the image in ShellUI; one without an
  entry leaves ShellUI as it was.
-/

namespace CommonFps

/-! ## What an image is -/

/-- The bytes that a segment and a relocation take. -/
def Phdr.Covers (segment : Phdr) (o : UInt64) : Prop := o - segment.vaddr < segment.memsz

/-- A byte is one of those that the relocation stores. -/
def Rela.Covers (rela : Rela) (o : UInt64) : Prop := (o - rela.offset).toNat < 8

/-- The relocations that refer to something, in order. -/
def relocations (elf : Memory) (a : ResolveAnswers) : List (Rela × RelocTarget) :=
  ((shdrs elf).filter fun s => s.type = SHT_RELA ∧ s.entsize ≠ 0).flatMap fun s =>
    (relas elf s).filterMap fun rela =>
      (relocationTarget elf (symbolTable (shdrs elf) s) rela a).join.map fun target => (rela, target)

/-- A memory holds an image at the address `base`. Of what overlaps, the last one
    is found; what follows the file part of a segment is left open. -/
structure IsImage (elf : Memory) (relocations : List (Rela × RelocTarget)) (base : UInt64) (image : Memory) :
    Prop where
  file : ∀ earlier segment later, loads elf = earlier ++ segment :: later → ∀ o, segment.Covers o →
    o - segment.vaddr < segment.filesz → (∀ s ∈ later, ¬s.Covers o) →
      (∀ r ∈ relocations, ¬r.1.Covers o) →
      image o = elf (segment.offset + (o - segment.vaddr))
  relocation : ∀ earlier rela target later, relocations = earlier ++ (rela, target) :: later →
    (∀ r ∈ later, ∀ o, rela.Covers o → ¬r.1.Covers o) →
      readU64 image rela.offset = target.resolved base + rela.addend
  zero : ∀ o, (∀ s ∈ loads elf, ¬s.Covers o) → (∀ r ∈ relocations, ¬r.1.Covers o) → image o = 0

/-! ## What the calls change -/

/-- What is written for a segment (`pt_load`): its file part at its address, and
    nothing outside of the segment. -/
structure PtLoad (elf : Memory) where
  part : Phdr → UInt64 → Option UInt8
  part_file (segment : Phdr) (o : UInt64) : segment.Covers o → o - segment.vaddr < segment.filesz →
    part segment o = some (elf (segment.offset + (o - segment.vaddr)))
  part_outside (segment : Phdr) (o : UInt64) : ¬segment.Covers o → part segment o = none

/-- What the calls do besides. -/
structure LoadEffects (elf : Memory) extends PtLoad elf where
  /-- The bytes that are left by a copy that failed. -/
  torn : Memory
  /-- The pages can be unmapped; the loader does not look at it. -/
  unmaps : Bool
  /-- The addresses that are protected together with those of a range: its pages. -/
  pages (address size x : UInt64) : Bool
  pages_of_lt (address size x : UInt64) : x - address < size → pages address size x = true

/-- ShellUI, in which an address may not be mapped, and the mirror, by the offset
    from its start. What ShellUI does by itself, while it runs on, is left out. -/
structure LoadWorld where
  memory : UInt64 → Option UInt8
  prot : UInt64 → ℕ
  mirror : Memory

/-- The bytes of a store. -/
def RelocStore.patch (store : RelocStore) : UInt64 → Option UInt8 :=
  bytesAt store.location (numberBytes 8 store.value.toNat)

section Effects

variable {elf : Memory} (e : LoadEffects elf) (stores : List RelocStore)

/-- What a call changes, with the stores that the relocations make. -/
def LoadCall.effect (w : LoadWorld) : LoadCall → LoadWorld
  | ptMmap size result =>
    if result = -1 then w
    else
      { w with
        memory := patched [rangeAt result size fun _ => some 0] w.memory
        prot := patched [rangeAt result size fun _ => PROT_READ ||| PROT_WRITE] w.prot }
  | mmap _ ok => if ok then { w with mirror := fun _ => 0 } else w
  | ptLoad segment ok =>
    if ok then { w with mirror := patched ((phdrs elf)[segment]?.toList.map e.part) w.mirror } else w
  | applyRelocations _ => { w with mirror := patched (stores.map RelocStore.patch) w.mirror }
  | ptCopyin address size ok =>
    { w with
      memory := patched [rangeAt address size fun o => some (if ok then w.mirror o else e.torn o)] w.memory }
  | mprotect _ address size prot ok =>
    if ok then
      { w with prot := patched [fun x => if e.pages address size x then some prot else none] w.prot }
    else w
  | ptMunmap address size =>
    if e.unmaps then { w with memory := patched [rangeAt address size fun _ => none] w.memory } else w
  | ptContinue _ | kill _ | waitpid _ | ptMsync _ _ _ | munmap _ => w

/-- What is left by the calls, one after the other. -/
def loadEffects (calls : List LoadCall) (w : LoadWorld) : LoadWorld := calls.foldl (LoadCall.effect e stores) w

end Effects

/-! ## An image from its parts -/

/-- The parts of an image. -/
def imageParts {elf : Memory} (e : PtLoad elf) (relocations : List (Rela × RelocTarget)) (base : UInt64) :
    List (UInt64 → Option UInt8) :=
  (loads elf).map e.part ++ (relocations.map fun r => RelocStore.of base r.1 r.2).map RelocStore.patch

theorem patch_eq_none {base o : UInt64} {r : Rela × RelocTarget} (h : ¬r.1.Covers o) :
    (RelocStore.of base r.1 r.2).patch o = none :=
  bytesAt_eq_none (by rw [length_numberBytes]; exact h)

/-- The parts of an image, laid over an empty mirror one after the other, are the image. -/
theorem isImage_patched {elf : Memory} (e : PtLoad elf) (relocations : List (Rela × RelocTarget))
    (base : UInt64) : IsImage elf relocations base (patched (imageParts e relocations base) fun _ => 0) := by
  have hstores {o : UInt64} {l : List (Rela × RelocTarget)} (h : ∀ r ∈ l, ¬r.1.Covers o) :
      ∀ q ∈ (l.map fun r => RelocStore.of base r.1 r.2).map RelocStore.patch, q o = none := by
    intro q hq
    rw [List.map_map] at hq
    obtain ⟨r, hr, rfl⟩ := List.mem_map.1 hq
    exact patch_eq_none (h r hr)
  have hparts {o : UInt64} {l : List Phdr} (h : ∀ s ∈ l, ¬s.Covers o) : ∀ q ∈ l.map e.part,
      q o = none := by
    intro q hq
    obtain ⟨s, hs, rfl⟩ := List.mem_map.1 hq
    exact e.part_outside s o (h s hs)
  constructor
  · intro earlier segment later hloads o hcovers hfile hlater hrelocations
    rw [imageParts, hloads, List.map_append, List.map_cons, List.append_assoc, List.cons_append]
    refine patched_of_last (e.part_file segment o hcovers hfile) fun q hq => ?_
    rcases List.mem_append.1 hq with hq | hq
    · exact hparts hlater q hq
    · exact hstores hrelocations q hq
  · intro earlier rela target later hsplit hlater
    rw [imageParts, hsplit, List.map_append, List.map_cons, List.map_append, List.map_cons,
      ← List.append_assoc]
    exact readU64_patched fun q hq x hx => hstores (fun r hr => hlater r hr x hx) q hq
  · intro o hloads hrelocations
    refine patched_of_forall_none fun q hq => ?_
    rcases List.mem_append.1 hq with hq | hq
    · exact hparts hloads q hq
    · exact hstores hrelocations q hq

/-! ## The relocations that are applied -/

theorem applyRelas_eq {elf : Memory} {base : UInt64} {table : Option SymbolTable} {a : ResolveAnswers}
    {l : List Rela} (h : (applyRelas elf base table a l).2 = true) :
    (applyRelas elf base table a l).1 =
      (l.filterMap fun rela => (relocationTarget elf table rela a).join.map fun target => (rela, target)).map
        fun r => .of base r.1 r.2 := by
  induction l with
  | nil => rfl
  | cons rela rest ih =>
    rw [applyRelas] at h ⊢
    rcases htarget : relocationTarget elf table rela a with _ | _ | target
    · rw [htarget] at h
      exact absurd h Bool.false_ne_true
    · rw [htarget] at h
      rw [List.filterMap_cons_none (by rw [htarget]; rfl)]
      exact ih h
    · rw [htarget] at h
      rw [List.filterMap_cons_some (by rw [htarget]; rfl), List.map_cons]
      exact congrArg _ (ih h)

/-- If all of them are applied, the stores are those of all relocations. -/
theorem applyRelocations_eq {elf : Memory} {base : UInt64} {a : ResolveAnswers}
    (h : (commonfpsApplyRelocations elf base a).2 = true) :
    (commonfpsApplyRelocations elf base a).1 = (relocations elf a).map fun r => .of base r.1 r.2 := by
  rw [commonfpsApplyRelocations] at h ⊢
  rw [relocations]
  generalize shdrs elf = sections at h ⊢
  suffices ∀ l, (applySections elf base sections a l).2 = true → (applySections elf base sections a l).1 =
      ((l.filter fun s => s.type = SHT_RELA ∧ s.entsize ≠ 0).flatMap fun s =>
        (relas elf s).filterMap fun rela =>
          (relocationTarget elf (symbolTable sections s) rela a).join.map fun target => (rela, target)).map
            fun r => .of base r.1 r.2 from this _ h
  clear h
  intro l
  induction l with
  | nil => exact fun _ => rfl
  | cons s rest ih =>
    intro h
    rw [applySections] at h ⊢
    by_cases hskip : s.type ≠ SHT_RELA ∨ s.entsize = 0
    · rw [if_pos hskip] at h ⊢
      rw [List.filter_cons_of_neg (by simpa [imp_iff_not_or] using hskip)]
      exact ih h
    · rw [if_neg hskip] at h ⊢
      rw [List.filter_cons_of_pos (by simpa using hskip), List.flatMap_cons, List.map_append]
      rcases hrelas : applyRelas elf base (symbolTable sections s) a (relas elf s) with ⟨stores, _ | _⟩
      · rw [hrelas] at h
        exact absurd h Bool.false_ne_true
      · rw [hrelas] at h
        have hstores := applyRelas_eq (congrArg Prod.snd hrelas)
        rw [hrelas] at hstores
        dsimp only at hstores
        rw [← hstores, ← ih h]

/-! ## The calls of a load -/

/-- The segments that a loop goes through, with their indices. -/
def loadedSegments (elf : Memory) : List (Phdr × ℕ) :=
  (phdrs elf).zipIdx.filter fun p => !decide (p.1.type ≠ PT_LOAD)

/-- The segments that get a protection, with their index. -/
def protectedSegments (elf : Memory) : List (Phdr × ℕ) :=
  (phdrs elf).zipIdx.filter fun p => !decide (p.1.type ≠ PT_LOAD ∨ p.1.memsz = 0)

/-- The protection of a segment, without a failure. -/
def protectCall (ld : Elfldr) (base : UInt64) (segment : Phdr) : LoadCall :=
  .mprotect (segment.flags &&& PF_X ≠ 0) (segmentAddress base segment) (ld.roundPg segment.memsz)
    (ld.pflags segment.flags) true

theorem map_fst_filter_zipIdx {α : Type*} (p : α → Bool) (l : List α) :
    (l.zipIdx.filter fun q => p q.1).map Prod.fst = l.filter p := by
  have h := List.filter_map (f := Prod.fst) (p := p) (l := l.zipIdx)
  rw [List.zipIdx_map_fst] at h
  exact h.symm

theorem map_fst_loadedSegments (elf : Memory) : (loadedSegments elf).map Prod.fst = loads elf := by
  refine (map_fst_filter_zipIdx (fun segment : Phdr => !decide (segment.type ≠ PT_LOAD)) (phdrs elf)).trans ?_
  exact List.filter_congr fun segment _ => by simp

theorem map_fst_protectedSegments (elf : Memory) :
    (protectedSegments elf).map Prod.fst = (loads elf).filter (·.memsz ≠ 0) := by
  refine (map_fst_filter_zipIdx (fun segment : Phdr => !decide (segment.type ≠ PT_LOAD ∨ segment.memsz = 0))
    (phdrs elf)).trans ?_
  rw [loads, List.filter_filter]
  exact List.filter_congr fun segment _ => by simp [Bool.and_comm]

namespace Loader

variable {l : Loader}

theorem attempt_of_ok (call : Bool → LoadCall) (hl : l.error = false) :
    l.attempt call true = l.log (call true) := by
  obtain ⟨continued, stopped, error, trace⟩ := l
  obtain rfl : error = false := hl
  rfl

/-- A loop in which every call succeeds. -/
theorem forSegments_of_ok {skip : Phdr → Bool} {call : Phdr → ℕ → Bool → LoadCall} {ok : ℕ → Bool}
    {segments : List (Phdr × ℕ)} (hl : l.error = false)
    (hok : ∀ p ∈ segments, skip p.1 = false → ok p.2 = true) :
    forSegments skip call ok segments l =
      { l with trace := l.trace ++ (segments.filter fun p => !skip p.1).map fun p => call p.1 p.2 true } := by
  induction segments generalizing l with
  | nil => simp [forSegments]
  | cons p rest ih =>
    obtain ⟨segment, i⟩ := p
    have hrest : ∀ p ∈ rest, skip p.1 = false → ok p.2 = true :=
      fun p hp => hok p (List.mem_cons_of_mem _ hp)
    rw [forSegments, if_neg (by rw [hl]; decide)]
    split_ifs with hskip
    · rw [ih hl hrest, List.filter_cons_of_neg (by simpa using hskip)]
    · rw [hok _ List.mem_cons_self (by simpa using hskip), attempt_of_ok _ hl,
        ih (by exact hl) hrest,
        List.filter_cons_of_pos (by simpa using hskip)]
      simp [log]

/-- The mirror is filled with all segments, and all relocations. -/
theorem prepare_of_everyStep {elf : Memory} {a : LoadAnswers} (h : EveryStep elf a) (hl : l.error = false) :
    l.prepare elf a =
      { l with
        trace := l.trace ++ (loadedSegments elf).map (fun p => .ptLoad p.2 true) ++
          [.applyRelocations true] } := by
  have hok : ∀ p ∈ (phdrs elf).zipIdx, decide (p.1.type ≠ PT_LOAD) = false → a.ptLoad p.2 = true :=
    fun p hp hload => h.ptLoad p hp (by simpa using hload)
  rw [prepare, loadSegments, forSegments_of_ok hl hok, h.relocations, attempt_of_ok _ (by exact hl)]
  rfl

/-- The pages are filled, and all segments protected. -/
theorem finish_of_everyStep (ld : Elfldr) {elf : Memory} {a : LoadAnswers} (size : UInt64) (h : EveryStep elf a)
    (hl : l.error = false) : l.finish ld elf size a =
      { l with
        trace := l.trace ++ [.ptCopyin a.ptMmap size true] ++
          (protectedSegments elf).map (fun p => protectCall ld a.ptMmap p.1) ++
          [.ptMsync a.ptMmap size true] } := by
  have hok : ∀ p ∈ (phdrs elf).zipIdx, decide (p.1.type ≠ PT_LOAD ∨ p.1.memsz = 0) = false →
      a.mprotect p.2 = true := fun p hp hload => by
    rw [decide_eq_false_iff_not, not_or, not_not] at hload
    exact h.mprotect p hp hload.1 hload.2
  rw [finish, h.ptCopyin, h.ptMsync, attempt_of_ok _ hl, protectSegments, forSegments_of_ok (by exact hl) hok,
    attempt_of_ok _ (by exact hl)]
  rfl

end Loader

open Loader in
/-- The calls of a load in which every step succeeds. -/
theorem load_calls (ld : Elfldr) {elf : Memory} {a : LoadAnswers} (h : ElfAccepted elf)
    (hbase : a.ptMmap ≠ -1)
    (hstep : EveryStep elf a) :
    let size := baseSize ld.toPageRounding elf
    (commonfpsStableElfldrLoad ld elf a).1 =
      [LoadCall.ptMmap size a.ptMmap, .ptContinue true, .mmap size true] ++
        (loadedSegments elf).map (fun p => LoadCall.ptLoad p.2 true) ++
        [.applyRelocations true, .kill true, .waitpid true, .ptCopyin a.ptMmap size true] ++
        (protectedSegments elf).map (fun p => protectCall ld a.ptMmap p.1) ++
        [.ptMsync a.ptMmap size true, .munmap size] := by
  rw [commonfpsStableElfldrLoad, if_neg (not_not.2 h)]
  dsimp only
  rw [if_neg hbase, mapMirror_eq, hstep.ptContinue, hstep.mmap]
  generalize baseSize ld.toPageRounding elf = size
  rw [prepare_of_everyStep hstep (by rfl), stop_eq _ (by rfl), stopCalls, hstep.stop.1, hstep.stop.2,
    finish_of_everyStep ld size hstep (by rfl), (tail_eq _ _ _ _ _ _).1]
  simp

/-! ## What a load leaves -/

section Left

variable {elf : Memory} (e : LoadEffects elf) (stores : List RelocStore) (w : LoadWorld)

theorem loadEffects_append (l l' : List LoadCall) :
    loadEffects e stores (l ++ l') w = loadEffects e stores l' (loadEffects e stores l w) := List.foldl_append

theorem loadEffects_ptLoad {l : List (Phdr × ℕ)} (h : ∀ p ∈ l, (phdrs elf)[p.2]? = some p.1) :
    loadEffects e stores (l.map fun p => .ptLoad p.2 true) w =
      { w with mirror := patched (l.map fun p => e.part p.1) w.mirror } := by
  induction l generalizing w with
  | nil => rfl
  | cons p l ih =>
    have hcall : LoadCall.effect e stores w (.ptLoad p.2 true) =
        { w with mirror := patched [e.part p.1] w.mirror } := by
      rw [LoadCall.effect, if_pos rfl, h p List.mem_cons_self]
      rfl
    rw [List.map_cons, loadEffects, List.foldl_cons, hcall]
    exact ih _ fun q hq => h q (List.mem_cons_of_mem _ hq)

/-- The protection of a segment. -/
def protectPatch (ld : Elfldr) (base : UInt64) (segment : Phdr) (x : UInt64) : Option ℕ :=
  if e.pages (segmentAddress base segment) (ld.roundPg segment.memsz) x then some (ld.pflags segment.flags)
  else none

theorem loadEffects_mprotect (ld : Elfldr) (base : UInt64) (l : List (Phdr × ℕ)) :
    loadEffects e stores (l.map fun p => protectCall ld base p.1) w =
      { w with prot := patched (l.map fun p => protectPatch e ld base p.1) w.prot } := by
  induction l generalizing w with
  | nil => rfl
  | cons p l ih => exact ih _

/-- The pages are mapped, and the mirror, all empty. -/
theorem loadEffects_mapped {base : UInt64} (size : UInt64) (hbase : base ≠ -1) :
    loadEffects e stores [.ptMmap size base, .ptContinue true, .mmap size true] w =
      { memory := patched [rangeAt base size fun _ => some 0] w.memory
        prot := patched [rangeAt base size fun _ => PROT_READ ||| PROT_WRITE] w.prot
        mirror := fun _ => 0 } := by
  rw [loadEffects, List.foldl_cons, LoadCall.effect, if_neg hbase]
  rfl

/-- The relocations are applied, and the mirror copied. -/
theorem loadEffects_copied (base size : UInt64) :
    loadEffects e stores [.applyRelocations true, .kill true, .waitpid true, .ptCopyin base size true] w =
      { w with
        memory := patched
          [rangeAt base size fun o => some (patched (stores.map RelocStore.patch) w.mirror o)] w.memory
        mirror := patched (stores.map RelocStore.patch) w.mirror } := rfl

/-- What is left if every step succeeds: the mirror, into which the image was put
    together, is copied to the pages. -/
theorem loadEffects_of_everyStep (ld : Elfldr) {a : LoadAnswers} (h : ElfAccepted elf) (hbase : a.ptMmap ≠ -1)
    (hstep : EveryStep elf a) :
    let base := a.ptMmap
    let size := baseSize ld.toPageRounding elf
    let mirror := patched (imageParts e.toPtLoad (relocations elf a.resolve) base) fun _ => 0
    loadEffects e (commonfpsApplyRelocations elf base a.resolve).1 (commonfpsStableElfldrLoad ld elf a).1 w =
      { memory := patched
          [rangeAt base size fun _ => some 0, rangeAt base size fun o => some (mirror o)] w.memory
        prot := patched ((rangeAt base size fun _ => PROT_READ ||| PROT_WRITE) ::
          ((loads elf).filter (·.memsz ≠ 0)).map (protectPatch e ld base)) w.prot
        mirror } := by
  intro base size mirror
  have hmem : ∀ p ∈ loadedSegments elf, (phdrs elf)[p.2]? = some p.1 := fun p hp =>
    List.mem_zipIdx_iff_getElem?.1 (List.mem_filter.1 hp).1
  have hparts : (loadedSegments elf).map (fun p => e.part p.1) = (loads elf).map e.part := by
    rw [← map_fst_loadedSegments, List.map_map]
    rfl
  have hprotects : (protectedSegments elf).map (fun p => protectPatch e ld base p.1) =
      ((loads elf).filter (·.memsz ≠ 0)).map (protectPatch e ld base) := by
    rw [← map_fst_protectedSegments, List.map_map]
    rfl
  have hmirror : mirror =
      patched (((relocations elf a.resolve).map fun r => .of base r.1 r.2).map RelocStore.patch)
        (patched ((loads elf).map e.part) fun _ => 0) := patched_append _ _ _
  rw [applyRelocations_eq hstep.relocations, load_calls ld h hbase hstep, loadEffects_append,
    loadEffects_append, loadEffects_append, loadEffects_append, loadEffects_mapped e _ w _ hbase,
    loadEffects_ptLoad e _ _ hmem, loadEffects_copied, loadEffects_mprotect, hparts, hprotects, hmirror]
  rfl

/-! ## What a load keeps -/

/-- A call maps, fills and unmaps the pages of the image only. -/
def LoadCall.Within (base size : UInt64) : LoadCall → Prop
  | ptMmap size' result => size' = size ∧ result = base
  | ptCopyin address size' _ | ptMunmap address size' => address = base ∧ size' = size
  | _ => True

theorem LoadCall.IsPrepare.within {c : LoadCall} (h : c.IsPrepare) (base size : UInt64) :
    c.Within base size := by
  cases c with
  | ptLoad | applyRelocations => exact trivial
  | _ => exact h.elim

theorem Loader.Runs.forall_mem {P Q : LoadCall → Prop} {good : Prop} {l l' : Loader}
    (h : Loader.Runs P good l l') (hPQ : ∀ c, P c → Q c) (hl : ∀ c ∈ l.trace, Q c) :
      ∀ c ∈ l'.trace, Q c := by
  obtain ⟨events, heq, hP, -⟩ := h
  rw [heq]
  intro c hc
  rcases List.mem_append.1 hc with hc | hc
  · exact hl c hc
  · exact hPQ c (hP c hc)

theorem LoadCall.Within.of_mem_stopCalls {base size : UInt64} {s : StopAnswer} {c : LoadCall}
    (h : c ∈ Loader.stopCalls s) : c.Within base size := by
  rcases mem_stopCalls h with ⟨ok, rfl⟩ | ⟨ok, rfl⟩ <;> exact trivial

/-- An image that is not accepted is not mapped, and one that is not mapped is not loaded. -/
theorem load_unmapped (ld : Elfldr) {a : LoadAnswers} (h : ¬(ElfAccepted elf ∧ a.ptMmap ≠ -1)) :
    (commonfpsStableElfldrLoad ld elf a).1 = [] ∨
      a.ptMmap = -1 ∧
        (commonfpsStableElfldrLoad ld elf a).1 = [.ptMmap (baseSize ld.toPageRounding elf) (-1)] := by
  rw [commonfpsStableElfldrLoad]
  by_cases haccepted : ElfAccepted elf
  · have hbase : a.ptMmap = -1 := not_not.1 fun hbase => h ⟨haccepted, hbase⟩
    refine .inr ⟨hbase, ?_⟩
    rw [if_neg (not_not.2 haccepted)]
    dsimp only
    rw [if_pos hbase, hbase]
    rfl
  · exact .inl (by rw [if_pos haccepted])

open Loader in
theorem load_within (ld : Elfldr) (a : LoadAnswers) :
    ∀ c ∈ (commonfpsStableElfldrLoad ld elf a).1, c.Within a.ptMmap (baseSize ld.toPageRounding elf) := by
  by_cases h : ElfAccepted elf ∧ a.ptMmap ≠ -1
  swap
  · intro c hc
    rcases load_unmapped ld h with hcalls | ⟨hbase, hcalls⟩ <;> rw [hcalls] at hc
    · exact absurd hc List.not_mem_nil
    · obtain rfl := List.mem_singleton.1 hc
      exact ⟨rfl, hbase.symm⟩
  rw [commonfpsStableElfldrLoad, if_neg (not_not.2 h.1)]
  dsimp only
  rw [if_neg h.2]
  generalize baseSize ld.toPageRounding elf = size
  have hstart := mapMirror_eq size a.ptMmap a.ptContinue a.mmap
  generalize ((({} : Loader).log (.ptMmap size a.ptMmap)).traceContinue a.ptContinue).mapMirror size a.mmap = l
    at hstart ⊢
  have hmapped : ∀ c ∈ l.trace, c.Within a.ptMmap size := by
    rw [hstart]
    simp [LoadCall.Within]
  have hprepare := runs_prepare elf a l
  have hprepared := hprepare.forall_mem (fun _ hc => hc.within a.ptMmap size) hmapped
  have hstopped : (l.prepare elf a).stopped = false := by
    obtain ⟨events, heq, -⟩ := hprepare
    rw [heq, hstart]
  generalize l.prepare elf a = l at hprepared hstopped ⊢
  have hstop : ∀ c ∈ (l.stop a.stop).trace, c.Within a.ptMmap size := by
    rw [stop_eq _ hstopped]
    intro c hc
    rcases List.mem_append.1 hc with hc | hc
    · exact hprepared c hc
    · split_ifs at hc
      · exact .of_mem_stopCalls hc
      · exact absurd hc List.not_mem_nil
  generalize l.stop a.stop = l at hstop ⊢
  -- The copy is the only call of these that is about addresses of the pages.
  have hfinish : ∀ c ∈ (l.finish ld elf size a).trace, c.Within a.ptMmap size :=
    (((runs_attempt ⟨rfl, rfl⟩).trans (runs_forSegments _ _ _ (fun _ _ _ => trivial) _ _)).trans
      (runs_attempt trivial)).forall_mem (fun _ => id) hstop
  generalize l.finish ld elf size a = l at hfinish ⊢
  rw [(tail_eq _ _ _ _ _ _).1]
  intro c hc
  simp only [List.mem_append] at hc
  rcases hc with (hc | hc) | hc
  · exact hfinish c hc
  · split_ifs at hc
    · obtain rfl := List.mem_singleton.1 hc
      exact trivial
    · exact absurd hc List.not_mem_nil
  · split_ifs at hc <;> simp only [List.mem_append, List.mem_singleton, List.not_mem_nil, false_or] at hc
    · rcases hc with hc | rfl
      · exact .of_mem_stopCalls hc
      · exact ⟨rfl, rfl⟩
    · obtain rfl := hc
      exact ⟨rfl, rfl⟩

/-- A call changes nothing outside of the pages of the image. -/
theorem effect_outside {base size x : UInt64} (hx : ¬x - base < size) {c : LoadCall} (h : c.Within base size) :
    (c.effect e stores w).memory x = w.memory x := by
  have hrange (f : UInt64 → Option UInt8) : patched [rangeAt base size f] w.memory x = w.memory x :=
    patched_of_forall_none (by simp [rangeAt_eq_none hx])
  cases c with
  | ptMmap size' result =>
    obtain ⟨rfl, rfl⟩ := h
    rw [LoadCall.effect]
    split_ifs
    · rfl
    · exact hrange _
  | ptCopyin address size' ok =>
    obtain ⟨rfl, rfl⟩ := h
    exact hrange _
  | ptMunmap address size' =>
    obtain ⟨rfl, rfl⟩ := h
    rw [LoadCall.effect]
    split_ifs
    · exact hrange _
    · rfl
  | ptLoad | mmap | mprotect =>
    rw [LoadCall.effect]
    split_ifs <;> rfl
  | _ => rfl

theorem loadEffects_outside {base size x : UInt64} (hx : ¬x - base < size) {calls : List LoadCall}
    (h : ∀ c ∈ calls, c.Within base size) : (loadEffects e stores calls w).memory x = w.memory x := by
  induction calls generalizing w with
  | nil => rfl
  | cons c calls ih =>
    rw [loadEffects, List.foldl_cons]
    exact (ih _ fun c' hc' => h c' (List.mem_cons_of_mem _ hc')).trans
      (effect_outside e stores w hx (h c List.mem_cons_self))

/-- A load without an entry maps nothing, or unmaps last what it mapped. -/
theorem load_failed (ld : Elfldr) {a : LoadAnswers} (h : (commonfpsStableElfldrLoad ld elf a).2 = 0)
    (hentry : entryAddress a.ptMmap elf ≠ 0) :
    let size := baseSize ld.toPageRounding elf
    (commonfpsStableElfldrLoad ld elf a).1 = [] ∨ (commonfpsStableElfldrLoad ld elf a).1 =
    [.ptMmap size (-1)] ∨
      ∃ calls, (commonfpsStableElfldrLoad ld elf a).1 = calls ++ [.ptMunmap a.ptMmap size] := by
  by_cases hmapped : ElfAccepted elf ∧ a.ptMmap ≠ -1
  swap
  · exact (load_unmapped ld hmapped).imp_right fun hcalls => .inl hcalls.2
  obtain ⟨prepare, remote, error, -, -, -, -, heq⟩ := load_eq ld hmapped.1 hmapped.2
  dsimp only at heq
  rw [heq] at h ⊢
  cases error with
  | false => exact absurd h hentry
  | true =>
    refine .inr (.inr ?_)
    rw [callsAfter, if_pos rfl, ← List.append_assoc, ← List.append_assoc, ← List.append_assoc]
    exact ⟨_, rfl⟩

end Left

/-! ## The image in the pages -/

/-- Rounding up to pages does not wrap for what is smaller than what it does not wrap for. -/
theorem PageRounding.le_roundPg (pg : PageRounding) {x y : UInt64} (hxy : x ≤ y) (hy : y ≤ pg.roundPg y) :
    x ≤ pg.roundPg x := by
  rw [UInt64.le_iff_toNat_le] at hxy hy ⊢
  rw [pg.roundPg_eq] at hy ⊢
  have hpos : 0 < 2 ^ pg.bits := Nat.two_pow_pos _
  have hpage : 2 ^ pg.bits ≤ 2 ^ 63 := Nat.pow_le_pow_right (by decide) (Nat.le_of_lt_succ pg.bits_lt)
  generalize 2 ^ pg.bits = page at hpos hpage hy ⊢
  have hmono : (x.toNat + (page - 1)) / page * page ≤ (y.toNat + (page - 1)) / page * page :=
    Nat.mul_le_mul_right _ (Nat.div_le_div_right (by omega))
  have hup := Nat.div_mul_le_self (y.toNat + (page - 1)) page
  have hlow : x.toNat ≤ (x.toNat + (page - 1)) / page * page := by
    have := Nat.div_add_mod (x.toNat + (page - 1)) page
    have := Nat.mod_lt (x.toNat + (page - 1)) hpos
    rw [Nat.mul_comm]
    omega
  have := y.toNat_lt
  generalize (x.toNat + (page - 1)) / page * page = x' at hmono hlow ⊢
  generalize (y.toNat + (page - 1)) / page * page = y' at hmono hup hy
  omega

theorem Phdr.Covers.contains {segment : Phdr} {o : UInt64}
    (hover : segment.vaddr.toNat + segment.memsz.toNat < 2 ^ 64) (h : segment.Covers o) :
    segment.Contains o.toNat 1 := by
  have hlt := UInt64.lt_iff_toNat_lt.1 h
  have heq : o.toNat = (segment.vaddr.toNat + (o - segment.vaddr).toNat) % 2 ^ 64 := by
    rw [← UInt64.toNat_add, add_sub_cancel]
  rw [Nat.mod_eq_of_lt (by omega)] at heq
  exact ⟨by omega, by omega⟩

/-- What a load with an entry leaves in ShellUI. -/
structure Loaded (ld : Elfldr) {elf : Memory} (e : LoadEffects elf) (a : LoadAnswers) (w : LoadWorld) :
    Prop where
  /-- The pages hold the image. -/
  image : ∃ image, IsImage elf (relocations elf a.resolve) a.ptMmap image ∧
    ∀ o < baseSize ld.toPageRounding elf, w.memory (a.ptMmap + o) = some (image o)
  /-- All that the image is made of lies in the pages. -/
  segment : ∀ segment ∈ loads elf, ∀ o, segment.Covers o → o < baseSize ld.toPageRounding elf
  relocation : ∀ r ∈ relocations elf a.resolve, r.1.offset.toNat + 8 ≤
    (baseSize ld.toPageRounding elf).toNat
  /-- The entry lies in a segment that may be executed. -/
  entry : ∃ segment ∈ loads elf, segment.flags &&& PF_X ≠ 0 ∧ segment.Covers (readEhdr elf).entry ∧
    (commonfpsStableElfldrLoad ld elf a).2 = a.ptMmap + (readEhdr elf).entry
  /-- A segment has its protection where the pages of no later one are. -/
  prot : ∀ earlier segment later, loads elf = earlier ++ segment :: later → ∀ o, segment.Covers o →
    (∀ s ∈ later, s.memsz ≠ 0 →
      e.pages (segmentAddress a.ptMmap s) (ld.roundPg s.memsz) (a.ptMmap + o) = false) →
      w.prot (a.ptMmap + o) = ld.pflags segment.flags

section Image

variable {ld : Elfldr} {elf : Memory} (e : LoadEffects elf) {a : LoadAnswers} (w : LoadWorld)

/-- A segment is protected as its flags say, as far as the pages of no later one reach. -/
theorem prot_of_everyStep (hover : NoOverflow elf) (hround : maxVaddr elf ≤ ld.roundPg (maxVaddr elf))
    (prot : UInt64 → ℕ) {earlier later : List Phdr} {segment : Phdr}
    (hloads : loads elf = earlier ++ segment :: later) {o : UInt64} (hcovers : segment.Covers o)
    (hlater : ∀ s ∈ later, s.memsz ≠ 0 →
      e.pages (segmentAddress a.ptMmap s) (ld.roundPg s.memsz) (a.ptMmap + o) = false) :
    patched (((loads elf).filter (·.memsz ≠ 0)).map (protectPatch e ld a.ptMmap)) prot (a.ptMmap + o) =
      ld.pflags segment.flags := by
  have hmem : segment ∈ loads elf := by rw [hloads]; simp
  -- A segment that covers something is protected.
  have hne : segment.memsz ≠ 0 := fun hzero => by
    rw [Phdr.Covers, hzero] at hcovers
    exact absurd hcovers (UInt64.not_lt.2 UInt64.zero_le)
  have hsize : segment.memsz ≤ ld.roundPg segment.memsz := by
    refine ld.le_roundPg ?_ hround
    have := end_le_maxVaddr hover hmem
    exact UInt64.le_iff_toNat_le.2 (by omega)
  rw [hloads, List.filter_append, List.filter_cons_of_pos (by simpa using hne), List.map_append, List.map_cons]
  refine patched_of_last ?_ fun q hq => ?_
  · refine if_pos (e.pages_of_lt _ _ _ ?_)
    rw [segmentAddress, add_sub_add_left_eq_sub]
    exact UInt64.lt_of_lt_of_le hcovers hsize
  · obtain ⟨s, hs, rfl⟩ := List.mem_map.1 hq
    obtain ⟨hs, hsize⟩ := List.mem_filter.1 hs
    rw [protectPatch, hlater s hs (by simpa using hsize)]
    rfl

theorem loaded_of_entry (hover : NoOverflow elf) (hbase : baseVaddr ld.toPageRounding elf = 0)
    (hround : maxVaddr elf ≤ ld.roundPg (maxVaddr elf)) (hstores : StoresInLoads elf a.ptMmap a.resolve)
    (h : (commonfpsStableElfldrLoad ld elf a).2 ≠ 0) :
    Loaded ld e a (loadEffects e (commonfpsApplyRelocations elf a.ptMmap a.resolve).1
      (commonfpsStableElfldrLoad ld elf a).1 w) := by
  obtain ⟨haccepted, hmapped, hstep, hentry, -⟩ := load_of_entry h
  rw [loadEffects_of_everyStep e w ld haccepted hmapped hstep]
  refine ⟨⟨_, isImage_patched e.toPtLoad _ _, fun o ho => ?_⟩, fun segment hmem o hcovers => ?_,
    fun r hr => ?_, ?_, ?_⟩
  · exact patched_concat (l := [_]) (rangeAt_add ho)
  · have hcontains := hcovers.contains (hover segment hmem)
    exact UInt64.lt_iff_toNat_lt.2 (contains_baseSize hover hbase hround hmem hcontains)
  · have hstore : .of a.ptMmap r.1 r.2 ∈ (commonfpsApplyRelocations elf a.ptMmap a.resolve).1 := by
      rw [applyRelocations_eq hstep.relocations]
      exact List.mem_map.2 ⟨r, hr, rfl⟩
    obtain ⟨segment, hload, hcontains⟩ := hstores _ hstore
    exact contains_baseSize hover hbase hround hload hcontains
  · obtain ⟨segment, hmem, hexecute, -, hlt⟩ := exists_entry_of_valid haccepted.2.2.2.2.2.2
    exact ⟨segment, hmem, hexecute, hlt, hentry⟩
  · intro earlier segment later hloads o hcovers hlater
    rw [patched_cons]
    exact prot_of_everyStep e hover hround _ hloads hcovers hlater

/-- The pages of a load without an entry, which were free, are free again. -/
theorem memory_of_failed (h : (commonfpsStableElfldrLoad ld elf a).2 = 0)
    (hentry : entryAddress a.ptMmap elf ≠ 0) (hunmaps : e.unmaps = true) {x : UInt64}
    (hx : x - a.ptMmap < baseSize ld.toPageRounding elf) (hfree : w.memory x = none) :
    (loadEffects e (commonfpsApplyRelocations elf a.ptMmap a.resolve).1
      (commonfpsStableElfldrLoad ld elf a).1 w).memory x = w.memory x := by
  rcases load_failed ld h hentry with hcalls | hcalls | ⟨calls, hcalls⟩
  · rw [hcalls]
    rfl
  · rw [hcalls]
    rfl
  · rw [hcalls, loadEffects_append, loadEffects, List.foldl_cons, LoadCall.effect, if_pos hunmaps, hfree]
    exact patched_concat (l := []) (if_pos hx)

end Image

/-- An image that is linked at `0` and loaded is in ShellUI as its file describes
    it. Whatever fails, nothing else in ShellUI changes; and if the pages that were
    free can be unmapped, a load without an entry leaves the memory as it was. -/
theorem loaded_image (ld : Elfldr) {elf : Memory} (e : LoadEffects elf) (a : LoadAnswers) (w : LoadWorld)
    (hover : NoOverflow elf) (hbase : baseVaddr ld.toPageRounding elf = 0)
    (hround : maxVaddr elf ≤ ld.roundPg (maxVaddr elf)) (hstores : StoresInLoads elf a.ptMmap a.resolve) :
    let size := baseSize ld.toPageRounding elf
    let r := commonfpsStableElfldrLoad ld elf a
    let w' := loadEffects e (commonfpsApplyRelocations elf a.ptMmap a.resolve).1 r.1 w
    (r.2 ≠ 0 → Loaded ld e a w') ∧
      (∀ x, ¬x - a.ptMmap < size → w'.memory x = w.memory x) ∧
      (r.2 = 0 → entryAddress a.ptMmap elf ≠ 0 → e.unmaps = true →
        (∀ x, x - a.ptMmap < size → w.memory x = none) → w'.memory = w.memory) := by
  intro size r w'
  have houtside : ∀ x, ¬x - a.ptMmap < size → w'.memory x = w.memory x := fun x hx =>
    loadEffects_outside e _ w hx (load_within ld a)
  refine ⟨loaded_of_entry e w hover hbase hround hstores, houtside, fun hr hentry hunmaps hfree => ?_⟩
  funext x
  by_cases hx : x - a.ptMmap < size
  · exact memory_of_failed e w hr hentry hunmaps hx (hfree x hx)
  · exact houtside x hx

instance (segment : Phdr) (o : UInt64) : Decidable (segment.Covers o) :=
  inferInstanceAs (Decidable (o - segment.vaddr < segment.memsz))

/-- Segments are cleared after their file part, and pages have 16 KiB. -/
def plainEffects (elf : Memory) : LoadEffects elf where
  part segment o :=
    if segment.Covers o then
      some (if o - segment.vaddr < segment.filesz then elf (segment.offset + (o - segment.vaddr)) else 0)
    else none
  part_file segment o hcovers hfile := by rw [if_pos hcovers, if_pos hfile]
  part_outside segment o h := if_neg h
  torn := fun _ => 0
  unmaps := true
  pages address size x := size ≠ 0 ∧ (x - address < size ∨ x >>> 14 = address >>> 14 ∨
    x >>> 14 = (address + size - 1) >>> 14)
  pages_of_lt address size x h := by
    have hne : size ≠ 0 := fun hzero => UInt64.not_lt.2 UInt64.zero_le (hzero ▸ h)
    exact decide_eq_true ⟨hne, .inl h⟩

/-- The image of a segment and a relocation, in pages that were free. -/
theorem loaded_image_relocated :
    let elf := sharedObject 0 [(8, 16)]
    let a := smoothSession.load
    let w : LoadWorld := ⟨fun _ => none, fun _ => 0, fun _ => 0⟩
    relocations elf a.resolve = [(⟨8, 8, 16⟩, .relative)] ∧
      Loaded ⟨pages16K, fun _ => 0⟩ (plainEffects elf) a
        (loadEffects (plainEffects elf) (commonfpsApplyRelocations elf a.ptMmap a.resolve).1
          (commonfpsStableElfldrLoad ⟨pages16K, fun _ => 0⟩ elf a).1 w) := by
  intro elf a w
  have hover : NoOverflow elf := by decide +kernel
  have hbase : baseVaddr pages16K elf = 0 := by decide +kernel
  have hround : maxVaddr elf ≤ pages16K.roundPg (maxVaddr elf) := by decide +kernel
  have hstores : StoresInLoads elf a.ptMmap a.resolve := by decide +kernel
  have hentry : (commonfpsStableElfldrLoad ⟨pages16K, fun _ => 0⟩ elf a).2 ≠ 0 := by decide +kernel
  obtain ⟨hloaded, -⟩ := loaded_image ⟨pages16K, fun _ => 0⟩ (plainEffects elf) a w hover hbase
    hround hstores
  exact ⟨by decide +kernel, hloaded hentry⟩

end CommonFps
