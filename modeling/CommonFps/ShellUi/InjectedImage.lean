import CommonFps.ShellUi.LoadedImage

/-!
# The image that the thread runs

A session (`inject_shellui_stable`) goes on after the load: it has ShellUI map
pages for the stager and for what this is given, and fills them, before a thread
may start in the image. What the calls of the session change in ShellUI is taken
one after the other, as for the load.

* `SessionCall.effect`: what a call of a session changes;
* `Places`: a call maps and fills the pages of the stager and of its argument only;
* `thread_runs_image`: a thread that a session starts, starts in an image that is
  in ShellUI as its file describes it, to the end of the session.
-/

namespace CommonFps

/-! ## What the calls of a session change -/

/-- What the calls of a session do besides. What the threads of ShellUI store, such
    as the result of the stager, is left out. -/
structure SessionEffects (elf : Memory) extends LoadEffects elf where
  /-- The bytes that are copied to an address. -/
  copied : UInt64 → Memory
  /-- The memory of the arguments of the renderer (`elfldr_payload_args`). -/
  args : UInt64 → Option (Option UInt8)

section Effects

variable {elf : Memory} (e : SessionEffects elf) (stores : List RelocStore)

/-- What a call changes, with the stores that the relocations make. -/
def SessionCall.effect (w : LoadWorld) : SessionCall → LoadWorld
  | load call => call.effect e.toLoadEffects stores w
  | payloadArgs _ => { w with memory := patched [e.args] w.memory }
  | mmap size result =>
    if result.toInt64 ≤ 0 then w
    else
      { w with
        memory := patched [rangeAt result size fun _ => some 0] w.memory
        prot := patched [rangeAt result size fun _ => PROT_READ ||| PROT_WRITE] w.prot }
  | mprotect address size ok =>
    if ok then
      { w with
        prot := patched
          [fun x => if e.pages address size x then some (PROT_READ ||| PROT_WRITE ||| PROT_EXEC) else none]
          w.prot }
    else w
  | copyin address size _ =>
    { w with memory := patched [rangeAt address size fun o => some (e.copied address o)] w.memory }
  | _ => w

/-- What is left by the calls, one after the other. -/
def sessionEffects (calls : List SessionCall) (w : LoadWorld) : LoadWorld :=
  calls.foldl (SessionCall.effect e stores) w

/-- The calls take effect one after the other. -/
theorem sessionEffects_append (l l' : List SessionCall) (w : LoadWorld) :
    sessionEffects e stores (l ++ l') w = sessionEffects e stores l' (sessionEffects e stores l w) :=
  List.foldl_append

/-- Those of a load as they do on their own. -/
theorem sessionEffects_load (l : List LoadCall) (w : LoadWorld) :
    sessionEffects e stores (l.map .load) w = loadEffects e.toLoadEffects stores l w := List.foldl_map

end Effects

/-! ## The pages of a session -/

/-- A call maps and fills the pages of the stager and of its argument only, besides those of the image. -/
def SessionCall.Places (image : Image) (a : InjectionAnswers) : SessionCall → Prop
  | mmap size address | copyin address size _ =>
    address = a.remoteStager ∧ size = image.stagerSize ∨
      address = a.remoteFunctions ∧ size = Session.functionsSize
  | _ => True

/-- From `s` to `s'`, only calls as in `P` are added. -/
def Session.Adds (P : SessionCall → Prop) (s s' : Session) : Prop :=
  ∃ calls, s'.trace = s.trace ++ calls ∧ ∀ c ∈ calls, P c

namespace Session

section Adds

variable {P : SessionCall → Prop} {s s' s'' : Session}

theorem Adds.refl : Adds P s s := ⟨[], (List.append_nil _).symm, fun _ hc => absurd hc List.not_mem_nil⟩

theorem Adds.trans (h : Adds P s s') (h' : Adds P s' s'') : Adds P s s'' := by
  obtain ⟨calls, htrace, hcalls⟩ := h
  obtain ⟨calls', htrace', hcalls'⟩ := h'
  refine ⟨calls ++ calls', by rw [htrace', htrace, List.append_assoc], fun c hc => ?_⟩
  exact (List.mem_append.1 hc).elim (hcalls c) (hcalls' c)

theorem Adds.log {c : SessionCall} (h : Adds P s s') (hc : P c) : Adds P s (s'.log c) :=
  h.trans ⟨[c], rfl, fun _ hc' => List.mem_singleton.1 hc' ▸ hc⟩

end Adds

variable {image : Image} {pid : ℤ} {a : InjectionAnswers} {s : Session} {r : InjectionReport}

/-- A call of the stager maps and fills no pages. -/
theorem places_callStager : Adds (SessionCall.Places image a) s (callStager pid a s r).1 := by
  refine Adds.log (c := .copyout _ _ _) ⟨_, rfl, fun c hc => ?_⟩ trivial
  obtain ⟨call, -, rfl⟩ := List.mem_map.1 hc
  exact trivial

/-- Placing the argument of the stager maps and fills its page only. -/
theorem places_placeFunctions (entry : UInt64) :
    Adds (SessionCall.Places image a) s (placeFunctions pid a entry s r).1 := by
  have hmmap : Adds (SessionCall.Places image a) s (s.log (.mmap functionsSize a.remoteFunctions)) :=
    .log .refl (.inr ⟨rfl, rfl⟩)
  have hcopy := hmmap.log (c := .copyin a.remoteFunctions functionsSize a.copyinFunctions) (.inr ⟨rfl, rfl⟩)
  rw [placeFunctions]
  dsimp only
  split_ifs
  · exact hmmap
  · exact hcopy
  · exact hcopy.trans places_callStager

/-- Placing the stager maps and fills its pages, and then those of the argument. -/
theorem places_placeStager (entry : UInt64) :
    Adds (SessionCall.Places image a) s (placeStager image pid a entry s r).1 := by
  have hmmap : Adds (SessionCall.Places image a) s (s.log (.mmap image.stagerSize a.remoteStager)) :=
    .log .refl (.inl ⟨rfl, rfl⟩)
  have hprotect := hmmap.log (c := .mprotect a.remoteStager image.stagerSize a.mprotect) trivial
  have hcopy := hprotect.log (c := .copyin a.remoteStager image.stagerSize a.copyinStager) (.inl ⟨rfl, rfl⟩)
  rw [placeStager]
  dsimp only
  split_ifs
  · exact .refl
  · exact hmmap
  · exact hprotect
  · exact hcopy
  · exact hcopy.trans (places_placeFunctions entry)

/-- While it is attached, a session maps and fills its own pages only. -/
theorem places_attached : Adds (SessionCall.Places image a) s (attached image pid a s r).1 := by
  have hresolve : Adds (SessionCall.Places image a) s
      ({ s with target := touched a .resolve s.target }.log (.resolve a.pthreadCreate)) :=
    ⟨[_], rfl, fun c hc => by rw [List.mem_singleton.1 hc]; exact trivial⟩
  rw [attached]
  split_ifs
  · exact hresolve
  refine hresolve.trans ?_
  generalize { s with target := touched a .resolve s.target }.log (.resolve a.pthreadCreate) = s
  have hload : Adds (SessionCall.Places image a) s { s with
      target := resumed image a s.target
      trace := s.trace ++ (loaded image a).1.map .load } := by
    refine ⟨_, rfl, fun c hc => ?_⟩
    obtain ⟨call, -, rfl⟩ := List.mem_map.1 hc
    exact trivial
  rw [loadRenderer]
  dsimp only
  split_ifs
  · exact hload
  · exact hload.log (c := .payloadArgs _) trivial
  · exact (hload.log (c := .payloadArgs _) trivial).trans (places_placeStager _)

theorem places_setAuth (authId : UInt64) (answer : SetAnswer) :
    Adds (SessionCall.Places image a) s (s.setAuth authId answer) :=
  ⟨[_], rfl, fun c hc => by rw [List.mem_singleton.1 hc]; exact trivial⟩

/-- The whole of what is done with the debugger maps and fills these pages only. -/
theorem places_debug : Adds (SessionCall.Places image a) s (debug image pid a s r).1 := by
  have hattach : Adds (SessionCall.Places image a) s (s.log (.attach a.attach)) := .log .refl trivial
  rw [debug]
  dsimp only
  split_ifs
  · exact ((hattach.trans places_attached).log (c := .detach _ _) trivial).log (c := .kill pid) trivial
  · exact hattach

theorem places_restoreAuth (original : UInt64) :
    Adds (SessionCall.Places image a) s (restoreAuth a original s r).1 := by
  have hset : Adds (SessionCall.Places image a) s (s.setAuth original a.restoreAuth) := places_setAuth _ _
  rw [restoreAuth]
  dsimp only
  split_ifs
  · exact hset.log trivial
  · exact hset.log trivial
  · exact hset

end Session

open Session in
/-- And so it does as a whole. -/
theorem places_inject (pid : ℤ) (image : Image) (mode : StableInjectionMode) (a : InjectionAnswers)
    (s : Session) : Adds (SessionCall.Places image a) s (injectShelluiStable pid (some image) mode a s).1 := by
  have hget (read : UInt64) : Adds (SessionCall.Places image a) s (s.log (.getAuth read)) := .log .refl trivial
  rw [injectShelluiStable]
  dsimp only
  by_cases hargs : pid ≤ 0 ∨ image.size < 64
  · rw [if_pos hargs]
    exact .refl
  rw [if_neg hargs]
  by_cases hzero : (if a.getAuth then s.authId else 0) = 0
  · rw [if_pos hzero]
    exact hget _
  rw [if_neg hzero]
  have hset := (hget (if a.getAuth then s.authId else 0)).trans
    (places_setAuth StableInjector.kPtraceAuthId a.setAuth)
  by_cases hrc : a.setAuth.rc ≠ 0
  · rw [if_pos hrc]
    exact hset
  rw [if_neg hrc]
  exact (hset.trans places_debug).trans (places_restoreAuth _)

/-! ## The thread -/

/-- The pages that ShellUI is made to map besides are not those of the image. -/
structure SessionEffects.Apart {image : Image} (e : SessionEffects image.elf) (a : InjectionAnswers) :
    Prop where
  stager (x : UInt64) : x - a.load.ptMmap < baseSize image.elfldr.toPageRounding image.elf →
    ¬x - a.remoteStager < image.stagerSize
  functions (x : UInt64) : x - a.load.ptMmap < baseSize image.elfldr.toPageRounding image.elf →
    ¬x - a.remoteFunctions < Session.functionsSize
  args (x : UInt64) : x - a.load.ptMmap < baseSize image.elfldr.toPageRounding image.elf → e.args x = none

section Thread

variable {image : Image} {a : InjectionAnswers} (e : SessionEffects image.elf) (stores : List RelocStore)
  (w : LoadWorld)

/-- A call but those of the load changes nothing in the pages of the image. -/
theorem effect_apart (hapart : e.Apart a) {x : UInt64}
    (hx : x - a.load.ptMmap < baseSize image.elfldr.toPageRounding image.elf) {c : SessionCall}
    (hplaces : c.Places image a) (hload : ∀ call, c ≠ .load call) :
    (c.effect e stores w).memory x = w.memory x := by
  have hrange (address size : UInt64) (f : UInt64 → Option UInt8)
      (h : address = a.remoteStager ∧ size = image.stagerSize ∨
        address = a.remoteFunctions ∧ size = Session.functionsSize) :
      patched [rangeAt address size f] w.memory x = w.memory x := by
    refine patched_of_forall_none fun q hq => ?_
    rw [List.mem_singleton.1 hq]
    rcases h with ⟨rfl, rfl⟩ | ⟨rfl, rfl⟩
    · exact rangeAt_eq_none (hapart.stager x hx)
    · exact rangeAt_eq_none (hapart.functions x hx)
  cases c with
  | load call => exact absurd rfl (hload call)
  | payloadArgs =>
    refine patched_of_forall_none fun q hq => ?_
    rw [List.mem_singleton.1 hq]
    exact hapart.args x hx
  | mmap size result =>
    rw [SessionCall.effect]
    split_ifs
    · rfl
    · exact hrange _ _ _ hplaces
  | mprotect =>
    rw [SessionCall.effect]
    split_ifs <;> rfl
  | copyin address size ok => exact hrange _ _ _ hplaces
  | _ => rfl

/-- What lies apart from the pages of a session stays as it is. -/
theorem sessionEffects_apart (hapart : e.Apart a) {x : UInt64}
    (hx : x - a.load.ptMmap < baseSize image.elfldr.toPageRounding image.elf) {calls : List SessionCall}
    (hplaces : ∀ c ∈ calls, c.Places image a) (hload : ∀ c ∈ calls, ∀ call, c ≠ .load call) :
    (sessionEffects e stores calls w).memory x = w.memory x := by
  induction calls generalizing w with
  | nil => rfl
  | cons c calls ih =>
    rw [sessionEffects, List.foldl_cons]
    exact (ih _ (fun c' hc' => hplaces c' (List.mem_cons_of_mem _ hc')) fun c' hc' =>
      hload c' (List.mem_cons_of_mem _ hc')).trans
        (effect_apart e stores w hapart hx (hplaces c List.mem_cons_self) (hload c List.mem_cons_self))

/-- After the load, the pages of the image are as the load left them. -/
theorem sessionEffects_of_load (hapart : e.Apart a) {x : UInt64}
    (hx : x - a.load.ptMmap < baseSize image.elfldr.toPageRounding image.elf) (l : List LoadCall)
    {after : List SessionCall} (hplaces : ∀ c ∈ after, c.Places image a)
    (hload : ∀ c ∈ after, ∀ call, c ≠ .load call) :
    (sessionEffects e stores (l.map .load ++ after) w).memory x =
      (loadEffects e.toLoadEffects stores l w).memory x := by
  rw [sessionEffects_append, sessionEffects_load]
  exact sessionEffects_apart e stores _ hapart hx hplaces hload

end Thread

/-- A report of a loaded renderer means that the load returned an entry. -/
theorem Session.Inside.entry_ne {image : Image} {pid : ℤ} {a : InjectionAnswers} {s : Session}
    {r : InjectionReport} {done : Session × InjectionReport}
    (h : Session.Inside image pid a s r done) (hloaded : done.2.elfLoaded = true) :
    (commonfpsStableElfldrLoad image.elfldr image.elf a.load).2 ≠ 0 := by
  intro hzero
  have hpos := h.elfLoaded hloaded
  rw [show (Session.loaded image a).2 = 0 from hzero] at hpos
  exact absurd hpos (by decide)

/-- A session starts at most one thread, at the entry of the image: in a segment that may be executed, and in
    pages that hold the image when the session is over. -/
theorem thread_runs_image (pid : ℤ) (image : Image) (mode : StableInjectionMode) (a : InjectionAnswers)
    (s : Session) (e : SessionEffects image.elf) (w : LoadWorld) (hs : s.target.stager = none)
    (hover : NoOverflow image.elf) (hbase : baseVaddr image.elfldr.toPageRounding image.elf = 0)
    (hround : maxVaddr image.elf ≤ image.elfldr.roundPg (maxVaddr image.elf))
    (hstores : StoresInLoads image.elf a.load.ptMmap a.load.resolve) (hapart : e.Apart a) (steps : ℕ)
    (regs : Regs) :
    let done := injectShelluiStable pid (some image) mode a s
    let left := done.1.target.run a.call.createRc steps regs
    let stores := (commonfpsApplyRelocations image.elf a.load.ptMmap a.load.resolve).1
    left.threads = s.target.threads ∨
      left.threads = s.target.threads ++ [⟨a.load.ptMmap + (readEhdr image.elf).entry, a.payloadArgs⟩] ∧
        (∃ segment ∈ loads image.elf, segment.flags &&& PF_X ≠ 0 ∧
          segment.Covers (readEhdr image.elf).entry) ∧
        ∃ calls i, done.1.trace = s.trace ++ calls ∧
          IsImage image.elf (relocations image.elf a.load.resolve) a.load.ptMmap i ∧
          ∀ o < baseSize image.elfldr.toPageRounding image.elf,
            (sessionEffects e stores calls w).memory (a.load.ptMmap + o) = some (i o) := by
  intro done left stores
  obtain ⟨hthread, -⟩ := injection_thread pid (some image) mode a s hs steps regs
  rcases hthread with hthread | ⟨image', himage', -, helf, -, -, -, hthread⟩
  · exact .inl hthread
  obtain rfl := Option.some.inj himage'
  rcases inject_cases pid (some image) mode a s with
    ⟨-, -, hnot, -⟩ | ⟨image', inside, last, himage', hinside, htrace, hlast, htarget, hloaded, -⟩
  · exact absurd (hnot.symm.trans helf) Bool.false_ne_true
  obtain rfl := Option.some.inj himage'
  rcases hinside.ends with ⟨-, hkept, -⟩ | ⟨placed, called, hcalls, hplaced, hcalled, -, -⟩
  · -- A session that ends before the load starts nothing.
    refine .inl ?_
    change (Target.run a.call.createRc steps regs done.1.target).threads = s.target.threads
    rw [show done.1.target = _ from htarget, hkept]
    exact Target.run_threads (t := Session.touched a .resolve s.target) (.inl hs) _ _ _
  · obtain ⟨⟨i, himage, hmemory⟩, -, -, ⟨segment, hsegment, hexecute, hcovers, hentry⟩, -⟩ :=
      loaded_of_entry e.toLoadEffects w hover hbase hround hstores
        (hinside.entry_ne (hloaded.symm.trans helf))
    -- What the session calls before the load changes nothing, and what it calls after it is apart.
    let before : List SessionCall :=
      [.getAuth s.authId, .setAuth StableInjector.kPtraceAuthId 0, .attach true, .resolve a.pthreadCreate]
    let after := placed ++ called ++ (.detach inside.1.target.regs a.detach :: .kill pid ::
      .setAuth s.authId a.restoreAuth.rc :: last)
    have htotal : done.1.trace =
        s.trace ++ (before ++ ((Session.loaded image a).1.map .load ++ after)) := by
      refine htrace.trans ?_
      rw [hcalls]
      simp [Session.began, before, after]
    obtain ⟨calls, hadded, hplaces⟩ := places_inject pid image mode a s
    obtain rfl := List.append_cancel_left (hadded.symm.trans htotal)
    have hnot : ∀ c ∈ after, ∀ call, c ≠ .load call := by
      rintro c hc call rfl
      rcases List.mem_append.1 hc with hc | hc
      · rcases List.mem_append.1 hc with hc | hc
        · exact hplaced _ hc
        · exact hcalled _ hc
      · rcases hlast with rfl | ⟨read, rfl⟩ <;> simp at hc
    refine .inr ⟨hthread, ⟨segment, hsegment, hexecute, hcovers⟩, _, i, htotal, himage, fun o ho => ?_⟩
    have hx : a.load.ptMmap + o - a.load.ptMmap < baseSize image.elfldr.toPageRounding image.elf := by
      rw [add_sub_cancel_left]
      exact ho
    have hafter : ∀ c ∈ after, c.Places image a := fun c hc =>
      hplaces c (List.mem_append_right _ (List.mem_append_right _ hc))
    rw [sessionEffects_append, sessionEffects_of_load e _ _ hapart hx _ hafter hnot]
    exact hmemory o ho

/-- The bytes that are copied are 0, and the arguments are in a page of their own. -/
def plainSession : SessionEffects plainImage.elf where
  toLoadEffects := plainEffects plainImage.elf
  copied := fun _ _ => 0
  args := rangeAt 0x300000000 0x4000 fun _ => some 0

/-- In a session in which all succeeds, the pages are apart. -/
theorem plainSession_apart : plainSession.Apart smoothSession := by
  have hsize : baseSize pages16K plainImage.elf = 0x4000 := by decide +kernel
  have hother {x start size : UInt64} (hx : x - 0x200000000 < baseSize pages16K plainImage.elf)
      (hstart : 0x200004000 ≤ start.toNat) (hend : start.toNat + size.toNat ≤ 2 ^ 64) :
        ¬x - start < size := by
    rw [hsize, UInt64.lt_iff_toNat_lt, UInt64.toNat_sub] at hx
    rw [UInt64.lt_iff_toNat_lt, UInt64.toNat_sub]
    have hbase : (0x200000000 : UInt64).toNat = 0x200000000 := rfl
    have hpages : (0x4000 : UInt64).toNat = 0x4000 := rfl
    have := x.toNat_lt
    omega
  exact {
    stager := fun x hx => hother hx (by decide) (by decide)
    functions := fun x hx => hother hx (by decide) (by decide)
    args := fun x hx => by
      have hargs : ¬x - 0x300000000 < 0x4000 := hother hx (by decide) (by decide)
      change rangeAt 0x300000000 0x4000 (fun _ => some 0) x = none
      exact rangeAt_eq_none hargs }

theorem thread_runs_image_smooth :
    let done := injectShelluiStable 50 (some plainImage) .startRendererThread smoothSession
      { authId := 1, target := { regs := {} } }
    done.1.target.threads = [⟨0x200000000, 0x300000000⟩] ∧
      ∃ calls i, done.1.trace = calls ∧
        IsImage plainImage.elf (relocations plainImage.elf smoothSession.load.resolve) 0x200000000 i ∧
        ∀ o < baseSize pages16K plainImage.elf,
          (sessionEffects plainSession
            (commonfpsApplyRelocations plainImage.elf 0x200000000 smoothSession.load.resolve).1 calls
            ⟨fun _ => none, fun _ => 0, fun _ => 0⟩).memory (0x200000000 + o) = some (i o) := by
  intro done
  have hover : NoOverflow plainImage.elf := by decide +kernel
  have hbase : baseVaddr pages16K plainImage.elf = 0 := by decide +kernel
  have hround : maxVaddr plainImage.elf ≤ pages16K.roundPg (maxVaddr plainImage.elf) := by decide +kernel
  have hstores : StoresInLoads plainImage.elf 0x200000000 smoothSession.load.resolve := by decide +kernel
  have hthread : done.1.target.threads = [⟨0x200000000, 0x300000000⟩] := by decide +kernel
  rcases thread_runs_image 50 plainImage .startRendererThread smoothSession
    { authId := 1, target := { regs := {} } } plainSession ⟨fun _ => none, fun _ => 0, fun _ => 0⟩ rfl hover
    hbase hround hstores plainSession_apart 0 {} with hnone | ⟨-, -, calls, i, htrace, himage, hmemory⟩
  · exact absurd (hnone.symm.trans hthread) (List.cons_ne_nil _ _).symm
  · exact ⟨hthread, calls, i, htrace, himage, hmemory⟩

end CommonFps
