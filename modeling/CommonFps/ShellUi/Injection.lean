import CommonFps.ShellUi.RemoteCall
import CommonFps.Worker.Injector

/-!
# An injection

A session of the debugger with ShellUI (`inject_shellui_stable`): with the
credentials of a debugger, the controller attaches to ShellUI, loads the renderer
into it, places the stager and what this is given, calls it, reads the result
back, detaches, and gives the credentials back. The first step that fails ends
the session, but what was begun is always closed.

* `injectShelluiStable`: the session, with any outcomes of its steps;
* `injection_contract`: ShellUI is touched only between the one attach and the
  one detach, but for the signal after that, its memory is filled only while it is
  stopped, and what the report says of the credentials is so;
* `injection_thread`: one thread is started at most, and only as the report says;
* `injection_keeps_registers`: the thread that is borrowed has its registers back.
-/

namespace CommonFps

/-- The credentials of a debugger, with which a session is made. -/
def StableInjector.kPtraceAuthId : UInt64 := 0x4800000000010003

/-- Whether the renderer's thread is to be started. -/
inductive StableInjectionMode
  | startRendererThread
  | exerciseStagerWithoutThread
  deriving DecidableEq

/-- The report of a session. -/
structure InjectionReport where
  authChanged : Bool := false
  authRestored : Bool := false
  attached : Bool := false
  elfLoaded : Bool := false
  payloadArgsReady : Bool := false
  remoteStagerReady : Bool := false
  remoteFunctionsReady : Bool := false
  targetStackPreserved : Bool := false
  bootstrapStarted : Bool := false
  threadStartRequested : Bool := false
  pthreadCreateOk : Bool := false
  detached : Bool := false
  traceContinueSeen : Bool := false
  traceStopSeen : Bool := false
  pthreadCreateRc : Int32 := -1

/-- A step of a session, and what it returned. -/
inductive SessionCall
  | getAuth (authId : UInt64)
  | setAuth (authId : UInt64) (rc : ℤ)
  | attach (ok : Bool)
  | resolve (address : UInt64)
  | load (call : LoadCall)
  | payloadArgs (address : UInt64)
  | mmap (size result : UInt64)
  | mprotect (address size : UInt64) (ok : Bool)
  | copyin (address size : UInt64) (ok : Bool)
  | remote (call : RemoteCall)
  | copyout (address size : UInt64) (ok : Bool)
  /-- Detaching, from a thread with these registers. -/
  | detach (left : Regs) (ok : Bool)
  /-- Sending a process `SIGCONT`. -/
  | kill (pid : ℤ)

/-- The parts of a session in which the primitives of the SDK work on the thread that it borrows,
    besides those with which it writes registers itself. -/
inductive SessionPart
  | resolve
  | place
  | readBack

/-- The outcomes of the steps. An address that is not positive means a failure. -/
structure InjectionAnswers where
  /-- The credentials can be read, at first and at the end. -/
  getAuth : Bool
  setAuth : SetAnswer
  attach : Bool
  pthreadCreate : UInt64
  load : LoadAnswers
  /-- The registers of the thread after the load, if it ran during it. -/
  loadedRegs : Regs
  payloadArgs : UInt64
  remoteStager : UInt64
  mprotect : Bool
  copyinStager : Bool
  remoteFunctions : UInt64
  copyinFunctions : Bool
  call : CallAnswers
  copyout : Bool
  /-- What the primitives of a part make of the registers of the thread. -/
  primitiveRegs : SessionPart → Regs → Regs
  detach : Bool
  restoreAuth : SetAnswer
  readAuth : Bool

/-- The renderer, and what the controller is built with. -/
structure Image where
  elfldr : Elfldr
  elf : Memory
  size : ℕ
  stagerSize : UInt64

/-- The controller, and ShellUI. -/
structure Session where
  authId : UInt64
  target : Target
  trace : List SessionCall := []

namespace Session

/-- A step is recorded. -/
def log (s : Session) (call : SessionCall) : Session := { s with trace := s.trace ++ [call] }

variable (image : Image) (pid : ℤ) (a : InjectionAnswers)

/-- What the stager is given for a renderer with this entry. -/
def functions (entry : UInt64) (threadStartRequested : Bool) : RemoteBootstrapFunctions where
  elfMain := entry
  payloadArgs := a.payloadArgs
  pthreadCreateFn := a.pthreadCreate
  startThread := if threadStartRequested then 1 else 0

/-- `sizeof(RemoteBootstrapFunctions)`. -/
def functionsSize : UInt64 := 0x28

/-- The target after the primitives of a part. -/
def touched (part : SessionPart) (t : Target) : Target := { t with regs := a.primitiveRegs part t.regs }

/-- What the stager has stored is read back. -/
def readBack (s : Session) (r : InjectionReport) : Session × InjectionReport :=
  let s := { s with target := touched a .readBack s.target }.log
    (.copyout a.remoteFunctions functionsSize a.copyout)
  let rc := s.target.functions.pthreadCreateRc
  (s, if a.copyout ∧ rc ≠ -777 then
      { r with
        bootstrapStarted := true
        pthreadCreateRc := rc
        pthreadCreateOk := r.threadStartRequested && rc = 0 }
    else r)

/-- The stager is called. -/
def callStager (s : Session) (r : InjectionReport) : Session × InjectionReport :=
  let called := callUntilBreakpointOnTargetStack pid a.remoteStager
    (fun i => if i.val = 0 then a.remoteFunctions else 0) a.call s.target
  readBack a { s with target := called.1, trace := s.trace ++ called.2.1.map .remote }
    { r with targetStackPreserved := true }

/-- What the stager is given is placed in ShellUI. -/
def placeFunctions (entry : UInt64) (s : Session) (r : InjectionReport) : Session × InjectionReport :=
  let s := s.log (.mmap functionsSize a.remoteFunctions)
  if a.remoteFunctions.toInt64 ≤ 0 then (s, r)
  else
    let s := s.log (.copyin a.remoteFunctions functionsSize a.copyinFunctions)
    if !a.copyinFunctions then (s, r)
    else
      let functions := functions a entry r.threadStartRequested
      callStager pid a { s with target := { s.target with functions } }
        { r with remoteFunctionsReady := true }

/-- The stager is placed in ShellUI. -/
def placeStager (entry : UInt64) (s : Session) (r : InjectionReport) : Session × InjectionReport :=
  if image.stagerSize = 0 then (s, r)
  else
    let s := s.log (.mmap image.stagerSize a.remoteStager)
    if a.remoteStager.toInt64 ≤ 0 then (s, r)
    else
      let s := s.log (.mprotect a.remoteStager image.stagerSize a.mprotect)
      if !a.mprotect then (s, r)
      else
        let s := s.log (.copyin a.remoteStager image.stagerSize a.copyinStager)
        if !a.copyinStager then (s, r)
        else placeFunctions pid a entry s { r with remoteStagerReady := true }

/-- The load of the renderer: the primitives called, and the entry. -/
def loaded : List LoadCall × UInt64 := commonfpsStableElfldrLoad image.elfldr image.elf a.load

/-- The target after the load, during which the thread may have run, and after what is placed in it. -/
def resumed (t : Target) : Target :=
  -- Nothing looks at the registers before the stager is called, so all primitives until then count here.
  touched a .place { t with regs := if .ptContinue true ∈ (loaded image a).1 then a.loadedRegs else t.regs }

/-- The renderer is loaded. -/
def loadRenderer (s : Session) (r : InjectionReport) : Session × InjectionReport :=
  let loaded := loaded image a
  let s := { s with
    target := resumed image a s.target
    trace := s.trace ++ loaded.1.map .load }
  let r := { r with
    traceContinueSeen := decide (.ptContinue true ∈ loaded.1)
    traceStopSeen := decide (.waitpid true ∈ loaded.1) }
  if loaded.2.toInt64 ≤ 0 then (s, r)
  else
    let r := { r with elfLoaded := true }
    let s := s.log (.payloadArgs a.payloadArgs)
    if a.payloadArgs.toInt64 ≤ 0 then (s, r)
    else placeStager image pid a loaded.2 s { r with payloadArgsReady := true }

/-- The session, once attached. -/
def attached (s : Session) (r : InjectionReport) : Session × InjectionReport :=
  let s := { s with target := touched a .resolve s.target }.log (.resolve a.pthreadCreate)
  if a.pthreadCreate = 0 then (s, r) else loadRenderer image pid a s r

/-- Attaching, and detaching. -/
def debug (s : Session) (r : InjectionReport) : Session × InjectionReport :=
  let s := s.log (.attach a.attach)
  if a.attach then
    let done := attached image pid a s { r with attached := true }
    ((done.1.log (.detach done.1.target.regs a.detach)).log (.kill pid),
      { done.2 with detached := a.detach })
  else (s, r)

/-- `kernel_set_ucred_authid`. -/
def setAuth (authId : UInt64) (a : SetAnswer) (s : Session) : Session :=
  { s with
    authId := if a.applied then authId else s.authId
    trace := s.trace ++ [.setAuth authId a.rc] }

/-- The credentials are given back. -/
def restoreAuth (original : UInt64) (s : Session) (r : InjectionReport) : Session × InjectionReport :=
  let s := s.setAuth original a.restoreAuth
  if a.restoreAuth.rc = 0 then
    let read := if a.readAuth then s.authId else 0
    (s.log (.getAuth read), { r with authRestored := read = original })
  else (s, r)

end Session

open Session in
/-- The session, with an image that may be missing. -/
def injectShelluiStable (pid : ℤ) (rendererElf : Option Image) (mode : StableInjectionMode)
    (a : InjectionAnswers) (s : Session) : Session × InjectionReport :=
  let r : InjectionReport := { threadStartRequested := mode = .startRendererThread }
  match rendererElf with
  | none => (s, r)
  | some image =>
    if pid ≤ 0 ∨ image.size < 64 then (s, r)
    else
      let original := if a.getAuth then s.authId else 0
      let s := s.log (.getAuth original)
      if original = 0 then (s, r)
      else
        let s := s.setAuth StableInjector.kPtraceAuthId a.setAuth
        if a.setAuth.rc ≠ 0 then (s, r)
        else
          let done := debug image pid a s { r with authChanged := true }
          restoreAuth a original done.1 done.2

/-! ## What is called -/

namespace SessionCall

/-- The call touches ShellUI, or sends it a signal. -/
def InTarget : SessionCall → Prop
  | resolve _ | load _ | payloadArgs _ | mmap _ _ | mprotect _ _ _ | copyin _ _ _ | remote _
  | copyout _ _ _ | kill _ => True
  | _ => False

/-- The call places something in ShellUI. -/
def IsPlacement : SessionCall → Prop
  | payloadArgs _ | mmap _ _ | mprotect _ _ _ | copyin _ _ _ => True
  | _ => False

/-- The call is one of the call of the stager, on the stack of a thread with these registers. -/
def IsCall (regs : Regs) : SessionCall → Prop
  | remote (.setregs written _) => written.rsp = regs.rsp ∧ written.rbp = regs.rbp
  | remote _ | copyout _ _ _ => True
  | _ => False

/-- The call fills the memory of ShellUI. -/
def Fills : SessionCall → Prop
  | load call => call.IsRemote
  | payloadArgs _ | mmap _ _ | mprotect _ _ _ | copyin _ _ _ => True
  | _ => False

theorem IsPlacement.inTarget {c : SessionCall} (h : c.IsPlacement) : c.InTarget := by
  cases c with
  | payloadArgs | mmap | mprotect | copyin => exact trivial
  | _ => exact h.elim

theorem IsCall.inTarget {c : SessionCall} {regs : Regs} (h : c.IsCall regs) : c.InTarget := by
  cases c with
  | remote | copyout => exact trivial
  | _ => exact h.elim

theorem IsCall.not_fills {c : SessionCall} {regs : Regs} (h : c.IsCall regs) : ¬c.Fills := by
  cases c with
  | remote | copyout => exact id
  | _ => exact h.elim

/-- The call lets ShellUI run. -/
def Releases : SessionCall → Prop
  | load (.ptContinue _) | remote (.ptContinue _) | detach _ _ | kill _ => True
  | _ => False

theorem IsPlacement.not_releases {c : SessionCall} (h : c.IsPlacement) : ¬c.Releases := by
  cases c with
  | payloadArgs | mmap | mprotect | copyin => exact id
  | _ => exact h.elim

/-- Whether ShellUI is held stopped after a call. -/
def holds (held : Bool) : SessionCall → Bool
  | attach ok => held || ok
  | load (.ptContinue ok) | remote (.ptContinue ok) => held && !ok
  | load (.waitpid ok) | remote (.waitpid ok) => held || ok
  | detach _ ok => held && !ok
  | kill _ => false
  | _ => held

theorem holds_of_not_releases {c : SessionCall} (h : ¬c.Releases) : holds true c = true := by
  cases c with
  | detach | kill => exact absurd trivial h
  | load call =>
    cases call with
    | ptContinue => exact absurd trivial h
    | _ => rfl
  | remote call =>
    cases call with
    | ptContinue => exact absurd trivial h
    | _ => rfl
  | _ => rfl

end SessionCall

/-- ShellUI is held stopped after the calls, given whether it was before them. -/
def heldAfter (held : Bool) (calls : List SessionCall) : Bool := calls.foldl SessionCall.holds held

theorem heldAfter_append (held : Bool) (l r : List SessionCall) :
    heldAfter held (l ++ r) = heldAfter (heldAfter held l) r := List.foldl_append

theorem heldAfter_of_not_releases {l : List SessionCall} (h : ∀ c ∈ l, ¬c.Releases) :
    heldAfter true l = true := by
  induction l with
  | nil => rfl
  | cons c l ih =>
    rw [heldAfter, List.foldl_cons, SessionCall.holds_of_not_releases (h c List.mem_cons_self)]
    exact ih fun c hc => h c (List.mem_cons_of_mem _ hc)

/-- The calls that fill the memory of ShellUI are made while it is held. -/
def FillsHeld (held : Bool) (calls : List SessionCall) : Prop :=
  ∀ pre c post, calls = pre ++ c :: post → c.Fills → heldAfter held pre = true

theorem FillsHeld.of_not_fills {held : Bool} {l : List SessionCall} (h : ∀ c ∈ l, ¬c.Fills) :
    FillsHeld held l := by
  rintro pre c post rfl hc
  exact absurd hc (h c (by simp))

theorem FillsHeld.of_not_releases {l : List SessionCall} (h : ∀ c ∈ l, ¬c.Releases) :
    FillsHeld true l := by
  rintro pre c post rfl -
  exact heldAfter_of_not_releases fun c' hc' => h c' (List.mem_append_left _ hc')

theorem FillsHeld.append {held : Bool} {l r : List SessionCall} (hl : FillsHeld held l)
    (hr : FillsHeld (heldAfter held l) r) : FillsHeld held (l ++ r) := by
  intro pre c post h hc
  rcases List.append_eq_append_iff.1 h with ⟨mid, rfl, hmid⟩ | ⟨mid, rfl, hmid⟩
  · rw [heldAfter_append]
    exact hr mid c post hmid hc
  · cases mid with
    | nil =>
      rw [List.append_nil] at hr
      exact hr [] c post hmid.symm hc
    | cons c' mid =>
      obtain ⟨rfl, -⟩ := List.cons.inj hmid
      exact hl pre c mid rfl hc

/-! ## The load -/

/-- A target that was stopped again is held. -/
theorem Restopped.held {held : Bool} {calls : List LoadCall} (h : Restopped calls) :
    heldAfter held (calls.map .load) = true := by
  obtain ⟨pre, post, rfl, -, hpost⟩ := h
  rw [List.map_append, List.map_append, heldAfter_append, heldAfter_append]
  have hstopped : heldAfter (heldAfter held (pre.map .load))
      ([LoadCall.kill true, .waitpid true].map .load) = true := Bool.or_true _
  rw [hstopped]
  refine heldAfter_of_not_releases fun c hc => ?_
  obtain ⟨call, hcall, rfl⟩ := List.mem_map.1 hc
  cases call with
  | ptContinue ok => exact absurd hcall (hpost ok)
  | _ => exact id

section Load

variable {ld : Elfldr} {elf : Memory} {a : LoadAnswers}

/-- There is an entry only if every step succeeded; the target was stopped again then. -/
theorem load_of_entry (h : (commonfpsStableElfldrLoad ld elf a).2 ≠ 0) :
    ElfAccepted elf ∧ a.ptMmap ≠ -1 ∧ EveryStep elf a ∧
      (commonfpsStableElfldrLoad ld elf a).2 = entryAddress a.ptMmap elf ∧
      Restopped (commonfpsStableElfldrLoad ld elf a).1 := by
  by_cases haccepted : ElfAccepted elf
  swap
  · rw [commonfpsStableElfldrLoad, if_pos haccepted] at h
    exact absurd rfl h
  by_cases hbase : a.ptMmap = -1
  · rw [commonfpsStableElfldrLoad, if_neg (not_not.2 haccepted)] at h
    dsimp only at h
    rw [if_pos hbase] at h
    exact absurd rfl h
  obtain ⟨prepare, remote, error, -, hremote, -, herror, heq⟩ := load_eq ld haccepted hbase
  rw [heq] at h ⊢
  cases error with
  | true => exact absurd rfl h
  | false =>
    have hstep := herror.1 rfl
    refine ⟨haccepted, hbase, hstep, rfl, ?_⟩
    refine ⟨[.ptMmap (baseSize ld.toPageRounding elf) a.ptMmap, .ptContinue a.ptContinue,
        .mmap (baseSize ld.toPageRounding elf) a.mmap] ++ prepare,
      remote ++ callsAfter a (baseSize ld.toPageRounding elf) false, congrArg (· ++ _) ?_, ?_,
      fun ok => not_ptContinue_of_mem hremote⟩
    · rw [callsBefore, if_pos hstep.ptContinue, Loader.stopCalls, if_pos hstep.stop.1, hstep.stop.2]
    · simp [hstep.ptContinue]

/-- The pages are filled only while the target is held. -/
theorem fillsHeld_load : FillsHeld true ((commonfpsStableElfldrLoad ld elf a).1.map .load) := by
  intro pre c post h hc
  obtain ⟨pre, rest, hsplit, rfl, hrest⟩ := List.map_eq_append_iff.1 h
  obtain ⟨call, post, rfl, rfl, -⟩ := List.map_eq_cons_iff.1 hrest
  refine Restopped.held ?_
  by_cases haccepted : ElfAccepted elf
  · by_cases hbase : a.ptMmap = -1
    · rw [commonfpsStableElfldrLoad, if_neg (not_not.2 haccepted)] at hsplit
      dsimp only at hsplit
      rw [if_pos hbase] at hsplit
      have hmem : call ∈ pre ++ call :: post := by simp
      rw [← hsplit] at hmem
      cases List.mem_singleton.1 hmem
      exact hc.elim
    · exact (load_mapped ld a haccepted hbase).1 pre call post hsplit hc
  · rw [commonfpsStableElfldrLoad, if_pos haccepted] at hsplit
    exact absurd hsplit (by simp)

end Load

namespace Session

variable {image : Image} {pid : ℤ} {a : InjectionAnswers} {entry : UInt64} {s : Session}
  {r : InjectionReport}

/-- The report keeps what was found before the stager. -/
structure Keeps (r r' : InjectionReport) : Prop where
  elfLoaded : r'.elfLoaded = r.elfLoaded
  payloadArgsReady : r'.payloadArgsReady = r.payloadArgsReady
  authRestored : r'.authRestored = r.authRestored

/-- The report says nothing of the stager, or what the target has of it. -/
def Reads (t : Target) (r r' : InjectionReport) : Prop :=
  (r'.bootstrapStarted = r.bootstrapStarted ∧ r'.pthreadCreateOk = r.pthreadCreateOk) ∨
    (t.functions.pthreadCreateRc ≠ -777 ∧ r'.bootstrapStarted = true ∧
      r'.pthreadCreateRc = t.functions.pthreadCreateRc ∧
      r'.pthreadCreateOk = (r.threadStartRequested && t.functions.pthreadCreateRc = 0))

/-- The target after the call of the stager. -/
def afterCall (pid : ℤ) (a : InjectionAnswers) (entry : UInt64) (threadStartRequested : Bool)
    (t : Target) : Target :=
  touched a .readBack (callUntilBreakpointOnTargetStack pid a.remoteStager
    (fun i => if i.val = 0 then a.remoteFunctions else 0) a.call
    { t with functions := functions a entry threadStartRequested }).1

/-- A part of a session with a renderer that was loaded: it places what is needed, and then calls
    the stager, or it has not got so far. -/
structure Leads (pid : ℤ) (a : InjectionAnswers) (entry : UInt64) (s : Session) (r : InjectionReport)
    (done : Session × InjectionReport) : Prop where
  trace : ∃ placed called, done.1.trace = s.trace ++ (placed ++ called) ∧
    (∀ c ∈ placed, c.IsPlacement) ∧ ∀ c ∈ called, c.IsCall s.target.regs
  authId : done.1.authId = s.authId
  keeps : Keeps r done.2
  target : (done.1.target = s.target ∧ done.2.bootstrapStarted = r.bootstrapStarted ∧
      done.2.pthreadCreateOk = r.pthreadCreateOk) ∨
    (done.1.target = afterCall pid a entry r.threadStartRequested s.target ∧
      Reads done.1.target r done.2)

theorem Keeps.refl (r : InjectionReport) : Keeps r r := ⟨rfl, rfl, rfl⟩

theorem Leads.stop {s' : Session} (calls : List SessionCall) (htrace : s'.trace = s.trace ++ calls)
    (hcalls : ∀ c ∈ calls, c.IsPlacement) (hauth : s'.authId = s.authId) (htarget : s'.target = s.target) :
    Leads pid a entry s r (s', r) :=
  ⟨⟨calls, [], by rw [List.append_nil, htrace], hcalls, nofun⟩, hauth, .refl r,
    .inl ⟨htarget, rfl, rfl⟩⟩

/-- What is placed first comes first. -/
theorem Leads.after {s' : Session} {r' : InjectionReport} {done : Session × InjectionReport}
    (h : Leads pid a entry s' r' done) (calls : List SessionCall) (htrace : s'.trace = s.trace ++ calls)
    (hcalls : ∀ c ∈ calls, c.IsPlacement) (hauth : s'.authId = s.authId) (htarget : s'.target = s.target)
    (hkeeps : Keeps r r') (hstarted : r'.bootstrapStarted = r.bootstrapStarted)
    (hok : r'.pthreadCreateOk = r.pthreadCreateOk)
    (hrequested : r'.threadStartRequested = r.threadStartRequested) : Leads pid a entry s r done := by
  obtain ⟨⟨placed, called, htrace', hplaced, hcalled⟩, hauth', hkeeps', htarget'⟩ := h
  refine ⟨⟨calls ++ placed, called, ?_, ?_, ?_⟩, hauth'.trans hauth, ?_, ?_⟩
  · rw [htrace', htrace, List.append_assoc, List.append_assoc]
  · exact fun c hc => (List.mem_append.1 hc).elim (hcalls c) (hplaced c)
  · exact htarget ▸ hcalled
  · exact ⟨hkeeps'.elfLoaded.trans hkeeps.elfLoaded,
      hkeeps'.payloadArgsReady.trans hkeeps.payloadArgsReady,
      hkeeps'.authRestored.trans hkeeps.authRestored⟩
  · rw [Reads, hstarted, hok, hrequested, htarget] at htarget'
    exact htarget'

theorem readBack_reads : Keeps r (readBack a s r).2 ∧ Reads s.target r (readBack a s r).2 := by
  rw [readBack]
  dsimp only
  split_ifs with h
  · exact ⟨⟨rfl, rfl, rfl⟩, .inr ⟨h.2, rfl, rfl, rfl⟩⟩
  · exact ⟨.refl r, .inl ⟨rfl, rfl⟩⟩

theorem callStager_spec (pid : ℤ) (a : InjectionAnswers) (entry : UInt64) {t : Target}
    (ht : s.target = { t with functions := functions a entry r.threadStartRequested }) :
    let done := callStager pid a s r
    ∃ called, done.1.trace = s.trace ++ called ∧ (∀ c ∈ called, c.IsCall t.regs) ∧
      done.1.authId = s.authId ∧ Keeps r done.2 ∧
      done.1.target = afterCall pid a entry r.threadStartRequested t ∧
      Reads done.1.target r done.2 := by
  obtain ⟨hkeeps, hreads⟩ := readBack_reads (a := a)
    (s := { s with
      target := (callUntilBreakpointOnTargetStack pid a.remoteStager
        (fun i => if i.val = 0 then a.remoteFunctions else 0) a.call s.target).1
      trace := s.trace ++ (callUntilBreakpointOnTargetStack pid a.remoteStager
        (fun i => if i.val = 0 then a.remoteFunctions else 0) a.call s.target).2.1.map .remote })
    (r := { r with targetStackPreserved := true })
  rw [callStager, ht] at *
  refine ⟨_, List.append_assoc _ _ _, fun c hc => ?_, rfl,
    ⟨hkeeps.elfLoaded, hkeeps.payloadArgsReady, hkeeps.authRestored⟩, rfl, hreads⟩
  rcases List.mem_append.1 hc with hc | hc
  · obtain ⟨call, hcall, rfl⟩ := List.mem_map.1 hc
    cases call with
    | setregs regs rc =>
      exact keepsStack_of_written
        (t := { t with functions := functions a entry r.threadStartRequested })
        (List.mem_filterMap.2 ⟨_, hcall, rfl⟩)
    | _ => exact trivial
  · rw [List.mem_singleton.1 hc]
    exact trivial

theorem leads_placeFunctions : Leads pid a entry s r (placeFunctions pid a entry s r) := by
  rw [placeFunctions]
  split_ifs with h₁ h₂
  · exact .stop _ rfl (by simp [SessionCall.IsPlacement]) rfl rfl
  · refine .stop [.mmap functionsSize a.remoteFunctions,
      .copyin a.remoteFunctions functionsSize a.copyinFunctions] ?_ ?_ rfl rfl
    · simp [Session.log]
    · simp [SessionCall.IsPlacement]
  · -- The stager is called with what was placed.
    obtain ⟨called, htrace, hcalled, hauth, hkeeps, htarget, hreads⟩ := callStager_spec pid a entry
      (t := s.target)
      (s := { (s.log (.mmap functionsSize a.remoteFunctions)).log
            (.copyin a.remoteFunctions functionsSize a.copyinFunctions) with
          target := { s.target with functions := functions a entry r.threadStartRequested } })
      (r := { r with remoteFunctionsReady := true }) rfl
    refine ⟨⟨[.mmap functionsSize a.remoteFunctions,
      .copyin a.remoteFunctions functionsSize a.copyinFunctions], called, ?_, ?_, hcalled⟩, hauth,
      ⟨hkeeps.elfLoaded, hkeeps.payloadArgsReady, hkeeps.authRestored⟩, .inr ⟨htarget, hreads⟩⟩
    · refine htrace.trans ?_
      simp [Session.log]
    · simp [SessionCall.IsPlacement]

theorem leads_placeStager (image : Image) (pid : ℤ) (a : InjectionAnswers) (entry : UInt64) :
    Leads pid a entry s r (placeStager image pid a entry s r) := by
  rw [placeStager]
  split_ifs with h₁ h₂ h₃ h₄
  · exact .stop [] (List.append_nil _).symm nofun rfl rfl
  · exact .stop _ rfl (by simp [SessionCall.IsPlacement]) rfl rfl
  · refine .stop [.mmap image.stagerSize a.remoteStager,
      .mprotect a.remoteStager image.stagerSize a.mprotect] ?_ ?_ rfl rfl
    · simp [Session.log]
    · simp [SessionCall.IsPlacement]
  · refine .stop [.mmap image.stagerSize a.remoteStager,
      .mprotect a.remoteStager image.stagerSize a.mprotect,
      .copyin a.remoteStager image.stagerSize a.copyinStager] ?_ ?_ rfl rfl
    · simp [Session.log]
    · simp [SessionCall.IsPlacement]
  · refine leads_placeFunctions.after [.mmap image.stagerSize a.remoteStager,
      .mprotect a.remoteStager image.stagerSize a.mprotect,
      .copyin a.remoteStager image.stagerSize a.copyinStager] ?_ ?_ rfl rfl ⟨rfl, rfl, rfl⟩ rfl rfl rfl
    · simp [Session.log]
    · simp [SessionCall.IsPlacement]

/-- The report says nothing of the stager that was not said before. -/
def Silent (r r' : InjectionReport) : Prop :=
  r'.bootstrapStarted = r.bootstrapStarted ∧ r'.pthreadCreateOk = r.pthreadCreateOk

/-- What a session that is attached does: it ends before the load, or in it, or after it. -/
structure Inside (image : Image) (pid : ℤ) (a : InjectionAnswers) (s : Session) (r : InjectionReport)
    (done : Session × InjectionReport) : Prop where
  authId : done.1.authId = s.authId
  authRestored : done.2.authRestored = r.authRestored
  elfLoaded : done.2.elfLoaded = true → 0 < (loaded image a).2.toInt64
  ends : (done.1.trace = s.trace ++ [.resolve a.pthreadCreate] ∧
      done.1.target = touched a .resolve s.target ∧ Silent r done.2) ∨
    ∃ placed called, done.1.trace = s.trace ++
        (.resolve a.pthreadCreate :: ((loaded image a).1.map .load ++ (placed ++ called))) ∧
      (∀ c ∈ placed, c.IsPlacement) ∧
      (∀ c ∈ called, c.IsCall (resumed image a (touched a .resolve s.target)).regs) ∧
      (placed = [] ∧ called = [] ∨ 0 < (loaded image a).2.toInt64) ∧
      (done.1.target = resumed image a (touched a .resolve s.target) ∧ Silent r done.2 ∨
        done.2.elfLoaded = true ∧ done.2.payloadArgsReady = true ∧
          done.1.target = afterCall pid a (loaded image a).2 r.threadStartRequested
            (resumed image a (touched a .resolve s.target)) ∧
          Reads done.1.target r done.2)

theorem inside_loadRenderer (hr : r.elfLoaded = false) :
    Inside image pid a s r (loadRenderer image pid a
      { s with
        target := touched a .resolve s.target
        trace := s.trace ++ [.resolve a.pthreadCreate] } r) := by
  rw [loadRenderer]
  dsimp only
  split_ifs with hentry hargs
  · refine ⟨rfl, rfl, fun h => absurd (hr.symm.trans h) (by decide), .inr ⟨[], [], ?_, nofun, nofun,
      .inl ⟨rfl, rfl⟩, .inl ⟨rfl, rfl, rfl⟩⟩⟩
    simp
  · refine ⟨rfl, rfl, fun _ => Int64.not_le.1 hentry,
      .inr ⟨[.payloadArgs a.payloadArgs], [], ?_, ?_, nofun,
      .inr (Int64.not_le.1 hentry), .inl ⟨rfl, rfl, rfl⟩⟩⟩
    · simp [Session.log]
    · simp [SessionCall.IsPlacement]
  · obtain ⟨⟨placed, called, htrace, hplaced, hcalled⟩, hauth, hkeeps, htarget⟩ :=
      leads_placeStager image pid a (loaded image a).2
        (s := Session.log { s with
          target := resumed image a (touched a .resolve s.target)
          trace := (s.trace ++ [.resolve a.pthreadCreate]) ++ (loaded image a).1.map .load }
          (.payloadArgs a.payloadArgs))
        (r := { r with
          traceContinueSeen := decide (.ptContinue true ∈ (loaded image a).1)
          traceStopSeen := decide (.waitpid true ∈ (loaded image a).1)
          elfLoaded := true
          payloadArgsReady := true })
    refine ⟨hauth, hkeeps.authRestored, fun _ => Int64.not_le.1 hentry,
      .inr ⟨.payloadArgs a.payloadArgs :: placed, called, ?_, ?_, hcalled,
        .inr (Int64.not_le.1 hentry), ?_⟩⟩
    · refine htrace.trans ?_
      simp [Session.log]
    · intro c hc
      rcases List.mem_cons.1 hc with rfl | hc
      · exact trivial
      · exact hplaced c hc
    · exact htarget.imp_right fun htarget => ⟨hkeeps.elfLoaded, hkeeps.payloadArgsReady, htarget⟩

theorem inside_attached (image : Image) (pid : ℤ) (hr : r.elfLoaded = false) :
    Inside image pid a s r (attached image pid a s r) := by
  rw [attached]
  split_ifs with h
  · exact ⟨rfl, rfl, fun h => absurd (hr.symm.trans h) (by decide), .inl ⟨rfl, rfl, rfl, rfl⟩⟩
  · exact inside_loadRenderer hr

/-- The credentials that are read at the end are those that the controller has. -/
theorem restoreAuth_spec {original : UInt64} (h : original ≠ 0) :
    (∃ last, (restoreAuth a original s r).1.trace =
        s.trace ++ (.setAuth original a.restoreAuth.rc :: last) ∧
      (last = [] ∨ ∃ read, last = [.getAuth read])) ∧
    (restoreAuth a original s r).1.target = s.target ∧
    (r.authRestored = false → (restoreAuth a original s r).2.authRestored = true →
      (restoreAuth a original s r).1.authId = original) ∧
    ((restoreAuth a original s r).2.elfLoaded = r.elfLoaded ∧
      (restoreAuth a original s r).2.payloadArgsReady = r.payloadArgsReady ∧
      (restoreAuth a original s r).2.bootstrapStarted = r.bootstrapStarted ∧
      (restoreAuth a original s r).2.pthreadCreateOk = r.pthreadCreateOk) := by
  rw [restoreAuth]
  dsimp only
  split_ifs with hrc hread
  · refine ⟨⟨[.getAuth _], List.append_assoc _ _ _, .inr ⟨_, rfl⟩⟩, rfl,
      fun _ h => ?_, rfl, rfl, rfl, rfl⟩
    exact of_decide_eq_true h
  · refine ⟨⟨[.getAuth _], List.append_assoc _ _ _, .inr ⟨_, rfl⟩⟩, rfl,
      fun _ hzero => ?_, rfl, rfl, rfl, rfl⟩
    exact absurd (of_decide_eq_true hzero).symm h
  · exact ⟨⟨[], rfl, .inl rfl⟩, rfl, fun h₁ h₂ => absurd (h₁.symm.trans h₂) (by decide),
      rfl, rfl, rfl, rfl⟩

end Session

open Session

section Session

variable {pid : ℤ} {rendererElf : Option Image} {mode : StableInjectionMode} {a : InjectionAnswers}
  {s : Session}

/-- A session that has just attached. -/
def Session.began (a : InjectionAnswers) (s : Session) : Session where
  authId := if a.setAuth.applied then StableInjector.kPtraceAuthId else s.authId
  target := s.target
  trace := s.trace ++ [.getAuth s.authId, .setAuth StableInjector.kPtraceAuthId 0, .attach true]

/-- Its report. -/
def StableInjectionMode.began (mode : StableInjectionMode) : InjectionReport where
  authChanged := true
  attached := true
  threadStartRequested := mode = .startRendererThread

/-- A session that does not attach leaves ShellUI alone; one that does ends with the detach, and with
    giving the credentials back. -/
theorem inject_cases (pid : ℤ) (rendererElf : Option Image) (mode : StableInjectionMode)
    (a : InjectionAnswers) (s : Session) :
    let done := injectShelluiStable pid rendererElf mode a s
    ((∃ calls, done.1.trace = s.trace ++ calls ∧ ∀ c ∈ calls,
          (∃ authId, c = .getAuth authId) ∨ (∃ authId rc, c = .setAuth authId rc) ∨
            c = .attach false) ∧
        done.1.target = s.target ∧ done.2.elfLoaded = false ∧ done.2.bootstrapStarted = false ∧
        done.2.pthreadCreateOk = false ∧ (done.2.authRestored = true → done.1.authId = s.authId)) ∨
    ∃ image inside last, rendererElf = some image ∧
      Inside image pid a (s.began a) mode.began inside ∧
      done.1.trace = inside.1.trace ++ (.detach inside.1.target.regs a.detach :: .kill pid ::
        .setAuth s.authId a.restoreAuth.rc :: last) ∧
      (last = [] ∨ ∃ read, last = [.getAuth read]) ∧
      done.1.target = inside.1.target ∧ done.2.elfLoaded = inside.2.elfLoaded ∧
      done.2.payloadArgsReady = inside.2.payloadArgsReady ∧
      done.2.bootstrapStarted = inside.2.bootstrapStarted ∧
      done.2.pthreadCreateOk = inside.2.pthreadCreateOk ∧
      (done.2.authRestored = true → done.1.authId = s.authId) := by
  cases rendererElf with
  | none => exact .inl ⟨⟨[], (List.append_nil _).symm, nofun⟩, rfl, rfl, rfl, rfl, nofun⟩
  | some image =>
    rw [injectShelluiStable]
    by_cases hargs : pid ≤ 0 ∨ image.size < 64
    · rw [if_pos hargs]
      exact .inl ⟨⟨[], (List.append_nil _).symm, nofun⟩, rfl, rfl, rfl, rfl, nofun⟩
    by_cases hzero : (if a.getAuth then s.authId else 0) = 0
    · rw [if_neg hargs]
      dsimp only
      rw [if_pos hzero]
      exact .inl ⟨⟨[.getAuth _], rfl, by simp⟩, rfl, rfl, rfl, rfl, nofun⟩
    have horiginal : (if a.getAuth then s.authId else 0) = s.authId := by
      split_ifs at hzero ⊢ with hget
      · rfl
      · exact absurd rfl hzero
    rw [if_neg hargs]
    dsimp only
    rw [if_neg hzero, horiginal]
    rw [horiginal] at hzero
    by_cases hset : a.setAuth.rc ≠ 0
    · rw [if_pos hset]
      refine .inl ⟨⟨[.getAuth _, .setAuth _ _], List.append_assoc _ _ _, by simp⟩, rfl, rfl,
        rfl, rfl, nofun⟩
    rw [if_neg hset, debug]
    dsimp only
    by_cases hattach : a.attach = true
    · rw [if_pos hattach]
      have hbegan : ((s.log (.getAuth s.authId)).setAuth StableInjector.kPtraceAuthId a.setAuth).log
          (.attach a.attach) = s.began a := by
        simp [Session.log, Session.setAuth, Session.began, not_not.1 hset, hattach]
      rw [hbegan]
      have hinside := inside_attached (a := a) (s := s.began a) (r := mode.began) image pid rfl
      change Inside image pid a (s.began a) mode.began (attached image pid a (s.began a) mode.began)
        at hinside
      obtain ⟨⟨last, htrace, hlast⟩, htarget, hauth, hreport⟩ := restoreAuth_spec (a := a)
        (s := ((attached image pid a (s.began a) mode.began).1.log (.detach
          (attached image pid a (s.began a) mode.began).1.target.regs a.detach)).log (.kill pid))
        (r := { (attached image pid a (s.began a) mode.began).2 with detached := a.detach }) hzero
      refine .inr ⟨image, attached image pid a (s.began a) mode.began, last, rfl, hinside, ?_, hlast,
        htarget, hreport.1, hreport.2.1, hreport.2.2.1, hreport.2.2.2, hauth hinside.authRestored⟩
      refine htrace.trans ?_
      simp only [Session.log, List.append_assoc, List.cons_append, List.nil_append]
    · rw [if_neg hattach]
      obtain ⟨⟨last, htrace, hlast⟩, htarget, hauth, hloaded, hargs, hstarted, hok⟩ :=
        restoreAuth_spec (a := a)
          (s := ((s.log (.getAuth s.authId)).setAuth StableInjector.kPtraceAuthId a.setAuth).log
            (.attach a.attach))
          (r := { authChanged := true, threadStartRequested := mode = .startRendererThread }) hzero
      refine .inl ⟨⟨[.getAuth s.authId, .setAuth StableInjector.kPtraceAuthId a.setAuth.rc,
        .attach a.attach] ++ .setAuth s.authId a.restoreAuth.rc :: last, ?_, ?_⟩, htarget, hloaded,
        hstarted, hok, hauth rfl⟩
      · refine htrace.trans ?_
        simp [Session.log, Session.setAuth]
      · rw [eq_false_of_ne_true hattach]
        rcases hlast with rfl | ⟨read, rfl⟩ <;> simp

end Session

/-- Attached, ShellUI is held; it is held again when the load has returned an entry. -/
theorem Session.Inside.calls {image : Image} {pid : ℤ} {a : InjectionAnswers} {s : Session}
    {r : InjectionReport} {done : Session × InjectionReport} (h : Inside image pid a s r done) :
    ∃ calls, done.1.trace = s.trace ++ calls ∧ (∀ c ∈ calls, c.InTarget) ∧ FillsHeld true calls := by
  rcases h.ends with ⟨htrace, -⟩ | ⟨placed, called, htrace, hplaced, hcalled, hentry, -⟩
  · refine ⟨_, htrace, fun c hc => ?_, .of_not_fills fun c hc => ?_⟩
    · rw [List.mem_singleton.1 hc]
      exact trivial
    · rw [List.mem_singleton.1 hc]
      exact id
  · refine ⟨_, htrace, fun c hc => ?_, ?_⟩
    · rcases List.mem_cons.1 hc with rfl | hc
      · exact trivial
      · rcases List.mem_append.1 hc with hc | hc
        · obtain ⟨call, -, rfl⟩ := List.mem_map.1 hc
          exact trivial
        · exact (List.mem_append.1 hc).elim (fun hc => (hplaced c hc).inTarget)
            fun hc => (hcalled c hc).inTarget
    · refine .append (l := [.resolve a.pthreadCreate]) (.of_not_fills (by simp [SessionCall.Fills])) ?_
      change FillsHeld true ((loaded image a).1.map .load ++ (placed ++ called))
      rcases hentry with ⟨rfl, rfl⟩ | hpos
      · rw [List.append_nil, List.append_nil]
        exact fillsHeld_load
      · have hne : (loaded image a).2 ≠ 0 := by
          intro hzero
          rw [hzero] at hpos
          exact absurd hpos (by decide)
        refine .append fillsHeld_load ?_
        have hheld : heldAfter true ((loaded image a).1.map .load) = true :=
          (load_of_entry hne).2.2.2.2.held
        rw [hheld]
        refine .append (.of_not_releases fun c hc => (hplaced c hc).not_releases) (.of_not_fills ?_)
        exact fun c hc => (hcalled c hc).not_fills

/-- The controller has the credentials that it had, if the report says so. -/
theorem injection_auth (pid : ℤ) (rendererElf : Option Image) (mode : StableInjectionMode)
    (a : InjectionAnswers) (s : Session)
    (h : (injectShelluiStable pid rendererElf mode a s).2.authRestored = true) :
    (injectShelluiStable pid rendererElf mode a s).1.authId = s.authId := by
  rcases inject_cases pid rendererElf mode a s with
    ⟨-, -, -, -, -, hauth⟩ | ⟨image, inside, last, -, -, -, -, -, -, -, -, -, hauth⟩
  · exact hauth h
  · exact hauth h

/-- ShellUI is touched only between the one attach and the one detach, but for the signal to go on
    that it is sent right after the detach; its memory is filled only while it is held stopped. The
    credentials of a debugger are given back after that, and if the report says so, the controller
    has those that it had. -/
theorem injection_contract (pid : ℤ) (rendererElf : Option Image) (mode : StableInjectionMode)
    (a : InjectionAnswers) (s : Session) :
    let done := injectShelluiStable pid rendererElf mode a s
    (∃ before inside after, done.1.trace = s.trace ++ (before ++ (inside ++ after)) ∧
      (∀ c ∈ inside, c.InTarget) ∧ (∀ c ∈ before, ¬c.InTarget) ∧
      FillsHeld false (before ++ (inside ++ after)) ∧
      ((inside = [] ∧ (∀ c ∈ after, ¬c.InTarget) ∧ .attach true ∉ before ++ after) ∨
        ∃ left last, before = [.getAuth s.authId, .setAuth StableInjector.kPtraceAuthId 0, .attach true] ∧
          after = .detach left a.detach :: .kill pid :: .setAuth s.authId a.restoreAuth.rc :: last ∧
          ∀ c ∈ last, ∃ read, c = .getAuth read)) ∧
    (done.2.authRestored = true → done.1.authId = s.authId) := by
  rcases inject_cases pid rendererElf mode a s with
    ⟨⟨calls, htrace, hcalls⟩, -, -, -, -, hauth⟩ |
    ⟨image, inside, last, -, hinside, htrace, hlast, -, -, -, -, -, hauth⟩
  · have hout : ∀ c ∈ calls, ¬c.InTarget ∧ ¬c.Fills ∧ c ≠ .attach true := by
      intro c hc
      rcases hcalls c hc with ⟨authId, rfl⟩ | ⟨authId, rc, rfl⟩ | rfl
      · exact ⟨id, id, nofun⟩
      · exact ⟨id, id, nofun⟩
      · exact ⟨id, id, nofun⟩
    refine ⟨⟨calls, [], [], by simpa using htrace, nofun, fun c hc => (hout c hc).1, ?_,
      .inl ⟨rfl, nofun, ?_⟩⟩, hauth⟩
    · rw [List.nil_append, List.append_nil]
      exact .of_not_fills fun c hc => (hout c hc).2.1
    · simpa using fun h => (hout _ h).2.2 rfl
  · obtain ⟨calls, hinner, hcalls, hfills⟩ := hinside.calls
    have hlast' : ∀ c ∈ last, ∃ read, c = .getAuth read := by
      rcases hlast with rfl | ⟨read, rfl⟩
      · exact nofun
      · exact fun c hc => ⟨read, List.mem_singleton.1 hc⟩
    have hclosing : ∀ c ∈ .detach inside.1.target.regs a.detach :: .kill pid ::
        .setAuth s.authId a.restoreAuth.rc :: last, ¬c.Fills := by
      intro c hc
      simp only [List.mem_cons] at hc
      rcases hc with rfl | rfl | rfl | hc
      · exact id
      · exact id
      · exact id
      · obtain ⟨read, rfl⟩ := hlast' c hc
        exact id
    refine ⟨⟨[.getAuth s.authId, .setAuth StableInjector.kPtraceAuthId 0, .attach true],
      calls, _, ?_, hcalls, ?_, ?_,
      .inr ⟨inside.1.target.regs, last, rfl, rfl, hlast'⟩⟩, hauth⟩
    · rw [htrace, hinner, Session.began]
      simp only [List.append_assoc]
    · intro c hc
      simp only [List.mem_cons, List.not_mem_nil, or_false] at hc
      rcases hc with rfl | rfl | rfl <;> exact id
    · refine .append (.of_not_fills ?_) (.append hfills (.of_not_fills hclosing))
      intro c hc
      simp only [List.mem_cons, List.not_mem_nil, or_false] at hc
      rcases hc with rfl | rfl | rfl <;> exact id

/-! ## The thread -/

/-- A thread that is not in the stager, or done with it, starts nothing. -/
theorem Target.run_threads {t : Target} (h : t.stager = none ∨ t.stager = some .breakpoint)
    (createRc : Int32) (steps : ℕ) (regs : Regs) :
    (t.run createRc steps regs).threads = t.threads := by
  have hstep : t.step createRc = t := by
    rcases h with h | h <;> rw [Target.step, h]
  rw [Target.run, Function.iterate_fixed hstep]

/-- However the call of the stager ends, the target has entered it at most. -/
theorem entered_called (pid : ℤ) (a : InjectionAnswers) (entry : UInt64) (requested : Bool) {t : Target}
    (h : t.stager = none) :
    (afterCall pid a entry requested t).Entered (functions a entry requested) t.threads
      a.call.createRc := by
  have hentered (regs : Regs) (stager : Option Stager) (hstager : ∀ p ∈ stager, p = .creating) :
      Target.Entered (functions a entry requested) t.threads a.call.createRc
        ⟨regs, stager, functions a entry requested, t.threads⟩ := .creating hstager
  have hnone (p : Stager) (hp : p ∈ t.stager) : p = .creating := absurd hp (h ▸ Option.not_mem_none p)
  have hset (regs : Regs) (answer : SetAnswer) :
      (Target.setregs regs (some .creating) answer
        { t with functions := functions a entry requested }).Entered (functions a entry requested)
          t.threads a.call.createRc := by
    rw [Target.setregs]
    split_ifs
    · exact hentered regs _ fun p hp => (Option.some.inj hp).symm
    · exact hentered t.regs _ hnone
  rw [afterCall]
  rcases callUntilBreakpoint_cases pid a.remoteStager (fun i => if i.val = 0 then a.remoteFunctions else 0)
      a.call { t with functions := functions a entry requested } with
    ⟨htarget, -, -⟩ | ⟨-, htarget, -, -⟩ | ⟨-, htarget, -, -⟩
  · rw [htarget]
    exact (hentered t.regs _ hnone).withRegs _
  · rw [htarget]
    exact (hset _ _).withRegs _
  · rw [htarget]
    exact (((hset _ _).run _ _).setregs _ _).withRegs _

theorem started_functions (a : InjectionAnswers) (entry : UInt64) (requested : Bool) :
    (functions a entry requested).started a.call.createRc =
      if requested ∧ a.call.createRc = 0 then [⟨entry, a.payloadArgs⟩] else [] := by
  cases requested <;> simp [functions, RemoteBootstrapFunctions.started]

/-- A session starts one thread at most, also where the thread that it borrowed runs on in the stager
    afterwards; and only if the report says that every step of the load succeeded. What the report
    says of the thread is so. -/
theorem injection_thread (pid : ℤ) (rendererElf : Option Image) (mode : StableInjectionMode)
    (a : InjectionAnswers) (s : Session) (hs : s.target.stager = none) (steps : ℕ) (regs : Regs) :
    let done := injectShelluiStable pid rendererElf mode a s
    let left := done.1.target.run a.call.createRc steps regs
    (left.threads = s.target.threads ∨ ∃ image, rendererElf = some image ∧
      mode = .startRendererThread ∧ done.2.elfLoaded = true ∧ done.2.payloadArgsReady = true ∧
      ElfAccepted image.elf ∧ EveryStep image.elf a.load ∧ left.threads =
        s.target.threads ++ [⟨entryAddress a.load.ptMmap image.elf, a.payloadArgs⟩]) ∧
    (done.2.pthreadCreateOk = true → ∃ image, rendererElf = some image ∧
      done.2.elfLoaded = true ∧ left.threads =
        s.target.threads ++ [⟨entryAddress a.load.ptMmap image.elf, a.payloadArgs⟩]) := by
  rcases inject_cases pid rendererElf mode a s with
    ⟨-, htarget, -, -, hok, -⟩ |
    ⟨image, inside, last, himage, hinside, -, -, htarget, hloaded, hargs, -, hok, -⟩
  · dsimp only
    rw [htarget, hok]
    exact ⟨.inl (Target.run_threads (.inl hs) _ _ _), nofun⟩
  · dsimp only
    rw [htarget, hok, hloaded, hargs]
    rcases hinside.ends with ⟨-, hkept, -, hnot⟩ | ⟨-, -, -, -, -, -, ⟨hkept, -, hnot⟩ |
      ⟨helf, hready, hcalled, hreads⟩⟩
    · rw [hkept, hnot]
      exact ⟨.inl (Target.run_threads (t := touched a .resolve s.target) (.inl hs) _ _ _), nofun⟩
    · rw [hkept, hnot]
      exact ⟨.inl (Target.run_threads (t := resumed image a (touched a .resolve s.target)) (.inl hs) _ _ _),
        nofun⟩
    · have hne : (loaded image a).2 ≠ 0 := by
        intro hzero
        have hpos := hinside.elfLoaded helf
        rw [hzero] at hpos
        exact absurd hpos (by decide)
      obtain ⟨haccepted, -, hstep, hentry, -⟩ := load_of_entry hne
      have hentered := entered_called pid a (loaded image a).2 mode.began.threadStartRequested
        (t := resumed image a (touched a .resolve (s.began a).target)) hs
      have hthreads : (resumed image a (touched a .resolve (s.began a).target)).threads =
          s.target.threads := rfl
      rw [hthreads, ← hcalled] at hentered
      have hstarted := started_functions a (loaded image a).2 mode.began.threadStartRequested
      have hentry : (loaded image a).2 = entryAddress a.load.ptMmap image.elf := hentry
      refine ⟨?_, fun hok => ?_⟩
      · rcases (hentered.run steps regs).threads with hnone | hsome
        · exact .inl hnone
        · rw [hstarted] at hsome
          split_ifs at hsome with hrequested
          · rw [hentry] at hsome
            exact .inr ⟨image, himage, of_decide_eq_true hrequested.1, helf, hready, haccepted,
              hstep, hsome⟩
          · exact .inl (hsome.trans (List.append_nil _))
      · -- A result that was read back is that of the stager.
        rcases hreads with ⟨-, hnot⟩ | ⟨hne, -, -, hread⟩
        · cases (hnot.symm.trans hok : false = true)
        · obtain ⟨hresult, hsome, hdone⟩ := hentered.result hne
          have hread := hread.symm.trans hok
          rw [Bool.and_eq_true, decide_eq_true_iff, hresult] at hread
          obtain ⟨hrequested, hrc⟩ := hread
          rw [hrequested] at hrc hstarted hsome
          rw [Target.run_threads hdone, hsome, hstarted, if_pos ⟨rfl, hrc⟩, hentry]
          exact ⟨image, himage, helf, rfl⟩

/-! ## The registers -/

/-- If the registers are given back, the call leaves the registers of the thread. -/
theorem afterCall_regs {pid : ℤ} {a : InjectionAnswers} {entry : UInt64} {requested : Bool} {t : Target}
    (hprimitives : ∀ part regs, a.primitiveRegs part regs = regs)
    (hset : a.call.setRemote.rc ≠ 0 → a.call.setRemote.applied = false)
    (hrestore : a.call.restore.applied = true) : (afterCall pid a entry requested t).regs = t.regs := by
  rw [afterCall, touched]
  refine (hprimitives _ _).trans ?_
  rcases callUntilBreakpoint_cases pid a.remoteStager (fun i => if i.val = 0 then a.remoteFunctions else 0)
      a.call { t with functions := functions a entry requested } with
    ⟨htarget, -, -⟩ | ⟨hrc, htarget, -, -⟩ | ⟨-, htarget, -, -⟩
  · rw [htarget]
  · rw [htarget, Target.setregs, hset hrc]
    rfl
  · rw [htarget, Target.setregs, hrestore]
    rfl

/-- The thread that a session borrows keeps its stack throughout, and has all its registers when it
    is let go, if the other primitives of the SDK leave its registers alone, a request to write
    registers that is refused has no effect, and the one that gives them back has. -/
theorem injection_keeps_registers (pid : ℤ) (rendererElf : Option Image) (mode : StableInjectionMode)
    (a : InjectionAnswers) (s : Session)
    (hprimitives : ∀ part regs, a.primitiveRegs part regs = regs)
    (hset : a.call.setRemote.rc ≠ 0 → a.call.setRemote.applied = false)
    (hrestore : a.call.restore.applied = true) :
    ∃ calls regs, (injectShelluiStable pid rendererElf mode a s).1.trace = s.trace ++ calls ∧
      (regs = s.target.regs ∨ regs = a.loadedRegs ∧ .load (.ptContinue true) ∈ calls) ∧
      (∀ left ok, .detach left ok ∈ calls → left = regs) ∧
      ∀ written rc, .remote (.setregs written rc) ∈ calls →
        written.rsp = regs.rsp ∧ written.rbp = regs.rbp := by
  rcases inject_cases pid rendererElf mode a s with
    ⟨⟨calls, htrace, hcalls⟩, -⟩ | ⟨image, inside, last, -, hinside, htrace, hlast, -⟩
  · refine ⟨calls, s.target.regs, htrace, .inl rfl, fun left ok h => ?_, fun written rc h => ?_⟩
    · rcases hcalls _ h with ⟨_, h⟩ | ⟨_, _, h⟩ | h <;> cases h
    · rcases hcalls _ h with ⟨_, h⟩ | ⟨_, _, h⟩ | h <;> cases h
  · have hclosing : ∀ c ∈ last, ∃ read, c = .getAuth read := by
      rcases hlast with rfl | ⟨read, rfl⟩
      · exact nofun
      · exact fun c hc => ⟨read, List.mem_singleton.1 hc⟩
    -- What the session does between the attach and the detach, and the registers it leaves.
    obtain ⟨calls, regs, hinner, hregs, hleft, hdetach, hwritten⟩ : ∃ calls regs,
        inside.1.trace = (s.began a).trace ++ calls ∧
        (regs = s.target.regs ∨ regs = a.loadedRegs ∧ .load (.ptContinue true) ∈ calls) ∧
        inside.1.target.regs = regs ∧ (∀ left ok, .detach left ok ∉ calls) ∧
        ∀ written rc, .remote (.setregs written rc) ∈ calls →
          written.rsp = regs.rsp ∧ written.rbp = regs.rbp := by
      rcases hinside.ends with ⟨hinner, htarget, -⟩ |
        ⟨placed, called, hinner, hplaced, hcalled, -, htarget⟩
      · exact ⟨_, s.target.regs, hinner, .inl rfl,
          (congrArg Target.regs htarget).trans (hprimitives _ _), by simp, by simp⟩
      · refine ⟨_, (resumed image a (touched a .resolve s.target)).regs, hinner, ?_, ?_, ?_, ?_⟩
        · rw [resumed, touched, touched]
          dsimp only
          rw [hprimitives, hprimitives]
          split_ifs with hcontinued
          · exact .inr ⟨rfl, by simp [hcontinued]⟩
          · exact .inl rfl
        · rcases htarget with ⟨htarget, -⟩ | ⟨-, -, htarget, -⟩
          · rw [htarget]
            rfl
          · rw [htarget, afterCall_regs hprimitives hset hrestore]
            rfl
        · intro left ok h
          simp only [List.mem_cons, List.mem_append, List.mem_map, reduceCtorEq, and_false, exists_false,
            false_or] at h
          exact h.elim (fun h => hplaced _ h) fun h => hcalled _ h
        · intro written rc h
          simp only [List.mem_cons, List.mem_append, List.mem_map, reduceCtorEq, and_false, exists_false,
            false_or] at h
          exact h.elim (fun h => (hplaced _ h).elim) fun h => hcalled _ h
    refine ⟨[.getAuth s.authId, .setAuth StableInjector.kPtraceAuthId 0, .attach true] ++ (calls ++
      (.detach inside.1.target.regs a.detach :: .kill pid :: .setAuth s.authId a.restoreAuth.rc :: last)),
      regs, ?_, ?_, ?_, ?_⟩
    · rw [htrace, hinner, Session.began]
      simp only [List.append_assoc]
    · exact hregs.imp_right fun h => ⟨h.1, by simp [h.2]⟩
    · intro left ok h
      simp only [List.mem_append, List.mem_cons, List.not_mem_nil, reduceCtorEq, or_false, false_or,
        SessionCall.detach.injEq] at h
      rcases h with h | ⟨h, -⟩ | h
      · exact absurd h (hdetach left ok)
      · exact h.trans hleft
      · obtain ⟨read, h⟩ := hclosing _ h
        cases h
    · intro written rc h
      simp only [List.mem_append, List.mem_cons, List.not_mem_nil, reduceCtorEq, or_false, false_or] at h
      rcases h with h | h
      · exact hwritten written rc h
      · obtain ⟨read, h⟩ := hclosing _ h
        cases h

/-- A renderer of one segment, and a session in which everything succeeds. -/
def plainImage : Image := ⟨⟨pages16K, fun _ => 0⟩, sharedObject 0 [(8, 16)], 256, 64⟩

/-- Every step of a session succeeds. -/
def smoothSession : InjectionAnswers where
  getAuth := true
  setAuth := ⟨0, true⟩
  attach := true
  pthreadCreate := 0x800000000
  load := ⟨0x200000000, true, true, fun _ => true, ⟨fun _ => none, fun _ _ => 0⟩, ⟨true, true⟩, true,
    fun _ => true, true, ⟨true, true⟩⟩
  loadedRegs := { rip := 0x900000000, rsp := 0x7fff0000 }
  payloadArgs := 0x300000000
  remoteStager := 0x400000000
  mprotect := true
  copyinStager := true
  remoteFunctions := 0x500000000
  copyinFunctions := true
  call := ⟨true, ⟨0, true⟩, true, 2, 0, { rip := 0x400000020 }, true, true, ⟨0, true⟩⟩
  copyout := true
  primitiveRegs := fun _ regs => regs
  detach := true
  restoreAuth := ⟨0, true⟩
  readAuth := true

theorem injection_keeps_registers_smooth : ∃ calls regs,
    (injectShelluiStable 50 (some plainImage) .startRendererThread smoothSession
      { authId := 1, target := { regs := {} } }).1.trace = calls ∧
    (regs = {} ∨ regs = smoothSession.loadedRegs ∧ .load (.ptContinue true) ∈ calls) ∧
    ∀ left ok, .detach left ok ∈ calls → left = regs := by
  obtain ⟨calls, regs, htrace, hregs, hleft, -⟩ := injection_keeps_registers 50 (some plainImage)
    .startRendererThread smoothSession { authId := 1, target := { regs := {} } } (fun _ _ => rfl)
    (fun h => absurd rfl h) rfl
  exact ⟨calls, regs, htrace, hregs, hleft⟩

end CommonFps
