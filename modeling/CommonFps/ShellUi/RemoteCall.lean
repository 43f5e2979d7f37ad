import CommonFps.ShellUi.ElfLoader
import CommonFps.ShellUi.Kernel

/-!
# A call in ShellUI

The debugger calls a function in ShellUI (`remote_call.cpp`): it borrows the
stopped thread, with its stack, by writing its registers, lets it run until a
breakpoint, and writes the registers back. The function called is the stager
(`commonfps_stable_stager`), which starts the thread of the renderer, or only
says that it has not, and then reaches its breakpoint.

What the primitives return is an input; so is how far the stager gets until the
target is looked at again, and whether a request to write registers takes effect,
whatever it returns.

* `Target.run`: the target, running through the stager;
* `callUntilBreakpointOnTargetStack`: the call;
* `callUntilBreakpoint_cases`: which registers are written, whatever fails;
* `Target.Entered`: the stager starts one thread at most.
-/

namespace CommonFps

/-- The registers that a call names, and the others. -/
@[ext]
structure Regs where
  rip : UInt64 := 0
  rsp : UInt64 := 0
  rbp : UInt64 := 0
  rax : UInt64 := 0
  rdi : UInt64 := 0
  rsi : UInt64 := 0
  rdx : UInt64 := 0
  rcx : UInt64 := 0
  r8 : UInt64 := 0
  r9 : UInt64 := 0
  others : ℕ → UInt64 := fun _ => 0

/-- What the stager stores where no thread is asked for. -/
def kPthreadCreateSkippedRc : Int32 := -778

/-- What the stager is given. -/
structure RemoteBootstrapFunctions where
  debugOut : UInt64 := 0
  elfMain : UInt64 := 0
  payloadArgs : UInt64 := 0
  pthreadCreateFn : UInt64 := 0
  pthreadCreateRc : Int32 := -777
  startThread : UInt32 := 1
  deriving DecidableEq

/-- A thread that the stager started, and its argument. -/
structure RendererThread where
  entry : UInt64
  args : UInt64
  deriving DecidableEq

/-- Where a thread is in the stager: before the call of `pthread_create`, before
    the store of its result, and at the breakpoint. -/
inductive Stager
  | creating
  | storing (rc : Int32)
  | breakpoint
  deriving DecidableEq

/-- ShellUI, as the debugger sees it. -/
structure Target where
  regs : Regs
  /-- Where the stopped thread is, if it is in the stager. -/
  stager : Option Stager := none
  /-- What the stager is given, once it is stored. -/
  functions : RemoteBootstrapFunctions := {}
  threads : List RendererThread := []

namespace Target

/-- A step of the stager, given what `pthread_create` returns; a thread was created if
    this is `0`. -/
def step (createRc : Int32) (t : Target) : Target :=
  match t.stager with
  | none | some .breakpoint => t
  | some .creating =>
    if t.functions.startThread ≠ 0 then
      { t with
        stager := some (.storing createRc)
        threads := if createRc = 0 then
            t.threads ++ [⟨t.functions.elfMain, t.functions.payloadArgs⟩]
          else t.threads }
    else { t with stager := some (.storing kPthreadCreateSkippedRc) }
  | some (.storing rc) =>
    { t with stager := some .breakpoint, functions := { t.functions with pthreadCreateRc := rc } }

/-- The target runs through a number of steps of the stager; its registers change. -/
def run (createRc : Int32) (steps : ℕ) (regs : Regs) (t : Target) : Target :=
  { (step createRc)^[steps] t with regs }

/-- `pt_setregs`, with registers that are those of a place in the stager, or not. -/
def setregs (regs : Regs) (stager : Option Stager) (a : SetAnswer) (t : Target) : Target :=
  if a.applied then { t with regs, stager } else t

end Target

/-- A call of a debugger's primitive on ShellUI, and what it returned. -/
inductive RemoteCall
  | getregs (ok : Bool)
  | setregs (regs : Regs) (rc : ℤ)
  | ptContinue (ok : Bool)
  | waitpid (ok : Bool)

/-- The outcomes of the primitives. -/
structure CallAnswers where
  getregs : Bool
  setRemote : SetAnswer
  ptContinue : Bool
  /-- What the target does after it was told to continue, whatever this returned. -/
  ran : ℕ
  createRc : Int32
  ranRegs : Regs
  waitpid : Bool
  getStopped : Bool
  restore : SetAnswer

/-- The registers of a call: the instruction pointer and the arguments only. -/
def remoteRegs (original : Regs) (address : UInt64) (args : Fin 6 → UInt64) : Regs :=
  { original with
    rip := address, rdi := args 0, rsi := args 1, rdx := args 2, rcx := args 3, r8 := args 4
    r9 := args 5 }

/-- The call of a function, which is the stager: the target, the primitives called, and what
    the call returns. -/
def callUntilBreakpointOnTargetStack (pid : ℤ) (address : UInt64) (args : Fin 6 → UInt64)
    (a : CallAnswers) (t : Target) : Target × List RemoteCall × UInt64 :=
  if pid ≤ 0 ∨ address = 0 then (t, [], -1)
  else if !a.getregs then (t, [.getregs false], -1)
  else
    let original := t.regs
    let remote := remoteRegs original address args
    let t := t.setregs remote (some .creating) a.setRemote
    let calls := [.getregs true, .setregs remote a.setRemote.rc]
    if a.setRemote.rc ≠ 0 then (t, calls, -1)
    else
      let t := t.run a.createRc a.ran a.ranRegs
      let restored := t.setregs original none a.restore
      let restore := .setregs original a.restore.rc
      if !a.ptContinue then (restored, calls ++ [.ptContinue false, restore], -1)
      else if !a.waitpid then (restored, calls ++ [.ptContinue true, .waitpid false, restore], -1)
      else
        let calls := calls ++ [.ptContinue true, .waitpid true]
        if !a.getStopped then (restored, calls ++ [.getregs false, restore], -1)
        else
          (restored, calls ++ [.getregs true, restore],
            if a.restore.rc ≠ 0 then -1 else t.regs.rax)

/-! ## The stager -/

namespace RemoteBootstrapFunctions

/-- What the stager stores, given what `pthread_create` returns. -/
def result (f : RemoteBootstrapFunctions) (createRc : Int32) : Int32 :=
  if f.startThread ≠ 0 then createRc else kPthreadCreateSkippedRc

/-- The threads that the stager starts. -/
def started (f : RemoteBootstrapFunctions) (createRc : Int32) : List RendererThread :=
  if f.startThread ≠ 0 ∧ createRc = 0 then [⟨f.elfMain, f.payloadArgs⟩] else []

end RemoteBootstrapFunctions

/-- A target with the threads `l` that was made to enter the stager with `f`, and may have
    been taken out of it since. -/
inductive Target.Entered (f : RemoteBootstrapFunctions) (l : List RendererThread)
    (createRc : Int32) : Target → Prop
  | creating {regs : Regs} {stager : Option Stager} (h : ∀ p ∈ stager, p = .creating) :
      Entered f l createRc ⟨regs, stager, f, l⟩
  | storing {regs : Regs} {stager : Option Stager} (h : ∀ p ∈ stager, p = .storing (f.result createRc)) :
      Entered f l createRc ⟨regs, stager, f, l ++ f.started createRc⟩
  | breakpoint {regs : Regs} {stager : Option Stager} (h : ∀ p ∈ stager, p = .breakpoint) :
      Entered f l createRc
        ⟨regs, stager, { f with pthreadCreateRc := f.result createRc }, l ++ f.started createRc⟩

namespace Target

variable {f : RemoteBootstrapFunctions} {l : List RendererThread} {createRc : Int32} {t : Target}

theorem Entered.step (h : t.Entered f l createRc) : (t.step createRc).Entered f l createRc := by
  cases h with
  | @creating regs stager h =>
    cases stager with
    | none => exact .creating h
    | some p =>
      obtain rfl := h p rfl
      by_cases hstart : f.startThread ≠ 0
      · have hresult : f.result createRc = createRc := if_pos hstart
        have hthreads : (if createRc = 0 then l ++ [⟨f.elfMain, f.payloadArgs⟩] else l) =
            l ++ f.started createRc := by
          rw [RemoteBootstrapFunctions.started]
          by_cases hrc : createRc = 0
          · rw [if_pos hrc, if_pos ⟨hstart, hrc⟩]
          · rw [if_neg hrc, if_neg fun h => hrc h.2, List.append_nil]
        rw [Target.step, if_pos hstart, hthreads]
        exact .storing fun p hp => by rw [hresult, ← Option.some.inj hp]
      · have hstarted : l ++ f.started createRc = l := by
          rw [RemoteBootstrapFunctions.started, if_neg fun h => hstart h.1, List.append_nil]
        have hresult : f.result createRc = kPthreadCreateSkippedRc := if_neg hstart
        rw [Target.step, if_neg hstart, ← hresult]
        have hnext : Entered f l createRc
            ⟨regs, some (.storing (f.result createRc)), f, l ++ f.started createRc⟩ :=
          .storing fun p hp => (Option.some.inj hp).symm
        rwa [hstarted] at hnext
  | @storing regs stager h =>
    cases stager with
    | none => exact .storing h
    | some p =>
      obtain rfl := h p rfl
      exact .breakpoint fun p hp => (Option.some.inj hp).symm
  | @breakpoint regs stager h =>
    cases stager with
    | none => exact .breakpoint h
    | some p =>
      obtain rfl := h p rfl
      exact .breakpoint h

theorem Entered.withRegs (h : t.Entered f l createRc) (regs : Regs) :
    Entered f l createRc { t with regs } := by
  cases h with
  | creating h => exact .creating h
  | storing h => exact .storing h
  | breakpoint h => exact .breakpoint h

theorem Entered.run (h : t.Entered f l createRc) (steps : ℕ) (regs : Regs) :
    (t.run createRc steps regs).Entered f l createRc := by
  refine withRegs ?_ regs
  induction steps with
  | zero => exact h
  | succ steps ih =>
    rw [Function.iterate_succ_apply']
    exact ih.step

/-- Taken out of the stager, or not, it is as far as it was. -/
theorem Entered.setregs (h : t.Entered f l createRc) (regs : Regs) (a : SetAnswer) :
    (t.setregs regs none a).Entered f l createRc := by
  rw [Target.setregs]
  split_ifs
  · cases h with
    | creating => exact .creating nofun
    | storing => exact .storing nofun
    | breakpoint => exact .breakpoint nofun
  · exact h

/-- It has started the threads of the stager, or none. -/
theorem Entered.threads (h : t.Entered f l createRc) :
    t.threads = l ∨ t.threads = l ++ f.started createRc := by
  cases h with
  | creating => exact .inl rfl
  | storing => exact .inr rfl
  | breakpoint => exact .inr rfl

/-- A result that is there is that of the stager, which is done. -/
theorem Entered.result (h : t.Entered f l createRc) (hne : t.functions.pthreadCreateRc ≠ f.pthreadCreateRc) :
    t.functions.pthreadCreateRc = f.result createRc ∧ t.threads = l ++ f.started createRc ∧
      (t.stager = none ∨ t.stager = some .breakpoint) := by
  cases h with
  | creating => exact absurd rfl hne
  | storing => exact absurd rfl hne
  | @breakpoint regs stager h =>
    refine ⟨rfl, rfl, ?_⟩
    cases stager with
    | none => exact .inl rfl
    | some p => exact .inr (congrArg some (h p rfl))

end Target

/-! ## The registers -/

/-- The registers that a call writes, with what this returns. -/
def RemoteCall.written : RemoteCall → Option (Regs × ℤ)
  | setregs regs rc => some (regs, rc)
  | _ => none

section Call

variable (pid : ℤ) (address : UInt64) (args : Fin 6 → UInt64) (a : CallAnswers) (t : Target)

/-- A call has not got to writing registers; or it was refused the first time; or it has
    written the registers back, after all that the target has done. -/
theorem callUntilBreakpoint_cases :
    let r := callUntilBreakpointOnTargetStack pid address args a t
    (r.1 = t ∧ r.2.1.filterMap RemoteCall.written = [] ∧ r.2.2 = -1) ∨
    (a.setRemote.rc ≠ 0 ∧
      r.1 = t.setregs (remoteRegs t.regs address args) (some .creating) a.setRemote ∧
      r.2.1.filterMap RemoteCall.written =
        [(remoteRegs t.regs address args, a.setRemote.rc)] ∧ r.2.2 = -1) ∨
    (a.setRemote.rc = 0 ∧
      r.1 = ((t.setregs (remoteRegs t.regs address args) (some .creating) a.setRemote).run
        a.createRc a.ran a.ranRegs).setregs t.regs none a.restore ∧
      r.2.1.filterMap RemoteCall.written =
        [(remoteRegs t.regs address args, 0), (t.regs, a.restore.rc)] ∧
      (r.2.2 = -1 ∨ a.restore.rc = 0 ∧ a.ptContinue ∧ a.waitpid ∧ r.2.2 = a.ranRegs.rax)) := by
  rw [callUntilBreakpointOnTargetStack]
  split_ifs with h₁ h₂ h₃ h₄ h₅ h₆ h₇
  · exact .inl ⟨rfl, rfl, rfl⟩
  · exact .inl ⟨rfl, rfl, rfl⟩
  · exact .inr (.inl ⟨h₃, rfl, rfl, rfl⟩)
  · rw [not_not.1 h₃]
    exact .inr (.inr ⟨rfl, rfl, rfl, .inl rfl⟩)
  · rw [not_not.1 h₃]
    exact .inr (.inr ⟨rfl, rfl, rfl, .inl rfl⟩)
  · rw [not_not.1 h₃]
    exact .inr (.inr ⟨rfl, rfl, rfl, .inl rfl⟩)
  · rw [not_not.1 h₃]
    exact .inr (.inr ⟨rfl, rfl, rfl, .inl rfl⟩)
  · rw [not_not.1 h₃]
    exact .inr (.inr ⟨rfl, rfl, rfl,
      .inr ⟨not_not.1 h₇, by simpa using h₄, by simpa using h₅, rfl⟩⟩)

variable {pid address args a t}

/-- The registers written have the stack of the thread. -/
theorem keepsStack_of_written {regs : Regs} {rc : ℤ}
    (h : (regs, rc) ∈ (callUntilBreakpointOnTargetStack pid address args a t).2.1.filterMap
      RemoteCall.written) : regs.rsp = t.regs.rsp ∧ regs.rbp = t.regs.rbp := by
  rcases callUntilBreakpoint_cases pid address args a t with
    ⟨-, hwritten, -⟩ | ⟨-, -, hwritten, -⟩ | ⟨-, -, hwritten, -⟩
  · rw [hwritten] at h
    cases h
  · rw [hwritten] at h
    cases List.mem_singleton.1 h
    exact ⟨rfl, rfl⟩
  · rw [hwritten, List.mem_cons, List.mem_singleton] at h
    rcases h with h | h
    · cases h
      exact ⟨rfl, rfl⟩
    · cases h
      exact ⟨rfl, rfl⟩

end Call

end CommonFps
