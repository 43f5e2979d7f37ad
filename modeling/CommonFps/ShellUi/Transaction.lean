import CommonFps.ShellUi.GuardWrite

/-!
# The patch transaction

What the controller does with a request (`poll_and_apply_shellui_hook`): it
validates it, chooses a back-end, takes the credentials, stops ShellUI, and
reads the code of the method; for a patch, if the code is as expected, it writes
it, verifies it, and rolls it back if the write or the verification failed; it
then lets ShellUI go and restores its credentials.

Every primitive may fail, or take effect and report a failure; a read that
succeeds returns the code.

* `pollAndApply`: the transaction, from the kernel before it to the kernel and
  the report after it;
* `HookPlan.Reported`, `pollAndApply_spec`: what it can do;
* `transaction_reported`: it is all or reported.
-/

namespace CommonFps

/-- The back-end is not supported. -/
def ENOTSUP : ℤ := 45

/-- The credentials of a debugger. -/
def kPtraceAuthId : UInt64 := 0x4800000000010003

/-- The size of a page of code. -/
def kPs5CodePageSize : UInt64 := 0x4000

/-- The report of a transaction, of which the fields that are only logged are
    left out. -/
structure ShellUiHookPatchReport where
  status : ShellUiHookStatus := .invalidRequest
  etaChain : Bool := false
  readRc : ℤ := -1
  writeRc : ℤ := -1
  expectedMatched : Bool := false
  verified : Bool := false
  restored : Bool := false
  detached : Bool := false
  authRestored : Bool := false
  probe : Bool := false
  mainThreadGuard : Bool := false
  observed : Code := fun _ => 0

/-- What the controller has decided about a request before it touches ShellUI. -/
structure HookPlan where
  sdk : UInt32
  pid : Int32
  request : ShellUiHookRequest

namespace HookPlan

variable (p : HookPlan)

/-- The request only asks for the code to be read. -/
def probe : Bool := shelluiHookRequestIsProbe p.request

/-- The request is for the guard of the main thread. -/
def mainThreadGuard : Bool := shelluiHookRequestIsMainThreadGuard p.request

/-- The method is patched already, and only the target of the jump there changes. -/
def etaChain : Bool := !p.probe && !p.mainThreadGuard && shelluiHookIsEtaChain p.request

/-- The request passes the checks of its kind. -/
def valid : Bool :=
  if p.probe then shelluiHookProbeRequestIsValid p.request p.pid
  else if p.mainThreadGuard then shelluiMainThreadGuardRequestIsValid p.request p.pid
  else shelluiHookRequestIsValid p.request p.pid

/-- How the code is read and written. -/
def backend : ShellUiHookBackend :=
  if p.probe then shelluiHookProbeBackend p.sdk
  else if p.mainThreadGuard then shelluiMainThreadGuardBackend p.sdk
  else shelluiHookBackend p.sdk p.etaChain

/-- The guard is written with its pages made writable. -/
def fw900GuardWrite : Bool :=
  p.mainThreadGuard && firmwareFamily p.sdk = 0x09000000 && p.backend = .mdbg

/-- The guard is written by a function of its own. -/
def fw1160GuardWrite : Bool := p.mainThreadGuard && firmwareIsFw1160 p.sdk && p.backend = .ptraceIo

/-- The bytes that a write changes: from `offset`, as many as `size`. -/
def offset : ℕ := if p.mainThreadGuard then 0 else if p.etaChain then 6 else 0

/-- The number of bytes that a write changes. -/
def size : ℕ := if p.mainThreadGuard then 1 else if p.etaChain then 8 else 16

/-- The bytes of a code that a write changes. -/
def chunk (code : Code) : List UInt8 := ((List.ofFn code).drop p.offset).take p.size

end HookPlan

/-- The outcomes of a read of the target. -/
structure ReadAnswers where
  primary : ReadAnswer
  fallback : ReadAnswer

/-- The outcomes of a write to the target. -/
structure WriteAnswers where
  guard : GuardWriteAnswers
  protect : MprotectAnswer
  mdbg : StoreAnswer
  ptrace : StoreAnswer
  restore : MprotectAnswer

/-- The outcomes of all calls of a transaction. -/
structure PollAnswers where
  getAuth : Bool
  setAuth : SetAnswer
  attach : Bool
  read : ReadAnswers
  write : WriteAnswers
  verify : ReadAnswers
  rollback : WriteAnswers
  rollbackCheck : ReadAnswers
  detach : Bool
  restoreAuth : SetAnswer
  checkAuth : Bool

namespace HookPlan

/-- A read of the target: its result, and the code, zero unless it succeeds. -/
def readTarget (p : HookPlan) (k : Kernel) (a : ReadAnswers) : Kernel × ℤ × Code :=
  if p.backend = .unsupported then (k, ENOTSUP, fun _ => 0)
  else
    let primary := k.readCode p.pid p.request.methodAddress a.primary
    -- Only one error on one firmware family permits another read.
    if p.backend = .ptraceIo ∧ firmwareIsFw1160 p.sdk ∧ a.primary.rc = EFAULT then
      let fallback := primary.1.readCode p.pid p.request.methodAddress a.fallback
      (fallback.1, a.fallback.rc, fallback.2)
    else (primary.1, a.primary.rc, primary.2)

/-- A write in a range of pages made writable, through the debugger, else
    through ptrace. -/
def writePages (p : HookPlan) (k : Kernel) (bytes : List UInt8) (a : WriteAnswers) : Kernel × ℤ :=
  let address := p.request.methodAddress + p.offset.toUInt64
  let page := p.request.methodAddress &&& ~~~(kPs5CodePageSize - 1)
  let opened := k.mprotect p.pid page kPs5CodePageSize (PROT_READ ||| PROT_WRITE ||| PROT_EXEC) a.protect
  if a.protect.rc ≠ 0 then (opened, -1000)
  else
    let first := opened.store p.pid address bytes a.mdbg
    let written := if a.mdbg.rc ≠ 0 then (first.store p.pid address bytes a.ptrace, a.ptrace.rc)
      else (first, a.mdbg.rc)
    (written.1.mprotect p.pid page kPs5CodePageSize (PROT_READ ||| PROT_EXEC) a.restore,
      if a.restore.rc ≠ 0 then -1001 else written.2)

/-- A write to the target, of the range of `code` that the request changes. -/
def writeTarget (p : HookPlan) (k : Kernel) (g : ShellUiGuardWriteState) (code : Code)
    (a : WriteAnswers) : Kernel × ShellUiGuardWriteState × ℤ :=
  let address := p.request.methodAddress + p.offset.toUInt64
  if p.fw1160GuardWrite then
    let r := shelluiWriteGuardByte { k with trace := [] } g p.pid p.request.methodAddress (code 0) a.guard
    ({ r.1 with trace := k.trace ++ r.1.trace }, r.2.1, r.2.2)
  else if p.fw900GuardWrite then
    let written := p.writePages k (p.chunk code) a
    (written.1, g, written.2)
  else if p.backend = .mdbg then (k.store p.pid address (p.chunk code) a.mdbg, g, a.mdbg.rc)
  else (k.store p.pid address (p.chunk code) a.ptrace, g, a.ptrace.rc)

/-- A failed patch is rolled back, unless the code is still the original one. -/
def rollBack (p : HookPlan) (k : Kernel) (g : ShellUiGuardWriteState) (verifyRc : ℤ) (verified : Code)
    (a : PollAnswers) : Kernel × Bool :=
  if (verifyRc = 0 ∧ verified = p.request.expected) ∧
    (p.fw1160GuardWrite = false ∨ g.protectionRestored) then
    (k, true)
  else
    let restored := p.writeTarget k g p.request.expected a.rollback
    if restored.2.2 = 0 then
      let check := p.readTarget restored.1 a.rollbackCheck
      (check.1, check.2.1 = 0 ∧ check.2.2 = p.request.expected)
    else (restored.1, false)

/-- The patch of a target that is as expected; and whether it was applied. -/
def patch (p : HookPlan) (k : Kernel) (report : ShellUiHookPatchReport) (a : PollAnswers) :
    Kernel × ShellUiHookPatchReport × Bool :=
  let written := p.writeTarget k {} p.request.desired a.write
  let verify := p.readTarget written.1 a.verify
  let report := { report with
    expectedMatched := true
    writeRc := written.2.2
    verified := verify.2.1 = 0 ∧ verify.2.2 = p.request.desired }
  if report.verified ∧ report.writeRc = 0 then (verify.1, { report with status := .success }, true)
  else
    let rolledBack := p.rollBack verify.1 written.2.1 verify.2.1 verify.2.2 a
    (rolledBack.1,
      { report with
        status := if report.writeRc = 0 then .verifyFailure else .writeFailure
        restored := rolledBack.2 }, false)

/-- What is done with the stopped ShellUI; and whether a patch was applied. -/
def applyStopped (p : HookPlan) (k : Kernel) (report : ShellUiHookPatchReport) (a : PollAnswers) :
    Kernel × ShellUiHookPatchReport × Bool :=
  let read := p.readTarget k a.read
  let report := { report with readRc := read.2.1 }
  if p.probe then
    if read.2.1 = 0 then
      (read.1,
        { report with
          observed := read.2.2, etaChain := read.2.2.HasJumpPrefix, expectedMatched := true
          verified := true, status := .success }, false)
    else (read.1, { report with status := .expectedBytesMismatch }, false)
  else if read.2.1 ≠ 0 ∨ read.2.2 ≠ p.request.expected then
    (read.1, { report with status := .expectedBytesMismatch }, false)
  else p.patch read.1 report a

/-- ShellUI is stopped, and let go of. -/
def apply (p : HookPlan) (k : Kernel) (report : ShellUiHookPatchReport) (a : PollAnswers) :
    Kernel × ShellUiHookPatchReport × Bool :=
  let k := k.attach p.pid a.attach
  if a.attach then
    let applied := p.applyStopped k report a
    let report := { applied.2.1 with detached := a.detach }
    (applied.1.detach p.pid a.detach,
      if !a.detach && applied.2.2 then { report with status := .detachFailure } else report, applied.2.2)
  else (k, { report with status := .attachFailure }, false)

end HookPlan

/-- A request of the controller of the process `pid`, on a firmware. -/
def pollAndApply (k : Kernel) (sdk : UInt32) (pid : Int32) (request : ShellUiHookRequest)
    (a : PollAnswers) : Kernel × ShellUiHookPatchReport :=
  let p : HookPlan := ⟨sdk, pid, request⟩
  let report : ShellUiHookPatchReport := { probe := p.probe, mainThreadGuard := p.mainThreadGuard }
  if !p.valid then (k, { report with status := .invalidRequest })
  else
    let report := { report with etaChain := p.etaChain }
    if p.backend = .unsupported then (k, { report with status := .unsupportedFirmware })
    else
      let originalAuth := k.getAuth a.getAuth
      if originalAuth = 0 then (k, { report with status := .authFailure })
      else
        let privileged := k.setAuth kPtraceAuthId a.setAuth
        if a.setAuth.rc ≠ 0 then (privileged, { report with status := .authFailure })
        else
          let applied := p.apply privileged report a
          let restored := applied.1.setAuth originalAuth a.restoreAuth
          let report := { applied.2.1 with
            authRestored := a.restoreAuth.rc = 0 ∧ restored.getAuth a.checkAuth = originalAuth }
          (restored,
            if !report.authRestored && applied.2.2 then { report with status := .authRestoreFailure }
            else report)

/-! ## Reads and writes -/

namespace HookPlan

variable {p : HookPlan} {k k' k'' : Kernel} {c : Code}

/-- The bytes that a request may change. -/
def InRange (p : HookPlan) (i : Fin 16) : Prop := p.offset ≤ i.val ∧ i.val < p.offset + p.size

/-- The calls of `l` write the range of the request, if anything. -/
def WritesRange (p : HookPlan) (l : List KernelCall) : Prop :=
  ∀ q x bytes, .write q x bytes ∈ l →
    q = p.pid ∧ x = p.request.methodAddress + p.offset.toUInt64 ∧ bytes.length = p.size

/-- The codes that a request writes. -/
def IsWritten (p : HookPlan) (c : Code) : Prop := c = p.request.desired ∨ c = p.request.expected

/-- Nothing but the range of the request is written, or changes; and that to the
    bytes of a code that the request writes. -/
structure Changes (p : HookPlan) (k k' : Kernel) : Prop where
  memory : ∀ q x, k'.memory q x = k.memory q x ∨ q = p.pid ∧ ∃ i : Fin 16, p.InRange i ∧
    x = p.request.methodAddress + i.val.toUInt64 ∧ ∃ c, p.IsWritten c ∧ k'.memory q x = c i
  trace : ∃ l, k'.trace = k.trace ++ l ∧ p.WritesRange l

theorem Changes.refl (p : HookPlan) (k : Kernel) : p.Changes k k :=
  ⟨fun _ _ => .inl rfl, [], (List.append_nil _).symm, fun _ _ _ h => absurd h List.not_mem_nil⟩

theorem Changes.trans (h : p.Changes k k') (h' : p.Changes k' k'') : p.Changes k k'' := by
  obtain ⟨l, hl, hrange⟩ := h.trace
  obtain ⟨l', hl', hrange'⟩ := h'.trace
  refine ⟨fun q x => ?_, l ++ l', by rw [hl', hl, List.append_assoc], fun q x bytes hmem => ?_⟩
  · rcases h'.memory q x with he | hc
    · rw [he]
      exact h.memory q x
    · exact .inr hc
  · exact (List.mem_append.1 hmem).elim (hrange q x bytes) (hrange' q x bytes)

/-- Nothing is written. -/
structure Untouched (k k' : Kernel) : Prop where
  memory : k'.memory = k.memory
  trace : ∃ l, k'.trace = k.trace ++ l ∧ ∀ q x bytes, .write q x bytes ∉ l

theorem Untouched.refl (k : Kernel) : Untouched k k :=
  ⟨rfl, [], (List.append_nil _).symm, fun _ _ _ => List.not_mem_nil⟩

theorem Untouched.trans (h : Untouched k k') (h' : Untouched k' k'') : Untouched k k'' := by
  obtain ⟨l, hl, hw⟩ := h.trace
  obtain ⟨l', hl', hw'⟩ := h'.trace
  refine ⟨h'.memory.trans h.memory, l ++ l', by rw [hl', hl, List.append_assoc], fun q x bytes hmem => ?_⟩
  exact (List.mem_append.1 hmem).elim (hw q x bytes) (hw' q x bytes)

/-- A call that is no write. -/
theorem Untouched.of_call {call : KernelCall} (hm : k'.memory = k.memory) (hl : k'.trace = k.trace ++ [call])
    (hw : ∀ q x bytes, call ≠ .write q x bytes) : Untouched k k' :=
  ⟨hm, _, hl, fun q x bytes h => hw q x bytes (List.mem_singleton.1 h).symm⟩

theorem Untouched.changes (p : HookPlan) (h : Untouched k k') : p.Changes k k' := by
  obtain ⟨l, hl, hw⟩ := h.trace
  exact ⟨fun _ _ => .inl (by rw [h.memory]), l, hl, fun q x bytes hmem => absurd hmem (hw q x bytes)⟩

theorem offset_add_size (p : HookPlan) : p.offset + p.size ≤ 16 := by
  rw [offset, size]
  split_ifs <;> decide

theorem add_toUInt64_injective (x : UInt64) {i j : Fin 16}
    (h : x + i.val.toUInt64 = x + j.val.toUInt64) : i = j := by
  have hij := congrArg UInt64.toNat (add_left_cancel h)
  simp only [Nat.toUInt64_eq, UInt64.toNat_ofNat'] at hij
  ext
  omega

/-- The code of the target changes in the range only. -/
theorem Changes.code (h : p.Changes k k') {i : Fin 16} (hi : ¬p.InRange i) :
    k'.code p.pid p.request.methodAddress i = k.code p.pid p.request.methodAddress i := by
  rcases h.memory p.pid (p.request.methodAddress + i.val.toUInt64) with he | ⟨_, j, hj, hx, _⟩
  · exact he
  · obtain rfl := add_toUInt64_injective _ hx
    exact absurd hj hi

theorem chunk_length (p : HookPlan) (c : Code) : (p.chunk c).length = p.size := by
  have := p.offset_add_size
  rw [chunk, List.length_take, List.length_drop, List.length_ofFn]
  omega

/-- A byte of the chunk is a byte of the range. -/
theorem of_chunk_getElem? {j : ℕ} {b : UInt8} (h : (p.chunk c)[j]? = some b) :
    ∃ i : Fin 16, p.InRange i ∧ i.val = p.offset + j ∧ c i = b := by
  obtain ⟨hj, hb⟩ := List.getElem?_eq_some_iff.1 h
  have hlen := p.offset_add_size
  rw [chunk_length] at hj
  refine ⟨⟨p.offset + j, by omega⟩, ⟨Nat.le_add_right _ _, Nat.add_lt_add_left hj _⟩, rfl, ?_⟩
  simpa only [chunk, List.getElem_take, List.getElem_drop, List.getElem_ofFn] using hb

/-- A write of the chunk changes the range. -/
theorem changes_store (hc : p.IsWritten c) (k : Kernel) (a : StoreAnswer) :
    p.Changes k (k.store p.pid (p.request.methodAddress + p.offset.toUInt64) (p.chunk c) a) := by
  refine ⟨fun q x => ?_, _, rfl, fun q x bytes h => ?_⟩
  · rcases k.store_memory p.pid (p.request.methodAddress + p.offset.toUInt64) (p.chunk c) a q
      x with h | ⟨hq, h⟩
    · exact .inl h
    · obtain ⟨i, hi, hval, hb⟩ := of_chunk_getElem? h
      refine .inr ⟨hq, i, hi, ?_, c, hc, hb.symm⟩
      rw [hval, Nat.toUInt64_eq, Nat.toUInt64_eq, UInt64.ofNat_add, UInt64.ofNat_toNat, ← add_assoc,
        add_sub_cancel]
  · cases List.mem_singleton.1 h
    exact ⟨rfl, rfl, p.chunk_length c⟩

theorem changes_mprotect (p : HookPlan) (k : Kernel) (x size : UInt64) (flags : ℕ) (a : MprotectAnswer) :
    p.Changes k (k.mprotect p.pid x size flags a) := by
  have h : Untouched k (k.mprotect p.pid x size flags a) := .of_call rfl rfl fun _ _ _ h => by cases h
  exact h.changes p

/-- A read leaves everything but the credentials alone, and returns the code if
    it succeeds. -/
theorem readTarget_spec (p : HookPlan) (k : Kernel) (a : ReadAnswers) :
    let r := p.readTarget k a
    r.1.memory = k.memory ∧ r.1.protection = k.protection ∧
      (r.2.1 = 0 → r.2.2 = k.code p.pid p.request.methodAddress) ∧
      ∃ l, r.1.trace = k.trace ++ l ∧ (∀ q x bytes, .write q x bytes ∉ l) ∧
        (r.2.1 = 0 → .read p.pid p.request.methodAddress (some r.2.2) ∈ l) := by
  have hne : ENOTSUP ≠ 0 := by decide
  rw [readTarget]
  dsimp only
  split_ifs
  · exact ⟨rfl, rfl, fun h => absurd h hne, [], (List.append_nil _).symm, fun _ _ _ => List.not_mem_nil,
      fun h => absurd h hne⟩
  · refine ⟨rfl, rfl, fun h => Kernel.readCode_code h, [_, _], List.append_assoc _ _ _,
      fun _ _ _ h => by simp at h, fun h => ?_⟩
    rw [Kernel.readCode_code h, if_pos h]
    exact List.mem_cons_of_mem _ (List.mem_singleton.2 rfl)
  · refine ⟨rfl, rfl, fun h => Kernel.readCode_code h, [_], rfl, fun _ _ _ h => by simp at h, fun h => ?_⟩
    rw [Kernel.readCode_code h, if_pos h]
    exact List.mem_singleton.2 rfl

/-- A write of pages changes the range. -/
theorem changes_writePages (hc : p.IsWritten c) (k : Kernel) (a : WriteAnswers) :
    p.Changes k (p.writePages k (p.chunk c) a).1 := by
  have hopened := p.changes_mprotect k (p.request.methodAddress &&& ~~~(kPs5CodePageSize - 1))
    kPs5CodePageSize (PROT_READ ||| PROT_WRITE ||| PROT_EXEC) a.protect
  have hfirst := hopened.trans (changes_store hc _ a.mdbg)
  rw [writePages]
  dsimp only
  by_cases hprotect : a.protect.rc ≠ 0
  · rw [if_pos hprotect]
    exact hopened
  rw [if_neg hprotect]
  by_cases hmdbg : a.mdbg.rc ≠ 0
  · rw [if_pos hmdbg]
    exact (hfirst.trans (changes_store hc _ a.ptrace)).trans (p.changes_mprotect _ _ _ _ a.restore)
  · rw [if_neg hmdbg]
    exact hfirst.trans (p.changes_mprotect _ _ _ _ a.restore)

/-- A write of the guard byte, in a window of writable protection, changes the
    range. -/
theorem changes_guardByte (hp : p.mainThreadGuard = true) (hc : p.IsWritten c) (k : Kernel)
    (g : ShellUiGuardWriteState) (a : GuardWriteAnswers) :
    let r := shelluiWriteGuardByte { k with trace := [] } g p.pid p.request.methodAddress (c 0) a
    p.Changes k { r.1 with trace := k.trace ++ r.1.trace } := by
  intro r
  have hoffset : p.offset = 0 := if_pos hp
  have hsize : p.size = 1 := if_pos hp
  have hcall := ShellUiGuardWriteState.shelluiWriteGuardByte_spec { k with trace := [] } g p.pid
    p.request.methodAddress (c 0) a rfl
  cases hcall with
  | refused _ hr =>
    have htrace : r.1.trace = [] := congrArg (fun r => r.1.trace) hr
    refine Untouched.changes p ⟨?_, r.1.trace, rfl, ?_⟩
    · exact congrArg (fun r => r.1.memory) hr
    · rw [htrace]
      exact fun _ _ _ => List.not_mem_nil
  | unsaved _ _ _ _ _ hmem htrace =>
    obtain ⟨flags, htrace⟩ := htrace
    refine Untouched.changes p ⟨hmem, r.1.trace, rfl, ?_⟩
    rw [show r.1.trace = _ from htrace]
    exact fun _ _ _ h => by simp at h
  -- Only in this case the byte may have been written, which is the range of a guard patch.
  | saved f _ _ _ _ _ he =>
    refine ⟨fun q x => ?_, r.1.trace, rfl, fun q x bytes h => ?_⟩
    · rcases he.memory q x with h | ⟨hq, hx, hb⟩
      · exact .inl h
      · refine .inr ⟨hq, 0, ⟨hoffset.le, ?_⟩, ?_, c, hc, hb⟩
        · rw [hoffset, hsize]
          decide
        · rw [hx]
          exact (add_zero _).symm
    · obtain ⟨hq, hx, hb⟩ := he.writes q x bytes h
      refine ⟨hq, ?_, ?_⟩
      · rw [hoffset, hx]
        exact (add_zero _).symm
      · rw [hb, hsize]
        rfl

/-- A write changes the range. -/
theorem changes_writeTarget (hc : p.IsWritten c) (k : Kernel) (g : ShellUiGuardWriteState)
    (a : WriteAnswers) : p.Changes k (p.writeTarget k g c a).1 := by
  rw [writeTarget]
  dsimp only
  split_ifs with hfw1160
  · have hguard : p.mainThreadGuard = true := by
      rw [fw1160GuardWrite, Bool.and_eq_true, Bool.and_eq_true] at hfw1160
      exact hfw1160.1.1
    exact changes_guardByte hguard hc k g a.guard
  · exact changes_writePages hc k a
  · exact changes_store hc k a.mdbg
  · exact changes_store hc k a.ptrace

/-! ## The protection of the guard byte -/

/-- The state of the writes of the guard byte keeps the protection `prot`, for the
    method of the request. -/
structure GuardKept (p : HookPlan) (prot : Int32 → UInt64 → ℕ) (k : Kernel) (g : ShellUiGuardWriteState) :
    Prop where
  keeps : ShellUiGuardWriteState.KeepsProtection prot k g
  target : ∀ f, g.originalProtection = some f → g.pid = p.pid ∧ g.address = p.request.methodAddress

theorem guardKept_init (p : HookPlan) (k : Kernel) : p.GuardKept k.protection k {} :=
  ⟨ShellUiGuardWriteState.keepsProtection_init k, fun f h => (Option.some_ne_none f h.symm).elim⟩

theorem GuardKept.congr {prot : Int32 → UInt64 → ℕ} {g : ShellUiGuardWriteState}
    (h : p.GuardKept prot k g)
    (hk : k'.protection = k.protection) : p.GuardKept prot k' g :=
  ⟨⟨hk ▸ h.keeps.unsaved, h.keeps.initial, hk ▸ h.keeps.restored⟩, h.target⟩

/-- A protection that is reported restored is in force. -/
theorem GuardKept.restored {prot : Int32 → UInt64 → ℕ} {g : ShellUiGuardWriteState}
    (h : p.GuardKept prot k g) (hr : g.protectionRestored = true) :
    k.protection p.pid p.request.methodAddress = prot p.pid p.request.methodAddress := by
  cases ho : g.originalProtection with
  | none => exact absurd ((h.keeps.unsaved ho).2.symm.trans hr) (by decide)
  | some f =>
    obtain ⟨hp, hx⟩ := h.target f ho
    have hforce := h.keeps.restored f ho hr
    have hinit := h.keeps.initial f ho
    rw [hp, hx] at hforce hinit
    exact hforce.trans hinit.symm

/-- A write of the guard byte keeps the protection, and restores it if it
    succeeds. -/
theorem guardKept_writeTarget {prot : Int32 → UInt64 → ℕ} {g : ShellUiGuardWriteState}
    (hfw : p.fw1160GuardWrite = true) (h : p.GuardKept prot k g) (c : Code) (a : WriteAnswers) :
    let r := p.writeTarget k g c a
    p.GuardKept prot r.1 r.2.1 ∧ (r.2.2 = 0 → r.2.1.protectionRestored = true) := by
  rw [writeTarget]
  dsimp only
  rw [if_pos hfw]
  have hcall := ShellUiGuardWriteState.shelluiWriteGuardByte_spec { k with trace := [] } g p.pid
    p.request.methodAddress (c 0) a.guard rfl
  generalize shelluiWriteGuardByte { k with trace := [] } g p.pid p.request.methodAddress (c 0) a.guard = r at *
  have h₀ : p.GuardKept prot { k with trace := [] } g := h.congr rfl
  have hkeeps : ShellUiGuardWriteState.KeepsProtection prot r.1 r.2.1 := h₀.keeps.call hcall
  refine ⟨GuardKept.congr ⟨hkeeps, fun f hf => ?_⟩ rfl, fun hrc => ?_⟩
  · cases hcall with
    | refused _ hr =>
      rw [hr] at hf ⊢
      exact h.target f hf
    | unsaved _ _ ho => exact (Option.some_ne_none f (hf.symm.trans ho)).elim
    | saved _ _ _ hp hx => exact ⟨hp, hx⟩
  · cases hcall with
    | refused _ hr =>
      rw [hr] at hrc
      cases hrc
    | unsaved _ _ _ _ _ _ _ hne => exact absurd hrc hne
    | saved _ _ _ _ _ _ he => exact he.success hrc

/-! ## The transaction -/

theorem untouched_readTarget (p : HookPlan) (k : Kernel) (a : ReadAnswers) :
    Untouched k (p.readTarget k a).1 := by
  obtain ⟨hmem, _, _, l, hl, hw, _⟩ := p.readTarget_spec k a
  exact ⟨hmem, l, hl, hw⟩

/-- The code is again the expected one and, for a protected guard byte, the
    protection is again `prot`. -/
def IsBack (p : HookPlan) (prot : Int32 → UInt64 → ℕ) (k : Kernel) : Prop :=
  k.code p.pid p.request.methodAddress = p.request.expected ∧ (p.fw1160GuardWrite = true →
    k.protection p.pid p.request.methodAddress = prot p.pid p.request.methodAddress)

/-- A rollback that reports success put everything back. -/
theorem rollBack_spec {prot : Int32 → UInt64 → ℕ} {g : ShellUiGuardWriteState} {verifyRc : ℤ}
    {verified : Code} (a : PollAnswers) (hg : p.fw1160GuardWrite = true → p.GuardKept prot k g)
    (hv : verifyRc = 0 → verified = k.code p.pid p.request.methodAddress) :
    let r := p.rollBack k g verifyRc verified a
    p.Changes k r.1 ∧ (r.2 = true → p.IsBack prot r.1) := by
  rw [rollBack]
  split_ifs with hstill
  · obtain ⟨⟨hrc, hcode⟩, hprot⟩ := hstill
    refine ⟨.refl p k, fun _ => ⟨(hv hrc).symm.trans hcode, fun hfw => ?_⟩⟩
    exact (hg hfw).restored (hprot.resolve_left (by simp [hfw]))
  · have hwrite := changes_writeTarget (p := p) (.inr rfl) k g a.rollback
    have hkept := fun hfw => guardKept_writeTarget hfw (hg hfw) p.request.expected a.rollback
    dsimp only
    generalize p.writeTarget k g p.request.expected a.rollback = w at *
    split_ifs with hrc
    · obtain ⟨hmem, hprot, hread, _⟩ := p.readTarget_spec w.1 a.rollbackCheck
      have hcheck := (p.untouched_readTarget w.1 a.rollbackCheck).changes p
      generalize p.readTarget w.1 a.rollbackCheck = check at *
      refine ⟨hwrite.trans hcheck, fun h => ?_⟩
      obtain ⟨hrc', hcode⟩ := of_decide_eq_true h
      refine ⟨?_, fun hfw => ?_⟩
      · rw [Kernel.code_congr hmem, ← hread hrc', hcode]
      · obtain ⟨hk, hback⟩ := hkept hfw
        rw [hprot]
        exact hk.restored (hback hrc)
    · exact ⟨hwrite, fun h => by cases h⟩

/-- What a patch did: it was applied; or it failed, and put everything back if it
    says so. -/
structure Patched (p : HookPlan) (prot : Int32 → UInt64 → ℕ) (k k' : Kernel)
    (report : ShellUiHookPatchReport) (applied : Bool) : Prop where
  changes : p.Changes k k'
  restored : report.restored = true → p.IsBack prot k'
  desired : applied = true → k'.code p.pid p.request.methodAddress = p.request.desired
  success : applied = true ↔ report.status = .success
  failed : applied = false → report.status = .writeFailure ∨ report.status = .verifyFailure

theorem patch_spec (p : HookPlan) (k : Kernel) (report : ShellUiHookPatchReport) (a : PollAnswers)
    (hreport : report.restored = false) :
    let r := p.patch k report a
    p.Patched k.protection k r.1 r.2.1 r.2.2 := by
  have hwrite := changes_writeTarget (p := p) (.inl rfl) k {} a.write
  have hkept := fun hfw => (guardKept_writeTarget hfw (p.guardKept_init k) p.request.desired a.write).1
  rw [patch]
  dsimp only
  generalize p.writeTarget k {} p.request.desired a.write = w at *
  obtain ⟨hmem, hprot, hread, _⟩ := p.readTarget_spec w.1 a.verify
  have hverify := hwrite.trans ((p.untouched_readTarget w.1 a.verify).changes p)
  generalize p.readTarget w.1 a.verify = v at *
  have hcode : v.2.1 = 0 → v.2.2 = v.1.code p.pid p.request.methodAddress := by
    intro hrc
    rw [Kernel.code_congr hmem]
    exact hread hrc
  -- Without a verified write, the code is rolled back and the outcome is a failure.
  by_cases hok : decide (v.2.1 = 0 ∧ v.2.2 = p.request.desired) = true ∧ w.2.2 = 0
  · rw [if_pos hok]
    obtain ⟨hrc, hdesired⟩ := of_decide_eq_true hok.1
    exact ⟨hverify, fun h => absurd (hreport.symm.trans h) Bool.false_ne_true,
      fun _ => (hcode hrc).symm.trans hdesired, iff_of_true rfl rfl,
        fun h => absurd h.symm Bool.false_ne_true⟩
  · rw [if_neg hok]
    obtain ⟨hchanges, hback⟩ := rollBack_spec a (fun hfw => (hkept hfw).congr hprot) hcode
    refine ⟨hverify.trans hchanges, hback, fun h => absurd h Bool.false_ne_true,
      iff_of_false Bool.false_ne_true fun h => ?_, fun _ => ?_⟩
    · dsimp only at h
      split_ifs at h
    · dsimp only
      split_ifs
      · exact .inr rfl
      · exact .inl rfl

/-- Every write of `l` comes after the calls `needs`. -/
def Justified (needs l : List KernelCall) : Prop :=
  ∀ pre post q x bytes, l = pre ++ .write q x bytes :: post → needs ⊆ pre

theorem justified_of_not_write {needs l : List KernelCall} (h : ∀ q x bytes, .write q x bytes ∉ l) :
    Justified needs l := by
  rintro pre post q x bytes rfl
  exact absurd (by simp) (h q x bytes)

theorem justified_append {needs l l' : List KernelCall} (hn : needs ⊆ l)
    (hw : ∀ q x bytes, .write q x bytes ∉ l) : Justified needs (l ++ l') := by
  intro pre post q x bytes h
  rcases List.append_eq_append_iff.1 h with ⟨mid, rfl, _⟩ | ⟨mid, rfl, htail⟩
  · exact List.Subset.trans hn (List.subset_append_left l mid)
  · cases mid with
    | nil => simpa using hn
    | cons c mid =>
      obtain ⟨rfl, _⟩ := List.cons.inj htail
      exact absurd (by simp) (hw q x bytes)

/-- Between two calls that write nothing, the first one is also needed. -/
theorem Justified.bracket {needs l : List KernelCall} {c d : KernelCall} (h : Justified needs l)
    (hc : ∀ q x bytes, c ≠ .write q x bytes) (hd : ∀ q x bytes, d ≠ .write q x bytes) :
    Justified (c :: needs) (c :: l ++ [d]) := by
  intro pre post q x bytes heq
  cases pre with
  | nil => exact absurd (List.cons.inj heq).1 (hc q x bytes)
  | cons e pre =>
    obtain ⟨rfl, htail⟩ := List.cons.inj heq
    refine List.cons_subset_cons c ?_
    rcases List.append_eq_append_iff.1 htail with ⟨mid, rfl, hlast⟩ | ⟨mid, rfl, hlast⟩
    · cases mid with
      | nil => exact absurd (List.cons.inj hlast).1 (hd q x bytes)
      | cons e mid => simp at hlast
    · cases mid with
      | nil => exact absurd (List.cons.inj hlast).1.symm (hd q x bytes)
      | cons e mid =>
        obtain ⟨rfl, _⟩ := List.cons.inj hlast
        exact h _ mid q x bytes rfl

/-- The read that every write needs. -/
def readExpected (p : HookPlan) : KernelCall :=
  .read p.pid p.request.methodAddress (some p.request.expected)

/-- What happened to the target, whether a patch was applied or not. -/
structure Settled (p : HookPlan) (k k' : Kernel) (report : ShellUiHookPatchReport) (applied : Bool) :
    Prop where
  changes : p.Changes k k'
  idle : p.probe = true ∨ k.code p.pid p.request.methodAddress ≠ p.request.expected → Untouched k k'
  restored : report.restored = true → p.IsBack k.protection k'
  desired : applied = true → p.probe = false ∧ k'.code p.pid p.request.methodAddress = p.request.desired
  reported : applied = true → report.status = .success
  success : report.status = .success → p.probe = true ∨ applied = true
  failed : applied = false →
    k'.code p.pid p.request.methodAddress = k.code p.pid p.request.methodAddress ∨
      report.restored = false ∧ (report.status = .writeFailure ∨ report.status = .verifyFailure)
  supported : report.status ≠ .unsupportedFirmware

/-- A stopped target that is not written. -/
theorem Settled.of_read {report : ShellUiHookPatchReport} (a : ReadAnswers)
    (hr : report.restored = false) (hs : report.status = .success → p.probe = true)
    (hu : report.status ≠ .unsupportedFirmware) : p.Settled k (p.readTarget k a).1 report false := by
  have hread := p.untouched_readTarget k a
  exact ⟨hread.changes p, fun _ => hread, fun h => absurd (hr.symm.trans h) Bool.false_ne_true,
    fun h => absurd h Bool.false_ne_true, fun h => absurd h Bool.false_ne_true, fun h => .inl (hs h),
    fun _ => .inl (Kernel.code_congr hread.memory), hu⟩

theorem applyStopped_spec (p : HookPlan) (k : Kernel) (report : ShellUiHookPatchReport) (a : PollAnswers)
    (hreport : report.restored = false) :
    let r := p.applyStopped k report a
    p.Settled k r.1 r.2.1 r.2.2 ∧ ∃ l, r.1.trace = k.trace ++ l ∧ Justified [p.readExpected] l := by
  obtain ⟨hmem, hprot, hread, l, hl, hw, hcall⟩ := p.readTarget_spec k a.read
  have hread_only : ∃ l, (p.readTarget k a.read).1.trace = k.trace ++ l ∧ Justified [p.readExpected] l :=
    ⟨l, hl, justified_of_not_write hw⟩
  rw [applyStopped]
  dsimp only
  split_ifs with hprobe hrc hmismatch
  · exact ⟨.of_read a.read hreport (fun _ => hprobe) (by simp), hread_only⟩
  · exact ⟨.of_read a.read hreport (fun _ => hprobe) (by simp), hread_only⟩
  · exact ⟨.of_read a.read hreport (fun h => by cases h) (by simp), hread_only⟩
  · obtain ⟨hrc, hexpected⟩ := not_or.1 hmismatch
    have hrc := not_not.1 hrc
    have hexpected := not_not.1 hexpected
    have hfirst := (p.untouched_readTarget k a.read).changes p
    have hpatch := p.patch_spec (p.readTarget k a.read).1
      { report with readRc := (p.readTarget k a.read).2.1 } a hreport
    obtain ⟨l', hl', hrange⟩ := hpatch.changes.trace
    -- The code was read to be as expected, so that the expected code is the original one.
    have horiginal : k.code p.pid p.request.methodAddress = p.request.expected :=
      (hread hrc).symm.trans hexpected
    rw [hprot] at hpatch
    rw [hexpected] at hcall
    generalize p.patch (p.readTarget k a.read).1 { report with readRc :=
      (p.readTarget k a.read).2.1 } a = r at *
    refine ⟨⟨hfirst.trans hpatch.changes, fun h => (h.elim hprobe fun h => h horiginal).elim,
      hpatch.restored,
      fun h => ⟨by simpa using hprobe, hpatch.desired h⟩, hpatch.success.1,
      fun h => .inr (hpatch.success.2 h), fun h => ?_, fun h => ?_⟩,
        l ++ l', by rw [hl', hl, List.append_assoc],
      justified_append (List.cons_subset.2 ⟨hcall hrc, List.nil_subset l⟩) hw⟩
    · -- A rollback that reports success left the code as it was.
      by_cases hr : r.2.1.restored = true
      · exact .inl ((hpatch.restored hr).1.trans horiginal.symm)
      · exact .inr ⟨eq_false_of_ne_true hr, hpatch.failed h⟩
    · cases happlied : r.2.2 with
      | true => exact absurd (h.symm.trans (hpatch.success.1 happlied)) (by decide)
      | false => rcases hpatch.failed happlied with hs | hs <;> exact absurd (h.symm.trans hs) (by decide)

/-- A transaction does not change what kind of request it reports. -/
theorem applyStopped_kind (p : HookPlan) (k : Kernel) (report : ShellUiHookPatchReport) (a : PollAnswers) :
    (p.applyStopped k report a).2.1.probe = report.probe ∧
      (p.applyStopped k report a).2.1.mainThreadGuard = report.mainThreadGuard := by
  have hpatch : ∀ k report, (p.patch k report a).2.1.probe = report.probe ∧
      (p.patch k report a).2.1.mainThreadGuard = report.mainThreadGuard := by
    intro k report
    rw [patch]
    dsimp only
    split_ifs <;> exact ⟨rfl, rfl⟩
  rw [applyStopped]
  dsimp only
  split_ifs
  all_goals first | exact ⟨rfl, rfl⟩ | exact hpatch _ _

/-- The requests that may be written: valid patches, of the expected code. -/
structure Writable (p : HookPlan) (k : Kernel) : Prop where
  valid : p.valid = true
  supported : p.backend ≠ .unsupported
  patch : p.probe = false
  expected : k.code p.pid p.request.methodAddress = p.request.expected

/-- What a transaction did, from the kernel before it to the kernel and the report
    after it. -/
structure Reported (p : HookPlan) (k k' : Kernel) (report : ShellUiHookPatchReport) : Prop where
  changes : p.Changes k k'
  idle : ¬p.Writable k → Untouched k k'
  justified : ∃ l, k'.trace = k.trace ++ l ∧ Justified [.attach p.pid true, p.readExpected] l
  restored : report.restored = true → p.IsBack k.protection k'
  success : report.status = .success → p.valid = true ∧ p.backend ≠ .unsupported ∧
    (p.probe = false → k'.code p.pid p.request.methodAddress = p.request.desired)
  failed : report.status ≠ .success →
    k'.code p.pid p.request.methodAddress = k.code p.pid p.request.methodAddress ∨
      report.restored = false ∧ (report.status = .writeFailure ∨ report.status = .verifyFailure) ∨
      (report.status = .detachFailure ∨ report.status = .authRestoreFailure) ∧
        k'.code p.pid p.request.methodAddress = p.request.desired
  supported : report.status = .unsupportedFirmware → p.backend = .unsupported
  detached : report.detached = true → k'.attached p.pid = false
  probe : report.probe = p.probe
  mainThreadGuard : report.mainThreadGuard = p.mainThreadGuard

/-- A transaction that ends before ShellUI is read. -/
theorem Reported.of_untouched {report : ShellUiHookPatchReport} (h : Untouched k k')
    (hr : report.restored = false) (hd : report.detached = false) (hs : report.status ≠ .success)
    (hu : report.status = .unsupportedFirmware → p.backend = .unsupported) (hp : report.probe = p.probe)
    (hg : report.mainThreadGuard = p.mainThreadGuard) : p.Reported k k' report := by
  obtain ⟨l, hl, hw⟩ := h.trace
  exact ⟨h.changes p, fun _ => h, ⟨l, hl, justified_of_not_write hw⟩,
    fun h => absurd (hr.symm.trans h) Bool.false_ne_true, fun h => absurd h hs,
    fun _ => .inl (Kernel.code_congr h.memory), hu,
      fun h => absurd (hd.symm.trans h) Bool.false_ne_true, hp, hg⟩

/-- The credential that is read back is the one in force. -/
theorem authId_of_getAuth {ok : Bool} {auth : UInt64} (h₀ : auth ≠ 0) (h : k.getAuth ok = auth) :
    k.authId = auth := by
  rw [Kernel.getAuth] at h
  split_ifs at h
  · exact h
  · exact absurd h.symm h₀

/-- The report of a valid request, before it touches ShellUI. -/
def start (p : HookPlan) : ShellUiHookPatchReport :=
  { probe := p.probe, mainThreadGuard := p.mainThreadGuard, etaChain := p.etaChain }

/-- ShellUI is let go of again, and a patch is applied or not. -/
theorem apply_spec (k : Kernel) (a : PollAnswers) (hvalid : p.valid = true)
    (hbackend : p.backend ≠ .unsupported) :
    let r := p.apply k p.start a
    p.Reported k r.1 r.2.1 ∧ (r.2.2 = true →
      p.probe = false ∧ r.1.code p.pid p.request.methodAddress = p.request.desired) := by
  rw [apply]
  dsimp only
  by_cases hattach : a.attach = true
  · rw [if_pos hattach]
    obtain ⟨hs, l, hl, hjust⟩ :=
      p.applyStopped_spec (k.attach p.pid a.attach) p.start a rfl
    obtain ⟨hkind, hguard⟩ := p.applyStopped_kind (k.attach p.pid a.attach) p.start a
    generalize p.applyStopped (k.attach p.pid a.attach) p.start a = r at *
    have htrace : (r.1.detach p.pid a.detach).trace =
        k.trace ++ (.attach p.pid true :: l ++ [.detach p.pid a.detach]) := by
      show r.1.trace ++ _ = _
      rw [hl, ← hattach]
      simp [Kernel.attach]
    have hbefore : Untouched k (k.attach p.pid a.attach) := .of_call rfl rfl fun _ _ _ h => by cases h
    have hafter : Untouched r.1 (r.1.detach p.pid a.detach) := .of_call rfl rfl fun _ _ _ h => by cases h
    have hchanges := ((hbefore.changes p).trans hs.changes).trans (hafter.changes p)
    -- If the code was not as expected, or is only probed, nothing is written.
    have hidle : ¬p.Writable k → Untouched k (r.1.detach p.pid a.detach) := by
      intro hnot
      refine (hbefore.trans (hs.idle ?_)).trans hafter
      by_contra hor
      obtain ⟨hp, hcode⟩ := not_or.1 hor
      exact hnot ⟨hvalid, hbackend, eq_false_of_ne_true hp, not_not.1 hcode⟩
    have hdetached : a.detach = true → (r.1.detach p.pid a.detach).attached p.pid = false :=
      fun h => if_pos ⟨rfl, h⟩
    refine ⟨?_, hs.desired⟩
    split_ifs with hfail
    · -- The patch was applied, but ShellUI was not let go: the success is taken back.
      have happlied : r.2.2 = true := (Bool.and_eq_true_iff.1 hfail).2
      exact ⟨hchanges, hidle, ⟨_, htrace, hjust.bracket (by simp) (by simp)⟩, hs.restored,
        fun h => (by cases h), fun _ => .inr (.inr ⟨.inl rfl, (hs.desired happlied).2⟩),
          fun h => (by cases h),
        hdetached, hkind, hguard⟩
    · refine ⟨hchanges, hidle, ⟨_, htrace, hjust.bracket (by simp) (by simp)⟩, hs.restored,
        fun h => ⟨hvalid, hbackend, fun hp => ?_⟩, fun h => ?_, fun h => absurd h hs.supported,
          hdetached, hkind,
        hguard⟩
      · exact (hs.desired ((hs.success h).resolve_left (by simp [hp]))).2
      · cases happlied : r.2.2 with
        | true => exact absurd (hs.reported happlied) h
        | false => exact (hs.failed happlied).imp_right .inl
  · rw [if_neg hattach]
    refine ⟨.of_untouched ?_ rfl rfl ?_ ?_ rfl rfl, ?_⟩
    · exact .of_call rfl rfl fun _ _ _ h => by cases h
    all_goals simp

/-- Nothing that a transaction reports depends on the credentials, but whether
    they are back; without which an applied patch is no success. -/
theorem Reported.setAuth {report : ShellUiHookPatchReport} {k₀ : Kernel} {auth : UInt64} {a : SetAnswer}
    {applied : Bool} (h : p.Reported (k₀.setAuth auth a) k report)
    (hd : applied = true → k.code p.pid p.request.methodAddress = p.request.desired) (auth' : UInt64)
    (a' : SetAnswer) (restored : Bool) : p.Reported k₀ (k.setAuth auth' a')
      (if !restored && applied then { report with authRestored := restored, status := .authRestoreFailure }
      else { report with authRestored := restored }) := by
  have hidle : ¬p.Writable k₀ → Untouched k₀ (k.setAuth auth' a') := by
    intro hnot
    have hu := h.idle fun hw => hnot ⟨hw.valid, hw.supported, hw.patch, hw.expected⟩
    exact ⟨hu.memory, hu.trace⟩
  split_ifs with hfail
  · have happlied : applied = true := (Bool.and_eq_true_iff.1 hfail).2
    exact ⟨⟨h.changes.memory, h.changes.trace⟩, hidle, h.justified, h.restored, fun h => (by cases h),
      fun _ => .inr (.inr ⟨.inr rfl, hd happlied⟩), fun h => (by cases h), h.detached, h.probe,
      h.mainThreadGuard⟩
  · exact ⟨⟨h.changes.memory, h.changes.trace⟩, hidle, h.justified, h.restored, h.success, h.failed,
      h.supported, h.detached, h.probe, h.mainThreadGuard⟩

end HookPlan

/-- What a transaction does, and whether it gives the credentials back. -/
theorem pollAndApply_spec (k : Kernel) (sdk : UInt32) (pid : Int32) (request : ShellUiHookRequest)
    (a : PollAnswers) :
    let r := pollAndApply k sdk pid request a
    HookPlan.Reported ⟨sdk, pid, request⟩ k r.1 r.2 ∧
      (r.2.authRestored = true → r.1.authId = k.authId) := by
  rw [pollAndApply]
  dsimp only
  generalize (⟨sdk, pid, request⟩ : HookPlan) = p
  have htrace := (HookPlan.Untouched.refl k).trace
  by_cases hvalid : p.valid = true
  · rw [if_neg (by simp [hvalid])]
    by_cases hbackend : p.backend = .unsupported
    · rw [if_pos hbackend]
      exact ⟨.of_untouched ⟨rfl, htrace⟩ rfl rfl (by simp) (fun _ => hbackend) rfl rfl,
        fun h => by cases h⟩
    rw [if_neg hbackend]
    by_cases hget : k.getAuth a.getAuth = 0
    · rw [if_pos hget]
      exact ⟨.of_untouched ⟨rfl, htrace⟩ rfl rfl (by simp) (by simp) rfl rfl, fun h => by cases h⟩
    rw [if_neg hget]
    by_cases hset : a.setAuth.rc ≠ 0
    · rw [if_pos hset]
      exact ⟨.of_untouched ⟨rfl, htrace⟩ rfl rfl (by simp) (by simp) rfl rfl, fun h => by cases h⟩
    rw [if_neg hset]
    have horiginal : k.authId = k.getAuth a.getAuth := HookPlan.authId_of_getAuth hget rfl
    have happly := HookPlan.apply_spec (k.setAuth kPtraceAuthId a.setAuth) a hvalid hbackend
    change let r := p.apply (k.setAuth kPtraceAuthId a.setAuth) p.start a; _ at happly
    generalize hr : p.apply (k.setAuth kPtraceAuthId a.setAuth) p.start a = r at happly
    obtain ⟨hreported, hdesired⟩ := happly
    rw [HookPlan.start] at hr
    rw [hr]
    refine ⟨hreported.setAuth (fun h => (hdesired h).2) (k.getAuth a.getAuth) a.restoreAuth _, fun h => ?_⟩
    -- The report says that the credential is back only after a check that read it.
    have hauth : decide (a.restoreAuth.rc = 0 ∧ (r.1.setAuth (k.getAuth a.getAuth) a.restoreAuth).getAuth
        a.checkAuth = k.getAuth a.getAuth) = true := by
      split_ifs at h <;> exact h
    rw [horiginal]
    exact HookPlan.authId_of_getAuth hget (of_decide_eq_true hauth).2
  · rw [if_pos (by simp [hvalid])]
    exact ⟨.of_untouched ⟨rfl, htrace⟩ rfl rfl (by simp) (by simp) rfl rfl, fun h => by cases h⟩

/-- The bytes that a request may change are those that its kind selects. -/
theorem HookPlan.InRange.kind {p : HookPlan} {i : Fin 16} (h : p.InRange i) :
    (p.mainThreadGuard = true → i = 0) ∧ (p.etaChain = true → 6 ≤ i.val ∧ i.val ≤ 13) := by
  obtain ⟨hle, hlt⟩ := h
  refine ⟨fun hg => ?_, fun he => ?_⟩
  · have hsize : p.offset + p.size = 1 := by simp [HookPlan.offset, HookPlan.size, hg]
    exact Fin.ext (by rw [hsize] at hlt; exact Nat.lt_one_iff.1 hlt)
  · have hg : p.mainThreadGuard = false := by
      rw [HookPlan.etaChain, Bool.and_eq_true, Bool.and_eq_true] at he
      exact (Bool.not_eq_true' _).mp he.1.2
    have hoffset : p.offset = 6 := by simp [HookPlan.offset, hg, he]
    have hsize : p.offset + p.size = 14 := by simp [HookPlan.offset, HookPlan.size, hg, he]
    rw [hoffset] at hle
    rw [hsize] at hlt
    exact ⟨hle, Nat.le_of_lt_succ hlt⟩

/-- A transaction is all or reported, whatever its calls to the kernel do. -/
theorem transaction_reported (k : Kernel) (sdk : UInt32) (pid : Int32) (request : ShellUiHookRequest)
    (a : PollAnswers) :
    let p : HookPlan := ⟨sdk, pid, request⟩
    let r := pollAndApply k sdk pid request a
    let target := fun k : Kernel => k.code pid request.methodAddress
    -- Every write is one of the range of a valid request, made after ShellUI was
    -- stopped and its code was read to be the expected one.
    (∃ l, r.1.trace = k.trace ++ l ∧ ∀ pre post q x bytes, l = pre ++ .write q x bytes :: post →
      p.valid = true ∧ .attach pid true ∈ pre ∧
        .read pid request.methodAddress (some request.expected) ∈ pre ∧
        q = pid ∧ x = request.methodAddress + p.offset.toUInt64 ∧ bytes.length = p.size) ∧
    -- No other byte changes: of the target, or of any memory.
    (∀ i, target r.1 i ≠ target k i → p.InRange i ∧ (p.mainThreadGuard = true → i = 0) ∧
      (p.etaChain = true → 6 ≤ i.val ∧ i.val ≤ 13)) ∧
    (∀ q x, r.1.memory q x ≠ k.memory q x →
      q = pid ∧ ∃ i : Fin 16, x = request.methodAddress + i.val.toUInt64) ∧
    -- A success of a patch is one.
    (r.2.status = .success → p.probe = false → target r.1 = request.desired) ∧
    -- A rollback that is reported is one, also of the protection of a guard byte.
    (r.2.restored = true → target r.1 = request.expected ∧ (p.fw1160GuardWrite = true →
      r.1.protection pid request.methodAddress = k.protection pid request.methodAddress)) ∧
    -- A failure leaves the target as it was, or reports that it did not restore it,
    -- or that it applied the patch but did not let go.
    (r.2.status ≠ .success → target r.1 = target k ∨
      r.2.restored = false ∧ (r.2.status = .writeFailure ∨ r.2.status = .verifyFailure) ∨
      (r.2.status = .detachFailure ∨ r.2.status = .authRestoreFailure) ∧
        target r.1 = request.desired) := by
  intro p r target
  obtain ⟨h, _⟩ := pollAndApply_spec k sdk pid request a
  refine ⟨?_, fun i hne => ?_, fun q x hne => ?_, fun hs hp => (h.success hs).2.2 hp, h.restored, h.failed⟩
  · obtain ⟨l, hl, hjust⟩ := h.justified
    obtain ⟨l', hl', hrange⟩ := h.changes.trace
    obtain rfl : l = l' := List.append_cancel_left (hl.symm.trans hl')
    refine ⟨l, hl, fun pre post q x bytes heq => ?_⟩
    have hmem : .write q x bytes ∈ l := heq ▸ by simp
    have hneeds := hjust pre post q x bytes heq
    refine ⟨?_, hneeds (by simp), hneeds (by simp [HookPlan.readExpected]), hrange q x bytes hmem⟩
    by_contra hvalid
    obtain ⟨l', hl', hnone⟩ := (h.idle fun hw => hvalid hw.valid).trace
    obtain rfl : l = l' := List.append_cancel_left (hl.symm.trans hl')
    exact hnone q x bytes hmem
  · have hin : p.InRange i := by
      by_contra hout
      exact hne (h.changes.code hout)
    exact ⟨hin, hin.kind⟩
  · obtain ⟨hq, i, _, hx, _⟩ := (h.changes.memory q x).resolve_left hne
    exact ⟨hq, i, hx⟩

end CommonFps
