import CommonFps.ShellUi.Requests

/-!
# What a successful poll leaves held

The controller computes the status of a transaction before it lets ShellUI go and
takes its own credential back, and downgrades it if one of these fails; but only
the status of a patch that was applied. A probe that reads its code is a success
whatever happens then.

* `LetGo`: nothing is held;
* `pollAndApply_success`: a success lets go, or is a probe that read its code;
* `success_lets_go_iff`: exactly when a success lets go.
-/

namespace CommonFps

/-- ShellUI was let go of, and the controller has, and read back, the credential
    that it had. -/
structure LetGo (k k' : Kernel) (pid : Int32) (report : ShellUiHookPatchReport) : Prop where
  detached : report.detached = true
  running : k'.attached pid = false
  authRestored : report.authRestored = true
  authId : k'.authId = k.authId

namespace HookPlan

variable (p : HookPlan) (k : Kernel) (a : PollAnswers)

/-- The read that decides about the target. -/
def lastRead (a : ReadAnswers) : ReadAnswer :=
  if p.backend = .ptraceIo ∧ firmwareIsFw1160 p.sdk ∧ a.primary.rc = EFAULT then a.fallback else a.primary

/-- The request is valid and supported, and the calls that take the credential
    for it succeed. -/
structure Enters : Prop where
  valid : p.valid = true
  supported : p.backend ≠ .unsupported
  getAuth : k.getAuth a.getAuth ≠ 0
  setAuth : a.setAuth.rc = 0

/-- The request is a probe, and its calls succeed up to the read. -/
structure ProbeReads : Prop extends p.Enters k a where
  probe : p.probe = true
  attach : a.attach = true
  read : (p.lastRead a.read).rc = 0

/-- The calls that let go after the read of a probe succeed: the detachment, and
    the restoration of the credential, which is read back. -/
structure Releases : Prop where
  detach : a.detach = true
  restore : a.restoreAuth.rc = 0
  check : a.checkAuth = true
  authId : a.restoreAuth.applied = true ∨ (p.lastRead a.read).authId = k.authId

variable {p k}

theorem readTarget_lastRead (hbackend : p.backend ≠ .unsupported) (k : Kernel) (a : ReadAnswers) :
    (p.readTarget k a).2.1 = (p.lastRead a).rc ∧ (p.readTarget k a).1.authId = (p.lastRead a).authId := by
  rw [readTarget, if_neg hbackend, lastRead]
  dsimp only
  split_ifs <;> exact ⟨rfl, rfl⟩

/-- A patch that is reported a success was applied; a probe, read. -/
theorem applyStopped_success (hbackend : p.backend ≠ .unsupported) {report : ShellUiHookPatchReport}
    (hreport : report.restored = false) (h : (p.applyStopped k report a).2.1.status = .success) :
    p.probe = true ∧ (p.lastRead a.read).rc = 0 ∨ (p.applyStopped k report a).2.2 = true := by
  rcases (p.applyStopped_spec k report a hreport).1.success h with hprobe | happlied
  · refine .inl ⟨hprobe, ?_⟩
    rw [← (readTarget_lastRead hbackend k a.read).1]
    rw [applyStopped] at h
    dsimp only at h
    rw [if_pos hprobe] at h
    by_contra hrc
    rw [if_neg hrc] at h
    cases h
  · exact .inr happlied

/-- A patch whose detachment failed is no success. -/
theorem apply_success (hbackend : p.backend ≠ .unsupported) {report : ShellUiHookPatchReport}
    (hreport : report.restored = false) (h : (p.apply k report a).2.1.status = .success) :
    a.attach = true ∧ (p.probe = true ∧ (p.lastRead a.read).rc = 0 ∨
      (p.apply k report a).2.2 = true ∧ (p.apply k report a).2.1.detached = true ∧
        (p.apply k report a).1.attached p.pid = false) := by
  rw [apply] at h ⊢
  dsimp only at h ⊢
  by_cases hattach : a.attach = true
  · rw [if_pos hattach] at h ⊢
    refine ⟨hattach, ?_⟩
    dsimp only at h ⊢
    by_cases hdetach : (!a.detach && (p.applyStopped (k.attach p.pid a.attach) report a).2.2) = true
    · rw [if_pos hdetach] at h
      cases h
    · rw [if_neg hdetach] at h ⊢
      refine (applyStopped_success a hbackend hreport h).imp_right fun happlied => ?_
      have hok : a.detach = true := by simpa [happlied] using hdetach
      exact ⟨happlied, hok, if_pos ⟨rfl, hok⟩⟩
  · rw [if_neg hattach] at h
    cases h

/-- A probe that reads its code is a success. -/
theorem apply_probe (k : Kernel) (report : ShellUiHookPatchReport) (hbackend : p.backend ≠ .unsupported)
    (hprobe : p.probe = true) (hattach : a.attach = true) (hread : (p.lastRead a.read).rc = 0) :
    let r := p.apply k report a
    r.2.1.status = .success ∧ r.2.1.detached = a.detach ∧ r.2.2 = false ∧
      r.1.authId = (p.lastRead a.read).authId ∧ (a.detach = true → r.1.attached p.pid = false) := by
  obtain ⟨hrc, hauth⟩ := readTarget_lastRead hbackend (k.attach p.pid a.attach) a.read
  rw [apply, applyStopped]
  dsimp only
  rw [if_pos hattach]
  simp only [if_pos hprobe, if_pos (hrc.trans hread), Bool.and_false, Bool.false_eq_true, if_false]
  exact ⟨trivial, trivial, trivial, hauth, fun h => if_pos ⟨rfl, h⟩⟩

/-- What is read back of the credential at the end. -/
def checked (p : HookPlan) (k : Kernel) (a : PollAnswers) : Bool :=
  a.restoreAuth.rc = 0 ∧ (((p.apply (k.setAuth kPtraceAuthId a.setAuth) p.start a).1.setAuth
    (k.getAuth a.getAuth) a.restoreAuth).getAuth a.checkAuth = k.getAuth a.getAuth)

variable {a}

/-- Once it has the credential, the transaction stops ShellUI and lets it go. -/
theorem pollAndApply_of_enters (h : p.Enters k a) :
    let r := p.apply (k.setAuth kPtraceAuthId a.setAuth) p.start a
    pollAndApply k p.sdk p.pid p.request a =
      (r.1.setAuth (k.getAuth a.getAuth) a.restoreAuth,
        if !p.checked k a && r.2.2 then
          { r.2.1 with authRestored := p.checked k a, status := .authRestoreFailure }
        else { r.2.1 with authRestored := p.checked k a }) := by
  rw [pollAndApply]
  dsimp only
  rw [if_neg (by simp [h.valid]), if_neg h.supported, if_neg h.getAuth, if_neg (not_not.2 h.setAuth)]
  rfl

/-- Without the credential, it is no success. -/
theorem enters_of_success (h : (pollAndApply k p.sdk p.pid p.request a).2.status = .success) :
    p.Enters k a := by
  rw [pollAndApply] at h
  dsimp only at h
  by_cases hvalid : (!p.valid) = true
  · rw [if_pos hvalid] at h
    cases h
  rw [if_neg hvalid] at h
  by_cases hbackend : p.backend = .unsupported
  · rw [if_pos hbackend] at h
    cases h
  rw [if_neg hbackend] at h
  by_cases hget : k.getAuth a.getAuth = 0
  · rw [if_pos hget] at h
    cases h
  rw [if_neg hget] at h
  by_cases hset : a.setAuth.rc ≠ 0
  · rw [if_pos hset] at h
    cases h
  · exact ⟨by simpa using hvalid, hbackend, hget, not_not.1 hset⟩

/-- A success lets go, unless it is that of a probe. -/
theorem pollAndApply_success (h : (pollAndApply k p.sdk p.pid p.request a).2.status = .success) :
    p.ProbeReads k a ∨ LetGo k (pollAndApply k p.sdk p.pid p.request a).1 p.pid
      (pollAndApply k p.sdk p.pid p.request a).2 := by
  have henters := enters_of_success h
  obtain ⟨_, hauth⟩ := pollAndApply_spec k p.sdk p.pid p.request a
  rw [pollAndApply_of_enters henters] at h hauth ⊢
  dsimp only at h hauth ⊢
  by_cases hlost : (!p.checked k a && (p.apply (k.setAuth kPtraceAuthId a.setAuth) p.start a).2.2) = true
  · rw [if_pos hlost] at h
    cases h
  rw [if_neg hlost] at h hauth ⊢
  obtain ⟨hattach, ⟨hprobe, hread⟩ | ⟨happlied, hdetached, hrunning⟩⟩ :=
    apply_success a henters.supported rfl h
  · exact .inl ⟨henters, hprobe, hattach, hread⟩
  · have hchecked : p.checked k a = true := by simpa [happlied] using hlost
    exact .inr ⟨hdetached, hrunning, hchecked, hauth hchecked⟩

/-- The credential is read back if the calls that restore it succeed. -/
theorem ProbeReads.checked_iff (h : p.ProbeReads k a) : p.checked k a = true ↔
    a.restoreAuth.rc = 0 ∧ a.checkAuth = true ∧
      (a.restoreAuth.applied = true ∨ (p.lastRead a.read).authId = k.authId) := by
  have horiginal : k.getAuth a.getAuth = k.authId := (authId_of_getAuth h.getAuth rfl).symm
  have hne : k.authId ≠ 0 := horiginal ▸ h.getAuth
  obtain ⟨_, _, _, hauth, _⟩ :=
    apply_probe a (k.setAuth kPtraceAuthId a.setAuth) p.start h.supported h.probe h.attach h.read
  rw [checked, decide_eq_true_iff, horiginal, Kernel.getAuth, Kernel.setAuth]
  dsimp only at hauth ⊢
  rw [hauth]
  refine and_congr_right fun _ => ?_
  by_cases hcheck : a.checkAuth = true
  · by_cases happlied : a.restoreAuth.applied = true <;> simp [hcheck, happlied]
  · simp [hcheck, hne.symm]

/-- A probe that reads its code is a success; it lets go if the calls for that
    succeed. -/
theorem ProbeReads.letGo_iff (h : p.ProbeReads k a) :
    let r := pollAndApply k p.sdk p.pid p.request a
    r.2.status = .success ∧ (LetGo k r.1 p.pid r.2 ↔ p.Releases k a) := by
  have henters := h.toEnters
  obtain ⟨_, hauth⟩ := pollAndApply_spec k p.sdk p.pid p.request a
  obtain ⟨hsuccess, hdetached, happlied, _, hrunning⟩ :=
    apply_probe a (k.setAuth kPtraceAuthId a.setAuth) p.start h.supported h.probe h.attach h.read
  have hkept : ¬(!p.checked k a && (p.apply (k.setAuth kPtraceAuthId a.setAuth) p.start a).2.2) = true := by
    rw [happlied, Bool.and_false]
    exact Bool.false_ne_true
  rw [pollAndApply_of_enters henters] at hauth ⊢
  dsimp only at hauth ⊢
  rw [if_neg hkept] at hauth ⊢
  refine ⟨hsuccess, fun hgo => ?_, fun hrel => ?_⟩
  · obtain ⟨hrestore, hcheck, hid⟩ := h.checked_iff.1 hgo.authRestored
    exact ⟨hdetached.symm.trans hgo.detached, hrestore, hcheck, hid⟩
  · have hchecked := h.checked_iff.2 ⟨hrel.restore, hrel.check, hrel.authId⟩
    exact ⟨hdetached.trans hrel.detach, hrunning hrel.detach, hchecked, hauth hchecked⟩

end HookPlan

/-- A success leaves nothing held exactly if it is not that of a probe which read
    its code and whose calls to let go did not all succeed. -/
theorem success_lets_go_iff (k : Kernel) (sdk : UInt32) (pid : Int32) (request : ShellUiHookRequest)
    (a : PollAnswers) :
    let p : HookPlan := ⟨sdk, pid, request⟩
    let r := pollAndApply k sdk pid request a
    (r.2.status = .success → LetGo k r.1 pid r.2) ↔ (p.ProbeReads k a → p.Releases k a) := by
  intro p r
  constructor
  · intro h hprobe
    obtain ⟨hsuccess, hiff⟩ := hprobe.letGo_iff
    exact hiff.1 (h hsuccess)
  · intro h hsuccess
    rcases HookPlan.pollAndApply_success (p := p) hsuccess with hprobe | hgo
    · exact hprobe.letGo_iff.2.2 (h hprobe)
    · exact hgo

/-- A kernel in which the controller has a credential. -/
def heldKernel : Kernel := { HookPlan.chainedKernel with authId := 5 }

/-- A write that succeeds; a probe makes none. -/
def unusedWrite : WriteAnswers :=
  let set : MprotectAnswer := ⟨0, fun _ => true⟩
  let store : StoreAnswer := ⟨0, 0, fun _ => true, kPtraceAuthId⟩
  ⟨⟨true, set, true, set, true, store, store, set, true⟩, set, store, store, set⟩

/-- All calls for a probe succeed, but the detachment. -/
def heldAnswers : PollAnswers :=
  let read : ReadAnswers := ⟨⟨0, kPtraceAuthId⟩, ⟨0, kPtraceAuthId⟩⟩
  { getAuth := true
    setAuth := ⟨0, true⟩
    attach := true
    read
    write := unusedWrite
    verify := read
    rollback := unusedWrite
    rollbackCheck := read
    detach := false
    restoreAuth := ⟨0, true⟩
    checkAuth := true }

/-- A probe, on a firmware whose code is read through ptrace. -/
def heldPlan : HookPlan := ⟨0x09600000, 77, probeRequest chainedEnv 0x20000⟩

/-- A probe is reported a success while ShellUI stays stopped. -/
theorem probe_success_held :
    (pollAndApply heldKernel heldPlan.sdk heldPlan.pid heldPlan.request heldAnswers).2.status = .success ∧
      ¬LetGo heldKernel (pollAndApply heldKernel heldPlan.sdk heldPlan.pid heldPlan.request heldAnswers).1
        heldPlan.pid (pollAndApply heldKernel heldPlan.sdk heldPlan.pid heldPlan.request heldAnswers).2 := by
  have haccepts : RequestKind.probe.Accepts heldPlan.request chainedEnv.pid :=
    accepts_probeRequest (by decide) (by decide) (by decide)
  have hvalid : heldPlan.valid = true := (haccepts.only 0x09600000).2.1
  have hprobe : heldPlan.probe = true := rfl
  have hbackend : heldPlan.backend = .ptraceIo := by
    rw [HookPlan.backend, if_pos hprobe]
    decide
  have hread : (heldPlan.lastRead heldAnswers.read).rc = 0 := by
    rw [HookPlan.lastRead]
    split_ifs <;> rfl
  have hreads : heldPlan.ProbeReads heldKernel heldAnswers :=
    ⟨⟨hvalid, by simp [hbackend], by decide, rfl⟩, hprobe, rfl, hread⟩
  obtain ⟨hsuccess, hiff⟩ := hreads.letGo_iff
  exact ⟨hsuccess, fun h => Bool.false_ne_true (hiff.1 h).detach⟩

end CommonFps
