import CommonFps.Lib.Driven
import CommonFps.ShellUi.Renderer
import CommonFps.ShellUi.Transaction

/-!
# The handshake

The renderer and the controller, who share nothing but two files: the request
file, which the renderer truncates and then writes, and the controller removes;
and the acknowledgement file, which the controller replaces as a whole. Their
steps come in any order; removing and writing files may fail, the renderer may
give up at any time, and the controller's primitives do anything.

* `handshake`: the two parties and their files, one step at a time;
* `Sends`: the requests that the renderer may have sent, stage by stage;
* `Inv`: every request and acknowledgement in sight stems from these;
* `acks_match`: an acknowledgement accepted as a success is one of exactly the
  request;
* `patch_footprint`: what is ever written, on each firmware.
-/

namespace CommonFps

/-- The file of the request: there is none, or it is too short, or it holds a request. -/
inductive RequestFile
  | absent
  | short
  | complete (request : ShellUiHookRequest)

/-- A transaction of the controller: the kernel before it, and the outcomes of its
    calls. -/
structure Transaction where
  sdk : UInt32
  pid : Int32
  request : ShellUiHookRequest
  before : Kernel
  answers : PollAnswers

namespace Transaction

variable (t : Transaction)

/-- What the controller makes of the request. -/
def plan : HookPlan := ⟨t.sdk, t.pid, t.request⟩

/-- The kernel after the transaction. -/
def after : Kernel := (pollAndApply t.before t.sdk t.pid t.request t.answers).1

/-- What the controller reports. -/
def report : ShellUiHookPatchReport := (pollAndApply t.before t.sdk t.pid t.request t.answers).2

/-- The acknowledgement that `write_ack` writes. -/
def writeAck : ShellUiHookAck :=
  let ack : ShellUiHookAck :=
    { pid := t.request.pid
      nonce := t.request.nonce
      status := t.report.status.toInt32
      readRc := Int32.ofInt t.report.readRc
      writeRc := Int32.ofInt t.report.writeRc
      verified := if t.report.verified then 1 else 0
      restored := if t.report.restored then 1 else 0
      detached := if t.report.detached then 1 else 0
      authRestored := if t.report.authRestored then 1 else 0
      phase := (if t.report.probe then ShellUiHookAckPhase.probe
        else if t.report.mainThreadGuard then .mainThreadGuard else .patch).toUInt8
      observed := t.report.observed }
  { ack with checksum := shelluiHookAckChecksum ack }

end Transaction

/-- Where the controller is. -/
inductive Controller
  | idle
  /-- It has read a request, and not yet removed the file. -/
  | holding (request : ShellUiHookRequest)
  | consumed (request : ShellUiHookRequest)
  /-- It is about to acknowledge. -/
  | acking (t : Transaction)

/-- Both parties, the files between them, and the kernel. -/
structure Handshake where
  renderer : Renderer
  controller : Controller := .idle
  requestFile : RequestFile := .absent
  ackFile : Option ShellUiHookAck := none
  kernel : Kernel
  /-- The requests for which the renderer has opened the file. -/
  sent : List ShellUiHookRequest := []

/-- A step of one of the two, and its outcome. -/
inductive Action
  | openRequest
  /-- The request is written, as a whole or in part, and the writing reported. -/
  | writeRequest (whole ok : Bool)
  | readAck
  /-- A timeout, a failed lookup or a failed `fopen`. -/
  | giveUp
  | poll
  | unlinkRequest (ok : Bool)
  | apply (pid : Int32) (answers : PollAnswers)
  | writeAck (ok : Bool)

/-- An acknowledgement that the renderer took for one of its request. -/
structure Accepted where
  stage : Stage
  request : ShellUiHookRequest
  ack : ShellUiHookAck

/-- The renderer completes the file, unless the file was removed meanwhile. -/
def RequestFile.fill (f : RequestFile) (request : ShellUiHookRequest) : RequestFile :=
  match f with
  | .short => .complete request
  | f => f

/-- A step of one of the parties. -/
def Handshake.step (env : RendererEnv) (sdk : UInt32) (s : Handshake) : Action → Handshake × Option Accepted
  | .openRequest =>
    match s.renderer with
    | .ready stage q =>
      ({ s with renderer := .opened stage q, requestFile := .short, sent := s.sent ++ [q] }, none)
    | _ => (s, none)
  | .writeRequest whole ok =>
    match s.renderer with
    | .opened stage q =>
      ({ s with
          renderer := if ok then .waiting stage q else .ended .failed
          requestFile := if ok || whole then s.requestFile.fill q else s.requestFile }, none)
    | _ => (s, none)
  | .readAck =>
    match s.renderer, s.ackFile with
    | .waiting stage q, some a =>
      if AckMatches env.pid q.nonce a then ({ s with renderer := afterAck env stage a }, some ⟨stage, q, a⟩)
      else (s, none)
    | _, _ => (s, none)
  | .giveUp =>
    match s.renderer with
    | .ended _ => (s, none)
    | _ => ({ s with renderer := .ended .failed }, none)
  | .poll =>
    match s.controller, s.requestFile with
    | .idle, .complete q => ({ s with controller := .holding q }, none)
    | _, _ => (s, none)
  | .unlinkRequest ok =>
    match s.controller with
    | .holding q =>
      ({ s with controller := .consumed q, requestFile := if ok then .absent else s.requestFile }, none)
    | _ => (s, none)
  | .apply pid a =>
    match s.controller with
    | .consumed q =>
      let t : Transaction := ⟨sdk, pid, q, s.kernel, a⟩
      ({ s with controller := .acking t, kernel := t.after }, none)
    | _ => (s, none)
  | .writeAck ok =>
    match s.controller with
    | .acking t => ({ s with controller := .idle, ackFile := if ok then some t.writeAck else s.ackFile }, none)
    | _ => (s, none)

/-- An initialisation of the renderer, from a kernel; no files are there, as the
    controller has removed them. -/
def handshake (env : RendererEnv) (sdk : UInt32) (k₀ : Kernel) :
    Driven Handshake Action (Option Accepted) where
  init := { renderer := .ready .guardProbe (probeRequest env env.guard), kernel := k₀ }
  step := Handshake.step env sdk

/-! ## Acknowledgements -/

theorem ShellUiHookStatus.toInt32_injective {s s' : ShellUiHookStatus} (h : s.toInt32 = s'.toInt32) :
    s = s' := by
  cases s <;> cases s' <;> first | rfl | cases h

theorem ShellUiHookAckPhase.toUInt8_injective {p p' : ShellUiHookAckPhase} (h : p.toUInt8 = p'.toUInt8) :
    p = p' := by
  cases p <;> cases p' <;> first | rfl | cases h

/-- A valid request has what all valid requests have in common. -/
theorem HookPlan.common_of_valid {p : HookPlan} (h : p.valid = true) :
    shelluiHookRequestCommonIsValid p.request p.pid := by
  rw [HookPlan.valid] at h
  split_ifs at h
  · exact (of_decide_eq_true h).1
  · exact (of_decide_eq_true h).1
  · exact (of_decide_eq_true h).1

/-- The phase that the acknowledgements of a request have. -/
def HookPlan.phase (p : HookPlan) : ShellUiHookAckPhase :=
  if p.probe then .probe else if p.mainThreadGuard then .mainThreadGuard else .patch

namespace Transaction

variable {t : Transaction}

theorem reported (t : Transaction) : t.plan.Reported t.before t.after t.report :=
  (pollAndApply_spec t.before t.sdk t.pid t.request t.answers).1

theorem writeAck_phase (t : Transaction) : t.writeAck.phase = t.plan.phase.toUInt8 := by
  rw [HookPlan.phase, ← t.reported.probe, ← t.reported.mainThreadGuard]
  rfl

/-- A transaction acknowledged as a success was one, of a request of the phase;
    ShellUI was let go of, and the credentials are back. -/
theorem of_succeeds {stage : Stage} (h : stage.Succeeds t.writeAck) :
    t.plan.phase = stage.phase ∧ t.plan.valid = true ∧ t.plan.backend ≠ .unsupported ∧
      (t.plan.probe = false → t.after.code t.pid t.request.methodAddress = t.request.desired) ∧
      t.after.attached t.pid = false ∧ t.after.authId = t.before.authId := by
  obtain ⟨hphase, hstatus, _, hdetached, hauth⟩ := h
  have hsuccess : t.report.status = .success := ShellUiHookStatus.toInt32_injective hstatus
  have hd : t.report.detached = true := by
    by_contra hnot
    exact hdetached (if_neg hnot)
  have ha : t.report.authRestored = true := by
    by_contra hnot
    exact hauth (if_neg hnot)
  obtain ⟨hvalid, hbackend, hcode⟩ := t.reported.success hsuccess
  refine ⟨?_, hvalid, hbackend, hcode, t.reported.detached hd, ?_⟩
  · exact ShellUiHookAckPhase.toUInt8_injective (t.writeAck_phase.symm.trans hphase)
  · exact (pollAndApply_spec t.before t.sdk t.pid t.request t.answers).2 ha

end Transaction

/-! ## Requests -/

/-- A hook patch displaces from 14 to 16 bytes of what was probed. -/
theorem prepareUpdate_request {env : RendererEnv} {confirmed : Bool} {expected : Code} {r : ShellUiHookRequest}
    (h : prepareUpdate env confirmed expected = .request r) :
    ∃ displaced original, 14 ≤ displaced ∧ displaced ≤ 16 ∧
      r = updateRequest env expected displaced original := by
  rw [prepareUpdate] at h
  dsimp only at h
  split_ifs at h with _ _ _ _ hrefused
  · exact ⟨14, _, le_rfl, by decide, (UpdatePlan.request.inj h).symm⟩
  · obtain ⟨hle, hle'⟩ := nativePatchLength_range (not_or.1 hrefused).1
    exact ⟨_, _, hle, hle', (UpdatePlan.request.inj h).symm⟩

/-- What a successful probe of the guard method shows of the addresses. -/
structure RendererEnv.Addressable (env : RendererEnv) : Prop where
  guard : shelluiUserAddress env.guard
  hook : shelluiUserAddress env.hook
  pid : 0 < env.pid

/-- The request of a stage, and those sent before it. -/
inductive Sends (env : RendererEnv) (sdk : UInt32) : Stage → ShellUiHookRequest →
    List ShellUiHookRequest → Prop
  | guardProbe : Sends env sdk .guardProbe (probeRequest env env.guard) []
  | guard (c : Code) (ha : env.Addressable) :
    Sends env sdk .guard (publishMainThreadGuardRequest env c) [probeRequest env env.guard]
  | updateProbe (c : Code) (ha : env.Addressable) (hu : shelluiMainThreadGuardBackend sdk = .unsupported) :
    Sends env sdk .updateProbe (probeRequest env env.update)
      [probeRequest env env.guard, publishMainThreadGuardRequest env c]
  | updatePatch (c c' : Code) (r : ShellUiHookRequest) (hu : shelluiMainThreadGuardBackend sdk = .unsupported)
    (hr : prepareUpdate env false c' = .request r) :
    Sends env sdk .updatePatch r [probeRequest env env.guard, publishMainThreadGuardRequest env c,
      probeRequest env env.update]

section Kinds

variable {env : RendererEnv} {p : HookPlan}

theorem HookPlan.probe_of_probeRequest {method : UInt64} (h : p.request = probeRequest env method) :
    p.probe = true := by
  rw [HookPlan.probe, h]
  rfl

theorem HookPlan.guard_of_guardRequest {c : Code} (h : p.request = publishMainThreadGuardRequest env c) :
    p.probe = false ∧ p.mainThreadGuard = true := by
  rw [HookPlan.probe, HookPlan.mainThreadGuard, h]
  exact ⟨rfl, by simp [shelluiHookRequestIsMainThreadGuard, publishMainThreadGuardRequest]⟩

theorem HookPlan.patch_of_updateRequest {c : Code} {displaced : ℕ} {original : UInt64}
    (hle : 14 ≤ displaced)
    (hle' : displaced ≤ 16) (h : p.request = updateRequest env c displaced original) :
    p.probe = false ∧ p.mainThreadGuard = false := by
  have hsize : p.request.displacedSize = displaced.toUInt32 := by rw [h]; rfl
  have hnat : p.request.displacedSize.toNat = displaced := by
    rw [hsize]
    simp only [Nat.toUInt32_eq, UInt32.toNat_ofNat']
    omega
  rw [HookPlan.probe, HookPlan.mainThreadGuard]
  refine ⟨decide_eq_false fun h => ?_, decide_eq_false fun h => ?_⟩
  · rw [shelluiHookRequestIsProbe] at h
    rw [h] at hnat
    have hzero : (0 : UInt32).toNat = 0 := rfl
    omega
  · rw [h.1] at hnat
    have hone : (1 : UInt32).toNat = 1 := rfl
    omega

theorem HookPlan.phase_of_probe (h : p.probe = true) : p.phase = .probe := if_pos h

theorem HookPlan.phase_of_guard (h : p.probe = false) (hg : p.mainThreadGuard = true) :
    p.phase = .mainThreadGuard := by
  rw [HookPlan.phase, h, hg]
  rfl

end Kinds

section Matching

variable {env : RendererEnv} {sdk : UInt32} {stage : Stage} {q : ShellUiHookRequest}
  {earlier : List ShellUiHookRequest} {t : Transaction}

/-- An acknowledgement with the nonce of the guard request is one of it. -/
theorem Sends.eq_of_guard (h : Sends env sdk .guard q earlier) (ht : t.request ∈ earlier ++ [q])
    (hn : t.request.nonce = q.nonce) : t.request = q := by
  cases h with
  | guard c ha =>
    rcases List.mem_append.1 ht with ht | ht
    · rw [List.mem_singleton.1 ht] at hn
      exact absurd hn (guardRequest_nonce_ne ha.guard ha.hook ha.pid c)
    · exact List.mem_singleton.1 ht

/-- An acknowledgement that matches a request, and reports its success, is one of
    it: the nonces of the two probes differ, and other requests have other phases. -/
theorem Sends.eq_of_succeeds (hne : env.guard ≠ env.update) (h : Sends env sdk stage q earlier)
    (ht : t.request ∈ earlier ++ [q]) (hn : t.request.nonce = q.nonce) (hs : stage.Succeeds t.writeAck) :
    t.request = q := by
  have hphase := (Transaction.of_succeeds hs).1
  have hprobe : ∀ method, t.request = probeRequest env method → stage.phase = .probe := fun method h =>
    hphase.symm.trans (HookPlan.phase_of_probe (HookPlan.probe_of_probeRequest h))
  have hguard : ∀ c, t.request = publishMainThreadGuardRequest env c → stage.phase = .mainThreadGuard := by
    intro c h
    obtain ⟨hp, hg⟩ := HookPlan.guard_of_guardRequest (p := t.plan) h
    exact hphase.symm.trans (HookPlan.phase_of_guard hp hg)
  rcases List.mem_append.1 ht with hmem | hmem
  · clear ht
    cases h with
    | guardProbe => exact absurd hmem List.not_mem_nil
    | guard c => cases hprobe _ (List.mem_singleton.1 hmem)
    | updateProbe c ha =>
      rcases List.mem_cons.1 hmem with ht | ht
      · rw [ht] at hn
        exact absurd hn (probeRequest_nonce_ne ha.guard ha.hook ha.pid hne)
      · cases hguard c (List.mem_singleton.1 ht)
    | updatePatch c =>
      simp only [List.mem_cons, List.not_mem_nil, or_false] at hmem
      rcases hmem with ht | ht | ht
      · cases hprobe _ ht
      · cases hguard c ht
      · cases hprobe _ ht
  · exact List.mem_singleton.1 hmem

end Matching

/-! ## Runs -/

section Runs

variable (env : RendererEnv) (sdk : UInt32) (k₀ : Kernel) (ι : ℕ → Action)

/-- The two parties and their files before the step `n`. -/
def handshakeState (n : ℕ) : Handshake := (handshake env sdk k₀).state ι n

/-- The acknowledgement that the renderer takes for one of its request in the step
    `n`, if any. -/
def accepted (n : ℕ) : Option Accepted := (handshake env sdk k₀).output ι n

/-- The controller carries out a transaction in the step `n`. -/
structure Ran (n : ℕ) (t : Transaction) : Prop where
  consumed : (handshakeState env sdk k₀ ι n).controller = .consumed t.request
  before : t.before = (handshakeState env sdk k₀ ι n).kernel
  sdk : t.sdk = sdk
  action : ι n = .apply t.pid t.answers

/-- The controller acknowledges a transaction in the step `n`, which it carried out
    in an earlier one. -/
structure Acked (n : ℕ) (t : Transaction) : Prop where
  ran : ∃ m < n, Ran env sdk k₀ ι m t
  acking : (handshakeState env sdk k₀ ι n).controller = .acking t
  action : ι n = .writeAck true

/-- Where the renderer is, it has sent what it says. -/
def Renderer.Sent (sent : List ShellUiHookRequest) : Renderer → Prop
  | .ready stage q => Sends env sdk stage q sent
  | .opened stage q => ∃ earlier, Sends env sdk stage q earlier ∧ sent = earlier ++ [q]
  | .waiting stage q => ∃ earlier, Sends env sdk stage q earlier ∧ sent = earlier ++ [q]
  | .ended _ => ∃ stage q earlier, Sends env sdk stage q earlier ∧ sent ⊆ earlier ++ [q]

/-- The request file, if it is complete, is of a request sent. -/
def RequestFile.Sent (sent : List ShellUiHookRequest) : RequestFile → Prop
  | .complete q => q ∈ sent
  | _ => True

/-- The controller is busy with a request sent. -/
def Controller.Sent (n : ℕ) (sent : List ShellUiHookRequest) : Controller → Prop
  | .idle => True
  | .holding q => q ∈ sent
  | .consumed q => q ∈ sent
  | .acking t => t.request ∈ sent ∧ ∃ m < n, Ran env sdk k₀ ι m t

/-- Everything in sight before the step `n` stems from the requests sent. -/
structure Inv (n : ℕ) (s : Handshake) : Prop where
  renderer : s.renderer.Sent env sdk s.sent
  requestFile : s.requestFile.Sent s.sent
  controller : s.controller.Sent env sdk k₀ ι n s.sent
  ackFile : ∀ a, s.ackFile = some a → ∃ m < n, ∃ t, Acked env sdk k₀ ι m t ∧
    t.request ∈ s.sent ∧ a = t.writeAck

variable {env sdk k₀ ι} {sent sent' : List ShellUiHookRequest} {n n' : ℕ}

theorem RequestFile.Sent.mono {f : RequestFile} (h : f.Sent sent) (hs : sent ⊆ sent') : f.Sent sent' := by
  cases f with
  | absent => trivial
  | short => trivial
  | complete q => exact hs h

theorem RequestFile.Sent.fill {f : RequestFile} {q : ShellUiHookRequest} (h : f.Sent sent) (hq : q ∈ sent) :
    (f.fill q).Sent sent := by
  cases f with
  | absent => trivial
  | short => exact hq
  | complete q => exact h

theorem Controller.Sent.mono {c : Controller} (h : c.Sent env sdk k₀ ι n sent) (hn : n ≤ n')
    (hs : sent ⊆ sent') :
    c.Sent env sdk k₀ ι n' sent' := by
  cases c with
  | idle => trivial
  | holding q => exact hs h
  | consumed q => exact hs h
  | acking t =>
    obtain ⟨ht, m, hm, hran⟩ := h
    exact ⟨hs ht, m, hm.trans_le hn, hran⟩

/-- What the renderer sends after an acknowledgement is the next request. -/
theorem afterAck_sent {stage : Stage} {q : ShellUiHookRequest} {earlier : List ShellUiHookRequest}
    {t : Transaction} (h : Sends env sdk stage q earlier) (hsdk : t.sdk = sdk)
    (ht : t.request ∈ earlier ++ [q]) (hn : t.request.nonce = q.nonce) :
    (afterAck env stage t.writeAck).Sent env sdk (earlier ++ [q]) := by
  have hended : ∀ outcome, (Renderer.ended outcome).Sent env sdk (earlier ++ [q]) := fun _ =>
    ⟨stage, q, earlier, h, List.Subset.refl _⟩
  cases h with
  | guardProbe =>
    rw [afterAck]
    split_ifs with hs hc3
    · exact hended _
    · obtain ⟨_, hvalid, _⟩ := Transaction.of_succeeds hs
      obtain ⟨_, _, hpid, hpos, _, hguard, _, hhook, _⟩ := HookPlan.common_of_valid hvalid
      -- Only the probe was sent, so that the transaction is on it, and its validity says of the addresses what
      -- a guard request needs.
      have hrequest : t.plan.request = probeRequest env env.guard := List.mem_singleton.1 ht
      rw [hrequest] at hpid hguard hhook
      rw [← hpid] at hpos
      exact .guard _ ⟨hguard, hhook, hpos⟩
    · exact hended _
  | guard c ha =>
    rw [afterAck]
    split_ifs with hu hs
    · have hsends : Sends env sdk .guard _ _ := .guard c ha
      -- The nonce of the guard request is none of the probe's.
      have hrequest := hsends.eq_of_guard ht hn
      obtain ⟨hprobe, hguard⟩ := HookPlan.guard_of_guardRequest (p := t.plan) hrequest
      have hbackend := t.reported.supported (ShellUiHookStatus.toInt32_injective hu)
      rw [HookPlan.backend, hprobe, hguard] at hbackend
      refine .updateProbe c ha ?_
      rw [← hsdk]
      exact hbackend
    · exact hended _
    · exact hended _
  | updateProbe c ha hu =>
    rw [afterAck]
    split_ifs with hs
    · cases hplan : prepareUpdate env false t.writeAck.observed with
      | online => exact hended _
      | refused => exact hended _
      | request r => exact .updatePatch c _ r hu hplan
    · exact hended _
  | updatePatch =>
    rw [afterAck]
    split_ifs with hs
    · exact hended _
    · exact hended _

theorem inv_init : Inv env sdk k₀ ι 0 (handshake env sdk k₀).init :=
  ⟨.guardProbe, trivial, trivial, fun a h => by cases h⟩

/-- What is in sight stays so. -/
theorem Inv.succ {s : Handshake} (h : Inv env sdk k₀ ι n s) : Inv env sdk k₀ ι (n + 1) s := by
  refine ⟨h.renderer, h.requestFile, h.controller.mono (Nat.le_succ n) (List.Subset.refl _), fun a ha => ?_⟩
  obtain ⟨m, hm, hack⟩ := h.ackFile a ha
  exact ⟨m, Nat.lt_succ_of_lt hm, hack⟩

/-- A step of the renderer. -/
theorem Inv.renderer_step (h : Inv env sdk k₀ ι n (handshakeState env sdk k₀ ι n)) {a : Action}
    (ha : a = .openRequest ∨ (∃ whole ok, a = .writeRequest whole ok) ∨ a = .readAck ∨ a = .giveUp) :
    Inv env sdk k₀ ι (n + 1) ((handshakeState env sdk k₀ ι n).step env sdk a).1 := by
  generalize handshakeState env sdk k₀ ι n = s at *
  have h' := h.succ
  obtain ⟨renderer, controller, requestFile, ackFile, kernel, sent⟩ := s
  rcases ha with rfl | ⟨whole, ok, rfl⟩ | rfl | rfl
  · cases renderer with
    | ready stage q =>
      have hsub : sent ⊆ sent ++ [q] := List.subset_append_left sent [q]
      -- The file is truncated, and the request counts as sent from here on.
      refine ⟨⟨sent, h.renderer, rfl⟩, trivial, h'.controller.mono le_rfl hsub, fun a ha => ?_⟩
      obtain ⟨m, hm, t, hacked, ht, rfl⟩ := h'.ackFile a ha
      exact ⟨m, hm, t, hacked, hsub ht, rfl⟩
    | opened stage q => exact h'
    | waiting stage q => exact h'
    | ended outcome => exact h'
  · cases renderer with
    | ready stage q => exact h'
    | opened stage q =>
      obtain ⟨earlier, hsends, rfl⟩ := h.renderer
      refine ⟨?_, ?_, h'.controller, h'.ackFile⟩
      · cases ok with
        | true => exact ⟨earlier, hsends, rfl⟩
        | false => exact ⟨stage, q, earlier, hsends, List.Subset.refl _⟩
      · -- A write that is reported to fail may have written the file.
        show (if ok || whole then requestFile.fill q else requestFile).Sent _
        split_ifs
        · exact h.requestFile.fill (by simp)
        · exact h.requestFile
    | waiting stage q => exact h'
    | ended outcome => exact h'
  · cases renderer with
    | ready stage q => exact h'
    | opened stage q => exact h'
    | waiting stage q =>
      cases ackFile with
      | none => exact h'
      | some a =>
        obtain ⟨earlier, hsends, rfl⟩ := h.renderer
        -- The acknowledgement is that of a transaction on some request sent so far.
        obtain ⟨m, _, t, hacked, ht, rfl⟩ := h.ackFile a rfl
        obtain ⟨_, _, hran⟩ := hacked.ran
        show Inv env sdk k₀ ι (n + 1) (Prod.fst (if _ then _ else _))
        split_ifs with hmatch
        · exact ⟨afterAck_sent hsends hran.sdk ht hmatch.2.2.2.1, h'.requestFile,
            h'.controller, h'.ackFile⟩
        · exact h'
    | ended outcome => exact h'
  · cases renderer with
    | ready stage q =>
      exact ⟨⟨stage, q, sent, h.renderer, List.subset_append_left sent [q]⟩, h'.requestFile,
        h'.controller, h'.ackFile⟩
    | opened stage q =>
      obtain ⟨earlier, hsends, rfl⟩ := h.renderer
      exact ⟨⟨stage, q, earlier, hsends, List.Subset.refl _⟩, h'.requestFile, h'.controller, h'.ackFile⟩
    | waiting stage q =>
      obtain ⟨earlier, hsends, rfl⟩ := h.renderer
      exact ⟨⟨stage, q, earlier, hsends, List.Subset.refl _⟩, h'.requestFile, h'.controller, h'.ackFile⟩
    | ended outcome => exact h'

/-- A step of the controller. -/
theorem Inv.controller_step (h : Inv env sdk k₀ ι n (handshakeState env sdk k₀ ι n))
    (ha : ι n = .poll ∨ (∃ ok, ι n = .unlinkRequest ok) ∨ (∃ pid a, ι n = .apply pid a) ∨
      ∃ ok, ι n = .writeAck ok) :
    Inv env sdk k₀ ι (n + 1) ((handshakeState env sdk k₀ ι n).step env sdk (ι n)).1 := by
  have h' := h.succ
  generalize hs : handshakeState env sdk k₀ ι n = s at h h' ⊢
  obtain ⟨renderer, controller, requestFile, ackFile, kernel, sent⟩ := s
  rcases ha with ha | ⟨ok, ha⟩ | ⟨pid, a, ha⟩ | ⟨ok, ha⟩ <;> rw [ha]
  · cases controller with
    | idle =>
      cases requestFile with
      | absent => exact h'
      | short => exact h'
      | complete q => exact ⟨h'.renderer, h'.requestFile, h.requestFile, h'.ackFile⟩
    | holding q => exact h'
    | consumed q => exact h'
    | acking t => exact h'
  · cases controller with
    | idle => exact h'
    | holding q =>
      refine ⟨h'.renderer, ?_, h.controller, h'.ackFile⟩
      cases ok with
      | true => trivial
      | false => exact h.requestFile
    | consumed q => exact h'
    | acking t => exact h'
  · cases controller with
    | idle => exact h'
    | holding q => exact h'
    | consumed q =>
      -- The transaction of this step is the one that its acknowledgement will tell of.
      have hran : Ran env sdk k₀ ι n ⟨sdk, pid, q, kernel, a⟩ := ⟨by rw [hs], by rw [hs], rfl, ha⟩
      exact ⟨h'.renderer, h'.requestFile, ⟨h.controller, n, Nat.lt_succ_self n, hran⟩, h'.ackFile⟩
    | acking t => exact h'
  · cases controller with
    | idle => exact h'
    | holding q => exact h'
    | consumed q => exact h'
    | acking t =>
      obtain ⟨ht, hran⟩ := h.controller
      refine ⟨h'.renderer, h'.requestFile, trivial, fun a heq => ?_⟩
      cases ok with
      | true =>
        -- From here on, the file holds the acknowledgement of this step.
        have hacked : Acked env sdk k₀ ι n t := ⟨hran, by rw [hs], ha⟩
        exact ⟨n, Nat.lt_succ_self n, t, hacked, ht, (Option.some.inj heq).symm⟩
      | false => exact h'.ackFile a heq

variable (env sdk k₀ ι) in

theorem handshake_inv (n : ℕ) : Inv env sdk k₀ ι n (handshakeState env sdk k₀ ι n) := by
  induction n with
  | zero => exact inv_init
  | succ n ih =>
    have hsucc : handshakeState env sdk k₀ ι (n + 1) =
      ((handshakeState env sdk k₀ ι n).step env sdk (ι n)).1 := rfl
    rw [hsucc]
    cases ha : ι n with
    | openRequest => exact ih.renderer_step (.inl rfl)
    | writeRequest whole ok => exact ih.renderer_step (.inr (.inl ⟨whole, ok, rfl⟩))
    | readAck => exact ih.renderer_step (.inr (.inr (.inl rfl)))
    | giveUp => exact ih.renderer_step (.inr (.inr (.inr rfl)))
    | poll => exact ha ▸ ih.controller_step (.inl ha)
    | unlinkRequest ok => exact ha ▸ ih.controller_step (.inr (.inl ⟨ok, ha⟩))
    | apply pid a => exact ha ▸ ih.controller_step (.inr (.inr (.inl ⟨pid, a, ha⟩)))
    | writeAck ok => exact ha ▸ ih.controller_step (.inr (.inr (.inr ⟨ok, ha⟩)))

/-- A read of the acknowledgement file, while the renderer waits. -/
theorem step_readAck {s : Handshake} {stage : Stage} {q : ShellUiHookRequest} {a : ShellUiHookAck}
    (hr : s.renderer = .waiting stage q) (ha : s.ackFile = some a) :
    s.step env sdk .readAck = if AckMatches env.pid q.nonce a then
      ({ s with renderer := afterAck env stage a }, some ⟨stage, q, a⟩) else (s, none) := by
  rw [Handshake.step, hr, ha]

/-- The renderer accepts what it reads while it waits. -/
theorem step_accepts {s : Handshake} {action : Action} {x : Accepted}
    (h : (s.step env sdk action).2 = some x) :
    s.renderer = .waiting x.stage x.request ∧ s.ackFile = some x.ack ∧
      AckMatches env.pid x.request.nonce x.ack := by
  obtain ⟨renderer, controller, requestFile, ackFile, kernel, sent⟩ := s
  cases action with
  | readAck =>
    cases renderer with
    | waiting stage q =>
      cases ackFile with
      | none => cases h
      | some a =>
        rw [step_readAck rfl rfl] at h
        split_ifs at h with hmatch
        · obtain rfl := Option.some.inj h
          exact ⟨rfl, rfl, hmatch⟩
    | _ => cases h
  | openRequest => cases renderer <;> cases h
  | writeRequest => cases renderer <;> cases h
  | giveUp => cases renderer <;> cases h
  | poll => cases controller <;> cases requestFile <;> cases h
  | unlinkRequest => cases controller <;> cases h
  | apply => cases controller <;> cases h
  | writeAck => cases controller <;> cases h

/-- The renderer ends well only on an acknowledgement. -/
theorem step_ends {s : Handshake} {action : Action} {outcome : InitOutcome}
    (h : (s.step env sdk action).1.renderer = .ended outcome) (hne : s.renderer ≠ .ended outcome)
    (hf : outcome ≠ .failed) :
    ∃ x, (s.step env sdk action).2 = some x ∧ afterAck env x.stage x.ack = .ended outcome := by
  have hfailed : Renderer.ended .failed ≠ .ended outcome := fun h => hf (Renderer.ended.inj h).symm
  obtain ⟨renderer, controller, requestFile, ackFile, kernel, sent⟩ := s
  cases action with
  | readAck =>
    cases renderer with
    | waiting stage q =>
      cases ackFile with
      | none => exact absurd h hne
      | some a =>
        rw [step_readAck rfl rfl] at h ⊢
        split_ifs at h ⊢
        exact ⟨_, rfl, h⟩
    | _ => exact absurd h hne
  -- No other action ends the renderer otherwise than in a failure.
  | openRequest => cases renderer <;> first | exact absurd h hne | cases h
  | writeRequest whole ok =>
    cases renderer with
    | opened stage q =>
      cases ok with
      | true => cases h
      | false => exact absurd h hfailed
    | _ => exact absurd h hne
  | giveUp => cases renderer <;> first | exact absurd h hfailed | exact absurd h hne
  | poll => cases controller <;> cases requestFile <;> exact absurd h hne
  | unlinkRequest => cases controller <;> exact absurd h hne
  | apply => cases controller <;> exact absurd h hne
  | writeAck => cases controller <;> exact absurd h hne

/-- An accepted acknowledgement was written earlier, for one of the requests sent so
    far. -/
theorem accepted_spec {x : Accepted} (h : accepted env sdk k₀ ι n = some x) :
    ∃ earlier, Sends env sdk x.stage x.request earlier ∧ ∃ m < n, ∃ t, Acked env sdk k₀ ι m t ∧
      t.request ∈ earlier ++ [x.request] ∧ t.request.nonce = x.request.nonce ∧ t.writeAck = x.ack := by
  have inv := handshake_inv env sdk k₀ ι n
  change ((handshakeState env sdk k₀ ι n).step env sdk (ι n)).2 = some x at h
  obtain ⟨hwaiting, hfile, hmatch⟩ := step_accepts h
  have hsent := inv.renderer
  rw [hwaiting] at hsent
  obtain ⟨earlier, hsends, hsent⟩ := hsent
  obtain ⟨m, hm, t, hacked, ht, heq⟩ := inv.ackFile x.ack hfile
  rw [heq] at hmatch
  rw [hsent] at ht
  exact ⟨earlier, hsends, m, hm, t, hacked, ht, hmatch.2.2.2.1, heq.symm⟩

/-- An initialisation that ended well did so on an acknowledgement. -/
theorem exists_accepted {outcome : InitOutcome}
    (h : (handshakeState env sdk k₀ ι n).renderer = .ended outcome) (hf : outcome ≠ .failed) :
    ∃ m < n, ∃ x, accepted env sdk k₀ ι m = some x ∧ afterAck env x.stage x.ack = .ended outcome := by
  induction n with
  | zero => cases h
  | succ n ih =>
    by_cases hbefore : (handshakeState env sdk k₀ ι n).renderer = .ended outcome
    · obtain ⟨m, hm, hx⟩ := ih hbefore
      exact ⟨m, Nat.lt_succ_of_lt hm, hx⟩
    · exact ⟨n, Nat.lt_succ_self n, step_ends h hbefore hf⟩

/-- How an initialisation ends well, at each stage. -/
def Stage.outcome : Stage → InitOutcome
  | .guardProbe => .guardDisabled
  | .guard => .guardInstalled
  | .updateProbe => .hookOnline
  | .updatePatch => .hookInstalled

theorem afterAck_ended {stage : Stage} {a : ShellUiHookAck} {outcome : InitOutcome}
    (h : afterAck env stage a = .ended outcome) (hf : outcome ≠ .failed) :
    stage.Succeeds a ∧ outcome = stage.outcome := by
  cases stage with
  | guardProbe =>
    rw [afterAck] at h
    split_ifs at h with hs
    · exact ⟨hs, (Renderer.ended.inj h).symm⟩
    · exact absurd (Renderer.ended.inj h).symm hf
  | guard =>
    rw [afterAck] at h
    split_ifs at h with _ hs
    · exact ⟨hs, (Renderer.ended.inj h).symm⟩
    · exact absurd (Renderer.ended.inj h).symm hf
  | updateProbe =>
    rw [afterAck] at h
    split_ifs at h with hs
    · cases hp : prepareUpdate env false a.observed with
      | online => exact ⟨hs, by rw [hp] at h; exact (Renderer.ended.inj h).symm⟩
      | refused => exact absurd (by rw [hp] at h; exact (Renderer.ended.inj h).symm) hf
      | request r =>
        rw [hp] at h
        cases h
    · exact absurd (Renderer.ended.inj h).symm hf
  | updatePatch =>
    rw [afterAck] at h
    split_ifs at h with hs
    · exact ⟨hs, (Renderer.ended.inj h).symm⟩
    · exact absurd (Renderer.ended.inj h).symm hf

/-- The controller ended a transaction with the desired code, having let go of
    ShellUI and got its credentials back. -/
structure Transaction.Completed (env : RendererEnv) (t : Transaction) : Prop where
  desired : t.after.code env.pid t.request.methodAddress = t.request.desired
  detached : t.after.attached env.pid = false
  restored : t.after.authId = t.before.authId

/-- A patch acknowledged as a success is complete. -/
theorem Transaction.completed_of_succeeds {stage : Stage} {t : Transaction} (hs : stage.Succeeds t.writeAck)
    (hpid : t.request.pid = env.pid) (hp : t.plan.probe = false) : t.Completed env := by
  obtain ⟨_, hvalid, _, hcode, hdetached, hauth⟩ := Transaction.of_succeeds hs
  obtain ⟨_, _, hrequest, _⟩ := HookPlan.common_of_valid hvalid
  have hsame : t.pid = env.pid := hrequest.symm.trans hpid
  exact ⟨hsame ▸ hcode hp, hsame ▸ hdetached, hauth⟩

/-- An acknowledgement that the renderer accepts as a success of a request was
    written by the controller for exactly this request, in this run; so that an
    installation means what it says, whatever the order of the steps. -/
theorem acks_match (env : RendererEnv) (hne : env.guard ≠ env.update) (sdk : UInt32) (k₀ : Kernel)
    (ι : ℕ → Action) :
    (∀ n stage q a, accepted env sdk k₀ ι n = some ⟨stage, q, a⟩ → stage.Succeeds a →
      ∃ m < n, ∃ t, Acked env sdk k₀ ι m t ∧ t.request = q ∧ t.writeAck = a) ∧
    (∀ n, (handshakeState env sdk k₀ ι n).renderer = .ended .guardInstalled →
      ∃ m < n, ∃ t c, Acked env sdk k₀ ι m t ∧ t.request = publishMainThreadGuardRequest env c ∧
        t.Completed env) ∧
    (∀ n, (handshakeState env sdk k₀ ι n).renderer = .ended .hookInstalled →
      ∃ m < n, ∃ t c, Acked env sdk k₀ ι m t ∧ prepareUpdate env false c = .request t.request ∧
        t.Completed env) := by
  -- An accepted success is of a transaction on the request that the renderer waits for.
  have hmatch : ∀ n x, accepted env sdk k₀ ι n = some x → x.stage.Succeeds x.ack →
      ∃ m < n, ∃ t earlier, Acked env sdk k₀ ι m t ∧ Sends env sdk x.stage t.request earlier ∧
        t.request = x.request ∧ t.writeAck = x.ack := by
    intro n x hx hs
    obtain ⟨earlier, hsends, m, hm, t, hacked, ht, hn, hack⟩ := accepted_spec hx
    rw [← hack] at hs
    have hrequest := hsends.eq_of_succeeds hne ht hn hs
    exact ⟨m, hm, t, earlier, hacked, hrequest ▸ hsends, hrequest, hack⟩
  -- The renderer ends well only on such an acknowledgement, in the stage of its outcome.
  have hinstalled : ∀ n outcome, (handshakeState env sdk k₀ ι n).renderer = .ended outcome →
    outcome ≠ .failed →
      ∃ m < n, ∃ t stage earlier, Acked env sdk k₀ ι m t ∧ Sends env sdk stage t.request earlier ∧
        stage.Succeeds t.writeAck ∧ outcome = stage.outcome := by
    intro n outcome h hf
    obtain ⟨n', hn', x, hx, hended⟩ := exists_accepted h hf
    obtain ⟨hs, houtcome⟩ := afterAck_ended hended hf
    obtain ⟨m, hm, t, earlier, hacked, hsends, _, hack⟩ := hmatch n' x hx hs
    exact ⟨m, hm.trans hn', t, x.stage, earlier, hacked, hsends, hack ▸ hs, houtcome⟩
  refine ⟨fun n stage q a h hs => ?_, fun n h => ?_, fun n h => ?_⟩
  · obtain ⟨m, hm, t, _, hacked, _, hrequest, hack⟩ := hmatch n _ h hs
    exact ⟨m, hm, t, hacked, hrequest, hack⟩
  · obtain ⟨m, hm, t, stage, earlier, hacked, hsends, hs, houtcome⟩ := hinstalled n _ h (by decide)
    generalize hr : t.request = r at hsends
    cases hsends with
    | guard c =>
      have hp := (HookPlan.guard_of_guardRequest (p := t.plan) hr).1
      exact ⟨m, hm, t, c, hacked, hr, Transaction.completed_of_succeeds hs (by rw [hr]; rfl) hp⟩
    | _ => cases houtcome
  · obtain ⟨m, hm, t, stage, earlier, hacked, hsends, hs, houtcome⟩ := hinstalled n _ h (by decide)
    generalize hr : t.request = r at hsends
    cases hsends with
    | updatePatch _ c _ _ hplan =>
      obtain ⟨displaced, original, hle, hle', hupdate⟩ := prepareUpdate_request hplan
      have hp := (HookPlan.patch_of_updateRequest (p := t.plan) hle hle' (hr.trans hupdate)).1
      have hpid : t.request.pid = env.pid := by
        rw [hr, hupdate]
        rfl
      exact ⟨m, hm, t, c, hacked, hr ▸ hplan, Transaction.completed_of_succeeds hs hpid hp⟩
    | _ => cases houtcome

end Runs

/-! A renderer and a controller, each taking its turn, of which every call
    succeeds. -/

namespace Compliant

/-- A renderer, with the addresses that it uses. -/
def env : RendererEnv :=
  { pid := 7, guard := 0x10000, update := 0x20000, hook := 0x30000, trampoline := 0x40000 }

/-- A kernel with the same byte everywhere. -/
def kernel : Kernel :=
  { memory := fun _ _ => 0x55, protection := fun _ _ => 5, attached := fun _ => false, authId :=
    1, trace := [] }

/-- The protection is changed. -/
def mprotect : MprotectAnswer := { rc := 0, applied := fun _ => true }

/-- All bytes are stored. -/
def store : StoreAnswer := { rc := 0, errno := 0, stored := fun _ => true, authId := 1 }

/-- All reads succeed. -/
def reads : ReadAnswers := { primary := { rc := 0, authId := 1 }, fallback := { rc := 0, authId := 1 } }

/-- All writes succeed. -/
def writes : WriteAnswers where
  guard :=
    { snapshot := true, recover := mprotect, recoverCheck := true, setup := mprotect, setupCheck := true
      ptrace := store, mdbg := store, restore := mprotect, restoreCheck := true }
  protect := mprotect
  mdbg := store
  ptrace := store
  restore := mprotect

/-- Every step of a transaction succeeds. -/
def answers : PollAnswers :=
  { getAuth := true, setAuth := { rc := 0, applied := true }, attach := true, read := reads, write := writes
    verify := reads, rollback := writes, rollbackCheck := reads, detach := true
    restoreAuth := { rc := 0, applied := true }, checkAuth := true }

/-- The steps of one request, from its publication to its acknowledgement. -/
def request : List Action :=
  [.openRequest, .writeRequest true true, .poll, .unlinkRequest true, .apply 7 answers,
    .writeAck true, .readAck]

/-- Two requests, one after the other. -/
def run (n : ℕ) : Action := (request ++ request).getD n .giveUp

end Compliant

theorem acks_match_compliant : ∃ m < 14, ∃ t c,
    Acked Compliant.env 0x05000000 Compliant.kernel Compliant.run m t ∧
      t.request = publishMainThreadGuardRequest Compliant.env c ∧ t.Completed Compliant.env :=
  (acks_match Compliant.env (by decide) 0x05000000 Compliant.kernel Compliant.run).2.1 14 (by decide +kernel)

/-! ## Footprint -/

section Footprint

variable {env : RendererEnv} {sdk : UInt32} {k₀ : Kernel} {ι : ℕ → Action}
  {sent : List ShellUiHookRequest}

/-- Where the guard is supported, it is through the back-end of the probe. -/
theorem probeBackend_eq (h : shelluiMainThreadGuardBackend sdk ≠ .unsupported) :
    shelluiHookProbeBackend sdk = shelluiMainThreadGuardBackend sdk := by
  rw [shelluiMainThreadGuardBackend] at h ⊢
  rw [shelluiHookProbeBackend]
  generalize firmwareFamily sdk = family at *
  by_cases hmdbg : family ≥ 0x01000000 ∧ family ≤ 0x08200000 ∨ family = 0x09000000
  · rw [if_pos hmdbg, if_pos hmdbg]
  rw [if_neg hmdbg] at h ⊢
  rw [if_neg hmdbg]
  split_ifs at h with hguard
  · rw [if_pos hguard, if_pos]
    rcases hguard with ⟨hlow, hhigh⟩ | ⟨hlow, hhigh⟩ | ⟨hlow, hhigh⟩ | heq
    · exact .inl ⟨hlow, UInt32.le_trans (UInt32.le_of_lt hhigh) (by decide)⟩
    · exact .inl ⟨UInt32.le_trans (by decide) (UInt32.le_of_lt hlow),
        UInt32.le_trans (UInt32.le_of_lt hhigh) (by decide)⟩
    · exact .inl ⟨UInt32.le_trans (by decide) (UInt32.le_of_lt hlow), hhigh⟩
    · exact .inr heq
  · exact absurd rfl h

/-- Where the guard is not supported, the hook is only as the chain of another, on
    one firmware family. -/
theorem hookBackend_of_unsupported {etaChain : Bool} (h : shelluiHookBackend sdk etaChain ≠ .unsupported)
    (hu : shelluiMainThreadGuardBackend sdk = .unsupported) :
    firmwareFamily sdk = 0x09600000 ∧ etaChain = true := by
  rw [shelluiHookBackend] at h
  rw [shelluiMainThreadGuardBackend] at hu
  generalize firmwareFamily sdk = family at *
  split_ifs at h with hmdbg hchain
  · have hguard : family ≥ 0x01000000 ∧ family ≤ 0x08200000 :=
      ⟨UInt32.le_trans (by decide) hmdbg.1, hmdbg.2⟩
    rw [if_pos (.inl hguard)] at hu
    cases hu
  · exact hchain
  · exact absurd rfl h

/-- The requests that the renderer sends; a hook patch only if the guard is not
    supported. -/
inductive Sendable (env : RendererEnv) (sdk : UInt32) : ShellUiHookRequest → Prop
  | probe (method : UInt64) : Sendable env sdk (probeRequest env method)
  | guard (c : Code) : Sendable env sdk (publishMainThreadGuardRequest env c)
  | update (hu : shelluiMainThreadGuardBackend sdk = .unsupported) (c : Code) (displaced : ℕ)
    (original : UInt64)
    (hle : 14 ≤ displaced) (hle' : displaced ≤ 16) :
      Sendable env sdk (updateRequest env c displaced original)

theorem Sends.sendable {stage : Stage} {q r : ShellUiHookRequest} {earlier : List ShellUiHookRequest}
    (h : Sends env sdk stage q earlier) (hr : r ∈ earlier ++ [q]) : Sendable env sdk r := by
  cases h with
  | guardProbe =>
    obtain rfl := List.mem_singleton.1 hr
    exact .probe _
  | guard c =>
    simp only [List.cons_append, List.nil_append, List.mem_cons, List.not_mem_nil, or_false] at hr
    rcases hr with rfl | rfl
    · exact .probe _
    · exact .guard c
  | updateProbe c =>
    simp only [List.cons_append, List.nil_append, List.mem_cons, List.not_mem_nil, or_false] at hr
    rcases hr with rfl | rfl | rfl
    · exact .probe _
    · exact .guard c
    · exact .probe _
  | updatePatch c c' _ hu hplan =>
    simp only [List.cons_append, List.nil_append, List.mem_cons, List.not_mem_nil, or_false] at hr
    rcases hr with rfl | rfl | rfl | rfl
    · exact .probe _
    · exact .guard c
    · exact .probe _
    · obtain ⟨displaced, original, hle, hle', rfl⟩ := prepareUpdate_request hplan
      exact .update hu c' displaced original hle hle'

theorem Renderer.Sent.sendable {r : Renderer} (h : r.Sent env sdk sent) {q : ShellUiHookRequest}
    (hq : q ∈ sent) :
    Sendable env sdk q := by
  cases r with
  | ready stage q' => exact Sends.sendable h (List.mem_append_left _ hq)
  | opened stage q' =>
    obtain ⟨earlier, hsends, rfl⟩ := h
    exact hsends.sendable hq
  | waiting stage q' =>
    obtain ⟨earlier, hsends, rfl⟩ := h
    exact hsends.sendable hq
  | ended outcome =>
    obtain ⟨_, _, _, hsends, hsub⟩ := h
    exact hsends.sendable (hsub hq)

/-- The writes that are ever attempted: of the guard byte, if the guard is
    supported; of the target of the jump that `Application.Update` started with, on
    one firmware family. -/
def MayWrite (env : RendererEnv) (sdk : UInt32) (k₀ : Kernel) (pid : Int32) (address : UInt64)
    (bytes : List UInt8) : Prop :=
  pid = env.pid ∧
    (shelluiMainThreadGuardBackend sdk ≠ .unsupported ∧ address = env.guard ∧ bytes.length = 1 ∨
      shelluiMainThreadGuardBackend sdk = .unsupported ∧ firmwareFamily sdk = 0x09600000 ∧
        address = env.update + 6 ∧ bytes.length = 8 ∧ (k₀.code env.pid env.update).HasJumpPrefix)

/-- What was written so far; where the guard is not supported, `Application.Update`
    starts as it did. -/
structure Footprint (env : RendererEnv) (sdk : UInt32) (k₀ k : Kernel) : Prop where
  writes : ∃ l, k.trace = k₀.trace ++ l ∧ ∀ q x bytes, .write q x bytes ∈ l →
    MayWrite env sdk k₀ q x bytes
  start : shelluiMainThreadGuardBackend sdk = .unsupported →
    ∀ i : Fin 16, i.val < 6 → k.code env.pid env.update i = k₀.code env.pid env.update i

theorem footprint_init : Footprint env sdk k₀ k₀ :=
  ⟨⟨[], (List.append_nil _).symm, fun _ _ _ h => absurd h List.not_mem_nil⟩, fun _ _ _ => rfl⟩

theorem Footprint.untouched {k k' : Kernel} (h : Footprint env sdk k₀ k) (hu : HookPlan.Untouched k k') :
    Footprint env sdk k₀ k' := by
  obtain ⟨l, hl, hw⟩ := h.writes
  obtain ⟨l', hl', hw'⟩ := hu.trace
  refine ⟨⟨l ++ l', by rw [hl', hl, List.append_assoc], fun q x bytes hmem => ?_⟩, fun hb i hi => ?_⟩
  · rcases List.mem_append.1 hmem with hmem | hmem
    · exact hw q x bytes hmem
    · exact absurd hmem (hw' q x bytes)
  · rw [Kernel.code_congr hu.memory]
    exact h.start hb i hi

/-- Writes in the range of a request. -/
theorem Footprint.changes {k k' : Kernel} {p : HookPlan} (h : Footprint env sdk k₀ k) (hc : p.Changes k k')
    (hw : ∀ bytes : List UInt8, bytes.length = p.size →
      MayWrite env sdk k₀ p.pid (p.request.methodAddress + p.offset.toUInt64) bytes)
    (hs : shelluiMainThreadGuardBackend sdk = .unsupported →
      ∀ i : Fin 16, i.val < 6 → k'.code env.pid env.update i = k.code env.pid env.update i) :
    Footprint env sdk k₀ k' := by
  obtain ⟨l, hl, hold⟩ := h.writes
  obtain ⟨l', hl', hnew⟩ := hc.trace
  refine ⟨⟨l ++ l', by rw [hl', hl, List.append_assoc], fun q x bytes hmem => ?_⟩,
    fun hb i hi => (hs hb i hi).trans (h.start hb i hi)⟩
  rcases List.mem_append.1 hmem with hmem | hmem
  · exact hold q x bytes hmem
  · obtain ⟨rfl, rfl, hlen⟩ := hnew q x bytes hmem
    exact hw bytes hlen

/-- A guard transaction stays within the footprint. -/
theorem Footprint.guard {t : Transaction} {c : Code} (hsdk : t.sdk = sdk)
    (hq : t.request = publishMainThreadGuardRequest env c) (hw : t.plan.Writable t.before)
    (h : Footprint env sdk k₀ t.before) : Footprint env sdk k₀ t.after := by
  obtain ⟨hprobe, hguard⟩ := HookPlan.guard_of_guardRequest (p := t.plan) hq
  obtain ⟨_, _, hpid, _⟩ := HookPlan.common_of_valid hw.valid
  have hoffset : t.plan.offset = 0 := if_pos hguard
  have hsize : t.plan.size = 1 := if_pos hguard
  have hsupported : shelluiMainThreadGuardBackend sdk ≠ .unsupported := by
    have hbackend := hw.supported
    rw [HookPlan.backend, hprobe, hguard] at hbackend
    rw [← hsdk]
    exact hbackend
  have hrequest : t.plan.request = publishMainThreadGuardRequest env c := hq
  rw [hrequest] at hpid
  refine h.changes t.reported.changes (fun bytes hlen => ?_) fun hu => absurd hu hsupported
  refine ⟨hpid.symm, .inl ⟨hsupported, ?_, hlen.trans hsize⟩⟩
  rw [hoffset, hrequest]
  exact add_zero _

/-- A transaction of `Application.Update` stays within the footprint: it is the
    chain of another hook. -/
theorem Footprint.update {t : Transaction} {c : Code} {displaced : ℕ} {original : UInt64} (hsdk : t.sdk = sdk)
    (hu : shelluiMainThreadGuardBackend sdk = .unsupported) (hle : 14 ≤ displaced) (hle' : displaced ≤ 16)
    (hq : t.request = updateRequest env c displaced original) (hw : t.plan.Writable t.before)
    (h : Footprint env sdk k₀ t.before) : Footprint env sdk k₀ t.after := by
  obtain ⟨hprobe, hguard⟩ := HookPlan.patch_of_updateRequest (p := t.plan) hle hle' hq
  obtain ⟨_, _, hpid, _⟩ := HookPlan.common_of_valid hw.valid
  have hplan : t.plan.sdk = sdk := hsdk
  have hbackend := hw.supported
  rw [HookPlan.backend, hprobe, hguard, hplan] at hbackend
  obtain ⟨hfamily, heta⟩ := hookBackend_of_unsupported hbackend hu
  have hoffset : t.plan.offset = 6 := by simp [HookPlan.offset, hguard, heta]
  have hsize : t.plan.size = 8 := by simp [HookPlan.size, hguard, heta]
  have hrequest : t.plan.request = updateRequest env c displaced original := hq
  have hmethod : t.plan.request.methodAddress = env.update := by rw [hrequest]; rfl
  have hsame : t.plan.pid = env.pid := by rw [← hpid, hrequest]; rfl
  have hexpected := hw.expected
  rw [hsame, hmethod] at hexpected
  -- The method starts with a jump, whose target is all that is replaced.
  have hprefix : (t.plan.request.expected).HasJumpPrefix := by
    rw [HookPlan.etaChain, hprobe, hguard] at heta
    exact of_decide_eq_true heta
  refine h.changes t.reported.changes (fun bytes hlen => ?_) fun _ i hi => ?_
  · refine ⟨hsame, .inr ⟨hu, hfamily, ?_, hlen.trans hsize, fun i => ?_⟩⟩
    · rw [hmethod, hoffset]
      rfl
    · rw [← h.start hu (i.castLE (by decide)) i.isLt, hexpected]
      exact hprefix i
  · -- The six bytes before the target are out of the range that is written.
    have hout : ¬t.plan.InRange i := fun hin => absurd (hoffset ▸ hin.1) (not_le.2 hi)
    have hcode := t.reported.changes.code hout
    rw [hsame, hmethod] at hcode
    exact hcode

/-- A transaction stays within the footprint. -/
theorem Footprint.transaction {t : Transaction} (hsdk : t.sdk = sdk) (hr : Sendable env sdk t.request)
    (h : Footprint env sdk k₀ t.before) : Footprint env sdk k₀ t.after := by
  by_cases hw : t.plan.Writable t.before
  · generalize hq : t.request = q at hr
    cases hr with
    | probe method =>
      have hprobe := HookPlan.probe_of_probeRequest (p := t.plan) hq
      exact absurd (hw.patch.symm.trans hprobe) Bool.false_ne_true
    | guard c => exact h.guard hsdk hq hw
    | update hu c displaced original hle hle' => exact h.update hsdk hu hle hle' hq hw
  · exact h.untouched (t.reported.idle hw)

variable (env sdk k₀ ι) in

theorem handshake_footprint (n : ℕ) : Footprint env sdk k₀ (handshakeState env sdk k₀ ι n).kernel := by
  induction n with
  | zero => exact footprint_init
  | succ n ih =>
    have inv := handshake_inv env sdk k₀ ι n
    show Footprint env sdk k₀ ((handshakeState env sdk k₀ ι n).step env sdk (ι n)).1.kernel
    generalize handshakeState env sdk k₀ ι n = s at *
    obtain ⟨renderer, controller, requestFile, ackFile, kernel, sent⟩ := s
    cases ι n with
    | openRequest => cases renderer <;> exact ih
    | writeRequest => cases renderer <;> exact ih
    | readAck =>
      cases renderer with
      | waiting stage q =>
        cases ackFile with
        | none => exact ih
        | some a =>
          rw [step_readAck rfl rfl]
          split_ifs <;> exact ih
      | _ => exact ih
    | giveUp => cases renderer <;> exact ih
    | poll => cases controller <;> cases requestFile <;> exact ih
    | unlinkRequest => cases controller <;> exact ih
    | apply pid a =>
      cases controller with
      | consumed q =>
        have hsendable : Sendable env sdk q := inv.renderer.sendable inv.controller
        have ht : Footprint env sdk k₀ (Transaction.mk sdk pid q kernel a).before := ih
        exact ht.transaction rfl hsendable
      | _ => exact ih
    | writeAck => cases controller <;> exact ih

/-- The footprint of an initialisation, on any firmware, whatever the order of the
    steps and the outcomes of the primitives: nothing is written but the guard byte,
    where the guard is supported, by the back-end of the probe; and, on one firmware
    family, the target of an absolute jump that `Application.Update` started with. -/
theorem patch_footprint (env : RendererEnv) (sdk : UInt32) (k₀ : Kernel) (ι : ℕ → Action) (n : ℕ) :
    ∃ l, (handshakeState env sdk k₀ ι n).kernel.trace = k₀.trace ++ l ∧
      (∀ q x bytes, .write q x bytes ∈ l → q = env.pid ∧
        (shelluiMainThreadGuardBackend sdk ≠ .unsupported ∧
            shelluiHookProbeBackend sdk = shelluiMainThreadGuardBackend sdk ∧ x = env.guard ∧
              bytes.length = 1 ∨
          shelluiMainThreadGuardBackend sdk = .unsupported ∧ firmwareFamily sdk = 0x09600000 ∧
            x = env.update + 6 ∧ bytes.length = 8 ∧ (k₀.code env.pid env.update).HasJumpPrefix)) ∧
      (shelluiMainThreadGuardBackend sdk = .unsupported → shelluiHookProbeBackend sdk = .unsupported →
        ∀ q x bytes, .write q x bytes ∉ l) := by
  obtain ⟨l, hl, hw⟩ := (handshake_footprint env sdk k₀ ι n).writes
  refine ⟨l, hl, fun q x bytes hmem => ?_, fun hg hp q x bytes hmem => ?_⟩
  · obtain ⟨hpid, ⟨hs, hx, hlen⟩ | h⟩ := hw q x bytes hmem
    · exact ⟨hpid, .inl ⟨hs, probeBackend_eq hs, hx, hlen⟩⟩
    · exact ⟨hpid, .inr h⟩
  · obtain ⟨_, ⟨hs, _⟩ | ⟨_, hfamily, _⟩⟩ := hw q x bytes hmem
    · exact hs hg
    · rw [shelluiHookProbeBackend, hfamily] at hp
      exact absurd hp (by decide)

end Footprint

end CommonFps
