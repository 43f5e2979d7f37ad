import CommonFps.ShellUi.Prologue
import CommonFps.ShellUi.Protocol

/-!
# The renderer's side of the handshake

What the renderer in ShellUI publishes (`commonfps_shellui.cpp`), and what it
does on an acknowledgement. It first probes the guard method, and requests its
guard patch; only if the controller does not support that one, it probes
`Application.Update`, and requests its hook patch.

The nonce of a request is made of its addresses, of the process and of one of
two constants. As addresses and processes leave the top bit alone, in which the
constants differ, no guard request has the nonce of a probe; and no two probes
of different methods have the same nonce.
-/

namespace CommonFps

/-- The process of the renderer, and the addresses it knows. -/
structure RendererEnv where
  pid : Int32
  /-- `CheckRunningOnMainThread`, the guard method. -/
  guard : UInt64
  /-- `Application.Update`. -/
  update : UInt64
  /-- `application_update_hook`. -/
  hook : UInt64
  /-- `commonfps_update_trampoline`. -/
  trampoline : UInt64

/-- The process, as it enters a nonce. -/
def pidNonce (pid : Int32) : UInt64 := pid.toInt64.toUInt64 <<< 32

/-- The request for a method, with its nonce and its checksum. -/
def publishHookRequest (env : RendererEnv) (method : UInt64) (expected desired : Code)
    (displacedSize : ℕ) (originalCall : UInt64) : ShellUiHookRequest :=
  let nonce := method ^^^ env.hook ^^^ originalCall ^^^ pidNonce env.pid ^^^ 0x8d4f23a76c19e502
  let request : ShellUiHookRequest :=
    { pid := env.pid
      methodAddress := method
      hookAddress := env.hook
      originalCallAddress := originalCall
      displacedSize := displacedSize.toUInt32
      expected
      desired
      nonce := if nonce = 0 then 1 else nonce }
  { request with checksum := shelluiHookRequestChecksum request }

/-- The request of `probe_hook_bytes`. -/
def probeRequest (env : RendererEnv) (method : UInt64) : ShellUiHookRequest :=
  publishHookRequest env method (fun _ => 0) (fun _ => 0) 0 0

/-- The request for the guard of the main thread. -/
def publishMainThreadGuardRequest (env : RendererEnv) (expected : Code) : ShellUiHookRequest :=
  let nonce := env.guard ^^^ pidNonce env.pid ^^^ 0x6d9bc2f1a54837e0
  let request : ShellUiHookRequest :=
    { pid := env.pid
      methodAddress := env.guard
      hookAddress := env.guard
      originalCallAddress := 0
      displacedSize := 1
      expected
      desired := Function.update expected 0 0xc3
      nonce := if nonce = 0 then 1 else nonce }
  { request with checksum := shelluiHookRequestChecksum request }

/-- The code, with an absolute jump in its first bytes. -/
def encodeAbsoluteJump (code : Code) (destination : UInt64) : Code := fun i =>
  if h : i.val < 6 then kShellUiAbsoluteJumpPrefix ⟨i.val, h⟩
  else if i.val < kAbsoluteJumpSize then (destination >>> (8 * (i.val - 6)).toUInt64).toUInt8
  else code i

/-- The request of `install_update_hook`, with no-operations after the jump. -/
def updateRequest (env : RendererEnv) (expected : Code) (displacedSize : ℕ) (originalCall : UInt64) :
    ShellUiHookRequest :=
  let jump := encodeAbsoluteJump expected env.hook
  publishHookRequest env env.update expected
    (fun i => if kAbsoluteJumpSize ≤ i.val ∧ i.val < displacedSize then 0x90 else jump i) displacedSize
    originalCall

/-- The number of bytes of the trampoline. -/
def kTrampolineCapacity : ℕ := 128

/-- Whether the displaced code fits in the trampoline, with a jump back. -/
def prepareTrampoline (originalSize : ℕ) : Bool :=
  originalSize ≠ 0 ∧ originalSize + kAbsoluteJumpSize ≤ kTrampolineCapacity

/-- What `install_update_hook` does with the code that it probed. -/
inductive UpdatePlan
  | online
  | refused
  | request (r : ShellUiHookRequest)

/-- The hook that `Application.Update` jumps to already is chained, else its
    prologue is displaced; `confirmed` says that the renderer has hooked it. -/
def prepareUpdate (env : RendererEnv) (confirmed : Bool) (expected : Code) : UpdatePlan :=
  if expected.HasJumpPrefix then
    let previous := expected.target
    if previous = env.hook then if confirmed then .online else .refused
    else if ¬shelluiUserAddress previous ∨ previous = env.update then .refused
    else .request (updateRequest env expected kAbsoluteJumpSize previous)
  else
    let displaced := nativePatchLength fun i => if h : i < 16 then expected ⟨i, h⟩ else 0
    if displaced = 0 ∨ ¬prepareTrampoline displaced then .refused
    else .request (updateRequest env expected displaced env.trampoline)

/-- The requests of the renderer, in order. -/
inductive Stage
  | guardProbe
  | guard
  | updateProbe
  | updatePatch
  deriving DecidableEq

/-- The phase in which a stage succeeds. -/
def Stage.phase : Stage → ShellUiHookAckPhase
  | .guardProbe => .probe
  | .guard => .mainThreadGuard
  | .updateProbe => .probe
  | .updatePatch => .patch

/-- How an initialisation of the renderer ends. -/
inductive InitOutcome
  /-- The guard method returns at once already: nothing is to be done. -/
  | guardDisabled
  | guardInstalled
  | hookOnline
  | hookInstalled
  | failed
  deriving DecidableEq

/-- Where the renderer is. -/
inductive Renderer
  /-- It is about to publish a request. -/
  | ready (stage : Stage) (request : ShellUiHookRequest)
  /-- It has opened, and truncated, the request file. -/
  | opened (stage : Stage) (request : ShellUiHookRequest)
  /-- It waits for an acknowledgement. -/
  | waiting (stage : Stage) (request : ShellUiHookRequest)
  | ended (outcome : InitOutcome)
  deriving DecidableEq

/-- The match of `wait_for_native_hook_ack`. -/
def AckMatches (pid : Int32) (nonce : UInt64) (candidate : ShellUiHookAck) : Prop :=
  candidate.magic = kShellUiHookAckMagic ∧ candidate.version = kShellUiHookProtocolVersion ∧
    candidate.pid = pid ∧ candidate.nonce = nonce ∧ candidate.checksum = shelluiHookAckChecksum candidate

instance (pid : Int32) (nonce : UInt64) (candidate : ShellUiHookAck) :
    Decidable (AckMatches pid nonce candidate) := by
  rw [AckMatches]
  infer_instance

/-- The acknowledgement reports the success of a request of a stage. -/
def Stage.Succeeds (stage : Stage) (ack : ShellUiHookAck) : Prop :=
  ack.phase = stage.phase.toUInt8 ∧ ack.status = ShellUiHookStatus.success.toInt32 ∧
    ack.verified ≠ 0 ∧ ack.detached ≠ 0 ∧ ack.authRestored ≠ 0

instance (stage : Stage) (ack : ShellUiHookAck) : Decidable (stage.Succeeds ack) := by
  rw [Stage.Succeeds]
  infer_instance

/-- What the renderer does on the acknowledgement of a request. The hook is not
    confirmed before: it is installed once. -/
def afterAck (env : RendererEnv) (stage : Stage) (ack : ShellUiHookAck) : Renderer :=
  match stage with
  | .guardProbe =>
    if stage.Succeeds ack then
      if ack.observed 0 = 0xc3 then .ended .guardDisabled
      else .ready .guard (publishMainThreadGuardRequest env ack.observed)
    else .ended .failed
  | .guard =>
    if ack.status = ShellUiHookStatus.unsupportedFirmware.toInt32 then
      .ready .updateProbe (probeRequest env env.update)
    else if stage.Succeeds ack then .ended .guardInstalled
    else .ended .failed
  | .updateProbe =>
    if stage.Succeeds ack then
      match prepareUpdate env false ack.observed with
      | .online => .ended .hookOnline
      | .refused => .ended .failed
      | .request r => .ready .updatePatch r
    else .ended .failed
  | .updatePatch => if stage.Succeeds ack then .ended .hookInstalled else .ended .failed

/-! ## Nonces -/

/-- The top bit of a word, in which the constants of the nonces differ. -/
def topBit (x : UInt64) : Bool := x.toBitVec.msb

theorem topBit_xor (x y : UInt64) : topBit (x ^^^ y) = (topBit x ^^ topBit y) := by
  simp [topBit]

theorem topBit_userAddress {x : UInt64} (h : shelluiUserAddress x) : topBit x = false := by
  have hlt : x.toNat < 0x0000800000000000 := h.2
  rw [topBit, BitVec.msb_eq_false_iff_two_mul_lt, UInt64.toNat_toBitVec]
  omega

theorem topBit_pidNonce {pid : Int32} (h : 0 < pid) : topBit (pidNonce pid) = false := by
  have hpos : (0 : ℤ) < pid.toInt := Int32.lt_iff_toInt_lt.1 h
  have hpid : pid.toBitVec.msb = false := by
    rw [BitVec.msb_eq_toInt, Int32.toInt_toBitVec]
    exact decide_eq_false (not_lt.2 hpos.le)
  have hshift : topBit (pidNonce pid) = pid.toBitVec.getMsbD 0 := by
    simp [topBit, pidNonce, BitVec.msb_shiftLeft, BitVec.getMsbD_signExtend]
  exact hshift.trans hpid

variable {env : RendererEnv}

/-- The nonce of a probe has the top bit, and is made of its parts. -/
theorem probeRequest_nonce {method : UInt64} (hm : shelluiUserAddress method)
    (hh : shelluiUserAddress env.hook) (hp : 0 < env.pid) :
    (probeRequest env method).nonce = method ^^^ env.hook ^^^ 0 ^^^ pidNonce env.pid ^^^ 0x8d4f23a76c19e502 ∧
      topBit (probeRequest env method).nonce = true := by
  have htop : topBit (method ^^^ env.hook ^^^ 0 ^^^ pidNonce env.pid ^^^ 0x8d4f23a76c19e502) = true := by
    simp only [topBit_xor, topBit_userAddress hm, topBit_userAddress hh, topBit_pidNonce hp]
    decide
  have hne : method ^^^ env.hook ^^^ 0 ^^^ pidNonce env.pid ^^^ 0x8d4f23a76c19e502 ≠ 0 := by
    intro hzero
    rw [hzero] at htop
    cases htop
  have hnonce : (probeRequest env method).nonce = _ := if_neg hne
  exact ⟨hnonce, hnonce ▸ htop⟩

/-- A guard request does not have the nonce of a probe. -/
theorem guardRequest_nonce_ne (hg : shelluiUserAddress env.guard) (hh : shelluiUserAddress env.hook)
    (hp : 0 < env.pid) (expected : Code) :
    (probeRequest env env.guard).nonce ≠ (publishMainThreadGuardRequest env expected).nonce := by
  intro heq
  have htop := (probeRequest_nonce hg hh hp).2
  rw [heq] at htop
  have hguard : topBit (env.guard ^^^ pidNonce env.pid ^^^ 0x6d9bc2f1a54837e0) = false := by
    simp only [topBit_xor, topBit_userAddress hg, topBit_pidNonce hp]
    decide
  rw [publishMainThreadGuardRequest] at htop
  dsimp only at htop
  split_ifs at htop
  · cases htop
  · exact absurd (hguard.symm.trans htop) Bool.false_ne_true

/-- Probes of different methods have different nonces. -/
theorem probeRequest_nonce_ne {method : UInt64} (hg : shelluiUserAddress env.guard)
    (hh : shelluiUserAddress env.hook) (hp : 0 < env.pid) (hne : env.guard ≠ method) :
    (probeRequest env env.guard).nonce ≠ (probeRequest env method).nonce := by
  intro heq
  obtain ⟨hnonce, htop⟩ := probeRequest_nonce hg hh hp
  rw [hnonce] at heq
  rw [hnonce, heq] at htop
  rw [probeRequest, publishHookRequest] at heq htop
  dsimp only at heq htop
  split_ifs at heq htop
  · cases htop
  · exact hne (by simpa using heq)

end CommonFps
