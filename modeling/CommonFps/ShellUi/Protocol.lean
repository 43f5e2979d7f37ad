import Mathlib

/-!
# The hook protocol

The requests of the renderer to the controller and their acknowledgements
(`shellui_hook_protocol.hpp`): two packed records in files, each with a checksum
over its bytes, and their validation; and the back-end that each kind of request
has on a firmware, if any.

A request asks for one of three things, told apart by its displaced size and
addresses: a *probe* of the code of a method, the *guard* patch of its first
byte, or the *hook* patch of sixteen bytes, of which only a target is replaced
when the method already starts with an absolute jump (the *chain* of another
hook).
-/

namespace CommonFps

/-- The first word of a request. -/
def kShellUiHookRequestMagic : UInt64 := 0x395145524b484643

/-- The first word of an acknowledgement. -/
def kShellUiHookAckMagic : UInt64 := 0x394b43414b484643

/-- The version of both. -/
def kShellUiHookProtocolVersion : UInt32 := 9

/-- The size of the code that a request is about. -/
def kShellUiHookPatchSize : UInt32 := 16

/-- The sixteen bytes of code that a request is about. -/
abbrev Code := Fin 16 → UInt8

instance neZero_code : NeZero 16 := ⟨Nat.succ_ne_zero 15⟩

/-- The absolute jump, up to its target. -/
def kShellUiAbsoluteJumpPrefix : Fin 6 → UInt8 := ![0xff, 0x25, 0, 0, 0, 0]

namespace Code

/-- The code starts with an absolute jump. -/
def HasJumpPrefix (c : Code) : Prop := ∀ i : Fin 6, c (i.castLE (by decide)) = kShellUiAbsoluteJumpPrefix i

instance (c : Code) : Decidable c.HasJumpPrefix := by unfold HasJumpPrefix; infer_instance

/-- The 64-bit word at the offset 6, the target of an absolute jump. -/
def target (c : Code) : UInt64 :=
  (List.finRange 8).foldl (fun acc i => acc ||| (c (i.natAdd 6 |>.castLE (by decide))).toUInt64 <<<
    (8 * i.val).toUInt64) 0

end Code

/-! ## Back-ends -/

/-- How ShellUI is patched: not at all, by the kernel's debugger calls, or by those of `ptrace`. -/
inductive ShellUiHookBackend
  | unsupported
  | mdbg
  | ptraceIo
  deriving DecidableEq, Repr

/-- The kind of request that an acknowledgement answers. -/
inductive ShellUiHookAckPhase
  | patch
  | probe
  | mainThreadGuard
  deriving DecidableEq, Repr

/-- Its number in an acknowledgement. -/
def ShellUiHookAckPhase.toUInt8 : ShellUiHookAckPhase → UInt8
  | .patch => 0
  | .probe => 1
  | .mainThreadGuard => 2

/-- The family of a firmware, from its SDK version. -/
def firmwareFamily (sdk : UInt32) : UInt32 := sdk &&& 0xffff0000

/-- The firmware is of the family 11.60. -/
def firmwareIsFw1160 (sdk : UInt32) : Prop := firmwareFamily sdk = 0x11600000

instance (sdk : UInt32) : Decidable (firmwareIsFw1160 sdk) := by unfold firmwareIsFw1160; infer_instance

/-- How `Application.Update` is patched. -/
def shelluiHookBackend (sdk : UInt32) (etaChain : Bool) : ShellUiHookBackend :=
  let family := firmwareFamily sdk
  if family ≥ 0x03000000 ∧ family ≤ 0x08200000 then .mdbg
  else if family = 0x09600000 ∧ etaChain then .ptraceIo
  else .unsupported

/-- How the guard method is patched. -/
def shelluiMainThreadGuardBackend (sdk : UInt32) : ShellUiHookBackend :=
  let family := firmwareFamily sdk
  if family ≥ 0x01000000 ∧ family ≤ 0x08200000 ∨ family = 0x09000000 then .mdbg
  else if family ≥ 0x08300000 ∧ family < 0x09000000 ∨ family > 0x09000000 ∧ family < 0x09600000 ∨
      family > 0x09600000 ∧ family ≤ 0x10ff0000 ∨ family = 0x11600000 then .ptraceIo
  else .unsupported

/-- How a method is probed. -/
def shelluiHookProbeBackend (sdk : UInt32) : ShellUiHookBackend :=
  let family := firmwareFamily sdk
  if family ≥ 0x01000000 ∧ family ≤ 0x08200000 ∨ family = 0x09000000 then .mdbg
  else if family ≥ 0x08300000 ∧ family ≤ 0x10ff0000 ∨ family = 0x11600000 then .ptraceIo
  else .unsupported

/-! ## Records -/

/-- How a request ended. -/
inductive ShellUiHookStatus
  | success
  | invalidRequest
  | unsupportedFirmware
  | authFailure
  | attachFailure
  | expectedBytesMismatch
  | writeFailure
  | verifyFailure
  | detachFailure
  | authRestoreFailure
  deriving DecidableEq, Repr

/-- Its number in an acknowledgement. -/
def ShellUiHookStatus.toInt32 : ShellUiHookStatus → Int32
  | .success => 0
  | .invalidRequest => -1
  | .unsupportedFirmware => -2
  | .authFailure => -3
  | .attachFailure => -4
  | .expectedBytesMismatch => -5
  | .writeFailure => -6
  | .verifyFailure => -7
  | .detachFailure => -8
  | .authRestoreFailure => -9

/-- What the renderer asks for. -/
structure ShellUiHookRequest where
  magic : UInt64 := kShellUiHookRequestMagic
  version : UInt32 := kShellUiHookProtocolVersion
  pid : Int32 := -1
  nonce : UInt64 := 0
  methodAddress : UInt64 := 0
  hookAddress : UInt64 := 0
  originalCallAddress : UInt64 := 0
  patchSize : UInt32 := kShellUiHookPatchSize
  displacedSize : UInt32 := 0
  expected : Code := fun _ => 0
  desired : Code := fun _ => 0
  checksum : UInt32 := 0
  deriving DecidableEq

/-- What the controller answers. -/
structure ShellUiHookAck where
  magic : UInt64 := kShellUiHookAckMagic
  version : UInt32 := kShellUiHookProtocolVersion
  pid : Int32 := -1
  nonce : UInt64 := 0
  status : Int32 := ShellUiHookStatus.invalidRequest.toInt32
  readRc : Int32 := -1
  writeRc : Int32 := -1
  verified : UInt8 := 0
  restored : UInt8 := 0
  detached : UInt8 := 0
  authRestored : UInt8 := 0
  phase : UInt8 := ShellUiHookAckPhase.patch.toUInt8
  observed : Code := fun _ => 0
  checksum : UInt32 := 0
  deriving DecidableEq

/-- The little-endian bytes of a 32-bit word. -/
def le32 (x : UInt32) : List UInt8 := (List.range 4).map fun i => (x >>> (8 * i).toUInt32).toUInt8

/-- The little-endian bytes of a 64-bit word. -/
def le64 (x : UInt64) : List UInt8 := (List.range 8).map fun i => (x >>> (8 * i).toUInt64).toUInt8

/-- The hash of some bytes (FNV-1a). -/
def shelluiHookChecksum (bytes : List UInt8) : UInt32 :=
  bytes.foldl (fun hash byte => (hash ^^^ byte.toUInt32) * 16777619) 2166136261

/-- The packed bytes of a request, up to its checksum. -/
def ShellUiHookRequest.bytes (r : ShellUiHookRequest) : List UInt8 :=
  le64 r.magic ++ le32 r.version ++ le32 r.pid.toUInt32 ++ le64 r.nonce ++ le64 r.methodAddress ++
    le64 r.hookAddress ++ le64 r.originalCallAddress ++ le32 r.patchSize ++ le32 r.displacedSize ++
    List.ofFn r.expected ++ List.ofFn r.desired

/-- The packed bytes of an acknowledgement, up to its checksum. -/
def ShellUiHookAck.bytes (a : ShellUiHookAck) : List UInt8 :=
  le64 a.magic ++ le32 a.version ++ le32 a.pid.toUInt32 ++ le64 a.nonce ++ le32 a.status.toUInt32 ++
    le32 a.readRc.toUInt32 ++ le32 a.writeRc.toUInt32 ++
    [a.verified, a.restored, a.detached, a.authRestored, a.phase] ++ List.ofFn a.observed

/-- The checksum that a request should have. -/
def shelluiHookRequestChecksum (r : ShellUiHookRequest) : UInt32 := shelluiHookChecksum r.bytes

/-- The checksum is not of itself. -/
theorem checksum_with_checksum (r : ShellUiHookRequest) (c : UInt32) :
    shelluiHookRequestChecksum { r with checksum := c } = shelluiHookRequestChecksum r := rfl

/-- The checksum that an acknowledgement should have. -/
def shelluiHookAckChecksum (a : ShellUiHookAck) : UInt32 := shelluiHookChecksum a.bytes

/-! ## Validation -/

/-- An address of a process. -/
def shelluiUserAddress (address : UInt64) : Prop := 0x10000 ≤ address ∧ address < 0x0000800000000000

instance (address : UInt64) : Decidable (shelluiUserAddress address) := by
  unfold shelluiUserAddress
  infer_instance

section Validation

variable (r : ShellUiHookRequest) (pid : Int32)

/-- The method starts with the jump of another hook. -/
def shelluiHookIsEtaChain : Prop := r.expected.HasJumpPrefix

/-- A request that changes nothing. -/
def shelluiHookRequestIsProbe : Prop := r.displacedSize = 0

/-- A request for the guard method. -/
def shelluiHookRequestIsMainThreadGuard : Prop :=
  r.displacedSize = 1 ∧ r.originalCallAddress = 0 ∧ r.hookAddress = r.methodAddress

/-- What all valid requests have in common. -/
def shelluiHookRequestCommonIsValid : Prop :=
  r.magic = kShellUiHookRequestMagic ∧ r.version = kShellUiHookProtocolVersion ∧ r.pid = pid ∧ 0 < pid ∧
    r.nonce ≠ 0 ∧ shelluiUserAddress r.methodAddress ∧ shelluiUserAddress (r.methodAddress + 15) ∧
    shelluiUserAddress r.hookAddress ∧ r.patchSize = kShellUiHookPatchSize ∧
    r.checksum = shelluiHookRequestChecksum r

instance : Decidable (shelluiHookIsEtaChain r) := by unfold shelluiHookIsEtaChain; infer_instance

instance : Decidable (shelluiHookRequestIsProbe r) := by unfold shelluiHookRequestIsProbe; infer_instance

instance : Decidable (shelluiHookRequestIsMainThreadGuard r) := by
  unfold shelluiHookRequestIsMainThreadGuard
  infer_instance

instance : Decidable (shelluiHookRequestCommonIsValid r pid) := by
  unfold shelluiHookRequestCommonIsValid
  infer_instance

/-- A valid probe: it names no code. -/
def shelluiHookProbeRequestIsValid : Prop :=
  shelluiHookRequestCommonIsValid r pid ∧ r.originalCallAddress = 0 ∧ shelluiHookRequestIsProbe r ∧
    ∀ i, r.expected i = 0 ∧ r.desired i = 0

/-- A valid patch of the guard method: its first byte becomes a return. -/
def shelluiMainThreadGuardRequestIsValid : Prop :=
  shelluiHookRequestCommonIsValid r pid ∧ shelluiHookRequestIsMainThreadGuard r ∧
    r.expected 0 ≠ 0xc3 ∧ r.desired 0 = 0xc3 ∧ ∀ i, i ≠ 0 → r.desired i = r.expected i

/-- A valid hook patch: an absolute jump to the hook. The chain of another hook
    replaces its target only; a native patch displaces from 14 to 16 bytes, of
    which those after the jump become no-operations. -/
def shelluiHookRequestIsValid : Prop :=
  shelluiHookRequestCommonIsValid r pid ∧ shelluiUserAddress r.originalCallAddress ∧
    r.originalCallAddress ≠ r.hookAddress ∧ r.originalCallAddress ≠ r.methodAddress ∧
    14 ≤ r.displacedSize ∧ r.displacedSize ≤ 16 ∧ ¬shelluiHookRequestIsProbe r ∧
    ¬shelluiHookRequestIsMainThreadGuard r ∧ r.desired.HasJumpPrefix ∧
    r.desired.target = r.hookAddress ∧
    (if shelluiHookIsEtaChain r then
      r.displacedSize = 14 ∧ r.expected.target = r.originalCallAddress
    else ∀ i : Fin 16, 14 ≤ i.val → i.val < r.displacedSize.toNat → r.desired i = 0x90) ∧
    ∀ i : Fin 16, r.displacedSize.toNat ≤ i.val → r.desired i = r.expected i

instance : Decidable (shelluiHookProbeRequestIsValid r pid) := by
  unfold shelluiHookProbeRequestIsValid
  infer_instance

instance : Decidable (shelluiMainThreadGuardRequestIsValid r pid) := by
  unfold shelluiMainThreadGuardRequestIsValid
  infer_instance

instance : Decidable (shelluiHookRequestIsValid r pid) := by
  unfold shelluiHookRequestIsValid
  infer_instance

end Validation

end CommonFps
