import CommonFps.Lib.Tiles
import CommonFps.ShellUi.GuardWrite

/-!
# Checked transfers through the debugger

A transfer in chunks, of which each reports how much it did
(`shellui_code_read.hpp`), and the transfers of the debugger's system call, for
which the controller takes the credentials of the core dumper
(`shellui_mdbg_io.cpp`).

* `debuggerTransferExact`: a transfer, with any answers to its requests; it
  succeeds if and only if the chunks tile the range (`TransferSpec`);
* `shelluiMdbgReadExact`, `shelluiMdbgWriteByte`: a transfer with the
  credentials taken and given back, whatever fails (`MdbgSpec`).
-/

namespace CommonFps

/-- What a chunk returned: a code, and the number of bytes. -/
structure DebuggerReadChunk where
  syscallRc : ℤ := -1
  status : ℤ := 0
  bytes : ℕ := 0
  deriving DecidableEq

/-- A request for the bytes from an offset on, and its reply. -/
structure ChunkCall where
  offset : ℕ
  remaining : ℕ
  reply : DebuggerReadChunk
  deriving DecidableEq

namespace ChunkCall

/-- The error of a reply: a syscall that succeeds is not enough. -/
def error (c : ChunkCall) : ℤ :=
  let error := if c.reply.syscallRc ≠ 0 then c.reply.syscallRc else c.reply.status
  if error = 0 ∧ (c.reply.bytes = 0 ∨ c.reply.bytes > c.remaining) then EIO else error

/-- The chunk that a reply says is done. -/
def chunk (c : ChunkCall) : ℕ × ℕ := (c.offset, c.reply.bytes)

/-- A reply without error does a part of the request, and not nothing. -/
theorem bytes_of_error {c : ChunkCall} (h : c.error = 0) :
    0 < c.reply.bytes ∧ c.reply.bytes ≤ c.remaining := by
  by_contra hbytes
  have hbad : c.reply.bytes = 0 ∨ c.reply.bytes > c.remaining := by omega
  rw [error] at h
  simp only [hbad, and_true] at h
  generalize (if c.reply.syscallRc ≠ 0 then c.reply.syscallRc else c.reply.status) = error at h
  split_ifs at h with herror
  · exact EIO_ne_zero h
  · exact herror h

end ChunkCall

/-- The outcome of a transfer: the calls made, and those accepted. -/
structure Transfer (σ : Type*) where
  state : σ
  calls : List ChunkCall
  accepted : List ChunkCall
  rc : ℤ

variable {σ : Type*}

/-- The loop of a transfer, from an offset on. -/
def transferFrom (size : ℕ) (transferChunk : ℕ → ℕ → σ → σ × DebuggerReadChunk)
    (offset : ℕ) (s : σ) :
    Transfer σ :=
  if offset < size then
    let answer := transferChunk offset (size - offset) s
    let call : ChunkCall := ⟨offset, size - offset, answer.2⟩
    if call.error ≠ 0 then ⟨answer.1, [call], [], call.error⟩
    else
      let rest := transferFrom size transferChunk (offset + answer.2.bytes) answer.1
      ⟨rest.state, call :: rest.calls, call :: rest.accepted, rest.rc⟩
  else ⟨s, [], [], 0⟩
termination_by size - offset
decreasing_by
  rename_i hlt he
  have hbytes : 0 < answer.2.bytes := (ChunkCall.bytes_of_error (not_not.1 he)).1
  exact Nat.sub_lt_sub_left hlt (Nat.lt_add_of_pos_right hbytes)

/-- A transfer of a size, chunk by chunk. -/
def debuggerTransferExact (size : ℕ) (transferChunk : ℕ → ℕ → σ → σ × DebuggerReadChunk)
    (s : σ) :
    Transfer σ :=
  if size = 0 then ⟨s, [], [], EINVAL⟩ else transferFrom size transferChunk 0 s

/-! ## One transfer -/

/-- Every request asks for all that is left, after what the replies before it
    say is done. -/
inductive InTurn (size : ℕ) : ℕ → List ChunkCall → Prop
  | nil (offset : ℕ) : InTurn size offset []
  | cons {offset : ℕ} {reply : DebuggerReadChunk} {l : List ChunkCall} : offset < size →
      InTurn size (offset + reply.bytes) l →
      InTurn size offset (⟨offset, size - offset, reply⟩ :: l)

/-- A transfer is done, or ends with the first error. -/
theorem transferFrom_spec {size offset : ℕ} (transferChunk : ℕ → ℕ → σ → σ × DebuggerReadChunk)
    (s : σ)
    (h : offset ≤ size) :
    let t := transferFrom size transferChunk offset s
    InTurn size offset t.calls ∧ (∀ c ∈ t.accepted, c.error = 0) ∧
      ((t.rc = 0 ∧ t.calls = t.accepted ∧ Tiles offset size (t.accepted.map ChunkCall.chunk)) ∨
        ∃ last, t.calls = t.accepted ++ [last] ∧ t.rc = last.error ∧ last.error ≠ 0 ∧
          last.offset < size ∧
          Tiles offset last.offset (t.accepted.map ChunkCall.chunk)) := by
  fun_induction transferFrom size transferChunk offset s with
  | case1 offset s hlt answer call he =>
    exact ⟨.cons hlt (.nil _), by simp, .inr ⟨call, rfl, rfl, he, hlt, .nil _⟩⟩
  | case2 offset s hlt answer call he rest ih =>
    have herror : call.error = 0 := not_not.1 he
    obtain ⟨hpos, hle⟩ := ChunkCall.bytes_of_error herror
    have hle : answer.2.bytes ≤ size - offset := hle
    obtain ⟨hcalls, haccepted, hend⟩ := ih (by omega)
    refine ⟨.cons hlt hcalls, fun c hc => ?_, ?_⟩
    · rcases List.mem_cons.1 hc with rfl | hc
      · exact herror
      · exact haccepted c hc
    · rcases hend with ⟨hrc, heq, htiles⟩ | ⟨last, heq, hrc, hne, hlast, htiles⟩
      · exact .inl ⟨hrc, congrArg _ heq, .cons hpos htiles⟩
      · exact .inr ⟨last, congrArg _ heq, hrc, hne, hlast, .cons hpos htiles⟩
  | case3 offset s hge =>
    obtain rfl : offset = size := h.antisymm (Nat.not_lt.1 hge)
    exact ⟨.nil _, by simp, .inl ⟨rfl, rfl, .nil _⟩⟩

/-- What a transfer guarantees, whatever is answered. -/
structure TransferSpec (size : ℕ) (t : Transfer σ) : Prop where
  calls_le : t.calls.length ≤ size
  consecutive : InTurn size 0 t.calls
  /-- No empty chunk is accepted, and none that is too large. -/
  accepted : ∀ c ∈ t.accepted, c.error = 0 ∧ 0 < c.reply.bytes ∧ c.reply.bytes ≤ c.remaining
  zero_iff : t.rc = 0 ↔ size ≠ 0 ∧ Tiles 0 size (t.accepted.map ChunkCall.chunk)
  accepted_of_zero : t.rc = 0 → t.calls = t.accepted
  /-- All calls but the one that fails are accepted, and those are without error. -/
  first_error : t.rc ≠ 0 → (size = 0 ∧ t.calls = [] ∧ t.rc = EINVAL) ∨
    ∃ last, t.calls = t.accepted ++ [last] ∧ t.rc = last.error

theorem debuggerTransferExact_spec (size : ℕ) (transferChunk : ℕ → ℕ → σ → σ × DebuggerReadChunk)
    (s : σ) :
    TransferSpec size (debuggerTransferExact size transferChunk s) := by
  rw [debuggerTransferExact]
  split_ifs with hsize
  · have hne : EINVAL ≠ 0 := by decide
    exact {
      calls_le := Nat.zero_le _
      consecutive := .nil 0
      accepted := by simp
      zero_iff := ⟨fun h => absurd h hne, fun h => absurd hsize h.1⟩
      accepted_of_zero := fun h => absurd h hne
      first_error := fun _ => .inl ⟨hsize, rfl, rfl⟩ }
  · obtain ⟨hcalls, haccepted, hend⟩ := transferFrom_spec transferChunk s (Nat.zero_le size)
    have hchunks := fun c hc => And.intro (haccepted c hc) (ChunkCall.bytes_of_error (haccepted c hc))
    rcases hend with ⟨hrc, heq, htiles⟩ | ⟨last, heq, hrc, hne, hlast, htiles⟩
    · have hlength := htiles.length_le
      rw [List.length_map] at hlength
      exact {
        calls_le := by rw [heq]; exact hlength
        consecutive := hcalls
        accepted := hchunks
        zero_iff := ⟨fun _ => ⟨hsize, htiles⟩, fun _ => hrc⟩
        accepted_of_zero := fun _ => heq
        first_error := fun h => absurd hrc h }
    · have hlength := htiles.length_le
      rw [List.length_map] at hlength
      exact {
        calls_le := by
          rw [heq, List.length_append, List.length_singleton]
          omega
        consecutive := hcalls
        accepted := hchunks
        -- The accepted chunks end where the last request begins.
        zero_iff := ⟨fun h => absurd (hrc.symm.trans h) hne, fun h => absurd (htiles.unique h.2) hlast.ne⟩
        accepted_of_zero := fun h => absurd (hrc.symm.trans h) hne
        first_error := fun _ => .inr ⟨last, heq, hrc⟩ }

section Log

variable {β : Type*} (log : σ → List β) (event : ChunkCall → β)
  {transferChunk : ℕ → ℕ → σ → σ × DebuggerReadChunk}

theorem transferFrom_log (h : ∀ offset remaining s, log (transferChunk offset remaining s).1 =
      log s ++ [event ⟨offset, remaining, (transferChunk offset remaining s).2⟩])
    (size offset : ℕ) (s : σ) :
    let t := transferFrom size transferChunk offset s
    log t.state = log s ++ t.calls.map event := by
  fun_induction transferFrom size transferChunk offset s with
  | case1 offset s hlt answer call he => exact h offset (size - offset) s
  | case2 offset s hlt answer call he rest ih => exact ih.trans (by rw [h]; simp [rest, call, answer])
  | case3 offset s hge => simp

/-- A transfer logs its calls, if every request does. -/
theorem debuggerTransferExact_log (h : ∀ offset remaining s, log (transferChunk offset remaining s).1 =
      log s ++ [event ⟨offset, remaining, (transferChunk offset remaining s).2⟩])
    (size : ℕ) (s : σ) :
    let t := debuggerTransferExact size transferChunk s
    log t.state = log s ++ t.calls.map event := by
  intro t
  by_cases hsize : size = 0
  · have ht : t = ⟨s, [], [], EINVAL⟩ := if_pos hsize
    simp [ht]
  · have ht : t = transferFrom size transferChunk 0 s := if_neg hsize
    rw [ht]
    exact transferFrom_log log event h size 0 s

end Log

/-! ## A transfer into a buffer -/

/-- The first bytes of a buffer, set to zero. -/
def zeroBytes (size : ℕ) (buffer : ℕ → UInt8) : ℕ → UInt8 := fun i => if i < size then 0 else buffer i

/-- A transfer into the buffer at an address, which is zeroed on failure. -/
def debuggerReadExact (destination : UInt64) (size : ℕ)
    (readChunk : ℕ → ℕ → σ × (ℕ → UInt8) → (σ × (ℕ → UInt8)) × DebuggerReadChunk)
    (s : σ × (ℕ → UInt8)) :
    (σ × (ℕ → UInt8)) × ℤ :=
  if destination = 0 ∨ size = 0 then (s, EINVAL)
  else
    let t := debuggerTransferExact size readChunk (s.1, zeroBytes size s.2)
    (if t.rc ≠ 0 then (t.state.1, zeroBytes size t.state.2) else t.state, t.rc)

theorem zeroBytes_of_lt {size i : ℕ} (buffer : ℕ → UInt8) (h : i < size) :
    zeroBytes size buffer i = 0 := if_pos h

/-! ## The debugger's system call -/

/-- The credentials with which the debugger's system call is made. -/
def kCoredumpAuth : UInt64 := 0x4800000000000006

/-- The capabilities of a process. -/
abbrev Caps := Fin 16 → UInt8

/-- All capabilities. -/
def privilegedCaps : Caps := fun _ => 0xff

/-- The first argument of the system call. -/
structure MdbgCommand where
  type : UInt64
  operation : UInt64
  deriving DecidableEq

/-- The second argument of the system call. -/
structure MdbgArguments where
  pid : Int32
  source : UInt64
  destination : UInt64
  length : UInt64
  deriving DecidableEq

/-- A call on the credentials, with what it reads, or a request to the debugger. -/
inductive MdbgEvent
  | getAuth (authId : UInt64)
  | getCaps (caps : Option Caps)
  | setAuth (authId : UInt64)
  | setCaps (caps : Caps)
  | request (command : MdbgCommand) (args : MdbgArguments) (reply : DebuggerReadChunk)
  deriving DecidableEq

/-- The event may change the credentials. -/
def MdbgEvent.IsSet : MdbgEvent → Prop
  | setAuth _ | setCaps _ => True
  | _ => False

/-- The credentials of the controller, the buffer of a transfer, and the calls so far. -/
structure MdbgController where
  authId : UInt64
  caps : Caps
  buffer : ℕ → UInt8
  trace : List MdbgEvent

/-- The outcome of setting the capabilities: some may be set, whatever it returns. -/
structure SetCapsAnswer where
  rc : ℤ
  applied : Fin 16 → Bool

/-- The outcome of a request to the debugger, and what it leaves in the buffer. -/
structure MdbgAnswer where
  rc : ℤ
  errno : ℤ
  status : ℤ
  length : ℕ
  fill : ℕ → Option UInt8

/-- The outcomes of the calls in a transfer, the requests being told apart by
    their offsets. -/
structure MdbgAnswers where
  getAuth : Bool
  getCaps : Bool
  setAuth : SetAnswer
  setCaps : SetCapsAnswer
  request : ℕ → MdbgAnswer
  restoreAuth : SetAnswer
  restoreCaps : SetCapsAnswer
  checkAuth : Bool
  checkCaps : Bool

namespace MdbgController

/-- What reading the credential gives, `0` on failure. -/
def authRead (m : MdbgController) (ok : Bool) : UInt64 := if ok then m.authId else 0

/-- The capabilities as they are read. -/
def capsRead (m : MdbgController) (ok : Bool) : Option Caps := if ok then some m.caps else none

/-- A step is recorded. -/
def log (m : MdbgController) (event : MdbgEvent) : MdbgController := { m with trace := m.trace ++ [event] }

/-- The credentials are read. -/
def getAuth (m : MdbgController) (ok : Bool) : MdbgController := m.log (.getAuth (m.authRead ok))

/-- The capabilities are read. -/
def getCaps (m : MdbgController) (ok : Bool) : MdbgController := m.log (.getCaps (m.capsRead ok))

/-- The credentials are set. -/
def setAuth (m : MdbgController) (authId : UInt64) (a : SetAnswer) : MdbgController :=
  { m with
    authId := if a.applied then authId else m.authId
    trace := m.trace ++ [.setAuth authId] }

/-- The capabilities are set, in the bytes that the call reaches. -/
def setCaps (m : MdbgController) (caps : Caps) (a : SetCapsAnswer) : MdbgController :=
  { m with
    caps := fun i => if a.applied i then caps i else m.caps i
    trace := m.trace ++ [.setCaps caps] }

/-- `memset` of the buffer. -/
def zero (m : MdbgController) (size : ℕ) : MdbgController :=
  { m with buffer := zeroBytes size m.buffer }

/-- The arguments of a request: a read goes from the process to the buffer, a
    write the other way. -/
def mdbgCommand (read : Bool) : MdbgCommand := ⟨1, if read then 0x12 else 0x13⟩

/-- What a chunk asks for. -/
def mdbgArguments (read : Bool) (pid : Int32) (address buffer : UInt64) (offset remaining : ℕ) :
    MdbgArguments :=
  let localAddress := buffer + UInt64.ofNat offset
  let remote := address + UInt64.ofNat offset
  ⟨pid, if read then remote else localAddress, if read then localAddress else remote,
    UInt64.ofNat remaining⟩

/-- A request of a transfer. -/
def request (read : Bool) (pid : Int32) (address buffer : UInt64) (answers : ℕ → MdbgAnswer)
    (offset remaining : ℕ) (m : MdbgController) : MdbgController × DebuggerReadChunk :=
  let a := answers offset
  let reply : DebuggerReadChunk :=
    ⟨if a.rc = -1 then (if a.errno ≠ 0 then a.errno else EIO) else a.rc, a.status, a.length⟩
  ({ m with
      buffer := fun i =>
        if read ∧ offset ≤ i ∧ i < offset + remaining then (a.fill (i - offset)).getD (m.buffer i)
        else m.buffer i
      trace := m.trace ++
        [.request (mdbgCommand read) (mdbgArguments read pid address buffer offset remaining) reply] },
    reply)

/-- The credentials are taken, and then the transfer is made. -/
def transferPrivileged (read : Bool) (pid : Int32) (address buffer : UInt64) (size : ℕ) (m : MdbgController)
    (a : MdbgAnswers) : MdbgController × ℤ :=
  let m := m.setAuth kCoredumpAuth a.setAuth
  if a.setAuth.rc ≠ 0 then (m, EIO)
  else
    let m := m.setCaps privilegedCaps a.setCaps
    if a.setCaps.rc ≠ 0 then (m, EIO)
    else
      let t := debuggerTransferExact size (request read pid address buffer a.request) m
      (t.state, t.rc)

/-- A credential that was set is read back. -/
def readBackAuth (m : MdbgController) (authId : UInt64) (set : SetAnswer) (ok : Bool) :
    MdbgController × Bool :=
  if set.rc = 0 then (m.getAuth ok, m.authRead ok = authId) else (m, false)

/-- The capabilities are read back, and compared with those that were set. -/
def readBackCaps (m : MdbgController) (caps : Caps) (set : SetCapsAnswer) (ok : Bool) :
    MdbgController × Bool :=
  if set.rc = 0 then (m.getCaps ok, m.capsRead ok = some caps) else (m, false)

/-- Both credentials are given back, and read back. -/
def restore (m : MdbgController) (authId : UInt64) (caps : Caps) (a : MdbgAnswers) : MdbgController × Bool :=
  let m := (m.setAuth authId a.restoreAuth).setCaps caps a.restoreCaps
  let authRestored := m.readBackAuth authId a.restoreAuth a.checkAuth
  let capsRestored := authRestored.1.readBackCaps caps a.restoreCaps a.checkCaps
  (capsRestored.1, authRestored.2 && capsRestored.2)

/-- The arguments that are refused. -/
def Refused (read : Bool) (pid : Int32) (address buffer : UInt64) (size : ℕ) : Prop :=
  pid ≤ 0 ∨ buffer = 0 ∨ size = 0 ∨ size > kShellUiHookPatchSize.toNat ∨
    (read = false ∧ size ≠ 1) ∨
    ¬shelluiUserAddress address ∨ ¬shelluiUserAddress (address + UInt64.ofNat size - 1)

instance (read : Bool) (pid : Int32) (address buffer : UInt64) (size : ℕ) :
    Decidable (Refused read pid address buffer size) := by
  unfold Refused
  infer_instance

/-- The transfer, and then the credentials; a read that fails leaves nothing. -/
def transferAndRestore (read : Bool) (pid : Int32) (address buffer : UInt64) (size : ℕ) (m : MdbgController)
    (originalAuth : UInt64) (originalCaps : Caps) (a : MdbgAnswers) : MdbgController × ℤ :=
  let transferred := transferPrivileged read pid address buffer size m a
  let restored := transferred.1.restore originalAuth originalCaps a
  let rc := if !restored.2 then EIO else transferred.2
  (if read ∧ rc ≠ 0 then restored.1.zero size else restored.1, rc)

/-- A transfer with the privileges that it needs, which are given back. -/
def transferExact (read : Bool) (pid : Int32) (address buffer : UInt64) (size : ℕ) (m : MdbgController)
    (a : MdbgAnswers) : MdbgController × ℤ :=
  if Refused read pid address buffer size then (m, EINVAL)
  else
    let m := if read then m.zero size else m
    let originalAuth := m.authRead a.getAuth
    let m := m.getAuth a.getAuth
    if originalAuth = 0 then (m, EIO)
    else
      let originalCaps := m.capsRead a.getCaps
      let m := m.getCaps a.getCaps
      match originalCaps with
      | none => (m, EIO)
      | some originalCaps => transferAndRestore read pid address buffer size m originalAuth originalCaps a

/-- The events of credentials that are taken, given back, and read. -/
def takes : List MdbgEvent := [.setAuth kCoredumpAuth, .setCaps privilegedCaps]

/-- Both privileges are set. -/
def gives (authId : UInt64) (caps : Caps) : List MdbgEvent := [.setAuth authId, .setCaps caps]

/-- Both privileges are read. -/
def reads (authId : UInt64) (caps : Caps) : List MdbgEvent := [.getAuth authId, .getCaps (some caps)]

/-- What is logged of a call. -/
def event (read : Bool) (pid : Int32) (address buffer : UInt64) (c : ChunkCall) : MdbgEvent :=
  .request (mdbgCommand read) (mdbgArguments read pid address buffer c.offset c.remaining) c.reply

variable {read : Bool} {pid : Int32} {address buffer : UInt64} {size : ℕ}

variable (read pid address buffer size) in

/-- A transfer that succeeds is a whole one, with the credentials taken. -/
theorem transferPrivileged_trace (m : MdbgController) (a : MdbgAnswers) :
    ∃ events, (transferPrivileged read pid address buffer size m a).1.trace = m.trace ++ events ∧
      ((transferPrivileged read pid address buffer size m a).2 = 0 → ∃ calls : List ChunkCall,
        events = takes ++ calls.map (event read pid address buffer) ∧
          Tiles 0 size (calls.map ChunkCall.chunk) ∧ ∀ c ∈ calls, c.error = 0) := by
  rw [transferPrivileged]
  by_cases hauth : a.setAuth.rc = 0
  · by_cases hcaps : a.setCaps.rc = 0
    · rw [if_neg (not_not.2 hauth), if_neg (not_not.2 hcaps)]
      generalize hm' : (m.setAuth kCoredumpAuth a.setAuth).setCaps privilegedCaps a.setCaps = m'
      have htrace : m'.trace = m.trace ++ takes := by
        rw [← hm']
        exact List.append_assoc _ _ _
      have hlog := debuggerTransferExact_log trace (event read pid address buffer)
        (fun offset remaining m => rfl : ∀ offset remaining m,
          (request read pid address buffer a.request offset remaining m).1.trace = _) size m'
      have hspec := debuggerTransferExact_spec size (request read pid address buffer a.request) m'
      generalize debuggerTransferExact size (request read pid address buffer a.request) m' = t at hlog hspec
      refine ⟨_, hlog.trans (by rw [htrace, List.append_assoc]), fun h => ⟨t.calls, rfl, ?_⟩⟩
      rw [hspec.accepted_of_zero h]
      exact ⟨(hspec.zero_iff.1 h).2, fun c hc => (hspec.accepted c hc).1⟩
    · rw [if_neg (not_not.2 hauth), if_pos hcaps]
      exact ⟨_, List.append_assoc _ _ _, fun h => absurd h EIO_ne_zero⟩
  · rw [if_pos hauth]
    exact ⟨_, rfl, fun h => absurd h EIO_ne_zero⟩

theorem readBackAuth_spec (m : MdbgController) {authId : UInt64} (set : SetAnswer) (ok : Bool)
    (h : authId ≠ 0) :
    ∃ post, (m.readBackAuth authId set ok).1 = { m with trace := m.trace ++ post } ∧
      (∀ e ∈ post, ¬e.IsSet) ∧
      ((m.readBackAuth authId set ok).2 = true → post = [.getAuth authId] ∧ m.authId = authId) := by
  rw [readBackAuth]
  split_ifs
  · refine ⟨[.getAuth (m.authRead ok)], rfl, by simp [MdbgEvent.IsSet], fun hback => ?_⟩
    have hread : m.authRead ok = authId := of_decide_eq_true hback
    refine ⟨by rw [hread], ?_⟩
    rw [authRead] at hread
    split_ifs at hread
    · exact hread
    · exact absurd hread.symm h
  · exact ⟨[], by simp, by simp, by simp⟩

theorem readBackCaps_spec (m : MdbgController) (caps : Caps) (set : SetCapsAnswer) (ok : Bool) :
    ∃ post, (m.readBackCaps caps set ok).1 = { m with trace := m.trace ++ post } ∧
      (∀ e ∈ post, ¬e.IsSet) ∧
      ((m.readBackCaps caps set ok).2 = true → post = [.getCaps (some caps)] ∧ m.caps = caps) := by
  rw [readBackCaps]
  split_ifs
  · refine ⟨[.getCaps (m.capsRead ok)], rfl, by simp [MdbgEvent.IsSet], fun hback => ?_⟩
    have hread : m.capsRead ok = some caps := of_decide_eq_true hback
    refine ⟨by rw [hread], ?_⟩
    rw [capsRead] at hread
    split_ifs at hread
    exact Option.some.inj hread
  · exact ⟨[], by simp, by simp, by simp⟩

/-- Both credentials are set, and nothing is set afterwards; they are what they
    are to be if they can be read back. -/
theorem restore_spec (m : MdbgController) {authId : UInt64} (caps : Caps) (a : MdbgAnswers) (h : authId ≠ 0) :
    ∃ post, (m.restore authId caps a).1.trace = m.trace ++ (gives authId caps ++ post) ∧
      (∀ e ∈ post, ¬e.IsSet) ∧
      ((m.restore authId caps a).2 = true → post = reads authId caps ∧
        (m.restore authId caps a).1.authId = authId ∧ (m.restore authId caps a).1.caps = caps) := by
  rw [restore]
  generalize hm' : (m.setAuth authId a.restoreAuth).setCaps caps a.restoreCaps = m'
  obtain ⟨post₁, heq₁, hset₁, hback₁⟩ := m'.readBackAuth_spec a.restoreAuth a.checkAuth h
  obtain ⟨post₂, heq₂, hset₂, hback₂⟩ :=
    (m'.readBackAuth authId a.restoreAuth a.checkAuth).1.readBackCaps_spec caps a.restoreCaps a.checkCaps
  refine ⟨post₁ ++ post₂, ?_, ?_, fun hback => ?_⟩
  · dsimp only
    rw [heq₂, heq₁, ← hm']
    simp [setCaps, setAuth, gives]
  · intro e he
    rcases List.mem_append.1 he with he | he
    · exact hset₁ e he
    · exact hset₂ e he
  · obtain ⟨hauth, hcaps⟩ := (Bool.and_eq_true _ _).mp hback
    obtain ⟨rfl, hauth⟩ := hback₁ hauth
    obtain ⟨rfl, hcaps⟩ := hback₂ hcaps
    dsimp only
    rw [heq₂]
    rw [heq₁] at hcaps ⊢
    exact ⟨rfl, hauth, hcaps⟩

variable (read pid address buffer size) in

/-- The credentials are given back last, as they were, and a success is a whole
    transfer after which they could be read back. -/
theorem transferAndRestore_spec (m : MdbgController) {authId : UInt64} (caps : Caps) (a : MdbgAnswers)
    (h : authId ≠ 0) :
    let r := transferAndRestore read pid address buffer size m authId caps a
    (∃ pre post, r.1.trace = m.trace ++ (pre ++ (gives authId caps ++ post)) ∧ ∀ e ∈ post,
      ¬e.IsSet) ∧
      (read = true → r.2 ≠ 0 → ∀ i < size, r.1.buffer i = 0) ∧
      (r.2 = 0 → (∃ calls : List ChunkCall, Tiles 0 size (calls.map ChunkCall.chunk) ∧
      (∀ c ∈ calls, c.error = 0) ∧
        r.1.trace = m.trace ++ (takes ++ calls.map (event read pid address buffer) ++
          (gives authId caps ++ reads authId caps))) ∧
        r.1.authId = authId ∧ r.1.caps = caps) := by
  rw [transferAndRestore]
  obtain ⟨events, hevents, hwhole⟩ := m.transferPrivileged_trace read pid address buffer size a
  generalize transferPrivileged read pid address buffer size m a = transferred at hevents hwhole ⊢
  obtain ⟨post, hpost, hset, hback⟩ := transferred.1.restore_spec caps a h
  generalize transferred.1.restore authId caps a = restored at hpost hback ⊢
  dsimp only
  generalize hrc : (if !restored.2 then EIO else transferred.2) = rc
  refine ⟨⟨events, post, ?_, hset⟩, fun hread hne i hi => ?_, fun hzero => ?_⟩
  · rw [← List.append_assoc, ← hevents, ← hpost]
    split_ifs <;> rfl
  · rw [if_pos ⟨hread, hne⟩]
    exact zeroBytes_of_lt _ hi
  · have hrestored : restored.2 = true := by
      by_contra hr
      rw [if_pos (by simpa using hr)] at hrc
      exact EIO_ne_zero (hrc.trans hzero)
    rw [if_neg (by simp [hrestored])] at hrc
    obtain ⟨calls, rfl, htiles, herror⟩ := hwhole (hrc.trans hzero)
    obtain ⟨rfl, hauth, hcaps⟩ := hback hrestored
    rw [if_neg fun hr => hr.2 hzero]
    refine ⟨⟨calls, htiles, herror, ?_⟩, hauth, hcaps⟩
    rw [hpost, hevents, List.append_assoc]

/-- What a transfer guarantees of the credentials and the buffer, whatever fails:
    from the controller `m` to `m'`, with the result `rc`. -/
structure MdbgSpec (read : Bool) (pid : Int32) (address buffer : UInt64) (size : ℕ) (m m' : MdbgController)
    (rc : ℤ) : Prop where
  /-- A success is a whole transfer, in chunks without error, after which both
      credentials were set and read back as they were before. -/
  complete : rc = 0 → ∃ calls : List ChunkCall, Tiles 0 size (calls.map ChunkCall.chunk) ∧
    (∀ c ∈ calls, c.error = 0) ∧
    m'.trace = m.trace ++ (reads m.authId m.caps ++ (takes ++ calls.map (event read pid address buffer) ++
      (gives m.authId m.caps ++ reads m.authId m.caps)))
  restored : rc = 0 → m'.authId = m.authId ∧ m'.caps = m.caps
  /-- If anything is set, the credentials are set to what they were, last. -/
  attempted : ∃ events, m'.trace = m.trace ++ events ∧ ((∀ e ∈ events, ¬e.IsSet) ∨
    ∃ pre post, events = pre ++ (gives m.authId m.caps ++ post) ∧ ∀ e ∈ post, ¬e.IsSet)
  /-- A read that fails leaves nothing in the buffer. -/
  zeroed : read = true → rc ≠ 0 → ∀ i < size, m'.buffer i = 0

/-- A transfer that ends before it takes the credentials. -/
theorem MdbgSpec.of_early {m m' : MdbgController} (events : List MdbgEvent)
    (htrace : m'.trace = m.trace ++ events) (hset : ∀ e ∈ events, ¬e.IsSet)
    (hzero : read = true → ∀ i < size, m'.buffer i = 0) :
    MdbgSpec read pid address buffer size m m' EIO where
  complete h := absurd h EIO_ne_zero
  restored h := absurd h EIO_ne_zero
  attempted := ⟨events, htrace, .inl hset⟩
  zeroed hread _ := hzero hread

theorem transferExact_spec (m : MdbgController) (a : MdbgAnswers)
    (h : ¬Refused read pid address buffer size) :
    MdbgSpec read pid address buffer size m (transferExact read pid address buffer size m a).1
      (transferExact read pid address buffer size m a).2 := by
  rw [transferExact, if_neg h]
  -- A read clears the buffer first, and changes nothing else.
  have hfields : (if read then m.zero size else m).authId = m.authId ∧
      (if read then m.zero size else m).caps = m.caps ∧ (if read then m.zero size else m).trace = m.trace ∧
      (read = true → ∀ i < size, (if read then m.zero size else m).buffer i = 0) := by
    split_ifs with hread
    · exact ⟨rfl, rfl, rfl, fun _ _ hi => zeroBytes_of_lt _ hi⟩
    · exact ⟨rfl, rfl, rfl, fun hr => absurd hr hread⟩
  generalize (if read then m.zero size else m) = m₀ at hfields ⊢
  obtain ⟨hauth₀, hcaps₀, htrace₀, hzero₀⟩ := hfields
  dsimp only
  by_cases hauth : m₀.authRead a.getAuth = 0
  · rw [if_pos hauth]
    exact .of_early [_] (congrArg (· ++ _) htrace₀) (by simp [MdbgEvent.IsSet]) hzero₀
  rw [if_neg hauth]
  have hread : m₀.authRead a.getAuth = m.authId := by
    rw [authRead] at hauth ⊢
    split_ifs at hauth ⊢
    · exact hauth₀
    · exact absurd rfl hauth
  have htrace₁ : ((m₀.getAuth a.getAuth).getCaps a.getCaps).trace =
      m.trace ++ [.getAuth m.authId, .getCaps ((m₀.getAuth a.getAuth).capsRead a.getCaps)] := by
    rw [← hread, ← htrace₀]
    exact List.append_assoc _ _ _
  cases hcaps : (m₀.getAuth a.getAuth).capsRead a.getCaps with
  | none => exact .of_early _ htrace₁ (by simp [MdbgEvent.IsSet]) hzero₀
  | some caps =>
    -- What is saved and given back in the end is what was there.
    have hcaps' : caps = m.caps := by
      rw [capsRead] at hcaps
      split_ifs at hcaps
      exact (Option.some.inj hcaps).symm.trans hcaps₀
    subst hcaps'
    have htrace₁ : ((m₀.getAuth a.getAuth).getCaps a.getCaps).trace = m.trace ++ reads m.authId m.caps := by
      rw [htrace₁, hcaps, reads]
    rw [hread]
    have hne : m.authId ≠ 0 := fun hz => hauth (hread.trans hz)
    obtain ⟨⟨pre, post, hpost, hset⟩, hzero, hwhole⟩ :=
      ((m₀.getAuth a.getAuth).getCaps a.getCaps).transferAndRestore_spec read pid address buffer
        size m.caps a hne
    exact {
      complete := fun hrc => by
        obtain ⟨calls, htiles, herror, htrace⟩ := (hwhole hrc).1
        exact ⟨calls, htiles, herror, by rw [htrace, htrace₁, List.append_assoc]⟩
      restored := fun hrc => (hwhole hrc).2
      attempted := ⟨_, hpost.trans (by rw [htrace₁, List.append_assoc]), .inr ⟨_ ++ pre, post, by
        rw [List.append_assoc], hset⟩⟩
      zeroed := hzero }

end MdbgController

/-- A checked read. -/
def shelluiMdbgReadExact (pid : Int32) (address destination : UInt64) (size : ℕ) (m : MdbgController)
    (a : MdbgAnswers) : MdbgController × ℤ :=
  m.transferExact true pid address destination size a

/-- The buffer is the argument, at its address. -/
def shelluiMdbgWriteByte (pid : Int32) (address : UInt64) (byte : UInt8) (byteAddress : UInt64)
    (m : MdbgController) (a : MdbgAnswers) : MdbgController × ℤ :=
  { m with buffer := fun _ => byte }.transferExact false pid address byteAddress 1 a

open MdbgController in
/-- A transfer is exact, and leaves no privilege behind. -/
theorem checked_transfers (size : ℕ) (transferChunk : ℕ → ℕ → σ → σ × DebuggerReadChunk)
    (s : σ) (pid : Int32)
    (address buffer : UInt64) (byte : UInt8) (m : MdbgController) (a : MdbgAnswers) :
    TransferSpec size (debuggerTransferExact size transferChunk s) ∧
      (¬Refused true pid address buffer size →
        MdbgSpec true pid address buffer size m (shelluiMdbgReadExact pid address buffer size m a).1
          (shelluiMdbgReadExact pid address buffer size m a).2) ∧
      (¬Refused false pid address buffer 1 →
        MdbgSpec false pid address buffer 1 m (shelluiMdbgWriteByte pid address byte buffer m a).1
          (shelluiMdbgWriteByte pid address byte buffer m a).2) := by
  refine ⟨debuggerTransferExact_spec size transferChunk s, fun h => transferExact_spec m a h, fun h => ?_⟩
  have hspec := transferExact_spec { m with buffer := fun _ => byte } a h
  exact { hspec with }

open MdbgController in
theorem checked_transfers_answered :
    let m : MdbgController := ⟨7, fun _ => 1, fun _ => 2, []⟩
    let answered : MdbgAnswer := ⟨0, 0, 0, 4, fun _ => some 0xc3⟩
    let a : MdbgAnswers := ⟨true, true, ⟨0, true⟩, ⟨0, fun _ => true⟩, fun _ => answered,
      ⟨0, true⟩, ⟨0, fun _ => true⟩,
      true, true⟩
    MdbgSpec true 58 0x800000000 0x700000000 16 m (shelluiMdbgReadExact 58 0x800000000 0x700000000 16 m a).1
        (shelluiMdbgReadExact 58 0x800000000 0x700000000 16 m a).2 ∧
      MdbgSpec false 58 0x800000000 0x700000000 1 m (shelluiMdbgWriteByte 58 0x800000000 0xc3 0x700000000 m a).1
        (shelluiMdbgWriteByte 58 0x800000000 0xc3 0x700000000 m a).2 := by
  intro m answered a
  obtain ⟨-, hread, hwrite⟩ := checked_transfers 16 (fun _ _ s => (s, {})) () 58 0x800000000
    0x700000000 0xc3 m a
  exact ⟨hread (by decide), hwrite (by decide)⟩

/-- Nothing is to be transferred: the request is refused, although no chunk is missing. -/
theorem empty_transfer_refused :
    let t := debuggerTransferExact 0 (fun _ _ s => (s, {})) ()
    ¬(t.rc = 0 ↔ Tiles 0 0 (t.accepted.map ChunkCall.chunk)) := by
  intro t h
  have hrc : t.rc = EINVAL := rfl
  exact absurd (hrc.symm.trans (h.2 (.nil 0))) (by decide)

end CommonFps
