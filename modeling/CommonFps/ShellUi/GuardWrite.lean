import CommonFps.Lib.Driven
import CommonFps.ShellUi.Kernel

/-!
# Writing the guard byte

One byte of protected code is written in a window of writable protection
(`shellui_guard_write.cpp`): the protection is read and saved, made writable,
checked, the byte is written, and the saved protection is restored and checked.
A state (`ShellUiGuardWriteState`) is kept across calls, so that a rollback
restores the protection that the first call saved.

* `guardWrites`: the calls that share a state, in any kernel;
* `Guarded`, `Restores`: the order of the requests in a call;
* `shelluiWriteGuardByte_spec`: what one call does;
* `guard_protection_kept`: the saved protection is never lost.
-/

namespace CommonFps

def EPERM : ℤ := 1
def EIO : ℤ := 5
def EFAULT : ℤ := 14
def EINVAL : ℤ := 22

theorem EIO_ne_zero : EIO ≠ 0 := by decide

def PROT_READ : ℕ := 1
def PROT_WRITE : ℕ := 2
def PROT_EXEC : ℕ := 4

/-- The state kept across calls; the saved protection is `none` where the code
    has `-1`. -/
structure ShellUiGuardWriteState where
  pid : Int32 := -1
  address : UInt64 := 0
  originalProtection : Option ℕ := none
  protectRc : ℤ := -1
  ptraceWriteRc : ℤ := -1
  mdbgWriteRc : ℤ := -1
  restoreProtectionRc : ℤ := -1
  protectionRestored : Bool := false
  deriving DecidableEq

/-- The outcomes of the calls to the kernel, in the order of the code. -/
structure GuardWriteAnswers where
  snapshot : Bool
  recover : MprotectAnswer
  recoverCheck : Bool
  setup : MprotectAnswer
  setupCheck : Bool
  ptrace : StoreAnswer
  mdbg : StoreAnswer
  restore : MprotectAnswer
  restoreCheck : Bool

/-- The writable protection, from the saved one. -/
def writableFlags (original : ℕ) : ℕ := original ||| PROT_READ ||| PROT_WRITE

namespace ShellUiGuardWriteState

/-- The saved protection is requested and, if the request succeeds, checked. -/
def restoreProtection (k : Kernel) (s : ShellUiGuardWriteState) (pid : Int32) (address : UInt64)
    (original : ℕ) (a : MprotectAnswer) (check : Bool) : Kernel × ShellUiGuardWriteState :=
  let k := k.mprotect pid address 1 original a
  if a.rc = 0 then
    (k.query pid address check,
      { s with
        restoreProtectionRc := a.rc
        protectionRestored := k.queryFlags pid address check = some original })
  else (k, { s with restoreProtectionRc := a.rc, protectionRestored := false })

/-- The current protection, after a failed query the saved one if it can be
    restored. -/
def readProtection (k : Kernel) (s : ShellUiGuardWriteState) (pid : Int32) (address : UInt64)
    (a : GuardWriteAnswers) : Kernel × ShellUiGuardWriteState × Option ℕ :=
  match k.queryFlags pid address a.snapshot, s.originalProtection with
  | some current, _ => (k.query pid address a.snapshot, s, some current)
  | none, none => (k.query pid address a.snapshot, s, none)
  | none, some original =>
    let restored := restoreProtection (k.query pid address a.snapshot) s pid address original
      a.recover a.recoverCheck
    (restored.1, restored.2, if restored.2.protectionRestored then some original else none)

/-- The result of `pt_copyin`, or its error. -/
def ptraceRc (a : StoreAnswer) : ℤ :=
  if a.rc = -1 then (if a.errno ≠ 0 then a.errno else EIO) else a.rc

/-- The byte is written through ptrace, else through the debugger. -/
def writeByte (k : Kernel) (s : ShellUiGuardWriteState) (pid : Int32) (address : UInt64) (byte : UInt8)
    (a : GuardWriteAnswers) : Kernel × ShellUiGuardWriteState × ℤ :=
  let k := k.store pid address [byte] a.ptrace
  let s := { s with ptraceWriteRc := ptraceRc a.ptrace }
  if s.ptraceWriteRc = EFAULT ∨ s.ptraceWriteRc = EPERM then
    (k.store pid address [byte] a.mdbg, { s with mdbgWriteRc := a.mdbg.rc }, a.mdbg.rc)
  else (k, s, s.ptraceWriteRc)

/-- The writable protection is requested, unless it is the current one. -/
def setupProtection (k : Kernel) (pid : Int32) (address : UInt64) (writable current : ℕ)
    (a : MprotectAnswer) : Kernel × ℤ :=
  if current = writable then (k, 0) else (k.mprotect pid address 1 writable a, a.rc)

/-- The byte is written, if the writable protection took effect. -/
def writeProtected (k : Kernel) (s : ShellUiGuardWriteState) (pid : Int32) (address : UInt64)
    (byte : UInt8) (original current : ℕ) (a : GuardWriteAnswers) :
    Kernel × ShellUiGuardWriteState × ℤ :=
  let (k, protectRc) := setupProtection k pid address (writableFlags original) current a.setup
  let s := { s with protectRc := protectRc }
  if protectRc = 0 then
    if k.queryFlags pid address a.setupCheck = some (writableFlags original) then
      writeByte (k.query pid address a.setupCheck) s pid address byte a
    else (k.query pid address a.setupCheck, s, EIO)
  else (k, s, EIO)

/-- The byte is written in a window of writable protection, opened from the
    current protection if it is the saved one, or open already. -/
def writeInWindow (k : Kernel) (s : ShellUiGuardWriteState) (pid : Int32) (address : UInt64)
    (byte : UInt8) (original current : ℕ) (a : GuardWriteAnswers) :
    Kernel × ShellUiGuardWriteState × ℤ :=
  if current ≠ original ∧ current ≠ writableFlags original then (k, s, EIO)
  else
    let written := writeProtected k s pid address byte original current a
    let restored := restoreProtection written.1 written.2.1 pid address original a.restore a.restoreCheck
    (restored.1, restored.2,
      if ¬restored.2.protectionRestored then -1001
      else if restored.2.protectRc ≠ 0 then -1000
      else written.2.2)

/-- The protection is saved, the first time. -/
def saveProtection (s : ShellUiGuardWriteState) (pid : Int32) (address : UInt64) (current : ℕ) :
    ShellUiGuardWriteState :=
  if s.originalProtection = none then
    { s with pid := pid, address := address, originalProtection := some current }
  else s

/-- A call for another process or address than the recorded ones, or for none. -/
def Refused (s : ShellUiGuardWriteState) (pid : Int32) (address : UInt64) : Prop :=
  pid ≤ 0 ∨ ¬shelluiUserAddress address ∨
    (s.originalProtection ≠ none ∧ (s.pid ≠ pid ∨ s.address ≠ address))

instance (s : ShellUiGuardWriteState) (pid : Int32) (address : UInt64) :
    Decidable (s.Refused pid address) := by
  unfold Refused
  infer_instance

/-- No result of a call yet. -/
def clearResults (s : ShellUiGuardWriteState) : ShellUiGuardWriteState :=
  { s with
    protectRc := -1, ptraceWriteRc := -1, mdbgWriteRc := -1, restoreProtectionRc := -1
    protectionRestored := false }

end ShellUiGuardWriteState

open ShellUiGuardWriteState in
/-- The byte of the guard is written, with its page writable for as long. -/
def shelluiWriteGuardByte (k : Kernel) (s : ShellUiGuardWriteState) (pid : Int32) (address : UInt64)
    (byte : UInt8) (a : GuardWriteAnswers) : Kernel × ShellUiGuardWriteState × ℤ :=
  if s.Refused pid address then (k, s, EINVAL)
  else
    let read := readProtection k s.clearResults pid address a
    match read.2.2 with
    | none => (read.1, read.2.1, EIO)
    | some current =>
      if current > 0xff ∨ current &&& PROT_EXEC = 0 then (read.1, read.2.1, EIO)
      else
        let s := read.2.1.saveProtection pid address current
        writeInWindow read.1 s pid address byte (s.originalProtection.getD current) current a

/-- A call, with the outcomes of its calls to the kernel. -/
structure GuardWriteCall where
  pid : Int32
  address : UInt64
  byte : UInt8
  answers : GuardWriteAnswers

/-- The calls that share a state, from a kernel: each one returns its result,
    and its trace. -/
def guardWrites (k₀ : Kernel) :
    Driven (Kernel × ShellUiGuardWriteState) GuardWriteCall (ℤ × List KernelCall) where
  init := (k₀, {})
  step := fun (k, s) c =>
    let (k, s, rc) := shelluiWriteGuardByte { k with trace := [] } s c.pid c.address c.byte c.answers
    ((k, s), rc, k.trace)

/-! ## The order of the requests -/

/-- Every write comes, with nothing but writes in between, after a query that
    returned the flags `w`; which comes, with nothing but requests of `w` in
    between, after the calls `reads`. -/
def Guarded (reads : List KernelCall) (pid : Int32) (address : UInt64) (w : ℕ) (l : List KernelCall) :
    Prop :=
  ∀ pre post p x bytes, l = pre ++ .write p x bytes :: post →
    ∃ setup pre', pre = reads ++ setup ++ .query pid address (some w) :: pre' ∧
      (∀ c ∈ setup, c = .mprotect pid address 1 w) ∧ ∀ c ∈ pre', ∃ p x bytes, c = .write p x bytes

/-- Every requested protection is `f`, or `f` is requested later. -/
def Restores (pid : Int32) (address : UInt64) (f : ℕ) (l : List KernelCall) : Prop :=
  ∀ pre post p x size w, l = pre ++ .mprotect p x size w :: post →
    w = f ∨ .mprotect pid address 1 f ∈ post

/-- The writes of `l` are those of the byte. -/
def WritesOnly (pid : Int32) (address : UInt64) (byte : UInt8) (l : List KernelCall) : Prop :=
  ∀ p x bytes, .write p x bytes ∈ l → p = pid ∧ x = address ∧ bytes = [byte]

variable {pid : Int32} {address : UInt64} {byte : UInt8} {w f : ℕ} {k : Kernel}
  {s : ShellUiGuardWriteState} {a : GuardWriteAnswers}

theorem guarded_of_not_write {reads l : List KernelCall} (h : ∀ p x bytes, .write p x bytes ∉ l) :
    Guarded reads pid address w l := by
  rintro pre post p x bytes rfl
  exact absurd (by simp) (h p x bytes)

/-- Writes that directly follow a query are guarded. -/
theorem guarded_of_query {reads setup writes after : List KernelCall}
    (hr : ∀ p x bytes, .write p x bytes ∉ reads ++ setup)
    (hs : ∀ c ∈ setup, c = .mprotect pid address 1 w)
    (hw : ∀ c ∈ writes, ∃ p x bytes, c = .write p x bytes)
    (ha : ∀ p x bytes, .write p x bytes ∉ after) :
    Guarded reads pid address w
      (reads ++ setup ++ .query pid address (some w) :: (writes ++ after)) := by
  intro pre post p x bytes h
  rcases List.append_eq_append_iff.1 h with ⟨mid, hpre, htail⟩ | ⟨mid, hmid, htail⟩
  · cases mid with
    | nil => simp at htail
    | cons c mid =>
      obtain ⟨rfl, hrest⟩ := List.cons.inj htail
      refine ⟨setup, mid, hpre, hs, fun c hc => ?_⟩
      rcases List.append_eq_append_iff.1 hrest with ⟨rest, _, hrest⟩ | ⟨rest, hrest, _⟩
      · exact absurd (hrest ▸ by simp) (ha p x bytes)
      · exact hw c (hrest ▸ List.mem_append_left _ hc)
  · cases mid with
    | nil => simp at htail
    | cons c mid =>
      obtain ⟨rfl, _⟩ := List.cons.inj htail
      exact absurd (hmid ▸ by simp) (hr p x bytes)

/-- A final request restores the protection, followed by nothing but queries. -/
theorem restores_of_last {before after : List KernelCall}
    (ha : ∀ p x size w, .mprotect p x size w ∉ after) :
    Restores pid address f (before ++ .mprotect pid address 1 f :: after) := by
  intro pre post p x size w h
  rcases List.append_eq_append_iff.1 h with ⟨mid, _, htail⟩ | ⟨mid, _, htail⟩
  · cases mid with
    | nil =>
      obtain ⟨hc, _⟩ := List.cons.inj htail
      cases hc
      exact .inl rfl
    | cons c mid =>
      obtain ⟨_, htail⟩ := List.cons.inj htail
      exact absurd (htail ▸ by simp) (ha p x size w)
  · cases mid with
    | nil =>
      obtain ⟨hc, _⟩ := List.cons.inj htail
      cases hc
      exact .inl rfl
    | cons c mid =>
      obtain ⟨_, rfl⟩ := List.cons.inj htail
      exact .inr (by simp)

/-- Requests of one protection only. -/
theorem restores_of_forall {l : List KernelCall} (h : ∀ p x size w, .mprotect p x size w ∈ l → w = f) :
    Restores pid address f l := by
  rintro pre post p x size w rfl
  exact .inl (h p x size w (by simp))

/-- Requests of the saved protection, and queries. -/
def RequestsOnly (pid : Int32) (address : UInt64) (f : ℕ) (l : List KernelCall) : Prop :=
  ∀ c ∈ l, (∃ flags, c = .query pid address flags) ∨ c = .mprotect pid address 1 f

theorem RequestsOnly.nil (pid : Int32) (address : UInt64) (f : ℕ) : RequestsOnly pid address f [] :=
  fun _ h => absurd h List.not_mem_nil

theorem RequestsOnly.not_write {l : List KernelCall} (h : RequestsOnly pid address f l) (p : Int32)
    (x : UInt64) (bytes : List UInt8) : .write p x bytes ∉ l := by
  intro hmem
  rcases h _ hmem with ⟨_, hc⟩ | hc <;> cases hc

theorem RequestsOnly.eq {l : List KernelCall} (h : RequestsOnly pid address f l) {p : Int32}
    {x size : UInt64} {w : ℕ} (hmem : .mprotect p x size w ∈ l) : w = f := by
  rcases h _ hmem with ⟨_, hc⟩ | hc
  · cases hc
  · cases hc
    rfl

/-! ## One call -/

namespace ShellUiGuardWriteState

/-- Restoring a protection changes only its own results in the state, and the
    check is of the protection itself. -/
theorem restoreProtection_spec (k : Kernel) (s : ShellUiGuardWriteState) (pid : Int32) (address : UInt64)
    (original : ℕ) (a : MprotectAnswer) (check : Bool) :
    let r := restoreProtection k s pid address original a check
    (∃ after, r.1.trace = k.trace ++ .mprotect pid address 1 original :: after ∧
      ∀ c ∈ after, ∃ flags, c = .query pid address flags) ∧
    r.1.memory = k.memory ∧
    r.2.pid = s.pid ∧ r.2.address = s.address ∧ r.2.originalProtection = s.originalProtection ∧
    (r.2.protectionRestored = true → r.1.protection pid address = original) := by
  rw [restoreProtection]
  dsimp only
  split_ifs with hrc
  · refine ⟨⟨[_], List.append_assoc _ _ _, fun c hc => ⟨_, List.mem_singleton.1 hc⟩⟩, rfl,
      rfl, rfl, rfl,
      fun h => ?_⟩
    exact Kernel.queryFlags_eq_some (of_decide_eq_true h)
  · exact ⟨⟨[], rfl, by simp⟩, rfl, rfl, rfl, rfl, fun h => h.elim⟩

/-- The current protection is read. If that fails, the saved one is restored, if
    there is one. -/
theorem readProtection_spec (k : Kernel) (s : ShellUiGuardWriteState) (pid : Int32) (address : UInt64)
    (a : GuardWriteAnswers) (hs : s.protectionRestored = false) :
    let r := readProtection k s pid address a
    ∃ flags l, r.1.trace = k.trace ++ .query pid address flags :: l ∧ r.1.memory = k.memory ∧
      ((s.originalProtection = none ∧ r.2.1 = s ∧ r.2.2 = flags ∧ r.1.protection = k.protection ∧
          (∀ f, flags = some f → k.protection pid address = f) ∧ l = []) ∨
        ∃ f, s.originalProtection = some f ∧ r.2.1.originalProtection = some f ∧ r.2.1.pid = s.pid ∧
          r.2.1.address = s.address ∧
          (r.2.1.protectionRestored = true → r.1.protection pid address = f) ∧
          RequestsOnly pid address f l) := by
  rw [readProtection]
  cases hq : k.queryFlags pid address a.snapshot with
  | some current =>
    refine ⟨some current, [], by simp [hq], rfl, ?_⟩
    cases ho : s.originalProtection with
    | none =>
      exact .inl ⟨rfl, rfl, rfl, rfl, fun f hf => Kernel.queryFlags_eq_some (hq.trans hf), rfl⟩
    | some f =>
      exact .inr ⟨f, rfl, rfl, rfl, rfl, fun h => absurd h (by simp [hs]), .nil _ _ _⟩
  | none =>
    cases ho : s.originalProtection with
    | none =>
      exact ⟨none, [], by simp [hq], rfl,
        .inl ⟨rfl, rfl, rfl, rfl, fun f hf => (Option.some_ne_none f hf.symm).elim, rfl⟩⟩
    | some original =>
      obtain ⟨⟨after, htrace, hafter⟩, hmem, hp, hx, horig, hreal⟩ :=
        restoreProtection_spec (k.query pid address a.snapshot) s pid address original a.recover
          a.recoverCheck
      refine ⟨none, .mprotect pid address 1 original :: after, ?_, hmem,
        .inr ⟨original, rfl, horig.trans ho, hp, hx, hreal, fun c hc => ?_⟩⟩
      · rw [htrace, Kernel.query_trace, hq, List.append_assoc, List.singleton_append]
      · exact (List.mem_cons.1 hc).elim .inr fun hc => .inl (hafter c hc)

/-- The byte is written once or twice. -/
theorem writeByte_spec (k : Kernel) (s : ShellUiGuardWriteState) (pid : Int32) (address : UInt64)
    (byte : UInt8) (a : GuardWriteAnswers) :
    let r := writeByte k s pid address byte a
    (∃ writes, r.1.trace = k.trace ++ writes ∧ ∀ c ∈ writes, c = .write pid address [byte]) ∧
    (∀ p x, r.1.memory p x = k.memory p x ∨ p = pid ∧ x = address ∧ r.1.memory p x = byte) ∧
    r.2.1.pid = s.pid ∧ r.2.1.address = s.address ∧
    r.2.1.originalProtection = s.originalProtection := by
  rw [writeByte]
  dsimp only
  split_ifs
  · refine ⟨⟨_, by rw [Kernel.store_trace, Kernel.store_trace, List.append_assoc], by simp⟩,
      fun p x => ?_, rfl, rfl, rfl⟩
    rcases (k.store pid address [byte] a.ptrace).store_byte pid address byte a.mdbg p x with h | h
    · rw [h]
      exact k.store_byte pid address byte a.ptrace p x
    · exact .inr h
  · exact ⟨⟨_, Kernel.store_trace _ _, by simp⟩, k.store_byte pid address byte a.ptrace, rfl, rfl, rfl⟩

/-- The setup requests nothing but the writable protection. -/
theorem setupProtection_spec (k : Kernel) (pid : Int32) (address : UInt64) (writable current : ℕ)
    (a : MprotectAnswer) :
    let r := setupProtection k pid address writable current a
    (∃ before, r.1.trace = k.trace ++ before ∧ ∀ c ∈ before, c = .mprotect pid address 1 writable) ∧
      r.1.memory = k.memory := by
  rw [setupProtection]
  split_ifs
  · exact ⟨⟨[], by simp, by simp⟩, rfl⟩
  · exact ⟨⟨[_], rfl, fun c hc => List.mem_singleton.1 hc⟩, rfl⟩

/-- The byte is written only after a query that returned the writable protection. -/
theorem writeProtected_spec (k : Kernel) (s : ShellUiGuardWriteState) (pid : Int32) (address : UInt64)
    (byte : UInt8) (original current : ℕ) (a : GuardWriteAnswers) :
    let r := writeProtected k s pid address byte original current a
    (∃ before l, r.1.trace = k.trace ++ (before ++ l) ∧
      (∀ c ∈ before, c = .mprotect pid address 1 (writableFlags original)) ∧
      (l = [] ∨ ∃ flags writes, l = .query pid address flags :: writes ∧
        (writes ≠ [] → flags = some (writableFlags original)) ∧
        ∀ c ∈ writes, c = .write pid address [byte])) ∧
    (∀ p x, r.1.memory p x = k.memory p x ∨ p = pid ∧ x = address ∧ r.1.memory p x = byte) ∧
    r.2.1.pid = s.pid ∧ r.2.1.address = s.address ∧
    r.2.1.originalProtection = s.originalProtection := by
  obtain ⟨⟨before, htrace, hbefore⟩, hmem⟩ :=
    setupProtection_spec k pid address (writableFlags original) current a.setup
  rw [writeProtected]
  generalize setupProtection k pid address (writableFlags original) current a.setup = setup at *
  obtain ⟨k₁, protectRc⟩ := setup
  dsimp only at *
  split_ifs with hrc hflags
  · obtain ⟨⟨writes, hw, hwrites⟩, hmem', hframe⟩ :=
      writeByte_spec (k₁.query pid address a.setupCheck)
      { s with protectRc := protectRc } pid address byte a
    refine ⟨⟨before, _, ?_, hbefore, .inr ⟨_, writes, rfl, fun _ => hflags, hwrites⟩⟩, ?_, hframe⟩
    · rw [hw, Kernel.query_trace, htrace, List.append_assoc, List.append_assoc]
      rfl
    · rw [← hmem]
      exact hmem'
  · exact ⟨⟨before, [_], by rw [Kernel.query_trace, htrace, List.append_assoc], hbefore,
      .inr ⟨_, [], rfl, fun h => absurd rfl h, by simp⟩⟩, fun p x => .inl (by rw [← hmem]; rfl),
        rfl, rfl, rfl⟩
  · exact ⟨⟨before, [], by rw [htrace, List.append_nil], hbefore, .inl rfl⟩,
      fun p x => .inl (by rw [← hmem]), rfl, rfl, rfl⟩

/-- What a call does to the kernel `k`, for the saved protection `f`: the byte is
    written in a window of writable protection, at most, which is then closed. The
    calls `reads` are those made to read the protection. -/
structure Effects (reads : List KernelCall) (k : Kernel) (pid : Int32) (address : UInt64)
    (byte : UInt8) (f : ℕ)
    (r : Kernel × ShellUiGuardWriteState × ℤ) : Prop where
  restored : r.2.1.protectionRestored = true → r.1.protection pid address = f
  success : r.2.2 = 0 → r.2.1.protectionRestored = true
  guarded : Guarded reads pid address (writableFlags f) r.1.trace
  restores : Restores pid address f r.1.trace
  writes : WritesOnly pid address byte r.1.trace
  memory : ∀ p x, r.1.memory p x = k.memory p x ∨ p = pid ∧ x = address ∧ r.1.memory p x = byte

/-- Before the window, only the saved protection is requested. -/
theorem Effects.of_requestsOnly {reads : List KernelCall} {flags : Option ℕ} {l : List KernelCall}
    {r : Kernel × ShellUiGuardWriteState × ℤ} (htrace : r.1.trace = .query pid address flags :: l)
    (hl : RequestsOnly pid address f l) (hmem : r.1.memory = k.memory)
    (hreal : r.2.1.protectionRestored = true → r.1.protection pid address = f) (hrc : r.2.2 ≠ 0) :
    Effects reads k pid address byte f r := by
  have hall : RequestsOnly pid address f r.1.trace := by
    rw [htrace]
    exact List.forall_mem_cons.2 ⟨.inl ⟨flags, rfl⟩, hl⟩
  exact ⟨hreal, fun h => absurd h hrc, guarded_of_not_write hall.not_write,
    restores_of_forall fun _ _ _ _ h => hall.eq h, fun p x bytes h => absurd h (hall.not_write p x bytes),
    fun p x => .inl (by rw [hmem])⟩

/-- The calls of a window: those before it, the setup, the check followed by the
    writes if it passed, and the restoration. -/
theorem window_trace {reads setup l last : List KernelCall}
    (hreads : ∀ p x bytes, .write p x bytes ∉ reads)
    (hsetup : ∀ c ∈ setup, c = .mprotect pid address 1 w)
    (hl : l = [] ∨ ∃ flags writes, l = .query pid address flags :: writes ∧
      (writes ≠ [] → flags = some w) ∧ ∀ c ∈ writes, c = .write pid address [byte])
    (hlast : ∀ c ∈ last, ∃ flags, c = .query pid address flags) :
    let trace := reads ++ (setup ++ l) ++ .mprotect pid address 1 f :: last
    Guarded reads pid address w trace ∧ WritesOnly pid address byte trace := by
  have hbefore : ∀ p x bytes, .write p x bytes ∉ reads ++ setup := by
    intro p x bytes hmem
    rcases List.mem_append.1 hmem with h | h
    · exact hreads p x bytes h
    · cases hsetup _ h
  have hend : ∀ p x bytes, .write p x bytes ∉ .mprotect pid address 1 f :: last := by
    intro p x bytes hmem
    obtain ⟨_, h⟩ := hlast _ ((List.mem_cons.1 hmem).resolve_left (by simp))
    cases h
  -- Without writes, there is nothing to show.
  have hnone : ∀ l', (∀ p x bytes, .write p x bytes ∉ l') →
      Guarded reads pid address w (reads ++ (setup ++ l') ++ .mprotect pid address 1 f :: last) ∧
      WritesOnly pid address byte (reads ++ (setup ++ l') ++ .mprotect pid address 1 f :: last) := by
    intro l' hl'
    have hnot : ∀ p x bytes, .write p x bytes ∉
        reads ++ (setup ++ l') ++ .mprotect pid address 1 f :: last := by
      intro p x bytes hmem
      rw [← List.append_assoc] at hmem
      rcases List.mem_append.1 hmem with h | h
      · exact (List.mem_append.1 h).elim (hbefore p x bytes) (hl' p x bytes)
      · exact hend p x bytes h
    exact ⟨guarded_of_not_write hnot, fun p x bytes h => absurd h (hnot p x bytes)⟩
  rcases hl with rfl | ⟨flags, writes, rfl, hflags, hwrites⟩
  · exact hnone [] fun _ _ _ => List.not_mem_nil
  by_cases hne : writes = []
  · subst hne
    exact hnone _ fun p x bytes h => by simp at h
  · obtain rfl := hflags hne
    have hshape : reads ++ (setup ++ .query pid address (some w) :: writes) ++
        .mprotect pid address 1 f :: last = reads ++ setup ++
          .query pid address (some w) :: (writes ++ .mprotect pid address 1 f :: last) := by
      simp
    dsimp only
    rw [hshape]
    refine ⟨guarded_of_query hbefore hsetup (fun c hc => ⟨_, _, _, hwrites c hc⟩) hend,
      fun p x bytes hmem => ?_⟩
    rcases List.mem_append.1 hmem with h | h
    · exact absurd h (hbefore p x bytes)
    · rcases List.mem_append.1 ((List.mem_cons.1 h).resolve_left (by simp)) with h | h
      · cases hwrites _ h
        exact ⟨rfl, rfl, rfl⟩
      · exact absurd h (hend p x bytes)

/-- The window is opened, if it is not yet, and closed. -/
theorem writeInWindow_spec (k : Kernel) (s : ShellUiGuardWriteState) (pid : Int32) (address : UInt64)
    (byte : UInt8) (f current : ℕ) (a : GuardWriteAnswers) {flags : Option ℕ} {after : List KernelCall}
    (htrace : k.trace = .query pid address flags :: after) (hafter : RequestsOnly pid address f after)
    (hreal : s.protectionRestored = true → k.protection pid address = f) :
    let r := writeInWindow k s pid address byte f current a
    r.2.1.pid = s.pid ∧ r.2.1.address = s.address ∧ r.2.1.originalProtection = s.originalProtection ∧
      (∃ l, r.1.trace = .query pid address flags :: l) ∧ Effects k.trace k pid address byte f r := by
  rw [writeInWindow]
  split_ifs with hc
  · exact ⟨rfl, rfl, rfl, ⟨after, htrace⟩, .of_requestsOnly htrace hafter rfl hreal EIO_ne_zero⟩
  · obtain ⟨⟨before, l, hw, hbefore, hl⟩, hmem, hp, hx, ho⟩ :=
      writeProtected_spec k s pid address byte f current a
    dsimp only
    generalize writeProtected k s pid address byte f current a = written at *
    obtain ⟨⟨last, hlast, hqueries⟩, hmem', hp', hx', ho', hreal'⟩ :=
      restoreProtection_spec written.1 written.2.1 pid address f a.restore a.restoreCheck
    generalize restoreProtection written.1 written.2.1 pid address f a.restore a.restoreCheck = restored at *
    -- Nothing is written before the window, so that every write is one of the window.
    have hreads : ∀ p x bytes, .write p x bytes ∉ k.trace := by
      rw [htrace]
      intro p x bytes hmem
      exact hafter.not_write p x bytes ((List.mem_cons.1 hmem).resolve_left (by simp))
    rw [hw] at hlast
    refine ⟨hp'.trans hp, hx'.trans hx, ho'.trans ho, ⟨_, by rw [hlast, htrace]; rfl⟩, hreal',
      fun hrc => ?_, ?_, ?_,
      ?_, fun p x => ?_⟩
    · by_contra hnot
      rw [if_pos hnot] at hrc
      cases hrc
    · rw [hlast]
      exact (window_trace hreads hbefore hl hqueries).1
    · rw [hlast]
      exact restores_of_last fun p x size w hmem => by
        obtain ⟨_, hq⟩ := hqueries _ hmem
        cases hq
    · rw [hlast]
      exact (window_trace hreads hbefore hl hqueries).2
    · rw [hmem']
      exact hmem p x

/-- What a call can do: it is refused; it saves no protection, and requests none;
    or, for a protection `f` saved by an earlier call or just read, it writes the
    byte in a window of writable protection, at most. -/
inductive CallOutcome (reads : List KernelCall) (k : Kernel) (s : ShellUiGuardWriteState)
    (pid : Int32) (address : UInt64)
    (byte : UInt8) (r : Kernel × ShellUiGuardWriteState × ℤ) : Prop
  | refused (h : s.Refused pid address) (hr : r = (k, s, EINVAL))
  | unsaved (h : ¬s.Refused pid address) (hs : s.originalProtection = none)
      (ho : r.2.1.originalProtection = none) (hr : r.2.1.protectionRestored = false)
      (hprot : r.1.protection = k.protection) (hmem : r.1.memory = k.memory)
      (htrace : ∃ flags, r.1.trace = [.query pid address flags]) (hrc : r.2.2 ≠ 0)
  | saved (f : ℕ) (h : ¬s.Refused pid address) (ho : r.2.1.originalProtection = some f)
      (hp : r.2.1.pid = pid) (hx : r.2.1.address = address)
      (hs : s.originalProtection = some f ∨ s.originalProtection = none ∧
        k.protection pid address = f ∧ ∃ l, r.1.trace = .query pid address (some f) :: l)
      (he : Effects reads k pid address byte f r)

theorem eq_of_not_refused (h : ¬s.Refused pid address) (hs : s.originalProtection = some f) :
    s.pid = pid ∧ s.address = address := by
  by_contra hne
  exact h (.inr (.inr ⟨by simp [hs], not_and_or.1 hne⟩))

/-- A call that stops after reading the protection. -/
theorem callOutcome_of_read (byte : UInt8) (a : GuardWriteAnswers) (hk : k.trace = [])
    (h : ¬s.Refused pid address) :
    let read := readProtection k s.clearResults pid address a
    CallOutcome read.1.trace k s pid address byte (read.1, read.2.1, EIO) := by
  obtain ⟨flags, l, htrace, hmem, hread⟩ := readProtection_spec k s.clearResults pid address a rfl
  generalize readProtection k s.clearResults pid address a = read at *
  rw [hk, List.nil_append] at htrace
  rcases hread with ⟨hs, hsame, _, hprot, _, rfl⟩ | ⟨f, hs, ho, hp, hx, hreal, hl⟩
  · have hrest : read.2.1.protectionRestored = false := by rw [hsame]; rfl
    have hnone : read.2.1.originalProtection = none := by rw [hsame]; exact hs
    exact .unsaved h hs hnone hrest hprot hmem ⟨flags, htrace⟩ EIO_ne_zero
  · have heq := eq_of_not_refused h hs
    exact .saved f h ho (hp.trans heq.1) (hx.trans heq.2) (.inl hs)
      (.of_requestsOnly htrace hl hmem hreal EIO_ne_zero)

/-- What one call does. -/
theorem shelluiWriteGuardByte_spec (k : Kernel) (s : ShellUiGuardWriteState) (pid : Int32)
    (address : UInt64) (byte : UInt8) (a : GuardWriteAnswers) (hk : k.trace = []) :
    CallOutcome (readProtection k s.clearResults pid address a).1.trace k s pid address byte
      (shelluiWriteGuardByte k s pid address byte a) := by
  rw [shelluiWriteGuardByte]
  by_cases h : s.Refused pid address
  · rw [if_pos h]
    exact .refused h rfl
  rw [if_neg h]
  have hstop := callOutcome_of_read byte a hk h
  obtain ⟨flags, l, htrace, hmem, hread⟩ := readProtection_spec k s.clearResults pid address a rfl
  generalize readProtection k s.clearResults pid address a = read at *
  rw [hk, List.nil_append] at htrace
  obtain ⟨k₁, s₁, flags₁⟩ := read
  dsimp only at *
  cases flags₁ with
  | none => exact hstop
  | some current =>
    dsimp only
    split_ifs with hbad
    · exact hstop
    · rcases hread with ⟨hs, rfl, rfl, _, hcurrent, rfl⟩ | ⟨f, hs, ho, hp, hx, hreal, hl⟩
      · -- The protection just read is saved.
        rw [saveProtection, if_pos hs]
        obtain ⟨hp, hx, ho, htr, he⟩ := writeInWindow_spec k₁
          { s.clearResults with pid := pid, address := address, originalProtection := some current } pid
          address byte current current a htrace (.nil _ _ _) (fun hr => by cases hr)
        exact .saved current h ho hp hx (.inr ⟨hs, hcurrent current rfl, htr⟩)
          ⟨he.restored, he.success, he.guarded, he.restores, he.writes, hmem ▸ he.memory⟩
      · -- The protection saved earlier stays, for this process and address.
        have heq := eq_of_not_refused h hs
        have hsave : saveProtection s₁ pid address current = s₁ := if_neg (by simp [ho])
        rw [hsave, ho]
        obtain ⟨hp', hx', ho', _, he⟩ :=
          writeInWindow_spec k₁ s₁ pid address byte f current a htrace hl hreal
        exact .saved f h (ho'.trans ho) (hp'.trans (hp.trans heq.1)) (hx'.trans (hx.trans heq.2)) (.inl hs)
          ⟨he.restored, he.success, he.guarded, he.restores, he.writes, hmem ▸ he.memory⟩

/-- The state saves nothing but the protection `prot` that was in force before
    any call; which still is, if nothing is saved or it is reported restored. -/
structure KeepsProtection (prot : Int32 → UInt64 → ℕ) (k : Kernel) (s : ShellUiGuardWriteState) :
    Prop where
  unsaved : s.originalProtection = none → k.protection = prot ∧ s.protectionRestored = false
  initial : ∀ f, s.originalProtection = some f → prot s.pid s.address = f
  restored : ∀ f, s.originalProtection = some f → s.protectionRestored = true →
    k.protection s.pid s.address = f

theorem keepsProtection_init (k : Kernel) : KeepsProtection k.protection k {} :=
  ⟨fun _ => ⟨rfl, rfl⟩, fun f h => (Option.some_ne_none f h.symm).elim,
    fun f h => (Option.some_ne_none f h.symm).elim⟩

/-- A call keeps the protection. -/
theorem KeepsProtection.call {prot : Int32 → UInt64 → ℕ} {reads : List KernelCall}
    {r : Kernel × ShellUiGuardWriteState × ℤ} (h : KeepsProtection prot k s)
    (hc : CallOutcome reads k s pid address byte r) : KeepsProtection prot r.1 r.2.1 := by
  cases hc with
  | refused _ hr =>
    rw [hr]
    exact h
  | unsaved _ hs ho hr hprot =>
    have hnone : ∀ f, r.2.1.originalProtection ≠ some f :=
      fun f h => Option.some_ne_none f (h.symm.trans ho)
    exact ⟨fun _ => ⟨hprot.trans (h.unsaved hs).1, hr⟩, fun f h => absurd h (hnone f),
      fun f h => absurd h (hnone f)⟩
  | saved f hnot ho hp hx hs he =>
    have hf : ∀ g, r.2.1.originalProtection = some g → g = f :=
      fun g hg => Option.some.inj (hg.symm.trans ho)
    refine ⟨fun h => (Option.some_ne_none f (ho.symm.trans h)).elim, fun g hg => ?_, fun g hg hr => ?_⟩
    · rw [hf g hg, hp, hx]
      rcases hs with hs | ⟨hs, hprot, _⟩
      · obtain ⟨h₁, h₂⟩ := eq_of_not_refused hnot hs
        rw [← h₁, ← h₂]
        exact h.initial f hs
      · rw [← (h.unsaved hs).1]
        exact hprot
    · rw [hf g hg, hp, hx]
      exact he.restored hr

end ShellUiGuardWriteState

/-! ## Runs -/

section Runs

open ShellUiGuardWriteState

variable (k₀ : Kernel) (ι : ℕ → GuardWriteCall)

/-- The kernel before the call `n`. -/
def guardKernel (n : ℕ) : Kernel := ((guardWrites k₀).state ι n).1

/-- The shared state before the call `n`. -/
def guardState (n : ℕ) : ShellUiGuardWriteState := ((guardWrites k₀).state ι n).2

/-- The result of the call `n`. -/
def guardRc (n : ℕ) : ℤ := ((guardWrites k₀).output ι n).1

/-- The trace of the call `n`. -/
def guardTrace (n : ℕ) : List KernelCall := ((guardWrites k₀).output ι n).2

/-- What the call `n` does to read the protection, before the setup. -/
def guardReads (n : ℕ) : List KernelCall :=
  (readProtection { guardKernel k₀ ι n with trace := [] } (guardState k₀ ι n).clearResults (ι n).pid
    (ι n).address (ι n).answers).1.trace

/-- The call `n` saves the protection `f`: nothing was saved before it, and it
    first read `f`. -/
structure SavedAt (n : ℕ) (f : ℕ) : Prop where
  before : (guardState k₀ ι n).originalProtection = none
  after : (guardState k₀ ι (n + 1)).originalProtection = some f
  read : ∃ l, guardTrace k₀ ι n = .query (ι n).pid (ι n).address (some f) :: l

variable {k₀ ι}

variable (k₀ ι) in

theorem guard_call (n : ℕ) : CallOutcome (guardReads k₀ ι n) { guardKernel k₀ ι n with trace := [] }
    (guardState k₀ ι n) (ι n).pid (ι n).address (ι n).byte
    (guardKernel k₀ ι (n + 1), guardState k₀ ι (n + 1), guardRc k₀ ι n) :=
  shelluiWriteGuardByte_spec _ _ _ _ _ (ι n).answers rfl

theorem guardTrace_eq (n : ℕ) : guardTrace k₀ ι n = (guardKernel k₀ ι (n + 1)).trace := rfl

variable (k₀ ι) in

theorem guard_keeps (n : ℕ) :
    KeepsProtection k₀.protection (guardKernel k₀ ι n) (guardState k₀ ι n) := by
  induction n with
  | zero => exact keepsProtection_init k₀
  | succ n ih =>
    have htrace : KeepsProtection k₀.protection { guardKernel k₀ ι n with trace := [] }
        (guardState k₀ ι n) := ⟨ih.unsaved, ih.initial, ih.restored⟩
    exact htrace.call (guard_call k₀ ι n)

/-- A saved protection was saved by an earlier call. -/
theorem exists_savedAt {n f : ℕ} (h : (guardState k₀ ι n).originalProtection = some f) :
    ∃ m < n, SavedAt k₀ ι m f := by
  induction n with
  | zero => exact (Option.some_ne_none f h.symm).elim
  | succ n ih =>
    have hlift : (guardState k₀ ι n).originalProtection = some f → ∃ m < n + 1, SavedAt k₀ ι m f := by
      intro hs
      obtain ⟨m, hm, hsaved⟩ := ih hs
      exact ⟨m, Nat.lt_succ_of_lt hm, hsaved⟩
    cases guard_call k₀ ι n with
    | refused _ hr =>
      have hs : guardState k₀ ι (n + 1) = guardState k₀ ι n := congrArg (fun r => r.2.1) hr
      exact hlift (hs ▸ h)
    | unsaved _ _ ho => exact (Option.some_ne_none f (h.symm.trans ho)).elim
    | saved g _ ho _ _ hs _ =>
      obtain rfl : f = g := Option.some.inj (h.symm.trans ho)
      rcases hs with hs | ⟨hs, _, hl⟩
      · exact hlift hs
      · exact ⟨n, Nat.lt_succ_self n, hs, ho, hl⟩

/-- A saved protection stays, with its process and address. -/
theorem guard_saved_mono {n m f : ℕ} (hnm : n ≤ m)
    (h : (guardState k₀ ι n).originalProtection = some f) :
    (guardState k₀ ι m).originalProtection = some f ∧
      (guardState k₀ ι m).pid = (guardState k₀ ι n).pid ∧
      (guardState k₀ ι m).address = (guardState k₀ ι n).address := by
  induction m, hnm using Nat.le_induction with
  | base => exact ⟨h, rfl, rfl⟩
  | succ m _ ih =>
    obtain ⟨ho, hp, hx⟩ := ih
    cases guard_call k₀ ι m with
    | refused _ hr =>
      have hs : guardState k₀ ι (m + 1) = guardState k₀ ι m := congrArg (fun r => r.2.1) hr
      rw [hs]
      exact ⟨ho, hp, hx⟩
    | unsaved _ hs => exact (Option.some_ne_none f (ho.symm.trans hs)).elim
    | saved g hnot ho' hp' hx' hs _ =>
      obtain ⟨h₁, h₂⟩ := eq_of_not_refused hnot ho
      rcases hs with hs | ⟨hs, _⟩
      · exact ⟨ho'.trans (hs.symm.trans ho), hp'.trans (h₁.symm.trans hp),
          hx'.trans (h₂.symm.trans hx)⟩
      · exact (Option.some_ne_none f (ho.symm.trans hs)).elim

/-- A call that does more than to query the protection has saved it. -/
theorem exists_effects {n : ℕ} {c : KernelCall} (hmem : c ∈ guardTrace k₀ ι n)
    (hc : ∀ p x flags, c ≠ .query p x flags) :
    ∃ f, (guardState k₀ ι (n + 1)).originalProtection = some f ∧
      Effects (guardReads k₀ ι n) { guardKernel k₀ ι n with trace := [] } (ι n).pid
        (ι n).address (ι n).byte f
        (guardKernel k₀ ι (n + 1), guardState k₀ ι (n + 1), guardRc k₀ ι n) := by
  rw [guardTrace_eq] at hmem
  cases guard_call k₀ ι n with
  | refused _ hr =>
    have htrace : (guardKernel k₀ ι (n + 1)).trace = [] := congrArg (fun r => r.1.trace) hr
    rw [htrace] at hmem
    exact absurd hmem List.not_mem_nil
  | unsaved _ _ _ _ _ _ htrace =>
    obtain ⟨flags, htrace⟩ := htrace
    dsimp only at htrace
    rw [htrace] at hmem
    exact absurd (List.mem_singleton.1 hmem) (hc _ _ _)
  | saved f _ ho _ _ _ he => exact ⟨f, ho, he⟩

/-- A success restores the protection. -/
theorem restored_of_success {n : ℕ} (hrc : guardRc k₀ ι n = 0) :
    (guardState k₀ ι (n + 1)).protectionRestored = true := by
  cases guard_call k₀ ι n with
  | refused _ hr =>
    have hEINVAL : guardRc k₀ ι n = EINVAL := congrArg (fun r => r.2.2) hr
    rw [hEINVAL] at hrc
    cases hrc
  | unsaved _ _ _ _ _ _ _ hne => exact absurd hrc hne
  | saved _ _ _ _ _ _ he => exact he.success hrc

/-- The original protection is never lost, in any sequence of calls, whatever the
    kernel does. -/
theorem guard_protection_kept (k₀ : Kernel) (ι : ℕ → GuardWriteCall) :
    -- A saved protection stays; it is the initial one, and the one first read by
    -- the call that saved it.
    (∀ n f, (guardState k₀ ι n).originalProtection = some f →
      k₀.protection (guardState k₀ ι n).pid (guardState k₀ ι n).address = f ∧
      (∃ m < n, SavedAt k₀ ι m f) ∧
      ∀ m, n ≤ m → (guardState k₀ ι m).originalProtection = some f) ∧
    -- It is in force whenever it is reported to be restored, as after a success.
    (∀ n, (guardState k₀ ι n).protectionRestored = true →
      ∃ f, (guardState k₀ ι n).originalProtection = some f ∧
        (guardKernel k₀ ι n).protection (guardState k₀ ι n).pid (guardState k₀ ι n).address = f) ∧
    (∀ n, guardRc k₀ ι n = 0 → (guardState k₀ ι (n + 1)).protectionRestored = true) ∧
    -- A write follows a query, made after the setup, that returned the writable
    -- protection.
    (∀ n p x bytes, .write p x bytes ∈ guardTrace k₀ ι n →
      ∃ f, (guardState k₀ ι (n + 1)).originalProtection = some f ∧
        p = (ι n).pid ∧ x = (ι n).address ∧ bytes = [(ι n).byte] ∧
        Guarded (guardReads k₀ ι n) (ι n).pid (ι n).address (writableFlags f) (guardTrace k₀ ι n)) ∧
    -- Any protection that a call requests is the saved one, or followed by a
    -- request of the saved one.
    (∀ n p x size w, .mprotect p x size w ∈ guardTrace k₀ ι n →
      ∃ f, (guardState k₀ ι (n + 1)).originalProtection = some f ∧
        Restores (ι n).pid (ι n).address f (guardTrace k₀ ι n)) ∧
    -- A call for another process or address is refused, and changes nothing.
    (∀ n, (guardState k₀ ι n).originalProtection ≠ none →
      ((guardState k₀ ι n).pid ≠ (ι n).pid ∨ (guardState k₀ ι n).address ≠ (ι n).address) →
      guardRc k₀ ι n = EINVAL ∧ guardTrace k₀ ι n = [] ∧
        guardState k₀ ι (n + 1) = guardState k₀ ι n ∧
        guardKernel k₀ ι (n + 1) = { guardKernel k₀ ι n with trace := [] }) := by
  refine ⟨fun n f h => ?_, fun n hr => ?_, fun n hrc => ?_, fun n p x bytes hmem => ?_,
    fun n p x size w hmem => ?_, fun n hs hne => ?_⟩
  · exact ⟨(guard_keeps k₀ ι n).initial f h, exists_savedAt h, fun m hnm => (guard_saved_mono hnm h).1⟩
  · have inv := guard_keeps k₀ ι n
    cases ho : (guardState k₀ ι n).originalProtection with
    | none => exact absurd ((inv.unsaved ho).2.symm.trans hr) (by decide)
    | some f => exact ⟨f, rfl, inv.restored f ho hr⟩
  · exact restored_of_success hrc
  · obtain ⟨f, ho, he⟩ := exists_effects hmem nofun
    obtain ⟨hp, hx, hb⟩ := he.writes p x bytes hmem
    exact ⟨f, ho, hp, hx, hb, he.guarded⟩
  · obtain ⟨f, ho, he⟩ := exists_effects hmem nofun
    exact ⟨f, ho, he.restores⟩
  · have hrefused : (guardState k₀ ι n).Refused (ι n).pid (ι n).address := .inr (.inr ⟨hs, hne⟩)
    cases guard_call k₀ ι n with
    | refused _ hr =>
      have hk : guardKernel k₀ ι (n + 1) = { guardKernel k₀ ι n with trace := [] } := congrArg Prod.fst hr
      exact ⟨congrArg (fun r => r.2.2) hr, congrArg Kernel.trace hk, congrArg (fun r => r.2.1) hr, hk⟩
    | unsaved h => exact absurd hrefused h
    | saved _ h => exact absurd hrefused h

end Runs

end CommonFps
