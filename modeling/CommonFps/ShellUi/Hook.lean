import CommonFps.Lib.Machine
import CommonFps.ShellUi.Boundaries
import CommonFps.ShellUi.Requests

/-!
# The hook

`Application.Update` as ShellUI executes it once the hook is installed. Its first
bytes jump to the hook of the renderer, which calls the original through the
address of its request: that of the trampoline, or the target of the hook that
was there before (`commonfps_shellui.cpp`). The processor is a parameter, of
which is assumed what `Machine.IsX86` says.

* `preparedMemory`: the memory of ShellUI when the request is published;
* `exists_block`: the displaced code is one of instructions that may be moved;
* `hook_keeps_update`: after the patch the method calls the hook, and the
  original does what the method did.
-/

namespace CommonFps

/-- The code at an address. -/
def codeAt (memory : Memory) (address : UInt64) : Code := fun i => memory (address + i.val.toUInt64)

/-- `memcpy` to an address. -/
def copyTo (memory : Memory) (address : UInt64) (bytes : List UInt8) : Memory :=
  fun x => bytes[(x - address).toNat]?.getD (memory x)

/-- The bytes of a prologue, as its decoder reads them. -/
def prologueBytes (expected : Code) (i : ℕ) : UInt8 := if h : i < 16 then expected ⟨i, h⟩ else 0

/-- The absolute jump that is encoded at an address. -/
def absoluteJumpTo (destination : UInt64) : List UInt8 :=
  (List.ofFn (encodeAbsoluteJump (fun _ => 0) destination)).take kAbsoluteJumpSize

/-- The code of `prepare_trampoline`: the displaced one, and a jump to what follows it. -/
def trampolineCode (expected : Code) (displaced : ℕ) (continuation : UInt64) : List UInt8 :=
  (List.ofFn expected).take displaced ++ absoluteJumpTo continuation

/-- The memory of ShellUI when the request of `install_update_hook` is published. A hook that is
    there already needs no trampoline. -/
def preparedMemory (env : RendererEnv) (memory : Memory) (expected : Code) : Memory :=
  if expected.HasJumpPrefix then memory
  else
    let displaced := nativePatchLength (prologueBytes expected)
    copyTo memory env.trampoline (trampolineCode expected displaced (env.update + displaced.toUInt64))

/-! ## Code -/

theorem readBytes_codeAt (memory : Memory) (address : UInt64) :
    readBytes memory address 16 = List.ofFn (codeAt memory address) := by
  refine List.ext_getElem (by simp) fun i h₁ h₂ => ?_
  rw [getElem_readBytes, List.getElem_ofFn]
  rfl

theorem patchBytes_prologueBytes (expected : Code) :
    patchBytes (prologueBytes expected) = List.ofFn expected := by
  refine List.ext_getElem (by simp [patchBytes, length_firstBytes, kAtomicPatchSize]) fun i h₁ h₂ => ?_
  have hi : i < 16 := by simpa using h₂
  rw [List.getElem_ofFn]
  simp [patchBytes, firstBytes, prologueBytes, hi, -List.ofFn_succ]

/-- A byte of the target of a jump. -/
theorem target_byte (c : Code) (i : Fin 8) :
    UInt8.ofNat (c.target.toNat / 256 ^ i.val) = c (i.natAdd 6 |>.castLE (by decide)) := by
  have hshift : UInt8.ofNat (c.target.toNat / 256 ^ i.val) =
      (c.target >>> (8 * i.val).toUInt64).toUInt8 := by
    refine UInt8.toNat_inj.1 ?_
    have hi : (8 * i.val).toUInt64.toNat % 64 = 8 * i.val := by
      rw [Nat.toUInt64_eq, UInt64.toNat_ofNat']
      omega
    rw [UInt8.toNat_ofNat', UInt64.toNat_toUInt8, UInt64.toNat_shiftRight, hi, Nat.shiftRight_eq_div_pow,
      Nat.pow_mul]
  rw [hshift, Code.target]
  refine UInt8.eq_of_toBitVec_eq (BitVec.eq_of_getLsbD_eq fun n hn => ?_)
  simp only [List.finRange, List.ofFn, Fin.foldr, Fin.foldr.loop, List.foldl, UInt64.toBitVec_or,
    UInt64.toBitVec_shiftLeft, UInt8.toBitVec_toUInt64, UInt64.toBitVec_toUInt8, UInt64.toBitVec_shiftRight]
  fin_cases i <;> simp [BitVec.getLsbD_setWidth, BitVec.getLsbD_ushiftRight, hn] <;> grind

/-- Code with the prefix of an absolute jump is one to its target. -/
theorem take_ofFn_of_hasJumpPrefix {c : Code} (h : c.HasJumpPrefix) :
    (List.ofFn c).take 14 = Machine.absoluteJump c.target := by
  refine List.ext_getElem (by simp) fun i h₁ h₂ => ?_
  have hi : i < 14 := by simpa using h₂
  rw [List.getElem_take, List.getElem_ofFn]
  simp only [Machine.absoluteJump]
  by_cases hlt : i < 6
  · rw [List.getElem_append_left (by simpa using hlt)]
    refine (h ⟨i, hlt⟩).trans ?_
    interval_cases i <;> rfl
  · have hbyte := target_byte c ⟨i - 6, by omega⟩
    have hindex : (⟨i, hi.trans (by decide)⟩ : Fin 16) =
        ((⟨i - 6, by omega⟩ : Fin 8).natAdd 6 |>.castLE (by decide)) := by
      ext
      simp
      omega
    rw [hindex, ← hbyte, List.getElem_append_right (by simpa using not_lt.1 hlt)]
    simp [numberBytes]

theorem absoluteJumpTo_eq (destination : UInt64) :
    absoluteJumpTo destination = Machine.absoluteJump destination := by
  have hprefix : (encodeAbsoluteJump (fun _ => 0) destination).HasJumpPrefix := fun i => dif_pos i.isLt
  rw [absoluteJumpTo, kAbsoluteJumpSize, take_ofFn_of_hasJumpPrefix hprefix, target_encodeAbsoluteJump]

theorem length_trampolineCode (expected : Code) {displaced : ℕ} (h : displaced ≤ 16)
    (continuation : UInt64) :
    (trampolineCode expected displaced continuation).length = displaced + 14 := by
  simp [trampolineCode, absoluteJumpTo_eq, -List.ofFn_succ, h]

/-- The first bytes of the code at an address. -/
theorem readBytes_take (memory : Memory) (address : UInt64) {n : ℕ} (hn : n ≤ 16) :
    readBytes memory address n = (List.ofFn (codeAt memory address)).take n := by
  rw [← readBytes_codeAt, ← List.drop_zero (l := readBytes memory address 16),
    take_drop_readBytes memory address (by omega)]
  simp

/-- What is copied to an address is there, and nothing else has changed. -/
theorem readBytes_copyTo (memory : Memory) (address : UInt64) {bytes : List UInt8}
    (h : bytes.length < 2 ^ 64) : readBytes (copyTo memory address bytes) address bytes.length = bytes := by
  refine List.ext_getElem (by simp) fun i h₁ h₂ => ?_
  have hi : (address + UInt64.ofNat i - address).toNat = i := by
    rw [add_sub_cancel_left, UInt64.toNat_ofNat']
    omega
  rw [getElem_readBytes, copyTo, hi, List.getElem?_eq_getElem h₂]
  rfl

/-! ## Runs -/

section Runs

variable {σ : Type*} {m : Machine σ} (hm : m.IsX86 fun op => isCopied op = true)
include hm

/-- Code that is an absolute jump leads to its target. -/
theorem step_of_hasJumpPrefix {memory : Memory} {address : UInt64}
    (h : (codeAt memory address).HasJumpPrefix)
    (hlow : (codeAt memory address).target < 0x0000800000000000) (s : σ) :
    m.step memory address s = some ((codeAt memory address).target, s) := by
  refine hm.jumps s ?_ hlow
  rw [readBytes_take memory address (by decide), take_ofFn_of_hasJumpPrefix h]

/-- The displaced code is one of instructions that may be moved, if the processor decodes
    them so. -/
theorem exists_block {code : ℕ → UInt8} (h : IsMovable code) {k : ℕ} (hk : DecodedAt code k) :
    ∃ block : List (List UInt8), block.flatten = (patchBytes code).take k ∧
      (∀ bytes ∈ block, ∃ effect, m.Moves bytes effect) ∧
      ∀ i < block.length, (block.take i).flatten.length < kAbsoluteJumpSize := by
  induction hk with
  | zero => exact ⟨[], by simp, nofun, nofun⟩
  | @next k hk hlt hne ih =>
    obtain ⟨block, hflatten, hmoves, hbefore⟩ := ih
    obtain ⟨op, hop⟩ := copies_of_decoded rfl hne
    have hdecoded := h.decoded k hk hlt
    generalize decodeRelocatableInstruction (fun i => code (k + i)) (kAtomicPatchSize - k) = d at *
    rw [← drop_patchBytes] at hop
    refine ⟨block ++ [((patchBytes code).drop k).take d], ?_, fun bytes hbytes => ?_, fun i hi => ?_⟩
    · rw [List.flatten_append, hflatten, List.flatten_singleton, List.take_add]
    · rcases List.mem_append.1 hbytes with hbytes | hbytes
      · exact hmoves bytes hbytes
      · rw [List.mem_singleton.1 hbytes]
        exact hm.moves hop.opcode hop.copied hdecoded
    · rw [List.length_append, List.length_singleton] at hi
      rw [List.take_append_of_le_length (Nat.le_of_lt_succ hi)]
      rcases Nat.lt_succ_iff_lt_or_eq.1 hi with hi | rfl
      · exact hbefore i hi
      · rw [List.take_length, hflatten]
        exact (List.length_take_le k _).trans_lt hlt

/-- The original, called through the trampoline, does what the displaced code did. -/
theorem run_trampoline {memory patched : Memory} {update trampoline : UInt64} {n : ℕ}
    (hn : nativePatchLength (prologueBytes (codeAt memory update)) = n) (hne : n ≠ 0)
    (hmovable : IsMovable (prologueBytes (codeAt memory update)))
    (hcopy : readBytes patched trampoline (n + 14) =
      trampolineCode (codeAt memory update) n (update + n.toUInt64))
    (hlow : update + n.toUInt64 < 0x0000800000000000) :
    ∃ k, ∀ s, m.run patched (k + 1) (trampoline, s) = m.run memory k (update, s) ∧
      ∀ i < k, ∀ place t, m.run memory i (update, s) = some (place, t) →
        (place - update).toNat < kAbsoluteJumpSize := by
  have hne' : nativePatchLength (prologueBytes (codeAt memory update)) ≠ 0 := hn ▸ hne
  have hle : n ≤ 16 := hn ▸ (nativePatchLength_range hne').2
  have hdecoded : DecodedAt (prologueBytes (codeAt memory update)) n :=
    hn ▸ nativePatchLengthFrom_decodedAt .zero hne'
  obtain ⟨block, hflatten, hmoves, hbefore⟩ := exists_block hm hmovable hdecoded
  rw [patchBytes_prologueBytes] at hflatten
  have hlength : block.flatten.length = n := by
    rw [hflatten, List.length_take, List.length_ofFn]
    exact min_eq_left hle
  have hread : readBytes memory update block.flatten.length = block.flatten := by
    rw [hlength, readBytes_take memory update hle, hflatten]
  refine ⟨block.length, fun s => ⟨hm.run_moved hmoves hread ?_ (hlength ▸ hlow) s,
    fun i hi place t hrun => ?_⟩⟩
  · rw [hlength, hcopy, trampolineCode, absoluteJumpTo_eq, hflatten, Nat.toUInt64_eq]
  · have hlt := hbefore i hi
    rw [Machine.place_of_run hmoves hread hi.le hrun, add_sub_cancel_left, UInt64.toNat_ofNat']
    exact (Nat.mod_le _ _).trans_lt hlt

/-- A run that goes on in code that did not change. -/
theorem run_kept {memory patched : Memory} {here there : UInt64} {first last : ℕ} {s : σ}
    (h : m.run patched last (there, s) = m.run memory first (here, s)) {n : ℕ}
    (hsame : ∀ i < n, ∀ place t, m.run memory (first + i) (here, s) = some (place, t) →
      readBytes patched place 15 = readBytes memory place 15) :
    m.run patched (last + n) (there, s) = m.run memory (first + n) (here, s) := by
  rw [Machine.run_add, Machine.run_add, h]
  refine Option.bind_congr fun c hc => Machine.run_congr fun i hi place t ht => ?_
  refine hm.fetch t (hsame i hi place t ?_)
  rw [Machine.run_add, hc, Option.bind_some, ht]

end Runs

/-! ## The patch -/

section Patch

variable {env : RendererEnv} {confirmed : Bool} {expected : Code} {r : ShellUiHookRequest}

/-- The two kinds of requests of `install_update_hook`. -/
theorem prepareUpdate_cases (h : prepareUpdate env confirmed expected = .request r) :
    expected.HasJumpPrefix ∧ shelluiUserAddress expected.target ∧
        r = updateRequest env expected kAbsoluteJumpSize expected.target ∨
      ¬expected.HasJumpPrefix ∧ nativePatchLength (prologueBytes expected) ≠ 0 ∧
        r = updateRequest env expected (nativePatchLength (prologueBytes expected)) env.trampoline := by
  rw [prepareUpdate] at h
  dsimp only at h
  by_cases heta : expected.HasJumpPrefix
  · rw [if_pos heta] at h
    split_ifs at h with _ _ hbad
    obtain ⟨huser, -⟩ := not_or.1 hbad
    exact .inl ⟨heta, not_not.1 huser, (UpdatePlan.request.inj h).symm⟩
  · rw [if_neg heta] at h
    split_ifs at h with hbad
    exact .inr ⟨heta, (not_or.1 hbad).1, (UpdatePlan.request.inj h).symm⟩

/-- The request wants a jump to the hook, and is no probe. -/
theorem desired_prepareUpdate (h : prepareUpdate env confirmed expected = .request r) :
    r.desired.HasJumpPrefix ∧ r.desired.target = env.hook ∧ ¬shelluiHookRequestIsProbe r ∧
      r.methodAddress = env.update := by
  have hrequest {size : ℕ} (original : UInt64) (hsize : 14 ≤ size ∧ size ≤ 16) :
      let r := updateRequest env expected size original
      r.desired.HasJumpPrefix ∧ r.desired.target = env.hook ∧ ¬shelluiHookRequestIsProbe r ∧
        r.methodAddress = env.update := by
    intro r
    obtain ⟨hstart, htarget, -, -⟩ := desired_updateRequest env expected original hsize.1
    refine ⟨hstart, htarget, fun hprobe => ?_, rfl⟩
    have hdisplaced := toNat_displacedSize env expected original hsize.2
    rw [shelluiHookRequestIsProbe] at hprobe
    rw [hprobe] at hdisplaced
    exact absurd (hdisplaced ▸ hsize.1) (by decide)
  rcases prepareUpdate_cases h with ⟨-, -, rfl⟩ | ⟨-, hne, rfl⟩
  · exact hrequest _ ⟨le_rfl, by decide⟩
  · exact hrequest _ (nativePatchLength_range hne)

/-- The trampoline is outside of the code of the method. -/
def TrampolineApart (env : RendererEnv) : Prop :=
  ∀ i < kAtomicPatchSize + kAbsoluteJumpSize, ∀ j : Fin 16,
    env.trampoline + UInt64.ofNat i ≠ env.update + j.val.toUInt64

instance (env : RendererEnv) : Decidable (TrampolineApart env) := by
  rw [TrampolineApart]
  infer_instance

/-- A patch that succeeds leaves the trampoline as the renderer has prepared it. -/
theorem readBytes_trampoline {memory : Memory} {k k' : Kernel} {sdk : UInt32} {pid : Int32} {n : ℕ}
    (heta : ¬expected.HasJumpPrefix) (hn : nativePatchLength (prologueBytes expected) = n) (hne : n ≠ 0)
    (hk : k.memory pid = preparedMemory env memory expected)
    (hmethod : r.methodAddress = env.update) (hapart : TrampolineApart env)
    (hchanges : HookPlan.Changes ⟨sdk, pid, r⟩ k k') :
    readBytes (k'.memory pid) env.trampoline (n + 14) =
      trampolineCode expected n (env.update + n.toUInt64) := by
  have hle : n ≤ 16 := hn ▸ (nativePatchLength_range (hn ▸ hne : nativePatchLength _ ≠ 0)).2
  have hlength := length_trampolineCode expected hle (env.update + n.toUInt64)
  have hprepared := readBytes_copyTo memory env.trampoline (hlength.trans_lt (by omega))
  rw [hlength] at hprepared
  rw [preparedMemory, if_neg heta] at hk
  dsimp only at hk
  rw [hn] at hk
  rw [← hprepared, ← hk]
  refine List.ext_getElem (by simp) fun i h₁ h₂ => ?_
  rw [getElem_readBytes, getElem_readBytes]
  refine (hchanges.memory pid _).resolve_right fun ⟨_, j, _, hx, _⟩ => ?_
  refine hapart i ?_ j (hmethod ▸ hx)
  rw [length_readBytes] at h₁
  exact h₁.trans_le (by simp [kAtomicPatchSize, kAbsoluteJumpSize]; omega)

/-- What is prepared and patched is the trampoline and the code of the method. -/
theorem eq_of_patched {memory : Memory} {k k' : Kernel} {sdk : UInt32} {pid : Int32}
    (hk : k.memory pid = preparedMemory env memory expected) (hmethod : r.methodAddress = env.update)
    (hchanges : HookPlan.Changes ⟨sdk, pid, r⟩ k k') {x : UInt64} (hne : k'.memory pid x ≠ memory x) :
    (∃ i : Fin 16, x = env.update + i.val.toUInt64) ∨
      ¬expected.HasJumpPrefix ∧ (x - env.trampoline).toNat < kAtomicPatchSize + kAbsoluteJumpSize := by
  rcases hchanges.memory pid x with hsame | ⟨-, i, -, hx, -⟩
  · rw [hsame, hk, preparedMemory] at hne
    by_cases heta : expected.HasJumpPrefix
    · rw [if_pos heta] at hne
      exact absurd rfl hne
    · rw [if_neg heta] at hne
      refine .inr ⟨heta, ?_⟩
      by_contra hout
      refine hne ?_
      rw [copyTo, List.getElem?_eq_none, Option.getD_none]
      refine le_trans ?_ (not_lt.1 hout)
      simp [trampolineCode, absoluteJumpTo_eq, kAtomicPatchSize, kAbsoluteJumpSize, -List.ofFn_succ]
  · exact .inl ⟨i, hmethod ▸ hx⟩

variable {σ : Type*} {m : Machine σ}

/-- After a patch that the controller reports as a success the method is a jump to the hook, with
    the state that it was called in. The original that the hook calls does what the method did: first
    the displaced instructions, if the processor decodes them as the renderer does, and then those
    that follow, up to one whose bytes have changed. -/
theorem hook_keeps_update (hm : m.IsX86 fun op => isCopied op = true) {memory : Memory}
    {k : Kernel} {sdk : UInt32} {a : PollAnswers}
    (hplan : prepareUpdate env confirmed (codeAt memory env.update) = .request r)
    (hmovable : ¬(codeAt memory env.update).HasJumpPrefix →
      IsMovable (prologueBytes (codeAt memory env.update)))
    (hk : k.memory env.pid = preparedMemory env memory (codeAt memory env.update))
    (hapart : TrampolineApart env) (hhook : shelluiUserAddress env.hook)
    (huser : ∀ i ≤ kAtomicPatchSize, shelluiUserAddress (env.update + i.toUInt64))
    (hsuccess : (pollAndApply k sdk env.pid r a).2.status = .success) :
    let patched := (pollAndApply k sdk env.pid r a).1.memory env.pid
    (∀ x, patched x ≠ memory x → (∃ i : Fin 16, x = env.update + i.val.toUInt64) ∨
      ¬(codeAt memory env.update).HasJumpPrefix ∧
        (x - env.trampoline).toNat < kAtomicPatchSize + kAbsoluteJumpSize) ∧
    (∀ s, m.step patched env.update s = some (env.hook, s)) ∧
    ∃ first last, ∀ s,
      (∀ i < first, ∀ place t, m.run memory i (env.update, s) = some (place, t) →
        (place - env.update).toNat < kAbsoluteJumpSize) ∧
      ∀ n, (∀ i < n, ∀ place t, m.run memory (first + i) (env.update, s) = some (place, t) →
          readBytes patched place 15 = readBytes memory place 15) →
        m.run patched (last + n) (r.originalCallAddress, s) = m.run memory (first + n) (env.update, s) := by
  intro patched
  obtain ⟨hreported, -⟩ := pollAndApply_spec k sdk env.pid r a
  obtain ⟨hjump, htarget, hprobe, hmethod⟩ := desired_prepareUpdate hplan
  have hdesired : codeAt patched env.update = r.desired :=
    hmethod ▸ (hreported.success hsuccess).2.2 (decide_eq_false hprobe)
  refine ⟨fun x hne => eq_of_patched hk hmethod hreported.changes hne, fun s => ?_, ?_⟩
  · rw [← hdesired] at hjump htarget
    rw [step_of_hasJumpPrefix hm hjump (htarget ▸ hhook.2), htarget]
  · suffices hstart : ∃ first last, ∀ s,
        m.run patched last (r.originalCallAddress, s) = m.run memory first (env.update, s) ∧
          ∀ i < first, ∀ place t, m.run memory i (env.update, s) = some (place, t) →
            (place - env.update).toNat < kAbsoluteJumpSize by
      obtain ⟨first, last, hstart⟩ := hstart
      exact ⟨first, last, fun s => ⟨(hstart s).2, fun n hsame => run_kept hm (hstart s).1 hsame⟩⟩
    rcases prepareUpdate_cases hplan with ⟨heta, hprevious, hr⟩ | ⟨heta, hne, hr⟩
    · -- The method was a jump already, to the original.
      refine ⟨1, 0, fun s => ⟨?_, fun i hi place t hrun => ?_⟩⟩
      · rw [Machine.run_one, step_of_hasJumpPrefix hm heta hprevious.2, hr]
        rfl
      · obtain rfl := Nat.lt_one_iff.1 hi
        obtain ⟨rfl, -⟩ := Prod.mk.inj (Option.some.inj hrun)
        rw [sub_self]
        decide
    · have hcopy := readBytes_trampoline heta rfl hne hk hmethod hapart hreported.changes
      obtain ⟨count, hcount⟩ := run_trampoline hm rfl hne (hmovable heta) hcopy
        (huser _ (nativePatchLength_range hne).2).2
      refine ⟨count, count + 1, fun s => ?_⟩
      rw [hr]
      exact hcount s

end Patch

/-! ### A processor with a stack -/

/-- Registers, and a stack. -/
structure StackState where
  registers : UInt8 → UInt64
  stack : List UInt64

/-- What an instruction of one byte does. -/
def stackEffect (opcode : UInt8) (s : StackState) : Option StackState :=
  if opcode = 0x90 then some s
  else if 0x50 ≤ opcode ∧ opcode ≤ 0x57 then
    some { s with stack := s.registers (opcode &&& 7) :: s.stack }
  else if 0x58 ≤ opcode ∧ opcode ≤ 0x5f then
    match s.stack with
    | [] => none
    | x :: stack => some ⟨Function.update s.registers (opcode &&& 7) x, stack⟩
  else none

/-- A step of a processor that knows `nop`, `push`, `pop`, `ret` and the absolute jump, from the first
    bytes of the instruction. -/
def stackStep (first : List UInt8) (target : UInt64) (opcode : UInt8) (place : UInt64) (s : StackState) :
    Option (UInt64 × StackState) :=
  if first = [0xff, 0x25, 0, 0, 0, 0] then
    if target < 0x0000800000000000 then some (target, s) else none
  else if opcode = 0xc3 then
    match s.stack with
    | [] => none
    | x :: stack => some (x, ⟨s.registers, stack⟩)
  else (stackEffect opcode s).map fun s => (place + 1, s)

/-- A machine with registers and a stack. -/
def stackMachine : Machine StackState where
  step code place := stackStep (readBytes code place 6) (readU64 code (place + 6)) (code place) place

/-- The instructions that the processor knows, and those whose prefix it does not, have one byte. -/
theorem length_of_stackEffect {b : UInt8} {rest : List UInt8} {n : ℕ} {s t : StackState}
    (h : stackEffect b s = some t) (hi : X86.decode (b :: rest) = some ⟨n, false, false⟩) : n = 1 := by
  have hb : b = 0x90 ∨ 0x50 ≤ b ∧ b ≤ 0x5f := by
    rw [stackEffect] at h
    grind
  have hshort : ∀ b : UInt8, b = 0x90 ∨ 0x50 ≤ b ∧ b ≤ 0x5f → X86.isPrefix b = false ∧
    b ≠ 0x0f ∧
      (X86.Opcode.one b).hasModrm = false ∧ (X86.Opcode.one b).immediate 0 = .bytes 0 ∧
        isCopied (.one b) = true := by decide +kernel
  obtain ⟨hfirst, hone, hmodrm, himmediate, hcopied⟩ := hshort b hb
  have hplain : X86.prefixes (b :: rest) = [] := by simp [X86.prefixes, hfirst]
  have hop : X86.opcodeAt (b :: rest) (X86.prefixes (b :: rest)).length = some (.one b) := by
    simp [hplain, X86.opcodeAt, hone]
  obtain ⟨-, hinstruction⟩ := (X86.decode_eq_some hop).1 hi
  have hn : (X86.instruction (b :: rest) (.one b)).length = n := congrArg (·.length) hinstruction
  rw [← hn, X86.instruction, X86.headSize, hmodrm, hplain, X86.immediate, immediate_eq hcopied,
    himmediate]
  rfl

/-- An instruction that is copied is neither a jump to an address nor a return. -/
theorem first_of_isCopied {b : UInt8} {rest : List UInt8} {op : X86.Opcode} {n : ℕ}
    (hop : X86.opcodeAt (b :: rest) (X86.prefixes (b :: rest)).length = some op) (h : isCopied op = true)
    (hi : X86.decode (b :: rest) = some ⟨n, false, false⟩) : 1 ≤ n ∧ b ≠ 0xff ∧ b ≠ 0xc3 := by
  obtain ⟨-, hinstruction⟩ := (X86.decode_eq_some hop).1 hi
  have hn : (X86.instruction (b :: rest) op).length = n := congrArg (·.length) hinstruction
  have hsize : 1 ≤ op.size := by cases op <;> simp [X86.Opcode.size]
  refine ⟨?_, ?_, ?_⟩
  · rw [← hn, X86.instruction, X86.headSize]
    dsimp only
    omega
  · rintro rfl
    rw [show X86.prefixes (0xff :: rest) = [] from rfl] at hop
    cases hop
    cases h
  · rintro rfl
    rw [show X86.prefixes (0xc3 :: rest) = [] from rfl] at hop
    cases hop
    cases h

theorem isX86_stackMachine : stackMachine.IsX86 fun op => isCopied op = true := by
  refine ⟨fun {code code' place} s h => ?_, fun {bytes op n} hop hplain h => ?_,
    fun {code place target} s h hlow => ?_⟩
  · have hpart {i k : ℕ} (hik : i + k ≤ 15) :
        readBytes code (place + UInt64.ofNat i) k = readBytes code' (place + UInt64.ofNat i) k := by
      rw [← take_drop_readBytes code place hik, ← take_drop_readBytes code' place hik, h]
    have hfirst := hpart (i := 0) (k := 6) (by omega)
    have htarget := hpart (i := 6) (k := 8) (by omega)
    have hopcode := hpart (i := 0) (k := 1) (by omega)
    simp only [readBytes, List.range_one, List.map_singleton, List.singleton_inj] at hopcode
    change readBytes code (place + 6) 8 = readBytes code' (place + 6) 8 at htarget
    rw [show UInt64.ofNat 0 = 0 from rfl, add_zero] at hfirst hopcode
    rw [add_zero] at hopcode
    have hvalue : readU64 code (place + 6) = readU64 code' (place + 6) := by rw [readU64, readU64, htarget]
    simp only [stackMachine, hfirst, hvalue, hopcode]
  · cases bytes with
    | nil => simp [X86.opcodeAt] at hop
    | cons b rest =>
      obtain ⟨hone, hff, hc3⟩ := first_of_isCopied hop hplain h
      refine ⟨stackEffect b, fun code place s hread => ?_⟩
      obtain ⟨k, rfl⟩ := Nat.exists_eq_add_of_le' hone
      have hb : code place = b := by
        have hhead := congrArg List.head? hread
        simpa [readBytes, List.range_succ_eq_map] using hhead
      have hjump : readBytes code place 6 ≠ [0xff, 0x25, 0, 0, 0, 0] := by
        intro heq
        have hhead := congrArg List.head? heq
        exact hff (hb.symm.trans (by simpa [readBytes, List.range_succ_eq_map] using hhead))
      simp only [stackMachine]
      rw [stackStep, if_neg hjump, hb, if_neg hc3]
      cases heffect : stackEffect b s with
      | none => rfl
      | some t =>
        rw [length_of_stackEffect heffect h]
        rfl
  · have hsplit := (readBytes_add code place 6 8).symm.trans h
    obtain ⟨hfirst, htarget⟩ := List.append_inj hsplit (by simp)
    change readBytes code (place + 6) 8 = _ at htarget
    have hvalue : readU64 code (place + 6) = target := by
      rw [readU64, htarget, leValue_numberBytes]
      refine UInt64.toNat.inj ?_
      have := target.toNat_lt
      rw [UInt64.toNat_ofNat', Nat.mod_mod_of_dvd _ (by decide), Nat.mod_eq_of_lt (by omega)]
    simp only [stackMachine, hvalue]
    rw [stackStep, if_pos hfirst, if_pos hlow]

/-- A method of two `push`es, twelve `nop`s, two `pop`s and a `ret`. -/
def savingMemory : Memory :=
  copyTo (fun _ => 0) chainedEnv.update ([0x55, 0x53] ++ List.replicate 12 0x90 ++ [0x5b, 0x5d, 0xc3])

/-- The code of a method that first saves registers. -/
def savingCode : Code := codeAt savingMemory chainedEnv.update

/-- The memory of a ShellUI that has prepared its trampoline. -/
def savingKernel : Kernel where
  memory _ := preparedMemory chainedEnv savingMemory savingCode
  protection _ _ := 0
  attached _ := false
  authId := 5
  trace := []

/-- All calls for a patch succeed. -/
def patchAnswers : PollAnswers :=
  let read : ReadAnswers := ⟨⟨0, kPtraceAuthId⟩, ⟨0, kPtraceAuthId⟩⟩
  let set : MprotectAnswer := ⟨0, fun _ => true⟩
  let store : StoreAnswer := ⟨0, 0, fun _ => true, kPtraceAuthId⟩
  let write : WriteAnswers := ⟨⟨true, set, true, set, true, store, store, set, true⟩, set,
    store, store, set⟩
  { getAuth := true
    setAuth := ⟨0, true⟩
    attach := true
    read
    write
    verify := read
    rollback := write
    rollbackCheck := read
    detach := true
    restoreAuth := ⟨0, true⟩
    checkAuth := true }

theorem nativePatchLength_saving : nativePatchLength (prologueBytes savingCode) = 14 := by decide +kernel

/-- The request to patch this method. -/
def savingRequest : ShellUiHookRequest := updateRequest chainedEnv savingCode 14 chainedEnv.trampoline

theorem prepareUpdate_saving : prepareUpdate chainedEnv false savingCode = .request savingRequest := by
  have hlength : nativePatchLength (fun i => if h : i < 16 then savingCode ⟨i, h⟩ else 0) = 14 :=
    nativePatchLength_saving
  rw [prepareUpdate, if_neg (by decide)]
  dsimp only
  rw [hlength, if_neg (by decide)]
  rfl

/-- Each of its instructions that are displaced has one byte. -/
theorem isMovable_saving : IsMovable (prologueBytes savingCode) := by
  have hdecode : ∀ k < 14, X86.decode ((patchBytes (prologueBytes savingCode)).drop k) =
      some ⟨1, false, false⟩ := by decide +kernel
  have hlength : ∀ k < 14, decodeRelocatableInstruction (fun i => prologueBytes savingCode (k + i))
      (kAtomicPatchSize - k) = 1 := by decide +kernel
  have hboundary : ∀ k ≤ 14, X86.Boundary (patchBytes (prologueBytes savingCode)) k := by
    intro k hk
    induction k with
    | zero => exact .zero
    | succ k ih => exact (ih (Nat.le_of_lt hk)).next (hdecode k hk)
  refine ⟨nativePatchLength_saving ▸ hboundary 14 le_rfl, fun k _ hk => ?_⟩
  rw [hlength k hk]
  exact hdecode k hk

/-- The method is hooked, and its original saves the registers in the trampoline. -/
theorem hook_keeps_update_saving :
    let patched := (pollAndApply savingKernel 0x04030000 chainedEnv.pid savingRequest patchAnswers).1.memory
      chainedEnv.pid
    (∀ s, stackMachine.step patched chainedEnv.update s = some (chainedEnv.hook, s)) ∧
      ∃ first last, ∀ s,
        (∀ i < first, ∀ place t, stackMachine.run savingMemory i (chainedEnv.update, s) =
          some (place, t) →
          (place - chainedEnv.update).toNat < kAbsoluteJumpSize) ∧
        ∀ n, (∀ i < n, ∀ place t,
            stackMachine.run savingMemory (first + i) (chainedEnv.update, s) = some (place, t) →
              readBytes patched place 15 = readBytes savingMemory place 15) →
          stackMachine.run patched (last + n) (savingRequest.originalCallAddress, s) =
            stackMachine.run savingMemory (first + n) (chainedEnv.update, s) := by
  have hsuccess :
      (pollAndApply savingKernel 0x04030000 chainedEnv.pid savingRequest patchAnswers).2.status = .success := by
    decide +kernel
  have hk : savingKernel.memory chainedEnv.pid = preparedMemory chainedEnv savingMemory savingCode := rfl
  have h := hook_keeps_update isX86_stackMachine prepareUpdate_saving (fun _ => isMovable_saving) hk
    (by decide +kernel) (by decide) (by decide) hsuccess
  exact h.2

end CommonFps
