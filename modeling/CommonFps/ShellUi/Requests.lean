import CommonFps.ShellUi.Renderer
import CommonFps.ShellUi.Transaction

/-!
# The requests on both sides

The renderer makes its requests, and the controller validates them, in code that
was written twice: here the two are compared, and what a valid request says is
compared with what the controller then writes.

* `RequestKind`: the three kinds of requests, each with its validator; a request
  is valid for one kind at most, the one that the controller takes it for
  (`routed_of_accepts`);
* `requests_accepted`: a request of the renderer is valid for its own kind;
* `stored_suffices`: the bytes that the controller writes suffice, as a valid
  request changes no others.
-/

namespace CommonFps

/-- The three kinds of requests. -/
inductive RequestKind
  | probe
  | mainThreadGuard
  | hook
  deriving DecidableEq

/-- The validator of a kind of requests. -/
def RequestKind.Accepts : RequestKind → ShellUiHookRequest → Int32 → Prop
  | .probe => shelluiHookProbeRequestIsValid
  | .mainThreadGuard => shelluiMainThreadGuardRequestIsValid
  | .hook => shelluiHookRequestIsValid

namespace HookPlan

variable (p : HookPlan)

/-- The kind that the controller takes a request for. -/
def routed : RequestKind :=
  if p.probe then .probe else if p.mainThreadGuard then .mainThreadGuard else .hook

/-- The controller validates a request as one of the kind it takes it for. -/
theorem valid_iff : p.valid = true ↔ p.routed.Accepts p.request p.pid := by
  rw [valid, routed]
  split_ifs <;> exact decide_eq_true_iff

variable {p}

/-- A request that is valid for a kind is taken for one of that kind. -/
theorem routed_of_accepts {kind : RequestKind} (h : kind.Accepts p.request p.pid) : p.routed = kind := by
  rw [routed, probe, mainThreadGuard]
  cases kind with
  | probe => exact if_pos (decide_eq_true h.2.2.1)
  | mainThreadGuard =>
    have hguard : shelluiHookRequestIsMainThreadGuard p.request := h.2.1
    have hprobe : ¬shelluiHookRequestIsProbe p.request := by
      rw [shelluiHookRequestIsProbe, hguard.1]
      decide
    rw [if_neg (by simpa using hprobe), if_pos (decide_eq_true hguard)]
  | hook =>
    obtain ⟨_, _, _, _, _, _, hprobe, hguard, _⟩ := h
    rw [if_neg (by simpa using hprobe), if_neg (by simpa using hguard)]

/-- A request is valid for one kind at most. -/
theorem accepts_unique {kind other : RequestKind} (h : kind.Accepts p.request p.pid)
    (h' : other.Accepts p.request p.pid) : kind = other :=
  (routed_of_accepts h).symm.trans (routed_of_accepts h')

end HookPlan

/-! ## The requests of the renderer -/

/-- All sixteen bytes at an address are the user's. -/
def CodeAddress (address : UInt64) : Prop := ∀ i : Fin 16, shelluiUserAddress (address + i.val.toUInt64)

instance (address : UInt64) : Decidable (CodeAddress address) := by
  rw [CodeAddress]
  infer_instance

theorem CodeAddress.first {address : UInt64} (h : CodeAddress address) : shelluiUserAddress address := by
  simpa using h 0

theorem CodeAddress.last {address : UInt64} (h : CodeAddress address) :
    shelluiUserAddress (address + 15) := h 15

/-- A request for a process, with addresses of the user's and its own checksum,
    has what all valid requests have. -/
theorem common_of_checksum {r : ShellUiHookRequest} {pid : Int32} (hpid : 0 < pid) (hp : r.pid = pid)
    (hn : r.nonce ≠ 0) (hm : CodeAddress r.methodAddress) (hh : shelluiUserAddress r.hookAddress)
    (hmagic : r.magic = kShellUiHookRequestMagic) (hversion : r.version = kShellUiHookProtocolVersion)
    (hsize : r.patchSize = kShellUiHookPatchSize) (hsum : r.checksum = shelluiHookRequestChecksum r) :
    shelluiHookRequestCommonIsValid r pid :=
  ⟨hmagic, hversion, hp, hpid, hn, hm.first, hm.last, hh, hsize, hsum⟩

/-- The nonces are never zero. -/
theorem nonce_ne_zero (nonce : UInt64) : (if nonce = 0 then 1 else nonce) ≠ 0 := by
  split_ifs with h
  · decide
  · exact h

section Published

variable {env : RendererEnv} {method : UInt64}

theorem common_publishHookRequest (hpid : 0 < env.pid) (hm : CodeAddress method) (hh : CodeAddress env.hook)
    (expected desired : Code) (size : ℕ) (original : UInt64) :
    shelluiHookRequestCommonIsValid (publishHookRequest env method expected desired size original) env.pid := by
  rw [publishHookRequest]
  exact common_of_checksum hpid rfl (nonce_ne_zero _) hm hh.first rfl rfl rfl (checksum_with_checksum _ _).symm

theorem accepts_probeRequest (hpid : 0 < env.pid) (hm : CodeAddress method) (hh : CodeAddress env.hook) :
    RequestKind.probe.Accepts (probeRequest env method) env.pid :=
  ⟨common_publishHookRequest hpid hm hh _ _ _ _, rfl, rfl, fun _ => ⟨rfl, rfl⟩⟩

theorem accepts_guardRequest (hpid : 0 < env.pid) (hg : CodeAddress env.guard) {expected : Code}
    (hret : expected 0 ≠ 0xc3) :
    RequestKind.mainThreadGuard.Accepts (publishMainThreadGuardRequest env expected) env.pid := by
  refine ⟨?_, ⟨rfl, rfl, rfl⟩, hret, Function.update_self 0 _ expected,
    fun i hi => Function.update_of_ne hi _ expected⟩
  rw [publishMainThreadGuardRequest]
  exact common_of_checksum hpid rfl (nonce_ne_zero _) hg hg.first rfl rfl rfl (checksum_with_checksum _ _).symm

/-! ### The absolute jump -/

/-- The bytes of a word are those of an absolute jump to it. -/
theorem target_encodeAbsoluteJump (code : Code) (destination : UInt64) :
    (encodeAbsoluteJump code destination).target = destination := by
  have hbyte : ∀ i : Fin 8, encodeAbsoluteJump code destination (i.natAdd 6 |>.castLE (by decide)) =
      (destination >>> (8 * i.val).toUInt64).toUInt8 := by
    intro i
    have hge : ¬6 + i.val < 6 := by omega
    have hlt : 6 + i.val < kAbsoluteJumpSize := Nat.add_lt_add_left i.isLt 6
    simp only [encodeAbsoluteJump, Fin.val_castLE, Fin.val_natAdd, dif_neg hge, if_pos hlt,
      Nat.add_sub_cancel_left]
  rw [Code.target]
  simp only [hbyte]
  -- The bit `n` of the word is in its byte `n / 8`.
  refine UInt64.eq_of_toBitVec_eq (BitVec.eq_of_getLsbD_eq fun n hn => ?_)
  simp only [List.finRange, List.ofFn, Fin.foldr, Fin.foldr.loop, List.foldl, UInt64.toBitVec_or,
    UInt64.toBitVec_shiftLeft, UInt8.toBitVec_toUInt64, UInt64.toBitVec_toUInt8, UInt64.toBitVec_shiftRight]
  simp [BitVec.getLsbD_setWidth, BitVec.getLsbD_ushiftRight, hn]
  grind

variable (env) in

/-- The code that a hook request wants: an absolute jump to the hook, then
    no-operations, then the code as it was. -/
theorem desired_updateRequest (expected : Code) {size : ℕ} (original : UInt64) (hsize : 14 ≤ size) :
    let desired := (updateRequest env expected size original).desired
    desired.HasJumpPrefix ∧ desired.target = env.hook ∧
      (∀ i : Fin 16, 14 ≤ i.val → i.val < size → desired i = 0x90) ∧
      ∀ i : Fin 16, size ≤ i.val → desired i = expected i := by
  intro desired
  have hjump : ∀ i : Fin 16, i.val < 14 → desired i = encodeAbsoluteJump expected env.hook i :=
    fun i hi => if_neg fun h => absurd h.1 (not_le.2 hi)
  refine ⟨fun i => ?_, ?_, fun i hi hlt => if_pos ⟨hi, hlt⟩, fun i hi => ?_⟩
  · rw [hjump _ (i.isLt.trans (by decide))]
    exact dif_pos i.isLt
  · rw [← target_encodeAbsoluteJump expected env.hook, Code.target, Code.target]
    congr 1
    funext acc i
    rw [hjump _ (Nat.add_lt_add_left i.isLt 6)]
  · have hjump : desired i = encodeAbsoluteJump expected env.hook i := if_neg fun h => absurd h.2 (not_lt.2 hi)
    have hge : ¬i.val < 6 := by omega
    have hge' : ¬i.val < kAbsoluteJumpSize := not_lt.2 (hsize.trans hi)
    rw [hjump, encodeAbsoluteJump, dif_neg hge, if_neg hge']

variable (env) in

/-- The size of a request is the one that was decoded. -/
theorem toNat_displacedSize (expected : Code) {size : ℕ} (original : UInt64) (hsize : size ≤ 16) :
    (updateRequest env expected size original).displacedSize.toNat = size :=
  UInt32.toNat_ofNat_of_lt' (hsize.trans_lt (by decide))

/-- A hook request displaces at least its jump; so it is valid as soon as the
    original code can be called, and the chain of another hook calls that one. -/
theorem accepts_updateRequest (hpid : 0 < env.pid) (hm : CodeAddress env.update) (hh : CodeAddress env.hook)
    {expected : Code} {size : ℕ} {original : UInt64} (hsize : 14 ≤ size ∧ size ≤ 16)
    (horiginal : shelluiUserAddress original) (hne : original ≠ env.hook ∧ original ≠ env.update)
    (heta : expected.HasJumpPrefix → size = 14 ∧ expected.target = original) :
    RequestKind.hook.Accepts (updateRequest env expected size original) env.pid := by
  have hdisplaced := toNat_displacedSize env expected original hsize.2
  obtain ⟨hstart, htarget, hnop, htail⟩ := desired_updateRequest env expected original hsize.1
  refine ⟨common_publishHookRequest hpid hm hh _ _ _ _, horiginal, hne.1, hne.2, ?_, ?_, ?_, ?_, hstart,
    htarget, ?_, ?_⟩
  · exact UInt32.le_iff_toNat_le.2 (hsize.1.trans_eq hdisplaced.symm)
  · exact UInt32.le_iff_toNat_le.2 (hdisplaced.trans_le hsize.2)
  · intro hprobe
    rw [shelluiHookRequestIsProbe] at hprobe
    rw [hprobe] at hdisplaced
    exact absurd (hdisplaced ▸ hsize.1) (by decide)
  · intro hguard
    rw [hguard.1] at hdisplaced
    exact absurd (hdisplaced ▸ hsize.1) (by decide)
  · split_ifs with h
    · obtain ⟨hsize, htarget⟩ := heta h
      exact ⟨congrArg Nat.toUInt32 hsize, htarget⟩
    · rw [hdisplaced]
      exact hnop
  · rw [hdisplaced]
    exact htail

/-- A request of `install_update_hook` passed the checks of the latter. -/
theorem accepts_prepareUpdate (hpid : 0 < env.pid) (hm : CodeAddress env.update) (hh : CodeAddress env.hook)
    (htrampoline : shelluiUserAddress env.trampoline)
    (hne : env.trampoline ≠ env.hook ∧ env.trampoline ≠ env.update) {confirmed : Bool} {expected : Code}
    {r : ShellUiHookRequest} (h : prepareUpdate env confirmed expected = .request r) :
    RequestKind.hook.Accepts r env.pid := by
  rw [prepareUpdate] at h
  dsimp only at h
  by_cases heta : expected.HasJumpPrefix
  · rw [if_pos heta] at h
    by_cases hown : expected.target = env.hook
    · rw [if_pos hown] at h
      split_ifs at h
    · rw [if_neg hown] at h
      split_ifs at h with hbad
      obtain ⟨huser, hother⟩ := not_or.1 hbad
      obtain rfl := UpdatePlan.request.inj h
      exact accepts_updateRequest hpid hm hh ⟨le_rfl, by decide⟩ (not_not.1 huser) ⟨hown, hother⟩
        fun _ => ⟨rfl, rfl⟩
  · rw [if_neg heta] at h
    split_ifs at h with hbad
    obtain ⟨hdecoded, _⟩ := not_or.1 hbad
    obtain rfl := UpdatePlan.request.inj h
    exact accepts_updateRequest hpid hm hh (nativePatchLength_range hdecoded) htrampoline hne
      fun h => absurd h heta

end Published

/-- The controller takes a request for one of the kind, and its validator accepts
    it; the other validators do not. -/
def AcceptedOnlyAs (kind : RequestKind) (sdk : UInt32) (pid : Int32) (r : ShellUiHookRequest) : Prop :=
  let p : HookPlan := ⟨sdk, pid, r⟩
  p.routed = kind ∧ p.valid = true ∧ kind.Accepts r pid ∧ ∀ other, other ≠ kind →
    ¬other.Accepts r pid

theorem RequestKind.Accepts.only {kind : RequestKind} {r : ShellUiHookRequest} {pid : Int32}
    (h : kind.Accepts r pid) (sdk : UInt32) : AcceptedOnlyAs kind sdk pid r := by
  have hrouted : HookPlan.routed ⟨sdk, pid, r⟩ = kind := HookPlan.routed_of_accepts h
  refine ⟨hrouted, ?_, h, fun other hne h' => ?_⟩
  · rw [HookPlan.valid_iff, hrouted]
    exact h
  · exact hne (HookPlan.accepts_unique (p := ⟨sdk, pid, r⟩) h' h)

/-- Every request that the renderer publishes is a valid one of its kind, and of
    no other one. -/
theorem requests_accepted (env : RendererEnv) (sdk : UInt32) (hpid : 0 < env.pid) (hhook : CodeAddress env.hook)
    (htrampoline : shelluiUserAddress env.trampoline) (hne : env.trampoline ≠ env.hook)
    (hne' : env.trampoline ≠ env.update) (expected : Code) :
    (∀ method, CodeAddress method → AcceptedOnlyAs .probe sdk env.pid (probeRequest env method)) ∧
    (CodeAddress env.guard → expected 0 ≠ 0xc3 →
      AcceptedOnlyAs .mainThreadGuard sdk env.pid (publishMainThreadGuardRequest env expected)) ∧
    (CodeAddress env.update → ∀ confirmed r, prepareUpdate env confirmed expected = .request r →
      AcceptedOnlyAs .hook sdk env.pid r) :=
  ⟨fun _ hm => (accepts_probeRequest hpid hm hhook).only sdk,
    fun hg hret => (accepts_guardRequest hpid hg hret).only sdk,
    fun hm _ _ h => (accepts_prepareUpdate hpid hm hhook htrampoline ⟨hne, hne'⟩ h).only sdk⟩

/-- A renderer, and a method that the hook of another one has been put on. -/
def chainedEnv : RendererEnv := ⟨77, 0x10000, 0x20000, 0x30000, 0x40000⟩

/-- A method that another payload has patched: a jump through the address after it. -/
def chainedCode : Code := ![0xff, 0x25, 0, 0, 0, 0, 0, 0x50, 0x34, 0x12, 0, 0, 0, 0, 0x90, 0x90]

/-- The chain of that hook. -/
theorem requests_accepted_chained :
    AcceptedOnlyAs .probe 0x09600000 77 (probeRequest chainedEnv 0x10000) ∧
      AcceptedOnlyAs .mainThreadGuard 0x09600000 77 (publishMainThreadGuardRequest chainedEnv chainedCode) ∧
      AcceptedOnlyAs .hook 0x09600000 77 (updateRequest chainedEnv chainedCode 14 0x12345000) := by
  obtain ⟨hprobe, hguard, hupdate⟩ := requests_accepted chainedEnv 0x09600000 (by decide) (by decide)
    (by decide) (by decide) (by decide) chainedCode
  refine ⟨hprobe 0x10000 (by decide), hguard (by decide) (by decide), hupdate (by decide) false _ ?_⟩
  rw [prepareUpdate, if_pos (by decide)]
  rfl

/-! ## The bytes that are written -/

namespace HookPlan

variable {p : HookPlan}

/-- A valid patch wants no change of the bytes that the controller does not
    write. -/
theorem desired_eq_expected (hvalid : p.valid = true) (hprobe : p.probe = false) {i : Fin 16}
    (hi : ¬p.InRange i) : p.request.desired i = p.request.expected i := by
  rw [InRange, offset, size] at hi
  rw [valid, if_neg (by simp [hprobe])] at hvalid
  by_cases hguard : p.mainThreadGuard = true
  · rw [if_pos hguard] at hvalid hi
    obtain ⟨_, _, _, _, hsame⟩ := of_decide_eq_true hvalid
    refine hsame i fun h => hi ?_
    rw [if_pos hguard, h]
    exact ⟨le_rfl, Nat.zero_lt_one⟩
  · rw [if_neg hguard] at hvalid hi
    rw [if_neg hguard] at hi
    obtain ⟨_, _, _, _, _, _, _, _, hstart, _, hkind, htail⟩ := of_decide_eq_true hvalid
    by_cases heta : p.etaChain = true
    · rw [if_pos heta, if_pos heta] at hi
      have hchain : shelluiHookIsEtaChain p.request := by
        rw [etaChain] at heta
        exact of_decide_eq_true (Bool.and_eq_true_iff.1 heta).2
      rw [if_pos hchain] at hkind
      -- Before the target both are the same jump, after it the code as it was.
      by_cases hlt : i.val < 6
      · exact (hstart ⟨i.val, hlt⟩).trans (hchain ⟨i.val, hlt⟩).symm
      · refine htail i ?_
        rw [hkind.1]
        have : ¬i.val < 6 + 8 := fun h => hi ⟨not_lt.1 hlt, h⟩
        exact not_lt.1 this
    · rw [if_neg heta, if_neg heta] at hi
      exact absurd ⟨Nat.zero_le _, i.isLt⟩ hi

/-- The distance of a byte of the target from the first one that is written. -/
theorem sub_offset (p : HookPlan) (i : Fin 16) :
    (p.request.methodAddress + i.val.toUInt64 - (p.request.methodAddress + p.offset.toUInt64)).toNat =
      (i.val + (2 ^ 64 - p.offset)) % 2 ^ 64 := by
  have hoffset : p.offset ≤ 16 := (Nat.le_add_right _ _).trans p.offset_add_size
  rw [add_sub_add_left_eq_sub]
  simp only [UInt64.toNat_sub, Nat.toUInt64_eq, UInt64.toNat_ofNat']
  omega

/-- A store of all bytes of the range. -/
theorem code_store (k : Kernel) (c : Code) {a : StoreAnswer} (ha : ∀ j < p.size, a.stored j = true)
    (i : Fin 16) :
    (k.store p.pid (p.request.methodAddress + p.offset.toUInt64) (p.chunk c) a).code p.pid
        p.request.methodAddress i =
      if p.offset ≤ i.val ∧ i.val < p.offset + p.size then c i else k.code p.pid
          p.request.methodAddress i := by
  have hlen := p.offset_add_size
  have hdist := p.sub_offset i
  rw [Kernel.code, Kernel.store]
  dsimp only
  rw [if_pos rfl, Kernel.storedAt, hdist]
  split_ifs with hstored hin hin
  · have hval : (i.val + (2 ^ 64 - p.offset)) % 2 ^ 64 = i.val - p.offset := by omega
    have hlt : i.val - p.offset < (p.chunk c).length := by
      rw [p.chunk_length]
      omega
    rw [hval, List.getElem?_eq_getElem hlt, Option.getD_some]
    obtain ⟨j, _, hj, hc⟩ := of_chunk_getElem? (List.getElem?_eq_getElem hlt)
    rw [← hc]
    congr 1
    ext
    omega
  · have hnone : (p.chunk c)[(i.val + (2 ^ 64 - p.offset)) % 2 ^ 64]? = none := by
      refine List.getElem?_eq_none ?_
      rw [p.chunk_length]
      omega
    rw [hnone]
    rfl
  · exact absurd (ha _ (by omega)) hstored
  · rfl

/-- The bytes that the controller writes suffice: written from the desired code
    they make a target that is as expected the desired one; and from the expected
    code they undo whatever changed in the range. -/
theorem stored_suffices (p : HookPlan) (hvalid : p.valid = true) (hprobe : p.probe = false) (k : Kernel)
    (a : StoreAnswer) (ha : ∀ j < p.size, a.stored j = true) :
    let target := fun k : Kernel => k.code p.pid p.request.methodAddress
    let store := fun c => k.store p.pid (p.request.methodAddress + p.offset.toUInt64) (p.chunk c) a
    (target k = p.request.expected → target (store p.request.desired) = p.request.desired) ∧
      ((∀ i, ¬p.InRange i → target k i = p.request.expected i) →
        target (store p.request.expected) = p.request.expected) := by
  intro target store
  refine ⟨fun h => ?_, fun h => ?_⟩
  · funext i
    refine (code_store k _ ha i).trans ?_
    split_ifs with hin
    · rfl
    · exact (congrFun h i).trans (desired_eq_expected hvalid hprobe hin).symm
  · funext i
    refine (code_store k _ ha i).trans ?_
    split_ifs with hin
    · rfl
    · exact h i hin

/-- The plan of the chain of another hook. -/
def chained : HookPlan := ⟨0x09600000, 77, updateRequest chainedEnv chainedCode 14 0x12345000⟩

/-- A kernel with the code of the method, of which every process has a copy. -/
def chainedKernel : Kernel where
  memory _ x := if h : x - 0x20000 < 16 then chainedCode ⟨(x - 0x20000).toNat, h⟩ else 0
  protection _ _ := 0
  attached _ := true
  authId := 0
  trace := []

/-- A kernel in which only three of the eight bytes were written. -/
def tornKernel : Kernel :=
  chainedKernel.store 77 (0x20000 + 6) (chained.chunk chained.request.desired) ⟨0, 0, (decide <| · < 3), 0⟩

/-- Eight bytes make the chain, and undo it where three of them were written. -/
theorem stored_suffices_chained :
    (chainedKernel.store 77 (0x20000 + 6) (chained.chunk chained.request.desired) ⟨0, 0, fun _ => true, 0⟩).code
        77 0x20000 = chained.request.desired ∧
      tornKernel.code 77 0x20000 8 ≠ chained.request.expected 8 ∧
      (tornKernel.store 77 (0x20000 + 6) (chained.chunk chained.request.expected)
        ⟨0, 0, fun _ => true, 0⟩).code 77 0x20000 = chained.request.expected := by
  have haccepts : RequestKind.hook.Accepts (updateRequest chainedEnv chainedCode 14 0x12345000)
      chainedEnv.pid :=
    accepts_updateRequest (by decide) (by decide) (by decide) ⟨by decide, by decide⟩ (by decide)
      ⟨by decide, by decide⟩ fun _ => ⟨rfl, by decide⟩
  have hvalid : chained.valid = true := chained.valid_iff.2 haccepts
  have hcode : chainedKernel.code 77 0x20000 = chained.request.expected := by
    funext i
    fin_cases i <;> rfl
  have hothers : ∀ i : Fin 16, ¬(6 ≤ i.val ∧ i.val < 14) →
      tornKernel.code 77 0x20000 i = chained.request.expected i := by decide +kernel
  exact ⟨(chained.stored_suffices hvalid rfl chainedKernel ⟨0, 0, fun _ => true, 0⟩ fun _ _ => rfl).1 hcode,
    by decide +kernel,
    (chained.stored_suffices hvalid rfl tornKernel ⟨0, 0, fun _ => true, 0⟩ fun _ _ => rfl).2 hothers⟩

end HookPlan

end CommonFps
