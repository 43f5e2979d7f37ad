import CommonFps.Lib.Single
import CommonFps.Fps.Dce

/-!
# The fallback sampler

The sampler used where VideoOut gives no rate (`dce_fps_sampler.cpp`): a rate
shared in a file by the host environment comes first; otherwise the words of the
display engine's device are read and given to the counter sampler. Opening and
asking the device is tried with the credentials of the controller, and then with
those of a debugger, taken for the time of the call and given back.

* `DceFpsSampler.ensureOpen`, `DceFpsSampler.queryDce`: the device;
* `dce_auth_restored`: when the credentials are those of before the call;
* `DceFpsSampler.sample`: the sampler, whose values name their back-end
  (`backend_of_sample`).
-/

namespace CommonFps

/-- Where a fallback value comes from (`backend_name`). -/
inductive DceBackend
  | none
  | henShared
  | dceFixed
  | dceAdaptive
  deriving DecidableEq, Repr

/-- The sampler (`DceFpsSampler`), less what it only logs. -/
structure DceFpsSampler where
  /-- The device is open (`fd_ >= 0`). -/
  isOpen : Bool := false
  counterSampler : DceCounterSampler := {}
  consecutiveFailures : ℕ := 0
  backendName : DceBackend := .none

/-! ## Credentials -/

/-- How the calls on the credentials end, when they are taken and given back. -/
structure AuthAnswers where
  getOk : Bool
  setOk : Bool
  restoreOk : Bool
  deriving DecidableEq

/-- The credentials taken: what they were, and whether they were changed. -/
structure AuthWindow where
  original : UInt64
  changed : Bool
  deriving DecidableEq

namespace DceFpsSampler

/-- The credentials of a debugger (`kPtraceAuthId`). -/
def ptraceAuthId : UInt64 := 0x4800000000010003

/-- The credentials after taking those of a debugger, if that succeeds. -/
def beginAuthWindow (auth : UInt64) (a : AuthAnswers) : UInt64 × Option AuthWindow :=
  let original := if a.getOk then auth else 0
  if original = ptraceAuthId then (auth, some ⟨original, false⟩)
  else if !a.setOk then (auth, none)
  else (ptraceAuthId, some ⟨original, true⟩)

/-- The credentials after giving them back, and whether that succeeds. -/
def endAuthWindow (auth : UInt64) (w : AuthWindow) (a : AuthAnswers) : UInt64 × Bool :=
  if !w.changed then (auth, true)
  else if a.restoreOk then (w.original, true)
  else (auth, false)

/-! ## The device -/

/-- How the calls end that open the device. -/
structure OpenAnswers where
  normal : Bool
  auth : AuthAnswers
  privileged : Bool
  privilegedReadOnly : Bool

/-- The device is opened, with the credentials of a debugger if it has to be. -/
def ensureOpen (s : DceFpsSampler) (auth : UInt64) (a : OpenAnswers) :
    DceFpsSampler × UInt64 × Bool :=
  if s.isOpen then (s, auth, true)
  else if a.normal then ({ s with isOpen := true, consecutiveFailures := 0 }, auth, true)
  else
    match beginAuthWindow auth a.auth with
    | (auth, none) => ({ s with consecutiveFailures := s.consecutiveFailures + 1 }, auth, false)
    | (auth, some w) =>
      let opened := a.privileged || a.privilegedReadOnly
      let (auth, restored) := endAuthWindow auth w a.auth
      if !opened then
        ({ s with consecutiveFailures := s.consecutiveFailures + 1 }, auth, false)
      else if !restored then (s, auth, false)
      else ({ s with isOpen := true, consecutiveFailures := 0 }, auth, true)

/-- How the calls end that ask the device for its words: the results of the two
    commands, without and with the credentials of a debugger, and the words they
    leave. -/
structure QueryAnswers where
  opened : OpenAnswers
  plain : ℤ
  plainSignExtended : ℤ
  auth : AuthAnswers
  privileged : ℤ
  privilegedSignExtended : ℤ
  words : Words

/-- The device is closed, and the samplers forget all. -/
def reset (s : DceFpsSampler) : DceFpsSampler :=
  { s with counterSampler := s.counterSampler.reset, backendName := .none }

/-- The device answered with a failure, or kept the credentials. -/
def failQuery (s : DceFpsSampler) : DceFpsSampler :=
  let s := { s with consecutiveFailures := s.consecutiveFailures + 1 }
  if s.consecutiveFailures ≥ 8 then { s with isOpen := false }.reset else s

/-- The counters are read from the device. -/
def queryDce (s : DceFpsSampler) (auth : UInt64) (a : QueryAnswers) :
    DceFpsSampler × UInt64 × Option Words :=
  match s.ensureOpen auth a.opened with
  | (s, auth, false) => (s, auth, none)
  | (s, auth, true) =>
    let rc := if a.plain < 0 then a.plainSignExtended else a.plain
    let (auth, rc, restored) :=
      if rc < 0 then
        match beginAuthWindow auth a.auth with
        | (auth, none) => (auth, rc, true)
        | (auth, some w) =>
          let rc := if a.privileged < 0 then a.privilegedSignExtended else a.privileged
          let (auth, restored) := endAuthWindow auth w a.auth
          (auth, rc, restored)
      else (auth, rc, true)
    if rc ≠ 0 ∨ restored = false then (s.failQuery, auth, none)
    else ({ s with consecutiveFailures := 0 }, auth, some a.words)

/-! ## Samples -/

/-- The file shared by the host environment. -/
structure SharedSample where
  magic : UInt32
  valid : UInt8
  fps : Single

/-- The first word of the file that another payload shares. -/
def kSharedFpsMagic : UInt32 := 0x4f465053

/-- The answers during a `sample`: the shared file, if it can be read and is long
    enough, the credentials of the controller, the device, and the time. -/
structure DceAnswers where
  shared : Option SharedSample
  auth : UInt64
  query : QueryAnswers
  nowUs : ℕ

/-- The rate that a shared file gives. -/
def SharedSample.rate (f : SharedSample) : Option ℤ :=
  if f.magic ≠ kSharedFpsMagic ∨ f.valid = 0 ∨ ¬f.fps.IsFinite then none
  else (validatedFps f.fps.value).filter (· ≠ 0)

/-- The rate in the shared file, if it has one. -/
def sampleSharedHen (s : DceFpsSampler) (f : Option SharedSample) : DceFpsSampler × Option ℤ :=
  match f.bind SharedSample.rate with
  | none => (s, none)
  | some fps => ({ s with backendName := .henShared }, some fps)

/-- The rate of the shared file, or else of the device. -/
def sample (s : DceFpsSampler) (a : DceAnswers) : DceFpsSampler × Option ℤ :=
  match s.sampleSharedHen a.shared with
  | (s, some fps) => (s, some fps)
  | (s, none) =>
    match s.queryDce a.auth a.query with
    | (s, _, none) => (s, none)
    | (s, _, some words) =>
      let (counterSampler, fps) := s.counterSampler.sample words a.nowUs
      match fps with
      | none => ({ s with counterSampler }, none)
      | some fps =>
        ({ s with
            counterSampler
            backendName := if counterSampler.selectedWord = 1 then .dceFixed else .dceAdaptive },
          some fps)

/-- A value names its back-end. -/
theorem backend_of_sample {s : DceFpsSampler} {a : DceAnswers} {fps : ℤ}
    (h : (s.sample a).2 = some fps) : (s.sample a).1.backendName ≠ .none := by
  rw [sample, sampleSharedHen] at h ⊢
  cases hf : a.shared.bind SharedSample.rate with
  | some v => simp
  | none =>
    rw [hf] at h
    dsimp only at h ⊢
    rcases hq : s.queryDce a.auth a.query with ⟨t, auth, _ | words⟩
    · simp [hq] at h
    · rw [hq] at h
      dsimp only at h ⊢
      cases hv : (t.counterSampler.sample words a.nowUs).2 with
      | none => simp [hv] at h
      | some v =>
        dsimp only
        split_ifs <;> simp

end DceFpsSampler

/-! ## Credentials given back -/

/-- The credentials that a window gives back: those it read. -/
def AuthAnswers.read (auth : UInt64) (a : AuthAnswers) : UInt64 := if a.getOk then auth else 0

namespace DceFpsSampler

/-- A window is taken and given back: nothing is to be done, or it is done. -/
def Taken (auth : UInt64) (a : AuthAnswers) : Prop :=
  a.read auth = ptraceAuthId ∨ (a.setOk = true ∧ a.restoreOk = true)

/-- The device is open, opens, or opens in a window. -/
def Opens (s : DceFpsSampler) (auth : UInt64) (a : OpenAnswers) : Prop :=
  s.isOpen = true ∨ a.normal = true ∨
    (Taken auth a.auth ∧ (a.privileged = true ∨ a.privilegedReadOnly = true))

/-- The device is to be opened in a window whose credentials cannot be read. -/
def OpenForgets (s : DceFpsSampler) (a : OpenAnswers) : Prop :=
  s.isOpen = false ∧ a.normal = false ∧ a.auth.getOk = false

/-- The result of the two commands, without a window and in one. -/
def QueryAnswers.plainRc (a : QueryAnswers) : ℤ := if a.plain < 0 then a.plainSignExtended else a.plain

/-- What the query with the other credentials returns. -/
def QueryAnswers.privilegedRc (a : QueryAnswers) : ℤ :=
  if a.privileged < 0 then a.privilegedSignExtended else a.privileged

/-- The open device answers, or answers in a window. -/
def Answers (auth : UInt64) (a : QueryAnswers) : Prop :=
  a.plainRc = 0 ∨ (a.plainRc < 0 ∧ Taken auth a.auth ∧ a.privilegedRc = 0)

/-- The device is to be asked in a window whose credentials cannot be read. -/
def QueryForgets (a : QueryAnswers) : Prop := a.plainRc < 0 ∧ a.auth.getOk = false

instance (s : DceFpsSampler) (a : OpenAnswers) : Decidable (s.OpenForgets a) := by
  rw [OpenForgets]
  infer_instance

instance (a : QueryAnswers) : Decidable (QueryForgets a) := by
  rw [QueryForgets]
  infer_instance

variable {s : DceFpsSampler} {auth : UInt64}

/-- A window that is taken gives back the credentials it read. -/
theorem window_of_taken {a : AuthAnswers} (h : Taken auth a) : ∃ auth₁ w,
    beginAuthWindow auth a = (auth₁, some w) ∧ endAuthWindow auth₁ w a = (a.read auth, true) := by
  by_cases hp : a.read auth = ptraceAuthId
  · -- The credentials were read, and are those of a debugger.
    have hget : a.getOk = true := by
      by_contra hget
      rw [AuthAnswers.read, if_neg hget] at hp
      exact absurd hp (by decide)
    have hread : a.read auth = auth := by rw [AuthAnswers.read, if_pos hget]
    exact ⟨auth, ⟨a.read auth, false⟩, if_pos hp, by rw [hread]; rfl⟩
  · obtain ⟨hset, hrestore⟩ := h.resolve_left hp
    refine ⟨ptraceAuthId, ⟨a.read auth, true⟩, ?_, by simp [endAuthWindow, hrestore]⟩
    rw [beginAuthWindow]
    exact (if_neg hp).trans (if_neg (by simp [hset]))

/-- A window that is not taken does not begin, or does not end. -/
theorem window_of_not_taken {a : AuthAnswers} (h : ¬Taken auth a) :
    beginAuthWindow auth a = (auth, none) ∨ ∃ auth₁ w,
      beginAuthWindow auth a = (auth₁, some w) ∧ endAuthWindow auth₁ w a = (auth₁, false) := by
  rw [Taken, not_or] at h
  obtain ⟨hp, hset⟩ := h
  rw [beginAuthWindow]
  by_cases hs : a.setOk = true
  · have hrestore : a.restoreOk = false := by simpa [hs] using hset
    exact .inr ⟨ptraceAuthId, ⟨a.read auth, true⟩, (if_neg hp).trans (if_neg (by simp [hs])),
      by simp [endAuthWindow, hrestore]⟩
  · exact .inl ((if_neg hp).trans (if_pos (by simpa using hs)))

/-- The credentials after opening the device. -/
def authAfterOpen (s : DceFpsSampler) (auth : UInt64) (a : OpenAnswers) : UInt64 :=
  if s.OpenForgets a then 0 else auth

theorem ensureOpen_of_opens {a : OpenAnswers} (h : s.Opens auth a) :
    (s.ensureOpen auth a).2 = (s.authAfterOpen auth a, true) := by
  rw [ensureOpen, authAfterOpen]
  by_cases hopen : s.isOpen = true
  · rw [if_pos hopen, if_neg fun hf => absurd (hf.1.symm.trans hopen) Bool.false_ne_true]
  by_cases hnormal : a.normal = true
  · rw [if_neg hopen, if_pos hnormal, if_neg fun hf => absurd (hf.2.1.symm.trans hnormal) Bool.false_ne_true]
  obtain ⟨htaken, hpriv⟩ := (h.resolve_left hopen).resolve_left hnormal
  obtain ⟨auth₁, w, hbegin, hend⟩ := window_of_taken htaken
  have hopened : (a.privileged || a.privilegedReadOnly) = true := by simpa using hpriv
  rw [if_neg hopen, if_neg hnormal, hbegin]
  simp only [hend, hopened, Bool.not_true, Bool.false_eq_true, if_false, AuthAnswers.read, OpenForgets]
  by_cases hget : a.auth.getOk = true <;> simp [hget, hopen, hnormal]

theorem ensureOpen_of_not_opens {a : OpenAnswers} (h : ¬s.Opens auth a) :
    (s.ensureOpen auth a).2.2 = false := by
  rw [Opens, not_or, not_or] at h
  obtain ⟨hopen, hnormal, hwindow⟩ := h
  rw [ensureOpen, if_neg hopen, if_neg hnormal]
  by_cases htaken : Taken auth a.auth
  · obtain ⟨auth₁, w, hbegin, -⟩ := window_of_taken htaken
    have hopened : (a.privileged || a.privilegedReadOnly) = false := by simpa [htaken] using hwindow
    rw [hbegin]
    simp [hopened]
  · obtain hbegin | ⟨auth₁, w, hbegin, hend⟩ := window_of_not_taken htaken
    · rw [hbegin]
    · rw [hbegin]
      simp only [hend, Bool.not_false, if_true]
      split_ifs <;> rfl

/-- The credentials after asking the device. -/
def authAfterQuery (s : DceFpsSampler) (auth : UInt64) (a : QueryAnswers) : UInt64 :=
  if QueryForgets a then 0 else s.authAfterOpen auth a.opened

/-- The device once open: asked without a window, and then in one. -/
theorem queryDce_of_opens {a : QueryAnswers} (h : s.Opens auth a.opened) : ∃ t : DceFpsSampler,
    s.queryDce auth a =
      let auth := s.authAfterOpen auth a.opened
      let (auth, rc, restored) :=
        if a.plainRc < 0 then
          match beginAuthWindow auth a.auth with
          | (auth, none) => (auth, a.plainRc, true)
          | (auth, some w) =>
            let (auth, restored) := endAuthWindow auth w a.auth
            (auth, a.privilegedRc, restored)
        else (auth, a.plainRc, true)
      if rc ≠ 0 ∨ restored = false then (t.failQuery, auth, none)
      else ({ t with consecutiveFailures := 0 }, auth, some a.words) := by
  rcases he : s.ensureOpen auth a.opened with ⟨t, auth₁, opened⟩
  have h := ensureOpen_of_opens h
  rw [he, Prod.mk.injEq] at h
  obtain ⟨rfl, rfl⟩ := h
  refine ⟨t, ?_⟩
  rw [queryDce, he]
  rfl

/-- A device that answers gives its words, and the credentials of its windows. -/
theorem queryDce_of_answers {a : QueryAnswers} (hopens : s.Opens auth a.opened)
    (h : Answers (s.authAfterOpen auth a.opened) a) :
    (s.queryDce auth a).2 = (s.authAfterQuery auth a, some a.words) := by
  obtain ⟨t, ht⟩ := queryDce_of_opens hopens
  rw [ht, authAfterQuery]
  rcases h with hplain | ⟨hplain, htaken, hpriv⟩
  · simp [QueryForgets, hplain]
  · obtain ⟨auth₁, w, hbegin, hend⟩ := window_of_taken htaken
    simp only [if_pos hplain, hbegin, hend, hpriv, QueryForgets, AuthAnswers.read]
    by_cases hget : a.auth.getOk = true <;> simp [hget, hplain]

/-- A device that does not answer gives no words. -/
theorem queryDce_of_not_answers {a : QueryAnswers}
    (h : ¬(s.Opens auth a.opened ∧ Answers (s.authAfterOpen auth a.opened) a)) :
    (s.queryDce auth a).2.2 = none := by
  by_cases hopens : s.Opens auth a.opened
  · have h : ¬Answers (s.authAfterOpen auth a.opened) a := fun ha => h ⟨hopens, ha⟩
    rw [Answers, not_or] at h
    obtain ⟨hplain, hwindow⟩ := h
    obtain ⟨t, ht⟩ := queryDce_of_opens hopens
    rw [ht]
    by_cases hneg : a.plainRc < 0
    · by_cases htaken : Taken (s.authAfterOpen auth a.opened) a.auth
      · have hpriv : a.privilegedRc ≠ 0 := fun hpriv => hwindow ⟨hneg, htaken, hpriv⟩
        obtain ⟨auth₁, w, hbegin, hend⟩ := window_of_taken htaken
        simp [hneg, hbegin, hend, hpriv]
      · rcases window_of_not_taken htaken with hbegin | ⟨auth₁, w, hbegin, hend⟩
        · simp [hneg, hbegin, hplain]
        · simp [hneg, hbegin, hend]
    · simp [hneg, hplain]
  · rcases he : s.ensureOpen auth a.opened with ⟨t, auth₁, opened⟩
    have h := ensureOpen_of_not_opens hopens
    rw [he] at h
    obtain rfl : opened = false := h
    rw [queryDce, he]

/-- A call that goes through keeps the credentials, unless it goes through a
    window that could not read them: the window then gives back `0`. -/
theorem dce_auth_restored (s : DceFpsSampler) (auth : UInt64) (opened : OpenAnswers) (query : QueryAnswers) :
    (((s.ensureOpen auth opened).2.2 = true → (s.ensureOpen auth opened).2.1 = auth) ↔
      ¬(s.Opens auth opened ∧ s.OpenForgets opened ∧ auth ≠ 0)) ∧
    (((s.queryDce auth query).2.2.isSome → (s.queryDce auth query).2.1 = auth) ↔
      ¬((s.Opens auth query.opened ∧
          Answers (if s.OpenForgets query.opened then 0 else auth) query) ∧
        (s.OpenForgets query.opened ∨ QueryForgets query) ∧ auth ≠ 0)) := by
  constructor
  · by_cases hopens : s.Opens auth opened
    · rw [ensureOpen_of_opens hopens, authAfterOpen]
      split_ifs with hf
      · simp [hopens, hf, eq_comm]
      · simp [hf]
    · simp [ensureOpen_of_not_opens hopens, hopens]
  · by_cases h : s.Opens auth query.opened ∧ Answers (s.authAfterOpen auth query.opened) query
    · have hgoes : s.Opens auth query.opened ∧
          Answers (if s.OpenForgets query.opened then 0 else auth) query := h
      rw [queryDce_of_answers h.1 h.2, authAfterQuery, authAfterOpen]
      simp only [Option.isSome_some, forall_const, hgoes, true_and]
      by_cases hq : QueryForgets query
      · simp [hq, eq_comm]
      · by_cases hf : s.OpenForgets query.opened
        · simp [hq, hf, eq_comm]
        · simp [hq, hf]
    · have hgoes : ¬(s.Opens auth query.opened ∧
          Answers (if s.OpenForgets query.opened then 0 else auth) query) := h
      simp [queryDce_of_not_answers h, hgoes]

/-- The credentials cannot be read for a moment: the device opens, and they are lost. -/
theorem dce_auth_lost :
    let auth : UInt64 := 0x3800000000000009
    let a : OpenAnswers := ⟨false, ⟨false, true, true⟩, true, false⟩
    ¬((({} : DceFpsSampler).ensureOpen auth a).2.2 = true →
      (({} : DceFpsSampler).ensureOpen auth a).2.1 = auth) := by
  decide

end DceFpsSampler

end CommonFps
