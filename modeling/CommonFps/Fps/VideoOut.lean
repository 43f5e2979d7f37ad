import CommonFps.Lib.Driven
import CommonFps.Fps.Rate

/-!
# The VideoOut sampler

The sampler of the game's VideoOut counter (`fps_sampler.cpp`). `attach` finds
the counter of a process; every `sample` then reads it, and compares the reading
with a *baseline*, an earlier one: a reading at least 200 ms and at most 3 s
after the baseline completes a window and becomes the next baseline; a reading
after a longer gap, or at an earlier time, becomes the baseline of a fresh
start. The first window of a start is discarded.

The platform's answers are inputs: an `attach` asks for the time, the module,
the counter address (`resolve_counter_address`) and, if there is none, the time
again (`AttachAnswers`); a `sample` asks whether the process is alive, for the
counter and for the time (`SampleAnswers`).

* `videoOut`: the sampler under any sequence of calls;
* `Baseline`: the baseline of the sampler is an earlier reading, which no call
  in between replaced;
* `attached_spec`: what the sampler holds while attached, in any run;
* `sample_sound`: a returned value is the exact rate between two readings, the
  first of which closed an earlier window.
-/

namespace CommonFps

/-- The two builds of the sampler: the back-off of `attach` is only in the
    payload. -/
inductive Build
  | host
  | ps5
  deriving DecidableEq, Repr

/-- The sampler (`FpsSampler`). -/
structure FpsSampler where
  pid : ℤ := -1
  moduleBase : UInt64 := 0
  counterAddress : UInt64 := 0
  haveBaseline : Bool := false
  warmupDeltasRemaining : ℕ := kWarmupDeltasToDiscard
  previousCounter : UInt32 := 0
  previousTimeUs : ℕ := 0
  /-- The process whose discovery failed last, not to be repeated at once. -/
  discoveryFailedPid : ℤ := -1
  discoveryRetryAfterUs : ℕ := 0
  deriving DecidableEq, Repr

/-- The answers of the platform during an `attach`. -/
structure AttachAnswers where
  attemptTimeUs : ℕ
  /-- The base of `libSceVideoOut.sprx`, if it is found. -/
  moduleBase : Option UInt64
  /-- The counter address that `resolve_counter_address` finds, if any. -/
  counterAddress : Option UInt64
  failureTimeUs : ℕ
  deriving DecidableEq, Repr

/-- The answers of the platform during a `sample`. -/
structure SampleAnswers where
  alive : Bool
  /-- The counter, if it can be read. -/
  counter : Option UInt32
  nowUs : ℕ
  deriving DecidableEq, Repr

namespace FpsSampler

/-- The sampler lets its game go. -/
def reset (s : FpsSampler) : FpsSampler :=
  { s with
    pid := -1, moduleBase := 0, counterAddress := 0, haveBaseline := false
    warmupDeltasRemaining := kWarmupDeltasToDiscard, previousCounter := 0, previousTimeUs := 0 }

/-- The sampler has the counter of a process. -/
def Attached (s : FpsSampler) : Prop := 0 ≤ s.pid ∧ s.counterAddress ≠ 0

instance (s : FpsSampler) : Decidable s.Attached := by unfold Attached; infer_instance

/-- The sampler attaches to a game, which may be refused. -/
def attach (b : Build) (s : FpsSampler) (pid : ℤ) (a : AttachAnswers) : FpsSampler × Bool :=
  if b = .ps5 ∧ pid = s.discoveryFailedPid ∧ a.attemptTimeUs < s.discoveryRetryAfterUs then
    (s, false)
  else
    let s := s.reset
    match a.moduleBase with
    | none => (s, false)
    | some base =>
      if base = 0 then (s, false)
      else
        let s := { s with pid := pid, moduleBase := base }
        match a.counterAddress, b with
        | none, .host => (s.reset, false)
        | none, .ps5 =>
          ({ s with
              discoveryFailedPid := pid
              discoveryRetryAfterUs := (a.failureTimeUs + 10000000) % 2 ^ 64 }.reset, false)
        | some address, .host => ({ s with counterAddress := address }, true)
        | some address, .ps5 =>
          ({ s with
              counterAddress := address, discoveryFailedPid := -1, discoveryRetryAfterUs := 0 }, true)

/-- What a `sample` does with the counter `current` read at the time `nowUs`. -/
def measure (s : FpsSampler) (current : UInt32) (nowUs : ℕ) : FpsSampler × Option ℤ :=
  match reading s.haveBaseline s.previousTimeUs nowUs with
  | .first => ({ s with haveBaseline := true, previousCounter := current, previousTimeUs := nowUs }, none)
  | .rebase =>
    ({ s with
        previousCounter := current, previousTimeUs := nowUs
        warmupDeltasRemaining := kWarmupDeltasToDiscard }, none)
  | .short => (s, none)
  | .window =>
    let elapsedUs := nowUs - s.previousTimeUs
    let delta := current - s.previousCounter
    -- The product is one of 64-bit integers; the quotient is kept on 64 bits.
    let scaled := delta.toNat * 10000000 % 2 ^ 64
    let tenths := scaled / elapsedUs
    let s := { s with previousCounter := current, previousTimeUs := nowUs }
    if s.warmupDeltasRemaining ≠ 0 then
      ({ s with warmupDeltasRemaining := s.warmupDeltasRemaining - 1 }, none)
    else if tenths > kMaxTenthsFps then (s, none)
    else (s, some (min (((tenths + 5) / 10 : ℕ) : ℤ) kMaxDisplayFps))

/-- The counter of the game is read, if it still runs. -/
def sample (s : FpsSampler) (a : SampleAnswers) : FpsSampler × Option ℤ :=
  if ¬s.Attached then (s, none)
  else if ¬a.alive then (s.reset, none)
  else
    match a.counter with
    | none => (s.reset, none)
    | some current => s.measure current a.nowUs

end FpsSampler

/-- A call of the sampler, with the answers of the platform during it. -/
inductive SamplerCall
  | attach (pid : ℤ) (a : AttachAnswers)
  | sample (a : SampleAnswers)
  | reset
  deriving DecidableEq, Repr

/-- What a call of the sampler returns. -/
inductive SamplerResult
  | attached (ok : Bool)
  | sampled (fps : Option ℤ)
  | done
  deriving DecidableEq, Repr

/-- A call of the sampler. -/
def FpsSampler.call (b : Build) (s : FpsSampler) : SamplerCall → FpsSampler × SamplerResult
  | .attach pid a => let (s, ok) := s.attach b pid a; (s, .attached ok)
  | .sample a => let (s, fps) := s.sample a; (s, .sampled fps)
  | .reset => (s.reset, .done)

/-- The sampler, driven by calls. -/
def videoOut (b : Build) : Driven FpsSampler SamplerCall SamplerResult where
  init := {}
  step := FpsSampler.call b

/-! ## One call -/

namespace FpsSampler

variable {b : Build} {s : FpsSampler}

@[simp] theorem not_attached_reset (s : FpsSampler) : ¬s.reset.Attached := by
  simp [Attached, reset]

/-- A refused `attach` leaves the sampler detached, unless it was refused by the
    back-off, which changes nothing. -/
theorem attach_of_refused {pid : ℤ} {a : AttachAnswers} (h : (s.attach b pid a).2 = false) :
    (b = .ps5 ∧ a.attemptTimeUs < s.discoveryRetryAfterUs ∧ (s.attach b pid a).1 = s) ∨
      ¬(s.attach b pid a).1.Attached := by
  unfold attach at h ⊢
  split_ifs at h ⊢ with hb
  · exact .inl ⟨hb.1, hb.2.2, rfl⟩
  · right
    cases hm : a.moduleBase with
    | none => exact not_attached_reset s
    | some base =>
      simp only [hm] at h ⊢
      split_ifs at h ⊢
      · exact not_attached_reset s
      · cases hc : a.counterAddress with
        | none => cases b <;> exact not_attached_reset _
        | some address =>
          rw [hc] at h
          cases b <;> cases h

/-- An accepted `attach` starts without a baseline, with a window to discard. -/
theorem attach_of_accepted {pid : ℤ} {a : AttachAnswers} (h : (s.attach b pid a).2 = true) :
    (s.attach b pid a).1.haveBaseline = false ∧
      (s.attach b pid a).1.warmupDeltasRemaining = kWarmupDeltasToDiscard ∧
      (s.attach b pid a).1.previousTimeUs = 0 ∧
      (b = .ps5 → (s.attach b pid a).1.discoveryRetryAfterUs = 0) := by
  unfold attach at h ⊢
  split_ifs at h ⊢
  cases hm : a.moduleBase with
  | none => simp [hm] at h
  | some base =>
    simp only [hm] at h ⊢
    split_ifs at h ⊢
    cases hc : a.counterAddress with
    | none =>
      rw [hc] at h
      cases b <;> cases h
    | some address =>
      cases b with
      | host => exact ⟨rfl, rfl, rfl, nofun⟩
      | ps5 => exact ⟨rfl, rfl, rfl, fun _ => rfl⟩

/-- The rate of a window, in tenths: the 64-bit product is exact. -/
theorem scaled_eq (delta : UInt32) : delta.toNat * 10000000 % 2 ^ 64 = delta.toNat * 10000000 :=
  Nat.mod_eq_of_lt (by have := delta.toNat_lt; omega)

/-- A reading keeps the process and the counter. -/
theorem measure_frame (s : FpsSampler) (c : UInt32) (t : ℕ) :
    (s.measure c t).1.pid = s.pid ∧ (s.measure c t).1.counterAddress = s.counterAddress ∧
      (s.measure c t).1.discoveryRetryAfterUs = s.discoveryRetryAfterUs := by
  unfold measure
  split
  · simp
  · simp
  · simp
  · dsimp only
    split_ifs <;> simp

/-- A sample stays attached to the same process while that is alive and its
    counter can be read, and detaches otherwise. -/
theorem attached_sample (s : FpsSampler) (a : SampleAnswers) :
    ((s.sample a).1.Attached ↔ s.Attached ∧ a.alive = true ∧ a.counter ≠ none) ∧
      ((s.sample a).1.Attached → (s.sample a).1.pid = s.pid) := by
  by_cases hs : s.Attached
  · rw [sample, if_neg (not_not.2 hs)]
    by_cases ha : a.alive
    · rw [if_neg (not_not.2 ha)]
      cases hc : a.counter with
      | none => simp
      | some c =>
        obtain ⟨hp, hd, -⟩ := measure_frame s c a.nowUs
        simp [Attached, hp, hd, ha, hs.1, hs.2]
    · simp [ha]
  · simp [sample, hs]

/-- An `attach` of a detached sampler attaches it to the process, if it succeeds,
    finds a counter that is not at the address `0`, and the process has a proper
    number. -/
theorem attached_attach {pid : ℤ} {a : AttachAnswers} (hs : ¬s.Attached) :
    ((s.attach .ps5 pid a).1.Attached ↔
      (s.attach .ps5 pid a).2 = true ∧ 0 ≤ pid ∧ a.counterAddress ≠ some 0) ∧
      ((s.attach .ps5 pid a).1.Attached → (s.attach .ps5 pid a).1.pid = pid) := by
  rw [attach]
  split_ifs with hb
  · simp [hs]
  · cases a.moduleBase with
    | none => simp
    | some base =>
      dsimp only
      split_ifs
      · simp
      · cases a.counterAddress with
        | none => simp
        | some address => simp [Attached]

/-- A reading that is not a short one becomes the baseline. -/
theorem measure_baseline {c : UInt32} {t : ℕ}
    (h : reading s.haveBaseline s.previousTimeUs t ≠ .short) :
    (s.measure c t).1.haveBaseline = true ∧ (s.measure c t).1.previousCounter = c ∧
      (s.measure c t).1.previousTimeUs = t := by
  unfold measure
  split
  · simp
  · next hr => simpa using (reading_eq_rebase.1 hr).1
  · contradiction
  · next hr =>
    have hb := (reading_eq_window.1 hr).1
    dsimp only
    split_ifs <;> simp [hb]

/-- A reading that completes no window has one to discard ahead, if there was
    one or it starts over. -/
theorem measure_warmup {c : UInt32} {t : ℕ} (hw : reading s.haveBaseline s.previousTimeUs t ≠ .window)
    (h : (s.measure c t).1.warmupDeltasRemaining = 0) :
    s.warmupDeltasRemaining = 0 ∧ reading s.haveBaseline s.previousTimeUs t ≠ .rebase := by
  unfold measure at h
  split at h
  · exact ⟨h, by simp [*]⟩
  · simp [kWarmupDeltasToDiscard] at h
  · exact ⟨h, by simp [*]⟩
  · contradiction

theorem measure_first {c : UInt32} {t : ℕ} (h : reading s.haveBaseline s.previousTimeUs t = .first) :
    s.measure c t = ({ s with haveBaseline := true, previousCounter := c, previousTimeUs := t }, none) := by
  rw [measure, h]

theorem measure_rebase {c : UInt32} {t : ℕ} (h : reading s.haveBaseline s.previousTimeUs t = .rebase) :
    s.measure c t = ({ s with
      previousCounter := c, previousTimeUs := t
      warmupDeltasRemaining := kWarmupDeltasToDiscard }, none) := by
  rw [measure, h]

theorem measure_short {c : UInt32} {t : ℕ} (h : reading s.haveBaseline s.previousTimeUs t = .short) :
    s.measure c t = (s, none) := by
  rw [measure, h]

theorem measure_warmup_window {c : UInt32} {t : ℕ}
    (h : reading s.haveBaseline s.previousTimeUs t = .window) (hw : s.warmupDeltasRemaining ≠ 0) :
    s.measure c t = ({ s with
      previousCounter := c, previousTimeUs := t
      warmupDeltasRemaining := s.warmupDeltasRemaining - 1 }, none) := by
  simp only [measure, h, if_pos hw]

/-- A window that is not discarded gives its rate in tenths, if it is valid, rounded. -/
theorem measure_window {c : UInt32} {t : ℕ} (h : reading s.haveBaseline s.previousTimeUs t = .window)
    (hw : s.warmupDeltasRemaining = 0) :
    s.measure c t = ({ s with previousCounter := c, previousTimeUs := t },
      let tenths := (c - s.previousCounter).toNat * 10000000 / (t - s.previousTimeUs)
      if tenths > kMaxTenthsFps then none
      else some (min (((tenths + 5) / 10 : ℕ) : ℤ) kMaxDisplayFps)) := by
  simp only [measure, h, if_neg (not_not.2 hw), scaled_eq]
  split_ifs <;> rfl

/-- A value is returned at the end of a window that is not discarded. -/
theorem measure_eq_some {c : UInt32} {t : ℕ} {v : ℤ} (h : (s.measure c t).2 = some v) :
    reading s.haveBaseline s.previousTimeUs t = .window ∧ s.warmupDeltasRemaining = 0 ∧
      (c - s.previousCounter).toNat * 10000000 / (t - s.previousTimeUs) ≤ kMaxTenthsFps ∧
      v = min ((((c - s.previousCounter).toNat * 10000000 / (t - s.previousTimeUs) + 5) / 10 : ℕ) : ℤ)
        kMaxDisplayFps := by
  unfold measure at h
  split at h
  · simp at h
  · simp at h
  · simp at h
  · next hr =>
    simp only [scaled_eq] at h
    split_ifs at h with hw ht
    exact ⟨hr, not_not.1 hw, not_lt.1 ht, (Option.some.inj h).symm⟩

end FpsSampler

/-! ## Runs -/

section Runs

variable (b : Build) (ι : ℕ → SamplerCall)

/-- The call `n` returns the value `v`. -/
def Returned (n : ℕ) (v : ℤ) : Prop := (videoOut b).output ι n = .sampled (some v)

/-- The call `n` is an `attach` that returns `true`. -/
def AttachedAt (n : ℕ) : Prop := (videoOut b).output ι n = .attached true

/-- The call `n` reads `c` from the address `addr` of the process `pid`, at the time `t`. -/
def ReadAt (n : ℕ) (pid : ℤ) (addr : UInt64) (c : UInt32) (t : ℕ) : Prop :=
  ((videoOut b).state ι n).Attached ∧ ((videoOut b).state ι n).pid = pid ∧
    ((videoOut b).state ι n).counterAddress = addr ∧ ι n = .sample ⟨true, some c, t⟩

/-- What the call `n` does with the reading it makes at the time `t`. -/
def readingAt (n t : ℕ) : Reading :=
  reading ((videoOut b).state ι n).haveBaseline ((videoOut b).state ι n).previousTimeUs t

/-- The baseline before the call `n` is the reading of the call `i`: no call in
    between replaced it. -/
structure Baseline (i n : ℕ) : Prop where
  lt : i < n
  read : ReadAt b ι i ((videoOut b).state ι n).pid ((videoOut b).state ι n).counterAddress
    ((videoOut b).state ι n).previousCounter ((videoOut b).state ι n).previousTimeUs
  short : ∀ k, i < k → k < n → ∃ pid addr c t, ReadAt b ι k pid addr c t ∧
    readingAt b ι k t = .short

/-- The calls `i` and `n` delimit a completed window: the reading of `n`
    completes the one that the reading of `i` opened. -/
def Window (i n : ℕ) : Prop :=
  Baseline b ι i n ∧ ∃ pid addr c t, ReadAt b ι n pid addr c t ∧ readingAt b ι n t = .window

/-- The call `n` starts over, from a reading it makes too late or too early. -/
def RebasedAt (n : ℕ) : Prop := ∃ pid addr c t, ReadAt b ι n pid addr c t ∧ readingAt b ι n t = .rebase

/-- What the sampler holds while attached, the latest `attach` that returned
    `true` being the call `a`: only `sample`s since; the baseline is a reading
    made since, and closed a window made since unless one is to be discarded. -/
structure AttachedSince (a n : ℕ) : Prop where
  lt : a < n
  attached : AttachedAt b ι a
  samples : ∀ k, a < k → k < n → ∃ x, ι k = .sample x
  baseline : ((videoOut b).state ι n).haveBaseline = true → ∃ i, a < i ∧ Baseline b ι i n ∧
    (((videoOut b).state ι n).warmupDeltasRemaining = 0 → ∃ j, a < j ∧ Window b ι j i)
  warmup : ((videoOut b).state ι n).haveBaseline = false →
    ((videoOut b).state ι n).warmupDeltasRemaining ≠ 0
  retry : b = .ps5 → ((videoOut b).state ι n).discoveryRetryAfterUs = 0

variable {b ι}

theorem ReadAt.unique {n : ℕ} {pid pid' : ℤ} {addr addr' : UInt64} {c c' : UInt32} {t t' : ℕ}
    (h : ReadAt b ι n pid addr c t) (h' : ReadAt b ι n pid' addr' c' t') : c = c' ∧ t = t' := by
  have := h.2.2.2.symm.trans h'.2.2.2
  simp at this
  exact this

@[simp] theorem videoOut_step : (videoOut b).step = FpsSampler.call b := rfl

/-- The next state after a call that reads the counter. -/
theorem ReadAt.state_succ {n : ℕ} {pid : ℤ} {addr : UInt64} {c : UInt32} {t : ℕ}
    (h : ReadAt b ι n pid addr c t) :
    (videoOut b).state ι (n + 1) = (((videoOut b).state ι n).measure c t).1 := by
  simp [Driven.state_succ, h.2.2.2, FpsSampler.call, FpsSampler.sample, h.1]

/-- A call that leaves the sampler attached either attached it, or is a
    `sample` that read the counter of a sampler that was already attached. -/
theorem attachedAt_or_readAt {n : ℕ}
    (hinv : ((videoOut b).state ι n).Attached → ∃ a, AttachedSince b ι a n)
    (h : ((videoOut b).state ι (n + 1)).Attached) :
    AttachedAt b ι n ∨ ∃ pid addr c t, ReadAt b ι n pid addr c t := by
  rw [Driven.state_succ, videoOut_step] at h
  cases hι : ι n with
  | attach pid a =>
    rw [hι] at h
    cases hok : (((videoOut b).state ι n).attach b pid a).2 with
    | true => exact .inl (by simp [AttachedAt, Driven.output, hι, FpsSampler.call, hok])
    | false =>
      -- Refused by the back-off, the sampler would still be attached; but it
      -- cleared the back-off when it was attached.
      rcases FpsSampler.attach_of_refused hok with ⟨hb, hlt, he⟩ | hna
      · obtain ⟨_, ha⟩ := hinv (he ▸ h)
        exact absurd (ha.retry hb ▸ hlt) (Nat.not_lt_zero _)
      · exact absurd h hna
  | sample a =>
    simp only [hι, FpsSampler.call, FpsSampler.sample] at h
    split_ifs at h with hatt halive
    · cases hc : a.counter with
      | none => simp [hc] at h
      | some c => exact .inr ⟨_, _, c, a.nowUs, hatt, rfl, rfl, by rw [hι, ← hc, ← halive]⟩
    · simp at h
    · exact absurd h hatt
  | reset => simp [hι, FpsSampler.call] at h

/-- A call that attaches the sampler starts a new attachment. -/
theorem AttachedAt.attachedSince {n : ℕ} (h : AttachedAt b ι n) : AttachedSince b ι n (n + 1) := by
  have hs := Driven.state_succ (videoOut b) ι n
  have ho := h
  rw [AttachedAt, Driven.output] at ho
  cases hι : ι n with
  | attach pid a =>
    rw [hι] at hs ho
    have hok : (((videoOut b).state ι n).attach b pid a).2 = true := by
      simpa [FpsSampler.call] using ho
    obtain ⟨hb, hw, _, hr⟩ := FpsSampler.attach_of_accepted hok
    simp only [videoOut_step, FpsSampler.call] at hs
    exact ⟨Nat.lt_succ_self n, h, fun k h₁ h₂ => absurd h₁ (by omega), by simp [hs, hb],
      by simp [hs, hw, kWarmupDeltasToDiscard], fun hp => by rw [hs]; exact hr hp⟩
  | sample a => simp [hι, FpsSampler.call] at ho
  | reset => simp [hι, FpsSampler.call] at ho

/-- A baseline is kept by a short reading. -/
theorem Baseline.succ {i n : ℕ} (h : Baseline b ι i n) {pid : ℤ} {addr : UInt64} {c : UInt32} {t : ℕ}
    (hr : ReadAt b ι n pid addr c t) (hs : readingAt b ι n t = .short) : Baseline b ι i (n + 1) := by
  have he : (videoOut b).state ι (n + 1) = (videoOut b).state ι n := by
    rw [hr.state_succ, FpsSampler.measure_short hs]
  refine ⟨Nat.lt_succ_of_lt h.lt, he ▸ h.read, fun k h₁ h₂ => ?_⟩
  rcases Nat.lt_succ_iff_lt_or_eq.1 h₂ with hk | rfl
  · exact h.short k h₁ hk
  · exact ⟨pid, addr, c, t, hr, hs⟩

/-- Any other reading becomes the baseline. -/
theorem ReadAt.baseline {n : ℕ} {pid : ℤ} {addr : UInt64} {c : UInt32} {t : ℕ}
    (hr : ReadAt b ι n pid addr c t) (hs : readingAt b ι n t ≠ .short) : Baseline b ι n (n + 1) := by
  obtain ⟨_, hc, ht⟩ := FpsSampler.measure_baseline (c := c) hs
  obtain ⟨hp, ha, _⟩ := FpsSampler.measure_frame ((videoOut b).state ι n) c t
  refine ⟨Nat.lt_succ_self n, ?_, fun k h₁ h₂ => absurd h₁ (by omega)⟩
  rw [hr.state_succ, hc, ht, hp, ha]
  exact ⟨hr.1, rfl, rfl, hr.2.2.2⟩

/-- A reading continues the attachment. -/
theorem AttachedSince.succ {a n : ℕ} (h : AttachedSince b ι a n) {pid : ℤ} {addr : UInt64}
    {c : UInt32} {t : ℕ} (hr : ReadAt b ι n pid addr c t) : AttachedSince b ι a (n + 1) := by
  have hs := hr.state_succ
  have hretry : b = .ps5 → ((videoOut b).state ι (n + 1)).discoveryRetryAfterUs = 0 := fun hb => by
    rw [hs, (FpsSampler.measure_frame _ _ _).2.2]
    exact h.retry hb
  have hsamples : ∀ k, a < k → k < n + 1 → ∃ x, ι k = .sample x := fun k h₁ h₂ => by
    rcases Nat.lt_succ_iff_lt_or_eq.1 h₂ with hk | rfl
    · exact h.samples k h₁ hk
    · exact ⟨_, hr.2.2.2⟩
  by_cases hshort : readingAt b ι n t = .short
  · -- A short reading changes nothing.
    have he : (videoOut b).state ι (n + 1) = (videoOut b).state ι n := by
      rw [hs, FpsSampler.measure_short hshort]
    refine ⟨Nat.lt_succ_of_lt h.lt, h.attached, hsamples, fun hb => ?_, he ▸ h.warmup, hretry⟩
    obtain ⟨i, hi, hbase, hw⟩ := h.baseline (he ▸ hb)
    exact ⟨i, hi, hbase.succ hr hshort, he ▸ hw⟩
  · -- The reading is the new baseline. If no window is to be discarded next,
    -- it closed one: otherwise it would have to have started over.
    have hbase := FpsSampler.measure_baseline (c := c) hshort
    refine ⟨Nat.lt_succ_of_lt h.lt, h.attached, hsamples, fun _ => ⟨n, h.lt, hr.baseline hshort, ?_⟩,
      fun hb => ?_, hretry⟩
    · intro hzero
      rw [hs] at hzero
      by_cases hwin : readingAt b ι n t = .window
      · obtain ⟨i, hi, hib, _⟩ := h.baseline (reading_eq_window.1 hwin).1
        exact ⟨i, hi, hib, pid, addr, c, t, hr, hwin⟩
      · obtain ⟨hz, hre⟩ := FpsSampler.measure_warmup hwin hzero
        cases hfirst : readingAt b ι n t with
        | first => exact absurd hz (h.warmup (reading_eq_first.1 hfirst))
        | rebase => exact absurd hfirst hre
        | short => exact absurd hfirst hshort
        | window => exact absurd hfirst hwin
    · rw [hs, hbase.1] at hb
      exact absurd hb (by simp)

/-- While attached, the sampler holds what its attachment gave it. -/
theorem attached_spec (n : ℕ) : ((videoOut b).state ι n).Attached → ∃ a, AttachedSince b ι a n := by
  induction n with
  | zero => exact fun h => absurd h (show ¬({} : FpsSampler).Attached by decide)
  | succ n ih =>
    intro h
    rcases attachedAt_or_readAt ih h with ha | ⟨pid, addr, c, t, hr⟩
    · exact ⟨n, ha.attachedSince⟩
    · obtain ⟨a, ha⟩ := ih hr.1
      exact ⟨a, ha.succ hr⟩

/-- A value is returned by measuring a reading. -/
theorem Returned.readAt {n : ℕ} {v : ℤ} (h : Returned b ι n v) :
    ∃ pid addr c t, ReadAt b ι n pid addr c t ∧ (((videoOut b).state ι n).measure c t).2 = some v := by
  rw [Returned, Driven.output] at h
  cases hι : ι n with
  | attach pid a => simp [hι, FpsSampler.call] at h
  | reset => simp [hι, FpsSampler.call] at h
  | sample a =>
    simp only [hι, videoOut_step, FpsSampler.call, FpsSampler.sample] at h
    split_ifs at h with hatt halive
    · cases hc : a.counter with
      | none => simp [hc] at h
      | some c =>
        simp only [hc, SamplerResult.sampled.injEq] at h
        exact ⟨_, _, c, a.nowUs, ⟨hatt, rfl, rfl, by rw [hι, ← hc, ← halive]⟩, h⟩
    · simp at h
    · simp at h

/-- A value is returned at the end of a window. -/
theorem Returned.window {n : ℕ} {v : ℤ} (h : Returned b ι n v) : ∃ i, Window b ι i n := by
  obtain ⟨pid, addr, c, t, hr, hv⟩ := h.readAt
  obtain ⟨hw, _⟩ := FpsSampler.measure_eq_some hv
  obtain ⟨a, ha⟩ := attached_spec n hr.1
  obtain ⟨i, _, hb, _⟩ := ha.baseline (reading_eq_window.1 hw).1
  exact ⟨i, hb, pid, addr, c, t, hr, hw⟩

/-- Windows do not overlap: one ends where the next begins, or before. -/
theorem Window.le_start {i n j m : ℕ} (h : Window b ι i n) (h' : Window b ι j m) (hnm : n < m) :
    n ≤ j := by
  by_contra hlt
  obtain ⟨_, pid, addr, c, t, hr, hw⟩ := h
  obtain ⟨_, _, _, _, hr', hs⟩ := h'.1.short n (not_le.1 hlt) hnm
  rw [← (hr.unique hr').2, hw] at hs
  cases hs

/-- No call after the baseline starts over, until the window completes. -/
theorem Window.not_rebasedAt {i n k : ℕ} (h : Window b ι i n) (hi : i < k) (hn : k ≤ n) :
    ¬RebasedAt b ι k := by
  rintro ⟨_, _, _, _, hr, hre⟩
  rcases Nat.lt_or_eq_of_le hn with hk | rfl
  · obtain ⟨_, _, _, _, hr', hs⟩ := h.1.short k hi hk
    rw [(hr.unique hr').2, hs] at hre
    cases hre
  · obtain ⟨_, _, _, _, hr', hw⟩ := h.2
    rw [(hr.unique hr').2, hw] at hre
    cases hre

/-- The two roundings of a rate compose: truncating it to tenths first does not
    change the nearest integer. -/
theorem tenths_round (delta elapsed : ℕ) :
    (((delta * 10000000 / elapsed + 5) / 10 : ℕ) : ℤ) = ⌊(10 ^ 6 * delta : ℚ) / elapsed + 1 / 2⌋ := by
  have h := floor_mul_add_ediv ((10 ^ 6 * delta : ℚ) / elapsed) (n := 10) (by decide) 5
  have he : (10 ^ 6 * delta : ℚ) / elapsed * (10 : ℕ) = ((delta * 10000000 : ℕ) : ℚ) / elapsed := by
    push_cast
    ring
  rw [he, ← natCast_div_eq_floor] at h
  push_cast at h ⊢
  rw [h]
  norm_num

variable (b ι) in

/-- The value `v` returned by the call `n` is the rate between the readings of
    the calls `i` and `n`. -/
structure SoundValue (i n : ℕ) (v : ℤ) : Prop where
  /-- Two readings of one counter of one process, from 200 ms to 3 s apart; the
      rate between them has at most 1300 tenths, and `v` is its nearest integer,
      at most 120. The 64-bit product of the code does not overflow. -/
  readings : ∃ pid addr c₀ t₀ c₁ t₁, ReadAt b ι i pid addr c₀ t₀ ∧
    ReadAt b ι n pid addr c₁ t₁ ∧
    200000 ≤ t₁ - t₀ ∧ t₁ - t₀ ≤ 3000000 ∧ (c₁ - c₀).toNat * 10000000 < 2 ^ 64 ∧
    ⌊(10 ^ 7 * (c₁ - c₀).toNat : ℚ) / (t₁ - t₀ : ℕ)⌋ ≤ 1300 ∧
    v = min 120 ⌊(10 ^ 6 * (c₁ - c₀).toNat : ℚ) / (t₁ - t₀ : ℕ) + 1 / 2⌋
  /-- Both were made since the latest `attach` that returned `true`, and the
      first one closed an earlier window since then. -/
  attachment : ∃ a, AttachedAt b ι a ∧ (∀ k, a < k → k ≤ n → ¬AttachedAt b ι k) ∧
    ∃ j, a < j ∧ Window b ι j i
  window : Window b ι i n
  not_rebasedAt : ∀ k, i < k → k ≤ n → ¬RebasedAt b ι k

/-- Every returned value is sound. -/
theorem Returned.sound {n : ℕ} {v : ℤ} (h : Returned b ι n v) : ∃ i, SoundValue b ι i n v := by
  obtain ⟨pid, addr, c, t, hr, hm⟩ := h.readAt
  obtain ⟨hread, hwarm, htenths, hval⟩ := FpsSampler.measure_eq_some hm
  obtain ⟨hbase, _, hmin, hmax⟩ := reading_eq_window.1 hread
  obtain ⟨a, ha⟩ := attached_spec n hr.1
  obtain ⟨i, hai, hb, hprev⟩ := ha.baseline hbase
  have hw : Window b ι i n := ⟨hb, pid, addr, c, t, hr, hread⟩
  have hbefore := hb.read
  rw [hr.2.1, hr.2.2.1] at hbefore
  refine ⟨i, ⟨pid, addr, _, _, c, t, hbefore, hr, hmin, hmax, ?_, ?_, ?_⟩,
    ⟨a, ha.attached, fun k hk hkn hatt => ?_, hprev hwarm⟩, hw, fun k => hw.not_rebasedAt⟩
  · have := (c - ((videoOut b).state ι n).previousCounter).toNat_lt
    omega
  · have := Int.ofNat_le.2 htenths
    rw [natCast_div_eq_floor] at this
    push_cast [kMaxTenthsFps] at this
    convert this using 3
    ring
  · rw [hval, tenths_round, min_comm]
    rfl
  · -- Since the `attach`, there are only `sample`s.
    have hsample : ∃ x, ι k = .sample x := by
      rcases Nat.lt_or_eq_of_le hkn with hk' | rfl
      · exact ha.samples k hk hk'
      · exact ⟨_, hr.2.2.2⟩
    obtain ⟨x, hx⟩ := hsample
    simp [AttachedAt, Driven.output, hx, FpsSampler.call] at hatt

/-- Soundness of the sampler over whole runs, of any calls and any answers of the
    platform: every returned value is the rate of a window (`SoundValue`), and
    the windows of two returned values share at most an end point. -/
theorem sample_sound (b : Build) (ι : ℕ → SamplerCall) :
    ∃ start : ℕ → ℕ, (∀ n v, Returned b ι n v → SoundValue b ι (start n) n v) ∧
      ∀ n m v w, n < m → Returned b ι n v → Returned b ι m w → n ≤ start m := by
  have hex : ∀ n, ∃ i, ∀ v, Returned b ι n v → SoundValue b ι i n v := fun n => by
    by_cases h : ∃ v, Returned b ι n v
    · obtain ⟨v, hv⟩ := h
      obtain ⟨i, hi⟩ := hv.sound
      refine ⟨i, fun w hw => ?_⟩
      have hvw : v = w := by simpa using hv.symm.trans hw
      exact hvw ▸ hi
    · exact ⟨0, fun v hv => absurd ⟨v, hv⟩ h⟩
  choose start hstart using hex
  exact ⟨start, hstart, fun n m v w hnm hv hw =>
    (hstart n v hv).window.le_start (hstart m w hw).window hnm⟩

end Runs

end CommonFps
