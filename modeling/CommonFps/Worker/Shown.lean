import CommonFps.Worker.Loop

/-!
# What the worker shows

A packet that is not a loading one carries a rate. It was measured lately, for
the game that is running, by the source that is in use, which has given every
value since for at least 5 s.

* `worker.attached_to_game`: VideoOut is only attached to the current game;
* `worker.filter_restarted`: the filter acts as if it had been called since its
  last reset only;
* `worker.displayed`: where a value of the filter comes from;
* `shown_is_current`: where a value shown comes from.
-/

namespace CommonFps

/-- The value `f` was produced for the game `g` by a source, in an iteration. -/
def WorkerReport.Produced (r : WorkerReport) (g f : ℤ) : FpsDisplaySource → Prop
  | .none => False
  | .videoOut => r.videoOut = .sampled g (some f)
  | .sharedHen => r.backend = .henShared ∧ r.dceFps = some f
  | .dceFixed => r.backend = .dceFixed ∧ r.dceFps = some f
  | .dceAdaptive => r.backend = .dceAdaptive ∧ r.dceFps = some f

namespace Worker

variable {s : Worker} {i : WorkerInput}

/-- VideoOut is only attached to the current game. -/
def AttachedToGame (s : Worker) : Prop := s.sampler.Attached → s.sampler.pid = s.stableGamePid

theorem AttachedToGame.observed (h : s.AttachedToGame) (ha : (s.observed i).sampler.Attached) :
    i.gamePid = some (s.observed i).stableGamePid ∧
      (s.observed i).sampler.pid = (s.observed i).stableGamePid := by
  have h' : (s.observeShellui i.shelluiPid).AttachedToGame := by
    rw [observeShellui_frame]
    exact h
  revert ha
  rw [Worker.observed]
  generalize s.observeShellui i.shelluiPid = t at h' ⊢
  cases hp : i.gamePid with
  | none => exact fun ha => absurd ha (FpsSampler.not_attached_reset _)
  | some pid =>
    rw [observeGame]
    split_ifs with hg
    · exact fun ha => ⟨congrArg some hg, h' ha⟩
    · exact fun ha => absurd ha (FpsSampler.not_attached_reset _)

/-- Only the current game is sampled, and is what VideoOut is attached to next. -/
theorem AttachedToGame.videoOut (h : s.AttachedToGame) :
    (∀ pid fps, (s.videoOut i).2 = .sampled pid fps →
      pid = (s.observed i).stableGamePid ∧ i.gamePid = some pid) ∧
    ((s.videoOut i).1.sampler.Attached →
      (s.videoOut i).1.sampler.pid = (s.observed i).stableGamePid) := by
  rw [Worker.videoOut, sampleVideoOut]
  by_cases ha : (s.observed i).sampler.Attached
  · obtain ⟨hg, hp⟩ := h.observed ha
    rw [if_pos ha]
    refine ⟨fun pid fps hs => ?_, fun ha => ?_⟩
    · obtain ⟨rfl, -⟩ := VideoOutReport.sampled.inj hs
      exact ⟨hp, hp ▸ hg⟩
    · exact ((FpsSampler.attached_sample _ _).2 ha).trans hp
  · rw [if_neg ha]
    cases hg : i.gamePid with
    | none =>
      refine ⟨fun _ _ hs => ?_, fun h => absurd h ha⟩
      cases hs
    | some pid =>
      dsimp only
      split_ifs
      · refine ⟨fun _ _ hs => ?_, fun h => ?_⟩
        · cases hs
        · rw [observed_stableGamePid, hg]
          exact (FpsSampler.attached_attach ha).2 h
      · refine ⟨fun _ _ hs => ?_, fun h => absurd h ha⟩
        cases hs

/-- The source chosen, and the value given to the filter, are those of a sampler. -/
theorem chosen_spec (s : Worker) (i : WorkerInput) :
    ((s.chosen i).2 = .videoOut ∧ (s.chosen i).1.haveFps = true ∧
      (s.videoOut i).2.fps = some (s.chosen i).1.latestFps) ∨
    ((s.chosen i).2 = displaySource (s.dce i).1.dceSampler.backendName ∧
      (s.chosen i).1.haveFps = true ∧ (s.dce i).2 = some (s.chosen i).1.latestFps) ∨
    (s.chosen i).2 = .none := by
  rw [chosen]
  generalize (s.videoOut i).2.fps = p, (s.dce i).2 = d
  simp only [chooseSource]
  split
  · exact .inl ⟨rfl, rfl, rfl⟩
  · exact .inr (.inl ⟨rfl, rfl, rfl⟩)
  · exact .inr (.inr rfl)

/-- A fallback value comes from the back-end that is named. -/
theorem backend_of_dce {v : ℤ} (h : (s.dce i).2 = some v) :
    (s.dce i).1.dceSampler.backendName ≠ .none := by
  rw [dce, sampleDce] at h ⊢
  split_ifs at h ⊢
  exact DceFpsSampler.backend_of_sample h

/-- A valid call of the filter is for a game that was observed, and its value was
    produced for this game by its source. -/
theorem produced_of_valid (hs : s.AttachedToGame) (hv : (s.iterate i).2.filterCall.Valid) :
    i.gamePid = some (s.iterate i).2.filterCall.pid ∧
      (s.iterate i).2.Produced (s.iterate i).2.filterCall.pid (s.iterate i).2.filterCall.value
        (s.iterate i).2.filterCall.source := by
  have hpid : (s.iterate i).2.filterCall.pid = i.gamePid.getD (-1) := by
    change (s.ensured i).1.stableGamePid = _
    rw [ensured_frame, chosen_frame, observed_stableGamePid]
  have hgame : i.gamePid = some (s.iterate i).2.filterCall.pid := by
    have := hv.pid
    rw [hpid] at this ⊢
    cases hg : i.gamePid with
    | none => rw [hg] at this; exact absurd this (by decide)
    | some g => rfl
  refine ⟨hgame, ?_⟩
  have hsource : (s.iterate i).2.filterCall.source = (s.chosen i).2 := rfl
  have hvalue : (s.chosen i).1.haveFps = true →
      (s.iterate i).2.filterCall.value = (s.chosen i).1.latestFps := by
    intro h
    change (if (s.ensured i).1.haveFps then some (s.ensured i).1.latestFps else none).getD 0 = _
    rw [ensured_frame]
    simp only [if_pos h, Option.getD_some]
  rw [hsource]
  -- The value is one of VideoOut, which is attached to the game, or one of the fallback.
  rcases chosen_spec s i with ⟨h, hh, hf⟩ | ⟨h, hh, hd⟩ | h
  · rw [h, hvalue hh]
    cases hr : (s.videoOut i).2 with
    | idle | attach ok => rw [hr] at hf; cases hf
    | sampled pid fps =>
      obtain ⟨-, hp⟩ := hs.videoOut.1 pid fps hr
      rw [hr] at hf
      obtain rfl : pid = _ := Option.some_injective _ (hp.symm.trans hgame)
      exact hr.trans (congrArg _ hf)
  · rw [h, hvalue hh]
    have hb := backend_of_dce hd
    cases hn : (s.dce i).1.dceSampler.backendName with
    | none => exact absurd hn hb
    | henShared | dceFixed | dceAdaptive => exact ⟨hn, hd⟩
  · exact absurd (hsource.trans h) hv.source

/-- A packet that is not a loading one carries the value that the filter shows. -/
theorem fps_of_sent {packet : WirePacket} (h : (s.iterate i).2.sent = some packet)
    (hl : packet.loading = 0) : ∃ v, (s.iterate i).2.displayFps = some v ∧
      ValidDisplayRate v ∧ packet.fps.toInt = v := by
  have hp : ∃ n, packet =
      makeWirePacket (overlayFrame (s.iterate i).2.displayFps i.config) n := by
    change Prod.snd (send _ _ _) = _ at h
    rw [send] at h
    split_ifs at h
    exact ⟨_, (Option.some_injective _ h).symm⟩
  obtain ⟨n, rfl⟩ := hp
  have hv := mt (flag_ne_zero _).2 (not_not.2 hl)
  rw [not_or, not_not] at hv
  cases hd : (s.iterate i).2.displayFps with
  | none => exact absurd (hd ▸ rfl) hv.1
  | some v =>
    rw [hd] at hv
    exact ⟨v, rfl, hv.2, (toInt_makeWirePacket_fps _ n).trans (wireFps_of_validDisplayRate hv.2)⟩

end Worker

open Worker

namespace worker

variable (ι : ℕ → WorkerInput)

theorem attached_to_game (n : ℕ) : (worker.state ι n).AttachedToGame := by
  induction n with
  | zero =>
    rw [Driven.state_zero]
    exact fun h => absurd h.1 (by decide)
  | succ n ih =>
    rw [Driven.state_succ]
    intro h
    simp only [worker, iterate_sampler, iterate_stableGamePid] at h ⊢
    exact ih.videoOut.2 h

/-- The calls of the filter. -/
def call (n : ℕ) : FilterCall := (worker.output ι n).filterCall

/-- The filter acts as if it had only been called since the iteration `r`. -/
theorem filter_restarted (n : ℕ) : ∃ r k, n = r + k ∧
    ((worker.state ι n).observeShellui (ι n).shelluiPid).displayFilter =
      displayFilter.state (fun i => call ι (r + i)) k := by
  have hreset (s : Worker) (pid : ℤ) : (s.observeShellui pid).displayFilter = s.displayFilter ∨
      (s.observeShellui pid).displayFilter = {} := by
    rw [observeShellui]
    split_ifs
    exacts [.inl rfl, .inr rfl, .inl rfl]
  induction n with
  | zero =>
    refine ⟨0, 0, rfl, ?_⟩
    rcases hreset (worker.state ι 0) (ι 0).shelluiPid with h | h <;> exact h
  | succ n ih =>
    rcases hreset (worker.state ι (n + 1)) (ι (n + 1)).shelluiPid with h | h
    · obtain ⟨r, k, rfl, hf⟩ := ih
      refine ⟨r, k + 1, rfl, h.trans ?_⟩
      rw [Driven.state_succ, Driven.state_succ, ← hf]
      exact iterate_displayFilter
    · exact ⟨n + 1, 0, rfl, h⟩

/-- A value shown was measured in an epoch of the filter's calls. -/
theorem displayed {n : ℕ} {v : ℤ} (h : (worker.output ι n).displayFps = some v) :
    ∃ j ≤ n, (∀ i, j ≤ i → i ≤ n → (call ι i).Valid ∧ (call ι i).pid = (call ι j).pid ∧
        (call ι i).source = (call ι j).source) ∧
      (∃ k, j ≤ k ∧ k ≤ n ∧ (call ι k).value = v) ∧
      (call ι j).nowUs + 5000000 ≤ (call ι n).nowUs := by
  obtain ⟨r, n, rfl, hf⟩ := filter_restarted ι n
  have hout : displayFilter.output (fun i => call ι (r + i)) n = some v := by
    rw [← h, Driven.output, ← hf]
    exact iterate_displayFps.symm
  obtain ⟨j, hj, hset, k, hjk, hkn, hm⟩ := displayed_spec hout
  refine ⟨r + j, by have := hj.le; omega, fun i h₁ h₂ => ?_, ⟨r + k, by omega, by omega, ?_⟩, ?_⟩
  · obtain ⟨i, rfl⟩ := Nat.exists_eq_add_of_le (Nat.le_of_add_right_le h₁)
    exact ⟨hj.valid i (by omega) (by omega), (hj.mono (by omega) (by omega)).same⟩
  · rw [FilterCall.value, hm, Option.getD_some]
  · have := hset.1
    dsimp only at this
    omega

end worker

/-- A packet that is not a loading one carries a rate of the game that is
    running. It was produced by the source in use, in the stretch of at least 5 s
    during which this source gave every value, for this game. -/
theorem shown_is_current (ι : ℕ → WorkerInput) (k : ℕ) (packet : WirePacket)
    (hsent : (worker.output ι k).sent = some packet) (hloading : packet.loading = 0) :
    0 ≤ packet.fps.toInt ∧ packet.fps.toInt ≤ 120 ∧
    ∃ g source j, 0 < g ∧ j ≤ k ∧
      (∀ i, j ≤ i → i ≤ k → (ι i).gamePid = some g ∧
        (worker.output ι i).filterCall.source = source ∧
        ∃ f, (worker.output ι i).filterCall.measured = some f ∧
          (worker.output ι i).Produced g f source) ∧
      (∃ i, j ≤ i ∧ i ≤ k ∧ (worker.output ι i).Produced g packet.fps.toInt source) ∧
      (ι j).filterNowUs + 5000000 ≤ (ι k).filterNowUs := by
  obtain ⟨v, hv, hr, hf⟩ := fps_of_sent hsent hloading
  obtain ⟨j, hjk, hstretch, ⟨m, hjm, hmk, hm⟩, htime⟩ := worker.displayed ι hv
  have hproduced (i : ℕ) (h₁ : j ≤ i) (h₂ : i ≤ k) :=
    produced_of_valid (worker.attached_to_game ι i) (hstretch i h₁ h₂).1
  have hpid (i : ℕ) (h₁ : j ≤ i) (h₂ : i ≤ k) := (hstretch i h₁ h₂).2.1
  have hsource (i : ℕ) (h₁ : j ≤ i) (h₂ : i ≤ k) := (hstretch i h₁ h₂).2.2
  rw [hf]
  refine ⟨hr.1, hr.2, (worker.call ι j).pid, (worker.call ι j).source, j,
    (hstretch j le_rfl hjk).1.pid, hjk, fun i h₁ h₂ => ?_, ⟨m, hjm, hmk, ?_⟩, htime⟩
  · obtain ⟨hg, hp⟩ := hproduced i h₁ h₂
    rw [← hpid i h₁ h₂, ← hsource i h₁ h₂]
    exact ⟨hg, rfl, _, (hstretch i h₁ h₂).1.measured, hp⟩
  · rw [← hpid m hjm hmk, ← hsource m hjm hmk, ← hm]
    exact (hproduced m hjm hmk).2

/-- A game from the start, whose rate is shared by the host environment. -/
def sharedRateInput (n : ℕ) : WorkerInput where
  shelluiPid := 50
  gamePid := some 99
  nowUs := 1000000 * n
  sample := ⟨true, none, 0⟩
  attach := ⟨0, none, none, 0⟩
  dce := ⟨some ⟨DceFpsSampler.kSharedFpsMagic, 1, .finite 60⟩, 0,
    ⟨⟨false, ⟨false, false, false⟩, false, false⟩, 0, 0, ⟨false, false, false⟩, 0, 0,
      fun _ => 0⟩, 0⟩
  ensure := ⟨50, some 50, ⟨false, false, true⟩, fun _ => ⟨none, 50⟩⟩
  filterNowUs := 1000000 * n
  config := {}

theorem shown_is_current_shared : ∃ packet,
    (worker.output sharedRateInput 9).sent = some packet ∧ packet.loading = 0 ∧
      ∃ g source j, 0 < g ∧ j ≤ 9 ∧ ∃ i, j ≤ i ∧ i ≤ 9 ∧
        (worker.output sharedRateInput i).Produced g packet.fps.toInt source := by
  have h : ((worker.output sharedRateInput 9).sent).map WirePacket.loading = some 0 := by
    decide +kernel
  obtain ⟨packet, hsent, hloading⟩ := Option.map_eq_some_iff.1 h
  obtain ⟨-, -, g, source, j, hg, hj, -, h, -⟩ :=
    shown_is_current sharedRateInput 9 packet hsent hloading
  exact ⟨packet, hsent, hloading, g, source, j, hg, hj, h⟩

end CommonFps
