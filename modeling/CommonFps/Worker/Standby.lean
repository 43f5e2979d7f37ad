import CommonFps.Worker.Shown

/-!
# Standing by

While the worker stands by, the VideoOut counter is to be searched for once a
minute. The timer is armed when the worker starts to stand by, and when a search
fails; not when one succeeds, so that a sampler that is attached and then
detached by a sample is attached again at once.

* `Worker.iterate_other_game`, `Worker.iterate_same_game`, `Worker.videoOut_same_game`:
  what an iteration does to the stand-by;
* `StandsBy`: the worker stands by since an iteration, for one game;
* `Spaced`, `Ended`: the policy, for the searches and for the end of a stand-by;
* `Sticks`: an attached sampler is not detached within a minute;
* `spaced_iff_sticks`: the policy is kept exactly under this condition.
-/

namespace CommonFps

/-- Neither VideoOut nor the fallback gave a value. -/
def WorkerReport.noValue (r : WorkerReport) : Bool := r.videoOut.fps.isNone && r.dceFps.isNone

namespace DceStandby

variable {b : DceStandby} {nowUs : ℕ} {pid : ℤ}

theorem probe_frame (b : DceStandby) (ok : Bool) (nowUs : ℕ) : b.probe ok nowUs =
    { b with nextVideooutProbeUs := (b.probe ok nowUs).nextVideooutProbeUs } := by
  rw [probe]
  split_ifs <;> rfl

/-- A fallback value makes the worker stand by for the game, unless VideoOut is
    attached. -/
theorem hit_of_active {attached : Bool} (h : (b.hit attached pid nowUs).active = true)
    (hb : b.active = true → b.pid = pid) :
    (b.hit attached pid nowUs).pid = pid ∧
      (b.active = true → (b.hit attached pid nowUs).nextVideooutProbeUs = b.nextVideooutProbeUs) ∧
      (b.active = false → attached = false ∧
        (b.hit attached pid nowUs).nextVideooutProbeUs = probeTime nowUs) := by
  cases attached with
  | true => exact ⟨hb h, fun _ => rfl, fun hn => absurd (h.symm.trans hn) (by decide)⟩
  | false =>
    refine ⟨rfl, fun ha => if_neg ?_, fun hn => ⟨rfl, if_pos (.inl hn)⟩⟩
    simp [ha, hb ha]

theorem hit_active (h : b.active = true) (attached : Bool) (pid : ℤ) (nowUs : ℕ) :
    (b.hit attached pid nowUs).active = true := by
  cases attached with
  | true => exact h
  | false => rfl

/-- A miss ends the stand-by, or leaves it as it is but for the misses. -/
theorem miss_of_active (h : (b.miss true).active = true) : b.active = true ∧
    (b.miss true).pid = b.pid ∧ (b.miss true).nextVideooutProbeUs = b.nextVideooutProbeUs := by
  rw [miss] at h ⊢
  split_ifs at h ⊢
  · exact ⟨h, rfl, rfl⟩
  · exact ⟨h, rfl, rfl⟩

end DceStandby

namespace Worker

variable {s : Worker} {i : WorkerInput}

theorem observed_of_same_game (h : i.gamePid = some s.stableGamePid) :
    (s.observed i).sampler = s.sampler ∧ (s.observed i).dceStandby = s.dceStandby := by
  rw [observed, h, observeShellui_frame, observeGame]
  simp

theorem observed_of_other_game (h : i.gamePid ≠ some s.stableGamePid) :
    ¬(s.observed i).sampler.Attached ∧ (s.observed i).dceStandby = {} ∧
      (s.observed i).stableGameObservations ≤ 1 := by
  rw [observed, observeShellui_frame]
  cases hg : i.gamePid with
  | none => exact ⟨FpsSampler.not_attached_reset _, rfl, Nat.zero_le 1⟩
  | some pid =>
    rw [hg] at h
    rw [observeGame, if_neg fun hp => h (congrArg some hp)]
    exact ⟨FpsSampler.not_attached_reset _, rfl, le_rfl⟩

/-- Once the game has changed, nothing is left of the stand-by. -/
theorem iterate_other_game (h : i.gamePid ≠ some s.stableGamePid) :
    (s.iterate i).1.dceStandby = {} := by
  obtain ⟨ha, hb, ho⟩ := observed_of_other_game h
  have hv : (s.videoOut i).2.fps = none ∧ (s.videoOut i).1.dceStandby = {} := by
    rw [videoOut, sampleVideoOut, if_neg ha]
    cases i.gamePid with
    | none => exact ⟨rfl, hb⟩
    | some pid =>
      dsimp only
      split_ifs
      · rw [attachVideoOut, hb]
        exact ⟨rfl, by simp [DceStandby.probe]⟩
      · exact ⟨rfl, hb⟩
  have hd : (s.dce i).2 = none ∧ (s.dce i).1.dceStandby = {} := by
    have hready : ¬(s.videoOut i).1.GameReady := by
      rw [videoOut, sampleVideoOut_frame]
      exact fun h => absurd (h.2.trans ho) (by decide)
    rw [dce, sampleDce, if_neg hready]
    exact ⟨rfl, hv.2⟩
  rw [iterate_dceStandby, chosen, hv.1, hd.1]
  cases hg : i.gamePid <;> simp [chooseSource, hg, hd.2, DceStandby.miss]

/-- A value of VideoOut ends the stand-by, one of the fallback starts or continues
    it, and none is a miss. -/
theorem iterate_same_game (h : i.gamePid = some s.stableGamePid) :
    ((s.videoOut i).2.fps ≠ none ∧ (s.iterate i).1.dceStandby = {}) ∨
    ((s.videoOut i).2.fps = none ∧ (s.dce i).2 ≠ none ∧ 0 < s.stableGamePid ∧
      (s.iterate i).1.dceStandby = (s.videoOut i).1.dceStandby.hit
        (decide (s.videoOut i).1.sampler.Attached) s.stableGamePid i.nowUs) ∨
    ((s.videoOut i).2.fps = none ∧ (s.dce i).2 = none ∧
      (s.iterate i).1.dceStandby = (s.videoOut i).1.dceStandby.miss true) := by
  have hg : (s.videoOut i).1.stableGamePid = s.stableGamePid := by
    rw [videoOut, sampleVideoOut_frame]
    rw [observed_stableGamePid, h, Option.getD_some]
  have hd : (s.dce i).1.dceStandby = (s.videoOut i).1.dceStandby ∧
      (s.dce i).1.sampler = (s.videoOut i).1.sampler := by
    rw [dce, sampleDce_frame]
    exact ⟨rfl, rfl⟩
  rw [iterate_dceStandby, chosen]
  cases hv : (s.videoOut i).2.fps with
  | some fps => exact .inl ⟨Option.some_ne_none _, rfl⟩
  | none =>
    cases hf : (s.dce i).2 with
    | some fps =>
      refine .inr (.inl ⟨rfl, Option.some_ne_none _, ?_, ?_⟩)
      · rw [dce, sampleDce] at hf
        split_ifs at hf with hready
        exact hg ▸ hready.1
      · simp only [chooseSource, h, hd.1, hd.2]
    | none =>
      refine .inr (.inr ⟨rfl, rfl, ?_⟩)
      simp only [chooseSource, h, hd.1, Option.isSome_some]

/-- What becomes of VideoOut while the game stays the same. -/
theorem videoOut_same_game (h : i.gamePid = some s.stableGamePid) :
    (s.sampler.Attached ∧ (∃ fps, (s.videoOut i).2 = .sampled s.sampler.pid fps) ∧
      (s.videoOut i).1.dceStandby = s.dceStandby ∧
      ((s.videoOut i).1.sampler.Attached ↔ i.sample.alive = true ∧ i.sample.counter ≠ none)) ∨
    (¬s.sampler.Attached ∧ s.dceStandby.ProbeDue i.nowUs ∧
      ∃ ok, (s.videoOut i).2 = .attach ok ∧
        (s.videoOut i).1.dceStandby = s.dceStandby.probe ok i.nowUs ∧
        ((s.videoOut i).1.sampler.Attached ↔
          ok = true ∧ 0 ≤ s.stableGamePid ∧ i.attach.counterAddress ≠ some 0)) ∨
    (¬s.sampler.Attached ∧ ¬s.dceStandby.ProbeDue i.nowUs ∧ (s.videoOut i).2 = .idle ∧
      (s.videoOut i).1.dceStandby = s.dceStandby ∧ ¬(s.videoOut i).1.sampler.Attached) := by
  obtain ⟨hs, hb⟩ := observed_of_same_game h
  rw [videoOut, sampleVideoOut, hs, hb]
  by_cases ha : s.sampler.Attached
  · rw [if_pos ha]
    refine .inl ⟨ha, ⟨_, rfl⟩, rfl, ?_⟩
    rw [(FpsSampler.attached_sample s.sampler i.sample).1, and_iff_right ha]
  · rw [if_neg ha, h]
    dsimp only
    by_cases hdue : s.dceStandby.ProbeDue i.nowUs
    · rw [if_pos hdue, attachVideoOut, hs, hb]
      exact .inr (.inl ⟨ha, hdue, _, rfl, rfl, (FpsSampler.attached_attach ha).1⟩)
    · rw [if_neg hdue]
      exact .inr (.inr ⟨ha, hdue, rfl, hb, hs ▸ ha⟩)

end Worker

open Worker

/-! ## The policy -/

section Policy

variable (ι : ℕ → WorkerInput)

/-- The worker stands by before the iteration `n`. -/
def Standing (n : ℕ) : Prop := (worker.state ι n).dceStandby.active = true

/-- The iteration `n` observes the current game. -/
def SameGame (n : ℕ) : Prop := (ι n).gamePid = some (worker.state ι n).stableGamePid

/-- The iteration `n` searches for the VideoOut counter. -/
def Searches (n : ℕ) : Prop := ∃ ok, (worker.output ι n).videoOut = .attach ok

/-- The worker started to stand by in the iteration `e`, and still does, for the
    same game, when the iteration `n` samples VideoOut. -/
structure StandsBy (e n : ℕ) : Prop where
  lt : e < n
  enters : ¬Standing ι e
  standing : ∀ k, e < k → k ≤ n → Standing ι k
  sameGame : SameGame ι n

/-- While the worker stands by, two searches are at least 60 s apart, and the
    first one is at least 60 s after the start. -/
def Spaced : Prop :=
  (∀ e n, StandsBy ι e n → Searches ι n → (ι e).nowUs + 60000000 ≤ (ι n).nowUs) ∧
    ∀ e m n, StandsBy ι e n → e < m → m < n → Searches ι m → Searches ι n →
      (ι m).nowUs + 60000000 ≤ (ι n).nowUs

/-- A stand-by only ends by a change or loss of the game, by a value of VideoOut,
    or by three iterations in a row without a value. -/
def Ended : Prop :=
  ∀ n, Standing ι n → ¬Standing ι (n + 1) →
    ¬SameGame ι n ∨ (worker.output ι n).videoOut.fps ≠ none ∨
      LastAre (fun k => (worker.output ι k).noValue) (n + 1) 3 true

/-- After a search that succeeded while standing by, VideoOut is not detached
    before a minute has passed: the counter is not at the address `0`, and stays
    readable in a process that stays alive. -/
def Sticks : Prop :=
  ∀ e m n, StandsBy ι e (n + 1) → e < m → m ≤ n →
    (worker.output ι m).videoOut = .attach true → (ι (n + 1)).nowUs < (ι m).nowUs + 60000000 →
    (m = n → (ι m).attach.counterAddress ≠ some 0) ∧
      (m < n → (ι n).sample.alive = true ∧ (ι n).sample.counter ≠ none)

end Policy

namespace worker

variable {ι : ℕ → WorkerInput} {e m n k : ℕ}

/-- The time of the next search. -/
def nextUs (ι : ℕ → WorkerInput) (n : ℕ) : ℕ :=
  (worker.state ι n).dceStandby.nextVideooutProbeUs

/-- VideoOut is attached before the iteration `n`. -/
def Attached (ι : ℕ → WorkerInput) (n : ℕ) : Prop := (worker.state ι n).sampler.Attached

/-- What the search, if it is made, does to the timer. -/
def armedUs (ι : ℕ → WorkerInput) (n : ℕ) : ℕ :=
  ((worker.state ι n).videoOut (ι n)).1.dceStandby.nextVideooutProbeUs

theorem sameGame_of_standing (h : Standing ι (n + 1)) : SameGame ι n := by
  by_contra hg
  have := iterate_other_game hg
  rw [Standing, Driven.state_succ] at h
  exact absurd ((congrArg DceStandby.active this).symm.trans h) (by decide)

/-- The game stays the current one. -/
theorem stableGamePid_of_sameGame (h : SameGame ι n) :
    (worker.state ι (n + 1)).stableGamePid = (worker.state ι n).stableGamePid := by
  refine iterate_stableGamePid.trans ?_
  rw [observed_stableGamePid, h, Option.getD_some]

/-- The search does not end or start a stand-by. -/
theorem videoOut_dceStandby (h : SameGame ι n) :
    ((worker.state ι n).videoOut (ι n)).1.dceStandby =
      { (worker.state ι n).dceStandby with nextVideooutProbeUs := armedUs ι n } := by
  rw [armedUs]
  rcases videoOut_same_game h with ⟨-, -, hb, -⟩ | ⟨-, -, ok, -, hb, -⟩ | ⟨-, -, -, hb, -⟩
  · rw [hb]
  · rw [hb]
    exact DceStandby.probe_frame _ ok _
  · rw [hb]

/-- An iteration after which the worker stands by: it did so before, or starts to. -/
structure StandStep (ι : ℕ → WorkerInput) (n : ℕ) : Prop where
  positive : 0 < (worker.state ι (n + 1)).stableGamePid
  pid : (worker.state ι (n + 1)).dceStandby.pid = (worker.state ι (n + 1)).stableGamePid
  armed : Standing ι n → nextUs ι (n + 1) = armedUs ι n
  enters : ¬Standing ι n →
    ¬Attached ι (n + 1) ∧ nextUs ι (n + 1) = DceStandby.probeTime (ι n).nowUs

theorem dceStandby_succ (ι : ℕ → WorkerInput) (n : ℕ) : (worker.state ι (n + 1)).dceStandby =
    ((worker.state ι n).iterate (ι n)).1.dceStandby := rfl

theorem noValue_of_none (hv : ((worker.state ι n).videoOut (ι n)).2.fps = none)
    (hd : ((worker.state ι n).dce (ι n)).2 = none) : (worker.output ι n).noValue = true := by
  rw [WorkerReport.noValue, Bool.and_eq_true, Option.isNone_iff_eq_none, Option.isNone_iff_eq_none]
  exact ⟨hv, hd⟩

theorem standStep (h : Standing ι (n + 1))
    (ih : Standing ι n → 0 < (worker.state ι n).stableGamePid ∧
      (worker.state ι n).dceStandby.pid = (worker.state ι n).stableGamePid) :
    StandStep ι n := by
  have hg := sameGame_of_standing h
  have hpid := stableGamePid_of_sameGame hg
  have hmid := videoOut_dceStandby hg
  have hactive := congrArg DceStandby.active hmid
  have hsampler : (worker.state ι (n + 1)).sampler =
    ((worker.state ι n).videoOut (ι n)).1.sampler := iterate_sampler
  -- A value of VideoOut ended the stand-by; else the fallback gave a value, or missed.
  rcases iterate_same_game hg with ⟨-, he⟩ | ⟨-, -, hpos, he⟩ | ⟨-, -, he⟩
  · rw [Standing, dceStandby_succ, he] at h
    exact absurd h (by decide)
  · rw [Standing, dceStandby_succ, he] at h
    obtain ⟨hp, ha, hn⟩ := DceStandby.hit_of_active h (by rw [hmid]; exact fun ha => (ih ha).2)
    rw [← he, ← dceStandby_succ] at hp ha hn
    refine ⟨hpid ▸ hpos, hp.trans hpid.symm, fun hs => ha (hactive.trans hs), fun hs => ?_⟩
    obtain ⟨hat, ht⟩ := hn (hactive.trans (Bool.not_eq_true _ ▸ hs))
    refine ⟨?_, ht⟩
    rw [Attached, hsampler]
    exact of_decide_eq_false hat
  · rw [Standing, dceStandby_succ, he] at h
    obtain ⟨ha, hp, ht⟩ := DceStandby.miss_of_active h
    rw [← he, ← dceStandby_succ] at hp ht
    have ha := hactive.symm.trans ha
    obtain ⟨hpos, hg'⟩ := ih ha
    refine ⟨hpid ▸ hpos, ?_, fun _ => ht, fun hs => absurd ha hs⟩
    rw [hpid, hp, hmid]
    exact hg'

/-- The worker stands by for the current game. -/
theorem standing_game (h : Standing ι n) : 0 < (worker.state ι n).stableGamePid ∧
    (worker.state ι n).dceStandby.pid = (worker.state ι n).stableGamePid := by
  induction n with
  | zero => cases h
  | succ n ih => exact ⟨(standStep h ih).positive, (standStep h ih).pid⟩

/-- The misses in a row are counted. -/
theorem missed (ι : ℕ → WorkerInput) (n : ℕ) :
    LastAre (fun k => (worker.output ι k).noValue) n (worker.state ι n).dceStandby.missStreak
      true := by
  induction n with
  | zero => exact .zero _ _ _
  | succ n ih =>
    rw [dceStandby_succ]
    by_cases hg : SameGame ι n
    · rcases iterate_same_game hg with ⟨-, he⟩ | ⟨-, -, -, he⟩ | ⟨hv, hd, he⟩
      · rw [he]
        exact .zero _ _ _
      · rw [he, DceStandby.hit]
        split_ifs <;> exact .zero _ _ _
      · have hno := noValue_of_none hv hd
        rw [he, videoOut_dceStandby hg, DceStandby.miss]
        split_ifs
        · exact .zero _ _ _
        · exact ih.succ hno
        · exact (ih.succ hno).mono (Nat.le_succ _)
    · rw [iterate_other_game hg]
      exact .zero _ _ _

/-- Stand-bys end as they should, in every run. -/
theorem ended (ι : ℕ → WorkerInput) : Ended ι := by
  intro n hn hn'
  by_cases hg : SameGame ι n
  · refine .inr ?_
    rcases iterate_same_game hg with ⟨hv, -⟩ | ⟨-, -, -, he⟩ | ⟨hv, hd, he⟩
    · exact .inl hv
    · refine absurd ?_ hn'
      rw [Standing, dceStandby_succ, he, videoOut_dceStandby hg]
      apply DceStandby.hit_active
      exact hn
    · refine .inr ?_
      have hno := noValue_of_none hv hd
      have hmiss : 3 ≤ (worker.state ι n).dceStandby.missStreak + 1 := by
        rw [Standing, dceStandby_succ, he, videoOut_dceStandby hg, DceStandby.miss,
          if_pos ⟨hn, rfl⟩] at hn'
        by_contra hlt
        exact hn' ((congrArg DceStandby.active (if_neg hlt)).trans hn)
      exact ((missed ι n).succ hno).mono hmiss
  · exact .inl hg

/-! ### The timer -/

/-- An iteration while standing by: VideoOut is sampled, or its counter is searched
    for, with success or not, or it is too early for that. -/
theorem standing_cases (h : Standing ι n) (h' : Standing ι (n + 1)) :
    (Attached ι n ∧ ¬Searches ι n ∧ nextUs ι (n + 1) = nextUs ι n ∧
      (Attached ι (n + 1) ↔ (ι n).sample.alive = true ∧ (ι n).sample.counter ≠ none)) ∨
    (¬Attached ι n ∧ nextUs ι n ≤ (ι n).nowUs ∧ (worker.output ι n).videoOut = .attach true ∧
      nextUs ι (n + 1) = nextUs ι n ∧
      (Attached ι (n + 1) ↔ (ι n).attach.counterAddress ≠ some 0)) ∨
    (¬Attached ι n ∧ nextUs ι n ≤ (ι n).nowUs ∧ (worker.output ι n).videoOut = .attach false ∧
      nextUs ι (n + 1) = DceStandby.probeTime (ι n).nowUs ∧ ¬Attached ι (n + 1)) ∨
    (¬Attached ι n ∧ ¬Searches ι n ∧ nextUs ι (n + 1) = nextUs ι n ∧ ¬Attached ι (n + 1)) := by
  have hnext := (standStep h' standing_game).armed h
  have hpos := (standing_game h).1
  have hactive : (worker.state ι n).dceStandby.active = true := h
  have hsampler : (worker.state ι (n + 1)).sampler =
    ((worker.state ι n).videoOut (ι n)).1.sampler := iterate_sampler
  have hreport : (worker.output ι n).videoOut = ((worker.state ι n).videoOut (ι n)).2 := rfl
  rw [armedUs] at hnext
  rcases videoOut_same_game (sameGame_of_standing h') with
    ⟨ha, ⟨fps, hr⟩, hb, ha'⟩ | ⟨ha, hdue, ok, hr, hb, ha'⟩ | ⟨ha, -, hr, hb, ha'⟩
  · rw [hb] at hnext
    refine .inl ⟨ha, fun ⟨ok, hs⟩ => ?_, hnext, ?_⟩
    · rw [hreport, hr] at hs
      cases hs
    · rw [Attached, hsampler]
      exact ha'
  · have hdue : nextUs ι n ≤ (ι n).nowUs := by
      simpa [DceStandby.ProbeDue, hactive, nextUs] using hdue
    rw [hb, DceStandby.probe] at hnext
    cases ok with
    | true =>
      refine .inr (.inl ⟨ha, hdue, hr, by simpa [nextUs] using hnext, ?_⟩)
      rw [Attached, hsampler, ha']
      simp [hpos.le]
    | false =>
      refine .inr (.inr (.inl ⟨ha, hdue, hr, by simpa [hactive] using hnext, ?_⟩))
      rw [Attached, hsampler, ha']
      simp
  · rw [hb] at hnext
    refine .inr (.inr (.inr ⟨ha, fun ⟨ok, hs⟩ => ?_, hnext, ?_⟩))
    · rw [hreport, hr] at hs
      cases hs
    · rwa [Attached, hsampler]

/-- While standing by, the counter is searched for exactly if VideoOut is not
    attached and the time has come. -/
theorem searches_iff (h : Standing ι n) (hg : SameGame ι n) :
    Searches ι n ↔ ¬Attached ι n ∧ nextUs ι n ≤ (ι n).nowUs := by
  have hactive : (worker.state ι n).dceStandby.active = true := h
  have hreport : (worker.output ι n).videoOut = ((worker.state ι n).videoOut (ι n)).2 := rfl
  have hdue' : (worker.state ι n).dceStandby.ProbeDue (ι n).nowUs ↔ nextUs ι n ≤ (ι n).nowUs := by
    simp [DceStandby.ProbeDue, hactive, nextUs]
  rw [Searches, hreport, ← hdue']
  rcases videoOut_same_game hg with ⟨ha, ⟨fps, hr⟩, -⟩ | ⟨ha, hdue, ok, hr, -⟩ |
    ⟨ha, hdue, hr, -⟩
  · simp [hr, Attached, ha]
  · simp [hr, Attached, ha, hdue]
  · simp [hr, Attached, ha, hdue]

theorem standsBy_mono (h : StandsBy ι e n) (hk : e < k) (hn : k ≤ n) : StandsBy ι e k := by
  refine ⟨hk, h.enters, fun i h₁ h₂ => h.standing i h₁ (h₂.trans hn), ?_⟩
  rcases hn.eq_or_lt with rfl | hn
  · exact h.sameGame
  · exact sameGame_of_standing (h.standing (k + 1) (hk.trans k.lt_succ_self) hn)

section Clock

variable (hmono : Monotone fun n => (ι n).nowUs) (hclock : ∀ n, (ι n).nowUs + 60000000 < 2 ^ 64)

include hclock in
theorem probeTime_eq (n : ℕ) : DceStandby.probeTime (ι n).nowUs = (ι n).nowUs + 60000000 :=
  Nat.mod_eq_of_lt (hclock n)

include hmono hclock

/-- The first search comes a minute after the start. -/
theorem first_spaced (h : StandsBy ι e n) (hn : Searches ι n) :
    (ι e).nowUs + 60000000 ≤ (ι n).nowUs := by
  have hk (k : ℕ) (hek : e < k) : k ≤ n →
      ((ι e).nowUs + 60000000 ≤ nextUs ι k ∧ ¬Attached ι k) ∨
        (ι e).nowUs + 60000000 ≤ (ι k).nowUs := by
    induction k, hek using Nat.le_induction with
    | base =>
      intro hn
      obtain ⟨ha, ht⟩ := (standStep (h.standing _ e.lt_succ_self hn) standing_game).enters h.enters
      exact .inl ⟨(ht.trans (probeTime_eq hclock e)).ge, ha⟩
    | succ k hek ih =>
      intro hn
      have hle : (ι k).nowUs ≤ (ι (k + 1)).nowUs := hmono k.le_succ
      rcases ih (k.le_succ.trans hn) with ⟨ht, ha⟩ | ht
      · rcases standing_cases (h.standing k hek (k.le_succ.trans hn))
          (h.standing _ (Nat.lt_succ_of_lt hek) hn) with
          ⟨ha', -⟩ | ⟨-, hdue, -⟩ | ⟨-, hdue, -⟩ | ⟨-, -, hsame, ha'⟩
        · exact absurd ha' ha
        · exact .inr (by omega)
        · exact .inr (by omega)
        · exact .inl ⟨hsame ▸ ht, ha'⟩
      · exact .inr (by omega)
  rcases hk n h.lt le_rfl with ⟨ht, -⟩ | ht
  · exact ht.trans ((searches_iff (h.standing n h.lt le_rfl) h.sameGame).1 hn).2
  · exact ht

/-- Two searches are a minute apart, if VideoOut is not detached within a minute. -/
theorem next_spaced (hs : Sticks ι) (h : StandsBy ι e n) (hm : e < m) (hmn : m < n)
    (hsm : Searches ι m) (hsn : Searches ι n) : (ι m).nowUs + 60000000 ≤ (ι n).nowUs := by
  -- Up to the next search, either the timer is armed late enough, or the first search has attached and the
  -- sampler is attached since, or the minute is over.
  have hk (k : ℕ) (hmk : m < k) : k ≤ n →
      (ι m).nowUs + 60000000 ≤ nextUs ι k ∨
        ((worker.output ι m).videoOut = .attach true ∧ Attached ι k) ∨
        (ι m).nowUs + 60000000 ≤ (ι k).nowUs := by
    induction k, hmk using Nat.le_induction with
    | base =>
      intro hn
      rcases standing_cases (h.standing m hm hmn.le)
        (h.standing _ (hm.trans m.lt_succ_self) hn) with
        ⟨-, hno, -⟩ | ⟨-, -, hr, -, ha⟩ | ⟨-, -, -, ht, -⟩ | ⟨-, hno, -⟩
      · exact absurd hsm hno
      · by_cases ht : (ι (m + 1)).nowUs < (ι m).nowUs + 60000000
        · have := hs e m m (standsBy_mono h (hm.trans m.lt_succ_self) hn) hm le_rfl hr ht
          exact .inr (.inl ⟨hr, ha.2 (this.1 rfl)⟩)
        · exact .inr (.inr (not_lt.1 ht))
      · exact .inl (ht.trans (probeTime_eq hclock m)).ge
      · exact absurd hsm hno
    | succ k hmk ih =>
      intro hn
      have hle : (ι k).nowUs ≤ (ι (k + 1)).nowUs := hmono k.le_succ
      have hek : e < k := hm.trans hmk
      have hcases := standing_cases (h.standing k hek (k.le_succ.trans hn))
        (h.standing _ (hek.trans k.lt_succ_self) hn)
      rcases ih (k.le_succ.trans hn) with ht | ⟨hr, ha⟩ | ht
      · rcases hcases with ⟨-, -, hsame, -⟩ | ⟨-, hdue, -⟩ | ⟨-, hdue, -⟩ | ⟨-, -, hsame, -⟩
        · exact .inl (hsame ▸ ht)
        · exact .inr (.inr (by omega))
        · exact .inr (.inr (by omega))
        · exact .inl (hsame ▸ ht)
      · rcases hcases with ⟨-, -, -, ha'⟩ | ⟨ha', -⟩ | ⟨ha', -⟩ | ⟨ha', -⟩
        · by_cases ht : (ι (k + 1)).nowUs < (ι m).nowUs + 60000000
          · -- Within the minute, an attached sampler stays so.
            have := hs e m k (standsBy_mono h (hek.trans k.lt_succ_self) hn) hm (Nat.le_of_lt hmk) hr ht
            exact .inr (.inl ⟨hr, ha'.2 (this.2 hmk)⟩)
          · exact .inr (.inr (not_lt.1 ht))
        · exact absurd ha ha'
        · exact absurd ha ha'
        · exact absurd ha ha'
      · exact .inr (.inr (by omega))
  obtain ⟨hna, hdue⟩ := (searches_iff (h.standing n h.lt le_rfl) h.sameGame).1 hsn
  rcases hk n hmn le_rfl with ht | ⟨-, ha⟩ | ht
  · exact ht.trans hdue
  · exact absurd ha hna
  · exact ht

omit hclock in
/-- If two searches are always a minute apart, VideoOut is not detached within a
    minute: it would be searched for at once. -/
theorem sticks (hs : Spaced ι) : Sticks ι := by
  intro e m n h hm hmn hr ht
  have hnosearch (k : ℕ) (hmk : m < k) (hkn : k ≤ n + 1) : ¬Searches ι k := fun hk => by
    have := hs.2 e m k (standsBy_mono h (hm.trans hmk) hkn) hm hmk ⟨true, hr⟩ hk
    have hle : (ι k).nowUs ≤ (ι (n + 1)).nowUs := hmono hkn
    omega
  have hstanding (k : ℕ) (hmk : m ≤ k) (hkn : k ≤ n + 1) : Standing ι k :=
    h.standing k (hm.trans_le hmk) hkn
  -- Where the timer is over already, a detached sampler would be searched for at once.
  have hattached (k : ℕ) (hmk : m < k) (hkn : k ≤ n + 1) (ht : nextUs ι k ≤ (ι m).nowUs) :
      Attached ι k := by
    have hle : (ι m).nowUs ≤ (ι k).nowUs := hmono hmk.le
    by_contra ha
    exact hnosearch k hmk hkn ((searches_iff (hstanding k hmk.le hkn)
      (standsBy_mono h (hm.trans hmk) hkn).sameGame).2 ⟨ha, ht.trans hle⟩)
  have hfirst : nextUs ι (m + 1) ≤ (ι m).nowUs ∧
      (Attached ι (m + 1) → (ι m).attach.counterAddress ≠ some 0) := by
    rcases standing_cases (hstanding m le_rfl (by omega)) (hstanding (m + 1) (by omega) (by omega))
      with ⟨-, hno, -⟩ | ⟨-, hdue, -, hsame, ha⟩ | ⟨-, -, hr', -⟩ | ⟨-, hno, -⟩
    · exact absurd ⟨true, hr⟩ hno
    · exact ⟨hsame.trans_le hdue, ha.1⟩
    · exact absurd (hr.symm.trans hr') (by decide)
    · exact absurd ⟨true, hr⟩ hno
  -- No search fails in between, so that the timer is not armed again.
  have hnext (k : ℕ) (hmk : m < k) : k ≤ n + 1 → nextUs ι k ≤ (ι m).nowUs := by
    induction k, hmk using Nat.le_induction with
    | base => exact fun _ => hfirst.1
    | succ k hmk ih =>
      intro hkn
      have ht := ih (by omega)
      rcases standing_cases (hstanding k (Nat.le_of_lt hmk) (by omega))
        (hstanding (k + 1) (by omega) hkn) with
        ⟨-, -, hsame, -⟩ | ⟨ha, -⟩ | ⟨ha, -⟩ | ⟨ha, -⟩
      · exact hsame.trans_le ht
      all_goals exact absurd (hattached k hmk (by omega) ht) ha
  refine ⟨fun hmn => ?_, fun hmn => ?_⟩
  · exact hfirst.2 (hattached (m + 1) m.lt_succ_self (by omega) hfirst.1)
  · have ha := hattached n hmn n.le_succ (hnext n hmn n.le_succ)
    have ha' := hattached (n + 1) (by omega) le_rfl (hnext (n + 1) (by omega) le_rfl)
    rcases standing_cases (hstanding n hmn.le n.le_succ) (hstanding (n + 1) (by omega) le_rfl) with
      ⟨-, -, -, h⟩ | ⟨hna, -⟩ | ⟨hna, -⟩ | ⟨hna, -⟩
    · exact h.1 ha'
    all_goals exact absurd ha hna

end Clock

end worker

/-- The policy is kept exactly if VideoOut, attached while standing by, is not
    detached again within a minute. The clock is monotone, and not about to
    overflow. -/
theorem spaced_iff_sticks (ι : ℕ → WorkerInput) (hmono : Monotone fun n => (ι n).nowUs)
    (hclock : ∀ n, (ι n).nowUs + 60000000 < 2 ^ 64) : Spaced ι ∧ Ended ι ↔ Sticks ι :=
  ⟨fun h => worker.sticks hmono h.1, fun h =>
    ⟨⟨fun _ _ => worker.first_spaced hmono hclock,
      fun _ _ _ hs hm hmn => worker.next_spaced hmono hclock h hs hm hmn⟩, worker.ended ι⟩⟩

/-- A run in which the worker stands by from the iteration 2 on; a minute later, it
    attaches VideoOut to the game, whose counter cannot be read. -/
def detachingInput (n : ℕ) : WorkerInput where
  shelluiPid := 50
  gamePid := some 99
  nowUs := if n < 3 then 1000000 * n else 61000000 + 1000000 * min n 6
  sample := ⟨true, none, 0⟩
  attach := ⟨0, if n < 3 then none else some 1, some 1, 0⟩
  dce := ⟨some ⟨DceFpsSampler.kSharedFpsMagic, 1, .finite 60⟩, 0,
    ⟨⟨false, ⟨false, false, false⟩, false, false⟩, 0, 0, ⟨false, false, false⟩, 0, 0,
      fun _ => 0⟩, 0⟩
  ensure := ⟨-1, none, ⟨false, false, true⟩, fun _ => ⟨none, -1⟩⟩
  filterNowUs := 0
  config := {}

theorem standsBy_detaching : StandsBy detachingInput 2 5 := by
  refine ⟨by decide, ?_, fun k h₁ h₂ => ?_, ?_⟩
  · rw [Standing]
    decide +kernel
  · interval_cases k <;> (rw [Standing]; decide +kernel)
  · rw [SameGame]
    decide +kernel

theorem not_spaced_detaching : ¬Spaced detachingInput := by
  intro h
  have := h.2 2 3 5 standsBy_detaching (by decide) (by decide)
    ⟨true, by decide +kernel⟩ ⟨true, by decide +kernel⟩
  exact absurd this (by decide)

theorem not_spaced_iff_sticks_detaching :
    ¬Sticks detachingInput ∧ ¬(Spaced detachingInput ∧ Ended detachingInput) := by
  have hsticks : ¬Sticks detachingInput := by
    intro h
    have := (h 2 3 4 standsBy_detaching (by decide) (by decide)
      (by decide +kernel) (by decide)).2 (by decide)
    exact this.2 rfl
  refine ⟨hsticks, mt (spaced_iff_sticks detachingInput (monotone_nat_of_le_succ fun n => ?_)
    fun n => ?_).1 hsticks⟩
  · simp only [detachingInput]
    split_ifs <;> omega
  · simp only [detachingInput]
    split_ifs <;> omega

end CommonFps
