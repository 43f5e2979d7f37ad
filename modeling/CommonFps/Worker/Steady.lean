import CommonFps.Worker.Gate
import CommonFps.Worker.Shown

/-!
# When the worker shows a rate

A rate is shown as soon as it may be, and only then: once the samplers have given
valid values of one source for one game in every iteration of the last 5 s, with
three timestamps and no gap of more than 3 s, and the ShellUI process that was
observed was always the one of the iteration before.

* `worker.measured`: what the samplers measure in an iteration;
* `worker.call_eq_measured`: this is what the filter is asked;
* `worker.filter_since`: the filter acts as if it had been called since ShellUI
  changed last, or since the start;
* `worker.SteadySince`: the iterations since one of them were steady;
* `worker.displays_iff`: the filter shows something exactly if this lasted long
  enough;
* `worker.online_iff`: when the renderer is online;
* `shows_rate_iff`: what this means for the packets.
-/

namespace CommonFps

open Worker

/-! ## Epochs -/

section Epochs

variable {ι : ℕ → FilterCall} {j n r : ℕ}

theorem timestamps_shift (r j n : ℕ) :
    timestamps (fun i => ι (r + i)) j n = timestamps ι (r + j) (r + n) := by
  rw [timestamps, timestamps, ← Finset.image_add_left_Icc, Finset.image_image]
  rfl

theorem settled_shift (r j n : ℕ) : Settled (fun i => ι (r + i)) j n ↔ Settled ι (r + j) (r + n) := by
  rw [Settled, Settled, timestamps_shift]

/-- What has settled since a later call of an epoch has settled since its start. -/
theorem InEpoch.settled_of_le {i : ℕ} (h : InEpoch ι j n) (hji : j ≤ i) (hi : i ≤ n)
    (hs : Settled ι i n) :
    Settled ι j n := by
  have hle : (ι j).nowUs ≤ (ι i).nowUs := (h.mono hji hi).timestamps.1 _
    (Finset.mem_image.2 ⟨j, Finset.mem_Icc.2 ⟨le_rfl, hji⟩, rfl⟩)
  obtain ⟨htime, hcard⟩ := hs
  refine ⟨by omega, hcard.trans (Finset.card_le_card ?_)⟩
  exact Finset.image_subset_image (Finset.Icc_subset_Icc_left hji)

end Epochs

/-! ## What is measured -/

namespace Worker

variable (s : Worker) (i : WorkerInput)

/-- VideoOut gives a value if it is attached once the processes were observed. -/
theorem videoOut_fps : (s.videoOut i).2.fps =
    if (s.observed i).sampler.Attached then ((s.observed i).sampler.sample i.sample).2 else none := by
  rw [videoOut, sampleVideoOut]
  by_cases hattached : (s.observed i).sampler.Attached
  · rw [if_pos hattached, if_pos hattached]
    rfl
  · rw [if_neg hattached, if_neg hattached]
    cases i.gamePid with
    | none => rfl
    | some pid =>
      dsimp only
      split_ifs <;> rfl

/-- The fallback is sampled once the game is ready, whatever VideoOut did. -/
theorem dce_sampled : (s.dce i).2 =
      (if (s.observed i).GameReady then ((s.observed i).dceSampler.sample i.dce).2 else none) ∧
    ((s.observed i).GameReady →
      (s.dce i).1.dceSampler = ((s.observed i).dceSampler.sample i.dce).1) := by
  have hframe := sampleVideoOut_frame (s.observed i) i
  rw [dce, videoOut, hframe, sampleDce]
  change (if (s.observed i).GameReady then _ else _ : Worker × Option ℤ).2 = _ ∧
    (_ → (if (s.observed i).GameReady then _ else _ : Worker × Option ℤ).1.dceSampler = _)
  split_ifs with hready
  · exact ⟨rfl, fun _ => rfl⟩
  · exact ⟨rfl, fun h => absurd h hready⟩

/-- What the filter is asked, after the source was chosen. -/
theorem iterate_filterCall : (s.iterate i).2.filterCall =
    { measured := if (s.chosen i).1.haveFps then some (s.chosen i).1.latestFps else none
      nowUs := i.filterNowUs, pid := i.gamePid.getD (-1), source := (s.chosen i).2 } := by
  change (s.ensured i).1.filterCall i (s.chosen i).2 = _
  rw [filterCall, ensured_frame]
  dsimp only
  rw [chosen_frame]
  dsimp only
  rw [observed_stableGamePid]

end Worker

namespace worker

variable (ι : ℕ → WorkerInput)

/-- One game was observed in the iteration `n` and in the two before it. -/
def GameSettled (n : ℕ) : Prop :=
  ∃ g ∈ (ι n).gamePid, 0 < g ∧ LastAre (fun k => (ι k).gamePid) (n + 1) 3 (some g)

instance (n : ℕ) : Decidable (GameSettled ι n) := by
  rw [GameSettled]
  infer_instance

/-- What VideoOut gives in the iteration `n`. -/
def videoOutFps (n : ℕ) : Option ℤ :=
  let sampler := ((worker.state ι n).observed (ι n)).sampler
  if sampler.Attached then (sampler.sample (ι n).sample).2 else none

/-- What the fallback gives in the iteration `n`, were it sampled. -/
def fallback (n : ℕ) : DceFpsSampler × Option ℤ :=
  ((worker.state ι n).observed (ι n)).dceSampler.sample (ι n).dce

/-- What the samplers measure in the iteration `n`: the value of VideoOut, or else the one of the
    fallback for a game that has settled, or nothing. -/
def measured (n : ℕ) : FilterCall :=
  let nothing : FilterCall := ⟨none, (ι n).filterNowUs, (ι n).gamePid.getD (-1), .none⟩
  match videoOutFps ι n, if GameSettled ι n then (fallback ι n).2 else none with
  | some fps, _ => { nothing with measured := some fps, source := .videoOut }
  | none, some fps =>
    { nothing with measured := some fps, source := displaySource (fallback ι n).1.backendName }
  | none, none => nothing

/-- The game is ready where it has settled. -/
theorem gameReady_iff (n : ℕ) :
    ((worker.state ι n).observed (ι n)).GameReady ↔ GameSettled ι n := by
  have hpid : (worker.state ι (n + 1)).stableGamePid =
      ((worker.state ι n).observed (ι n)).stableGamePid := iterate_stableGamePid
  have hcount : (worker.state ι (n + 1)).stableGameObservations =
      ((worker.state ι n).observed (ι n)).stableGameObservations := iterate_stableGameObservations
  rw [GameReady, ← hpid, ← hcount]
  constructor
  · rintro ⟨hpos, hthree⟩
    have hlast := (game_counted ι (n + 1)).mono hthree
    exact ⟨_, hlast.pred.2, hpos, hlast⟩
  · rintro ⟨g, -, hpos, hlast⟩
    obtain ⟨hpid, hthree⟩ := le_gameObservations ι le_rfl (Nat.succ_pos 2) hlast
    exact ⟨hpid ▸ hpos, hthree⟩

/-- The filter is asked for what the samplers measured. -/
theorem call_eq_measured (n : ℕ) : call ι n = measured ι n := by
  have hvideo : ((worker.state ι n).videoOut (ι n)).2.fps = videoOutFps ι n := videoOut_fps _ _
  obtain ⟨hdce, hbackend⟩ := dce_sampled (worker.state ι n) (ι n)
  rw [if_congr (gameReady_iff ι n) rfl rfl] at hdce
  change ((worker.state ι n).dce (ι n)).2 = if GameSettled ι n then (fallback ι n).2 else none at hdce
  rw [call, Driven.output]
  change ((worker.state ι n).iterate (ι n)).2.filterCall = _
  rw [iterate_filterCall, chosen, hvideo, hdce, measured]
  cases videoOutFps ι n with
  | some fps => rfl
  | none =>
    by_cases hsettled : GameSettled ι n
    · have hsampler := hbackend ((gameReady_iff ι n).2 hsettled)
      rw [if_pos hsettled]
      obtain ⟨g, hg, -⟩ := hsettled
      cases (fallback ι n).2 with
      | none => rfl
      | some fps =>
        simp only [chooseSource, Option.mem_def.1 hg, hsampler]
        rfl
    · rw [if_neg hsettled]
      rfl

/-! ## The iterations -/

/-- In the iteration `n` a process is observed as ShellUI that was not in the one before. -/
def ShelluiChanges (n : ℕ) : Prop :=
  0 < (ι n).shelluiPid ∧ (n = 0 ∨ (ι (n - 1)).shelluiPid ≠ (ι n).shelluiPid)

instance (n : ℕ) : Decidable (ShelluiChanges ι n) := inferInstanceAs (Decidable (_ ∧ _))

/-- The ShellUI process of the loop is the one observed, if any. -/
theorem stableShelluiPid_succ (n : ℕ) : (worker.state ι (n + 1)).stableShelluiPid =
    if 0 < (ι n).shelluiPid then (ι n).shelluiPid else -1 := by
  have hstep : (worker.state ι (n + 1)).stableShelluiPid =
      ((worker.state ι n).observeShellui (ι n).shelluiPid).stableShelluiPid :=
    iterate_stableShelluiPid
  rw [hstep, observeShellui]
  split_ifs with hpos hsame
  · exact hsame.symm
  · rfl
  · rfl

/-- A change of ShellUI is one of the loop's variable. -/
theorem shelluiChanges_iff (n : ℕ) : ShelluiChanges ι n ↔
    0 < (ι n).shelluiPid ∧ (ι n).shelluiPid ≠ (worker.state ι n).stableShelluiPid := by
  refine and_congr_right fun hpos => ?_
  cases n with
  | zero =>
    refine iff_of_true (.inl rfl) ?_
    rw [Driven.state_zero]
    exact fun h => absurd (h ▸ hpos) (by decide)
  | succ n =>
    rw [stableShelluiPid_succ, Nat.add_sub_cancel, ne_comm]
    split_ifs with hbefore
    · exact ⟨fun h => h.resolve_left not_false, .inr⟩
    · refine iff_of_true (.inr fun h => hbefore (h ▸ hpos)) fun h => ?_
      rw [h] at hpos
      exact absurd hpos (by decide)

/-- The filter acts as if it had only been called since ShellUI changed last. -/
theorem filter_since (n : ℕ) : ∃ r ≤ n, (r = 0 ∨ ShelluiChanges ι r) ∧
    (∀ i, r < i → i ≤ n → ¬ShelluiChanges ι i) ∧
    ((worker.state ι n).observeShellui (ι n).shelluiPid).displayFilter =
      displayFilter.state (fun i => call ι (r + i)) (n - r) := by
  have hreset (n : ℕ) (h : ShelluiChanges ι n) :
      ((worker.state ι n).observeShellui (ι n).shelluiPid).displayFilter = {} := by
    obtain ⟨hpos, hother⟩ := (shelluiChanges_iff ι n).1 h
    rw [observeShellui, if_pos hpos, if_neg hother]
    rfl
  have hkept (n : ℕ) (h : ¬ShelluiChanges ι n) :
      ((worker.state ι n).observeShellui (ι n).shelluiPid).displayFilter =
        (worker.state ι n).displayFilter := by
    rw [observeShellui]
    split_ifs with hpos hsame
    · rfl
    · exact absurd ((shelluiChanges_iff ι n).2 ⟨hpos, hsame⟩) h
    · rfl
  induction n with
  | zero =>
    refine ⟨0, le_rfl, .inl rfl, fun i hi hi' => absurd hi (not_lt.2 hi'), ?_⟩
    by_cases h : ShelluiChanges ι 0
    · exact hreset 0 h
    · exact hkept 0 h
  | succ n ih =>
    by_cases h : ShelluiChanges ι (n + 1)
    · refine ⟨n + 1, le_rfl, .inr h, fun i hi hi' => absurd hi (not_lt.2 hi'), ?_⟩
      rw [hreset _ h, Nat.sub_self]
      rfl
    · obtain ⟨r, hr, hstart, hnone, hfilter⟩ := ih
      refine ⟨r, Nat.le_succ_of_le hr, hstart, fun i hi hi' => ?_, ?_⟩
      · rcases Nat.lt_succ_iff_lt_or_eq.1 (Nat.lt_succ_of_le hi') with hlt | rfl
        · exact hnone i hi (Nat.le_of_lt_succ hlt)
        · exact h
      · have hcall : call ι n = call ι (r + (n - r)) := by rw [Nat.add_sub_cancel' hr]
        rw [hkept _ h, Nat.succ_sub hr, Driven.state_succ, Driven.state_succ, ← hfilter]
        show ((worker.state ι n).iterate (ι n)).1.displayFilter =
          (displayFilter.step _ (call ι (r + (n - r)))).1
        rw [← hcall, iterate_displayFilter]
        rfl

/-- Since the iteration `j` the samplers gave a valid value in every iteration, of one source for one
    game, with no gap, and ShellUI did not change. -/
structure SteadySince (j n : ℕ) : Prop where
  le : j ≤ n
  valid : ∀ k, j ≤ k → k ≤ n → (measured ι k).Valid
  continues : ∀ k, j ≤ k → k < n → (measured ι (k + 1)).Continues (measured ι k)
  shellui : ∀ k, j < k → k ≤ n → ¬ShelluiChanges ι k

/-- A value is shown exactly if the iterations were steady for long enough. -/
theorem displays_iff (n : ℕ) : (worker.output ι n).displayFps ≠ none ↔
    ∃ j, SteadySince ι j n ∧ Settled (measured ι) j n := by
  obtain ⟨r, hr, hstart, hnone, hfilter⟩ := filter_since ι n
  obtain ⟨k, rfl⟩ := Nat.exists_eq_add_of_le hr
  simp only [Nat.add_sub_cancel_left, call_eq_measured] at hfilter
  have hout : (worker.output ι (r + k)).displayFps =
      displayFilter.output (fun i => measured ι (r + i)) k := by
    rw [Driven.output, Driven.output, ← hfilter, ← call_eq_measured]
    exact iterate_displayFps
  rw [hout]
  constructor
  · intro hne
    obtain ⟨v, hv⟩ := Option.ne_none_iff_exists'.1 hne
    obtain ⟨j, hj, hset, -⟩ := displayed_spec hv
    refine ⟨r + j, ⟨Nat.add_le_add_left hj.le r, fun i h₁ h₂ => ?_, fun i h₁ h₂ => ?_,
      fun i h₁ h₂ => ?_⟩,
      (settled_shift r j k).1 hset⟩
    · obtain ⟨i, rfl⟩ := Nat.exists_eq_add_of_le (Nat.le_of_add_right_le h₁)
      exact hj.valid i (by omega) (by omega)
    · obtain ⟨i, rfl⟩ := Nat.exists_eq_add_of_le (Nat.le_of_add_right_le h₁)
      exact hj.continues i (by omega) (by omega)
    · exact hnone i (by omega) h₂
  · rintro ⟨j, hsteady, hset⟩
    -- No ShellUI change comes after `j`, so the filter has been called since then.
    have hrj : r ≤ j := by
      rcases hstart with rfl | hchange
      · exact Nat.zero_le j
      · exact not_lt.1 fun hlt => hsteady.shellui r hlt (Nat.le_add_right r k) hchange
    obtain ⟨j, rfl⟩ := Nat.exists_eq_add_of_le hrj
    have hjk : j ≤ k := Nat.le_of_add_le_add_left hsteady.le
    have hvalid : (measured ι (r + k)).Valid := hsteady.valid _ hsteady.le le_rfl
    obtain ⟨i, hi⟩ := exists_inEpoch (ι := fun i => measured ι (r + i)) hvalid
    -- The epoch starts at `j` or before.
    have hij : i ≤ j := by
      by_contra hlt
      obtain ⟨m, rfl⟩ := Nat.exists_eq_add_one_of_ne_zero (Nat.ne_zero_of_lt (not_le.1 hlt))
      have hle := hi.le
      exact hi.starts.2 m rfl (hsteady.valid (r + m) (by omega) (by omega))
        (hsteady.continues (r + m) (by omega) (by omega))
    have hsettled := hi.settled_of_le hij hjk ((settled_shift r j k).2 hset)
    rw [display_output]
    exact ((epoch_spec k).2 i hi).settled.2 hsettled

/-! ## The renderer -/

/-- The renderer is online once it was brought up, while the same ShellUI process is observed. -/
def Online (n : ℕ) : Prop :=
  ∃ m ≤ n, (∃ e, (worker.output ι m).ensure = some e ∧ e.result = true) ∧
    ∀ k, m ≤ k → k ≤ n → 0 < (ι k).shelluiPid ∧ (ι k).shelluiPid = (ι m).shelluiPid

end worker

namespace Worker

variable {s : Worker} {i : WorkerInput}

/-- The renderer is online after an iteration that brings it up, or that finds the same ShellUI
    process when it was online before. -/
theorem iterate_rendererOnline : (s.iterate i).1.rendererOnline = true ↔
    (∃ e, (s.iterate i).2.ensure = some e ∧ e.result = true) ∨
      s.rendererOnline = true ∧ 0 < i.shelluiPid ∧ i.shelluiPid = s.stableShelluiPid := by
  have hobserved : (s.observeShellui i.shelluiPid).rendererOnline = true ↔
      s.rendererOnline = true ∧ 0 < i.shelluiPid ∧ i.shelluiPid = s.stableShelluiPid := by
    rw [observeShellui]
    split_ifs with hpos hsame
    · exact ⟨fun h => ⟨h, hpos, hsame⟩, And.left⟩
    · exact iff_of_false not_false fun h => hsame h.2.2
    · exact iff_of_false not_false fun h => hpos h.2.1
  have hchosen : (s.chosen i).1.rendererOnline = (s.observeShellui i.shelluiPid).rendererOnline := by
    rw [chosen_frame, observed, observeGame_frame]
  rw [← hobserved, ← hchosen, iterate_frame]
  change (s.ensured i).1.rendererOnline = true ↔
    (∃ e, (s.ensured i).2 = some e ∧ e.result = true) ∨ _
  rw [ensured, ensureRenderer]
  split_ifs with hmay
  · -- The renderer is only brought up where it is not online.
    have hoffline : ¬(s.chosen i).1.rendererOnline = true := by rw [hmay.1]; exact Bool.false_ne_true
    refine ⟨fun h => .inl ⟨_, rfl, h⟩, fun h => ?_⟩
    obtain ⟨e, he, hresult⟩ := h.resolve_right hoffline
    obtain rfl := Option.some_injective _ he
    exact hresult
  · refine ⟨.inr, fun h => h.resolve_left ?_⟩
    rintro ⟨e, he, -⟩
    cases he

/-- The renderer is brought up in a process that is observed. -/
theorem shelluiPid_pos {e : EnsureReport} (h : (s.iterate i).2.ensure = some e) :
    0 < i.shelluiPid := by
  obtain ⟨⟨-, -, hcount⟩, -⟩ := mayInject_of_ensured (s := s) (i := i) h
  rw [chosen_frame, observed, observeGame_frame] at hcount
  by_contra hpos
  change 10 ≤ (s.observeShellui i.shelluiPid).stableShelluiObservations at hcount
  rw [observeShellui, if_neg hpos] at hcount
  exact absurd hcount (Nat.not_succ_le_zero 9)

end Worker

namespace worker

variable (ι : ℕ → WorkerInput)

theorem online_iff (n : ℕ) : (worker.state ι (n + 1)).rendererOnline = true ↔ Online ι n := by
  rw [Driven.state_succ]
  change ((worker.state ι n).iterate (ι n)).1.rendererOnline = true ↔ _
  rw [iterate_rendererOnline]
  induction n with
  | zero =>
    constructor
    · rintro (⟨e, he, hresult⟩ | ⟨hon, -⟩)
      · refine ⟨0, le_rfl, ⟨e, he, hresult⟩, fun k _ hk => ?_⟩
        obtain rfl := Nat.le_zero.1 hk
        exact ⟨shelluiPid_pos he, rfl⟩
      · cases hon
    · rintro ⟨m, hm, hup, -⟩
      obtain rfl := Nat.le_zero.1 hm
      exact .inl hup
  | succ n ih =>
    -- The process that the loop knows is the one of the iteration before.
    rw [stableShelluiPid_succ, Driven.state_succ]
    change _ ∨ ((worker.state ι n).iterate (ι n)).1.rendererOnline = true ∧ _ ↔ _
    rw [iterate_rendererOnline, ih]
    constructor
    · rintro (⟨e, he, hresult⟩ | ⟨⟨m, hm, hup, hsame⟩, hpos, hpid⟩)
      · refine ⟨n + 1, le_rfl, ⟨e, he, hresult⟩, fun k hk hk' => ?_⟩
        obtain rfl := le_antisymm hk' hk
        exact ⟨shelluiPid_pos he, rfl⟩
      · refine ⟨m, Nat.le_succ_of_le hm, hup, fun k hk hk' => ?_⟩
        rcases Nat.lt_succ_iff_lt_or_eq.1 (Nat.lt_succ_of_le hk') with hlt | rfl
        · exact hsame k hk (Nat.le_of_lt_succ hlt)
        · rw [if_pos (hsame n hm le_rfl).1] at hpid
          exact ⟨hpos, hpid.trans (hsame n hm le_rfl).2⟩
    · rintro ⟨m, hm, hup, hsame⟩
      rcases Nat.lt_succ_iff_lt_or_eq.1 (Nat.lt_succ_of_le hm) with hlt | rfl
      · have hmn := Nat.le_of_lt_succ hlt
        obtain ⟨hpos, hpid⟩ := hsame (n + 1) hm le_rfl
        obtain ⟨hpos', hpid'⟩ := hsame n hmn (Nat.le_succ n)
        refine .inr ⟨⟨m, hmn, hup, fun k hk hk' => hsame k hk (Nat.le_succ_of_le hk')⟩, hpos, ?_⟩
        rw [if_pos hpos', hpid, hpid']
      · exact .inl hup

end worker

/-- A packet with a rate is sent exactly while the renderer is online and the iterations were steady
    for long enough: the rate comes after 5 s of a steady source, at once, and it goes with the first
    iteration that is not steady. -/
theorem shows_rate_iff (ι : ℕ → WorkerInput) (n : ℕ) :
    (∃ packet, (worker.output ι n).sent = some packet ∧ packet.loading = 0) ↔
      worker.Online ι n ∧ ∃ j, worker.SteadySince ι j n ∧ Settled (worker.measured ι) j n := by
  rw [← worker.displays_iff, ← worker.online_iff]
  have honline : (worker.state ι (n + 1)).rendererOnline =
      ((worker.state ι n).ensured (ι n)).1.rendererOnline := by
    rw [Driven.state_succ]
    show ((worker.state ι n).iterate (ι n)).1.rendererOnline = _
    rw [iterate_frame]
  rw [honline]
  constructor
  · rintro ⟨packet, hsent, hloading⟩
    obtain ⟨v, hv, -, -⟩ := fps_of_sent hsent hloading
    refine ⟨?_, Option.ne_none_iff_exists'.2 ⟨v, hv⟩⟩
    change Prod.snd (send _ _ _) = _ at hsent
    rw [send] at hsent
    split_ifs at hsent with hon
    exact hon
  · rintro ⟨hon, hne⟩
    obtain ⟨v, hv⟩ := Option.ne_none_iff_exists'.1 hne
    obtain ⟨j, -, hvalid, ⟨k, hjk, hkn, hk⟩, -⟩ := worker.displayed ι hv
    have hrate : ValidDisplayRate v := hk ▸ ⟨(hvalid k hjk hkn).1.nonneg, (hvalid k hjk hkn).1.le⟩
    refine ⟨makeWirePacket (overlayFrame (some v) (ι n).config)
      ((worker.state ι n).ensured (ι n)).1.sequence,
      ?_, not_not.1 fun hne => ?_⟩
    · rw [← hv]
      exact congrArg Prod.snd (if_pos hon)
    · rcases (flag_ne_zero _).1 hne with hloading | hinvalid
      · cases hloading
      · exact hinvalid hrate

/-- A host environment whose rate of 60 is shown after the iteration 9, with the iterations 2 to 9. -/
theorem shows_rate_iff_shared :
    (∃ packet, (worker.output sharedRateInput 9).sent = some packet ∧ packet.loading = 0) ∧
      worker.Online sharedRateInput 9 ∧
      ∃ j, worker.SteadySince sharedRateInput j 9 ∧ Settled (worker.measured sharedRateInput) j 9 := by
  have hsent : ((worker.output sharedRateInput 9).sent).map WirePacket.loading = some 0 := by
    decide +kernel
  have hpacket := Option.map_eq_some_iff.1 hsent
  exact ⟨hpacket, (shows_rate_iff sharedRateInput 9).1 hpacket⟩

end CommonFps
