import CommonFps.System.Delivery

/-!
# Measured rates

Where a rate on the screen comes from: the worker measured it in one of its
iterations, as the growth of a counter between two readings of it, or it was read
in the file that the host environment shares.

* `worker.Follows` and `worker.counter_held`: VideoOut reads one counter of one
  game, from the search that found it on;
* `worker.words_held`: the words kept are those of an earlier iteration, and the
  device stayed open since;
* `worker.measured_of_produced`: every value of a sampler is `Measured`;
* `overlay_shows_measured`: the rate that the widgets display was measured.
-/

namespace CommonFps

theorem reading_eq_short {h : Bool} {p t : ℕ} :
    reading h p t = .short ↔ h = true ∧ p < t ∧ t - p < 200000 := by
  unfold reading kMaxFpsWindowUs kMinFpsWindowUs
  cases h with
  | false => exact iff_of_false nofun fun h => absurd h.1 Bool.false_ne_true
  | true =>
    rw [Bool.not_true, if_neg Bool.false_ne_true]
    split_ifs with hrebase hshort
    · exact iff_of_false nofun fun h => by omega
    · exact iff_of_true rfl ⟨rfl, by omega⟩
    · exact iff_of_false nofun fun h => by omega

/-- The second reading comes too early after the first one for a rate. -/
def ShortAfter {α : Type} (a b : α × ℕ) : Prop := a.2 < b.2 ∧ b.2 < a.2 + 200000

theorem shortAfter_of_reading {α : Type} {h : Bool} {x y : α} {p t : ℕ}
    (hr : reading h p t = .short) : ShortAfter (x, p) (y, t) := by
  obtain ⟨-, hlt, hshort⟩ := reading_eq_short.1 hr
  exact ⟨hlt, by dsimp only; omega⟩

/-! ## One iteration -/

theorem FpsSampler.attach_address {s : FpsSampler} {pid : ℤ} {a : AttachAnswers}
    (h : (s.attach .ps5 pid a).2 = true) :
    a.counterAddress = some (s.attach .ps5 pid a).1.counterAddress := by
  rw [attach] at h ⊢
  split_ifs at h ⊢
  cases hm : a.moduleBase with
  | none => simp [hm] at h
  | some base =>
    simp only [hm] at h ⊢
    split_ifs at h ⊢
    cases hc : a.counterAddress with
    | none =>
      rw [hc] at h
      cases h
    | some address => rfl

namespace DceCounterSampler

variable {s : DceCounterSampler} {w : Words} {t : ℕ}

/-- A selection is kept by a reading. -/
theorem selection_sample (hs : Selection s.selectedWord s.selectedInvalid) :
    Selection (s.sample w t).1.selectedWord (s.sample w t).1.selectedInvalid := by
  cases hr : reading s.haveBaseline s.previousTimeUs t with
  | first => rw [sample_first hr]; exact hs
  | rebase => rw [sample_rebase hr]; exact .fresh
  | short => rw [sample_short hr]; exact hs
  | window =>
    by_cases hw : s.warmupDeltasRemaining = 0
    · rw [sample_window hr hw]
      exact (choose_chosen (s.rates w t) hs).selection
    · rw [sample_warmup hr hw]
      exact hs

/-- A reading that is not a short one becomes the baseline. -/
theorem sample_baseline (h : reading s.haveBaseline s.previousTimeUs t ≠ .short) :
    (s.sample w t).1.previousWords = w ∧ (s.sample w t).1.previousTimeUs = t := by
  cases hr : reading s.haveBaseline s.previousTimeUs t with
  | first => rw [sample_first hr]; exact ⟨rfl, rfl⟩
  | rebase => rw [sample_rebase hr]; exact ⟨rfl, rfl⟩
  | short => exact absurd hr h
  | window =>
    by_cases hw : s.warmupDeltasRemaining = 0
    · rw [sample_window hr hw]
      exact ⟨rfl, rfl⟩
    · rw [sample_warmup hr hw]
      exact ⟨rfl, rfl⟩

/-- A value is the rate of the word selected then, in a window. -/
theorem sample_eq_some {v : ℤ} (hs : Selection s.selectedWord s.selectedInvalid)
    (h : (s.sample w t).2 = some v) : reading s.haveBaseline s.previousTimeUs t = .window ∧
      ∃ i : Fin 12, (s.sample w t).1.selectedWord = i ∧ s.rates w t i ≠ 0 ∧ v = s.rates w t i := by
  cases hr : reading s.haveBaseline s.previousTimeUs t with
  | first => rw [sample_first hr] at h; cases h
  | rebase => rw [sample_rebase hr] at h; cases h
  | short => rw [sample_short hr] at h; cases h
  | window =>
    by_cases hw : s.warmupDeltasRemaining = 0
    · rw [sample_window hr hw] at h ⊢
      refine ⟨rfl, ?_⟩
      have hne : (s.choose (s.rates w t)).2 ≠ 0 := fun hz => by simp [hz] at h
      rw [if_neg hne] at h
      cases choose_chosen (s.rates w t) hs with
      | used i hf hword _ hv => exact ⟨i, hword, hf, (Option.some_injective _ h).symm.trans hv⟩
      | missed _ _ _ _ _ _ _ hv => exact absurd hv hne
      | nothing _ _ _ _ hv => exact absurd hv hne
    · rw [sample_warmup hr hw] at h
      cases h

end DceCounterSampler

namespace DceFpsSampler

variable {s : DceFpsSampler} {auth : UInt64} {a : QueryAnswers}

/-- Opening the device leaves the counters alone. -/
theorem ensureOpen_frame (s : DceFpsSampler) (auth : UInt64) (a : OpenAnswers) :
    (s.ensureOpen auth a).1.counterSampler = s.counterSampler ∧
      (s.ensureOpen auth a).1.isOpen = (s.ensureOpen auth a).2.2 ∧
      (s.isOpen = true → (s.ensureOpen auth a).2.2 = true) := by
  rw [ensureOpen]
  cases hopen : s.isOpen with
  | true => exact ⟨rfl, hopen, fun _ => rfl⟩
  | false =>
    rw [if_neg Bool.false_ne_true]
    refine ⟨?_, ?_, fun h => absurd h Bool.false_ne_true⟩
    · split_ifs
      · rfl
      · rcases beginAuthWindow auth a.auth with ⟨auth₁, _ | w⟩
        · rfl
        · dsimp only
          split_ifs <;> rfl
    · split_ifs
      · rfl
      · rcases beginAuthWindow auth a.auth with ⟨auth₁, _ | w⟩
        · rfl
        · dsimp only
          split_ifs
          exacts [rfl, hopen, rfl]

/-- What asking the device does to the sampler: words leave the counters alone, and so does a
    failure, unless it is the one that closes the device and resets the counters. -/
theorem queryDce_cases (s : DceFpsSampler) (auth : UInt64) (a : QueryAnswers) :
    ((s.queryDce auth a).1.counterSampler = s.counterSampler ∧
        ((s.isOpen = true ∨ (s.queryDce auth a).2.2 ≠ none) → (s.queryDce auth a).1.isOpen = true)) ∨
      ((s.queryDce auth a).2.2 = none ∧ (s.queryDce auth a).1.counterSampler = {}) := by
  obtain ⟨hcounter, hopen, hkept⟩ := ensureOpen_frame s auth a.opened
  rw [queryDce]
  rcases he : s.ensureOpen auth a.opened with ⟨t, auth₁, ok⟩
  rw [he] at hcounter hopen hkept
  cases ok with
  | false =>
    refine .inl ⟨hcounter, fun h => ?_⟩
    rcases h with h | h
    · exact absurd (hkept h) Bool.false_ne_true
    · exact absurd rfl h
  | true =>
    dsimp only at hcounter hopen ⊢
    generalize (if (if a.plain < 0 then a.plainSignExtended else a.plain) < 0 then _ else _ :
      UInt64 × ℤ × Bool) = answer
    obtain ⟨auth₂, rc, restored⟩ := answer
    dsimp only
    split_ifs with hfails
    · rw [failQuery]
      dsimp only
      split_ifs
      · exact .inr ⟨rfl, rfl⟩
      · exact .inl ⟨hcounter, fun _ => hopen⟩
    · exact .inl ⟨hcounter, fun _ => hopen⟩

/-- The words that a `sample` gets of the device, if it asks it. -/
def words (s : DceFpsSampler) (a : DceAnswers) : Option Words :=
  if a.shared.bind SharedSample.rate = none then (s.queryDce a.auth a.query).2.2 else none

/-- With words, a value is that of the counters. -/
theorem sample_of_words {a : DceAnswers} {w : Words} (h : s.words a = some w) :
    (s.sample a).1.counterSampler = (s.counterSampler.sample w a.nowUs).1 ∧
      (s.sample a).2 = (s.counterSampler.sample w a.nowUs).2 ∧ (s.sample a).1.isOpen = true ∧
      ((s.sample a).2 ≠ none → (s.sample a).1.backendName =
        if (s.sample a).1.counterSampler.selectedWord = 1 then .dceFixed else .dceAdaptive) := by
  rw [words] at h
  split_ifs at h with hshared
  obtain ⟨hcounter, hopen⟩ | ⟨hnone, -⟩ := queryDce_cases s a.auth a.query
  · obtain ⟨t, auth, hq⟩ : ∃ t auth, s.queryDce a.auth a.query = (t, auth, some w) :=
      ⟨_, _, Prod.ext rfl (Prod.ext rfl h)⟩
    rw [hq] at hcounter hopen
    have hsample : s.sample a =
        match t.counterSampler.sample w a.nowUs with
        | (counterSampler, none) => ({ t with counterSampler }, none)
        | (counterSampler, some fps) => ({ t with
            counterSampler
            backendName := if counterSampler.selectedWord = 1 then .dceFixed else .dceAdaptive },
          some fps) := by
      rw [sample, sampleSharedHen, hshared]
      dsimp only
      rw [hq]
      dsimp only
      rcases t.counterSampler.sample w a.nowUs with ⟨counterSampler, _ | fps⟩ <;> rfl
    rw [hsample, ← hcounter]
    rcases t.counterSampler.sample w a.nowUs with ⟨counterSampler, _ | fps⟩
    · exact ⟨rfl, rfl, hopen (.inr (Option.some_ne_none w)), fun h => absurd rfl h⟩
    · exact ⟨rfl, rfl, hopen (.inr (Option.some_ne_none w)), fun _ => rfl⟩
  · cases hnone.symm.trans h

/-- Without words, the counters are left alone, with the device, or reset; a value is shared. -/
theorem sample_of_no_words {a : DceAnswers} (h : s.words a = none) :
    (((s.sample a).1.counterSampler = s.counterSampler ∧
        (s.isOpen = true → (s.sample a).1.isOpen = true)) ∨
      (s.sample a).1.counterSampler = {}) ∧
    ∀ v, (s.sample a).2 = some v →
      a.shared.bind SharedSample.rate = some v ∧ (s.sample a).1.backendName = .henShared := by
  rw [sample, sampleSharedHen]
  cases hshared : a.shared.bind SharedSample.rate with
  | some v => exact ⟨.inl ⟨rfl, id⟩, fun v' hv => ⟨hv, rfl⟩⟩
  | none =>
    rw [words, if_pos hshared] at h
    have hcases := queryDce_cases s a.auth a.query
    dsimp only
    rcases hq : s.queryDce a.auth a.query with ⟨t, auth, words⟩
    rw [hq] at h hcases
    obtain rfl : words = none := h
    refine ⟨?_, fun v hv => ?_⟩
    · rcases hcases with ⟨hcounter, hopen⟩ | ⟨-, hreset⟩
      · exact .inl ⟨hcounter, fun h => hopen (.inl h)⟩
      · exact .inr hreset
    · cases hv

end DceFpsSampler

theorem Worker.iterate_dceSampler {s : Worker} {i : WorkerInput} :
    (s.iterate i).1.dceSampler = (s.dce i).1.dceSampler := by
  rw [iterate_frame, ensured_frame, chosen_frame]

/-! ## Readings -/

namespace worker

variable (κ : ℕ → WorkerInput)

/-- The worker in the iteration `n`, once it has observed the processes. -/
def sampling (n : ℕ) : Worker := (worker.state κ n).observed (κ n)

/-- The counter that VideoOut reads in the iteration `n`, and the time. -/
def counterReading (n : ℕ) : Option (UInt32 × ℕ) :=
  if (sampling κ n).sampler.Attached ∧ (κ n).sample.alive = true then
    (κ n).sample.counter.map fun c => (c, (κ n).sample.nowUs)
  else none

/-- The words that the device answers in the iteration `n`, and the time. -/
def wordsReading (n : ℕ) : Option (Words × ℕ) :=
  if (sampling κ n).GameReady then
    ((sampling κ n).dceSampler.words (κ n).dce).map fun w => (w, (κ n).dce.nowUs)
  else none

/-- VideoOut reads the counter at `addr` of the game `g`, which the search of the iteration `a`
    found, in every iteration since, up to the iteration `n`. -/
structure Follows (a n : ℕ) (g : ℤ) (addr : UInt64) : Prop where
  lt : a < n
  found : (κ a).attach.counterAddress = some addr
  attached : (worker.output κ a).videoOut = .attach true
  game : ∀ i, a ≤ i → i < n → (κ i).gamePid = some g
  sampled : ∀ i, a < i → i < n → ∃ fps, (worker.output κ i).videoOut = .sampled g fps

variable {κ} {n : ℕ}

theorem Follows.succ {a : ℕ} {g : ℤ} {addr : UInt64} {fps : Option ℤ} (h : Follows κ a n g addr)
    (hg : (κ n).gamePid = some g) (hs : (worker.output κ n).videoOut = .sampled g fps) :
    Follows κ a (n + 1) g addr := by
  refine ⟨Nat.lt_succ_of_lt h.lt, h.found, h.attached, fun i hai hi => ?_, fun i hai hi => ?_⟩
  · rcases Nat.lt_succ_iff_lt_or_eq.1 hi with hi | rfl
    · exact h.game i hai hi
    · exact hg
  · rcases Nat.lt_succ_iff_lt_or_eq.1 hi with hi | rfl
    · exact h.sampled i hai hi
    · exact ⟨fps, hs⟩

/-- The samplers are those of before, or of a fresh start. -/
theorem sampling_cases (κ : ℕ → WorkerInput) (n : ℕ) :
    ((sampling κ n).sampler = (worker.state κ n).sampler ∧
        (sampling κ n).dceSampler = (worker.state κ n).dceSampler ∧
        (κ n).gamePid = some (worker.state κ n).stableGamePid) ∨
      ((sampling κ n).sampler = (worker.state κ n).sampler.reset ∧
        (sampling κ n).dceSampler = (worker.state κ n).dceSampler.reset) := by
  rw [sampling, Worker.observed, Worker.observeShellui_frame]
  cases hg : (κ n).gamePid with
  | none => exact .inr ⟨rfl, rfl⟩
  | some pid =>
    rw [Worker.observeGame]
    split_ifs with hsame
    · exact .inl ⟨rfl, rfl, congrArg some hsame⟩
    · exact .inr ⟨rfl, rfl⟩

/-- A window from the reading of the iteration `m` to that of the iteration `n`: the readings in
    between came too early. -/
structure RateWindow {α : Type} (o : ℕ → Option (α × ℕ)) (m n : ℕ) (first last : α × ℕ) :
    Prop where
  held : HeldSince o ShortAfter m n first
  read : o n = some last
  least : 200000 ≤ last.2 - first.2
  most : last.2 - first.2 ≤ 3000000

theorem RateWindow.of_reading {α : Type} {o : ℕ → Option (α × ℕ)} {m n : ℕ} {x₀ x₁ : α}
    {t₀ t₁ : ℕ}
    {b : Bool} (hheld : HeldSince o ShortAfter m n (x₀, t₀)) (hread : o n = some (x₁, t₁))
    (hr : reading b t₀ t₁ = .window) : RateWindow o m n (x₀, t₀) (x₁, t₁) := by
  obtain ⟨-, -, hleast, hmost⟩ := reading_eq_window.1 hr
  exact ⟨hheld, hread, hleast, hmost⟩

/-- The value `v` is the rate of a counter of the game `g`, which VideoOut follows, in a window
    that the iteration `n` completes: at most 130.0, rounded, and at most 120. -/
def CounterRate (κ : ℕ → WorkerInput) (n : ℕ) (g v : ℤ) : Prop :=
  ∃ a m addr c₀ t₀ c₁ t₁, Follows κ a (n + 1) g addr ∧ a < m ∧
    RateWindow (counterReading κ) m n (c₀, t₀) (c₁, t₁) ∧
    ⌊10 * rate (c₁ - c₀).toNat (t₁ - t₀)⌋ ≤ 1300 ∧
    v = min 120 ⌊rate (c₁ - c₀).toNat (t₁ - t₀) + 1 / 2⌋

/-- The value `v` is the rate of the word `i` of the device in a window that the iteration `n`
    completes, during which the device stayed open, and the game `g` ran: a valid one, rounded,
    and at most 120. -/
def WordRate (κ : ℕ → WorkerInput) (n : ℕ) (g : ℤ) (i : Fin 12) (v : ℤ) : Prop :=
  ∃ m w₀ t₀ w₁ t₁, RateWindow (wordsReading κ) m n (w₀, t₀) (w₁, t₁) ∧
    (∀ j, m ≤ j → j ≤ n → (κ j).gamePid = some g) ∧
    (∀ j, m < j → j ≤ n → (worker.state κ j).dceSampler.isOpen = true) ∧
    ValidWord w₀ t₀ w₁ t₁ i ∧ v = min 120 ⌊wordRate w₀ t₀ w₁ t₁ i + 1 / 2⌋

/-- The value `v` is the rate in the file that the host environment shares in the iteration `n`. -/
def SharedRate (κ : ℕ → WorkerInput) (n : ℕ) (v : ℤ) : Prop :=
  ∃ f, (κ n).dce.shared = some f ∧ f.magic = DceFpsSampler.kSharedFpsMagic ∧ f.valid ≠ 0 ∧
    f.fps.IsFinite ∧ ValidRate f.fps.value ∧ v = min 120 ⌊f.fps.value + 1 / 2⌋

/-- The value `v` was measured in the iteration `n`, for the game `g`, by a source. -/
def Measured (κ : ℕ → WorkerInput) (n : ℕ) (g v : ℤ) : FpsDisplaySource → Prop
  | .none => False
  | .videoOut => CounterRate κ n g v
  | .sharedHen => SharedRate κ n v
  | .dceFixed => WordRate κ n g 1 v
  | .dceAdaptive => ∃ i ≠ 1, WordRate κ n g i v

/-! ## What the samplers hold -/

/-- An attached sampler follows a counter, and its baseline is an earlier reading of it. -/
def HoldsCounter (κ : ℕ → WorkerInput) (n : ℕ) (s : FpsSampler) : Prop :=
  s.Attached → ∃ a, Follows κ a n s.pid s.counterAddress ∧
    (s.haveBaseline = true → ∃ m, a < m ∧
      HeldSince (counterReading κ) ShortAfter m n (s.previousCounter, s.previousTimeUs))

/-- The words kept by the counters are those of an earlier iteration with the same game, and the
    device stayed open since. -/
structure HoldsWords (κ : ℕ → WorkerInput) (n : ℕ) (s : Worker) : Prop where
  selection : DceCounterSampler.Selection s.dceSampler.counterSampler.selectedWord
    s.dceSampler.counterSampler.selectedInvalid
  held : s.dceSampler.counterSampler.haveBaseline = true → ∃ m,
    HeldSince (wordsReading κ) ShortAfter m n
      (s.dceSampler.counterSampler.previousWords, s.dceSampler.counterSampler.previousTimeUs) ∧
    (∀ i, m ≤ i → i < n → (κ i).gamePid = some s.stableGamePid) ∧
    ∀ i, m < i → i ≤ n → (worker.state κ i).dceSampler.isOpen = true

/-- VideoOut attaches to the game by the search that finds the counter. -/
theorem holdsCounter_of_not_attached (h : ¬(sampling κ n).sampler.Attached) :
    HoldsCounter κ (n + 1) (Worker.videoOut (worker.state κ n) (κ n)).1.sampler := by
  intro hattached
  have hsampled : (worker.output κ n).videoOut = (Worker.videoOut (worker.state κ n) (κ n)).2 := rfl
  rw [Worker.videoOut, Worker.sampleVideoOut] at hsampled hattached ⊢
  rw [← sampling] at hsampled hattached ⊢
  rw [if_neg h] at hsampled hattached ⊢
  cases hg : (κ n).gamePid with
  | none =>
    rw [hg] at hattached
    exact absurd hattached h
  | some pid =>
    rw [hg] at hsampled hattached
    dsimp only at hsampled hattached ⊢
    split_ifs at hsampled hattached ⊢ with hdue
    · obtain ⟨hiff, hpid⟩ := @FpsSampler.attached_attach _ pid (κ n).attach h
      obtain ⟨hok, -, -⟩ := hiff.1 hattached
      obtain ⟨hbase, -⟩ := FpsSampler.attach_of_accepted hok
      refine ⟨n, ⟨n.lt_succ_self, FpsSampler.attach_address hok, ?_, fun i hni hi => ?_,
        fun i hni hi => absurd hi (by omega)⟩, fun hbaseline => ?_⟩
      · exact hsampled.trans (congrArg _ hok)
      · obtain rfl : i = n := by omega
        exact hg.trans (congrArg _ (hpid hattached).symm)
      · exact absurd (hbase.symm.trans hbaseline) Bool.false_ne_true
    · exact absurd hattached h

/-- What an attached sampler follows, and what it kept. -/
theorem follows_of_attached (ih : HoldsCounter κ n (worker.state κ n).sampler)
    (h : (sampling κ n).sampler.Attached) :
    (κ n).gamePid = some (sampling κ n).sampler.pid ∧
    (worker.output κ n).videoOut =
      .sampled (sampling κ n).sampler.pid ((sampling κ n).sampler.sample (κ n).sample).2 ∧
    ∃ a, Follows κ a (n + 1) (sampling κ n).sampler.pid (sampling κ n).sampler.counterAddress ∧ a < n ∧
      ((sampling κ n).sampler.haveBaseline = true → ∃ m, a < m ∧
        HeldSince (counterReading κ) ShortAfter m n
          ((sampling κ n).sampler.previousCounter, (sampling κ n).sampler.previousTimeUs)) := by
  have hsampled : (worker.output κ n).videoOut =
      .sampled (sampling κ n).sampler.pid ((sampling κ n).sampler.sample (κ n).sample).2 := by
    change (Worker.videoOut (worker.state κ n) (κ n)).2 = _
    rw [Worker.videoOut, Worker.sampleVideoOut, ← sampling, if_pos h]
  obtain ⟨hgame, hpid⟩ := (attached_to_game κ n).observed h
  have hgame : (κ n).gamePid = some (sampling κ n).sampler.pid := hgame.trans (congrArg _ hpid.symm)
  have hsame : (sampling κ n).sampler = (worker.state κ n).sampler := by
    rcases sampling_cases κ n with ⟨hsame, -⟩ | ⟨hreset, -⟩
    · exact hsame
    · exact absurd (hreset ▸ h) (FpsSampler.not_attached_reset _)
  rw [← hsame] at ih
  obtain ⟨a, hfollows, hheld⟩ := ih h
  exact ⟨hgame, hsampled, a, hfollows.succ hgame hsampled, hfollows.lt, hheld⟩

theorem holdsCounter_of_attached (ih : HoldsCounter κ n (worker.state κ n).sampler)
    (h : (sampling κ n).sampler.Attached) :
    HoldsCounter κ (n + 1) (Worker.videoOut (worker.state κ n) (κ n)).1.sampler := by
  obtain ⟨-, -, a, hfollows, han, hheld⟩ := follows_of_attached ih h
  have hnext : (Worker.videoOut (worker.state κ n) (κ n)).1.sampler =
      ((sampling κ n).sampler.sample (κ n).sample).1 := by
    rw [Worker.videoOut, Worker.sampleVideoOut, ← sampling, if_pos h]
  rw [hnext]
  intro hattached
  obtain ⟨-, halive, hcounter⟩ := (FpsSampler.attached_sample _ _).1.1 hattached
  obtain ⟨c, hc⟩ := Option.ne_none_iff_exists'.1 hcounter
  have hread : counterReading κ n = some (c, (κ n).sample.nowUs) := by
    rw [counterReading, if_pos ⟨h, halive⟩, hc]
    rfl
  have hmeasure : (sampling κ n).sampler.sample (κ n).sample =
      (sampling κ n).sampler.measure c (κ n).sample.nowUs := by
    rw [FpsSampler.sample, if_neg (not_not.2 h), if_neg (not_not.2 halive), hc]
  rw [hmeasure]
  obtain ⟨hpid, haddr, -⟩ := FpsSampler.measure_frame (sampling κ n).sampler c (κ n).sample.nowUs
  rw [hpid, haddr]
  refine ⟨a, hfollows, fun hbase => ?_⟩
  by_cases hshort : reading (sampling κ n).sampler.haveBaseline
      (sampling κ n).sampler.previousTimeUs (κ n).sample.nowUs = .short
  · -- A short reading is skipped.
    rw [FpsSampler.measure_short hshort] at hbase ⊢
    obtain ⟨m, ham, hm⟩ := hheld hbase
    refine ⟨m, ham, hm.succ fun b hb => ?_⟩
    obtain rfl := Option.some_injective _ (hread.symm.trans hb)
    exact shortAfter_of_reading hshort
  · obtain ⟨-, hprevious, htime⟩ := FpsSampler.measure_baseline (c := c) hshort
    rw [hprevious, htime]
    exact ⟨n, han, .of_observed hread⟩

theorem counter_held (κ : ℕ → WorkerInput) (n : ℕ) :
    HoldsCounter κ n (worker.state κ n).sampler := by
  induction n with
  | zero => exact fun h => absurd h (show ¬({} : FpsSampler).Attached by decide)
  | succ n ih =>
    rw [Driven.state_succ]
    change HoldsCounter κ (n + 1) (Worker.iterate (worker.state κ n) (κ n)).1.sampler
    rw [Worker.iterate_sampler]
    by_cases ha : (sampling κ n).sampler.Attached
    · exact holdsCounter_of_attached ih ha
    · exact holdsCounter_of_not_attached ha

/-- A value of VideoOut is a rate of the counter. -/
theorem counterRate_of_sampled {g v : ℤ} (h : (worker.output κ n).videoOut = .sampled g (some v)) :
    CounterRate κ n g v := by
  have hattached : (sampling κ n).sampler.Attached := by
    by_contra hnot
    change (Worker.videoOut (worker.state κ n) (κ n)).2 = _ at h
    rw [Worker.videoOut, Worker.sampleVideoOut, ← sampling, if_neg hnot] at h
    cases hg : (κ n).gamePid with
    | none => rw [hg] at h; cases h
    | some pid =>
      rw [hg] at h
      dsimp only at h
      split_ifs at h
      all_goals cases h
  obtain ⟨-, hsampled, a, hfollows, -, hheld⟩ := follows_of_attached (counter_held κ n) hattached
  obtain ⟨rfl, hv⟩ := VideoOutReport.sampled.inj (h.symm.trans hsampled)
  rw [FpsSampler.sample, if_neg (not_not.2 hattached)] at hv
  split_ifs at hv with halive
  cases hc : (κ n).sample.counter with
  | none => rw [hc] at hv; cases hv
  | some c =>
    rw [hc] at hv
    obtain ⟨hr, -, htenths, hval⟩ := FpsSampler.measure_eq_some hv.symm
    obtain ⟨m, ham, hm⟩ := hheld (reading_eq_window.1 hr).1
    have hread : counterReading κ n = some (c, (κ n).sample.nowUs) := by
      rw [counterReading, if_pos ⟨hattached, halive⟩, hc]
      rfl
    refine ⟨a, m, _, _, _, c, _, hfollows, ham, .of_reading hm hread hr, ?_, ?_⟩
    · have htenths := Int.ofNat_le.2 htenths
      rw [natCast_div_eq_floor] at htenths
      push_cast [kMaxTenthsFps] at htenths
      rw [rate]
      convert htenths using 2
      ring
    · rw [hval, tenths_round, min_comm, rate, mul_comm]
      rfl

/-- The fallback sampler is sampled if the game is ready. -/
theorem dce_eq (κ : ℕ → WorkerInput) (n : ℕ) :
    ((Worker.dce (worker.state κ n) (κ n)).1.dceSampler, (Worker.dce (worker.state κ n) (κ n)).2) =
      if (sampling κ n).GameReady then (sampling κ n).dceSampler.sample (κ n).dce
      else ((sampling κ n).dceSampler, none) := by
  have hdce : (Worker.videoOut (worker.state κ n) (κ n)).1.dceSampler = (sampling κ n).dceSampler := by
    rw [Worker.videoOut, ← sampling, Worker.sampleVideoOut_frame]
  have hready : (Worker.videoOut (worker.state κ n) (κ n)).1.GameReady ↔ (sampling κ n).GameReady := by
    rw [Worker.videoOut, ← sampling, Worker.sampleVideoOut_frame]
    exact Iff.rfl
  rw [Worker.dce, Worker.sampleDce]
  by_cases h : (sampling κ n).GameReady
  · rw [if_pos (hready.2 h), if_pos h, hdce]
  · rw [if_neg (mt hready.1 h), if_neg h, hdce]

/-- What the fallback samples with is what it held, or a fresh start. -/
theorem sampling_words (hn : HoldsWords κ n (worker.state κ n)) :
    HoldsWords κ n (sampling κ n) ∧
      ((sampling κ n).dceSampler.counterSampler.haveBaseline = true →
        (κ n).gamePid = some (sampling κ n).stableGamePid ∧
        (sampling κ n).dceSampler = (worker.state κ n).dceSampler) := by
  have hgame : (sampling κ n).stableGamePid = (κ n).gamePid.getD (-1) := Worker.observed_stableGamePid
  rcases sampling_cases κ n with ⟨-, hsame, hpid⟩ | ⟨-, hreset⟩
  · rw [hpid, Option.getD_some] at hgame
    refine ⟨⟨?_, ?_⟩, fun _ => ⟨hpid.trans (congrArg _ hgame.symm), hsame⟩⟩
    · rw [hsame]
      exact hn.selection
    · rw [hsame, hgame]
      exact hn.held
  · refine ⟨⟨?_, fun h => ?_⟩, fun h => ?_⟩
    · rw [hreset]
      exact .fresh
    · rw [hreset] at h
      exact absurd h Bool.false_ne_true
    · rw [hreset] at h
      exact absurd h Bool.false_ne_true

/-- Words that are kept in an iteration stay held. -/
theorem held_succ (hn : HoldsWords κ n (worker.state κ n))
    (hbase : (sampling κ n).dceSampler.counterSampler.haveBaseline = true)
    (hskip : ∀ b, wordsReading κ n = some b → ShortAfter
      ((sampling κ n).dceSampler.counterSampler.previousWords,
        (sampling κ n).dceSampler.counterSampler.previousTimeUs) b)
    (hopen : (sampling κ n).dceSampler.isOpen = true →
      (worker.state κ (n + 1)).dceSampler.isOpen = true) :
    ∃ m, HeldSince (wordsReading κ) ShortAfter m (n + 1)
        ((sampling κ n).dceSampler.counterSampler.previousWords,
          (sampling κ n).dceSampler.counterSampler.previousTimeUs) ∧
      (∀ i, m ≤ i → i < n + 1 → (κ i).gamePid = some (sampling κ n).stableGamePid) ∧
      ∀ i, m < i → i ≤ n + 1 → (worker.state κ i).dceSampler.isOpen = true := by
  obtain ⟨⟨-, hheld⟩, hsame⟩ := sampling_words hn
  obtain ⟨hgame, hsampler⟩ := hsame hbase
  obtain ⟨m, hm, hgames, hopens⟩ := hheld hbase
  refine ⟨m, hm.succ hskip, fun i hmi hi => ?_, fun i hmi hi => ?_⟩
  · rcases Nat.lt_succ_iff_lt_or_eq.1 hi with hi | rfl
    · exact hgames i hmi hi
    · exact hgame
  · rcases Nat.le_succ_iff.1 hi with hi | rfl
    · exact hopens i hmi hi
    · exact hopen (hsampler ▸ hopens n hm.lt le_rfl)

theorem words_held (κ : ℕ → WorkerInput) (n : ℕ) : HoldsWords κ n (worker.state κ n) := by
  induction n with
  | zero => exact ⟨.fresh, fun h => absurd h Bool.false_ne_true⟩
  | succ n ih =>
    obtain ⟨⟨hselection, -⟩, -⟩ := sampling_words ih
    have hpid : (worker.state κ (n + 1)).stableGamePid = (sampling κ n).stableGamePid :=
      Worker.iterate_stableGamePid
    have hnext : (worker.state κ (n + 1)).dceSampler =
        if (sampling κ n).GameReady then ((sampling κ n).dceSampler.sample (κ n).dce).1
        else (sampling κ n).dceSampler := by
      refine Worker.iterate_dceSampler.trans ((congrArg Prod.fst (dce_eq κ n)).trans ?_)
      split_ifs <;> rfl
    cases hread : wordsReading κ n with
    | none =>
      -- The device was not asked, or gave no words.
      have hcases : ((worker.state κ (n + 1)).dceSampler.counterSampler =
            (sampling κ n).dceSampler.counterSampler ∧
          ((sampling κ n).dceSampler.isOpen = true → (worker.state κ (n + 1)).dceSampler.isOpen = true)) ∨
          (worker.state κ (n + 1)).dceSampler.counterSampler = {} := by
        rw [hnext]
        rw [wordsReading] at hread
        split_ifs at hread ⊢ with hready
        · exact (DceFpsSampler.sample_of_no_words (Option.map_eq_none_iff.1 hread)).1
        · exact .inl ⟨rfl, id⟩
      rcases hcases with ⟨hcounter, hopen⟩ | hreset
      · refine ⟨hcounter ▸ hselection, fun hbase => ?_⟩
        rw [hcounter] at hbase ⊢
        rw [hpid]
        exact held_succ ih hbase (fun b hb => by cases hread.symm.trans hb) hopen
      · refine ⟨hreset ▸ .fresh, fun hbase => ?_⟩
        rw [hreset] at hbase
        exact absurd hbase Bool.false_ne_true
    | some b =>
      obtain ⟨hready, w, hwords, rfl⟩ : (sampling κ n).GameReady ∧ ∃ w,
          (sampling κ n).dceSampler.words (κ n).dce = some w ∧ (w, (κ n).dce.nowUs) = b := by
        rw [wordsReading] at hread
        split_ifs at hread with hready
        exact ⟨hready, Option.map_eq_some_iff.1 hread⟩
      obtain ⟨hcounter, -, hopen, -⟩ := DceFpsSampler.sample_of_words hwords
      rw [if_pos hready] at hnext
      rw [← hnext] at hcounter hopen
      have hgame : (κ n).gamePid = some (sampling κ n).stableGamePid := by
        have hpos := hready.1
        rw [sampling, Worker.observed_stableGamePid] at hpos ⊢
        cases hg : (κ n).gamePid with
        | none => rw [hg] at hpos; exact absurd hpos (by decide)
        | some g => rfl
      refine ⟨hcounter ▸ DceCounterSampler.selection_sample hselection, fun hbase => ?_⟩
      rw [hcounter] at hbase ⊢
      rw [hpid]
      by_cases hshort : reading (sampling κ n).dceSampler.counterSampler.haveBaseline
          (sampling κ n).dceSampler.counterSampler.previousTimeUs (κ n).dce.nowUs = .short
      · -- A short reading is skipped.
        rw [DceCounterSampler.sample_short hshort] at hbase ⊢
        refine held_succ ih hbase (fun b hb => ?_) fun _ => hopen
        obtain rfl := Option.some_injective _ (hread.symm.trans hb)
        exact shortAfter_of_reading hshort
      · obtain ⟨hprevious, htime⟩ := DceCounterSampler.sample_baseline (w := w) hshort
        rw [hprevious, htime]
        refine ⟨n, .of_observed hread, fun i hni hi => ?_, fun i hni hi => ?_⟩
        · obtain rfl : i = n := by omega
          exact hgame
        · obtain rfl : i = n + 1 := by omega
          exact hopen

theorem sharedRate_of_bind {v : ℤ}
    (h : (κ n).dce.shared.bind DceFpsSampler.SharedSample.rate = some v) : SharedRate κ n v := by
  obtain ⟨f, hf, hrate⟩ := Option.bind_eq_some_iff.1 h
  rw [DceFpsSampler.SharedSample.rate] at hrate
  split_ifs at hrate with hbad
  rw [not_or, not_or, not_not, not_not] at hbad
  obtain ⟨hvalid, -⟩ := Option.filter_eq_some_iff.1 hrate
  obtain ⟨hrate, hv⟩ := validatedFps_eq_some.1 hvalid
  exact ⟨f, hf, hbad.1, hbad.2.1, hbad.2.2, hrate, hv⟩

/-- A value of the counters is the rate of the word that they select. -/
theorem wordRate_of_words {v g : ℤ} {w : Words} (hg : (κ n).gamePid = some g)
    (hready : (sampling κ n).GameReady) (hwords : (sampling κ n).dceSampler.words (κ n).dce = some w)
    (hv : ((sampling κ n).dceSampler.counterSampler.sample w (κ n).dce.nowUs).2 = some v) :
    ∃ i : Fin 12, ((sampling κ n).dceSampler.counterSampler.sample w (κ n).dce.nowUs).1.selectedWord = i ∧
      WordRate κ n g i v := by
  obtain ⟨⟨hselection, hheld⟩, hsame⟩ := sampling_words (words_held κ n)
  obtain ⟨hr, i, hi, hne, rfl⟩ := DceCounterSampler.sample_eq_some hselection hv
  obtain ⟨m, hm, hgames, hopens⟩ := hheld (reading_eq_window.1 hr).1
  have hread : wordsReading κ n = some (w, (κ n).dce.nowUs) := by
    rw [wordsReading, if_pos hready, hwords]
    rfl
  have hwindow := RateWindow.of_reading hm hread hr
  obtain ⟨hle, hvalid⟩ := DceCounterSampler.fpsForWord_ne_zero.1 hne
  rw [wordRate_eq hwindow.least hle] at hvalid
  obtain ⟨hvalid, hval⟩ := validatedFps_eq_some.1 hvalid
  obtain ⟨hgame, -⟩ := hsame (reading_eq_window.1 hr).1
  obtain rfl := Option.some_injective _ (hgame.symm.trans hg)
  refine ⟨i, hi, m, _, _, w, _, hwindow, fun j hmj hj => ?_, hopens, ⟨hle, hvalid⟩, hval⟩
  rcases Nat.lt_or_eq_of_le hj with hj | rfl
  · exact hgames j hmj hj
  · exact hgame

/-- A value of the fallback is a rate of the device's words, or that of the shared file. -/
theorem measured_of_dce {v g : ℤ} (hg : (κ n).gamePid = some g)
    (hv : (worker.output κ n).dceFps = some v) :
    (worker.output κ n).backend = .henShared ∧ SharedRate κ n v ∨
      ∃ i, WordRate κ n g i v ∧
        (worker.output κ n).backend = if i = 1 then .dceFixed else .dceAdaptive := by
  have heq := dce_eq κ n
  have hbackend : (worker.output κ n).backend =
      (Worker.dce (worker.state κ n) (κ n)).1.dceSampler.backendName := rfl
  replace hv : (Worker.dce (worker.state κ n) (κ n)).2 = some v := hv
  rw [hbackend]
  split_ifs at heq with hready
  · obtain ⟨hsampler, hvalue⟩ := Prod.ext_iff.1 heq
    dsimp only at hsampler hvalue
    rw [hvalue] at hv
    rw [hsampler]
    cases hwords : (sampling κ n).dceSampler.words (κ n).dce with
    | none =>
      obtain ⟨hshared, hname⟩ := (DceFpsSampler.sample_of_no_words hwords).2 v hv
      exact .inl ⟨hname, sharedRate_of_bind hshared⟩
    | some w =>
      obtain ⟨hcounter, hout, -, hname⟩ := DceFpsSampler.sample_of_words hwords
      obtain ⟨i, hi, hrate⟩ := wordRate_of_words hg hready hwords (hout.symm.trans hv)
      refine .inr ⟨i, hrate, (hname (hv ▸ Option.some_ne_none v)).trans ?_⟩
      have hone : (i : ℤ) = 1 ↔ i = 1 := by
        rw [Fin.ext_iff]
        exact Nat.cast_eq_one
      rw [hcounter, hi]
      exact if_congr hone rfl rfl
  · rw [(Prod.ext_iff.1 heq).2] at hv
    cases hv

/-- Every value that a source produces for the game that runs was measured. -/
theorem measured_of_produced {g v : ℤ} {source : FpsDisplaySource} (hg : (κ n).gamePid = some g)
    (h : (worker.output κ n).Produced g v source) : Measured κ n g v source := by
  cases source with
  | none => exact h
  | videoOut => exact counterRate_of_sampled h
  | sharedHen =>
    obtain ⟨hb, hv⟩ := h
    rcases measured_of_dce hg hv with ⟨-, hshared⟩ | ⟨i, -, hname⟩
    · exact hshared
    · rw [hb] at hname
      split_ifs at hname
  | dceFixed =>
    obtain ⟨hb, hv⟩ := h
    rcases measured_of_dce hg hv with ⟨hname, -⟩ | ⟨i, hrate, hname⟩
    · cases hb.symm.trans hname
    · rw [hb] at hname
      split_ifs at hname with hi
      subst hi
      exact hrate
  | dceAdaptive =>
    obtain ⟨hb, hv⟩ := h
    rcases measured_of_dce hg hv with ⟨hname, -⟩ | ⟨i, hrate, hname⟩
    · cases hb.symm.trans hname
    · rw [hb] at hname
      split_ifs at hname with hi
      exact ⟨i, hi, hrate⟩

end worker

/-! ## On the screen -/

/-- A rate that the widgets display, from an update that succeeds until the next one, was measured
    by the worker: in one of the iterations before it was sent, in a stretch of at least 5 s in
    each of which the same source measured a rate of the same game. -/
theorem overlay_shows_measured {background : Bool} {κ : ℕ → WorkerInput} {ui : Ui} (hui : ui.Initial)
    {ι : ℕ → OverlayTurn} {n m : ℕ} {packet : PacketBytes}
    (hupdated : ((overlay background κ ui).output ι n).act = some (.updated packet true))
    (hnm : n < m) (hlast : ∀ i, n < i → i < m → ∀ q ok,
      ((overlay background κ ui).output ι i).act ≠ some (.updated q ok)) :
    ∃ frame, decodeWirePacket packet.packet = some frame ∧
      ((overlay background κ ui).state ι m).ui.Displays frame ∧
      (frame.loading = false → ∃ k g source j, (∃ r < n, k < (ι r).iterations) ∧ j ≤ k ∧
        (∀ i, j ≤ i → i ≤ k → (κ i).gamePid = some g ∧ ∃ v, worker.Measured κ i g v source) ∧
        (∃ i, j ≤ i ∧ i ≤ k ∧ worker.Measured κ i g frame.fps source) ∧
        (κ j).filterNowUs + 5000000 ≤ (κ k).filterNowUs) := by
  obtain ⟨k, hk⟩ := exists_arrival hupdated
  obtain ⟨hbefore, hsent⟩ := mem_arrivals hk
  obtain ⟨frame, hdecode, hdisplays⟩ := displays_of_updated hui hupdated hnm hlast
  refine ⟨frame, hdecode, hdisplays, fun hl => ?_⟩
  obtain ⟨-, g, source, j, -, hjk, hstretch, ⟨i, hji, hik, hproduced⟩, htime⟩ :=
    worker.current_of_sent hsent hdecode hl
  refine ⟨k, g, source, j, hbefore, hjk, fun i hji hik => ?_, ⟨i, hji, hik, ?_⟩, htime⟩
  · obtain ⟨hg, -, v, -, hv⟩ := hstretch i hji hik
    exact ⟨hg, v, worker.measured_of_produced hg hv⟩
  · exact worker.measured_of_produced (hstretch i hji hik).1 hproduced

/-- The game counts 60 frames each second, in the counter that VideoOut finds at once. -/
def countedRateInput (n : ℕ) : WorkerInput :=
  { sharedRateInput n with
    sample := ⟨true, some (60 * n.toUInt32), 1000000 * n⟩
    attach := ⟨0, some 0x1000, some 0x2000, 0⟩
    dce := { (sharedRateInput n).dce with shared := none } }

theorem overlay_shows_measured_counted : ∃ frame,
    ((overlay false countedRateInput {}).state delivery 103).ui.Displays frame ∧
    ∃ i g source, worker.Measured countedRateInput i g frame.fps source := by
  have hupdated : ((overlay false countedRateInput {}).output delivery 101).act =
      some (.updated ratePacket true) := updated_of_shownOf (by decide +kernel)
  have hnone : ((overlay false countedRateInput {}).output delivery 102).act.isNone := by
    decide +kernel
  obtain ⟨frame, hdecode, hdisplays, hmeasured⟩ :=
    overlay_shows_measured initial_empty hupdated (m := 103) (by decide) fun i hi him q ok hact => by
      obtain rfl : i = 102 := by omega
      rw [hact] at hnone
      cases hnone
  have hloading : (decodeWirePacket ratePacket.packet).map OverlayFrame.loading = some false := by
    decide +kernel
  rw [hdecode] at hloading
  obtain ⟨k, g, source, j, -, -, -, ⟨i, -, -, hi⟩, -⟩ := hmeasured (Option.some.inj hloading)
  exact ⟨frame, hdisplays, i, g, source, hi⟩

end CommonFps
