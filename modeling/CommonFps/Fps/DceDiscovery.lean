import CommonFps.Fps.Dce

/-!
# The evidence for a discovered word

A word other than the known one is to be selected only after two windows in a
row with close valid rates of it. The sampler remembers the last rate of every
word, but only updates what it remembers in the windows that it searches: those
in which neither the known word nor a selected one is used.

* `discover_candidates`: a search remembers the rates of its window;
* `choose_selects`: a word is selected if its rate is close to the remembered one;
* `discovery_evidence`: in any run, the evidence of a selection is that of two
  windows in a row, unless the search follows the loss of a selected word in the
  same window (`StaleSearch`);
* `discovery_stale`: then the remembered rate may be that of an older window.
-/

namespace CommonFps

namespace DceCounterSampler

/-- A rate is close to a remembered one. -/
def Close (previous fps : ℤ) : Prop := previous ≠ 0 ∧ |previous - fps| ≤ 12

instance (previous fps : ℤ) : Decidable (Close previous fps) := by
  rw [Close]
  infer_instance

theorem difference_eq (previous fps : ℤ) :
    (if previous > fps then previous - fps else fps - previous) = |previous - fps| := by
  split_ifs with h
  · exact (abs_of_pos (sub_pos.2 h)).symm
  · rw [abs_sub_comm]
    exact (abs_of_nonneg (sub_nonneg.2 (not_lt.1 h))).symm

variable {s : DceCounterSampler} {fps : Fin 12 → ℤ}

/-- A round of the search remembers the rate of its word. -/
theorem discoverWord_candidates (fps : Fin 12 → ℤ) (acc : DceCounterSampler × Best) (i : Fin 12) :
    (discoverWord fps acc i).1.candidateLastFps = Function.update acc.1.candidateLastFps i (fps i) := by
  obtain ⟨s, best⟩ := acc
  by_cases hz : fps i = 0 <;> simp [discoverWord, hz]

/-- A round of the search keeps the best candidate, or makes its word the best
    one, if its rate is close to the remembered one. -/
theorem discoverWord_close (fps : Fin 12 → ℤ) (acc : DceCounterSampler × Best) (i : Fin 12) :
    (discoverWord fps acc i).2 = acc.2 ∨
      (discoverWord fps acc i).2.word = i ∧ fps i ≠ 0 ∧ Close (acc.1.candidateLastFps i) (fps i) := by
  obtain ⟨s, best⟩ := acc
  by_cases hz : fps i = 0
  · exact .inl (by simp [discoverWord, hz])
  simp only [discoverWord, if_neg hz, difference_eq]
  by_cases hclose : s.candidateLastFps i ≠ 0 ∧ |s.candidateLastFps i - fps i| ≤ 12
  · split_ifs
    · exact .inr ⟨rfl, hz, hclose⟩
    · exact .inl rfl
  · -- A streak of one is none.
    rw [if_neg hclose, if_neg fun h => absurd h.1 (by decide)]
    exact .inl rfl

/-- The search, over words that are all different. -/
theorem foldl_discoverWord (fps : Fin 12 → ℤ) {l : List (Fin 12)} (hl : l.Nodup)
    (acc : DceCounterSampler × Best) :
    let r := l.foldl (discoverWord fps) acc
    r.1.candidateLastFps = (fun k => if k ∈ l then fps k else acc.1.candidateLastFps k) ∧
      (r.2 = acc.2 ∨ ∃ i ∈ l, r.2.word = i ∧ fps i ≠ 0 ∧ Close (acc.1.candidateLastFps i)
      (fps i)) := by
  induction l generalizing acc with
  | nil => exact ⟨by simp, .inl rfl⟩
  | cons i l ih =>
    obtain ⟨hi, hl⟩ := List.nodup_cons.1 hl
    obtain ⟨hcand, hbest⟩ := ih hl (discoverWord fps acc i)
    rw [discoverWord_candidates] at hcand hbest
    refine ⟨?_, ?_⟩
    · funext k
      refine (congrFun hcand k).trans ?_
      by_cases hk : k = i
      · simp [hk, hi]
      · simp [hk]
    · rcases hbest with hbest | ⟨k, hk, hw, hf, hclose⟩
      · rw [List.foldl_cons, hbest]
        refine (discoverWord_close fps acc i).imp_right fun h => ⟨i, List.mem_cons_self, h⟩
      · have hne : k ≠ i := fun h => hi (h ▸ hk)
        rw [Function.update_of_ne hne] at hclose
        exact .inr ⟨k, List.mem_cons_of_mem i hk, hw, hf, hclose⟩

/-- A search remembers the rates of its window; the word that it selects has a
    rate that is close to the one remembered before. -/
theorem discover_candidates (s : DceCounterSampler) (fps : Fin 12 → ℤ) :
    (s.discover fps).1.candidateLastFps = fps ∧
      ((s.discover fps).1.selectedWord = s.selectedWord ∨ ∃ i : Fin 12,
        (s.discover fps).1.selectedWord = i ∧ fps i ≠ 0 ∧ Close (s.candidateLastFps i) (fps i)) := by
  obtain ⟨hcand, hbest⟩ := foldl_discoverWord fps (List.nodup_finRange 12) (s, {})
  obtain ⟨⟨hsel, _⟩, _⟩ := discoverWord_foldl fps (s, {}) (List.finRange 12)
    (.inl (show (-1 : ℤ) < 0 by decide))
  rw [discover]
  generalize (List.finRange 12).foldl (discoverWord fps) (s, {}) = r at *
  obtain ⟨t, best⟩ := r
  dsimp only at *
  have hall : t.candidateLastFps = fps := by simpa using hcand
  split_ifs with hw
  · refine ⟨hall, ?_⟩
    rcases hbest with rfl | ⟨i, _, h⟩
    · exact absurd hw (by decide)
    · exact .inr ⟨i, h⟩
  · exact ⟨hall, .inl hsel⟩

theorem follow_frame (s : DceCounterSampler) (fps : Fin 12 → ℤ) :
    (s.follow fps).1.candidateLastFps = s.candidateLastFps := by
  rw [follow]
  dsimp only
  split_ifs <;> rfl

/-- Where the word 1 or the selected word is used, there is a selected word. -/
theorem follow_selected (h : (s.follow fps).2 ≠ 0) : 0 ≤ (s.follow fps).1.selectedWord := by
  rw [follow] at h ⊢
  dsimp only at h ⊢
  split_ifs at h ⊢ with _ hrange
  · exact Int.one_nonneg
  · exact absurd rfl h
  · exact absurd rfl h
  · exact hrange.1
  · exact absurd rfl h

/-- What follows the word 1 or the selected word selects no other one. -/
theorem follow_selects {i : Fin 12} (hi : i ≠ 1) (h : (s.follow fps).1.selectedWord = i) :
    s.selectedWord = i := by
  rw [follow] at h
  dsimp only at h
  split_ifs at h
  · have hone : (1 : ℤ) = i := h
    exact absurd (Fin.ext (by exact_mod_cast hone.symm)) hi
  · simp only at h
    omega
  · exact h
  · exact h
  · exact h

/-- A search happens where the word 1 has no rate, and no word is selected, or one
    is lost by its third miss. -/
structure Searched (s : DceCounterSampler) (fps : Fin 12 → ℤ) : Prop where
  fixed : fps 1 = 0
  lost : ∀ j : Fin 12, s.selectedWord = j → fps j = 0 ∧ 3 ≤ s.selectedInvalid + 1

/-- A window that leaves no word selected was searched. -/
theorem choose_unselected (h : (s.choose fps).1.selectedWord < 0) :
    (s.choose fps).1.candidateLastFps = fps := by
  rw [choose] at h ⊢
  split_ifs at h ⊢ with hsearch
  · exact (discover_candidates _ fps).1
  · exact absurd (not_le.2 h) fun hneg => hneg (follow_selected fun hzero => hsearch ⟨hzero, h⟩)

/-- A word other than the word 1 that is newly selected was searched for, and has
    a rate that is close to the remembered one. -/
theorem choose_selects (hs : Selection s.selectedWord s.selectedInvalid) {i : Fin 12} (hi : i ≠ 1)
    (hnew : s.selectedWord ≠ i) (h : (s.choose fps).1.selectedWord = i) :
    Searched s fps ∧ fps i ≠ 0 ∧ Close (s.candidateLastFps i) (fps i) := by
  refine ⟨?_, ?_⟩
  · -- Neither the word 1 nor the selected one is used.
    have hchosen := choose_chosen fps hs
    rw [h] at hchosen
    cases hchosen with
    | used j _ hw _ _ hfixed hlost =>
      obtain rfl : i = j := by
        ext
        exact_mod_cast hw
      have hzero : fps 1 = 0 := not_not.1 fun hne => hi (hfixed hne)
      refine ⟨hzero, fun k hk => (hlost hzero k hk).resolve_left fun hik => ?_⟩
      exact hnew (hk.trans (by rw [hik]))
    | missed j hsel _ _ _ hw => exact absurd (hsel.trans hw.symm) hnew
    | nothing _ _ hw => omega
  · rw [choose] at h
    split_ifs at h with hsearch
    · obtain ⟨_, hsame | ⟨j, hj, hf, hclose⟩⟩ := discover_candidates (s.follow fps).1 fps
      · have hneg := hsearch.2
        rw [← hsame, h] at hneg
        omega
      · obtain rfl : i = j := by
          ext
          exact_mod_cast h.symm.trans hj
        rw [follow_frame] at hclose
        exact ⟨hf, hclose⟩
    · exact absurd (follow_selects hi h) hnew

end DceCounterSampler

/-! ## Runs -/

section Runs

open DceCounterSampler

/-- The displayed rate of a word between two blocks. -/
def wordFps (w₀ : Words) (t₀ : ℕ) (w₁ : Words) (t₁ : ℕ) (i : Fin 12) : ℤ :=
  min 120 ⌊wordRate w₀ t₀ w₁ t₁ i + 1 / 2⌋

variable (ι : ℕ → DceCall)

/-- The call `n` makes the word `i` the selected one. -/
def Selects (n : ℕ) (i : Fin 12) : Prop := selectedWord ι n ≠ i ∧ selectedWord ι (n + 1) = i

/-- The window that the call `n` completes and the one immediately before it both
    have a valid rate of the word `i`, and these are close. -/
def TwiceValid (n : ℕ) (i : Fin 12) : Prop :=
  ∃ k m w₀ t₀ w₁ t₁ w₂ t₂, Consecutive ι k m w₀ t₀ w₁ t₁ ∧
    Consecutive ι m n w₁ t₁ w₂ t₂ ∧
    ValidWord w₀ t₀ w₁ t₁ i ∧ ValidWord w₁ t₁ w₂ t₂ i ∧
    |wordFps w₀ t₀ w₁ t₁ i - wordFps w₁ t₁ w₂ t₂ i| ≤ 12

/-- The call `n` loses the selected word by its third miss, so that the window
    before it was not searched, while a word with a valid rate in its window has a
    remembered one that is close. -/
def StaleSearch (n : ℕ) : Prop :=
  ∃ m w₀ t₀ w₁ t₁, Consecutive ι m n w₀ t₀ w₁ t₁ ∧ ¬ValidWord w₀ t₀ w₁ t₁ 1 ∧
    (∃ j : Fin 12, selectedWord ι n = j ∧ ¬ValidWord w₀ t₀ w₁ t₁ j ∧
      (dceCounter.state ι n).selectedInvalid = 2) ∧
    ∃ i, ValidWord w₀ t₀ w₁ t₁ i ∧
      Close ((dceCounter.state ι n).candidateLastFps i) (wordFps w₀ t₀ w₁ t₁ i)

/-- What the sampler remembers while no word is selected: the rates of the last
    window. -/
structure Remembers (n : ℕ) (s : DceCounterSampler) : Prop where
  warmup : s.warmupDeltasRemaining ≠ 0 → ∀ i, s.candidateLastFps i = 0
  searched : s.selectedWord = -1 → ∀ i, s.candidateLastFps i ≠ 0 →
    ∃ k m w₀ t₀, Consecutive ι k m w₀ t₀ s.previousWords s.previousTimeUs ∧
      LastMark ι true m n s.previousWords s.previousTimeUs ∧
      s.candidateLastFps i = fpsForWord w₀ s.previousWords (s.previousTimeUs - t₀) i

variable {ι}

theorem Remembers.nothing {n : ℕ} {s : DceCounterSampler} (h : ∀ i, s.candidateLastFps i = 0) :
    Remembers ι n s :=
  ⟨fun _ => h, fun _ i hi => absurd (h i) hi⟩

theorem dce_remembers : ∀ n, Remembers ι n (dceCounter.state ι n) := by
  refine Driven.invariant (.nothing fun _ => rfl) fun n ih => ?_
  have inv := dce_invariant (ι := ι) n
  cases hι : ι n with
  | reset => exact .nothing fun _ => rfl
  | sample w t =>
    cases hr : reading (dceCounter.state ι n).haveBaseline (dceCounter.state ι n).previousTimeUs t with
    | first =>
      rw [← hι, SampledAt.step ⟨hι, hr⟩, sample_first hr]
      exact .nothing (ih.warmup (inv.baseline (reading_eq_first.1 hr)))
    | rebase =>
      rw [← hι, SampledAt.step ⟨hι, hr⟩, sample_rebase hr]
      exact .nothing fun _ => rfl
    | short =>
      rw [← hι, SampledAt.step ⟨hι, hr⟩, sample_short hr]
      refine ⟨ih.warmup, fun hs i hi => ?_⟩
      obtain ⟨k, m, w₀, t₀, hcon, hlast, hval⟩ := ih.searched hs i hi
      exact ⟨k, m, w₀, t₀, hcon, hlast.succ ⟨hι, hr⟩, hval⟩
    | window =>
      by_cases hw : (dceCounter.state ι n).warmupDeltasRemaining = 0
      · rw [← hι, SampledAt.step ⟨hι, hr⟩, sample_window hr hw]
        obtain ⟨m, hcon⟩ := SampledAt.consecutive ⟨hι, hr⟩ hw
        refine ⟨fun h => absurd ((choose_frame _ _).2.trans hw) h, fun hs i _ => ?_⟩
        -- No word is selected: the window was searched.
        have hneg : ((dceCounter.state ι n).choose ((dceCounter.state ι n).rates w t)).1.selectedWord < 0 :=
          (show _ = (-1 : ℤ) from hs).trans_lt (by decide)
        exact ⟨m, n, _, _, hcon, hcon.mark.last, congrFun (choose_unselected hneg) i⟩
      · rw [← hι, SampledAt.step ⟨hι, hr⟩, sample_warmup hr hw]
        exact .nothing (ih.warmup hw)

/-- A word is selected in the second of two consecutive windows. -/
theorem Selects.consecutive {n : ℕ} {i : Fin 12} (h : Selects ι n i) : ∃ m w₀ t₀ w₁ t₁,
    Consecutive ι m n w₀ t₀ w₁ t₁ ∧
      ((dceCounter.state ι n).choose (fpsForWord w₀ w₁ (t₁ - t₀))).1.selectedWord = i := by
  obtain ⟨hold, hnew⟩ := h
  have inv := dce_invariant (ι := ι) n
  rw [selectedWord] at hold hnew
  rw [Driven.state_succ] at hnew
  cases hι : ι n with
  | reset =>
    rw [hι] at hnew
    exact absurd (show (-1 : ℤ) = i from hnew) (by omega)
  | sample w t =>
    cases hr : reading (dceCounter.state ι n).haveBaseline (dceCounter.state ι n).previousTimeUs t with
    | first =>
      rw [SampledAt.step ⟨hι, hr⟩, sample_first hr] at hnew
      exact absurd hnew hold
    | rebase =>
      rw [SampledAt.step ⟨hι, hr⟩, sample_rebase hr] at hnew
      exact absurd (show (-1 : ℤ) = i from hnew) (by omega)
    | short =>
      rw [SampledAt.step ⟨hι, hr⟩, sample_short hr] at hnew
      exact absurd hnew hold
    | window =>
      by_cases hw : (dceCounter.state ι n).warmupDeltasRemaining = 0
      · rw [SampledAt.step ⟨hι, hr⟩, sample_window hr hw] at hnew
        obtain ⟨m, hcon⟩ := SampledAt.consecutive ⟨hι, hr⟩ hw
        exact ⟨m, _, _, w, t, hcon, hnew⟩
      · rw [SampledAt.step ⟨hι, hr⟩, sample_warmup hr hw] at hnew
        exact absurd hnew hold

theorem Consecutive.fpsForWord_eq_wordFps {m n : ℕ} {w₀ w₁ : Words} {t₀ t₁ : ℕ}
    (h : Consecutive ι m n w₀ t₀ w₁ t₁) {i : Fin 12}
    (hi : fpsForWord w₀ w₁ (t₁ - t₀) i ≠ 0) :
    ValidWord w₀ t₀ w₁ t₁ i ∧ fpsForWord w₀ w₁ (t₁ - t₀) i = wordFps w₀ t₀ w₁ t₁ i :=
  ⟨(h.fpsForWord_ne_zero i).1 hi, (h.fpsForWord_eq ((h.fpsForWord_ne_zero i).1 hi)).1⟩

/-- In any run, a call that selects a word other than the word 1 has the evidence
    of two windows in a row, unless its search is stale. -/
theorem discovery_evidence (ι : ℕ → DceCall) (n : ℕ) (hn : ¬StaleSearch ι n) (i : Fin 12)
    (hi : i ≠ 1)
    (h : Selects ι n i) : TwiceValid ι n i := by
  obtain ⟨m, w₀, t₀, w₁, t₁, hcon, hsel⟩ := h.consecutive
  obtain ⟨hsearched, hf, hclose⟩ := choose_selects (dce_invariant n).selection hi h.1 hsel
  obtain ⟨hvalid, hfps⟩ := hcon.fpsForWord_eq_wordFps hf
  rw [hfps] at hclose
  have hnot : ∀ {j}, fpsForWord w₀ w₁ (t₁ - t₀) j = 0 → ¬ValidWord w₀ t₀ w₁ t₁ j :=
    fun hz hv =>
    (hcon.fpsForWord_ne_zero _).2 hv hz
  rcases (dce_invariant (ι := ι) n).selection.range with hnone | ⟨j, hj⟩
  · obtain ⟨rfl, rfl, -⟩ := hcon.state
    obtain ⟨k, m', w₀, t₀, hcon', hlast, hval⟩ := (dce_remembers n).searched hnone i hclose.1
    obtain ⟨hvalid', hfps'⟩ := hcon'.fpsForWord_eq_wordFps (hval ▸ hclose.1)
    refine ⟨k, m', w₀, t₀, _, _, w₁, t₁, hcon', ⟨hlast, hcon.sample, hcon.lower, hcon.upper⟩,
      hvalid', hvalid, ?_⟩
    rw [← hfps', ← hval]
    exact hclose.2
  · obtain ⟨hlost, hthird⟩ := hsearched.lost j hj
    have hlt := (dce_invariant (ι := ι) n).selection.lt
    exact absurd ⟨m, w₀, t₀, w₁, t₁, hcon, hnot hsearched.fixed, ⟨j, hj, hnot hlost, by omega⟩, i,
      hvalid,
      hclose⟩ hn

/-- The word 3 moves in every window. -/
def steadyCalls (n : ℕ) : DceCall := .sample (blockWith 0 (60 * n.toUInt64)) (1000000 * (n + 1))

theorem discovery_evidence_steady : TwiceValid steadyCalls 3 3 := by
  refine discovery_evidence steadyCalls 3 ?_ 3 (by decide) (by rw [Selects]; decide +kernel)
  rintro ⟨_, _, _, _, _, _, _, ⟨j, hj, _⟩, _⟩
  have hnone : selectedWord steadyCalls 3 = -1 := by decide +kernel
  rw [hnone] at hj
  omega

/-- The word 3 moves in a window, then the word 1 in one; then both rest for two,
    and the word 3 moves again, as the word 1 is lost. -/
def staleCalls (n : ℕ) : DceCall :=
  .sample (blockWith (if n < 3 then 0 else 60) (if n < 2 then 0 else if n < 6 then 60 else 120))
    (1000000 * (n + 1))

/-- The word 3 is selected after a window in which it did not move. -/
theorem discovery_stale : Selects staleCalls 6 3 ∧ ¬TwiceValid staleCalls 6 3 := by
  refine ⟨by rw [Selects]; decide +kernel, ?_⟩
  rintro ⟨k, m, w₀, t₀, w₁, t₁, w₂, t₂, hcon, hcon', hvalid, -⟩
  have hm : m = 5 := by
    have hlt := hcon'.last.lt
    by_contra hne
    obtain ⟨w, t, hι, -, hshort⟩ := hcon'.last.unmarked 5 (by omega) (by decide)
    obtain ⟨-, rfl⟩ := DceCall.sample.inj hι
    obtain ⟨-, rfl⟩ := DceCall.sample.inj hcon.sample
    omega
  subst hm
  obtain ⟨rfl, -, -⟩ := hcon.state
  obtain ⟨rfl, -, -⟩ := hcon'.state
  have hrest : (dceCounter.state staleCalls 5).previousWords 3 =
      (dceCounter.state staleCalls 6).previousWords 3 := by
    decide +kernel
  have hrate := hvalid.2.1
  rw [wordRate, hrest, sub_self, mul_zero, zero_div] at hrate
  exact absurd hrate (by norm_num)

end Runs

end CommonFps
