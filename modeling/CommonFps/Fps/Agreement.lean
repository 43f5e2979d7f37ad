import CommonFps.Fps.VideoOut
import CommonFps.Fps.Dce

/-!
# The two samplers agree

The VideoOut sampler computes a rate in tenths, with integers, and discards a
window after computing it; the DCE sampler computes it with floating-point
numbers, chooses between twelve words, and forgets everything on a gap. Fed the
same readings, they return the same values (`samplers_agree`), as long as no
rate falls where the two validations differ: under one frame per second, or
between 130 and 130.1.

The two are in simulation (`Agree`): they share their baseline, and the DCE
sampler selects no other word than the word 1.
-/

namespace CommonFps

/-- A reading of a counter, and its time. -/
abbrev CounterReading := UInt32 × ℕ

/-- The VideoOut sampler in the state `s`, of a live process whose counter is
    always read. -/
def videoOutReadings (s : FpsSampler) : Driven FpsSampler CounterReading (Option ℤ) where
  init := s
  step s r := s.sample ⟨true, some r.1, r.2⟩

/-- The block `words` with the counter `c` as its word 1. -/
def counterBlock (words : Words) (c : UInt32) : Words := Function.update words 1 c.toUInt64

/-- A fresh DCE sampler, of blocks constant but for the counter. -/
def dceReadings (words : Words) : Driven DceCounterSampler CounterReading (Option ℤ) where
  init := {}
  step s r := s.sample (counterBlock words r.1) r.2

/-- The rate of the window that a reading of the VideoOut counter completes, if any. -/
def FpsSampler.windowRate (s : FpsSampler) (r : CounterReading) : Option ℚ :=
  if reading s.haveBaseline s.previousTimeUs r.2 = .window then
    some (rate (r.1.toNat - s.previousCounter.toNat) (r.2 - s.previousTimeUs))
  else none

/-- The rate of the word 1 in the window that a reading of the DCE block
    completes, if any. -/
def DceCounterSampler.windowRate (s : DceCounterSampler) (words : Words) (nowUs : ℕ) : Option ℚ :=
  if reading s.haveBaseline s.previousTimeUs nowUs = .window then
    some (rate ((words 1).toNat - (s.previousWords 1).toNat) (nowUs - s.previousTimeUs))
  else none

/-- A rate on which the two validations agree. -/
def AgreedRate (fps : ℚ) : Prop := ValidRate fps ∨ 130.1 ≤ fps

section Agreement

variable {words : Words} {s : FpsSampler} {s' : DceCounterSampler}

/-- The samplers are in simulation, the counter being at most `c`. -/
structure Agree (words : Words) (c : UInt32) (s : FpsSampler) (s' : DceCounterSampler) : Prop where
  attached : s.Attached
  baseline : s'.haveBaseline = s.haveBaseline
  warmup : s'.warmupDeltasRemaining = s.warmupDeltasRemaining
  time : s'.previousTimeUs = s.previousTimeUs
  block : s.haveBaseline = true → s'.previousWords = counterBlock words s.previousCounter
  le : s.haveBaseline = true → s.previousCounter ≤ c
  selection : DceCounterSampler.Selection s'.selectedWord s'.selectedInvalid
  fixed : ∀ i : Fin 12, s'.selectedWord = i → i = 1

/-- A counter that grew: its 32-bit difference does not wrap, and is that of the
    64-bit words. -/
theorem toNat_sub_of_le {p c : UInt32} (h : p ≤ c) : (c - p).toNat = c.toNat - p.toNat ∧
    p.toUInt64 ≤ c.toUInt64 ∧ (c.toUInt64 - p.toUInt64).toNat = c.toNat - p.toNat := by
  have hle : p.toUInt64 ≤ c.toUInt64 := by simpa [UInt64.le_iff_toNat_le, UInt32.le_iff_toNat_le] using h
  refine ⟨UInt32.toNat_sub_of_le _ _ h, hle, ?_⟩
  rw [UInt64.toNat_sub_of_le _ _ hle, UInt32.toNat_toUInt64, UInt32.toNat_toUInt64]

/-- In a window, only the word 1 can have a rate. -/
theorem fpsForWord_counterBlock {p c : UInt32} {e : ℕ} (h : p ≤ c) (i : Fin 12) :
    DceCounterSampler.fpsForWord (counterBlock words p) (counterBlock words c) e i =
      if i = 1 then (validatedFps (rate (c.toNat - p.toNat) e)).getD 0 else 0 := by
  obtain ⟨_, hle, hsub⟩ := toNat_sub_of_le h
  rw [DceCounterSampler.fpsForWord]
  by_cases hi : i = 1
  · subst hi
    simp [counterBlock, UInt64.not_lt.2 hle, hsub]
  · have hzero : validatedFps 0 = none := validatedFps_eq_none.2 (by norm_num [ValidRate])
    simp [counterBlock, hi, hzero]

/-- The value that the VideoOut sampler makes of an agreed rate. -/
theorem tenths_eq {delta elapsed : ℕ} (h : AgreedRate (rate delta elapsed)) :
    (if delta * 10000000 / elapsed > kMaxTenthsFps then none
      else some (min (((delta * 10000000 / elapsed + 5) / 10 : ℕ) : ℤ) kMaxDisplayFps)) =
      validatedFps (rate delta elapsed) := by
  have htenths : ((delta * 10000000 / elapsed : ℕ) : ℤ) = ⌊10 * rate delta elapsed⌋ := by
    rw [natCast_div_eq_floor, rate]
    push_cast
    ring_nf
  have hmax : kMaxTenthsFps = 1300 := rfl
  rw [validatedFps_eq_ite]
  rcases h with hv | hbig
  · have hle : ⌊10 * rate delta elapsed⌋ ≤ 1300 := by
      have : 10 * rate delta elapsed ≤ 1300 := by linarith [hv.2]
      exact_mod_cast (Int.floor_le _).trans this
    rw [if_neg (by omega), if_pos hv, tenths_round, min_comm, rate, mul_comm (delta : ℚ)]
    norm_num [kMaxDisplayFps]
  · have hlt : 1301 ≤ ⌊10 * rate delta elapsed⌋ := Int.le_floor.2 (by push_cast; linarith)
    have hv : ¬ValidRate (rate delta elapsed) := fun hv => by linarith [hv.2]
    rw [if_pos (by omega), if_neg hv]

/-- The optional value of a rate, through the `0` that stands for none. -/
theorem validatedFps_eq_ite_getD (fps : ℚ) : (if (validatedFps fps).getD 0 = 0 then none
    else some ((validatedFps fps).getD 0)) = validatedFps fps := by
  cases hv : validatedFps fps with
  | none => rfl
  | some v =>
    have := (validatedFps_bounds hv).1
    exact if_neg (show v ≠ 0 by omega)

/-- When only the word 1 can have a rate, the value is its own, and no other
    word is selected. -/
theorem chosen_fixed {fps : Fin 12 → ℤ} {word value : ℤ} {invalid : ℕ}
    (h : DceCounterSampler.Chosen s' fps word invalid value) (hfps : ∀ i, fps i ≠ 0 → i = 1)
    (hs : ∀ i : Fin 12, s'.selectedWord = i → i = 1) :
    value = fps 1 ∧ ∀ i : Fin 12, word = i → i = 1 := by
  cases h with
  | used j hf hw _ hv =>
    obtain rfl := hfps j hf
    exact ⟨hv, fun i hi => by ext; omega⟩
  | missed j hj h₁ _ _ hw _ hv =>
    obtain rfl := hs j hj
    exact ⟨hv.trans h₁.symm, fun i hi => by ext; omega⟩
  | nothing h₁ _ hw _ hv => exact ⟨hv.trans h₁.symm, fun i hi => by omega⟩

/-- An attached sampler measures the counter. -/
theorem sample_of_attached (h : s.Attached) (c : UInt32) (t : ℕ) :
    s.sample ⟨true, some c, t⟩ = s.measure c t := by
  rw [FpsSampler.sample, if_neg (not_not.2 h)]
  rfl

/-- A measure keeps the sampler attached. -/
theorem attached_measure (h : s.Attached) (c : UInt32) (t : ℕ) : (s.measure c t).1.Attached := by
  obtain ⟨hp, ha, _⟩ := s.measure_frame c t
  rwa [FpsSampler.Attached, hp, ha]

/-- What a reading does, to the two samplers. -/
theorem Agree.step {c c' : UInt32} {t : ℕ} (h : Agree words c s s') (hle : c ≤ c')
    (hrate : ∀ r, s.windowRate (c', t) = some r → AgreedRate r) :
    Agree words c' (s.sample ⟨true, some c', t⟩).1 (s'.sample (counterBlock words c') t).1 ∧
      (s.sample ⟨true, some c', t⟩).2 = (s'.sample (counterBlock words c') t).2 := by
  -- Both samplers read the clock against the same baseline, so they are in the same case.
  have hatt := attached_measure h.attached c' t
  rw [sample_of_attached h.attached]
  have hread : reading s'.haveBaseline s'.previousTimeUs t = reading s.haveBaseline s.previousTimeUs t := by
    rw [h.baseline, h.time]
  cases hr : reading s.haveBaseline s.previousTimeUs t with
  | first =>
    rw [FpsSampler.measure_first hr] at hatt ⊢
    rw [DceCounterSampler.sample_first (hread.trans hr)]
    exact ⟨⟨hatt, rfl, h.warmup, rfl, fun _ => rfl, fun _ => UInt32.le_refl _, h.selection, h.fixed⟩,
      rfl⟩
  | rebase =>
    have hb := (reading_eq_rebase.1 hr).1
    rw [FpsSampler.measure_rebase hr] at hatt ⊢
    rw [DceCounterSampler.sample_rebase (hread.trans hr)]
    exact ⟨⟨hatt, hb.symm, rfl, rfl, fun _ => rfl, fun _ => UInt32.le_refl _, .fresh,
      fun i (hi : (-1 : ℤ) = i) => by omega⟩, rfl⟩
  | short =>
    rw [FpsSampler.measure_short hr] at hatt ⊢
    rw [DceCounterSampler.sample_short (hread.trans hr)]
    exact ⟨⟨hatt, h.baseline, h.warmup, h.time, h.block, fun hb => UInt32.le_trans (h.le hb) hle,
      h.selection, h.fixed⟩, rfl⟩
  | window =>
    have hb := (reading_eq_window.1 hr).1
    by_cases hw : s.warmupDeltasRemaining = 0
    · have hle := UInt32.le_trans (h.le hb) hle
      have hagreed := hrate _ (by rw [FpsSampler.windowRate, if_pos hr])
      rw [FpsSampler.measure_window hr hw] at hatt ⊢
      rw [DceCounterSampler.sample_window (hread.trans hr) (h.warmup.trans hw)]
      have hchosen := DceCounterSampler.choose_chosen (s'.rates (counterBlock words c') t) h.selection
      have hframe := s'.choose_frame (s'.rates (counterBlock words c') t)
      rw [DceCounterSampler.rates, h.block hb, h.time] at hchosen hframe ⊢
      -- Only the word of the counter has a rate, so no other one is chosen.
      have hone : ∀ i, DceCounterSampler.fpsForWord (counterBlock words s.previousCounter)
          (counterBlock words c') (t - s.previousTimeUs) i ≠ 0 → i = 1 := by
        intro i hi
        by_contra hne
        rw [fpsForWord_counterBlock hle, if_neg hne] at hi
        exact hi rfl
      obtain ⟨hvalue, hfixed⟩ := chosen_fixed hchosen hone h.fixed
      refine ⟨⟨hatt, hframe.1.trans h.baseline, hframe.2.trans h.warmup, rfl, fun _ => rfl,
        fun _ => UInt32.le_refl _, hchosen.selection, hfixed⟩, ?_⟩
      dsimp only
      rw [(toNat_sub_of_le hle).1, tenths_eq hagreed, hvalue, fpsForWord_counterBlock hle, if_pos rfl]
      exact (validatedFps_eq_ite_getD _).symm
    · rw [FpsSampler.measure_warmup_window hr hw] at hatt ⊢
      rw [DceCounterSampler.sample_warmup (hread.trans hr) (h.warmup ▸ hw)]
      exact ⟨⟨hatt, h.baseline, congrArg (· - 1) h.warmup, rfl, fun _ => rfl, fun _ => UInt32.le_refl _,
        h.selection, h.fixed⟩, rfl⟩

/-- The samplers agree on any readings of a counter that does not decrease, at
    any times, if the rates of all windows are agreed. -/
theorem samplers_agree (b : Build) (s : FpsSampler) (pid : ℤ) (a : AttachAnswers)
    (hok : (s.attach b pid a).2 = true) (hatt : (s.attach b pid a).1.Attached) (words : Words)
    (ρ : ℕ → CounterReading) (N : ℕ) (hmono : ∀ j < N, ∀ i ≤ j, (ρ i).1 ≤ (ρ j).1)
    (hrate : ∀ n < N, ∀ r,
      (((videoOutReadings (s.attach b pid a).1).state ρ n).windowRate (ρ n) = some r ∨
        ((dceReadings words).state ρ n).windowRate (counterBlock words (ρ n).1) (ρ n).2 = some r) →
      AgreedRate r) :
    ∀ n < N, (videoOutReadings (s.attach b pid a).1).output ρ n = (dceReadings words).output ρ n := by
  obtain ⟨hb, hw, ht, _⟩ := FpsSampler.attach_of_accepted hok
  refine Driven.outputs_agree (R := fun n t t' => ∃ c, (n < N → c ≤ (ρ n).1) ∧
    Agree words c t t') ?_ ?_
  · refine ⟨0, fun _ => UInt32.le_iff_toNat_le.2 (Nat.zero_le _), hatt, hb.symm, hw.symm, ht.symm,
      fun h => ?_, fun h => ?_, .fresh, fun i (hi : (-1 : ℤ) = i) => by omega⟩
    · exact absurd (hb.symm.trans h) (by decide)
    · exact absurd (hb.symm.trans h) (by decide)
  · rintro n hn ⟨c, hc, hagree⟩
    obtain ⟨hnext, hout⟩ := hagree.step (hc hn) fun r hr => hrate n hn r (.inl hr)
    exact ⟨⟨_, fun hn' => hmono (n + 1) hn' n (Nat.le_succ n), hnext⟩, hout⟩

/-- A steady counter at 60 frames per second: both samplers return 60 with the
    second window. -/
theorem samplers_agree_steady :
    let words : Words := fun _ => 7
    let ρ : ℕ → CounterReading := fun n => (60 * n.toUInt32, 1000000 * n)
    let s := (FpsSampler.attach .ps5 {} 5 ⟨1, some 1, some 9, 1⟩).1
    (videoOutReadings s).output ρ 2 = some 60 ∧
      (videoOutReadings s).output ρ 2 = (dceReadings words).output ρ 2 := by
  intro words ρ s
  have hrates : ∀ n < 3, ((videoOutReadings s).state ρ n).windowRate (ρ n) ∈ [none, some 60] ∧
      ((dceReadings words).state ρ n).windowRate (counterBlock words (ρ n).1) (ρ n).2 ∈
        [none, some 60] := by decide +kernel
  have hagreed : ∀ o : Option ℚ, o ∈ [none, some 60] → ∀ r, o = some r → AgreedRate r := by
    rintro _ ho r rfl
    obtain rfl : r = 60 := by simpa using ho
    norm_num [AgreedRate, ValidRate]
  exact ⟨by decide +kernel, samplers_agree .ps5 {} 5 ⟨1, some 1, some 9, 1⟩ (by decide)
    (by decide) words ρ
    3 (by decide +kernel) (fun n hn r hr => hr.elim (hagreed _ (hrates n hn).1 r)
      (hagreed _ (hrates n hn).2 r)) 2 (by decide)⟩

end Agreement

end CommonFps
