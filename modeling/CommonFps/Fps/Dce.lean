import CommonFps.Lib.Driven
import CommonFps.Fps.Rate

/-!
# The DCE counter sampler

The sampler of the display engine's counters (`dce_counter_sampler.cpp`): twelve
64-bit words, read together, of which one counts the flips. It completes the
same windows as the VideoOut sampler, and looks for a valid rate in each:

* of the word 1, the known place of the counter;
* else of the selected word, if there is one, which is dropped at its third
  window in a row without a valid rate;
* else, if no word is selected, of any word with two close rates in a row, the
  longest streak first (`discover`).

Floating-point rates are read as exact rationals.

* `dceCounter`: the sampler under any sequence of calls;
* `Mark`, `Consecutive`: its windows, in terms of the calls alone;
* `Mark.holds`, `dce_invariant`: what the sampler remembers of them;
* `dce_sound`: where its values come from, and which word is selected.
-/

namespace CommonFps

/-- The twelve words of a DCE block. -/
abbrev Words := Fin 12 → UInt64

instance neZero_words : NeZero 12 := ⟨Nat.succ_ne_zero 11⟩

/-- The sampler (`DceCounterSampler`). -/
structure DceCounterSampler where
  haveBaseline : Bool := false
  warmupDeltasRemaining : ℕ := kWarmupDeltasToDiscard
  previousWords : Words := fun _ => 0
  previousTimeUs : ℕ := 0
  candidateStreak : Fin 12 → UInt32 := fun _ => 0
  candidateLastFps : Fin 12 → ℤ := fun _ => 0
  selectedWord : ℤ := -1
  selectedInvalid : ℕ := 0

namespace DceCounterSampler

/-- The sampler forgets all. -/
def reset (_ : DceCounterSampler) : DceCounterSampler := {}

/-- The validated rate of the word `i` in a window, or `0` if it has none. -/
def fpsForWord (previousWords words : Words) (elapsedUs : ℕ) (i : Fin 12) : ℤ :=
  if words i < previousWords i then 0
  else (validatedFps (rate (words i - previousWords i).toNat elapsedUs)).getD 0

/-- The fixed word, and else the selected one: the value of the window, or `0`. -/
def follow (s : DceCounterSampler) (fps : Fin 12 → ℤ) : DceCounterSampler × ℤ :=
  if fps 1 ≠ 0 then ({ s with selectedWord := 1, selectedInvalid := 0 }, fps 1)
  else if h : 0 ≤ s.selectedWord ∧ s.selectedWord < 12 then
    let chosen := fps ⟨s.selectedWord.toNat, by omega⟩
    if chosen = 0 then
      if s.selectedInvalid + 1 ≥ 3 then ({ s with selectedWord := -1, selectedInvalid := 0 }, 0)
      else ({ s with selectedInvalid := s.selectedInvalid + 1 }, 0)
    else ({ s with selectedInvalid := 0 }, chosen)
  else (s, 0)

/-- The best candidate of a discovery so far. -/
structure Best where
  streak : UInt32 := 0
  word : ℤ := -1
  fps : ℤ := 0

/-- One round of the discovery loop, for the word `i`. -/
def discoverWord (fps : Fin 12 → ℤ) (acc : DceCounterSampler × Best) (i : Fin 12) :
    DceCounterSampler × Best :=
  let (s, best) := acc
  if fps i = 0 then
    ({ s with
        candidateStreak := Function.update s.candidateStreak i 0
        candidateLastFps := Function.update s.candidateLastFps i 0 }, best)
  else
    let previous := s.candidateLastFps i
    let difference := if previous > fps i then previous - fps i else fps i - previous
    let streak := if previous ≠ 0 ∧ difference ≤ 12 then s.candidateStreak i + 1 else 1
    let s := { s with
      candidateStreak := Function.update s.candidateStreak i streak
      candidateLastFps := Function.update s.candidateLastFps i (fps i) }
    (s, if streak ≥ 2 ∧ streak > best.streak then ⟨streak, i, fps i⟩ else best)

/-- The discovery of a word, over all words in order. -/
def discover (s : DceCounterSampler) (fps : Fin 12 → ℤ) : DceCounterSampler × ℤ :=
  let (s, best) := (List.finRange 12).foldl (discoverWord fps) (s, {})
  if best.word ≥ 0 then ({ s with selectedWord := best.word }, best.fps) else (s, 0)

/-- The value of a window, or `0`, given the rates of the words. -/
def choose (s : DceCounterSampler) (fps : Fin 12 → ℤ) : DceCounterSampler × ℤ :=
  let followed := s.follow fps
  if followed.2 = 0 ∧ followed.1.selectedWord < 0 then followed.1.discover fps else followed

/-- A block of counters is read at a time; the rate of the window that it completes, if any. -/
def sample (s : DceCounterSampler) (words : Words) (nowUs : ℕ) : DceCounterSampler × Option ℤ :=
  match reading s.haveBaseline s.previousTimeUs nowUs with
  | .first => ({ s with previousWords := words, previousTimeUs := nowUs, haveBaseline := true }, none)
  | .rebase =>
    ({ s.reset with previousWords := words, previousTimeUs := nowUs, haveBaseline := true }, none)
  | .short => (s, none)
  | .window =>
    if s.warmupDeltasRemaining ≠ 0 then
      ({ s with
          warmupDeltasRemaining := s.warmupDeltasRemaining - 1
          previousWords := words, previousTimeUs := nowUs }, none)
    else
      let (s', chosen) := s.choose (fpsForWord s.previousWords words (nowUs - s.previousTimeUs))
      ({ s' with previousWords := words, previousTimeUs := nowUs },
        if chosen = 0 then none else some chosen)

end DceCounterSampler

/-- A call of the sampler. -/
inductive DceCall
  | sample (words : Words) (nowUs : ℕ)
  | reset

/-- A call of the sampler; a reset returns nothing. -/
def DceCounterSampler.call (s : DceCounterSampler) : DceCall → DceCounterSampler × Option ℤ
  | .sample words nowUs => s.sample words nowUs
  | .reset => (s.reset, none)

/-- The sampler, driven by calls. -/
def dceCounter : Driven DceCounterSampler DceCall (Option ℤ) where
  init := {}
  step := DceCounterSampler.call

/-! ## One window -/

namespace DceCounterSampler

variable {s : DceCounterSampler} {fps : Fin 12 → ℤ}

/-- The words with a rate, and their values. -/
theorem fpsForWord_ne_zero {p w : Words} {e : ℕ} {i : Fin 12} : fpsForWord p w e i ≠ 0 ↔
    p i ≤ w i ∧ validatedFps (rate (w i - p i).toNat e) = some (fpsForWord p w e i) := by
  rw [fpsForWord]
  split_ifs with hlt
  · exact ⟨fun h => absurd rfl h, fun h => absurd hlt (UInt64.not_lt.2 h.1)⟩
  · refine ⟨fun h => ⟨UInt64.not_lt.1 hlt, ?_⟩, fun h => ?_⟩
    · cases hv : validatedFps (rate (w i - p i).toNat e) with
      | none => simp [hv] at h
      | some v => rfl
    · have := (validatedFps_bounds h.2).1
      omega

/-- A round of the discovery changes only the candidates. -/
theorem discoverWord_frame (fps : Fin 12 → ℤ) (acc : DceCounterSampler × Best) (i : Fin 12) :
    (discoverWord fps acc i).1.selectedWord = acc.1.selectedWord ∧
      (discoverWord fps acc i).1.selectedInvalid = acc.1.selectedInvalid ∧
      (discoverWord fps acc i).1.haveBaseline = acc.1.haveBaseline ∧
      (discoverWord fps acc i).1.warmupDeltasRemaining = acc.1.warmupDeltasRemaining := by
  obtain ⟨s, best⟩ := acc
  by_cases hz : fps i = 0 <;> simp [discoverWord, hz]

/-- A round of the discovery keeps the best candidate, or makes its word the
    best one, if it has a rate. -/
theorem discoverWord_best (fps : Fin 12 → ℤ) (acc : DceCounterSampler × Best) (i : Fin 12) :
    (discoverWord fps acc i).2 = acc.2 ∨
      fps i ≠ 0 ∧ (discoverWord fps acc i).2.word = i ∧ (discoverWord fps acc i).2.fps = fps i := by
  obtain ⟨s, best⟩ := acc
  by_cases hz : fps i = 0
  · exact .inl (by simp [discoverWord, hz])
  · simp only [discoverWord, if_neg hz]
    split_ifs <;> simp [hz]

/-- The discovery rounds change only the candidates, and the best one, if any,
    has a rate. -/
theorem discoverWord_foldl (fps : Fin 12 → ℤ) (acc : DceCounterSampler × Best) (l : List (Fin 12))
    (h : acc.2.word < 0 ∨ ∃ i : Fin 12, fps i ≠ 0 ∧ acc.2.word = i ∧ acc.2.fps = fps i) :
    let r := l.foldl (discoverWord fps) acc
    (r.1.selectedWord = acc.1.selectedWord ∧ r.1.selectedInvalid = acc.1.selectedInvalid ∧
      r.1.haveBaseline = acc.1.haveBaseline ∧
      r.1.warmupDeltasRemaining = acc.1.warmupDeltasRemaining) ∧
      (r.2.word < 0 ∨ ∃ i : Fin 12, fps i ≠ 0 ∧ r.2.word = i ∧ r.2.fps = fps i) := by
  induction l generalizing acc with
  | nil => exact ⟨⟨rfl, rfl, rfl, rfl⟩, h⟩
  | cons i l ih =>
    obtain ⟨h₁, h₂, h₃, h₄⟩ := discoverWord_frame fps acc i
    have hbest : (discoverWord fps acc i).2.word < 0 ∨ ∃ k : Fin 12, fps k ≠ 0 ∧
        (discoverWord fps acc i).2.word = k ∧ (discoverWord fps acc i).2.fps = fps k := by
      rcases discoverWord_best fps acc i with hb | hb
      · rwa [hb]
      · exact .inr ⟨i, hb⟩
    have := ih _ hbest
    rwa [h₁, h₂, h₃, h₄] at this

/-- A discovery selects a word with a rate, or changes no selection. -/
theorem discover_cases (s : DceCounterSampler) (fps : Fin 12 → ℤ) :
    ((∃ i : Fin 12, fps i ≠ 0 ∧ (s.discover fps).1.selectedWord = i ∧ (s.discover fps).2 = fps i) ∨
        (s.discover fps).1.selectedWord = s.selectedWord ∧ (s.discover fps).2 = 0) ∧
      (s.discover fps).1.selectedInvalid = s.selectedInvalid ∧
      (s.discover fps).1.haveBaseline = s.haveBaseline ∧
      (s.discover fps).1.warmupDeltasRemaining = s.warmupDeltasRemaining := by
  obtain ⟨⟨h₁, h₂, h₃, h₄⟩, hbest⟩ := discoverWord_foldl fps (s, {}) (List.finRange 12)
    (.inl (show (-1 : ℤ) < 0 by decide))
  rw [discover]
  generalize (List.finRange 12).foldl (discoverWord fps) (s, {}) = r at *
  obtain ⟨t, best⟩ := r
  dsimp only at *
  split_ifs with hw
  · obtain ⟨i, hi, hiw, hif⟩ := hbest.resolve_left (not_lt.2 hw)
    exact ⟨.inl ⟨i, hi, hiw, hif⟩, h₂, h₃, h₄⟩
  · exact ⟨.inr ⟨h₁, rfl⟩, h₂, h₃, h₄⟩

/-- A selection: of a word, or of none, with a number of missed windows. -/
structure Selection (word : ℤ) (invalid : ℕ) : Prop where
  range : word = -1 ∨ ∃ i : Fin 12, word = i
  none : word = -1 → invalid = 0
  lt : invalid < 3

/-- What a window does to a selection: the word 1 is selected if it has a rate;
    else the selected word is used if it has one, and kept for one or two
    windows if it has not; else a word with a rate may be discovered. -/
inductive Chosen (s : DceCounterSampler) (fps : Fin 12 → ℤ) (word : ℤ) (invalid : ℕ)
    (value : ℤ) : Prop
  | used (i : Fin 12) (hf : fps i ≠ 0) (hw : word = i) (hi : invalid = 0) (hv : value = fps i)
      (hfixed : fps 1 ≠ 0 → i = 1)
      (hs : fps 1 = 0 → ∀ j : Fin 12, s.selectedWord = j → i = j ∨ fps j = 0 ∧
        3 ≤ s.selectedInvalid + 1)
  | missed (i : Fin 12) (hs : s.selectedWord = i) (hfixed : fps 1 = 0) (hf : fps i = 0)
      (hlt : s.selectedInvalid + 1 < 3) (hw : word = i) (hi : invalid = s.selectedInvalid + 1)
      (hv : value = 0)
  | nothing (hfixed : fps 1 = 0)
      (hs : ∀ j : Fin 12, s.selectedWord = j → fps j = 0 ∧ 3 ≤ s.selectedInvalid + 1)
      (hw : word = -1) (hi : invalid = 0) (hv : value = 0)

/-- The discovery after a window without a rate for the word 1, when no word is
    selected any more. -/
theorem discover_chosen {s' : DceCounterSampler} (hw : s'.selectedWord = -1)
    (hi : s'.selectedInvalid = 0) (h₁ : fps 1 = 0)
    (hs : ∀ j : Fin 12, s.selectedWord = j → fps j = 0 ∧ 3 ≤ s.selectedInvalid + 1) :
    Chosen s fps (s'.discover fps).1.selectedWord (s'.discover fps).1.selectedInvalid
      (s'.discover fps).2 := by
  obtain ⟨⟨i, hf, hiw, hif⟩ | ⟨hw', hv⟩, hinv, _⟩ := discover_cases s' fps
  · exact .used i hf hiw (hinv.trans hi) hif (fun h => absurd h₁ h) fun _ j hj => .inr (hs j hj)
  · exact .nothing h₁ hs (hw'.trans hw) (hinv.trans hi) hv

/-- What a window does, with a selection. -/
theorem choose_chosen (fps : Fin 12 → ℤ) (hs : Selection s.selectedWord s.selectedInvalid) :
    Chosen s fps (s.choose fps).1.selectedWord (s.choose fps).1.selectedInvalid (s.choose fps).2 := by
  by_cases h₁ : fps 1 = 0
  · rcases hs.range with hnone | ⟨i, hi⟩
    · have hc : s.choose fps = s.discover fps := by simp [choose, follow, h₁, hnone]
      rw [hc]
      exact discover_chosen hnone (hs.none hnone) h₁ fun j hj => by omega
    · have hrange : 0 ≤ s.selectedWord ∧ s.selectedWord < 12 := by omega
      have hword : (⟨s.selectedWord.toNat, by omega⟩ : Fin 12) = i := by ext; simp [hi]
      by_cases hf : fps i = 0
      · -- The third window in a row without a rate drops the word, and is searched.
        by_cases hlt : s.selectedInvalid + 1 < 3
        · have hc : s.choose fps = ({ s with selectedInvalid := s.selectedInvalid + 1 }, 0) := by
            simp [choose, follow, h₁, hf, hi, Nat.not_le.2 hlt]
          rw [hc]
          exact .missed i hi h₁ hf hlt hi rfl rfl
        · have hc : s.choose fps = { s with selectedWord := -1, selectedInvalid := 0 }.discover fps := by
            simp [choose, follow, h₁, hrange, hword, hf, Nat.not_lt.1 hlt]
          rw [hc]
          refine discover_chosen rfl rfl h₁ fun j hj => ?_
          have hij : i = j := by ext; omega
          exact ⟨hij ▸ hf, Nat.not_lt.1 hlt⟩
      · have hc : s.choose fps = ({ s with selectedInvalid := 0 }, fps i) := by
          simp [choose, follow, h₁, hrange, hword, hf]
        rw [hc]
        refine .used i hf hi rfl rfl (fun h => absurd h₁ h) fun _ j hj => .inl ?_
        ext
        omega
  · have hc : s.choose fps = ({ s with selectedWord := 1, selectedInvalid := 0 }, fps 1) := by
      simp [choose, follow, h₁]
    rw [hc]
    exact .used 1 h₁ rfl rfl rfl (fun _ => rfl) fun h => absurd h h₁

/-- A window keeps the baseline flag and the number of windows to discard. -/
theorem choose_frame (s : DceCounterSampler) (fps : Fin 12 → ℤ) :
    (s.choose fps).1.haveBaseline = s.haveBaseline ∧
      (s.choose fps).1.warmupDeltasRemaining = s.warmupDeltasRemaining := by
  have hfollow : (s.follow fps).1.haveBaseline = s.haveBaseline ∧
      (s.follow fps).1.warmupDeltasRemaining = s.warmupDeltasRemaining := by
    rw [follow]
    dsimp only
    split_ifs <;> exact ⟨rfl, rfl⟩
  obtain ⟨_, _, h₃, h₄⟩ := discover_cases (s.follow fps).1 fps
  rw [choose]
  split_ifs
  · exact ⟨h₃.trans hfollow.1, h₄.trans hfollow.2⟩
  · exact hfollow

theorem Chosen.selection {word value : ℤ} {invalid : ℕ} (h : Chosen s fps word invalid value) :
    Selection word invalid := by
  cases h with
  | used i hf hw hi => exact ⟨.inr ⟨i, hw⟩, fun _ => hi, by omega⟩
  | missed i hs hfixed hf hlt hw hi => exact ⟨.inr ⟨i, hw⟩, fun h => by omega, by omega⟩
  | nothing hfixed hs hw hi => exact ⟨.inl hw, fun _ => hi, by omega⟩

theorem Selection.fresh : Selection (-1) 0 := ⟨.inl rfl, fun _ => rfl, by decide⟩

/-- The rates of the words in the window that the block `words` completes. -/
abbrev rates (s : DceCounterSampler) (words : Words) (nowUs : ℕ) : Fin 12 → ℤ :=
  fpsForWord s.previousWords words (nowUs - s.previousTimeUs)

theorem sample_first {w : Words} {t : ℕ} (h : reading s.haveBaseline s.previousTimeUs t = .first) :
    s.sample w t = ({ s with previousWords := w, previousTimeUs := t, haveBaseline := true }, none) := by
  rw [sample, h]

theorem sample_rebase {w : Words} {t : ℕ} (h : reading s.haveBaseline s.previousTimeUs t = .rebase) :
    s.sample w t = ({ previousWords := w, previousTimeUs := t, haveBaseline := true }, none) := by
  rw [sample, h]
  rfl

theorem sample_short {w : Words} {t : ℕ} (h : reading s.haveBaseline s.previousTimeUs t = .short) :
    s.sample w t = (s, none) := by
  rw [sample, h]

theorem sample_warmup {w : Words} {t : ℕ} (h : reading s.haveBaseline s.previousTimeUs t = .window)
    (hw : s.warmupDeltasRemaining ≠ 0) :
    s.sample w t = ({ s with
      warmupDeltasRemaining := s.warmupDeltasRemaining - 1
      previousWords := w, previousTimeUs := t }, none) := by
  simp only [sample, h, if_pos hw]

theorem sample_window {w : Words} {t : ℕ} (h : reading s.haveBaseline s.previousTimeUs t = .window)
    (hw : s.warmupDeltasRemaining = 0) :
    s.sample w t =
      ({ (s.choose (s.rates w t)).1 with previousWords := w, previousTimeUs := t },
        if (s.choose (s.rates w t)).2 = 0 then none else some (s.choose (s.rates w t)).2) := by
  simp only [sample, h, if_neg (not_not.2 hw)]

end DceCounterSampler

/-! ## Runs -/

section Runs

open DceCounterSampler

variable (ι : ℕ → DceCall)

/-- The selected word before the call `n`. -/
def selectedWord (n : ℕ) : ℤ := (dceCounter.state ι n).selectedWord

/-- Between the calls `m` and `n` there are only samples, each less than 200 ms
    after the time `t`. -/
def Unmarked (m n t : ℕ) : Prop :=
  ∀ k, m < k → k < n → ∃ w t', ι k = .sample w t' ∧ t < t' ∧ t' - t < 200000

/-- The calls between which the sampler measures, in terms of the calls alone. A
    mark that closes a window is the first sample that comes at least 200 ms, and
    at most 3 s, after the mark before it. -/
inductive Mark : Bool → ℕ → Words → ℕ → Prop
  /-- The first call of all, or after a reset, starts a window. -/
  | first {n t : ℕ} {w : Words} (hn : n = 0 ∨ ι (n - 1) = .reset) (h : ι n = .sample w t) :
      Mark false n w t
  /-- So does a call for which the clock did not advance, or by more than 3 s. -/
  | afresh {closed : Bool} {m n t₀ t : ℕ} {w₀ w : Words} (hm : Mark closed m w₀ t₀) (hmn : m < n)
      (hq : Unmarked ι m n t₀) (h : ι n = .sample w t) (ht : t ≤ t₀ ∨ 3000000 < t - t₀) :
      Mark false n w t
  /-- A call closes a window, and starts the next one. -/
  | window {closed : Bool} {m n t₀ t : ℕ} {w₀ w : Words} (hm : Mark closed m w₀ t₀) (hmn : m < n)
      (hq : Unmarked ι m n t₀) (h : ι n = .sample w t) (hmin : 200000 ≤ t - t₀)
      (hmax : t - t₀ ≤ 3000000) : Mark true n w t

/-- The last mark before the call `n` is the call `m`, with the block `w` and the
    time `t`. -/
structure LastMark (closed : Bool) (m n : ℕ) (w : Words) (t : ℕ) : Prop where
  lt : m < n
  mark : Mark ι closed m w t
  unmarked : Unmarked ι m n t

/-- The calls `m` and `n` complete two windows, one after the other, the second
    one being that between the blocks `w₀`, at the time `t₀`, and `w₁`, at the
    time `t₁`. -/
structure Consecutive (m n : ℕ) (w₀ : Words) (t₀ : ℕ) (w₁ : Words) (t₁ : ℕ) : Prop where
  last : LastMark ι true m n w₀ t₀
  sample : ι n = .sample w₁ t₁
  lower : 200000 ≤ t₁ - t₀
  upper : t₁ - t₀ ≤ 3000000

/-- The call `n` is a sample for which the clock did not advance since the last
    mark, or by more than 3 s. -/
def StartsAfresh (n : ℕ) : Prop :=
  ∃ closed m w₀ t₀ w t, LastMark ι closed m n w₀ t₀ ∧ ι n = .sample w t ∧
    (t ≤ t₀ ∨ 3000000 < t - t₀)

/-- The rate of the word `i` between two blocks. -/
def wordRate (w₀ : Words) (t₀ : ℕ) (w₁ : Words) (t₁ : ℕ) (i : Fin 12) : ℚ :=
  10 ^ 6 * ((w₁ i).toNat - (w₀ i).toNat) / (t₁ - t₀)

/-- The word `i` did not go back between two blocks, and its rate is valid. -/
def ValidWord (w₀ : Words) (t₀ : ℕ) (w₁ : Words) (t₁ : ℕ) (i : Fin 12) : Prop :=
  w₀ i ≤ w₁ i ∧ ValidRate (wordRate w₀ t₀ w₁ t₁ i)

/-- The calls `m` and `n` complete two windows, one after the other, and in the
    second one neither the word `i` nor the word 1 has a valid rate. -/
def Missed (i : Fin 12) (m n : ℕ) : Prop :=
  ∃ w₀ t₀ w₁ t₁, Consecutive ι m n w₀ t₀ w₁ t₁ ∧ ¬ValidWord w₀ t₀ w₁ t₁ i ∧
    ¬ValidWord w₀ t₀ w₁ t₁ 1

/-- The call `n` is a `sample`, with the block `w` and the time `t`, whose reading by
    the sampler is `r`. -/
def SampledAt (n : ℕ) (w : Words) (t : ℕ) (r : Reading) : Prop :=
  ι n = .sample w t ∧
    reading (dceCounter.state ι n).haveBaseline (dceCounter.state ι n).previousTimeUs t = r

/-- The sampler holds a mark: its block and its time, and whether the next window
    is to be discarded. -/
structure Holds (closed : Bool) (w : Words) (t : ℕ) (s : DceCounterSampler) : Prop where
  haveBaseline : s.haveBaseline = true
  words : s.previousWords = w
  time : s.previousTimeUs = t
  warmup : s.warmupDeltasRemaining = if closed then 0 else kWarmupDeltasToDiscard

/-- What the sampler holds in a run: a selection, of no word before the first
    window that counts; and the last mark, if there is one. -/
structure Invariant (n : ℕ) (s : DceCounterSampler) : Prop where
  selection : Selection s.selectedWord s.selectedInvalid
  warmup : s.warmupDeltasRemaining ≠ 0 → s.selectedWord = -1
  unmarked : s.haveBaseline = false →
    (n = 0 ∨ ι (n - 1) = .reset) ∧ s.warmupDeltasRemaining = kWarmupDeltasToDiscard
  marked : s.haveBaseline = true → ∃ closed m, LastMark ι closed m n s.previousWords s.previousTimeUs ∧
    Holds closed s.previousWords s.previousTimeUs s

variable {ι}

theorem SampledAt.step {n : ℕ} {w : Words} {t : ℕ} {r : Reading} (h : SampledAt ι n w t r) :
    dceCounter.step (dceCounter.state ι n) (ι n) = (dceCounter.state ι n).sample w t := by
  rw [h.1]
  rfl

/-- A call that is a mark is the last one. -/
theorem Mark.last {closed : Bool} {n t : ℕ} {w : Words} (h : Mark ι closed n w t) :
    LastMark ι closed n (n + 1) w t :=
  ⟨Nat.lt_succ_self n, h, fun k h₁ h₂ => absurd h₁ (by omega)⟩

theorem Mark.sample {closed : Bool} {n t : ℕ} {w : Words} (h : Mark ι closed n w t) :
    ι n = .sample w t := by
  cases h <;> assumption

/-- What the sampler makes of a sample, given the mark it holds. -/
theorem Holds.reading {closed : Bool} {w : Words} {t₀ t : ℕ} {s : DceCounterSampler}
    (h : Holds closed w t₀ s) : reading s.haveBaseline s.previousTimeUs t =
      if t ≤ t₀ ∨ 3000000 < t - t₀ then .rebase else if t - t₀ < 200000 then .short else .window := by
  rw [h.haveBaseline, h.time]
  rfl

/-- The calls between a mark that the sampler holds and the next one change nothing. -/
theorem Unmarked.state {closed : Bool} {m n t : ℕ} {w : Words} (hq : Unmarked ι m n t)
    (h : Holds closed w t (dceCounter.state ι (m + 1))) :
    ∀ k, m < k → k ≤ n → dceCounter.state ι k = dceCounter.state ι (m + 1) := by
  intro k hk
  induction k, hk using Nat.le_induction with
  | base => exact fun _ => rfl
  | succ k hk ih =>
    intro hkn
    obtain ⟨w', t', hι, hlt, hshort⟩ := hq k hk hkn
    have hk := ih (Nat.le_of_succ_le hkn)
    have hr : SampledAt ι k w' t' .short := by
      refine ⟨hι, ?_⟩
      rw [hk, h.reading, if_neg (by omega), if_pos hshort]
    rw [Driven.state_succ, hr.step, sample_short hr.2, hk]

/-- The sampler holds a mark, once it has been called. -/
theorem Mark.holds {closed : Bool} {m t : ℕ} {w : Words} (h : Mark ι closed m w t) :
    Holds closed w t (dceCounter.state ι (m + 1)) := by
  induction h with
  | @first n t w hn h =>
    have hinit : dceCounter.state ι n = {} := by
      rcases n with _ | n
      · rfl
      · have hreset : ι n = .reset := hn.resolve_left n.succ_ne_zero
        rw [Driven.state_succ, hreset]
        rfl
    have hr : SampledAt ι n w t .first := ⟨h, by rw [hinit]; rfl⟩
    rw [Driven.state_succ, hr.step, sample_first hr.2, hinit]
    exact ⟨rfl, rfl, rfl, rfl⟩
  | @afresh _ m n t₀ t _ w _ hmn hq h ht ih =>
    have hr : SampledAt ι n w t .rebase := by
      refine ⟨h, ?_⟩
      rw [hq.state ih n hmn le_rfl, ih.reading, if_pos ht]
    rw [Driven.state_succ, hr.step, sample_rebase hr.2]
    exact ⟨rfl, rfl, rfl, rfl⟩
  | @window closed m n t₀ t _ w _ hmn hq h hmin hmax ih =>
    have hstate := hq.state ih n hmn le_rfl
    have hr : SampledAt ι n w t .window := by
      refine ⟨h, ?_⟩
      rw [hstate, ih.reading, if_neg (by omega), if_neg (by omega)]
    rw [Driven.state_succ, hr.step]
    by_cases hw : (dceCounter.state ι n).warmupDeltasRemaining = 0
    · rw [sample_window hr.2 hw]
      obtain ⟨hb, hw'⟩ := choose_frame (dceCounter.state ι n) (rates _ w t)
      exact ⟨hb.trans (hstate ▸ ih.haveBaseline), rfl, rfl, hw'.trans hw⟩
    · rw [sample_warmup hr.2 hw]
      refine ⟨hstate ▸ ih.haveBaseline, rfl, rfl, ?_⟩
      have hwarm : (dceCounter.state ι n).warmupDeltasRemaining = if closed then 0 else 1 :=
        hstate ▸ ih.warmup
      rw [hwarm]
      cases closed <;> rfl

/-- The calls since the last mark changed nothing. -/
theorem LastMark.state {closed : Bool} {m n t : ℕ} {w : Words} (h : LastMark ι closed m n w t) :
    (∀ k, m < k → k ≤ n → dceCounter.state ι k = dceCounter.state ι (m + 1)) ∧
      Holds closed w t (dceCounter.state ι n) := by
  have hconst := h.unmarked.state h.mark.holds
  exact ⟨hconst, hconst n h.lt le_rfl ▸ h.mark.holds⟩

/-- The sampler reads a sample as the calls say. -/
theorem LastMark.sampledAt {closed : Bool} {m n t₀ t : ℕ} {w₀ w : Words}
    (h : LastMark ι closed m n w₀ t₀) (hn : ι n = .sample w t) :
    SampledAt ι n w t (if t ≤ t₀ ∨ 3000000 < t - t₀ then .rebase
      else if t - t₀ < 200000 then .short else .window) :=
  ⟨hn, h.state.2.reading⟩

theorem Consecutive.sampledAt {m n : ℕ} {w₀ w₁ : Words} {t₀ t₁ : ℕ}
    (h : Consecutive ι m n w₀ t₀ w₁ t₁) : SampledAt ι n w₁ t₁ .window := by
  have hs := h.last.sampledAt h.sample
  have hmin := h.lower
  have hmax := h.upper
  rwa [if_neg (by omega), if_neg (by omega)] at hs

theorem Consecutive.mark {m n : ℕ} {w₀ w₁ : Words} {t₀ t₁ : ℕ}
    (h : Consecutive ι m n w₀ t₀ w₁ t₁) :
    Mark ι true n w₁ t₁ :=
  .window h.last.mark h.last.lt h.last.unmarked h.sample h.lower h.upper

theorem StartsAfresh.sampledAt {n : ℕ} (h : StartsAfresh ι n) : ∃ w t, SampledAt ι n w t .rebase := by
  obtain ⟨closed, m, w₀, t₀, w, t, hlast, hn, ht⟩ := h
  have hs := hlast.sampledAt hn
  rw [if_pos ht] at hs
  exact ⟨w, t, hs⟩

/-- A call that comes too early leaves the last mark. -/
theorem LastMark.succ {closed : Bool} {m n t t' : ℕ} {w w' : Words} (h : LastMark ι closed m n w t)
    (hn : SampledAt ι n w' t' .short) : LastMark ι closed m (n + 1) w t := by
  refine ⟨Nat.lt_succ_of_lt h.lt, h.mark, fun k h₁ h₂ => ?_⟩
  rcases Nat.lt_succ_iff_lt_or_eq.1 h₂ with hk | rfl
  · exact h.unmarked k h₁ hk
  · obtain ⟨hι, hr⟩ := hn
    obtain ⟨hback, hshort⟩ : ¬(t' ≤ t ∨ 3000000 < t' - t) ∧ t' - t < 200000 := by
      rw [h.state.2.reading] at hr
      split_ifs at hr with hback hshort
      exact ⟨hback, hshort⟩
    exact ⟨w', t', hι, by omega, hshort⟩

/-- What a run preserves. -/
theorem dce_invariant : ∀ n, Invariant ι n (dceCounter.state ι n) := by
  have hdiscard : kWarmupDeltasToDiscard ≠ 0 := by decide
  refine Driven.invariant ⟨.fresh, fun _ => rfl, fun _ => ⟨.inl rfl, rfl⟩, nofun⟩ fun n ih => ?_
  cases hι : ι n with
  | reset => exact ⟨.fresh, fun _ => rfl, fun _ => ⟨.inr hι, rfl⟩, nofun⟩
  | sample w t =>
    -- A call that is a mark is held from then on.
    have hmarks : ∀ {closed : Bool}, Mark ι closed n w t → ∃ closed m,
        LastMark ι closed m (n + 1) (dceCounter.state ι (n + 1)).previousWords
          (dceCounter.state ι (n + 1)).previousTimeUs ∧
        Holds closed (dceCounter.state ι (n + 1)).previousWords
          (dceCounter.state ι (n + 1)).previousTimeUs (dceCounter.state ι (n + 1)) := by
      intro closed h
      obtain ⟨hb, hw, ht, hwarm⟩ := h.holds
      rw [hw, ht]
      exact ⟨closed, n, h.last, hb, hw, ht, hwarm⟩
    cases hr : reading (dceCounter.state ι n).haveBaseline (dceCounter.state ι n).previousTimeUs t with
    | first =>
      obtain ⟨hn, hw⟩ := ih.unmarked (reading_eq_first.1 hr)
      have hmarked := hmarks (.first hn hι)
      rw [Driven.state_succ, SampledAt.step ⟨hι, hr⟩, sample_first hr] at hmarked
      rw [← hι, SampledAt.step ⟨hι, hr⟩, sample_first hr]
      exact ⟨ih.selection, ih.warmup, nofun, fun _ => hmarked⟩
    | rebase =>
      obtain ⟨hb, hback⟩ := reading_eq_rebase.1 hr
      obtain ⟨_, m, hlast, _⟩ := ih.marked hb
      have hmarked := hmarks (.afresh hlast.mark hlast.lt hlast.unmarked hι hback)
      rw [Driven.state_succ, SampledAt.step ⟨hι, hr⟩, sample_rebase hr] at hmarked
      rw [← hι, SampledAt.step ⟨hι, hr⟩, sample_rebase hr]
      exact ⟨.fresh, fun _ => rfl, nofun, fun _ => hmarked⟩
    | short =>
      rw [← hι, SampledAt.step ⟨hι, hr⟩, sample_short hr]
      refine ⟨ih.selection, ih.warmup, fun h => ?_, fun h => ?_⟩
      · rw [reading_eq_first.2 h] at hr
        cases hr
      · obtain ⟨closed, m, hlast, hholds⟩ := ih.marked h
        exact ⟨closed, m, hlast.succ ⟨hι, hr⟩, hholds⟩
    | window =>
      obtain ⟨hb, _, hmin, hmax⟩ := reading_eq_window.1 hr
      obtain ⟨_, m, hlast, _⟩ := ih.marked hb
      have hmark := Mark.window hlast.mark hlast.lt hlast.unmarked hι hmin hmax
      have hmarked := hmarks hmark
      have hbase : (dceCounter.state ι (n + 1)).haveBaseline ≠ false := by
        rw [hmark.holds.haveBaseline]
        decide
      by_cases hw : (dceCounter.state ι n).warmupDeltasRemaining = 0
      · rw [Driven.state_succ, SampledAt.step ⟨hι, hr⟩, sample_window hr hw] at hmarked hbase
        rw [← hι, SampledAt.step ⟨hι, hr⟩, sample_window hr hw]
        have hsel := (choose_chosen (rates (dceCounter.state ι n) w t) ih.selection).selection
        exact ⟨hsel, fun h => absurd ((choose_frame _ _).2.trans hw) h, fun h => absurd h hbase,
          fun _ => hmarked⟩
      · rw [Driven.state_succ, SampledAt.step ⟨hι, hr⟩, sample_warmup hr hw] at hmarked hbase
        rw [← hι, SampledAt.step ⟨hι, hr⟩, sample_warmup hr hw]
        exact ⟨ih.selection, fun _ => ih.warmup hw, fun h => absurd h hbase, fun _ => hmarked⟩

/-- Without a baseline, a window is to be discarded. -/
theorem Invariant.baseline {n : ℕ} {s : DceCounterSampler} (h : Invariant ι n s)
    (hs : s.haveBaseline = false) : s.warmupDeltasRemaining ≠ 0 := by
  rw [(h.unmarked hs).2]
  decide

/-- When no window is to be discarded, the last mark closed one. -/
theorem Invariant.closed {n : ℕ} {s : DceCounterSampler} (h : Invariant ι n s)
    (hs : s.warmupDeltasRemaining = 0) : ∃ m, LastMark ι true m n s.previousWords s.previousTimeUs := by
  cases hb : s.haveBaseline with
  | false => exact absurd hs (h.baseline hb)
  | true =>
    obtain ⟨closed, m, hlast, hholds⟩ := h.marked hb
    cases closed with
    | false => exact absurd (hholds.warmup.symm.trans hs) (by decide)
    | true => exact ⟨m, hlast⟩

/-- A window that is completed with no other to be discarded is a consecutive one. -/
theorem SampledAt.consecutive {n t : ℕ} {w : Words} (h : SampledAt ι n w t .window)
    (hw : (dceCounter.state ι n).warmupDeltasRemaining = 0) : ∃ m, Consecutive ι m n
      (dceCounter.state ι n).previousWords (dceCounter.state ι n).previousTimeUs w t := by
  obtain ⟨m, hm⟩ := (dce_invariant n).closed hw
  obtain ⟨_, _, hmin, hmax⟩ := reading_eq_window.1 h.2
  exact ⟨m, hm, h.1, hmin, hmax⟩

/-- The window before a consecutive one gives the baseline, and none is to be discarded. -/
theorem Consecutive.state {m n : ℕ} {w₀ w₁ : Words} {t₀ t₁ : ℕ}
    (h : Consecutive ι m n w₀ t₀ w₁ t₁) :
    (dceCounter.state ι n).previousWords = w₀ ∧ (dceCounter.state ι n).previousTimeUs = t₀ ∧
      (dceCounter.state ι n).warmupDeltasRemaining = 0 :=
  ⟨h.last.state.2.words, h.last.state.2.time, h.last.state.2.warmup⟩

/-- What the second of two consecutive windows does. -/
theorem Consecutive.chosen {m n : ℕ} {w₀ w₁ : Words} {t₀ t₁ : ℕ}
    (h : Consecutive ι m n w₀ t₀ w₁ t₁) :
    ∃ value, Chosen (dceCounter.state ι n) (fpsForWord w₀ w₁ (t₁ - t₀)) (selectedWord ι (n + 1))
        (dceCounter.state ι (n + 1)).selectedInvalid value ∧
      dceCounter.output ι n = if value = 0 then none else some value := by
  have hs := h.sampledAt
  obtain ⟨rfl, rfl, hw⟩ := h.state
  refine ⟨((dceCounter.state ι n).choose ((dceCounter.state ι n).rates w₁ t₁)).2, ?_, ?_⟩
  · rw [selectedWord, Driven.state_succ, hs.step, sample_window hs.2 hw]
    exact choose_chosen _ (dce_invariant n).selection
  · rw [Driven.output, hs.step, sample_window hs.2 hw]

/-- The rate the code computes is the rate of the word. -/
theorem wordRate_eq {w₀ w₁ : Words} {t₀ t₁ : ℕ} {i : Fin 12} (ht : 200000 ≤ t₁ - t₀)
    (h : w₀ i ≤ w₁ i) : rate (w₁ i - w₀ i).toNat (t₁ - t₀) = wordRate w₀ t₀ w₁ t₁ i := by
  rw [rate, wordRate, UInt64.toNat_sub_of_le _ _ h, Nat.cast_sub (UInt64.le_iff_toNat_le.1 h),
    Nat.cast_sub (by omega)]
  ring

/-- The words with a rate in a window are the valid ones. -/
theorem Consecutive.fpsForWord_ne_zero {m n : ℕ} {w₀ w₁ : Words} {t₀ t₁ : ℕ}
    (h : Consecutive ι m n w₀ t₀ w₁ t₁) (i : Fin 12) :
    fpsForWord w₀ w₁ (t₁ - t₀) i ≠ 0 ↔ ValidWord w₀ t₀ w₁ t₁ i := by
  rw [DceCounterSampler.fpsForWord_ne_zero, ValidWord]
  refine and_congr_right fun hle => ?_
  rw [← wordRate_eq h.lower hle]
  refine ⟨fun hv => (validatedFps_eq_some.1 hv).1, fun hv => ?_⟩
  rw [fpsForWord, if_neg (UInt64.not_lt.2 hle), validatedFps_eq_ite, if_pos hv, Option.getD_some]

/-- The value of a word with a rate. -/
theorem Consecutive.fpsForWord_eq {m n : ℕ} {w₀ w₁ : Words} {t₀ t₁ : ℕ}
    (h : Consecutive ι m n w₀ t₀ w₁ t₁) {i : Fin 12} (hi : ValidWord w₀ t₀ w₁ t₁ i) :
    let v := fpsForWord w₀ w₁ (t₁ - t₀) i
    v = min 120 ⌊wordRate w₀ t₀ w₁ t₁ i + 1 / 2⌋ ∧ 1 ≤ v ∧ v ≤ 120 := by
  obtain ⟨hle, hv⟩ := DceCounterSampler.fpsForWord_ne_zero.1 ((h.fpsForWord_ne_zero i).2 hi)
  have hval := (validatedFps_eq_some.1 hv).2
  rw [wordRate_eq h.lower hle] at hval
  exact ⟨hval, validatedFps_bounds hv⟩

/-- A call that returns a value, or changes the selection without starting afresh,
    completes the second of two consecutive windows. -/
theorem consecutive_of_ne {n : ℕ} (hreset : ι n ≠ .reset) (hafresh : ∀ w t, ¬SampledAt ι n w t .rebase)
    (h : dceCounter.output ι n ≠ none ∨ selectedWord ι (n + 1) ≠ selectedWord ι n) :
    ∃ m w₀ t₀ w₁ t₁, Consecutive ι m n w₀ t₀ w₁ t₁ := by
  rw [Driven.output, selectedWord, selectedWord, Driven.state_succ] at h
  cases hι : ι n with
  | reset => exact absurd hι hreset
  | sample w t =>
    cases hr : reading (dceCounter.state ι n).haveBaseline (dceCounter.state ι n).previousTimeUs t with
    | first => simp [SampledAt.step ⟨hι, hr⟩, sample_first hr] at h
    | rebase => exact absurd ⟨hι, hr⟩ (hafresh w t)
    | short => simp [SampledAt.step ⟨hι, hr⟩, sample_short hr] at h
    | window =>
      by_cases hw : (dceCounter.state ι n).warmupDeltasRemaining = 0
      · obtain ⟨m, hm⟩ := SampledAt.consecutive ⟨hι, hr⟩ hw
        exact ⟨m, _, _, w, t, hm⟩
      · simp [SampledAt.step ⟨hι, hr⟩, sample_warmup hr hw] at h

/-- A value is returned in the second of two consecutive windows. -/
theorem consecutive_of_output {n : ℕ} {v : ℤ} (h : dceCounter.output ι n = some v) :
    ∃ m w₀ t₀ w₁ t₁, Consecutive ι m n w₀ t₀ w₁ t₁ := by
  refine consecutive_of_ne (fun hreset => ?_) (fun w t hs => ?_) (.inl (h ▸ nofun))
  · rw [Driven.output, hreset] at h
    cases h
  · rw [Driven.output, hs.step, sample_rebase hs.2] at h
    cases h

/-- A reset and a fresh start select no word. -/
theorem selectedWord_of_cleared {n : ℕ} (h : ι n = .reset ∨ ∃ w t, SampledAt ι n w t .rebase) :
    selectedWord ι (n + 1) = -1 := by
  rcases h with hreset | ⟨w, t, hs⟩
  · rw [selectedWord, Driven.state_succ, hreset]
    rfl
  · rw [selectedWord, Driven.state_succ, hs.step, sample_rebase hs.2]

/-- A word that was not selected before is selected with a value. -/
theorem output_of_selected {n : ℕ} {i : Fin 12} (hi : selectedWord ι (n + 1) = i)
    (hne : selectedWord ι n ≠ i) : ∃ v, dceCounter.output ι n = some v := by
  have hselected : ¬(ι n = .reset ∨ ∃ w t, SampledAt ι n w t .rebase) := fun h => by
    rw [selectedWord_of_cleared h] at hi
    omega
  obtain ⟨hreset, hafresh⟩ := not_or.1 hselected
  obtain ⟨m, w₀, t₀, w₁, t₁, hcon⟩ := consecutive_of_ne hreset
    (fun w t hs => hafresh ⟨w, t, hs⟩) (.inr fun h => hne (h.symm.trans hi))
  obtain ⟨value, hchosen, ho⟩ := hcon.chosen
  cases hchosen with
  | used j hf _ _ hval => exact ⟨value, ho.trans (if_neg (hval ▸ hf))⟩
  | missed j hs _ _ _ hw => exact absurd (hs.trans (hw.symm.trans hi)) hne
  | nothing _ _ hw =>
    rw [hw] at hi
    omega

/-- A value is that of the selected word, with no missed windows. -/
theorem Consecutive.of_output {m n : ℕ} {w₀ w₁ : Words} {t₀ t₁ : ℕ} {v : ℤ}
    (h : Consecutive ι m n w₀ t₀ w₁ t₁) (hv : dceCounter.output ι n = some v) :
    (dceCounter.state ι (n + 1)).selectedInvalid = 0 ∧ ∃ i : Fin 12, selectedWord ι (n + 1) = i ∧
      ValidWord w₀ t₀ w₁ t₁ i ∧ v = fpsForWord w₀ w₁ (t₁ - t₀) i := by
  obtain ⟨value, hc, ho⟩ := h.chosen
  rw [ho, ite_eq_iff] at hv
  cases hc with
  | used i hf hw hi hval =>
    have hv : ¬value = 0 ∧ value = v := by simpa using hv
    exact ⟨hi, i, hw, (h.fpsForWord_ne_zero i).1 hf, hv.2.symm.trans hval⟩
  | missed _ _ _ _ _ _ _ hval => simp [hval] at hv
  | nothing _ _ _ _ hval => simp [hval] at hv

theorem Missed.lt {i : Fin 12} {m n : ℕ} (h : Missed ι i m n) : m < n := by
  obtain ⟨_, _, _, _, hcon, _⟩ := h
  exact hcon.last.lt

/-- A word that misses a window is kept, with one more miss, but for the third. -/
theorem Missed.kept {i : Fin 12} {m n c : ℕ} (h : Missed ι i m n) (hi : selectedWord ι (m + 1) = i)
    (hc : (dceCounter.state ι (m + 1)).selectedInvalid = c) (hlt : c + 1 < 3) :
    (∀ k, m < k → k ≤ n + 1 → selectedWord ι k = i) ∧
      (dceCounter.state ι (n + 1)).selectedInvalid = c + 1 := by
  obtain ⟨w₀, t₀, w₁, t₁, hcon, hmi, hm₁⟩ := h
  rw [← hcon.fpsForWord_ne_zero, not_not] at hmi hm₁
  obtain ⟨hconst, _⟩ := hcon.last.state
  obtain ⟨value, hchosen, _⟩ := hcon.chosen
  rw [hconst n hcon.last.lt le_rfl] at hchosen
  have hkept : selectedWord ι (n + 1) = i ∧ (dceCounter.state ι (n + 1)).selectedInvalid = c + 1 := by
    cases hchosen with
    | used j hf _ _ _ _ hs =>
      rcases hs hm₁ i hi with rfl | ⟨_, hthird⟩
      · exact absurd hmi hf
      · omega
    | missed j hs _ _ _ hw hinv => exact ⟨hw.trans (hs.symm.trans hi), hinv.trans (by rw [hc])⟩
    | nothing _ hs =>
      have := (hs i hi).2
      omega
  refine ⟨fun k hk hkn => ?_, hkept.2⟩
  rcases Nat.lt_or_eq_of_le hkn with hk' | rfl
  · rw [selectedWord, hconst k hk (Nat.le_of_lt_succ hk')]
    exact hi
  · exact hkept.1

/-- A word that misses a third window is dropped. -/
theorem Missed.dropped {i : Fin 12} {m n : ℕ} (h : Missed ι i m n)
    (hc : (dceCounter.state ι (m + 1)).selectedInvalid = 2) : selectedWord ι (n + 1) ≠ i := by
  obtain ⟨w₀, t₀, w₁, t₁, hcon, hmi, _⟩ := h
  rw [← hcon.fpsForWord_ne_zero, not_not] at hmi
  obtain ⟨hconst, _⟩ := hcon.last.state
  obtain ⟨value, hchosen, _⟩ := hcon.chosen
  rw [hconst n hcon.last.lt le_rfl] at hchosen
  intro hi
  cases hchosen with
  | used j hf hw =>
    have hij : i = j := by ext; omega
    exact hf (hij ▸ hmi)
  | missed _ _ _ _ hlt => omega
  | nothing _ _ hw => omega

/-- The selected word is used when it has a rate and the word 1 has none. -/
theorem Consecutive.follows {m n : ℕ} {w₀ w₁ : Words} {t₀ t₁ : ℕ} {i : Fin 12}
    (h : Consecutive ι m n w₀ t₀ w₁ t₁) (hi : selectedWord ι n = i)
    (h₁ : ¬ValidWord w₀ t₀ w₁ t₁ 1)
    (hvalid : ValidWord w₀ t₀ w₁ t₁ i) : selectedWord ι (n + 1) = i ∧
      dceCounter.output ι n = some (min 120 ⌊wordRate w₀ t₀ w₁ t₁ i + 1 / 2⌋) := by
  have hfixed := not_not.1 (mt (h.fpsForWord_ne_zero 1).1 h₁)
  have hf := (h.fpsForWord_ne_zero i).2 hvalid
  obtain ⟨value, hchosen, ho⟩ := h.chosen
  cases hchosen with
  | used j hj hw _ hval _ hs =>
    obtain rfl : j = i := (hs hfixed i hi).resolve_right fun hlost => hf hlost.1
    rw [ho, hval, if_neg hj]
    exact ⟨hw, congrArg some (h.fpsForWord_eq hvalid).1⟩
  | missed j hs _ hzero =>
    have hij : i = j := by
      ext
      have hword := hi.symm.trans hs
      omega
    exact absurd (hij ▸ hzero) hf
  | nothing _ hs => exact absurd (hs i hi).1 hf

/-- The word 1 is used when it has a rate. -/
theorem Consecutive.fixed {m n : ℕ} {w₀ w₁ : Words} {t₀ t₁ : ℕ}
    (h : Consecutive ι m n w₀ t₀ w₁ t₁)
    (hvalid : ValidWord w₀ t₀ w₁ t₁ 1) : selectedWord ι (n + 1) = 1 ∧
      dceCounter.output ι n = some (min 120 ⌊wordRate w₀ t₀ w₁ t₁ 1 + 1 / 2⌋) := by
  obtain ⟨value, hchosen, ho⟩ := h.chosen
  have hfixed := (h.fpsForWord_ne_zero 1).2 hvalid
  cases hchosen with
  | used j hf hw _ hval hone =>
    obtain rfl := hone hfixed
    rw [ho, hval, if_neg hf]
    exact ⟨hw, congrArg some (h.fpsForWord_eq hvalid).1⟩
  | missed _ _ h => exact absurd h hfixed
  | nothing h => exact absurd h hfixed

/-- The provenance of the values, and the selection of a word, in any run. -/
theorem dce_sound (ι : ℕ → DceCall) :
    (∀ n, selectedWord ι n = -1 ∨ ∃ i : Fin 12, selectedWord ι n = i) ∧
    -- A value is the rate of the selected word, since the previous window.
    (∀ n v, dceCounter.output ι n = some v → 1 ≤ v ∧ v ≤ 120 ∧
      ∃ m w₀ t₀ w₁ t₁, Consecutive ι m n w₀ t₀ w₁ t₁ ∧
        ∃ i : Fin 12, selectedWord ι (n + 1) = i ∧ ValidWord w₀ t₀ w₁ t₁ i ∧
          v = min 120 ⌊wordRate w₀ t₀ w₁ t₁ i + 1 / 2⌋) ∧
    -- The word 1 is used whenever it has a valid rate, and else the selected word.
    (∀ m n w₀ t₀ w₁ t₁, Consecutive ι m n w₀ t₀ w₁ t₁ → ∀ i : Fin 12,
      ValidWord w₀ t₀ w₁ t₁ i →
      (i = 1 ∨ selectedWord ι n = i ∧ ¬ValidWord w₀ t₀ w₁ t₁ 1) →
        selectedWord ι (n + 1) = i ∧
        dceCounter.output ι n = some (min 120 ⌊wordRate w₀ t₀ w₁ t₁ i + 1 / 2⌋)) ∧
    -- A word is selected with a value.
    (∀ n (i : Fin 12), selectedWord ι (n + 1) = i →
      selectedWord ι n = i ∨ ∃ v, dceCounter.output ι n = some v) ∧
    -- It is kept when it misses one or two windows in a row, and dropped at the third.
    (∀ n₀ v (i : Fin 12), dceCounter.output ι n₀ = some v → selectedWord ι (n₀ + 1) = i →
      ∀ n₁, Missed ι i n₀ n₁ → (∀ k, n₀ < k → k ≤ n₁ + 1 → selectedWord ι k = i) ∧
        ∀ n₂, Missed ι i n₁ n₂ → (∀ k, n₁ < k → k ≤ n₂ + 1 → selectedWord ι k = i) ∧
          ∀ n₃, Missed ι i n₂ n₃ → selectedWord ι (n₃ + 1) ≠ i) ∧
    -- A reset and a fresh start select no word.
    (∀ n, (ι n = .reset ∨ StartsAfresh ι n) → selectedWord ι (n + 1) = -1) := by
  refine ⟨fun n => (dce_invariant n).selection.range, fun n v hv => ?_,
    fun m n w₀ t₀ w₁ t₁ hcon i hvalid hi => ?_, fun n i hi => ?_, fun n₀ v i hv hi n₁ h₁ => ?_,
    fun n hn => selectedWord_of_cleared (hn.imp_right StartsAfresh.sampledAt)⟩
  · obtain ⟨m, w₀, t₀, w₁, t₁, hcon⟩ := consecutive_of_output hv
    obtain ⟨_, i, hi, hvalid, rfl⟩ := hcon.of_output hv
    obtain ⟨hval, hmin, hmax⟩ := hcon.fpsForWord_eq hvalid
    exact ⟨hmin, hmax, m, w₀, t₀, w₁, t₁, hcon, i, hi, hvalid, hval⟩
  · rcases hi with rfl | ⟨hi, h₁⟩
    · exact hcon.fixed hvalid
    · exact hcon.follows hi h₁ hvalid
  · exact or_iff_not_imp_left.2 (output_of_selected hi)
  · obtain ⟨m, w₀, t₀, w₁, t₁, hcon⟩ := consecutive_of_output hv
    obtain ⟨hk₁, hc₁⟩ := h₁.kept hi (hcon.of_output hv).1 (by decide)
    refine ⟨hk₁, fun n₂ h₂ => ?_⟩
    obtain ⟨hk₂, hc₂⟩ := h₂.kept (hk₁ _ (Nat.lt_succ_of_lt h₁.lt) le_rfl) hc₁ (by decide)
    exact ⟨hk₂, fun n₃ h₃ => h₃.dropped hc₂⟩

/-- A block with a value of the word 1 and one of the word 3. -/
def blockWith (a b : UInt64) : Words := fun i => if i = 1 then a else if i = 3 then b else 0

/-- A sample every second, of a word 3 that stops at the fourth one. -/
def stoppingCalls (n : ℕ) : DceCall := .sample (blockWith 0 (60 * (min n 3).toUInt64)) (1000000 * (n + 1))

theorem stoppingCalls_mark (n : ℕ) : Mark stoppingCalls (0 < n) n (blockWith 0 (60 * (min n 3).toUInt64))
    (1000000 * (n + 1)) := by
  induction n with
  | zero => exact .first (.inl rfl) rfl
  | succ n ih => exact .window ih n.lt_succ_self ih.last.unmarked rfl (by omega) (by omega)

theorem stoppingCalls_missed {n : ℕ} (hn : 3 ≤ n) : Missed stoppingCalls 3 n (n + 1) := by
  have hmark := stoppingCalls_mark n
  rw [decide_eq_true (show 0 < n by omega)] at hmark
  have hinvalid : ∀ t t' i, ¬ValidWord (blockWith 0 (60 * (min n 3).toUInt64)) t
      (blockWith 0 (60 * (min (n + 1) 3).toUInt64)) t' i := by
    rintro t t' i ⟨-, hrate, -⟩
    rw [min_eq_right hn, min_eq_right (Nat.le_succ_of_le hn), wordRate, sub_self, mul_zero, zero_div] at hrate
    exact absurd hrate (by norm_num)
  exact ⟨_, _, _, _, ⟨hmark.last, rfl, by omega, by omega⟩, hinvalid _ _ _, hinvalid _ _ _⟩

/-- The word 3 is found, then kept for two windows without a rate and dropped at
    the third. -/
theorem dce_sound_stopping : dceCounter.output stoppingCalls 3 = some 60 ∧
    (∀ k, 3 < k → k ≤ 6 → selectedWord stoppingCalls k = 3) ∧ selectedWord stoppingCalls 7 ≠ 3 := by
  obtain ⟨-, -, -, -, hkept, -⟩ := dce_sound stoppingCalls
  have hfound : dceCounter.output stoppingCalls 3 = some 60 := by decide +kernel
  have hselected : selectedWord stoppingCalls 4 = (3 : Fin 12) := by decide +kernel
  obtain ⟨h₁, hnext⟩ := hkept 3 60 3 hfound hselected 4 (stoppingCalls_missed le_rfl)
  obtain ⟨h₂, hdropped⟩ := hnext 5 (stoppingCalls_missed (by decide))
  refine ⟨hfound, fun k hk hk' => ?_, hdropped 6 (stoppingCalls_missed (by decide))⟩
  rcases Nat.lt_or_ge k 6 with hlt | hge
  · exact h₁ k hk (by omega)
  · exact h₂ k (by omega) hk'

end Runs

end CommonFps
