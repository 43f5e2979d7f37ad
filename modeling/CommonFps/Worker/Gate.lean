import CommonFps.Worker.Loop

/-!
# The injection gate

The worker counts how often in a row it observed the same ShellUI process and
the same game, and has the renderer injected after ten and three times. The
injector looks ShellUI up again, and injects into the process that *it* found.

* `worker.shellui_counted`, `worker.game_counted`: what the counters count;
* `gate_iff`: the process that gets the renderer is the one that was counted
  exactly where the second lookup agrees with the observation;
* `gate_missed`: which is not so where ShellUI restarts in between.
-/

namespace CommonFps

namespace Worker

variable {s : Worker} {o : ℕ → ℤ} {n : ℕ}

/-- The counter of ShellUI observations counts, up to ten. -/
theorem observeShellui_counts (h : LastAre o n s.stableShelluiObservations s.stableShelluiPid) :
    LastAre o (n + 1) (s.observeShellui (o n)).stableShelluiObservations
      (s.observeShellui (o n)).stableShelluiPid := by
  rw [observeShellui]
  split_ifs with h₁ h₂
  · exact (h.succ h₂).mono (countUpTo_le _ _)
  · exact .one rfl
  · exact .zero _ _ _

/-- The counter of game observations counts, up to three. -/
theorem observeGame_counts {o : ℕ → Option ℤ}
    (h : LastAre o n s.stableGameObservations (some s.stableGamePid)) :
    LastAre o (n + 1) (s.observeGame (o n)).stableGameObservations
      (some (s.observeGame (o n)).stableGamePid) := by
  cases ho : o n with
  | none => exact .zero _ _ _
  | some pid =>
    rw [observeGame]
    split_ifs with hp
    · exact (h.succ (ho.trans (congrArg some hp))).mono (countUpTo_le _ _)
    · exact .one ho

/-- The renderer is only brought up if it may be. -/
theorem mayInject_of_ensured {i : WorkerInput} {e : EnsureReport} (h : (s.ensured i).2 = some e) :
    (s.chosen i).1.MayInject ∧
      e = ((s.chosen i).1.injector.ensureShelluiRenderer i.ensure).2 := by
  rw [ensured, ensureRenderer] at h
  split_ifs at h with hm
  exact ⟨hm, (Option.some_injective _ h).symm⟩

end Worker

open Worker

namespace worker

variable (ι : ℕ → WorkerInput)

theorem shellui_counted (n : ℕ) : LastAre (fun k => (ι k).shelluiPid) n
    (worker.state ι n).stableShelluiObservations (worker.state ι n).stableShelluiPid := by
  induction n with
  | zero => exact .zero _ _ _
  | succ n ih =>
    have := observeShellui_counts ih
    rwa [← iterate_stableShelluiPid, ← iterate_stableShelluiObservations] at this

theorem game_counted (n : ℕ) : LastAre (fun k => (ι k).gamePid) n
    (worker.state ι n).stableGameObservations (some (worker.state ι n).stableGamePid) := by
  induction n with
  | zero => exact .zero _ _ _
  | succ n ih =>
    have h : LastAre (fun k => (ι k).gamePid) n
        ((worker.state ι n).observeShellui (ι n).shelluiPid).stableGameObservations
        (some ((worker.state ι n).observeShellui (ι n).shelluiPid).stableGamePid) := by
      rwa [observeShellui_frame]
    have := observeGame_counts h
    rwa [← observed, ← iterate_stableGamePid, ← iterate_stableGameObservations] at this

/-- A game that was observed up to three times in a row is the current one, and was counted as often. -/
theorem le_gameObservations {n c : ℕ} {g : ℤ} (hc : c ≤ 3) (hpos : 0 < c)
    (h : LastAre (fun k => (ι k).gamePid) n c (some g)) :
    (worker.state ι n).stableGamePid = g ∧ c ≤ (worker.state ι n).stableGameObservations := by
  induction c generalizing n with
  | zero => exact absurd hpos (lt_irrefl 0)
  | succ c ih =>
    obtain ⟨m, rfl⟩ := Nat.exists_eq_add_one_of_ne_zero (Nat.ne_zero_of_lt (Nat.lt_of_lt_of_le hpos h.1))
    obtain ⟨hbefore, hlast⟩ := h.pred
    have hstable : (worker.state ι (m + 1)).stableGamePid =
        (((worker.state ι m).observeShellui (ι m).shelluiPid).observeGame (some g)).stableGamePid := by
      rw [← hlast]
      exact iterate_stableGamePid
    have hcount : (worker.state ι (m + 1)).stableGameObservations =
        (((worker.state ι m).observeShellui (ι m).shelluiPid).observeGame
          (some g)).stableGameObservations := by
      rw [← hlast]
      exact iterate_stableGameObservations
    rw [hstable, hcount, observeShellui_frame, observeGame]
    split_ifs with hsame
    · refine ⟨hsame.symm, ?_⟩
      rcases Nat.eq_zero_or_pos c with rfl | hc'
      · show 1 ≤ countUpTo 3 (worker.state ι m).stableGameObservations
        rw [countUpTo]
        split_ifs <;> omega
      · obtain ⟨-, hle⟩ := ih (Nat.le_of_succ_le hc) hc' hbefore
        show c + 1 ≤ countUpTo 3 (worker.state ι m).stableGameObservations
        rw [countUpTo]
        split_ifs <;> omega
    · refine ⟨rfl, ?_⟩
      -- Another game was current, so this is the first observation.
      rcases Nat.eq_zero_or_pos c with rfl | hc'
      · exact le_rfl
      · exact absurd (ih (Nat.le_of_succ_le hc) hc' hbefore).1.symm hsame

/-- The iteration `k` injects into `p`. -/
def Injects (k : ℕ) (p : ℤ) : Prop :=
  ∃ e, (worker.output ι k).ensure = some e ∧ ∃ r, (p, r) ∈ e.injections

variable {ι}

/-- An injection is into the process that the injector found, after ten
    observations of one ShellUI process and three of one game. -/
theorem Injects.gate {k : ℕ} {p : ℤ} (h : Injects ι k p) :
    p = (ι k).ensure.lookup ∧
      LastAre (fun k => (ι k).shelluiPid) (k + 1) 10 (ι k).shelluiPid ∧
      ∃ g, 0 < g ∧ LastAre (fun k => (ι k).gamePid) (k + 1) 3 (some g) := by
  obtain ⟨e, he, r, hr⟩ := h
  obtain ⟨⟨-, ⟨hg, hgame⟩, hshellui⟩, rfl⟩ := mayInject_of_ensured he
  have hs := shellui_counted ι (k + 1)
  have hg' := game_counted ι (k + 1)
  rw [chosen_frame] at hg hgame hshellui
  rw [Driven.state_succ] at hs hg'
  simp only [worker, iterate_stableShelluiPid, iterate_stableShelluiObservations,
    iterate_stableGamePid, iterate_stableGameObservations] at hs hg'
  rw [observed, observeGame_frame] at hshellui
  have hs' := hs.mono hshellui
  have hk := hs'.2 k (by omega) k.lt_succ_self
  rw [← hk] at hs'
  exact ⟨Injector.eq_lookup_of_mem_injections hr, hs', _, hg, hg'.mono hgame⟩

end worker

/-- Every injection is into the ShellUI process that was observed ten times in a
    row, with one game observed three times in a row, exactly if every injection
    is into the process that was observed last. -/
theorem gate_iff (ι : ℕ → WorkerInput) :
    (∀ k p, worker.Injects ι k p →
      LastAre (fun k => (ι k).shelluiPid) (k + 1) 10 p ∧
        ∃ g, 0 < g ∧ LastAre (fun k => (ι k).gamePid) (k + 1) 3 (some g)) ↔
    ∀ k p, worker.Injects ι k p → (ι k).ensure.lookup = (ι k).shelluiPid := by
  refine ⟨fun h k p hi => ?_, fun h k p hi => ?_⟩
  · obtain rfl := hi.gate.1
    exact ((h k _ hi).1.2 k (by omega) k.lt_succ_self).symm
  · obtain ⟨rfl, hs, hg⟩ := hi.gate
    rw [← h k _ hi] at hs
    exact ⟨hs, hg⟩

/-- ShellUI is the process 50, and is the process 51 as soon as it was observed. -/
def restartingInput (_ : ℕ) : WorkerInput where
  shelluiPid := 50
  gamePid := some 99
  nowUs := 0
  sample := ⟨true, none, 0⟩
  attach := ⟨0, none, none, 0⟩
  dce := ⟨none, 0, ⟨⟨false, ⟨false, false, false⟩, false, false⟩, 0, 0,
    ⟨false, false, false⟩, 0, 0,
    fun _ => 0⟩, 0⟩
  ensure := ⟨51, none, ⟨false, false, true⟩, fun _ => ⟨none, 51⟩⟩
  filterNowUs := 0
  config := {}

theorem gate_missed : worker.Injects restartingInput 9 51 ∧
    ¬LastAre (fun k => (restartingInput k).shelluiPid) 10 10 51 := by
  refine ⟨⟨((worker.output restartingInput 9).ensure).get (by decide +kernel), by simp,
    ⟨false, false, true⟩, by decide +kernel⟩, fun h => ?_⟩
  exact absurd (h.2 0 (by decide) (by decide)) (by decide)

end CommonFps
