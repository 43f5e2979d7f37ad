import CommonFps.Fps.VideoOut

/-!
# The back-off of the VideoOut sampler

After a discovery has failed, the sampler of the payload refuses to `attach` to the
same process for ten seconds, at once and before it resets itself
(`fps_sampler.cpp`). What it does in an `attach` is noted (`attachTraced`): when it
asks for the time, looks for the module, and reads memory.

* `DiscoveryAt`: the calls that search the memory for the counter;
* `backOff_succ`: only these change the process and the deadline;
* `looksUp_after_discovery`: before the deadline, the search is repeated after
  another one only;
* `back_off_kept`: this, and that a refused sampler is detached, in any run.
-/

namespace CommonFps

/-- What `attach` does outside: it reads memory in `resolve_counter_address` only. -/
inductive AttachStep
  | monotonicUs
  | findModule
  | resolveCounterAddress
  deriving DecidableEq, Repr

namespace FpsSampler

/-- An `attach`, and what it does. -/
def attachTraced (b : Build) (s : FpsSampler) (pid : ℤ) (a : AttachAnswers) :
    (FpsSampler × Bool) × List AttachStep :=
  let steps := if b = .ps5 then [.monotonicUs] else []
  if b = .ps5 ∧ pid = s.discoveryFailedPid ∧ a.attemptTimeUs < s.discoveryRetryAfterUs then
    ((s, false), steps)
  else
    let s := s.reset
    let steps := steps ++ [.findModule]
    match a.moduleBase with
    | none => ((s, false), steps)
    | some base =>
      if base = 0 then ((s, false), steps)
      else
        let s := { s with pid := pid, moduleBase := base }
        let steps := steps ++ [.resolveCounterAddress]
        match a.counterAddress, b with
        | none, .host => ((s.reset, false), steps)
        | none, .ps5 =>
          (({ s with
              discoveryFailedPid := pid
              discoveryRetryAfterUs := (a.failureTimeUs + 10000000) % 2 ^ 64 }.reset, false),
            steps ++ [.monotonicUs])
        | some address, .host => (({ s with counterAddress := address }, true), steps)
        | some address, .ps5 =>
          (({ s with
              counterAddress := address, discoveryFailedPid := -1, discoveryRetryAfterUs := 0 },
            true), steps)

theorem attachTraced_fst (b : Build) (s : FpsSampler) (pid : ℤ) (a : AttachAnswers) :
    (s.attachTraced b pid a).1 = s.attach b pid a := by
  rw [attachTraced, attach]
  by_cases hretry : b = .ps5 ∧ pid = s.discoveryFailedPid ∧ a.attemptTimeUs < s.discoveryRetryAfterUs
  · rw [if_pos hretry, if_pos hretry]
  · rw [if_neg hretry, if_neg hretry]
    cases a.moduleBase with
    | none => rfl
    | some base =>
      by_cases hbase : base = 0
      · simp only [if_pos hbase]
      · simp only [if_neg hbase]
        cases a.counterAddress <;> cases b <;> rfl

/-- What an `attach` does. -/
def attachSteps (b : Build) (s : FpsSampler) (pid : ℤ) (a : AttachAnswers) : List AttachStep :=
  (s.attachTraced b pid a).2

/-- It looks for the module, or reads memory. -/
def LooksUp (s : FpsSampler) (pid : ℤ) (a : AttachAnswers) : Prop :=
  .findModule ∈ s.attachSteps .ps5 pid a ∨ .resolveCounterAddress ∈ s.attachSteps .ps5 pid a

/-- The back-off holds: the process is the one whose discovery failed, and the time is
    before the deadline. -/
def Refuses (s : FpsSampler) (pid : ℤ) (a : AttachAnswers) : Prop :=
  pid = s.discoveryFailedPid ∧ a.attemptTimeUs < s.discoveryRetryAfterUs

variable {s : FpsSampler} {pid : ℤ} {a : AttachAnswers}

theorem attachSteps_of_refuses (h : s.Refuses pid a) : s.attachSteps .ps5 pid a = [.monotonicUs] := by
  rw [attachSteps, attachTraced, if_pos ⟨rfl, h⟩]
  rfl

theorem not_looksUp_of_refuses (h : s.Refuses pid a) : ¬s.LooksUp pid a := by
  rw [LooksUp, attachSteps_of_refuses h]
  decide

/-- The process whose discovery failed, and when to try again. -/
def backOff (s : FpsSampler) : ℤ × ℕ := (s.discoveryFailedPid, s.discoveryRetryAfterUs)

/-- The deadline of a discovery that fails at a time. -/
def deadline (failureTimeUs : ℕ) : ℕ := (failureTimeUs + 10000000) % 2 ^ 64

/-- A search of the memory decides on the back-off. -/
theorem backOff_of_discovery (h : .resolveCounterAddress ∈ s.attachSteps .ps5 pid a) :
    ¬s.Refuses pid a ∧ (s.attach .ps5 pid a).1.backOff =
      if a.counterAddress = none then (pid, deadline a.failureTimeUs) else (-1, 0) := by
  have hrefuses : ¬s.Refuses pid a := fun hr => not_looksUp_of_refuses hr (.inr h)
  refine ⟨hrefuses, ?_⟩
  rw [attachSteps, attachTraced, if_neg fun hr => hrefuses hr.2] at h
  rw [attach, if_neg fun hr => hrefuses hr.2]
  cases hm : a.moduleBase with
  | none => simp [hm] at h
  | some base =>
    rw [hm] at h
    dsimp only at h ⊢
    by_cases hbase : base = 0
    · simp [hbase] at h
    · rw [if_neg hbase]
      cases a.counterAddress <;> rfl

/-- Without a search, an `attach` leaves it alone. -/
theorem backOff_of_no_discovery (h : .resolveCounterAddress ∉ s.attachSteps .ps5 pid a) :
    (s.attach .ps5 pid a).1.backOff = s.backOff := by
  rw [attachSteps, attachTraced] at h
  rw [attach]
  split_ifs with hretry
  · rfl
  · rw [if_neg hretry] at h
    cases hm : a.moduleBase with
    | none => rfl
    | some base =>
      rw [hm] at h
      dsimp only at h ⊢
      split_ifs with hbase
      · rfl
      · rw [if_neg hbase] at h
        cases hc : a.counterAddress <;> rw [hc] at h <;> simp at h

theorem backOff_measure (s : FpsSampler) (current : UInt32) (nowUs : ℕ) :
    (s.measure current nowUs).1.backOff = s.backOff := by
  rw [measure]
  cases reading s.haveBaseline s.previousTimeUs nowUs with
  | first => rfl
  | rebase => rfl
  | short => rfl
  | window =>
    dsimp only
    split_ifs <;> rfl

theorem backOff_sample (s : FpsSampler) (a : SampleAnswers) : (s.sample a).1.backOff = s.backOff := by
  rw [sample]
  split_ifs with hattached halive
  · cases a.counter with
    | none => rfl
    | some current => exact backOff_measure s current a.nowUs
  · rfl
  · rfl

end FpsSampler

/-! ## Runs -/

section Runs

variable (ι : ℕ → SamplerCall)

/-- The call `n` is an `attach` to `pid` that searches the memory for the counter. -/
def DiscoveryAt (n : ℕ) (pid : ℤ) (a : AttachAnswers) : Prop :=
  ι n = .attach pid a ∧
    .resolveCounterAddress ∈ ((videoOut .ps5).state ι n).attachSteps .ps5 pid a

/-- It does not find the counter, which it knows at the time `failureTimeUs`. -/
def DiscoveryFailedAt (n : ℕ) (pid : ℤ) (failureTimeUs : ℕ) : Prop :=
  ∃ a, DiscoveryAt ι n pid a ∧ a.counterAddress = none ∧ a.failureTimeUs = failureTimeUs

/-- The call `n` is an `attach` to `pid` that looks for the module, or reads memory. -/
def LooksUpAt (n : ℕ) (pid : ℤ) (a : AttachAnswers) : Prop :=
  ι n = .attach pid a ∧ ((videoOut .ps5).state ι n).LooksUp pid a

/-- No `attach` reads an earlier time than one before it. -/
def MonotonicClock : Prop := ∀ k n pid a pid' a', k ≤ n → ι k = .attach pid a →
  ι n = .attach pid' a' → a.attemptTimeUs ≤ a'.attemptTimeUs

variable {ι}

/-- The back-off before the call `n`. -/
abbrev backOffAt (ι : ℕ → SamplerCall) (n : ℕ) : ℤ × ℕ := ((videoOut .ps5).state ι n).backOff

/-- A call without a discovery keeps the back-off. -/
theorem backOff_succ {n : ℕ} (h : ∀ pid a, ¬DiscoveryAt ι n pid a) :
    backOffAt ι (n + 1) = backOffAt ι n := by
  rw [backOffAt, Driven.state_succ, videoOut_step]
  cases hι : ι n with
  | attach pid a => exact FpsSampler.backOff_of_no_discovery fun hmem => h pid a ⟨hι, hmem⟩
  | sample a => exact FpsSampler.backOff_sample _ a
  | reset => rfl

/-- A discovery that fails sets it. -/
theorem DiscoveryFailedAt.backOff {n : ℕ} {pid : ℤ} {t : ℕ} (h : DiscoveryFailedAt ι n pid t) :
    backOffAt ι (n + 1) = (pid, FpsSampler.deadline t) := by
  obtain ⟨a, ⟨hι, hmem⟩, hnone, rfl⟩ := h
  rw [backOffAt, Driven.state_succ, videoOut_step, hι]
  exact (FpsSampler.backOff_of_discovery hmem).2.trans (if_pos hnone)

/-- It stays until the next discovery. -/
theorem DiscoveryFailedAt.backOff_kept {n m : ℕ} {pid : ℤ} {t : ℕ} (h : DiscoveryFailedAt ι n pid t)
    (hnm : n < m) (hno : ∀ k q a, n < k → k < m → ¬DiscoveryAt ι k q a) :
    backOffAt ι m = (pid, FpsSampler.deadline t) := by
  induction m, hnm using Nat.le_induction with
  | base => exact h.backOff
  | succ m hnm ih =>
    rw [backOff_succ fun q a => hno m q a hnm m.lt_succ_self]
    exact ih fun k q a hnk hkm => hno k q a hnk (hkm.trans m.lt_succ_self)

/-- Until the next discovery, only an `attach` to another process or past the deadline
    looks anything up. -/
theorem DiscoveryFailedAt.of_looksUp {n m : ℕ} {pid q : ℤ} {t : ℕ} {a : AttachAnswers}
    (h : DiscoveryFailedAt ι n pid t) (hnm : n < m)
    (hno : ∀ k q a, n < k → k < m → ¬DiscoveryAt ι k q a) (hm : LooksUpAt ι m q a) :
    q ≠ pid ∨ FpsSampler.deadline t ≤ a.attemptTimeUs := by
  by_contra hrefused
  rw [not_or, not_not, not_le] at hrefused
  have hkept := h.backOff_kept hnm hno
  refine FpsSampler.not_looksUp_of_refuses ⟨?_, ?_⟩ hm.2
  · rw [hrefused.1]
    exact (congrArg Prod.fst hkept).symm
  · exact hrefused.2.trans_eq (congrArg Prod.snd hkept).symm

/-- If anything is looked up for a process before the deadline of its discovery, there
    was another discovery since: for another process, or at a time past the deadline. -/
theorem looksUp_after_discovery {n m : ℕ} {pid : ℤ} {t : ℕ} {a : AttachAnswers}
    (h : DiscoveryFailedAt ι n pid t) (hnm : n < m) (hm : LooksUpAt ι m pid a)
    (ht : a.attemptTimeUs < FpsSampler.deadline t) :
    ∃ k q a', n < k ∧ k < m ∧ DiscoveryAt ι k q a' ∧
      (q ≠ pid ∨ FpsSampler.deadline t ≤ a'.attemptTimeUs) := by
  -- The first discovery since, of whatever process.
  have hex : ∃ k, n < k ∧ k < m ∧ ∃ q a', DiscoveryAt ι k q a' := by
    by_contra hno
    rcases h.of_looksUp hnm (fun k q a' hnk hkm hk => hno ⟨k, hnk, hkm, q, a', hk⟩) hm with hne | hle
    · exact hne rfl
    · exact absurd ht (not_lt.2 hle)
  classical
  obtain ⟨hnk, hkm, q, a', hk⟩ := Nat.find_spec hex
  refine ⟨Nat.find hex, q, a', hnk, hkm, hk, h.of_looksUp hnk (fun j q' a'' hnj hjk hj => ?_)
    ⟨hk.1, .inr hk.2⟩⟩
  exact Nat.find_min hex hjk ⟨hnj, hjk.trans hkm, q', a'', hj⟩

/-- An `attach` that is refused leaves the sampler detached: where the back-off refuses
    it, the sampler was. -/
theorem detached_of_refused {b : Build} {n : ℕ} (h : (videoOut b).output ι n = .attached false) :
    ¬((videoOut b).state ι (n + 1)).Attached := by
  rw [Driven.output] at h
  rw [Driven.state_succ, videoOut_step]
  cases hι : ι n with
  | attach pid a =>
    rw [hι] at h
    have hrefused : (((videoOut b).state ι n).attach b pid a).2 = false := by
      simpa [FpsSampler.call] using h
    rcases FpsSampler.attach_of_refused hrefused with ⟨hb, hlt, hsame⟩ | hdetached
    · intro hattached
      rw [FpsSampler.call, hsame] at hattached
      -- While attached there is no deadline, and no time before it.
      obtain ⟨k, hk⟩ := attached_spec n hattached
      rw [hk.retry hb] at hlt
      exact Nat.not_lt_zero _ hlt
    · exact hdetached
  | sample a =>
    rw [hι] at h
    cases h
  | reset =>
    rw [hι] at h
    cases h

end Runs

/-- In every run of the payload's sampler: a refused `attach` leaves it detached; and if
    anything is looked up for a process whose discovery failed, at a time before the
    deadline, there was another discovery since, for another process or at a time past
    the deadline. While the clock does not go back, it was for another process. -/
theorem back_off_kept (ι : ℕ → SamplerCall) :
    (∀ n, (videoOut .ps5).output ι n = .attached false →
      ¬((videoOut .ps5).state ι (n + 1)).Attached) ∧
    (∀ n m pid t a, DiscoveryFailedAt ι n pid t → n < m → LooksUpAt ι m pid a →
      a.attemptTimeUs < FpsSampler.deadline t → ∃ k q a', n < k ∧ k < m ∧ DiscoveryAt ι k q a' ∧
        (q ≠ pid ∨ FpsSampler.deadline t ≤ a'.attemptTimeUs)) ∧
    (MonotonicClock ι → ∀ n m pid t a, DiscoveryFailedAt ι n pid t → n < m →
      LooksUpAt ι m pid a → a.attemptTimeUs < FpsSampler.deadline t →
      ∃ k q a', n < k ∧ k < m ∧ DiscoveryAt ι k q a' ∧ q ≠ pid) := by
  refine ⟨fun n => detached_of_refused, fun n m pid t a h hnm hm ht =>
    looksUp_after_discovery h hnm hm ht, fun hclock n m pid t a h hnm hm ht => ?_⟩
  obtain ⟨k, q, a', hnk, hkm, hk, hother⟩ := looksUp_after_discovery h hnm hm ht
  refine ⟨k, q, a', hnk, hkm, hk, hother.resolve_right fun hle => ?_⟩
  have := hclock k m q a' pid a hkm.le hk.1 hm.1
  omega

/-- A discovery that fails, one that succeeds after the deadline, and an `attach` for
    which the clock cannot be read, so that its time is `0`. -/
def clockLost : ℕ → SamplerCall
  | 0 => .attach 7 ⟨60000000, some 0x40000000, none, 60500000⟩
  | 1 => .attach 7 ⟨71000000, some 0x40000000, some 0x52000768, 71500000⟩
  | _ => .attach 7 ⟨0, some 0x40000000, some 0x52000768, 0⟩

/-- Its time is before the deadline of the failed discovery, and there was no discovery
    for another process; but the memory is searched again. -/
theorem search_repeated_early :
    DiscoveryFailedAt clockLost 0 7 60500000 ∧
      LooksUpAt clockLost 2 7 ⟨0, some 0x40000000, some 0x52000768, 0⟩ ∧
      0 < FpsSampler.deadline 60500000 ∧
      ¬∃ k q a, 0 < k ∧ k < 2 ∧ DiscoveryAt clockLost k q a ∧ q ≠ 7 := by
  refine ⟨⟨_, ⟨rfl, by decide⟩, rfl, rfl⟩, ⟨rfl, .inl (by decide)⟩, by decide, ?_⟩
  rintro ⟨k, q, a, hpos, hlt, ⟨hι, -⟩, hne⟩
  obtain rfl : k = 1 := by omega
  rw [clockLost] at hι
  cases hι
  exact hne rfl

end CommonFps
