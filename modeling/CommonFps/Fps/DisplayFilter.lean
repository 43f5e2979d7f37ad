import CommonFps.Lib.Driven
import CommonFps.Lib.Window
import CommonFps.Fps.Rate

/-!
# The display filter

The filter between the samplers and the overlay (`fps_display_filter.hpp`). It
works in *epochs*: stretches of calls for one process and one source, with a
clock that does not go back, nor ahead by more than 3 s at once. An epoch shows
nothing for 5 s and three timestamps, then the median of the latest three
measurements; from then on it follows the measurements, but a rise has to be
confirmed by three higher measurements in a row, over 2 s.

* `displayFilter`: the filter under any sequence of calls;
* `StartsEpoch`, `InEpoch`, `Settled`: epochs in terms of the calls alone;
* `Stores`: the values that the filter can still show, as opposed to those left
  in its buffers by earlier calls;
* `epoch_spec`: what the filter holds within an epoch, in any run;
* `display_isolated`: epochs are isolated, and settled before they show anything.
-/

namespace CommonFps

/-- Where a value comes from. -/
inductive FpsDisplaySource
  | none
  | videoOut
  | dceFixed
  | dceAdaptive
  | sharedHen
  deriving DecidableEq, Repr

def kStartupUs : ℕ := 5000000
def kRiseUs : ℕ := 2000000

/-- The three latest values of a kind. -/
abbrev Recent := Fin 3 → ℤ

instance neZero_recent : NeZero 3 := ⟨Nat.succ_ne_zero 2⟩

/-- The filter (`FpsDisplayFilter`). -/
structure FpsDisplayFilter where
  haveEpoch : Bool := false
  pid : ℤ := -1
  source : FpsDisplaySource := .none
  startedUs : ℕ := 0
  previousUs : ℕ := 0
  elevatedSinceUs : ℕ := 0
  displayed : Option ℤ := none
  recent : Recent := fun _ => 0
  accepted : Recent := fun _ => 0
  elevated : Recent := fun _ => 0
  recentCount : ℕ := 0
  recentCursor : Fin 3 := 0
  acceptedCursor : Fin 3 := 0
  elevatedCount : ℕ := 0
  elevatedCursor : Fin 3 := 0
  deriving DecidableEq

/-- A call of the filter. -/
structure FilterCall where
  measured : Option ℤ
  nowUs : ℕ
  pid : ℤ
  source : FpsDisplaySource
  deriving DecidableEq, Repr

namespace FpsDisplayFilter

/-- The filter forgets all. -/
def reset (_ : FpsDisplayFilter) : FpsDisplayFilter := {}

/-- A measurement joins those of the start of the epoch. -/
def pushRecent (s : FpsDisplayFilter) (value : ℤ) : FpsDisplayFilter :=
  { s with
    recent := Function.update s.recent s.recentCursor value
    recentCursor := s.recentCursor + 1
    recentCount := min 3 (s.recentCount + 1) }

/-- A measurement joins those that would confirm a rise. -/
def pushElevated (s : FpsDisplayFilter) (value : ℤ) (nowUs : ℕ) : FpsDisplayFilter :=
  { s with
    elevatedSinceUs := if s.elevatedCount = 0 then nowUs else s.elevatedSinceUs
    elevated := Function.update s.elevated s.elevatedCursor value
    elevatedCursor := s.elevatedCursor + 1
    elevatedCount := min 3 (s.elevatedCount + 1) }

/-- A median is shown, and is the only accepted value. -/
def showMedian (s : FpsDisplayFilter) (values : Recent) : FpsDisplayFilter :=
  { s with displayed := some (median (List.ofFn values)), accepted := fun _ => median (List.ofFn values) }

/-- A measurement is shown, and accepted. -/
def accept (s : FpsDisplayFilter) (value : ℤ) : FpsDisplayFilter :=
  { s with
    displayed := some value
    accepted := Function.update s.accepted s.acceptedCursor value
    acceptedCursor := s.acceptedCursor + 1 }

/-- No rise is to be confirmed any more. -/
def clearElevated (s : FpsDisplayFilter) : FpsDisplayFilter :=
  { s with elevatedCount := 0, elevatedCursor := 0 }

/-- A measurement, before anything is shown. -/
def settle (s : FpsDisplayFilter) (value : ℤ) (nowUs : ℕ) : FpsDisplayFilter :=
  if nowUs - s.startedUs < kStartupUs ∨ (s.pushRecent value).recentCount < 3 then s.pushRecent value
  else (s.pushRecent value).showMedian (s.pushRecent value).recent

/-- The largest measurement to be shown at once. -/
def upwardThreshold (s : FpsDisplayFilter) : ℤ :=
  let reference := max (max (s.accepted 0) (s.accepted 1)) (s.accepted 2)
  reference + max 8 (reference.tdiv 5)

/-- A measurement, while something is shown. -/
def follow (s : FpsDisplayFilter) (value : ℤ) (nowUs : ℕ) : FpsDisplayFilter :=
  if value > s.upwardThreshold then
    let s := s.pushElevated value nowUs
    if s.elevatedCount < 3 ∨ nowUs - s.elevatedSinceUs < kRiseUs then s
    else { s.showMedian s.elevated with acceptedCursor := 0 }.clearElevated
  else (s.accept value).clearElevated

/-- The time of the latest call. -/
def setPrevious (s : FpsDisplayFilter) (nowUs : ℕ) : FpsDisplayFilter := { s with previousUs := nowUs }

/-- A measurement with a new timestamp. -/
def record (s : FpsDisplayFilter) (value : ℤ) (nowUs : ℕ) : FpsDisplayFilter :=
  if s.displayed = none then (s.setPrevious nowUs).settle value nowUs
  else (s.setPrevious nowUs).follow value nowUs

/-- The start of an epoch. -/
def start (pid : ℤ) (source : FpsDisplaySource) (nowUs : ℕ) : FpsDisplayFilter :=
  { haveEpoch := true, pid := pid, source := source, startedUs := nowUs, previousUs := nowUs }

/-- The filter cannot continue its epoch with the call, if it has one. -/
def Starts (s : FpsDisplayFilter) (c : FilterCall) : Prop :=
  s.haveEpoch = false ∨ c.pid ≠ s.pid ∨ c.source ≠ s.source ∨ c.nowUs < s.previousUs ∨
    c.nowUs - s.previousUs > kMaxFpsWindowUs

instance (s : FpsDisplayFilter) (c : FilterCall) : Decidable (s.Starts c) := by
  unfold Starts
  infer_instance

/-- A call of the filter, and the value that it has shown. -/
def sample (s : FpsDisplayFilter) (c : FilterCall) : FpsDisplayFilter × Option ℤ :=
  match c.measured with
  | none => (s.reset, none)
  | some value =>
    if c.pid ≤ 0 ∨ c.source = .none ∨ value < 0 ∨ value > kMaxDisplayFps then (s.reset, none)
    else if s.Starts c then
      let s := (start c.pid c.source c.nowUs).record value c.nowUs
      (s, s.displayed)
    else if c.nowUs = s.previousUs then (s, s.displayed)
    else
      let s := s.record value c.nowUs
      (s, s.displayed)

end FpsDisplayFilter

/-- The filter, driven by calls. -/
def displayFilter : Driven FpsDisplayFilter FilterCall (Option ℤ) where
  init := {}
  step := FpsDisplayFilter.sample

/-! ## Stored values -/

namespace FpsDisplayFilter

variable {P Q : ℤ → Prop} {s : FpsDisplayFilter}

/-- The ring holds the values `xs`, the latest first, of which it counts as many
    as fit. -/
structure Ring (slots : Recent) (cursor : Fin 3) (count : ℕ) (xs : List ℤ) : Prop where
  holds : Window.Holds slots cursor xs
  count : count = min 3 xs.length

theorem Ring.nil (slots : Recent) (cursor : Fin 3) : Ring slots cursor 0 [] :=
  ⟨Window.holds_nil slots cursor, rfl⟩

theorem Ring.push {slots : Recent} {cursor : Fin 3} {count : ℕ} {xs : List ℤ}
    (h : Ring slots cursor count xs) (x : ℤ) :
    Ring (Function.update slots cursor x) (cursor + 1) (min 3 (count + 1)) (x :: xs) := by
  refine ⟨h.holds.push x, ?_⟩
  rw [h.count, List.length_cons]
  omega

/-- The median of a full ring is that of its latest three values. -/
theorem Ring.median_eq {slots : Recent} {cursor : Fin 3} {count : ℕ} {xs : List ℤ}
    (h : Ring slots cursor count xs) (hc : ¬count < 3) :
    3 ≤ xs.length ∧ median (List.ofFn slots) = median (xs.take 3) := by
  have hlen : 3 ≤ xs.length := by
    have := h.count
    omega
  exact ⟨hlen, median_perm (h.holds.perm hlen)⟩

theorem Ring.median_of {slots : Recent} {cursor : Fin 3} {count : ℕ} {xs : List ℤ}
    (h : Ring slots cursor count xs) (hc : ¬count < 3) (hP : ∀ x ∈ xs, P x) :
    P (median (List.ofFn slots)) := by
  obtain ⟨hlen, hm⟩ := h.median_eq hc
  rw [hm]
  refine hP _ (List.mem_of_mem_take (median_mem fun h => ?_))
  have := congrArg List.length h
  rw [List.length_take, List.length_nil] at this
  omega

/-- Every value that the filter can still show satisfies `P`: what it shows, or
    the measurements it has to show something; and the higher ones that would
    confirm a rise. -/
structure Stores (P : ℤ → Prop) (s : FpsDisplayFilter) : Prop where
  displayed : ∀ v, s.displayed = some v → P v
  recent : s.displayed = none → ∃ xs, Ring s.recent s.recentCursor s.recentCount xs ∧ ∀ x ∈ xs, P x
  elevated : ∃ xs, Ring s.elevated s.elevatedCursor s.elevatedCount xs ∧ ∀ x ∈ xs, P x

theorem Stores.mono (h : Stores P s) (hPQ : ∀ v, P v → Q v) : Stores Q s where
  displayed v hv := hPQ v (h.displayed v hv)
  recent hn := by
    obtain ⟨xs, hr, hxs⟩ := h.recent hn
    exact ⟨xs, hr, fun x hx => hPQ x (hxs x hx)⟩
  elevated := by
    obtain ⟨xs, hr, hxs⟩ := h.elevated
    exact ⟨xs, hr, fun x hx => hPQ x (hxs x hx)⟩

theorem stores_start (pid : ℤ) (source : FpsDisplaySource) (nowUs : ℕ) :
    Stores P (start pid source nowUs) :=
  ⟨fun _ hv => (Option.some_ne_none _ hv.symm).elim, fun _ => ⟨[], .nil _ _, by simp⟩, [],
    .nil _ _, by simp⟩

theorem Stores.setPrevious (h : Stores P s) (nowUs : ℕ) : Stores P (s.setPrevious nowUs) :=
  ⟨h.displayed, h.recent, h.elevated⟩

theorem Stores.clearElevated (h : Stores P s) : Stores P s.clearElevated :=
  ⟨h.displayed, h.recent, [], .nil _ _, by simp⟩

theorem Stores.accept (h : Stores P s) {value : ℤ} (hv : P value) : Stores P (s.accept value) :=
  ⟨fun _ hd => Option.some.inj hd ▸ hv, fun hd => (Option.some_ne_none _ hd).elim, h.elevated⟩

theorem Stores.showMedian (h : Stores P s) {values : Recent} (hv : P (median (List.ofFn values))) :
    Stores P (s.showMedian values) :=
  ⟨fun _ hd => Option.some.inj hd ▸ hv, fun hd => (Option.some_ne_none _ hd).elim, h.elevated⟩

/-- A measurement before anything is shown keeps what the stored values satisfy. -/
theorem Stores.settle (h : Stores P s) (hd : s.displayed = none) {value : ℤ} (hv : P value)
    (nowUs : ℕ) : Stores P (s.settle value nowUs) := by
  obtain ⟨rs, hr, hrs⟩ := h.recent hd
  have hpush := hr.push value
  have hall : ∀ x ∈ value :: rs, P x := List.forall_mem_cons.2 ⟨hv, hrs⟩
  have hpushed : Stores P (s.pushRecent value) := ⟨h.displayed, fun _ => ⟨_, hpush, hall⟩, h.elevated⟩
  rw [FpsDisplayFilter.settle]
  split_ifs with hc
  · exact hpushed
  · exact hpushed.showMedian (hpush.median_of (not_or.1 hc).2 hall)

/-- A measurement while something is shown keeps what the stored values satisfy. -/
theorem Stores.follow (h : Stores P s) (hd : s.displayed ≠ none) {value : ℤ} (hv : P value)
    (nowUs : ℕ) : Stores P (s.follow value nowUs) := by
  obtain ⟨es, he, hes⟩ := h.elevated
  have hpush := he.push value
  have hall : ∀ x ∈ value :: es, P x := List.forall_mem_cons.2 ⟨hv, hes⟩
  have hpushed : Stores P (s.pushElevated value nowUs) :=
    ⟨h.displayed, fun hn => absurd hn hd, _, hpush, hall⟩
  rw [FpsDisplayFilter.follow]
  dsimp only
  split_ifs with hu hc
  · exact hpushed
  · have hshown := hpushed.showMedian (hpush.median_of (not_or.1 hc).1 hall)
    exact Stores.clearElevated ⟨hshown.displayed, hshown.recent, hshown.elevated⟩
  · exact (h.accept hv).clearElevated

/-- A recorded measurement keeps what the stored values satisfy. -/
theorem Stores.record (h : Stores P s) {value : ℤ} (hv : P value) (nowUs : ℕ) :
    Stores P (s.record value nowUs) := by
  rw [FpsDisplayFilter.record]
  split_ifs with hd
  · exact (h.setPrevious nowUs).settle hd hv nowUs
  · exact (h.setPrevious nowUs).follow hd hv nowUs

end FpsDisplayFilter

/-! ## One call -/

/-- The measurement of a call that has one. -/
def FilterCall.value (c : FilterCall) : ℤ := c.measured.getD 0

/-- A call with a measurement that can be shown, of a process and a source. -/
structure FilterCall.Valid (c : FilterCall) : Prop where
  pid : 0 < c.pid
  source : c.source ≠ .none
  measured : c.measured = some c.value
  nonneg : 0 ≤ c.value
  le : c.value ≤ 120

/-- A call can continue the epoch of the call `p`: for the same process and
    source, at most 3 s later. -/
structure FilterCall.Continues (c p : FilterCall) : Prop where
  pid : c.pid = p.pid
  source : c.source = p.source
  le : p.nowUs ≤ c.nowUs
  gap : c.nowUs - p.nowUs ≤ 3000000

namespace FpsDisplayFilter

variable {s : FpsDisplayFilter} {c : FilterCall}

theorem sample_of_not_valid (h : ¬c.Valid) : s.sample c = ({}, none) := by
  rw [sample]
  cases hm : c.measured with
  | none => rfl
  | some v =>
    have hv : c.value = v := by rw [FilterCall.value, hm]; rfl
    refine if_pos ?_
    by_contra hc
    push Not at hc
    exact h ⟨hc.1, hc.2.1, by rw [hm, hv], hv ▸ hc.2.2.1, hv ▸ hc.2.2.2⟩

/-- A valid call starts an epoch, repeats a timestamp or records a measurement. -/
theorem sample_of_valid (h : c.Valid) :
    (s.Starts c → (s.sample c).1 = (start c.pid c.source c.nowUs).record c.value c.nowUs) ∧
      (¬s.Starts c → c.nowUs = s.previousUs → (s.sample c).1 = s) ∧
      (¬s.Starts c → c.nowUs ≠ s.previousUs → (s.sample c).1 = s.record c.value c.nowUs) := by
  have hc : ¬(c.pid ≤ 0 ∨ c.source = .none ∨ c.value < 0 ∨ c.value > kMaxDisplayFps) := by
    push Not
    exact ⟨h.pid, h.source, h.nonneg, h.le⟩
  rw [sample, h.measured]
  simp only [if_neg hc]
  refine ⟨fun hs => ?_, fun hs ht => ?_, fun hs ht => ?_⟩
  · rw [if_pos hs]
  · rw [if_neg hs, if_pos ht]
  · rw [if_neg hs, if_neg ht]

/-- A call returns what the filter shows after it. -/
theorem sample_snd (s : FpsDisplayFilter) (c : FilterCall) : (s.sample c).2 = (s.sample c).1.displayed := by
  by_cases h : c.Valid
  · rw [sample, h.measured]
    dsimp only
    split_ifs <;> rfl
  · rw [sample_of_not_valid h]

/-- A call that does not continue an epoch acts as on a fresh filter. -/
theorem sample_of_starts (h : s.Starts c) : s.sample c = ({} : FpsDisplayFilter).sample c := by
  by_cases hc : c.Valid
  · have hfst := ((sample_of_valid hc).1 h).trans ((sample_of_valid (s := {}) hc).1 (.inl rfl)).symm
    exact Prod.ext hfst (by rw [sample_snd, sample_snd, hfst])
  · rw [sample_of_not_valid hc, sample_of_not_valid hc]

/-- A measurement keeps the epoch, at its time. -/
theorem record_frame (s : FpsDisplayFilter) (value : ℤ) (nowUs : ℕ) :
    (s.record value nowUs).haveEpoch = s.haveEpoch ∧ (s.record value nowUs).pid = s.pid ∧
      (s.record value nowUs).source = s.source ∧ (s.record value nowUs).startedUs = s.startedUs ∧
      (s.record value nowUs).previousUs = nowUs := by
  rw [record]
  split_ifs
  · rw [settle]
    split_ifs <;> exact ⟨rfl, rfl, rfl, rfl, rfl⟩
  · rw [follow]
    dsimp only
    split_ifs <;> exact ⟨rfl, rfl, rfl, rfl, rfl⟩

/-- Once something is shown, something is. -/
theorem record_displayed (h : s.displayed ≠ none) (value : ℤ) (nowUs : ℕ) :
    (s.record value nowUs).displayed ≠ none := by
  rw [record, if_neg h, follow]
  dsimp only
  split_ifs
  · exact h
  · exact Option.some_ne_none _
  · exact Option.some_ne_none _

end FpsDisplayFilter

/-! ## Epochs -/

section Epochs

open FpsDisplayFilter

variable (ι : ℕ → FilterCall)

/-- The call `n` starts an epoch: it is valid, and cannot continue an epoch from
    the call before. -/
def StartsEpoch (n : ℕ) : Prop :=
  (ι n).Valid ∧ ∀ m, n = m + 1 → (ι m).Valid → ¬(ι n).Continues (ι m)

/-- The call `n` is in the epoch that the call `j` starts. -/
structure InEpoch (j n : ℕ) : Prop where
  starts : StartsEpoch ι j
  le : j ≤ n
  valid : ∀ k, j ≤ k → k ≤ n → (ι k).Valid
  continues : ∀ k, j ≤ k → k < n → (ι (k + 1)).Continues (ι k)

/-- The timestamps of the calls from `j` to `n`. -/
def timestamps (j n : ℕ) : Finset ℕ := (Finset.Icc j n).image fun k => (ι k).nowUs

/-- The epoch started by the call `j` has settled at the call `n`: for 5 s, with
    three timestamps. -/
def Settled (j n : ℕ) : Prop := 5000000 ≤ (ι n).nowUs - (ι j).nowUs ∧ 3 ≤ (timestamps ι j n).card

/-- The measurements of the calls from `j` to `n` that have a new timestamp, the
    latest first. -/
def stamped (j n : ℕ) : List ℤ :=
  (((List.range' j (n + 1 - j)).filter fun k => k = j ∨ (ι k).nowUs ≠ (ι (k - 1)).nowUs).map
    fun k => (ι k).value).reverse

/-- What the filter holds after the call `n`, in the epoch that the call `j` starts. -/
structure EpochState (j n : ℕ) (s : FpsDisplayFilter) : Prop where
  haveEpoch : s.haveEpoch = true
  pid : s.pid = (ι n).pid
  source : s.source = (ι n).source
  started : s.startedUs = (ι j).nowUs
  previous : s.previousUs = (ι n).nowUs
  settled : s.displayed ≠ none ↔ Settled ι j n
  recent : s.displayed = none → Ring s.recent s.recentCursor s.recentCount (stamped ι j n)
  stores : Stores (fun v => ∃ k, j ≤ k ∧ k ≤ n ∧ (ι k).measured = some v) s

variable {ι}

theorem stamped_self (j : ℕ) : stamped ι j j = [(ι j).value] := by
  simp [stamped]

theorem stamped_succ {j n : ℕ} (h : j ≤ n) : stamped ι j (n + 1) =
    if (ι (n + 1)).nowUs = (ι n).nowUs then stamped ι j n else (ι (n + 1)).value :: stamped ι j n := by
  have hlen : n + 1 + 1 - j = n + 1 - j + 1 := by omega
  have hlast : j + (n + 1 - j) = n + 1 := by omega
  rw [stamped, stamped, hlen, List.range'_1_concat, hlast, List.filter_append]
  have hj : n + 1 ≠ j := by omega
  split_ifs with ht
  · simp [hj, ht]
  · simp [hj, ht]

theorem timestamps_succ {j n : ℕ} (h : j ≤ n) :
    timestamps ι j (n + 1) = insert (ι (n + 1)).nowUs (timestamps ι j n) := by
  rw [timestamps, timestamps, ← Finset.image_insert (fun k => (ι k).nowUs)]
  exact congrArg _ (Finset.insert_Icc_right_eq_Icc_succ (Nat.le_succ_of_le h)).symm

theorem InEpoch.self {n : ℕ} (h : StartsEpoch ι n) : InEpoch ι n n :=
  ⟨h, le_rfl, fun _ h₁ h₂ => le_antisymm h₂ h₁ ▸ h.1,
    fun _ h₁ h₂ => absurd h₁ (not_le.2 h₂)⟩

theorem InEpoch.mono {j m n : ℕ} (h : InEpoch ι j n) (hj : j ≤ m) (hm : m ≤ n) : InEpoch ι j m :=
  ⟨h.starts, hj, fun k h₁ h₂ => h.valid k h₁ (h₂.trans hm),
    fun k h₁ h₂ => h.continues k h₁ (h₂.trans_le hm)⟩

/-- Induction along an epoch. -/
theorem InEpoch.induction {j n : ℕ} {P : ℕ → Prop} (h : InEpoch ι j n) (h₀ : P j)
    (hs : ∀ m, j ≤ m → InEpoch ι j (m + 1) → P m → P (m + 1)) : P n := by
  have hP : ∀ m, j ≤ m → m ≤ n → P m := by
    intro m hj
    induction m, hj using Nat.le_induction with
    | base => exact fun _ => h₀
    | succ m hj ih =>
      intro hm
      exact hs m hj (h.mono (Nat.le_succ_of_le hj) hm) (ih (Nat.le_of_succ_le hm))
  exact hP n h.le le_rfl

/-- An epoch is for one process and one source. -/
theorem InEpoch.same {j n : ℕ} (h : InEpoch ι j n) :
    (ι n).pid = (ι j).pid ∧ (ι n).source = (ι j).source := by
  refine h.induction (P := fun n => (ι n).pid = (ι j).pid ∧ (ι n).source = (ι j).source)
    ⟨rfl, rfl⟩ fun m hj hm ih => ?_
  have hc := hm.continues m hj m.lt_succ_self
  exact ⟨hc.pid.trans ih.1, hc.source.trans ih.2⟩

/-- A valid call is in an epoch. -/
theorem exists_inEpoch {n : ℕ} (h : (ι n).Valid) : ∃ j, InEpoch ι j n := by
  induction n with
  | zero => exact ⟨0, .self ⟨h, fun m hm => absurd hm.symm (Nat.succ_ne_zero m)⟩⟩
  | succ n ih =>
    by_cases hc : (ι n).Valid ∧ (ι (n + 1)).Continues (ι n)
    · obtain ⟨j, hj⟩ := ih hc.1
      refine ⟨j, hj.starts, Nat.le_succ_of_le hj.le, fun k h₁ h₂ => ?_, fun k h₁ h₂ => ?_⟩
      · rcases Nat.lt_succ_iff_lt_or_eq.1 (Nat.lt_succ_of_le h₂) with hk | rfl
        · exact hj.valid k h₁ (Nat.le_of_lt_succ hk)
        · exact h
      · rcases Nat.lt_succ_iff_lt_or_eq.1 h₂ with hk | rfl
        · exact hj.continues k h₁ hk
        · exact hc.2
    · refine ⟨n + 1, .self ⟨h, fun m hm hv hcont => hc ?_⟩⟩
      obtain rfl := Nat.succ.inj hm
      exact ⟨hv, hcont⟩

/-- Within an epoch, the timestamps are at most the latest, and as many as the
    stamped measurements. -/
theorem InEpoch.timestamps {j n : ℕ} (h : InEpoch ι j n) :
    (∀ t ∈ timestamps ι j n, t ≤ (ι n).nowUs) ∧ (timestamps ι j n).card =
    (stamped ι j n).length := by
  refine h.induction (P := fun n => (∀ t ∈ CommonFps.timestamps ι j n, t ≤ (ι n).nowUs) ∧
    (CommonFps.timestamps ι j n).card = (stamped ι j n).length) ?_ fun m hj hm ih => ?_
  · simp [CommonFps.timestamps, stamped_self]
  · obtain ⟨hle, hcard⟩ := ih
    have hcont := hm.continues m hj (Nat.lt_succ_self m)
    rw [timestamps_succ hj, stamped_succ hj]
    refine ⟨fun t ht => ?_, ?_⟩
    · rcases Finset.mem_insert.1 ht with rfl | ht
      · exact le_rfl
      · exact (hle t ht).trans hcont.le
    · split_ifs with ht
      · rw [Finset.insert_eq_of_mem, hcard]
        exact Finset.mem_image.2 ⟨m, Finset.mem_Icc.2 ⟨hj, le_rfl⟩, ht.symm⟩
      · have hnew : (ι (m + 1)).nowUs ∉ CommonFps.timestamps ι j m := fun hmem =>
          ht (le_antisymm (hle _ hmem) hcont.le)
        rw [Finset.card_insert_of_notMem hnew, hcard, List.length_cons]

/-- An epoch settles with its three stamped measurements, after 5 s. -/
theorem InEpoch.settled_iff {j n : ℕ} (h : InEpoch ι j n) : Settled ι j n ↔
    ¬((ι n).nowUs - (ι j).nowUs < kStartupUs ∨ min 3 (stamped ι j n).length < 3) := by
  rw [Settled, h.timestamps.2, not_or, kStartupUs]
  omega

/-- A settled epoch stays settled. -/
theorem Settled.succ {j n : ℕ} (h : Settled ι j n) (hj : j ≤ n) (hc : (ι (n + 1)).Continues (ι n)) :
    Settled ι j (n + 1) := by
  refine ⟨?_, h.2.trans ?_⟩
  · have := h.1
    have := hc.le
    omega
  · rw [timestamps_succ hj]
    exact Finset.card_le_card (Finset.subset_insert _ _)

/-- A repeated timestamp does not settle an epoch. -/
theorem settled_succ_of_repeat {j n : ℕ} (hj : j ≤ n) (ht : (ι (n + 1)).nowUs = (ι n).nowUs) :
    Settled ι j (n + 1) ↔ Settled ι j n := by
  have hmem : (ι n).nowUs ∈ timestamps ι j n :=
    Finset.mem_image.2 ⟨n, Finset.mem_Icc.2 ⟨hj, le_rfl⟩, rfl⟩
  rw [Settled, Settled, timestamps_succ hj, ht, Finset.insert_eq_of_mem hmem]

/-- What a measurement shows, in an epoch that showed nothing before it. -/
theorem InEpoch.record {j n : ℕ} (h : InEpoch ι j n) {s : FpsDisplayFilter} {xs : List ℤ}
    (hd : s.displayed = none) (hs : s.startedUs = (ι j).nowUs)
    (hr : Ring s.recent s.recentCursor s.recentCount xs) (hxs : stamped ι j n = (ι n).value :: xs) :
    let s' := s.record (ι n).value (ι n).nowUs
    (s'.displayed ≠ none ↔ Settled ι j n) ∧
      (s'.displayed = none → Ring s'.recent s'.recentCursor s'.recentCount (stamped ι j n)) ∧
      (Settled ι j n → s'.displayed = some (median ((stamped ι j n).take 3))) := by
  have hpush := hr.push (ι n).value
  rw [← hxs] at hpush
  have hiff := h.settled_iff
  rw [← hpush.count, ← hs] at hiff
  rw [FpsDisplayFilter.record, if_pos hd, settle]
  by_cases hc : (ι n).nowUs - (s.setPrevious (ι n).nowUs).startedUs < kStartupUs ∨
      ((s.setPrevious (ι n).nowUs).pushRecent (ι n).value).recentCount < 3
  · have hnot : ¬Settled ι j n := fun hset => hiff.1 hset hc
    rw [if_pos hc]
    exact ⟨⟨fun hne => absurd hd hne, fun hset => absurd hset hnot⟩, fun _ => hpush,
      fun hset => absurd hset hnot⟩
  · have hmedian := (hpush.median_eq (not_or.1 hc).2).2
    rw [if_neg hc]
    exact ⟨⟨fun _ => hiff.2 hc, fun _ => Option.some_ne_none _⟩,
      fun hn => (Option.some_ne_none _ hn).elim, fun _ => congrArg some hmedian⟩

/-- A call that cannot continue the epoch of the call before starts one, in a
    filter that holds that epoch; one that can does not. -/
theorem EpochState.starts_iff {j n : ℕ} {s : FpsDisplayFilter} {c : FilterCall}
    (h : EpochState ι j n s) : s.Starts c ↔ ¬c.Continues (ι n) := by
  rw [Starts, h.pid, h.source, h.previous, h.haveEpoch]
  refine ⟨?_, fun hc => ?_⟩
  · rintro (h | h | h | h | h) hc
    · exact Bool.noConfusion h
    · exact h hc.pid
    · exact h hc.source
    · exact not_le.2 h hc.le
    · exact not_le.2 h hc.gap
  · by_contra hs
    push Not at hs
    exact hc ⟨hs.2.1, hs.2.2.1, hs.2.2.2.1, hs.2.2.2.2⟩

/-- The first call of an epoch. -/
theorem EpochState.first {j : ℕ} (h : StartsEpoch ι j) :
    EpochState ι j j ((start (ι j).pid (ι j).source (ι j).nowUs).record (ι j).value (ι j).nowUs) := by
  obtain ⟨he, hp, hsrc, hst, hprev⟩ :=
    record_frame (start (ι j).pid (ι j).source (ι j).nowUs) (ι j).value (ι j).nowUs
  obtain ⟨hset, hring, _⟩ :=
    (InEpoch.self h).record (s := start (ι j).pid (ι j).source (ι j).nowUs) rfl rfl
    (.nil _ _) (stamped_self j)
  exact ⟨he, hp, hsrc, hst, hprev, hset, hring,
    (stores_start _ _ _).record ⟨j, le_rfl, le_rfl, h.1.measured⟩ _⟩

/-- A later call of an epoch. -/
theorem EpochState.succ {j n : ℕ} {s : FpsDisplayFilter} (h : EpochState ι j n s) (hj : j ≤ n)
    (hin : InEpoch ι j (n + 1)) : EpochState ι j (n + 1) (s.sample (ι (n + 1))).1 := by
  have hv := hin.valid (n + 1) (Nat.le_succ_of_le hj) le_rfl
  have hc := hin.continues n hj (Nat.lt_succ_self n)
  have hns : ¬s.Starts (ι (n + 1)) := fun hs => h.starts_iff.1 hs hc
  have hstores := h.stores.mono (Q := fun v => ∃ k, j ≤ k ∧ k ≤ n + 1 ∧ (ι k).measured = some v)
    fun v ⟨k, h₁, h₂, hk⟩ => ⟨k, h₁, Nat.le_succ_of_le h₂, hk⟩
  by_cases ht : (ι (n + 1)).nowUs = (ι n).nowUs
  · rw [(sample_of_valid hv).2.1 hns (ht.trans h.previous.symm)]
    refine ⟨h.haveEpoch, h.pid.trans hc.pid.symm, h.source.trans hc.source.symm, h.started,
      h.previous.trans ht.symm, h.settled.trans (settled_succ_of_repeat hj ht).symm, fun hd => ?_, hstores⟩
    rw [stamped_succ hj, if_pos ht]
    exact h.recent hd
  · rw [(sample_of_valid hv).2.2 hns fun he => ht (he.trans h.previous)]
    obtain ⟨he, hp, hsrc, hst, hprev⟩ := record_frame s (ι (n + 1)).value (ι (n + 1)).nowUs
    have hmeasured := hstores.record ⟨n + 1, Nat.le_succ_of_le hj, le_rfl, hv.measured⟩ (ι (n + 1)).nowUs
    have hxs := stamped_succ (ι := ι) hj
    rw [if_neg ht] at hxs
    by_cases hd : s.displayed = none
    · obtain ⟨hset, hring, _⟩ := hin.record hd h.started (h.recent hd) hxs
      exact ⟨he.trans h.haveEpoch, hp.trans (h.pid.trans hc.pid.symm),
        hsrc.trans (h.source.trans hc.source.symm), hst.trans h.started, hprev, hset, hring, hmeasured⟩
    · have hd' := record_displayed hd (ι (n + 1)).value (ι (n + 1)).nowUs
      exact ⟨he.trans h.haveEpoch, hp.trans (h.pid.trans hc.pid.symm),
        hsrc.trans (h.source.trans hc.source.symm), hst.trans h.started, hprev,
        ⟨fun _ => (h.settled.1 hd).succ hj hc, fun _ => hd'⟩, fun hn => absurd hn hd', hmeasured⟩

/-- What the filter holds after a call, in any run. -/
theorem epoch_spec (n : ℕ) : (¬(ι n).Valid → displayFilter.state ι (n + 1) = {}) ∧
    ∀ j, InEpoch ι j n → EpochState ι j n (displayFilter.state ι (n + 1)) := by
  have hstate : ∀ n, displayFilter.state ι (n + 1) = ((displayFilter.state ι n).sample (ι n)).1 :=
    fun _ => rfl
  induction n with
  | zero =>
    refine ⟨fun hv => by rw [hstate, sample_of_not_valid hv], fun j hj => ?_⟩
    obtain rfl : j = 0 := Nat.le_zero.1 hj.le
    rw [hstate, (sample_of_valid hj.starts.1).1 (.inl rfl)]
    exact .first hj.starts
  | succ n ih =>
    refine ⟨fun hv => by rw [hstate, sample_of_not_valid hv], fun j hj => ?_⟩
    rw [hstate]
    rcases Nat.lt_or_eq_of_le hj.le with hlt | rfl
    · have hle := Nat.le_of_lt_succ hlt
      exact (ih.2 j (hj.mono hle (Nat.le_succ n))).succ hle hj
    · -- The filter holds the epoch of the call before, or none if that call was invalid.
      have hs : (displayFilter.state ι (n + 1)).Starts (ι (n + 1)) := by
        by_cases hv : (ι n).Valid
        · obtain ⟨i, hi⟩ := exists_inEpoch hv
          exact (ih.2 i hi).starts_iff.2 (hj.starts.2 n rfl hv)
        · rw [ih.1 hv]
          exact .inl rfl
      rw [(sample_of_valid hj.starts.1).1 hs]
      exact .first hj.starts

/-- A call returns what the filter shows after it. -/
theorem display_output (n : ℕ) :
    displayFilter.output ι n = (displayFilter.state ι (n + 1)).displayed := sample_snd _ _

/-- A call that starts an epoch acts as on a fresh filter. -/
theorem StartsEpoch.restart {n : ℕ} (h : StartsEpoch ι n) :
    displayFilter.step (displayFilter.state ι n) (ι n) = displayFilter.step displayFilter.init (ι n) := by
  refine sample_of_starts ?_
  cases n with
  | zero => exact .inl rfl
  | succ n =>
    by_cases hv : (ι n).Valid
    · obtain ⟨i, hi⟩ := exists_inEpoch hv
      exact ((epoch_spec n).2 i hi).starts_iff.2 (h.2 n rfl hv)
    · rw [(epoch_spec n).1 hv]
      exact .inl rfl

/-- A shown value was measured in the current epoch, which has settled. -/
theorem displayed_spec {n : ℕ} {v : ℤ} (h : displayFilter.output ι n = some v) :
    ∃ j, InEpoch ι j n ∧ Settled ι j n ∧ ∃ k, j ≤ k ∧ k ≤ n ∧ (ι k).measured = some v := by
  rw [display_output] at h
  by_cases hv : (ι n).Valid
  · obtain ⟨j, hj⟩ := exists_inEpoch hv
    have hs := (epoch_spec n).2 j hj
    exact ⟨j, hj, hs.settled.1 (by rw [h]; exact Option.some_ne_none v), hs.stores.displayed v h⟩
  · rw [(epoch_spec n).1 hv] at h
    exact (Option.some_ne_none v h.symm).elim

/-- Epochs are isolated from what came before them, and settled before they show
    anything, in any run of the filter. -/
theorem display_isolated (ι : ℕ → FilterCall) :
    -- From the start of an epoch on, the outputs are those of a fresh filter.
    (∀ n, StartsEpoch ι n → ∀ k,
      displayFilter.output ι (n + k) = displayFilter.output (fun i => ι (n + i)) k) ∧
    -- A value is one of the measurements of the current epoch.
    (∀ n v, displayFilter.output ι n = some v → 0 ≤ v ∧ v ≤ 120 ∧
      ∃ j, InEpoch ι j n ∧ ∃ k, j ≤ k ∧ k ≤ n ∧ (ι k).measured = some v) ∧
    -- An epoch shows a value once it has settled, at first the median of the
    -- latest three stamped measurements.
    (∀ j n, InEpoch ι j n → (displayFilter.output ι n ≠ none ↔ Settled ι j n)) ∧
    (∀ j n, j ≤ n → InEpoch ι j (n + 1) → ¬Settled ι j n → Settled ι j (n + 1) →
      displayFilter.output ι (n + 1) = some (median ((stamped ι j (n + 1)).take 3))) ∧
    -- A valid call that repeats the timestamp of a valid one changes nothing.
    (∀ n, (ι n).Valid → (ι (n + 1)).Valid → (ι (n + 1)).nowUs = (ι n).nowUs →
      (ι (n + 1)).pid = (ι n).pid → (ι (n + 1)).source = (ι n).source →
      displayFilter.state ι (n + 2) = displayFilter.state ι (n + 1) ∧
        displayFilter.output ι (n + 1) = displayFilter.output ι n) := by
  refine ⟨fun n h k => Driven.output_of_restart h.restart k, fun n v h => ?_, fun j n h => ?_,
    fun j n hj h hnot hset => ?_, fun n hv hv' ht hp hs => ?_⟩
  · obtain ⟨j, hj, _, k, hjk, hkn, hm⟩ := displayed_spec h
    have hk := hj.valid k hjk hkn
    have hval : v = (ι k).value := Option.some.inj (hm.symm.trans hk.measured)
    exact ⟨hval ▸ hk.nonneg, hval ▸ hk.le, j, hj, k, hjk, hkn, hm⟩
  · rw [display_output]
    exact ((epoch_spec n).2 j h).settled
  · have hs := (epoch_spec n).2 j (h.mono hj (Nat.le_succ n))
    have hv := h.valid (n + 1) h.le le_rfl
    have ht : (ι (n + 1)).nowUs ≠ (ι n).nowUs := fun ht => hnot ((settled_succ_of_repeat hj ht).1 hset)
    have hd : (displayFilter.state ι (n + 1)).displayed = none := not_not.1 fun hd => hnot (hs.settled.1 hd)
    have hxs := stamped_succ (ι := ι) hj
    rw [if_neg ht] at hxs
    have hns : ¬(displayFilter.state ι (n + 1)).Starts (ι (n + 1)) := fun hst =>
      hs.starts_iff.1 hst (h.continues n hj (Nat.lt_succ_self n))
    have hrec := (sample_of_valid hv).2.2 hns fun he => ht (he.trans hs.previous)
    rw [display_output, Driven.state_succ]
    exact (congrArg FpsDisplayFilter.displayed hrec).trans
      ((h.record hd hs.started (hs.recent hd) hxs).2.2 hset)
  · obtain ⟨j, hj⟩ := exists_inEpoch hv
    have hst := (epoch_spec n).2 j hj
    have hns : ¬(displayFilter.state ι (n + 1)).Starts (ι (n + 1)) := fun h =>
      hst.starts_iff.1 h ⟨hp, hs, ht.ge, by omega⟩
    have hsame : displayFilter.state ι (n + 2) = displayFilter.state ι (n + 1) :=
      (sample_of_valid hv').2.1 hns (ht.trans hst.previous.symm)
    exact ⟨hsame, by rw [display_output, display_output, hsame]⟩

/-- After an invalid call, a valid one with the same timestamp, process and
    source starts an epoch. -/
theorem repeat_after_invalid_changes : ∃ ι : ℕ → FilterCall, (ι 1).Valid ∧ (ι 1).nowUs =
    (ι 0).nowUs ∧
    (ι 1).pid = (ι 0).pid ∧ (ι 1).source = (ι 0).source ∧
    displayFilter.state ι 2 ≠ displayFilter.state ι 1 := by
  refine ⟨fun n => ⟨if n = 0 then none else some 60, 7, 1, .videoOut⟩, ?_, rfl, rfl, rfl, by decide⟩
  exact ⟨by decide, by decide, by decide, by decide, by decide⟩

end Epochs

end CommonFps
