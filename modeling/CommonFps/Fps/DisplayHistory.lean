import CommonFps.Fps.DisplayFilter

/-!
# What the display filter shows

Within an epoch, after its first value, the filter keeps two rings of three slots
with cursors and a count. Here it is compared with the histories these stand for
(`History`): all values that were accepted, and the current rise, the samples
since then that were too high to be accepted.

* `History.sample`: a sample that is not above the threshold is accepted; a rise
  of three samples, the first of which came 2 s before, is confirmed by its median;
* `Presents`: the rings hold the latest values of a history, whatever is left in
  their other slots;
* `InEpoch.presents`: the filter presents the history of its epoch, in any run;
* `display_confirms`: so dips and recoveries are shown at once, short bursts are
  not shown, and lasting rises are.
-/

namespace CommonFps

/-- What was shown and accepted in an epoch. -/
structure History where
  /-- The value that is shown. -/
  shown : ℤ
  /-- The accepted values, the latest first. -/
  accepted : List ℤ
  /-- The samples above the threshold since the latest accepted value, the latest
      first. -/
  rise : List FilterCall

namespace History

/-- The largest of the last three accepted values, which are not negative. -/
def reference (h : History) : ℤ := (h.accepted.take 3).foldr max 0

/-- The largest value that is accepted at once. -/
def threshold (h : History) : ℤ := h.reference + max 8 (h.reference / 5)

/-- A value that is the last three accepted ones. -/
def showing (v : ℤ) : History := ⟨v, [v, v, v], []⟩

/-- The samples, the latest first, are a lasting rise at the time `nowUs`: at least
    three, the first of which came at least 2 s before. -/
def Lasts (samples : List FilterCall) (nowUs : ℕ) : Prop :=
  3 ≤ samples.length ∧ ∀ c ∈ samples.getLast?, c.nowUs + 2000000 ≤ nowUs

instance (samples : List FilterCall) (nowUs : ℕ) : Decidable (Lasts samples nowUs) := by
  rw [Lasts]
  infer_instance

/-- The median of the last three samples of a rise. -/
def riseMedian (samples : List FilterCall) : ℤ := median ((samples.map FilterCall.value).take 3)

/-- A sample with a new timestamp. -/
def sample (h : History) (c : FilterCall) : History :=
  if c.value ≤ h.threshold then ⟨c.value, c.value :: h.accepted, []⟩
  else if Lasts (c :: h.rise) c.nowUs then showing (riseMedian (c :: h.rise))
  else { h with rise := c :: h.rise }

end History

namespace FpsDisplayFilter

open History

variable {s : FpsDisplayFilter} {h : History}

/-- The filter presents a history. -/
structure Presents (h : History) (s : FpsDisplayFilter) : Prop where
  displayed : s.displayed = some h.shown
  accepted : Window.Holds s.accepted s.acceptedCursor h.accepted
  length : 3 ≤ h.accepted.length
  nonneg : ∀ v ∈ h.accepted, 0 ≤ v
  elevated : Ring s.elevated s.elevatedCursor s.elevatedCount (h.rise.map FilterCall.value)
  since : ∀ c ∈ h.rise.getLast?, s.elevatedSinceUs = c.nowUs
  rise : ∀ c ∈ h.rise, 0 ≤ c.value

/-- The largest of three slots is that of the last three values. -/
theorem max_slots (hs : Presents h s) : max (max (s.accepted 0) (s.accepted 1)) (s.accepted 2) =
    h.reference := by
  have hperm : (List.ofFn s.accepted).Perm (h.accepted.take 3) := hs.accepted.perm hs.length
  have hlist : List.ofFn s.accepted = [s.accepted 0, s.accepted 1, s.accepted 2] := rfl
  have hmem : s.accepted 2 ∈ List.ofFn s.accepted := List.mem_ofFn.2 ⟨2, rfl⟩
  have hpos : 0 ≤ s.accepted 2 := hs.nonneg _ (List.mem_of_mem_take (hperm.mem_iff.1 hmem))
  rw [History.reference, ← hperm.foldr_eq, hlist]
  simp only [List.foldr_cons, List.foldr_nil, max_eq_left hpos, max_assoc]

theorem reference_nonneg (h : History) : 0 ≤ h.reference := by
  rw [reference]
  cases h.accepted.take 3 with
  | nil => exact le_rfl
  | cons v l =>
    induction l generalizing v with
    | nil => exact le_max_right v 0
    | cons w l ih => exact (ih w).trans (le_max_right _ _)

theorem threshold_eq (hs : Presents h s) : s.upwardThreshold = h.threshold := by
  rw [upwardThreshold, threshold, max_slots hs, Int.tdiv_eq_ediv_of_nonneg (reference_nonneg h)]

theorem Presents.setPrevious (hs : Presents h s) (nowUs : ℕ) : Presents h (s.setPrevious nowUs) :=
  ⟨hs.displayed, hs.accepted, hs.length, hs.nonneg, hs.elevated, hs.since, hs.rise⟩

/-- The median of a rise is one of its samples. -/
theorem riseMedian_mem {samples : List FilterCall} (hlen : 3 ≤ samples.length) :
    ∃ c ∈ samples, riseMedian samples = c.value := by
  have hne : (samples.map FilterCall.value).take 3 ≠ [] := by
    intro hnil
    have := congrArg List.length hnil
    rw [List.length_take, List.length_map, List.length_nil] at this
    omega
  obtain ⟨c, hc, hv⟩ := List.mem_map.1 (List.mem_of_mem_take (median_mem hne))
  exact ⟨c, hc, hv.symm⟩

/-- A filled ring presents a value shown. -/
theorem presents_showing {v : ℤ} (hv : 0 ≤ v) (hd : s.displayed = some v) (ha : s.accepted = fun _ => v)
    (hc : s.elevatedCount = 0) : Presents (showing v) s := by
  refine ⟨hd, ?_, le_rfl, fun w hw => ?_, ?_, fun c hc => (Option.some_ne_none c hc.symm).elim,
    fun _ hc => absurd hc List.not_mem_nil⟩
  · rw [ha]
    exact Window.holds_replicate v s.acceptedCursor 3
  · simp only [showing, List.mem_cons, List.not_mem_nil, or_false, or_self] at hw
    exact hw ▸ hv
  · rw [hc]
    exact .nil _ _

/-- An accepted sample. -/
theorem Presents.accept (hs : Presents h s) {v : ℤ} (hv : 0 ≤ v) :
    Presents ⟨v, v :: h.accepted, []⟩ (s.accept v).clearElevated :=
  ⟨rfl, hs.accepted.push v, hs.length.trans (Nat.le_succ _), List.forall_mem_cons.2 ⟨hv, hs.nonneg⟩,
    .nil _ _, fun c hc => (Option.some_ne_none c hc.symm).elim, fun _ hc => absurd hc List.not_mem_nil⟩

/-- A sample that is too high. -/
theorem Presents.pushElevated (hs : Presents h s) {c : FilterCall} (hc : 0 ≤ c.value) :
    Presents { h with rise := c :: h.rise } (s.pushElevated c.value c.nowUs) := by
  refine ⟨hs.displayed, hs.accepted, hs.length, hs.nonneg, hs.elevated.push c.value, fun d hd => ?_,
    List.forall_mem_cons.2 ⟨hc, hs.rise⟩⟩
  show (if s.elevatedCount = 0 then c.nowUs else s.elevatedSinceUs) = d.nowUs
  have hcount := hs.elevated.count
  rw [List.length_map] at hcount
  cases hr : h.rise with
  | nil =>
    have hcount : s.elevatedCount = 0 := by rw [hcount, hr]; rfl
    rw [hr] at hd
    rw [if_pos hcount]
    exact congrArg FilterCall.nowUs (Option.some.inj hd)
  | cons e l =>
    rw [hr] at hcount
    rw [if_neg (by rw [hcount, List.length_cons]; omega)]
    refine hs.since d ?_
    rw [hr] at hd ⊢
    rwa [List.getLast?_cons_cons] at hd

/-- A confirmed rise. -/
theorem Presents.lasts (hs : Presents h s) {c : FilterCall} (hc : 0 ≤ c.value) :
    Lasts (c :: h.rise) c.nowUs ↔ ¬((s.pushElevated c.value c.nowUs).elevatedCount < 3 ∨
      c.nowUs - (s.pushElevated c.value c.nowUs).elevatedSinceUs < kRiseUs) := by
  have hpush := hs.pushElevated hc
  have hcount := hpush.elevated.count
  rw [List.length_map] at hcount
  obtain ⟨d, hd⟩ : ∃ d, (c :: h.rise).getLast? = some d :=
    ⟨_, List.getLast?_eq_some_getLast (List.cons_ne_nil _ _)⟩
  have hsince := hpush.since d hd
  rw [Lasts, hd, hcount, hsince, kRiseUs]
  simp only [Option.mem_some_iff, forall_eq']
  have hlen : min 3 ({ h with rise := c :: h.rise } : History).rise.length < 3 ↔
      ¬3 ≤ (c :: h.rise).length := by
    show min 3 (c :: h.rise).length < 3 ↔ _
    omega
  rw [hlen]
  omega

/-- A sample, while something is shown. -/
theorem Presents.follow (hs : Presents h s) {c : FilterCall} (hc : 0 ≤ c.value) :
    Presents (h.sample c) (s.follow c.value c.nowUs) := by
  rw [FpsDisplayFilter.follow, History.sample, threshold_eq hs]
  by_cases hle : c.value ≤ h.threshold
  · rw [if_pos hle, if_neg (not_lt.2 hle)]
    exact hs.accept hc
  · rw [if_neg hle, if_pos (not_le.1 hle)]
    have hpush := hs.pushElevated hc
    by_cases hlasts : Lasts (c :: h.rise) c.nowUs
    · rw [if_pos hlasts]
      dsimp only
      rw [if_neg ((hs.lasts hc).1 hlasts)]
      have hcount := (not_or.1 ((hs.lasts hc).1 hlasts)).1
      have hmedian := (hpush.elevated.median_eq hcount).2
      obtain ⟨d, hd, hv⟩ := riseMedian_mem hlasts.1
      exact presents_showing (hv ▸ hpush.rise d hd) (congrArg some hmedian) (funext fun _ => hmedian) rfl
    · rw [if_neg hlasts]
      dsimp only
      rw [if_pos (not_not.1 fun h => hlasts ((hs.lasts hc).2 h))]
      exact hpush

/-- The first value that is shown. -/
theorem presents_settle (hd : s.displayed = none) (hc : s.elevatedCount = 0) {value v : ℤ} {nowUs : ℕ}
    (hv : 0 ≤ v) (hshown : (s.record value nowUs).displayed = some v) :
    Presents (showing v) (s.record value nowUs) := by
  rw [record, if_pos hd, settle] at hshown ⊢
  split_ifs at hshown ⊢
  · exact absurd (hd.symm.trans hshown) (Option.some_ne_none v).symm
  · have hmedian := Option.some.inj hshown
    exact presents_showing hv hshown (funext fun _ => hmedian) hc

/-- No rise is counted before anything is shown. -/
theorem record_elevatedCount (hd : s.displayed = none → s.elevatedCount = 0) (value : ℤ) (nowUs : ℕ)
    (h : (s.record value nowUs).displayed = none) : (s.record value nowUs).elevatedCount = 0 := by
  by_cases hn : s.displayed = none
  · rw [record, if_pos hn, settle] at h ⊢
    split_ifs at h ⊢
    · exact hd hn
    · exact hd hn
  · exact absurd h (record_displayed hn value nowUs)

end FpsDisplayFilter

/-! ## Runs -/

section Runs

open FpsDisplayFilter History

variable (ι : ℕ → FilterCall)

/-- The epoch that the call `j` starts shows its first value at the call `n₀`. -/
structure FirstShown (j n₀ : ℕ) (v : ℤ) : Prop where
  epoch : InEpoch ι j n₀
  shown : displayFilter.output ι n₀ = some v
  before : ∀ k, j ≤ k → k < n₀ → displayFilter.output ι k = none

/-- The calls after the call `n`, up to the call `m`, that have a new timestamp. -/
def freshCalls (n m : ℕ) : List FilterCall :=
  ((List.range' (n + 1) (m - n)).filter fun k => (ι k).nowUs ≠ (ι (k - 1)).nowUs).map ι

/-- The history up to the call `n` of an epoch whose first value `v` was shown at
    the call `n₀`. -/
def history (v : ℤ) (n₀ n : ℕ) : History := (freshCalls ι n₀ n).foldl History.sample (showing v)

variable {ι}

theorem freshCalls_self (n : ℕ) : freshCalls ι n n = [] := by
  rw [freshCalls, Nat.sub_self]
  rfl

theorem freshCalls_succ {n m : ℕ} (h : n ≤ m) : freshCalls ι n (m + 1) =
    if (ι (m + 1)).nowUs = (ι m).nowUs then freshCalls ι n m else freshCalls ι n m ++ [ι (m + 1)] := by
  have hlen : m + 1 - n = m - n + 1 := by omega
  have hlast : n + 1 + (m - n) = m + 1 := by omega
  rw [freshCalls, freshCalls, hlen, List.range'_1_concat, hlast, List.filter_append, List.map_append]
  split_ifs with ht
  · simp [ht]
  · simp [ht]

theorem history_succ {v : ℤ} {n₀ n : ℕ} (h : n₀ ≤ n) : history ι v n₀ (n + 1) =
    if (ι (n + 1)).nowUs = (ι n).nowUs then history ι v n₀ n
    else (history ι v n₀ n).sample (ι (n + 1)) := by
  rw [history, freshCalls_succ h]
  split_ifs with ht
  · rfl
  · rw [List.foldl_append, List.foldl_cons, List.foldl_nil]
    rfl

theorem elevatedCount_of_none : ∀ n, (displayFilter.state ι n).displayed = none →
    (displayFilter.state ι n).elevatedCount = 0 := by
  refine Driven.invariant (P := fun _ (s : FpsDisplayFilter) => s.displayed = none → s.elevatedCount =
    0) (fun _ => rfl) fun n ih hd => ?_
  have hstep : displayFilter.step (displayFilter.state ι n) (ι n) =
    (displayFilter.state ι n).sample (ι n) := rfl
  rw [hstep] at hd ⊢
  by_cases hv : (ι n).Valid
  · obtain ⟨hstarts, hsame, hnew⟩ := sample_of_valid (s := displayFilter.state ι n) hv
    by_cases hs : (displayFilter.state ι n).Starts (ι n)
    · rw [hstarts hs] at hd ⊢
      exact record_elevatedCount (fun _ => rfl) _ _ hd
    · by_cases ht : (ι n).nowUs = (displayFilter.state ι n).previousUs
      · rw [hsame hs ht] at hd ⊢
        exact ih hd
      · rw [hnew hs ht] at hd ⊢
        exact record_elevatedCount ih _ _ hd
  · rw [sample_of_not_valid hv]

/-- The call of an epoch after the call `n`: it repeats a timestamp, or records a
    measurement. -/
theorem InEpoch.state_succ {j n : ℕ} (h : InEpoch ι j (n + 1)) (hj : j ≤ n) :
    displayFilter.state ι (n + 1 + 1) = if (ι (n + 1)).nowUs =
      (ι n).nowUs then displayFilter.state ι (n + 1)
      else (displayFilter.state ι (n + 1)).record (ι (n + 1)).value (ι (n + 1)).nowUs := by
  have hs := (epoch_spec n).2 j (h.mono hj (Nat.le_succ n))
  have hns : ¬(displayFilter.state ι (n + 1)).Starts (ι (n + 1)) := fun hst =>
    hs.starts_iff.1 hst (h.continues n hj (Nat.lt_succ_self n))
  obtain ⟨_, hsame, hnew⟩ := sample_of_valid (s := displayFilter.state ι (n + 1))
    (h.valid (n + 1) h.le le_rfl)
  rw [hs.previous] at hsame hnew
  rw [Driven.state_succ]
  split_ifs with ht
  · exact hsame hns ht
  · exact hnew hns ht

/-- The filter presents its first value. -/
theorem FirstShown.presents {j n₀ : ℕ} {v : ℤ} (h : FirstShown ι j n₀ v) :
    Presents (showing v) (displayFilter.state ι (n₀ + 1)) := by
  have hv : 0 ≤ v := by
    obtain ⟨i, hi, _, k, hik, hkn, hk⟩ := displayed_spec h.shown
    have hvalid := hi.valid k hik hkn
    exact Option.some.inj (hvalid.measured.symm.trans hk) ▸ hvalid.nonneg
  have hshown := (display_output n₀).symm.trans h.shown
  rcases Nat.eq_or_lt_of_le h.epoch.le with rfl | hlt
  · have hfirst : displayFilter.state ι (j + 1) =
        (start (ι j).pid (ι j).source (ι j).nowUs).record (ι j).value (ι j).nowUs := by
      rw [Driven.state_succ, h.epoch.starts.restart]
      exact (sample_of_valid h.epoch.starts.1).1 (.inl rfl)
    rw [hfirst] at hshown ⊢
    exact presents_settle rfl rfl hv hshown
  · obtain ⟨n, rfl⟩ := Nat.exists_eq_succ_of_ne_zero (Nat.ne_of_gt (Nat.zero_lt_of_lt hlt))
    have hj : j ≤ n := Nat.le_of_lt_succ hlt
    have hnone := (display_output n).symm.trans (h.before n hj n.lt_succ_self)
    rw [Nat.succ_eq_add_one, h.epoch.state_succ hj] at hshown ⊢
    split_ifs at hshown ⊢
    · exact absurd (hnone.symm.trans hshown) (Option.some_ne_none v).symm
    · exact presents_settle hnone (elevatedCount_of_none _ hnone) hv hshown

/-- The filter presents the history of its epoch. -/
theorem FirstShown.presents_history {j n₀ : ℕ} {v : ℤ} (h : FirstShown ι j n₀ v) {n : ℕ}
    (hn : n₀ ≤ n)
    (hj : InEpoch ι j n) : Presents (history ι v n₀ n) (displayFilter.state ι (n + 1)) := by
  induction n, hn using Nat.le_induction with
  | base =>
    rw [history, freshCalls_self]
    exact h.presents
  | succ n hn ih =>
    have hjn : j ≤ n := h.epoch.le.trans hn
    have ih := ih (hj.mono hjn n.le_succ)
    rw [history_succ hn, hj.state_succ hjn]
    split_ifs with ht
    · exact ih
    · have hne : (displayFilter.state ι (n + 1)).displayed ≠ none := by
        rw [ih.displayed]
        exact Option.some_ne_none _
      rw [record, if_neg hne]
      exact (ih.setPrevious _).follow (hj.valid (n + 1) hj.le le_rfl).nonneg

theorem FirstShown.output {j n₀ : ℕ} {v : ℤ} (h : FirstShown ι j n₀ v) {n : ℕ} (hn : n₀ ≤ n)
    (hj : InEpoch ι j n) : displayFilter.output ι n = some (history ι v n₀ n).shown :=
  (display_output n).trans (h.presents_history hn hj).displayed

/-! ### Rises -/

theorem freshCalls_mono {n k m : ℕ} (hnk : n ≤ k) (hkm : k ≤ m) :
    ∃ l, freshCalls ι n m = freshCalls ι n k ++ l := by
  induction m, hkm using Nat.le_induction with
  | base => exact ⟨[], (List.append_nil _).symm⟩
  | succ m hkm ih =>
    obtain ⟨l, hl⟩ := ih
    rw [freshCalls_succ (hnk.trans hkm)]
    split_ifs with ht
    · exact ⟨l, hl⟩
    · exact ⟨l ++ [ι (m + 1)], by rw [hl, List.append_assoc]⟩

/-- Samples above the threshold, since one that was accepted: either a rise is
    confirmed at one of them, or all of them are still pending. -/
theorem FirstShown.rise_cases {j n₀ : ℕ} {v : ℤ} (h : FirstShown ι j n₀ v) {n m : ℕ}
    (hn : n₀ ≤ n)
    (hnm : n ≤ m) (hj : InEpoch ι j m) (hrise : (history ι v n₀ n).rise = [])
    (habove : ∀ c ∈ freshCalls ι n m, (history ι v n₀ n).threshold < c.value) :
    (∃ k, n < k ∧ k ≤ m ∧ Lasts (freshCalls ι n k).reverse (ι k).nowUs ∧
      displayFilter.output ι k = some (riseMedian (freshCalls ι n k).reverse)) ∨
    history ι v n₀ m = { history ι v n₀ n with rise := (freshCalls ι n m).reverse } ∧
      ∀ c ∈ (freshCalls ι n m).getLast?, ¬Lasts (freshCalls ι n m).reverse c.nowUs := by
  induction m, hnm using Nat.le_induction with
  | base =>
    rw [freshCalls_self]
    exact .inr ⟨by rw [List.reverse_nil, ← hrise], fun c hc => (Option.some_ne_none c hc.symm).elim⟩
  | succ m hnm ih =>
    have hjm : j ≤ m := (h.epoch.le.trans hn).trans hnm
    obtain ⟨l, hl⟩ := freshCalls_mono (ι := ι) hnm m.le_succ
    have ih := ih (hj.mono hjm m.le_succ) fun c hc => habove c (hl ▸ List.mem_append_left l hc)
    rcases ih with ⟨k, hnk, hkm, hlasts⟩ | ⟨hpending, hnot⟩
    · exact .inl ⟨k, hnk, Nat.le_succ_of_le hkm, hlasts⟩
    have hhistory := history_succ (ι := ι) (v := v) (hn.trans hnm)
    have hfresh := freshCalls_succ (ι := ι) hnm
    split_ifs at hhistory hfresh with ht
    · rw [hhistory, hfresh]
      exact .inr ⟨hpending, hnot⟩
    -- A new call, which is above the threshold, goes on with the rise.
    have hnew : (freshCalls ι n (m + 1)).reverse = ι (m + 1) :: (freshCalls ι n m).reverse := by
      rw [hfresh, List.reverse_append]
      rfl
    have hhigh := habove (ι (m + 1)) (hfresh ▸ List.mem_append_right _ List.mem_cons_self)
    have hnle : ¬(ι (m + 1)).value ≤ ({ history ι v n₀ n with
        rise := (freshCalls ι n m).reverse } : History).threshold := not_le.2 hhigh
    rw [hpending, History.sample, if_neg hnle, ← hnew] at hhistory
    by_cases hlasts : Lasts (freshCalls ι n (m + 1)).reverse (ι (m + 1)).nowUs
    · rw [if_pos hlasts] at hhistory
      refine .inl ⟨m + 1, Nat.lt_succ_of_le hnm, le_rfl, hlasts, ?_⟩
      rw [h.output (hn.trans (Nat.le_succ_of_le hnm)) hj, hhistory]
      rfl
    · rw [if_neg hlasts] at hhistory
      refine .inr ⟨hhistory, fun c hc => ?_⟩
      rw [hfresh, List.getLast?_append] at hc
      obtain rfl : ι (m + 1) = c := Option.some.inj hc
      exact hlasts

/-- Within an epoch, after its first value `v`, dips and recoveries are shown at
    once and rises are confirmed. -/
theorem display_confirms {ι : ℕ → FilterCall} {j n₀ : ℕ} {v : ℤ} (h : FirstShown ι j n₀ v) :
    -- The filter shows what the history of its epoch does.
    (∀ n, n₀ ≤ n → InEpoch ι j n → displayFilter.output ι n = some (history ι v n₀ n).shown) ∧
    -- A sample up to the threshold is shown at once. A higher one is not, unless it
    -- confirms a rise that lasts, of which the median is shown.
    (∀ n, n₀ ≤ n → InEpoch ι j (n + 1) → (ι n).nowUs < (ι (n + 1)).nowUs →
      let past := history ι v n₀ n
      let c := ι (n + 1)
      (c.value ≤ past.threshold → displayFilter.output ι (n + 1) = some c.value) ∧
      (past.threshold < c.value → ¬Lasts (c :: past.rise) c.nowUs →
        displayFilter.output ι (n + 1) = displayFilter.output ι n) ∧
      (past.threshold < c.value → Lasts (c :: past.rise) c.nowUs →
        displayFilter.output ι (n + 1) = some (riseMedian (c :: past.rise)))) ∧
    -- One or two samples above the threshold in a row are not shown.
    (∀ n m, n₀ ≤ n → n ≤ m → InEpoch ι j m → (history ι v n₀ n).rise = [] →
      (∀ c ∈ freshCalls ι n m, (history ι v n₀ n).threshold < c.value) →
      (freshCalls ι n m).length ≤ 2 → displayFilter.output ι m = displayFilter.output ι n) ∧
    -- Three or more are, if they last 2 s.
    (∀ n m, n₀ ≤ n → n ≤ m → InEpoch ι j m → (history ι v n₀ n).rise = [] →
      (∀ c ∈ freshCalls ι n m, (history ι v n₀ n).threshold < c.value) →
      3 ≤ (freshCalls ι n m).length →
      (∀ c ∈ (freshCalls ι n m).head?, ∀ d ∈ (freshCalls ι n m).getLast?,
        c.nowUs + 2000000 ≤ d.nowUs) →
      ∃ k w, n < k ∧ k ≤ m ∧ displayFilter.output ι k = some w ∧
        (history ι v n₀ n).threshold < w) := by
  refine ⟨fun n => h.output, fun n hn hj ht => ?_, fun n m hn hnm hj hrise habove hlen => ?_,
    fun n m hn hnm hj hrise habove hlen hlong => ?_⟩
  · have hjn : j ≤ n := h.epoch.le.trans hn
    have hold := h.output hn (hj.mono hjn n.le_succ)
    have hnew := h.output (Nat.le_succ_of_le hn) hj
    rw [history_succ hn, if_neg ht.ne', History.sample] at hnew
    refine ⟨fun hle => ?_, fun hlt hnot => ?_, fun hlt hlasts => ?_⟩
    · rw [if_pos hle] at hnew
      exact hnew
    · rw [if_neg (not_le.2 hlt), if_neg hnot] at hnew
      exact hnew.trans hold.symm
    · rw [if_neg (not_le.2 hlt), if_pos hlasts] at hnew
      exact hnew
  · have hjn : j ≤ n := h.epoch.le.trans hn
    rcases h.rise_cases hn hnm hj hrise habove with ⟨k, hnk, hkm, hlasts, _⟩ | ⟨hpending, _⟩
    · obtain ⟨l, hl⟩ := freshCalls_mono (ι := ι) hnk.le hkm
      have hthree := hlasts.1
      rw [List.length_reverse] at hthree
      rw [hl, List.length_append] at hlen
      omega
    · rw [h.output (hn.trans hnm) hj, h.output hn (hj.mono hjn hnm), hpending]
  · rcases h.rise_cases hn hnm hj hrise habove with ⟨k, hnk, hkm, hlasts, hout⟩ | ⟨_, hnot⟩
    · obtain ⟨l, hl⟩ := freshCalls_mono (ι := ι) hnk.le hkm
      obtain ⟨c, hc, hmedian⟩ := riseMedian_mem hlasts.1
      refine ⟨k, _, hnk, hkm, hout, ?_⟩
      rw [hmedian]
      exact habove c (hl ▸ List.mem_append_left l (List.mem_reverse.1 hc))
    · have hne : freshCalls ι n m ≠ [] := List.ne_nil_of_length_pos (Nat.lt_of_lt_of_le (by decide) hlen)
      have hd := List.getLast?_eq_some_getLast hne
      refine absurd ⟨by rwa [List.length_reverse], fun c hc => ?_⟩ (hnot _ hd)
      rw [List.getLast?_reverse] at hc
      exact hlong c hc _ hd

/-- A game at 60 frames per second, with a dip after 6 s. -/
def dipCalls (n : ℕ) : FilterCall := ⟨some (if n = 6 then 28 else 60), 1000000 * n, 99, .dceFixed⟩

theorem display_confirms_dip : displayFilter.output dipCalls 6 = some 28 := by
  have hvalid : ∀ n, (dipCalls n).Valid := by
    intro n
    have hvalue : (dipCalls n).value = if n = 6 then 28 else 60 := rfl
    have hpid : (0 : ℤ) < 99 := by decide
    refine ⟨hpid, nofun, rfl, ?_, ?_⟩
    all_goals
      rw [hvalue]
      split_ifs <;> decide
  have hcont : ∀ n, (dipCalls (n + 1)).Continues (dipCalls n) := by
    intro n
    refine ⟨rfl, rfl, ?_, ?_⟩
    all_goals
      simp only [dipCalls]
      omega
  have hepoch : ∀ n, InEpoch dipCalls 0 n := fun n =>
    ⟨⟨hvalid 0, fun m hm => absurd hm.symm (Nat.succ_ne_zero m)⟩, n.zero_le, fun k _ _ => hvalid k,
      fun k _ _ => hcont k⟩
  have hfirst : FirstShown dipCalls 0 5 60 := by
    refine ⟨hepoch 5, by decide +kernel, fun k _ hk => ?_⟩
    interval_cases k <;> decide +kernel
  exact ((display_confirms hfirst).2.1 5 le_rfl (hepoch 6) (by decide)).1 (by decide +kernel)

end Runs

end CommonFps
