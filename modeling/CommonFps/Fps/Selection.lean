import CommonFps.Fps.Discovery
import CommonFps.Fps.VideoOut

/-!
# Selection of the VideoOut counter

Of the candidates of the scan, the sampler takes the one that counts most like a
display (`resolve_counter_address`): it reads every counter twice more, 250 ms
apart, and compares how much they advanced.

* `selectCandidate`: the loop over the candidates, with a weighted score;
* `rank`: what the score stands for, in lexicographic order;
* `discovery_selects`: the scan path finds a counter if and only if one of the
  candidates is validated, which is then the one of the least rank, and what
  `attach` makes of it.
-/

namespace CommonFps

namespace FpsSampler

/-- The distance of two counters, in either order. -/
def unsignedDistance (left right : UInt32) : UInt32 :=
  if left > right then left - right else right - left

/-- The loop over the candidates: the best so far, and its score, after the
    candidate `i`, whose counter is read a second and a third time. -/
def selectStep (candidates : List Candidate) (second third : ℕ → Option UInt32)
    (selected : ℕ × UInt32) (i : ℕ) : ℕ × UInt32 :=
  match candidates[i]?, second i, third i with
  | some candidate, some second, some third =>
    let delta1 := second - candidate.first
    let delta2 := third - second
    if delta1 = 0 ∨ delta1 > 45 ∨ delta2 = 0 ∨ delta2 > 45 then selected
    else
      let jitter := unsignedDistance delta1 delta2
      if jitter > 4 then selected
      else
        let estimatedFps := (delta1 + delta2) * 2
        let rateDistance := min (unsignedDistance estimatedFps 30)
          (min (unsignedDistance estimatedFps 60) (unsignedDistance estimatedFps 120))
        let score := jitter * 1000 + rateDistance * 10
        if score < selected.2 then (i, score) else selected
  | _, _, _ => selected

/-- Of the candidates that are validated, the one of least cost. -/
def selectCandidate (candidates : List Candidate) (second third : ℕ → Option UInt32) :
    Option Candidate :=
  let selected := (List.range candidates.length).foldl (selectStep candidates second third)
    (candidates.length, 0xFFFFFFFF)
  if selected.1 = candidates.length then none else candidates[selected.1]?

/-- What follows the scan, for any candidates and any answers to the later reads, of
    which the third is asked for where the second was answered. -/
def validateCandidates (candidates : List Candidate) (second third : ℕ → Option UInt32) :
    Option UInt64 :=
  if candidates.length = 0 then none
  else (selectCandidate candidates second third).map Candidate.counter

/-- The answers of the platform during `resolve_counter_address`. -/
structure DiscoveryAnswers where
  sdkVersion : UInt32
  /-- The memory of the game while the table and while the library is read. -/
  table : RemoteMemory
  scan : RemoteMemory
  second : ℕ → Option UInt32
  third : ℕ → Option UInt32

/-- The address of the counter: a fixed one that is valid, or else one that a scan finds. -/
def resolveCounterAddress (a : DiscoveryAnswers) (moduleBase : UInt64) : Option UInt64 :=
  match fixedTable a.sdkVersion a.table moduleBase with
  | some counter => some counter
  | none => validateCandidates (collectCandidates a.scan moduleBase) a.second a.third

/-! ## What is selected -/

/-- How much a counter advanced, in both intervals, if it was read in both. -/
def deltas (candidates : List Candidate) (second third : ℕ → Option UInt32) (i : ℕ) :
    Option (ℕ × ℕ) := do
  let candidate ← candidates[i]?
  let second ← second i
  let third ← third i
  return ((second - candidate.first).toNat, (third - second).toNat)

/-- It advances like a display. -/
def DisplayLike (d : ℕ × ℕ) : Prop :=
  (1 ≤ d.1 ∧ d.1 ≤ 45) ∧ (1 ≤ d.2 ∧ d.2 ≤ 45) ∧ Nat.dist d.1 d.2 ≤ 4

instance (d : ℕ × ℕ) : Decidable (DisplayLike d) := by unfold DisplayLike; infer_instance

/-- The distance of the estimated rate to the nearest rate of a display. -/
def rateDistance (d : ℕ × ℕ) : ℕ :=
  min (Nat.dist (2 * (d.1 + d.2)) 30)
    (min (Nat.dist (2 * (d.1 + d.2)) 60) (Nat.dist (2 * (d.1 + d.2)) 120))

/-- The rank of the candidate `i`: how even it advances, how near to a rate of a
    display, and how early it was found. -/
def rank (d : ℕ × ℕ) (i : ℕ) : ℕ ×ₗ ℕ ×ₗ ℕ :=
  toLex (Nat.dist d.1 d.2, toLex (rateDistance d, i))

/-- The candidate `i` was read in both passes and is validated. -/
def Validated (candidates : List Candidate) (second third : ℕ → Option UInt32) (i : ℕ) (d : ℕ × ℕ) :
    Prop :=
  deltas candidates second third i = some d ∧ DisplayLike d

/-- It is the best of those that are. -/
def Best (candidates : List Candidate) (second third : ℕ → Option UInt32) (i : ℕ) : Prop :=
  ∃ d, Validated candidates second third i d ∧
    ∀ j e, Validated candidates second third j e → rank d i ≤ rank e j

/-! ## The score -/

/-- The score as a number. -/
def score (d : ℕ × ℕ) : ℕ := Nat.dist d.1 d.2 * 1000 + rateDistance d * 10

theorem rateDistance_le {d : ℕ × ℕ} (h : DisplayLike d) : rateDistance d ≤ 60 := by
  obtain ⟨h₁, h₂, -⟩ := h
  rw [rateDistance, Nat.dist, Nat.dist, Nat.dist]
  omega

/-- No score is as large as the one that the loop begins with. -/
theorem score_lt {d : ℕ × ℕ} (h : DisplayLike d) : score d < (0xFFFFFFFF : UInt32).toNat := by
  have := rateDistance_le h
  obtain ⟨-, -, hjitter⟩ := h
  rw [score, show (0xFFFFFFFF : UInt32).toNat = 2 ^ 32 - 1 from rfl]
  omega

/-- The weights keep the parts of the score apart. -/
theorem rank_le_of_score {d e : ℕ × ℕ} {i j : ℕ} (hd : DisplayLike d) (he : DisplayLike e)
    (hle : score d ≤ score e) (hlt : j < i → score d < score e) : rank d i ≤ rank e j := by
  have hd' := rateDistance_le hd
  have he' := rateDistance_le he
  rw [score, score] at hle hlt
  rw [rank, rank, Prod.Lex.toLex_le_toLex, Prod.Lex.toLex_le_toLex]
  dsimp only
  omega

theorem toNat_unsignedDistance (left right : UInt32) :
    (unsignedDistance left right).toNat = Nat.dist left.toNat right.toNat := by
  rw [unsignedDistance, Nat.dist]
  split_ifs with h
  · have hlt := UInt32.lt_iff_toNat_lt.1 h
    rw [UInt32.toNat_sub_of_le _ _ (UInt32.le_of_lt h)]
    omega
  · have hle := UInt32.le_iff_toNat_le.1 (UInt32.not_lt.1 h)
    rw [UInt32.toNat_sub_of_le _ _ (UInt32.not_lt.1 h)]
    omega

theorem toNat_min (a b : UInt32) : (min a b).toNat = min a.toNat b.toNat := by
  rw [Nat.min_def, show min a b = if a ≤ b then a else b from rfl]
  simp only [UInt32.le_iff_toNat_le]
  split_ifs <;> rfl

section Delta

variable {delta1 delta2 : UInt32}

theorem displayLike_iff : DisplayLike (delta1.toNat, delta2.toNat) ↔
    ¬(delta1 = 0 ∨ delta1 > 45 ∨ delta2 = 0 ∨ delta2 > 45) ∧
      ¬unsignedDistance delta1 delta2 > 4 := by
  have hzero (delta : UInt32) : delta = 0 ↔ delta.toNat = 0 := UInt32.toNat_inj.symm
  have hgt (delta : UInt32) : delta > 45 ↔ 45 < delta.toNat := UInt32.lt_iff_toNat_lt
  have hjitter : unsignedDistance delta1 delta2 > 4 ↔ 4 < Nat.dist delta1.toNat delta2.toNat := by
    rw [← toNat_unsignedDistance]
    exact UInt32.lt_iff_toNat_lt
  rw [DisplayLike, hzero, hzero, hgt, hgt, hjitter]
  dsimp only
  omega

/-- On validated candidates the score does not overflow. -/
theorem toNat_score (h : DisplayLike (delta1.toNat, delta2.toNat)) :
    (unsignedDistance delta1 delta2 * 1000 +
      min (unsignedDistance ((delta1 + delta2) * 2) 30)
        (min (unsignedDistance ((delta1 + delta2) * 2) 60)
          (unsignedDistance ((delta1 + delta2) * 2) 120)) * 10).toNat =
      score (delta1.toNat, delta2.toNat) := by
  have hrate := rateDistance_le h
  obtain ⟨h₁, h₂, hjitter⟩ := h
  have hestimated : ((delta1 + delta2) * 2).toNat = 2 * (delta1.toNat + delta2.toNat) := by
    rw [UInt32.toNat_mul, UInt32.toNat_add, show (2 : UInt32).toNat = 2 from rfl]
    omega
  have hdistance : (min (unsignedDistance ((delta1 + delta2) * 2) 30)
      (min (unsignedDistance ((delta1 + delta2) * 2) 60)
        (unsignedDistance ((delta1 + delta2) * 2) 120))).toNat =
      rateDistance (delta1.toNat, delta2.toNat) := by
    rw [toNat_min, toNat_min, toNat_unsignedDistance, toNat_unsignedDistance,
      toNat_unsignedDistance, hestimated]
    rfl
  rw [UInt32.toNat_add, UInt32.toNat_mul, UInt32.toNat_mul, hdistance, toNat_unsignedDistance,
    show (1000 : UInt32).toNat = 1000 from rfl, show (10 : UInt32).toNat = 10 from rfl, score]
  dsimp only at hjitter ⊢
  omega

end Delta

/-! ## The loop -/

section Loop

variable (candidates : List Candidate) (second third : ℕ → Option UInt32)

/-- What a candidate costs, if it is validated. -/
def cost (i : ℕ) : Option ℕ :=
  (deltas candidates second third i).bind fun d => if DisplayLike d then some (score d) else none

/-- The loop keeps what costs least, its score on 32 bits. -/
theorem selectStep_eq (selected : ℕ × UInt32) (i : ℕ) :
    Prod.map id UInt32.toNat (selectStep candidates second third selected i) =
      leastStep (cost candidates second third) (Prod.map id UInt32.toNat selected) i := by
  rw [selectStep, leastStep, cost, deltas]
  cases candidates[i]? with
  | none => rfl
  | some candidate =>
    cases second i with
    | none => rfl
    | some second =>
      cases third i with
      | none => rfl
      | some third =>
        simp only [Option.bind_eq_bind, Option.bind_some, Option.pure_def]
        by_cases hlike : DisplayLike ((second - candidate.first).toNat, (third - second).toNat)
        · obtain ⟨hrange, hjitter⟩ := displayLike_iff.1 hlike
          rw [if_neg hrange, if_neg hjitter, if_pos hlike, ← toNat_score hlike]
          simp only [Prod.map_snd, UInt32.lt_iff_toNat_lt]
          split_ifs <;> rfl
        · rw [if_neg hlike]
          rw [displayLike_iff, not_and, not_not] at hlike
          by_cases hrange : second - candidate.first = 0 ∨ second - candidate.first > 45 ∨
              third - second = 0 ∨ third - second > 45
          · rw [if_pos hrange]
          · rw [if_neg hrange, if_pos (hlike hrange)]

variable {candidates second third}

theorem cost_eq_some_iff {i c : ℕ} : cost candidates second third i = some c ↔
    ∃ d, Validated candidates second third i d ∧ score d = c := by
  rw [cost, Option.bind_eq_some_iff]
  constructor
  · rintro ⟨d, hd, hc⟩
    split_ifs at hc with hlike
    exact ⟨d, ⟨hd, hlike⟩, Option.some.inj hc⟩
  · rintro ⟨d, ⟨hd, hlike⟩, rfl⟩
    exact ⟨d, hd, if_pos hlike⟩

theorem Validated.lt_length {i : ℕ} {d : ℕ × ℕ} (h : Validated candidates second third i d) :
    i < candidates.length := by
  by_contra hi
  have hnone : candidates[i]? = none := List.getElem?_eq_none (Nat.le_of_not_lt hi)
  have hd := h.1
  rw [deltas, hnone] at hd
  cases hd

/-- The first of the candidates that cost least is the one of the least rank. -/
theorem best_of_firstLeast {i c : ℕ}
    (h : FirstLeast (cost candidates second third) candidates.length i c) :
    Best candidates second third i := by
  obtain ⟨-, hc, hleast⟩ := h
  obtain ⟨d, hd, rfl⟩ := cost_eq_some_iff.1 hc
  refine ⟨d, hd, fun j e he => ?_⟩
  obtain ⟨hle, hlt⟩ := hleast j he.lt_length (score e) (cost_eq_some_iff.2 ⟨e, he, rfl⟩)
  exact rank_le_of_score hd.2 he.2 hle hlt

/-- There is no more than one, since no two candidates were found at one place. -/
theorem best_unique {i j : ℕ} (hi : Best candidates second third i)
    (hj : Best candidates second third j) : i = j := by
  obtain ⟨d, hd, hid⟩ := hi
  obtain ⟨e, he, hje⟩ := hj
  have hrank : rank d i = rank e j := le_antisymm (hid j e he) (hje i d hd)
  exact congrArg (fun r => (ofLex (ofLex r).2).2) hrank

variable (candidates second third) in

/-- The loop selects the best of the validated candidates, if there are any. -/
theorem selectCandidate_cases :
    selectCandidate candidates second third = none ∧
      (∀ i d, ¬Validated candidates second third i d) ∨
    ∃ i c, selectCandidate candidates second third = some c ∧ candidates[i]? = some c ∧
      Best candidates second third i := by
  have hlimit : ∀ i c, cost candidates second third i = some c →
      c < (0xFFFFFFFF : UInt32).toNat := by
    intro i c hc
    obtain ⟨d, hd, rfl⟩ := cost_eq_some_iff.1 hc
    exact score_lt hd.2
  have hfold : (List.range candidates.length).foldl (leastStep (cost candidates second third))
      (Prod.map id UInt32.toNat (candidates.length, 0xFFFFFFFF)) = Prod.map id UInt32.toNat
        ((List.range candidates.length).foldl (selectStep candidates second third)
          (candidates.length, 0xFFFFFFFF)) :=
    List.foldl_hom (Prod.map id UInt32.toNat)
      fun selected i => (selectStep_eq candidates second third selected i).symm
  have hloop := foldl_leastStep candidates.length hlimit candidates.length
  rw [Prod.map_apply, id] at hfold
  rw [hfold] at hloop
  rw [selectCandidate]
  generalize (List.range candidates.length).foldl (selectStep candidates second third)
    (candidates.length, 0xFFFFFFFF) = selected at hloop
  rcases hloop with ⟨hselected, hnone⟩ | hleast
  · -- The sentinel is left: no candidate is validated.
    have hno : selected.1 = candidates.length := congrArg Prod.fst hselected
    refine .inl ⟨if_pos hno, fun i d hd => ?_⟩
    have hcost := cost_eq_some_iff.2 ⟨d, hd, rfl⟩
    rw [hnone i hd.lt_length] at hcost
    cases hcost
  · have hlt : selected.1 < candidates.length := hleast.1
    refine .inr ⟨selected.1, candidates[selected.1], ?_, List.getElem?_eq_getElem hlt,
      best_of_firstLeast hleast⟩
    rw [if_neg hlt.ne, List.getElem?_eq_getElem hlt]

end Loop

theorem validateCandidates_eq (candidates : List Candidate) (second third : ℕ → Option UInt32) :
    validateCandidates candidates second third =
      (selectCandidate candidates second third).map Candidate.counter := by
  rw [validateCandidates]
  split_ifs with hlen
  · obtain rfl := List.length_eq_zero_iff.1 hlen
    rfl
  · rfl

/-- An `attach` that is not refused at once reports the counter that is found. -/
theorem attach_found (b : Build) (s : FpsSampler) (pid : ℤ) (a : AttachAnswers) {base : UInt64}
    (hretry : ¬(b = .ps5 ∧ pid = s.discoveryFailedPid ∧ a.attemptTimeUs < s.discoveryRetryAfterUs))
    (hmodule : a.moduleBase = some base) (hbase : base ≠ 0) :
    (∀ counter, a.counterAddress = some counter →
      (s.attach b pid a).2 = true ∧ (s.attach b pid a).1.counterAddress = counter) ∧
    (a.counterAddress = none → (s.attach b pid a).2 = false ∧ ¬(s.attach b pid a).1.Attached) := by
  rw [attach, if_neg hretry, hmodule]
  dsimp only
  rw [if_neg hbase]
  constructor
  · intro counter hcounter
    rw [hcounter]
    cases b <;> exact ⟨rfl, rfl⟩
  · intro hnone
    rw [hnone]
    cases b <;> exact ⟨rfl, not_attached_reset _⟩

/-- What follows the scan, for any candidates and any later readings: it finds a
    counter if and only if a candidate is validated, that of the best of them, and
    `attach` takes it, or detaches. -/
theorem discovery_selects (b : Build) (s : FpsSampler) (pid : ℤ) (attemptTimeUs failureTimeUs : ℕ)
    (moduleBase : UInt64) (candidates : List Candidate) (second third : ℕ → Option UInt32)
    (hretry : ¬(b = .ps5 ∧ pid = s.discoveryFailedPid ∧ attemptTimeUs < s.discoveryRetryAfterUs))
    (hbase : moduleBase ≠ 0) :
    let found := validateCandidates candidates second third
    let attached := s.attach b pid
      { attemptTimeUs, moduleBase := some moduleBase, counterAddress := found, failureTimeUs }
    (∀ sdkVersion table scan, fixedTable sdkVersion table moduleBase = none →
      collectCandidates scan moduleBase = candidates →
        resolveCounterAddress { sdkVersion, table, scan, second, third } moduleBase = found) ∧
    ((∃ i d, Validated candidates second third i d) → ∃ i, Best candidates second third i) ∧
    (∀ i c, candidates[i]? = some c → Best candidates second third i →
      found = some c.counter ∧ attached.2 = true ∧ attached.1.counterAddress = c.counter) ∧
    ((¬∃ i d, Validated candidates second third i d) →
      found = none ∧ attached.2 = false ∧ ¬attached.1.Attached) := by
  intro found attached
  obtain ⟨hfound, hnone⟩ := attach_found b s pid
    { attemptTimeUs, moduleBase := some moduleBase, counterAddress := found, failureTimeUs }
    hretry rfl hbase
  have hselected : found = (selectCandidate candidates second third).map Candidate.counter :=
    validateCandidates_eq candidates second third
  refine ⟨fun sdkVersion table scan hfixed hscan => ?_, ?_, fun i c hc hbest => ?_, fun hno => ?_⟩
  · rw [resolveCounterAddress, hfixed, hscan]
  · rintro ⟨i, d, hd⟩
    rcases selectCandidate_cases candidates second third with ⟨-, hno⟩ | ⟨j, c, -, -, hbest⟩
    · exact absurd hd (hno i d)
    · exact ⟨j, hbest⟩
  · have hcounter : found = some c.counter := by
      rcases selectCandidate_cases candidates second third with ⟨-, hno⟩ | ⟨j, c', hsome, hc', hbest'⟩
      · obtain ⟨d, hd, -⟩ := hbest
        exact absurd hd (hno i d)
      · obtain rfl := best_unique hbest hbest'
        obtain rfl := Option.some.inj (hc.symm.trans hc')
        rw [hselected, hsome, Option.map_some]
    exact ⟨hcounter, hfound c.counter hcounter⟩
  · have hfail : found = none := by
      rcases selectCandidate_cases candidates second third with ⟨hfail, -⟩ | ⟨j, c, -, -, d, hd, -⟩
      · rw [hselected, hfail, Option.map_none]
      · exact absurd ⟨j, d, hd⟩ hno
    exact ⟨hfail, hnone hfail⟩

/-- Two counters that advance by 10 and 10, and by 15 and 15 frames: the second one
    counts at 60 frames per second. -/
theorem discovery_selects_sixty :
    (({} : FpsSampler).attach .ps5 7
      { attemptTimeUs := 0, moduleBase := some 0x40000000, failureTimeUs := 0
        counterAddress := validateCandidates [⟨0x52000768, 100⟩, ⟨0x53000768, 0xFFFFFFF8⟩]
          (fun i => some (if i = 0 then 110 else 7)) fun i => some (if i = 0 then 120 else 22) }
      ).1.counterAddress = 0x53000768 := by
  refine ((discovery_selects .ps5 {} 7 0 0 0x40000000 _ _ _ (by decide) (by decide)).2.2.1 1
    ⟨0x53000768, 0xFFFFFFF8⟩ rfl ⟨(15, 15), ⟨rfl, by decide⟩, fun j e he => ?_⟩).2.2
  have hj : j < 2 := he.lt_length
  interval_cases j
  · obtain rfl : (10, 10) = e := Option.some.inj he.1
    decide
  · obtain rfl : (15, 15) = e := Option.some.inj he.1
    exact le_rfl

end FpsSampler

end CommonFps
