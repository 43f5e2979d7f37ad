import CommonFps.Lib.Driven

/-!
# The injector

The call that brings the renderer up in ShellUI (`ensure_shellui_renderer` of
`shellui_injector.cpp`), made again and again by the worker. What it remembers
decides whether a renderer image may be put into a ShellUI process, which must
not happen twice. What the report of an injection says, what the marker file
contains and which process is ShellUI are up to the environment.

* `injector`: the injector under any sequence of calls;
* `Injector.Call`: all that a call can do;
* `Injector.Closed`: the states in which a process must not get another image;
  `injector.delayed`: or not yet;
* `one_image`: a ShellUI process gets one renderer image at most.
-/

namespace CommonFps

/-- What matters in the report of an injection. -/
structure StableInjectionResult where
  elfLoaded : Bool
  pthreadCreateOk : Bool
  authRestored : Bool
  deriving DecidableEq

/-- What is observed of a call. -/
inductive InjectorEvent
  | lookup (pid : ℤ)
  | readMarker (content : Option ℤ)
  | inject (pid : ℤ) (result : StableInjectionResult)
  | quarantine
  deriving DecidableEq

/-- What an iteration of the wait for the marker finds. -/
structure WaitAnswers where
  marker : Option ℤ
  lookup : ℤ

/-- What the environment answers in a call. -/
structure EnsureAnswers where
  lookup : ℤ
  marker : Option ℤ
  injected : StableInjectionResult
  wait : ℕ → WaitAnswers

/-- What a call does and returns. -/
structure EnsureReport where
  events : List InjectorEvent
  result : Bool

/-- The injection that an event is. -/
def InjectorEvent.injection? : InjectorEvent → Option (ℤ × StableInjectionResult)
  | inject pid result => some (pid, result)
  | _ => none

namespace EnsureReport

/-- The injections in a call, with their reports. -/
def injections (o : EnsureReport) : List (ℤ × StableInjectionResult) :=
  o.events.filterMap InjectorEvent.injection?

/-- No process but `pid` is found to be ShellUI in a call. -/
def FindsOnly (o : EnsureReport) (pid : ℤ) : Prop :=
  ∀ q, .lookup q ∈ o.events → q ≤ 0 ∨ q = pid

/-- A call finds `pid` and refuses to inject. -/
def Refuses (o : EnsureReport) (pid : ℤ) : Prop :=
  .lookup pid ∈ o.events ∧ o.result = false ∧ o.injections = []

end EnsureReport

/-- What the injector remembers. -/
structure Injector where
  attemptedPid : ℤ := -1
  attemptedResult : Bool := false
  retryAllowed : Bool := true
  retryDelayTicks : ℕ := 0
  rendererQuarantined : Bool := false
  deriving DecidableEq

namespace Injector

/-- Whether to inject into `pid`: the answer of the call, if not. -/
def attempt (s : Injector) (pid : ℤ) : Injector × Option Bool :=
  if s.attemptedPid ≠ pid then
    ({ s with attemptedPid := pid, attemptedResult := false, retryAllowed := true,
              retryDelayTicks := 0 }, none)
  else if s.attemptedResult then (s, some true)
  else if !s.retryAllowed then (s, some false)
  else if s.retryDelayTicks ≠ 0 then
    ({ s with retryDelayTicks := s.retryDelayTicks - 1 }, some false)
  else (s, none)

/-- The wait for the marker, from its iteration `i` on and for at most `n` of
    them: what is observed, and whether the renderer came online. -/
def awaitMarker (pid : ℤ) (wait : ℕ → WaitAnswers) : (n i : ℕ) → List InjectorEvent × Bool
  | 0, _ => ([.quarantine], false)
  | n + 1, i =>
    let read := .readMarker (wait i).marker
    let looked := .lookup (wait i).lookup
    if (wait i).marker = some pid then ([read], true)
    else if i ≠ 0 ∧ i % 50 = 0 then
      if 0 < (wait i).lookup ∧ (wait i).lookup ≠ pid then ([read, looked, .quarantine], false)
      else
        let rest := awaitMarker pid wait n (i + 1)
        (read :: looked :: rest.1, rest.2)
    else
      let rest := awaitMarker pid wait n (i + 1)
      (read :: rest.1, rest.2)

/-- The injection, and the wait for the renderer. -/
def inject (s : Injector) (a : EnsureAnswers) : Injector × EnsureReport :=
  let began := [.lookup a.lookup, .readMarker a.marker, .inject a.lookup a.injected]
  if !a.injected.pthreadCreateOk || !a.injected.authRestored then
    ({ s with retryAllowed := !a.injected.elfLoaded
              retryDelayTicks := if !a.injected.elfLoaded then 5 else 0 }, ⟨began, false⟩)
  else
    let waited := awaitMarker a.lookup a.wait 3500 0
    if waited.2 then ({ s with attemptedResult := true }, ⟨began ++ waited.1, true⟩)
    else
      ({ s with rendererQuarantined := true, retryAllowed := false }, ⟨began ++ waited.1, false⟩)

/-- A call of the injector, and what it did. -/
def ensureShelluiRenderer (s : Injector) (a : EnsureAnswers) : Injector × EnsureReport :=
  if s.rendererQuarantined then (s, ⟨[], false⟩)
  else if a.lookup ≤ 0 then (s, ⟨[.lookup a.lookup], false⟩)
  else if a.marker = some a.lookup then (s, ⟨[.lookup a.lookup, .readMarker a.marker], true⟩)
  else
    match s.attempt a.lookup with
    | (s, some result) => (s, ⟨[.lookup a.lookup, .readMarker a.marker], result⟩)
    | (s, none) => { s with attemptedResult := false }.inject a

/-! ## What a call can do -/

/-- The injector may put an image into `pid`. -/
def Ready (s : Injector) (pid : ℤ) : Prop :=
  s.attemptedPid = pid →
    s.attemptedResult = false ∧ s.retryAllowed = true ∧ s.retryDelayTicks = 0

/-- The calls of the injector, from the state `s`, that leave it in the state `s'`. -/
inductive Call (s : Injector) : Injector → EnsureReport → Prop
  | quarantined (h : s.rendererQuarantined = true) : Call s s ⟨[], false⟩
  | absent {p : ℤ} (hp : p ≤ 0) : Call s s ⟨[.lookup p], false⟩
  | marked {p : ℤ} (hp : 0 < p) : Call s s ⟨[.lookup p, .readMarker (some p)], true⟩
  | online {p : ℤ} {m : Option ℤ} (hp : s.attemptedPid = p) (h : s.attemptedResult = true) :
      Call s s ⟨[.lookup p, .readMarker m], true⟩
  | refused {p : ℤ} {m : Option ℤ} (hp : s.attemptedPid = p) (h : s.retryAllowed = false) :
      Call s s ⟨[.lookup p, .readMarker m], false⟩
  | delayed {p : ℤ} {m : Option ℤ} (hp : s.attemptedPid = p) (h : s.retryDelayTicks ≠ 0) :
      Call s { s with retryDelayTicks := s.retryDelayTicks - 1 }
        ⟨[.lookup p, .readMarker m], false⟩
  | failed {p : ℤ} {m : Option ℤ} {r : StableInjectionResult} (hq : s.rendererQuarantined = false)
      (hp : 0 < p) (h : s.Ready p) :
      Call s { attemptedPid := p, retryAllowed := !r.elfLoaded
               retryDelayTicks := if !r.elfLoaded then 5 else 0 }
        ⟨[.lookup p, .readMarker m, .inject p r], false⟩
  | started {p : ℤ} {m : Option ℤ} {r : StableInjectionResult} {wait : ℕ → WaitAnswers}
      (hq : s.rendererQuarantined = false) (hp : 0 < p) (h : s.Ready p)
      (hw : (awaitMarker p wait 3500 0).2 = true) :
      Call s { attemptedPid := p, attemptedResult := true }
        ⟨[.lookup p, .readMarker m, .inject p r] ++ (awaitMarker p wait 3500 0).1, true⟩
  | lost {p : ℤ} {m : Option ℤ} {r : StableInjectionResult} {wait : ℕ → WaitAnswers}
      (hq : s.rendererQuarantined = false) (hp : 0 < p) (h : s.Ready p)
      (hw : (awaitMarker p wait 3500 0).2 = false) :
      Call s { attemptedPid := p, retryAllowed := false, rendererQuarantined := true }
        ⟨[.lookup p, .readMarker m, .inject p r] ++ (awaitMarker p wait 3500 0).1, false⟩

/-- An attempt that is due starts from a clean slate. -/
theorem attempt_eq_none {s s' : Injector} {p : ℤ} (h : s.attempt p = (s', none)) :
    s.Ready p ∧ s' = { s with attemptedPid := p, attemptedResult := false, retryAllowed := true,
                              retryDelayTicks := 0 } := by
  rw [attempt] at h
  split_ifs at h with h₁ h₂ h₃ h₄ <;>
    simp only [Prod.mk.injEq, reduceCtorEq, and_false, and_true] at h
  · exact ⟨fun h => absurd h h₁, h.symm⟩
  · obtain rfl := h
    have hr : s.attemptedResult = false ∧ s.retryAllowed = true ∧ s.retryDelayTicks = 0 :=
      ⟨by simpa using h₂, by simpa using h₃, not_not.1 h₄⟩
    refine ⟨fun _ => hr, ?_⟩
    rw [← not_not.1 h₁, ← hr.1, ← hr.2.1, ← hr.2.2]

theorem call_of_attempt_eq_some {s s' : Injector} {p : ℤ} {result : Bool}
    (h : s.attempt p = (s', some result)) (m : Option ℤ) :
    s.Call s' ⟨[.lookup p, .readMarker m], result⟩ := by
  rw [attempt] at h
  split_ifs at h with h₁ h₂ h₃ h₄ <;>
    simp only [Prod.mk.injEq, reduceCtorEq, and_false, Option.some.injEq] at h <;>
    obtain ⟨rfl, rfl⟩ := h
  · exact .online (not_not.1 h₁) h₂
  · exact .refused (not_not.1 h₁) (by simpa using h₃)
  · exact .delayed (not_not.1 h₁) h₄

theorem call_inject {s : Injector} {a : EnsureAnswers} (hq : s.rendererQuarantined = false)
    (hp : 0 < a.lookup) (h : s.Ready a.lookup) :
    let t := inject { s with attemptedPid := a.lookup, attemptedResult := false,
                             retryAllowed := true, retryDelayTicks := 0 } a
    s.Call t.1 t.2 := by
  simp only [hq, inject]
  split
  · exact .failed hq hp h
  · split
    next hw => exact .started hq hp h hw
    next hw => exact .lost hq hp h (by simpa using hw)

/-- Every call is one of these. -/
theorem call_ensureShelluiRenderer (s : Injector) (a : EnsureAnswers) :
    s.Call (s.ensureShelluiRenderer a).1 (s.ensureShelluiRenderer a).2 := by
  rw [ensureShelluiRenderer]
  by_cases hq : s.rendererQuarantined
  · rw [if_pos hq]
    exact .quarantined hq
  by_cases hp : a.lookup ≤ 0
  · rw [if_neg hq, if_pos hp]
    exact .absent hp
  by_cases hm : a.marker = some a.lookup
  · rw [if_neg hq, if_neg hp, if_pos hm, hm]
    exact .marked (not_le.1 hp)
  rw [if_neg hq, if_neg hp, if_neg hm]
  rcases h : s.attempt a.lookup with ⟨s', _ | result⟩
  · obtain ⟨hr, rfl⟩ := attempt_eq_none h
    exact call_inject (by simpa using hq) (not_le.1 hp) hr
  · exact call_of_attempt_eq_some h a.marker

/-! ## The wait for the marker -/

/-- The wait injects nothing, reads the marker of the renderer if it comes
    online, and else quarantines it. -/
theorem awaitMarker_spec (pid : ℤ) (wait : ℕ → WaitAnswers) (n i : ℕ) :
    (awaitMarker pid wait n i).1.filterMap InjectorEvent.injection? = [] ∧
    ((awaitMarker pid wait n i).2 = true → .readMarker (some pid) ∈ (awaitMarker pid wait n i).1) ∧
    ((awaitMarker pid wait n i).2 = true → .quarantine ∉ (awaitMarker pid wait n i).1) := by
  induction n generalizing i with
  | zero => simp [awaitMarker, InjectorEvent.injection?]
  | succ n ih =>
    have := ih (i + 1)
    simp only [awaitMarker]
    split_ifs with h₁ h₂ h₃
    · simp [h₁, InjectorEvent.injection?]
    · simp [InjectorEvent.injection?]
    · simpa [InjectorEvent.injection?, Ne.symm h₁] using this
    · simpa [InjectorEvent.injection?, Ne.symm h₁] using this

theorem injections_began (p : ℤ) (m : Option ℤ) (r : StableInjectionResult) (result : Bool) :
    EnsureReport.injections ⟨[.lookup p, .readMarker m, .inject p r], result⟩ = [(p, r)] := rfl

theorem injections_waited (p : ℤ) (m : Option ℤ) (r : StableInjectionResult)
    (wait : ℕ → WaitAnswers) (result : Bool) :
    EnsureReport.injections ⟨[.lookup p, .readMarker m, .inject p r] ++
      (awaitMarker p wait 3500 0).1, result⟩ = [(p, r)] := by
  rw [EnsureReport.injections, List.filterMap_append, (awaitMarker_spec p wait 3500 0).1,
    List.append_nil]
  rfl

/-- A call injects into the process that its lookup found. -/
theorem eq_lookup_of_mem_injections {s : Injector} {a : EnsureAnswers} {p : ℤ}
    {r : StableInjectionResult} (h : (p, r) ∈ (s.ensureShelluiRenderer a).2.injections) :
    p = a.lookup := by
  rw [ensureShelluiRenderer] at h
  by_cases hq : s.rendererQuarantined
  · simp [hq, EnsureReport.injections] at h
  by_cases hp : a.lookup ≤ 0
  · simp [hq, hp, EnsureReport.injections, InjectorEvent.injection?] at h
  by_cases hm : a.marker = some a.lookup
  · simp [hq, hp, hm, EnsureReport.injections, InjectorEvent.injection?] at h
  rw [if_neg hq, if_neg hp, if_neg hm] at h
  rcases hs : s.attempt a.lookup with ⟨s', _ | result⟩
  · simp only [hs, inject] at h
    split_ifs at h <;>
      simp only [injections_began, injections_waited, List.mem_singleton, Prod.mk.injEq] at h
    all_goals exact h.1
  · simp [hs, EnsureReport.injections, InjectorEvent.injection?] at h

section Calls

variable {s s' : Injector} {o : EnsureReport} {p : ℤ} {r : StableInjectionResult}

/-- `pid` must not get another image, unless another process is ShellUI first. -/
def Closed (s : Injector) (pid : ℤ) : Prop :=
  s.rendererQuarantined = true ∨
    s.attemptedPid = pid ∧ (s.attemptedResult = true ∨ s.retryAllowed = false)

theorem Closed.not_ready (hs : s.Closed p) (hq : s.rendererQuarantined = false) : ¬s.Ready p := by
  rcases hs with h | ⟨hp, h⟩
  · exact absurd h (by simp [hq])
  · intro hr
    obtain ⟨h₁, h₂, -⟩ := hr hp
    simp [h₁, h₂] at h

/-- What a call did that injected. -/
theorem Call.injected (h : s.Call s' o) (hi : (p, r) ∈ o.injections) :
    o.injections = [(p, r)] ∧ .lookup p ∈ o.events ∧ 0 < p ∧ s.rendererQuarantined = false ∧
      s.Ready p ∧ (s'.Closed p ∨
        r.elfLoaded = false ∧ s'.attemptedPid = p ∧ s'.retryDelayTicks = 5) := by
  cases h with
  | quarantined | absent | marked | online | refused | delayed =>
    simp [EnsureReport.injections, InjectorEvent.injection?] at hi
  | failed hq hp hr =>
    rw [injections_began, List.mem_singleton, Prod.mk.injEq] at hi
    obtain ⟨rfl, rfl⟩ := hi
    refine ⟨rfl, by simp, hp, hq, hr, ?_⟩
    cases hl : r.elfLoaded
    · exact .inr ⟨rfl, rfl, by simp⟩
    · exact .inl (.inr ⟨rfl, .inr (by simp)⟩)
  | started hq hp hr hw | lost hq hp hr hw =>
    rw [injections_waited, List.mem_singleton, Prod.mk.injEq] at hi
    obtain ⟨rfl, rfl⟩ := hi
    exact ⟨injections_waited _ _ _ _ _, by simp, hp, hq, hr, .inl (by simp [Closed])⟩

/-- A call leaves the state closed for `p`, if no other process is found. -/
theorem Call.closed (h : s.Call s' o) (hs : s.Closed p) (ho : o.FindsOnly p) : s'.Closed p := by
  have absurd_ready {q : ℤ} {l : List InjectorEvent} {b : Bool}
      (hq : s.rendererQuarantined = false) (hp : 0 < q) (hr : s.Ready q)
      (ho : EnsureReport.FindsOnly ⟨.lookup q :: l, b⟩ p) : False := by
    obtain h | rfl := ho q (by simp)
    exacts [hp.not_ge h, hs.not_ready hq hr]
  cases h with
  | quarantined | absent | marked | online | refused => exact hs
  | delayed => exact hs
  | failed hq hp hr | started hq hp hr | lost hq hp hr => exact (absurd_ready hq hp hr ho).elim

/-- A call that injects nothing lets the delay run, one step for each refusal. -/
theorem Call.ticks (h : s.Call s' o) (hp : s.attemptedPid = p) (hi : o.injections = []) :
    s'.attemptedPid = p ∧ (s'.retryDelayTicks = s.retryDelayTicks ∨
      s.retryDelayTicks = s'.retryDelayTicks + 1 ∧ o.Refuses p) := by
  cases h with
  | quarantined | absent | marked | online | refused => exact ⟨hp, .inl rfl⟩
  | delayed hq ht =>
    exact ⟨hp, .inr ⟨(Nat.succ_pred_eq_of_pos (Nat.pos_of_ne_zero ht)).symm,
      by simp [← hp, hq], rfl, rfl⟩⟩
  | failed | started | lost => simp [EnsureReport.injections, InjectorEvent.injection?] at hi

/-- A quarantine is for good. -/
theorem Call.quarantine (h : s.Call s' o)
    (hs : s.rendererQuarantined = true ∨ .quarantine ∈ o.events) :
    s'.rendererQuarantined = true := by
  cases h with
  | quarantined h => exact h
  | absent | marked | online | refused | delayed => simpa using hs
  | failed hq =>
    rcases hs with hs | hs
    · exact absurd (hq.symm.trans hs) Bool.false_ne_true
    · simp at hs
  | started hq _ _ hw =>
    rcases hs with hs | hs
    · exact absurd (hq.symm.trans hs) Bool.false_ne_true
    · -- A wait that saw its marker leaves no quarantine among its events.
      have hwait := (awaitMarker_spec _ _ 3500 0).2.2 hw
      simp [hwait] at hs
  | lost => rfl

/-- A process is remembered as online only after its marker was read. -/
theorem Call.online_of (h : s.Call s' o) (hs : s'.attemptedResult = true) :
    s.attemptedResult = true ∧ s'.attemptedPid = s.attemptedPid ∨
      .readMarker (some s'.attemptedPid) ∈ o.events := by
  cases h with
  | quarantined | absent | marked | online | refused | delayed => exact .inl ⟨hs, rfl⟩
  | failed | lost => cases hs
  | started _ _ _ hw =>
    exact .inr (List.mem_append_right _ ((awaitMarker_spec _ _ _ _).2.1 hw))

/-- Success is reported for the process found, online before or as of this call. -/
theorem Call.result_of (h : s.Call s' o) (ho : o.result = true) :
    ∃ p, o.events.head? = some (.lookup p) ∧
      (s.attemptedResult = true ∧ s.attemptedPid = p ∨ .readMarker (some p) ∈ o.events) := by
  cases h with
  | quarantined | absent | refused | delayed | failed | lost => cases ho
  | @marked p => exact ⟨p, rfl, .inr (by simp)⟩
  | @online p _ hp hs => exact ⟨p, rfl, .inl ⟨hs, hp⟩⟩
  | @started p _ _ _ _ _ _ hw =>
    exact ⟨p, rfl, .inr (List.mem_append_right _ ((awaitMarker_spec _ _ _ _).2.1 hw))⟩

end Calls

end Injector

/-! ## Runs -/

open Injector

/-- The injector, called again and again. -/
def injector : Driven Injector EnsureAnswers EnsureReport := ⟨{}, ensureShelluiRenderer⟩

namespace injector

variable {ι : ℕ → EnsureAnswers} {m n : ℕ} {p : ℤ} {r r' : StableInjectionResult}

theorem call (ι : ℕ → EnsureAnswers) (n : ℕ) :
    (injector.state ι n).Call (injector.state ι (n + 1)) (injector.output ι n) :=
  call_ensureShelluiRenderer _ _

theorem quarantine (hm : .quarantine ∈ (injector.output ι m).events) (hmn : m < n) :
    (injector.state ι n).rendererQuarantined = true := by
  induction n, hmn using Nat.le_induction with
  | base => exact (call ι m).quarantine (.inr hm)
  | succ n _ ih => exact (call ι n).quarantine (.inl ih)

/-- After an injection that loaded the image, the process stays closed while no
    other one is found. -/
theorem closed (hm : (p, r) ∈ (injector.output ι m).injections) (hr : r.elfLoaded = true)
    (hmn : m < n) (ho : ∀ i, m < i → i < n → (injector.output ι i).FindsOnly p) :
    (injector.state ι n).Closed p := by
  induction n, hmn using Nat.le_induction with
  | base =>
    obtain ⟨-, -, -, -, -, h | h⟩ := (call ι m).injected hm
    · exact h
    · exact absurd (hr.symm.trans h.1) (by simp)
  | succ n hn ih =>
    exact (call ι n).closed (ih fun i h₁ h₂ => ho i h₁ (h₂.trans n.lt_succ_self))
      (ho n hn n.lt_succ_self)

/-- After an injection, the process is closed, or its delay runs down with the
    calls that refuse it, while no other one is found. -/
theorem delayed (hm : (p, r) ∈ (injector.output ι m).injections) (hmn : m < n)
    (ho : ∀ i, m < i → i < n →
      (injector.output ι i).FindsOnly p ∧ (injector.output ι i).injections = []) :
    (injector.state ι n).Closed p ∨
      r.elfLoaded = false ∧ (injector.state ι n).attemptedPid = p ∧
      ∃ S : Finset ℕ, (∀ i ∈ S, m < i ∧ i < n ∧ (injector.output ι i).Refuses p) ∧
        5 ≤ S.card + (injector.state ι n).retryDelayTicks := by
  induction n, hmn using Nat.le_induction with
  | base =>
    obtain ⟨-, -, -, -, -, h | ⟨h, hp, ht⟩⟩ := (call ι m).injected hm
    · exact .inl h
    · exact .inr ⟨h, hp, ∅, by simp, by simp [ht]⟩
  | succ n hn ih =>
    obtain ⟨hf, hi⟩ := ho n hn n.lt_succ_self
    rcases ih fun i h₁ h₂ => ho i h₁ (h₂.trans n.lt_succ_self) with h | ⟨h, hp, S, hS, hc⟩
    · exact .inl ((call ι n).closed h hf)
    · obtain ⟨hp', ht | ⟨ht, hR⟩⟩ := (call ι n).ticks hp hi
      · exact .inr ⟨h, hp', S, fun i hi => ⟨(hS i hi).1, (hS i hi).2.1.trans n.lt_succ_self,
          (hS i hi).2.2⟩, ht ▸ hc⟩
      · have hn' : n ∉ S := fun h => (hS n h).2.1.false
        refine .inr ⟨h, hp', insert n S, fun i hi => ?_, ?_⟩
        · rcases Finset.mem_insert.1 hi with rfl | hi
          · exact ⟨hn, i.lt_succ_self, hR⟩
          · exact ⟨(hS i hi).1, (hS i hi).2.1.trans n.lt_succ_self, (hS i hi).2.2⟩
        · rw [Finset.card_insert_of_notMem hn']
          omega

/-- The process remembered as online had its marker read. -/
theorem online (ι : ℕ → EnsureAnswers) (n : ℕ)
    (h : (injector.state ι n).attemptedResult = true) :
    ∃ k < n, .readMarker (some (injector.state ι n).attemptedPid) ∈
      (injector.output ι k).events := by
  induction n with
  | zero => cases h
  | succ n ih =>
    rcases (call ι n).online_of h with ⟨h, hp⟩ | h
    · obtain ⟨k, hk, h⟩ := ih h
      exact ⟨k, hk.trans n.lt_succ_self, hp ▸ h⟩
    · exact ⟨n, n.lt_succ_self, h⟩

end injector

/-- A ShellUI process gets one renderer image at most: none after a quarantine,
    none after one that was loaded, and another attempt only after the delay;
    and it is reported online only after its marker was read. -/
theorem one_image (ι : ℕ → EnsureAnswers) :
    (∀ n, (injector.output ι n).injections.length ≤ 1) ∧
    (∀ m n, m < n → .quarantine ∈ (injector.output ι m).events →
      (injector.output ι n).injections = []) ∧
    (∀ m n p r r', m < n → (p, r) ∈ (injector.output ι m).injections → r.elfLoaded = true →
      (p, r') ∈ (injector.output ι n).injections →
      ∃ i, m < i ∧ i < n ∧ ∃ q, 0 < q ∧ q ≠ p ∧ .lookup q ∈ (injector.output ι i).events) ∧
    (∀ m n p r r', m < n → (p, r) ∈ (injector.output ι m).injections →
      (p, r') ∈ (injector.output ι n).injections →
      (∀ i, m < i → i < n →
        (injector.output ι i).FindsOnly p ∧ (injector.output ι i).injections = []) →
      r.elfLoaded = false ∧
        ∃ S : Finset ℕ, 5 ≤ S.card ∧
          ∀ i ∈ S, m < i ∧ i < n ∧ (injector.output ι i).Refuses p) ∧
    ∀ n, (injector.output ι n).result = true →
      ∃ p, (injector.output ι n).events.head? = some (.lookup p) ∧
        ∃ k ≤ n, .readMarker (some p) ∈ (injector.output ι k).events := by
  refine ⟨fun n => ?_, fun m n hmn hm => ?_, fun m n p r r' hmn hm hr hn => ?_,
    fun m n p r r' hmn hm hn ho => ?_, fun n hn => ?_⟩
  · cases h : (injector.output ι n).injections with
    | nil => exact Nat.zero_le 1
    | cons i l =>
      have := ((injector.call ι n).injected (p := i.1) (r := i.2) (by simp [h])).1
      rw [← h, this, List.length_singleton]
  · by_contra hne
    obtain ⟨⟨p, r⟩, hi⟩ := List.exists_mem_of_ne_nil _ hne
    obtain ⟨-, -, -, hq, -⟩ := (injector.call ι n).injected hi
    rw [injector.quarantine hm hmn] at hq
    cases hq
  · by_contra hne
    obtain ⟨-, -, -, hq, hready, -⟩ := (injector.call ι n).injected hn
    -- A process with an image stays closed until another one is found.
    refine (injector.closed hm hr hmn fun i h₁ h₂ q hq => ?_).not_ready hq hready
    by_contra hq'
    rw [not_or, not_le] at hq'
    exact hne ⟨i, h₁, h₂, q, hq'.1, hq'.2, hq⟩
  · obtain ⟨-, -, -, hq, hready, -⟩ := (injector.call ι n).injected hn
    rcases injector.delayed hm hmn ho with h | ⟨hr, hp, S, hS, hc⟩
    · exact absurd hready (h.not_ready hq)
    · -- At an injection, the delay has run down.
      have ht := (hready hp).2.2
      exact ⟨hr, S, by omega, hS⟩
  · obtain ⟨p, hp, ⟨hs, rfl⟩ | h⟩ := (injector.call ι n).result_of hn
    · obtain ⟨k, hk, h⟩ := injector.online ι n hs
      exact ⟨_, hp, k, hk.le, h⟩
    · exact ⟨p, hp, n, le_rfl, h⟩

/-- The call number `n` finds `pid n`, and its injection fails before or after
    the image was loaded. -/
def failingCall (loaded : Bool) (pid : ℕ → ℤ) (n : ℕ) : EnsureAnswers :=
  ⟨pid n, none, ⟨loaded, false, true⟩, fun _ => ⟨none, pid n⟩⟩

/-- ShellUI restarts during the wait for the marker. -/
def restartingCall (_ : ℕ) : EnsureAnswers :=
  ⟨50, none, ⟨true, true, true⟩, fun _ => ⟨none, 51⟩⟩

theorem one_image_runs :
    (injector.output restartingCall 1).injections = [] ∧
    (∃ i, 0 < i ∧ i < 2 ∧ ∃ q, 0 < q ∧ q ≠ 50 ∧
      .lookup q ∈ (injector.output (failingCall true fun n => if n = 1 then 51 else 50) i).events) ∧
    (∃ S : Finset ℕ, 5 ≤ S.card ∧ ∀ i ∈ S, 0 < i ∧ i < 6 ∧
      (injector.output (failingCall false fun _ => 50) i).Refuses 50) ∧
    ∃ p, (injector.output (fun _ => ⟨50, some 50, ⟨true, true, true⟩, fun _ => ⟨none, 50⟩⟩)
      0).events.head? = some (.lookup p) := by
  refine ⟨(one_image restartingCall).2.1 0 1 (by decide) (by decide +kernel),
    (one_image (failingCall true _)).2.2.1 0 2 50 ⟨true, false, true⟩ ⟨true, false, true⟩
      (by decide) (by decide) rfl (by decide),
    ((one_image (failingCall false _)).2.2.2.1 0 6 50 ⟨false, false, true⟩ ⟨false, false, true⟩
      (by decide) (by decide) (by decide) fun i h₁ h₂ => ?_).2, ?_⟩
  · interval_cases i <;>
      exact ⟨fun q hq => .inr (by
        simpa [failingCall, injector, Driven.output, Driven.state, Injector.ensureShelluiRenderer,
          Injector.attempt, Injector.inject] using hq), rfl⟩
  · obtain ⟨p, hp, -⟩ := (one_image fun _ => ⟨50, some 50, ⟨true, true, true⟩,
      fun _ => ⟨none, 50⟩⟩).2.2.2.2 0 (by decide)
    exact ⟨p, hp⟩

end CommonFps
