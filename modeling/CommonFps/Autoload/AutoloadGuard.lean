import CommonFps.Lib.Driven
import CommonFps.Lib.Streak

/-!
# The autoload guard

The guard that installs the renderer in ShellUI (`autoload_guard.cpp`): not
before the runtime was ready a number of times in a row, and again, after a
delay, if an installation failed or the renderer was lost.

The answers of the back-end are inputs: whatever it answers, and however its
answers change between two queries of a tick, is a stream of inputs. A tick
outputs its queries with their answers, in their order, and returns the state it
leaves.

* `AutoloadGuard.tick`: a tick;
* `AutoloadGuard.Ticks`, `tick_ticks`: what a tick can do;
* `autoload_protocol`: what holds of every run.
-/

namespace CommonFps

/-- How far the guard is with the renderer. -/
inductive AutoloadState
  | waitingForRuntime
  | stabilizingRuntime
  | waitingToRetry
  | installingRenderer
  | ready
  deriving DecidableEq

/-- How often the runtime has to be ready in a row, and the delay after a failed attempt. -/
structure AutoloadPolicy where
  consecutiveReadySamples : UInt32 := 3
  retryDelayUs : UInt64 := 1500000

/-- A query to the back-end, with its answer. -/
inductive AutoloadQuery
  | runtimeReady (answer : Bool)
  | rendererAlive (answer : Bool)
  | installRendererOnce (answer : Bool)
  deriving DecidableEq

/-- The answers of the back-end in a tick; the renderer is looked at again after
    its installation. -/
structure AutoloadBackend where
  runtimeReady : Bool
  rendererAlive : Bool
  installRendererOnce : Bool
  rendererAliveAfter : Bool

/-- The guard: its state, its counters and the time of the next attempt. -/
structure AutoloadGuard where
  state : AutoloadState := .waitingForRuntime
  consecutiveReady : UInt32 := 0
  installAttempts : UInt32 := 0
  retryNotBeforeUs : UInt64 := 0

/-- The policy of a guard: at least one sample. -/
def AutoloadPolicy.constructed (p : AutoloadPolicy) : AutoloadPolicy :=
  if p.consecutiveReadySamples = 0 then { p with consecutiveReadySamples := 1 } else p

namespace AutoloadGuard

/-- The guard starts anew. -/
def reset (_ : AutoloadGuard) : AutoloadGuard where
  state := .waitingForRuntime
  consecutiveReady := 0
  installAttempts := 0
  retryNotBeforeUs := 0

/-- An attempt failed: the next one is due after the delay. -/
def scheduleRetry (g : AutoloadGuard) (p : AutoloadPolicy) (nowUs : UInt64) : AutoloadGuard :=
  { g with
    state := .waitingToRetry
    consecutiveReady := 0
    retryNotBeforeUs := nowUs + p.retryDelayUs }

/-- One step of the guard, and what it asked the back-end. -/
def tick (g : AutoloadGuard) (p : AutoloadPolicy) (nowUs : UInt64) (b : AutoloadBackend) :
    AutoloadGuard × List AutoloadQuery :=
  if g.state = .ready then
    if b.rendererAlive then (g, [.rendererAlive b.rendererAlive])
    else (g.scheduleRetry p nowUs, [.rendererAlive b.rendererAlive])
  else if g.state = .waitingToRetry ∧ nowUs < g.retryNotBeforeUs then (g, [])
  else if !b.runtimeReady then
    ({ g with state := .waitingForRuntime, consecutiveReady := 0 }, [.runtimeReady b.runtimeReady])
  else
    let g := { g with state := .stabilizingRuntime, consecutiveReady := g.consecutiveReady + 1 }
    if g.consecutiveReady < p.consecutiveReadySamples then (g, [.runtimeReady b.runtimeReady])
    else if b.rendererAlive then
      ({ g with state := .ready }, [.runtimeReady b.runtimeReady, .rendererAlive b.rendererAlive])
    else
      let g := { g with state := .installingRenderer, installAttempts := g.installAttempts + 1 }
      if !b.installRendererOnce then
        (g.scheduleRetry p nowUs,
          [.runtimeReady b.runtimeReady, .rendererAlive b.rendererAlive,
            .installRendererOnce b.installRendererOnce])
      -- The return code of the injector is not trusted alone.
      else if !b.rendererAliveAfter then
        (g.scheduleRetry p nowUs,
          [.runtimeReady b.runtimeReady, .rendererAlive b.rendererAlive,
            .installRendererOnce b.installRendererOnce, .rendererAlive b.rendererAliveAfter])
      else
        ({ g with state := .ready, consecutiveReady := p.consecutiveReadySamples },
          [.runtimeReady b.runtimeReady, .rendererAlive b.rendererAlive,
            .installRendererOnce b.installRendererOnce, .rendererAlive b.rendererAliveAfter])

end AutoloadGuard

/-- What the owner of a guard calls. -/
inductive AutoloadCall
  | tick (nowUs : UInt64) (b : AutoloadBackend)
  | reset

/-- A guard with a policy, driven by the calls of its owner; it outputs its
    queries. -/
def autoloadGuard (p : AutoloadPolicy) : Driven AutoloadGuard AutoloadCall (List AutoloadQuery) where
  init := {}
  step g call :=
    match call with
    | .tick nowUs b => g.tick p.constructed nowUs b
    | .reset => (g.reset, [])

/-! ## What a tick can do -/

namespace AutoloadGuard

/-- A wait for a retry is over. -/
def Due (g : AutoloadGuard) (nowUs : UInt64) : Prop := g.state = .waitingToRetry →
    g.retryNotBeforeUs ≤ nowUs

/-- What a tick at `nowUs` can do: the guard it leaves, and its queries. -/
inductive Ticks (g : AutoloadGuard) (p : AutoloadPolicy) (nowUs : UInt64) :
    AutoloadGuard → List AutoloadQuery → Prop
  | alive : g.state = .ready → Ticks g p nowUs g [.rendererAlive true]
  | lost : g.state = .ready → Ticks g p nowUs (g.scheduleRetry p nowUs) [.rendererAlive false]
  | waits : g.state = .waitingToRetry → nowUs < g.retryNotBeforeUs → Ticks g p nowUs g []
  | unready : g.state ≠ .ready → g.Due nowUs →
      Ticks g p nowUs { g with state := .waitingForRuntime, consecutiveReady := 0 } [.runtimeReady false]
  | stabilizes : g.state ≠ .ready → g.Due nowUs → g.consecutiveReady + 1 < p.consecutiveReadySamples →
      Ticks g p nowUs { g with state := .stabilizingRuntime, consecutiveReady := g.consecutiveReady + 1 }
        [.runtimeReady true]
  | found : g.state ≠ .ready → g.Due nowUs → p.consecutiveReadySamples ≤ g.consecutiveReady + 1 →
      Ticks g p nowUs { g with state := .ready, consecutiveReady := g.consecutiveReady + 1 }
        [.runtimeReady true, .rendererAlive true]
  | failed : g.state ≠ .ready → g.Due nowUs → p.consecutiveReadySamples ≤ g.consecutiveReady + 1 →
      Ticks g p nowUs { g.scheduleRetry p nowUs with installAttempts := g.installAttempts + 1 }
        [.runtimeReady true, .rendererAlive false, .installRendererOnce false]
  | unconfirmed : g.state ≠ .ready → g.Due nowUs → p.consecutiveReadySamples ≤
    g.consecutiveReady + 1 →
      Ticks g p nowUs { g.scheduleRetry p nowUs with installAttempts := g.installAttempts + 1 }
        [.runtimeReady true, .rendererAlive false, .installRendererOnce true, .rendererAlive false]
  | installed : g.state ≠ .ready → g.Due nowUs → p.consecutiveReadySamples ≤ g.consecutiveReady + 1 →
      Ticks g p nowUs
        { g with
          state := .ready
          consecutiveReady := p.consecutiveReadySamples
          installAttempts := g.installAttempts + 1 }
        [.runtimeReady true, .rendererAlive false, .installRendererOnce true, .rendererAlive true]

theorem tick_ticks (g : AutoloadGuard) (p : AutoloadPolicy) (nowUs : UInt64) (b : AutoloadBackend) :
    g.Ticks p nowUs (g.tick p nowUs b).1 (g.tick p nowUs b).2 := by
  obtain ⟨runtimeReady, rendererAlive, installRendererOnce, rendererAliveAfter⟩ := b
  rw [tick]
  by_cases hready : g.state = .ready
  · rw [if_pos hready]
    cases rendererAlive with
    | true => exact .alive hready
    | false => exact .lost hready
  rw [if_neg hready]
  by_cases hwait : g.state = .waitingToRetry ∧ nowUs < g.retryNotBeforeUs
  · rw [if_pos hwait]
    exact .waits hwait.1 hwait.2
  have hdue : g.Due nowUs := fun h => UInt64.not_lt.1 fun hlt => hwait ⟨h, hlt⟩
  rw [if_neg hwait]
  cases runtimeReady with
  | false => exact .unready hready hdue
  | true =>
    simp only [Bool.not_true, Bool.false_eq_true, if_false]
    by_cases hshort : g.consecutiveReady + 1 < p.consecutiveReadySamples
    · rw [if_pos hshort]
      exact .stabilizes hready hdue hshort
    rw [if_neg hshort]
    have hgate := UInt32.not_lt.1 hshort
    cases rendererAlive with
    | true => exact .found hready hdue hgate
    | false =>
      cases installRendererOnce with
      | false => exact .failed hready hdue hgate
      | true =>
        cases rendererAliveAfter with
        | false => exact .unconfirmed hready hdue hgate
        | true => exact .installed hready hdue hgate

end AutoloadGuard

/-! ## The protocol -/

namespace AutoloadQuery

/-- The answer to the question of the readiness of the runtime, if it is asked. -/
def asked (qs : List AutoloadQuery) : Option Bool :=
  qs.findSome? fun
    | .runtimeReady answer => some answer
    | _ => none

/-- The queries install the renderer. -/
def Installs (qs : List AutoloadQuery) : Prop := ∃ answer, .installRendererOnce answer ∈ qs

/-- An installation failed, or was not confirmed; or a renderer that was ready
    was lost: such a tick looks at the renderer first. -/
def Fails (qs : List AutoloadQuery) : Prop :=
  .installRendererOnce false ∈ qs ∨ [.installRendererOnce true, .rendererAlive false] <:+ qs ∨
    qs.head? = some (.rendererAlive false)

/-- What the queries about the runtime were answered, in their order. -/
def runtimeAnswers (qs : List AutoloadQuery) : List Bool :=
  qs.filterMap fun
    | .runtimeReady answer => some answer
    | _ => none

/-- What the queries about the renderer were answered, in their order. -/
def rendererAnswers (qs : List AutoloadQuery) : List Bool :=
  qs.filterMap fun
    | .rendererAlive answer => some answer
    | _ => none

/-- What the attempts to install returned, in their order. -/
def installAnswers (qs : List AutoloadQuery) : List Bool :=
  qs.filterMap fun
    | .installRendererOnce answer => some answer
    | _ => none

/-- The queries are answered by the back-end, each kind in its order. -/
structure AnsweredBy (b : AutoloadBackend) (qs : List AutoloadQuery) : Prop where
  runtime : runtimeAnswers qs <+: [b.runtimeReady]
  renderer : rendererAnswers qs <+: [b.rendererAlive, b.rendererAliveAfter]
  install : installAnswers qs <+: [b.installRendererOnce]

instance (qs : List AutoloadQuery) : Decidable (Installs qs) := by
  rw [Installs]
  infer_instance

instance (qs : List AutoloadQuery) : Decidable (Fails qs) := by
  rw [Fails]
  infer_instance

end AutoloadQuery

open AutoloadQuery

namespace autoloadGuard

variable (p : AutoloadPolicy) (ι : ℕ → AutoloadCall)

/-- What the call `k` is answered about the readiness of the runtime. -/
def asks (k : ℕ) : Option Bool := asked ((autoloadGuard p).output ι k)

/-- The call `k` is an attempt to install, a failure or a loss, or a reset. -/
def breaks (k : ℕ) : Prop :=
  Installs ((autoloadGuard p).output ι k) ∨ Fails ((autoloadGuard p).output ι k) ∨ ι k = .reset

end autoloadGuard

/-- The calls of a run come at times that never decrease, and to each of which the
    delay of the policy can be added. -/
structure AutoloadTimes (p : AutoloadPolicy) (ι : ℕ → AutoloadCall) : Prop where
  mono : ∀ m n t t' b b', m ≤ n → ι m = .tick t b → ι n = .tick t' b' → t ≤ t'
  fits : ∀ n t b, ι n = .tick t b → t.toNat + p.retryDelayUs.toNat < 2 ^ 64

/-- What holds of the run of a guard with the policy `p`. -/
structure AutoloadProtocol (p : AutoloadPolicy) (ι : ℕ → AutoloadCall) : Prop where
  /-- The answers in what a tick outputs are those of its back-end. -/
  answered : ∀ n t b, ι n = .tick t b → AnsweredBy b ((autoloadGuard p).output ι n)
  /-- An installation comes after enough ready answers in a row, since the last
      installation, loss or reset, and after the renderer was found missing. -/
  gate : ∀ n, Installs ((autoloadGuard p).output ι n) →
    StreakUpTo (autoloadGuard.asks p ι) (fun _ => False) (autoloadGuard.breaks p ι) n
      (max 1 p.consecutiveReadySamples.toNat) ∧
    ∃ answer rest, (autoloadGuard p).output ι n =
      .runtimeReady true :: .rendererAlive false :: .installRendererOnce answer :: rest
  /-- After a failure there are no queries for the time of the delay. -/
  backoff : ∀ m n t t' b b', m < n → ι m = .tick t b → Fails ((autoloadGuard p).output ι m) →
    (∀ k, m < k → k < n → ι k ≠ .reset) → ι n = .tick t' b' →
    t'.toNat < t.toNat + p.retryDelayUs.toNat → (autoloadGuard p).output ι n = []
  /-- A tick returns that it is ready if it last saw the renderer alive. -/
  ready : ∀ n t b, ι n = .tick t b → (((autoloadGuard p).state ι (n + 1)).state = .ready ↔
    ((autoloadGuard p).output ι n).getLast? = some (.rendererAlive true))
  /-- The installations since a reset are counted. -/
  attempts : ∀ r n, r ≤ n → (r = 0 ∨ ι (r - 1) = .reset) →
    (∀ k, r ≤ k → k < n → ι k ≠ .reset) →
    ((autoloadGuard p).state ι n).installAttempts.toNat =
      ((Finset.Ico r n).filter fun k => Installs ((autoloadGuard p).output ι k)).card % 2 ^ 32
  counter : ∀ n, ((autoloadGuard p).state ι n).consecutiveReady.toNat ≤
    max 1 p.consecutiveReadySamples.toNat

theorem AutoloadPolicy.constructed_samples (p : AutoloadPolicy) :
    p.constructed.consecutiveReadySamples.toNat = max 1 p.consecutiveReadySamples.toNat := by
  rw [← UInt32.toNat_gate, constructed]
  split_ifs <;> rfl

theorem AutoloadPolicy.constructed_delay (p : AutoloadPolicy) :
    p.constructed.retryDelayUs = p.retryDelayUs := by
  rw [constructed]
  split_ifs <;> rfl

namespace autoloadGuard

variable {p : AutoloadPolicy} {ι : ℕ → AutoloadCall} {n : ℕ} {t : UInt64} {b : AutoloadBackend}

theorem ticks (h : ι n = .tick t b) : ((autoloadGuard p).state ι n).Ticks p.constructed t
    ((autoloadGuard p).state ι (n + 1)) ((autoloadGuard p).output ι n) := by
  rw [Driven.state_succ, Driven.output, h]
  exact AutoloadGuard.tick_ticks _ _ _ _

theorem state_reset (h : ι n = .reset) : (autoloadGuard p).state ι (n + 1) = {} := by
  rw [Driven.state_succ, h]
  rfl

theorem output_reset (h : ι n = .reset) : (autoloadGuard p).output ι n = [] := by
  rw [Driven.output, h]
  rfl

/-- The counter counts the ready answers in a row while the guard is not ready;
    it is then short of the gate, and at the gate once it is ready. -/
structure Counts (p : AutoloadPolicy) (ι : ℕ → AutoloadCall) (n : ℕ) (g : AutoloadGuard) : Prop where
  ready : g.state = .ready → g.consecutiveReady = p.constructed.consecutiveReadySamples
  short : g.state ≠ .ready → g.consecutiveReady < p.constructed.consecutiveReadySamples
  streak : g.state ≠ .ready → Streak (asks p ι) (fun _ => False) (breaks p ι) n g.consecutiveReady.toNat

theorem samples_pos (p : AutoloadPolicy) : 0 < p.constructed.consecutiveReadySamples :=
  UInt32.gate_pos p.constructed_samples

section Step

variable {g g' : AutoloadGuard} {qs : List AutoloadQuery}

/-- The counter starts afresh. -/
theorem Counts.afresh (hs : g.state ≠ .ready) (hc : g.consecutiveReady = 0) : Counts p ι n g := by
  refine ⟨fun h => absurd h hs, fun _ => hc ▸ samples_pos p, fun _ => ?_⟩
  rw [hc]
  exact .zero _ _ _ _

/-- A ready answer counts. -/
theorem Counts.upTo (h : Counts p ι n g) (hs : g.state ≠ .ready)
    (ha : asks p ι n = some true) :
    StreakUpTo (asks p ι) (fun _ => False) (breaks p ι) n (g.consecutiveReady + 1).toNat := by
  rw [UInt32.toNat_succ_of_lt (h.short hs)]
  exact (h.streak hs).upTo not_false ha

/-- A call that neither installs nor fails, and is no reset, breaks nothing. -/
theorem not_breaks (hq : (autoloadGuard p).output ι n = qs) (hinstalls : ¬Installs qs)
    (hfails : ¬Fails qs) (hn : ι n ≠ .reset) : ¬breaks p ι n := by
  rw [breaks, hq]
  exact fun h => h.elim hinstalls fun h => h.elim hfails hn

theorem Counts.tick (h : Counts p ι n g) (ht : g.Ticks p.constructed t g' qs)
    (hq : (autoloadGuard p).output ι n = qs) (hn : ι n ≠ .reset) : Counts p ι (n + 1) g' := by
  cases ht with
  | alive hs => exact ⟨h.ready, fun h => absurd hs h, fun h => absurd hs h⟩
  | lost _ => exact .afresh nofun rfl
  | waits hs _ =>
    refine ⟨h.ready, h.short, fun hne => (h.streak hne).skip ?_ not_false ?_⟩
    · rw [asks, hq]
      rfl
    · exact not_breaks hq (by decide) (by decide) hn
  | unready _ _ => exact .afresh nofun rfl
  | stabilizes hs _ hshort =>
    refine ⟨nofun, fun _ => hshort, fun _ => (h.upTo hs ?_).next ?_⟩
    · rw [asks, hq]
      rfl
    · exact not_breaks hq (by decide) (by decide) hn
  | found hs _ hgate => exact ⟨fun _ => UInt32.succ_eq_of_gate (h.short hs) hgate,
    fun h => absurd rfl h, fun h => absurd rfl h⟩
  | failed _ _ _ => exact .afresh nofun rfl
  | unconfirmed _ _ _ => exact .afresh nofun rfl
  | installed _ _ _ => exact ⟨fun _ => rfl, fun h => absurd rfl h, fun h => absurd rfl h⟩

end Step

/-- The counter means the same all along a run. -/
theorem counts (p : AutoloadPolicy) (ι : ℕ → AutoloadCall) (n : ℕ) :
    Counts p ι n ((autoloadGuard p).state ι n) := by
  induction n with
  | zero => exact .afresh nofun rfl
  | succ n ih =>
    cases hn : ι n with
    | tick t b => exact ih.tick (ticks hn) rfl (by simp [hn])
    | reset =>
      rw [state_reset hn]
      exact .afresh nofun rfl

/-! ### The parts of the protocol -/

theorem answered (hn : ι n = .tick t b) : AnsweredBy b ((autoloadGuard p).output ι n) := by
  rw [Driven.output, hn]
  show AnsweredBy b (AutoloadGuard.tick _ _ _ _).2
  rw [AutoloadGuard.tick]
  dsimp only
  split_ifs <;> constructor <;> simp [runtimeAnswers, rendererAnswers, installAnswers]

theorem gate (p : AutoloadPolicy) (ι : ℕ → AutoloadCall) (h : Installs ((autoloadGuard p).output ι n)) :
    StreakUpTo (asks p ι) (fun _ => False) (breaks p ι) n (max 1 p.consecutiveReadySamples.toNat) ∧
    ∃ answer rest, (autoloadGuard p).output ι n =
      .runtimeReady true :: .rendererAlive false :: .installRendererOnce answer :: rest := by
  cases hn : ι n with
  | reset =>
    rw [output_reset hn] at h
    exact absurd h (by decide)
  | tick t b =>
    have ht := ticks (p := p) hn
    have hc := counts p ι n
    generalize hq : (autoloadGuard p).output ι n = qs at h ht
    generalize (autoloadGuard p).state ι (n + 1) = g' at ht
    -- A tick that installs is one at the gate.
    have hup : ((autoloadGuard p).state ι n).state ≠ .ready →
        p.constructed.consecutiveReadySamples ≤ ((autoloadGuard p).state ι n).consecutiveReady + 1 →
        asked qs = some true →
        StreakUpTo (asks p ι) (fun _ => False) (breaks p ι) n (max 1 p.consecutiveReadySamples.toNat) := by
      intro hs hgate ha
      rw [← p.constructed_samples, ← UInt32.succ_eq_of_gate (hc.short hs) hgate]
      exact hc.upTo hs ((congrArg asked hq).trans ha)
    cases ht with
    | alive _ | lost _ | waits _ _ | unready _ _ | stabilizes _ _ _ | found _ _ _ => exact absurd h (by decide)
    | failed hs _ hgate | unconfirmed hs _ hgate | installed hs _ hgate =>
      exact ⟨hup hs hgate rfl, _, _, rfl⟩

/-- A failure schedules a retry. -/
theorem scheduled (hn : ι n = .tick t b) (h : Fails ((autoloadGuard p).output ι n)) :
    ((autoloadGuard p).state ι (n + 1)).state = .waitingToRetry ∧
      ((autoloadGuard p).state ι (n + 1)).retryNotBeforeUs = t + p.retryDelayUs := by
  have ht := ticks (p := p) hn
  rw [← p.constructed_delay]
  generalize (autoloadGuard p).output ι n = qs at h ht
  generalize (autoloadGuard p).state ι (n + 1) = g' at ht
  cases ht with
  | alive _ | waits _ _ | unready _ _ | stabilizes _ _ _ | found _ _ _ | installed _ _ _ =>
    exact absurd h (by decide)
  | lost _ | failed _ _ _ | unconfirmed _ _ _ => exact ⟨rfl, rfl⟩

/-- A guard that waits for a retry goes on waiting as long as it is not due. -/
theorem waiting {m : ℕ} {b' : AutoloadBackend} {t' : UInt64} (htimes : AutoloadTimes p ι) (hmn : m < n)
    (hm : ι m = .tick t b) (h : Fails ((autoloadGuard p).output ι m))
    (hr : ∀ k, m < k → k < n → ι k ≠ .reset)
    (hn : ι n = .tick t' b') (ht : t'.toNat < t.toNat + p.retryDelayUs.toNat) :
    ((autoloadGuard p).state ι n).state = .waitingToRetry ∧
      ((autoloadGuard p).state ι n).retryNotBeforeUs = t + p.retryDelayUs := by
  refine Driven.invariant_from (P := fun _ (g : AutoloadGuard) => g.state = .waitingToRetry ∧
    g.retryNotBeforeUs = t + p.retryDelayUs) hmn (scheduled hm h) fun k hmk hkn ih => ?_
  cases hk : ι k with
  | reset => exact absurd hk (hr k hmk hkn)
  | tick u c =>
    have hu : u ≤ t' := htimes.mono k n u t' c b' hkn.le hk hn
    have hearly : u < t + p.retryDelayUs := by
      have hfits := htimes.fits m t b hm
      have hle : u.toNat ≤ t'.toNat := hu
      rw [UInt64.lt_iff_toNat_lt, UInt64.toNat_add, Nat.mod_eq_of_lt hfits]
      exact hle.trans_lt ht
    have htick := ticks (p := p) hk
    rw [← hk, ← Driven.state_succ]
    generalize (autoloadGuard p).output ι k = qs at htick
    generalize (autoloadGuard p).state ι (k + 1) = g' at htick
    obtain ⟨hs, hd⟩ := ih
    have hwaits : ((autoloadGuard p).state ι k).state ≠ .ready := by rw [hs]; decide
    have hdue : ¬((autoloadGuard p).state ι k).Due u := by
      intro hdue
      have hle := hdue hs
      rw [hd] at hle
      exact absurd hearly (UInt64.not_lt.2 hle)
    cases htick with
    | alive h | lost h => exact absurd h hwaits
    | waits _ _ => exact ⟨hs, hd⟩
    | unready _ h | stabilizes _ h _ | found _ h _ | failed _ h _ | unconfirmed _ h _ | installed _ h _ =>
      exact absurd h hdue

theorem backoff {m : ℕ} {b' : AutoloadBackend} {t' : UInt64} (htimes : AutoloadTimes p ι) (hmn : m < n)
    (hm : ι m = .tick t b) (h : Fails ((autoloadGuard p).output ι m))
    (hr : ∀ k, m < k → k < n → ι k ≠ .reset)
    (hn : ι n = .tick t' b') (ht : t'.toNat < t.toNat + p.retryDelayUs.toNat) :
    (autoloadGuard p).output ι n = [] := by
  obtain ⟨hs, hd⟩ := waiting htimes hmn hm h hr hn ht
  have hfits := htimes.fits m t b hm
  have hearly : t' < ((autoloadGuard p).state ι n).retryNotBeforeUs := by
    rw [hd, UInt64.lt_iff_toNat_lt, UInt64.toNat_add, Nat.mod_eq_of_lt hfits]
    exact ht
  have hne : ((autoloadGuard p).state ι n).state ≠ .ready := by
    rw [hs]
    decide
  rw [Driven.output, hn]
  show (AutoloadGuard.tick _ _ _ _).2 = _
  rw [AutoloadGuard.tick, if_neg hne, if_pos ⟨hs, hearly⟩]

theorem ready_iff (hn : ι n = .tick t b) : ((autoloadGuard p).state ι (n + 1)).state = .ready ↔
    ((autoloadGuard p).output ι n).getLast? = some (.rendererAlive true) := by
  have ht := ticks (p := p) hn
  generalize (autoloadGuard p).output ι n = qs at ht
  generalize (autoloadGuard p).state ι (n + 1) = g' at ht
  cases ht with
  | alive hs => exact iff_of_true hs rfl
  | found _ _ _ | installed _ _ _ => exact iff_of_true rfl rfl
  | waits hs _ => exact iff_of_false (hs ▸ by decide) nofun
  | lost _ | unready _ _ | stabilizes _ _ _ | failed _ _ _ | unconfirmed _ _ _ =>
    exact iff_of_false nofun (by decide)

/-- A tick counts its attempt to install. -/
theorem attempts_tick (hn : ι n = .tick t b) : ((autoloadGuard p).state ι (n + 1)).installAttempts =
    ((autoloadGuard p).state ι n).installAttempts +
      if Installs ((autoloadGuard p).output ι n) then 1 else 0 := by
  have ht := ticks (p := p) hn
  generalize (autoloadGuard p).output ι n = qs at ht
  generalize (autoloadGuard p).state ι (n + 1) = g' at ht
  cases ht with
  | alive _ | waits _ _ | lost _ | unready _ _ | stabilizes _ _ _ | found _ _ _ =>
    rw [if_neg (by decide)]
    exact (add_zero _).symm
  | failed _ _ _ | unconfirmed _ _ _ | installed _ _ _ => rw [if_pos (by decide)]

theorem attempts (p : AutoloadPolicy) (ι : ℕ → AutoloadCall) {r n : ℕ} (hrn : r ≤ n)
    (h₀ : r = 0 ∨ ι (r - 1) = .reset) (hr : ∀ k, r ≤ k → k < n → ι k ≠ .reset) :
    ((autoloadGuard p).state ι n).installAttempts.toNat =
      ((Finset.Ico r n).filter fun k => Installs ((autoloadGuard p).output ι k)).card % 2 ^ 32 := by
  have hstart : ((autoloadGuard p).state ι r).installAttempts = 0 := by
    rcases h₀ with rfl | h
    · rfl
    · cases r with
      | zero => rfl
      | succ r => exact congrArg AutoloadGuard.installAttempts (state_reset h)
  induction n, hrn using Nat.le_induction with
  | base => rw [hstart, Finset.Ico_self]; rfl
  | succ n hrn ih =>
    have ih := ih fun k hk hkn => hr k hk (hkn.trans n.lt_succ_self)
    cases hn : ι n with
    | reset => exact absurd hn (hr n hrn n.lt_succ_self)
    | tick t b =>
      have hnew : n ∉ Finset.Ico r n := Finset.right_notMem_Ico
      rw [attempts_tick hn, UInt32.toNat_add, ih, ← Finset.insert_Ico_right_eq_Ico_add_one hrn,
        Finset.filter_insert]
      split_ifs
      · rw [Finset.card_insert_of_notMem fun h => hnew (Finset.mem_filter.1 h).1]
        simp
      · simp

theorem counter_le (p : AutoloadPolicy) (ι : ℕ → AutoloadCall) (n : ℕ) :
    ((autoloadGuard p).state ι n).consecutiveReady.toNat ≤ max 1 p.consecutiveReadySamples.toNat := by
  rw [← p.constructed_samples]
  exact UInt32.toNat_le_gate (counts p ι n).ready (counts p ι n).short

end autoloadGuard

/-- The autoload guard keeps to its protocol, whatever its back-end answers. -/
theorem autoload_protocol {p : AutoloadPolicy} {ι : ℕ → AutoloadCall} (h : AutoloadTimes p ι) :
    AutoloadProtocol p ι where
  answered _ _ _ := autoloadGuard.answered
  gate _ := autoloadGuard.gate p ι
  backoff _ _ _ _ _ _ := autoloadGuard.backoff h
  ready _ _ _ := autoloadGuard.ready_iff
  attempts _ _ := autoloadGuard.attempts p ι
  counter := autoloadGuard.counter_le p ι

/-- The runtime is ready in four ticks; an installation in the third fails. -/
def failingCalls (n : ℕ) : AutoloadCall :=
  if n < 4 then .tick (250000 * n.toUInt64) ⟨true, false, false, false⟩ else .reset

theorem autoload_protocol_failing : AutoloadProtocol {} failingCalls ∧
    Fails ((autoloadGuard {}).output failingCalls 2) ∧ (autoloadGuard {}).output failingCalls 3 = [] := by
  have hlt : ∀ {n t b}, failingCalls n = .tick t b → n < 4 ∧ t = 250000 * n.toUInt64 := by
    intro n t b h
    rw [failingCalls] at h
    split_ifs at h with hn
    exact ⟨hn, (AutoloadCall.tick.inj h).1.symm⟩
  refine ⟨autoload_protocol ⟨fun m n t t' b b' hmn hm hn => ?_,
    fun n t b hn => ?_⟩, by decide, by decide⟩
  · obtain ⟨_, rfl⟩ := hlt hm
    obtain ⟨hn, rfl⟩ := hlt hn
    interval_cases n <;> interval_cases m <;> decide
  · obtain ⟨hn, rfl⟩ := hlt hn
    interval_cases n <;> decide

end CommonFps
