import CommonFps.Lib.Driven
import CommonFps.Lib.Streak

/-!
# The scene guard

The guard that creates the widgets in ShellUI (`scene_guard.cpp`): not before the
scene was ready a number of times in a row, and again if the creation failed or
the widgets were lost. Unlike the autoload guard it does not wait: a tick that
notices a loss goes on to the readiness of the scene.

The answers of the back-end are inputs, and the queries outputs, as they are of
the autoload guard.

* `SceneGuard.tick`: a tick;
* `SceneGuard.Ticks`, `tick_ticks`: what a tick can do;
* `scene_protocol`: what holds of every run.
-/

namespace CommonFps

/-- How far the overlay in the scene is. -/
inductive SceneState
  | waitingForScene
  | stabilizingScene
  | creatingWidgets
  | ready
  deriving DecidableEq

/-- How often the scene has to be ready in a row. -/
structure ScenePolicy where
  consecutiveReadySamples : UInt32 := 2

/-- A query to the back-end, with its answer. -/
inductive SceneQuery
  | sceneReady (answer : Bool)
  | widgetsAlive (answer : Bool)
  | createWidgetsOnce (answer : Bool)
  deriving DecidableEq

/-- The answers of the back-end in a tick, which looks at the widgets up to three
    times: if it was ready, before it creates them, and after. -/
structure SceneBackend where
  widgetsAlive : Bool
  sceneReady : Bool
  widgetsAliveBefore : Bool
  createWidgetsOnce : Bool
  widgetsAliveAfter : Bool

/-- The guard: its state and its counters. -/
structure SceneGuard where
  state : SceneState := .waitingForScene
  consecutiveReady : UInt32 := 0

/-- The policy of a guard: at least one sample. -/
def ScenePolicy.constructed (p : ScenePolicy) : ScenePolicy :=
  if p.consecutiveReadySamples = 0 then { p with consecutiveReadySamples := 1 } else p

namespace SceneGuard

/-- The guard starts anew. -/
def reset (_ : SceneGuard) : SceneGuard where
  state := .waitingForScene
  consecutiveReady := 0

/-- The part of a tick from the readiness of the scene on. -/
def gateTick (g : SceneGuard) (p : ScenePolicy) (b : SceneBackend) : SceneGuard × List SceneQuery :=
  if !b.sceneReady then
    ({ g with state := .waitingForScene, consecutiveReady := 0 }, [.sceneReady b.sceneReady])
  else
    let g := { g with state := .stabilizingScene, consecutiveReady := g.consecutiveReady + 1 }
    if g.consecutiveReady < p.consecutiveReadySamples then (g, [.sceneReady b.sceneReady])
    else if b.widgetsAliveBefore then
      ({ g with state := .ready }, [.sceneReady b.sceneReady, .widgetsAlive b.widgetsAliveBefore])
    else
      let g := { g with state := .creatingWidgets }
      -- An early failure is not terminal.
      if !b.createWidgetsOnce then
        ({ g with state := .waitingForScene, consecutiveReady := 0 },
          [.sceneReady b.sceneReady, .widgetsAlive b.widgetsAliveBefore,
            .createWidgetsOnce b.createWidgetsOnce])
      else if !b.widgetsAliveAfter then
        ({ g with state := .waitingForScene, consecutiveReady := 0 },
          [.sceneReady b.sceneReady, .widgetsAlive b.widgetsAliveBefore,
            .createWidgetsOnce b.createWidgetsOnce, .widgetsAlive b.widgetsAliveAfter])
      else
        ({ g with state := .ready },
          [.sceneReady b.sceneReady, .widgetsAlive b.widgetsAliveBefore,
            .createWidgetsOnce b.createWidgetsOnce, .widgetsAlive b.widgetsAliveAfter])

/-- One step of the guard, and what it asked the back-end. -/
def tick (g : SceneGuard) (p : ScenePolicy) (b : SceneBackend) : SceneGuard × List SceneQuery :=
  if g.state = .ready then
    if b.widgetsAlive then (g, [.widgetsAlive b.widgetsAlive])
    else
      let gated := g.reset.gateTick p b
      (gated.1, .widgetsAlive b.widgetsAlive :: gated.2)
  else g.gateTick p b

end SceneGuard

/-- What the owner of a guard calls. -/
inductive SceneCall
  | tick (b : SceneBackend)
  | reset

/-- A guard with a policy, driven by the calls of its owner; it outputs its
    queries. -/
def sceneGuard (p : ScenePolicy) : Driven SceneGuard SceneCall (List SceneQuery) where
  init := {}
  step g call :=
    match call with
    | .tick b => g.tick p.constructed b
    | .reset => (g.reset, [])

/-! ## What a tick can do -/

namespace SceneGuard

/-- What a tick can do from the readiness of the scene on: the guard it leaves, and
    its queries. -/
inductive Gated (g : SceneGuard) (p : ScenePolicy) : SceneGuard → List SceneQuery → Prop
  | unready : Gated g p ⟨.waitingForScene, 0⟩ [.sceneReady false]
  | stabilizes : g.consecutiveReady + 1 < p.consecutiveReadySamples →
      Gated g p ⟨.stabilizingScene, g.consecutiveReady + 1⟩ [.sceneReady true]
  | found : p.consecutiveReadySamples ≤ g.consecutiveReady + 1 →
      Gated g p ⟨.ready, g.consecutiveReady + 1⟩ [.sceneReady true, .widgetsAlive true]
  | failed : p.consecutiveReadySamples ≤ g.consecutiveReady + 1 →
      Gated g p ⟨.waitingForScene, 0⟩ [.sceneReady true, .widgetsAlive false, .createWidgetsOnce false]
  | unconfirmed : p.consecutiveReadySamples ≤ g.consecutiveReady + 1 →
      Gated g p ⟨.waitingForScene, 0⟩
        [.sceneReady true, .widgetsAlive false, .createWidgetsOnce true, .widgetsAlive false]
  | created : p.consecutiveReadySamples ≤ g.consecutiveReady + 1 →
      Gated g p ⟨.ready, g.consecutiveReady + 1⟩
        [.sceneReady true, .widgetsAlive false, .createWidgetsOnce true, .widgetsAlive true]

/-- What a tick can do. -/
inductive Ticks (g : SceneGuard) (p : ScenePolicy) : SceneGuard → List SceneQuery → Prop
  | alive : g.state = .ready → Ticks g p g [.widgetsAlive true]
  | lost {g' : SceneGuard} {qs : List SceneQuery} : g.state = .ready → Gated g.reset p g' qs →
      Ticks g p g' (.widgetsAlive false :: qs)
  | gated {g' : SceneGuard} {qs : List SceneQuery} : g.state ≠ .ready → Gated g p g' qs → Ticks g p g' qs

variable (g : SceneGuard) (p : ScenePolicy) (b : SceneBackend)

theorem gateTick_gated : g.Gated p (g.gateTick p b).1 (g.gateTick p b).2 := by
  obtain ⟨_, sceneReady, widgetsAliveBefore, createWidgetsOnce, widgetsAliveAfter⟩ := b
  rw [gateTick]
  cases sceneReady with
  | false => exact .unready
  | true =>
    simp only [Bool.not_true, Bool.false_eq_true, if_false]
    by_cases hshort : g.consecutiveReady + 1 < p.consecutiveReadySamples
    · rw [if_pos hshort]
      exact .stabilizes hshort
    rw [if_neg hshort]
    have hgate := UInt32.not_lt.1 hshort
    cases widgetsAliveBefore with
    | true => exact .found hgate
    | false =>
      cases createWidgetsOnce with
      | false => exact .failed hgate
      | true =>
        cases widgetsAliveAfter with
        | false => exact .unconfirmed hgate
        | true => exact .created hgate

theorem tick_ticks : g.Ticks p (g.tick p b).1 (g.tick p b).2 := by
  rw [tick]
  by_cases hready : g.state = .ready
  · rw [if_pos hready]
    cases hb : b.widgetsAlive with
    | true => exact .alive hready
    | false => exact .lost hready (g.reset.gateTick_gated p b)
  · rw [if_neg hready]
    exact .gated hready (g.gateTick_gated p b)

end SceneGuard

/-! ## The protocol -/

namespace SceneQuery

/-- The answer to the question of the readiness of the scene, if it is asked. -/
def asked (qs : List SceneQuery) : Option Bool :=
  qs.findSome? fun
    | .sceneReady answer => some answer
    | _ => none

/-- The queries create the widgets. -/
def Creates (qs : List SceneQuery) : Prop := ∃ answer, .createWidgetsOnce answer ∈ qs

/-- The widgets that were ready were lost: such a tick looks at them first. -/
def Loses (qs : List SceneQuery) : Prop := qs.head? = some (.widgetsAlive false)

/-- What the queries about the scene were answered, in their order. -/
def sceneAnswers (qs : List SceneQuery) : List Bool :=
  qs.filterMap fun
    | .sceneReady answer => some answer
    | _ => none

/-- What the queries about the widgets were answered, in their order. -/
def widgetsAnswers (qs : List SceneQuery) : List Bool :=
  qs.filterMap fun
    | .widgetsAlive answer => some answer
    | _ => none

/-- What the attempts to create the widgets returned, in their order. -/
def createAnswers (qs : List SceneQuery) : List Bool :=
  qs.filterMap fun
    | .createWidgetsOnce answer => some answer
    | _ => none

/-- The queries are answered by the back-end, each kind in its order; the widgets
    are looked at once more by a tick that does so first. -/
structure AnsweredBy (b : SceneBackend) (qs : List SceneQuery) : Prop where
  scene : sceneAnswers qs <+: [b.sceneReady]
  widgets : widgetsAnswers qs <+: (match qs with
    | .widgetsAlive _ :: _ => [b.widgetsAlive, b.widgetsAliveBefore, b.widgetsAliveAfter]
    | _ => [b.widgetsAliveBefore, b.widgetsAliveAfter])
  create : createAnswers qs <+: [b.createWidgetsOnce]

instance (qs : List SceneQuery) : Decidable (Creates qs) := by
  rw [Creates]
  infer_instance

instance (qs : List SceneQuery) : Decidable (Loses qs) := by
  rw [Loses]
  infer_instance

end SceneQuery

open SceneQuery

namespace sceneGuard

variable (p : ScenePolicy) (ι : ℕ → SceneCall)

/-- What the call `k` is answered about the readiness of the scene. -/
def asks (k : ℕ) : Option Bool := asked ((sceneGuard p).output ι k)

/-- The call `k` notices a loss, before it asks whether the scene is ready. -/
def loses (k : ℕ) : Prop := Loses ((sceneGuard p).output ι k)

/-- The call `k` attempts to create the widgets, after it asked whether the scene
    is ready; or it is a reset. -/
def breaks (k : ℕ) : Prop := Creates ((sceneGuard p).output ι k) ∨ ι k = .reset

end sceneGuard

/-- What holds of the run of a guard with the policy `p`. -/
structure SceneProtocol (p : ScenePolicy) (ι : ℕ → SceneCall) : Prop where
  /-- The answers in what a tick outputs are those of its back-end. -/
  answered : ∀ n b, ι n = .tick b → AnsweredBy b ((sceneGuard p).output ι n)
  /-- A creation comes after enough ready answers in a row, since the last creation
      or reset and not before the last loss, and after the widgets were found
      missing. -/
  gate : ∀ n, Creates ((sceneGuard p).output ι n) →
    StreakUpTo (sceneGuard.asks p ι) (sceneGuard.loses p ι) (sceneGuard.breaks p ι) n
      (max 1 p.consecutiveReadySamples.toNat) ∧
    ∃ pre answer rest, (sceneGuard p).output ι n =
      pre ++ .sceneReady true :: .widgetsAlive false :: .createWidgetsOnce answer :: rest
  /-- A tick returns that it is ready if it last saw the widgets alive. -/
  ready : ∀ n b, ι n = .tick b → (((sceneGuard p).state ι (n + 1)).state = .ready ↔
    ((sceneGuard p).output ι n).getLast? = some (.widgetsAlive true))
  /-- From any call on, enough ticks that do not find the scene unready lead to a
      creation, or to a guard that is ready. -/
  progress : ∀ m, (∀ i < max 1 p.consecutiveReadySamples.toNat,
      ι (m + i) ≠ .reset ∧ sceneGuard.asks p ι (m + i) ≠ some false) →
    ∃ i < max 1 p.consecutiveReadySamples.toNat, Creates ((sceneGuard p).output ι (m + i)) ∨
      ((sceneGuard p).state ι (m + i + 1)).state = .ready
  counter : ∀ n, ((sceneGuard p).state ι n).consecutiveReady.toNat ≤ max 1 p.consecutiveReadySamples.toNat

theorem ScenePolicy.constructed_samples (p : ScenePolicy) :
    p.constructed.consecutiveReadySamples.toNat = max 1 p.consecutiveReadySamples.toNat := by
  rw [← UInt32.toNat_gate, constructed]
  split_ifs <;> rfl

namespace sceneGuard

variable {p : ScenePolicy} {ι : ℕ → SceneCall} {n : ℕ} {b : SceneBackend}

theorem ticks (h : ι n = .tick b) : ((sceneGuard p).state ι n).Ticks p.constructed
    ((sceneGuard p).state ι (n + 1)) ((sceneGuard p).output ι n) := by
  rw [Driven.state_succ, Driven.output, h]
  exact SceneGuard.tick_ticks _ _ _

theorem state_reset (h : ι n = .reset) : (sceneGuard p).state ι (n + 1) = {} := by
  rw [Driven.state_succ, h]
  rfl

theorem output_reset (h : ι n = .reset) : (sceneGuard p).output ι n = [] := by
  rw [Driven.output, h]
  rfl

theorem samples_pos (p : ScenePolicy) : 0 < p.constructed.consecutiveReadySamples :=
  UInt32.gate_pos p.constructed_samples

/-- The counter counts the ready answers in a row while the guard is not ready;
    it is then short of the gate, and at the gate once it is ready. -/
structure Counts (p : ScenePolicy) (ι : ℕ → SceneCall) (n : ℕ) (g : SceneGuard) : Prop where
  ready : g.state = .ready → g.consecutiveReady = p.constructed.consecutiveReadySamples
  short : g.state ≠ .ready → g.consecutiveReady < p.constructed.consecutiveReadySamples
  streak : g.state ≠ .ready →
    Streak (asks p ι) (loses p ι) (breaks p ι) n g.consecutiveReady.toNat

section Step

variable {g g' : SceneGuard} {qs : List SceneQuery}

/-- The counter starts afresh. -/
theorem Counts.afresh (hs : g.state ≠ .ready) (hc : g.consecutiveReady = 0) : Counts p ι n g := by
  refine ⟨fun h => absurd h hs, fun _ => hc ▸ samples_pos p, fun _ => ?_⟩
  rw [hc]
  exact .zero _ _ _ _

/-- Behind the gate, a tick counts on from a counter `c` that is short of it. -/
theorem Counts.gated (hg : g.Gated p.constructed g' qs)
    (hshort : g.consecutiveReady < p.constructed.consecutiveReadySamples) (hn : ι n ≠ .reset)
    (hc : Creates ((sceneGuard p).output ι n) → Creates qs)
    (hup : asked qs = some true →
      StreakUpTo (asks p ι) (loses p ι) (breaks p ι) n (g.consecutiveReady + 1).toNat) :
    Counts p ι (n + 1) g' := by
  cases hg with
  | unready | failed _ | unconfirmed _ => exact .afresh nofun rfl
  | stabilizes hlt =>
    refine ⟨nofun, fun _ => hlt, fun _ => (hup rfl).next ?_⟩
    rintro (hcreates | hreset)
    · exact absurd (hc hcreates) (by decide)
    · exact hn hreset
  | found hgate | created hgate =>
    exact ⟨fun _ => UInt32.succ_eq_of_gate hshort hgate, fun h => absurd rfl h, fun h => absurd rfl h⟩

/-- The last ready answers up to a tick, from the counter that it goes through the
    gate with. -/
theorem Counts.upTo (h : Counts p ι n g) (hs : g.state ≠ .ready) (hl : ¬loses p ι n)
    (ha : asks p ι n = some true) :
    StreakUpTo (asks p ι) (loses p ι) (breaks p ι) n (g.consecutiveReady + 1).toNat := by
  rw [UInt32.toNat_succ_of_lt (h.short hs)]
  exact (h.streak hs).upTo hl ha

/-- What is behind the gate asks for the scene first. -/
theorem not_loses_of_gated (hg : g.Gated p.constructed g' qs) : ¬Loses qs := by
  cases hg <;> decide

theorem Counts.tick (h : Counts p ι n g) (ht : g.Ticks p.constructed g' qs)
    (hq : (sceneGuard p).output ι n = qs) (hn : ι n ≠ .reset) : Counts p ι (n + 1) g' := by
  cases ht with
  | alive hs => exact ⟨h.ready, fun h => absurd hs h, fun h => absurd hs h⟩
  | lost _ hg =>
    -- The streak starts in the tick of the loss.
    refine .gated hg (samples_pos p) hn (fun h => ?_) fun ha => .first _ _ ?_
    · obtain ⟨answer, hmem⟩ := hq ▸ h
      exact ⟨answer, (List.mem_cons.1 hmem).resolve_left nofun⟩
    · rw [asks, hq]
      exact ha
  | gated hs hg =>
    refine .gated hg (h.short hs) hn (fun h => hq ▸ h) fun ha => h.upTo hs ?_ ?_
    · rw [loses, hq]
      exact not_loses_of_gated hg
    · rw [asks, hq]
      exact ha

end Step

/-- The counter means the same all along a run. -/
theorem counts (p : ScenePolicy) (ι : ℕ → SceneCall) (n : ℕ) :
    Counts p ι n ((sceneGuard p).state ι n) := by
  induction n with
  | zero => exact .afresh nofun rfl
  | succ n ih =>
    cases hn : ι n with
    | tick b => exact ih.tick (ticks hn) rfl (by simp [hn])
    | reset =>
      rw [state_reset hn]
      exact .afresh nofun rfl

/-! ### The parts of the protocol -/

theorem answered (hn : ι n = .tick b) : AnsweredBy b ((sceneGuard p).output ι n) := by
  rw [Driven.output, hn]
  show AnsweredBy b (SceneGuard.tick _ _ _).2
  rw [SceneGuard.tick, SceneGuard.gateTick, SceneGuard.gateTick]
  dsimp only
  split_ifs <;> constructor <;> simp [sceneAnswers, widgetsAnswers, createAnswers]

/-- A tick that creates is one at the gate. -/
theorem creates_of_gated {g g' : SceneGuard} {qs : List SceneQuery} (hg : g.Gated p.constructed g' qs)
    (h : Creates qs) : p.constructed.consecutiveReadySamples ≤ g.consecutiveReady + 1 ∧
      asked qs = some true ∧
      ∃ answer rest, qs = .sceneReady true :: .widgetsAlive false :: .createWidgetsOnce answer :: rest := by
  cases hg with
  | unready | stabilizes _ | found _ => exact absurd h (by decide)
  | failed hgate | unconfirmed hgate | created hgate => exact ⟨hgate, rfl, _, _, rfl⟩

theorem gate (p : ScenePolicy) (ι : ℕ → SceneCall) (h : Creates ((sceneGuard p).output ι n)) :
    StreakUpTo (asks p ι) (loses p ι) (breaks p ι) n (max 1 p.consecutiveReadySamples.toNat) ∧
    ∃ pre answer rest, (sceneGuard p).output ι n =
      pre ++ .sceneReady true :: .widgetsAlive false :: .createWidgetsOnce answer :: rest := by
  cases hn : ι n with
  | reset =>
    rw [output_reset hn] at h
    exact absurd h (by decide)
  | tick b =>
    have ht := ticks (p := p) hn
    have hc := counts p ι n
    rw [← p.constructed_samples]
    generalize hq : (sceneGuard p).output ι n = qs at h ht
    generalize (sceneGuard p).state ι (n + 1) = g' at ht
    cases ht with
    | alive _ => exact absurd h (by decide)
    | lost _ hg =>
      obtain ⟨answer, hmem⟩ := h
      obtain ⟨hgate, ha, answer, rest, hqs⟩ :=
        creates_of_gated hg ⟨answer, (List.mem_cons.1 hmem).resolve_left nofun⟩
      refine ⟨?_, [.widgetsAlive false], answer, rest, congrArg (.widgetsAlive false :: ·) hqs⟩
      rw [← UInt32.succ_eq_of_gate (samples_pos p) hgate]
      refine .first _ _ ?_
      rw [asks, hq]
      exact ha
    | gated hs hg =>
      obtain ⟨hgate, ha, answer, rest, hqs⟩ := creates_of_gated hg h
      refine ⟨?_, [], answer, rest, hqs⟩
      rw [← UInt32.succ_eq_of_gate (hc.short hs) hgate]
      refine hc.upTo hs ?_ ?_
      · rw [loses, hq]
        exact not_loses_of_gated hg
      · rw [asks, hq]
        exact ha

theorem ready_iff_of_gated {g g' : SceneGuard} {qs : List SceneQuery} (hg : g.Gated p.constructed g' qs) :
    qs ≠ [] ∧ (g'.state = .ready ↔ qs.getLast? = some (.widgetsAlive true)) := by
  cases hg with
  | unready | stabilizes _ | failed _ | unconfirmed _ => exact ⟨nofun, iff_of_false nofun (by decide)⟩
  | found _ | created _ => exact ⟨nofun, iff_of_true rfl rfl⟩

theorem ready_iff (hn : ι n = .tick b) : ((sceneGuard p).state ι (n + 1)).state = .ready ↔
    ((sceneGuard p).output ι n).getLast? = some (.widgetsAlive true) := by
  have ht := ticks (p := p) hn
  generalize (sceneGuard p).output ι n = qs at ht
  generalize (sceneGuard p).state ι (n + 1) = g' at ht
  cases ht with
  | alive hs => exact iff_of_true hs rfl
  | gated _ hg => exact (ready_iff_of_gated hg).2
  | lost _ hg =>
    obtain ⟨hne, hiff⟩ := ready_iff_of_gated hg
    obtain ⟨q, qs, rfl⟩ := List.exists_cons_of_ne_nil hne
    rw [hiff, List.getLast?_cons_cons]

/-- A tick that neither creates nor becomes ready counts, unless the scene is not
    ready. -/
theorem counted_of_gated {g g' : SceneGuard} {qs : List SceneQuery} (hg : g.Gated p.constructed g' qs)
    (hshort : g.consecutiveReady < p.constructed.consecutiveReadySamples) (ha : asked qs ≠ some false)
    (hc : ¬Creates qs) (hr : g'.state ≠ .ready) :
    g'.consecutiveReady.toNat = g.consecutiveReady.toNat + 1 := by
  cases hg with
  | unready => exact absurd rfl ha
  | stabilizes _ => exact UInt32.toNat_succ_of_lt hshort
  | found _ | created _ => exact absurd rfl hr
  | failed _ | unconfirmed _ => exact absurd (by decide) hc

theorem progress (p : ScenePolicy) (ι : ℕ → SceneCall) (m : ℕ)
    (h : ∀ i < max 1 p.consecutiveReadySamples.toNat, ι (m + i) ≠ .reset ∧
      asks p ι (m + i) ≠ some false) :
    ∃ i < max 1 p.consecutiveReadySamples.toNat, Creates ((sceneGuard p).output ι (m + i)) ∨
      ((sceneGuard p).state ι (m + i + 1)).state = .ready := by
  rw [← p.constructed_samples] at h ⊢
  by_contra hnone
  push Not at hnone
  -- Otherwise every tick counts, so that the counter is not short of the gate.
  have hcounted : ∀ i ≤ p.constructed.consecutiveReadySamples.toNat,
      i ≤ ((sceneGuard p).state ι (m + i)).consecutiveReady.toNat ∧
        (0 < i → ((sceneGuard p).state ι (m + i)).state ≠ .ready) := by
    intro i
    induction i with
    | zero => exact fun _ => ⟨Nat.zero_le _, fun h => absurd h (lt_irrefl 0)⟩
    | succ i ih =>
      intro hi
      obtain ⟨hle, hnot⟩ := ih (Nat.le_of_succ_le hi)
      obtain ⟨hreset, ha⟩ := h i hi
      obtain ⟨hc, hr⟩ := hnone i hi
      have hcs := counts p ι (m + i)
      cases hn : ι (m + i) with
      | reset => exact absurd hn hreset
      | tick b =>
        refine ⟨?_, fun _ => hr⟩
        have ht := ticks (p := p) hn
        rw [asks] at ha
        rw [← add_assoc]
        generalize (sceneGuard p).output ι (m + i) = qs at ha hc ht
        generalize (sceneGuard p).state ι (m + i + 1) = g' at hr ht
        cases ht with
        | alive hs => exact absurd hs hr
        | lost hs hg =>
          have hzero : i = 0 := Nat.eq_zero_of_not_pos fun h => hnot h hs
          have hone := counted_of_gated hg (samples_pos p) ha
            (fun ⟨answer, hmem⟩ => hc ⟨answer, List.mem_cons_of_mem _ hmem⟩) hr
          rw [hzero, hone]
          exact Nat.le_add_left _ _
        | gated hs hg =>
          rw [counted_of_gated hg (hcs.short hs) ha hc hr]
          exact Nat.succ_le_succ hle
  have hpos : 0 < p.constructed.consecutiveReadySamples.toNat := samples_pos p
  obtain ⟨hle, hnot⟩ := hcounted _ le_rfl
  exact absurd hle (not_le.2 ((counts p ι _).short (hnot hpos)))

theorem counter_le (p : ScenePolicy) (ι : ℕ → SceneCall) (n : ℕ) :
    ((sceneGuard p).state ι n).consecutiveReady.toNat ≤ max 1 p.consecutiveReadySamples.toNat := by
  rw [← p.constructed_samples]
  exact UInt32.toNat_le_gate (counts p ι n).ready (counts p ι n).short

end sceneGuard

/-- The scene guard keeps to its protocol, whatever its back-end answers. -/
theorem scene_protocol (p : ScenePolicy) (ι : ℕ → SceneCall) : SceneProtocol p ι where
  answered _ _ := sceneGuard.answered
  gate _ := sceneGuard.gate p ι
  ready _ _ := sceneGuard.ready_iff
  progress := sceneGuard.progress p ι
  counter := sceneGuard.counter_le p ι

/-- The scene is not ready, then ready; the widgets are lost in the fifth tick. -/
def losingCalls (n : ℕ) : SceneCall :=
  .tick ⟨n < 4, 0 < n, false, true, true⟩

/-- The widgets are created in the second ready tick, and again, the tick of the
    loss being the first of two. -/
theorem scene_protocol_losing : SceneProtocol {} losingCalls ∧
    Creates ((sceneGuard {}).output losingCalls 2) ∧
    Loses ((sceneGuard {}).output losingCalls 4) ∧ ¬Creates ((sceneGuard {}).output losingCalls 4) ∧
    Creates ((sceneGuard {}).output losingCalls 5) :=
  ⟨scene_protocol {} losingCalls, by decide, by decide, by decide, by decide⟩

end CommonFps
