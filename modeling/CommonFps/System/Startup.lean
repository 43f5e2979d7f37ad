import CommonFps.ShellUi.Handshake
import CommonFps.System.RendererThread

/-!
# The start of the renderer

The thread of the renderer in ShellUI, from its entry (`elf_main`) to the loop in
which it receives packets: it tries to get at the managed runtime once a second,
for a minute; once everything is found it has ShellUI patched, once and for all;
then it binds its socket, and leaves a marker. All this time the controller, who
applies the patch, looks for the marker. The thread never returns: where something
fails for good, it parks.

* `startup`: the thread, the controller's part of the handshake and the marker,
  one step at a time, in any order;
* `startup_world`: within it, the handshake runs as on its own;
* `StartupInv`: what a phase of the thread says of what was done;
* `renderer_starts_once`: ShellUI is patched at most once, by at most four
  requests, however often the runtime was not found;
* `renderer_online`: a controller that takes the renderer for online is right.
-/

namespace CommonFps

/-- What an attempt of `initialize_runtime` finds of the managed runtime. -/
structure RuntimeAnswers where
  rootDomain : Bool
  images : Bool
  findSceneMethod : Bool
  gameScene : Bool

/-- Everything is found that the patch is made for. -/
def RuntimeAnswers.prepared (a : RuntimeAnswers) : Bool :=
  a.rootDomain && a.images && a.findSceneMethod && a.gameScene

/-- How the calls of `initialize_receiver` end. -/
structure ReceiverAnswers where
  socket : Bool
  timeout : Bool
  bind : Bool

/-- The number of attempts of `elf_main`. -/
def kRuntimeAttempts : ℕ := 60

/-- Where the thread is. -/
inductive EntryPhase
  /-- It is about to make the attempt of this number. -/
  | starting (attempt : ℕ)
  /-- It has ShellUI patched, in the attempt of this number. -/
  | patching (attempt : ℕ)
  | binding
  | marking
  | receiving
  | parked
  deriving DecidableEq

/-- The thread has ShellUI patched. -/
def EntryPhase.patches : EntryPhase → Bool
  | .patching _ => true
  | _ => false

/-- The patch of this outcome lets the thread itself draw (`MainThreadGuardResult::Installed`). -/
def InitOutcome.guards : InitOutcome → Bool
  | .guardDisabled => true
  | .guardInstalled => true
  | _ => false

/-- The renderer's thread, and the handshake that it takes part in. -/
structure Startup where
  phase : EntryPhase := .starting 0
  runtimeReady : Bool := false
  hookAttempted : Bool := false
  backgroundRenderMode : Bool := false
  /-- The receiver has its socket (`g_receiver_fd >= 0`). -/
  receiverBound : Bool := false
  /-- The process that the marker file names. -/
  marker : Option Int32
  world : Handshake

/-- A step of the thread or of the controller, and its outcome. -/
inductive StartupAction
  | attempt (a : RuntimeAnswers)
  | handshake (a : Action)
  | bind (a : ReceiverAnswers)
  /-- The marker is opened, and then written. -/
  | mark (opened written : Bool)
  | checkMarker

/-- The step is one of the renderer. -/
def Action.ofRenderer : Action → Bool
  | .openRequest | .writeRequest _ _ | .readAck | .giveUp => true
  | _ => false

namespace Startup

/-- After an attempt that failed. -/
def retry (s : Startup) (attempt : ℕ) : Startup :=
  { s with phase := if attempt + 1 < kRuntimeAttempts then .starting (attempt + 1) else .parked }

/-- What `initialize_runtime` does once ShellUI was patched, or was not. -/
def patched (s : Startup) (attempt : ℕ) : InitOutcome → Startup
  | .failed => s.retry attempt
  | outcome =>
    { s with runtimeReady := true, backgroundRenderMode := outcome.guards, phase := .binding }

/-- The handshake may have ended. -/
def shaken (s : Startup) : Startup :=
  match s.phase, s.world.renderer with
  | .patching attempt, .ended outcome => s.patched attempt outcome
  | _, _ => s

/-- The renderer takes steps of the handshake while the thread has ShellUI patched. -/
def mayShake (s : Startup) (a : Action) : Bool := !a.ofRenderer || s.phase.patches

/-- A step of the thread or of the handshake. -/
def step (env : RendererEnv) (sdk : UInt32) (s : Startup) : StartupAction → Startup × Option Bool
  | .attempt a =>
    match s.phase with
    | .starting attempt =>
      if s.runtimeReady then ({ s with phase := .binding }, none)
      else if s.hookAttempted then (s.retry attempt, none)
      else if a.prepared then ({ s with phase := .patching attempt, hookAttempted := true }, none)
      else (s.retry attempt, none)
    | _ => (s, none)
  | .handshake a =>
    if s.mayShake a then (shaken { s with world := (s.world.step env sdk a).1 }, none)
    else (s, none)
  | .bind a =>
    match s.phase with
    | .binding =>
      if a.socket && a.timeout && a.bind then ({ s with receiverBound := true, phase := .marking }, none)
      else ({ s with phase := .parked }, none)
    | _ => (s, none)
  | .mark opened written =>
    match s.phase with
    | .marking =>
      ({ s with
          phase := .receiving
          marker := if opened then if written then some env.pid else none else s.marker }, none)
    | _ => (s, none)
  | .checkMarker => (s, some (decide (s.marker = some env.pid)))

end Startup

/-- A start of the renderer, from a marker and a kernel; a step tells whether the controller has
    found the marker. -/
def startup (env : RendererEnv) (sdk : UInt32) (marker : Option Int32) (k₀ : Kernel) :
    Driven Startup StartupAction (Option Bool) where
  init := { marker, world := (handshake env sdk k₀).init }
  step := Startup.step env sdk

/-! ## The handshake within -/

/-- An action that does nothing. -/
def Handshake.idle (s : Handshake) : Action :=
  match s.renderer with
  | .ready _ _ => .writeRequest false false
  | _ => .openRequest

theorem Handshake.step_idle (env : RendererEnv) (sdk : UInt32) (s : Handshake) :
    (s.step env sdk s.idle).1 = s := by
  obtain ⟨renderer, controller, requestFile, ackFile, kernel, sent⟩ := s
  cases renderer <;> rfl

namespace Startup

/-- What a step does to the handshake. -/
def worldAction (s : Startup) : StartupAction → Action
  | .handshake a => if s.mayShake a then a else s.world.idle
  | _ => s.world.idle

@[simp] theorem retry_world (s : Startup) (k : ℕ) : (s.retry k).world = s.world := rfl

theorem shaken_world (s : Startup) : s.shaken.world = s.world := by
  rw [shaken]
  split
  · next outcome _ _ => cases outcome <;> rfl
  · rfl

theorem world_step (env : RendererEnv) (sdk : UInt32) (s : Startup) (a : StartupAction) :
    (s.step env sdk a).1.world = (s.world.step env sdk (s.worldAction a)).1 := by
  cases a with
  | attempt a =>
    refine Eq.trans ?_ (s.world.step_idle env sdk).symm
    rw [step]
    split
    · split_ifs <;> rfl
    · rfl
  | handshake a =>
    rw [step, worldAction]
    split_ifs
    · exact shaken_world _
    · exact (s.world.step_idle env sdk).symm
  | bind a =>
    refine Eq.trans ?_ (s.world.step_idle env sdk).symm
    rw [step]
    split
    · split_ifs <;> rfl
    · rfl
  | mark opened written =>
    refine Eq.trans ?_ (s.world.step_idle env sdk).symm
    rw [step]
    split <;> rfl
  | checkMarker => exact (s.world.step_idle env sdk).symm

end Startup

/-! ## What a step does -/

/-- The controller's steps leave the renderer where it is, and send no request. -/
theorem Handshake.step_renderer {env : RendererEnv} {sdk : UInt32} {s : Handshake} {a : Action}
    (h : a.ofRenderer = false) :
    (s.step env sdk a).1.renderer = s.renderer ∧ (s.step env sdk a).1.sent = s.sent := by
  obtain ⟨renderer, controller, requestFile, ackFile, kernel, sent⟩ := s
  cases a with
  | openRequest => cases h
  | writeRequest => cases h
  | readAck => cases h
  | giveUp => cases h
  | poll => cases controller <;> cases requestFile <;> exact ⟨rfl, rfl⟩
  | unlinkRequest => cases controller <;> exact ⟨rfl, rfl⟩
  | apply => cases controller <;> exact ⟨rfl, rfl⟩
  | writeAck => cases controller <;> exact ⟨rfl, rfl⟩

namespace Startup

/-- The steps of a start, from the state `s`, that leave it in the state `s'`. -/
inductive Moves (env : RendererEnv) (s : Startup) : Startup → Prop
  | stays : Moves env s s
  | shakes (world : Handshake)
      (hkept : s.phase.patches = false → world.renderer = s.world.renderer ∧ world.sent = s.world.sent)
      (hgoes : s.phase.patches = true → ∀ outcome, world.renderer ≠ .ended outcome) :
      Moves env s { s with world := world }
  | begins {k : ℕ} (hphase : s.phase = .starting k) (hfirst : s.hookAttempted = false) :
      Moves env s { s with phase := .patching k, hookAttempted := true }
  | retries {k : ℕ} (hphase : s.phase = .starting k) : Moves env s (s.retry k)
  | fails {k : ℕ} (hphase : s.phase = .patching k) (world : Handshake) :
      Moves env s (retry { s with world := world } k)
  | ends {k : ℕ} (hphase : s.phase = .patching k) (world : Handshake) {outcome : InitOutcome}
      (hended : world.renderer = .ended outcome) (hwell : outcome ≠ .failed) :
      Moves env s { s with
        world := world, runtimeReady := true, backgroundRenderMode := outcome.guards, phase := .binding }
  | resumes {k : ℕ} (hphase : s.phase = .starting k) (hready : s.runtimeReady = true) :
      Moves env s { s with phase := .binding }
  | binds (hphase : s.phase = .binding) : Moves env s { s with receiverBound := true, phase := .marking }
  | parks (hphase : s.phase = .binding) : Moves env s { s with phase := .parked }
  | marks (hphase : s.phase = .marking) (marker : Option Int32) :
      Moves env s { s with phase := .receiving, marker := marker }

theorem shaken_cases (s : Startup) :
    s.shaken = s ∧ (s.phase.patches = true → ∀ outcome, s.world.renderer ≠ .ended outcome) ∨
      ∃ k outcome, s.phase = .patching k ∧ s.world.renderer = .ended outcome ∧
        s.shaken = s.patched k outcome := by
  rw [shaken]
  split
  · next k outcome hphase hended => exact .inr ⟨k, outcome, hphase, hended, rfl⟩
  · next hother =>
    refine .inl ⟨rfl, fun hpatches outcome hended => ?_⟩
    cases hphase : s.phase with
    | patching k => exact hother k outcome hphase hended
    | _ => rw [hphase] at hpatches; cases hpatches

/-- Every step is one of these. -/
theorem moves_step (env : RendererEnv) (sdk : UInt32) (s : Startup) (a : StartupAction) :
    s.Moves env (s.step env sdk a).1 := by
  cases a with
  | attempt a =>
    rw [step]
    split
    · next k hphase =>
      split_ifs with hready hattempted hprepared
      · exact .resumes hphase hready
      · exact .retries hphase
      · exact .begins hphase (Bool.eq_false_iff.2 hattempted)
      · exact .retries hphase
    · exact .stays
  | handshake a =>
    rw [step]
    split_ifs with hmay
    · have hkept (hphase : s.phase.patches = false) :
          (s.world.step env sdk a).1.renderer = s.world.renderer ∧
            (s.world.step env sdk a).1.sent = s.world.sent := by
        refine Handshake.step_renderer ?_
        rwa [mayShake, hphase, Bool.or_false, Bool.not_eq_true'] at hmay
      generalize (s.world.step env sdk a).1 = world at hkept
      rcases shaken_cases { s with world := world } with
        ⟨hshaken, hgoes⟩ | ⟨k, outcome, hphase, hended, hshaken⟩
      · rw [hshaken]
        exact .shakes world hkept hgoes
      · have hphase : s.phase = .patching k := hphase
        rw [hshaken]
        cases outcome with
        | failed => exact .fails hphase world
        | _ => exact .ends hphase world hended (by decide)
    · exact .stays
  | bind a =>
    rw [step]
    split
    · next hphase =>
      split_ifs
      · exact .binds hphase
      · exact .parks hphase
    · exact .stays
  | mark opened written =>
    rw [step]
    split
    · next hphase => exact .marks hphase _
    · exact .stays
  | checkMarker => exact .stays

end Startup

section Runs

variable (env : RendererEnv) (sdk : UInt32) (marker : Option Int32) (k₀ : Kernel) (ι : ℕ → StartupAction)

/-- The start before the step `n`. -/
def startupState (n : ℕ) : Startup := (startup env sdk marker k₀).state ι n

/-- The steps of the handshake within. -/
def worldActions (n : ℕ) : Action := (startupState env sdk marker k₀ ι n).worldAction (ι n)

/-- Within the start, the handshake runs as on its own. -/
theorem startup_world (n : ℕ) : (startupState env sdk marker k₀ ι n).world =
    handshakeState env sdk k₀ (worldActions env sdk marker k₀ ι) n :=
  Driven.state_of_part (handshake env sdk k₀) Startup.world Startup.worldAction rfl
    (Startup.world_step env sdk) n

end Runs

/-! ## Where the thread is -/

/-- The runtime is ready: ShellUI is patched, and the thread draws itself if the patch lets it. -/
structure Startup.Ready (s : Startup) : Prop where
  runtime : s.runtimeReady = true
  ended : ∃ outcome, outcome ≠ .failed ∧ s.world.renderer = .ended outcome ∧
    s.backgroundRenderMode = outcome.guards

/-- What a phase of the thread says of what was done. -/
def StartupInv (env : RendererEnv) (s : Startup) : Prop :=
  match s.phase with
  | .starting k => s.marker ≠ some env.pid ∧ k < kRuntimeAttempts ∧ s.runtimeReady = false
  | .patching k =>
    s.marker ≠ some env.pid ∧ k < kRuntimeAttempts ∧ s.runtimeReady = false ∧ s.hookAttempted = true
  | .binding => s.marker ≠ some env.pid ∧ s.Ready
  | .marking => s.marker ≠ some env.pid ∧ s.Ready ∧ s.receiverBound = true
  | .receiving => s.Ready ∧ s.receiverBound = true
  | .parked => s.marker ≠ some env.pid

namespace Startup

variable {env : RendererEnv} {s s' : Startup}

/-- A retry is made while there are attempts left. -/
theorem retry_inv {world : Handshake} {k : ℕ} (hmarker : s.marker ≠ some env.pid)
    (hready : s.runtimeReady = false) : StartupInv env (retry { s with world := world } k) := by
  by_cases hk : k + 1 < kRuntimeAttempts
  · rw [retry, if_pos hk]
    exact ⟨hmarker, hk, hready⟩
  · rw [retry, if_neg hk]
    exact hmarker

/-- A move keeps the invariant. -/
theorem Moves.inv (h : s.Moves env s') (hs : StartupInv env s) : StartupInv env s' := by
  cases h with
  | stays => exact hs
  | shakes world hkept hgoes =>
    have hready (hphase : s.phase.patches = false) (h : s.Ready) : Ready { s with world := world } := by
      obtain ⟨outcome, hwell, hended, hmode⟩ := h.ended
      exact ⟨h.runtime, outcome, hwell, (hkept hphase).1.trans hended, hmode⟩
    rw [StartupInv] at hs ⊢
    cases hphase : s.phase with
    | starting k => rw [hphase] at hs; exact hs
    | patching k => rw [hphase] at hs; exact hs
    | parked => rw [hphase] at hs; exact hs
    | binding =>
      rw [hphase] at hs hready
      exact ⟨hs.1, hready rfl hs.2⟩
    | marking =>
      rw [hphase] at hs hready
      exact ⟨hs.1, hready rfl hs.2.1, hs.2.2⟩
    | receiving =>
      rw [hphase] at hs hready
      exact ⟨hready rfl hs.1, hs.2⟩
  | begins hphase =>
    rw [StartupInv, hphase] at hs
    exact ⟨hs.1, hs.2.1, hs.2.2, rfl⟩
  | retries hphase =>
    rw [StartupInv, hphase] at hs
    exact retry_inv hs.1 hs.2.2
  | fails hphase world =>
    rw [StartupInv, hphase] at hs
    exact retry_inv hs.1 hs.2.2.1
  | ends hphase world hended hwell =>
    rw [StartupInv, hphase] at hs
    exact ⟨hs.1, rfl, _, hwell, hended, rfl⟩
  | resumes hphase hready =>
    rw [StartupInv, hphase] at hs
    exact absurd (hs.2.2.symm.trans hready) Bool.false_ne_true
  | binds hphase =>
    rw [StartupInv, hphase] at hs
    exact ⟨hs.1, ⟨hs.2.runtime, hs.2.ended⟩, rfl⟩
  | parks hphase =>
    rw [StartupInv, hphase] at hs
    exact hs.1
  | marks hphase marker =>
    rw [StartupInv, hphase] at hs
    exact ⟨⟨hs.2.1.runtime, hs.2.1.ended⟩, hs.2.2⟩

/-- Nothing is sent before the attempt to patch ShellUI. -/
theorem Moves.sent (h : s.Moves env s') (hs : StartupInv env s) (hs' : s'.hookAttempted = false) :
    s'.world.sent = s.world.sent := by
  have hnot {k : ℕ} (hphase : s.phase = .patching k) (hattempted : s.hookAttempted = false) : False := by
    rw [StartupInv, hphase] at hs
    exact Bool.false_ne_true (hattempted.symm.trans hs.2.2.2)
  cases h with
  | shakes world hkept =>
    refine (hkept ?_).2
    cases hphase : s.phase with
    | patching k => exact (hnot hphase hs').elim
    | _ => rfl
  | fails hphase => exact (hnot hphase hs').elim
  | ends hphase => exact (hnot hphase hs').elim
  | _ => rfl

/-- ShellUI is not patched again after an attempt. -/
theorem Moves.attempted (h : s.Moves env s') (hs : s.hookAttempted = true) : s'.hookAttempted = true := by
  cases h with
  | begins => rfl
  | _ => exact hs

theorem retry_patches (k : ℕ) : (s.retry k).phase.patches = false := by
  rw [retry]
  split_ifs <;> rfl

/-- The patch is begun in the first attempt of it. -/
theorem Moves.begun (h : s.Moves env s') (hs : s.phase.patches = false) (hs' : s'.phase.patches = true) :
    s.hookAttempted = false ∧ s'.hookAttempted = true := by
  have hnot (hkept : s'.phase.patches = false) : False := Bool.false_ne_true (hkept.symm.trans hs')
  cases h with
  | begins hphase hfirst => exact ⟨hfirst, rfl⟩
  | retries => exact (hnot (retry_patches _)).elim
  | fails => exact (hnot (retry_patches _)).elim
  | stays => exact (hnot hs).elim
  | shakes => exact (hnot hs).elim
  | ends => cases hs'
  | resumes => cases hs'
  | binds => cases hs'
  | parks => cases hs'
  | marks => cases hs'

theorem shaken_flags (s : Startup) :
    s.shaken.hookAttempted = s.hookAttempted ∧ s.shaken.receiverBound = s.receiverBound := by
  obtain ⟨hsame, -⟩ | ⟨k, outcome, -, -, hshaken⟩ := s.shaken_cases
  · exact ⟨congrArg _ hsame, congrArg _ hsame⟩
  · rw [hshaken]
    cases outcome <;> exact ⟨rfl, rfl⟩

/-- ShellUI is only patched after an attempt that found everything. -/
theorem found_of_attempted {sdk : UInt32} {a : StartupAction} (hs : ¬s.hookAttempted = true)
    (hs' : (s.step env sdk a).1.hookAttempted = true) :
    (∃ k, s.phase = .starting k) ∧ a = .attempt ⟨true, true, true, true⟩ := by
  cases a with
  | attempt a =>
    rw [step] at hs'
    split at hs'
    · next k hphase =>
      split_ifs at hs' with hready hprepared
      · exact absurd hs' hs
      · refine ⟨⟨k, hphase⟩, congrArg _ ?_⟩
        obtain ⟨rootDomain, images, findSceneMethod, gameScene⟩ := a
        simp only [RuntimeAnswers.prepared, Bool.and_eq_true] at hprepared
        obtain ⟨⟨⟨rfl, rfl⟩, rfl⟩, rfl⟩ := hprepared
        rfl
      · exact absurd hs' hs
    · exact absurd hs' hs
  | handshake a =>
    rw [step] at hs'
    split_ifs at hs'
    · rw [(shaken_flags _).1] at hs'
      exact absurd hs' hs
    · exact absurd hs' hs
  | bind a =>
    rw [step] at hs'
    split at hs'
    · split_ifs at hs' <;> exact absurd hs' hs
    · exact absurd hs' hs
  | mark opened written =>
    rw [step] at hs'
    split at hs' <;> exact absurd hs' hs
  | checkMarker => exact absurd hs' hs

/-- The receiver has its socket after all of its calls have succeeded. -/
theorem bound_of_receiverBound {sdk : UInt32} {a : StartupAction} (hs : ¬s.receiverBound = true)
    (hs' : (s.step env sdk a).1.receiverBound = true) :
    s.phase = .binding ∧ a = .bind ⟨true, true, true⟩ := by
  cases a with
  | attempt a =>
    rw [step] at hs'
    split at hs'
    · split_ifs at hs' <;> exact absurd hs' hs
    · exact absurd hs' hs
  | handshake a =>
    rw [step] at hs'
    split_ifs at hs'
    · rw [(shaken_flags _).2] at hs'
      exact absurd hs' hs
    · exact absurd hs' hs
  | bind a =>
    rw [step] at hs'
    split at hs'
    · next hphase =>
      split_ifs at hs' with hall
      · refine ⟨hphase, congrArg _ ?_⟩
        obtain ⟨socket, timeout, bind⟩ := a
        simp only [Bool.and_eq_true] at hall
        obtain ⟨⟨rfl, rfl⟩, rfl⟩ := hall
        rfl
      · exact absurd hs' hs
    · exact absurd hs' hs
  | mark opened written =>
    rw [step] at hs'
    split at hs' <;> exact absurd hs' hs
  | checkMarker => exact absurd hs' hs

/-- A thread that receives or is parked does so for good. -/
theorem Moves.rests (h : s.Moves env s') (hs : s.phase = .receiving ∨ s.phase = .parked) :
    s'.phase = s.phase ∧ s'.backgroundRenderMode = s.backgroundRenderMode := by
  have hnot {phase : EntryPhase} (hphase : s.phase = phase) (hr : phase ≠ .receiving)
    (hp : phase ≠ .parked) :
      False := hs.elim (fun h => hr (hphase.symm.trans h)) fun h => hp (hphase.symm.trans h)
  cases h with
  | stays => exact ⟨rfl, rfl⟩
  | shakes => exact ⟨rfl, rfl⟩
  | begins hphase => exact (hnot hphase nofun nofun).elim
  | retries hphase => exact (hnot hphase nofun nofun).elim
  | fails hphase => exact (hnot hphase nofun nofun).elim
  | ends hphase => exact (hnot hphase nofun nofun).elim
  | resumes hphase => exact (hnot hphase nofun nofun).elim
  | binds hphase => exact (hnot hphase nofun nofun).elim
  | parks hphase => exact (hnot hphase nofun nofun).elim
  | marks hphase => exact (hnot hphase nofun nofun).elim

end Startup

section Runs

variable {env : RendererEnv} {sdk : UInt32} {marker : Option Int32} {k₀ : Kernel} {ι : ℕ → StartupAction}

theorem moves (env : RendererEnv) (sdk : UInt32) (marker : Option Int32) (k₀ : Kernel)
    (ι : ℕ → StartupAction) (n : ℕ) :
    (startupState env sdk marker k₀ ι n).Moves env (startupState env sdk marker k₀ ι (n + 1)) :=
  Startup.moves_step env sdk _ (ι n)

theorem startup_inv (hmarker : marker ≠ some env.pid) (n : ℕ) :
    StartupInv env (startupState env sdk marker k₀ ι n) :=
  Driven.invariant (d := startup env sdk marker k₀) (P := fun _ s => StartupInv env s)
    ⟨hmarker, by decide, rfl⟩ (fun n hn => (moves env sdk marker k₀ ι n).inv hn) n

theorem attempted_of_le {m n : ℕ} (hmn : m ≤ n)
    (h : (startupState env sdk marker k₀ ι m).hookAttempted = true) :
    (startupState env sdk marker k₀ ι n).hookAttempted = true := by
  induction n, hmn using Nat.le_induction with
  | base => exact h
  | succ n _ ih => exact (moves env sdk marker k₀ ι n).attempted ih

theorem rests_of_le {m n : ℕ} (hmn : m ≤ n) (h : (startupState env sdk marker k₀ ι m).phase =
    .receiving ∨
    (startupState env sdk marker k₀ ι m).phase = .parked) :
    (startupState env sdk marker k₀ ι n).phase = (startupState env sdk marker k₀ ι m).phase ∧
      (startupState env sdk marker k₀ ι n).backgroundRenderMode =
        (startupState env sdk marker k₀ ι m).backgroundRenderMode := by
  induction n, hmn using Nat.le_induction with
  | base => exact ⟨rfl, rfl⟩
  | succ n _ ih =>
    obtain ⟨hphase, hmode⟩ := (moves env sdk marker k₀ ι n).rests (by rwa [ih.1])
    exact ⟨hphase.trans ih.1, hmode.trans ih.2⟩

/-- In the step `n` an attempt is made that finds all of the managed runtime. -/
def FindsRuntime (env : RendererEnv) (sdk : UInt32) (marker : Option Int32) (k₀ : Kernel)
    (ι : ℕ → StartupAction) (n : ℕ) : Prop :=
  (∃ k, (startupState env sdk marker k₀ ι n).phase = .starting k) ∧
    ι n = .attempt ⟨true, true, true, true⟩

/-- In the step `n` the receiver gets its socket, with its timeout and its port. -/
def BindsReceiver (env : RendererEnv) (sdk : UInt32) (marker : Option Int32) (k₀ : Kernel)
    (ι : ℕ → StartupAction) (n : ℕ) : Prop :=
  (startupState env sdk marker k₀ ι n).phase = .binding ∧ ι n = .bind ⟨true, true, true⟩

/-- An attempt to patch ShellUI comes after one that found the managed runtime. -/
theorem exists_findsRuntime {n : ℕ} (h : (startupState env sdk marker k₀ ι n).hookAttempted = true) :
    ∃ m < n, FindsRuntime env sdk marker k₀ ι m := by
  obtain ⟨m, hm, hbefore, hafter⟩ := Driven.exists_raised (d := startup env sdk marker k₀)
    (P := fun s => s.hookAttempted = true) Bool.false_ne_true h
  exact ⟨m, hm, Startup.found_of_attempted hbefore hafter⟩

theorem exists_bindsReceiver {n : ℕ} (h : (startupState env sdk marker k₀ ι n).receiverBound = true) :
    ∃ m < n, BindsReceiver env sdk marker k₀ ι m := by
  obtain ⟨m, hm, hbefore, hafter⟩ := Driven.exists_raised (d := startup env sdk marker k₀)
    (P := fun s => s.receiverBound = true) Bool.false_ne_true h
  exact ⟨m, hm, Startup.bound_of_receiverBound hbefore hafter⟩

/-- Until the managed runtime is found, no request is sent. -/
theorem sent_of_not_attempted (hmarker : marker ≠ some env.pid) {n : ℕ}
    (h : (startupState env sdk marker k₀ ι n).hookAttempted = false) :
    (startupState env sdk marker k₀ ι n).world.sent = [] := by
  induction n with
  | zero => rfl
  | succ n ih =>
    have hmove := moves env sdk marker k₀ ι n
    rw [hmove.sent (startup_inv hmarker n) h]
    refine ih (Bool.eq_false_iff.2 fun hbefore => ?_)
    exact Bool.false_ne_true (h.symm.trans (hmove.attempted hbefore))

end Runs

/-! ## Requests -/

/-- The number of the requests before that of a stage. -/
def Stage.number : Stage → ℕ
  | .guardProbe => 0
  | .guard => 1
  | .updateProbe => 2
  | .updatePatch => 3

/-- The number of the requests sent, from where the renderer is. -/
def Renderer.Counts (n : ℕ) : Renderer → Prop
  | .ready stage _ => n = stage.number
  | .opened stage _ => n = stage.number + 1
  | .waiting stage _ => n = stage.number + 1
  | .ended _ => n ≤ 4

theorem Renderer.Counts.le {n : ℕ} {r : Renderer} (h : r.Counts n) : n ≤ 4 := by
  cases r with
  | ready stage => cases stage <;> exact h.trans_le (by decide)
  | opened stage => cases stage <;> exact h.trans_le (by decide)
  | waiting stage => cases stage <;> exact h.trans_le (by decide)
  | ended => exact h

/-- An acknowledgement leads to the next request, or to none. -/
theorem afterAck_counts (env : RendererEnv) (stage : Stage) (ack : ShellUiHookAck) :
    (afterAck env stage ack).Counts (stage.number + 1) := by
  have hended (outcome : InitOutcome) : (Renderer.ended outcome).Counts (stage.number + 1) := by
    cases stage <;> simp [Renderer.Counts, Stage.number]
  cases stage with
  | guardProbe =>
    rw [afterAck]
    split_ifs
    · exact hended _
    · exact rfl
    · exact hended _
  | guard =>
    rw [afterAck]
    split_ifs
    · exact rfl
    · exact hended _
    · exact hended _
  | updateProbe =>
    rw [afterAck]
    split_ifs
    · cases prepareUpdate env false ack.observed with
      | online => exact hended _
      | refused => exact hended _
      | request r => exact rfl
    · exact hended _
  | updatePatch =>
    rw [afterAck]
    split_ifs
    · exact hended _
    · exact hended _

theorem Handshake.step_counts {env : RendererEnv} {sdk : UInt32} {s : Handshake}
    (h : s.renderer.Counts s.sent.length) (a : Action) :
    (s.step env sdk a).1.renderer.Counts (s.step env sdk a).1.sent.length := by
  cases ha : a.ofRenderer with
  | false =>
    obtain ⟨hrenderer, hsent⟩ :
        (s.step env sdk a).1.renderer = s.renderer ∧ (s.step env sdk a).1.sent = s.sent :=
      Handshake.step_renderer ha
    rwa [hrenderer, hsent]
  | true =>
    obtain ⟨renderer, controller, requestFile, ackFile, kernel, sent⟩ := s
    cases a with
    | openRequest =>
      cases renderer with
      | ready stage q =>
        have hlength : (sent ++ [q]).length = stage.number + 1 := by
          rw [List.length_append, List.length_singleton, show sent.length = stage.number from h]
        exact hlength
      | _ => exact h
    | writeRequest whole ok =>
      cases renderer with
      | opened stage q =>
        cases ok with
        | true => exact h
        | false => exact Renderer.Counts.le h
      | _ => exact h
    | readAck =>
      cases renderer with
      | waiting stage q =>
        cases ackFile with
        | none => exact h
        | some ack =>
          have hlength : sent.length = stage.number + 1 := h
          rw [step_readAck rfl rfl]
          split_ifs
          · exact hlength ▸ afterAck_counts env stage ack
          · exact h
      | _ => exact h
    | giveUp =>
      cases renderer with
      | ended => exact h
      | _ => exact Renderer.Counts.le h
    | _ => cases ha

section Runs

variable {env : RendererEnv} {sdk : UInt32} {k₀ : Kernel} {κ : ℕ → Action}

/-- The renderer sends at most four requests. -/
theorem length_sent_le (n : ℕ) : (handshakeState env sdk k₀ κ n).sent.length ≤ 4 := by
  refine Renderer.Counts.le (r := (handshakeState env sdk k₀ κ n).renderer) ?_
  exact Driven.invariant (d := handshake env sdk k₀) (P := fun _ s => s.renderer.Counts s.sent.length) rfl
    (fun n hn => Handshake.step_counts hn (κ n)) n

theorem sent_subset (n : ℕ) :
    (handshakeState env sdk k₀ κ n).sent ⊆ (handshakeState env sdk k₀ κ (n + 1)).sent := by
  show _ ⊆ ((handshakeState env sdk k₀ κ n).step env sdk (κ n)).1.sent
  generalize handshakeState env sdk k₀ κ n = s
  cases ha : (κ n).ofRenderer with
  | false => exact (Handshake.step_renderer ha).2 ▸ List.Subset.refl _
  | true =>
    obtain ⟨renderer, controller, requestFile, ackFile, kernel, sent⟩ := s
    cases hκ : κ n with
    | openRequest =>
      cases renderer with
      | ready stage q => exact List.subset_append_left sent [q]
      | _ => exact List.Subset.refl _
    | writeRequest whole ok => cases renderer <;> exact List.Subset.refl _
    | readAck =>
      cases renderer with
      | waiting stage q =>
        cases ackFile with
        | none => exact List.Subset.refl _
        | some ack =>
          rw [step_readAck rfl rfl]
          split_ifs <;> exact List.Subset.refl _
      | _ => exact List.Subset.refl _
    | giveUp => cases renderer <;> exact List.Subset.refl _
    | _ => rw [hκ] at ha; cases ha

/-- While nothing was sent, the controller has done nothing to ShellUI. -/
theorem kernel_of_not_sent {n : ℕ} (h : (handshakeState env sdk k₀ κ n).sent = []) :
    (handshakeState env sdk k₀ κ n).kernel = k₀ := by
  induction n with
  | zero => rfl
  | succ n ih =>
    have hsent : (handshakeState env sdk k₀ κ n).sent = [] :=
      List.subset_nil.1 (h ▸ sent_subset n)
    have hcontroller := (handshake_inv env sdk k₀ κ n).controller
    refine Eq.trans ?_ (ih hsent)
    show ((handshakeState env sdk k₀ κ n).step env sdk (κ n)).1.kernel = _
    generalize handshakeState env sdk k₀ κ n = s at hsent hcontroller
    obtain ⟨renderer, controller, requestFile, ackFile, kernel, sent⟩ := s
    cases hsent
    cases κ n with
    | apply pid a =>
      cases controller with
      | consumed q => exact absurd hcontroller List.not_mem_nil
      | _ => rfl
    | openRequest => cases renderer <;> rfl
    | writeRequest => cases renderer <;> rfl
    | readAck =>
      cases renderer with
      | waiting stage q =>
        cases ackFile with
        | none => rfl
        | some ack =>
          rw [step_readAck rfl rfl]
          split_ifs <;> rfl
      | _ => rfl
    | giveUp => cases renderer <;> rfl
    | poll => cases controller <;> cases requestFile <;> rfl
    | unlinkRequest => cases controller <;> rfl
    | writeAck => cases controller <;> rfl

/-- An initialisation that ended well did so on an acknowledgement of a transaction on the last
    request. -/
theorem acked_of_ended (hne : env.guard ≠ env.update) {n : ℕ} {outcome : InitOutcome}
    (h : (handshakeState env sdk k₀ κ n).renderer = .ended outcome) (hwell : outcome ≠ .failed) :
    ∃ m < n, ∃ t stage earlier, Acked env sdk k₀ κ m t ∧ Sends env sdk stage t.request earlier ∧
      stage.Succeeds t.writeAck ∧ outcome = stage.outcome ∧
      afterAck env stage t.writeAck = .ended outcome := by
  obtain ⟨n', hn', x, hx, hended⟩ := exists_accepted h hwell
  obtain ⟨hs, houtcome⟩ := afterAck_ended hended hwell
  obtain ⟨earlier, hsends, m, hm, t, hacked, ht, hn, hack⟩ := accepted_spec hx
  rw [← hack] at hs hended
  have hrequest := hsends.eq_of_succeeds hne ht hn hs
  exact ⟨m, hm.trans hn', t, x.stage, earlier, hacked, hrequest ▸ hsends, hs, houtcome, hended⟩

/-- `Application.Update` is never found to have the hook already. -/
theorem prepareUpdate_ne_online (expected : Code) : prepareUpdate env false expected ≠ .online := by
  intro h
  rw [prepareUpdate] at h
  simp only [Bool.false_eq_true, if_false] at h
  split_ifs at h

end Runs

/-! ## A renderer online -/

/-- What is in force when the renderer draws by itself: the guard method returned at once when it was
    probed, or does since a complete patch of it. -/
def Transaction.Guards (env : RendererEnv) (t : Transaction) : Prop :=
  t.request = probeRequest env env.guard ∧ t.writeAck.observed 0 = 0xc3 ∨
    ∃ c, t.request = publishMainThreadGuardRequest env c ∧ t.Completed env

/-- What is in force when it draws in `Application.Update`: a complete patch of it. -/
def Transaction.Hooks (env : RendererEnv) (t : Transaction) : Prop :=
  ∃ c, prepareUpdate env false c = .request t.request ∧ t.Completed env

/-- The renderer receives, and draws where ShellUI was patched to let it. -/
structure Startup.Online (env : RendererEnv) (s : Startup) (t : Transaction) : Prop where
  receives : s.phase = .receiving
  bound : s.receiverBound = true
  runtime : s.runtimeReady = true
  patched : if s.backgroundRenderMode then t.Guards env else t.Hooks env

section Runs

variable {env : RendererEnv} {sdk : UInt32} {marker : Option Int32} {k₀ : Kernel} {ι : ℕ → StartupAction}

/-- A renderer that is ready has had its mode of drawing patched. -/
theorem patched_of_ready (hne : env.guard ≠ env.update) {n : ℕ}
    (h : (startupState env sdk marker k₀ ι n).Ready) :
    ∃ m < n, ∃ t, Acked env sdk k₀ (worldActions env sdk marker k₀ ι) m t ∧
      if (startupState env sdk marker k₀ ι n).backgroundRenderMode then t.Guards env else t.Hooks env := by
  obtain ⟨outcome, hwell, hended, hmode⟩ := h.ended
  rw [startup_world] at hended
  obtain ⟨m, hm, t, stage, earlier, hacked, hsends, hs, houtcome, hafter⟩ := acked_of_ended hne hended hwell
  refine ⟨m, hm, t, hacked, ?_⟩
  rw [hmode]
  generalize hr : t.request = r at hsends
  cases hsends with
  | guardProbe =>
    subst houtcome
    refine .inl ⟨hr, ?_⟩
    by_contra hobserved
    rw [afterAck, if_pos hs, if_neg hobserved] at hafter
    cases hafter
  | guard c =>
    subst houtcome
    have hprobe := (HookPlan.guard_of_guardRequest (p := t.plan) hr).1
    exact .inr ⟨c, hr, Transaction.completed_of_succeeds hs (by rw [hr]; rfl) hprobe⟩
  | updateProbe c =>
    subst houtcome
    rw [afterAck, if_pos hs] at hafter
    cases hplan : prepareUpdate env false t.writeAck.observed with
    | online => exact absurd hplan (prepareUpdate_ne_online _)
    | refused => rw [hplan] at hafter; cases hafter
    | request r => rw [hplan] at hafter; cases hafter
  | updatePatch _ c _ _ hplan =>
    subst houtcome
    obtain ⟨displaced, original, hle, hle', hupdate⟩ := prepareUpdate_request hplan
    have hprobe := (HookPlan.patch_of_updateRequest (p := t.plan) hle hle' (hr.trans hupdate)).1
    have hpid : t.request.pid = env.pid := by rw [hr, hupdate]; rfl
    exact ⟨c, hr ▸ hplan, Transaction.completed_of_succeeds hs hpid hprobe⟩

/-- Once the marker is there, the receiver has its port, and the renderer is online for good. -/
theorem online_of_marker (hne : env.guard ≠ env.update) (hmarker : marker ≠ some env.pid) {n : ℕ}
    (h : (startupState env sdk marker k₀ ι n).marker = some env.pid) :
    (∃ b < n, BindsReceiver env sdk marker k₀ ι b) ∧
      ∃ m < n, ∃ t, Acked env sdk k₀ (worldActions env sdk marker k₀ ι) m t ∧
        ∀ k, n ≤ k → (startupState env sdk marker k₀ ι k).Online env t := by
  have hreceives : (startupState env sdk marker k₀ ι n).phase = .receiving := by
    have hinv : StartupInv env (startupState env sdk marker k₀ ι n) := startup_inv hmarker n
    rw [StartupInv] at hinv
    cases hphase : (startupState env sdk marker k₀ ι n).phase with
    | receiving => rfl
    | starting => rw [hphase] at hinv; exact absurd h hinv.1
    | patching => rw [hphase] at hinv; exact absurd h hinv.1
    | binding => rw [hphase] at hinv; exact absurd h hinv.1
    | marking => rw [hphase] at hinv; exact absurd h hinv.1
    | parked => rw [hphase] at hinv; exact absurd h hinv
  have hstays (k : ℕ) (hnk : n ≤ k) := rests_of_le hnk (.inl hreceives)
  have hinv (k : ℕ) (hnk : n ≤ k) : (startupState env sdk marker k₀ ι k).Ready ∧
      (startupState env sdk marker k₀ ι k).receiverBound = true := by
    have hinv : StartupInv env (startupState env sdk marker k₀ ι k) := startup_inv hmarker k
    rwa [StartupInv, (hstays k hnk).1, hreceives] at hinv
  obtain ⟨m, hm, t, hacked, hpatched⟩ := patched_of_ready hne (hinv n le_rfl).1
  refine ⟨exists_bindsReceiver (hinv n le_rfl).2, m, hm, t, hacked, fun k hnk =>
    ⟨(hstays k hnk).1.trans hreceives, (hinv k hnk).2, (hinv k hnk).1.runtime, ?_⟩⟩
  rw [(hstays k hnk).2]
  exact hpatched

end Runs

/-- In the step `n` the thread begins to have ShellUI patched. -/
def BeginsPatch (env : RendererEnv) (sdk : UInt32) (marker : Option Int32) (k₀ : Kernel)
    (ι : ℕ → StartupAction) (n : ℕ) : Prop :=
  (startupState env sdk marker k₀ ι n).phase.patches = false ∧
    (startupState env sdk marker k₀ ι (n + 1)).phase.patches = true

/-- However often the renderer does not find the managed runtime, and whatever else happens: before
    an attempt that finds all of it nothing is done to ShellUI; it has ShellUI patched in one
    attempt at most, by at most four requests; and once it receives or is parked, it does so for
    good. -/
theorem renderer_starts_once (env : RendererEnv) (sdk : UInt32) (marker : Option Int32)
    (hmarker : marker ≠ some env.pid) (k₀ : Kernel) (ι : ℕ → StartupAction) :
    let state := startupState env sdk marker k₀ ι
    (∀ n, (∀ m < n, ¬FindsRuntime env sdk marker k₀ ι m) →
      (state n).world.sent = [] ∧ (state n).world.kernel = k₀) ∧
    (∀ m n, m < n → BeginsPatch env sdk marker k₀ ι m → ¬BeginsPatch env sdk marker k₀ ι n) ∧
    (∀ n, (state n).world.sent.length ≤ 4) ∧
    (∀ m n, m ≤ n → (state m).phase = .receiving ∨ (state m).phase = .parked →
      (state n).phase = (state m).phase) := by
  intro state
  refine ⟨fun n h => ?_, fun m n hmn hm hn => ?_, fun n => ?_, fun m n hmn h => (rests_of_le hmn h).1⟩
  · have hattempted : (startupState env sdk marker k₀ ι n).hookAttempted = false := by
      refine Bool.eq_false_iff.2 fun hattempted => ?_
      obtain ⟨m, hm, hfinds⟩ := exists_findsRuntime hattempted
      exact h m hm hfinds
    have hsent := sent_of_not_attempted hmarker hattempted
    rw [startup_world] at hsent
    rw [startup_world]
    exact ⟨hsent, kernel_of_not_sent hsent⟩
  · have hattempted := ((moves env sdk marker k₀ ι m).begun hm.1 hm.2).2
    have hfirst := ((moves env sdk marker k₀ ι n).begun hn.1 hn.2).1
    exact Bool.false_ne_true (hfirst.symm.trans (attempted_of_le hmn hattempted))
  · show (startupState env sdk marker k₀ ι n).world.sent.length ≤ 4
    rw [startup_world]
    exact length_sent_le n

/-! ## The controller's view -/

section Injector

variable {s : Injector} {a : EnsureAnswers}

/-- The wait ends well on the marker only. -/
theorem exists_marker_of_awaited {pid : ℤ} {wait : ℕ → WaitAnswers} {n i : ℕ}
    (h : (Injector.awaitMarker pid wait n i).2 = true) : ∃ j, (wait j).marker = some pid := by
  induction n generalizing i with
  | zero => cases h
  | succ n ih =>
    rw [Injector.awaitMarker] at h
    dsimp only at h
    split_ifs at h with hmarker
    · exact ⟨i, hmarker⟩
    · exact ih h
    · exact ih h

/-- An injection is made where the marker is not there, and a call that made one ends well only on it. -/
theorem marker_of_injected (h : (s.ensureShelluiRenderer a).2.injections ≠ []) :
    a.marker ≠ some a.lookup ∧ ((s.ensureShelluiRenderer a).2.result = true →
      ∃ i, (a.wait i).marker = some a.lookup) := by
  rw [Injector.ensureShelluiRenderer] at h ⊢
  by_cases hq : s.rendererQuarantined
  · rw [if_pos hq] at h
    exact absurd rfl h
  by_cases hp : a.lookup ≤ 0
  · rw [if_neg hq, if_pos hp] at h
    exact absurd rfl h
  by_cases hm : a.marker = some a.lookup
  · rw [if_neg hq, if_neg hp, if_pos hm] at h
    exact absurd rfl h
  rw [if_neg hq, if_neg hp, if_neg hm] at h ⊢
  refine ⟨hm, fun hresult => ?_⟩
  rcases hs : s.attempt a.lookup with ⟨s', _ | result⟩
  · rw [hs] at hresult
    by_contra hnone
    have hwait : (Injector.awaitMarker a.lookup a.wait 3500 0).2 ≠ true := fun hw =>
      hnone (exists_marker_of_awaited hw)
    simp only [Injector.inject, if_neg hwait] at hresult
    split_ifs at hresult
  · rw [hs] at h
    exact absurd rfl h

end Injector

/-- If a call of the injector injected, and says that the renderer is online, then the thread that it
    started is: its receiver got its port, it receives, and from some check of the marker on it
    always will, and it draws where a complete patch of the controller lets it; whatever the order
    of its steps and those of the controller. -/
theorem renderer_online (image : Image) (κ : ℕ → EnsureTurn) (n : ℕ) (env : RendererEnv)
    (hne : env.guard ≠ env.update) (sdk : UInt32) (marker : Option Int32) (k₀ : Kernel)
    (ι : ℕ → StartupAction) (τ : ℕ → ℕ) (hpid : (κ n).lookup = env.pid.toInt)
    (hfirst : (κ n).marker = marker.map Int32.toInt)
    (hwait : ∀ i, ((κ n).wait i).marker =
      (startupState env sdk marker k₀ ι (τ i)).marker.map Int32.toInt)
    (hinjected : (injector.output (ensureAnswers image κ) n).injections ≠ [])
    (hresult : (injector.output (ensureAnswers image κ) n).result = true) :
    ((κ n).left image).threads = [(κ n).thread image] ∧
      ∃ i, (∃ b < τ i, BindsReceiver env sdk marker k₀ ι b) ∧
        ∃ m < τ i, ∃ t, Acked env sdk k₀ (worldActions env sdk marker k₀ ι) m t ∧
          ∀ k, τ i ≤ k → (startupState env sdk marker k₀ ι k).Online env t := by
  have hpidOf {found : Option Int32} : found.map Int32.toInt = some (κ n).lookup ↔ found = some env.pid := by
    rw [hpid, Option.map_eq_some_iff]
    refine ⟨?_, fun h => ⟨_, h, rfl⟩⟩
    rintro ⟨pid, rfl, h⟩
    rw [Int32.toInt_inj.1 h]
  obtain ⟨hmarker, hawaited⟩ := marker_of_injected hinjected
  constructor
  · obtain ⟨⟨p, r⟩, hmem⟩ := List.exists_mem_of_ne_nil _ hinjected
    exact ((κ n).left_threads image).2 ((injected_of_mem hmem).2.2 hresult).1
  · obtain ⟨i, hi⟩ := hawaited hresult
    have hi : ((κ n).wait i).marker = some (κ n).lookup := hi
    rw [hwait] at hi
    have hmarker : (κ n).marker ≠ some (κ n).lookup := hmarker
    rw [hfirst, ne_eq, hpidOf] at hmarker
    exact ⟨i, online_of_marker hne hmarker (hpidOf.1 hi)⟩

/-- A renderer that finds the managed runtime at once, and a controller that patches ShellUI, each
    taking its turn, of which every call succeeds. -/
def compliantSteps : List StartupAction :=
  .attempt ⟨true, true, true, true⟩ ::
    ((Compliant.request ++ Compliant.request).map StartupAction.handshake ++
      [.bind ⟨true, true, true⟩, .mark true true])

/-- A start in which the controller answers all requests. -/
def compliantStart (n : ℕ) : StartupAction := compliantSteps.getD n .checkMarker

/-- A call of the injector that finds this renderer. -/
def compliantTurn (_ : ℕ) : EnsureTurn where
  lookup := 7
  marker := none
  wait := fun i => ⟨(startupState Compliant.env 0x05000000 none Compliant.kernel compliantStart i).marker.map
    Int32.toInt, 7⟩
  authId := 1
  regs := {}
  session := smoothSession
  steps := 0
  leftRegs := {}

theorem renderer_online_compliant :
    ((compliantTurn 0).left plainImage).threads = [(compliantTurn 0).thread plainImage] ∧
      ∃ n t, ∀ k, n ≤ k → (startupState Compliant.env 0x05000000 none Compliant.kernel compliantStart
        k).Online Compliant.env t := by
  obtain ⟨hthread, i, -, m, -, t, -, honline⟩ := renderer_online plainImage compliantTurn 0 Compliant.env
    (by decide) 0x05000000 none Compliant.kernel compliantStart id rfl rfl (fun _ => rfl) (by decide +kernel)
    (by decide +kernel)
  exact ⟨hthread, i, t, honline⟩

/-- The same after an attempt that finds no scene of the game. -/
def lateStart : ℕ → StartupAction
  | 0 => .attempt ⟨true, true, true, false⟩
  | n + 1 => compliantStart n

theorem renderer_starts_once_compliant :
    let state := startupState Compliant.env 0x05000000 none Compliant.kernel lateStart
    ((state 1).world.sent = [] ∧ (state 1).world.kernel = Compliant.kernel) ∧
      (BeginsPatch Compliant.env 0x05000000 none Compliant.kernel lateStart 1 ∧
        ¬BeginsPatch Compliant.env 0x05000000 none Compliant.kernel lateStart 2) ∧
      ((state 21).world.sent ≠ [] ∧ (state 21).world.sent.length ≤ 4) ∧ (state 21).phase =
        .receiving := by
  obtain ⟨hbefore, honce, hfour, hrests⟩ := renderer_starts_once Compliant.env 0x05000000 none (by decide)
    Compliant.kernel lateStart
  have hbegins : BeginsPatch Compliant.env 0x05000000 none Compliant.kernel lateStart 1 :=
    ⟨by decide +kernel, by decide +kernel⟩
  refine ⟨hbefore 1 fun m hm hfinds => ?_, ⟨hbegins, honce 1 2 (by decide) hbegins⟩,
    ⟨by decide +kernel, hfour 21⟩, (hrests 18 21 (by decide) (.inl (by decide +kernel))).trans
      (by decide +kernel)⟩
  -- The first attempt does not find everything.
  obtain rfl := Nat.lt_one_iff.1 hm
  cases hfinds.2

end CommonFps
