import CommonFps.Lib.Driven
import CommonFps.Fps.VideoOut
import CommonFps.Fps.DceDevice
import CommonFps.Fps.DisplayFilter
import CommonFps.Overlay.Wire
import CommonFps.Worker.Injector

/-!
# The worker loop

The loop of the controller (`run_tracked_worker` of `commonfps_ps5_main.cpp`).
Every second it looks for ShellUI and for the game, samples VideoOut or looks
for its counter, samples the fallback, chooses what to show, brings the renderer
up in ShellUI if it may, and sends the renderer a packet.

Once the fallback has given a rate, the costly search for the VideoOut counter
*stands by*: it is made every minute only.

An iteration is a sequence of phases (`Worker.iterate`), each with what it may
change (`…_frame`). The process table, the clock, the samplers' readings, the
injector's findings and the settings are inputs.
-/

namespace CommonFps

/-- The time between two searches during a stand-by. -/
def kDceVideoOutStandbyUs : ℕ := 60000000

/-- The number of values missed that end a stand-by. -/
def kDceMissesBeforeVideoOutWake : ℕ := 3

/-- What the environment answers in an iteration. -/
structure WorkerInput where
  /-- The process that `observe_shellui_once` returns. -/
  shelluiPid : ℤ
  /-- The process that `find_game_process` returns. -/
  gamePid : Option ℤ
  nowUs : ℕ
  sample : SampleAnswers
  attach : AttachAnswers
  dce : DceFpsSampler.DceAnswers
  ensure : EnsureAnswers
  filterNowUs : ℕ
  config : OverlayConfig

/-- What becomes of VideoOut in an iteration. -/
inductive VideoOutReport
  | idle
  | attach (ok : Bool)
  | sampled (pid : ℤ) (fps : Option ℤ)
  deriving DecidableEq

/-- The value of VideoOut (`process_fps`). -/
def VideoOutReport.fps : VideoOutReport → Option ℤ
  | sampled _ fps => fps
  | _ => none

/-- What an iteration does. -/
structure WorkerReport where
  videoOut : VideoOutReport
  dceFps : Option ℤ
  backend : DceBackend
  /-- The call of `ensure_shellui_renderer`, if it is made. -/
  ensure : Option EnsureReport
  filterCall : FilterCall
  displayFps : Option ℤ
  sent : Option WirePacket

/-- The stand-by of the search for the VideoOut counter. -/
structure DceStandby where
  /-- `dce_standby_active`. -/
  active : Bool := false
  /-- `dce_standby_pid`. -/
  pid : ℤ := -1
  /-- `dce_miss_streak`. -/
  missStreak : ℕ := 0
  nextVideooutProbeUs : ℕ := 0
  deriving DecidableEq

namespace DceStandby

/-- The time of the next search for the counter. -/
def probeTime (nowUs : ℕ) : ℕ := (nowUs + kDceVideoOutStandbyUs) % 2 ^ 64

/-- The counter may be searched for (`videoout_probe_due`). -/
def ProbeDue (s : DceStandby) (nowUs : ℕ) : Prop :=
  s.active = false ∨ nowUs ≥ s.nextVideooutProbeUs

instance (s : DceStandby) (nowUs : ℕ) : Decidable (s.ProbeDue nowUs) :=
  inferInstanceAs (Decidable (_ ∨ _))

/-- The search was made. -/
def probe (s : DceStandby) (attached : Bool) (nowUs : ℕ) : DceStandby :=
  if attached = false ∧ s.active then { s with nextVideooutProbeUs := probeTime nowUs } else s

/-- A fallback value came for the process `pid`. -/
def hit (s : DceStandby) (attached : Bool) (pid : ℤ) (nowUs : ℕ) : DceStandby :=
  let s := { s with missStreak := 0 }
  if attached then s
  else
    { s with
        active := true, pid := pid
        nextVideooutProbeUs :=
          if s.active = false ∨ s.pid ≠ pid then probeTime nowUs else s.nextVideooutProbeUs }

/-- No value came. -/
def miss (s : DceStandby) (game : Bool) : DceStandby :=
  if s.active ∧ game then
    if s.missStreak + 1 ≥ kDceMissesBeforeVideoOutWake then {}
    else { s with missStreak := s.missStreak + 1 }
  else s

end DceStandby

/-- The variables of the loop, less what it only logs. -/
structure Worker where
  sampler : FpsSampler := {}
  dceSampler : DceFpsSampler := {}
  displayFilter : FpsDisplayFilter := {}
  injector : Injector := {}
  stableShelluiPid : ℤ := -1
  stableShelluiObservations : ℕ := 0
  stableGamePid : ℤ := -1
  stableGameObservations : ℕ := 0
  dceStandby : DceStandby := {}
  rendererOnline : Bool := false
  haveFps : Bool := false
  latestFps : ℤ := 0
  sequence : UInt64 := 1

/-- A counter that stops at its limit. -/
def countUpTo (limit n : ℕ) : ℕ := if n < limit then n + 1 else n

theorem countUpTo_le (limit n : ℕ) : countUpTo limit n ≤ n + 1 := by
  rw [countUpTo]
  split_ifs
  exacts [le_rfl, Nat.le_succ n]

namespace Worker

/-! ## The phases of an iteration -/

/-- ShellUI is observed: another process restarts the count and the filter. -/
def observeShellui (s : Worker) (pid : ℤ) : Worker :=
  if pid > 0 then
    if pid = s.stableShelluiPid then
      { s with stableShelluiObservations := countUpTo 10 s.stableShelluiObservations }
    else
      { s with
          stableShelluiPid := pid, stableShelluiObservations := 1, rendererOnline := false
          displayFilter := s.displayFilter.reset }
  else
    { s with stableShelluiPid := -1, stableShelluiObservations := 0, rendererOnline := false }

/-- The samplers start over, for another game or none. -/
def resetSamplers (s : Worker) : Worker :=
  { s with sampler := s.sampler.reset, dceSampler := s.dceSampler.reset, dceStandby := {} }

/-- The game is observed: another game, or none, restarts the samplers. -/
def observeGame (s : Worker) (pid : Option ℤ) : Worker :=
  match pid with
  | some pid =>
    if pid = s.stableGamePid then
      { s with stableGameObservations := countUpTo 3 s.stableGameObservations }
    else { s.resetSamplers with stableGamePid := pid, stableGameObservations := 1 }
  | none => { s.resetSamplers with stableGamePid := -1, stableGameObservations := 0 }

/-- The same game was observed three times (`game_process_ready`). -/
def GameReady (s : Worker) : Prop := 0 < s.stableGamePid ∧ 3 ≤ s.stableGameObservations

instance (s : Worker) : Decidable s.GameReady := inferInstanceAs (Decidable (_ ∧ _))

/-- The search for the counter of VideoOut. -/
def attachVideoOut (s : Worker) (pid : ℤ) (i : WorkerInput) : Worker × VideoOutReport :=
  let attached := s.sampler.attach .ps5 pid i.attach
  ({ s with sampler := attached.1, dceStandby := s.dceStandby.probe attached.2 i.nowUs },
    .attach attached.2)

/-- VideoOut is sampled if it is attached, and is searched for if it is not and may be. -/
def sampleVideoOut (s : Worker) (i : WorkerInput) : Worker × VideoOutReport :=
  if s.sampler.Attached then
    ({ s with sampler := (s.sampler.sample i.sample).1 },
      .sampled s.sampler.pid (s.sampler.sample i.sample).2)
  else
    match i.gamePid with
    | some pid => if s.dceStandby.ProbeDue i.nowUs then s.attachVideoOut pid i else (s, .idle)
    | none => (s, .idle)

/-- The fallback is sampled for a game that is ready. -/
def sampleDce (s : Worker) (a : DceFpsSampler.DceAnswers) : Worker × Option ℤ :=
  if s.GameReady then
    ({ s with dceSampler := (s.dceSampler.sample a).1 }, (s.dceSampler.sample a).2)
  else (s, none)

/-- The source that a fallback value is shown as. -/
def displaySource : DceBackend → FpsDisplaySource
  | .henShared => .sharedHen
  | .dceFixed => .dceFixed
  | _ => .dceAdaptive

/-- The value of VideoOut is taken, or else that of the fallback. -/
def chooseSource (s : Worker) (i : WorkerInput) (processFps dceFps : Option ℤ) :
    Worker × FpsDisplaySource :=
  match processFps, dceFps, i.gamePid with
  | some fps, _, _ => ({ s with haveFps := true, latestFps := fps, dceStandby := {} }, .videoOut)
  | none, some fps, some pid =>
    ({ s with
        haveFps := true, latestFps := fps
        dceStandby := s.dceStandby.hit (decide s.sampler.Attached) pid i.nowUs },
      displaySource s.dceSampler.backendName)
  | none, _, gamePid =>
    ({ s with haveFps := false, dceStandby := s.dceStandby.miss gamePid.isSome }, .none)

/-- The renderer may be brought up. -/
def MayInject (s : Worker) : Prop :=
  s.rendererOnline = false ∧ s.GameReady ∧ 10 ≤ s.stableShelluiObservations

instance (s : Worker) : Decidable s.MayInject := inferInstanceAs (Decidable (_ ∧ _ ∧ _))

/-- The renderer is brought up, if it may be. -/
def ensureRenderer (s : Worker) (a : EnsureAnswers) : Worker × Option EnsureReport :=
  if s.MayInject then
    let ensured := s.injector.ensureShelluiRenderer a
    ({ s with injector := ensured.1, rendererOnline := ensured.2.result }, some ensured.2)
  else (s, none)

/-- What the filter is asked. -/
def filterCall (s : Worker) (i : WorkerInput) (source : FpsDisplaySource) : FilterCall where
  measured := if s.haveFps then some s.latestFps else none
  nowUs := i.filterNowUs
  pid := s.stableGamePid
  source := source

/-- The frame for the value that the filter shows. -/
def overlayFrame (displayFps : Option ℤ) (config : OverlayConfig) : OverlayFrame where
  visible := true
  loading := displayFps.isNone
  fps := displayFps.getD 0
  config := config
  anchor := computeAnchor config

/-- A packet is sent, if the renderer is online. -/
def send (s : Worker) (displayFps : Option ℤ) (config : OverlayConfig) :
    Worker × Option WirePacket :=
  if s.rendererOnline then
    ({ s with sequence := s.sequence + 1 },
      some (makeWirePacket (overlayFrame displayFps config) s.sequence))
  else (s, none)

/-- The states within an iteration. -/
def observed (s : Worker) (i : WorkerInput) : Worker :=
  (s.observeShellui i.shelluiPid).observeGame i.gamePid

/-- After VideoOut. -/
def videoOut (s : Worker) (i : WorkerInput) : Worker × VideoOutReport :=
  (s.observed i).sampleVideoOut i

/-- After the fallback. -/
def dce (s : Worker) (i : WorkerInput) : Worker × Option ℤ := (s.videoOut i).1.sampleDce i.dce

/-- After the choice of the source. -/
def chosen (s : Worker) (i : WorkerInput) : Worker × FpsDisplaySource :=
  (s.dce i).1.chooseSource i (s.videoOut i).2.fps (s.dce i).2

/-- After the renderer was brought up. -/
def ensured (s : Worker) (i : WorkerInput) : Worker × Option EnsureReport :=
  (s.chosen i).1.ensureRenderer i.ensure

/-- An iteration of the loop. -/
def iterate (s : Worker) (i : WorkerInput) : Worker × WorkerReport :=
  let t := (s.ensured i).1
  let call := t.filterCall i (s.chosen i).2
  let filtered := t.displayFilter.sample call
  let sent := { t with displayFilter := filtered.1 }.send filtered.2 i.config
  (sent.1, {
    videoOut := (s.videoOut i).2
    dceFps := (s.dce i).2
    backend := (s.dce i).1.dceSampler.backendName
    ensure := (s.ensured i).2
    filterCall := call
    displayFps := filtered.2
    sent := sent.2 })

/-! ## What the phases leave alone -/

variable (s : Worker) (i : WorkerInput)

/-- An observation of ShellUI changes its own count, whether the renderer is online, and the filter. -/
theorem observeShellui_frame (pid : ℤ) : s.observeShellui pid =
    { s with
        stableShelluiPid := (s.observeShellui pid).stableShelluiPid
        stableShelluiObservations := (s.observeShellui pid).stableShelluiObservations
        rendererOnline := (s.observeShellui pid).rendererOnline
        displayFilter := (s.observeShellui pid).displayFilter } := by
  rw [observeShellui]
  split_ifs <;> rfl

/-- An observation of the game changes its own count, and what depends on the game. -/
theorem observeGame_frame (pid : Option ℤ) : s.observeGame pid =
    { s with
        sampler := (s.observeGame pid).sampler
        dceSampler := (s.observeGame pid).dceSampler
        stableGamePid := (s.observeGame pid).stableGamePid
        stableGameObservations := (s.observeGame pid).stableGameObservations
        dceStandby := (s.observeGame pid).dceStandby } := by
  cases pid with
  | none => rfl
  | some pid =>
    rw [observeGame]
    split_ifs <;> rfl

theorem sampleVideoOut_frame : (s.sampleVideoOut i).1 =
    { s with
        sampler := (s.sampleVideoOut i).1.sampler
        dceStandby := (s.sampleVideoOut i).1.dceStandby } := by
  rw [sampleVideoOut]
  by_cases h : s.sampler.Attached
  · simp only [if_pos h]
  · simp only [if_neg h]
    cases i.gamePid with
    | none => rfl
    | some pid =>
      dsimp only
      split <;> rfl

theorem sampleDce_frame (a : DceFpsSampler.DceAnswers) :
    (s.sampleDce a).1 = { s with dceSampler := (s.sampleDce a).1.dceSampler } := by
  rw [sampleDce]
  split_ifs <;> rfl

theorem chooseSource_frame (processFps dceFps : Option ℤ) :
    (s.chooseSource i processFps dceFps).1 =
      { s with
          haveFps := (s.chooseSource i processFps dceFps).1.haveFps
          latestFps := (s.chooseSource i processFps dceFps).1.latestFps
          dceStandby := (s.chooseSource i processFps dceFps).1.dceStandby } := by
  simp only [chooseSource]
  split <;> rfl

theorem ensureRenderer_frame (a : EnsureAnswers) : (s.ensureRenderer a).1 =
    { s with
        injector := (s.ensureRenderer a).1.injector
        rendererOnline := (s.ensureRenderer a).1.rendererOnline } := by
  rw [ensureRenderer]
  split_ifs <;> rfl

theorem send_frame (displayFps : Option ℤ) (config : OverlayConfig) :
    (s.send displayFps config).1 =
      { s with sequence := (s.send displayFps config).1.sequence } := by
  rw [send]
  split_ifs <;> rfl

/-- What is observed of the process table stays for the rest of an iteration. -/
theorem chosen_frame : (s.chosen i).1 =
    { s.observed i with
        sampler := (s.videoOut i).1.sampler
        dceSampler := (s.dce i).1.dceSampler
        haveFps := (s.chosen i).1.haveFps
        latestFps := (s.chosen i).1.latestFps
        dceStandby := (s.chosen i).1.dceStandby } := by
  have h₁ := sampleVideoOut_frame (s.observed i) i
  have h₂ := sampleDce_frame (s.videoOut i).1 i.dce
  have h₃ := chooseSource_frame (s.dce i).1 i (s.videoOut i).2.fps (s.dce i).2
  rw [← videoOut] at h₁
  rw [← dce] at h₂
  rw [← chosen] at h₃
  rw [h₁] at h₂
  rw [h₂] at h₃
  exact h₃

/-- The last step before the filter changes the injector, and whether the renderer is online. -/
theorem ensured_frame : (s.ensured i).1 =
    { (s.chosen i).1 with
        injector := (s.ensured i).1.injector
        rendererOnline := (s.ensured i).1.rendererOnline } :=
  ensureRenderer_frame (s.chosen i).1 i.ensure

/-- After that, only the filter and what is sent change. -/
theorem iterate_frame : (s.iterate i).1 =
    { (s.ensured i).1 with
        displayFilter := ((s.ensured i).1.displayFilter.sample (s.iterate i).2.filterCall).1
        sequence := (s.iterate i).1.sequence } :=
  send_frame _ _ _

variable {s i}

/-! ## The state after an iteration -/

theorem iterate_stableGamePid : (s.iterate i).1.stableGamePid = (s.observed i).stableGamePid := by
  rw [iterate_frame, ensured_frame, chosen_frame]

theorem iterate_stableGameObservations :
    (s.iterate i).1.stableGameObservations = (s.observed i).stableGameObservations := by
  rw [iterate_frame, ensured_frame, chosen_frame]

theorem iterate_stableShelluiPid :
    (s.iterate i).1.stableShelluiPid = (s.observeShellui i.shelluiPid).stableShelluiPid := by
  rw [iterate_frame, ensured_frame, chosen_frame, observed, observeGame_frame]

theorem iterate_stableShelluiObservations : (s.iterate i).1.stableShelluiObservations =
    (s.observeShellui i.shelluiPid).stableShelluiObservations := by
  rw [iterate_frame, ensured_frame, chosen_frame, observed, observeGame_frame]

theorem iterate_sampler : (s.iterate i).1.sampler = (s.videoOut i).1.sampler := by
  rw [iterate_frame, ensured_frame, chosen_frame]

theorem iterate_dceStandby : (s.iterate i).1.dceStandby = (s.chosen i).1.dceStandby := by
  rw [iterate_frame, ensured_frame]

theorem ensured_displayFilter :
    (s.ensured i).1.displayFilter = (s.observeShellui i.shelluiPid).displayFilter := by
  rw [ensured_frame, chosen_frame, observed, observeGame_frame]

/-- A game observed is the current one for the rest of the iteration. -/
theorem observed_stableGamePid : (s.observed i).stableGamePid = i.gamePid.getD (-1) := by
  rw [observed]
  cases i.gamePid with
  | none => rfl
  | some pid =>
    rw [observeGame]
    split_ifs with h
    exacts [h.symm, rfl]

/-- The filter is called once, after a reset where another ShellUI process was
    observed. -/
theorem iterate_displayFilter : (s.iterate i).1.displayFilter =
    ((s.observeShellui i.shelluiPid).displayFilter.sample (s.iterate i).2.filterCall).1 := by
  rw [← ensured_displayFilter, iterate_frame]

theorem iterate_displayFps : (s.iterate i).2.displayFps =
    ((s.observeShellui i.shelluiPid).displayFilter.sample (s.iterate i).2.filterCall).2 := by
  rw [← ensured_displayFilter]
  rfl

end Worker

/-- The worker, iterating. -/
def worker : Driven Worker WorkerInput WorkerReport := ⟨{}, Worker.iterate⟩

end CommonFps
