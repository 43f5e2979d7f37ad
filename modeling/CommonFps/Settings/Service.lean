import CommonFps.Lib.Locked
import CommonFps.Settings.Socket

/-!
# The settings service

The store of the settings while its threads use it (`settings.cpp`): the worker
reads it in every iteration, and the thread of the settings service
(`settings_service.cpp`) reads and saves it for its clients, one after the other.
A configuration is copied field by field, under the mutex of the store.

* `StorePhase`, `settingsStore`: any number of threads that use one store;
* `begunSave`, `savedConfig`: the configuration saved last, by the forms that the
  threads were given;
* `settings_whole`: what a thread reads is the configuration saved last, never a
  part of one and a part of another;
* `settingsService`: the requests that clients send, one after the other, and
  restarts in between;
* `settings_read_back`: what a client reads is what was posted last.
-/

namespace CommonFps

/-! ## Threads -/

/-- The copy of one field of a configuration. -/
def copyField (i : ℕ) (source target : OverlayConfig) : OverlayConfig :=
  match i with
  | 0 => { target with corner := source.corner }
  | 1 => { target with fontSize := source.fontSize }
  | 2 => { target with marginX := source.marginX }
  | 3 => { target with marginY := source.marginY }
  | 4 => { target with showLabel := source.showLabel }
  | 5 => { target with labelColor := source.labelColor }
  | 6 => { target with valueColor := source.valueColor }
  | _ => target

/-- The number of fields of a configuration, which are copied one after the other. -/
def kConfigFields : ℕ := 7

/-- A form that was posted; only such configurations are saved. -/
structure PostedForm where
  body : Bytes
  config : OverlayConfig
  parsed : parseSettingsForm body = some (some config)

theorem PostedForm.whole (form : PostedForm) : Whole form.config := whole_of_parseSettingsForm form.parsed

/-- Where a thread is in `get` or `save`. -/
inductive StorePhase
  | idle
  /-- In `get`, `i` fields are copied. -/
  | copying (i : ℕ) (copy : OverlayConfig)
  /-- In `save`, before the file is written. -/
  | writing (next : OverlayConfig) (answers : SaveAnswers)
  /-- In `save`, the file is written and `i` fields are assigned. -/
  | assigning (i : ℕ) (next : OverlayConfig)

/-- What a thread does next. -/
inductive StoreCall
  | get
  | save (form : PostedForm) (answers : SaveAnswers)
  | go

/-- What a call returns. -/
inductive StoreReturn
  | quiet
  | got (copy : OverlayConfig)
  | saved (next : OverlayConfig) (ok : Bool)
  deriving DecidableEq

/-- A step of a thread in `get` or `save`. -/
def StorePhase.step (phase : StorePhase) (store : SettingsStore) (call : StoreCall) :
    StorePhase × SettingsStore × StoreReturn :=
  match phase with
  | .idle =>
    match call with
    | .get => (.copying 0 {}, store, .quiet)
    | .save form answers => (.writing (sanitizeConfig form.config) answers, store, .quiet)
    | .go => (.idle, store, .quiet)
  | .copying i copy =>
    if i < kConfigFields then (.copying (i + 1) (copyField i store.config copy), store, .quiet)
    else (.idle, store, .got copy)
  | .writing next answers =>
    let write := atomicWrite answers store.files (serializeConfig next)
    let written : SettingsStore := { store with files := write.2.getLastD store.files }
    if write.1 then (.assigning 0 next, written, .quiet) else (.idle, written, .saved next false)
  | .assigning i next =>
    if i < kConfigFields then
      (.assigning (i + 1) next, { store with config := copyField i next store.config }, .quiet)
    else (.idle, store, .saved next true)

/-- The phases between `pthread_mutex_lock` and `pthread_mutex_unlock`. -/
def StorePhase.holds : StorePhase → Bool
  | .idle => false
  | _ => true

/-- The threads of one store. -/
def settingsStore : Locked StorePhase SettingsStore StoreCall StoreReturn where
  idle := .idle
  holds := StorePhase.holds
  holds_idle := rfl
  act := StorePhase.step

section Threads

variable {W : Type*} [DecidableEq W] (files : SettingsFiles) (ι : ℕ → W × StoreCall)

/-- The store and its threads, from the files found. -/
def threads (files : SettingsFiles) : Driven (Locked.State W StorePhase SettingsStore) (W × StoreCall)
    (Option StoreReturn) :=
  settingsStore.system W (.fromFiles files)

/-- The save that a step begins, if the thread is in no call. -/
def StorePhase.begins : StorePhase → StoreCall → Option (PostedForm × SaveAnswers)
  | .idle, .save form answers => some (form, answers)
  | _, _ => none

/-- The save that the thread `w` began last before the step `n`: its form, and what its
    system calls return. -/
def begunSave (w : W) : ℕ → Option (PostedForm × SaveAnswers)
  | 0 => none
  | n + 1 =>
    if (ι n).1 = w ∧ ((threads files).output ι n).isSome then
      ((((threads files).state ι n).phase w).begins (ι n).2).or (begunSave w n)
    else begunSave w n

/-- The configuration of the form that was saved last before the step `n`, by a save that returned
    that it succeeded; or the one loaded. -/
def savedConfig : ℕ → OverlayConfig
  | 0 => loadSettings files.final
  | n + 1 => match (threads files).output ι n with
    | some (.saved _ true) =>
      ((begunSave files ι (ι n).1 n).map fun save => sanitizeConfig save.1.config).getD (savedConfig n)
    | _ => savedConfig n

/-- The configuration that the store was given last, or the one loaded. -/
def assignedConfig : ℕ → OverlayConfig
  | 0 => loadSettings files.final
  | n + 1 => match (threads files).output ι n with
    | some (.saved next true) => next
    | _ => assignedConfig n

/-- The first fields of two configurations agree. -/
structure AgreeUpTo (i : ℕ) (a b : OverlayConfig) : Prop where
  corner : 0 < i → a.corner = b.corner
  fontSize : 1 < i → a.fontSize = b.fontSize
  marginX : 2 < i → a.marginX = b.marginX
  marginY : 3 < i → a.marginY = b.marginY
  showLabel : 4 < i → a.showLabel = b.showLabel
  labelColor : 5 < i → a.labelColor = b.labelColor
  valueColor : 6 < i → a.valueColor = b.valueColor

theorem agreeUpTo_zero (a b : OverlayConfig) : AgreeUpTo 0 a b :=
  ⟨nofun, nofun, nofun, nofun, nofun, nofun, nofun⟩

theorem AgreeUpTo.copyField {i : ℕ} {a b : OverlayConfig} (h : AgreeUpTo i a b) (hi : i < kConfigFields) :
    AgreeUpTo (i + 1) a (copyField i a b) := by
  rw [kConfigFields] at hi
  obtain ⟨h₀, h₁, h₂, h₃, h₄, h₅, h₆⟩ := h
  interval_cases i <;> constructor <;> simp_all [CommonFps.copyField]

theorem AgreeUpTo.eq {i : ℕ} {a b : OverlayConfig} (h : AgreeUpTo i a b) (hi : ¬i < kConfigFields) :
    a = b := by
  have hi : 7 ≤ i := not_lt.1 hi
  cases a
  cases b
  obtain ⟨h₀, h₁, h₂, h₃, h₄, h₅, h₆⟩ := h
  simp only [OverlayConfig.mk.injEq]
  exact ⟨h₀ (by omega), h₁ (by omega), h₂ (by omega), h₃ (by omega), h₄ (by omega), h₅ (by omega),
    h₆ (by omega)⟩

/-- What holds while a thread has the mutex, if `config` was saved last: the store has it, and so
    would a new one, but from when the file of a save is written until it returns. -/
def StorePhase.Keeps (config : OverlayConfig) (phase : StorePhase) (store : SettingsStore) : Prop :=
  match phase with
  | .idle => store.config = config ∧ loadSettings store.files.final = config
  | .copying i copy =>
    store.config = config ∧ loadSettings store.files.final = config ∧ AgreeUpTo i config copy
  | .writing next _ => store.config = config ∧ loadSettings store.files.final = config ∧ Whole next
  | .assigning i next => AgreeUpTo i next store.config ∧ loadSettings store.files.final = next

/-- The file, written for a save. -/
theorem loadSettings_atomicWrite {next : OverlayConfig} (hnext : Whole next) (answers : SaveAnswers)
    (files : SettingsFiles) :
    let write := atomicWrite answers files (serializeConfig next)
    loadSettings (write.2.getLastD files).final = if write.1 then next else loadSettings files.final := by
  intro write
  split_ifs with h
  · have htrace : write.2 = _ := atomicWrite_succeeded h
    rw [htrace, List.getLastD_concat, loadSettings_serializeConfig hnext]
  · have hfinal := atomicWrite_failed (eq_false_of_ne_true h)
    rw [List.getLastD_eq_getLast?]
    cases hlast : write.2.getLast? with
    | none => rfl
    | some f => exact congrArg loadSettings (hfinal f (List.mem_of_getLast? hlast))

/-- What a step of a thread leaves saved last. -/
def StoreReturn.config (config : OverlayConfig) : StoreReturn → OverlayConfig
  | .saved next true => next
  | _ => config

theorem StorePhase.Keeps.step {config : OverlayConfig} {phase : StorePhase} {store : SettingsStore}
    (h : phase.Keeps config store) (call : StoreCall) :
    (phase.step store call).1.Keeps ((phase.step store call).2.2.config config)
      (phase.step store call).2.1 := by
  cases phase with
  | idle =>
    cases call with
    | get => exact ⟨h.1, h.2, agreeUpTo_zero _ _⟩
    | save form answers =>
      refine ⟨h.1, h.2, ?_⟩
      rw [form.whole.sanitized]
      exact form.whole
    | go => exact h
  | copying i copy =>
    obtain ⟨hconfig, hfile, hagree⟩ := h
    rw [StorePhase.step]
    split_ifs with hi
    · exact ⟨hconfig, hfile, hconfig ▸ hagree.copyField hi⟩
    · exact ⟨hconfig, hfile⟩
  | writing next answers =>
    obtain ⟨hconfig, hfile, hnext⟩ := h
    have hload := loadSettings_atomicWrite hnext answers store.files
    rw [StorePhase.step]
    split_ifs with hok
    · exact ⟨agreeUpTo_zero _ _, hload.trans (if_pos hok)⟩
    · exact ⟨hconfig, (hload.trans (if_neg hok)).trans hfile⟩
  | assigning i next =>
    obtain ⟨hagree, hfile⟩ := h
    rw [StorePhase.step]
    split_ifs with hi
    · exact ⟨hagree.copyField hi, hfile⟩
    · exact ⟨(hagree.eq hi).symm, hfile⟩

/-- Outside of the mutex nothing changes. -/
theorem StorePhase.step_outside {phase : StorePhase} {store : SettingsStore} {call : StoreCall}
    (h : phase.holds = false) (h' : (phase.step store call).1.holds = false) :
    phase.step store call = (.idle, store, .quiet) := by
  cases phase with
  | idle =>
    cases call with
    | go => rfl
    | _ => cases h'
  | _ => cases h

variable {files ι}

theorem turns_step {config config' : OverlayConfig} {phase : StorePhase} {store : SettingsStore}
    {call : StoreCall} (h : (phase.step store call).2.2.config config = config') :
    settingsStore.Turns (StorePhase.Keeps config) (StorePhase.Keeps config') phase store call where
  own hkeeps := h ▸ hkeeps.step call
  frame hl hl' l hkeeps := by
    have hstep : phase.step store call = (.idle, store, .quiet) := StorePhase.step_outside hl hl'
    rw [hstep] at h
    have hact : settingsStore.act phase store call = (.idle, store, .quiet) := hstep
    rw [hact, ← h]
    exact hkeeps

theorem assignedConfig_succ (n : ℕ) : assignedConfig files ι (n + 1) =
    (((threads files).output ι n).map (StoreReturn.config (assignedConfig files ι n))).getD
      (assignedConfig files ι n) := by
  rw [assignedConfig]
  rcases (threads files).output ι n with - | (_ | _ | ⟨_, _ | _⟩) <;> rfl

/-- The store at every point of a run of its threads. -/
theorem keeps_state (n : ℕ) :
    settingsStore.Guarded (StorePhase.Keeps (assignedConfig files ι n))
      ((threads files).state ι n) := by
  refine Locked.guarded_from (fun k => StorePhase.Keeps (assignedConfig files ι k)) (.fromFiles files) ι
    (Nat.zero_le n) (fun k l store hl => ?_) (Locked.guarded_init ⟨rfl, rfl⟩) (fun k _ _ hout => ?_)
    fun k _ _ l store call hout => turns_step ?_
  · cases l with
    | idle => exact Iff.rfl
    | _ => cases hl
  · have hout : (threads files).output ι k = none := hout
    have hsame : assignedConfig files ι (k + 1) = assignedConfig files ι k := by
      rw [assignedConfig_succ, hout]
      rfl
    rw [hsame]
    exact fun _ _ => id
  · have hout : (threads files).output ι k = some (l.step store call).2.2 := hout
    rw [assignedConfig_succ, hout]
    rfl

/-- Only a thread that has the mutex returns a configuration. -/
theorem phase_of_got {phase : StorePhase} {store : SettingsStore} {call : StoreCall} {copy : OverlayConfig}
    (h : (phase.step store call).2.2 = .got copy) :
    ∃ i, phase = .copying i copy ∧ ¬i < kConfigFields := by
  cases phase with
  | idle => cases call <;> cases h
  | copying i copy' =>
    rw [StorePhase.step] at h
    split_ifs at h with hi
    obtain rfl : copy' = copy := StoreReturn.got.inj h
    exact ⟨i, rfl, hi⟩
  | writing next answers =>
    rw [StorePhase.step] at h
    split_ifs at h
  | assigning i next =>
    rw [StorePhase.step] at h
    split_ifs at h

/-- What a thread that is in a save has of the form with which it began it. -/
def StorePhase.IsBegun (save : Option (PostedForm × SaveAnswers)) : StorePhase → Prop
  | .writing next answers => ∃ form, save = some (form, answers) ∧ next = sanitizeConfig form.config
  | .assigning _ next => ∃ form answers, save = some (form, answers) ∧
      next = sanitizeConfig form.config ∧
      (answers.opened ∧ answers.succeed (serializeConfig next).length)
  | _ => True

theorem atomicWrite_fst (answers : SaveAnswers) (files : SettingsFiles) (data : Bytes) :
    (atomicWrite answers files data).1 = true ↔ answers.opened ∧ answers.succeed data.length := by
  rw [atomicWrite]
  split_ifs with hopen hok hunlink
  · exact iff_of_true rfl ⟨hopen, hok⟩
  · exact iff_of_false not_false fun h => hok h.2
  · exact iff_of_false not_false fun h => hok h.2
  · exact iff_of_false not_false fun h => hopen h.1

/-- A step keeps to the form of its save. -/
theorem StorePhase.IsBegun.step {save : Option (PostedForm × SaveAnswers)} {phase : StorePhase}
    (h : phase.IsBegun save) (store : SettingsStore) (call : StoreCall) :
    (phase.step store call).1.IsBegun ((phase.begins call).or save) := by
  cases phase with
  | idle =>
    cases call with
    | save form answers => exact ⟨form, rfl, rfl⟩
    | get | go => trivial
  | copying i copy =>
    rw [StorePhase.step]
    split_ifs <;> trivial
  | writing next answers =>
    obtain ⟨form, hsave, hnext⟩ := h
    rw [StorePhase.step]
    split_ifs with hok
    · exact ⟨form, answers, hsave, hnext, (atomicWrite_fst _ _ _).1 hok⟩
    · trivial
  | assigning i next =>
    rw [StorePhase.step]
    split_ifs
    · exact h
    · trivial

/-- What a save returns: that of its form, and whether all its system calls succeeded. -/
theorem StorePhase.IsBegun.saved {save : Option (PostedForm × SaveAnswers)} {phase : StorePhase}
    {store : SettingsStore} {call : StoreCall} {next : OverlayConfig} {ok : Bool}
    (h : phase.IsBegun save) (hsaved : (phase.step store call).2.2 = .saved next ok) :
    ∃ form answers, save = some (form, answers) ∧ next = sanitizeConfig form.config ∧
      (ok = true ↔ answers.opened ∧ answers.succeed (serializeConfig next).length) := by
  cases phase with
  | idle => cases call <;> cases hsaved
  | copying i copy =>
    rw [StorePhase.step] at hsaved
    split_ifs at hsaved
  | writing next' answers =>
    obtain ⟨form, hsave, hnext⟩ := h
    rw [StorePhase.step] at hsaved
    split_ifs at hsaved with hok
    obtain ⟨rfl, rfl⟩ := StoreReturn.saved.inj hsaved
    exact ⟨form, answers, hsave, hnext, iff_of_false Bool.false_ne_true fun h =>
      hok ((atomicWrite_fst _ _ _).2 h)⟩
  | assigning i next' =>
    obtain ⟨form, answers, hsave, hnext, hok⟩ := h
    rw [StorePhase.step] at hsaved
    split_ifs at hsaved
    obtain ⟨rfl, rfl⟩ := StoreReturn.saved.inj hsaved
    exact ⟨form, answers, hsave, hnext, iff_of_true rfl hok⟩

/-- In every run, a thread keeps to the form of its save. -/
theorem isBegun_state (w : W) (n : ℕ) :
    (((threads files).state ι n).phase w).IsBegun (begunSave files ι w n) := by
  induction n with
  | zero => trivial
  | succ n ih =>
    rw [begunSave]
    rcases Locked.step_cases (p := settingsStore) ((threads files).state ι n) (ι n) with hwait |
      ⟨-, hstep⟩
    · have hout : (threads files).output ι n = none := congrArg Prod.snd hwait
      have hstate : (threads files).state ι (n + 1) = (threads files).state ι n := congrArg Prod.fst hwait
      rw [hstate, hout, if_neg (by simp)]
      exact ih
    · have hout : (threads files).output ι n = some _ := congrArg Prod.snd hstep
      have hstate : (threads files).state ι (n + 1) = settingsStore.moved _ _ _ _ :=
        congrArg Prod.fst hstep
      rw [hstate, hout]
      by_cases hw : (ι n).1 = w
      · subst hw
        rw [if_pos ⟨rfl, rfl⟩, Locked.moved_phase_self]
        exact ih.step _ _
      · rw [if_neg fun h => hw h.1, Locked.moved_phase_of_ne fun h => hw h.symm]
        exact ih

theorem begun_of_saved {n : ℕ} {next : OverlayConfig} {ok : Bool}
    (hout : (threads files).output ι n = some (.saved next ok)) :
    ∃ form answers, begunSave files ι (ι n).1 n = some (form, answers) ∧
      next = sanitizeConfig form.config ∧
      (ok = true ↔ answers.opened ∧ answers.succeed (serializeConfig next).length) := by
  have hlast : ((((threads files).state ι n).phase (ι n).1).step ((threads files).state ι n).resource
      (ι n).2).2.2 = .saved next ok := by
    rcases Locked.step_cases (p := settingsStore) ((threads files).state ι n) (ι n) with hwait |
      ⟨-, hstep⟩
    · have hnone : (threads files).output ι n = none := congrArg Prod.snd hwait
      rw [hnone] at hout
      cases hout
    · have hsome : (threads files).output ι n = some _ := congrArg Prod.snd hstep
      exact Option.some.inj (hsome.symm.trans hout)
  exact (isBegun_state (ι n).1 n).saved hlast

/-- The store was given what the form that was saved last holds. -/
theorem assignedConfig_eq (n : ℕ) : assignedConfig files ι n = savedConfig files ι n := by
  induction n with
  | zero => rfl
  | succ n ih =>
    rw [assignedConfig, savedConfig]
    cases hout : (threads files).output ι n with
    | none => exact ih
    | some result =>
      rcases result with _ | copy | ⟨next, _ | _⟩
      · exact ih
      · exact ih
      · exact ih
      · obtain ⟨form, answers, hbegun, hnext, -⟩ := begun_of_saved hout
        simp [hbegun, hnext]

/-- Whatever the threads of a store do, and whichever calls of their saves fail: what a thread reads
    is the configuration of the form that was saved last before, as a whole, and a new store would
    load it then; while no thread has the mutex the store has that one; and a save returns whether
    all its system calls succeeded. -/
theorem settings_whole (files : SettingsFiles) (ι : ℕ → W × StoreCall) (n : ℕ) :
    let store := ((threads files).state ι n).resource
    (∀ copy, (threads files).output ι n = some (.got copy) →
      copy = savedConfig files ι n ∧ loadSettings store.files.final = copy) ∧
    (((threads files).state ι n).lock = none →
      store.config = savedConfig files ι n ∧ loadSettings store.files.final = store.config) ∧
    ∀ next ok, (threads files).output ι n = some (.saved next ok) →
      ∃ form answers, begunSave files ι (ι n).1 n = some (form, answers) ∧
        next = sanitizeConfig form.config ∧
        (ok = true ↔ answers.opened ∧ answers.succeed (serializeConfig next).length) := by
  intro store
  have hassigned : assignedConfig files ι n = savedConfig files ι n := assignedConfig_eq n
  have hkeeps : settingsStore.Guarded (StorePhase.Keeps (savedConfig files ι n))
      ((threads files).state ι n) := hassigned ▸ keeps_state n
  refine ⟨fun copy hout => ?_, fun hfree => ?_, fun next ok => begun_of_saved⟩
  · have hcopying : ∃ i, ((threads files).state ι n).phase (ι n).1 = .copying i copy ∧
        ¬i < kConfigFields := by
      rcases Locked.step_cases (p := settingsStore) ((threads files).state ι n) (ι n) with hwait |
        ⟨-, hstep⟩
      · have hnone : (threads files).output ι n = none := congrArg Prod.snd hwait
        rw [hnone] at hout
        cases hout
      · have hsome : (threads files).output ι n = some _ := congrArg Prod.snd hstep
        rw [hsome] at hout
        exact phase_of_got (Option.some.inj hout)
    obtain ⟨i, hphase, hi⟩ := hcopying
    have hlock : ((threads files).state ι n).lock = some (ι n).1 := by
      refine (Locked.exclusive (p := settingsStore) (SettingsStore.fromFiles files) ι n (ι n).1).1 ?_
      show settingsStore.holds (((threads files).state ι n).phase (ι n).1) = true
      rw [hphase]
      rfl
    have hheld := hkeeps.2 _ hlock
    rw [hphase] at hheld
    obtain ⟨-, hfile, hagree⟩ := hheld
    obtain rfl := hagree.eq hi
    exact ⟨rfl, hfile⟩
  · obtain ⟨hconfig, hfile⟩ := hkeeps.1 hfree
    exact ⟨hconfig, hfile.trans hconfig.symm⟩

/-- A form with another size of the text. -/
def largeForm : PostedForm where
  body := ascii ("corner=bottom_left&font_size=30&margin_x=10&margin_y=4" ++
    "&show_label=1&label_color=%23B366FF&value_color=%23FFFFFF")
  config := { fontSize := 30 }
  parsed := by decide +kernel

/-- A thread saves a form, after a save that fails; another one waits to read the settings. -/
def savingThreads (k : ℕ) : Bool × StoreCall :=
  if k = 0 then (true, .save largeForm { synced := false })
  else if k = 2 then (true, .save largeForm { writes := [.wrote 7, .interrupted, .wrote 500] })
  else if k = 3 ∨ 13 ≤ k then (false, .get)
  else (true, .go)

theorem settings_whole_saving :
    (threads {}).output savingThreads 21 = some (.got largeForm.config) ∧
      savedConfig {} savingThreads 21 = largeForm.config ∧
      (threads {}).output savingThreads 1 = some (.saved largeForm.config false) ∧
      ∃ form answers, begunSave {} savingThreads true 1 = some (form, answers) ∧
        ¬(answers.opened ∧ answers.succeed (serializeConfig largeForm.config).length) := by
  have hgot : (threads {}).output savingThreads 21 = some (.got largeForm.config) := by decide +kernel
  have hfailed : (threads {}).output savingThreads 1 = some (.saved largeForm.config false) := by
    decide +kernel
  have hread := ((settings_whole {} savingThreads 21).1 _ hgot).1
  obtain ⟨form, answers, hbegun, -, hok⟩ := (settings_whole {} savingThreads 1).2.2 _ _ hfailed
  exact ⟨hgot, hread.symm, hfailed, form, answers, hbegun, fun h => absurd (hok.2 h) (by decide)⟩

end Threads

/-! ## Requests -/

/-- What happens to the settings service: a client, whose bytes and calls to write the file are
    inputs, or a new start of the program. -/
inductive ServiceEvent
  | client (answers : List RecvAnswer) (saves : SaveAnswers)
  | restart

/-- The settings service, from the files found; a step gives the reply to the client. -/
def settingsService (files : SettingsFiles) (page : Bytes) :
    Driven SettingsStore ServiceEvent (Option HttpReply) where
  init := .fromFiles files
  step store
    | .client answers saves =>
      match client answers store page saves with
      | some (reply, _, store) => (store, some reply)
      | none => (store, none)
    | .restart => (.fromFiles store.files, none)

section Requests

variable {bytes page : Bytes} {store : SettingsStore} {answers : SaveAnswers}

/-- A request changes the settings to those that it may, if the reply says so, and else nothing. -/
theorem settingsHttpResponse_cases (bytes : Bytes) (store : SettingsStore) (page : Bytes)
    (answers : SaveAnswers) :
    ∃ reply trace store', settingsHttpResponse bytes store page answers = some (reply, trace, store') ∧
      ((∃ config, IsAuthorised bytes config ∧ (∀ config', IsAuthorised bytes config' →
        config' = config) ∧
          Whole config ∧ reply.status = 200 ∧ store'.config = config ∧
          store'.files.final = some (serializeConfig config)) ∨
        ((∀ config, IsAuthorised bytes config → reply.status ≠ 200) ∧ store'.config = store.config ∧
          store'.files.final = store.files.final)) := by
  obtain ⟨result, hparse⟩ := Option.isSome_iff_exists.1 (parseRequest_isSome bytes)
  rw [settingsHttpResponse, hparse]
  cases result with
  | error reply =>
    refine ⟨reply, [], store, rfl, .inr ⟨fun config hauthorised => ?_, rfl, rfl⟩⟩
    obtain ⟨text, htext, h⟩ := hauthorised
    obtain ⟨request, hok, -⟩ := parseRequest_of_authorised h
    rw [← htext, hparse] at hok
    cases hok
  | ok request =>
    by_cases hform : request.method = ascii "POST" ∧ request.path = ascii "/api/config" ∧
        sameOrigin request.headers ∧ ∃ config, parseSettingsForm request.body = some (some config)
    · obtain ⟨hmethod, hpath, horigin, config, hform⟩ := hform
      obtain ⟨reply, hrespond, hstatus⟩ :=
        respond_of_form store page answers hmethod hpath horigin hform
      have hwhole := whole_of_parseSettingsForm hform
      refine ⟨reply, _, _, hrespond, ?_⟩
      cases hsaved : (store.save config answers).1 with
      | true =>
        obtain ⟨hconfig, hfiles, -⟩ := SettingsStore.save_succeeded hsaved
        rw [hwhole.sanitized] at hconfig hfiles
        rw [if_pos hsaved] at hstatus
        refine .inl ⟨config, isAuthorised_of_parseRequest hparse hmethod hpath horigin hform,
          fun config' hauthorised => ?_, hwhole, hstatus, hconfig, congrArg SettingsFiles.final hfiles⟩
        -- A form has one meaning.
        obtain ⟨text, htext, h⟩ := hauthorised
        obtain ⟨request', hok, -, -, -, hform'⟩ := parseRequest_of_authorised h
        rw [← htext, hparse] at hok
        cases hok
        exact Option.some.inj (Option.some.inj (hform'.symm.trans hform))
      | false =>
        obtain ⟨hconfig, hfinal, -⟩ := SettingsStore.save_failed hsaved
        rw [hsaved, if_neg Bool.false_ne_true] at hstatus
        exact .inr ⟨fun _ _ => hstatus ▸ by decide, hconfig, hfinal⟩
    · obtain ⟨reply, hrespond⟩ := respond_of_no_form store page answers hform
      refine ⟨reply, [], store, hrespond, .inr ⟨fun config hauthorised => ?_, rfl, rfl⟩⟩
      obtain ⟨text, htext, h⟩ := hauthorised
      obtain ⟨request', hok, hmethod, hpath, horigin, hform'⟩ := parseRequest_of_authorised h
      rw [← htext, hparse] at hok
      cases hok
      exact absurd ⟨hmethod, hpath, horigin, config, hform'⟩ hform

/-- The bytes are those of a request to read the settings. -/
def ReadsConfig (bytes : Bytes) : Prop :=
  ∃ request, parseRequest bytes = some (.ok request) ∧ request.method = ascii "GET" ∧
    request.path = ascii "/api/config"

theorem settingsHttpResponse_of_readsConfig (h : ReadsConfig bytes) (store : SettingsStore) (page : Bytes)
    (answers : SaveAnswers) : settingsHttpResponse bytes store page answers =
      some (response 200 "OK" (serializeConfig store.config), [], store) := by
  obtain ⟨request, hparse, hmethod, hpath⟩ := h
  have hroot : request.path ≠ ascii "/" := by
    rw [hpath]
    decide
  rw [settingsHttpResponse, hparse]
  show respond request store page answers = _
  rw [respond, if_neg (fun h => hroot h.2), if_pos ⟨hmethod, hpath⟩]
  rfl

variable (files : SettingsFiles) (page : Bytes) (ι : ℕ → ServiceEvent)

/-- In the step `k` a client posted this configuration, and was told that it is saved. -/
def Posted (k : ℕ) (config : OverlayConfig) : Prop :=
  ∃ answers saves reply, ι k = .client answers saves ∧ IsAuthorised (readRequest answers) config ∧
    (settingsService files page).output ι k = some reply ∧ reply.status = 200

/-- The configuration was posted last before the step `n`, or none was, and it is the one loaded. -/
def PostedLast (n : ℕ) (config : OverlayConfig) : Prop :=
  (∃ k < n, Posted files page ι k config ∧ ∀ i, k < i → i < n → ∀ config',
    ¬Posted files page ι i config') ∨
    config = loadSettings files.final ∧ ∀ i < n, ∀ config', ¬Posted files page ι i config'

variable {files page ι}

theorem PostedLast.succ {n : ℕ} {config : OverlayConfig} (h : PostedLast files page ι n config)
    (hno : ∀ config', ¬Posted files page ι n config') : PostedLast files page ι (n + 1) config := by
  have hbefore (i : ℕ) (hi : i < n + 1) : i < n ∨ i = n := Nat.lt_succ_iff_lt_or_eq.1 hi
  rcases h with ⟨k, hk, hposted, hlast⟩ | ⟨hloaded, hnone⟩
  · refine .inl ⟨k, hk.trans n.lt_succ_self, hposted, fun i hki hi => ?_⟩
    rcases hbefore i hi with hi | rfl
    · exact hlast i hki hi
    · exact hno
  · refine .inr ⟨hloaded, fun i hi => ?_⟩
    rcases hbefore i hi with hi | rfl
    · exact hnone i hi
    · exact hno

/-- The store has the configuration that was posted last, and so would a new one. -/
theorem postedLast_state (n : ℕ) :
    let store := (settingsService files page).state ι n
    PostedLast files page ι n store.config ∧ loadSettings store.files.final = store.config := by
  induction n with
  | zero => exact ⟨.inr ⟨rfl, nofun⟩, rfl⟩
  | succ n ih =>
    obtain ⟨hlast, hload⟩ := ih
    cases hn : ι n with
    | restart =>
      have hstate : (settingsService files page).state ι (n + 1) =
          .fromFiles ((settingsService files page).state ι n).files := by
        rw [Driven.state_succ, hn]
        rfl
      rw [hstate]
      refine ⟨?_, rfl⟩
      show PostedLast files page ι (n + 1) (loadSettings ((settingsService files page).state ι n).files.final)
      rw [hload]
      refine hlast.succ fun config ⟨answers, saves, _, hclient, _⟩ => ?_
      rw [hn] at hclient
      cases hclient
    | client answers saves =>
      obtain ⟨reply, trace, store', hresponse, hcases⟩ := settingsHttpResponse_cases (readRequest answers)
        ((settingsService files page).state ι n) page saves
      have hstep : (settingsService files page).step ((settingsService files page).state ι n) (ι n) =
          (store', some reply) := by
        rw [hn]
        show (match settingsHttpResponse _ _ _ _ with
          | some (reply, _, store) => (store, some reply)
          | none => _) = _
        rw [hresponse]
      have hout : (settingsService files page).output ι n = some reply := congrArg Prod.snd hstep
      rw [Driven.state_succ, hstep]
      rcases hcases with ⟨config, hauthorised, hunique, hwhole, hstatus, hconfig, hfinal⟩ |
        ⟨hno, hconfig, hfinal⟩
      · dsimp only
        rw [hconfig, hfinal, loadSettings_serializeConfig hwhole]
        exact ⟨.inl ⟨n, n.lt_succ_self, ⟨answers, saves, reply, hn, hauthorised, hout, hstatus⟩,
          fun i hni hi => absurd hi (not_lt.2 hni)⟩, rfl⟩
      · dsimp only
        rw [hconfig, hfinal]
        refine ⟨hlast.succ fun config ⟨answers', saves', reply', hclient, hauthorised, hout',
          hstatus⟩ => ?_,
          hload⟩
        rw [hn] at hclient
        cases hclient
        rw [hout] at hout'
        cases hout'
        exact hno config hauthorised hstatus

/-- Whatever clients send, whichever calls of the saves fail, and across restarts: what a client reads
    is the configuration that was posted last with success, or the one loaded at first. -/
theorem settings_read_back (files : SettingsFiles) (page : Bytes) (ι : ℕ → ServiceEvent) (n : ℕ)
    (answers : List RecvAnswer) (saves : SaveAnswers) (hn : ι n = .client answers saves)
    (hread : ReadsConfig (readRequest answers)) :
    ∃ config, PostedLast files page ι n config ∧
      (settingsService files page).output ι n = some (response 200 "OK" (serializeConfig config)) := by
  refine ⟨_, (postedLast_state n).1, ?_⟩
  have hresponse := settingsHttpResponse_of_readsConfig hread ((settingsService files page).state ι n)
    page saves
  rw [Driven.output, hn]
  show (match settingsHttpResponse _ _ _ _ with
    | some (reply, _, store) => (store, some reply)
    | none => _).2 = _
  rw [hresponse]

end Requests

/-- A request to read the settings. -/
def configRequest : Bytes :=
  ascii "GET /api/config HTTP/1.1" ++ crlf ++ ascii "Host: 127.0.0.1:39029" ++ crlf ++ crlf

/-- The page posts its form, the program starts anew, and the settings are read. -/
def postThenRead : ℕ → ServiceEvent
  | 0 => .client [.received pageRequest.bytes, .ended] { writes := [.wrote 500] }
  | 1 => .restart
  | _ => .client [.received configRequest, .ended] { writes := [] }

theorem settings_read_back_restart : ∃ config, PostedLast {} [] postThenRead 2 config ∧
    (settingsService {} []).output postThenRead 2 = some (response 200 "OK" (serializeConfig config)) := by
  have hrequest : readRequest [.received configRequest, .ended] = configRequest := by decide +kernel
  have hread : ReadsConfig (readRequest [.received configRequest, .ended]) := by
    rw [hrequest]
    exact ⟨⟨ascii "GET", ascii "/api/config", [(ascii "host", kSettingsHost)], []⟩, rfl, rfl, rfl⟩
  exact settings_read_back {} [] postThenRead 2 _ _ rfl hread

end CommonFps
