import CommonFps.Lib.Driven
import CommonFps.Settings.Form

/-!
# The store of the settings

The settings in memory and in their file (`SettingsStore` and `atomic_write` in
`settings.cpp`). A save writes a second file and renames it over the first one;
each system call of it may fail. A store opened on the path reads the file, if
it is not too long.

* `atomicWrite`: the outcome of a save and the files after each call of it;
* `SettingsStore.driven`: the store under saves and re-openings, in any order;
* `settings_survive`: what a form holds is read back from its text, and at every
  point of every run the file and the store hold the last configuration that was
  saved successfully.
-/

namespace CommonFps

/-- The bound on the size of the file, and on that of a request. -/
def kMaxSettingsBytes : ℕ := 4096

/-! ## Writing the file -/

/-- The settings file, and the one that is renamed over it. -/
structure SettingsFiles where
  final : Option Bytes := none
  pending : Option Bytes := none
  deriving DecidableEq

/-- An answer to `write`. -/
inductive WriteAnswer
  | wrote (n : ℕ)
  | interrupted
  | failed

/-- The answers to the calls of a save. A `write` beyond those answered fails. -/
structure SaveAnswers where
  opened : Bool := true
  writes : List WriteAnswer := []
  synced : Bool := true
  closed : Bool := true
  renamed : Bool := true
  unlinked : Bool := true

/-- The loop writing `size` bytes from `offset` on: the offsets it reaches. -/
def writeLoop (size : ℕ) : List WriteAnswer → ℕ → List ℕ
  | [], _ => []
  | answer :: answers, offset =>
    if size ≤ offset then []
    else match answer with
      | .interrupted => writeLoop size answers offset
      | .failed | .wrote 0 => []
      | .wrote n =>
        let offset := offset + min n (size - offset)
        offset :: writeLoop size answers offset

namespace SaveAnswers

/-- The offsets up to which `size` bytes are written, from the opening on. -/
def offsets (answers : SaveAnswers) (size : ℕ) : List ℕ := 0 :: writeLoop size answers.writes 0

/-- Everything is written, and no later call fails. -/
def succeed (answers : SaveAnswers) (size : ℕ) : Bool :=
  (answers.offsets size).getLastD 0 = size && answers.synced && answers.closed && answers.renamed

end SaveAnswers

/-- The files while the data is written. -/
def writtenFiles (answers : SaveAnswers) (files : SettingsFiles) (data : Bytes) :
    List SettingsFiles :=
  (answers.offsets data.length).map fun n => { files with pending := some (data.take n) }

/-- Whether the data is in the file, and the files after each call that may
    change them, in order. -/
def atomicWrite (answers : SaveAnswers) (files : SettingsFiles) (data : Bytes) :
    Bool × List SettingsFiles :=
  let written := writtenFiles answers files data
  if ¬answers.opened then (false, [])
  else if answers.succeed data.length then
    (true, written ++ [{ final := (written.getLastD files).pending, pending := none }])
  else if answers.unlinked then (false, written ++ [{ files with pending := none }])
  else (false, written)

/-! ## The store -/

/-- The configuration of a store, and the files at its path. -/
structure SettingsStore where
  config : OverlayConfig
  files : SettingsFiles

/-- The configuration that a new store reads from the file. -/
def loadSettings (final : Option Bytes) : OverlayConfig :=
  match final with
  | none => {}
  | some data => if data.length ≤ kMaxSettingsBytes then parseConfigText data else {}

namespace SettingsStore

/-- A new store. -/
def fromFiles (files : SettingsFiles) : SettingsStore := ⟨loadSettings files.final, files⟩

/-- Whether a configuration was saved, the files on the way, and the store
    afterwards. -/
def save (store : SettingsStore) (config : OverlayConfig) (answers : SaveAnswers) :
    Bool × List SettingsFiles × SettingsStore :=
  let next := sanitizeConfig config
  let write := atomicWrite answers store.files (serializeConfig next)
  (write.1, write.2, ⟨if write.1 then next else store.config, write.2.getLastD store.files⟩)

end SettingsStore

/-- What happens to a store. -/
inductive StoreEvent
  | save (config : OverlayConfig) (answers : SaveAnswers)
  | reopen

namespace SettingsStore

/-- The store under saves and re-openings; a step tells whether it saved, and the
    files on the way. -/
def driven (files : SettingsFiles) : Driven SettingsStore StoreEvent (Bool × List SettingsFiles) where
  init := fromFiles files
  step store
    | .save config answers =>
      let (ok, trace, store) := store.save config answers
      (store, ok, trace)
    | .reopen => (fromFiles store.files, false, [])

end SettingsStore

/-! ## What a save does -/

section Save

variable {answers : SaveAnswers} {files : SettingsFiles} {data : Bytes}

theorem final_of_mem_writtenFiles {f : SettingsFiles} (h : f ∈ writtenFiles answers files data) :
    f.final = files.final := by
  obtain ⟨n, -, rfl⟩ := List.mem_map.1 h
  rfl

/-- The file that a save succeeding renames is complete. -/
theorem pending_of_succeed (h : answers.succeed data.length) :
    ((writtenFiles answers files data).getLastD files).pending = some data := by
  simp only [SaveAnswers.succeed, Bool.and_eq_true, decide_eq_true_iff] at h
  have hlast := h.1.1.1
  rw [writtenFiles]
  rw [SaveAnswers.offsets] at hlast ⊢
  rw [List.getLastD_eq_getLast?] at hlast ⊢
  rw [List.getLast?_map]
  cases hl : (0 :: writeLoop data.length answers.writes 0).getLast? with
  | none => rw [List.getLast?_eq_none_iff] at hl; cases hl
  | some n =>
    rw [hl] at hlast
    have hn : n = data.length := hlast
    exact congrArg some (by rw [hn, List.take_length])

/-- A save that fails leaves the file as it was, at each point. -/
theorem atomicWrite_failed (h : (atomicWrite answers files data).1 = false) :
    ∀ f ∈ (atomicWrite answers files data).2, f.final = files.final := by
  revert h
  rw [atomicWrite]
  split_ifs with hopen hok hunlink
  · exact False.elim
  · intro _ f hf
    rcases List.mem_append.1 hf with hf | hf
    · exact final_of_mem_writtenFiles hf
    · rw [List.mem_singleton.1 hf]
  · exact fun _ f hf => final_of_mem_writtenFiles hf
  · exact fun _ f hf => absurd hf List.not_mem_nil

/-- A save that succeeds replaces the file at its end. -/
theorem atomicWrite_succeeded (h : (atomicWrite answers files data).1 = true) :
    (atomicWrite answers files data).2 = writtenFiles answers files data ++ [⟨some data, none⟩] := by
  rw [atomicWrite] at h ⊢
  split_ifs at h ⊢ with hopen hok
  rw [pending_of_succeed hok]

end Save

namespace SettingsStore

variable {store : SettingsStore} {config : OverlayConfig} {answers : SaveAnswers}

/-- A save that fails changes neither the configuration nor the file. -/
theorem save_failed (h : (store.save config answers).1 = false) :
    (store.save config answers).2.2.config = store.config ∧
      (store.save config answers).2.2.files.final = store.files.final ∧
        ∀ f ∈ (store.save config answers).2.1, f.final = store.files.final := by
  have hfinal := atomicWrite_failed h
  have h : (atomicWrite answers store.files (serializeConfig (sanitizeConfig config))).1 = false := h
  refine ⟨?_, ?_, hfinal⟩
  · simp only [save, h, Bool.false_eq_true, if_false]
  · simp only [save, List.getLastD_eq_getLast?]
    cases hl : (atomicWrite answers store.files (serializeConfig (sanitizeConfig config))).2.getLast? with
    | none => rfl
    | some f => exact hfinal f (List.mem_of_getLast? hl)

theorem save_succeeded (h : (store.save config answers).1 = true) :
    (store.save config answers).2.2.config = sanitizeConfig config ∧
      (store.save config answers).2.2.files = ⟨some (serializeConfig (sanitizeConfig config)), none⟩ ∧
        ∀ f ∈ (store.save config answers).2.1, f.final = store.files.final ∨
          f = (store.save config answers).2.2.files := by
  have h : (atomicWrite answers store.files (serializeConfig (sanitizeConfig config))).1 = true := h
  have htrace := atomicWrite_succeeded h
  simp only [save, h, htrace, List.getLastD_concat]
  refine ⟨rfl, trivial, fun f hf => ?_⟩
  rcases List.mem_append.1 hf with hf | hf
  · exact .inl (final_of_mem_writtenFiles hf)
  · exact .inr (List.mem_singleton.1 hf)

end SettingsStore

/-! ## Runs -/

/-- The last configuration saved successfully before the step `n`. -/
def lastSaved (files : SettingsFiles) (ι : ℕ → StoreEvent) : ℕ → Option OverlayConfig
  | 0 => none
  | n + 1 => match ι n with
    | .save config _ =>
      if ((SettingsStore.driven files).output ι n).1 then some config else lastSaved files ι n
    | .reopen => lastSaved files ι n

/-- Every configuration to save comes from a form. -/
def SavesForms (ι : ℕ → StoreEvent) : Prop :=
  ∀ n config answers, ι n = .save config answers →
    ∃ body, parseSettingsForm body = some (some config)

/-- The file is the one found initially, or that of the last configuration saved;
    the store has what it says, and so would a new one. -/
def IsCurrent (found : Option Bytes) (saved : Option OverlayConfig) (store : SettingsStore) : Prop :=
  match saved with
  | none => store.files.final = found ∧ store.config = loadSettings found
  | some config => store.files.final = some (serializeConfig config) ∧ store.config = config ∧
      sameConfig (loadSettings store.files.final) config

theorem sameConfig_self {cfg : OverlayConfig} (h : Whole cfg) : sameConfig cfg cfg := by
  obtain ⟨x, hx⟩ := h.marginX
  obtain ⟨y, hy⟩ := h.marginY
  simp [sameConfig, hx, hy]

theorem loadSettings_serializeConfig {cfg : OverlayConfig} (h : Whole cfg) :
    loadSettings (some (serializeConfig cfg)) = cfg := by
  have hlen : (serializeConfig cfg).length ≤ kMaxSettingsBytes := length_serializeConfig_le h
  exact (if_pos hlen).trans (parseConfigText_serializeConfig h)

section Run

variable (files : SettingsFiles) {ι : ℕ → StoreEvent}

theorem state_of_save {n : ℕ} {config : OverlayConfig} {answers : SaveAnswers}
    (h : ι n = .save config answers) :
    let saved := ((SettingsStore.driven files).state ι n).save config answers
    (SettingsStore.driven files).output ι n = (saved.1, saved.2.1) ∧
      (SettingsStore.driven files).state ι (n + 1) = saved.2.2 := by
  rw [Driven.output, Driven.state_succ, h]
  exact ⟨rfl, rfl⟩

theorem state_of_reopen {n : ℕ} (h : ι n = .reopen) :
    (SettingsStore.driven files).output ι n = (false, []) ∧
      (SettingsStore.driven files).state ι (n + 1) =
        .fromFiles ((SettingsStore.driven files).state ι n).files := by
  rw [Driven.output, Driven.state_succ, h]
  exact ⟨rfl, rfl⟩

variable {files}

theorem lastSaved_whole (hι : SavesForms ι) {n : ℕ} {config : OverlayConfig}
    (h : lastSaved files ι n = some config) : Whole config := by
  induction n with
  | zero => cases h
  | succ n ih =>
    rw [lastSaved] at h
    split at h
    · next config' answers hn =>
      split_ifs at h with hok
      · obtain ⟨body, hbody⟩ := hι n _ _ hn
        cases h
        exact whole_of_parseSettingsForm hbody
      · exact ih h
    · exact ih h

theorem IsCurrent.congr {found : Option Bytes} {saved : Option OverlayConfig}
    {store store' : SettingsStore} (h : IsCurrent found saved store)
    (hfinal : store'.files.final = store.files.final) (hconfig : store'.config = store.config) :
    IsCurrent found saved store' := by
  cases saved with
  | none => exact ⟨hfinal.trans h.1, hconfig.trans h.2⟩
  | some config => exact ⟨hfinal.trans h.1, hconfig.trans h.2.1, hfinal ▸ h.2.2⟩

/-- Reading the file again gives the configuration that the store has. -/
theorem IsCurrent.config_eq {found : Option Bytes} {saved : Option OverlayConfig}
    {store : SettingsStore} (h : IsCurrent found saved store)
    (hsaved : ∀ config, saved = some config → Whole config) :
    loadSettings store.files.final = store.config := by
  cases saved with
  | none => rw [h.1, h.2]
  | some config => rw [h.1, h.2.1, loadSettings_serializeConfig (hsaved config rfl)]

/-- A step keeps the file and the store in agreement with the last save. -/
theorem isCurrent_succ (hι : SavesForms ι) {n : ℕ}
    (h : IsCurrent files.final (lastSaved files ι n) ((SettingsStore.driven files).state ι n)) :
    IsCurrent files.final (lastSaved files ι (n + 1))
      ((SettingsStore.driven files).state ι (n + 1)) := by
  cases hn : ι n with
  | save config answers =>
    obtain ⟨hout, hstate⟩ := state_of_save files hn
    obtain ⟨body, hbody⟩ := hι n config answers hn
    have hwhole := whole_of_parseSettingsForm hbody
    rw [lastSaved, hn]
    simp only [hout, hstate]
    cases hok : (((SettingsStore.driven files).state ι n).save config answers).1 with
    | true =>
      obtain ⟨hconfig, hfiles, -⟩ := SettingsStore.save_succeeded hok
      rw [hwhole.sanitized] at hconfig hfiles
      rw [if_pos rfl, IsCurrent, hfiles, hconfig, loadSettings_serializeConfig hwhole]
      exact ⟨rfl, rfl, sameConfig_self hwhole⟩
    | false =>
      obtain ⟨hconfig, hfinal, -⟩ := SettingsStore.save_failed hok
      rw [if_neg Bool.false_ne_true]
      exact h.congr hfinal hconfig
  | reopen =>
    obtain ⟨-, hstate⟩ := state_of_reopen files hn
    have hload := h.config_eq fun config hs => lastSaved_whole hι hs
    rw [lastSaved, hn, hstate]
    exact h.congr rfl hload

end Run

/-- What a form holds is in range and is read back from its text, which is short.
    So in every run, whichever calls of the saves fail, the file is at every
    point the one found initially or that of the last configuration saved, the
    store has this configuration, a new store would load it, and a save that
    fails changes nothing. -/
theorem settings_survive :
    (∀ body config, parseSettingsForm body = some (some config) →
      sanitizeConfig config = config ∧ (serializeConfig config).length ≤ kMaxSettingsBytes ∧
        sameConfig (parseConfigText (serializeConfig config)) config) ∧
    ∀ (files : SettingsFiles) (ι : ℕ → StoreEvent), SavesForms ι → ∀ n,
      let run := SettingsStore.driven files
      IsCurrent files.final (lastSaved files ι n) (run.state ι n) ∧
      (∀ f ∈ (run.output ι n).2, f.final = (run.state ι n).files.final ∨
        (run.output ι n).1 = true ∧ f.final = (run.state ι (n + 1)).files.final) ∧
      ∀ config answers, ι n = .save config answers → (run.output ι n).1 = false →
        (run.state ι (n + 1)).files.final = (run.state ι n).files.final ∧
          (run.state ι (n + 1)).config = (run.state ι n).config := by
  constructor
  · intro body config h
    have hwhole := whole_of_parseSettingsForm h
    rw [parseConfigText_serializeConfig hwhole]
    exact ⟨hwhole.sanitized, length_serializeConfig_le hwhole, sameConfig_self hwhole⟩
  · intro files ι hι n
    refine ⟨?_, ?_, ?_⟩
    · induction n with
      | zero => exact ⟨rfl, rfl⟩
      | succ n ih => exact isCurrent_succ hι ih
    · intro f hf
      cases hn : ι n with
      | save config answers =>
        obtain ⟨hout, hstate⟩ := state_of_save files hn
        rw [hout] at hf ⊢
        rw [hstate]
        -- Until a save renames its file, and after a save that fails, the old file is there.
        cases hok : (((SettingsStore.driven files).state ι n).save config answers).1 with
        | true =>
          exact ((SettingsStore.save_succeeded hok).2.2 f hf).imp id fun h =>
            ⟨rfl, congrArg SettingsFiles.final h⟩
        | false => exact .inl ((SettingsStore.save_failed hok).2.2 f hf)
      | reopen =>
        rw [(state_of_reopen files hn).1] at hf
        cases hf
    · intro config answers hn hfailed
      obtain ⟨hout, hstate⟩ := state_of_save files hn
      rw [hout] at hfailed
      obtain ⟨hconfig, hfinal, -⟩ := SettingsStore.save_failed hfailed
      rw [hstate]
      exact ⟨hfinal, hconfig⟩

/-- A save that fails midway, the same in pieces, and re-openings. -/
def saveTwice (config : OverlayConfig) : ℕ → StoreEvent
  | 0 => .save config { writes := [.wrote 7, .failed] }
  | 1 => .save config { writes := [.wrote 7, .interrupted, .wrote 500] }
  | _ => .reopen

theorem settings_survive_saveTwice :
    IsCurrent none (lastSaved {} (saveTwice {}) 1)
        ((SettingsStore.driven {}).state (saveTwice {}) 1) ∧
      lastSaved {} (saveTwice {}) 1 = none ∧
        IsCurrent none (lastSaved {} (saveTwice {}) 3)
            ((SettingsStore.driven {}).state (saveTwice {}) 3) ∧
          lastSaved {} (saveTwice {}) 3 = some {} := by
  have hform : parseSettingsForm (ascii ("corner=bottom_left&font_size=22&margin_x=10&margin_y=4" ++
      "&show_label=1&label_color=%23B366FF&value_color=%23FFFFFF")) = some (some {}) := by
    decide +kernel
  have hι : SavesForms (saveTwice {}) := fun n config answers h => by
    match n with
    | 0 | 1 => exact ⟨_, (StoreEvent.save.inj h).1 ▸ hform⟩
    | n + 2 => cases h
  exact ⟨(settings_survive.2 {} _ hι 1).1, by decide +kernel,
    (settings_survive.2 {} _ hι 3).1, by decide +kernel⟩

end CommonFps
