import CommonFps.Settings.Store
import CommonFps.ShellUi.Kernel

/-!
# The media launcher

The icon on the home screen that opens the settings (`media_launcher.cpp`). When
the controller starts it stages the files of the title, if the system does not
know it yet, and has it installed. The system's installer is called with the
credentials of an installer, taken for that time; any call may fail, and the
process may be killed between any two.

* `ensureMediaLauncher`: what a start of the controller does, moment by moment;
* `media_launcher_contract`: the installer is called with its credentials only,
  for a title whose files are complete, and what is reported of the credentials
  is so;
* `launches`: one start after the other, each killed at any moment;
* `media_launcher_recovers`: the files of another title are never touched, one's
  own are whole at every moment, and a start that is not disturbed installs the
  title, whatever was left by those before.
-/

namespace CommonFps

/-- The credentials with which an app is installed. -/
def kAppInstallerAuth : UInt64 := 0x4800000000000006

/-- What is at a path that should be a directory: `other` is neither absent nor one. -/
inductive DirectoryEntry
  | absent
  | directory
  | other
  deriving DecidableEq

/-- What is at the paths of the title. -/
structure TitleFiles where
  dir : DirectoryEntry := .absent
  sysDir : DirectoryEntry := .absent
  icon : SettingsFiles := {}
  param : SettingsFiles := {}
  /-- At the path of `param.json` there is something, and not a regular file. -/
  paramIsOther : Bool := false
  deriving DecidableEq

/-- The assets that the controller comes with. -/
structure LauncherAssets where
  icon : Bytes
  param : Bytes

/-! ## Staging -/

/-- The outcome of `lstat` and of `mkdir`. -/
structure DirectoryAnswers where
  /-- `lstat` finds out what is there. -/
  stat : Bool := true
  made : Bool := true

/-- A directory is made, unless there is one. -/
def directory (a : DirectoryAnswers) (entry : DirectoryEntry) : Bool × DirectoryEntry :=
  if !a.stat then (false, entry)
  else match entry with
    | .directory => (true, .directory)
    | .other => (false, .other)
    | .absent => if a.made then (true, .directory) else (false, .absent)

/-- A file is staged as a configuration is saved. -/
def asset (answers : SaveAnswers) (files : SettingsFiles) (data : Bytes) : Bool × List SettingsFiles :=
  atomicWrite answers files data

/-- The size of the buffer that `param.json` is read to. -/
def kParamBuffer : ℕ := 1024

/-- How the calls end that stage the title. -/
structure StageAnswers where
  stat : Bool := true
  opened : Bool := true
  /-- `fread` reads as much as it is asked to. -/
  read : Bool := true
  dir : DirectoryAnswers := {}
  sysDir : DirectoryAnswers := {}
  icon : SaveAnswers
  param : SaveAnswers

variable (assets : LauncherAssets)

/-- There is no `param.json`, or it is the controller's own. -/
def canStageOwnedTitle (a : StageAnswers) (files : TitleFiles) : Bool :=
  if !a.stat then false
  else if files.paramIsOther then false
  else match files.param.final with
    | none => true
    | some data => decide (data.length = assets.param.length) &&
        decide (assets.param.length ≤ kParamBuffer) && a.opened && a.read && decide (data = assets.param)

/-- The icon and then `param.json` are staged; what is at the paths after each call. -/
def stageAssets (a : StageAnswers) (files : TitleFiles) : Bool × List TitleFiles :=
  let icon := asset a.icon files.icon assets.icon
  let icons := icon.2.map fun icon => { files with icon := icon }
  let staged := icons.getLastD files
  if !icon.1 then (false, icons)
  else
    let param := asset a.param staged.param assets.param
    (param.1, icons ++ param.2.map fun param => { staged with param := param })

/-- Whether the title is staged, and what is at its paths after each call. -/
def stageTitle (a : StageAnswers) (files : TitleFiles) : Bool × List TitleFiles :=
  if !canStageOwnedTitle assets a files then (false, [])
  else
    let dir := directory a.dir files.dir
    let files := { files with dir := dir.2 }
    if !dir.1 then (false, [files])
    else
      let sysDir := directory a.sysDir files.sysDir
      let made := { files with sysDir := sysDir.2 }
      if !sysDir.1 then (false, [files, made])
      else
        let staged := stageAssets assets a made
        (staged.1, files :: made :: staged.2)

/-! ## Installing -/

/-- A call to the installer of the system. -/
inductive InstallerCall
  | appInstInitialize
  | appExists
  | appInstallTitleDir
  deriving DecidableEq

/-- A moment of a start. -/
structure LauncherMoment where
  /-- The credentials of the controller. -/
  auth : UInt64
  files : TitleFiles
  /-- The call to the installer that is made, if any. -/
  call : Option InstallerCall
  deriving DecidableEq

/-- What the installer says of a title. -/
structure ExistsAnswer where
  rc : ℤ := 0
  present : Bool := false

/-- How the calls of a start end. -/
structure LaunchAnswers where
  /-- The functions of the installer are found. -/
  symbols : Bool := true
  /-- The credentials are read, before they are changed, once they are and once they are back. -/
  originalRead : Bool := true
  elevate : SetAnswer := ⟨0, true⟩
  elevatedRead : Bool := true
  init : ℤ := 0
  check : ExistsAnswer := {}
  stage : StageAnswers
  install : Int32 := 0
  /-- What the installer makes of the files. -/
  installs : TitleFiles → TitleFiles := id
  restore : SetAnswer := ⟨0, true⟩
  restoredRead : Bool := true

/-- What follows once the title is staged: it is installed and looked for again. -/
def installStaged (a : LaunchAnswers) (auth : UInt64) (files : TitleFiles) : List LauncherMoment :=
  let installed := a.installs files
  ⟨auth, files, some .appInstallTitleDir⟩ :: ⟨auth, installed, none⟩ ::
    if a.install = 0 ∨ a.install.toUInt32 = 0x80990002 then [⟨auth, installed, some .appExists⟩] else []

/-- What is done with the credentials of an installer. -/
def installTitle (a : LaunchAnswers) (auth : UInt64) (files : TitleFiles) : List LauncherMoment :=
  ⟨auth, files, some .appInstInitialize⟩ ::
    if a.init ≠ 0 then []
    else ⟨auth, files, some .appExists⟩ ::
      if a.check.rc ≠ 0 ∨ a.check.present then []
      else
        let staged := stageTitle assets a.stage files
        staged.2.map (⟨auth, ·, none⟩) ++
          if staged.1 then installStaged a auth (staged.2.getLastD files) else []

/-- What is done until the credentials are given back: nothing without those of an installer. -/
def withInstallerAuth (a : LaunchAnswers) (auth : UInt64) (files : TitleFiles) : List LauncherMoment :=
  ⟨auth, files, none⟩ ::
    if a.elevate.rc = 0 ∧ a.elevatedRead = true ∧ auth = kAppInstallerAuth then
      installTitle assets a auth files
    else []

/-- Whether the credentials are those of before, and the moments of the start. -/
def ensureMediaLauncher (sdkVersion : UInt32) (a : LaunchAnswers) (auth : UInt64) (files : TitleFiles) :
    Bool × List LauncherMoment :=
  let original := if a.originalRead then auth else 0
  if sdkVersion >>> 24 ≥ 0x12 then (true, [])
  else if !a.symbols then (true, [])
  else if original = 0 ∨ original = -1 then (true, [])
  else
    let elevated := if a.elevate.applied then kAppInstallerAuth else auth
    let moments := withInstallerAuth assets a elevated files
    let restored := if a.restore.applied then original else elevated
    (decide (a.restore.rc = 0 ∧ a.restoredRead = true ∧ restored = original),
      moments ++ [⟨restored, (moments.getLastD ⟨elevated, files, none⟩).files, none⟩])

/-! ## What staging does -/

section Staging

/-- `param.json` is not that of another title. -/
def TitleFiles.Owned (files : TitleFiles) : Prop :=
  files.paramIsOther = false ∧ (files.param.final = none ∨ files.param.final = some assets.param)

/-- The files of the title are all there. -/
def TitleFiles.Complete (files : TitleFiles) : Prop :=
  files.icon.final = some assets.icon ∧ files.param.final = some assets.param

/-- Something that staging may make of the files `files`. -/
structure TitleFiles.Staged (files f : TitleFiles) : Prop where
  dir : f.dir = .other → files.dir = .other
  sysDir : f.sysDir = .other → files.sysDir = .other
  other : f.paramIsOther = files.paramIsOther
  icon : f.icon.final = files.icon.final ∨ f.icon.final = some assets.icon
  param : f.param.final = files.param.final ∨ f.Complete assets

variable {assets} {answers : SaveAnswers} {asked : SettingsFiles} {data : Bytes} {a : StageAnswers}
  {files f : TitleFiles}

/-- While a file is staged, it is what it was, or complete. -/
theorem final_of_mem_asset {f : SettingsFiles} (h : f ∈ (asset answers asked data).2) :
    f.final = asked.final ∨ f.final = some data := by
  cases hok : (asset answers asked data).1 with
  | false => exact .inl (atomicWrite_failed hok f h)
  | true =>
    rw [asset, atomicWrite_succeeded hok] at h
    rcases List.mem_append.1 h with h | h
    · exact .inl (final_of_mem_writtenFiles h)
    · exact .inr (congrArg SettingsFiles.final (List.mem_singleton.1 h))

/-- A file that was staged is complete. -/
theorem asset_last (h : (asset answers asked data).1 = true) :
    ∃ written, (asset answers asked data).2 = written ++ [⟨some data, none⟩] :=
  ⟨_, atomicWrite_succeeded h⟩

theorem TitleFiles.Staged.refl (files : TitleFiles) : files.Staged assets files :=
  ⟨id, id, rfl, .inl rfl, .inl rfl⟩

/-- Once the icon is staged, `param.json` is. -/
theorem stageAssets_of_icon (h : (asset a.icon files.icon assets.icon).1 = true) :
    let iconStaged := { files with icon := ⟨some assets.icon, none⟩ }
    let param := asset a.param files.param assets.param
    ∃ icons, (asset a.icon files.icon assets.icon).2.map (fun icon => { files with icon := icon }) =
        icons ++ [iconStaged] ∧
      stageAssets assets a files =
        (param.1, icons ++ [iconStaged] ++ param.2.map fun param => { iconStaged with param := param }) := by
  intro iconStaged param
  obtain ⟨written, hwritten⟩ := asset_last h
  have hicons : (asset a.icon files.icon assets.icon).2.map (fun icon => { files with icon := icon }) =
      written.map (fun icon => { files with icon := icon }) ++ [iconStaged] := by
    rw [hwritten, List.map_append, List.map_singleton]
  refine ⟨_, hicons, ?_⟩
  rw [stageAssets]
  dsimp only
  rw [hicons, h, List.getLastD_concat]
  rfl

/-- While the assets are staged the files are what they were, or complete. -/
theorem stageAssets_staged (h : f ∈ (stageAssets assets a files).2) : files.Staged assets f := by
  have hicons : ∀ f ∈ (asset a.icon files.icon assets.icon).2.map fun icon => { files with icon := icon },
      files.Staged assets f := by
    intro f hf
    obtain ⟨icon, hicon, rfl⟩ := List.mem_map.1 hf
    exact ⟨id, id, rfl, final_of_mem_asset hicon, .inl rfl⟩
  cases hicon : (asset a.icon files.icon assets.icon).1 with
  | false =>
    rw [stageAssets, hicon] at h
    exact hicons f h
  | true =>
    obtain ⟨icons, heq, hstage⟩ := stageAssets_of_icon (a := a) hicon
    rw [hstage, ← heq] at h
    rcases List.mem_append.1 h with h | h
    · exact hicons f h
    · obtain ⟨param, hparam, rfl⟩ := List.mem_map.1 h
      refine ⟨id, id, rfl, .inr rfl, ?_⟩
      rcases final_of_mem_asset hparam with hfinal | hfinal
      · exact .inl hfinal
      · exact .inr ⟨rfl, hfinal⟩

/-- Assets that were staged are complete. -/
theorem stageAssets_complete (h : (stageAssets assets a files).1 = true) :
    ((stageAssets assets a files).2.getLastD files).Complete assets := by
  cases hicon : (asset a.icon files.icon assets.icon).1 with
  | false =>
    rw [stageAssets, hicon] at h
    cases h
  | true =>
    obtain ⟨icons, -, hstage⟩ := stageAssets_of_icon (a := a) hicon
    rw [hstage] at h
    obtain ⟨written, hwritten⟩ := asset_last h
    rw [hstage, hwritten, List.map_append, List.map_singleton, ← List.append_assoc, List.getLastD_concat]
    exact ⟨rfl, rfl⟩

/-- Only a title of one's own is staged. -/
theorem owned_of_canStage (h : canStageOwnedTitle assets a files = true) : files.Owned assets := by
  rw [canStageOwnedTitle] at h
  split_ifs at h with hstat hother
  refine ⟨Bool.eq_false_iff.2 hother, ?_⟩
  cases hfinal : files.param.final with
  | none => exact .inl rfl
  | some data =>
    simp only [hfinal, Bool.and_eq_true, decide_eq_true_iff] at h
    exact .inr (congrArg some h.2)

/-- A directory that is made is not something else. -/
theorem directory_other {d : DirectoryAnswers} {entry : DirectoryEntry} (h : (directory d entry).2 = .other) :
    entry = .other := by
  cases entry with
  | absent => cases hstat : d.stat <;> cases hmade : d.made <;> simp [directory, hstat, hmade] at h
  | directory => cases hstat : d.stat <;> simp [directory, hstat] at h
  | other => rfl

/-- Staging makes nothing else, of a title of one's own only, and it makes a title complete. -/
theorem stageTitle_spec :
    (∀ f ∈ (stageTitle assets a files).2, files.Owned assets ∧ files.Staged assets f) ∧
    ((stageTitle assets a files).1 = true → files.Owned assets ∧
      ((stageTitle assets a files).2.getLastD files).Complete assets) := by
  cases hcan : canStageOwnedTitle assets a files with
  | false =>
    rw [stageTitle, hcan]
    exact ⟨fun f hf => absurd hf List.not_mem_nil, fun h => absurd h Bool.false_ne_true⟩
  | true =>
    have howned := owned_of_canStage hcan
    -- What is at the paths once the first directory is there, and once both are.
    set dir := (directory a.dir files.dir).2 with hdir
    set sysDir := (directory a.sysDir files.sysDir).2 with hsysDir
    have hone : files.Staged assets { files with dir := dir } :=
      ⟨fun h => directory_other (hdir ▸ h), id, rfl, .inl rfl, .inl rfl⟩
    have hboth : files.Staged assets { files with dir := dir, sysDir := sysDir } :=
      ⟨fun h => directory_other (hdir ▸ h), fun h => directory_other (hsysDir ▸ h), rfl,
        .inl rfl, .inl rfl⟩
    rw [stageTitle, hcan, if_neg (by decide)]
    dsimp only
    rw [← hdir, ← hsysDir]
    split_ifs with hd hs
    · refine ⟨fun f hf => ⟨howned, ?_⟩, False.elim⟩
      rw [List.mem_singleton.1 hf]
      exact hone
    · refine ⟨fun f hf => ⟨howned, ?_⟩, False.elim⟩
      rcases List.mem_cons.1 hf with rfl | hf
      · exact hone
      · rw [List.mem_singleton.1 hf]
        exact hboth
    · refine ⟨fun f hf => ⟨howned, ?_⟩, fun h => ⟨howned, ?_⟩⟩
      · rcases List.mem_cons.1 hf with rfl | hf
        · exact hone
        rcases List.mem_cons.1 hf with rfl | hf
        · exact hboth
        have hstaged := stageAssets_staged hf
        exact ⟨hboth.dir ∘ hstaged.dir, hboth.sysDir ∘ hstaged.sysDir, hstaged.other, hstaged.icon,
          hstaged.param⟩
      · rw [List.getLastD_cons, List.getLastD_cons]
        exact stageAssets_complete h

end Staging

/-! ## What a start does -/

section Start

/-- A moment in which the installer may be called, of a start that finds the files `files`. -/
structure LauncherMoment.Elevated (a : LaunchAnswers) (auth : UInt64) (files : TitleFiles)
    (m : LauncherMoment) : Prop where
  auth : m.auth = auth
  /-- A title is only installed if the system does not know it, and its files are complete. -/
  installs : m.call = some .appInstallTitleDir →
    a.check.rc = 0 ∧ a.check.present = false ∧ files.Owned assets ∧ m.files.Complete assets
  /-- The files of another title are left alone. -/
  files : m.files = files ∨ files.Owned assets ∧
    ∃ f, files.Staged assets f ∧ (m.files = f ∨ m.files = a.installs f)

/-- The calls to the installer, in their order. -/
def installerCalls (moments : List LauncherMoment) : List InstallerCall := moments.filterMap (·.call)

variable {assets} {a : LaunchAnswers} {auth : UInt64} {files : TitleFiles}

@[simp] theorem installerCalls_nil : installerCalls [] = [] := rfl
@[simp] theorem installerCalls_call {call : InstallerCall} {moments : List LauncherMoment} :
    installerCalls (⟨auth, files, some call⟩ :: moments) = call :: installerCalls moments := rfl

@[simp] theorem installerCalls_none {moments : List LauncherMoment} :
    installerCalls (⟨auth, files, none⟩ :: moments) = installerCalls moments := rfl

@[simp] theorem installerCalls_append (moments moments' : List LauncherMoment) :
    installerCalls (moments ++ moments') = installerCalls moments ++ installerCalls moments' :=
  List.filterMap_append

theorem installTitle_elevated {m : LauncherMoment} (h : m ∈ installTitle assets a auth files) :
    m.Elevated assets a auth files := by
  have hspec : (∀ f ∈ (stageTitle assets a.stage files).2, files.Owned assets ∧ files.Staged assets f) ∧
      ((stageTitle assets a.stage files).1 = true → files.Owned assets ∧
        ((stageTitle assets a.stage files).2.getLastD files).Complete assets) := stageTitle_spec
  rw [installTitle] at h
  rcases List.mem_cons.1 h with rfl | h
  · exact ⟨rfl, nofun, .inl rfl⟩
  split_ifs at h with hinit hcheck
  · cases h
  · rcases List.mem_cons.1 h with rfl | h
    · exact ⟨rfl, nofun, .inl rfl⟩
    · cases h
  rw [not_or, not_not, Bool.not_eq_true] at hcheck
  rcases List.mem_cons.1 h with rfl | h
  · exact ⟨rfl, nofun, .inl rfl⟩
  rcases List.mem_append.1 h with h | h
  · obtain ⟨f, hf, rfl⟩ := List.mem_map.1 h
    exact ⟨rfl, nofun, .inr ⟨(hspec.1 f hf).1, f, (hspec.1 f hf).2, .inl rfl⟩⟩
  · split_ifs at h with hok
    · obtain ⟨howned, hcomplete⟩ := hspec.2 hok
      have hstaged : files.Staged assets ((stageTitle assets a.stage files).2.getLastD files) := by
        exact (List.mem_cons.1 List.getLastD_mem_cons).elim (fun hlast => hlast ▸ .refl files)
          fun hlast => (hspec.1 _ hlast).2
      rw [installStaged] at h
      rcases List.mem_cons.1 h with rfl | h
      · exact ⟨rfl, fun _ => ⟨hcheck.1, hcheck.2, howned, hcomplete⟩,
          .inr ⟨howned, _, hstaged, .inl rfl⟩⟩
      · have hafter : m.auth = auth ∧ m.call ≠ some .appInstallTitleDir ∧
            m.files = a.installs ((stageTitle assets a.stage files).2.getLastD files) := by
          rcases List.mem_cons.1 h with rfl | h
          · exact ⟨rfl, nofun, rfl⟩
          · split_ifs at h
            · rw [List.mem_singleton.1 h]
              exact ⟨rfl, nofun, rfl⟩
            · cases h
        exact ⟨hafter.1, fun hcall => absurd hcall hafter.2.1,
          .inr ⟨howned, _, hstaged, .inr hafter.2.2⟩⟩
    · cases h

/-- The calls to the installer are made in this order, as far as they are made. -/
theorem installerCalls_installTitle : installerCalls (installTitle assets a auth files) <+:
    [.appInstInitialize, .appExists, .appInstallTitleDir, .appExists] := by
  have hstage (staged : List TitleFiles) : installerCalls (staged.map (⟨auth, ·, none⟩)) = [] := by
    rw [installerCalls, List.filterMap_map]
    exact List.filterMap_eq_nil_iff.2 fun _ _ => rfl
  rw [installTitle]
  split_ifs with hinit hcheck
  · exact ⟨[.appExists, .appInstallTitleDir, .appExists], by simp⟩
  · exact ⟨[.appInstallTitleDir, .appExists], by simp⟩
  · simp only [installerCalls_call, installerCalls_append, hstage, List.nil_append]
    split_ifs with hok
    · simp only [installStaged, installerCalls_call, installerCalls_none]
      split_ifs with hinstall
      · exact ⟨[], by simp⟩
      · exact ⟨[.appExists], by simp⟩
    · exact ⟨[.appInstallTitleDir, .appExists], by simp⟩

/-- The credentials while the installer is needed. -/
def LaunchAnswers.elevated (a : LaunchAnswers) (auth : UInt64) : UInt64 :=
  if a.elevate.applied then kAppInstallerAuth else auth

/-- The credentials in the end. -/
def LaunchAnswers.restored (a : LaunchAnswers) (auth : UInt64) : UInt64 :=
  if a.restore.applied then auth else a.elevated auth

theorem withInstallerAuth_elevated {m : LauncherMoment} (h : m ∈ withInstallerAuth assets a auth files) :
    m = ⟨auth, files, none⟩ ∨ auth = kAppInstallerAuth ∧ m.Elevated assets a auth files := by
  rw [withInstallerAuth] at h
  rcases List.mem_cons.1 h with rfl | h
  · exact .inl rfl
  · split_ifs at h with hauth
    · exact .inr ⟨hauth.2.2, installTitle_elevated h⟩
    · cases h

theorem installerCalls_withInstallerAuth : installerCalls (withInstallerAuth assets a auth files) <+:
    [.appInstInitialize, .appExists, .appInstallTitleDir, .appExists] := by
  rw [withInstallerAuth]
  split_ifs
  · exact installerCalls_installTitle
  · exact List.nil_prefix

theorem getLastD_withInstallerAuth (first : LauncherMoment) :
    (withInstallerAuth assets a auth files).getLastD first ∈ withInstallerAuth assets a auth files := by
  rw [withInstallerAuth, List.getLastD_cons]
  exact List.getLastD_mem_cons

/-- A start does nothing, or it takes the credentials and gives them back. -/
theorem ensureMediaLauncher_cases (assets : LauncherAssets) (sdkVersion : UInt32) (a : LaunchAnswers)
    (auth : UInt64) (files : TitleFiles) :
    ensureMediaLauncher assets sdkVersion a auth files = (true, []) ∨
    ensureMediaLauncher assets sdkVersion a auth files =
      let moments := withInstallerAuth assets a (a.elevated auth) files
      (decide (a.restore.rc = 0 ∧ a.restoredRead = true ∧ a.restored auth = auth),
        moments ++ [⟨a.restored auth, (moments.getLastD ⟨a.elevated auth, files, none⟩).files,
          none⟩]) := by
  rw [ensureMediaLauncher]
  dsimp only
  by_cases hsdk : sdkVersion >>> 24 ≥ 0x12
  · rw [if_pos hsdk]
    exact .inl rfl
  rw [if_neg hsdk]
  by_cases hsymbols : (!a.symbols) = true
  · rw [if_pos hsymbols]
    exact .inl rfl
  rw [if_neg hsymbols]
  by_cases horiginal : (if a.originalRead then auth else 0) = 0 ∨ (if a.originalRead then auth else 0) = -1
  · rw [if_pos horiginal]
    exact .inl rfl
  have hread : a.originalRead = true := by
    by_contra hread
    exact horiginal (.inl (if_neg hread))
  rw [if_neg horiginal, if_pos hread]
  exact .inr rfl

/-- Every moment of a start is one with the files it found, one with the installer's credentials,
    or the last one. -/
theorem ensureMediaLauncher_files {sdkVersion : UInt32} {m : LauncherMoment}
    (h : m ∈ (ensureMediaLauncher assets sdkVersion a auth files).2) :
    m.files = files ∨ files.Owned assets ∧
      ∃ f, files.Staged assets f ∧ (m.files = f ∨ m.files = a.installs f) := by
  have helevated {m : LauncherMoment} (h : m ∈ withInstallerAuth assets a (a.elevated auth) files) :
      m.files = files ∨ files.Owned assets ∧
        ∃ f, files.Staged assets f ∧ (m.files = f ∨ m.files = a.installs f) := by
    rcases withInstallerAuth_elevated h with rfl | ⟨-, hm⟩
    · exact .inl rfl
    · exact hm.files
  rcases ensureMediaLauncher_cases assets sdkVersion a auth files with hstart | hstart
  · rw [hstart] at h
    cases h
  · rw [hstart] at h
    rcases List.mem_append.1 h with h | h
    · exact helevated h
    · have hlast := helevated (getLastD_withInstallerAuth ⟨a.elevated auth, files, none⟩)
      rw [List.mem_singleton.1 h]
      exact hlast

/-- Whatever each call returns: the installer is called with its credentials, in the order in which
    it has to be, and for a title that the system does not know and whose files are complete. A
    start that reports success leaves the credentials it found; it reports none only where they
    could not be given back, or not be read. -/
theorem media_launcher_contract (assets : LauncherAssets) (sdkVersion : UInt32) (a : LaunchAnswers)
    (auth : UInt64) (files : TitleFiles) :
    let start := ensureMediaLauncher assets sdkVersion a auth files
    (∀ m ∈ start.2, m.call ≠ none → m.auth = kAppInstallerAuth) ∧
    (∀ m ∈ start.2, m.call = some .appInstallTitleDir →
      a.check.rc = 0 ∧ a.check.present = false ∧ files.Owned assets ∧ m.files.Complete assets) ∧
    installerCalls start.2 <+: [.appInstInitialize, .appExists, .appInstallTitleDir, .appExists] ∧
    (start.1 = true → ∀ m ∈ start.2.getLast?, m.auth = auth) ∧
    (start.1 = false → a.restore.rc ≠ 0 ∨ a.restore.applied = false ∨ a.restoredRead = false) := by
  intro start
  rcases ensureMediaLauncher_cases assets sdkVersion a auth files with hstart | hstart
  · have hstart : start = (true, []) := hstart
    rw [hstart]
    exact ⟨fun m hm => absurd hm List.not_mem_nil, fun m hm => absurd hm List.not_mem_nil, List.nil_prefix,
      fun _ m hm => absurd hm (Option.not_mem_none m), nofun⟩
  · have hstart : start = _ := hstart
    rw [hstart]
    refine ⟨fun m hm hcall => ?_, fun m hm hcall => ?_, ?_, fun hok m hm => ?_, fun hno => ?_⟩
    · rcases List.mem_append.1 hm with hm | hm
      · rcases withInstallerAuth_elevated hm with rfl | ⟨hauth, hm⟩
        · exact absurd rfl hcall
        · exact hm.auth.trans hauth
      · rw [List.mem_singleton.1 hm] at hcall
        exact absurd rfl hcall
    · rcases List.mem_append.1 hm with hm | hm
      · rcases withInstallerAuth_elevated hm with rfl | ⟨-, hm⟩
        · cases hcall
        · exact hm.installs hcall
      · rw [List.mem_singleton.1 hm] at hcall
        cases hcall
    · rw [installerCalls_append, installerCalls_none, installerCalls_nil, List.append_nil]
      exact installerCalls_withInstallerAuth
    · rw [List.getLast?_concat, Option.mem_some_iff] at hm
      rw [← hm]
      exact (of_decide_eq_true hok).2.2
    · have hno := of_decide_eq_false hno
      by_contra hwell
      rw [not_or, not_or, not_not, Bool.not_eq_false, Bool.not_eq_false] at hwell
      exact hno ⟨hwell.1, hwell.2.2, if_pos hwell.2.1⟩

end Start

/-! ## One start after the other -/

/-- A start of the controller. -/
structure LauncherStart where
  sdkVersion : UInt32
  /-- The credentials of the new process. -/
  auth : UInt64
  answers : LaunchAnswers
  /-- The number of moments after which the process is killed, if it is. -/
  killed : Option ℕ := none

/-- No call of the staging fails. -/
structure StageAnswers.Succeeds (a : StageAnswers) : Prop where
  check : a.stat = true ∧ a.opened = true ∧ a.read = true
  dir : a.dir = ⟨true, true⟩
  sysDir : a.sysDir = ⟨true, true⟩
  icon : a.icon.opened = true ∧ a.icon.succeed assets.icon.length = true
  param : a.param.opened = true ∧ a.param.succeed assets.param.length = true

namespace LauncherStart

/-- The moments that a start lives to see. -/
def moments (start : LauncherStart) (files : TitleFiles) : List LauncherMoment :=
  let moments := (ensureMediaLauncher assets start.sdkVersion start.answers start.auth files).2
  match start.killed with
  | none => moments
  | some n => moments.take n

/-- Nothing goes wrong in a start, on a system on which the title can be installed and is not. -/
structure Undisturbed (start : LauncherStart) : Prop where
  sdkVersion : start.sdkVersion >>> 24 < 0x12
  symbols : start.answers.symbols = true
  auth : start.answers.originalRead = true ∧ start.auth ≠ 0 ∧ start.auth ≠ -1
  elevate : start.answers.elevate = ⟨0, true⟩ ∧ start.answers.elevatedRead = true
  init : start.answers.init = 0
  absent : start.answers.check = ⟨0, false⟩
  stage : start.answers.stage.Succeeds assets
  alive : start.killed = none

end LauncherStart

/-- One start after the other, each with the files the last one left; a step tells its moments. -/
def launches (files : TitleFiles) : Driven TitleFiles LauncherStart (List LauncherMoment) where
  init := files
  step files start :=
    let moments := start.moments assets files
    ((moments.getLastD ⟨start.auth, files, none⟩).files, moments)

/-- The installer leaves `param.json` and the directories of the title where they are. -/
def LaunchAnswers.KeepsTitle (a : LaunchAnswers) : Prop := ∀ files : TitleFiles,
  (a.installs files).dir = files.dir ∧ (a.installs files).sysDir = files.sysDir ∧
    (a.installs files).paramIsOther = files.paramIsOther ∧
    (a.installs files).param.final = files.param.final

/-- Staging is not prevented by what is at the paths of the directories. -/
def TitleFiles.HasPlace (files : TitleFiles) : Prop := files.dir ≠ .other ∧ files.sysDir ≠ .other

section Launches

variable {assets} {start : LauncherStart} {files : TitleFiles}

theorem LauncherStart.mem_moments {m : LauncherMoment} (h : m ∈ start.moments assets files) :
    m ∈ (ensureMediaLauncher assets start.sdkVersion start.answers start.auth files).2 := by
  rw [moments] at h
  cases hkilled : start.killed with
  | none => rwa [hkilled] at h
  | some n =>
    rw [hkilled] at h
    exact List.mem_of_mem_take h

/-- What is staged of one's own stays so. -/
theorem TitleFiles.Staged.owned {f : TitleFiles} (h : files.Staged assets f) (howned : files.Owned assets) :
    f.Owned assets := by
  refine ⟨h.other.trans howned.1, ?_⟩
  rcases h.param with hparam | hparam
  · exact hparam ▸ howned.2
  · exact .inr hparam.2

theorem LaunchAnswers.KeepsTitle.owned {a : LaunchAnswers} (h : a.KeepsTitle) {f : TitleFiles}
    (hf : f.Owned assets) : (a.installs f).Owned assets := by
  obtain ⟨-, -, hother, hparam⟩ := h f
  exact ⟨hother.trans hf.1, hparam ▸ hf.2⟩

/-- What one's own files become in a start is one's own, and has place where they had. -/
theorem LauncherStart.owned_of_mem {m : LauncherMoment} (h : m ∈ start.moments assets files)
    (hkeeps : start.answers.KeepsTitle) (howned : files.Owned assets) :
    m.files.Owned assets ∧ (files.HasPlace → m.files.HasPlace) := by
  rcases ensureMediaLauncher_files (mem_moments h) with hfiles | ⟨-, f, hf, hfiles | hfiles⟩
  · rw [hfiles]
    exact ⟨howned, id⟩
  · rw [hfiles]
    exact ⟨hf.owned howned, fun hplace => ⟨hplace.1 ∘ hf.dir, hplace.2 ∘ hf.sysDir⟩⟩
  · obtain ⟨hdir, hsysDir, -, -⟩ := hkeeps f
    rw [hfiles]
    refine ⟨hkeeps.owned (hf.owned howned), fun hplace => ?_⟩
    exact ⟨fun h => hplace.1 (hf.dir (hdir ▸ h)), fun h => hplace.2 (hf.sysDir (hsysDir ▸ h))⟩

/-- The files of another title stay. -/
theorem LauncherStart.kept_of_mem {m : LauncherMoment} (h : m ∈ start.moments assets files)
    (hother : ¬files.Owned assets) : m.files = files := by
  rcases ensureMediaLauncher_files (mem_moments h) with hfiles | ⟨howned, -⟩
  · exact hfiles
  · exact absurd howned hother

/-- A title of one's own is staged if nothing fails. -/
theorem stageTitle_succeeds {a : StageAnswers} (ha : a.Succeeds assets)
    (hparam : assets.param.length ≤ kParamBuffer) (howned : files.Owned assets) (hplace : files.HasPlace) :
    (stageTitle assets a files).1 = true := by
  have hcan : canStageOwnedTitle assets a files = true := by
    obtain ⟨hstat, hopened, hread⟩ := ha.check
    rw [canStageOwnedTitle, hstat, howned.1]
    rcases howned.2 with hfinal | hfinal <;> simp [hfinal, hopened, hread, hparam]
  have hdirectory (entry : DirectoryEntry) (h : entry ≠ .other) :
      (directory ⟨true, true⟩ entry).1 = true := by
    cases entry with
    | other => exact absurd rfl h
    | absent => rfl
    | directory => rfl
  have hasset {answers : SaveAnswers} {data : Bytes} (asked : SettingsFiles)
      (h : answers.opened = true ∧ answers.succeed data.length = true) :
      (asset answers asked data).1 = true := by
    rw [asset, atomicWrite, if_neg (not_not.2 h.1), if_pos h.2]
  rw [stageTitle, hcan, ha.dir, ha.sysDir]
  dsimp only
  rw [hdirectory _ hplace.1, hdirectory _ hplace.2]
  have hstaged (files : TitleFiles) : (stageAssets assets a files).1 = true := by
    have hicon : (asset a.icon files.icon assets.icon).1 = true := hasset _ ha.icon
    obtain ⟨icons, -, hstage⟩ := stageAssets_of_icon hicon
    rw [hstage]
    exact hasset _ ha.param
  exact hstaged _

/-- A start that is not disturbed installs the title. -/
theorem LauncherStart.Undisturbed.installs (h : start.Undisturbed assets)
    (hparam : assets.param.length ≤ kParamBuffer) (howned : files.Owned assets) (hplace : files.HasPlace) :
    ∃ m ∈ start.moments assets files, m.call = some .appInstallTitleDir ∧ m.files.Complete assets := by
  have hok := stageTitle_succeeds h.stage hparam howned hplace
  have hcomplete := (stageTitle_spec.2 hok).2
  generalize hstaged : (stageTitle assets start.answers.stage files).2.getLastD files = staged at hcomplete
  refine ⟨⟨kAppInstallerAuth, staged, some .appInstallTitleDir⟩, ?_, rfl, hcomplete⟩
  have htitle : ⟨kAppInstallerAuth, staged, some .appInstallTitleDir⟩ ∈
      installTitle assets start.answers kAppInstallerAuth files := by
    rw [installTitle, if_neg (not_not.2 h.init), h.absent, if_neg (by simp)]
    dsimp only
    rw [hok, if_pos rfl, hstaged, installStaged]
    exact List.mem_cons_of_mem _ (List.mem_cons_of_mem _ (List.mem_append_right _ List.mem_cons_self))
  have hsdk : ¬start.sdkVersion >>> 24 ≥ 0x12 := UInt32.not_le.2 h.sdkVersion
  have hauth : ¬(start.auth = 0 ∨ start.auth = -1) := not_or.2 h.auth.2
  rw [moments, h.alive, ensureMediaLauncher]
  dsimp only
  rw [if_neg hsdk, h.symbols, h.auth.1]
  rw [if_neg (by simp), if_pos rfl, if_neg hauth, h.elevate.1, if_pos rfl]
  refine List.mem_append_left _ ?_
  rw [withInstallerAuth, h.elevate.1, h.elevate.2, if_pos ⟨rfl, rfl, rfl⟩]
  exact List.mem_cons_of_mem _ htitle

/-- What a start leaves are the files it found, or those of one of its moments. -/
theorem launches_left (files : TitleFiles) (found : TitleFiles) (start : LauncherStart) :
    ((launches assets files).step found start).1 = found ∨
      ∃ m ∈ start.moments assets found, ((launches assets files).step found start).1 = m.files := by
  rcases List.mem_cons.1 (List.getLastD_mem_cons (l := start.moments assets found)
    (a := ⟨start.auth, found, none⟩)) with hlast | hlast
  · exact .inl (congrArg LauncherMoment.files hlast)
  · exact .inr ⟨_, hlast, rfl⟩

variable {ι : ℕ → LauncherStart}

theorem launches_kept (hother : ¬files.Owned assets) (n : ℕ) :
    (launches assets files).state ι n = files := by
  refine Driven.invariant (P := fun _ f => f = files) rfl (fun n hn => ?_) n
  rcases launches_left files _ (ι n) with hleft | ⟨m, hm, hleft⟩
  · exact hleft.trans hn
  · exact hleft.trans ((LauncherStart.kept_of_mem hm (hn.symm ▸ hother)).trans hn)

theorem launches_owned (hkeeps : ∀ n, (ι n).answers.KeepsTitle) (howned : files.Owned assets) (n : ℕ) :
    ((launches assets files).state ι n).Owned assets ∧
      (files.HasPlace → ((launches assets files).state ι n).HasPlace) := by
  refine Driven.invariant (P := fun _ (f : TitleFiles) => f.Owned assets ∧ (files.HasPlace → f.HasPlace))
    ⟨howned, id⟩ (fun n hn => ?_) n
  rcases launches_left files _ (ι n) with hleft | ⟨m, hm, hleft⟩
  · rw [hleft]
    exact hn
  · have hnext := LauncherStart.owned_of_mem hm (hkeeps n) hn.1
    rw [hleft]
    exact ⟨hnext.1, hnext.2 ∘ hn.2⟩

/-- However often the controller was started before, and wherever these starts were killed: the
    files of another title are as they were found; otherwise `param.json` is absent or complete at
    every moment, and a start that is not disturbed installs the title with its files complete. -/
theorem media_launcher_recovers (assets : LauncherAssets) (hparam : assets.param.length ≤ kParamBuffer)
    (files : TitleFiles) (ι : ℕ → LauncherStart) (hkeeps : ∀ n, (ι n).answers.KeepsTitle) (n : ℕ) :
    (¬files.Owned assets → ∀ m ∈ (launches assets files).output ι n, m.files = files) ∧
    (files.Owned assets → (∀ m ∈ (launches assets files).output ι n, m.files.Owned assets) ∧
      (files.HasPlace → (ι n).Undisturbed assets → ∃ m ∈ (launches assets files).output ι n,
        m.call = some .appInstallTitleDir ∧ m.files.Complete assets)) := by
  refine ⟨fun hother m hm => ?_, fun howned => ?_⟩
  · have hstate : (launches assets files).state ι n = files := launches_kept hother n
    exact (LauncherStart.kept_of_mem hm (hstate.symm ▸ hother)).trans hstate
  · obtain ⟨hmine, hplaced⟩ := launches_owned hkeeps howned n
    refine ⟨fun m hm => (LauncherStart.owned_of_mem hm (hkeeps n) hmine).1, fun hplace hstart => ?_⟩
    exact hstart.installs hparam hmine (hplaced hplace)

/-- A start is killed while it writes `param.json`, and the next one is not. -/
def killedOnce (n : ℕ) : LauncherStart where
  sdkVersion := 0x07600000
  auth := 0x4800000000000010
  answers := { stage := { icon := { writes := [.wrote 2] }, param := { writes := [.wrote 1, .wrote 1] } } }
  killed := if n = 0 then some 10 else none

theorem media_launcher_recovers_killed :
    ((launches ⟨[1, 2], [3, 4]⟩ {}).state killedOnce 1).param = ⟨none, some [3]⟩ ∧
      ∃ m ∈ (launches ⟨[1, 2], [3, 4]⟩ {}).output killedOnce 1,
        m.call = some .appInstallTitleDir ∧ m.files.Complete ⟨[1, 2], [3, 4]⟩ := by
  refine ⟨by decide, ?_⟩
  refine ((media_launcher_recovers ⟨[1, 2], [3, 4]⟩ (by decide) {} killedOnce
    (fun n files => ⟨rfl, rfl, rfl, rfl⟩) 1).2 ⟨rfl, .inl rfl⟩).2 ⟨by decide, by decide⟩ ?_
  exact ⟨by decide, rfl, by decide, ⟨rfl, rfl⟩, rfl, rfl,
    ⟨⟨rfl, rfl, rfl⟩, rfl, rfl, ⟨rfl, by decide⟩, ⟨rfl, by decide⟩⟩, rfl⟩

end Launches

end CommonFps
