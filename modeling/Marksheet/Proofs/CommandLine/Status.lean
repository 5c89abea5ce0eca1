import Mathlib
import Marksheet.CommandLine.Session
import Marksheet.Proofs.Files.Outside

/-!
# How a session ends

A session ends with status two exactly if its arguments are refused, its
settings cannot be had, or its batch cannot be listed; nothing has been written
then. Otherwise it ends with status zero, and there is one report for each
selected file. What the files hold and what programs do has no part in this:
the selection is made from outside, and grading never fails.
-/

namespace Marksheet

namespace Settings

/-- The wildcard of valid settings can be read. -/
theorem glob_of_valid {settings : Settings} (h : settings.Valid) :
    ∃ pieces, Wildcard.parse settings.batchGlob = .ok pieces := by
  unfold Valid invalid? at h
  split at h; · cases h
  split at h; · cases h
  split at h; · cases h
  split at h; · cases h
  split at h; · cases h
  cases hp : Wildcard.parse settings.batchGlob with
  | ok pieces => exact ⟨pieces, rfl⟩
  | error fault =>
    rw [hp] at h
    cases h

theorem valid_standard : standard.Valid := by decide +kernel

/-- Checked settings are valid, and nothing else about them changes. -/
theorem check_eq_ok {settings found : Settings} (h : check settings = .ok found) :
    found = settings ∧ settings.Valid := by
  unfold check at h
  split at h
  · rename_i hvalid
    cases h
    exact ⟨rfl, hvalid⟩
  · cases h

/-- Settings from a file are valid. -/
theorem valid_of_load {tree : Files.Tree} {path : String} {settings : Settings}
    (h : load tree path = .ok settings) : settings.Valid := by
  unfold load at h
  split at h
  · cases h
  · split at h
    · cases h
    · obtain ⟨rfl, hvalid⟩ := check_eq_ok h
      exact hvalid

/-- A file of settings that cannot be read, or parsed, or used. -/
inductive Unusable (tree : Files.Tree) (path : String) : Prop
  | unread {failure : Files.Failure} (h : tree.readText path = .error failure)
  | unreadable {text : String} {reason : Unreadable} (hread : tree.readText path = .ok text)
      (h : ofText text = .error reason)
  | invalid {text : String} {settings : Settings} (hread : tree.readText path = .ok text)
      (hparse : ofText text = .ok settings) (h : ¬ settings.Valid)

/-- Loading fails exactly for unusable files. -/
theorem load_error_iff (tree : Files.Tree) (path : String) :
    (∃ failure, load tree path = .error failure) ↔ Unusable tree path := by
  unfold load
  constructor
  · rintro ⟨failure, h⟩
    cases hread : tree.readText path with
    | error failure => exact .unread hread
    | ok text =>
      cases hparse : ofText text with
      | error reason => exact .unreadable hread hparse
      | ok settings =>
        refine .invalid hread hparse fun hvalid => ?_
        simp only [hread, hparse] at h
        unfold check at h
        rw [show settings.invalid? = none from hvalid] at h
        cases h
  · rintro (h | ⟨hread, h⟩ | ⟨hread, hparse, h⟩)
    · exact ⟨_, by rw [h]⟩
    · exact ⟨_, by rw [hread]; simp only [h]; rfl⟩
    · rename_i settings
      simp only [hread, hparse]
      unfold check
      cases hinvalid : settings.invalid? with
      | none => exact absurd hinvalid h
      | some reason => exact ⟨_, rfl⟩

end Settings

namespace CommandLine

variable {world : World} {options : Options} {settings : Settings}

/-! ### Settings and selection -/

/-- The file that settings are taken from; none if the standard ones are used. -/
def settingsPath (world : World) (options : Options) : Option String :=
  options.config.or ((Settings.fileNames.map (Files.join ".")).find? world.files.isFile)

/-- Settings come from one file, or they are the standard ones. -/
theorem settingsOf_eq (world : World) (options : Options) :
    settingsOf world options =
      match settingsPath world options with
      | some path => (Settings.load world.files path).mapError .settings
      | none => .ok Settings.standard := by
  unfold settingsOf settingsPath Settings.discover
  cases options.config with
  | some path => rfl
  | none =>
    simp only [Option.none_or]
    cases (Settings.fileNames.map (Files.join ".")).find? world.files.isFile <;> rfl

theorem valid_of_settingsOf (h : settingsOf world options = .ok settings) : settings.Valid := by
  rw [settingsOf_eq] at h
  cases hp : settingsPath world options with
  | none =>
    rw [hp] at h
    cases h
    exact Settings.valid_standard
  | some path =>
    rw [hp] at h
    cases hload : Settings.load world.files path with
    | ok found =>
      simp only [hload, Except.mapError] at h
      cases h
      exact Settings.valid_of_load hload
    | error failure =>
      simp only [hload, Except.mapError] at h
      cases h

/-- Settings cannot be had exactly if they are to be taken from an unusable file. -/
theorem settingsOf_error_iff (world : World) (options : Options) :
    (∃ mishap, settingsOf world options = .error mishap) ↔
      ∃ path, settingsPath world options = some path ∧ Settings.Unusable world.files path := by
  rw [settingsOf_eq]
  cases settingsPath world options with
  | none => simp
  | some path =>
    have hload := Settings.load_error_iff world.files path
    simp only [Option.some.injEq, exists_eq_left']
    rw [← hload]
    cases Settings.load world.files path <;> simp [Except.mapError]

/-- A batch of valid settings cannot be made only if its folder cannot be listed. -/
theorem collectBatch_error_iff (tree : Files.Tree) (folder : String) (hv : settings.Valid)
    (hfolder : tree.isFolder folder = true) :
    (∃ failure, Files.collectBatch tree folder settings = .error failure) ↔
      ∃ steps, tree.resolve folder = .ok (steps, .sealed) := by
  obtain ⟨pieces, hpieces⟩ := Settings.glob_of_valid hv
  simp only [Files.collectBatch, hpieces]
  unfold Files.Tree.isFolder at hfolder
  cases hr : tree.resolve folder with
  | error failure =>
    rw [hr] at hfolder
    cases hfolder
  | ok found =>
    obtain ⟨steps, entry⟩ := found
    rw [hr] at hfolder
    cases entry with
    | «sealed» => simp
    | folder => simp
    | _ => cases hfolder

/-- The folder of a batch is none, or its names cannot be listed. -/
def Unlistable (tree : Files.Tree) (folder : String) : Prop :=
  tree.isFolder folder = false ∨ ∃ steps, tree.resolve folder = .ok (steps, .sealed)

/-- A selection fails only for the folder of a batch. -/
theorem selection_error_iff (hv : settings.Valid) :
    (∃ mishap, selection world options settings = .error mishap) ↔
      options.all = true ∧ Unlistable world.files options.folder := by
  unfold selection Unlistable
  cases ha : options.all with
  | false => simp
  | true =>
    cases hf : world.files.isFolder options.folder with
    | false => simp
    | true =>
      have hbatch := collectBatch_error_iff world.files options.folder hv hf
      rw [if_pos rfl, if_pos rfl]
      simp only [true_and, Bool.true_eq_false, false_or]
      rw [← hbatch]
      cases Files.collectBatch world.files options.folder settings <;> simp [Except.mapError]

/-- The selection can be told from outside. -/
theorem selection_outside {world' : World}
    (h : options.all = true → world'.files.outside = world.files.outside) :
    selection world' options settings = selection world options settings := by
  unfold selection
  cases ha : options.all with
  | false => rfl
  | true =>
    have hfiles := h ha
    have hfolder : world'.files.isFolder options.folder = world.files.isFolder options.folder := by
      rw [← Files.Tree.isFolder_outside, hfiles, Files.Tree.isFolder_outside]
    have hbatch : Files.collectBatch world'.files options.folder settings =
        Files.collectBatch world.files options.folder settings := by
      rw [← Files.collectBatch_outside, hfiles, Files.collectBatch_outside]
    simp only [hfolder, hbatch]

/-! ### The status -/

/-- What ends a session before any file is graded. -/
inductive Stopped (world : World) (arguments : List String) : Prop
  | arguments {refusal : Refusal} (h : Options.ofArguments arguments = .error refusal)
      (hhelp : refusal ≠ .help) (hversion : refusal ≠ .version)
  | settings {options : Options} {path : String}
      (hoptions : Options.ofArguments arguments = .ok options)
      (hpath : settingsPath world options = some path)
      (h : Settings.Unusable world.files path)
  | batch {options : Options} (hoptions : Options.ofArguments arguments = .ok options)
      (hall : options.all = true) (h : Unlistable world.files options.folder)

/-- The reports on files, one for each. -/
def World.reports (world : World) (settings : Settings) (paths : List String) : List Report :=
  paths.map (world.grader settings).gradeFile

/-- A report carries the name of its file. -/
theorem file_reports (world : World) (settings : Settings) (paths : List String) :
    (world.reports settings paths).map (·.file) = paths.map Grading.Grader.shownName := by
  rw [World.reports, List.map_map]
  rfl

/-- What is written about reports: a batch without any is only said to be empty. -/
def account (options : Options) (settings : Settings) (styled : Bool) (reports : List Report) :
    String :=
  if options.all && reports.isEmpty then noFiles settings else written options.format styled reports

/-- A session with its settings and its selection writes the account of them. -/
theorem sessionWith_eq_ok {paths : List String} (hs : settingsOf world options = .ok settings)
    (hp : selection world options settings = .ok paths) :
    sessionWith world options =
      .ok (account options settings (world.styled options) (world.reports settings paths)) := by
  unfold sessionWith account
  simp only [hs, hp, bind, Except.bind, World.reports, List.isEmpty_map]
  split <;> rfl

/-- Nothing but the settings and the selection can fail. -/
theorem exists_selection (h : ∀ mishap, sessionWith world options ≠ .error mishap) :
    ∃ settings paths, settingsOf world options = .ok settings ∧
      selection world options settings = .ok paths := by
  cases hs : settingsOf world options with
  | error mishap =>
    refine absurd ?_ (h mishap)
    simp only [sessionWith, hs, bind, Except.bind]
  | ok settings =>
    cases hp : selection world options settings with
    | error mishap =>
      refine absurd ?_ (h mishap)
      simp only [sessionWith, hs, hp, bind, Except.bind]
    | ok paths => exact ⟨settings, paths, rfl, hp⟩

theorem sessionWith_error_iff (world : World) (options : Options) :
    (∃ mishap, sessionWith world options = .error mishap) ↔
      (∃ path, settingsPath world options = some path ∧ Settings.Unusable world.files path) ∨
        options.all = true ∧ Unlistable world.files options.folder := by
  rw [← settingsOf_error_iff]
  cases hs : settingsOf world options with
  | error mishap => simp [sessionWith, hs, bind, Except.bind]
  | ok settings =>
    rw [← selection_error_iff (valid_of_settingsOf hs)]
    cases hp : selection world options settings with
    | error mishap => simp [sessionWith, hs, hp, bind, Except.bind]
    | ok paths => simp [sessionWith_eq_ok hs hp]

/-- With options, a session is stopped by its settings or its batch. -/
theorem stopped_iff {arguments : List String} (ho : Options.ofArguments arguments = .ok options) :
    Stopped world arguments ↔ ∃ mishap, sessionWith world options = .error mishap := by
  rw [sessionWith_error_iff]
  constructor
  · rintro (⟨h, _, _⟩ | ⟨h, hpath, hu⟩ | ⟨h, hall, hu⟩)
    · cases ho.symm.trans h
    · cases ho.symm.trans h
      exact .inl ⟨_, hpath, hu⟩
    · cases ho.symm.trans h
      exact .inr ⟨hall, hu⟩
  · rintro (⟨path, hpath, hu⟩ | ⟨hall, hu⟩)
    · exact .settings ho hpath hu
    · exact .batch ho hall hu

/-- Without options, a session is stopped unless it answers a question. -/
theorem stopped_iff_refused {arguments : List String} {refusal : Refusal}
    (hr : Options.ofArguments arguments = .error refusal) :
    Stopped world arguments ↔ refusal ≠ .help ∧ refusal ≠ .version := by
  constructor
  · rintro (⟨h, hhelp, hversion⟩ | ⟨h, _, _⟩ | ⟨h, _, _⟩)
    · cases hr.symm.trans h
      exact ⟨hhelp, hversion⟩
    · cases hr.symm.trans h
    · cases hr.symm.trans h
  · rintro ⟨hhelp, hversion⟩
    exact .arguments hr hhelp hversion

/-- A session ends with status two exactly if it was stopped. -/
theorem status_eq_two_iff (world : World) (arguments : List String) :
    (session world arguments).status = 2 ↔ Stopped world arguments := by
  unfold session
  cases ho : Options.ofArguments arguments with
  | error refusal =>
    rw [stopped_iff_refused ho]
    cases refusal <;> simp [refused]
  | ok options =>
    rw [stopped_iff ho]
    cases hs : sessionWith world options <;> simp [hs]

/-- A session that was stopped has written nothing. -/
theorem output_of_stopped {arguments : List String} (h : Stopped world arguments) :
    (session world arguments).output = "" := by
  unfold session
  cases ho : Options.ofArguments arguments with
  | error refusal =>
    obtain ⟨hhelp, hversion⟩ := (stopped_iff_refused ho).1 h
    cases refusal <;> first | rfl | contradiction
  | ok options =>
    obtain ⟨mishap, hs⟩ := (stopped_iff ho).1 h
    simp only [hs]

/-- A session with its settings and its selection ends well, with the account of them. -/
theorem session_eq {arguments paths : List String}
    (ho : Options.ofArguments arguments = .ok options)
    (hs : settingsOf world options = .ok settings)
    (hp : selection world options settings = .ok paths) :
    session world arguments =
      ⟨0, account options settings (world.styled options) (world.reports settings paths), ""⟩ := by
  unfold session
  simp only [ho, sessionWith_eq_ok hs hp]

/-- A working folder with one submission. -/
def oneSubmission (entry : Files.Entry) : World :=
  ⟨⟨[(["work"], .folder), (["work", "chatbot.py"], entry)], ["work"]⟩,
    fun _ => .error (.unstarted .denied), false⟩

end CommandLine

end Marksheet
