import Mathlib
import Marksheet.Proofs.CommandLine.Arguments
import Marksheet.Proofs.CommandLine.Status
import Marksheet.Proofs.Files.Batch
import Marksheet.Proofs.Report.Totals
import Marksheet.Proofs.Run.Folder

/-!
# Batches file by file

A batch to read is what its files give when each is graded alone with the same
settings, one after the other in the order of their names, with the totals
behind them if there are two files or more. A report depends on the text of its
own file and on a run with the whole script, so neither the other files nor the
place in the batch have a part in it.
-/

namespace Marksheet

namespace CommandLine

open Grading (Grader)
open Grading.Grader (shownName)

variable {world : World} {options : Options} {settings : Settings}

/-! ### One file alone -/

/-- Arguments ask for one file to read, with given settings and colors. -/
def AsksFor (options : Options) (path : String) (arguments : List String) : Prop :=
  ∃ own, Options.ofArguments arguments = .ok own ∧ own.all = false ∧ own.file = some path ∧
    own.config = options.config ∧ own.plain = options.plain ∧ own.format = .pretty

/-- Arguments for one file: the same settings, the same colors, and the file behind all options. -/
def Options.alone (options : Options) (path : String) : List String :=
  (match options.config with
    | some config => ["--config=" ++ config]
    | none => []) ++ (if options.plain then ["--no-color"] else []) ++ ["--", path]

/-- The choices for one file. -/
def Options.aloneChoices (options : Options) (path : String) : List Choice :=
  (match options.config with
    | some config => [.config config]
    | none => []) ++ (if options.plain then [.plain] else []) ++ [.file path]

theorem written_alone {path : String} (hpath : path ≠ "") (hconfig : options.config ≠ some "") :
    Written (options.alone path) (options.aloneChoices path) := by
  have plain : Group ["--" ++ "no-color"] [.plain] := .flag rfl rfl
  have file : Written ["--", path] [.file path] := .file hpath
  have behind : Written ((if options.plain then ["--no-color"] else []) ++ ["--", path])
      ((if options.plain then [.plain] else []) ++ [.file path]) := by
    cases options.plain with
    | false => exact file
    | true => exact .more plain file
  unfold Options.alone Options.aloneChoices
  rw [List.append_assoc, List.append_assoc]
  cases hc : options.config with
  | none => exact behind
  | some config =>
    have hsome : config ≠ "" := fun h => hconfig (by rw [hc, h])
    have named : Group ["--" ++ "config" ++ "=" ++ config] [.config config] :=
      .joined rfl ⟨rfl, hsome⟩
    exact .more named behind

/-- The arguments for one file ask for it, and keep settings and colors. -/
theorem ofArguments_alone {path : String} (hpath : path ≠ "") (hconfig : options.config ≠ some "") :
    Options.ofArguments (options.alone path) =
      .ok ⟨some path, false, ".", options.config, .pretty, options.plain, false⟩ := by
  let combination : Combination :=
    ⟨some path, false, none, options.config, none, options.plain, false⟩
  have hlists : combination.Lists (options.aloneChoices path) := by
    refine ⟨?_, fun choice => ?_⟩
    · unfold Options.aloneChoices
      cases options.config <;> cases options.plain <;> simp
    · unfold Options.aloneChoices
      cases hconfig : options.config <;> cases hplain : options.plain <;> cases choice <;>
        simp [combination, Combination.Has, hconfig, hplain, eq_comm]
  have hone : ¬ (combination.file.isSome ∧ combination.all) := fun h => Bool.false_ne_true h.2
  exact ofArguments_lists hone hlists (written_alone hpath hconfig)

/-- Settings are not found under an empty path. -/
theorem config_ne_of_settingsOf (h : settingsOf world options = .ok settings) :
    options.config ≠ some "" := by
  intro hempty
  unfold settingsOf at h
  rw [hempty] at h
  cases h

/-! ### One report -/

/-- The answer to questions behind the listed ones. -/
def filler (settings : Settings) : String :=
  (settings.padValue.or settings.scriptedInputs.getLast?).getD ""

/-- The whole script of settings. -/
def wholeScript (settings : Settings) : Run.Script :=
  ⟨settings.scriptedInputs, filler settings, settings.padExtra⟩

/-- The submission at a path, with the outcome of a run of its own on the whole script. -/
def freshSubmission (world : World) (settings : Settings) (path : String) : Rubric.Submission :=
  match world.files.readText path with
  | .error _ => .missing
  | .ok source =>
    .present source (Grading.reading source)
      (Run.conduct world.behaviour world.files (.ofSettings settings) source (shownName path)
        (wholeScript settings))

/-- A report is made of the submission at its path alone. -/
theorem gradeFile_eq (world : World) (settings : Settings) (path : String) :
    (world.grader settings).gradeFile path =
      ⟨shownName path, Rubric.evaluate Rubric.standard settings (shownName path)
        (freshSubmission world settings path)⟩ := by
  have hruns : Rubric.needsRun Rubric.standard = true := by decide
  unfold Grader.gradeFile Grader.gradeSource freshSubmission
  congr 2
  simp only [Grader.sourceOf, World.grader]
  cases world.files.readText path with
  | error failure => rfl
  | ok source =>
    simp only [Grader.submission, Grader.outcome, if_pos hruns]
    rfl

/-- Programs that take no notice of files outside a run make the same of a submission in any world
where it has the same text. -/
theorem gradeFile_of_secluded {world' : World} {path : String}
    (h : Run.Secluded world.behaviour) (hbehaviour : world'.behaviour = world.behaviour)
    (hpython : Run.locate world'.files settings.python = Run.locate world.files settings.python)
    (htext : world'.files.readText path = world.files.readText path) :
    (world'.grader settings).gradeFile path = (world.grader settings).gradeFile path := by
  rw [gradeFile_eq, gradeFile_eq]
  unfold freshSubmission
  rw [htext, hbehaviour]
  cases world.files.readText path with
  | error failure => rfl
  | ok source =>
    have hrun := Run.conduct_of_secluded h (.ofSettings settings) hpython source (shownName path)
      (wholeScript settings)
    simp only [hrun]

/-! ### The batch -/

/-- A path in a folder is not empty, and neither is the folder's. -/
theorem join_ne_empty {folder : String} (h : folder ≠ "") (name : String) :
    Files.join folder name ≠ "" := by
  have hfolder : folder.toList ≠ [] := fun hnil => h (String.toList_inj.1 hnil)
  unfold Files.join
  split
  · rename_i hname
    rintro rfl
    simp [h, Files.isAbsolute] at hname
  · split <;>
    · intro hempty
      have hlist := congrArg String.toList hempty
      simp [hfolder] at hlist

/-- A batch is made of files in its folder, in the order of their names. -/
theorem names_of_selection {paths : List String} (hall : options.all = true)
    (h : selection world options settings = .ok paths) :
    options.folder ≠ "" ∧ ∃ names : List String, paths = names.map (Files.join options.folder) ∧
      names.Pairwise (· ≤ ·) := by
  unfold selection at h
  rw [if_pos hall] at h
  split at h
  · rename_i hfolder
    refine ⟨?_, ?_⟩
    · intro hempty
      rw [hempty] at hfolder
      cases hfolder
    · cases hbatch : Files.collectBatch world.files options.folder settings with
      | error failure =>
        rw [hbatch] at h
        cases h
      | ok found =>
        rw [hbatch] at h
        cases h
        exact Files.sorted_collectBatch hbatch
  · cases h

/-- The totals of a batch, which only two files or more have. -/
def closing (styled : Bool) (reports : List Report) : String :=
  if 2 ≤ reports.length then
    Report.prettyTotals styled ⟨reports.length, reports.countP (·.isPerfect),
      (reports.map (·.passed)).sum, (reports.map (·.total)).sum⟩
  else ""

theorem written_pretty (styled : Bool) (reports : List Report) :
    written .pretty styled reports =
      String.join (reports.map (Report.pretty styled)) ++ closing styled reports := by
  unfold written closing
  rw [Totals.ofReports_eq]
  rfl

/-- A file alone is graded to its report. -/
theorem session_alone {path : String} {arguments : List String}
    (hs : settingsOf world options = .ok settings) (h : AsksFor options path arguments) :
    session world arguments =
      ⟨0, Report.pretty (world.styled options) ((world.grader settings).gradeFile path), ""⟩ := by
  obtain ⟨own, ho, hall, hfile, hconfig, hplain, hformat⟩ := h
  have hs' : settingsOf world own = .ok settings := by
    unfold settingsOf at hs ⊢
    rw [hconfig]
    exact hs
  have hp : selection world own settings = .ok [path] := by
    simp [selection, hall, hfile]
  have hstyled : world.styled own = world.styled options := by
    unfold World.styled
    rw [hplain]
  rw [session_eq ho hs' hp, account, hall, hformat, hstyled]
  simp [World.reports, written_pretty, closing]

/-- A working folder with two submissions. -/
def twoSubmissions : World :=
  ⟨⟨[(["work"], .folder), (["work", "chatbot_b.py"], .locked),
      (["work", "chatbot_a.py"], .file "print(1)\n".toUTF8 false)], ["work"]⟩,
    fun _ => .error (.unstarted .denied), false⟩

/-- Both are selected, in the order of their names. -/
theorem selection_twoSubmissions :
    selection twoSubmissions ⟨none, true, ".", none, .pretty, false, false⟩ .standard =
      .ok ["./chatbot_a.py", "./chatbot_b.py"] := by
  obtain ⟨pieces, hpieces⟩ := Settings.glob_of_valid Settings.valid_standard
  have hresolve : twoSubmissions.files.resolve "." = .ok (["work"], .folder) := rfl
  have hfiles : ((twoSubmissions.files.namesIn ["work"]).filter (·.2.isFile)).map (·.1) =
      ["chatbot_b.py", "chatbot_a.py"] := rfl
  have hmatch : (Wildcard.parse Settings.standard.batchGlob).toOption.map (fun pieces =>
      ["chatbot_b.py", "chatbot_a.py"].filter fun name =>
        Wildcard.isMatch pieces name && !Settings.standard.exclude.contains name) =
      some ["chatbot_b.py", "chatbot_a.py"] := by decide +kernel
  have hsort : ["chatbot_b.py", "chatbot_a.py"].mergeSort Files.nameLe =
      ["chatbot_a.py", "chatbot_b.py"] := by simp [List.mergeSort, Files.nameLe]
  rw [hpieces] at hmatch
  have hnames := Option.some.inj hmatch
  simp only [selection, if_true, Files.Tree.isFolder, hresolve, Files.collectBatch,
    Files.selectNames, hfiles, hpieces, hnames, hsort]
  rfl

end CommandLine

end Marksheet
