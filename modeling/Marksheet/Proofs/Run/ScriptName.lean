import Marksheet.Proofs.Run.Folder

/-!
# The name of a submission in its folder

Whatever a submission is called, the name under which it is written is one step
of a path and is not that of the note (`isStep_scriptName`,
`scriptName_ne_noteName`). So it lies directly in the folder of its run, beside
the place of the note, and nothing outside that folder changes.
-/

namespace Marksheet

open Files (Tree IsStep)

/-- A single step names its own file. -/
theorem Files.fileName?_of_isStep {name : String} (h : IsStep name) :
    fileName? name = some name := by
  rw [fileName?, h.steps_eq, List.getLast?_singleton]
  exact if_neg h.up

namespace Run

theorem scriptName_ne_noteName (fileName : String) : scriptName fileName ≠ noteName := by
  have hdefault : "submission.py" ≠ noteName := by decide
  unfold scriptName
  cases Files.fileName? fileName with
  | none => exact hdefault
  | some name =>
    dsimp only
    split
    · exact hdefault
    · assumption

/-- The names that are kept are those that are fit for the folder as they are. -/
theorem scriptName_eq_self_iff {fileName : String} :
    scriptName fileName = fileName ↔ IsStep fileName ∧ fileName ≠ noteName := by
  constructor
  · intro h
    exact ⟨h ▸ isStep_scriptName fileName, h ▸ scriptName_ne_noteName fileName⟩
  · rintro ⟨hstep, hnote⟩
    rw [scriptName, Files.fileName?_of_isStep hstep]
    exact if_neg hnote

/-- Outside the folder of a run, a new one changes nothing. -/
theorem entry?_cleared_beside (tree : Tree) {steps : List String} (h : ¬ runFolder <+: steps) :
    Tree.entry? (cleared tree) steps = tree.entry? steps := by
  have hne : steps ≠ runFolder := fun heq => h (heq ▸ List.prefix_refl steps)
  have hkept : Tree.entry? (cleared tree) steps = Tree.entry? (tree.erase runFolder) steps :=
    (tree.erase runFolder).entry?_set_of_ne hne .folder
  rw [hkept, tree.entry?_erase_beside h]

/-- The steps to the note of a run. -/
theorem steps_notePath :
    Files.steps (Files.join (rootPath runFolder) noteName) = runFolder ++ [noteName] := by decide

/-- The name under which a submission is written is not empty, has no separator in it, goes neither
nowhere nor up, and is not the name of the note. Names of this kind, and no others, stay as they
are, so giving the name twice is giving it once. A submission is written directly into its new
folder and is alone there, unless no file can have its name; then nothing is written. In particular
no note is there yet, and all that lies outside the folder is what it was. -/
theorem scriptName_exact (fileName : String) :
    IsStep (scriptName fileName) ∧
    scriptName fileName ≠ noteName ∧
    scriptName (scriptName fileName) = scriptName fileName ∧
    (scriptName fileName = fileName ↔ IsStep fileName ∧ fileName ≠ noteName) ∧
    runFolder ++ [scriptName fileName] ≠ Files.steps (Files.join (rootPath runFolder) noteName) ∧
    ∀ (tree : Tree) (source : String),
      (∃ failure, nameFailure? (scriptName fileName) = some failure ∧
        furnish tree (scriptName fileName) source = .error failure) ∨
      ∃ files, nameFailure? (scriptName fileName) = none ∧
        furnish tree (scriptName fileName) source = .ok files ∧
        files.working = runFolder ∧
        files.namesIn runFolder = [(scriptName fileName, .file source.toUTF8 false)] ∧
        files.entry? (runFolder ++ [scriptName fileName]) = some (.file source.toUTF8 false) ∧
        files.entry? (runFolder ++ [noteName]) = none ∧
        ∀ steps, ¬ runFolder <+: steps → files.entry? steps = tree.entry? steps := by
  have hstep := isStep_scriptName fileName
  have hnote := scriptName_ne_noteName fileName
  have hplaces : runFolder ++ [noteName] ≠ runFolder ++ [scriptName fileName] := by
    simpa using hnote.symm
  refine ⟨hstep, hnote, scriptName_eq_self_iff.mpr ⟨hstep, hnote⟩, scriptName_eq_self_iff, ?_,
    fun tree source => ?_⟩
  · rw [steps_notePath]
    exact hplaces.symm
  · have hfurnish := furnish_eq tree hstep source
    cases hname : nameFailure? (scriptName fileName) with
    | some failure =>
      rw [hname] at hfurnish
      exact .inl ⟨failure, rfl, hfurnish⟩
    | none =>
      rw [hname] at hfurnish
      refine .inr ⟨_, rfl, hfurnish, rfl, namesIn_furnished tree _ _,
        Tree.entry?_set_self _ (by simp) _, ?_, fun steps hsteps => ?_⟩
      · rw [Tree.entry?_set_of_ne _ hplaces, entry?_cleared]
      · have hne : steps ≠ runFolder ++ [scriptName fileName] :=
          fun heq => hsteps (heq ▸ List.prefix_append _ _)
        rw [Tree.entry?_set_of_ne _ hne, entry?_cleared_beside tree hsteps]

/-- A path that goes up at its end, one that leads to the name of the note, and one with a plain
name behind folders. -/
example : ["a/..", "a/.gradebot-run.json/", "/a/./b.py/."].map scriptName =
    ["submission.py", "submission.py", "b.py"] := by decide

end Run

end Marksheet
