import Marksheet.Proofs.Files.Change
import Marksheet.Run.Conduct

/-!
# The folder of a run

The folder of a run is new, and the submission is alone in it (`furnish_eq`),
whatever else there is in the tree of files. So programs that take no notice of
files outside that folder leave the same behind in any tree
(`conduct_of_secluded`): a run depends on its submission, its request and the
interpreter, and on no other submission.
-/

namespace Marksheet

namespace Files

/-- A name that is one step of a path, and does not go up. -/
structure IsStep (name : String) : Prop where
  nonempty : name ≠ ""
  plain : '/' ∉ name.toList
  here : name ≠ "."
  up : name ≠ ".."

theorem splitSteps_of_plain (text : List Char) (h : '/' ∉ text) : splitSteps text = [text] := by
  induction text with
  | nil => rfl
  | cons c rest ih =>
    obtain ⟨hc, hrest⟩ := not_or.1 (mt List.mem_cons.2 h)
    simp [splitSteps, ih hrest, Ne.symm hc]

theorem plain_of_mem_splitSteps (text : List Char) :
    ∀ step ∈ splitSteps text, '/' ∉ step := by
  induction text with
  | nil => simp [splitSteps]
  | cons c rest ih =>
    unfold splitSteps
    split
    · simpa using ih
    · rename_i hc
      split
      · simpa using Ne.symm hc
      · rename_i step others hsplit
        rw [hsplit] at ih
        intro found hfound
        rcases List.mem_cons.1 hfound with rfl | hfound
        · exact mt List.mem_cons.1 (not_or.2 ⟨Ne.symm hc, ih step (by simp)⟩)
        · exact ih found (List.mem_cons_of_mem step hfound)

/-- The file name of a path is one step. -/
theorem isStep_of_fileName? {path name : String} (h : fileName? path = some name) :
    IsStep name := by
  unfold fileName? at h
  cases hlast : (steps path).getLast? with
  | none => simp [hlast] at h
  | some step =>
    simp only [hlast] at h
    split at h
    · cases h
    · rename_i hup
      cases h
      obtain ⟨text, htext, rfl⟩ := List.mem_map.1 (List.mem_of_getLast? hlast)
      obtain ⟨hsplit, hkept⟩ := List.mem_filter.1 htext
      simp only [Bool.and_eq_true, Bool.not_eq_true', List.isEmpty_eq_false_iff, ne_eq,
        decide_eq_true_eq] at hkept
      refine ⟨?_, ?_, ?_, hup⟩
      · rintro hnil
        exact hkept.1 (by rw [← String.toList_ofList (l := text), hnil]; rfl)
      · simpa using plain_of_mem_splitSteps path.toList text hsplit
      · rintro hhere
        exact hkept.2 (by rw [← String.toList_ofList (l := text), hhere]; rfl)

namespace IsStep

variable {name : String}

theorem steps_eq (h : IsStep name) : steps name = [name] := by
  have hempty : name.toList ≠ [] := fun hnil => h.nonempty (String.toList_inj.1 hnil)
  have hhere : name.toList ≠ ['.'] := fun hdot => h.here (String.toList_inj.1 hdot)
  simp [steps, splitSteps_of_plain name.toList h.plain, hempty, hhere]

theorem isAbsolute_eq (h : IsStep name) : isAbsolute name = false := by
  have hplain := h.plain
  unfold isAbsolute
  cases hl : name.toList with
  | nil => rfl
  | cons c rest =>
    rw [hl] at hplain
    simpa using Ne.symm (not_or.1 (mt List.mem_cons.2 hplain)).1

end IsStep

end Files

namespace Run

open Files (Tree IsStep Failure)

/-- The name of a submission in its folder is one step. -/
theorem isStep_scriptName (fileName : String) : IsStep (scriptName fileName) := by
  have hdefault : IsStep "submission.py" := ⟨by decide, by decide, by decide, by decide⟩
  unfold scriptName
  cases hname : Files.fileName? fileName with
  | none => exact hdefault
  | some name =>
    dsimp only
    split
    · exact hdefault
    · exact Files.isStep_of_fileName? hname

/-- A tree with a new folder of a run. -/
def cleared (tree : Tree) : Tree :=
  { (tree.erase runFolder).set runFolder .folder with working := runFolder }

/-- What keeps a name from being given to a new file, if anything does. -/
def nameFailure? (name : String) : Option Failure :=
  if name.toList.contains (Char.ofNat 0) then some .nulByte
  else if Files.Tree.longestName < name.utf8ByteSize then some .nameTooLong
  else none

theorem entry?_cleared_runFolder (tree : Tree) :
    Tree.entry? (cleared tree) runFolder = some .folder :=
  (tree.erase runFolder).entry?_set_self (by decide) .folder

theorem entry?_cleared (tree : Tree) (name : String) :
    Tree.entry? (cleared tree) (runFolder ++ [name]) = none := by
  have hkept : Tree.entry? (cleared tree) (runFolder ++ [name]) =
      Tree.entry? (tree.erase runFolder) (runFolder ++ [name]) :=
    (tree.erase runFolder).entry?_set_of_ne (by simp) .folder
  rw [hkept, tree.entry?_erase_beneath (List.prefix_append _ _) (by simp)]

theorem working_cleared (tree : Tree) : (cleared tree).working = runFolder := rfl

/-- A way through a tree can take at least one step. -/
theorem exists_fuel (tree : Tree) (name : String) :
    ∃ fuel, name.length + 64 * (tree.entries.length + 1) * Files.Tree.linkLimit = fuel + 1 := by
  refine Nat.exists_eq_succ_of_ne_zero ?_
  unfold Files.Tree.linkLimit
  omega

/-- A new folder has room for every name that a file can have. -/
theorem resolve_cleared (tree : Tree) {name : String} (h : IsStep name) :
    (cleared tree).resolve name = .error ((nameFailure? name).getD .notFound) := by
  unfold Files.Tree.resolve nameFailure?
  rw [if_neg (by simpa using h.nonempty)]
  split
  · rfl
  · split
    · rename_i hlong
      rw [if_pos (by unfold Files.Tree.longestName; omega)]
      rfl
    · obtain ⟨fuel, hfuel⟩ := exists_fuel (cleared tree) name
      simp only [h.isAbsolute_eq, h.steps_eq, working_cleared, hfuel, Files.Tree.follow, h.up,
        entry?_cleared, if_false, Bool.false_eq_true]
      split <;> rfl

theorem place_cleared (tree : Tree) {name : String} (h : IsStep name) :
    (cleared tree).place name = .ok (runFolder ++ [name]) := by
  obtain ⟨fuel, hfuel⟩ := exists_fuel (cleared tree) name
  unfold Files.Tree.place
  simp only [h.isAbsolute_eq, h.steps_eq, List.getLast?_singleton, List.dropLast_singleton,
    working_cleared, hfuel, Files.Tree.follow, entry?_cleared_runFolder, Bool.false_eq_true, if_false]
  rfl

/-- The submission in its folder: a name that no file can have, or one file more. -/
theorem furnish_eq (tree : Tree) {name : String} (h : IsStep name) (source : String) :
    furnish tree name source =
      match nameFailure? name with
      | some failure => .error failure
      | none => .ok ((cleared tree).set (runFolder ++ [name]) (.file source.toUTF8 false)) := by
  have hfurnish : furnish tree name source = (cleared tree).write name source.toUTF8 := rfl
  rw [hfurnish, Files.Tree.write, resolve_cleared tree h, place_cleared tree h]
  by_cases hnul : name.toList.contains (Char.ofNat 0) = true
  · simp only [nameFailure?, if_pos hnul, Option.getD_some]
  · by_cases hlong : Files.Tree.longestName < name.utf8ByteSize
    · simp only [nameFailure?, if_neg hnul, if_pos hlong, Option.getD_some]
    · simp only [nameFailure?, if_neg hnul, if_neg hlong, Option.getD_none]
      rfl

/-- A new folder has no names. -/
theorem namesIn_cleared (tree : Tree) : (cleared tree).namesIn runFolder = [] := by
  refine List.filterMap_eq_nil_iff.2 fun known hknown => ?_
  rcases List.mem_append.1 hknown with hknown | hknown
  · have herased := (List.mem_filter.1 (List.mem_filter.1 hknown).1).2
    have hbeneath : known.1.dropLast ≠ runFolder := by
      intro heq
      have hbelow : runFolder.isPrefixOf known.1 = true :=
        List.isPrefixOf_iff_prefix.2 (heq ▸ List.dropLast_prefix known.1)
      simp [hbelow] at herased
    dsimp only
    split
    · rw [if_neg hbeneath]
    · rfl
  · rw [List.mem_singleton.1 hknown]
    rfl

/-- The submission is alone in its folder. -/
theorem namesIn_furnished (tree : Tree) (name : String) (content : ByteArray) :
    ((cleared tree).set (runFolder ++ [name]) (.file content false)).namesIn runFolder =
      [(name, .file content false)] := by
  have hkept : ((cleared tree).entries.filter fun known => known.1 ≠ runFolder ++ [name]) =
      (cleared tree).entries := by
    refine List.filter_eq_self.2 fun known hknown => ?_
    have hnone : (cleared tree).entries.lookup (runFolder ++ [name]) = none :=
      entry?_cleared tree name
    have hne := List.lookup_eq_none_iff.1 hnone known hknown
    exact decide_eq_true (Ne.symm (bne_iff_ne.1 hne))
  have hnames : ((cleared tree).set (runFolder ++ [name]) (.file content false)).namesIn runFolder =
      (cleared tree).namesIn runFolder ++ [(name, .file content false)] := by
    simp only [Files.Tree.namesIn, Files.Tree.set, hkept, List.filterMap_append]
    simp
  rw [hnames, namesIn_cleared]
  rfl

/-! ### What a run depends on -/

/-- What can be told of a process that has ended. -/
def observed (finish : Finish) : Stream × Stream × Option Ending × Nat × Option Note :=
  (finish.output, finish.errors, finish.ending, finish.ended,
    noteIn? finish.files (Files.join (rootPath runFolder) noteName))

/-- Programs take no notice of files outside the folder of a run: what they leave behind is a
function of the program, its arguments, its input, the files in that folder, and the deadline. -/
def Secluded (behaviour : Behaviour) : Prop :=
  ∀ start start' : Start, start.program = start'.program → start.arguments = start'.arguments →
    start.input = start'.input → start.deadline = start'.deadline →
    start.files.namesIn runFolder = start'.files.namesIn runFolder →
    (behaviour start).map observed = (behaviour start').map observed

/-- What is observed of a process makes its outcome. -/
theorem ofFinish_congr (plan : Plan) {finish finish' : Finish}
    (h : observed finish = observed finish') :
    Outcome.ofFinish plan (Files.join (rootPath runFolder) noteName) finish =
      Outcome.ofFinish plan (Files.join (rootPath runFolder) noteName) finish' := by
  simp only [observed, Prod.mk.injEq] at h
  obtain ⟨houtput, herrors, hending, hended, hnote⟩ := h
  simp only [Outcome.ofFinish, houtput, herrors, hending, hended, hnote]

/-- A run has the same outcome in every tree that has the same interpreter. -/
theorem conduct_of_secluded {behaviour : Behaviour} (h : Secluded behaviour) (plan : Plan)
    {tree tree' : Tree} (hpython : locate tree plan.python = locate tree' plan.python)
    (source fileName : String) (script : Script) :
    conduct behaviour tree plan source fileName script =
      conduct behaviour tree' plan source fileName script := by
  unfold conduct start
  rw [hpython]
  cases locate tree' plan.python with
  | none => rfl
  | some program =>
    have hstep := isStep_scriptName fileName
    simp only [furnish_eq tree hstep, furnish_eq tree' hstep]
    cases nameFailure? (scriptName fileName) with
    | some failure => rfl
    | none =>
      have hsame := h
        ⟨program, ["-c", supervisor, scriptName fileName,
            Files.join (rootPath runFolder) noteName], (request plan script).toUTF8,
          (cleared tree).set (runFolder ++ [scriptName fileName]) (.file source.toUTF8 false),
          plan.milliseconds⟩
        ⟨program, ["-c", supervisor, scriptName fileName,
            Files.join (rootPath runFolder) noteName], (request plan script).toUTF8,
          (cleared tree').set (runFolder ++ [scriptName fileName]) (.file source.toUTF8 false),
          plan.milliseconds⟩
        rfl rfl rfl rfl (by rw [namesIn_furnished, namesIn_furnished])
      dsimp only
      revert hsame
      cases behaviour _ with
      | error failure =>
        cases behaviour _ with
        | error failure' => intro hsame; cases hsame; rfl
        | ok finish' => intro hsame; cases hsame
      | ok finish =>
        cases behaviour _ with
        | error failure' => intro hsame; cases hsame
        | ok finish' =>
          intro hsame
          exact ofFinish_congr plan (Except.ok.inj hsame)

end Run

end Marksheet
