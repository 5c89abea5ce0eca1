import Marksheet.Proofs.Run.Capture
import Marksheet.Proofs.Run.Note

/-!
# How a run is judged

A run is collected if nothing keeps it from taking place (`start_eq_ok_iff`).
Then what is left of its process may contradict itself: the deadline comes before
the note, and the note before the error stream and the exit code
(`ofFinish_of_deadline`, `ofFinish_of_leaves`, `ofFinish_of_unnoted`). What a run
without a fault needs follows from this order (`conduct_exact`).
-/

namespace Marksheet.Run

/-! ### What is left of a run -/

/-- A process leaves a note in the folder of its run. -/
def Finish.Leaves (finish : Finish) (note : Note) : Prop :=
  ∃ text content, finish.files.readText (Files.join (rootPath runFolder) noteName) = .ok text ∧
    Json.content? text = some content ∧ Note.Tells content note

theorem noteIn?_eq_some_iff {finish : Finish} {note : Note} :
    noteIn? finish.files (Files.join (rootPath runFolder) noteName) = some note ↔
      finish.Leaves note := by
  unfold noteIn? Finish.Leaves
  cases finish.files.readText (Files.join (rootPath runFolder) noteName) with
  | error failure => simp
  | ok text => simp [Note.ofText?_eq_some_iff]

/-- All that a process has written to a stream, as far as it is kept. -/
def Finish.shown (finish : Finish) (stream : Stream) : String :=
  Text.ofBytes (stream.captured finish.ended)

section Conduct

variable (behaviour : Behaviour) (tree : Files.Tree) (plan : Plan) (source fileName : String)
  (script : Script)

/-- A run takes place and is collected: the interpreter is found, the submission is written into a
new folder, and a process started there leaves something behind. -/
def Completes (finish : Finish) : Prop :=
  ∃ program files, locate tree plan.python = some program ∧
    furnish tree (scriptName fileName) source = .ok files ∧
    behaviour ⟨program,
      ["-c", supervisor, scriptName fileName, Files.join (rootPath runFolder) noteName],
      (request plan script).toUTF8, files, plan.milliseconds⟩ = .ok finish

theorem start_eq_ok_iff {finish : Finish} :
    start behaviour tree plan source fileName script = .ok finish ↔
      Completes behaviour tree plan source fileName script finish := by
  unfold start Completes
  cases locate tree plan.python with
  | none => simp
  | some program =>
    dsimp only
    cases furnish tree (scriptName fileName) source with
    | error failure => simp
    | ok files =>
      simp only [Option.some.injEq, Except.ok.injEq, exists_and_left, exists_eq_left']
      cases behaviour _ <;> simp

/-- A run that is not collected has an obstacle for its outcome. -/
theorem conduct_cases :
    (∃ obstacle, conduct behaviour tree plan source fileName script = .ofObstacle obstacle ∧
      ∀ finish, ¬ Completes behaviour tree plan source fileName script finish) ∨
    ∃ finish, Completes behaviour tree plan source fileName script finish ∧
      (∀ other, Completes behaviour tree plan source fileName script other → other = finish) ∧
      conduct behaviour tree plan source fileName script =
        .ofFinish plan (Files.join (rootPath runFolder) noteName) finish := by
  simp only [← start_eq_ok_iff, conduct]
  cases start behaviour tree plan source fileName script with
  | error obstacle => exact .inl ⟨obstacle, rfl, nofun⟩
  | ok finish => exact .inr ⟨finish, rfl, fun _ h => (Except.ok.inj h).symm, rfl⟩

end Conduct

/-! ### Precedence -/

section Precedence

variable (plan : Plan) {finish : Finish} {ending : Ending}

/-- The deadline comes before all else. -/
theorem ofFinish_of_deadline (h : finish.ending = none) :
    Outcome.ofFinish plan (Files.join (rootPath runFolder) noteName) finish =
      ⟨finish.shown finish.output, some (deadlineFault plan.milliseconds), 0⟩ := by
  rw [Outcome.ofFinish, h]
  rfl

/-- A note comes before what was written to the error stream and before the exit code. -/
theorem ofFinish_of_leaves (h : finish.ending = some ending) {note : Note}
    (hnote : finish.Leaves note) :
    Outcome.ofFinish plan (Files.join (rootPath runFolder) noteName) finish =
      ⟨finish.shown finish.output, note.fault, note.inputRequests⟩ := by
  rw [Outcome.ofFinish, h, noteIn?_eq_some_iff.mpr hnote]
  rfl

theorem ofFinish_of_unnoted (h : finish.ending = some ending)
    (hnote : ∀ note, ¬ finish.Leaves note) :
    Outcome.ofFinish plan (Files.join (rootPath runFolder) noteName) finish =
      ⟨finish.shown finish.output, unnotedFault (finish.shown finish.errors) ending, 0⟩ := by
  have hnone : noteIn? finish.files (Files.join (rootPath runFolder) noteName) = none :=
    Option.eq_none_iff_forall_ne_some.mpr fun note hsome =>
      hnote note (noteIn?_eq_some_iff.mp hsome)
  rw [Outcome.ofFinish, h, hnone]
  rfl

/-- Without a note, a run is clean if its process has succeeded and left no error but blanks. -/
theorem unnotedFault_eq_none_iff {errors : String} :
    unnotedFault errors ending = none ↔ Text.trimEnd errors = "" ∧ ending = .exited 0 := by
  unfold unnotedFault
  by_cases herrors : Text.trimEnd errors = "" <;> simp [herrors]

/-- What a clean run needs of its process. -/
theorem ofFinish_fault_eq_none_iff :
    (Outcome.ofFinish plan (Files.join (rootPath runFolder) noteName) finish).fault = none ↔
      ∃ ending, finish.ending = some ending ∧
        ((∃ requests, finish.Leaves ⟨none, requests⟩) ∨
          (∀ note, ¬ finish.Leaves note) ∧
            Text.trimEnd (finish.shown finish.errors) = "" ∧ ending = .exited 0) := by
  cases hending : finish.ending with
  | none =>
    rw [ofFinish_of_deadline plan hending]
    simp
  | some ending =>
    simp only [Option.some.injEq, exists_eq_left']
    by_cases hnote : ∃ note, finish.Leaves note
    · obtain ⟨note, hnote⟩ := hnote
      rw [ofFinish_of_leaves plan hending hnote]
      constructor
      · intro hfault
        refine .inl ⟨note.inputRequests, ?_⟩
        rwa [← show note.fault = none from hfault]
      · rintro (⟨requests, hclean⟩ | ⟨hnone, -⟩)
        · -- a folder has one note
          have hsame := (noteIn?_eq_some_iff.mpr hnote).symm.trans (noteIn?_eq_some_iff.mpr hclean)
          rw [Option.some.inj hsame]
        · exact absurd hnote (hnone note)
    · have hnone : ∀ note, ¬ finish.Leaves note := not_exists.mp hnote
      rw [ofFinish_of_unnoted plan hending hnone]
      dsimp only
      rw [unnotedFault_eq_none_iff]
      constructor
      · exact fun hclean => .inr ⟨hnone, hclean⟩
      · rintro (⟨requests, hclean⟩ | ⟨-, hclean⟩)
        · exact absurd hclean (hnone _)
        · exact hclean

end Precedence

/-- The folder of a run with a note. -/
def notedFiles (note : String) : Files.Tree :=
  ⟨[(["tmp"], .folder), (runFolder, .folder),
    (runFolder ++ [noteName], .file note.toUTF8 false)], runFolder⟩

/-- A process that ends so has written a line, an error and a note. -/
def noisyFinish (note : String) (ending : Option Ending) : Finish where
  output := ⟨["hi\n".toUTF8], some 0⟩
  errors := ⟨["oops".toUTF8], some 0⟩
  ending := ending
  ended := 0
  files := notedFiles note

/-- A tree with an interpreter. -/
def equipped : Files.Tree :=
  ⟨[(["usr"], .folder), (["usr", "bin"], .folder), (["usr", "bin", "python3"], .file .empty true)],
    []⟩

end Marksheet.Run
