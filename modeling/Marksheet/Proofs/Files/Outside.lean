import Mathlib
import Marksheet.Files.Batch

/-!
# Trees from outside

From outside a file shows that it is one, and nothing of what it holds or
whether it can be read. Where a path leads, which names a folder has and which
files a batch is made of can all be told from outside (`resolve_outside`,
`collectBatch_outside`), so two trees that look the same have the same batches.
-/

namespace Marksheet.Files

/-- What an entry shows from outside. -/
def Entry.outside : Entry → Entry
  | .file .. | .locked => .locked
  | .link target => .link target
  | .folder => .folder
  | .sealed => .sealed

/-- An entry under its name or steps, as it shows from outside. -/
def foundOutside {α : Type} (found : α × Entry) : α × Entry := (found.1, found.2.outside)

/-- What a tree shows from outside. -/
def Tree.outside (tree : Tree) : Tree := { tree with entries := tree.entries.map foundOutside }

@[simp] theorem Entry.isFile_outside (entry : Entry) : entry.outside.isFile = entry.isFile := by
  cases entry <;> rfl

@[simp] theorem Entry.isFolder_outside (entry : Entry) :
    entry.outside.isFolder = entry.isFolder := by
  cases entry <;> rfl

theorem lookup_outside (entries : List (List String × Entry)) (steps : List String) :
    (entries.map foundOutside).lookup steps = (entries.lookup steps).map Entry.outside := by
  induction entries with
  | nil => rfl
  | cons known rest ih =>
    obtain ⟨way, entry⟩ := known
    simp only [List.map_cons, foundOutside, List.lookup_cons]
    cases steps == way with
    | true => rfl
    | false => exact ih

namespace Tree

/-- The same steps lead to the same kinds of entries. -/
theorem entry?_outside (tree : Tree) (steps : List String) :
    tree.outside.entry? steps = ( tree.entry? steps).map Entry.outside := by
  unfold entry?
  split
  · rfl
  · exact lookup_outside tree.entries steps

/-- A way ends at the same place, whatever the files hold. -/
theorem follow_outside (tree : Tree) (final : Bool) (fuel : Nat) (links : Nat)
    (here way : List String) :
    tree.outside.follow final links here fuel way =
      (tree.follow final links here fuel way).map foundOutside := by
  induction fuel generalizing links here way with
  | zero => rfl
  | succ fuel ih =>
    cases way with
    | nil =>
      simp only [follow, entry?_outside]
      cases tree.entry? here <;> rfl
    | cons step rest =>
      simp only [follow, entry?_outside]
      split
      · exact ih links here.dropLast rest
      · split
        · rfl
        · rcases tree.entry? (here ++ [step]) with
            _ | ⟨content, executable⟩ | _ | target | _ | _
          · rfl
          · simp only [Option.map_some, Entry.outside]
            split <;> rfl
          · simp only [Option.map_some, Entry.outside]
            split <;> rfl
          · simp only [Option.map_some, Entry.outside]
            split
            · rfl
            · split
              · rfl
              · exact ih (links + 1) _ _
          · exact ih links (here ++ [step]) rest
          · exact ih links (here ++ [step]) rest

/-- A path leads to the same place, whatever the files hold. -/
theorem resolve_outside (tree : Tree) (path : String) :
    tree.outside.resolve path = (tree.resolve path).map foundOutside := by
  unfold resolve
  split
  · rfl
  · split
    · rfl
    · split
      · rfl
      · have hlength : tree.outside.entries.length = tree.entries.length := List.length_map _
        have hworking : tree.outside.working = tree.working := rfl
        simp only [hlength, hworking, follow_outside]
        cases tree.follow true 0 _ _ (steps path) with
        | error failure => rfl
        | ok found =>
          have hfile : (foundOutside found).2.isFile = found.2.isFile := found.2.isFile_outside
          simp only [bind, Except.bind, Except.map, hfile]
          split <;> rfl

/-- Folders are folders from outside too. -/
theorem isFolder_outside (tree : Tree) (path : String) :
    tree.outside.isFolder path = tree.isFolder path := by
  unfold isFolder
  rw [resolve_outside]
  cases tree.resolve path with
  | error failure => rfl
  | ok found => exact found.2.isFolder_outside

/-- A folder has the same names. -/
theorem namesIn_outside (tree : Tree) (folder : List String) :
    tree.outside.namesIn folder = (tree.namesIn folder).map foundOutside := by
  unfold namesIn outside
  rw [List.filterMap_map, List.map_filterMap]
  congr 1
  funext known
  obtain ⟨way, entry⟩ := known
  simp only [Function.comp_apply, foundOutside]
  cases way.getLast? with
  | none => rfl
  | some name => by_cases hf : way.dropLast = folder <;> simp [hf, foundOutside]

end Tree

/-- The same names are selected. -/
theorem selectNames_outside (pieces : List Wildcard.Piece) (exclude : List String)
    (names : List (String × Entry)) :
    selectNames pieces exclude (names.map foundOutside) = selectNames pieces exclude names := by
  have hfiles : ((names.map foundOutside).filter (·.2.isFile)).map (·.1) =
      (names.filter (·.2.isFile)).map (·.1) := by
    rw [List.filter_map, List.map_map]
    simp [Function.comp_def, foundOutside]
  simp only [selectNames, hfiles]

/-- The files of a batch can be told from outside. -/
theorem collectBatch_outside (tree : Tree) (folder : String) (settings : Settings) :
    collectBatch tree.outside folder settings = collectBatch tree folder settings := by
  unfold collectBatch
  rw [Tree.resolve_outside]
  cases Wildcard.parse settings.batchGlob with
  | error fault => rfl
  | ok pieces =>
    rcases tree.resolve folder with failure | ⟨place, entry⟩
    · rfl
    · cases entry with
      | folder =>
        have hnames := Tree.namesIn_outside tree place
        simp only [Except.map, foundOutside, Entry.outside, hnames, selectNames_outside]
      | _ => rfl

end Marksheet.Files
