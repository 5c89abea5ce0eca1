import Marksheet.Files.Tree
import Marksheet.Settings.Basic
import Marksheet.Wildcard.Matching

/-!
# The files of a batch

A batch is made of the files directly in a folder whose names match the
wildcard of the settings and are not left out by them, in the order of their
names. Links and folders are never part of it.
-/

namespace Marksheet.Files

/-- Why a batch cannot be made. -/
inductive BatchFailure where
  | wildcard (pattern : String) (fault : Wildcard.Fault)
  | folder (path : String) (failure : Failure)
  deriving DecidableEq, Repr

/-- A failure in words. -/
def BatchFailure.message : BatchFailure → String
  | wildcard pattern fault => fault.message pattern
  | folder path failure => "IO error for operation on " ++ path ++ ": " ++ failure.message

/-- A name comes before another, or is the same. -/
def nameLe (a b : String) : Bool := a ≤ b

/-- The names of a batch among the names in a folder. -/
def selectNames (pieces : List Wildcard.Piece) (exclude : List String)
    (names : List (String × Entry)) : List String :=
  let files := (names.filter (·.2.isFile)).map (·.1)
  (files.filter fun name => Wildcard.isMatch pieces name && !exclude.contains name).mergeSort nameLe

/-- The paths of a batch. -/
def collectBatch (tree : Tree) (folder : String) (settings : Settings) :
    Except BatchFailure (List String) :=
  match Wildcard.parse settings.batchGlob with
  | .error fault => .error (.wildcard settings.batchGlob fault)
  | .ok pieces =>
    match tree.resolve folder with
    | .error failure => .error (.folder folder failure)
    | .ok (steps, .folder) =>
      .ok ((selectNames pieces settings.exclude (tree.namesIn steps)).map (join folder))
    | .ok (_, .sealed) => .error (.folder folder .denied)
    | .ok _ => .ok []

end Marksheet.Files
