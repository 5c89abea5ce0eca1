import Marksheet.Proofs.CommandLine.Status

/-!
# Settings that are given out

Settings come from a named file, from one of two files of a folder, or they are
the standard ones. Whichever way they come, they have been checked, and what
relies on them needs no check of its own. The two files are tried in order and
the first that exists decides alone: an unusable one is never passed over for
the second, and nothing outside it has a part in the outcome.
-/

namespace Marksheet.Settings

/-- What a session relies on in its settings. -/
structure Sound (settings : Settings) : Prop where
  /-- The name of the file to grade is not blank. -/
  defaultFile : ∃ c ∈ settings.defaultFile.toList, Text.isBlank c = false
  /-- The interpreter is not blank. -/
  python : ∃ c ∈ settings.python.toList, Text.isBlank c = false
  lineLimit : 0 < settings.lineLimit
  timeoutSecs : 0 < settings.timeoutSecs
  promptMarker : settings.promptMarker ≠ ""
  batchGlob : ∃ pieces, Wildcard.parse settings.batchGlob = .ok pieces

theorem blankText_eq_false_iff {text : String} :
    Text.blankText text = false ↔ ∃ c ∈ text.toList, Text.isBlank c = false := by
  simp [Text.blankText, Text.allBlank]

/-- The check passes exactly the settings that a session can rely on. -/
theorem valid_iff_sound {settings : Settings} : settings.Valid ↔ settings.Sound := by
  constructor
  · intro h
    have glob := glob_of_valid h
    unfold Valid invalid? at h
    split at h; · cases h
    next file =>
    split at h; · cases h
    next limit =>
    split at h; · cases h
    next marker =>
    split at h; · cases h
    next python =>
    split at h; · cases h
    next timeout =>
    exact {
      defaultFile := blankText_eq_false_iff.mp (Bool.eq_false_iff.mpr file)
      python := blankText_eq_false_iff.mp (Bool.eq_false_iff.mpr python)
      lineLimit := Nat.pos_of_ne_zero limit
      timeoutSecs := Nat.pos_of_ne_zero timeout
      promptMarker := fun empty => marker (String.isEmpty_iff.mpr empty)
      batchGlob := glob }
  · intro h
    obtain ⟨pieces, glob⟩ := h.batchGlob
    have file := blankText_eq_false_iff.mpr h.defaultFile
    have python := blankText_eq_false_iff.mpr h.python
    have limit : settings.lineLimit ≠ 0 := Nat.ne_of_gt h.lineLimit
    have timeout : settings.timeoutSecs ≠ 0 := Nat.ne_of_gt h.timeoutSecs
    simp [Valid, invalid?, file, python, limit, timeout, h.promptMarker, glob]

section

variable {tree tree' : Files.Tree} {folder path : String} {settings : Settings}

/-- The first of the two files that exists is loaded. -/
theorem discover_eq (tree : Files.Tree) (folder : String) :
    discover tree folder =
      if tree.isFile (Files.join folder "gradebot.yaml") then
        load tree (Files.join folder "gradebot.yaml")
      else if tree.isFile (Files.join folder ".gradebot.yaml") then
        load tree (Files.join folder ".gradebot.yaml")
      else .ok standard := by
  rw [discover, fileNames, List.map_cons, List.map_cons, List.map_nil, List.find?_cons,
    List.find?_cons, List.find?_nil]
  cases tree.isFile (Files.join folder "gradebot.yaml") with
  | true => rfl
  | false =>
    cases tree.isFile (Files.join folder ".gradebot.yaml") with
    | true => rfl
    | false => rfl

/-- Settings that were loaded or found are sound. -/
theorem sound_of_load (h : load tree path = .ok settings) : settings.Sound :=
  valid_iff_sound.mp (valid_of_load h)

theorem sound_of_discover (h : discover tree folder = .ok settings) : settings.Sound := by
  rw [discover_eq] at h
  split_ifs at h with hfirst hsecond
  · exact sound_of_load h
  · exact sound_of_load h
  · cases h
    exact valid_iff_sound.mp valid_standard

/-- The wildcard of sound settings is no reason for a batch to fail. -/
theorem collectBatch_ne_wildcard (h : settings.Sound) (place pattern : String)
    (fault : Wildcard.Fault) :
    Files.collectBatch tree place settings ≠ .error (.wildcard pattern fault) := by
  obtain ⟨pieces, glob⟩ := h.batchGlob
  unfold Files.collectBatch
  rw [glob]
  cases tree.resolve place with
  | error failure => simp
  | ok found =>
    obtain ⟨steps, entry⟩ := found
    cases entry <;> simp

/-! ### Which file decides -/

/-- What a path leads to decides what is loaded from it. -/
theorem load_congr (h : tree'.resolve path = tree.resolve path) :
    load tree' path = load tree path := by
  unfold load Files.Tree.readText Files.Tree.readBytes
  rw [h]

theorem isFile_congr (h : tree'.resolve path = tree.resolve path) :
    tree'.isFile path = tree.isFile path := by
  unfold Files.Tree.isFile
  rw [h]

theorem discover_first (h : tree.isFile (Files.join folder "gradebot.yaml") = true) :
    discover tree folder = load tree (Files.join folder "gradebot.yaml") := by
  rw [discover_eq, if_pos h]

theorem discover_second (h : tree.isFile (Files.join folder "gradebot.yaml") = false)
    (hsecond : tree.isFile (Files.join folder ".gradebot.yaml") = true) :
    discover tree folder = load tree (Files.join folder ".gradebot.yaml") := by
  rw [discover_eq, if_neg (Bool.eq_false_iff.mp h), if_pos hsecond]

theorem discover_neither (h : tree.isFile (Files.join folder "gradebot.yaml") = false)
    (hsecond : tree.isFile (Files.join folder ".gradebot.yaml") = false) :
    discover tree folder = .ok standard := by
  rw [discover_eq, if_neg (Bool.eq_false_iff.mp h), if_neg (Bool.eq_false_iff.mp hsecond)]

/-- Whatever else changes in a tree, the first file decides alone. -/
theorem discover_congr (h : tree.isFile (Files.join folder "gradebot.yaml") = true)
    (hsame : tree'.resolve (Files.join folder "gradebot.yaml") =
      tree.resolve (Files.join folder "gradebot.yaml")) :
    discover tree' folder = discover tree folder := by
  have h' : tree'.isFile (Files.join folder "gradebot.yaml") = true := (isFile_congr hsame).trans h
  rw [discover_first h', discover_first h, load_congr hsame]

end

/-- The settings that are given out are those that a session can rely on, whether they come from a
named file or are found in a folder; with them the wildcard of a batch is never at fault. What is
found is decided by the first of the two files that exists, links followed: it alone is loaded, an
unusable one is refused, and no change to anything else has a part in that. Only if neither exists
the standard settings are given out. -/
theorem discovery_exact (tree : Files.Tree) (folder : String) :
    let first := Files.join folder "gradebot.yaml"
    let second := Files.join folder ".gradebot.yaml"
    (∀ settings, (∃ path, load tree path = .ok settings) ∨ discover tree folder = .ok settings →
      settings.Sound ∧ settings.Valid ∧
        ∀ (tree' : Files.Tree) (place pattern : String) (fault : Wildcard.Fault),
          Files.collectBatch tree' place settings ≠ .error (.wildcard pattern fault)) ∧
    (tree.isFile first = true →
      discover tree folder = load tree first ∧
        ((∃ failure, discover tree folder = .error failure) ↔ Unusable tree first) ∧
        ∀ tree' : Files.Tree, tree'.resolve first = tree.resolve first →
          discover tree' folder = discover tree folder) ∧
    (tree.isFile first = false → tree.isFile second = true →
      discover tree folder = load tree second ∧
        ((∃ failure, discover tree folder = .error failure) ↔ Unusable tree second)) ∧
    (tree.isFile first = false → tree.isFile second = false →
      discover tree folder = .ok standard) := by
  intro first second
  refine ⟨fun settings given => ?_, fun hfirst => ?_, fun hfirst hsecond => ?_, discover_neither⟩
  · have sound : settings.Sound := by
      rcases given with ⟨path, h⟩ | h
      · exact sound_of_load h
      · exact sound_of_discover h
    exact ⟨sound, valid_iff_sound.mpr sound, fun _ => collectBatch_ne_wildcard sound⟩
  · have found := discover_first hfirst
    exact ⟨found, found ▸ load_error_iff tree first, fun tree' => discover_congr hfirst⟩
  · have found := discover_second hfirst hsecond
    exact ⟨found, found ▸ load_error_iff tree second⟩

/-- A working folder where the first file of settings is a link to one that allows no line, and the
second file is blank. -/
def shadowed : Files.Tree where
  entries := [(["gradebot.yaml"], .link "own/limits.yaml"), (["own"], .folder),
    (["own", "limits.yaml"], .file "line_limit: 0\n".toUTF8 false),
    ([".gradebot.yaml"], .file "\n".toUTF8 false)]
  working := []

/-- The first file is refused although the second one is fine; in its own folder, the standard
settings are found. -/
theorem discovery_exact_shadowed :
    shadowed.isFile "./gradebot.yaml" = true ∧ shadowed.isFile "./.gradebot.yaml" = true ∧
      discover shadowed "." = .error (.invalid .noLineLimit) ∧
      load shadowed "./.gradebot.yaml" = .ok standard ∧ standard.Sound ∧
      discover shadowed "own" = .ok standard := by
  have hfirst : shadowed.isFile "./gradebot.yaml" = true := by decide +kernel
  have hload : load shadowed "./gradebot.yaml" = .error (.invalid .noLineLimit) := by
    decide +kernel
  have hsecond : load shadowed "./.gradebot.yaml" = .ok standard := by decide +kernel
  obtain ⟨given, decided, -, -⟩ := discovery_exact shadowed "."
  obtain ⟨-, -, -, neither⟩ := discovery_exact shadowed "own"
  exact ⟨hfirst, by decide +kernel, (decided hfirst).1.trans hload, hsecond,
    (given standard (.inl ⟨_, hsecond⟩)).1, neither (by decide +kernel) (by decide +kernel)⟩

end Marksheet.Settings
