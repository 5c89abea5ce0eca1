import Marksheet.Proofs.Files.Outside
import Marksheet.Proofs.Wildcard.Matching

/-!
# The files of a batch, exactly

The names of a batch rise strictly in the order of their bytes, so each is there
once, and they are exactly the names of files directly in the folder that match
the wildcard and are not left out (`batch_exact`). The order in which the entries
of the tree are listed has no part in it.
-/

namespace Marksheet

namespace Wildcard

/-! ### The bytes of texts -/

/-- A smaller character has smaller bytes, whatever follows. -/
theorem bytesOf_append_lt {c d : Char} (h : c < d) (left right : List UInt8) :
    bytesOf c ++ left < bytesOf d ++ right := by
  have hlt : c.val.toNat < d.val.toNat := h
  have hd : d.val.toNat < 0x110000 := by
    have := d.valid
    rcases this with h | h <;> omega
  -- the bytes hold the digits of the number to the base 64
  have hdigits : ∀ n : ℕ, n / 64 / 64 = n / 4096 ∧ n / 4096 / 64 = n / 262144 :=
    fun n => ⟨Nat.div_div_eq_div_mul n 64 64, Nat.div_div_eq_div_mul n 4096 64⟩
  have hcdigits := hdigits c.val.toNat
  have hddigits := hdigits d.val.toNat
  unfold bytesOf String.utf8EncodeChar
  dsimp only
  split_ifs <;> simp (disch := omega) only [List.cons_append, List.nil_append,
    List.cons_lt_cons_iff, UInt8.lt_iff_toNat_lt, ← UInt8.toNat_inj, UInt8.toNat_ofNat',
    Nat.mod_eq_of_lt] <;>
    omega

theorem bytesOf_ne_nil (c : Char) : bytesOf c ≠ [] := by
  refine List.ne_nil_of_length_pos ?_
  rw [bytesOf, String.length_utf8EncodeChar]
  exact Char.utf8Size_pos c

theorem toList_loop_eq (bytes : ByteArray) (place : ℕ) (read : List UInt8) :
    ByteArray.toList.loop bytes place read = read.reverse ++ bytes.data.toList.drop place := by
  fun_induction ByteArray.toList.loop bytes place read with
  | case1 place read hlt ih =>
    have hbyte : bytes.get! place = bytes.data.toList[place] := getElem!_pos bytes.data place hlt
    rw [ih, List.drop_eq_getElem_cons hlt, hbyte]
    simp
  | case2 place read hend =>
    rw [List.drop_eq_nil_of_le (Nat.le_of_not_lt hend), List.append_nil]

theorem textBytes_eq (text : String) : textBytes text = text.toList.flatMap bytesOf := by
  conv_lhs => rw [← String.ofList_toList (s := text)]
  rw [textBytes, String.toUTF8_eq_toByteArray, String.toByteArray_ofList]
  rw [ByteArray.toList, toList_loop_eq, List.utf8Encode, List.toList_data_toByteArray]
  rfl

theorem flatMap_bytesOf_lt {cs ds : List Char} (h : cs < ds) :
    cs.flatMap bytesOf < ds.flatMap bytesOf := by
  induction h with
  | nil =>
    rename_i d ds
    obtain ⟨b, bs, hbytes⟩ := List.exists_cons_of_ne_nil (bytesOf_ne_nil d)
    rw [List.flatMap_nil, List.flatMap_cons, hbytes]
    exact .nil
  | rel hlt => exact bytesOf_append_lt hlt _ _
  | cons _ ih => exact List.append_left_lt ih

/-- Texts are in the order of their bytes. -/
theorem textBytes_lt {a b : String} (h : a < b) : textBytes a < textBytes b := by
  rw [textBytes_eq, textBytes_eq]
  exact flatMap_bytesOf_lt (String.lt_iff_toList_lt.mp h)

/-- The byte of the separator stands for nothing else. -/
theorem separator_mem_bytesOf {c : Char} (h : separator ∈ bytesOf c) : c = '/' := by
  have hbyte : ∀ n : ℕ, separator = UInt8.ofNat n ↔ 47 = n % 256 := by
    intro n
    rw [← UInt8.toNat_inj, UInt8.toNat_ofNat']
    rfl
  suffices hcode : c.val.toNat = 47 from Char.ext (UInt32.toNat_inj.mp hcode)
  unfold bytesOf String.utf8EncodeChar at h
  dsimp only at h
  split_ifs at h <;> simp only [List.mem_cons, List.not_mem_nil, or_false, hbyte] at h <;> omega

theorem separator_mem_textBytes {text : String} (h : separator ∈ textBytes text) :
    '/' ∈ text.toList := by
  rw [textBytes_eq, List.mem_flatMap] at h
  obtain ⟨c, hm, hc⟩ := h
  exact separator_mem_bytesOf hc ▸ hm

end Wildcard

namespace Files

/-- A tree that a file system can hold: no two entries have the same path, and no name holds a
separator. -/
structure Tree.Sound (tree : Tree) : Prop where
  distinct : (tree.entries.map Prod.fst).Nodup
  names : ∀ found ∈ tree.entries, ∀ name ∈ found.1, '/' ∉ name.toList

variable {tree tree' : Tree}

/-- Each path of a sound tree has the one entry that is listed for it. -/
theorem Tree.Sound.lookup_iff (h : tree.Sound) {steps : List String} {entry : Entry} :
    tree.entries.lookup steps = some entry ↔ (steps, entry) ∈ tree.entries := by
  rw [List.lookup_eq_some_iff]
  constructor
  · rintro ⟨before, after, hentries, -⟩
    rw [hentries]
    exact List.mem_append_right _ List.mem_cons_self
  · intro hm
    obtain ⟨before, after, hentries⟩ := List.append_of_mem hm
    refine ⟨before, after, hentries, fun known hknown => bne_iff_ne.mpr fun heq => ?_⟩
    have hdistinct := h.distinct
    rw [hentries, List.map_append, List.nodup_append] at hdistinct
    exact hdistinct.2.2 _ (List.mem_map_of_mem hknown) _ (by simp) heq.symm

/-- Two listings of the same entries. -/
structure Tree.Alike (tree tree' : Tree) : Prop where
  entries : tree'.entries.Perm tree.entries
  working : tree'.working = tree.working

theorem Tree.Sound.of_alike (h : tree.Sound) (halike : tree.Alike tree') : tree'.Sound :=
  ⟨(halike.entries.map Prod.fst).nodup_iff.mpr h.distinct,
    fun found hm => h.names found (halike.entries.mem_iff.mp hm)⟩

theorem Tree.Alike.entry?_eq (halike : tree.Alike tree') (h : tree.Sound) (steps : List String) :
    tree'.entry? steps = tree.entry? steps := by
  have hlookup : tree'.entries.lookup steps = tree.entries.lookup steps := by
    refine Option.ext fun entry => ?_
    rw [(h.of_alike halike).lookup_iff, h.lookup_iff, halike.entries.mem_iff]
  unfold Tree.entry?
  rw [hlookup]

/-- Steps lead the same way in trees with the same entries. -/
theorem Tree.follow_congr (h : ∀ steps, tree'.entry? steps = tree.entry? steps) (final : Bool)
    (fuel links : ℕ) (here way : List String) :
    tree'.follow final links here fuel way = tree.follow final links here fuel way := by
  induction fuel generalizing links here way with
  | zero => rfl
  | succ fuel ih =>
    cases way with
    | nil => rw [follow, follow, h]
    | cons step rest => simp only [follow, h, ih]

theorem Tree.Alike.resolve_eq (halike : tree.Alike tree') (h : tree.Sound) (path : String) :
    tree'.resolve path = tree.resolve path := by
  unfold Tree.resolve
  simp only [Tree.follow_congr (halike.entry?_eq h), halike.working, halike.entries.length_eq]

/-! ### The names of a batch -/

/-- The name of an entry in a folder, with the entry. -/
def named? (folder : List String) (found : List String × Entry) : Option (String × Entry) :=
  match found.1.getLast? with
  | some name => if found.1.dropLast = folder then some (name, found.2) else none
  | none => none

theorem mem_named? {folder : List String} {found : List String × Entry} {name : String}
    {entry : Entry} :
    (name, entry) ∈ named? folder found ↔ found = (folder ++ [name], entry) := by
  obtain ⟨steps, own⟩ := found
  unfold named?
  constructor
  · intro hname
    cases hlast : steps.getLast? with
    | none => simp [hlast] at hname
    | some last =>
      simp only [hlast, Option.mem_def, Option.ite_none_right_eq_some, Option.some.injEq,
        Prod.mk.injEq] at hname
      obtain ⟨hfolder, rfl, rfl⟩ := hname
      rw [← hfolder, List.dropLast_append_getLast? last hlast]
  · rintro h
    obtain ⟨rfl, rfl⟩ := Prod.mk.inj h
    simp

theorem mem_namesIn {folder : List String} {name : String} {entry : Entry} :
    (name, entry) ∈ tree.namesIn folder ↔ (folder ++ [name], entry) ∈ tree.entries := by
  have hnames : tree.namesIn folder = tree.entries.filterMap (named? folder) := rfl
  rw [hnames, List.mem_filterMap]
  constructor
  · rintro ⟨found, hm, hname⟩
    exact mem_named?.mp hname ▸ hm
  · exact fun hm => ⟨_, hm, mem_named?.mpr rfl⟩

/-- A folder of a sound tree has each name once. -/
theorem Tree.Sound.nodup_namesIn (h : tree.Sound) (folder : List String) :
    ((tree.namesIn folder).map Prod.fst).Nodup := by
  have hnames : tree.namesIn folder = tree.entries.filterMap (named? folder) := rfl
  rw [hnames, List.Nodup, List.pairwise_map, List.pairwise_filterMap]
  refine (List.pairwise_map.mp h.distinct).imp
    fun {first second} hne one hone other hother heq => ?_
  rw [mem_named?.mp hone, mem_named?.mp hother, heq] at hne
  exact hne rfl

/-- Selected names are in order. -/
theorem sorted_selectNames (pieces : List Wildcard.Piece) (exclude : List String)
    (names : List (String × Entry)) : (selectNames pieces exclude names).Pairwise (· ≤ ·) := by
  have htrans : ∀ a b c, nameLe a b = true → nameLe b c = true → nameLe a c = true := by
    intro a b c hab hbc
    simp only [nameLe, decide_eq_true_eq] at hab hbc ⊢
    exact le_trans hab hbc
  have htotal : ∀ a b, (nameLe a b || nameLe b a) = true := by
    intro a b
    simp only [nameLe, Bool.or_eq_true, decide_eq_true_eq]
    exact le_total a b
  exact (List.pairwise_mergeSort htrans htotal _).imp fun h => of_decide_eq_true h

/-- The files of a batch are in the order of their names. -/
theorem sorted_collectBatch {tree : Tree} {folder : String} {settings : Settings}
    {paths : List String} (h : collectBatch tree folder settings = .ok paths) :
    ∃ names : List String, paths = names.map (join folder) ∧ names.Pairwise (· ≤ ·) := by
  unfold collectBatch at h
  split at h
  · cases h
  · split at h
    · cases h
    · cases h
      exact ⟨_, rfl, sorted_selectNames _ _ _⟩
    · cases h
    · cases h
      exact ⟨[], rfl, .nil⟩

variable (pieces : List Wildcard.Piece) (exclude : List String) {names : List (String × Entry)}

theorem mem_selectNames {name : String} :
    name ∈ selectNames pieces exclude names ↔
      (∃ entry, (name, entry) ∈ names ∧ entry.isFile = true) ∧
        Wildcard.isMatch pieces name = true ∧ name ∉ exclude := by
  simp [selectNames]

/-- Names that are each there once are selected in strictly rising order. -/
theorem rising_selectNames (h : (names.map Prod.fst).Nodup) :
    (selectNames pieces exclude names).Pairwise (· < ·) := by
  have hnodup : (selectNames pieces exclude names).Nodup := by
    unfold selectNames
    rw [List.nodup_mergeSort]
    exact (h.sublist ((List.filter_sublist).map Prod.fst)).filter _
  refine (sorted_selectNames pieces exclude names).imp₂ (fun _ _ hle hne => ?_) hnodup
  exact lt_of_le_of_ne hle hne

/-- In a sound tree, a readable folder and a wildcard that can be read give a batch. Its names rise
strictly in the order of their bytes, and they are the names of files directly in the folder that
match the wildcard and are not left out. A wildcard of literal characters, question marks and stars
that does not begin with folders matches the names whose bytes fall into its literals, with one byte
for each question mark and any bytes for each star. In which order the entries of the tree are
listed does not matter. -/
theorem batch_exact (hsound : tree.Sound) {folder : String} {steps : List String}
    (hfolder : tree.resolve folder = .ok (steps, .folder)) {settings : Settings}
    {pieces : List Wildcard.Piece} (hglob : Wildcard.parse settings.batchGlob = .ok pieces) :
    (∃ names : List String,
      collectBatch tree folder settings = .ok (names.map (join folder)) ∧
      names.Pairwise (fun first second => Wildcard.textBytes first < Wildcard.textBytes second) ∧
      ∀ name, name ∈ names ↔
        (∃ entry, tree.entries.lookup (steps ++ [name]) = some entry ∧ entry.isFile = true) ∧
          Wildcard.isMatch pieces name = true ∧ name ∉ settings.exclude) ∧
    ((∀ c ∈ settings.batchGlob.toList, Wildcard.IsPlain c) →
      ¬ ['*', '*', '/'] <+: settings.batchGlob.toList →
      ∀ name : String, '/' ∉ name.toList → (Wildcard.isMatch pieces name = true ↔
        Wildcard.Fits settings.batchGlob.toList (Wildcard.textBytes name))) ∧
    ∀ tree' : Tree, tree.Alike tree' →
      collectBatch tree' folder settings = collectBatch tree folder settings := by
  have hbatch : ∀ other : Tree, other.resolve folder = .ok (steps, .folder) →
      collectBatch other folder settings = .ok
        ((selectNames pieces settings.exclude (other.namesIn steps)).map (join folder)) := by
    intro other hother
    simp only [collectBatch, hglob, hother]
  have hmem : ∀ {other : Tree}, other.Sound → ∀ name,
      name ∈ selectNames pieces settings.exclude (other.namesIn steps) ↔
        (∃ entry, other.entries.lookup (steps ++ [name]) = some entry ∧ entry.isFile = true) ∧
          Wildcard.isMatch pieces name = true ∧ name ∉ settings.exclude := by
    intro other hother name
    simp only [mem_selectNames, mem_namesIn, hother.lookup_iff]
  refine ⟨⟨_, hbatch tree hfolder, ?_, hmem hsound⟩, fun hplain hstart name hname => ?_,
    fun tree' halike => ?_⟩
  · exact (rising_selectNames pieces settings.exclude (hsound.nodup_namesIn steps)).imp
      Wildcard.textBytes_lt
  · obtain ⟨read, hread, hmatch⟩ := Wildcard.isMatch_iff_fits hplain hstart
    obtain rfl : read = pieces := Except.ok.inj (hread.symm.trans hglob)
    exact hmatch name fun hsep => hname (Wildcard.separator_mem_textBytes hsep)
  · have hsound' := hsound.of_alike halike
    rw [hbatch tree hfolder, hbatch tree' ((halike.resolve_eq hsound folder).trans hfolder)]
    -- two lists that rise strictly and have the same members are one
    have hsame := (rising_selectNames pieces settings.exclude
      (hsound'.nodup_namesIn steps)).eq_of_mem_iff
      (rising_selectNames pieces settings.exclude (hsound.nodup_namesIn steps)) fun name => by
        rw [hmem hsound', hmem hsound]
        simp only [hsound'.lookup_iff, hsound.lookup_iff, halike.entries.mem_iff]
    rw [hsame]

/-- A working folder with two files, a link, and a folder with a file of its own. -/
def submissions : Tree where
  entries := [(["work"], .folder), (["work", "ab.py"], .locked), (["work", "al.py"], .link "ab.py"),
    (["work", "a.py"], .file "print(1)\n".toUTF8 false), (["work", "ad.py"], .folder),
    (["work", "ad.py", "ae.py"], .locked)]
  working := ["work"]

/-- Of all that a wildcard with a star matches, the batch holds only the file that is not left
out. -/
theorem batch_exact_submissions :
    ∃ names : List String,
      collectBatch submissions "."
        { Settings.standard with batchGlob := "a*.py", exclude := ["a.py"] } =
          .ok (names.map (join ".")) ∧
      "ab.py" ∈ names ∧ "a.py" ∉ names ∧ "al.py" ∉ names ∧ "ad.py" ∉ names ∧ "ae.py" ∉ names := by
  have hsound : submissions.Sound := ⟨by decide, by decide⟩
  have hglob : Wildcard.parse "a*.py" =
      .ok [.literal 'a', .run, .literal '.', .literal 'p', .literal 'y'] := rfl
  let settings : Settings := { Settings.standard with batchGlob := "a*.py", exclude := ["a.py"] }
  obtain ⟨⟨names, hbatch, -, hmem⟩, -, -⟩ := batch_exact hsound (rfl : submissions.resolve "." = _)
    (show Wildcard.parse settings.batchGlob = _ from hglob)
  refine ⟨names, hbatch, (hmem "ab.py").mpr ⟨⟨_, rfl, rfl⟩, by decide +kernel, by decide⟩, ?_⟩
  simp only [hmem]
  refine ⟨fun h => ?_, fun h => ?_, fun h => ?_, fun h => ?_⟩
  · exact h.2.2 (by decide)
  · obtain ⟨⟨entry, hentry, hfile⟩, -⟩ := h
    cases hentry
    cases hfile
  · obtain ⟨⟨entry, hentry, hfile⟩, -⟩ := h
    cases hentry
    cases hfile
  · obtain ⟨⟨entry, hentry, -⟩, -⟩ := h
    cases hentry

/-- A question mark does not stand for a character of two bytes, and folders at the beginning of a
wildcard may be none, so that a name without a separator matches a wildcard with one. -/
theorem not_fits_characterwise :
    "é.py".toList = 'é' :: ".py".toList ∧
      collectBatch ⟨[(["work"], .folder), (["work", "é.py"], .locked)], ["work"]⟩ "."
        { Settings.standard with batchGlob := "?.py" } = .ok [] ∧
      '/' ∉ "a.py".toList ∧
      collectBatch ⟨[(["work"], .folder), (["work", "a.py"], .locked)], ["work"]⟩ "."
        { Settings.standard with batchGlob := "**/a.py" } = .ok ["./a.py"] := by
  refine ⟨rfl, ?_, by decide, ?_⟩
  · decide +kernel
  · decide +kernel

end Files

end Marksheet
