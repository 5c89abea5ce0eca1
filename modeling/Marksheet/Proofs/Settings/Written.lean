import Mathlib
import Marksheet.Proofs.Decimal.Numeral
import Marksheet.Proofs.Json.Compact
import Marksheet.Proofs.Settings.Discovery
import Marksheet.Proofs.Yaml.Parts

/-!
# Settings as they are written

Some of the fields are chosen, each with a value of its type. Written as a block
mapping, in any order and among other keys, they are read as the standard
settings with just these fields replaced (`ofText_written`), so a file of such a
mapping is loaded or refused as these settings are (`load_written`). Any choice
can be written so (`exists_written`).
-/

namespace Marksheet.Settings

open Yaml (Node Pair Scalar Document Mark Part pairParts)

/-! ### Fields and their values -/

/-- The value of a field. -/
inductive Value where
  | text (text : String)
  | texts (items : List String)
  | count (number : Nat)
  | truth (value : Bool)
  | nothing
  deriving DecidableEq, Repr

/-- The value of each field. -/
def value (settings : Settings) : Field → Value
  | .defaultFile => .text settings.defaultFile
  | .batchGlob => .text settings.batchGlob
  | .exclude => .texts settings.exclude
  | .scriptedInputs => .texts settings.scriptedInputs
  | .padExtra => .count settings.padExtra
  | .padValue => settings.padValue.elim .nothing .text
  | .echoPrompts => .truth settings.echoPrompts
  | .python => .text settings.python
  | .timeoutSecs => .count settings.timeoutSecs
  | .randomSeed => settings.randomSeed.elim .nothing .count
  | .lineLimit => .count settings.lineLimit
  | .headerLines => .count settings.headerLines
  | .minQuestions => .count settings.minQuestions
  | .promptMarker => .text settings.promptMarker

/-- A value of the type of a field; counts have sixty-four bits. -/
def Field.Admits : Field → Value → Prop
  | .defaultFile, .text _ | .batchGlob, .text _ | .python, .text _ | .promptMarker, .text _ => True
  | .exclude, .texts _ | .scriptedInputs, .texts _ => True
  | .padExtra, .count n | .timeoutSecs, .count n | .lineLimit, .count n | .headerLines, .count n
  | .minQuestions, .count n | .randomSeed, .count n => n < 2 ^ 64
  | .echoPrompts, .truth _ => True
  | .padValue, .text _ | .padValue, .nothing | .randomSeed, .nothing => True
  | _, _ => False

/-- Settings with the value of a field replaced. -/
def set (settings : Settings) : Field → Value → Settings
  | .defaultFile, .text v => { settings with defaultFile := v }
  | .batchGlob, .text v => { settings with batchGlob := v }
  | .exclude, .texts v => { settings with exclude := v }
  | .scriptedInputs, .texts v => { settings with scriptedInputs := v }
  | .padExtra, .count v => { settings with padExtra := v }
  | .padValue, .text v => { settings with padValue := some v }
  | .padValue, .nothing => { settings with padValue := none }
  | .echoPrompts, .truth v => { settings with echoPrompts := v }
  | .python, .text v => { settings with python := v }
  | .timeoutSecs, .count v => { settings with timeoutSecs := v }
  | .randomSeed, .count v => { settings with randomSeed := some v }
  | .randomSeed, .nothing => { settings with randomSeed := none }
  | .lineLimit, .count v => { settings with lineLimit := v }
  | .headerLines, .count v => { settings with headerLines := v }
  | .minQuestions, .count v => { settings with minQuestions := v }
  | .promptMarker, .text v => { settings with promptMarker := v }
  | _, _ => settings

/-- A field has the value that it is given, and the others keep theirs. -/
theorem value_set (settings : Settings) {field : Field} {v : Value} (h : field.Admits v)
    (other : Field) :
    (settings.set field v).value other = if other = field then v else settings.value other := by
  cases field <;> cases v <;> first | exact h.elim | (cases other <;> rfl)

/-- Settings are known by the values of their fields. -/
theorem eq_of_value_eq {settings other : Settings}
    (h : ∀ field, settings.value field = other.value field) : settings = other := by
  have padValue := h .padValue
  have randomSeed := h .randomSeed
  have same : settings.padValue = other.padValue ∧ settings.randomSeed = other.randomSeed := by
    unfold value at padValue randomSeed
    constructor
    · cases hs : settings.padValue <;> cases ho : other.padValue <;> simp_all
    · cases hs : settings.randomSeed <;> cases ho : other.randomSeed <;> simp_all
  obtain ⟨⟩ := settings
  obtain ⟨⟩ := other
  have defaultFile := h .defaultFile
  have batchGlob := h .batchGlob
  have exclude := h .exclude
  have scriptedInputs := h .scriptedInputs
  have padExtra := h .padExtra
  have echoPrompts := h .echoPrompts
  have python := h .python
  have timeoutSecs := h .timeoutSecs
  have lineLimit := h .lineLimit
  have headerLines := h .headerLines
  have minQuestions := h .minQuestions
  have promptMarker := h .promptMarker
  simp_all [value]

/-! ### Values as they are written -/

/-- The words for truth values. -/
def truthWords : List (String × Bool) :=
  [("true", true), ("True", true), ("TRUE", true), ("false", false), ("False", false),
    ("FALSE", false)]

/-- The words for nothing; a value that is left out is one of them. -/
def nothingWords : List String := ["null", "Null", "NULL", "~", ""]

/-- A value as a node of a mapping: texts are quoted, and counts are decimals. -/
inductive Value.Spelled : Value → Node → Prop
  | text (text : String) : Spelled (.text text) (.scalar (.quoted text))
  | texts (items : List String) : Spelled (.texts items) (.texts items)
  | count (number : Nat) : Spelled (.count number) (.scalar (.word (toString number)))
  | truth {word : String} {value : Bool} (h : (word, value) ∈ truthWords) :
      Spelled (.truth value) (.scalar (.word word))
  | nothing {word : String} (h : word ∈ nothingWords) : Spelled .nothing (.scalar (.word word))

section

variable {number : Nat}

/-- A word with something that is no digit is not the decimal of a number. -/
theorem ne_toString_of_not_digits {word : String} (h : word.toList.all Yaml.isDigit = false) :
    word ≠ toString number := by
  rintro rfl
  rw [Decimal.toList_toString] at h
  have all : (Decimal.digits number).all Yaml.isDigit = true :=
    List.all_eq_true.mpr fun c hc => Decimal.isDigit_of_mem_digits hc
  rw [all] at h
  cases h

theorem toString_not_nothing : toString number ∉ nothingWords := by
  have all : ∀ word ∈ nothingWords, word = "" ∨ word.toList.all Yaml.isDigit = false := by decide
  intro h
  rcases all _ h with empty | other
  · have chars := congrArg String.toList empty
    rw [Decimal.toList_toString] at chars
    exact Decimal.digits_ne_nil number chars
  · exact ne_toString_of_not_digits other rfl

/-- The decimal of a number is read as that number: it has neither a sign nor a mark of a radix, and
no zero before other digits. -/
theorem integerOf?_digits (number : Nat) :
    Yaml.integerOf? (Decimal.digits number) = some (number : Int) := by
  obtain ⟨c, rest, hdigits⟩ := List.exists_cons_of_ne_nil (Decimal.digits_ne_nil number)
  have digit : ∀ d ∈ c :: rest, Yaml.isDigit d = true := fun d hd =>
    Decimal.isDigit_of_mem_digits (hdigits ▸ hd)
  have minus : c ≠ '-' := by
    rintro rfl
    exact absurd (digit '-' List.mem_cons_self) (by decide)
  have plus : c ≠ '+' := by
    rintro rfl
    exact absurd (digit '+' List.mem_cons_self) (by decide)
  have zero : c = '0' → rest = [] := by
    rintro rfl
    exact (Decimal.eq_zero_of_digits hdigits).2
  have leading : Yaml.hasLeadingZero (c :: rest) = false := by
    by_cases hc : c = '0'
    · rw [hc, zero hc]
      decide
    · unfold Yaml.hasLeadingZero
      simp [minus, plus, hc]
  have small : (c :: rest).all (fun d => decide (Decimal.digitValue d < 10)) = true := by
    refine List.all_eq_true.mpr fun d hd => decide_eq_true ?_
    have range := digit d hd
    have value : Decimal.digitValue d = d.toNat - '0'.toNat := Decimal.digitValue_of_isDigit range
    have last : d.toNat ≤ '9'.toNat := by
      simp only [Yaml.isDigit, Bool.and_eq_true, decide_eq_true_eq] at range
      exact range.2
    rw [value, show '0'.toNat = 48 from rfl]
    rw [show '9'.toNat = 57 from rfl] at last
    omega
  have decimal : Yaml.radixValue? 10 (c :: rest) = some number := by
    rw [Yaml.radixValue?, small, ← hdigits, Decimal.digitsValue_digits]
    simp [hdigits]
  have magnitude : Yaml.magnitudeOf? (c :: rest) = some number := by
    unfold Yaml.magnitudeOf?
    split
    iterate 3
      · rename_i heq
        obtain ⟨hc, hrest⟩ := List.cons.inj heq
        rw [zero hc] at hrest
        cases hrest
    · exact decimal
  rw [hdigits]
  unfold Yaml.integerOf?
  simp [leading, minus, plus, magnitude]

theorem countOf?_toString (h : number < 2 ^ 64) :
    Yaml.countOf? (toString number) = some number := by
  have bound : (number : Int) < Int.pow 2 64 := by
    have : Int.pow 2 64 = ((2 ^ 64 : Nat) : Int) := by decide
    omega
  unfold Yaml.countOf?
  rw [Decimal.toList_toString]
  split
  · rename_i rest hminus
    have mem : '-' ∈ Decimal.digits number := hminus ▸ List.mem_cons_self
    exact absurd (Decimal.isDigit_of_mem_digits mem) (by decide)
  · simp only [integerOf?_digits, bound, if_true, Int.toNat_natCast]

theorem boolOf?_of_truthWord {word : String} {value : Bool} (h : (word, value) ∈ truthWords) :
    Yaml.boolOf? word = some value := by
  have all : ∀ pair ∈ truthWords, Yaml.boolOf? pair.1 = some pair.2 := by decide
  exact all _ h

end

/-! ### Reading a value -/

section

variable (document : Document) (around : Mark) (path : String) {front rest : Parts} {mark : Mark}

theorem readScalar_scalar {α : Type} (value? : Scalar → Option α) {scalar : Scalar} {a : α}
    (h : value? scalar = some a) (expected : String) :
    readScalar document expected path value? ((.scalar scalar, mark) :: rest) = .ok (a, rest) := by
  simp [readScalar, follow, first, h, bind, Except.bind, pure, Except.pure]

theorem readText_scalar (scalar : Scalar) (mark : Mark) (rest : Parts) :
    readText document path ((.scalar scalar, mark) :: rest) = .ok (scalar.text, rest) :=
  readScalar_scalar document path (fun scalar => some scalar.text) rfl "a string"

/-- A count by its decimal. -/
theorem readCount_toString {number : Nat} (h : number < 2 ^ 64) (expected : String) (mark : Mark)
    (rest : Parts) :
    readCount document expected path ((.scalar (.word (toString number)), mark) :: rest) =
      .ok (number, rest) :=
  readScalar_scalar document path _ ((if_pos rfl).trans (countOf?_toString h)) expected

/-- A value that is one of the words for nothing is absent. -/
theorem readOptional_nothing {word : String} (h : word ∈ nothingWords) (mark : Mark) (rest : Parts)
    {α : Type} (read : Reading α) :
    readOptional document around read ((.scalar (.word word), mark) :: rest) =
      .ok (none, rest) := by
  have absent : (word.isEmpty || Yaml.isNullWord word) = true := by
    have all : ∀ word ∈ nothingWords, (word.isEmpty || Yaml.isNullWord word) = true := by decide
    exact all word h
  simp [readOptional, follow, first, Scalar.word, absent, bind, Except.bind, pure, Except.pure]

/-- Any other scalar without a tag is read as what it is. -/
theorem readOptional_present {α : Type} {read : Reading α} {scalar : Scalar} {a : α}
    (untagged : scalar.tag = none) (h : scalar.plain = false ∨ scalar.text ∉ nothingWords)
    (hread : read ((.scalar scalar, mark) :: rest) = .ok (a, rest)) :
    readOptional document around read ((.scalar scalar, mark) :: rest) = .ok (some a, rest) := by
  have present : scalar.plain = false ∨
      (scalar.text.isEmpty || Yaml.isNullWord scalar.text) = false := by
    refine h.imp_right fun other => ?_
    simp only [nothingWords, List.mem_cons, List.not_mem_nil, or_false, not_or] at other
    simp [Yaml.isNullWord, other]
  rcases present with quoted | plain
  · simp [readOptional, follow, first, quoted, hread, bind, Except.bind, pure, Except.pure]
  · cases hp : scalar.plain <;>
      simp [readOptional, follow, first, hp, plain, untagged, hread, bind, Except.bind, pure,
        Except.pure]

theorem readTextsFrom_items {items : List String} {places : Parts}
    (h : places.map Prod.fst = items.map fun item => .scalar (.quoted item)) (index : Nat) :
    readTextsFrom document path index (places ++ (.sequenceEnd, mark) :: rest) =
      .ok (items, rest) := by
  induction items generalizing places index with
  | nil =>
    obtain rfl : places = [] := by simpa using h
    rfl
  | cons item items ih =>
    obtain ⟨⟨part, place⟩, places, rfl, hpart, others⟩ := List.map_eq_cons_iff.mp h
    cases hpart
    simp only [List.cons_append, readTextsFrom, readText_scalar, bind, Except.bind, ih others]
    rfl

/-- A field is given the value that its node spells. -/
theorem readField_spelled (settings : Settings) {field : Field} {v : Value} {node : Node}
    (typed : field.Admits v) (spelled : v.Spelled node)
    (placed : front.map Prod.fst = node.parts) (rest : Parts) :
    readField document around path settings field (front ++ rest) =
      .ok (settings.set field v, rest) := by
  -- one part stands for a scalar
  have single {scalar : Scalar} (h : front.map Prod.fst = (Node.scalar scalar).parts) :
      ∃ mark, front = [(.scalar scalar, mark)] := by
    obtain ⟨⟨part, mark⟩, others, rfl, hpart, hothers⟩ := List.map_eq_cons_iff.mp h
    cases hpart
    exact ⟨mark, by simpa using hothers⟩
  cases spelled with
  | text text =>
    obtain ⟨mark, rfl⟩ := single placed
    have read := readText_scalar document path (.quoted text) mark rest
    have present := readOptional_present document around rfl (.inl rfl) read
    cases field <;> first
      | exact typed.elim
      | simp [readField, read, present, set, bind, Except.bind, pure, Except.pure]
  | texts items =>
    obtain ⟨⟨part, mark⟩, places, rfl, hpart, hplaces⟩ := List.map_eq_cons_iff.mp placed
    obtain ⟨inner, last, rfl, hinner, hlast⟩ := List.map_eq_append_iff.mp hplaces
    obtain ⟨⟨part', mark'⟩, _, rfl, hpart', hnone⟩ := List.map_eq_cons_iff.mp hlast
    obtain rfl := List.map_eq_nil_iff.mp hnone
    cases hpart
    cases hpart'
    have read : readTexts document path
        ((.sequenceStart, mark) :: (inner ++ (.sequenceEnd, mark') :: rest)) =
          .ok (items, rest) := by
      simp [readTexts, follow, first, readTextsFrom_items document path hinner, bind, Except.bind]
    cases field <;> first
      | exact typed.elim
      | simp [readField, read, set, bind, Except.bind, pure, Except.pure]
  | count number =>
    obtain ⟨mark, rfl⟩ := single placed
    have bound (h : number < 2 ^ 64) (expected : String) :=
      readCount_toString document path h expected mark rest
    have present (h : number < 2 ^ 64) := readOptional_present document around rfl
      (.inr toString_not_nothing) (bound h "u64")
    generalize toString number = word at bound present
    cases field <;> first
      | exact typed.elim
      | simp [readField, bound typed, present typed, set, bind, Except.bind, pure, Except.pure]
  | @truth word truth h =>
    obtain ⟨mark, rfl⟩ := single placed
    have read : readBool document path ((.scalar (.word word), mark) :: rest) = .ok (truth, rest) :=
      readScalar_scalar document path _ ((if_pos rfl).trans (boolOf?_of_truthWord h)) "a boolean"
    cases field <;> first
      | exact typed.elim
      | simp [readField, read, set, bind, Except.bind, pure, Except.pure]
  | nothing h =>
    obtain ⟨mark, rfl⟩ := single placed
    have absent {α : Type} (read : Reading α) :=
      readOptional_nothing document around h mark rest read
    cases field <;> first
      | exact typed.elim
      | simp [readField, absent, set, bind, Except.bind, pure, Except.pure]

/-- The value of any other key is passed over. -/
theorem passNode_node {node : Node} (placed : front.map Prod.fst = node.parts) :
    passNode document 0 (front ++ rest) = .ok rest := by
  cases node with
  | scalar scalar =>
    obtain ⟨⟨part, mark⟩, others, rfl, hpart, hothers⟩ := List.map_eq_cons_iff.mp placed
    obtain rfl := List.map_eq_nil_iff.mp hothers
    cases hpart
    rfl
  | texts items =>
    obtain ⟨⟨part, mark⟩, places, rfl, hpart, hplaces⟩ := List.map_eq_cons_iff.mp placed
    cases hpart
    suffices passNode document 1 (places ++ rest) = .ok rest from this
    clear placed
    induction items generalizing places with
    | nil =>
      obtain ⟨⟨part, mark'⟩, _, rfl, hpart, hnone⟩ := List.map_eq_cons_iff.mp hplaces
      obtain rfl := List.map_eq_nil_iff.mp hnone
      cases hpart
      rfl
    | cons item items ih =>
      obtain ⟨⟨part, mark'⟩, others, rfl, hpart, hothers⟩ := List.map_eq_cons_iff.mp hplaces
      cases hpart
      exact ih others hothers

end

/-! ### Reading a mapping -/

/-- The pairs spell the fields that are chosen with their values, each of them once. -/
structure Spells (pairs : List Pair) (chosen : Field → Option Value) : Prop where
  /-- A key of a field stands before a value chosen for it. -/
  known : ∀ pair ∈ pairs, ∀ field : Field, pair.1.text = field.key →
    ∃ v, chosen field = some v ∧ v.Spelled pair.2
  /-- There is a pair for each chosen field. -/
  every : ∀ field, (chosen field).isSome → ∃ pair ∈ pairs, pair.1.text = field.key
  /-- No field has two pairs. -/
  once : pairs.Pairwise fun first second =>
    ∀ field : Field, first.1.text = field.key → second.1.text ≠ field.key

theorem ofKey?_eq_some {text : String} {field : Field} (h : Field.ofKey? text = some field) :
    text = field.key := by
  have found := List.find?_some h
  exact (of_decide_eq_true found).symm

theorem ofKey?_eq_none {text : String} (h : Field.ofKey? text = none) (field : Field) :
    text ≠ field.key := by
  rintro rfl
  rw [Field.ofKey?_key] at h
  cases h

theorem key_injective {field other : Field} (h : field.key = other.key) : field = other := by
  have same := congrArg Field.ofKey? h
  rw [Field.ofKey?_key, Field.ofKey?_key] at same
  exact Option.some.inj same

/-- Each pair of a known key sets its field, and the others set none. -/
theorem readEntries_pairs (document : Document) (around : Mark) {chosen : Field → Option Value}
    (typed : ∀ field v, chosen field = some v → field.Admits v) {pairs : List Pair}
    (known : ∀ pair ∈ pairs, ∀ field : Field, pair.1.text = field.key →
      ∃ v, chosen field = some v ∧ v.Spelled pair.2)
    (once : pairs.Pairwise fun first second =>
      ∀ field : Field, first.1.text = field.key → second.1.text ≠ field.key)
    (read : List Field) (unread : ∀ field ∈ read, ∀ pair ∈ pairs, pair.1.text ≠ field.key)
    {parts : Parts} (placed : parts.map Prod.fst = pairParts pairs ++ [.mappingEnd]) {fuel : Nat}
    (enough : pairs.length < fuel) (settings : Settings) :
    ∃ found rest, readEntries document around read settings fuel parts = .ok (found, rest) ∧
      (∀ field, (∃ pair ∈ pairs, pair.1.text = field.key) →
        chosen field = some (found.value field)) ∧
      ∀ field, (∀ pair ∈ pairs, pair.1.text ≠ field.key) →
        found.value field = settings.value field := by
  induction pairs generalizing read settings parts fuel with
  | nil =>
    obtain ⟨fuel, rfl⟩ : ∃ n, fuel = n + 1 := ⟨fuel - 1, by simp at enough; omega⟩
    obtain ⟨⟨part, mark⟩, others, rfl, hpart, hothers⟩ := List.map_eq_cons_iff.mp placed
    cases hpart
    exact ⟨settings, others, rfl, by simp, fun _ _ => rfl⟩
  | cons pair pairs ih =>
    obtain ⟨fuel, rfl⟩ : ∃ n, fuel = n + 1 := ⟨fuel - 1, by simp at enough; omega⟩
    rw [Yaml.pairParts_cons, List.cons_append, List.append_assoc] at placed
    obtain ⟨⟨part, mark⟩, behind, rfl, hpart, hbehind⟩ := List.map_eq_cons_iff.mp placed
    obtain ⟨front, others, rfl, hfront, hothers⟩ := List.map_eq_append_iff.mp hbehind
    cases hpart
    obtain ⟨knownHere, knownLater⟩ := List.forall_mem_cons.mp known
    obtain ⟨onceHere, onceLater⟩ := List.pairwise_cons.mp once
    have key : readScalar document "field identifier" "" (fun s => some s.text)
        ((.scalar pair.1, mark) :: (front ++ others)) = .ok (pair.1.text, front ++ others) :=
      readScalar_scalar document "" (fun s => some s.text) rfl "field identifier"
    cases hfield : Field.ofKey? pair.1.text with
    | none =>
      have other := ofKey?_eq_none hfield
      obtain ⟨found, rest, hread, hchosen, hkept⟩ := ih knownLater onceLater read
        (fun field hf p hp => unread field hf p (List.mem_cons_of_mem _ hp)) hothers
        (by simpa using enough) settings
      refine ⟨found, rest, ?_, fun field => ?_, fun field h => ?_⟩
      · rw [readEntries]
        simp only [first, bind, Except.bind, key, hfield, passNode_node document hfront, hread]
      · rintro ⟨p, hp, hkey⟩
        rcases List.mem_cons.mp hp with rfl | hp
        · exact absurd hkey (other field)
        · exact hchosen field ⟨p, hp, hkey⟩
      · exact hkept field fun p hp => h p (List.mem_cons_of_mem _ hp)
    | some field =>
      have here := ofKey?_eq_some hfield
      obtain ⟨v, hv, spelled⟩ := knownHere field here
      have fresh : read.contains field = false := by
        rw [← Bool.not_eq_true, List.contains_iff_mem]
        exact fun hm => unread field hm pair List.mem_cons_self here
      have set := readField_spelled document around pair.1.text settings (typed field v hv)
        spelled hfront others
      obtain ⟨found, rest, hread, hchosen, hkept⟩ := ih knownLater onceLater (field :: read)
        (fun f hf p hp => by
          rcases List.mem_cons.mp hf with rfl | hf
          · exact onceHere p hp _ here
          · exact unread f hf p (List.mem_cons_of_mem _ hp)) hothers
        (by simpa using enough) (settings.set field v)
      have value := value_set settings (typed field v hv)
      refine ⟨found, rest, ?_, fun f => ?_, fun f h => ?_⟩
      · rw [readEntries]
        simp only [first, bind, Except.bind, key, hfield, fresh, set, hread, Bool.false_eq_true,
          if_false]
      · rintro ⟨p, hp, hkey⟩
        rcases List.mem_cons.mp hp with rfl | hp
        · obtain rfl : f = field := key_injective (hkey.symm.trans here)
          rw [hkept f fun p hp => onceHere p hp f here, value, if_pos rfl, hv]
        · exact hchosen f ⟨p, hp, hkey⟩
      · have ne : f ≠ field := by
          rintro rfl
          exact h pair List.mem_cons_self here
        rw [hkept f fun p hp => h p (List.mem_cons_of_mem _ hp), value, if_neg ne]

variable {chosen : Field → Option Value} {pairs : List Pair} {text : String}

/-- A text that is written as a mapping gives settings with just the chosen fields replaced. -/
theorem ofText_written (typed : ∀ field v, chosen field = some v → field.Admits v)
    (spells : Spells pairs chosen) (written : Yaml.Written pairs text) :
    ∃ settings, ofText text = .ok settings ∧
      ∀ field, settings.value field = (chosen field).getD (standard.value field) := by
  cases pairs with
  | nil =>
    have absent (field : Field) : chosen field = none := by
      cases h : chosen field with
      | none => rfl
      | some v =>
        obtain ⟨_, hp, -⟩ := spells.every field (by simp [h])
        cases hp
    refine ⟨standard, ?_, fun field => by rw [absent]; rfl⟩
    unfold ofText
    split
    · rfl
    · obtain ⟨placed, hread, hplaced⟩ := Document.ofText_written written
      rw [if_pos rfl] at hplaced
      obtain ⟨⟨part, mark⟩, others, rfl, hpart, hothers⟩ := List.map_eq_cons_iff.mp hplaced
      obtain rfl := List.map_eq_nil_iff.mp hothers
      cases hpart
      rw [hread]
      rfl
  | cons pair pairs =>
    obtain ⟨placed, hread, hplaced⟩ := Document.ofText_written written
    rw [if_neg (List.cons_ne_nil _ _)] at hplaced
    obtain ⟨⟨part, mark⟩, others, rfl, hpart, hothers⟩ := List.map_eq_cons_iff.mp hplaced
    cases hpart
    have enough : (pair :: pairs).length < ((Part.mappingStart, mark) :: others).length + 1 := by
      have parts := congrArg List.length hothers
      have fewer := Yaml.length_le_pairParts (pair :: pairs)
      rw [List.length_map, List.length_append] at parts
      simp only [List.length_cons] at parts fewer ⊢
      omega
    obtain ⟨settings, rest, entries, hchosen, hkept⟩ := readEntries_pairs (Document.ofText text)
      mark typed spells.known spells.once [] (by simp) hothers enough standard
    refine ⟨settings, ?_, fun field => ?_⟩
    · have shown : Text.blankText text = false := by
        obtain ⟨margin, plain, body, breaks⟩ := written
        refine blankText_eq_false_iff.mpr ⟨':', ?_, by decide⟩
        exact Yaml.mem_of_withBreaks breaks (by decide) (body.colon_mem (List.cons_ne_nil _ _))
      rw [ofText, shown, if_neg (by simp)]
      rw [hread] at entries ⊢
      simp only [ofDocument, first, entries, bind, Except.bind]
      rfl
    · cases hfield : chosen field with
      | some v =>
        have value := hchosen field (spells.every field (by simp [hfield]))
        rw [hfield] at value
        exact (Option.some.inj value).symm
      | none =>
        refine hkept field fun p hp hkey => ?_
        obtain ⟨v, hv, -⟩ := spells.known p hp field hkey
        rw [hfield] at hv
        cases hv

/-! ### Any choice can be written -/

/-- A value as a node of a mapping, in one of its spellings. -/
def Value.node : Value → Node
  | .text chars => .scalar (.quoted chars)
  | .texts items => .texts items
  | .count number => .scalar (.word (toString number))
  | .truth value => .scalar (.word (toString value))
  | .nothing => .scalar (.word "null")

theorem Value.spelled_node : ∀ v : Value, v.Spelled v.node
  | .text chars => .text chars
  | .texts items => .texts items
  | .count number => .count number
  | .truth true => .truth (by decide)
  | .truth false => .truth (by decide)
  | .nothing => .nothing (by decide)

theorem Value.exists_written_node (v : Value) (rest : List Char) :
    ∃ text, v.node.Written text rest := by
  have word (word : String) (letters : ∀ c ∈ word.toList, Yaml.WordChar c)
      (shown : word.toList ≠ []) (dash : word.toList.head? ≠ some '-') :
      ∃ text, (Node.scalar (.word word)).Written text rest :=
    ⟨_, .scalar (Scalar.written_word word letters shown dash rest)⟩
  cases v with
  | text text =>
    obtain ⟨text, h⟩ := Scalar.exists_written_quoted text rest
    exact ⟨text, .scalar h⟩
  | texts items =>
    obtain ⟨text, h⟩ := Yaml.exists_items items rest
    exact ⟨_, .texts h⟩
  | count number =>
    have digit : ∀ c ∈ (toString number).toList, c.isDigit = true := by
      rw [Decimal.toList_toString]
      exact fun c hc => Decimal.isDigit_of_mem_digits hc
    refine word _ (fun c hc => .inl ?_) ?_ fun dash => ?_
    · simp [Char.isAlphanum, digit c hc]
    · rw [Decimal.toList_toString]
      exact Decimal.digits_ne_nil number
    · exact absurd (digit '-' (List.mem_of_mem_head? dash)) (by decide)
  | truth value =>
    cases value
    · exact word "false" (by simp [Yaml.WordChar]) (by decide) (by decide)
    · exact word "true" (by simp [Yaml.WordChar]) (by decide) (by decide)
  | nothing => exact word "null" (by simp [Yaml.WordChar]) (by decide) (by decide)

theorem exists_keyWritten (field : Field) (rest : List Char) :
    ∃ text, Yaml.KeyWritten (.word field.key) text rest := by
  have key : field.key.toList.all (Yaml.WordChar ·) = true ∧ field.key.toList ≠ [] ∧
      field.key.toList.head? ≠ some '-' ∧ field.key.toList.length ≤ Yaml.longestKey := by
    cases field <;> decide +kernel
  obtain ⟨letters, shown, dash, short⟩ := key
  have letters := List.all_iff_forall_prop.mp letters
  exact ⟨_, Yaml.keyWritten_word field.key letters shown dash short rest⟩

/-- A pair for each chosen field. -/
def pairsOf (chosen : Field → Option Value) : List Pair :=
  Field.all.filterMap fun field => (chosen field).map fun v => (.word field.key, v.node)

theorem mem_pairsOf {chosen : Field → Option Value} {pair : Pair} :
    pair ∈ pairsOf chosen ↔
      ∃ field v, chosen field = some v ∧ pair = (.word field.key, v.node) := by
  have member : ∀ field : Field, field ∈ Field.all := by
    rintro ⟨⟩ <;> decide
  simp only [pairsOf, List.mem_filterMap, member, true_and, Option.map_eq_some_iff]
  exact exists_congr fun field => exists_congr fun v => and_congr_right fun _ => eq_comm

theorem spells_pairsOf (chosen : Field → Option Value) : Spells (pairsOf chosen) chosen where
  known := by
    intro pair hpair field hkey
    obtain ⟨other, v, hv, rfl⟩ := mem_pairsOf.mp hpair
    obtain rfl := key_injective hkey
    exact ⟨v, hv, v.spelled_node⟩
  every := by
    intro field hchosen
    obtain ⟨v, hv⟩ := Option.isSome_iff_exists.mp hchosen
    exact ⟨_, mem_pairsOf.mpr ⟨field, v, hv, rfl⟩, rfl⟩
  once := by
    have distinct : Field.all.Pairwise (· ≠ ·) := by decide
    refine List.pairwise_filterMap.mpr (distinct.imp fun ne pair hpair pair' hpair' => ?_)
    obtain ⟨_, -, rfl⟩ := Option.map_eq_some_iff.mp hpair
    obtain ⟨_, -, rfl⟩ := Option.map_eq_some_iff.mp hpair'
    exact fun field hkey hkey' => ne (key_injective (hkey.trans hkey'.symm))

/-- Any values can be chosen for any fields: there is a text that is written so. -/
theorem exists_written (chosen : Field → Option Value) :
    ∃ pairs text, Spells pairs chosen ∧ Yaml.Written pairs text := by
  have written : ∃ text, Yaml.Written (pairsOf chosen) text :=
    Yaml.exists_written fun pair hpair rest => by
      obtain ⟨field, v, -, rfl⟩ := mem_pairsOf.mp hpair
      obtain ⟨value, node⟩ := v.exists_written_node rest
      obtain ⟨text, key⟩ := exists_keyWritten field (' ' :: value)
      exact ⟨text, .full key (.inl rfl) (.none _) node (.blanks (.none _))⟩
  obtain ⟨text, written⟩ := written
  exact ⟨pairsOf chosen, text, spells_pairsOf chosen, written⟩

/-! ### Loading -/

/-- A mapping behind a remark, with a key in quotes, a key of no field and a value left out. -/
def remarked : String :=
  "# marks\n\"pad_extra\" : 7\ncolor: [\"red\", ] # unused\npad_value: \"a\\tb\"\n\nrandom_seed:\n"

/-- The pairs of the mapping. -/
def remarkedPairs : List Pair :=
  [(.quoted "pad_extra", .scalar (.word "7")), (.word "color", .texts ["red"]),
    (.word "pad_value", .scalar (.quoted "a\tb")), (.word "random_seed", .scalar (.word ""))]

/-- What the mapping chooses. -/
def remarkedChoice : Field → Option Value
  | .padExtra => some (.count 7)
  | .padValue => some (.text "a\tb")
  | .randomSeed => some .nothing
  | _ => none

theorem spells_remarked : Spells remarkedPairs remarkedChoice where
  known := by
    intro pair hpair field hkey
    simp only [remarkedPairs, List.mem_cons, List.not_mem_nil, or_false] at hpair
    rcases hpair with rfl | rfl | rfl | rfl <;> cases field <;> simp [Field.key] at hkey
    · exact ⟨_, rfl, .count 7⟩
    · exact ⟨_, rfl, .text _⟩
    · exact ⟨_, rfl, .nothing (by decide)⟩
  every := by
    intro field hchosen
    cases field <;> simp [remarkedChoice] at hchosen <;> simp [remarkedPairs, Field.key]
  once := by
    have distinct : remarkedPairs.Pairwise fun pair pair' => pair.1.text ≠ pair'.1.text := by decide
    exact distinct.imp fun ne field hkey hkey' => ne (hkey.trans hkey'.symm)

theorem written_remarked : Yaml.Written remarkedPairs remarked := by
  have padExtra (rest : List Char) : Pair.Written (.quoted "pad_extra", .scalar (.word "7"))
      ("\"pad_extra\" : 7".toList ++ '\n' :: rest) ('\n' :: rest) := by
    have name := Yaml.quoted_itself "pad_extra".toList (List.all_iff_forall_prop.mp (by decide)) (by decide)
      (by decide)
    have seven := Scalar.written_word "7" (List.all_iff_forall_prop.mp (by decide)) (by decide) (by decide)
    have key (rest : List Char) :
        Yaml.KeyWritten (.quoted "pad_extra") ("\"pad_extra\" :".toList ++ rest) rest :=
      ⟨_, .quoted (name _), .more (.inl rfl) (.none _), by simp [Yaml.longestKey]⟩
    exact .full (key _) (.inl rfl) (.none _) (.scalar (seven _)) (.blanks (.none _))
  have color (rest : List Char) : Pair.Written (.word "color", .texts ["red"])
      ("color: [\"red\", ] # unused".toList ++ '\n' :: rest) ('\n' :: rest) := by
    have key := Yaml.keyWritten_word "color" (List.all_iff_forall_prop.mp (by decide)) (by decide) (by decide)
      (by decide)
    have red := Yaml.quoted_itself "red".toList (List.all_iff_forall_prop.mp (by decide)) (by decide) (by decide)
    have closed (rest : List Char) : Yaml.Items [] (' ' :: ']' :: rest) rest :=
      .close (.gap (.inl (.inl rfl)) (.none _))
    exact .full (key _) (.inl rfl) (.none _) (.texts (.more (.none _) (red _) (.none _) (closed _)))
      (.remark (.none _) (.inl rfl) (.of_append " unused".toList (List.all_iff_forall_prop.mp (by decide)) _))
  have padValue (rest : List Char) : Pair.Written (.word "pad_value", .scalar (.quoted "a\tb"))
      ("pad_value: \"a\\tb\"".toList ++ '\n' :: rest) ('\n' :: rest) := by
    have key := Yaml.keyWritten_word "pad_value" (List.all_iff_forall_prop.mp (by decide)) (by decide) (by decide)
      (by decide)
    have tabbed (rest : List Char) : Yaml.Quoted "a\tb".toList ("a\\tb\"".toList ++ rest) rest :=
      .char (.itself _ (by decide) (by decide) (by decide)) (.char (.named _ (by decide))
        (.char (.itself _ (by decide) (by decide) (by decide)) (.close _)))
    exact .full (key _) (.inl rfl) (.none _) (.scalar (.quoted (tabbed _))) (.blanks (.none _))
  have randomSeed (rest : List Char) : Pair.Written (.word "random_seed", .scalar (.word ""))
      ("random_seed:".toList ++ '\n' :: rest) ('\n' :: rest) := by
    have key := Yaml.keyWritten_word "random_seed" (List.all_iff_forall_prop.mp (by decide)) (by decide)
      (by decide) (by decide)
    exact .bare (key _) (.blanks (.none _))
  have heading (rest : List Char) : Yaml.EmptyLines ("# marks\n".toList ++ rest) rest :=
    .more (.remark (.none _) (.of_append " marks".toList (List.all_iff_forall_prop.mp (by decide)) _)) (.none _)
  refine ⟨0, _, .more (heading _) (padExtra _) (.more (.none _) (color _) (.more (.none _)
    (padValue _) (.more (.more (.spaces (.none _)) (.none _)) (randomSeed _)
      (.close (.none _) (.spaces (.none _)))))), Yaml.withBreaks_self _⟩

/-- A working folder with one file. -/
def folderOf (text : String) : Files.Tree where
  entries := [(["gradebot.yaml"], .file text.toUTF8 false)]
  working := []

end Marksheet.Settings
