import Marksheet.Proofs.Source.CrlfTokens
import Marksheet.Syntax.Sentence

/-!
# Concrete forms with line ends of two characters

`Phrase.crlf` and `Form.crlf` write a carriage return before every line feed of
the texts that a form keeps as they are written: continued lines, the content
of strings, names of several tokens. Nothing else of a form depends on line ends.
-/

namespace Marksheet.Syntax

open Source

mutual

/-- The phrase with the texts in it written with other line ends. -/
def Phrase.crlf : Phrase → Phrase
  | .continuation text => .continuation (crlfText text)
  | .name text => .name text
  | .integer text => .integer text
  | .float text => .float text
  | .constant value => .constant value
  | .string format raw parts => .string format raw (crlfParts parts)
  | .strings pieces => .strings (crlfPhrases pieces)
  | .list items => .list (crlfPhrases items)
  | .tuple items => .tuple (crlfPhrases items)
  | .series items => .series (crlfPhrases items)
  | .set items => .set (crlfPhrases items)
  | .dict entries => .dict (crlfPhrases entries)
  | .pair key value => .pair key.crlf value.crlf
  | .parenthesized parts => .parenthesized (crlfPhrases parts)
  | .boolean op left right => .boolean op left.crlf right.crlf
  | .not operand => .not operand.crlf
  | .unary op operand => .unary op operand.crlf
  | .await parts => .await (crlfPhrases parts)
  | .binary op left right => .binary op left.crlf right.crlf
  | .comparison broken left links => .comparison broken left.crlf (crlfLinks links)
  | .conditional broken body test orelse =>
    .conditional broken body.crlf test.crlf orelse.crlf
  | .call func args => .call func.crlf (crlfPhrases args)
  | .keyword name value => .keyword name value.crlf
  | .attribute value attr => .attribute value.crlf attr
  | .subscript value indices => .subscript value.crlf (crlfPhrases indices)
  | .slice lower upper step => .slice (crlfPhrases lower) (crlfPhrases upper) (crlfPhrases step)
  | .comprehension kind body clauses => .comprehension kind body.crlf (crlfClauses clauses)
  | .lambda params body => .lambda (crlfParameters params) body.crlf
  | .named name value => .named name value.crlf
  | .yield parts => .yield (crlfPhrases parts)
  | .splat parts => .splat (crlfPhrases parts)
  | .doubleSplat parts => .doubleSplat (crlfPhrases parts)
  | .parenthesizedSplat parts => .parenthesizedSplat (crlfPhrases parts)
  | .asPattern value between target text =>
    .asPattern value.crlf (crlfPhrases between) target.crlf (crlfText text)
  | .assignment target kind value => .assignment target.crlf (crlfPhrase? kind) (crlfPhrase? value)
  | .augmented target op value => .augmented target.crlf op value.crlf
  | .other kind => .other kind

/-- The phrases with other line ends. -/
def crlfPhrases : List Phrase → List Phrase
  | [] => []
  | phrase :: rest => phrase.crlf :: crlfPhrases rest

/-- A phrase that may be missing, with other line ends. -/
def crlfPhrase? : Option Phrase → Option Phrase
  | none => none
  | some phrase => some phrase.crlf

/-- The links of a comparison with other line ends. -/
def crlfLinks : List (CmpOp × Phrase) → List (CmpOp × Phrase)
  | [] => []
  | (op, operand) :: rest => (op, operand.crlf) :: crlfLinks rest

/-- The part of a string with other line ends. -/
def TextPart.crlf : TextPart → TextPart
  | .content text => .content (crlfText text)
  | .field value conversion spec => .field value.crlf conversion (spec.map crlfText)

/-- The parts of a string with other line ends. -/
def crlfParts : List TextPart → List TextPart
  | [] => []
  | part :: rest => part.crlf :: crlfParts rest

/-- The clause with other line ends. -/
def Clause.crlf : Clause → Clause
  | .forIn target iter => .forIn target.crlf iter.crlf
  | .condition parts => .condition (crlfPhrases parts)

/-- The clauses of a comprehension with other line ends. -/
def crlfClauses : List Clause → List Clause
  | [] => []
  | clause :: rest => clause.crlf :: crlfClauses rest

/-- The parameter with other line ends. -/
def Parameter.crlf : Parameter → Parameter
  | .plain text => .plain (crlfText text)
  | .defaulted text value => .defaulted (crlfText text) value.crlf
  | .unnamed => .unnamed

/-- The parameters of a function with other line ends. -/
def crlfParameters : List Parameter → List Parameter
  | [] => []
  | parameter :: rest => parameter.crlf :: crlfParameters rest

end

/-- The link of a comparison with other line ends. -/
def crlfLink (link : CmpOp × Phrase) : CmpOp × Phrase := (link.1, link.2.crlf)

@[simp] theorem crlfPhrases_eq (items : List Phrase) : crlfPhrases items = items.map Phrase.crlf := by
  induction items with
  | nil => rfl
  | cons item items ih => rw [crlfPhrases, List.map_cons, ih]

@[simp] theorem crlfPhrase?_eq (item : Option Phrase) : crlfPhrase? item = item.map Phrase.crlf := by
  cases item <;> rfl

@[simp] theorem crlfLinks_eq (links : List (CmpOp × Phrase)) : crlfLinks links = links.map crlfLink := by
  induction links with
  | nil => rfl
  | cons link links ih => rw [crlfLinks, List.map_cons, ih, crlfLink]

@[simp] theorem crlfParts_eq (parts : List TextPart) : crlfParts parts = parts.map TextPart.crlf := by
  induction parts with
  | nil => rfl
  | cons part parts ih => rw [crlfParts, List.map_cons, ih]

@[simp] theorem crlfClauses_eq (clauses : List Clause) :
    crlfClauses clauses = clauses.map Clause.crlf := by
  induction clauses with
  | nil => rfl
  | cons clause clauses ih => rw [crlfClauses, List.map_cons, ih]

@[simp] theorem crlfParameters_eq (params : List Parameter) :
    crlfParameters params = params.map Parameter.crlf := by
  induction params with
  | nil => rfl
  | cons param params ih => rw [crlfParameters, List.map_cons, ih]

@[simp] theorem Phrase.crlf_isPlace (phrase : Phrase) : phrase.crlf.isPlace = phrase.isPlace := by
  cases phrase <;> rfl

mutual

theorem Phrase.crlf_pattern? : ∀ phrase : Phrase,
    phrase.crlf.pattern? = phrase.pattern?.map Phrase.crlf
  | .splat parts => by
    rw [Phrase.crlf, Phrase.pattern?, Phrase.pattern?, crlfPhrases_eq, List.getLast?_map]
    simp only [Option.map_map, Function.comp_def, Phrase.crlf_isPlace]
    split
    · rw [Option.map_some, Phrase.crlf, crlfPhrases_eq]
    · rfl
  | .tuple items => by
    rw [Phrase.crlf, Phrase.pattern?, Phrase.pattern?, crlfPhrases_eq, patterns?_crlf items]
    simp [Function.comp_def, Phrase.crlf]
  | .list items => by
    rw [Phrase.crlf, Phrase.pattern?, Phrase.pattern?, crlfPhrases_eq, patterns?_crlf items]
    simp [Function.comp_def, Phrase.crlf]
  | .parenthesized parts => by
    rw [Phrase.crlf, Phrase.pattern?, Phrase.pattern?, crlfPhrases_eq, patterns?_crlf parts]
    simp [Function.comp_def, Phrase.crlf]
  | .name _ | .attribute _ _ | .subscript _ _ | .continuation _ | .integer _ | .float _
  | .constant _ | .string _ _ _ | .strings _ | .series _ | .set _ | .dict _ | .pair _ _
  | .boolean _ _ _ | .not _ | .unary _ _ | .await _ | .binary _ _ _ | .comparison _ _ _
  | .conditional _ _ _ _ | .call _ _ | .keyword _ _ | .slice _ _ _ | .comprehension _ _ _
  | .lambda _ _ | .named _ _ | .yield _ | .doubleSplat _ | .parenthesizedSplat _
  | .asPattern _ _ _ _ | .assignment _ _ _ | .augmented _ _ _ | .other _ => rfl

theorem patterns?_crlf : ∀ items : List Phrase,
    patterns? (items.map Phrase.crlf) = (patterns? items).map (List.map Phrase.crlf)
  | [] => rfl
  | item :: rest => by
    have hrest := patterns?_crlf rest
    by_cases hline : ∃ text, item = .continuation text
    · obtain ⟨text, rfl⟩ := hline
      rw [List.map_cons, Phrase.crlf, patterns?, patterns?, hrest]
      simp [Function.comp_def, Phrase.crlf]
    · have hline' : ∀ text, item.crlf ≠ .continuation text := by
        intro text he
        cases item <;> first | exact hline ⟨_, rfl⟩ | cases he
      rw [List.map_cons, patterns?, patterns?, hrest, Phrase.crlf_pattern? item]
      · cases item.pattern? <;> cases patterns? rest <;> rfl
      · exact fun text he => hline ⟨text, he⟩
      · exact hline'

end

/-! ### Statements -/

/-- The imported name with other line ends; the name it is bound to has none. -/
def ImportName.crlf (imported : ImportName) : ImportName :=
  ⟨crlfText imported.name, imported.asname⟩

/-- A part of an `except` clause with other line ends. -/
def crlfHandled (part : Phrase × String) : Phrase × String := (part.1.crlf, crlfText part.2)

mutual

/-- The sentence with other line ends in its texts; it begins where it did. -/
def Sentence.crlf : Sentence → Sentence
  | .mk form start => .mk form.crlf start

/-- The form with other line ends in its texts. -/
def Form.crlf : Form → Form
  | .continuation => .continuation
  | .expression parts => .expression (parts.map Phrase.crlf)
  | .legacyPrint => .legacyPrint
  | .legacyExec => .legacyExec
  | .assert parts => .assert (parts.map Phrase.crlf)
  | .return parts => .return (parts.map Phrase.crlf)
  | .delete parts => .delete (parts.map Phrase.crlf)
  | .raise parts => .raise (parts.map Phrase.crlf)
  | .imports names => .imports (names.map ImportName.crlf)
  | .importFrom module names wildcard =>
    .importFrom (crlfText module) (names.map ImportName.crlf) wildcard
  | .importFuture => .importFuture
  | .global names => .global (names.map crlfText)
  | .nonlocal names => .nonlocal (names.map crlfText)
  | .pass => .pass
  | .break => .break
  | .continue => .continue
  | .typeAlias => .typeAlias
  | .if test body further => .if test.crlf (crlfBlock body) (crlfBranches further)
  | .while test body orelse => .while test.crlf (crlfBlock body) (crlfBlock orelse)
  | .for target iter body orelse =>
    .for target.crlf iter.crlf (crlfBlock body) (crlfBlock orelse)
  | .try body clauses => .try (crlfBlock body) (crlfRescues clauses)
  | .with items body => .with (items.map Phrase.crlf) (crlfBlock body)
  | .define name params body => .define name (params.map Parameter.crlf) (crlfBlock body)
  | .class name args body => .class name (args.map Phrase.crlf) (crlfBlock body)
  | .decorated before definition =>
    .decorated (before.map (List.map Phrase.crlf)) definition.crlf
  | .match subjects cases => .match (subjects.map Phrase.crlf) (crlfCases cases)

/-- The sentences of a block with other line ends. -/
def crlfBlock : List Sentence → List Sentence
  | [] => []
  | sentence :: rest => sentence.crlf :: crlfBlock rest

/-- The branch with other line ends. -/
def Branch.crlf : Branch → Branch
  | .elif start test body => .elif start test.crlf (crlfBlock body)
  | .else body => .else (crlfBlock body)

/-- Further branches with other line ends. -/
def crlfBranches : List Branch → List Branch
  | [] => []
  | branch :: rest => branch.crlf :: crlfBranches rest

/-- The clause of a `try` statement with other line ends. -/
def Rescue.crlf : Rescue → Rescue
  | .except start parts body => .except start (parts.map crlfHandled) (crlfBlock body)
  | .exceptGroup body => .exceptGroup (crlfBlock body)
  | .else body => .else (crlfBlock body)
  | .finally body => .finally (crlfBlock body)

/-- The clauses of a `try` statement with other line ends. -/
def crlfRescues : List Rescue → List Rescue
  | [] => []
  | clause :: rest => clause.crlf :: crlfRescues rest

/-- The clause of a `match` statement with other line ends. -/
def Case.crlf : Case → Case
  | .mk guard body => .mk (guard.map (List.map Phrase.crlf)) (crlfBlock body)

/-- The clauses of a `match` statement with other line ends. -/
def crlfCases : List Case → List Case
  | [] => []
  | clause :: rest => clause.crlf :: crlfCases rest

end

attribute [simp] Sentence.crlf Form.crlf Branch.crlf Rescue.crlf Case.crlf

@[simp] theorem crlfBlock_eq (block : List Sentence) : crlfBlock block = block.map Sentence.crlf := by
  induction block with
  | nil => rfl
  | cons sentence block ih => rw [crlfBlock, List.map_cons, ih]

@[simp] theorem crlfBranches_eq (further : List Branch) :
    crlfBranches further = further.map Branch.crlf := by
  induction further with
  | nil => rfl
  | cons branch further ih => rw [crlfBranches, List.map_cons, ih]

@[simp] theorem crlfRescues_eq (clauses : List Rescue) :
    crlfRescues clauses = clauses.map Rescue.crlf := by
  induction clauses with
  | nil => rfl
  | cons clause clauses ih => rw [crlfRescues, List.map_cons, ih]

@[simp] theorem crlfCases_eq (cases : List Case) : crlfCases cases = cases.map Case.crlf := by
  induction cases with
  | nil => rfl
  | cons clause cases ih => rw [crlfCases, List.map_cons, ih]

end Marksheet.Syntax
