import Marksheet.Syntax.Tree
import Marksheet.Source.Position

/-!
# The concrete form of expressions

A `Phrase` keeps what the grammar read: parentheses, single pieces of joined
strings, clauses of a comprehension in their order. A line continued by a
backslash between two parts of a phrase is a part of its own; constructs whose
parts are told apart by position keep it in their list of parts.
-/

namespace Marksheet.Syntax

/-- The four constants written as words or dots. -/
inductive Constant where
  | true | false | none | ellipsis
  deriving DecidableEq, Repr, Inhabited

mutual

/-- Expressions, patterns, arguments and assignments as they are written. -/
inductive Phrase where
  /-- A line continued between two parts, with its exact text. -/
  | continuation (text : String)
  | name (text : String)
  | integer (text : String)
  | float (text : String)
  | constant (value : Constant)
  /-- One string literal. -/
  | string (format raw : Bool) (parts : List TextPart)
  /-- Adjacent string literals. -/
  | strings (pieces : List Phrase)
  | list (items : List Phrase)
  | tuple (items : List Phrase)
  /-- A series of expressions without brackets. -/
  | series (items : List Phrase)
  | set (items : List Phrase)
  | dict (entries : List Phrase)
  | pair (key value : Phrase)
  | parenthesized (parts : List Phrase)
  | boolean (op : BoolOp) (left right : Phrase)
  | not (operand : Phrase)
  | unary (op : UnaryOp) (operand : Phrase)
  | await (parts : List Phrase)
  | binary (op : BinOp) (left right : Phrase)
  /-- A chain of comparisons; `broken` when a continued line stands between its parts. -/
  | comparison (broken : Bool) (left : Phrase) (links : List (CmpOp × Phrase))
  /-- A conditional expression; `broken` when a continued line stands between its parts. -/
  | conditional (broken : Bool) (body test orelse : Phrase)
  | call (func : Phrase) (args : List Phrase)
  | keyword (name : String) (value : Phrase)
  | attribute (value : Phrase) (attr : String)
  | subscript (value : Phrase) (indices : List Phrase)
  /-- The parts before, between and behind the colons. -/
  | slice (lower upper step : List Phrase)
  | comprehension (kind : ComprehensionKind) (body : Phrase) (clauses : List Clause)
  | lambda (params : List Parameter) (body : Phrase)
  | named (name : String) (value : Phrase)
  | yield (parts : List Phrase)
  | splat (parts : List Phrase)
  | doubleSplat (parts : List Phrase)
  | parenthesizedSplat (parts : List Phrase)
  /-- `value as target`, with what stands between them and the text of the target. -/
  | asPattern (value : Phrase) (between : List Phrase) (target : Phrase) (text : String)
  | assignment (target : Phrase) ( annotation value : Option Phrase)
  | augmented (target : Phrase) (op : BinOp) (value : Phrase)
  /-- A construct of which only the name of its kind is kept. -/
  | other (kind : String)

/-- One part of a string literal. -/
inductive TextPart where
  | content (text : String)
  | field (value : Phrase) (conversion : Option Char) (spec : Option String)

/-- One clause of a comprehension. -/
inductive Clause where
  | forIn (target iter : Phrase)
  | condition (parts : List Phrase)

/-- One entry of a parameter list. -/
inductive Parameter where
  /-- A parameter without a default, with its exact text. -/
  | plain (text : String)
  | defaulted (text : String) (value : Phrase)
  /-- A separator or a pattern, which names no parameter. -/
  | unnamed

end

instance : Inhabited Phrase := ⟨.other ""⟩

/-- The kind of comprehension by its grammatical name. -/
def ComprehensionKind.grammarName : ComprehensionKind → String
  | .list => "list_comprehension"
  | .set => "set_comprehension"
  | .dict => "dictionary_comprehension"
  | .generator => "generator_expression"

/-- The grammatical name of a phrase, under which it is reported when a place
cannot hold it. -/
def Phrase.grammarName : Phrase → String
  | .continuation _ => "line_continuation"
  | .name _ => "identifier"
  | .integer _ => "integer"
  | .float _ => "float"
  | .constant .true => "true"
  | .constant .false => "false"
  | .constant .none => "none"
  | .constant .ellipsis => "ellipsis"
  | .string .. => "string"
  | .strings _ => "concatenated_string"
  | .list _ => "list"
  | .tuple _ => "tuple"
  | .series _ => "expression_list"
  | .set _ => "set"
  | .dict _ => "dictionary"
  | .pair .. => "pair"
  | .parenthesized _ => "parenthesized_expression"
  | .boolean .. => "boolean_operator"
  | .not _ => "not_operator"
  | .unary .. => "unary_operator"
  | .await _ => "await"
  | .binary .. => "binary_operator"
  | .comparison .. => "comparison_operator"
  | .conditional .. => "conditional_expression"
  | .call .. => "call"
  | .keyword .. => "keyword_argument"
  | .attribute .. => "attribute"
  | .subscript .. => "subscript"
  | .slice .. => "slice"
  | .comprehension kind _ _ => kind.grammarName
  | .lambda .. => "lambda"
  | .named .. => "named_expression"
  | .yield _ => "yield"
  | .splat _ => "list_splat"
  | .doubleSplat _ => "dictionary_splat"
  | .parenthesizedSplat _ => "parenthesized_list_splat"
  | .asPattern .. => "as_pattern"
  | .assignment .. => "assignment"
  | .augmented .. => "augmented_assignment"
  | .other kind => kind

/-- The phrase may stand behind the star of a pattern. -/
def Phrase.isPlace : Phrase → Bool
  | .name _ | .attribute .. | .subscript .. => true
  | _ => false

mutual

/-- The phrase read as something that can be assigned to: a name, an attribute, a
subscript, a starred one of these, or a bracketed group of patterns. Parentheses
around one pattern make a group of one. -/
def Phrase.pattern? : Phrase → Option Phrase
  | .name text => some (.name text)
  | .attribute value attr => some (.attribute value attr)
  | .subscript value indices => some (.subscript value indices)
  | .splat parts =>
    if (parts.getLast?.map Phrase.isPlace).getD false then some (.splat parts) else none
  | .tuple items => (patterns? items).map .tuple
  | .list items => (patterns? items).map .list
  | .parenthesized parts => (patterns? parts).map .tuple
  | _ => none

/-- Every phrase of a list read as a pattern; continued lines stay. -/
def patterns? : List Phrase → Option (List Phrase)
  | [] => some []
  | .continuation text :: rest => (patterns? rest).map (.continuation text :: ·)
  | item :: rest =>
    match item.pattern?, patterns? rest with
    | some pattern, some rest => some (pattern :: rest)
    | _, _ => none

end

end Marksheet.Syntax
