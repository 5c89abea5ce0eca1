import Marksheet.Syntax.Tree

/-!
# Constructs, their parts and their addresses

`Construct.parts` lists what stands directly in a module, a statement, an
expression or a target, each part with the role it has there. What occurs in a
tree is what is reached from its module by going from wholes to parts
(`Occurs`). An address names one way down by the number and the role of each
part taken, so two occurrences of equal constructs have different addresses.
`occurs_iff_at?` says that both views see the same constructs.

Nothing here walks a tree or knows what a check looks for.
-/

namespace Marksheet.Features

open Syntax

/-- How a part stands in the construct that holds it. -/
inductive Role where
  /-- The value of a plain or annotated assignment. -/
  | value
  /-- The default of a parameter. -/
  | default
  /-- A target that a comprehension binds. -/
  | binding
  /-- Any other part. -/
  | part
  deriving DecidableEq, Repr, Inhabited

/-- Whatever can hold other constructs. -/
inductive Construct where
  | module (tree : Module)
  | stmt (form : StmtKind)
  | expr (form : Expr)
  | target (form : Target)

/-- A part with its role. -/
abbrev Part := Role × Construct

/-- Statements in their order. -/
def blockParts (body : List Stmt) : List Part := body.map fun stmt => (.part, .stmt stmt.kind)

/-- Expressions in their order, without any special role. -/
def exprParts (items : List Expr) : List Part := items.map fun item => (.part, .expr item)

/-- Targets in their order, without any special role. -/
def targetParts (items : List Target) : List Part := items.map fun item => (.part, .target item)

/-- The value of an assignment. -/
def valueParts (value : Option Expr) : List Part := value.toList.map fun item => (.value, .expr item)

/-- The defaults of parameters. -/
def defaultParts (params : List Param) : List Part :=
  params.flatMap fun param => match param with
    | .mk _ default => default.toList.map fun item => (.default, .expr item)

theorem defaultParts_cons (name : String) (default : Option Expr) (rest : List Param) :
    defaultParts (.mk name default :: rest) =
      default.toList.map (fun item => (.default, .expr item)) ++ defaultParts rest := rfl

/-- The replacement fields of a string. -/
def fieldParts (parts : List FStringPart) : List Part :=
  parts.flatMap fun part => match part with
    | .literal _ => []
    | .interpolation value _ _ => exprParts [value]

theorem fieldParts_cons (value : Expr) (conversion : Option Char) (spec : Option String)
    (rest : List FStringPart) :
    fieldParts (.interpolation value conversion spec :: rest) =
      exprParts [value] ++ fieldParts rest := rfl

/-- The clauses of a comprehension: what each binds, what it runs over and its conditions. -/
def generatorParts (generators : List Generator) : List Part :=
  generators.flatMap fun clause => match clause with
    | .mk bound iter conditions => (.binding, .target bound) :: exprParts (iter :: conditions)

theorem generatorParts_cons (bound : Target) (iter : Expr) (conditions : List Expr)
    (rest : List Generator) :
    generatorParts (.mk bound iter conditions :: rest) =
      (.binding, .target bound) :: (exprParts (iter :: conditions) ++ generatorParts rest) := rfl

/-- The items of a `with` header. -/
def withParts (items : List WithItem) : List Part :=
  items.flatMap fun item => exprParts [item.context] ++ targetParts item.target.toList

theorem withParts_cons (item : WithItem) (rest : List WithItem) :
    withParts (item :: rest) =
      exprParts [item.context] ++ targetParts item.target.toList ++ withParts rest := rfl

/-- The clauses that take exceptions. -/
def handlerParts (handlers : List Handler) : List Part :=
  handlers.flatMap fun handler => match handler with
    | .mk kind _ body _ => exprParts kind.toList ++ blockParts body

theorem handlerParts_cons (kind : Option Expr) (name : Option String) (body : List Stmt) (line : Nat)
    (rest : List Handler) :
    handlerParts (.mk kind name body line :: rest) =
      exprParts kind.toList ++ blockParts body ++ handlerParts rest := rfl

/-- The clauses of a `match`. -/
def caseParts (cases : List MatchCase) : List Part :=
  cases.flatMap fun clause => match clause with
    | .mk guard body => exprParts guard.toList ++ blockParts body

theorem caseParts_cons (guard : Option Expr) (body : List Stmt) (rest : List MatchCase) :
    caseParts (.mk guard body :: rest) =
      exprParts guard.toList ++ blockParts body ++ caseParts rest := rfl

namespace Construct

/-- What stands directly in a construct, from left to right. -/
def parts : Construct → List Part
  | .module tree => blockParts tree.body
  | .stmt form =>
    match form with
    | .expr value => exprParts [value]
    | .assign targets value => targetParts targets ++ valueParts (some value)
    | .annAssign place kind value => targetParts [place] ++ exprParts [kind] ++ valueParts value
    | .augAssign place _ value => targetParts [place] ++ exprParts [value]
    | .if test body orelse | .while test body orelse =>
      exprParts [test] ++ blockParts body ++ blockParts orelse
    | .for place iter body orelse =>
      targetParts [place] ++ exprParts [iter] ++ blockParts body ++ blockParts orelse
    | .functionDef _ params decorators body =>
      exprParts decorators ++ defaultParts params ++ blockParts body
    | .classDef _ bases decorators body =>
      exprParts decorators ++ exprParts bases ++ blockParts body
    | .with items body => withParts items ++ blockParts body
    | .return value | .raise value => exprParts value.toList
    | .try body handlers orelse finalbody =>
      blockParts body ++ handlerParts handlers ++ blockParts orelse ++ blockParts finalbody
    | .assert test msg => exprParts (test :: msg.toList)
    | .delete items => exprParts items
    | .match subjects cases => exprParts subjects ++ caseParts cases
    | .imports _ | .importFrom .. | .global _ | .nonlocal _ | .pass | .break | .continue
    | .unsupported _ => []
  | .expr form =>
    match form with
    | .fstring parts => fieldParts parts
    | .list items | .tuple items | .set items => exprParts items
    | .dict entries => exprParts (entries.flatMap fun entry => entry.1.toList ++ [entry.2])
    | .boolOp _ left right | .binOp _ left right => exprParts [left, right]
    | .not operand | .unary _ operand | .starred operand => exprParts [operand]
    | .compare left links => exprParts (left :: links.map Prod.snd)
    | .call func args kwargs => exprParts (func :: args ++ kwargs.map Prod.snd)
    | .attribute value _ => exprParts [value]
    | .subscript value index => exprParts [value, index]
    | .slice lower upper step => exprParts (lower.toList ++ upper.toList ++ step.toList)
    | .ifExp test body orelse => exprParts [test, body, orelse]
    | .comprehension _ elt value generators =>
      generatorParts generators ++ exprParts (elt :: value.toList)
    | .lambda params body => defaultParts params ++ exprParts [body]
    | .namedExpr _ value => exprParts [value]
    | .yield value => exprParts value.toList
    | .name _ | .str _ | .int _ | .float _ | .bool _ | .none | .ellipsis | .unsupported _ => []
  | .target form =>
    match form with
    | .tuple items => targetParts items
    | .subscript value index => exprParts [value, index]
    | .attribute value _ => exprParts [value]
    | .starred place => targetParts [place]
    | .name _ | .unsupported _ => []

end Construct

/-- A construct occurs in a tree: it is the tree's module or a part of what occurs. -/
inductive Occurs (tree : Module) : Construct → Prop where
  | module : Occurs tree (.module tree)
  | part {whole part : Construct} {role : Role} (outer : Occurs tree whole)
      (member : (role, part) ∈ whole.parts) : Occurs tree part

/-- A way down: for each step, which part is taken and what role it has. -/
abbrev Address := List (Nat × Role)

/-- The construct at an address below another one, if the address names one. -/
def Construct.at? : Construct → Address → Option Construct
  | whole, [] => some whole
  | whole, (index, role) :: rest =>
    match whole.parts[index]? with
    | some (found, part) => if found = role then part.at? rest else none
    | none => none

/-- The construct at an address of a tree. -/
def constructAt? (tree : Module) (address : Address) : Option Construct :=
  (Construct.module tree).at? address

namespace Construct

theorem at?_nil (whole : Construct) : whole.at? [] = some whole := rfl

/-- The first step of an address takes a part of the whole. -/
theorem at?_cons {whole found : Construct} {index : Nat} {role : Role} {rest : Address} :
    whole.at? ((index, role) :: rest) = some found ↔
      ∃ part, whole.parts[index]? = some (role, part) ∧ part.at? rest = some found := by
  rw [at?]
  cases hp : whole.parts[index]? with
  | none => simp
  | some entry =>
    obtain ⟨actual, part⟩ := entry
    by_cases hr : actual = role
    · simp [hr]
    · simp [hr]

/-- An address can be followed in two stages. -/
theorem at?_append {whole found : Construct} {front back : Address} :
    whole.at? (front ++ back) = some found ↔
      ∃ middle, whole.at? front = some middle ∧ middle.at? back = some found := by
  induction front generalizing whole with
  | nil => simp [at?_nil]
  | cons step front ih =>
    obtain ⟨index, role⟩ := step
    simp only [List.cons_append, at?_cons, ih]
    constructor
    · rintro ⟨part, hp, middle, hm, hf⟩
      exact ⟨middle, ⟨part, hp, hm⟩, hf⟩
    · rintro ⟨middle, ⟨part, hp, hm⟩, hf⟩
      exact ⟨part, hp, middle, hm, hf⟩

end Construct

/-- What occurs in a tree is what its addresses name. -/
theorem occurs_iff_at? {tree : Module} {found : Construct} :
    Occurs tree found ↔ ∃ address, constructAt? tree address = some found := by
  constructor
  · intro h
    induction h with
    | module => exact ⟨[], rfl⟩
    | @part whole part role _ member ih =>
      obtain ⟨address, ha⟩ := ih
      obtain ⟨index, hi⟩ := List.mem_iff_getElem?.mp member
      have hstep : whole.at? [(index, role)] = some part :=
        Construct.at?_cons.mpr ⟨part, hi, rfl⟩
      exact ⟨address ++ [(index, role)], Construct.at?_append.mpr ⟨whole, ha, hstep⟩⟩
  · rintro ⟨address, ha⟩
    have below : ∀ {whole : Construct}, Occurs tree whole → whole.at? address = some found →
        Occurs tree found := by
      clear ha
      induction address with
      | nil =>
        intro whole hw hf
        rw [Construct.at?_nil, Option.some.injEq] at hf
        exact hf ▸ hw
      | cons step rest ih =>
        intro whole hw hf
        obtain ⟨part, hp, hrest⟩ := Construct.at?_cons.mp hf
        exact ih (.part hw (List.mem_of_getElem? hp)) hrest
    exact below .module ha

end Marksheet.Features
