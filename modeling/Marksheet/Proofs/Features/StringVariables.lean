import Mathlib
import Marksheet.Grammar.Program
import Marksheet.Proofs.Features.Flags

/-!
# String variables and their uses

A plain assignment of a string literal makes every bare name among its targets
a string variable, at whatever address it stands; nothing else does. So the
names of a record are those of plain assignments, and an annotated assignment
of a literal is missed unless a plain one gives the same name a literal too.

The flags on printed and on joined strings speak of two addresses, that of a
use and that of an assignment. No relation between the two is asked for: the
use may come first, and either may stand in a function or a class of its own.
-/

namespace Marksheet.Features

open Syntax

variable {tree : Module}

/-! ### The names -/

/-- The plain assignment at an address gives a string literal to a bare name. -/
def BindsText (tree : Module) (place : Address) (name : String) : Prop :=
  ∃ targets text, constructAt? tree place = some (.stmt (.assign targets (.str text))) ∧
    .name name ∈ targets

/-- The annotated assignment at an address gives a string literal to a bare name. -/
def DeclaresText (tree : Module) (place : Address) (name : String) : Prop :=
  ∃ kind text,
    constructAt? tree place = some (.stmt (.annAssign (.name name) kind (some (.str text))))

/-- A statement brings the bare names to which it assigns a string literal without annotation. -/
theorem mem_stringNames_iff (form : StmtKind) (name : String) :
    name ∈ Node.stringNames (.stmt form) ↔
      ∃ targets text, form = .assign targets (.str text) ∧ .name name ∈ targets := by
  cases form with
  | assign targets value =>
    -- the value decides whether any target counts
    cases hv : value.isStr with
    | false =>
      have hne : ∀ text, value ≠ .str text := by
        rintro text rfl
        cases hv
      simp [Node.stringNames, hv, hne]
    | true =>
      obtain ⟨text, rfl⟩ := (isStr_iff value).mp hv
      simp only [Node.stringNames, hv, if_true, List.mem_filterMap, StmtKind.assign.injEq]
      constructor
      · rintro ⟨target, hm, hn⟩
        cases target with
        | name id =>
          obtain rfl := Option.some.inj hn
          exact ⟨targets, text, ⟨rfl, rfl⟩, hm⟩
        | _ => cases hn
      · rintro ⟨_, _, ⟨rfl, -⟩, hm⟩
        exact ⟨_, hm, rfl⟩
  | _ => simp [Node.stringNames]

/-- The string variables are the names that plain assignments anywhere in the tree bind. -/
theorem mem_stringVars_iff {name : String} :
    name ∈ (Record.ofModule tree).stringVars ↔ ∃ place, BindsText tree place name := by
  have hany : name ∈ (Record.ofModule tree).stringVars ↔
      (nodes tree).any (fun node => name ∈ node.stringNames) = true := by
    have hlist : name ∈ (Record.ofModule tree).stringVars ↔
        name ∈ (nodes tree).flatMap Node.stringNames := NameSet.mem_ofList
    rw [hlist, List.mem_flatMap, List.any_eq_true]
    simp only [decide_eq_true_eq]
  rw [hany, any_stmt_iff tree _ (fun _ _ => rfl)]
  simp only [decide_eq_true_eq, mem_stringNames_iff, occurs_iff_at?]
  constructor
  · rintro ⟨_, ⟨place, hp⟩, targets, text, rfl, hm⟩
    exact ⟨place, targets, text, hp, hm⟩
  · rintro ⟨place, targets, text, hp, hm⟩
    exact ⟨_, ⟨place, hp⟩, targets, text, rfl, hm⟩

/-- Some name is a string variable exactly if some plain assignment binds one. -/
theorem assignsString_iff : (Record.ofModule tree).assignsString = true ↔
    ∃ name place, BindsText tree place name := by
  simp only [← mem_stringVars_iff]
  rw [Record.assignsString, NameSet.isEmpty, Bool.not_eq_true', List.isEmpty_eq_false_iff_exists_mem]
  rfl

/-- A record has the names that plain assignments bind to a string literal. These are all the names
that assignments bind to one exactly if every name of an annotated one is bound by a plain one too. -/
theorem stringVars_exact (tree : Module) :
    (∀ name, name ∈ (Record.ofModule tree).stringVars ↔ ∃ place, BindsText tree place name) ∧
    ((Record.ofModule tree).assignsString = true ↔ ∃ name place, BindsText tree place name) ∧
    ((∀ name, name ∈ (Record.ofModule tree).stringVars ↔
        ∃ place, BindsText tree place name ∨ DeclaresText tree place name) ↔
      ∀ name place, DeclaresText tree place name → ∃ other, BindsText tree other name) := by
  refine ⟨fun _ => mem_stringVars_iff, assignsString_iff, ?_⟩
  simp only [mem_stringVars_iff]
  constructor
  · intro hall name place hd
    exact (hall name).mpr ⟨place, .inr hd⟩
  · intro hall name
    constructor
    · rintro ⟨place, hb⟩
      exact ⟨place, .inl hb⟩
    · rintro ⟨place, hb | hd⟩
      · exact ⟨place, hb⟩
      · exact hall name place hd

/-- The only string of a program is assigned under an annotation, and no name counts for it. -/
theorem stringVars_misses_declared :
    ∃ tree, Grammar.parse "s: str = 'x'\n" = .ok tree ∧
      (∃ place, DeclaresText tree place "s") ∧ "s" ∉ (Record.ofModule tree).stringVars ∧
      (Record.ofModule tree).assignsString = false := by
  let tree : Module := ⟨[.mk (.annAssign (.name "s") (.name "str") (some (.str "x"))) 1]⟩
  have hparse : Grammar.parse "s: str = 'x'\n" = .ok tree := by cbv
  have hdeclares : DeclaresText tree [(0, .part)] "s" := ⟨.name "str", "x", rfl⟩
  exact ⟨tree, hparse, ⟨_, hdeclares⟩, NameSet.not_mem_empty _, rfl⟩

/-! ### The uses -/

/-- The call of `print` at an address has a bare name among its positional arguments. -/
def PrintsName (tree : Module) (place : Address) (name : String) : Prop :=
  ∃ args kwargs, constructAt? tree place = some (.expr (.call (.name "print") args kwargs)) ∧
    .name name ∈ args

/-- The addition at an address has an operand. -/
def Adds (tree : Module) (place : Address) (operand : Expr) : Prop :=
  ∃ left right, constructAt? tree place = some (.expr (.binOp .add left right)) ∧
    (operand = left ∨ operand = right)

/-- A bare name out of a set is an expression of that form. -/
theorem isNameIn_iff (names : NameSet) (value : Expr) :
    isNameIn names value = true ↔ ∃ name ∈ names, value = .name name := by
  cases value <;> simp [isNameIn, nameOf?]

/-- What a node prints are the positional arguments of a call of `print`. -/
theorem mem_printed_iff (form : Expr) (saved : Bool) (arg : Expr) :
    arg ∈ Node.printed (.expr form saved) ↔
      ∃ args kwargs, form = .call (.name "print") args kwargs ∧ arg ∈ args := by
  cases form with
  | call func args kwargs =>
    cases func with
    | name id => by_cases hid : id = "print" <;> simp [Node.printed, hid]
    | _ => simp [Node.printed]
  | _ => simp [Node.printed]

/-- What a node adds are the two operands of an addition. -/
theorem mem_addends_iff (form : Expr) (saved : Bool) (operand : Expr) :
    operand ∈ Node.addends (.expr form saved) ↔
      ∃ left right, form = .binOp .add left right ∧ (operand = left ∨ operand = right) := by
  cases form with
  | binOp op left right => by_cases hop : op = .add <;> simp [Node.addends, hop]
  | _ => simp [Node.addends]

theorem printsStringVar_iff : (Record.ofModule tree).printsStringVar = true ↔
    ∃ use name, PrintsName tree use name ∧ name ∈ (Record.ofModule tree).stringVars := by
  have h := any_expr_iff tree
    (fun node => node.printed.any (isNameIn (Record.ofModule tree).stringVars)) (fun _ => rfl)
    (fun form _ => by
      cases form with
      | call func args kwargs => cases func <;> rfl
      | _ => rfl)
  refine h.trans ?_
  simp only [List.any_eq_true, mem_printed_iff, isNameIn_iff, occurs_iff_at?]
  constructor
  · rintro ⟨_, ⟨use, hu⟩, _, ⟨args, kwargs, rfl, hm⟩, name, hn, rfl⟩
    exact ⟨use, name, ⟨args, kwargs, hu, hm⟩, hn⟩
  · rintro ⟨use, name, ⟨args, kwargs, hu, hm⟩, hn⟩
    exact ⟨_, ⟨use, hu⟩, _, ⟨args, kwargs, rfl, hm⟩, name, hn, rfl⟩

theorem concatenatesStrings_iff : (Record.ofModule tree).concatenatesStrings = true ↔
    ∃ use operand, Adds tree use operand ∧ ((∃ text, operand = .str text) ∨
      ∃ name ∈ (Record.ofModule tree).stringVars, operand = .name name) := by
  have h := any_expr_iff tree
    (fun node => node.addends.any fun operand =>
      operand.isStr || isNameIn (Record.ofModule tree).stringVars operand)
    (fun _ => rfl) (fun form _ => by cases form <;> rfl)
  refine h.trans ?_
  simp only [List.any_eq_true, mem_addends_iff, Bool.or_eq_true, isStr_iff, isNameIn_iff,
    occurs_iff_at?]
  constructor
  · rintro ⟨_, ⟨use, hu⟩, operand, ⟨left, right, rfl, ho⟩, htext⟩
    exact ⟨use, operand, ⟨left, right, hu, ho⟩, htext⟩
  · rintro ⟨use, operand, ⟨left, right, hu, ho⟩, htext⟩
    exact ⟨_, ⟨use, hu⟩, operand, ⟨left, right, rfl, ho⟩, htext⟩

/-- A string variable is printed, or a string is joined, exactly if such a use stands somewhere in
the tree. What makes a name a string variable may stand anywhere, whatever the address of the use. -/
theorem stringUses_exact (tree : Module) :
    ((Record.ofModule tree).printsStringVar = true ↔
      ∃ use name, PrintsName tree use name ∧ name ∈ (Record.ofModule tree).stringVars) ∧
    ((Record.ofModule tree).concatenatesStrings = true ↔
      ∃ use operand, Adds tree use operand ∧ ((∃ text, operand = .str text) ∨
        ∃ name ∈ (Record.ofModule tree).stringVars, operand = .name name)) ∧
    ((Record.ofModule tree).printsStringVar = true ↔
      ∃ use place name, PrintsName tree use name ∧ BindsText tree place name) ∧
    ((Record.ofModule tree).concatenatesStrings = true ↔
      ∃ use operand, Adds tree use operand ∧ ((∃ text, operand = .str text) ∨
        ∃ place name, BindsText tree place name ∧ operand = .name name)) := by
  refine ⟨printsStringVar_iff, concatenatesStrings_iff, ?_, ?_⟩
  · rw [printsStringVar_iff]
    simp only [mem_stringVars_iff]
    constructor
    · rintro ⟨use, name, hp, place, hb⟩
      exact ⟨use, place, name, hp, hb⟩
    · rintro ⟨use, place, name, hp, hb⟩
      exact ⟨use, name, hp, place, hb⟩
  · rw [concatenatesStrings_iff]
    simp only [mem_stringVars_iff]
    constructor
    · rintro ⟨use, operand, ha, htext | ⟨name, ⟨place, hb⟩, hn⟩⟩
      · exact ⟨use, operand, ha, .inl htext⟩
      · exact ⟨use, operand, ha, .inr ⟨place, name, hb, hn⟩⟩
    · rintro ⟨use, operand, ha, htext | ⟨place, name, hb, hn⟩⟩
      · exact ⟨use, operand, ha, .inl htext⟩
      · exact ⟨use, operand, ha, .inr ⟨name, ⟨place, hb⟩, hn⟩⟩

/-- A function may print a name that is given its string only below it. -/
example : (Record.ofModule ⟨[
    .mk (.functionDef "f" [] [] [.mk (.expr (.call (.name "print") [.name "s"] [])) 2]) 1,
    .mk (.assign [.name "s"] (.str "x")) 3]⟩).printsStringVar = true := by decide

end Marksheet.Features
