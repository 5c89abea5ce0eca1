import Marksheet.Proofs.Features.Tally

/-!
# Each flag says whether a shape occurs

For every flag of a record that asks whether a shape occurs, the record of a
module sets it exactly if a construct of that shape occurs in the module. The
shapes are spelled out in the statements, and how the tree is walked does not
show in them.
-/

namespace Marksheet.Features

open Syntax

/-- A property of statements alone holds of some node exactly if such a statement occurs. -/
theorem any_stmt_iff (tree : Module) (p : Node → Bool)
    (hexpr : ∀ form saved, p (.expr form saved) = false) :
    (nodes tree).any p = true ↔ ∃ form, Occurs tree (.stmt form) ∧ p (.stmt form) = true := by
  rw [any_nodes_iff]
  constructor
  · rintro ⟨address, found, node, ha, hn, hp⟩
    cases found with
    | stmt form =>
      obtain rfl := Option.some.inj hn
      exact ⟨form, occurs_iff_at?.mpr ⟨address, ha⟩, hp⟩
    | expr form =>
      obtain rfl := Option.some.inj hn
      rw [hexpr] at hp
      cases hp
    | module inner => cases hn
    | target form => cases hn
  · rintro ⟨form, ho, hp⟩
    obtain ⟨address, ha⟩ := occurs_iff_at?.mp ho
    exact ⟨address, .stmt form, .stmt form, ha, rfl, hp⟩

/-- A property of expressions alone, whether saved or not, holds of some node exactly if such an
expression occurs. -/
theorem any_expr_iff (tree : Module) (p : Node → Bool) (hstmt : ∀ form, p (.stmt form) = false)
    (hsaved : ∀ form saved, p (.expr form saved) = p (.expr form false)) :
    (nodes tree).any p = true ↔ ∃ form, Occurs tree (.expr form) ∧ p (.expr form false) = true := by
  rw [any_nodes_iff]
  constructor
  · rintro ⟨address, found, node, ha, hn, hp⟩
    cases found with
    | stmt form =>
      obtain rfl := Option.some.inj hn
      rw [hstmt] at hp
      cases hp
    | expr form =>
      obtain rfl := Option.some.inj hn
      rw [hsaved] at hp
      exact ⟨form, occurs_iff_at?.mpr ⟨address, ha⟩, hp⟩
    | module inner => cases hn
    | target form => cases hn
  · rintro ⟨form, ho, hp⟩
    obtain ⟨address, ha⟩ := occurs_iff_at?.mp ho
    refine ⟨address, .expr form, .expr form (savedAlong false address), ha, rfl, ?_⟩
    rw [hsaved, hp]

variable {tree : Module}

/-! ### Shapes of statements -/

theorem hasIf_iff : (Record.ofModule tree).hasIf = true ↔
    ∃ test body orelse, Occurs tree (.stmt (.if test body orelse)) := by
  have h := any_stmt_iff tree Node.isIf (fun _ _ => rfl)
  refine h.trans ⟨?_, ?_⟩
  · rintro ⟨form, ho, hp⟩
    cases form with
    | «if» test body orelse => exact ⟨test, body, orelse, ho⟩
    | _ => cases hp
  · rintro ⟨test, body, orelse, ho⟩
    exact ⟨_, ho, rfl⟩

theorem hasIfElse_iff : (Record.ofModule tree).hasIfElse = true ↔
    ∃ test body orelse, Occurs tree (.stmt (.if test body orelse)) ∧ orelse ≠ [] := by
  have h := any_stmt_iff tree Node.isIfElse (fun _ _ => rfl)
  refine h.trans ⟨?_, ?_⟩
  · rintro ⟨form, ho, hp⟩
    cases form with
    | «if» test body orelse => exact ⟨test, body, orelse, ho, by simpa [Node.isIfElse] using hp⟩
    | _ => cases hp
  · rintro ⟨test, body, orelse, ho, hne⟩
    exact ⟨_, ho, by simpa [Node.isIfElse] using hne⟩

theorem hasNestedIf_iff : (Record.ofModule tree).hasNestedIf = true ↔
    ∃ test body orelse, Occurs tree (.stmt (.if test body orelse)) ∧
      ∃ inner ∈ body, ∃ test' body' orelse', inner.kind = .if test' body' orelse' := by
  have h := any_stmt_iff tree Node.isNestedIf (fun _ _ => rfl)
  have hinner (inner : Stmt) :
      Features.isIf inner = true ↔ ∃ test body orelse, inner.kind = .if test body orelse := by
    obtain ⟨kind, line⟩ := inner
    cases kind <;> simp [Features.isIf, Stmt.kind]
  refine h.trans ⟨?_, ?_⟩
  · rintro ⟨form, ho, hp⟩
    cases form with
    | «if» test body orelse =>
      obtain ⟨inner, hm, hi⟩ := List.any_eq_true.mp hp
      exact ⟨test, body, orelse, ho, inner, hm, (hinner inner).mp hi⟩
    | _ => cases hp
  · rintro ⟨test, body, orelse, ho, inner, hm, hi⟩
    exact ⟨_, ho, List.any_eq_true.mpr ⟨inner, hm, (hinner inner).mpr hi⟩⟩

theorem hasForLoop_iff : (Record.ofModule tree).hasForLoop = true ↔
    ∃ target iter body orelse, Occurs tree (.stmt (.for target iter body orelse)) := by
  have h := any_stmt_iff tree Node.isFor (fun _ _ => rfl)
  refine h.trans ⟨?_, ?_⟩
  · rintro ⟨form, ho, hp⟩
    cases form with
    | «for» target iter body orelse => exact ⟨target, iter, body, orelse, ho⟩
    | _ => cases hp
  · rintro ⟨target, iter, body, orelse, ho⟩
    exact ⟨_, ho, rfl⟩

theorem importsRandom_iff : (Record.ofModule tree).importsRandom = true ↔
    ∃ names, Occurs tree (.stmt (.imports names)) ∧
      ∃ imported ∈ names, imported.name = "random" := by
  have h := any_stmt_iff tree Node.importsRandom (fun _ _ => rfl)
  refine h.trans ⟨?_, ?_⟩
  · rintro ⟨form, ho, hp⟩
    cases form with
    | imports names => exact ⟨names, ho, by simpa [Node.importsRandom] using hp⟩
    | _ => cases hp
  · rintro ⟨names, ho, hn⟩
    exact ⟨_, ho, by simpa [Node.importsRandom] using hn⟩

theorem importsRandomChoice_iff : (Record.ofModule tree).importsRandomChoice = true ↔
    ∃ names wildcard, Occurs tree (.stmt (.importFrom "random" names wildcard)) ∧
      (wildcard = true ∨ ∃ imported ∈ names, imported.name = "choice") := by
  have h := any_stmt_iff tree Node.importsChoice (fun _ _ => rfl)
  refine h.trans ⟨?_, ?_⟩
  · rintro ⟨form, ho, hp⟩
    cases form with
    | importFrom module names wildcard =>
      simp only [Node.importsChoice, Bool.and_eq_true, decide_eq_true_eq] at hp
      obtain ⟨rfl, hp⟩ := hp
      exact ⟨names, wildcard, ho, by simpa using hp⟩
    | _ => cases hp
  · rintro ⟨names, wildcard, ho, hn⟩
    exact ⟨_, ho, by simpa [Node.importsChoice] using hn⟩

/-! ### Shapes of expressions -/

theorem uses_boolOp_iff (op : BoolOp) : (nodes tree).any (Node.isBoolOp op) = true ↔
    ∃ left right, Occurs tree (.expr (.boolOp op left right)) := by
  have h := any_expr_iff tree (Node.isBoolOp op) (fun _ => rfl)
    (fun form _ => by cases form <;> rfl)
  refine h.trans ⟨?_, ?_⟩
  · rintro ⟨form, ho, hp⟩
    cases form with
    | boolOp found left right =>
      obtain rfl : found = op := by simpa [Node.isBoolOp] using hp
      exact ⟨left, right, ho⟩
    | _ => cases hp
  · rintro ⟨left, right, ho⟩
    exact ⟨_, ho, by simp [Node.isBoolOp]⟩

theorem hasComparison_iff : (Record.ofModule tree).hasComparison = true ↔
    ∃ left links, Occurs tree (.expr (.compare left links)) := by
  have h := any_expr_iff tree Node.isComparison (fun _ => rfl)
    (fun form _ => by cases form <;> rfl)
  refine h.trans ⟨?_, ?_⟩
  · rintro ⟨form, ho, hp⟩
    cases form with
    | compare left links => exact ⟨left, links, ho⟩
    | _ => cases hp
  · rintro ⟨left, links, ho⟩
    exact ⟨_, ho, rfl⟩

theorem usesInOperator_iff : (Record.ofModule tree).usesInOperator = true ↔
    ∃ left links, Occurs tree (.expr (.compare left links)) ∧
      ∃ link ∈ links, link.1 = .isIn ∨ link.1 = .notIn := by
  have h := any_expr_iff tree Node.isMembershipTest (fun _ => rfl)
    (fun form _ => by cases form <;> rfl)
  have hop (op : CmpOp) : op.isMembership = true ↔ op = .isIn ∨ op = .notIn := by
    cases op <;> simp [CmpOp.isMembership]
  refine h.trans ⟨?_, ?_⟩
  · rintro ⟨form, ho, hp⟩
    cases form with
    | compare left links =>
      obtain ⟨link, hm, hl⟩ := List.any_eq_true.mp hp
      exact ⟨left, links, ho, link, hm, (hop _).mp hl⟩
    | _ => cases hp
  · rintro ⟨left, links, ho, link, hm, hl⟩
    exact ⟨_, ho, List.any_eq_true.mpr ⟨link, hm, (hop _).mpr hl⟩⟩

theorem isStr_iff (value : Expr) : value.isStr = true ↔ ∃ text, value = .str text := by
  cases value <;> simp [Expr.isStr]

theorem hasListOfStrings_iff : (Record.ofModule tree).hasListOfStrings = true ↔
    ∃ items, Occurs tree (.expr (.list items)) ∧ items ≠ [] ∧
      ∀ item ∈ items, ∃ text, item = .str text := by
  have h := any_expr_iff tree Node.isStringList (fun _ => rfl)
    (fun form _ => by cases form <;> rfl)
  refine h.trans ⟨?_, ?_⟩
  · rintro ⟨form, ho, hp⟩
    cases form with
    | list items =>
      simp only [Node.isStringList, Bool.and_eq_true, List.all_eq_true, isStr_iff] at hp
      exact ⟨items, ho, by simpa using hp.1, hp.2⟩
    | _ => cases hp
  · rintro ⟨items, ho, hne, hall⟩
    refine ⟨_, ho, ?_⟩
    simp only [Node.isStringList, Bool.and_eq_true, List.all_eq_true, isStr_iff]
    exact ⟨by simpa using hne, hall⟩

/-! ### Calls -/

theorem usesStringMethod_iff : (Record.ofModule tree).usesStringMethod = true ↔
    ∃ value attr args kwargs, Occurs tree (.expr (.call (.attribute value attr) args kwargs)) ∧
      (attr = "strip" ∨ attr = "lower" ∨ attr = "upper") := by
  have h := any_expr_iff tree Node.isStringMethodCall (fun _ => rfl)
    (fun form _ => by
      cases form with
      | call func args kwargs => cases func <;> rfl
      | _ => rfl)
  refine h.trans ⟨?_, ?_⟩
  · rintro ⟨form, ho, hp⟩
    cases form with
    | call func args kwargs =>
      cases func with
      | «attribute» value attr =>
        exact ⟨value, attr, args, kwargs, ho,
          by simpa [Node.isStringMethodCall, stringMethods] using hp⟩
      | _ => cases hp
    | _ => cases hp
  · rintro ⟨value, attr, args, kwargs, ho, hattr⟩
    exact ⟨_, ho, by simpa [Node.isStringMethodCall, stringMethods] using hattr⟩

theorem usesRandomChoice_iff : (Record.ofModule tree).usesRandomChoice = true ↔
    ∃ func args kwargs, Occurs tree (.expr (.call func args kwargs)) ∧
      (func = .name "choice" ∨ func = .attribute (.name "random") "choice") := by
  have h := any_expr_iff tree Node.isRandomChoice (fun _ => rfl)
    (fun form _ => by
      cases form with
      | call func args kwargs => cases func <;> rfl
      | _ => rfl)
  refine h.trans ⟨?_, ?_⟩
  · rintro ⟨form, ho, hp⟩
    cases form with
    | call func args kwargs =>
      refine ⟨func, args, kwargs, ho, ?_⟩
      cases func with
      | name id => exact .inl (by simpa [Node.isRandomChoice] using hp)
      | «attribute» value attr =>
        simp only [Node.isRandomChoice, Bool.and_eq_true, decide_eq_true_eq] at hp
        obtain ⟨rfl, hv⟩ := hp
        cases value with
        | name id => exact .inr (by simpa [nameOf?] using hv)
        | _ => cases hv
      | _ => cases hp
    | _ => cases hp
  · rintro ⟨func, args, kwargs, ho, rfl | rfl⟩
    · exact ⟨_, ho, rfl⟩
    · exact ⟨_, ho, rfl⟩

theorem isBooleanish_iff (arg : Expr) : isBooleanish arg = true ↔
    (∃ value, arg = .bool value) ∨ (∃ left links, arg = .compare left links) ∨
      (∃ op left right, arg = .boolOp op left right) ∨ ∃ operand, arg = .not operand := by
  cases arg <;> simp [isBooleanish]

theorem printsBoolean_iff : (Record.ofModule tree).printsBoolean = true ↔
    ∃ args kwargs, Occurs tree (.expr (.call (.name "print") args kwargs)) ∧ ∃ arg ∈ args,
      (∃ value, arg = .bool value) ∨ (∃ left links, arg = .compare left links) ∨
        (∃ op left right, arg = .boolOp op left right) ∨ ∃ operand, arg = .not operand := by
  have h := any_expr_iff tree Node.printsBoolean (fun _ => rfl)
    (fun form _ => by
      cases form with
      | call func args kwargs => cases func <;> rfl
      | _ => rfl)
  simp only [← isBooleanish_iff]
  refine h.trans ⟨?_, ?_⟩
  · rintro ⟨form, ho, hp⟩
    obtain ⟨arg, hm, harg⟩ := List.any_eq_true.mp hp
    cases form with
    | call func args kwargs =>
      cases func with
      | name id =>
        rw [Node.printed] at hm
        split at hm
        · next hid => exact ⟨args, kwargs, hid ▸ ho, arg, hm, harg⟩
        · cases hm
      | _ => cases hm
    | _ => cases hm
  · rintro ⟨args, kwargs, ho, arg, hm, harg⟩
    exact ⟨_, ho, List.any_eq_true.mpr ⟨arg, hm, harg⟩⟩

/-- Every flag that asks for a shape is set exactly if a construct of that shape occurs somewhere
in the tree. -/
theorem flags_iff_occurs (tree : Module) :
    ((Record.ofModule tree).hasIf = true ↔
      ∃ test body orelse, Occurs tree (.stmt (.if test body orelse))) ∧
    ((Record.ofModule tree).hasIfElse = true ↔
      ∃ test body orelse, Occurs tree (.stmt (.if test body orelse)) ∧ orelse ≠ []) ∧
    ((Record.ofModule tree).hasNestedIf = true ↔
      ∃ test body orelse, Occurs tree (.stmt (.if test body orelse)) ∧
        ∃ inner ∈ body, ∃ test' body' orelse', inner.kind = .if test' body' orelse') ∧
    ((Record.ofModule tree).hasForLoop = true ↔
      ∃ target iter body orelse, Occurs tree (.stmt (.for target iter body orelse))) ∧
    ((Record.ofModule tree).usesOr = true ↔
      ∃ left right, Occurs tree (.expr (.boolOp .or left right))) ∧
    ((Record.ofModule tree).usesAnd = true ↔
      ∃ left right, Occurs tree (.expr (.boolOp .and left right))) ∧
    ((Record.ofModule tree).hasComparison = true ↔
      ∃ left links, Occurs tree (.expr (.compare left links))) ∧
    ((Record.ofModule tree).usesInOperator = true ↔
      ∃ left links, Occurs tree (.expr (.compare left links)) ∧
        ∃ link ∈ links, link.1 = .isIn ∨ link.1 = .notIn) ∧
    ((Record.ofModule tree).usesStringMethod = true ↔
      ∃ value attr args kwargs, Occurs tree (.expr (.call (.attribute value attr) args kwargs)) ∧
        (attr = "strip" ∨ attr = "lower" ∨ attr = "upper")) ∧
    ((Record.ofModule tree).usesRandomChoice = true ↔
      ∃ func args kwargs, Occurs tree (.expr (.call func args kwargs)) ∧
        (func = .name "choice" ∨ func = .attribute (.name "random") "choice")) ∧
    ((Record.ofModule tree).importsRandom = true ↔
      ∃ names, Occurs tree (.stmt (.imports names)) ∧
        ∃ imported ∈ names, imported.name = "random") ∧
    ((Record.ofModule tree).importsRandomChoice = true ↔
      ∃ names wildcard, Occurs tree (.stmt (.importFrom "random" names wildcard)) ∧
        (wildcard = true ∨ ∃ imported ∈ names, imported.name = "choice")) ∧
    ((Record.ofModule tree).hasListOfStrings = true ↔
      ∃ items, Occurs tree (.expr (.list items)) ∧ items ≠ [] ∧
        ∀ item ∈ items, ∃ text, item = .str text) ∧
    ((Record.ofModule tree).printsBoolean = true ↔
      ∃ args kwargs, Occurs tree (.expr (.call (.name "print") args kwargs)) ∧ ∃ arg ∈ args,
        (∃ value, arg = .bool value) ∨ (∃ left links, arg = .compare left links) ∨
          (∃ op left right, arg = .boolOp op left right) ∨ ∃ operand, arg = .not operand) :=
  ⟨hasIf_iff, hasIfElse_iff, hasNestedIf_iff, hasForLoop_iff, uses_boolOp_iff .or,
    uses_boolOp_iff .and, hasComparison_iff, usesInOperator_iff, usesStringMethod_iff,
    usesRandomChoice_iff, importsRandom_iff, importsRandomChoice_iff, hasListOfStrings_iff,
    printsBoolean_iff⟩

end Marksheet.Features
