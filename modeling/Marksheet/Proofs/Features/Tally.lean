import Marksheet.Features.Record
import Marksheet.Proofs.Features.Construct
import Mathlib.Data.Set.Card

/-!
# The walk meets every node once

`nodes` lists the statements and expressions of a module. The main statements
compare that list with the addresses of the module: as many nodes of the list
have a property as there are addresses at which such a node stands
(`encard_places`), and a node has a place in the list exactly if it has an
address (`any_nodes_iff`). Whether a node is saved can be read off its address:
below the value of an assignment, with no parameter default and no target of a
comprehension in between (`savedAlong_iff`).
-/

namespace Marksheet.Features

open Syntax

/-- Whether a part is saved, given whether its whole is. -/
def Role.saves : Role → Bool → Bool
  | .value, _ => true
  | .default, _ | .binding, _ => false
  | .part, saved => saved

/-- Whether the end of an address is saved, given whether its beginning is. -/
def savedAlong (saved : Bool) (address : Address) : Bool :=
  address.foldl (fun saved step => step.2.saves saved) saved

/-- The last step with a special role is the value of an assignment. -/
def SavedAt (address : Address) : Prop :=
  ∃ front index back, address = front ++ (index, .value) :: back ∧ ∀ step ∈ back, step.2 = .part

theorem savedAlong_cons (saved : Bool) (step : Nat × Role) (rest : Address) :
    savedAlong saved (step :: rest) = savedAlong (step.2.saves saved) rest := rfl

theorem savedAlong_concat (saved : Bool) (front : Address) (step : Nat × Role) :
    savedAlong saved (front ++ [step]) = step.2.saves (savedAlong saved front) := by
  simp [savedAlong]

/-- One more step keeps an address saved if it has no special role; the value of an assignment
makes it saved. -/
theorem savedAt_concat (front : Address) (index : Nat) (role : Role) :
    SavedAt (front ++ [(index, role)]) ↔ role = .value ∨ role = .part ∧ SavedAt front := by
  constructor
  · rintro ⟨before, i, back, he, hb⟩
    rcases List.eq_nil_or_concat back with rfl | ⟨init, last, rfl⟩
    · have hlast := (List.append_inj' he rfl).2
      have hstep := (List.cons.inj hlast).1
      exact .inl (congrArg Prod.snd hstep)
    · rw [List.concat_eq_append] at he hb
      have hsplit : front ++ [(index, role)] = (before ++ (i, .value) :: init) ++ [last] := by
        simp [he]
      obtain ⟨hfront, hlast⟩ := List.append_inj' hsplit rfl
      have hpart : role = .part := by
        have := hb last (by simp)
        rwa [← (List.cons.inj hlast).1] at this
      exact .inr ⟨hpart, before, i, init, hfront, fun step hm => hb step (by simp [hm])⟩
  · rintro (rfl | ⟨rfl, before, i, back, rfl, hb⟩)
    · exact ⟨front, index, [], rfl, by simp⟩
    · refine ⟨before, i, back ++ [(index, .part)], by simp, ?_⟩
      intro step hm
      rcases List.mem_append.mp hm with hm | hm
      · exact hb step hm
      · rw [List.mem_singleton.mp hm]

/-- The flag that is carried down an address says whether its end is saved. -/
theorem savedAlong_iff (address : Address) : savedAlong false address = true ↔ SavedAt address := by
  induction address using List.reverseRecOn with
  | nil => simp [savedAlong, SavedAt]
  | append_singleton front step ih =>
    obtain ⟨index, role⟩ := step
    rw [savedAlong_concat, savedAt_concat, ← ih]
    cases role <;> simp [Role.saves]

/-- The addresses that begin with one of some parts, given the addresses below each part. -/
def below (inside : Part → Set Address) (parts : List Part) : Set Address :=
  {address | ∃ index part rest, address = (index, part.1) :: rest ∧
    parts[index]? = some part ∧ rest ∈ inside part}

/-- The address that begins with the next part. -/
def shift : Address → Address
  | [] => []
  | (index, role) :: rest => (index + 1, role) :: rest

theorem shift_injective : Function.Injective shift := by
  rintro (_ | ⟨⟨i, r⟩, a⟩) (_ | ⟨⟨j, q⟩, b⟩) h
  · rfl
  · simp [shift] at h
  · simp [shift] at h
  · simpa [shift] using h

theorem below_nil (inside : Part → Set Address) : below inside [] = ∅ := by
  simp [below]

theorem below_cons (inside : Part → Set Address) (part : Part) (parts : List Part) :
    below inside (part :: parts) =
      List.cons (0, part.1) '' inside part ∪ shift '' below inside parts := by
  ext address
  constructor
  · rintro ⟨index, found, rest, rfl, hi, hr⟩
    cases index with
    | zero =>
      rw [List.getElem?_cons_zero, Option.some.injEq] at hi
      exact .inl ⟨rest, hi ▸ hr, by rw [hi]⟩
    | succ index => exact .inr ⟨_, ⟨index, found, rest, rfl, hi, hr⟩, rfl⟩
  · rintro (⟨rest, hr, rfl⟩ | ⟨_, ⟨index, found, rest, rfl, hi, hr⟩, rfl⟩)
    · exact ⟨0, part, rest, rfl, rfl, hr⟩
    · exact ⟨index + 1, found, rest, rfl, hi, hr⟩

/-- Addresses that begin with different parts are different, so their numbers add up. -/
theorem encard_below (inside : Part → Set Address) (parts : List Part) :
    (below inside parts).encard = (parts.map fun part => (inside part).encard).sum := by
  induction parts with
  | nil => simp [below_nil]
  | cons part parts ih =>
    have hdisjoint : Disjoint (List.cons (0, part.1) '' inside part) (shift '' below inside parts) := by
      rw [Set.disjoint_left]
      rintro _ ⟨rest, -, rfl⟩ ⟨_, ⟨index, found, rest', rfl, -, -⟩, he⟩
      simp [shift] at he
    have hfirst : (List.cons (0, part.1) '' inside part).encard = (inside part).encard :=
      List.cons_injective.encard_image _
    have hrest : (shift '' below inside parts).encard = (below inside parts).encard :=
      shift_injective.encard_image _
    rw [below_cons, Set.encard_union_eq hdisjoint, hfirst, hrest, ih, List.map_cons, List.sum_cons]

namespace Construct

/-- The node that a construct is, given whether it is saved. -/
def node? (saved : Bool) : Construct → Option Node
  | .stmt form => some (.stmt form)
  | .expr form => some (.expr form saved)
  | .module _ | .target _ => none

/-- The addresses below a construct at which a node with a property stands. -/
def places (p : Node → Bool) (saved : Bool) (whole : Construct) : Set Address :=
  {address | ∃ found node, whole.at? address = some found ∧
    found.node? (savedAlong saved address) = some node ∧ p node = true}

/-- How many addresses below a construct hold a node with a property. -/
noncomputable def tally (p : Node → Bool) (saved : Bool) (whole : Construct) : ℕ∞ :=
  (whole.places p saved).encard

/-- The number of nodes with a property that a construct is: none or one. -/
def count (p : Node → Bool) (saved : Bool) (whole : Construct) : Nat :=
  (whole.node? saved).toList.countP p

theorem places_eq (p : Node → Bool) (saved : Bool) (whole : Construct) :
    whole.places p saved = {address | address = [] ∧ ∃ node, whole.node? saved = some node ∧ p node} ∪
      below (fun part => part.2.places p (part.1.saves saved)) whole.parts := by
  ext address
  cases address with
  | nil => simp [places, below, at?_nil, savedAlong]
  | cons step rest =>
    obtain ⟨index, role⟩ := step
    simp only [places, below, Set.mem_ofPred_eq, Set.mem_union, at?_cons, savedAlong_cons]
    constructor
    · rintro ⟨found, node, ⟨part, hp, hf⟩, hn, h⟩
      exact .inr ⟨index, (role, part), rest, rfl, hp, found, node, hf, hn, h⟩
    · rintro (⟨he, -⟩ | ⟨i, ⟨r, part⟩, rest', he, hp, found, node, hf, hn, h⟩)
      · cases he
      · cases he
        exact ⟨found, node, ⟨part, hp, hf⟩, hn, h⟩

/-- The tallies of some parts together. -/
noncomputable def weight (p : Node → Bool) (saved : Bool) (parts : List Part) : ℕ∞ :=
  (parts.map fun part => part.2.tally p (part.1.saves saved)).sum

/-- A construct itself and its parts make up the tally. -/
theorem tally_eq (p : Node → Bool) (saved : Bool) (whole : Construct) :
    whole.tally p saved = whole.count p saved + weight p saved whole.parts := by
  have hdisjoint : Disjoint
      {address : Address | address = [] ∧ ∃ node, whole.node? saved = some node ∧ p node = true}
      (below (fun part => part.2.places p (part.1.saves saved)) whole.parts) := by
    rw [Set.disjoint_left]
    rintro _ ⟨rfl, -⟩ ⟨index, part, rest, he, -⟩
    cases he
  have hself :
      {address : Address | address = [] ∧ ∃ node, whole.node? saved = some node ∧ p node = true}.encard =
        whole.count p saved := by
    cases hn : whole.node? saved with
    | none => simp [count, hn]
    | some node =>
      cases hp : p node with
      | false => simp [count, hn, hp]
      | true => simp [count, hn, hp]
  rw [tally, places_eq, Set.encard_union_eq hdisjoint, hself, encard_below]
  rfl

variable (p : Node → Bool)

theorem weight_nil (saved : Bool) : weight p saved [] = 0 := rfl

theorem weight_append (saved : Bool) (first second : List Part) :
    weight p saved (first ++ second) = weight p saved first + weight p saved second := by
  simp [weight]

theorem weight_cons (saved : Bool) (part : Part) (parts : List Part) :
    weight p saved (part :: parts) = part.2.tally p (part.1.saves saved) + weight p saved parts := by
  simp [weight]

/-- What two lists of nodes hold adds up. -/
theorem cast_countP_append (first second : List Node) :
    ((first ++ second).countP p : ℕ∞) = first.countP p + second.countP p := by
  rw [List.countP_append, Nat.cast_add]

/-- If the parts of an expression are tallied below it, the expression is tallied with them. -/
theorem tally_expr {saved : Bool} {form : Expr}
    (h : weight p saved (expr form).parts = (belowExpr saved form).countP p) :
    (expr form).tally p saved = (nodesOf saved form).countP p := by
  rw [tally_eq, h, nodesOf, List.countP_cons]
  cases hp : p (.expr form saved) <;> simp [count, node?, hp, add_comm]

/-- A target is no node itself. -/
theorem tally_target {form : Target} (saved : Bool)
    (h : weight p saved (target form).parts = (targetNodes form).countP p) :
    (target form).tally p saved = (targetNodes form).countP p := by
  rw [tally_eq, h]
  exact zero_add _

/-- Expressions are tallied one after another. -/
theorem weight_exprParts_cons (saved : Bool) (item : Expr) (items : List Expr) :
    weight p saved (exprParts (item :: items)) =
      (expr item).tally p saved + weight p saved (exprParts items) := weight_cons p saved _ _

theorem weight_exprParts_append (saved : Bool) (first second : List Expr) :
    weight p saved (exprParts (first ++ second)) =
      weight p saved (exprParts first) + weight p saved (exprParts second) := by
  rw [exprParts, List.map_append, weight_append]
  rfl

/-- Nothing follows the last expression. -/
theorem weight_exprParts_singleton (saved : Bool) (item : Expr) :
    weight p saved (exprParts [item]) = (expr item).tally p saved := by
  rw [weight_exprParts_cons]
  exact add_zero _

-- One statement for each list that the walk over expressions keeps, by recursion on the tree.
mutual

/-- The parts of an expression hold the nodes below it. -/
theorem weight_expr (saved : Bool) :
    ∀ form : Expr, weight p saved (expr form).parts = (belowExpr saved form).countP p
  | .name _ | .str _ | .int _ | .float _ | .bool _ | .none | .ellipsis | .unsupported _ => rfl
  | .fstring fields => weight_fields saved fields
  | .list items | .tuple items | .set items => weight_exprs saved items
  | .dict entries => weight_entries saved entries
  | .boolOp _ left right | .binOp _ left right => by
    have hl := tally_expr p (weight_expr saved left)
    have hr := tally_expr p (weight_expr saved right)
    rw [parts, weight_exprParts_cons, weight_exprParts_singleton, hl, hr, belowExpr,
      cast_countP_append]
    rfl
  | .not operand | .unary _ operand | .starred operand => by
    rw [parts, weight_exprParts_singleton, tally_expr p (weight_expr saved operand)]
    rfl
  | .compare left links => by
    have hl := tally_expr p (weight_expr saved left)
    have hk := weight_links saved links
    rw [parts, weight_exprParts_cons, hl, hk, belowExpr, cast_countP_append]
    rfl
  | .call func args kwargs => by
    have hf := tally_expr p (weight_expr saved func)
    have ha := weight_exprs saved args
    have hk := weight_keywords saved kwargs
    rw [parts, weight_exprParts_append, weight_exprParts_cons, hf, ha, hk, belowExpr,
      cast_countP_append, cast_countP_append]
    rfl
  | .attribute value _ | .namedExpr _ value => by
    rw [parts, weight_exprParts_singleton, tally_expr p (weight_expr saved value)]
    rfl
  | .subscript value index => by
    have hv := tally_expr p (weight_expr saved value)
    have hi := tally_expr p (weight_expr saved index)
    rw [parts, weight_exprParts_cons, weight_exprParts_singleton, hv, hi, belowExpr,
      cast_countP_append]
    rfl
  | .slice lower upper step => by
    have hl := weight_option saved lower
    have hu := weight_option saved upper
    have hs := weight_option saved step
    rw [parts, weight_exprParts_append, weight_exprParts_append, hl, hu, hs, belowExpr,
      cast_countP_append, cast_countP_append]
  | .ifExp test body orelse => by
    have ht := tally_expr p (weight_expr saved test)
    have hb := tally_expr p (weight_expr saved body)
    have ho := tally_expr p (weight_expr saved orelse)
    rw [parts, weight_exprParts_cons, weight_exprParts_cons, weight_exprParts_singleton, ht, hb,
      ho, belowExpr, cast_countP_append, cast_countP_append, add_assoc]
    rfl
  | .comprehension _ elt value generators => by
    have hg := weight_generators saved generators
    have he := tally_expr p (weight_expr saved elt)
    have hv := weight_option saved value
    rw [parts, weight_append, weight_exprParts_cons, hg, he, hv, belowExpr, cast_countP_append,
      cast_countP_append, add_assoc]
    rfl
  | .lambda params body => by
    have hp := weight_defaults saved params
    have hb := tally_expr p (weight_expr saved body)
    rw [parts, weight_append, weight_exprParts_singleton, hp, hb, belowExpr, cast_countP_append]
    rfl
  | .yield value => weight_option saved value

theorem weight_option (saved : Bool) : ∀ item : Option Expr,
    weight p saved (exprParts item.toList) = (optionNodes saved item).countP p
  | none => rfl
  | some item => by
    rw [Option.toList_some, weight_exprParts_singleton, tally_expr p (weight_expr saved item)]
    rfl

theorem weight_exprs (saved : Bool) : ∀ items : List Expr,
    weight p saved (exprParts items) = (exprNodes saved items).countP p
  | [] => rfl
  | item :: rest => by
    have hi := tally_expr p (weight_expr saved item)
    have hr := weight_exprs saved rest
    rw [weight_exprParts_cons, hi, hr, exprNodes, cast_countP_append]
    rfl

theorem weight_entries (saved : Bool) : ∀ entries : List (Option Expr × Expr),
    weight p saved (exprParts (entries.flatMap fun entry => entry.1.toList ++ [entry.2])) =
      (entryNodes saved entries).countP p
  | [] => rfl
  | (key, value) :: rest => by
    have hk := weight_option saved key
    have hv := tally_expr p (weight_expr saved value)
    have hr := weight_entries saved rest
    rw [List.flatMap_cons, weight_exprParts_append, weight_exprParts_append,
      weight_exprParts_singleton, hk, hv, hr, entryNodes, cast_countP_append, cast_countP_append]
    rfl

theorem weight_links (saved : Bool) : ∀ links : List (CmpOp × Expr),
    weight p saved (exprParts (links.map Prod.snd)) = (linkNodes saved links).countP p
  | [] => rfl
  | (_, operand) :: rest => by
    have ho := tally_expr p (weight_expr saved operand)
    have hr := weight_links saved rest
    rw [List.map_cons, weight_exprParts_cons, ho, hr, linkNodes, cast_countP_append]
    rfl

theorem weight_keywords (saved : Bool) : ∀ kwargs : List (String × Expr),
    weight p saved (exprParts (kwargs.map Prod.snd)) = (keywordNodes saved kwargs).countP p
  | [] => rfl
  | (_, value) :: rest => by
    have hv := tally_expr p (weight_expr saved value)
    have hr := weight_keywords saved rest
    rw [List.map_cons, weight_exprParts_cons, hv, hr, keywordNodes, cast_countP_append]
    rfl

theorem weight_fields (saved : Bool) : ∀ fields : List FStringPart,
    weight p saved (fieldParts fields) = (belowParts saved fields).countP p
  | [] => rfl
  | .literal _ :: rest => weight_fields saved rest
  | .interpolation value _ _ :: rest => by
    have hv := tally_expr p (weight_expr saved value)
    have hr := weight_fields saved rest
    rw [fieldParts_cons, weight_append, weight_exprParts_singleton, hv, hr, belowParts,
      cast_countP_append]
    rfl

theorem weight_generators (saved : Bool) : ∀ generators : List Generator,
    weight p saved (generatorParts generators) = (generatorNodes saved generators).countP p
  | [] => rfl
  | .mk bound iter conditions :: rest => by
    have hb := tally_target p false (weight_target bound)
    have hi := tally_expr p (weight_expr saved iter)
    have hc := weight_exprs saved conditions
    have hr := weight_generators saved rest
    rw [generatorParts_cons, weight_cons, weight_append, weight_exprParts_cons, Role.saves, hb, hi,
      hc, hr, generatorNodes, cast_countP_append, cast_countP_append, cast_countP_append,
      ← add_assoc, ← add_assoc]
    rfl

theorem weight_defaults (saved : Bool) : ∀ params : List Param,
    weight p saved (defaultParts params) = (paramNodes params).countP p
  | [] => rfl
  | .mk _ none :: rest => weight_defaults saved rest
  | .mk _ (some item) :: rest => by
    have hi := tally_expr p (weight_expr false item)
    have hr := weight_defaults saved rest
    rw [defaultParts_cons, Option.toList_some, List.map_singleton, List.singleton_append,
      weight_cons, Role.saves, hi, hr, paramNodes, cast_countP_append]
    rfl

theorem weight_target : ∀ form : Target,
    weight p false (target form).parts = (targetNodes form).countP p
  | .name _ | .unsupported _ => rfl
  | .tuple items => weight_targets items
  | .subscript value index => by
    have hv := tally_expr p (weight_expr false value)
    have hi := tally_expr p (weight_expr false index)
    rw [parts, weight_exprParts_cons, weight_exprParts_singleton, hv, hi, targetNodes,
      cast_countP_append]
    rfl
  | .attribute value _ => by
    rw [parts, weight_exprParts_singleton, tally_expr p (weight_expr false value)]
    rfl
  | .starred inner => by
    rw [parts, targetParts, List.map_singleton, weight_cons, weight_nil, add_zero, Role.saves,
      tally_target p false (weight_target inner)]
    rfl

theorem weight_targets : ∀ items : List Target,
    weight p false (targetParts items) = (targetsNodes items).countP p
  | [] => rfl
  | item :: rest => by
    have hi := tally_target p false (weight_target item)
    have hr := weight_targets rest
    rw [targetParts] at hr
    rw [targetParts, List.map_cons, weight_cons, Role.saves, hi, hr, targetsNodes,
      cast_countP_append]

end

/-- The value of an assignment is saved. -/
theorem weight_valueParts (saved : Bool) (item : Option Expr) :
    weight p saved (valueParts item) = (optionNodes true item).countP p := by
  cases item with
  | none => rfl
  | some item =>
    rw [valueParts, Option.toList_some, List.map_singleton, weight_cons, weight_nil, add_zero,
      Role.saves, tally_expr p (weight_expr p true item)]
    rfl

theorem weight_targetParts_singleton (place : Target) :
    weight p false (targetParts [place]) = (targetNodes place).countP p := by
  have h := weight_targets p [place]
  rwa [targetsNodes, targetsNodes, List.append_nil] at h

theorem weight_withParts (items : List WithItem) :
    weight p false (withParts items) = (withItemNodes items).countP p := by
  induction items with
  | nil => rfl
  | cons item rest ih =>
    have hc := tally_expr p (weight_expr p false item.context)
    have ht : weight p false (targetParts item.target.toList) =
        ((item.target.map targetNodes).getD []).countP p := by
      cases hi : item.target with
      | none => rfl
      | some bound => exact weight_targetParts_singleton p bound
    have hcons : withItemNodes (item :: rest) =
        nodesOf false item.context ++ (item.target.map targetNodes).getD [] ++ withItemNodes rest := by
      rfl
    rw [withParts_cons, weight_append, weight_append, weight_exprParts_singleton, hc, ht, ih,
      hcons, cast_countP_append, cast_countP_append]

/-- If the parts of a statement are tallied below it, the statement is tallied with them. -/
theorem tally_stmt {form : StmtKind}
    (h : weight p false (stmt form).parts = (belowStmt form).countP p) :
    (stmt form).tally p false = (.stmt form :: belowStmt form).countP p := by
  rw [tally_eq, h, List.countP_cons]
  cases hp : p (.stmt form) <;> simp [count, node?, hp, add_comm]

-- The same for the lists that hold statements.
mutual

/-- The parts of a statement hold the nodes below it. -/
theorem weight_stmt : ∀ form : StmtKind,
    weight p false (stmt form).parts = (belowStmt form).countP p
  | .imports _ | .importFrom .. | .global _ | .nonlocal _ | .pass | .break | .continue
  | .unsupported _ => rfl
  | .expr value => by
    rw [parts, weight_exprParts_singleton, tally_expr p (weight_expr p false value)]
    rfl
  | .assign targets value => by
    rw [parts, weight_append, weight_targets, weight_valueParts, belowStmt, cast_countP_append]
    rfl
  | .annAssign place kind value => by
    have hp := weight_targetParts_singleton p place
    have hk := tally_expr p (weight_expr p false kind)
    rw [parts, weight_append, weight_append, weight_exprParts_singleton, hp, hk, weight_valueParts,
      belowStmt, cast_countP_append, cast_countP_append]
  | .augAssign place _ value => by
    have hp := weight_targetParts_singleton p place
    have hv := tally_expr p (weight_expr p false value)
    rw [parts, weight_append, weight_exprParts_singleton, hp, hv, belowStmt, cast_countP_append]
  | .if test body orelse | .while test body orelse => by
    have ht := tally_expr p (weight_expr p false test)
    have hb := weight_block body
    have ho := weight_block orelse
    rw [parts, weight_append, weight_append, weight_exprParts_singleton, ht, hb, ho, belowStmt,
      cast_countP_append, cast_countP_append]
  | .for place iter body orelse => by
    have hp := weight_targetParts_singleton p place
    have hi := tally_expr p (weight_expr p false iter)
    have hb := weight_block body
    have ho := weight_block orelse
    rw [parts, weight_append, weight_append, weight_append, weight_exprParts_singleton, hp, hi, hb,
      ho, belowStmt, cast_countP_append, cast_countP_append, cast_countP_append]
  | .functionDef _ params decorators body => by
    rw [parts, weight_append, weight_append, weight_exprs, weight_defaults, weight_block body,
      belowStmt, cast_countP_append, cast_countP_append]
  | .classDef _ bases decorators body => by
    rw [parts, weight_append, weight_append, weight_exprs, weight_exprs, weight_block body,
      belowStmt, cast_countP_append, cast_countP_append]
  | .with items body => by
    rw [parts, weight_append, weight_withParts, weight_block body, belowStmt, cast_countP_append]
  | .return value | .raise value => weight_option p false value
  | .try body handlers orelse finalbody => by
    have hb := weight_block body
    have hh := weight_handlers handlers
    have ho := weight_block orelse
    have hf := weight_block finalbody
    rw [parts, weight_append, weight_append, weight_append, hb, hh, ho, hf, belowStmt,
      cast_countP_append, cast_countP_append, cast_countP_append]
  | .assert test msg => by
    have ht := tally_expr p (weight_expr p false test)
    rw [parts, weight_exprParts_cons, ht, weight_option, belowStmt, cast_countP_append]
  | .delete items => weight_exprs p false items
  | .match subjects cases => by
    rw [parts, weight_append, weight_exprs, weight_cases cases, belowStmt, cast_countP_append]

theorem weight_block : ∀ body : List Stmt,
    weight p false (blockParts body) = (stmtNodes body).countP p
  | [] => rfl
  | .mk form _ :: rest => by
    have hf := tally_stmt p (weight_stmt form)
    have hr := weight_block rest
    rw [blockParts] at hr
    rw [blockParts, List.map_cons, weight_cons, Role.saves, Stmt.kind, hf, hr, stmtNodes,
      cast_countP_append]

theorem weight_handlers : ∀ handlers : List Handler,
    weight p false (handlerParts handlers) = (handlerNodes handlers).countP p
  | [] => rfl
  | .mk kind _ body _ :: rest => by
    have hb := weight_block body
    have hr := weight_handlers rest
    rw [handlerParts_cons, weight_append, weight_append, weight_option, hb, hr, handlerNodes,
      cast_countP_append, cast_countP_append]

theorem weight_cases : ∀ cases : List MatchCase,
    weight p false (caseParts cases) = (caseNodes cases).countP p
  | [] => rfl
  | .mk guard body :: rest => by
    have hb := weight_block body
    have hr := weight_cases rest
    rw [caseParts_cons, weight_append, weight_append, weight_option, hb, hr, caseNodes,
      cast_countP_append, cast_countP_append]

end

end Construct

/-- A property holds of as many nodes of the list as there are addresses that name such a node. -/
theorem encard_places (p : Node → Bool) (tree : Module) :
    ((Construct.module tree).places p false).encard = (nodes tree).countP p := by
  have hw := Construct.weight_block p tree.body
  change (Construct.module tree).tally p false = _
  rw [Construct.tally_eq, Construct.parts, hw]
  exact zero_add _

/-- Some node of the list has a property exactly if some address names such a node. -/
theorem any_nodes_iff (p : Node → Bool) (tree : Module) :
    (nodes tree).any p = true ↔ ((Construct.module tree).places p false).Nonempty := by
  rw [← Set.encard_ne_zero, encard_places, Nat.cast_ne_zero, ← Nat.pos_iff_ne_zero,
    List.countP_pos_iff, List.any_eq_true]

end Marksheet.Features
