import Marksheet.Proofs.Syntax.Crlf
import Marksheet.Proofs.Syntax.Joined
import Marksheet.Proofs.Syntax.Wiped

/-!
# The tree of a form with line ends of two characters

Line ends stand in no text of a tree that a check looks at. So a form and the
same form with other line ends stand for trees that are the same up to texts
(`Module.ofBlock_crlf`).
-/

namespace Marksheet.Syntax

open Source

/-! ### The pieces of an abstraction -/

/-- An index, or several as a tuple. -/
def indexOf : List Expr → Expr
  | [single] => single
  | several => .tuple several

theorem wiped_indexOf (items : List Expr) : (indexOf items).wiped = indexOf (items.map Expr.wiped) := by
  match items with
  | [] => rfl
  | [_] => rfl
  | _ :: _ :: _ => simp [indexOf, Expr.wiped]

theorem Phrase.expr_subscript (value : Phrase) (indices : List Phrase) :
    (Phrase.subscript value indices).expr = .subscript value.expr (indexOf (exprs indices)) := by
  rw [Phrase.expr]
  cases exprs indices with
  | nil => rfl
  | cons first rest => cases rest <;> rfl

theorem Phrase.target_subscript (value : Phrase) (indices : List Phrase) :
    (Phrase.subscript value indices).target = .subscript value.expr (indexOf (exprs indices)) := by
  rw [Phrase.target]
  cases exprs indices with
  | nil => rfl
  | cons first rest => cases rest <;> rfl

theorem Phrase.expr_comprehension (kind : ComprehensionKind) {body : Phrase}
    (clauses : List Clause) (h : ∀ key value, body ≠ .pair key value) :
    (Phrase.comprehension kind body clauses).expr =
      .comprehension kind body.expr none (generators clauses).1 := by
  cases body <;> first
    | rfl
    | exact absurd rfl (h _ _)

theorem wiped_firstOr (kind : String) (items : List Expr) :
    (firstOr kind items).wiped = firstOr kind (items.map Expr.wiped) := by
  cases items <;> rfl

theorem wiped_starredFirst (kind : String) (items : List Expr) :
    (starredFirst kind items).wiped = starredFirst kind (items.map Expr.wiped) := by
  cases items <;> rfl

theorem map_wiped_pushLiteral (parts : List FStringPart) (text : String) :
    (pushLiteral parts text).map FStringPart.wiped = pushLiteral (parts.map FStringPart.wiped) "" := by
  unfold pushLiteral
  rw [List.getLast?_map]
  cases parts.getLast? with
  | none => simp [FStringPart.wiped]
  | some last => cases last <;> simp [FStringPart.wiped, List.map_dropLast]

theorem map_wiped_appendPiece (parts : List FStringPart) (piece : Expr) :
    (appendPiece parts piece).map FStringPart.wiped =
      appendPiece (parts.map FStringPart.wiped) piece.wiped := by
  cases piece <;> first
    | exact map_wiped_pushLiteral parts _
    | simp [appendPiece, Expr.wiped, FStringPart.wiped]

theorem map_wiped_foldl_appendPiece (pieces : List Expr) :
    ∀ parts : List FStringPart, (pieces.foldl appendPiece parts).map FStringPart.wiped =
      (pieces.map Expr.wiped).foldl appendPiece (parts.map FStringPart.wiped) := by
  induction pieces with
  | nil => exact fun _ => rfl
  | cons piece pieces ih =>
    intro parts
    rw [List.foldl_cons, ih, map_wiped_appendPiece, List.map_cons, List.foldl_cons]

theorem isStr_wiped (value : Expr) : value.wiped.isStr = value.isStr := by cases value <;> rfl

/-- Adjacent strings make a string up to its text. -/
theorem wiped_joinStrings {pieces pieces' : List Expr}
    (h : pieces'.map Expr.wiped = pieces.map Expr.wiped) :
    (joinStrings pieces').wiped = (joinStrings pieces).wiped := by
  have hall (pieces : List Expr) : pieces.all Expr.isStr = (pieces.map Expr.wiped).all Expr.isStr := by
    rw [List.all_map]
    exact congrArg _ (funext fun value => (isStr_wiped value).symm)
  have hparts := map_wiped_foldl_appendPiece pieces' []
  rw [h, ← map_wiped_foldl_appendPiece pieces []] at hparts
  unfold joinStrings
  rw [hall pieces', h, ← hall pieces]
  split
  · rfl
  · rw [Expr.wiped, Expr.wiped, wipedParts_eq, wipedParts_eq, hparts]

theorem map_wiped_addLiteral (text : String) (parts : List FStringPart) :
    (addLiteral text parts).map FStringPart.wiped = addLiteral "" (parts.map FStringPart.wiped) := by
  cases parts with
  | nil => rfl
  | cons part parts => cases part <;> rfl

/-- Targets that are the same up to texts have heads that are, or there are none. -/
theorem cases_of_map_wiped {items items' : List Target}
    (h : items'.map Target.wiped = items.map Target.wiped) :
    (items = [] ∧ items' = []) ∨ ∃ first rest first' rest', items = first :: rest ∧
      items' = first' :: rest' ∧ first'.wiped = first.wiped := by
  cases items with
  | nil => exact .inl ⟨rfl, List.map_eq_nil_iff.1 h⟩
  | cons first rest =>
    obtain ⟨first', rest', h', hfirst, -⟩ := List.map_eq_cons_iff.1 h
    exact .inr ⟨first, rest, first', rest', rfl, h', hfirst⟩

/-- Other line ends keep the kind of a phrase. -/
theorem Phrase.ctorIdx_crlf (phrase : Phrase) : phrase.crlf.ctorIdx = phrase.ctorIdx := by
  cases phrase <;> simp only [Phrase.crlf, Phrase.ctorIdx]

theorem Phrase.ne_of_ctorIdx {phrase other : Phrase} (h : phrase.ctorIdx ≠ other.ctorIdx) :
    phrase ≠ other :=
  fun he => h (congrArg Phrase.ctorIdx he)

/-- Other line ends make no phrase one of another kind. -/
theorem Phrase.crlf_ne {phrase other : Phrase} (h : phrase.ctorIdx ≠ other.ctorIdx) :
    phrase.crlf ≠ other :=
  Phrase.ne_of_ctorIdx (phrase.ctorIdx_crlf ▸ h)

theorem wiped_comprehension_other (kind : ComprehensionKind) {body : Phrase} {clauses : List Clause}
    (h : ∀ key value, body.ctorIdx ≠ (Phrase.pair key value).ctorIdx)
    (hbody : body.crlf.expr.wiped = body.expr.wiped)
    (hclauses : (generators (clauses.map Clause.crlf)).1.map Generator.wiped =
      (generators clauses).1.map Generator.wiped) :
    (Phrase.comprehension kind body clauses).crlf.expr.wiped =
      (Phrase.comprehension kind body clauses).expr.wiped := by
  rw [Phrase.crlf, Phrase.expr_comprehension _ _ fun key value => Phrase.crlf_ne (h key value),
    Phrase.expr_comprehension _ _ fun key value => Phrase.ne_of_ctorIdx (h key value), Expr.wiped,
    Expr.wiped, hbody, crlfClauses_eq, wipedGenerators_eq, wipedGenerators_eq, hclauses]

theorem wiped_entry_other {entry : Phrase} {rest : List Phrase}
    (h : ∀ key value, entry.ctorIdx ≠ (Phrase.pair key value).ctorIdx)
    (hentry : entry.crlf.expr.wiped = entry.expr.wiped)
    (hrest : (entryExprs (rest.map Phrase.crlf)).map wipedEntry = (entryExprs rest).map wipedEntry) :
    (entryExprs ((entry :: rest).map Phrase.crlf)).map wipedEntry =
      (entryExprs (entry :: rest)).map wipedEntry := by
  rw [List.map_cons, entryExprs, entryExprs, List.map_cons, List.map_cons, hrest]
  · simp only [wipedEntry, hentry]
  · exact fun key value => Phrase.ne_of_ctorIdx (h key value)
  · exact fun key value => Phrase.crlf_ne (h key value)

theorem wiped_positional_other {arg : Phrase} {rest : List Phrase}
    (h : ∀ name value, arg.ctorIdx ≠ (Phrase.keyword name value).ctorIdx)
    (harg : arg.crlf.expr.wiped = arg.expr.wiped)
    (hrest : (positional (rest.map Phrase.crlf)).map Expr.wiped =
      (positional rest).map Expr.wiped) :
    (positional ((arg :: rest).map Phrase.crlf)).map Expr.wiped =
      (positional (arg :: rest)).map Expr.wiped := by
  rw [List.map_cons, positional, positional, List.map_cons, List.map_cons, hrest, harg]
  · exact fun name value => Phrase.ne_of_ctorIdx (h name value)
  · exact fun name value => Phrase.crlf_ne (h name value)

theorem wiped_keywords_other {arg : Phrase} {rest : List Phrase}
    (h : ∀ name value, arg.ctorIdx ≠ (Phrase.keyword name value).ctorIdx)
    (hrest : (keywords (rest.map Phrase.crlf)).map wipedKeyword =
      (keywords rest).map wipedKeyword) :
    (keywords ((arg :: rest).map Phrase.crlf)).map wipedKeyword =
      (keywords (arg :: rest)).map wipedKeyword := by
  rw [List.map_cons, keywords, keywords, hrest]
  · exact fun name value => Phrase.ne_of_ctorIdx (h name value)
  · exact fun name value => Phrase.crlf_ne (h name value)

/-! ### Phrases -/

mutual

theorem Phrase.wiped_expr_crlf : ∀ phrase : Phrase, phrase.crlf.expr.wiped = phrase.expr.wiped
  | .continuation _ | .name _ | .integer _ | .float _ | .constant _ | .pair _ _ | .keyword _ _
  | .asPattern _ _ _ _ | .assignment _ _ _ | .augmented _ _ _ | .other _ => rfl
  | .string format raw parts => by
    have hparts := textParts_crlf format raw parts
    simp only [Phrase.crlf, crlfParts_eq, Phrase.expr]
    cases format with
    | true => simp only [if_true, Expr.wiped, wipedParts_eq, hparts]
    | false => rfl
  | .strings pieces => by
    rw [Phrase.crlf, crlfPhrases_eq, Phrase.expr, Phrase.expr, wiped_joinStrings (exprs_crlf pieces)]
  | .list items | .tuple items | .series items | .set items => by
    simp only [Phrase.crlf, crlfPhrases_eq, Phrase.expr, Expr.wiped, wipedExprs_eq, exprs_crlf items]
  | .dict entries => by
    simp only [Phrase.crlf, crlfPhrases_eq, Phrase.expr, Expr.wiped, wipedEntries_eq,
      entryExprs_crlf entries]
  | .parenthesized parts | .await parts => by
    simp only [Phrase.crlf, crlfPhrases_eq, Phrase.expr, wiped_firstOr, exprs_crlf parts]
  | .boolean _ left right | .binary _ left right => by
    simp only [Phrase.crlf, Phrase.expr, Expr.wiped, left.wiped_expr_crlf, right.wiped_expr_crlf]
  | .not operand | .unary _ operand => by
    simp only [Phrase.crlf, Phrase.expr, Expr.wiped, operand.wiped_expr_crlf]
  | .comparison broken left links => by
    simp only [Phrase.crlf, crlfLinks_eq, Phrase.expr]
    cases broken with
    | true => rfl
    | false =>
      simp only [Bool.false_eq_true, if_false, Expr.wiped, wipedLinks_eq, left.wiped_expr_crlf,
        linkExprs_crlf links]
  | .conditional broken body test orelse => by
    simp only [Phrase.crlf, Phrase.expr]
    cases broken with
    | true => rfl
    | false =>
      simp only [Bool.false_eq_true, if_false, Expr.wiped, body.wiped_expr_crlf, test.wiped_expr_crlf,
        orelse.wiped_expr_crlf]
  | .call func args => by
    simp only [Phrase.crlf, crlfPhrases_eq, Phrase.expr, Expr.wiped, wipedExprs_eq, wipedKeywords_eq,
      func.wiped_expr_crlf, positional_crlf args, keywords_crlf args]
  | .attribute value attr => by
    simp only [Phrase.crlf, Phrase.expr, Expr.wiped, value.wiped_expr_crlf]
  | .subscript value indices => by
    simp only [Phrase.crlf, crlfPhrases_eq, Phrase.expr_subscript, Expr.wiped, wiped_indexOf,
      value.wiped_expr_crlf, exprs_crlf indices]
  | .slice lower upper step => by
    simp only [Phrase.crlf, crlfPhrases_eq, Phrase.expr, lastOf?, Expr.wiped, wipedExpr?_eq,
      ← List.getLast?_map, exprs_crlf lower, exprs_crlf upper, exprs_crlf step]
  | .comprehension kind body clauses => by
    have hclauses := (generators_crlf clauses).1
    have hbody := body.wiped_expr_crlf
    cases body with
    | pair key value =>
      simp only [Phrase.crlf, crlfClauses_eq, Phrase.expr, Expr.wiped, wipedExpr?_eq, Option.map_some,
        wipedGenerators_eq, key.wiped_expr_crlf, value.wiped_expr_crlf, hclauses]
    | _ =>
      exact wiped_comprehension_other kind (fun _ _ => by simp [Phrase.ctorIdx]) hbody hclauses
  | .lambda params body => by
    simp only [Phrase.crlf, crlfParameters_eq, Phrase.expr, Expr.wiped, wipedParams_eq,
      body.wiped_expr_crlf, paramsOf_crlf params]
  | .named name value => by
    simp only [Phrase.crlf, Phrase.expr, Expr.wiped, value.wiped_expr_crlf]
  | .yield parts => by
    simp only [Phrase.crlf, crlfPhrases_eq, Phrase.expr, Expr.wiped, wipedExpr?_eq, ← List.head?_map,
      exprs_crlf parts]
  | .splat parts | .doubleSplat parts | .parenthesizedSplat parts => by
    simp only [Phrase.crlf, crlfPhrases_eq, Phrase.expr, wiped_starredFirst, exprs_crlf parts]

theorem exprs_crlf : ∀ items : List Phrase,
    (exprs (items.map Phrase.crlf)).map Expr.wiped = (exprs items).map Expr.wiped
  | [] => rfl
  | item :: rest => by
    simp only [List.map_cons, exprs, item.wiped_expr_crlf, exprs_crlf rest]

theorem entryExprs_crlf : ∀ entries : List Phrase,
    (entryExprs (entries.map Phrase.crlf)).map wipedEntry = (entryExprs entries).map wipedEntry
  | [] => rfl
  | entry :: rest => by
    have hrest := entryExprs_crlf rest
    have hentry := entry.wiped_expr_crlf
    cases entry with
    | pair key value =>
      simp only [List.map_cons, Phrase.crlf, entryExprs, wipedEntry, Option.map_some,
        key.wiped_expr_crlf, value.wiped_expr_crlf, hrest]
    | _ => exact wiped_entry_other (fun _ _ => by simp [Phrase.ctorIdx]) hentry hrest

theorem linkExprs_crlf : ∀ links : List (CmpOp × Phrase),
    (linkExprs (links.map crlfLink)).map wipedLink = (linkExprs links).map wipedLink
  | [] => rfl
  | (op, operand) :: rest => by
    simp only [List.map_cons, crlfLink, linkExprs, wipedLink, operand.wiped_expr_crlf,
      linkExprs_crlf rest]

theorem positional_crlf : ∀ args : List Phrase,
    (positional (args.map Phrase.crlf)).map Expr.wiped = (positional args).map Expr.wiped
  | [] => rfl
  | arg :: rest => by
    have hrest := positional_crlf rest
    have harg := arg.wiped_expr_crlf
    cases arg with
    | keyword name value => simp only [List.map_cons, Phrase.crlf, positional, hrest]
    | _ => exact wiped_positional_other (fun _ _ => by simp [Phrase.ctorIdx]) harg hrest

theorem keywords_crlf : ∀ args : List Phrase,
    (keywords (args.map Phrase.crlf)).map wipedKeyword = (keywords args).map wipedKeyword
  | [] => rfl
  | arg :: rest => by
    have hrest := keywords_crlf rest
    cases arg with
    | keyword name value =>
      simp only [List.map_cons, Phrase.crlf, keywords, wipedKeyword, value.wiped_expr_crlf, hrest]
    | _ => exact wiped_keywords_other (fun _ _ => by simp [Phrase.ctorIdx]) hrest

theorem textParts_crlf (format raw : Bool) : ∀ parts : List TextPart,
    (textParts format raw (parts.map TextPart.crlf)).map FStringPart.wiped =
      (textParts format raw parts).map FStringPart.wiped
  | [] => rfl
  | .content text :: rest => by
    rw [List.map_cons, TextPart.crlf, textParts_content, textParts_content, map_wiped_addLiteral,
      map_wiped_addLiteral, textParts_crlf format raw rest]
  | .field value conversion spec :: rest => by
    simp only [List.map_cons, TextPart.crlf, textParts, FStringPart.wiped, value.wiped_expr_crlf,
      textParts_crlf format raw rest, Option.map_map, Function.comp_def]

theorem generators_crlf : ∀ clauses : List Clause,
    (generators (clauses.map Clause.crlf)).1.map Generator.wiped =
        (generators clauses).1.map Generator.wiped ∧
      (generators (clauses.map Clause.crlf)).2.map Expr.wiped =
        (generators clauses).2.map Expr.wiped
  | [] => ⟨rfl, rfl⟩
  | .forIn target iter :: rest => by
    obtain ⟨hfound, hconditions⟩ := generators_crlf rest
    simp only [List.map_cons, Clause.crlf, generators, Generator.wiped, wipedExprs_eq, hfound,
      hconditions, target.wiped_target_crlf, iter.wiped_expr_crlf, List.map_nil, and_self]
  | .condition parts :: rest => by
    obtain ⟨hfound, hconditions⟩ := generators_crlf rest
    simp only [List.map_cons, Clause.crlf, crlfPhrases_eq, generators, hfound, hconditions,
      wiped_firstOr, exprs_crlf parts, and_self]

theorem paramsOf_crlf : ∀ params : List Parameter,
    (paramsOf (params.map Parameter.crlf)).map Param.wiped = (paramsOf params).map Param.wiped
  | [] => rfl
  | .plain text :: rest => by
    simp only [List.map_cons, Parameter.crlf, paramsOf, Param.wiped, paramsOf_crlf rest]
  | .defaulted text value :: rest => by
    simp only [List.map_cons, Parameter.crlf, paramsOf, Param.wiped, wipedExpr?_eq, Option.map_some,
      value.wiped_expr_crlf, paramsOf_crlf rest]
  | .unnamed :: rest => by
    simp only [List.map_cons, Parameter.crlf, paramsOf, paramsOf_crlf rest]

theorem Phrase.wiped_target_crlf : ∀ phrase : Phrase,
    phrase.crlf.target.wiped = phrase.target.wiped
  | .list items | .tuple items | .series items => by
    simp only [Phrase.crlf, crlfPhrases_eq, Phrase.target, Target.wiped, wipedTargets_eq,
      targetsOf_crlf items]
  | .parenthesized parts => by
    have hparts := targetsOf_crlf parts
    simp only [Phrase.crlf, crlfPhrases_eq, Phrase.target]
    obtain ⟨h, h'⟩ | ⟨first, _, first', _, h, h', hfirst⟩ := cases_of_map_wiped hparts
    · rw [h, h']
    · rw [h, h']
      exact hfirst
  | .subscript value indices => by
    simp only [Phrase.crlf, crlfPhrases_eq, Phrase.target_subscript, Target.wiped, wiped_indexOf,
      value.wiped_expr_crlf, exprs_crlf indices]
  | .attribute value attr => by
    simp only [Phrase.crlf, Phrase.target, Target.wiped, value.wiped_expr_crlf]
  | .splat parts => by
    have hparts := targetsOf_crlf parts
    simp only [Phrase.crlf, crlfPhrases_eq, Phrase.target]
    obtain ⟨h, h'⟩ | ⟨first, _, first', _, h, h', hfirst⟩ := cases_of_map_wiped hparts
    · rw [h, h']
    · rw [h, h']
      exact congrArg Target.starred hfirst
  | .continuation _ | .name _ | .integer _ | .float _ | .constant _ | .string _ _ _ | .strings _
  | .set _ | .dict _ | .pair _ _ | .boolean _ _ _ | .not _ | .unary _ _ | .await _ | .binary _ _ _
  | .comparison _ _ _ | .conditional _ _ _ _ | .call _ _ | .keyword _ _ | .slice _ _ _
  | .comprehension _ _ _ | .lambda _ _ | .named _ _ | .yield _ | .doubleSplat _
  | .parenthesizedSplat _ | .asPattern _ _ _ _ | .assignment _ _ _ | .augmented _ _ _
  | .other _ => rfl

theorem targetsOf_crlf : ∀ items : List Phrase,
    (targetsOf (items.map Phrase.crlf)).map Target.wiped = (targetsOf items).map Target.wiped
  | [] => rfl
  | item :: rest => by
    simp only [List.map_cons, targetsOf, item.wiped_target_crlf, targetsOf_crlf rest]

end

/-! ### Simple statements -/

theorem Phrase.chain_crlf : ∀ phrase : Phrase,
    phrase.crlf.chain.1.map Target.wiped = phrase.chain.1.map Target.wiped ∧
      phrase.crlf.chain.2.map Expr.wiped = phrase.chain.2.map Expr.wiped
  | .assignment target kind (some value) => by
    obtain ⟨htargets, hvalue⟩ := value.chain_crlf
    simp only [Phrase.crlf, crlfPhrase?_eq, Option.map_some, Phrase.chain, List.map_cons, htargets,
      target.wiped_target_crlf]
    exact ⟨trivial, hvalue⟩
  | .assignment target kind none => by
    simp only [Phrase.crlf, crlfPhrase?_eq, Option.map_none, Phrase.chain, List.map_cons,
      List.map_nil, target.wiped_target_crlf, and_self]
  | .continuation _ | .name _ | .integer _ | .float _ | .constant _ | .string _ _ _ | .strings _
  | .list _ | .tuple _ | .series _ | .set _ | .dict _ | .pair _ _ | .parenthesized _
  | .boolean _ _ _ | .not _ | .unary _ _ | .await _ | .binary _ _ _ | .comparison _ _ _
  | .conditional _ _ _ _ | .call _ _ | .keyword _ _ | .attribute _ _ | .subscript _ _
  | .slice _ _ _ | .comprehension _ _ _ | .lambda _ _ | .named _ _ | .yield _ | .splat _
  | .doubleSplat _ | .parenthesizedSplat _ | .asPattern _ _ _ _ | .augmented _ _ _ | .other _ =>
    ⟨rfl, congrArg some (Phrase.wiped_expr_crlf _)⟩

theorem Phrase.statement_crlf (phrase : Phrase) :
    phrase.crlf.statement.wiped = phrase.statement.wiped := by
  have hexpr := phrase.wiped_expr_crlf
  cases phrase with
  | assignment target kind value =>
    cases kind with
    | some kind =>
      simp only [Phrase.crlf, crlfPhrase?_eq, Option.map_some, Phrase.statement, StmtKind.wiped,
        target.wiped_target_crlf, kind.wiped_expr_crlf, Option.map_map]
      congr 1
      cases value with
      | none => rfl
      | some value => exact congrArg some value.wiped_expr_crlf
    | none =>
      have hchain := (Phrase.assignment target none value).chain_crlf
      simp only [Phrase.crlf, crlfPhrase?_eq, Option.map_none, Phrase.statement] at hchain ⊢
      generalize (Phrase.assignment target none value).chain = found at hchain ⊢
      generalize (Phrase.assignment target.crlf none (value.map Phrase.crlf)).chain = found'
        at hchain ⊢
      obtain ⟨targets, last⟩ := found
      obtain ⟨targets', last'⟩ := found'
      obtain ⟨htargets, hlast⟩ := hchain
      cases last with
      | none =>
        obtain rfl : last' = none := Option.map_eq_none_iff.1 hlast
        rfl
      | some last =>
        obtain ⟨last', rfl, hlast'⟩ := Option.map_eq_some_iff.1 hlast
        dsimp only at htargets ⊢
        rw [StmtKind.wiped, StmtKind.wiped, htargets, hlast']
  | augmented target op value =>
    simp only [Phrase.crlf, Phrase.statement, StmtKind.wiped, target.wiped_target_crlf,
      value.wiped_expr_crlf]
  | _ => exact congrArg StmtKind.expr hexpr

theorem expressionStmt_crlf (parts : List Phrase) :
    (expressionStmt (parts.map Phrase.crlf)).wiped = (expressionStmt parts).wiped := by
  have hseveral := exprs_crlf parts
  match parts with
  | [] => rfl
  | [single] => exact single.statement_crlf
  | first :: second :: rest =>
    simp only [List.map_cons] at hseveral
    simp only [List.map_cons, expressionStmt, StmtKind.wiped, Expr.wiped, wipedExprs_eq, hseveral]

/-- The items of a tuple, or the expression alone. -/
def spread : Expr → List Expr
  | .tuple items => items
  | single => [single]

theorem map_wiped_spread (value : Expr) : (spread value).map Expr.wiped = spread value.wiped := by
  cases value <;> simp [spread, Expr.wiped]

theorem deletedExprs_eq (parts : List Phrase) : deletedExprs parts = (exprs parts).flatMap spread := by
  unfold deletedExprs
  refine List.flatMap_congr fun item _ => ?_
  cases item <;> rfl

theorem deletedExprs_crlf (parts : List Phrase) :
    (deletedExprs (parts.map Phrase.crlf)).map Expr.wiped = (deletedExprs parts).map Expr.wiped := by
  have hspread (items : List Expr) :
      (items.flatMap spread).map Expr.wiped = (items.map Expr.wiped).flatMap spread := by
    rw [List.map_flatMap, List.flatMap_map]
    exact List.flatMap_congr fun item _ => map_wiped_spread item
  rw [deletedExprs_eq, deletedExprs_eq, hspread, hspread, exprs_crlf]

theorem withItem_crlf (item : Phrase) : (withItem item.crlf).wiped = (withItem item).wiped := by
  have hitem := item.wiped_expr_crlf
  cases item with
  | asPattern value between target text =>
    simp only [Phrase.crlf, withItem, WithItem.wiped, value.wiped_expr_crlf, Option.map_some,
      target.wiped_target_crlf]
  | _ => exact congrArg (fun context => WithItem.mk context none) hitem

theorem handlerHead_single {kind : Phrase} (h : ∀ value between target text,
    kind.ctorIdx ≠ (Phrase.asPattern value between target text).ctorIdx) (text : String) :
    handlerHead [(kind, text)] = (some kind.expr, none) := by
  rw [handlerHead]
  exact fun value between target text => Phrase.ne_of_ctorIdx (h value between target text)

theorem handlerHead_several (kind : Phrase × String) (other : Phrase × String)
    (rest : List (Phrase × String)) :
    handlerHead (kind :: other :: rest) = (some kind.1.expr, some other.2) := by
  rw [handlerHead]

/-- A clause that gives no name to what it handles gives none with other line ends. -/
theorem handlerHead_crlf_single {kind : Phrase} (h : ∀ value between target text,
    kind.ctorIdx ≠ (Phrase.asPattern value between target text).ctorIdx) (text : String) :
    (handlerHead [(kind.crlf, crlfText text)]).1.map Expr.wiped =
        (handlerHead [(kind, text)]).1.map Expr.wiped ∧
      (handlerHead [(kind.crlf, crlfText text)]).2.map (fun _ => "") =
        (handlerHead [(kind, text)]).2.map fun _ => "" := by
  rw [handlerHead_single h, handlerHead_single (kind.ctorIdx_crlf ▸ h)]
  exact ⟨congrArg some kind.wiped_expr_crlf, rfl⟩

theorem handlerHead_crlf (parts : List (Phrase × String)) :
    (handlerHead (parts.map crlfHandled)).1.map Expr.wiped = (handlerHead parts).1.map Expr.wiped ∧
      (handlerHead (parts.map crlfHandled)).2.map (fun _ => "") =
        (handlerHead parts).2.map fun _ => "" := by
  match parts with
  | [] => exact ⟨rfl, rfl⟩
  | [(kind, text)] =>
    cases kind with
    | asPattern value between target text => exact ⟨congrArg some value.wiped_expr_crlf, rfl⟩
    | _ => exact handlerHead_crlf_single (fun _ _ _ _ => by simp [Phrase.ctorIdx]) text
  | kind :: other :: rest =>
    rw [List.map_cons, List.map_cons, handlerHead_several, handlerHead_several]
    exact ⟨congrArg some kind.1.wiped_expr_crlf, rfl⟩

theorem knownName_crlf (name : String) : knownName (crlfText name) = knownName name := by
  have hrandom : crlfText name = "random" ↔ name = "random" := crlfText_eq_iff (by decide)
  have hchoice : crlfText name = "choice" ↔ name = "choice" := crlfText_eq_iff (by decide)
  unfold knownName
  by_cases h : name = "random" ∨ name = "choice"
  · rw [if_pos h, if_pos (h.imp hrandom.2 hchoice.2)]
    exact h.elim (fun h => (hrandom.2 h).trans h.symm) fun h => (hchoice.2 h).trans h.symm
  · rw [if_neg h, if_neg fun h' => h (h'.imp hrandom.1 hchoice.1)]

theorem map_wiped_importNames (names : List ImportName) :
    (names.map ImportName.crlf).map ImportName.wiped = names.map ImportName.wiped := by
  rw [List.map_map]
  refine List.map_congr_left fun imported _ => ?_
  simp only [Function.comp_apply, ImportName.crlf, ImportName.wiped, knownName_crlf]

/-! ### Compound statements -/

theorem head?_exprs_crlf (parts : List Phrase) :
    (exprs (parts.map Phrase.crlf)).head?.map Expr.wiped = (exprs parts).head?.map Expr.wiped := by
  rw [← List.head?_map, ← List.head?_map, exprs_crlf]

/-- Later statements if there are any, or else others. -/
def laterOr (later body : List Stmt) : List Stmt :=
  match later with
  | [] => body
  | later => later

theorem map_wiped_laterOr (later body : List Stmt) :
    (laterOr later body).map Stmt.wiped = laterOr (later.map Stmt.wiped) (body.map Stmt.wiped) := by
  cases later <;> rfl

theorem elseStmts_else (body : List Sentence) (rest : List Rescue) :
    elseStmts (.else body :: rest) = laterOr (elseStmts rest) (stmts body) := by
  rw [elseStmts]
  cases elseStmts rest <;> rfl

theorem finallyStmts_finally (body : List Sentence) (rest : List Rescue) :
    finallyStmts (.finally body :: rest) = laterOr (finallyStmts rest) (stmts body) := by
  rw [finallyStmts]
  cases finallyStmts rest <;> rfl

mutual

theorem Sentence.wiped_stmt_crlf : ∀ sentence : Sentence,
    sentence.crlf.stmt.wiped = sentence.stmt.wiped
  | .mk form start => by
    rw [Sentence.crlf, Sentence.stmt, Sentence.stmt, Stmt.wiped, Stmt.wiped,
      form.wiped_kind_crlf rfl]

theorem stmts_crlf : ∀ block : List Sentence,
    (stmts (block.map Sentence.crlf)).map Stmt.wiped = (stmts block).map Stmt.wiped
  | [] => rfl
  | sentence :: rest => by
    simp only [List.map_cons, stmts, sentence.wiped_stmt_crlf, stmts_crlf rest]

theorem Form.wiped_kind_crlf {decorators decorators' : List Expr}
    (hd : decorators'.map Expr.wiped = decorators.map Expr.wiped) :
    ∀ form : Form, (form.crlf.kind decorators').wiped = (form.kind decorators).wiped
  | .continuation | .legacyPrint | .legacyExec | .importFuture | .pass | .break | .continue
  | .typeAlias => rfl
  | .expression parts => by
    rw [Form.crlf, Form.kind, Form.kind, expressionStmt_crlf]
  | .assert parts => by
    have hparts := exprs_crlf parts
    simp only [Form.crlf, Form.kind]
    cases h : exprs parts with
    | nil =>
      rw [h, List.map_nil, List.map_eq_nil_iff] at hparts
      rw [hparts]
    | cons test rest =>
      rw [h, List.map_cons] at hparts
      obtain ⟨test', rest', h', htest, hrest⟩ := List.map_eq_cons_iff.1 hparts
      rw [h']
      simp only [StmtKind.wiped, htest, ← List.head?_map, hrest]
  | .return parts => by
    simp only [Form.crlf, Form.kind, StmtKind.wiped, head?_exprs_crlf]
  | .delete parts => by
    simp only [Form.crlf, Form.kind, StmtKind.wiped, deletedExprs_crlf]
  | .raise parts => by
    simp only [Form.crlf, Form.kind, StmtKind.wiped, head?_exprs_crlf]
  | .imports names => by
    simp only [Form.crlf, Form.kind, StmtKind.wiped, map_wiped_importNames]
  | .importFrom module names wildcard => by
    simp only [Form.crlf, Form.kind, StmtKind.wiped, knownName_crlf, map_wiped_importNames]
  | .global names | .nonlocal names => by
    simp only [Form.crlf, Form.kind, StmtKind.wiped, List.map_map, Function.comp_def]
  | .if test body further => by
    simp only [Form.crlf, crlfBlock_eq, crlfBranches_eq, Form.kind, StmtKind.wiped, wipedStmts_eq,
      test.wiped_expr_crlf, stmts_crlf body, branchStmts_crlf further]
  | .while test body orelse => by
    simp only [Form.crlf, crlfBlock_eq, Form.kind, StmtKind.wiped, wipedStmts_eq,
      test.wiped_expr_crlf, stmts_crlf body, stmts_crlf orelse]
  | .for target iter body orelse => by
    simp only [Form.crlf, crlfBlock_eq, Form.kind, StmtKind.wiped, wipedStmts_eq,
      target.wiped_target_crlf, iter.wiped_expr_crlf, stmts_crlf body, stmts_crlf orelse]
  | .try body clauses => by
    simp only [Form.crlf, crlfBlock_eq, crlfRescues_eq, Form.kind, StmtKind.wiped, wipedStmts_eq,
      wipedHandlers_eq, stmts_crlf body, handlers_crlf clauses, elseStmts_crlf clauses,
      finallyStmts_crlf clauses]
  | .with items body => by
    simp only [Form.crlf, crlfBlock_eq, Form.kind, StmtKind.wiped, wipedStmts_eq, List.map_map,
      Function.comp_def, withItem_crlf, stmts_crlf body]
  | .define name params body => by
    simp only [Form.crlf, crlfBlock_eq, Form.kind, StmtKind.wiped, wipedStmts_eq, paramsOf_crlf, hd,
      stmts_crlf body]
  | .class name args body => by
    have hkeywords (keywords : List (String × Expr)) : (keywords.map (·.2)).map Expr.wiped =
        (keywords.map wipedKeyword).map (·.2) := by
      rw [List.map_map, List.map_map]
      rfl
    simp only [Form.crlf, crlfBlock_eq, Form.kind, StmtKind.wiped, wipedStmts_eq, List.map_append,
      hkeywords, positional_crlf, keywords_crlf, hd, stmts_crlf body]
  | .decorated before definition => by
    rw [Form.crlf, Form.kind, Form.kind]
    refine definition.wiped_kind_crlf ?_
    rw [List.filterMap_map, List.map_filterMap, List.map_filterMap]
    exact List.filterMap_congr fun parts _ => head?_exprs_crlf parts
  | .match subjects cases => by
    simp only [Form.crlf, crlfCases_eq, Form.kind, StmtKind.wiped, wipedCases_eq, exprs_crlf,
      matchCases_crlf cases]

theorem branchStmts_crlf : ∀ further : List Branch,
    (branchStmts (further.map Branch.crlf)).map Stmt.wiped = (branchStmts further).map Stmt.wiped
  | [] => rfl
  | .elif start test body :: rest => by
    simp only [List.map_cons, List.map_nil, Branch.crlf, crlfBlock_eq, branchStmts, Stmt.wiped,
      StmtKind.wiped, wipedStmts_eq, test.wiped_expr_crlf, stmts_crlf body, branchStmts_crlf rest]
  | .else body :: rest => by
    simp only [List.map_cons, Branch.crlf, crlfBlock_eq, branchStmts, stmts_crlf body]

theorem handlers_crlf : ∀ clauses : List Rescue,
    (handlers (clauses.map Rescue.crlf)).map Handler.wiped = (handlers clauses).map Handler.wiped
  | [] => rfl
  | .except start parts body :: rest => by
    obtain ⟨hkind, hname⟩ := handlerHead_crlf parts
    simp only [List.map_cons, Rescue.crlf, crlfBlock_eq, handlers, Handler.wiped, wipedStmts_eq,
      hkind, hname, stmts_crlf body, handlers_crlf rest]
  | .exceptGroup body :: rest | .else body :: rest | .finally body :: rest => by
    simp only [List.map_cons, Rescue.crlf, handlers, handlers_crlf rest]

theorem elseStmts_crlf : ∀ clauses : List Rescue,
    (elseStmts (clauses.map Rescue.crlf)).map Stmt.wiped = (elseStmts clauses).map Stmt.wiped
  | [] => rfl
  | .else body :: rest => by
    rw [List.map_cons, Rescue.crlf, crlfBlock_eq, elseStmts_else, elseStmts_else,
      map_wiped_laterOr, map_wiped_laterOr, elseStmts_crlf rest, stmts_crlf body]
  | .except _ _ _ :: rest | .exceptGroup _ :: rest | .finally _ :: rest => by
    simp only [List.map_cons, Rescue.crlf, elseStmts, elseStmts_crlf rest]

theorem finallyStmts_crlf : ∀ clauses : List Rescue,
    (finallyStmts (clauses.map Rescue.crlf)).map Stmt.wiped =
      (finallyStmts clauses).map Stmt.wiped
  | [] => rfl
  | .finally body :: rest => by
    rw [List.map_cons, Rescue.crlf, crlfBlock_eq, finallyStmts_finally, finallyStmts_finally,
      map_wiped_laterOr, map_wiped_laterOr, finallyStmts_crlf rest, stmts_crlf body]
  | .except _ _ _ :: rest | .exceptGroup _ :: rest | .else _ :: rest => by
    simp only [List.map_cons, Rescue.crlf, finallyStmts, finallyStmts_crlf rest]

theorem matchCases_crlf : ∀ cases : List Case,
    (matchCases (cases.map Case.crlf)).map MatchCase.wiped = (matchCases cases).map MatchCase.wiped
  | [] => rfl
  | .mk guard body :: rest => by
    simp only [List.map_cons, Case.crlf, crlfBlock_eq, matchCases, MatchCase.wiped, wipedStmts_eq,
      stmts_crlf body, matchCases_crlf rest]
    cases guard with
    | none => rfl
    | some parts => simp only [Option.map_some, Option.bind_some, head?_exprs_crlf]

end

/-- The trees of a text with line ends of either kind are the same up to texts. -/
theorem Module.ofBlock_crlf (block : Block) :
    (Module.ofBlock (block.map Sentence.crlf)).wiped = (Module.ofBlock block).wiped :=
  congrArg Module.mk (stmts_crlf block)

end Marksheet.Syntax
