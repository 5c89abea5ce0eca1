import Marksheet.Proofs.Grammar.Assignments
import Marksheet.Proofs.Grammar.Compound
import Marksheet.Proofs.Grammar.Imports

/-!
# Programs in print are read

Every statement that can be written is read from its lines, whatever the style. The
induction follows the printing: statements, blocks, else-branches and handlers. With it
goes how the lines begin, since the first token of the next line tells whether a
statement goes on.
-/

namespace Marksheet.Grammar

open Marksheet.Source Marksheet.Syntax

/-! ### How lines begin -/

/-- No clause begins like an expression. -/
theorem ne_clauseWord {shape : Shape} (h : 0 < headStrength shape) :
    ∀ word ∈ clauseWords, shape ≠ .word word := by
  rintro word hm rfl
  have hnone : ∀ word ∈ clauseWords, headStrength (.word word) = 0 := by decide
  rw [hnone word hm] at h
  exact Nat.lt_irrefl 0 h

/-- A line that begins with an expression begins no clause. -/
theorem beginsWithout_of_readable (margin : Margin) {pieces : List Piece} {shapes more : List Shape}
    {phrase : Phrase} {strength : Nat} (h : Readable strength shapes phrase) (hs : 0 < strength)
    (hp : shapesOf pieces = shapes ++ more) :
    BeginsWithout clauseWords margin.width [⟨margin, pieces⟩] := by
  obtain ⟨shape, shapes, rfl, hstrong⟩ := h.opening.exists_cons
  exact .cons ⟨margin, pieces⟩ hp (ne_clauseWord (hs.trans_le hstrong)) []

/-- A line that begins with another word begins no clause. -/
theorem beginsWithout_of_word (margin : Margin) {word : String} (h : word ∉ clauseWords)
    (more : List Piece) :
    BeginsWithout clauseWords margin.width [⟨margin, close (.word word) :: more⟩] := by
  refine .cons ⟨margin, close (.word word) :: more⟩ (shapesOf_cons _ _) (fun other hm he => ?_) []
  obtain rfl : word = other := congrArg Prod.snd he
  exact h hm

theorem width_lt_deeper (style : Style) (margin : Margin) :
    margin.width < (style.deeper margin).width := by
  have hpos (blank : Blank) : 0 < blank.width := by cases blank <;> decide
  have hfirst := hpos (style.step []).1
  rw [Style.deeper, Margin.width, Margin.width, List.map_append, List.sum_append, List.map_cons,
    List.sum_cons]
  omega

/-! ### Simple statements -/

/-- What stands alone is read as the expression, and it begins no statement of another kind. -/
theorem alone_reads (extra : Redundance) {e : Expr} (h : e.isWritable = true) :
    Reads e 1 (alone extra e) ∧ startsPlainly (shapesOf (alone extra e)) = true := by
  have hread := printed_reads extra h
  rw [alone]
  split
  · rename_i hplain
    exact ⟨hread, hplain⟩
  · obtain ⟨phrase, he, hreadable⟩ := enclosed_reads hread 0
    refine ⟨⟨phrase, he, hreadable.mono Nat.one_pos (by decide)⟩, ?_⟩
    rw [shapesOf_enclosed]
    rfl

/-- Targets that are names have their names. -/
theorem exists_names {targets : List Target} (h : targets.all Target.isName = true) :
    ∃ names : List String, targets = names.map .name ∧
      ∀ name ∈ names, reservedWords.contains name = false := by
  induction targets with
  | nil => exact ⟨[], rfl, nofun⟩
  | cons target targets ih =>
    rw [List.all_cons, Bool.and_eq_true] at h
    obtain ⟨names, rfl, hnames⟩ := ih h.2
    cases target with
    | name text =>
      have htext := h.1
      rw [Target.isName, isName, Bool.and_eq_true, Bool.not_eq_true'] at htext
      exact ⟨text :: names, rfl, List.forall_mem_cons.mpr ⟨htext.2, hnames⟩⟩
    | _ => cases h.1

/-- The lines of a statement with a margin are read as the statement. A conditional is a branch of
another one as well. -/
structure ReadsKind (style : Style) (margin : Margin) (kind : StmtKind) : Prop where
  begins : BeginsWithout clauseWords margin.width (kindLines style margin "if" kind)
  nonempty : kindLines style margin "if" kind ≠ []
  statement : ReadsStatement (kindLines style margin "if" kind) margin.width kind
  branch : ∀ test body orelse, kind = .if test body orelse → ∀ line,
    ReadsBranches (kindLines style margin "elif" kind) margin.width [.mk kind line]

section

variable {style : Style} {margin : Margin} {kind : StmtKind} {pieces : List Piece}
  (hif : ∀ test body orelse, kind ≠ .if test body orelse)

include hif

theorem ReadsKind.of_line (he : kindLines style margin "if" kind = [⟨margin, pieces⟩])
    (hb : BeginsWithout clauseWords margin.width [⟨margin, pieces⟩]) (h : ReadsLine pieces kind) :
    ReadsKind style margin kind where
  begins := he ▸ hb
  nonempty := he ▸ List.cons_ne_nil _ _
  statement := he ▸ readsStatement_of_line h margin
  branch test body orelse hkind := absurd hkind (hif test body orelse)

theorem ReadsKind.of_header {word : String} {lines : List Line}
    (he : kindLines style margin "if" kind = ⟨margin, header word pieces⟩ :: lines)
    (hw : word ∉ clauseWords)
    (h : ReadsStatement (⟨margin, header word pieces⟩ :: lines) margin.width kind) :
    ReadsKind style margin kind where
  begins := he ▸ beginsWithout_header hw margin pieces lines
  nonempty := he ▸ List.cons_ne_nil _ _
  statement := he ▸ h
  branch test body orelse hkind := absurd hkind (hif test body orelse)

end

section

variable (style : Style) (margin : Margin)

theorem expr_reads {value : Expr} (h : value.isWritable = true) :
    ReadsKind style margin (.expr value) := by
  obtain ⟨hread, hplain⟩ := alone_reads (style.parens 0) h
  refine .of_line nofun rfl ?_ (expr_readsLine hread hplain)
  obtain ⟨phrase, -, hreadable⟩ := hread
  exact beginsWithout_of_readable margin hreadable Nat.one_pos (List.append_nil _).symm

theorem assign_reads {targets : List Target} {value : Expr} (hne : targets ≠ [])
    (ht : targets.all Target.isName = true) (h : value.isWritable = true) :
    ReadsKind style margin (.assign targets value) := by
  obtain ⟨names, rfl, hnames⟩ := exists_names ht
  cases names with
  | nil => exact absurd rfl hne
  | cons name names =>
    refine .of_line nofun rfl ?_ (assign_readsLine (printed_reads _ h) name names hnames)
    exact beginsWithout_of_readable margin (.name (hnames name List.mem_cons_self)) (by decide)
      (shapesOf_assigned _ _ _)

theorem augAssign_reads {target : Target} {value : Expr} (ht : target.isWritable = true)
    (hp : (target.isName || startsPlainly (shapesOf target.pieces)) = true)
    (h : value.isWritable = true) (op : BinOp) :
    ReadsKind style margin (.augAssign target op value) := by
  refine .of_line nofun rfl ?_ (augAssign_readsLine (printed_reads _ h) ht hp op)
  obtain ⟨phrase, hreadable, -, -⟩ := target_reads target ht
  exact beginsWithout_of_readable margin hreadable (by decide) (shapesOf_append _ _)

/-- A word alone is a statement. -/
theorem word_reads {word : String} {form : Form} (hw : word ∈ simpleWords)
    (hif : ∀ test body orelse, form.kind [] ≠ .if test body orelse)
    (he : kindLines style margin "if" (form.kind []) = [⟨margin, [close (.word word)]⟩])
    (hk : ∀ n indent, keywordStatement? n indent word = some fun tokens => .ok (form, tokens))
    (hl : ∀ start, legacyInForm? start form = none) : ReadsKind style margin (form.kind []) := by
  have hno : ∀ word ∈ simpleWords, word ∉ clauseWords := by decide
  exact .of_line hif he (beginsWithout_of_word margin (hno word hw) []) (word_readsLine hw hk hl)

theorem return_reads {value : Option Expr} (h : value.all Expr.isWritable = true) :
    ReadsKind style margin (.return value) := by
  cases value with
  | none =>
    exact .of_line nofun rfl (beginsWithout_of_word margin (by decide) [])
      (@return_readsLine none [] nofun fun _ => rfl)
  | some value =>
    refine .of_line nofun rfl (beginsWithout_of_word margin (by decide) _)
      (return_readsLine (fun e he => ?_) nofun)
    obtain rfl := Option.some.inj he
    exact printed_reads _ h

theorem imports_reads {names : List ImportName} (hne : names ≠ []) :
    ReadsKind style margin (.imports names) := by
  obtain ⟨first, names, rfl⟩ := List.exists_cons_of_ne_nil hne
  exact .of_line nofun rfl (beginsWithout_of_word margin (by decide) _) (imports_readsLine first names)

theorem importFrom_reads {module : String} {names : List ImportName} {wildcard : Bool}
    (hm : isModuleName module = true) (hfuture : module ≠ "__future__")
    (hn : if wildcard = true then names = [] else names ≠ []) :
    ReadsKind style margin (.importFrom module names wildcard) := by
  refine .of_line nofun ?_ (beginsWithout_of_word margin (by decide) _)
    (importFrom_readsLine hm hfuture hn rfl)
  cases wildcard <;> rfl

end

/-! ### Compound statements -/

/-- The lines of a block from a number on are read as its statements. -/
structure ReadsBody (style : Style) (margin : Margin) (number : Nat) (body : List Stmt) : Prop where
  begins : BeginsWithout clauseWords margin.width (blockLines style margin number body)
  nonempty : body ≠ [] → blockLines style margin number body ≠ []
  block : ReadsBlock (blockLines style margin number body) margin.width body

/-- The lines of an else-branch are read as the further branches of a conditional. -/
structure ReadsOrelse (style : Style) (margin : Margin) (orelse : List Stmt) : Prop where
  begins : BeginsWithout [] margin.width (elseLines style margin orelse)
  branches : ReadsBranches (elseLines style margin orelse) margin.width orelse

theorem ReadsBody.nil (style : Style) (margin : Margin) (number : Nat) :
    ReadsBody style margin number [] where
  begins := .nil _ _
  nonempty h := absurd rfl h
  block := readsBlock_nil _

theorem ReadsBody.cons {style : Style} {margin : Margin} {number : Nat} {kind : StmtKind}
    {rest : List Stmt} (hk : ReadsKind (style.part number) margin kind)
    (hr : ReadsBody style margin (number + 1) rest) (line : Nat) :
    ReadsBody style margin number (.mk kind line :: rest) where
  begins := hk.begins.append hr.begins
  nonempty _ := List.append_ne_nil_of_left_ne_nil hk.nonempty _
  block := readsBlock_cons hk.begins hk.nonempty hk.statement hr.begins hr.block line

/-- The block of a statement is a suite. -/
theorem suite_reads (style : Style) (margin : Margin) {body : List Stmt}
    (h : ReadsBody style (style.deeper margin) 0 body) (hne : body ≠ []) :
    ReadsSuite (blockLines style (style.deeper margin) 0 body) margin.width body :=
  readsSuite_of_block (width_lt_deeper style margin) (h.nonempty hne) h.begins h.block

theorem ReadsOrelse.nil (style : Style) (margin : Margin) : ReadsOrelse style margin [] where
  begins := .nil _ _
  branches := readsBranches_of_else (@readsElse_optional margin [] [] (absurd rfl)) (.nil _ _)

theorem ReadsOrelse.cons {style : Style} {margin : Margin} {kind : StmtKind} {rest : List Stmt}
    {line : Nat} (hk : ReadsKind (style.part 0) margin kind)
    (hb : ReadsBody style (style.deeper margin) 0 (.mk kind line :: rest)) :
    ReadsOrelse style margin (.mk kind line :: rest) := by
  rcases elseLines_cases style margin kind line rest with ⟨test, body, orelse, rfl, rfl, he⟩ | he
  · constructor <;> rw [he]
    · exact beginsWithout_header List.not_mem_nil margin _ _
    · exact hk.branch test body orelse rfl line
  · constructor <;> rw [he]
    · exact beginsWithout_optional List.not_mem_nil margin _ _
    · exact readsBranches_of_else (readsElse_optional (suite_reads style margin hb))
        (beginsWithout_optional (by decide) margin _ _)

/-- The lines of handlers from a number on are read as the handlers. -/
structure ReadsClauses (style : Style) (margin : Margin) (number : Nat) (given : List Handler) :
    Prop where
  begins : BeginsWithout [] margin.width (handlerLines style margin number given)
  handlers : ReadsHandlers (handlerLines style margin number given) margin.width given

mutual

/-- A statement that can be written is read. -/
theorem kind_reads (style : Style) (margin : Margin) : (kind : StmtKind) → kind.isWritable = true →
    ReadsKind style margin kind
  | .expr value, h => expr_reads style margin h
  | .assign targets value, h => by
    simp only [StmtKind.isWritable, Bool.and_eq_true, Bool.not_eq_true',
      List.isEmpty_eq_false_iff] at h
    exact assign_reads style margin h.1.1 h.1.2 h.2
  | .augAssign target op value, h => by
    simp only [StmtKind.isWritable, Bool.and_eq_true] at h
    exact augAssign_reads style margin h.1.1 h.1.2 h.2 op
  | .if test body orelse, h => by
    simp only [StmtKind.isWritable, Bool.and_eq_true, Bool.not_eq_true',
      List.isEmpty_eq_false_iff] at h
    obtain ⟨⟨⟨htest, hne⟩, hbody⟩, horelse⟩ := h
    have hread := printed_reads (style.parens 0) htest
    have hsuite := suite_reads (style.part 0) margin (block_reads _ _ 0 body hbody) hne
    have hfurther := else_reads (style.part 1) margin orelse horelse
    refine ⟨beginsWithout_header (by decide) margin _ _, List.cons_ne_nil _ _,
      readsStatement_if hread hsuite hfurther.branches hfurther.begins, ?_⟩
    rintro _ _ _ ⟨⟩ line
    exact readsBranches_elif hread hsuite hfurther.branches hfurther.begins line
  | .while test body orelse, h => by
    simp only [StmtKind.isWritable, Bool.and_eq_true, Bool.not_eq_true',
      List.isEmpty_eq_false_iff] at h
    obtain ⟨⟨⟨htest, hne⟩, hbody⟩, horelse⟩ := h
    have hsuite := suite_reads (style.part 0) margin (block_reads _ _ 0 body hbody) hne
    have helse := readsElse_optional
      (suite_reads (style.part 1) margin (block_reads _ _ 0 orelse horelse))
    exact .of_header nofun rfl (by decide) (readsStatement_while hsuite helse
      (beginsWithout_optional List.not_mem_nil margin _ _) (printed_reads (style.parens 0) htest))
  | .for target iter body orelse, h => by
    simp only [StmtKind.isWritable, Bool.and_eq_true, Bool.not_eq_true',
      List.isEmpty_eq_false_iff] at h
    obtain ⟨⟨⟨⟨htarget, hiter⟩, hne⟩, hbody⟩, horelse⟩ := h
    have hsuite := suite_reads (style.part 0) margin (block_reads _ _ 0 body hbody) hne
    have helse := readsElse_optional
      (suite_reads (style.part 1) margin (block_reads _ _ 0 orelse horelse))
    exact .of_header nofun rfl (by decide) (readsStatement_for hsuite helse
      (beginsWithout_optional List.not_mem_nil margin _ _) (target_reads target htarget)
      (printed_reads (style.parens 0) hiter))
  | .functionDef name params decorators body, h => by
    simp only [StmtKind.isWritable, Bool.and_eq_true, Bool.not_eq_true',
      List.isEmpty_eq_false_iff, List.isEmpty_iff] at h
    obtain ⟨⟨⟨⟨-, hparams⟩, rfl⟩, hne⟩, hbody⟩ := h
    have hsuite := suite_reads (style.part 0) margin (block_reads _ _ 0 body hbody) hne
    exact .of_header nofun rfl (by decide) (readsStatement_functionDef hsuite style name hparams)
  | .classDef name bases decorators body, h => by
    simp only [StmtKind.isWritable, Bool.and_eq_true, Bool.not_eq_true',
      List.isEmpty_eq_false_iff, List.isEmpty_iff] at h
    obtain ⟨⟨⟨⟨-, hbases⟩, rfl⟩, hne⟩, hbody⟩ := h
    have hsuite := suite_reads (style.part 0) margin (block_reads _ _ 0 body hbody) hne
    exact .of_header nofun rfl (by decide) (readsStatement_classDef hsuite style name hbases)
  | .with items body, h => by
    simp only [StmtKind.isWritable, Bool.and_eq_true, Bool.not_eq_true',
      List.isEmpty_eq_false_iff, List.all_eq_true] at h
    obtain ⟨⟨⟨hsome, hitems⟩, hne⟩, hbody⟩ := h
    have hsuite := suite_reads (style.part 0) margin (block_reads _ _ 0 body hbody) hne
    exact .of_header nofun rfl (by decide) (readsStatement_with hsuite style hsome hitems)
  | .try body handlers orelse finalbody, h => by
    simp only [StmtKind.isWritable, Bool.and_eq_true, Bool.not_eq_true',
      List.isEmpty_eq_false_iff] at h
    obtain ⟨⟨⟨⟨⟨hne, hbody⟩, hhandlers⟩, horelse⟩, hfinalbody⟩, hgiven⟩ := h
    have hsuite := suite_reads (style.part 0) margin (block_reads _ _ 0 body hbody) hne
    have hclauses := handlers_read (style.part 1) margin 0 handlers hhandlers
    refine .of_header nofun rfl (by decide) (readsStatement_try hsuite hclauses.handlers hclauses.begins
      (suite_reads (style.part 2) margin (block_reads _ _ 0 orelse horelse))
      (suite_reads (style.part 3) margin (block_reads _ _ 0 finalbody hfinalbody)) fun hnone => ?_)
    subst hnone
    simp only [List.isEmpty_nil, if_true, Bool.and_eq_true, List.isEmpty_iff, Bool.not_eq_true',
      List.isEmpty_eq_false_iff] at hgiven
    exact ⟨rfl, hgiven⟩
  | .return value, h => return_reads style margin h
  | .imports names, h => by
    simp only [StmtKind.isWritable, Bool.and_eq_true, Bool.not_eq_true',
      List.isEmpty_eq_false_iff] at h
    exact imports_reads style margin h.1
  | .importFrom module names wildcard, h => by
    simp only [StmtKind.isWritable, Bool.and_eq_true, bne_iff_ne] at h
    obtain ⟨⟨hmodule, hfuture⟩, hnames⟩ := h
    refine importFrom_reads style margin hmodule hfuture ?_
    cases wildcard with
    | true => exact List.isEmpty_iff.mp hnames
    | false =>
      simp only [Bool.false_eq_true, if_false, Bool.and_eq_true, Bool.not_eq_true',
        List.isEmpty_eq_false_iff] at hnames
      exact hnames.1
  | .pass, _ => @word_reads style margin _ .pass (by decide) nofun rfl (fun _ _ => rfl) fun _ => rfl
  | .break, _ => @word_reads style margin _ .break (by decide) nofun rfl (fun _ _ => rfl) fun _ => rfl
  | .continue, _ => @word_reads style margin _ .continue (by decide) nofun rfl (fun _ _ => rfl) fun _ => rfl
  | .annAssign .., h | .global .., h | .nonlocal .., h | .raise .., h | .assert .., h | .delete .., h
  | .match .., h | .unsupported .., h => by
    rw [StmtKind.isWritable] at h
    · cases h
    all_goals nofun

theorem block_reads (style : Style) (margin : Margin) (number : Nat) : (body : List Stmt) →
    stmtsWritable body = true → ReadsBody style margin number body
  | [], _ => .nil style margin number
  | .mk kind line :: rest, h => by
    rw [stmtsWritable, Bool.and_eq_true] at h
    exact .cons (kind_reads (style.part number) margin kind h.1)
      (block_reads style margin (number + 1) rest h.2) line

theorem else_reads (style : Style) (margin : Margin) : (orelse : List Stmt) →
    stmtsWritable orelse = true → ReadsOrelse style margin orelse
  | [], _ => .nil style margin
  | .mk kind line :: rest, h => by
    rw [stmtsWritable, Bool.and_eq_true] at h
    exact .cons (kind_reads (style.part 0) margin kind h.1)
      (.cons (kind_reads (style.part 0) (style.deeper margin) kind h.1)
        (block_reads style (style.deeper margin) 1 rest h.2) line)

theorem handlers_read (style : Style) (margin : Margin) (number : Nat) : (given : List Handler) →
    handlersWritable given = true → ReadsClauses style margin number given
  | [], _ => ⟨.nil _ _, readsHandlers_nil _⟩
  | .mk kind name body line :: rest, h => by
    simp only [handlersWritable, Bool.and_eq_true, Bool.not_eq_true',
      List.isEmpty_eq_false_iff] at h
    obtain ⟨⟨⟨⟨⟨hkind, hname⟩, hboth⟩, hne⟩, hbody⟩, hrest⟩ := h
    have hmore := handlers_read style margin (number + 1) rest hrest
    have hsuite := suite_reads (style.part number) margin (block_reads _ _ 0 body hbody) hne
    exact ⟨beginsWithout_header List.not_mem_nil margin _ _,
      readsHandlers_cons hkind hname hboth hsuite hmore.handlers hmore.begins line⟩

end

end Marksheet.Grammar
