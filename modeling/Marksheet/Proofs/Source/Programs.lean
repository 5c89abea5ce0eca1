import Marksheet.Proofs.Grammar.Imports
import Marksheet.Proofs.Source.Lines

/-!
# Programs in print are cut into lines

What stands on a line of a program is parted like an expression, with words, commas and
a colon around it. Only the dots of a relative import are not: three of them make one
mark.
-/

namespace Marksheet.Source

open Alphabet Syntax
open Marksheet.Grammar (modulePieces_glued modulePieces_ne_nil)

/-! ### Words around expressions -/

section

variable {strength strength' : Nat} {pieces more : List Piece}

/-- A word before what closes every expression. -/
theorem Sound.word {word : String} (hw : isIdentifier word = true) (h : Trails 0 strength more) :
    Sound strength (close (.word word) :: more) :=
  .cons (.word word) hw (head_chars (.word word) hw (by simp))
    fun _ hending => (h.parted_cons false (.word word) hw (by simp) hending).2

/-- The colon of a header. -/
theorem Trails.colon : Trails strength strength' [close (.sign .colon)] :=
  ⟨fun _ _ _ hc => Option.mem_some_iff.mp hc ▸ rfl,
    fun _ hending => ⟨trivial, fun c hc => stops_of_closes nofun nofun (hending c hc), trivial⟩⟩

theorem header_cuts {word : String} (hw : isIdentifier word = true)
    (h : Trails 0 0 (spaced pieces)) : CutsLine (header word pieces) :=
  (Sound.word hw (h.append (@Trails.colon 0 0))).cutsLine

theorem word_cuts {word : String} (hw : isIdentifier word = true) : CutsLine [close (.word word)] :=
  (@Sound.word 0 _ _ hw .nil).cutsLine

theorem printed_sound (extra : Redundance) {e : Expr} (h : e.isWritable = true) :
    Sound 0 (printed extra e) := (bare_sound extra e h).within 0 (Nat.zero_le _) extra

theorem alone_sound (extra : Redundance) {e : Expr} (h : e.isWritable = true) :
    Sound 0 (alone extra e) := by
  have hprinted := printed_sound extra h
  rw [alone]
  split
  · exact hprinted
  · exact (hprinted.enclosed 0).mono (Nat.zero_le _)

/-- A name that is bound behind an expression. -/
theorem bound_trails {name : Option String} (h : name.all isName = true) :
    Trails 0 0 (bound name) := by
  cases name with
  | none => exact .nil
  | some name =>
    rw [Option.all_some, isName, Bool.and_eq_true] at h
    exact (Trails.nil.apart (.word name) h.1 nofun).apart (.word "as") rfl nofun

end

/-! ### Targets -/

mutual

/-- The expression that looks like a target can be written like the target. -/
theorem expr_isWritable : (target : Target) → target.isWritable = true → target.expr.isWritable = true
  | .name _, h => h
  | .tuple items, h => exprs_writable items h
  | .subscript _ _, h => h
  | .attribute _ _, h => h
  | .starred _, h | .unsupported _, h => by
    rw [Target.isWritable] at h
    · cases h
    all_goals nofun

theorem exprs_writable : (items : List Target) → targetsWritable items = true →
    allWritable (targetExprs items) = true
  | [], _ => rfl
  | item :: rest, h => by
    rw [targetsWritable, Bool.and_eq_true] at h
    rw [targetExprs, allWritable, expr_isWritable item h.1, exprs_writable rest h.2]
    rfl

end

theorem target_sound {target : Target} (h : target.isWritable = true) : Sound 0 target.pieces :=
  (bare_sound _ _ (expr_isWritable target h)).mono (Nat.zero_le _)

theorem assigned_sound {value : List Piece} (hv : Sound 0 value) {targets : List Target}
    (h : targets.all Target.isWritable = true) : Sound 0 (assigned value targets) := by
  induction targets with
  | nil => exact hv
  | cons target targets ih =>
    rw [List.all_cons, Bool.and_eq_true] at h
    exact (target_sound h.1).append ((ih h.2).spaced.apart (.sign .assign) trivial nofun)

/-! ### Imports -/

theorem isIdentifier_of_all {parts : List String} (h : parts.all isName = true) :
    ∀ part ∈ parts, isIdentifier part = true := by
  intro part hm
  have hname := List.all_eq_true.mp h part hm
  rw [isName, Bool.and_eq_true] at hname
  exact hname.1

/-- Words with dots between them begin like a word. -/
theorem dotted_head {parts : List String} (hne : parts ≠ []) (h : parts.all isName = true) :
    ∃ c text, textOf (dotted parts) = c :: text ∧ beginsWord c = true := by
  obtain ⟨part, parts, rfl⟩ := List.exists_cons_of_ne_nil hne
  obtain ⟨c, word, htext, hc, -⟩ :=
    exists_cons_of_isIdentifier (isIdentifier_of_all h part List.mem_cons_self)
  refine ⟨c, word ++ textOf (parts.flatMap fun next => [close (.sign .dot), close (.word next)]),
    ?_, hc⟩
  rw [dotted, textOf_cons, ← List.cons_append, ← htext]
  rfl

/-- They are like attributes. -/
theorem dotted_sound {parts : List String} (hne : parts ≠ []) (h : parts.all isName = true) :
    Sound 23 (dotted parts) := by
  have hidentifier := isIdentifier_of_all h
  obtain ⟨part, parts, rfl⟩ := List.exists_cons_of_ne_nil hne
  have htrails : Trails 23 23
      (parts.flatMap fun next => [close (.sign .dot), close (.word next)]) := by
    have hparts := fun next hm => hidentifier next (List.mem_cons_of_mem _ hm)
    clear h hne hidentifier
    induction parts with
    | nil => exact .nil
    | cons next parts ih =>
      exact (attribute_trails (hparts next List.mem_cons_self)).append
        (ih fun next hm => hparts next (List.mem_cons_of_mem _ hm))
  have hword : Sound 23 [close (.word part)] :=
    .single (.word part) (hidentifier part List.mem_cons_self) (by simp) (by simp)
  exact hword.append htrails

theorem import_sound {imported : ImportName} (h : imported.isWritable = true) :
    Sound 0 (importPieces imported) := by
  rw [ImportName.isWritable, Bool.and_eq_true] at h
  have hdotted := dotted_sound (Grammar.partsOf_ne_nil imported.name) h.1
  exact (hdotted.mono (Nat.zero_le 23)).append (bound_trails h.2)

theorem list_sound {items : List (List Piece)} (hne : items ≠ []) (h : ∀ item ∈ items, Sound 0 item) :
    Sound 0 (separated items) := by
  obtain ⟨item, items, rfl⟩ := List.exists_cons_of_ne_nil hne
  exact separated_sound (h item List.mem_cons_self) fun other hm => h other (List.mem_cons_of_mem _ hm)

theorem imports_sound {names : List ImportName} (hne : names ≠ [])
    (h : names.all ImportName.isWritable = true) :
    Sound 0 (separated (names.map importPieces)) := by
  refine list_sound (fun he => hne (List.map_eq_nil_iff.mp he)) fun item hm => ?_
  obtain ⟨imported, hmem, rfl⟩ := List.mem_map.mp hm
  exact import_sound (List.all_eq_true.mp h imported hmem)

/-- A module, with what stands behind it: dots are cut three by three. -/
theorem module_cuts {module : String} (hm : isModuleName module = true) {more : List Piece}
    (h : Trails 0 0 (apart (.word "import") :: more)) {ending : List Char} (he : Closes 0 ending) :
    Cuts (modulePieces module ++ apart (.word "import") :: more) ending := by
  rw [modulePieces, List.append_assoc]
  split
  · refine Cuts.dots (.of_parted (h.parted ending he)) (fun c hc => ?_) _
    obtain rfl := Option.mem_some_iff.mp hc
    decide
  · rename_i hsome
    rw [isModuleName, Bool.or_eq_true, Bool.and_eq_true] at hm
    have hparts := hm.resolve_right fun hempty => hsome hempty.1
    have hne := Grammar.partsOf_ne_nil (behindDots module)
    have hsound := ((dotted_sound hne hparts).mono (Nat.zero_le 23)).append h
    refine Cuts.dots (.of_parted (hsound.parted ending he)) (fun c hc => ?_) _
    obtain ⟨d, text, htext, hd⟩ := dotted_head hne hparts
    rw [textOf_append, htext] at hc
    obtain rfl := Option.mem_some_iff.mp hc
    exact beginsWord_facts hd

theorem importFrom_cuts {module : String} (hm : isModuleName module = true) {more : List Piece}
    (h : Trails 0 0 (apart (.word "import") :: more)) :
    CutsLine (close (.word "from") :: spaced (modulePieces module) ++ apart (.word "import") :: more)
    where
  head := ⟨'f', _, rfl, by decide⟩
  cuts rest := by
    obtain ⟨piece, pieces, hpieces⟩ := List.exists_cons_of_ne_nil (modulePieces_ne_nil hm)
    have hmodule : Cuts (modulePieces module ++ apart (.word "import") :: more) ('\n' :: rest) :=
      module_cuts hm h fun c hc => Option.mem_some_iff.mp hc ▸ rfl
    have hglued := modulePieces_glued module piece (hpieces ▸ List.mem_cons_self)
    rw [hpieces] at hmodule ⊢
    have hfrom : Parted [close (.word "from")]
        (textOf (spaced (piece :: pieces) ++ apart (.word "import") :: more) ++ '\n' :: rest) :=
      ⟨rfl, fun c hc => Option.mem_some_iff.mp hc ▸ rfl, trivial⟩
    exact (Cuts.of_parted hfrom).append (hmodule.blank hglued)

/-! ### Headers -/

theorem params_sound (style : Style) {params : List Param} (h : params.all Param.isWritable = true)
    (number : Nat) : ∀ pieces ∈ paramsPieces style number params, Sound 0 pieces := by
  induction params generalizing number with
  | nil => simp [paramsPieces]
  | cons param params ih =>
    rw [List.all_cons, Bool.and_eq_true] at h
    refine List.forall_mem_cons.mpr ⟨?_, ih h.2 (number + 1)⟩
    obtain ⟨name, value⟩ := param
    have hparam := h.1
    simp only [Param.isWritable, isName, Bool.and_eq_true] at hparam
    cases value with
    | none => exact .single (.word name) hparam.1.1 (by simp) (by simp)
    | some value => exact keyword_sound hparam.1.1 (printed_sound _ hparam.2)

theorem item_sound (extra : Redundance) {item : WithItem} (h : item.isWritable = true) :
    Sound 0 (itemPieces extra item) := by
  rw [WithItem.isWritable, Bool.and_eq_true] at h
  have hwithin := (bare_sound extra item.context h.1).within 3 (by decide) extra
  have hcontext : Sound 0 (contextPieces extra item.context) := by
    rw [contextPieces]
    split
    · exact (hwithin.enclosed 0).mono (Nat.zero_le _)
    · exact hwithin.mono (Nat.zero_le _)
  refine hcontext.append ?_
  cases htarget : item.target with
  | none => exact .nil
  | some target =>
    rw [htarget] at h
    exact (target_sound h.2).spaced.apart (.word "as") rfl nofun

theorem withItems_sound (style : Style) {items : List WithItem} (hne : items ≠ [])
    (h : items.all WithItem.isWritable = true) : Sound 0 (separated (itemsPieces style 0 items)) := by
  have hitems (number : Nat) : ∀ pieces ∈ itemsPieces style number items, Sound 0 pieces := by
    clear hne
    induction items generalizing number with
    | nil => nofun
    | cons item items ih =>
      rw [List.all_cons, Bool.and_eq_true] at h
      exact List.forall_mem_cons.mpr ⟨item_sound _ h.1, ih h.2 (number + 1)⟩
  refine list_sound ?_ (hitems 0)
  obtain ⟨item, items, rfl⟩ := List.exists_cons_of_ne_nil hne
  exact List.cons_ne_nil _ _

/-- A name with brackets behind it. -/
theorem called_sound {name : String} (hn : isIdentifier name = true) {pieces : List Piece}
    (h : Inside pieces) :
    Sound 0 (close (.word name) :: close (.sign .lparen) :: pieces ++ [close (.sign .rparen)]) :=
  ((Sound.single (.word name) hn (by simp) (by simp)).append
    (@Inside.trails 23 _ h _ _ (.inl rfl) (.inl rfl))).mono (Nat.zero_le 23)

theorem caught_trails (extra : Redundance) {kind : Option Expr} {name : Option String}
    (hk : kind.all Expr.isWritable = true) (hn : name.all isName = true) :
    Trails 0 0 (spaced (caughtPieces extra kind name)) := by
  cases kind with
  | none => exact .nil
  | some kind =>
    have hkind := ((bare_sound extra kind hk).within 3 (by decide) extra).mono (Nat.zero_le 3)
    exact (hkind.append (bound_trails hn)).spaced

/-! ### Statements -/

/-- All lines are cut. -/
def CutsLines (lines : List Line) : Prop := ∀ line ∈ lines, CutsLine line.pieces

theorem CutsLines.nil : CutsLines [] := nofun

theorem CutsLines.cons {margin : Margin} {pieces : List Piece} (h : CutsLine pieces)
    {lines : List Line} (hm : CutsLines lines) : CutsLines (⟨margin, pieces⟩ :: lines) :=
  List.forall_mem_cons.mpr ⟨h, hm⟩

theorem CutsLines.append {lines more : List Line} (h : CutsLines lines) (hm : CutsLines more) :
    CutsLines (lines ++ more) := List.forall_mem_append.mpr ⟨h, hm⟩

theorem optionalClause_cuts (margin : Margin) {word : String} (hw : isIdentifier word = true)
    (body : List Stmt) {lines : List Line} (h : CutsLines lines) :
    CutsLines (optionalClause margin word body lines) := by
  rw [optionalClause]
  split
  · exact .nil
  · exact .cons (header_cuts hw .nil) h

theorem names_isWritable {targets : List Target} (h : targets.all Target.isName = true) :
    targets.all Target.isWritable = true := by
  refine List.all_eq_true.mpr fun target hm => ?_
  have hname := List.all_eq_true.mp h target hm
  cases target with
  | name id => exact hname
  | _ => cases hname

mutual

/-- The lines of a statement that can be written are cut. -/
theorem kind_cuts (style : Style) (margin : Margin) {word : String} (hw : isIdentifier word = true) :
    (kind : StmtKind) → kind.isWritable = true → CutsLines (kindLines style margin word kind)
  | .expr value, h => .cons (alone_sound _ h).cutsLine .nil
  | .assign targets value, h => by
    simp only [StmtKind.isWritable, Bool.and_eq_true] at h
    exact .cons (assigned_sound (printed_sound _ h.2) (names_isWritable h.1.2)).cutsLine .nil
  | .augAssign target op value, h => by
    simp only [StmtKind.isWritable, Bool.and_eq_true] at h
    exact .cons ((target_sound h.1.1).append
      ((printed_sound _ h.2).spaced.apart (.sign (.augmented op)) trivial nofun)).cutsLine .nil
  | .if test body orelse, h => by
    simp only [StmtKind.isWritable, Bool.and_eq_true] at h
    obtain ⟨⟨⟨htest, -⟩, hbody⟩, horelse⟩ := h
    exact .cons (header_cuts hw (printed_sound _ htest).spaced)
      (.append (block_cuts _ _ 0 body hbody) (else_cuts _ margin orelse horelse))
  | .while test body orelse, h => by
    simp only [StmtKind.isWritable, Bool.and_eq_true] at h
    obtain ⟨⟨⟨htest, -⟩, hbody⟩, horelse⟩ := h
    exact .cons (header_cuts rfl (printed_sound _ htest).spaced)
      (.append (block_cuts _ _ 0 body hbody)
        (optionalClause_cuts margin rfl orelse (block_cuts _ _ 0 orelse horelse)))
  | .for target iter body orelse, h => by
    simp only [StmtKind.isWritable, Bool.and_eq_true] at h
    obtain ⟨⟨⟨⟨htarget, hiter⟩, -⟩, hbody⟩, horelse⟩ := h
    have hheader := (target_sound htarget).append
      ((printed_sound (style.parens 0) hiter).spaced.apart (.word "in") rfl nofun)
    exact .cons (header_cuts rfl hheader.spaced)
      (.append (block_cuts _ _ 0 body hbody)
        (optionalClause_cuts margin rfl orelse (block_cuts _ _ 0 orelse horelse)))
  | .functionDef name params decorators body, h => by
    simp only [StmtKind.isWritable, isName, Bool.and_eq_true] at h
    obtain ⟨⟨⟨⟨⟨hname, -⟩, hparams⟩, -⟩, -⟩, hbody⟩ := h
    have hheader := called_sound hname (separated_inside (params_sound style hparams 0))
    exact .cons (header_cuts rfl hheader.spaced) (block_cuts _ _ 0 body hbody)
  | .classDef name bases decorators body, h => by
    simp only [StmtKind.isWritable, isName, Bool.and_eq_true] at h
    obtain ⟨⟨⟨⟨⟨hname, -⟩, hbases⟩, -⟩, -⟩, hbody⟩ := h
    have hheader : Sound 0 (close (.word name) :: if bases.isEmpty then []
        else close (.sign .lparen) :: separated (printedItems (style.parens 0) 0 bases) ++
          [close (.sign .rparen)]) := by
      split
      · exact .single (.word name) hname nofun nofun
      · exact called_sound hname (separated_inside (items_sound (style.parens 0) 0 bases hbases))
    exact .cons (header_cuts rfl hheader.spaced) (block_cuts _ _ 0 body hbody)
  | .with items body, h => by
    simp only [StmtKind.isWritable, Bool.and_eq_true, Bool.not_eq_true',
      List.isEmpty_eq_false_iff] at h
    obtain ⟨⟨⟨hsome, hitems⟩, -⟩, hbody⟩ := h
    exact .cons (header_cuts rfl (withItems_sound style hsome hitems).spaced)
      (block_cuts _ _ 0 body hbody)
  | .try body handlers orelse finalbody, h => by
    simp only [StmtKind.isWritable, Bool.and_eq_true] at h
    obtain ⟨⟨⟨⟨⟨-, hbody⟩, hhandlers⟩, horelse⟩, hfinalbody⟩, -⟩ := h
    exact .cons (header_cuts rfl .nil) (.append (block_cuts _ _ 0 body hbody)
      (.append (handlers_cut _ margin 0 handlers hhandlers)
        (.append (optionalClause_cuts margin rfl orelse (block_cuts _ _ 0 orelse horelse))
          (optionalClause_cuts margin rfl finalbody (block_cuts _ _ 0 finalbody hfinalbody)))))
  | .return none, _ => .cons (word_cuts rfl) .nil
  | .return (some value), h => by
    have hvalue : Sound 0 (printed (style.parens 0) value) := printed_sound _ h
    exact .cons (@Sound.word 0 _ _ rfl hvalue.spaced).cutsLine .nil
  | .imports names, h => by
    simp only [StmtKind.isWritable, Bool.and_eq_true, Bool.not_eq_true',
      List.isEmpty_eq_false_iff] at h
    exact .cons (@Sound.word 0 _ _ rfl (imports_sound h.1 h.2).spaced).cutsLine .nil
  | .importFrom module names wildcard, h => by
    simp only [StmtKind.isWritable, Bool.and_eq_true, bne_iff_ne] at h
    obtain ⟨⟨hmodule, -⟩, hnames⟩ := h
    refine .cons (importFrom_cuts hmodule ?_) .nil
    cases wildcard with
    | true => exact (Trails.nil.apart (.sign (.op .mul)) trivial nofun).apart (.word "import") rfl nofun
    | false =>
      simp only [Bool.false_eq_true, if_false, Bool.and_eq_true, Bool.not_eq_true',
        List.isEmpty_eq_false_iff] at hnames
      exact (imports_sound hnames.1 hnames.2).spaced.apart (.word "import") rfl nofun
  | .pass, _ => .cons (@word_cuts "pass" rfl) .nil
  | .break, _ => .cons (@word_cuts "break" rfl) .nil
  | .continue, _ => .cons (@word_cuts "continue" rfl) .nil
  | .annAssign .., h | .global .., h | .nonlocal .., h | .raise .., h | .assert .., h | .delete .., h
  | .match .., h | .unsupported .., h => by
    rw [StmtKind.isWritable] at h
    · cases h
    all_goals nofun

theorem block_cuts (style : Style) (margin : Margin) (number : Nat) : (body : List Stmt) →
    stmtsWritable body = true → CutsLines (blockLines style margin number body)
  | [], _ => .nil
  | .mk kind line :: rest, h => by
    rw [stmtsWritable, Bool.and_eq_true] at h
    exact .append (kind_cuts (style.part number) margin rfl kind h.1)
      (block_cuts style margin (number + 1) rest h.2)

theorem else_cuts (style : Style) (margin : Margin) : (orelse : List Stmt) →
    stmtsWritable orelse = true → CutsLines (elseLines style margin orelse)
  | [], _ => .nil
  | .mk kind line :: rest, h => by
    rw [stmtsWritable, Bool.and_eq_true] at h
    rcases elseLines_cases style margin kind line rest with ⟨test, body, orelse, -, -, he⟩ | he
    · rw [he]
      exact kind_cuts (style.part 0) margin rfl kind h.1
    · rw [he]
      exact optionalClause_cuts margin rfl _ (.append (kind_cuts (style.part 0) _ rfl kind h.1)
        (block_cuts style _ 1 rest h.2))

theorem handlers_cut (style : Style) (margin : Margin) (number : Nat) : (given : List Handler) →
    handlersWritable given = true → CutsLines (handlerLines style margin number given)
  | [], _ => .nil
  | .mk kind name body line :: rest, h => by
    simp only [handlersWritable, Bool.and_eq_true] at h
    obtain ⟨⟨⟨⟨⟨hkind, hname⟩, -⟩, -⟩, hbody⟩, hrest⟩ := h
    exact .cons (header_cuts rfl (caught_trails _ hkind hname))
      (.append (block_cuts _ _ 0 body hbody) (handlers_cut style margin (number + 1) rest hrest))

end

end Marksheet.Source
