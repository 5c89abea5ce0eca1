import Marksheet.Proofs.Features.Construct
import Marksheet.Proofs.Syntax.Context

/-!
# The places of statements in a tree

Only a module and a statement hold statements, and a statement holds them in
the block that one of its frames leaves out (`exists_frame`). Hence the
statements that occur in a tree are those that stand in the hole of a context
(`occurs_stmt_iff`): contexts reach every block of every tree.
-/

namespace Marksheet.Features

open Syntax

/-- The statements of a block are parts of the statement around it. -/
theorem mem_parts_fill (frame : Frame) {block : List Stmt} {stmt : Stmt} (h : stmt ∈ block) :
    (.part, .stmt stmt.kind) ∈ (Construct.stmt (frame.fill block)).parts := by
  have member : (Role.part, Construct.stmt stmt.kind) ∈ blockParts block :=
    List.mem_map.mpr ⟨stmt, h, rfl⟩
  cases frame with
  | handler body before kind name line after orelse finalbody =>
    have inside : (Role.part, Construct.stmt stmt.kind) ∈
        handlerParts (before ++ .mk kind name block line :: after) :=
      List.mem_flatMap.mpr ⟨.mk kind name block line, by simp, by simp [member]⟩
    simp [Frame.fill, Construct.parts, inside]
  | case subjects before guard after =>
    have inside : (Role.part, Construct.stmt stmt.kind) ∈
        caseParts (before ++ .mk guard block :: after) :=
      List.mem_flatMap.mpr ⟨.mk guard block, by simp, by simp [member]⟩
    simp [Frame.fill, Construct.parts, inside]
  | _ => simp [Frame.fill, Construct.parts, member]

/-- A module or a statement: what can hold statements. -/
def Construct.isOuter : Construct → Bool
  | .module _ | .stmt _ => true
  | .expr _ | .target _ => false

theorem exists_of_mem_blockParts {role : Role} {part : Construct} {body : List Stmt}
    (h : (role, part) ∈ blockParts body) : ∃ stmt ∈ body, part = .stmt stmt.kind := by
  obtain ⟨stmt, hs, he⟩ := List.mem_map.mp h
  exact ⟨stmt, hs, (congrArg Prod.snd he).symm⟩

section

variable {role : Role} {part : Construct} (outer : part.isOuter = true)
include outer

theorem not_mem_exprParts (items : List Expr) : (role, part) ∉ exprParts items := by
  cases part <;> simp [exprParts, Construct.isOuter] at outer ⊢

theorem not_mem_targetParts (items : List Target) : (role, part) ∉ targetParts items := by
  cases part <;> simp [targetParts, Construct.isOuter] at outer ⊢

theorem not_mem_valueParts (value : Option Expr) : (role, part) ∉ valueParts value := by
  cases part <;> simp [valueParts, Construct.isOuter] at outer ⊢

theorem not_mem_defaultParts (params : List Param) : (role, part) ∉ defaultParts params := by
  intro h
  obtain ⟨⟨name, default⟩, -, hm⟩ := List.mem_flatMap.mp h
  cases part <;> simp [Construct.isOuter] at outer hm

theorem not_mem_withParts (items : List WithItem) : (role, part) ∉ withParts items := by
  simp [withParts, not_mem_exprParts outer, not_mem_targetParts outer]

theorem not_mem_fieldParts (fields : List FStringPart) : (role, part) ∉ fieldParts fields := by
  intro h
  obtain ⟨field, -, hm⟩ := List.mem_flatMap.mp h
  cases field with
  | literal value => simp at hm
  | interpolation value conversion spec => exact not_mem_exprParts outer _ hm

theorem not_mem_generatorParts (generators : List Generator) :
    (role, part) ∉ generatorParts generators := by
  intro h
  obtain ⟨⟨bound, iter, conditions⟩, -, hm⟩ := List.mem_flatMap.mp h
  rcases List.mem_cons.mp hm with he | hm
  · cases he
    simp [Construct.isOuter] at outer
  · exact not_mem_exprParts outer _ hm

/-- An expression holds no statements. -/
theorem not_mem_parts_expr (whole : Expr) : (role, part) ∉ (Construct.expr whole).parts := by
  cases whole <;>
    simp [Construct.parts, not_mem_exprParts outer, not_mem_defaultParts outer,
      not_mem_fieldParts outer, not_mem_generatorParts outer]

/-- A target holds no statements. -/
theorem not_mem_parts_target (whole : Target) : (role, part) ∉ (Construct.target whole).parts := by
  cases whole <;>
    simp [Construct.parts, not_mem_exprParts outer, not_mem_targetParts outer]

/-- What a statement holds besides expressions and targets stands in a block that some frame
leaves out. -/
theorem exists_frame {whole : StmtKind} (h : (role, part) ∈ (Construct.stmt whole).parts) :
    ∃ frame block, whole = Frame.fill frame block ∧ ∃ stmt ∈ block, part = .stmt stmt.kind := by
  have found (frame : Frame) {block : List Stmt} (hw : whole = frame.fill block)
      (hb : (role, part) ∈ blockParts block) :
      ∃ frame block, whole = Frame.fill frame block ∧ ∃ stmt ∈ block, part = .stmt stmt.kind :=
    ⟨frame, block, hw, exists_of_mem_blockParts hb⟩
  cases whole with
  | «if» test body orelse =>
    simp only [Construct.parts, List.mem_append, not_mem_exprParts outer, false_or] at h
    exact h.elim (found (.ifBody test orelse) rfl) (found (.ifElse test body) rfl)
  | «while» test body orelse =>
    simp only [Construct.parts, List.mem_append, not_mem_exprParts outer, false_or] at h
    exact h.elim (found (.whileBody test orelse) rfl) (found (.whileElse test body) rfl)
  | «for» place iter body orelse =>
    simp only [Construct.parts, List.mem_append, not_mem_exprParts outer,
      not_mem_targetParts outer, false_or] at h
    exact h.elim (found (.forBody place iter orelse) rfl) (found (.forElse place iter body) rfl)
  | functionDef name params decorators body =>
    simp only [Construct.parts, List.mem_append, not_mem_exprParts outer,
      not_mem_defaultParts outer, false_or] at h
    exact found (.functionDef name params decorators) rfl h
  | classDef name bases decorators body =>
    simp only [Construct.parts, List.mem_append, not_mem_exprParts outer, false_or] at h
    exact found (.classDef name bases decorators) rfl h
  | «with» items body =>
    simp only [Construct.parts, List.mem_append, not_mem_withParts outer, false_or] at h
    exact found (.with items) rfl h
  | «try» body handlers orelse finalbody =>
    simp only [Construct.parts, List.mem_append] at h
    rcases h with ((hb | hh) | ho) | hf
    · exact found (.tryBody handlers orelse finalbody) rfl hb
    · obtain ⟨⟨kind, name, inner, line⟩, hm, hb⟩ := List.mem_flatMap.mp hh
      obtain ⟨before, after, rfl⟩ := List.append_of_mem hm
      rw [List.mem_append] at hb
      exact found (.handler body before kind name line after orelse finalbody) rfl
        (hb.resolve_left (not_mem_exprParts outer _))
    · exact found (.tryElse body handlers finalbody) rfl ho
    · exact found (.finalBody body handlers orelse) rfl hf
  | «match» subjects cases =>
    simp only [Construct.parts, List.mem_append, not_mem_exprParts outer, false_or] at h
    obtain ⟨⟨guard, inner⟩, hm, hb⟩ := List.mem_flatMap.mp h
    obtain ⟨before, after, rfl⟩ := List.append_of_mem hm
    rw [List.mem_append] at hb
    exact found (.case subjects before guard after) rfl
      (hb.resolve_left (not_mem_exprParts outer _))
  | _ =>
    simp [Construct.parts, not_mem_exprParts outer, not_mem_targetParts outer,
      not_mem_valueParts outer] at h

end

/-- What can hold statements is the module or stands in the hole of a context. -/
theorem exists_context {tree : Module} {found : Construct} (h : Occurs tree found)
    (outer : found.isOuter = true) :
    found = .module tree ∨ ∃ context before form line after,
      found = .stmt form ∧ tree.body = plug context (before ++ .mk form line :: after) := by
  induction h with
  | module => exact .inl rfl
  | @part whole part role _ member ih =>
    right
    cases whole with
    | module other =>
      obtain ⟨⟨form, line⟩, hs, rfl⟩ := exists_of_mem_blockParts member
      obtain ⟨before, after, hb⟩ := List.append_of_mem hs
      rcases ih rfl with hm | ⟨_, _, _, _, _, hm, -⟩
      · cases hm
        exact ⟨[], before, form, line, after, rfl, hb⟩
      · cases hm
    | stmt whole =>
      obtain ⟨frame, block, rfl, ⟨form, line⟩, hs, rfl⟩ := exists_frame outer member
      obtain ⟨before, after, rfl⟩ := List.append_of_mem hs
      rcases ih rfl with hm | ⟨context, front, _, row, back, hm, ht⟩
      · cases hm
      · cases hm
        refine ⟨context ++ [⟨front, frame, row, back⟩], before, form, line, after, rfl, ?_⟩
        rw [ht, plug_append]
        rfl
    | expr whole => exact absurd member (not_mem_parts_expr outer whole)
    | target whole => exact absurd member (not_mem_parts_target outer whole)

/-- The statements in the hole of a context occur if those around it do. -/
theorem occurs_plug {tree : Module} (context : Context) {block : List Stmt}
    (h : ∀ stmt ∈ plug context block, Occurs tree (.stmt stmt.kind)) :
    ∀ stmt ∈ block, Occurs tree (.stmt stmt.kind) := by
  induction context with
  | nil => exact h
  | cons layer inner ih =>
    have around : Occurs tree (.stmt (layer.frame.fill (plug inner block))) :=
      h (.mk (layer.frame.fill (plug inner block)) layer.line) (by simp [plug])
    exact ih fun stmt hs => .part around (mem_parts_fill layer.frame hs)

/-- A statement occurs in a tree if and only if it stands in the hole of some context. -/
theorem occurs_stmt_iff {tree : Module} {form : StmtKind} :
    Occurs tree (.stmt form) ↔
      ∃ context before line after,
        tree = ⟨plug context (before ++ .mk form line :: after)⟩ := by
  constructor
  · intro h
    rcases exists_context h rfl with hm | ⟨context, before, _, line, after, hm, ht⟩
    · cases hm
    · cases hm
      exact ⟨context, before, line, after, by rw [← ht]⟩
  · rintro ⟨context, before, line, after, rfl⟩
    have top : ∀ stmt ∈ plug context (before ++ .mk form line :: after),
        Occurs ⟨plug context (before ++ .mk form line :: after)⟩ (.stmt stmt.kind) :=
      fun stmt hs => .part .module (List.mem_map.mpr ⟨stmt, hs, rfl⟩)
    exact occurs_plug context top (.mk form line) (by simp)

end Marksheet.Features
