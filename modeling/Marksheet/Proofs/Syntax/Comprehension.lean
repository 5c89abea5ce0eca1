import Mathlib
import Marksheet.Proofs.Syntax.Joined

/-!
# The clauses of a comprehension

The generators of a comprehension hold its clauses in their order, each condition
with the nearest loop before it, and are the only ones that do. A line that goes
on behind the word `if` takes the place of the condition, so such a condition is
lost (`comprehension_exact`).
-/

namespace Marksheet.Syntax

/-! ### Clauses -/

/-- What a clause of a comprehension says: over what to go, or what to ask. -/
inductive Step where
  | loop (target : Target) (iter : Expr)
  | condition (test : Expr)

/-- The clauses that a generator holds: its loop, then its conditions. -/
def Generator.steps : Generator → List Step
  | .mk target iter conditions => .loop target iter :: conditions.map .condition

/-- The clauses that generators hold, one generator behind the other. -/
def steps (found : List Generator) : List Step := found.flatMap Generator.steps

/-- A clause as it is written; a line may go on between the word `if` and what it asks. -/
inductive WrittenClause where
  | loop (target iter : Phrase)
  | condition (continued : List String) (test : Phrase)

namespace WrittenClause

/-- The clause with its parts. -/
def clause : WrittenClause → Clause
  | loop target iter => .forIn target iter
  | condition continued test => .condition (continued.map .continuation ++ [test])

/-- What the clause says. -/
def step : WrittenClause → Step
  | loop target iter => .loop target.target iter.expr
  | condition _ test => .condition test.expr

/-- What is kept of the clause: a line that goes on behind the word `if` takes the place of what
is asked. -/
def kept : WrittenClause → Step
  | loop target iter => .loop target.target iter.expr
  | condition [] test => .condition test.expr
  | condition (_ :: _) _ => .condition (.unsupported "line_continuation")

end WrittenClause

/-! ### Generators -/

theorem steps_cons (target : Target) (iter : Expr) (conditions : List Expr)
    (found : List Generator) : steps (.mk target iter conditions :: found) =
      .loop target iter :: (conditions.map .condition ++ steps found) := by
  rw [steps, List.flatMap_cons]
  rfl

/-- What generators hold begins with a loop. -/
theorem head_steps (found : List Generator) (test : Expr) :
    (steps found).head? ≠ some (.condition test) := by
  rcases found with _ | ⟨⟨target, iter, conditions⟩, found⟩
  · exact nofun
  · rw [steps_cons]
    exact nofun

/-- Generators are told apart by the clauses that they hold. -/
theorem steps_injective : Function.Injective steps := by
  intro found
  induction found with
  | nil =>
    rintro (_ | ⟨⟨target, iter, conditions⟩, others⟩) h
    · rfl
    · cases h
  | cons first found ih =>
    obtain ⟨target, iter, conditions⟩ := first
    rintro (_ | ⟨⟨target', iter', conditions'⟩, others⟩) h
    · cases h
    · rw [steps_cons, steps_cons] at h
      obtain ⟨hloop, hrest⟩ := List.cons.inj h
      obtain ⟨rfl, rfl⟩ := Step.loop.inj hloop
      obtain ⟨rfl, hfound⟩ := map_append_inj (fun _ _ => Step.condition.inj) (head_steps found)
        (head_steps others) hrest
      rw [ih hfound]

/-- The conditions before the first loop and then the clauses of the generators are all clauses in
their order. -/
theorem steps_generators (clauses : List WrittenClause) :
    (generators (clauses.map WrittenClause.clause)).2.map .condition ++
        steps (generators (clauses.map WrittenClause.clause)).1 =
      clauses.map WrittenClause.kept := by
  induction clauses with
  | nil => rfl
  | cons first clauses ih =>
    rw [List.map_cons, List.map_cons, ← ih]
    cases first with
    | loop target iter => exact steps_cons _ _ _ _
    | condition continued test => cases continued <;> rfl

/-- The generators that begin with a loop hold all clauses. -/
theorem steps_generators_loop (target iter : Phrase) (behind : List WrittenClause) :
    steps (generators ((.loop target iter :: behind).map WrittenClause.clause)).1 =
      (WrittenClause.loop target iter :: behind).map WrittenClause.kept :=
  steps_generators (.loop target iter :: behind)

theorem kept_eq_step_iff {clause : WrittenClause} : clause.kept = clause.step ↔
    ∀ continued test, clause = .condition continued test →
      continued = [] ∨ test.expr = .unsupported "line_continuation" := by
  rcases clause with ⟨target, iter⟩ | ⟨_ | ⟨line, more⟩, test⟩
  · simp [WrittenClause.kept, WrittenClause.step]
  · simp [WrittenClause.kept, WrittenClause.step]
  · simp [WrittenClause.kept, WrittenClause.step, eq_comm]

/-- The generators of a comprehension are the only ones that hold what is kept of its clauses, one
behind the other and each condition with the nearest loop before it. That is what the clauses say
exactly if no line goes on behind an `if`, a condition aside that stands for such a line itself. -/
theorem comprehension_exact (kind : ComprehensionKind) (body target iter : Phrase)
    (behind : List WrittenClause) :
    ∃ elt value found,
      (Phrase.comprehension kind body
        ((.loop target iter :: behind).map WrittenClause.clause)).expr =
          .comprehension kind elt value found ∧
      (∀ others, steps others = (WrittenClause.loop target iter :: behind).map WrittenClause.kept ↔
        others = found) ∧
      (steps found = (WrittenClause.loop target iter :: behind).map WrittenClause.step ↔
        ∀ continued test, .condition continued test ∈ behind →
          continued = [] ∨ test.expr = .unsupported "line_continuation") := by
  have hkept := steps_generators_loop target iter behind
  have hexpr : ∃ elt value, (Phrase.comprehension kind body
        ((.loop target iter :: behind).map WrittenClause.clause)).expr =
          .comprehension kind elt value
            (generators ((.loop target iter :: behind).map WrittenClause.clause)).1 := by
    cases body <;> exact ⟨_, _, rfl⟩
  obtain ⟨elt, value, hexpr⟩ := hexpr
  refine ⟨elt, value, _, hexpr, fun others => ?_, ?_⟩
  · rw [← hkept]
    exact steps_injective.eq_iff
  · rw [hkept, List.map_inj_left]
    simp only [kept_eq_step_iff, List.forall_mem_cons]
    constructor
    · rintro ⟨-, hall⟩ continued test hm
      exact hall _ hm continued test rfl
    · exact fun hall => ⟨nofun, fun clause hm continued test heq => hall continued test (heq ▸ hm)⟩

/-- A line that goes on behind the word `if` is kept in place of the condition behind it. -/
theorem parse_loses_condition :
    Grammar.parse "[x for x in z if \\\n x]\n" =
        .ok ⟨[.mk (.expr (.comprehension .list (.name "x") none
          [.mk (.name "x") (.name "z") [.unsupported "line_continuation"]])) 1]⟩ ∧
      steps [.mk (.name "x") (.name "z") [.unsupported "line_continuation"]] ≠
        [WrittenClause.loop (.name "x") (.name "z"), .condition ["\\\n"] (.name "x")].map
          WrittenClause.step := by
  refine ⟨by cbv, fun heq => ?_⟩
  simp [steps, Generator.steps, WrittenClause.step, Phrase.expr] at heq

end Marksheet.Syntax
