import Marksheet.Proofs.Features.Flags
import Marksheet.Proofs.Features.Growth
import Marksheet.Proofs.Syntax.Suite

/-!
# Chains of `elif`

The flag for a chain is set by following the else-branches of an `if` as long
as each of them is a single `if`, however many there are. A chain of any length
holds three consecutive `if` statements that end it, and each of them occurs in
the tree by itself. So the flag says as much as a window of fixed size, and an
end other than a plain `else` of one statement spoils a chain of any length.
-/

namespace Marksheet.Features

open Syntax

/-! ### Following else-branches -/

/-- A link more is a single `if`, and the rest of the chain is behind it. -/
theorem elseBehind?_succ {links : Nat} {orelse found : List Stmt} :
    elseBehind? (links + 1) orelse = some found ↔
      ∃ test body next line, orelse = [.mk (.if test body next) line] ∧
        elseBehind? links next = some found := by
  constructor
  · intro h
    cases orelse with
    | nil => cases h
    | cons first rest =>
      obtain ⟨kind, line⟩ := first
      cases rest with
      | cons second rest => cases kind <;> cases h
      | nil =>
        cases kind with
        | «if» test body next => exact ⟨test, body, next, line, rfl, h⟩
        | _ => cases h
  · rintro ⟨test, body, next, line, rfl, h⟩
    exact h

/-- The counted links are those behind which a single statement stands that is no `if`. -/
theorem elifLinks?_eq_some_iff {links : Nat} {orelse : List Stmt} :
    elifLinks? orelse = some links ↔
      ∃ last, elseBehind? links orelse = some [last] ∧ isIf last = false := by
  induction links generalizing orelse with
  | zero =>
    by_cases single : orelse.length = 1
    · obtain ⟨⟨kind, line⟩, rfl⟩ := List.length_eq_one_iff.mp single
      cases kind <;> simp [elifLinks?, elseBehind?, isIf]
    · have hother : ∀ last, orelse ≠ [last] := by
        rintro last rfl
        exact single rfl
      simp [elifLinks?_none single, elseBehind?, hother]
  | succ links ih =>
    have hnext (test : Expr) (body next : List Stmt) (line : Nat) :
        elifLinks? [.mk (.if test body next) line] = some (links + 1) ↔
          elifLinks? next = some links := by
      simp [elifLinks?]
    constructor
    · intro h
      by_cases single : orelse.length = 1
      · obtain ⟨⟨kind, line⟩, rfl⟩ := List.length_eq_one_iff.mp single
        cases kind with
        | «if» test body next => exact ih.mp ((hnext test body next line).mp h)
        | _ => simp [elifLinks?] at h
      · rw [elifLinks?_none single] at h
        cases h
    · rintro ⟨last, h, hlast⟩
      obtain ⟨test, body, next, line, rfl, h⟩ := elseBehind?_succ.mp h
      exact (hnext test body next line).mpr (ih.mpr ⟨last, h, hlast⟩)

/-- Every link of a chain is an `if`, and the rest of the chain is behind it. -/
theorem exists_next {first rest : Nat} {orelse branch : List Stmt}
    (h : elseBehind? (first + rest + 1) orelse = some branch) :
    ∃ test body next line, elseBehind? first orelse = some [.mk (.if test body next) line] ∧
      elseBehind? rest next = some branch := by
  induction first generalizing orelse with
  | zero =>
    rw [Nat.zero_add] at h
    obtain ⟨test, body, next, line, rfl, h⟩ := elseBehind?_succ.mp h
    exact ⟨test, body, next, line, rfl, h⟩
  | succ first ih =>
    rw [Nat.succ_add_eq_add_succ] at h
    obtain ⟨test, body, next, line, rfl, h⟩ := elseBehind?_succ.mp h
    exact ih h

/-- A chain that reaches an else-branch of no statement or of several is none. -/
theorem elifLinks?_of_spoiled {links : Nat} {orelse branch : List Stmt}
    (h : elseBehind? links orelse = some branch) (spoiled : branch.length ≠ 1) :
    elifLinks? orelse = none := by
  induction links generalizing orelse with
  | zero =>
    obtain rfl := Option.some.inj h
    exact elifLinks?_none spoiled
  | succ links ih =>
    obtain ⟨test, body, next, line, rfl, h⟩ := elseBehind?_succ.mp h
    simp [elifLinks?, ih h]

/-! ### Three consecutive branches -/

theorem isElifChain_if {test : Expr} {body orelse : List Stmt} :
    Node.isElifChain (.stmt (.if test body orelse)) = true ↔
      ∃ links last, 2 ≤ links ∧ elseBehind? links orelse = some [last] ∧ isIf last = false := by
  have hlinks : Node.isElifChain (.stmt (.if test body orelse)) = true ↔
      ∃ links, 2 ≤ links ∧ elifLinks? orelse = some links := by
    rw [Node.isElifChain]
    cases elifLinks? orelse <;> simp
  simp only [hlinks, elifLinks?_eq_some_iff, exists_and_left]

theorem isElifChain_of_spoiled {links : Nat} {test : Expr} {body orelse branch : List Stmt}
    (h : elseBehind? links orelse = some branch) (spoiled : branch.length ≠ 1) :
    Node.isElifChain (.stmt (.if test body orelse)) = false := by
  rw [Node.isElifChain, elifLinks?_of_spoiled h spoiled]

theorem hasElifChain_iff {tree : Module} : (Record.ofModule tree).hasElifChain = true ↔
    ∃ test body orelse, Occurs tree (.stmt (.if test body orelse)) ∧
      ∃ links last, 2 ≤ links ∧ elseBehind? links orelse = some [last] ∧ isIf last = false := by
  have h := any_stmt_iff tree Node.isElifChain (fun _ _ => rfl)
  refine h.trans ⟨?_, ?_⟩
  · rintro ⟨form, ho, hp⟩
    cases form with
    | «if» test body orelse => exact ⟨test, body, orelse, ho, isElifChain_if.mp hp⟩
    | _ => cases hp
  · rintro ⟨test, body, orelse, ho, hchain⟩
    exact ⟨_, ho, isElifChain_if.mpr hchain⟩

/-- The `if` that an else-branch consists of occurs where the `if` before it does. -/
theorem occurs_next {tree : Module} {test nextTest : Expr} {body nextBody next : List Stmt}
    {line : Nat}
    (h : Occurs tree (.stmt (.if test body [.mk (.if nextTest nextBody next) line]))) :
    Occurs tree (.stmt (.if nextTest nextBody next)) :=
  .part h (List.mem_append_right _ (List.mem_singleton.mpr rfl))

/-- The last three `if` statements of a chain occur, whatever comes before them. -/
theorem window_of_chain {tree : Module} {test : Expr} {body orelse : List Stmt} {last : Stmt}
    (more : Nat) (ho : Occurs tree (.stmt (.if test body orelse)))
    (h : elseBehind? (more + 2) orelse = some [last]) :
    ∃ test₀ body₀ test₁ body₁ line₁ test₂ body₂ line₂,
      Occurs tree (.stmt (.if test₀ body₀
        [.mk (.if test₁ body₁ [.mk (.if test₂ body₂ [last]) line₂]) line₁])) := by
  induction more generalizing test body orelse with
  | zero =>
    obtain ⟨test₁, body₁, second, line₁, rfl, hsecond⟩ := elseBehind?_succ.mp h
    obtain ⟨test₂, body₂, third, line₂, rfl, hthird⟩ := elseBehind?_succ.mp hsecond
    obtain rfl := Option.some.inj hthird
    exact ⟨test, body, test₁, body₁, line₁, test₂, body₂, line₂, ho⟩
  | succ more ih =>
    obtain ⟨test₁, body₁, next, line₁, rfl, hnext⟩ := elseBehind?_succ.mp h
    exact ih (occurs_next ho) hnext

/-- The flag for a chain says exactly that three consecutive `if` statements occur, each the only
statement of the else-branch of the one before, with a single other statement at their end; and
equally that some `if` has any number of links from two on behind it, and then such an end. A
chain that meets any other else-branch sets no flag, neither for its first `if` nor for one on the
way there. -/
theorem elifChain_exact (tree : Module) :
    ((Record.ofModule tree).hasElifChain = true ↔
      ∃ test₀ body₀ test₁ body₁ line₁ test₂ body₂ line₂ last,
        Occurs tree (.stmt (.if test₀ body₀
          [.mk (.if test₁ body₁ [.mk (.if test₂ body₂ [last]) line₂]) line₁])) ∧
        isIf last = false) ∧
    ((Record.ofModule tree).hasElifChain = true ↔
      ∃ test body orelse, Occurs tree (.stmt (.if test body orelse)) ∧
        ∃ links last, 2 ≤ links ∧ elseBehind? links orelse = some [last] ∧ isIf last = false) ∧
    ∀ test body orelse links branch, elseBehind? links orelse = some branch → branch.length ≠ 1 →
      Node.isElifChain (.stmt (.if test body orelse)) = false ∧
      ∀ index < links, ∃ test' body' orelse' line,
        elseBehind? index orelse = some [.mk (.if test' body' orelse') line] ∧
        Node.isElifChain (.stmt (.if test' body' orelse')) = false := by
  refine ⟨⟨fun h => ?_, fun h => ?_⟩, hasElifChain_iff, fun test body orelse links branch h spoiled => ?_⟩
  · obtain ⟨test, body, orelse, ho, links, last, htwo, hbehind, hlast⟩ := hasElifChain_iff.mp h
    obtain ⟨more, rfl⟩ := Nat.exists_eq_add_of_le' htwo
    obtain ⟨test₀, body₀, test₁, body₁, line₁, test₂, body₂, line₂, hw⟩ :=
      window_of_chain more ho hbehind
    exact ⟨test₀, body₀, test₁, body₁, line₁, test₂, body₂, line₂, last, hw, hlast⟩
  · obtain ⟨test₀, body₀, test₁, body₁, line₁, test₂, body₂, line₂, last, hw, hlast⟩ := h
    exact hasElifChain_iff.mpr ⟨test₀, body₀, _, hw, 2, last, Nat.le_refl 2, rfl, hlast⟩
  · refine ⟨isElifChain_of_spoiled h spoiled, fun index hindex => ?_⟩
    obtain ⟨rest, rfl⟩ := Nat.exists_eq_add_of_lt hindex
    obtain ⟨test', body', orelse', line, hfirst, hrest⟩ := exists_next h
    exact ⟨test', body', orelse', line, hfirst, isElifChain_of_spoiled hrest spoiled⟩

/-- The else-branch of an `if`: two `elif`, and another else-branch behind them. -/
def twoLinks (last : List Stmt) : List Stmt :=
  [.mk (.if (.name "b") [] [.mk (.if (.name "c") [] last) 3]) 2]

/-- With an `else` of one statement two links make a chain, without any `else` they make none. -/
theorem elifChain_exact_twoLinks :
    (Record.ofModule ⟨[.mk (.if (.name "a") [] (twoLinks [.mk .pass 4])) 1]⟩).hasElifChain = true ∧
      Node.isElifChain (.stmt (.if (.name "a") [] (twoLinks []))) = false := by
  constructor
  · refine (elifChain_exact _).1.mpr ⟨.name "a", [], .name "b", [], 2, .name "c", [], 3, .mk .pass 4,
      ?_, rfl⟩
    exact .part .module (List.mem_singleton.mpr rfl)
  · exact ((elifChain_exact ⟨[]⟩).2.2 (.name "a") [] (twoLinks []) 2 [] rfl (by decide)).1

end Marksheet.Features
