import Mathlib
import Marksheet.Grammar.Program
import Marksheet.Proofs.Features.Tally

/-!
# How often a program asks, and whether it saves the answers

The calls of `input` are counted by their addresses, so each call counts once.
The record has their number, and the two flags on input are both off exactly if
there is no call. Saved are those below the value of an assignment with neither
the default of a parameter nor the target of a comprehension on the way down
from the value. All calls below such values are counted exactly if none of them
stands in one of these two places; a default of a `lambda` that asks is below
the value and not counted.
-/

namespace Marksheet.Features

open Syntax

/-- A call of `input` stands at an address. -/
def InputCallAt (tree : Module) (address : Address) : Prop :=
  ∃ args kwargs, constructAt? tree address = some (.expr (.call (.name "input") args kwargs))

/-- An address leads through the value of a plain or annotated assignment. -/
def BelowValue (address : Address) : Prop := ∃ step ∈ address, step.2 = .value

variable {tree : Module}

theorem belowValue_of_savedAt {address : Address} (h : SavedAt address) : BelowValue address := by
  obtain ⟨front, index, back, rfl, -⟩ := h
  exact ⟨(index, .value), by simp, rfl⟩

theorem isInputCall_iff (form : Expr) (saved : Bool) :
    Node.isInputCall (.expr form saved) = true ↔
      ∃ args kwargs, form = .call (.name "input") args kwargs := by
  cases form with
  | call func args kwargs => cases func <;> simp [Node.isInputCall]
  | _ => simp [Node.isInputCall]

/-- A call counts as saved if it is a call of `input` and it is saved. -/
theorem isSavedInputCall_eq (form : Expr) (saved : Bool) :
    Node.isSavedInputCall (.expr form saved) = (saved && Node.isInputCall (.expr form saved)) := by
  cases form with
  | call func args kwargs => cases func <;> simp [Node.isSavedInputCall, Node.isInputCall]
  | _ => simp [Node.isSavedInputCall, Node.isInputCall]

theorem places_isInputCall :
    (Construct.module tree).places Node.isInputCall false = {address | InputCallAt tree address} := by
  ext address
  constructor
  · rintro ⟨found, node, ha, hn, hp⟩
    cases found with
    | expr form =>
      obtain rfl := Option.some.inj hn
      obtain ⟨args, kwargs, rfl⟩ := (isInputCall_iff _ _).mp hp
      exact ⟨args, kwargs, ha⟩
    | stmt form =>
      obtain rfl := Option.some.inj hn
      cases hp
    | module inner => cases hn
    | target form => cases hn
  · rintro ⟨args, kwargs, ha⟩
    exact ⟨_, _, ha, rfl, (isInputCall_iff _ _).mpr ⟨args, kwargs, rfl⟩⟩

theorem places_isSavedInputCall :
    (Construct.module tree).places Node.isSavedInputCall false =
      {address | InputCallAt tree address ∧ SavedAt address} := by
  ext address
  constructor
  · rintro ⟨found, node, ha, hn, hp⟩
    cases found with
    | expr form =>
      obtain rfl := Option.some.inj hn
      rw [isSavedInputCall_eq, Bool.and_eq_true, savedAlong_iff] at hp
      obtain ⟨args, kwargs, rfl⟩ := (isInputCall_iff _ _).mp hp.2
      exact ⟨⟨args, kwargs, ha⟩, hp.1⟩
    | stmt form =>
      obtain rfl := Option.some.inj hn
      cases hp
    | module inner => cases hn
    | target form => cases hn
  · rintro ⟨⟨args, kwargs, ha⟩, hs⟩
    refine ⟨_, _, ha, rfl, ?_⟩
    rw [isSavedInputCall_eq, Bool.and_eq_true, savedAlong_iff]
    exact ⟨hs, (isInputCall_iff _ _).mpr ⟨args, kwargs, rfl⟩⟩

theorem encard_inputCallAt (tree : Module) :
    {address | InputCallAt tree address}.encard = (Record.ofModule tree).inputCalls := by
  rw [← places_isInputCall, encard_places]
  rfl

theorem encard_savedInputCallAt (tree : Module) :
    {address | InputCallAt tree address ∧ SavedAt address}.encard =
      (Record.ofModule tree).savedInputCalls := by
  rw [← places_isSavedInputCall, encard_places]
  rfl

/-- Only calls of `input` are saved calls of `input`. -/
theorem savedInputCalls_le (tree : Module) :
    (Record.ofModule tree).savedInputCalls ≤ (Record.ofModule tree).inputCalls := by
  have hsubset : {address | InputCallAt tree address ∧ SavedAt address} ⊆
      {address | InputCallAt tree address} := fun _ h => h.1
  have hle := Set.encard_le_encard hsubset
  rw [encard_inputCallAt, encard_savedInputCallAt] at hle
  exact_mod_cast hle

/-- Input is asked for somewhere exactly if the number of calls is not zero. -/
theorem inputCalls_pos_iff (tree : Module) : 0 < (Record.ofModule tree).inputCalls ↔
    ∃ args kwargs, Occurs tree (.expr (.call (.name "input") args kwargs)) := by
  have hset : 0 < (Record.ofModule tree).inputCalls ↔ {address | InputCallAt tree address}.Nonempty := by
    rw [← Set.encard_ne_zero, encard_inputCallAt, Nat.cast_ne_zero, Nat.pos_iff_ne_zero]
  rw [hset]
  constructor
  · rintro ⟨address, args, kwargs, ha⟩
    exact ⟨args, kwargs, occurs_iff_at?.mpr ⟨address, ha⟩⟩
  · rintro ⟨args, kwargs, ho⟩
    obtain ⟨address, ha⟩ := occurs_iff_at?.mp ho
    exact ⟨address, args, kwargs, ha⟩

/-- A call of `input` is an expression or is reached from it through ordinary parts. -/
def Asks (value : Expr) : Prop :=
  ∃ back args kwargs, (∀ step ∈ back, step.2 = .part) ∧
    (Construct.expr value).at? back = some (.expr (.call (.name "input") args kwargs))

theorem not_asks_unsupported (kind : String) : ¬ Asks (.unsupported kind) := by
  rintro ⟨back, args, kwargs, -, h⟩
  cases back with
  | nil => cases h
  | cons step back =>
    obtain ⟨part, hp, -⟩ := Construct.at?_cons.mp h
    cases hp

/-- An assignment whose value asks saves an answer. -/
theorem hasInputSaved_of_value {whole : Construct} {value : Expr} (hw : Occurs tree whole)
    (hv : (Role.value, Construct.expr value) ∈ whole.parts) (hasks : Asks value) :
    (Record.ofModule tree).hasInputSaved = true := by
  obtain ⟨address, ha⟩ := occurs_iff_at?.mp hw
  obtain ⟨index, hi⟩ := List.mem_iff_getElem?.mp hv
  obtain ⟨back, args, kwargs, hback, hb⟩ := hasks
  have hbelow := Construct.at?_cons.mpr ⟨_, hi, hb⟩
  have hcall : InputCallAt tree (address ++ (index, .value) :: back) :=
    ⟨args, kwargs, Construct.at?_append.mpr ⟨whole, ha, hbelow⟩⟩
  have hsaved : SavedAt (address ++ (index, .value) :: back) := ⟨address, index, back, rfl, hback⟩
  have hset : {address | InputCallAt tree address ∧ SavedAt address}.Nonempty := ⟨_, hcall, hsaved⟩
  rw [← Set.encard_ne_zero, encard_savedInputCallAt, Nat.cast_ne_zero] at hset
  simp only [Record.hasInputSaved, decide_eq_true_eq]
  omega

/-- The record has the number of calls of `input`, at least as many as the saved ones. Neither flag
on input is set exactly if nothing asks. -/
theorem inputCalls_exact (tree : Module) :
    {address | InputCallAt tree address}.encard = (Record.ofModule tree).inputCalls ∧
    (Record.ofModule tree).savedInputCalls ≤ (Record.ofModule tree).inputCalls ∧
    ((Record.ofModule tree).hasInputSaved = false ∧ (Record.ofModule tree).hasInputUnsaved = false ↔
      ¬ ∃ args kwargs, Occurs tree (.expr (.call (.name "input") args kwargs))) ∧
    ((∃ args kwargs, Occurs tree (.expr (.call (.name "input") args kwargs))) →
      (Record.ofModule tree).hasInputSaved = true ∨ (Record.ofModule tree).hasInputUnsaved = true) := by
  have hle := savedInputCalls_le tree
  rw [← inputCalls_pos_iff]
  refine ⟨encard_inputCallAt tree, hle, ?_, ?_⟩
  · simp only [Record.hasInputSaved, Record.hasInputUnsaved, decide_eq_false_iff_not]
    omega
  · intro hpos
    simp only [Record.hasInputSaved, Record.hasInputUnsaved, decide_eq_true_eq]
    omega

/-- The saved calls are those that the value of an assignment reaches through ordinary parts alone.
They are all the calls below such values exactly if no call is reached in another way. -/
theorem savedInputCalls_exact (tree : Module) :
    {address | InputCallAt tree address ∧ SavedAt address}.encard =
      (Record.ofModule tree).savedInputCalls ∧
    ({address | InputCallAt tree address ∧ BelowValue address}.encard =
        (Record.ofModule tree).savedInputCalls ↔
      ∀ address, InputCallAt tree address → BelowValue address → SavedAt address) := by
  refine ⟨encard_savedInputCallAt tree, ?_⟩
  have hsubset : {address | InputCallAt tree address ∧ SavedAt address} ⊆
      {address | InputCallAt tree address ∧ BelowValue address} :=
    fun _ h => ⟨h.1, belowValue_of_savedAt h.2⟩
  constructor
  · intro hcount address hcall hbelow
    have hfinite := Set.finite_of_encard_eq_coe (encard_savedInputCallAt tree)
    have hle : {address | InputCallAt tree address ∧ BelowValue address}.encard ≤
        {address | InputCallAt tree address ∧ SavedAt address}.encard := by
      rw [hcount, encard_savedInputCallAt]
    have hsame := hfinite.eq_of_subset_of_encard_le hsubset hle
    have hmem : address ∈ {address | InputCallAt tree address ∧ SavedAt address} := by
      rw [hsame]
      exact ⟨hcall, hbelow⟩
    exact hmem.2
  · intro hall
    have hsame : {address | InputCallAt tree address ∧ BelowValue address} =
        {address | InputCallAt tree address ∧ SavedAt address} :=
      Set.Subset.antisymm (fun address h => ⟨h.1, hall address h.1 h.2⟩) hsubset
    rw [hsame, encard_savedInputCallAt]

/-- The default of a `lambda` parameter asks below the value of an assignment, and its answer does
not count as saved. -/
theorem savedInputCalls_lambda_default :
    ∃ tree, Grammar.parse "f = lambda x=input(): x\n" = .ok tree ∧
      (Record.ofModule tree).savedInputCalls = 0 ∧
      {address | InputCallAt tree address ∧ BelowValue address}.encard ≠
        (Record.ofModule tree).savedInputCalls := by
  let ask : Expr := .call (.name "input") [] []
  let tree : Module := ⟨[.mk (.assign [.name "f"] (.lambda [.mk "x" (some ask)] (.name "x"))) 1]⟩
  have hparse : Grammar.parse "f = lambda x=input(): x\n" = .ok tree := by cbv
  have hzero : (Record.ofModule tree).savedInputCalls = 0 := rfl
  have hmember : [(0, .part), (1, .value), (0, .default)] ∈
      {address | InputCallAt tree address ∧ BelowValue address} :=
    ⟨⟨[], [], rfl⟩, (1, .value), by simp, rfl⟩
  refine ⟨tree, hparse, hzero, ?_⟩
  rw [hzero, Nat.cast_zero, Set.encard_ne_zero]
  exact ⟨_, hmember⟩

end Marksheet.Features
