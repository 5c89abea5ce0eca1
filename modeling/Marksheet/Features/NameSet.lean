/-!
# Sets of names

A set of names is its members in strictly rising order, compared character by
character, so a set lists each member once. `mem_insert` says what insertion
adds, and `mem_ofList` that a list gives the set of its names.
-/

namespace Marksheet.Features

/-- A finite set of names in rising order. -/
structure NameSet where
  toList : List String
  /-- Each name comes before all that follow it. -/
  sorted : toList.Pairwise (· < ·)

namespace NameSet

instance : Inhabited NameSet := ⟨⟨[], .nil⟩⟩

instance : DecidableEq NameSet := fun a b =>
  if h : a.toList = b.toList then
    .isTrue (by cases a; cases b; simp_all)
  else .isFalse fun e => h (e ▸ rfl)

/-- The set without members. -/
def empty : NameSet := ⟨[], .nil⟩

instance : Membership String NameSet := ⟨fun set name => name ∈ set.toList⟩

instance (name : String) (set : NameSet) : Decidable (name ∈ set) :=
  inferInstanceAs (Decidable (name ∈ set.toList))

theorem mem_def {name : String} {set : NameSet} : name ∈ set ↔ name ∈ set.toList := Iff.rfl

theorem not_mem_empty (name : String) : name ∉ empty := by simp [mem_def, empty]

/-- Place a name in rising order, unless it is there already. -/
def place (name : String) : List String → List String
  | [] => [name]
  | head :: rest =>
    if name < head then name :: head :: rest
    else if name = head then head :: rest
    else head :: place name rest

theorem mem_place {name other : String} (names : List String) :
    other ∈ place name names ↔ other = name ∨ other ∈ names := by
  induction names with
  | nil => simp [place]
  | cons head rest ih =>
    unfold place
    split
    · simp
    · split
      · next h => subst h; simp
      · simp [ih]; grind

theorem lt_of_not_lt_of_ne {a b : String} (h : ¬ a < b) (ne : a ≠ b) : b < a := by
  have le : b ≤ a := String.not_lt.mp h
  by_cases g : b < a
  · exact g
  · exact absurd (String.le_antisymm (String.not_lt.mp g) le) ne

theorem place_sorted (name : String) {names : List String} (h : names.Pairwise (· < ·)) :
    (place name names).Pairwise (· < ·) := by
  induction names with
  | nil => simp [place]
  | cons head rest ih =>
    have ⟨first, others⟩ := List.pairwise_cons.mp h
    unfold place
    split
    · next lt =>
      refine List.pairwise_cons.mpr ⟨fun other member => ?_, h⟩
      rcases List.mem_cons.mp member with rfl | member
      · exact lt
      · exact String.lt_trans lt (first other member)
    · next notLt =>
      split
      · exact h
      · next ne =>
        refine List.pairwise_cons.mpr ⟨fun other member => ?_, ih others⟩
        rcases (mem_place rest).mp member with rfl | member
        · exact lt_of_not_lt_of_ne notLt ne
        · exact first other member

/-- The set with one more name. -/
def insert (name : String) (set : NameSet) : NameSet :=
  ⟨place name set.toList, place_sorted name set.sorted⟩

/-- The set of the names in a list. -/
def ofList (names : List String) : NameSet := names.foldr insert empty

theorem mem_insert {name other : String} {set : NameSet} :
    other ∈ set.insert name ↔ other = name ∨ other ∈ set := mem_place _

theorem mem_ofList {name : String} {names : List String} : name ∈ ofList names ↔ name ∈ names := by
  induction names with
  | nil => simp [ofList, not_mem_empty]
  | cons head rest ih =>
    have step : name ∈ ofList (head :: rest) ↔ name = head ∨ name ∈ ofList rest := mem_insert
    rw [step, ih, List.mem_cons]

/-- The set has no members. -/
def isEmpty (set : NameSet) : Bool := set.toList.isEmpty

end NameSet

end Marksheet.Features
