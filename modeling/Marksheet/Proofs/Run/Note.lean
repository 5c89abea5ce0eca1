import Mathlib
import Marksheet.Run.Note

/-!
# What a note tells

A note is read member by member into two slots, each of which takes one member
of its name (`add_eq_some_iff`, `foldlM_add_eq_some_iff`). So a text is a note
exactly if it is a fault and a count, or an object that has one member for the
count, at most one for the fault, and any others besides (`ofText?_eq_some_iff`).
-/

namespace Marksheet.Run

namespace Note

open Json (Found Member Content)

/-- The members of a name. -/
def named (name : String) (members : List Member) : List Member :=
  members.filter fun member => member.key = name

/-- A slot after members of its name have been read: none leaves it, and an empty one takes one. -/
inductive Fills {α : Type} (read : Found → Option α) : Option α → List Member → Option α → Prop
  | leave (slot : Option α) : Fills read slot [] slot
  | take {member : Member} {value : α} (h : read member.found = some value) :
      Fills read none [member] (some value)

section Fills

variable {α : Type} {read : Found → Option α} {before after : Option α}

theorem fills_nil : Fills read before [] after ↔ before = after :=
  ⟨fun h => by cases h; rfl, fun h => h ▸ .leave before⟩

theorem fills_single {member : Member} :
    Fills read before [member] after ↔
      before = none ∧ ∃ value, read member.found = some value ∧ some value = after :=
  ⟨fun h => by cases h with | take h => exact ⟨rfl, _, h, rfl⟩,
    fun ⟨hbefore, _, h, hafter⟩ => hbefore ▸ hafter ▸ .take h⟩

/-- An empty slot stays empty or takes the only member of its name. -/
theorem fills_none {members : List Member} :
    Fills read none members after ↔
      members = [] ∧ after = none ∨
        ∃ member value, members = [member] ∧ read member.found = some value ∧
          after = some value := by
  constructor
  · rintro (_ | h)
    · exact .inl ⟨rfl, rfl⟩
    · exact .inr ⟨_, _, rfl, h, rfl⟩
  · rintro (⟨rfl, rfl⟩ | ⟨member, value, rfl, h, rfl⟩)
    · exact .leave none
    · exact .take h

/-- Members fill a slot one after the other; so there is room for one. -/
theorem fills_append {first rest : List Member} :
    Fills read before (first ++ rest) after ↔
      ∃ between, Fills read before first between ∧ Fills read between rest after := by
  constructor
  · intro h
    cases first with
    | nil => exact ⟨before, .leave before, h⟩
    | cons member first =>
      generalize hall : member :: first ++ rest = all at h
      cases h with
      | leave slot => cases hall
      | take h =>
        obtain ⟨rfl, hrest⟩ := List.cons_eq_cons.mp hall
        obtain ⟨rfl, rfl⟩ := List.append_eq_nil_iff.mp hrest
        exact ⟨_, .take h, .leave _⟩
  · rintro ⟨between, hfirst, hrest⟩
    cases hfirst with
    | leave slot => exact hrest
    | take h =>
      cases hrest with
      | leave slot => exact .take h

end Fills

/-- One member goes to the slot of its name, if it has one. -/
theorem add_eq_some_iff {draft next : Draft} {member : Member} :
    draft.add member = some next ↔
      member.keyWhole ∧ Fills fault? draft.fault (named "fault" [member]) next.fault ∧
        Fills count? draft.inputRequests (named "input_requests" [member]) next.inputRequests := by
  obtain ⟨fault, count⟩ := draft
  obtain ⟨fault', count'⟩ := next
  obtain ⟨key, whole, found⟩ := member
  have hnames : "fault" ≠ "input_requests" := by decide
  unfold Draft.add
  cases whole with
  | false => simp
  | true =>
    by_cases hfault : key = "fault"
    · subst hfault
      cases fault <;> simp [named, fills_single, fills_nil, hnames, ← and_assoc]
    · by_cases hcount : key = "input_requests"
      · subst hcount
        cases count <;> simp [named, fills_single, fills_nil, hnames.symm, and_left_comm]
      · simp [named, fills_nil, hfault, hcount]

/-- What has been read after all members: each slot is filled by the members of its name. -/
theorem foldlM_add_eq_some_iff {draft next : Draft} {members : List Member} :
    members.foldlM Draft.add draft = some next ↔
      (∀ member ∈ members, member.keyWhole) ∧
        Fills fault? draft.fault (named "fault" members) next.fault ∧
        Fills count? draft.inputRequests (named "input_requests" members)
          next.inputRequests := by
  induction members generalizing draft with
  | nil =>
    obtain ⟨fault, count⟩ := draft
    obtain ⟨fault', count'⟩ := next
    simp [named, fills_nil]
  | cons member members ih =>
    have hsplit : ∀ name, named name (member :: members) =
        named name [member] ++ named name members := fun name =>
      List.filter_append [member] members
    simp only [List.foldlM_cons, Option.bind_eq_bind, Option.bind_eq_some_iff, add_eq_some_iff, ih,
      hsplit, fills_append, List.forall_mem_cons]
    constructor
    · rintro ⟨between, ⟨hwhole, hfault, hcount⟩, hwholes, hfaults, hcounts⟩
      exact ⟨⟨hwhole, hwholes⟩, ⟨_, hfault, hfaults⟩, _, hcount, hcounts⟩
    · rintro ⟨⟨hwhole, hwholes⟩, ⟨fault, hfault, hfaults⟩, count, hcount, hcounts⟩
      exact ⟨⟨fault, count⟩, ⟨hwhole, hfault, hcount⟩, hwholes, hfaults, hcounts⟩

/-- What a text says of a run. -/
inductive Tells : Content → Note → Prop
  /-- A fault and a count. -/
  | pair {fault count : Found} {note : Note} (hfault : fault? fault = some note.fault)
      (hcount : count? count = some note.inputRequests) : Tells (.array [fault, count]) note
  /-- Members, of which one holds the count and at most one the fault. -/
  | members {members : List Member} {note : Note}
      (hwhole : ∀ member ∈ members, member.keyWhole)
      (hfault : named "fault" members = [] ∧ note.fault = none ∨
        ∃ member, named "fault" members = [member] ∧ fault? member.found = some note.fault)
      (hcount : ∃ member, named "input_requests" members = [member] ∧
        count? member.found = some note.inputRequests) : Tells (.object members) note

/-- What an object tells is read from its members, if they hold the count. -/
theorem tells_object_iff {members : List Member} {note : Note} :
    Tells (.object members) note ↔
      ∃ draft, members.foldlM Draft.add ⟨none, none⟩ = some draft ∧
        draft.inputRequests = some note.inputRequests ∧ draft.fault.getD none = note.fault := by
  simp only [foldlM_add_eq_some_iff, fills_none]
  constructor
  · rintro ⟨⟩
    rename_i hwhole hfault hcount
    obtain ⟨counted, hcounted, hcount⟩ := hcount
    rcases hfault with ⟨hnone, hfault⟩ | ⟨faulted, hfaulted, hfault⟩
    · exact ⟨⟨none, _⟩, ⟨hwhole, .inl ⟨hnone, rfl⟩, .inr ⟨_, _, hcounted, hcount, rfl⟩⟩,
        rfl, hfault.symm⟩
    · exact ⟨⟨some _, _⟩, ⟨hwhole, .inr ⟨_, _, hfaulted, hfault, rfl⟩,
        .inr ⟨_, _, hcounted, hcount, rfl⟩⟩, rfl, rfl⟩
  · rintro ⟨⟨fault, count⟩, ⟨hwhole, hfault, hcount⟩, hrequests, hnote⟩
    dsimp only at hfault hcount hrequests hnote
    rw [hrequests] at hcount
    obtain ⟨-, hnone⟩ | ⟨counted, value, hcounted, hcount, hvalue⟩ := hcount
    · cases hnone
    · cases hvalue
      refine .members hwhole ?_ ⟨counted, hcounted, hcount⟩
      obtain ⟨hnone, rfl⟩ | ⟨faulted, value, hfaulted, hfault, rfl⟩ := hfault
      · exact .inl ⟨hnone, hnote.symm⟩
      · exact .inr ⟨faulted, hfaulted, hfault.trans (congrArg some hnote)⟩

theorem tells_array_iff {items : List Found} {note : Note} :
    Tells (.array items) note ↔
      ∃ fault count, items = [fault, count] ∧ fault? fault = some note.fault ∧
        count? count = some note.inputRequests := by
  constructor
  · rintro (⟨hfault, hcount⟩)
    exact ⟨_, _, rfl, hfault, hcount⟩
  · rintro ⟨fault, count, rfl, hfault, hcount⟩
    exact .pair hfault hcount

/-- The note of a text is what the text tells. -/
theorem ofText?_eq_some_iff {text : String} {note : Note} :
    ofText? text = some note ↔
      ∃ content, Json.content? text = some content ∧ Tells content note := by
  obtain ⟨fault, count⟩ := note
  unfold ofText?
  cases Json.content? text with
  | none => simp
  | some content =>
    simp only [Option.bind_eq_bind, Option.bind_some, Option.some.injEq, exists_eq_left']
    split
    · simp [tells_array_iff, Option.bind_eq_some_iff]
    · simp [tells_object_iff, Option.bind_eq_some_iff]
    · rename_i hpair hobject
      refine iff_of_false nofun fun htells => ?_
      cases htells with
      | pair => exact hpair _ _ rfl
      | members => exact hobject _ rfl

end Note

end Marksheet.Run
