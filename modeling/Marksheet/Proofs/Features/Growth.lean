import Mathlib.Data.List.Perm.Subperm
import Marksheet.Proofs.Features.Input
import Marksheet.Proofs.Features.StringVariables
import Marksheet.Proofs.Syntax.Context

/-!
# Growing blocks

What does a record lose when a block of the tree grows? The place is the hole
of a context. A list of nodes grows into another one if each node is found
there, in any order, as it was or around a block that has grown
(`NodesGrow`); contexts carry the growth of a block to the whole tree
(`nodes_plug`). No test of a record but the one for chains of `elif` is turned
off by a growing block, and that one only where the links of `elif` change. So
the record keeps its credit (`keeps_of_grown`), for one where a statement is put
into a block (`keeps_insert`); chains of `elif` stay too unless the block is
itself the else-branch of an `if` (`hasElifChain_insert`).
-/

namespace Marksheet.Features

open Syntax

/-! ### Nodes around a growing block -/

/-- A block that has grown is still not empty, and still has an `if` if it had one. -/
structure Swells (block grown : List Stmt) : Prop where
  nonempty : block.isEmpty = false → grown.isEmpty = false
  hasIf : block.any isIf = true → grown.any isIf = true

/-- A node as it was, or the same statement around a block that has grown. If chains matter, an
else-branch of an `if` has the same links of `elif` as before. -/
inductive Node.Grows (chains : Prop) : Node → Node → Prop where
  | same (node : Node) : Grows chains node node
  | around (frame : Frame) {block grown : List Stmt} (more : Swells block grown)
      (links : chains → frame.isElse = true → elifLinks? grown = elifLinks? block) :
      Grows chains (.stmt (frame.fill block)) (.stmt (frame.fill grown))

theorem isIf_fill (frame : Frame) (line : Nat) (block grown : List Stmt) :
    isIf (.mk (frame.fill block) line) = isIf (.mk (frame.fill grown) line) := by
  cases frame <;> rfl

theorem swells_layer (layer : Layer) (inner : Context) (block grown : List Stmt) :
    Swells (plug (layer :: inner) block) (plug (layer :: inner) grown) where
  nonempty := by simp [plug]
  hasIf := by
    simp only [plug, List.any_append, List.any_cons]
    rw [isIf_fill layer.frame layer.line (plug inner block) (plug inner grown)]
    exact id

theorem swells_plug (context : Context) {block grown : List Stmt} (h : Swells block grown) :
    Swells (plug context block) (plug context grown) := by
  cases context with
  | nil => exact h
  | cons layer inner => exact swells_layer layer inner block grown

theorem elifLinks?_none {block : List Stmt} (h : block.length ≠ 1) : elifLinks? block = none := by
  match block with
  | [] => simp only [elifLinks?]
  | [_] => simp at h
  | _ :: _ :: _ => simp only [elifLinks?]

/-- A layer hands the links of `elif` on from an else-branch, and depends on no other block. -/
theorem elifLinks?_layer (layer : Layer) {block grown : List Stmt}
    (links : layer.frame.isElse = true → elifLinks? grown = elifLinks? block) :
    elifLinks? (layer.before ++ .mk (layer.frame.fill grown) layer.line :: layer.after) =
      elifLinks? (layer.before ++ .mk (layer.frame.fill block) layer.line :: layer.after) := by
  by_cases single : layer.before = [] ∧ layer.after = []
  · rw [single.1, single.2]
    cases hf : layer.frame with
    | ifElse test body =>
      rw [hf] at links
      simp only [Frame.fill, List.nil_append, elifLinks?, links rfl]
    | _ => simp only [Frame.fill, List.nil_append, elifLinks?]
  · have several : ∀ stmt : Stmt, (layer.before ++ stmt :: layer.after).length ≠ 1 := by
      intro stmt hl
      rw [List.length_append, List.length_cons] at hl
      exact single ⟨List.length_eq_zero_iff.mp (by omega), List.length_eq_zero_iff.mp (by omega)⟩
    rw [elifLinks?_none (several _), elifLinks?_none (several _)]

/-- Only the growth of a whole else-branch of an `if` changes the links of `elif` around it. -/
theorem elifLinks?_plug (layer : Layer) (inner : Context) {block grown : List Stmt}
    (links : inElse (layer :: inner) = true → elifLinks? grown = elifLinks? block) :
    elifLinks? (plug (layer :: inner) grown) = elifLinks? (plug (layer :: inner) block) := by
  induction inner generalizing layer with
  | nil => exact elifLinks?_layer layer links
  | cons next inner ih => exact elifLinks?_layer layer fun _ => ih next links

theorem stmtNodes_eq_flatMap (block : List Stmt) :
    stmtNodes block = block.flatMap fun stmt => .stmt stmt.kind :: belowStmt stmt.kind := by
  induction block with
  | nil => rfl
  | cons stmt rest ih =>
    obtain ⟨form, line⟩ := stmt
    rw [stmtNodes, ih, List.flatMap_cons]
    rfl

theorem stmtNodes_append (first second : List Stmt) :
    stmtNodes (first ++ second) = stmtNodes first ++ stmtNodes second := by
  simp only [stmtNodes_eq_flatMap, List.flatMap_append]

theorem handlerNodes_append (first second : List Handler) :
    handlerNodes (first ++ second) = handlerNodes first ++ handlerNodes second := by
  induction first with
  | nil => rfl
  | cons handler rest ih =>
    obtain ⟨kind, name, body, line⟩ := handler
    simp [handlerNodes, ih]

theorem caseNodes_append (first second : List MatchCase) :
    caseNodes (first ++ second) = caseNodes first ++ caseNodes second := by
  induction first with
  | nil => rfl
  | cons clause rest ih =>
    obtain ⟨guard, body⟩ := clause
    simp [caseNodes, ih]

/-- The nodes of a filled frame are those of its block among others that do not depend on it. -/
theorem belowStmt_fill (frame : Frame) : ∃ front back, ∀ block,
    belowStmt (frame.fill block) = front ++ stmtNodes block ++ back := by
  cases frame with
  | ifBody test orelse | whileBody test orelse =>
    exact ⟨nodesOf false test, stmtNodes orelse, fun _ => rfl⟩
  | ifElse test body | whileElse test body =>
    exact ⟨nodesOf false test ++ stmtNodes body, [], by simp [Frame.fill, belowStmt]⟩
  | forBody target iter orelse =>
    exact ⟨targetNodes target ++ nodesOf false iter, stmtNodes orelse, fun _ => rfl⟩
  | forElse target iter body =>
    exact ⟨targetNodes target ++ nodesOf false iter ++ stmtNodes body, [],
      by simp [Frame.fill, belowStmt]⟩
  | functionDef name params decorators =>
    exact ⟨exprNodes false decorators ++ paramNodes params, [], by simp [Frame.fill, belowStmt]⟩
  | classDef name bases decorators =>
    exact ⟨exprNodes false decorators ++ exprNodes false bases, [],
      by simp [Frame.fill, belowStmt]⟩
  | «with» items => exact ⟨withItemNodes items, [], by simp [Frame.fill, belowStmt]⟩
  | tryBody handlers orelse finalbody =>
    exact ⟨[], handlerNodes handlers ++ stmtNodes orelse ++ stmtNodes finalbody,
      by simp [Frame.fill, belowStmt]⟩
  | handler body before kind name line after orelse finalbody =>
    exact ⟨stmtNodes body ++ handlerNodes before ++ optionNodes false kind,
      handlerNodes after ++ stmtNodes orelse ++ stmtNodes finalbody,
      by simp [Frame.fill, belowStmt, handlerNodes_append, handlerNodes]⟩
  | tryElse body handlers finalbody =>
    exact ⟨stmtNodes body ++ handlerNodes handlers, stmtNodes finalbody, fun _ => rfl⟩
  | finalBody body handlers orelse =>
    exact ⟨stmtNodes body ++ handlerNodes handlers ++ stmtNodes orelse, [],
      by simp [Frame.fill, belowStmt]⟩
  | case subjects before guard after =>
    exact ⟨exprNodes false subjects ++ caseNodes before ++ optionNodes false guard, caseNodes after,
      by simp [Frame.fill, belowStmt, caseNodes_append, caseNodes]⟩

section

variable {chains : Prop}

/-- Each node is found in another list, as it was or around a block that has grown. -/
def NodesGrow (chains : Prop) (nodes grown : List Node) : Prop :=
  ∃ kept, List.Forall₂ (Node.Grows chains) nodes kept ∧ kept.Subperm grown

theorem NodesGrow.of_subperm {nodes grown : List Node} (h : nodes.Subperm grown) :
    NodesGrow chains nodes grown :=
  ⟨nodes, List.forall₂_same.mpr fun node _ => .same node, h⟩

theorem NodesGrow.append {first second grown more : List Node} (h : NodesGrow chains first grown)
    (g : NodesGrow chains second more) : NodesGrow chains (first ++ second) (grown ++ more) := by
  obtain ⟨kept, hk, hs⟩ := h
  obtain ⟨also, ha, ht⟩ := g
  exact ⟨kept ++ also, List.rel_append hk ha, hs.append ht⟩

theorem NodesGrow.cons {node other : Node} {nodes grown : List Node}
    (head : Node.Grows chains node other) (h : NodesGrow chains nodes grown) :
    NodesGrow chains (node :: nodes) (other :: grown) := by
  obtain ⟨kept, hk, hs⟩ := h
  exact ⟨other :: kept, .cons head hk, (List.subperm_cons other).mpr hs⟩

/-- Every node of a tree stays when the block in the hole of a context grows. -/
theorem nodes_plug (context : Context) {block grown : List Stmt} (more : Swells block grown)
    (links : chains → inElse context = true → elifLinks? grown = elifLinks? block)
    (kept : NodesGrow chains (stmtNodes block) (stmtNodes grown)) :
    NodesGrow chains (stmtNodes (plug context block)) (stmtNodes (plug context grown)) := by
  induction context with
  | nil => exact kept
  | cons layer inner ih =>
    have linksBelow : chains → layer.frame.isElse = true →
        elifLinks? (plug inner grown) = elifLinks? (plug inner block) := fun hc he => by
      cases inner with
      | nil => exact links hc he
      | cons next rest => exact elifLinks?_plug next rest (links hc)
    have keptBelow : NodesGrow chains (stmtNodes (plug inner block))
        (stmtNodes (plug inner grown)) := ih fun hc he => by
      cases inner with
      | nil => simp [inElse] at he
      | cons next rest => exact links hc he
    have around := Node.Grows.around layer.frame (swells_plug inner more) linksBelow
    have same (nodes : List Node) : NodesGrow chains nodes nodes := .of_subperm (.refl nodes)
    obtain ⟨front, back, below⟩ := belowStmt_fill layer.frame
    simp only [plug, stmtNodes_append, stmtNodes, below]
    exact (same _).append (.cons around
      ((((same front).append keptBelow).append (same back)).append (same _)))

/-! ### Tests on the nodes -/

/-- What does not depend on the blocks of a statement. -/
def Blind {α : Type} (f : Node → α) : Prop :=
  ∀ (frame : Frame) (block grown : List Stmt),
    f (.stmt (frame.fill grown)) = f (.stmt (frame.fill block))

theorem Node.Grows.eq {α : Type} {f : Node → α} (blind : Blind f) {node grown : Node}
    (h : Node.Grows chains node grown) : f grown = f node := by
  cases h with
  | same => rfl
  | around frame => exact blind frame _ _

/-- A test that growing blocks do not turn off. -/
def Steady (chains : Prop) (test : Node → Bool) : Prop :=
  ∀ ⦃node grown : Node⦄, Node.Grows chains node grown → test node = true → test grown = true

theorem Blind.steady {test : Node → Bool} (blind : Blind test) : Steady chains test :=
  fun _ _ h ht => (h.eq blind).trans ht

theorem exists_grown {nodes grown : List Node} (h : NodesGrow chains nodes grown) {node : Node}
    (member : node ∈ nodes) : ∃ other ∈ grown, Node.Grows chains node other := by
  obtain ⟨kept, hk, hs⟩ := h
  obtain ⟨index, bound, rfl⟩ := List.getElem_of_mem member
  have there : index < kept.length := hk.length_eq ▸ bound
  exact ⟨kept[index], hs.subset (List.getElem_mem there), hk.get bound there⟩

theorem any_grown {test : Node → Bool} (steady : Steady chains test) {nodes grown : List Node}
    (h : NodesGrow chains nodes grown) (found : nodes.any test = true) :
    grown.any test = true := by
  obtain ⟨node, hn, ht⟩ := List.any_eq_true.mp found
  obtain ⟨other, ho, grows⟩ := exists_grown h hn
  exact List.any_eq_true.mpr ⟨other, ho, steady grows ht⟩

theorem countP_grown {test : Node → Bool} (blind : Blind test) {nodes grown : List Node}
    (h : NodesGrow chains nodes grown) : nodes.countP test ≤ grown.countP test := by
  obtain ⟨kept, hk, hs⟩ := h
  have same : nodes.countP test = kept.countP test := by
    clear hs
    induction hk with
    | nil => rfl
    | cons head _ ih => simp only [List.countP_cons, head.eq blind, ih]
  exact same.trans_le (hs.countP_le test)

theorem mem_flatMap_grown {α : Type} {f : Node → List α} (blind : Blind f) {nodes grown : List Node}
    (h : NodesGrow chains nodes grown) {item : α} (member : item ∈ nodes.flatMap f) :
    item ∈ grown.flatMap f := by
  obtain ⟨node, hn, hi⟩ := List.mem_flatMap.mp member
  obtain ⟨other, ho, grows⟩ := exists_grown h hn
  exact List.mem_flatMap.mpr ⟨other, ho, (grows.eq blind).symm ▸ hi⟩

theorem blind_isIf : Blind Node.isIf := fun frame _ _ => by cases frame <;> rfl

theorem blind_isFor : Blind Node.isFor := fun frame _ _ => by cases frame <;> rfl

theorem blind_importsRandom : Blind Node.importsRandom := fun frame _ _ => by cases frame <;> rfl

theorem blind_importsChoice : Blind Node.importsChoice := fun frame _ _ => by cases frame <;> rfl

theorem blind_stringNames : Blind Node.stringNames := fun frame _ _ => by cases frame <;> rfl

theorem steady_isIfElse : Steady chains Node.isIfElse := by
  rintro _ _ (_ | ⟨frame, more, -⟩) ht
  · exact ht
  · cases frame with
    | ifElse test body =>
      simp only [Frame.fill, Node.isIfElse, Bool.not_eq_true'] at ht ⊢
      exact more.nonempty ht
    | _ => exact ht

theorem steady_isNestedIf : Steady chains Node.isNestedIf := by
  rintro _ _ (_ | ⟨frame, more, -⟩) ht
  · exact ht
  · cases frame with
    | ifBody test orelse => exact more.hasIf ht
    | _ => exact ht

theorem steady_isElifChain (hc : chains) : Steady chains Node.isElifChain := by
  rintro _ _ (_ | ⟨frame, -, links⟩) ht
  · exact ht
  · cases frame with
    | ifElse test body =>
      simp only [Frame.fill, Node.isElifChain, links hc rfl] at ht ⊢
      exact ht
    | _ => exact ht

/-! ### What a record keeps -/

/-- A record gives all the credit that another one gives, chains of `elif` apart. -/
structure Record.Keeps (old new : Record) : Prop where
  hasIf : old.hasIf = true → new.hasIf = true
  hasIfElse : old.hasIfElse = true → new.hasIfElse = true
  usesOr : old.usesOr = true → new.usesOr = true
  usesAnd : old.usesAnd = true → new.usesAnd = true
  hasComparison : old.hasComparison = true → new.hasComparison = true
  usesInOperator : old.usesInOperator = true → new.usesInOperator = true
  usesStringMethod : old.usesStringMethod = true → new.usesStringMethod = true
  usesRandomChoice : old.usesRandomChoice = true → new.usesRandomChoice = true
  importsRandom : old.importsRandom = true → new.importsRandom = true
  importsRandomChoice : old.importsRandomChoice = true → new.importsRandomChoice = true
  hasListOfStrings : old.hasListOfStrings = true → new.hasListOfStrings = true
  hasForLoop : old.hasForLoop = true → new.hasForLoop = true
  hasNestedIf : old.hasNestedIf = true → new.hasNestedIf = true
  inputCalls : old.inputCalls ≤ new.inputCalls
  savedInputCalls : old.savedInputCalls ≤ new.savedInputCalls
  stringVars : ∀ name ∈ old.stringVars, name ∈ new.stringVars
  printsStringVar : old.printsStringVar = true → new.printsStringVar = true
  concatenatesStrings : old.concatenatesStrings = true → new.concatenatesStrings = true
  printsBoolean : old.printsBoolean = true → new.printsBoolean = true
  hasInputSaved : old.hasInputSaved = true → new.hasInputSaved = true
  hasInputUnsaved : old.hasInputUnsaved = true → new.hasInputUnsaved = true
  randomChoiceOk : old.randomChoiceOk = true → new.randomChoiceOk = true
  assignsString : old.assignsString = true → new.assignsString = true
  usesBooleanLogic : old.usesBooleanLogic = true → new.usesBooleanLogic = true

/-- A call of `input` whose answer no assignment saves. -/
def Node.isUnsavedInputCall (node : Node) : Bool := node.isInputCall && !node.isSavedInputCall

theorem Node.isInputCall_of_saved {node : Node} (h : node.isSavedInputCall = true) :
    node.isInputCall = true := by
  rcases node with form | ⟨form, saved⟩
  · exact h
  · rw [isSavedInputCall_eq, Bool.and_eq_true] at h
    exact h.2

theorem countP_isInputCall (nodes : List Node) :
    nodes.countP Node.isInputCall =
      nodes.countP Node.isSavedInputCall + nodes.countP Node.isUnsavedInputCall := by
  induction nodes with
  | nil => rfl
  | cons node rest ih =>
    simp only [List.countP_cons, ih, Node.isUnsavedInputCall]
    by_cases hs : node.isSavedInputCall = true
    · simp only [hs, Node.isInputCall_of_saved hs, if_true, Bool.not_true, Bool.and_false,
        Bool.false_eq_true, if_false]
      omega
    · simp only [hs, Bool.not_false, Bool.and_true, Bool.false_eq_true, if_false]
      omega

theorem hasInputUnsaved_iff (nodes : List Node) :
    (Record.ofNodes nodes).hasInputUnsaved = true ↔ 0 < nodes.countP Node.isUnsavedInputCall := by
  simp only [Record.hasInputUnsaved, Record.ofNodes, decide_eq_true_eq, countP_isInputCall]
  omega

theorem mem_stringVars_ofNodes {name : String} {nodes : List Node} :
    name ∈ (Record.ofNodes nodes).stringVars ↔ name ∈ nodes.flatMap Node.stringNames :=
  NameSet.mem_ofList

theorem isNameIn_mono {names more : NameSet} (h : ∀ name ∈ names, name ∈ more) {value : Expr}
    (hv : isNameIn names value = true) : isNameIn more value = true := by
  obtain ⟨name, hn, rfl⟩ := (isNameIn_iff names value).mp hv
  exact (isNameIn_iff more _).mpr ⟨name, h name hn, rfl⟩

theorem assignsString_iff_mem (record : Record) :
    record.assignsString = true ↔ ∃ name, name ∈ record.stringVars := by
  simp only [Record.assignsString, NameSet.isEmpty, NameSet.mem_def]
  cases record.stringVars.toList with
  | nil => simp
  | cons name rest => simp

section

variable {nodes grown : List Node} (h : NodesGrow chains nodes grown)
include h

theorem stringVars_grown {name : String} (hn : name ∈ (Record.ofNodes nodes).stringVars) :
    name ∈ (Record.ofNodes grown).stringVars :=
  mem_stringVars_ofNodes.mpr
    (mem_flatMap_grown blind_stringNames h (mem_stringVars_ofNodes.mp hn))

theorem printsStringVar_grown (hp : (Record.ofNodes nodes).printsStringVar = true) :
    (Record.ofNodes grown).printsStringVar = true := by
  obtain ⟨node, hn, arg, ha, hv⟩ : ∃ node ∈ nodes, ∃ arg ∈ node.printed,
      isNameIn (Record.ofNodes nodes).stringVars arg = true := by
    simpa only [Record.ofNodes, List.any_eq_true] using hp
  have there : arg ∈ grown.flatMap Node.printed :=
    mem_flatMap_grown (fun _ _ _ => rfl) h (List.mem_flatMap.mpr ⟨node, hn, ha⟩)
  obtain ⟨other, ho, hm⟩ := List.mem_flatMap.mp there
  refine List.any_eq_true.mpr ⟨other, ho, List.any_eq_true.mpr ⟨arg, hm, ?_⟩⟩
  exact isNameIn_mono (fun _ => stringVars_grown h) hv

theorem concatenatesStrings_grown (hc : (Record.ofNodes nodes).concatenatesStrings = true) :
    (Record.ofNodes grown).concatenatesStrings = true := by
  obtain ⟨node, hn, operand, ha, hv⟩ : ∃ node ∈ nodes, ∃ operand ∈ node.addends,
      (operand.isStr || isNameIn (Record.ofNodes nodes).stringVars operand) = true := by
    simpa only [Record.ofNodes, List.any_eq_true] using hc
  have there : operand ∈ grown.flatMap Node.addends :=
    mem_flatMap_grown (fun _ _ _ => rfl) h (List.mem_flatMap.mpr ⟨node, hn, ha⟩)
  obtain ⟨other, ho, hm⟩ := List.mem_flatMap.mp there
  refine List.any_eq_true.mpr ⟨other, ho, List.any_eq_true.mpr ⟨operand, hm, ?_⟩⟩
  rw [Bool.or_eq_true] at hv ⊢
  exact hv.imp_right (isNameIn_mono fun _ => stringVars_grown h)

/-- The answers that nothing saves only get more, since a call is counted as saved or as unsaved. -/
theorem hasInputUnsaved_grown (hu : (Record.ofNodes nodes).hasInputUnsaved = true) :
    (Record.ofNodes grown).hasInputUnsaved = true := by
  rw [hasInputUnsaved_iff] at hu ⊢
  exact hu.trans_le (countP_grown (fun _ _ _ => rfl) h)

theorem keeps_of_grown : (Record.ofNodes nodes).Keeps (Record.ofNodes grown) := by
  have usesOr : (Record.ofNodes nodes).usesOr = true → (Record.ofNodes grown).usesOr = true :=
    any_grown (Blind.steady fun _ _ _ => rfl) h
  have usesAnd : (Record.ofNodes nodes).usesAnd = true → (Record.ofNodes grown).usesAnd = true :=
    any_grown (Blind.steady fun _ _ _ => rfl) h
  have choice : (Record.ofNodes nodes).usesRandomChoice = true →
      (Record.ofNodes grown).usesRandomChoice = true := any_grown (Blind.steady fun _ _ _ => rfl) h
  have module : (Record.ofNodes nodes).importsRandom = true →
      (Record.ofNodes grown).importsRandom = true := any_grown blind_importsRandom.steady h
  have name : (Record.ofNodes nodes).importsRandomChoice = true →
      (Record.ofNodes grown).importsRandomChoice = true := any_grown blind_importsChoice.steady h
  have saved : (Record.ofNodes nodes).savedInputCalls ≤ (Record.ofNodes grown).savedInputCalls :=
    countP_grown (fun _ _ _ => rfl) h
  exact {
    usesOr, usesAnd
    hasIf := any_grown blind_isIf.steady h
    hasIfElse := any_grown steady_isIfElse h
    hasComparison := any_grown (Blind.steady fun _ _ _ => rfl) h
    usesInOperator := any_grown (Blind.steady fun _ _ _ => rfl) h
    usesStringMethod := any_grown (Blind.steady fun _ _ _ => rfl) h
    usesRandomChoice := choice
    importsRandom := module
    importsRandomChoice := name
    hasListOfStrings := any_grown (Blind.steady fun _ _ _ => rfl) h
    hasForLoop := any_grown blind_isFor.steady h
    hasNestedIf := any_grown steady_isNestedIf h
    inputCalls := countP_grown (fun _ _ _ => rfl) h
    savedInputCalls := saved
    stringVars := fun _ => stringVars_grown h
    printsStringVar := printsStringVar_grown h
    concatenatesStrings := concatenatesStrings_grown h
    printsBoolean := any_grown (Blind.steady fun _ _ _ => rfl) h
    hasInputSaved := fun hs => by
      simp only [Record.hasInputSaved, decide_eq_true_eq] at hs ⊢
      exact hs.trans saved
    hasInputUnsaved := hasInputUnsaved_grown h
    randomChoiceOk := fun hr => by
      simp only [Record.randomChoiceOk, Bool.and_eq_true, Bool.or_eq_true] at hr ⊢
      exact ⟨choice hr.1, hr.2.imp module name⟩
    assignsString := fun ha => by
      obtain ⟨name, hn⟩ := (assignsString_iff_mem _).mp ha
      exact (assignsString_iff_mem _).mpr ⟨name, stringVars_grown h hn⟩
    usesBooleanLogic := fun hb => by
      simp only [Record.usesBooleanLogic, Bool.or_eq_true] at hb ⊢
      exact hb.imp usesAnd usesOr }

end

end

/-! ### A statement more -/

section

variable (context : Context) (before after : List Stmt) (stmt : Stmt)

theorem swells_insert : Swells (before ++ after) (before ++ stmt :: after) where
  nonempty := by simp
  hasIf := by
    simp only [List.any_append, List.any_cons, Bool.or_eq_true]
    rintro (h | h)
    · exact .inl h
    · exact .inr (.inr h)

theorem nodes_insert {chains : Prop} (h : chains → inElse context = false) :
    NodesGrow chains (nodes ⟨plug context (before ++ after)⟩)
      (nodes ⟨plug context (before ++ stmt :: after)⟩) := by
  refine nodes_plug context (swells_insert before after stmt) (fun hc he => ?_) (.of_subperm ?_)
  · rw [h hc] at he
    cases he
  · obtain ⟨kind, line⟩ := stmt
    simp only [stmtNodes_append, stmtNodes]
    exact ((List.Sublist.refl _).append (List.sublist_append_right _ _)).subperm

/-- The record of a tree keeps what it gives credit for when a statement is put into a block. -/
theorem keeps_insert : (Record.ofModule ⟨plug context (before ++ after)⟩).Keeps
    (Record.ofModule ⟨plug context (before ++ stmt :: after)⟩) := by
  have grown : NodesGrow False (nodes ⟨plug context (before ++ after)⟩)
      (nodes ⟨plug context (before ++ stmt :: after)⟩) :=
    nodes_insert context before after stmt False.elim
  exact keeps_of_grown grown

/-- Chains of `elif` stay too, unless the block is the else-branch of an `if`. -/
theorem hasElifChain_insert (h : inElse context = false)
    (chain : (Record.ofModule ⟨plug context (before ++ after)⟩).hasElifChain = true) :
    (Record.ofModule ⟨plug context (before ++ stmt :: after)⟩).hasElifChain = true := by
  have grown : NodesGrow True (nodes ⟨plug context (before ++ after)⟩)
      (nodes ⟨plug context (before ++ stmt :: after)⟩) :=
    nodes_insert context before after stmt fun _ => h
  exact any_grown (steady_isElifChain trivial) grown chain

end

/-- A statement in an else-branch behind an `elif` breaks the chain. -/
example :
    let chain (last : List Stmt) : List Stmt :=
      [.mk (.if (.name "a") [] [.mk (.if (.name "b") [] last) 2]) 1]
    let inner : Stmt := .mk (.if (.name "c") [] [.mk .pass 4]) 3
    (Record.ofModule ⟨chain [inner]⟩).hasElifChain = true ∧
      (Record.ofModule ⟨chain [inner, .mk .pass 5]⟩).hasElifChain = false := by cbv

end Marksheet.Features
