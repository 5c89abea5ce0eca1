import Marksheet.Proofs.Grammar.Blocks
import Marksheet.Proofs.Grammar.SimpleLines

/-!
# Parsing inverts printing

A line that an expression is printed on is cut into tokens of the expression's
shapes and the end of the text. The grammar reads these as one expression, the
statement reader finds the line ended behind it, and the tree of the text has this
expression as its only statement. The parentheses that were put around parts of the
expression leave no trace.
-/

namespace Marksheet.Grammar

open Marksheet.Source Marksheet.Syntax

/-! ### The end of the text -/

/-- The token ends the text, with line ends before it. -/
structure Finishes (token : Token) : Prop where
  lexeme : token.lexeme = .finish
  lines : ∀ piece ∈ token.gap, piece = .newline

/-- Line ends are passed up to the token, and no indentation is counted behind them. -/
theorem outlook_of_lines (skip : Bool) {gap : List Trivia} (h : ∀ piece ∈ gap, piece = .newline)
    (ended : Bool) :
    outlook skip { ended } gap = { ended := ended || !gap.isEmpty, reached := true } := by
  induction gap generalizing ended with
  | nil => simp only [outlook, List.isEmpty_nil, Bool.not_true, Bool.or_false]
  | cons piece gap ih =>
    obtain rfl := h piece List.mem_cons_self
    rw [outlook, ih fun other hm => h other (List.mem_cons_of_mem _ hm)]
    simp only [Bool.true_or, List.isEmpty_cons, Bool.not_false, Bool.or_true]

/-- The end of the text is a line without indentation. -/
theorem Finishes.startsLine {token : Token} (h : Finishes token) : StartsLine 0 token where
  sight := by
    refine ⟨!token.gap.isEmpty, 0, fun skip => ?_, .inr h.lexeme, (if_pos h.lexeme).symm⟩
    rw [outlook_of_lines skip h.lines false, Bool.false_or]
  blank := dropBlanks_eq_nil fun piece hm => .inr (h.lines piece hm)

/-- At the end of the text the block of the whole text ends. -/
theorem Finishes.stops {token : Token} (h : Finishes token) : Stops 0 [token] [token.close] :=
  .finish h.startsLine h.lexeme

/-! ### Expressions that begin no other statement -/

/-- No word comes first that also begins a statement. -/
def FreeHead (shapes : List Shape) : Prop :=
  ∀ shape ∈ shapes.head?, shape.1 = .word → shape.2 ∉ statementWords

theorem FreeHead.of_symbol {shape : Shape} (h : shape.1 ≠ .word) (more : List Shape) :
    FreeHead (shape :: more) := fun _ hm hw => absurd (Option.mem_some_iff.mp hm ▸ hw) h

theorem FreeHead.of_word {text : String} (h : text ∉ statementWords) (more : List Shape) :
    FreeHead (.word text :: more) := fun _ hm _ => Option.mem_some_iff.mp hm ▸ h

theorem FreeHead.startsPlainly {shapes : List Shape} (h : FreeHead shapes) :
    startsPlainly shapes = true := by
  match shapes with
  | [] => rfl
  | (.word, text) :: rest =>
    have hfree : text ∉ statementWords := h _ rfl rfl
    simp only [statementWords, List.mem_cons, List.not_mem_nil, or_false, not_or] at hfree
    simp only [Syntax.startsPlainly, bne_iff_ne.mpr hfree.1, bne_iff_ne.mpr hfree.2.1,
      beq_eq_false_iff_ne.mpr hfree.2.2.1, Bool.false_and, Bool.not_false, Bool.and_self]
  | (.integer, _) :: _ | (.float, _) :: _ | (.symbol _, _) :: _ | (.quoteOpen, _) :: _
  | (.quoteText, _) :: _ | (.quoteClose, _) :: _ | (.fieldOpen, _) :: _ | (.fieldClose, _) :: _
  | (.conversion, _) :: _ | (.specOpen, _) :: _ | (.specText, _) :: _ | (.broken, _) :: _
  | (.finish, _) :: _ => rfl

/-- Parentheses around an expression, if there are any, come first. -/
theorem within_free (needed : Nat) (extra : Redundance) (e : Expr) {pieces : List Piece}
    (h : ∀ more, FreeHead (shapesOf pieces ++ more)) (more : List Shape) :
    FreeHead (shapesOf (within needed extra e pieces) ++ more) := by
  rw [within]
  cases extra [] + if e.strength < needed then 1 else 0 with
  | zero => exact h more
  | succ count =>
    rw [enclosed, List.cons_append, shapesOf_cons]
    exact .of_symbol (by simp [Shape.sign]) _

/-- A printed expression without names like those words does not begin with one. -/
theorem bare_free (extra : Redundance) : (e : Expr) → e.isPrintable = true → ∀ more,
    FreeHead (shapesOf (bare extra e) ++ more)
  | .name id, h, more => by
    rw [Expr.isPrintable, isFreeWord, Bool.and_eq_true, Bool.and_eq_true, Bool.not_eq_true',
      Bool.not_eq_true'] at h
    refine .of_word (fun hm => ?_) more
    rw [List.contains_iff_mem.mpr hm] at h
    cases h.2.2
  | .str _, _, _ | .int _, _, _ | .list _, _, _ | .tuple _, _, _ => .of_symbol (by nofun) _
  | .bool true, _, _ | .bool false, _, _ | .none, _, _ | .not _, _, _ => .of_word (by decide) _
  | .unary op _, _, _ => by
    rw [bare, shapesOf_cons]
    exact .of_symbol (by nofun) _
  | .boolOp op left right, h, more => by
    rw [Expr.isPrintable, Bool.and_eq_true] at h
    rw [bare, shapesOf_append, List.append_assoc]
    exact within_free _ _ left (bare_free _ left h.1) _
  | .binOp op left right, h, more => by
    rw [Expr.isPrintable, Bool.and_eq_true] at h
    rw [bare, shapesOf_append, List.append_assoc]
    exact within_free _ _ left (bare_free _ left h.1) _
  | .compare left links, h, more => by
    simp only [Expr.isPrintable, Bool.and_eq_true] at h
    rw [bare, shapesOf_append, List.append_assoc]
    exact within_free _ _ left (bare_free _ left h.1.1) _
  | .call func args kwargs, h, more => by
    simp only [Expr.isPrintable, Bool.and_eq_true] at h
    rw [bare, List.append_assoc, shapesOf_append, List.append_assoc]
    exact within_free _ _ func (bare_free _ func h.1.1) _
  | .attribute value attr, h, more => by
    simp only [Expr.isPrintable, Bool.and_eq_true] at h
    rw [bare, shapesOf_append, List.append_assoc]
    exact within_free _ _ value (bare_free _ value h.1.1) _
  | .subscript value index, h, more => by
    rw [Expr.isPrintable, Bool.and_eq_true] at h
    rw [bare, List.append_assoc, shapesOf_append, List.append_assoc]
    exact within_free _ _ value (bare_free _ value h.1) _
  | .ifExp test body orelse, h, more => by
    simp only [Expr.isPrintable, Bool.and_eq_true] at h
    rw [bare, List.append_assoc, shapesOf_append, List.append_assoc]
    exact within_free _ _ body (bare_free _ body h.1.2) _

theorem printed_startsPlainly (extra : Redundance) {e : Expr} (h : e.isPrintable = true) :
    startsPlainly (shapesOf (printed extra e)) = true := by
  have hfree := within_free 0 extra e (bare_free extra e h) []
  rw [List.append_nil] at hfree
  exact hfree.startsPlainly

/-! ### Lines in print -/

/-- Line ends at the end of a text belong to the gap before the end. -/
theorem takeGap_lines (count : Nat) (here : Position) :
    ∃ gap start, takeGap none here (List.replicate count '\n') = (gap, start, []) ∧
      ∀ piece ∈ gap, piece = .newline := by
  induction count generalizing here with
  | zero => exact ⟨[], here, rfl, by simp⟩
  | succ count ih =>
    obtain ⟨gap, start, hgap, hlines⟩ := ih (here.step '\n')
    refine ⟨.newline :: gap, start, ?_, fun piece hm => ?_⟩
    · rw [List.replicate_succ, takeGap_fills .newline, hgap]
    · exact (List.mem_cons.mp hm).elim id (hlines piece)

/-- They are cut into the token that ends the text. -/
theorem tokensFrom_lines (count fuel : Nat) (recent : Recent) (here : Position) :
    ∃ last, Finishes last ∧
      tokensFrom (fuel + 1) [] recent here (List.replicate count '\n') = [last] := by
  obtain ⟨gap, start, hgap, hlines⟩ := takeGap_lines count here
  refine ⟨⟨gap, .finish, "", start, here⟩, ⟨rfl, hlines⟩, ?_⟩
  simp only [tokensFrom, gapBefore, hgap]

/-- A printed expression is cut into its tokens and the end of the text. -/
theorem tokenize_printed {e : Expr} (h : e.isWritable = true) (extra : Redundance) (count : Nat) :
    ∃ first tail last, Writes (first :: tail) (printed extra e) ∧ Finishes last ∧
      first.start.line = 1 ∧
        tokenize (String.ofList (textOf (printed extra e) ++ List.replicate count '\n')) =
          first :: (tail ++ [last]) := by
  have hparted : Parted (printed extra e) (List.replicate count '\n') := by
    refine ((bare_sound extra e h).within 0 (Nat.zero_le 23) extra).parted _ fun c hc => ?_
    obtain rfl := List.eq_of_mem_replicate (List.mem_of_mem_head? hc)
    rfl
  obtain ⟨tokens, hwrites, ⟨fuel, recent, here, hfuel, hcut⟩, hfirst⟩ :=
    cutsOff_pieces hparted _ {} .first (Nat.lt_succ_self _)
  obtain ⟨fuel, rfl⟩ := Nat.exists_eq_succ_of_ne_zero (Nat.ne_zero_of_lt hfuel)
  obtain ⟨last, hlast, hend⟩ := tokensFrom_lines count fuel recent here
  obtain ⟨phrase, -, hread⟩ := printed_reads extra h
  obtain ⟨first, tail, rfl⟩ := List.exists_cons_of_ne_nil (hwrites.spells.ne_nil hread.ne_nil)
  refine ⟨first, tail, last, hwrites, hlast, hfirst first rfl, ?_⟩
  rw [tokenize, String.length_ofList, String.toList_ofList, hcut, hend, List.cons_append]

/-- At the end of the text the block of the whole text ends. -/
theorem blockFrom_of_finishes {last : Token} (h : Finishes last) (n : Nested) (b : Blocks)
    (fuel : Nat) (found : Block) :
    blockFrom n b 0 (fuel + 1) found [last] = .ok (found, [last.close]) := by
  have hlexeme : last.close.lexeme = .finish := h.lexeme
  have hgoes : settle 0 { quote := true } last = ⟨[], .goesOn, last.close⟩ :=
    settle_goesOn h.startsLine rfl
  simp only [blockFrom, Nat.lt_irrefl, decide_false, hgoes, hlexeme, if_true, continuedSentences,
    List.map_nil, List.append_nil]

theorem block_succ (n : Nested) (levels indent : Nat) (tokens : List Token) :
    (blocks n (levels + 1)).block indent tokens =
      blockFrom n (blocks n levels) indent tokens.length [] tokens := rfl

/-- The sentences of a text with one line that is a simple statement. -/
theorem sentences_eq_ok {pieces : List Piece} {kind : StmtKind} (h : ReadsLine pieces kind)
    {first last : Token} {tail : List Token} (ht : Writes (first :: tail) pieces)
    (hl : Finishes last) :
    ∃ form, sentences (first :: (tail ++ [last])) = .ok [.mk form first.start] ∧
      form.kind [] = kind ∧ ∀ start, legacyInForm? start form = none := by
  have hsnug : Snug first := ht.spells.snug first List.mem_cons_self
  have hinside : ¬ first.close.lexeme = .finish := hsnug.inside
  have hfinish : last.close.lexeme = .finish := hl.lexeme
  have hlength : (first :: (tail ++ [last])).length = tail.length + 1 + 1 := by
    rw [List.length_cons, List.length_append, List.length_singleton]
  have hlevels : (first.close :: tail).length ≤ tail.length + 1 + 1 + 1 := by
    rw [List.length_cons]
    omega
  have hclose : Writes (first.close :: tail) pieces := by
    cases pieces with
    | nil => exact absurd ht.spells.shape (List.cons_ne_nil _ _)
    | cons piece more => exact ht.close piece.blank
  obtain ⟨form, hread, hkind, hmodern⟩ := h first.close tail hclose _ hlevels 0 [last]
    hl.stops.behind (blocks (nested (tail.length + 1 + 1 + 1)) (tail.length + 1 + 1))
  refine ⟨form, ?_, hkind, hmodern⟩
  -- The block is read in two steps: the first one takes the line, the second one the end of the text.
  have hblock : blockFrom (nested (tail.length + 1 + 1 + 1))
      (blocks (nested (tail.length + 1 + 1 + 1)) (tail.length + 1 + 1)) 0 (tail.length + 1 + 1) []
        (first :: (tail ++ [last])) = .ok ([.mk form first.start], [last.close]) := by
    simp only [blockFrom, settle_of_snug hsnug, hinside, if_false, hread, Except.mapError, bind,
      Except.bind]
    exact blockFrom_of_finishes hl _ _ _ _
  simp only [sentences, hlength, block_succ, hblock, bind, Except.bind, hfinish, if_true]
  rfl

/-- Parsing inverts printing: the tree of a printed expression has this expression as its only
statement, whatever parentheses are added and however many line ends stand behind it. -/
theorem parse_printed (e : Expr) (h : e.isPrintable = true) (extra : Redundance) (count : Nat) :
    parse (String.ofList (textOf (printed extra e) ++ List.replicate count '\n')) =
      .ok ⟨[.mk (.expr e) 1]⟩ := by
  have hwritable := e.isWritable_of_isPrintable h
  obtain ⟨first, tail, last, hwrites, hlast, hfirst, htokens⟩ :=
    tokenize_printed hwritable extra count
  obtain ⟨form, hsentences, hkind, hmodern⟩ := sentences_eq_ok
    (expr_readsLine (printed_reads extra hwritable) (printed_startsPlainly extra h)) hwrites hlast
  have htree : Module.ofBlock [.mk form first.start] = ⟨[.mk (.expr e) 1]⟩ := by
    rw [Module.ofBlock, stmts, stmts, Sentence.stmt, hkind, hfirst]
  simp only [parse, read, htokens, hsentences, legacyInBlock?, legacyIn?, hmodern, Option.or, htree]

/-- A line with many forms of expressions, and two pairs of parentheses around the conditional. -/
theorem parse_printed_score :
    parse "not a == -x ** 2 < (1).real and f([i, True], key=(\"q\\\"\",)) or ((y if None else g[0]))\n" =
      .ok ⟨[.mk (.expr
        (.boolOp .or
          (.boolOp .and
            (.not (.compare (.name "a")
              [(.eq, .unary .neg (.binOp .pow (.name "x") (.int 2))),
                (.lt, .attribute (.int 1) "real")]))
            (.call (.name "f") [.list [.name "i", .bool true]] [("key", .tuple [.str "q\""])]))
          (.ifExp .none (.name "y") (.subscript (.name "g") (.int 0))))) 1]⟩ :=
  parse_printed
    (.boolOp .or
      (.boolOp .and
        (.not (.compare (.name "a")
          [(.eq, .unary .neg (.binOp .pow (.name "x") (.int 2))), (.lt, .attribute (.int 1) "real")]))
        (.call (.name "f") [.list [.name "i", .bool true]] [("key", .tuple [.str "q\""])]))
      (.ifExp .none (.name "y") (.subscript (.name "g") (.int 0))))
    (by decide +kernel) (fun way => if way = [1] then 1 else 0) 1

end Marksheet.Grammar
